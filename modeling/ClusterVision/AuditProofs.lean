import ClusterVision.AuditLog
import ClusterVision.HttpRunProofs

/-! # What the audit log records

    An entry is written only when the inner application has responded, and
    the database takes only payloads that are valid JSON and texts that fit
    their columns; the main result says for which requests an entry is stored.
    The reader's model wants an object for a payload. -/

namespace CvAudit

open CvProg CvRun CvTable CvIso CvKube CvBackend CvRbac CvHttp

/-! ## Redaction -/

theorem validItems_eq (xs : List Json) : validItems xs = xs.all Json.valid := by
  induction xs with
  | nil => rfl
  | cons x xs ih =>
      rw [validItems, List.all_cons, ih]

theorem validEntries_eq (entries : List (Str × Json)) :
    validEntries entries = entries.all (fun e => e.2.valid) := by
  induction entries with
  | nil => rfl
  | cons e entries ih =>
      obtain ⟨k, v⟩ := e
      rw [validEntries, List.all_cons, ih]

/-- What is done to a value that a computation returns. -/
theorem ok_map_iff {α β ε : Type} {r : Except ε α} {g : α → β}
    {p : β → Prop} :
    (∃ b, r.map g = .ok b ∧ p b) ↔ ∃ a, r = .ok a ∧ p (g a) := by
  cases r with
  | error e =>
      constructor
      · rintro ⟨b, h, -⟩
        exact nomatch h
      · rintro ⟨a, h, -⟩
        exact nomatch h
  | ok a =>
      constructor
      · rintro ⟨b, h, hp⟩
        obtain rfl := Except.ok.inj h
        exact ⟨a, rfl, hp⟩
      · rintro ⟨a', h, hp⟩
        obtain rfl := Except.ok.inj h
        exact ⟨g a, rfl, hp⟩

/-- A map over a list that may fail succeeds with values of some kind exactly
    when it does for each item. -/
theorem mapM_all_iff {α β ε : Type} {f : α → Except ε β} {p : β → Bool}
    {xs : List α} :
    (∃ ys, xs.mapM f = .ok ys ∧ ys.all p = true)
      ↔ ∀ x ∈ xs, ∃ y, f x = .ok y ∧ p y = true := by
  induction xs with
  | nil =>
      constructor
      · intro _ x hx
        exact nomatch hx
      · intro _
        exact ⟨[], rfl, rfl⟩
  | cons x xs ih =>
      rw [List.mapM_cons, List.forall_mem_cons, ← ih]
      cases f x with
      | error e =>
          constructor
          · rintro ⟨ys, h, -⟩
            exact nomatch h
          · rintro ⟨⟨y, h, -⟩, -⟩
            exact nomatch h
      | ok y =>
          show (∃ zs, (xs.mapM f).map (List.cons y) = .ok zs ∧ _) ↔ _
          rw [ok_map_iff]
          constructor
          · rintro ⟨ys, hys, hall⟩
            rw [List.all_cons, Bool.and_eq_true] at hall
            exact ⟨⟨y, rfl, hall.1⟩, ys, hys, hall.2⟩
          · rintro ⟨⟨z, hz, hp⟩, ys, hys, hall⟩
            obtain rfl := Except.ok.inj hz
            refine ⟨ys, hys, ?_⟩
            rw [List.all_cons, hp, hall]
            rfl

/-- A value that can be logged: outside of the redacted keys it is nested no
    deeper than the stack allows, and all of it has a JSON text. -/
def Loggable : Nat → Json → Prop
  | 0, _ => False
  | stack + 1, .dict entries =>
      ∀ e ∈ entries, redacted e.1 = true ∨ Loggable stack e.2
  | stack + 1, .list xs => ∀ x ∈ xs, Loggable stack x
  | _ + 1, value => value.valid = true

/-- `_redact` of an item of a dict. -/
def redactEntry (stack : Nat) (e : Str × Json) :
    Except Exn (Str × Json) :=
  if redacted e.1 then .ok (e.1, .str (str "***redacted***"))
  else (redact stack e.2).map (Prod.mk e.1)

theorem redact_dict (stack : Nat) (entries : List (Str × Json)) :
    redact (stack + 1) (.dict entries)
      = (entries.mapM (redactEntry stack)).map Json.dict := rfl

theorem redact_list (stack : Nat) (xs : List Json) :
    redact (stack + 1) (.list xs) = (xs.mapM (redact stack)).map Json.list :=
  rfl

/-- A value can be logged when its redaction is a value that the database
    takes. -/
theorem redact_valid_iff (stack : Nat) (value : Json) :
    (∃ v, redact stack value = .ok v ∧ v.valid = true)
      ↔ Loggable stack value := by
  induction stack generalizing value with
  | zero =>
      constructor
      · rintro ⟨v, h, -⟩
        exact nomatch h
      · intro h
        exact h.elim
  | succ stack ih =>
      cases value with
      | dict entries =>
          have hentry : ∀ e, (∃ y, redactEntry stack e = .ok y
              ∧ y.2.valid = true)
                ↔ redacted e.1 = true ∨ Loggable stack e.2 := by
            intro e
            rw [redactEntry]
            by_cases hr : redacted e.1 = true
            · rw [if_pos hr]
              exact ⟨fun _ => Or.inl hr, fun _ => ⟨_, rfl, rfl⟩⟩
            · rw [if_neg hr, or_iff_right hr, ← ih, ok_map_iff]
          rw [redact_dict, ok_map_iff]
          simp only [Json.valid, validEntries_eq]
          rw [mapM_all_iff]
          exact forall₂_congr (fun e _ => hentry e)
      | list xs =>
          rw [redact_list, ok_map_iff]
          simp only [Json.valid, validItems_eq]
          rw [mapM_all_iff]
          exact forall₂_congr (fun x _ => ih x)
      | null | bool | number | nan | infinity | str =>
          constructor
          · rintro ⟨v, h, hv⟩
            obtain rfl := Except.ok.inj h
            exact hv
          · intro h
            exact ⟨_, rfl, h⟩

/-! ## One request -/

/-- A body whose entry the database takes: it is empty or no JSON, or its value
    can be logged. -/
def LoggableBody (env : AuditEnv) (body : List UInt8) : Prop :=
  body = [] ∨ env.loads body = .error .jsonDecodeError ∨
    env.loads body = .error .unicodeDecodeError ∨
    ∃ value, env.loads body = .ok value ∧ Loggable env.recursionLimit value

/-- The texts of the entry of a request fit their columns. -/
def Request.fits (env : AuditEnv) (request : Request) : Bool :=
  fitsColumn 253 (actorFromRequest env request).1 &&
    fitsColumn 16 (actorFromRequest env request).2 &&
    fitsColumn 8 (some request.method) && fitsColumn 500 (some request.path)

/-- The inner application responds, or raises an exception that has a
    handler. -/
def Handled (inner : Except Exn Nat) : Prop :=
  ∀ e, inner = .error e → (registeredHandler e).isSome = true

theorem handled_iff (inner : Except Exn Nat) :
    Handled inner ↔ ∃ status, callNext inner = .ok status := by
  cases inner with
  | ok status => exact ⟨fun _ => ⟨status, rfl⟩, fun _ _ h => nomatch h⟩
  | error e =>
      rw [callNext]
      constructor
      · intro h
        obtain ⟨response, hr⟩ := Option.isSome_iff_exists.mp (h e rfl)
        rw [hr]
        exact ⟨response.status, rfl⟩
      · rintro ⟨status, h⟩ e' he
        obtain rfl := Except.error.inj he
        cases hr : registeredHandler e with
        | some response => rfl
        | none =>
            rw [hr] at h
            exact nomatch h

theorem loggableBody_iff (env : AuditEnv) (body : List UInt8) :
    LoggableBody env body
      ↔ ∃ payload, auditPayload env body = .ok payload
        ∧ payload.valid = true := by
  rw [LoggableBody, auditPayload]
  by_cases hb : body = []
  · rw [if_pos hb]
    exact ⟨fun _ => ⟨.null, rfl, rfl⟩, fun _ => Or.inl hb⟩
  · rw [if_neg hb, or_iff_right hb]
    cases hl : env.loads body with
    | ok value =>
        rw [redact_valid_iff]
        constructor
        · rintro (h | h | ⟨v, h, hv⟩)
          · exact nomatch h
          · exact nomatch h
          · obtain rfl := Except.ok.inj h
            exact hv
        · intro h
          exact Or.inr (Or.inr ⟨value, rfl, h⟩)
    | error e =>
        constructor
        · rintro (h | h | ⟨v, h, -⟩)
          · obtain rfl := Except.error.inj h
            exact ⟨.null, rfl, rfl⟩
          · obtain rfl := Except.error.inj h
            exact ⟨.null, rfl, rfl⟩
          · exact nomatch h
        · rintro ⟨payload, h, -⟩
          cases e with
          | jsonDecodeError => exact Or.inl rfl
          | unicodeDecodeError => exact Or.inr (Or.inl rfl)
          | _ => exact nomatch h

/-- Everything that `dispatch` can do to the log. -/
theorem dispatch_log (env : AuditEnv) (request : Request)
    (inner : Except Exn Nat) (stamp : Stamp) (log : List AuditLogEntry) :
    (∃ payload status,
      shouldAudit request.method request.path = true ∧
      auditPayload env request.body = .ok payload ∧ payload.valid = true ∧
      callNext inner = .ok status ∧ request.fits env = true ∧
      (dispatch env request inner stamp log).2
        = log ++ [auditEntry env request stamp status payload]) ∨
    (¬ (shouldAudit request.method request.path = true ∧
        LoggableBody env request.body ∧ Handled inner ∧
        request.fits env = true) ∧
      (dispatch env request inner stamp log).2 = log) := by
  rw [loggableBody_iff, handled_iff, dispatch]
  by_cases ha : shouldAudit request.method request.path = true
  · rw [if_pos ha]
    cases hp : auditPayload env request.body with
    | error e =>
        refine Or.inr ⟨?_, rfl⟩
        rintro ⟨-, ⟨payload, h, -⟩, -⟩
        exact nomatch h
    | ok payload =>
        cases hc : callNext inner with
        | error e =>
            refine Or.inr ⟨?_, rfl⟩
            rintro ⟨-, -, ⟨status, h⟩, -⟩
            exact nomatch h
        | ok status =>
            have hwrite : writeEntry (auditEntry env request stamp status
                payload) log
              = if (request.fits env && payload.valid) = true
                then .ok (log ++ [auditEntry env request stamp status payload])
                else .error .dataError := rfl
            simp only [hwrite]
            by_cases hstored : (request.fits env && payload.valid) = true
            · rw [if_pos hstored]
              rw [Bool.and_eq_true] at hstored
              exact Or.inl ⟨payload, status, ha, rfl, hstored.2, rfl,
                hstored.1, rfl⟩
            · rw [if_neg hstored]
              refine Or.inr ⟨?_, rfl⟩
              rintro ⟨-, ⟨p, h, hpv⟩, -, hfits⟩
              obtain rfl := Except.ok.inj h
              exact hstored (by rw [hfits, hpv]; rfl)
  · rw [if_neg ha]
    exact Or.inr ⟨fun h => ha h.1, rfl⟩

/-- Exactly one entry is stored, and it has the method and the path of the
    request. -/
def Recorded (request : Request) (log log' : List AuditLogEntry) : Prop :=
  ∃ e, log' = log ++ [e] ∧ e.method = request.method ∧ e.path = request.path

/-- An audited request is recorded exactly when its body can be logged, the
    inner application responds or raises an exception that has a handler, and
    the texts of the entry fit. -/
theorem dispatch_recorded_iff (env : AuditEnv) (request : Request)
    (inner : Except Exn Nat) (stamp : Stamp) (log : List AuditLogEntry)
    (haudit : shouldAudit request.method request.path = true) :
    Recorded request log (dispatch env request inner stamp log).2
      ↔ LoggableBody env request.body ∧ Handled inner ∧
        request.fits env = true := by
  rcases dispatch_log env request inner stamp log with
    ⟨payload, status, -, hp, hv, hc, hfits, hlog⟩ | ⟨hnot, hlog⟩
  · rw [hlog]
    constructor
    · intro _
      exact ⟨(loggableBody_iff _ _).mpr ⟨payload, hp, hv⟩,
        (handled_iff _).mpr ⟨status, hc⟩, hfits⟩
    · intro _
      exact ⟨_, rfl, rfl, rfl⟩
  · rw [hlog]
    constructor
    · rintro ⟨e, h, -, -⟩
      have hlen := congrArg List.length h
      simp at hlen
    · intro h
      exact absurd ⟨haudit, h⟩ hnot

/-- The UTF-8 bytes of an ASCII text. -/
def asciiBytes (text : String) : List UInt8 :=
  text.toList.map (fun c => c.toNat.toUInt8)

/-- The body of a request to create a certificate user. -/
def adasBody : List UInt8 :=
  asciiBytes "\x7b\"name\":\"ada\",\"user_type\":\"certificate\"\x7d"

/-- `json.loads`, on the bodies of the requests below. -/
def sampleLoads (body : List UInt8) : Except Exn Json :=
  if body = adasBody then
    .ok (.dict [(str "name", .str (str "ada")),
      (str "user_type", .str (str "certificate"))])
  else if body = asciiBytes "[]" then .ok (.list [])
  else .error .jsonDecodeError

/-- An interpreter with room for a thousand calls, and no valid tokens. -/
def sampleEnv : AuditEnv := ⟨sampleLoads, 1000, fun _ => none⟩

/-- A request to create a certificate user. -/
def adasRequest : Request :=
  ⟨"POST", "/api/v1/users", none, none, adasBody⟩

/-- The route of that request, for an operator of the local cluster. -/
def adasRoute : HttpRequest :=
  ⟨operatorOf "local", "local",
    .users (.createUser ⟨"ada", .certificate, [], "default"⟩)⟩

/-- A request whose body is no JSON is recorded when it is answered. -/
theorem dispatch_recorded_noJson :
    Recorded ⟨"POST", "/api/v1/users", none, none, asciiBytes "ada"⟩ []
      (dispatch sampleEnv
        ⟨"POST", "/api/v1/users", none, none, asciiBytes "ada"⟩ (.ok 422)
        ⟨"0", Time.epoch⟩ []).2 :=
  (dispatch_recorded_iff sampleEnv
    ⟨"POST", "/api/v1/users", none, none, asciiBytes "ada"⟩ (.ok 422)
    ⟨"0", Time.epoch⟩ [] (by decide)).mpr
      ⟨Or.inr (Or.inl rfl), nofun, by decide⟩

/-- Where the signer does not sign, the creation of a certificate user leaves
    its signing request behind, and no entry in the log. -/
theorem timeout_not_recorded :
    shouldAudit adasRequest.method adasRequest.path = true ∧
    (((adasRoute.after World.fresh).clusters "local").csrs.get
      "clustervision:ada").isSome = true ∧
    ¬ Recorded adasRequest [] (dispatch sampleEnv adasRequest
      (innerOf adasRoute World.fresh) ⟨"0", Time.epoch⟩ []).2 := by
  refine ⟨by decide, by decide, ?_⟩
  rintro ⟨e, h, -⟩
  have hnil : ([] : List AuditLogEntry) = [e] := h
  exact nomatch hnil

/-! ## Pages -/

/-- An entry that fits the model of the reader. -/
def Fits (e : AuditLogEntry) : Prop := e.payload.isDictOrNull = true

/-- An entry can be read when it fits the model. -/
theorem readEntry_iff (e : AuditLogEntry) :
    (∃ r, readEntry e.toDict = .ok r ∧ true = true) ↔ Fits e := by
  show (∃ r, (readPayload e.payload).map _ = .ok r ∧ true = true) ↔ _
  rw [ok_map_iff, Fits]
  cases e.payload with
  | null => exact ⟨fun _ => rfl, fun _ => ⟨none, rfl, rfl⟩⟩
  | dict entries => exact ⟨fun _ => rfl, fun _ => ⟨some entries, rfl, rfl⟩⟩
  | bool | number | nan | infinity | str | list =>
      constructor
      · rintro ⟨a, h, -⟩
        exact nomatch h
      · intro h
        exact nomatch h

/-- The entries of a page. -/
def pageEntries (order : NewestFirst) (q : PageQuery)
    (log : List AuditLogEntry) : List AuditLogEntry :=
  ((order.sort (log.filter q.admits)).drop q.offset).take q.limit

/-- A page can be read when its entries fit the model. -/
theorem listAuditLog_iff (order : NewestFirst) (q : PageQuery)
    (log : List AuditLogEntry) :
    (∃ page, listAuditLog order q log = .ok page)
      ↔ ∀ e ∈ pageEntries order q log, Fits e := by
  have hall : ∀ ys : List AuditLogEntryRead,
      ys.all (fun _ => true) = true := fun ys => by
    rw [List.all_eq_true]
    exact fun _ _ => rfl
  have hpage : (∃ page, listAuditLog order q log = .ok page)
      ↔ ∃ ys, ((pageEntries order q log).map AuditLogEntry.toDict).mapM
          readEntry = .ok ys ∧ ys.all (fun _ => true) = true := by
    show (∃ page, Except.map (fun items => AuditLogPage.mk items _)
      (((pageEntries order q log).map AuditLogEntry.toDict).mapM readEntry)
        = .ok page) ↔ _
    constructor
    · rintro ⟨page, h⟩
      obtain ⟨ys, hys, -⟩ :=
        (ok_map_iff (p := fun _ => True)).mp ⟨page, h, trivial⟩
      exact ⟨ys, hys, hall ys⟩
    · rintro ⟨ys, hys, -⟩
      rw [hys]
      exact ⟨_, rfl⟩
  rw [hpage, mapM_all_iff, List.forall_mem_map]
  exact forall₂_congr (fun e _ => readEntry_iff e)

/-- The entries of a page are entries of the log. -/
theorem mem_of_mem_page {order : NewestFirst} {q : PageQuery}
    {log : List AuditLogEntry} {e : AuditLogEntry}
    (h : e ∈ pageEntries order q log) : e ∈ log := by
  have hsort := List.mem_of_mem_drop (List.mem_of_mem_take h)
  rw [(order.perm _).mem_iff] at hsort
  exact (List.mem_filter.mp hsort).1

/-- The page with the one entry at an offset. -/
def onePage (offset : Nat) : PageQuery where
  limit := 1
  offset := offset
  actor := none
  pathContains := none
  limitPos := Nat.le_refl 1
  limitLe := by decide

/-- Every entry of the log is on some page. -/
theorem exists_page (order : NewestFirst) {log : List AuditLogEntry}
    {e : AuditLogEntry} (h : e ∈ log) :
    ∃ q, e ∈ pageEntries order q log := by
  have hadmits : ∀ i, log.filter (onePage i).admits = log := fun i => by
    rw [List.filter_eq_self]
    exact fun _ _ => rfl
  have hsort : e ∈ order.sort log := (order.perm log).mem_iff.mpr h
  obtain ⟨i, hi, hget⟩ := List.mem_iff_getElem.mp hsort
  refine ⟨onePage i, ?_⟩
  rw [pageEntries, hadmits]
  show e ∈ ((order.sort log).drop i).take 1
  rw [List.drop_eq_getElem_cons hi, hget]
  exact List.mem_cons_self

end CvAudit
