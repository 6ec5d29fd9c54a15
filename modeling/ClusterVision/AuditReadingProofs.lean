import ClusterVision.RedactionProofs

/-! # What can be read of the audit log

    The middleware stores the redaction of any JSON value.  The reader's model
    wants an object for a payload, and the response that is made of a page is
    text in UTF-8, from a serializer that has only so much room for values in
    one another.  The main result says after which requests every page can be
    read. -/

namespace CvAudit

open CvProg CvRun CvTable CvIso CvKube CvBackend CvRbac CvHttp

/-! ## Values -/

/-- The redaction of the value can stand in a response: outside of the redacted
    keys it is nested no deeper than there is room, and it has no surrogates. -/
def Displayable : Nat → Json → Prop
  | 0, _ => False
  | room + 1, .dict entries => ∀ e ∈ entries, Str.encodable e.1 = true ∧
      (redacted e.1 = true → 0 < room) ∧
      (redacted e.1 = false → Displayable room e.2)
  | room + 1, .list xs => ∀ x ∈ xs, Displayable room x
  | _ + 1, .str s => Str.encodable s = true
  | _ + 1, _ => True

/-- The same of an item of a dict. -/
def DisplayableEntry (room : Nat) (e : Str × Json) : Prop :=
  Str.encodable e.1 = true ∧ (redacted e.1 = true → 0 < room) ∧
    (redacted e.1 = false → Displayable room e.2)

/-- What a predicate says of the items of two lists that belong together. -/
theorem forall_iff_of_forall₂ {α β : Type} {R : α → β → Prop}
    {p : α → Prop} {q : β → Prop} {xs : List α} {ys : List β}
    (h : List.Forall₂ R xs ys) (hpq : ∀ x y, R x y → (q y ↔ p x)) :
    (∀ y ∈ ys, q y) ↔ ∀ x ∈ xs, p x := by
  induction h with
  | nil => exact iff_of_true nofun nofun
  | cons hxy _ ih =>
      rw [List.forall_mem_cons, List.forall_mem_cons, hpq _ _ hxy, ih]

theorem marker_renders (room : Nat) :
    marker.renders room = true ↔ 0 < room := by
  cases room with
  | zero => exact iff_of_false Bool.false_ne_true (Nat.lt_irrefl 0)
  | succ room =>
      have hmarker : Str.encodable (str "***redacted***") = true := by decide
      exact iff_of_true hmarker (Nat.succ_pos room)

/-- The item of a redaction. -/
theorem redactEntry_renders_iff {stack room : Nat}
    (hvalue : ∀ v v', redact stack v = .ok v' →
      (v'.renders room = true ↔ Displayable room v))
    (e f : Str × Json) (h : redactEntry stack e = .ok f) :
    (Str.encodable f.1 && f.2.renders room) = true
      ↔ DisplayableEntry room e := by
  obtain ⟨hname, hmarker, hopen⟩ := redactEntry_ok.mp h
  rw [Bool.and_eq_true, hname, DisplayableEntry]
  refine and_congr_right (fun _ => ?_)
  by_cases hkey : redacted e.1 = true
  · rw [hmarker hkey, marker_renders]
    refine ⟨fun hroom => ⟨fun _ => hroom, fun hno => ?_⟩, fun h => h.1 hkey⟩
    rw [hkey] at hno
    cases hno
  · have hno : redacted e.1 = false := Bool.not_eq_true _ |>.mp hkey
    rw [hvalue e.2 f.2 (hopen hno)]
    exact ⟨fun h => ⟨fun hyes => absurd hyes hkey, fun _ => h⟩,
      fun h => h.2 hno⟩

/-- A response can hold a redaction when the value is displayable. -/
theorem redact_renders_iff (stack : Nat) : ∀ (room : Nat) (v v' : Json),
    redact stack v = .ok v' →
      (v'.renders room = true ↔ Displayable room v) := by
  induction stack with
  | zero => exact fun room v v' h => nomatch h
  | succ stack ih =>
      intro room v v' h
      cases room with
      | zero => exact iff_of_false Bool.false_ne_true id
      | succ room =>
          cases v with
          | list xs =>
              obtain ⟨ys, rfl, hall⟩ := redact_list_ok.mp h
              show ys.all (Json.renders room) = true ↔ _
              rw [List.all_eq_true]
              exact forall_iff_of_forall₂ hall (ih room)
          | dict entries =>
              obtain ⟨entries', rfl, hall⟩ := redact_dict_ok.mp h
              show entries'.all _ = true ↔ ∀ e ∈ entries, DisplayableEntry room e
              rw [List.all_eq_true]
              exact forall_iff_of_forall₂ hall
                (redactEntry_renders_iff (ih room))
          | str s =>
              obtain rfl := Except.ok.inj h
              exact Iff.rfl
          | null | bool | number | nan | infinity =>
              obtain rfl := Except.ok.inj h
              exact iff_of_true rfl trivial

/-- A page can be answered with this payload. -/
def Servable (room : Nat) : Json → Prop
  | .null => True
  | .dict entries => rendersDict room entries = true
  | _ => False

/-- The payload that is made of the value is one of these. -/
def Presentable (room : Nat) : Json → Prop
  | .null => True
  | .dict entries => ∀ e ∈ entries, DisplayableEntry room e
  | _ => False

theorem redact_servable_iff {stack room : Nat} {v v' : Json}
    (h : redact stack v = .ok v') : Servable room v' ↔ Presentable room v := by
  cases stack with
  | zero => exact nomatch h
  | succ stack =>
      cases v with
      | list xs =>
          obtain ⟨ys, rfl, -⟩ := redact_list_ok.mp h
          exact Iff.rfl
      | dict entries =>
          obtain ⟨entries', rfl, hall⟩ := redact_dict_ok.mp h
          show entries'.all _ = true ↔ _
          rw [List.all_eq_true]
          exact forall_iff_of_forall₂ hall
            (redactEntry_renders_iff (redact_renders_iff stack room))
      | null | bool | number | nan | infinity | str =>
          obtain rfl := Except.ok.inj h
          exact Iff.rfl

/-! ## Pages -/

/-- An entry can be read and answered with when its payload can. -/
theorem readEntry_servable_iff (room : Nat) (e : AuditLogEntry) :
    (∃ r, readEntry e.toDict = .ok r ∧ r.renders room = true)
      ↔ Servable room e.payload := by
  show (∃ r, (readPayload e.payload).map _ = .ok r ∧ _) ↔ _
  rw [ok_map_iff]
  cases e.payload with
  | null => exact iff_of_true ⟨none, rfl, rfl⟩ trivial
  | dict entries =>
      constructor
      · rintro ⟨payload, h, hrenders⟩
        obtain rfl := Except.ok.inj h
        exact hrenders
      · exact fun h => ⟨some entries, rfl, h⟩
  | bool | number | nan | infinity | str | list =>
      refine iff_of_false ?_ id
      rintro ⟨payload, h, -⟩
      cases h

/-- A page is answered when its entries can be. -/
theorem serveAuditLog_iff (room : Nat) (order : NewestFirst) (q : PageQuery)
    (log : List AuditLogEntry) :
    (∃ page, serveAuditLog room order q log = .ok page)
      ↔ ∀ e ∈ pageEntries order q log, Servable room e.payload := by
  have hentries : (∃ items,
      ((pageEntries order q log).map AuditLogEntry.toDict).mapM readEntry
          = .ok items ∧ items.all (AuditLogEntryRead.renders room) = true)
        ↔ ∀ e ∈ pageEntries order q log, Servable room e.payload := by
    rw [mapM_all_iff, List.forall_mem_map]
    exact forall₂_congr (fun e _ => readEntry_servable_iff room e)
  rw [← hentries]
  have hlist : listAuditLog order q log
      = (((pageEntries order q log).map AuditLogEntry.toDict).mapM
          readEntry).map (fun items =>
            AuditLogPage.mk items (listEntries order q log).2) := rfl
  rw [serveAuditLog, hlist]
  cases ((pageEntries order q log).map AuditLogEntry.toDict).mapM
      readEntry with
  | error e =>
      refine iff_of_false ?_ ?_
      · rintro ⟨page, h⟩
        cases h
      · rintro ⟨items, h, -⟩
        cases h
  | ok items =>
      show (∃ page, (if items.all _ = true then _ else _) = _) ↔ _
      by_cases hall : items.all (AuditLogEntryRead.renders room) = true
      · rw [if_pos hall]
        exact iff_of_true ⟨_, rfl⟩ ⟨items, rfl, hall⟩
      · rw [if_neg hall]
        refine iff_of_false ?_ ?_
        · rintro ⟨page, h⟩
          cases h
        · rintro ⟨items', h, hall'⟩
          obtain rfl := Except.ok.inj h
          exact hall hall'

/-! ## Requests -/

/-- A request, with everything that decides what is logged of it. -/
structure Visit where
  request : Request
  inner : Except Exn Nat
  stamp : Stamp

/-- The log after a request. -/
def visitStep (env : AuditEnv) (v : Visit) (log : List AuditLogEntry) :
    List AuditLogEntry :=
  (dispatch env v.request v.inner v.stamp log).2

/-- If an entry is stored of the request, the value of its body is `null`, or a
    dict that is displayable. -/
def Showable (env : AuditEnv) (room : Nat) (v : Visit) : Prop :=
  shouldAudit v.request.method v.request.path = true → Handled v.inner →
    v.request.fits env = true → v.request.body ≠ [] →
      ∀ value, env.loads v.request.body = .ok value →
        Loggable env.recursionLimit value → Presentable room value

/-- The payload of an audited request. -/
theorem auditPayload_cases {env : AuditEnv} {body : List UInt8}
    {payload : Json} (h : auditPayload env body = .ok payload) :
    (payload = .null ∧ (body ≠ [] → ∀ value, env.loads body ≠ .ok value)) ∨
      body ≠ [] ∧ ∃ value, env.loads body = .ok value ∧
        redact env.recursionLimit value = .ok payload := by
  rw [auditPayload] at h
  by_cases hb : body = []
  · rw [if_pos hb] at h
    exact Or.inl ⟨(Except.ok.inj h).symm, fun hne => absurd hb hne⟩
  · rw [if_neg hb] at h
    cases hl : env.loads body with
    | ok value =>
        rw [hl] at h
        exact Or.inr ⟨hb, value, rfl, h⟩
    | error e =>
        rw [hl] at h
        cases e with
        | jsonDecodeError | unicodeDecodeError =>
            refine Or.inl ⟨(Except.ok.inj h).symm, fun _ value hv => ?_⟩
            cases hv
        | _ => cases h

/-- After a request, the log has one entry more, which can be answered with
    exactly when the request can be shown, or the log is as it was. -/
theorem visitStep_cases (env : AuditEnv) (room : Nat) (v : Visit)
    (log : List AuditLogEntry) :
    (∃ e, visitStep env v log = log ++ [e] ∧
      (Servable room e.payload ↔ Showable env room v)) ∨
    (visitStep env v log = log ∧ Showable env room v) := by
  rcases dispatch_log env v.request v.inner v.stamp log with
    ⟨payload, status, ha, hp, hv, hc, hfits, hlog⟩ | ⟨hnot, hlog⟩
  · refine Or.inl ⟨_, hlog, ?_⟩
    have hh : Handled v.inner := (handled_iff _).mpr ⟨status, hc⟩
    show Servable room payload ↔ _
    rcases auditPayload_cases hp with ⟨rfl, hnone⟩ | ⟨hb, value, hl, hr⟩
    · exact iff_of_true trivial
        (fun _ _ _ hb value hl _ => absurd hl (hnone hb value))
    · have hloggable : Loggable env.recursionLimit value :=
        (redact_valid_iff _ _).mp ⟨payload, hr, hv⟩
      rw [redact_servable_iff hr]
      constructor
      · intro hpresentable _ _ _ _ value' hl' _
        obtain rfl := Except.ok.inj (hl.symm.trans hl')
        exact hpresentable
      · exact fun hshow => hshow ha hh hfits hb value hl hloggable
  · refine Or.inr ⟨hlog, ?_⟩
    intro ha hh hfits hb value hl hloggable
    exact absurd ⟨ha, Or.inr (Or.inr (Or.inr ⟨value, hl, hloggable⟩)), hh,
      hfits⟩ hnot

/-- Every entry of a log can be answered with after a run exactly when those
    before it can and the run's requests can all be shown. -/
theorem servable_after (env : AuditEnv) (room : Nat) (vs : List Visit)
    (log : List AuditLogEntry) :
    (∀ e ∈ after (visitStep env) vs log, Servable room e.payload)
      ↔ (∀ e ∈ log, Servable room e.payload) ∧
        ∀ v ∈ vs, Showable env room v := by
  induction vs generalizing log with
  | nil =>
      rw [after_nil]
      exact ⟨fun h => ⟨h, fun v hv => nomatch hv⟩, fun h => h.1⟩
  | cons v vs ih =>
      rw [after_cons, ih, List.forall_mem_cons, ← and_assoc]
      refine and_congr_left (fun _ => ?_)
      rcases visitStep_cases env room v log with ⟨e, hlog, he⟩ | ⟨hlog, hshow⟩
      · rw [hlog, List.forall_mem_append, List.forall_mem_singleton, he]
      · rw [hlog]
        exact ⟨fun h => ⟨h, hshow⟩, fun h => h.1⟩

/-- After every sequence of requests: every page is answered exactly when each
    request of which an entry is stored has a body that is empty, no JSON,
    `null`, or an object whose redaction a response can hold. -/
theorem pages_readable_iff (env : AuditEnv) (room : Nat) (order : NewestFirst)
    (vs : List Visit) :
    (∀ q, ∃ page,
      serveAuditLog room order q (after (visitStep env) vs []) = .ok page)
      ↔ ∀ v ∈ vs, Showable env room v := by
  have hafter := servable_after env room vs []
  rw [and_iff_right (fun e he => nomatch he)] at hafter
  rw [← hafter]
  constructor
  · intro h e he
    obtain ⟨q, hq⟩ := exists_page order he
    exact (serveAuditLog_iff room order q _).mp (h q) e hq
  · intro h q
    exact (serveAuditLog_iff room order q _).mpr
      (fun e he => h e (mem_of_mem_page he))

/-- A client without a token sends a list to an audited path. -/
def listBody : Visit where
  request := ⟨"POST", "/api/v1/users", none, none, asciiBytes "[]"⟩
  inner := .error (.httpException 401 "Not authenticated")
  stamp := ⟨"0", Time.epoch⟩

/-- The page with the one entry of a log. -/
theorem pageEntries_singleton (e : AuditLogEntry) :
    pageEntries .stable (onePage 0) [e] = [e] := by
  have hsort : NewestFirst.stable.sort [e] = [e] := List.mergeSort_singleton e
  have hfilter : [e].filter (onePage 0).admits = [e] := rfl
  rw [pageEntries, hfilter, hsort]
  rfl

/-- An entry whose payload has a surrogate. -/
def surrogateEntry : AuditLogEntry :=
  auditEntry sampleEnv listBody.request listBody.stamp 401
    (.dict [(str "x", .str [.surrogate 0])])

/-- After the request, the first page does not fit its model; that of the entry
    with the surrogate fits, and cannot be encoded. -/
theorem listBody_unreadable :
    (¬ ∃ page, listAuditLog .stable (onePage 0)
      (after (visitStep sampleEnv) [listBody] []) = .ok page) ∧
    (∃ page, listAuditLog .stable (onePage 0) [surrogateEntry] = .ok page) ∧
    ¬ ∃ page, serveAuditLog 255 .stable (onePage 0) [surrogateEntry]
      = .ok page := by
  have hlog : after (visitStep sampleEnv) [listBody] []
      = [auditEntry sampleEnv listBody.request listBody.stamp 401
          (.list [])] := rfl
  rw [hlog, listAuditLog_iff, listAuditLog_iff, serveAuditLog_iff,
    pageEntries_singleton, pageEntries_singleton, List.forall_mem_singleton,
    List.forall_mem_singleton, List.forall_mem_singleton]
  exact ⟨Bool.false_ne_true, rfl, Bool.false_ne_true⟩

end CvAudit
