import ClusterVision.LoginLimitProofs

/-! # The window of the limit

    Here login attempts come one after the other, each through a proxy that
    writes the address of its client into `x-forwarded-for`.  The main result
    says that pruning, counting and writing together admit an attempt exactly
    when the window behind it has room, whatever the client had put into the
    header. -/

namespace CvLimit

open CvProg CvPool CvIso CvBackend

/-! ## Attempts -/

/-- The address of a client, as a proxy writes it. -/
structure Address where
  text : String
  nonempty : text ≠ ""
  plain : ∀ ch ∈ text.toList, ch ≠ ',' ∧ isSpace ch = false

/-- What a proxy does with the header of the client. -/
inductive Proxy where
  | appends
  | replaces

/-- The header that the backend gets. -/
def Proxy.forward (ip : Address) (sent : Option String) : Proxy → String
  | .appends =>
      match sent with
      | some text => text ++ ", " ++ ip.text
      | none => ip.text
  | .replaces => ip.text

/-- An attempt: what the client had sent in the header, its address, the proxy,
    the host that the backend sees, the time, and how the check ended. -/
structure Attempt where
  sent : Option String
  ip : Address
  proxy : Proxy
  host : Option String
  time : Time
  result : Except Exn Unit

/-- The bucket of an attempt. -/
def Attempt.bucket (a : Attempt) : String :=
  clientIp (some (a.proxy.forward a.ip a.sent)) a.host

/-- Attempts one after the other, each at the time that it reads off the
    clock, which is never set back. -/
inductive Handled (start : LimitStore Unit) :
    List Attempt → LimitStore Unit → Prop where
  | nil : Handled start [] start
  | concat {attempts : List Attempt} {s s' : LimitStore Unit} {a : Attempt}
      (before : Handled start attempts s)
      (check : Alone answers () (checkLoginRateLimit a.bucket) s a.result s')
      (time : s'.clock = a.time) : Handled start (attempts ++ [a]) s'

/-- Did the check let the attempt through? -/
def Attempt.passed (a : Attempt) : Bool :=
  match a.result with
  | .ok _ => true
  | .error _ => false

/-- The attempt was admitted, from this address, between these times. -/
def AdmittedIn (ip : String) (start stop : Time) (a : Attempt) : Prop :=
  a.passed = true ∧ a.ip.text = ip ∧ start ≤ a.time ∧ a.time ≤ stop

instance (ip : String) (start stop : Time) (a : Attempt) :
    Decidable (AdmittedIn ip start stop a) :=
  inferInstanceAs (Decidable (_ ∧ _ ∧ _ ∧ _))

/-- An attempt is counted for its address; it goes through exactly when fewer
    than ten from there went through in the five minutes up to it, and is
    refused otherwise. -/
structure Exact (before : List Attempt) (a : Attempt) : Prop where
  bucket : a.bucket = a.ip.text
  admitted : ∀ start, a.time.addMinutes (-5) = some start →
    (a.result = .ok () ↔ before.countP
      (fun b => decide (AdmittedIn a.ip.text start a.time b)) < 10)
  refused : ∀ start, a.time.addMinutes (-5) = some start →
    a.result ≠ .ok () → a.result = .error tooManyAttempts

/-! ## Addresses -/

theorem strip_of_plain {text : List Char}
    (h : ∀ ch ∈ text, isSpace ch = false) : strip text = text := by
  have hkeep : ∀ xs : List Char, (∀ ch ∈ xs, isSpace ch = false) →
      xs.dropWhile isSpace = xs := by
    intro xs hxs
    cases xs with
    | nil => rfl
    | cons x xs =>
        rw [List.dropWhile_cons_of_neg]
        rw [hxs x (List.mem_cons_self ..)]
        nofun
  rw [strip, hkeep text h, hkeep, List.reverse_reverse]
  exact fun ch hch => h ch (List.mem_reverse.mp hch)

theorem strip_cons_space {text : List Char} :
    strip (' ' :: text) = strip text := by
  rw [strip, strip, List.dropWhile_cons_of_pos (by decide)]

/-- The last part of what a proxy writes is the address. -/
theorem bucket_eq (a : Attempt) : a.bucket = a.ip.text := by
  have hcommas : ',' ∉ a.ip.text.toList :=
    fun hmem => (a.ip.plain ',' hmem).1 rfl
  have hstrip : strip a.ip.text.toList = a.ip.text.toList :=
    strip_of_plain (fun ch hch => (a.ip.plain ch hch).2)
  have halone : clientIp (some a.ip.text) a.host = a.ip.text := by
    rw [clientIp, Option.filter_some, if_pos (decide_eq_true a.ip.nonempty)]
    show String.ofList (strip (((a.ip.text.toList.splitOn ',').getLast?).getD
      [])) = _
    rw [List.splitOn_eq_singleton hcommas]
    show String.ofList (strip a.ip.text.toList) = _
    rw [hstrip, String.ofList_toList]
  rw [Attempt.bucket]
  cases a.proxy with
  | replaces => exact halone
  | appends =>
      cases a.sent with
      | none => exact halone
      | some text =>
          show clientIp (some (text ++ ", " ++ a.ip.text)) a.host = _
          have hne : text ++ ", " ++ a.ip.text ≠ "" := by
            intro h
            have hlist := congrArg String.toList h
            rw [String.toList_append] at hlist
            have hnil := (List.append_eq_nil_iff.mp hlist).2
            refine a.ip.nonempty ?_
            rw [← String.ofList_toList (s := a.ip.text), hnil]
          have hlist : (text ++ ", " ++ a.ip.text).toList
              = text.toList ++ ',' :: (' ' :: a.ip.text.toList) := by
            rw [String.toList_append, String.toList_append, List.append_assoc]
            rfl
          have hspace : ',' ∉ ' ' :: a.ip.text.toList := by
            rw [List.mem_cons, not_or]
            exact ⟨by decide, hcommas⟩
          rw [clientIp, Option.filter_some, if_pos (decide_eq_true hne)]
          show String.ofList (strip (((List.splitOn ','
            (text ++ ", " ++ a.ip.text).toList).getLast?).getD [])) = _
          rw [hlist, List.splitOn_append_cons_self,
            List.splitOn_eq_singleton hspace, List.getLast?_append]
          show String.ofList (strip (' ' :: a.ip.text.toList)) = _
          rw [strip_cons_space, hstrip, String.ofList_toList]

/-! ## One check -/

/-- The rows that are left when the old ones of an address are gone. -/
def pruned (ip : String) (start : Time) (rows : List LoginAttempt) :
    List LoginAttempt :=
  rows.filter (fun a => decide (¬ (a.ip = ip ∧
    a.attemptedAt.instant < start.instant)))

/-- The rows of an address. -/
def rowsOf (ip : String) (rows : List LoginAttempt) : List LoginAttempt :=
  rows.filter (fun a => decide (a.ip = ip))

/-- How a check ends and what it leaves, from the rows before it. -/
inductive Checked (ip : String) (now : Time) (rows : List LoginAttempt) :
    Except Exn Unit → List LoginAttempt → Prop where
  | overflow (e : Exn) (noStart : windowStart now = .error e) :
      Checked ip now rows (.error e) rows
  | refused (start : Time) (hasStart : windowStart now = .ok start)
      (full : loginRateLimit ≤ (rowsOf ip (pruned ip start rows)).length) :
      Checked ip now rows (.error tooManyAttempts) (pruned ip start rows)
  | admitted (start : Time) (hasStart : windowStart now = .ok start)
      (room : (rowsOf ip (pruned ip start rows)).length < loginRateLimit)
      (id : String) :
      Checked ip now rows (.ok ()) (pruned ip start rows ++ [⟨id, ip, now⟩])

/-- A store between two calls. -/
structure Idle (s : LimitStore Unit) : Prop where
  tx : s.tx () = .empty

/-- A call of a session is answered, and its answer is the rest's input. -/
theorem alone_ask_bind {α : Type} {op : LimitOp}
    {f : op.Res → Prog limitCalls Exn α} {s s' : LimitStore Unit}
    {r : Except Exn α}
    (h : Alone answers () (ask op >>= f) s r s') :
    ∃ a s₁, answers () op s (.ok a) s₁ ∧ Alone answers () (f a) s₁ r s' := by
  obtain ⟨r₁, s₁, hask, hrest⟩ := alone_bind.mp h
  have hanswer := alone_perform.mp hask
  obtain ⟨a, rfl⟩ := answers_ok hanswer
  exact ⟨a, s₁, hanswer, hrest⟩

/-- The last call of a session. -/
theorem alone_ask {op : LimitOp} {s s' : LimitStore Unit}
    {r : Except Exn op.Res} (h : Alone answers () (ask op) s r s') :
    ∃ a, r = .ok a ∧ answers () op s (.ok a) s' := by
  have hanswer := alone_perform.mp h
  obtain ⟨a, rfl⟩ := answers_ok hanswer
  exact ⟨a, rfl, hanswer⟩

/-- The rows that a call removes. -/
def removed (ip : String) (start : Time) (rows : List LoginAttempt) :
    List LoginAttempt :=
  rows.filter (fun b =>
    decide (b.ip = ip ∧ b.attemptedAt.instant < start.instant))

/-- Where a session is after its `DELETE`. -/
structure Deleting (ip : String) (start : Time) (rows : List LoginAttempt)
    (now : Time) (s : LimitStore Unit) : Prop where
  clock : s.clock = now
  committed : s.committed = rows
  tx : s.tx () = ⟨removed ip start rows, []⟩

theorem deleting_next (ip : String) (start : Time) {s : LimitStore Unit}
    (hs : Idle s) :
    Deleting ip start s.committed s.clock
      (s.next () (.deleteAttempts ip start)) := by
  have hvisible : (s.visible () ip).filter
      (fun a => decide (a.attemptedAt.instant < start.instant))
        = removed ip start s.committed := by
    rw [LimitStore.visible, hs.tx, Tx.empty, List.append_nil,
      List.filter_filter, removed]
    refine List.filter_congr ?_
    intro a _
    simp only [List.not_mem_nil, not_false_eq_true, and_true,
      Bool.decide_and, Bool.and_comm]
  refine ⟨rfl, rfl, ?_⟩
  show Function.update s.tx () ⟨(s.tx ()).deleted ++ (s.visible () ip).filter _,
    (s.tx ()).inserted⟩ () = _
  rw [Function.update_self, hvisible, hs.tx]
  rfl

/-- What it then counts. -/
theorem visible_deleting {ip : String} {start : Time}
    {rows : List LoginAttempt} {now : Time} {s : LimitStore Unit}
    (hs : Deleting ip start rows now s) :
    s.visible () ip = rowsOf ip (pruned ip start rows) := by
  rw [LimitStore.visible, hs.tx, hs.committed, List.append_nil, rowsOf, pruned,
    List.filter_filter]
  refine List.filter_congr ?_
  intro a ha
  rw [← Bool.decide_and, decide_eq_decide, removed, List.mem_filter,
    decide_eq_true_eq]
  exact and_congr_right (fun _ => not_congr (and_iff_right ha))

/-- What it publishes when it has written nothing. -/
theorem committed_refused {ip : String} {start : Time}
    {rows : List LoginAttempt} {now : Time} {s : LimitStore Unit}
    (hs : Deleting ip start rows now s) :
    (s.next () .commit).committed = pruned ip start rows := by
  show s.published () = _
  rw [LimitStore.published, hs.tx, hs.committed, List.append_nil, pruned]
  refine List.filter_congr ?_
  intro a ha
  rw [decide_eq_decide, removed, List.mem_filter, decide_eq_true_eq]
  exact not_congr (and_iff_right ha)

/-- The store after `uuid4`. -/
def LimitStore.withId (s : LimitStore Unit) (id : String) : LimitStore Unit :=
  { s with ids := id :: s.ids }

/-- What it publishes with a row of its own. -/
theorem committed_admitted {ip : String} {start : Time}
    {rows : List LoginAttempt} {now : Time} {s : LimitStore Unit}
    (hs : Deleting ip start rows now s) (hstart : start ≤ now) (id : String) :
    ((s.next () (.insertAttempt ⟨id, ip, now⟩)).next () .commit).committed
      = pruned ip start rows ++ [⟨id, ip, now⟩] := by
  have htx : (s.next () (.insertAttempt ⟨id, ip, now⟩)).tx ()
      = ⟨removed ip start rows, [⟨id, ip, now⟩]⟩ := by
    show Function.update s.tx () ⟨(s.tx ()).deleted,
      (s.tx ()).inserted ++ [⟨id, ip, now⟩]⟩ () = _
    rw [Function.update_self, hs.tx]
    rfl
  have hnew : (⟨id, ip, now⟩ : LoginAttempt) ∉ removed ip start rows := by
    rw [removed, List.mem_filter, decide_eq_true_eq]
    exact fun h => Nat.not_lt.mpr hstart h.2.2
  have hcommitted : (s.next () (.insertAttempt ⟨id, ip, now⟩)).committed
      = rows := hs.committed
  show (s.next () (.insertAttempt ⟨id, ip, now⟩)).published () = _
  rw [LimitStore.published, htx, hcommitted, List.filter_append, pruned]
  congr 1
  · refine List.filter_congr ?_
    intro a ha
    rw [decide_eq_decide, removed, List.mem_filter, decide_eq_true_eq]
    exact not_congr (and_iff_right ha)
  · exact List.filter_cons_of_pos (decide_eq_true hnew)

/-- A window starts before its end. -/
theorem windowStart_le {now start : Time} (h : windowStart now = .ok start) :
    start ≤ now := by
  have hinstant := instant_windowStart h
  show start.instant ≤ now.instant
  omega

theorem idle_close (s : LimitStore Unit) : Idle (s.next () .close) := by
  refine ⟨?_⟩
  show Function.update s.tx () .empty () = .empty
  rw [Function.update_self]

/-- The session of a check. -/
theorem alone_session {ip : String} {start : Time} {s s' : LimitStore Unit}
    {r : Except Exn Unit} (hs : Idle s)
    (hstart : windowStart s.clock = .ok start)
    (h : Alone answers () (Prog.ensuring (do
      let _ : Unit ← ask (.deleteAttempts ip start)
      let count : Nat ← ask (.countAttempts ip)
      if loginRateLimit ≤ count then refuseAttempt
      else recordAttempt ip s.clock) (ask .close)) s r s') :
    s'.clock = s.clock ∧ Idle s' ∧
      Checked ip s.clock s.committed r s'.committed := by
  obtain ⟨r₁, s₁, u, hbody, hclose, rfl⟩ := alone_ensuring.mp h
  obtain ⟨v, rfl, hclosed⟩ := alone_ask hclose
  obtain rfl : s' = s₁.next () .close := hclosed
  obtain ⟨_, s₂, hdelete, hbody⟩ := alone_ask_bind hbody
  obtain rfl : s₂ = s.next () (.deleteAttempts ip start) := hdelete
  obtain ⟨count, s₃, hcount, hbody⟩ := alone_ask_bind hbody
  obtain ⟨hcount, rfl⟩ : count = _ ∧ s₃ = _ := hcount
  have hdeleting := deleting_next ip start hs
  rw [visible_deleting hdeleting] at hcount
  by_cases hfull : loginRateLimit ≤ count
  · rw [if_pos hfull] at hbody
    obtain ⟨_, s₄, hcommit, hend⟩ := alone_ask_bind hbody
    obtain ⟨rfl, rfl⟩ := hend
    obtain rfl : s₁ = _ := hcommit
    refine ⟨rfl, idle_close _, ?_⟩
    show Checked ip s.clock s.committed (.error tooManyAttempts)
      ((s.next () (.deleteAttempts ip start)).next () .commit).committed
    rw [committed_refused hdeleting]
    exact .refused start hstart (hcount ▸ hfull)
  · rw [if_neg hfull] at hbody
    obtain ⟨id, s₄, hid, hbody⟩ := alone_ask_bind hbody
    obtain ⟨-, rfl⟩ : _ ∧ s₄ = _ := hid
    obtain ⟨_, s₅, hinsert, hbody⟩ := alone_ask_bind hbody
    obtain rfl : s₅ = _ := hinsert
    obtain ⟨w, rfl, hcommit⟩ := alone_ask hbody
    obtain rfl : s₁ = _ := hcommit
    refine ⟨rfl, idle_close _, ?_⟩
    -- `uuid4` touches neither the rows nor the transaction
    have hwriting : Deleting ip start s.committed s.clock
        ((s.next () (.deleteAttempts ip start)).withId id) :=
      ⟨hdeleting.clock, hdeleting.committed, hdeleting.tx⟩
    change Checked ip s.clock s.committed (.ok ())
      (((((s.next () (.deleteAttempts ip start)).withId id).next ()
        (.insertAttempt ⟨id, ip, s.clock⟩)).next () .commit).committed)
    rw [committed_admitted hwriting (windowStart_le hstart) id]
    exact .admitted start hstart (hcount ▸ Nat.lt_of_not_le hfull) id

/-- One check, from a moment without a transaction to the next. -/
theorem alone_check {ip : String} {s s' : LimitStore Unit}
    {r : Except Exn Unit} (hs : Idle s)
    (h : Alone answers () (checkLoginRateLimit ip) s r s') :
    s.clock ≤ s'.clock ∧ Idle s' ∧
      Checked ip s'.clock s.committed r s'.committed := by
  obtain ⟨now, s₁, hclock, hrest⟩ := alone_ask_bind h
  obtain ⟨hle, rfl⟩ : s.clock ≤ now ∧ s₁ = { s with clock := now } := hclock
  obtain ⟨r₁, s₂, hwindow, hrest⟩ := alone_bind.mp hrest
  obtain ⟨rfl, rfl⟩ := alone_ofExcept.mp hwindow
  cases hstart : windowStart now with
  | error e =>
      rw [hstart] at hrest
      obtain ⟨rfl, rfl⟩ := hrest
      exact ⟨hle, ⟨hs.tx⟩, .overflow e hstart⟩
  | ok start =>
      rw [hstart] at hrest
      obtain ⟨hclock, hidle, hchecked⟩ :=
        alone_session (s := { s with clock := now }) ⟨hs.tx⟩ hstart hrest
      rw [hclock]
      exact ⟨hle, hidle, hchecked⟩

/-! ## Every sequence -/

/-- Rows and attempts that count for an address from a moment on. -/
def rowsFrom (ip : String) (from' : Nat) (rows : List LoginAttempt) : Nat :=
  rows.countP (fun a => decide (a.ip = ip ∧ from' ≤ a.attemptedAt.instant))

def passedFrom (ip : String) (from' : Nat) (attempts : List Attempt) : Nat :=
  attempts.countP (fun a =>
    decide (a.passed = true ∧ a.ip.text = ip ∧ from' ≤ a.time.instant))

/-- Between two attempts: whatever window a later one looks at, it has as many
    rows as attempts that went through. -/
structure WindowInv (attempts : List Attempt) (s : LimitStore Unit) : Prop where
  idle : Idle s
  past : ∀ a ∈ attempts, a.time ≤ s.clock
  counts : ∀ ip from', s.clock.instant ≤ from' + windowMicros →
    rowsFrom ip from' s.committed = passedFrom ip from' attempts

theorem rowsFrom_pruned {ip ip' : String} {start : Time} {from' : Nat}
    (h : start.instant ≤ from') (rows : List LoginAttempt) :
    rowsFrom ip' from' (pruned ip start rows) = rowsFrom ip' from' rows := by
  rw [rowsFrom, rowsFrom, pruned, List.countP_filter]
  refine List.countP_congr ?_
  intro a _
  rw [decide_eq_true_eq, Bool.and_eq_true, decide_eq_true_eq,
    decide_eq_true_eq]
  refine and_iff_left_of_imp ?_
  rintro ⟨-, hfrom⟩ ⟨-, hold⟩
  omega

/-- What is left of an address is from the start of the window on. -/
theorem length_rowsOf_pruned (ip : String) (start : Time)
    (rows : List LoginAttempt) :
    (rowsOf ip (pruned ip start rows)).length
      = rowsFrom ip start.instant rows := by
  rw [rowsOf, pruned, rowsFrom, List.filter_filter,
    ← List.countP_eq_length_filter]
  refine List.countP_congr ?_
  intro a _
  rw [Bool.and_eq_true, decide_eq_true_eq, decide_eq_true_eq,
    decide_eq_true_eq]
  refine and_congr_right (fun hip => ?_)
  rw [not_and]
  constructor
  · exact fun h => Nat.not_lt.mp (h hip)
  · exact fun h _ => Nat.not_lt.mpr h

theorem rowsFrom_concat (ip : String) (from' : Nat) (rows : List LoginAttempt)
    (a : LoginAttempt) :
    rowsFrom ip from' (rows ++ [a]) = rowsFrom ip from' rows
      + if a.ip = ip ∧ from' ≤ a.attemptedAt.instant then 1 else 0 := by
  rw [rowsFrom, rowsFrom, List.countP_append, List.countP_singleton]
  simp only [decide_eq_true_eq]

theorem passedFrom_concat (ip : String) (from' : Nat)
    (attempts : List Attempt) (a : Attempt) :
    passedFrom ip from' (attempts ++ [a]) = passedFrom ip from' attempts
      + if a.passed = true ∧ a.ip.text = ip ∧ from' ≤ a.time.instant
        then 1 else 0 := by
  rw [passedFrom, passedFrom, List.countP_append, List.countP_singleton]
  simp only [decide_eq_true_eq]

/-- An attempt that does not go through adds nothing. -/
theorem passedFrom_stopped {ip : String} {from' : Nat}
    {attempts : List Attempt} {a : Attempt} {e : Exn}
    (h : a.result = .error e) :
    passedFrom ip from' (attempts ++ [a]) = passedFrom ip from' attempts := by
  rw [passedFrom_concat, if_neg, Nat.add_zero]
  rw [Attempt.passed, h]
  exact fun hpassed => nomatch hpassed.1

/-- The start of the window is the time five minutes before. -/
theorem windowStart_ok_iff {now start : Time} :
    windowStart now = .ok start ↔ now.addMinutes (-5) = some start := by
  have hfive : -((loginRateWindow : Nat) : Int) = -5 := rfl
  rw [windowStart, minusMinutes, hfive]
  cases now.addMinutes (-5) with
  | none => exact iff_of_false (fun h => by cases h) (fun h => by cases h)
  | some start' => rw [Except.ok.injEq, Option.some.injEq]

theorem windowStart_error {now start : Time} {e : Exn}
    (h : windowStart now = .error e) : now.addMinutes (-5) ≠ some start := by
  intro hstart
  rw [windowStart_ok_iff.mpr hstart] at h
  cases h

/-- The window of an attempt, in the terms of the invariant. -/
theorem countP_admittedIn {ip : String} {start now : Time}
    {attempts : List Attempt} (h : ∀ a ∈ attempts, a.time ≤ now) :
    attempts.countP (fun b => decide (AdmittedIn ip start now b))
      = passedFrom ip start.instant attempts := by
  refine List.countP_congr ?_
  intro b hb
  rw [decide_eq_true_eq, decide_eq_true_eq, AdmittedIn]
  constructor
  · exact fun ⟨hpassed, hip, hstart, _⟩ => ⟨hpassed, hip, hstart⟩
  · exact fun ⟨hpassed, hip, hstart⟩ => ⟨hpassed, hip, hstart, h b hb⟩

/-- One more attempt: the check sees its window, and leaves the invariant. -/
theorem windowInv_step {attempts : List Attempt} {s s' : LimitStore Unit}
    {a : Attempt} (hinv : WindowInv attempts s)
    (hcheck : Alone answers () (checkLoginRateLimit a.bucket) s a.result s')
    (htime : s'.clock = a.time) :
    WindowInv (attempts ++ [a]) s' ∧ Exact attempts a := by
  rw [bucket_eq] at hcheck
  obtain ⟨hle, hidle, hchecked⟩ := alone_check hinv.idle hcheck
  have hle' : s.clock.instant ≤ s'.clock.instant := hle
  have hpast : ∀ b ∈ attempts, b.time ≤ a.time := by
    intro b hb
    rw [← htime]
    exact Nat.le_trans (hinv.past b hb) hle
  have hpast' : ∀ b ∈ attempts ++ [a], b.time ≤ s'.clock := by
    intro b hb
    rw [htime]
    rcases List.mem_append.mp hb with hb | hb
    · exact hpast b hb
    · rw [List.mem_singleton.mp hb]
      exact Nat.le_refl _
  -- the rows that the check counts are the attempts in its window
  have hseen : ∀ start, windowStart s'.clock = .ok start →
      (rowsOf a.ip.text (pruned a.ip.text start s.committed)).length
        = attempts.countP
          (fun b => decide (AdmittedIn a.ip.text start a.time b)) := by
    intro start hstart
    have hwindow := instant_windowStart hstart
    rw [length_rowsOf_pruned, countP_admittedIn hpast,
      hinv.counts _ _ (by omega)]
  rw [htime] at hseen hchecked
  generalize hresult : a.result = r at hchecked
  generalize hrows : s'.committed = rows at hchecked
  cases hchecked with
  | overflow e noStart =>
      refine ⟨⟨hidle, hpast', ?_⟩, bucket_eq a, ?_, ?_⟩
      · intro ip from' hfrom
        rw [hrows, passedFrom_stopped hresult]
        exact hinv.counts ip from' (by omega)
      · exact fun start hstart => absurd hstart (windowStart_error noStart)
      · exact fun start hstart => absurd hstart (windowStart_error noStart)
  | refused start hasStart full =>
      have hwindow := instant_windowStart hasStart
      refine ⟨⟨hidle, hpast', ?_⟩, bucket_eq a, ?_, fun _ _ _ => hresult⟩
      · intro ip from' hfrom
        rw [htime] at hfrom
        rw [hrows, passedFrom_stopped hresult,
          rowsFrom_pruned (by omega)]
        exact hinv.counts ip from' (by rw [htime] at hle'; omega)
      · intro start' hstart'
        obtain rfl : start = start' := Except.ok.inj
          (hasStart.symm.trans (windowStart_ok_iff.mpr hstart'))
        rw [hseen start hasStart] at full
        rw [hresult]
        exact iff_of_false nofun (Nat.not_lt.mpr full)
  | admitted start hasStart room id =>
      have hwindow := instant_windowStart hasStart
      have hpassed : a.passed = true := by rw [Attempt.passed, hresult]
      refine ⟨⟨hidle, hpast', ?_⟩, bucket_eq a, ?_, ?_⟩
      · intro ip from' hfrom
        rw [htime] at hfrom
        rw [hrows, rowsFrom_concat, passedFrom_concat,
          rowsFrom_pruned (by omega),
          hinv.counts ip from' (by rw [htime] at hle'; omega), hpassed]
        simp only [true_and]
      · intro start' hstart'
        obtain rfl : start = start' := Except.ok.inj
          (hasStart.symm.trans (windowStart_ok_iff.mpr hstart'))
        rw [hseen start hasStart] at room
        rw [hresult]
        exact iff_of_true rfl room
      · exact fun _ _ hstopped => absurd hresult hstopped

/-- Every sequence of attempts keeps the invariant. -/
theorem windowInv_of_handled {clock : Time} {ids : List String}
    {attempts : List Attempt} {s : LimitStore Unit}
    (h : Handled (.idle Unit clock ids []) attempts s) :
    WindowInv attempts s := by
  induction h with
  | nil => exact ⟨⟨rfl⟩, nofun, fun _ _ _ => rfl⟩
  | concat before check time ih => exact (windowInv_step ih check time).1

/-- For every sequence of attempts, from an empty table on: each one is counted
    for the address that the proxy has written, whatever the client had sent,
    and is admitted exactly when fewer than ten attempts from that address were
    admitted in the five minutes up to it. -/
theorem window_exact {clock : Time} {ids : List String}
    {attempts : List Attempt} {s : LimitStore Unit}
    (h : Handled (.idle Unit clock ids []) attempts s) :
    ∀ before a after, attempts = before ++ a :: after → Exact before a := by
  induction h with
  | nil =>
      intro before a after hsplit
      exact absurd hsplit.symm
        (List.append_ne_nil_of_right_ne_nil _ (List.cons_ne_nil _ _))
  | concat before check time ih =>
      intro pre b post hsplit
      rcases List.eq_nil_or_concat post with rfl | ⟨post, c, rfl⟩
      · obtain ⟨rfl, hlast⟩ := List.append_inj' hsplit rfl
        obtain rfl := List.singleton_inj.mp hlast
        exact (windowInv_step (windowInv_of_handled before) check time).2
      · rw [List.concat_eq_append, ← List.cons_append,
          ← List.append_assoc] at hsplit
        exact ih pre b post (List.append_inj' hsplit rfl).1

/-! ## A run -/

/-- A clock that is moved to the time of the attempt. -/
def execAt (time : Time) (op : LimitOp) (s : LimitStore Unit) :
    Option (Except Exn op.Res × LimitStore Unit) :=
  match op with
  | .now =>
      if s.clock ≤ time then some (.ok time, { s with clock := time })
      else none
  | op => exec () op s

theorem answers_of_execAt (time : Time) (op : LimitOp) (s : LimitStore Unit)
    (r : Except Exn op.Res) (s' : LimitStore Unit)
    (h : execAt time op s = some (r, s')) : answers () op s r s' := by
  cases op with
  | now =>
      rw [execAt] at h
      by_cases hle : s.clock ≤ time
      · rw [if_pos hle] at h
        cases h
        exact ⟨hle, rfl⟩
      · rw [if_neg hle] at h
        cases h
  | _ => exact answers_of_exec () _ s r s' h

/-- One attempt, if it ends as it says. -/
def playAttempt (s : LimitStore Unit) (a : Attempt) :
    Option (LimitStore Unit) :=
  (playAlone (execAt a.time) (checkLoginRateLimit a.bucket) s).bind (fun o =>
    if o.1 = a.result ∧ o.2.clock = a.time then some o.2 else none)

theorem handled_concat_of_play {start s s' : LimitStore Unit}
    {before : List Attempt} {a : Attempt} (h : Handled start before s)
    (hplay : playAttempt s a = some s') : Handled start (before ++ [a]) s' := by
  obtain ⟨⟨r, s₁⟩, hcheck, hend⟩ := Option.bind_eq_some_iff.mp hplay
  by_cases hsame : r = a.result ∧ s₁.clock = a.time
  · rw [if_pos hsame] at hend
    obtain rfl := Option.some.inj hend
    obtain ⟨rfl, htime⟩ := hsame
    exact h.concat (alone_of_play (answers_of_execAt a.time) hcheck) htime
  · rw [if_neg hsame] at hend
    cases hend

/-- Attempts that end as they say are handled, one after the other. -/
theorem handled_of_play {start s' : LimitStore Unit} {rest : List Attempt} :
    ∀ {before : List Attempt} {s : LimitStore Unit}, Handled start before s →
      rest.foldlM playAttempt s = some s' →
        Handled start (before ++ rest) s' := by
  induction rest with
  | nil =>
      intro before s h hplay
      obtain rfl := Option.some.inj hplay
      rw [List.append_nil]
      exact h
  | cons a rest ih =>
      intro before s h hplay
      rw [List.foldlM_cons] at hplay
      obtain ⟨s₁, hfirst, hplay⟩ := Option.bind_eq_some_iff.mp hplay
      -- the first attempt joins those that were handled before
      have hall := ih (handled_concat_of_play h hfirst) hplay
      rw [List.append_assoc] at hall
      exact hall

/-- A client that claims to be someone else. -/
def forged : Attempt where
  sent := some "198.51.100.7"
  ip := ⟨"203.0.113.1", by decide, by simp [isSpace]⟩
  proxy := .appends
  host := some "10.0.0.2"
  time := Time.epoch
  result := .ok ()

/-- Ten attempts of that client at once. -/
def tenForged : List Attempt := List.replicate 10 forged

/-- An eleventh, a minute later. -/
def eleventh : Attempt :=
  { forged with
    time := ⟨1970, 1, 1, 0, 1, 0, 0, by decide⟩
    result := .error tooManyAttempts }

/-- Another one, when the window has passed. -/
def afterWindow : Attempt :=
  { forged with time := ⟨1970, 1, 1, 0, 6, 0, 0, by decide⟩ }

/-- The first ten are admitted, the eleventh is not, and the last one is. -/
theorem window_exact_forged :
    ∃ s, Handled (.idle Unit Time.epoch [] [])
        (tenForged ++ [eleventh, afterWindow]) s ∧
      Exact tenForged eleventh ∧
      Exact (tenForged ++ [eleventh]) afterWindow := by
  obtain ⟨s, hplay⟩ := Option.isSome_iff_exists.mp
    (show ((tenForged ++ [eleventh, afterWindow]).foldlM playAttempt
      (.idle Unit Time.epoch [] [])).isSome = true by decide +kernel)
  have hhandled := handled_of_play .nil hplay
  refine ⟨s, hhandled, ?_, ?_⟩
  · exact window_exact hhandled tenForged eleventh [afterWindow] rfl
  · exact window_exact hhandled (tenForged ++ [eleventh]) afterWindow [] rfl

end CvLimit
