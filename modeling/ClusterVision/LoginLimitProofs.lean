import ClusterVision.LoginLimit
import Mathlib.Data.List.Basic
import Mathlib.Data.List.Nodup
import Mathlib.Data.List.Perm.Subperm

/-! # Logins that arrive together

    A call counts the attempts that it sees and writes its own later, so calls
    that overlap do not count each other, and a call whose clock reading is old
    may miss attempts that a later one has pruned.  Every call that the counts
    overlook in this way may be one too many; the limit holds in every run in
    which they overlook none. -/

namespace CvLimit

open CvProg CvPool CvIso CvBackend

variable {ι : Type}

/-! ## What a run shows of a call -/

/-- The reading of the clock in an answered call. -/
def clockReading : Event limitCalls Exn → Option Time
  | ⟨.now, .ok now⟩ => some now
  | _ => none

def counts : Event limitCalls Exn → Prop
  | ⟨.countAttempts _, .ok _⟩ => True
  | _ => False

/-- A count that is below the limit lets the call through. -/
def letsThrough : Event limitCalls Exn → Prop
  | ⟨.countAttempts _, .ok n⟩ => Nat.lt n loginRateLimit
  | _ => False

def inserts (a : LoginAttempt) : Event limitCalls Exn → Prop
  | ⟨.insertAttempt b, .ok _⟩ => b = a
  | _ => False

/-- A deletion for an address that the attempt is too old for. -/
def prunes (ip : String) (a : LoginAttempt) : Event limitCalls Exn → Prop
  | ⟨.deleteAttempts ip' start, .ok _⟩ =>
      ip' = ip ∧ a.attemptedAt.instant < start.instant
  | _ => False

def commits : Event limitCalls Exn → Prop
  | ⟨.commit, .ok _⟩ => True
  | _ => False

/-- A step of a call in a run. -/
def Did (tr : List (Entry limitCalls Exn (LimitStore ι) ι)) (i : ι)
    (p : Event limitCalls Exn → Prop) : Prop :=
  ∃ e ∈ tr, e.thread = i ∧ p e.event

/-- The call read the clock at this time. -/
def ReadClock (tr : List (Entry limitCalls Exn (LimitStore ι) ι)) (i : ι)
    (now : Time) : Prop :=
  Did tr i (fun ev => clockReading ev = some now)

/-- The microseconds of the window. -/
def windowMicros : Nat := loginRateWindow * 60000000

/-- The attempt of the call was in the table when another call, which has
    committed since, pruned it. -/
def Pruned (ips : ι → String)
    (tr : List (Entry limitCalls Exn (LimitStore ι) ι)) (i : ι) : Prop :=
  ∃ a, Did tr i (inserts a) ∧ ∃ e ∈ tr, a ∈ e.before.committed ∧
    prunes (ips i) a e.event ∧ Did tr e.thread commits

/-- What a count of the call `c`, which has read the clock at `now`, overlooks:
    another call of its address that has counted before, with a reading not
    older than the window, and that has not committed or was pruned. -/
structure Overlooked (ips : ι → String)
    (tr : List (Entry limitCalls Exn (LimitStore ι) ι)) (c : ι) (now : Time)
    (i : ι) : Prop where
  other : i ≠ c
  ip : ips i = ips c
  counted : Did tr i counts
  recent : ∃ read, ReadClock tr i read ∧
    now.instant ≤ read.instant + windowMicros
  unseen : ¬ Did tr i commits ∨ Pruned ips tr i

/-- Every count of a run overlooks at most so many calls. -/
def OverlookAtMost (bound : Nat) (ips : ι → String)
    (tr : List (Entry limitCalls Exn (LimitStore ι) ι)) : Prop :=
  ∀ pre e post now, tr = pre ++ e :: post → counts e.event →
    ReadClock pre e.thread now → ∀ overlooked : List ι, overlooked.Nodup →
      (∀ i ∈ overlooked, Overlooked ips pre e.thread now i) →
      overlooked.length ≤ bound

/-- No count of a run overlooks a call. -/
def NoneOverlooked (ips : ι → String)
    (tr : List (Entry limitCalls Exn (LimitStore ι) ι)) : Prop :=
  ∀ pre e post now, tr = pre ++ e :: post → counts e.event →
    ReadClock pre e.thread now → ∀ i, ¬ Overlooked ips pre e.thread now i

theorem NoneOverlooked.atMost {ips : ι → String}
    {tr : List (Entry limitCalls Exn (LimitStore ι) ι)}
    (h : NoneOverlooked ips tr) : OverlookAtMost 0 ips tr := by
  intro pre e post now hsplit hcounts hread l _ hl
  cases l with
  | nil => exact Nat.le_refl 0
  | cons i l =>
      exact absurd (hl i List.mem_cons_self)
        (h pre e post now hsplit hcounts hread i)

/-- The pool of calls of `check_login_rate_limit`, and what they start from. -/
def calls (ips : ι → String) (s : LimitStore ι) :
    Pool limitCalls Exn Unit (LimitStore ι) ι where
  threads i := checkLoginRateLimit (ips i)
  shared := s

/-- The call has returned without raising. -/
def Admitted (p : Pool limitCalls Exn Unit (LimitStore ι) ι) (i : ι) : Prop :=
  p.threads i = .ret ()

/-- At most so many calls of an address with a time in a window are
    admitted. -/
def AdmittedAtMost (bound : Nat) (ips : ι → String)
    (tr : List (Entry limitCalls Exn (LimitStore ι) ι))
    (p : Pool limitCalls Exn Unit (LimitStore ι) ι) : Prop :=
  ∀ (ip : String) (t : Time) (admitted : List ι), admitted.Nodup →
    (∀ i ∈ admitted, ips i = ip ∧ Admitted p i ∧
      ∃ now, ReadClock tr i now ∧ now ≤ t ∧
        t.instant ≤ now.instant + windowMicros) →
    admitted.length ≤ bound

/-- At most ten are. -/
abbrev LimitHolds (ips : ι → String)
    (tr : List (Entry limitCalls Exn (LimitStore ι) ι))
    (p : Pool limitCalls Exn Unit (LimitStore ι) ι) : Prop :=
  AdmittedAtMost loginRateLimit ips tr p

theorem did_concat {tr : List (Entry limitCalls Exn (LimitStore ι) ι)}
    {e : Entry limitCalls Exn (LimitStore ι) ι} {i : ι}
    {p : Event limitCalls Exn → Prop} :
    Did (tr ++ [e]) i p ↔ Did tr i p ∨ (e.thread = i ∧ p e.event) := by
  constructor
  · rintro ⟨x, hx, hthread, hp⟩
    rcases List.mem_append.mp hx with hold | hnew
    · exact Or.inl ⟨x, hold, hthread, hp⟩
    · rw [List.mem_singleton.mp hnew] at hthread hp
      exact Or.inr ⟨hthread, hp⟩
  · rintro (⟨x, hx, h⟩ | h)
    · exact ⟨x, List.mem_append_left _ hx, h⟩
    · exact ⟨e, List.mem_append_right _ (List.mem_singleton_self e), h⟩

theorem Pruned.concat {ips : ι → String}
    {tr : List (Entry limitCalls Exn (LimitStore ι) ι)}
    {e : Entry limitCalls Exn (LimitStore ι) ι} {i : ι}
    (h : Pruned ips tr i) : Pruned ips (tr ++ [e]) i := by
  obtain ⟨a, hinserts, x, hx, hbefore, hprunes, hcommits⟩ := h
  exact ⟨a, did_concat.mpr (Or.inl hinserts), x, List.mem_append_left _ hx,
    hbefore, hprunes, did_concat.mpr (Or.inl hcommits)⟩

/-- A call that was let through has counted. -/
theorem did_counts {tr : List (Entry limitCalls Exn (LimitStore ι) ι)} {i : ι}
    (h : Did tr i letsThrough) : Did tr i counts := by
  obtain ⟨⟨s, t, ⟨op, r⟩⟩, he, hthread, hthrough⟩ := h
  refine ⟨_, he, hthread, ?_⟩
  cases op with
  | countAttempts ip =>
      cases r with
      | ok n => exact trivial
      | error e => exact hthrough.elim
  | _ => exact hthrough.elim

/-! ## The stages of a call -/

inductive Stage where
  | ready
  | read (now : Time)
  | pruned (now : Time)
  | passed (now : Time)
  | named (now : Time) (id : String)
  | inserted (a : LoginAttempt)
  | admitted (a : LoginAttempt)
  | refused (now : Time)
  | stopped (now : Option Time)

namespace Stage

/-- The reading of the clock. -/
def now : Stage → Option Time
  | .ready => none
  | .read now | .pruned now | .passed now | .named now _ | .refused now =>
      some now
  | .inserted a | .admitted a => some a.attemptedAt
  | .stopped now => now

/-- Has the count let the call through? -/
def through : Stage → Prop
  | .passed _ | .named _ _ | .inserted _ | .admitted _ => True
  | _ => False

/-- Has the call committed? -/
def ended : Stage → Prop
  | .admitted _ | .stopped _ => True
  | _ => False

/-- The id of its attempt. -/
def id : Stage → Option String
  | .named _ id => some id
  | .inserted a | .admitted a => some a.id
  | _ => none

/-- Its attempt. -/
def attempt : Stage → Option LoginAttempt
  | .inserted a | .admitted a => some a
  | _ => none

/-- The same, as long as it is not committed. -/
def pending : Stage → List LoginAttempt
  | .inserted a => [a]
  | _ => []

end Stage

/-- The address of a call, and its stage. -/
structure Caller where
  ip : String
  stage : Stage

/-- The calls that a stage allows. -/
inductive Allowed : Caller → LimitOp → Prop
  | now {ip : String} : Allowed ⟨ip, .ready⟩ .now
  | prune {ip : String} {now start : Time} (h : windowStart now = .ok start) :
      Allowed ⟨ip, .read now⟩ (.deleteAttempts ip start)
  | count {ip : String} {now : Time} :
      Allowed ⟨ip, .pruned now⟩ (.countAttempts ip)
  | uuid4 {ip : String} {now : Time} : Allowed ⟨ip, .passed now⟩ .uuid4
  | insert {ip : String} {now : Time} {id : String} :
      Allowed ⟨ip, .named now id⟩ (.insertAttempt ⟨id, ip, now⟩)
  | commit {ip : String} {a : LoginAttempt} : Allowed ⟨ip, .inserted a⟩ .commit
  | refuse {ip : String} {now : Time} : Allowed ⟨ip, .refused now⟩ .commit
  | leave {ip : String} {a : LoginAttempt} : Allowed ⟨ip, .admitted a⟩ .close
  | close {ip : String} {now : Option Time} : Allowed ⟨ip, .stopped now⟩ .close

/-- The stage after a count. -/
def counted (now : Time) (n : Nat) : Stage :=
  if loginRateLimit ≤ n then .refused now else .passed now

/-- The stage that an answer leads to. -/
def nextStage (ip : String) :
    Stage → (op : LimitOp) → Except Exn op.Res → Stage
  | .ready, .now, .ok now => .read now
  | .read now, .deleteAttempts _ _, .ok _ => .pruned now
  | .pruned now, .countAttempts _, .ok n => counted now n
  | .passed now, .uuid4, .ok id => .named now id
  | .named now id, .insertAttempt _, .ok _ => .inserted ⟨id, ip, now⟩
  | .inserted a, .commit, .ok _ => .admitted a
  | .admitted a, .close, .ok _ => .admitted a
  | stage, _, _ => .stopped stage.now

/-- The protocol of a call. -/
def limitProtocol : Protocol limitCalls Exn Caller where
  allowed := Allowed
  next l op r := ⟨l.ip, nextStage l.ip l.stage op r⟩

/-- A call that returns was admitted. -/
def ReturnsAdmitted (l : Caller) (r : Except Exn Unit) : Prop :=
  r = .ok () → ∃ a, l.stage = .admitted a

theorem returnsAdmitted_error (l : Caller) (e : Exn) :
    ReturnsAdmitted l (.error e) := by
  intro h
  cases h

/-- The `finally` clause of a call that raises. -/
theorem close_over (ip : String) (now : Option Time) (e : Exn) :
    AfterAll limitProtocol (ask .close) ReturnsAdmitted ⟨ip, .stopped now⟩
      (.error e) := by
  refine follows_perform .close ?_
  intro r
  cases r with
  | ok u => exact returnsAdmitted_error _ e
  | error e' => exact returnsAdmitted_error _ e'

/-- The `finally` clause of a call that has committed its attempt. -/
theorem close_admitted (ip : String) (a : LoginAttempt) (r : Except Exn Unit) :
    AfterAll limitProtocol (ask .close) ReturnsAdmitted ⟨ip, .admitted a⟩
      r := by
  refine follows_perform .leave ?_
  intro r'
  cases r' with
  | ok u => exact fun _ => ⟨a, rfl⟩
  | error e => exact returnsAdmitted_error _ e

/-- The rest of a call that was let through. -/
theorem recordAttempt_follows (ip : String) (now : Time) :
    Follows limitProtocol (recordAttempt ip now) ⟨ip, .passed now⟩
      (AfterAll limitProtocol (ask .close) ReturnsAdmitted) := by
  refine follows_bind (follows_perform .uuid4 ?_)
  intro r
  cases r with
  | error e => exact close_over ip _ e
  | ok id =>
      refine follows_bind (follows_perform .insert ?_)
      intro r
      cases r with
      | error e => exact close_over ip _ e
      | ok u =>
          refine follows_perform .commit ?_
          intro r
          cases r with
          | error e => exact close_over ip _ e
          | ok u => exact close_admitted ip _ (.ok u)

/-- What follows the count. -/
theorem counted_follows (ip : String) (now : Time) (n : Nat) :
    Follows limitProtocol
      (if loginRateLimit ≤ n then refuseAttempt else recordAttempt ip now)
      ⟨ip, counted now n⟩
      (AfterAll limitProtocol (ask .close) ReturnsAdmitted) := by
  rw [counted]
  by_cases hfull : loginRateLimit ≤ n
  · rw [if_pos hfull, if_pos hfull]
    refine follows_bind (follows_perform .refuse ?_)
    intro r
    cases r with
    | error e => exact close_over ip _ e
    | ok u => exact close_over ip _ tooManyAttempts
  · rw [if_neg hfull, if_neg hfull]
    exact recordAttempt_follows ip now

/-- A call keeps to its protocol, and returns only when it has committed its
    attempt. -/
theorem checkLoginRateLimit_follows (ip : String) :
    Follows limitProtocol (checkLoginRateLimit ip) ⟨ip, .ready⟩
      ReturnsAdmitted := by
  refine follows_bind (follows_perform .now ?_)
  intro r
  cases r with
  | error e => exact returnsAdmitted_error _ e
  | ok now =>
      show Follows limitProtocol (Prog.ofExcept (windowStart now) >>= _) _ _
      cases hstart : windowStart now with
      | error e => exact returnsAdmitted_error _ e
      | ok start =>
          refine follows_ensuring (follows_bind (follows_perform
            (.prune hstart) ?_))
          intro r
          cases r with
          | error e => exact close_over ip _ e
          | ok u =>
              refine follows_bind (follows_perform .count ?_)
              intro r
              cases r with
              | error e => exact close_over ip _ e
              | ok n =>
                  exact counted_follows ip now n

/-! ## One call -/

section Step

variable {tr : List (Entry limitCalls Exn (LimitStore ι) ι)}
  {s s' : LimitStore ι} {t : ι}

/-- What holds of an attempt that the transaction of a call has deleted. -/
structure Deleted (tr : List (Entry limitCalls Exn (LimitStore ι) ι)) (i : ι)
    (l : Caller) (a : LoginAttempt) : Prop where
  ip : a.ip = l.ip
  late : ∃ now, l.stage.now = some now ∧
    a.attemptedAt.instant + windowMicros < now.instant
  step : ∃ e ∈ tr, e.thread = i ∧ a ∈ e.before.committed ∧
    prunes l.ip a e.event

theorem Deleted.concat {i : ι} {l l' : Caller} {a : LoginAttempt}
    {e : Entry limitCalls Exn (LimitStore ι) ι} (h : Deleted tr i l a)
    (hip : l'.ip = l.ip) (hnow : l'.stage.now = l.stage.now) :
    Deleted (tr ++ [e]) i l' a := by
  obtain ⟨x, hx, hrest⟩ := h.step
  refine ⟨h.ip.trans hip.symm, ?_, x, List.mem_append_left _ hx, ?_⟩
  · rw [hnow]
    exact h.late
  · rw [hip]
    exact hrest

/-- The stage of a call accounts for what it did, and for its transaction. -/
structure CallInv (tr : List (Entry limitCalls Exn (LimitStore ι) ι))
    (tx : Tx) (i : ι) (l : Caller) : Prop where
  clock : ∀ now, ReadClock tr i now ↔ l.stage.now = some now
  through : Did tr i letsThrough ↔ l.stage.through
  ended : Did tr i commits → l.stage.ended
  attempt : ∀ a, l.stage.attempt = some a →
    a.ip = l.ip ∧ Did tr i (inserts a)
  pending : tx.inserted = l.stage.pending
  deleted : ∀ a ∈ tx.deleted, Deleted tr i l a

/-- Steps of others leave it. -/
theorem CallInv.frame {i : ι} {l : Caller} {tx : Tx}
    {e : Entry limitCalls Exn (LimitStore ι) ι} (h : CallInv tr tx i l)
    (hi : e.thread ≠ i) : CallInv (tr ++ [e]) tx i l := by
  have hsame : ∀ p, Did (tr ++ [e]) i p ↔ Did tr i p := by
    intro p
    rw [did_concat]
    exact or_iff_left (fun hnew => hi hnew.1)
  exact {
    clock := fun now => (hsame _).trans (h.clock now)
    through := (hsame _).trans h.through
    ended := fun hdid => h.ended ((hsame _).mp hdid)
    attempt := fun a ha =>
      (h.attempt a ha).imp_right (fun hdid => did_concat.mpr (Or.inl hdid))
    pending := h.pending
    deleted := fun a ha => (h.deleted a ha).concat rfl rfl }

/-- A stage records what the step before it did. -/
structure Records (l : Caller) (ev : Event limitCalls Exn) (l' : Caller) :
    Prop where
  clock : ∀ now, l'.stage.now = some now ↔
    l.stage.now = some now ∨ clockReading ev = some now
  through : l'.stage.through ↔ l.stage.through ∨ letsThrough ev
  ended : l.stage.ended ∨ commits ev → l'.stage.ended

/-- What a step of the call has to keep. -/
theorem CallInv.step {l l' : Caller} {tx tx' : Tx} {s : LimitStore ι}
    {ev : Event limitCalls Exn} (h : CallInv tr tx t l)
    (records : Records l ev l')
    (attempt : ∀ a, l'.stage.attempt = some a →
      a.ip = l'.ip ∧ (Did tr t (inserts a) ∨ inserts a ev))
    (pending : tx'.inserted = l'.stage.pending)
    (deleted : ∀ a ∈ tx'.deleted, Deleted (tr ++ [⟨s, t, ev⟩]) t l' a) :
    CallInv (tr ++ [⟨s, t, ev⟩]) tx' t l' := by
  have hdid : ∀ p, Did (tr ++ [⟨s, t, ev⟩]) t p ↔ Did tr t p ∨ p ev := by
    intro p
    rw [did_concat]
    exact or_congr_right (and_iff_right rfl)
  refine ⟨?_, ?_, ?_, ?_, pending, deleted⟩
  · intro now
    rw [records.clock, ← h.clock]
    exact hdid _
  · rw [records.through, ← h.through]
    exact hdid _
  · intro hnew
    exact records.ended (((hdid _).mp hnew).imp h.ended id)
  · intro a ha
    exact (attempt a ha).imp_right (hdid _).mpr

theorem instant_minusMinutes {now start : Time} {n : Int}
    (h : minusMinutes now n = .ok start) :
    (start.instant : Int) = now.instant + -n * 60000000 := by
  rw [minusMinutes] at h
  cases hstart : now.addMinutes (-n) with
  | none =>
      rw [hstart] at h
      cases h
  | some start' =>
      rw [hstart] at h
      obtain rfl := Except.ok.inj h
      exact Time.instant_addMinutes hstart

/-- A window starts five minutes before the reading of the clock. -/
theorem instant_windowStart {now start : Time}
    (h : windowStart now = .ok start) :
    start.instant + windowMicros = now.instant := by
  rw [windowStart] at h
  generalize hn : (loginRateWindow : Int) = n at h
  have hinstant := instant_minusMinutes h
  have hwindow : (windowMicros : Int) = n * 60000000 := by
    rw [← hn]
    rfl
  omega

variable [DecidableEq ι]

/-- No statement fails. -/
theorem answers_ok {op : LimitOp} {r : Except Exn op.Res}
    (h : answers t op s r s') : ∃ a, r = .ok a := by
  cases r with
  | ok a => exact ⟨a, rfl⟩
  | error e => cases op <;> exact h.elim

/-- A step leaves the transactions of the others. -/
theorem tx_of_answers {op : LimitOp} {r : Except Exn op.Res}
    (h : answers t op s r s') {i : ι} (hi : i ≠ t) : s'.tx i = s.tx i := by
  have hupdate : ∀ tx : Tx, (s.withTx t tx).tx i = s.tx i := by
    intro tx
    show Function.update s.tx t tx i = s.tx i
    rw [Function.update_of_ne hi]
  obtain ⟨a, rfl⟩ := answers_ok h
  cases op with
  | now =>
      obtain ⟨-, rfl⟩ := h
      rfl
  | uuid4 =>
      obtain ⟨-, rfl⟩ := h
      rfl
  | countAttempts ip =>
      obtain ⟨-, rfl⟩ := h
      rfl
  | deleteAttempts ip start =>
      obtain rfl := h
      exact hupdate _
  | insertAttempt a =>
      obtain rfl := h
      exact hupdate _
  | commit =>
      obtain rfl := h
      exact hupdate _
  | close =>
      obtain rfl := h
      exact hupdate _

/-- The transaction of a call after a statement of it. -/
theorem tx_withTx (s : LimitStore ι) (t : ι) (tx : Tx) :
    (s.withTx t tx).tx t = tx := by
  show Function.update s.tx t tx t = tx
  rw [Function.update_self]

/-- The stages that a count leads to. -/
theorem counted_stage (now : Time) (n : Nat) :
    (counted now n).now = some now ∧ (counted now n).attempt = none ∧
      (counted now n).pending = [] ∧ (counted now n).id = none ∧
      ((counted now n).through ↔ n < loginRateLimit) := by
  rw [counted]
  by_cases hfull : loginRateLimit ≤ n
  · rw [if_pos hfull]
    exact ⟨rfl, rfl, rfl, rfl, iff_of_false id (Nat.not_lt.mpr hfull)⟩
  · rw [if_neg hfull]
    exact ⟨rfl, rfl, rfl, rfl, iff_of_true trivial (Nat.not_le.mp hfull)⟩

/-- The next stage records what a step did. -/
theorem records_next {l : Caller} {op : LimitOp} (hop : Allowed l op)
    (a : op.Res) : Records l ⟨op, .ok a⟩ (limitProtocol.next l op (.ok a)) := by
  -- only a count may let the call through: its next stage depends on the answer
  cases hop with
  | @count ip now =>
      obtain ⟨hnow, -, -, -, hthrough⟩ := counted_stage now a
      refine ⟨?_, ?_, ?_⟩
      · intro x
        show (counted now a).now = some x ↔ some now = some x ∨ none = some x
        rw [hnow]
        exact ⟨Or.inl, fun h => h.resolve_right (Option.some_ne_none x).symm⟩
      · show (counted now a).through ↔ False ∨ Nat.lt a loginRateLimit
        rw [false_or]
        exact hthrough
      · rintro (hended | hcommits)
        · exact hended.elim
        · exact hcommits.elim
  | _ =>
      refine ⟨?_, ?_, ?_⟩
      · intro x
        simp [limitProtocol, nextStage, Stage.now, clockReading]
      · simp [limitProtocol, nextStage, Stage.through, letsThrough]
      · simp [limitProtocol, nextStage, Stage.ended, commits]

theorem callInv_step {l : Caller} {op : LimitOp} {r : Except Exn op.Res}
    (h : CallInv tr (s.tx t) t l) (hop : Allowed l op)
    (hans : answers t op s r s') :
    CallInv (tr ++ [⟨s, t, ⟨op, r⟩⟩]) (s'.tx t) t
      (limitProtocol.next l op r) := by
  obtain ⟨a, rfl⟩ := answers_ok hans
  have hrecords := records_next hop a
  have hattempt : ∀ b, l.stage.attempt = some b → b.ip = l.ip ∧
      (Did tr t (inserts b) ∨ inserts b ⟨op, .ok a⟩) :=
    fun b hb => (h.attempt b hb).imp_right Or.inl
  -- only the deletion and the insertion change what the transaction holds;
  -- the commit and the close empty it
  cases hop with
  | now =>
      obtain ⟨-, rfl⟩ := hans
      refine h.step hrecords nofun h.pending ?_
      intro r hr
      obtain ⟨now, hnow, -⟩ := (h.deleted r hr).late
      cases hnow
  | @prune ip now start hstart =>
      obtain rfl := hans
      have htx : ((s.next t (.deleteAttempts ip start)).tx t)
          = _ := tx_withTx s t _
      rw [htx]
      refine h.step hrecords nofun h.pending ?_
      intro r hr
      rcases List.mem_append.mp hr with hold | hnew
      · exact (h.deleted r hold).concat rfl rfl
      · obtain ⟨hvisible, hlt⟩ := List.mem_filter.mp hnew
        obtain ⟨hmem, hip⟩ := List.mem_filter.mp hvisible
        have hip := of_decide_eq_true hip
        have hbefore := of_decide_eq_true hlt
        -- nothing of its own is inserted yet
        have hcommitted : r ∈ s.committed := by
          have hnone : (s.tx t).inserted = [] := h.pending
          rw [hnone, List.append_nil] at hmem
          exact hmem
        refine ⟨hip.1, ⟨now, rfl, ?_⟩, _, List.mem_append_right _
          (List.mem_singleton_self _), rfl, hcommitted, rfl, hbefore⟩
        rw [← instant_windowStart hstart]
        exact Nat.add_lt_add_right hbefore windowMicros
  | @count ip now =>
      obtain ⟨-, rfl⟩ := hans
      obtain ⟨hnow, hnone, hpending, -, -⟩ := counted_stage now a
      refine h.step hrecords ?_ (h.pending.trans hpending.symm) ?_
      · intro b hb
        exact absurd (hnone.symm.trans hb) (Option.some_ne_none b).symm
      · intro r hr
        exact (h.deleted r hr).concat rfl hnow
  | uuid4 =>
      obtain ⟨-, rfl⟩ := hans
      exact h.step hrecords nofun h.pending
        (fun r hr => (h.deleted r hr).concat rfl rfl)
  | @insert ip now id =>
      obtain rfl := hans
      have htx : ((s.next t (.insertAttempt ⟨id, ip, now⟩)).tx t)
          = _ := tx_withTx s t _
      rw [htx]
      refine h.step hrecords ?_ ?_
        (fun r hr => (h.deleted r hr).concat rfl rfl)
      · intro b hb
        obtain rfl := Option.some.inj hb
        exact ⟨rfl, Or.inr rfl⟩
      · show (s.tx t).inserted ++ _ = _
        rw [h.pending]
        rfl
  | @commit ip b =>
      obtain rfl := hans
      have htx : ((s.next t .commit).tx t) = .empty := tx_withTx s t _
      rw [htx]
      exact h.step hrecords hattempt rfl
        (fun r hr => absurd hr List.not_mem_nil)
  | refuse =>
      obtain rfl := hans
      have htx : ((s.next t .commit).tx t) = .empty := tx_withTx s t _
      rw [htx]
      exact h.step hrecords nofun rfl
        (fun r hr => absurd hr List.not_mem_nil)
  | leave =>
      obtain rfl := hans
      have htx : ((s.next t .close).tx t) = .empty := tx_withTx s t _
      rw [htx]
      exact h.step hrecords hattempt rfl
        (fun r hr => absurd hr List.not_mem_nil)
  | close =>
      obtain rfl := hans
      have htx : ((s.next t .close).tx t) = .empty := tx_withTx s t _
      rw [htx]
      exact h.step hrecords nofun rfl
        (fun r hr => absurd hr List.not_mem_nil)

end Step

/-! ## All calls -/

section Pools

variable {ips : ι → String}
  {tr : List (Entry limitCalls Exn (LimitStore ι) ι)} {ph : ι → Caller}
  {s s' : LimitStore ι} {t : ι}

/-- At most so many calls of an address with a time in a window were let
    through. -/
def FewThrough (bound : Nat) (ips : ι → String)
    (tr : List (Entry limitCalls Exn (LimitStore ι) ι)) : Prop :=
  ∀ (ip : String) (t : Time) (l : List ι), l.Nodup →
    (∀ i ∈ l, ips i = ip ∧ Did tr i letsThrough ∧
      ∃ now, ReadClock tr i now ∧ now ≤ t ∧
        t.instant ≤ now.instant + windowMicros) →
    l.length ≤ bound

/-- The stages, what happened, and the store. -/
structure LimitInv (ips : ι → String)
    (tr : List (Entry limitCalls Exn (LimitStore ι) ι)) (ph : ι → Caller)
    (s : LimitStore ι) : Prop where
  ip : ∀ i, (ph i).ip = ips i
  call : ∀ i, CallInv tr (s.tx i) i (ph i)
  used : ∀ i id, (ph i).stage.id = some id → id ∈ s.ids
  distinct : ∀ i j id, (ph i).stage.id = some id → (ph j).stage.id = some id →
    i = j
  kept : ∀ i a, (ph i).stage = .admitted a →
    a ∈ s.committed ∨ Pruned ips tr i
  few : ∀ bound, OverlookAtMost bound ips tr →
    FewThrough (loginRateLimit + bound) ips tr

theorem OverlookAtMost.of_concat {bound : Nat}
    {e : Entry limitCalls Exn (LimitStore ι) ι}
    (h : OverlookAtMost bound ips (tr ++ [e])) :
    OverlookAtMost bound ips tr := by
  rintro pre x post now rfl hcounts hread
  refine h pre x (post ++ [e]) now ?_ hcounts hread
  rw [List.append_assoc]
  rfl

/-- A call that was let through and has committed has its attempt in the store
    unless it was pruned. -/
theorem LimitInv.stored (h : LimitInv ips tr ph s) {i : ι}
    (hthrough : Did tr i letsThrough) (hcommits : Did tr i commits) :
    ∃ a, (ph i).stage = .admitted a ∧ a.ip = ips i ∧
      ReadClock tr i a.attemptedAt ∧
      (a ∈ s.committed ∨ Pruned ips tr i) := by
  have hstage := (h.call i).through.mp hthrough
  have hended := (h.call i).ended hcommits
  have hattempt := (h.call i).attempt
  have hclock := (h.call i).clock
  have hkept := h.kept i
  cases hst : (ph i).stage with
  | admitted a =>
      rw [hst] at hattempt hclock
      refine ⟨a, rfl, ?_, (hclock _).mpr rfl, hkept a hst⟩
      rw [← h.ip i]
      exact (hattempt a rfl).1
  | stopped now =>
      rw [hst] at hstage
      exact hstage.elim
  | _ =>
      rw [hst] at hended
      exact hended.elim

/-- A count sees the attempts of the calls of its window that it does not
    overlook. -/
theorem LimitInv.seen (h : LimitInv ips tr ph s) {now : Time} {i : ι}
    (hread : ReadClock tr t now) (hip : ips i = ips t)
    (hthrough : Did tr i letsThrough)
    (hrecent : ∃ read, ReadClock tr i read ∧
      now.instant ≤ read.instant + windowMicros)
    (hother : i ≠ t) (hnot : ¬ Overlooked ips tr t now i) :
    ∃ a ∈ s.visible t (ips t), (ph i).stage.id = some a.id := by
  have hcounts := did_counts hthrough
  have hcommits : Did tr i commits := by
    by_contra hopen
    exact hnot ⟨hother, hip, hcounts, hrecent, Or.inl hopen⟩
  obtain ⟨a, hstage, haip, haread, hstored⟩ := h.stored hthrough hcommits
  have hstored : a ∈ s.committed := by
    refine hstored.resolve_right (fun hpruned => ?_)
    exact hnot ⟨hother, hip, hcounts, hrecent, Or.inr hpruned⟩
  have hkept : a ∉ (s.tx t).deleted := by
    intro hdeleted
    obtain ⟨now', hnow', hlt⟩ := ((h.call t).deleted a hdeleted).late
    have hnow : now' = now := by
      have hstage := ((h.call t).clock now).mp hread
      rw [hnow'] at hstage
      exact Option.some.inj hstage
    obtain ⟨read, hiread, hle⟩ := hrecent
    have hsame : read = a.attemptedAt := by
      have h₁ := ((h.call i).clock read).mp hiread
      have h₂ := ((h.call i).clock a.attemptedAt).mp haread
      exact Option.some.inj (h₁.symm.trans h₂)
    rw [hsame] at hle
    rw [hnow] at hlt
    exact absurd hlt (Nat.not_lt.mpr hle)
  refine ⟨a, List.mem_filter.mpr ⟨List.mem_append_left _ hstored, ?_⟩, ?_⟩
  · exact decide_eq_true ⟨haip.trans hip, hkept⟩
  · rw [hstage]
    rfl

/-- The calls that a count sees are not more than it counts. -/
theorem LimitInv.length_seen (h : LimitInv ips tr ph s) {seen : List ι}
    (hnodup : seen.Nodup)
    (hseen : ∀ i ∈ seen, ∃ a ∈ s.visible t (ips t),
      (ph i).stage.id = some a.id) :
    seen.length ≤ (s.visible t (ips t)).length := by
  have hids : (seen.map (fun i => (ph i).stage.id)).Nodup := by
    refine List.Nodup.map_on ?_ hnodup
    intro i hi j hj hij
    obtain ⟨a, -, ha⟩ := hseen i hi
    exact h.distinct i j a.id ha (hij ▸ ha)
  have hsub : seen.map (fun i => (ph i).stage.id)
      ⊆ (s.visible t (ips t)).map (fun a => some a.id) := by
    intro x hx
    obtain ⟨i, hi, rfl⟩ := List.mem_map.mp hx
    obtain ⟨a, ha, hid⟩ := hseen i hi
    exact List.mem_map.mpr ⟨a, ha, hid.symm⟩
  have hle := (hids.subperm hsub).length_le
  rw [List.length_map, List.length_map] at hle
  exact hle

/-- Any other step lets no call through. -/
theorem LimitInv.few_other (h : LimitInv ips tr ph s) {op : LimitOp}
    {r : Except Exn op.Res} (hop : Allowed (ph t) op)
    (hcount : ¬ letsThrough ⟨op, r⟩) {bound : Nat}
    (hfew : FewThrough bound ips tr) :
    FewThrough bound ips (tr ++ [⟨s, t, ⟨op, r⟩⟩]) := by
  intro ip time l hnodup hl
  refine hfew ip time l hnodup (fun i hi => ?_)
  obtain ⟨hip, hdid, now, hread, hwindow⟩ := hl i hi
  have hthrough : Did tr i letsThrough := by
    rcases did_concat.mp hdid with hold | ⟨-, hnew⟩
    · exact hold
    · exact absurd hnew hcount
  refine ⟨hip, hthrough, now, ?_, hwindow⟩
  rcases did_concat.mp hread with hold | ⟨rfl, hnew⟩
  · exact hold
  · -- a call reads the clock before it is let through
    have hstage := (h.call t).through.mp hthrough
    generalize ph t = l at hop hstage
    cases hop with
    | now => exact hstage.elim
    | _ => cases hnew

variable [DecidableEq ι]

/-- A count that lets a call through keeps the calls in a window few. -/
theorem LimitInv.few_count (h : LimitInv ips tr ph s)
    {n : Nat} (hn : n = (s.visible t (ips t)).length)
    (hlimit : n < loginRateLimit) {bound : Nat}
    (hbound : OverlookAtMost bound ips
      (tr ++ [⟨s, t, ⟨.countAttempts (ips t), .ok n⟩⟩])) :
    FewThrough (loginRateLimit + bound) ips
      (tr ++ [⟨s, t, ⟨.countAttempts (ips t), .ok n⟩⟩]) := by
  classical
  have hclock : ∀ i now, ReadClock
      (tr ++ [⟨s, t, ⟨.countAttempts (ips t), .ok n⟩⟩]) i now →
      ReadClock tr i now := by
    intro i now hread
    rcases did_concat.mp hread with hold | ⟨-, hnew⟩
    · exact hold
    · cases hnew
  have hthrough : ∀ i, i ≠ t → Did
      (tr ++ [⟨s, t, ⟨.countAttempts (ips t), .ok n⟩⟩]) i letsThrough →
      Did tr i letsThrough := by
    intro i hi hdid
    rcases did_concat.mp hdid with hold | ⟨hthread, -⟩
    · exact hold
    · exact absurd hthread.symm hi
  intro ip time l hnodup hl
  by_cases hmem : t ∈ l
  · obtain ⟨rfl, -, now, hread, hle, -⟩ := hl t hmem
    have hothers : ∀ i ∈ l.erase t, i ≠ t ∧ ips i = ips t ∧
        Did tr i letsThrough ∧ ∃ read, ReadClock tr i read ∧
          now.instant ≤ read.instant + windowMicros := by
      intro i hi
      obtain ⟨hne, hil⟩ := hnodup.mem_erase_iff.mp hi
      obtain ⟨hip, hdid, read, hiread, -, hwindow⟩ := hl i hil
      exact ⟨hne, hip, hthrough i hne hdid, read, hclock i read hiread,
        Nat.le_trans hle hwindow⟩
    have herase : (l.erase t).Nodup := hnodup.erase t
    -- what the count has overlooked, and what it has seen
    have hoverlooked := hbound tr _ [] now rfl trivial (hclock t now hread)
      ((l.erase t).filter (fun i => decide (Overlooked ips tr t now i)))
      (herase.filter _)
      (fun i hi => of_decide_eq_true (List.mem_filter.mp hi).2)
    have hseen := h.length_seen (t := t)
      (herase.filter (fun i => !decide (Overlooked ips tr t now i))) (by
        intro i hi
        obtain ⟨hil, hnot⟩ := List.mem_filter.mp hi
        obtain ⟨hne, hip, hdid, hrecent⟩ := hothers i hil
        have hnot : ¬ Overlooked ips tr t now i := by simpa using hnot
        exact h.seen (hclock t now hread) hip hdid hrecent hne hnot)
    have hsplit := List.length_eq_length_filter_add (l := l.erase t)
      (fun i => decide (Overlooked ips tr t now i))
    have hlength := List.length_erase_add_one hmem
    omega
  · refine h.few bound hbound.of_concat ip time l hnodup (fun i hi => ?_)
    obtain ⟨hip, hdid, now, hread, hwindow⟩ := hl i hi
    have hne : i ≠ t := by
      rintro rfl
      exact hmem hi
    exact ⟨hip, hthrough i hne hdid, now, hclock i now hread, hwindow⟩

/-- A step adds at most a fresh id. -/
theorem ids_step {l : Caller} {op : LimitOp} {r : Except Exn op.Res}
    (hop : Allowed l op) (hans : answers t op s r s') :
    s.ids ⊆ s'.ids ∧ ∀ id, (limitProtocol.next l op r).stage.id = some id →
      l.stage.id = some id ∨ (id ∉ s.ids ∧ id ∈ s'.ids) := by
  obtain ⟨a, rfl⟩ := answers_ok hans
  cases hop with
  | now =>
      obtain ⟨-, rfl⟩ := hans
      exact ⟨List.Subset.refl _, fun id hid => by cases hid⟩
  | uuid4 =>
      obtain ⟨hfresh, rfl⟩ := hans
      refine ⟨List.subset_cons_self a s.ids, fun id hid => ?_⟩
      obtain rfl := Option.some.inj hid
      exact Or.inr ⟨hfresh, List.mem_cons_self⟩
  | @count ip now =>
      obtain ⟨-, rfl⟩ := hans
      refine ⟨List.Subset.refl _, fun id hid => ?_⟩
      obtain ⟨-, -, -, hnone, -⟩ := counted_stage now a
      exact absurd (hnone.symm.trans hid) (Option.some_ne_none id).symm
  | prune h =>
      obtain rfl := hans
      exact ⟨List.Subset.refl _, fun id hid => by cases hid⟩
  | insert =>
      obtain rfl := hans
      exact ⟨List.Subset.refl _, fun id hid => Or.inl hid⟩
  | commit =>
      obtain rfl := hans
      exact ⟨List.Subset.refl _, fun id hid => Or.inl hid⟩
  | refuse =>
      obtain rfl := hans
      exact ⟨List.Subset.refl _, fun id hid => by cases hid⟩
  | leave =>
      obtain rfl := hans
      exact ⟨List.Subset.refl _, fun id hid => Or.inl hid⟩
  | close =>
      obtain rfl := hans
      exact ⟨List.Subset.refl _, fun id hid => by cases hid⟩

/-- Only a commit changes the committed attempts. -/
theorem committed_of_answers {op : LimitOp} {r : Except Exn op.Res}
    (h : answers t op s r s') :
    s'.committed = s.committed ∨
      (commits ⟨op, r⟩ ∧ s'.committed = s.published t) := by
  obtain ⟨a, rfl⟩ := answers_ok h
  cases op with
  | now =>
      obtain ⟨-, rfl⟩ := h
      exact Or.inl rfl
  | uuid4 =>
      obtain ⟨-, rfl⟩ := h
      exact Or.inl rfl
  | countAttempts ip =>
      obtain ⟨-, rfl⟩ := h
      exact Or.inl rfl
  | deleteAttempts ip start =>
      obtain rfl := h
      exact Or.inl rfl
  | insertAttempt a =>
      obtain rfl := h
      exact Or.inl rfl
  | commit =>
      obtain rfl := h
      exact Or.inr ⟨trivial, rfl⟩
  | close =>
      obtain rfl := h
      exact Or.inl rfl

/-- The attempt of a call that is stored stays so until it is pruned. -/
theorem LimitInv.kept_step (h : LimitInv ips tr ph s) {op : LimitOp}
    {r : Except Exn op.Res} (hans : answers t op s r s') {i : ι}
    {a : LoginAttempt} (ha : a ∈ s.committed) (hip : a.ip = ips i)
    (hinserts : Did tr i (inserts a)) :
    a ∈ s'.committed ∨ Pruned ips (tr ++ [⟨s, t, ⟨op, r⟩⟩]) i := by
  rcases committed_of_answers hans with hsame | ⟨hcommits, hpublished⟩
  · rw [hsame]
    exact Or.inl ha
  · by_cases hdeleted : a ∈ (s.tx t).deleted
    · have hdel := (h.call t).deleted a hdeleted
      obtain ⟨e, he, hthread, hbefore, hprunes⟩ := hdel.step
      refine Or.inr ⟨a, did_concat.mpr (Or.inl hinserts), e,
        List.mem_append_left _ he, hbefore, ?_, ?_⟩
      · rw [← hip, hdel.ip]
        exact hprunes
      · exact did_concat.mpr (Or.inr ⟨hthread.symm, hcommits⟩)
    · rw [hpublished]
      exact Or.inl (List.mem_filter.mpr
        ⟨List.mem_append_left _ ha, decide_eq_true hdeleted⟩)

/-- A call that is admitted by a step has committed its attempt, or had it
    committed before. -/
theorem LimitInv.kept_admitted (h : LimitInv ips tr ph s) {op : LimitOp}
    {r : Except Exn op.Res} (hop : Allowed (ph t) op)
    (hans : answers t op s r s') {a : LoginAttempt}
    (hstage : (limitProtocol.next (ph t) op r).stage = .admitted a) :
    (ph t).stage = .admitted a ∨ a ∈ s'.committed := by
  have hcall := h.call t
  generalize ph t = l at hop hstage hcall ⊢
  obtain ⟨b, rfl⟩ := answers_ok hans
  cases hop with
  | @count ip now =>
      obtain ⟨-, hnone, -⟩ := counted_stage now b
      have hcounted : counted now b = .admitted a := hstage
      rw [hcounted] at hnone
      cases hnone
  | commit =>
      cases hstage
      obtain rfl := hans
      refine Or.inr (List.mem_filter.mpr
        ⟨List.mem_append_right _ ?_, decide_eq_true ?_⟩)
      · rw [hcall.pending]
        exact List.mem_singleton_self a
      · intro hdeleted
        obtain ⟨now, hnow, hlt⟩ := (hcall.deleted a hdeleted).late
        cases hnow
        exact absurd hlt (Nat.not_lt.mpr (Nat.le_add_right _ _))
  | leave => exact Or.inl hstage
  | _ => cases hstage

/-- The same, for a step that is such a count. -/
theorem LimitInv.few_letsThrough (h : LimitInv ips tr ph s) {op : LimitOp}
    {r : Except Exn op.Res} (hop : Allowed (ph t) op)
    (hans : answers t op s r s') (hcount : letsThrough ⟨op, r⟩) {bound : Nat}
    (hbound : OverlookAtMost bound ips (tr ++ [⟨s, t, ⟨op, r⟩⟩])) :
    FewThrough (loginRateLimit + bound) ips (tr ++ [⟨s, t, ⟨op, r⟩⟩]) := by
  have hip := h.ip t
  generalize ph t = l at hop hip
  obtain ⟨n, rfl⟩ := answers_ok hans
  cases hop with
  | count =>
      subst hip
      exact h.few_count hans.1 hcount hbound
  | _ => exact hcount.elim

/-- A fresh id is none of those that the calls use. -/
theorem LimitInv.distinct_step (h : LimitInv ips tr ph s) {op : LimitOp}
    {r : Except Exn op.Res} (hop : Allowed (ph t) op)
    (hans : answers t op s r s') (i j : ι) (id : String)
    (hi : (Function.update ph t (limitProtocol.next (ph t) op r)
      i).stage.id = some id)
    (hj : (Function.update ph t (limitProtocol.next (ph t) op r)
      j).stage.id = some id) : i = j := by
  obtain ⟨-, hnew⟩ := ids_step hop hans
  by_cases hit : i = t
  · by_cases hjt : j = t
    · rw [hit, hjt]
    · rw [hit, Function.update_self] at hi
      rw [Function.update_of_ne hjt] at hj
      rcases hnew id hi with hold | ⟨hfresh, -⟩
      · rw [hit]
        exact h.distinct t j id hold hj
      · exact absurd (h.used j id hj) hfresh
  · rw [Function.update_of_ne hit] at hi
    by_cases hjt : j = t
    · rw [hjt, Function.update_self] at hj
      rcases hnew id hj with hold | ⟨hfresh, -⟩
      · rw [hjt]
        exact h.distinct i t id hi hold
      · exact absurd (h.used i id hi) hfresh
    · rw [Function.update_of_ne hjt] at hj
      exact h.distinct i j id hi hj

/-- Every step keeps the invariant. -/
theorem limitInv_step (h : LimitInv ips tr ph s) {op : LimitOp}
    {r : Except Exn op.Res} (hop : Allowed (ph t) op)
    (hans : answers t op s r s') :
    LimitInv ips (tr ++ [⟨s, t, ⟨op, r⟩⟩])
      (Function.update ph t (limitProtocol.next (ph t) op r)) s' := by
  have hself : Function.update ph t (limitProtocol.next (ph t) op r) t
      = limitProtocol.next (ph t) op r := Function.update_self ..
  have hrest : ∀ i, i ≠ t →
      Function.update ph t (limitProtocol.next (ph t) op r) i = ph i :=
    fun i hi => Function.update_of_ne hi ..
  obtain ⟨hids, hnew⟩ := ids_step hop hans
  have hip : ∀ i, (Function.update ph t (limitProtocol.next (ph t) op r)
      i).ip = ips i := by
    intro i
    by_cases hi : i = t
    · rw [hi, hself]
      exact h.ip t
    · rw [hrest i hi]
      exact h.ip i
  have hcall : ∀ i, CallInv (tr ++ [⟨s, t, ⟨op, r⟩⟩]) (s'.tx i) i
      (Function.update ph t (limitProtocol.next (ph t) op r) i) := by
    intro i
    by_cases hi : i = t
    · rw [hi, hself]
      exact callInv_step (h.call t) hop hans
    · rw [hrest i hi, tx_of_answers hans hi]
      exact (h.call i).frame (fun heq => hi heq.symm)
  refine ⟨hip, hcall, ?_, ?_, ?_, ?_⟩
  · intro i id hid
    by_cases hi : i = t
    · rw [hi, hself] at hid
      rcases hnew id hid with hold | ⟨-, hmem⟩
      · exact hids (h.used t id hold)
      · exact hmem
    · rw [hrest i hi] at hid
      exact hids (h.used i id hid)
  · exact h.distinct_step hop hans
  · intro i a hstage
    have hbefore : (ph i).stage = .admitted a ∨ a ∈ s'.committed := by
      by_cases hi : i = t
      · rw [hi, hself] at hstage
        rw [hi]
        exact h.kept_admitted hop hans hstage
      · rw [hrest i hi] at hstage
        exact Or.inl hstage
    rcases hbefore with hbefore | hstored
    · rcases h.kept i a hbefore with hstored | hpruned
      · have hattempt : (ph i).stage.attempt = some a := by
          rw [hbefore]
          rfl
        obtain ⟨haip, hinserts⟩ := (h.call i).attempt a hattempt
        exact h.kept_step hans hstored (haip.trans (h.ip i)) hinserts
      · exact Or.inr hpruned.concat
    · exact Or.inl hstored
  · intro bound hbound
    by_cases hcount : letsThrough ⟨op, r⟩
    · exact h.few_letsThrough hop hans hcount hbound
    · exact h.few_other hop hcount (h.few bound hbound.of_concat)

end Pools

/-! ## Every run -/

/-- Nothing has happened. -/
theorem limitInv_start (ips : ι → String) (clock : Time) (ids : List String)
    (committed : List LoginAttempt) :
    LimitInv ips [] (fun i => ⟨ips i, .ready⟩)
      (.idle ι clock ids committed) := by
  have hnone : ∀ (i : ι) (p : Event limitCalls Exn → Prop),
      ¬ Did (ι := ι) [] i p := by
    rintro i p ⟨e, he, -⟩
    exact absurd he List.not_mem_nil
  refine ⟨fun _ => rfl, ?_, ?_, ?_, ?_, ?_⟩
  · intro i
    refine ⟨?_, ?_, ?_, ?_, rfl, ?_⟩
    · exact fun now => iff_of_false (hnone i _) (Option.some_ne_none now).symm
    · exact iff_of_false (hnone i _) id
    · exact fun h => absurd h (hnone i _)
    · intro a ha
      cases ha
    · exact fun a ha => absurd ha List.not_mem_nil
  · intro i id hid
    cases hid
  · intro i j id hid
    cases hid
  · intro i a hstage
    cases hstage
  · intro bound _ ip t l _ hl
    cases l with
    | nil => exact Nat.zero_le _
    | cons i l =>
        obtain ⟨-, hdid, -⟩ := hl i List.mem_cons_self
        exact absurd hdid (hnone i _)

/-- Every call that the counts overlook may be one too many, and no other. -/
theorem limit_overlap [DecidableEq ι] (ips : ι → String) (clock : Time)
    (ids : List String) (committed : List LoginAttempt)
    {tr : List (Entry limitCalls Exn (LimitStore ι) ι)}
    {p : Pool limitCalls Exn Unit (LimitStore ι) ι}
    (hrun : Run answers (calls ips (.idle ι clock ids committed)) tr p)
    {bound : Nat} (hbound : OverlookAtMost bound ips tr) :
    AdmittedAtMost (loginRateLimit + bound) ips tr p := by
  have hkeep : KeptBy limitProtocol (@answers ι _) (LimitInv ips)
      (fun _ => True) :=
    fun tr ph s t op r s' hinv hop hans _ => limitInv_step hinv hop hans
  obtain ⟨ph, hinv, hfollows⟩ := Run.inv hkeep
    (limitInv_start ips clock ids committed)
    (fun i => checkLoginRateLimit_follows (ips i)) hrun (fun _ _ => trivial)
  intro ip t l hnodup hl
  refine hinv.few bound hbound ip t l hnodup (fun i hi => ?_)
  obtain ⟨hip, hadmitted, hwindow⟩ := hl i hi
  have hstage := hfollows i
  rw [show p.threads i = .ret () from hadmitted] at hstage
  obtain ⟨a, ha⟩ := hstage rfl
  refine ⟨hip, (hinv.call i).through.mpr ?_, hwindow⟩
  rw [ha]
  exact trivial

/-- An id that has not been given out. -/
def freshId (ids : List String) : String :=
  String.ofList (List.replicate ids.length 'x')

/-- A clock that stands still, and ids made up one after the other. -/
def exec [DecidableEq ι] (t : ι) (op : LimitOp) (s : LimitStore ι) :
    Option (Except Exn op.Res × LimitStore ι) :=
  match op with
  | .now => some (.ok s.clock, s)
  | .uuid4 =>
      if freshId s.ids ∈ s.ids then none
      else some (.ok (freshId s.ids), { s with ids := freshId s.ids :: s.ids })
  | .countAttempts ip => some (.ok (s.visible t ip).length, s)
  | .deleteAttempts ip start => some (.ok (), s.next t (.deleteAttempts ip start))
  | .insertAttempt a => some (.ok (), s.next t (.insertAttempt a))
  | .commit => some (.ok (), s.next t .commit)
  | .close => some (.ok (), s.next t .close)

theorem answers_of_exec [DecidableEq ι] (t : ι) (op : LimitOp)
    (s : LimitStore ι) (r : Except Exn op.Res) (s' : LimitStore ι)
    (h : exec t op s = some (r, s')) : answers t op s r s' := by
  cases op with
  | now =>
      cases h
      exact ⟨Nat.le_refl s.clock.instant, rfl⟩
  | uuid4 =>
      rw [exec] at h
      by_cases hmem : freshId s.ids ∈ s.ids
      · rw [if_pos hmem] at h
        cases h
      · rw [if_neg hmem] at h
        cases h
        exact ⟨hmem, rfl⟩
  | countAttempts ip =>
      cases h
      exact ⟨rfl, rfl⟩
  | _ =>
      cases h
      rfl

instance : DecidablePred counts
  | ⟨.countAttempts _, .ok _⟩ => isTrue trivial
  | ⟨.countAttempts _, .error _⟩ => isFalse id
  | ⟨.now, _⟩ | ⟨.uuid4, _⟩ | ⟨.deleteAttempts _ _, _⟩ | ⟨.insertAttempt _, _⟩
  | ⟨.commit, _⟩ | ⟨.close, _⟩ => isFalse id

instance : DecidablePred commits
  | ⟨.commit, .ok _⟩ => isTrue trivial
  | ⟨.commit, .error _⟩ => isFalse id
  | ⟨.now, _⟩ | ⟨.uuid4, _⟩ | ⟨.deleteAttempts _ _, _⟩ | ⟨.insertAttempt _, _⟩
  | ⟨.countAttempts _, _⟩ | ⟨.close, _⟩ => isFalse id

instance (ip : String) (a : LoginAttempt) : DecidablePred (prunes ip a)
  | ⟨.deleteAttempts ip' start, .ok _⟩ =>
      inferInstanceAs (Decidable (ip' = ip ∧
        a.attemptedAt.instant < start.instant))
  | ⟨.deleteAttempts _ _, .error _⟩ => isFalse id
  | ⟨.now, _⟩ | ⟨.uuid4, _⟩ | ⟨.countAttempts _, _⟩ | ⟨.insertAttempt _, _⟩
  | ⟨.commit, _⟩ | ⟨.close, _⟩ => isFalse id

/-- No call counts before those that have counted commit, and nothing is too
    old. -/
def TakeTurns (ip : String)
    (tr : List (Entry limitCalls Exn (LimitStore ι) ι)) : Prop :=
  (∀ n ∈ List.range tr.length, ∀ e ∈ tr[n]?, counts e.event →
    ∀ x ∈ tr.take n, counts x.event →
      x.thread = e.thread ∨ ∃ y ∈ tr.take n, y.thread = x.thread ∧
        commits y.event) ∧
  ∀ e ∈ tr, ∀ a ∈ e.before.committed, ¬ prunes ip a e.event

instance [DecidableEq ι] (ip : String)
    (tr : List (Entry limitCalls Exn (LimitStore ι) ι)) :
    Decidable (TakeTurns ip tr) :=
  inferInstanceAs (Decidable (_ ∧ _))

/-- Calls of one address that take turns overlook nobody. -/
theorem TakeTurns.noneOverlooked {ip : String}
    {tr : List (Entry limitCalls Exn (LimitStore ι) ι)}
    (h : TakeTurns ip tr) : NoneOverlooked (fun _ => ip) tr := by
  rintro pre e post now rfl hcounts - i hover
  obtain ⟨x, hx, rfl, hxcounts⟩ := hover.counted
  rcases hover.unseen with hopen | ⟨a, -, y, hy, hbefore, hprunes, -⟩
  · have hsplit : (pre ++ e :: post)[pre.length]? = some e := by
      rw [List.getElem?_append_right (Nat.le_refl _), Nat.sub_self]
      rfl
    have hmem : pre.length ∈ List.range (pre ++ e :: post).length := by
      rw [List.mem_range, List.length_append, List.length_cons]
      omega
    have hturn := h.1 pre.length hmem e hsplit hcounts
    rw [List.take_left] at hturn
    rcases hturn x hx hxcounts with hself | hcommits
    · exact hover.other hself
    · exact hopen hcommits
  · exact h.2 y (List.mem_append_left _ hy) a hbefore hprunes

/-- Eleven calls of one address, one after the other. -/
def inTurn : List (Fin 11) :=
  (List.finRange 10).flatMap (fun i => List.replicate 7 i.castSucc) ++
    List.replicate 5 (Fin.last 10)

/-- Eleven calls take every step together. -/
def together : List (Fin 11) :=
  (List.replicate 7 (List.finRange 11)).flatten

end CvLimit
