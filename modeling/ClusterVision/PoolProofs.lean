import ClusterVision.ProgProofs
import Mathlib.Data.List.Chain
import Mathlib.Logic.Function.Basic

/-! # Programs that run concurrently

    A pool holds one program for each thread and a state that they share.  A
    step of the pool is one call of one thread; the shared state says how it
    can be answered, possibly in several ways, and possibly not yet.

    A protocol follows one thread: which calls it may make in a phase, and the
    phase that an answer leads to.  `Follows` is the weakest precondition of a
    program against a protocol, and `Run.inv` is the rule of this library: an
    invariant over the phases of all threads and the shared state, which every
    allowed call keeps, holds in every run of programs that follow it. -/

namespace CvPool

open CvProg

variable {I : Iface} {ε α β σ ι L : Type}

/-! ## Pools and runs -/

/-- How the shared state can answer a call of a thread. -/
abbrev Answers (I : Iface) (ε σ ι : Type) :=
  ι → (op : I.Op) → σ → Except ε (I.Res op) → σ → Prop

/-- The threads' programs and the shared state. -/
structure Pool (I : Iface) (ε α σ ι : Type) where
  threads : ι → Prog I ε α
  shared : σ

/-- One step of a run: the shared state before it, the thread, and its
    answered call. -/
structure Entry (I : Iface) (ε σ ι : Type) where
  before : σ
  thread : ι
  event : Event I ε

/-- The runs of a pool, with their steps, the oldest one first. -/
inductive Run [DecidableEq ι] (answers : Answers I ε σ ι)
    (start : Pool I ε α σ ι) :
    List (Entry I ε σ ι) → Pool I ε α σ ι → Prop where
  | refl : Run answers start [] start
  | step {tr : List (Entry I ε σ ι)} {p : Pool I ε α σ ι} {t : ι} {op : I.Op}
      {k : Except ε (I.Res op) → Prog I ε α} {r : Except ε (I.Res op)}
      {s : σ} (run : Run answers start tr p)
      (call : p.threads t = .call op k)
      (answer : answers t op p.shared r s) :
      Run answers start (tr ++ [⟨p.shared, t, ⟨op, r⟩⟩])
        ⟨Function.update p.threads t (k r), s⟩

/-- More answers, more runs. -/
theorem Run.imp [DecidableEq ι] {answers answers' : Answers I ε σ ι}
    (himp : ∀ t op s r s', answers t op s r s' → answers' t op s r s')
    {start : Pool I ε α σ ι} {tr : List (Entry I ε σ ι)} {p : Pool I ε α σ ι}
    (h : Run answers start tr p) : Run answers' start tr p := by
  induction h with
  | refl => exact .refl
  | step run call answer ih => exact .step ih call (himp _ _ _ _ _ answer)

/-- The ways in which a program can run, and what it leaves, while all other
    threads wait. -/
def Alone (answers : Answers I ε σ ι) (t : ι) :
    Prog I ε α → σ → Except ε α → σ → Prop
  | .ret a, s, r, s' => r = .ok a ∧ s' = s
  | .raise e, s, r, s' => r = .error e ∧ s' = s
  | .call op k, s, r, s' =>
      ∃ a s₁, answers t op s a s₁ ∧ Alone answers t (k a) s₁ r s'

section Alone

variable {answers : Answers I ε σ ι} {t : ι} {s s' : σ}

theorem alone_ofExcept {x r : Except ε α} :
    Alone answers t (Prog.ofExcept x : Prog I ε α) s r s'
      ↔ r = x ∧ s' = s := by
  cases x with
  | ok a => exact Iff.rfl
  | error e => exact Iff.rfl

/-- A single call. -/
theorem alone_perform {op : I.Op} {r : Except ε (I.Res op)} :
    Alone answers t (Prog.perform op : Prog I ε (I.Res op)) s r s'
      ↔ answers t op s r s' := by
  show (∃ a s₁, answers t op s a s₁ ∧
    Alone answers t (Prog.ofExcept a) s₁ r s') ↔ _
  constructor
  · rintro ⟨a, s₁, hanswer, hend⟩
    obtain ⟨rfl, rfl⟩ := alone_ofExcept.mp hend
    exact hanswer
  · exact fun hanswer => ⟨r, s', hanswer, alone_ofExcept.mpr ⟨rfl, rfl⟩⟩

/-- How a part that has stopped goes on. -/
def AloneAfter (answers : Answers I ε σ ι) (t : ι) (f : α → Prog I ε β)
    (r₁ : Except ε α) (s₁ : σ) (r : Except ε β) (s' : σ) : Prop :=
  match r₁ with
  | .ok a => Alone answers t (f a) s₁ r s'
  | .error e => r = .error e ∧ s' = s₁

/-- Sequencing. -/
theorem alone_bind {f : α → Prog I ε β} {r : Except ε β} {p : Prog I ε α} :
    Alone answers t (p >>= f) s r s'
      ↔ ∃ r₁ s₁, Alone answers t p s r₁ s₁ ∧
        AloneAfter answers t f r₁ s₁ r s' := by
  show Alone answers t (p.bind f) s r s' ↔ _
  induction p generalizing s with
  | ret a =>
      constructor
      · exact fun h => ⟨.ok a, s, ⟨rfl, rfl⟩, h⟩
      · rintro ⟨r₁, s₁, ⟨rfl, rfl⟩, h⟩
        exact h
  | raise e =>
      constructor
      · exact fun h => ⟨.error e, s, ⟨rfl, rfl⟩, h⟩
      · rintro ⟨r₁, s₁, ⟨rfl, rfl⟩, h⟩
        exact h
  | call op k ih =>
      constructor
      · rintro ⟨a, s₂, hanswer, h⟩
        obtain ⟨r₁, s₁, hfirst, hrest⟩ := (ih a).mp h
        exact ⟨r₁, s₁, ⟨a, s₂, hanswer, hfirst⟩, hrest⟩
      · rintro ⟨r₁, s₁, ⟨a, s₂, hanswer, hfirst⟩, hrest⟩
        exact ⟨a, s₂, hanswer, (ih a).mpr ⟨r₁, s₁, hfirst, hrest⟩⟩

/-- What a `finally` clause that stopped with `u` makes of an outcome. -/
def finallyResult (r : Except ε α) (u : Except ε Unit) : Except ε α :=
  match u with
  | .ok _ => r
  | .error e => .error e

/-- A `finally` clause. -/
theorem alone_ensuring {q : Prog I ε Unit} {r : Except ε α}
    {p : Prog I ε α} :
    Alone answers t (p.ensuring q) s r s'
      ↔ ∃ r₁ s₁ u, Alone answers t p s r₁ s₁ ∧ Alone answers t q s₁ u s' ∧
        r = finallyResult r₁ u := by
  have hlast : ∀ (f : Unit → Prog I ε α) (r₁ : Except ε α) (s : σ),
      (∀ v s, Alone answers t (f v) s r s' ↔ r = r₁ ∧ s' = s) →
      (Alone answers t (q >>= f) s r s'
        ↔ ∃ u, Alone answers t q s u s' ∧ r = finallyResult r₁ u) := by
    intro f r₁ s hf
    rw [alone_bind]
    constructor
    · rintro ⟨u, s₁, hq, hrest⟩
      cases u with
      | ok v =>
          obtain ⟨rfl, rfl⟩ := (hf v s₁).mp hrest
          exact ⟨.ok v, hq, rfl⟩
      | error e =>
          obtain ⟨rfl, rfl⟩ := hrest
          exact ⟨.error e, hq, rfl⟩
    · rintro ⟨u, hq, rfl⟩
      refine ⟨u, s', hq, ?_⟩
      cases u with
      | ok v => exact (hf v s').mpr ⟨rfl, rfl⟩
      | error e => exact ⟨rfl, rfl⟩
  induction p generalizing s with
  | ret a =>
      refine (hlast _ (.ok a) s (fun _ _ => Iff.rfl)).trans ?_
      constructor
      · exact fun ⟨u, hq, hr⟩ => ⟨.ok a, s, u, ⟨rfl, rfl⟩, hq, hr⟩
      · rintro ⟨r₁, s₁, u, ⟨rfl, rfl⟩, hq, hr⟩
        exact ⟨u, hq, hr⟩
  | raise e =>
      refine (hlast _ (.error e) s (fun _ _ => Iff.rfl)).trans ?_
      constructor
      · exact fun ⟨u, hq, hr⟩ => ⟨.error e, s, u, ⟨rfl, rfl⟩, hq, hr⟩
      · rintro ⟨r₁, s₁, u, ⟨rfl, rfl⟩, hq, hr⟩
        exact ⟨u, hq, hr⟩
  | call op k ih =>
      constructor
      · rintro ⟨a, s₂, hanswer, h⟩
        obtain ⟨r₁, s₁, u, hfirst, hq, hr⟩ := (ih a).mp h
        exact ⟨r₁, s₁, u, ⟨a, s₂, hanswer, hfirst⟩, hq, hr⟩
      · rintro ⟨r₁, s₁, u, ⟨a, s₂, hanswer, hfirst⟩, hq, hr⟩
        exact ⟨a, s₂, hanswer, (ih a).mpr ⟨r₁, s₁, u, hfirst, hq, hr⟩⟩

end Alone

/-- A thread may run to its end while the others wait. -/
theorem run_of_alone [DecidableEq ι] {answers : Answers I ε σ ι}
    {start : Pool I ε α σ ι} {t : ι} :
    ∀ {p : Prog I ε α} {tr : List (Entry I ε σ ι)} {threads : ι → Prog I ε α}
      {s s' : σ} {r : Except ε α}, threads t = p →
      Run answers start tr ⟨threads, s⟩ → Alone answers t p s r s' →
      ∃ tr', Run answers start tr'
        ⟨Function.update threads t (Prog.ofExcept r), s'⟩ := by
  intro p
  induction p with
  | ret a =>
      rintro tr threads s s' r ht hrun ⟨rfl, rfl⟩
      refine ⟨tr, ?_⟩
      show Run _ start tr ⟨Function.update threads t (.ret a), s'⟩
      rw [← ht, Function.update_eq_self]
      exact hrun
  | raise e =>
      rintro tr threads s s' r ht hrun ⟨rfl, rfl⟩
      refine ⟨tr, ?_⟩
      show Run _ start tr ⟨Function.update threads t (.raise e), s'⟩
      rw [← ht, Function.update_eq_self]
      exact hrun
  | call op k ih =>
      rintro tr threads s s' r ht hrun ⟨a, s₁, hanswer, halone⟩
      obtain ⟨tr', hlast⟩ := ih a (Function.update_self ..)
        (Run.step hrun ht hanswer) halone
      rw [Function.update_idem] at hlast
      exact ⟨tr', hlast⟩

/-- Run a program alone, as `exec` answers it. -/
def playAlone (exec : (op : I.Op) → σ → Option (Except ε (I.Res op) × σ)) :
    Prog I ε α → σ → Option (Except ε α × σ)
  | .ret a, s => some (.ok a, s)
  | .raise e, s => some (.error e, s)
  | .call op k, s =>
      match exec op s with
      | none => none
      | some (a, s₁) => playAlone exec (k a) s₁

theorem alone_of_play {answers : Answers I ε σ ι} {t : ι}
    {exec : (op : I.Op) → σ → Option (Except ε (I.Res op) × σ)}
    (hexec : ∀ op s a s₁, exec op s = some (a, s₁) → answers t op s a s₁) :
    ∀ {p : Prog I ε α} {s s' : σ} {r : Except ε α},
      playAlone exec p s = some (r, s') → Alone answers t p s r s' := by
  intro p
  induction p with
  | ret a =>
      intro s s' r h
      obtain ⟨rfl, rfl⟩ := Prod.mk.inj (Option.some.inj h)
      exact ⟨rfl, rfl⟩
  | raise e =>
      intro s s' r h
      obtain ⟨rfl, rfl⟩ := Prod.mk.inj (Option.some.inj h)
      exact ⟨rfl, rfl⟩
  | call op k ih =>
      intro s s' r h
      rw [playAlone] at h
      cases hanswer : exec op s with
      | none =>
          rw [hanswer] at h
          cases h
      | some as =>
          rw [hanswer] at h
          exact ⟨as.1, as.2, hexec op s as.1 as.2 hanswer, ih as.1 h⟩

/-- A handler gives one of these ways. -/
theorem alone_of_handler {answers : Answers I ε σ ι} {t : ι}
    {h : Handler I ε σ} (hh : ∀ op s, answers t op s (h op s).1 (h op s).2) :
    ∀ (p : Prog I ε α) (s : σ), Alone answers t p s (p.run h s).1
      (p.run h s).2 := by
  intro p
  induction p with
  | ret a => exact fun s => ⟨rfl, rfl⟩
  | raise e => exact fun s => ⟨rfl, rfl⟩
  | call op k ih =>
      exact fun s => ⟨(h op s).1, (h op s).2, hh op s, ih _ _⟩

/-- What a run shows of the shared state, from its start to its end. -/
def history (view : σ → β) (tr : List (Entry I ε σ ι))
    (p : Pool I ε α σ ι) : List β :=
  tr.map (fun e => view e.before) ++ [view p.shared]

/-- A step adds to the history what it leaves. -/
theorem history_step (view : σ → β) (tr : List (Entry I ε σ ι))
    (p p' : Pool I ε α σ ι) (t : ι) (ev : Event I ε) :
    history view (tr ++ [⟨p.shared, t, ev⟩]) p'
      = history view tr p ++ [view p'.shared] := by
  show (tr ++ [_]).map _ ++ _ = _
  rw [List.map_append]
  rfl

/-! ## Protocols -/

/-- A protocol for one thread. -/
structure Protocol (I : Iface) (ε L : Type) where
  allowed : L → I.Op → Prop
  next : L → (op : I.Op) → Except ε (I.Res op) → L

/-- From the phase `l` on, the program only makes calls that the protocol
    allows, and it stops in a phase and with an outcome that satisfy `Q`. -/
def Follows (P : Protocol I ε L) :
    Prog I ε α → L → (L → Except ε α → Prop) → Prop
  | .ret a, l, Q => Q l (.ok a)
  | .raise e, l, Q => Q l (.error e)
  | .call op k, l, Q =>
      P.allowed l op ∧ ∀ r, Follows P (k r) (P.next l op r) Q

variable {P : Protocol I ε L} {l : L} {Q : L → Except ε α → Prop}

theorem follows_pure {a : α} (h : Q l (.ok a)) :
    Follows P (pure a : Prog I ε α) l Q := h

theorem follows_throw {e : ε} (h : Q l (.error e)) :
    Follows P (throw e : Prog I ε α) l Q := h

theorem follows_ite {c : Prop} [Decidable c] {p q : Prog I ε α}
    (hp : c → Follows P p l Q) (hq : ¬ c → Follows P q l Q) :
    Follows P (if c then p else q) l Q := by
  by_cases hc : c
  · rw [if_pos hc]
    exact hp hc
  · rw [if_neg hc]
    exact hq hc

/-- A single call. -/
theorem follows_perform {op : I.Op} {Q : L → Except ε (I.Res op) → Prop}
    (h : P.allowed l op) (hq : ∀ r, Q (P.next l op r) r) :
    Follows P (Prog.perform op : Prog I ε (I.Res op)) l Q := by
  refine ⟨h, ?_⟩
  intro r
  cases r with
  | ok a => exact hq (.ok a)
  | error e => exact hq (.error e)

/-- The condition for what follows a part of a program. -/
def AfterOk (P : Protocol I ε L) (f : α → Prog I ε β)
    (Q : L → Except ε β → Prop) (l : L) (r : Except ε α) : Prop :=
  match r with
  | .ok a => Follows P (f a) l Q
  | .error e => Q l (.error e)

/-- Sequencing. -/
theorem follows_bind {f : α → Prog I ε β} {Q : L → Except ε β → Prop} :
    ∀ {p : Prog I ε α} {l : L}, Follows P p l (AfterOk P f Q) →
      Follows P (p >>= f) l Q := by
  intro p
  show ∀ {l : L}, _ → Follows P (p.bind f) l Q
  induction p with
  | ret a => exact fun h => h
  | raise e => exact fun h => h
  | call op k ih => exact fun h => ⟨h.1, fun r => ih r (h.2 r)⟩

/-- A weaker postcondition. -/
theorem Follows.imp {Q' : L → Except ε α → Prop}
    (hq : ∀ l r, Q l r → Q' l r) :
    ∀ {p : Prog I ε α} {l : L}, Follows P p l Q → Follows P p l Q' := by
  intro p
  induction p with
  | ret a => exact fun h => hq _ _ h
  | raise e => exact fun h => hq _ _ h
  | call op k ih => exact fun h => ⟨h.1, fun r => ih r (h.2 r)⟩

/-- The condition for the `finally` clause of a program. -/
def AfterAll (P : Protocol I ε L) (q : Prog I ε Unit)
    (Q : L → Except ε α → Prop) (l : L) (r : Except ε α) : Prop :=
  Follows P q l (fun l' r' =>
    match r' with
    | .ok _ => Q l' r
    | .error e => Q l' (.error e))

/-- A `finally` clause. -/
theorem follows_ensuring {q : Prog I ε Unit} :
    ∀ {p : Prog I ε α} {l : L}, Follows P p l (AfterAll P q Q) →
      Follows P (p.ensuring q) l Q := by
  intro p
  induction p with
  | ret a =>
      intro l h
      refine follows_bind (Follows.imp ?_ h)
      intro l' r' hr
      cases r' with
      | ok u => exact hr
      | error e => exact hr
  | raise e =>
      intro l h
      refine follows_bind (Follows.imp ?_ h)
      intro l' r' hr
      cases r' with
      | ok u => exact hr
      | error e' => exact hr
  | call op k ih => exact fun h => ⟨h.1, fun r => ih r (h.2 r)⟩

/-- The condition for the `except` clause of a program. -/
def AfterError (P : Protocol I ε L) (f : ε → Prog I ε α)
    (Q : L → Except ε α → Prop) (l : L) (r : Except ε α) : Prop :=
  match r with
  | .ok a => Q l (.ok a)
  | .error e => Follows P (f e) l Q

/-- An `except` clause. -/
theorem follows_catching {f : ε → Prog I ε α} :
    ∀ {p : Prog I ε α} {l : L}, Follows P p l (AfterError P f Q) →
      Follows P (tryCatch p f) l Q := by
  intro p
  show ∀ {l : L}, _ → Follows P (p.catching f) l Q
  induction p with
  | ret a => exact fun h => h
  | raise e => exact fun h => h
  | call op k ih => exact fun h => ⟨h.1, fun r => ih r (h.2 r)⟩

/-- A program whose calls are all allowed in a phase, and all stay in it. -/
theorem follows_of_uses {p : Prog I ε α}
    (hp : p.Uses (fun op => P.allowed l op ∧ ∀ r, P.next l op r = l))
    (hq : ∀ r, Q l r) : Follows P p l Q := by
  induction p with
  | ret a => exact hq _
  | raise e => exact hq _
  | call op k ih =>
      refine ⟨hp.1.1, fun r => ?_⟩
      rw [hp.1.2 r]
      exact ih r (hp.2 r)

/-- What the allowed calls keep holds at the end of a run. -/
theorem Follows.run {h : Handler I ε σ} {K : L → σ → Prop}
    (hkeep : ∀ l op s, P.allowed l op → K l s →
      K (P.next l op (h op s).1) (h op s).2) :
    ∀ {p : Prog I ε α} {l : L} {s : σ}, Follows P p l Q → K l s →
      ∃ l', Q l' (p.run h s).1 ∧ K l' (p.run h s).2 := by
  intro p
  induction p with
  | ret a => exact fun hp hs => ⟨_, hp, hs⟩
  | raise e => exact fun hp hs => ⟨_, hp, hs⟩
  | call op k ih =>
      exact fun hp hs => ih _ (hp.2 _) (hkeep _ op _ hp.1 hs)

/-! ## Invariants -/

section Invariants

variable [DecidableEq ι] {answers : Answers I ε σ ι}
  {Inv : List (Entry I ε σ ι) → (ι → L) → σ → Prop}
  {Guard : Entry I ε σ ι → Prop} {Q : ι → L → Except ε α → Prop}

/-- Every allowed call that meets the guard keeps the invariant. -/
def KeptBy (P : Protocol I ε L) (answers : Answers I ε σ ι)
    (Inv : List (Entry I ε σ ι) → (ι → L) → σ → Prop)
    (Guard : Entry I ε σ ι → Prop) : Prop :=
  ∀ tr ph s t op r s', Inv tr ph s → P.allowed (ph t) op →
    answers t op s r s' → Guard ⟨s, t, ⟨op, r⟩⟩ →
      Inv (tr ++ [⟨s, t, ⟨op, r⟩⟩])
        (Function.update ph t (P.next (ph t) op r)) s'

/-- Every step of a run meets a guard that sees the run before it and the pool
    that this has left. -/
def Guarded (answers : Answers I ε σ ι) (start : Pool I ε α σ ι)
    (G : List (Entry I ε σ ι) → Pool I ε α σ ι → Entry I ε σ ι → Prop)
    (tr : List (Entry I ε σ ι)) : Prop :=
  ∀ pre e post p, tr = pre ++ e :: post → Run answers start pre p → G pre p e

/-- An invariant of the whole pool that every allowed and guarded call keeps
    holds in every run of programs that follow the protocol, and they still
    follow it. -/
theorem Run.inv_pool {p₀ : Pool I ε α σ ι}
    {J : List (Entry I ε σ ι) → (ι → L) → Pool I ε α σ ι → Prop}
    {G : List (Entry I ε σ ι) → Pool I ε α σ ι → Entry I ε σ ι → Prop}
    (hkeep : ∀ tr ph p t op k r s', J tr ph p →
      (∀ u, Follows P (p.threads u) (ph u) (Q u)) → p.threads t = .call op k →
      answers t op p.shared r s' → G tr p ⟨p.shared, t, ⟨op, r⟩⟩ →
        J (tr ++ [⟨p.shared, t, ⟨op, r⟩⟩])
          (Function.update ph t (P.next (ph t) op r))
          ⟨Function.update p.threads t (k r), s'⟩)
    {ph₀ : ι → L} (h₀ : J [] ph₀ p₀)
    (hf : ∀ t, Follows P (p₀.threads t) (ph₀ t) (Q t))
    {tr : List (Entry I ε σ ι)} {p : Pool I ε α σ ι}
    (hrun : Run answers p₀ tr p) (hguard : Guarded answers p₀ G tr) :
    ∃ ph, J tr ph p ∧ ∀ t, Follows P (p.threads t) (ph t) (Q t) := by
  induction hrun with
  | refl => exact ⟨ph₀, h₀, hf⟩
  | @step tr p t op k r s run call answer ih =>
      have hbefore : Guarded answers p₀ G tr := by
        intro pre e post q htr hq
        refine hguard pre e (post ++ [⟨p.shared, t, ⟨op, r⟩⟩]) q ?_ hq
        rw [htr, List.append_assoc]
        rfl
      obtain ⟨ph, hinv, hfol⟩ := ih hbefore
      have ht := hfol t
      rw [call] at ht
      refine ⟨_, hkeep tr ph p t op k r s hinv hfol call answer
        (hguard tr _ [] p rfl run), ?_⟩
      intro t'
      show Follows P (Function.update p.threads t (k r) t') _ _
      by_cases htt : t' = t
      · rw [htt, Function.update_self, Function.update_self]
        exact ht.2 r
      · rw [Function.update_of_ne htt, Function.update_of_ne htt]
        exact hfol t'

/-- An invariant that every allowed call keeps holds in every run of programs
    that follow the protocol, and they still follow it. -/
theorem Run.inv (hkeep : KeptBy P answers Inv Guard) {p₀ : Pool I ε α σ ι}
    {ph₀ : ι → L} (h₀ : Inv [] ph₀ p₀.shared)
    (hf : ∀ t, Follows P (p₀.threads t) (ph₀ t) (Q t))
    {tr : List (Entry I ε σ ι)} {p : Pool I ε α σ ι}
    (hrun : Run answers p₀ tr p) (hguard : ∀ e ∈ tr, Guard e) :
    ∃ ph, Inv tr ph p.shared ∧
      ∀ t, Follows P (p.threads t) (ph t) (Q t) := by
  refine Run.inv_pool (J := fun tr ph p => Inv tr ph p.shared)
    (G := fun _ _ e => Guard e) ?_ h₀ hf hrun ?_
  · intro tr ph p t op k r s' hinv hfol hcall hans hg
    have ht := hfol t
    rw [hcall] at ht
    exact hkeep tr ph p.shared t op r s' hinv ht.1 hans hg
  · intro pre e post p htr _
    rw [htr] at hguard
    exact hguard e (List.mem_append_right _ (List.mem_cons_self ..))

/-- Where every allowed call moves a view of the shared state along `R`, the
    history of that view is a path of `R`. -/
theorem Run.history_chain (hkeep : KeptBy P answers Inv Guard)
    {view : σ → β} {R : β → β → Prop}
    (hmove : ∀ tr ph s t op r s', Inv tr ph s → P.allowed (ph t) op →
      answers t op s r s' → Guard ⟨s, t, ⟨op, r⟩⟩ → R (view s) (view s'))
    {p₀ : Pool I ε α σ ι} {ph₀ : ι → L} (h₀ : Inv [] ph₀ p₀.shared)
    (hf : ∀ t, Follows P (p₀.threads t) (ph₀ t) (Q t))
    {tr : List (Entry I ε σ ι)} {p : Pool I ε α σ ι}
    (hrun : Run answers p₀ tr p) (hguard : ∀ e ∈ tr, Guard e) :
    List.IsChain R (history view tr p) := by
  induction hrun with
  | refl => exact List.isChain_singleton _
  | @step tr p t op k r s run call answer ih =>
      have hpre : ∀ e ∈ tr, Guard e := fun e he =>
        hguard e (List.mem_append.mpr (Or.inl he))
      obtain ⟨ph, hinv, hfol⟩ := Run.inv hkeep h₀ hf run hpre
      have ht := hfol t
      rw [call] at ht
      have hlast : R (view p.shared) (view s) :=
        hmove tr ph p.shared t op r s hinv ht.1 answer
          (hguard _ (List.mem_append.mpr
            (Or.inr (List.mem_singleton.mpr rfl))))
      rw [history_step]
      have hih := ih hpre
      rw [history] at hih ⊢
      rw [List.append_assoc]
      exact List.isChain_append_cons_cons.mpr
        ⟨hih, hlast, List.isChain_singleton _⟩

end Invariants

/-- So may a thread whose calls a handler answers. -/
theorem run_thread [DecidableEq ι] {h : Handler I ε σ}
    {start : Pool I ε α σ ι} (t : ι) (p : Prog I ε α)
    {tr : List (Entry I ε σ ι)} {threads : ι → Prog I ε α} {s : σ}
    (ht : threads t = p)
    (hrun : Run (fun _ op s r s' => h op s = (r, s')) start tr ⟨threads, s⟩) :
    ∃ tr', Run (fun _ op s r s' => h op s = (r, s')) start tr'
      ⟨Function.update threads t (Prog.ofExcept (p.run h s).1),
        (p.run h s).2⟩ :=
  run_of_alone ht hrun (alone_of_handler (fun _ _ => rfl) p s)

/-- A program that runs alone. -/
theorem run_alone {h : Handler I ε σ} {start : Pool I ε α σ Unit}
    (p : Prog I ε α) {tr : List (Entry I ε σ Unit)} {s : σ}
    (hrun : Run (fun _ op s r s' => h op s = (r, s')) start tr
      ⟨fun _ => p, s⟩) :
    ∃ tr', Run (fun _ op s r s' => h op s = (r, s')) start tr'
      ⟨fun _ => Prog.ofExcept (p.run h s).1, (p.run h s).2⟩ := by
  obtain ⟨tr', hlast⟩ := run_thread () p rfl hrun
  rw [show Function.update (fun _ : Unit => p) ()
    (Prog.ofExcept (p.run h s).1) = fun _ => Prog.ofExcept (p.run h s).1 from
      funext (fun _ => Function.update_self ..)] at hlast
  exact ⟨tr', hlast⟩

/-! ## Playing a schedule -/

section Play

variable [DecidableEq ι]

/-- Let threads take steps in a given order, as `exec` answers them; `none`
    when a thread that is due has stopped or has to wait. -/
def play (exec : ι → (op : I.Op) → σ → Option (Except ε (I.Res op) × σ)) :
    List ι → List (Entry I ε σ ι) → Pool I ε α σ ι →
      Option (List (Entry I ε σ ι) × Pool I ε α σ ι)
  | [], tr, p => some (tr, p)
  | t :: ts, tr, p =>
      match p.threads t with
      | .call op k =>
          match exec t op p.shared with
          | some (r, s) =>
              play exec ts (tr ++ [⟨p.shared, t, ⟨op, r⟩⟩])
                ⟨Function.update p.threads t (k r), s⟩
          | none => none
      | _ => none

/-- A schedule that can be played is a run. -/
theorem run_of_play {answers : Answers I ε σ ι}
    {exec : ι → (op : I.Op) → σ → Option (Except ε (I.Res op) × σ)}
    (hexec : ∀ t op s r s', exec t op s = some (r, s') →
      answers t op s r s') {p₀ : Pool I ε α σ ι} :
    ∀ (ts : List ι) {tr tr' : List (Entry I ε σ ι)}
      {p p' : Pool I ε α σ ι}, Run answers p₀ tr p →
      play exec ts tr p = some (tr', p') → Run answers p₀ tr' p' := by
  intro ts
  induction ts with
  | nil =>
      intro tr tr' p p' hrun hplay
      cases hplay
      exact hrun
  | cons t ts ih =>
      intro tr tr' p p' hrun hplay
      rw [play] at hplay
      split at hplay
      · rename_i op k hcall
        split at hplay
        · rename_i r s hans
          exact ih (Run.step hrun hcall (hexec t op _ r s hans)) hplay
        · exact nomatch hplay
      · exact nomatch hplay

/-- Has the program returned? -/
def returned : Prog I ε α → Bool
  | .ret _ => true
  | _ => false

theorem returned_iff {p : Prog I ε α} :
    returned p = true ↔ ∃ a, p = .ret a := by
  cases p with
  | ret a => exact ⟨fun _ => ⟨a, rfl⟩, fun _ => rfl⟩
  | raise e => exact ⟨nofun, nofun⟩
  | call op k => exact ⟨nofun, nofun⟩

/-- Has the program stopped with this exception? -/
def raises [DecidableEq ε] (e : ε) : Prog I ε α → Bool
  | .raise e' => decide (e' = e)
  | _ => false

theorem raises_iff [DecidableEq ε] {e : ε} {p : Prog I ε α} :
    raises e p = true ↔ p = .raise e := by
  cases p with
  | ret a => exact ⟨nofun, nofun⟩
  | raise e' =>
      rw [raises, decide_eq_true_iff]
      exact ⟨fun h => h ▸ rfl, fun h => Prog.raise.inj h⟩
  | call op k => exact ⟨nofun, nofun⟩

/-- Two programs that have both returned. -/
theorem both_returned {threads : Bool → Prog I ε α}
    (h : (returned (threads false) && returned (threads true)) = true) :
    ∀ i, ∃ a, threads i = .ret a := by
  rw [Bool.and_eq_true] at h
  intro i
  cases i with
  | false => exact returned_iff.mp h.1
  | true => exact returned_iff.mp h.2

/-- A schedule that a handler plays, and what it shows, give a run. -/
theorem run_of_handler (h : Handler I ε σ) (p₀ : Pool I ε α σ ι)
    (ts : List ι) (P : List (Entry I ε σ ι) → Pool I ε α σ ι → Bool)
    (hplay : (play (fun _ op s => some (h op s)) ts [] p₀).any
      (fun o => P o.1 o.2) = true) :
    ∃ tr p, Run (fun _ op s r s' => h op s = (r, s')) p₀ tr p ∧
      P tr p = true := by
  obtain ⟨⟨tr, p⟩, hplay, hP⟩ := (Option.any_eq_true _ _).mp hplay
  exact ⟨tr, p, run_of_play (fun _ _ _ _ _ hans => Option.some.inj hans) ts
    .refl hplay, hP⟩

end Play

end CvPool
