import ClusterVision.PoolProofs

/-! # Two protocols at once

    A program that follows two protocols follows them side by side, so that an
    invariant can use the phases of both.  The second one is often a flag: has
    a call of some kind succeeded?  `watch` is that protocol, with a condition
    on the calls, and the rules below find the flag set wherever a program
    returns. -/

namespace CvPool

open CvProg

variable {I : Iface} {ε α β L M : Type}

/-- Both protocols. -/
def Protocol.both (P : Protocol I ε L) (P' : Protocol I ε M) :
    Protocol I ε (L × M) where
  allowed l op := P.allowed l.1 op ∧ P'.allowed l.2 op
  next l op r := (P.next l.1 op r, P'.next l.2 op r)

/-- What follows two protocols follows both. -/
theorem Follows.both {P : Protocol I ε L} {P' : Protocol I ε M}
    {Q : L → Except ε α → Prop} {Q' : M → Except ε α → Prop} :
    ∀ {p : Prog I ε α} {l : L} {m : M}, Follows P p l Q → Follows P' p m Q' →
      Follows (P.both P') p (l, m) (fun lm r => Q lm.1 r ∧ Q' lm.2 r) := by
  intro p
  induction p with
  | ret a => exact fun h h' => ⟨h, h'⟩
  | raise e => exact fun h h' => ⟨h, h'⟩
  | call op k ih =>
      exact fun h h' => ⟨⟨h.1, h'.1⟩, fun r => ih r (h.2 r) (h'.2 r)⟩

/-- A protocol for each kind of thread; a phase names the kind. -/
def Protocol.family {κ : Type} (P : κ → Protocol I ε L) :
    Protocol I ε (κ × L) where
  allowed l op := (P l.1).allowed l.2 op
  next l op r := (l.1, (P l.1).next l.2 op r)

/-- A thread stays of its kind. -/
theorem Follows.family {κ : Type} {P : κ → Protocol I ε L} {k : κ}
    {Q : L → Except ε α → Prop} :
    ∀ {p : Prog I ε α} {l : L}, Follows (P k) p l Q →
      Follows (Protocol.family P) p (k, l) (fun kl r => Q kl.2 r) := by
  intro p
  induction p with
  | ret a => exact fun h => h
  | raise e => exact fun h => h
  | call op k' ih => exact fun h => ⟨h.1, fun r => ih r (h.2 r)⟩

/-! ## A flag -/

/-- Has an answer arrived that is no error? -/
def answered (r : Except ε α) : Bool :=
  match r with
  | .ok _ => true
  | .error _ => false

/-- Only the calls in `R`; the flag says whether one of the calls `hit` has
    succeeded. -/
def watch (R : I.Op → Prop) (hit : I.Op → Bool) : Protocol I ε Bool where
  allowed _ op := R op
  next seen op r := seen || (hit op && answered r)

/-- The flag is set where the program returns. -/
def Seen (seen : Bool) (r : Except ε α) : Prop :=
  answered r = true → seen = true

section Watch

variable {R : I.Op → Prop} {hit : I.Op → Bool} {seen : Bool}

theorem seen_error (e : ε) : Seen seen (.error e : Except ε α) := by
  intro h
  cases h

/-- A flag that is set stays set. -/
theorem follows_watch_of_seen {p : Prog I ε α} (hp : p.Uses R) :
    Follows (watch R hit) p true Seen := by
  refine follows_of_uses (hp.imp (fun op hop => ⟨hop, fun r => ?_⟩)) ?_
  · exact Bool.true_or (hit op && answered r)
  · exact fun r _ => rfl

/-- A part that may do anything, and what follows it. -/
theorem follows_watch_bind {p : Prog I ε α} {f : α → Prog I ε β}
    (hp : p.Uses R)
    (hf : ∀ a seen, Follows (watch R hit) (f a) seen Seen) :
    Follows (watch R hit) (p >>= f) seen Seen := by
  refine follows_bind ?_
  induction p generalizing seen with
  | ret a => exact hf a seen
  | raise e => exact seen_error e
  | call op k ih => exact ⟨hp.1, fun r => ih r (hp.2 r)⟩

/-- The call that sets the flag. -/
theorem follows_watch_hit {op : I.Op} (hop : R op) (hhit : hit op = true) :
    Follows (watch R hit) (Prog.perform op : Prog I ε (I.Res op)) seen
      Seen := by
  refine follows_perform hop ?_
  intro r hr
  show (seen || (hit op && answered r)) = true
  rw [hhit, hr, Bool.true_and, Bool.or_true]

/-- The part that sets the flag, and what follows it. -/
theorem follows_watch_seen {p : Prog I ε α} {f : α → Prog I ε β}
    (hp : Follows (watch R hit) p seen Seen) (hf : ∀ a, (f a).Uses R) :
    Follows (watch R hit) (p >>= f) seen Seen := by
  refine follows_bind (Follows.imp ?_ hp)
  intro seen r hseen
  cases r with
  | error e => exact seen_error e
  | ok a =>
      rw [hseen rfl]
      exact follows_watch_of_seen (hf a)

/-- A `finally` clause of calls in `R`. -/
theorem follows_watch_ensuring {p : Prog I ε α} {q : Prog I ε Unit}
    (hq : q.Uses R) (hp : Follows (watch R hit) p seen Seen) :
    Follows (watch R hit) (p.ensuring q) seen Seen := by
  refine follows_ensuring (Follows.imp ?_ hp)
  intro l r hseen
  cases r with
  | error e =>
      have hany : ∀ l, Follows (watch R hit) q l (fun _ _ => True) := by
        clear hseen hp
        induction q with
        | ret u => exact fun _ => trivial
        | raise e' => exact fun _ => trivial
        | call op k ih => exact fun _ => ⟨hq.1, fun r => ih r (hq.2 r) _⟩
      refine Follows.imp ?_ (hany l)
      intro l' r' _
      cases r' with
      | ok u => exact seen_error e
      | error e' => exact seen_error e'
  | ok a =>
      have hl : l = true := hseen rfl
      rw [hl]
      refine Follows.imp ?_ (follows_watch_of_seen hq)
      intro l' r' hlast
      cases r' with
      | ok u => exact fun _ => hlast rfl
      | error e => exact seen_error e

end Watch

end CvPool
