import ClusterVision.RunProofs
import Mathlib.Order.Lattice
import Mathlib.Data.List.Infix

/-! # Runs whose calls carry times

    A timed run is a run of `CvRun` whose calls are pairs of a time and a
    call, with times that do not decrease.  `InForce` says that a property
    held of the state at some time; between two calls it is the state that the
    earlier one left. -/

namespace CvTimed

open CvRun

variable {σ κ τ : Type} [LinearOrder τ] {step : τ × κ → σ → σ}
  {P Q : σ → Prop} {s : σ} {t : τ} {ks ls : List (τ × κ)}

/-- The times of a run do not decrease. -/
def InOrder (ks : List (τ × κ)) : Prop := ks.Pairwise (fun k l => k.1 ≤ l.1)

/-- `P` holds of a state that the run is in at time `t`. -/
def InForce (step : τ × κ → σ → σ) (ks : List (τ × κ)) (s : σ) (t : τ)
    (P : σ → Prop) : Prop :=
  ∃ pre post, ks = pre ++ post ∧ (∀ k ∈ pre, k.1 ≤ t) ∧
    (∀ k ∈ post, t ≤ k.1) ∧ P (after step pre s)

theorem InForce.imp (hPQ : ∀ s, P s → Q s) (h : InForce step ks s t P) :
    InForce step ks s t Q := by
  obtain ⟨pre, post, hks, hpre, hpost, hP⟩ := h
  exact ⟨pre, post, hks, hpre, hpost, hPQ _ hP⟩

/-- The state that a run leaves is in force from its last call on. -/
theorem inForce_last (ht : ∀ k ∈ ks, k.1 ≤ t) (h : P (after step ks s)) :
    InForce step ks s t P :=
  ⟨ks, [], (List.append_nil ks).symm, ht, nofun, h⟩

/-- Later calls do not change what was in force. -/
theorem InForce.append (h : InForce step ks s t P)
    (hls : ∀ k ∈ ls, t ≤ k.1) : InForce step (ks ++ ls) s t P := by
  obtain ⟨pre, post, rfl, hpre, hpost, hP⟩ := h
  refine ⟨pre, post ++ ls, List.append_assoc .., hpre, ?_, hP⟩
  intro k hk
  rcases List.mem_append.mp hk with hk | hk
  · exact hpost k hk
  · exact hls k hk

/-- What is in force after the calls of a first part was left by a call of the
    second one, or by the first part itself. -/
theorem InForce.later (h : InForce step (ks ++ ls) s t P)
    (hks : ∀ k ∈ ks, k.1 < t) :
    ∃ pre, pre <+: ls ∧ P (after step (ks ++ pre) s) := by
  obtain ⟨pre, post, heq, -, hpost, hP⟩ := h
  rcases List.append_eq_append_iff.mp heq with ⟨mid, rfl, rfl⟩ | ⟨mid, rfl, rfl⟩
  · exact ⟨mid, List.prefix_append .., hP⟩
  · cases mid with
    | nil =>
        rw [List.append_nil]
        exact ⟨[], List.nil_prefix, by rwa [List.append_nil]⟩
    | cons k mid =>
        have hk := hks k (List.mem_append_right _ (List.mem_cons_self ..))
        exact absurd (hpost k (List.mem_cons_self ..)) (not_le_of_gt hk)

/-- The last call of a run comes at no earlier time than those before it. -/
theorem InOrder.le_last {k : τ × κ} (h : InOrder (ks ++ k :: ls)) :
    ∀ l ∈ ks, l.1 ≤ k.1 := by
  intro l hl
  exact (List.pairwise_append.mp h).2.2 l hl k (List.mem_cons_self ..)

theorem InOrder.left (h : InOrder (ks ++ ls)) : InOrder ks :=
  (List.pairwise_append.mp h).1

theorem InOrder.le_right {k : τ × κ} (h : InOrder (ks ++ k :: ls)) :
    ∀ l ∈ k :: ls, k.1 ≤ l.1 := by
  intro l hl
  rcases List.mem_cons.mp hl with rfl | hl
  · exact le_refl _
  · have hcons := (List.pairwise_append.mp h).2.1
    exact (List.pairwise_cons.mp hcons).1 l hl

/-- An invariant of the run so far and the state that it left, which each call
    of the run keeps when no call before it was later. -/
theorem InOrder.inv {J : List (τ × κ) → σ → Prop} (hks : InOrder ks)
    (h₀ : J [] s)
    (hstep : ∀ pre k, k ∈ ks → (∀ l ∈ pre, l.1 ≤ k.1) →
      J pre (after step pre s) → J (pre ++ [k]) (step k (after step pre s))) :
    J ks (after step ks s) := by
  induction ks using List.reverseRecOn with
  | nil => exact h₀
  | append_singleton ks k ih =>
      rw [after_append]
      refine hstep ks k (List.mem_append_right _ (List.mem_singleton_self k))
        hks.le_last (ih hks.left ?_)
      intro pre l hl
      exact hstep pre l (List.mem_append_left _ hl)

end CvTimed
