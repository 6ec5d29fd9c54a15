import ClusterVision.RunProofs

/-! # Single flights

    Members come one at a time.  The first one leads; who comes while somebody
    leads has to wait.  When the flight lands, all who wait are let go.  The
    structure carries that nobody waits without a leader, so a run can only
    lose a member by a landing: who has begun to wait was let go or still
    waits, in the order of arrival. -/

namespace CvFlight

open CvRun

variable {ι : Type}

/-- A single flight. -/
structure Flight (ι : Type) where
  leader : Option ι
  waiting : List ι
  grounded : leader = none → waiting = []

namespace Flight

/-- Nobody is there. -/
def idle : Flight ι := ⟨none, [], fun _ => rfl⟩

/-- A member comes. -/
def join (i : ι) (f : Flight ι) : Flight ι :=
  match f.leader with
  | none => ⟨some i, [], fun _ => rfl⟩
  | some j => ⟨some j, f.waiting ++ [i], fun h => absurd h (Option.some_ne_none j)⟩

theorem join_idle {i : ι} {f : Flight ι} (h : f.leader = none) :
    f.join i = ⟨some i, [], fun _ => rfl⟩ := by
  rw [join, h]

theorem join_busy {i j : ι} {f : Flight ι} (h : f.leader = some j) :
    (f.join i).leader = some j ∧ (f.join i).waiting = f.waiting ++ [i] := by
  rw [join, h]
  exact ⟨rfl, rfl⟩

end Flight

/-- What happens to a flight. -/
inductive Move (ι : Type) where
  | join (i : ι)
  | land

def fly : Move ι → Flight ι → Flight ι
  | .join i, f => f.join i
  | .land, _ => Flight.idle

/-- Who begins to wait. -/
def toWait : Move ι → Flight ι → List ι
  | .join i, f => if f.leader.isSome then [i] else []
  | .land, _ => []

/-- Who is let go. -/
def letGo : Move ι → Flight ι → List ι
  | .join _, _ => []
  | .land, f => f.waiting

/-- One move loses nobody. -/
theorem waiting_fly (k : Move ι) (f : Flight ι) :
    f.waiting ++ toWait k f = letGo k f ++ (fly k f).waiting := by
  cases k with
  | land => exact rfl
  | join i =>
      show f.waiting ++ (if f.leader.isSome then [i] else [])
        = [] ++ (f.join i).waiting
      cases hl : f.leader with
      | none =>
          rw [Flight.join_idle hl, f.grounded hl]
          rfl
      | some j =>
          rw [(Flight.join_busy hl).2]
          rfl

/-- Who has begun to wait in a run was let go, in that order, or still
    waits. -/
theorem waiting_run (ks : List (Move ι)) (f : Flight ι) :
    f.waiting ++ outputs fly toWait ks f
      = outputs fly letGo ks f ++ (after fly ks f).waiting := by
  induction ks generalizing f with
  | nil => simp [outputs]
  | cons k ks ih =>
      calc f.waiting ++ (toWait k f ++ outputs fly toWait ks (fly k f))
          = letGo k f ++ ((fly k f).waiting
              ++ outputs fly toWait ks (fly k f)) := by
            rw [← List.append_assoc, waiting_fly, List.append_assoc]
        _ = letGo k f ++ (outputs fly letGo ks (fly k f)
              ++ (after fly ks (fly k f)).waiting) := by rw [ih]
        _ = outputs fly letGo (k :: ks) f
              ++ (after fly (k :: ks) f).waiting := by
            rw [← List.append_assoc]
            rfl

/-- A run from nobody. -/
theorem waited_eq (ks : List (Move ι)) :
    outputs fly toWait ks Flight.idle
      = outputs fly letGo ks Flight.idle
        ++ (after fly ks Flight.idle).waiting :=
  waiting_run ks Flight.idle

end CvFlight
