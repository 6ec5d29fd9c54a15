import Mathlib.Logic.Function.Basic

/-! # Resources with one holder each

    Holders acquire resources from a store, and some of them are entered in an
    index under a key, by which their resource is found again.  The books are
    balanced when every resource that is held exists, every one that exists
    has exactly one holder, and the index names the resource of each key's
    holder.  Acquiring a new resource under a free key, dropping one, and
    handing one over to a holder without a key keep the books balanced. -/

namespace CvLedger

/-- What each holder holds, what the index says of each key, and which
    resources exist. -/
@[ext] structure Books (H K P : Type) where
  held : H → Option P
  index : K → Option P
  exists_ : P → Bool

variable {H K P : Type}

/-- The books are balanced, where `keyOf` says under which key a holder is
    entered, if it is. -/
structure Balanced (keyOf : H → Option K) (b : Books H K P) : Prop where
  onDisk : ∀ h p, b.held h = some p → b.exists_ p = true
  owned : ∀ p, b.exists_ p = true → ∃ h, b.held h = some p
  unique : ∀ h h' p, b.held h = some p → b.held h' = some p → h = h'
  indexed : ∀ k p, b.index k = some p ↔
    ∃ h, keyOf h = some k ∧ b.held h = some p

variable {keyOf : H → Option K} {b : Books H K P}

/-- A key has one holder. -/
theorem Balanced.eq_of_key (hb : Balanced keyOf b) {h h' : H} {k : K}
    {p p' : P} (hk : keyOf h = some k) (hk' : keyOf h' = some k)
    (hp : b.held h = some p) (hp' : b.held h' = some p') : h = h' := by
  have hindex := (hb.indexed k p).mpr ⟨h, hk, hp⟩
  have hindex' := (hb.indexed k p').mpr ⟨h', hk', hp'⟩
  rw [hindex] at hindex'
  rw [← Option.some.inj hindex'] at hp'
  exact hb.unique h h' p hp hp'

/-- A key without a holder is free. -/
theorem Balanced.index_eq_none (hb : Balanced keyOf b) {k : K}
    (h : ∀ x, keyOf x = some k → b.held x = none) : b.index k = none := by
  rw [Option.eq_none_iff_forall_ne_some]
  intro p hp
  obtain ⟨x, hk, hx⟩ := (hb.indexed k p).mp hp
  rw [h x hk] at hx
  exact nomatch hx

variable [DecidableEq H] [DecidableEq K] [DecidableEq P]

/-- The holder `h` acquires the new resource `p`. -/
def take (keyOf : H → Option K) (h : H) (p : P) (b : Books H K P) :
    Books H K P where
  held := Function.update b.held h (some p)
  index := fun k => if keyOf h = some k then some p else b.index k
  exists_ := Function.update b.exists_ p true

/-- The holder `h` drops its resource, which is destroyed. -/
def drop (keyOf : H → Option K) (h : H) (b : Books H K P) : Books H K P where
  held := Function.update b.held h none
  index := fun k => if keyOf h = some k then none else b.index k
  exists_ := fun p => if b.held h = some p then false else b.exists_ p

/-- The holder `h` hands its resource over to `h'`. -/
def hand (keyOf : H → Option K) (h h' : H) (b : Books H K P) :
    Books H K P where
  held := Function.update (Function.update b.held h none) h' (b.held h)
  index := fun k => if keyOf h = some k then none else b.index k
  exists_ := b.exists_

omit [DecidableEq P] in
/-- Who holds what after a handing over. -/
theorem held_hand {h h' : H} {p : P} (hp : b.held h = some p)
    (hnone : b.held h' = none) (x : H) (q : P) :
    (hand keyOf h h' b).held x = some q ↔
      (x = h' ∧ q = p) ∨ (x ≠ h ∧ b.held x = some q) := by
  show Function.update (Function.update b.held h none) h' (b.held h) x = some q
    ↔ _
  by_cases hx' : x = h'
  · rw [hx', Function.update_self, hp, hnone, Option.some_inj]
    constructor
    · intro hq
      exact Or.inl ⟨rfl, hq.symm⟩
    · rintro (⟨-, hq⟩ | ⟨-, hq⟩)
      · exact hq.symm
      · cases hq
  · rw [Function.update_of_ne hx']
    by_cases hx : x = h
    · rw [hx, Function.update_self]
      constructor
      · intro hq
        cases hq
      · rintro (⟨heq, -⟩ | ⟨hne, -⟩)
        · exact absurd (hx.trans heq) hx'
        · exact absurd rfl hne
    · rw [Function.update_of_ne hx]
      constructor
      · intro hq
        exact Or.inr ⟨hx, hq⟩
      · rintro (⟨heq, -⟩ | ⟨-, hq⟩)
        · exact absurd heq hx'
        · exact hq

/-- Who holds what after an acquisition. -/
theorem held_take {h : H} {p : P} (hnone : b.held h = none) (x : H) (q : P) :
    (take keyOf h p b).held x = some q ↔
      (x = h ∧ q = p) ∨ b.held x = some q := by
  show Function.update b.held h (some p) x = some q ↔ _
  by_cases hx : x = h
  · rw [hx, Function.update_self, hnone, Option.some_inj]
    constructor
    · intro hq
      exact Or.inl ⟨rfl, hq.symm⟩
    · rintro (⟨-, hq⟩ | hq)
      · exact hq.symm
      · cases hq
  · rw [Function.update_of_ne hx]
    constructor
    · exact Or.inr
    · rintro (⟨heq, -⟩ | hq)
      · exact absurd heq hx
      · exact hq

/-- Who holds what after a dropping. -/
theorem held_drop (h : H) (x : H) (q : P) :
    (drop keyOf h b).held x = some q ↔ x ≠ h ∧ b.held x = some q := by
  show Function.update b.held h none x = some q ↔ _
  by_cases hx : x = h
  · rw [hx, Function.update_self]
    constructor
    · intro hq
      cases hq
    · rintro ⟨hne, -⟩
      exact absurd rfl hne
  · rw [Function.update_of_ne hx]
    exact ⟨fun hq => ⟨hx, hq⟩, And.right⟩

/-- What exists after a dropping. -/
theorem exists_drop (h : H) (q : P) :
    (drop keyOf h b).exists_ q = true ↔
      b.held h ≠ some q ∧ b.exists_ q = true := by
  show (if b.held h = some q then false else b.exists_ q) = true ↔ _
  by_cases hq : b.held h = some q
  · rw [if_pos hq]
    constructor
    · intro hexists
      cases hexists
    · rintro ⟨hne, -⟩
      exact absurd hq hne
  · rw [if_neg hq]
    exact ⟨fun hexists => ⟨hq, hexists⟩, And.right⟩

/-- Acquiring a resource that does not exist yet, under a key that is free. -/
theorem Balanced.take (hb : Balanced keyOf b) {h : H} {p : P}
    (hnew : b.exists_ p = false) (hnone : b.held h = none)
    (hfree : ∀ k, keyOf h = some k → b.index k = none) :
    Balanced keyOf (take keyOf h p b) := by
  have hother : ∀ x q, b.held x = some q → q ≠ p := by
    intro x q hx heq
    have hexists := hb.onDisk x q hx
    rw [heq, hnew] at hexists
    exact nomatch hexists
  refine ⟨?_, ?_, ?_, ?_⟩
  · intro x q hx
    rcases (held_take hnone x q).mp hx with ⟨-, rfl⟩ | hx
    · exact Function.update_self ..
    · exact (Function.update_of_ne (hother x q hx) ..).trans (hb.onDisk x q hx)
  · intro q hq
    by_cases heq : q = p
    · exact ⟨h, (held_take hnone h q).mpr (Or.inl ⟨rfl, heq⟩)⟩
    · obtain ⟨x, hx⟩ :=
        hb.owned q ((Function.update_of_ne heq ..).symm.trans hq)
      exact ⟨x, (held_take hnone x q).mpr (Or.inr hx)⟩
  · intro x y q hx hy
    rcases (held_take hnone x q).mp hx with ⟨rfl, rfl⟩ | hold
    · rcases (held_take hnone y q).mp hy with ⟨rfl, -⟩ | hold
      · rfl
      · exact absurd rfl (hother y q hold)
    · rcases (held_take hnone y q).mp hy with ⟨-, rfl⟩ | hold'
      · exact absurd rfl (hother x q hold)
      · exact hb.unique x y q hold hold'
  · intro k q
    show (if keyOf h = some k then some p else b.index k) = some q ↔ _
    by_cases hk : keyOf h = some k
    · rw [if_pos hk, Option.some_inj]
      constructor
      · exact fun hq =>
          ⟨h, hk, (held_take hnone h q).mpr (Or.inl ⟨rfl, hq.symm⟩)⟩
      · rintro ⟨x, hxk, hx⟩
        rcases (held_take hnone x q).mp hx with ⟨-, rfl⟩ | hx
        · rfl
        · have hindex := (hb.indexed k q).mpr ⟨x, hxk, hx⟩
          rw [hfree k hk] at hindex
          exact nomatch hindex
    · rw [if_neg hk, hb.indexed]
      refine exists_congr (fun x => and_congr_right (fun hxk => ?_))
      rw [held_take hnone x q]
      refine ⟨Or.inr, fun hq => hq.elim (fun hq => ?_) id⟩
      exact absurd (hq.1 ▸ hxk) hk

omit [DecidableEq H] [DecidableEq P] in
/-- Once the holder of a key holds nothing any more, the index of that key is
    empty, and all others are as they were. -/
theorem Balanced.indexed_without (hb : Balanced keyOf b) {h : H} {p : P}
    (hp : b.held h = some p) (k : K) (q : P) :
    (if keyOf h = some k then none else b.index k) = some q ↔
      ∃ x, keyOf x = some k ∧ x ≠ h ∧ b.held x = some q := by
  by_cases hk : keyOf h = some k
  · rw [if_pos hk]
    refine ⟨nofun, ?_⟩
    rintro ⟨x, hxk, hne, hx⟩
    exact absurd (hb.eq_of_key hxk hk hx hp) hne
  · rw [if_neg hk, hb.indexed]
    refine exists_congr (fun x => and_congr_right (fun hxk => ?_))
    exact ⟨fun hx => ⟨fun heq => hk (heq ▸ hxk), hx⟩, And.right⟩

/-- Dropping a resource. -/
theorem Balanced.drop (hb : Balanced keyOf b) {h : H} {p : P}
    (hp : b.held h = some p) : Balanced keyOf (drop keyOf h b) := by
  refine ⟨?_, ?_, ?_, ?_⟩
  · intro x q hx
    obtain ⟨hne, hx⟩ := (held_drop h x q).mp hx
    exact (exists_drop h q).mpr
      ⟨fun hq => hne (hb.unique x h q hx hq), hb.onDisk x q hx⟩
  · intro q hq
    obtain ⟨hne, hq⟩ := (exists_drop h q).mp hq
    obtain ⟨x, hx⟩ := hb.owned q hq
    exact ⟨x, (held_drop h x q).mpr ⟨fun heq => hne (heq ▸ hx), hx⟩⟩
  · intro x y q hx hy
    exact hb.unique x y q ((held_drop h x q).mp hx).2
      ((held_drop h y q).mp hy).2
  · intro k q
    refine (hb.indexed_without hp k q).trans
      (exists_congr (fun x => and_congr_right (fun _ => ?_)))
    exact (held_drop h x q).symm

omit [DecidableEq P] in
/-- Handing a resource over to a holder that holds nothing and has no key. -/
theorem Balanced.hand (hb : Balanced keyOf b) {h h' : H} {p : P}
    (hp : b.held h = some p) (hnone : b.held h' = none)
    (hkey : keyOf h' = none) : Balanced keyOf (hand keyOf h h' b) := by
  refine ⟨?_, ?_, ?_, ?_⟩
  · intro x q hx
    rcases (held_hand hp hnone x q).mp hx with ⟨-, rfl⟩ | ⟨-, hx⟩
    · exact hb.onDisk h q hp
    · exact hb.onDisk x q hx
  · intro q hq
    obtain ⟨x, hx⟩ := hb.owned q hq
    by_cases heq : x = h
    · rw [heq, hp] at hx
      exact ⟨h', (held_hand hp hnone h' q).mpr
        (Or.inl ⟨rfl, (Option.some.inj hx).symm⟩)⟩
    · exact ⟨x, (held_hand hp hnone x q).mpr (Or.inr ⟨heq, hx⟩)⟩
  · intro x y q hx hy
    rcases (held_hand hp hnone x q).mp hx with ⟨rfl, rfl⟩ | ⟨hne, hold⟩
    · rcases (held_hand hp hnone y q).mp hy with ⟨rfl, -⟩ | ⟨hne, hold⟩
      · rfl
      · exact absurd (hb.unique y h q hold hp) hne
    · rcases (held_hand hp hnone y q).mp hy with ⟨rfl, rfl⟩ | ⟨-, hold'⟩
      · exact absurd (hb.unique x h q hold hp) hne
      · exact hb.unique x y q hold hold'
  · intro k q
    refine (hb.indexed_without hp k q).trans
      (exists_congr (fun x => and_congr_right (fun hxk => ?_)))
    rw [held_hand hp hnone x q]
    refine ⟨Or.inr, fun hq => hq.elim (fun hq => ?_) id⟩
    -- the new holder has no key
    rw [hq.1, hkey] at hxk
    exact nomatch hxk

end CvLedger
