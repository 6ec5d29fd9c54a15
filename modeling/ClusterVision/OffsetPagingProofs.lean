import Mathlib.Data.List.Basic

/-! # Pages by offset

    A list is shown in pages of a fixed size, by offset, and grows while its
    reader goes from page to page: items come in at any place, and those that
    are there keep their order.  So an item moves towards later pages only, and
    a reader who looks at the pages in their order, and never turns to a new
    one before the last new one has been shown, passes over no item.
    `Reached` is what carries that through a walk. -/

namespace CvOffset

variable {α : Type}

/-- The page with the number `k`. -/
def page (size k : Nat) (xs : List α) : List α := (xs.drop (k * size)).take size

/-- After `k` pages: an item has been seen, or it stands behind them. -/
def Reached (size k : Nat) (xs : List α) (seen : α → Prop) (x : α) : Prop :=
  seen x ∨ ∃ before after, xs = before ++ x :: after ∧ k * size ≤ before.length

variable {size k : Nat} {xs ys : List α} {seen seen' : α → Prop} {x : α}

/-- Before the first page. -/
theorem reached_zero (seen : α → Prop) (hx : x ∈ xs) :
    Reached size 0 xs seen x := by
  obtain ⟨before, after, h⟩ := List.append_of_mem hx
  refine Or.inr ⟨before, after, h, ?_⟩
  rw [Nat.zero_mul]
  exact Nat.zero_le _

theorem Reached.mono (hseen : ∀ x, seen x → seen' x)
    (h : Reached size k xs seen x) : Reached size k xs seen' x :=
  h.imp_left (hseen x)

/-- The list grows: what stands before an item stays before it. -/
theorem Reached.grow (hgrow : xs.Sublist ys) (h : Reached size k xs seen x) :
    Reached size k ys seen x := by
  rcases h with hseen | ⟨before, after, hxs, hlow⟩
  · exact Or.inl hseen
  · rw [hxs, List.append_sublist_iff] at hgrow
    obtain ⟨ys₁, ys₂, hys, hbefore, hrest⟩ := hgrow
    rw [List.cons_sublist_iff] at hrest
    obtain ⟨front, back, hys₂, hmem, -⟩ := hrest
    obtain ⟨s, t, hfront⟩ := List.append_of_mem hmem
    refine Or.inr ⟨ys₁ ++ s, t ++ back, ?_, ?_⟩
    · rw [hys, hys₂, hfront]
      simp only [List.append_assoc, List.cons_append]
    · rw [List.length_append]
      exact Nat.le_trans hlow
        (Nat.le_trans hbefore.length_le (Nat.le_add_right _ _))

/-- The item with `before` in front of it is on the page that its position
    falls on. -/
theorem mem_page {before after : List α}
    (hlow : k * size ≤ before.length) (hhigh : before.length < (k + 1) * size) :
    x ∈ page size k (before ++ x :: after) := by
  rw [Nat.succ_mul] at hhigh
  rw [page, List.drop_append_of_le_length hlow, List.take_append,
    List.length_drop]
  refine List.mem_append.mpr (Or.inr ?_)
  have hleft : size - (before.length - k * size) ≠ 0 := by omega
  obtain ⟨n, hn⟩ := Nat.exists_eq_succ_of_ne_zero hleft
  rw [hn, List.take_succ_cons]
  exact List.mem_cons_self

/-- The next page is shown. -/
theorem Reached.page (hpage : ∀ y ∈ page size k xs, seen' y)
    (hseen : ∀ y, seen y → seen' y) (h : Reached size k xs seen x) :
    Reached size (k + 1) xs seen' x := by
  rcases h with hx | ⟨before, after, hxs, hlow⟩
  · exact Or.inl (hseen x hx)
  · by_cases hhigh : before.length < (k + 1) * size
    · rw [hxs] at hpage
      exact Or.inl (hpage x (mem_page hlow hhigh))
    · exact Or.inr ⟨before, after, hxs, Nat.le_of_not_lt hhigh⟩

/-- At the end of the list everything has been seen. -/
theorem Reached.all (hend : xs.length ≤ k * size)
    (h : Reached size k xs seen x) : seen x := by
  rcases h with hx | ⟨before, after, hxs, hlow⟩
  · exact hx
  · rw [hxs, List.length_append, List.length_cons] at hend
    omega

end CvOffset
