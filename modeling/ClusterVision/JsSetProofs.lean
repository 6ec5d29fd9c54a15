import Mathlib.Data.List.Nodup

/-! # Sets of JavaScript

    A `Set` keeps its elements in the order in which they were added, each one
    once.  Handlers never change one that a component holds: they fill a new
    one from the old one, and add to it or delete from it. -/

namespace CvJs

variable {α : Type}

/-- A set: its elements, the oldest one first. -/
structure JsSet (α : Type) where
  items : List α
  nodup : items.Nodup

namespace JsSet

instance : Membership α (JsSet α) := ⟨fun s x => x ∈ s.items⟩

theorem mem_items {s : JsSet α} {x : α} : x ∈ s.items ↔ x ∈ s := Iff.rfl

/-- `new Set()`. -/
def empty : JsSet α := ⟨[], List.nodup_nil⟩

@[simp] theorem not_mem_empty (x : α) : x ∉ (empty : JsSet α) :=
  List.not_mem_nil

variable [DecidableEq α]

instance (x : α) (s : JsSet α) : Decidable (x ∈ s) :=
  inferInstanceAs (Decidable (x ∈ s.items))

/-- `s.add(x)`. -/
def add (x : α) (s : JsSet α) : JsSet α :=
  if h : x ∈ s.items then s
  else ⟨s.items ++ [x], List.nodup_append.mpr ⟨s.nodup,
    List.nodup_singleton x, fun _ hy _ hx heq =>
      h (List.mem_singleton.mp hx ▸ heq ▸ hy)⟩⟩

/-- `s.delete(x)`. -/
def delete (x : α) (s : JsSet α) : JsSet α :=
  ⟨s.items.filter (· ≠ x), s.nodup.filter _⟩

/-- `new Set(xs)`. -/
def ofList (xs : List α) : JsSet α := xs.foldl (fun s x => s.add x) empty

@[simp] theorem mem_add {x y : α} {s : JsSet α} :
    y ∈ s.add x ↔ y ∈ s ∨ y = x := by
  rw [add]
  split
  · rename_i hx
    exact ⟨Or.inl, fun h => h.elim id (fun heq => heq ▸ hx)⟩
  · show y ∈ s.items ++ [x] ↔ _
    rw [List.mem_append, List.mem_singleton]
    exact Iff.rfl

@[simp] theorem mem_delete {x y : α} {s : JsSet α} :
    y ∈ s.delete x ↔ y ∈ s ∧ y ≠ x := by
  show y ∈ s.items.filter (· ≠ x) ↔ _
  rw [List.mem_filter, decide_eq_true_iff]
  exact Iff.rfl

/-- What a set filled from another one holds. -/
theorem mem_foldl_add {xs : List α} {s : JsSet α} {y : α} :
    y ∈ xs.foldl (fun s x => s.add x) s ↔ y ∈ s ∨ y ∈ xs := by
  induction xs generalizing s with
  | nil => simp
  | cons x xs ih =>
      rw [List.foldl_cons, ih, mem_add, List.mem_cons, or_assoc]

@[simp] theorem mem_ofList {xs : List α} {y : α} :
    y ∈ ofList xs ↔ y ∈ xs := by
  rw [ofList, mem_foldl_add]
  constructor
  · rintro (hempty | hxs)
    · exact absurd hempty (not_mem_empty y)
    · exact hxs
  · exact Or.inr

end JsSet

end CvJs
