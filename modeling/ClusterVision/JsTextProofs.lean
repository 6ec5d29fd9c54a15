import Mathlib.Data.List.Infix

/-! # Texts of JavaScript

    The two functions on texts that the browser code leans on: `trim`, and
    `split` at a separator, which looks for the separator from the left and
    goes on behind each one that it finds.  The first piece of a text is the
    whole text exactly when the separator does not occur in it. -/

namespace CvJs

/-- White space and line terminators. -/
def isSpace (c : Char) : Bool :=
  [0x9, 0xA, 0xB, 0xC, 0xD, 0x20, 0xA0, 0x1680, 0x2028, 0x2029, 0x202F, 0x205F,
    0x3000, 0xFEFF].contains c.toNat
    || decide (0x2000 ≤ c.toNat ∧ c.toNat ≤ 0x200A)

/-- `text.trim()`. -/
def trim (text : String) : String :=
  String.ofList
    ((text.toList.dropWhile isSpace).reverse.dropWhile isSpace).reverse

variable {α : Type} [BEq α]

/-- Put an item in front of the first piece. -/
def prependTo (x : α) : List (List α) → List (List α)
  | [] => [[x]]
  | piece :: pieces => (x :: piece) :: pieces

/-- The pieces of a list between the separators, once the first `skip` items
    are passed over: they belong to a separator that was found. -/
def splitFrom (sep : List α) : Nat → List α → List (List α)
  | _, [] => [[]]
  | skip + 1, _ :: xs => splitFrom sep skip xs
  | 0, x :: xs =>
      if sep.isPrefixOf (x :: xs) then
        [] :: splitFrom sep (sep.length - 1) xs
      else prependTo x (splitFrom sep 0 xs)

/-- The pieces of a list between the separators. -/
def splitSeq (sep xs : List α) : List (List α) := splitFrom sep 0 xs

/-- `text.split(sep)`, for a separator that is not empty. -/
def split (text sep : String) : List String :=
  (splitSeq sep.toList text.toList).map String.ofList

/-- There is a first piece. -/
theorem splitFrom_ne_nil (sep : List α) :
    ∀ (skip : Nat) (xs : List α), splitFrom sep skip xs ≠ [] := by
  intro skip xs
  induction xs generalizing skip with
  | nil =>
      cases skip with
      | zero => exact List.cons_ne_nil _ _
      | succ n => exact List.cons_ne_nil _ _
  | cons x xs ih =>
      cases skip with
      | succ n => exact ih n
      | zero =>
          rw [splitFrom]
          split
          · exact List.cons_ne_nil _ _
          · cases splitFrom sep 0 xs with
            | nil => exact List.cons_ne_nil _ _
            | cons piece pieces => exact List.cons_ne_nil _ _

/-- The rest of a separator is passed over. -/
theorem splitFrom_skip (sep : List α) (rest : List α) :
    ∀ front : List α,
      splitFrom sep front.length (front ++ rest) = splitFrom sep 0 rest := by
  intro front
  induction front with
  | nil => rfl
  | cons x front ih => exact ih

variable [LawfulBEq α]

/-- What stands before the first separator, if none begins in it, is the first
    piece. -/
theorem splitSeq_append {a : α} (sep rest : List α) :
    ∀ front : List α, (∀ c ∈ front, c ≠ a) →
      splitSeq (a :: sep) (front ++ a :: (sep ++ rest))
        = front :: splitSeq (a :: sep) rest := by
  intro front
  induction front with
  | nil =>
      intro _
      have hprefix : (a :: sep).isPrefixOf (a :: (sep ++ rest)) = true :=
        List.isPrefixOf_iff_prefix.mpr ⟨rest, rfl⟩
      rw [List.nil_append, splitSeq, splitFrom, if_pos hprefix]
      exact congrArg ([] :: ·) (splitFrom_skip _ rest sep)
  | cons x front ih =>
      intro h
      have hx : x ≠ a := h x (List.mem_cons_self ..)
      have hno : ¬ (a :: sep).isPrefixOf (x :: (front ++ a :: (sep ++ rest)))
          = true := by
        rw [List.isPrefixOf_iff_prefix, List.cons_prefix_cons]
        exact fun h => hx h.1.symm
      have hrest := ih (fun c hc => h c (List.mem_cons_of_mem x hc))
      rw [splitSeq] at hrest
      rw [List.cons_append, splitSeq, splitFrom, if_neg hno, hrest, prependTo]

/-- The first piece is the whole list exactly when the separator does not occur
    in the list. -/
theorem head?_splitSeq_eq_iff {sep : List α} (hsep : sep ≠ []) :
    ∀ xs : List α, (splitSeq sep xs).head? = some xs ↔ ¬ sep <:+: xs := by
  intro xs
  induction xs with
  | nil => exact iff_of_true rfl (fun h => hsep (List.infix_nil.mp h))
  | cons x xs ih =>
      rw [splitSeq, splitFrom, List.infix_cons_iff]
      by_cases hprefix : sep.isPrefixOf (x :: xs) = true
      · rw [if_pos hprefix]
        exact iff_of_false nofun
          (fun h => h (Or.inl (List.isPrefixOf_iff_prefix.mp hprefix)))
      · have hno : ¬ sep <+: x :: xs :=
          fun h => hprefix (List.isPrefixOf_iff_prefix.mpr h)
        rw [if_neg hprefix, or_iff_right hno, ← ih, splitSeq]
        cases hpieces : splitFrom sep 0 xs with
        | nil => exact absurd hpieces (splitFrom_ne_nil sep 0 xs)
        | cons piece pieces =>
            rw [prependTo, List.head?_cons, List.head?_cons, Option.some_inj,
              Option.some_inj, List.cons_inj_right]

end CvJs
