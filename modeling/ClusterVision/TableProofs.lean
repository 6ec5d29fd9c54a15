import Mathlib.Data.List.Nodup
import Mathlib.Data.List.Basic

/-! # Keyed tables

    A table is a list of rows no two of which have the same key; the proof
    travels with the list, so a table with a duplicate key cannot be built.
    Reading, writing and deleting by key are the three operations, and each
    one says what it does to every key: the written one, and all others. -/

namespace CvTable

variable {α κ : Type} [DecidableEq κ]

/-- Replace the row with the key of `r` by `r`, or append `r`. -/
def putRow (key : α → κ) (r : α) : List α → List α
  | [] => [r]
  | x :: xs => if key x = key r then r :: xs else x :: putRow key r xs

/-- Writing a row with a new key appends it. -/
theorem putRow_of_new (key : α → κ) (r : α) :
    ∀ rows : List α, (∀ x ∈ rows, key x ≠ key r) →
      putRow key r rows = rows ++ [r] := by
  intro rows
  induction rows with
  | nil => exact fun _ => rfl
  | cons y ys ih =>
      intro h
      rw [putRow, if_neg (h y (List.mem_cons_self ..)),
        ih (fun x hx => h x (List.mem_cons_of_mem y hx))]
      rfl

/-- After a write, membership by cases. -/
theorem mem_putRow (key : α → κ) {r x : α} :
    ∀ {rows : List α}, (rows.map key).Nodup →
      (x ∈ putRow key r rows ↔ x = r ∨ (x ∈ rows ∧ key x ≠ key r)) := by
  intro rows
  induction rows with
  | nil => intro _; simp [putRow]
  | cons y ys ih =>
      intro hn
      rw [List.map_cons, List.nodup_cons] at hn
      by_cases hy : key y = key r
      · have hys : ∀ z ∈ ys, key z ≠ key r := by
          intro z hz hzr
          exact hn.1 (List.mem_map.mpr ⟨z, hz, hzr.trans hy.symm⟩)
        rw [putRow, if_pos hy, List.mem_cons]
        constructor
        · rintro (hx | hx)
          · exact Or.inl hx
          · exact Or.inr ⟨List.mem_cons_of_mem _ hx, hys x hx⟩
        · rintro (hx | ⟨hx, hne⟩)
          · exact Or.inl hx
          · rcases List.mem_cons.mp hx with heq | hmem
            · exact absurd (heq ▸ hy) hne
            · exact Or.inr hmem
      · rw [putRow, if_neg hy, List.mem_cons, ih hn.2]
        constructor
        · rintro (hx | hx | ⟨hx, hne⟩)
          · exact Or.inr ⟨List.mem_cons.mpr (Or.inl hx), hx ▸ hy⟩
          · exact Or.inl hx
          · exact Or.inr ⟨List.mem_cons_of_mem _ hx, hne⟩
        · rintro (hx | ⟨hx, hne⟩)
          · exact Or.inr (Or.inl hx)
          · rcases List.mem_cons.mp hx with heq | hmem
            · exact Or.inl heq
            · exact Or.inr (Or.inr ⟨hmem, hne⟩)

/-- The keys after a write. -/
theorem mem_map_putRow (key : α → κ) (r : α) (k : κ) :
    ∀ rows : List α,
      k ∈ (putRow key r rows).map key → k = key r ∨ k ∈ rows.map key := by
  intro rows
  induction rows with
  | nil => intro h; exact Or.inl (by simpa [putRow] using h)
  | cons y ys ih =>
      intro h
      by_cases hy : key y = key r
      · rw [putRow, if_pos hy, List.map_cons, List.mem_cons] at h
        rcases h with h | h
        · exact Or.inl h
        · exact Or.inr (List.mem_cons_of_mem _ h)
      · rw [putRow, if_neg hy, List.map_cons, List.mem_cons] at h
        rcases h with h | h
        · exact Or.inr (h ▸ List.mem_cons_self)
        · rcases ih h with h | h
          · exact Or.inl h
          · exact Or.inr (List.mem_cons_of_mem _ h)

/-- A write keeps the keys distinct. -/
theorem nodup_putRow (key : α → κ) (r : α) :
    ∀ rows : List α, (rows.map key).Nodup →
      ((putRow key r rows).map key).Nodup := by
  intro rows
  induction rows with
  | nil => intro _; exact List.nodup_singleton _
  | cons y ys ih =>
      intro hn
      rw [List.map_cons, List.nodup_cons] at hn
      by_cases hy : key y = key r
      · rw [putRow, if_pos hy, List.map_cons, List.nodup_cons]
        exact ⟨hy ▸ hn.1, hn.2⟩
      · rw [putRow, if_neg hy, List.map_cons, List.nodup_cons]
        refine ⟨?_, ih hn.2⟩
        intro hmem
        rcases mem_map_putRow key r (key y) ys hmem with h | h
        · exact hy h
        · exact hn.1 h

omit [DecidableEq κ] in
/-- Filtering keeps the keys distinct. -/
theorem nodup_filter (key : α → κ) (p : α → Bool) (rows : List α)
    (h : (rows.map key).Nodup) : ((rows.filter p).map key).Nodup :=
  h.sublist (List.Sublist.map key List.filter_sublist)

/-- A list of rows with pairwise distinct keys. -/
structure Table (α : Type) {κ : Type} (key : α → κ) where
  rows : List α
  nodup : (rows.map key).Nodup

namespace Table

variable {key : α → κ}

omit [DecidableEq κ] in
/-- A table is its list of rows. -/
theorem ext_rows {t t' : Table α key} (h : t.rows = t'.rows) : t = t' := by
  cases t
  cases t'
  cases h
  rfl

omit [DecidableEq κ] in
/-- Two rows of a table with the same key are the same row. -/
theorem eq_of_key {t : Table α key} {r r' : α} (hr : r ∈ t.rows)
    (hr' : r' ∈ t.rows) (hk : key r = key r') : r = r' :=
  List.inj_on_of_nodup_map t.nodup hr hr' hk

/-- The empty table. -/
def empty : Table α key := ⟨[], List.nodup_nil⟩

/-- The row with a key. -/
def get (t : Table α key) (k : κ) : Option α :=
  t.rows.find? (fun r => decide (key r = k))

/-- Write a row under its own key. -/
def put (t : Table α key) (r : α) : Table α key :=
  ⟨putRow key r t.rows, nodup_putRow key r t.rows t.nodup⟩

/-- Keep the rows that satisfy `p`. -/
def keep (t : Table α key) (p : α → Bool) : Table α key :=
  ⟨t.rows.filter p, nodup_filter key p t.rows t.nodup⟩

/-- Delete the row with a key. -/
def erase (t : Table α key) (k : κ) : Table α key :=
  t.keep (fun r => decide (key r ≠ k))

omit [DecidableEq κ] in
@[simp] theorem rows_empty : (empty : Table α key).rows = [] := rfl

@[simp] theorem get_empty (k : κ) : (empty : Table α key).get k = none := rfl

/-- Reading a key finds exactly the row with that key. -/
theorem get_eq_some_iff {t : Table α key} {k : κ} {r : α} :
    t.get k = some r ↔ r ∈ t.rows ∧ key r = k := by
  constructor
  · intro h
    exact ⟨List.mem_of_find?_eq_some h, by simpa using List.find?_some h⟩
  · rintro ⟨hr, hk⟩
    cases hg : t.get k with
    | none =>
        have := List.find?_eq_none.mp hg r hr
        exact absurd hk (by simpa using this)
    | some r' =>
        have hr' : r' ∈ t.rows ∧ key r' = k :=
          ⟨List.mem_of_find?_eq_some hg, by simpa using List.find?_some hg⟩
        rw [eq_of_key hr'.1 hr (hr'.2.trans hk.symm)]

theorem get_eq_none_iff {t : Table α key} {k : κ} :
    t.get k = none ↔ ∀ r ∈ t.rows, key r ≠ k := by
  simp [get, List.find?_eq_none]

theorem mem_of_get {t : Table α key} {k : κ} {r : α} (h : t.get k = some r) :
    r ∈ t.rows := (get_eq_some_iff.mp h).1

theorem key_of_get {t : Table α key} {k : κ} {r : α} (h : t.get k = some r) :
    key r = k := (get_eq_some_iff.mp h).2

theorem get_of_mem {t : Table α key} {r : α} (h : r ∈ t.rows) :
    t.get (key r) = some r := get_eq_some_iff.mpr ⟨h, rfl⟩

theorem mem_put {t : Table α key} {r x : α} :
    x ∈ (t.put r).rows ↔ x = r ∨ (x ∈ t.rows ∧ key x ≠ key r) :=
  mem_putRow key t.nodup

omit [DecidableEq κ] in
theorem mem_keep {t : Table α key} {p : α → Bool} {x : α} :
    x ∈ (t.keep p).rows ↔ x ∈ t.rows ∧ p x = true := List.mem_filter

theorem mem_erase {t : Table α key} {k : κ} {x : α} :
    x ∈ (t.erase k).rows ↔ x ∈ t.rows ∧ key x ≠ k := by
  simp [erase, mem_keep]

/-- A write is read back under its key. -/
@[simp] theorem get_put_self (t : Table α key) (r : α) :
    (t.put r).get (key r) = some r :=
  get_of_mem (mem_put.mpr (Or.inl rfl))

/-- A write leaves every other key alone. -/
theorem get_put_ne (t : Table α key) {r : α} {k : κ} (h : k ≠ key r) :
    (t.put r).get k = t.get k := by
  cases hg : t.get k with
  | none =>
      rw [get_eq_none_iff] at hg ⊢
      intro x hx
      rcases mem_put.mp hx with hxr | ⟨hxt, -⟩
      · exact hxr ▸ Ne.symm h
      · exact hg x hxt
  | some x =>
      obtain ⟨hx, hk⟩ := get_eq_some_iff.mp hg
      exact get_eq_some_iff.mpr
        ⟨mem_put.mpr (Or.inr ⟨hx, by rw [hk]; exact h⟩), hk⟩

theorem get_put (t : Table α key) (r : α) (k : κ) :
    (t.put r).get k = if k = key r then some r else t.get k := by
  by_cases h : k = key r
  · rw [if_pos h, h, get_put_self]
  · rw [if_neg h, get_put_ne t h]

/-- A deleted key is gone. -/
@[simp] theorem get_erase_self (t : Table α key) (k : κ) :
    (t.erase k).get k = none :=
  get_eq_none_iff.mpr (fun _ hx => (mem_erase.mp hx).2)

/-- A deletion leaves every other key alone. -/
theorem get_erase_ne (t : Table α key) {k k' : κ} (h : k' ≠ k) :
    (t.erase k).get k' = t.get k' := by
  cases hg : t.get k' with
  | none =>
      rw [get_eq_none_iff] at hg ⊢
      intro x hx
      exact hg x (mem_erase.mp hx).1
  | some x =>
      obtain ⟨hx, hk⟩ := get_eq_some_iff.mp hg
      exact get_eq_some_iff.mpr
        ⟨mem_erase.mpr ⟨hx, by rw [hk]; exact h⟩, hk⟩

theorem get_erase (t : Table α key) (k k' : κ) :
    (t.erase k).get k' = if k' = k then none else t.get k' := by
  by_cases h : k' = k
  · rw [if_pos h, h, get_erase_self]
  · rw [if_neg h, get_erase_ne t h]

/-- Deleting an absent key changes nothing. -/
theorem erase_of_get_none {t : Table α key} {k : κ} (h : t.get k = none) :
    t.erase k = t := by
  refine ext_rows (List.filter_eq_self.mpr ?_)
  intro r hr
  simpa using get_eq_none_iff.mp h r hr

/-- Reading after a filter. -/
theorem get_keep {t : Table α key} {p : α → Bool} {k : κ} {r : α} :
    (t.keep p).get k = some r ↔ t.get k = some r ∧ p r = true := by
  rw [get_eq_some_iff, get_eq_some_iff, mem_keep]
  constructor
  · rintro ⟨⟨hr, hp⟩, hk⟩
    exact ⟨⟨hr, hk⟩, hp⟩
  · rintro ⟨⟨hr, hk⟩, hp⟩
    exact ⟨⟨hr, hp⟩, hk⟩

/-- Reading after a filter, as an equation. -/
theorem get_keep_eq (t : Table α key) (p : α → Bool) (k : κ) :
    (t.keep p).get k = (t.get k).filter p := by
  ext r
  rw [get_keep, Option.filter_eq_some_iff]

/-- Writing rows whose keys are new, one after the other, appends them. -/
theorem rows_foldl_put (xs : List α) :
    ∀ {t : Table α key}, ((t.rows ++ xs).map key).Nodup →
      (xs.foldl put t).rows = t.rows ++ xs := by
  induction xs with
  | nil => exact fun _ => (List.append_nil _).symm
  | cons x xs ih =>
      intro t h
      have hx : (t.put x).rows = t.rows ++ [x] := by
        refine putRow_of_new key x t.rows ?_
        rw [List.map_append, List.nodup_append] at h
        intro y hy heq
        exact h.2.2 (key y) (List.mem_map.mpr ⟨y, hy, rfl⟩) (key x)
          (List.mem_map.mpr ⟨x, List.mem_cons_self .., rfl⟩) heq
      rw [List.foldl_cons, ih (by rw [hx, List.append_assoc]; exact h), hx,
        List.append_assoc]
      rfl

/-- Writing the rows of a table into an empty one. -/
theorem foldl_put_rows (t : Table α key) : t.rows.foldl put empty = t :=
  ext_rows (rows_foldl_put t.rows t.nodup)

/-- A key of a table has a row. -/
theorem mem_keys_iff {t : Table α key} {k : κ} :
    k ∈ t.rows.map key ↔ t.get k ≠ none := by
  constructor
  · intro hk
    obtain ⟨r, hr, rfl⟩ := List.mem_map.mp hk
    rw [get_of_mem hr]
    exact Option.some_ne_none r
  · intro hk
    obtain ⟨r, hr⟩ := Option.ne_none_iff_exists'.mp hk
    exact List.mem_map.mpr ⟨r, mem_of_get hr, key_of_get hr⟩

omit [DecidableEq κ] in
/-- Two filters, one after the other. -/
theorem keep_keep (t : Table α key) (p q : α → Bool) :
    (t.keep p).keep q = t.keep (fun r => p r && q r) := by
  refine ext_rows ?_
  show (t.rows.filter p).filter q = t.rows.filter _
  rw [List.filter_filter]
  exact List.filter_congr (fun r _ => Bool.and_comm _ _)

omit [DecidableEq κ] in
/-- Filters that agree on the rows of a table. -/
theorem keep_congr {t : Table α key} {p q : α → Bool}
    (h : ∀ r, r ∈ t.rows → p r = q r) : t.keep p = t.keep q :=
  ext_rows (List.filter_congr h)

omit [DecidableEq κ] in
theorem keep_true {t : Table α key} {p : α → Bool}
    (h : ∀ r, r ∈ t.rows → p r = true) : t.keep p = t :=
  ext_rows (List.filter_eq_self.mpr h)

end Table

end CvTable
