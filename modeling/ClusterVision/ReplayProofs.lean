import ClusterVision.TableProofs

/-! # Updates that replay a snapshot

    An update of a table reads all its rows, decides on new entries from what
    it saw, looks each new entry's key up again, and writes: a row for an entry
    whose key it does not find, a new row for an entry that differs from what it
    saw, and nothing for an entry it saw just so.  Rows whose entries it does
    not keep are deleted.

    An update means to write only some keys, its own.  If it finds a row for
    every other key that it saw, it writes its own keys only, and what it
    leaves there depends on nothing else. -/

namespace CvReplay

open CvTable

variable {α κ E : Type} [DecidableEq κ] {key : α → κ}

/-! ## Statements -/

/-- A statement on one table. -/
inductive Stmt (α κ : Type) where
  | insert (r : α)
  | update (r : α)
  | delete (k : κ)

/-- A statement; an insert fails on a key that is there, and an update on one
    that is not. -/
def Stmt.run (t : Table α key) : Stmt α κ → Option (Table α key)
  | .insert r => if (t.get (key r)).isSome then none else some (t.put r)
  | .update r => if (t.get (key r)).isSome then some (t.put r) else none
  | .delete k => some (t.erase k)

/-- The statements of a transaction, in order. -/
def runAll (t : Table α key) : List (Stmt α κ) → Option (Table α key)
  | [] => some t
  | s :: ss => (s.run t).bind (fun t' => runAll t' ss)

@[simp] theorem runAll_nil (t : Table α key) :
    runAll t ([] : List (Stmt α κ)) = some t := rfl

@[simp] theorem runAll_cons (t : Table α key) (s : Stmt α κ)
    (ss : List (Stmt α κ)) :
    runAll t (s :: ss) = (s.run t).bind (fun t' => runAll t' ss) := rfl

theorem runAll_append (xs ys : List (Stmt α κ)) :
    ∀ t : Table α key,
      runAll t (xs ++ ys) = (runAll t xs).bind (fun t' => runAll t' ys) := by
  induction xs with
  | nil => exact fun _ => rfl
  | cons x xs ih =>
      intro t
      rw [List.cons_append, runAll_cons, runAll_cons]
      cases x.run t with
      | none => rfl
      | some t' => exact ih t'

/-- Deleting some keys. -/
theorem runAll_deletes (ks : List κ) :
    ∀ t : Table α key, ∃ t', runAll t (ks.map Stmt.delete) = some t' ∧
      ∀ k, t'.get k = if k ∈ ks then none else t.get k := by
  induction ks with
  | nil => exact fun t => ⟨t, rfl, fun k => rfl⟩
  | cons x xs ih =>
      intro t
      obtain ⟨t', ht', hget⟩ := ih (t.erase x)
      refine ⟨t', ht', ?_⟩
      intro k
      rw [hget, Table.get_erase]
      by_cases hk : k = x
      · rw [if_pos hk, if_pos (List.mem_cons.mpr (Or.inl hk)), ite_self]
      · rw [if_neg hk]
        simp only [List.mem_cons, hk, false_or]

/-! ## Replaying -/

section Replay

variable (ekey : E → κ) (rowOf : E → α → Prop) (before : κ → Option E)
  (found : κ → Bool → Prop)

/-- The statements that an update makes of its new entries, when it saw
    `before`, and `found` says how it found their keys again. -/
inductive Replay : List E → List (Stmt α κ) → Prop where
  | nil : Replay [] []
  | insert {e : E} {r : α} {es : List E} {ss : List (Stmt α κ)}
      (absent : found (ekey e) false) (row : rowOf e r)
      (rest : Replay es ss) : Replay (e :: es) (.insert r :: ss)
  | update {e : E} {r : α} {es : List E} {ss : List (Stmt α κ)}
      (present : found (ekey e) true) (changed : before (ekey e) ≠ some e)
      (row : rowOf e r) (rest : Replay es ss) :
      Replay (e :: es) (.update r :: ss)
  | same {e : E} {es : List E} {ss : List (Stmt α κ)}
      (present : found (ekey e) true)
      (unchanged : before (ekey e) = some e) (rest : Replay es ss) :
      Replay (e :: es) ss

variable {ekey rowOf before found} in
omit [DecidableEq κ] in
/-- The statements do not depend on what else was found. -/
theorem Replay.mono {found' : κ → Bool → Prop}
    (hfound : ∀ k b, found k b → found' k b) {es : List E}
    {ss : List (Stmt α κ)} (h : Replay ekey rowOf before found es ss) :
    Replay ekey rowOf before found' es ss := by
  induction h with
  | nil => exact .nil
  | insert absent row rest ih => exact .insert (hfound _ _ absent) row ih
  | update present changed row rest ih =>
      exact .update (hfound _ _ present) changed row ih
  | same present unchanged rest ih =>
      exact .same (hfound _ _ present) unchanged ih

variable {ekey rowOf before found} in
omit [DecidableEq κ] in
theorem Replay.append {es es' : List E} {ss ss' : List (Stmt α κ)}
    (h : Replay ekey rowOf before found es ss)
    (h' : Replay ekey rowOf before found es' ss') :
    Replay ekey rowOf before found (es ++ es') (ss ++ ss') := by
  induction h with
  | nil => exact h'
  | insert absent row rest ih => exact .insert absent row ih
  | update present changed row rest ih => exact .update present changed row ih
  | same present unchanged rest ih => exact .same present unchanged ih

/-- What a key holds after an update that meant the entry `e` for it: the row
    it had, when the update saw the entry just so, or else a row for it. -/
def Leaves (old : Option α) (e : Option E) (k : κ) (new : Option α) : Prop :=
  match e with
  | none => new = none
  | some e =>
      (before k = some e ∧ new = old) ∨
        (before k ≠ some e ∧ ∃ r, rowOf e r ∧ new = some r)

end Replay

variable {ekey : E → κ} {rowOf : E → α → Prop} {before : κ → Option E}
  {found : κ → Bool → Prop}

omit [DecidableEq κ] in
/-- Only what the update saw of the key itself matters. -/
theorem Leaves.congr {before' : κ → Option E} {k : κ} {old new : Option α}
    {e : Option E} (hk : before k = before' k)
    (h : Leaves rowOf before old e k new) :
    Leaves rowOf before' old e k new := by
  cases e with
  | none => exact h
  | some e =>
      rw [Leaves, ← hk]
      exact h

/-- The new entries of an update whose own keys are `own`: it found every other
    one as it saw it, and the table has what it found of its own. -/
structure Settled (ekey : E → κ) (before : κ → Option E) (found : κ → Bool → Prop)
    (own : κ → Prop) (es : List E) (t : Table α key) : Prop where
  nodup : (es.map ekey).Nodup
  foreignSeen : ∀ e ∈ es, ¬ own (ekey e) → before (ekey e) = some e
  ownFound : ∀ e ∈ es, own (ekey e) → ∀ b, found (ekey e) b →
    (t.get (ekey e)).isSome = b
  seenFound : ∀ e ∈ es, before (ekey e) = some e →
    ∀ b, found (ekey e) b → b = true

variable {own : κ → Prop}

/-- The entries after the first one. -/
theorem Settled.tail {e : E} {es : List E} {t : Table α key}
    (h : Settled ekey before found own (e :: es) t) :
    Settled ekey before found own es t where
  nodup := (List.nodup_cons.mp h.nodup).2
  foreignSeen e' he' := h.foreignSeen e' (List.mem_cons_of_mem _ he')
  ownFound e' he' := h.ownFound e' (List.mem_cons_of_mem _ he')
  seenFound e' he' := h.seenFound e' (List.mem_cons_of_mem _ he')

/-- An entry after the first one has another key. -/
theorem Settled.ne {e e' : E} {es : List E} {t : Table α key}
    (h : Settled ekey before found own (e :: es) t) (he' : e' ∈ es) :
    ekey e' ≠ ekey e := by
  intro heq
  exact (List.nodup_cons.mp h.nodup).1 (heq ▸ List.mem_map_of_mem he')

/-- Writing the row of the first entry leaves the others as they are. -/
theorem Settled.put {e : E} {es : List E} {t : Table α key} {r : α}
    (h : Settled ekey before found own (e :: es) t) (hr : key r = ekey e) :
    Settled ekey before found own es (t.put r) where
  nodup := h.tail.nodup
  foreignSeen := h.tail.foreignSeen
  ownFound := by
    intro e' he' hown
    rw [Table.get_put, hr, if_neg (h.ne he')]
    exact h.tail.ownFound e' he' hown
  seenFound := h.tail.seenFound

/-- What the statements for the entries `es` make of the table `t`. -/
structure Wrote (ekey : E → κ) (rowOf : E → α → Prop) (before : κ → Option E)
    (own : κ → Prop) (es : List E) (t t' : Table α key) : Prop where
  frame : ∀ k, (own k → k ∉ es.map ekey) → t'.get k = t.get k
  leaves : ∀ e ∈ es, own (ekey e) →
    Leaves rowOf before (t.get (ekey e)) (some e) (ekey e) (t'.get (ekey e))

/-- Writing the row of the first entry, and then the others. -/
theorem Wrote.put {e : E} {es : List E} {t t' : Table α key} {r : α}
    (hs : Settled ekey before found own (e :: es) t) (hrow : rowOf e r)
    (hr : key r = ekey e) (hown : own (ekey e))
    (hchanged : before (ekey e) ≠ some e)
    (h : Wrote ekey rowOf before own es (t.put r) t') :
    Wrote ekey rowOf before own (e :: es) t t' where
  frame := by
    intro k hk
    have hne : k ≠ ekey e := by
      rintro rfl
      exact hk hown (List.mem_cons_self ..)
    rw [h.frame k (fun ho hmem => hk ho (List.mem_cons_of_mem _ hmem)),
      Table.get_put, hr, if_neg hne]
  leaves := by
    intro e' he' hown'
    rcases List.mem_cons.mp he' with rfl | he'
    · refine Or.inr ⟨hchanged, r, hrow, ?_⟩
      rw [h.frame _ (fun _ => (List.nodup_cons.mp hs.nodup).1),
        Table.get_put, hr, if_pos rfl]
    · have hl := h.leaves e' he' hown'
      rw [Table.get_put, hr, if_neg (hs.ne he')] at hl
      exact hl

/-- An update that finds every key outside of `own` as it saw it succeeds, and
    writes the keys in `own` only. -/
theorem Replay.wrote (hkey : ∀ e r, rowOf e r → key r = ekey e)
    {es : List E} {ss : List (Stmt α κ)}
    (h : Replay ekey rowOf before found es ss) :
    ∀ {t : Table α key}, Settled ekey before found own es t →
      ∃ t', runAll t ss = some t' ∧
        Wrote ekey rowOf before own es t t' := by
  induction h with
  | nil =>
      intro t _
      exact ⟨t, rfl, fun _ _ => rfl, nofun⟩
  | @insert e r es ss absent row rest ih =>
      intro t hs
      have hchanged : before (ekey e) ≠ some e := by
        intro hsame
        exact nomatch hs.seenFound e (List.mem_cons_self ..) hsame _ absent
      have hown : own (ekey e) := by
        by_contra hown
        exact hchanged (hs.foreignSeen e (List.mem_cons_self ..) hown)
      have hfree : (t.get (key r)).isSome = false := by
        rw [hkey e r row]
        exact hs.ownFound e (List.mem_cons_self ..) hown _ absent
      obtain ⟨t', ht', hwrote⟩ := ih (hs.put (hkey e r row))
      refine ⟨t', ?_, hwrote.put hs row (hkey e r row) hown hchanged⟩
      rw [runAll_cons, Stmt.run, hfree]
      exact ht'
  | @update e r es ss present changed row rest ih =>
      intro t hs
      have hown : own (ekey e) := by
        by_contra hown
        exact changed (hs.foreignSeen e (List.mem_cons_self ..) hown)
      have hthere : (t.get (key r)).isSome = true := by
        rw [hkey e r row]
        exact hs.ownFound e (List.mem_cons_self ..) hown _ present
      obtain ⟨t', ht', hwrote⟩ := ih (hs.put (hkey e r row))
      refine ⟨t', ?_, hwrote.put hs row (hkey e r row) hown changed⟩
      rw [runAll_cons, Stmt.run, hthere]
      exact ht'
  | @same e es ss present unchanged rest ih =>
      intro t hs
      obtain ⟨t', ht', hwrote⟩ := ih hs.tail
      refine ⟨t', ht', ?_, ?_⟩
      · intro k hk
        exact hwrote.frame k
          (fun ho hmem => hk ho (List.mem_cons_of_mem _ hmem))
      · intro e' he' hown'
        rcases List.mem_cons.mp he' with rfl | he'
        · exact Or.inl ⟨unchanged,
            hwrote.frame _ (fun _ => (List.nodup_cons.mp hs.nodup).1)⟩
        · exact hwrote.leaves e' he' hown'

/-- What an update does to a table: it saw `before` and means `after`, which
    differ in its own keys only, deletes the keys `ks`, and finds every other
    key that it saw. -/
structure Meant (ekey : E → κ) (found : κ → Bool → Prop) (own : κ → Prop)
    (before after : Table E ekey) (ks : List κ) (t : Table α key) :
    Prop where
  foreign : ∀ k, ¬ own k → after.get k = before.get k
  current : ∀ k, own k → (before.get k).isSome = (t.get k).isSome
  ownFound : ∀ k b, own k → found k b → (t.get k).isSome = b
  foreignFound : ∀ k b, ¬ own k → found k b → b = true
  gone : ∀ k ∈ ks, before.get k ≠ none ∧ after.get k = none
  deleted : ∀ k, before.get k ≠ none → after.get k = none →
    k ∈ ks ∨ t.get k = none

/-- Such an update succeeds, leaves every other key alone, and leaves at its
    own keys what it means. -/
theorem Meant.runAll {before after : Table E ekey} {ks : List κ}
    {t : Table α key} (h : Meant ekey found own before after ks t)
    (hkey : ∀ e r, rowOf e r → key r = ekey e) {ss : List (Stmt α κ)}
    (hss : Replay ekey rowOf before.get found after.rows ss) :
    ∃ t', CvReplay.runAll t (ks.map Stmt.delete ++ ss) = some t' ∧
      (∀ k, ¬ own k → t'.get k = t.get k) ∧
      ∀ k, own k →
        Leaves rowOf before.get (t.get k) (after.get k) k (t'.get k) := by
  have hks : ∀ k ∈ ks, own k := by
    intro k hk
    by_contra hown
    obtain ⟨hbefore, hafter⟩ := h.gone k hk
    exact hbefore ((h.foreign k hown).symm.trans hafter)
  obtain ⟨t₁, ht₁, hget₁⟩ := runAll_deletes ks t
  have hkept : ∀ k, after.get k ≠ none → t₁.get k = t.get k := by
    intro k hk
    rw [hget₁, if_neg (fun hmem => hk (h.gone k hmem).2)]
  have hsettled : Settled ekey before.get found own after.rows t₁ := by
    refine ⟨after.nodup, ?_, ?_, ?_⟩
    · intro e he hown
      rw [← h.foreign _ hown, Table.get_of_mem he]
    · intro e he hown b hb
      rw [hkept _ (by rw [Table.get_of_mem he]; exact Option.some_ne_none e)]
      exact h.ownFound _ b hown hb
    · intro e he hsame b hb
      by_cases hown : own (ekey e)
      · rw [← h.ownFound _ b hown hb, ← h.current _ hown, hsame]
        rfl
      · exact h.foreignFound _ b hown hb
  -- the deletions leave a table from which the other statements start
  obtain ⟨t', ht', hwrote⟩ := hss.wrote hkey hsettled
  refine ⟨t', by rw [runAll_append, ht₁, Option.bind_some, ht'], ?_, ?_⟩
  · intro k hown
    rw [hwrote.frame k (fun ho => absurd ho hown), hget₁,
      if_neg (fun hmem => hown (hks k hmem))]
  · intro k hown
    cases hafter : after.get k with
    | some e =>
        have hl := hwrote.leaves e (Table.mem_of_get hafter)
        rw [Table.key_of_get hafter, hkept k (by rw [hafter]; exact nofun)]
          at hl
        exact hl hown
    | none =>
        have hnew : k ∉ after.rows.map ekey :=
          fun hmem => Table.mem_keys_iff.mp hmem hafter
        show t'.get k = none
        rw [hwrote.frame k (fun _ => hnew), hget₁]
        by_cases hk : k ∈ ks
        · rw [if_pos hk]
        · rw [if_neg hk]
          cases hbefore : before.get k with
          | none =>
              have hc := h.current k hown
              rw [hbefore] at hc
              exact Option.not_isSome_iff_eq_none.mp
                (Bool.eq_false_iff.mp hc.symm)
          | some e =>
              have hb : before.get k ≠ none := by
                rw [hbefore]
                exact Option.some_ne_none e
              exact (h.deleted k hb hafter).resolve_left hk

end CvReplay
