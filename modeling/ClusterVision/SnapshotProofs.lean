import ClusterVision.PoolProofs
import ClusterVision.ReplayProofs

/-! # Updates that replay a snapshot, run concurrently

    Threads share a table.  Each runs one update: it loads the table, looks keys
    up, and commits its statements at the end, while the others go on.  Each
    has keys of its own, and the updates only mean to write those.  As long as
    no thread finds a foreign key gone, the updates do not disturb each other:
    every own key ends as if its update had run alone, and the table is the
    one that any serial order leaves. -/

namespace CvReplay

open CvProg CvPool CvTable

variable {I : Iface} {ε σ α κ E ι β : Type} [DecidableEq κ]
  {key : α → κ} {ekey : E → κ}

/-! ## Edits -/

/-- A dictionary of entries: a later entry takes the place of an earlier one
    with its key. -/
def dictOf (ekey : E → κ) (es : List E) : Table E ekey :=
  es.foldl Table.put Table.empty

@[simp] theorem dictOf_rows (t : Table E ekey) : dictOf ekey t.rows = t :=
  Table.foldl_put_rows t

/-- What an update makes of the entries; it may raise. -/
abbrev Edit (ε E : Type) := List E → Except ε (List E)

/-- The edit changes the keys in `own` only, and what it makes of them depends
    on nothing else. -/
structure ActsOn (ekey : E → κ) (own : κ → Prop) (edit : Edit ε E) :
    Prop where
  frame : ∀ (t : Table E ekey) (out : List E), edit t.rows = .ok out →
    ∀ k, ¬ own k → (dictOf ekey out).get k = t.get k
  local_ : ∀ t t' : Table E ekey, (∀ k, own k → t.get k = t'.get k) →
    ∀ out, edit t.rows = .ok out → ∃ out', edit t'.rows = .ok out' ∧
      ∀ k, own k → (dictOf ekey out').get k = (dictOf ekey out).get k

/-- An edit that acts on some keys acts on the table as a whole. -/
theorem ActsOn.all {own : κ → Prop} {edit : Edit ε E}
    (h : ActsOn ekey own edit) : ActsOn ekey (fun _ => True) edit where
  frame _ _ _ _ hk := absurd trivial hk
  local_ := by
    intro t t' hagree out hout
    obtain ⟨out', hout', hsame⟩ := h.local_ t t' (fun k _ => hagree k trivial)
      out hout
    refine ⟨out', hout', ?_⟩
    intro k _
    by_cases hk : own k
    · exact hsame k hk
    · rw [h.frame t' out' hout' k hk, h.frame t out hout k hk,
        hagree k trivial]

/-- Is there an entry for which `p` holds?  Tables that agree on the own keys
    agree on it. -/
theorem any_of_agree {own : κ → Prop} {p : E → Bool}
    (hp : ∀ e, p e = true → own (ekey e)) {t t' : Table E ekey}
    (hagree : ∀ k, own k → t.get k = t'.get k) :
    t.rows.any p = t'.rows.any p := by
  rw [Bool.eq_iff_iff, List.any_eq_true, List.any_eq_true]
  constructor
  · rintro ⟨e, he, hpe⟩
    have hget := hagree _ (hp e hpe)
    rw [Table.get_of_mem he] at hget
    exact ⟨e, Table.mem_of_get hget.symm, hpe⟩
  · rintro ⟨e, he, hpe⟩
    have hget := hagree _ (hp e hpe)
    rw [Table.get_of_mem he] at hget
    exact ⟨e, Table.mem_of_get hget, hpe⟩

/-- Appending an entry. -/
theorem actsOn_append {own : κ → Prop} {e : E} (he : own (ekey e)) :
    ActsOn ekey own (fun es => (.ok (es ++ [e]) : Except ε (List E))) := by
  have hdict : ∀ t : Table E ekey, dictOf ekey (t.rows ++ [e]) = t.put e := by
    intro t
    rw [dictOf, List.foldl_append, Table.foldl_put_rows]
    rfl
  refine ⟨?_, ?_⟩
  · rintro t out ⟨⟩ k hk
    have hne : k ≠ ekey e := by
      rintro rfl
      exact hk he
    rw [hdict, Table.get_put, if_neg hne]
  · rintro t t' hagree out ⟨⟩
    refine ⟨_, rfl, ?_⟩
    intro k hk
    rw [hdict, hdict, Table.get_put, Table.get_put, hagree k hk]

/-- Removing entries. -/
theorem actsOn_filter {own : κ → Prop} {keep : E → Bool}
    (hkeep : ∀ e, keep e = false → own (ekey e)) :
    ActsOn ekey own (fun es => (.ok (es.filter keep) : Except ε (List E))) := by
  have hdict : ∀ t : Table E ekey,
      dictOf ekey (t.rows.filter keep) = t.keep keep :=
    fun t => Table.foldl_put_rows (t.keep keep)
  refine ⟨?_, ?_⟩
  · rintro t out ⟨⟩ k hk
    rw [hdict, Table.get_keep_eq]
    cases hget : t.get k with
    | none => rfl
    | some e =>
        have hkept : keep e = true := by
          rw [← Table.key_of_get hget] at hk
          exact Bool.of_not_eq_false (fun hgone => hk (hkeep e hgone))
        rw [Option.filter_some, if_pos hkept]
  · rintro t t' hagree out ⟨⟩
    refine ⟨_, rfl, ?_⟩
    intro k hk
    rw [hdict, hdict, Table.get_keep_eq, Table.get_keep_eq, hagree k hk]

/-- An edit that raises when there is a certain entry. -/
theorem ActsOn.unless {own : κ → Prop} {edit : Edit ε E} {p : E → Bool}
    (h : ActsOn ekey own edit) (hp : ∀ e, p e = true → own (ekey e))
    (err : ε) :
    ActsOn ekey own
      (fun es => if es.any p = true then .error err else edit es) where
  frame := by
    intro t out hout
    split at hout
    · exact nomatch hout
    · exact h.frame t out hout
  local_ := by
    intro t t' hagree out hout
    rw [any_of_agree hp hagree] at hout
    split at hout
    · exact nomatch hout
    · rename_i hfree
      rw [if_neg hfree]
      exact h.local_ t t' hagree out hout

/-- An edit that raises when there is no such entry. -/
theorem ActsOn.onlyIf {own : κ → Prop} {edit : Edit ε E} {p : E → Bool}
    (h : ActsOn ekey own edit) (hp : ∀ e, p e = true → own (ekey e))
    (err : ε) :
    ActsOn ekey own
      (fun es => if es.any p = true then edit es else .error err) where
  frame := by
    intro t out hout
    split at hout
    · exact h.frame t out hout
    · exact nomatch hout
  local_ := by
    intro t t' hagree out hout
    rw [any_of_agree hp hagree] at hout
    split at hout
    · rename_i hthere
      rw [if_pos hthere]
      exact h.local_ t t' hagree out hout
    · exact nomatch hout

/-! ## A table seen through its entries -/

/-- How rows and entries belong together. -/
structure Columns (key : α → κ) (ekey : E → κ) where
  entry : α → E
  rowOf : E → α → Prop
  entry_key : ∀ r, ekey (entry r) = key r
  row_key : ∀ e r, rowOf e r → key r = ekey e

namespace Columns

variable (c : Columns key ekey)

/-- The entries of a table. -/
def entries (t : Table α key) : Table E ekey :=
  ⟨t.rows.map c.entry, by
    rw [List.map_map]
    exact (List.map_congr_left (fun r _ => c.entry_key r)) ▸ t.nodup⟩

theorem get_entries (t : Table α key) (k : κ) :
    (c.entries t).get k = (t.get k).map c.entry := by
  cases hget : t.get k with
  | none =>
      rw [Option.map_none, Table.get_eq_none_iff]
      intro e he hkey
      obtain ⟨r, hr, rfl⟩ := List.mem_map.mp he
      exact Table.get_eq_none_iff.mp hget r hr ((c.entry_key r).symm.trans hkey)
  | some r =>
      rw [Option.map_some, Table.get_eq_some_iff]
      exact ⟨List.mem_map_of_mem (Table.mem_of_get hget),
        (c.entry_key r).trans (Table.key_of_get hget)⟩

variable {own : κ → Prop} {edit : Edit ε E} {t t' t₁ t₂ : Table α key}
  {k : κ} {r r' : Option α}

/-- The table `t'` has under the keys `own` what the edit of the table `t`
    leaves there. -/
def Made (own : κ → Prop) (edit : Edit ε E) (t t' : Table α key) : Prop :=
  ∃ out, edit (c.entries t).rows = .ok out ∧ ∀ k, own k →
    Leaves c.rowOf (c.entries t).get (t.get k) ((dictOf ekey out).get k) k
      (t'.get k)

variable {c}

/-- Only the keys `own` of the new table matter. -/
theorem Made.of_new (h : c.Made own edit t t₁)
    (hagree : ∀ k, own k → t₂.get k = t₁.get k) : c.Made own edit t t₂ := by
  obtain ⟨out, hout, hleaves⟩ := h
  refine ⟨out, hout, ?_⟩
  intro k hk
  rw [hagree k hk]
  exact hleaves k hk

/-- Only the own keys of the old table matter to an edit. -/
theorem Made.of_old (hedit : ActsOn ekey own edit)
    (hagree : ∀ k, own k → t'.get k = t.get k)
    (h : c.Made own edit t' t₁) : c.Made own edit t t₁ := by
  have hentries : ∀ k, own k →
      (c.entries t').get k = (c.entries t).get k := by
    intro k hk
    rw [c.get_entries, c.get_entries, hagree k hk]
  obtain ⟨out, hout, hleaves⟩ := h
  obtain ⟨out', hout', hsame⟩ := hedit.local_ _ _ hentries out hout
  refine ⟨out', hout', ?_⟩
  intro k hk
  rw [hsame k hk, ← hagree k hk]
  exact (hleaves k hk).congr (hentries k hk)

theorem Made.mono {own' : κ → Prop} (hown : ∀ k, own' k → own k)
    (h : c.Made own edit t t') : c.Made own' edit t t' := by
  obtain ⟨out, hout, hleaves⟩ := h
  exact ⟨out, hout, fun k hk => hleaves k (hown k hk)⟩

/-- An entry that the edit removes has no row. -/
theorem Made.removed {out : List E} (h : c.Made own edit t t')
    (hout : edit (c.entries t).rows = .ok out) (hk : own k)
    (hgone : (dictOf ekey out).get k = none) : t'.get k = none := by
  obtain ⟨out', hout', hleaves⟩ := h
  rw [hout] at hout'
  obtain rfl := Except.ok.inj hout'
  have hl := hleaves k hk
  rw [hgone] at hl
  exact hl

/-- An edit leaves the rows of other keys. -/
theorem Made.frame (hedit : ActsOn ekey own edit)
    (h : c.Made (fun _ => True) edit t t') (hk : ¬ own k) :
    t'.get k = t.get k := by
  obtain ⟨out, hout, hleaves⟩ := h
  have hl := hleaves k trivial
  rw [hedit.frame _ out hout k hk, c.get_entries] at hl
  cases hrow : t.get k with
  | none =>
      rw [hrow] at hl
      exact hl
  | some r =>
      rw [hrow] at hl
      rcases hl with ⟨-, hkept⟩ | ⟨hchanged, -⟩
      · exact hkept
      · rw [c.get_entries, hrow] at hchanged
        exact absurd rfl hchanged

variable (c) in
/-- Two rows of which nothing tells that they come from different runs. -/
def SameRow (r r' : Option α) : Prop :=
  r = r' ∨ ∃ e a a', c.rowOf e a ∧ c.rowOf e a' ∧ r = some a ∧ r' = some a'

/-- What an edit leaves is determined, up to the row of an entry. -/
theorem made_unique (h₁ : c.Made own edit t t₁) (h₂ : c.Made own edit t t₂)
    (hk : own k) : c.SameRow (t₁.get k) (t₂.get k) := by
  obtain ⟨out, hout, hleaves⟩ := h₁
  obtain ⟨out', hout', hleaves'⟩ := h₂
  rw [hout] at hout'
  obtain rfl := Except.ok.inj hout'
  have hl₁ := hleaves k hk
  have hl₂ := hleaves' k hk
  cases hnew : (dictOf ekey out).get k with
  | none =>
      rw [hnew] at hl₁ hl₂
      exact Or.inl (Eq.trans hl₁ (Eq.symm hl₂))
  | some e =>
      rw [hnew] at hl₁ hl₂
      rcases hl₁ with ⟨hsame, hr⟩ | ⟨hchanged, a, ha, hr⟩
      · rcases hl₂ with ⟨-, hr'⟩ | ⟨hchanged', -⟩
        · exact Or.inl (hr.trans hr'.symm)
        · exact absurd hsame hchanged'
      · rcases hl₂ with ⟨hsame', -⟩ | ⟨-, a', ha', hr'⟩
        · exact absurd hsame' hchanged
        · exact Or.inr ⟨e, a, a', ha, ha', hr, hr'⟩

variable (c) in
/-- The table `t'` has the edits of all threads, and is `t` otherwise. -/
structure Merged (own : ι → κ → Prop) (edits : ι → Edit ε E)
    (t t' : Table α key) : Prop where
  made : ∀ i, c.Made (own i) (edits i) t t'
  frame : ∀ k, (∀ i, ¬ own i k) → t'.get k = t.get k

/-- There is one such table, up to the rows of entries. -/
theorem merged_unique {own : ι → κ → Prop} {edits : ι → Edit ε E}
    (h₁ : c.Merged own edits t t₁) (h₂ : c.Merged own edits t t₂) (k : κ) :
    c.SameRow (t₁.get k) (t₂.get k) := by
  by_cases hk : ∃ i, own i k
  · obtain ⟨i, hi⟩ := hk
    exact made_unique (h₁.made i) (h₂.made i) hi
  · rw [not_exists] at hk
    exact Or.inl ((h₁.frame k hk).trans (h₂.frame k hk).symm)

/-- One edit after the other, in either order. -/
theorem merged_of_serial {own : Bool → κ → Prop} {edits : Bool → Edit ε E}
    (hedits : ∀ i, ActsOn ekey (own i) (edits i))
    (hdisjoint : ∀ i j k, own i k → own j k → i = j) (i : Bool)
    (h₁ : c.Made (fun _ => True) (edits i) t t₁)
    (h₂ : c.Made (fun _ => True) (edits (!i)) t₁ t₂) :
    c.Merged own edits t t₂ where
  made := by
    have hother : ∀ k, own i k → ¬ own (!i) k := by
      intro k hi hj
      exact Bool.eq_not.mp (hdisjoint i (!i) k hi hj) rfl
    intro j
    by_cases hj : j = i
    · subst hj
      exact (h₁.mono (fun _ _ => trivial)).of_new
        (fun k hk => h₂.frame (hedits (!j)) (hother k hk))
    · obtain rfl := Bool.eq_not.mpr hj
      exact (h₂.mono (fun _ _ => trivial)).of_old (hedits (!i))
        (fun k hk => h₁.frame (hedits i) (fun hi => hother k hi hk))
  frame := by
    intro k hk
    rw [h₂.frame (hedits (!i)) (hk (!i)), h₁.frame (hedits i) (hk i)]

end Columns

/-! ## Sessions -/

/-- What a call tells a session about the table. -/
inductive Obs (α κ : Type) where
  | loaded (rows : List α)
  | found (k : κ) (there : Bool)
  | committed
  | nothing

/-- A table in the shared state: the calls that load it, look a key up, and
    commit statements on it, and the ones that leave it alone. -/
structure Access (h : Handler I ε σ) (key : α → κ) where
  table : σ → Table α key
  Select : I.Op → Prop
  readKey : I.Op → Option κ
  Commit : I.Op → List (Stmt α κ) → Prop
  Idle : I.Op → Prop
  observe : (op : I.Op) → Except ε (I.Res op) → Obs α κ
  select : ∀ op s, Select op → table (h op s).2 = table s ∧
    observe op (h op s).1 = .loaded (table s).rows
  read : ∀ op k s, readKey op = some k → table (h op s).2 = table s ∧
    observe op (h op s).1 = .found k ((table s).get k).isSome
  commit : ∀ op ss s t, Commit op ss → runAll (table s) ss = some t →
    table (h op s).2 = t ∧ observe op (h op s).1 = .committed
  idle : ∀ op, Idle op →
    (∀ s, table (h op s).2 = table s) ∧ ∀ r, observe op r = .nothing

/-- How far a session is: what it has loaded, and what it has looked up. -/
inductive Stage (α κ : Type) where
  | start
  | working (rows : List α) (seen : List (κ × Bool))
  | done

/-- The stage after a call. -/
def Stage.next : Stage α κ → Obs α κ → Stage α κ
  | .start, .loaded rows => .working rows []
  | .working rows seen, .found k there => .working rows (seen ++ [(k, there)])
  | .working _ _, .committed => .done
  | l, _ => l

omit [DecidableEq κ] in
@[simp] theorem Stage.next_nothing (l : Stage α κ) : l.next .nothing = l := by
  cases l <;> rfl

/-- A session of an update. -/
structure Session (ε α κ E : Type) where
  edit : Edit ε E
  stage : Stage α κ

/-- The statements that the update makes of what it has loaded and seen. -/
def Planned (c : Columns key ekey) (edit : Edit ε E) (rows : List α)
    (seen : List (κ × Bool)) (ss : List (Stmt α κ)) : Prop :=
  let before := dictOf ekey (rows.map c.entry)
  ∃ (out : List E) (ks : List κ) (writes : List (Stmt α κ)),
    edit before.rows = .ok out ∧ ss = ks.map Stmt.delete ++ writes ∧
    Replay ekey c.rowOf before.get (fun k b => (k, b) ∈ seen)
      (dictOf ekey out).rows writes ∧
    (∀ k ∈ ks, before.get k ≠ none ∧ (dictOf ekey out).get k = none) ∧
    ∀ k, before.get k ≠ none → (dictOf ekey out).get k = none →
      k ∈ ks ∨ (k, false) ∈ seen

section Protocol

variable {h : Handler I ε σ} (A : Access h key) (c : Columns key ekey)

/-- The calls that a session may make. -/
def Allowed (l : Session ε α κ E) (op : I.Op) : Prop :=
  match l.stage with
  | .start => A.Select op ∨ A.Idle op
  | .working rows seen => A.Idle op ∨ (∃ k, A.readKey op = some k) ∨
      ∃ ss, A.Commit op ss ∧ Planned c l.edit rows seen ss
  | .done => A.Idle op

/-- The protocol of an update. -/
def session : Protocol I ε (Session ε α κ E) where
  allowed := Allowed A c
  next l op r := { l with stage := l.stage.next (A.observe op r) }

/-- A session that has returned has committed. -/
def Committed (l : Session ε α κ E) (r : Except ε β) : Prop :=
  ∀ b, r = .ok b → l.stage = .done

omit [DecidableEq κ] in
theorem committed_error {l : Session ε α κ E} {e : ε} :
    Committed l (.error e : Except ε β) := by
  intro b h
  cases h

variable {A c} {l : Session ε α κ E}

/-- A call that leaves the table alone can be made at any stage. -/
theorem follows_idle {op : I.Op} (hop : A.Idle op)
    {Q : Session ε α κ E → Except ε (I.Res op) → Prop} (hq : ∀ r, Q l r) :
    Follows (session A c) (Prog.perform op) l Q := by
  refine follows_perform ?_ ?_
  · show Allowed A c l op
    rw [Allowed]
    cases l.stage with
    | start => exact Or.inr hop
    | working rows seen => exact Or.inl hop
    | done => exact hop
  · intro r
    show Q { l with stage := l.stage.next (A.observe op r) } r
    rw [(A.idle op hop).2, Stage.next_nothing]
    exact hq r

/-- What a part of an update has collected for the entries `es`: it has looked
    their keys up, and their statements follow the ones that it was given. -/
def Collected {W : Type} (c : Columns key ekey) (edit : Edit ε E)
    (before : κ → Option E) (write : Stmt α κ → W) (rows : List α)
    (seen : List (κ × Bool)) (es : List E) (ws : List W)
    (l : Session ε α κ E) (r : Except ε (List W)) : Prop :=
  ∀ ws', r = .ok ws' → ∃ seen' ss, l = ⟨edit, .working rows seen'⟩ ∧
    (∀ x ∈ seen, x ∈ seen') ∧ ws' = ws ++ ss.map write ∧
    Replay ekey c.rowOf before (fun k b => (k, b) ∈ seen') es ss

omit [DecidableEq κ] in
theorem collected_error {W : Type} {edit : Edit ε E} {before : κ → Option E}
    {write : Stmt α κ → W} {rows : List α} {seen : List (κ × Bool)}
    {es : List E} {ws : List W} {e : ε} :
    Collected c edit before write rows seen es ws l (.error e) := by
  intro ws' h
  cases h

/-- The end of the body of such a loop: it has found a row for the key of the
    entry or not, and goes on with the statement for it. -/
theorem follows_stmt {W : Type} [DecidableEq E] {edit : Edit ε E}
    (before : κ → Option E) (write : Stmt α κ → W) {rows : List α}
    {seen : List (κ × Bool)} {ws : List W} {e : E} {r : α}
    (hrow : c.rowOf e r) {existing : Option α} {p : Prog I ε (List W)}
    (hp : p = match existing with
      | none => pure (ws ++ [write (.insert r)])
      | some _ =>
          if before (ekey e) ≠ some e then pure (ws ++ [write (.update r)])
          else pure ws) :
    Follows (session A c) p
      ⟨edit, .working rows (seen ++ [(ekey e, existing.isSome)])⟩
      (Collected c edit before write rows seen [e] ws) := by
  have hmem : (ekey e, existing.isSome) ∈ seen ++ [(ekey e, existing.isSome)] :=
    List.mem_append_right _ List.mem_cons_self
  have hsub : ∀ x ∈ seen, x ∈ seen ++ [(ekey e, existing.isSome)] :=
    fun x hx => List.mem_append_left _ hx
  subst hp
  cases existing with
  | none =>
      refine follows_pure ?_
      rintro ws' ⟨⟩
      exact ⟨_, [.insert r], rfl, hsub, rfl, .insert hmem hrow .nil⟩
  | some old =>
      by_cases hchanged : before (ekey e) ≠ some e
      · simp only [if_pos hchanged]
        refine follows_pure ?_
        rintro ws' ⟨⟩
        exact ⟨_, [.update r], rfl, hsub, rfl,
          .update hmem hchanged hrow .nil⟩
      · simp only [if_neg hchanged]
        refine follows_pure ?_
        rintro ws' ⟨⟩
        exact ⟨_, [], rfl, hsub, (List.append_nil ws).symm,
          .same hmem (not_not.mp hchanged) .nil⟩

/-- A loop over the entries, from what its body does for one of them. -/
theorem follows_collect {W : Type} {edit : Edit ε E} {before : κ → Option E}
    {write : Stmt α κ → W} {rows : List α}
    {body : List W → E → Prog I ε (List W)}
    (hbody : ∀ ws e seen, Follows (session A c) (body ws e)
      ⟨edit, .working rows seen⟩
      (Collected c edit before write rows seen [e] ws)) (es : List E) :
    ∀ (ws : List W) (seen : List (κ × Bool)),
      Follows (session A c) (es.foldlM body ws) ⟨edit, .working rows seen⟩
        (Collected c edit before write rows seen es ws) := by
  induction es with
  | nil =>
      intro ws seen
      refine follows_pure ?_
      rintro ws' ⟨⟩
      exact ⟨seen, [], rfl, fun _ hx => hx, (List.append_nil ws).symm, .nil⟩
  | cons e es ih =>
      intro ws seen
      rw [List.foldlM_cons]
      refine follows_bind (Follows.imp ?_ (hbody ws e seen))
      intro l r hfirst
      cases r with
      | error x => exact collected_error
      | ok ws₁ =>
          obtain ⟨seen₁, ss₁, rfl, hsub₁, rfl, hreplay₁⟩ := hfirst ws₁ rfl
          refine Follows.imp ?_ (ih (ws ++ ss₁.map write) seen₁)
          intro l r hrest ws' hr
          obtain ⟨seen₂, ss₂, hl, hsub₂, rfl, hreplay₂⟩ := hrest ws' hr
          refine ⟨seen₂, ss₁ ++ ss₂, hl, fun x hx => hsub₂ x (hsub₁ x hx),
            ?_, ?_⟩
          · rw [List.map_append, List.append_assoc]
          · exact (hreplay₁.mono (fun k b hkb => hsub₂ _ hkb)).append hreplay₂

end Protocol

/-! ## Sessions that do not disturb each other -/

section Runs

variable {h : Handler I ε σ} {A : Access h key} {c : Columns key ekey}
  {own : ι → κ → Prop} {edits : ι → Edit ε E} {t₀ : Table α key}

/-- Reading a key of another thread, or of none, finds a row. -/
def Undisturbed (A : Access h key) (own : ι → κ → Prop) (e : Entry I ε σ ι) :
    Prop :=
  ∀ k ∈ A.readKey e.event.op, ¬ own e.thread k →
    ((A.table e.before).get k).isSome = true

instance [∀ i k, Decidable (own i k)] (e : Entry I ε σ ι) :
    Decidable (Undisturbed A own e) :=
  inferInstanceAs (Decidable (∀ k ∈ A.readKey e.event.op, ¬ own e.thread k →
    ((A.table e.before).get k).isSome = true))

/-- What holds of a session with the keys `own`, when the table is `t` and was
    `t₀` at the start. -/
def StageInv (c : Columns key ekey) (own : κ → Prop) (edit : Edit ε E)
    (t₀ t : Table α key) : Stage α κ → Prop
  | .start => ∀ k, own k → t.get k = t₀.get k
  | .working rows seen => (∀ k, own k → t.get k = t₀.get k) ∧
      (∃ snapshot : Table α key, rows = snapshot.rows ∧
        ∀ k, own k → snapshot.get k = t₀.get k) ∧
      ∀ k b, (k, b) ∈ seen →
        (own k → (t₀.get k).isSome = b) ∧ (¬ own k → b = true)
  | .done => c.Made own edit t₀ t

/-- Only the own keys matter. -/
theorem StageInv.of_agree {own : κ → Prop} {edit : Edit ε E}
    {t t' : Table α key} {l : Stage α κ}
    (hl : StageInv c own edit t₀ t l)
    (hagree : ∀ k, own k → t'.get k = t.get k) :
    StageInv c own edit t₀ t' l := by
  cases l with
  | start => exact fun k hk => (hagree k hk).trans (hl k hk)
  | working rows seen =>
      exact ⟨fun k hk => (hagree k hk).trans (hl.1 k hk), hl.2⟩
  | done => exact Columns.Made.of_new hl hagree

/-- The statements of a session succeed, write its own keys only, and leave
    there what its edit of the first table would leave. -/
theorem planned_commit {own : κ → Prop} {edit : Edit ε E}
    (hedit : ActsOn ekey own edit) {t : Table α key} {rows : List α}
    {seen : List (κ × Bool)} {ss : List (Stmt α κ)}
    (hl : StageInv c own edit t₀ t (.working rows seen))
    (hss : Planned c edit rows seen ss) :
    ∃ t', runAll t ss = some t' ∧
      (∀ k, ¬ own k → t'.get k = t.get k) ∧ c.Made own edit t₀ t' := by
  obtain ⟨hcurrent, ⟨snapshot, rfl, hsnapshot⟩, hseen⟩ := hl
  obtain ⟨out, ks, writes, hout, rfl, hwrites, hgone, hdeleted⟩ := hss
  have hbefore : dictOf ekey (snapshot.rows.map c.entry)
      = c.entries snapshot := dictOf_rows (c.entries snapshot)
  rw [hbefore] at hout hwrites hgone hdeleted
  -- on its own keys the table is what the snapshot was; foreign keys that the
  -- update looked up were all there, so it rewrites none of them
  have hmeant : Meant ekey (fun k b => (k, b) ∈ seen) own
      (c.entries snapshot) (dictOf ekey out) ks t := by
    refine ⟨hedit.frame _ out hout, ?_, ?_, ?_, hgone, ?_⟩
    · intro k hk
      rw [c.get_entries, hsnapshot k hk, hcurrent k hk, Option.isSome_map]
    · intro k b hk hb
      rw [hcurrent k hk]
      exact (hseen k b hb).1 hk
    · intro k b hk hb
      exact (hseen k b hb).2 hk
    · intro k hthere hnone
      rcases hdeleted k hthere hnone with hk | hk
      · exact Or.inl hk
      · have hown : own k := by
          by_contra hown
          exact hthere ((hedit.frame _ out hout k hown).symm.trans hnone)
        refine Or.inr ?_
        rw [hcurrent k hown]
        exact Option.not_isSome_iff_eq_none.mp
          (Bool.eq_false_iff.mp ((hseen k false hk).1 hown))
  obtain ⟨t', ht', hframe, hleaves⟩ := hmeant.runAll c.row_key hwrites
  refine ⟨t', ht', hframe, Columns.Made.of_old hedit hsnapshot ⟨out, hout, ?_⟩⟩
  intro k hk
  have hl := hleaves k hk
  rw [hcurrent k hk, ← hsnapshot k hk] at hl
  exact hl

variable [DecidableEq ι]

/-- What holds of all sessions. -/
structure SessionsInv (c : Columns key ekey) (own : ι → κ → Prop)
    (edits : ι → Edit ε E) (t₀ : Table α key)
    (ph : ι → Session ε α κ E) (t : Table α key) : Prop where
  edit : ∀ i, (ph i).edit = edits i
  stage : ∀ i, StageInv c (own i) (edits i) t₀ t (ph i).stage
  frame : ∀ k, (∀ i, ¬ own i k) → t.get k = t₀.get k

/-- A call of one session that writes its own keys only. -/
theorem SessionsInv.step {ph : ι → Session ε α κ E} {t t' : Table α key}
    (hinv : SessionsInv c own edits t₀ ph t)
    (hdisjoint : ∀ i j k, own i k → own j k → i = j) (i : ι) (l : Stage α κ)
    (hframe : ∀ k, ¬ own i k → t'.get k = t.get k)
    (hl : StageInv c (own i) (edits i) t₀ t' l) :
    SessionsInv c own edits t₀
      (Function.update ph i { ph i with stage := l }) t' where
  edit := by
    intro j
    by_cases hj : j = i
    · rw [hj, Function.update_self]
      exact hinv.edit i
    · rw [Function.update_of_ne hj]
      exact hinv.edit j
  stage := by
    intro j
    by_cases hj : j = i
    · rw [hj, Function.update_self]
      exact hl
    · rw [Function.update_of_ne hj]
      refine (hinv.stage j).of_agree ?_
      intro k hk
      exact hframe k (fun hi => hj (hdisjoint j i k hk hi))
  frame := by
    intro k hk
    exact (hframe k (hk i)).trans (hinv.frame k hk)

/-- Every allowed call that meets the guard keeps the sessions apart. -/
theorem sessions_kept (hedits : ∀ i, ActsOn ekey (own i) (edits i))
    (hdisjoint : ∀ i j k, own i k → own j k → i = j) :
    KeptBy (session A c) (fun _ op s r s' => h op s = (r, s'))
      (fun _ ph s => SessionsInv c own edits t₀ ph (A.table s))
      (Undisturbed A own) := by
  intro tr ph s i op r s' hinv hallowed hanswer hguard
  have hr : r = (h op s).1 := (congrArg Prod.fst hanswer).symm
  have hs' : s' = (h op s).2 := (congrArg Prod.snd hanswer).symm
  have hallowed' : Allowed A c (ph i) op := hallowed
  have hstage := hinv.stage i
  show SessionsInv c own edits t₀ (Function.update ph i
    { ph i with stage := (ph i).stage.next (A.observe op r) }) (A.table s')
  rw [Allowed] at hallowed'
  -- a call that leaves the table alone
  have hkeep : ∀ l, A.table s' = A.table s →
      StageInv c (own i) (edits i) t₀ (A.table s) l →
      SessionsInv c own edits t₀
        (Function.update ph i { ph i with stage := l }) (A.table s') := by
    intro l htable hl
    rw [htable]
    exact hinv.step hdisjoint i l (fun _ _ => rfl) hl
  have hidle : A.Idle op → SessionsInv c own edits t₀ (Function.update ph i
      { ph i with stage := (ph i).stage.next (A.observe op r) })
      (A.table s') := by
    intro hop
    obtain ⟨htable, hobs⟩ := A.idle op hop
    rw [hobs, Stage.next_nothing]
    exact hkeep _ (hs' ▸ htable s) hstage
  cases hl : (ph i).stage with
  | start =>
      -- the snapshot agrees with the first table on the own keys only: the
      -- others may have committed already
      rw [hl] at hallowed' hstage
      rcases hallowed' with hop | hop
      · obtain ⟨htable, hobs⟩ := A.select op s hop
        rw [hr, hobs]
        refine hkeep _ (hs' ▸ htable) ⟨hstage, ⟨A.table s, rfl, hstage⟩, ?_⟩
        intro k b hb
        exact nomatch hb
      · rw [← hl]
        exact hidle hop
  | done =>
      rw [hl] at hallowed'
      rw [← hl]
      exact hidle hallowed'
  | working rows seen =>
      rw [hl] at hallowed' hstage
      rcases hallowed' with hop | ⟨k, hop⟩ | ⟨ss, hop, hplan⟩
      · rw [← hl]
        exact hidle hop
      · -- an own key is as it was; the guard speaks about a foreign one
        obtain ⟨htable, hobs⟩ := A.read op k s hop
        rw [hr, hobs]
        refine hkeep _ (hs' ▸ htable) ⟨hstage.1, hstage.2.1, ?_⟩
        intro k' b hb
        rcases List.mem_append.mp hb with hb | hb
        · exact hstage.2.2 k' b hb
        · obtain ⟨rfl, rfl⟩ := Prod.mk.inj (List.mem_singleton.mp hb)
          refine ⟨fun hk => ?_, fun hk => hguard k' hop hk⟩
          rw [hstage.1 k' hk]
      · -- the commit writes own keys only, so the other sessions' facts stay
        rw [hinv.edit i] at hplan
        obtain ⟨t', ht', hframe, hmade⟩ :=
          planned_commit (hedits i) hstage hplan
        obtain ⟨htable, hobs⟩ := A.commit op ss s t' hop ht'
        rw [hr, hobs, hs', htable]
        exact hinv.step hdisjoint i .done hframe hmade

/-- In every run in which no session finds a foreign key gone, the sessions
    that have returned have made their edits, and nothing else has changed. -/
theorem run_merged (hedits : ∀ i, ActsOn ekey (own i) (edits i))
    (hdisjoint : ∀ i j k, own i k → own j k → i = j)
    {p₀ : Pool I ε β σ ι}
    (hfollows : ∀ i, Follows (session A c) (p₀.threads i)
      ⟨edits i, .start⟩ Committed) {tr : List (Entry I ε σ ι)}
    {p : Pool I ε β σ ι}
    (hrun : Run (fun _ op s r s' => h op s = (r, s')) p₀ tr p)
    (hguard : ∀ e ∈ tr, Undisturbed A own e)
    (hreturned : ∀ i, ∃ b, p.threads i = .ret b) :
    c.Merged own edits (A.table p₀.shared) (A.table p.shared) := by
  have hstart : SessionsInv c own edits (A.table p₀.shared)
      (fun i => ⟨edits i, .start⟩) (A.table p₀.shared) :=
    ⟨fun _ => rfl, fun _ _ _ => rfl, fun _ _ => rfl⟩
  obtain ⟨ph, hinv, hfol⟩ := Run.inv (sessions_kept hedits hdisjoint) hstart
    hfollows hrun hguard
  refine ⟨?_, hinv.frame⟩
  intro i
  obtain ⟨b, hb⟩ := hreturned i
  have hdone := hfol i
  rw [hb] at hdone
  have hstage := hinv.stage i
  rw [show (ph i).stage = .done from hdone b rfl] at hstage
  exact hstage

/-! ## One after the other -/

/-- The answers of the handler. -/
abbrev answersOf (h : Handler I ε σ) : Answers I ε σ ι :=
  fun _ op s r s' => h op s = (r, s')

/-- An update that runs alone makes its edit. -/
theorem alone_made {own : κ → Prop} {edit : Edit ε E}
    (hedit : ActsOn ekey own edit) {p : Prog I ε β}
    (hp : Follows (session A c) p ⟨edit, .start⟩ Committed) {s s' : σ} {b : β}
    (hrun : p.run h s = (.ok b, s')) :
    c.Made (fun _ => True) edit (A.table s) (A.table s') := by
  obtain ⟨tr, hpool⟩ := run_alone (h := h) p
    (Run.refl : Run (answersOf h) (⟨fun _ => p, s⟩ : Pool I ε β σ Unit) [] _)
  rw [hrun] at hpool
  have hmerged : c.Merged (fun (_ : Unit) _ => True) (fun _ => edit)
      (A.table s) (A.table s') :=
    run_merged (fun _ => hedit.all) (fun _ _ _ _ _ => rfl) (fun _ => hp) hpool
      (fun _ _ _ _ hk => absurd trivial hk) (fun _ => ⟨b, rfl⟩)
  exact hmerged.made ()

/-- The updates that run one after the other, from the state `s`, leave the
    rows of `t`, compared with `same`, or one of them is refused. -/
def SerialEnd (A : Access h key) (update : Edit ε E → Prog I ε β)
    (same : Option α → Option α → Prop) (Refuses : Edit ε E → σ → Prop)
    (first second : Edit ε E) (s : σ) (t : Table α key) : Prop :=
  Refuses first s ∨ ∃ b₁ s₁, (update first).run h s = (.ok b₁, s₁) ∧
    (Refuses second s₁ ∨ ∃ b₂ s₂, (update second).run h s₁ = (.ok b₂, s₂) ∧
      ∀ k, same (t.get k) ((A.table s₂).get k))

/-- How two concurrent updates end, from the state `s` to the state `s'`. -/
structure InOrder (A : Access h key) (c : Columns key ekey)
    (update : Edit ε E → Prog I ε β) (same : Option α → Option α → Prop)
    (Refuses : Edit ε E → σ → Prop) (own : Bool → κ → Prop)
    (edits : Bool → Edit ε E) (s s' : σ) : Prop where
  merged : c.Merged own edits (A.table s) (A.table s')
  removed : ∀ i out k, edits i (c.entries (A.table s)).rows = .ok out →
    own i k → (dictOf ekey out).get k = none → (A.table s').get k = none
  serial : ∀ i, SerialEnd A update same Refuses (edits i) (edits (!i)) s
    (A.table s')

/-- Two updates that edit different keys and run concurrently from the state `s`
    end as they do one after the other, in either order, when every step meets
    the guard and both return. -/
def Serializes (A : Access h key) (c : Columns key ekey)
    (update : Edit ε E → Prog I ε β) (same : Option α → Option α → Prop)
    (Refuses : Edit ε E → σ → Prop)
    (Guard : (Bool → κ → Prop) → Entry I ε σ Bool → Prop) (s : σ) : Prop :=
  ∀ (own : Bool → κ → Prop) (edits : Bool → Edit ε E),
    (∀ i, ActsOn ekey (own i) (edits i)) →
    (∀ k, ¬ (own false k ∧ own true k)) →
    ∀ (tr : List (Entry I ε σ Bool)) (p : Pool I ε β σ Bool),
      Run (answersOf h) ⟨fun i => update (edits i), s⟩ tr p →
      (∀ e ∈ tr, Guard own e) →
      (∀ i, ∃ b, p.threads i = .ret b) →
      InOrder A c update same Refuses own edits s p.shared

/-- Updates that follow the protocol of a session do, as long as neither finds
    the row of a key gone that is not its own. -/
theorem serializes {update : Edit ε E → Prog I ε β}
    {same : Option α → Option α → Prop} {Refuses : Edit ε E → σ → Prop}
    (hupdate : ∀ edit,
      Follows (session A c) (update edit) ⟨edit, .start⟩ Committed)
    (hsame : ∀ r r', c.SameRow r r' → same r r')
    (hfinish : ∀ edit s out, edit (c.entries (A.table s)).rows = .ok out →
      Refuses edit s ∨ ∃ b s', (update edit).run h s = (.ok b, s')) (s : σ) :
    Serializes A c update same Refuses (Undisturbed A) s := by
  intro own edits hedits happart tr p hrun hguard hreturned
  have hdisjoint : ∀ i j k, own i k → own j k → i = j := by
    intro i j k hi hj
    cases i with
    | false =>
        cases j with
        | false => rfl
        | true => exact absurd ⟨hi, hj⟩ (happart k)
    | true =>
        cases j with
        | false => exact absurd ⟨hj, hi⟩ (happart k)
        | true => rfl
  have hmerged := run_merged hedits hdisjoint (fun i => hupdate (edits i))
    hrun hguard hreturned
  refine ⟨hmerged, ?_, ?_⟩
  · intro i out k hout hk hgone
    exact (hmerged.made i).removed hout hk hgone
  · intro i
    obtain ⟨out, hout, -⟩ := hmerged.made i
    rcases hfinish _ s out hout with hrefuse | ⟨b₁, s₁, hfirst⟩
    · exact Or.inl hrefuse
    have hmade₁ := alone_made (hedits i) (hupdate _) hfirst
    refine Or.inr ⟨b₁, s₁, hfirst, ?_⟩
    -- the second update still finds its own keys as they were
    obtain ⟨out₂, hout₂, -⟩ := (hmerged.made (!i)).of_old (hedits (!i))
      (t := A.table s₁) (fun k hk => (hmade₁.frame (hedits i) (fun hi =>
        Bool.eq_not.mp (hdisjoint i (!i) k hi hk) rfl)).symm)
    rcases hfinish _ s₁ out₂ hout₂ with hrefuse | ⟨b₂, s₂, hsecond⟩
    · exact Or.inl hrefuse
    refine Or.inr ⟨b₂, s₂, hsecond, ?_⟩
    intro k
    have hserial := Columns.merged_of_serial hedits hdisjoint i hmade₁
      (alone_made (hedits (!i)) (hupdate _) hsecond)
    exact hsame _ _ (Columns.merged_unique hmerged hserial k)

end Runs

end CvReplay
