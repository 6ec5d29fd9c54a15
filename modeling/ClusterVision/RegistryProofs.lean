import ClusterVision.Registry

/-! # What _update_registry writes

    The lists of dictionaries that the callers work on are the table, seen
    through `to_dict`.  An update that completes makes the table show the
    dictionaries that `mutate` returned: rows that still show the same
    dictionary are not written, and the others are written from it.  An update
    that raises writes nothing. -/

namespace CvRegistry

open CvProg CvTable CvIso CvKube CvBackend

/-! ## Dictionaries and the table -/

/-- The registry that the callers see. -/
def registryOf (d : Database) : EntryDict :=
  entryDict (d.managedUsers.rows.map toDict)

@[simp] theorem toDict_key (r : ManagedUser) : (toDict r).key = r.key := rfl

/-- A list without two entries of one key is its own dictionary. -/
theorem rows_entryDict {users : List RegistryEntry}
    (h : (users.map RegistryEntry.key).Nodup) :
    (entryDict users).rows = users := by
  rw [entryDict, Table.rows_foldl_put users (by simpa using h)]
  rfl

/-- The dictionary of a dictionary's entries. -/
theorem entryDict_rows (t : EntryDict) : entryDict t.rows = t :=
  Table.ext_rows (rows_entryDict t.nodup)

theorem entryDict_append (t : EntryDict) (u : RegistryEntry) :
    entryDict (t.rows ++ [u]) = t.put u := by
  have h := congrArg (fun d => d.put u) (entryDict_rows t)
  rw [entryDict, List.foldl_append]
  exact h

theorem entryDict_filter (t : EntryDict) (p : RegistryEntry → Bool) :
    entryDict (t.rows.filter p) = t.keep p :=
  entryDict_rows (t.keep p)

/-- The rows of the registry that the callers see. -/
theorem rows_registryOf (d : Database) :
    (registryOf d).rows = d.managedUsers.rows.map toDict := by
  refine rows_entryDict ?_
  rw [List.map_map]
  exact d.managedUsers.nodup

/-- Reading an entry is reading its row. -/
theorem get_registryOf (d : Database) (k : String × String) :
    (registryOf d).get k = (d.managedUsers.get k).map toDict := by
  cases hrow : d.managedUsers.get k with
  | none =>
      rw [Option.map_none, Table.get_eq_none_iff, rows_registryOf]
      intro u hu hkey
      obtain ⟨r, hr, rfl⟩ := List.mem_map.mp hu
      exact Table.get_eq_none_iff.mp hrow r hr hkey
  | some r =>
      rw [Option.map_some, Table.get_eq_some_iff, rows_registryOf]
      exact ⟨List.mem_map.mpr ⟨r, Table.mem_of_get hrow, rfl⟩,
        (toDict_key r).trans (Table.key_of_get hrow)⟩

/-! ## Rows -/

/-- Nothing but the clock has moved. -/
structure Idle (w w' : World) : Prop where
  db : w'.db = w.db
  clusters : w'.clusters = w.clusters

theorem Idle.refl (w : World) : Idle w w := ⟨rfl, rfl⟩

theorem Idle.trans {u v w : World} (h : Idle u v) (h' : Idle v w) :
    Idle u w :=
  ⟨h'.db.trans h.db, h'.clusters.trans h.clusters⟩

/-- The row is written from the entry. -/
structure RowOf (u : RegistryEntry) (r : ManagedUser) : Prop where
  name : r.name = u.name
  ns : r.ns = u.ns
  type : r.type = u.type
  groupsCsv : r.groupsCsv = joinGroups u.groups
  createdAt : u.createdAt ≠ "" →
    fromisoformat u.createdAt.toList = some r.createdAt
  csrName : r.csrName = u.csrName
  certExpiry : ∀ text, u.certExpiry = some text → text ≠ "" →
    r.certExpiry = fromisoformat text.toList
  noExpiry : u.certExpiry = none → r.certExpiry = none
  imported : r.imported = u.imported

theorem RowOf.key {u : RegistryEntry} {r : ManagedUser} (h : RowOf u r) :
    r.key = u.key := by
  rw [ManagedUser.key, h.name, h.ns]
  rfl

/-- The times of an entry can be read. -/
structure Readable (u : RegistryEntry) : Prop where
  createdAt : u.createdAt ≠ "" → fromisoformat u.createdAt.toList ≠ none
  certExpiry : ∀ text, u.certExpiry = some text → text ≠ "" →
    fromisoformat text.toList ≠ none

theorem run_loadRegistry (w : World) :
    loadRegistry.run handle w
      = (.ok (w.db.managedUsers.rows.map toDict), w) := by
  rw [loadRegistry, Prog.run_bind, run_db]
  rfl

theorem run_parseTime (text : String) (w : World) :
    (∃ e, (parseTime text).run handle w = (.error e, w) ∧
        fromisoformat text.toList = none) ∨
      ∃ d, (parseTime text).run handle w = (.ok d, w) ∧
        fromisoformat text.toList = some d := by
  rw [parseTime]
  cases fromisoformat text.toList with
  | none => exact Or.inl ⟨_, rfl, rfl⟩
  | some d => exact Or.inr ⟨d, rfl, rfl⟩

theorem run_createdAtColumn (text : String) (w : World) :
    (∃ e, (createdAtColumn text).run handle w = (.error e, w) ∧
        text ≠ "" ∧ fromisoformat text.toList = none) ∨
      ∃ d w', (createdAtColumn text).run handle w = (.ok d, w') ∧
        Idle w w' ∧ (text ≠ "" → fromisoformat text.toList = some d) := by
  rw [createdAtColumn]
  by_cases ht : text = ""
  · rw [if_pos ht, Prog.run_bind, run_now, handle_now, Prog.andThen_ok]
    exact Or.inr ⟨_, _, rfl, ⟨rfl, rfl⟩, fun h => absurd ht h⟩
  · rw [if_neg ht]
    rcases run_parseTime text w with ⟨e, he, hnone⟩ | ⟨d, hd, hparse⟩
    · exact Or.inl ⟨e, he, ht, hnone⟩
    · exact Or.inr ⟨d, w, hd, .refl w, fun _ => hparse⟩

theorem run_certExpiryColumn (text : Option String) (w : World) :
    (∃ e, (certExpiryColumn text).run handle w = (.error e, w) ∧
        ∃ t, text = some t ∧ t ≠ "" ∧ fromisoformat t.toList = none) ∨
      ∃ d, (certExpiryColumn text).run handle w = (.ok d, w) ∧
        (text = none → d = none) ∧
        ∀ t, text = some t → t ≠ "" → d = fromisoformat t.toList := by
  cases text with
  | none => exact Or.inr ⟨none, rfl, fun _ => rfl, nofun⟩
  | some text =>
      rw [certExpiryColumn]
      by_cases ht : text = ""
      · rw [if_pos ht]
        refine Or.inr ⟨none, rfl, fun _ => rfl, ?_⟩
        rintro t ⟨⟩ hne
        exact absurd ht hne
      · rw [if_neg ht, Prog.run_bind]
        rcases run_parseTime text w with ⟨e, he, hnone⟩ | ⟨d, hd, hparse⟩
        · exact Or.inl ⟨e, by rw [he]; rfl, text, rfl, ht, hnone⟩
        · refine Or.inr ⟨some d, by rw [hd]; rfl, nofun, ?_⟩
          rintro t ⟨⟩ -
          exact hparse.symm

/-- Either the row of an entry, or an error, when one of its times cannot be
    read; only the clock moves. -/
theorem run_columns (u : RegistryEntry) (w : World) :
    (∃ e w', (columns u).run handle w = (.error e, w') ∧ Idle w w' ∧
        ¬ Readable u) ∨
      ∃ r w', (columns u).run handle w = (.ok r, w') ∧ Idle w w' ∧
        RowOf u r := by
  rw [columns, Prog.run_bind]
  rcases run_createdAtColumn u.createdAt w with
    ⟨e, he, hne, hnone⟩ | ⟨d, w₁, hd, hidle, hcreated⟩
  · exact Or.inl ⟨e, w, by rw [he]; rfl, .refl w,
      fun h => h.createdAt hne hnone⟩
  · rw [hd, Prog.andThen_ok, Prog.run_bind]
    rcases run_certExpiryColumn u.certExpiry w₁ with
      ⟨e, he, text, htext, hne, hnone⟩ | ⟨x, hx, hnoExpiry, hexpiry⟩
    · exact Or.inl ⟨e, w₁, by rw [he]; rfl, hidle,
        fun h => h.certExpiry text htext hne hnone⟩
    · rw [hx, Prog.andThen_ok]
      exact Or.inr ⟨_, w₁, rfl, hidle, {
        name := rfl
        ns := rfl
        type := rfl
        groupsCsv := rfl
        createdAt := hcreated
        csrName := rfl
        certExpiry := hexpiry
        noExpiry := hnoExpiry
        imported := rfl }⟩

/-! ## The difference -/

/-- The database with other managed users. -/
def withUsers (d : Database)
    (t : Table ManagedUser ManagedUser.key) : Database :=
  { d with managedUsers := t }

@[simp] theorem withUsers_managedUsers (d : Database)
    (t : Table ManagedUser ManagedUser.key) :
    (withUsers d t).managedUsers = t := rfl

/-- The statements that the loop makes of the new entries. -/
inductive Writes (before : EntryDict) (d : Database) :
    List RegistryEntry → List DbWrite → Prop where
  | nil : Writes before d [] []
  | insert {u : RegistryEntry} {r : ManagedUser} {us : List RegistryEntry}
      {ws : List DbWrite} (absent : d.managedUsers.get u.key = none)
      (row : RowOf u r) (rest : Writes before d us ws) :
      Writes before d (u :: us) (.insertManagedUser r :: ws)
  | update {u : RegistryEntry} {r : ManagedUser} {us : List RegistryEntry}
      {ws : List DbWrite} (present : d.managedUsers.get u.key ≠ none)
      (changed : before.get u.key ≠ some u) (row : RowOf u r)
      (rest : Writes before d us ws) :
      Writes before d (u :: us) (.updateManagedUser r :: ws)
  | same {u : RegistryEntry} {us : List RegistryEntry} {ws : List DbWrite}
      (unchanged : before.get u.key = some u)
      (rest : Writes before d us ws) : Writes before d (u :: us) ws

/-- The loop over the new entries collects their statements, or raises, when
    one of them cannot be read. -/
theorem run_writeEntries (before : EntryDict) (us : List RegistryEntry) :
    ∀ (ws : List DbWrite) (w : World),
      (∃ e w', (us.foldlM (writeEntry before) ws).run handle w
        = (.error e, w') ∧ Idle w w' ∧ ∃ u ∈ us, ¬ Readable u) ∨
      ∃ vs w', (us.foldlM (writeEntry before) ws).run handle w
        = (.ok (ws ++ vs), w') ∧ Idle w w' ∧ Writes before w.db us vs := by
  induction us with
  | nil =>
      intro ws w
      exact Or.inr ⟨[], w, by rw [List.append_nil]; rfl, .refl w, .nil⟩
  | cons u us ih =>
      intro ws w
      rw [List.foldlM_cons, Prog.run_bind, writeEntry, Prog.run_bind]
      rcases run_columns u w with
        ⟨e, w₁, he, hidle, hnot⟩ | ⟨r, w₁, hr, hidle, hrow⟩
      · exact Or.inl ⟨e, w₁, by rw [he]; rfl, hidle, u,
          List.mem_cons_self .., hnot⟩
      rw [hr, Prog.andThen_ok, Prog.run_bind, run_db]
      -- how the rest of the loop goes on from the statement for `u`
      have hrest : ∀ xs : List DbWrite,
          (∀ vs, Writes before w.db us vs → Writes before w.db (u :: us)
            (xs ++ vs)) →
          (∃ e w', (us.foldlM (writeEntry before) (ws ++ xs)).run handle w₁
            = (.error e, w') ∧ Idle w w' ∧ ∃ v ∈ u :: us, ¬ Readable v) ∨
          ∃ vs w', (us.foldlM (writeEntry before) (ws ++ xs)).run handle w₁
            = (.ok (ws ++ vs), w') ∧ Idle w w' ∧
              Writes before w.db (u :: us) vs := by
        intro xs hxs
        rcases ih (ws ++ xs) w₁ with
          ⟨e, w', he, hidle', v, hv, hnot⟩ | ⟨vs, w', hvs, hidle', hwrites⟩
        · exact Or.inl ⟨e, w', he, hidle.trans hidle', v,
            List.mem_cons_of_mem u hv, hnot⟩
        · rw [hidle.db] at hwrites
          refine Or.inr ⟨xs ++ vs, w', ?_, hidle.trans hidle', hxs vs hwrites⟩
          rw [hvs, List.append_assoc]
      have hexisting : handle (.db (.getManagedUser u.name u.ns)) w₁
          = (.ok (w.db.managedUsers.get u.key), w₁) := by
        rw [← hidle.db]
        rfl
      rw [hexisting, Prog.andThen_ok]
      cases hget : w.db.managedUsers.get u.key with
      | none => exact hrest _ (fun vs hvs => .insert hget hrow hvs)
      | some old =>
          show (∃ e w', Prog.andThen ((if before.get u.key ≠ some u then _
            else _ : Svc _).run handle w₁) _ = _ ∧ _) ∨ _
          by_cases hchanged : before.get u.key ≠ some u
          · simp only [if_pos hchanged]
            have hpresent : w.db.managedUsers.get u.key ≠ none := by
              rw [hget]
              exact Option.some_ne_none old
            exact hrest _ (fun vs hvs =>
              .update hpresent hchanged hrow hvs)
          · simp only [if_neg hchanged]
            rw [not_not] at hchanged
            have h := hrest [] (fun vs hvs => .same hchanged hvs)
            rw [List.append_nil] at h
            exact h

theorem applyWrites_append (xs ys : List DbWrite) :
    ∀ {d d' : Database}, applyWrites d xs = .ok d' →
      applyWrites d (xs ++ ys) = applyWrites d' ys := by
  induction xs with
  | nil =>
      intro d d' h
      rw [Except.ok.inj h]
      rfl
  | cons x xs ih =>
      intro d d' h
      rw [applyWrites] at h
      rw [List.cons_append, applyWrites]
      cases hx : x.apply d with
      | error e =>
          rw [hx] at h
          exact nomatch h
      | ok d₁ =>
          rw [hx] at h
          exact ih h

/-- Deleting the rows of some entries. -/
theorem applyWrites_deletions (us : List RegistryEntry) :
    ∀ d : Database, ∃ t, applyWrites d
        (us.map (fun u => .deleteManagedUser u.name u.ns))
        = .ok (withUsers d t) ∧
      ∀ k, t.get k = if k ∈ us.map RegistryEntry.key then none
        else d.managedUsers.get k := by
  induction us with
  | nil => exact fun d => ⟨d.managedUsers, rfl, fun k => rfl⟩
  | cons u us ih =>
      intro d
      obtain ⟨t, ht, hget⟩ := ih
        (withUsers d (d.managedUsers.erase (u.name, u.ns)))
      refine ⟨t, ht, ?_⟩
      intro k
      rw [hget, withUsers_managedUsers, Table.get_erase, List.map_cons]
      show (if k ∈ us.map RegistryEntry.key then none else
        if k = u.key then none else d.managedUsers.get k) = _
      by_cases hk : k = u.key
      · rw [if_pos hk, if_pos (List.mem_cons.mpr (Or.inl hk)), ite_self]
      · rw [if_neg hk]
        simp only [List.mem_cons, hk, false_or]

/-- The table shows an entry: by the old row, when that shows it already, or
    else by a new one. -/
def Written (before : EntryDict) (d : Database)
    (t : Table ManagedUser ManagedUser.key) (u : RegistryEntry) : Prop :=
  (before.get u.key = some u ∧ t.get u.key = d.managedUsers.get u.key) ∨
    ((before.get u.key ≠ some u ∨ d.managedUsers.get u.key = none) ∧
      ∃ r, RowOf u r ∧ t.get u.key = some r)

/-- What the statements for the new entries make of the table. -/
theorem applyWrites_writes {before : EntryDict} {d : Database}
    {us : List RegistryEntry} {ws : List DbWrite}
    (h : Writes before d us ws) :
    ∀ {d' : Database}, (us.map RegistryEntry.key).Nodup →
      (∀ u ∈ us, d'.managedUsers.get u.key = d.managedUsers.get u.key) →
      ∃ t, applyWrites d' ws = .ok (withUsers d' t) ∧
        (∀ k, k ∉ us.map RegistryEntry.key →
          t.get k = d'.managedUsers.get k) ∧
        ∀ u ∈ us, Written before d t u := by
  -- one statement writes the row `r` of `u`, and the rest leaves it alone
  have hcons : ∀ {u : RegistryEntry} {r : ManagedUser}
      {us : List RegistryEntry} {ws : List DbWrite} {d' : Database},
      RowOf u r →
      (before.get u.key ≠ some u ∨ d.managedUsers.get u.key = none) →
      ((u :: us).map RegistryEntry.key).Nodup →
      (∀ v ∈ u :: us,
        d'.managedUsers.get v.key = d.managedUsers.get v.key) →
      (∀ {d' : Database}, (us.map RegistryEntry.key).Nodup →
        (∀ u ∈ us, d'.managedUsers.get u.key = d.managedUsers.get u.key) →
        ∃ t, applyWrites d' ws = .ok (withUsers d' t) ∧
          (∀ k, k ∉ us.map RegistryEntry.key →
            t.get k = d'.managedUsers.get k) ∧
          ∀ u ∈ us, Written before d t u) →
      ∃ t, applyWrites (withUsers d' (d'.managedUsers.put r)) ws
          = .ok (withUsers d' t) ∧
        (∀ k, k ∉ (u :: us).map RegistryEntry.key →
          t.get k = d'.managedUsers.get k) ∧
        ∀ v ∈ u :: us, Written before d t v := by
    intro u r us ws d' hrow hnew₀ hnodup hsame ih
    rw [List.map_cons, List.nodup_cons] at hnodup
    have hput : ∀ k, (d'.managedUsers.put r).get k
        = if k = u.key then some r else d'.managedUsers.get k := by
      intro k
      rw [Table.get_put, hrow.key]
    have hold : ∀ v ∈ us,
        (withUsers d' (d'.managedUsers.put r)).managedUsers.get v.key
          = d.managedUsers.get v.key := by
      intro v hv
      rw [withUsers_managedUsers, hput, if_neg, hsame v
        (List.mem_cons_of_mem u hv)]
      intro hkey
      exact hnodup.1 (List.mem_map.mpr ⟨v, hv, hkey⟩)
    obtain ⟨t, ht, hframe, hnew⟩ := ih hnodup.2 hold
    refine ⟨t, ht, ?_, ?_⟩
    · intro k hk
      rw [List.map_cons, List.mem_cons, not_or] at hk
      rw [hframe k hk.2, withUsers_managedUsers, hput, if_neg hk.1]
    · intro v hv
      rcases List.mem_cons.mp hv with rfl | hv
      · refine Or.inr ⟨hnew₀, r, hrow, ?_⟩
        rw [hframe v.key hnodup.1, withUsers_managedUsers, hput, if_pos rfl]
      · exact hnew v hv
  induction h with
  | nil =>
      intro d' _ _
      exact ⟨d'.managedUsers, rfl, fun _ _ => rfl, nofun⟩
  | @insert u r us ws absent row rest ih =>
      intro d' hnodup hsame
      obtain ⟨t, ht, hrest⟩ := hcons row (Or.inr absent) hnodup hsame ih
      refine ⟨t, ?_, hrest⟩
      have hfree : d'.managedUsers.get r.key = none := by
        rw [row.key, hsame u (List.mem_cons_self ..), absent]
      rw [applyWrites, DbWrite.apply, hfree]
      exact ht
  | @update u r us ws present changed row rest ih =>
      intro d' hnodup hsame
      obtain ⟨t, ht, hrest⟩ := hcons row (Or.inl changed) hnodup hsame ih
      refine ⟨t, ?_, hrest⟩
      obtain ⟨old, hold⟩ : ∃ old, d'.managedUsers.get r.key = some old := by
        rw [row.key, hsame u (List.mem_cons_self ..)]
        exact Option.ne_none_iff_exists'.mp present
      rw [applyWrites, DbWrite.apply, hold]
      exact ht
  | @same u us ws unchanged rest ih =>
      intro d' hnodup hsame
      rw [List.map_cons, List.nodup_cons] at hnodup
      obtain ⟨t, ht, hframe, hnew⟩ := ih hnodup.2
        (fun v hv => hsame v (List.mem_cons_of_mem u hv))
      refine ⟨t, ht, ?_, ?_⟩
      · intro k hk
        rw [List.map_cons, List.mem_cons, not_or] at hk
        exact hframe k hk.2
      · intro v hv
        rcases List.mem_cons.mp hv with rfl | hv
        · refine Or.inl ⟨unchanged, ?_⟩
          rw [hframe v.key hnodup.1, hsame v (List.mem_cons_self ..)]
        · exact hnew v hv

/-! ## Updates -/

/-- An update that did not complete. -/
def Rejected {α : Type} (p : Except Exn α × World) (w : World) : Prop :=
  ∃ e w', p = (.error e, w') ∧ Idle w w'

/-- Why an update does not complete: `mutate` raises, or one of the entries
    that it returns cannot be read. -/
def Refused (users : Except Exn (List RegistryEntry)) : Prop :=
  (∃ e, users = .error e) ∨
    ∃ us, users = .ok us ∧ ∃ u ∈ (entryDict us).rows, ¬ Readable u

/-- An update that completed, and returned `a`: the table is `t`, and nothing
    else but the clock has moved. -/
structure Committed {α : Type} (p : Except Exn α × World) (w : World) (a : α)
    (t : Table ManagedUser ManagedUser.key) : Prop where
  ok : p.1 = .ok a
  db : p.2.db = withUsers w.db t
  clusters : p.2.clusters = w.clusters

/-- What a completed update leaves under a key. -/
def Stores (w : World) (k : String × String) (u : Option RegistryEntry)
    (r : Option ManagedUser) : Prop :=
  match u with
  | none => r = none
  | some u =>
      ((registryOf w.db).get k = some u ∧ r = w.db.managedUsers.get k) ∨
        ((registryOf w.db).get k ≠ some u ∧ ∃ row, RowOf u row ∧ r = some row)

/-- The part of an update that follows `mutate`. -/
def storeEntries (before : EntryDict) (users : List RegistryEntry) :
    Svc (List RegistryEntry) := do
  let writes ← (entryDict users).rows.foldlM (writeEntry before)
    (deletions before (entryDict users))
  db (.commit writes)
  pure users

theorem run_updateRegistry_eq
    (mutate : List RegistryEntry → Except Exn (List RegistryEntry))
    (w : World) :
    (updateRegistry mutate).run handle w
      = Prog.andThen (mutate (registryOf w.db).rows, w)
        (fun users => (storeEntries (registryOf w.db) users).run handle) := by
  rw [updateRegistry, Prog.run_bind, run_loadRegistry, Prog.andThen_ok,
    Prog.run_bind, Prog.run_ofExcept]
  rfl

/-- An update either raises, or makes the table show what `mutate` returned. -/
theorem run_updateRegistry
    (mutate : List RegistryEntry → Except Exn (List RegistryEntry))
    (w : World) :
    (Rejected ((updateRegistry mutate).run handle w) w ∧
      Refused (mutate (registryOf w.db).rows)) ∨
    ∃ users t, mutate (registryOf w.db).rows = .ok users ∧
      Committed ((updateRegistry mutate).run handle w) w users t ∧
      ∀ k, Stores w k ((entryDict users).get k) (t.get k) := by
  rw [run_updateRegistry_eq]
  cases hmut : mutate (registryOf w.db).rows with
  | error e => exact Or.inl ⟨⟨e, w, rfl, .refl w⟩, Or.inl ⟨e, rfl⟩⟩
  | ok users =>
      rw [Prog.andThen_ok, storeEntries, Prog.run_bind]
      generalize hafter : entryDict users = after
      rcases run_writeEntries (registryOf w.db) after.rows
          (deletions (registryOf w.db) after) w with
        ⟨e, w₁, he, hidle, hnot⟩ | ⟨vs, w₁, hvs, hidle, hwrites⟩
      · rw [← hafter] at hnot
        exact Or.inl ⟨⟨e, w₁, by rw [he]; rfl, hidle⟩,
          Or.inr ⟨users, rfl, hnot⟩⟩
      -- first the statements for the entries that are gone
      obtain ⟨t₁, ht₁, hget₁⟩ := applyWrites_deletions ((registryOf
        w.db).rows.filter (fun u => (after.get u.key).isNone)) w.db
      -- then those for the new entries
      have hkept : ∀ u ∈ after.rows,
          (withUsers w.db t₁).managedUsers.get u.key
            = w.db.managedUsers.get u.key := by
        intro u hu
        rw [withUsers_managedUsers, hget₁, if_neg]
        intro hmem
        obtain ⟨v, hv, hkey⟩ := List.mem_map.mp hmem
        have hnone := (List.mem_filter.mp hv).2
        rw [hkey, Table.get_of_mem hu] at hnone
        exact nomatch hnone
      obtain ⟨t, ht, hframe, hnew⟩ := applyWrites_writes hwrites after.nodup
        hkept
      have hcommit : handle (.db (.commit
          (deletions (registryOf w.db) after ++ vs))) w₁
          = (.ok (), w₁.setDb (withUsers w.db t)) := by
        refine handle_commit_ok ?_
        rw [hidle.db, deletions, applyWrites_append _ _ ht₁]
        exact ht
      refine Or.inr ⟨users, t, rfl, ?_, ?_⟩
      · have hrun : Prog.andThen ((after.rows.foldlM
              (writeEntry (registryOf w.db))
              (deletions (registryOf w.db) after)).run handle w)
            (fun writes => Prog.run handle (do
              db (.commit writes)
              pure users))
            = (.ok users, w₁.setDb (withUsers w.db t)) := by
          rw [hvs, Prog.andThen_ok, Prog.run_bind, run_db, hcommit]
          rfl
        refine ⟨?_, ?_, ?_⟩
        · exact congrArg Prod.fst hrun
        · exact congrArg (fun p => p.2.db) hrun
        · exact (congrArg (fun p => p.2.clusters) hrun).trans hidle.clusters
      · intro k
        rw [hafter]
        cases hk : after.get k with
        | none =>
            -- the key is not new: it was deleted, if it was there at all
            show t.get k = none
            have habsent : k ∉ after.rows.map RegistryEntry.key := by
              intro hmem
              obtain ⟨u, hu, hkey⟩ := List.mem_map.mp hmem
              exact Table.get_eq_none_iff.mp hk u hu hkey
            rw [hframe k habsent, withUsers_managedUsers, hget₁]
            split
            · rfl
            · rename_i hnot
              cases hrow : w.db.managedUsers.get k with
              | none => rfl
              | some r =>
                  refine absurd (List.mem_map.mpr ⟨toDict r,
                    List.mem_filter.mpr ⟨?_, ?_⟩, ?_⟩) hnot
                  · rw [rows_registryOf]
                    exact List.mem_map.mpr ⟨r, Table.mem_of_get hrow, rfl⟩
                  · rw [toDict_key, Table.key_of_get hrow, hk]
                    rfl
                  · exact (toDict_key r).trans (Table.key_of_get hrow)
        | some u =>
            have hkey := Table.key_of_get hk
            rcases hnew u (Table.mem_of_get hk) with
              ⟨hsame, hget⟩ | ⟨hchanged, hrow⟩
            · rw [hkey] at hsame hget
              exact Or.inl ⟨hsame, hget⟩
            · rw [hkey] at hchanged hrow
              refine Or.inr ⟨?_, hrow⟩
              rcases hchanged with hchanged | hnone
              · exact hchanged
              · rw [get_registryOf, hnone]
                exact nofun

/-- An update touches no cluster. -/
theorem run_updateRegistry_clusters
    (mutate : List RegistryEntry → Except Exn (List RegistryEntry))
    (w : World) :
    ((updateRegistry mutate).run handle w).2.clusters = w.clusters := by
  rcases run_updateRegistry mutate w with
    ⟨⟨e, w', hrun, hidle⟩, -⟩ | ⟨users, t, -, hcommit, -⟩
  · rw [hrun]
    exact hidle.clusters
  · exact hcommit.clusters

end CvRegistry
