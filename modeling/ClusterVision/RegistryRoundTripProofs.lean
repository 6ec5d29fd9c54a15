import ClusterVision.FaultProofs
import ClusterVision.RegistrationProofs

/-! # What the registry gives back

    The table keeps the groups of a user in one column, joined by commas, and
    its times as times.  `to_dict` splits the column again, leaves empty texts
    out, and writes the times anew.  The main result says which records come
    back from the table as they were handed to `_update_registry`. -/

namespace CvRoundTrip

open CvProg CvTable CvIso CvKube CvBackend CvRegistry CvUsers CvRegistration

/-! ## The column of groups -/

/-- No piece of a split list has the separator. -/
theorem not_mem_of_mem_splitOn {α : Type} [DecidableEq α] {a : α} (xs : List α) :
    ∀ l ∈ xs.splitOn a, a ∉ l := by
  induction xs with
  | nil =>
      intro l hl
      rw [List.splitOn_nil] at hl
      rw [List.mem_singleton.mp hl]
      exact List.not_mem_nil
  | cons x xs ih =>
      intro l hl
      rw [List.splitOn_cons_eq_if_modifyHead] at hl
      split at hl
      · rcases List.mem_cons.mp hl with rfl | hl
        · exact List.not_mem_nil
        · exact ih l hl
      · rename_i hx
        have hne : a ≠ x := fun h => hx (beq_iff_eq.mpr h.symm)
        -- the first piece of the rest gets one element more
        cases hxs : xs.splitOn a with
        | nil => exact absurd hxs (List.splitOn_ne_nil a xs)
        | cons y ys =>
            rw [hxs] at hl ih
            rcases List.mem_cons.mp hl with rfl | hl
            · rw [List.mem_cons, not_or]
              exact ⟨hne, ih y (List.mem_cons_self ..)⟩
            · exact ih l (List.mem_cons_of_mem y hl)

/-- A group that a column of comma-separated groups can hold. -/
def CleanGroup (g : String) : Prop := g ≠ "" ∧ ',' ∉ g.toList

/-- What comes out of the column is clean. -/
theorem clean_splitGroups (groupsCsv : String) :
    ∀ g ∈ splitGroups groupsCsv, CleanGroup g := by
  intro g hg
  obtain ⟨hmem, hne⟩ := List.mem_filter.mp hg
  obtain ⟨l, hl, rfl⟩ := List.mem_map.mp hmem
  refine ⟨of_decide_eq_true hne, ?_⟩
  rw [String.toList_ofList]
  exact not_mem_of_mem_splitOn _ l hl

/-- Groups come back from the column exactly when they are clean. -/
theorem splitGroups_joinGroups_iff (groups : List String) :
    splitGroups (joinGroups groups) = groups ↔ ∀ g ∈ groups, CleanGroup g := by
  constructor
  · intro h g hg
    rw [← h] at hg
    exact clean_splitGroups _ g hg
  · intro hclean
    rw [splitGroups, joinGroups, String.toList_ofList]
    cases groups with
    | nil => rfl
    | cons g gs =>
        have hcommas : ∀ l ∈ (g :: gs).map String.toList, ',' ∉ l := by
          intro l hl
          obtain ⟨x, hx, rfl⟩ := List.mem_map.mp hl
          exact (hclean x hx).2
        rw [List.splitOn_intercalate ',' hcommas (List.cons_ne_nil _ _),
          List.map_map]
        have hid : (String.ofList ∘ String.toList) = id :=
          funext (fun s => String.ofList_toList)
        rw [hid, List.map_id, List.filter_eq_self]
        exact fun x hx => decide_eq_true (hclean x hx).1

/-! ## Times -/

/-- The instant of a timestamp with a time zone, in microseconds. -/
def instantOf (text : String) : Option Int := do
  let d ← fromisoformat text.toList
  let offset ← d.utcoffset
  pure ((d.fields.instant : Int) - offset)

/-- A stored time is the instant of the text that it was read from. -/
theorem instantOf_timeText {text : String} {d : Datetime}
    (h : fromisoformat text.toList = some d) :
    instantOf (timeText d) = instantOf text := by
  rw [instantOf, instantOf, toList_timeText,
    fromisoformat_of_proper (proper_of_fromisoformat h), h]

theorem parses_of_instantOf {text : String}
    (h : (instantOf text).isSome = true) :
    text ≠ "" ∧ ∃ d, fromisoformat text.toList = some d := by
  refine ⟨?_, ?_⟩
  · rintro rfl
    exact nomatch h
  · cases hparse : fromisoformat text.toList with
    | none =>
        rw [instantOf, hparse] at h
        exact nomatch h
    | some d => exact ⟨d, rfl⟩

/-! ## One record -/

/-- Two records say the same, whatever the texts of their times. -/
structure SameRecord (u v : RegistryEntry) : Prop where
  name : v.name = u.name
  type : v.type = u.type
  groups : v.groups = u.groups
  ns : v.ns = u.ns
  createdAt : instantOf v.createdAt = instantOf u.createdAt
  csrName : v.csrName = u.csrName
  certExpiry : v.certExpiry.map instantOf = u.certExpiry.map instantOf
  imported : v.imported = u.imported

theorem SameRecord.refl (u : RegistryEntry) : SameRecord u u :=
  ⟨rfl, rfl, rfl, rfl, rfl, rfl, rfl, rfl⟩

theorem SameRecord.key {u v : RegistryEntry} (h : SameRecord u v) :
    v.key = u.key := by
  rw [RegistryEntry.key, h.name, h.ns]
  rfl

/-- A record with timestamps that have a time zone. -/
structure Stamped (u : RegistryEntry) : Prop where
  createdAt : (instantOf u.createdAt).isSome = true
  certExpiry : ∀ text, u.certExpiry = some text →
    (instantOf text).isSome = true

theorem Stamped.readable {u : RegistryEntry} (h : Stamped u) : Readable u := by
  refine ⟨fun _ => ?_, fun text htext _ => ?_⟩
  · obtain ⟨-, d, hd⟩ := parses_of_instantOf h.createdAt
    rw [hd]
    exact nofun
  · obtain ⟨-, d, hd⟩ := parses_of_instantOf (h.certExpiry text htext)
    rw [hd]
    exact nofun

/-- The table can hold the record: its groups are clean, and the name of its
    signing request is not the empty text. -/
structure Storable (u : RegistryEntry) : Prop where
  groups : ∀ g ∈ u.groups, CleanGroup g
  csrName : u.csrName ≠ some ""

/-- What comes out of the table can go into it. -/
theorem storable_toDict (r : ManagedUser) : Storable (toDict r) := by
  refine ⟨clean_splitGroups _, ?_⟩
  show (if truthy r.csrName = true then r.csrName else none) ≠ some ""
  split
  · rename_i htruthy
    intro h
    rw [h] at htruthy
    exact nomatch htruthy
  · exact nofun

/-- An optional text comes back unless it is empty. -/
theorem truthy_or_none_iff (s : Option String) :
    (if truthy s = true then s else none) = s ↔ s ≠ some "" := by
  cases s with
  | none => exact iff_of_true rfl nofun
  | some text =>
      by_cases hempty : text = ""
      · rw [hempty]
        exact iff_of_false nofun (fun h => h rfl)
      · have htruthy : truthy (some text) = true := decide_eq_true hempty
        rw [if_pos htruthy]
        exact iff_of_true rfl (fun h => hempty (Option.some.inj h))

/-- A record comes back from its row exactly when the table can hold it. -/
theorem sameRecord_row_iff {u : RegistryEntry} {r : ManagedUser}
    (hu : Stamped u) (hrow : RowOf u r) :
    SameRecord u (toDict r) ↔ Storable u := by
  have hgroups : (toDict r).groups = splitGroups (joinGroups u.groups) := by
    rw [← hrow.groupsCsv]
    rfl
  have hcsr : (toDict r).csrName
      = if truthy u.csrName = true then u.csrName else none := by
    rw [← hrow.csrName]
    rfl
  constructor
  · intro h
    refine ⟨?_, ?_⟩
    · rw [← splitGroups_joinGroups_iff, ← hgroups]
      exact h.groups
    · rw [← truthy_or_none_iff, ← hcsr]
      exact h.csrName
  · intro h
    refine {
      name := hrow.name
      type := hrow.type
      groups := hgroups.trans ((splitGroups_joinGroups_iff _).mpr h.groups)
      ns := hrow.ns
      createdAt := ?_
      csrName := hcsr.trans ((truthy_or_none_iff _).mpr h.csrName)
      certExpiry := ?_
      imported := hrow.imported }
    · obtain ⟨hne, -⟩ := parses_of_instantOf hu.createdAt
      exact instantOf_timeText (hrow.createdAt hne)
    · show (r.certExpiry.map timeText).map instantOf = _
      cases hexpiry : u.certExpiry with
      | none =>
          rw [hrow.noExpiry hexpiry]
          rfl
      | some text =>
          obtain ⟨hne, d, hd⟩ :=
            parses_of_instantOf (hu.certExpiry text hexpiry)
          rw [hrow.certExpiry text hexpiry hne, hd]
          exact congrArg some (instantOf_timeText hd)

/-! ## An update -/

/-- Records that a `mutate` function may return: their keys are distinct, and
    their timestamps have a time zone. -/
structure Told (users : List RegistryEntry) : Prop where
  keys : (users.map RegistryEntry.key).Nodup
  stamped : ∀ u ∈ users, Stamped u

/-- The same records, up to their order. -/
def SameRecords (users loaded : List RegistryEntry) : Prop :=
  ∃ xs, xs.Perm loaded ∧ List.Forall₂ SameRecord users xs

/-- The statement writes the row of a key. -/
def writesRow (k : String × String) : DbWrite → Bool
  | .insertManagedUser r => decide (r.key = k)
  | .updateManagedUser r => decide (r.key = k)
  | .deleteManagedUser name ns => decide ((name, ns) = k)
  | _ => false

/-- No statement writes the row of a record that is as it was. -/
theorem writes_unchanged {before : EntryDict} {d : Database}
    {us : List RegistryEntry} {ws : List DbWrite} {v : RegistryEntry}
    (h : Writes before d us ws) (hkeys : (us.map RegistryEntry.key).Nodup)
    (hv : before.get v.key = some v) (hpresent : d.managedUsers.get v.key ≠ none)
    (hus : ∀ u ∈ us, u.key = v.key → u = v) :
    ∀ x ∈ ws, writesRow v.key x = false := by
  induction h with
  | nil => exact fun x hx => absurd hx List.not_mem_nil
  | @insert u r us ws absent row rest ih =>
      have hrest := ih (List.nodup_cons.mp hkeys).2
        (fun u' hu' => hus u' (List.mem_cons_of_mem u hu'))
      intro x hx
      rcases List.mem_cons.mp hx with rfl | hx
      · refine decide_eq_false (fun hkey => hpresent ?_)
        rw [← hkey, row.key]
        exact absent
      · exact hrest x hx
  | @update u r us ws present changed row rest ih =>
      have hrest := ih (List.nodup_cons.mp hkeys).2
        (fun u' hu' => hus u' (List.mem_cons_of_mem u hu'))
      intro x hx
      rcases List.mem_cons.mp hx with rfl | hx
      · refine decide_eq_false (fun hkey => changed ?_)
        rw [row.key] at hkey
        rw [hus u (List.mem_cons_self ..) hkey]
        exact hv
      · exact hrest x hx
  | @same u us ws unchanged rest ih =>
      exact ih (List.nodup_cons.mp hkeys).2
        (fun u' hu' => hus u' (List.mem_cons_of_mem u hu'))

/-- The records that are gone are others. -/
theorem deletions_unchanged {before after : EntryDict} {v : RegistryEntry}
    (hv : after.get v.key = some v) :
    ∀ x ∈ deletions before after, writesRow v.key x = false := by
  intro x hx
  obtain ⟨u, hu, rfl⟩ := List.mem_map.mp hx
  refine decide_eq_false (fun hkey => ?_)
  have hnone := (List.mem_filter.mp hu).2
  rw [show u.key = v.key from hkey, hv] at hnone
  exact nomatch hnone

/-- The last call of an update. -/
theorem calls_commit (writes : List DbWrite) (users : List RegistryEntry)
    (w : World) :
    (do
      db (.commit writes)
      pure users : Svc (List RegistryEntry)).calls handle w
      = [.db (.commit writes)] := by
  have hend : ∀ (r : Except Exn Unit) (w' : World),
      ((Prog.ofExcept r : Svc Unit) >>= fun _ => pure users).calls handle w'
        = [] := by
    intro r w'
    cases r with
    | ok u => rfl
    | error e => rfl
  exact congrArg (List.cons _) (hend _ _)

/-- An update commits once, at its end: the statements for the entries that
    are gone, and then those for the new ones. -/
theorem updateRegistry_commits {w : World} {users : List RegistryEntry}
    {mutate : List RegistryEntry → Except Exn (List RegistryEntry)}
    (hmutate : mutate (registryOf w.db).rows = .ok users) :
    ∀ op ∈ (updateRegistry mutate).calls handle w, ∀ writes,
      op = .db (.commit writes) →
        ∃ ws, writes = deletions (registryOf w.db) (entryDict users) ++ ws ∧
          Writes (registryOf w.db) w.db (entryDict users).rows ws := by
  have hload : loadRegistry.Uses NoCommit :=
    Prog.uses_bind (Prog.uses_perform nofun) (fun _ => trivial)
  have hloop : ∀ ws : List DbWrite, ((entryDict users).rows.foldlM
      (writeEntry (registryOf w.db)) ws).Uses NoCommit :=
    fun ws => Prog.uses_foldlM (fun writes u _ =>
      writeEntry_uses nofun (fun _ _ => nofun) _ writes u) ws
  intro op hop writes hcommit
  unfold updateRegistry at hop
  rw [Prog.calls_bind_ok (run_loadRegistry w), List.mem_append] at hop
  rcases hop with hop | hop
  · exact absurd hcommit (hload.calls handle w op hop writes)
  change op ∈ Prog.calls handle
    (Prog.ofExcept (mutate (registryOf w.db).rows)
      >>= storeEntries (registryOf w.db)) w at hop
  have hmut : (Prog.ofExcept (mutate (registryOf w.db).rows)
      : Svc (List RegistryEntry)).run handle w = (.ok users, w) := by
    rw [hmutate]
    rfl
  rw [Prog.calls_bind_ok hmut, List.mem_append] at hop
  rcases hop with hop | hop
  · rw [hmutate] at hop
    exact absurd hop List.not_mem_nil
  unfold storeEntries at hop
  rcases run_writeEntries (registryOf w.db) (entryDict users).rows
      (deletions (registryOf w.db) (entryDict users)) w with
    ⟨e, w₁, he, -, -⟩ | ⟨ws, w₁, hws, -, hwrites⟩
  · rw [Prog.calls_bind_error he] at hop
    exact absurd hcommit ((hloop _).calls handle w op hop writes)
  · rw [Prog.calls_bind_ok hws, List.mem_append] at hop
    rcases hop with hop | hop
    · exact absurd hcommit ((hloop _).calls handle w op hop writes)
    · refine ⟨ws, ?_, hwrites⟩
      rw [calls_commit, List.mem_singleton] at hop
      rw [hop] at hcommit
      cases hcommit
      rfl

/-- What `_update_registry` is for: it returns, the registry then has the
    records that `mutate` returned, and those that were there as they are have
    not been written. -/
structure StoresAsTold (w : World)
    (mutate : List RegistryEntry → Except Exn (List RegistryEntry))
    (users : List RegistryEntry) : Prop where
  returns : ((updateRegistry mutate).run handle w).1 = .ok users
  loaded : ∃ loaded, (loadRegistry.run handle
      ((updateRegistry mutate).run handle w).2).1 = .ok loaded ∧
    SameRecords users loaded
  unwritten : ∀ op ∈ (updateRegistry mutate).calls handle w, ∀ writes,
    op = .db (.commit writes) →
      ∀ u ∈ users, (registryOf w.db).get u.key = some u →
        ∀ x ∈ writes, writesRow u.key x = false

/-- Every record of an update has a row, which gives it back exactly when the
    table can hold it; and there are no other rows. -/
theorem rows_of_stores {w : World} {t : Users} {users : List RegistryEntry}
    (htold : Told users)
    (hstores : ∀ k, Stores w k ((entryDict users).get k) (t.get k)) :
    (∀ u ∈ users, ∃ r, t.get u.key = some r ∧
      (SameRecord u (toDict r) ↔ Storable u)) ∧
    ∀ r ∈ t.rows, ∃ u ∈ users, u.key = r.key := by
  have hrows := rows_entryDict htold.keys
  refine ⟨fun u hu => ?_, fun r hr => ?_⟩
  · have hget : (entryDict users).get u.key = some u :=
      Table.get_of_mem (hrows.symm ▸ hu)
    have h := hstores u.key
    rw [hget] at h
    rcases h with ⟨hsame, hold⟩ | ⟨-, r, hrow, hnew⟩
    · -- the record has been loaded, and its row is as it was
      rw [get_registryOf] at hsame
      obtain ⟨r, hr, rfl⟩ := Option.map_eq_some_iff.mp hsame
      refine ⟨r, hold.trans hr, ?_⟩
      exact iff_of_true (SameRecord.refl _) (storable_toDict r)
    · exact ⟨r, hnew, sameRecord_row_iff (htold.stamped u hu) hrow⟩
  · have h := hstores r.key
    rw [Table.get_of_mem hr] at h
    cases hget : (entryDict users).get r.key with
    | none =>
        rw [hget] at h
        exact nomatch h
    | some u =>
        have hu := Table.mem_of_get hget
        rw [hrows] at hu
        exact ⟨u, hu, Table.key_of_get hget⟩

/-- The rows give the records back, up to their order, exactly when the table
    can hold all of them. -/
theorem sameRecords_iff {t : Users} {users : List RegistryEntry}
    (htold : Told users)
    (hrow : ∀ u ∈ users, ∃ r, t.get u.key = some r ∧
      (SameRecord u (toDict r) ↔ Storable u))
    (hall : ∀ r ∈ t.rows, ∃ u ∈ users, u.key = r.key) :
    SameRecords users (t.rows.map toDict) ↔ ∀ u ∈ users, Storable u := by
  constructor
  · rintro ⟨xs, hperm, hsame⟩ u hu
    obtain ⟨v, hv, huv⟩ : ∃ v ∈ xs, SameRecord u v := by
      obtain ⟨i, hi, rfl⟩ := List.mem_iff_getElem.mp hu
      have hlen := hsame.length_eq
      have hi' : i < xs.length := hlen ▸ hi
      exact ⟨xs.get ⟨i, hi'⟩, List.get_mem xs ⟨i, hi'⟩,
        (List.forall₂_iff_get.mp hsame).2 i hi hi'⟩
    obtain ⟨r, hr, rfl⟩ := List.mem_map.mp (hperm.mem_iff.mp hv)
    obtain ⟨r', hr', hiff⟩ := hrow u hu
    have hkey : r.key = u.key := huv.key
    obtain rfl : r = r' := by
      rw [← hkey, Table.get_of_mem hr] at hr'
      exact Option.some.inj hr'
    exact hiff.mp huv
  · intro hstorable
    -- the records in the order of `users`, as they come back
    let back : RegistryEntry → RegistryEntry :=
      fun u => ((t.get u.key).map toDict).getD u
    have hback : ∀ u ∈ users, ∃ r ∈ t.rows, back u = toDict r ∧
        SameRecord u (back u) := by
      intro u hu
      obtain ⟨r, hr, hiff⟩ := hrow u hu
      have hbackr : back u = toDict r := by
        show ((t.get u.key).map toDict).getD u = _
        rw [hr]
        rfl
      refine ⟨r, Table.mem_of_get hr, hbackr, ?_⟩
      rw [hbackr]
      exact hiff.mpr (hstorable u hu)
    have hkeys : (users.map back).map RegistryEntry.key
        = users.map RegistryEntry.key := by
      rw [List.map_map]
      exact List.map_congr_left (fun u hu => by
        obtain ⟨r, -, -, hsame⟩ := hback u hu
        exact hsame.key)
    have hnodup : (users.map back).Nodup := by
      refine List.Nodup.of_map RegistryEntry.key ?_
      rw [hkeys]
      exact htold.keys
    have hnodup' : (t.rows.map toDict).Nodup := by
      refine List.Nodup.of_map RegistryEntry.key ?_
      rw [List.map_map]
      exact t.nodup
    refine ⟨users.map back, ?_, ?_⟩
    · refine (List.perm_ext_iff_of_nodup hnodup hnodup').mpr (fun x => ?_)
      constructor
      · intro hx
        obtain ⟨u, hu, rfl⟩ := List.mem_map.mp hx
        obtain ⟨r, hr, heq, -⟩ := hback u hu
        rw [heq]
        exact List.mem_map.mpr ⟨r, hr, rfl⟩
      · intro hx
        obtain ⟨r, hr, rfl⟩ := List.mem_map.mp hx
        obtain ⟨u, hu, hkey⟩ := hall r hr
        obtain ⟨r', hr', heq, -⟩ := hback u hu
        refine List.mem_map.mpr ⟨u, hu, ?_⟩
        show ((t.get u.key).map toDict).getD u = _
        rw [hkey, Table.get_of_mem hr]
        rfl
    · rw [List.forall₂_map_right_iff, List.forall₂_same]
      intro u hu
      obtain ⟨r, -, -, hsame⟩ := hback u hu
      exact hsame

/-- An update stores what it was told exactly when the table can hold every
    record. -/
theorem storesAsTold_iff (w : World)
    (mutate : List RegistryEntry → Except Exn (List RegistryEntry))
    (users : List RegistryEntry)
    (hmutate : mutate (registryOf w.db).rows = .ok users)
    (htold : Told users) :
    StoresAsTold w mutate users ↔ ∀ u ∈ users, Storable u := by
  have hrows := rows_entryDict htold.keys
  rcases run_updateRegistry mutate w with
    ⟨-, hrefused⟩ | ⟨users', t, hmutate', hcommit, hstores⟩
  · -- every record can be read, so that no update is refused
    exfalso
    rw [hmutate] at hrefused
    rcases hrefused with ⟨e, he⟩ | ⟨us, hus, u, hu, hnot⟩
    · cases he
    · obtain rfl := Except.ok.inj hus
      rw [hrows] at hu
      exact hnot (htold.stamped u hu).readable
  obtain rfl : users = users' := Except.ok.inj (hmutate.symm.trans hmutate')
  obtain ⟨hrow, hall⟩ := rows_of_stores htold hstores
  have hload : (loadRegistry.run handle
      ((updateRegistry mutate).run handle w).2).1
      = .ok (t.rows.map toDict) := by
    rw [run_loadRegistry, hcommit.db]
    rfl
  rw [← sameRecords_iff htold hrow hall]
  constructor
  · rintro ⟨-, ⟨loaded, hloaded, hsame⟩, -⟩
    obtain rfl := Except.ok.inj (hload.symm.trans hloaded)
    exact hsame
  · intro hsame
    refine ⟨hcommit.ok, ⟨_, hload, hsame⟩, ?_⟩
    intro op hop writes hwrites u hu hsame' x hx
    obtain ⟨ws, rfl, hws⟩ := updateRegistry_commits hmutate op hop writes
      hwrites
    have hafter : (entryDict users).get u.key = some u :=
      Table.get_of_mem (hrows.symm ▸ hu)
    rcases List.mem_append.mp hx with hx | hx
    · exact deletions_unchanged hafter x hx
    · refine writes_unchanged hws (hrows.symm ▸ htold.keys) hsame' ?_ ?_ x hx
      · intro hnone
        rw [get_registryOf, hnone] at hsame'
        cases hsame'
      · intro v hv hkey
        exact Table.eq_of_key hv (Table.mem_of_get hafter) hkey

/-- A user with a comma in the name of a group. -/
def commaUser : RegistryEntry where
  name := "ada"
  type := .certificate
  groups := ["dev,ops"]
  ns := "default"
  createdAt := "2024-01-01T00:00:00+00:00"

/-- The user may be registered. -/
theorem told_commaUser : Told [commaUser] := by
  refine ⟨List.nodup_singleton _, ?_⟩
  intro u hu
  obtain rfl := List.mem_singleton.mp hu
  exact ⟨by decide, nofun⟩

/-- The user in two groups. -/
def twoGroupsUser : RegistryEntry :=
  { commaUser with groups := ["dev", "ops"] }

/-- A new registry can be told about that one. -/
theorem storesAsTold_twoGroups :
    StoresAsTold World.fresh (fun _ => .ok [twoGroupsUser])
      [twoGroupsUser] := by
  have htold : Told [twoGroupsUser] := by
    refine ⟨List.nodup_singleton _, ?_⟩
    intro u hu
    obtain rfl := List.mem_singleton.mp hu
    exact ⟨by decide, nofun⟩
  refine (storesAsTold_iff World.fresh (fun _ => .ok [twoGroupsUser])
    [twoGroupsUser] rfl htold).mpr ?_
  intro u hu
  obtain rfl := List.mem_singleton.mp hu
  refine ⟨fun g hg => ?_, nofun⟩
  rcases List.mem_pair.mp hg with rfl | rfl
  · exact ⟨by decide, by decide⟩
  · exact ⟨by decide, by decide⟩

/-- The one with the comma comes back with two groups. -/
theorem comma_splits_group :
    ¬ ∀ (w : World)
      (mutate : List RegistryEntry → Except Exn (List RegistryEntry))
      (users : List RegistryEntry),
      mutate (registryOf w.db).rows = .ok users → Told users →
        StoresAsTold w mutate users := by
  intro hall
  obtain ⟨-, ⟨loaded, hloaded, xs, hperm, hsame⟩, -⟩ := hall World.fresh
    (fun _ => .ok [commaUser]) [commaUser] rfl told_commaUser
  have hloaded' : loaded = [{ commaUser with groups := ["dev", "ops"] }] :=
    Except.ok.inj (hloaded.symm.trans (by rfl))
  rw [hloaded'] at hperm
  rw [hperm.eq_singleton] at hsame
  obtain ⟨hrecord, -⟩ := List.forall₂_cons.mp hsame
  exact absurd hrecord.groups (by decide)

end CvRoundTrip
