import ClusterVision.SnapshotProofs
import ClusterVision.RegistryProofs
import ClusterVision.ClusterRegistryProofs
import ClusterVision.UserServices

/-! # Concurrent updates of the registries

    Every call of an update is one transaction's view of the database: a read
    sees what is committed, and the statements take effect when the update
    commits.  Both registries replay a whole snapshot, so the updates that run
    at the same time are sessions on one table.  They end as they do one after
    the other unless one of them finds a row gone that the other has removed:
    it takes it for a new one, and writes it again. -/

namespace CvConcurrent

open CvProg CvPool CvTable CvIso CvKube CvBackend CvReplay

/-! ## Managed users -/

section Users

open CvRegistry

/-- The row is written from the entry, and does not expire when the entry has
    an empty time. -/
structure StoredFrom (u : RegistryEntry) (r : ManagedUser) : Prop where
  row : RowOf u r
  emptyExpiry : u.certExpiry = some "" → r.certExpiry = none

/-- The rows of managed users and their dictionaries. -/
def userColumns : Columns ManagedUser.key RegistryEntry.key where
  entry := toDict
  rowOf := StoredFrom
  entry_key := toDict_key
  row_key _ _ h := h.row.key

/-- A statement on `managed_users`. -/
def userWrite : Stmt ManagedUser (String × String) → DbWrite
  | .insert r => .insertManagedUser r
  | .update r => .updateManagedUser r
  | .delete k => .deleteManagedUser k.1 k.2

theorem apply_userWrite {d : Database}
    {s : Stmt ManagedUser (String × String)}
    {t : Table ManagedUser ManagedUser.key}
    (h : s.run d.managedUsers = some t) :
    (userWrite s).apply d = .ok (withUsers d t) := by
  cases s with
  | insert r =>
      rw [Stmt.run] at h
      rw [userWrite, DbWrite.apply]
      cases hget : d.managedUsers.get r.key with
      | none =>
          rw [hget] at h
          rw [← Option.some.inj h]
          rfl
      | some old =>
          rw [hget] at h
          cases h
  | update r =>
      rw [Stmt.run] at h
      rw [userWrite, DbWrite.apply]
      cases hget : d.managedUsers.get r.key with
      | none =>
          rw [hget] at h
          cases h
      | some old =>
          rw [hget] at h
          rw [← Option.some.inj h]
          rfl
  | delete k =>
      rw [← Option.some.inj h]
      rfl

/-- The statements of an update of the users. -/
theorem applyWrites_userWrite (ss : List (Stmt ManagedUser (String × String)))
    {d : Database} {t : Table ManagedUser ManagedUser.key}
    (h : runAll d.managedUsers ss = some t) :
    applyWrites d (ss.map userWrite) = .ok (withUsers d t) :=
  CvCluster.applyWrites_stmts apply_userWrite (fun _ => rfl)
    (fun _ _ => rfl) (fun _ _ _ => rfl) ss h

/-- What a call tells about the managed users. -/
def observeUsers : (op : Op) → Except Exn (backend.Res op) →
    Obs ManagedUser (String × String)
  | .db .selectManagedUsers, .ok rows => .loaded rows
  | .db (.getManagedUser name ns), .ok row =>
      .found (name, ns) (Option.isSome (α := ManagedUser) row)
  | .db (.commit _), .ok _ => .committed
  | _, _ => .nothing

/-- The key that a call looks up. -/
def userKey : Op → Option (String × String)
  | .db (.getManagedUser name ns) => some (name, ns)
  | _ => none

/-- The calls on `managed_users`. -/
def userAccess : Access handle ManagedUser.key where
  table w := w.db.managedUsers
  Select op := op = .db .selectManagedUsers
  readKey := userKey
  Commit op ss := op = .db (.commit (ss.map userWrite))
  Idle op := op = .now
  observe := observeUsers
  select := by
    rintro op w rfl
    exact ⟨rfl, rfl⟩
  read := by
    intro op k w hop
    rw [userKey.eq_def] at hop
    split at hop
    · obtain rfl := Option.some.inj hop
      exact ⟨rfl, rfl⟩
    · exact nomatch hop
  commit := by
    rintro op ss w t rfl ht
    rw [handle_commit_ok (applyWrites_userWrite ss ht)]
    exact ⟨rfl, rfl⟩
  idle := by
    rintro op rfl
    exact ⟨fun _ => rfl, fun _ => rfl⟩

variable {edit : Edit Exn RegistryEntry}

/-- An update of the users is a session on their table. -/
abbrev userSession :
    Protocol backend Exn (Session Exn ManagedUser (String × String)
      RegistryEntry) :=
  session userAccess userColumns

/-- A part of an update that stays in its stage. -/
def Stays {α L : Type} (l : L) (P : α → Prop) (l' : L) (r : Except Exn α) :
    Prop :=
  l' = l ∧ ∀ a, r = .ok a → P a

theorem stays_error {α L : Type} {l : L} {P : α → Prop} {e : Exn} :
    Stays l P l (.error e) := by
  refine ⟨rfl, ?_⟩
  intro a h
  cases h

theorem follows_parseTime {l : Session Exn ManagedUser (String × String)
    RegistryEntry} (text : String) :
    Follows userSession (CvRegistry.parseTime text) l
      (Stays l (fun d => fromisoformat text.toList = some d)) := by
  rw [CvRegistry.parseTime]
  cases fromisoformat text.toList with
  | none => exact follows_throw stays_error
  | some d =>
      refine follows_pure ⟨rfl, ?_⟩
      rintro d' ⟨⟩
      rfl

theorem follows_createdAtColumn {l : Session Exn ManagedUser
    (String × String) RegistryEntry} (text : String) :
    Follows userSession (createdAtColumn text) l
      (Stays l (fun d => text ≠ "" → fromisoformat text.toList = some d)) := by
  rw [createdAtColumn]
  by_cases htext : text = ""
  · rw [if_pos htext]
    refine follows_bind (follows_idle rfl ?_)
    intro r
    cases r with
    | error e => exact stays_error
    | ok t =>
        rw [AfterOk]
        exact follows_pure ⟨rfl, fun _ _ hne => absurd htext hne⟩
  · rw [if_neg htext]
    refine Follows.imp ?_ (follows_parseTime text)
    rintro l' r ⟨rfl, hd⟩
    exact ⟨rfl, fun d hr _ => hd d hr⟩

/-- What the column of an expiry holds. -/
structure ExpiryOf (text : Option String) (d : Option Datetime) : Prop where
  absent : text = none → d = none
  empty : text = some "" → d = none
  parsed : ∀ t, text = some t → t ≠ "" → d = fromisoformat t.toList

theorem follows_certExpiryColumn {l : Session Exn ManagedUser
    (String × String) RegistryEntry} (text : Option String) :
    Follows userSession (certExpiryColumn text) l
      (Stays l (ExpiryOf text)) := by
  cases text with
  | none =>
      refine follows_pure ⟨rfl, ?_⟩
      rintro d ⟨⟩
      refine ⟨fun _ => rfl, ?_, ?_⟩
      · rintro ⟨⟩
      · rintro t ⟨⟩
  | some text =>
      rw [certExpiryColumn]
      by_cases htext : text = ""
      · rw [if_pos htext]
        refine follows_pure ⟨rfl, ?_⟩
        rintro d ⟨⟩
        refine ⟨?_, fun _ => rfl, ?_⟩
        · rintro ⟨⟩
        · rintro t ⟨⟩ hne
          exact absurd htext hne
      · rw [if_neg htext]
        refine follows_bind (Follows.imp ?_ (follows_parseTime text))
        rintro l' r ⟨rfl, hd⟩
        cases r with
        | error e => exact stays_error
        | ok d =>
            rw [AfterOk]
            refine follows_pure ⟨rfl, ?_⟩
            rintro d' ⟨⟩
            refine ⟨?_, ?_, ?_⟩
            · rintro ⟨⟩
            · rintro ⟨⟩
              exact absurd rfl htext
            · rintro t ⟨⟩ -
              exact (hd d rfl).symm

/-- The row of an entry, when its times can be read. -/
theorem follows_columns {l : Session Exn ManagedUser (String × String)
    RegistryEntry} (u : RegistryEntry) :
    Follows userSession (columns u) l (Stays l (StoredFrom u)) := by
  rw [columns]
  refine follows_bind (Follows.imp ?_ (follows_createdAtColumn u.createdAt))
  rintro l' r ⟨rfl, hcreated⟩
  cases r with
  | error e => exact stays_error
  | ok createdAt =>
      refine follows_bind (Follows.imp ?_ (follows_certExpiryColumn
        u.certExpiry))
      rintro l' r ⟨rfl, hexpiry⟩
      cases r with
      | error e => exact stays_error
      | ok certExpiry =>
          rw [AfterOk]
          refine follows_pure ⟨rfl, ?_⟩
          rintro row ⟨⟩
          have hcertExpiry := hexpiry certExpiry rfl
          exact {
            row := {
              name := rfl
              ns := rfl
              type := rfl
              groupsCsv := rfl
              createdAt := hcreated createdAt rfl
              csrName := rfl
              certExpiry := hcertExpiry.parsed
              noExpiry := hcertExpiry.absent
              imported := rfl }
            emptyExpiry := hcertExpiry.empty }

/-- The body of the loop over the new entries. -/
theorem follows_writeEntry {rows : List ManagedUser} (before : EntryDict)
    (ws : List DbWrite) (u : RegistryEntry)
    (seen : List ((String × String) × Bool)) :
    Follows userSession (writeEntry before ws u) ⟨edit, .working rows seen⟩
      (Collected userColumns edit before.get userWrite rows seen [u] ws) := by
  rw [writeEntry]
  refine follows_bind (Follows.imp ?_ (follows_columns u))
  rintro l r ⟨rfl, hrow⟩
  cases r with
  | error e => exact collected_error
  | ok row =>
      refine follows_bind (follows_perform ?_ ?_)
      · exact Or.inr (Or.inl ⟨u.key, rfl⟩)
      intro r
      cases r with
      | error e => exact collected_error
      | ok existing =>
          show Follows userSession _ ⟨edit, .working rows (seen ++
            [(u.key, Option.isSome existing)])⟩
            (Collected userColumns edit before.get userWrite rows seen [u] ws)
          refine follows_stmt (c := userColumns) before.get userWrite
            (hrow row rfl) ?_
          cases existing with
          | none => rfl
          | some old => rfl

/-- The keys of the entries that are gone. -/
def goneKeys (before after : EntryDict) : List (String × String) :=
  (before.rows.filter (fun u => (after.get u.key).isNone)).map
    RegistryEntry.key

theorem mem_goneKeys {before after : EntryDict} {k : String × String} :
    k ∈ goneKeys before after ↔ before.get k ≠ none ∧ after.get k = none := by
  rw [goneKeys, List.mem_map]
  constructor
  · rintro ⟨u, hu, rfl⟩
    obtain ⟨hmem, hnone⟩ := List.mem_filter.mp hu
    rw [Table.get_of_mem hmem]
    exact ⟨Option.some_ne_none u, Option.isNone_iff_eq_none.mp hnone⟩
  · rintro ⟨hthere, hnone⟩
    obtain ⟨u, hu⟩ := Option.ne_none_iff_exists'.mp hthere
    obtain rfl := Table.key_of_get hu
    exact ⟨u, List.mem_filter.mpr ⟨Table.mem_of_get hu,
      Option.isNone_iff_eq_none.mpr hnone⟩, rfl⟩

theorem deletions_eq (before after : EntryDict) :
    deletions before after
      = ((goneKeys before after).map Stmt.delete).map userWrite := by
  rw [goneKeys, List.map_map, List.map_map]
  rfl

/-- The part of an update that follows `mutate`. -/
theorem follows_storeEntries {rows : List ManagedUser}
    {out : List RegistryEntry}
    (hout : edit (entryDict (rows.map toDict)).rows = .ok out) :
    Follows userSession (storeEntries (entryDict (rows.map toDict)) out)
      ⟨edit, .working rows []⟩ CvReplay.Committed := by
  rw [storeEntries]
  refine follows_bind (Follows.imp ?_ (follows_collect
    (fun ws u seen => follows_writeEntry _ ws u seen) _ _ []))
  intro l r hloop
  cases r with
  | error e => exact committed_error
  | ok ws =>
      obtain ⟨seen, ss, rfl, -, rfl, hreplay⟩ := hloop ws rfl
      refine follows_bind (follows_perform ?_ ?_)
      · refine Or.inr (Or.inr ⟨(goneKeys (entryDict (rows.map toDict))
          (entryDict out)).map Stmt.delete ++ ss, ?_, out, _, ss, hout, rfl,
          hreplay, ?_, ?_⟩)
        · show _ = Op.db (.commit (List.map userWrite (_ ++ ss)))
          rw [deletions_eq, ← List.map_append]
        · exact fun k hk => mem_goneKeys.mp hk
        · exact fun k hthere hnone => Or.inl (mem_goneKeys.mpr ⟨hthere, hnone⟩)
      · intro r
        cases r with
        | error e => exact committed_error
        | ok u =>
            rw [AfterOk]
            exact follows_pure (fun _ _ => rfl)

/-- `_update_registry` is a session. -/
theorem follows_updateRegistry (mutate : Edit Exn RegistryEntry) :
    Follows userSession (updateRegistry mutate) ⟨mutate, .start⟩
      CvReplay.Committed := by
  rw [updateRegistry, loadRegistry]
  refine follows_bind (follows_bind (follows_perform (Or.inl rfl) ?_))
  intro r
  cases r with
  | error e => exact committed_error
  | ok rows =>
      show Follows userSession (Prog.ofExcept (mutate
          (entryDict (List.map toDict rows)).rows)
        >>= storeEntries (entryDict (List.map toDict rows)))
        ⟨mutate, .working rows []⟩ _
      cases hout : mutate (entryDict (List.map toDict rows)).rows with
      | error e => exact committed_error
      | ok out => exact follows_storeEntries hout

/-- Rows of users that differ in the time of their creation at most, and only
    when the entry that they were written from has none. -/
def SameUser (r r' : Option ManagedUser) : Prop :=
  r = r' ∨ ∃ u a a', u.createdAt = "" ∧ StoredFrom u a ∧ StoredFrom u a' ∧
    r = some a ∧ r' = some a' ∧ { a with createdAt := a'.createdAt } = a'

theorem StoredFrom.certExpiry_eq {u : RegistryEntry} {a a' : ManagedUser}
    (h : StoredFrom u a) (h' : StoredFrom u a') :
    a.certExpiry = a'.certExpiry := by
  cases hexpiry : u.certExpiry with
  | none => rw [h.row.noExpiry hexpiry, h'.row.noExpiry hexpiry]
  | some text =>
      by_cases htext : text = ""
      · rw [htext] at hexpiry
        rw [h.emptyExpiry hexpiry, h'.emptyExpiry hexpiry]
      · rw [h.row.certExpiry text hexpiry htext,
          h'.row.certExpiry text hexpiry htext]

/-- Two rows of an entry, but for the times of their creation. -/
theorem StoredFrom.eq {u : RegistryEntry} {a a' : ManagedUser}
    (h : StoredFrom u a) (h' : StoredFrom u a') :
    { a with createdAt := a'.createdAt } = a' := by
  have hexpiry := h.certExpiry_eq h'
  cases h with
  | mk hrow =>
      cases h' with
      | mk hrow' =>
          cases a
          cases a'
          simp only [ManagedUser.mk.injEq] at hexpiry ⊢
          exact ⟨hrow.name.trans hrow'.name.symm, hrow.ns.trans hrow'.ns.symm,
            hrow.type.trans hrow'.type.symm,
            hrow.groupsCsv.trans hrow'.groupsCsv.symm, trivial,
            hrow.csrName.trans hrow'.csrName.symm, hexpiry,
            hrow.imported.trans hrow'.imported.symm⟩

theorem sameUser_of_sameRow {r r' : Option ManagedUser}
    (h : userColumns.SameRow r r') : SameUser r r' := by
  rcases h with h | ⟨u, a, a', ha, ha', rfl, rfl⟩
  · exact Or.inl h
  · by_cases hcreated : u.createdAt = ""
    · exact Or.inr ⟨u, a, a', hcreated, ha, ha', rfl, rfl,
        StoredFrom.eq ha ha'⟩
    · have htime : a.createdAt = a'.createdAt := by
        have hread := ha.row.createdAt hcreated
        rw [ha'.row.createdAt hcreated] at hread
        exact (Option.some.inj hread).symm
      refine Or.inl (congrArg some ?_)
      have heq := StoredFrom.eq ha ha'
      rw [← htime] at heq
      exact heq

/-- Adding a user edits the keys of those who would be in the way. -/
theorem actsOn_appendUnless {own : String × String → Prop}
    {taken : RegistryEntry → Bool} {user : RegistryEntry}
    (htaken : ∀ u, taken u = true → own u.key) (huser : own user.key) :
    ActsOn RegistryEntry.key own (CvUsers.appendUnless taken user) := by
  have happend : ActsOn (ε := Exn) RegistryEntry.key own
    (fun us => .ok (us ++ [user])) := actsOn_append huser
  exact happend.unless htaken (Exn.userAlreadyExistsError user.name)

/-- Removing users edits their keys. -/
theorem actsOn_removeIf {own : String × String → Prop}
    {gone : RegistryEntry → Bool} (hgone : ∀ u, gone u = true → own u.key) :
    ActsOn RegistryEntry.key own (CvUsers.removeIf gone) :=
  actsOn_filter (fun u hu => hgone u (by simpa using hu))

end Users

/-! ## Registered clusters -/

section Clusters

open CvCluster

/-- The dictionary of a cluster is its row. -/
def clusterColumns :
    Columns RegisteredCluster.name RegisteredCluster.name where
  entry c := c
  rowOf c r := r = c
  entry_key _ := rfl
  row_key _ _ h := congrArg RegisteredCluster.name h

theorem eq_of_sameRow {r r' : Option RegisteredCluster}
    (h : clusterColumns.SameRow r r') : r = r' := by
  rcases h with h | ⟨c, a, a', rfl, rfl, rfl, rfl⟩
  · exact h
  · rfl

/-- What a call tells about the registered clusters. -/
def observeClusters : (op : Op) → Except Exn (backend.Res op) →
    Obs RegisteredCluster String
  | .db .selectRegisteredClusters, .ok rows => .loaded rows
  | .db (.getRegisteredCluster name), .ok row =>
      .found name (Option.isSome (α := RegisteredCluster) row)
  | .db (.commit _), .ok _ => .committed
  | _, _ => .nothing

/-- The name that a call looks up. -/
def clusterKey : Op → Option String
  | .db (.getRegisteredCluster name) => some name
  | _ => none

/-- The calls on `registered_clusters`. -/
def clusterAccess : Access handle RegisteredCluster.name where
  table w := w.db.registeredClusters
  Select op := op = .db .selectRegisteredClusters
  readKey := clusterKey
  Commit op ss := op = .db (.commit (ss.map clusterWrite))
  Idle op := op = .db .close
  observe := observeClusters
  select := by
    rintro op w rfl
    exact ⟨rfl, rfl⟩
  read := by
    intro op k w hop
    rw [clusterKey.eq_def] at hop
    split at hop
    · obtain rfl := Option.some.inj hop
      exact ⟨rfl, rfl⟩
    · exact nomatch hop
  commit := by
    rintro op ss w t rfl ht
    rw [handle_commit_ok (applyWrites_clusterWrite ss ht)]
    exact ⟨rfl, rfl⟩
  idle := by
    rintro op rfl
    exact ⟨fun _ => rfl, fun _ => rfl⟩

variable {edit : Edit Exn RegisteredCluster} {rows : List RegisteredCluster}

/-- An update of the clusters is a session on their table. -/
abbrev clusterSession :
    Protocol backend Exn (Session Exn RegisteredCluster String
      RegisteredCluster) :=
  session clusterAccess clusterColumns

/-- The body of the loop over the new configurations. -/
theorem follows_writeConfig (before : ConfigDict) (ws : List DbWrite)
    (cfg : RegisteredCluster) (seen : List (String × Bool)) :
    Follows clusterSession (writeConfig before ws cfg)
      ⟨edit, .working rows seen⟩
      (Collected clusterColumns edit before.get clusterWrite rows seen [cfg]
        ws) := by
  rw [writeConfig]
  refine follows_bind (follows_perform ?_ ?_)
  · exact Or.inr (Or.inl ⟨cfg.name, rfl⟩)
  intro r
  cases r with
  | error e => exact collected_error
  | ok existing =>
      show Follows clusterSession _ ⟨edit, .working rows (seen ++
        [(cfg.name, Option.isSome existing)])⟩
        (Collected clusterColumns edit before.get clusterWrite rows seen [cfg]
          ws)
      refine follows_stmt (c := clusterColumns) before.get clusterWrite rfl ?_
      cases existing with
      | none => rfl
      | some old => rfl

/-- What the loop over the names that are gone has collected: the names that
    it found. -/
def Deleting (edit : Edit Exn RegisteredCluster)
    (rows : List RegisteredCluster) (seen : List (String × Bool))
    (names : List String) (ws : List DbWrite)
    (l : Session Exn RegisteredCluster String RegisteredCluster)
    (r : Except Exn (List DbWrite)) : Prop :=
  ∀ ws', r = .ok ws' → ∃ (seen' : List (String × Bool)) (ks : List String),
    l = ⟨edit, .working rows seen'⟩ ∧ (∀ x ∈ seen, x ∈ seen') ∧
    ws' = ws ++ (ks.map Stmt.delete).map clusterWrite ∧
    (∀ k ∈ ks, k ∈ names) ∧ ∀ k ∈ names, k ∈ ks ∨ (k, false) ∈ seen'

theorem deleting_error {seen : List (String × Bool)} {names : List String}
    {ws : List DbWrite}
    {l : Session Exn RegisteredCluster String RegisteredCluster} {e : Exn} :
    Deleting edit rows seen names ws l (.error e) := by
  intro ws' h
  cases h

/-- The body of the loop over the names that are gone. -/
theorem follows_deleteConfig (ws : List DbWrite) (name : String)
    (seen : List (String × Bool)) :
    Follows clusterSession (deleteConfig ws name) ⟨edit, .working rows seen⟩
      (Deleting edit rows seen [name] ws) := by
  rw [deleteConfig]
  refine follows_bind (follows_perform ?_ ?_)
  · exact Or.inr (Or.inl ⟨name, rfl⟩)
  intro r
  cases r with
  | error e => exact deleting_error
  | ok existing =>
      have hsub : ∀ x ∈ seen, x ∈ seen ++
          [(name, Option.isSome (α := RegisteredCluster) existing)] :=
        fun x hx => List.mem_append_left _ hx
      show Follows clusterSession _ ⟨edit, .working rows (seen ++
        [(name, Option.isSome existing)])⟩ _
      cases existing with
      | none =>
          refine follows_pure ?_
          rintro ws' ⟨⟩
          refine ⟨_, [], rfl, hsub, (List.append_nil ws).symm,
            fun _ hk => absurd hk List.not_mem_nil, ?_⟩
          intro k hk
          rw [List.mem_singleton.mp hk]
          exact Or.inr (List.mem_append_right _ List.mem_cons_self)
      | some old =>
          refine follows_pure ?_
          rintro ws' ⟨⟩
          exact ⟨_, [name], rfl, hsub, rfl, fun _ hk => hk,
            fun _ hk => Or.inl hk⟩

theorem follows_deleteConfigs (names : List String) :
    ∀ (ws : List DbWrite) (seen : List (String × Bool)),
      Follows clusterSession (names.foldlM deleteConfig ws)
        ⟨edit, .working rows seen⟩ (Deleting edit rows seen names ws) := by
  induction names with
  | nil =>
      intro ws seen
      refine follows_pure ?_
      rintro ws' ⟨⟩
      exact ⟨seen, [], rfl, fun _ hx => hx, (List.append_nil ws).symm,
        fun _ hk => absurd hk List.not_mem_nil,
        fun _ hk => absurd hk List.not_mem_nil⟩
  | cons name names ih =>
      intro ws seen
      rw [List.foldlM_cons]
      refine follows_bind (Follows.imp ?_ (follows_deleteConfig ws name seen))
      intro l r hfirst
      cases r with
      | error x => exact deleting_error
      | ok ws₁ =>
          obtain ⟨seen₁, ks₁, rfl, hsub₁, rfl, hks₁, hall₁⟩ := hfirst ws₁ rfl
          refine Follows.imp ?_ (ih (ws ++ _) seen₁)
          intro l r hrest ws' hr
          obtain ⟨seen₂, ks₂, hl, hsub₂, rfl, hks₂, hall₂⟩ := hrest ws' hr
          refine ⟨seen₂, ks₁ ++ ks₂, hl, fun x hx => hsub₂ x (hsub₁ x hx),
            ?_, ?_, ?_⟩
          · rw [List.map_append, List.map_append, List.append_assoc]
          · intro k hk
            rcases List.mem_append.mp hk with hk | hk
            · exact List.mem_append_left names (hks₁ k hk)
            · exact List.mem_cons_of_mem name (hks₂ k hk)
          · intro k hk
            rcases List.mem_cons.mp hk with rfl | hk
            · rcases hall₁ k List.mem_cons_self with hk | hk
              · exact Or.inl (List.mem_append_left _ hk)
              · exact Or.inr (hsub₂ _ hk)
            · rcases hall₂ k hk with hk | hk
              · exact Or.inl (List.mem_append_right _ hk)
              · exact Or.inr hk

theorem mem_removedNames {before after : ConfigDict} {k : String} :
    k ∈ removedNames before after ↔
      before.get k ≠ none ∧ after.get k = none := by
  rw [removedNames, List.mem_filter, Table.mem_keys_iff,
    Option.isNone_iff_eq_none]

/-- Closing the session of the database. -/
theorem follows_close {β : Type}
    {l : Session Exn RegisteredCluster String RegisteredCluster}
    {Q : Session Exn RegisteredCluster String RegisteredCluster →
      Except Exn β → Prop} {r : Except Exn β}
    (hok : Q l r) (herror : ∀ e, Q l (.error e)) :
    AfterAll clusterSession (db .close) Q l r := by
  refine follows_idle rfl ?_
  intro r'
  cases r' with
  | ok u => exact hok
  | error e => exact herror e

/-- The part of an update that follows `mutate`. -/
theorem follows_storeConfigs {out : List RegisteredCluster}
    (hout : edit (configDict rows).rows = .ok out) :
    Follows clusterSession (do
      let deletes ← (removedNames (configDict rows) (configDict out)).foldlM
        deleteConfig []
      let writes ← (configDict out).rows.foldlM (writeConfig (configDict rows))
        deletes
      db (.commit writes)) ⟨edit, .working rows []⟩ CvReplay.Committed := by
  have hdict : dictOf RegisteredCluster.name
      (rows.map clusterColumns.entry) = configDict rows :=
    congrArg configDict (List.map_id rows)
  refine follows_bind (Follows.imp ?_ (follows_deleteConfigs _ _ _))
  intro l r hdeletes
  cases r with
  | error e => exact committed_error
  | ok deletes =>
      obtain ⟨seen₁, ks, rfl, -, rfl, hks, hall⟩ := hdeletes deletes rfl
      refine follows_bind (Follows.imp ?_ (follows_collect
        (fun ws cfg seen => follows_writeConfig _ ws cfg seen) _ _ seen₁))
      intro l r hwrites
      cases r with
      | error e => exact committed_error
      | ok writes =>
          obtain ⟨seen₂, ss, rfl, hsub, rfl, hreplay⟩ := hwrites writes rfl
          refine follows_perform ?_ ?_
          · refine Or.inr (Or.inr ⟨ks.map Stmt.delete ++ ss, ?_, out, ks, ss,
              ?_, rfl, ?_, ?_, ?_⟩)
            · show _ = Op.db (.commit (List.map clusterWrite (_ ++ ss)))
              rw [List.map_append]
              rfl
            · rw [hdict]
              exact hout
            · rw [hdict]
              exact hreplay
            · intro k hk
              rw [hdict]
              exact mem_removedNames.mp (hks k hk)
            · intro k hthere hnone
              rw [hdict] at hthere
              rcases hall k (mem_removedNames.mpr ⟨hthere, hnone⟩) with hk | hk
              · exact Or.inl hk
              · exact Or.inr (hsub _ hk)
          · intro r
            cases r with
            | error e => exact committed_error
            | ok u => exact fun _ _ => rfl

/-- `_update_configs` is a session. -/
theorem follows_updateConfigs (mutate : Edit Exn RegisteredCluster) :
    Follows clusterSession (updateConfigs mutate) ⟨mutate, .start⟩
      CvReplay.Committed := by
  rw [updateConfigs]
  refine follows_ensuring (Follows.imp
    (fun l r h => follows_close h (fun _ => committed_error)) ?_)
  refine follows_bind ?_
  rw [loadConfigs]
  refine follows_ensuring (follows_perform (Or.inl rfl) ?_)
  intro r
  cases r with
  | error e => exact follows_close committed_error (fun _ => committed_error)
  | ok rows =>
      refine follows_close ?_ (fun _ => committed_error)
      show Follows clusterSession (Prog.ofExcept (mutate
          (configDict rows).rows) >>= _) ⟨mutate, .working rows []⟩ _
      cases hout : mutate (configDict rows).rows with
      | error e => exact committed_error
      | ok out => exact follows_storeConfigs hout

/-- Adding a cluster edits its name. -/
theorem actsOn_appendConfig (c : RegisteredCluster) :
    ActsOn RegisteredCluster.name (fun name => name = c.name)
      (appendConfig c) := by
  have happend : ActsOn (ε := Exn) RegisteredCluster.name
    (fun name => name = c.name) (fun cs => .ok (cs ++ [c])) :=
    actsOn_append rfl
  exact happend.unless (fun _ hd => of_decide_eq_true hd)
    (Exn.valueError ("Cluster '" ++ c.name ++ "' already exists"))

/-- Removing a cluster edits its name. -/
theorem actsOn_removeConfig (name : String) :
    ActsOn RegisteredCluster.name (fun n => n = name) (removeConfig name) :=
  (actsOn_filter (fun d hd => by simpa using hd)).onlyIf
    (fun _ hd => of_decide_eq_true hd) _

end Clusters

/-! ## Both registries -/

section Both

open CvRegistry CvCluster CvUsers

/-- An update of the users is refused when it means to write an entry with a
    time that cannot be read. -/
def Unreadable (edit : Edit Exn RegistryEntry) (w : World) : Prop :=
  ∃ out, edit (registryOf w.db).rows = .ok out ∧
    ∃ u ∈ (entryDict out).rows, ¬ Readable u

theorem finish_updateRegistry (edit : Edit Exn RegistryEntry) (w : World)
    (out : List RegistryEntry)
    (hout : edit (userColumns.entries w.db.managedUsers).rows = .ok out) :
    Unreadable edit w ∨
      ∃ b w', (updateRegistry edit).run handle w = (.ok b, w') := by
  have hrows : (userColumns.entries w.db.managedUsers).rows
      = (registryOf w.db).rows := (rows_registryOf w.db).symm
  rw [hrows] at hout
  rcases run_updateRegistry edit w with
    ⟨-, ⟨e, herror⟩ | hrefused⟩ | ⟨users, t, -, hcommit, -⟩
  · rw [hout] at herror
    exact nomatch herror
  · exact Or.inl hrefused
  · exact Or.inr ⟨users, _, Prod.ext hcommit.ok rfl⟩

theorem finish_updateConfigs (edit : Edit Exn RegisteredCluster) (w : World)
    (out : List RegisteredCluster)
    (hout : edit (clusterColumns.entries w.db.registeredClusters).rows
      = .ok out) :
    ∃ b w', (updateConfigs edit).run handle w = (.ok b, w') := by
  have hrows : (clusterColumns.entries w.db.registeredClusters).rows
      = w.db.registeredClusters.rows := List.map_id _
  rw [hrows] at hout
  rcases run_updateConfigs edit w with ⟨e, herror, -⟩ | ⟨cfgs, t, -, hrun, -⟩
  · rw [hout] at herror
    exact nomatch herror
  · exact ⟨(), _, hrun⟩

/-- An entry of a certificate user whose creation is not dated. -/
def certUser (name : String) : RegistryEntry :=
  ⟨name, .certificate, [], "default", "", none, none, false⟩

/-- Ada's row. -/
def adaRow : ManagedUser :=
  ⟨"ada", "default", .certificate, "", utc Time.epoch, none, none, false⟩

/-- Ada is removed, and bob is added. -/
def adaLeaves (second : Bool) : Edit Exn RegistryEntry :=
  if second = true then
    appendUnless (fun u => decide (u.name = "bob")) (certUser "bob")
  else removeIf (fun u => decide (u.name = "ada"))

/-- The users' names that an update of the two is about. -/
def adasOrBobs (second : Bool) (k : String × String) : Prop :=
  k.1 = if second = true then "bob" else "ada"

theorem actsOn_adaLeaves (second : Bool) :
    ActsOn RegistryEntry.key (adasOrBobs second) (adaLeaves second) := by
  cases second with
  | true =>
      refine actsOn_appendUnless ?_ rfl
      intro u hu
      exact (of_decide_eq_true hu : u.name = "bob")
  | false =>
      refine actsOn_removeIf ?_
      intro u hu
      exact (of_decide_eq_true hu : u.name = "ada")

theorem apart_adasOrBobs (k : String × String) :
    ¬ (adasOrBobs false k ∧ adasOrBobs true k) := by
  rintro ⟨hada, hbob⟩
  exact absurd (hada.symm.trans hbob) (by decide)

/-- A cluster with a token. -/
def clusterNamed (name : String) : RegisteredCluster :=
  ⟨name, "https://" ++ name, "ca", "token"⟩

/-- Cluster "a" is removed, and cluster "b" is added. -/
def aLeaves (second : Bool) : Edit Exn RegisteredCluster :=
  if second = true then appendConfig (clusterNamed "b") else removeConfig "a"

/-- The cluster that an update of the two is about. -/
def aOrB (second : Bool) (name : String) : Prop :=
  name = if second = true then "b" else "a"

theorem actsOn_aLeaves (second : Bool) :
    ActsOn RegisteredCluster.name (aOrB second) (aLeaves second) := by
  cases second with
  | true => exact actsOn_appendConfig (clusterNamed "b")
  | false => exact actsOn_removeConfig "a"

theorem apart_aOrB (name : String) :
    ¬ (aOrB false name ∧ aOrB true name) := by
  rintro ⟨ha, hb⟩
  exact absurd (ha.symm.trans hb) (by decide)

/-- A world with ada and with cluster "a". -/
def adasWorld : World :=
  World.fresh.setDb (withConfigs (withUsers Database.fresh
    (Table.empty.put adaRow)) (Table.empty.put (clusterNamed "a")))

/-- Two concurrent updates of the users, or of the clusters, that edit
    different keys and both commit, end as they do one after the other, in
    either order, when neither looks up a key that is not its own and finds
    its row gone. -/
theorem updates_serialize (w : World) :
    Serializes userAccess userColumns updateRegistry SameUser Unreadable
        (Undisturbed userAccess) w ∧
      Serializes clusterAccess clusterColumns updateConfigs Eq
        (fun _ _ => False) (Undisturbed clusterAccess) w :=
  ⟨serializes follows_updateRegistry (fun _ _ => sameUser_of_sameRow)
      finish_updateRegistry w,
    serializes follows_updateConfigs (fun _ _ => eq_of_sameRow)
      (fun edit w out hout => Or.inr (finish_updateConfigs edit w out hout))
      w⟩

instance (second : Bool) (k : String × String) :
    Decidable (adasOrBobs second k) :=
  inferInstanceAs (Decidable (k.1 = _))

instance (second : Bool) (name : String) : Decidable (aOrB second name) :=
  inferInstanceAs (Decidable (name = _))

/-- Ada and cluster "a" are removed while bob and cluster "b" are added: each
    update looks all its keys up before the other commits. -/
theorem updates_serialize_apart :
    (∃ tr p, Run (answersOf handle)
        ⟨fun i => updateRegistry (adaLeaves i), adasWorld⟩ tr p ∧
      InOrder userAccess userColumns updateRegistry SameUser Unreadable
        adasOrBobs adaLeaves adasWorld p.shared) ∧
    ∃ tr p, Run (answersOf handle)
        ⟨fun i => updateConfigs (aLeaves i), adasWorld⟩ tr p ∧
      InOrder clusterAccess clusterColumns updateConfigs Eq
        (fun _ _ => False) aOrB aLeaves adasWorld p.shared := by
  constructor
  · obtain ⟨tr, p, hrun, hend⟩ := run_of_handler handle
      ⟨fun i => updateRegistry (adaLeaves i), adasWorld⟩
      [true, true, true, true, false, false, true]
      (fun tr p => decide (∀ e ∈ tr, Undisturbed userAccess adasOrBobs e) &&
        (returned (p.threads false) && returned (p.threads true))) (by decide)
    rw [Bool.and_eq_true] at hend
    exact ⟨tr, p, hrun, (updates_serialize adasWorld).1 adasOrBobs adaLeaves
      actsOn_adaLeaves apart_adasOrBobs tr p hrun (of_decide_eq_true hend.1)
      (both_returned hend.2)⟩
  · obtain ⟨tr, p, hrun, hend⟩ := run_of_handler handle
      ⟨fun i => updateConfigs (aLeaves i), adasWorld⟩
      [true, true, false, false, true, false, true, false, false, true, true]
      (fun tr p => decide (∀ e ∈ tr, Undisturbed clusterAccess aOrB e) &&
        (returned (p.threads false) && returned (p.threads true))) (by decide)
    rw [Bool.and_eq_true] at hend
    exact ⟨tr, p, hrun, (updates_serialize adasWorld).2 aOrB aLeaves
      actsOn_aLeaves apart_aOrB tr p hrun (of_decide_eq_true hend.1)
      (both_returned hend.2)⟩

/-- The update that adds loads the registry, the one that removes runs, and
    then the first one finds the removed row gone and inserts it again: ada is
    managed again, and cluster "a" is registered with its old token. -/
theorem removed_again :
    ¬ Serializes userAccess userColumns updateRegistry SameUser Unreadable
        (fun _ _ => True) adasWorld ∧
      ¬ Serializes clusterAccess clusterColumns updateConfigs Eq
        (fun _ _ => False) (fun _ _ => True) adasWorld := by
  constructor
  · intro hall
    obtain ⟨tr, p, hrun, hend⟩ := run_of_handler handle
      ⟨fun i => updateRegistry (adaLeaves i), adasWorld⟩
      [true, false, false, true, true, true, true]
      (fun _ p => (p.shared.db.managedUsers.get ("ada", "default")).isSome &&
        (returned (p.threads false) && returned (p.threads true))) (by decide)
    rw [Bool.and_eq_true] at hend
    obtain ⟨hthere, hreturned⟩ := hend
    have horder := hall adasOrBobs adaLeaves actsOn_adaLeaves
      apart_adasOrBobs tr p hrun (fun _ _ => trivial)
      (both_returned hreturned)
    have hgone : p.shared.db.managedUsers.get ("ada", "default") = none :=
      horder.removed false _ ("ada", "default") rfl rfl rfl
    rw [hgone] at hthere
    exact nomatch hthere
  · intro hall
    obtain ⟨tr, p, hrun, hend⟩ := run_of_handler handle
      ⟨fun i => updateConfigs (aLeaves i), adasWorld⟩
      [true, true, false, false, false, false, false, true, true, true, true]
      (fun _ p => (p.shared.db.registeredClusters.get "a").isSome &&
        (returned (p.threads false) && returned (p.threads true))) (by decide)
    rw [Bool.and_eq_true] at hend
    obtain ⟨hthere, hreturned⟩ := hend
    have horder := hall aOrB aLeaves actsOn_aLeaves apart_aOrB tr p hrun
      (fun _ _ => trivial) (both_returned hreturned)
    have hgone : p.shared.db.registeredClusters.get "a" = none :=
      horder.removed false _ "a" rfl rfl rfl
    rw [hgone] at hthere
    exact nomatch hthere

end Both

end CvConcurrent
