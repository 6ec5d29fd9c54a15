import ClusterVision.AuthService
import Mathlib.Data.List.ProdSigma

/-! # The migration to roles by scope

    Revision 0006 replaces the one role of an account by a role on each scope
    (`alembic/versions/0006_scope_role_assignments.py`).  Its upgrade writes
    the role of every account on every scope; its downgrade looks at a single
    scope and falls back to a column default.  This file models the two
    revisions of the tables and the two functions, and says what each of them
    does to the access of an account. -/

namespace CvMigration

open CvTable CvBackend CvAuth
open CvHttp (instanceScope)

/-- A `SELECT` without an `ORDER BY`: the rows in some order. -/
structure Select where
  rows : {Row : Type} → List Row → List Row
  perm : ∀ {Row : Type} (xs : List Row), (rows xs).Perm xs

/-- The rows as they are stored. -/
def Select.stored : Select := ⟨fun xs => xs, fun xs => .refl xs⟩

/-- A row of `local_users` at revision 0005. -/
structure Account0005 where
  username : String
  role : Role
deriving DecidableEq

/-- The tables at revision 0005 that the migration touches. -/
structure Revision0005 where
  localUsers : Table Account0005 Account0005.username
  registeredClusters : Table RegisteredCluster RegisteredCluster.name

/-- The tables at revision 0006: accounts without a role, and the new
    table, whose foreign key names an account. -/
structure Revision0006 where
  localUsers : Table String id
  registeredClusters : Table RegisteredCluster RegisteredCluster.name
  assignments : Assignments
  foreignKey : ∀ a ∈ assignments.rows, a.username ∈ localUsers.rows

/-- The scopes of some registered clusters. -/
def scopesOf (clusterNames : List String) : List String :=
  instanceScope :: localCluster :: clusterNames

/-- The scopes at revision 0005. -/
def Revision0005.scopes (d : Revision0005) : List String :=
  scopesOf (d.registeredClusters.rows.map RegisteredCluster.name)

/-- The scopes at revision 0006. -/
def Revision0006.scopes (e : Revision0006) : List String :=
  scopesOf (e.registeredClusters.rows.map RegisteredCluster.name)

/-! ## upgrade -/

/-- The rows of a `bulk_insert`, one after the other; a key that is there
    already is an `IntegrityError`. -/
def bulkInsert :
    List ScopeRoleAssignment → Assignments → Except Exn Assignments
  | [], t => .ok t
  | a :: rows, t =>
      match t.get a.key with
      | some _ => .error .integrityError
      | none => bulkInsert rows (t.put a)

/-- The rows that `upgrade` inserts: every account on every scope. -/
def assignmentRows (users : List Account0005) (scopes : List String) :
    List ScopeRoleAssignment :=
  users.flatMap (fun u => scopes.map (fun scope =>
    ⟨u.username, scope, u.role⟩))

/-- What a completed insertion has written. -/
theorem bulkInsert_eq_ok_iff {rows : List ScopeRoleAssignment} :
    ∀ {t t' : Assignments}, bulkInsert rows t = .ok t' ↔
      ((t.rows ++ rows).map ScopeRoleAssignment.key).Nodup
        ∧ t'.rows = t.rows ++ rows := by
  induction rows with
  | nil =>
      intro t t'
      rw [bulkInsert, List.append_nil]
      exact ⟨fun h => Except.ok.inj h ▸ ⟨t.nodup, rfl⟩,
        fun h => congrArg Except.ok (Table.ext_rows h.2.symm)⟩
  | cons a rows ih =>
      intro t t'
      rw [bulkInsert]
      cases hget : t.get a.key with
      | some r =>
          refine ⟨nofun, fun h => ?_⟩
          have hkey : a.key ∈ t.rows.map ScopeRoleAssignment.key :=
            List.mem_map.mpr
              ⟨r, Table.mem_of_get hget, Table.key_of_get hget⟩
          rw [List.map_append, List.map_cons, List.nodup_append] at h
          exact absurd rfl
            (h.1.2.2 _ hkey _ (List.mem_cons_self ..))
      | none =>
          have hput : (t.put a).rows = t.rows ++ [a] :=
            putRow_of_new _ a t.rows (Table.get_eq_none_iff.mp hget)
          show bulkInsert rows (t.put a) = _ ↔ _
          rw [ih, hput, List.append_assoc]
          rfl

/-- The rows of the new table, from what the two queries found. -/
def upgradeRows (select : Select) (d : Revision0005) :
    List ScopeRoleAssignment :=
  assignmentRows (select.rows d.localUsers.rows)
    (scopesOf (select.rows
      (d.registeredClusters.rows.map RegisteredCluster.name)))

/-- The new table; without accounts there is nothing to insert. -/
def upgradeAssignments (select : Select) (d : Revision0005) :
    Except Exn Assignments :=
  if select.rows d.localUsers.rows = [] then .ok .empty
  else bulkInsert (upgradeRows select d) .empty

/-- When the new table can be filled, and with what. -/
theorem upgradeAssignments_eq_ok_iff {select : Select} {d : Revision0005}
    {t : Assignments} :
    upgradeAssignments select d = .ok t ↔
      ((upgradeRows select d).map ScopeRoleAssignment.key).Nodup
        ∧ t.rows = upgradeRows select d := by
  have hbulk : bulkInsert (upgradeRows select d) .empty = .ok t ↔
      ((upgradeRows select d).map ScopeRoleAssignment.key).Nodup
        ∧ t.rows = upgradeRows select d := bulkInsert_eq_ok_iff
  rw [upgradeAssignments]
  by_cases hnone : select.rows d.localUsers.rows = []
  · have hrows : upgradeRows select d = [] := by
      rw [upgradeRows, hnone, assignmentRows, List.flatMap_nil]
    rw [if_pos hnone, ← hbulk, hrows]
    rfl
  · rw [if_neg hnone, hbulk]

/-- A row that `upgrade` inserts has an account's name and role, and one of
    the scopes. -/
theorem mem_upgradeRows {select : Select} {d : Revision0005}
    {a : ScopeRoleAssignment} :
    a ∈ upgradeRows select d ↔
      ∃ u ∈ d.localUsers.rows, ∃ scope ∈ d.scopes,
        a = ⟨u.username, scope, u.role⟩ := by
  have hscope : ∀ scope, scope ∈ scopesOf (select.rows
      (d.registeredClusters.rows.map RegisteredCluster.name))
        ↔ scope ∈ d.scopes := by
    intro scope
    exact (((select.perm _).cons _).cons _).mem_iff
  rw [upgradeRows, assignmentRows, List.mem_flatMap]
  constructor
  · rintro ⟨u, hu, ha⟩
    obtain ⟨scope, hs, rfl⟩ := List.mem_map.mp ha
    exact ⟨u, (select.perm _).mem_iff.mp hu, scope, (hscope scope).mp hs, rfl⟩
  · rintro ⟨u, hu, scope, hs, rfl⟩
    exact ⟨u, (select.perm _).mem_iff.mpr hu,
      List.mem_map.mpr ⟨scope, (hscope scope).mpr hs, rfl⟩⟩

/-- The accounts, without their roles. -/
def withoutRoles (t : Table Account0005 Account0005.username) :
    Table String id :=
  ⟨t.rows.map Account0005.username, by rw [List.map_id]; exact t.nodup⟩

/-- The rows that `upgrade` inserts name accounts. -/
theorem upgrade_foreignKey {select : Select} {d : Revision0005}
    {t : Assignments} (h : upgradeAssignments select d = .ok t) :
    ∀ a ∈ t.rows, a.username ∈ (withoutRoles d.localUsers).rows := by
  intro a ha
  rw [(upgradeAssignments_eq_ok_iff.mp h).2] at ha
  obtain ⟨u, hu, scope, -, rfl⟩ := mem_upgradeRows.mp ha
  exact List.mem_map_of_mem hu

/-- `upgrade`. -/
def upgrade (select : Select) (d : Revision0005) : Except Exn Revision0006 :=
  match h : upgradeAssignments select d with
  | .error e => .error e
  | .ok t => .ok {
      localUsers := withoutRoles d.localUsers
      registeredClusters := d.registeredClusters
      assignments := t
      foreignKey := upgrade_foreignKey h }

/-- What a completed upgrade leaves. -/
theorem upgrade_spec {select : Select} {d : Revision0005} {e : Revision0006}
    (hup : upgrade select d = .ok e) :
    e.localUsers = withoutRoles d.localUsers
      ∧ e.registeredClusters = d.registeredClusters
      ∧ e.assignments.rows = upgradeRows select d := by
  unfold upgrade at hup
  split at hup
  · exact nomatch hup
  · rename_i t h
    cases hup
    exact ⟨rfl, rfl, (upgradeAssignments_eq_ok_iff.mp h).2⟩

/-- The keys of the inserted rows: the pairs of an account and a scope. -/
theorem map_key_assignmentRows (users : List Account0005)
    (scopes : List String) :
    (assignmentRows users scopes).map ScopeRoleAssignment.key
      = (users.map Account0005.username).product scopes := by
  rw [assignmentRows, List.map_flatMap, List.product, List.flatMap_map]
  simp only [List.map_map]
  rfl

/-- The keys of the inserted rows are distinct when there is no account, or
    the scopes are distinct. -/
theorem nodup_product_iff {names scopes : List String} (hnames : names.Nodup) :
    (names.product scopes).Nodup ↔ names = [] ∨ scopes.Nodup := by
  cases names with
  | nil => exact ⟨fun _ => Or.inl rfl, fun _ => List.nodup_nil⟩
  | cons name names =>
      constructor
      · intro h
        rw [List.product, List.flatMap_cons] at h
        exact Or.inr (List.Nodup.of_map _ (List.nodup_append.mp h).1)
      · rintro (hnil | hscopes)
        · exact nomatch hnil
        · exact hnames.product hscopes

/-- The scopes are distinct when no cluster is called like a reserved one. -/
theorem nodup_scopes_iff {d : Revision0005} :
    d.scopes.Nodup ↔ ∀ c ∈ d.registeredClusters.rows,
      c.name ≠ instanceScope ∧ c.name ≠ localCluster := by
  have hreserved : instanceScope ≠ localCluster := by decide
  rw [Revision0005.scopes, scopesOf, List.nodup_cons, List.nodup_cons,
    List.mem_cons, not_or]
  constructor
  · rintro ⟨⟨-, hinstance⟩, hlocal, -⟩ c hc
    have hname := List.mem_map_of_mem (f := RegisteredCluster.name) hc
    exact ⟨fun h => hinstance (h ▸ hname), fun h => hlocal (h ▸ hname)⟩
  · intro h
    refine ⟨⟨hreserved, fun hmem => ?_⟩, fun hmem => ?_,
      d.registeredClusters.nodup⟩
    · obtain ⟨c, hc, hname⟩ := List.mem_map.mp hmem
      exact (h c hc).1 hname
    · obtain ⟨c, hc, hname⟩ := List.mem_map.mp hmem
      exact (h c hc).2 hname

/-- The upgrade completes exactly when there is no account, or no cluster that
    is called like one of the reserved scopes. -/
theorem upgrade_completes_iff {select : Select} {d : Revision0005} :
    (∃ e, upgrade select d = .ok e) ↔
      d.localUsers.rows = [] ∨ ∀ c ∈ d.registeredClusters.rows,
        c.name ≠ instanceScope ∧ c.name ≠ localCluster := by
  have hcompletes : (∃ e, upgrade select d = .ok e) ↔
      ((upgradeRows select d).map ScopeRoleAssignment.key).Nodup := by
    constructor
    · rintro ⟨e, hup⟩
      rw [← (upgrade_spec hup).2.2]
      exact e.assignments.nodup
    · intro hkeys
      unfold upgrade
      split
      · rename_i err h
        have hok : upgradeAssignments select d
            = .ok ⟨upgradeRows select d, hkeys⟩ :=
          upgradeAssignments_eq_ok_iff.mpr ⟨hkeys, rfl⟩
        exact nomatch h.symm.trans hok
      · exact ⟨_, rfl⟩
  have husers := select.perm d.localUsers.rows
  have hnames : ((select.rows d.localUsers.rows).map
      Account0005.username).Nodup :=
    (husers.map _).nodup_iff.mpr d.localUsers.nodup
  have hscopes : (scopesOf (select.rows (d.registeredClusters.rows.map
      RegisteredCluster.name))).Perm d.scopes :=
    ((select.perm _).cons _).cons _
  rw [hcompletes, upgradeRows, map_key_assignmentRows,
    nodup_product_iff hnames, List.map_eq_nil_iff, hscopes.nodup_iff,
    nodup_scopes_iff]
  exact or_congr_left ⟨fun h => List.nil_perm.mp (h ▸ husers),
    fun h => List.perm_nil.mp (h ▸ husers)⟩

/-! ## downgrade -/

/-- `"admin" if role == "admin" else "viewer"`. -/
def collapse (role : Role) : Role :=
  if role = .admin then .admin else .viewer

/-- The row of an account after an update of the row of `username`. -/
def setRole (username : String) (role : Role) (u : Account0005) :
    Account0005 :=
  if u.username = username then { u with role := role } else u

/-- An update keeps the names. -/
@[simp] theorem setRole_username (username : String) (role : Role)
    (u : Account0005) : (setRole username role u).username = u.username := by
  rw [setRole]
  split <;> rfl

/-- `UPDATE local_users SET role = :role WHERE username = :username`. -/
def updateRole (username : String) (role : Role)
    (t : Table Account0005 Account0005.username) :
    Table Account0005 Account0005.username where
  rows := t.rows.map (setRole username role)
  nodup := by
    have hnames : Account0005.username ∘ setRole username role
        = Account0005.username := funext (fun u => setRole_username ..)
    rw [List.map_map, hnames]
    exact t.nodup

/-- The accounts with the default of the new column. -/
def withDefaultRole (t : Table String id) :
    Table Account0005 Account0005.username where
  rows := t.rows.map (fun username => ⟨username, .viewer⟩)
  nodup := by
    rw [List.map_map]
    exact t.nodup

/-- `downgrade`. -/
def downgrade (select : Select) (e : Revision0006) : Revision0005 where
  localUsers := (select.rows (e.assignments.rows.filter
    (fun a => decide (a.scope = instanceScope)))).foldl
      (fun t a => updateRole a.username (collapse a.role) t)
      (withDefaultRole e.localUsers)
  registeredClusters := e.registeredClusters

/-- What an update leaves of an account. -/
theorem get_updateRole (username : String) (role : Role)
    (t : Table Account0005 Account0005.username) (name : String) :
    (updateRole username role t).get name
      = (t.get name).map (setRole username role) := by
  have hname : (fun u => decide (u.username = name)) ∘ setRole username role
      = fun u => decide (u.username = name) := by
    funext u
    rw [Function.comp_apply, setRole_username]
  rw [Table.get, Table.get, updateRole, List.find?_map, hname]

/-- Updates of other accounts leave an account as it is. -/
theorem get_foldl_update_of_absent {name : String}
    {xs : List ScopeRoleAssignment} (habsent : ∀ a ∈ xs, a.username ≠ name) :
    ∀ t : Table Account0005 Account0005.username,
      (xs.foldl (fun t a => updateRole a.username (collapse a.role) t) t).get
        name = t.get name := by
  induction xs with
  | nil => exact fun t => rfl
  | cons a xs ih =>
      intro t
      rw [List.foldl_cons,
        ih (fun b hb => habsent b (List.mem_cons_of_mem a hb)),
        get_updateRole]
      cases hget : t.get name with
      | none => rfl
      | some u =>
          have hne : u.username ≠ a.username := by
            rw [Table.key_of_get hget]
            exact (habsent a (List.mem_cons_self ..)).symm
          rw [Option.map_some, setRole, if_neg hne]

/-- An account that one row names gets the role of that row. -/
theorem get_foldl_update_of_mem {a : ScopeRoleAssignment}
    {xs : List ScopeRoleAssignment} (ha : a ∈ xs)
    (hnames : (xs.map ScopeRoleAssignment.username).Nodup)
    (t : Table Account0005 Account0005.username) :
    (xs.foldl (fun t a => updateRole a.username (collapse a.role) t) t).get
        a.username
      = (t.get a.username).map
          (setRole a.username (collapse a.role)) := by
  obtain ⟨pre, post, rfl⟩ := List.append_of_mem ha
  rw [List.map_append, List.map_cons, List.nodup_append, List.nodup_cons]
    at hnames
  have hpre : ∀ b ∈ pre, b.username ≠ a.username := fun b hb =>
    hnames.2.2 _ (List.mem_map_of_mem hb) _ (List.mem_cons_self ..)
  have hpost : ∀ b ∈ post, b.username ≠ a.username := fun b hb heq =>
    hnames.2.1.1 (heq ▸ List.mem_map_of_mem hb)
  rw [List.foldl_append, List.foldl_cons, get_foldl_update_of_absent hpost,
    get_updateRole, get_foldl_update_of_absent hpre]

/-- What an account may do on a scope at revision 0006. -/
def Revision0006.allowed (e : Revision0006) (username scope : String) :
    Option Role :=
  (e.assignments.get (username, scope)).map ScopeRoleAssignment.role

/-- The role of an account at revision 0005, which applies on every scope. -/
def Revision0005.globalRole (d : Revision0005) (username : String) :
    Option Role :=
  (d.localUsers.get username).map Account0005.role

/-- What the loop of `downgrade` makes of a role: the default stays when the
    scope `_instance` has no assignment. -/
def downgraded (role : Option Role) : Role :=
  match role with
  | none => .viewer
  | some role => collapse role

/-- The rows of one scope name an account once. -/
theorem nodup_usernames_of_scope (t : Assignments) (scope : String) :
    ((t.rows.filter (fun a => decide (a.scope = scope))).map
      ScopeRoleAssignment.username).Nodup := by
  refine List.Nodup.map_on ?_ (t.nodup.of_map.filter _)
  intro a ha b hb heq
  obtain ⟨ha, hsa⟩ := List.mem_filter.mp ha
  obtain ⟨hb, hsb⟩ := List.mem_filter.mp hb
  refine Table.eq_of_key ha hb ?_
  exact Prod.ext heq
    ((of_decide_eq_true hsa).trans (of_decide_eq_true hsb).symm)

/-- `downgrade` reads the scope `_instance` and nothing else. -/
theorem downgrade_get (select : Select) (e : Revision0006)
    {username : String} (hu : username ∈ e.localUsers.rows) :
    (downgrade select e).localUsers.get username
      = some ⟨username, downgraded (e.allowed username instanceScope)⟩ := by
  have hdefault : (withDefaultRole e.localUsers).get username
      = some ⟨username, .viewer⟩ := by
    have hrow : Account0005.mk username .viewer
        ∈ (withDefaultRole e.localUsers).rows :=
      List.mem_map_of_mem (f := fun u => Account0005.mk u .viewer) hu
    exact Table.get_of_mem hrow
  have hperm := select.perm (e.assignments.rows.filter
    (fun a => decide (a.scope = instanceScope)))
  rw [downgrade, Revision0006.allowed]
  cases hget : e.assignments.get (username, instanceScope) with
  | none =>
      have habsent : ∀ a ∈ select.rows (e.assignments.rows.filter
          (fun a => decide (a.scope = instanceScope))),
          a.username ≠ username := by
        intro a ha heq
        obtain ⟨hmem, hscope⟩ := List.mem_filter.mp (hperm.mem_iff.mp ha)
        exact Table.get_eq_none_iff.mp hget a hmem
          (Prod.ext heq (of_decide_eq_true hscope))
      rw [get_foldl_update_of_absent habsent, hdefault]
      rfl
  | some a =>
      have hkey : a.username = username ∧ a.scope = instanceScope :=
        Prod.ext_iff.mp (Table.key_of_get hget)
      have hmem : a ∈ select.rows (e.assignments.rows.filter
          (fun a => decide (a.scope = instanceScope))) :=
        hperm.mem_iff.mpr (List.mem_filter.mpr
          ⟨Table.mem_of_get hget, decide_eq_true hkey.2⟩)
      have hrow := get_foldl_update_of_mem hmem ((hperm.map _).nodup_iff.mpr
        (nodup_usernames_of_scope e.assignments instanceScope))
        (withDefaultRole e.localUsers)
      rw [hkey.1, hdefault] at hrow
      rw [hrow, Option.map_some, setRole, if_pos rfl]
      rfl

/-! ## There and back -/

/-- The row with a key is the only one that a test of the key lets through. -/
theorem filter_key_eq {α κ : Type} [DecidableEq κ] {key : α → κ}
    (t : Table α key) {r : α} (hr : r ∈ t.rows) {p : α → Bool}
    (hp : ∀ x, p x = true ↔ key x = key r) : t.rows.filter p = [r] := by
  have hn : (t.rows.filter p).Nodup := t.nodup.of_map.filter p
  have hmem : ∀ x, x ∈ t.rows.filter p ↔ x = r := by
    intro x
    rw [List.mem_filter, hp]
    refine ⟨fun h => Table.eq_of_key h.1 hr h.2, ?_⟩
    rintro rfl
    exact ⟨hr, rfl⟩
  refine List.perm_singleton.mp ((List.perm_ext_iff_of_nodup hn
    (List.nodup_singleton r)).mpr (fun x => ?_))
  rw [hmem, List.mem_singleton]

/-- A completed upgrade gives every account its role on every scope. -/
theorem upgrade_allowed {select : Select} {d : Revision0005}
    {e : Revision0006} (hup : upgrade select d = .ok e) {u : Account0005}
    (hu : u ∈ d.localUsers.rows) {scope : String} (hs : scope ∈ d.scopes) :
    e.assignments.get (u.username, scope)
      = some ⟨u.username, scope, u.role⟩ := by
  have hrow : ScopeRoleAssignment.mk u.username scope u.role
      ∈ e.assignments.rows := by
    rw [(upgrade_spec hup).2.2]
    exact mem_upgradeRows.mpr ⟨u, hu, scope, hs, rfl⟩
  exact Table.get_of_mem hrow

/-- The updates keep the accounts. -/
theorem usernames_foldl_update (xs : List ScopeRoleAssignment) :
    ∀ t : Table Account0005 Account0005.username,
      (xs.foldl (fun t a => updateRole a.username (collapse a.role) t)
        t).rows.map Account0005.username
        = t.rows.map Account0005.username := by
  induction xs with
  | nil => exact fun t => rfl
  | cons a xs ih =>
      intro t
      rw [List.foldl_cons, ih, updateRole, List.map_map]
      exact List.map_congr_left (fun u _ => setRole_username ..)

/-- `downgrade` keeps the accounts. -/
theorem downgrade_usernames (select : Select) (e : Revision0006) :
    (downgrade select e).localUsers.rows.map Account0005.username
      = e.localUsers.rows := by
  rw [downgrade, usernames_foldl_update, withDefaultRole, List.map_map]
  exact List.map_id _

/-- A role of revision 0005 survives the collapse. -/
theorem collapse_eq_self {role : Role} (h : role = .admin ∨ role = .viewer) :
    collapse role = role := by
  rcases h with rfl | rfl
  · rfl
  · rfl

/-- After a completed upgrade, `downgrade` gives every account its role back,
    and makes no other account. -/
theorem downgrade_upgrade_get {select select' : Select} {d : Revision0005}
    {e : Revision0006} (hup : upgrade select d = .ok e)
    (hroles : ∀ u ∈ d.localUsers.rows, u.role = .admin ∨ u.role = .viewer)
    (username : String) :
    (downgrade select' e).localUsers.get username
      = d.localUsers.get username := by
  have husers : e.localUsers.rows
      = d.localUsers.rows.map Account0005.username := by
    rw [(upgrade_spec hup).1, withoutRoles]
  cases hget : d.localUsers.get username with
  | some u =>
      have hu := Table.mem_of_get hget
      have hname : u.username = username := Table.key_of_get hget
      have hinstance : instanceScope ∈ d.scopes := List.mem_cons_self ..
      have hmem : username ∈ e.localUsers.rows := by
        rw [husers, ← hname]
        exact List.mem_map_of_mem hu
      have hallowed := upgrade_allowed hup hu hinstance
      rw [downgrade_get select' e hmem, Revision0006.allowed, ← hname,
        hallowed, Option.map_some, downgraded, collapse_eq_self (hroles u hu)]
  | none =>
      rw [Table.get_eq_none_iff]
      intro v hv hname
      have hmem : v.username ∈ e.localUsers.rows := by
        rw [← downgrade_usernames select' e]
        exact List.mem_map_of_mem hv
      rw [husers, hname] at hmem
      obtain ⟨u, hu, hun⟩ := List.mem_map.mp hmem
      exact Table.get_eq_none_iff.mp hget u hu hun

/-- After a completed upgrade the accounts are the same, each has exactly one
    assignment on every scope, with its old role, and there is no other
    assignment; and a downgrade right after gives every account its role
    back. -/
theorem upgrade_keeps_roles_and_is_undone (select select' : Select)
    (d : Revision0005) (e : Revision0006)
    (hroles : ∀ u ∈ d.localUsers.rows, u.role = .admin ∨ u.role = .viewer)
    (hup : upgrade select d = .ok e) :
    e.localUsers.rows = d.localUsers.rows.map Account0005.username
    ∧ (∀ u ∈ d.localUsers.rows, ∀ scope ∈ d.scopes,
        e.assignments.rows.filter (fun a =>
          decide (a.username = u.username ∧ a.scope = scope))
          = [⟨u.username, scope, u.role⟩])
    ∧ (∀ a ∈ e.assignments.rows,
        ∃ u ∈ d.localUsers.rows, a.username = u.username ∧ a.scope ∈ d.scopes)
    ∧ ∀ username, (downgrade select' e).localUsers.get username
        = d.localUsers.get username := by
  refine ⟨?_, ?_, ?_, downgrade_upgrade_get hup hroles⟩
  · rw [(upgrade_spec hup).1, withoutRoles]
  · intro u hu scope hs
    have hrow := Table.mem_of_get (upgrade_allowed hup hu hs)
    refine filter_key_eq e.assignments hrow (fun a => ?_)
    rw [decide_eq_true_eq, ScopeRoleAssignment.key, ScopeRoleAssignment.key,
      Prod.mk.injEq]
  · intro a ha
    rw [(upgrade_spec hup).2.2] at ha
    obtain ⟨u, hu, scope, hs, rfl⟩ := mem_upgradeRows.mp ha
    exact ⟨u, hu, rfl, hs⟩

/-- Two accounts and one registered cluster. -/
def twoAccounts : Revision0005 where
  localUsers := ⟨[⟨"admin", .admin⟩, ⟨"ann", .viewer⟩], by decide⟩
  registeredClusters := ⟨[⟨"prod", "https://prod", "ca", "token"⟩], by decide⟩

/-- Their upgrade completes, and can be undone. -/
theorem twoAccounts_upgraded :
    ∃ e, upgrade .stored twoAccounts = .ok e
      ∧ (downgrade .stored e).localUsers.get "admin"
        = some ⟨"admin", .admin⟩ := by
  have hname : ∀ c ∈ twoAccounts.registeredClusters.rows,
      c.name ≠ instanceScope ∧ c.name ≠ localCluster := by
    intro c hc
    rw [List.mem_singleton.mp hc]
    decide
  obtain ⟨e, hup⟩ := upgrade_completes_iff.mpr (Or.inr hname)
  have hroles : ∀ u ∈ twoAccounts.localUsers.rows,
      u.role = .admin ∨ u.role = .viewer := by
    intro u hu
    rcases List.mem_cons.mp hu with rfl | hu
    · exact Or.inl rfl
    · rw [List.mem_singleton.mp hu]
      exact Or.inr rfl
  exact ⟨e, hup, (upgrade_keeps_roles_and_is_undone .stored .stored
    twoAccounts e hroles hup).2.2.2 "admin"⟩

/-! ## What the downgrade widens -/

/-- How much a role lets an account do: no assignment, then viewer, then
    operator or approver, then admin. -/
def rank : Option Role → Nat
  | none => 0
  | some .viewer => 1
  | some .operator => 2
  | some .approver => 2
  | some .admin => 3

/-- What the role of the scope `_instance` becomes is no wider than a role on
    another scope exactly when that role is admin too, or, if the account is no
    admin of `_instance`, when it has a role there at all. -/
theorem rank_downgraded_le_iff (onInstance onScope : Option Role) :
    rank (some (downgraded onInstance)) ≤ rank onScope ↔
      if onInstance = some .admin then onScope = some .admin
      else onScope ≠ none := by
  by_cases hadmin : onInstance = some .admin
  · rw [if_pos hadmin, hadmin]
    cases onScope with
    | none => decide
    | some role => cases role <;> decide
  · rw [if_neg hadmin]
    have hviewer : downgraded onInstance = .viewer := by
      cases onInstance with
      | none => rfl
      | some role => exact if_neg (fun h => hadmin (congrArg some h))
    rw [hviewer]
    cases onScope with
    | none => decide
    | some role => cases role <;> decide

/-- The downgrade widens nobody's access exactly when every account that is
    admin of `_instance` is admin of every scope, and every other account has
    a role on every scope, `_instance` included. -/
theorem downgrade_never_widens_iff (select : Select) (e : Revision0006) :
    (∀ username ∈ e.localUsers.rows, ∀ scope ∈ e.scopes,
      rank ((downgrade select e).globalRole username)
        ≤ rank (e.allowed username scope)) ↔
    ∀ username ∈ e.localUsers.rows, ∀ scope ∈ e.scopes,
      if e.allowed username instanceScope = some .admin then
        e.allowed username scope = some .admin
      else e.allowed username scope ≠ none := by
  refine forall_congr' (fun username => forall_congr' (fun hu => ?_))
  refine forall_congr' (fun scope => forall_congr' (fun _ => ?_))
  rw [Revision0005.globalRole, downgrade_get select e hu, Option.map_some]
  exact rank_downgraded_le_iff _ _

/-- An account that may administer the instance, and nothing else. -/
def instanceAdmin : Revision0006 where
  localUsers := ⟨["ann"], by decide⟩
  registeredClusters := .empty
  assignments := ⟨[⟨"ann", instanceScope, .admin⟩], by decide⟩
  foreignKey := by
    intro a ha
    rw [List.mem_singleton.mp ha]
    decide

/-- The downgrade makes it an admin of the local cluster, where it had no
    access. -/
theorem instanceAdmin_widened :
    instanceAdmin.allowed "ann" localCluster = none ∧
    (downgrade .stored instanceAdmin).globalRole "ann" = some .admin ∧
    ¬ ∀ username ∈ instanceAdmin.localUsers.rows,
      ∀ scope ∈ instanceAdmin.scopes,
        rank ((downgrade .stored instanceAdmin).globalRole username)
          ≤ rank (instanceAdmin.allowed username scope) := by
  have hnone : instanceAdmin.allowed "ann" localCluster = none := by decide
  have hadmin : (downgrade .stored instanceAdmin).globalRole "ann"
      = some .admin := by decide
  refine ⟨hnone, hadmin, fun h => ?_⟩
  have hwide := h "ann" (List.mem_cons_self ..) localCluster
    (List.mem_cons_of_mem _ (List.mem_cons_self ..))
  rw [hnone, hadmin] at hwide
  exact absurd hwide (by decide)

end CvMigration
