import ClusterVision.RegistrationProofs

/-! # Importing what list_unmanaged offers

    The listing leaves out a ServiceAccount whose name and namespace are those
    of a ServiceAccount user; the import refuses one whose name is that of a
    ServiceAccount user in any namespace, and does not look at the user that
    has its key.  The import of an offered account does what it should exactly
    where both tests come to the same. -/

namespace CvImport

open CvProg CvRun CvTable CvIso CvKube CvBackend CvRegistry CvUsers
open CvRegistration CvUsers.ServiceAccount

variable {w : World} {cluster name ns : String}

/-! ## The listing -/

/-- The accounts that the listing offers. -/
def offered (cluster : String) (w : World) : List (String × String) :=
  ((w.clusters cluster).serviceAccounts.rows.filter
    (isUnmanaged (w.db.managedUsers.rows.map toDict))).map
      (fun sa => (sa.name, sa.ns))

theorem run_listUnmanaged (cluster : String) (w : World) :
    (listUnmanaged cluster).run handle w = (.ok (offered cluster w), w) := by
  have hlist : handle (.kube cluster .listServiceAccounts) w
      = (.ok (w.clusters cluster).serviceAccounts.rows, w) := by
    show (Except.ok (w.clusters cluster).serviceAccounts.rows,
      w.setCluster cluster (w.clusters cluster)) = _
    rw [World.setCluster_eq_self]
  rw [listUnmanaged, Prog.run_bind, run_loadRegistry, Prog.andThen_ok,
    Prog.run_bind, run_kube, hlist, Prog.andThen_ok]
  rfl

/-- The account is that of a ServiceAccount user. -/
def Managed (t : Users) (key : String × String) : Prop :=
  ∃ r ∈ t.rows, r.type = .serviceAccount ∧ r.key = key

theorem isUnmanaged_iff (t : Users) (sa : ServiceAccount) :
    isUnmanaged (t.rows.map toDict) sa = true ↔
      sa.ns ∉ systemNamespaces ∧ sa.name ≠ "default" ∧
        ¬ Managed t (sa.name, sa.ns) := by
  rw [isUnmanaged, decide_eq_true_iff, List.forall_mem_map, Managed]
  simp only [not_exists, not_and]
  exact Iff.rfl

/-- An account that is offered is there. -/
theorem exists_of_offered (h : (name, ns) ∈ offered cluster w) :
    (w.clusters cluster).serviceAccounts.get (ns, name) ≠ none ∧
      ¬ Managed w.db.managedUsers (name, ns) := by
  obtain ⟨sa, hsa, hkey⟩ := List.mem_map.mp h
  obtain ⟨rfl, rfl⟩ := Prod.mk.inj hkey
  obtain ⟨hrow, hunmanaged⟩ := List.mem_filter.mp hsa
  refine ⟨?_, ((isUnmanaged_iff _ sa).mp hunmanaged).2.2⟩
  have hget := Table.get_of_mem hrow
  rw [show (sa.ns, sa.name) = sa.key from rfl, hget]
  exact nofun

/-! ## The import -/

/-- The import does not touch the clusters. -/
theorem importUser_clusters (cluster name ns : String) (w : World) :
    ((importUser cluster name ns).run handle w).2.clusters = w.clusters := by
  have hread : (handle (.kube cluster (.readServiceAccount ns name)) w).2
      = w := World.setCluster_eq_self w cluster
  rw [importUser, Prog.run_bind, run_kube]
  generalize handle (.kube cluster (.readServiceAccount ns name)) w = o
    at hread
  obtain ⟨r, v⟩ := o
  obtain rfl : v = w := hread
  cases r with
  | error e => rfl
  | ok sa =>
      rw [Prog.andThen_ok, bind_nowText, Prog.run_bind]
      have hupdate := run_updateRegistry_clusters (appendUnless (sameName name)
        (userRecord name ns (timeText (utc (v.clock v.tick))) true)) v.ticked
      generalize (updateRegistry _).run handle v.ticked = o at hupdate ⊢
      obtain ⟨r, u⟩ := o
      cases r with
      | error e => exact hupdate
      | ok users => exact hupdate

/-- A ServiceAccount user that is appended becomes managed, and nobody else
    does. -/
theorem managed_appended {taken : RegistryEntry → Bool} {user : RegistryEntry}
    {t t' : Users} (h : Appended taken user t t')
    (htype : user.type = .serviceAccount)
    (hnew : ¬ Managed t user.key) (key : String × String) :
    Managed t' key ↔ key = user.key ∨ Managed t key := by
  obtain ⟨row, hrow, hget⟩ := h.row
  constructor
  · rintro ⟨r, hr, hsa, rfl⟩
    by_cases hk : r.key = user.key
    · exact Or.inl hk
    · have hold := hget r.key
      rw [Table.get_of_mem hr, if_neg hk] at hold
      exact Or.inr ⟨r, Table.mem_of_get hold.symm, hsa, rfl⟩
  · rintro (rfl | ⟨r, hr, hsa, rfl⟩)
    · refine ⟨row, Table.mem_of_get ((hget _).trans (if_pos rfl)), ?_, hrow.key⟩
      exact hrow.type.trans htype
    · have hk : r.key ≠ user.key := fun hk => hnew ⟨r, hr, hsa, hk⟩
      have hold := hget r.key
      rw [if_neg hk, Table.get_of_mem hr] at hold
      exact ⟨r, Table.mem_of_get hold, hsa, rfl⟩

/-- After the import, the account is offered no more, and the others are as
    before. -/
theorem offered_appended {taken : RegistryEntry → Bool} {user : RegistryEntry}
    {w w' : World} (hclusters : w'.clusters = w.clusters)
    (h : Appended taken user w.db.managedUsers w'.db.managedUsers)
    (htype : user.type = .serviceAccount)
    (hnew : ¬ Managed w.db.managedUsers user.key) :
    offered cluster w'
      = (offered cluster w).filter (fun p => decide (p ≠ user.key)) := by
  rw [offered, offered, hclusters, List.filter_map, List.filter_filter]
  congr 1
  refine List.filter_congr ?_
  intro sa _
  rw [Bool.eq_iff_iff, isUnmanaged_iff, managed_appended h htype hnew,
    Function.comp_apply, Bool.and_eq_true, isUnmanaged_iff, decide_eq_true_iff]
  tauto

/-! ## When an offer is good -/

/-- The import returns, adds the account to the registry, and takes it, and
    nothing else, from the listing `pairs`. -/
structure ImportsExactly (w : World) (cluster name ns : String)
    (pairs : List (String × String)) : Prop where
  returns : ∃ user, ((importUser cluster name ns).run handle w).1 = .ok user
  adds : w.db.managedUsers.get (name, ns) = none ∧
    ∃ now r, RowOf (userRecord name ns now true) r ∧
      ∀ k, ((importUser cluster name ns).run handle w).2.db.managedUsers.get k
        = if k = (name, ns) then some r else w.db.managedUsers.get k
  relists : ((listUnmanaged cluster).run handle
      ((importUser cluster name ns).run handle w).2).1
    = .ok (pairs.filter (fun p => decide (p ≠ (name, ns))))

/-- Nobody is in the way of the account: no ServiceAccount user has its name,
    whatever the namespace, and no user has its name and namespace. -/
structure Unopposed (t : Users) (name ns : String) : Prop where
  noNamesake : ∀ r ∈ t.rows, ¬ (r.name = name ∧ r.type = .serviceAccount)
  keyFree : t.get (name, ns) = none

/-- An account that the listing offers is imported as it should be exactly
    when nobody is in its way. -/
theorem import_offered_iff (w : World) (hw : Timely w.db.managedUsers)
    (cluster name ns : String) (pairs : List (String × String))
    (hlist : ((listUnmanaged cluster).run handle w).1 = .ok pairs)
    (hoffer : (name, ns) ∈ pairs) :
    ImportsExactly w cluster name ns pairs
      ↔ Unopposed w.db.managedUsers name ns := by
  rw [run_listUnmanaged] at hlist
  obtain rfl : offered cluster w = pairs := Except.ok.inj hlist
  obtain ⟨hsa, hnew⟩ := exists_of_offered hoffer
  have hends : Ends w.db.managedUsers (Imported name ns w.db.managedUsers)
      ((importUser cluster name ns).run handle w) := importUser_ends rfl
  constructor
  · rintro ⟨⟨user, hok⟩, ⟨hkey, -⟩, -⟩
    refine ⟨?_, hkey⟩
    rcases hends with ⟨e, herror, -⟩ | ⟨-, -, now, happ⟩
    · rw [hok] at herror
      exact nomatch herror
    · intro r hr hboth
      exact of_decide_eq_false (happ.free r hr) hboth
  · rintro ⟨hname, hkey⟩
    obtain ⟨user, hok⟩ := importAccount_ok hw hsa hname
    rcases hends with ⟨e, herror, -⟩ | ⟨-, -, now, happ⟩
    · rw [hok] at herror
      exact nomatch herror
    · obtain ⟨row, hrow, hget⟩ := happ.row
      refine ⟨⟨user, hok⟩, ⟨hkey, _, row, hrow, hget⟩, ?_⟩
      rw [run_listUnmanaged, offered_appended
        (importUser_clusters cluster name ns w) happ rfl hnew]
      rfl

/-- A ServiceAccount user, `ci` in `staging`. -/
def stagingUser : ManagedUser where
  name := "ci"
  ns := "staging"
  type := .serviceAccount
  groupsCsv := ""
  createdAt := utc Time.epoch
  csrName := none
  certExpiry := none
  imported := true

/-- A cluster with a ServiceAccount `ci` in two namespaces; the one in
    `staging` has been imported. -/
def withHomonyms : World :=
  { World.fresh.setCluster "local" { Cluster.fresh with
      serviceAccounts := (Table.empty.put ⟨"ci", "staging", []⟩).put
        ⟨"ci", "prod", []⟩ } with
    db := withUsers Database.fresh (Table.empty.put stagingUser) }

theorem timely_withHomonyms : Timely withHomonyms.db.managedUsers := by
  intro r hr
  obtain rfl := List.mem_singleton.mp
    (show r ∈ [stagingUser] from hr)
  exact ⟨utc_proper _, nofun⟩

/-- The other one is offered. -/
theorem listUnmanaged_withHomonyms :
    ((listUnmanaged "local").run handle withHomonyms).1
      = .ok [("ci", "prod")] := by
  rw [run_listUnmanaged]
  rfl

/-- A certificate user of that name. -/
def certificateNamesake : ManagedUser :=
  { stagingUser with type := .certificate }

/-- The cluster where only that user has been imported. -/
def withNamesake : World :=
  { withHomonyms with
    db := withUsers Database.fresh (Table.empty.put certificateNamesake) }

theorem import_offered_namesake :
    ImportsExactly withNamesake "local" "ci" "prod"
      [("ci", "staging"), ("ci", "prod")] := by
  have honly : ∀ r ∈ withNamesake.db.managedUsers.rows,
      r = certificateNamesake := fun r hr => List.mem_singleton.mp hr
  have htimely : Timely withNamesake.db.managedUsers := by
    intro r hr
    obtain rfl := honly r hr
    exact ⟨utc_proper _, nofun⟩
  refine (import_offered_iff withNamesake htimely "local" "ci" "prod"
    [("ci", "staging"), ("ci", "prod")] ?_ (by decide)).mpr ⟨?_, rfl⟩
  · rw [run_listUnmanaged]
    rfl
  · intro r hr hboth
    obtain rfl := honly r hr
    exact absurd hboth.2 (by decide)

/-- It cannot be imported. -/
theorem offered_not_importable :
    ¬ ∀ (w : World), Timely w.db.managedUsers →
      ∀ (cluster name ns : String) (pairs : List (String × String)),
        ((listUnmanaged cluster).run handle w).1 = .ok pairs →
        (name, ns) ∈ pairs → ImportsExactly w cluster name ns pairs := by
  intro hall
  obtain ⟨user, hok⟩ := (hall withHomonyms timely_withHomonyms "local" "ci"
    "prod" [("ci", "prod")] listUnmanaged_withHomonyms
    (List.mem_singleton_self _)).returns
  have herror : ((importUser "local" "ci" "prod").run handle withHomonyms).1
      = .error (.userAlreadyExistsError "ci") := rfl
  rw [hok] at herror
  exact nomatch herror

end CvImport
