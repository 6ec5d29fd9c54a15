import ClusterVision.AuthService
import ClusterVision.RegistrationProofs
import ClusterVision.UserDeletionProofs

/-! # Links of accounts to managed users

    An account can be linked to a managed user, by name and namespace, and
    there is no foreign key.  It is DELETE that clears the links to the user it
    deletes: in the namespace that the request names, which need not be that of
    the entry it has chosen. -/

namespace CvLinks

open CvProg CvRun CvTable CvIso CvKube CvBackend CvRbac CvRegistry CvUsers
open CvRegistration CvHttp CvDeletion

variable {w w' : World} {cluster username ns : String} {userType : UserType}
  {u : RegistryEntry}

/-! ## A DELETE that completes -/

/-- The entries that a DELETE removes when it has chosen `u`. -/
def removedWith (username : String) (userType : UserType)
    (u : RegistryEntry) : RegistryEntry → Bool :=
  if userType = .certificate then Certificate.isUser username
  else ServiceAccount.isEntry username u.ns

/-- The dictionaries of the registry can be read back. -/
def Legible (t : Users) : Prop := ∀ r ∈ t.rows, Readable (toDict r)

/-- So can those that are left when users have been removed. -/
theorem Legible.removed {t t' : Users} {gone : RegistryEntry → Bool}
    (h : Legible t) (hremoved : Removed gone t t') : Legible t' := by
  intro r hr
  have hkey := hremoved r.key
  rw [Table.get_of_mem hr] at hkey
  exact h r (Table.mem_of_get (Option.eq_some_of_filter_eq_some hkey.symm))

/-- What a DELETE that has chosen `u` makes of the world. -/
structure Deleted (cluster username : String) (userType : UserType)
    (ns : String) (u : RegistryEntry) (w w' : World) : Prop where
  users : Removed (removedWith username userType u) w.db.managedUsers
    w'.db.managedUsers
  accounts : w'.db.localUsers.rows = w.db.localUsers.rows.map
    (LocalUser.unlinked username (linkedNamespace userType ns))
  bindings : (w'.clusters cluster).bindings
    = (w.clusters cluster).bindings.keep
        (fun b => !startswith b.name (bindingPrefix username))

/-- The chosen entry has the name and the type that were asked for. -/
theorem chosen_name (h : chosenEntry w username userType ns = some u) :
    u.name = username ∧ u.type = userType := by
  by_cases htype : userType = .certificate
  · rw [chosenEntry, if_pos htype] at h
    have hfound : Certificate.isUser username u = true := List.find?_some h
    rw [htype]
    exact of_decide_eq_true hfound
  · have hsa : userType = .serviceAccount := by
      cases userType with
      | certificate => exact absurd rfl htype
      | serviceAccount => rfl
    rw [hsa]
    exact (ServiceAccount.chosen_spec (chosen_of_chosenEntry htype h)).2

/-- It is one of those that the DELETE removes. -/
theorem removedWith_chosen
    (h : chosenEntry w username userType ns = some u) :
    removedWith username userType u u = true := by
  obtain ⟨hname, htype⟩ := chosen_name h
  rw [removedWith]
  by_cases hcert : userType = .certificate
  · rw [if_pos hcert]
    exact decide_eq_true ⟨hname, htype.trans hcert⟩
  · rw [if_neg hcert]
    refine decide_eq_true ⟨hname, ?_, rfl⟩
    cases userType with
    | certificate => exact absurd rfl hcert
    | serviceAccount => exact htype

/-- The update at the end of the two service functions. -/
theorem run_removal (gone : RegistryEntry → Bool)
    (hw : Legible w.db.managedUsers) :
    ∃ t' w', ((updateRegistry (removeIf gone)).void.run handle w
        = (.ok (), w')) ∧ w'.db = withUsers w.db t' ∧
      w'.clusters = w.clusters ∧ Removed gone w.db.managedUsers t' := by
  rcases run_remove_cases gone w with
    ⟨-, r, hr, hnot⟩ | ⟨users, t', hcommit, hremoved⟩
  · exact absurd (hw r hr) hnot
  · refine ⟨t', _, Prod.ext ?_ rfl, ?_, ?_, hremoved⟩
    · rw [Prog.run_void_fst, hcommit.ok]
      rfl
    · exact (congrArg World.db (Prog.run_void_snd handle _ _)).trans
        hcommit.db
    · exact (congrArg World.clusters (Prog.run_void_snd handle _ _)).trans
        hcommit.clusters

/-- What `delete_user` of the two services leaves, when it finds an entry. -/
structure ServiceDeleted (cluster : String) (gone : RegistryEntry → Bool)
    (o : Except Exn Unit × World) (w : World) : Prop where
  ok : o.1 = .ok ()
  users : Removed gone w.db.managedUsers o.2.db.managedUsers
  accounts : o.2.db.localUsers = w.db.localUsers
  bindings : (o.2.clusters cluster).bindings = (w.clusters cluster).bindings

/-- The end of the two functions, after calls that left the database and the
    bindings alone. -/
theorem serviceDeleted_of_removal {v : World} {gone : RegistryEntry → Bool}
    (hw : Legible w.db.managedUsers) (hdb : v.db = w.db)
    (hbindings : (v.clusters cluster).bindings
      = (w.clusters cluster).bindings) :
    ServiceDeleted cluster gone
      ((updateRegistry (removeIf gone)).void.run handle v) w := by
  rw [← hdb] at hw
  obtain ⟨t', w', hrun, hdb', hclusters, hremoved⟩ := run_removal gone hw
  rw [hrun]
  refine ⟨rfl, ?_, ?_, ?_⟩
  · rw [hdb', withUsers_managedUsers, ← hdb]
    exact hremoved
  · show w'.db.localUsers = _
    rw [hdb', ← hdb]
    rfl
  · show (w'.clusters cluster).bindings = _
    rw [hclusters]
    exact hbindings

theorem run_deleteManagedUser_chosen (cluster : String)
    (hw : Legible w.db.managedUsers)
    (h : chosenEntry w username userType ns = some u) :
    ServiceDeleted cluster (removedWith username userType u)
      ((deleteManagedUser cluster username userType ns).run handle w) w := by
  by_cases htype : userType = .certificate
  · rw [chosenEntry, if_pos htype] at h
    rw [deleteManagedUser, if_pos htype, removedWith, if_pos htype,
      Certificate.deleteUser, Prog.run_bind, run_loadRegistry,
      Prog.andThen_ok, h]
    show ServiceDeleted cluster _ ((Certificate.deleteSigningRequest cluster u
      >>= fun _ => (updateRegistry
        (removeIf (Certificate.isUser username))).void).run handle w) w
    rw [Prog.run_bind, Certificate.deleteSigningRequest]
    cases u.csrName with
    | none => exact serviceDeleted_of_removal hw rfl rfl
    | some name =>
        by_cases hne : name = ""
        · simp only [if_pos hne]
          exact serviceDeleted_of_removal hw rfl rfl
        · simp only [if_neg hne]
          have hdelete := run_deleteIn cluster w
            (fun r => { w.clusters cluster with csrs := r })
            (run_kube handle cluster (.deleteCsr name) w) rfl
          rw [hdelete, Prog.andThen_ok]
          refine serviceDeleted_of_removal hw rfl ?_
          rw [World.setCluster_self]
  · have hchosen := chosen_of_chosenEntry htype h
    have hsa := run_deleteIn cluster w
      (fun a => { w.clusters cluster with serviceAccounts := a })
      (run_kube handle cluster (.deleteServiceAccount u.ns username) w) rfl
    generalize hv : w.setCluster cluster _ = v at hsa
    have hsecret := run_deleteIn cluster v
      (fun a => { v.clusters cluster with secrets := a })
      (run_kube handle cluster (.deleteSecret u.ns
        (ServiceAccount.tokenSecretName username)) v) rfl
    rw [deleteManagedUser, if_neg htype, removedWith, if_neg htype,
      ServiceAccount.deleteUser, Prog.run_bind, run_loadRegistry,
      Prog.andThen_ok, Prog.run_bind, Prog.run_ofExcept, hchosen,
      Prog.andThen_ok, Prog.run_bind, hsa, Prog.andThen_ok, Prog.run_bind,
      hsecret, Prog.andThen_ok]
    refine serviceDeleted_of_removal hw ?_ ?_
    · rw [← hv]
      rfl
    · rw [World.setCluster_self, ← hv, World.setCluster_self]

/-- A service function that finds no entry changes nothing. -/
theorem run_deleteManagedUser_none (cluster : String)
    (h : chosenEntry w username userType ns = none) :
    ∃ x, (deleteManagedUser cluster username userType ns).run handle w
      = (.error (.userNotFoundError x), w) := by
  by_cases htype : userType = .certificate
  · rw [chosenEntry, if_pos htype] at h
    rw [deleteManagedUser, if_pos htype, Certificate.deleteUser,
      Prog.run_bind, run_loadRegistry, Prog.andThen_ok, h]
    exact ⟨username, rfl⟩
  · rw [chosenEntry, if_neg htype] at h
    rw [deleteManagedUser, if_neg htype, ServiceAccount.deleteUser,
      Prog.run_bind, run_loadRegistry, Prog.andThen_ok, Prog.run_bind,
      Prog.run_ofExcept]
    generalize w.db.managedUsers.rows.map toDict = users at h
    rw [ServiceAccount.chosen] at h ⊢
    cases hm : ServiceAccount.matching username users with
    | nil => exact ⟨username, rfl⟩
    | cons v vs =>
        rw [hm] at h
        simp only at h ⊢
        cases hfind : (v :: vs).find? (fun u => decide (u.ns = ns)) with
        | some user =>
            rw [hfind] at h
            cases h
        | none =>
            rw [hfind] at h
            by_cases hvs : vs ≠ []
            · simp only [if_pos hvs]
              exact ⟨_, rfl⟩
            · simp only [if_neg hvs] at h
              cases h

/-- A DELETE that finds no entry is answered with 404 and changes nothing. -/
theorem run_deleteUser_none (fuel : Nat) (cluster : String)
    (h : chosenEntry w username userType ns = none) :
    ∃ x, (CvHttp.deleteUser fuel cluster username userType ns).run handle w
      = (.error (.userNotFoundError x), w) := by
  obtain ⟨x, hx⟩ := run_deleteManagedUser_none cluster h
  refine ⟨x, ?_⟩
  rw [CvHttp.deleteUser, Prog.run_bind, hx]
  rfl

/-- A DELETE that finds an entry succeeds. -/
theorem run_deleteUser_chosen {fuel : Nat} (cluster : String)
    (hw : Legible w.db.managedUsers)
    (hfuel : (w.clusters cluster).bindings.rows.length < fuel)
    (h : chosenEntry w username userType ns = some u) :
    ((CvHttp.deleteUser fuel cluster username userType ns).run handle w).1
        = .ok .empty ∧
      Deleted cluster username userType ns u w
        ((CvHttp.deleteUser fuel cluster username userType ns).run handle
          w).2 := by
  have hservice := run_deleteManagedUser_chosen cluster hw h
  rw [CvHttp.deleteUser, Prog.run_bind]
  generalize (deleteManagedUser cluster username userType ns).run handle w
    = o at hservice ⊢
  obtain ⟨r, v⟩ := o
  obtain rfl : r = .ok () := hservice.ok
  rw [← hservice.bindings] at hfuel
  rw [Prog.andThen_ok, Prog.run_bind, run_deleteUserBindings hfuel,
    Prog.andThen_ok]
  refine ⟨rfl, hservice.users, ?_, ?_⟩
  · rw [← hservice.accounts]
    rfl
  · rw [← hservice.bindings]
    exact setBindings_self _

/-! ## Links -/

/-- The two columns of a link are empty, or the key of a managed user. -/
def LinkAlive (t : Users) : Option String → Option String → Prop
  | none, none => True
  | some name, some ns => t.get (name, ns) ≠ none
  | _, _ => False

/-- No link dangles. -/
def LinksAlive (db : Database) : Prop :=
  ∀ a ∈ db.localUsers.rows,
    LinkAlive db.managedUsers a.linkedManagedUser a.linkedManagedUserNamespace

/-- The account is linked to the user of this key. -/
def LinkedTo (k : String × String) (a : LocalUser) : Prop :=
  a.linkedManagedUser = some k.1 ∧ a.linkedManagedUserNamespace = some k.2

instance (t : Users) : ∀ name ns, Decidable (LinkAlive t name ns)
  | none, none => .isTrue trivial
  | some name, some ns => inferInstanceAs (Decidable (t.get (name, ns) ≠ none))
  | none, some _ => .isFalse id
  | some _, none => .isFalse id

instance (db : Database) : Decidable (LinksAlive db) :=
  inferInstanceAs (Decidable (∀ a ∈ db.localUsers.rows, _))

instance (k : String × String) (a : LocalUser) : Decidable (LinkedTo k a) :=
  inferInstanceAs (Decidable (_ ∧ _))

theorem linkAlive_iff {t : Users} {a : LocalUser} :
    LinkAlive t a.linkedManagedUser a.linkedManagedUserNamespace ↔
      (a.linkedManagedUser = none ∧ a.linkedManagedUserNamespace = none) ∨
        ∃ k, LinkedTo k a ∧ t.get k ≠ none := by
  cases hname : a.linkedManagedUser with
  | none =>
      cases hns : a.linkedManagedUserNamespace with
      | none => exact iff_of_true trivial (Or.inl ⟨rfl, rfl⟩)
      | some ns =>
          refine iff_of_false id ?_
          rintro (⟨-, h⟩ | ⟨k, h, -⟩)
          · cases h
          · rw [LinkedTo, hname] at h
            cases h.1
  | some name =>
      cases hns : a.linkedManagedUserNamespace with
      | none =>
          refine iff_of_false id ?_
          rintro (⟨h, -⟩ | ⟨k, h, -⟩)
          · cases h
          · rw [LinkedTo, hns] at h
            cases h.2
      | some ns =>
          constructor
          · intro h
            exact Or.inr ⟨(name, ns), ⟨hname, hns⟩, h⟩
          · rintro (⟨h, -⟩ | ⟨k, ⟨hk, hk'⟩, h⟩)
            · cases h
            · rw [hname] at hk
              rw [hns] at hk'
              cases hk
              cases hk'
              exact h

/-- An account is linked to one user at most. -/
theorem LinkedTo.unique {k k' : String × String} {a : LocalUser}
    (h : LinkedTo k a) (h' : LinkedTo k' a) : k = k' :=
  Prod.ext (Option.some.inj (h.1.symm.trans h'.1))
    (Option.some.inj (h.2.symm.trans h'.2))

/-- A link that is cleared is empty. -/
theorem unlinked_of_linkedTo {a : LocalUser} {name : String}
    (h : LinkedTo (name, ns) a) :
    (a.unlinked name ns).linkedManagedUser = none ∧
      (a.unlinked name ns).linkedManagedUserNamespace = none := by
  rw [LocalUser.unlinked, if_pos (show _ ∧ _ from h)]
  exact ⟨rfl, rfl⟩

/-- An account whose link is empty stays as it is. -/
theorem unlinked_of_none {a : LocalUser} {name : String}
    (h : a.linkedManagedUser = none) : a.unlinked name ns = a := by
  rw [LocalUser.unlinked, if_neg]
  rintro ⟨h', -⟩
  rw [h] at h'
  cases h'

/-- Who is linked after the links to a user are cleared. -/
theorem linkedTo_unlinked {k : String × String} {a : LocalUser}
    {name : String} :
    LinkedTo k (a.unlinked name ns) ↔ LinkedTo k a ∧ k ≠ (name, ns) := by
  by_cases h : LinkedTo (name, ns) a
  · obtain ⟨hnone, -⟩ := unlinked_of_linkedTo h
    refine iff_of_false ?_ ?_
    · rintro ⟨h', -⟩
      rw [hnone] at h'
      cases h'
    · rintro ⟨hk, hne⟩
      exact hne (hk.unique h)
  · have hsame : a.unlinked name ns = a := by
      rw [LocalUser.unlinked, if_neg]
      exact h
    rw [hsame]
    refine ⟨fun hk => ⟨hk, ?_⟩, And.left⟩
    rintro rfl
    exact h hk

/-! ## Steps -/

/-- A step: a change of a link, a creation or an import of a managed user, a
    DELETE, or anything else that leaves the database alone. -/
inductive LinkStep where
  | setLinkedUser (username name ns : String)
  | clearLinkedUser (username : String)
  | register (k : UserCall) (registers : k.registers = true)
  | delete (cluster username : String) (userType : UserType) (ns : String)
  | outside (f : World → World) (keeps : ∀ w, (f w).db = w.db)

/-- The world after a step. -/
def linkStep : LinkStep → World → World
  | .setLinkedUser username name ns, w =>
      w.setDb (CvAuth.setLinkedUser username name ns w.db).2
  | .clearLinkedUser username, w =>
      w.setDb (CvAuth.clearLinkedUser username w.db).2
  | .register k _, w => (k.prog.run handle w).2
  | .delete cluster username userType ns, w =>
      ((CvHttp.deleteUser (enoughPages cluster w) cluster username userType
        ns).run handle w).2
  | .outside f _, w => f w

/-! ## Registrations -/

/-- The program leaves the accounts alone. -/
def KeepsAccounts {α : Type} (p : Svc α) : Prop :=
  ∀ w, (p.run handle w).2.db.localUsers = w.db.localUsers

theorem keepsAccounts_of_prepares {α : Type} (cluster : String) {p : Svc α}
    (hp : p.Uses (Prepares cluster)) : KeepsAccounts p :=
  fun w => congrArg Database.localUsers
    (run_db_of_uses (hp.imp (fun _ h => h.2)) w)

theorem keepsAccounts_bind {α β : Type} {p : Svc α} {f : α → Svc β}
    (hp : KeepsAccounts p) (hf : ∀ a, KeepsAccounts (f a)) :
    KeepsAccounts (p >>= f) := by
  intro w
  have hw := hp w
  rw [Prog.run_bind]
  generalize p.run handle w = o at hw ⊢
  obtain ⟨r, v⟩ := o
  cases r with
  | error e => exact hw
  | ok a => exact (hf a v).trans hw

theorem keepsAccounts_pure {α : Type} (a : α) :
    KeepsAccounts (pure a : Svc α) := fun _ => rfl

theorem keepsAccounts_ite {α : Type} {c : Prop} [Decidable c] {p q : Svc α}
    (hp : KeepsAccounts p) (hq : KeepsAccounts q) :
    KeepsAccounts (if c then p else q) := by
  by_cases hc : c
  · rw [if_pos hc]
    exact hp
  · rw [if_neg hc]
    exact hq

theorem keepsAccounts_updateRegistry
    (mutate : List RegistryEntry → Except Exn (List RegistryEntry)) :
    KeepsAccounts (updateRegistry mutate) := by
  intro w
  rcases run_updateRegistry mutate w with
    ⟨⟨e, w', hrun, hidle⟩, -⟩ | ⟨users, t', -, hcommit, -⟩
  · rw [hrun]
    exact congrArg Database.localUsers hidle.db
  · rw [hcommit.db]
    rfl

theorem keepsAccounts_createAccount (name : String) :
    KeepsAccounts (ServiceAccount.createUser cluster name ns) := by
  refine keepsAccounts_bind (keepsAccounts_of_prepares cluster
    (loadRegistry_prepares cluster)) (fun users => keepsAccounts_ite
      (fun _ => rfl) ?_)
  refine keepsAccounts_bind (keepsAccounts_of_prepares cluster
    ((ensureNamespace_kubeOn cluster ns).imp Prepares.of_kubeOn)) (fun _ => ?_)
  refine keepsAccounts_bind (keepsAccounts_of_prepares cluster
    (uses_unlessStatus (prepares_kube _) trivial)) (fun _ => ?_)
  refine keepsAccounts_bind (keepsAccounts_of_prepares cluster
    (uses_unlessStatus (prepares_kube _) trivial)) (fun _ => ?_)
  refine keepsAccounts_bind (keepsAccounts_of_prepares cluster
    (nowText_prepares cluster)) (fun now => ?_)
  exact keepsAccounts_bind (keepsAccounts_updateRegistry _)
    (fun _ => keepsAccounts_pure _)

theorem keepsAccounts_importAccount (name : String) :
    KeepsAccounts (ServiceAccount.importUser cluster name ns) := by
  refine keepsAccounts_bind (keepsAccounts_of_prepares cluster
    (prepares_kube _)) (fun _ => ?_)
  refine keepsAccounts_bind (keepsAccounts_of_prepares cluster
    (nowText_prepares cluster)) (fun now => ?_)
  exact keepsAccounts_bind (keepsAccounts_updateRegistry _)
    (fun _ => keepsAccounts_pure _)

theorem keepsAccounts_createCertificate (groups : List String) :
    KeepsAccounts (Certificate.createUser cluster username groups) := by
  refine keepsAccounts_bind (keepsAccounts_of_prepares cluster
    (loadRegistry_prepares cluster)) (fun users => keepsAccounts_ite
      (fun _ => rfl) ?_)
  refine keepsAccounts_bind (fun _ => rfl) (fun key => ?_)
  refine keepsAccounts_bind (keepsAccounts_of_prepares cluster
    (Certificate.submit_prepares _)) (fun _ => ?_)
  refine keepsAccounts_bind (keepsAccounts_of_prepares cluster
    (Certificate.approve_prepares _)) (fun _ => ?_)
  refine keepsAccounts_bind (keepsAccounts_of_prepares cluster
    (Certificate.waitForCertificate_prepares _))
    (fun certificate => ?_)
  refine keepsAccounts_bind (keepsAccounts_of_prepares cluster
    (nowText_prepares cluster)) (fun now => ?_)
  refine keepsAccounts_bind (keepsAccounts_of_prepares cluster
    (Certificate.storeKey_prepares _ _))
    (fun vaultPath => ?_)
  exact keepsAccounts_bind (keepsAccounts_updateRegistry _)
    (fun _ => keepsAccounts_ite (keepsAccounts_pure _) (keepsAccounts_pure _))

theorem keepsAccounts_importCertificate (groups : List String) :
    KeepsAccounts (Certificate.importUser username groups) := by
  refine keepsAccounts_bind (keepsAccounts_of_prepares localCluster
    (nowText_prepares localCluster)) (fun now => ?_)
  exact keepsAccounts_bind (keepsAccounts_updateRegistry _)
    (fun _ => keepsAccounts_pure _)

theorem register_accounts {k : UserCall} (hk : k.registers = true)
    (w : World) : (k.prog.run handle w).2.db.localUsers = w.db.localUsers := by
  cases k with
  | deleteCertificate | deleteAccount => exact nomatch hk
  | createCertificate cluster username groups =>
      exact keepsAccounts_bind (keepsAccounts_createCertificate groups)
        (fun _ => keepsAccounts_pure ()) w
  | importCertificate username groups =>
      exact keepsAccounts_bind (keepsAccounts_importCertificate groups)
        (fun _ => keepsAccounts_pure ()) w
  | createAccount cluster name ns =>
      exact keepsAccounts_bind (keepsAccounts_createAccount name)
        (fun _ => keepsAccounts_pure ()) w
  | importAccount cluster name ns =>
      exact keepsAccounts_bind (keepsAccounts_importAccount name)
        (fun _ => keepsAccounts_pure ()) w

/-- A certificate user is in the namespace `default`. -/
def InDefault (u : RegistryEntry) : Prop :=
  u.type = .certificate → u.ns = "default"

/-- The registry after a registration: at most one user more. -/
theorem register_users {k : UserCall} (hk : k.registers = true) (w : World) :
    Leaves w.db.managedUsers (fun t' => ∃ taken user, InDefault user ∧
      Appended taken user w.db.managedUsers t') (k.prog.run handle w).2 := by
  cases k with
  | deleteCertificate | deleteAccount => exact nomatch hk
  | createCertificate cluster username groups =>
      refine Leaves.imp ?_ (ends_void (Certificate.createUser_ends rfl)).leaves
      rintro t' ⟨now, certificate, happ⟩
      exact ⟨_, _, fun _ => rfl, happ⟩
  | importCertificate username groups =>
      refine Leaves.imp ?_ (ends_void (Certificate.importUser_ends rfl)).leaves
      rintro t' ⟨now, happ⟩
      exact ⟨_, _, fun _ => rfl, happ⟩
  | createAccount cluster name ns =>
      refine Leaves.imp ?_
        (ends_void (ServiceAccount.createUser_ends rfl)).leaves
      rintro t' ⟨now, happ⟩
      refine ⟨_, _, ?_, happ⟩
      intro htype
      cases htype
  | importAccount cluster name ns =>
      refine Leaves.imp ?_
        (ends_void (ServiceAccount.importUser_ends rfl)).leaves
      rintro t' ⟨now, happ⟩
      refine ⟨_, _, ?_, happ⟩
      intro htype
      cases htype

/-! ## The invariant -/

/-- What the registry of managed users satisfies in every run. -/
structure Sound (t : Users) : Prop where
  inDefault : ∀ r ∈ t.rows, InDefault (toDict r)
  dated : Dated t

theorem Sound.legible {t : Users} (h : Sound t) : Legible t :=
  fun _ hr => readable_toDict h.dated.timely hr

/-- An appended user takes no key away. -/
theorem appended_get_ne {t t' : Users} {taken : RegistryEntry → Bool}
    {user : RegistryEntry} (h : Appended taken user t t')
    {k : String × String} (hk : t.get k ≠ none) : t'.get k ≠ none := by
  obtain ⟨row, -, hget⟩ := h.row
  rw [hget]
  by_cases hkey : k = user.key
  · rw [if_pos hkey]
    exact Option.some_ne_none row
  · rw [if_neg hkey]
    exact hk

theorem inDefault_of_appended {t t' : Users} {taken : RegistryEntry → Bool}
    {user : RegistryEntry} (ht : ∀ r ∈ t.rows, InDefault (toDict r))
    (huser : InDefault user) (h : Appended taken user t t') :
    ∀ r ∈ t'.rows, InDefault (toDict r) := by
  obtain ⟨row, hrow, hget⟩ := h.row
  intro r hr
  have hkey := Table.get_of_mem hr
  rw [hget] at hkey
  by_cases hk : r.key = user.key
  · rw [if_pos hk] at hkey
    obtain rfl := Option.some.inj hkey
    intro hcert
    have htype : row.type = .certificate := hcert
    rw [hrow.type] at htype
    exact hrow.ns.trans (huser htype)
  · rw [if_neg hk] at hkey
    exact ht r (Table.mem_of_get hkey)

/-- A registry from which users have been removed is sound still. -/
theorem Sound.removed {t t' : Users} {gone : RegistryEntry → Bool}
    (h : Sound t) (hremoved : Removed gone t t') : Sound t' := by
  refine ⟨?_, dated_of_removed h.dated hremoved⟩
  intro r hr
  have hkey := hremoved r.key
  rw [Table.get_of_mem hr] at hkey
  exact h.inDefault r
    (Table.mem_of_get (Option.eq_some_of_filter_eq_some hkey.symm))

/-- The entries that a DELETE removes are those with the key of the chosen
    one. -/
theorem removedWith_iff (hw : Sound w.db.managedUsers)
    (h : chosenEntry w username userType ns = some u) {r : ManagedUser}
    (hr : r ∈ w.db.managedUsers.rows) :
    removedWith username userType u (toDict r) = true ↔ r.key = u.key := by
  obtain ⟨r₀, hr₀, hu⟩ := List.mem_map.mp (mem_of_chosen h)
  obtain ⟨hname, htype⟩ := chosen_name h
  constructor
  · intro hgone
    rw [removedWith] at hgone
    by_cases hcert : userType = .certificate
    · rw [if_pos hcert] at hgone
      obtain ⟨hrname, hrtype⟩ := of_decide_eq_true hgone
      have huns : u.ns = "default" :=
        hu ▸ hw.inDefault r₀ hr₀ (by rw [hu, htype, hcert])
      have hrns : r.ns = "default" := hw.inDefault r hr hrtype
      exact Prod.ext (hrname.trans hname.symm) (hrns.trans huns.symm)
    · rw [if_neg hcert] at hgone
      obtain ⟨hrname, -, hrns⟩ := of_decide_eq_true hgone
      exact Prod.ext (hrname.trans hname.symm) hrns
  · intro hkey
    have hsame : r = r₀ :=
      Table.eq_of_key hr hr₀ (by rw [hkey, ← hu, toDict_key])
    rw [hsame, hu]
    exact removedWith_chosen h

/-- The registry after a DELETE. -/
theorem get_deleted (hw : Sound w.db.managedUsers)
    (h : chosenEntry w username userType ns = some u)
    (hdeleted : Removed (removedWith username userType u) w.db.managedUsers
      w'.db.managedUsers) (k : String × String) :
    w'.db.managedUsers.get k
      = if k = u.key then none else w.db.managedUsers.get k := by
  rw [hdeleted k]
  cases hrow : w.db.managedUsers.get k with
  | none =>
      rw [Option.filter_none, ite_self]
  | some r =>
      have hiff := removedWith_iff hw h (Table.mem_of_get hrow)
      rw [Table.key_of_get hrow] at hiff
      rw [Option.filter_some]
      by_cases hk : k = u.key
      · rw [if_pos hk, hiff.mpr hk]
        rfl
      · rw [if_neg hk, Bool.eq_false_iff.mpr (fun hgone => hk (hiff.mp hgone))]
        rfl

/-! ## Steps and links -/

/-- The links stay alive when the accounts stay and no user goes. -/
theorem linksAlive_mono {d d' : Database} (h : LinksAlive d)
    (haccounts : d'.localUsers = d.localUsers)
    (husers : ∀ k, d.managedUsers.get k ≠ none →
      d'.managedUsers.get k ≠ none) : LinksAlive d' := by
  intro a ha
  rw [haccounts] at ha
  rw [linkAlive_iff]
  rcases linkAlive_iff.mp (h a ha) with hnone | ⟨k, hlink, hk⟩
  · exact Or.inl hnone
  · exact Or.inr ⟨k, hlink, husers k hk⟩

/-- Storing an account whose link is alive. -/
theorem linksAlive_withAccount {d : Database} {a : LocalUser}
    (h : LinksAlive d) (ha : LinkAlive d.managedUsers a.linkedManagedUser
      a.linkedManagedUserNamespace) : LinksAlive (CvAuth.withAccount d a) := by
  intro b hb
  rcases Table.mem_put.mp hb with rfl | ⟨hold, -⟩
  · exact ha
  · exact h b hold

theorem linksAlive_setLinkedUser {d : Database} (h : LinksAlive d)
    (username name ns : String) :
    LinksAlive (CvAuth.setLinkedUser username name ns d).2 := by
  rw [CvAuth.setLinkedUser]
  cases d.localUsers.get username with
  | none => exact h
  | some entry =>
      cases huser : d.managedUsers.get (name, ns) with
      | none => exact h
      | some r =>
          refine linksAlive_withAccount h ?_
          show d.managedUsers.get (name, ns) ≠ none
          rw [huser]
          exact Option.some_ne_none r

theorem linksAlive_clearLinkedUser {d : Database} (h : LinksAlive d)
    (username : String) :
    LinksAlive (CvAuth.clearLinkedUser username d).2 := by
  rw [CvAuth.clearLinkedUser]
  cases d.localUsers.get username with
  | none => exact h
  | some entry => exact linksAlive_withAccount h trivial

/-- A DELETE keeps the links alive exactly when it clears those to the entry
    that it has chosen, or there are none. -/
theorem linksAlive_deleted_iff (hw : Sound w.db.managedUsers)
    (halive : LinksAlive w.db)
    (h : chosenEntry w username userType ns = some u)
    (hdeleted : Deleted cluster username userType ns u w w') :
    LinksAlive w'.db ↔ (u.ns = linkedNamespace userType ns ∨
      ∀ a ∈ w.db.localUsers.rows, ¬ LinkedTo u.key a) := by
  have hget := get_deleted hw h hdeleted.users
  have hkey : u.key = (username, u.ns) :=
    congrArg (fun name => (name, u.ns)) (chosen_name h).1
  constructor
  · intro halive'
    rw [or_iff_not_imp_left]
    intro hns a ha hlink
    have hne : u.key ≠ (username, linkedNamespace userType ns) := by
      rw [hkey]
      exact fun heq => hns (Prod.mk.inj heq).2
    have hlink' := linkedTo_unlinked.mpr ⟨hlink, hne⟩
    have ha' := halive' _ (by
      rw [hdeleted.accounts]
      exact List.mem_map.mpr ⟨a, ha, rfl⟩)
    rcases linkAlive_iff.mp ha' with ⟨hnone, -⟩ | ⟨k, hk, halive''⟩
    · rw [hlink'.1] at hnone
      cases hnone
    · rw [hk.unique hlink', hget, if_pos rfl] at halive''
      exact halive'' rfl
  · intro hclears a' ha'
    rw [hdeleted.accounts] at ha'
    obtain ⟨a, ha, rfl⟩ := List.mem_map.mp ha'
    rw [linkAlive_iff]
    rcases linkAlive_iff.mp (halive a ha) with hnone | ⟨k, hlink, hk⟩
    · rw [unlinked_of_none hnone.1]
      exact Or.inl hnone
    · by_cases hcleared : k = (username, linkedNamespace userType ns)
      · rw [hcleared] at hlink
        exact Or.inl (unlinked_of_linkedTo hlink)
      · refine Or.inr ⟨k, linkedTo_unlinked.mpr ⟨hlink, hcleared⟩, ?_⟩
        rw [hget, if_neg]
        · exact hk
        -- the chosen entry is not the one that this account is linked to
        · rintro rfl
          rcases hclears with hns | hnone
          · rw [hkey, hns] at hcleared
            exact hcleared rfl
          · exact hnone a ha hlink

/-- A DELETE of this step chooses an entry in the namespace whose links it
    clears, or one that no account is linked to. -/
def ClearsLinks (w : World) : LinkStep → Prop
  | .delete _ username userType ns =>
      ∀ u, chosenEntry w username userType ns = some u →
        u.ns = linkedNamespace userType ns ∨
          ∀ a ∈ w.db.localUsers.rows, ¬ LinkedTo u.key a
  | _ => True

/-- A world in which no link dangles, and whose registry is sound. -/
structure Intact (w : World) : Prop where
  alive : LinksAlive w.db
  sound : Sound w.db.managedUsers

/-- Every step keeps the registry sound. -/
theorem sound_step (k : LinkStep) (hw : Sound w.db.managedUsers) :
    Sound (linkStep k w).db.managedUsers := by
  cases k with
  | setLinkedUser username name ns =>
      have hsame : (CvAuth.setLinkedUser username name ns w.db).2.managedUsers
          = w.db.managedUsers := by
        rw [CvAuth.setLinkedUser]
        cases w.db.localUsers.get username with
        | none => rfl
        | some entry =>
            cases w.db.managedUsers.get (name, ns) with
            | none => rfl
            | some r => rfl
      show Sound (CvAuth.setLinkedUser username name ns w.db).2.managedUsers
      rw [hsame]
      exact hw
  | clearLinkedUser username =>
      have hsame : (CvAuth.clearLinkedUser username w.db).2.managedUsers
          = w.db.managedUsers := by
        rw [CvAuth.clearLinkedUser]
        cases w.db.localUsers.get username with
        | none => rfl
        | some entry => rfl
      show Sound (CvAuth.clearLinkedUser username w.db).2.managedUsers
      rw [hsame]
      exact hw
  | register k hk =>
      refine ⟨?_, dated_step (.call k) hw.dated⟩
      show ∀ r ∈ (k.prog.run handle w).2.db.managedUsers.rows, _
      rcases register_users hk w with hsame | ⟨taken, user, huser, happ⟩
      · rw [hsame]
        exact hw.inDefault
      · exact inDefault_of_appended hw.inDefault huser happ
  | delete cluster username userType ns =>
      cases hchosen : chosenEntry w username userType ns with
      | none =>
          obtain ⟨x, hrun⟩ := run_deleteUser_none
            (enoughPages cluster w) cluster hchosen
          rw [linkStep, hrun]
          exact hw
      | some u =>
          have hdeleted := (run_deleteUser_chosen cluster
            hw.legible (Nat.lt_succ_self _) hchosen).2
          exact hw.removed hdeleted.users
  | outside f keeps =>
      rw [linkStep, keeps]
      exact hw

/-- One step keeps the links alive exactly when it clears those it has to. -/
theorem linksAlive_step_iff (hw : Intact w) (k : LinkStep) :
    LinksAlive (linkStep k w).db ↔ ClearsLinks w k := by
  cases k with
  | setLinkedUser username name ns =>
      exact iff_of_true (linksAlive_setLinkedUser hw.alive username name ns)
        trivial
  | clearLinkedUser username =>
      exact iff_of_true (linksAlive_clearLinkedUser hw.alive username) trivial
  | register k hk =>
      refine iff_of_true ?_ trivial
      refine linksAlive_mono hw.alive (register_accounts hk w) ?_
      intro key hkey
      show (k.prog.run handle w).2.db.managedUsers.get key ≠ none
      rcases register_users hk w with hsame | ⟨taken, user, -, happ⟩
      · rw [hsame]
        exact hkey
      · exact appended_get_ne happ hkey
  | delete cluster username userType ns =>
      cases hchosen : chosenEntry w username userType ns with
      | none =>
          obtain ⟨x, hrun⟩ := run_deleteUser_none
            (enoughPages cluster w) cluster hchosen
          rw [linkStep, hrun]
          refine iff_of_true hw.alive ?_
          intro u hu
          rw [hchosen] at hu
          cases hu
      | some u =>
          have hdeleted := (run_deleteUser_chosen cluster
            hw.sound.legible (Nat.lt_succ_self _) hchosen).2
          have hiff := linksAlive_deleted_iff hw.sound hw.alive hchosen
            hdeleted
          constructor
          · intro halive v hv
            rw [hchosen] at hv
            cases hv
            exact hiff.mp halive
          · intro hclears
            exact hiff.mpr (hclears u hchosen)
  | outside f keeps =>
      rw [linkStep, keeps]
      exact iff_of_true hw.alive trivial

/-- In every run from an intact world: no link dangles in any state that the
    run reaches, exactly when every DELETE of the run chooses an entry in the
    namespace whose links it clears, or one that no account is linked to. -/
theorem links_alive_iff (w : World) (hw : Intact w) (ks : List LinkStep) :
    (∀ pre, pre <+: ks → LinksAlive (after linkStep pre w).db) ↔
      Along linkStep ClearsLinks ks w := by
  refine (reached_iff (I := fun w : World => LinksAlive w.db)).trans ?_
  have hstep : ∀ (v : World) (k : LinkStep), Intact v →
      LinksAlive (linkStep k v).db → Intact (linkStep k v) :=
    fun v k hv halive => ⟨halive, sound_step k hv.sound⟩
  have hiff : ∀ (v : World) (k : LinkStep), Intact v →
      (LinksAlive (linkStep k v).db ↔ ClearsLinks v k) :=
    fun v k hv => linksAlive_step_iff hv k
  have hcongr := along_congr hstep hiff hw ks
  constructor
  · rintro ⟨-, hks⟩
    exact hcongr.mp hks
  · intro hks
    exact ⟨hw.alive, hcongr.mpr hks⟩

/-- A new installation with one account. -/
def withAda : World :=
  World.fresh.setDb { Database.fresh with
    localUsers := Table.empty.put ⟨"ada", some "", .local, none, none, none⟩ }

theorem intact_withAda : Intact withAda := by
  refine ⟨by decide, ?_, ?_⟩
  · intro r hr
    cases hr
  · intro r hr
    cases hr

/-- A ServiceAccount user is created in `apps`, linked to the account, and
    deleted by a request that names the namespace. -/
def linkAndDelete (ns : String) : List LinkStep :=
  [.register (.createAccount "local" "ci" "apps") rfl,
    .setLinkedUser "ada" "ci" "apps",
    .delete "local" "ci" .serviceAccount ns]

/-- The namespace of the user. -/
theorem links_alive_apps :
    LinksAlive withAda.db ∧ ∀ pre, pre <+: linkAndDelete "apps" →
      LinksAlive (after linkStep pre withAda).db := by
  refine ⟨intact_withAda.alive, ?_⟩
  refine (links_alive_iff withAda intact_withAda (linkAndDelete "apps")).mpr
    ⟨trivial, trivial, ?_, trivial⟩
  intro u hu
  have hentry : some (ServiceAccount.userRecord "ci" "apps"
      (timeText (utc Time.epoch)) false) = some u := hu
  rw [← Option.some.inj hentry]
  exact Or.inl rfl

/-- The namespace `default`, where there is no user of that name: the one in
    `apps` is deleted, and the account stays linked to it. -/
theorem link_dangles :
    ¬ ∀ pre, pre <+: linkAndDelete "default" →
      LinksAlive (after linkStep pre withAda).db := by
  intro h
  have hlast := h (linkAndDelete "default") (List.prefix_refl _)
  revert hlast
  decide +kernel

end CvLinks
