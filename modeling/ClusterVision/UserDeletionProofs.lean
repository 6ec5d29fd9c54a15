import ClusterVision.HttpRunProofs

/-! # What a deleted user leaves behind

    DELETE removes the objects of a user from the cluster that it names.  The
    registry has no record of the cluster through which the user was created,
    and objects that are not there are skipped: so the request succeeds on any
    cluster, and cleans up when it names the right one. -/

namespace CvDeletion

open CvProg CvRun CvTable CvIso CvKube CvBackend CvRbac CvRegistry CvUsers
open CvHttp

variable {w : World} {cluster username ns : String} {userType : UserType}

/-! ## The request -/

/-- The entry that a DELETE chooses. -/
def chosenEntry (w : World) (username : String) (userType : UserType)
    (ns : String) : Option RegistryEntry :=
  if userType = .certificate then
    (w.db.managedUsers.rows.map toDict).find? (Certificate.isUser username)
  else (ServiceAccount.chosen username ns
    (w.db.managedUsers.rows.map toDict)).toOption

/-- Among ServiceAccount users it is the one that `delete_user` chooses. -/
theorem chosen_of_chosenEntry {u : RegistryEntry}
    (htype : userType ≠ .certificate)
    (h : chosenEntry w username userType ns = some u) :
    ServiceAccount.chosen username ns (w.db.managedUsers.rows.map toDict)
      = .ok u := by
  rw [chosenEntry, if_neg htype] at h
  cases hc : ServiceAccount.chosen username ns
      (w.db.managedUsers.rows.map toDict) with
  | error e =>
      rw [hc] at h
      exact nomatch h
  | ok v =>
      rw [hc] at h
      exact congrArg Except.ok (Option.some.inj h)

/-- It is one of the registry. -/
theorem mem_of_chosen {u : RegistryEntry}
    (h : chosenEntry w username userType ns = some u) :
    u ∈ w.db.managedUsers.rows.map toDict := by
  by_cases htype : userType = .certificate
  · rw [chosenEntry, if_pos htype] at h
    exact List.mem_of_find?_eq_some h
  · exact (ServiceAccount.chosen_spec (chosen_of_chosenEntry htype h)).1

/-- Nothing is left of a user: neither what its creation made nor a binding
    of its name. -/
structure CleanOf (u : RegistryEntry) (c : Cluster) : Prop where
  account : u.type = .serviceAccount →
    c.serviceAccounts.get (u.ns, u.name) = none ∧
      c.secrets.get (u.ns, ServiceAccount.tokenSecretName u.name) = none
  csr : u.type = .certificate →
    c.csrs.get (Certificate.csrNameFor u.name) = none
  bindings : ∀ b ∈ c.bindings.rows,
    startswith b.name (bindingPrefix u.name) = false

/-- The cluster without the bindings of a user. -/
def withoutBindings (c : Cluster) (username : String) : Cluster :=
  c.withBindings
    (c.bindings.keep (fun b => !startswith b.name (bindingPrefix username)))

/-- What a DELETE that succeeds makes of its cluster, from what the service
    function `delete_user` has made of it. -/
theorem run_deleteUser_cluster {fuel : Nat} {body : Body}
    (hfuel : (((deleteManagedUser cluster username userType ns).run handle
      w).2.clusters cluster).bindings.rows.length < fuel)
    (hok : ((CvHttp.deleteUser fuel cluster username userType ns).run handle
      w).1 = .ok body) :
    ((CvHttp.deleteUser fuel cluster username userType ns).run handle
        w).2.clusters cluster
      = withoutBindings (((deleteManagedUser cluster username userType
          ns).run handle w).2.clusters cluster) username := by
  rw [CvHttp.deleteUser, Prog.run_bind] at hok ⊢
  generalize (deleteManagedUser cluster username userType ns).run handle w
    = o at hfuel hok ⊢
  obtain ⟨r, w₁⟩ := o
  cases r with
  | error e => exact nomatch hok
  | ok u =>
      rw [Prog.andThen_ok, Prog.run_bind, run_deleteUserBindings hfuel,
        Prog.andThen_ok, Prog.run_bind]
      -- clearing the links is a matter of the database
      have hlinks : ∀ v : World, ((clearLinksTo username
          (linkedNamespace userType ns)).run handle v).2.clusters
            = v.clusters := fun _ => rfl
      generalize hv : setBindings w₁ cluster _ = v
      have hcluster : v.clusters cluster
          = withoutBindings (w₁.clusters cluster) username :=
        hv ▸ World.setCluster_self ..
      have h := hlinks v
      generalize (clearLinksTo username (linkedNamespace userType ns)).run
        handle v = o at h ⊢
      obtain ⟨r, w₂⟩ := o
      rw [← hcluster]
      cases r with
      | error e => exact congrFun h cluster
      | ok u => exact congrFun h cluster

/-- A DELETE that succeeds leaves nothing of the chosen user on the cluster of
    the request, if the entry of a certificate user names its request. -/
theorem run_deleteUser_clean {fuel : Nat} {body : Body} {u : RegistryEntry}
    (hchosen : chosenEntry w username userType ns = some u)
    (hcsr : u.type = .certificate →
      u.csrName = some (Certificate.csrNameFor u.name))
    (hfuel : (w.clusters cluster).bindings.rows.length < fuel)
    (hok : ((CvHttp.deleteUser fuel cluster username userType ns).run handle
      w).1 = .ok body) :
    CleanOf u (((CvHttp.deleteUser fuel cluster username userType ns).run
      handle w).2.clusters cluster) := by
  have hgone : ∀ {c : Cluster} {b : Binding},
      b ∈ (withoutBindings c username).bindings.rows →
        startswith b.name (bindingPrefix username) = false := by
    intro c b hb
    have hkept := (Table.mem_keep.mp hb).2
    rw [Bool.not_eq_true'] at hkept
    exact hkept
  -- the bindings go in both branches; besides, a certificate user loses its
  -- CSR, and a ServiceAccount user its account and its token
  by_cases htype : userType = .certificate
  · rw [chosenEntry, if_pos htype] at hchosen
    have hfound : Certificate.isUser username u = true :=
      List.find?_some hchosen
    have hu := of_decide_eq_true hfound
    have hne := Certificate.csrNameFor_ne u.name
    have hmanaged : ((deleteManagedUser cluster username userType ns).run
        handle w).2.clusters cluster
        = Certificate.withoutCsr (w.clusters cluster)
            (Certificate.csrNameFor u.name) := by
      rw [deleteManagedUser, if_pos htype,
        Certificate.run_deleteUser_clusters hchosen (hcsr hu.2) hne]
      exact World.setCluster_self ..
    have hcluster := run_deleteUser_cluster (by rw [hmanaged]; exact hfuel)
      hok
    rw [hcluster, hmanaged]
    refine ⟨fun hsa => ?_, fun _ => Table.get_erase_self _ _, fun b hb => ?_⟩
    · rw [hu.2] at hsa
      cases hsa
    · rw [hu.1]
      exact hgone hb
  · have hchosen' := chosen_of_chosenEntry htype hchosen
    obtain ⟨-, hname, hsa⟩ := ServiceAccount.chosen_spec hchosen'
    have hmanaged : ((deleteManagedUser cluster username userType ns).run
        handle w).2.clusters cluster
        = ServiceAccount.withoutAccount (w.clusters cluster) u.ns
            username := by
      rw [deleteManagedUser, if_neg htype,
        ServiceAccount.run_deleteUser_clusters hchosen']
      exact World.setCluster_self ..
    have hcluster := run_deleteUser_cluster (by rw [hmanaged]; exact hfuel)
      hok
    rw [hcluster, hmanaged]
    refine ⟨fun _ => ?_, fun hcert => ?_, fun b hb => ?_⟩
    · rw [hname]
      exact ⟨Table.get_erase_self _ _, Table.get_erase_self _ _⟩
    · rw [hsa] at hcert
      cases hcert
    · rw [hname]
      exact hgone hb

/-! ## Runs -/

/-- The entries of certificate users that came through a known cluster, and
    were not imported, name their signing request. -/
def NamesCsr (s : Tracked) : Prop :=
  ∀ k r, s.world.db.managedUsers.get k = some r → s.origins k ≠ none →
    r.type = .certificate → r.imported = false →
    r.csrName = some (Certificate.csrNameFor r.name)

/-- An entry that a request has written names its signing request too. -/
theorem change_namesCsr {e : UsersEndpoint} {t t' : Users}
    (h : e.Change t t') {k : String × String} {r : ManagedUser}
    (hr : t'.get k = some r) (hne : t'.get k ≠ t.get k)
    (hcert : r.type = .certificate) (himported : r.imported = false) :
    r.csrName = some (Certificate.csrNameFor r.name) := by
  -- what is appended, is the row of the user; what is removed, is no row
  have happended : ∀ {taken user}, Appended taken user t t' →
      RowOf user r := by
    intro taken user happ
    obtain ⟨row, hrow, hget⟩ := happ.row
    have hk := hget k
    by_cases hkey : k = user.key
    · rw [if_pos hkey, hr] at hk
      exact Option.some.inj hk ▸ hrow
    · rw [if_neg hkey] at hk
      exact absurd hk hne
  have hremoved : ∀ {gone}, ¬ Removed gone t t' := by
    intro gone hrem
    have hk := hrem k
    rw [hr] at hk
    rw [hr, ← Option.eq_some_of_filter_eq_some hk.symm] at hne
    exact hne rfl
  cases e with
  | listUsers => cases h
  | listUnmanagedServiceAccounts => cases h
  | getUser username => cases h
  | createUser payload =>
      rw [UsersEndpoint.Change] at h
      by_cases htype : payload.userType = .certificate
      · rw [if_pos htype] at h
        obtain ⟨now, certificate, happ⟩ := h
        have hrow := happended happ
        rw [hrow.csrName, hrow.name]
        rfl
      · rw [if_neg htype] at h
        obtain ⟨now, happ⟩ := h
        rw [(happended happ).type] at hcert
        cases hcert
  | importUser payload =>
      rw [UsersEndpoint.Change] at h
      by_cases htype : payload.userType = .certificate
      · rw [if_pos htype] at h
        obtain ⟨now, happ⟩ := h
        rw [(happended happ).imported] at himported
        cases himported
      · rw [if_neg htype] at h
        obtain ⟨now, happ⟩ := h
        rw [(happended happ).type] at hcert
        cases hcert
  | deleteUser username userType ns =>
      rw [UsersEndpoint.Change] at h
      by_cases htype : userType = .certificate
      · rw [if_pos htype] at h
        exact absurd h hremoved
      · rw [if_neg htype] at h
        obtain ⟨u, -, hrem⟩ := h
        exact absurd hrem hremoved

/-- Every step keeps it so. -/
theorem namesCsr_step (s : Tracked) (k : RunStep) (hs : NamesCsr s) :
    NamesCsr (trackedStep k s) := by
  cases k with
  | outside f keeps =>
      intro k r hr
      exact hs k r (by rw [← keeps]; exact hr)
  | request q =>
      intro k r hr horigin hcert himported
      by_cases hsame : (q.after s.world).db.managedUsers.get k
          = s.world.db.managedUsers.get k
      · refine hs k r (hsame ▸ hr) ?_ hcert himported
        intro hnone
        exact horigin ((if_pos hsame).trans hnone)
      · rcases after_users q s.world with hkept | ⟨e, -, -, hchange⟩
        · exact absurd (by rw [hkept]) hsame
        · exact change_namesCsr hchange hr hsame hcert himported

/-- If this step is a DELETE that succeeds, and chooses a user that was
    created through the cluster `A`, then nothing of the user is left on
    `A`. -/
def CleansUp (s : Tracked) : RunStep → Prop
  | .request q => ∀ username userType ns u A body,
      q.endpoint = .users (.deleteUser username userType ns) →
      chosenEntry s.world username userType ns = some u →
      u.imported = false → s.origins u.key = some A →
      (q.run s.world).1 = .ok body →
      CleanOf u ((q.after s.world).clusters A)
  | .outside _ _ => True

/-- If this step is a DELETE that is admitted, and chooses a user that was
    created through the cluster `A`, then it names `A`, or nothing of the user
    is left there already. -/
def SentHome (s : Tracked) : RunStep → Prop
  | .request q => ∀ username userType ns u A,
      q.endpoint = .users (.deleteUser username userType ns) →
      chosenEntry s.world username userType ns = some u →
      u.imported = false → s.origins u.key = some A → q.Admitted s.world →
      q.cluster = A ∨ CleanOf u (s.world.clusters A)
  | .outside _ _ => True

/-- One request. -/
theorem cleansUp_of_sentHome (s : Tracked) (k : RunStep) (hs : NamesCsr s)
    (h : SentHome s k) : CleansUp s k := by
  cases k with
  | outside f keeps => exact trivial
  | request q =>
      intro username userType ns u A body he hchosen himported horigin hok
      have hq : q.Admitted s.world := by
        by_contra hq
        obtain ⟨x, hx⟩ := (run_users he).2
        rw [hx s.world hq] at hok
        exact nomatch hok
      by_cases hA : A = q.cluster
      · -- the request names the cluster of the user
        have hrow : ∃ r, s.world.db.managedUsers.get u.key = some r ∧
            toDict r = u := by
          obtain ⟨r, hr, rfl⟩ := List.mem_map.mp (mem_of_chosen hchosen)
          exact ⟨r, Table.get_of_mem hr, rfl⟩
        obtain ⟨r, hr, rfl⟩ := hrow
        have hcsr : r.type = .certificate →
            (toDict r).csrName = some (Certificate.csrNameFor r.name) := by
          intro hcert
          have hname := hs _ r hr (by rw [horigin]; exact nofun) hcert
            himported
          show (if truthy r.csrName = true then r.csrName else none) = _
          rw [hname, if_pos]
          exact decide_eq_true (Certificate.csrNameFor_ne r.name)
        rw [(run_users he).1 s.world hq] at hok
        rw [HttpRequest.after, (run_users he).1 s.world hq, hA]
        exact run_deleteUser_clean hchosen hcsr (Nat.lt_succ_self _) hok
      · have hclean := (h username userType ns u A he hchosen himported
          horigin hq).resolve_left (fun h => hA h.symm)
        rw [after_clusters he (fun _ => hA)]
        exact hclean

/-- In every run from a state without origins in which every DELETE of a user
    that was created through a cluster names that cluster, every DELETE that
    succeeds cleans up. -/
theorem deletions_cleanUp (w : World) (ks : List RunStep)
    (h : Along trackedStep SentHome ks ⟨w, fun _ => none⟩) :
    Along trackedStep CleansUp ks ⟨w, fun _ => none⟩ :=
  h.imp_of_inv namesCsr_step cleansUp_of_sentHome
    (fun _ _ _ h => absurd rfl h)

/-- The entry of the ServiceAccount user `ci`. -/
def ciEntry : RegistryEntry :=
  ServiceAccount.userRecord "ci" "default" (timeText (utc Time.epoch)) false

/-- A user is created and deleted through `edge`. -/
theorem deletions_cleanUp_edge :
    Along trackedStep CleansUp
      [createAccount "edge" "ci", deleteAccount "edge" "ci"] .fresh := by
  refine deletions_cleanUp Tracked.fresh.world
    [createAccount "edge" "ci", deleteAccount "edge" "ci"] ⟨?_, ?_, trivial⟩
  · intro username userType ns u A he
    exact nomatch he
  · rintro username userType ns u A ⟨⟩ hchosen - horigin -
    have hentry : some ciEntry = some u := hchosen
    rw [← Option.some.inj hentry] at horigin
    exact Or.inl (Option.some.inj horigin)

/-- A user is created through `local` and deleted through `edge`: the
    ServiceAccount is still there. -/
theorem deletion_elsewhere :
    ¬ Along trackedStep CleansUp
      [createAccount "local" "ci", deleteAccount "edge" "ci"] .fresh := by
  rintro ⟨-, hdelete, -⟩
  have hclean := hdelete "ci" .serviceAccount "default" ciEntry "local" .empty
    rfl (by decide) rfl (by decide) (by decide)
  have haccount := (hclean.account rfl).1
  revert haccount
  decide

end CvDeletion
