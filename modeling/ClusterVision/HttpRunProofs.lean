import ClusterVision.RunProofs
import ClusterVision.UserServicesProofs
import ClusterVision.HttpRoutes

/-! # Runs of requests, and where the managed users came from

    A request that its gate refuses changes nothing.  One that is admitted acts
    on the cluster that it names, and on the registry, which is one for all
    clusters and does not say through which of them a user came.  A tracked
    state keeps that beside the world: the origin of every entry. -/

namespace CvHttp

open CvProg CvRun CvTable CvIso CvKube CvBackend CvRbac CvAccess CvRegistry
open CvUsers

/-! ## Routes -/

/-- What a route of the users router can make of the registry. -/
def UsersEndpoint.Change (t t' : Users) : UsersEndpoint → Prop
  | .createUser payload =>
      if payload.userType = .certificate then
        ∃ now certificate, Appended (Certificate.sameName payload.name)
          (Certificate.userRecord payload.name payload.groups now certificate)
          t t'
      else
        ∃ now, Appended (ServiceAccount.sameKey payload.name payload.ns)
          (ServiceAccount.userRecord payload.name payload.ns now false) t t'
  | .importUser payload =>
      if payload.userType = .certificate then
        ∃ now, Appended (Certificate.sameName payload.name)
          (Certificate.importedRecord payload.name payload.groups now) t t'
      else
        ∃ now, Appended (ServiceAccount.sameName payload.name)
          (ServiceAccount.userRecord payload.name payload.ns now true) t t'
  | .deleteUser username userType ns =>
      if userType = .certificate then
        Removed (Certificate.isUser username) t t'
      else
        ∃ u, ServiceAccount.chosen username ns (t.rows.map toDict) = .ok u ∧
          Removed (ServiceAccount.isEntry username u.ns) t t'
  | _ => False

variable {w : World} {t : Users} {cluster : String}

theorem listUsers_prepares (cluster : String) :
    listUsers.Uses (Prepares cluster) :=
  Prog.uses_bind (usersOfType_prepares cluster _) (fun _ =>
    Prog.uses_bind (usersOfType_prepares cluster _) (fun _ => trivial))

theorem listUnmanaged_prepares (cluster : String) :
    (UsersEndpoint.prog 0 cluster .listUnmanagedServiceAccounts).Uses
      (Prepares cluster) :=
  Prog.uses_bind (Prog.uses_bind (loadRegistry_prepares cluster) (fun _ =>
    Prog.uses_bind (prepares_kube _) (fun _ => trivial))) (fun _ => trivial)

theorem onUserNotFound_uses {α : Type} {P : Op → Prop} {p q : Svc α}
    (hp : p.Uses P) (hq : q.Uses P) : (onUserNotFound p q).Uses P := by
  refine Prog.uses_catching hp (fun e => ?_)
  cases e <;> first | exact hq | exact trivial

theorem getUser_prepares (cluster username : String) :
    (CvHttp.getUser username).Uses (Prepares cluster) := by
  refine Prog.uses_bind (onUserNotFound_uses ?_ (onUserNotFound_uses ?_
    trivial)) (fun _ => trivial)
  · refine Prog.uses_bind (loadRegistry_prepares cluster) (fun users => ?_)
    cases users.find? (Certificate.isUser username) with
    | none => exact trivial
    | some u => exact trivial
  · refine Prog.uses_bind (loadRegistry_prepares cluster) (fun users => ?_)
    split <;> exact trivial

/-- A route of the users router leaves the registry as it was, or changes it
    as its kind says. -/
theorem UsersEndpoint.prog_leaves (cluster : String) (fuel : Nat)
    (e : UsersEndpoint) (hw : w.db.managedUsers = t) :
    Leaves t (fun t' => e.Change t t') ((e.prog fuel cluster).run handle w).2 := by
  cases e with
  | listUsers =>
      refine Or.inl ((congrArg Database.managedUsers ?_).trans hw)
      exact run_db_of_uses ((listUsers_prepares cluster).imp
        (fun _ h => h.2)) w
  | createUser payload =>
      rw [UsersEndpoint.prog, CvHttp.createUser, Prog.run_ite]
      by_cases htype : payload.userType = .certificate
      · rw [if_pos htype]
        refine Leaves.imp (fun t' h => ?_) (leaves_andThen
          (Certificate.createUser_ends hw).leaves (fun _ => trivial))
        rw [UsersEndpoint.Change, if_pos htype]
        obtain ⟨now, certificate, h⟩ := h
        exact ⟨_, certificate, h⟩
      · rw [if_neg htype]
        refine Leaves.imp (fun t' h => ?_) (leaves_andThen
          (ServiceAccount.createUser_ends hw).leaves (fun _ => trivial))
        rw [UsersEndpoint.Change, if_neg htype]
        obtain ⟨now, h⟩ := h
        exact ⟨_, h⟩
  | listUnmanagedServiceAccounts =>
      refine Or.inl ((congrArg Database.managedUsers ?_).trans hw)
      exact run_db_of_uses ((listUnmanaged_prepares cluster).imp
        (fun _ h => h.2)) w
  | importUser payload =>
      rw [UsersEndpoint.prog, CvHttp.importUser, Prog.run_ite]
      by_cases htype : payload.userType = .certificate
      · rw [if_pos htype]
        refine Leaves.imp (fun t' h => ?_) (leaves_andThen
          (Certificate.importUser_ends hw).leaves (fun _ => trivial))
        rw [UsersEndpoint.Change, if_pos htype]
        obtain ⟨now, h⟩ := h
        exact ⟨_, h⟩
      · rw [if_neg htype]
        refine Leaves.imp (fun t' h => ?_) (leaves_andThen
          (ServiceAccount.importUser_ends hw).leaves (fun _ => trivial))
        rw [UsersEndpoint.Change, if_neg htype]
        obtain ⟨now, h⟩ := h
        exact ⟨_, h⟩
  | getUser username =>
      refine Or.inl ((congrArg Database.managedUsers ?_).trans hw)
      exact run_db_of_uses ((getUser_prepares cluster username).imp
        (fun _ h => h.2)) w
  | deleteUser username userType ns =>
      refine leaves_andThen ?_ (fun _ => Prog.uses_bind ?_ (fun _ =>
        Prog.uses_bind (clearLinksTo_keepsUsers _ _) (fun _ => trivial)))
      · rw [deleteManagedUser, Prog.run_ite]
        by_cases htype : userType = .certificate
        · rw [if_pos htype]
          refine (Certificate.deleteUser_leaves hw).imp (fun t' h => ?_)
          rw [UsersEndpoint.Change, if_pos htype]
          exact h
        · rw [if_neg htype]
          refine (ServiceAccount.deleteUser_leaves hw).imp (fun t' h => ?_)
          rw [UsersEndpoint.Change, if_neg htype]
          exact h
      · exact (deleteUserBindings_kubeOn fuel cluster username).imp
          (fun op h => .of_noCommit op h.noCommit)

/-- A route of the users router acts on the cluster of its client. -/
theorem UsersEndpoint.prog_onCluster (fuel : Nat) (e : UsersEndpoint) :
    (e.prog fuel cluster).Uses (OnCluster cluster) := by
  cases e with
  | listUsers => exact (listUsers_prepares cluster).imp Prepares.onCluster
  | createUser payload =>
      exact Prog.uses_ite
        (Prog.uses_bind Certificate.createUser_onCluster (fun _ => trivial))
        (Prog.uses_bind ServiceAccount.createUser_onCluster
          (fun _ => trivial))
  | listUnmanagedServiceAccounts =>
      exact (listUnmanaged_prepares cluster).imp Prepares.onCluster
  | importUser payload =>
      exact Prog.uses_ite
        (Prog.uses_bind Certificate.importUser_onCluster (fun _ => trivial))
        (Prog.uses_bind ServiceAccount.importUser_onCluster
          (fun _ => trivial))
  | getUser username =>
      exact (getUser_prepares cluster username).imp Prepares.onCluster
  | deleteUser username userType ns =>
      refine Prog.uses_bind (Prog.uses_ite Certificate.deleteUser_onCluster
        ServiceAccount.deleteUser_onCluster) (fun _ => ?_)
      refine Prog.uses_bind ((deleteUserBindings_kubeOn ..).imp
        KubeOn.onCluster) (fun _ => ?_)
      exact Prog.uses_bind (clearLinksTo_onCluster _ _) (fun _ => trivial)

/-- A route of the rbac router does nothing but call the Kubernetes API of the
    cluster of its client. -/
theorem RbacEndpoint.prog_kubeOn (fuel : Nat) (e : RbacEndpoint) :
    (e.prog fuel cluster).Uses (KubeOn cluster) := by
  have hcollect : ∀ (username : String) (found : List BindingRead)
      (b : Binding),
      (collectReferences username found b).Uses (KubeOn cluster) :=
    fun _ _ _ => trivial
  cases e with
  | listClusterRoles includeSystem limit cursor =>
      exact Prog.uses_bind (Prog.uses_bind (kubeOn_kube _ _)
        (fun _ => trivial)) (fun _ => trivial)
  | listRoles ns limit cursor =>
      exact Prog.uses_bind (Prog.uses_bind (kubeOn_kube _ _)
        (fun _ => trivial)) (fun _ => trivial)
  | listClusterBindings limit cursor =>
      exact Prog.uses_bind (Prog.uses_bind (kubeOn_kube _ _)
        (fun _ => trivial)) (fun _ => trivial)
  | createClusterBinding name roleName subjects =>
      exact Prog.uses_bind (createClusterRoleBinding_kubeOn ..)
        (fun _ => trivial)
  | deleteClusterBinding name =>
      exact Prog.uses_bind (kubeOn_kube _ _) (fun _ => trivial)
  | listNamespaceBindings ns =>
      exact Prog.uses_bind (Prog.uses_bind (kubeOn_kube _ _)
        (fun _ => trivial)) (fun _ => trivial)
  | createNamespaceBinding ns name roleName roleKind subjects =>
      exact Prog.uses_bind (createRoleBinding_kubeOn ..) (fun _ => trivial)
  | deleteNamespaceBinding ns name =>
      exact Prog.uses_bind (kubeOn_kube _ _) (fun _ => trivial)
  | getUserPermissions username =>
      refine Prog.uses_bind (iterAllCrbs_kubeOn _ _ (hcollect username) _)
        (fun _ => ?_)
      exact Prog.uses_bind (iterAllRbs_kubeOn _ _ (hcollect username) _)
        (fun _ => trivial)
  | assignRole username userKind roleName roleKind ns saNamespace =>
      exact Prog.uses_bind (assignRole_kubeOn ..) (fun _ => trivial)
  | revokeRole username roleName ns =>
      exact Prog.uses_bind (revokeRole_kubeOn ..) (fun _ => trivial)
  | listNamespaces =>
      exact Prog.uses_bind (Prog.uses_bind (kubeOn_kube _ _)
        (fun _ => trivial)) (fun _ => trivial)
  | getNamespaceAccess ns =>
      exact Prog.uses_bind (getNamespaceAccess_kubeOn ..) (fun _ => trivial)

/-! ## Requests -/

/-- The gate of an `auth_gate` router lets the request through, and the
    cluster that it names is known. -/
def HttpRequest.Admitted (q : HttpRequest) (w : World) : Prop :=
  authGate q.endpoint.method q.cluster q.user = .ok () ∧
    (q.cluster = localCluster ∨
      ∃ c ∈ w.db.registeredClusters.rows, c.name = q.cluster)

instance (q : HttpRequest) (w : World) : Decidable (q.Admitted w) :=
  inferInstanceAs (Decidable (_ ∧ _))

/-- An admitted account has a role on the cluster. -/
theorem HttpRequest.Admitted.role {q : HttpRequest} (h : q.Admitted w) :
    q.user.roles q.cluster ≠ none := by
  intro hnone
  have hgate := h.1
  rw [authGate, hnone] at hgate
  exact nomatch hgate

/-- The client of a cluster that is known. -/
theorem run_getApiClient_known (h : cluster = localCluster ∨
    ∃ c ∈ w.db.registeredClusters.rows, c.name = cluster) :
    (getApiClient cluster).run handle w = (.ok cluster, w) := by
  rw [getApiClient]
  by_cases hlocal : cluster = localCluster
  · rw [if_pos hlocal]
    rfl
  rw [if_neg hlocal, registeredApiClient, Prog.run_bind, run_db]
  show ((if _ then _ else _ : Svc String).run handle w) = _
  rw [if_pos]
  · rfl
  · obtain ⟨c, hc, hname⟩ := h.resolve_left hlocal
    exact List.any_eq_true.mpr ⟨c, hc, decide_eq_true hname⟩

/-- There is no client of a cluster that is not known. -/
theorem run_getApiClient_unknown (h : ¬ (cluster = localCluster ∨
    ∃ c ∈ w.db.registeredClusters.rows, c.name = cluster)) :
    (getApiClient cluster).run handle w
      = (.error (.valueError ("Cluster '" ++ cluster ++ "' not found")),
          w) := by
  rw [not_or] at h
  rw [getApiClient, if_neg h.1, registeredApiClient, Prog.run_bind, run_db]
  show ((if _ then _ else _ : Svc String).run handle w) = _
  rw [if_neg]
  · rfl
  · intro hany
    obtain ⟨c, hc, hname⟩ := List.any_eq_true.mp hany
    exact h.2 ⟨c, hc, of_decide_eq_true hname⟩

/-- Closing a session changes nothing. -/
theorem run_inSession {α : Type} (p : Svc α) (w : World) :
    (inSession p).run handle w = p.run handle w := by
  rw [inSession, Prog.run_ensuring, Prog.atLast]
  rfl

/-- What stands before a route: the request goes on to it when it is admitted,
    and else fails without effect, and the same way in every world. -/
theorem run_gated {q : HttpRequest} {p : Nat → String → Svc Body}
    (hq : ∀ fuel, q.prog fuel = (do
      Prog.ofExcept (authGate q.endpoint.method q.cluster q.user)
      let client ← getApiClient q.cluster
      p fuel client)) :
    (∀ w, q.Admitted w →
      q.run w = (p (enoughPages q.cluster w) q.cluster).run handle w) ∧
    ∃ e, ∀ w, ¬ q.Admitted w → q.run w = (.error e, w) := by
  have hrun : ∀ w, q.run w = Prog.andThen
      (authGate q.endpoint.method q.cluster q.user, w) (fun _ =>
        ((getApiClient q.cluster) >>= p (enoughPages q.cluster w)).run
          handle) := by
    intro w
    rw [HttpRequest.run, hq, Prog.run_bind, Prog.run_ofExcept]
  cases hgate : authGate q.endpoint.method q.cluster q.user with
  | error e =>
      refine ⟨fun w h => ?_, e, fun w h => by rw [hrun, hgate]; rfl⟩
      exact nomatch hgate.symm.trans h.1
  | ok u =>
      refine ⟨fun w h => ?_, .valueError ("Cluster '" ++ q.cluster
        ++ "' not found"), fun w h => ?_⟩
      · rw [hrun, hgate, Prog.andThen_ok, Prog.run_bind,
          run_getApiClient_known h.2, Prog.andThen_ok]
      · have hunknown := not_and.mp h hgate
        rw [hrun, hgate, Prog.andThen_ok, Prog.run_bind,
          run_getApiClient_unknown hunknown, Prog.andThen_error]

/-- A request to the users router. -/
theorem run_users {q : HttpRequest} {e : UsersEndpoint}
    (he : q.endpoint = .users e) :
    (∀ w, q.Admitted w → q.run w
      = (e.prog (enoughPages q.cluster w) q.cluster).run handle w) ∧
    ∃ x, ∀ w, ¬ q.Admitted w → q.run w = (.error x, w) := by
  have hgated := run_gated (q := q)
    (p := fun fuel client => inSession (e.prog fuel client)) ?_
  · refine ⟨fun w hq => ?_, hgated.2⟩
    rw [hgated.1 w hq, run_inSession]
  · intro fuel
    rw [HttpRequest.prog, he]
    rfl

/-- A request to the rbac router. -/
theorem run_rbac {q : HttpRequest} {e : RbacEndpoint}
    (he : q.endpoint = .rbac e) :
    (∀ w, q.Admitted w → q.run w
      = (e.prog (enoughPages q.cluster w) q.cluster).run handle w) ∧
    ∃ x, ∀ w, ¬ q.Admitted w → q.run w = (.error x, w) := by
  refine run_gated (p := fun fuel client => e.prog fuel client) ?_
  intro fuel
  rw [HttpRequest.prog, he]
  rfl

/-- The registry after a request. -/
theorem after_users (q : HttpRequest) (w : World) :
    (q.after w).db.managedUsers = w.db.managedUsers ∨
      ∃ e, q.endpoint = .users e ∧ q.Admitted w ∧
        e.Change w.db.managedUsers (q.after w).db.managedUsers := by
  cases he : q.endpoint with
  | users e =>
      by_cases hq : q.Admitted w
      · have hrun := (run_users he).1 w hq
        have hleaves := e.prog_leaves q.cluster (enoughPages q.cluster w)
          (rfl : w.db.managedUsers = _)
        rw [← hrun] at hleaves
        rcases hleaves with hsame | hchange
        · exact Or.inl hsame
        · exact Or.inr ⟨e, rfl, hq, hchange⟩
      · obtain ⟨x, hx⟩ := (run_users he).2
        exact Or.inl (by rw [HttpRequest.after, hx w hq])
  | rbac e =>
      refine Or.inl ?_
      by_cases hq : q.Admitted w
      · rw [HttpRequest.after, (run_rbac he).1 w hq]
        exact congrArg Database.managedUsers (run_db_of_uses
          ((e.prog_kubeOn _).imp KubeOn.noCommit) w)
      · obtain ⟨x, hx⟩ := (run_rbac he).2
        rw [HttpRequest.after, hx w hq]
  | cluster e =>
      refine Or.inl (congrArg Database.managedUsers
        (run_db_of_uses (p := q.prog _) ?_ w))
      rw [HttpRequest.prog, he]
      have hclient : (getApiClient q.cluster).Uses NoCommit :=
        Prog.uses_ite trivial (Prog.uses_bind (Prog.uses_perform nofun)
          (fun _ => Prog.uses_ite trivial trivial))
      cases e with
      | clusterInfo =>
          refine Prog.uses_bind (Prog.uses_ofExcept _) (fun _ => ?_)
          refine Prog.uses_bind hclient (fun _ => ?_)
          exact Prog.uses_bind (Prog.uses_perform nofun) (fun _ => trivial)
      | listClusters =>
          refine Prog.uses_bind (Prog.uses_ofExcept _) (fun _ => ?_)
          exact Prog.uses_bind (Prog.uses_perform nofun) (fun _ => trivial)

/-- A request to the users router leaves every cluster but its own as it
    was, and its own too when it is not admitted. -/
theorem after_clusters {q : HttpRequest} {e : UsersEndpoint}
    (he : q.endpoint = .users e) {c : String} {w : World}
    (hc : q.Admitted w → c ≠ q.cluster) :
    (q.after w).clusters c = w.clusters c := by
  by_cases hq : q.Admitted w
  · rw [HttpRequest.after, (run_users he).1 w hq]
    exact run_cluster_of_uses (e.prog_onCluster _) (hc hq) w
  · obtain ⟨x, hx⟩ := (run_users he).2
    rw [HttpRequest.after, hx w hq]

/-! ## Tracked states -/

/-- For the entries whose origin is known, the cluster of the request that
    made them. -/
abbrev Origins := String × String → Option String

/-- A world with the origins of its managed users. -/
structure Tracked where
  world : World
  origins : Origins

/-- The origins after a request: a row that it has written is its own. -/
def originsAfter (cluster : String) (t t' : Users) (o : Origins) : Origins :=
  fun k =>
    if t'.get k = t.get k then o k
    else if (t'.get k).isSome then some cluster
    else none

/-- A step of the system: a request, or anything else that happens and does
    not write to the registry, which only the users router does. -/
inductive RunStep where
  | request (q : HttpRequest)
  | outside (f : World → World)
      (keeps : ∀ w, (f w).db.managedUsers = w.db.managedUsers)

/-- The tracked state after a step. -/
def trackedStep : RunStep → Tracked → Tracked
  | .request q, s =>
      ⟨q.after s.world, originsAfter q.cluster s.world.db.managedUsers
        (q.after s.world).db.managedUsers s.origins⟩
  | .outside f _, s => ⟨f s.world, s.origins⟩

/-- A new installation in which the cluster `edge` has been registered, and
    nothing is known to have come from anywhere. -/
def Tracked.fresh : Tracked where
  world := World.fresh.setDb { Database.fresh with
    registeredClusters :=
      Table.empty.put ⟨"edge", "https://edge:6443", "", ""⟩ }
  origins := fun _ => none

/-- An operator of one cluster. -/
def operatorOf (cluster : String) : UserInfo where
  username := "operator@" ++ cluster
  roles := fun scope => if scope = cluster then some .operator else none

/-- The operator of a cluster creates a ServiceAccount user. -/
def createAccount (cluster name : String) : RunStep :=
  .request ⟨operatorOf cluster, cluster,
    .users (.createUser ⟨name, .serviceAccount, [], "default"⟩)⟩

/-- The operator of a cluster deletes a ServiceAccount user. -/
def deleteAccount (cluster name : String) : RunStep :=
  .request ⟨operatorOf cluster, cluster,
    .users (.deleteUser name .serviceAccount "default")⟩

end CvHttp
