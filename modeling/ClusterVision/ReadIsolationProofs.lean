import ClusterVision.HttpRunProofs

/-! # Read isolation between clusters

    Two states that differ only in what belongs to one cluster, and the `GET`
    requests of an account without a role on it.  The main result says which of
    these are answered alike: all but `/cluster/info` of that cluster, which no
    gate keeps from the account, and those of the users router that are
    admitted, which read the registry of all clusters. -/

namespace CvReads

open CvProg CvTable CvIso CvKube CvBackend CvRbac CvAccess CvRegistry CvUsers
open CvHttp

/-- The rows that did not come through the cluster `A`. -/
def othersOf (A : String) (s : Tracked) : List ManagedUser :=
  s.world.db.managedUsers.rows.filter
    (fun r => decide (s.origins r.key ≠ some A))

/-- The states differ only in what belongs to the cluster `A`: its objects,
    its server version, and the managed users that came through it. -/
structure DifferOnlyOn (A : String) (s t : Tracked) : Prop where
  clusters : ∀ c, c ≠ A → s.world.clusters c = t.world.clusters c
  users : othersOf A s = othersOf A t
  origins : ∀ r ∈ othersOf A s, s.origins r.key = t.origins r.key
  db : withUsers s.world.db t.world.db.managedUsers = t.world.db
  vault : s.world.vault = t.world.vault
  clock : s.world.clock = t.world.clock
  uuids : s.world.uuids = t.world.uuids
  keys : s.world.keys = t.world.keys
  tick : s.world.tick = t.world.tick

theorem DifferOnlyOn.registered {A : String} {s t : Tracked}
    (h : DifferOnlyOn A s t) :
    s.world.db.registeredClusters = t.world.db.registeredClusters := by
  have hdb := congrArg Database.registeredClusters h.db
  exact hdb

/-! ## Requests that are answered alike -/

/-- What a read of one cluster can see. -/
structure Alike (c : String) (v w : World) : Prop where
  cluster : v.clusters c = w.clusters c
  registered : v.db.registeredClusters = w.db.registeredClusters
  tick : v.tick = w.tick

/-- A call on the cluster cannot tell the worlds apart. -/
theorem handle_alike {c : String} (op : Op) (v w : World)
    (hop : KubeOn c op) (h : Alike c v w) :
    (handle op v).1 = (handle op w).1 ∧
      Alike c (handle op v).2 (handle op w).2 := by
  obtain ⟨o, rfl⟩ := hop
  have hexec : (v.clusters c).exec v.tick o
      = (w.clusters c).exec w.tick o := by
    rw [h.cluster, h.tick]
  refine ⟨?_, ?_, h.registered, h.tick⟩
  · exact congrArg (fun p => p.1.mapError Exn.api) hexec
  · rw [handle, handle, World.setCluster_self, World.setCluster_self, hexec]

/-- An account without a role on the cluster of a request, behind
    `auth_gate`, gets one and the same answer. -/
theorem response_refused {q : HttpRequest}
    (hgate : ∀ e, q.endpoint ≠ .cluster e)
    (hrole : q.user.roles q.cluster = none) (v w : World) :
    q.response v = q.response w := by
  have hrun : ∀ x : World, (q.run x).1 = .error (.httpException 403
      ("No access to cluster '" ++ q.cluster ++ "'")) := by
    intro x
    rw [HttpRequest.run, HttpRequest.prog]
    cases he : q.endpoint with
    | users e =>
        simp only
        rw [Prog.run_bind, Prog.run_ofExcept, authGate, hrole]
        rfl
    | rbac e =>
        simp only
        rw [Prog.run_bind, Prog.run_ofExcept, authGate, hrole]
        rfl
    | cluster e => exact absurd he (hgate e)
  rw [HttpRequest.response, HttpRequest.response, hrun, hrun]

/-- What is known of another cluster's states. -/
theorem DifferOnlyOn.alike {A c : String} {s t : Tracked}
    (h : DifferOnlyOn A s t) (hc : c ≠ A) : Alike c s.world t.world :=
  ⟨h.clusters c hc, h.registered, h.tick⟩

/-- A request to the rbac router for another cluster is answered alike. -/
theorem response_rbac {A : String} {s t : Tracked} {q : HttpRequest}
    {e : RbacEndpoint} (he : q.endpoint = .rbac e)
    (h : DifferOnlyOn A s t) (hA : q.cluster ≠ A) :
    q.response s.world = q.response t.world := by
  have hadmitted : q.Admitted s.world ↔ q.Admitted t.world := by
    rw [HttpRequest.Admitted, HttpRequest.Admitted, h.registered]
  have hrun : (q.run s.world).1 = (q.run t.world).1 := by
    by_cases hq : q.Admitted s.world
    · have hfuel : enoughPages q.cluster s.world
          = enoughPages q.cluster t.world := by
        rw [enoughPages, enoughPages, h.clusters _ hA]
      rw [(run_rbac he).1 _ hq, (run_rbac he).1 _ (hadmitted.mp hq), hfuel]
      exact ((e.prog_kubeOn _).run_agree handle_alike (h.alike hA)).1
    · obtain ⟨x, hx⟩ := (run_rbac he).2
      rw [hx _ hq, hx _ (fun h => hq (hadmitted.mpr h))]
  rw [HttpRequest.response, HttpRequest.response, hrun]

/-- The program of `/cluster/info` behind its gate, which lets every read
    through. -/
theorem run_clusterInfo {q : HttpRequest}
    (he : q.endpoint = .cluster .clusterInfo) (w : World) :
    q.run w = Prog.andThen ((getApiClient q.cluster).run handle w)
      (fun client => (clusterInfo client).run handle) := by
  have hgate : instanceGate .get q.user = .ok () := rfl
  rw [HttpRequest.run, HttpRequest.prog, he]
  simp only
  rw [Prog.run_bind, Prog.run_ofExcept, hgate, Prog.andThen_ok,
    Prog.run_bind]

/-- `/cluster/info` of a cluster that is known. -/
theorem response_clusterInfo {q : HttpRequest}
    (he : q.endpoint = .cluster .clusterInfo) {w : World}
    (hknown : q.cluster = localCluster ∨
      ∃ c ∈ w.db.registeredClusters.rows, c.name = q.cluster) :
    q.response w = ⟨200, .version (w.clusters q.cluster).version⟩ := by
  rw [HttpRequest.response, run_clusterInfo he, run_getApiClient_known hknown,
    he]
  rfl

/-- `/cluster/info` of another cluster is answered alike. -/
theorem response_clusterInfo_alike {A : String} {s t : Tracked}
    {q : HttpRequest} (he : q.endpoint = .cluster .clusterInfo)
    (h : DifferOnlyOn A s t) (hA : q.cluster ≠ A) :
    q.response s.world = q.response t.world := by
  by_cases hknown : q.cluster = localCluster ∨
      ∃ c ∈ s.world.db.registeredClusters.rows, c.name = q.cluster
  · rw [response_clusterInfo he hknown, response_clusterInfo he
      (h.registered ▸ hknown), h.clusters _ hA]
  · rw [HttpRequest.response, HttpRequest.response, run_clusterInfo he,
      run_clusterInfo he, run_getApiClient_unknown hknown,
      run_getApiClient_unknown (h.registered ▸ hknown)]
    rfl

/-- `/cluster/clusters` reads the cluster registry only. -/
theorem response_listClusters {A : String} {s t : Tracked} {q : HttpRequest}
    (he : q.endpoint = .cluster .listClusters) (h : DifferOnlyOn A s t) :
    q.response s.world = q.response t.world := by
  have hrun : ∀ w, (q.run w).1 = .ok (.clusters (⟨localCluster, "", true⟩ ::
      w.db.registeredClusters.rows.map
        (fun c => ⟨c.name, c.apiUrl, false⟩))) := by
    intro w
    rw [HttpRequest.run, HttpRequest.prog, he]
    rfl
  rw [HttpRequest.response, HttpRequest.response, hrun, hrun, h.registered]

/-! ## Requests that are not -/

/-- A request that shows something of the cluster `A` to an account without a
    role on it. -/
def Reveals (A : String) (q : HttpRequest) : Prop :=
  match q.endpoint with
  | .users _ => q.user.roles q.cluster ≠ none
  | .rbac _ => False
  | .cluster .clusterInfo => q.cluster = A
  | .cluster .listClusters => False

/-- A state in which the cluster `c` is registered, with the ServiceAccount
    `default/name` and one managed user, or none. -/
def exposed (c name : String) (users : Users) (A : String) : Tracked where
  world := { World.fresh with
    clusters := fun _ => { Cluster.fresh with
      serviceAccounts :=
        Table.empty.put (ServiceAccount.serviceAccount name "default") }
    db := { Database.fresh with
      registeredClusters := Table.empty.put ⟨c, "", "", ""⟩
      managedUsers := users } }
  origins := fun _ => some A

/-- A managed user in the namespace `default`. -/
def sampleUser (name : String) (userType : UserType) : ManagedUser where
  name := name
  ns := "default"
  type := userType
  groupsCsv := ""
  createdAt := utc Time.epoch
  csrName := none
  certExpiry := none
  imported := true

/-- With the user and without it, the states differ only in what belongs to
    `A`. -/
theorem exposed_differ (c name A : String) (users users' : Users) :
    DifferOnlyOn A (exposed c name users A) (exposed c name users' A) := by
  have hnone : ∀ users : Users, othersOf A (exposed c name users A) = [] := by
    intro users
    refine List.filter_eq_nil_iff.mpr (fun r _ => ?_)
    simp [exposed]
  exact {
    clusters := fun _ _ => rfl
    users := (hnone users).trans (hnone users').symm
    origins := fun _ _ => rfl
    db := rfl
    vault := rfl
    clock := rfl
    uuids := rfl
    keys := rfl
    tick := rfl }

/-- `get_user` finds certificate users first. -/
theorem run_getUser_found {w : World} {username : String} {u : RegistryEntry}
    (h : (w.db.managedUsers.rows.map toDict).find?
      (Certificate.isUser username) = some u) :
    (CvHttp.getUser username).run handle w
      = (.ok (.user (userRead u)), w) := by
  have hget : (Certificate.getUser username).run handle w = (.ok u, w) := by
    rw [Certificate.getUser, Prog.run_bind, run_loadRegistry,
      Prog.andThen_ok, h]
    rfl
  rw [CvHttp.getUser, Prog.run_bind, onUserNotFound, Prog.run_catching, hget]
  rfl

/-- The request is admitted in such a state. -/
theorem admitted_exposed {q : HttpRequest} {e : UsersEndpoint}
    (he : q.endpoint = .users e) (hget : e.method = .get)
    (hrole : q.user.roles q.cluster ≠ none) (name : String) (users : Users)
    (A : String) : q.Admitted (exposed q.cluster name users A).world := by
  refine ⟨?_, Or.inr ⟨_, List.mem_singleton.mpr rfl, rfl⟩⟩
  rw [he, authGate]
  cases hr : q.user.roles q.cluster with
  | none => exact absurd hr hrole
  | some role =>
      simp only [Endpoint.method, hget]
      rfl

/-- Every admitted read of the users router tells two such states apart. -/
theorem users_reveal {A : String} {q : HttpRequest} {e : UsersEndpoint}
    (he : q.endpoint = .users e) (hget : e.method = .get)
    (hrole : q.user.roles q.cluster ≠ none) :
    ∃ s t, DifferOnlyOn A s t ∧
      q.response s.world ≠ q.response t.world := by
  have hresponse : ∀ name users, q.response
      (exposed q.cluster name users A).world = toResponse e.status
        ((e.prog (enoughPages q.cluster
            (exposed q.cluster name users A).world) q.cluster).run handle
          (exposed q.cluster name users A).world).1 := by
    intro name users
    rw [HttpRequest.response, (run_users he).1 _
      (admitted_exposed he hget hrole name users A), he]
    rfl
  cases e with
  | createUser payload => exact nomatch hget
  | importUser payload => exact nomatch hget
  | deleteUser username userType ns => exact nomatch hget
  | listUsers =>
      refine ⟨_, _, exposed_differ q.cluster "ci" A Table.empty
        (Table.empty.put (sampleUser "ci" .certificate)), ?_⟩
      rw [hresponse, hresponse]
      show (⟨200, .userList [] 0⟩ : Response) ≠ ⟨200, .userList [_] 1⟩
      exact nofun
  | listUnmanagedServiceAccounts =>
      refine ⟨_, _, exposed_differ q.cluster "ci" A Table.empty
        (Table.empty.put (sampleUser "ci" .serviceAccount)), ?_⟩
      rw [hresponse, hresponse]
      show (⟨200, .serviceAccounts [("ci", "default")]⟩ : Response)
        ≠ ⟨200, .serviceAccounts []⟩
      exact nofun
  | getUser username =>
      refine ⟨_, _, exposed_differ q.cluster "ci" A Table.empty
        (Table.empty.put (sampleUser username .certificate)), ?_⟩
      rw [hresponse, hresponse]
      have hfound : [toDict (sampleUser username .certificate)].find?
          (Certificate.isUser username)
          = some (toDict (sampleUser username .certificate)) :=
        List.find?_cons_of_pos (decide_eq_true ⟨rfl, rfl⟩)
      show toResponse 200 (.error (.httpException 404 _))
        ≠ toResponse 200 ((CvHttp.getUser username).run handle _).1
      rw [run_getUser_found hfound]
      exact nofun

/-- The cluster after an upgrade. -/
def upgraded (c : Cluster) : Cluster :=
  { c with version := ⟨"v1.31.0", "linux/amd64", "go1.22"⟩ }

/-- `/cluster/info` of the cluster `A` shows its version. -/
theorem clusterInfo_reveals {q : HttpRequest}
    (he : q.endpoint = .cluster .clusterInfo) :
    ∃ s t, DifferOnlyOn q.cluster s t ∧
      q.response s.world ≠ q.response t.world := by
  generalize hs : exposed q.cluster "ci" Table.empty q.cluster = s
  have hknown : ∃ c ∈ s.world.db.registeredClusters.rows,
      c.name = q.cluster := by
    rw [← hs]
    exact ⟨_, List.mem_singleton.mpr rfl, rfl⟩
  -- the same state after an upgrade of the cluster
  refine ⟨s, ⟨s.world.setCluster q.cluster
    (upgraded (s.world.clusters q.cluster)), s.origins⟩, ?_, ?_⟩
  · exact {
      clusters := fun c hc => (World.setCluster_ne s.world _ hc).symm
      users := rfl
      origins := fun _ _ => rfl
      db := rfl
      vault := rfl
      clock := rfl
      uuids := rfl
      keys := rfl
      tick := rfl }
  · intro h
    rw [response_clusterInfo he (Or.inr hknown),
      response_clusterInfo he (w := s.world.setCluster q.cluster _)
        (Or.inr hknown), World.setCluster_self, ← hs] at h
    have hversion : (⟨"v1.30.0", "linux/amd64", "go1.22"⟩ : VersionInfo)
        = ⟨"v1.31.0", "linux/amd64", "go1.22"⟩ :=
      Body.version.inj (Response.mk.inj h).2
    exact absurd hversion (by decide)

/-! ## Main result -/

/-- A read of an account without a role on the cluster `A` gets the same
    answer in any two states that differ only in what belongs to `A`, exactly
    when it is none of the requests that reveal something. -/
theorem reads_isolated_iff (A : String) (q : HttpRequest)
    (hget : q.endpoint.method = .get) (hrole : q.user.roles A = none) :
    (∀ s t, DifferOnlyOn A s t → q.response s.world = q.response t.world)
      ↔ ¬ Reveals A q := by
  constructor
  · intro hsame hreveals
    rw [Reveals] at hreveals
    cases he : q.endpoint with
    | users e =>
        rw [he] at hreveals hget
        obtain ⟨s, t, hst, hne⟩ := users_reveal (A := A) he hget hreveals
        exact hne (hsame s t hst)
    | rbac e =>
        rw [he] at hreveals
        exact hreveals
    | cluster e =>
        rw [he] at hreveals
        cases e with
        | clusterInfo =>
            obtain ⟨s, t, hst, hne⟩ := clusterInfo_reveals he
            rw [hreveals] at hst
            exact hne (hsame s t hst)
        | listClusters => exact hreveals
  · intro hhidden s t hst
    rw [Reveals] at hhidden
    cases he : q.endpoint with
    | users e =>
        rw [he, not_not] at hhidden
        refine response_refused (fun e' h => ?_) hhidden _ _
        rw [he] at h
        exact nomatch h
    | rbac e =>
        by_cases hA : q.cluster = A
        · refine response_refused (fun e' h => ?_) (hA ▸ hrole) _ _
          rw [he] at h
          exact nomatch h
        · exact response_rbac he hst hA
    | cluster e =>
        rw [he] at hhidden
        cases e with
        | clusterInfo => exact response_clusterInfo_alike he hst hhidden
        | listClusters => exact response_listClusters he hst

/-- The bindings of `edge`, read by its operator. -/
def listEdgeBindings : HttpRequest :=
  ⟨operatorOf "edge", "edge", .rbac (.listClusterBindings 100 none)⟩

/-- It reveals nothing of `local`. -/
theorem reads_isolated_edge :
    ¬ Reveals "local" listEdgeBindings ∧
    ∀ s t, DifferOnlyOn "local" s t →
      listEdgeBindings.response s.world = listEdgeBindings.response t.world :=
  ⟨id, (reads_isolated_iff "local" listEdgeBindings rfl (by decide)).mpr id⟩

/-- The operator of `edge` reads the version of `local`, before and after an
    upgrade. -/
theorem edge_reads_local :
    ¬ ∀ s t, DifferOnlyOn "local" s t →
      (HttpRequest.mk (operatorOf "edge") "local"
          (.cluster .clusterInfo)).response s.world
        = (HttpRequest.mk (operatorOf "edge") "local"
          (.cluster .clusterInfo)).response t.world := by
  intro h
  have hresponse := h .fresh ⟨Tracked.fresh.world.setCluster "local"
    (upgraded Cluster.fresh), fun _ => none⟩ {
      clusters := fun c hc => (World.setCluster_ne _ _ hc).symm
      users := rfl
      origins := fun _ _ => rfl
      db := rfl
      vault := rfl
      clock := rfl
      uuids := rfl
      keys := rfl
      tick := rfl }
  revert hresponse
  decide

end CvReads
