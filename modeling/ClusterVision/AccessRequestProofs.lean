import ClusterVision.AccessRequestService
import ClusterVision.RbacProofs
import ClusterVision.RunProofs

/-! # What the access request programs do

    `approve_request` is brought into three parts: the checks, the creation of
    the binding, and the update of the record.  Every program then has one
    lemma that says everything it can do to the requests and to the bindings
    of any cluster (`jitCall_effect`), from which invariants of runs follow. -/

namespace CvAccess

open CvProg CvRun CvTable CvIso CvKube CvBackend CvRbac

/-! ## approve_request in parts -/

/-- The binding of a request. -/
def jitBinding (record : AccessRequestRecord) (expiresAt : Time) : Binding :=
  if truthy record.ns = true then
    roleBinding (record.ns.getD "") (jitBindingName record.id)
      record.roleName record.roleKind [requestSubject record] jitLabels
      (some (jitAnnotations record expiresAt))
  else
    clusterRoleBinding (jitBindingName record.id) record.roleName
      [requestSubject record] jitLabels
      (some (jitAnnotations record expiresAt))

/-- The namespace of the binding of a request, unless it is cluster-wide. -/
def grantScope (record : AccessRequestRecord) : Option String :=
  if truthy record.ns = true then some (record.ns.getD "") else none

theorem jitBinding_key (record : AccessRequestRecord) (expiresAt : Time) :
    (jitBinding record expiresAt).key
      = (grantScope record, jitBindingName record.id) := by
  rw [jitBinding, grantScope]
  by_cases hn : truthy record.ns = true
  · rw [if_pos hn, if_pos hn]
    rfl
  · rw [if_neg hn, if_neg hn]
    rfl

/-- What `create_role_binding` does first. -/
def prepareGrant (cluster : String) (record : AccessRequestRecord) :
    Svc Unit :=
  if truthy record.ns = true then ensureNamespace cluster (record.ns.getD "")
  else pure ()

/-- Everything that `approve_request` does before it creates the binding. -/
def prepareApproval (cluster requestId reviewer : String) :
    Svc (AccessRequestRecord × Time × Time) := do
  let record ← getOr404 requestId true
  if record.status ≠ .pending then
    throw (.accessRequestError
      ("Request is '" ++ record.status.text ++ "', not pending"))
  if record.requester = reviewer then
    throw (.accessRequestError "Cannot approve your own request")
  checkPolicy record.roleKind record.roleName record.ttlMinutes
  let reviewedAt ← now
  let expiresAt ← plusMinutes reviewedAt record.ttlMinutes
  prepareGrant cluster record
  pure (record, reviewedAt, expiresAt)

/-- Everything that `approve_request` does after the binding is created. -/
def finishApproval (reviewer : String) (record : AccessRequestRecord)
    (reviewedAt expiresAt : Time) : Svc AccessRequestRecord := do
  db (.commit [.updateAccessRequest record.id
    (approval record.id reviewer reviewedAt expiresAt)])
  pure (record.set (approval record.id reviewer reviewedAt expiresAt))

/-- `grant_request` prepares, and then creates the binding. -/
theorem grantRequest_eq (cluster : String) (record : AccessRequestRecord)
    (expiresAt : Time) :
    grantRequest cluster record expiresAt = (do
      prepareGrant cluster record
      let _ ← kube cluster (.createBinding (jitBinding record expiresAt))
      pure ()) := by
  rw [grantRequest, prepareGrant, jitBinding]
  by_cases hn : truthy record.ns = true
  · rw [if_pos hn, if_pos hn, if_pos hn]
    simp [createRoleBinding]
  · rw [if_neg hn, if_neg hn, if_neg hn]
    simp [createClusterRoleBinding]

/-- `approve_request` in three parts. -/
theorem approveRequest_eq (cluster requestId reviewer : String) :
    approveRequest cluster requestId reviewer = (do
      let p ← prepareApproval cluster requestId reviewer
      let _ ← kube cluster (.createBinding (jitBinding p.1 p.2.2))
      finishApproval reviewer p.1 p.2.1 p.2.2) := by
  rw [approveRequest, prepareApproval]
  rw [bind_assoc]
  congr 1
  funext record
  by_cases hs : record.status ≠ .pending
  · simp [hs]
  · by_cases hr : record.requester = reviewer
    · simp [hs, hr]
    · simp [hs, hr, grantRequest_eq, finishApproval]

/-! ## Calls that leave requests and bindings alone -/

/-- Calls that write no binding and commit nothing. -/
def Quiet : Op → Prop
  | .kube _ op => op.writesBindings = false
  | .db (.commit _) => False
  | _ => True

/-- Every cluster has the bindings that it had. -/
def SameBindings (w w' : World) : Prop :=
  ∀ c, (w'.clusters c).bindings = (w.clusters c).bindings

/-- The database and the bindings are as they were, and so are the sources
    that later readings come from. -/
structure Calm (w w' : World) : Prop where
  db : w'.db = w.db
  bindings : SameBindings w w'
  clock : w'.clock = w.clock

theorem calm_refl (w : World) : Calm w w := ⟨rfl, fun _ => rfl, rfl⟩

theorem calm_trans {u v w : World} (h : Calm u v) (h' : Calm v w) :
    Calm u w :=
  ⟨h'.db.trans h.db, fun c => (h'.bindings c).trans (h.bindings c),
    h'.clock.trans h.clock⟩

/-- A call on one cluster that leaves its bindings alone. -/
theorem calm_setCluster {w : World} {n : String} {c : Cluster}
    (hc : c.bindings = (w.clusters n).bindings) :
    Calm w (w.setCluster n c) := by
  refine ⟨rfl, ?_, rfl⟩
  intro m
  by_cases hm : m = n
  · rw [hm, World.setCluster_self, hc]
  · rw [World.setCluster_ne w c hm]

/-- A quiet call is calm. -/
theorem calm_of_quiet {op : Op} (hop : Quiet op) (w : World) :
    Calm w (handle op w).2 := by
  cases op with
  | kube n op => exact calm_setCluster (exec_bindings hop)
  | db op =>
      cases op with
      | commit writes => exact hop.elim
      | getAccessRequest _ _ | selectApprovedExpired _ | getPolicy _ _
      | selectManagedUsers | getManagedUser _ _ | selectRegisteredClusters
      | getRegisteredCluster _ | close => exact calm_refl w
  | now | uuid4 | generatePrivateKey | getVaultService =>
      exact ⟨rfl, fun _ => rfl, rfl⟩
  | writeSecret username key cert =>
      show Calm w (w.writeSecret username key cert).2
      rw [World.writeSecret]
      split
      · exact calm_refl w
      · exact ⟨rfl, fun _ => rfl, rfl⟩

/-- A program of quiet calls is calm, also when calls can fail. -/
theorem calm_run {α σ : Type} {g : Handler backend Exn σ} {view : σ → World}
    (hg : Mostly handle g view) {p : Svc α} (hp : p.Uses Quiet) (s : σ) :
    Calm (view s) (view (p.run g s).2) :=
  hp.run_keeps (R := fun s t => Calm (view s) (view t))
    (fun _ => calm_refl _) calm_trans
    (fun _ s hop => hg.keeps calm_refl (calm_of_quiet hop) s) s

theorem uses_kube {c : String} {op : KubeOp} (h : op.writesBindings = false) :
    (kube c op).Uses Quiet := Prog.uses_perform h

theorem getOr404_uses (id : String) (lock : Bool) :
    (getOr404 id lock).Uses Quiet := by
  refine Prog.uses_bind (Prog.uses_perform trivial) (fun r => ?_)
  cases r with
  | none => exact trivial
  | some r => exact trivial

theorem checkPolicy_uses (kind : RoleKind) (name : String) (ttl : Int) :
    (checkPolicy kind name ttl).Uses Quiet :=
  Prog.uses_bind (Prog.uses_perform trivial) (fun _ =>
    Prog.uses_ite trivial (Prog.uses_ite trivial trivial))

theorem plusMinutes_uses (t : Time) (n : Int) :
    (plusMinutes t n).Uses Quiet := by
  rw [plusMinutes]
  cases t.addMinutes n with
  | none => exact trivial
  | some t' => exact trivial

theorem ensureNamespace_uses (cluster ns : String) :
    (ensureNamespace cluster ns).Uses Quiet :=
  uses_unlessStatus (Prog.uses_bind (uses_kube rfl) (fun _ => trivial))
    (uses_unlessStatus (uses_kube rfl) trivial)

theorem prepareGrant_uses (cluster : String) (record : AccessRequestRecord) :
    (prepareGrant cluster record).Uses Quiet :=
  Prog.uses_ite (ensureNamespace_uses _ _) trivial

theorem prepareApproval_uses (cluster requestId reviewer : String) :
    (prepareApproval cluster requestId reviewer).Uses Quiet := by
  refine Prog.uses_bind (getOr404_uses _ _) (fun record => ?_)
  refine Prog.uses_ite trivial (Prog.uses_ite trivial ?_)
  refine Prog.uses_bind (checkPolicy_uses _ _ _) (fun _ => ?_)
  refine Prog.uses_bind (Prog.uses_perform trivial) (fun t => ?_)
  refine Prog.uses_bind (plusMinutes_uses _ _) (fun _ => ?_)
  exact Prog.uses_bind (prepareGrant_uses _ _) (fun _ => trivial)

/-! ## Approvals -/

/-- The policy of a role, if it has one. -/
def policyOf (w : World) (record : AccessRequestRecord) :
    Option JitRolePolicy :=
  w.db.jitRolePolicies.get (record.roleKind, record.roleName)

/-- In the world `w` the reviewer can approve the request, whose record is
    `record`, at the time `t` and until `expiresAt`. -/
structure Approvable (w : World) (requestId reviewer : String)
    (record : AccessRequestRecord) (t expiresAt : Time) : Prop where
  stored : w.db.accessRequests.get requestId = some record
  pending : record.status = .pending
  other : record.requester ≠ reviewer
  eligible : eligible (policyOf w record) = true
  ttl : record.ttlMinutes ≤ maxTtl (policyOf w record)
  reading : t = w.clock w.tick
  expiry : t.addMinutes record.ttlMinutes = some expiresAt

theorem Approvable.id_eq {w : World} {requestId reviewer : String}
    {record : AccessRequestRecord} {t expiresAt : Time}
    (h : Approvable w requestId reviewer record t expiresAt) :
    record.id = requestId := Table.key_of_get h.stored

variable {σ : Type} {g : Handler backend Exn σ} {view : σ → World}

/-- A request that `_get_or_404` returns is the stored one. -/
theorem getOr404_ok (hg : Mostly handle g view) {id : String} {lock : Bool}
    {s s' : σ} {record : AccessRequestRecord}
    (h : (getOr404 id lock).run g s = (.ok record, s')) :
    (view s).db.accessRequests.get id = some record ∧ view s' = view s := by
  rw [getOr404] at h
  rw [Prog.run_bind, run_db] at h
  obtain ⟨a, t, hcall, hrest⟩ := Prog.andThen_eq_ok h
  have hans := hg.ok hcall
  rw [handle_getAccessRequest] at hans
  have ha : (view s).db.accessRequests.get id = a := by
    simpa using congrArg Prod.fst hans
  have hv : view s = view t := congrArg Prod.snd hans
  cases a with
  | none => cases (congrArg Prod.fst hrest)
  | some r =>
      have hr : r = record := by simpa using congrArg Prod.fst hrest
      have hs : t = s' := congrArg Prod.snd hrest
      exact ⟨hr ▸ ha, by rw [← hs, hv]⟩

/-- A policy check that returns has found the role eligible and the duration
    within its limit. -/
theorem checkPolicy_ok (hg : Mostly handle g view) {kind : RoleKind}
    {name : String} {ttl : Int} {s s' : σ} {u : Unit}
    (h : (checkPolicy kind name ttl).run g s = (.ok u, s')) :
    eligible ((view s).db.jitRolePolicies.get (kind, name)) = true ∧
    ttl ≤ maxTtl ((view s).db.jitRolePolicies.get (kind, name)) ∧
    view s' = view s := by
  rw [checkPolicy] at h
  rw [Prog.run_bind, run_db] at h
  obtain ⟨p, t, hcall, hrest⟩ := Prog.andThen_eq_ok h
  have hans := hg.ok hcall
  rw [handle_getPolicy] at hans
  have hp : (view s).db.jitRolePolicies.get (kind, name) = p := by
    simpa using congrArg Prod.fst hans
  have hv : view s = view t := congrArg Prod.snd hans
  rw [hp]
  by_cases he : eligible p = false
  · rw [if_pos he] at hrest
    cases (congrArg Prod.fst hrest)
  · rw [if_neg he] at hrest
    by_cases ht : ttl > maxTtl p
    · rw [if_pos ht] at hrest
      cases (congrArg Prod.fst hrest)
    · rw [if_neg ht] at hrest
      have hs : t = s' := congrArg Prod.snd hrest
      exact ⟨by simpa using he, Int.not_lt.mp ht, by rw [← hs, hv]⟩

/-- What `approve_request` has checked when it goes on to create the
    binding. -/
theorem prepareApproval_ok (hg : Mostly handle g view)
    {cluster requestId reviewer : String} {s s' : σ}
    {record : AccessRequestRecord} {t expiresAt : Time}
    (h : (prepareApproval cluster requestId reviewer).run g s
      = (.ok (record, t, expiresAt), s')) :
    Approvable (view s) requestId reviewer record t expiresAt := by
  rw [prepareApproval] at h
  rw [Prog.run_bind] at h
  obtain ⟨r, s₁, hget, h⟩ := Prog.andThen_eq_ok h
  obtain ⟨hstored, hv₁⟩ := getOr404_ok hg hget
  by_cases hpending : r.status ≠ .pending
  · rw [if_pos hpending] at h
    exact nomatch congrArg Prod.fst h
  rw [if_neg hpending] at h
  by_cases hother : r.requester = reviewer
  · rw [if_pos hother] at h
    exact nomatch congrArg Prod.fst h
  rw [if_neg hother, Prog.run_bind] at h
  obtain ⟨u, s₂, hpolicy, h⟩ := Prog.andThen_eq_ok h
  obtain ⟨heligible, httl, hv₂⟩ := checkPolicy_ok hg hpolicy
  rw [Prog.run_bind, run_now] at h
  obtain ⟨t', s₃, hnow, h⟩ := Prog.andThen_eq_ok h
  have hans := hg.ok hnow
  rw [handle_now] at hans
  have hread : (view s₂).clock (view s₂).tick = t' := by
    simpa using congrArg Prod.fst hans
  rw [Prog.run_bind] at h
  obtain ⟨e, s₄, hplus, h⟩ := Prog.andThen_eq_ok h
  have hexp : t'.addMinutes r.ttlMinutes = some e := by
    rw [plusMinutes] at hplus
    cases ha : t'.addMinutes r.ttlMinutes with
    | none =>
        rw [ha] at hplus
        exact nomatch congrArg Prod.fst hplus
    | some e' =>
        rw [ha] at hplus
        have : e' = e := by simpa using congrArg Prod.fst hplus
        rw [this]
  rw [Prog.run_bind] at h
  obtain ⟨_, s₅, -, h⟩ := Prog.andThen_eq_ok h
  have hres : (r, t', e) = (record, t, expiresAt) := by
    simpa using congrArg Prod.fst h
  cases hres
  rw [hv₂, hv₁] at hread
  rw [hv₁] at heligible httl
  exact ⟨hstored, not_not.mp hpending, hother, heligible, httl, hread.symm,
    hexp⟩

/-- Where nothing fails, a request that can be approved gets as far as the
    creation of its binding, and its namespace is there. -/
theorem prepareApproval_of_approvable {w : World} (cluster : String)
    {requestId reviewer : String} {record : AccessRequestRecord}
    {t expiresAt : Time}
    (h : Approvable w requestId reviewer record t expiresAt) :
    ∃ w', (prepareApproval cluster requestId reviewer).run handle w
        = (.ok (record, t, expiresAt), w') ∧
      (w'.clusters cluster).hasNamespace (jitBinding record expiresAt).ns
        = true := by
  rw [prepareApproval]
  rw [Prog.run_bind]
  have hget : (getOr404 requestId true).run handle w = (.ok record, w) := by
    rw [getOr404]
    rw [Prog.run_bind, run_db, handle_getAccessRequest, h.stored]
    rfl
  have hpolicy : (checkPolicy record.roleKind record.roleName
      record.ttlMinutes).run handle w = (.ok (), w) := by
    have heligible := h.eligible
    have httl := h.ttl
    rw [policyOf] at heligible httl
    rw [checkPolicy]
    rw [Prog.run_bind, run_db, handle_getPolicy, Prog.andThen_ok,
      if_neg (by rw [heligible]; decide), if_neg (Int.not_lt.mpr httl)]
    rfl
  have hplus : plusMinutes t record.ttlMinutes = pure expiresAt := by
    rw [plusMinutes]
    rw [h.expiry]
  rw [hget, Prog.andThen_ok, if_neg (not_not.mpr h.pending), if_neg h.other,
    Prog.run_bind, hpolicy, Prog.andThen_ok, Prog.run_bind, run_now,
    handle_now, Prog.andThen_ok, ← h.reading, hplus, Prog.run_bind,
    Prog.run_pure, Prog.andThen_ok, Prog.run_bind]
  rw [prepareGrant, jitBinding]
  by_cases hn : truthy record.ns = true
  · rw [if_pos hn, if_pos hn, run_ensureNamespace]
    exact ⟨_, rfl, by rw [World.setCluster_self]; exact ensured_hasNamespace ..⟩
  · rw [if_neg hn, if_neg hn]
    exact ⟨_, rfl, rfl⟩

/-! ## Calls and their effects -/

/-- The calls of the access request service. -/
inductive JitCall where
  | createRequest (q : RequestSpec)
  | setPolicy (kind : RoleKind) (name : String) (eligible : Bool)
      (maxTtlMinutes : Option Int)
  | deletePolicy (kind : RoleKind) (name : String)
  | approveRequest (cluster requestId reviewer : String)
  | denyRequest (requestId reviewer : String)
  | revokeRequest (cluster requestId reviewer : String)
  | markExpired

/-- The program of a call. -/
def JitCall.prog : JitCall → Svc Unit
  | .createRequest q => (CvAccess.createRequest q).void
  | .setPolicy kind name eligible cap =>
      (CvAccess.setPolicy kind name eligible cap).void
  | .deletePolicy kind name => CvAccess.deletePolicy kind name
  | .approveRequest cluster requestId reviewer =>
      (CvAccess.approveRequest cluster requestId reviewer).void
  | .denyRequest requestId reviewer =>
      (CvAccess.denyRequest requestId reviewer).void
  | .revokeRequest cluster requestId reviewer =>
      (CvAccess.revokeRequest cluster requestId reviewer).void
  | .markExpired => CvAccess.markExpired

/-- The world after a call. -/
def jitStep (k : JitCall) (w : World) : World := (k.prog.run handle w).2

/-- The binding that a call of the Kubernetes API has created, with its
    cluster. -/
def createdBinding : Event backend Exn → Option (String × Binding)
  | ⟨.kube cluster (.createBinding b), .ok _⟩ => some (cluster, b)
  | _ => none

/-- The bindings that a call creates. -/
def created (k : JitCall) (w : World) : List (String × Binding) :=
  (k.prog.trace handle w).filterMap createdBinding

/-- The row of a request after `mark_expired` at the time `t`. -/
def expireRow (t : Time) (record : AccessRequestRecord) :
    AccessRequestRecord :=
  if record.approvedExpired t = true then record.set expiry else record

/-! ## Bindings are created by approvals only -/

/-- Calls other than the creation of a binding. -/
def NoCreate : Op → Prop
  | .kube _ (.createBinding _) => False
  | _ => True

theorem noCreate_of_quiet (op : Op) (h : Quiet op) : NoCreate op := by
  cases op with
  | kube c op =>
      cases op with
      | createBinding b => exact nomatch h
      | _ => trivial
  | _ => trivial

/-- A program that creates no binding leaves none in its trace. -/
theorem filterMap_createdBinding {α : Type} {p : Svc α}
    (hp : p.Uses NoCreate) (w : World) :
    (p.trace handle w).filterMap createdBinding = [] := by
  refine List.filterMap_eq_nil_iff.mpr ?_
  intro ev hev
  have hop := hp.trace handle w ev hev
  obtain ⟨op, res⟩ := ev
  cases op with
  | kube c op =>
      cases op with
      | createBinding b => exact hop.elim
      | _ => rfl
  | _ => rfl

theorem uses_commit (writes : List DbWrite) :
    (db (.commit writes)).Uses NoCreate := Prog.uses_perform trivial

theorem getOr404_noCreate (id : String) (lock : Bool) :
    (getOr404 id lock).Uses NoCreate :=
  (getOr404_uses id lock).imp noCreate_of_quiet

theorem now_noCreate : now.Uses NoCreate := Prog.uses_perform trivial

theorem createRequest_noCreate (q : RequestSpec) :
    (createRequest q).Uses NoCreate := by
  refine Prog.uses_ite trivial ?_
  refine Prog.uses_bind ((checkPolicy_uses _ _ _).imp noCreate_of_quiet) ?_
  intro _
  refine Prog.uses_bind (Prog.uses_perform trivial) (fun id => ?_)
  refine Prog.uses_bind now_noCreate (fun t => ?_)
  exact Prog.uses_bind (uses_commit _) (fun _ => trivial)

theorem denyRequest_noCreate (requestId reviewer : String) :
    (denyRequest requestId reviewer).Uses NoCreate := by
  refine Prog.uses_bind (getOr404_noCreate _ _) (fun record => ?_)
  refine Prog.uses_ite trivial ?_
  refine Prog.uses_bind now_noCreate (fun t => ?_)
  exact Prog.uses_bind (uses_commit _) (fun _ => trivial)

theorem deleteGrant_noCreate (cluster : String)
    (record : AccessRequestRecord) :
    (deleteGrant cluster record).Uses NoCreate := by
  rw [deleteGrant]
  cases record.bindingName with
  | none => exact trivial
  | some name =>
      refine uses_unlessStatus (Prog.uses_ite ?_ ?_) trivial
      · exact Prog.uses_perform trivial
      · exact Prog.uses_perform trivial

theorem revokeRequest_noCreate (cluster requestId reviewer : String) :
    (revokeRequest cluster requestId reviewer).Uses NoCreate := by
  refine Prog.uses_bind (getOr404_noCreate _ _) (fun record => ?_)
  refine Prog.uses_ite trivial ?_
  refine Prog.uses_bind (deleteGrant_noCreate _ _) (fun _ => ?_)
  refine Prog.uses_bind now_noCreate (fun t => ?_)
  exact Prog.uses_bind (uses_commit _) (fun _ => trivial)

theorem markExpired_noCreate : markExpired.Uses NoCreate := by
  refine Prog.uses_bind now_noCreate (fun t => ?_)
  exact Prog.uses_bind (Prog.uses_perform trivial) (fun _ => uses_commit _)

theorem setPolicy_noCreate (kind : RoleKind) (name : String)
    (eligible : Bool) (cap : Option Int) :
    (setPolicy kind name eligible cap).Uses NoCreate :=
  Prog.uses_bind (Prog.uses_perform trivial) (fun _ =>
    Prog.uses_bind (uses_commit _) (fun _ => trivial))

theorem deletePolicy_noCreate (kind : RoleKind) (name : String) :
    (deletePolicy kind name).Uses NoCreate := by
  refine Prog.uses_bind (Prog.uses_perform trivial) (fun p => ?_)
  cases p with
  | none => exact trivial
  | some p => exact uses_commit _

/-! ## Effects -/

/-- Everything that a call can do to the requests and to the bindings. -/
inductive JitEffect (w : World) :
    JitCall → List (String × Binding) → World → Prop where
  | calm {k : JitCall} {w' : World}
      (requests : w'.db.accessRequests = w.db.accessRequests)
      (bindings : SameBindings w w') : JitEffect w k [] w'
  | requested {q : RequestSpec} {id : String} {t : Time} {w' : World}
      (free : w.db.accessRequests.get id = none)
      (inNamespace : q.roleKind = .role → truthy q.ns = true)
      (requests : w'.db.accessRequests
        = w.db.accessRequests.put (q.record id t))
      (bindings : SameBindings w w') : JitEffect w (.createRequest q) [] w'
  | approved {cluster requestId reviewer : String}
      {record : AccessRequestRecord} {t expiresAt : Time} {w' : World}
      (approvable : Approvable w requestId reviewer record t expiresAt)
      (free : (w.clusters cluster).bindings.get
        (jitBinding record expiresAt).key = none)
      (requests : w'.db.accessRequests = w.db.accessRequests.put
        (record.set (approval record.id reviewer t expiresAt)))
      (bindings : (w'.clusters cluster).bindings
        = (w.clusters cluster).bindings.put (jitBinding record expiresAt))
      (others : ∀ c, c ≠ cluster →
        (w'.clusters c).bindings = (w.clusters c).bindings) :
      JitEffect w (.approveRequest cluster requestId reviewer)
        [(cluster, jitBinding record expiresAt)] w'
  | denied {requestId reviewer : String} {record : AccessRequestRecord}
      {t : Time} {w' : World}
      (stored : w.db.accessRequests.get requestId = some record)
      (pending : record.status = .pending)
      (requests : w'.db.accessRequests = w.db.accessRequests.put
        (record.set (denial reviewer t)))
      (bindings : SameBindings w w') :
      JitEffect w (.denyRequest requestId reviewer) [] w'
  | revoked {cluster requestId reviewer : String}
      {record : AccessRequestRecord} {name : String} {t : Time} {w' : World}
      (stored : w.db.accessRequests.get requestId = some record)
      (active : record.status = .approved)
      (named : record.bindingName = some name)
      (requests : w'.db.accessRequests = w.db.accessRequests.put
        (record.set (revocation t)))
      (bindings : (w'.clusters cluster).bindings
        = (w.clusters cluster).bindings.erase (grantScope record, name))
      (others : ∀ c, c ≠ cluster →
        (w'.clusters c).bindings = (w.clusters c).bindings) :
      JitEffect w (.revokeRequest cluster requestId reviewer) [] w'
  | expired {t : Time} {w' : World}
      (requests : ∀ id, w'.db.accessRequests.get id
        = (w.db.accessRequests.get id).map (expireRow t))
      (bindings : SameBindings w w') : JitEffect w .markExpired [] w'

/-- One `UPDATE` of a stored request. -/
theorem applyWrites_update {db : Database} {id : String}
    {record : AccessRequestRecord} {u : AccessRequestUpdate}
    (h : db.accessRequests.get id = some record) :
    applyWrites db [.updateAccessRequest id u]
      = .ok (db.withRequests (db.accessRequests.put (record.set u))) := by
  simp only [applyWrites, DbWrite.apply, h]

/-- The last part of an approval commits. -/
theorem finishApproval_run {w : World} {reviewer : String}
    {record : AccessRequestRecord} {t expiresAt : Time}
    (h : w.db.accessRequests.get record.id = some record) :
    (finishApproval reviewer record t expiresAt).run handle w
      = (.ok (record.set (approval record.id reviewer t expiresAt)),
        w.setDb (w.db.withRequests (w.db.accessRequests.put
          (record.set (approval record.id reviewer t expiresAt))))) := by
  rw [finishApproval]
  rw [Prog.run_bind, run_db, handle_commit_ok (applyWrites_update h)]
  rfl

theorem finishApproval_noCreate (reviewer : String)
    (record : AccessRequestRecord) (t expiresAt : Time) :
    (finishApproval reviewer record t expiresAt).Uses NoCreate :=
  Prog.uses_bind (uses_commit _) (fun _ => trivial)

/-- The parts of an approval that follow its checks. -/
theorem approveRequest_rest {w w₁ : World}
    {cluster requestId reviewer : String} {record : AccessRequestRecord}
    {t expiresAt : Time} (hcalm : Calm w w₁)
    (h : Approvable w requestId reviewer record t expiresAt)
    (hns : (w₁.clusters cluster).hasNamespace
      (jitBinding record expiresAt).ns = true) :
    JitEffect w (.approveRequest cluster requestId reviewer)
      ((Prog.trace handle (do
          let _ ← kube cluster (.createBinding (jitBinding record expiresAt))
          finishApproval reviewer record t expiresAt) w₁).filterMap
        createdBinding)
      (Prog.run handle (do
          let _ ← kube cluster (.createBinding (jitBinding record expiresAt))
          finishApproval reviewer record t expiresAt) w₁).2 := by
  have hb : (w₁.clusters cluster).bindings = (w.clusters cluster).bindings :=
    hcalm.bindings cluster
  rw [Prog.run_bind, Prog.trace_bind, run_kube, trace_kube]
  cases hkey : (w₁.clusters cluster).bindings.get
      (jitBinding record expiresAt).key with
  | some b =>
      rw [handle_createBinding_taken hns hkey]
      exact .calm (congrArg Database.accessRequests hcalm.db) hcalm.bindings
  | none =>
      rw [handle_createBinding_free hns hkey]
      generalize hw₂ : setBindings w₁ cluster
        ((w₁.clusters cluster).bindings.put (jitBinding record expiresAt))
          = w₂
      have hdb : w₂.db = w.db := by
        rw [← hw₂]
        exact hcalm.db
      have hstored : w₂.db.accessRequests.get record.id = some record := by
        rw [hdb, h.id_eq]
        exact h.stored
      rw [Prog.andThen_ok, Prog.traceThen_ok, List.filterMap_append,
        filterMap_createdBinding (finishApproval_noCreate _ _ _ _),
        finishApproval_run hstored]
      refine .approved h (hb ▸ hkey) ?_ ?_ ?_
      · rw [hdb]
        exact rfl
      · rw [World.setDb_clusters, ← hw₂, setBindings_self, hb]
      · intro c hc
        rw [World.setDb_clusters, ← hw₂]
        exact (congrArg Cluster.bindings (World.setCluster_ne w₁ _ hc)).trans
          (hcalm.bindings c)

/-- An approval: either nothing happened, or the binding is there and the
    request is approved. -/
theorem approveRequest_effect (cluster requestId reviewer : String)
    (w : World) :
    JitEffect w (.approveRequest cluster requestId reviewer)
      (((approveRequest cluster requestId reviewer).trace handle w).filterMap
        createdBinding)
      ((approveRequest cluster requestId reviewer).run handle w).2 := by
  rw [approveRequest_eq]
  have hcalm : Calm w
      ((prepareApproval cluster requestId reviewer).run handle w).2 :=
    calm_run (mostly_refl handle)
      (prepareApproval_uses cluster requestId reviewer) w
  rw [Prog.run_bind, Prog.trace_bind, List.filterMap_append,
    filterMap_createdBinding
      ((prepareApproval_uses cluster requestId reviewer).imp
        noCreate_of_quiet), List.nil_append]
  cases hrun : (prepareApproval cluster requestId reviewer).run handle w with
  | mk res w₁ =>
      rw [hrun] at hcalm
      cases res with
      | error e =>
          exact .calm (congrArg Database.accessRequests hcalm.db)
            hcalm.bindings
      | ok p =>
          obtain ⟨record, t, expiresAt⟩ := p
          have happ : Approvable w requestId reviewer record t expiresAt :=
            prepareApproval_ok (mostly_refl handle) hrun
          obtain ⟨w₂, hrun', hns⟩ := prepareApproval_of_approvable cluster happ
          rw [hrun] at hrun'
          have hw : w₁ = w₂ := congrArg Prod.snd hrun'
          rw [← hw] at hns
          exact approveRequest_rest hcalm happ hns

/-- What `_get_or_404` answers where nothing fails. -/
theorem getOr404_run (id : String) (lock : Bool) (w : World) :
    (∃ m, (getOr404 id lock).run handle w
        = (.error (.accessRequestNotFoundError m), w)) ∨
    ∃ record, w.db.accessRequests.get id = some record ∧
      (getOr404 id lock).run handle w = (.ok record, w) := by
  rw [getOr404]
  rw [Prog.run_bind, run_db, handle_getAccessRequest]
  cases hget : w.db.accessRequests.get id with
  | none => exact Or.inl ⟨_, rfl⟩
  | some record => exact Or.inr ⟨record, rfl, rfl⟩

/-- A denial: either nothing happened, or the request is denied. -/
theorem denyRequest_effect (requestId reviewer : String) (w : World) :
    JitEffect w (.denyRequest requestId reviewer) []
      ((denyRequest requestId reviewer).run handle w).2 := by
  rw [denyRequest]
  rw [Prog.run_bind]
  rcases getOr404_run requestId true w with ⟨m, hget⟩ | ⟨record, hstored, hget⟩
  · rw [hget]
    exact .calm rfl (fun _ => rfl)
  · rw [hget, Prog.andThen_ok]
    by_cases hp : record.status ≠ .pending
    · rw [if_pos hp]
      exact .calm rfl (fun _ => rfl)
    · have hid : w.ticked.db.accessRequests.get record.id = some record := by
        rw [Table.key_of_get hstored]
        exact hstored
      rw [if_neg hp, Prog.run_bind, run_now, handle_now, Prog.andThen_ok,
        Prog.run_bind, run_db, handle_commit_ok (applyWrites_update hid)]
      exact .denied hstored (not_not.mp hp) rfl (fun _ => rfl)

/-- The deletion of a grant, where nothing else fails. -/
theorem deleteGrant_run {cluster : String} {record : AccessRequestRecord}
    {name : String} (hname : record.bindingName = some name) (w : World) :
    (deleteGrant cluster record).run handle w
      = (.ok (), setBindings w cluster
          ((w.clusters cluster).bindings.erase (grantScope record, name))) := by
  rw [deleteGrant, grantScope]
  rw [hname]
  by_cases hn : truthy record.ns = true
  · rw [if_pos hn]
    simp only [if_pos hn]
    exact run_deleteBinding (some (record.ns.getD "")) name w
  · rw [if_neg hn]
    simp only [if_neg hn]
    exact run_deleteBinding none name w

/-- The revocation of an active grant: the binding is gone from the cluster of
    the call, and the request is revoked. -/
theorem revokeRequest_active (cluster : String) {requestId : String}
    (reviewer : String) {w : World} {record : AccessRequestRecord} {name : String}
    (hstored : w.db.accessRequests.get requestId = some record)
    (hactive : record.status = .approved)
    (hname : record.bindingName = some name) :
    ∃ w', (revokeRequest cluster requestId reviewer).run handle w
        = (.ok (record.set (revocation (w.clock w.tick))), w') ∧
      w'.db.accessRequests = w.db.accessRequests.put
        (record.set (revocation (w.clock w.tick))) ∧
      (w'.clusters cluster).bindings
        = (w.clusters cluster).bindings.erase (grantScope record, name) ∧
      ∀ c, c ≠ cluster → (w'.clusters c).bindings = (w.clusters c).bindings := by
  have hget : (getOr404 requestId true).run handle w = (.ok record, w) := by
    rw [getOr404]
    rw [Prog.run_bind, run_db, handle_getAccessRequest, hstored]
    rfl
  rw [revokeRequest]
  rw [Prog.run_bind, hget, Prog.andThen_ok, if_neg (not_not.mpr hactive),
    Prog.run_bind, deleteGrant_run hname, Prog.andThen_ok, Prog.run_bind,
    run_now, handle_now, Prog.andThen_ok, Prog.run_bind, run_db]
  have hclock : (setBindings w cluster ((w.clusters cluster).bindings.erase
      (grantScope record, name))).clock = w.clock := rfl
  have htick : (setBindings w cluster ((w.clusters cluster).bindings.erase
      (grantScope record, name))).tick = w.tick := rfl
  rw [hclock, htick]
  generalize hw₁ : setBindings w cluster
    ((w.clusters cluster).bindings.erase (grantScope record, name)) = w₁
  have hdb : w₁.db = w.db := by
    rw [← hw₁]
    rfl
  have hid : w₁.ticked.db.accessRequests.get record.id = some record := by
    rw [World.ticked_db, hdb, Table.key_of_get hstored]
    exact hstored
  rw [handle_commit_ok (applyWrites_update hid)]
  refine ⟨_, rfl, ?_, ?_, ?_⟩
  · show (w₁.db.accessRequests.put _) = _
    rw [hdb]
  · show (w₁.clusters cluster).bindings = _
    rw [← hw₁, setBindings_self]
  · intro c hc
    show (w₁.clusters c).bindings = _
    rw [← hw₁]
    exact congrArg Cluster.bindings (World.setCluster_ne w _ hc)

/-- A revocation: either nothing happened, or the binding is gone from the
    cluster of the call and the request is revoked. -/
theorem revokeRequest_effect (cluster requestId reviewer : String)
    (w : World) :
    JitEffect w (.revokeRequest cluster requestId reviewer) []
      ((revokeRequest cluster requestId reviewer).run handle w).2 := by
  rcases getOr404_run requestId true w with ⟨m, hget⟩ | ⟨record, hstored, hget⟩
  · rw [revokeRequest]
    rw [Prog.run_bind, hget]
    exact .calm rfl (fun _ => rfl)
  · by_cases ha : record.status ≠ .approved
    · rw [revokeRequest]
      rw [Prog.run_bind, hget, Prog.andThen_ok, if_pos ha]
      exact .calm rfl (fun _ => rfl)
    · cases hname : record.bindingName with
      | none =>
          rw [revokeRequest]
          rw [Prog.run_bind, hget, Prog.andThen_ok, if_neg ha, Prog.run_bind]
          rw [deleteGrant]
          rw [hname]
          exact .calm rfl (fun _ => rfl)
      | some name =>
          obtain ⟨w', hrun, hreq, hbind, hothers⟩ :=
            revokeRequest_active cluster reviewer hstored (not_not.mp ha) hname
          rw [hrun]
          exact .revoked hstored (not_not.mp ha) hname hreq hbind hothers

/-- A creation: either nothing happened, or there is a new pending request. -/
theorem createRequest_effect (q : RequestSpec) (w : World) :
    JitEffect w (.createRequest q) [] ((createRequest q).run handle w).2 := by
  rw [createRequest]
  by_cases hq : q.roleKind = .role ∧ truthy q.ns = false
  · rw [if_pos hq]
    exact .calm rfl (fun _ => rfl)
  · rw [if_neg hq, Prog.run_bind]
    have hcalm : Calm w ((checkPolicy q.roleKind q.roleName
        q.ttlMinutes).run handle w).2 :=
      calm_run (mostly_refl handle) (checkPolicy_uses _ _ _) w
    cases hrun : (checkPolicy q.roleKind q.roleName q.ttlMinutes).run
        handle w with
    | mk res w₁ =>
        rw [hrun] at hcalm
        have hreq : w₁.db.accessRequests = w.db.accessRequests :=
          congrArg Database.accessRequests hcalm.db
        cases res with
        | error e => exact .calm hreq hcalm.bindings
        | ok u =>
            rw [Prog.andThen_ok, Prog.run_bind, run_uuid4, handle_uuid4,
              Prog.andThen_ok, Prog.run_bind, run_now, handle_now,
              Prog.andThen_ok, Prog.run_bind, run_db]
            generalize hid : w₁.uuids w₁.tick = id
            generalize ht : w₁.ticked.clock w₁.ticked.tick = t
            -- the primary key refuses an id that is taken
            cases hfree : w₁.db.accessRequests.get id with
            | some r =>
                have happ : applyWrites w₁.ticked.ticked.db
                    [.insertAccessRequest (q.record id t)]
                      = .error .integrityError := by
                  simp only [applyWrites, DbWrite.apply, RequestSpec.record,
                    World.ticked_db, hfree]
                rw [handle_commit_error happ]
                exact .calm hreq hcalm.bindings
            | none =>
                have happ : applyWrites w₁.ticked.ticked.db
                    [.insertAccessRequest (q.record id t)]
                      = .ok (w₁.db.withRequests
                        (w₁.db.accessRequests.put (q.record id t))) := by
                  simp only [applyWrites, DbWrite.apply, RequestSpec.record,
                    World.ticked_db, hfree]
                rw [handle_commit_ok happ]
                refine .requested (t := t) (hreq ▸ hfree) ?_ ?_ hcalm.bindings
                · intro hrole
                  by_contra hns
                  exact hq ⟨hrole, by simpa using hns⟩
                · show w₁.db.accessRequests.put _ = _
                  rw [hreq]

/-- The statements of `mark_expired`, for rows that are stored. -/
theorem applyWrites_expire (xs : List AccessRequestRecord) (db : Database)
    (hxs : ∀ x ∈ xs, (db.accessRequests.get x.id).isSome = true) :
    ∃ t, applyWrites db (xs.map (fun x => .updateAccessRequest x.id expiry))
        = .ok (db.withRequests t) ∧
      ∀ id, t.get id = if id ∈ xs.map AccessRequestRecord.id
        then (db.accessRequests.get id).map (·.set expiry)
        else db.accessRequests.get id := by
  induction xs generalizing db with
  | nil => exact ⟨db.accessRequests, rfl, fun id => rfl⟩
  | cons x xs ih =>
      obtain ⟨r, hr⟩ := Option.isSome_iff_exists.mp
        (hxs x (List.mem_cons_self ..))
      have hid : r.id = x.id := Table.key_of_get hr
      have hput : ∀ id, (db.accessRequests.put (r.set expiry)).get id
          = if id = x.id then some (r.set expiry)
            else db.accessRequests.get id := by
        intro id
        rw [Table.get_put, ← hid]
        exact rfl
      obtain ⟨t, ht, hget⟩ := ih
        (db.withRequests (db.accessRequests.put (r.set expiry))) (by
          intro y hy
          show ((db.accessRequests.put (r.set expiry)).get y.id).isSome = true
          rw [hput]
          by_cases hyx : y.id = x.id
          · rw [if_pos hyx]
            rfl
          · rw [if_neg hyx]
            exact hxs y (List.mem_cons_of_mem x hy))
      refine ⟨t, ?_, ?_⟩
      · rw [List.map_cons, applyWrites, DbWrite.apply, hr]
        exact ht
      · intro id
        rw [hget]
        show (if id ∈ xs.map AccessRequestRecord.id
            then ((db.accessRequests.put (r.set expiry)).get id).map
              (·.set expiry)
            else (db.accessRequests.put (r.set expiry)).get id) = _
        rw [hput, List.map_cons]
        by_cases hix : id = x.id
        · rw [if_pos hix, if_pos (List.mem_cons.mpr (Or.inl hix)), hix, hr]
          by_cases hin : x.id ∈ xs.map AccessRequestRecord.id
          · rw [if_pos hin]
            exact rfl
          · rw [if_neg hin]
            exact rfl
        · rw [if_neg hix]
          simp only [List.mem_cons, hix, false_or]

/-- `mark_expired` sets every approved request that has expired to
    `expired`. -/
theorem markExpired_run (w : World) :
    ∃ t, markExpired.run handle w
        = (.ok (), w.ticked.setDb (w.db.withRequests t)) ∧
      ∀ id, t.get id = (w.db.accessRequests.get id).map
        (expireRow (w.clock w.tick)) := by
  generalize ht : w.clock w.tick = t
  obtain ⟨tbl, happ, hget⟩ := applyWrites_expire
    (w.db.accessRequests.rows.filter (·.approvedExpired t)) w.db (by
      intro x hx
      rw [Table.get_of_mem (List.mem_filter.mp hx).1]
      rfl)
  refine ⟨tbl, ?_, ?_⟩
  · rw [markExpired]
    rw [Prog.run_bind, run_now, handle_now, Prog.andThen_ok, ht,
      Prog.run_bind, run_db]
    show Prog.run handle (db (.commit ((w.db.accessRequests.rows.filter
      (·.approvedExpired t)).map _))) w.ticked = _
    rw [run_db]
    exact handle_commit_ok (w := w.ticked) happ
  · intro id
    rw [hget]
    cases hid : w.db.accessRequests.get id with
    | none => simp
    | some r =>
        have hmem : id ∈ (w.db.accessRequests.rows.filter
            (·.approvedExpired t)).map AccessRequestRecord.id
              ↔ r.approvedExpired t = true := by
          rw [List.mem_map]
          constructor
          · rintro ⟨x, hx, hxid⟩
            obtain ⟨hx, hexp⟩ := List.mem_filter.mp hx
            have hxr := Table.eq_of_key hx (Table.mem_of_get hid)
              (hxid.trans (Table.key_of_get hid).symm)
            exact hxr ▸ hexp
          · intro hexp
            exact ⟨r, List.mem_filter.mpr ⟨Table.mem_of_get hid, hexp⟩,
              Table.key_of_get hid⟩
        simp only [hmem, Option.map_some, expireRow]
        by_cases hexp : r.approvedExpired t = true
        · rw [if_pos hexp, if_pos hexp]
        · rw [if_neg hexp, if_neg hexp]

/-- Setting or deleting a policy touches neither requests nor bindings. -/
theorem setPolicy_effect (kind : RoleKind) (name : String) (eligible : Bool)
    (cap : Option Int) (w : World) :
    JitEffect w (.setPolicy kind name eligible cap) []
      ((setPolicy kind name eligible cap).run handle w).2 := by
  rw [setPolicy]
  rw [Prog.run_bind, run_db, handle_getPolicy, Prog.andThen_ok,
    Prog.run_bind, run_db, handle_commit_ok rfl]
  exact .calm rfl (fun _ => rfl)

theorem deletePolicy_effect (kind : RoleKind) (name : String) (w : World) :
    JitEffect w (.deletePolicy kind name) []
      ((deletePolicy kind name).run handle w).2 := by
  rw [deletePolicy]
  rw [Prog.run_bind, run_db, handle_getPolicy, Prog.andThen_ok]
  cases w.db.jitRolePolicies.get (kind, name) with
  | none => exact .calm rfl (fun _ => rfl)
  | some p =>
      show JitEffect w _ [] ((db (.commit _)).run handle w).2
      rw [run_db, handle_commit_ok rfl]
      exact .calm rfl (fun _ => rfl)

/-- Every call has one of the effects. -/
theorem jitCall_effect (k : JitCall) (w : World) :
    JitEffect w k (created k w) (jitStep k w) := by
  rw [created, jitStep]
  cases k with
  | createRequest q =>
      show JitEffect w _ (((createRequest q).void.trace handle w).filterMap _)
        ((createRequest q).void.run handle w).2
      rw [Prog.trace_void, Prog.run_void_snd,
        filterMap_createdBinding (createRequest_noCreate q)]
      exact createRequest_effect q w
  | setPolicy kind name eligible cap =>
      show JitEffect w _
        (((setPolicy kind name eligible cap).void.trace handle w).filterMap _)
        ((setPolicy kind name eligible cap).void.run handle w).2
      rw [Prog.trace_void, Prog.run_void_snd,
        filterMap_createdBinding (setPolicy_noCreate kind name eligible cap)]
      exact setPolicy_effect kind name eligible cap w
  | deletePolicy kind name =>
      show JitEffect w _ (((deletePolicy kind name).trace handle w).filterMap _)
        ((deletePolicy kind name).run handle w).2
      rw [filterMap_createdBinding (deletePolicy_noCreate kind name)]
      exact deletePolicy_effect kind name w
  | approveRequest cluster requestId reviewer =>
      show JitEffect w _ (((approveRequest cluster requestId
          reviewer).void.trace handle w).filterMap _)
        ((approveRequest cluster requestId reviewer).void.run handle w).2
      rw [Prog.trace_void, Prog.run_void_snd]
      exact approveRequest_effect cluster requestId reviewer w
  | denyRequest requestId reviewer =>
      show JitEffect w _
        (((denyRequest requestId reviewer).void.trace handle w).filterMap _)
        ((denyRequest requestId reviewer).void.run handle w).2
      rw [Prog.trace_void, Prog.run_void_snd,
        filterMap_createdBinding (denyRequest_noCreate requestId reviewer)]
      exact denyRequest_effect requestId reviewer w
  | revokeRequest cluster requestId reviewer =>
      show JitEffect w _ (((revokeRequest cluster requestId
          reviewer).void.trace handle w).filterMap _)
        ((revokeRequest cluster requestId reviewer).void.run handle w).2
      rw [Prog.trace_void, Prog.run_void_snd, filterMap_createdBinding
        (revokeRequest_noCreate cluster requestId reviewer)]
      exact revokeRequest_effect cluster requestId reviewer w
  | markExpired =>
      show JitEffect w _ ((markExpired.trace handle w).filterMap _)
        (markExpired.run handle w).2
      rw [filterMap_createdBinding markExpired_noCreate]
      obtain ⟨t, hrun, hget⟩ := markExpired_run w
      rw [hrun]
      exact .expired hget (fun _ => rfl)

/-! ## One request -/

/-- Everything that a call can do to one request. -/
inductive RowEffect (w : World) (id : String) :
    JitCall → Option AccessRequestRecord → Prop where
  | same {k : JitCall} : RowEffect w id k (w.db.accessRequests.get id)
  | requested {q : RequestSpec} {t : Time}
      (free : w.db.accessRequests.get id = none)
      (inNamespace : q.roleKind = .role → truthy q.ns = true) :
      RowEffect w id (.createRequest q) (some (q.record id t))
  | approved {cluster reviewer : String} {record : AccessRequestRecord}
      {t expiresAt : Time}
      (approvable : Approvable w id reviewer record t expiresAt) :
      RowEffect w id (.approveRequest cluster id reviewer)
        (some (record.set (approval id reviewer t expiresAt)))
  | denied {reviewer : String} {record : AccessRequestRecord} {t : Time}
      (stored : w.db.accessRequests.get id = some record)
      (pending : record.status = .pending) :
      RowEffect w id (.denyRequest id reviewer)
        (some (record.set (denial reviewer t)))
  | revoked {cluster reviewer : String} {record : AccessRequestRecord}
      {t : Time} (stored : w.db.accessRequests.get id = some record)
      (active : record.status = .approved) :
      RowEffect w id (.revokeRequest cluster id reviewer)
        (some (record.set (revocation t)))
  | expired {record : AccessRequestRecord} {t : Time}
      (stored : w.db.accessRequests.get id = some record)
      (active : record.status = .approved)
      (late : record.approvedExpired t = true) :
      RowEffect w id .markExpired (some (record.set expiry))

/-- Writing the row of one request leaves the other ones alone. -/
theorem get_put_request {t : Table AccessRequestRecord AccessRequestRecord.id}
    {requestId id : String} {record : AccessRequestRecord}
    (u : AccessRequestUpdate) (h : t.get requestId = some record) :
    (t.put (record.set u)).get id
      = if id = requestId then some (record.set u) else t.get id := by
  rw [Table.get_put, show (record.set u).id = record.id from rfl,
    Table.key_of_get h]

/-- What a call does to all requests, seen from one of them. -/
theorem rowEffect_of_jitEffect {w w' : World} {k : JitCall}
    {bs : List (String × Binding)} (h : JitEffect w k bs w') (id : String) :
    RowEffect w id k (w'.db.accessRequests.get id) := by
  cases h with
  | calm requests bindings =>
      rw [requests]
      exact .same
  | @requested q id' t _ free inNamespace requests bindings =>
      rw [requests, Table.get_put]
      by_cases hid : id = (q.record id' t).id
      · rw [if_pos hid]
        have hid' : id = id' := hid
        rw [← hid'] at free ⊢
        exact .requested free inNamespace
      · rw [if_neg hid]
        exact .same
  | @approved cluster requestId reviewer record t expiresAt _ approvable free
      requests bindings others =>
      rw [requests, get_put_request _ approvable.stored]
      by_cases hid : id = requestId
      · rw [if_pos hid, approvable.id_eq]
        rw [← hid] at approvable ⊢
        exact .approved approvable
      · rw [if_neg hid]
        exact .same
  | @denied requestId reviewer record t _ stored pending requests bindings =>
      rw [requests, get_put_request _ stored]
      by_cases hid : id = requestId
      · rw [if_pos hid]
        rw [← hid] at stored ⊢
        exact .denied stored pending
      · rw [if_neg hid]
        exact .same
  | @revoked cluster requestId reviewer record name t _ stored active named
      requests bindings others =>
      rw [requests, get_put_request _ stored]
      by_cases hid : id = requestId
      · rw [if_pos hid]
        rw [← hid] at stored ⊢
        exact .revoked stored active
      · rw [if_neg hid]
        exact .same
  | @expired t _ requests bindings =>
      rw [requests]
      cases hget : w.db.accessRequests.get id with
      | none =>
          rw [Option.map_none, ← hget]
          exact .same
      | some record =>
          rw [Option.map_some]
          rw [expireRow]
          by_cases hlate : record.approvedExpired t = true
          · rw [if_pos hlate]
            have hactive : record.status = .approved := by
              rw [AccessRequestRecord.approvedExpired] at hlate
              simp only [Bool.and_eq_true, decide_eq_true_eq] at hlate
              exact hlate.1
            exact .expired hget hactive hlate
          · rw [if_neg hlate, ← hget]
            exact .same

/-- Every call has one of the effects on each request. -/
theorem jitCall_rowEffect (k : JitCall) (w : World) (id : String) :
    RowEffect w id k ((jitStep k w).db.accessRequests.get id) :=
  rowEffect_of_jitEffect (jitCall_effect k w) id

end CvAccess
