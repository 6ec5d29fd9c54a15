import ClusterVision.AccessRequestProofs
import ClusterVision.FaultProofs

/-! # Which requests can be granted

    A payload is checked by its model and by `create_request`; the binding is
    built by `approve_request`, much later, from the fields of the record.
    The binding is followed back to the payload, and compared with what the
    API server demands of one. -/

namespace CvGrantable

open CvProg CvRun CvTable CvIso CvKube CvBackend CvRbac CvAccess

/-- The API server's validation of a binding.  A subject of a cluster-wide
    binding has no namespace to fall back on. -/
structure Acceptable (b : Binding) : Prop where
  subjectNs : b.ns = none →
    ∀ s ∈ b.subjects, s.kind = .serviceAccount → truthy s.ns = true
  roleRefKind : b.ns = none → b.roleRef.kind = .clusterRole
  roleName : b.roleRef.name ≠ ""
  subjectName : ∀ s ∈ b.subjects, s.name ≠ ""

/-- The binding that a call asks the API server to create. -/
def sentBinding : Op → Option Binding
  | .kube _ (.createBinding b) => some b
  | _ => none

/-- The bindings that `approve_request` asks for. -/
def sentBy (cluster requestId reviewer : String) (w : World) : List Binding :=
  ((approveRequest cluster requestId reviewer).calls handle w).filterMap
    sentBinding

/-! ## From the payload to the record -/

/-- The record of a request that `create_request` accepts is the one that the
    request describes. -/
theorem createRequest_ok {σ : Type} {g : Handler backend Exn σ}
    {q : RequestSpec} {s s' : σ} {record : AccessRequestRecord}
    (h : (createRequest q).run g s = (.ok record, s')) :
    ∃ id t, record = q.record id t := by
  rw [createRequest] at h
  by_cases hq : q.roleKind = .role ∧ truthy q.ns = false
  · rw [if_pos hq] at h
    cases congrArg Prod.fst h
  rw [if_neg hq, Prog.run_bind] at h
  obtain ⟨_, s₁, -, h⟩ := Prog.andThen_eq_ok h
  rw [Prog.run_bind] at h
  obtain ⟨id, s₂, -, h⟩ := Prog.andThen_eq_ok h
  rw [Prog.run_bind] at h
  obtain ⟨t, s₃, -, h⟩ := Prog.andThen_eq_ok h
  rw [Prog.run_bind] at h
  obtain ⟨_, s₄, -, h⟩ := Prog.andThen_eq_ok h
  have hrecord : q.record id t = record := by
    simpa using congrArg Prod.fst h
  exact ⟨id, t, hrecord.symm⟩

/-! ## From the record to the binding -/

theorem filterMap_sentBinding {ops : List Op} (h : ∀ op ∈ ops, NoCreate op) :
    ops.filterMap sentBinding = [] := by
  rw [List.filterMap_eq_nil_iff]
  intro op hop
  have hno := h op hop
  cases op with
  | kube c op =>
      cases op with
      | createBinding b => exact hno.elim
      | _ => rfl
  | _ => rfl

theorem filterMap_sentBinding_kube (cluster : String) (b : Binding)
    (w : World) :
    ((kube cluster (.createBinding b)).calls handle w).filterMap sentBinding
      = [b] := by
  rw [Prog.calls, trace_kube]
  rfl

/-- An approval asks for the binding of its request, whether or not the API
    server then creates it. -/
theorem sentBy_of_approvable {w : World} (cluster : String)
    {requestId reviewer : String} {record : AccessRequestRecord}
    {t expiresAt : Time}
    (h : Approvable w requestId reviewer record t expiresAt) :
    sentBy cluster requestId reviewer w = [jitBinding record expiresAt] := by
  obtain ⟨w₁, hrun, -⟩ := prepareApproval_of_approvable cluster h
  have hprepare : ((prepareApproval cluster requestId reviewer).calls handle
      w).filterMap sentBinding = [] :=
    filterMap_sentBinding (((prepareApproval_uses cluster requestId
      reviewer).imp noCreate_of_quiet).calls handle w)
  have hfinish : ∀ w₂, ((finishApproval reviewer record t expiresAt).calls
      handle w₂).filterMap sentBinding = [] :=
    fun w₂ => filterMap_sentBinding
      ((finishApproval_noCreate reviewer record t expiresAt).calls handle w₂)
  rw [sentBy, approveRequest_eq, Prog.calls_bind_ok hrun,
    List.filterMap_append, hprepare, List.nil_append]
  cases hsend : (kube cluster (.createBinding (jitBinding record
      expiresAt))).run handle w₁ with
  | mk res w₂ =>
      cases res with
      | error e =>
          rw [Prog.calls_bind_error hsend, filterMap_sentBinding_kube]
      | ok b =>
          rw [Prog.calls_bind_ok hsend, List.filterMap_append, hfinish,
            List.append_nil, filterMap_sentBinding_kube]

/-! ## The server's answer -/

theorem ne_empty_of_length {text : String} (h : 1 ≤ text.length) :
    text ≠ "" := by
  rintro rfl
  exact absurd h (by decide)

/-- A ServiceAccount that a payload names without any namespace, for a grant
    on the whole cluster. -/
def NamelessScope (payload : AccessRequestCreate) : Prop :=
  payload.userKind = .serviceAccount ∧ truthy payload.saNamespace = false ∧
    truthy payload.ns = false

/-- The binding of a payload's record is acceptable, except that the
    ServiceAccount of a cluster-wide one may lack its namespace.  A
    cluster-wide binding refers to a ClusterRole whatever the payload says. -/
theorem acceptable_iff (payload : AccessRequestCreate) (requester id : String)
    (requestedAt expiresAt : Time) :
    Acceptable (jitBinding ((payload.spec requester).record id requestedAt)
        expiresAt) ↔ ¬ NamelessScope payload := by
  have hname : payload.targetUsername ≠ "" :=
    ne_empty_of_length payload.targetUsername_length.1
  have hroleName : payload.roleName ≠ "" :=
    ne_empty_of_length payload.roleName_length
  generalize hrecord : (payload.spec requester).record id requestedAt = record
  have hsubject : requestSubject record
      = ⟨payload.userKind, payload.targetUsername, payload.saNamespace⟩ := by
    rw [← hrecord]
    rfl
  have hns : record.ns = payload.ns := by
    rw [← hrecord]
    rfl
  have hrecordRole : record.roleName = payload.roleName := by
    rw [← hrecord]
    rfl
  rw [jitBinding, hns, hsubject, hrecordRole]
  by_cases hwide : truthy payload.ns = true
  · rw [if_pos hwide]
    constructor
    · rintro - ⟨-, -, hfalse⟩
      rw [hwide] at hfalse
      cases hfalse
    · intro _
      exact {
        subjectNs := fun h => by cases h
        roleRefKind := fun h => by cases h
        roleName := hroleName
        subjectName := List.forall_mem_singleton.mpr hname }
  · rw [if_neg hwide]
    have hfalse : truthy payload.ns = false := by simpa using hwide
    constructor
    · rintro hok ⟨hkind, hsa, -⟩
      have htrue := hok.subjectNs rfl _ (List.mem_singleton_self _) hkind
      rw [hsa] at htrue
      cases htrue
    · intro hscope
      exact {
        subjectNs := by
          intro _
          rw [clusterRoleBinding, List.forall_mem_singleton]
          intro hkind
          by_contra hsa
          exact hscope ⟨hkind, by simpa using hsa, hfalse⟩
        roleRefKind := fun _ => rfl
        roleName := hroleName
        subjectName := List.forall_mem_singleton.mpr hname }

/-- Approving the request sends one binding, which the API server accepts. -/
def Grantable (w : World) (cluster requestId reviewer : String) : Prop :=
  ∃ b, sentBy cluster requestId reviewer w = [b] ∧ Acceptable b

/-- An accepted request can be granted, wherever the policies still admit it,
    exactly when it does not name a ServiceAccount without a namespace for the
    whole cluster. -/
theorem grantable_iff (payload : AccessRequestCreate)
    (requester : String) (w w' : World) (record : AccessRequestRecord)
    (hcreate : (createRequest (payload.spec requester)).run handle w
      = (.ok record, w')) (v : World) (cluster reviewer : String)
    (t expiresAt : Time)
    (hv : Approvable v record.id reviewer record t expiresAt) :
    Grantable v cluster record.id reviewer ↔ ¬ NamelessScope payload := by
  obtain ⟨id, requestedAt, rfl⟩ := createRequest_ok hcreate
  have hsent := sentBy_of_approvable cluster hv
  rw [← acceptable_iff payload requester id requestedAt expiresAt]
  constructor
  · rintro ⟨b, hb, hok⟩
    have heq := List.singleton_inj.mp (hsent.symm.trans hb)
    rw [heq]
    exact hok
  · intro hok
    exact ⟨_, hsent, hok⟩

/-- A request for the ServiceAccount `builder`, which leaves its namespace
    out. -/
def buildersRequest : AccessRequestCreate where
  targetUsername := "builder"
  userKind := .serviceAccount
  roleName := "view"
  ttlMinutes := 60
  reason := "incident"
  targetUsername_length := by decide
  userKind_literal := Or.inr rfl
  saNamespace_length := by simp
  roleName_length := by decide
  ns_length := by simp
  ttlMinutes_range := by decide
  reason_length := by decide

/-- The request with the namespace of the ServiceAccount. -/
def placedRequest : AccessRequestCreate :=
  { buildersRequest with
    saNamespace := some "ci"
    saNamespace_length := by decide }

/-- It can be granted. -/
theorem grantable_placed :
    Grantable
      ((createRequest (placedRequest.spec "bob")).run handle World.fresh).2
      "local" "0" "carol" := by
  refine (grantable_iff placedRequest "bob" World.fresh _
    ((placedRequest.spec "bob").record "0" Time.epoch) rfl _ "local" "carol"
    Time.epoch _ {
      stored := rfl
      pending := rfl
      other := by decide
      eligible := rfl
      ttl := by decide
      reading := rfl
      expiry := rfl }).mpr ?_
  rintro ⟨-, hnone, -⟩
  cases hnone

/-- The record of the request for `builder`, which `bob` has made. -/
def buildersRecord : AccessRequestRecord :=
  (buildersRequest.spec "bob").record "0" Time.epoch

/-- A new installation with that request. -/
def awaitingCarol : World :=
  ((createRequest (buildersRequest.spec "bob")).run handle World.fresh).2

theorem createRequest_builders :
    (createRequest (buildersRequest.spec "bob")).run handle World.fresh
      = (.ok buildersRecord, awaitingCarol) := rfl

/-- Nothing stands in the way of its approval by `carol`. -/
theorem approvable_builders :
    ∃ t expiresAt, Approvable awaitingCarol "0" "carol" buildersRecord t
      expiresAt :=
  ⟨Time.epoch, _, {
    stored := rfl
    pending := rfl
    other := by decide
    eligible := rfl
    ttl := by decide
    reading := rfl
    expiry := rfl }⟩

/-- Not every accepted request can be granted. -/
theorem accepted_not_grantable :
    ¬ ∀ (payload : AccessRequestCreate) (requester : String) (w w' : World)
        (record : AccessRequestRecord),
      (createRequest (payload.spec requester)).run handle w
        = (.ok record, w') →
      ∀ (v : World) (cluster reviewer : String) (t expiresAt : Time),
        Approvable v record.id reviewer record t expiresAt →
        Grantable v cluster record.id reviewer := by
  intro hall
  obtain ⟨t, expiresAt, hv⟩ := approvable_builders
  obtain ⟨b, hsent, hok⟩ := hall buildersRequest "bob" World.fresh
    awaitingCarol buildersRecord createRequest_builders awaitingCarol "local"
    "carol" t expiresAt hv
  obtain rfl : jitBinding buildersRecord expiresAt = b :=
    List.singleton_inj.mp ((sentBy_of_approvable "local" hv).symm.trans hsent)
  exact nomatch hok.subjectNs rfl _ (List.mem_singleton_self _) rfl

end CvGrantable
