import ClusterVision.AccessRequestProofs

/-! # What is granted is what was requested

    Along every run of the access request calls, a request that becomes
    approved has been approved by someone else and within the policy of that
    moment, and one binding is created for it over the whole run: the one that
    the request describes, with the expiry that the record carries. -/

namespace CvGrant

open CvProg CvRun CvTable CvIso CvKube CvBackend CvRbac CvAccess

/-! ## Requests that have been approved -/

/-- The statuses that only an approved request can have. -/
def Approved : RequestStatus → Prop
  | .approved => True
  | .revoked => True
  | .expired => True
  | .pending => False
  | .denied => False

/-- The request has been approved at some time. -/
def WasApproved (id : String) (w : World) : Prop :=
  ∃ r, w.db.accessRequests.get id = some r ∧ Approved r.status

/-- The binding name of a request names the request. -/
theorem jitBindingName_inj {id id' : String}
    (h : jitBindingName id = jitBindingName id') : id = id' :=
  (String.append_right_inj _).mp h

/-- What a record says about the grant, whatever its status. -/
structure SameGrant (r r' : AccessRequestRecord) : Prop where
  id : r'.id = r.id
  requester : r'.requester = r.requester
  subject : requestSubject r' = requestSubject r
  roleName : r'.roleName = r.roleName
  roleKind : r'.roleKind = r.roleKind
  ns : r'.ns = r.ns
  ttlMinutes : r'.ttlMinutes = r.ttlMinutes
  reviewedBy : r'.reviewedBy = r.reviewedBy
  expiresAt : r'.expiresAt = r.expiresAt

theorem sameGrant_refl (r : AccessRequestRecord) : SameGrant r r :=
  ⟨rfl, rfl, rfl, rfl, rfl, rfl, rfl, rfl, rfl⟩

/-- An update that sets neither the reviewer nor the expiry keeps the grant. -/
theorem sameGrant_set {r r' : AccessRequestRecord} {u : AccessRequestUpdate}
    (h : SameGrant r r') (hr : u.reviewedBy = none)
    (he : u.expiresAt = none) : SameGrant r (r'.set u) := by
  refine ⟨h.id, h.requester, h.subject, h.roleName, h.roleKind, h.ns,
    h.ttlMinutes, ?_, ?_⟩
  · show (u.reviewedBy <|> r'.reviewedBy) = _
    rw [hr]
    exact h.reviewedBy
  · show (u.expiresAt <|> r'.expiresAt) = _
    rw [he]
    exact h.expiresAt

/-- The request has been approved, and its grant is that of `r`. -/
def Holds (id : String) (r : AccessRequestRecord) (w : World) : Prop :=
  ∃ r', w.db.accessRequests.get id = some r' ∧ Approved r'.status ∧
    SameGrant r r'

/-- Once approved, the grant of a request stays as it is. -/
theorem holds_step {id : String} {r : AccessRequestRecord} {w : World}
    {k : JitCall} (h : Holds id r w) : Holds id r (jitStep k w) := by
  obtain ⟨r', hget, happ, hsame⟩ := h
  rw [Holds]
  have hrow := jitCall_rowEffect k w id
  generalize (jitStep k w).db.accessRequests.get id = row at hrow ⊢
  cases hrow with
  | same => exact ⟨r', hget, happ, hsame⟩
  | requested free inNamespace =>
      rw [hget] at free
      exact nomatch free
  | approved approvable =>
      have hr := Option.some.inj (hget.symm.trans approvable.stored)
      rw [hr, approvable.pending] at happ
      exact happ.elim
  | denied stored pending =>
      have hr := Option.some.inj (hget.symm.trans stored)
      rw [hr, pending] at happ
      exact happ.elim
  | revoked stored active =>
      have hr := Option.some.inj (hget.symm.trans stored)
      exact ⟨_, rfl, trivial, sameGrant_set (hr ▸ hsame) rfl rfl⟩
  | expired stored active late =>
      have hr := Option.some.inj (hget.symm.trans stored)
      exact ⟨_, rfl, trivial, sameGrant_set (hr ▸ hsame) rfl rfl⟩

/-- Once approved, a request has been approved forever. -/
theorem wasApproved_step {id : String} {w : World} {k : JitCall}
    (h : WasApproved id w) : WasApproved id (jitStep k w) := by
  obtain ⟨r, hget, happ⟩ := h
  obtain ⟨r', hget', happ', -⟩ :=
    holds_step (k := k) ⟨r, hget, happ, sameGrant_refl r⟩
  exact ⟨r', hget', happ'⟩

/-- Only an approval turns a request into an approved one. -/
theorem approval_of_wasApproved {id : String} {w : World} {k : JitCall}
    (hw : ¬ WasApproved id w) (hk : WasApproved id (jitStep k w)) :
    ∃ cluster reviewer record t expiresAt,
      k = .approveRequest cluster id reviewer ∧
      Approvable w id reviewer record t expiresAt ∧
      (jitStep k w).db.accessRequests.get id
        = some (record.set (approval id reviewer t expiresAt)) := by
  obtain ⟨r, hget, happ⟩ := hk
  have hrow := jitCall_rowEffect k w id
  generalize (jitStep k w).db.accessRequests.get id = row at hrow hget ⊢
  cases hrow with
  | same => exact absurd ⟨r, hget, happ⟩ hw
  | requested free inNamespace =>
      cases hget
      exact happ.elim
  | @approved cluster reviewer record t expiresAt approvable =>
      exact ⟨cluster, reviewer, record, t, expiresAt, rfl, approvable, rfl⟩
  | denied stored pending =>
      cases hget
      exact happ.elim
  | @revoked _ _ record _ stored active =>
      exact absurd ⟨record, stored, by rw [active]; trivial⟩ hw
  | @expired record _ stored active late =>
      exact absurd ⟨record, stored, by rw [active]; trivial⟩ hw

/-! ## Bindings created for a request -/

/-- The bindings with the name of a request that a call creates. -/
def createdFor (id : String) (k : JitCall) (w : World) :
    List (String × Binding) :=
  (created k w).filter (fun e => decide (e.2.name = jitBindingName id))

theorem jitBinding_name (record : AccessRequestRecord) (expiresAt : Time) :
    (jitBinding record expiresAt).name = jitBindingName record.id :=
  congrArg Prod.snd (jitBinding_key record expiresAt)

/-- A binding is created for a request only by approving it. -/
theorem createdFor_cases (id : String) (k : JitCall) (w : World) :
    createdFor id k w = [] ∨
    ∃ cluster reviewer record t expiresAt,
      k = .approveRequest cluster id reviewer ∧
      Approvable w id reviewer record t expiresAt ∧
      createdFor id k w = [(cluster, jitBinding record expiresAt)] ∧
      (jitStep k w).db.accessRequests.get id
        = some (record.set (approval id reviewer t expiresAt)) := by
  have heff := jitCall_effect k w
  rw [createdFor]
  generalize created k w = bs at heff ⊢
  generalize jitStep k w = w' at heff ⊢
  cases heff with
  | calm | requested | denied | revoked | expired => exact Or.inl rfl
  | @approved cluster requestId reviewer record t expiresAt _ approvable free
      requests bindings others =>
      by_cases hid : requestId = id
      · rw [hid] at approvable
        refine Or.inr ⟨cluster, reviewer, record, t, expiresAt, by rw [hid],
          approvable, ?_, ?_⟩
        · rw [List.filter_cons_of_pos]
          · rfl
          · rw [jitBinding_name, approvable.id_eq]
            exact decide_eq_true rfl
        · rw [requests, get_put_request _ approvable.stored, if_pos rfl,
            approvable.id_eq]
      · refine Or.inl (List.filter_eq_nil_iff.mpr ?_)
        intro e he
        rw [List.mem_singleton.mp he]
        rw [jitBinding_name, approvable.id_eq, decide_eq_true_eq]
        exact fun h => hid (jitBindingName_inj h)

/-- The approval of a request creates its binding. -/
theorem createdFor_of_approval {w : World} {id cluster reviewer : String}
    {record : AccessRequestRecord} {t expiresAt : Time}
    (h : Approvable w id reviewer record t expiresAt)
    (hget : (jitStep (.approveRequest cluster id reviewer)
      w).db.accessRequests.get id
        = some (record.set (approval id reviewer t expiresAt))) :
    createdFor id (.approveRequest cluster id reviewer) w
      = [(cluster, jitBinding record expiresAt)] := by
  have heff := jitCall_effect (.approveRequest cluster id reviewer) w
  rw [createdFor]
  generalize created (.approveRequest cluster id reviewer) w = bs at heff ⊢
  generalize jitStep (.approveRequest cluster id reviewer) w = w'
    at heff hget
  cases heff with
  | calm requests bindings =>
      -- a call without effect leaves the request pending
      rw [requests, h.stored] at hget
      have hstatus : record.status = .approved :=
        congrArg AccessRequestRecord.status (Option.some.inj hget)
      rw [h.pending] at hstatus
      exact nomatch hstatus
  | @approved _ _ _ record' t' expiresAt' _ approvable free requests bindings
      others =>
      have hrec : record' = record :=
        Option.some.inj (approvable.stored.symm.trans h.stored)
      have ht : t' = t := approvable.reading.trans h.reading.symm
      have hexp := h.expiry
      rw [← hrec, ← ht, approvable.expiry] at hexp
      rw [hrec, Option.some.inj hexp, List.filter_cons_of_pos]
      · rfl
      · rw [jitBinding_name, h.id_eq]
        exact decide_eq_true rfl

/-- Before a request is approved, no binding is created for it. -/
theorem createdFor_before {id : String} :
    ∀ (ks : List JitCall) (w : World),
      ¬ WasApproved id (after jitStep ks w) →
      outputs jitStep (createdFor id) ks w = [] := by
  intro ks
  induction ks with
  | nil => exact fun w _ => rfl
  | cons k ks ih =>
      intro w hks
      show createdFor id k w ++ outputs jitStep (createdFor id) ks _ = []
      rw [ih (jitStep k w) hks, List.append_nil]
      rcases createdFor_cases id k w with hnil | ⟨_, _, _, _, _, -, -, -, hget⟩
      · exact hnil
      · refine absurd ?_ hks
        exact after_inv (fun _ _ h => wasApproved_step h) ⟨_, hget, trivial⟩ ks

/-- Once a request is approved, no binding is created for it any more. -/
theorem createdFor_after {id : String} {w : World} (hw : WasApproved id w)
    (ks : List JitCall) : outputs jitStep (createdFor id) ks w = [] := by
  have hstep : ∀ v k, WasApproved id v → WasApproved id (jitStep k v) :=
    fun v k h => wasApproved_step h
  refine outputs_eq_nil hstep ?_ hw ks
  intro v k ⟨r, hget, happ⟩
  rcases createdFor_cases id k v with hnil | ⟨_, _, _, _, _, -, hv, -, -⟩
  · exact hnil
  · have hr := Option.some.inj (hget.symm.trans hv.stored)
    rw [hr, hv.pending] at happ
    exact happ.elim

/-! ## Roles need a namespace -/

/-- Every stored request for a Role names a namespace. -/
def RolesScoped (w : World) : Prop :=
  ∀ id r, w.db.accessRequests.get id = some r → r.roleKind = .role →
    truthy r.ns = true

/-- Requests for a Role without a namespace are never stored. -/
theorem rolesScoped_step {w : World} (hw : RolesScoped w) (k : JitCall) :
    RolesScoped (jitStep k w) := by
  intro id r hget hrole
  have hrow := jitCall_rowEffect k w id
  rw [hget] at hrow
  generalize hout : some r = row at hrow
  cases hrow with
  | same => exact hw id r hout.symm hrole
  | requested free inNamespace =>
      cases hout
      exact inNamespace hrole
  | approved approvable =>
      cases hout
      have hscoped := hw id _ approvable.stored
      exact hscoped hrole
  | denied stored pending =>
      cases hout
      have hscoped := hw id _ stored
      exact hscoped hrole
  | revoked stored active =>
      cases hout
      have hscoped := hw id _ stored
      exact hscoped hrole
  | expired stored active late =>
      cases hout
      have hscoped := hw id _ stored
      exact hscoped hrole

/-! ## The grant -/

/-- The binding `b` is the one grant of the request `r`, which `reviewer`
    approved in the world `w`; `bs` are the bindings created for it. -/
structure ExactGrant (w : World) (cluster reviewer : String) (b : Binding)
    (r : AccessRequestRecord) (bs : List (String × Binding)) : Prop where
  reviewedBy : r.reviewedBy = some reviewer
  other : r.requester ≠ reviewer
  eligible : eligible (policyOf w r) = true
  ttl : r.ttlMinutes ≤ maxTtl (policyOf w r)
  once : bs = [(cluster, b)]
  name : b.name = jitBindingName r.id
  subjects : b.subjects = [requestSubject r]
  role : b.roleRef = { kind := r.roleKind, name := r.roleName }
  namespaced : ∀ ns, r.ns = some ns → ns ≠ "" → b.ns = some ns
  clusterWide : r.ns = none ∨ r.ns = some "" →
    b.ns = none ∧ r.roleKind = .clusterRole
  expiry : ∃ expiresAt, r.expiresAt = some expiresAt ∧
    (expiresAt.instant : Int)
      = (w.clock w.tick).instant + r.ttlMinutes * 60000000 ∧
    ∃ annotations, b.annotations = some annotations ∧
      annotations.get? expiresAnnotation
        = some (String.ofList (isoformat (utc expiresAt)))

/-- The binding of an approved request describes the request. -/
theorem exactGrant_of_approvable {w : World} {id cluster reviewer : String}
    {record : AccessRequestRecord} {t expiresAt : Time}
    {bs : List (String × Binding)} (hw : RolesScoped w)
    (h : Approvable w id reviewer record t expiresAt)
    (hbs : bs = [(cluster, jitBinding record expiresAt)]) :
    ExactGrant w cluster reviewer (jitBinding record expiresAt)
      (record.set (approval id reviewer t expiresAt)) bs where
  reviewedBy := rfl
  other := h.other
  eligible := h.eligible
  ttl := h.ttl
  once := hbs
  name := jitBinding_name record expiresAt
  subjects := by
    rw [jitBinding]
    split <;> rfl
  role := by
    rw [jitBinding]
    by_cases hn : truthy record.ns = true
    · rw [if_pos hn]
      rfl
    · -- a request without a namespace is for a ClusterRole
      have hkind : record.roleKind = .clusterRole := by
        cases hk : record.roleKind with
        | clusterRole => rfl
        | role => exact absurd (hw id record h.stored hk) hn
      rw [if_neg hn]
      show ({ kind := .clusterRole, name := record.roleName } : RoleRef)
        = { kind := record.roleKind, name := record.roleName }
      rw [hkind]
  namespaced := by
    intro ns hns hne
    have hns' : record.ns = some ns := hns
    have hkey := congrArg Prod.fst (jitBinding_key record expiresAt)
    refine hkey.trans ?_
    simp [grantScope, truthy, hns', hne]
  clusterWide := by
    intro hns
    have hn : truthy record.ns = false := by
      have hns' : record.ns = none ∨ record.ns = some "" := hns
      rcases hns' with hns' | hns' <;> rw [hns'] <;> rfl
    constructor
    · have hkey := congrArg Prod.fst (jitBinding_key record expiresAt)
      refine hkey.trans ?_
      simp [grantScope, hn]
    · show record.roleKind = .clusterRole
      cases hk : record.roleKind with
      | clusterRole => rfl
      | role =>
          have := hw id record h.stored hk
          rw [hn] at this
          cases this
  expiry := by
    refine ⟨expiresAt, rfl, ?_, jitAnnotations record expiresAt, ?_, rfl⟩
    · show (expiresAt.instant : Int)
        = (w.clock w.tick).instant + record.ttlMinutes * 60000000
      rw [← h.reading]
      exact Time.instant_addMinutes h.expiry
    · rw [jitBinding]
      split <;> rfl

/-- Later states of an approved request have the same grant. -/
theorem exactGrant_of_sameGrant {w : World} {cluster reviewer : String}
    {b : Binding} {r r' : AccessRequestRecord} {bs : List (String × Binding)}
    (h : ExactGrant w cluster reviewer b r bs) (hr : SameGrant r r') :
    ExactGrant w cluster reviewer b r' bs where
  reviewedBy := hr.reviewedBy.trans h.reviewedBy
  other := hr.requester ▸ h.other
  eligible := by
    rw [policyOf]
    rw [hr.roleKind, hr.roleName]
    exact h.eligible
  ttl := by
    rw [policyOf]
    rw [hr.roleKind, hr.roleName, hr.ttlMinutes]
    exact h.ttl
  once := h.once
  name := by rw [hr.id]; exact h.name
  subjects := by rw [hr.subject]; exact h.subjects
  role := by rw [hr.roleKind, hr.roleName]; exact h.role
  namespaced := by rw [hr.ns]; exact h.namespaced
  clusterWide := by rw [hr.ns, hr.roleKind]; exact h.clusterWide
  expiry := by rw [hr.expiresAt, hr.ttlMinutes]; exact h.expiry

/-- Along every run that starts without requests: a request that is approved
    after some part of the run was approved by one call of that part, and
    over the whole run exactly one binding is created for it, the one that
    the request describes. -/
theorem approved_exactGrant (w : World)
    (hw : w.db.accessRequests = Table.empty) (pre post : List JitCall)
    (id : String) (r : AccessRequestRecord)
    (hr : (after jitStep pre w).db.accessRequests.get id = some r)
    (happ : r.status = .approved) :
    ∃ before cluster reviewer rest b r',
      pre = before ++ .approveRequest cluster id reviewer :: rest ∧
      (after jitStep (pre ++ post) w).db.accessRequests.get id = some r' ∧
      ExactGrant (after jitStep before w) cluster reviewer b r'
        (outputs jitStep (createdFor id) (pre ++ post) w) := by
  have hinit : ¬ WasApproved id w := by
    rintro ⟨r, hget, -⟩
    rw [hw, Table.get_empty] at hget
    exact nomatch hget
  obtain ⟨before, k, rest, hsplit, hbefore, hk⟩ :=
    exists_switch hinit ⟨r, hr, by rw [happ]; trivial⟩
  obtain ⟨cluster, reviewer, record, t, expiresAt, hkind, hv, hget⟩ :=
    approval_of_wasApproved hbefore hk
  subst hkind
  have hscoped : RolesScoped (after jitStep before w) := by
    have hnone : RolesScoped w := by
      intro id r hget
      rw [hw, Table.get_empty] at hget
      exact nomatch hget
    have hstep : ∀ v k, RolesScoped v → RolesScoped (jitStep k v) :=
      fun v k hv => rolesScoped_step hv k
    exact after_inv hstep hnone before
  -- the grant that the approval recorded is still there at the end
  have hholds : Holds id (record.set (approval id reviewer t expiresAt))
      (after jitStep (rest ++ post)
        (jitStep (.approveRequest cluster id reviewer)
          (after jitStep before w))) :=
    after_inv (fun v k h => holds_step h)
      ⟨_, hget, trivial, sameGrant_refl _⟩ (rest ++ post)
  obtain ⟨r', hget', -, hsame⟩ := hholds
  have hrun : pre ++ post
      = before ++ .approveRequest cluster id reviewer :: (rest ++ post) := by
    rw [hsplit]
    simp
  refine ⟨before, cluster, reviewer, rest, jitBinding record expiresAt, r',
    hsplit, ?_, ?_⟩
  · rw [hrun, after_append]
    exact hget'
  · refine exactGrant_of_sameGrant (exactGrant_of_approvable hscoped hv ?_)
      hsame
    rw [hrun, outputs_append, createdFor_before before w hbefore,
      List.nil_append]
    show createdFor id _ _ ++ outputs jitStep (createdFor id) (rest ++ post) _
      = _
    rw [createdFor_after hk, List.append_nil,
      createdFor_of_approval hv hget]

/-- A request of `bob` for `ada`, which `carol` approves. -/
def bobsRequest : RequestSpec where
  requester := "bob"
  targetUsername := "ada"
  userKind := .user
  roleName := "view"
  roleKind := .clusterRole
  ttlMinutes := 60
  reason := "incident"
  ns := none
  saNamespace := none

/-- In a new installation, the approval of a request is such a run. -/
theorem approved_exactGrant_fresh :
    ∃ before cluster reviewer rest b r',
      [.createRequest bobsRequest, .approveRequest "local" "0" "carol"]
        = before ++ .approveRequest cluster "0" reviewer :: rest ∧
      (after jitStep ([.createRequest bobsRequest,
        .approveRequest "local" "0" "carol"] ++ []) World.fresh
          ).db.accessRequests.get "0" = some r' ∧
      ExactGrant (after jitStep before World.fresh) cluster reviewer b r'
        (outputs jitStep (createdFor "0") ([.createRequest bobsRequest,
          .approveRequest "local" "0" "carol"] ++ []) World.fresh) := by
  have hget : ∃ r, (after jitStep [.createRequest bobsRequest,
      .approveRequest "local" "0" "carol"]
        World.fresh).db.accessRequests.get "0" = some r ∧
      r.status = .approved := by
    refine ⟨_, rfl, rfl⟩
  obtain ⟨r, hr, happ⟩ := hget
  exact approved_exactGrant World.fresh rfl _ [] "0" r hr happ

end CvGrant
