import ClusterVision.AuthorizerProofs
import ClusterVision.ExactCleanupProofs
import ClusterVision.JitGrantProofs
import ClusterVision.GrantSeparationProofs

/-! # What an account can do, over time

    Permanent assignments and temporary access both end in bindings, and the
    API server decides by what all bindings grant.  The first result says what
    a run of assignments makes of everybody's authority.  The others are about
    temporary access: along every run of the request calls and of the cleanup
    job's passes, everybody can do what he could at the start, and what the
    requests that are still granted give him; and a pass takes away what has
    expired, and nothing else. -/

namespace CvAuthority

open CvProg CvRun CvTable CvIso CvKube CvBackend CvRbac CvAssign CvEdit
  CvAuthorizer CvAccess CvGrant CvExpire CvCleanup CvExact

/-- What a cluster allows in a world. -/
def authority (w : World) (c : String) (i : Identity) (q : Request) : Prop :=
  allows (w.clusters c) i q = true

/-! ## Assignments -/

theorem assignRole_sparesRoles (cluster : String) (k : AssignCall) :
    (k.prog cluster).Uses SparesRoles := by
  refine Prog.uses_bind ?_ (fun kind => Prog.uses_ite ?_ ?_)
  · rw [subjectKind]
    cases SubjectKind.ofText k.userKind with
    | none => exact trivial
    | some kind => exact trivial
  · refine uses_unlessStatus (uses_kube_sparesRoles trivial) ?_
    refine Prog.uses_bind ?_ (fun _ => trivial)
    exact Prog.uses_bind (uses_kube_sparesRoles trivial) (fun _ => trivial)
  · refine uses_unlessStatus (uses_kube_sparesRoles trivial) ?_
    refine Prog.uses_bind ?_ (fun _ => trivial)
    refine Prog.uses_bind (ensureNamespace_sparesRoles _ _) (fun _ => ?_)
    exact Prog.uses_bind (uses_kube_sparesRoles trivial) (fun _ => trivial)

theorem assignStep_roles (cluster : String) (k : AssignCall) (w : World) :
    SameRoles w (assignStep cluster k w) :=
  run_roles (assignRole_sparesRoles cluster k) w

/-- What a call asks for lets somebody do something. -/
def Gives (c : Cluster) (k : AssignCall) (i : Identity)
    (q : Request) : Prop :=
  ∃ kind, SubjectKind.ofText k.userKind = some kind ∧
    permits c (k.grant kind) i q = true

/-- One assignment. -/
theorem assignStep_authority {cluster : String} {w : World} {k : AssignCall}
    (hu : Unshared cluster w k) (i : Identity) (q : Request) :
    authority (assignStep cluster k w) cluster i q ↔
      authority w cluster i q ∨
        Gives (w.clusters cluster) k i q := by
  have hroles := assignStep_roles cluster k w cluster
  cases hk : SubjectKind.ofText k.userKind with
  | none =>
      rw [assignStep, run_assignRole_badKind hk]
      constructor
      · exact Or.inl
      · rintro (h | ⟨kind, hkind, -⟩)
        · exact h
        · rw [hk] at hkind
          cases hkind
  | some kind =>
      obtain ⟨kind', hk', hgrants⟩ :=
        addsExactly_of_unshared hu (run_assignRole cluster w hk).1
      obtain rfl := Option.some.inj (hk'.symm.trans hk)
      refine (allows_insert hroles hgrants).trans (or_congr_right ?_)
      constructor
      · exact fun h => ⟨kind', hk, h⟩
      · rintro ⟨kind, hkind, h⟩
        obtain rfl := Option.some.inj (hkind.symm.trans hk)
        exact h

/-- **Assignments add up**: after a run of assignments that find their bindings
    unshared, everybody can do what he could before and what the calls asked
    for, and nothing else. -/
theorem assigned_authority (cluster : String) {w : World}
    {ks : List AssignCall}
    (hu : Along (assignStep cluster) (Unshared cluster) ks w) (i : Identity)
    (q : Request) :
    authority (after (assignStep cluster) ks w) cluster i q ↔
      authority w cluster i q ∨
        ∃ k ∈ ks, Gives (w.clusters cluster) k i q := by
  induction ks generalizing w with
  | nil =>
      refine (or_iff_left ?_).symm
      rintro ⟨k, hk, -⟩
      cases hk
  | cons k ks ih =>
      have hroles := assignStep_roles cluster k w cluster
      have hgives : ∀ k', Gives
          ((assignStep cluster k w).clusters cluster) k' i q ↔
          Gives (w.clusters cluster) k' i q := by
        intro k'
        unfold Gives
        exact exists_congr (fun kind =>
          and_congr_right (fun _ => by rw [permits_congr hroles]))
      rw [after_cons, ih hu.2, assignStep_authority hu.1, or_assoc,
        List.exists_mem_cons_iff]
      exact or_congr_right (or_congr_right (exists_congr (fun k' =>
        and_congr_right (fun _ => hgives k'))))

/-- The ClusterRole `view`. -/
def viewRole : RoleObject where
  name := "view"
  ns := none
  labels := []
  rules := [⟨some [""], some ["pods"], some ["get"], none, none⟩]

/-- A new installation with this role. -/
def withViewRole : World :=
  World.fresh.setCluster "local"
    { Cluster.fresh with roles := Table.empty.put viewRole }

/-- To read a pod. -/
def getPod : Request := .resource ⟨"get", some "apps", "", "pods", "", "web"⟩

/-- An assignment lets `ada` read pods. -/
theorem assigned_authority_ada :
    authority (after (assignStep "local")
      [⟨"ada", "User", "view", .clusterRole, none, none⟩] withViewRole)
      "local" ⟨"ada", []⟩ getPod := by
  have hu : Along (assignStep "local") (Unshared "local")
      [⟨"ada", "User", "view", .clusterRole, none, none⟩] withViewRole := by
    refine ⟨?_, trivial⟩
    intro kind _ b hb
    cases hb
  exact (assigned_authority "local" hu _ _).mpr (Or.inr
    ⟨_, List.mem_singleton_self _, .user, rfl, by decide⟩)

/-! ## Temporary access -/

/-- A request call, or one pass of the cleanup job over a cluster. -/
inductive AccessStep where
  | call (k : JitCall)
  | pass (cluster : String)

/-- The world after a step. -/
def accessStep : AccessStep → World → World
  | .call k, w => jitStep k w
  | .pass cluster, w => ((reconcile cluster).run handle w).2

theorem getOr404_sparesRoles (id : String) (lock : Bool) :
    (getOr404 id lock).Uses SparesRoles := by
  refine Prog.uses_bind (Prog.uses_perform trivial) (fun r => ?_)
  cases r with
  | none => exact trivial
  | some r => exact trivial

theorem checkPolicy_sparesRoles (kind : RoleKind) (name : String) (ttl : Int) :
    (checkPolicy kind name ttl).Uses SparesRoles :=
  Prog.uses_bind (Prog.uses_perform trivial) (fun _ =>
    Prog.uses_ite trivial (Prog.uses_ite trivial trivial))

/-- Reading the clock, and then a transaction. -/
theorem commit_sparesRoles {α : Type} (writes : Time → List DbWrite)
    (a : Time → α) :
    (do let t ← now; db (.commit (writes t)); pure (a t)).Uses SparesRoles :=
  Prog.uses_bind (Prog.uses_perform trivial) (fun _ =>
    Prog.uses_bind (Prog.uses_perform trivial) (fun _ => trivial))

theorem approveRequest_sparesRoles (cluster requestId reviewer : String) :
    (approveRequest cluster requestId reviewer).Uses SparesRoles := by
  rw [approveRequest_eq]
  refine Prog.uses_bind ?_ (fun p => ?_)
  · refine Prog.uses_bind (getOr404_sparesRoles _ _) (fun record => ?_)
    refine Prog.uses_ite trivial (Prog.uses_ite trivial ?_)
    refine Prog.uses_bind (checkPolicy_sparesRoles _ _ _) (fun _ => ?_)
    refine Prog.uses_bind (Prog.uses_perform trivial) (fun t => ?_)
    refine Prog.uses_bind ?_ (fun expiresAt => ?_)
    · rw [plusMinutes]
      cases t.addMinutes record.ttlMinutes with
      | none => exact trivial
      | some t' => exact trivial
    · refine Prog.uses_bind ?_ (fun _ => trivial)
      exact Prog.uses_ite (ensureNamespace_sparesRoles _ _) trivial
  · refine Prog.uses_bind (uses_kube_sparesRoles trivial) (fun _ => ?_)
    exact Prog.uses_bind (Prog.uses_perform trivial) (fun _ => trivial)

theorem revokeRequest_sparesRoles (cluster requestId reviewer : String) :
    (revokeRequest cluster requestId reviewer).Uses SparesRoles := by
  refine Prog.uses_bind (getOr404_sparesRoles _ _) (fun record => ?_)
  refine Prog.uses_ite trivial ?_
  refine Prog.uses_bind ?_ (fun _ => commit_sparesRoles _ _)
  rw [deleteGrant]
  cases record.bindingName with
  | none => exact trivial
  | some name =>
      refine uses_unlessStatus (Prog.uses_ite ?_ ?_) trivial
      · exact uses_kube_sparesRoles trivial
      · exact uses_kube_sparesRoles trivial

/-- No request call writes a role. -/
theorem jitCall_sparesRoles (k : JitCall) : k.prog.Uses SparesRoles := by
  cases k with
  | createRequest q =>
      refine Prog.uses_bind (Prog.uses_ite trivial ?_) (fun _ => trivial)
      refine Prog.uses_bind (checkPolicy_sparesRoles _ _ _) (fun _ => ?_)
      refine Prog.uses_bind (Prog.uses_perform trivial) (fun id => ?_)
      exact commit_sparesRoles _ _
  | setPolicy kind name eligible cap =>
      refine Prog.uses_bind ?_ (fun _ => trivial)
      refine Prog.uses_bind (Prog.uses_perform trivial) (fun _ => ?_)
      exact Prog.uses_bind (Prog.uses_perform trivial) (fun _ => trivial)
  | deletePolicy kind name =>
      refine Prog.uses_bind (Prog.uses_perform trivial) (fun p => ?_)
      cases p with
      | none => exact trivial
      | some p => exact Prog.uses_perform trivial
  | approveRequest cluster requestId reviewer =>
      exact Prog.uses_bind (approveRequest_sparesRoles _ _ _)
        (fun _ => trivial)
  | denyRequest requestId reviewer =>
      refine Prog.uses_bind ?_ (fun _ => trivial)
      refine Prog.uses_bind (getOr404_sparesRoles _ _) (fun record => ?_)
      exact Prog.uses_ite trivial (commit_sparesRoles _ _)
  | revokeRequest cluster requestId reviewer =>
      exact Prog.uses_bind (revokeRequest_sparesRoles _ _ _)
        (fun _ => trivial)
  | markExpired =>
      refine Prog.uses_bind (Prog.uses_perform trivial) (fun t => ?_)
      refine Prog.uses_bind (Prog.uses_perform trivial) (fun records => ?_)
      exact Prog.uses_perform trivial

/-- Neither does a pass. -/
theorem reconcile_sparesRoles (cluster : String) :
    (reconcile cluster).Uses SparesRoles := by
  have hloop : ∀ (t : Time) (ns : Binding → Option String)
      (xs : List Binding) (n : Nat), (xs.foldlM (fun revoked b =>
        expireBinding cluster t (ns b) revoked b) n).Uses SparesRoles := by
    intro t ns xs n
    exact Prog.uses_foldlM (fun m _ _ =>
      expireBinding_uses (P := SparesRoles) t trivial m) n
  refine Prog.uses_bind (Prog.uses_perform trivial) (fun t => ?_)
  refine Prog.uses_bind (uses_kube_sparesRoles trivial) (fun crbs => ?_)
  refine Prog.uses_bind (hloop t (fun _ => none) _ _) (fun n => ?_)
  refine Prog.uses_bind (uses_kube_sparesRoles trivial) (fun rbs => ?_)
  exact hloop t Binding.ns _ _

theorem accessStep_roles (a : AccessStep) (w : World) :
    SameRoles w (accessStep a w) := by
  cases a with
  | call k => exact run_roles (jitCall_sparesRoles k) w
  | pass cluster => exact run_roles (reconcile_sparesRoles cluster) w

/-! ## Granted requests -/

/-- The bindings of a cluster. -/
def bindingsOf (w : World) (c : String) : List Binding :=
  (w.clusters c).bindings.rows

/-- At the start there are no requests, and no binding looks like one of
    them. -/
structure Start (w : World) : Prop where
  requests : w.db.accessRequests = Table.empty
  unlabelled : ∀ c, ∀ b ∈ bindingsOf w c, ¬ Jit b
  unnamed : ∀ c, ∀ b ∈ bindingsOf w c, ∀ id, b.name ≠ jitBindingName id

/-- The grant that a request asks for. -/
def requestGrant (r : AccessRequestRecord) : Grant :=
  ⟨requestSubject r, r.roleKind, r.roleName, grantScope r⟩

/-- The request has been approved until `e`, and its binding is on the
    cluster. -/
structure Granted (w : World) (c : String) (r : AccessRequestRecord)
    (e : Time) : Prop where
  stored : w.db.accessRequests.get r.id = some r
  approved : Approved r.status
  expiry : r.expiresAt = some e
  bound : jitBinding r e ∈ bindingsOf w c

/-- What holds after every run that began in `w₀`. -/
structure Law (w₀ w : World) : Prop where
  roles : SameRoles w₀ w
  inNamespace : RolesScoped w
  named : ∀ id r, w.db.accessRequests.get id = some r →
    ∀ name, r.bindingName = some name → name = jitBindingName id
  base : ∀ c b, ¬ Jit b → (b ∈ bindingsOf w c ↔ b ∈ bindingsOf w₀ c)
  labelled : ∀ c, ∀ b ∈ bindingsOf w c, ∀ id,
    b.name = jitBindingName id → Jit b
  requested : ∀ c, ∀ b ∈ bindingsOf w c, Jit b →
    ∃ r e, Holds r.id r w ∧ r.expiresAt = some e ∧ b = jitBinding r e

theorem jit_jitBinding (r : AccessRequestRecord) (e : Time) :
    Jit (jitBinding r e) := by
  have hlabels : (jitBinding r e).labels = managedBy.merge jitLabels := by
    rw [jitBinding]
    split <;> rfl
  rw [Jit, hlabels]
  decide

/-- Requests with the same grant have the same binding. -/
theorem jitBinding_congr {r r' : AccessRequestRecord} (h : SameGrant r r')
    (e : Time) : jitBinding r' e = jitBinding r e := by
  rw [jitBinding, jitBinding, jitAnnotations, jitAnnotations, h.id, h.ns,
    h.subject, h.roleName, h.roleKind]

/-- The binding of a request is its grant. -/
theorem bindingGrants_jitBinding {r : AccessRequestRecord}
    (hscoped : r.roleKind = .role → truthy r.ns = true) (e : Time) :
    bindingGrants (jitBinding r e) = {requestGrant r} := by
  have hkey := congrArg Prod.fst (jitBinding_key r e)
  have hsubjects : (jitBinding r e).subjects = [requestSubject r] := by
    rw [jitBinding]
    split <;> rfl
  have hrole : (jitBinding r e).roleRef.kind = r.roleKind ∧
      (jitBinding r e).roleRef.name = r.roleName := by
    rw [jitBinding]
    by_cases hn : truthy r.ns = true
    · rw [if_pos hn]
      exact ⟨rfl, rfl⟩
    · -- without a namespace it is a request for a ClusterRole
      rw [if_neg hn]
      refine ⟨?_, rfl⟩
      cases hkind : r.roleKind with
      | clusterRole => rfl
      | role => exact absurd (hscoped hkind) hn
  ext g
  rw [mem_bindingGrants_single hsubjects, hrole.1, hrole.2,
    show (jitBinding r e).ns = grantScope r from hkey]
  exact Iff.rfl

theorem law_start {w : World} (h : Start w) : Law w w where
  roles := fun _ => rfl
  inNamespace := by
    intro id r hget
    rw [h.requests, Table.get_empty] at hget
    cases hget
  named := by
    intro id r hget
    rw [h.requests, Table.get_empty] at hget
    cases hget
  base := fun _ _ _ => Iff.rfl
  labelled := fun c b hb id hname => absurd hname (h.unnamed c b hb id)
  requested := fun c b hb hjit => absurd hjit (h.unlabelled c b hb)

/-- The name that a request has for its binding stays. -/
theorem named_step {w : World} (k : JitCall)
    (h : ∀ id r, w.db.accessRequests.get id = some r →
      ∀ name, r.bindingName = some name → name = jitBindingName id) :
    ∀ id r, (jitStep k w).db.accessRequests.get id = some r →
      ∀ name, r.bindingName = some name → name = jitBindingName id := by
  intro id r hget name hname
  have hrow := jitCall_rowEffect k w id
  rw [hget] at hrow
  generalize hout : some r = row at hrow
  cases hrow with
  | same => exact h id r hout.symm name hname
  | requested free inNamespace =>
      cases hout
      cases hname
  | approved approvable =>
      cases hout
      exact (Option.some.inj hname).symm
  | denied stored pending =>
      cases hout
      exact h id _ stored name hname
  | revoked stored active =>
      cases hout
      exact h id _ stored name hname
  | expired stored active late =>
      cases hout
      exact h id _ stored name hname

/-- A call changes the bindings of requests only. -/
theorem bindings_step {w₀ w : World} (h : Law w₀ w) (k : JitCall) (c : String) :
    bindingsOf (jitStep k w) c = bindingsOf w c ∨
    (∃ r e, Holds r.id r (jitStep k w) ∧ r.expiresAt = some e ∧
      ∀ b, b ∈ bindingsOf (jitStep k w) c ↔
        b = jitBinding r e ∨ b ∈ bindingsOf w c) ∨
    ∃ key, (∀ b ∈ bindingsOf w c, b.key = key → Jit b) ∧
      ∀ b, b ∈ bindingsOf (jitStep k w) c ↔
        b ∈ bindingsOf w c ∧ b.key ≠ key := by
  have heff := jitCall_effect k w
  generalize created k w = bs at heff
  generalize jitStep k w = w' at heff ⊢
  cases heff with
  | calm requests bindings | requested _ _ requests bindings
  | denied _ _ requests bindings | expired requests bindings =>
      refine Or.inl ?_
      rw [bindingsOf, bindings c]
      rfl
  | @approved cluster requestId reviewer record t expiresAt _ approvable free
      requests bindings others =>
      by_cases hc : c = cluster
      · rw [hc]
        refine Or.inr (Or.inl
          ⟨record.set (approval record.id reviewer t expiresAt), expiresAt,
            ⟨record.set (approval record.id reviewer t expiresAt), ?_, trivial,
              sameGrant_refl _⟩, rfl, ?_⟩)
        · rw [requests]
          exact Table.get_put_self _ _
        · intro b
          rw [bindingsOf, bindings, Table.mem_put]
          refine or_congr Iff.rfl (and_iff_left_of_imp ?_)
          -- the key was free
          intro hb hkey
          have hget := Table.get_of_mem hb
          rw [hkey, free] at hget
          cases hget
      · refine Or.inl ?_
        rw [bindingsOf, others c hc]
        rfl
  | @revoked cluster requestId reviewer record name t _ stored active named
      requests bindings others =>
      by_cases hc : c = cluster
      · rw [hc]
        refine Or.inr (Or.inr ⟨(grantScope record, name), ?_, ?_⟩)
        · intro b hb hkey
          refine h.labelled cluster b hb requestId ?_
          rw [← h.named requestId record stored name named]
          exact congrArg Prod.snd hkey
        · intro b
          rw [bindingsOf, bindings, Table.mem_erase]
          rfl
      · refine Or.inl ?_
        rw [bindingsOf, others c hc]
        rfl

/-- One request call. -/
theorem law_call {w₀ w : World} (h : Law w₀ w) (k : JitCall) :
    Law w₀ (jitStep k w) := by
  have hroles : SameRoles w₀ (jitStep k w) :=
    fun c => (accessStep_roles (.call k) w c).trans (h.roles c)
  have hlaw : ∀ c,
      (∀ b, ¬ Jit b → (b ∈ bindingsOf (jitStep k w) c ↔ b ∈ bindingsOf w₀ c)) ∧
      (∀ b ∈ bindingsOf (jitStep k w) c, ∀ id,
        b.name = jitBindingName id → Jit b) ∧
      (∀ b ∈ bindingsOf (jitStep k w) c, Jit b →
        ∃ r e, Holds r.id r (jitStep k w) ∧ r.expiresAt = some e ∧
          b = jitBinding r e) := by
    intro c
    -- what a binding was granted for is still recorded
    have hold : ∀ b ∈ bindingsOf w c, Jit b →
        ∃ r e, Holds r.id r (jitStep k w) ∧ r.expiresAt = some e ∧
          b = jitBinding r e := by
      intro b hb hjit
      obtain ⟨r, e, hholds, he, rfl⟩ := h.requested c b hb hjit
      exact ⟨r, e, holds_step hholds, he, rfl⟩
    rcases bindings_step h k c with hsame | ⟨r, e, hholds, he, hput⟩ |
        ⟨key, hkey, herase⟩
    · rw [hsame]
      exact ⟨h.base c, h.labelled c, hold⟩
    · refine ⟨?_, ?_, ?_⟩
      · intro b hjit
        rw [hput, h.base c b hjit]
        refine or_iff_right ?_
        rintro rfl
        exact hjit (jit_jitBinding r e)
      · intro b hb id hname
        rcases (hput b).mp hb with rfl | hb
        · exact jit_jitBinding r e
        · exact h.labelled c b hb id hname
      · intro b hb hjit
        rcases (hput b).mp hb with rfl | hb
        · exact ⟨r, e, hholds, he, rfl⟩
        · exact hold b hb hjit
    · refine ⟨?_, ?_, ?_⟩
      · intro b hjit
        rw [herase, ← h.base c b hjit]
        exact and_iff_left_of_imp (fun hb hk => hjit (hkey b hb hk))
      · intro b hb id hname
        exact h.labelled c b ((herase b).mp hb).1 id hname
      · intro b hb hjit
        exact hold b ((herase b).mp hb).1 hjit
  exact {
    roles := hroles
    inNamespace := rolesScoped_step h.inNamespace k
    named := named_step k h.named
    base := fun c => (hlaw c).1
    labelled := fun c => (hlaw c).2.1
    requested := fun c => (hlaw c).2.2 }

/-- What a pass leaves of the bindings of a cluster. -/
theorem pass_bindings {w₀ w : World} (h : Law w₀ w) (cluster c : String)
    (b : Binding) :
    b ∈ bindingsOf (accessStep (.pass cluster) w) c ↔
      b ∈ bindingsOf w c ∧ (c = cluster → ¬ Expired (reading w) b) := by
  by_cases hc : c = cluster
  · rw [hc, imp_iff_right rfl]
    have hread : JitReadable (w.clusters cluster) := by
      intro x hx hjit t
      obtain ⟨r, e, -, -, rfl⟩ := h.requested cluster x hx hjit
      refine ⟨decide (e ≤ t), ?_⟩
      have hann : (jitBinding r e).annotations = some (jitAnnotations r e) := by
        rw [jitBinding]
        split <;> rfl
      rw [hann]
      exact isExpired_isoformat t rfl
    obtain ⟨n, w', hrun⟩ := reconcile_returns hread
    have hw' : accessStep (.pass cluster) w = w' := by
      rw [accessStep, hrun]
    have hshrunk : Shrunk w w' := by
      have hrest := (reconcile_uses cluster).run_keeps (R := Shrunk)
        Shrunk.refl Shrunk.trans (fun _ s hop => shrunk_of_sweeping hop s) w
      rw [hrun] at hrest
      exact hrest
    rw [hw']
    constructor
    · intro hb
      have hrow := hshrunk.bindings cluster b hb
      refine ⟨hrow, ?_⟩
      intro hexp
      have hgone := reconcile_swept hrun b hrow hexp
      rw [Table.get_of_mem hb] at hgone
      cases hgone
    · rintro ⟨hb, hlive⟩
      have hkept := CvCleanup.reconcile_spares hb hlive
      rw [hrun] at hkept
      exact hkept
  · rw [bindingsOf, accessStep, run_cluster_of_uses
      (CvSeparation.reconcile_onCluster cluster) hc]
    exact (and_iff_left (fun h => absurd h hc)).symm

/-- One pass: it takes only what a request was granted. -/
theorem law_pass {w₀ w : World} (h : Law w₀ w) (cluster : String) :
    Law w₀ (accessStep (.pass cluster) w) := by
  have hdb : (accessStep (.pass cluster) w).db = w.db :=
    ((reconcile_uses cluster).run_keeps (R := Shrunk) Shrunk.refl Shrunk.trans
      (fun _ s hop => shrunk_of_sweeping hop s) w).db
  refine ⟨?_, ?_, ?_, ?_, ?_, ?_⟩
  · exact fun c => (accessStep_roles (.pass cluster) w c).trans (h.roles c)
  · rw [RolesScoped, hdb]
    exact h.inNamespace
  · rw [hdb]
    exact h.named
  · intro c b hjit
    rw [pass_bindings h, h.base c b hjit]
    exact and_iff_left (fun _ hexp => hjit hexp.1)
  · intro c b hb
    exact h.labelled c b ((pass_bindings h cluster c b).mp hb).1
  · intro c b hb hjit
    have hrow := ((pass_bindings h cluster c b).mp hb).1
    obtain ⟨r, e, hholds, he, hbinding⟩ := h.requested c b hrow hjit
    rw [Holds, ← hdb] at hholds
    exact ⟨r, e, hholds, he, hbinding⟩

/-- The law holds after every run. -/
theorem law_after {w : World} (h : Start w) (steps : List AccessStep) :
    Law w (after accessStep steps w) := by
  refine @after_inv _ _ accessStep (Law w) ?_ _ (law_start h) steps
  intro s a hs
  cases a with
  | call k => exact law_call hs k
  | pass cluster => exact law_pass hs cluster

/-! ## Who can do what -/

/-- What the bindings of a cluster allow, when the law holds and `kept` says
    which bindings are still there. -/
theorem authority_of_law {w₀ w : World} (hstart : Start w₀) (h : Law w₀ w)
    {c : String} (kept : Binding → Prop)
    (hbase : ∀ b ∈ bindingsOf w c, ¬ Jit b → kept b) (i : Identity)
    (q : Request) :
    (∃ b ∈ bindingsOf w c, kept b ∧
        bindingAllows (w.clusters c) b i q = true) ↔
      authority w₀ c i q ∨
        ∃ r e, Granted w c r e ∧ kept (jitBinding r e) ∧
          permits (w₀.clusters c) (requestGrant r) i q = true := by
  have hallows : ∀ b, bindingAllows (w.clusters c) b i q
      = bindingAllows (w₀.clusters c) b i q :=
    bindingAllows_congr (h.roles c)
  have hgrant : ∀ r e, w.db.accessRequests.get r.id = some r →
      (bindingAllows (w₀.clusters c) (jitBinding r e) i q = true ↔
        permits (w₀.clusters c) (requestGrant r) i q = true) := by
    intro r e hstored
    rw [bindingAllows_iff,
      bindingGrants_jitBinding (h.inNamespace r.id r hstored) e]
    simp only [Set.mem_singleton_iff, exists_eq_left]
  rw [authority, allows, List.any_eq_true]
  constructor
  · rintro ⟨b, hb, hkept, hb'⟩
    rw [hallows] at hb'
    by_cases hjit : Jit b
    · obtain ⟨r, e, ⟨r', hstored, happ, hsame⟩, he, rfl⟩ :=
        h.requested c b hb hjit
      have hbinding := jitBinding_congr hsame e
      rw [← hsame.id] at hstored
      rw [← hbinding] at hb hkept hb'
      exact Or.inr ⟨r', e, ⟨hstored, happ, hsame.expiresAt.trans he, hb⟩,
        hkept, (hgrant r' e hstored).mp hb'⟩
    · exact Or.inl ⟨b, (h.base c b hjit).mp hb, hb'⟩
  · rintro (⟨b, hb, hb'⟩ | ⟨r, e, hgranted, hkept, hpermits⟩)
    · have hjit := hstart.unlabelled c b hb
      have hrow := (h.base c b hjit).mpr hb
      rw [← hallows] at hb'
      exact ⟨b, hrow, hbase b hrow hjit, hb'⟩
    · refine ⟨jitBinding r e, hgranted.bound, hkept, ?_⟩
      rw [hallows]
      exact (hgrant r e hgranted.stored).mpr hpermits

/-- **Temporary access is all that the request calls change**: after every run
    of request calls and passes, everybody can do on every cluster what he could
    at the start, and what the approved requests give him whose bindings are
    there. -/
theorem temporary_authority {w₀ : World} (hstart : Start w₀)
    (steps : List AccessStep) (c : String) (i : Identity) (q : Request) :
    authority (after accessStep steps w₀) c i q ↔
      authority w₀ c i q ∨
        ∃ r e, Granted (after accessStep steps w₀) c r e ∧
          permits (w₀.clusters c) (requestGrant r) i q = true := by
  have hlaw := law_after hstart steps
  have hall := authority_of_law hstart hlaw (c := c) (fun _ => True)
    (fun _ _ _ => trivial) i q
  rw [authority, allows, List.any_eq_true]
  simp only [true_and] at hall
  exact hall

/-- A granted request expires at the time that it was granted until. -/
theorem expired_jitBinding_iff (r : AccessRequestRecord) (e t : Time) :
    Expired t (jitBinding r e) ↔ e ≤ t := by
  have hann : (jitBinding r e).annotations = some (jitAnnotations r e) := by
    rw [jitBinding]
    split <;> rfl
  have hexp : isExpired (jitBinding r e).annotations t
      = .ok (decide (e ≤ t)) := by
    rw [hann]
    exact isExpired_isoformat t rfl
  rw [Expired, hexp]
  constructor
  · rintro ⟨-, h⟩
    exact of_decide_eq_true (Except.ok.inj h)
  · exact fun h => ⟨jit_jitBinding r e, congrArg Except.ok (decide_eq_true h)⟩

/-- **Temporary access ends**: a pass over a cluster leaves everybody what he
    could do at the start, and what the requests give him that are granted
    until later. -/
theorem access_ends {w₀ : World} (hstart : Start w₀) (steps : List AccessStep)
    (c : String) (i : Identity) (q : Request) :
    authority (after accessStep (steps ++ [.pass c]) w₀) c i q ↔
      authority w₀ c i q ∨
        ∃ r e, Granted (after accessStep steps w₀) c r e ∧
          ¬ e ≤ reading (after accessStep steps w₀) ∧
          permits (w₀.clusters c) (requestGrant r) i q = true := by
  have hlaw := law_after hstart steps
  rw [after_append, after_cons, after_nil]
  generalize after accessStep steps w₀ = w at hlaw ⊢
  have hkept : ∀ b, b ∈ ((accessStep (.pass c) w).clusters c).bindings.rows ↔
      b ∈ (w.clusters c).bindings.rows ∧ ¬ Expired (reading w) b := by
    intro b
    exact (pass_bindings hlaw c c b).trans
      (and_congr_right (fun _ => imp_iff_right rfl))
  have hall := authority_of_law hstart hlaw (c := c)
    (fun b => ¬ Expired (reading w) b)
    (fun b _ hjit hexp => hjit hexp.1) i q
  simp only [expired_jitBinding_iff] at hall
  exact (allows_of_kept (accessStep_roles (.pass c) w c) hkept).trans hall

/-- One hour after the epoch. -/
def hourAfterEpoch : Time :=
  { Time.epoch with hour := 1, inRange := by decide }

/-- The same installation, with a clock that shows the later hour from its
    fourth reading on. -/
def withLateClock : World :=
  { withViewRole with
    clock := fun n => if n < 3 then Time.epoch else hourAfterEpoch }

theorem start_withLateClock : Start withLateClock := by
  have hnone : ∀ c, bindingsOf withLateClock c = [] := by
    intro c
    show bindingsOf withViewRole c = []
    rw [bindingsOf, withViewRole]
    by_cases hc : c = "local"
    · rw [hc, World.setCluster_self]
      rfl
    · rw [World.setCluster_ne _ _ hc]
      rfl
  refine ⟨rfl, ?_, ?_⟩
  · intro c b hb
    rw [hnone] at hb
    cases hb
  · intro c b hb
    rw [hnone] at hb
    cases hb

/-- `carol` approves the request of `bob` for `ada`. -/
def bobsAccess : List AccessStep :=
  [.call (.createRequest bobsRequest),
    .call (.approveRequest "local" "0" "carol")]

/-- The request as the approval leaves it. -/
def bobsGrant : AccessRequestRecord :=
  (bobsRequest.record "0" Time.epoch).set
    (approval "0" "carol" Time.epoch hourAfterEpoch)

theorem granted_bobsGrant :
    Granted (after accessStep bobsAccess withLateClock) "local" bobsGrant
      hourAfterEpoch := by
  refine ⟨?_, trivial, rfl, ?_⟩
  · rfl
  · decide

/-- The approval lets `ada` read pods. -/
theorem temporary_authority_ada :
    authority (after accessStep bobsAccess withLateClock) "local" ⟨"ada", []⟩
      getPod :=
  (temporary_authority start_withLateClock bobsAccess "local" _ _).mpr
    (Or.inr ⟨bobsGrant, hourAfterEpoch, granted_bobsGrant, by decide⟩)

/-- A pass an hour later takes it away. -/
theorem access_ends_ada :
    ¬ authority (after accessStep (bobsAccess ++ [.pass "local"]) withLateClock)
      "local" ⟨"ada", []⟩ getPod := by
  rw [access_ends start_withLateClock]
  rintro (hstart | ⟨r, e, hgranted, hlate, -⟩)
  · rw [authority] at hstart
    revert hstart
    decide
  · have hrow : r ∈ [bobsGrant] := Table.mem_of_get hgranted.stored
    obtain rfl := List.mem_singleton.mp hrow
    obtain rfl := Option.some.inj hgranted.expiry
    revert hlate
    decide

end CvAuthority
