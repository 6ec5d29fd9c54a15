import ClusterVision.JitRevocationProofs

/-! # Approvals that fail half-way

    `approve_request` writes to Kubernetes first and to the database last,
    without a common transaction.  One of its calls fails here, whichever one
    and however.  The main result says for which failures the request is still
    either approved with its binding, or pending without one. -/

namespace CvFault

open CvProg CvTable CvIso CvKube CvBackend CvRbac CvAccess CvGrant CvRevoke

/-! ## One point of failure -/

/-- The calls that an approval makes, each at most once. -/
inductive ApprovalCall where
  | readRequest
  | readPolicy
  | readClock
  | readNamespace
  | createNamespace
  | createBinding
  | commit
deriving DecidableEq

/-- Which call of the approval a call of the backend is. -/
def approvalCall : Op → Option ApprovalCall
  | .db (.getAccessRequest _ _) => some .readRequest
  | .db (.getPolicy _ _) => some .readPolicy
  | .now => some .readClock
  | .kube _ (.readNamespace _) => some .readNamespace
  | .kube _ (.createNamespace _) => some .createNamespace
  | .kube _ (.createBinding _) => some .createBinding
  | .db (.commit _) => some .commit
  | _ => none

/-- The plan in which one call of the approval meets the fault `f`. -/
def failing (point : ApprovalCall) (f : Fault Exn) : Plan backend Exn :=
  fun _ op => if approvalCall op = some point then some f else none

/-- The world after an approval under that plan. -/
def failedApproval (point : ApprovalCall) (f : Fault Exn)
    (cluster id reviewer : String) (w : World) : World :=
  ((approveRequest cluster id reviewer).run (faulty (failing point f) handle)
    (0, w)).2.2

/-! ## All or nothing -/

/-- The request is pending, and there is no binding for it. -/
structure Untouched (w : World) (id : String) : Prop where
  pending : ∃ r, w.db.accessRequests.get id = some r ∧ r.status = .pending
  unbound : ∀ c, ¬ Live w c id

/-- The request is approved, and its binding is there. -/
structure Granted (w : World) (cluster id : String) : Prop where
  approved : ∃ r, w.db.accessRequests.get id = some r ∧ r.status = .approved
  bound : Live w cluster id

/-- A later denial leaves no live grant, and a later approval without failure
    succeeds. -/
structure Recoverable (w : World) (id : String) : Prop where
  deny : ∀ reviewer c,
    ¬ Live ((denyRequest id reviewer).run handle w).2 c id
  retry : ∀ cluster reviewer r t expiresAt,
    Approvable w id reviewer r t expiresAt →
      ∃ r', ((approveRequest cluster id reviewer).run handle w).1 = .ok r' ∧
        Granted ((approveRequest cluster id reviewer).run handle w).2
          cluster id

/-- The approval took effect as a whole, or not at all; and if not, the
    request can be denied or approved later. -/
def AllOrNothing (w : World) (cluster id : String) : Prop :=
  Granted w cluster id ∨ (Untouched w id ∧ Recoverable w id)

/-- The failures between the two writes, in an approval that gets as far: the
    answer to the creation of the binding is lost, or the commit is refused. -/
def BetweenWrites (w : World) (id reviewer : String) (point : ApprovalCall)
    (f : Fault Exn) : Prop :=
  (∃ r t expiresAt, Approvable w id reviewer r t expiresAt) ∧
  ((point = .createBinding ∧ ∃ e, f = .lose e) ∨
    (point = .commit ∧ ∃ e, f = .refuse e))

variable {w w' : World} {cluster id reviewer : String}

/-- A binding has been added to the ones that were there. -/
theorem live_of_put (w' : World) (b : Binding)
    (h : (w.clusters cluster).bindings
      = (w'.clusters cluster).bindings.put b)
    (hb : b.name = jitBindingName id) : Live w cluster id :=
  ⟨b, by rw [h]; exact Table.mem_put.mpr (Or.inl rfl), hb⟩

/-- The key of a request's binding is free where the request has none. -/
theorem key_free {record : AccessRequestRecord} (expiresAt : Time)
    (hid : record.id = id) (hw : ¬ Live w cluster id) :
    (w.clusters cluster).bindings.get (jitBinding record expiresAt).key
      = none := by
  rw [Table.get_eq_none_iff]
  intro b hb hkey
  refine hw ⟨b, hb, ?_⟩
  rw [jitBinding_key, hid] at hkey
  exact congrArg Prod.snd hkey

/-- Calm calls leave the request untouched. -/
theorem untouched_of_calm (hcalm : Calm w w') (hw : Untouched w id) :
    Untouched w' id := by
  refine ⟨?_, ?_⟩
  · rw [hcalm.db]
    exact hw.pending
  · rintro c ⟨b, hb, hname⟩
    rw [hcalm.bindings c] at hb
    exact hw.unbound c ⟨b, hb, hname⟩

/-- Without failures, an untouched request that can be approved is. -/
theorem approveRequest_of_untouched {r : AccessRequestRecord}
    {t expiresAt : Time} (hw : Untouched w id)
    (h : Approvable w id reviewer r t expiresAt) :
    ∃ r', ((approveRequest cluster id reviewer).run handle w).1 = .ok r' ∧
      Granted ((approveRequest cluster id reviewer).run handle w).2
        cluster id := by
  obtain ⟨w₁, hrun, hns⟩ := prepareApproval_of_approvable cluster h
  have hcalm : Calm w
      ((prepareApproval cluster id reviewer).run handle w).2 :=
    calm_run (mostly_refl handle) (prepareApproval_uses cluster id reviewer) w
  rw [hrun] at hcalm
  have hfree := key_free expiresAt h.id_eq
    ((untouched_of_calm hcalm hw).unbound cluster)
  rw [approveRequest_eq, Prog.run_bind, hrun, Prog.andThen_ok, Prog.run_bind,
    run_kube, handle_createBinding_free hns hfree, Prog.andThen_ok]
  generalize hw₂ : setBindings w₁ cluster
    ((w₁.clusters cluster).bindings.put (jitBinding r expiresAt)) = w₂
  have hdb : w₂.db = w.db := by
    rw [← hw₂]
    exact hcalm.db
  have hstored : w₂.db.accessRequests.get r.id = some r := by
    rw [hdb, h.id_eq]
    exact h.stored
  rw [finishApproval_run hstored]
  refine ⟨_, rfl, ⟨r.set (approval r.id reviewer t expiresAt), ?_, rfl⟩, ?_⟩
  · show (w₂.db.accessRequests.put _).get id = _
    rw [get_put_request _ hstored, h.id_eq, if_pos rfl]
  · refine live_of_put w₁ (jitBinding r expiresAt) ?_ ?_
    · rw [World.setDb_clusters, ← hw₂, setBindings_self]
    · rw [jitBinding_name, h.id_eq]

/-- An untouched request can be denied or approved later. -/
theorem recoverable_of_untouched (hw : Untouched w id) :
    Recoverable w id := by
  refine ⟨?_, ?_⟩
  · rintro reviewer c ⟨b, hb, hname⟩
    have hsame : SameBindings w ((denyRequest id reviewer).run handle w).2 := by
      have heff := denyRequest_effect id reviewer w
      generalize ((denyRequest id reviewer).run handle w).2 = v at heff ⊢
      cases heff with
      | calm requests bindings => exact bindings
      | denied stored pending requests bindings => exact bindings
    rw [hsame c] at hb
    exact hw.unbound c ⟨b, hb, hname⟩
  · intro cluster reviewer r t expiresAt h
    exact approveRequest_of_untouched hw h

/-! ## The two writes -/

theorem failing_hit {point : ApprovalCall} {f : Fault Exn} {n : Nat} {op : Op}
    (h : approvalCall op = some point) : failing point f n op = some f :=
  if_pos h

theorem failing_miss {point : ApprovalCall} {f : Fault Exn} {n : Nat}
    {op : Op} (h : approvalCall op ≠ some point) :
    failing point f n op = none := if_neg h

/-- A request that has its binding while it is pending is neither granted nor
    untouched. -/
theorem not_allOrNothing {r : AccessRequestRecord}
    (hget : w.db.accessRequests.get id = some r) (hs : r.status = .pending)
    (hlive : Live w cluster id) : ¬ AllOrNothing w cluster id := by
  rintro (hg | ⟨hu, -⟩)
  · obtain ⟨r', hget', hs'⟩ := hg.approved
    rw [Option.some.inj (hget.symm.trans hget'), hs'] at hs
    exact nomatch hs
  · exact hu.unbound cluster hlive

/-- The last part of an approval under a fault, once the binding is there:
    only a refused commit loses the approval. -/
theorem finishApproval_failing {point : ApprovalCall} {f : Fault Exn}
    {record : AccessRequestRecord} {t expiresAt : Time} {n : Nat}
    (hid : record.id = id)
    (hstored : w.db.accessRequests.get id = some record)
    (hs : record.status = .pending) (hlive : Live w cluster id) :
    AllOrNothing (((finishApproval reviewer record t expiresAt).run
        (faulty (failing point f) handle) (n, w)).2.2) cluster id
      ↔ ¬ (point = .commit ∧ ∃ e, f = .refuse e) := by
  have hcommit := applyWrites_update
    (u := approval record.id reviewer t expiresAt) (hid.symm ▸ hstored)
  have hgranted : Granted (w.setDb (w.db.withRequests
      (w.db.accessRequests.put
        (record.set (approval record.id reviewer t expiresAt))))) cluster id := by
    refine ⟨⟨record.set (approval record.id reviewer t expiresAt), ?_, rfl⟩,
      hlive⟩
    show (w.db.accessRequests.put _).get id = _
    rw [get_put_request _ hstored, if_pos rfl]
  rw [finishApproval]
  rw [Prog.run_bind, run_db]
  by_cases hp : point = .commit
  · have hhit : ∀ writes, failing point f n (.db (.commit writes)) = some f :=
      fun writes => failing_hit (by rw [hp]; rfl)
    cases f with
    | refuse e =>
        rw [faulty_refuse handle (hhit _)]
        exact ⟨fun h => absurd h (not_allOrNothing hstored hs hlive),
          fun h => absurd ⟨hp, e, rfl⟩ h⟩
    | lose e =>
        rw [faulty_lose handle (hhit _), handle_commit_ok hcommit]
        refine ⟨?_, fun _ => Or.inl hgranted⟩
        rintro - ⟨-, e', he'⟩
        cases he'
  · have hmiss : ∀ writes, failing point f n (.db (.commit writes)) = none :=
      fun writes => failing_miss (fun h => hp (Option.some.inj h).symm)
    rw [faulty_none handle (hmiss _), handle_commit_ok hcommit]
    exact ⟨fun _ h => hp h.1, fun _ => Or.inl hgranted⟩

/-- The prefix of an approval does not see a fault at one of its writes. -/
theorem prepareApproval_failing {point : ApprovalCall} (f : Fault Exn)
    (hp : point = .createBinding ∨ point = .commit) (cluster : String)
    {r : AccessRequestRecord} {t expiresAt : Time}
    (h : Approvable w id reviewer r t expiresAt) :
    ∃ n w', (prepareApproval cluster id reviewer).run
        (faulty (failing point f) handle) (0, w)
          = (.ok (r, t, expiresAt), (n, w')) ∧
      (w'.clusters cluster).hasNamespace (jitBinding r expiresAt).ns
        = true := by
  obtain ⟨w', hrun, hns⟩ := prepareApproval_of_approvable cluster h
  have hplan : ∀ n op, Quiet op → failing point f n op = none := by
    intro n op hop
    refine failing_miss ?_
    intro hcall
    rcases hp with hp | hp <;> rw [hp] at hcall
    · cases op with
      | kube c op => cases op <;> simp_all [approvalCall, Quiet,
          KubeOp.writesBindings]
      | db op => cases op <;> exact nomatch hcall
      | _ => exact nomatch hcall
    · cases op with
      | kube c op => cases op <;> exact nomatch hcall
      | db op => cases op <;> simp_all [approvalCall, Quiet]
      | _ => exact nomatch hcall
  obtain ⟨n, hfault⟩ := (prepareApproval_uses cluster id reviewer).run_faulty
    hplan handle 0 w
  exact ⟨n, w', by rw [hfault, hrun], hns⟩

/-- The creation of the binding and what follows it, under a fault. -/
theorem approveRest_failing {point : ApprovalCall} {f : Fault Exn}
    {w₁ : World} {r : AccessRequestRecord} {t expiresAt : Time} {n : Nat}
    (h : Approvable w id reviewer r t expiresAt) (hcalm : Calm w w₁)
    (hw : Untouched w id)
    (hns : point = .createBinding ∨ point = .commit →
      (w₁.clusters cluster).hasNamespace (jitBinding r expiresAt).ns = true) :
    AllOrNothing ((Prog.run (faulty (failing point f) handle) (do
        let _ ← kube cluster (.createBinding (jitBinding r expiresAt))
        finishApproval reviewer r t expiresAt) (n, w₁)).2.2) cluster id
      ↔ ¬ BetweenWrites w id reviewer point f := by
  have hu : Untouched w₁ id := untouched_of_calm hcalm hw
  have hnothing : AllOrNothing w₁ cluster id :=
    Or.inr ⟨hu, recoverable_of_untouched hu⟩
  have hfree : (w₁.clusters cluster).bindings.get
      (jitBinding r expiresAt).key = none :=
    key_free _ h.id_eq (hu.unbound cluster)
  have hname : (jitBinding r expiresAt).name = jitBindingName id := by
    rw [jitBinding_name, h.id_eq]
  -- the world with the binding, in which the request is still pending
  generalize hw₂ : setBindings w₁ cluster
    ((w₁.clusters cluster).bindings.put (jitBinding r expiresAt)) = w₂
  have hlive : Live w₂ cluster id := by
    refine live_of_put w₁ (jitBinding r expiresAt) ?_ hname
    rw [← hw₂, setBindings_self]
  have hstored : w₂.db.accessRequests.get id = some r := by
    rw [← hw₂]
    show w₁.db.accessRequests.get id = some r
    rw [hcalm.db]
    exact h.stored
  have happ : ∃ r t expiresAt, Approvable w id reviewer r t expiresAt :=
    ⟨r, t, expiresAt, h⟩
  rw [Prog.run_bind, run_kube]
  by_cases hp : point = .createBinding
  · have hhit : failing point f n
        (.kube cluster (.createBinding (jitBinding r expiresAt))) = some f :=
      failing_hit (by rw [hp]; rfl)
    cases f with
    | refuse e =>
        rw [faulty_refuse handle hhit]
        refine ⟨fun _ hb => ?_, fun _ => hnothing⟩
        rcases hb.2 with ⟨-, e', he'⟩ | ⟨hc, -⟩
        · exact nomatch he'
        · rw [hp] at hc
          exact nomatch hc
    | lose e =>
        rw [faulty_lose handle hhit,
          handle_createBinding_free (hns (Or.inl hp)) hfree, hw₂]
        exact ⟨fun ha => absurd ha (not_allOrNothing hstored h.pending hlive),
          fun hb => absurd ⟨happ, Or.inl ⟨hp, e, rfl⟩⟩ hb⟩
  · have hmiss : failing point f n
        (.kube cluster (.createBinding (jitBinding r expiresAt))) = none :=
      failing_miss (fun hc => hp (Option.some.inj hc).symm)
    rw [faulty_none handle hmiss]
    rcases handle_createBinding_cases cluster (jitBinding r expiresAt) w₁ with
      hok | ⟨e, herr⟩
    · rw [hok, hw₂, Prog.andThen_ok, finishApproval_failing h.id_eq hstored
        h.pending hlive]
      refine not_congr ⟨fun hc => ⟨happ, Or.inr hc⟩, fun hb => ?_⟩
      exact hb.2.resolve_left (fun hc => hp hc.1)
    · rw [herr]
      refine ⟨fun _ hb => ?_, fun _ => hnothing⟩
      -- the prefix has not failed, so the namespace is there
      rcases hb.2 with ⟨hc, -⟩ | ⟨hc, -⟩
      · exact hp hc
      · rw [handle_createBinding_free (hns (Or.inr hc)) hfree] at herr
        exact nomatch congrArg Prod.fst herr

/-- An approval of a pending request without binding, one of whose calls
    fails, takes effect as a whole or not at all, and in the latter case the
    request can be denied or approved later: exactly when the failure is not
    one between the two writes. -/
theorem approval_allOrNothing_iff (w : World) (cluster id reviewer : String)
    (point : ApprovalCall) (f : Fault Exn) (hw : Untouched w id) :
    AllOrNothing (failedApproval point f cluster id reviewer w) cluster id
      ↔ ¬ BetweenWrites w id reviewer point f := by
  have hg := mostly_faulty (failing point f) handle
  have hcalm : Calm w ((prepareApproval cluster id reviewer).run
      (faulty (failing point f) handle) (0, w)).2.2 :=
    calm_run hg (prepareApproval_uses cluster id reviewer) (0, w)
  rw [failedApproval]
  rw [approveRequest_eq, Prog.run_bind]
  rcases hrun : (prepareApproval cluster id reviewer).run
    (faulty (failing point f) handle) (0, w) with ⟨res, n, w₁⟩
  rw [hrun] at hcalm
  cases res with
  | error e =>
      have hu : Untouched w₁ id := untouched_of_calm hcalm hw
      refine ⟨?_, fun _ => Or.inr ⟨hu, recoverable_of_untouched hu⟩⟩
      rintro - ⟨⟨r, t, expiresAt, h⟩, hp⟩
      obtain ⟨n', w', hok, -⟩ := prepareApproval_failing f
        (hp.imp And.left And.left) cluster h
      rw [hrun] at hok
      exact nomatch congrArg Prod.fst hok
  | ok p =>
      obtain ⟨r, t, expiresAt⟩ := p
      have happ : Approvable w id reviewer r t expiresAt :=
        prepareApproval_ok hg hrun
      refine approveRest_failing happ hcalm hw ?_
      intro hp
      obtain ⟨n', w', hok, hns⟩ := prepareApproval_failing f hp cluster happ
      rw [hrun] at hok
      have hww : w₁ = w' := congrArg (fun o => o.2.2) hok
      rw [hww]
      exact hns

/-- The world of a new installation in which `bob` has made a request. -/
def requested : World := jitStep (.createRequest bobsRequest) World.fresh

theorem requested_untouched : Untouched requested "0" := by
  refine ⟨⟨_, rfl, rfl⟩, ?_⟩
  rintro c ⟨b, hb, -⟩
  exact nomatch hb

/-- For such a request, and a creation of the binding that is refused. -/
theorem approval_allOrNothing_refused :
    AllOrNothing (failedApproval .createBinding (.refuse .connectionError)
      "local" "0" "carol" requested) "local" "0" := by
  refine (approval_allOrNothing_iff requested "local" "0" "carol"
    .createBinding (.refuse .connectionError) requested_untouched).mpr ?_
  rintro ⟨-, ⟨-, e, hlost⟩ | ⟨hcommit, -⟩⟩
  · cases hlost
  · cases hcommit

/-- When the answer to the creation of the binding is lost, the request stays
    pending and its binding stays on the cluster. -/
theorem approval_half_done :
    Untouched requested "0" ∧
    ¬ AllOrNothing (failedApproval .createBinding (.lose .connectionError)
      "local" "0" "carol" requested) "local" "0" := by
  refine ⟨requested_untouched, not_allOrNothing rfl rfl ?_⟩
  rw [Live]
  decide

end CvFault
