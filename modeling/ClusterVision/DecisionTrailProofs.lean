import ClusterVision.JitGrantProofs
import ClusterVision.AuditProofs

/-! # Who decided on a request

    The record of a request is to name the account that made the latest
    decision on it, and the time of that decision.  A revocation writes the
    time and not the account, and the audit log leaves these routes out; the
    main result says along which runs every decision stays attributable. -/

namespace CvTrail

open CvProg CvRun CvTable CvIso CvKube CvBackend CvRbac CvHttp CvAccess
open CvGrant CvAudit

/-! ## Decisions -/

/-- The request that a call decides on, and the account that decides. -/
def decides : JitCall → Option (String × String)
  | .approveRequest _ id reviewer => some (id, reviewer)
  | .denyRequest id reviewer => some (id, reviewer)
  | .revokeRequest _ id reviewer => some (id, reviewer)
  | _ => none

/-- The request that a call revokes, and the account that revokes it. -/
def revokes : JitCall → Option (String × String)
  | .revokeRequest _ id reviewer => some (id, reviewer)
  | _ => none

/-- Does the call return? -/
def returns (k : JitCall) (w : World) : Bool :=
  (k.prog.run handle w).1.isOk

/-- What a decision writes to the record of its request.  The time is the
    reading of the clock that the call takes. -/
inductive Written (w : World) (id : String) (record : AccessRequestRecord) :
    JitCall → AccessRequestUpdate → Prop where
  | approval {cluster reviewer : String} {expiresAt : Time}
      (pending : record.status = .pending) :
      Written w id record (.approveRequest cluster id reviewer)
        (approval id reviewer (w.clock w.tick) expiresAt)
  | denial {reviewer : String} (pending : record.status = .pending) :
      Written w id record (.denyRequest id reviewer)
        (denial reviewer (w.clock w.tick))
  | revocation {cluster reviewer : String}
      (active : record.status = .approved) :
      Written w id record (.revokeRequest cluster id reviewer)
        (revocation (w.clock w.tick))

/-- How a decision ends: it has updated the record of its request, or it has
    raised an exception and left the requests as they were. -/
def DecisionEnds (w : World) (id : String) (k : JitCall)
    (o : Except Exn AccessRequestRecord × World) : Prop :=
  (∃ record u, o.1 = .ok (record.set u) ∧
    w.db.accessRequests.get id = some record ∧ Written w id record k u ∧
    o.2.db.accessRequests = w.db.accessRequests.put (record.set u)) ∨
  ∃ e, o.1 = .error e ∧ o.2.db.accessRequests = w.db.accessRequests

/-- Denials. -/
theorem denyRequest_ends (id reviewer : String) (w : World) :
    DecisionEnds w id (.denyRequest id reviewer)
      ((denyRequest id reviewer).run handle w) := by
  rw [denyRequest, Prog.run_bind]
  rcases getOr404_run id true w with ⟨m, hget⟩ | ⟨record, hstored, hget⟩
  · rw [hget]
    exact Or.inr ⟨_, rfl, rfl⟩
  · rw [hget, Prog.andThen_ok]
    by_cases hp : record.status ≠ .pending
    · rw [if_pos hp]
      exact Or.inr ⟨_, rfl, rfl⟩
    · have hid : w.ticked.db.accessRequests.get record.id = some record := by
        rw [Table.key_of_get hstored]
        exact hstored
      rw [if_neg hp, Prog.run_bind, run_now, handle_now, Prog.andThen_ok,
        Prog.run_bind, run_db, handle_commit_ok (applyWrites_update hid)]
      exact Or.inl ⟨record, _, rfl, hstored, .denial (not_not.mp hp), rfl⟩

/-- Revocations. -/
theorem revokeRequest_ends (cluster id reviewer : String) (w : World) :
    DecisionEnds w id (.revokeRequest cluster id reviewer)
      ((revokeRequest cluster id reviewer).run handle w) := by
  rcases getOr404_run id true w with ⟨m, hget⟩ | ⟨record, hstored, hget⟩
  · rw [revokeRequest, Prog.run_bind, hget]
    exact Or.inr ⟨_, rfl, rfl⟩
  · by_cases ha : record.status ≠ .approved
    · rw [revokeRequest, Prog.run_bind, hget, Prog.andThen_ok, if_pos ha]
      exact Or.inr ⟨_, rfl, rfl⟩
    · cases hname : record.bindingName with
      | none =>
          rw [revokeRequest, Prog.run_bind, hget, Prog.andThen_ok, if_neg ha,
            Prog.run_bind, deleteGrant, hname]
          exact Or.inr ⟨_, rfl, rfl⟩
      | some name =>
          obtain ⟨w', hrun, hreq, -, -⟩ := revokeRequest_active cluster
            reviewer hstored (not_not.mp ha) hname
          rw [hrun]
          exact Or.inl ⟨record, _, rfl, hstored,
            .revocation (not_not.mp ha), hreq⟩

/-- Approvals. -/
theorem approveRequest_ends (cluster id reviewer : String) (w : World) :
    DecisionEnds w id (.approveRequest cluster id reviewer)
      ((approveRequest cluster id reviewer).run handle w) := by
  have hcalm : Calm w ((prepareApproval cluster id reviewer).run handle w).2 :=
    calm_run (mostly_refl handle) (prepareApproval_uses cluster id reviewer) w
  rw [approveRequest_eq, Prog.run_bind]
  cases hrun : (prepareApproval cluster id reviewer).run handle w with
  | mk res w₁ =>
      rw [hrun] at hcalm
      have hreq : w₁.db.accessRequests = w.db.accessRequests :=
        congrArg Database.accessRequests hcalm.db
      cases res with
      | error e => exact Or.inr ⟨e, rfl, hreq⟩
      | ok p =>
          obtain ⟨record, t, expiresAt⟩ := p
          have happ : Approvable w id reviewer record t expiresAt :=
            prepareApproval_ok (mostly_refl handle) hrun
          obtain ⟨w₂, hrun', hns⟩ := prepareApproval_of_approvable cluster happ
          rw [hrun] at hrun'
          have hw : w₁ = w₂ := congrArg Prod.snd hrun'
          rw [← hw] at hns
          rw [Prog.andThen_ok, Prog.run_bind, run_kube]
          cases hkey : (w₁.clusters cluster).bindings.get
              (jitBinding record expiresAt).key with
          | some b =>
              rw [handle_createBinding_taken hns hkey]
              exact Or.inr ⟨_, rfl, hreq⟩
          | none =>
              rw [handle_createBinding_free hns hkey]
              have hdb : (setBindings w₁ cluster
                  ((w₁.clusters cluster).bindings.put
                    (jitBinding record expiresAt))).db = w₁.db := rfl
              have hid : w₁.db.accessRequests.get record.id = some record := by
                rw [hreq, happ.id_eq]
                exact happ.stored
              rw [← hdb] at hid
              rw [Prog.andThen_ok, finishApproval_run hid]
              refine Or.inl ⟨record, _, rfl, happ.stored, ?_, ?_⟩
              · rw [happ.id_eq, happ.reading]
                exact .approval happ.pending
              · exact congrArg (fun t => Table.put t _) hreq

/-- Every decision ends in one of the two ways. -/
theorem decision_ends {k : JitCall} {id reviewer : String}
    (hk : decides k = some (id, reviewer)) (w : World) :
    (returns k w = true ∧ ∃ record u,
      w.db.accessRequests.get id = some record ∧ Written w id record k u ∧
      (jitStep k w).db.accessRequests
        = w.db.accessRequests.put (record.set u)) ∨
    returns k w = false ∧
      (jitStep k w).db.accessRequests = w.db.accessRequests := by
  have hends : ∀ {p : Svc AccessRequestRecord},
      DecisionEnds w id k (p.run handle w) → k.prog = p.void →
      (returns k w = true ∧ ∃ record u,
        w.db.accessRequests.get id = some record ∧ Written w id record k u ∧
        (jitStep k w).db.accessRequests
          = w.db.accessRequests.put (record.set u)) ∨
      returns k w = false ∧
        (jitStep k w).db.accessRequests = w.db.accessRequests := by
    intro p h hp
    rw [returns, jitStep, hp, Prog.run_void_fst, Prog.run_void_snd]
    rcases h with ⟨record, u, hok, hstored, hu, hreq⟩ | ⟨e, herr, hreq⟩
    · rw [hok]
      exact Or.inl ⟨rfl, record, u, hstored, hu, hreq⟩
    · rw [herr]
      exact Or.inr ⟨rfl, hreq⟩
  cases k with
  | approveRequest cluster id' reviewer' =>
      obtain ⟨rfl, rfl⟩ := Prod.mk.inj (Option.some.inj hk)
      exact hends (approveRequest_ends cluster id' reviewer' w) rfl
  | denyRequest id' reviewer' =>
      obtain ⟨rfl, rfl⟩ := Prod.mk.inj (Option.some.inj hk)
      exact hends (denyRequest_ends id' reviewer' w) rfl
  | revokeRequest cluster id' reviewer' =>
      obtain ⟨rfl, rfl⟩ := Prod.mk.inj (Option.some.inj hk)
      exact hends (revokeRequest_ends cluster id' reviewer' w) rfl
  | createRequest | setPolicy | deletePolicy | markExpired => cases hk

/-! ## Requests that nobody decides on -/

/-- The part of a record that says who has decided, and when; a revoked
    request stays revoked. -/
structure SameReview (r r' : AccessRequestRecord) : Prop where
  reviewedBy : r'.reviewedBy = r.reviewedBy
  reviewedAt : r'.reviewedAt = r.reviewedAt
  revoked : r.status = .revoked → r'.status = .revoked

/-- A call that decides on no request leaves every review as it is. -/
theorem sameReview_of_undecided {k : JitCall} (hk : decides k = none)
    {w : World} {id : String} {r : AccessRequestRecord}
    (hget : w.db.accessRequests.get id = some r) :
    ∃ r', (jitStep k w).db.accessRequests.get id = some r' ∧
      SameReview r r' := by
  have hrow := jitCall_rowEffect k w id
  generalize (jitStep k w).db.accessRequests.get id = row at hrow ⊢
  cases hrow with
  | same => exact ⟨r, hget, rfl, rfl, fun h => h⟩
  | requested free inNamespace =>
      rw [hget] at free
      exact nomatch free
  | approved | denied | revoked => exact nomatch hk
  | expired stored active late =>
      obtain rfl := Option.some.inj (hget.symm.trans stored)
      refine ⟨_, rfl, rfl, rfl, ?_⟩
      intro h
      rw [active] at h
      exact nomatch h

/-- Approved requests name their binding. -/
def Named (w : World) : Prop :=
  ∀ id r, w.db.accessRequests.get id = some r → r.status = .approved →
    r.bindingName ≠ none

theorem named_step {w : World} (hw : Named w) (k : JitCall) :
    Named (jitStep k w) := by
  intro id r hget hs
  have hrow := jitCall_rowEffect k w id
  rw [hget] at hrow
  generalize hout : some r = row at hrow
  cases hrow with
  | same => exact hw id r hout.symm hs
  | requested free inNamespace =>
      obtain rfl := Option.some.inj hout
      exact nomatch hs
  | approved approvable =>
      obtain rfl := Option.some.inj hout
      exact nofun
  | denied stored pending | revoked stored active
  | expired stored active late =>
      obtain rfl := Option.some.inj hout
      exact nomatch hs

/-! ## The trail -/

/-- A decision on a request. -/
structure Decision where
  account : String
  time : Time

/-- The world and the audit log, and beside them the latest decision on each
    request and the account that has revoked it. -/
structure Trail where
  world : World
  log : List AuditLogEntry
  latest : String → Option Decision
  revokedBy : String → Option String

/-- The method and the path of a call; the expiry job has none. -/
def route : JitCall → Option (String × String)
  | .createRequest _ => some ("POST", "/api/v1/access-requests")
  | .setPolicy kind name _ _ =>
      some ("PUT", "/api/v1/access-requests/policies/" ++ kind.text ++ "/"
        ++ name)
  | .deletePolicy kind name =>
      some ("DELETE", "/api/v1/access-requests/policies/" ++ kind.text ++ "/"
        ++ name)
  | .approveRequest _ id _ =>
      some ("POST", "/api/v1/access-requests/" ++ id ++ "/approve")
  | .denyRequest id _ =>
      some ("POST", "/api/v1/access-requests/" ++ id ++ "/deny")
  | .revokeRequest _ id _ =>
      some ("POST", "/api/v1/access-requests/" ++ id ++ "/revoke")
  | .markExpired => none

/-- The success status of a call. -/
def successStatus : JitCall → Nat
  | .createRequest _ => 201
  | .deletePolicy _ _ => 204
  | _ => 200

/-- The `except` clauses of the router. -/
def routerError : Exn → Exn
  | .accessRequestNotFoundError m =>
      .httpException 404 (Exn.accessRequestNotFoundError m).text
  | .accessRequestError m =>
      .httpException 400 (Exn.accessRequestError m).text
  | e => e

/-- How the route of a call ends. -/
def ending (k : JitCall) (w : World) : Except Exn Nat :=
  ((k.prog.run handle w).1.map (fun _ => successStatus k)).mapError
    routerError

/-- A call, with the rest of its request. -/
structure Action where
  call : JitCall
  authorization : Option String
  body : List UInt8
  stamp : Stamp

/-- The audit log after an action. -/
def logAfter (env : AuditEnv) (a : Action) (w : World)
    (log : List AuditLogEntry) : List AuditLogEntry :=
  match route a.call with
  | none => log
  | some (method, path) =>
      (dispatch env ⟨method, path, none, a.authorization, a.body⟩
        (ending a.call w) a.stamp log).2

/-- A note for one request, if there is one to be made. -/
def noted {α : Type} (notes : String → Option α) :
    Option (String × α) → String → Option α
  | none => notes
  | some (id, a) => Function.update notes id (some a)

/-- The decision that a call makes when it returns, with its request. -/
def decision (k : JitCall) (w : World) : Option (String × Decision) :=
  if returns k w = true then
    (decides k).map (fun d => (d.1, ⟨d.2, w.clock w.tick⟩))
  else none

/-- The revocation that a call makes when it returns, with its account. -/
def revoker (k : JitCall) (w : World) : Option (String × String) :=
  if returns k w = true then revokes k else none

/-- The trail after an action. -/
def trailStep (env : AuditEnv) (a : Action) (s : Trail) : Trail where
  world := jitStep a.call s.world
  log := logAfter env a s.world s.log
  latest := noted s.latest (decision a.call s.world)
  revokedBy := noted s.revokedBy (revoker a.call s.world)

/-- Nobody has decided on anything. -/
def Trail.start (w : World) : Trail := ⟨w, [], fun _ => none, fun _ => none⟩

/-- The record of every request names the account and the time of the latest
    decision on it, and the account that has revoked it can be read from the
    record or from the audit log. -/
structure Attributable (s : Trail) : Prop where
  decisions : ∀ id d, s.latest id = some d →
    ∃ r, s.world.db.accessRequests.get id = some r ∧
      r.reviewedBy = some d.account ∧ r.reviewedAt = some d.time
  revocations : ∀ id account, s.revokedBy id = some account →
    (∃ r, s.world.db.accessRequests.get id = some r ∧
      r.reviewedBy = some account) ∨
    ∃ e ∈ s.log, e.actor = some account ∧
      e.path = "/api/v1/access-requests/" ++ id ++ "/revoke"

/-- A revocation of an active grant is made by the account that the record
    names already, which is the one that approved it. -/
def ByApprover (s : Trail) (a : Action) : Prop :=
  ∀ cluster id reviewer, a.call = .revokeRequest cluster id reviewer →
    ∀ r, s.world.db.accessRequests.get id = some r → r.status = .approved →
      r.reviewedBy = some reviewer

/-- What holds of every trail that is attributable so far. -/
structure Kept (s : Trail) : Prop where
  attributable : Attributable s
  named : Named s.world
  revoked : ∀ id account, s.revokedBy id = some account →
    ∃ r, s.world.db.accessRequests.get id = some r ∧ r.status = .revoked

theorem noted_self {α : Type} (notes : String → Option α) (id : String)
    (a : α) : noted notes (some (id, a)) id = some a :=
  Function.update_self ..

theorem noted_ne {α : Type} (notes : String → Option α) {id id' : String}
    (a : α) (h : id' ≠ id) : noted notes (some (id, a)) id' = notes id' :=
  Function.update_of_ne h ..

/-- Entries stay in the log. -/
theorem mem_logAfter {env : AuditEnv} {a : Action} {w : World}
    {log : List AuditLogEntry} {e : AuditLogEntry} (h : e ∈ log) :
    e ∈ logAfter env a w log := by
  rw [logAfter]
  cases route a.call with
  | none => exact h
  | some r =>
      obtain ⟨method, path⟩ := r
      show e ∈ (dispatch env ⟨method, path, none, a.authorization, a.body⟩
        (ending a.call w) a.stamp log).2
      rcases dispatch_log env ⟨method, path, none, a.authorization, a.body⟩
        (ending a.call w) a.stamp log with
        ⟨_, _, -, -, -, -, -, hlog⟩ | ⟨-, hlog⟩
      · rw [hlog]
        exact List.mem_append_left _ h
      · rw [hlog]
        exact h

/-- An action that makes no decision, and leaves every review as it is. -/
theorem kept_of_sameReview {env : AuditEnv} {s : Trail} {a : Action}
    (hs : Kept s) (hd : decision a.call s.world = none)
    (hr : revoker a.call s.world = none)
    (hsame : ∀ id r, s.world.db.accessRequests.get id = some r →
      ∃ r', (jitStep a.call s.world).db.accessRequests.get id = some r' ∧
        SameReview r r') : Kept (trailStep env a s) := by
  have hlatest : (trailStep env a s).latest = s.latest := by
    show noted s.latest (decision a.call s.world) = _
    rw [hd]
    rfl
  have hrevoked : (trailStep env a s).revokedBy = s.revokedBy := by
    show noted s.revokedBy (revoker a.call s.world) = _
    rw [hr]
    rfl
  refine ⟨⟨?_, ?_⟩, named_step hs.named a.call, ?_⟩
  · intro id d hid
    rw [hlatest] at hid
    obtain ⟨r, hget, hby, hat⟩ := hs.attributable.decisions id d hid
    obtain ⟨r', hget', hkeep⟩ := hsame id r hget
    exact ⟨r', hget', hkeep.reviewedBy.trans hby, hkeep.reviewedAt.trans hat⟩
  · intro id account hid
    rw [hrevoked] at hid
    rcases hs.attributable.revocations id account hid with
      ⟨r, hget, hby⟩ | ⟨e, he, hactor⟩
    · obtain ⟨r', hget', hkeep⟩ := hsame id r hget
      exact Or.inl ⟨r', hget', hkeep.reviewedBy.trans hby⟩
    · exact Or.inr ⟨e, mem_logAfter he, hactor⟩
  · intro id account hid
    rw [hrevoked] at hid
    obtain ⟨r, hget, hst⟩ := hs.revoked id account hid
    obtain ⟨r', hget', hkeep⟩ := hsame id r hget
    exact ⟨r', hget', hkeep.revoked hst⟩

/-- A record after a decision by the account that the revocation, if it is
    one, finds in it. -/
theorem review_of_written {w : World} {id reviewer : String}
    {record : AccessRequestRecord} {k : JitCall} {u : AccessRequestUpdate}
    (hk : decides k = some (id, reviewer)) (hu : Written w id record k u)
    (hby : ∀ cluster, k = .revokeRequest cluster id reviewer →
      record.reviewedBy = some reviewer) :
    (record.set u).reviewedBy = some reviewer ∧
      (record.set u).reviewedAt = some (w.clock w.tick) := by
  cases hu with
  | approval pending | denial pending =>
      obtain ⟨-, rfl⟩ := Prod.mk.inj (Option.some.inj hk)
      exact ⟨rfl, rfl⟩
  | @revocation cluster _ active =>
      -- a revocation leaves the approver as the reviewer
      obtain ⟨-, rfl⟩ := Prod.mk.inj (Option.some.inj hk)
      exact ⟨hby cluster rfl, rfl⟩

/-- What a decision notes of revocations: it is a revocation itself, and the
    record says so, or it is about a request that nobody has revoked. -/
theorem revokedBy_of_written {env : AuditEnv} {s : Trail} {a : Action}
    {id reviewer : String} {record : AccessRequestRecord}
    {u : AccessRequestUpdate} (hs : Kept s)
    (hk : decides a.call = some (id, reviewer))
    (hstored : s.world.db.accessRequests.get id = some record)
    (hu : Written s.world id record a.call u) {id' account : String}
    (h : (trailStep env a s).revokedBy id' = some account) :
    (id' = id ∧ account = reviewer ∧ (record.set u).status = .revoked) ∨
      (id' ≠ id ∧ s.revokedBy id' = some account) := by
  have hold : s.revokedBy id' = some account → record.status ≠ .revoked →
      id' ≠ id := by
    rintro hrev hne rfl
    obtain ⟨r, hget, hst⟩ := hs.revoked id' account hrev
    obtain rfl := Option.some.inj (hget.symm.trans hstored)
    exact hne hst
  have hnoted : noted s.revokedBy (revoker a.call s.world) id'
      = some account := h
  generalize hc : a.call = k at hk hu hnoted
  cases hu with
  | approval pending | denial pending =>
      have hrev : s.revokedBy id' = some account := by
        simpa only [revoker, revokes, ite_self, noted] using hnoted
      exact Or.inr ⟨hold hrev (by rw [pending]; exact nofun), hrev⟩
  | @revocation cluster reviewer' active =>
      obtain ⟨-, rfl⟩ := Prod.mk.inj (Option.some.inj hk)
      by_cases hret : returns (.revokeRequest cluster id reviewer') s.world
          = true
      · rw [revoker, if_pos hret] at hnoted
        by_cases hid : id' = id
        · rw [hid] at hnoted
          have hacc := (noted_self s.revokedBy id reviewer').symm.trans hnoted
          exact Or.inl ⟨hid, (Option.some.inj hacc).symm, rfl⟩
        · have hne := (noted_ne s.revokedBy reviewer' hid).symm.trans hnoted
          exact Or.inr ⟨hid, hne⟩
      · rw [revoker, if_neg hret] at hnoted
        exact Or.inr ⟨hold hnoted (by rw [active]; exact nofun), hnoted⟩

/-- A decision that is written keeps the trail attributable, when the account
    it is made by is the one that the record then names. -/
theorem kept_written {env : AuditEnv} {s : Trail} {a : Action}
    {id reviewer : String} {record : AccessRequestRecord}
    {u : AccessRequestUpdate} (hs : Kept s)
    (hk : decides a.call = some (id, reviewer))
    (hret : returns a.call s.world = true)
    (hstored : s.world.db.accessRequests.get id = some record)
    (hu : Written s.world id record a.call u)
    (hreq : (jitStep a.call s.world).db.accessRequests
      = s.world.db.accessRequests.put (record.set u))
    (hby : (record.set u).reviewedBy = some reviewer)
    (hat : (record.set u).reviewedAt
      = some (s.world.clock s.world.tick)) : Kept (trailStep env a s) := by
  have hput : ∀ id', (trailStep env a s).world.db.accessRequests.get id'
      = if id' = id then some (record.set u)
        else s.world.db.accessRequests.get id' := by
    intro id'
    show (jitStep a.call s.world).db.accessRequests.get id' = _
    rw [hreq, get_put_request _ hstored]
  have hlatest : (trailStep env a s).latest = noted s.latest
      (some (id, ⟨reviewer, s.world.clock s.world.tick⟩)) := by
    show noted s.latest (decision a.call s.world) = _
    rw [decision, if_pos hret, hk]
    rfl
  refine ⟨⟨?_, ?_⟩, named_step hs.named a.call, ?_⟩
  · intro id' d hd
    rw [hput]
    rw [hlatest] at hd
    by_cases hid : id' = id
    · rw [hid, noted_self] at hd
      rw [if_pos hid, ← Option.some.inj hd]
      exact ⟨_, rfl, hby, hat⟩
    · rw [noted_ne _ _ hid] at hd
      rw [if_neg hid]
      exact hs.attributable.decisions id' d hd
  · intro id' account hid'
    rw [hput]
    rcases revokedBy_of_written hs hk hstored hu hid' with
      ⟨hid, haccount, -⟩ | ⟨hid, hrev⟩
    · rw [if_pos hid, haccount]
      exact Or.inl ⟨_, rfl, hby⟩
    · rw [if_neg hid]
      refine (hs.attributable.revocations id' account hrev).imp_right ?_
      rintro ⟨e, he, hactor⟩
      exact ⟨e, mem_logAfter he, hactor⟩
  · intro id' account hid'
    rw [hput]
    rcases revokedBy_of_written hs hk hstored hu hid' with
      ⟨hid, -, hst⟩ | ⟨hid, hrev⟩
    · rw [if_pos hid]
      exact ⟨_, rfl, hst⟩
    · rw [if_neg hid]
      exact hs.revoked id' account hrev

/-- An action in which revocations are made by the approver keeps the trail
    attributable. -/
theorem kept_step {env : AuditEnv} {s : Trail} {a : Action} (hs : Kept s)
    (ha : ByApprover s a) : Kept (trailStep env a s) := by
  have hnone : returns a.call s.world = false →
      decision a.call s.world = none ∧ revoker a.call s.world = none := by
    intro hret
    rw [decision, revoker, hret]
    exact ⟨rfl, rfl⟩
  cases hk : decides a.call with
  | none =>
      have hr : revokes a.call = none := by
        cases hc : a.call with
        | approveRequest | denyRequest | revokeRequest =>
            rw [hc] at hk
            exact nomatch hk
        | createRequest | setPolicy | deletePolicy | markExpired => rfl
      refine kept_of_sameReview hs ?_ ?_
        (fun id r hget => sameReview_of_undecided hk hget)
      · rw [decision, hk]
        exact ite_self none
      · rw [revoker, hr]
        exact ite_self none
  | some d =>
      obtain ⟨id, reviewer⟩ := d
      rcases decision_ends hk s.world with
        ⟨hret, record, u, hstored, hu, hreq⟩ | ⟨hret, hreq⟩
      · obtain ⟨hby, hat⟩ := review_of_written hk hu
          (fun cluster hc => by
            rw [hc] at hu
            cases hu with
            | revocation active =>
                exact ha cluster id reviewer hc record hstored active)
        exact kept_written hs hk hret hstored hu hreq hby hat
      -- a decision that fails writes nothing
      · refine kept_of_sameReview hs (hnone hret).1 (hnone hret).2 ?_
        intro id' r hget
        rw [hreq]
        exact ⟨r, hget, rfl, rfl, fun h => h⟩

/-- An action after which the trail is attributable, is no revocation by
    another account than the approver. -/
theorem byApprover_of_attributable {env : AuditEnv} {s : Trail} {a : Action}
    (hs : Kept s) (ha : Attributable (trailStep env a s)) :
    ByApprover s a := by
  intro cluster id reviewer hc r hget hactive
  obtain ⟨name, hname⟩ := Option.ne_none_iff_exists'.mp
    (hs.named id r hget hactive)
  obtain ⟨w', hrun, hreq, -, -⟩ :=
    revokeRequest_active cluster reviewer hget hactive hname
  have hret : returns a.call s.world = true := by
    rw [returns, hc]
    show ((revokeRequest cluster id reviewer).void.run handle s.world).1.isOk
      = true
    rw [Prog.run_void_fst, hrun]
    rfl
  have hlatest : (trailStep env a s).latest id
      = some ⟨reviewer, s.world.clock s.world.tick⟩ := by
    show noted s.latest (decision a.call s.world) id = _
    rw [decision, if_pos hret, hc]
    exact noted_self ..
  have hworld : (trailStep env a s).world.db.accessRequests.get id
      = some (r.set (revocation (s.world.clock s.world.tick))) := by
    show (jitStep a.call s.world).db.accessRequests.get id = _
    have hstep : jitStep a.call s.world = w' := by
      rw [hc]
      exact (Prog.run_void_snd handle _ _).trans (congrArg Prod.snd hrun)
    rw [hstep, hreq, get_put_request _ hget, if_pos rfl]
  obtain ⟨r', hget', hby, -⟩ := ha.decisions id _ hlatest
  rw [hworld] at hget'
  rw [← Option.some.inj hget'] at hby
  exact hby

/-- Along every run that starts without requests: the trail is attributable
    after each of its actions exactly when every revocation of an active grant
    is made by the account that approved it. -/
theorem attributable_iff (env : AuditEnv) (w : World)
    (hreq : w.db.accessRequests = Table.empty) (actions : List Action) :
    Along (trailStep env) (fun s a => Attributable (trailStep env a s))
        actions (Trail.start w)
      ↔ Along (trailStep env) ByApprover actions (Trail.start w) := by
  have hinit : Kept (Trail.start w) := by
    refine ⟨⟨?_, ?_⟩, ?_, ?_⟩
    · intro id d h
      exact nomatch h
    · intro id account h
      exact nomatch h
    · intro id r hget
      have hnone : w.db.accessRequests.get id = some r := hget
      rw [hreq, Table.get_empty] at hnone
      exact nomatch hnone
    · intro id account h
      exact nomatch h
  refine along_congr ?_ ?_ hinit actions
  · intro s a hs ha
    exact kept_step hs (byApprover_of_attributable hs ha)
  · intro s a hs
    exact ⟨byApprover_of_attributable hs,
      fun ha => (kept_step hs ha).attributable⟩

/-- An action whose request has no token. -/
def plain (call : JitCall) : Action := ⟨call, none, [], ⟨"0", Time.epoch⟩⟩

/-- A new installation has no requests: a grant that its approver revokes. -/
theorem attributable_fresh :
    Along (trailStep sampleEnv)
      (fun s a => Attributable (trailStep sampleEnv a s))
      [plain (.createRequest bobsRequest),
        plain (.approveRequest "local" "0" "carol"),
        plain (.revokeRequest "local" "0" "carol")]
      (Trail.start World.fresh) := by
  refine (attributable_iff sampleEnv World.fresh rfl _).mpr
    ⟨?_, ?_, ?_, trivial⟩
  · exact fun _ _ _ h => by cases h
  · exact fun _ _ _ h => by cases h
  · rintro _ _ _ ⟨⟩ r hr -
    obtain rfl := Option.some.inj hr
    rfl

/-- A grant that one account approves and another one revokes: neither the
    record nor the audit log names the account that has revoked it. -/
theorem revoker_unknown :
    ¬ Attributable (after (trailStep sampleEnv)
      [plain (.createRequest bobsRequest),
        plain (.approveRequest "local" "0" "carol"),
        plain (.revokeRequest "local" "0" "dave")]
      (Trail.start World.fresh)) := by
  intro h
  rcases h.revocations "0" "dave" rfl with ⟨r, hget, hby⟩ | ⟨e, he, -⟩
  · have hr := congrArg (fun o => o.bind AccessRequestRecord.reviewedBy) hget
    have hcarol : some "carol" = r.reviewedBy := hr
    rw [hby] at hcarol
    exact absurd hcarol (by decide)
  · exact nomatch he

end CvTrail
