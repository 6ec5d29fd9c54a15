import ClusterVision.AccessRequestProofs
import ClusterVision.PoolProofs

/-! # The status of a request under concurrent transactions

    Approvals, denials, revocations and `mark_expired` runs on one request, any
    number of them and in any order of their calls.  A read with a row lock
    waits until no other transaction holds the row; so does an `UPDATE`.  A
    commit or the end of a session gives the locks back.  Plain reads see what
    is committed.

    The three calls that lock the row decide on the status that they
    overwrite.  `mark_expired` does not: its `UPDATE` waits for a revocation
    that holds the row, and then overwrites what it committed. -/

namespace CvHistory

open CvProg CvTable CvIso CvKube CvBackend CvRbac CvAccess CvPool

/-! ## The shared database -/

/-- The world, and the transaction that holds the lock of each row. -/
structure Store (ι : Type) where
  world : World
  locks : String → Option ι

variable {ι : Type} [DecidableEq ι]

/-- The committed status of a request. -/
def Store.status (id : String) (s : Store ι) : Option RequestStatus :=
  (s.world.db.accessRequests.get id).map AccessRequestRecord.status

/-- The requests that a call locks or updates, stored or not. -/
def mentioned : Op → List String
  | .db (.getAccessRequest id lock) => if lock = true then [id] else []
  | .db (.commit writes) => writes.filterMap fun
      | .updateAccessRequest id _ => some id
      | _ => none
  | _ => []

/-- The rows whose lock a call takes. -/
def rowsLocked (op : Op) (w : World) : List String :=
  (mentioned op).filter (fun id => (w.db.accessRequests.get id).isSome)

/-- Does a call end the transaction of its session? -/
def endsTransaction : Op → Bool
  | .db (.commit _) => true
  | .db .close => true
  | _ => false

/-- May the transaction `t` take the lock of a row? -/
def Store.Free (s : Store ι) (t : ι) (id : String) : Prop :=
  s.locks id = none ∨ s.locks id = some t

instance (s : Store ι) (t : ι) (id : String) : Decidable (s.Free t id) :=
  inferInstanceAs (Decidable (_ ∨ _))

/-- The locks after a call of `t`. -/
def Store.locksAfter (s : Store ι) (t : ι) (op : Op) (id : String) :
    Option ι :=
  if endsTransaction op = true then
    if s.locks id = some t then none else s.locks id
  else if id ∈ rowsLocked op s.world then some t
  else s.locks id

/-- The store after a call of `t` that did not have to wait. -/
def Store.next (s : Store ι) (t : ι) (op : Op) : Store ι :=
  ⟨(handle op s.world).2, s.locksAfter t op⟩

/-- A call of `t`: it waits while another transaction holds a row that it
    locks or updates. -/
def exec (t : ι) (op : Op) (s : Store ι) :
    Option (Except Exn op.Res × Store ι) :=
  if ∀ id ∈ rowsLocked op s.world, s.Free t id then
    some ((handle op s.world).1, s.next t op)
  else none

/-- Any call can also fail, before it takes effect or after. -/
def answers : Answers backend Exn (Store ι) ι := fun t op s r s' =>
  (∀ id ∈ rowsLocked op s.world, s.Free t id) ∧
    ((r = (handle op s.world).1 ∧ s' = s.next t op) ∨
      ∃ e, r = .error e ∧ (s' = s ∨ s' = s.next t op))

theorem answers_of_exec (t : ι) (op : Op) (s : Store ι)
    (r : Except Exn op.Res) (s' : Store ι) (h : exec t op s = some (r, s')) :
    answers t op s r s' := by
  rw [exec] at h
  split at h
  · rename_i hfree
    obtain ⟨rfl, rfl⟩ := Prod.mk.inj (Option.some.inj h)
    exact ⟨hfree, Or.inl ⟨rfl, rfl⟩⟩
  · exact nomatch h

/-! ## The transactions -/

/-- The calls that write the status of a request. -/
inductive Transaction where
  | approveRequest (cluster reviewer : String)
  | denyRequest (reviewer : String)
  | revokeRequest (cluster reviewer : String)
  | markExpired

/-- A transaction on the request `id`, in a session of its own. -/
def Transaction.prog (id : String) : Transaction → Svc Unit
  | .approveRequest cluster reviewer =>
      inSession (CvAccess.approveRequest cluster id reviewer).void
  | .denyRequest reviewer => inSession (CvAccess.denyRequest id reviewer).void
  | .revokeRequest cluster reviewer =>
      inSession (CvAccess.revokeRequest cluster id reviewer).void
  | .markExpired => inSession CvAccess.markExpired

/-- All transactions are about to start, and no row is locked. -/
def starting (id : String) (transactions : ι → Transaction) (w : World) :
    Pool backend Exn Unit (Store ι) ι :=
  ⟨fun t => (transactions t).prog id, ⟨w, fun _ => none⟩⟩

/-- The status changes that the service is for. -/
inductive StatusStep : RequestStatus → RequestStatus → Prop where
  | approve : StatusStep .pending .approved
  | deny : StatusStep .pending .denied
  | revoke : StatusStep .approved .revoked
  | expire : StatusStep .approved .expired

/-- Two committed statuses, one after the other: nothing changed, or a legal
    change. -/
def Legal (a b : Option RequestStatus) : Prop :=
  a = b ∨ ∃ x y, a = some x ∧ b = some y ∧ StatusStep x y

/-- The committed statuses of a request along a run. -/
def statusHistory (id : String) (tr : List (Entry backend Exn (Store ι) ι))
    (p : Pool backend Exn Unit (Store ι) ι) : List (Option RequestStatus) :=
  history (Store.status id) tr p

/-- Is this a call that creates a binding? -/
def creates : Op → Bool
  | .kube _ (.createBinding _) => true
  | _ => false

/-- Has a transaction returned? -/
def returned (p : Pool backend Exn Unit (Store ι) ι) (t : ι) : Bool :=
  match p.threads t with
  | .ret _ => true
  | _ => false

/-- The create-binding calls of the transactions that have returned. -/
def successfulCreates (tr : List (Entry backend Exn (Store ι) ι))
    (p : Pool backend Exn Unit (Store ι) ι) : Nat :=
  tr.countP (fun e => creates e.event.op && returned p e.thread)

/-- A step that is not an `UPDATE` by `mark_expired` of a request that has been
    revoked since the `SELECT`. -/
def OnTime (id : String) (e : Entry backend Exn (Store ι) ι) : Prop :=
  match e.event.op with
  | .db (.commit writes) =>
      .updateAccessRequest id expiry ∈ writes →
        e.before.status id ≠ some .revoked
  | _ => True

instance (id : String) (e : Entry backend Exn (Store ι) ι) :
    Decidable (OnTime id e) := by
  rw [OnTime]
  split <;> infer_instance

/-! ## The protocol that the transactions follow -/

/-- Where a transaction is.  The id is that of the record that it has read. -/
inductive Phase where
  | fresh
  | pending (id : String)
  | requested (id : String)
  | active (id : String)
  | selected (rows : List AccessRequestRecord)
  | granted
  | settled
  | failed

/-- The phase after a locking read. -/
def found (r : AccessRequestRecord) : Phase :=
  match r.status with
  | .pending => .pending r.id
  | .approved => .active r.id
  | _ => .settled

/-- The phase after a binding is asked for. -/
def Phase.requesting : Phase → Phase
  | .pending id => .requested id
  | l => l

/-- The phase after a commit. -/
def Phase.committed (ok : Bool) : Phase → Phase
  | .requested _ => if ok = true then .granted else .failed
  | _ => .settled

/-- The phase after the end of the session. -/
def Phase.closed : Phase → Phase
  | .granted => .granted
  | .requested _ => .failed
  | .failed => .failed
  | _ => .settled

/-- The phase after an answered call. -/
def nextPhase (l : Phase) : (op : Op) → Except Exn op.Res → Phase
  | .db .close, _ => l.closed
  | .db (.getAccessRequest _ _), .ok (some r) => found r
  | .db (.getAccessRequest _ _), _ => .settled
  | .db (.selectApprovedExpired _), .ok rows => .selected rows
  | .db (.selectApprovedExpired _), .error _ => .settled
  | .db (.commit _), .ok _ => l.committed true
  | .db (.commit _), .error _ => l.committed false
  | .kube _ (.createBinding _), _ => l.requesting
  | _, _ => l

/-- Calls that take no lock, commit nothing and write no binding. -/
def Local : Op → Prop
  | .kube _ op => op.writesBindings = false
  | .db (.getPolicy _ _) => True
  | .now => True
  | _ => False

/-- The calls that a transaction on the request `id` makes in a phase. -/
inductive Allowed (id : String) : Phase → Op → Prop where
  | here {l : Phase} {op : Op} (h : Local op) : Allowed id l op
  | close {l : Phase} : Allowed id l (.db .close)
  | read : Allowed id .fresh (.db (.getAccessRequest id true))
  | select {t : Time} : Allowed id .fresh (.db (.selectApprovedExpired t))
  | create {rid c : String} {b : Binding} :
      Allowed id (.pending rid) (.kube c (.createBinding b))
  | remove {rid c : String} {ns : Option String} {name : String} :
      Allowed id (.active rid) (.kube c (.deleteBinding ns name))
  | approve {rid : String} {u : AccessRequestUpdate}
      (h : u.status = some .approved) :
      Allowed id (.requested rid) (.db (.commit [.updateAccessRequest rid u]))
  | deny {rid : String} {u : AccessRequestUpdate}
      (h : u.status = some .denied) :
      Allowed id (.pending rid) (.db (.commit [.updateAccessRequest rid u]))
  | revoke {rid : String} {u : AccessRequestUpdate}
      (h : u.status = some .revoked) :
      Allowed id (.active rid) (.db (.commit [.updateAccessRequest rid u]))
  | expire {rows : List AccessRequestRecord} :
      Allowed id (.selected rows)
        (.db (.commit (rows.map (fun r => .updateAccessRequest r.id expiry))))

/-- The protocol of the transactions on the request `id`. -/
def requestProtocol (id : String) : Protocol backend Exn Phase :=
  ⟨Allowed id, nextPhase⟩

/-- A transaction that returns has been granted its binding, or has asked for
    none. -/
def Finished {α : Type} (l : Phase) (r : Except Exn α) : Prop :=
  match r with
  | .ok _ => l = .granted ∨ l = .settled
  | .error _ => True

/-! ## The transactions follow it -/

section Programs

variable {id : String} {α β : Type}

theorem nextPhase_of_local {op : Op} (h : Local op) (l : Phase)
    (r : Except Exn op.Res) : nextPhase l op r = l := by
  cases op with
  | kube c op =>
      cases op with
      | createBinding b => exact nomatch h
      | _ => rfl
  | db op =>
      cases op with
      | getPolicy kind name => rfl
      | _ => exact h.elim
  | now => rfl
  | _ => exact h.elim

/-- A part of a transaction that makes local calls only. -/
theorem follows_local {p : Svc α} {l : Phase}
    {Q : Phase → Except Exn α → Prop} (hp : p.Uses Local) (hq : ∀ r, Q l r) :
    Follows (requestProtocol id) p l Q :=
  follows_of_uses (hp.imp (fun _ hop =>
    ⟨.here hop, nextPhase_of_local hop l⟩)) hq

/-- What is checked when the session is closed. -/
abbrev Closing (id : String) : Phase → Except Exn α → Prop :=
  AfterAll (requestProtocol id) (db .close) Finished

theorem closing_error (l : Phase) (e : Exn) :
    Closing id l (.error e : Except Exn α) := by
  refine follows_perform .close ?_
  intro r
  cases r with
  | ok u => exact trivial
  | error e' => exact trivial

theorem closing_ok {l : Phase} {a : α} (h : l = .granted ∨ l = .settled) :
    Closing id l (.ok a) := by
  refine follows_perform .close ?_
  intro r
  cases r with
  | ok u =>
      rcases h with rfl | rfl
      · exact Or.inl rfl
      · exact Or.inr rfl
  | error e => exact trivial

/-- A part of local calls, and what follows it in the session. -/
theorem closing_bind {p : Svc α} {f : α → Svc β} {l : Phase}
    (hp : p.Uses Local)
    (hf : ∀ a, Follows (requestProtocol id) (f a) l (Closing id)) :
    Follows (requestProtocol id) (p >>= f) l (Closing id) := by
  refine follows_bind (follows_local hp ?_)
  intro r
  cases r with
  | ok a => exact hf a
  | error e => exact closing_error l e

/-- The locking read, and what follows it in the session. -/
theorem closing_getOr404 {f : AccessRequestRecord → Svc β}
    (hf : ∀ r, Follows (requestProtocol id) (f r) (found r) (Closing id)) :
    Follows (requestProtocol id) (getOr404 id true >>= f) .fresh
      (Closing id) := by
  rw [getOr404]
  refine follows_bind (follows_bind (follows_perform .read ?_))
  intro r
  cases r with
  | error e => exact closing_error _ e
  | ok o =>
      cases o with
      | none => exact closing_error _ _
      | some r => exact hf r

theorem checkPolicy_local (kind : RoleKind) (name : String) (ttl : Int) :
    (checkPolicy kind name ttl).Uses Local :=
  Prog.uses_bind (Prog.uses_perform trivial) (fun _ =>
    Prog.uses_ite trivial (Prog.uses_ite trivial trivial))

theorem now_local : now.Uses Local := Prog.uses_perform trivial

theorem plusMinutes_local (t : Time) (n : Int) :
    (plusMinutes t n).Uses Local := by
  rw [plusMinutes]
  cases t.addMinutes n with
  | none => exact trivial
  | some t' => exact trivial

theorem prepareGrant_local (cluster : String) (record : AccessRequestRecord) :
    (prepareGrant cluster record).Uses Local := by
  refine Prog.uses_ite (uses_unlessStatus ?_ (uses_unlessStatus ?_ trivial))
    trivial
  · exact Prog.uses_bind (Prog.uses_perform rfl) (fun _ => trivial)
  · exact Prog.uses_perform rfl

/-- `approve_request` follows the protocol. -/
theorem approveRequest_follows (cluster reviewer : String) :
    Follows (requestProtocol id)
      (inSession (approveRequest cluster id reviewer).void) .fresh
      Finished := by
  refine follows_ensuring ?_
  rw [Prog.void, approveRequest, bind_assoc]
  refine closing_getOr404 ?_
  intro record
  by_cases hs : record.status ≠ .pending
  · rw [if_pos hs]
    exact closing_error _ _
  · have hl : found record = .pending record.id := by
      rw [found, not_not.mp hs]
    rw [if_neg hs, hl]
    by_cases hr : record.requester = reviewer
    · rw [if_pos hr]
      exact closing_error _ _
    · rw [if_neg hr]
      simp only [bind_assoc, grantRequest_eq]
      refine closing_bind (checkPolicy_local _ _ _) (fun _ => ?_)
      refine closing_bind now_local (fun t => ?_)
      refine closing_bind (plusMinutes_local _ _) (fun t' => ?_)
      refine closing_bind (prepareGrant_local _ _) (fun _ => ?_)
      refine follows_bind (follows_perform .create (fun r => ?_))
      cases r with
      | error e => exact closing_error _ e
      | ok b =>
          rw [pure_bind]
          refine follows_bind (follows_perform (Allowed.approve rfl) (fun r => ?_))
          cases r with
          | error e => exact closing_error _ e
          | ok u => exact closing_ok (Or.inl rfl)

/-- `deny_request` follows the protocol. -/
theorem denyRequest_follows (reviewer : String) :
    Follows (requestProtocol id)
      (inSession (denyRequest id reviewer).void) .fresh Finished := by
  refine follows_ensuring ?_
  rw [Prog.void, denyRequest, bind_assoc]
  refine closing_getOr404 ?_
  intro record
  by_cases hs : record.status ≠ .pending
  · rw [if_pos hs]
    exact closing_error _ _
  · have hl : found record = .pending record.id := by
      rw [found, not_not.mp hs]
    rw [if_neg hs, hl]
    simp only [bind_assoc]
    refine closing_bind now_local (fun t => ?_)
    refine follows_bind (follows_perform (.deny rfl) (fun r => ?_))
    cases r with
    | error e => exact closing_error _ e
    | ok u => exact closing_ok (Or.inr rfl)

/-- The deletion of the binding stays in its phase. -/
theorem deleteGrant_follows {rid cluster : String}
    (record : AccessRequestRecord) {f : Unit → Svc β}
    (hf : ∀ a, Follows (requestProtocol id) (f a) (.active rid) (Closing id)) :
    Follows (requestProtocol id) (deleteGrant cluster record >>= f)
      (.active rid) (Closing id) := by
  have hdelete : (deleteGrant cluster record).Uses (fun op =>
      Allowed id (.active rid) op ∧
        ∀ r, nextPhase (.active rid) op r = .active rid) := by
    rw [deleteGrant]
    cases record.bindingName with
    | none => exact trivial
    | some name =>
        refine uses_unlessStatus (Prog.uses_ite ?_ ?_) trivial
        · exact Prog.uses_perform ⟨.remove, fun _ => rfl⟩
        · exact Prog.uses_perform ⟨.remove, fun _ => rfl⟩
  refine follows_bind (follows_of_uses hdelete ?_)
  intro r
  cases r with
  | ok a => exact hf a
  | error e => exact closing_error _ e

/-- `revoke_request` follows the protocol. -/
theorem revokeRequest_follows (cluster reviewer : String) :
    Follows (requestProtocol id)
      (inSession (revokeRequest cluster id reviewer).void) .fresh
      Finished := by
  refine follows_ensuring ?_
  rw [Prog.void, revokeRequest, bind_assoc]
  refine closing_getOr404 ?_
  intro record
  by_cases hs : record.status ≠ .approved
  · rw [if_pos hs]
    exact closing_error _ _
  · have hl : found record = .active record.id := by
      rw [found, not_not.mp hs]
    rw [if_neg hs, hl]
    simp only [bind_assoc]
    refine deleteGrant_follows record (fun _ => ?_)
    refine closing_bind now_local (fun t => ?_)
    refine follows_bind (follows_perform (.revoke rfl) (fun r => ?_))
    cases r with
    | error e => exact closing_error _ e
    | ok u => exact closing_ok (Or.inr rfl)

/-- `mark_expired` follows the protocol. -/
theorem markExpired_follows :
    Follows (requestProtocol id) (inSession markExpired) .fresh
      Finished := by
  refine follows_ensuring ?_
  rw [markExpired]
  refine closing_bind now_local (fun t => ?_)
  refine follows_bind (follows_perform .select (fun r => ?_))
  cases r with
  | error e => exact closing_error _ e
  | ok rows =>
      refine follows_perform .expire ?_
      intro r
      cases r with
      | error e => exact closing_error _ e
      | ok u => exact closing_ok (Or.inr rfl)

/-- Every transaction follows the protocol. -/
theorem transaction_follows (k : Transaction) :
    Follows (requestProtocol id) (k.prog id) .fresh Finished := by
  cases k with
  | approveRequest cluster reviewer =>
      exact approveRequest_follows cluster reviewer
  | denyRequest reviewer => exact denyRequest_follows reviewer
  | revokeRequest cluster reviewer =>
      exact revokeRequest_follows cluster reviewer
  | markExpired => exact markExpired_follows

end Programs

/-! ## What a step does to the request -/

section Steps

variable {id : String} {t : ι} {s s' : Store ι}

/-- Has a request of this status been approved at some time? -/
def WasApproved (o : Option RequestStatus) : Prop :=
  o = some .approved ∨ o = some .revoked ∨ o = some .expired

/-- What a transaction in a phase relies on. -/
def Phase.Relies (id : String) (t : ι) (s : Store ι) : Phase → Prop
  | .pending rid | .requested rid =>
      rid = id ∧ s.locks id = some t ∧ s.status id = some .pending
  | .active rid =>
      rid = id ∧ s.locks id = some t ∧ s.status id = some .approved
  | .selected rows =>
      id ∈ rows.map AccessRequestRecord.id → WasApproved (s.status id)
  | .granted => WasApproved (s.status id)
  | _ => True

/-- What every step of `t` leaves to the other transactions. -/
structure Spares (id : String) (t : ι) (s s' : Store ι) : Prop where
  held : ∀ u, u ≠ t → s.locks id = some u →
    s'.locks id = some u ∧ s'.status id = s.status id
  spent : WasApproved (s.status id) → WasApproved (s'.status id)

omit [DecidableEq ι] in
theorem Spares.refl : Spares id t s s := ⟨fun _ _ h => ⟨h, rfl⟩, fun h => h⟩

omit [DecidableEq ι] in
/-- The other transactions can go on relying on what they relied on. -/
theorem Spares.relies (h : Spares id t s s') {u : ι} (hu : u ≠ t) {l : Phase}
    (hl : l.Relies id u s) : l.Relies id u s' := by
  have hheld : ∀ {rid : String} {st : RequestStatus},
      rid = id ∧ s.locks id = some u ∧ s.status id = some st →
        rid = id ∧ s'.locks id = some u ∧ s'.status id = some st := by
    rintro rid st ⟨hrid, hlock, hst⟩
    obtain ⟨hlock', hst'⟩ := h.held u hu hlock
    exact ⟨hrid, hlock', hst'.trans hst⟩
  cases l with
  | pending rid | requested rid | active rid => exact hheld hl
  | selected rows => exact fun hmem => h.spent (hl hmem)
  | granted => exact h.spent hl
  | fresh | settled | failed => exact trivial

/-- A lock of another transaction is not touched by a call that did not have
    to wait. -/
theorem locksAfter_of_held {op : Op}
    (hfree : ∀ i ∈ rowsLocked op s.world, s.Free t i) {u : ι} (hu : u ≠ t)
    (h : s.locks id = some u) : s.locksAfter t op id = some u := by
  rw [Store.locksAfter]
  have hne : s.locks id ≠ some t := by
    rw [h]
    exact fun heq => hu (Option.some.inj heq)
  by_cases hend : endsTransaction op = true
  · rw [if_pos hend, if_neg hne, h]
  · rw [if_neg hend, if_neg, h]
    intro hmem
    rcases hfree id hmem with hnone | hown
    · rw [h] at hnone
      exact nomatch hnone
    · exact hne hown

/-- A call that does not commit leaves every status as it is. -/
theorem status_next_of_not_commit {op : Op}
    (h : NoCommit op) : (s.next t op).status id = s.status id := by
  show ((handle op s.world).2.db.accessRequests.get id).map _ = _
  rw [handle_db h]
  rfl

/-- What a call that does not commit leaves to the others. -/
theorem spares_of_not_commit {op : Op}
    (h : NoCommit op) (hfree : ∀ i ∈ rowsLocked op s.world, s.Free t i) :
    Spares id t s (s.next t op) := by
  refine ⟨fun u hu hlock => ⟨locksAfter_of_held hfree hu hlock, ?_⟩, ?_⟩
  · exact status_next_of_not_commit h
  · rw [status_next_of_not_commit h]
    exact fun hs => hs

/-- The commit of one `UPDATE` of a stored request. -/
theorem status_next_update {u : AccessRequestUpdate} {st st' : RequestStatus}
    (hu : u.status = some st') (hst : s.status id = some st) :
    (s.next t (.db (.commit [.updateAccessRequest id u]))).status id
      = some st' := by
  obtain ⟨record, hget, -⟩ := Option.map_eq_some_iff.mp hst
  show ((handle _ s.world).2.db.accessRequests.get id).map _ = _
  rw [handle_commit_ok (applyWrites_update hget)]
  show ((s.world.db.accessRequests.put (record.set u)).get id).map _ = _
  rw [get_put_request u hget, if_pos rfl]
  show some (u.status.getD record.status) = _
  rw [hu]
  rfl

/-- The rows that a successful commit of `mark_expired` writes are stored. -/
theorem stored_of_applyWrites_expire (xs : List AccessRequestRecord) :
    ∀ {d d' : Database},
      applyWrites d (xs.map (fun x => .updateAccessRequest x.id expiry))
        = .ok d' →
      ∀ x ∈ xs, (d.accessRequests.get x.id).isSome = true := by
  induction xs with
  | nil =>
      intro d d' _ x hx
      exact absurd hx List.not_mem_nil
  | cons x xs ih =>
      intro d d' h y hy
      cases hget : d.accessRequests.get x.id with
      | none =>
          simp only [List.map_cons, applyWrites, DbWrite.apply, hget] at h
          cases h
      | some r =>
          rcases List.mem_cons.mp hy with rfl | hy
          · rw [hget]
            rfl
          · simp only [List.map_cons, applyWrites, DbWrite.apply, hget] at h
            have hsome := ih h y hy
            have hput : (d.accessRequests.put (r.set expiry)).get y.id = _ :=
              get_put_request expiry hget
            by_cases hyx : y.id = x.id
            · rw [hyx, hget]
              rfl
            · rw [if_neg hyx] at hput
              exact hput ▸ hsome

/-- The commit of `mark_expired`: it leaves a request alone, or overwrites its
    status, whatever that is by now. -/
theorem status_next_expire (id : String) (t : ι) (s : Store ι)
    (rows : List AccessRequestRecord) :
    (s.next t (.db (.commit
        (rows.map (fun r => .updateAccessRequest r.id expiry))))).status id
      = s.status id ∨
    (id ∈ rows.map AccessRequestRecord.id ∧ (s.status id).isSome = true ∧
      (s.next t (.db (.commit
        (rows.map (fun r => .updateAccessRequest r.id expiry))))).status id
        = some .expired) := by
  cases happ : applyWrites s.world.db
      (rows.map (fun r => .updateAccessRequest r.id expiry)) with
  | error e =>
      refine Or.inl ?_
      show ((handle _ s.world).2.db.accessRequests.get id).map _ = _
      rw [handle_commit_error happ]
      rfl
  | ok d =>
      have hstored := stored_of_applyWrites_expire rows happ
      obtain ⟨tbl, happ', hget⟩ := applyWrites_expire rows s.world.db hstored
      have hstatus : (s.next t (.db (.commit (rows.map
          (fun r => .updateAccessRequest r.id expiry))))).status id
            = (tbl.get id).map AccessRequestRecord.status := by
        show ((handle _ s.world).2.db.accessRequests.get id).map _ = _
        rw [handle_commit_ok happ']
        rfl
      rw [hstatus, hget]
      by_cases hmem : id ∈ rows.map AccessRequestRecord.id
      · obtain ⟨x, hx, rfl⟩ := List.mem_map.mp hmem
        obtain ⟨r, hr⟩ := Option.isSome_iff_exists.mp (hstored x hx)
        refine Or.inr ⟨hmem, ?_, ?_⟩
        · rw [Store.status, hr]
          rfl
        · rw [if_pos hmem, hr]
          rfl
      · rw [if_neg hmem]
        exact Or.inl rfl

omit [DecidableEq ι] in
/-- A request that the commit of `mark_expired` names is not locked by another
    transaction. -/
theorem not_held_of_expire {rows : List AccessRequestRecord}
    (hfree : ∀ i ∈ rowsLocked (.db (.commit
      (rows.map (fun r => .updateAccessRequest r.id expiry)))) s.world,
        s.Free t i)
    (hmem : id ∈ rows.map AccessRequestRecord.id)
    (hsome : (s.status id).isSome = true) {u : ι} (hu : u ≠ t) :
    s.locks id ≠ some u := by
  intro hlock
  have hin : id ∈ rowsLocked (.db (.commit
      (rows.map (fun r => .updateAccessRequest r.id expiry)))) s.world := by
    refine List.mem_filter.mpr ⟨?_, ?_⟩
    · show id ∈ List.filterMap _ (rows.map _)
      rw [List.filterMap_map]
      obtain ⟨x, hx, hid⟩ := List.mem_map.mp hmem
      exact List.mem_filterMap.mpr ⟨x, hx, congrArg some hid⟩
    · rw [Store.status, Option.isSome_map] at hsome
      exact hsome
  rcases hfree id hin with hnone | hown
  · rw [hlock] at hnone
    exact nomatch hnone
  · exact hu (Option.some.inj (hlock.symm.trans hown))

/-- The commit of one `UPDATE` by the transaction that holds the row. -/
theorem spares_next_update {u : AccessRequestUpdate} {st st' : RequestStatus}
    (hlock : s.locks id = some t) (hu : u.status = some st')
    (hst : s.status id = some st)
    (hspent : WasApproved (some st) → WasApproved (some st')) :
    Spares id t s (s.next t (.db (.commit [.updateAccessRequest id u]))) := by
  refine ⟨?_, ?_⟩
  · intro v hv hheld
    exact absurd (Option.some.inj (hheld.symm.trans hlock)) hv
  · rw [hst, status_next_update hu hst]
    exact hspent

theorem not_wasApproved_pending : ¬ WasApproved (some .pending) := by
  rintro (h | h | h) <;> exact nomatch h

/-- Every allowed call spares the other transactions. -/
theorem spares_next {l : Phase} {op : Op} (hl : l.Relies id t s)
    (hop : Allowed id l op)
    (hfree : ∀ i ∈ rowsLocked op s.world, s.Free t i) :
    Spares id t s (s.next t op) := by
  cases hop with
  | here hlocal =>
      refine spares_of_not_commit ?_ hfree
      rintro writes rfl
      exact hlocal
  | close | read | select | create | remove =>
      exact spares_of_not_commit (fun _ h => nomatch h) hfree
  | approve hu =>
      obtain ⟨rfl, hlock, hst⟩ := hl
      exact spares_next_update hlock hu hst (fun _ => Or.inl rfl)
  | deny hu =>
      obtain ⟨rfl, hlock, hst⟩ := hl
      exact spares_next_update hlock hu hst
        (fun h => (not_wasApproved_pending h).elim)
  | revoke hu =>
      obtain ⟨rfl, hlock, hst⟩ := hl
      exact spares_next_update hlock hu hst (fun _ => Or.inr (Or.inl rfl))
  | @expire rows =>
      rcases status_next_expire id t s rows with
        hsame | ⟨hmem, hsome, hnew⟩
      · refine ⟨fun u hu hlock => ⟨locksAfter_of_held hfree hu hlock, hsame⟩,
          ?_⟩
        rw [hsame]
        exact fun h => h
      · refine ⟨fun u hu hlock => ?_, fun _ => ?_⟩
        · exact absurd hlock (not_held_of_expire hfree hmem hsome hu)
        · rw [hnew]
          exact Or.inr (Or.inr rfl)

/-- Every allowed call on time moves the status along a legal change. -/
theorem legal_next {l : Phase} {op : Op} {r : Except Exn op.Res}
    (hl : l.Relies id t s) (hop : Allowed id l op)
    (htime : OnTime id ⟨s, t, ⟨op, r⟩⟩) :
    Legal (s.status id) ((s.next t op).status id) := by
  cases hop with
  | here hlocal =>
      refine Or.inl (status_next_of_not_commit ?_).symm
      rintro writes rfl
      exact hlocal
  | close | read | select | create | remove =>
      refine Or.inl (status_next_of_not_commit ?_).symm
      exact fun _ h => nomatch h
  | approve hu =>
      obtain ⟨rfl, -, hst⟩ := hl
      exact Or.inr ⟨_, _, hst, status_next_update hu hst, .approve⟩
  | deny hu =>
      obtain ⟨rfl, -, hst⟩ := hl
      exact Or.inr ⟨_, _, hst, status_next_update hu hst, .deny⟩
  | revoke hu =>
      obtain ⟨rfl, -, hst⟩ := hl
      exact Or.inr ⟨_, _, hst, status_next_update hu hst, .revoke⟩
  | @expire rows =>
      rcases status_next_expire id t s rows with
        hsame | ⟨hmem, -, hnew⟩
      · exact Or.inl hsame.symm
      · -- the rows were approved when they were selected; the guard leaves
        -- out those that a revocation has reached since
        rcases hl hmem with happ | hrev | hexp
        · exact Or.inr ⟨_, _, happ, hnew, .expire⟩
        · obtain ⟨x, hx, rfl⟩ := List.mem_map.mp hmem
          exact absurd hrev (htime (List.mem_map.mpr ⟨x, hx, rfl⟩))
        · exact Or.inl (hexp.trans hnew.symm)

/-- What an answered call does to the store, when it has any effect. -/
theorem answers_store {op : Op} {r : Except Exn op.Res}
    (h : answers t op s r s') : s' = s ∨ s' = s.next t op := by
  obtain ⟨-, ⟨-, hs⟩ | ⟨e, -, hs⟩⟩ := h
  · exact Or.inr hs
  · exact hs

/-- A call that answers without an error has taken effect. -/
theorem answers_ok {op : Op} {a : op.Res} (h : answers t op s (.ok a) s') :
    (handle op s.world).1 = .ok a ∧ s' = s.next t op := by
  obtain ⟨-, ⟨hr, hs⟩ | ⟨e, hr, -⟩⟩ := h
  · exact ⟨hr.symm, hs⟩
  · exact nomatch hr

/-- A transaction keeps what it relies on through a call that does not end
    it. -/
theorem relies_of_steady {l : Phase} {op : Op} {r : Except Exn op.Res}
    (hop : endsTransaction op = false) (hl : l.Relies id t s)
    (h : answers t op s r s') : l.Relies id t s' := by
  rcases answers_store h with rfl | rfl
  · exact hl
  have hst : (s.next t op).status id = s.status id := by
    refine status_next_of_not_commit ?_
    rintro writes rfl
    exact nomatch hop
  have hlock : s.locks id = some t → (s.next t op).locks id = some t := by
    intro hlock
    show s.locksAfter t op id = some t
    rw [Store.locksAfter, if_neg (by rw [hop]; exact Bool.false_ne_true)]
    split
    · rfl
    · exact hlock
  cases l with
  | pending rid | requested rid | active rid =>
      exact ⟨hl.1, hlock hl.2.1, hst.trans hl.2.2⟩
  | selected rows => exact fun hmem => hst ▸ hl hmem
  | granted =>
      show WasApproved _
      rw [hst]
      exact hl
  | fresh | settled | failed => exact trivial

/-- What a transaction relies on after a locking read. -/
theorem relies_found {r : AccessRequestRecord}
    (hr : s.world.db.accessRequests.get id = some r) :
    (found r).Relies id t (s.next t (.db (.getAccessRequest id true))) := by
  have hst : (s.next t (.db (.getAccessRequest id true))).status id
      = some r.status := congrArg (Option.map AccessRequestRecord.status) hr
  have hlock : (s.next t (.db (.getAccessRequest id true))).locks id
      = some t := by
    show (if id ∈ [id].filter _ then some t else s.locks id) = some t
    refine if_pos (List.mem_filter.mpr ⟨List.mem_singleton.mpr rfl, ?_⟩)
    rw [hr]
    rfl
  have hid : r.id = id := Table.key_of_get hr
  rw [found]
  cases hrs : r.status with
  | pending | approved => exact ⟨hid, hlock, hst.trans (congrArg some hrs)⟩
  | denied | revoked | expired => exact trivial

/-- What a transaction relies on after its answered call. -/
theorem relies_step {l : Phase} {op : Op} {r : Except Exn op.Res}
    (hl : l.Relies id t s) (hop : Allowed id l op)
    (h : answers t op s r s') :
    (nextPhase l op r).Relies id t s' := by
  cases hop with
  | here hlocal =>
      rw [nextPhase_of_local hlocal]
      refine relies_of_steady ?_ hl h
      cases op with
      | db op =>
          cases op with
          | getPolicy kind name => rfl
          | _ => exact hlocal.elim
      | _ => rfl
  | close =>
      cases l with
      | granted =>
          rcases answers_store h with rfl | rfl
          · exact hl
          · exact (spares_next hl .close h.1).spent hl
      | _ => exact trivial
  | read =>
      cases r with
      | error e => exact trivial
      | ok o =>
          obtain ⟨ho, rfl⟩ := answers_ok h
          cases o with
          | none => exact trivial
          | some record => exact relies_found (Except.ok.inj ho)
  -- the rows that `mark_expired` selects are approved when it reads them
  | select =>
      cases r with
      | error e => exact trivial
      | ok rows =>
          obtain ⟨ho, rfl⟩ := answers_ok h
          intro hmem
          obtain ⟨x, hx, rfl⟩ := List.mem_map.mp hmem
          rw [← Except.ok.inj ho] at hx
          obtain ⟨hin, hexp⟩ := List.mem_filter.mp hx
          refine Or.inl ?_
          show (s.world.db.accessRequests.get x.id).map _ = _
          rw [Table.get_of_mem hin, Option.map_some]
          exact congrArg some (of_decide_eq_true (Bool.and_eq_true_iff.mp hexp).1)
  | create => exact relies_of_steady rfl hl h
  | remove => exact relies_of_steady rfl hl h
  | approve hu =>
      cases r with
      | error e => exact trivial
      | ok u =>
          obtain ⟨-, rfl⟩ := answers_ok h
          obtain ⟨rfl, -, hst⟩ := hl
          exact Or.inl (status_next_update hu hst)
  | deny | revoke | expire =>
      cases r with
      | error e => exact trivial
      | ok u => exact trivial

end Steps

/-! ## The invariant -/

section Invariant

variable {id : String} {tr : List (Entry backend Exn (Store ι) ι)}
  {ph : ι → Phase} {t : ι} {s s' : Store ι}

/-- The create-binding calls of a transaction. -/
def createsBy (t : ι) (tr : List (Entry backend Exn (Store ι) ι)) : Nat :=
  tr.countP (fun e => creates e.event.op && decide (e.thread = t))

/-- The create-binding calls that a transaction has made by a phase. -/
def Phase.created : Phase → Nat
  | .requested _ => 1
  | .granted => 1
  | _ => 0

/-- What holds along every run: the transactions have what they rely on, a
    transaction that goes on has made the calls of its phase, and one
    transaction at most has been granted its binding. -/
structure Consistent (id : String)
    (tr : List (Entry backend Exn (Store ι) ι)) (ph : ι → Phase)
    (s : Store ι) : Prop where
  relies : ∀ t, (ph t).Relies id t s
  calls : ∀ t, ph t ≠ .failed → createsBy t tr = (ph t).created
  once : ∀ t u, ph t = .granted → ph u = .granted → t = u

theorem createsBy_append (tr : List (Entry backend Exn (Store ι) ι))
    (e : Entry backend Exn (Store ι) ι) :
    createsBy t (tr ++ [e]) = createsBy t tr
      + if creates e.event.op = true ∧ e.thread = t then 1 else 0 := by
  rw [createsBy, createsBy, List.countP_append, List.countP_singleton]
  simp only [Bool.and_eq_true, decide_eq_true_eq]

theorem creates_of_local {op : Op} (h : Local op) : creates op = false := by
  cases op with
  | kube c op =>
      cases op with
      | createBinding b => exact nomatch h
      | _ => rfl
  | _ => rfl

theorem created_found (r : AccessRequestRecord) : (found r).created = 0 := by
  rw [found]
  cases r.status <;> rfl

/-- A call adds to the calls of its transaction what its next phase counts. -/
theorem created_nextPhase {l : Phase} {op : Op} {r : Except Exn op.Res}
    (hop : Allowed id l op) (hfailed : nextPhase l op r ≠ .failed) :
    l ≠ .failed ∧ (nextPhase l op r).created
      = l.created + if creates op = true then 1 else 0 := by
  cases hop with
  | here hlocal =>
      rw [nextPhase_of_local hlocal] at hfailed ⊢
      rw [creates_of_local hlocal]
      exact ⟨hfailed, rfl⟩
  | close =>
      cases l with
      | requested rid | failed => exact absurd rfl hfailed
      | _ => exact ⟨nofun, rfl⟩
  | read =>
      refine ⟨nofun, ?_⟩
      rcases r with e | (- | record)
      · rfl
      · rfl
      · exact created_found record
  | select | deny | revoke | expire =>
      refine ⟨nofun, ?_⟩
      cases r <;> rfl
  | create | remove => exact ⟨nofun, rfl⟩
  | approve =>
      refine ⟨nofun, ?_⟩
      cases r with
      | ok u => rfl
      | error e => exact absurd rfl hfailed

/-- A transaction that is granted now was so before, or has committed its
    approval. -/
theorem granted_nextPhase {l : Phase} {op : Op} {r : Except Exn op.Res}
    (hop : Allowed id l op) (h : nextPhase l op r = .granted) :
    l = .granted ∨ ∃ rid, l = .requested rid := by
  cases hop with
  | here hlocal => exact Or.inl (nextPhase_of_local hlocal l r ▸ h)
  | close =>
      cases l with
      | granted => exact Or.inl rfl
      | fresh | pending rid | requested rid | active rid | selected rows
      | settled | failed => exact nomatch h
  | approve => exact Or.inr ⟨_, rfl⟩
  | create | remove => exact nomatch h
  | read =>
      rcases r with e | (- | record)
      · exact nomatch h
      · exact nomatch h
      · have hc := created_found record
        rw [show found record = .granted from h] at hc
        exact nomatch hc
  | select | deny | revoke | expire => cases r <;> exact nomatch h

/-- Every allowed call keeps the invariant, on time or not. -/
theorem consistent_step (hinv : Consistent id tr ph s) {op : Op}
    {r : Except Exn op.Res} (hop : Allowed id (ph t) op)
    (h : answers t op s r s') :
    Consistent id (tr ++ [⟨s, t, ⟨op, r⟩⟩])
      (Function.update ph t (nextPhase (ph t) op r)) s' := by
  have hspares : Spares id t s s' := by
    rcases answers_store h with rfl | rfl
    · exact Spares.refl
    · exact spares_next (hinv.relies t) hop h.1
  -- a newly granted transaction finds the request pending, and one that is
  -- granted already has left it approved
  have hfirst : nextPhase (ph t) op r = .granted →
      ∀ u, u ≠ t → ph u ≠ .granted := by
    intro hg u hu hgu
    rcases granted_nextPhase hop hg with hgt | ⟨rid, hreq⟩
    · exact hu (hinv.once u t hgu hgt)
    · have hspent := hinv.relies u
      have hpending := hinv.relies t
      rw [hgu] at hspent
      rw [hreq] at hpending
      refine not_wasApproved_pending ?_
      rw [← hpending.2.2]
      exact hspent
  refine ⟨?_, ?_, ?_⟩
  · intro u
    by_cases hu : u = t
    · rw [hu, Function.update_self]
      exact relies_step (hinv.relies t) hop h
    · rw [Function.update_of_ne hu]
      exact hspares.relies hu (hinv.relies u)
  · intro u hfailed
    rw [createsBy_append]
    by_cases hu : u = t
    · rw [hu, Function.update_self] at hfailed ⊢
      obtain ⟨hl, hcount⟩ := created_nextPhase hop hfailed
      rw [hinv.calls t hl, hcount]
      simp only [and_true]
    · rw [Function.update_of_ne hu] at hfailed ⊢
      rw [hinv.calls u hfailed, if_neg (fun h => hu h.2.symm), Nat.add_zero]
  · intro u v hgu hgv
    by_cases hu : u = t
    · by_cases hv : v = t
      · rw [hu, hv]
      · rw [hu, Function.update_self] at hgu
        rw [Function.update_of_ne hv] at hgv
        exact absurd hgv (hfirst hgu v hv)
    · rw [Function.update_of_ne hu] at hgu
      by_cases hv : v = t
      · rw [hv, Function.update_self] at hgv
        exact absurd hgu (hfirst hgv u hu)
      · rw [Function.update_of_ne hv] at hgv
        exact hinv.once u v hgu hgv

theorem consistent_start (id : String) (w : World) :
    Consistent id [] (fun _ : ι => .fresh) ⟨w, fun _ => none⟩ where
  relies _ := trivial
  calls _ _ := rfl
  once _ _ h := nomatch h

end Invariant

/-! ## Runs -/

section Runs

variable {id : String} {transactions : ι → Transaction} {w : World}
  {tr : List (Entry backend Exn (Store ι) ι)}
  {p : Pool backend Exn Unit (Store ι) ι}

/-- The invariant holds after every run. -/
theorem consistent_of_run
    (hrun : Run answers (starting id transactions w) tr p) :
    ∃ ph, Consistent id tr ph p.shared ∧
      ∀ t, Follows (requestProtocol id) (p.threads t) (ph t) Finished := by
  have hkeep : KeptBy (requestProtocol id) (@answers ι _)
      (Consistent id) (fun _ => True) :=
    fun tr ph s t op r s' hinv hop h _ => consistent_step hinv hop h
  exact Run.inv hkeep (consistent_start id w)
    (fun t => transaction_follows (transactions t)) hrun
    (fun _ _ => trivial)

/-- In every run, the transactions that have returned have made one
    create-binding call at most, all together. -/
theorem successfulCreates_le_one
    (hrun : Run answers (starting id transactions w) tr p) :
    successfulCreates tr p ≤ 1 := by
  obtain ⟨ph, hinv, hfol⟩ := consistent_of_run hrun
  -- a transaction that has returned after a create-binding call is granted
  have hgranted : ∀ e ∈ tr, creates e.event.op = true →
      returned p e.thread = true → ph e.thread = .granted := by
    intro e he hcreate hret
    have hf := hfol e.thread
    rw [returned] at hret
    split at hret
    · rename_i a hthread
      rw [hthread] at hf
      rcases hf with hg | hs
      · exact hg
      · have hzero := hinv.calls e.thread (by rw [hs]; exact nofun)
        rw [hs] at hzero
        have hpos : 0 < createsBy e.thread tr :=
          List.countP_pos_iff.mpr ⟨e, he, by simp [hcreate]⟩
        exact absurd hzero (Nat.pos_iff_ne_zero.mp hpos)
    · exact nomatch hret
  by_cases hone : ∃ t, ph t = .granted
  · obtain ⟨t, ht⟩ := hone
    calc successfulCreates tr p
        ≤ createsBy t tr := by
          refine List.countP_mono_left ?_
          intro e he hcall
          obtain ⟨hcreate, hret⟩ := Bool.and_eq_true_iff.mp hcall
          have hthread : e.thread = t :=
            hinv.once e.thread t (hgranted e he hcreate hret) ht
          rw [hcreate, hthread, decide_eq_true rfl]
          rfl
      _ = 1 := by
          rw [hinv.calls t (by rw [ht]; exact nofun), ht]
          rfl
  · have hnone : successfulCreates tr p = 0 := by
      refine List.countP_eq_zero.mpr ?_
      intro e he hcall
      obtain ⟨hcreate, hret⟩ := Bool.and_eq_true_iff.mp hcall
      exact hone ⟨e.thread, hgranted e he hcreate hret⟩
    rw [hnone]
    exact Nat.zero_le 1

/-- In every run in which no late `UPDATE` of `mark_expired` reaches a revoked
    request, the committed statuses of the request are a path of legal
    changes, and the transactions that have returned have made one
    create-binding call at most. -/
theorem statusHistory_legal
    (hrun : Run answers (starting id transactions w) tr p)
    (htime : ∀ e ∈ tr, OnTime id e) :
    List.IsChain Legal (statusHistory id tr p) ∧
      successfulCreates tr p ≤ 1 := by
  have hkeep : KeptBy (requestProtocol id) (@answers ι _)
      (Consistent id) (OnTime id) :=
    fun tr ph s t op r s' hinv hop h _ => consistent_step hinv hop h
  refine ⟨?_, successfulCreates_le_one hrun⟩
  refine Run.history_chain hkeep ?_ (consistent_start id w)
    (fun t => transaction_follows (transactions t)) hrun htime
  intro tr ph s t op r s' hinv hop h htime
  rcases answers_store h with rfl | rfl
  · exact Or.inl rfl
  · exact legal_next (hinv.relies t) hop htime

end Runs

/-! ## A late update -/

/-- A request of bob whose grant ends when it begins. -/
def bobsShortRequest (status : RequestStatus) : AccessRequestRecord where
  id := "7"
  requester := "bob"
  targetUsername := "ada"
  userKind := .user
  saNamespace := none
  roleName := "view"
  roleKind := .clusterRole
  ns := none
  ttlMinutes := 0
  reason := "incident"
  status := status
  requestedAt := Time.epoch
  expiresAt := some Time.epoch
  bindingName := some (jitBindingName "7")

/-- A new installation with that request. -/
def worldOfBob (status : RequestStatus) : World :=
  World.fresh.setDb (Database.fresh.withRequests
    (Table.empty.put (bobsShortRequest status)))

/-- A schedule that can be played, and what it shows, give a run. -/
theorem run_of_schedule (id : String) (transactions : ι → Transaction)
    (w : World) (ts : List ι)
    (P : List (Entry backend Exn (Store ι) ι) →
      Pool backend Exn Unit (Store ι) ι → Prop) [∀ tr p, Decidable (P tr p)]
    (h : (play exec ts [] (starting id transactions w)).any
      (fun o => decide (P o.1 o.2)) = true) :
    ∃ tr p, Run answers (starting id transactions w) tr p ∧ P tr p := by
  obtain ⟨⟨tr, p⟩, hplay, hP⟩ := (Option.any_eq_true _ _).mp h
  exact ⟨tr, p, run_of_play answers_of_exec ts .refl hplay,
    of_decide_eq_true hP⟩

/-- Approved and then expired: such a run is on time. -/
theorem statusHistory_legal_on_time :
    ∃ tr p, Run answers (starting "7"
        (fun first => if first = true then .approveRequest "local" "carol"
          else .markExpired) (worldOfBob .pending)) tr p ∧
      p.shared.status "7" = some .expired ∧
      List.IsChain Legal (statusHistory "7" tr p) ∧
        successfulCreates tr p ≤ 1 := by
  obtain ⟨tr, p, hrun, htime, hend⟩ := run_of_schedule "7"
    (fun first => if first = true then .approveRequest "local" "carol"
      else .markExpired)
    (worldOfBob .pending)
    [true, true, true, true, true, true, false, false, false, false]
    (fun tr p => (∀ e ∈ tr, OnTime "7" e) ∧
      p.shared.status "7" = some .expired) (by decide)
  exact ⟨tr, p, hrun, hend, statusHistory_legal hrun htime⟩

theorem legal_of_chain {xs : List (Option RequestStatus)}
    {a b : Option RequestStatus} (h : List.IsChain Legal (xs ++ [a, b])) :
    Legal a b := by
  have hpair := (List.isChain_append.mp h).2.1
  exact (List.isChain_cons_cons.mp hpair).1

/-- `mark_expired` selects the grant, a revocation deletes it and commits, and
    then the late `UPDATE` of `mark_expired` overwrites `revoked`. -/
theorem statusHistory_overwritten :
    ¬ ∀ (transactions : Bool → Transaction) (w : World) (id : String) tr p,
      Run answers (starting id transactions w) tr p →
        List.IsChain Legal (statusHistory id tr p) ∧
          successfulCreates tr p ≤ 1 := by
  intro hall
  obtain ⟨tr, p, hrun, xs, hxs⟩ : ∃ tr p, Run answers (starting "7"
      (fun first => if first = true then .markExpired
        else .revokeRequest "local" "carol") (worldOfBob .approved)) tr p ∧
      ∃ xs, statusHistory "7" tr p = xs ++ [some .revoked, some .expired] := by
    obtain ⟨tr, p, hrun, hhist⟩ := run_of_schedule "7"
      (fun first => if first = true then .markExpired
        else .revokeRequest "local" "carol")
      (worldOfBob .approved)
      [true, true, false, false, false, false, false, true]
      (fun tr p => statusHistory "7" tr p
        = List.replicate 6 (some .approved)
          ++ [some .revoked, some .revoked, some .expired]) (by decide)
    exact ⟨tr, p, hrun, List.replicate 6 (some .approved) ++ [some .revoked],
      hhist⟩
  have hchain := (hall _ _ _ tr p hrun).1
  rw [hxs] at hchain
  rcases legal_of_chain hchain with h | ⟨x, y, hx, hy, hstep⟩
  · exact nomatch h
  · obtain rfl := Option.some.inj hx
    obtain rfl := Option.some.inj hy
    exact nomatch hstep

end CvHistory
