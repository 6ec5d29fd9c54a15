import ClusterVision.StatusHistoryProofs
import ClusterVision.ProtocolProofs

/-! # One decision

    Any number of approvals, denials, revocations and `mark_expired` runs on
    one request, interleaved call by call, with calls that fail before or after
    they take effect.  However they meet, one approval or denial at most
    returns, and what it decided stands: the committed row keeps its verdict
    and the name of its reviewer.  So does a revocation. -/

namespace CvDecision

open CvProg CvTable CvIso CvKube CvBackend CvRbac CvAccess CvPool CvHistory

/-! ## What the transactions write -/

/-- The statements that a transaction commits. -/
def Writes : Transaction → List DbWrite → Prop
  | .approveRequest _ reviewer, writes => ∃ rid t e,
      writes = [.updateAccessRequest rid (approval rid reviewer t e)]
  | .denyRequest reviewer, writes => ∃ rid t,
      writes = [.updateAccessRequest rid (denial reviewer t)]
  | .revokeRequest _ _, writes => ∃ rid t,
      writes = [.updateAccessRequest rid (revocation t)]
  | .markExpired, writes => ∃ rows : List AccessRequestRecord,
      writes = rows.map (fun r => .updateAccessRequest r.id expiry)

/-- The calls of a transaction: it commits nothing else. -/
def OwnWrites (k : Transaction) : Op → Prop
  | .db (.commit writes) => Writes k writes
  | _ => True

/-- Is this a commit? -/
def commits : Op → Bool
  | .db (.commit _) => true
  | _ => false

theorem ownWrites_of_local {k : Transaction} {op : Op} (h : Local op) :
    OwnWrites k op := by
  cases op with
  | db op =>
      cases op with
      | commit writes => exact h.elim
      | _ => exact trivial
  | _ => exact trivial

theorem uses_ownWrites {α : Type} {k : Transaction} {p : Svc α}
    (hp : p.Uses Local) : p.Uses (OwnWrites k) :=
  hp.imp (fun _ hop => ownWrites_of_local hop)

theorem getOr404_ownWrites (k : Transaction) (id : String) :
    (getOr404 id true).Uses (OwnWrites k) := by
  refine Prog.uses_bind (Prog.uses_perform trivial) ?_
  intro o
  cases o with
  | none => exact trivial
  | some r => exact trivial

theorem deleteGrant_ownWrites (k : Transaction) (cluster : String)
    (record : AccessRequestRecord) :
    (deleteGrant cluster record).Uses (OwnWrites k) := by
  rw [deleteGrant]
  cases record.bindingName with
  | none => exact trivial
  | some name =>
      refine uses_unlessStatus (Prog.uses_ite ?_ ?_) trivial
      · exact Prog.uses_perform trivial
      · exact Prog.uses_perform trivial

/-- A transaction that returns has committed, and nothing but its own
    statements. -/
theorem transaction_commits (id : String) (k : Transaction) :
    Follows (watch (OwnWrites k) commits) (k.prog id) false Seen := by
  have hclose : (db .close).Uses (OwnWrites k) := Prog.uses_perform trivial
  cases k with
  | approveRequest cluster reviewer =>
      refine follows_watch_ensuring hclose ?_
      rw [Prog.void, approveRequest, bind_assoc]
      refine follows_watch_bind (getOr404_ownWrites _ id)
        (fun record seen => ?_)
      by_cases hs : record.status ≠ .pending
      · rw [if_pos hs]
        exact seen_error _
      · rw [if_neg hs]
        by_cases hr : record.requester = reviewer
        · rw [if_pos hr]
          exact seen_error _
        · rw [if_neg hr]
          simp only [bind_assoc, grantRequest_eq]
          refine follows_watch_bind (uses_ownWrites (checkPolicy_local _ _ _))
            (fun _ _ => ?_)
          refine follows_watch_bind (uses_ownWrites now_local) (fun t _ => ?_)
          refine follows_watch_bind (uses_ownWrites (plusMinutes_local _ _))
            (fun e _ => ?_)
          refine follows_watch_bind (uses_ownWrites (prepareGrant_local _ _))
            (fun _ _ => ?_)
          refine follows_watch_bind (Prog.uses_perform trivial)
            (fun _ _ => ?_)
          rw [pure_bind]
          exact follows_watch_seen (follows_watch_hit ⟨_, _, _, rfl⟩ rfl)
            (fun _ => trivial)
  | denyRequest reviewer =>
      refine follows_watch_ensuring hclose ?_
      rw [Prog.void, denyRequest, bind_assoc]
      refine follows_watch_bind (getOr404_ownWrites _ id)
        (fun record seen => ?_)
      by_cases hs : record.status ≠ .pending
      · rw [if_pos hs]
        exact seen_error _
      · rw [if_neg hs]
        simp only [bind_assoc]
        refine follows_watch_bind (uses_ownWrites now_local) (fun t _ => ?_)
        exact follows_watch_seen (follows_watch_hit ⟨_, _, rfl⟩ rfl)
          (fun _ => trivial)
  | revokeRequest cluster reviewer =>
      refine follows_watch_ensuring hclose ?_
      rw [Prog.void, revokeRequest, bind_assoc]
      refine follows_watch_bind (getOr404_ownWrites _ id)
        (fun record seen => ?_)
      by_cases hs : record.status ≠ .approved
      · rw [if_pos hs]
        exact seen_error _
      · rw [if_neg hs]
        simp only [bind_assoc]
        refine follows_watch_bind (deleteGrant_ownWrites _ cluster record)
          (fun _ _ => ?_)
        refine follows_watch_bind (uses_ownWrites now_local) (fun t _ => ?_)
        exact follows_watch_seen (follows_watch_hit ⟨_, _, rfl⟩ rfl)
          (fun _ => trivial)
  | markExpired =>
      refine follows_watch_ensuring hclose ?_
      rw [markExpired]
      refine follows_watch_bind (uses_ownWrites now_local) (fun t _ => ?_)
      refine follows_watch_bind (Prog.uses_perform trivial) (fun rows _ => ?_)
      exact follows_watch_hit ⟨rows, rfl⟩ rfl

/-! ## What a commit does to the row -/

section Steps

variable {ι : Type} [DecidableEq ι] {id : String} {t : ι} {s s' : Store ι}

/-- The committed row of a request. -/
def row (id : String) (s : Store ι) : Option AccessRequestRecord :=
  s.world.db.accessRequests.get id

/-- The status that a transaction writes. -/
def target : Transaction → RequestStatus
  | .approveRequest _ _ => .approved
  | .denyRequest _ => .denied
  | .revokeRequest _ _ => .revoked
  | .markExpired => .expired

/-- The reviewer that it writes. -/
def author : Transaction → Option String
  | .approveRequest _ reviewer => some reviewer
  | .denyRequest reviewer => some reviewer
  | _ => none

/-- The statuses that are overwritten by a status. -/
def Source : RequestStatus → RequestStatus → Prop
  | .approved, st => st = .pending
  | .denied, st => st = .pending
  | .revoked, st => st = .approved
  | .expired, st => WasApproved (some st)
  | .pending, _ => False

/-- Does a transaction make this update to a row of this status? -/
def Moves (k : Transaction) (st : RequestStatus) (u : AccessRequestUpdate) :
    Prop :=
  Source (target k) st ∧ u.status = some (target k) ∧ u.reviewedBy = author k

/-- A commit of a transaction: the row after it. -/
def Turn (k : Transaction) (o o' : Option AccessRequestRecord) : Prop :=
  ∃ r u, o = some r ∧ Moves k r.status u ∧ o' = some (r.set u)

/-- What a transaction that has returned leaves in the row. -/
def Verdict : Transaction → AccessRequestRecord → Prop
  | .approveRequest _ reviewer, r =>
      WasApproved (some r.status) ∧ r.reviewedBy = some reviewer
  | .denyRequest reviewer, r =>
      r.status = .denied ∧ r.reviewedBy = some reviewer
  | .revokeRequest _ _, r => r.status = .revoked ∨ r.status = .expired
  | .markExpired, _ => True

/-- The row is there, and says what the transaction has decided. -/
def Stands (k : Transaction) (o : Option AccessRequestRecord) : Prop :=
  k = .markExpired ∨ ∃ r, o = some r ∧ Verdict k r

/-- Two transactions of which one alone can return: both decide, or both
    revoke. -/
def Rivals : Transaction → Transaction → Prop
  | .approveRequest _ _, .approveRequest _ _ => True
  | .approveRequest _ _, .denyRequest _ => True
  | .denyRequest _, .approveRequest _ _ => True
  | .denyRequest _, .denyRequest _ => True
  | .revokeRequest _ _, .revokeRequest _ _ => True
  | _, _ => False

theorem rivals_symm {k k' : Transaction} (h : Rivals k k') : Rivals k' k := by
  cases k <;> cases k' <;> exact h

theorem set_status {u : AccessRequestUpdate} {st : RequestStatus}
    (h : u.status = some st) (r : AccessRequestRecord) :
    (r.set u).status = st := by
  show u.status.getD r.status = st
  rw [h]
  rfl

theorem set_reviewedBy {u : AccessRequestUpdate} {reviewer : String}
    (h : u.reviewedBy = some reviewer) (r : AccessRequestRecord) :
    (r.set u).reviewedBy = some reviewer := by
  show (u.reviewedBy <|> r.reviewedBy) = some reviewer
  rw [h]
  rfl

theorem set_reviewedBy_none {u : AccessRequestUpdate}
    (h : u.reviewedBy = none) (r : AccessRequestRecord) :
    (r.set u).reviewedBy = r.reviewedBy := by
  show (u.reviewedBy <|> r.reviewedBy) = r.reviewedBy
  rw [h]
  rfl

/-- The row says what was decided last. -/
theorem Turn.stands {k : Transaction} {o o' : Option AccessRequestRecord}
    (h : Turn k o o') : Stands k o' := by
  obtain ⟨r, u, -, hmoves, rfl⟩ := h
  cases k with
  | approveRequest cluster reviewer =>
      obtain ⟨-, hst, hby⟩ := hmoves
      refine Or.inr ⟨_, rfl, ?_, set_reviewedBy hby r⟩
      exact Or.inl (congrArg some (set_status hst r))
  | denyRequest reviewer =>
      obtain ⟨-, hst, hby⟩ := hmoves
      exact Or.inr ⟨_, rfl, set_status hst r, set_reviewedBy hby r⟩
  | revokeRequest cluster reviewer =>
      obtain ⟨-, hst, -⟩ := hmoves
      exact Or.inr ⟨_, rfl, Or.inl (set_status hst r)⟩
  | markExpired => exact Or.inl rfl

/-- A row that is pending says of no call that it has returned. -/
theorem not_verdict_pending {k : Transaction} {r : AccessRequestRecord}
    (hst : r.status = .pending) (hk : k ≠ .markExpired) : ¬ Verdict k r := by
  intro h
  cases k with
  | approveRequest cluster reviewer =>
      refine not_wasApproved_pending ?_
      rw [← hst]
      exact h.1
  | denyRequest reviewer =>
      rw [Verdict, hst] at h
      cases h.1
  | revokeRequest cluster reviewer =>
      rw [Verdict, hst] at h
      rcases h with h | h
      · cases h
      · cases h
  | markExpired => exact hk rfl

/-- What stands is not undone. -/
theorem Turn.keeps {k k' : Transaction} {o o' : Option AccessRequestRecord}
    (h : Turn k o o') (hs : Stands k' o) : Stands k' o' := by
  rcases hs with hk' | ⟨r', hr', hverdict⟩
  · exact Or.inl hk'
  by_cases hk' : k' = .markExpired
  · exact Or.inl hk'
  obtain ⟨r, u, ho, hmoves, rfl⟩ := h
  obtain rfl := Option.some.inj (ho.symm.trans hr')
  refine Or.inr ⟨_, rfl, ?_⟩
  cases k with
  | approveRequest cluster reviewer =>
      exact (not_verdict_pending hmoves.1 hk' hverdict).elim
  | denyRequest reviewer =>
      exact (not_verdict_pending hmoves.1 hk' hverdict).elim
  | revokeRequest cluster reviewer =>
      have hst : r.status = .approved := hmoves.1
      obtain ⟨-, hnew, hby⟩ := hmoves
      cases k' with
      | approveRequest cluster' reviewer' =>
          refine ⟨?_, (set_reviewedBy_none hby r).trans hverdict.2⟩
          exact Or.inr (Or.inl (congrArg some (set_status hnew r)))
      | denyRequest reviewer' =>
          rw [Verdict, hst] at hverdict
          cases hverdict.1
      | revokeRequest cluster' reviewer' => exact Or.inl (set_status hnew r)
      | markExpired => exact trivial
  | markExpired =>
      have hst : WasApproved (some r.status) := hmoves.1
      obtain ⟨-, hnew, hby⟩ := hmoves
      cases k' with
      | approveRequest cluster' reviewer' =>
          refine ⟨?_, (set_reviewedBy_none hby r).trans hverdict.2⟩
          exact Or.inr (Or.inr (congrArg some (set_status hnew r)))
      | denyRequest reviewer' =>
          rw [hverdict.1] at hst
          rcases hst with h | h | h <;> cases h
      | revokeRequest cluster' reviewer' => exact Or.inr (set_status hnew r)
      | markExpired => exact trivial

/-- A rival finds nothing to do. -/
theorem Turn.not_stands {k k' : Transaction}
    {o o' : Option AccessRequestRecord} (h : Turn k o o')
    (hrivals : Rivals k k') : ¬ Stands k' o := by
  rintro (rfl | ⟨r', hr', hverdict⟩)
  · cases k <;> exact hrivals
  obtain ⟨r, u, ho, hmoves, rfl⟩ := h
  obtain rfl := Option.some.inj (ho.symm.trans hr')
  cases k with
  | approveRequest cluster reviewer =>
      refine not_verdict_pending hmoves.1 ?_ hverdict
      rintro rfl
      exact hrivals
  | denyRequest reviewer =>
      refine not_verdict_pending hmoves.1 ?_ hverdict
      rintro rfl
      exact hrivals
  | revokeRequest cluster reviewer =>
      cases k' with
      | revokeRequest cluster' reviewer' =>
          have hst : r.status = .approved := hmoves.1
          rw [Verdict, hst] at hverdict
          rcases hverdict with h | h
          · cases h
          · cases h
      | approveRequest cluster' reviewer' => exact hrivals
      | denyRequest reviewer' => exact hrivals
      | markExpired => exact hrivals
  | markExpired => cases k' <;> exact hrivals

/-- An update that a transaction commits is its own. -/
theorem writes_update {k : Transaction} {rid : String}
    {u : AccessRequestUpdate} (h : Writes k [.updateAccessRequest rid u]) :
    u.status = some (target k) ∧ u.reviewedBy = author k := by
  have hone : ∀ {rid' : String} {u' : AccessRequestUpdate},
      [DbWrite.updateAccessRequest rid u] = [.updateAccessRequest rid' u'] →
        u = u' :=
    fun h => (DbWrite.updateAccessRequest.inj (List.cons.inj h).1).2
  cases k with
  | approveRequest cluster reviewer =>
      obtain ⟨rid', t, e, h⟩ := h
      rw [hone h]
      exact ⟨rfl, rfl⟩
  | denyRequest reviewer =>
      obtain ⟨rid', t, h⟩ := h
      rw [hone h]
      exact ⟨rfl, rfl⟩
  | revokeRequest cluster reviewer =>
      obtain ⟨rid', t, h⟩ := h
      rw [hone h]
      exact ⟨rfl, rfl⟩
  | markExpired =>
      obtain ⟨rows, h⟩ := h
      cases rows with
      | nil => cases h
      | cons r rows =>
          have hu : u = expiry :=
            (DbWrite.updateAccessRequest.inj (List.cons.inj h).1).2
          rw [hu]
          exact ⟨rfl, rfl⟩

/-- Only `mark_expired` commits its rows. -/
theorem markExpired_of_writes {k : Transaction}
    {rows : List AccessRequestRecord}
    (h : Writes k (rows.map (fun r => .updateAccessRequest r.id expiry))) :
    k = .markExpired := by
  cases rows with
  | nil =>
      cases k with
      | approveRequest cluster reviewer =>
          obtain ⟨_, _, _, h⟩ := h
          cases h
      | denyRequest reviewer | revokeRequest cluster reviewer =>
          obtain ⟨_, _, h⟩ := h
          cases h
      | markExpired => rfl
  | cons r rows =>
      cases k with
      | approveRequest cluster reviewer =>
          obtain ⟨_, _, _, h⟩ := h
          have hu := (DbWrite.updateAccessRequest.inj (List.cons.inj h).1).2
          cases congrArg AccessRequestUpdate.status hu
      | denyRequest reviewer | revokeRequest cluster reviewer =>
          obtain ⟨_, _, h⟩ := h
          have hu := (DbWrite.updateAccessRequest.inj (List.cons.inj h).1).2
          cases congrArg AccessRequestUpdate.status hu
      | markExpired => rfl

/-- The row after the commit of one update. -/
theorem row_next_update {r : AccessRequestRecord} (u : AccessRequestUpdate)
    (hr : row id s = some r) :
    row id (s.next t (.db (.commit [.updateAccessRequest id u])))
      = some (r.set u) := by
  show (handle _ s.world).2.db.accessRequests.get id = _
  rw [handle_commit_ok (applyWrites_update hr)]
  show (s.world.db.accessRequests.put (r.set u)).get id = _
  rw [get_put_request u hr, if_pos rfl]

/-- The row after the commit of `mark_expired`. -/
theorem row_next_expire (id : String) (t : ι) (s : Store ι)
    (rows : List AccessRequestRecord) :
    row id (s.next t (.db (.commit
        (rows.map (fun r => .updateAccessRequest r.id expiry))))) = row id s ∨
      (id ∈ rows.map AccessRequestRecord.id ∧ ∃ r, row id s = some r ∧
        row id (s.next t (.db (.commit
          (rows.map (fun r => .updateAccessRequest r.id expiry)))))
          = some (r.set expiry)) := by
  cases happ : applyWrites s.world.db
      (rows.map (fun r => .updateAccessRequest r.id expiry)) with
  | error e =>
      refine Or.inl ?_
      show (handle _ s.world).2.db.accessRequests.get id = _
      rw [handle_commit_error happ]
      rfl
  | ok d =>
      have hstored := stored_of_applyWrites_expire rows happ
      obtain ⟨tbl, happ', hget⟩ := applyWrites_expire rows s.world.db hstored
      have hrow : row id (s.next t (.db (.commit
          (rows.map (fun r => .updateAccessRequest r.id expiry)))))
            = tbl.get id := by
        show (handle _ s.world).2.db.accessRequests.get id = _
        rw [handle_commit_ok happ']
        rfl
      rw [hrow, hget]
      by_cases hmem : id ∈ rows.map AccessRequestRecord.id
      · obtain ⟨x, hx, hid⟩ := List.mem_map.mp hmem
        obtain ⟨r, hr⟩ := Option.isSome_iff_exists.mp (hstored x hx)
        rw [hid] at hr
        refine Or.inr ⟨hmem, r, hr, ?_⟩
        rw [if_pos hmem, hr]
        rfl
      · rw [if_neg hmem]
        exact Or.inl rfl

omit [DecidableEq ι] in
/-- A stored status is that of the row. -/
theorem row_of_status {st : RequestStatus} (h : s.status id = some st) :
    ∃ r, row id s = some r ∧ r.status = st :=
  Option.map_eq_some_iff.mp h

/-- A commit is a turn of its transaction, or `mark_expired` has nothing to
    say of the row. -/
theorem turn_of_commit {k : Transaction} {l : Phase} {writes : List DbWrite}
    (hl : l.Relies id t s) (hop : Allowed id l (.db (.commit writes)))
    (hk : Writes k writes) :
    (k = .markExpired ∧
      row id (s.next t (.db (.commit writes))) = row id s) ∨
    Turn k (row id s) (row id (s.next t (.db (.commit writes)))) := by
  -- the three calls that hold the row write the one update that they decided
  -- on when they had read it
  have hupdate : ∀ {rid : String} {u : AccessRequestUpdate}
      {st st' : RequestStatus}, rid = id → s.status id = some st →
      u.status = some st' → Source st' st →
      Writes k [.updateAccessRequest rid u] →
      Turn k (row id s)
        (row id (s.next t (.db (.commit [.updateAccessRequest rid u])))) := by
    rintro rid u st st' rfl hst hu hsource hk
    obtain ⟨r, hr, hrst⟩ := row_of_status hst
    obtain ⟨htarget, hauthor⟩ := writes_update hk
    refine ⟨r, u, hr, ⟨?_, htarget, hauthor⟩, row_next_update u hr⟩
    rw [hrst, ← Option.some.inj (hu.symm.trans htarget)]
    exact hsource
  cases hop with
  | here hlocal => exact hlocal.elim
  | approve hu => exact Or.inr (hupdate hl.1 hl.2.2 hu rfl hk)
  | deny hu => exact Or.inr (hupdate hl.1 hl.2.2 hu rfl hk)
  | revoke hu => exact Or.inr (hupdate hl.1 hl.2.2 hu rfl hk)
  | @expire rows =>
      obtain rfl := markExpired_of_writes hk
      rcases row_next_expire id t s rows with hsame | ⟨hmem, r, hr, hnew⟩
      · exact Or.inl ⟨rfl, hsame⟩
      · refine Or.inr ⟨r, expiry, hr, ⟨?_, rfl, rfl⟩, hnew⟩
        have happroved := hl hmem
        rw [Store.status, show s.world.db.accessRequests.get id = some r from hr]
          at happroved
        exact happroved

/-- Other calls leave the row as it is. -/
theorem row_next_of_not_commit {op : Op} (h : commits op = false) :
    row id (s.next t op) = row id s := by
  show (handle op s.world).2.db.accessRequests.get id = _
  rw [handle_db]
  · rfl
  · rintro writes rfl
    cases h

/-- What an answered call of `t` means for the row. -/
theorem turn_of_answer {k : Transaction} {l : Phase} {op : Op}
    {r : Except Exn op.Res} (hl : l.Relies id t s) (hop : Allowed id l op)
    (hk : OwnWrites k op) (h : answers t op s r s') :
    (row id s' = row id s ∧
      ((commits op && answered r) = true → k = .markExpired)) ∨
    Turn k (row id s) (row id s') := by
  by_cases hcommit : commits op = true
  · have hnext : (k = .markExpired ∧ row id (s.next t op) = row id s) ∨
        Turn k (row id s) (row id (s.next t op)) := by
      cases op with
      | db op =>
          cases op with
          | commit writes => exact turn_of_commit hl hop hk
          | _ => cases hcommit
      | _ => cases hcommit
    cases r with
    | ok a =>
        obtain ⟨-, rfl⟩ := answers_ok h
        rcases hnext with ⟨hk, hsame⟩ | hturn
        · exact Or.inl ⟨hsame, fun _ => hk⟩
        · exact Or.inr hturn
    | error e =>
        rcases answers_store h with rfl | rfl
        · refine Or.inl ⟨rfl, fun hset => ?_⟩
          rw [answered, Bool.and_false] at hset
          cases hset
        · rcases hnext with ⟨hk, hsame⟩ | hturn
          · exact Or.inl ⟨hsame, fun _ => hk⟩
          · exact Or.inr hturn
  · have hfalse : commits op = false := (Bool.not_eq_true _).mp hcommit
    refine Or.inl ⟨?_, fun hset => ?_⟩
    · rcases answers_store h with rfl | rfl
      · rfl
      · exact row_next_of_not_commit hfalse
    · rw [hfalse, Bool.false_and] at hset
      cases hset

end Steps

/-! ## The invariant -/

section Invariant

variable {ι : Type} [DecidableEq ι] {id : String}
  {transactions : ι → Transaction}

/-- The phase of a transaction, which one it is, and whether a commit of it has
    succeeded. -/
abbrev Progress : Type := Phase × Transaction × Bool

/-- The protocol of the transactions, with what they commit. -/
def decisionProtocol (id : String) : Protocol backend Exn Progress :=
  (requestProtocol id).both
    (Protocol.family (fun k => watch (OwnWrites k) commits))

/-- Every transaction follows it, and has committed when it returns. -/
theorem transaction_decides (id : String) (k : Transaction) :
    Follows (decisionProtocol id) (k.prog id) (.fresh, k, false)
      (fun l r => Finished l.1 r ∧ Seen l.2.2 r) := by
  have hcommits : Follows (Protocol.family (fun k => watch (OwnWrites k)
      commits)) (k.prog id) (k, false) (fun kl r => Seen kl.2 r) :=
    Follows.family (transaction_commits id k)
  exact (transaction_follows k).both hcommits

/-- What holds along every run: what has been committed stands, and one of two
    rivals at most has committed. -/
structure Decided (id : String) (transactions : ι → Transaction)
    (tr : List (Entry backend Exn (Store ι) ι)) (ph : ι → Progress)
    (s : Store ι) : Prop where
  consistent : Consistent id tr (fun t => (ph t).1) s
  own : ∀ t, (ph t).2.1 = transactions t
  stands : ∀ t, (ph t).2.2 = true → Stands (transactions t) (row id s)
  once : ∀ t u, (ph t).2.2 = true → (ph u).2.2 = true →
    Rivals (transactions t) (transactions u) → t = u

theorem decided_step {tr : List (Entry backend Exn (Store ι) ι)}
    {ph : ι → Progress} {s s' : Store ι} {t : ι} {op : Op}
    {r : Except Exn op.Res} (hinv : Decided id transactions tr ph s)
    (hop : (decisionProtocol id).allowed (ph t) op)
    (h : answers t op s r s') :
    Decided id transactions (tr ++ [⟨s, t, ⟨op, r⟩⟩])
      (Function.update ph t ((decisionProtocol id).next (ph t) op r)) s' := by
  have hown : OwnWrites (transactions t) op := by
    rw [← hinv.own t]
    exact hop.2
  have hturn := turn_of_answer (hinv.consistent.relies t) hop.1 hown h
  -- what stands goes on standing
  have hkeeps : ∀ k, Stands k (row id s) → Stands k (row id s') := by
    intro k hk
    rcases hturn with ⟨hsame, -⟩ | hturn
    · rw [hsame]
      exact hk
    · exact hturn.keeps hk
  -- a transaction that commits now has no rival that has
  have hfirst : (commits op && answered r) = true →
      ∀ u, (ph u).2.2 = true → ¬ Rivals (transactions t) (transactions u) := by
    intro hset u hu hrivals
    rcases hturn with ⟨-, hk⟩ | hturn
    · rw [hk hset] at hrivals
      cases hku : transactions u <;> rw [hku] at hrivals <;> exact hrivals
    · exact hturn.not_stands hrivals (hinv.stands u hu)
  have hnext : ∀ u, (Function.update ph t
      ((decisionProtocol id).next (ph t) op r) u).2.2 = true →
      (ph u).2.2 = true ∨ (u = t ∧ (commits op && answered r) = true) := by
    intro u hu
    by_cases hut : u = t
    · rw [hut, Function.update_self] at hu
      rw [hut]
      rcases (Bool.or_eq_true _ _).mp hu with hseen | hset
      · exact Or.inl hseen
      · exact Or.inr ⟨rfl, hset⟩
    · rw [Function.update_of_ne hut] at hu
      exact Or.inl hu
  refine ⟨?_, ?_, ?_, ?_⟩
  · have hphases : (fun u => (Function.update ph t
        ((decisionProtocol id).next (ph t) op r) u).1)
        = Function.update (fun u => (ph u).1) t (nextPhase (ph t).1 op r) :=
      funext (fun u => Function.apply_update (fun _ => Prod.fst) ph t _ u)
    rw [hphases]
    exact consistent_step hinv.consistent hop.1 h
  · intro u
    by_cases hut : u = t
    · rw [hut, Function.update_self]
      exact hinv.own t
    · rw [Function.update_of_ne hut]
      exact hinv.own u
  · intro u hu
    rcases hnext u hu with hseen | ⟨rfl, hset⟩
    · exact hkeeps _ (hinv.stands u hseen)
    · rcases hturn with ⟨-, hk⟩ | hturn
      · exact Or.inl (hk hset)
      · exact hturn.stands
  · intro u v hu hv hrivals
    rcases hnext u hu with hseen | ⟨rfl, hset⟩
    · rcases hnext v hv with hseen' | ⟨rfl, hset⟩
      · exact hinv.once u v hseen hseen' hrivals
      · exact absurd (rivals_symm hrivals) (hfirst hset u hseen)
    · rcases hnext v hv with hseen' | ⟨rfl, -⟩
      · exact absurd hrivals (hfirst hset v hseen')
      · rfl

end Invariant

/-! ## Runs -/

section Runs

variable {ι : Type} [DecidableEq ι] {id : String}
  {transactions : ι → Transaction} {w : World}
  {tr : List (Entry backend Exn (Store ι) ι)}
  {p : Pool backend Exn Unit (Store ι) ι}

/-- **One decision**: in every run, what a call that has returned decided is
    what the committed row says, with the reviewer who decided, and of the
    approvals and denials one at most has returned; of the revocations, too. -/
theorem one_decision (hrun : Run answers (starting id transactions w) tr p) :
    (∀ t, returned p t = true →
      Stands (transactions t) (row id p.shared)) ∧
    ∀ t u, returned p t = true → returned p u = true →
      Rivals (transactions t) (transactions u) → t = u := by
  have hkeep : KeptBy (decisionProtocol id) (@answers ι _)
      (Decided id transactions) (fun _ => True) :=
    fun tr ph s t op r s' hinv hop h _ => decided_step hinv hop h
  have hstart : Decided id transactions []
      (fun t => (.fresh, transactions t, false)) ⟨w, fun _ => none⟩ := by
    refine ⟨consistent_start id w, fun t => rfl, ?_, ?_⟩
    · intro t ht
      cases ht
    · intro t u ht
      cases ht
  obtain ⟨ph, hinv, hfol⟩ := Run.inv hkeep hstart
    (fun t => transaction_decides id (transactions t)) hrun
    (fun _ _ => trivial)
  -- a transaction that has returned has committed
  have hseen : ∀ t, returned p t = true → (ph t).2.2 = true := by
    intro t ht
    have hf := hfol t
    rw [CvHistory.returned] at ht
    cases hp : p.threads t with
    | ret a =>
        rw [hp] at hf
        exact hf.2 rfl
    | raise e =>
        rw [hp] at ht
        cases ht
    | call op k =>
        rw [hp] at ht
        cases ht
  exact ⟨fun t ht => hinv.stands t (hseen t ht),
    fun t u ht hu => hinv.once t u (hseen t ht) (hseen u hu)⟩

/-- `carol` approves while `dave` denies: hers returns, his does not. -/
theorem one_decision_carol :
    ∃ tr p, Run answers (starting "7"
        (fun first => if first = true then .approveRequest "local" "carol"
          else .denyRequest "dave") (worldOfBob .pending)) tr p ∧
      returned p true = true ∧ returned p false = false ∧
      Stands (.approveRequest "local" "carol") (row "7" p.shared) := by
  obtain ⟨tr, p, hrun, hends⟩ := run_of_schedule "7"
    (fun first => if first = true then .approveRequest "local" "carol"
      else .denyRequest "dave")
    (worldOfBob .pending)
    [true, true, true, true, true, true, false, false]
    (fun _ p => returned p true = true ∧ returned p false = false)
    (by decide)
  exact ⟨tr, p, hrun, hends.1, hends.2, (one_decision hrun).1 true hends.1⟩

end Runs

end CvDecision
