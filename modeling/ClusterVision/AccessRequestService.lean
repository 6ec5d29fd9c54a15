import ClusterVision.RbacService

/-! # AccessRequestService

    The programs of `services/access_request_service.py`.  Those that build a
    Kubernetes client take the cluster of that client first. -/

namespace CvAccess

open CvProg CvTable CvIso CvKube CvBackend CvRbac

/-- `JIT_LABEL`. -/
def jitLabel : String := "clustervision.io/jit"

/-- `EXPIRES_ANNOTATION`. -/
def expiresAnnotation : String := "clustervision.io/expires-at"

/-- `REQUEST_ID_ANNOTATION`. -/
def requestIdAnnotation : String := "clustervision.io/access-request-id"

/-- `MAX_TTL_MINUTES`. -/
def maxTtlMinutes : Int := 24 * 60

/-! ## Reading a request -/

/-- `_get_or_404`. -/
def getOr404 (requestId : String) (forUpdate : Bool) :
    Svc AccessRequestRecord := do
  let record : Option AccessRequestRecord ←
    db (.getAccessRequest requestId forUpdate)
  match record with
  | none => throw (.accessRequestNotFoundError
      ("Access request '" ++ requestId ++ "' not found"))
  | some record => pure record

/-! ## Policies -/

/-- The limit that `_check_policy` applies. -/
def maxTtl (policy : Option JitRolePolicy) : Int :=
  match policy with
  | none => maxTtlMinutes
  | some p => p.maxTtlMinutes.getD maxTtlMinutes

/-- Does the policy of a role, if it has one, admit requests for it? -/
def eligible (policy : Option JitRolePolicy) : Bool :=
  match policy with
  | none => true
  | some p => p.eligible

/-- `_check_policy`. -/
def checkPolicy (roleKind : RoleKind) (roleName : String)
    (ttlMinutes : Int) : Svc Unit := do
  let policy : Option JitRolePolicy ← db (.getPolicy roleKind roleName)
  if eligible policy = false then
    throw (.accessRequestError (roleKind.text ++ " '" ++ roleName
      ++ "' is not eligible for JIT access requests"))
  else if ttlMinutes > maxTtl policy then
    throw (.accessRequestError ("Requested duration (" ++ ttlMinutes.repr
      ++ " min) exceeds the " ++ (maxTtl policy).repr
      ++ "-minute limit for " ++ roleKind.text ++ " '" ++ roleName ++ "'"))
  else pure ()

/-- `set_policy`. -/
def setPolicy (roleKind : RoleKind) (roleName : String) (eligible : Bool)
    (maxTtlMinutes : Option Int) : Svc JitRolePolicy := do
  let _ : Option JitRolePolicy ← db (.getPolicy roleKind roleName)
  let policy : JitRolePolicy := ⟨roleKind, roleName, eligible, maxTtlMinutes⟩
  db (.commit [.putPolicy policy])
  pure policy

/-- `delete_policy`. -/
def deletePolicy (roleKind : RoleKind) (roleName : String) : Svc Unit := do
  let policy : Option JitRolePolicy ← db (.getPolicy roleKind roleName)
  match policy with
  | none => pure ()
  | some _ => db (.commit [.deletePolicy roleKind roleName])

/-! ## Requests -/

/-- The arguments of `create_request`. -/
structure RequestSpec where
  requester : String
  targetUsername : String
  userKind : SubjectKind
  roleName : String
  roleKind : RoleKind
  ttlMinutes : Int
  reason : String
  ns : Option String
  saNamespace : Option String

/-- The record that `create_request` stores. -/
def RequestSpec.record (q : RequestSpec) (id : String) (requestedAt : Time) :
    AccessRequestRecord where
  id := id
  requester := q.requester
  targetUsername := q.targetUsername
  userKind := q.userKind
  saNamespace := q.saNamespace
  roleName := q.roleName
  roleKind := q.roleKind
  ns := q.ns
  ttlMinutes := q.ttlMinutes
  reason := q.reason
  status := .pending
  requestedAt := requestedAt

/-- `create_request`. -/
def createRequest (q : RequestSpec) : Svc AccessRequestRecord := do
  if q.roleKind = .role ∧ truthy q.ns = false then
    throw (.accessRequestError "namespace is required when requesting a Role")
  checkPolicy q.roleKind q.roleName q.ttlMinutes
  let id ← uuid4
  let requestedAt ← now
  db (.commit [.insertAccessRequest (q.record id requestedAt)])
  pure (q.record id requestedAt)

/-- `MIN_TTL_MINUTES`. -/
def minTtlMinutes : Int := 5

/-- `AccessRequestCreate`: a payload that the model has validated. -/
structure AccessRequestCreate where
  targetUsername : String
  userKind : SubjectKind := .user
  saNamespace : Option String := none
  roleName : String
  roleKind : RoleKind := .clusterRole
  ns : Option String := none
  ttlMinutes : Int
  reason : String
  targetUsername_length :
    1 ≤ targetUsername.length ∧ targetUsername.length ≤ 253
  userKind_literal : userKind = .user ∨ userKind = .serviceAccount
  saNamespace_length : ∀ text ∈ saNamespace, text.length ≤ 63
  roleName_length : 1 ≤ roleName.length
  ns_length : ∀ text ∈ ns, text.length ≤ 63
  ttlMinutes_range : minTtlMinutes ≤ ttlMinutes ∧ ttlMinutes ≤ maxTtlMinutes
  reason_length : 1 ≤ reason.length ∧ reason.length ≤ 500

/-- The arguments that `create_access_request` passes on for a payload. -/
def AccessRequestCreate.spec (payload : AccessRequestCreate)
    (requester : String) : RequestSpec where
  requester := requester
  targetUsername := payload.targetUsername
  userKind := payload.userKind
  roleName := payload.roleName
  roleKind := payload.roleKind
  ttlMinutes := payload.ttlMinutes
  reason := payload.reason
  ns := payload.ns
  saNamespace := payload.saNamespace

/-- The name of the binding of a request. -/
def jitBindingName (requestId : String) : String :=
  "clustervision-jit-" ++ requestId

/-- The subject that a request is about. -/
def requestSubject (record : AccessRequestRecord) : Subject :=
  ⟨record.userKind, record.targetUsername, record.saNamespace⟩

/-- The annotations of the binding of a request. -/
def jitAnnotations (record : AccessRequestRecord) (expiresAt : Time) : Dict :=
  [( expiresAnnotation, String.ofList (isoformat (utc expiresAt))),
    ( requestIdAnnotation, record.id)]

/-- The labels that mark a binding of a request. -/
def jitLabels : Dict := [(jitLabel, "true")]

/-- The part of `approve_request` that creates the binding. -/
def grantRequest (cluster : String) (record : AccessRequestRecord)
    (expiresAt : Time) : Svc Unit :=
  if truthy record.ns = true then do
    let _ ← createRoleBinding cluster (record.ns.getD "")
      (jitBindingName record.id) record.roleName record.roleKind
      [requestSubject record] jitLabels
      (some (jitAnnotations record expiresAt))
    pure ()
  else do
    let _ ← createClusterRoleBinding cluster (jitBindingName record.id)
      record.roleName [requestSubject record] jitLabels
      (some (jitAnnotations record expiresAt))
    pure ()

/-- `now + timedelta(minutes=...)`. -/
def plusMinutes (t : Time) (minutes : Int) : Svc Time :=
  match t.addMinutes minutes with
  | some t' => pure t'
  | none => throw .overflowError

/-- What `approve_request` writes to the record. -/
def approval (requestId reviewer : String) (reviewedAt expiresAt : Time) :
    AccessRequestUpdate where
  status := some .approved
  reviewedBy := some reviewer
  reviewedAt := some reviewedAt
  expiresAt := some expiresAt
  bindingName := some (jitBindingName requestId)

/-- `approve_request`. -/
def approveRequest (cluster requestId reviewer : String) :
    Svc AccessRequestRecord := do
  let record ← getOr404 requestId true
  if record.status ≠ .pending then
    throw (.accessRequestError
      ("Request is '" ++ record.status.text ++ "', not pending"))
  if record.requester = reviewer then
    throw (.accessRequestError "Cannot approve your own request")
  checkPolicy record.roleKind record.roleName record.ttlMinutes
  let reviewedAt ← now
  let expiresAt ← plusMinutes reviewedAt record.ttlMinutes
  grantRequest cluster record expiresAt
  db (.commit [.updateAccessRequest record.id
    (approval record.id reviewer reviewedAt expiresAt)])
  pure (record.set (approval record.id reviewer reviewedAt expiresAt))

/-- What `deny_request` writes to the record. -/
def denial (reviewer : String) (reviewedAt : Time) : AccessRequestUpdate where
  status := some .denied
  reviewedBy := some reviewer
  reviewedAt := some reviewedAt

/-- `deny_request`. -/
def denyRequest (requestId reviewer : String) : Svc AccessRequestRecord := do
  let record ← getOr404 requestId true
  if record.status ≠ .pending then
    throw (.accessRequestError
      ("Request is '" ++ record.status.text ++ "', not pending"))
  let reviewedAt ← now
  db (.commit [.updateAccessRequest record.id (denial reviewer reviewedAt)])
  pure (record.set (denial reviewer reviewedAt))

/-- The part of `revoke_request` that deletes the binding; a binding that is
    gone already is skipped. -/
def deleteGrant (cluster : String) (record : AccessRequestRecord) :
    Svc Unit :=
  match record.bindingName with
  | none => throw (.valueError "Missing the required parameter `name`")
  | some name =>
      unlessStatus 404 (pure ())
        (if truthy record.ns = true then
          deleteRoleBinding cluster (record.ns.getD "") name
        else deleteClusterRoleBinding cluster name)

/-- What `revoke_request` writes to the record. -/
def revocation (reviewedAt : Time) : AccessRequestUpdate where
  status := some .revoked
  reviewedAt := some reviewedAt

/-- `revoke_request`. -/
def revokeRequest (cluster requestId : String) (_reviewer : String) :
    Svc AccessRequestRecord := do
  let record ← getOr404 requestId true
  if record.status ≠ .approved then
    throw (.accessRequestError
      ("Request is '" ++ record.status.text ++ "', not an active grant"))
  deleteGrant cluster record
  let reviewedAt ← now
  db (.commit [.updateAccessRequest record.id (revocation reviewedAt)])
  pure (record.set (revocation reviewedAt))

/-- What `mark_expired` writes to a record. -/
def expiry : AccessRequestUpdate where
  status := some .expired

/-- `mark_expired`. -/
def markExpired : Svc Unit := do
  let t ← now
  let records : List AccessRequestRecord ← db (.selectApprovedExpired t)
  db (.commit (records.map (fun r => .updateAccessRequest r.id expiry)))

/-- A service call of a request: `get_db_session` closes the session however
    the call ends. -/
def inSession {α : Type} (p : Svc α) : Svc α := p.ensuring (db .close)

end CvAccess
