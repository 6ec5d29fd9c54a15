import ClusterVision.AuditProofs
import ClusterVision.SessionProofs

/-! # Whom an audit entry names

    The gates read the `Authorization` header through `HTTPBearer`, and the
    audit log reads it again in `_actor_from_request`.  The two agree on the
    scope of a role for every path and every query, and on the token where the
    scheme is spelled `Bearer`; the gates take every other spelling of it too,
    and the entry of such a request names nobody. -/

namespace CvAudit

open CvProg CvTable CvIso CvKube CvBackend CvRbac CvHttp CvToken
open CvSession

/-! ## The header, as the gates read it -/

/-- `text.partition(" ")`, without the separator. -/
def partitionSpace (text : String) : String × String :=
  (String.ofList (text.toList.takeWhile (fun c => c ≠ ' ')),
    String.ofList ((text.toList.dropWhile (fun c => c ≠ ' ')).drop 1))

/-- `HTTPBearer(auto_error=False)`: the credentials of an `Authorization`
    header. -/
def httpBearer (authorization : Option String) : Option String :=
  match authorization with
  | none => none
  | some header =>
      let p := partitionSpace header
      if p.1 = "" ∨ p.2 = "" then none
      else if lower p.1 ≠ "bearer" then none
      else some p.2

/-- The header names the scheme as `Bearer`, with this capital. -/
def SpelledBearer (authorization : Option String) : Prop :=
  ∃ header, authorization = some header ∧ (partitionSpace header).1 = "Bearer"

/-! ## The routes behind the audited paths -/

/-- `request.query_params`: the fields that Starlette parses out of the query
    string, in their order. -/
abbrev QueryParams := List (String × String)

/-- `query_params.get(key)`: of a field that is repeated, the last value. -/
def QueryParams.value (params : QueryParams) (key : String) : Option String :=
  params.reverse.lookup key

/-- The routers with audited paths. -/
inductive AuditedRouter where
  | users
  | rbac
  | tokens
  | cluster
  | vaultAdmin
  | permissions
  | auth
  | accessRequests

/-- How the audited paths of a router begin. -/
def AuditedRouter.root : AuditedRouter → String
  | .users => "/api/v1/users"
  | .rbac => "/api/v1/rbac"
  | .tokens => "/api/v1/tokens"
  | .cluster => "/api/v1/cluster"
  | .vaultAdmin => "/api/v1/admin/vault"
  | .permissions => "/api/v1/permissions"
  | .auth => "/api/v1/auth/users"
  | .accessRequests => "/api/v1/access-requests/policies"

/-- The gates of the mutating routes of a router, as `main.py` and the routes
    declare them.  The only `POST` under the policies is the approval, denial
    or revocation of a request whose id is `policies`. -/
def AuditedRouter.gates (method : Method) (cluster : String) :
    AuditedRouter → List Gate
  | .users => [.authGate method cluster]
  | .rbac => [.authGate method cluster]
  | .tokens => [.authGate method cluster]
  | .cluster => [.instanceGate method]
  | .vaultAdmin => [.instanceGate method, .requireAdmin]
  | .permissions => [.instanceGate method, .requireAdmin]
  | .auth => [.requireAdmin]
  | .accessRequests =>
      if method = .post then [.requireApprover] else [.requireAdmin]

/-- `request.method`. -/
def Method.text : Method → String
  | .get => "GET"
  | .post => "POST"
  | .put => "PUT"
  | .patch => "PATCH"
  | .delete => "DELETE"

/-- A mutating request on an audited path.  The registration of a cluster has
    no gate. -/
structure Mutation where
  method : Method
  router : AuditedRouter
  rest : String
  query : QueryParams
  authorization : Option String
  body : List UInt8
  mutates : method ≠ .get
  notRegister : router.root ++ rest ≠ "/api/v1/cluster/register"

/-- `request.url.path`. -/
def Mutation.path (m : Mutation) : String := m.router.root ++ m.rest

/-- `cluster: str = Query("local")`. -/
def Mutation.cluster (m : Mutation) : String :=
  (m.query.value "cluster").getD localCluster

/-- The gates that the request passes. -/
def Mutation.gates (m : Mutation) : List Gate :=
  m.router.gates m.method m.cluster

/-- The request, as the middleware reads it. -/
def Mutation.request (m : Mutation) : Request where
  method := Method.text m.method
  path := m.path
  cluster := m.query.value "cluster"
  authorization := m.authorization
  body := m.body

/-- The text of a role. -/
def roleText : Role → String
  | .viewer => "viewer"
  | .operator => "operator"
  | .approver => "approver"
  | .admin => "admin"

section Actor

variable (jwt : Jwt String)

/-- A gate admits a header as an account, on the strength of a role. -/
def AdmitsAs (gate : Gate) (authorization : Option String) (now : Time)
    (user : UserInfo) (role : Role) : Prop :=
  gate.admits jwt (httpBearer authorization) now = .ok user ∧
    user.roles (gateScope gate) = some role

/-- The token of a header is valid at a time. -/
def StillValid (authorization : Option String) (now : Time) : Prop :=
  ∃ user, getCurrentUser jwt (httpBearer authorization) now = .ok user

/-- `decode_token` of an access token at a time, as the middleware uses it. -/
def AuditEnv.withTokens (env : AuditEnv) (now : Time) : AuditEnv :=
  { env with
    decodeToken := fun token =>
      match CvToken.decodeToken jwt token .access now with
      | .error _ => none
      | .ok c => some ⟨some c.sub, fun scope =>
          (c.payload.roles scope).map roleText⟩ }

end Actor

/-! ## The scheme -/

/-- What is before a space, and what is after it. -/
theorem split_at_space {xs : List Char}
    (h : (xs.dropWhile (fun c => c ≠ ' ')).drop 1 ≠ []) :
    xs = xs.takeWhile (fun c => c ≠ ' ')
      ++ ' ' :: (xs.dropWhile (fun c => c ≠ ' ')).drop 1 := by
  induction xs with
  | nil => exact absurd rfl h
  | cons c xs ih =>
      by_cases hc : c = ' '
      · subst hc
        rfl
      · have hp : decide (c ≠ ' ') = true := decide_eq_true hc
        rw [List.dropWhile_cons, if_pos hp] at h ⊢
        rw [List.takeWhile_cons, if_pos hp, List.cons_append, ← ih h]

/-- `_actor_from_request` finds the token of the gates where the scheme is
    spelled with a capital, and none elsewhere. -/
theorem bearerToken_of_httpBearer {authorization : Option String}
    {token : String} (h : httpBearer authorization = some token) :
    (SpelledBearer authorization ∧ bearerToken authorization = some token) ∨
      (¬ SpelledBearer authorization ∧ bearerToken authorization = none) := by
  cases authorization with
  | none => cases h
  | some header =>
      rw [httpBearer] at h
      by_cases hempty : (partitionSpace header).1 = "" ∨
          (partitionSpace header).2 = ""
      · rw [if_pos hempty] at h
        cases h
      · rw [if_neg hempty] at h
        by_cases hscheme : lower (partitionSpace header).1 ≠ "bearer"
        · rw [if_pos hscheme] at h
          cases h
        · rw [if_neg hscheme] at h
          obtain rfl := Option.some.inj h
          have hdrop : (header.toList.dropWhile (fun c => c ≠ ' ')).drop 1
              ≠ [] := by
            intro hnil
            exact hempty (Or.inr (congrArg String.ofList hnil))
          have hsplit := split_at_space hdrop
          rw [bearerToken, startswith]
          by_cases hspelled : (partitionSpace header).1 = "Bearer"
          · have htake : header.toList.takeWhile (fun c => c ≠ ' ')
                = "Bearer".toList := String.ofList_injective hspelled
            refine Or.inl ⟨⟨header, rfl, hspelled⟩, ?_⟩
            rw [hsplit, htake]
            rfl
          · refine Or.inr ⟨?_, if_neg ?_⟩
            · rintro ⟨header', hheader, hsame⟩
              obtain rfl := Option.some.inj hheader
              exact hspelled hsame
            · intro hstart
              obtain ⟨tail, htail⟩ := List.isPrefixOf_iff_prefix.mp hstart
              apply hspelled
              rw [partitionSpace, ← htail]
              rfl

/-! ## The scope -/

theorem startswithAny_append (text tail : String) (starts : List String) :
    startswithAny (text ++ tail) starts = starts.any (fun start =>
      start.toList.isPrefixOf (text.toList ++ tail.toList)) := by
  rw [← String.toList_append]
  rfl

/-- Every mutation is audited. -/
theorem mutation_audited (m : Mutation) :
    shouldAudit m.request.method m.request.path = true := by
  have hmethod : auditedMethods.contains (Method.text m.method) = true := by
    cases hm : m.method with
    | get => exact absurd hm m.mutates
    | post | put | patch | delete => decide
  have hpath : startswithAny m.path auditedPrefixes = true := by
    rw [Mutation.path, startswithAny_append]
    cases m.router <;> rfl
  exact Bool.and_eq_true_iff.mpr ⟨hmethod, hpath⟩

/-- The scope of the log is the one of every gate of the route. -/
theorem gate_scope (m : Mutation) {gate : Gate} (h : gate ∈ m.gates) :
    (if startswithAny m.path clusterScopedPrefixes then
      (m.query.value "cluster").getD localCluster else instanceScope)
      = gateScope gate := by
  rw [Mutation.path, startswithAny_append]
  rw [Mutation.gates] at h
  cases hrouter : m.router with
  | users | rbac | tokens =>
      rw [hrouter] at h
      obtain rfl := List.mem_singleton.mp h
      rfl
  | cluster | auth =>
      rw [hrouter] at h
      obtain rfl := List.mem_singleton.mp h
      rfl
  | vaultAdmin | permissions =>
      rw [hrouter] at h
      rcases List.mem_pair.mp h with rfl | rfl
      · rfl
      · rfl
  | accessRequests =>
      rw [hrouter, AuditedRouter.gates] at h
      split at h
      · obtain rfl := List.mem_singleton.mp h
        rfl
      · obtain rfl := List.mem_singleton.mp h
        rfl

/-! ## The actor -/

section Named

variable {jwt : Jwt String} {m : Mutation} {gate : Gate} {user : UserInfo}
  {role : Role} {now later : Time}

/-- Every gate of a mutation goes by a role of the account that it admits. -/
theorem admits_on_role (hgate : gate ∈ m.gates)
    (h : gate.admits jwt (httpBearer m.authorization) now = .ok user) :
    ∃ role, AdmitsAs jwt gate m.authorization now user role := by
  have hclosed : ¬ OpenGate gate := by
    rintro rfl
    rw [Mutation.gates] at hgate
    cases hrouter : m.router with
    | users | rbac | tokens =>
        rw [hrouter] at hgate
        exact nomatch List.mem_singleton.mp hgate
    | cluster =>
        rw [hrouter] at hgate
        exact m.mutates (Gate.instanceGate.inj
          (List.mem_singleton.mp hgate)).symm
    | vaultAdmin | permissions =>
        rw [hrouter] at hgate
        rcases List.mem_pair.mp hgate with hsame | hsame
        · exact m.mutates (Gate.instanceGate.inj hsame).symm
        · exact nomatch hsame
    | auth =>
        rw [hrouter] at hgate
        exact nomatch List.mem_singleton.mp hgate
    | accessRequests =>
        rw [hrouter, AuditedRouter.gates] at hgate
        split at hgate
        · exact nomatch List.mem_singleton.mp hgate
        · exact nomatch List.mem_singleton.mp hgate
  cases htoken : httpBearer m.authorization with
  | none =>
      rw [htoken] at h
      exact nomatch h
  | some token =>
      rw [htoken] at h
      obtain ⟨role, hrole⟩ := check_role hclosed (admit_ok h).2
      refine ⟨role, ?_, hrole⟩
      rw [htoken]
      exact h

/-- The claims of a token do not change while it is valid. -/
theorem withTokens_decodeToken {token : String} (env : AuditEnv)
    (hnow : getCurrentUser jwt (some token) now = .ok user)
    (hlater : ∃ user', getCurrentUser jwt (some token) later = .ok user') :
    (env.withTokens jwt later).decodeToken token
      = some ⟨some user.username, fun scope =>
          (user.roles scope).map roleText⟩ := by
  obtain ⟨c, hsigned, -, htype, rfl⟩ := getCurrentUser_ok hnow
  obtain ⟨user', hlater⟩ := hlater
  obtain ⟨c', hsigned', hfresh, -, -⟩ := getCurrentUser_ok hlater
  obtain rfl := Option.some.inj (hsigned'.symm.trans hsigned)
  have hdecode : CvToken.decodeToken jwt token .access later = .ok c' :=
    decodeToken_ok_iff.mpr ⟨hsigned', hfresh, htype⟩
  rw [AuditEnv.withTokens]
  simp only [hdecode]

/-- What `_actor_from_request` answers for a request that a gate admits. -/
theorem actorFromRequest_of_admits (env : AuditEnv) (hgate : gate ∈ m.gates)
    (hadmits : AdmitsAs jwt gate m.authorization now user role)
    (hvalid : StillValid jwt m.authorization later) :
    (SpelledBearer m.authorization ∧
      actorFromRequest (env.withTokens jwt later) m.request
        = (some user.username, some (roleText role))) ∨
    (¬ SpelledBearer m.authorization ∧
      actorFromRequest (env.withTokens jwt later) m.request
        = (none, none)) := by
  obtain ⟨hpass, hrole⟩ := hadmits
  rw [StillValid] at hvalid
  rw [actorFromRequest]
  cases htoken : httpBearer m.authorization with
  | none =>
      rw [htoken] at hpass
      exact nomatch hpass
  | some token =>
      rw [htoken] at hpass hvalid
      rcases bearerToken_of_httpBearer htoken with
        ⟨hspelled, hbearer⟩ | ⟨hspelled, hbearer⟩
      · refine Or.inl ⟨hspelled, ?_⟩
        have hread : bearerToken m.request.authorization = some token := hbearer
        rw [hread, Option.bind_some,
          withTokens_decodeToken env (admit_ok hpass).1 hvalid]
        have hscope := gate_scope m hgate
        show (some user.username, (user.roles (if startswithAny m.path
          clusterScopedPrefixes then (m.query.value "cluster").getD localCluster
          else instanceScope)).map roleText) = _
        rw [hscope, hrole]
        rfl
      · refine Or.inr ⟨hspelled, ?_⟩
        have hread : bearerToken m.request.authorization = none := hbearer
        rw [hread]
        rfl

/-- **THE ACTOR OF AN ENTRY**: the entry of a request that a gate admits, with
    a token that is still valid when it is written, names the account and the
    role of the gate exactly when the scheme is spelled `Bearer`. -/
theorem entry_names_admitted_iff (env : AuditEnv) (hgate : gate ∈ m.gates)
    (hadmits : AdmitsAs jwt gate m.authorization now user role)
    (hvalid : StillValid jwt m.authorization later)
    {inner : Except Exn Nat} {stamp : Stamp} {log : List AuditLogEntry}
    {entry : AuditLogEntry}
    (hentry : (dispatch (env.withTokens jwt later) m.request inner stamp log).2
      = log ++ [entry]) :
    (entry.actor = some user.username ∧
      entry.actorRole = some (roleText role))
      ↔ SpelledBearer m.authorization := by
  rcases dispatch_log (env.withTokens jwt later) m.request inner stamp log with
    ⟨payload, status, -, -, -, -, -, hlog⟩ | ⟨-, hlog⟩
  · have hsame : auditEntry (env.withTokens jwt later) m.request stamp status
        payload = entry := by
      rw [hlog] at hentry
      exact List.head_eq_of_cons_eq (List.append_cancel_left hentry)
    rw [← hsame]
    show ((actorFromRequest _ m.request).1 = _ ∧
      (actorFromRequest _ m.request).2 = _) ↔ _
    rcases actorFromRequest_of_admits env hgate hadmits hvalid with
      ⟨hspelled, hactor⟩ | ⟨hspelled, hactor⟩
    · rw [hactor]
      exact ⟨fun _ => hspelled, fun _ => ⟨rfl, rfl⟩⟩
    · rw [hactor]
      refine ⟨?_, fun h => absurd h hspelled⟩
      rintro ⟨hname, -⟩
      exact nomatch hname
  · rw [hlog] at hentry
    have hlength := congrArg List.length hentry
    rw [List.length_append] at hlength
    exact absurd hlength (Nat.ne_of_lt (Nat.lt_succ_self _))

end Named

/-- The account of the token below. -/
def adasInfo : UserInfo :=
  ⟨"ada", fun scope => if scope = "prod" then some .operator else none⟩

/-- The claims of her token. -/
def adasClaims : Claims :=
  ⟨"ada", .access adasInfo.roles, seconds Time.epoch + 900⟩

/-- The token `ada` is signed, for an operator of the cluster `prod`. -/
def adasJwt : Jwt String where
  encode := fun c => c.sub
  decode := fun token => if token = "ada" then some adasClaims else none

/-- Ada creates a user in the cluster `prod`. -/
def adasMutation (authorization : String) : Mutation where
  method := .post
  router := .users
  rest := ""
  query := [("cluster", "local"), ("cluster", "prod")]
  authorization := some authorization
  body := []
  mutates := nofun
  notRegister := by decide

/-- The gate of that request. -/
def adasGate : Gate := .authGate .post "prod"

theorem adas_gate (authorization : String) :
    adasGate ∈ (adasMutation authorization).gates := List.mem_singleton.mpr rfl

/-- The gate admits Ada with every header that brings her token. -/
theorem adas_admits {authorization : String}
    (h : httpBearer (some authorization) = some "ada") :
    AdmitsAs adasJwt adasGate (some authorization) Time.epoch adasInfo
        .operator ∧
      StillValid adasJwt (some authorization) Time.epoch := by
  have hdecode : CvToken.decodeToken adasJwt "ada" .access Time.epoch
      = .ok adasClaims :=
    decodeToken_ok_iff.mpr ⟨rfl, by decide, rfl⟩
  have hcurrent : getCurrentUser adasJwt (some "ada") Time.epoch
      = .ok adasInfo := by
    rw [getCurrentUser]
    simp only [hdecode]
    rfl
  rw [AdmitsAs, StillValid, h, Gate.admits, hcurrent]
  exact ⟨⟨rfl, rfl⟩, adasInfo, rfl⟩

/-- The entry of Ada's request. -/
def adasEntry (authorization : String) : AuditLogEntry :=
  auditEntry (sampleEnv.withTokens adasJwt Time.epoch)
    (adasMutation authorization).request ⟨"0", Time.epoch⟩ 201 .null

/-- The database takes it, if its texts fit. -/
theorem adas_dispatch {authorization : String}
    (hfits : (adasMutation authorization).request.fits
      (sampleEnv.withTokens adasJwt Time.epoch) = true) :
    (dispatch (sampleEnv.withTokens adasJwt Time.epoch)
      (adasMutation authorization).request (.ok 201) ⟨"0", Time.epoch⟩ []).2
      = [] ++ [adasEntry authorization] := by
  rcases dispatch_log (sampleEnv.withTokens adasJwt Time.epoch)
    (adasMutation authorization).request (.ok 201) ⟨"0", Time.epoch⟩ [] with
    ⟨payload, status, -, hp, -, hc, -, hlog⟩ | ⟨hnot, -⟩
  · obtain rfl : Json.null = payload := Except.ok.inj hp
    obtain rfl : 201 = status := Except.ok.inj hc
    exact hlog
  · exact absurd ⟨mutation_audited _, Or.inl rfl, nofun, hfits⟩ hnot

/-- Ada's request, with the scheme as the frontend spells it. -/
theorem entry_names_ada :
    (adasEntry "Bearer ada").actor = some "ada" ∧
      (adasEntry "Bearer ada").actorRole = some "operator" := by
  have htoken : httpBearer (some "Bearer ada") = some "ada" := by decide
  obtain ⟨hadmits, hvalid⟩ := adas_admits htoken
  exact (entry_names_admitted_iff sampleEnv (adas_gate "Bearer ada") hadmits
    hvalid (adas_dispatch (by decide))).mpr ⟨"Bearer ada", rfl, by decide⟩

/-- With a small letter, the gate admits Ada, and the log does not know her. -/
theorem small_letter_is_anonymous :
    adasGate ∈ (adasMutation "bearer ada").gates ∧
    AdmitsAs adasJwt adasGate (adasMutation "bearer ada").authorization
      Time.epoch adasInfo .operator ∧
    StillValid adasJwt (adasMutation "bearer ada").authorization Time.epoch ∧
    (dispatch (sampleEnv.withTokens adasJwt Time.epoch)
      (adasMutation "bearer ada").request (.ok 201) ⟨"0", Time.epoch⟩ []).2
      = [] ++ [adasEntry "bearer ada"] ∧
    (adasEntry "bearer ada").actor = none := by
  have htoken : httpBearer (some "bearer ada") = some "ada" := by decide
  obtain ⟨hadmits, hvalid⟩ := adas_admits htoken
  refine ⟨adas_gate _, hadmits, hvalid, adas_dispatch (by decide), ?_⟩
  have hnone : bearerToken (some "bearer ada") = none := by decide
  have hread : bearerToken (adasMutation "bearer ada").request.authorization
      = none := hnone
  show (actorFromRequest (sampleEnv.withTokens adasJwt Time.epoch)
    (adasMutation "bearer ada").request).1 = none
  rw [actorFromRequest, hread]
  rfl

end CvAudit
