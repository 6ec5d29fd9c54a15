import ClusterVision.AuthService
import ClusterVision.ClusterService

/-! # Tokens, gates and the account routes

    `core/auth.py`, `core/dependencies.py`, `routers/auth.py`,
    `routers/permissions.py` and the registration of `routers/cluster.py`.  A
    login copies the roles of the account into an access token and a refresh
    token; the gates go by the access token alone, and a refresh reads the
    store again.  PyJWT is a parameter: what it signs with the secret of the
    backend, it reads back. -/

namespace CvToken

open CvProg CvTable CvIso CvKube CvBackend CvHttp CvCluster CvAuth

/-! ## Tokens -/

/-- The values of the claim `type`. -/
inductive TokenType where
  | access
  | refresh
  | clusterRegister
deriving DecidableEq, Repr

/-- The claims `type` and `roles`: a register token has no roles. -/
inductive Payload where
  | access (roles : String → Option Role)
  | refresh (roles : String → Option Role)
  | clusterRegister

def Payload.type : Payload → TokenType
  | .access _ => .access
  | .refresh _ => .refresh
  | .clusterRegister => .clusterRegister

/-- `payload["roles"]`, which only an access token is asked for. -/
def Payload.roles : Payload → String → Option Role
  | .access roles => roles
  | .refresh roles => roles
  | .clusterRegister => fun _ => none

/-- The claims of a token.  `exp` is in whole seconds. -/
structure Claims where
  sub : String
  payload : Payload
  exp : Nat

/-- `jwt.encode` and `jwt.decode` with the secret of the backend; decoding
    answers `none` for what was not signed with it. -/
structure Jwt (Token : Type) where
  encode : Claims → Token
  decode : Token → Option Claims

/-- What was signed is read back. -/
def Jwt.Lawful {Token : Type} (jwt : Jwt Token) : Prop :=
  ∀ claims, jwt.decode (jwt.encode claims) = some claims

/-- The whole seconds of an instant. -/
def seconds (t : Time) : Nat := t.instant / 1000000

/-- `exp <= now` in `jwt.decode`. -/
def Claims.expired (c : Claims) (now : Time) : Bool :=
  decide (c.exp * 1000000 ≤ now.instant)

/-- `_ACCESS_TOKEN_EXPIRE_MINUTES`. -/
def accessTokenExpireMinutes : Nat := 15

/-- `_REFRESH_TOKEN_EXPIRE_DAYS`. -/
def refreshTokenExpireDays : Nat := 7

/-- `_REGISTER_TOKEN_EXPIRE_MINUTES`. -/
def registerTokenExpireMinutes : Nat := 60

section Tokens

variable {Token : Type} (jwt : Jwt Token)

/-- A token that expires some minutes after it is made. -/
def createToken (sub : String) (payload : Payload) (minutes : Int)
    (now : Time) : Except Exn Token :=
  match now.addMinutes minutes with
  | none => .error .overflowError
  | some t => .ok (jwt.encode ⟨sub, payload, seconds t⟩)

/-- `create_access_token`. -/
def createAccessToken (username : String) (roles : String → Option Role)
    (now : Time) : Except Exn Token :=
  createToken jwt username (.access roles) accessTokenExpireMinutes now

/-- `create_refresh_token`. -/
def createRefreshToken (username : String) (roles : String → Option Role)
    (now : Time) : Except Exn Token :=
  createToken jwt username (.refresh roles) (refreshTokenExpireDays * 1440) now

/-- `create_register_token`. -/
def createRegisterToken (clusterName : String) (now : Time) :
    Except Exn Token :=
  createToken jwt clusterName .clusterRegister registerTokenExpireMinutes now

/-- `decode_token`. -/
def decodeToken (token : Token) (expectedType : TokenType) (now : Time) :
    Except Exn Claims :=
  match jwt.decode token with
  | none => .error (.httpException 401 "Invalid token")
  | some c =>
      if c.expired now then .error (.httpException 401 "Token expired")
      else if c.payload.type ≠ expectedType then
        .error (.httpException 401 "Invalid token type")
      else .ok c

/-! ## Gates -/

/-- `get_current_user`. -/
def getCurrentUser (credentials : Option Token) (now : Time) :
    Except Exn UserInfo :=
  match credentials with
  | none => .error (.httpException 401 "Not authenticated")
  | some token =>
      match decodeToken jwt token .access now with
      | .error e => .error e
      | .ok c => .ok ⟨c.sub, c.payload.roles⟩

end Tokens

/-- `require_admin`. -/
def requireAdmin (user : UserInfo) : Except Exn Unit :=
  if user.roles instanceScope ≠ some .admin then
    .error (.httpException 403 "Admin access required")
  else .ok ()

/-- `require_approver`. -/
def requireApprover (user : UserInfo) : Except Exn Unit :=
  if user.roles instanceScope ≠ some .admin ∧
      user.roles instanceScope ≠ some .approver then
    .error (.httpException 403 "Approver access required")
  else .ok ()

/-- The gates of `core/dependencies.py`. -/
inductive Gate where
  | requireAdmin
  | requireApprover
  | instanceGate (method : Method)
  | authGate (method : Method) (cluster : String)

/-- What a gate says to an account. -/
def Gate.check : Gate → UserInfo → Except Exn Unit
  | .requireAdmin => CvToken.requireAdmin
  | .requireApprover => CvToken.requireApprover
  | .instanceGate method => CvHttp.instanceGate method
  | .authGate method cluster => CvHttp.authGate method cluster

/-- A request at a gate: the account that it admits. -/
def Gate.admits {Token : Type} (gate : Gate) (jwt : Jwt Token)
    (credentials : Option Token) (now : Time) : Except Exn UserInfo :=
  match getCurrentUser jwt credentials now with
  | .error e => .error e
  | .ok user =>
      match gate.check user with
      | .error e => .error e
      | .ok () => .ok user

/-! ## Sessions -/

/-- `LoginRequest`: a password has at least 8 characters. -/
structure LoginRequest where
  username : String
  password : String
  minLength : 8 ≤ password.length

/-- `TokenResponse`. -/
structure TokenResponse (Token : Type) where
  accessToken : Token
  roles : String → Option Role
  username : String

section Sessions

variable {Token : Type} (jwt : Jwt Token)

/-- What is there, or the exception for its absence. -/
def orRaise {α : Type} (e : Exn) : Option α → Except Exn α
  | none => .error e
  | some a => .ok a

/-- The tokens of a login. -/
def issueTokens (user : UserInfo) (now : Time) :
    Except Exn (TokenResponse Token × Token) := do
  let accessToken ← createAccessToken jwt user.username user.roles now
  let refreshToken ← createRefreshToken jwt user.username user.roles now
  pure (⟨accessToken, user.roles, user.username⟩, refreshToken)

/-- `login`, after what `check_login_rate_limit` has answered: the response and
    the refresh cookie. -/
def login (env : AuthEnv) (rateLimit : Except Exn Unit) (body : LoginRequest)
    (now : Time) (db : Database) :
    Except Exn (TokenResponse Token × Token) × Database :=
  match rateLimit with
  | .error e => (.error e, db)
  | .ok () =>
      let p := authenticate env body.username body.password now db
      (do
        let found ← p.1
        let user ← orRaise (.httpException 401 "Invalid credentials") found
        issueTokens jwt user now, p.2)

/-- `refresh`. -/
def refresh (cookie : Option Token) (now : Time) (db : Database) :
    Except Exn (TokenResponse Token) := do
  let token ← orRaise (.httpException 401 "No refresh token") cookie
  let c ← decodeToken jwt token .refresh now
  let user ← orRaise (.httpException 401 "User no longer exists")
    (getUserEntry c.sub db)
  let accessToken ← createAccessToken jwt user.username user.roles now
  pure ⟨accessToken, user.roles, user.username⟩

end Sessions

/-! ## Registering clusters -/

section Registering

variable {Token : Type} (jwt : Jwt Token) {checks : PayloadChecks}

/-- `bootstrap_script`, of which the token is kept. -/
def bootstrapScript (current : UserInfo) (name : String) (now : Time) :
    Except Exn Token :=
  match requireAdmin current with
  | .error e => .error e
  | .ok () =>
      if clusterNameMatches name then createRegisterToken jwt name now
      else
        .error (.httpException 422
          ("Cluster name must be 1-63 alphanumeric characters, hyphens or "
            ++ "underscores."))

/-- The credentials of `register_cluster`, with what `decode_token` says to
    them. -/
def registerCredentials (credentials : Option Token) (now : Time) :
    Option (Except Exn (Option String)) :=
  credentials.map (fun token =>
    (decodeToken jwt token .clusterRegister now).map (fun c => some c.sub))

/-- `register_cluster`. -/
def registerCluster (credentials : Option Token) (now : Time)
    (reachable : Except Exn Unit) (payload : ClusterAdd checks) :
    Svc ClusterInfo :=
  Router.registerCluster (registerCredentials jwt credentials now) reachable
    payload

end Registering

/-! ## Accounts, for administrators -/

/-- A route behind `require_admin`. -/
def asAdmin {α : Type} (current : UserInfo)
    (f : Database → Except Exn α × Database) (db : Database) :
    Except Exn α × Database :=
  match requireAdmin current with
  | .error e => (.error e, db)
  | .ok () => f db

/-- `add_user`. -/
def addUser (lib : AuthLib) (current : UserInfo) (body : LoginRequest) :
    Database → Except Exn Unit × Database :=
  asAdmin current (CvAuth.createUser lib body.username body.password)

/-- `remove_user`. -/
def removeUser (current : UserInfo) (username : String) :
    Database → Except Exn Unit × Database :=
  asAdmin current fun db =>
    if username = current.username then
      (.error (.httpException 400 "Cannot delete your own account"), db)
    else CvAuth.deleteUser username db

/-- `reset_password`. -/
def resetPassword (lib : AuthLib) (current : UserInfo) (username : String)
    (body : LoginRequest) : Database → Except Exn Unit × Database :=
  asAdmin current (changePassword lib username body.password)

/-- `put_user_role`. -/
def putUserRole (current : UserInfo) (username scope : String) (role : Role) :
    Database → Except Exn Unit × Database :=
  asAdmin current (setScopeRole username scope role)

/-- `delete_user_role`. -/
def deleteUserRole (current : UserInfo) (username scope : String) :
    Database → Except Exn Unit × Database :=
  asAdmin current (deleteScopeRole username scope)

end CvToken
