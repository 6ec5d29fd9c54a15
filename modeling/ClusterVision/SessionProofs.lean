import ClusterVision.AuthRoutes
import ClusterVision.AccountSourceProofs

/-! # Tokens in the hands of clients

    A token carries the roles of an account away from the store.  Every token
    is made from the store at the moment it is handed out, and the gates refuse
    an access token after fifteen minutes, so no gate goes by older roles.  A
    refresh token lasts seven days and names its account only: it is good for
    an account made later under that name. -/

namespace CvSession

open CvProg CvRun CvTable CvIso CvKube CvBackend CvHttp CvAuth CvToken CvScope
  CvAccount CvSource

/-! ## Runs -/

/-- A request, a call of a service, or a move of the clock.  A login comes with
    the directory as it answers at that moment, and with the answer of the rate
    limit. -/
inductive SessionStep (Token : Type) where
  | tick (now : Time)
  | login (settings : LdapSettings) (directory : Directory)
      (rateLimit : Except Exn Unit) (body : LoginRequest)
  | refresh (cookie : Option Token)
  | logout
  | bootstrapScript (current : UserInfo) (name : String)
  | createUser (username password : String)
  | deleteUser (username : String)
  | changePassword (username newPassword : String)
  | setScopeRole (username scope : String) (role : Role)
  | deleteScopeRole (username scope : String)

/-- The database, the clock, and every token handed out so far. -/
structure Session (Token : Type) where
  db : Database
  now : Time
  issued : List Token

/-- Nobody has a token yet. -/
def Session.start (Token : Type) (db : Database) (now : Time) :
    Session Token := ⟨db, now, []⟩

section Machine

variable {Token : Type} (jwt : Jwt Token) (lib : AuthLib)

/-- The database after a step. -/
def dbAfter (s : Session Token) : SessionStep Token → Database
  | .login settings directory rateLimit body =>
      (login jwt ⟨lib, settings, directory⟩ rateLimit body s.now s.db).2
  | .createUser username password =>
      (CvAuth.createUser lib username password s.db).2
  | .deleteUser username => (CvAuth.deleteUser username s.db).2
  | .changePassword username newPassword =>
      (changePassword lib username newPassword s.db).2
  | .setScopeRole username scope role =>
      (setScopeRole username scope role s.db).2
  | .deleteScopeRole username scope => (deleteScopeRole username scope s.db).2
  | _ => s.db

/-- The clock after a step: it is never set back. -/
def clockAfter (s : Session Token) : SessionStep Token → Time
  | .tick now => if s.now ≤ now then now else s.now
  | _ => s.now

/-- What comes of an answer, if it is no exception. -/
def onSuccess {α β : Type} (f : α → List β) : Except Exn α → List β
  | .error _ => []
  | .ok answer => f answer

/-- The tokens that a step hands out. -/
def handedOut (s : Session Token) : SessionStep Token → List Token
  | .login settings directory rateLimit body =>
      onSuccess (fun answer => [answer.1.accessToken, answer.2])
        (login jwt ⟨lib, settings, directory⟩ rateLimit body s.now s.db).1
  | .refresh cookie =>
      onSuccess (fun answer => [answer.accessToken])
        (refresh jwt cookie s.now s.db)
  | .bootstrapScript current name =>
      onSuccess (fun token => [token]) (bootstrapScript jwt current name s.now)
  | _ => []

/-- A step. -/
def sessionStep (k : SessionStep Token) (s : Session Token) : Session Token :=
  ⟨dbAfter jwt lib s k, clockAfter s k, s.issued ++ handedOut jwt lib s k⟩

/-! ## Gates -/

/-- A gate admits an account that shows a role on a scope. -/
def AdmitsBy (gate : Gate) (token : Token) (now : Time)
    (username scope : String) (role : Role) : Prop :=
  ∃ user, gate.admits jwt (some token) now = .ok user ∧
    user.username = username ∧ user.roles scope = some role

/-- The role was in the database at a moment of the run in the last fifteen
    minutes. -/
def HeldRecently (steps : List (SessionStep Token)) (s : Session Token)
    (username scope : String) (role : Role) : Prop :=
  ∃ pre, pre <+: steps ∧
    rolesFor (after (sessionStep jwt lib) pre s).db username scope
      = some role ∧
    (after (sessionStep jwt lib) pre s).now
      ≤ (after (sessionStep jwt lib) steps s).now ∧
    (after (sessionStep jwt lib) steps s).now.instant
      ≤ (after (sessionStep jwt lib) pre s).now.instant
        + accessTokenExpireMinutes * 60000000

/-- Tokens cannot be forged: one that the secret verifies was handed out. -/
def Genuine (s : Session Token) (token : Token) : Prop :=
  jwt.decode token ≠ none → token ∈ s.issued

end Machine

/-- The scope of which a gate looks at the role. -/
def gateScope : Gate → String
  | .authGate _ cluster => cluster
  | _ => instanceScope

/-- `instance_gate` lets every account read. -/
def OpenGate (gate : Gate) : Prop := gate = .instanceGate .get

/-! ## Tokens -/

section Tokens

variable {Token : Type} {jwt : Jwt Token}

/-- What is signed is read back, and it expires on time. -/
theorem createToken_ok (hjwt : jwt.Lawful) {sub : String} {payload : Payload}
    {minutes : Int} {now : Time} {token : Token}
    (h : createToken jwt sub payload minutes now = .ok token) :
    ∃ exp, jwt.decode token = some ⟨sub, payload, exp⟩ ∧
      ((exp * 1000000 : Nat) : Int) ≤ now.instant + minutes * 60000000 := by
  rw [createToken] at h
  cases hexp : now.addMinutes minutes with
  | none =>
      rw [hexp] at h
      cases h
  | some t =>
      rw [hexp] at h
      obtain rfl := Except.ok.inj h
      refine ⟨seconds t, hjwt _, ?_⟩
      have ht : (t.instant : Int) = now.instant + minutes * 60000000 :=
        Time.instant_addMinutes hexp
      have hfloor : seconds t * 1000000 ≤ t.instant :=
        Nat.div_mul_le_self t.instant 1000000
      omega

/-- A token is good when it is signed, not expired, and of the type asked
    for. -/
theorem decodeToken_ok_iff {token : Token} {type : TokenType} {now : Time}
    {c : Claims} :
    decodeToken jwt token type now = .ok c ↔
      jwt.decode token = some c ∧ c.expired now = false ∧
        c.payload.type = type := by
  rw [decodeToken]
  cases hdecode : jwt.decode token with
  | none => exact ⟨nofun, fun h => absurd h.1.symm (Option.some_ne_none c)⟩
  | some c' =>
      simp only
      by_cases hexp : c'.expired now = true
      · rw [if_pos hexp]
        refine ⟨nofun, ?_⟩
        rintro ⟨heq, hfresh, -⟩
        obtain rfl := Option.some.inj heq
        rw [hexp] at hfresh
        cases hfresh
      · rw [if_neg hexp]
        by_cases htype : c'.payload.type ≠ type
        · rw [if_pos htype]
          refine ⟨nofun, ?_⟩
          rintro ⟨heq, -, hsame⟩
          obtain rfl := Option.some.inj heq
          exact absurd hsame htype
        · rw [if_neg htype]
          constructor
          · intro h
            obtain rfl := Except.ok.inj h
            exact ⟨rfl, Bool.eq_false_iff.mpr hexp, not_not.mp htype⟩
          · rintro ⟨heq, -, -⟩
            rw [Option.some.inj heq]

/-- The account at a gate is the one of a good access token. -/
theorem getCurrentUser_ok {token : Token} {now : Time} {user : UserInfo}
    (h : getCurrentUser jwt (some token) now = .ok user) :
    ∃ c, jwt.decode token = some c ∧ c.expired now = false ∧
      c.payload.type = .access ∧ user = ⟨c.sub, c.payload.roles⟩ := by
  rw [getCurrentUser] at h
  cases hdecode : decodeToken jwt token .access now with
  | error e =>
      simp only [hdecode] at h
      cases h
  | ok c =>
      simp only [hdecode] at h
      obtain ⟨hsigned, hfresh, htype⟩ := decodeToken_ok_iff.mp hdecode
      exact ⟨c, hsigned, hfresh, htype, (Except.ok.inj h).symm⟩

/-- A gate admits the account of the token, if it has nothing against it. -/
theorem admit_ok {gate : Gate} {token : Token} {now : Time} {user : UserInfo}
    (h : gate.admits jwt (some token) now = .ok user) :
    getCurrentUser jwt (some token) now = .ok user ∧
      gate.check user = .ok () := by
  rw [Gate.admits] at h
  cases hcurrent : getCurrentUser jwt (some token) now with
  | error e =>
      simp only [hcurrent] at h
      cases h
  | ok user' =>
      simp only [hcurrent] at h
      cases hcheck : gate.check user' with
      | error e =>
          rw [hcheck] at h
          cases h
      | ok u =>
          rw [hcheck] at h
          obtain rfl := Except.ok.inj h
          exact ⟨rfl, hcheck⟩

/-- A gate that is not open goes by a role. -/
theorem check_role {gate : Gate} {user : UserInfo}
    (hgate : ¬ OpenGate gate) (h : gate.check user = .ok ()) :
    ∃ role, user.roles (gateScope gate) = some role := by
  refine Option.ne_none_iff_exists'.mp (fun hnone => ?_)
  cases gate with
  | requireAdmin =>
      have hrole : user.roles instanceScope = none := hnone
      rw [Gate.check, CvToken.requireAdmin, hrole] at h
      cases h
  | requireApprover =>
      have hrole : user.roles instanceScope = none := hnone
      rw [Gate.check, CvToken.requireApprover, hrole] at h
      cases h
  | instanceGate method =>
      have hrole : user.roles instanceScope = none := hnone
      have hmethod : method ≠ .get := by
        rintro rfl
        exact hgate rfl
      rw [Gate.check, CvHttp.instanceGate, hrole, if_pos ⟨hmethod, nofun⟩] at h
      cases h
  | authGate method cluster =>
      have hrole : user.roles cluster = none := hnone
      rw [Gate.check, CvHttp.authGate, hrole] at h
      cases h

end Tokens

/-! ## Sessions -/

theorem provisioned_username (db : Database) (username : String) (now : Time) :
    (provisioned (db.localUsers.get username) username now).username
      = username := by
  cases hget : db.localUsers.get username with
  | none => rfl
  | some entry =>
      have hname : entry.username = username := Table.key_of_get hget
      exact hname

/-- A login that succeeds leaves an account, and answers with its roles. -/
theorem authenticate_done {env : AuthEnv} {username password : String}
    {now : Time} {db db' : Database} {user : UserInfo}
    (h : authenticate env username password now db
      = (.ok (some user), db')) :
    user = ⟨username, rolesFor db' username⟩ ∧
      db'.localUsers.get username ≠ none := by
  rcases authenticate_eq env username password now db with
    ⟨entry, hget, -, heq⟩ | ⟨-, heq⟩
  · have hname : entry.username = username := Table.key_of_get hget
    rw [heq] at h
    obtain ⟨-, rfl, rfl⟩ := authenticateLocal_done h
    refine ⟨by rw [hname], ?_⟩
    show (db.localUsers.put _).get username ≠ none
    rw [Table.get_put, if_pos hname.symm]
    exact Option.some_ne_none _
  · rw [heq] at h
    obtain ⟨result, -, hresync, rfl⟩ := authenticateLdap_done h
    refine ⟨rfl, ?_⟩
    rw [resyncLdapRoles_users hresync]
    show (db.localUsers.put _).get username ≠ none
    rw [Table.get_put, if_pos (provisioned_username db username now).symm]
    exact Option.some_ne_none _

/-- A computation in two parts answers if both parts do. -/
theorem bind_ok_iff {ε α β : Type} {x : Except ε α} {f : α → Except ε β}
    {b : β} : (x >>= f) = .ok b ↔ ∃ a, x = .ok a ∧ f a = .ok b := by
  cases x with
  | error e =>
      refine iff_of_false (fun h => ?_) ?_
      · cases h
      · rintro ⟨a, ha, -⟩
        cases ha
  | ok a =>
      constructor
      · exact fun h => ⟨a, rfl, h⟩
      · rintro ⟨a', ha, hf⟩
        rw [Except.ok.inj ha]
        exact hf

theorem orRaise_ok_iff {α : Type} {e : Exn} {x : Option α} {a : α} :
    orRaise e x = .ok a ↔ x = some a := by
  cases x with
  | none => exact iff_of_false (fun h => by cases h) (fun h => by cases h)
  | some b =>
      exact ⟨fun h => congrArg some (Except.ok.inj h),
        fun h => congrArg Except.ok (Option.some.inj h)⟩

/-- A script is made for an administrator, with a token for the name. -/
theorem bootstrapScript_ok {Token : Type} {jwt : Jwt Token}
    {current : UserInfo} {name : String} {now : Time} {token : Token}
    (h : bootstrapScript jwt current name now = .ok token) :
    requireAdmin current = .ok () ∧ CvCluster.clusterNameMatches name = true ∧
      createRegisterToken jwt name now = .ok token := by
  rw [bootstrapScript] at h
  cases hgate : requireAdmin current with
  | error e =>
      rw [hgate] at h
      cases h
  | ok u =>
      rw [hgate] at h
      by_cases hname : CvCluster.clusterNameMatches name = true
      · simp only [hname, if_true] at h
        exact ⟨rfl, hname, h⟩
      · simp only [hname] at h
        cases h

/-- A login writes what `authenticate` writes. -/
theorem login_db {Token : Type} (jwt : Jwt Token) (env : AuthEnv)
    (body : LoginRequest) (now : Time) (db : Database) :
    (login jwt env (.ok ()) body now db).2
      = (authenticate env body.username body.password now db).2 := rfl

/-- A login hands out tokens of an account, with the roles it has. -/
theorem login_ok {Token : Type} {jwt : Jwt Token} {env : AuthEnv}
    {rateLimit : Except Exn Unit} {body : LoginRequest} {now : Time}
    {db : Database} {answer : TokenResponse Token × Token}
    (h : (login jwt env rateLimit body now db).1 = .ok answer) :
    ∃ db', (login jwt env rateLimit body now db).2 = db' ∧
      createAccessToken jwt body.username (rolesFor db' body.username) now
        = .ok answer.1.accessToken ∧
      createRefreshToken jwt body.username (rolesFor db' body.username) now
        = .ok answer.2 ∧
      db'.localUsers.get body.username ≠ none := by
  cases rateLimit with
  | error e => cases h
  | ok u =>
      rw [login] at h
      obtain ⟨found, hauth, h⟩ := bind_ok_iff.mp h
      obtain ⟨user, hfound, h⟩ := bind_ok_iff.mp h
      rw [orRaise_ok_iff.mp hfound] at hauth
      obtain ⟨rfl, hthere⟩ := authenticate_done (Prod.ext hauth rfl)
      rw [issueTokens] at h
      obtain ⟨access, haccess, h⟩ := bind_ok_iff.mp h
      obtain ⟨cookie, hcookie, h⟩ := bind_ok_iff.mp h
      obtain rfl := Except.ok.inj h
      exact ⟨_, login_db jwt env body now db, haccess, hcookie, hthere⟩

/-- A refresh goes through for a good refresh token of a name that has an
    account, with the roles it has then. -/
theorem refresh_ok_iff {Token : Type} {jwt : Jwt Token}
    {cookie : Option Token} {now : Time} {db : Database}
    {answer : TokenResponse Token} :
    refresh jwt cookie now db = .ok answer ↔
      ∃ token c access, cookie = some token ∧
        decodeToken jwt token .refresh now = .ok c ∧
        db.localUsers.get c.sub ≠ none ∧
        createAccessToken jwt c.sub (rolesFor db c.sub) now = .ok access ∧
        answer = ⟨access, rolesFor db c.sub, c.sub⟩ := by
  rw [refresh]
  constructor
  · intro h
    obtain ⟨token, hcookie, h⟩ := bind_ok_iff.mp h
    obtain ⟨c, hdecode, h⟩ := bind_ok_iff.mp h
    obtain ⟨user, huser, h⟩ := bind_ok_iff.mp h
    obtain ⟨access, haccess, h⟩ := bind_ok_iff.mp h
    obtain ⟨entry, hentry, rfl⟩ :=
      Option.map_eq_some_iff.mp (orRaise_ok_iff.mp huser)
    refine ⟨token, c, access, orRaise_ok_iff.mp hcookie, hdecode, ?_, haccess,
      (Except.ok.inj h).symm⟩
    rw [hentry]
    exact Option.some_ne_none entry
  · rintro ⟨token, c, access, rfl, hdecode, hthere, haccess, rfl⟩
    obtain ⟨entry, hentry⟩ := Option.ne_none_iff_exists'.mp hthere
    refine bind_ok_iff.mpr ⟨token, rfl, bind_ok_iff.mpr ⟨c, hdecode,
      bind_ok_iff.mpr ⟨⟨c.sub, rolesFor db c.sub, linkedDict entry⟩, ?_,
        bind_ok_iff.mpr ⟨access, haccess, rfl⟩⟩⟩⟩
    rw [getUserEntry, hentry]
    rfl

/-! ## One step -/

section Step

variable {Token : Type} {jwt : Jwt Token} {lib : AuthLib}

/-- What a step hands out is made at that moment, from the roles that the
    database then holds. -/
inductive Made (jwt : Jwt Token) (s : Session Token) (token : Token) : Prop
  | access (username : String)
      (h : createAccessToken jwt username (rolesFor s.db username) s.now
        = .ok token)
  | refresh (username : String)
      (there : s.db.localUsers.get username ≠ none)
      (h : createRefreshToken jwt username (rolesFor s.db username) s.now
        = .ok token)
  | register (name : String)
      (h : createRegisterToken jwt name s.now = .ok token)

theorem mem_onSuccess {α β : Type} {f : α → List β} {r : Except Exn α} {x : β}
    (h : x ∈ onSuccess f r) : ∃ answer, r = .ok answer ∧ x ∈ f answer := by
  cases r with
  | error e => exact absurd h List.not_mem_nil
  | ok answer => exact ⟨answer, rfl, h⟩

theorem made_of_handedOut {s : Session Token} {k : SessionStep Token}
    {token : Token} (h : token ∈ handedOut jwt lib s k) :
    Made jwt (sessionStep jwt lib k s) token := by
  cases k with
  | login settings directory rateLimit body =>
      obtain ⟨answer, hlogin, hmem⟩ := mem_onSuccess h
      obtain ⟨db', hdb, haccess, hrefresh, hthere⟩ := login_ok hlogin
      have hs : sessionStep jwt lib
          (.login settings directory rateLimit body) s
          = ⟨db', s.now, s.issued ++ handedOut jwt lib s
            (.login settings directory rateLimit body)⟩ := by
        rw [sessionStep, dbAfter, hdb]
        rfl
      rw [hs]
      rcases List.mem_cons.mp hmem with rfl | hmem
      · exact .access body.username haccess
      · obtain rfl := List.mem_singleton.mp hmem
        exact .refresh body.username hthere hrefresh
  | refresh cookie =>
      obtain ⟨answer, hrefresh, hmem⟩ := mem_onSuccess h
      obtain ⟨_, c, access, -, -, -, haccess, rfl⟩ :=
        refresh_ok_iff.mp hrefresh
      obtain rfl := List.mem_singleton.mp hmem
      exact .access c.sub haccess
  | bootstrapScript current name =>
      obtain ⟨answer, hscript, hmem⟩ := mem_onSuccess h
      obtain rfl := List.mem_singleton.mp hmem
      exact .register name (bootstrapScript_ok hscript).2.2
  | _ => exact absurd h List.not_mem_nil

/-- The clock is never set back. -/
theorem le_clockAfter (s : Session Token) (k : SessionStep Token) :
    s.now ≤ clockAfter s k := by
  cases k with
  | tick now =>
      rw [clockAfter]
      by_cases hle : s.now ≤ now
      · rw [if_pos hle]
        exact hle
      · rw [if_neg hle]
        exact Nat.le_refl s.now.instant
  | _ => exact Nat.le_refl s.now.instant

end Step

/-! ## Runs of steps -/

section Run

variable {Token : Type} {jwt : Jwt Token} {lib : AuthLib}

theorem now_le_after (steps : List (SessionStep Token)) (s : Session Token) :
    s.now ≤ (after (sessionStep jwt lib) steps s).now := by
  induction steps generalizing s with
  | nil => exact Nat.le_refl s.now.instant
  | cons k steps ih =>
      exact Nat.le_trans (le_clockAfter s k) (ih (sessionStep jwt lib k s))

/-- Every token in the hands of a client was handed out by one of the
    steps. -/
theorem issued_at {db : Database} {now : Time}
    {steps : List (SessionStep Token)} {token : Token}
    (h : token ∈ (after (sessionStep jwt lib) steps
      (.start Token db now)).issued) :
    ∃ pre k post, steps = pre ++ k :: post ∧
      token ∈ handedOut jwt lib
        (after (sessionStep jwt lib) pre (.start Token db now)) k := by
  have hstart : token ∉ (Session.start Token db now).issued :=
    List.not_mem_nil
  obtain ⟨pre, k, post, hsplit, hbefore, hafter⟩ :=
    exists_switch (I := fun s : Session Token => token ∈ s.issued) hstart h
  refine ⟨pre, k, post, hsplit, ?_⟩
  rcases List.mem_append.mp hafter with hold | hnew
  · exact absurd hold hbefore
  · exact hnew

/-- An access token that is still good shows roles of the last fifteen
    minutes. -/
theorem heldRecently_of_access (hjwt : jwt.Lawful) {db : Database}
    {now : Time} {steps : List (SessionStep Token)} {token : Token}
    {c : Claims}
    (hissued : token ∈ (after (sessionStep jwt lib) steps
      (.start Token db now)).issued)
    (hdecode : jwt.decode token = some c) (htype : c.payload.type = .access)
    (hfresh : c.expired (after (sessionStep jwt lib) steps
      (.start Token db now)).now = false)
    {scope : String} {role : Role} (hrole : c.payload.roles scope = some role) :
    HeldRecently jwt lib steps (.start Token db now) c.sub scope role := by
  obtain ⟨pre, k, post, rfl, hmem⟩ := issued_at hissued
  have hlater : (after (sessionStep jwt lib) (pre ++ [k])
      (.start Token db now)).now
      ≤ (after (sessionStep jwt lib) (pre ++ k :: post)
        (.start Token db now)).now := by
    rw [after_append, after_append]
    exact now_le_after post _
  have hmade := made_of_handedOut hmem
  have hs : sessionStep jwt lib k (after (sessionStep jwt lib) pre
      (.start Token db now))
      = after (sessionStep jwt lib) (pre ++ [k]) (.start Token db now) := by
    rw [after_append]
    rfl
  rw [hs] at hmade
  refine ⟨pre ++ [k], ⟨post, by rw [List.append_assoc]; rfl⟩, ?_⟩
  cases hmade with
  | access username h =>
      obtain ⟨exp, hsigned, hexp⟩ := createToken_ok hjwt h
      rw [hdecode] at hsigned
      obtain rfl := Option.some.inj hsigned
      refine ⟨hrole, hlater, ?_⟩
      have hvalid := of_decide_eq_false hfresh
      simp only at hvalid hexp
      omega
  | refresh username there h =>
      obtain ⟨exp, hsigned, -⟩ := createToken_ok hjwt h
      rw [hdecode] at hsigned
      obtain rfl := Option.some.inj hsigned
      cases htype
  | register name h =>
      obtain ⟨exp, hsigned, -⟩ := createToken_ok hjwt h
      rw [hdecode] at hsigned
      obtain rfl := Option.some.inj hsigned
      cases htype

end Run

/-! ## Authority is as old as an access token -/

section Authority

variable {Token : Type} (jwt : Jwt Token) (lib : AuthLib)

/-- A token of another type is no access token. -/
theorem getCurrentUser_type (hjwt : jwt.Lawful) {sub : String}
    {payload : Payload} {minutes : Int} {made : Time} {token : Token}
    (h : createToken jwt sub payload minutes made = .ok token)
    (htype : payload.type ≠ .access) (now : Time) (user : UserInfo) :
    getCurrentUser jwt (some token) now ≠ .ok user := by
  intro hcurrent
  obtain ⟨exp, hsigned, -⟩ := createToken_ok hjwt h
  obtain ⟨c, hdecode, -, haccess, -⟩ := getCurrentUser_ok hcurrent
  rw [hsigned] at hdecode
  obtain rfl := Option.some.inj hdecode
  exact htype haccess

/-- In every run, a gate goes only by roles that the database held in the last
    fifteen minutes, and never by a refresh or register token. -/
theorem authority_recent (hjwt : jwt.Lawful) (db : Database) (now : Time)
    (steps : List (SessionStep Token)) (token : Token)
    (hgenuine : Genuine jwt
      (after (sessionStep jwt lib) steps (.start Token db now)) token) :
    (∀ gate username scope role,
      AdmitsBy jwt gate token
        (after (sessionStep jwt lib) steps (.start Token db now)).now
        username scope role →
      HeldRecently jwt lib steps (.start Token db now) username scope role) ∧
    (∀ gate t user, gate.admits jwt (some token) t = .ok user →
      ¬ OpenGate gate →
      ∃ role, AdmitsBy jwt gate token t user.username (gateScope gate) role) ∧
    ∀ sub made,
      ((∃ roles, createRefreshToken jwt sub roles made = .ok token) ∨
        createRegisterToken jwt sub made = .ok token) →
      ∀ t user, getCurrentUser jwt (some token) t ≠ .ok user := by
  refine ⟨?_, ?_, ?_⟩
  · rintro gate username scope role ⟨user, hadmit, rfl, hrole⟩
    obtain ⟨c, hdecode, hfresh, htype, rfl⟩ :=
      getCurrentUser_ok (admit_ok hadmit).1
    have hsigned : jwt.decode token ≠ none := by
      rw [hdecode]
      exact Option.some_ne_none c
    exact heldRecently_of_access hjwt (hgenuine hsigned) hdecode htype hfresh
      hrole
  · intro gate t user hadmit hgate
    obtain ⟨role, hrole⟩ := check_role hgate (admit_ok hadmit).2
    exact ⟨role, user, hadmit, rfl, hrole⟩
  · rintro sub made (⟨roles, hmade⟩ | hmade) t user
    · exact getCurrentUser_type jwt hjwt hmade (fun h => by cases h) t user
    · exact getCurrentUser_type jwt hjwt hmade (fun h => by cases h) t user

end Authority

/-- Tokens that are their claims. -/
def claimsJwt : Jwt Claims where
  encode := id
  decode := some

theorem claimsJwt_lawful : claimsJwt.Lawful := fun _ => rfl

/-- `ada` gets a role and logs in. -/
def adaLogsIn : List (SessionStep Claims) :=
  [.createUser "ada" "password", .setScopeRole "ada" "_instance" .admin,
    .login oneEntry.settings oneEntry.directory (.ok ())
      ⟨"ada", "password", by decide⟩]

/-- The access token that `ada` has then. -/
def adaAccess : Claims where
  sub := "ada"
  payload := .access (rolesFor (after (sessionStep claimsJwt plainLib)
    adaLogsIn (.start Claims Database.fresh Time.epoch)).db "ada")
  exp := seconds Time.epoch + 900

/-- The gate of the administrators admits `ada` by a role that the database
    held. -/
theorem authority_recent_ada :
    HeldRecently claimsJwt plainLib adaLogsIn
      (.start Claims Database.fresh Time.epoch) "ada" "_instance" .admin := by
  have hgenuine : Genuine claimsJwt (after (sessionStep claimsJwt plainLib)
      adaLogsIn (.start Claims Database.fresh Time.epoch)) adaAccess := by
    intro _
    exact List.mem_cons_self
  refine (authority_recent claimsJwt plainLib claimsJwt_lawful Database.fresh
    Time.epoch adaLogsIn adaAccess hgenuine).1 .requireAdmin "ada" "_instance"
    .admin ?_
  exact ⟨⟨"ada", adaAccess.payload.roles⟩, rfl, rfl, rfl⟩

/-! ## Accounts that come back -/

section Revival

variable {Token : Type} (jwt : Jwt Token) (lib : AuthLib)

/-- The step makes an account of a name that has none. -/
def Creates (s : Session Token) (username : String) :
    SessionStep Token → Prop
  | .createUser name password =>
      name = username ∧ s.db.localUsers.get username = none ∧
        ∃ hash, lib.hashPassword password = .ok hash
  | .login settings directory rateLimit body =>
      body.username = username ∧ s.db.localUsers.get username = none ∧
        rateLimit = .ok () ∧
        (∃ result, Ldap.authenticate ⟨lib, settings, directory⟩ username
          body.password = .ok (some result)) ∧
        (allScopes s.db).Nodup
  | _ => False

/-- Somebody has a refresh token of the name that is still good. -/
def Refreshable (s : Session Token) (username : String) : Prop :=
  s.now.addMinutes accessTokenExpireMinutes ≠ none ∧
    ∃ token ∈ s.issued, ∃ c, decodeToken jwt token .refresh s.now = .ok c ∧
      c.sub = username

/-- No name gets an account again before its refresh tokens have expired. -/
def NoRevival (s : Session Token) (k : SessionStep Token) : Prop :=
  ∀ username, Creates lib s username k → ¬ Refreshable jwt s username

/-- A refresh token that is good for an account at the end of a run was handed
    out when there was this account, and there has been one ever since. -/
def Outlasts (steps : List (SessionStep Token)) (s : Session Token) : Prop :=
  ∀ pre k post token answer, steps = pre ++ k :: post →
    token ∈ handedOut jwt lib (after (sessionStep jwt lib) pre s) k →
    refresh jwt (some token) (after (sessionStep jwt lib) steps s).now
      (after (sessionStep jwt lib) steps s).db = .ok answer →
    ∀ m, m <+: post →
      (after (sessionStep jwt lib) (pre ++ k :: m) s).db.localUsers.get
        answer.username ≠ none

end Revival

section RevivalStep

variable {Token : Type} {jwt : Jwt Token} {lib : AuthLib}

/-- Writing an entry of an account that is there makes no other. -/
theorem get_put_of_stored {db : Database} {entry : LocalUser}
    (hstored : db.localUsers.get entry.username ≠ none) {u : String}
    (hu : db.localUsers.get u = none) :
    (db.localUsers.put entry).get u = none := by
  rw [Table.get_put]
  by_cases hname : u = entry.username
  · rw [hname] at hu
    exact absurd hu hstored
  · rw [if_neg hname]
    exact hu

theorem deleteUser_absent (username : String) {db : Database} {u : String}
    (hu : db.localUsers.get u = none) :
    (CvAuth.deleteUser username db).2.localUsers.get u = none := by
  rw [CvAuth.deleteUser]
  cases db.localUsers.get username with
  | none => exact hu
  | some entry =>
      show (db.localUsers.erase username).get u = none
      rw [Table.get_erase]
      by_cases hname : u = username
      · exact if_pos hname
      · rw [if_neg hname]
        exact hu

theorem changePassword_absent (username newPassword : String) {db : Database}
    {u : String} (hu : db.localUsers.get u = none) :
    (changePassword lib username newPassword db).2.localUsers.get u
      = none := by
  rw [changePassword]
  cases hget : db.localUsers.get username with
  | none => exact hu
  | some entry =>
      by_cases hsource : entry.source ≠ .local
      · simp only [if_pos hsource]
        exact hu
      · simp only [if_neg hsource]
        cases lib.hashPassword newPassword with
        | error e => exact hu
        | ok hash =>
            have hname : entry.username = username := Table.key_of_get hget
            refine get_put_of_stored ?_ hu
            rw [hname, hget]
            exact Option.some_ne_none entry

theorem setScopeRole_localUsers (username scope : String) (role : Role)
    (db : Database) :
    (setScopeRole username scope role db).2.localUsers = db.localUsers := by
  rw [setScopeRole]
  cases db.localUsers.get username with
  | none => rfl
  | some entry =>
      by_cases hsource : entry.source ≠ .local
      · simp only [if_pos hsource]
      · simp only [if_neg hsource]
        rfl

theorem deleteScopeRole_localUsers (username scope : String) (db : Database) :
    (deleteScopeRole username scope db).2.localUsers = db.localUsers := by
  rw [deleteScopeRole]
  cases db.localUsers.get username with
  | none => rfl
  | some entry =>
      by_cases hsource : entry.source ≠ .local
      · simp only [if_pos hsource]
      · simp only [if_neg hsource]
        cases db.scopeRoleAssignments.get (username, scope) with
        | none => rfl
        | some a => rfl

/-- Creating an account makes it unless it is there or hashing fails. -/
theorem createUser_creates (username password : String) (db : Database)
    {u : String} (hu : db.localUsers.get u = none) :
    (CvAuth.createUser lib username password db).2.localUsers.get u ≠ none ↔
      username = u ∧ ∃ hash, lib.hashPassword password = .ok hash := by
  rw [CvAuth.createUser]
  cases hget : db.localUsers.get username with
  | some entry =>
      refine iff_of_false (fun h => h hu) ?_
      rintro ⟨rfl, -⟩
      rw [hget] at hu
      cases hu
  | none =>
      cases hhash : lib.hashPassword password with
      | error e =>
          refine iff_of_false (fun h => h hu) ?_
          rintro ⟨-, hash, h⟩
          cases h
      | ok hash =>
          show (db.localUsers.put _).get u ≠ none ↔ _
          rw [Table.get_put]
          by_cases hname : u = username
          · subst hname
            rw [if_pos rfl]
            exact iff_of_true (Option.some_ne_none _) ⟨rfl, hash, rfl⟩
          · rw [if_neg hname]
            exact iff_of_false (fun h => h hu) (fun h => hname h.1.symm)

/-- A login that the directory accepts gives the name an account. -/
theorem authenticateLdap_creates (env : AuthEnv) (username password : String)
    (now : Time) (db : Database) {u : String}
    (hu : db.localUsers.get u = none) :
    (authenticateLdap env (db.localUsers.get username) username password now
        db).2.localUsers.get u ≠ none ↔
      username = u ∧
        (∃ result, Ldap.authenticate env username password
          = .ok (some result)) ∧ (allScopes db).Nodup := by
  rw [authenticateLdap]
  cases Ldap.authenticate env username password with
  | error e =>
      refine iff_of_false (fun h => h hu) ?_
      rintro ⟨-, ⟨result, h⟩, -⟩
      cases h
  | ok found =>
      cases found with
      | none =>
          refine iff_of_false ?_ ?_
          · simp only
            cases env.lib.verifyPassword password dummyHash with
            | error e => exact fun h => h hu
            | ok verified => exact fun h => h hu
          · rintro ⟨-, ⟨result, h⟩, -⟩
            cases h
      | some result =>
          have hscopes := resyncLdapRoles_ok_iff username result.role
            (withAccount db
              (provisioned (db.localUsers.get username) username now))
          simp only
          cases hresync : resyncLdapRoles username result.role (withAccount db
              (provisioned (db.localUsers.get username) username now)) with
          | error e =>
              refine iff_of_false (fun h => h hu) ?_
              rintro ⟨-, -, hnodup⟩
              obtain ⟨db', hok⟩ := hscopes.mpr hnodup
              rw [hresync] at hok
              cases hok
          | ok db' =>
              have hnodup : (allScopes db).Nodup :=
                hscopes.mp ⟨db', hresync⟩
              show db'.localUsers.get u ≠ none ↔ _
              rw [resyncLdapRoles_users hresync]
              show (db.localUsers.put _).get u ≠ none ↔ _
              rw [Table.get_put, provisioned_username]
              by_cases hname : u = username
              · subst hname
                rw [if_pos rfl]
                exact iff_of_true (Option.some_ne_none _)
                  ⟨rfl, ⟨result, rfl⟩, hnodup⟩
              · rw [if_neg hname]
                exact iff_of_false (fun h => h hu) (fun h => hname h.1.symm)

/-- A login to a local account makes none. -/
theorem authenticateLocal_absent (env : AuthEnv) {entry : LocalUser}
    {username : String} (password : String) (now : Time) {db : Database}
    (hget : db.localUsers.get username = some entry) {u : String}
    (hu : db.localUsers.get u = none) :
    (authenticateLocal env entry password now db).2.localUsers.get u
      = none := by
  rw [authenticateLocal]
  cases env.lib.verifyPassword password (LocalUser.hash entry) with
  | error e => exact hu
  | ok verified =>
      cases verified with
      | false => exact hu
      | true =>
          have hname : entry.username = username := Table.key_of_get hget
          refine get_put_of_stored ?_ hu
          rw [hname, hget]
          exact Option.some_ne_none entry

/-- What makes an account. -/
theorem creates_iff (s : Session Token) (k : SessionStep Token)
    (username : String) :
    Creates lib s username k ↔
      s.db.localUsers.get username = none ∧
        (dbAfter jwt lib s k).localUsers.get username ≠ none := by
  -- all but `create_user` and `login` make no account
  have hkept : ∀ {p q : Prop}, ¬ q → (s.db.localUsers.get username = none → p
      → False) → (q ↔ s.db.localUsers.get username = none ∧ p) :=
    fun hq hp => iff_of_false hq (fun h => hp h.1 h.2)
  cases k with
  | createUser name password =>
      constructor
      · rintro ⟨hname, hnone, hhash⟩
        exact ⟨hnone, (createUser_creates name password s.db hnone).mpr
          ⟨hname, hhash⟩⟩
      · rintro ⟨hnone, hafter⟩
        obtain ⟨hname, hhash⟩ :=
          (createUser_creates name password s.db hnone).mp hafter
        exact ⟨hname, hnone, hhash⟩
  | login settings directory rateLimit body =>
      cases rateLimit with
      | error e =>
          refine hkept ?_ (fun hnone hafter => hafter hnone)
          rintro ⟨-, -, hlimit, -⟩
          cases hlimit
      | ok u =>
          have hdb : dbAfter jwt lib s
              (.login settings directory (.ok u) body)
              = (authenticate ⟨lib, settings, directory⟩ body.username
                body.password s.now s.db).2 :=
            login_db jwt ⟨lib, settings, directory⟩ body s.now s.db
          rw [hdb]
          rcases authenticate_eq ⟨lib, settings, directory⟩ body.username
            body.password s.now s.db with ⟨entry, hget, -, heq⟩ | ⟨-, heq⟩
          -- the typed name is a local account, so the directory is not asked
          · refine hkept ?_ (fun hnone hafter => ?_)
            · rintro ⟨rfl, hnone, -⟩
              rw [hget] at hnone
              cases hnone
            · rw [heq] at hafter
              exact hafter (authenticateLocal_absent _ body.password s.now
                hget hnone)
          · rw [heq]
            constructor
            · rintro ⟨rfl, hnone, -, hresult, hnodup⟩
              exact ⟨hnone, (authenticateLdap_creates _ body.username
                body.password s.now s.db hnone).mpr ⟨rfl, hresult, hnodup⟩⟩
            · rintro ⟨hnone, hafter⟩
              obtain ⟨rfl, hresult, hnodup⟩ :=
                (authenticateLdap_creates _ body.username body.password s.now
                  s.db hnone).mp hafter
              exact ⟨rfl, hnone, rfl, hresult, hnodup⟩
  | deleteUser name =>
      exact hkept id (fun hnone hafter =>
        hafter (deleteUser_absent name hnone))
  | changePassword name newPassword =>
      exact hkept id (fun hnone hafter =>
        hafter (changePassword_absent name newPassword hnone))
  | setScopeRole name scope role =>
      refine hkept id (fun hnone hafter => hafter ?_)
      show (setScopeRole name scope role s.db).2.localUsers.get username = none
      rw [setScopeRole_localUsers]
      exact hnone
  | deleteScopeRole name scope =>
      refine hkept id (fun hnone hafter => hafter ?_)
      show (deleteScopeRole name scope s.db).2.localUsers.get username = none
      rw [deleteScopeRole_localUsers]
      exact hnone
  | _ => exact hkept id (fun hnone hafter => hafter hnone)

end RevivalStep

section RevivalRun

variable {Token : Type} {jwt : Jwt Token} {lib : AuthLib}

/-- A token can be made as long as its expiry date is in the calendar. -/
theorem createToken_ok_iff {sub : String} {payload : Payload} {minutes : Int}
    {now : Time} :
    (∃ token, createToken jwt sub payload minutes now = .ok token) ↔
      now.addMinutes minutes ≠ none := by
  rw [createToken]
  cases now.addMinutes minutes with
  | none =>
      refine iff_of_false ?_ (fun h => h rfl)
      rintro ⟨token, h⟩
      cases h
  | some t => exact iff_of_true ⟨_, rfl⟩ (Option.some_ne_none t)

/-- A token that is good now was good before. -/
theorem decodeToken_of_le {token : Token} {type : TokenType} {t now : Time}
    {c : Claims} (ht : t ≤ now) (h : decodeToken jwt token type now = .ok c) :
    decodeToken jwt token type t = .ok c := by
  obtain ⟨hsigned, hfresh, htype⟩ := decodeToken_ok_iff.mp h
  refine decodeToken_ok_iff.mpr ⟨hsigned, ?_, htype⟩
  have hle : t.instant ≤ now.instant := ht
  have hvalid := of_decide_eq_false hfresh
  exact decide_eq_false (fun hexp => hvalid (Nat.le_trans hexp hle))

/-- Tokens stay in the hands of clients. -/
theorem issued_subset_after (steps : List (SessionStep Token))
    {s : Session Token} {token : Token} (h : token ∈ s.issued) :
    token ∈ (after (sessionStep jwt lib) steps s).issued := by
  induction steps generalizing s with
  | nil => exact h
  | cons k steps ih => exact ih (List.mem_append_left _ h)

theorem absent_of_creates {s : Session Token} {k : SessionStep Token}
    {username : String} (h : Creates lib s username k) :
    s.db.localUsers.get username = none := by
  cases k with
  | createUser name password => exact h.2.1
  | login settings directory rateLimit body => exact h.2.1
  | _ => exact h.elim

/-- Making an account leaves the clock. -/
theorem now_of_creates {s : Session Token} {k : SessionStep Token}
    {username : String} (h : Creates lib s username k) :
    clockAfter s k = s.now := by
  cases k with
  | tick now => exact h.elim
  | _ => rfl

/-- An account that is made again answers to the refresh tokens of the one
    before. -/
theorem refreshes_revived {s : Session Token} {k : SessionStep Token}
    {token : Token} {c : Claims} (hcreates : Creates lib s c.sub k)
    (hcalendar : s.now.addMinutes accessTokenExpireMinutes ≠ none)
    (hdecode : decodeToken jwt token .refresh s.now = .ok c) :
    ∃ answer, refresh jwt (some token) (sessionStep jwt lib k s).now
      (sessionStep jwt lib k s).db = .ok answer ∧ answer.username = c.sub := by
  have hclock : (sessionStep jwt lib k s).now = s.now :=
    now_of_creates hcreates
  have hthere : (sessionStep jwt lib k s).db.localUsers.get c.sub ≠ none :=
    ((creates_iff s k c.sub).mp hcreates).2
  rw [hclock]
  obtain ⟨access, haccess⟩ := createToken_ok_iff.mpr hcalendar
  exact ⟨_, refresh_ok_iff.mpr
    ⟨token, c, access, rfl, hdecode, hthere, haccess, rfl⟩, rfl⟩

/-- Without revivals, refresh tokens do not outlast the account. -/
theorem outlasts_of_noRevival {steps : List (SessionStep Token)}
    {s : Session Token}
    (h : Along (sessionStep jwt lib) (NoRevival jwt lib) steps s) :
    Outlasts jwt lib steps s := by
  rintro pre k post token answer rfl hmem hrefresh m ⟨rest, rfl⟩ hgone
  obtain ⟨token', c, access, htoken, hdecode, hthere, haccess, rfl⟩ :=
    refresh_ok_iff.mp hrefresh
  obtain rfl := Option.some.inj htoken
  have hruns : pre ++ k :: (m ++ rest) = (pre ++ k :: m) ++ rest := by
    rw [List.append_assoc]
    rfl
  -- the account is gone after `m`, so the rest of the run makes it again
  have hgone' : ¬ (after (sessionStep jwt lib) (pre ++ k :: m)
      s).db.localUsers.get c.sub ≠ none := not_not.mpr hgone
  rw [hruns, after_append] at hthere
  obtain ⟨l, k₂, r, rfl, hbefore, hmade⟩ := exists_switch
    (I := fun s : Session Token => s.db.localUsers.get c.sub ≠ none) hgone'
    hthere
  rw [← after_append] at hbefore hmade
  have hcreates : Creates lib (after (sessionStep jwt lib)
      ((pre ++ k :: m) ++ l) s) c.sub k₂ :=
    (creates_iff _ k₂ c.sub).mpr ⟨not_not.mp hbefore, hmade⟩
  have hsplit : pre ++ k :: (m ++ (l ++ k₂ :: r))
      = ((pre ++ k :: m) ++ l) ++ k₂ :: r := by
    simp only [List.append_assoc, List.cons_append]
  have hlater : (after (sessionStep jwt lib) ((pre ++ k :: m) ++ l) s).now
      ≤ (after (sessionStep jwt lib) (pre ++ k :: (m ++ (l ++ k₂ :: r)))
        s).now := by
    rw [hsplit, after_append ((pre ++ k :: m) ++ l) (k₂ :: r) s]
    exact now_le_after _ _
  refine along_iff_split.mp h _ k₂ r hsplit c.sub hcreates ⟨?_, token, ?_, c,
    decodeToken_of_le hlater hdecode, rfl⟩
  · intro hend
    refine createToken_ok_iff.mp ⟨access, haccess⟩ ?_
    exact Time.addMinutes_eq_none_of_le hlater (by decide) hend
  · rw [after_append, after_append]
    refine issued_subset_after l (issued_subset_after m ?_)
    exact List.mem_append_right _ hmem

/-- In every run, refresh tokens never outlast the account that they were
    handed out for, exactly when no name gets an account again while one of
    its refresh tokens is still good. -/
theorem refresh_outlasts_iff (db : Database) (now : Time)
    (steps : List (SessionStep Token)) :
    (∀ run, run <+: steps → Outlasts jwt lib run (.start Token db now)) ↔
      Along (sessionStep jwt lib) (NoRevival jwt lib) steps
        (.start Token db now) := by
  constructor
  · intro h
    refine along_iff_split.mpr ?_
    rintro l k r rfl username hcreates ⟨hcalendar, token, hissued, c, hdecode,
      rfl⟩
    obtain ⟨pre, k₁, post, rfl, hmem⟩ := issued_at hissued
    have hrun : (pre ++ k₁ :: post) ++ [k] = pre ++ k₁ :: (post ++ [k]) := by
      rw [List.append_assoc]
      rfl
    have hprefix : pre ++ k₁ :: (post ++ [k])
        <+: (pre ++ k₁ :: post) ++ k :: r :=
      ⟨r, by rw [← hrun, List.append_assoc]; rfl⟩
    have hend : after (sessionStep jwt lib) (pre ++ k₁ :: (post ++ [k]))
        (.start Token db now)
        = sessionStep jwt lib k (after (sessionStep jwt lib)
          (pre ++ k₁ :: post) (.start Token db now)) := by
      rw [← hrun, after_append]
      rfl
    obtain ⟨answer, hanswer, hname⟩ :=
      refreshes_revived hcreates hcalendar hdecode
    rw [← hend] at hanswer
    have hthere := h _ hprefix pre k₁ (post ++ [k]) token answer rfl hmem
      hanswer post ⟨[k], rfl⟩
    rw [hname] at hthere
    exact hthere (absent_of_creates hcreates)
  · rintro h run ⟨rest, rfl⟩
    refine outlasts_of_noRevival (along_iff_split.mpr ?_)
    rintro pre k post rfl
    refine along_iff_split.mp h pre k (post ++ rest) ?_
    rw [List.append_assoc]
    rfl

end RevivalRun

/-- `ada` logs in, the account is deleted, and another one of that name gets a
    role. -/
def adaReturns : List (SessionStep Claims) :=
  [.createUser "ada" "password",
    .login oneEntry.settings oneEntry.directory (.ok ())
      ⟨"ada", "password", by decide⟩,
    .deleteUser "ada", .createUser "ada" "another",
    .setScopeRole "ada" "_instance" .admin]

/-- The refresh token of the first `ada`. -/
def adaCookie : Claims where
  sub := "ada"
  payload := .refresh (rolesFor (after (sessionStep claimsJwt plainLib)
    (adaReturns.take 2) (.start Claims Database.fresh Time.epoch)).db "ada")
  exp := seconds Time.epoch + 7 * 86400

/-- The first `ada` gets an access token of the second one. -/
theorem refresh_outlives_account :
    ¬ ∀ (db : Database) (now : Time) (steps : List (SessionStep Claims)),
      Outlasts claimsJwt plainLib steps (.start Claims db now) := by
  intro h
  have hmem : adaCookie ∈ handedOut claimsJwt plainLib
      (after (sessionStep claimsJwt plainLib) (adaReturns.take 1)
        (.start Claims Database.fresh Time.epoch))
      (.login oneEntry.settings oneEntry.directory (.ok ())
        ⟨"ada", "password", by decide⟩) :=
    List.mem_cons_of_mem _ List.mem_cons_self
  have hgone : (after (sessionStep claimsJwt plainLib) (adaReturns.take 3)
      (.start Claims Database.fresh Time.epoch)).db.localUsers.get "ada"
      = none := by decide +kernel
  have hback : (after (sessionStep claimsJwt plainLib) adaReturns
      (.start Claims Database.fresh Time.epoch)).db.localUsers.get "ada"
      ≠ none := by decide +kernel
  have hcalendar : (after (sessionStep claimsJwt plainLib) adaReturns
      (.start Claims Database.fresh Time.epoch)).now.addMinutes
        accessTokenExpireMinutes ≠ none := by
    intro hend
    exact absurd (congrArg Option.isSome hend) (by decide +kernel)
  have hdecode : decodeToken claimsJwt adaCookie .refresh
      (after (sessionStep claimsJwt plainLib) adaReturns
        (.start Claims Database.fresh Time.epoch)).now = .ok adaCookie :=
    decodeToken_ok_iff.mpr ⟨rfl, by decide +kernel, rfl⟩
  obtain ⟨access, haccess⟩ := createToken_ok_iff.mpr hcalendar
  exact h Database.fresh Time.epoch adaReturns (adaReturns.take 1) _
    (adaReturns.drop 2) adaCookie _ rfl hmem
    (refresh_ok_iff.mpr ⟨adaCookie, adaCookie, access, rfl, hdecode, hback,
      haccess, rfl⟩) [.deleteUser "ada"] ⟨adaReturns.drop 3, rfl⟩ hgone

end CvSession
