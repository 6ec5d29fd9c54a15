import ClusterVision.DirectoryRolesProofs

/-! # Current passwords

    A local account has the hash of the password that was set last, and a login
    is checked against this hash.  bcrypt compares the first 72 bytes of two
    passwords.  The main result says in which runs only the current password
    opens an account. -/

namespace CvPassword

open CvProg CvRun CvTable CvIso CvKube CvBackend CvHttp CvAuth CvAccount
  CvSource

/-! ## bcrypt -/

/-- `password.encode()`. -/
def encode (password : String) : List UInt8 :=
  password.toList.flatMap String.utf8EncodeChar

/-- What bcrypt looks at. -/
def compared (password : String) : List UInt8 := (encode password).take 72

/-- Hashing never fails, no hash is empty, and a password verifies against the
    hash of another one when bcrypt sees no difference. -/
structure Bcrypt (lib : AuthLib) : Prop where
  hashes : ∀ password, ∃ hash, lib.hashPassword password = .ok hash ∧ hash ≠ ""
  verifies : ∀ password other hash, lib.hashPassword other = .ok hash →
    lib.verifyPassword password hash
      = .ok (decide (compared password = compared other))

/-! ## Runs -/

variable (lib : AuthLib)

/-- The database, and the password that each account was given last. -/
structure PasswordState where
  db : Database
  current : String → Option String

/-- Did the call return? -/
def returned {α : Type} (r : Except Exn α) : Bool :=
  match r with
  | .ok _ => true
  | .error _ => false

/-- What a call sets: the password of an account, or that there is none any
    more. -/
def setBy (db : Database) : AccountStep → Option (String × Option String)
  | .ensureDefaultAdmin password =>
      if (ensureDefaultAdmin lib password db).localUsers.get "admin"
          = db.localUsers.get "admin" then none
      else some ("admin", password)
  | .createUser username password =>
      if returned (CvAuth.createUser lib username password db).1 = true then
        some (username, some password)
      else none
  | .deleteUser username =>
      if returned (CvAuth.deleteUser username db).1 = true then
        some (username, none)
      else none
  | .changePassword username newPassword =>
      if returned (changePassword lib username newPassword db).1 = true then
        some (username, some newPassword)
      else none
  | _ => none

/-- The passwords after a call. -/
def updated (set : Option (String × Option String))
    (current : String → Option String) : String → Option String :=
  match set with
  | none => current
  | some (username, password) => Function.update current username password

/-- A call of the service. -/
def passwordStep (a : AccountStep) (s : PasswordState) : PasswordState :=
  ⟨accountStep lib a s.db, updated (setBy lib s.db a) s.current⟩

/-- A login to a local account succeeds exactly with its current password. -/
def OnlyCurrent (s : PasswordState) : AccountStep → Prop
  | .authenticate settings directory username password now =>
      localAccount s.db username = true →
        ((∃ user, (authenticate ⟨lib, settings, directory⟩ username password
            now s.db).1 = .ok (some user)) ↔
          s.current username = some password)
  | _ => True

/-- A login to a local account has its password, or one that differs from it in
    the first 72 bytes. -/
def ToldApart (s : PasswordState) : AccountStep → Prop
  | .authenticate _ _ username password _ =>
      localAccount s.db username = true → ∀ current,
        s.current username = some current →
        compared password = compared current → password = current
  | _ => True

/-! ## What a call does to the hashes -/

/-- A local account has the hash of the password that was set last. -/
def KnownHash (password : Option String) (entry : LocalUser) : Prop :=
  entry.source = .local → ∃ current hash, password = some current ∧
    entry.passwordHash = some hash ∧ lib.hashPassword current = .ok hash

/-- Every local account has. -/
def Known (s : PasswordState) : Prop :=
  ∀ entry ∈ s.db.localUsers.rows, KnownHash lib (s.current entry.username) entry

/-- What a call can do to the table. -/
inductive HashEffect (s s' : PasswordState) : Prop where
  | same (users : s'.db.localUsers = s.db.localUsers)
      (current : s'.current = s.current)
  | put (entry : LocalUser)
      (known : KnownHash lib (s'.current entry.username) entry)
      (users : s'.db.localUsers = s.db.localUsers.put entry)
      (current : ∀ name, name ≠ entry.username →
        s'.current name = s.current name)
  | erased (username : String)
      (users : s'.db.localUsers = s.db.localUsers.erase username)
      (current : ∀ name, name ≠ username → s'.current name = s.current name)

/-- Every such effect keeps the hashes known. -/
theorem known_effect {s s' : PasswordState} (hs : Known lib s)
    (h : HashEffect lib s s') : Known lib s' := by
  intro x hx
  cases h with
  | same users current =>
      rw [users] at hx
      rw [current]
      exact hs x hx
  | put entry known users current =>
      rw [users] at hx
      rcases Table.mem_put.mp hx with rfl | ⟨hx, hne⟩
      · exact known
      · rw [current x.username hne]
        exact hs x hx
  | erased username users current =>
      rw [users] at hx
      obtain ⟨hx, hne⟩ := Table.mem_erase.mp hx
      rw [current x.username hne]
      exact hs x hx

variable {lib}

/-- An entry that keeps its name, source and hash. -/
theorem knownHash_touched {s : PasswordState} {username : String}
    {old entry : LocalUser} (hs : Known lib s)
    (hget : s.db.localUsers.get username = some old)
    (hname : entry.username = old.username)
    (hsource : entry.source = old.source)
    (hhash : entry.passwordHash = old.passwordHash) :
    KnownHash lib (s.current entry.username) entry := by
  rw [KnownHash, hname, hsource, hhash]
  exact hs old (Table.mem_of_get hget)

/-- A call that sets nothing and writes no account. -/
theorem hashEffect_same {a : AccountStep} {s : PasswordState}
    (hset : setBy lib s.db a = none)
    (husers : (accountStep lib a s.db).localUsers = s.db.localUsers) :
    HashEffect lib s (passwordStep lib a s) := by
  refine .same husers ?_
  rw [passwordStep, hset]
  rfl

/-- A call that sets nothing and writes an account whose hash it keeps. -/
theorem hashEffect_touched {a : AccountStep} {s : PasswordState}
    (entry : LocalUser) (hset : setBy lib s.db a = none)
    (hknown : KnownHash lib (s.current entry.username) entry)
    (husers : (accountStep lib a s.db).localUsers
      = s.db.localUsers.put entry) :
    HashEffect lib s (passwordStep lib a s) := by
  have hcurrent : (passwordStep lib a s).current = s.current := by
    rw [passwordStep, hset]
    rfl
  refine .put entry ?_ husers (fun name _ => by rw [hcurrent])
  rw [hcurrent]
  exact hknown

/-- A call that sets a password and writes its hash. -/
theorem hashEffect_set {a : AccountStep} {s : PasswordState}
    (entry : LocalUser) {username password hash : String}
    (hset : setBy lib s.db a = some (username, some password))
    (hname : entry.username = username)
    (hhash : lib.hashPassword password = .ok hash)
    (hentry : entry.passwordHash = some hash)
    (husers : (accountStep lib a s.db).localUsers
      = s.db.localUsers.put entry) :
    HashEffect lib s (passwordStep lib a s) := by
  have hcurrent : (passwordStep lib a s).current
      = Function.update s.current username (some password) := by
    rw [passwordStep, hset]
    rfl
  refine .put entry ?_ husers ?_
  · rw [hcurrent, hname, Function.update_self]
    exact fun _ => ⟨password, hash, rfl, hentry, hhash⟩
  · intro name hne
    rw [hcurrent, Function.update_of_ne (hname ▸ hne)]

theorem ensureDefaultAdmin_hash (password : Option String)
    (s : PasswordState) :
    HashEffect lib s (passwordStep lib (.ensureDefaultAdmin password) s) := by
  have hunchanged : ensureDefaultAdmin lib password s.db = s.db →
      HashEffect lib s
        (passwordStep lib (.ensureDefaultAdmin password) s) := by
    intro h
    refine hashEffect_same ?_ (congrArg Database.localUsers h)
    rw [setBy, h, if_pos rfl]
  cases password with
  | none => exact hunchanged rfl
  | some password =>
      by_cases hempty : password = ""
      · exact hunchanged (by simp only [ensureDefaultAdmin, if_pos hempty])
      by_cases hrows : s.db.localUsers.rows ≠ []
      · refine hunchanged ?_
        simp only [ensureDefaultAdmin, if_neg hempty, if_pos hrows]
      cases hhash : lib.hashPassword password with
      | error e =>
          refine hunchanged ?_
          simp only [ensureDefaultAdmin, if_neg hempty, if_neg hrows, hhash]
      | ok hash =>
          cases hassign : assignScopes "admin" .admin
              [instanceScope, localCluster] s.db.scopeRoleAssignments with
          | error e =>
              refine hunchanged ?_
              simp only [ensureDefaultAdmin, if_neg hempty, if_neg hrows,
                hhash, hassign]
          | ok t =>
              have hwritten : ensureDefaultAdmin lib (some password) s.db
                  = withAssignments (withAccount s.db
                    ⟨"admin", some hash, .local, none, none, none⟩) t := by
                simp only [ensureDefaultAdmin, if_neg hempty, if_neg hrows,
                  hhash, hassign]
              have husers : (ensureDefaultAdmin lib (some password)
                  s.db).localUsers = s.db.localUsers.put
                    ⟨"admin", some hash, .local, none, none, none⟩ := by
                rw [hwritten]
                rfl
              have hnone : s.db.localUsers.get "admin" = none := by
                rw [Table.get_eq_none_iff, not_not.mp hrows]
                exact fun entry hentry => absurd hentry List.not_mem_nil
              refine hashEffect_set _ ?_ rfl hhash rfl husers
              rw [setBy, if_neg]
              rw [husers, Table.get_put_self, hnone]
              exact Option.some_ne_none _

theorem createUser_hash (username password : String) (s : PasswordState) :
    HashEffect lib s (passwordStep lib (.createUser username password) s) := by
  have hrefused : ∀ e, CvAuth.createUser lib username password s.db
      = (.error e, s.db) →
        HashEffect lib s
          (passwordStep lib (.createUser username password) s) := by
    intro e hcall
    refine hashEffect_same ?_ (by rw [accountStep, hcall])
    rw [setBy, hcall]
    rfl
  cases hget : s.db.localUsers.get username with
  | some entry => exact hrefused _ (by rw [CvAuth.createUser, hget])
  | none =>
      cases hhash : lib.hashPassword password with
      | error e =>
          refine hrefused e ?_
          rw [CvAuth.createUser, hget]
          simp only [hhash]
      | ok hash =>
          have hcall : CvAuth.createUser lib username password s.db
              = (.ok (), withAccount s.db
                ⟨username, some hash, .local, none, none, none⟩) := by
            rw [CvAuth.createUser, hget]
            simp only [hhash]
          refine hashEffect_set
            ⟨username, some hash, .local, none, none, none⟩ ?_ rfl hhash rfl ?_
          · rw [setBy, hcall]
            rfl
          · rw [accountStep, hcall]
            rfl

theorem deleteUser_hash (username : String) (s : PasswordState) :
    HashEffect lib s (passwordStep lib (.deleteUser username) s) := by
  cases hget : s.db.localUsers.get username with
  | none =>
      refine hashEffect_same ?_ (by rw [accountStep, CvAuth.deleteUser, hget])
      rw [setBy, CvAuth.deleteUser, hget]
      rfl
  | some entry =>
      refine .erased username ?_ ?_
      · rw [passwordStep, accountStep, CvAuth.deleteUser, hget]
      · intro name hne
        rw [passwordStep, setBy, CvAuth.deleteUser, hget]
        exact Function.update_of_ne hne ..

theorem changePassword_hash (username newPassword : String)
    (s : PasswordState) :
    HashEffect lib s
      (passwordStep lib (.changePassword username newPassword) s) := by
  have hrefused : ∀ e, changePassword lib username newPassword s.db
      = (.error e, s.db) →
        HashEffect lib s
          (passwordStep lib (.changePassword username newPassword) s) := by
    intro e hcall
    refine hashEffect_same ?_ (by rw [accountStep, hcall])
    rw [setBy, hcall]
    rfl
  cases hget : s.db.localUsers.get username with
  | none => exact hrefused _ (by rw [changePassword, hget])
  | some entry =>
      by_cases hsource : entry.source ≠ .local
      · refine hrefused (noLocalPassword username) ?_
        rw [changePassword, hget]
        exact if_pos hsource
      · cases hhash : lib.hashPassword newPassword with
        | error e =>
            refine hrefused e ?_
            rw [changePassword, hget]
            simp only [hhash, if_neg hsource]
        | ok hash =>
            have hcall : changePassword lib username newPassword s.db
                = (.ok (), withAccount s.db
                  { entry with passwordHash := some hash }) := by
              rw [changePassword, hget]
              simp only [hhash, if_neg hsource]
            refine hashEffect_set { entry with passwordHash := some hash } ?_
              (show entry.username = username from Table.key_of_get hget) hhash
              rfl ?_
            · rw [setBy, hcall]
              rfl
            · rw [accountStep, hcall]
              rfl

theorem setScopeRole_hash (username scope : String) (role : Role)
    (s : PasswordState) :
    HashEffect lib s
      (passwordStep lib (.setScopeRole username scope role) s) := by
  refine hashEffect_same rfl ?_
  rw [accountStep, setScopeRole]
  cases s.db.localUsers.get username with
  | none => rfl
  | some entry =>
      by_cases hsource : entry.source ≠ .local
      · simp only [if_pos hsource]
      · simp only [if_neg hsource]
        rfl

theorem deleteScopeRole_hash (username scope : String) (s : PasswordState) :
    HashEffect lib s
      (passwordStep lib (.deleteScopeRole username scope) s) := by
  refine hashEffect_same rfl ?_
  rw [accountStep, deleteScopeRole]
  cases s.db.localUsers.get username with
  | none => rfl
  | some entry =>
      by_cases hsource : entry.source ≠ .local
      · simp only [if_pos hsource]
      · simp only [if_neg hsource]
        cases s.db.scopeRoleAssignments.get (username, scope) with
        | none => rfl
        | some a => rfl

theorem setLinkedUser_hash (username name ns : String) {s : PasswordState}
    (hs : Known lib s) :
    HashEffect lib s
      (passwordStep lib (.setLinkedUser username name ns) s) := by
  cases hget : s.db.localUsers.get username with
  | none =>
      refine hashEffect_same rfl ?_
      rw [accountStep, setLinkedUser, hget]
  | some entry =>
      cases hmanaged : s.db.managedUsers.get (name, ns) with
      | none =>
          refine hashEffect_same rfl ?_
          rw [accountStep, setLinkedUser, hget]
          simp only [hmanaged]
      | some u =>
          refine hashEffect_touched
            { entry with
              linkedManagedUser := some name
              linkedManagedUserNamespace := some ns } rfl
            (knownHash_touched hs hget rfl rfl rfl) ?_
          rw [accountStep, setLinkedUser, hget]
          simp only [hmanaged]
          rfl

theorem clearLinkedUser_hash (username : String) {s : PasswordState}
    (hs : Known lib s) :
    HashEffect lib s (passwordStep lib (.clearLinkedUser username) s) := by
  cases hget : s.db.localUsers.get username with
  | none =>
      refine hashEffect_same rfl ?_
      rw [accountStep, clearLinkedUser, hget]
  | some entry =>
      refine hashEffect_touched
        { entry with
          linkedManagedUser := none
          linkedManagedUserNamespace := none } rfl
        (knownHash_touched hs hget rfl rfl rfl) ?_
      rw [accountStep, clearLinkedUser, hget]
      rfl

/-- A login writes the time of the login, or an account of the directory. -/
theorem authenticate_hash (settings : LdapSettings) (directory : Directory)
    (username password : String) (now : Time) {s : PasswordState}
    (hs : Known lib s) :
    HashEffect lib s (passwordStep lib
      (.authenticate settings directory username password now) s) := by
  have hsame : (authenticate ⟨lib, settings, directory⟩ username password now
      s.db).2 = s.db → HashEffect lib s (passwordStep lib
        (.authenticate settings directory username password now) s) :=
    fun h => hashEffect_same rfl (congrArg Database.localUsers h)
  rcases authenticate_eq ⟨lib, settings, directory⟩ username password now s.db
    with ⟨entry, hget, hsource, heq⟩ | ⟨hsource, heq⟩
  · rw [heq, authenticateLocal] at hsame
    cases hverify : lib.verifyPassword password (LocalUser.hash entry) with
    | error e =>
        simp only [hverify] at hsame
        exact hsame trivial
    | ok verified =>
        cases verified with
        | false =>
            simp only [hverify] at hsame
            exact hsame trivial
        | true =>
            refine hashEffect_touched
              { entry with lastLoginAt := some (utc now) } rfl
              (knownHash_touched hs hget rfl rfl rfl) ?_
            rw [accountStep, heq, authenticateLocal]
            simp only [hverify]
            rfl
  · have hsource' : ∀ user db', authenticateLdap ⟨lib, settings, directory⟩
        (s.db.localUsers.get username) username password now s.db
          = (.ok (some user), db') → HashEffect lib s (passwordStep lib
            (.authenticate settings directory username password now) s) := by
      intro user db' hdone
      obtain ⟨result, -, hresync, -⟩ := authenticateLdap_done hdone
      refine hashEffect_touched
        (provisioned (s.db.localUsers.get username) username now) rfl ?_ ?_
      · intro hlocal
        rw [CvDirectory.provisioned_source now hsource] at hlocal
        cases hlocal
      · rw [accountStep, heq, hdone]
        exact resyncLdapRoles_users hresync
    by_cases hdone : ∃ user, (authenticateLdap ⟨lib, settings, directory⟩
        (s.db.localUsers.get username) username password now s.db).1
          = .ok (some user)
    · obtain ⟨user, hdone⟩ := hdone
      exact hsource' user _ (Prod.ext hdone rfl)
    · refine hsame ?_
      rw [heq]
      exact CvDirectory.authenticateLdap_refused
        (fun user huser => hdone ⟨user, huser⟩)

/-- Every call keeps the hashes known. -/
theorem known_passwordStep {s : PasswordState} (hs : Known lib s)
    (a : AccountStep) : Known lib (passwordStep lib a s) := by
  refine known_effect lib hs ?_
  cases a with
  | ensureDefaultAdmin password => exact ensureDefaultAdmin_hash password s
  | createUser username password => exact createUser_hash username password s
  | deleteUser username => exact deleteUser_hash username s
  | changePassword username newPassword =>
      exact changePassword_hash username newPassword s
  | setScopeRole username scope role =>
      exact setScopeRole_hash username scope role s
  | deleteScopeRole username scope =>
      exact deleteScopeRole_hash username scope s
  | setLinkedUser username name ns =>
      exact setLinkedUser_hash username name ns hs
  | clearLinkedUser username => exact clearLinkedUser_hash username hs
  | authenticate settings directory username password now =>
      exact authenticate_hash settings directory username password now hs

/-! ## Logins -/

/-- A login to a local account whose password is known. -/
theorem authenticate_known (hlib : Bcrypt lib) {s : PasswordState}
    (hs : Known lib s) {username : String}
    (hlocal : localAccount s.db username = true)
    (settings : LdapSettings) (directory : Directory) (password : String)
    (now : Time) :
    ∃ current, s.current username = some current ∧
      ((∃ user, (authenticate ⟨lib, settings, directory⟩ username password now
          s.db).1 = .ok (some user)) ↔ compared password = compared current) := by
  rw [localAccount] at hlocal
  cases hget : s.db.localUsers.get username with
  | none =>
      rw [hget] at hlocal
      cases hlocal
  | some entry =>
      rw [hget] at hlocal
      have hsource : entry.source = .local := of_decide_eq_true hlocal
      have hname : entry.username = username := Table.key_of_get hget
      obtain ⟨current, hash, hcurrent, hentry, hhash⟩ :=
        hs entry (Table.mem_of_get hget) hsource
      obtain ⟨hash', hhash', hne⟩ := hlib.hashes current
      obtain rfl : hash' = hash := Except.ok.inj (hhash'.symm.trans hhash)
      have hstored : LocalUser.hash entry = hash' := by
        rw [LocalUser.hash, hentry]
        exact if_neg hne
      refine ⟨current, hname ▸ hcurrent, ?_⟩
      rw [authenticate, hget]
      simp only [if_pos hsource, authenticateLocal, hstored,
        hlib.verifies password current hash' hhash]
      by_cases hsame : compared password = compared current
      · rw [decide_eq_true hsame]
        exact iff_of_true ⟨_, rfl⟩ hsame
      · rw [decide_eq_false hsame]
        refine iff_of_false ?_ hsame
        rintro ⟨_, h⟩
        cases h

/-- The current password opens an account, and so does every password that
    bcrypt takes for it. -/
theorem onlyCurrent_iff (hlib : Bcrypt lib) {s : PasswordState}
    (hs : Known lib s) (a : AccountStep) :
    OnlyCurrent lib s a ↔ ToldApart s a := by
  cases a with
  | authenticate settings directory username password now =>
      refine forall_congr' (fun hlocal => ?_)
      obtain ⟨current, hcurrent, hlogin⟩ :=
        authenticate_known hlib hs hlocal settings directory password now
      rw [hlogin, hcurrent, Option.some.injEq]
      constructor
      · intro h other hother hsame
        obtain rfl := Option.some.inj hother
        exact (h.mp hsame).symm
      · exact fun h => ⟨fun hsame => (h current rfl hsame).symm,
          fun heq => by rw [heq]⟩
  | _ => exact Iff.rfl

/-- Without local accounts there is no password to know. -/
theorem known_start {db : Database}
    (hdb : ∀ entry ∈ db.localUsers.rows, entry.source = .ldap) :
    Known lib ⟨db, fun _ => none⟩ := by
  intro entry hentry hlocal
  rw [hdb entry hentry] at hlocal
  cases hlocal

/-- In every run of the service from a database without local accounts: a login
    to a local account succeeds exactly with the password that was set last,
    as long as no login comes with another one that has the same first 72
    bytes; and only so long. -/
theorem only_current_password_iff (hlib : Bcrypt lib) (db : Database)
    (hdb : ∀ entry ∈ db.localUsers.rows, entry.source = .ldap)
    (steps : List AccountStep) :
    Along (passwordStep lib) (OnlyCurrent lib) steps ⟨db, fun _ => none⟩
      ↔ Along (passwordStep lib) ToldApart steps ⟨db, fun _ => none⟩ := by
  have hstep : ∀ s a, Known lib s → OnlyCurrent lib s a →
      Known lib (passwordStep lib a s) :=
    fun s a hs _ => known_passwordStep hs a
  exact along_congr hstep (fun s a hs => onlyCurrent_iff hlib hs a)
    (known_start hdb) steps

/-! ## Long passwords -/

/-- A hash that shows what bcrypt compares. -/
def shownHash (password : String) : String :=
  "$2b$12$" ++ String.ofList
    ((compared password).map (fun b => Char.ofNat b.toNat))

/-- Libraries with this hash. -/
def shownLib : AuthLib :=
  { CvScope.plainLib with
    hashPassword := fun password => .ok (shownHash password)
    verifyPassword := fun password hash =>
      .ok (decide (shownHash password = hash)) }

theorem toNat_ofNat_byte (b : UInt8) : (Char.ofNat b.toNat).toNat = b.toNat := by
  have hlt := b.toNat_lt
  rw [Char.ofNat, dif_pos (Or.inl (by omega))]
  rfl

theorem shownHash_inj {password other : String} :
    shownHash password = shownHash other
      ↔ compared password = compared other := by
  constructor
  · intro h
    have hlists := congrArg String.toList h
    rw [shownHash, shownHash, String.toList_append, String.toList_append,
      List.append_cancel_left_eq, String.toList_ofList,
      String.toList_ofList] at hlists
    refine List.map_injective_iff.mpr (fun b c hbc => ?_) hlists
    have hnat := congrArg Char.toNat hbc
    rw [toNat_ofNat_byte, toNat_ofNat_byte] at hnat
    exact UInt8.toNat_inj.mp hnat
  · intro h
    rw [shownHash, shownHash, h]

theorem bcrypt_shownLib : Bcrypt shownLib := by
  refine ⟨fun password => ⟨shownHash password, rfl, ?_⟩, ?_⟩
  · intro h
    have hlist := congrArg String.toList h
    rw [shownHash, String.toList_append] at hlist
    exact absurd (List.append_eq_nil_iff.mp hlist).1 (by decide)
  · intro password other hash hhash
    obtain rfl := Except.ok.inj hhash
    exact congrArg Except.ok (decide_eq_decide.mpr shownHash_inj)

/-- A directory without anybody. -/
def noDirectory : Directory where
  serviceBind := false
  search := fun _ _ => .ok []
  bind := fun _ _ => false

/-- The settings without LDAP. -/
def ldapOff : LdapSettings := ⟨false, "", "", "", ""⟩

/-- A new account whose password is changed. -/
theorem only_current_password_bob :
    Along (passwordStep shownLib) (OnlyCurrent shownLib)
      [.createUser "bob" "oldpass123",
        .changePassword "bob" "newpass456",
        .authenticate ldapOff noDirectory "bob" "oldpass123" Time.epoch]
      ⟨Database.fresh, fun _ => none⟩ := by
  refine (only_current_password_iff bcrypt_shownLib Database.fresh nofun
    _).mpr ⟨trivial, trivial, ?_, trivial⟩
  rintro - current hcurrent hsame
  obtain rfl : "newpass456" = current := Option.some.inj hcurrent
  exact absurd hsame (by decide +kernel)

/-- A text of 72 bytes. -/
def seventyTwo : String := String.ofList (List.replicate 72 'a')

/-- bcrypt looks no further. -/
theorem compared_append {first : String} (h : (encode first).length = 72)
    (rest : String) : compared (first ++ rest) = encode first := by
  rw [compared, encode, String.toList_append, List.flatMap_append]
  exact List.take_left' h

/-- The password is changed to one with the same first 72 bytes, and the old one
    still opens the account. -/
theorem old_password_opens :
    Bcrypt shownLib ∧
      ¬ Along (passwordStep shownLib) (OnlyCurrent shownLib)
        [.createUser "bob" (seventyTwo ++ "old"),
          .changePassword "bob" (seventyTwo ++ "new"),
          .authenticate ldapOff noDirectory "bob" (seventyTwo ++ "old")
            Time.epoch]
        ⟨Database.fresh, fun _ => none⟩ := by
  refine ⟨bcrypt_shownLib, fun h => ?_⟩
  have hlength : (encode seventyTwo).length = 72 := by decide +kernel
  have hknown := known_passwordStep (known_passwordStep
    (show Known shownLib ⟨Database.fresh, fun _ => none⟩ from
      known_start nofun)
      (.createUser "bob" (seventyTwo ++ "old")))
    (.changePassword "bob" (seventyTwo ++ "new"))
  have htold := (onlyCurrent_iff bcrypt_shownLib hknown _).mp h.2.2.1 rfl _ rfl
    (by rw [compared_append hlength, compared_append hlength])
  have hlists := congrArg String.toList htold
  rw [String.toList_append, String.toList_append,
    List.append_cancel_left_eq] at hlists
  exact absurd hlists (by decide)

end CvPassword
