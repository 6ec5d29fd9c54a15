import ClusterVision.OneAccountProofs

/-! # Where an account is authenticated

    An account is local, with a password hash of its own, or it belongs to the
    directory and has none.  Every function that writes the account table keeps
    it so, and none moves an account from one side to the other: a login to a
    local account never reaches the directory, and any other login succeeds
    only by it. -/

namespace CvSource

open CvProg CvRun CvTable CvIso CvKube CvBackend CvHttp CvAuth CvScope
  CvAccount

/-! ## Runs -/

/-- A call of `services/auth_service.py`.  A login comes with the directory
    as it answers at that moment. -/
inductive AccountStep where
  | ensureDefaultAdmin (password : Option String)
  | createUser (username password : String)
  | deleteUser (username : String)
  | changePassword (username newPassword : String)
  | setScopeRole (username scope : String) (role : Role)
  | deleteScopeRole (username scope : String)
  | setLinkedUser (username name ns : String)
  | clearLinkedUser (username : String)
  | authenticate (settings : LdapSettings) (directory : Directory)
      (username password : String) (now : Time)

variable (lib : AuthLib)

/-- A call. -/
def accountStep : AccountStep → Database → Database
  | .ensureDefaultAdmin password, db => ensureDefaultAdmin lib password db
  | .createUser username password, db =>
      (CvAuth.createUser lib username password db).2
  | .deleteUser username, db => (CvAuth.deleteUser username db).2
  | .changePassword username newPassword, db =>
      (changePassword lib username newPassword db).2
  | .setScopeRole username scope role, db =>
      (setScopeRole username scope role db).2
  | .deleteScopeRole username scope, db => (deleteScopeRole username scope db).2
  | .setLinkedUser username name ns, db =>
      (setLinkedUser username name ns db).2
  | .clearLinkedUser username, db => (clearLinkedUser username db).2
  | .authenticate settings directory username password now, db =>
      (authenticate ⟨lib, settings, directory⟩ username password now db).2

/-- The hashes of bcrypt are not empty. -/
def HashesNonempty : Prop :=
  ∀ password hash, lib.hashPassword password = .ok hash → hash ≠ ""

/-- A local account with a password hash, or a directory account without
    one. -/
def SoundEntry (entry : LocalUser) : Prop :=
  match entry.source with
  | .local => ∃ hash, entry.passwordHash = some hash ∧ hash ≠ ""
  | .ldap => entry.passwordHash = none

/-- Every account is one or the other. -/
def Sourced (db : Database) : Prop :=
  ∀ entry ∈ db.localUsers.rows, SoundEntry entry

/-- An account that is there before and after has the source that it had. -/
def SourceKept (db db' : Database) : Prop :=
  ∀ username entry entry', db.localUsers.get username = some entry →
    db'.localUsers.get username = some entry' → entry'.source = entry.source

/-- A login to a local account is the same whatever the directory would
    answer, and succeeds only if the stored hash verifies. -/
def LocalLogin (db : Database) : AccountStep → Prop
  | .authenticate settings directory username password now =>
      ∀ entry, db.localUsers.get username = some entry →
        entry.source = .local →
        (∀ settings' directory',
          authenticate ⟨lib, settings', directory'⟩ username password now db
            = authenticate ⟨lib, settings, directory⟩ username password now
              db) ∧
        ∀ user, (authenticate ⟨lib, settings, directory⟩ username password now
            db).1 = .ok (some user) →
          ∃ hash, entry.passwordHash = some hash ∧
            lib.verifyPassword password hash = .ok true
  | _ => True

/-- A login to any other account succeeds only if the directory accepts it in
    this call. -/
def DirectoryLogin (db : Database) : AccountStep → Prop
  | .authenticate settings directory username password now =>
      (∀ entry, db.localUsers.get username = some entry →
        entry.source = .ldap) →
      ∀ user, (authenticate ⟨lib, settings, directory⟩ username password now
          db).1 = .ok (some user) →
        ∃ result, Ldap.authenticate ⟨lib, settings, directory⟩ username password
          = .ok (some result)
  | _ => True

/-- The password and the roles of a directory account cannot be changed. -/
def DirectoryFixed (db : Database) : AccountStep → Prop
  | .changePassword username newPassword =>
      ∀ entry, db.localUsers.get username = some entry →
        entry.source = .ldap →
        ∃ e, changePassword lib username newPassword db = (.error e, db)
  | .setScopeRole username scope role =>
      ∀ entry, db.localUsers.get username = some entry →
        entry.source = .ldap →
        ∃ e, setScopeRole username scope role db = (.error e, db)
  | .deleteScopeRole username scope =>
      ∀ entry, db.localUsers.get username = some entry →
        entry.source = .ldap →
        ∃ e, deleteScopeRole username scope db = (.error e, db)
  | _ => True

/-- What a step does about the authority of authentication. -/
structure KeepsAuthority (db : Database) (a : AccountStep) : Prop where
  sourced : Sourced (accountStep lib a db)
  kept : SourceKept db (accountStep lib a db)
  localLogin : LocalLogin lib db a
  directoryLogin : DirectoryLogin lib db a
  fixed : DirectoryFixed lib db a

/-! ## What a call writes -/

/-- What a call can do to the account table. -/
inductive UsersEffect (db db' : Database) : Prop where
  | same (h : db'.localUsers = db.localUsers)
  | created (entry : LocalUser)
      (absent : db.localUsers.get entry.username = none)
      (sound : SoundEntry entry)
      (h : db'.localUsers = db.localUsers.put entry)
  | updated (old entry : LocalUser)
      (stored : db.localUsers.get entry.username = some old)
      (source : entry.source = old.source)
      (sound : SoundEntry old → SoundEntry entry)
      (h : db'.localUsers = db.localUsers.put entry)
  | deleted (username : String)
      (h : db'.localUsers = db.localUsers.erase username)

/-- Changing a field other than source and hash leaves an entry sound. -/
theorem soundEntry_congr {old entry : LocalUser}
    (hsource : entry.source = old.source)
    (hhash : entry.passwordHash = old.passwordHash) (h : SoundEntry old) :
    SoundEntry entry := by
  rw [SoundEntry, hsource, hhash]
  exact h

/-- Writing such an entry over the one of the account. -/
theorem updated_same {db db' : Database} {username : String}
    {old entry : LocalUser} (hget : db.localUsers.get username = some old)
    (h : db'.localUsers = db.localUsers.put entry)
    (hname : entry.username = old.username)
    (hsource : entry.source = old.source)
    (hhash : entry.passwordHash = old.passwordHash) : UsersEffect db db' := by
  refine .updated old entry ?_ hsource (soundEntry_congr hsource hhash) h
  rw [hname, Table.key_of_get hget]
  exact hget

theorem ensureDefaultAdmin_effect (hlib : HashesNonempty lib)
    (password : Option String) (db : Database) :
    UsersEffect db (ensureDefaultAdmin lib password db) := by
  cases password with
  | none => exact .same rfl
  | some password =>
      rw [ensureDefaultAdmin]
      by_cases hempty : password = ""
      · simp only [if_pos hempty]
        exact .same rfl
      · simp only [if_neg hempty]
        by_cases hrows : db.localUsers.rows ≠ []
        · rw [if_pos hrows]
          exact .same rfl
        · rw [if_neg hrows]
          cases hhash : lib.hashPassword password with
          | error e => exact .same rfl
          | ok hash =>
              simp only
              cases assignScopes "admin" .admin [instanceScope, localCluster]
                  db.scopeRoleAssignments with
              | error e => exact .same rfl
              | ok t =>
                  refine .created ⟨"admin", some hash, .local, none, none,
                    none⟩ ?_ ⟨hash, rfl, hlib _ _ hhash⟩ rfl
                  rw [Table.get_eq_none_iff]
                  intro entry hentry
                  rw [not_not.mp hrows] at hentry
                  exact absurd hentry List.not_mem_nil

theorem createUser_users (hlib : HashesNonempty lib)
    (username password : String) (db : Database) :
    UsersEffect db (CvAuth.createUser lib username password db).2 := by
  rw [CvAuth.createUser]
  cases hget : db.localUsers.get username with
  | some entry => exact .same rfl
  | none =>
      cases hhash : lib.hashPassword password with
      | error e => exact .same rfl
      | ok hash =>
          exact .created ⟨username, some hash, .local, none, none, none⟩ hget
            ⟨hash, rfl, hlib _ _ hhash⟩ rfl

theorem deleteUser_users (username : String) (db : Database) :
    UsersEffect db (CvAuth.deleteUser username db).2 := by
  rw [CvAuth.deleteUser]
  cases db.localUsers.get username with
  | none => exact .same rfl
  | some entry => exact .deleted username rfl

theorem changePassword_users (hlib : HashesNonempty lib)
    (username newPassword : String) (db : Database) :
    UsersEffect db (changePassword lib username newPassword db).2 := by
  rw [changePassword]
  cases hget : db.localUsers.get username with
  | none => exact .same rfl
  | some entry =>
      by_cases hsource : entry.source ≠ .local
      · simp only [if_pos hsource]
        exact .same rfl
      · simp only [if_neg hsource]
        have hlocal : entry.source = .local := not_not.mp hsource
        cases hhash : lib.hashPassword newPassword with
        | error e => exact .same rfl
        | ok hash =>
            refine .updated entry { entry with passwordHash := some hash } ?_
              rfl (fun _ => ?_) rfl
            · rw [Table.key_of_get hget]
              exact hget
            · rw [SoundEntry, hlocal]
              exact ⟨hash, rfl, hlib _ _ hhash⟩

theorem setScopeRole_users (username scope : String) (role : Role)
    (db : Database) : UsersEffect db (setScopeRole username scope role db).2 := by
  rw [setScopeRole]
  cases db.localUsers.get username with
  | none => exact .same rfl
  | some entry =>
      by_cases hsource : entry.source ≠ .local
      · simp only [if_pos hsource]
        exact .same rfl
      · simp only [if_neg hsource]
        exact .same rfl

theorem deleteScopeRole_users (username scope : String) (db : Database) :
    UsersEffect db (deleteScopeRole username scope db).2 := by
  rw [deleteScopeRole]
  cases db.localUsers.get username with
  | none => exact .same rfl
  | some entry =>
      by_cases hsource : entry.source ≠ .local
      · simp only [if_pos hsource]
        exact .same rfl
      · simp only [if_neg hsource]
        cases db.scopeRoleAssignments.get (username, scope) with
        | none => exact .same rfl
        | some a => exact .same rfl

theorem setLinkedUser_users (username name ns : String) (db : Database) :
    UsersEffect db (setLinkedUser username name ns db).2 := by
  rw [setLinkedUser]
  cases hget : db.localUsers.get username with
  | none => exact .same rfl
  | some entry =>
      cases db.managedUsers.get (name, ns) with
      | none => exact .same rfl
      | some u =>
          show UsersEffect db (withAccount db _)
          exact updated_same hget rfl rfl rfl rfl

theorem clearLinkedUser_users (username : String) (db : Database) :
    UsersEffect db (clearLinkedUser username db).2 := by
  rw [clearLinkedUser]
  cases hget : db.localUsers.get username with
  | none => exact .same rfl
  | some entry =>
      show UsersEffect db (withAccount db _)
      exact updated_same hget rfl rfl rfl rfl

/-- Replacing the roles of a name leaves the accounts. -/
theorem resyncLdapRoles_users {username : String} {role : Role}
    {db db' : Database} (h : resyncLdapRoles username role db = .ok db') :
    db'.localUsers = db.localUsers := by
  rw [resyncLdapRoles] at h
  split at h
  · cases h
  · obtain rfl := Except.ok.inj h
    rfl

theorem authenticateLocal_users (env : AuthEnv) {entry : LocalUser}
    {username : String} (password : String) (now : Time) {db : Database}
    (hget : db.localUsers.get username = some entry) :
    UsersEffect db (authenticateLocal env entry password now db).2 := by
  rw [authenticateLocal]
  cases env.lib.verifyPassword password (LocalUser.hash entry) with
  | error e => exact .same rfl
  | ok verified =>
      cases verified with
      | false => exact .same rfl
      | true =>
          show UsersEffect db (withAccount db _)
          exact updated_same hget rfl rfl rfl rfl

/-- A name that the directory accepts gets an account of the directory, or
    keeps the one it has. -/
theorem provisioned_users {username : String} (now : Time) {role : Role}
    {db db' : Database}
    (h : resyncLdapRoles username role (withAccount db
      (provisioned (db.localUsers.get username) username now)) = .ok db') :
    UsersEffect db db' := by
  have husers := resyncLdapRoles_users h
  cases hget : db.localUsers.get username with
  | none =>
      rw [hget] at husers
      exact .created (provisioned none username now) hget rfl husers
  | some entry =>
      rw [hget] at husers
      exact updated_same hget husers rfl rfl rfl

theorem authenticateLdap_users (env : AuthEnv) (username password : String)
    (now : Time) (db : Database) :
    UsersEffect db (authenticateLdap env (db.localUsers.get username) username
      password now db).2 := by
  rw [authenticateLdap]
  cases Ldap.authenticate env username password with
  | error e => exact .same rfl
  | ok found =>
      cases found with
      | none =>
          simp only
          cases env.lib.verifyPassword password dummyHash with
          | error e => exact .same rfl
          | ok verified => exact .same rfl
      | some result =>
          simp only
          cases hresync : resyncLdapRoles username result.role (withAccount db
              (provisioned (db.localUsers.get username) username now)) with
          | error e => exact .same rfl
          | ok db' => exact provisioned_users now hresync

/-- A login goes by the stored hash, or by the directory. -/
theorem authenticate_eq (env : AuthEnv) (username password : String)
    (now : Time) (db : Database) :
    (∃ entry, db.localUsers.get username = some entry ∧
      entry.source = .local ∧
      authenticate env username password now db
        = authenticateLocal env entry password now db) ∨
    ((∀ entry, db.localUsers.get username = some entry →
        entry.source = .ldap) ∧
      authenticate env username password now db
        = authenticateLdap env (db.localUsers.get username) username password
          now db) := by
  rw [authenticate]
  cases hget : db.localUsers.get username with
  | none => exact Or.inr ⟨(fun _ h => by cases h), rfl⟩
  | some entry =>
      cases hsource : entry.source with
      | «local» =>
          refine Or.inl ⟨entry, rfl, hsource, ?_⟩
          simp only [hsource, if_true]
      | ldap =>
          refine Or.inr ⟨?_, ?_⟩
          · intro entry' hentry
            obtain rfl := Option.some.inj hentry
            exact hsource
          · simp only [hsource, reduceCtorEq, if_false]

/-- What every call does to the account table. -/
theorem accountStep_users (hlib : HashesNonempty lib) (a : AccountStep)
    (db : Database) : UsersEffect db (accountStep lib a db) := by
  cases a with
  | ensureDefaultAdmin password =>
      exact ensureDefaultAdmin_effect lib hlib password db
  | createUser username password =>
      exact createUser_users lib hlib username password db
  | deleteUser username => exact deleteUser_users username db
  | changePassword username newPassword =>
      exact changePassword_users lib hlib username newPassword db
  | setScopeRole username scope role =>
      exact setScopeRole_users username scope role db
  | deleteScopeRole username scope =>
      exact deleteScopeRole_users username scope db
  | setLinkedUser username name ns =>
      exact setLinkedUser_users username name ns db
  | clearLinkedUser username => exact clearLinkedUser_users username db
  | authenticate settings directory username password now =>
      rcases authenticate_eq ⟨lib, settings, directory⟩ username password now
        db with ⟨entry, hget, -, heq⟩ | ⟨-, heq⟩
      · rw [accountStep, heq]
        exact authenticateLocal_users _ password now hget
      · rw [accountStep, heq]
        exact authenticateLdap_users _ username password now db

/-! ## What every call keeps -/

theorem sourced_effect {db db' : Database} (h : UsersEffect db db')
    (hdb : Sourced db) : Sourced db' := by
  intro x hx
  cases h with
  | same h =>
      rw [h] at hx
      exact hdb x hx
  | created entry absent sound h =>
      rw [h] at hx
      rcases Table.mem_put.mp hx with rfl | ⟨hx, -⟩
      · exact sound
      · exact hdb x hx
  | updated old entry stored source sound h =>
      rw [h] at hx
      rcases Table.mem_put.mp hx with rfl | ⟨hx, -⟩
      · exact sound (hdb old (Table.mem_of_get stored))
      · exact hdb x hx
  | deleted username h =>
      rw [h] at hx
      exact hdb x (Table.mem_erase.mp hx).1

theorem sourceKept_effect {db db' : Database} (h : UsersEffect db db') :
    SourceKept db db' := by
  intro username x x' hx hx'
  cases h with
  | same h =>
      rw [h, hx] at hx'
      rw [Option.some.inj hx']
  | created entry absent sound h =>
      rw [h, Table.get_put] at hx'
      by_cases hname : username = entry.username
      · rw [hname, absent] at hx
        cases hx
      · rw [if_neg hname, hx] at hx'
        rw [Option.some.inj hx']
  | updated old entry stored source sound h =>
      rw [h, Table.get_put] at hx'
      by_cases hname : username = entry.username
      · rw [if_pos hname] at hx'
        rw [hname, stored] at hx
        rw [← Option.some.inj hx', ← Option.some.inj hx]
        exact source
      · rw [if_neg hname, hx] at hx'
        rw [Option.some.inj hx']
  | deleted name h =>
      rw [h, Table.get_erase] at hx'
      by_cases hname : username = name
      · rw [if_pos hname] at hx'
        cases hx'
      · rw [if_neg hname, hx] at hx'
        rw [Option.some.inj hx']

/-- A local login that succeeds has verified the hash of the account, and
    stamps it. -/
theorem authenticateLocal_done {env : AuthEnv} {entry : LocalUser}
    {password : String} {now : Time} {db db' : Database} {user : UserInfo}
    (h : authenticateLocal env entry password now db
      = (.ok (some user), db')) :
    env.lib.verifyPassword password (LocalUser.hash entry) = .ok true ∧
      db' = withAccount db { entry with lastLoginAt := some (utc now) } ∧
      user = ⟨entry.username, rolesFor db' entry.username⟩ := by
  rw [authenticateLocal] at h
  cases hverify : env.lib.verifyPassword password (LocalUser.hash entry) with
  | error e =>
      rw [hverify] at h
      cases h
  | ok verified =>
      rw [hverify] at h
      cases verified with
      | false => cases h
      | true =>
          cases h
          exact ⟨rfl, rfl, rfl⟩

/-- The hash of a sound account is the one stored. -/
theorem authenticateLocal_ok {env : AuthEnv} {entry : LocalUser}
    {password : String} {now : Time} {db : Database} {user : UserInfo}
    (hsound : SoundEntry entry) (hsource : entry.source = .local)
    (h : (authenticateLocal env entry password now db).1 = .ok (some user)) :
    ∃ hash, entry.passwordHash = some hash ∧
      env.lib.verifyPassword password hash = .ok true := by
  rw [SoundEntry, hsource] at hsound
  obtain ⟨hash, hhash, hne⟩ := hsound
  have hstored : LocalUser.hash entry = hash := by
    rw [LocalUser.hash, hhash]
    exact if_neg hne
  refine ⟨hash, hhash, ?_⟩
  rw [← hstored]
  exact (authenticateLocal_done (Prod.ext h rfl)).1

theorem localLogin_holds {db : Database} (hdb : Sourced db)
    (a : AccountStep) : LocalLogin lib db a := by
  cases a with
  | authenticate settings directory username password now =>
      intro entry hget hsource
      have hlocal : ∀ settings' directory',
          authenticate ⟨lib, settings', directory'⟩ username password now db
            = authenticateLocal ⟨lib, settings', directory'⟩ entry password
              now db := by
        intro settings' directory'
        rw [authenticate, hget]
        exact if_pos hsource
      refine ⟨?_, ?_⟩
      · intro settings' directory'
        rw [hlocal, hlocal]
        rfl
      · intro user h
        rw [hlocal] at h
        exact authenticateLocal_ok (hdb entry (Table.mem_of_get hget)) hsource
          h
  | _ => exact trivial

/-- Any other login that succeeds was accepted by the directory, and replaces
    the roles. -/
theorem authenticateLdap_done {env : AuthEnv} {entry : Option LocalUser}
    {username password : String} {now : Time} {db db' : Database}
    {user : UserInfo}
    (h : authenticateLdap env entry username password now db
      = (.ok (some user), db')) :
    ∃ result, Ldap.authenticate env username password = .ok (some result) ∧
      resyncLdapRoles username result.role
        (withAccount db (provisioned entry username now)) = .ok db' ∧
      user = ⟨username, rolesFor db' username⟩ := by
  rw [authenticateLdap] at h
  cases hldap : Ldap.authenticate env username password with
  | error e =>
      rw [hldap] at h
      cases h
  | ok found =>
      rw [hldap] at h
      cases found with
      | none =>
          simp only at h
          cases hdummy : env.lib.verifyPassword password dummyHash with
          | error e =>
              rw [hdummy] at h
              cases h
          | ok verified =>
              rw [hdummy] at h
              cases h
      | some result =>
          simp only at h
          cases hresync : resyncLdapRoles username result.role
              (withAccount db (provisioned entry username now)) with
          | error e =>
              rw [hresync] at h
              cases h
          | ok db₁ =>
              rw [hresync] at h
              cases h
              exact ⟨result, rfl, hresync, rfl⟩

theorem directoryLogin_holds (db : Database) (a : AccountStep) :
    DirectoryLogin lib db a := by
  cases a with
  | authenticate settings directory username password now =>
      intro hother user h
      rcases authenticate_eq ⟨lib, settings, directory⟩ username password now
        db with ⟨entry, hget, hsource, -⟩ | ⟨-, heq⟩
      · rw [hother entry hget] at hsource
        cases hsource
      · rw [heq] at h
        obtain ⟨result, hldap, -⟩ := authenticateLdap_done (Prod.ext h rfl)
        exact ⟨result, hldap⟩
  | _ => exact trivial

theorem directoryFixed_holds (db : Database) (a : AccountStep) :
    DirectoryFixed lib db a := by
  have hne : ∀ {entry : LocalUser}, entry.source = .ldap →
      entry.source ≠ .local := by
    intro entry hldap hlocal
    rw [hldap] at hlocal
    cases hlocal
  cases a with
  | changePassword username newPassword =>
      intro entry hget hsource
      refine ⟨noLocalPassword username, ?_⟩
      rw [changePassword, hget]
      exact if_pos (hne hsource)
  | setScopeRole username scope role =>
      intro entry hget hsource
      refine ⟨rolesManaged username, ?_⟩
      rw [setScopeRole, hget]
      exact if_pos (hne hsource)
  | deleteScopeRole username scope =>
      intro entry hget hsource
      refine ⟨rolesManaged username, ?_⟩
      rw [deleteScopeRole, hget]
      exact if_pos (hne hsource)
  | _ => exact trivial

/-! ## Every run -/

/-- In every run no account changes its authority of authentication. -/
theorem accounts_keep_authority (hlib : HashesNonempty lib) (db : Database)
    (hdb : Sourced db) (steps : List AccountStep) :
    Along (accountStep lib) (KeepsAuthority lib) steps db := by
  have hstep : ∀ db a, Sourced db → Sourced (accountStep lib a db) :=
    fun db a h => sourced_effect (accountStep_users lib hlib a db) h
  refine along_of_inv hstep ?_ hdb steps
  intro db a h
  exact {
    sourced := hstep db a h
    kept := sourceKept_effect (accountStep_users lib hlib a db)
    localLogin := localLogin_holds lib h a
    directoryLogin := directoryLogin_holds lib db a
    fixed := directoryFixed_holds lib db a }

theorem plainLib_hashesNonempty : HashesNonempty plainLib := by
  intro password hash h hempty
  obtain rfl := Except.ok.inj h
  simp at hempty

/-- A new installation: its first admin, a local account, a login through the
    directory, and an attempt to give the directory account a password. -/
theorem fresh_keeps_authority :
    Along (accountStep plainLib) (KeepsAuthority plainLib)
      [.ensureDefaultAdmin (some "initial"), .createUser "eve" "pw",
        .authenticate oneEntry.settings oneEntry.directory "ada" "pw"
          Time.epoch, .changePassword "ada" "other"]
      Database.fresh :=
  accounts_keep_authority plainLib plainLib_hashesNonempty Database.fresh
    (fun _ h => absurd h List.not_mem_nil) _

end CvSource
