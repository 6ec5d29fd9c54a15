import ClusterVision.LdapService

/-! # Accounts

    `services/auth_service.py`.  A local account has a password hash; any other
    name is checked against the directory, and gets an account at its first
    login.  The roles of an account are rows, one for each scope: a cluster
    name, `local`, or `_instance`.  A function of the service is one session,
    so it is a function on the database. -/

namespace CvAuth

open CvProg CvTable CvIso CvKube CvBackend CvHttp

/-! ## Roles -/

/-- The role assignments of the database. -/
abbrev Assignments := Table ScopeRoleAssignment ScopeRoleAssignment.key

/-- The database with other role assignments. -/
def withAssignments (db : Database) (t : Assignments) : Database :=
  { db with scopeRoleAssignments := t }

/-- The database with an account written. -/
def withAccount (db : Database) (entry : LocalUser) : Database :=
  { db with localUsers := db.localUsers.put entry }

/-- `_roles_for`. -/
def rolesFor (db : Database) (username : String) : String → Option Role :=
  fun scope => (db.scopeRoleAssignments.get (username, scope)).map
    ScopeRoleAssignment.role

/-- `_all_scopes`, which is `list_scopes`. -/
def allScopes (db : Database) : List String :=
  instanceScope :: localCluster ::
    db.registeredClusters.rows.map RegisteredCluster.name

/-- New assignments of one role; an assignment that is there already is an
    `IntegrityError`. -/
def assignScopes (username : String) (role : Role) :
    List String → Assignments → Except Exn Assignments
  | [], t => .ok t
  | scope :: scopes, t =>
      match t.get (username, scope) with
      | some _ => .error .integrityError
      | none => assignScopes username role scopes (t.put ⟨username, scope, role⟩)

/-- `_resync_ldap_roles`. -/
def resyncLdapRoles (username : String) (role : Role) (db : Database) :
    Except Exn Database :=
  match assignScopes username role (allScopes db)
      (db.scopeRoleAssignments.keep
        (fun a => decide (a.username ≠ username))) with
  | .error e => .error e
  | .ok t => .ok (withAssignments db t)

/-! ## Logging in -/

/-- `_DUMMY_HASH`. -/
def dummyHash : String :=
  "$2b$12$Kix0GsNjGUDMHlTGtqKhCOSVRAf5Y/LNmXZnkgDlJwO7hzf5Q7Psy"

/-- `entry.password_hash or _DUMMY_HASH`. -/
def LocalUser.hash (entry : LocalUser) : String :=
  match entry.passwordHash with
  | none => dummyHash
  | some hash => if hash = "" then dummyHash else hash

/-- `authenticate`, for a local account. -/
def authenticateLocal (env : AuthEnv) (entry : LocalUser) (password : String)
    (now : Time) (db : Database) : Except Exn (Option UserInfo) × Database :=
  match env.lib.verifyPassword password (LocalUser.hash entry) with
  | .error e => (.error e, db)
  | .ok false => (.ok none, db)
  | .ok true =>
      let db' := withAccount db { entry with lastLoginAt := some (utc now) }
      (.ok (some ⟨entry.username, rolesFor db' entry.username⟩), db')

/-- The account of a name that the directory has verified: a new one, or the
    one it has. -/
def provisioned (entry : Option LocalUser) (username : String) (now : Time) :
    LocalUser :=
  match entry with
  | none => ⟨username, none, .ldap, some (utc now), none, none⟩
  | some entry => { entry with lastLoginAt := some (utc now) }

/-- `authenticate`, for a name without a local account. -/
def authenticateLdap (env : AuthEnv) (entry : Option LocalUser)
    (username password : String) (now : Time) (db : Database) :
    Except Exn (Option UserInfo) × Database :=
  match Ldap.authenticate env username password with
  | .error e => (.error e, db)
  | .ok none =>
      match env.lib.verifyPassword password dummyHash with
      | .error e => (.error e, db)
      | .ok _ => (.ok none, db)
  | .ok (some result) =>
      match resyncLdapRoles username result.role
          (withAccount db (provisioned entry username now)) with
      | .error e => (.error e, db)
      | .ok db' => (.ok (some ⟨username, rolesFor db' username⟩), db')

/-- `authenticate`. -/
def authenticate (env : AuthEnv) (username password : String) (now : Time)
    (db : Database) : Except Exn (Option UserInfo) × Database :=
  match db.localUsers.get username with
  | none => authenticateLdap env none username password now db
  | some entry =>
      if entry.source = .local then
        authenticateLocal env entry password now db
      else authenticateLdap env (some entry) username password now db

/-! ## Accounts and their roles -/

/-- The answer for a name without an account. -/
def userNotFound (username : String) : Exn :=
  .httpException 404 ("User '" ++ username ++ "' not found")

/-- `create_user`. -/
def createUser (lib : AuthLib) (username password : String) (db : Database) :
    Except Exn Unit × Database :=
  match db.localUsers.get username with
  | some _ =>
      (.error (.httpException 409
        ("User '" ++ username ++ "' already exists")), db)
  | none =>
      match lib.hashPassword password with
      | .error e => (.error e, db)
      | .ok hash =>
          (.ok (), withAccount db
            ⟨username, some hash, .local, none, none, none⟩)

/-- `delete_user`. -/
def deleteUser (username : String) (db : Database) :
    Except Exn Unit × Database :=
  match db.localUsers.get username with
  | none => (.error (userNotFound username), db)
  | some _ =>
      (.ok (), { db with
        localUsers := db.localUsers.erase username
        scopeRoleAssignments := db.scopeRoleAssignments.keep
          (fun a => decide (a.username ≠ username)) })

/-- The answer to a change of the password of a directory account. -/
def noLocalPassword (username : String) : Exn :=
  .httpException 400 ("'" ++ username
    ++ "' is an LDAP-managed account and has no local password")

/-- `change_password`. -/
def changePassword (lib : AuthLib) (username newPassword : String)
    (db : Database) : Except Exn Unit × Database :=
  match db.localUsers.get username with
  | none => (.error (userNotFound username), db)
  | some entry =>
      if entry.source ≠ .local then (.error (noLocalPassword username), db)
      else
        match lib.hashPassword newPassword with
        | .error e => (.error e, db)
        | .ok hash =>
            (.ok (), withAccount db { entry with passwordHash := some hash })

/-- `ensure_default_admin`, with the value of `CV_ADMIN_PASSWORD`.  What goes
    wrong is logged. -/
def ensureDefaultAdmin (lib : AuthLib) (password : Option String)
    (db : Database) : Database :=
  match password with
  | none => db
  | some password =>
      if password = "" then db
      else if db.localUsers.rows ≠ [] then db
      else
        match lib.hashPassword password with
        | .error _ => db
        | .ok hash =>
            match assignScopes "admin" .admin [instanceScope, localCluster]
                db.scopeRoleAssignments with
            | .error _ => db
            | .ok t =>
                withAssignments (withAccount db
                  ⟨"admin", some hash, .local, none, none, none⟩) t

/-- The answer to a change of the roles of a directory account. -/
def rolesManaged (username : String) : Exn :=
  .httpException 400
    ("'" ++ username ++ "'s roles are managed via AD group membership")

/-- `set_scope_role`. -/
def setScopeRole (username scope : String) (role : Role) (db : Database) :
    Except Exn Unit × Database :=
  match db.localUsers.get username with
  | none => (.error (userNotFound username), db)
  | some entry =>
      if entry.source ≠ .local then (.error (rolesManaged username), db)
      else
        (.ok (), withAssignments db
          (db.scopeRoleAssignments.put ⟨username, scope, role⟩))

/-- `delete_scope_role`. -/
def deleteScopeRole (username scope : String) (db : Database) :
    Except Exn Unit × Database :=
  match db.localUsers.get username with
  | none => (.error (userNotFound username), db)
  | some entry =>
      if entry.source ≠ .local then (.error (rolesManaged username), db)
      else
        match db.scopeRoleAssignments.get (username, scope) with
        | none =>
            (.error (.httpException 404
              ("'" ++ username ++ "' has no role on scope '" ++ scope
                ++ "'")), db)
        | some _ =>
            (.ok (), withAssignments db
              (db.scopeRoleAssignments.erase (username, scope)))

/-! ## What an account shows -/

/-- The link of an account, as `_linked_dict` gives it. -/
def linkedDict (entry : LocalUser) : Option (String × Option String) :=
  entry.linkedManagedUser.map
    (fun name => (name, entry.linkedManagedUserNamespace))

/-- What `get_user_entry` gives. -/
structure UserEntry where
  username : String
  roles : String → Option Role
  linkedManagedUser : Option (String × Option String)

/-- `get_user_entry`. -/
def getUserEntry (username : String) (db : Database) : Option UserEntry :=
  (db.localUsers.get username).map
    (fun entry => ⟨username, rolesFor db username, linkedDict entry⟩)

/-! ## Links -/

/-- `set_linked_user`. -/
def setLinkedUser (username name ns : String) (db : Database) :
    Except Exn Unit × Database :=
  match db.localUsers.get username with
  | none => (.error (userNotFound username), db)
  | some entry =>
      match db.managedUsers.get (name, ns) with
      | none =>
          (.error (.httpException 404 ("Managed user '" ++ name
            ++ "' not found in namespace '" ++ ns ++ "'")), db)
      | some _ =>
          (.ok (), withAccount db { entry with
            linkedManagedUser := some name
            linkedManagedUserNamespace := some ns })

/-- `clear_linked_user`. -/
def clearLinkedUser (username : String) (db : Database) :
    Except Exn Unit × Database :=
  match db.localUsers.get username with
  | none => (.error (userNotFound username), db)
  | some entry =>
      (.ok (), withAccount db { entry with
        linkedManagedUser := none
        linkedManagedUserNamespace := none })

end CvAuth
