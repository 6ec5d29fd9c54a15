import ClusterVision.UserServices
import ClusterVision.AccessRequestService

/-! # The gates and the routes

    The users, rbac and cluster routers behind their gates: what a request of
    an account does, and what it is answered.  Requests are those that FastAPI
    has parsed.  A request has a cluster in its query, `local` when it names
    none. -/

namespace CvHttp

open CvProg CvPage CvTable CvIso CvKube CvBackend CvRbac CvAccess CvRegistry
open CvUsers

/-! ## Accounts and gates -/

/-- `UserInfo`: the account of an access token, and its role on each scope. -/
structure UserInfo where
  username : String
  roles : String → Option Role

/-- `_INSTANCE_SCOPE`. -/
def instanceScope : String := "_instance"

/-- The HTTP methods of the routes. -/
inductive Method where
  | get
  | post
  | put
  | patch
  | delete
deriving DecidableEq, Repr

/-- `instance_gate`. -/
def instanceGate (method : Method) (user : UserInfo) : Except Exn Unit :=
  if method ≠ .get ∧ user.roles instanceScope ≠ some .admin then
    .error (.httpException 403 "Admin access required")
  else .ok ()

/-- `auth_gate`. -/
def authGate (method : Method) (cluster : String) (user : UserInfo) :
    Except Exn Unit :=
  match user.roles cluster with
  | none =>
      .error (.httpException 403 ("No access to cluster '" ++ cluster ++ "'"))
  | some role =>
      if method ≠ .get ∧ role ≠ .operator ∧ role ≠ .admin then
        .error (.httpException 403 "Operator access required")
      else .ok ()

/-! ## Responses -/

/-- `UserRead`. -/
structure UserRead where
  name : String
  userType : UserType
  groups : List String
  ns : String
  createdAt : String
  certExpiry : Option String
  csrName : Option String
deriving DecidableEq

/-- An entry as the endpoints show it. -/
def userRead (u : RegistryEntry) : UserRead :=
  ⟨u.name, u.type, u.groups, u.ns, u.createdAt, u.certExpiry, u.csrName⟩

/-- `ClusterInfo`. -/
structure ClusterInfo where
  name : String
  apiUrl : String
  isLocal : Bool
deriving DecidableEq

/-- The bodies of the responses. -/
inductive Body where
  | empty
  | detail (text : String)
  | userList (users : List UserRead) (total : Nat)
  | user (u : UserRead)
  | userWithCredentials (u : UserRead) (privateKey : Option PrivateKey)
      (certificate : Option Certificate) (vaultPath : Option String)
  | serviceAccounts (sas : List (String × String))
  | roles (page : PaginatedList RoleRead RoleObject)
  | bindings (page : PaginatedList BindingRead Binding)
  | bindingList (bindings : List BindingRead)
  | permissions (username : String) (clusterBindings : List BindingRead)
      (namespaceBindings : List BindingRead)
  | namespaces (names : List String)
  | access (entries : List NamespaceAccessEntry)
  | version (info : VersionInfo)
  | clusters (infos : List ClusterInfo)
deriving DecidableEq

/-- A response. -/
structure Response where
  status : Nat
  body : Body
deriving DecidableEq

/-- The reason phrase of an answer of the API server. -/
def reasonPhrase (status : Nat) : String :=
  if status = 404 then "Not Found"
  else if status = 409 then "Conflict"
  else if status = 403 then "Forbidden"
  else if status = 503 then "Service Unavailable"
  else "Internal Server Error"

/-- `k8s_exception_to_http`. -/
def k8sExceptionToHttp (e : ApiException) : Response :=
  if e.status = 404 then ⟨404, .detail (reasonPhrase 404)⟩
  else if e.status = 409 then ⟨409, .detail "Resource already exists"⟩
  else if e.status = 403 then
    ⟨403, .detail "Forbidden: insufficient permissions"⟩
  else ⟨500, .detail ("Kubernetes API error: " ++ reasonPhrase e.status)⟩

/-- The registered exception handlers; an exception without one is a 500. -/
def errorResponse : Exn → Response
  | .api e => k8sExceptionToHttp e
  | .userNotFoundError username =>
      ⟨404, .detail (Exn.userNotFoundError username).text⟩
  | .userAlreadyExistsError username =>
      ⟨409, .detail (Exn.userAlreadyExistsError username).text⟩
  | .httpException status detail => ⟨status, .detail detail⟩
  | _ => ⟨500, .detail "Internal Server Error"⟩

/-- The response to a request whose route has the given success status. -/
def toResponse (status : Nat) : Except Exn Body → Response
  | .ok body => ⟨status, body⟩
  | .error e => errorResponse e

/-! ## The users router -/

/-- `UserCreate`. -/
structure UserCreate where
  name : String
  userType : UserType
  groups : List String
  ns : String

/-- `UserImport`. -/
structure UserImport where
  name : String
  userType : UserType
  ns : String
  groups : List String

/-- The routes of `routers/users.py`. -/
inductive UsersEndpoint where
  | listUsers
  | createUser (payload : UserCreate)
  | listUnmanagedServiceAccounts
  | importUser (payload : UserImport)
  | getUser (username : String)
  | deleteUser (username : String) (userType : UserType) (ns : String)

/-- The method of a route. -/
def UsersEndpoint.method : UsersEndpoint → Method
  | .createUser _ => .post
  | .importUser _ => .post
  | .deleteUser _ _ _ => .delete
  | _ => .get

/-- The success status of a route. -/
def UsersEndpoint.status : UsersEndpoint → Nat
  | .createUser _ => 201
  | .importUser _ => 201
  | .deleteUser _ _ _ => 204
  | _ => 200

/-- `list_users`. -/
def listUsers : Svc Body := do
  let certUsers ← Certificate.listUsers
  let saUsers ← ServiceAccount.listUsers
  let allUsers := certUsers ++ saUsers
  pure (.userList (allUsers.map userRead) allUsers.length)

/-- `create_user`. -/
def createUser (cluster : String) (payload : UserCreate) : Svc Body :=
  if payload.userType = .certificate then do
    let c ← Certificate.createUser cluster payload.name payload.groups
    pure (.userWithCredentials (userRead c.user) c.privateKey
      (some c.certificate) c.vaultPath)
  else do
    let user ← ServiceAccount.createUser cluster payload.name payload.ns
    pure (.userWithCredentials (userRead user) none none none)

/-- `import_user`. -/
def importUser (cluster : String) (payload : UserImport) : Svc Body :=
  if payload.userType = .certificate then do
    let user ← Certificate.importUser payload.name payload.groups
    pure (.user (userRead user))
  else do
    let user ← ServiceAccount.importUser cluster payload.name payload.ns
    pure (.user (userRead user))

/-- `except UserNotFoundError`. -/
def onUserNotFound {α : Type} (p otherwise : Svc α) : Svc α :=
  tryCatch p fun e =>
    match e with
    | .userNotFoundError _ => otherwise
    | e => throw e

/-- `get_user`. -/
def getUser (username : String) : Svc Body := do
  let user ← onUserNotFound (Certificate.getUser username)
    (onUserNotFound (ServiceAccount.getUser username none)
      (throw (.httpException 404 ("User '" ++ username ++ "' not found"))))
  pure (.user (userRead user))

/-- The namespace whose links `delete_user` clears. -/
def linkedNamespace (userType : UserType) (ns : String) : String :=
  if userType = .certificate then "default" else ns

/-- The part of `delete_user` that belongs to the type of the user. -/
def deleteManagedUser (cluster username : String) (userType : UserType)
    (ns : String) : Svc Unit :=
  if userType = .certificate then Certificate.deleteUser cluster username
  else ServiceAccount.deleteUser cluster username ns

/-- `delete_user`. -/
def deleteUser (fuel : Nat) (cluster username : String)
    (userType : UserType) (ns : String) : Svc Body := do
  deleteManagedUser cluster username userType ns
  deleteUserBindings fuel cluster username
  clearLinksTo username (linkedNamespace userType ns)
  pure .empty

/-- What a route of the users router does with the cluster of its client. -/
def UsersEndpoint.prog (fuel : Nat) (cluster : String) :
    UsersEndpoint → Svc Body
  | .listUsers => CvHttp.listUsers
  | .createUser payload => CvHttp.createUser cluster payload
  | .listUnmanagedServiceAccounts => do
      let sas ← ServiceAccount.listUnmanaged cluster
      pure (.serviceAccounts sas)
  | .importUser payload => CvHttp.importUser cluster payload
  | .getUser username => CvHttp.getUser username
  | .deleteUser username userType ns =>
      CvHttp.deleteUser fuel cluster username userType ns

/-! ## The access simulator -/

/-- `CheckAccessRequest`. -/
structure CheckAccessRequest where
  user : String
  verb : String
  resource : String
  ns : Option String := none
  apiGroup : String := ""

/-- The user and the groups that `check_access` simulates for a name. -/
def resolveSubject (user : String) : Svc (String × List String) :=
  onUserNotFound
    (do
      let certUser ← Certificate.getUser user
      pure (user, certUser.groups ++ ["system:authenticated"]))
    (onUserNotFound
      (do
        let saUser ← ServiceAccount.getUser user none
        pure ("system:serviceaccount:" ++ saUser.ns ++ ":" ++ user,
          ["system:serviceaccounts", "system:serviceaccounts:" ++ saUser.ns,
            "system:authenticated"]))
      (pure (user, [])))

/-- `check_access`. -/
def checkAccess (cluster : String) (payload : CheckAccessRequest) :
    Svc AccessResult := do
  let (sarUser, groups) ← resolveSubject payload.user
  CvRbac.checkAccess cluster sarUser payload.verb payload.resource payload.ns
    payload.apiGroup groups

/-! ## The rbac router -/

/-- The routes of `routers/rbac.py`, without the writes to roles and the access
    simulator. -/
inductive RbacEndpoint where
  | listClusterRoles (includeSystem : Bool) (limit : Nat)
      (cursor : Option (Cursor RoleObject))
  | listRoles (ns : String) (limit : Nat)
      (cursor : Option (Cursor RoleObject))
  | listClusterBindings (limit : Nat) (cursor : Option (Cursor Binding))
  | createClusterBinding (name roleName : String) (subjects : List Subject)
  | deleteClusterBinding (name : String)
  | listNamespaceBindings (ns : String)
  | createNamespaceBinding (ns name roleName : String) (roleKind : RoleKind)
      (subjects : List Subject)
  | deleteNamespaceBinding (ns name : String)
  | getUserPermissions (username : String)
  | assignRole (username userKind roleName : String) (roleKind : RoleKind)
      (ns saNamespace : Option String)
  | revokeRole (username roleName : String) (ns : Option String)
  | listNamespaces
  | getNamespaceAccess (ns : String)

/-- The method of a route. -/
def RbacEndpoint.method : RbacEndpoint → Method
  | .createClusterBinding _ _ _ => .post
  | .deleteClusterBinding _ => .delete
  | .createNamespaceBinding _ _ _ _ _ => .post
  | .deleteNamespaceBinding _ _ => .delete
  | .assignRole _ _ _ _ _ _ => .post
  | .revokeRole _ _ _ => .delete
  | _ => .get

/-- The success status of a route. -/
def RbacEndpoint.status : RbacEndpoint → Nat
  | .createClusterBinding _ _ _ => 201
  | .deleteClusterBinding _ => 204
  | .createNamespaceBinding _ _ _ _ _ => 201
  | .deleteNamespaceBinding _ _ => 204
  | .assignRole _ _ _ _ _ _ => 204
  | .revokeRole _ _ _ => 204
  | _ => 200

/-- What a route of the rbac router does with the cluster of its client.  What
    the two create functions return does not fit their response model. -/
def RbacEndpoint.prog (fuel : Nat) (cluster : String) :
    RbacEndpoint → Svc Body
  | .listClusterRoles includeSystem limit cursor => do
      let page ← CvRbac.listClusterRoles cluster includeSystem limit cursor
      pure (.roles page)
  | .listRoles ns limit cursor => do
      let page ← CvRbac.listRoles cluster ns limit cursor
      pure (.roles page)
  | .listClusterBindings limit cursor => do
      let page ← listClusterRoleBindings cluster limit cursor
      pure (.bindings page)
  | .createClusterBinding name roleName subjects => do
      let _ ← createClusterRoleBinding cluster name roleName subjects
      throw .responseValidationError
  | .deleteClusterBinding name => do
      deleteClusterRoleBinding cluster name
      pure .empty
  | .listNamespaceBindings ns => do
      let bindings ← listRoleBindings cluster ns
      pure (.bindingList bindings)
  | .createNamespaceBinding ns name roleName roleKind subjects => do
      let _ ← createRoleBinding cluster ns name roleName roleKind subjects
      throw .responseValidationError
  | .deleteNamespaceBinding ns name => do
      deleteRoleBinding cluster ns name
      pure .empty
  | .getUserPermissions username => do
      let clusterBindings ← clusterBindingsFor fuel cluster username
      let namespaceBindings ← namespaceBindingsFor fuel cluster username
      pure (.permissions username clusterBindings namespaceBindings)
  | .assignRole username userKind roleName roleKind ns saNamespace => do
      CvRbac.assignRole cluster username userKind roleName roleKind ns
        saNamespace
      pure .empty
  | .revokeRole username roleName ns => do
      CvRbac.revokeRole cluster username roleName ns
      pure .empty
  | .listNamespaces => do
      let names ← CvRbac.listNamespaces cluster
      pure (.namespaces names)
  | .getNamespaceAccess ns => do
      let entries ← CvRbac.getNamespaceAccess fuel cluster ns
      pure (.access entries)

/-! ## The cluster router -/

/-- The `GET` routes of `routers/cluster.py` that read clusters. -/
inductive ClusterEndpoint where
  | clusterInfo
  | listClusters

/-- `cluster_info`. -/
def clusterInfo (cluster : String) : Svc Body := do
  let info : VersionInfo ← kube cluster .getCode
  pure (.version info)

/-- `list_clusters`. -/
def listClusters : Svc Body := do
  let remote : List RegisteredCluster ← db .selectRegisteredClusters
  pure (.clusters (⟨localCluster, "", true⟩ ::
    remote.map (fun c => ⟨c.name, c.apiUrl, false⟩)))

/-! ## Requests -/

/-- A route. -/
inductive Endpoint where
  | users (e : UsersEndpoint)
  | rbac (e : RbacEndpoint)
  | cluster (e : ClusterEndpoint)

/-- The method of a route. -/
def Endpoint.method : Endpoint → Method
  | .users e => e.method
  | .rbac e => e.method
  | .cluster _ => .get

/-- The success status of a route. -/
def Endpoint.status : Endpoint → Nat
  | .users e => e.status
  | .rbac e => e.status
  | .cluster _ => 200

/-- A request of an account, with its `?cluster=`. -/
structure HttpRequest where
  user : UserInfo
  cluster : String
  endpoint : Endpoint

/-- The program of a request: the gate of its router, the api client, the
    route. -/
def HttpRequest.prog (fuel : Nat) (q : HttpRequest) : Svc Body :=
  match q.endpoint with
  | .users e => do
      Prog.ofExcept (authGate e.method q.cluster q.user)
      let client ← getApiClient q.cluster
      inSession (e.prog fuel client)
  | .rbac e => do
      Prog.ofExcept (authGate e.method q.cluster q.user)
      let client ← getApiClient q.cluster
      e.prog fuel client
  | .cluster .clusterInfo => do
      Prog.ofExcept (instanceGate .get q.user)
      let client ← getApiClient q.cluster
      clusterInfo client
  | .cluster .listClusters => do
      Prog.ofExcept (instanceGate .get q.user)
      listClusters

/-- A number of pages that the loops over the bindings of a cluster never
    need. -/
def enoughPages (cluster : String) (w : World) : Nat :=
  (w.clusters cluster).bindings.rows.length + 1

/-- How a request ends when it is handled on its own. -/
def HttpRequest.run (q : HttpRequest) (w : World) : Except Exn Body × World :=
  (q.prog (enoughPages q.cluster w)).run handle w

/-- The response to a request. -/
def HttpRequest.response (q : HttpRequest) (w : World) : Response :=
  toResponse q.endpoint.status (q.run w).1

/-- The world after a request. -/
def HttpRequest.after (q : HttpRequest) (w : World) : World := (q.run w).2

end CvHttp
