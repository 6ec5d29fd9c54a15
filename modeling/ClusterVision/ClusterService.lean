import ClusterVision.HttpRoutes
import Mathlib.Logic.Function.Basic

/-! # ClusterService

    The registered clusters and their API clients,
    `services/cluster_service.py`.  An update of the registry loads the
    configurations, lets the caller change the list, and writes the
    difference.  A worker keeps one client for each cluster it has used, with
    the configuration it was built from and the CA file written for it.
    Moments are readings of the monotonic clock, in nanoseconds. -/

namespace CvCluster

open CvProg CvTable CvIso CvKube CvBackend CvHttp

/-! ## Registry -/

/-- `{c["name"]: c for c in configs}`.  The dictionary of a row is the row. -/
abbrev ConfigDict := Table RegisteredCluster RegisteredCluster.name

def configDict (configs : List RegisteredCluster) : ConfigDict :=
  configs.foldl Table.put Table.empty

/-- `_load_configs`, in a session of its own. -/
def loadConfigs : Svc (List RegisteredCluster) :=
  (db .selectRegisteredClusters).ensuring (db .close)

/-- The body of the loop over the names that are gone. -/
def deleteConfig (writes : List DbWrite) (name : String) :
    Svc (List DbWrite) := do
  let existing : Option RegisteredCluster ← db (.getRegisteredCluster name)
  match existing with
  | some _ => pure (writes ++ [.deleteRegisteredCluster name])
  | none => pure writes

/-- The body of the loop over the new configurations. -/
def writeConfig (before : ConfigDict) (writes : List DbWrite)
    (cfg : RegisteredCluster) : Svc (List DbWrite) := do
  let existing : Option RegisteredCluster ←
    db (.getRegisteredCluster cfg.name)
  match existing with
  | none => pure (writes ++ [.insertRegisteredCluster cfg])
  | some _ =>
      if before.get cfg.name ≠ some cfg then
        pure (writes ++ [.updateRegisteredCluster cfg])
      else pure writes

/-- `before.keys() - after.keys()`. -/
def removedNames (before after : ConfigDict) : List String :=
  (before.rows.map RegisteredCluster.name).filter
    (fun name => (after.get name).isNone)

/-- `_update_configs`; `mutate` may raise. -/
def updateConfigs
    (mutate : List RegisteredCluster → Except Exn (List RegisteredCluster)) :
    Svc Unit :=
  Prog.ensuring (do
    let loaded ← loadConfigs
    let before := configDict loaded
    let afterList ← Prog.ofExcept (mutate before.rows)
    let after := configDict afterList
    let deletes ← (removedNames before after).foldlM deleteConfig []
    let writes ← after.rows.foldlM (writeConfig before) deletes
    db (.commit writes)) (db .close)

/-- `list_clusters`. -/
def listClusters : Svc (List ClusterInfo) := do
  let configs ← loadConfigs
  pure (configs.map (fun c => ⟨c.name, c.apiUrl, false⟩))

/-- `_append` of `add_cluster`. -/
def appendConfig (c : RegisteredCluster) (configs : List RegisteredCluster) :
    Except Exn (List RegisteredCluster) :=
  if configs.any (fun d => decide (d.name = c.name)) then
    .error (.valueError ("Cluster '" ++ c.name ++ "' already exists"))
  else .ok (configs ++ [c])

/-- `add_cluster`; `reachable` is how `verify_connectivity` ends. -/
def addCluster (reachable : Except Exn Unit) (c : RegisteredCluster) :
    Svc ClusterInfo :=
  if c.name = localCluster then
    throw (.valueError "'local' is reserved for the in-cluster connection")
  else do
    Prog.ofExcept reachable
    updateConfigs (appendConfig c)
    pure ⟨c.name, c.apiUrl, false⟩

/-- `_remove` of `remove_cluster`. -/
def removeConfig (name : String) (configs : List RegisteredCluster) :
    Except Exn (List RegisteredCluster) :=
  if configs.any (fun d => decide (d.name = name)) then
    .ok (configs.filter (fun d => decide (d.name ≠ name)))
  else .error (.valueError ("Cluster '" ++ name ++ "' not found"))

/-- `remove_cluster`, but for the cached client. -/
def removeCluster (name : String) : Svc Unit :=
  updateConfigs (removeConfig name)

/-! ## Registering over HTTP -/

/-- A letter, a digit, a hyphen or an underscore. -/
def nameChar (c : Char) : Bool := c.isAlphanum || c == '-' || c == '_'

/-- `_CLUSTER_NAME_RE.match(v)`: the `$` of the pattern also matches before a
    newline at the end. -/
def clusterNameMatches (v : String) : Bool :=
  let body :=
    if v.toList.getLast? = some '\n' then v.toList.dropLast else v.toList
  decide (1 ≤ body.length ∧ body.length ≤ 63) && body.all nameChar

/-- The other validators of `ClusterAdd`: is a text an HTTP URL with a host for
    `urlparse`, and is it strict base64? -/
structure PayloadChecks where
  apiUrl : String → Bool
  caData : String → Bool

/-- `ClusterAdd`, which has passed its validators. -/
structure ClusterAdd (checks : PayloadChecks) where
  cfg : RegisteredCluster
  nameOk : clusterNameMatches cfg.name = true
  apiUrlOk : checks.apiUrl cfg.apiUrl = true
  caDataOk : checks.caData cfg.caData = true

namespace Router

/-- The exceptions of `ClusterService.add_cluster`, as its routes answer
    them. -/
def answerErrors {α : Type} (p : Svc α) : Svc α :=
  tryCatch p fun e =>
    match e with
    | .clusterConnectionError _ => throw (.httpException 422 e.text)
    | .valueError _ => throw (.httpException 409 e.text)
    | _ => throw e

variable {checks : PayloadChecks}

/-- `add_cluster`. -/
def addCluster (reachable : Except Exn Unit) (payload : ClusterAdd checks) :
    Svc ClusterInfo :=
  answerErrors (CvCluster.addCluster reachable payload.cfg)

/-- `register_cluster`.  The credentials are absent, or a token that
    `decode_token` rejects, or one with a subject. -/
def registerCluster (credentials : Option (Except Exn (Option String)))
    (reachable : Except Exn Unit) (payload : ClusterAdd checks) :
    Svc ClusterInfo :=
  match credentials with
  | none => throw (.httpException 401 "Missing bootstrap token")
  | some (.error e) => throw e
  | some (.ok sub) =>
      if sub ≠ some payload.cfg.name then
        throw (.httpException 403
          "Bootstrap token was issued for a different cluster name")
      else answerErrors (CvCluster.addCluster reachable payload.cfg)

end Router

/-! ## Clients -/

/-- `_connection_cfg`: what a client is built from. -/
structure ConnectionCfg where
  apiUrl : String
  caData : String
  token : String
deriving DecidableEq

/-- `ClusterService._connection_cfg`. -/
def connectionCfg (c : RegisteredCluster) : ConnectionCfg :=
  ⟨c.apiUrl, c.caData, c.token⟩

/-- A client: its host and its bearer token are those of `cfg`, and it trusts
    the certificates in the file `sslCaCert`. -/
structure ApiClient where
  cfg : ConnectionCfg
  sslCaCert : String
deriving DecidableEq

/-- `_RELOAD_INTERVAL`, 30 seconds. -/
def reloadInterval : Nat := 30 * 10 ^ 9

/-- What building a client relies on: `base64.b64decode(ca_data).decode()`, and
    the path of the temporary file that is the `n`-th one made, for a
    cluster. -/
structure ClientEnv where
  caPem : String → Except Exn String
  tmpPath : Nat → String → String

/-- What a `ClusterService` keeps, and the temporary files on disk with their
    contents. -/
structure ClientCache where
  clients : String → Option ApiClient
  clientCfgs : String → Option ConnectionCfg
  caFiles : String → Option String
  lastReload : Nat
  files : String → Option String
  filesMade : Nat

/-- `ClusterService.__init__`. -/
def ClientCache.init : ClientCache where
  clients := fun _ => none
  clientCfgs := fun _ => none
  caFiles := fun _ => none
  lastReload := 0
  files := fun _ => none
  filesMade := 0

/-- `_drop_client`. -/
def dropClient (name : String) (c : ClientCache) : ClientCache :=
  { c with
    clients := Function.update c.clients name none
    clientCfgs := Function.update c.clientCfgs name none
    caFiles := Function.update c.caFiles name none
    files :=
      match c.caFiles name with
      | none => c.files
      | some path => Function.update c.files path none }

/-- `_build_client`. -/
def buildClient (env : ClientEnv) (name : String) (cfg : ConnectionCfg)
    (c : ClientCache) : Except Exn ApiClient × ClientCache :=
  match env.caPem cfg.caData with
  | .error e => (.error e, c)
  | .ok pem =>
      (.ok ⟨cfg, env.tmpPath c.filesMade name⟩,
        { c with
          caFiles :=
            Function.update c.caFiles name (some (env.tmpPath c.filesMade name))
          files :=
            Function.update c.files (env.tmpPath c.filesMade name) (some pem)
          filesMade := c.filesMade + 1 })

/-- The end of `get_api_client`: a new client, kept with its
    configuration. -/
def createClient (env : ClientEnv) (name : String) (wanted : ConnectionCfg)
    (c : ClientCache) : Except Exn ApiClient × ClientCache :=
  match buildClient env name wanted c with
  | (.error e, c') => (.error e, c')
  | (.ok client, c') =>
      (.ok client,
        { c' with
          clients := Function.update c'.clients name (some client)
          clientCfgs := Function.update c'.clientCfgs name (some wanted) })

/-- `get_api_client` from `_load_configs` on, which has returned `configs`;
    `stamped` is the second reading of the clock. -/
def reloadClient (env : ClientEnv) (name : String)
    (configs : List RegisteredCluster) (stamped : Nat) (c : ClientCache) :
    Except Exn ApiClient × ClientCache :=
  let c := { c with lastReload := stamped }
  match configs.find? (fun row => decide (row.name = name)) with
  | none =>
      (.error (.valueError ("Cluster '" ++ name ++ "' not found")),
        dropClient name c)
  | some row =>
      let wanted := connectionCfg row
      match c.clients name with
      | none => createClient env name wanted c
      | some cached =>
          if c.clientCfgs name = some wanted then (.ok cached, c)
          else createClient env name wanted (dropClient name c)

/-- The cached client that `get_api_client` returns at once, at the first
    reading of the clock. -/
def trustedClient (name : String) (called : Nat) (c : ClientCache) :
    Option ApiClient :=
  match c.clients name with
  | none => none
  | some cached =>
      if called - c.lastReload < reloadInterval then some cached else none

/-- `get_api_client`.  The two readings of the clock are `called` and
    `stamped`, and `configs` is what `_load_configs` returns between them. -/
def getApiClient (env : ClientEnv) (name : String) (called : Nat)
    (configs : List RegisteredCluster) (stamped : Nat) (c : ClientCache) :
    Except Exn ApiClient × ClientCache :=
  match trustedClient name called c with
  | some cached => (.ok cached, c)
  | none => reloadClient env name configs stamped c

end CvCluster
