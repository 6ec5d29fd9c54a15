import ClusterVision.Backend

/-! # VaultService and its configuration

    The configuration of Vault is a row of the database that all workers
    share.  A worker keeps a service object made from it, and reads the row
    again at most once in an interval.  This module has the functions of
    `vault_service.py` on one worker, and the steps that several workers take
    on the shared row. -/

namespace CvVault

open CvBackend

/-! ## VaultService -/

/-- `config_dict`, and the dictionaries that are made into a service. -/
structure Config where
  addr : String
  token : String
  mount : String := "secret"
  basePath : String := "clustervision/users"
  ns : String := ""
  tlsSkipVerify : Bool := false
deriving DecidableEq

/-- `text.rstrip("/")`. -/
def rstripSlash (text : String) : String :=
  String.ofList
    (text.toList.reverse.dropWhile (fun ch => decide (ch = '/'))).reverse

/-- `text.strip("/")`. -/
def stripSlash (text : String) : String :=
  rstripSlash
    (String.ofList (text.toList.dropWhile (fun ch => decide (ch = '/'))))

/-- What `VaultService.__init__` makes of a configuration. -/
def Config.normalized (cfg : Config) : Config :=
  { cfg with
    addr := rstripSlash cfg.addr
    mount := stripSlash cfg.mount
    basePath := stripSlash cfg.basePath }

/-- `VaultService`: its configuration, and the health that it last saw. -/
structure VaultService where
  config : Config
  cachedHealthy : Bool := false
  cachedError : Option String := none
deriving DecidableEq

/-- `VaultService(...)`. -/
def newVaultService (cfg : Config) : VaultService where
  config := cfg.normalized

/-- `health_check`; Vault answered, or did so with an error. -/
def VaultService.healthCheck (svc : VaultService) (error : Option String) :
    VaultService :=
  { svc with cachedHealthy := error.isNone, cachedError := error }

/-! ## The row -/

/-- The dictionaries that `_read_config_row` returns and `_write_config_row`
    gets: `{"enabled": False}`, or a configuration. -/
inductive ConfigDict where
  | disabled
  | full (cfg : Config)
deriving DecidableEq

/-- `VaultConfigRow`, the row with id 1. -/
structure VaultConfigRow where
  enabled : Bool
  config : Config
deriving DecidableEq

/-- Does the database take the texts?  Columns have lengths, and no text may
    have a NUL. -/
def Config.fits (cfg : Config) : Bool :=
  decide (cfg.addr.length ≤ 500 ∧ cfg.mount.length ≤ 255 ∧
    cfg.basePath.length ≤ 500 ∧ cfg.ns.length ≤ 255) &&
  [cfg.addr, cfg.token, cfg.mount, cfg.basePath, cfg.ns].all
    (fun text => decide (Char.ofNat 0 ∉ text.toList))

/-- `_read_config_row`, given the row. -/
def readConfigRow : Option VaultConfigRow → Option ConfigDict
  | none => none
  | some row => some (if row.enabled then .full row.config else .disabled)

/-- `_write_config_row`: the row it writes.  Missing keys get their
    defaults. -/
def writeConfigRow : ConfigDict → Except Exn VaultConfigRow
  | .disabled => .ok ⟨false, { addr := "", token := "" }⟩
  | .full cfg => if cfg.fits then .ok ⟨true, cfg⟩ else .error .dataError

/-! ## One worker -/

/-- The settings that come from the environment. -/
structure Settings where
  vaultEnabled : Bool := false
  vaultAddr : String := ""
  vaultToken : String := ""
  vaultMount : String := "secret"
  vaultBasePath : String := "clustervision/users"
  vaultNamespace : String := ""
  vaultTlsSkipVerify : Bool := false
deriving DecidableEq

/-- `_env_config`. -/
def envConfig (s : Settings) : Option ConfigDict :=
  if s.vaultEnabled = true ∧ s.vaultAddr ≠ "" ∧ s.vaultToken ≠ "" then
    some (.full
      { addr := s.vaultAddr
        token := s.vaultToken
        mount := s.vaultMount
        basePath := s.vaultBasePath
        ns := s.vaultNamespace
        tlsSkipVerify := s.vaultTlsSkipVerify })
  else none

/-- `_apply_config`: the service it leaves, from the one before. -/
def applyConfig (svc : Option VaultService) :
    Option ConfigDict → Option VaultService
  | none => none
  | some .disabled => none
  | some (.full cfg) =>
      let candidate := newVaultService cfg
      if candidate.config.addr = "" ∨ candidate.config.token = "" then none
      else
        match svc with
        | none => some candidate
        | some current =>
            if current.config ≠ candidate.config then some candidate
            else some current

/-- `_SYNC_INTERVAL`, in microseconds. -/
def syncInterval : Int := 30 * 1000000

/-- Who holds the lock for a read of the row: the start of the worker, or a
    call of `get_vault_service`. -/
inductive Reading where
  | starting
  | getting
deriving DecidableEq

/-- The globals of a worker process: `_vault_svc`, `_last_sync`, and who reads
    the row right now.  `origin` is where its monotonic clock starts. -/
structure Worker where
  vaultSvc : Option VaultService
  lastSync : Int
  reading : Option Reading
  origin : Int
deriving DecidableEq

/-- `time.monotonic()`. -/
def Worker.monotonic (w : Worker) (t : Int) : Int := t + w.origin

/-- A worker process that starts. -/
def newWorker (origin : Int) : Worker where
  vaultSvc := none
  lastSync := 0
  reading := none
  origin := origin

/-- Does `_sync(force)` read the row? -/
def syncDue (force : Bool) (t : Int) (w : Worker) : Bool :=
  force || decide (syncInterval ≤ w.monotonic t - w.lastSync)

/-- `_sync` up to the read of the row. -/
def beginSync (reading : Reading) (t : Int) (w : Worker) : Worker :=
  { w with lastSync := w.monotonic t, reading := some reading }

/-- The service that `_sync` leaves; `none` when the row could not be read. -/
def synced (s : Settings) (svc : Option VaultService) :
    Option (Option VaultConfigRow) → Option VaultService
  | some row => applyConfig svc (readConfigRow row <|> envConfig s)
  | none => if svc = none then applyConfig none (envConfig s) else svc

/-- `_sync` from the read of the row on. -/
def endSync (s : Settings) (read : Option (Option VaultConfigRow))
    (w : Worker) : Worker :=
  { w with vaultSvc := synced s w.vaultSvc read, reading := none }

/-! ## What a worker does -/

/-- The row, and one of the workers. -/
structure Site where
  row : Option VaultConfigRow
  worker : Worker
deriving DecidableEq

namespace Site

/-- The site with another service. -/
def withService (s : Site) (svc : Option VaultService) : Site :=
  { s with worker := { s.worker with vaultSvc := svc } }

/-- `_sync` up to the read of the row. -/
def beginSync (reading : Reading) (t : Int) (s : Site) : Site :=
  { s with worker := CvVault.beginSync reading t s.worker }

/-- `_sync` from the read of the row on; the read may fail. -/
def endSync (env : Settings) (readable : Bool) (s : Site) : Site :=
  { s with
    worker := CvVault.endSync env (if readable = true then some s.row else none)
      s.worker }

/-- `get_vault_service`, which leaves what it returns. -/
def getVaultService (env : Settings) (t : Int) (readable : Bool) (s : Site) :
    Site :=
  if syncDue false t s.worker = true then
    (s.beginSync .getting t).endSync env readable
  else s

/-- `configure_vault`: what it returns or raises. -/
def configureVault (fault : Option Exn) (t : Int) (cfg : Config) (s : Site) :
    Except Exn (Option VaultService) × Site :=
  match fault with
  | some e => (.error e, s)
  | none =>
      match writeConfigRow (.full cfg) with
      | .error e => (.error e, s)
      | .ok row =>
          let svc := applyConfig s.worker.vaultSvc (some (.full cfg))
          (.ok svc, { row := some row, worker :=
            { s.worker with
              vaultSvc := svc, lastSync := s.worker.monotonic t } })

/-- `disable_vault`. -/
def disableVault (t : Int) (s : Site) : Except Exn Unit × Site :=
  match writeConfigRow .disabled with
  | .error e => (.error e, s)
  | .ok row =>
      (.ok (), { row := some row, worker :=
        { s.worker with vaultSvc := none, lastSync := s.worker.monotonic t } })

/-- `health_check` of the service, if there is one. -/
def healthCheck (error : Option String) (s : Site) : Site :=
  s.withService (s.worker.vaultSvc.map (·.healthCheck error))

end Site

/-! ## All workers -/

/-- The row and the workers; `none` is a worker that is not running. -/
structure System (ι : Type) where
  row : Option VaultConfigRow
  workers : ι → Option Worker

/-- What workers do.  What needs no answer from elsewhere is one step:
    `_sync` is one up to its read of the row, and one from there on, in which
    the read may fail. -/
inductive Act (ι : Type) where
  | init (i : ι) (origin : Int)
  | get (i : ι)
  | read (i : ι) (readable : Bool)
  | configure (i : ι) (cfg : Config)
  | disable (i : ι)
  | healthCheck (i : ι) (error : Option String)
deriving DecidableEq

variable {ι : Type} [DecidableEq ι]

namespace System

/-- The system with another state of one worker. -/
def setWorker (s : System ι) (i : ι) (w : Worker) : System ι :=
  { s with workers := Function.update s.workers i (some w) }

/-- What a worker has of the system. -/
def site (s : System ι) (w : Worker) : Site := ⟨s.row, w⟩

/-- The system after a worker has done something. -/
def setSite (s : System ι) (i : ι) (p : Site) : System ι :=
  { s with row := p.row }.setWorker i p.worker

/-- A worker that runs and holds no lock. -/
def ready (s : System ι) (i : ι) : Option Worker :=
  (s.workers i).filter (fun w => decide (w.reading = none))

/-- `init_vault_from_env` of a process that starts, up to its read. -/
def init (s : System ι) (t : Int) (i : ι) (origin : Int) : System ι :=
  s.setSite i ((s.site (newWorker origin)).beginSync .starting t)

/-- `get_vault_service`, up to its read when one is due. -/
def get (s : System ι) (t : Int) (i : ι) : System ι :=
  match s.ready i with
  | none => s
  | some w =>
      if syncDue false t w = true then
        s.setSite i ((s.site w).beginSync .getting t)
      else s

/-- The read that a worker waits for. -/
def read (env : Settings) (s : System ι) (i : ι) (readable : Bool) :
    System ι :=
  match s.workers i with
  | none => s
  | some w =>
      if w.reading = none then s
      else s.setSite i ((s.site w).endSync env readable)

/-- `configure_vault`. -/
def configure (s : System ι) (t : Int) (i : ι) (cfg : Config) : System ι :=
  match s.ready i with
  | none => s
  | some w => s.setSite i ((s.site w).configureVault none t cfg).2

/-- `disable_vault`. -/
def disable (s : System ι) (t : Int) (i : ι) : System ι :=
  match s.ready i with
  | none => s
  | some w => s.setSite i ((s.site w).disableVault t).2

/-- `health_check` of the service of a worker. -/
def healthCheck (s : System ι) (i : ι) (error : Option String) : System ι :=
  match s.workers i with
  | none => s
  | some w => s.setSite i ((s.site w).healthCheck error)

end System

/-- A step at a time.  Where the worker does not run, or another call holds
    its lock, nothing happens. -/
def act (env : Settings) : Int × Act ι → System ι → System ι
  | (t, .init i origin), s => s.init t i origin
  | (t, .get i), s => s.get t i
  | (_, .read i readable), s => s.read env i readable
  | (t, .configure i cfg), s => s.configure t i cfg
  | (t, .disable i), s => s.disable t i
  | (_, .healthCheck i error), s => s.healthCheck i error

/-- What `get_vault_service` returns in a step, when it returns in it. -/
def returned (env : Settings) (s : System ι) :
    Int × Act ι → Option (Option VaultService)
  | (t, .get i) =>
      match s.ready i with
      | none => none
      | some w => if syncDue false t w = true then none else some w.vaultSvc
  | (_, .read i readable) =>
      match s.workers i with
      | none => none
      | some w =>
          if w.reading = some .getting then
            some (synced env w.vaultSvc
              (if readable = true then some s.row else none))
          else none
  | _ => none

/-! ## The admin route -/

/-- A `PUT /admin/vault/config` on a worker: its payload, and the token that it
    is going to write, once it knows that. -/
structure Put (ι : Type) where
  worker : ι
  payload : Config
  token : Option String
deriving DecidableEq

/-- The system, and the requests in progress. -/
structure Admin (ι ρ : Type) where
  sys : System ι
  puts : ρ → Option (Put ι)

/-- What happens: a step of a worker that belongs to no PUT, a PUT that
    arrives, or a PUT that goes on to `configure_vault`. -/
inductive AdminAct (ι ρ : Type) where
  | other (a : Act ι)
  | put (r : ρ) (i : ι) (payload : Config)
  | write (r : ρ)

/-- A PUT without a token takes that of the service that `get_vault_service`
    returns, and is refused with 400 when there is none. -/
def answered (i : ι) (payload : Config) (svc : Option VaultService) :
    Option (Put ι) :=
  svc.map (fun svc => ⟨i, payload, some svc.config.token⟩)

/-- A PUT after a step of a worker: it may have waited for the read, and it
    ends when its process does. -/
def Put.after (env : Settings) (sys : System ι) (t : Int) (a : Act ι)
    (p : Put ι) : Option (Put ι) :=
  match a with
  | .init i _ => if p.worker = i then none else some p
  | .read i _ =>
      if p.worker = i ∧ p.token = none then
        match returned env sys (t, a) with
        | some svc => answered i p.payload svc
        | none => some p
      else some p
  | _ => some p

namespace Admin

variable {ρ : Type} [DecidableEq ρ]

/-- `set_vault_config` up to `configure_vault`, or up to the read that its
    `get_vault_service` needs. -/
def put (env : Settings) (s : Admin ι ρ) (t : Int) (r : ρ) (i : ι)
    (payload : Config) : Admin ι ρ :=
  if (s.puts r).isSome = true ∨ payload.addr = "" ∨
      (s.sys.ready i).isSome = false then s
  else if payload.token ≠ "" then
    ⟨s.sys, Function.update s.puts r
      (some ⟨i, payload, some payload.token⟩)⟩
  else
    ⟨s.sys.get t i, Function.update s.puts r
      (match returned env s.sys (t, .get i) with
      | some svc => answered i payload svc
      | none => some ⟨i, payload, none⟩)⟩

/-- The call of `configure_vault`. -/
def write (s : Admin ι ρ) (t : Int) (r : ρ) : Admin ι ρ :=
  match s.puts r with
  | some ⟨i, payload, some token⟩ =>
      if (s.sys.ready i).isSome = true then
        ⟨s.sys.configure t i { payload with token := token },
          Function.update s.puts r none⟩
      else s
  | _ => s

end Admin

/-- One step. -/
def adminAct {ρ : Type} [DecidableEq ρ] (env : Settings) :
    Int × AdminAct ι ρ → Admin ι ρ → Admin ι ρ
  | (t, .other a), s =>
      ⟨act env (t, a) s.sys, fun r => (s.puts r).bind (Put.after env s.sys t a)⟩
  | (t, .put r i payload), s => s.put env t r i payload
  | (t, .write r), s => s.write t r

/-! ## The admin route, on one worker -/

/-- The path that `health_check` asks for. -/
def healthPath : String :=
  "sys/health?standbyok=true&sealedok=true&uninitok=true"

/-- `health_check`, with what comes of its request. -/
def VaultService.checkHealth (svc : VaultService) (answer : Reply) :
    Except Exn VaultService :=
  (Vault.failure "GET" healthPath answer).map svc.healthCheck

/-- The dict of `_status_payload`; `enabled` is always true in it. -/
structure Status where
  addr : String
  mount : String
  basePath : String
  ns : String
  tlsSkipVerify : Bool
  healthy : Bool
  error : Option String
deriving DecidableEq

/-- `_status_payload`. -/
def statusPayload (svc : VaultService) : Status :=
  ⟨svc.config.addr, svc.config.mount, svc.config.basePath, svc.config.ns,
    svc.config.tlsSkipVerify, svc.cachedHealthy, svc.cachedError⟩

/-- `VaultConfig`, the payload: its address has a character at least. -/
structure VaultConfig where
  config : Config
  minLength : config.addr ≠ ""

/-- The payload with the token that is going to be written. -/
def VaultConfig.withToken (payload : VaultConfig) (token : String) : Config :=
  { payload.config with token := token }

/-- What a request meets: the times of its two steps, whether the row can be
    read, what the database raises instead of writing, and Vault's answer. -/
structure Outside where
  syncTime : Int
  readable : Bool
  writeTime : Int
  fault : Option Exn
  answer : Reply

/-- The token of a PUT, and the site once it is known. -/
def tokenToWrite (env : Settings) (o : Outside) (payload : VaultConfig)
    (s : Site) : Option String × Site :=
  if payload.config.token ≠ "" then (some payload.config.token, s)
  else
    let s' := s.getVaultService env o.syncTime o.readable
    (s'.worker.vaultSvc.map (fun svc => svc.config.token), s')

/-- `set_vault_config`. -/
def setVaultConfig (env : Settings) (o : Outside) (payload : VaultConfig)
    (s : Site) : Except Exn Status × Site :=
  match tokenToWrite env o payload s with
  | (none, s) => (.error (.httpException 400 "A Vault token is required"), s)
  | (some token, s) =>
      match s.configureVault o.fault o.writeTime (payload.withToken token) with
      | (.error e, s) => (.error e, s)
      -- `None` has no `health_check`
      | (.ok none, s) => (.error .attributeError, s)
      | (.ok (some svc), s) =>
          match svc.checkHealth o.answer with
          | .error e => (.error e, s)
          | .ok svc => (.ok (statusPayload svc), s.withService (some svc))

end CvVault
