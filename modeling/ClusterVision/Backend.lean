import ClusterVision.KubeApi

/-! # The backend's state and the calls its services issue

    The rows of the database (`db/models.py`), the exceptions, the world that
    a request sees (every cluster, the database, Vault, the clock and the
    random sources), and the interface through which the service programs
    reach it.  `handle` answers each call when requests run one at a time. -/

namespace CvBackend

open CvProg CvPage CvTable CvIso CvKube

/-! ## Rows -/

/-- The statuses of an access request. -/
inductive RequestStatus where
  | pending
  | approved
  | denied
  | revoked
  | expired
deriving DecidableEq, Repr

/-- The text of a status. -/
def RequestStatus.text : RequestStatus → String
  | .pending => "pending"
  | .approved => "approved"
  | .denied => "denied"
  | .revoked => "revoked"
  | .expired => "expired"

/-- `AccessRequestRecord`. -/
structure AccessRequestRecord where
  id : String
  requester : String
  targetUsername : String
  userKind : SubjectKind
  saNamespace : Option String
  roleName : String
  roleKind : RoleKind
  ns : Option String
  ttlMinutes : Int
  reason : String
  status : RequestStatus
  requestedAt : Time
  reviewedBy : Option String := none
  reviewedAt : Option Time := none
  expiresAt : Option Time := none
  bindingName : Option String := none
deriving DecidableEq

/-- `JitRolePolicy`. -/
structure JitRolePolicy where
  roleKind : RoleKind
  roleName : String
  eligible : Bool
  maxTtlMinutes : Option Int
deriving DecidableEq

/-- The primary key of a policy. -/
def JitRolePolicy.key (p : JitRolePolicy) : RoleKind × String :=
  (p.roleKind, p.roleName)

/-- `UserType`. -/
inductive UserType where
  | certificate
  | serviceAccount
deriving DecidableEq, Repr

/-- `ManagedUser`. -/
structure ManagedUser where
  name : String
  ns : String
  type : UserType
  groupsCsv : String
  createdAt : Datetime
  csrName : Option String
  certExpiry : Option Datetime
  imported : Bool
deriving DecidableEq

/-- The primary key of a managed user. -/
def ManagedUser.key (u : ManagedUser) : String × String := (u.name, u.ns)

/-- `RegisteredCluster`. -/
structure RegisteredCluster where
  name : String
  apiUrl : String
  caData : String
  token : String
deriving DecidableEq

/-- Where an account is authenticated: `source` is "local" or "ldap". -/
inductive AccountSource where
  | local
  | ldap
deriving DecidableEq, Repr

/-- `LocalUser`, its link to a managed user included. -/
structure LocalUser where
  username : String
  passwordHash : Option String
  source : AccountSource
  lastLoginAt : Option Datetime
  linkedManagedUser : Option String
  linkedManagedUserNamespace : Option String
deriving DecidableEq

/-- The roles of an account on a scope. -/
inductive Role where
  | viewer
  | operator
  | approver
  | admin
deriving DecidableEq, Repr

/-- `ScopeRoleAssignment`. -/
structure ScopeRoleAssignment where
  username : String
  scope : String
  role : Role
deriving DecidableEq

/-- The primary key of a role assignment. -/
def ScopeRoleAssignment.key (a : ScopeRoleAssignment) : String × String :=
  (a.username, a.scope)

/-- The tables. -/
structure Database where
  accessRequests : Table AccessRequestRecord AccessRequestRecord.id
  jitRolePolicies : Table JitRolePolicy JitRolePolicy.key
  managedUsers : Table ManagedUser ManagedUser.key
  registeredClusters : Table RegisteredCluster RegisteredCluster.name
  localUsers : Table LocalUser LocalUser.username
  scopeRoleAssignments : Table ScopeRoleAssignment ScopeRoleAssignment.key

/-! ## Exceptions -/

/-- The exceptions that leave a service function. -/
inductive Exn where
  | api (e : ApiException)
  | accessRequestError (message : String)
  | accessRequestNotFoundError (message : String)
  | userNotFoundError (username : String)
  | userAlreadyExistsError (username : String)
  | certificateTimeoutError (csrName : String)
  | vaultError (message : String)
  | valueError (message : String)
  | typeError
  | overflowError
  | integrityError
  | connectionError
  | httpException (status : Nat) (detail : String)
  | responseValidationError
  | serializationError
  | jsonDecodeError
  | unicodeDecodeError
  | recursionError
  | dataError
  | staleDataError
  | clusterConnectionError (message : String)
  | ldapException
  | attributeError
  | loopBoundReached
deriving DecidableEq

/-- `str(e)`, for the exceptions that carry a text of their own. -/
def Exn.text : Exn → String
  | .accessRequestError message => message
  | .accessRequestNotFoundError message => message
  | .userNotFoundError username => "User '" ++ username ++ "' not found"
  | .userAlreadyExistsError username =>
      "User '" ++ username ++ "' already exists"
  | .certificateTimeoutError csrName =>
      "CSR '" ++ csrName ++ "' was not signed within timeout"
  | .vaultError message => message
  | .valueError message => message
  | .clusterConnectionError message => message
  | _ => ""

/-! ## Database calls -/

/-- The columns an `UPDATE` of an access request sets. -/
structure AccessRequestUpdate where
  status : Option RequestStatus := none
  reviewedBy : Option String := none
  reviewedAt : Option Time := none
  expiresAt : Option Time := none
  bindingName : Option String := none
deriving DecidableEq

/-- The row after an `UPDATE`. -/
def AccessRequestRecord.set (r : AccessRequestRecord)
    (u : AccessRequestUpdate) : AccessRequestRecord :=
  { r with
    status := u.status.getD r.status
    reviewedBy := u.reviewedBy <|> r.reviewedBy
    reviewedAt := u.reviewedAt <|> r.reviewedAt
    expiresAt := u.expiresAt <|> r.expiresAt
    bindingName := u.bindingName <|> r.bindingName }

/-- One statement of a transaction. -/
inductive DbWrite where
  | insertAccessRequest (r : AccessRequestRecord)
  | updateAccessRequest (id : String) (u : AccessRequestUpdate)
  | putPolicy (p : JitRolePolicy)
  | deletePolicy (kind : RoleKind) (name : String)
  | insertManagedUser (u : ManagedUser)
  | updateManagedUser (u : ManagedUser)
  | deleteManagedUser (name ns : String)
  | clearLinksTo (name ns : String)
  | insertRegisteredCluster (c : RegisteredCluster)
  | updateRegisteredCluster (c : RegisteredCluster)
  | deleteRegisteredCluster (name : String)
deriving DecidableEq

/-- The database calls.  `commit` sends the pending statements of the session
    and commits them; `close` ends a session that did not commit. -/
inductive DbOp where
  | getAccessRequest (id : String) (forUpdate : Bool)
  | selectApprovedExpired (now : Time)
  | getPolicy (kind : RoleKind) (name : String)
  | selectManagedUsers
  | getManagedUser (name ns : String)
  | selectRegisteredClusters
  | getRegisteredCluster (name : String)
  | commit (writes : List DbWrite)
  | close

/-- What each database call answers. -/
@[reducible] def DbOp.Res : DbOp → Type
  | .getAccessRequest _ _ => Option AccessRequestRecord
  | .selectApprovedExpired _ => List AccessRequestRecord
  | .getPolicy _ _ => Option JitRolePolicy
  | .selectManagedUsers => List ManagedUser
  | .getManagedUser _ _ => Option ManagedUser
  | .selectRegisteredClusters => List RegisteredCluster
  | .getRegisteredCluster _ => Option RegisteredCluster
  | .commit _ => Unit
  | .close => Unit

section OrderBy

variable {Row : Type}

/-- `.order_by`.  Rows that are alike in the order stand in any order. -/
structure OrderBy (before : Row → Row → Prop) where
  sort : List Row → List Row
  perm : ∀ rows, (sort rows).Perm rows
  sorted : ∀ rows, (sort rows).Pairwise before

/-- The order in which rows that are alike stay as they are. -/
def OrderBy.stable (before : Row → Row → Prop) [DecidableRel before]
    (htrans : ∀ a b c, before a b → before b c → before a c)
    (htotal : ∀ a b, before a b ∨ before b a) : OrderBy before where
  sort := fun rows => rows.mergeSort (fun a b => decide (before a b))
  perm := fun rows => List.mergeSort_perm rows _
  sorted := by
    intro rows
    refine (List.pairwise_mergeSort ?_ ?_ rows).imp of_decide_eq_true
    · intro a b c hab hbc
      exact decide_eq_true
        (htrans a b c (of_decide_eq_true hab) (of_decide_eq_true hbc))
    · intro a b
      rw [Bool.or_eq_true]
      exact (htotal a b).imp decide_eq_true decide_eq_true

/-- `.order_by(column)`, for a column of times. -/
abbrev OldestFirst (time : Row → Time) := OrderBy (fun a b => time a ≤ time b)

/-- `.order_by(column.desc())`. -/
abbrev LatestFirst (time : Row → Time) := OrderBy (fun a b => time b ≤ time a)

@[inherit_doc OrderBy.stable]
def OldestFirst.stable (time : Row → Time) : OldestFirst time :=
  OrderBy.stable _ (fun _ _ _ hab hbc => Nat.le_trans hab hbc)
    (fun a b => Nat.le_total (time a).instant (time b).instant)

@[inherit_doc OrderBy.stable]
def LatestFirst.stable (time : Row → Time) : LatestFirst time :=
  OrderBy.stable _ (fun _ _ _ hab hbc => Nat.le_trans hbc hab)
    (fun a b => Nat.le_total (time b).instant (time a).instant)

end OrderBy

/-- The account without its link, when it is linked to the given user. -/
def LocalUser.unlinked (name ns : String) (a : LocalUser) : LocalUser :=
  if a.linkedManagedUser = some name ∧ a.linkedManagedUserNamespace = some ns
  then { a with linkedManagedUser := none, linkedManagedUserNamespace := none }
  else a

theorem LocalUser.map_unlinked_username (name ns : String)
    (rows : List LocalUser) :
    (rows.map (LocalUser.unlinked name ns)).map LocalUser.username
      = rows.map LocalUser.username := by
  rw [List.map_map]
  refine List.map_congr_left ?_
  intro a _
  show (LocalUser.unlinked name ns a).username = a.username
  rw [LocalUser.unlinked]
  split <;> rfl

/-- The database with other requests. -/
def Database.withRequests (db : Database)
    (t : Table AccessRequestRecord AccessRequestRecord.id) : Database :=
  { db with accessRequests := t }

/-- One statement; an insert of an existing key is an `IntegrityError`, and an
    update of a registry row that is gone is a `StaleDataError`. -/
def DbWrite.apply (db : Database) : DbWrite → Except Exn Database
  | .insertAccessRequest r =>
      match db.accessRequests.get r.id with
      | some _ => .error .integrityError
      | none => .ok (db.withRequests (db.accessRequests.put r))
  | .updateAccessRequest id u =>
      match db.accessRequests.get id with
      | none => .error .integrityError
      | some r => .ok (db.withRequests (db.accessRequests.put (r.set u)))
  | .putPolicy p =>
      .ok { db with jitRolePolicies := db.jitRolePolicies.put p }
  | .deletePolicy kind name =>
      .ok { db with jitRolePolicies := db.jitRolePolicies.erase (kind, name) }
  | .insertManagedUser u =>
      match db.managedUsers.get u.key with
      | some _ => .error .integrityError
      | none => .ok { db with managedUsers := db.managedUsers.put u }
  | .updateManagedUser u =>
      match db.managedUsers.get u.key with
      | some _ => .ok { db with managedUsers := db.managedUsers.put u }
      | none => .error .staleDataError
  | .deleteManagedUser name ns =>
      .ok { db with managedUsers := db.managedUsers.erase (name, ns) }
  | .clearLinksTo name ns =>
      .ok { db with localUsers :=
        ⟨db.localUsers.rows.map (LocalUser.unlinked name ns), by
          rw [LocalUser.map_unlinked_username]
          exact db.localUsers.nodup⟩ }
  | .insertRegisteredCluster c =>
      match db.registeredClusters.get c.name with
      | some _ => .error .integrityError
      | none =>
          .ok { db with registeredClusters := db.registeredClusters.put c }
  | .updateRegisteredCluster c =>
      match db.registeredClusters.get c.name with
      | some _ =>
          .ok { db with registeredClusters := db.registeredClusters.put c }
      | none => .error .staleDataError
  | .deleteRegisteredCluster name =>
      .ok { db with registeredClusters := db.registeredClusters.erase name }

/-- The statements of a transaction, in order; none takes effect when one of
    them fails. -/
def applyWrites : Database → List DbWrite → Except Exn Database
  | db, [] => .ok db
  | db, w :: ws =>
      match w.apply db with
      | .ok db' => applyWrites db' ws
      | .error e => .error e

/-- Approved requests that have expired by `now`. -/
def AccessRequestRecord.approvedExpired (now : Time)
    (r : AccessRequestRecord) : Bool :=
  decide (r.status = .approved) &&
    match r.expiresAt with
    | none => false
    | some t => decide (t ≤ now)

/-- What a database call does when requests run one at a time. -/
def Database.exec : (op : DbOp) → Database → Except Exn op.Res × Database
  | .getAccessRequest id _, db => (.ok (db.accessRequests.get id), db)
  | .selectApprovedExpired now, db =>
      (.ok (db.accessRequests.rows.filter (·.approvedExpired now)), db)
  | .getPolicy kind name, db => (.ok (db.jitRolePolicies.get (kind, name)), db)
  | .selectManagedUsers, db => (.ok db.managedUsers.rows, db)
  | .getManagedUser name ns, db => (.ok (db.managedUsers.get (name, ns)), db)
  | .selectRegisteredClusters, db => (.ok db.registeredClusters.rows, db)
  | .getRegisteredCluster name, db => (.ok (db.registeredClusters.get name), db)
  | .commit writes, db =>
      match applyWrites db writes with
      | .ok db' => (.ok (), db')
      | .error e => (.error e, db)
  | .close, db => (.ok (), db)

/-! ## The world -/

/-- What `VaultService` talks to, when Vault is enabled. -/
structure Vault where
  mount : String
  basePath : String
  secrets : List (String × PrivateKey × Certificate)

/-- `write_secret`'s path. -/
def Vault.path (v : Vault) (username : String) : String :=
  v.mount ++ "/data/" ++ v.basePath ++ "/" ++ username

/-- What comes of a request to Vault: a body that is JSON, an `HTTPError`, a
    `URLError` or `OSError`, or another exception (of an address that is no
    URL, of a token that cannot stand in a header, of a body that is no
    JSON). -/
inductive Reply where
  | json
  | httpError (code : Nat) (body : String)
  | unreachable (text : String)
  | raised (e : Exn)
deriving DecidableEq

/-- The text of the `VaultError` that `_request` raises, if it raises one. -/
def Vault.failure (method path : String) : Reply → Except Exn (Option String)
  | .json => .ok none
  | .httpError code body =>
      if code = 404 then
        .ok (some
          ("Vault " ++ method ++ " " ++ path ++ " → HTTP 404: not found"))
      else
        .ok (some ("Vault " ++ method ++ " " ++ path ++ " → HTTP "
          ++ toString code ++ ": " ++ body))
  | .unreachable text => .ok (some ("Vault unreachable: " ++ text))
  | .raised e => .error e

/-- `_request`. -/
def Vault.request (method path : String) (r : Reply) : Except Exn Unit :=
  match Vault.failure method path r with
  | .ok none => .ok ()
  | .ok (some text) => .error (.vaultError text)
  | .error e => .error e

/-- `write_secret`. -/
def Vault.writeSecret (v : Vault) (username : String) (r : Reply) :
    Except Exn String := do
  Vault.request "POST" (v.path username) r
  pure (v.path username)

/-- A secret replaces the one at its path. -/
def Vault.write (v : Vault) (username : String) (key : PrivateKey)
    (cert : Certificate) : Vault :=
  { v with secrets := (username, key, cert) ::
      v.secrets.filter (fun e => decide (e.1 ≠ username)) }

/-- `read_secret`. -/
def Vault.read (v : Vault) (username : String) :
    Option (PrivateKey × Certificate) :=
  (v.secrets.find? (fun e => decide (e.1 = username))).map (·.2)

theorem Vault.read_write (v : Vault) (username : String) (key : PrivateKey)
    (cert : Certificate) :
    (v.write username key cert).read username = some (key, cert) := by
  have hself : decide ((username, key, cert).1 = username) = true :=
    decide_eq_true rfl
  show (List.find? _ ((username, key, cert) :: _)).map _ = _
  rw [List.find?_cons, hself]
  rfl

/-- Everything a request can reach.  The clock and the random sources are
    sequences of readings; `tick` counts the readings taken so far. -/
structure World where
  clusters : String → Cluster
  db : Database
  vault : Option Vault
  clock : Nat → Time
  uuids : Nat → String
  keys : Nat → PrivateKey
  tick : Nat

/-- The tables of a new installation. -/
def Database.fresh : Database where
  accessRequests := Table.empty
  jitRolePolicies := Table.empty
  managedUsers := Table.empty
  registeredClusters := Table.empty
  localUsers := Table.empty
  scopeRoleAssignments := Table.empty

/-- A new installation, with its clock standing still. -/
def World.fresh : World where
  clusters := fun _ => Cluster.fresh
  db := Database.fresh
  vault := none
  clock := fun _ => Time.epoch
  uuids := Nat.repr
  keys := PrivateKey.mk
  tick := 0

/-- The calls of the backend. -/
inductive Op where
  | kube (cluster : String) (op : KubeOp)
  | db (op : DbOp)
  | now
  | uuid4
  | generatePrivateKey
  | getVaultService
  | writeSecret (username : String) (key : PrivateKey) (cert : Certificate)

/-- What each call answers. -/
@[reducible] def Op.Res : Op → Type
  | .kube _ op => op.Res
  | .db op => op.Res
  | .now => Time
  | .uuid4 => String
  | .generatePrivateKey => PrivateKey
  | .getVaultService => Bool
  | .writeSecret _ _ _ => String

/-- The interface of the backend. -/
abbrev backend : Iface := ⟨Op, Op.Res⟩

/-- A program of the backend. -/
abbrev Svc (α : Type) := Prog backend Exn α

namespace World

/-- The world with another state of one cluster. -/
def setCluster (w : World) (name : String) (c : Cluster) : World :=
  { w with clusters := Function.update w.clusters name c }

/-- The world with another database. -/
def setDb (w : World) (db : Database) : World := { w with db := db }

/-- `write_secret`, when Vault replies like this.  A request that has failed may
    have taken effect all the same. -/
def exchange (w : World) (username : String) (key : PrivateKey)
    (cert : Certificate) (r : Reply) (stored : Bool) :
    Except Exn String × World :=
  match w.vault with
  | none => (.error .attributeError, w)
  | some v =>
      match v.writeSecret username r with
      | .ok path =>
          (.ok path, { w with vault := some (v.write username key cert) })
      | .error e =>
          (.error e, if stored = true
            then { w with vault := some (v.write username key cert) } else w)

/-- The same, when Vault answers with the secret stored. -/
def writeSecret (w : World) (username : String) (key : PrivateKey)
    (cert : Certificate) : Except Exn String × World :=
  match w.vault with
  | none => (.error .attributeError, w)
  | some v =>
      (v.writeSecret username .json,
        { w with vault := some (v.write username key cert) })

/-- An exchange does what a write does that succeeds, or it fails, with or
    without an effect. -/
theorem exchange_cases (w : World) (username : String) (key : PrivateKey)
    (cert : Certificate) (r : Reply) (stored : Bool) :
    w.exchange username key cert r stored = w.writeSecret username key cert ∨
    ∃ e, (w.exchange username key cert r stored).1 = .error e ∧
      ((w.exchange username key cert r stored).2 = w ∨
        (w.exchange username key cert r stored).2
          = (w.writeSecret username key cert).2) := by
  rw [exchange, writeSecret]
  cases w.vault with
  | none => exact Or.inl rfl
  | some v =>
      cases hr : Vault.request "POST" (v.path username) r with
      | ok u =>
          have hpath : v.writeSecret username r = .ok (v.path username) := by
            rw [Vault.writeSecret, hr]
            rfl
          simp only [hpath]
          exact Or.inl rfl
      | error e =>
          have hfails : v.writeSecret username r = .error e := by
            rw [Vault.writeSecret, hr]
            rfl
          simp only [hfails]
          refine Or.inr ⟨e, rfl, ?_⟩
          cases stored with
          | false => exact Or.inl rfl
          | true => exact Or.inr rfl

/-- The world after a reading of the clock or of a random source. -/
def ticked (w : World) : World := { w with tick := w.tick + 1 }

@[simp] theorem setCluster_db (w : World) (n : String) (c : Cluster) :
    (w.setCluster n c).db = w.db := rfl

@[simp] theorem setCluster_self (w : World) (n : String) (c : Cluster) :
    (w.setCluster n c).clusters n = c := Function.update_self ..

/-- Storing a cluster as it is changes nothing. -/
@[simp] theorem setCluster_eq_self (w : World) (n : String) :
    w.setCluster n (w.clusters n) = w := by
  cases w
  simp [setCluster]

@[simp] theorem setCluster_setCluster (w : World) (n : String)
    (c d : Cluster) : (w.setCluster n c).setCluster n d = w.setCluster n d := by
  cases w
  simp [setCluster]

@[simp] theorem setCluster_tick (w : World) (n : String) (c : Cluster) :
    (w.setCluster n c).tick = w.tick := rfl

theorem setCluster_ne (w : World) {n m : String} (c : Cluster) (h : m ≠ n) :
    (w.setCluster n c).clusters m = w.clusters m := Function.update_of_ne h ..

@[simp] theorem setDb_db (w : World) (db : Database) :
    (w.setDb db).db = db := rfl

@[simp] theorem setDb_clusters (w : World) (db : Database) :
    (w.setDb db).clusters = w.clusters := rfl

/-- Storing the database as it is changes nothing. -/
@[simp] theorem setDb_eq_self (w : World) : w.setDb w.db = w := rfl

@[simp] theorem ticked_db (w : World) : w.ticked.db = w.db := rfl

@[simp] theorem ticked_clusters (w : World) :
    w.ticked.clusters = w.clusters := rfl

end World

/-- The answer of one call when requests run one at a time. -/
def handle : Handler backend Exn World
  | .kube cluster op, w =>
      (((w.clusters cluster).exec w.tick op).1.mapError .api,
        w.setCluster cluster ((w.clusters cluster).exec w.tick op).2)
  | .db op, w => ((w.db.exec op).1, w.setDb (w.db.exec op).2)
  | .now, w => (.ok (w.clock w.tick), w.ticked)
  | .uuid4, w => (.ok (w.uuids w.tick), w.ticked)
  | .generatePrivateKey, w => (.ok (w.keys w.tick), w.ticked)
  | .getVaultService, w => (.ok w.vault.isSome, w)
  | .writeSecret username key cert, w => w.writeSecret username key cert

@[simp] theorem handle_getAccessRequest (id : String) (lock : Bool)
    (w : World) :
    handle (.db (.getAccessRequest id lock)) w
      = (.ok (w.db.accessRequests.get id), w) := rfl

@[simp] theorem handle_getPolicy (kind : RoleKind) (name : String)
    (w : World) :
    handle (.db (.getPolicy kind name)) w
      = (.ok (w.db.jitRolePolicies.get (kind, name)), w) := rfl

@[simp] theorem handle_now (w : World) :
    handle .now w = (.ok (w.clock w.tick), w.ticked) := rfl

@[simp] theorem handle_uuid4 (w : World) :
    handle .uuid4 w = (.ok (w.uuids w.tick), w.ticked) := rfl

/-- A transaction whose statements all succeed. -/
theorem handle_commit_ok {w : World} {writes : List DbWrite} {db : Database}
    (h : applyWrites w.db writes = .ok db) :
    handle (.db (.commit writes)) w = (.ok (), w.setDb db) := by
  simp [handle, Database.exec, h]

/-- A transaction with a statement that fails. -/
theorem handle_commit_error {w : World} {writes : List DbWrite} {e : Exn}
    (h : applyWrites w.db writes = .error e) :
    handle (.db (.commit writes)) w = (.error e, w) := by
  simp [handle, Database.exec, h]

/-- A call that fails changes nothing. -/
theorem handle_error {op : Op} {w w' : World} {e : Exn}
    (h : handle op w = (.error e, w')) : w' = w := by
  cases op with
  | kube cluster op =>
      obtain ⟨hr, rfl⟩ := Prod.mk.inj h
      cases hx : ((w.clusters cluster).exec w.tick op).1 with
      | ok a =>
          rw [hx] at hr
          cases hr
      | error e' => rw [exec_error hx, World.setCluster_eq_self]
  | db op =>
      obtain ⟨hr, rfl⟩ := Prod.mk.inj h
      cases op with
      | commit writes =>
          rw [Database.exec] at hr ⊢
          cases hw : applyWrites w.db writes with
          | ok db =>
              rw [hw] at hr
              cases hr
          | error e' => rfl
      | _ => cases hr
  | writeSecret username key cert =>
      have hwrite : w.writeSecret username key cert = (.error e, w') := h
      rw [World.writeSecret] at hwrite
      cases hv : w.vault with
      | none =>
          rw [hv] at hwrite
          exact (Prod.mk.inj hwrite).2.symm
      | some v =>
          rw [hv] at hwrite
          cases (Prod.mk.inj hwrite).1
  | _ => cases (Prod.mk.inj h).1

/-- Calls other than a commit. -/
def NoCommit (op : Op) : Prop := ∀ writes, op ≠ .db (.commit writes)

/-- A call that does not commit leaves the database as it is. -/
theorem handle_db {op : Op} (h : NoCommit op) (w : World) :
    (handle op w).2.db = w.db := by
  cases op with
  | db op =>
      cases op with
      | commit writes => exact absurd rfl (h writes)
      | _ => rfl
  | writeSecret username key cert =>
      show (w.writeSecret username key cert).2.db = w.db
      rw [World.writeSecret]
      split <;> rfl
  | _ => rfl

/-- A program without commits leaves the database as it is. -/
theorem run_db_of_uses {α : Type} {p : Svc α} (hp : p.Uses NoCommit)
    (w : World) : (p.run handle w).2.db = w.db := by
  have htrans : ∀ {u v x : World}, v.db = u.db → x.db = v.db →
      x.db = u.db := fun h h' => h'.trans h
  exact hp.run_keeps (R := fun w w' => w'.db = w.db) (fun _ => rfl) htrans
    (fun _ w hop => handle_db hop w) w

/-- Calls that reach no cluster but one. -/
def OnCluster (cluster : String) : Op → Prop
  | .kube c _ => c = cluster
  | _ => True

/-- A call leaves the other clusters as they are. -/
theorem handle_cluster {cluster c : String} {op : Op}
    (h : OnCluster cluster op) (hc : c ≠ cluster) (w : World) :
    (handle op w).2.clusters c = w.clusters c := by
  cases op with
  | kube c' op =>
      obtain rfl : c' = cluster := h
      exact World.setCluster_ne w _ hc
  | writeSecret username key cert =>
      show (w.writeSecret username key cert).2.clusters c = w.clusters c
      rw [World.writeSecret]
      split <;> rfl
  | _ => rfl

/-- A program on one cluster leaves the others as they are. -/
theorem run_cluster_of_uses {α : Type} {cluster c : String} {p : Svc α}
    (hp : p.Uses (OnCluster cluster)) (hc : c ≠ cluster) (w : World) :
    (p.run handle w).2.clusters c = w.clusters c := by
  have htrans : ∀ {u v x : World}, v.clusters c = u.clusters c →
      x.clusters c = v.clusters c → x.clusters c = u.clusters c :=
    fun h h' => h'.trans h
  exact hp.run_keeps (R := fun w w' => w'.clusters c = w.clusters c)
    (fun _ => rfl) htrans (fun _ w hop => handle_cluster hop hc w) w

/-! ## Small programs every service uses -/

/-- A Kubernetes call on the cluster of an api client. -/
def kube (cluster : String) (op : KubeOp) : Svc op.Res :=
  Prog.perform (I := backend) (.kube cluster op)

/-- A database call. -/
def db (op : DbOp) : Svc op.Res := Prog.perform (I := backend) (.db op)

-- The answer types are left out of simp's index: a call is used at the type
-- its answer reduces to.
@[simp] theorem run_kube {σ : Type} (h : Handler backend Exn σ)
    (cluster : String) (op : KubeOp) (s : σ) :
    @Prog.run backend Exn (no_index op.Res) σ h (kube cluster op) s
      = h (.kube cluster op) s := Prog.run_perform h _ s

@[simp] theorem run_db {σ : Type} (h : Handler backend Exn σ) (op : DbOp)
    (s : σ) :
    @Prog.run backend Exn (no_index op.Res) σ h (db op) s = h (.db op) s :=
  Prog.run_perform h _ s

/-- Calls of the Kubernetes API of one cluster. -/
def KubeOn (cluster : String) (op : Op) : Prop :=
  ∃ o, op = .kube cluster o

theorem kubeOn_kube (cluster : String) (op : KubeOp) :
    (kube cluster op).Uses (KubeOn cluster) := Prog.uses_perform ⟨op, rfl⟩

theorem KubeOn.onCluster {cluster : String} (op : Op)
    (h : KubeOn cluster op) : OnCluster cluster op := by
  obtain ⟨o, rfl⟩ := h
  exact rfl

theorem KubeOn.noCommit {cluster : String} (op : Op)
    (h : KubeOn cluster op) : NoCommit op := by
  obtain ⟨o, rfl⟩ := h
  exact nofun

theorem trace_kube {σ : Type} (h : Handler backend Exn σ)
    (cluster : String) (op : KubeOp) (s : σ) :
    (kube cluster op).trace h s
      = [⟨.kube cluster op, (h (.kube cluster op) s).1⟩] :=
  Prog.trace_perform h _ s

/-- `datetime.now(UTC)`. -/
def now : Svc Time := Prog.perform (I := backend) .now

@[simp] theorem run_now {σ : Type} (h : Handler backend Exn σ) (s : σ) :
    now.run h s = h .now s := Prog.run_perform h _ s

/-- `str(uuid.uuid4())`. -/
def uuid4 : Svc String := Prog.perform (I := backend) .uuid4

@[simp] theorem run_uuid4 {σ : Type} (h : Handler backend Exn σ) (s : σ) :
    uuid4.run h s = h .uuid4 s := Prog.run_perform h _ s

/-- `except ApiException as e: if e.status != status: raise`. -/
def unlessStatus (status : Nat) (otherwise : Svc Unit) (p : Svc Unit) :
    Svc Unit :=
  tryCatch p fun e =>
    if e = .api ⟨status⟩ then otherwise else throw e

@[simp] theorem run_unlessStatus {σ : Type} (h : Handler backend Exn σ)
    (status : Nat) (otherwise p : Svc Unit) (s : σ) :
    (unlessStatus status otherwise p).run h s
      = Prog.orElse (p.run h s) (fun e =>
          if e = .api ⟨status⟩ then otherwise.run h
          else fun t => (.error e, t)) := by
  rw [unlessStatus]
  rw [Prog.run_catching]
  congr 1
  funext e t
  by_cases he : e = .api ⟨status⟩
  · rw [if_pos he, if_pos he]
  · rw [if_neg he, if_neg he, Prog.run_throw]

theorem meets_kube {σ : Type} {h : Handler backend Exn σ}
    {R : σ → Op → Prop} {cluster : String} {op : KubeOp} {s : σ} :
    @Prog.Meets backend Exn (no_index op.Res) σ h R (kube cluster op) s ↔
      R s (.kube cluster op) := Prog.meets_perform

/-- An answer that is tolerated adds nothing to what the call meets. -/
theorem meets_unlessStatus {σ : Type} {h : Handler backend Exn σ}
    {R : σ → Op → Prop} {status : Nat} {p : Svc Unit} {s : σ} :
    (unlessStatus status (pure ()) p).Meets h R s ↔ p.Meets h R s := by
  refine Prog.meets_catching (fun e s => ?_)
  by_cases he : e = .api ⟨status⟩
  · rw [if_pos he]
    exact trivial
  · rw [if_neg he]
    exact trivial

theorem uses_unlessStatus {P : Op → Prop} {status : Nat}
    {p q : Svc Unit} (hp : p.Uses P) (hq : q.Uses P) :
    (unlessStatus status q p).Uses P :=
  Prog.uses_catching hp (fun _ => Prog.uses_ite hq (Prog.uses_throw _))

/-- A delete call that tolerates a missing object. -/
theorem run_deleteIn {α κ : Type} [DecidableEq κ] {key : α → κ}
    {t : Table α key} {k : κ} (cluster : String) (w : World)
    (store : Table α key → Cluster) {p : Svc Unit}
    (hp : p.run handle w
      = ((storing (w.clusters cluster) (deleteIn t k) () store).1.mapError
          .api, w.setCluster cluster
            (storing (w.clusters cluster) (deleteIn t k) () store).2))
    (hstore : store t = w.clusters cluster) :
    (unlessStatus 404 (pure ()) p).run handle w
      = (.ok (), w.setCluster cluster (store (t.erase k))) := by
  rw [run_unlessStatus, hp, deleteIn]
  cases hk : t.get k with
  | none =>
      rw [Table.erase_of_get_none hk, hstore]
      rfl
  | some x => rfl

/-- The table with a new object, unless its key is taken. -/
def addNew {α κ : Type} [DecidableEq κ] {key : α → κ} (t : Table α key)
    (x : α) : Table α key :=
  match t.get (key x) with
  | some _ => t
  | none => t.put x

/-- Creating an object in a namespace that is there, which may itself be there
    already. -/
theorem run_createIn {α κ : Type} [DecidableEq κ] {key : α → κ}
    {t : Table α key} {x : α} {ns : Option String} (cluster : String)
    (w : World) (store : Table α key → Cluster) {p : Svc Unit}
    (hp : p.run handle w
      = ((storing (w.clusters cluster)
            (createInNs (w.clusters cluster) ns t x) () store).1.mapError
          .api, w.setCluster cluster
            (storing (w.clusters cluster)
              (createInNs (w.clusters cluster) ns t x) () store).2))
    (hns : (w.clusters cluster).hasNamespace ns = true)
    (hstore : store t = w.clusters cluster) :
    (unlessStatus 409 (pure ()) p).run handle w
      = (.ok (), w.setCluster cluster (store (addNew t x))) := by
  rw [run_unlessStatus, hp, createInNs, if_pos hns, createIn, addNew]
  cases hk : t.get (key x) with
  | none => rfl
  | some y =>
      rw [hstore]
      rfl

/-- A text that is not `None` and not empty. -/
def truthy (s : Option String) : Bool :=
  match s with
  | none => false
  | some t => decide (t ≠ "")

/-- The cluster name that stands for the in-cluster connection. -/
def localCluster : String := "local"

/-- `ClusterService.get_api_client`: the client of a registered cluster.  A
    client is the name of the cluster it talks to; the cache returns the same
    client while the registry does not change. -/
def registeredApiClient (name : String) : Svc String := do
  let configs : List RegisteredCluster ← db .selectRegisteredClusters
  if configs.any (fun c => decide (c.name = name)) then pure name
  else throw (.valueError ("Cluster '" ++ name ++ "' not found"))

/-- `get_api_client(cluster)`: the local client, or that of a registered
    cluster. -/
def getApiClient (cluster : String) : Svc String :=
  if cluster = localCluster then pure cluster
  else registeredApiClient cluster

end CvBackend
