import ClusterVision.Registry
import ClusterVision.RbacService

/-! # ServiceAccountService and CertificateService

    The programs of the two services that keep managed users.  Both take the
    cluster of their api client; the registry they write to is one for all
    clusters. -/

namespace CvUsers

open CvProg CvTable CvIso CvKube CvBackend CvRbac CvRegistry

/-! ## Both services -/

/-- The text of the current time. -/
def nowText : Svc String := do
  let t ← now
  pure (timeText (utc t))

/-- The users of one type. -/
def usersOfType (type : UserType) : Svc (List RegistryEntry) := do
  let users ← loadRegistry
  pure (users.filter (fun u => decide (u.type = type)))

/-- The `_append` of the create and import functions: a user for whom `taken`
    holds is in the way. -/
def appendUnless (taken : RegistryEntry → Bool) (user : RegistryEntry)
    (current : List RegistryEntry) : Except Exn (List RegistryEntry) :=
  if current.any taken then .error (.userAlreadyExistsError user.name)
  else .ok (current ++ [user])

/-- The `lambda` of the delete functions: all users but those for whom `gone`
    holds. -/
def removeIf (gone : RegistryEntry → Bool) (current : List RegistryEntry) :
    Except Exn (List RegistryEntry) :=
  .ok (current.filter (fun u => !gone u))

/-! ## ServiceAccountService -/

namespace ServiceAccount

/-- `list_users`. -/
def listUsers : Svc (List RegistryEntry) := usersOfType .serviceAccount

/-- `get_user`. -/
def getUser (username : String) (ns : Option String) : Svc RegistryEntry := do
  let users ← loadRegistry
  match users.find? (fun u => decide (u.name = username ∧
      u.type = .serviceAccount ∧ (ns = none ∨ ns = some u.ns))) with
  | some u => pure u
  | none => throw (.userNotFoundError username)

/-- `_ensure_target_namespace`. -/
def ensureTargetNamespace (cluster ns : String) : Svc Unit :=
  ensureNamespace cluster ns

/-- The name of the token Secret of a user. -/
def tokenSecretName (name : String) : String :=
  "clustervision-" ++ name ++ "-token"

/-- The ServiceAccount that `create_user` sends. -/
def serviceAccount (name ns : String) : ServiceAccount where
  name := name
  ns := ns
  labels := managedBy

/-- The Secret that `create_user` sends. -/
def tokenSecret (name ns : String) : Secret where
  name := tokenSecretName name
  ns := ns
  annotations := [("kubernetes.io/service-account.name", name)]
  labels := managedBy
  type := "kubernetes.io/service-account-token"

/-- The entry of a new user. -/
def userRecord (name ns now : String) (imported : Bool) : RegistryEntry where
  name := name
  type := .serviceAccount
  groups := []
  ns := ns
  createdAt := now
  imported := imported

/-- The user that is in the way of a new one. -/
def sameKey (name ns : String) (u : RegistryEntry) : Bool :=
  decide (u.name = name ∧ u.ns = ns)

/-- `create_user`. -/
def createUser (cluster name ns : String) : Svc RegistryEntry := do
  let users ← loadRegistry
  if users.any (sameKey name ns) = true then
    throw (.userAlreadyExistsError name)
  ensureTargetNamespace cluster ns
  unlessStatus 409 (pure ())
    (kube cluster (.createServiceAccount (serviceAccount name ns)))
  unlessStatus 409 (pure ())
    (kube cluster (.createSecret (tokenSecret name ns)))
  let now ← nowText
  let _ ← updateRegistry
    (appendUnless (sameKey name ns) (userRecord name ns now false))
  pure (userRecord name ns now false)

/-- The users among whom `delete_user` chooses. -/
def matching (username : String) (users : List RegistryEntry) :
    List RegistryEntry :=
  users.filter (fun u => decide (u.name = username ∧
    u.type = .serviceAccount))

/-- The user that `delete_user` chooses: the one in the namespace, or the only
    one of that name. -/
def chosen (username ns : String) (users : List RegistryEntry) :
    Except Exn RegistryEntry :=
  match matching username users with
  | [] => .error (.userNotFoundError username)
  | u :: us =>
      match (u :: us).find? (fun u => decide (u.ns = ns)) with
      | some user => .ok user
      | none =>
          if us ≠ [] then
            .error (.userNotFoundError
              (username ++ " (namespace " ++ ns ++ ")"))
          else .ok u

/-- The entries that `delete_user` removes. -/
def isEntry (username ns : String) (u : RegistryEntry) : Bool :=
  decide (u.name = username ∧ u.type = .serviceAccount ∧ u.ns = ns)

/-- `delete_user`. -/
def deleteUser (cluster username ns : String) : Svc Unit := do
  let users ← loadRegistry
  let user ← Prog.ofExcept (chosen username ns users)
  unlessStatus 404 (pure ())
    (kube cluster (.deleteServiceAccount user.ns username))
  unlessStatus 404 (pure ())
    (kube cluster (.deleteSecret user.ns (tokenSecretName username)))
  let _ ← updateRegistry (removeIf (isEntry username user.ns))
  pure ()

/-- The user that is in the way of an imported one. -/
def sameName (name : String) (u : RegistryEntry) : Bool :=
  decide (u.name = name ∧ u.type = .serviceAccount)

/-- `import_user`. -/
def importUser (cluster name ns : String) : Svc RegistryEntry := do
  let _ : ServiceAccount ← kube cluster (.readServiceAccount ns name)
  let now ← nowText
  let _ ← updateRegistry
    (appendUnless (sameName name) (userRecord name ns now true))
  pure (userRecord name ns now true)

/-- `system_namespaces`. -/
def systemNamespaces : List String :=
  ["kube-system", "kube-public", "kube-node-lease"]

/-- Does `list_unmanaged` show this ServiceAccount? -/
def isUnmanaged (registry : List RegistryEntry) (sa : ServiceAccount) : Bool :=
  decide (sa.ns ∉ systemNamespaces ∧ sa.name ≠ "default" ∧
    ∀ u ∈ registry, u.type = .serviceAccount → u.key ≠ (sa.name, sa.ns))

/-- `list_unmanaged`: names with their namespaces. -/
def listUnmanaged (cluster : String) : Svc (List (String × String)) := do
  let registry ← loadRegistry
  let sas : List ServiceAccount ← kube cluster .listServiceAccounts
  pure ((sas.filter (isUnmanaged registry)).map (fun sa => (sa.name, sa.ns)))

end ServiceAccount

/-! ## CertificateService -/

namespace Certificate

/-- `list_users`. -/
def listUsers : Svc (List RegistryEntry) := usersOfType .certificate

/-- The certificate user of a name. -/
def isUser (username : String) (u : RegistryEntry) : Bool :=
  decide (u.name = username ∧ u.type = .certificate)

/-- `get_user`. -/
def getUser (username : String) : Svc RegistryEntry := do
  let users ← loadRegistry
  match users.find? (isUser username) with
  | some u => pure u
  | none => throw (.userNotFoundError username)

/-- The name of the signing request of a user. -/
def csrNameFor (username : String) : String := "clustervision:" ++ username

/-- The signing request that `create_user` sends. -/
def signingRequest (key : PrivateKey) (username : String)
    (groups : List String) : Csr where
  name := csrNameFor username
  request := ⟨key.publicKey, username, groups⟩
  approved := false
  certificate := none

/-- Submit a signing request; one that an earlier creation left behind is
    replaced. -/
def submit (cluster : String) (csr : Csr) : Svc Unit :=
  unlessStatus 409
    (do
      kube cluster (.deleteCsr csr.name)
      kube cluster (.createCsr csr))
    (kube cluster (.createCsr csr))

/-- Approve a signing request: read it and PUT it back. -/
def approve (cluster csrName : String) : Svc Unit := do
  let existing : Csr ← kube cluster (.readCsr csrName)
  kube cluster (.approveCsr existing)

/-- The loop of `_wait_for_certificate`.  Each round ends with a second of
    sleep, so that the deadline has passed when the rounds are used up. -/
def pollCertificate (cluster csrName : String) (deadline : Nat) :
    Nat → Svc Certificate
  | 0 => throw (.certificateTimeoutError csrName)
  | rounds + 1 => do
      let t ← now
      if t.instant < deadline then
        let csr : Csr ← kube cluster (.readCsr csrName)
        match csr.certificate with
        | some certificate => pure certificate
        | none => pollCertificate cluster csrName deadline rounds
      else throw (.certificateTimeoutError csrName)

/-- `timeout`, in seconds. -/
def timeout : Nat := 30

/-- `_wait_for_certificate`. -/
def waitForCertificate (cluster csrName : String) : Svc Certificate := do
  let t ← now
  pollCertificate cluster csrName (t.instant + timeout * 1000000) (timeout + 1)

/-- What `create_user` returns besides the entry: the certificate, and the key
    or the place where Vault keeps it. -/
structure Credentials where
  user : RegistryEntry
  privateKey : Option PrivateKey
  certificate : Certificate
  vaultPath : Option String
deriving DecidableEq

/-- The entry of a new user. -/
def userRecord (username : String) (groups : List String) (now : String)
    (certificate : Certificate) : RegistryEntry where
  name := username
  type := .certificate
  groups := groups
  ns := "default"
  createdAt := now
  csrName := some (csrNameFor username)
  certExpiry := some (timeText (utc certificate.notValidAfterUtc))

/-- The user that is in the way of a new one. -/
def sameName (username : String) (u : RegistryEntry) : Bool :=
  decide (u.name = username)

/-- `except ApiException`: the failure is logged and forgotten. -/
def ignoreApiException (p : Svc Unit) : Svc Unit :=
  tryCatch p fun e =>
    match e with
    | .api _ => pure ()
    | e => throw e

/-- Store the private key in Vault, if there is one; when that fails, take the
    signing request back. -/
def storeKey (cluster username : String) (key : PrivateKey)
    (certificate : Certificate) : Svc (Option String) := do
  let enabled : Bool ← Prog.perform (I := backend) .getVaultService
  if enabled = true then
    tryCatch
      (do
        let path : String ← Prog.perform (I := backend)
          (.writeSecret username key certificate)
        pure (some path))
      fun e => do
        ignoreApiException
          (kube cluster (.deleteCsr (csrNameFor username)))
        throw (.httpException 502
          ("Vault is enabled but the private key could not be stored: "
            ++ e.text))
  else pure none

/-- `create_user`. -/
def createUser (cluster username : String) (groups : List String) :
    Svc Credentials := do
  let users ← loadRegistry
  if users.any (sameName username) = true then
    throw (.userAlreadyExistsError username)
  let key : PrivateKey ← Prog.perform (I := backend) .generatePrivateKey
  submit cluster (signingRequest key username groups)
  approve cluster (csrNameFor username)
  let certificate ← waitForCertificate cluster (csrNameFor username)
  let now ← nowText
  let vaultPath ← storeKey cluster username key certificate
  let user := userRecord username groups now certificate
  let _ ← updateRegistry (appendUnless (sameName username) user)
  if truthy vaultPath = true then
    pure ⟨user, none, certificate, vaultPath⟩
  else pure ⟨user, some key, certificate, none⟩

/-- The part of `delete_user` that deletes the signing request; imported users
    have none. -/
def deleteSigningRequest (cluster : String) (user : RegistryEntry) :
    Svc Unit :=
  match user.csrName with
  | none => pure ()
  | some name =>
      if name = "" then pure ()
      else unlessStatus 404 (pure ()) (kube cluster (.deleteCsr name))

/-- `delete_user`. -/
def deleteUser (cluster username : String) : Svc Unit := do
  let users ← loadRegistry
  match users.find? (isUser username) with
  | none => throw (.userNotFoundError username)
  | some user => do
      deleteSigningRequest cluster user
      let _ ← updateRegistry (removeIf (isUser username))
      pure ()

/-- The entry of an imported user. -/
def importedRecord (username : String) (groups : List String)
    (now : String) : RegistryEntry where
  name := username
  type := .certificate
  groups := groups
  ns := "default"
  createdAt := now
  imported := true

/-- `import_user`. -/
def importUser (username : String) (groups : List String) :
    Svc RegistryEntry := do
  let now ← nowText
  let _ ← updateRegistry (appendUnless (sameName username)
    (importedRecord username groups now))
  pure (importedRecord username groups now)

end Certificate

/-- `clear_links_to`. -/
def clearLinksTo (name ns : String) : Svc Unit :=
  (db (.commit [.clearLinksTo name ns])).ensuring (db .close)

end CvUsers
