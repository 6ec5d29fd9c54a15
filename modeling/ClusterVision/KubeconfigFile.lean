import ClusterVision.KubeconfigService
import ClusterVision.VaultService
import ClusterVision.Base64TextProofs

/-! # Kubeconfig files

    `POST /kubeconfig` (`routers/kubeconfig.py`) and the documents of
    `services/kubeconfig_service.py`: for a certificate user the certificate of
    its signing request with a private key, which is sent along or read from
    Vault, and for a ServiceAccount its token.  At the end of the file stands
    what a client makes of such a document. -/

namespace CvKubeFile

open CvProg CvTable CvKube CvBackend CvUsers CvKubeconfig CvVault CvBase64

/-! ## Documents -/

/-- The entries of a kubeconfig.  Octets are in base64. -/
structure ClusterEntry where
  name : String
  server : String
  certificateAuthorityData : String
deriving DecidableEq

@[inherit_doc ClusterEntry]
structure ContextEntry where
  name : String
  cluster : String
  user : String
  ns : Option String
deriving DecidableEq

/-- What a client identifies itself with. -/
inductive AuthInfo where
  | certificate (clientCertificateData clientKeyData : String)
  | token (token : String)
deriving DecidableEq

@[inherit_doc ClusterEntry]
structure UserEntry where
  name : String
  user : AuthInfo
deriving DecidableEq

/-- The dictionary that `yaml.dump` writes. -/
structure Kubeconfig where
  apiVersion : String := "v1"
  kind : String := "Config"
  clusters : List ClusterEntry
  contexts : List ContextEntry
  currentContext : String
  users : List UserEntry
deriving DecidableEq

/-- The octets of a text. -/
def octets (text : String) : List UInt8 :=
  text.toList.flatMap String.utf8EncodeChar

/-- `base64.b64encode(..).decode()`. -/
def b64encode (bytes : List UInt8) : String := String.ofList (encode bytes)

/-- The document of one user of one cluster. -/
def document (clusterName server ca name ns : String) (auth : AuthInfo) :
    Kubeconfig where
  clusters := [⟨clusterName, server, ca⟩]
  contexts := [⟨name ++ "@" ++ clusterName, clusterName, name,
    if ns ≠ "" then some ns else none⟩]
  currentContext := name ++ "@" ++ clusterName
  users := [⟨name, auth⟩]

/-! ## The service -/

/-- What the service takes from its settings, its api client and its pod: the
    host that the client is configured with, whether it is the one of the local
    cluster, the answer to the read of `kube-root-ca.crt` (its data, if it has
    any), and the certificate mounted with the ServiceAccount. -/
structure Endpoint where
  clusterName : String
  clusterApiUrl : String
  host : Option String
  isLocal : Bool
  rootCa : Except ApiException (Option Dict)
  mountedCa : Option (List UInt8)

/-- `_get_cluster_ca`. -/
def getClusterCa (env : Endpoint) : Except Exn String :=
  match env.rootCa with
  | .ok (some data) => .ok (b64encode (octets ((data.get? "ca.crt").getD "")))
  | .ok none => .error .attributeError
  | .error _ => .ok (b64encode (env.mountedCa.getD []))

/-- `_get_api_server_url`. -/
def getApiServerUrl (env : Endpoint) : String :=
  if env.isLocal = true ∧ env.clusterApiUrl ≠ "" then env.clusterApiUrl
  else if rstripSlash (env.host.getD "") = "" then
    "https://kubernetes.default.svc"
  else rstripSlash (env.host.getD "")

/-- `generate_for_cert_user`. -/
def generateForCertUser (env : Endpoint)
    (username certificatePem privateKeyPem ns : String) :
    Except Exn Kubeconfig := do
  let ca ← getClusterCa env
  pure (document env.clusterName (getApiServerUrl env) ca username ns
    (.certificate (b64encode (octets certificatePem))
      (b64encode (octets privateKeyPem))))

/-- `generate_for_service_account`. -/
def generateForServiceAccount (env : Endpoint)
    (cluster saName saNamespace targetNamespace : String) :
    Svc Kubeconfig := do
  let token ← getSaToken cluster saName saNamespace
  let ca ← Prog.ofExcept (getClusterCa env)
  pure (document env.clusterName (getApiServerUrl env) ca saName
    targetNamespace (.token token))

/-- `ImportedUserError`. -/
structure ImportedUserError where
  message : String
deriving DecidableEq

/-- `CertificateService.get_certificate_pem`, up to the text of the
    certificate. -/
def getCertificate (cluster username : String) :
    Svc (Except ImportedUserError Certificate) := do
  let user ← Certificate.getUser username
  match user.csrName with
  | some csrName =>
      if user.imported = true ∨ csrName = "" then
        pure (.error ⟨"User '" ++ username ++ "' was imported and has no " ++
          "managed CSR. Provide the certificate PEM directly."⟩)
      else do
        let csr : Csr ← kube cluster (.readCsr csrName)
        match csr.certificate with
        | none => pure (.error
            ⟨"No signed certificate found for user " ++ username⟩)
        | some certificate => pure (.ok certificate)
  | none =>
      pure (.error ⟨"User '" ++ username ++ "' was imported and has no " ++
        "managed CSR. Provide the certificate PEM directly."⟩)

/-! ## The route -/

/-- `KubeconfigRequest`. -/
structure KubeconfigRequest where
  username : String
  userType : UserType
  ns : String
  saNamespace : Option String
  privateKeyPem : Option String

/-- How the route fails. -/
inductive Failure where
  | service (e : Exn)
  | importedUser (e : ImportedUserError)

section Route

variable (keyPem : PrivateKey → String) (certificatePem : Certificate → String)

/-- The private key that Vault has for a user; its reads may fail. -/
def storedKeyPem (vaultFault : Option String) (w : World)
    (username : String) : Except Exn String :=
  match w.vault, vaultFault with
  | none, _ => .ok ""
  | some _, some e => .error (.httpException 502 ("Vault read failed: " ++ e))
  | some v, none =>
      match v.read username with
      | none => .ok ""
      | some secret => .ok (keyPem secret.1)

/-- The private key of a certificate user: the one that is sent, or else the
    one in Vault. -/
def privateKeyPem (vaultFault : Option String) (w : World)
    (payload : KubeconfigRequest) : Except Exn String :=
  if payload.privateKeyPem.getD "" ≠ "" then
    .ok (payload.privateKeyPem.getD "")
  else
    match storedKeyPem keyPem vaultFault w payload.username with
    | .error e => .error e
    | .ok key =>
        if key = "" then
          .error (.httpException 400 ("private_key_pem is required for " ++
            "certificate users (or enable Vault integration)"))
        else .ok key

/-- `generate_kubeconfig` for a certificate user. -/
def generateCertificate (vaultFault : Option String) (env : Endpoint)
    (cluster : String) (payload : KubeconfigRequest) (w : World) :
    Except Failure Kubeconfig × World :=
  match privateKeyPem keyPem vaultFault w payload with
  | .error e => (.error (.service e), w)
  | .ok key =>
      match (getCertificate cluster payload.username).run handle w with
      | (.error e, w') => (.error (.service e), w')
      | (.ok (.error e), w') => (.error (.importedUser e), w')
      | (.ok (.ok certificate), w') =>
          ((generateForCertUser env payload.username
            (certificatePem certificate) key payload.ns).mapError .service, w')

/-- `generate_kubeconfig` for a ServiceAccount. -/
def generateAccount (env : Endpoint) (cluster : String)
    (payload : KubeconfigRequest) : Svc Kubeconfig := do
  let user ← ServiceAccount.getUser payload.username payload.saNamespace
  generateForServiceAccount env cluster payload.username user.ns payload.ns

/-- `generate_kubeconfig`. -/
def generateKubeconfig (vaultFault : Option String) (env : Endpoint)
    (cluster : String) (payload : KubeconfigRequest) (w : World) :
    Except Failure Kubeconfig × World :=
  match payload.userType with
  | .certificate =>
      generateCertificate keyPem certificatePem vaultFault env cluster payload w
  | .serviceAccount =>
      let o := (generateAccount env cluster payload).run handle w
      (o.1.mapError .service, o.2)

end Route

/-! ## Clients -/

/-- What a client presents to the server. -/
inductive Credential where
  | certificate (certificate key : List UInt8)
  | token (token : String)
deriving DecidableEq

/-- Whom a client talks to, as whom, and in which namespace. -/
structure Connection where
  server : String
  ca : List UInt8
  credential : Credential
  ns : String
deriving DecidableEq

/-- What a user entry presents. -/
def AuthInfo.credential : AuthInfo → Option Credential
  | .certificate certData keyData => do
      let cert ← decode certData.toList
      let key ← decode keyData.toList
      some (.certificate cert key)
  | .token value => some (.token value)

/-- What a client does with a kubeconfig: it follows the names from the current
    context to its cluster and its user. -/
def Kubeconfig.connection (k : Kubeconfig) : Option Connection := do
  let context ← k.contexts.find? (fun c => decide (c.name = k.currentContext))
  let cluster ← k.clusters.find? (fun c => decide (c.name = context.cluster))
  let user ← k.users.find? (fun u => decide (u.name = context.user))
  let ca ← decode cluster.certificateAuthorityData.toList
  let credential ← user.user.credential
  some ⟨cluster.server, ca, credential, context.ns.getD "default"⟩

end CvKubeFile
