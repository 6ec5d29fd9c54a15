import ClusterVision.PagingProofs
import ClusterVision.TableProofs
import ClusterVision.IsoTimeProofs

/-! # The Kubernetes API, as far as the backend uses it

    One cluster as its API server stores it: role bindings, namespaces,
    ServiceAccounts, Secrets, CertificateSigningRequests and roles, each in a
    table keyed as the server keys them, and the calls of the Python client
    with their answers.

    ClusterRoleBindings and RoleBindings share one table: a binding without a
    namespace is a ClusterRoleBinding.  Roles and ClusterRoles likewise. -/

namespace CvKube

open CvPage CvTable CvIso

/-! ## Objects -/

/-- `SubjectKind`. -/
inductive SubjectKind where
  | user
  | group
  | serviceAccount
deriving DecidableEq, Repr

/-- `SubjectKind(text)`; `none` is the `ValueError`. -/
def SubjectKind.ofText (text : String) : Option SubjectKind :=
  if text = "User" then some .user
  else if text = "Group" then some .group
  else if text = "ServiceAccount" then some .serviceAccount
  else none

/-- The kinds a `roleRef` can have. -/
inductive RoleKind where
  | clusterRole
  | role
deriving DecidableEq, Repr

/-- The text of a role kind. -/
def RoleKind.text : RoleKind → String
  | .clusterRole => "ClusterRole"
  | .role => "Role"

/-- `RbacV1Subject`. -/
structure Subject where
  kind : SubjectKind
  name : String
  ns : Option String
deriving DecidableEq, Repr

/-- `V1RoleRef`. -/
structure RoleRef where
  apiGroup : String := "rbac.authorization.k8s.io"
  kind : RoleKind
  name : String
deriving DecidableEq, Repr

/-- Labels and annotations. -/
abbrev Dict := List (String × String)

/-- `d.get(key)`. -/
def Dict.get? (d : Dict) (key : String) : Option String :=
  (d.find? (fun e => decide (e.1 = key))).map (·.2)

/-- `{**d, **e}`: the entries of `e` replace those of `d`. -/
def Dict.merge (d e : Dict) : Dict :=
  d.filter (fun x => e.all (fun y => decide (y.1 ≠ x.1))) ++ e

/-- `V1ClusterRoleBinding` (no namespace) or `V1RoleBinding`. -/
structure Binding where
  name : String
  ns : Option String
  labels : Dict
  annotations : Option Dict
  roleRef : RoleRef
  subjects : List Subject
deriving DecidableEq, Repr

/-- The server's key of a binding. -/
def Binding.key (b : Binding) : Option String × String := (b.ns, b.name)

/-- `V1Namespace`. -/
structure Namespace where
  name : String
  labels : Dict
deriving DecidableEq

/-- `V1ServiceAccount`. -/
structure ServiceAccount where
  name : String
  ns : String
  labels : Dict
deriving DecidableEq

/-- The server's key of a ServiceAccount. -/
def ServiceAccount.key (a : ServiceAccount) : String × String := (a.ns, a.name)

-- the comparison of core Lean, whatever else is imported
local instance decEqBytes : DecidableEq ByteArray := ByteArray.instDecidableEq

/-- `V1Secret`; the client carries the values of its data in base64. -/
structure Secret where
  name : String
  ns : String
  annotations : Dict
  labels : Dict
  type : String
  data : Option (List (String × ByteArray)) := none
deriving DecidableEq

/-- The server's key of a Secret. -/
def Secret.key (s : Secret) : String × String := (s.ns, s.name)

/-- A private key, named by the number of its public key. -/
structure PrivateKey where
  publicKey : Nat
deriving DecidableEq

/-- What a certificate signing request asks for. -/
structure CsrRequest where
  publicKey : Nat
  commonName : String
  organizations : List String
deriving DecidableEq

/-- A signed certificate. -/
structure Certificate where
  publicKey : Nat
  commonName : String
  organizations : List String
  notValidAfterUtc : Time
deriving DecidableEq

/-- `V1CertificateSigningRequest`; the certificate is the one issued so far. -/
structure Csr where
  name : String
  request : CsrRequest
  approved : Bool
  certificate : Option Certificate
deriving DecidableEq

/-- `V1PolicyRule`; absent lists are `none`. -/
structure PolicyRule where
  apiGroups : Option (List String)
  resources : Option (List String)
  verbs : Option (List String)
  resourceNames : Option (List String)
  nonResourceUrls : Option (List String)
deriving DecidableEq

/-- `V1ClusterRole` (no namespace) or `V1Role`. -/
structure RoleObject where
  name : String
  ns : Option String
  labels : Dict
  rules : List PolicyRule
deriving DecidableEq

/-- The server's key of a role. -/
def RoleObject.key (r : RoleObject) : Option String × String := (r.ns, r.name)

/-- `VersionInfo`. -/
structure VersionInfo where
  gitVersion : String
  platform : String
  goVersion : String
deriving DecidableEq

/-- `V1TokenRequestSpec`. -/
structure TokenRequestSpec where
  audiences : List String
  expirationSeconds : Nat
deriving DecidableEq

/-- `V1ResourceAttributes`. -/
structure ResourceAttributes where
  verb : String
  resource : String
  ns : Option String
  group : String
deriving DecidableEq

/-- `V1SubjectAccessReviewSpec`. -/
structure SubjectAccessReviewSpec where
  user : String
  groups : Option (List String)
  resourceAttributes : ResourceAttributes
deriving DecidableEq

/-- `V1SubjectAccessReviewStatus`. -/
structure SubjectAccessReviewStatus where
  allowed : Bool
  denied : Option Bool
  reason : Option String
deriving DecidableEq

/-- What PATCH does to the subjects of a binding, by the content type the
    server honours: replace the list, or merge it by subject name. -/
inductive PatchMode where
  | replace
  | mergeByName
deriving DecidableEq

/-- One cluster.  `signer n r` is the certificate that the signer has issued
    for the approved request `r` by time `n`, `issuer n a spec` the token that
    the server issues for the ServiceAccount `a` at time `n`, and `authorizer`
    the decision on an access review. -/
structure Cluster where
  bindings : Table Binding Binding.key
  namespaces : Table Namespace Namespace.name
  serviceAccounts : Table ServiceAccount ServiceAccount.key
  secrets : Table Secret Secret.key
  csrs : Table Csr Csr.name
  roles : Table RoleObject RoleObject.key
  version : VersionInfo
  patchMode : PatchMode
  signer : Nat → Csr → Option Certificate
  issuer : Nat → ServiceAccount → TokenRequestSpec → String
  authorizer : SubjectAccessReviewSpec → SubjectAccessReviewStatus

/-- A cluster as it is installed: it has the namespace `default`. -/
def Cluster.fresh : Cluster where
  bindings := Table.empty
  namespaces := Table.empty.put ⟨"default", []⟩
  serviceAccounts := Table.empty
  secrets := Table.empty
  csrs := Table.empty
  roles := Table.empty
  version := ⟨"v1.30.0", "linux/amd64", "go1.22"⟩
  patchMode := .replace
  signer := fun _ _ => none
  issuer := fun n _ _ => n.repr
  authorizer := fun _ => ⟨false, none, none⟩

/-- The cluster with other bindings. -/
def Cluster.withBindings (c : Cluster) (t : Table Binding Binding.key) :
    Cluster := { c with bindings := t }

@[simp] theorem Cluster.withBindings_bindings (c : Cluster)
    (t : Table Binding Binding.key) : (c.withBindings t).bindings = t := rfl

@[simp] theorem Cluster.withBindings_self (c : Cluster) :
    c.withBindings c.bindings = c := rfl

@[simp] theorem Cluster.withBindings_withBindings (c : Cluster)
    (t u : Table Binding Binding.key) :
    (c.withBindings t).withBindings u = c.withBindings u := rfl

/-! ## Calls -/

/-- The bindings a list call asks for. -/
inductive Scope where
  | cluster
  | allNamespaces
  | inNamespace (ns : String)
deriving DecidableEq

/-- Does an object with this namespace lie in the scope? -/
def Scope.holds : Scope → Option String → Bool
  | .cluster, ns => ns.isNone
  | .allNamespaces, ns => ns.isSome
  | .inNamespace n, ns => decide (ns = some n)

/-- `label_selector="key=value"`. -/
def selected (selector : Option (String × String)) (labels : Dict) : Bool :=
  match selector with
  | none => true
  | some (key, value) => decide (labels.get? key = some value)

/-- The API calls.  A PATCH sends a list of one subject. -/
inductive KubeOp where
  | createBinding (b : Binding)
  | patchBinding (ns : Option String) (name : String) (subject : Subject)
  | deleteBinding (ns : Option String) (name : String)
  | listBindings (scope : Scope) (selector : Option (String × String))
      (limit : Option Nat) (cursor : Option (Cursor Binding))
  | readNamespace (name : String)
  | createNamespace (n : Namespace)
  | listNamespaces
  | createServiceAccount (a : ServiceAccount)
  | readServiceAccount (ns name : String)
  | deleteServiceAccount (ns name : String)
  | listServiceAccounts
  | createSecret (s : Secret)
  | readSecret (ns name : String)
  | deleteSecret (ns name : String)
  | listSecrets (ns : String)
  | createToken (ns name : String) (spec : TokenRequestSpec)
  | createCsr (r : Csr)
  | readCsr (name : String)
  | approveCsr (read : Csr)
  | deleteCsr (name : String)
  | createRole (r : RoleObject)
  | readRole (ns : Option String) (name : String)
  | replaceRole (r : RoleObject)
  | deleteRole (ns : Option String) (name : String)
  | listRoles (scope : Scope) (limit : Option Nat)
      (cursor : Option (Cursor RoleObject))
  | createSubjectAccessReview (spec : SubjectAccessReviewSpec)
  | getCode

/-- What each call answers. -/
@[reducible] def KubeOp.Res : KubeOp → Type
  | .createBinding _ => Binding
  | .listBindings _ _ _ _ => Page Binding
  | .readNamespace _ => Namespace
  | .listNamespaces => List Namespace
  | .readServiceAccount _ _ => ServiceAccount
  | .listServiceAccounts => List ServiceAccount
  | .readSecret _ _ => Secret
  | .listSecrets _ => List Secret
  | .createToken _ _ _ => String
  | .readCsr _ => Csr
  | .createRole _ => RoleObject
  | .readRole _ _ => RoleObject
  | .replaceRole _ => RoleObject
  | .listRoles _ _ _ => Page RoleObject
  | .createSubjectAccessReview _ => SubjectAccessReviewStatus
  | .getCode => VersionInfo
  | _ => Unit

/-- `ApiException`, with its HTTP status. -/
structure ApiException where
  status : Nat
deriving DecidableEq

/-- PATCH with one subject merged by name: fields that are not sent keep the
    value they have. -/
def mergeSubject (old new : Subject) : Subject :=
  ⟨new.kind, new.name, new.ns <|> old.ns⟩

/-- The subjects after a PATCH with the single subject `new`. -/
def patchSubjects (mode : PatchMode) (old : List Subject) (new : Subject) :
    List Subject :=
  match mode with
  | .replace => [new]
  | .mergeByName =>
      if old.any (fun s => decide (s.name = new.name)) then
        old.map (fun s => if s.name = new.name then mergeSubject s new else s)
      else old ++ [new]

/-- A binding after a PATCH of its subjects; nothing else of it changes. -/
def Binding.patched (b : Binding) (mode : PatchMode) (subject : Subject) :
    Binding :=
  { b with subjects := patchSubjects mode b.subjects subject }

/-- A signing request after its approval. -/
def Csr.approve (r : Csr) : Csr := { r with approved := true }

/-- A signing request as it is read at time `n`: with the certificate, when
    the signer has issued one. -/
def Csr.served (signer : Nat → Csr → Option Certificate) (n : Nat)
    (r : Csr) : Csr :=
  { r with certificate := if r.approved then signer n r else none }

/-- A PUT of the approval of `read`: 409 when the signing request is no longer
    the one that was read. -/
def approvalIn (signer : Nat → Csr → Option Certificate) (n : Nat)
    (t : Table Csr Csr.name) (read : Csr) :
    Except ApiException (Table Csr Csr.name) :=
  match t.get read.name with
  | none => .error ⟨404⟩
  | some r =>
      if r.served signer n = read then .ok (t.put r.approve)
      else .error ⟨409⟩

/-- A create call: 409 when the key is taken. -/
def createIn {α κ : Type} [DecidableEq κ] {key : α → κ} (t : Table α key)
    (x : α) : Except ApiException (Table α key) :=
  match t.get (key x) with
  | some _ => .error ⟨409⟩
  | none => .ok (t.put x)

/-- A read call: 404 when the key is absent. -/
def readIn {α κ : Type} [DecidableEq κ] {key : α → κ} (t : Table α key)
    (k : κ) : Except ApiException α :=
  match t.get k with
  | some x => .ok x
  | none => .error ⟨404⟩

/-- A delete call: 404 when the key is absent. -/
def deleteIn {α κ : Type} [DecidableEq κ] {key : α → κ} (t : Table α key)
    (k : κ) : Except ApiException (Table α key) :=
  match t.get k with
  | some _ => .ok (t.erase k)
  | none => .error ⟨404⟩

/-- A PUT of an object: 404 when its key is absent. -/
def replaceIn {α κ : Type} [DecidableEq κ] {key : α → κ} (t : Table α key)
    (x : α) : Except ApiException (Table α key) :=
  match t.get (key x) with
  | some _ => .ok (t.put x)
  | none => .error ⟨404⟩

/-- A namespaced object needs its namespace. -/
def Cluster.hasNamespace (c : Cluster) : Option String → Bool
  | none => true
  | some ns => (c.namespaces.get ns).isSome

/-- The answer `a` of a call that stores `r` in the cluster `c`, or fails. -/
def storing {τ α : Type} (c : Cluster) (r : Except ApiException τ) (a : α)
    (store : τ → Cluster) : Except ApiException α × Cluster :=
  match r with
  | .ok t => (.ok a, store t)
  | .error e => (.error e, c)

/-- A create call of a namespaced object also needs the namespace: 404. -/
def createInNs {α κ : Type} [DecidableEq κ] {key : α → κ} (c : Cluster)
    (ns : Option String) (t : Table α key) (x : α) :
    Except ApiException (Table α key) :=
  if c.hasNamespace ns then createIn t x else .error ⟨404⟩

/-- What a call does to the cluster at time `n`. -/
def Cluster.exec (n : Nat) : (op : KubeOp) → Cluster →
    Except ApiException op.Res × Cluster
  | .createBinding b, c =>
      storing c (createInNs c b.ns c.bindings b) b c.withBindings
  | .patchBinding ns name subject, c =>
      storing c (readIn c.bindings (ns, name)) ()
        (fun b => c.withBindings
          (c.bindings.put (b.patched c.patchMode subject)))
  | .deleteBinding ns name, c =>
      storing c (deleteIn c.bindings (ns, name)) () c.withBindings
  | .listBindings scope selector limit cursor, c =>
      (.ok (servePage limit cursor (c.bindings.rows.filter
        (fun b => scope.holds b.ns && selected selector b.labels))), c)
  | .readNamespace name, c => (readIn c.namespaces name, c)
  | .createNamespace ns, c =>
      storing c (createIn c.namespaces ns) ()
        (fun t => { c with namespaces := t })
  | .listNamespaces, c => (.ok c.namespaces.rows, c)
  | .createServiceAccount a, c =>
      storing c (createInNs c (some a.ns) c.serviceAccounts a) ()
        (fun t => { c with serviceAccounts := t })
  | .readServiceAccount ns name, c => (readIn c.serviceAccounts (ns, name), c)
  | .deleteServiceAccount ns name, c =>
      storing c (deleteIn c.serviceAccounts (ns, name)) ()
        (fun t => { c with serviceAccounts := t })
  | .listServiceAccounts, c => (.ok c.serviceAccounts.rows, c)
  | .createSecret s, c =>
      storing c (createInNs c (some s.ns) c.secrets s) ()
        (fun t => { c with secrets := t })
  | .readSecret ns name, c => (readIn c.secrets (ns, name), c)
  | .deleteSecret ns name, c =>
      storing c (deleteIn c.secrets (ns, name)) ()
        (fun t => { c with secrets := t })
  | .listSecrets ns, c =>
      (.ok (c.secrets.rows.filter (fun s => decide (s.ns = ns))), c)
  | .createToken ns name spec, c =>
      ((readIn c.serviceAccounts (ns, name)).map
        (fun a => c.issuer n a spec), c)
  | .createCsr r, c =>
      storing c (createIn c.csrs r) () (fun t => { c with csrs := t })
  | .readCsr name, c =>
      ((readIn c.csrs name).map (Csr.served c.signer n), c)
  | .approveCsr read, c =>
      storing c (approvalIn c.signer n c.csrs read) ()
        (fun t => { c with csrs := t })
  | .deleteCsr name, c =>
      storing c (deleteIn c.csrs name) () (fun t => { c with csrs := t })
  | .createRole r, c =>
      storing c (createInNs c r.ns c.roles r) r
        (fun t => { c with roles := t })
  | .readRole ns name, c => (readIn c.roles (ns, name), c)
  | .replaceRole r, c =>
      storing c (replaceIn c.roles r) r (fun t => { c with roles := t })
  | .deleteRole ns name, c =>
      storing c (deleteIn c.roles (ns, name)) ()
        (fun t => { c with roles := t })
  | .listRoles scope limit cursor, c =>
      (.ok (servePage limit cursor
        (c.roles.rows.filter (fun r => scope.holds r.ns))), c)
  | .createSubjectAccessReview spec, c => (.ok (c.authorizer spec), c)
  | .getCode, c => (.ok c.version, c)

/-! ## What the calls leave alone -/

/-- The calls that can change the bindings. -/
def KubeOp.writesBindings : KubeOp → Bool
  | .createBinding _ => true
  | .patchBinding _ _ _ => true
  | .deleteBinding _ _ => true
  | _ => false

/-- `storing` either stores or leaves the cluster alone. -/
theorem storing_snd {τ α : Type} {P : Cluster → Prop} {c : Cluster}
    {r : Except ApiException τ} {a : α} {store : τ → Cluster} (hc : P c)
    (hs : ∀ t, r = .ok t → P (store t)) : P (storing c r a store).2 := by
  cases r with
  | ok t => exact hs t rfl
  | error e => exact hc

/-- Every other call leaves the bindings alone. -/
theorem exec_bindings {n : Nat} {op : KubeOp} {c : Cluster}
    (h : op.writesBindings = false) :
    (c.exec n op).2.bindings = c.bindings := by
  cases op with
  | createBinding _ | patchBinding _ _ _ | deleteBinding _ _ =>
      exact nomatch h
  | listBindings _ _ _ _ | readNamespace _ | listNamespaces
  | readServiceAccount _ _ | listServiceAccounts | readSecret _ _
  | listSecrets _ | createToken _ _ _ | readCsr _ | readRole _ _
  | listRoles _ _ _ | createSubjectAccessReview _ | getCode => rfl
  | createNamespace _ | createServiceAccount _ | deleteServiceAccount _ _
  | createSecret _ | deleteSecret _ _ | createCsr _ | approveCsr _
  | deleteCsr _ | createRole _ | replaceRole _ | deleteRole _ _ =>
      exact storing_snd (P := fun d => d.bindings = c.bindings) rfl
        (fun _ _ => rfl)

/-- A call that is to store something, and fails, stores nothing. -/
theorem storing_error {τ α : Type} {c : Cluster} {r : Except ApiException τ}
    {a : α} {store : τ → Cluster} {e : ApiException}
    (h : (storing c r a store).1 = .error e) : (storing c r a store).2 = c := by
  cases r with
  | ok t => cases h
  | error e' => rfl

/-- A call that fails leaves the cluster as it is. -/
theorem exec_error {n : Nat} {op : KubeOp} {c : Cluster} {e : ApiException}
    (h : (c.exec n op).1 = .error e) : (c.exec n op).2 = c := by
  cases op with
  | listBindings _ _ _ _ | readNamespace _ | listNamespaces
  | readServiceAccount _ _ | listServiceAccounts | readSecret _ _
  | listSecrets _ | createToken _ _ _ | readCsr _ | readRole _ _
  | listRoles _ _ _ | createSubjectAccessReview _ | getCode => rfl
  | _ => exact storing_error h

end CvKube
