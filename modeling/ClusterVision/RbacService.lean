import ClusterVision.Backend

/-! # RbacService

    The programs of `services/rbac_service.py`.  Each takes the cluster of the
    service's api client first.  A loop that follows continuation tokens takes
    the number of pages it may fetch; one page more than there are bindings is
    always enough. -/

namespace CvRbac

open CvProg CvPage CvTable CvIso CvKube CvBackend

/-! ## Roles -/

/-- `text.startswith(start)`. -/
def startswith (text start : String) : Bool :=
  start.toList.isPrefixOf text.toList

/-- `xs or default`, for a list that may be absent. -/
def orDefault (xs : Option (List String)) (default : List String) :
    List String :=
  match xs with
  | none => default
  | some [] => default
  | some (y :: ys) => y :: ys

/-- The dictionary of `_rule_from_k8s`. -/
structure RuleRead where
  apiGroups : List String
  resources : List String
  verbs : List String
  resourceNames : Option (List String)
deriving DecidableEq

/-- `_rule_from_k8s`. -/
def ruleFromK8s (rule : PolicyRule) : RuleRead :=
  ⟨orDefault rule.apiGroups [""], orDefault rule.resources [],
    orDefault rule.verbs [], rule.resourceNames⟩

/-- The dictionary of one role. -/
structure RoleRead where
  name : String
  ns : Option String
  rules : List RuleRead
  isSystem : Bool
deriving DecidableEq

/-- `PaginatedList`; `total` is the number of items. -/
structure PaginatedList (α κ : Type) where
  items : List α
  total : Nat
  nextContinue : Option (Cursor κ)
deriving DecidableEq

/-- Is this one of the roles that Kubernetes itself installs? -/
def isSystemRole (r : RoleObject) : Bool :=
  startswith r.name "system:" || startswith r.name "kubeadm:"

/-- `list_cluster_roles`. -/
def listClusterRoles (cluster : String) (includeSystem : Bool) (limit : Nat)
    (cursor : Option (Cursor RoleObject)) :
    Svc (PaginatedList RoleRead RoleObject) := do
  let result : Page RoleObject ←
    kube cluster (.listRoles .cluster (some limit) cursor)
  let kept := result.items.filter (fun r => includeSystem || !isSystemRole r)
  let items := kept.map (fun r =>
    ⟨r.name, none, r.rules.map ruleFromK8s, isSystemRole r⟩)
  pure ⟨items, items.length, result.next⟩

/-- `list_roles`. -/
def listRoles (cluster ns : String) (limit : Nat)
    (cursor : Option (Cursor RoleObject)) :
    Svc (PaginatedList RoleRead RoleObject) := do
  let result : Page RoleObject ←
    kube cluster (.listRoles (.inNamespace ns) (some limit) cursor)
  let items := result.items.map (fun r =>
    ⟨r.name, r.ns, r.rules.map ruleFromK8s, false⟩)
  pure ⟨items, items.length, result.next⟩

/-! ## Bindings -/

/-- The label of everything the backend creates. -/
def managedBy : Dict := [("managed-by", "clustervision")]

/-- `PolicyRule`, as a request carries it. -/
structure RulePayload where
  apiGroups : List String := [""]
  resources : List String
  verbs : List String
  resourceNames : Option (List String) := none
deriving DecidableEq

/-- `_rule_to_k8s`. -/
def ruleToK8s (rule : RulePayload) : PolicyRule where
  apiGroups := some rule.apiGroups
  resources := some rule.resources
  verbs := some rule.verbs
  resourceNames := rule.resourceNames
  nonResourceUrls := none

/-- A ClusterRole as `get_cluster_role`, `create_cluster_role` and
    `update_cluster_role` show it. -/
def clusterRoleRead (r : RoleObject) : RoleRead :=
  ⟨r.name, none, r.rules.map ruleFromK8s, startswith r.name "system:"⟩

/-- `get_cluster_role`. -/
def getClusterRole (cluster name : String) : Svc RoleRead := do
  let r : RoleObject ← kube cluster (.readRole none name)
  pure (clusterRoleRead r)

/-- The object that `create_cluster_role` sends. -/
def clusterRole (name : String) (rules : List RulePayload) : RoleObject where
  name := name
  ns := none
  labels := managedBy
  rules := rules.map ruleToK8s

/-- `create_cluster_role`. -/
def createClusterRole (cluster name : String) (rules : List RulePayload) :
    Svc RoleRead := do
  let created : RoleObject ← kube cluster
    (.createRole (clusterRole name rules))
  pure (clusterRoleRead created)

/-- `update_cluster_role`. -/
def updateClusterRole (cluster name : String) (rules : List RulePayload) :
    Svc RoleRead := do
  let cr : RoleObject ← kube cluster (.readRole none name)
  let updated : RoleObject ← kube cluster
    (.replaceRole { cr with rules := rules.map ruleToK8s })
  pure (clusterRoleRead updated)

/-- `delete_cluster_role`. -/
def deleteClusterRole (cluster name : String) : Svc Unit :=
  kube cluster (.deleteRole none name)

/-- A Role as `create_role` and `update_role` show it. -/
def roleRead (r : RoleObject) : RoleRead :=
  ⟨r.name, r.ns, r.rules.map ruleFromK8s, false⟩

/-- The object that `create_role` sends. -/
def namespacedRole (ns name : String) (rules : List RulePayload) :
    RoleObject where
  name := name
  ns := some ns
  labels := managedBy
  rules := rules.map ruleToK8s

/-- `create_role`. -/
def createRole (cluster ns name : String) (rules : List RulePayload) :
    Svc RoleRead := do
  let created : RoleObject ← kube cluster
    (.createRole (namespacedRole ns name rules))
  pure (roleRead created)

/-- `update_role`. -/
def updateRole (cluster ns name : String) (rules : List RulePayload) :
    Svc RoleRead := do
  let role : RoleObject ← kube cluster (.readRole (some ns) name)
  let updated : RoleObject ← kube cluster
    (.replaceRole { role with rules := rules.map ruleToK8s })
  pure (roleRead updated)

/-- `delete_role`. -/
def deleteRole (cluster ns name : String) : Svc Unit :=
  kube cluster (.deleteRole (some ns) name)

/-- The dictionary of one binding. -/
structure BindingRead where
  name : String
  ns : Option String
  roleRef : String
  roleKind : RoleKind
  subjects : List Subject
deriving DecidableEq

/-- A binding as the endpoints show it. -/
def bindingRead (b : Binding) : BindingRead :=
  ⟨b.name, b.ns, b.roleRef.name, b.roleRef.kind, b.subjects⟩

/-- `list_cluster_role_bindings`. -/
def listClusterRoleBindings (cluster : String) (limit : Nat)
    (cursor : Option (Cursor Binding)) :
    Svc (PaginatedList BindingRead Binding) := do
  let result : Page Binding ←
    kube cluster (.listBindings .cluster none (some limit) cursor)
  let items := result.items.map bindingRead
  pure ⟨items, items.length, result.next⟩

/-- `list_role_bindings`. -/
def listRoleBindings (cluster ns : String) : Svc (List BindingRead) := do
  let rbs : Page Binding ←
    kube cluster (.listBindings (.inNamespace ns) none none none)
  pure (rbs.items.map bindingRead)

/-- `extra_annotations or None`. -/
def annotationsOrNone (extra : Option Dict) : Option Dict :=
  match extra with
  | none => none
  | some [] => none
  | some (e :: es) => some (e :: es)

/-- The object that `create_cluster_role_binding` sends. -/
def clusterRoleBinding (name roleName : String) (subjects : List Subject)
    (extraLabels : Dict) (extraAnnotations : Option Dict) : Binding where
  name := name
  ns := none
  labels := managedBy.merge extraLabels
  annotations := annotationsOrNone extraAnnotations
  roleRef := { kind := .clusterRole, name := roleName }
  subjects := subjects

/-- The object that `create_role_binding` sends. -/
def roleBinding (ns name roleName : String) (roleKind : RoleKind)
    (subjects : List Subject) (extraLabels : Dict)
    (extraAnnotations : Option Dict) : Binding where
  name := name
  ns := some ns
  labels := managedBy.merge extraLabels
  annotations := annotationsOrNone extraAnnotations
  roleRef := { kind := roleKind, name := roleName }
  subjects := subjects

/-- `create_cluster_role_binding`; it answers the name. -/
def createClusterRoleBinding (cluster name roleName : String)
    (subjects : List Subject) (extraLabels : Dict := [])
    (extraAnnotations : Option Dict := none) : Svc String := do
  let created : Binding ← kube cluster (.createBinding
    (clusterRoleBinding name roleName subjects extraLabels extraAnnotations))
  pure created.name

/-- `delete_cluster_role_binding`. -/
def deleteClusterRoleBinding (cluster name : String) : Svc Unit :=
  kube cluster (.deleteBinding none name)

/-- `_ensure_namespace`: a namespace that someone else creates in between is
    as good. -/
def ensureNamespace (cluster ns : String) : Svc Unit :=
  unlessStatus 404
    (unlessStatus 409 (pure ())
      (kube cluster (.createNamespace ⟨ns, managedBy⟩)))
    (do
      let _ : Namespace ← kube cluster (.readNamespace ns)
      pure ())

/-- `create_role_binding`; it answers the name and the namespace. -/
def createRoleBinding (cluster ns name roleName : String)
    (roleKind : RoleKind) (subjects : List Subject)
    (extraLabels : Dict := []) (extraAnnotations : Option Dict := none) :
    Svc (String × String) := do
  ensureNamespace cluster ns
  let created : Binding ← kube cluster (.createBinding
    (roleBinding ns name roleName roleKind subjects extraLabels
      extraAnnotations))
  pure (created.name, ns)

/-- `delete_role_binding`. -/
def deleteRoleBinding (cluster ns name : String) : Svc Unit :=
  kube cluster (.deleteBinding (some ns) name)

/-! ## Loops over all bindings -/

/-- `page_size`. -/
def pageSize : Nat := 500

/-- One page of the ClusterRoleBindings. -/
def crbPage (cluster : String) (cursor : Option (Cursor Binding)) :
    Svc (Page Binding) :=
  kube cluster (.listBindings .cluster none (some pageSize) cursor)

/-- One page of the RoleBindings of all namespaces. -/
def rbPage (cluster : String) (cursor : Option (Cursor Binding)) :
    Svc (Page Binding) :=
  kube cluster (.listBindings .allNamespaces none (some pageSize) cursor)

/-- `for crb in _iter_all_crbs()`. -/
def iterAllCrbs {β : Type} (fuel : Nat) (cluster : String)
    (body : β → Binding → Svc β) (b : β) : Svc β :=
  followPages .loopBoundReached (crbPage cluster) body fuel none b

/-- `for rb in _iter_all_rbs()`. -/
def iterAllRbs {β : Type} (fuel : Nat) (cluster : String)
    (body : β → Binding → Svc β) (b : β) : Svc β :=
  followPages .loopBoundReached (rbPage cluster) body fuel none b

/-! ## User-centric convenience methods -/

/-- Is the user or ServiceAccount of this name a subject of the binding? -/
def references (username : String) (b : Binding) : Bool :=
  b.subjects.any (fun s => decide (s.name = username ∧
    (s.kind = .user ∨ s.kind = .serviceAccount)))

/-- The body of the loops below: collect the bindings of a user. -/
def collectReferences (username : String) (found : List BindingRead)
    (b : Binding) : Svc (List BindingRead) :=
  pure (if references username b then found ++ [bindingRead b] else found)

/-- `_cluster_bindings_for`. -/
def clusterBindingsFor (fuel : Nat) (cluster username : String) :
    Svc (List BindingRead) :=
  iterAllCrbs fuel cluster (collectReferences username) []

/-- `_namespace_bindings_for`. -/
def namespaceBindingsFor (fuel : Nat) (cluster username : String) :
    Svc (List BindingRead) :=
  iterAllRbs fuel cluster (collectReferences username) []

/-- The dictionary of `get_user_permissions`. -/
structure UserPermissions where
  username : String
  clusterBindings : List BindingRead
  namespaceBindings : List BindingRead

/-- `get_user_permissions`. -/
def getUserPermissions (fuel : Nat) (cluster username : String) :
    Svc UserPermissions := do
  let clusterBindings ← clusterBindingsFor fuel cluster username
  let namespaceBindings ← namespaceBindingsFor fuel cluster username
  pure ⟨username, clusterBindings, namespaceBindings⟩

/-- `SubjectKind(user_kind)`. -/
def subjectKind (userKind : String) : Svc SubjectKind :=
  match SubjectKind.ofText userKind with
  | some kind => pure kind
  | none => throw (.valueError ("'" ++ userKind
      ++ "' is not a valid SubjectKind"))

/-- The name of the binding that gives a role to a user. -/
def bindingNameFor (username roleName : String) : String :=
  "clustervision-" ++ username ++ "-" ++ roleName

/-- `namespace or "default"`. -/
def namespaceOrDefault (ns : Option String) : String :=
  match ns with
  | none => "default"
  | some n => if n = "" then "default" else n

/-- `assign_role`. -/
def assignRole (cluster username userKind roleName : String)
    (roleKind : RoleKind) (ns saNamespace : Option String) : Svc Unit := do
  let kind ← subjectKind userKind
  let subject : Subject := ⟨kind, username, saNamespace⟩
  let bindingName := bindingNameFor username roleName
  if ns = none ∧ roleKind = .clusterRole then
    unlessStatus 404
      (do
        let _ ← createClusterRoleBinding cluster bindingName roleName [subject]
        pure ())
      (kube cluster (.patchBinding none bindingName subject))
  else
    unlessStatus 404
      (do
        let _ ← createRoleBinding cluster (namespaceOrDefault ns) bindingName
          roleName roleKind [subject]
        pure ())
      (kube cluster
        (.patchBinding (some (namespaceOrDefault ns)) bindingName subject))

/-- `revoke_role`. -/
def revokeRole (cluster username roleName : String) (ns : Option String) :
    Svc Unit :=
  unlessStatus 404 (pure ())
    (kube cluster (.deleteBinding ns (bindingNameFor username roleName)))

/-- The start of the names of the bindings of a user. -/
def bindingPrefix (username : String) : String :=
  "clustervision-" ++ username ++ "-"

/-- The body of the loops below: delete a binding whose name starts with
    `start`; one that is gone already is skipped. -/
def deleteMatching (cluster start : String) (_ : Unit) (b : Binding) :
    Svc Unit :=
  if startswith b.name start then
    unlessStatus 404 (pure ()) (kube cluster (.deleteBinding b.ns b.name))
  else pure ()

/-- `delete_user_bindings`. -/
def deleteUserBindings (fuel : Nat) (cluster username : String) :
    Svc Unit := do
  iterAllCrbs fuel cluster (deleteMatching cluster (bindingPrefix username)) ()
  iterAllRbs fuel cluster (deleteMatching cluster (bindingPrefix username)) ()

/-! ## Namespaces -/

/-- `list_namespaces`. -/
def listNamespaces (cluster : String) : Svc (List String) := do
  let nss : List Namespace ← kube cluster .listNamespaces
  pure (nss.map Namespace.name)

/-- `NamespaceAccessEntry`. -/
structure NamespaceAccessEntry where
  subject : Subject
  role : String
  roleKind : RoleKind
  binding : String
  scope : String
deriving DecidableEq

/-- The entries of one binding. -/
def accessEntries (scope : String) (b : Binding) : List NamespaceAccessEntry :=
  b.subjects.map (fun s => ⟨s, b.roleRef.name, b.roleRef.kind, b.name, scope⟩)

/-- `get_namespace_access`. -/
def getNamespaceAccess (fuel : Nat) (cluster ns : String) :
    Svc (List NamespaceAccessEntry) := do
  let rbs : Page Binding ←
    kube cluster (.listBindings (.inNamespace ns) none none none)
  iterAllCrbs fuel cluster
    (fun found crb => pure (found ++ accessEntries "cluster" crb))
    (rbs.items.flatMap (accessEntries "namespace"))

/-! ## Access simulator -/

/-- The dictionary of `check_access`. -/
structure AccessResult where
  allowed : Bool
  denied : Bool
  reason : String
deriving DecidableEq

/-- `groups or None`. -/
def groupsOrNone : List String → Option (List String)
  | [] => none
  | g :: gs => some (g :: gs)

/-- `check_access`. -/
def checkAccess (cluster user verb resource : String) (ns : Option String)
    (apiGroup : String) (groups : List String) : Svc AccessResult := do
  let status : SubjectAccessReviewStatus ← kube cluster
    (.createSubjectAccessReview
      ⟨user, groupsOrNone groups, ⟨verb, resource, ns, apiGroup⟩⟩)
  pure ⟨status.allowed, status.denied.getD false, status.reason.getD ""⟩

end CvRbac
