import ClusterVision.AssignRoleProofs
import ClusterVision.RoleEditProofs

/-! # What the bindings of a cluster allow

    The API server allows a request when some binding that reaches it has the
    requester among its subjects and its role has a rule for the request.
    This file is that decision for a whole cluster, stated through the grants
    of its bindings, and what adding and removing bindings does to it. -/

namespace CvAuthorizer

open CvRun CvTable CvKube CvBackend CvRbac CvAssign CvEdit

/-! ## The decision -/

/-- Who sends a request, as the server has authenticated him. -/
structure Identity where
  user : String
  groups : List String
deriving DecidableEq

/-- The user name of a ServiceAccount. -/
def serviceAccountUser (ns name : String) : String :=
  "system:serviceaccount:" ++ ns ++ ":" ++ name

/-- The namespace of a ServiceAccount subject: without one of its own it is
    that of the binding. -/
def subjectNamespace (scope : Option String) (s : Subject) : String :=
  if s.ns.getD "" = "" then scope.getD "" else s.ns.getD ""

/-- `appliesToUser`, for a subject of a binding in a scope. -/
def appliesToUser (i : Identity) (scope : Option String) (s : Subject) : Bool :=
  match s.kind with
  | .user => decide (s.name = i.user)
  | .group => i.groups.contains s.name
  | .serviceAccount =>
      decide (subjectNamespace scope s ≠ "")
        && decide (i.user = serviceAccountUser (subjectNamespace scope s) s.name)

/-- Does a binding in a scope reach a request?  A RoleBinding reaches the
    requests for resources of its own namespace. -/
def reaches (scope : Option String) : Request → Bool
  | .resource q => scope.isNone || decide (scope = q.ns)
  | .nonResource _ _ => scope.isNone

/-- The rules of the role that a binding in a scope refers to, if there is
    such a role. -/
def boundRules (c : Cluster) (scope : Option String) (kind : RoleKind)
    (name : String) : List PolicyRule :=
  match kind, scope with
  | .clusterRole, _ => ((c.roles.get (none, name)).map RoleObject.rules).getD []
  | .role, some ns =>
      ((c.roles.get (some ns, name)).map RoleObject.rules).getD []
  | .role, none => []

/-- Does a grant allow somebody a request? -/
def permits (c : Cluster) (g : Grant) (i : Identity) (q : Request) : Bool :=
  reaches g.scope q && appliesToUser i g.scope g.subject
    && (boundRules c g.scope g.roleKind g.roleName).any
      (fun rule => ruleAllows rule q)

/-- Does one binding allow it? -/
def bindingAllows (c : Cluster) (b : Binding) (i : Identity) (q : Request) :
    Bool :=
  reaches b.ns q && b.subjects.any (appliesToUser i b.ns)
    && (boundRules c b.ns b.roleRef.kind b.roleRef.name).any
      (fun rule => ruleAllows rule q)

/-- The decision of the API server. -/
def allows (c : Cluster) (i : Identity) (q : Request) : Bool :=
  c.bindings.rows.any (fun b => bindingAllows c b i q)

/-! ## Decisions and grants -/

variable {c c' : Cluster} {i : Identity} {q : Request}

theorem bindingAllows_iff {b : Binding} :
    bindingAllows c b i q = true
      ↔ ∃ g ∈ bindingGrants b, permits c g i q = true := by
  rw [bindingAllows, Bool.and_eq_true, Bool.and_eq_true, List.any_eq_true]
  constructor
  · rintro ⟨⟨hreach, s, hs, happ⟩, hrule⟩
    refine ⟨⟨s, b.roleRef.kind, b.roleRef.name, b.ns⟩, ⟨hs, rfl, rfl, rfl⟩, ?_⟩
    rw [permits, Bool.and_eq_true, Bool.and_eq_true]
    exact ⟨⟨hreach, happ⟩, hrule⟩
  · rintro ⟨g, ⟨hs, hkind, hname, hscope⟩, hg⟩
    rw [permits, Bool.and_eq_true, Bool.and_eq_true, hkind, hname, hscope] at hg
    exact ⟨⟨hg.1.1, g.subject, hs, hg.1.2⟩, hg.2⟩

/-- What is allowed is what some grant allows. -/
theorem allows_iff :
    allows c i q = true ↔ ∃ g ∈ grants c.bindings, permits c g i q = true := by
  rw [allows, List.any_eq_true]
  constructor
  · rintro ⟨b, hb, hallows⟩
    obtain ⟨g, hg, hpermits⟩ := bindingAllows_iff.mp hallows
    exact ⟨g, ⟨b, hb, hg⟩, hpermits⟩
  · rintro ⟨g, ⟨b, hb, hg⟩, hpermits⟩
    exact ⟨b, hb, bindingAllows_iff.mpr ⟨g, hg, hpermits⟩⟩

/-- Only the roles decide what a grant is good for. -/
theorem permits_congr (hroles : c'.roles = c.roles) (g : Grant) :
    permits c' g i q = permits c g i q := by
  rw [permits, permits]
  unfold boundRules
  rw [hroles]

theorem bindingAllows_congr (hroles : c'.roles = c.roles) (b : Binding) :
    bindingAllows c' b i q = bindingAllows c b i q := by
  rw [bindingAllows, bindingAllows]
  unfold boundRules
  rw [hroles]

/-- One more grant. -/
theorem allows_insert {g : Grant} (hroles : c'.roles = c.roles)
    (hgrants : grants c'.bindings = insert g (grants c.bindings)) :
    allows c' i q = true
      ↔ allows c i q = true ∨ permits c g i q = true := by
  rw [allows_iff, allows_iff, hgrants]
  constructor
  · rintro ⟨x, hx, hpermits⟩
    rw [permits_congr hroles] at hpermits
    rcases Set.mem_insert_iff.mp hx with rfl | hx
    · exact Or.inr hpermits
    · exact Or.inl ⟨x, hx, hpermits⟩
  · rintro (⟨x, hx, hpermits⟩ | hpermits)
    · refine ⟨x, Set.mem_insert_of_mem _ hx, ?_⟩
      rw [permits_congr hroles]
      exact hpermits
    · refine ⟨g, Set.mem_insert _ _, ?_⟩
      rw [permits_congr hroles]
      exact hpermits

/-- Fewer bindings: those that are left decide. -/
theorem allows_of_kept {kept : Binding → Prop} (hroles : c'.roles = c.roles)
    (hkept : ∀ b, b ∈ c'.bindings.rows ↔ b ∈ c.bindings.rows ∧ kept b) :
    allows c' i q = true
      ↔ ∃ b ∈ c.bindings.rows, kept b ∧ bindingAllows c b i q = true := by
  rw [allows, List.any_eq_true]
  constructor
  · rintro ⟨b, hb, hallows⟩
    obtain ⟨hrow, hk⟩ := (hkept b).mp hb
    rw [bindingAllows_congr hroles] at hallows
    exact ⟨b, hrow, hk, hallows⟩
  · rintro ⟨b, hrow, hk, hallows⟩
    refine ⟨b, (hkept b).mpr ⟨hrow, hk⟩, ?_⟩
    rw [bindingAllows_congr hroles]
    exact hallows

/-! ## Calls that leave the roles alone -/

/-- Calls that write no role. -/
def SparesRoles : Op → Prop
  | .kube _ (.createRole _) => False
  | .kube _ (.replaceRole _) => False
  | .kube _ (.deleteRole _ _) => False
  | _ => True

/-- Every cluster has the roles that it had. -/
def SameRoles (w w' : World) : Prop :=
  ∀ c, (w'.clusters c).roles = (w.clusters c).roles

theorem exec_roles {n : Nat} {name : String} {op : KubeOp}
    (h : SparesRoles (.kube name op)) :
    (c.exec n op).2.roles = c.roles := by
  cases op with
  | createRole _ | replaceRole _ | deleteRole _ _ => exact h.elim
  | listBindings _ _ _ _ | readNamespace _ | listNamespaces
  | readServiceAccount _ _ | listServiceAccounts | readSecret _ _
  | listSecrets _ | createToken _ _ _ | readCsr _ | readRole _ _
  | listRoles _ _ _ | createSubjectAccessReview _ | getCode => rfl
  | createBinding _ | patchBinding _ _ _ | deleteBinding _ _
  | createNamespace _ | createServiceAccount _ | deleteServiceAccount _ _
  | createSecret _ | deleteSecret _ _ | createCsr _ | approveCsr _
  | deleteCsr _ =>
      exact storing_snd (P := fun d => d.roles = c.roles) rfl
        (fun _ _ => rfl)

theorem handle_roles {op : Op} (h : SparesRoles op) (w : World) :
    SameRoles w (handle op w).2 := by
  intro n
  cases op with
  | kube name op =>
      show ((w.setCluster name _).clusters n).roles = _
      by_cases hn : n = name
      · rw [hn, World.setCluster_self, exec_roles h]
      · rw [World.setCluster_ne w _ hn]
  | writeSecret username key cert =>
      show ((w.writeSecret username key cert).2.clusters n).roles = _
      rw [World.writeSecret]
      split <;> rfl
  | _ => rfl

/-- A program without role calls leaves the roles. -/
theorem run_roles {α : Type} {p : Svc α} (hp : p.Uses SparesRoles) (w : World) :
    SameRoles w (p.run handle w).2 :=
  hp.run_keeps (R := SameRoles) (fun _ _ => rfl)
    (fun h h' n => (h' n).trans (h n)) (fun _ s hop => handle_roles hop s) w

theorem uses_kube_sparesRoles {cluster : String} {op : KubeOp}
    (h : SparesRoles (.kube cluster op)) :
    (kube cluster op).Uses SparesRoles := CvProg.Prog.uses_perform h

theorem ensureNamespace_sparesRoles (cluster ns : String) :
    (ensureNamespace cluster ns).Uses SparesRoles :=
  uses_unlessStatus
    (CvProg.Prog.uses_bind (uses_kube_sparesRoles trivial) (fun _ => trivial))
    (uses_unlessStatus (uses_kube_sparesRoles trivial) trivial)

end CvAuthorizer
