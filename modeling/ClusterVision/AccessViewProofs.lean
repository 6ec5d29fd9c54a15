import ClusterVision.AuthorityProofs
import ClusterVision.BindingCleanupProofs

/-! # What the access views show

    `get_namespace_access` lists who has a role in a namespace,
    `get_user_permissions` the bindings of a user, and the simulator asks the
    API server.  The results say how the three views relate to the server's
    decisions: the first one is complete and exact for everybody, the second
    one for what is not granted to groups, and the third one agrees with the
    first. -/

namespace CvAccessView

open CvProg CvPage CvTable CvKube CvBackend CvRbac CvAssign CvEdit CvAuthorizer
  CvAuthority CvCleanup

variable {w : World} {cluster : String} {fuel : Nat}

/-! ## The access to a namespace -/

/-- The grant that an entry of the list of `ns` shows. -/
def entryGrant (ns : String) (e : NamespaceAccessEntry) : Grant where
  subject := e.subject
  roleKind := e.roleKind
  roleName := e.role
  scope := if e.scope = "namespace" then some ns else none

/-- The RoleBindings of a namespace. -/
def rbsIn (c : Cluster) (ns : String) : List Binding :=
  c.bindings.rows.filter (fun b => decide (b.ns = some ns))

/-- The loop that collects the entries. -/
theorem run_collectEntries (xs : List Binding) :
    ∀ (found : List NamespaceAccessEntry) (w : World),
      (xs.foldlM (fun found crb =>
          (pure (found ++ accessEntries "cluster" crb) : Svc _)) found).run
        handle w
        = (.ok (found ++ xs.flatMap (accessEntries "cluster")), w) := by
  induction xs with
  | nil =>
      intro found w
      rw [List.flatMap_nil, List.append_nil]
      rfl
  | cons x xs ih =>
      intro found w
      rw [List.foldlM_cons, Prog.run_bind, Prog.run_pure, Prog.andThen_ok, ih,
        List.flatMap_cons, List.append_assoc]

/-- `get_namespace_access` lists the subjects of all bindings that reach the
    namespace, and changes nothing. -/
theorem run_getNamespaceAccess (ns : String)
    (hfuel : (crbs (w.clusters cluster)).length < fuel) :
    (getNamespaceAccess fuel cluster ns).run handle w
      = (.ok ((rbsIn (w.clusters cluster) ns).flatMap
          (accessEntries "namespace")
          ++ (crbs (w.clusters cluster)).flatMap (accessEntries "cluster")),
        w) := by
  have hlist : handle (.kube cluster
      (.listBindings (.inNamespace ns) none none none)) w
        = (.ok ⟨rbsIn (w.clusters cluster) ns, none⟩, w) := by
    simp [handle, Cluster.exec, selected, Scope.holds, rbsIn, servePage,
      Except.mapError]
  rw [getNamespaceAccess, Prog.run_bind, run_kube, hlist, Prog.andThen_ok,
    run_iterAllCrbs _ _ hfuel, run_collectEntries]

/-- The entries of a binding are its grants, in the scope they are listed
    under. -/
theorem exists_accessEntries {scope ns : String} {b : Binding}
    (hscope : (if scope = "namespace" then some ns else none) = b.ns)
    {P : Grant → Prop} :
    (∃ e ∈ accessEntries scope b, P (entryGrant ns e))
      ↔ ∃ g ∈ bindingGrants b, P g := by
  constructor
  · rintro ⟨e, he, hP⟩
    obtain ⟨s, hs, rfl⟩ := List.mem_map.mp he
    exact ⟨_, ⟨hs, rfl, rfl, hscope⟩, hP⟩
  · rintro ⟨g, ⟨hs, hkind, hname, hns⟩, hP⟩
    refine ⟨_, List.mem_map_of_mem hs, ?_⟩
    have hgrant : entryGrant ns
        ⟨g.subject, b.roleRef.name, b.roleRef.kind, b.name, scope⟩ = g := by
      rw [entryGrant, ← hkind, ← hname, hscope, ← hns]
    rw [hgrant]
    exact hP

/-- The entries for a namespace. -/
def namespaceEntries (c : Cluster) (ns : String) : List NamespaceAccessEntry :=
  (rbsIn c ns).flatMap (accessEntries "namespace")
    ++ (crbs c).flatMap (accessEntries "cluster")

/-- A request in the namespace is allowed exactly when an entry has a grant for
    it. -/
theorem allows_iff_entry (c : Cluster) {ns : String} (i : Identity)
    {q : ResourceRequest} (hq : q.ns = some ns) :
    allows c i (.resource q) = true ↔
      ∃ e ∈ namespaceEntries c ns,
        permits c (entryGrant ns e) i (.resource q) = true := by
  have hlisted : ∀ (scope : String) (bs : List Binding),
      (∀ b ∈ bs, (if scope = "namespace" then some ns else none) = b.ns) →
      ((∃ e ∈ bs.flatMap (accessEntries scope),
        permits c (entryGrant ns e) i (.resource q) = true) ↔
        ∃ b ∈ bs, bindingAllows c b i (.resource q) = true) := by
    intro scope bs hbs
    constructor
    · rintro ⟨e, he, hpermits⟩
      obtain ⟨b, hb, he⟩ := List.mem_flatMap.mp he
      exact ⟨b, hb, bindingAllows_iff.mpr
        ((exists_accessEntries (hbs b hb)).mp ⟨e, he, hpermits⟩)⟩
    · rintro ⟨b, hb, hallows⟩
      obtain ⟨e, he, hpermits⟩ :=
        (exists_accessEntries (hbs b hb)).mpr (bindingAllows_iff.mp hallows)
      exact ⟨e, List.mem_flatMap.mpr ⟨b, hb, he⟩, hpermits⟩
  have hrbs := hlisted "namespace" (rbsIn c ns) (fun b hb =>
    (of_decide_eq_true (List.mem_filter.mp hb).2).symm)
  have hcrbs := hlisted "cluster" (crbs c) (fun b hb =>
    (Option.isNone_iff_eq_none.mp (List.mem_filter.mp hb).2).symm)
  simp only [namespaceEntries, List.mem_append, or_and_right, exists_or, hrbs,
    hcrbs]
  rw [allows, List.any_eq_true]
  constructor
  · rintro ⟨b, hb, hallows⟩
    -- a binding that allows it reaches the namespace
    have hreach : reaches b.ns (.resource q) = true := by
      rw [bindingAllows, Bool.and_eq_true, Bool.and_eq_true] at hallows
      exact hallows.1.1
    rw [reaches, hq, Bool.or_eq_true] at hreach
    rcases hreach with hnone | hns
    · exact Or.inr ⟨b, List.mem_filter.mpr ⟨hb, hnone⟩, hallows⟩
    · exact Or.inl ⟨b, List.mem_filter.mpr ⟨hb, hns⟩, hallows⟩
  · rintro (⟨b, hb, hallows⟩ | ⟨b, hb, hallows⟩)
    · exact ⟨b, (List.mem_filter.mp hb).1, hallows⟩
    · exact ⟨b, (List.mem_filter.mp hb).1, hallows⟩

/-- **The namespace view is the server's decision**: somebody is allowed a
    request in a namespace exactly when an entry of its list has him as its
    subject and a role with a rule for the request. -/
theorem namespace_access_exact (w : World) (cluster ns : String)
    (hfuel : (crbs (w.clusters cluster)).length < fuel) :
    ∃ entries, (getNamespaceAccess fuel cluster ns).run handle w
        = (.ok entries, w) ∧
      ∀ (i : Identity) (q : ResourceRequest), q.ns = some ns →
        (allows (w.clusters cluster) i (.resource q) = true ↔
          ∃ e ∈ entries, permits (w.clusters cluster) (entryGrant ns e) i
            (.resource q) = true) :=
  ⟨_, run_getNamespaceAccess ns hfuel, fun i _ hq => allows_iff_entry _ i hq⟩

/-- A new installation with the ClusterRole `view`, given to `ada`. -/
def adaViews : World :=
  assignStep "local" ⟨"ada", "User", "view", .clusterRole, none, none⟩
    withViewRole

/-- What `ada` may do in the namespace `apps` is what its list says. -/
theorem namespace_access_apps :
    ∃ entries, (getNamespaceAccess 2 "local" "apps").run handle adaViews
        = (.ok entries, adaViews) ∧
      ∀ (i : Identity) (q : ResourceRequest), q.ns = some "apps" →
        (allows (adaViews.clusters "local") i (.resource q) = true ↔
          ∃ e ∈ entries, permits (adaViews.clusters "local")
            (entryGrant "apps" e) i (.resource q) = true) :=
  namespace_access_exact adaViews "local" "apps" (by decide)

/-! ## The simulator -/

/-- The request that an access review is about. -/
def reviewedRequest (a : ResourceAttributes) : ResourceRequest where
  verb := a.verb
  ns := a.ns.filter (· ≠ "")
  group := a.group
  resource := a.resource
  subresource := ""
  name := ""

/-- The server answers access reviews by its bindings. -/
def ReviewsBindings (c : Cluster) : Prop :=
  ∀ spec : SubjectAccessReviewSpec, (c.authorizer spec).allowed
    = allows c ⟨spec.user, spec.groups.getD []⟩
        (.resource (reviewedRequest spec.resourceAttributes))

/-- The server is asked once, and nothing changes. -/
theorem run_checkAccess (w : World) (user verb resource : String)
    (ns : Option String) (group : String) (groups : List String) :
    ∃ answer, (checkAccess cluster user verb resource ns group groups).run
        handle w = (.ok answer, w) ∧
      answer.allowed = ((w.clusters cluster).authorizer ⟨user,
        groupsOrNone groups, ⟨verb, resource, ns, group⟩⟩).allowed := by
  have hreview : handle (.kube cluster (.createSubjectAccessReview
      ⟨user, groupsOrNone groups, ⟨verb, resource, ns, group⟩⟩)) w
        = (.ok ((w.clusters cluster).authorizer ⟨user, groupsOrNone groups,
          ⟨verb, resource, ns, group⟩⟩), w) :=
    Prod.ext rfl (World.setCluster_eq_self _ _)
  rw [checkAccess, Prog.run_bind, run_kube, hreview, Prog.andThen_ok]
  exact ⟨_, rfl, rfl⟩

/-- **The simulator agrees with the namespace view**: it says that somebody may
    do something in a namespace exactly when an entry of the list gives him a
    role for it. -/
theorem simulator_agrees (w : World) (cluster ns : String) (hns : ns ≠ "")
    (hrbac : ReviewsBindings (w.clusters cluster))
    (hfuel : (crbs (w.clusters cluster)).length < fuel)
    (user verb resource group : String) (groups : List String) :
    ∃ answer entries,
      (checkAccess cluster user verb resource (some ns) group groups).run handle
        w = (.ok answer, w) ∧
      (getNamespaceAccess fuel cluster ns).run handle w = (.ok entries, w) ∧
      (answer.allowed = true ↔ ∃ e ∈ entries,
        permits (w.clusters cluster) (entryGrant ns e) ⟨user, groups⟩
          (.resource ⟨verb, some ns, group, resource, "", ""⟩) = true) := by
  have hrun := run_getNamespaceAccess (w := w) ns hfuel
  obtain ⟨answer, hanswer, hallowed⟩ := @run_checkAccess cluster w user verb
    resource (some ns) group groups
  refine ⟨answer, _, hanswer, hrun, ?_⟩
  have hgroups : (groupsOrNone groups).getD [] = groups := by
    cases groups <;> rfl
  have hfilter : (some ns).filter (· ≠ "") = some ns := by
    rw [Option.filter_some, if_pos (decide_eq_true hns)]
  rw [hallowed, hrbac, reviewedRequest, hgroups, hfilter]
  exact allows_iff_entry _ _ rfl

/-- The cluster with a server that answers access reviews by its bindings. -/
def reviewing (c : Cluster) : Cluster :=
  { c with authorizer := fun spec =>
      ⟨allows c ⟨spec.user, spec.groups.getD []⟩
        (.resource (reviewedRequest spec.resourceAttributes)), none, none⟩ }

/-- On such a cluster the two views agree about `ada`. -/
theorem simulator_agrees_ada :
    ∃ answer entries,
      (checkAccess "local" "ada" "get" "pods" (some "apps") "" []).run handle
        (adaViews.setCluster "local" (reviewing (adaViews.clusters "local")))
        = (.ok answer, adaViews.setCluster "local"
            (reviewing (adaViews.clusters "local"))) ∧
      (getNamespaceAccess 2 "local" "apps").run handle
        (adaViews.setCluster "local" (reviewing (adaViews.clusters "local")))
        = (.ok entries, adaViews.setCluster "local"
            (reviewing (adaViews.clusters "local"))) ∧
      (answer.allowed = true ↔ ∃ e ∈ entries,
        permits ((adaViews.setCluster "local"
            (reviewing (adaViews.clusters "local"))).clusters "local")
          (entryGrant "apps" e) ⟨"ada", []⟩
          (.resource ⟨"get", some "apps", "", "pods", "", ""⟩) = true) := by
  refine simulator_agrees _ "local" "apps" (by decide) ?_ ?_ "ada" "get" "pods"
    "" []
  · rw [World.setCluster_self]
    exact fun spec => rfl
  · rw [World.setCluster_self]
    decide

/-! ## The bindings of a user -/

/-- Does a binding, as it is shown, allow somebody a request? -/
def readAllows (c : Cluster) (r : BindingRead) (i : Identity) (q : Request) :
    Bool :=
  reaches r.ns q && r.subjects.any (appliesToUser i r.ns)
    && (boundRules c r.ns r.roleKind r.roleRef).any
      (fun rule => ruleAllows rule q)

/-- Users and ServiceAccounts that stand for the identity have this name. -/
def NamedBy (username : String) (i : Identity) : Prop :=
  ∀ s scope, s.kind ≠ .group → appliesToUser i scope s = true →
    s.name = username

/-- The user name of a ServiceAccount has a colon. -/
theorem colon_mem (ns name : String) :
    ':' ∈ (serviceAccountUser ns name).toList := by
  have hchars : (serviceAccountUser ns name).toList
      = "system:serviceaccount:".toList ++ ns.toList ++ ":".toList
        ++ name.toList := by
    unfold serviceAccountUser
    simp only [String.toList_append]
  have hself : ':' ∈ ":".toList := by decide
  rw [hchars, List.mem_append, List.mem_append]
  exact Or.inl (Or.inr hself)

/-- A user with a name that `UserCreate` admits is named by it: the user names
    of ServiceAccounts have colons. -/
theorem namedBy_user {username : String} {groups : List String}
    (hname : userNamePattern username = true) :
    NamedBy username ⟨username, groups⟩ := by
  intro s scope hkind happ
  rw [appliesToUser] at happ
  cases hs : s.kind with
  | user =>
      rw [hs] at happ
      exact of_decide_eq_true happ
  | group => exact absurd hs hkind
  | serviceAccount =>
      rw [hs] at happ
      simp only [Bool.and_eq_true, decide_eq_true_eq] at happ
      have hcolon : ':' ∈ username.toList := happ.2 ▸ colon_mem _ _
      rw [userNamePattern] at hname
      cases hchars : username.toList with
      | nil =>
          rw [hchars] at hcolon
          cases hcolon
      | cons c cs =>
          rw [hchars] at hname hcolon
          rw [Bool.and_eq_true, List.all_eq_true] at hname
          rcases List.mem_cons.mp hcolon with hc | hmem
          · have halnum := hname.1
            rw [← hc] at halnum
            exfalso
            revert halnum
            decide
          · have hallowed := hname.2 _ hmem
            exfalso
            revert hallowed
            decide

/-- What the server allows somebody is what the bindings allow that are shown
    for his name, and what his groups are granted. -/
theorem permissions_of_named (w : World) (cluster username : String)
    (hfuel : (w.clusters cluster).bindings.rows.length < fuel)
    {i : Identity} (hname : NamedBy username i) :
    ∃ p, (getUserPermissions fuel cluster username).run handle w
        = (.ok p, w) ∧
      ∀ q, allows (w.clusters cluster) i q = true ↔
        (∃ r ∈ p.clusterBindings ++ p.namespaceBindings,
          readAllows (w.clusters cluster) r i q = true) ∨
        ∃ g ∈ grants (w.clusters cluster).bindings,
          g.subject.kind = .group ∧
            permits (w.clusters cluster) g i q = true := by
  refine ⟨_, run_getUserPermissions username hfuel, ?_⟩
  intro q
  generalize w.clusters cluster = c
  rw [allows_iff]
  constructor
  · rintro ⟨g, ⟨b, hb, hg⟩, hpermits⟩
    by_cases hgroup : g.subject.kind = .group
    · exact Or.inr ⟨g, ⟨b, hb, hg⟩, hgroup, hpermits⟩
    · -- the binding has a subject of his name
      have happ : appliesToUser i g.scope g.subject = true := by
        rw [permits, Bool.and_eq_true, Bool.and_eq_true] at hpermits
        exact hpermits.1.2
      have href : references username b = true := by
        rw [references, List.any_eq_true]
        refine ⟨g.subject, hg.1, decide_eq_true
          ⟨hname _ _ hgroup happ, ?_⟩⟩
        cases hkind : g.subject.kind with
        | user => exact Or.inl rfl
        | group => exact absurd hkind hgroup
        | serviceAccount => exact Or.inr rfl
      refine Or.inl ⟨bindingRead b, ?_, bindingAllows_iff.mpr ⟨g, hg, hpermits⟩⟩
      cases hns : b.ns with
      | none =>
          refine List.mem_append_left _ (List.mem_map_of_mem
            (List.mem_filter.mpr ⟨List.mem_filter.mpr ⟨hb, ?_⟩, href⟩))
          rw [hns]
          rfl
      | some n =>
          refine List.mem_append_right _ (List.mem_map_of_mem
            (List.mem_filter.mpr ⟨List.mem_filter.mpr ⟨hb, ?_⟩, href⟩))
          rw [hns]
          rfl
  · rintro (⟨r, hr, hallows⟩ | ⟨g, hg, -, hpermits⟩)
    · have hrow : ∃ b ∈ c.bindings.rows, bindingRead b = r := by
        rcases List.mem_append.mp hr with hr | hr
        · obtain ⟨b, hb, rfl⟩ := List.mem_map.mp hr
          exact ⟨b, (List.mem_filter.mp (List.mem_filter.mp hb).1).1, rfl⟩
        · obtain ⟨b, hb, rfl⟩ := List.mem_map.mp hr
          exact ⟨b, (List.mem_filter.mp (List.mem_filter.mp hb).1).1, rfl⟩
      obtain ⟨b, hb, rfl⟩ := hrow
      obtain ⟨g, hg, hpermits⟩ := bindingAllows_iff.mp hallows
      exact ⟨g, ⟨b, hb, hg⟩, hpermits⟩
    · exact ⟨g, hg, hpermits⟩

/-- **The view of a user's bindings misses his groups only**: a certificate
    user with any groups is allowed what the bindings allow that
    `get_user_permissions` shows for his name, and what his groups are
    granted, and nothing else. -/
theorem user_permissions_exact (w : World) (cluster username : String)
    (hpattern : userNamePattern username = true)
    (hfuel : (w.clusters cluster).bindings.rows.length < fuel) :
    ∃ p, (getUserPermissions fuel cluster username).run handle w
        = (.ok p, w) ∧
      ∀ (groups : List String) (q : Request),
        allows (w.clusters cluster) ⟨username, groups⟩ q = true ↔
          (∃ r ∈ p.clusterBindings ++ p.namespaceBindings,
            readAllows (w.clusters cluster) r ⟨username, groups⟩ q = true) ∨
          ∃ g ∈ grants (w.clusters cluster).bindings,
            g.subject.kind = .group ∧
              permits (w.clusters cluster) g ⟨username, groups⟩ q = true := by
  have hrun := run_getUserPermissions (w := w) username hfuel
  refine ⟨_, hrun, ?_⟩
  intro groups q
  obtain ⟨p, hp, hexact⟩ := permissions_of_named w cluster username hfuel
    (@namedBy_user _ groups hpattern)
  obtain rfl := Except.ok.inj
    ((congrArg Prod.fst hp).symm.trans (congrArg Prod.fst hrun))
  exact hexact q

/-- The view of the bindings of `ada`. -/
theorem user_permissions_ada :
    ∃ p, (getUserPermissions 2 "local" "ada").run handle adaViews
        = (.ok p, adaViews) ∧
      ∀ (groups : List String) (q : Request),
        allows (adaViews.clusters "local") ⟨"ada", groups⟩ q = true ↔
          (∃ r ∈ p.clusterBindings ++ p.namespaceBindings,
            readAllows (adaViews.clusters "local") r ⟨"ada", groups⟩ q
              = true) ∨
          ∃ g ∈ grants (adaViews.clusters "local").bindings,
            g.subject.kind = .group ∧
              permits (adaViews.clusters "local") g ⟨"ada", groups⟩ q = true :=
  user_permissions_exact adaViews "local" "ada" (by decide) (by decide)

end CvAccessView
