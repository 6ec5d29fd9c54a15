import ClusterVision.RbacProofs

/-! # Scans over a server that splits its lists as it likes

    `RbacService` runs against a server that fills every page.  A real one may
    send short pages and empty ones, and links them by texts of its own; the
    scans of `services/rbac_service.py` rest on nothing but those links.  This
    file models the loops over such a server, with its tokens as texts, and
    proves that they see every binding once.  On the lists of a cluster of
    `RbacService` they answer what the loops of that file answer
    (`clusterBindingsFor_agrees`, `namespaceBindingsFor_agrees`). -/

namespace CvScan

open CvProg CvPage CvIso CvKube CvBackend
open CvRbac (BindingRead NamespaceAccessEntry references bindingRead
  accessEntries)

/-- The list calls of the RBAC client that the scans issue. -/
inductive ListCall where
  | listClusterRoleBinding (limit : Nat) (token : Option String)
  | listRoleBindingForAllNamespaces (limit : Nat) (token : Option String)
  | listNamespacedRoleBinding (ns : String)
deriving DecidableEq

/-- Each of them answers with a page of bindings. -/
def rbacV1 : Iface := ⟨ListCall, fun _ => ListResult Binding⟩

/-- A program of the service. -/
abbrev Scan (α : Type) := Prog rbacV1 Exn α

/-- `rbac_v1.list_cluster_role_binding`. -/
def listCrbs (pageSize : Nat) (token : Option String) :
    Scan (ListResult Binding) :=
  Prog.perform (I := rbacV1) (.listClusterRoleBinding pageSize token)

/-- `rbac_v1.list_role_binding_for_all_namespaces`. -/
def listRbs (pageSize : Nat) (token : Option String) :
    Scan (ListResult Binding) :=
  Prog.perform (I := rbacV1) (.listRoleBindingForAllNamespaces pageSize token)

/-- `rbac_v1.list_namespaced_role_binding`. -/
def listNamespacedRbs (ns : String) : Scan (ListResult Binding) :=
  Prog.perform (I := rbacV1) (.listNamespacedRoleBinding ns)

/-- `for crb in _iter_all_crbs(page_size)`. -/
def iterAllCrbs {β : Type} (fuel pageSize : Nat) (body : β → Binding → Scan β)
    (b : β) : Scan β :=
  followTokens .loopBoundReached (listCrbs pageSize) body fuel none b

/-- `for rb in _iter_all_rbs(page_size)`. -/
def iterAllRbs {β : Type} (fuel pageSize : Nat) (body : β → Binding → Scan β)
    (b : β) : Scan β :=
  followTokens .loopBoundReached (listRbs pageSize) body fuel none b

/-- The dictionary of a ClusterRoleBinding; its namespace is always `None`. -/
def crbRead (crb : Binding) : BindingRead :=
  ⟨crb.name, none, crb.roleRef.name, crb.roleRef.kind, crb.subjects⟩

/-- The body of the loops below: append the dictionary of a binding of the
    user. -/
def appendMatching (read : Binding → BindingRead) (username : String)
    (result : List BindingRead) (b : Binding) : List BindingRead :=
  if references username b then result ++ [read b] else result

/-- `_cluster_bindings_for`; the page size is the default of the loop. -/
def clusterBindingsFor (fuel : Nat) (username : String) :
    Scan (List BindingRead) :=
  iterAllCrbs fuel CvRbac.pageSize
    (fun result crb => pure (appendMatching crbRead username result crb)) []

/-- `_namespace_bindings_for`. -/
def namespaceBindingsFor (fuel : Nat) (username : String) :
    Scan (List BindingRead) :=
  iterAllRbs fuel CvRbac.pageSize
    (fun result rb => pure (appendMatching bindingRead username result rb)) []

/-- `get_user_permissions`. -/
def getUserPermissions (fuel : Nat) (username : String) :
    Scan CvRbac.UserPermissions := do
  let clusterBindings ← clusterBindingsFor fuel username
  let namespaceBindings ← namespaceBindingsFor fuel username
  pure ⟨username, clusterBindings, namespaceBindings⟩

/-- `get_namespace_access`. -/
def getNamespaceAccess (fuel : Nat) (ns : String) :
    Scan (List NamespaceAccessEntry) := do
  let rbs ← listNamespacedRbs ns
  iterAllCrbs fuel CvRbac.pageSize
    (fun results crb => pure (results ++ accessEntries "cluster" crb))
    (rbs.items.flatMap (accessEntries "namespace"))

/-! ## The server -/

variable {σ : Type} {h : Handler rbacV1 Exn σ}

/-- A server that holds the ClusterRoleBindings `crbs` and the RoleBindings
    `rbs`: whenever a scan begins, it splits the list into some pages, links
    them, and closes the last one.  A list call without a limit gets all. -/
structure Holds (h : Handler rbacV1 Exn σ) (crbs rbs : List Binding) :
    Prop where
  crbPages : ∀ (pageSize : Nat) (s : σ), 1 ≤ pageSize →
    ∃ (pages : List (List Binding)) (t : σ), pages.flatten = crbs ∧
      ServedIn h (listCrbs pageSize) none s pages t
  rbPages : ∀ (pageSize : Nat) (s : σ), 1 ≤ pageSize →
    ∃ (pages : List (List Binding)) (t : σ), pages.flatten = rbs ∧
      ServedIn h (listRbs pageSize) none s pages t
  namespaced : ∀ (ns : String) (s : σ), ∃ (token : Option String) (t : σ),
    (listNamespacedRbs ns).run h s
      = (.ok ⟨rbs.filter (fun rb => rb.ns == some ns), token⟩, t)

/-- The program ends, and with `a`, however large a bound it is given from
    some bound on. -/
def Returns {α : Type} (h : Handler rbacV1 Exn σ) (s : σ) (p : Nat → Scan α)
    (a : α) : Prop :=
  ∃ (bound : Nat) (t : σ), ∀ fuel, bound ≤ fuel → (p fuel).run h s = (.ok a, t)

/-- A loop over pages that are served returns the fold over their items. -/
theorem returns_followTokens {β : Type}
    {list : Option String → Scan (ListResult Binding)} {s : σ}
    {xs : List Binding}
    (hpages : ∃ (pages : List (List Binding)) (t : σ), pages.flatten = xs ∧
      ServedIn h list none s pages t)
    (f : β → Binding → β) (b : β) :
    Returns h s (fun fuel => followTokens .loopBoundReached list
      (fun b x => pure (f b x)) fuel none b) (xs.foldl f b) := by
  obtain ⟨pages, t, hxs, hserved⟩ := hpages
  refine ⟨pages.length, t, fun fuel hfuel => ?_⟩
  rw [run_followTokens f hserved fuel b (Or.inl rfl) hfuel, hxs]

/-- A program in two parts returns what the second makes of the first. -/
theorem Returns.bind {α β : Type} {p : Nat → Scan α} {q : Nat → α → Scan β}
    {s : σ} {a : α} {b : β} (hp : Returns h s p a)
    (hq : ∀ t, Returns h t (fun fuel => q fuel a) b) :
    Returns h s (fun fuel => p fuel >>= q fuel) b := by
  obtain ⟨m, t, hm⟩ := hp
  obtain ⟨n, u, hn⟩ := hq t
  refine ⟨max m n, u, fun fuel hfuel => ?_⟩
  rw [Prog.run_bind, hm fuel (Nat.le_trans (Nat.le_max_left m n) hfuel),
    Prog.andThen_ok]
  exact hn fuel (Nat.le_trans (Nat.le_max_right m n) hfuel)

/-- A program that issues no call returns at once. -/
theorem returns_pure {α : Type} (a : α) (s : σ) :
    Returns h s (fun _ => (pure a : Scan α)) a :=
  ⟨0, s, fun _ _ => rfl⟩

/-! ## The scans -/

variable {crbs rbs : List Binding}

/-- The loop over all ClusterRoleBindings ends, and hands over each of them
    once, in their order. -/
theorem iterAllCrbs_returns (hserver : Holds h crbs rbs) {pageSize : Nat}
    (hsize : 1 ≤ pageSize) {β : Type} (f : β → Binding → β) (b : β) (s : σ) :
    Returns h s (fun fuel =>
      iterAllCrbs fuel pageSize (fun b x => pure (f b x)) b)
      (crbs.foldl f b) :=
  returns_followTokens (hserver.crbPages pageSize s hsize) f b

/-- The loop over all RoleBindings ends, and hands over each of them once, in
    their order. -/
theorem iterAllRbs_returns (hserver : Holds h crbs rbs) {pageSize : Nat}
    (hsize : 1 ≤ pageSize) {β : Type} (f : β → Binding → β) (b : β) (s : σ) :
    Returns h s (fun fuel =>
      iterAllRbs fuel pageSize (fun b x => pure (f b x)) b)
      (rbs.foldl f b) :=
  returns_followTokens (hserver.rbPages pageSize s hsize) f b

/-- What the body of the two loops collects. -/
theorem foldl_appendMatching (read : Binding → BindingRead)
    (username : String) (xs : List Binding) :
    ∀ result, xs.foldl (appendMatching read username) result
      = result ++ (xs.filter (references username)).map read := by
  induction xs with
  | nil =>
      intro result
      rw [List.filter_nil, List.map_nil, List.append_nil, List.foldl_nil]
  | cons x xs ih =>
      intro result
      rw [List.foldl_cons, ih, appendMatching]
      by_cases hx : references username x = true
      · rw [if_pos hx, List.filter_cons_of_pos hx, List.map_cons,
          List.append_assoc]
        rfl
      · rw [if_neg hx, List.filter_cons_of_neg hx]

/-- The page size that the scans ask for. -/
theorem one_le_pageSize : 1 ≤ CvRbac.pageSize := by decide

/-- `_cluster_bindings_for` returns the ClusterRoleBindings of the user. -/
theorem clusterBindingsFor_returns (hserver : Holds h crbs rbs)
    (username : String) (s : σ) :
    Returns h s (fun fuel => clusterBindingsFor fuel username)
      ((crbs.filter (references username)).map crbRead) := by
  have hscan := iterAllCrbs_returns hserver one_le_pageSize
    (appendMatching crbRead username) [] s
  rwa [foldl_appendMatching, List.nil_append] at hscan

/-- `_namespace_bindings_for` returns the RoleBindings of the user. -/
theorem namespaceBindingsFor_returns (hserver : Holds h crbs rbs)
    (username : String) (s : σ) :
    Returns h s (fun fuel => namespaceBindingsFor fuel username)
      ((rbs.filter (references username)).map bindingRead) := by
  have hscan := iterAllRbs_returns hserver one_le_pageSize
    (appendMatching bindingRead username) [] s
  rwa [foldl_appendMatching, List.nil_append] at hscan

/-- `get_user_permissions` returns both. -/
theorem getUserPermissions_returns (hserver : Holds h crbs rbs)
    (username : String) (s : σ) :
    Returns h s (fun fuel => getUserPermissions fuel username)
      ⟨username, (crbs.filter (references username)).map crbRead,
        (rbs.filter (references username)).map bindingRead⟩ := by
  refine Returns.bind (clusterBindingsFor_returns hserver username s)
    (fun t => ?_)
  refine Returns.bind (namespaceBindingsFor_returns hserver username t)
    (fun u => ?_)
  exact returns_pure _ u

/-- `get_namespace_access` returns a row for each subject of each RoleBinding
    of the namespace, and of each ClusterRoleBinding. -/
theorem getNamespaceAccess_returns (hserver : Holds h crbs rbs) (ns : String)
    (s : σ) :
    Returns h s (fun fuel => getNamespaceAccess fuel ns)
      ((rbs.filter (fun rb => rb.ns == some ns)).flatMap
          (accessEntries "namespace")
        ++ crbs.flatMap (accessEntries "cluster")) := by
  obtain ⟨token, t, hlist⟩ := hserver.namespaced ns s
  obtain ⟨bound, u, hloop⟩ := iterAllCrbs_returns hserver one_le_pageSize
    (fun results crb => results ++ accessEntries "cluster" crb)
    ((rbs.filter (fun rb => rb.ns == some ns)).flatMap
      (accessEntries "namespace")) t
  refine ⟨bound, u, fun fuel hfuel => ?_⟩
  show (getNamespaceAccess fuel ns).run h s = _
  rw [getNamespaceAccess, Prog.run_bind, hlist,
    Prog.andThen_ok, hloop fuel hfuel]
  -- the loop appends the rows of one binding after the other
  rw [List.foldl_append_eq_append, ← List.flatMap_def]

/-- Over a server that splits its lists in any way, the loops end and hand
    over every binding once and in order; so the lists of a user's bindings
    hold exactly the bindings that reference the user, and the access to a
    namespace has one row for each subject of each binding that applies. -/
theorem scans_see_every_binding_once (hserver : Holds h crbs rbs) (s : σ) :
    (∀ (pageSize : Nat), 1 ≤ pageSize → ∀ (β : Type) (f : β → Binding → β)
        (b : β),
      Returns h s (fun fuel =>
        iterAllCrbs fuel pageSize (fun b x => pure (f b x)) b)
        (crbs.foldl f b)
      ∧ Returns h s (fun fuel =>
        iterAllRbs fuel pageSize (fun b x => pure (f b x)) b)
        (rbs.foldl f b))
    ∧ (∀ username,
      Returns h s (fun fuel => clusterBindingsFor fuel username)
        ((crbs.filter (references username)).map crbRead)
      ∧ Returns h s (fun fuel => namespaceBindingsFor fuel username)
        ((rbs.filter (references username)).map bindingRead)
      ∧ Returns h s (fun fuel => getUserPermissions fuel username)
        ⟨username, (crbs.filter (references username)).map crbRead,
          (rbs.filter (references username)).map bindingRead⟩)
    ∧ ∀ ns, Returns h s (fun fuel => getNamespaceAccess fuel ns)
        ((rbs.filter (fun rb => rb.ns == some ns)).flatMap
            (accessEntries "namespace")
          ++ crbs.flatMap (accessEntries "cluster")) := by
  refine ⟨fun pageSize hsize β f b => ⟨?_, ?_⟩, fun username => ⟨?_, ?_, ?_⟩,
    fun ns => ?_⟩
  · exact iterAllCrbs_returns hserver hsize f b s
  · exact iterAllRbs_returns hserver hsize f b s
  · exact clusterBindingsFor_returns hserver username s
  · exact namespaceBindingsFor_returns hserver username s
  · exact getUserPermissions_returns hserver username s
  · exact getNamespaceAccess_returns hserver ns s

/-! ## Every splitting has its server -/

/-- The answer of a server that goes through the pages `start`, and remembers
    those that are still to come. -/
def nextPage (start : List (List Binding)) (token : Option String)
    (rest : List (List Binding)) :
    ListResult Binding × List (List Binding) :=
  match if token.isSome then rest else start with
  | [] => (⟨[], none⟩, [])
  | [page] => (⟨page, some ""⟩, [])
  | page :: next :: pages => (⟨page, some "next"⟩, next :: pages)

/-- A server with one given splitting of each list. -/
def scripted (crbPages rbPages : List (List Binding)) :
    Handler rbacV1 Exn (List (List Binding))
  | .listClusterRoleBinding _ token, rest =>
      (.ok (nextPage crbPages token rest).1, (nextPage crbPages token rest).2)
  | .listRoleBindingForAllNamespaces _ token, rest =>
      (.ok (nextPage rbPages token rest).1, (nextPage rbPages token rest).2)
  | .listNamespacedRoleBinding ns, rest =>
      (.ok ⟨rbPages.flatten.filter (fun rb => rb.ns == some ns), none⟩, rest)

/-- The pages that a token of the scripted server leaves come one by one. -/
theorem served_nextPage {list : Option String → Scan (ListResult Binding)}
    {h : Handler rbacV1 Exn (List (List Binding))}
    {start : List (List Binding)}
    (hlist : ∀ token rest, (list token).run h rest
      = (.ok (nextPage start token rest).1, (nextPage start token rest).2)) :
    ∀ (pages : List (List Binding)) (page : List Binding)
      (cursor : Option String) (rest : List (List Binding)),
      (if cursor.isSome then rest else start) = page :: pages →
        ServedIn h list cursor rest (page :: pages) [] := by
  intro pages
  induction pages with
  | nil =>
      intro page cursor rest hpages
      refine .last ?_ (show goesOn (some "") = false from rfl)
      rw [hlist, nextPage, hpages]
  | cons next pages ih =>
      intro page cursor rest hpages
      refine .more ?_ (show goesOn (some "next") = true from rfl)
        (ih next (some "next") (next :: pages) rfl)
      rw [hlist, nextPage, hpages]

/-- The scripted server holds what its pages hold, the empty ones included;
    there is at least one page of each list. -/
theorem scripted_holds (crbPage rbPage : List Binding)
    (crbPages rbPages : List (List Binding)) :
    Holds (scripted (crbPage :: crbPages) (rbPage :: rbPages))
      (crbPage :: crbPages).flatten (rbPage :: rbPages).flatten where
  crbPages _ s _ := ⟨_, _, rfl,
    served_nextPage (fun _ _ => Prog.run_perform _ _ _) _ _ none s rfl⟩
  rbPages _ s _ := ⟨_, _, rfl,
    served_nextPage (fun _ _ => Prog.run_perform _ _ _) _ _ none s rfl⟩
  namespaced _ s := ⟨none, s, Prog.run_perform _ _ _⟩

/-- A ClusterRoleBinding that names a user and a group alike. -/
def opsBinding : Binding where
  name := "clustervision-ann-admin"
  ns := none
  labels := []
  annotations := none
  roleRef := { kind := .clusterRole, name := "admin" }
  subjects := [⟨.user, "ann", none⟩, ⟨.group, "ann", none⟩]

/-- The binding is found on a page behind an empty one, and an empty page may
    close the list. -/
theorem scan_behind_an_empty_page :
    Returns (scripted [[], [opsBinding], []] [[]]) []
      (fun fuel => clusterBindingsFor fuel "ann") [crbRead opsBinding] := by
  have hserver := scripted_holds [] [] [[opsBinding], []] []
  have hscan := ((scans_see_every_binding_once hserver []).2.1 "ann").1
  have hread : ([[], [opsBinding], []].flatten.filter
      (references "ann")).map crbRead = [crbRead opsBinding] := by
    simp [references, opsBinding]
  rwa [hread] at hscan

/-! ## The same answers as over full pages -/

/-- A binding without a namespace has the same dictionary either way. -/
theorem crbRead_eq {b : Binding} (hb : b.ns = none) :
    crbRead b = bindingRead b := by
  rw [crbRead, bindingRead, hb]

/-- On the ClusterRoleBindings of a cluster, the scan over any splitting
    answers what the scan over full pages answers. -/
theorem clusterBindingsFor_agrees {w : World} {cluster : String}
    (hserver : Holds h (CvRbac.crbs (w.clusters cluster)) rbs)
    {fuel : Nat} (hfuel : (w.clusters cluster).bindings.rows.length < fuel)
    (username : String) (s : σ) :
    ∃ found,
      (CvRbac.clusterBindingsFor fuel cluster username).run handle w
        = (.ok found, w)
      ∧ Returns h s (fun fuel => clusterBindingsFor fuel username) found := by
  have hlen : (CvRbac.crbs (w.clusters cluster)).length < fuel :=
    Nat.lt_of_le_of_lt (List.length_filter_le _ _) hfuel
  refine ⟨_, ?_, clusterBindingsFor_returns hserver username s⟩
  rw [CvRbac.clusterBindingsFor, CvRbac.run_iterAllCrbs _ _ hlen,
    CvRbac.run_collectReferences, List.nil_append]
  refine congrArg (fun xs => (Except.ok xs, w)) (List.map_congr_left ?_)
  intro b hb
  have hcrb := (List.mem_filter.mp (List.mem_of_mem_filter hb)).2
  exact (crbRead_eq (Option.isNone_iff_eq_none.mp hcrb)).symm

/-- On the RoleBindings of a cluster, too. -/
theorem namespaceBindingsFor_agrees {w : World} {cluster : String}
    (hserver : Holds h crbs (CvRbac.rbs (w.clusters cluster)))
    {fuel : Nat} (hfuel : (w.clusters cluster).bindings.rows.length < fuel)
    (username : String) (s : σ) :
    ∃ found,
      (CvRbac.namespaceBindingsFor fuel cluster username).run handle w
        = (.ok found, w)
      ∧ Returns h s (fun fuel => namespaceBindingsFor fuel username) found := by
  have hlen : (CvRbac.rbs (w.clusters cluster)).length < fuel :=
    Nat.lt_of_le_of_lt (List.length_filter_le _ _) hfuel
  refine ⟨_, ?_, namespaceBindingsFor_returns hserver username s⟩
  rw [CvRbac.namespaceBindingsFor, CvRbac.run_iterAllRbs _ _ hlen,
    CvRbac.run_collectReferences, List.nil_append]

end CvScan
