import ClusterVision.RbacService

/-! # What the RBAC programs do

    One lemma for each program of `RbacService` that writes, under `handle`:
    what it answers and the world it leaves.  Later files use these and do not
    unfold the programs again. -/

namespace CvRbac

open CvProg CvPage CvTable CvIso CvKube CvBackend

variable {w : World} {cluster : String}

/-! ## Single calls -/

/-- The world with other bindings on one cluster. -/
def setBindings (w : World) (cluster : String)
    (t : Table Binding Binding.key) : World :=
  w.setCluster cluster ((w.clusters cluster).withBindings t)

@[simp] theorem setBindings_db (t : Table Binding Binding.key) :
    (setBindings w cluster t).db = w.db := rfl

@[simp] theorem setBindings_self (t : Table Binding Binding.key) :
    ((setBindings w cluster t).clusters cluster).bindings = t := by
  simp [setBindings]

@[simp] theorem setBindings_setBindings (t u : Table Binding Binding.key) :
    setBindings (setBindings w cluster t) cluster u
      = setBindings w cluster u := by
  simp [setBindings]

@[simp] theorem setBindings_eq_self :
    setBindings w cluster (w.clusters cluster).bindings = w := by
  simp [setBindings]

/-- A create call of a binding whose name is free. -/
theorem handle_createBinding_free {b : Binding}
    (hns : (w.clusters cluster).hasNamespace b.ns = true)
    (hb : (w.clusters cluster).bindings.get b.key = none) :
    handle (.kube cluster (.createBinding b)) w
      = (.ok b, setBindings w cluster ((w.clusters cluster).bindings.put b)) := by
  simp [handle, Cluster.exec, createInNs, createIn, hns, hb, storing,
    Except.mapError, setBindings]

/-- A create call of a binding whose name is taken. -/
theorem handle_createBinding_taken {a b : Binding}
    (hns : (w.clusters cluster).hasNamespace a.ns = true)
    (hb : (w.clusters cluster).bindings.get a.key = some b) :
    handle (.kube cluster (.createBinding a)) w
      = (.error (.api ⟨409⟩), w) := by
  simp [handle, Cluster.exec, createInNs, createIn, hns, hb, storing,
    Except.mapError]

/-- A create call either writes the binding or changes nothing. -/
theorem handle_createBinding_cases (cluster : String) (b : Binding)
    (w : World) :
    handle (.kube cluster (.createBinding b)) w
      = (.ok b, setBindings w cluster
          ((w.clusters cluster).bindings.put b)) ∨
    ∃ e, handle (.kube cluster (.createBinding b)) w = (.error e, w) := by
  cases hns : (w.clusters cluster).hasNamespace b.ns with
  | false =>
      refine Or.inr ⟨.api ⟨404⟩, ?_⟩
      simp [handle, Cluster.exec, createInNs, hns, storing, Except.mapError]
  | true =>
      cases hb : (w.clusters cluster).bindings.get b.key with
      | none => exact Or.inl (handle_createBinding_free hns hb)
      | some b' => exact Or.inr ⟨_, handle_createBinding_taken hns hb⟩

/-- A PATCH of a binding that exists. -/
theorem handle_patchBinding_present {ns : Option String} {name : String}
    {subject : Subject} {b : Binding}
    (hb : (w.clusters cluster).bindings.get (ns, name) = some b) :
    handle (.kube cluster (.patchBinding ns name subject)) w
      = (.ok (), setBindings w cluster ((w.clusters cluster).bindings.put
          (b.patched (w.clusters cluster).patchMode subject))) := by
  simp [handle, Cluster.exec, readIn, hb, storing, Except.mapError,
    setBindings]

/-- A PATCH of a binding that does not exist. -/
theorem handle_patchBinding_absent {ns : Option String} {name : String}
    {subject : Subject}
    (hb : (w.clusters cluster).bindings.get (ns, name) = none) :
    handle (.kube cluster (.patchBinding ns name subject)) w
      = (.error (.api ⟨404⟩), w) := by
  simp [handle, Cluster.exec, readIn, hb, storing, Except.mapError]

/-- A delete call that tolerates a missing binding. -/
theorem run_deleteBinding (ns : Option String) (name : String) (w : World) :
    (unlessStatus 404 (pure ()) (kube cluster (.deleteBinding ns name))).run
        handle w
      = (.ok (), setBindings w cluster
          ((w.clusters cluster).bindings.erase (ns, name))) :=
  run_deleteIn cluster w (w.clusters cluster).withBindings
    (run_kube handle cluster (.deleteBinding ns name) w)
    (Cluster.withBindings_self _)

/-! ## Namespaces -/

/-- The cluster after `_ensure_namespace`. -/
def ensured (c : Cluster) (ns : String) : Cluster :=
  match c.namespaces.get ns with
  | some _ => c
  | none => { c with namespaces := c.namespaces.put ⟨ns, managedBy⟩ }

@[simp] theorem ensured_bindings (c : Cluster) (ns : String) :
    (ensured c ns).bindings = c.bindings := by
  rw [ensured]
  split <;> rfl

@[simp] theorem ensured_patchMode (c : Cluster) (ns : String) :
    (ensured c ns).patchMode = c.patchMode := by
  rw [ensured]
  split <;> rfl

@[simp] theorem ensured_hasNamespace (c : Cluster) (ns : String) :
    (ensured c ns).hasNamespace (some ns) = true := by
  rw [ensured]
  cases hn : c.namespaces.get ns with
  | some n => simp [Cluster.hasNamespace, hn]
  | none =>
      have hget : (c.namespaces.put ⟨ns, managedBy⟩).get ns
          = some ⟨ns, managedBy⟩ :=
        Table.get_put_self c.namespaces ⟨ns, managedBy⟩
      simp [Cluster.hasNamespace, hget]

/-- `_ensure_namespace` succeeds, and the namespace is there afterwards. -/
theorem run_ensureNamespace (ns : String) (w : World) :
    (ensureNamespace cluster ns).run handle w
      = (.ok (), w.setCluster cluster (ensured (w.clusters cluster) ns)) := by
  rw [ensureNamespace, ensured]
  cases hn : (w.clusters cluster).namespaces.get ns with
  | some n =>
      simp [handle, Cluster.exec, readIn, hn, Except.mapError]
  | none =>
      simp [handle, Cluster.exec, readIn, createIn, hn, storing,
        Except.mapError]

/-! ## Creating bindings -/

@[simp] theorem clusterRoleBinding_key (name roleName : String)
    (subjects : List Subject) (labels : Dict) (annotations : Option Dict) :
    (clusterRoleBinding name roleName subjects labels annotations).key
      = (none, name) := rfl

@[simp] theorem roleBinding_key (ns name roleName : String)
    (roleKind : RoleKind) (subjects : List Subject) (labels : Dict)
    (annotations : Option Dict) :
    (roleBinding ns name roleName roleKind subjects labels annotations).key
      = (some ns, name) := rfl

/-- `create_cluster_role_binding` when the name is free. -/
theorem run_createClusterRoleBinding_free {name roleName : String}
    {subjects : List Subject} {labels : Dict} {annotations : Option Dict}
    (hb : (w.clusters cluster).bindings.get (none, name) = none) :
    (createClusterRoleBinding cluster name roleName subjects labels
        annotations).run handle w
      = (.ok name, setBindings w cluster ((w.clusters cluster).bindings.put
          (clusterRoleBinding name roleName subjects labels annotations))) := by
  rw [createClusterRoleBinding]
  rw [Prog.run_bind, run_kube, handle_createBinding_free rfl hb]
  rfl

/-- `create_cluster_role_binding` when the name is taken. -/
theorem run_createClusterRoleBinding_taken {name roleName : String}
    {subjects : List Subject} {labels : Dict} {annotations : Option Dict}
    {b : Binding}
    (hb : (w.clusters cluster).bindings.get (none, name) = some b) :
    (createClusterRoleBinding cluster name roleName subjects labels
        annotations).run handle w = (.error (.api ⟨409⟩), w) := by
  rw [createClusterRoleBinding]
  rw [Prog.run_bind, run_kube, handle_createBinding_taken rfl hb]
  rfl

/-- `create_role_binding` when the name is free in the namespace. -/
theorem run_createRoleBinding_free {ns name roleName : String}
    {roleKind : RoleKind} {subjects : List Subject} {labels : Dict}
    {annotations : Option Dict}
    (hb : (w.clusters cluster).bindings.get (some ns, name) = none) :
    (createRoleBinding cluster ns name roleName roleKind subjects labels
        annotations).run handle w
      = (.ok (name, ns), w.setCluster cluster
          ((ensured (w.clusters cluster) ns).withBindings
            ((w.clusters cluster).bindings.put (roleBinding ns name roleName
              roleKind subjects labels annotations)))) := by
  rw [createRoleBinding]
  rw [Prog.run_bind, run_ensureNamespace, Prog.andThen_ok, Prog.run_bind,
    run_kube, handle_createBinding_free]
  · simp [setBindings]
    rfl
  · simp [roleBinding]
  · simpa using hb

/-- `create_role_binding` when the name is taken in the namespace. -/
theorem run_createRoleBinding_taken {ns name roleName : String}
    {roleKind : RoleKind} {subjects : List Subject} {labels : Dict}
    {annotations : Option Dict} {b : Binding}
    (hb : (w.clusters cluster).bindings.get (some ns, name) = some b) :
    (createRoleBinding cluster ns name roleName roleKind subjects labels
        annotations).run handle w
      = (.error (.api ⟨409⟩),
          w.setCluster cluster (ensured (w.clusters cluster) ns)) := by
  rw [createRoleBinding]
  rw [Prog.run_bind, run_ensureNamespace, Prog.andThen_ok, Prog.run_bind,
    run_kube, handle_createBinding_taken (b := b)]
  · rfl
  · simp [roleBinding]
  · simpa using hb

/-! ## Loops over all bindings -/

/-- The ClusterRoleBindings of a cluster. -/
def crbs (c : Cluster) : List Binding :=
  c.bindings.rows.filter (fun b => b.ns.isNone)

/-- The RoleBindings of a cluster. -/
def rbs (c : Cluster) : List Binding :=
  c.bindings.rows.filter (fun b => b.ns.isSome)

/-- The loop over all ClusterRoleBindings handles each of those that the
    cluster has when the loop starts. -/
theorem run_iterAllCrbs {β : Type} {fuel : Nat} (body : β → Binding → Svc β)
    (b : β) (hfuel : (crbs (w.clusters cluster)).length < fuel) :
    (iterAllCrbs fuel cluster body b).run handle w
      = ((crbs (w.clusters cluster)).foldlM body b).run handle w := by
  refine run_followPages (n := 499)
    (fun w : World => crbs (w.clusters cluster)) ?_ ?_ body b w hfuel
  · intro s
    simp [crbPage, handle, Cluster.exec, selected, Scope.holds, crbs,
      Except.mapError, pageSize]
  · intro xs s
    simp [crbPage, handle, Cluster.exec, Except.mapError, pageSize,
      servePage_token]

/-- The loop over all RoleBindings handles each of those that the cluster has
    when the loop starts. -/
theorem run_iterAllRbs {β : Type} {fuel : Nat} (body : β → Binding → Svc β)
    (b : β) (hfuel : (rbs (w.clusters cluster)).length < fuel) :
    (iterAllRbs fuel cluster body b).run handle w
      = ((rbs (w.clusters cluster)).foldlM body b).run handle w := by
  refine run_followPages (n := 499)
    (fun w : World => rbs (w.clusters cluster)) ?_ ?_ body b w hfuel
  · intro s
    simp [rbPage, handle, Cluster.exec, selected, Scope.holds, rbs,
      Except.mapError, pageSize]
  · intro xs s
    simp [rbPage, handle, Cluster.exec, Except.mapError, pageSize,
      servePage_token]

/-! ## get_user_permissions -/

/-- The loop that collects the bindings of a user keeps their order. -/
theorem run_collectReferences (username : String) (xs : List Binding) :
    ∀ (found : List BindingRead) (w : World),
      (xs.foldlM (collectReferences username) found).run handle w
        = (.ok (found ++ (xs.filter (references username)).map bindingRead),
            w) := by
  induction xs with
  | nil =>
      intro found w
      rw [List.filter_nil, List.map_nil, List.append_nil]
      rfl
  | cons x xs ih =>
      intro found w
      rw [List.foldlM_cons, Prog.run_bind, collectReferences, Prog.run_pure,
        Prog.andThen_ok, ih]
      by_cases hx : references username x = true
      · rw [if_pos hx, List.filter_cons_of_pos hx, List.map_cons,
          List.append_assoc]
        rfl
      · rw [if_neg hx, List.filter_cons_of_neg hx]

/-- `get_user_permissions` shows the bindings of the user, and changes
    nothing. -/
theorem run_getUserPermissions {fuel : Nat} (username : String)
    (hfuel : (w.clusters cluster).bindings.rows.length < fuel) :
    (getUserPermissions fuel cluster username).run handle w
      = (.ok ⟨username,
          ((crbs (w.clusters cluster)).filter (references username)).map
            bindingRead,
          ((rbs (w.clusters cluster)).filter (references username)).map
            bindingRead⟩, w) := by
  have hcrbs : (crbs (w.clusters cluster)).length < fuel :=
    Nat.lt_of_le_of_lt (List.length_filter_le _ _) hfuel
  have hrbs : (rbs (w.clusters cluster)).length < fuel :=
    Nat.lt_of_le_of_lt (List.length_filter_le _ _) hfuel
  rw [getUserPermissions, Prog.run_bind, clusterBindingsFor,
    run_iterAllCrbs _ _ hcrbs, run_collectReferences, Prog.andThen_ok,
    Prog.run_bind, namespaceBindingsFor, run_iterAllRbs _ _ hrbs,
    run_collectReferences, Prog.andThen_ok]
  rfl

/-! ## delete_user_bindings -/

/-- Is `r` one of the bindings of `xs` that the loop deletes? -/
def hit (start : String) (xs : List Binding) (r : Binding) : Bool :=
  xs.any (fun b => startswith b.name start && decide (b.key = r.key))

/-- The loop deletes the bindings it was given whose name matches. -/
theorem run_deleteMatching_loop (start : String) (xs : List Binding)
    (w : World) :
    (xs.foldlM (deleteMatching cluster start) ()).run handle w
      = (.ok (), setBindings w cluster
          ((w.clusters cluster).bindings.keep (fun r => !hit start xs r))) := by
  induction xs generalizing w with
  | nil =>
      have hkeep : (w.clusters cluster).bindings.keep
          (fun r => !hit start [] r) = (w.clusters cluster).bindings :=
        Table.keep_true (fun r _ => rfl)
      rw [hkeep, setBindings_eq_self]
      rfl
  | cons b xs ih =>
      rw [List.foldlM_cons, Prog.run_bind]
      by_cases hs : startswith b.name start = true
      · -- this binding goes, then the loop's other ones
        rw [deleteMatching]
        rw [if_pos hs, run_deleteBinding, Prog.andThen_ok]
        refine (ih _).trans ?_
        rw [setBindings_self, setBindings_setBindings, Table.erase,
          Table.keep_keep]
        refine congrArg (fun t => (Except.ok (), setBindings w cluster t)) ?_
        refine Table.keep_congr (fun r _ => ?_)
        simp only [hit, List.any_cons, hs, Bool.true_and, Bool.not_or]
        congr 1
        rw [← decide_not]
        exact decide_eq_decide.mpr ne_comm
      · rw [deleteMatching]
        rw [if_neg hs, Prog.run_pure, Prog.andThen_ok]
        refine (ih _).trans ?_
        refine congrArg (fun t => (Except.ok (), setBindings w cluster t)) ?_
        refine Table.keep_congr (fun r _ => ?_)
        simp only [hit, List.any_cons, Bool.eq_false_iff.mpr hs,
          Bool.false_and, Bool.false_or]

/-- Among the bindings of a cluster, those that a loop over some of them
    deletes. -/
theorem hit_filter {c : Cluster} {start : String} {p : Binding → Bool}
    {r : Binding} (hr : r ∈ c.bindings.rows) :
    hit start (c.bindings.rows.filter p) r
      = (p r && startswith r.name start) := by
  rw [Bool.eq_iff_iff]
  simp only [hit, List.any_eq_true, List.mem_filter, Bool.and_eq_true,
    decide_eq_true_eq]
  constructor
  · rintro ⟨b, ⟨hb, hp⟩, hs, hk⟩
    rw [Table.eq_of_key hb hr hk] at hp hs
    exact ⟨hp, hs⟩
  · rintro ⟨hp, hs⟩
    exact ⟨r, ⟨hr, hp⟩, hs, rfl⟩

/-- `delete_user_bindings` completes, and what is left is the bindings whose
    name does not start with the user's prefix. -/
theorem run_deleteUserBindings {fuel : Nat} {username : String}
    (hfuel : (w.clusters cluster).bindings.rows.length < fuel) :
    (deleteUserBindings fuel cluster username).run handle w
      = (.ok (), setBindings w cluster ((w.clusters cluster).bindings.keep
          (fun b => !startswith b.name (bindingPrefix username)))) := by
  have hcrbs : (crbs (w.clusters cluster)).length < fuel :=
    Nat.lt_of_le_of_lt (List.length_filter_le _ _) hfuel
  rw [deleteUserBindings]
  rw [Prog.run_bind, run_iterAllCrbs _ _ hcrbs, run_deleteMatching_loop,
    Prog.andThen_ok]
  generalize hv : setBindings w cluster _ = v
  have hb : (v.clusters cluster).bindings = (w.clusters cluster).bindings.keep
      (fun r => !hit (bindingPrefix username) (crbs (w.clusters cluster)) r) :=
    hv ▸ setBindings_self _
  have hrows : (v.clusters cluster).bindings.rows.length < fuel := by
    rw [hb]
    exact Nat.lt_of_le_of_lt (List.length_filter_le _ _) hfuel
  rw [run_iterAllRbs _ _ (Nat.lt_of_le_of_lt (List.length_filter_le _ _) hrows),
    run_deleteMatching_loop]
  have hkeep : (v.clusters cluster).bindings.keep
      (fun r => !hit (bindingPrefix username) (rbs (v.clusters cluster)) r)
        = (v.clusters cluster).bindings.keep (fun r =>
          !(r.ns.isSome && startswith r.name (bindingPrefix username))) :=
    Table.keep_congr (fun r hr => by rw [rbs, hit_filter hr])
  rw [hkeep, hb, Table.keep_keep, ← hv, setBindings_setBindings]
  refine congrArg (fun t => (Except.ok (), setBindings w cluster t)) ?_
  refine Table.keep_congr (fun r hr => ?_)
  rw [crbs, hit_filter hr]
  -- a binding is either cluster-wide or namespaced
  cases r.ns with
  | none => simp
  | some n => simp

/-! ## Programs on one cluster -/

theorem ensureNamespace_kubeOn (cluster ns : String) :
    (ensureNamespace cluster ns).Uses (KubeOn cluster) :=
  uses_unlessStatus (Prog.uses_bind (kubeOn_kube _ _) (fun _ => trivial))
    (uses_unlessStatus (kubeOn_kube _ _) trivial)

theorem createClusterRoleBinding_kubeOn (cluster name roleName : String)
    (subjects : List Subject) (labels : Dict) (annotations : Option Dict) :
    (createClusterRoleBinding cluster name roleName subjects labels
      annotations).Uses (KubeOn cluster) :=
  Prog.uses_bind (kubeOn_kube _ _) (fun _ => trivial)

theorem createRoleBinding_kubeOn (cluster ns name roleName : String)
    (roleKind : RoleKind) (subjects : List Subject) (labels : Dict)
    (annotations : Option Dict) :
    (createRoleBinding cluster ns name roleName roleKind subjects labels
      annotations).Uses (KubeOn cluster) :=
  Prog.uses_bind (ensureNamespace_kubeOn _ _) (fun _ =>
    Prog.uses_bind (kubeOn_kube _ _) (fun _ => trivial))

/-- The loop over all ClusterRoleBindings stays on its cluster. -/
theorem iterAllCrbs_kubeOn {β : Type} (fuel : Nat) (cluster : String)
    {body : β → Binding → Svc β}
    (hbody : ∀ b x, (body b x).Uses (KubeOn cluster)) (b : β) :
    (iterAllCrbs fuel cluster body b).Uses (KubeOn cluster) :=
  uses_followPages (fun _ => kubeOn_kube _ _) hbody fuel none b

/-- The loop over all RoleBindings stays on its cluster. -/
theorem iterAllRbs_kubeOn {β : Type} (fuel : Nat) (cluster : String)
    {body : β → Binding → Svc β}
    (hbody : ∀ b x, (body b x).Uses (KubeOn cluster)) (b : β) :
    (iterAllRbs fuel cluster body b).Uses (KubeOn cluster) :=
  uses_followPages (fun _ => kubeOn_kube _ _) hbody fuel none b

theorem assignRole_kubeOn (cluster username userKind roleName : String)
    (roleKind : RoleKind) (ns saNamespace : Option String) :
    (assignRole cluster username userKind roleName roleKind ns
      saNamespace).Uses (KubeOn cluster) := by
  refine Prog.uses_bind ?_ (fun kind => Prog.uses_ite ?_ ?_)
  · rw [subjectKind]
    cases SubjectKind.ofText userKind with
    | none => exact trivial
    | some kind => exact trivial
  · exact uses_unlessStatus (kubeOn_kube _ _)
      (Prog.uses_bind (createClusterRoleBinding_kubeOn ..) (fun _ => trivial))
  · exact uses_unlessStatus (kubeOn_kube _ _)
      (Prog.uses_bind (createRoleBinding_kubeOn ..) (fun _ => trivial))

theorem revokeRole_kubeOn (cluster username roleName : String)
    (ns : Option String) :
    (revokeRole cluster username roleName ns).Uses (KubeOn cluster) :=
  uses_unlessStatus (kubeOn_kube _ _) trivial

theorem deleteUserBindings_kubeOn (fuel : Nat) (cluster username : String) :
    (deleteUserBindings fuel cluster username).Uses (KubeOn cluster) := by
  have hbody : ∀ (u : Unit) (b : Binding), (deleteMatching cluster
      (bindingPrefix username) u b).Uses (KubeOn cluster) :=
    fun u b => Prog.uses_ite (uses_unlessStatus (kubeOn_kube _ _) trivial)
      trivial
  exact Prog.uses_bind (iterAllCrbs_kubeOn fuel cluster hbody ())
    (fun _ => iterAllRbs_kubeOn fuel cluster hbody ())

theorem getNamespaceAccess_kubeOn (fuel : Nat) (cluster ns : String) :
    (getNamespaceAccess fuel cluster ns).Uses (KubeOn cluster) := by
  refine Prog.uses_bind (kubeOn_kube _ _) (fun rbs => ?_)
  refine iterAllCrbs_kubeOn fuel cluster ?_ _
  exact fun found crb => Prog.uses_pure _

end CvRbac
