import ClusterVision.RbacService
import ClusterVision.RunProofs

/-! # System ClusterRoles

    `list_cluster_roles` takes a role for a system role by the start of its
    name, "system:" or "kubeadm:"; the other functions that report on a role
    go by "system:" only, and none of those that change roles looks at the
    name.  The main result says which calls of a run are harmless: they leave
    the system roles alone and report what the list would. -/

namespace CvRoles

open CvProg CvRun CvPage CvTable CvKube CvBackend CvRbac

variable {w w₀ : World} {cluster name : String}

/-! ## Roles of a world -/

/-- The ClusterRole of a name. -/
def roleAt (w : World) (cluster name : String) : Option RoleObject :=
  (w.clusters cluster).roles.get (none, name)

/-- The world with other roles on one cluster. -/
def setRoles (w : World) (cluster : String)
    (t : Table RoleObject RoleObject.key) : World :=
  w.setCluster cluster { w.clusters cluster with roles := t }

theorem roleAt_setRoles_self (t : Table RoleObject RoleObject.key)
    (name : String) :
    roleAt (setRoles w cluster t) cluster name = t.get (none, name) := by
  rw [roleAt, setRoles, World.setCluster_self]

theorem roleAt_setRoles_ne {c : String} (hc : c ≠ cluster)
    (t : Table RoleObject RoleObject.key) (name : String) :
    roleAt (setRoles w cluster t) c name = roleAt w c name := by
  rw [roleAt, setRoles, World.setCluster_ne w _ hc]
  rfl

theorem name_of_roleAt {r : RoleObject} (h : roleAt w cluster name = some r) :
    r.name = name :=
  congrArg Prod.snd (Table.key_of_get h : r.key = _)

theorem ns_of_roleAt {r : RoleObject} (h : roleAt w cluster name = some r) :
    r.ns = none :=
  congrArg Prod.fst (Table.key_of_get h : r.key = _)

/-! ## What the functions do -/

/-- Reading a role. -/
theorem run_readRole (w : World) (cluster : String) (ns : Option String)
    (name : String) :
    handle (.kube cluster (.readRole ns name)) w
      = ((readIn (w.clusters cluster).roles (ns, name)).mapError .api, w) :=
  Prod.ext rfl (World.setCluster_eq_self w cluster)

/-- Both functions that update a role read it, replace its rules, and show
    the outcome in their own way. -/
theorem run_replaceRules (w : World) (cluster : String) (ns : Option String)
    (name : String) (rules : List PolicyRule) (view : RoleObject → RoleRead) :
    (do
      let r : RoleObject ← kube cluster (.readRole ns name)
      let updated : RoleObject ← kube cluster
        (.replaceRole { r with rules := rules })
      pure (view updated) : Svc RoleRead).run handle w
      = match (w.clusters cluster).roles.get (ns, name) with
        | some r => (.ok (view { r with rules := rules }),
            setRoles w cluster
              ((w.clusters cluster).roles.put { r with rules := rules }))
        | none => (.error (.api ⟨404⟩), w) := by
  rw [Prog.run_bind, run_kube, run_readRole, readIn]
  cases hr : (w.clusters cluster).roles.get (ns, name) with
  | none => rfl
  | some r =>
      have hput : handle (.kube cluster (.replaceRole { r with rules := rules }))
            w
          = (.ok { r with rules := rules }, setRoles w cluster
              ((w.clusters cluster).roles.put { r with rules := rules })) := by
        have hkey : RoleObject.key { r with rules := rules } = (ns, name) :=
          (Table.key_of_get hr : r.key = _)
        show ((storing _ (replaceIn _ _) _ _).1.mapError Exn.api,
          w.setCluster cluster (storing _ (replaceIn _ _) _ _).2) = _
        rw [replaceIn, hkey, hr]
        rfl
      show Prog.run handle (kube cluster (.replaceRole _) >>= _) w = _
      rw [Prog.run_bind, run_kube, hput]
      rfl

theorem run_getClusterRole (w : World) (cluster name : String) :
    (getClusterRole cluster name).run handle w
      = match roleAt w cluster name with
        | some r => (.ok (clusterRoleRead r), w)
        | none => (.error (.api ⟨404⟩), w) := by
  rw [getClusterRole, Prog.run_bind, run_kube, run_readRole, readIn, roleAt]
  cases (w.clusters cluster).roles.get (none, name) with
  | some r => rfl
  | none => rfl

theorem run_createClusterRole (w : World) (cluster name : String)
    (rules : List RulePayload) :
    (createClusterRole cluster name rules).run handle w
      = match roleAt w cluster name with
        | some _ => (.error (.api ⟨409⟩), w)
        | none => (.ok (clusterRoleRead (clusterRole name rules)),
            setRoles w cluster ((w.clusters cluster).roles.put
              (clusterRole name rules))) := by
  have hcreate : handle (.kube cluster (.createRole (clusterRole name rules)))
      w = ((storing (w.clusters cluster)
            (createIn (w.clusters cluster).roles (clusterRole name rules))
            (clusterRole name rules)
            (fun t => { w.clusters cluster with roles := t })).1.mapError .api,
          w.setCluster cluster (storing (w.clusters cluster)
            (createIn (w.clusters cluster).roles (clusterRole name rules))
            (clusterRole name rules)
            (fun t => { w.clusters cluster with roles := t })).2) := rfl
  have hget : (w.clusters cluster).roles.get (clusterRole name rules).key
      = roleAt w cluster name := rfl
  rw [createClusterRole, Prog.run_bind, run_kube, hcreate, createIn, hget]
  cases roleAt w cluster name with
  | none => rfl
  | some r =>
      show (_, w.setCluster cluster (w.clusters cluster)) = _
      rw [World.setCluster_eq_self]

theorem run_updateClusterRole (w : World) (cluster name : String)
    (rules : List RulePayload) :
    (updateClusterRole cluster name rules).run handle w
      = match roleAt w cluster name with
        | some r =>
            (.ok (clusterRoleRead { r with rules := rules.map ruleToK8s }),
              setRoles w cluster ((w.clusters cluster).roles.put
                { r with rules := rules.map ruleToK8s }))
        | none => (.error (.api ⟨404⟩), w) :=
  run_replaceRules w cluster none name (rules.map ruleToK8s) clusterRoleRead

theorem run_deleteClusterRole (w : World) (cluster name : String) :
    (deleteClusterRole cluster name).run handle w
      = match roleAt w cluster name with
        | some _ => (.ok (), setRoles w cluster
            ((w.clusters cluster).roles.erase (none, name)))
        | none => (.error (.api ⟨404⟩), w) := by
  rw [deleteClusterRole, run_kube]
  show ((storing _ (deleteIn _ _) _ _).1.mapError Exn.api,
    w.setCluster cluster (storing _ (deleteIn _ _) _ _).2) = _
  rw [deleteIn, roleAt]
  cases (w.clusters cluster).roles.get (none, name) with
  | some r => rfl
  | none =>
      show (_, w.setCluster cluster (w.clusters cluster)) = _
      rw [World.setCluster_eq_self]
      rfl

/-! ## Calls -/

/-- Does `list_cluster_roles` take a role of this name for a system role? -/
def listsAsSystem (name : String) : Bool :=
  startswith name "system:" || startswith name "kubeadm:"

/-- The calls about ClusterRoles. -/
inductive RoleCall where
  | list (cluster : String) (includeSystem : Bool) (limit : Nat)
      (cursor : Option (Cursor RoleObject))
  | get (cluster name : String)
  | create (cluster name : String) (rules : List RulePayload)
  | update (cluster name : String) (rules : List RulePayload)
  | delete (cluster name : String)

/-- The program of a call, and the roles that it reports on. -/
def RoleCall.prog : RoleCall → Svc (List RoleRead)
  | .list cluster includeSystem limit cursor => do
      let page ← listClusterRoles cluster includeSystem limit cursor
      pure page.items
  | .get cluster name => do
      let r ← getClusterRole cluster name
      pure [r]
  | .create cluster name rules => do
      let r ← createClusterRole cluster name rules
      pure [r]
  | .update cluster name rules => do
      let r ← updateClusterRole cluster name rules
      pure [r]
  | .delete cluster name => do
      deleteClusterRole cluster name
      pure []

/-- The world after a call. -/
def roleStep (k : RoleCall) (w : World) : World := (k.prog.run handle w).2

/-- Every role that was a system role at the start is there, with its rules. -/
def KeepsSystem (w₀ w : World) : Prop :=
  ∀ cluster name r, roleAt w₀ cluster name = some r →
    listsAsSystem name = true →
      ∃ r', roleAt w cluster name = some r' ∧ r'.rules = r.rules

/-- Whatever the call reports on is a system role by its report exactly when
    the list would say so. -/
def Agrees (w : World) (k : RoleCall) : Prop :=
  ∀ items, (k.prog.run handle w).1 = .ok items →
    ∀ r ∈ items, r.isSystem = listsAsSystem r.name

/-- The call changes no system role of the start, and reports on no role whose
    name starts with "kubeadm:". -/
def Harmless (w₀ w : World) : RoleCall → Prop
  | .list _ _ _ _ => True
  | .get cluster name =>
      roleAt w cluster name ≠ none → startswith name "kubeadm:" = false
  | .create cluster name _ =>
      roleAt w cluster name = none → startswith name "kubeadm:" = false
  | .update cluster name rules =>
      roleAt w cluster name ≠ none → startswith name "kubeadm:" = false ∧
        ∀ r, roleAt w₀ cluster name = some r → listsAsSystem name = true →
          rules.map ruleToK8s = r.rules
  | .delete cluster name =>
      roleAt w₀ cluster name ≠ none → listsAsSystem name = false

/-- No text starts in both ways. -/
theorem not_system_of_kubeadm {text : String}
    (h : startswith text "kubeadm:" = true) :
    startswith text "system:" = false := by
  rw [startswith] at h ⊢
  generalize text.toList = cs at h ⊢
  cases cs with
  | nil => exact nomatch h
  | cons c cs =>
      have hc : 'k' = c := by
        have hand := Bool.and_eq_true_iff.mp h
        exact of_decide_eq_true hand.1
      rw [← hc]
      rfl

/-- The report of the other functions, beside that of the list. -/
theorem reports_iff (name : String) :
    startswith name "system:" = listsAsSystem name ↔
      startswith name "kubeadm:" = false := by
  rw [listsAsSystem]
  cases hk : startswith name "kubeadm:" with
  | false => exact iff_of_true (Bool.or_false _).symm rfl
  | true =>
      rw [not_system_of_kubeadm hk]
      exact iff_of_false nofun nofun

/-- A call that reports on one role. -/
theorem agrees_one {k : RoleCall} {r : RoleObject}
    (h : (k.prog.run handle w).1 = .ok [clusterRoleRead r]) :
    Agrees w k ↔ startswith r.name "kubeadm:" = false := by
  refine Iff.trans ?_ (reports_iff r.name)
  constructor
  · intro hagrees
    exact hagrees _ h (clusterRoleRead r) (List.mem_singleton.mpr rfl)
  · intro hr items hitems x hx
    rw [h] at hitems
    rw [← Except.ok.inj hitems] at hx
    rw [List.mem_singleton.mp hx]
    exact hr

/-- A call that raises. -/
theorem agrees_error {k : RoleCall} {e : Exn}
    (h : (k.prog.run handle w).1 = .error e) : Agrees w k := by
  intro items hitems
  rw [h] at hitems
  exact nomatch hitems

/-- What becomes of the roles when one name gets the role `x`. -/
theorem roleAt_put {x : RoleObject} {t : Table RoleObject RoleObject.key}
    (hx : x.key = (none, name)) (c n : String)
    (ht : t = (w.clusters cluster).roles) :
    roleAt (setRoles w cluster (t.put x)) c n
      = if c = cluster ∧ n = name then some x else roleAt w c n := by
  by_cases hc : c = cluster
  · rw [hc, roleAt_setRoles_self, Table.get_put, hx, ht]
    by_cases hn : n = name
    · rw [if_pos (by rw [hn]), if_pos ⟨rfl, hn⟩]
    · rw [if_neg (fun h => hn (congrArg Prod.snd h)),
        if_neg (fun h => hn h.2)]
      rfl
  · rw [roleAt_setRoles_ne hc, if_neg (fun h => hc h.1)]

/-- The same when it loses its role. -/
theorem roleAt_erase (cluster name c n : String) (w : World) :
    roleAt (setRoles w cluster
        ((w.clusters cluster).roles.erase (none, name))) c n
      = if c = cluster ∧ n = name then none else roleAt w c n := by
  by_cases hc : c = cluster
  · rw [hc, roleAt_setRoles_self, Table.get_erase]
    by_cases hn : n = name
    · rw [if_pos (by rw [hn]), if_pos ⟨rfl, hn⟩]
    · rw [if_neg (fun h => hn (congrArg Prod.snd h)),
        if_neg (fun h => hn h.2)]
      rfl
  · rw [roleAt_setRoles_ne hc, if_neg (fun h => hc h.1)]

/-! ## One call -/

/-- Listing changes nothing, and agrees with itself. -/
theorem list_harmless (w : World) (cluster : String) (includeSystem : Bool)
    (limit : Nat) (cursor : Option (Cursor RoleObject)) :
    roleStep (.list cluster includeSystem limit cursor) w = w ∧
      Agrees w (.list cluster includeSystem limit cursor) := by
  have hlist : handle (.kube cluster
        (.listRoles .cluster (some limit) cursor)) w
      = (.ok (servePage (some limit) cursor
          ((w.clusters cluster).roles.rows.filter
            (fun r => Scope.cluster.holds r.ns))), w) :=
    Prod.ext rfl (World.setCluster_eq_self w cluster)
  generalize servePage _ _ _ = page at hlist
  have hrun : (RoleCall.prog (.list cluster includeSystem limit cursor)).run
        handle w
      = (.ok ((page.items.filter
          (fun r => includeSystem || !isSystemRole r)).map (fun r =>
            ⟨r.name, none, r.rules.map ruleFromK8s, isSystemRole r⟩)), w) := by
    rw [RoleCall.prog, listClusterRoles, Prog.run_bind, Prog.run_bind,
      run_kube, hlist]
    rfl
  refine ⟨?_, ?_⟩
  · rw [roleStep, hrun]
  · intro items hitems r hr
    rw [hrun] at hitems
    rw [← Except.ok.inj hitems] at hr
    obtain ⟨x, -, rfl⟩ := List.mem_map.mp hr
    exact rfl

/-- `get_cluster_role`. -/
theorem get_harmless_iff (hw : KeepsSystem w₀ w) :
    KeepsSystem w₀ (roleStep (.get cluster name) w) ∧
        Agrees w (.get cluster name) ↔
      Harmless w₀ w (.get cluster name) := by
  have hrun : (RoleCall.prog (.get cluster name)).run handle w
      = match roleAt w cluster name with
        | some r => (.ok [clusterRoleRead r], w)
        | none => (.error (.api ⟨404⟩), w) := by
    rw [RoleCall.prog, Prog.run_bind, run_getClusterRole]
    cases roleAt w cluster name with
    | some r => rfl
    | none => rfl
  have hsame : roleStep (.get cluster name) w = w := by
    rw [roleStep, hrun]
    cases roleAt w cluster name with
    | some r => rfl
    | none => rfl
  rw [hsame, and_iff_right hw, Harmless]
  cases hr : roleAt w cluster name with
  | none =>
      rw [hr] at hrun
      exact iff_of_true (agrees_error (congrArg Prod.fst hrun))
        (fun h => absurd rfl h)
  | some r =>
      rw [hr] at hrun
      rw [agrees_one (congrArg Prod.fst hrun), name_of_roleAt hr]
      exact ⟨fun h _ => h, fun h => h nofun⟩

/-- `create_cluster_role`. -/
theorem create_harmless_iff (rules : List RulePayload)
    (hw : KeepsSystem w₀ w) :
    KeepsSystem w₀ (roleStep (.create cluster name rules) w) ∧
        Agrees w (.create cluster name rules) ↔
      Harmless w₀ w (.create cluster name rules) := by
  have hrun : (RoleCall.prog (.create cluster name rules)).run handle w
      = match roleAt w cluster name with
        | some _ => (.error (.api ⟨409⟩), w)
        | none => (.ok [clusterRoleRead (clusterRole name rules)],
            setRoles w cluster ((w.clusters cluster).roles.put
              (clusterRole name rules))) := by
    rw [RoleCall.prog, Prog.run_bind, run_createClusterRole]
    cases roleAt w cluster name with
    | some r => rfl
    | none => rfl
  rw [roleStep, Harmless]
  cases hr : roleAt w cluster name with
  | some r =>
      rw [hr] at hrun
      rw [hrun]
      exact iff_of_true ⟨hw, agrees_error (congrArg Prod.fst hrun)⟩ nofun
  | none =>
      rw [hr] at hrun
      rw [hrun, agrees_one (congrArg Prod.fst hrun)]
      have hkeeps : KeepsSystem w₀ (setRoles w cluster
          ((w.clusters cluster).roles.put (clusterRole name rules))) := by
        intro c n r₀ hr₀ hsystem
        obtain ⟨r', hr', hrules⟩ := hw c n r₀ hr₀ hsystem
        refine ⟨r', ?_, hrules⟩
        rw [roleAt_put rfl c n rfl, if_neg ?_]
        · exact hr'
        · -- a role that is there keeps its name
          rintro ⟨rfl, rfl⟩
          rw [hr] at hr'
          exact nomatch hr'
      rw [and_iff_right hkeeps]
      exact ⟨fun h _ => h, fun h => h rfl⟩

/-- `update_cluster_role`. -/
theorem update_harmless_iff (rules : List RulePayload)
    (hw : KeepsSystem w₀ w) :
    KeepsSystem w₀ (roleStep (.update cluster name rules) w) ∧
        Agrees w (.update cluster name rules) ↔
      Harmless w₀ w (.update cluster name rules) := by
  have hrun : (RoleCall.prog (.update cluster name rules)).run handle w
      = match roleAt w cluster name with
        | some r =>
            (.ok [clusterRoleRead { r with rules := rules.map ruleToK8s }],
              setRoles w cluster ((w.clusters cluster).roles.put
                { r with rules := rules.map ruleToK8s }))
        | none => (.error (.api ⟨404⟩), w) := by
    rw [RoleCall.prog, Prog.run_bind, run_updateClusterRole]
    cases roleAt w cluster name with
    | some r => rfl
    | none => rfl
  rw [roleStep, Harmless]
  cases hr : roleAt w cluster name with
  | none =>
      rw [hr] at hrun
      rw [hrun]
      exact iff_of_true ⟨hw, agrees_error (congrArg Prod.fst hrun)⟩
        (fun h => absurd rfl h)
  | some r =>
      rw [hr] at hrun
      have hkey : RoleObject.key { r with rules := rules.map ruleToK8s }
          = (none, name) := Prod.ext (ns_of_roleAt hr) (name_of_roleAt hr)
      rw [hrun, agrees_one (congrArg Prod.fst hrun), name_of_roleAt hr,
        and_comm, forall_prop_of_true (Option.some_ne_none r)]
      refine and_congr_right (fun _ => ?_)
      constructor
      · intro hkeeps r₀ hr₀ hsystem
        obtain ⟨r', hr', hrules⟩ := hkeeps cluster name r₀ hr₀ hsystem
        rw [roleAt_put hkey cluster name rfl, if_pos ⟨rfl, rfl⟩] at hr'
        rw [← hrules, ← Option.some.inj hr']
      · intro hsame c n r₀ hr₀ hsystem
        rw [roleAt_put hkey c n rfl]
        -- the role that was written, or one that is as it was
        by_cases hcn : c = cluster ∧ n = name
        · rw [if_pos hcn]
          rw [hcn.1, hcn.2] at hr₀
          rw [hcn.2] at hsystem
          exact ⟨_, rfl, hsame r₀ hr₀ hsystem⟩
        · rw [if_neg hcn]
          exact hw c n r₀ hr₀ hsystem

/-- `delete_cluster_role`. -/
theorem delete_harmless_iff (hw : KeepsSystem w₀ w) :
    KeepsSystem w₀ (roleStep (.delete cluster name) w) ∧
        Agrees w (.delete cluster name) ↔
      Harmless w₀ w (.delete cluster name) := by
  have hrun : (RoleCall.prog (.delete cluster name)).run handle w
      = match roleAt w cluster name with
        | some _ => (.ok [], setRoles w cluster
            ((w.clusters cluster).roles.erase (none, name)))
        | none => (.error (.api ⟨404⟩), w) := by
    rw [RoleCall.prog, Prog.run_bind, run_deleteClusterRole]
    cases roleAt w cluster name with
    | some r => rfl
    | none => rfl
  have hagrees : Agrees w (.delete cluster name) := by
    intro items hitems x hx
    rw [hrun] at hitems
    cases hr : roleAt w cluster name with
    | none =>
        rw [hr] at hitems
        exact nomatch hitems
    | some r =>
        rw [hr] at hitems
        rw [← Except.ok.inj hitems] at hx
        exact nomatch hx
  rw [and_iff_left hagrees, roleStep, hrun, Harmless]
  cases hr : roleAt w cluster name with
  | none =>
      refine iff_of_true hw (fun h => ?_)
      -- a system role of the start would still be there
      obtain ⟨r₀, hr₀⟩ := Option.ne_none_iff_exists'.mp h
      by_contra hsystem
      obtain ⟨r', hr', -⟩ := hw cluster name r₀ hr₀
        (Bool.not_eq_false _ ▸ hsystem)
      rw [hr] at hr'
      exact nomatch hr'
  | some r =>
      constructor
      · intro hkeeps h
        obtain ⟨r₀, hr₀⟩ := Option.ne_none_iff_exists'.mp h
        by_contra hsystem
        obtain ⟨r', hr', -⟩ := hkeeps cluster name r₀ hr₀
          (Bool.not_eq_false _ ▸ hsystem)
        rw [roleAt_erase, if_pos ⟨rfl, rfl⟩] at hr'
        exact nomatch hr'
      · intro h c n r₀ hr₀ hsystem
        rw [roleAt_erase, if_neg ?_]
        · exact hw c n r₀ hr₀ hsystem
        · rintro ⟨rfl, rfl⟩
          rw [h (by rw [hr₀]; exact nofun)] at hsystem
          exact nomatch hsystem

/-- What one call does. -/
theorem harmless_step_iff (k : RoleCall) (hw : KeepsSystem w₀ w) :
    KeepsSystem w₀ (roleStep k w) ∧ Agrees w k ↔ Harmless w₀ w k := by
  cases k with
  | list cluster includeSystem limit cursor =>
      obtain ⟨hsame, hagrees⟩ :=
        list_harmless w cluster includeSystem limit cursor
      rw [hsame]
      exact iff_of_true ⟨hw, hagrees⟩ trivial
  | get cluster name => exact get_harmless_iff hw
  | create cluster name rules => exact create_harmless_iff rules hw
  | update cluster name rules => exact update_harmless_iff rules hw
  | delete cluster name => exact delete_harmless_iff hw

/-! ## Runs -/

/-- In every state that a run reaches the system roles of its start are there
    with their rules, and whatever it reports about a role is what the list
    would, exactly when each call of the run is harmless. -/
theorem system_roles_safe_iff (w : World) (ks : List RoleCall) :
    (∀ pre, pre <+: ks → KeepsSystem w (after roleStep pre w)) ∧
        Along roleStep Agrees ks w ↔
      Along roleStep (Harmless w) ks w := by
  have hstart : KeepsSystem w w := fun _ _ r hr _ => ⟨r, hr, rfl⟩
  have hstep : ∀ (v : World) (k : RoleCall), KeepsSystem w v →
      KeepsSystem w (roleStep k v) ∧ Agrees v k →
        KeepsSystem w (roleStep k v) := fun _ _ _ h => h.1
  have hiff : ∀ (v : World) (k : RoleCall), KeepsSystem w v →
      (KeepsSystem w (roleStep k v) ∧ Agrees v k ↔ Harmless w v k) :=
    fun v k hv => harmless_step_iff k hv
  rw [reached_iff (I := KeepsSystem w), and_iff_right hstart, ← along_and]
  exact along_congr hstep hiff hstart ks

/-- A cluster with a role of Kubernetes. -/
def withSystemRole : World :=
  World.fresh.setCluster "local" { Cluster.fresh with
    roles := Table.empty.put ⟨"system:node", none, [], []⟩ }

/-- Nothing keeps a system role from being deleted. -/
theorem system_role_deleted :
    ¬ ((∀ pre, pre <+: [RoleCall.delete "local" "system:node"] →
        KeepsSystem withSystemRole (after roleStep pre withSystemRole)) ∧
      Along roleStep Agrees [.delete "local" "system:node"]
        withSystemRole) := by
  rintro ⟨hkeeps, -⟩
  obtain ⟨r, hr, -⟩ := hkeeps _ (List.prefix_refl _) "local" "system:node"
    ⟨"system:node", none, [], []⟩ rfl (by decide)
  have hgone : roleAt (after roleStep [.delete "local" "system:node"]
      withSystemRole) "local" "system:node" = none := by decide +kernel
  rw [hgone] at hr
  exact nomatch hr

end CvRoles
