import ClusterVision.RbacProofs
import ClusterVision.RunProofs
import Mathlib.Data.Set.Insert

/-! # assign_role adds the requested grant and nothing else

    What the bindings of a cluster mean is a set of grants: who gets which
    role, and where.  `assign_role` addresses a binding by a name made of the
    user and the role, so two calls can meet in one binding.  The main result
    says along which runs every call adds its grant and nothing else. -/

namespace CvAssign

open CvProg CvRun CvTable CvKube CvBackend CvRbac

/-! ## Grants -/

/-- A subject has a role in a scope: the cluster, or one namespace. -/
structure Grant where
  subject : Subject
  roleKind : RoleKind
  roleName : String
  scope : Option String
deriving DecidableEq

/-- A binding gives its role to each of its subjects. -/
def bindingGrants (b : Binding) : Set Grant :=
  {g | g.subject ∈ b.subjects ∧ g.roleKind = b.roleRef.kind ∧
    g.roleName = b.roleRef.name ∧ g.scope = b.ns}

/-- What the bindings of a cluster grant. -/
def grants (t : Table Binding Binding.key) : Set Grant :=
  {g | ∃ b ∈ t.rows, g ∈ bindingGrants b}

/-- Writing a binding replaces what its key granted. -/
theorem mem_grants_put {t : Table Binding Binding.key} {b : Binding}
    {g : Grant} :
    g ∈ grants (t.put b)
      ↔ g ∈ bindingGrants b ∨
        ∃ b' ∈ t.rows, b'.key ≠ b.key ∧ g ∈ bindingGrants b' := by
  constructor
  · rintro ⟨x, hx, hg⟩
    rcases Table.mem_put.mp hx with hxb | ⟨hxt, hk⟩
    · exact Or.inl (hxb ▸ hg)
    · exact Or.inr ⟨x, hxt, hk, hg⟩
  · rintro (hg | ⟨x, hxt, hk, hg⟩)
    · exact ⟨b, Table.mem_put.mpr (Or.inl rfl), hg⟩
    · exact ⟨x, Table.mem_put.mpr (Or.inr ⟨hxt, hk⟩), hg⟩

/-! ## Calls -/

/-- The arguments of one call of `assign_role`. -/
structure AssignCall where
  username : String
  userKind : String
  roleName : String
  roleKind : RoleKind
  ns : Option String
  saNamespace : Option String

namespace AssignCall

variable (k : AssignCall)

/-- The call itself. -/
def prog (cluster : String) : Svc Unit :=
  assignRole cluster k.username k.userKind k.roleName k.roleKind k.ns
    k.saNamespace

/-- The scope that the call asks for. -/
def scope : Option String :=
  if k.ns = none ∧ k.roleKind = .clusterRole then none
  else some (namespaceOrDefault k.ns)

/-- The subject that the call asks for. -/
def subject (kind : SubjectKind) : Subject := ⟨kind, k.username, k.saNamespace⟩

/-- The grant that the call asks for. -/
def grant (kind : SubjectKind) : Grant :=
  ⟨k.subject kind, k.roleKind, k.roleName, k.scope⟩

/-- The key of the binding that the call addresses. -/
def key : Option String × String :=
  (k.scope, bindingNameFor k.username k.roleName)

/-- The binding that the call creates when there is none. -/
def binding (kind : SubjectKind) : Binding where
  name := bindingNameFor k.username k.roleName
  ns := k.scope
  labels := managedBy.merge []
  annotations := none
  roleRef := { kind := k.roleKind, name := k.roleName }
  subjects := [k.subject kind]

/-- The binding that the call leaves under its key. -/
def outcome (c : Cluster) (kind : SubjectKind) : Binding :=
  match c.bindings.get k.key with
  | some b => b.patched c.patchMode (k.subject kind)
  | none => k.binding kind

end AssignCall

variable {cluster : String} {w : World} {k : AssignCall}

/-- A call with a text that is no subject kind changes nothing. -/
theorem run_assignRole_badKind (hk : SubjectKind.ofText k.userKind = none) :
    (k.prog cluster).run handle w
      = (.error (.valueError ("'" ++ k.userKind
          ++ "' is not a valid SubjectKind")), w) := by
  rw [AssignCall.prog, assignRole, subjectKind]
  rw [hk]
  rfl

/-- What a call answers, and the bindings it leaves. -/
theorem run_assignRole (cluster : String) (w : World) {kind : SubjectKind}
    (hk : SubjectKind.ofText k.userKind = some kind) :
    ((k.prog cluster).run handle w).1 = .ok () ∧
    (((k.prog cluster).run handle w).2.clusters cluster).bindings
      = (w.clusters cluster).bindings.put (k.outcome (w.clusters cluster) kind) ∧
    (((k.prog cluster).run handle w).2.clusters cluster).patchMode
      = (w.clusters cluster).patchMode := by
  unfold AssignCall.prog assignRole subjectKind AssignCall.outcome
    AssignCall.binding AssignCall.key AssignCall.scope AssignCall.subject
  simp only [hk]
  by_cases hc : k.ns = none ∧ k.roleKind = .clusterRole
  · -- a ClusterRoleBinding
    simp only [if_pos hc, Prog.run_bind, Prog.run_pure, Prog.andThen_ok,
      run_unlessStatus, run_kube]
    cases hb : (w.clusters cluster).bindings.get
        (none, bindingNameFor k.username k.roleName) with
    | some b =>
        rw [handle_patchBinding_present hb]
        simp [setBindings, Cluster.withBindings]
    | none =>
        rw [handle_patchBinding_absent hb]
        simp only [Prog.orElse_error, if_true, Prog.run_bind]
        rw [run_createClusterRoleBinding_free hb]
        simp [setBindings, Cluster.withBindings, clusterRoleBinding,
          annotationsOrNone, hc.2]
  · -- a RoleBinding
    simp only [if_neg hc, Prog.run_bind, Prog.run_pure, Prog.andThen_ok,
      run_unlessStatus, run_kube]
    cases hb : (w.clusters cluster).bindings.get
        (some (namespaceOrDefault k.ns),
          bindingNameFor k.username k.roleName) with
    | some b =>
        rw [handle_patchBinding_present hb]
        simp [setBindings, Cluster.withBindings]
    | none =>
        rw [handle_patchBinding_absent hb]
        simp only [Prog.orElse_error, if_true, Prog.run_bind]
        rw [run_createRoleBinding_free hb]
        simp [Cluster.withBindings, roleBinding, annotationsOrNone]

/-! ## One call -/

/-- The world after a call. -/
def assignStep (cluster : String) (k : AssignCall) (w : World) : World :=
  ((k.prog cluster).run handle w).2

/-- A call that returns has added its grant and nothing else. -/
def AddsExactly (cluster : String) (w : World) (k : AssignCall) : Prop :=
  ((k.prog cluster).run handle w).1 = .ok () →
    ∃ kind, SubjectKind.ofText k.userKind = some kind ∧
      grants ((assignStep cluster k w).clusters cluster).bindings
        = insert (k.grant kind) (grants (w.clusters cluster).bindings)

/-- The binding that a call addresses is absent, or it already gives the
    requested role to the requested subject alone. -/
def Unshared (cluster : String) (w : World) (k : AssignCall) : Prop :=
  ∀ kind, SubjectKind.ofText k.userKind = some kind →
    ∀ b, (w.clusters cluster).bindings.get k.key = some b →
      b.roleRef.kind = k.roleKind ∧ b.roleRef.name = k.roleName ∧
        b.subjects = [k.subject kind]

/-- Every binding has one subject and the name that goes with it. -/
def OneSubject (cluster : String) (w : World) : Prop :=
  ∀ b ∈ (w.clusters cluster).bindings.rows, ∃ s, b.subjects = [s] ∧
    b.name = bindingNameFor s.name b.roleRef.name

/-- A PATCH with the only subject of a binding leaves its subjects alone. -/
theorem patchSubjects_self (mode : PatchMode) (s : Subject) :
    patchSubjects mode [s] s = [s] := by
  cases mode with
  | replace => rfl
  | mergeByName =>
      cases s with
      | mk kind name ns => cases ns <;> simp [patchSubjects, mergeSubject]

/-- Where the binding is unshared, the call leaves one with its own grant. -/
theorem outcome_of_unshared {kind : SubjectKind}
    (hk : SubjectKind.ofText k.userKind = some kind)
    (hu : Unshared cluster w k) :
    (k.outcome (w.clusters cluster) kind).key = k.key ∧
    (k.outcome (w.clusters cluster) kind).subjects = [k.subject kind] ∧
    (k.outcome (w.clusters cluster) kind).roleRef.kind = k.roleKind ∧
    (k.outcome (w.clusters cluster) kind).roleRef.name = k.roleName := by
  rw [AssignCall.outcome]
  cases hb : (w.clusters cluster).bindings.get k.key with
  | none => exact ⟨rfl, rfl, rfl, rfl⟩
  | some b =>
      obtain ⟨hkind, hname, hsub⟩ := hu kind hk b hb
      have hkey : b.key = k.key := Table.key_of_get hb
      refine ⟨hkey, ?_, hkind, hname⟩
      show patchSubjects _ b.subjects _ = _
      rw [hsub, patchSubjects_self]

/-- A binding with one subject gives one grant. -/
theorem mem_bindingGrants_single {b : Binding} {s : Subject} {g : Grant}
    (hs : b.subjects = [s]) :
    g ∈ bindingGrants b
      ↔ g = ⟨s, b.roleRef.kind, b.roleRef.name, b.ns⟩ := by
  constructor
  · rintro ⟨hsub, hkind, hname, hns⟩
    rw [hs, List.mem_singleton] at hsub
    cases g
    cases hsub
    cases hkind
    cases hname
    cases hns
    rfl
  · intro hg
    subst hg
    refine ⟨?_, rfl, rfl, rfl⟩
    rw [hs]
    exact List.mem_singleton.mpr rfl

/-- In any store, a call whose binding is unshared adds its grant and nothing
    else. -/
theorem addsExactly_of_unshared (hu : Unshared cluster w k) :
    AddsExactly cluster w k := by
  intro hret
  cases hk : SubjectKind.ofText k.userKind with
  | none =>
      rw [run_assignRole_badKind hk] at hret
      exact nomatch hret
  | some kind =>
      refine ⟨kind, rfl, ?_⟩
      obtain ⟨-, hbind, -⟩ := run_assignRole cluster w hk
      rw [assignStep]
      rw [hbind]
      obtain ⟨hkey, hsub, hrk, hrn⟩ := outcome_of_unshared hk hu
      have hns : (k.outcome (w.clusters cluster) kind).ns = k.scope :=
        congrArg Prod.fst hkey
      have hout : ∀ g, g ∈ bindingGrants (k.outcome (w.clusters cluster) kind)
          ↔ g = k.grant kind := by
        intro g
        rw [mem_bindingGrants_single hsub, hrk, hrn, hns]
        exact Iff.rfl
      ext g
      rw [mem_grants_put, hout, hkey]
      constructor
      · rintro (hg | ⟨b, hb, -, hg⟩)
        · exact Or.inl hg
        · exact Or.inr ⟨b, hb, hg⟩
      · rintro (hg | ⟨b, hb, hg⟩)
        · exact Or.inl hg
        · by_cases hbk : b.key = k.key
          · -- the binding that was there gave the same grant
            have hget := Table.get_of_mem hb
            rw [hbk] at hget
            obtain ⟨h₁, h₂, h₃⟩ := hu kind hk b hget
            rw [mem_bindingGrants_single h₃, h₁, h₂] at hg
            refine Or.inl (hg.trans ?_)
            rw [show b.ns = k.scope from congrArg Prod.fst hbk]
            rfl
          · exact Or.inr ⟨b, hb, hbk, hg⟩

/-! ## Runs -/

/-- An unshared call keeps one subject to a binding. -/
theorem oneSubject_step (hw : OneSubject cluster w)
    (hu : Unshared cluster w k) :
    OneSubject cluster (assignStep cluster k w) := by
  rw [OneSubject, assignStep]
  cases hk : SubjectKind.ofText k.userKind with
  | none =>
      rw [run_assignRole_badKind hk]
      exact hw
  | some kind =>
      obtain ⟨-, hbind, -⟩ := run_assignRole cluster w hk
      obtain ⟨hkey, hsub, -, hrn⟩ := outcome_of_unshared hk hu
      rw [hbind]
      intro b hb
      rcases Table.mem_put.mp hb with hbo | ⟨hbt, -⟩
      · refine ⟨k.subject kind, hbo ▸ hsub, ?_⟩
        rw [hbo, hrn]
        exact congrArg Prod.snd hkey
      · exact hw b hbt

/-- Names that agree in their role agree in their user. -/
theorem bindingNameFor_inj {u v : String} (role : String)
    (h : bindingNameFor u role = bindingNameFor v role) : u = v :=
  (String.append_right_inj _).mp
    ((String.append_left_inj _).mp ((String.append_left_inj _).mp h))

/-- Where bindings have one subject, a call that adds its grant and nothing
    else has found its binding unshared. -/
theorem unshared_of_addsExactly (hw : OneSubject cluster w)
    (ha : AddsExactly cluster w k) : Unshared cluster w k := by
  intro kind hk b hb
  obtain ⟨hret, hbind, -⟩ := run_assignRole cluster w hk
  obtain ⟨kind', hk', hgrants⟩ := ha hret
  have hkk : kind' = kind := Option.some.inj (hk'.symm.trans hk)
  rw [hkk] at hgrants
  rw [assignStep] at hgrants
  have hout : k.outcome (w.clusters cluster) kind
      = b.patched (w.clusters cluster).patchMode (k.subject kind) := by
    rw [AssignCall.outcome]
    rw [hb]
  rw [hbind, hout] at hgrants
  have hkey : b.key = k.key := Table.key_of_get hb
  have hbrow := Table.mem_of_get hb
  obtain ⟨x, hx, hxname⟩ := hw b hbrow
  have hname : b.name = bindingNameFor k.username k.roleName :=
    congrArg Prod.snd hkey
  -- a grant under the name of this binding can only come from this binding
  have honly : ∀ g : Grant, bindingNameFor g.subject.name g.roleName = b.name →
      g.scope = b.ns →
      g ∈ grants ((w.clusters cluster).bindings.put
        (b.patched (w.clusters cluster).patchMode (k.subject kind))) →
      g ∈ bindingGrants
        (b.patched (w.clusters cluster).patchMode (k.subject kind)) := by
    intro g hgname hgscope hg
    rcases mem_grants_put.mp hg with hg | ⟨b', hb', hne, hg⟩
    · exact hg
    · obtain ⟨y, hy, hyname⟩ := hw b' hb'
      have hgy := (mem_bindingGrants_single hy).mp hg
      rw [hgy] at hgname hgscope
      exact absurd (Prod.ext hgscope (hyname.trans hgname)) hne
  -- the requested grant comes from it, so the role is the requested one
  have hreq : k.grant kind ∈ bindingGrants
      (b.patched (w.clusters cluster).patchMode (k.subject kind)) :=
    honly _ hname.symm (congrArg Prod.fst hkey).symm
      (hgrants ▸ Set.mem_insert _ _)
  have hrk : b.roleRef.kind = k.roleKind := hreq.2.1.symm
  have hrn : b.roleRef.name = k.roleName := hreq.2.2.1.symm
  have hxu : x.name = k.username := by
    refine bindingNameFor_inj k.roleName ?_
    rw [← hname, hxname, hrn]
  -- the grant that was there comes from it, so its subject is still there
  have hold : (⟨x, b.roleRef.kind, b.roleRef.name, b.ns⟩ : Grant)
      ∈ bindingGrants
        (b.patched (w.clusters cluster).patchMode (k.subject kind)) := by
    refine honly _ hxname.symm rfl (hgrants ▸ Set.mem_insert_of_mem _ ?_)
    exact ⟨b, hbrow, (mem_bindingGrants_single hx).mpr rfl⟩
  have hxin : x ∈ patchSubjects (w.clusters cluster).patchMode [x]
      (k.subject kind) := hx ▸ hold.1
  have hsin : k.subject kind ∈ patchSubjects (w.clusters cluster).patchMode [x]
      (k.subject kind) := hx ▸ hreq.1
  refine ⟨hrk, hrn, hx.trans ?_⟩
  cases hm : (w.clusters cluster).patchMode with
  | replace =>
      rw [hm] at hxin
      rw [List.mem_singleton.mp hxin]
  | mergeByName =>
      rw [hm] at hxin hsin
      have hany : ([x].any fun s => decide (s.name = (k.subject kind).name))
          = true := by simp [AssignCall.subject, hxu]
      simp only [patchSubjects, if_pos hany, List.map_cons, List.map_nil]
        at hxin hsin
      rw [List.mem_singleton] at hxin hsin
      rw [hxin, ← hsin]

/-- Along a run of `assign_role` calls that starts without bindings, every
    call adds its grant and nothing else exactly when every call finds its
    binding unshared. -/
theorem assignRole_addsExactly_iff (cluster : String) (w : World)
    (hw : (w.clusters cluster).bindings = Table.empty) (ks : List AssignCall) :
    Along (assignStep cluster) (AddsExactly cluster) ks w
      ↔ Along (assignStep cluster) (Unshared cluster) ks w := by
  have hinit : OneSubject cluster w := by
    intro b hb
    rw [hw] at hb
    exact nomatch hb
  have hstep : ∀ v k, OneSubject cluster v → AddsExactly cluster v k →
      OneSubject cluster (assignStep cluster k v) :=
    fun v k hv ha => oneSubject_step hv (unshared_of_addsExactly hv ha)
  refine along_congr hstep ?_ hinit ks
  exact fun v k hv =>
    ⟨unshared_of_addsExactly hv, addsExactly_of_unshared⟩

/-- A new installation has no bindings: a role that is assigned, assigned again
    and joined by another one. -/
theorem assignRole_addsExactly_fresh :
    Along (assignStep "local") (AddsExactly "local")
      [⟨"ada", "User", "view", .clusterRole, none, none⟩,
        ⟨"ada", "User", "view", .clusterRole, none, none⟩,
        ⟨"ada", "User", "edit", .clusterRole, none, none⟩] World.fresh := by
  refine (assignRole_addsExactly_iff "local" World.fresh rfl _).mpr
    ⟨?_, ?_, ?_, trivial⟩
  · intro kind _ b hb
    cases hb
  · intro kind hkind b hb
    obtain rfl := Option.some.inj hkind
    obtain rfl := Option.some.inj hb
    exact ⟨rfl, rfl, rfl⟩
  · intro kind _ b hb
    cases hb

/-- The user `a` with the role `b-view` and the user `a-b` with the role `view`
    share a binding: the second call answers success, and its user does not
    get the role it asked for. -/
theorem assignRole_shared_binding :
    ¬ Along (assignStep "local") (AddsExactly "local")
      [⟨"a", "User", "b-view", .clusterRole, none, none⟩,
        ⟨"a-b", "User", "view", .clusterRole, none, none⟩] World.fresh := by
  rintro ⟨-, h, -⟩
  obtain ⟨kind, hkind, hgrants⟩ := h (by decide)
  have hk : SubjectKind.user = kind := Option.some.inj hkind
  subst hk
  have hmem : (⟨⟨.user, "a-b", none⟩, .clusterRole, "view", none⟩ : Grant)
      ∈ grants _ := hgrants ▸ Set.mem_insert _ _
  obtain ⟨b, hb, -, -, hname, -⟩ := hmem
  revert b
  decide

end CvAssign
