import ClusterVision.JitGrantProofs
import ClusterVision.AssignRoleProofs
import ClusterVision.CleanupRunProofs

/-! # JIT grants and permanent assignments

    Both kinds of bindings live under one prefix: `clustervision-jit-{id}` and
    `clustervision-{username}-{role}`.  The cleanup job tells them apart by a
    label, so it never takes an assignment; the functions that address a
    binding by its name meet a JIT binding when the username imitates the
    prefix.  The main result says along which runs they do not. -/

namespace CvSeparation

open CvProg CvRun CvPage CvTable CvIso CvKube CvBackend CvRbac CvAssign
open CvAccess CvGrant CvExpire

/-- The key of a binding. -/
abbrev Key := Option String × String

/-- The binding under a key on a cluster. -/
def bindingAt (w : World) (c : String) (key : Key) : Option Binding :=
  (w.clusters c).bindings.get key

/-! ## Steps -/

/-- A step: one of the functions on bindings, with the cluster of its client,
    or anything else that leaves the bindings alone. -/
inductive SiteStep where
  | approve (cluster requestId reviewer : String)
  | assign (cluster : String) (k : AssignCall)
  | revoke (cluster username roleName : String) (ns : Option String)
  | deleteBindings (cluster username : String)
  | reconcile (cluster : String)
  | outside (f : World → World) (keeps : ∀ w, SameBindings w (f w))

/-- The world after a step. -/
def worldAfter : SiteStep → World → World
  | .approve cluster requestId reviewer, w =>
      jitStep (.approveRequest cluster requestId reviewer) w
  | .assign cluster k, w => assignStep cluster k w
  | .revoke cluster username roleName ns, w =>
      ((revokeRole cluster username roleName ns).run handle w).2
  | .deleteBindings cluster username, w =>
      ((deleteUserBindings ((w.clusters cluster).bindings.rows.length + 1)
        cluster username).run handle w).2
  | .reconcile cluster, w => ((CvExpire.reconcile cluster).run handle w).2
  | .outside f _, w => f w

/-- The binding does not carry the label of JIT bindings. -/
def Unlabelled (b : Binding) : Prop := selected jitSelector b.labels = false

/-- Everything that a step can do to the bindings. -/
inductive SiteEffect (w w' : World) : SiteStep → Prop where
  | calm {a : SiteStep}
      (same : ∀ c key, bindingAt w' c key = bindingAt w c key) :
      SiteEffect w w' a
  | granted {cluster id reviewer : String} {record : AccessRequestRecord}
      {expiresAt : Time}
      (stored : w.db.accessRequests.get id = some record)
      (free : bindingAt w cluster (jitBinding record expiresAt).key = none)
      (put : ∀ c key, bindingAt w' c key
        = if c = cluster ∧ key = (jitBinding record expiresAt).key
          then some (jitBinding record expiresAt) else bindingAt w c key) :
      SiteEffect w w' (.approve cluster id reviewer)
  | assigned {cluster : String} {k : AssignCall} {kind : SubjectKind}
      (valid : SubjectKind.ofText k.userKind = some kind)
      (put : ∀ c key, bindingAt w' c key
        = if c = cluster ∧ key = k.key
          then some (k.outcome (w.clusters cluster) kind)
          else bindingAt w c key) :
      SiteEffect w w' (.assign cluster k)
  | revoked {cluster username roleName : String} {ns : Option String}
      (erased : ∀ c key, bindingAt w' c key
        = if c = cluster ∧ key = (ns, bindingNameFor username roleName)
          then none else bindingAt w c key) :
      SiteEffect w w' (.revoke cluster username roleName ns)
  | cleared {cluster username : String}
      (kept : ∀ c key, bindingAt w' c key
        = if c = cluster then (bindingAt w c key).filter
            (fun b => !startswith b.name (bindingPrefix username))
          else bindingAt w c key) :
      SiteEffect w w' (.deleteBindings cluster username)
  | swept {cluster : String}
      (fewer : ∀ c key b, bindingAt w' c key = some b →
        bindingAt w c key = some b)
      (kept : ∀ c key b, bindingAt w c key = some b → Unlabelled b →
        bindingAt w' c key = some b) :
      SiteEffect w w' (.reconcile cluster)

/-- The bindings after a change of one cluster. -/
theorem bindingAt_of_cluster {w w' : World} {cluster : String}
    {t : Table Binding Binding.key}
    (hcluster : (w'.clusters cluster).bindings = t)
    (hothers : ∀ c, c ≠ cluster →
      (w'.clusters c).bindings = (w.clusters c).bindings) (c : String)
    (key : Key) :
    bindingAt w' c key
      = if c = cluster then t.get key else bindingAt w c key := by
  by_cases hc : c = cluster
  · rw [if_pos hc, hc, bindingAt, hcluster]
  · rw [if_neg hc, bindingAt, hothers c hc]
    rfl

/-- A program on one cluster leaves the bindings of the others alone. -/
theorem others_of_kubeOn {α : Type} {cluster : String} {p : Svc α}
    (hp : p.Uses (KubeOn cluster)) (w : World) :
    ∀ c, c ≠ cluster → (((p.run handle w).2).clusters c).bindings
      = (w.clusters c).bindings := by
  intro c hc
  rw [run_cluster_of_uses (hp.imp KubeOn.onCluster) hc]

theorem and_if {α : Type} {p q : Prop} [Decidable p] [Decidable q]
    (x y : α) : (if p then (if q then x else y) else y)
      = if p ∧ q then x else y := by
  by_cases hp : p
  · by_cases hq : q
    · rw [if_pos hp, if_pos hq, if_pos ⟨hp, hq⟩]
    · rw [if_pos hp, if_neg hq, if_neg (fun h => hq h.2)]
  · rw [if_neg hp, if_neg (fun h => hp h.1)]

/-! ## The cleanup job -/

/-- The job leaves every binding without the label alone. -/
theorem reconcile_keeps {w : World} {cluster : String} {key : Key}
    {b : Binding} (hb : bindingAt w cluster key = some b)
    (hlabel : Unlabelled b) :
    bindingAt ((CvExpire.reconcile cluster).run handle w).2 cluster key
      = some b := by
  -- a pass takes expired bindings with the label and nothing else
  obtain rfl : b.key = key := Table.key_of_get hb
  refine Table.get_of_mem (CvCleanup.reconcile_spares (Table.mem_of_get hb) ?_)
  rintro ⟨hselected, -⟩
  rw [hlabel] at hselected
  exact nomatch hselected

/-- The job acts on the cluster of its client. -/
theorem reconcile_onCluster (cluster : String) :
    (CvExpire.reconcile cluster).Uses (OnCluster cluster) := by
  have hloop : ∀ (t : Time) (ns : Binding → Option String)
      (xs : List Binding) (n : Nat), (xs.foldlM (fun revoked b =>
        expireBinding cluster t (ns b) revoked b) n).Uses
          (OnCluster cluster) := by
    intro t ns xs n
    exact Prog.uses_foldlM (fun m _ _ =>
      expireBinding_uses (P := OnCluster cluster) t rfl m) n
  refine Prog.uses_bind (Prog.uses_perform trivial) (fun t => ?_)
  refine Prog.uses_bind (Prog.uses_perform rfl) (fun crbs => ?_)
  refine Prog.uses_bind (hloop t (fun _ => none) _ _) (fun n => ?_)
  refine Prog.uses_bind (Prog.uses_perform rfl) (fun rbs => ?_)
  exact hloop t Binding.ns _ _

/-! ## Effects -/

theorem approve_effect (cluster id reviewer : String) (w : World) :
    SiteEffect w (worldAfter (.approve cluster id reviewer) w)
      (.approve cluster id reviewer) := by
  have heff := jitCall_effect (.approveRequest cluster id reviewer) w
  rw [worldAfter]
  generalize created (.approveRequest cluster id reviewer) w = bs at heff
  generalize jitStep (.approveRequest cluster id reviewer) w = w' at heff ⊢
  cases heff with
  | calm requests bindings =>
      refine .calm (fun c key => ?_)
      rw [bindingAt, bindings c]
      rfl
  | @approved _ _ _ record t expiresAt _ approvable free requests bindings
      others =>
      refine .granted approvable.stored free (fun c key => ?_)
      rw [bindingAt_of_cluster bindings others, Table.get_put]
      by_cases hc : c = cluster
      · rw [hc]
        exact and_if _ _
      · rw [if_neg hc, if_neg (fun h => hc h.1)]

theorem assign_effect (cluster : String) (k : AssignCall) (w : World) :
    SiteEffect w (worldAfter (.assign cluster k) w) (.assign cluster k) := by
  rw [worldAfter, assignStep]
  cases hkind : SubjectKind.ofText k.userKind with
  | none =>
      rw [run_assignRole_badKind hkind]
      exact .calm (fun _ _ => rfl)
  | some kind =>
      obtain ⟨-, hbind, -⟩ := run_assignRole cluster w hkind
      have hothers := others_of_kubeOn (p := k.prog cluster)
        (assignRole_kubeOn _ _ _ _ _ _ _) w
      refine .assigned hkind (fun c key => ?_)
      rw [bindingAt_of_cluster hbind hothers, Table.get_put]
      have hkey : (k.outcome (w.clusters cluster) kind).key = k.key := by
        rw [AssignCall.outcome]
        cases hb : (w.clusters cluster).bindings.get k.key with
        | none => rfl
        | some b => exact (Table.key_of_get hb : b.key = k.key)
      rw [hkey]
      by_cases hc : c = cluster
      · rw [hc]
        exact and_if _ _
      · rw [if_neg hc, if_neg (fun h => hc h.1)]

theorem revoke_effect (cluster username roleName : String)
    (ns : Option String) (w : World) :
    SiteEffect w (worldAfter (.revoke cluster username roleName ns) w)
      (.revoke cluster username roleName ns) := by
  rw [worldAfter]
  have hothers := others_of_kubeOn
    (revokeRole_kubeOn cluster username roleName ns) w
  refine .revoked (fun c key => ?_)
  rw [revokeRole, run_deleteBinding] at hothers ⊢
  rw [bindingAt_of_cluster (setBindings_self _) hothers, Table.get_erase]
  by_cases hc : c = cluster
  · rw [hc]
    exact and_if _ _
  · rw [if_neg hc, if_neg (fun h => hc h.1)]

theorem deleteBindings_effect (cluster username : String) (w : World) :
    SiteEffect w (worldAfter (.deleteBindings cluster username) w)
      (.deleteBindings cluster username) := by
  rw [worldAfter]
  have hothers := others_of_kubeOn (deleteUserBindings_kubeOn
    ((w.clusters cluster).bindings.rows.length + 1) cluster username) w
  refine .cleared (fun c key => ?_)
  rw [run_deleteUserBindings (Nat.lt_succ_self _)] at hothers ⊢
  rw [bindingAt_of_cluster (setBindings_self _) hothers, Table.get_keep_eq]
  by_cases hc : c = cluster
  · rw [if_pos hc, if_pos hc, hc]
    rfl
  · rw [if_neg hc, if_neg hc]

theorem reconcile_effect (cluster : String) (w : World) :
    SiteEffect w (worldAfter (.reconcile cluster) w) (.reconcile cluster) := by
  rw [worldAfter]
  refine .swept ?_ ?_
  · intro c key b hb
    have hshrunk := (reconcile_uses cluster).run_keeps
      (R := fun w w' => Shrunk w w') Shrunk.refl Shrunk.trans
      (fun _ w hop => shrunk_of_sweeping hop w) w
    obtain ⟨hmem, hkey⟩ := Table.get_eq_some_iff.mp hb
    exact Table.get_eq_some_iff.mpr ⟨hshrunk.bindings c b hmem, hkey⟩
  · intro c key b hb hlabel
    by_cases hc : c = cluster
    · rw [hc] at hb ⊢
      exact reconcile_keeps hb hlabel
    · rw [bindingAt, run_cluster_of_uses (reconcile_onCluster cluster) hc]
      exact hb

/-- Every step has one of the effects. -/
theorem site_effect (a : SiteStep) (w : World) :
    SiteEffect w (worldAfter a w) a := by
  cases a with
  | approve cluster id reviewer => exact approve_effect cluster id reviewer w
  | assign cluster k => exact assign_effect cluster k w
  | revoke cluster username roleName ns =>
      exact revoke_effect cluster username roleName ns w
  | deleteBindings cluster username =>
      exact deleteBindings_effect cluster username w
  | reconcile cluster => exact reconcile_effect cluster w
  | outside f keeps =>
      refine .calm (fun c key => ?_)
      rw [worldAfter, bindingAt, keeps w c]
      rfl

/-! ## Who has created which binding -/

/-- What has created a binding: the approval of a request for a user, or an
    assignment. -/
inductive Creator where
  | grant (id target : String)
  | assignment
deriving DecidableEq

/-- What a step creates. -/
def creator (w : World) : SiteStep → Option Creator
  | .approve _ id _ => (w.db.accessRequests.get id).map
      (fun r => .grant id r.targetUsername)
  | .assign _ _ => some .assignment
  | _ => none

/-- The world, and beside it what has created each binding. -/
structure Site where
  world : World
  creators : String → Key → Option Creator

/-- The creator of what is under a key after a step: the step itself, when
    there was nothing before. -/
def creatorAfter (mk : Option Creator) (before now : Option Binding)
    (old : Option Creator) : Option Creator :=
  if now = none then none else if before = none then mk else old

/-- The site after a step. -/
def siteStep (a : SiteStep) (s : Site) : Site where
  world := worldAfter a s.world
  creators := fun c key => creatorAfter (creator s.world a)
    (bindingAt s.world c key) (bindingAt (worldAfter a s.world) c key)
    (s.creators c key)

/-- The user whose bindings a step is to write or delete. -/
def actsFor : SiteStep → Option String
  | .assign _ k => some k.username
  | .revoke _ username _ _ => some username
  | .deleteBindings _ username => some username
  | _ => none

/-- Assignments, revocations and deletions for a user leave the bindings of
    approved requests for other users as they are. -/
def SparesGrants (s : Site) (a : SiteStep) : Prop :=
  ∀ username, actsFor a = some username →
    ∀ c key id target, s.creators c key = some (.grant id target) →
      target ≠ username →
      bindingAt (worldAfter a s.world) c key = bindingAt s.world c key

/-- The cleanup job leaves the bindings of assignments as they are. -/
def SparesAssignments (s : Site) (a : SiteStep) : Prop :=
  ∀ cluster, a = .reconcile cluster →
    ∀ c key, s.creators c key = some .assignment →
      bindingAt (worldAfter a s.world) c key = bindingAt s.world c key

/-- No username and role imitate the name of the binding of a request for
    another user: `{username}-{role}` is not `jit-{id}` of such a binding in
    the scope of the call, and where all bindings of a user are deleted,
    `{username}-` is not the start of `jit-{id}`. -/
def Apart (s : Site) : SiteStep → Prop
  | .assign cluster k => SubjectKind.ofText k.userKind ≠ none →
      ∀ key id target, s.creators cluster key = some (.grant id target) →
        key.1 = k.scope → k.username ++ "-" ++ k.roleName = "jit-" ++ id →
        target = k.username
  | .revoke cluster username roleName ns =>
      ∀ key id target, s.creators cluster key = some (.grant id target) →
        key.1 = ns → username ++ "-" ++ roleName = "jit-" ++ id →
        target = username
  | .deleteBindings cluster username =>
      ∀ key id target, s.creators cluster key = some (.grant id target) →
        startswith ("jit-" ++ id) (username ++ "-") = true →
        target = username
  | _ => True

-- The two facts on texts are about any texts: matching on the constants of the
-- program is slow.
theorem append_four (start username dash roleName : String) :
    start ++ username ++ dash ++ roleName
      = start ++ (username ++ dash ++ roleName) := by
  rw [String.append_assoc, String.append_assoc, String.append_assoc]

theorem append_of_eq {start mid whole : String} (h : start ++ mid = whole)
    (id : String) : whole ++ id = start ++ (mid ++ id) := by
  rw [← h, String.append_assoc]

/-- The name of a request's binding, after the common prefix. -/
theorem jitBindingName_eq (id : String) :
    jitBindingName id = "clustervision-" ++ ("jit-" ++ id) :=
  append_of_eq (by simp) id

/-- The names of an assignment and of a request are the same. -/
theorem bindingNameFor_eq_iff (username roleName id : String) :
    bindingNameFor username roleName = jitBindingName id
      ↔ username ++ "-" ++ roleName = "jit-" ++ id := by
  have hname : bindingNameFor username roleName
      = "clustervision-" ++ (username ++ "-" ++ roleName) :=
    append_four "clustervision-" username "-" roleName
  rw [jitBindingName_eq, hname, String.append_right_inj]

/-- A prefix of one name is a prefix of the other. -/
theorem startswith_append (start text tail : String) :
    startswith (start ++ text) (start ++ tail) = startswith text tail := by
  rw [startswith, startswith, String.toList_append, String.toList_append]
  induction start.toList with
  | nil => rfl
  | cons c cs ih =>
      rw [List.cons_append, List.cons_append, List.isPrefixOf_cons_cons_self]
      exact ih

theorem startswith_jitBindingName (username id : String) :
    startswith (jitBindingName id) (bindingPrefix username)
      = startswith ("jit-" ++ id) (username ++ "-") := by
  have hprefix : bindingPrefix username
      = "clustervision-" ++ (username ++ "-") := String.append_assoc
  rw [jitBindingName_eq, hprefix, startswith_append]

/-- A binding with a creator is there; it is new, or it was there before. -/
theorem creatorAfter_some {mk old : Option Creator}
    {before now : Option Binding} {x : Creator}
    (h : creatorAfter mk before now old = some x) :
    ∃ b', now = some b' ∧ ((before = none ∧ mk = some x) ∨
      ∃ b, before = some b ∧ old = some x) := by
  rw [creatorAfter] at h
  cases now with
  | none => exact nomatch h
  | some b' =>
      cases before with
      | none => exact ⟨b', rfl, Or.inl ⟨rfl, h⟩⟩
      | some b => exact ⟨b', rfl, Or.inr ⟨b, rfl, h⟩⟩

/-- A binding that is new under a key is that of an approval or of an
    assignment. -/
theorem new_binding {w w' : World} {a : SiteStep} (h : SiteEffect w w' a)
    {c : String} {key : Key} {b : Binding} (hbefore : bindingAt w c key = none)
    (hnow : bindingAt w' c key = some b) :
    (∃ cluster id reviewer record expiresAt,
      a = .approve cluster id reviewer ∧
      w.db.accessRequests.get id = some record ∧
      key = (jitBinding record expiresAt).key ∧
      b = jitBinding record expiresAt) ∨
    ∃ cluster k kind, a = .assign cluster k ∧ b = k.binding kind := by
  cases h with
  | calm same =>
      rw [same, hbefore] at hnow
      cases hnow
  | @granted cluster id reviewer record expiresAt stored free put =>
      rw [put, hbefore] at hnow
      by_cases hk : c = cluster ∧ key = (jitBinding record expiresAt).key
      · rw [if_pos hk] at hnow
        exact Or.inl ⟨cluster, id, reviewer, record, expiresAt, rfl, stored,
          hk.2, (Option.some.inj hnow).symm⟩
      · rw [if_neg hk] at hnow
        cases hnow
  | @assigned cluster k kind valid put =>
      rw [put, hbefore] at hnow
      by_cases hk : c = cluster ∧ key = k.key
      · rw [if_pos hk, AssignCall.outcome] at hnow
        obtain ⟨rfl, rfl⟩ := hk
        rw [show (w.clusters c).bindings.get k.key = none from hbefore] at hnow
        exact Or.inr ⟨c, k, kind, rfl, (Option.some.inj hnow).symm⟩
      · rw [if_neg hk] at hnow
        cases hnow
  | revoked erased =>
      rw [erased, hbefore, ite_self] at hnow
      cases hnow
  | cleared kept =>
      rw [kept, hbefore, Option.filter_none, ite_self] at hnow
      cases hnow
  | swept fewer kept =>
      rw [fewer c key b hnow] at hbefore
      cases hbefore

/-- A binding that stays is as it was, or an assignment has patched it. -/
theorem old_binding {w w' : World} {a : SiteStep} (h : SiteEffect w w' a)
    {c : String} {key : Key} {b b' : Binding}
    (hbefore : bindingAt w c key = some b)
    (hnow : bindingAt w' c key = some b') :
    b' = b ∨ ∃ k kind, a = .assign c k ∧ key = k.key ∧
      SubjectKind.ofText k.userKind = some kind ∧
      b' = b.patched (w.clusters c).patchMode (k.subject kind) := by
  cases h with
  | calm same =>
      rw [same, hbefore] at hnow
      exact Or.inl (Option.some.inj hnow).symm
  | @granted cluster id reviewer record expiresAt stored free put =>
      rw [put, hbefore, if_neg] at hnow
      · exact Or.inl (Option.some.inj hnow).symm
      · rintro ⟨rfl, rfl⟩
        rw [free] at hbefore
        exact nomatch hbefore
  | @assigned cluster k kind valid put =>
      rw [put, hbefore] at hnow
      by_cases hk : c = cluster ∧ key = k.key
      · rw [if_pos hk, AssignCall.outcome] at hnow
        obtain ⟨rfl, rfl⟩ := hk
        rw [show (w.clusters c).bindings.get k.key = some b from hbefore]
          at hnow
        exact Or.inr ⟨k, kind, rfl, rfl, valid, (Option.some.inj hnow).symm⟩
      · rw [if_neg hk] at hnow
        exact Or.inl (Option.some.inj hnow).symm
  | @revoked cluster username roleName ns erased =>
      rw [erased, hbefore] at hnow
      by_cases hk : c = cluster ∧ key = (ns, bindingNameFor username roleName)
      · rw [if_pos hk] at hnow
        exact nomatch hnow
      · rw [if_neg hk] at hnow
        exact Or.inl (Option.some.inj hnow).symm
  | @cleared cluster username kept =>
      rw [kept, hbefore] at hnow
      by_cases hc : c = cluster
      · rw [if_pos hc] at hnow
        exact Or.inl (Option.some.inj
          (Option.eq_some_of_filter_eq_some hnow)).symm
      · rw [if_neg hc] at hnow
        exact Or.inl (Option.some.inj hnow).symm
  | swept fewer kept =>
      have hold := fewer c key b' hnow
      rw [hbefore] at hold
      exact Or.inl (Option.some.inj hold).symm

/-! ## The cleanup job spares assignments -/

/-- The bindings of assignments do not carry the label. -/
def AssignmentsUnlabelled (s : Site) : Prop :=
  ∀ c key, s.creators c key = some .assignment →
    ∃ b, bindingAt s.world c key = some b ∧ Unlabelled b

theorem assignmentsUnlabelled_step {s : Site} (hs : AssignmentsUnlabelled s)
    (a : SiteStep) : AssignmentsUnlabelled (siteStep a s) := by
  intro c key h
  obtain ⟨b', hnow, ⟨hbefore, hmk⟩ | ⟨b, hbefore, hold⟩⟩ := creatorAfter_some h
  · refine ⟨b', hnow, ?_⟩
    rcases new_binding (site_effect a s.world) hbefore hnow with
      ⟨cluster, id, reviewer, record, expiresAt, rfl, hstored, -, -⟩ |
        ⟨cluster, k, kind, -, rfl⟩
    · rw [creator, hstored] at hmk
      exact nomatch hmk
    · exact (by decide : selected jitSelector (managedBy.merge []) = false)
  · refine ⟨b', hnow, ?_⟩
    obtain ⟨x, hx, hlabel⟩ := hs c key hold
    rw [hbefore] at hx
    obtain rfl := Option.some.inj hx
    rcases old_binding (site_effect a s.world) hbefore hnow with
      rfl | ⟨k, kind, -, -, -, rfl⟩
    · exact hlabel
    · exact hlabel

theorem sparesAssignments_of_unlabelled {s : Site}
    (hs : AssignmentsUnlabelled s) (a : SiteStep) : SparesAssignments s a := by
  rintro cluster rfl c key h
  obtain ⟨b, hb, hlabel⟩ := hs c key h
  rw [hb]
  cases site_effect (.reconcile cluster) s.world with
  | calm same => exact (same c key).trans hb
  | swept fewer kept => exact kept c key b hb hlabel

/-! ## Grants -/

/-- The binding of a request has the request's name, and its subjects are the
    user that it was approved for. -/
def GrantsKept (s : Site) : Prop :=
  ∀ c key id target, s.creators c key = some (.grant id target) →
    key.2 = jitBindingName id ∧
    ∃ b, bindingAt s.world c key = some b ∧ ∀ x ∈ b.subjects, x.name = target

/-- A patch with a subject of the same name. -/
theorem patchSubjects_names {mode : PatchMode} {old : List Subject}
    {new : Subject} {name : String} (hold : ∀ x ∈ old, x.name = name)
    (hnew : new.name = name) :
    ∀ x ∈ patchSubjects mode old new, x.name = name := by
  intro x hx
  cases mode with
  | replace =>
      rw [List.mem_singleton.mp hx]
      exact hnew
  | mergeByName =>
      rw [patchSubjects] at hx
      by_cases hany : old.any (fun s => decide (s.name = new.name)) = true
      · rw [if_pos hany] at hx
        obtain ⟨y, hy, rfl⟩ := List.mem_map.mp hx
        by_cases hyn : y.name = new.name
        · rw [if_pos hyn]
          exact hnew
        · rw [if_neg hyn]
          exact hold y hy
      · rw [if_neg hany] at hx
        rcases List.mem_append.mp hx with hx | hx
        · exact hold x hx
        · rw [List.mem_singleton.mp hx]
          exact hnew

/-- A patch with a subject of a new name adds that name. -/
theorem exists_mem_patchSubjects (mode : PatchMode) (old : List Subject)
    (new : Subject) (hold : ∀ x ∈ old, x.name ≠ new.name) :
    ∃ x ∈ patchSubjects mode old new, x.name = new.name := by
  cases mode with
  | replace => exact ⟨new, List.mem_singleton_self _, rfl⟩
  | mergeByName =>
      rw [patchSubjects]
      have hany : old.any (fun s => decide (s.name = new.name)) = false := by
        rw [List.any_eq_false]
        intro x hx
        rw [decide_eq_true_eq]
        exact hold x hx
      refine ⟨new, ?_, rfl⟩
      simp only [hany]
      exact List.mem_append_right _ (List.mem_singleton_self _)

/-- A step that imitates no other user's request keeps the grants. -/
theorem grantsKept_step {s : Site} {a : SiteStep} (hs : GrantsKept s)
    (ha : Apart s a) : GrantsKept (siteStep a s) := by
  intro c key id target h
  obtain ⟨b', hnow, ⟨hbefore, hmk⟩ | ⟨b, hbefore, hold⟩⟩ := creatorAfter_some h
  · rcases new_binding (site_effect a s.world) hbefore hnow with
      ⟨cluster, id', reviewer, record, expiresAt, rfl, hstored, hkey, rfl⟩ |
        ⟨cluster, k, kind, rfl, -⟩
    · rw [creator, hstored, Option.map_some] at hmk
      obtain ⟨rfl, rfl⟩ := Creator.grant.inj (Option.some.inj hmk)
      refine ⟨?_, _, hnow, ?_⟩
      · rw [hkey, jitBinding_key, ← Table.key_of_get hstored]
      · intro x hx
        have hsubjects : (jitBinding record expiresAt).subjects
            = [requestSubject record] := by
          rw [jitBinding]
          by_cases hn : truthy record.ns = true
          · rw [if_pos hn]
            rfl
          · rw [if_neg hn]
            rfl
        rw [hsubjects] at hx
        rw [List.mem_singleton.mp hx]
        rfl
    · cases hmk
  · obtain ⟨hname, x, hx, hsubjects⟩ := hs c key id target hold
    rw [hbefore] at hx
    obtain rfl := Option.some.inj hx
    refine ⟨hname, b', hnow, ?_⟩
    rcases old_binding (site_effect a s.world) hbefore hnow with
      rfl | ⟨k, kind, rfl, rfl, hkind, rfl⟩
    · exact hsubjects
    · -- the assignment is for the same user, or its name would imitate
      have htarget : target = k.username := by
        refine ha ?_ k.key id target hold rfl
          ((bindingNameFor_eq_iff _ _ _).mp hname)
        rw [hkind]
        exact Option.some_ne_none kind
      exact patchSubjects_names hsubjects htarget.symm

/-- Such a step spares the grants of other users. -/
theorem sparesGrants_of_apart {s : Site} {a : SiteStep} (hs : GrantsKept s)
    (ha : Apart s a) : SparesGrants s a := by
  intro username hu c key id target hold hne
  obtain ⟨hname, b, hb, -⟩ := hs c key id target hold
  cases site_effect a s.world with
  | calm same => exact same c key
  | granted | swept => exact nomatch hu
  | @assigned cluster k kind valid put =>
      obtain rfl := Option.some.inj hu
      rw [put, if_neg]
      rintro ⟨rfl, rfl⟩
      refine hne (ha ?_ k.key id target hold rfl
        ((bindingNameFor_eq_iff _ _ _).mp hname))
      rw [valid]
      exact nofun
  | @revoked cluster username' roleName ns erased =>
      obtain rfl := Option.some.inj hu
      rw [erased, if_neg]
      rintro ⟨rfl, rfl⟩
      exact hne (ha _ id target hold rfl
        ((bindingNameFor_eq_iff _ _ _).mp hname))
  | @cleared cluster username' kept =>
      obtain rfl := Option.some.inj hu
      rw [kept, hb]
      by_cases hc : c = cluster
      · rw [if_pos hc]
        have hbname : b.name = jitBindingName id :=
          (congrArg Prod.snd (Table.key_of_get hb)).trans hname
        rw [Option.filter_some, hbname, startswith_jitBindingName]
        cases hstart : startswith ("jit-" ++ id) (username' ++ "-") with
        | false => rfl
        | true =>
            rw [hc] at hold
            exact absurd (ha key id target hold hstart) hne
      · rw [if_neg hc]

/-- A step that spares the grants of other users imitates none of them. -/
theorem apart_of_sparesGrants {s : Site} {a : SiteStep} (hs : GrantsKept s)
    (ha : SparesGrants s a) : Apart s a := by
  cases a with
  | approve | reconcile | outside => trivial
  | assign cluster k =>
      intro hvalid key id target hold hscope hname
      by_contra hne
      obtain ⟨hkey, b, hb, hsubjects⟩ := hs cluster key id target hold
      obtain ⟨kind, hkind⟩ := Option.ne_none_iff_exists'.mp hvalid
      have hkeys : key = k.key :=
        Prod.ext hscope (hkey.trans ((bindingNameFor_eq_iff _ _ _).mpr
          hname).symm)
      have hsame := ha k.username rfl cluster key id target hold hne
      rw [hb] at hsame
      obtain ⟨-, hbind, -⟩ := run_assignRole cluster s.world hkind
      have hput : bindingAt (worldAfter (.assign cluster k) s.world) cluster key
          = some (k.outcome (s.world.clusters cluster) kind) := by
        show ((assignStep cluster k s.world).clusters
          cluster).bindings.get key = _
        rw [assignStep, hbind, Table.get_put, if_pos]
        rw [AssignCall.outcome, ← hkeys,
          show (s.world.clusters cluster).bindings.get key = some b from hb]
        exact (Table.key_of_get hb).symm
      rw [hput, AssignCall.outcome, ← hkeys,
        show (s.world.clusters cluster).bindings.get key = some b from hb]
        at hsame
      -- the patched binding has a subject with the name of the call
      obtain ⟨x, hx, hxname⟩ := exists_mem_patchSubjects
        (s.world.clusters cluster).patchMode b.subjects (k.subject kind)
        (fun x hx hxn => hne ((hsubjects x hx).symm.trans hxn))
      have hpatched : b.patched (s.world.clusters cluster).patchMode
          (k.subject kind) = b := Option.some.inj hsame
      have hmem : x ∈ b.subjects := by
        rw [← hpatched]
        exact hx
      exact hne ((hsubjects x hmem).symm.trans hxname)
  | revoke cluster username roleName ns =>
      intro key id target hold hscope hname
      by_contra hne
      obtain ⟨hkey, b, hb, -⟩ := hs cluster key id target hold
      have hkeys : key = (ns, bindingNameFor username roleName) :=
        Prod.ext hscope (hkey.trans ((bindingNameFor_eq_iff _ _ _).mpr
          hname).symm)
      have hsame := ha username rfl cluster key id target hold hne
      have hgone : bindingAt (worldAfter (.revoke cluster username roleName ns)
          s.world) cluster key = none := by
        show ((((revokeRole cluster username roleName ns).run handle
          s.world).2).clusters cluster).bindings.get key = none
        rw [revokeRole, run_deleteBinding, setBindings_self, hkeys,
          Table.get_erase_self]
      rw [hgone, hb] at hsame
      cases hsame
  | deleteBindings cluster username =>
      intro key id target hold hstart
      by_contra hne
      obtain ⟨hkey, b, hb, -⟩ := hs cluster key id target hold
      have hsame := ha username rfl cluster key id target hold hne
      have hbname : b.name = jitBindingName id :=
        (congrArg Prod.snd (Table.key_of_get hb)).trans hkey
      have hgone : bindingAt (worldAfter (.deleteBindings cluster username)
          s.world) cluster key = none := by
        show ((((deleteUserBindings _ cluster username).run handle
          s.world).2).clusters cluster).bindings.get key = none
        rw [run_deleteUserBindings (Nat.lt_succ_self _), setBindings_self,
          Table.get_keep_eq,
          show (s.world.clusters cluster).bindings.get key = some b from hb,
          Option.filter_some, hbname, startswith_jitBindingName, hstart]
        rfl
      rw [hgone, hb] at hsame
      cases hsame

/-! ## Runs -/

/-- Nothing is known of the bindings that are there. -/
def Site.start (w : World) : Site := ⟨w, fun _ _ => none⟩

/-- Along every run: the cleanup job never touches a binding that an
    assignment has created; and no assignment, revocation or deletion for a
    user touches a binding that was created by approving a request for another
    one, exactly when no username and role imitate the name of such a
    binding. -/
theorem grants_separate (w : World) (steps : List SiteStep) :
    Along siteStep SparesAssignments steps (Site.start w) ∧
    (Along siteStep SparesGrants steps (Site.start w)
      ↔ Along siteStep Apart steps (Site.start w)) := by
  constructor
  · refine along_of_inv (fun s a hs => assignmentsUnlabelled_step hs a)
      (fun s a hs => sparesAssignments_of_unlabelled hs a) ?_ steps
    intro c key h
    exact nomatch h
  · have hstep : ∀ s a, GrantsKept s → SparesGrants s a →
        GrantsKept (siteStep a s) :=
      fun s a hs ha => grantsKept_step hs (apart_of_sparesGrants hs ha)
    refine along_congr hstep ?_ ?_ steps
    · exact fun s a hs =>
        ⟨apart_of_sparesGrants hs, sparesGrants_of_apart hs⟩
    · intro c key id target h
      exact nomatch h

/-- The creation of a request, which is a step outside. -/
def create (q : RequestSpec) : SiteStep :=
  .outside (jitStep (.createRequest q)) (fun w => by
    have heff := jitCall_effect (.createRequest q) w
    generalize created (.createRequest q) w = bs at heff
    generalize jitStep (.createRequest q) w = w' at heff ⊢
    cases heff with
    | calm requests bindings => exact bindings
    | requested free inNamespace requests bindings => exact bindings)

/-- Deleting the bindings of a user called `jit` deletes those of all approved
    requests. -/
theorem jit_imitates :
    ¬ SparesGrants (after siteStep
        [create bobsRequest, .approve "local" "0" "carol"]
        (Site.start World.fresh))
      (.deleteBindings "local" "jit") := by
  intro h
  have hsame := h "jit" rfl "local" (none, "clustervision-jit-0") "0" "ada"
    (by decide) (by decide)
  exact absurd hsame (by decide)

end CvSeparation
