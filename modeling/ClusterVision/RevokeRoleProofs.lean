import ClusterVision.AssignRoleProofs

/-! # What revoke_role takes away

    `revoke_role` deletes one binding, by the name that `assign_role` would
    have given it, in the scope that it is asked for.  The permissions of a
    user are read from the subjects of all bindings.  The first result says
    when the two views agree; the second one when a call undoes an
    assignment. -/

namespace CvRevoke

open CvProg CvTable CvKube CvBackend CvRbac CvAssign

variable {cluster username roleName : String} {ns : Option String} {w : World}

/-! ## One call -/

/-- The key of the binding that a call deletes. -/
def revokedKey (username roleName : String) (ns : Option String) :
    Option String × String :=
  (ns, bindingNameFor username roleName)

/-- The world after a call. -/
def revokeStep (cluster username roleName : String) (ns : Option String)
    (w : World) : World :=
  ((revokeRole cluster username roleName ns).run handle w).2

/-- A call returns, and its binding has gone. -/
theorem run_revokeRole (cluster username roleName : String)
    (ns : Option String) (w : World) :
    (revokeRole cluster username roleName ns).run handle w
      = (.ok (), setBindings w cluster ((w.clusters cluster).bindings.erase
          (revokedKey username roleName ns))) :=
  run_deleteBinding ns (bindingNameFor username roleName) w

theorem revokeStep_bindings (cluster username roleName : String)
    (ns : Option String) (w : World) :
    ((revokeStep cluster username roleName ns w).clusters cluster).bindings
      = (w.clusters cluster).bindings.erase
          (revokedKey username roleName ns) := by
  rw [revokeStep, run_revokeRole]
  exact setBindings_self _

/-- Deleting a binding leaves what the other ones grant. -/
theorem mem_grants_erase {t : Table Binding Binding.key}
    {k : Option String × String} {g : Grant} :
    g ∈ grants (t.erase k)
      ↔ ∃ b ∈ t.rows, b.key ≠ k ∧ g ∈ bindingGrants b := by
  constructor
  · rintro ⟨b, hb, hg⟩
    obtain ⟨hrow, hk⟩ := Table.mem_erase.mp hb
    exact ⟨b, hrow, hk, hg⟩
  · rintro ⟨b, hb, hk, hg⟩
    exact ⟨b, Table.mem_erase.mpr ⟨hb, hk⟩, hg⟩

/-! ## The permissions of a user -/

/-- What `get_user_permissions` answers. -/
def permissionsOf (cluster username : String) (w : World) :
    Except Exn UserPermissions :=
  ((getUserPermissions ((w.clusters cluster).bindings.rows.length + 1) cluster
    username).run handle w).1

/-- The bindings of one scope: those of the cluster, or of a namespace. -/
def inScope (p : UserPermissions) : Option String → List BindingRead
  | none => p.clusterBindings
  | some ns => p.namespaceBindings.filter (fun b => decide (b.ns = some ns))

/-- The bindings of a scope that are shown are those that refer to the user. -/
theorem permissionsOf_inScope (cluster username : String) (w : World) :
    ∃ p, permissionsOf cluster username w = .ok p ∧
      ∀ (ns : Option String) (r : BindingRead), r ∈ inScope p ns ↔
        ∃ b ∈ (w.clusters cluster).bindings.rows, b.ns = ns ∧
          references username b = true ∧ bindingRead b = r := by
  refine ⟨_, congrArg Prod.fst
    (run_getUserPermissions username (Nat.lt_succ_self _)), ?_⟩
  intro ns r
  cases ns with
  | none =>
      rw [inScope, List.mem_map]
      simp only [crbs, List.mem_filter, Option.isNone_iff_eq_none]
      constructor
      · rintro ⟨b, ⟨⟨hb, hns⟩, href⟩, rfl⟩
        exact ⟨b, hb, hns, href, rfl⟩
      · rintro ⟨b, hb, hns, href, rfl⟩
        exact ⟨b, ⟨⟨hb, hns⟩, href⟩, rfl⟩
  | some n =>
      rw [inScope, List.mem_filter, List.mem_map]
      simp only [rbs, List.mem_filter, decide_eq_true_eq]
      constructor
      · rintro ⟨⟨b, ⟨⟨hb, -⟩, href⟩, rfl⟩, hns⟩
        exact ⟨b, hb, hns, href, rfl⟩
      · rintro ⟨b, hb, hns, href, rfl⟩
        exact ⟨⟨b, ⟨⟨hb, by rw [hns]; rfl⟩, href⟩, rfl⟩, hns⟩

/-! ## Taking a role away -/

/-- The user does not have the role in the scope any more, and all that others
    were granted is as it was. -/
structure TakesAway (cluster username roleName : String) (ns : Option String)
    (before after : World) : Prop where
  gone : ∃ p, permissionsOf cluster username after = .ok p ∧
    ∀ b ∈ inScope p ns, b.roleRef ≠ roleName
  others : ∀ g : Grant, g.subject.name ≠ username →
    (g ∈ grants (after.clusters cluster).bindings ↔
      g ∈ grants (before.clusters cluster).bindings)

/-- The user has the role through the binding of its name only, and what that
    binding grants to others another one grants as well. -/
structure Revocable (c : Cluster) (username roleName : String)
    (ns : Option String) : Prop where
  named : ∀ b ∈ c.bindings.rows, b.ns = ns → b.roleRef.name = roleName →
    references username b = true → b.name = bindingNameFor username roleName
  covered : ∀ b ∈ c.bindings.rows, b.key = revokedKey username roleName ns →
    ∀ s ∈ b.subjects, s.name ≠ username →
      ∃ b' ∈ c.bindings.rows, b'.key ≠ b.key ∧ b'.ns = b.ns ∧
        b'.roleRef.kind = b.roleRef.kind ∧
        b'.roleRef.name = b.roleRef.name ∧ s ∈ b'.subjects

/-- The role is gone exactly when no other binding gives it to the user. -/
theorem gone_iff (cluster username roleName : String) (ns : Option String)
    (w : World) :
    (∃ p, permissionsOf cluster username
        (revokeStep cluster username roleName ns w) = .ok p ∧
      ∀ b ∈ inScope p ns, b.roleRef ≠ roleName) ↔
    ∀ b ∈ (w.clusters cluster).bindings.rows, b.ns = ns →
      b.roleRef.name = roleName → references username b = true →
      b.name = bindingNameFor username roleName := by
  obtain ⟨p, hp, hmem⟩ := permissionsOf_inScope cluster username
    (revokeStep cluster username roleName ns w)
  rw [revokeStep_bindings] at hmem
  constructor
  · rintro ⟨p', hp', hgone⟩ b hb hns hrole href
    obtain rfl := Except.ok.inj (hp.symm.trans hp')
    by_contra hname
    have hkey : b.key ≠ revokedKey username roleName ns :=
      fun h => hname (congrArg Prod.snd h)
    exact hgone _ ((hmem ns _).mpr
      ⟨b, Table.mem_erase.mpr ⟨hb, hkey⟩, hns, href, rfl⟩) hrole
  · intro hnamed
    refine ⟨p, hp, ?_⟩
    intro r hr hrole
    obtain ⟨b, hb, hns, href, rfl⟩ := (hmem ns r).mp hr
    obtain ⟨hrow, hkey⟩ := Table.mem_erase.mp hb
    refine hkey ?_
    rw [Binding.key, hns, hnamed b hrow hns hrole href]
    rfl

/-- The grants of others stay exactly when each of those that the deleted
    binding gave comes from another one as well. -/
theorem others_iff (cluster username roleName : String)
    (ns : Option String) (w : World) :
    (∀ g : Grant, g.subject.name ≠ username →
      (g ∈ grants ((revokeStep cluster username roleName ns w).clusters
          cluster).bindings ↔ g ∈ grants (w.clusters cluster).bindings)) ↔
    ∀ b ∈ (w.clusters cluster).bindings.rows,
      b.key = revokedKey username roleName ns →
      ∀ s ∈ b.subjects, s.name ≠ username →
        ∃ b' ∈ (w.clusters cluster).bindings.rows, b'.key ≠ b.key ∧
          b'.ns = b.ns ∧ b'.roleRef.kind = b.roleRef.kind ∧
          b'.roleRef.name = b.roleRef.name ∧ s ∈ b'.subjects := by
  rw [revokeStep_bindings]
  constructor
  · intro hothers b hb hkey s hs hname
    obtain ⟨b', hb', hkey', hs', hkind, hrole, hscope⟩ := mem_grants_erase.mp
      ((hothers ⟨s, b.roleRef.kind, b.roleRef.name, b.ns⟩ hname).mpr
        ⟨b, hb, hs, rfl, rfl, rfl⟩)
    exact ⟨b', hb', hkey.symm ▸ hkey', hscope.symm, hkind.symm, hrole.symm,
      hs'⟩
  · intro hcovered g hname
    constructor
    · intro hg
      obtain ⟨b, hb, -, hgrant⟩ := mem_grants_erase.mp hg
      exact ⟨b, hb, hgrant⟩
    · rintro ⟨b, hb, hs, hkind, hrole, hscope⟩
      by_cases hkey : b.key = revokedKey username roleName ns
      · -- the binding goes, and another one has the same grant
        obtain ⟨b', hb', hne, hns', hkind', hrole', hs'⟩ :=
          hcovered b hb hkey g.subject hs hname
        exact mem_grants_erase.mpr ⟨b', hb', hkey ▸ hne, hs',
          hkind.trans hkind'.symm, hrole.trans hrole'.symm,
          hscope.trans hns'.symm⟩
      · exact mem_grants_erase.mpr ⟨b, hb, hkey, hs, hkind, hrole, hscope⟩

/-- A call that returns takes the role away from its user, and from no one
    else, exactly when the user has it through the binding of its name only
    and that binding grants nothing to others that they lose with it. -/
theorem revoke_takes_away_iff (cluster username roleName : String)
    (ns : Option String) (w : World) :
    (((revokeRole cluster username roleName ns).run handle w).1 = .ok () →
      TakesAway cluster username roleName ns w
        (revokeStep cluster username roleName ns w)) ↔
      Revocable (w.clusters cluster) username roleName ns := by
  have hok : ((revokeRole cluster username roleName ns).run handle w).1
      = .ok () := congrArg Prod.fst (run_revokeRole ..)
  constructor
  · intro h
    obtain ⟨hgone, hothers⟩ := h hok
    exact ⟨(gone_iff ..).mp hgone, (others_iff ..).mp hothers⟩
  · rintro ⟨hnamed, hcovered⟩ -
    exact ⟨(gone_iff ..).mpr hnamed, (others_iff ..).mpr hcovered⟩

/-- A ClusterRoleBinding of another name gives `view` to `ada`. -/
def withTeamBinding : World :=
  setBindings World.fresh "local" (Table.empty.put
    (clusterRoleBinding "team-view" "view" [⟨.user, "ada", none⟩] [] none))

/-- The revocation returns, and `ada` still has the role. -/
theorem revoke_leaves_team_binding :
    ¬ (((revokeRole "local" "ada" "view" none).run handle withTeamBinding).1
        = .ok () →
      TakesAway "local" "ada" "view" none withTeamBinding
        (revokeStep "local" "ada" "view" none withTeamBinding)) := by
  intro h
  have hgone := (h (congrArg Prod.fst (run_revokeRole ..))).gone
  have hname := (gone_iff ..).mp hgone
    (clusterRoleBinding "team-view" "view" [⟨.user, "ada", none⟩] [] none)
    (by decide) rfl rfl rfl
  exact absurd hname (by decide)

/-! ## Undoing an assignment -/

/-- A namespace that is not empty is taken as it is. -/
theorem namespaceOrDefault_of_ne {n : String} (h : n ≠ "") :
    namespaceOrDefault (some n) = n := if_neg h

theorem namespaceOrDefault_ne (ns : Option String) :
    namespaceOrDefault ns ≠ "" := by
  cases ns with
  | none => decide
  | some n =>
      by_cases hn : n = ""
      · rw [hn]
        decide
      · rw [namespaceOrDefault_of_ne hn]
        exact hn

/-- The call addresses the scope it was given: the cluster, for a ClusterRole,
    or a namespace with a name. -/
def NamesScope (k : AssignCall) : Prop :=
  (k.ns = none ∧ k.roleKind = .clusterRole) ∨ ∃ n, k.ns = some n ∧ n ≠ ""

theorem scope_eq_iff (k : AssignCall) : k.scope = k.ns ↔ NamesScope k := by
  rw [AssignCall.scope]
  by_cases hc : k.ns = none ∧ k.roleKind = .clusterRole
  · rw [if_pos hc]
    exact iff_of_true hc.1.symm (Or.inl hc)
  · rw [if_neg hc]
    constructor
    · exact fun h => Or.inr ⟨_, h.symm, namespaceOrDefault_ne k.ns⟩
    · rintro (hcluster | ⟨n, hns, hne⟩)
      · exact absurd hcluster hc
      · rw [hns, namespaceOrDefault_of_ne hne]

/-- The bindings after an assignment into a free name and a revocation of the
    same arguments. -/
theorem mem_revoke_assign {w : World} {cluster : String} {k : AssignCall}
    {kind : SubjectKind} (hkind : SubjectKind.ofText k.userKind = some kind)
    (hfree : (w.clusters cluster).bindings.get k.key = none) (b : Binding) :
    b ∈ ((revokeStep cluster k.username k.roleName k.ns
        (assignStep cluster k w)).clusters cluster).bindings.rows ↔
      (b = k.binding kind ∨ b ∈ (w.clusters cluster).bindings.rows ∧
        b.key ≠ k.key) ∧ b.key ≠ revokedKey k.username k.roleName k.ns := by
  obtain ⟨-, hput, -⟩ := run_assignRole cluster w hkind
  have houtcome : k.outcome (w.clusters cluster) kind = k.binding kind := by
    rw [AssignCall.outcome, hfree]
  rw [houtcome] at hput
  rw [revokeStep_bindings, Table.mem_erase]
  show b ∈ (((k.prog cluster).run handle w).2.clusters cluster).bindings.rows
    ∧ _ ↔ _
  rw [hput, Table.mem_put]
  rfl

/-- An assignment into a free name, and a revocation of the same arguments:
    the bindings are as they were exactly when the call names its scope, or
    has no valid subject kind. -/
theorem revoke_undoes_assign_iff (cluster : String) (w : World)
    (k : AssignCall)
    (habsent : ∀ scope, (w.clusters cluster).bindings.get
      (scope, bindingNameFor k.username k.roleName) = none) :
    (((k.prog cluster).run handle w).1 = .ok () →
      ((revokeRole cluster k.username k.roleName k.ns).run handle
        (assignStep cluster k w)).1 = .ok () →
      ∀ b, b ∈ ((revokeStep cluster k.username k.roleName k.ns
          (assignStep cluster k w)).clusters cluster).bindings.rows ↔
        b ∈ (w.clusters cluster).bindings.rows) ↔
      (SubjectKind.ofText k.userKind = none ∨ NamesScope k) := by
  cases hkind : SubjectKind.ofText k.userKind with
  | none =>
      refine iff_of_true ?_ (Or.inl rfl)
      intro hok
      rw [run_assignRole_badKind hkind] at hok
      cases hok
  | some kind =>
      have hrevoke : ((revokeRole cluster k.username k.roleName k.ns).run
          handle (assignStep cluster k w)).1 = .ok () :=
        congrArg Prod.fst (run_revokeRole ..)
      have hfree : (w.clusters cluster).bindings.get k.key = none :=
        habsent k.scope
      have hrows := mem_revoke_assign hkind hfree
      have hnew : k.binding kind ∉ (w.clusters cluster).bindings.rows :=
        fun hmem => Table.get_eq_none_iff.mp hfree _ hmem rfl
      constructor
      · intro h
        refine Or.inr ((scope_eq_iff k).mp ?_)
        by_contra hscope
        have hok := (run_assignRole cluster w hkind).1
        refine hnew ((h hok hrevoke _).mp ((hrows _).mpr ⟨Or.inl rfl, ?_⟩))
        exact fun hkey => hscope (congrArg Prod.fst hkey)
      · rintro (hnone | hscope) - - b
        · cases hnone
        · rw [hrows]
          have hkey : revokedKey k.username k.roleName k.ns = k.key := by
            rw [revokedKey, ← (scope_eq_iff k).mpr hscope]
            rfl
          rw [hkey]
          constructor
          · rintro ⟨rfl | ⟨hb, -⟩, hne⟩
            · exact absurd rfl hne
            · exact hb
          · intro hb
            have hne : b.key ≠ k.key :=
              fun h => Table.get_eq_none_iff.mp hfree b hb h
            exact ⟨Or.inr ⟨hb, hne⟩, hne⟩

/-- An assignment in the namespace `apps`. -/
def viewInApps : AssignCall :=
  ⟨"ada", "User", "view", .clusterRole, some "apps", none⟩

/-- In a new installation its name is free, and the revocation undoes it. -/
theorem revoke_undoes_assign_apps :
    ((viewInApps.prog "local").run handle World.fresh).1 = .ok () ∧
    ((revokeRole "local" "ada" "view" (some "apps")).run handle
      (assignStep "local" viewInApps World.fresh)).1 = .ok () ∧
    ∀ b, b ∈ ((revokeStep "local" "ada" "view" (some "apps")
        (assignStep "local" viewInApps World.fresh)).clusters
          "local").bindings.rows ↔
      b ∈ (World.fresh.clusters "local").bindings.rows := by
  have hassign : ((viewInApps.prog "local").run handle World.fresh).1
      = .ok () := rfl
  have hrevoke : ((revokeRole "local" "ada" "view" (some "apps")).run handle
      (assignStep "local" viewInApps World.fresh)).1 = .ok () :=
    congrArg Prod.fst (run_revokeRole ..)
  have hundone := revoke_undoes_assign_iff "local" World.fresh viewInApps
    (fun _ => rfl)
  exact ⟨hassign, hrevoke, hundone.mpr
    (Or.inr (Or.inr ⟨"apps", rfl, by decide⟩)) hassign hrevoke⟩

/-- A Role is assigned without a namespace. -/
def roleWithoutNamespace : AssignCall :=
  ⟨"ada", "User", "pod-reader", .role, none, none⟩

/-- The binding is created in the namespace `default`, and the revocation
    looks for a ClusterRoleBinding. -/
theorem revoke_misses_default :
    (∀ scope, (World.fresh.clusters "local").bindings.get
        (scope, bindingNameFor "ada" "pod-reader") = none) ∧
    ¬ (((roleWithoutNamespace.prog "local").run handle World.fresh).1 = .ok () →
      ((revokeRole "local" "ada" "pod-reader" none).run handle
        (assignStep "local" roleWithoutNamespace World.fresh)).1 = .ok () →
      ∀ b, b ∈ ((revokeStep "local" "ada" "pod-reader" none
          (assignStep "local" roleWithoutNamespace World.fresh)).clusters
            "local").bindings.rows ↔
        b ∈ (World.fresh.clusters "local").bindings.rows) := by
  refine ⟨fun _ => rfl, ?_⟩
  intro h
  have hkind : SubjectKind.ofText roleWithoutNamespace.userKind
      = some .user := rfl
  obtain ⟨hok, hput, -⟩ := run_assignRole "local" World.fresh hkind
  have hmem := (h hok (congrArg Prod.fst (run_revokeRole ..))
    (roleWithoutNamespace.binding .user)).mp ?_
  · exact List.not_mem_nil hmem
  · rw [revokeStep_bindings]
    refine Table.mem_erase.mpr ⟨?_, by decide⟩
    show _ ∈ (((roleWithoutNamespace.prog "local").run handle
      World.fresh).2.clusters "local").bindings.rows
    rw [hput]
    exact Table.mem_put.mpr (Or.inl rfl)

end CvRevoke
