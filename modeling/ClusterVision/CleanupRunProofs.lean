import ClusterVision.ExpireAccessBindingsProofs

/-! # What one run of the cleanup job reaches

    The job passes over the local cluster, then over each registered one, and
    marks the requests only when these passes have deleted something.  A pass
    over a registered cluster may fail without harm to the others; the pass
    over the local cluster may not, since nothing catches what it raises. -/

namespace CvCleanup

open CvProg CvPage CvTable CvIso CvKube CvBackend CvRbac CvAccess CvExpire

/-! ## Annotations -/

/-- The expiry of a binding, if it has one, can be compared with the clock. -/
def Readable (b : Binding) : Prop :=
  ∀ now, ∃ expired, isExpired b.annotations now = .ok expired

/-- Every JIT binding of a cluster is readable. -/
def JitReadable (c : Cluster) : Prop :=
  ∀ b ∈ c.bindings.rows, selected jitSelector b.labels = true → Readable b

/-- What cannot be compared with one time cannot be compared with another. -/
theorem readable_of_ok {b : Binding} {t : Time} {expired : Bool}
    (h : isExpired b.annotations t = .ok expired) : Readable b := by
  intro now
  rw [isExpired] at h ⊢
  cases hget : (b.annotations.getD []).get? expiresAnnotation with
  | none => exact ⟨false, rfl⟩
  | some expiry =>
      rw [hget] at h
      simp only at h ⊢
      by_cases hempty : expiry = ""
      · rw [if_pos hempty]
        exact ⟨false, rfl⟩
      · rw [if_neg hempty] at h ⊢
        cases hparse : fromisoformat expiry.toList with
        | none => exact ⟨false, rfl⟩
        | some d =>
            rw [hparse] at h
            simp only [lessEqual] at h ⊢
            cases hoffset : d.utcoffset with
            | none =>
                rw [hoffset] at h
                cases h
            | some offset => exact ⟨_, rfl⟩

/-! ## One pass, without faults -/

section OnePass

variable {w w' : World} {cluster : String}

/-- The world with a binding deleted. -/
def without (w : World) (cluster : String) (key : Option String × String) :
    World :=
  w.setCluster cluster ((w.clusters cluster).withBindings
    ((w.clusters cluster).bindings.erase key))

/-- What one round of a loop of `_reconcile` does. -/
inductive RoundEffect (w : World) (cluster : String) (t : Time)
    (ns : Option String) (revoked : Nat) (b : Binding) :
    Except Exn Nat → World → Prop where
  | unreadable {e : Exn} (h : isExpired b.annotations t = .error e) :
      RoundEffect w cluster t ns revoked b (.error e) w
  | live (h : isExpired b.annotations t = .ok false) :
      RoundEffect w cluster t ns revoked b (.ok revoked) w
  | absent (h : isExpired b.annotations t = .ok true) :
      RoundEffect w cluster t ns revoked b (.ok revoked) w
  | deleted (h : isExpired b.annotations t = .ok true) :
      RoundEffect w cluster t ns revoked b (.ok (revoked + 1))
        (without w cluster (ns, b.name))

theorem expireBinding_effect (cluster : String) (t : Time)
    (ns : Option String) (revoked : Nat) (b : Binding) (w : World) :
    RoundEffect w cluster t ns revoked b
      ((expireBinding cluster t ns revoked b).run handle w).1
      ((expireBinding cluster t ns revoked b).run handle w).2 := by
  rw [expireBinding, Prog.run_bind, Prog.run_ofExcept]
  cases hexp : isExpired b.annotations t with
  | error e => exact .unreadable hexp
  | ok expired =>
      rw [Prog.andThen_ok]
      cases expired with
      | false =>
          rw [if_pos rfl]
          exact .live hexp
      | true =>
          rw [if_neg Bool.true_eq_false.mp, Prog.run_catching, Prog.run_bind,
            run_kube]
          have hcall : handle (.kube cluster (.deleteBinding ns b.name)) w
              = ((storing (w.clusters cluster)
                  (deleteIn (w.clusters cluster).bindings (ns, b.name)) ()
                  (w.clusters cluster).withBindings).1.mapError .api,
                w.setCluster cluster (storing (w.clusters cluster)
                  (deleteIn (w.clusters cluster).bindings (ns, b.name)) ()
                  (w.clusters cluster).withBindings).2) := rfl
          rw [hcall, deleteIn]
          cases hget : (w.clusters cluster).bindings.get (ns, b.name) with
          | none =>
              show RoundEffect w cluster t ns revoked b (.ok revoked)
                (w.setCluster cluster (w.clusters cluster))
              rw [World.setCluster_eq_self]
              exact .absent hexp
          | some x => exact .deleted hexp

/-- A loop that returns has compared every expiry; it has counted nothing and
    changed nothing, or it has counted a binding that had expired. -/
theorem expireLoop_effect (t : Time) (ns : Binding → Option String)
    (xs : List Binding) {revoked n : Nat} :
    ∀ {w : World},
      (xs.foldlM (fun revoked b => expireBinding cluster t (ns b) revoked b)
        revoked).run handle w = (.ok n, w') →
      (∀ b ∈ xs, Readable b) ∧
      ((n = revoked ∧ w' = w) ∨
        (revoked < n ∧ ∃ b ∈ xs, isExpired b.annotations t = .ok true)) := by
  induction xs generalizing revoked with
  | nil =>
      intro w h
      obtain ⟨hn, hw⟩ := Prod.mk.inj h
      refine ⟨fun b hb => absurd hb List.not_mem_nil, Or.inl ⟨?_, hw.symm⟩⟩
      exact (Except.ok.inj hn).symm
  | cons x xs ih =>
      intro w h
      rw [List.foldlM_cons, Prog.run_bind] at h
      obtain ⟨m, w₁, hx, hxs⟩ := Prog.andThen_eq_ok h
      obtain ⟨hreadable, hrest⟩ := ih hxs
      have hround := expireBinding_effect cluster t (ns x)
        revoked x w
      rw [hx] at hround
      have hall : Readable x → ∀ b ∈ x :: xs, Readable b := by
        intro hxread b hb
        rcases List.mem_cons.mp hb with rfl | hb
        · exact hxread
        · exact hreadable b hb
      have htail : (∃ b ∈ xs, isExpired b.annotations t = .ok true) →
          ∃ b ∈ x :: xs, isExpired b.annotations t = .ok true := by
        rintro ⟨b, hb, hexp⟩
        exact ⟨b, List.mem_cons_of_mem x hb, hexp⟩
      cases hround with
      | live hexp | absent hexp =>
          refine ⟨hall (readable_of_ok hexp), ?_⟩
          rcases hrest with ⟨hn, hw⟩ | ⟨hn, hfound⟩
          · exact Or.inl ⟨hn, hw⟩
          · exact Or.inr ⟨hn, htail hfound⟩
      | deleted hexp =>
          refine ⟨hall (readable_of_ok hexp), Or.inr ⟨?_, x, ?_, hexp⟩⟩
          · rcases hrest with ⟨hn, -⟩ | ⟨hn, -⟩ <;> omega
          · exact List.mem_cons_self ..

/-- The loop runs one round, and goes on from where the round left off. -/
theorem run_expireLoop_cons (cluster : String) (t : Time)
    (ns : Binding → Option String) (x : Binding) (xs : List Binding)
    (revoked : Nat) (w : World) :
    ∃ r w₁, RoundEffect w cluster t (ns x) revoked x r w₁ ∧
      ((x :: xs).foldlM (fun revoked b => expireBinding cluster t (ns b)
        revoked b) revoked).run handle w
        = Prog.andThen (r, w₁) (fun n => (xs.foldlM (fun revoked b =>
          expireBinding cluster t (ns b) revoked b) n).run handle) := by
  refine ⟨_, _, expireBinding_effect cluster t (ns x) revoked x w, ?_⟩
  rw [List.foldlM_cons, Prog.run_bind]

/-- A loop over readable bindings returns. -/
theorem expireLoop_returns (cluster : String) (t : Time)
    (ns : Binding → Option String) (xs : List Binding)
    (hxs : ∀ b ∈ xs, Readable b) :
    ∀ (revoked : Nat) (w : World), ∃ n w',
      (xs.foldlM (fun revoked b => expireBinding cluster t (ns b) revoked b)
        revoked).run handle w = (.ok n, w') := by
  induction xs with
  | nil => exact fun revoked w => ⟨revoked, w, rfl⟩
  | cons x xs ih =>
      intro revoked w
      have hrest := ih (fun b hb => hxs b (List.mem_cons_of_mem x hb))
      obtain ⟨expired, hok⟩ := hxs x (List.mem_cons_self ..) t
      obtain ⟨r, w₁, hround, hrun⟩ :=
        run_expireLoop_cons cluster t ns x xs revoked w
      rw [hrun]
      cases hround with
      | unreadable hexp =>
          rw [hok] at hexp
          cases hexp
      | live _ | absent _ | deleted _ => exact hrest _ _

/-- A loop leaves a binding that it has no reason to delete. -/
theorem expireLoop_keeps (cluster : String) {t : Time}
    (ns : Binding → Option String) (xs : List Binding) {b : Binding} :
    ∀ {w : World} (revoked : Nat), b ∈ (w.clusters cluster).bindings.rows →
      (∀ x ∈ xs, isExpired x.annotations t = .ok true →
        b.key ≠ (ns x, x.name)) →
      b ∈ (((xs.foldlM (fun revoked x =>
        expireBinding cluster t (ns x) revoked x) revoked).run handle
          w).2.clusters cluster).bindings.rows := by
  induction xs with
  | nil => exact fun _ hb _ => hb
  | cons x xs ih =>
      intro w revoked hb hother
      have hrest : ∀ y ∈ xs, isExpired y.annotations t = .ok true →
          b.key ≠ (ns y, y.name) :=
        fun y hy => hother y (List.mem_cons_of_mem x hy)
      obtain ⟨r, w₁, hround, hrun⟩ :=
        run_expireLoop_cons cluster t ns x xs revoked w
      rw [hrun]
      cases hround with
      | unreadable _ => exact hb
      | live _ | absent _ => exact ih _ hb hrest
      | deleted hexp =>
          refine ih _ ?_ hrest
          show b ∈ ((w.setCluster cluster _).clusters cluster).bindings.rows
          rw [World.setCluster_self]
          exact Table.mem_erase.mpr
            ⟨hb, hother x (List.mem_cons_self ..) hexp⟩

/-- The bindings that a pass lists. -/
def listed (c : Cluster) (scope : Scope) : List Binding :=
  c.bindings.rows.filter
    (fun b => scope.holds b.ns && selected jitSelector b.labels)

theorem mem_listed {c : Cluster} {scope : Scope} {b : Binding} :
    b ∈ listed c scope ↔ b ∈ c.bindings.rows ∧
      scope.holds b.ns = true ∧ selected jitSelector b.labels = true := by
  rw [listed, List.mem_filter, Bool.and_eq_true]

/-- The list call of a pass. -/
theorem handle_listing (cluster : String) (scope : Scope) (w : World) :
    handle (.kube cluster (.listBindings scope jitSelector none none)) w
      = (.ok (servePage none none (listed (w.clusters cluster) scope)), w) :=
  Prod.ext rfl (World.setCluster_eq_self _ _)

/-- A ClusterRoleBinding has no namespace. -/
theorem ns_of_clusterScope {b : Binding}
    (h : Scope.cluster.holds b.ns = true) : b.ns = none := by
  cases hns : b.ns with
  | none => rfl
  | some ns =>
      rw [hns] at h
      cases h

/-- The two loops of `_reconcile`, over what they list. -/
theorem run_reconcile (cluster : String) (w : World) :
    (reconcile cluster).run handle w
      = Prog.andThen (((listed (w.clusters cluster) .cluster).foldlM
          (fun revoked b => expireBinding cluster (reading w) none revoked b)
          0).run handle w.ticked)
        (fun revoked w₁ =>
          ((listed (w₁.clusters cluster) .allNamespaces).foldlM
            (fun revoked b =>
              expireBinding cluster (reading w) b.ns revoked b)
            revoked).run handle w₁) := by
  rw [reconcile, Prog.run_bind, run_now, handle_now, Prog.andThen_ok,
    Prog.run_bind, run_kube, handle_listing, Prog.andThen_ok, Prog.run_bind]
  congr 1
  funext revoked w₁
  rw [Prog.run_bind, run_kube, handle_listing, Prog.andThen_ok]
  rfl

/-- A pass over readable bindings returns. -/
theorem reconcile_returns (h : JitReadable (w.clusters cluster)) :
    ∃ n w', (reconcile cluster).run handle w = (.ok n, w') := by
  rw [run_reconcile]
  have hlisted : ∀ (v : World) (scope : Scope),
      (∀ b ∈ (v.clusters cluster).bindings.rows,
        b ∈ (w.clusters cluster).bindings.rows) →
      ∀ b ∈ listed (v.clusters cluster) scope, Readable b := by
    intro v scope hv b hb
    obtain ⟨hrow, -, hlabel⟩ := mem_listed.mp hb
    exact h b (hv b hrow) hlabel
  obtain ⟨n, w₁, hfirst⟩ := expireLoop_returns cluster (reading w)
    (fun _ => none) (listed (w.clusters cluster) .cluster)
    (hlisted w _ (fun _ hb => hb)) 0 w.ticked
  have hshrunk := (expireLoop_uses cluster (reading w) (fun _ => none)
    (listed (w.clusters cluster) .cluster) 0).run_keeps
    (R := Shrunk) Shrunk.refl Shrunk.trans
    (fun _ s hop => shrunk_of_sweeping hop s) w.ticked
  rw [hfirst] at hshrunk ⊢
  rw [Prog.andThen_ok]
  exact expireLoop_returns cluster (reading w) Binding.ns
    (listed (w₁.clusters cluster) .allNamespaces)
    (hlisted w₁ _ (fun b hb => hshrunk.bindings cluster b hb)) n w₁

/-- A pass that returns has read every JIT binding of its cluster; it has
    counted nothing and deleted nothing, or it has found one that had
    expired. -/
theorem reconcile_effect {n : Nat}
    (h : (reconcile cluster).run handle w = (.ok n, w')) :
    JitReadable (w.clusters cluster) ∧
      ((n = 0 ∧ w' = w.ticked) ∨
        (0 < n ∧ ∃ b ∈ (w.clusters cluster).bindings.rows,
          Expired (reading w) b)) := by
  rw [run_reconcile] at h
  obtain ⟨m, w₁, hfirst, hsecond⟩ := Prog.andThen_eq_ok h
  obtain ⟨hread, heffect⟩ := expireLoop_effect (reading w) (fun _ => none)
    (listed (w.clusters cluster) .cluster) hfirst
  obtain ⟨hread', heffect'⟩ := expireLoop_effect (reading w) Binding.ns
    (listed (w₁.clusters cluster) .allNamespaces) hsecond
  have hshrunk : Shrunk w.ticked w₁ := by
    have hrun := (expireLoop_uses cluster (reading w) (fun _ => none)
      (listed (w.clusters cluster) .cluster) 0).run_keeps
      (R := Shrunk) Shrunk.refl Shrunk.trans
      (fun _ s hop => shrunk_of_sweeping hop s) w.ticked
    rw [hfirst] at hrun
    exact hrun
  refine ⟨?_, ?_⟩
  · intro b hb hlabel
    cases hns : b.ns with
    | none =>
        refine hread b (mem_listed.mpr ⟨hb, ?_, hlabel⟩)
        rw [hns]
        rfl
    | some ns =>
        -- the first loop deletes ClusterRoleBindings only
        have hkept := expireLoop_keeps cluster
          (t := reading w) (fun _ => none)
          (listed (w.clusters cluster) .cluster) (w := w.ticked) 0 hb
          (fun x _ _ hkey => by
            have hnone := congrArg Prod.fst hkey
            rw [Binding.key, hns] at hnone
            cases hnone)
        rw [hfirst] at hkept
        refine hread' b (mem_listed.mpr ⟨hkept, ?_, hlabel⟩)
        rw [hns]
        rfl
  · rcases heffect with ⟨rfl, rfl⟩ | ⟨hpos, b, hb, hexp⟩
    · rcases heffect' with ⟨hn, hw⟩ | ⟨hpos, b, hb, hexp⟩
      · exact Or.inl ⟨hn, hw⟩
      · obtain ⟨hrow, -, hlabel⟩ := mem_listed.mp hb
        exact Or.inr ⟨hpos, b, hrow, hlabel, hexp⟩
    · obtain ⟨hrow, -, hlabel⟩ := mem_listed.mp hb
      refine Or.inr ⟨?_, b, hrow, hlabel, hexp⟩
      rcases heffect' with ⟨hn, -⟩ | ⟨hn, -⟩ <;> omega

/-- A pass that returns has swept its cluster. -/
theorem reconcile_swept {n : Nat}
    (h : (reconcile cluster).run handle w = (.ok n, w')) :
    Swept (reading w) cluster w w' := by
  have hnone : ∀ n op, Sweeping op → Outages.none.plan n op = none :=
    fun _ _ _ => rfl
  obtain ⟨m, hm⟩ := (reconcile_uses cluster).run_faulty hnone handle 0 w
  rw [h] at hm
  have hrun : (reconcile cluster).run Outages.none.handler (0, w)
      = (.ok n, (m, w')) := hm
  exact reconcile_ok hrun

/-- A pass leaves everything but the JIT bindings that have expired. -/
theorem reconcile_spares {b : Binding}
    (hb : b ∈ (w.clusters cluster).bindings.rows)
    (hlive : ¬ Expired (reading w) b) :
    b ∈ (((reconcile cluster).run handle w).2.clusters
      cluster).bindings.rows := by
  have hother : ∀ (c : Cluster) (scope : Scope) (x : Binding),
      b ∈ c.bindings.rows → x ∈ listed c scope →
      isExpired x.annotations (reading w) = .ok true → b.key ≠ x.key := by
    intro c scope x hb hx hexp hkey
    obtain ⟨hrow, -, hlabel⟩ := mem_listed.mp hx
    obtain rfl := Table.eq_of_key hb hrow hkey
    exact hlive ⟨hlabel, hexp⟩
  have hfirst := expireLoop_keeps cluster (t := reading w)
    (fun _ => none) (listed (w.clusters cluster) .cluster) (w := w.ticked) 0
    hb (fun x hx hexp => by
      obtain ⟨-, hscope, -⟩ := mem_listed.mp hx
      have hkey := hother _ _ x hb hx hexp
      rw [show x.key = (x.ns, x.name) from rfl, ns_of_clusterScope hscope]
        at hkey
      exact hkey)
  rw [run_reconcile]
  rcases hrun : ((listed (w.clusters cluster) .cluster).foldlM
    (fun revoked x => expireBinding cluster (reading w) none revoked x)
    0).run handle w.ticked with ⟨r, w₁⟩
  rw [hrun] at hfirst
  cases r with
  | error e => exact hfirst
  | ok m =>
      exact expireLoop_keeps cluster (t := reading w) Binding.ns
        (listed (w₁.clusters cluster) .allNamespaces) m hfirst
        (fun x hx hexp => hother _ _ x hfirst hx hexp)

/-- A pass can read every JIT binding of the cluster, and one of them has
    expired. -/
def Finds (w : World) (pass : String × Time) : Prop :=
  JitReadable (w.clusters pass.1) ∧
    ∃ b ∈ (w.clusters pass.1).bindings.rows, Expired pass.2 b

/-- A pass returns a count other than zero exactly when it finds
    something. -/
theorem finds_iff (w : World) (cluster : String) :
    Finds w (cluster, reading w) ↔
      ∃ n w', (reconcile cluster).run handle w = (.ok n, w') ∧ n ≠ 0 := by
  constructor
  · rintro ⟨hread, b, hb, hexp⟩
    obtain ⟨n, w', h⟩ := reconcile_returns hread
    refine ⟨n, w', h, ?_⟩
    rcases (reconcile_effect h).2 with ⟨-, hw⟩ | ⟨hpos, -⟩
    · -- nothing was deleted, and yet the binding is gone
      have hgone := reconcile_swept h b hb hexp
      rw [hw] at hgone
      have hthere : (w.clusters cluster).bindings.get b.key = some b :=
        Table.get_of_mem hb
      exact absurd (hthere.symm.trans hgone) (Option.some_ne_none b)
    · omega
  · rintro ⟨n, w', h, hn⟩
    obtain ⟨hread, heffect⟩ := reconcile_effect h
    rcases heffect with ⟨hzero, -⟩ | ⟨-, hfound⟩
    · exact absurd hzero hn
    · exact ⟨hread, hfound⟩

end OnePass

/-! ## Failing clusters -/

/-- A plan of faults in which only calls to clusters fail. -/
structure ClusterFaults where
  plan : Plan backend Exn
  onlyKube : ∀ n op, plan n op ≠ none → ∃ cluster, KubeOn cluster op

/-- The calls of the job under such a plan. -/
def ClusterFaults.handler (faults : ClusterFaults) :
    Handler backend Exn (Nat × World) := faulty faults.plan handle

/-- No call fails. -/
def ClusterFaults.none : ClusterFaults :=
  ⟨fun _ _ => .none, fun _ _ h => absurd rfl h⟩

/-- No call to the cluster fails. -/
def Healthy (faults : ClusterFaults) (cluster : String) : Prop :=
  ∀ n op, KubeOn cluster op → faults.plan n op = none

/-- The calls of a pass. -/
def PassCall (cluster : String) (op : Op) : Prop :=
  op = .now ∨ KubeOn cluster op

/-- What a pass comes to: bindings of its own cluster have gone, and the clock
    has been read once. -/
structure Passed (cluster : String) (w w' : World) : Prop where
  shrunk : Shrunk w w'
  tick : w'.tick = w.tick + 1
  others : ∀ c, c ≠ cluster → w'.clusters c = w.clusters c

section Passing

variable {faults : ClusterFaults} {cluster : String}

/-- Calls that reach no cluster answer as they do without faults. -/
theorem plan_none (faults : ClusterFaults) {op : Op}
    (hop : ∀ cluster, ¬ KubeOn cluster op) (n : Nat) :
    faults.plan n op = none := by
  by_contra hfault
  obtain ⟨cluster, hkube⟩ := faults.onlyKube n op hfault
  exact hop cluster hkube

theorem plan_now (faults : ClusterFaults) (n : Nat) :
    faults.plan n .now = none := by
  refine plan_none faults ?_ n
  rintro cluster ⟨o, ho⟩
  cases ho

theorem plan_db (faults : ClusterFaults) (n : Nat) (op : DbOp) :
    faults.plan n (.db op) = none := by
  refine plan_none faults ?_ n
  rintro cluster ⟨o, ho⟩
  cases ho

theorem handler_now (faults : ClusterFaults) (s : Nat × World) :
    faults.handler .now s = (.ok (reading s.2), (s.1 + 1, s.2.ticked)) :=
  faulty_none handle (plan_now faults s.1)

theorem handler_db (faults : ClusterFaults) (op : DbOp) (s : Nat × World) :
    faults.handler (.db op) s
      = ((handle (.db op) s.2).1, (s.1 + 1, (handle (.db op) s.2).2)) :=
  faulty_none handle (plan_db faults s.1 op)

/-- What `_reconcile` does once it has read the clock. -/
def reconcileAt (cluster : String) (t : Time) : Svc Nat := do
  let crbs : Page Binding ←
    kube cluster (.listBindings .cluster jitSelector none none)
  let revoked ← crbs.items.foldlM
    (fun revoked crb => expireBinding cluster t none revoked crb) 0
  let rbs : Page Binding ←
    kube cluster (.listBindings .allNamespaces jitSelector none none)
  rbs.items.foldlM (fun revoked rb => expireBinding cluster t rb.ns revoked rb)
    revoked

theorem reconcileAt_kubeOn (cluster : String) (t : Time) :
    (reconcileAt cluster t).Uses (KubeOn cluster) := by
  refine Prog.uses_bind (kubeOn_kube cluster _) (fun crbs => ?_)
  refine Prog.uses_bind (Prog.uses_foldlM (fun n _ _ =>
    expireBinding_uses t ⟨_, rfl⟩ n) 0) (fun n => ?_)
  refine Prog.uses_bind (kubeOn_kube cluster _) (fun rbs => ?_)
  exact Prog.uses_foldlM (fun n _ _ => expireBinding_uses t ⟨_, rfl⟩ n) n

theorem reconcile_calls (cluster : String) :
    (reconcile cluster).Uses (PassCall cluster) :=
  Prog.uses_bind (Prog.uses_perform (Or.inl rfl))
    (fun t => (reconcileAt_kubeOn cluster t).imp (fun _ => Or.inr))

theorem run_reconcileAt (faults : ClusterFaults) (cluster : String)
    (s : Nat × World) :
    (reconcile cluster).run faults.handler s
      = (reconcileAt cluster (reading s.2)).run faults.handler
          (s.1 + 1, s.2.ticked) := by
  show (now >>= reconcileAt cluster).run faults.handler s = _
  rw [Prog.run_bind, run_now, handler_now, Prog.andThen_ok]

/-- A pass, failing or not, comes to no more than that. -/
theorem passed_reconcile (faults : ClusterFaults) (cluster : String)
    (s : Nat × World) :
    Passed cluster s.2 ((reconcile cluster).run faults.handler s).2.2 := by
  have hmostly := mostly_faulty faults.plan handle
  refine ⟨?_, ?_, ?_⟩
  · exact (reconcile_uses cluster).run_keeps
      (R := fun s t => Shrunk s.2 t.2) (fun _ => Shrunk.refl _) Shrunk.trans
      (fun _ s hop => hmostly.keeps Shrunk.refl (shrunk_of_sweeping hop) s) s
  · have htrans : ∀ {u v x : Nat × World}, v.2.tick = u.2.tick →
        x.2.tick = v.2.tick → x.2.tick = u.2.tick :=
      fun h h' => h'.trans h
    rw [run_reconcileAt]
    exact (reconcileAt_kubeOn cluster (reading s.2)).run_keeps
      (R := fun s t => t.2.tick = s.2.tick) (fun _ => rfl) htrans
      (fun op s hop => hmostly.keeps (R := fun w w' => w'.tick = w.tick)
        (fun _ => rfl) (fun w => by
          obtain ⟨o, rfl⟩ := hop
          rfl) s) (s.1 + 1, s.2.ticked)
  · intro c hc
    have htrans : ∀ {u v x : Nat × World}, v.2.clusters c = u.2.clusters c →
        x.2.clusters c = v.2.clusters c → x.2.clusters c = u.2.clusters c :=
      fun h h' => h'.trans h
    exact (reconcile_calls cluster).run_keeps
      (R := fun s t => t.2.clusters c = s.2.clusters c) (fun _ => rfl) htrans
      (fun op s hop => hmostly.keeps
        (R := fun w w' => w'.clusters c = w.clusters c) (fun _ => rfl)
        (fun w => by
          rcases hop with rfl | hop
          · rfl
          · exact handle_cluster (hop.onCluster op) hc w) s) s

/-- A pass over a healthy cluster is the pass without faults. -/
theorem healthy_reconcile (h : Healthy faults cluster) (s : Nat × World) :
    ∃ m, (reconcile cluster).run faults.handler s
      = (((reconcile cluster).run handle s.2).1,
          (m, ((reconcile cluster).run handle s.2).2)) := by
  refine (reconcile_calls cluster).run_faulty (fun n op hop => ?_) handle
    s.1 s.2
  rcases hop with rfl | hop
  · exact plan_now faults n
  · exact h n op hop

/-- The pass over a registered cluster finds its client. -/
theorem run_remotePass (faults : ClusterFaults) {c : RegisteredCluster}
    {s : Nat × World} (hc : c ∈ s.2.db.registeredClusters.rows) :
    (remotePass c).run faults.handler s
      = (reconcile c.name).run faults.handler (s.1 + 1, s.2) := by
  have hany : s.2.db.registeredClusters.rows.any
      (fun d => decide (d.name = c.name)) = true :=
    List.any_eq_true.mpr ⟨c, hc, decide_eq_true rfl⟩
  have hclient : (registeredApiClient c.name).run faults.handler s
      = (.ok c.name, (s.1 + 1, s.2)) := by
    rw [registeredApiClient, Prog.run_bind, run_db, handler_db]
    show Prog.run _ (if _ then _ else _) _ = _
    rw [if_pos hany]
    rfl
  rw [remotePass, Prog.run_bind, hclient, Prog.andThen_ok]

end Passing

/-! ## All passes -/

/-- The passes over registered clusters, each with the reading of the clock
    that it goes by; the first of these readings has the number `k`. -/
def remoteReadings (clock : Nat → Time) :
    List RegisteredCluster → Nat → List (String × Time)
  | [], _ => []
  | c :: cs, k => (c.name, clock k) :: remoteReadings clock cs (k + 1)

/-- The passes of the job. -/
def passes (w : World) : List (String × Time) :=
  (localCluster, reading w) ::
    remoteReadings w.clock w.db.registeredClusters.rows (w.tick + 1)

/-- The names of the passes are those of the clusters. -/
theorem remoteReadings_name {clock : Nat → Time} {pass : String × Time}
    {cs : List RegisteredCluster} : ∀ {k : Nat},
      pass ∈ remoteReadings clock cs k →
      pass.1 ∈ cs.map RegisteredCluster.name := by
  induction cs with
  | nil => exact fun h => absurd h List.not_mem_nil
  | cons c cs ih =>
      intro k h
      rcases List.mem_cons.mp h with rfl | h
      · exact List.mem_cons_self ..
      · exact List.mem_cons_of_mem _ (ih h)

section Loop

variable {faults : ClusterFaults}

/-- What the loop over the registered clusters comes to. -/
structure LoopPassed (cs : List RegisteredCluster) (w w' : World) :
    Prop where
  shrunk : Shrunk w w'
  tick : w'.tick = w.tick + cs.length
  others : ∀ c, c ∉ cs.map RegisteredCluster.name →
    w'.clusters c = w.clusters c

theorem loopPassed_nil (w : World) : LoopPassed [] w w :=
  ⟨Shrunk.refl w, rfl, fun _ _ => rfl⟩

theorem loopPassed_cons {c : RegisteredCluster} {cs : List RegisteredCluster}
    {u v w : World} (h : Passed c.name u v) (h' : LoopPassed cs v w) :
    LoopPassed (c :: cs) u w := by
  refine ⟨h.shrunk.trans h'.shrunk, ?_, ?_⟩
  · rw [h'.tick, h.tick, List.length_cons]
    omega
  · intro d hd
    rw [List.map_cons, List.mem_cons, not_or] at hd
    rw [h'.others d hd.2, h.others d hd.1]

/-- One round of the loop is a pass, whose exception is caught. -/
theorem remoteRound (faults : ClusterFaults) (total : Nat)
    {c : RegisteredCluster} {s : Nat × World}
    (hc : c ∈ s.2.db.registeredClusters.rows) :
    ∃ n s', (addRemotePass total c).run faults.handler s = (.ok n, s') ∧
      s' = ((reconcile c.name).run faults.handler (s.1 + 1, s.2)).2 ∧
      Passed c.name s.2 s'.2 := by
  obtain ⟨n, hn⟩ := addRemotePass_run faults.handler total c s
  rw [run_remotePass faults hc] at hn
  exact ⟨n, _, hn, rfl, passed_reconcile faults c.name (s.1 + 1, s.2)⟩

/-- The loop returns. -/
theorem run_remoteLoop (faults : ClusterFaults)
    (cs : List RegisteredCluster) : ∀ (total : Nat) (s : Nat × World),
      (∀ c ∈ cs, c ∈ s.2.db.registeredClusters.rows) →
      ∃ n s', (cs.foldlM addRemotePass total).run faults.handler s
        = (.ok n, s') ∧ LoopPassed cs s.2 s'.2 := by
  induction cs with
  | nil => exact fun total s _ => ⟨total, s, rfl, loopPassed_nil s.2⟩
  | cons c cs ih =>
      intro total s hcs
      obtain ⟨m, s₁, hround, -, hpassed⟩ :=
        remoteRound faults total (hcs c (List.mem_cons_self ..))
      obtain ⟨n, s', hloop, hrest⟩ := ih m s₁ (fun d hd => by
        rw [hpassed.shrunk.db]
        exact hcs d (List.mem_cons_of_mem c hd))
      refine ⟨n, s', ?_, loopPassed_cons hpassed hrest⟩
      rw [List.foldlM_cons, Prog.run_bind, hround, Prog.andThen_ok, hloop]

/-- A healthy cluster in the loop: what had expired at its reading has gone,
    and the rest is there. -/
theorem remoteLoop_sweeps (cs : List RegisteredCluster)
    (hnodup : (cs.map RegisteredCluster.name).Nodup) :
    ∀ {total n : Nat} {s s' : Nat × World},
      (∀ c ∈ cs, c ∈ s.2.db.registeredClusters.rows) →
      (cs.foldlM addRemotePass total).run faults.handler s = (.ok n, s') →
      ∀ p ∈ remoteReadings s.2.clock cs s.2.tick, Healthy faults p.1 →
        JitReadable (s.2.clusters p.1) →
        Swept p.2 p.1 s.2 s'.2 ∧
        ∀ b ∈ (s.2.clusters p.1).bindings.rows,
          isExpired b.annotations p.2 ≠ .ok true →
          b ∈ (s'.2.clusters p.1).bindings.rows := by
  induction cs with
  | nil => exact fun _ _ p hp => absurd hp List.not_mem_nil
  | cons c cs ih =>
      intro total n s s' hcs hrun p hp hhealthy hread
      obtain ⟨hnew, hnodup⟩ := List.nodup_cons.mp hnodup
      obtain ⟨m, s₁, hround, hs₁, hpassed⟩ :=
        remoteRound faults total (hcs c (List.mem_cons_self ..))
      rw [List.foldlM_cons, Prog.run_bind, hround, Prog.andThen_ok] at hrun
      have hcs' : ∀ d ∈ cs, d ∈ s₁.2.db.registeredClusters.rows := by
        intro d hd
        rw [hpassed.shrunk.db]
        exact hcs d (List.mem_cons_of_mem c hd)
      obtain ⟨k, s₂, hloop, hrest⟩ := run_remoteLoop faults cs m s₁ hcs'
      obtain rfl : s₂ = s' := congrArg Prod.snd (hloop.symm.trans hrun)
      rcases List.mem_cons.mp hp with rfl | hp
      · -- the pass over this cluster: nothing later touches it
        have hsame := hrest.others c.name hnew
        obtain ⟨j, hj⟩ := healthy_reconcile hhealthy (s.1 + 1, s.2)
        rw [hj] at hs₁
        have hworld : s₁.2 = ((reconcile c.name).run handle s.2).2 := by
          rw [hs₁]
        refine ⟨?_, ?_⟩
        · obtain ⟨i, w', hpass⟩ := reconcile_returns hread
          have hswept := reconcile_swept hpass
          rw [show w' = s₁.2 by rw [hworld, hpass]] at hswept
          exact hswept.after hrest.shrunk
        · intro b hb hlive
          have hkept := reconcile_spares hb (fun h => hlive h.2)
          rw [← hworld] at hkept
          rw [hsame]
          exact hkept
      · have hname := remoteReadings_name hp
        have hne : p.1 ≠ c.name := by
          intro heq
          rw [heq] at hname
          exact hnew hname
        have hbefore := hpassed.others p.1 hne
        have htail := ih hnodup hcs' hrun p (by
          rw [hpassed.shrunk.clock, hpassed.tick]
          exact hp) hhealthy (by rw [hbefore]; exact hread)
        refine ⟨?_, ?_⟩
        · exact htail.1.before hpassed.shrunk hrest.shrunk
        · intro b hb
          rw [← hbefore] at hb
          exact htail.2 b hb

/-- Without faults, a round adds what its pass has counted, and nothing when
    the pass raises. -/
theorem remoteRound_count {total n : Nat} {c : RegisteredCluster}
    {s s' : Nat × World} (hc : c ∈ s.2.db.registeredClusters.rows)
    (h : (addRemotePass total c).run ClusterFaults.none.handler s
      = (.ok n, s')) :
    n ≠ 0 ↔ total ≠ 0 ∨ Finds s.2 (c.name, reading s.2) := by
  have hhealthy : Healthy ClusterFaults.none c.name := fun _ _ _ => rfl
  obtain ⟨m, hm⟩ := healthy_reconcile hhealthy (s.1 + 1, s.2)
  rw [addRemotePass, Prog.run_catching, Prog.run_bind,
    run_remotePass ClusterFaults.none hc, hm] at h
  rw [finds_iff]
  rcases hpass : (reconcile c.name).run handle s.2 with ⟨r, w'⟩
  rw [hpass] at h
  cases r with
  | error e =>
      obtain ⟨hn, -⟩ := Prod.mk.inj h
      obtain rfl : total = n := Except.ok.inj hn
      constructor
      · exact Or.inl
      · rintro (htotal | ⟨k, v, hk, -⟩)
        · exact htotal
        · cases hk
  | ok k =>
      obtain ⟨hn, -⟩ := Prod.mk.inj h
      obtain rfl : total + k = n := Except.ok.inj hn
      constructor
      · intro hn
        by_cases htotal : total = 0
        · exact Or.inr ⟨k, w', rfl, by omega⟩
        · exact Or.inl htotal
      · rintro (htotal | ⟨j, v, hj, hpos⟩)
        · omega
        · obtain rfl : k = j := Except.ok.inj (Prod.mk.inj hj).1
          omega

/-- Without faults, the loop counts something exactly when one of its passes
    finds something. -/
theorem remoteLoop_count (cs : List RegisteredCluster)
    (hnodup : (cs.map RegisteredCluster.name).Nodup) :
    ∀ {total n : Nat} {s s' : Nat × World},
      (∀ c ∈ cs, c ∈ s.2.db.registeredClusters.rows) →
      (cs.foldlM addRemotePass total).run ClusterFaults.none.handler s
        = (.ok n, s') →
      (n ≠ 0 ↔ total ≠ 0 ∨
        ∃ p ∈ remoteReadings s.2.clock cs s.2.tick, Finds s.2 p) := by
  induction cs with
  | nil =>
      intro total n s s' _ h
      obtain ⟨hn, -⟩ := Prod.mk.inj h
      obtain rfl : total = n := Except.ok.inj hn
      constructor
      · exact Or.inl
      · rintro (htotal | ⟨p, hp, -⟩)
        · exact htotal
        · exact absurd hp List.not_mem_nil
  | cons c cs ih =>
      intro total n s s' hcs h
      obtain ⟨hnew, hnodup⟩ := List.nodup_cons.mp hnodup
      have hc := hcs c (List.mem_cons_self ..)
      obtain ⟨m, s₁, hround, -, hpassed⟩ :=
        remoteRound ClusterFaults.none total hc
      have hcs' : ∀ d ∈ cs, d ∈ s₁.2.db.registeredClusters.rows := by
        intro d hd
        rw [hpassed.shrunk.db]
        exact hcs d (List.mem_cons_of_mem c hd)
      rw [List.foldlM_cons, Prog.run_bind, hround, Prog.andThen_ok] at h
      -- a pass leaves what the passes over other clusters will find
      have hfinds : ∀ p ∈ remoteReadings s.2.clock cs (s.2.tick + 1),
          (Finds s₁.2 p ↔ Finds s.2 p) := by
        intro p hp
        have hname := remoteReadings_name hp
        have hne : p.1 ≠ c.name := by
          intro heq
          rw [heq] at hname
          exact hnew hname
        rw [Finds, Finds, hpassed.others p.1 hne]
      rw [ih hnodup hcs' h, remoteRound_count hc hround,
        hpassed.shrunk.clock, hpassed.tick, remoteReadings]
      constructor
      · rintro ((htotal | hfound) | ⟨p, hp, hfound⟩)
        · exact Or.inl htotal
        · exact Or.inr ⟨_, List.mem_cons_self .., hfound⟩
        · exact Or.inr ⟨p, List.mem_cons_of_mem _ hp,
            (hfinds p hp).mp hfound⟩
      · rintro (htotal | ⟨p, hp, hfound⟩)
        · exact Or.inl (Or.inl htotal)
        · rcases List.mem_cons.mp hp with rfl | hp
          · exact Or.inl (Or.inr hfound)
          · exact Or.inr ⟨p, hp, (hfinds p hp).mpr hfound⟩

end Loop

/-! ## The requests that stay approved -/

/-- An approved request that has expired by a time. -/
def Overdue (t : Time) (r : AccessRequestRecord) : Prop :=
  r.status = .approved ∧ ∃ e, r.expiresAt = some e ∧ e ≤ t

theorem overdue_iff (t : Time) (r : AccessRequestRecord) :
    Overdue t r ↔ r.approvedExpired t = true := by
  rw [Overdue, AccessRequestRecord.approvedExpired, Bool.and_eq_true,
    decide_eq_true_eq]
  cases r.expiresAt with
  | none => simp
  | some e => simp

/-- The reading of the clock that `mark_expired` goes by, after one for each
    pass. -/
def markReading (w : World) : Time :=
  w.clock (w.tick + 1 + w.db.registeredClusters.rows.length)

/-- What a request is after the job, when it reaches `mark_expired`. -/
theorem overdue_expireRow (t t' : Time) (r : AccessRequestRecord) :
    Overdue t (expireRow t' r) ↔ Overdue t r ∧ ¬ Overdue t' r := by
  rw [overdue_iff t' r, expireRow]
  by_cases hexp : r.approvedExpired t' = true
  · rw [if_pos hexp]
    refine iff_of_false ?_ (fun h => h.2 hexp)
    rintro ⟨hstatus, -⟩
    cases hstatus
  · rw [if_neg hexp]
    exact ⟨fun h => ⟨h, hexp⟩, And.left⟩

/-- Reading and changing the requests reaches no cluster. -/
theorem markSession_calls :
    (inSession markExpired).Uses (fun op => ∀ cluster, ¬ KubeOn cluster op) := by
  have hnow : ∀ cluster, ¬ KubeOn cluster .now := by
    rintro cluster ⟨o, h⟩
    cases h
  have hdb : ∀ (op : DbOp) (cluster : String), ¬ KubeOn cluster (.db op) := by
    rintro op cluster ⟨o, h⟩
    cases h
  refine Prog.uses_ensuring ?_ (Prog.uses_perform (hdb _))
  refine Prog.uses_bind (Prog.uses_perform hnow) (fun t => ?_)
  refine Prog.uses_bind (Prog.uses_perform (hdb _)) (fun rs => ?_)
  exact Prog.uses_perform (hdb _)

/-- The session of `mark_expired` marks what is overdue by its reading. -/
theorem run_markSession (faults : ClusterFaults) (s : Nat × World) :
    ∃ k t, (inSession markExpired).run faults.handler s
        = (.ok (), (k, s.2.ticked.setDb (s.2.db.withRequests t))) ∧
      ∀ id, t.get id = (s.2.db.accessRequests.get id).map
        (expireRow (reading s.2)) := by
  obtain ⟨t, hmark, hget⟩ := markExpired_run s.2
  obtain ⟨k, hk⟩ := markSession_calls.run_faulty
    (fun n op hop => plan_none faults hop n) handle s.1 s.2
  refine ⟨k, t, ?_, hget⟩
  have hsession : (inSession markExpired).run handle s.2
      = (.ok (), s.2.ticked.setDb (s.2.db.withRequests t)) := by
    rw [inSession, Prog.run_ensuring, hmark]
    rfl
  rw [hsession] at hk
  exact hk

/-- A job whose local pass raises ends there. -/
theorem main_of_error {faults : ClusterFaults} {w : World} {e : Exn}
    {s : Nat × World}
    (h : (reconcile localCluster).run faults.handler (0, w) = (.error e, s)) :
    main.run faults.handler (0, w) = (.error e, s) := by
  rw [main, Prog.run_bind, h, Prog.andThen_error]

/-- A job whose local pass returns passes over the registered clusters, and
    marks the requests if something was counted. -/
theorem main_of_ok {faults : ClusterFaults} {w : World} {m : Nat}
    {s : Nat × World}
    (h : (reconcile localCluster).run faults.handler (0, w) = (.ok m, s)) :
    ∃ n s', (w.db.registeredClusters.rows.foldlM addRemotePass m).run
        faults.handler (s.1 + 1, s.2) = (.ok n, s') ∧
      LoopPassed w.db.registeredClusters.rows s.2 s'.2 ∧
      main.run faults.handler (0, w)
        = (if n ≠ 0 then inSession markExpired else pure ()).run
            faults.handler s' := by
  have hpassed := passed_reconcile faults localCluster (0, w)
  rw [h] at hpassed
  have hdb : s.2.db = w.db := hpassed.shrunk.db
  obtain ⟨n, s', hloop, hrest⟩ := run_remoteLoop faults
    w.db.registeredClusters.rows m (s.1 + 1, s.2) (fun c hc => by
      rw [hdb]
      exact hc)
  refine ⟨n, s', hloop, hrest, ?_⟩
  rw [main, Prog.run_bind, h, Prog.andThen_ok, Prog.run_bind, run_db,
    handler_db]
  show Prog.andThen (.ok s.2.db.registeredClusters.rows, (s.1 + 1, s.2)) _ = _
  rw [Prog.andThen_ok, hdb, Prog.run_bind, hloop, Prog.andThen_ok]

/-- The names of the registered clusters are distinct. -/
theorem clusterNames_nodup (w : World) :
    (w.db.registeredClusters.rows.map RegisteredCluster.name).Nodup :=
  w.db.registeredClusters.nodup

/-- The local pass and the loop count something exactly when one of the passes
    finds something. -/
theorem passes_count {w : World} {m n : Nat} {s s' : Nat × World}
    (h : (reconcile localCluster).run ClusterFaults.none.handler (0, w)
      = (.ok m, s))
    (hloop : (w.db.registeredClusters.rows.foldlM addRemotePass m).run
      ClusterFaults.none.handler (s.1 + 1, s.2) = (.ok n, s')) :
    n ≠ 0 ↔ ∃ p ∈ passes w, Finds w p := by
  have hpassed := passed_reconcile ClusterFaults.none localCluster (0, w)
  rw [h] at hpassed
  have hcount := remoteLoop_count w.db.registeredClusters.rows
    (clusterNames_nodup w) (s := (s.1 + 1, s.2)) (fun c hc => by
      rw [hpassed.shrunk.db]
      exact hc) hloop
  have hhealthy : Healthy ClusterFaults.none localCluster :=
    fun _ _ _ => rfl
  obtain ⟨k, hk⟩ := healthy_reconcile hhealthy (0, w)
  have hlocal : (reconcile localCluster).run handle w = (.ok m, s.2) := by
    rw [h] at hk
    obtain ⟨hres, hst⟩ := Prod.mk.inj hk
    exact Prod.ext hres.symm (congrArg Prod.snd hst).symm
  rw [hcount]
  by_cases hm : m = 0
  · -- nothing has changed so far
    have hworld : s.2 = w.ticked := by
      rcases (reconcile_effect hlocal).2 with ⟨-, hw⟩ | ⟨hpos, -⟩
      · exact hw
      · omega
    have hno : ¬ Finds w (localCluster, reading w) := by
      rw [finds_iff]
      rintro ⟨j, v, hj, hpos⟩
      rw [hlocal] at hj
      exact hpos ((Except.ok.inj (Prod.mk.inj hj).1).symm.trans hm)
    rw [hworld]
    constructor
    · rintro (hpos | ⟨p, hp, hfound⟩)
      · exact absurd hm hpos
      · exact ⟨p, List.mem_cons_of_mem _ hp, hfound⟩
    · rintro ⟨p, hp, hfound⟩
      rcases List.mem_cons.mp hp with rfl | hp
      · exact absurd hfound hno
      · exact Or.inr ⟨p, hp, hfound⟩
  · have hfound : Finds w (localCluster, reading w) :=
      (finds_iff w localCluster).mpr ⟨m, s.2, hlocal, hm⟩
    exact iff_of_true (Or.inl hm) ⟨_, List.mem_cons_self .., hfound⟩

/-- After a run without faults, no request that was overdue when the job
    started is left approved, exactly when there was none, or one of the passes
    finds a binding to delete and the clock is not set back. -/
theorem main_overdue_iff (w : World)
    (hmain : (main.run handle w).1 = .ok ()) :
    (∀ r ∈ (main.run handle w).2.db.accessRequests.rows,
        ¬ Overdue (reading w) r) ↔
      ∀ r ∈ w.db.accessRequests.rows, Overdue (reading w) r →
        (∃ p ∈ passes w, Finds w p) ∧ Overdue (markReading w) r := by
  obtain ⟨k, hk⟩ := (Prog.uses_any main).run_faulty
    (fun n op _ => (rfl : ClusterFaults.none.plan n op = none)) handle 0 w
  have hstates : (main.run ClusterFaults.none.handler (0, w)).2.2
      = (main.run handle w).2 := congrArg (fun p => p.2.2) hk
  have hok : (main.run ClusterFaults.none.handler (0, w)).1 = .ok () :=
    (congrArg Prod.fst hk).trans hmain
  rw [← hstates]
  rcases hlocal : (reconcile localCluster).run ClusterFaults.none.handler
    (0, w) with ⟨r, s⟩
  cases r with
  | error e =>
      rw [main_of_error hlocal] at hok
      cases hok
  | ok m =>
      obtain ⟨n, s', hloop, hpassed, hrun⟩ := main_of_ok hlocal
      have hfirst := passed_reconcile ClusterFaults.none localCluster (0, w)
      rw [hlocal] at hfirst
      have hdb : s'.2.db = w.db := hpassed.shrunk.db.trans hfirst.shrunk.db
      have hcount := passes_count hlocal hloop
      rw [hrun]
      -- the requests are marked only when a binding was deleted
      by_cases hn : n ≠ 0
      · have hreading : reading s'.2 = markReading w := by
          rw [reading, hpassed.tick, hpassed.shrunk.clock, hfirst.tick,
            hfirst.shrunk.clock, markReading]
        obtain ⟨j, t, hmark, hget⟩ := run_markSession ClusterFaults.none s'
        rw [if_pos hn, hmark]
        rw [hreading, hdb] at hget
        show (∀ r ∈ t.rows, ¬ Overdue (reading w) r) ↔ _
        constructor
        · intro h r hr hover
          refine ⟨hcount.mp hn, ?_⟩
          by_contra hlate
          have hrow : t.get r.id = some (expireRow (markReading w) r) := by
            rw [hget, Table.get_of_mem hr]
            rfl
          exact h _ (Table.mem_of_get hrow)
            ((overdue_expireRow _ _ r).mpr ⟨hover, hlate⟩)
        · intro h r hr hover
          have hrow := hget r.id
          rw [Table.get_of_mem hr] at hrow
          cases hold : w.db.accessRequests.get r.id with
          | none =>
              rw [hold] at hrow
              cases hrow
          | some old =>
              rw [hold] at hrow
              obtain rfl : r = expireRow (markReading w) old :=
                Option.some.inj hrow
              obtain ⟨hover, hlate⟩ := (overdue_expireRow _ _ old).mp hover
              exact hlate (h old (Table.mem_of_get hold) hover).2
      · rw [if_neg hn, Prog.run_pure, hdb]
        have hno : ¬ ∃ p ∈ passes w, Finds w p := fun h => hn (hcount.mpr h)
        constructor
        · exact fun h r hr hover => absurd hover (h r hr)
        · exact fun h r hr hover => hno (h r hr hover).1

/-- Two grants have ended, and the job finds the binding of one of them on each
    of the clusters that it visits. -/
theorem main_overdue_found :
    (main.run handle twoGrants).1 = .ok () ∧
    ∀ r ∈ (main.run handle twoGrants).2.db.accessRequests.rows,
      ¬ Overdue (reading twoGrants) r := by
  have hok : (main.run handle twoGrants).1 = .ok () := by decide
  refine ⟨hok, (main_overdue_iff twoGrants hok).mpr ?_⟩
  intro r _ hover
  refine ⟨⟨_, List.mem_cons_self, ?_⟩, hover⟩
  exact (finds_iff twoGrants "local").mpr ⟨1,
    ((reconcile "local").run handle twoGrants).2, Prod.ext (by decide) rfl,
    by decide⟩

/-- A grant whose binding was deleted by hand. -/
def bindingGone : World :=
  World.fresh.setDb { Database.fresh with
    accessRequests := Table.empty.put (endedRequest "1") }

/-- The job has nothing to delete, and the request stays approved. -/
theorem main_leaves_overdue :
    ¬ ∀ w : World, (main.run handle w).1 = .ok () →
      ∀ r ∈ (main.run handle w).2.db.accessRequests.rows,
        ¬ Overdue (reading w) r := by
  intro hall
  refine hall bindingGone (by decide) (endedRequest "1") (by decide) ?_
  exact ⟨rfl, Time.epoch, rfl, Nat.le_refl _⟩

/-! ## The local pass under faults -/

/-- The exception of a fault. -/
def faultExn : Fault Exn → Exn
  | .refuse e => e
  | .lose e => e

/-- A pass goes on after a call: it meets no fault, or it is a delete call that
    is answered with 404. -/
def Passable (plan : Plan backend Exn) (n : Nat) (op : Op) : Prop :=
  ∀ f, plan n op = some f → faultExn f = .api ⟨404⟩ ∧
    ∃ cluster ns name, op = .kube cluster (.deleteBinding ns name)

/-- A pass goes on after each of these calls, the first of which has the
    number `n`. -/
def Spared (plan : Plan backend Exn) : Nat → List Op → Prop
  | _, [] => True
  | n, op :: ops => Passable plan n op ∧ Spared plan (n + 1) ops

theorem spared_append (plan : Plan backend Exn) (ops ops' : List Op) :
    ∀ n, Spared plan n (ops ++ ops') ↔
      Spared plan n ops ∧ Spared plan (n + ops.length) ops' := by
  induction ops with
  | nil => exact fun n => ⟨fun h => ⟨trivial, h⟩, And.right⟩
  | cons op ops ih =>
      intro n
      rw [List.cons_append, Spared, Spared, ih, List.length_cons,
        show n + (ops.length + 1) = n + 1 + ops.length by omega, and_assoc]

/-- Has a binding expired at a time? -/
def expiredAt (t : Time) (b : Binding) : Bool :=
  match isExpired b.annotations t with
  | .ok expired => expired
  | .error _ => false

/-- The delete calls of a loop of `_reconcile`. -/
def deletions (cluster : String) (t : Time) (ns : Binding → Option String)
    (xs : List Binding) : List Op :=
  (xs.filter (expiredAt t)).map
    (fun b => .kube cluster (.deleteBinding (ns b) b.name))

/-- The calls of a pass on a cluster, after it has read the clock. -/
def passCalls (cluster : String) (c : Cluster) (t : Time) : List Op :=
  .kube cluster (.listBindings .cluster jitSelector none none) ::
    (deletions cluster t (fun _ => none) (listed c .cluster) ++
      .kube cluster (.listBindings .allNamespaces jitSelector none none) ::
        deletions cluster t Binding.ns (listed c .allNamespaces))

/-- The pass over the local cluster, whose calls are the first ones of the
    job, gets through. -/
def LocalSpared (faults : ClusterFaults) (w : World) : Prop :=
  Spared faults.plan 1
    (passCalls localCluster (w.clusters localCluster) (reading w))

section Local

variable {faults : ClusterFaults} {cluster : String} {α β : Type}

/-- A program issues these calls and returns, or one of them stops it. -/
def Goes (faults : ClusterFaults) (p : Svc α) (s : Nat × World)
    (ops : List Op) : Prop :=
  (Spared faults.plan s.1 ops ∧
    ∃ a w, p.run faults.handler s = (.ok a, (s.1 + ops.length, w))) ∨
  (¬ Spared faults.plan s.1 ops ∧
    ∃ e t, p.run faults.handler s = (.error e, t))

theorem goes_pure (a : α) (s : Nat × World) :
    Goes faults (pure a) s [] := Or.inl ⟨trivial, a, s.2, rfl⟩

/-- Two programs in sequence issue their calls in sequence. -/
theorem goes_bind {p : Svc α} {f : α → Svc β} {s : Nat × World}
    {ops ops' : List Op} (hp : Goes faults p s ops)
    (hf : ∀ a w, p.run faults.handler s = (.ok a, (s.1 + ops.length, w)) →
      Goes faults (f a) (s.1 + ops.length, w) ops') :
    Goes faults (p >>= f) s (ops ++ ops') := by
  rw [Goes, spared_append, Prog.run_bind]
  rcases hp with ⟨hspared, a, w, hrun⟩ | ⟨hspared, e, t, hrun⟩
  · rw [hrun, Prog.andThen_ok]
    rcases hf a w hrun with ⟨hspared', b, v, hrun'⟩ | ⟨hspared', e, t, hrun'⟩
    · refine Or.inl ⟨⟨hspared, hspared'⟩, b, v, ?_⟩
      rw [hrun', List.length_append, Nat.add_assoc]
    · exact Or.inr ⟨fun h => hspared' h.2, e, t, hrun'⟩
  · rw [hrun, Prog.andThen_error]
    exact Or.inr ⟨fun h => hspared h.1, e, t, rfl⟩

/-- The list call of a pass. -/
theorem goes_listing (faults : ClusterFaults) (cluster : String)
    (scope : Scope) (s : Nat × World) :
    Goes faults (kube cluster (.listBindings scope jitSelector none none)) s
      [.kube cluster (.listBindings scope jitSelector none none)] := by
  rw [Goes, run_kube]
  cases hfault : faults.plan s.1
      (.kube cluster (.listBindings scope jitSelector none none)) with
  | none =>
      refine Or.inl ⟨⟨fun f hf => ?_, trivial⟩, ?_⟩
      · rw [hfault] at hf
        cases hf
      · rw [ClusterFaults.handler, faulty_none handle hfault, handle_listing]
        exact ⟨_, _, rfl⟩
  | some f =>
      refine Or.inr ⟨?_, ?_⟩
      · rintro ⟨hpassable, -⟩
        obtain ⟨-, c, ns, name, hop⟩ := hpassable f hfault
        cases hop
      · cases f with
        | refuse e => exact ⟨e, _, faulty_refuse handle hfault⟩
        | lose e => exact ⟨e, _, faulty_lose handle hfault⟩

/-- Without a fault, a delete call deletes or finds nothing. -/
theorem deleteBinding_answers (cluster : String) (ns : Option String)
    (name : String) (w : World) :
    (handle (.kube cluster (.deleteBinding ns name)) w).1 = .ok () ∨
      (handle (.kube cluster (.deleteBinding ns name)) w).1
        = .error (.api ⟨404⟩) := by
  show (storing (w.clusters cluster) (deleteIn _ _) ()
      (w.clusters cluster).withBindings).1.mapError Exn.api = .ok () ∨
    (storing (w.clusters cluster) (deleteIn _ _) ()
      (w.clusters cluster).withBindings).1.mapError Exn.api = _
  rw [deleteIn]
  cases (w.clusters cluster).bindings.get (ns, name) with
  | none => exact Or.inr rfl
  | some x => exact Or.inl rfl

/-- A binding that has expired costs one delete call, and any other one
    none. -/
theorem goes_expireBinding (t : Time) (ns : Option String) (revoked : Nat)
    {b : Binding} (hread : Readable b) (s : Nat × World) :
    Goes faults (expireBinding cluster t ns revoked b) s
      (if expiredAt t b = true then
        [.kube cluster (.deleteBinding ns b.name)] else []) := by
  obtain ⟨expired, hexp⟩ := hread t
  rw [expiredAt, hexp, expireBinding, hexp]
  cases expired with
  | false => exact goes_pure revoked s
  | true =>
      show Goes faults (tryCatch _ _) s
        [.kube cluster (.deleteBinding ns b.name)]
      rw [Goes, Prog.run_catching, Prog.run_bind, run_kube]
      have hcaught : ∀ (e : Exn) (v : Nat × World),
          Prog.run faults.handler (if e = .api ⟨404⟩ then pure revoked
            else throw e) v
            = if e = .api ⟨404⟩ then (.ok revoked, v) else (.error e, v) :=
        fun e v => Prog.run_ite _ _ _ _ _
      cases hfault : faults.plan s.1
          (.kube cluster (.deleteBinding ns b.name)) with
      | none =>
          refine Or.inl ⟨⟨fun f hf => ?_, trivial⟩, ?_⟩
          · rw [hfault] at hf
            cases hf
          · rw [ClusterFaults.handler, faulty_none handle hfault]
            -- whatever it answers, the pass goes on
            rcases deleteBinding_answers cluster ns b.name s.2
              with hok | habsent
            · rw [hok]
              exact ⟨_, _, rfl⟩
            · rw [habsent, Prog.andThen_error, Prog.orElse_error]
              exact ⟨_, _, rfl⟩
      | some f =>
          have hrun : ∃ v : World, faults.handler
              (.kube cluster (.deleteBinding ns b.name)) s
                = (.error (faultExn f), (s.1 + 1, v)) := by
            cases f with
            | refuse e => exact ⟨_, faulty_refuse handle hfault⟩
            | lose e => exact ⟨_, faulty_lose handle hfault⟩
          obtain ⟨v, hv⟩ := hrun
          rw [hv, Prog.andThen_error, Prog.orElse_error, hcaught]
          by_cases habsent : faultExn f = .api ⟨404⟩
          · rw [if_pos habsent]
            refine Or.inl ⟨⟨fun f' hf' => ?_, trivial⟩, _, _, rfl⟩
            rw [hfault] at hf'
            obtain rfl := Option.some.inj hf'
            exact ⟨habsent, cluster, ns, b.name, rfl⟩
          · rw [if_neg habsent]
            refine Or.inr ⟨?_, _, _, rfl⟩
            rintro ⟨hpassable, -⟩
            exact habsent (hpassable f hfault).1

/-- A loop issues the delete calls of what has expired. -/
theorem goes_expireLoop (t : Time) (ns : Binding → Option String)
    (xs : List Binding) (hxs : ∀ b ∈ xs, Readable b) :
    ∀ (revoked : Nat) (s : Nat × World),
      Goes faults (xs.foldlM
        (fun revoked b => expireBinding cluster t (ns b) revoked b) revoked) s
        (deletions cluster t ns xs) := by
  induction xs with
  | nil => exact fun revoked s => goes_pure revoked s
  | cons x xs ih =>
      intro revoked s
      have hcalls : deletions cluster t ns (x :: xs)
          = (if expiredAt t x = true then
              [.kube cluster (.deleteBinding (ns x) x.name)] else [])
            ++ deletions cluster t ns xs := by
        rw [deletions, List.filter_cons]
        by_cases hexp : expiredAt t x = true
        · rw [if_pos hexp, if_pos hexp]
          rfl
        · rw [if_neg hexp, if_neg hexp]
          rfl
      rw [List.foldlM_cons, hcalls]
      refine goes_bind (goes_expireBinding t (ns x) revoked
        (hxs x (List.mem_cons_self ..)) s) ?_
      exact fun n w _ => ih (fun b hb => hxs b (List.mem_cons_of_mem x hb)) n _

/-- Deleting a ClusterRoleBinding leaves the list of RoleBindings. -/
theorem listed_deleteBinding (cluster name : String) (w : World) :
    listed ((handle (.kube cluster (.deleteBinding none name)) w).2.clusters
        cluster) .allNamespaces
      = listed (w.clusters cluster) .allNamespaces := by
  show listed ((w.setCluster cluster _).clusters cluster) .allNamespaces = _
  rw [World.setCluster_self]
  refine storing_snd (P := fun c => listed c .allNamespaces
    = listed (w.clusters cluster) .allNamespaces) rfl ?_
  intro tbl htbl
  rw [deleteIn] at htbl
  split at htbl
  · obtain rfl := Except.ok.inj htbl
    show ((w.clusters cluster).bindings.rows.filter _).filter _ = _
    rw [List.filter_filter, listed]
    -- the key that goes has no namespace, those that are listed have one
    refine List.filter_congr (fun b _ => ?_)
    cases hns : b.ns with
    | none => rfl
    | some ns =>
        have hkey : b.key ≠ (none, name) := by
          rw [Binding.key, hns]
          exact fun h => Option.some_ne_none ns (congrArg Prod.fst h)
        rw [decide_eq_true hkey, Bool.and_true]
  · cases htbl

/-- So the first loop of a pass leaves what the second one lists. -/
theorem clusterLoop_listed (faults : ClusterFaults) (cluster : String)
    (t : Time) (xs : List Binding) (revoked : Nat) (s : Nat × World) :
    listed (((xs.foldlM (fun revoked b =>
        expireBinding cluster t none revoked b) revoked).run faults.handler
          s).2.2.clusters cluster) .allNamespaces
      = listed (s.2.clusters cluster) .allNamespaces := by
  have huses : (xs.foldlM (fun revoked b =>
      expireBinding cluster t none revoked b) revoked).Uses
      (fun op : Op => ∃ name,
        op = .kube cluster (.deleteBinding none name)) :=
    Prog.uses_foldlM (fun n b _ => expireBinding_uses t ⟨b.name, rfl⟩ n)
      revoked
  have htrans : ∀ {u v x : Nat × World},
      listed (v.2.clusters cluster) .allNamespaces
        = listed (u.2.clusters cluster) .allNamespaces →
      listed (x.2.clusters cluster) .allNamespaces
        = listed (v.2.clusters cluster) .allNamespaces →
      listed (x.2.clusters cluster) .allNamespaces
        = listed (u.2.clusters cluster) .allNamespaces :=
    fun h h' => h'.trans h
  refine huses.run_keeps (R := fun s t => listed (t.2.clusters cluster)
    .allNamespaces = listed (s.2.clusters cluster) .allNamespaces)
    (fun _ => rfl) htrans ?_ s
  rintro op s ⟨name, rfl⟩
  exact (mostly_faulty faults.plan handle).keeps
    (R := fun w w' => listed (w'.clusters cluster) .allNamespaces
      = listed (w.clusters cluster) .allNamespaces)
    (fun _ => rfl) (listed_deleteBinding cluster name) s

/-- A pass over readable bindings issues its calls. -/
theorem goes_reconcileAt (t : Time) (s : Nat × World)
    (hread : JitReadable (s.2.clusters cluster)) :
    Goes faults (reconcileAt cluster t) s
      (passCalls cluster (s.2.clusters cluster) t) := by
  have hlisted : ∀ scope, ∀ b ∈ listed (s.2.clusters cluster) scope,
      Readable b := by
    intro scope b hb
    obtain ⟨hrow, -, hlabel⟩ := mem_listed.mp hb
    exact hread b hrow hlabel
  have hpage : ∀ {scope : Scope} {v : Nat × World} {page : Page Binding}
      {n : Nat} {w : World},
      (kube cluster (.listBindings scope jitSelector none none)).run
        faults.handler v = (.ok page, (n, w)) →
      page.items = listed (v.2.clusters cluster) scope ∧ w = v.2 := by
    intro scope v page n w h
    rw [run_kube] at h
    have hans := (mostly_faulty faults.plan handle).ok h
    rw [handle_listing] at hans
    obtain ⟨hres, hst⟩ := Prod.mk.inj hans
    rw [← Except.ok.inj hres]
    exact ⟨rfl, hst.symm⟩
  rw [reconcileAt]
  refine goes_bind (goes_listing faults cluster .cluster s) ?_
  intro crbs w hcrbs
  obtain ⟨hitems, rfl⟩ := hpage hcrbs
  rw [hitems]
  refine goes_bind (goes_expireLoop t (fun _ => none) _ (hlisted .cluster) 0
    _) ?_
  intro revoked w₁ hloop
  rw [List.length_singleton] at hloop
  have hsame := clusterLoop_listed faults cluster t
    (listed (s.2.clusters cluster) .cluster) 0 (s.1 + 1, s.2)
  rw [hloop] at hsame
  refine goes_bind (goes_listing faults cluster .allNamespaces _) ?_
  intro rbs w₂ hrbs
  obtain ⟨hitems', rfl⟩ := hpage hrbs
  rw [hitems', hsame]
  exact goes_expireLoop t Binding.ns _ (hlisted .allNamespaces) revoked _

/-- The pass over the local cluster returns exactly when its calls get
    through. -/
theorem localPass_iff (faults : ClusterFaults) (w : World)
    (hread : JitReadable (w.clusters localCluster)) :
    (∃ n s, (reconcile localCluster).run faults.handler (0, w) = (.ok n, s))
      ↔ LocalSpared faults w := by
  have hgoes : Goes faults (reconcileAt localCluster (reading w))
      (1, w.ticked)
      (passCalls localCluster (w.clusters localCluster) (reading w)) :=
    goes_reconcileAt (reading w) (1, w.ticked) hread
  rw [run_reconcileAt]
  rcases hgoes with ⟨hspared, n, v, hrun⟩ | ⟨hspared, e, t, hrun⟩
  · exact iff_of_true ⟨n, _, hrun⟩ hspared
  · refine iff_of_false ?_ hspared
    rintro ⟨n, s, hok⟩
    have hres := congrArg Prod.fst (hrun.symm.trans hok)
    cases hres

end Local

/-! ## What the job leaves on healthy clusters -/

section Healthy

variable {faults : ClusterFaults} {w : World}

/-- Marking the requests touches no cluster. -/
theorem mark_clusters (faults : ClusterFaults) (n : Nat) (s : Nat × World) :
    ((if n ≠ 0 then inSession markExpired else pure ()).run faults.handler
      s).2.2.clusters = s.2.clusters := by
  by_cases hn : n ≠ 0
  · obtain ⟨k, t, hmark, -⟩ := run_markSession faults s
    rw [if_pos hn, hmark]
    rfl
  · rw [if_neg hn]
    rfl

/-- A job whose local pass raises has not reached the other clusters. -/
theorem main_clusters_of_error {e : Exn} {s : Nat × World}
    (h : (reconcile localCluster).run faults.handler (0, w) = (.error e, s))
    {c : String} (hc : c ≠ localCluster) :
    (main.run faults.handler (0, w)).2.2.clusters c = w.clusters c := by
  have hpassed := passed_reconcile faults localCluster (0, w)
  rw [h] at hpassed
  rw [main_of_error h]
  exact hpassed.others c hc

/-- The passes over clusters other than the local one. -/
theorem mem_passes_remote {p : String × Time} (hp : p ∈ passes w)
    (hne : p.1 ≠ localCluster) :
    p ∈ remoteReadings w.clock w.db.registeredClusters.rows (w.tick + 1) := by
  rcases List.mem_cons.mp hp with rfl | hp
  · exact absurd rfl hne
  · exact hp

/-- A job whose local pass returns: on another healthy cluster, the bindings
    that have expired at its reading go, and the rest stays. -/
theorem main_remote {m : Nat} {s : Nat × World}
    (h : (reconcile localCluster).run faults.handler (0, w) = (.ok m, s))
    {p : String × Time} (hp : p ∈ passes w) (hne : p.1 ≠ localCluster)
    (hhealthy : Healthy faults p.1) (hread : JitReadable (w.clusters p.1)) :
    Swept p.2 p.1 w (main.run faults.handler (0, w)).2.2 ∧
      ∀ b ∈ (w.clusters p.1).bindings.rows,
        isExpired b.annotations p.2 ≠ .ok true →
        b ∈ ((main.run faults.handler (0, w)).2.2.clusters
          p.1).bindings.rows := by
  have hpassed := passed_reconcile faults localCluster (0, w)
  rw [h] at hpassed
  have hsame : s.2.clusters p.1 = w.clusters p.1 := hpassed.others p.1 hne
  have hclock : s.2.clock = w.clock := hpassed.shrunk.clock
  have htick : s.2.tick = w.tick + 1 := hpassed.tick
  obtain ⟨n, s', hloop, hrest, hmain⟩ := main_of_ok h
  have hsweeps := remoteLoop_sweeps w.db.registeredClusters.rows
    (clusterNames_nodup w) (s := (s.1 + 1, s.2)) (fun c hc => by
      rw [hpassed.shrunk.db]
      exact hc) hloop p (by
      rw [hclock, htick]
      exact mem_passes_remote hp hne) hhealthy (by rw [hsame]; exact hread)
  have hend : (main.run faults.handler (0, w)).2.2.clusters
      = s'.2.clusters := by
    rw [hmain]
    exact mark_clusters faults n s'
  rw [Swept, hend, ← hsame]
  exact hsweeps

/-- A healthy local cluster is swept. -/
theorem main_local (hhealthy : Healthy faults localCluster)
    (hread : JitReadable (w.clusters localCluster)) :
    Swept (reading w) localCluster w (main.run faults.handler (0, w)).2.2 := by
  obtain ⟨m, v, hpass⟩ := reconcile_returns hread
  obtain ⟨k, hk⟩ := healthy_reconcile hhealthy (0, w)
  have hlocal : (reconcile localCluster).run faults.handler (0, w)
      = (.ok m, (k, v)) := by
    rw [hk, hpass]
  obtain ⟨n, s', -, hrest, hmain⟩ := main_of_ok hlocal
  have hswept := (reconcile_swept hpass).after hrest.shrunk
  intro b hb hexp
  rw [hmain, mark_clusters]
  exact hswept b hb hexp

/-- On every cluster without failing calls the bindings that had expired when
    the job started have gone, exactly when this is so: the calls of the local
    pass get through whenever another such cluster has a binding to lose, and
    that binding has expired by the reading of the pass over its cluster. -/
theorem main_sweeps_iff (faults : ClusterFaults) (w : World)
    (hread : ∀ c, JitReadable (w.clusters c)) :
    (∀ p ∈ passes w, Healthy faults p.1 →
        Swept (reading w) p.1 w (main.run faults.handler (0, w)).2.2) ↔
      ∀ p ∈ passes w, p.1 ≠ localCluster → Healthy faults p.1 →
        ∀ b ∈ (w.clusters p.1).bindings.rows, Expired (reading w) b →
          LocalSpared faults w ∧ Expired p.2 b := by
  have hlocal := localPass_iff faults w (hread localCluster)
  rcases hrun : (reconcile localCluster).run faults.handler (0, w) with ⟨r, s⟩
  rw [hrun] at hlocal
  constructor
  · intro h p hp hne hhealthy b hb hexp
    have hgone := h p hp hhealthy b hb hexp
    have hthere : ∀ w' : World, b ∈ (w'.clusters p.1).bindings.rows →
        (w'.clusters p.1).bindings.get b.key ≠ none := by
      intro w' hb'
      rw [Table.get_of_mem hb']
      exact Option.some_ne_none b
    cases r with
    | error e =>
        refine absurd hgone (hthere _ ?_)
        rw [main_clusters_of_error hrun hne]
        exact hb
    | ok m =>
        refine ⟨hlocal.mp ⟨m, s, rfl⟩, hexp.1, ?_⟩
        by_contra hlive
        exact hthere _ ((main_remote hrun hp hne hhealthy
          (hread p.1)).2 b hb hlive) hgone
  · intro h p hp hhealthy
    by_cases hne : p.1 = localCluster
    · rw [hne] at hhealthy ⊢
      exact main_local hhealthy (hread localCluster)
    · intro b hb hexp
      obtain ⟨hspared, hlate⟩ := h p hp hne hhealthy b hb hexp
      obtain ⟨m, s', hok⟩ := hlocal.mpr hspared
      rw [hok] at hrun
      exact (main_remote hrun hp hne hhealthy (hread p.1)).1 b hb hlate

end Healthy

/-- The API of one cluster does not answer. -/
def clusterDown (name : String) : ClusterFaults where
  plan _ op :=
    match op with
    | .kube cluster _ =>
        if cluster = name then some (.refuse .connectionError) else none
    | _ => none
  onlyKube n op h := by
    cases op with
    | kube cluster op => exact ⟨cluster, op, rfl⟩
    | _ => exact absurd rfl h

theorem healthy_clusterDown {name cluster : String} (h : cluster ≠ name) :
    Healthy (clusterDown name) cluster := by
  rintro n op ⟨o, rfl⟩
  exact if_neg h

/-- The bindings of the two grants are readable. -/
theorem readable_twoGrants (c : String) :
    JitReadable (twoGrants.clusters c) := by
  intro b hb _
  obtain ⟨i, rfl⟩ := twoGrants_binding hb
  exact fun t => ⟨_, isExpired_isoformat t rfl⟩

/-- `edge` is down: the local cluster, which is healthy, is swept. -/
theorem main_sweeps_edgeDown :
    Swept (reading twoGrants) localCluster twoGrants
      (main.run (clusterDown "edge").handler (0, twoGrants)).2.2 := by
  refine (main_sweeps_iff (clusterDown "edge") twoGrants
    readable_twoGrants).mpr ?_ (localCluster, Time.epoch)
    (List.mem_cons_self ..) (healthy_clusterDown (by decide))
  intro p hp hne hhealthy
  have hpasses : passes twoGrants
      = [(localCluster, Time.epoch), ("edge", Time.epoch)] := by decide
  rw [hpasses] at hp
  rcases List.mem_cons.mp hp with rfl | hp
  · exact absurd rfl hne
  · obtain rfl := List.mem_singleton.mp hp
    have hdown := hhealthy 0 (.kube "edge" .getCode) ⟨_, rfl⟩
    cases hdown

/-- The local cluster is down: the binding on `edge`, which is healthy, is
    still there. -/
theorem main_misses_healthy :
    ¬ ∀ (faults : ClusterFaults) (w : World),
      (∀ c, JitReadable (w.clusters c)) →
      ∀ p ∈ passes w, Healthy faults p.1 →
        Swept (reading w) p.1 w (main.run faults.handler (0, w)).2.2 := by
  intro hall
  have hswept := hall (clusterDown localCluster) twoGrants readable_twoGrants
    ("edge", Time.epoch) (by decide) (healthy_clusterDown (by decide))
  have hexp : Expired Time.epoch
      (jitBinding (endedRequest "2") Time.epoch) := by
    refine ⟨rfl, ?_⟩
    rw [show (jitBinding (endedRequest "2") Time.epoch).annotations = some _
      from rfl, isExpired_isoformat Time.epoch rfl]
    exact congrArg Except.ok (decide_eq_true (Nat.le_refl _))
  have hgone := hswept (jitBinding (endedRequest "2") Time.epoch)
    (by decide) hexp
  revert hgone
  decide

end CvCleanup
