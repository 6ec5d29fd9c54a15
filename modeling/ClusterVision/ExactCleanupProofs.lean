import ClusterVision.CleanupRunProofs

/-! # Which bindings a pass deletes

    The expiry annotation of a binding is text that anyone with access to the
    cluster can write.  `_is_expired` takes text that is no timestamp for one
    that never comes.  A timestamp without time zone is one that it cannot
    compare with its clock: there the pass ends, and what it has not reached
    yet stays.

    Other clients use the cluster, too, and one of them may be the first to
    delete what a pass has listed. -/

namespace CvExact

open CvProg CvPage CvTable CvIso CvKube CvBackend CvRbac CvAccess CvExpire
open CvCleanup

/-! ## Races -/

/-- A plan in which some deletions of bindings come too late: another client
    has deleted the binding, and the call is answered with 404. -/
structure Races where
  plan : Plan backend Exn
  lost : ∀ n op f, plan n op = some f → f = .lose (.api ⟨404⟩) ∧
    ∃ cluster ns name, op = .kube cluster (.deleteBinding ns name)

/-- The calls of the job in these races. -/
def Races.handler (races : Races) : Handler backend Exn (Nat × World) :=
  faulty races.plan handle

/-- No other client interferes. -/
def Races.none : Races := ⟨fun _ _ => .none, fun _ _ _ h => nomatch h⟩

/-- Two runs, the first of them in races, return or raise alike and leave the
    same world.  What they count may differ. -/
def Agree {α β : Type} (p : Except Exn α × (Nat × World))
    (q : Except Exn β × World) : Prop :=
  p.1.map (fun _ => ()) = q.1.map (fun _ => ()) ∧ p.2.2 = q.2

section Agreement

variable {α β γ δ : Type} {races : Races} {cluster : String}

theorem agree_andThen {p : Except Exn α × (Nat × World)}
    {q : Except Exn β × World}
    {f : α → Nat × World → Except Exn γ × (Nat × World)}
    {g : β → World → Except Exn δ × World} (h : Agree p q)
    (hfg : ∀ a b n w, Agree (f a (n, w)) (g b w)) :
    Agree (Prog.andThen p f) (Prog.andThen q g) := by
  obtain ⟨r, n, w⟩ := p
  obtain ⟨r', w'⟩ := q
  obtain ⟨hend, hworld⟩ := h
  obtain rfl : w = w' := hworld
  cases r with
  | ok a =>
      cases r' with
      | ok b => exact hfg a b n w
      | error e' => cases hend
  | error e =>
      cases r' with
      | ok b => cases hend
      | error e' =>
          have he : e = e' := Except.error.inj hend
          rw [he]
          exact ⟨rfl, rfl⟩

/-- Only deletions can be raced. -/
theorem handler_calm {op : Op} (s : Nat × World)
    (hop : ∀ cluster ns name, op ≠ .kube cluster (.deleteBinding ns name)) :
    races.handler op s
      = ((handle op s.2).1, (s.1 + 1, (handle op s.2).2)) := by
  refine faulty_none handle ?_
  cases hplan : races.plan s.1 op with
  | none => rfl
  | some f =>
      obtain ⟨-, c, ns, name, hdelete⟩ := races.lost _ _ f hplan
      exact absurd hdelete (hop c ns name)

/-- Raced or not, a deletion has its effect. -/
theorem handler_deleteBinding (ns : Option String) (name : String)
    (s : Nat × World) :
    (races.handler (.kube cluster (.deleteBinding ns name)) s).2.2
        = (handle (.kube cluster (.deleteBinding ns name)) s.2).2 ∧
      ((races.handler (.kube cluster (.deleteBinding ns name)) s).1
          = .ok () ∨
        (races.handler (.kube cluster (.deleteBinding ns name)) s).1
          = .error (.api ⟨404⟩)) := by
  cases hplan : races.plan s.1 (.kube cluster (.deleteBinding ns name)) with
  | none =>
      rw [Races.handler, faulty_none handle hplan]
      exact ⟨rfl, deleteBinding_answers cluster ns name s.2⟩
  | some f =>
      obtain ⟨rfl, -⟩ := races.lost _ _ f hplan
      rw [Races.handler, faulty_lose handle hplan]
      exact ⟨rfl, Or.inr rfl⟩

/-- A round ends alike in races, whatever has been counted before it. -/
theorem agree_expireBinding (t : Time) (ns : Option String) (b : Binding)
    (n n' : Nat) (s : Nat × World) :
    Agree ((expireBinding cluster t ns n b).run races.handler s)
      ((expireBinding cluster t ns n' b).run handle s.2) := by
  rw [expireBinding, expireBinding, Prog.run_bind, Prog.run_bind,
    Prog.run_ofExcept, Prog.run_ofExcept]
  cases isExpired b.annotations t with
  | error e => exact ⟨rfl, rfl⟩
  | ok expired =>
      rw [Prog.andThen_ok, Prog.andThen_ok]
      cases expired with
      | false => exact ⟨rfl, rfl⟩
      | true =>
          rw [if_neg Bool.true_eq_false.mp, if_neg Bool.true_eq_false.mp,
            Prog.run_catching, Prog.run_catching, Prog.run_bind,
            Prog.run_bind, run_kube, run_kube]
          obtain ⟨hworld, hend⟩ := @handler_deleteBinding races cluster ns
            b.name s
          have hend' := deleteBinding_answers cluster ns b.name s.2
          generalize races.handler (.kube cluster (.deleteBinding ns b.name)) s
            = p at hworld hend ⊢
          generalize handle (.kube cluster (.deleteBinding ns b.name)) s.2
            = q at hworld hend' ⊢
          obtain ⟨r, m, w⟩ := p
          obtain ⟨r', w'⟩ := q
          obtain rfl : w = w' := hworld
          -- deleted or absent: each of the two runs goes on
          rcases hend with rfl | rfl <;> rcases hend' with rfl | rfl <;>
            exact ⟨rfl, rfl⟩

theorem agree_expireLoop (t : Time) (ns : Binding → Option String)
    (xs : List Binding) :
    ∀ (n n' : Nat) (s : Nat × World),
      Agree ((xs.foldlM (fun revoked b => expireBinding cluster t (ns b)
          revoked b) n).run races.handler s)
        ((xs.foldlM (fun revoked b => expireBinding cluster t (ns b)
          revoked b) n').run handle s.2) := by
  induction xs with
  | nil => exact fun _ _ _ => ⟨rfl, rfl⟩
  | cons x xs ih =>
      intro n n' s
      rw [List.foldlM_cons, List.foldlM_cons, Prog.run_bind, Prog.run_bind]
      refine agree_andThen (agree_expireBinding t (ns x) x n n' s) ?_
      exact fun m m' k w => ih m m' (k, w)

/-- The list call of a pass, and what is done with what it lists. -/
theorem agree_listing (scope : Scope) {f g : Page Binding → Svc Nat}
    (s : Nat × World)
    (hfg : ∀ page s, Agree ((f page).run races.handler s)
      ((g page).run handle s.2)) :
    Agree ((kube cluster (.listBindings scope jitSelector none none)
        >>= f).run races.handler s)
      ((kube cluster (.listBindings scope jitSelector none none)
        >>= g).run handle s.2) := by
  rw [Prog.run_bind, Prog.run_bind, run_kube, run_kube,
    handler_calm s (by rintro _ _ _ ⟨⟩), handle_listing]
  exact hfg _ _

/-- A pass ends alike in races. -/
theorem agree_reconcile (races : Races) (cluster : String) (s : Nat × World) :
    Agree ((reconcile cluster).run races.handler s)
      ((reconcile cluster).run handle s.2) := by
  rw [reconcile, Prog.run_bind, Prog.run_bind, run_now, run_now,
    handler_calm s (by rintro _ _ _ ⟨⟩), handle_now, Prog.andThen_ok,
    Prog.andThen_ok]
  refine agree_listing .cluster (s.1 + 1, s.2.ticked) (fun crbs s => ?_)
  rw [Prog.run_bind, Prog.run_bind]
  refine agree_andThen (agree_expireLoop _ (fun _ => none) _ 0 0 s) ?_
  intro n n' m w
  refine agree_listing .allNamespaces (m, w) (fun rbs s => ?_)
  exact agree_expireLoop _ Binding.ns _ n n' s

end Agreement

/-! ## Annotations -/

/-- The expiry of a binding, where the annotation is a timestamp. -/
def Expiry (b : Binding) (d : Datetime) : Prop :=
  ∃ text, (b.annotations.getD []).get? expiresAnnotation = some text ∧
    fromisoformat text.toList = some d

/-- The annotation is a timestamp with a time zone, not after `t`. -/
def ExpiredBy (t : Time) (b : Binding) : Prop :=
  ∃ d offset, Expiry b d ∧ d.utcoffset = some offset ∧
    (d.fields.instant : Int) - offset ≤ (t.instant : Int)

/-- A timestamp in the annotation has a time zone. -/
def Zoned (b : Binding) : Prop := ∀ d, Expiry b d → d.utcoffset ≠ none

/-- The binding has the label of a JIT binding. -/
def Jit (b : Binding) : Prop := selected jitSelector b.labels = true

section Annotations

variable {b : Binding} {t : Time}

/-- A binding has one expiry at most. -/
theorem Expiry.unique {d d' : Datetime} (h : Expiry b d) (h' : Expiry b d') :
    d' = d := by
  obtain ⟨text, hget, hparse⟩ := h
  obtain ⟨text', hget', hparse'⟩ := h'
  obtain rfl := Option.some.inj (hget'.symm.trans hget)
  exact Option.some.inj (hparse'.symm.trans hparse)

/-- Without a timestamp in the annotation, a binding never expires. -/
theorem isExpired_of_no_expiry (h : ∀ d, ¬ Expiry b d) (t : Time) :
    isExpired b.annotations t = .ok false := by
  rw [isExpired]
  cases hget : (b.annotations.getD []).get? expiresAnnotation with
  | none => rfl
  | some text =>
      simp only
      by_cases hempty : text = ""
      · rw [if_pos hempty]
      · rw [if_neg hempty]
        cases hparse : fromisoformat text.toList with
        | none => rfl
        | some d => exact absurd ⟨text, hget, hparse⟩ (h d)

/-- A timestamp in the annotation is compared with the clock. -/
theorem isExpired_of_expiry {d : Datetime} (h : Expiry b d) (t : Time) :
    isExpired b.annotations t = lessEqual d t := by
  obtain ⟨text, hget, hparse⟩ := h
  have hne : text ≠ "" := by
    rintro rfl
    cases hparse
  rw [isExpired, hget]
  simp only
  rw [if_neg hne, hparse]

/-- `_is_expired` is right where it returns `True`. -/
theorem isExpired_iff :
    isExpired b.annotations t = .ok true ↔ ExpiredBy t b := by
  by_cases hnone : ∀ d, ¬ Expiry b d
  · rw [isExpired_of_no_expiry hnone]
    refine ⟨(fun h => by cases h), ?_⟩
    rintro ⟨d, _, hd, _⟩
    exact absurd hd (hnone d)
  · obtain ⟨d, hd⟩ := not_forall_not.mp hnone
    rw [isExpired_of_expiry hd, lessEqual]
    cases hoffset : d.utcoffset with
    | none =>
        refine ⟨(fun h => by cases h), ?_⟩
        rintro ⟨d', offset, hd', hzone, -⟩
        rw [hd.unique hd', hoffset] at hzone
        cases hzone
    | some offset =>
        constructor
        · intro h
          exact ⟨d, offset, hd, hoffset, of_decide_eq_true (Except.ok.inj h)⟩
        · rintro ⟨d', offset', hd', hzone, hle⟩
          rw [hd.unique hd'] at hzone hle
          obtain rfl := Option.some.inj (hoffset.symm.trans hzone)
          exact congrArg Except.ok (decide_eq_true hle)

/-- A binding can be compared with the clock when its timestamp has a time
    zone, or it has none. -/
theorem readable_iff_zoned : Readable b ↔ Zoned b := by
  constructor
  · intro hread d hd hnone
    obtain ⟨expired, h⟩ := hread Time.epoch
    rw [isExpired_of_expiry hd, lessEqual, hnone] at h
    cases h
  · intro hzoned t
    by_cases hnone : ∀ d, ¬ Expiry b d
    · exact ⟨false, isExpired_of_no_expiry hnone t⟩
    · obtain ⟨d, hd⟩ := not_forall_not.mp hnone
      rw [isExpired_of_expiry hd, lessEqual]
      cases hoffset : d.utcoffset with
      | none => exact absurd hoffset (hzoned d hd)
      | some offset => exact ⟨_, rfl⟩

end Annotations

/-! ## The pass -/

/-- What `_reconcile` is for: it returns, and the bindings of the cluster are
    those it had, but for the JIT bindings whose own annotation has a time that
    has come. -/
structure CleansExactly (races : Races) (cluster : String) (n : Nat)
    (w : World) : Prop where
  returns : ∃ revoked,
    ((reconcile cluster).run races.handler (n, w)).1 = .ok revoked
  jit : ∀ b ∈ (w.clusters cluster).bindings.rows, Jit b →
    ((((reconcile cluster).run races.handler (n, w)).2.2.clusters
      cluster).bindings.get b.key = none ↔ ExpiredBy (reading w) b)
  rest : ∀ b ∈ (w.clusters cluster).bindings.rows,
    ¬ (Jit b ∧ ExpiredBy (reading w) b) →
    b ∈ (((reconcile cluster).run races.handler (n, w)).2.2.clusters
      cluster).bindings.rows

/-- A pass that returns keeps what is no JIT binding or has not expired. -/
theorem mem_of_reconcile {w w' : World} {cluster : String} {m : Nat}
    (hrun : (reconcile cluster).run handle w = (.ok m, w')) {b : Binding}
    (hb : b ∈ (w.clusters cluster).bindings.rows)
    (hlive : ¬ (Jit b ∧ ExpiredBy (reading w) b)) :
    b ∈ (w'.clusters cluster).bindings.rows := by
  have hkept := reconcile_spares hb
    (fun h => hlive ⟨h.1, isExpired_iff.mp h.2⟩)
  rw [hrun] at hkept
  exact hkept

/-- A pass does what it is for exactly when no JIT binding of the cluster has
    a timestamp without time zone. -/
theorem reconcile_cleansExactly_iff (races : Races) (cluster : String)
    (n : Nat) (w : World) :
    CleansExactly races cluster n w ↔
      ∀ b ∈ (w.clusters cluster).bindings.rows, Jit b → Zoned b := by
  obtain ⟨hend, hworld⟩ := agree_reconcile races cluster (n, w)
  have hzoned : (∀ b ∈ (w.clusters cluster).bindings.rows, Jit b → Zoned b)
      ↔ JitReadable (w.clusters cluster) :=
    forall₃_congr (fun _ _ _ => readable_iff_zoned.symm)
  rw [hzoned]
  constructor
  · rintro ⟨⟨revoked, hok⟩, -, -⟩
    rw [hok] at hend
    rcases hrun : (reconcile cluster).run handle w with ⟨r, w'⟩
    rw [hrun] at hend
    cases r with
    | error e => cases hend
    | ok m => exact (reconcile_effect hrun).1
  · intro hread
    obtain ⟨m, w', hrun⟩ := reconcile_returns hread
    rw [hrun] at hend hworld
    refine ⟨?_, ?_, ?_⟩
    · rcases hraced : ((reconcile cluster).run races.handler (n, w)).1
        with e | revoked
      · rw [hraced] at hend
        cases hend
      · exact ⟨revoked, rfl⟩
    · intro b hb hjit
      rw [hworld]
      constructor
      · intro hgone
        by_contra hlive
        have hkept := mem_of_reconcile hrun hb (fun h => hlive h.2)
        rw [Table.get_of_mem hkept] at hgone
        cases hgone
      · intro hexp
        exact reconcile_swept hrun b hb ⟨hjit, isExpired_iff.mpr hexp⟩
    · intro b hb hlive
      rw [hworld]
      exact mem_of_reconcile hrun hb hlive

/-- Someone has set the expiry of a JIT binding without a time zone. -/
def naiveBinding : Binding :=
  clusterRoleBinding "clustervision-jit-1" "view" [⟨.user, "ada", none⟩]
    jitLabels (some [( expiresAnnotation, "2024-01-01T00:00:00")])

/-- The next one has expired. -/
def expiredBinding : Binding :=
  clusterRoleBinding "clustervision-jit-2" "edit" [⟨.user, "bob", none⟩]
    jitLabels (some [( expiresAnnotation, "1970-01-01T00:00:00+00:00")])

/-- A cluster with the two bindings. -/
def naiveWorld : World :=
  World.fresh.setCluster localCluster
    (Cluster.fresh.withBindings
      ((Table.empty.put naiveBinding).put expiredBinding))

/-- The first binding keeps the second one alive. -/
theorem reconcile_stops_at_naive :
    ¬ ∀ (races : Races) (cluster : String) (n : Nat) (w : World),
      CleansExactly races cluster n w := by
  intro hall
  have hexp : ExpiredBy (reading naiveWorld) expiredBinding :=
    isExpired_iff.mp rfl
  have hgone := ((hall Races.none localCluster 0 naiveWorld).jit
    expiredBinding (by decide) rfl).mpr hexp
  revert hgone
  decide

end CvExact
