import ClusterVision.ExpireAccessBindings
import ClusterVision.AccessRequestProofs

/-! # What the cleanup job leaves behind

    A pass that completes has deleted every JIT binding of its cluster that had
    expired when it read the clock.  The job as a whole then changes to
    `expired` the approved requests that have expired by its last reading of
    the clock; for each of them, the clusters whose pass completed at or after
    the expiry hold no binding of it any more. -/

namespace CvExpire

open CvProg CvPage CvTable CvIso CvKube CvBackend CvRbac CvAccess

/-! ## Outages -/

/-- A plan of faults in which no call is refused with 404: that is the answer
    that an object is absent, and not a failure. -/
structure Outages where
  plan : Plan backend Exn
  notFoundFree : ∀ n op, plan n op ≠ some (.refuse (.api ⟨404⟩))

/-- The calls of the job under a plan of faults. -/
def Outages.handler (outages : Outages) : Handler backend Exn (Nat × World) :=
  faulty outages.plan handle

/-- No call fails. -/
def Outages.none : Outages := ⟨fun _ _ => .none, fun _ _ => nofun⟩

section Handlers

variable {w w' : World} {cluster : String}

/-- A delete call leaves no binding under its key, whatever it answers. -/
theorem handle_deleteBinding_gone (cluster : String) (ns : Option String)
    (name : String) (w : World) :
    ((handle (.kube cluster (.deleteBinding ns name)) w).2.clusters
      cluster).bindings.get (ns, name) = none := by
  show ((w.setCluster cluster _).clusters cluster).bindings.get _ = _
  rw [World.setCluster_self]
  show (storing _ (deleteIn _ _) _ _).2.bindings.get (ns, name) = none
  rw [deleteIn]
  cases hb : (w.clusters cluster).bindings.get (ns, name) with
  | none => exact hb
  | some b => exact Table.get_erase_self _ _

/-- A delete call that answers 404 under an outage plan leaves no binding under
    its key. -/
theorem notFound_gone (outages : Outages) {ns : Option String}
    {name : String} {s s' : Nat × World}
    (h : outages.handler (.kube cluster (.deleteBinding ns name)) s
      = (.error (.api ⟨404⟩), s')) :
    (s'.2.clusters cluster).bindings.get (ns, name) = none := by
  have hgone := handle_deleteBinding_gone cluster ns name s.2
  rw [Outages.handler] at h
  cases hp : outages.plan s.1 (.kube cluster (.deleteBinding ns name)) with
  | none =>
      rw [faulty_none handle hp] at h
      obtain ⟨-, rfl⟩ := Prod.mk.inj h
      exact hgone
  | some f =>
      cases f with
      | refuse e =>
          rw [faulty_refuse handle hp] at h
          obtain rfl := Except.error.inj (congrArg Prod.fst h)
          exact absurd hp (outages.notFoundFree _ _)
      | lose e =>
          rw [faulty_lose handle hp] at h
          obtain ⟨-, rfl⟩ := Prod.mk.inj h
          exact hgone

/-- What the passes of the job can do to a world: bindings go, and nothing
    else that matters changes. -/
structure Shrunk (w w' : World) : Prop where
  bindings : ∀ c, ∀ b ∈ (w'.clusters c).bindings.rows,
    b ∈ (w.clusters c).bindings.rows
  db : w'.db = w.db
  clock : w'.clock = w.clock

theorem Shrunk.refl (w : World) : Shrunk w w := ⟨fun _ _ h => h, rfl, rfl⟩

theorem Shrunk.trans {u v w : World} (h : Shrunk u v) (h' : Shrunk v w) :
    Shrunk u w :=
  ⟨fun c b hb => h.bindings c b (h'.bindings c b hb), h'.db.trans h.db,
    h'.clock.trans h.clock⟩

/-- What is gone stays gone. -/
theorem Shrunk.get_none (h : Shrunk w w') {c : String}
    {k : Option String × String}
    (hk : (w.clusters c).bindings.get k = none) :
    (w'.clusters c).bindings.get k = none := by
  rw [Table.get_eq_none_iff] at hk ⊢
  intro b hb
  exact hk b (h.bindings c b hb)

/-- A binding is still there, or nothing has its key. -/
theorem Shrunk.mem_or_gone (h : Shrunk w w') {c : String} {b : Binding}
    (hb : b ∈ (w.clusters c).bindings.rows) :
    b ∈ (w'.clusters c).bindings.rows ∨
      (w'.clusters c).bindings.get b.key = none := by
  cases hget : (w'.clusters c).bindings.get b.key with
  | none => exact Or.inr rfl
  | some x =>
      obtain ⟨hx, hkey⟩ := Table.get_eq_some_iff.mp hget
      refine Or.inl ?_
      rw [← Table.eq_of_key (h.bindings c x hx) hb hkey]
      exact hx

/-- The calls of a pass. -/
def Sweeping (op : Op) : Prop :=
  Quiet op ∨ ∃ c ns name, op = .kube c (.deleteBinding ns name)

theorem shrunk_of_sweeping {op : Op} (hop : Sweeping op) (w : World) :
    Shrunk w (handle op w).2 := by
  rcases hop with hquiet | ⟨c, ns, name, rfl⟩
  · have hcalm := calm_of_quiet hquiet w
    exact ⟨fun c b hb => hcalm.bindings c ▸ hb, hcalm.db, hcalm.clock⟩
  · refine ⟨?_, rfl, rfl⟩
    intro c' b hb
    by_cases hc : c' = c
    · subst hc
      rw [show (handle (.kube c' (.deleteBinding ns name)) w).2
        = w.setCluster c' _ from rfl, World.setCluster_self] at hb
      refine storing_snd (P := fun d => b ∈ d.bindings.rows →
        b ∈ (w.clusters c').bindings.rows) (fun h => h) ?_ hb
      intro t ht hbt
      rw [deleteIn] at ht
      split at ht
      · obtain rfl := Except.ok.inj ht
        exact (Table.mem_erase.mp hbt).1
      · cases ht
    · rw [show (handle (.kube c (.deleteBinding ns name)) w).2
        = w.setCluster c _ from rfl, World.setCluster_ne w _ hc] at hb
      exact hb

end Handlers

/-! ## One pass -/

section Passes

variable {outages : Outages} {s s' : Nat × World} {cluster : String}

/-- A handler under outages does what `handle` does, or fails. -/
theorem mostly_outages (outages : Outages) :
    Mostly handle outages.handler Prod.snd := mostly_faulty outages.plan handle

/-- A database call that answers has done what it does without outages. -/
theorem db_ok {op : DbOp} {a : op.Res}
    (h : (db op).run outages.handler s = (.ok a, s')) :
    handle (.db op) s.2 = (.ok a, s'.2) :=
  (mostly_outages outages).ok ((run_db _ op s).symm.trans h)

/-- Programs that make the calls of a pass. -/
theorem shrunk_run {α : Type} (outages : Outages) {p : Svc α}
    (hp : p.Uses Sweeping) (s : Nat × World) :
    Shrunk s.2 (p.run outages.handler s).2.2 :=
  hp.run_keeps (R := fun s t => Shrunk s.2 t.2) (fun _ => Shrunk.refl _)
    Shrunk.trans
    (fun _ s hop => (mostly_outages outages).keeps Shrunk.refl
      (shrunk_of_sweeping hop) s) s

/-- The body of both loops deletes its own binding, if anything. -/
theorem expireBinding_uses {P : Op → Prop} (t : Time) {ns : Option String}
    {b : Binding} (h : P (.kube cluster (.deleteBinding ns b.name)))
    (revoked : Nat) : (expireBinding cluster t ns revoked b).Uses P := by
  rw [expireBinding]
  cases isExpired b.annotations t with
  | error e => exact trivial
  | ok expired =>
      refine Prog.uses_ite trivial (Prog.uses_catching ?_ ?_)
      · exact Prog.uses_bind (Prog.uses_perform h) (fun _ => trivial)
      · exact fun e => Prog.uses_ite trivial trivial

theorem expireLoop_uses (cluster : String) (t : Time)
    (ns : Binding → Option String)
    (xs : List Binding) (revoked : Nat) :
    (xs.foldlM (fun revoked b => expireBinding cluster t (ns b) revoked b)
      revoked).Uses Sweeping :=
  Prog.uses_foldlM (fun n _ _ =>
    expireBinding_uses t (Or.inr ⟨_, _, _, rfl⟩) n) revoked

theorem listing_uses (scope : Scope) :
    (kube cluster (.listBindings scope jitSelector none none)).Uses
      Sweeping := Prog.uses_perform (Or.inl rfl)

theorem reconcile_uses (cluster : String) :
    (reconcile cluster).Uses Sweeping := by
  refine Prog.uses_bind (Prog.uses_perform (Or.inl trivial)) (fun t => ?_)
  refine Prog.uses_bind (listing_uses _) (fun crbs => ?_)
  refine Prog.uses_bind (expireLoop_uses _ t (fun _ => none) _ _) (fun n => ?_)
  refine Prog.uses_bind (listing_uses _) (fun rbs => ?_)
  exact expireLoop_uses _ t Binding.ns _ _

theorem registeredApiClient_uses (name : String) :
    (registeredApiClient name).Uses Quiet :=
  Prog.uses_bind (Prog.uses_perform trivial)
    (fun _ => Prog.uses_ite trivial trivial)

theorem remotePass_uses (c : RegisteredCluster) :
    (remotePass c).Uses Sweeping :=
  Prog.uses_bind ((registeredApiClient_uses c.name).imp (fun _ => Or.inl))
    (fun _ => reconcile_uses _)

theorem addRemotePass_uses (total : Nat) (c : RegisteredCluster) :
    (addRemotePass total c).Uses Sweeping :=
  Prog.uses_catching (Prog.uses_bind (remotePass_uses c) (fun _ => trivial))
    (fun _ => trivial)

theorem remoteLoop_uses (cs : List RegisteredCluster) (total : Nat) :
    (cs.foldlM addRemotePass total).Uses Sweeping :=
  Prog.uses_foldlM (fun n c _ => addRemotePass_uses n c) total

/-- Deleting an expired binding, when it returns, has left none with its
    name. -/
theorem expireBinding_ok {t : Time} {ns : Option String} {revoked n : Nat}
    {b : Binding} (hexp : isExpired b.annotations t = .ok true)
    (h : (expireBinding cluster t ns revoked b).run outages.handler s
      = (.ok n, s')) :
    (s'.2.clusters cluster).bindings.get (ns, b.name) = none := by
  rw [expireBinding, Prog.run_bind, Prog.run_ofExcept, hexp, Prog.andThen_ok,
    if_neg Bool.true_eq_false.mp, Prog.run_catching, Prog.run_bind,
    run_kube] at h
  cases hcall : outages.handler (.kube cluster (.deleteBinding ns b.name)) s
    with
  | mk r s₁ =>
      rw [hcall] at h
      cases r with
      | ok u =>
          obtain ⟨-, rfl⟩ := Prod.mk.inj h
          have hans := (mostly_outages outages).ok hcall
          have hgone := handle_deleteBinding_gone cluster ns b.name s.2
          rw [hans] at hgone
          exact hgone
      | error e =>
          rw [Prog.andThen_error, Prog.orElse_error] at h
          by_cases he : e = .api ⟨404⟩
          · rw [if_pos he] at h
            obtain ⟨-, rfl⟩ := Prod.mk.inj h
            exact notFound_gone outages (he ▸ hcall)
          · rw [if_neg he] at h
            exact nomatch congrArg Prod.fst h

/-- A loop over bindings that returns has left none of those that had
    expired. -/
theorem expireLoop_ok {t : Time} (ns : Binding → Option String)
    (xs : List Binding) {revoked n : Nat} :
    ∀ {s : Nat × World},
      (xs.foldlM (fun revoked b => expireBinding cluster t (ns b) revoked b)
        revoked).run outages.handler s = (.ok n, s') →
      ∀ b ∈ xs, isExpired b.annotations t = .ok true →
        (s'.2.clusters cluster).bindings.get (ns b, b.name) = none := by
  induction xs generalizing revoked with
  | nil => exact fun _ b hb => nomatch hb
  | cons x xs ih =>
      intro s h b hb hexp
      rw [List.foldlM_cons, Prog.run_bind] at h
      obtain ⟨m, s₁, hx, hxs⟩ := Prog.andThen_eq_ok h
      rcases List.mem_cons.mp hb with rfl | hb
      · have hgone := expireBinding_ok hexp hx
        have hrest := shrunk_run outages
          (expireLoop_uses cluster t ns xs m) s₁
        rw [hxs] at hrest
        exact hrest.get_none hgone
      · exact ih hxs b hb hexp

/-- A list call that returns has listed the bindings of its scope that carry
    the label. -/
theorem listing_ok {scope : Scope} {page : Page Binding}
    (h : (kube cluster (.listBindings scope jitSelector none none)).run
      outages.handler s = (.ok page, s')) :
    page.items = (s.2.clusters cluster).bindings.rows.filter
      (fun b => scope.holds b.ns && selected jitSelector b.labels) ∧
    s'.2 = s.2 := by
  rw [run_kube] at h
  have hans := (mostly_outages outages).ok h
  obtain ⟨hpage, hview⟩ := Prod.mk.inj hans
  refine ⟨?_, ?_⟩
  · rw [← Except.ok.inj hpage]
    rfl
  · rw [← hview]
    exact World.setCluster_eq_self _ _

/-- A JIT binding that had expired at a time. -/
def Expired (t : Time) (b : Binding) : Prop :=
  selected jitSelector b.labels = true ∧
    isExpired b.annotations t = .ok true

/-- Between two worlds, the JIT bindings of a cluster that had expired at a
    time have gone. -/
def Swept (t : Time) (cluster : String) (w w' : World) : Prop :=
  ∀ b ∈ (w.clusters cluster).bindings.rows, Expired t b →
    (w'.clusters cluster).bindings.get b.key = none

theorem Swept.after {t : Time} {u v w : World} (h : Swept t cluster u v)
    (h' : Shrunk v w) : Swept t cluster u w :=
  fun b hb hexp => h'.get_none (h b hb hexp)

theorem Swept.before {t : Time} {u v w : World} (h : Shrunk u v)
    (h' : Swept t cluster v w) (hvw : Shrunk v w) :
    Swept t cluster u w := by
  intro b hb hexp
  rcases h.mem_or_gone hb with hstill | hgone
  · exact h' b hstill hexp
  · exact hvw.get_none hgone

/-- The reading of the clock that comes next. -/
def reading (w : World) : Time := w.clock w.tick

/-- A pass that completes has swept its cluster. -/
theorem reconcile_ok {n : Nat}
    (h : (reconcile cluster).run outages.handler s = (.ok n, s')) :
    Swept (reading s.2) cluster s.2 s'.2 := by
  rw [reconcile, Prog.run_bind, run_now] at h
  obtain ⟨t, s₁, hnow, h⟩ := Prog.andThen_eq_ok h
  obtain ⟨ht, hs₁⟩ := Prod.mk.inj ((mostly_outages outages).ok hnow)
  obtain rfl : reading s.2 = t := Except.ok.inj ht
  rw [Prog.run_bind] at h
  obtain ⟨crbs, s₂, hcrbs, h⟩ := Prog.andThen_eq_ok h
  obtain ⟨hitems, hs₂⟩ := listing_ok hcrbs
  rw [Prog.run_bind] at h
  obtain ⟨m, s₃, hloop, h⟩ := Prog.andThen_eq_ok h
  rw [Prog.run_bind] at h
  obtain ⟨rbs, s₄, hrbs, hloop'⟩ := Prog.andThen_eq_ok h
  obtain ⟨hitems', hs₄⟩ := listing_ok hrbs
  have hcluster : s₂.2.clusters cluster = s.2.clusters cluster := by
    rw [hs₂, ← hs₁]
    rfl
  have hfirst : Shrunk s₂.2 s₃.2 := by
    have hrun := shrunk_run outages
      (expireLoop_uses cluster (reading s.2) (fun _ => none)
        crbs.items 0) s₂
    rw [hloop] at hrun
    exact hrun
  have hsecond : Shrunk s₄.2 s'.2 := by
    have hrun := shrunk_run outages
      (expireLoop_uses cluster (reading s.2) Binding.ns
        rbs.items m) s₄
    rw [hloop'] at hrun
    exact hrun
  intro b hb hexp
  rw [← hcluster] at hb
  cases hns : b.ns with
  | none =>
      -- a ClusterRoleBinding: the first loop deletes it
      have hin : b ∈ crbs.items := by
        rw [hitems, ← hs₂]
        refine List.mem_filter.mpr ⟨hb, ?_⟩
        rw [hexp.1, hns]
        rfl
      have hgone := expireLoop_ok (fun _ => none) crbs.items hloop b hin hexp.2
      rw [Binding.key, hns]
      exact hsecond.get_none (hs₄ ▸ hgone)
  | some ns =>
      -- a RoleBinding: the second loop finds it, if it is still there
      rcases hfirst.mem_or_gone hb with hstill | hgone
      · have hin : b ∈ rbs.items := by
          rw [hitems']
          refine List.mem_filter.mpr ⟨hstill, ?_⟩
          rw [hexp.1, hns]
          rfl
        exact expireLoop_ok Binding.ns rbs.items hloop' b hin hexp.2
      · exact hsecond.get_none (hs₄ ▸ hgone)

end Passes

/-! ## All passes -/

section Job

variable {outages : Outages} {w : World} {s s' : Nat × World}

/-- The passes over registered clusters that complete, each with the reading of
    the clock that it goes by. -/
def remotePasses (outages : Outages) :
    List RegisteredCluster → Nat × World → List (String × Time)
  | [], _ => []
  | c :: cs, s =>
      match (remotePass c).run outages.handler s with
      | (.ok _, t) => (c.name, reading s.2) :: remotePasses outages cs t
      | (.error _, t) => remotePasses outages cs t

/-- The passes of the job that complete. -/
def completedPasses (outages : Outages) (w : World) : List (String × Time) :=
  match (reconcile localCluster).run outages.handler (0, w) with
  | (.error _, _) => []
  | (.ok _, s) =>
      (localCluster, reading w) ::
        match (db .selectRegisteredClusters).run outages.handler s with
        | (.ok cs, t) => remotePasses outages cs t
        | (.error _, _) => []

/-- A remote pass that completes has swept its cluster. -/
theorem remotePass_ok {c : RegisteredCluster} {n : Nat}
    (h : (remotePass c).run outages.handler s = (.ok n, s')) :
    Swept (reading s.2) c.name s.2 s'.2 := by
  rw [remotePass, Prog.run_bind] at h
  obtain ⟨client, s₁, hclient, hpass⟩ := Prog.andThen_eq_ok h
  rw [registeredApiClient, Prog.run_bind, run_db] at hclient
  obtain ⟨configs, s₂, hconfigs, hname⟩ := Prog.andThen_eq_ok hclient
  have hs₂ : s.2 = s₂.2 := (Prod.mk.inj ((mostly_outages outages).ok hconfigs)).2
  by_cases hany : configs.any (fun d => decide (d.name = c.name)) = true
  · rw [if_pos hany] at hname
    obtain ⟨hres, rfl⟩ := Prod.mk.inj hname
    obtain rfl : c.name = client := Except.ok.inj hres
    rw [hs₂]
    exact reconcile_ok hpass
  · rw [if_neg hany] at hname
    exact nomatch congrArg Prod.fst hname

/-- One round of the loop returns, and ends where its pass ends. -/
theorem addRemotePass_run {σ : Type} (h : Handler backend Exn σ) (total : Nat)
    (c : RegisteredCluster) (s : σ) :
    ∃ n, (addRemotePass total c).run h s
      = (.ok n, ((remotePass c).run h s).2) := by
  rw [addRemotePass, Prog.run_catching, Prog.run_bind]
  rcases (remotePass c).run h s with ⟨r, t⟩
  cases r with
  | ok n => exact ⟨total + n, rfl⟩
  | error e => exact ⟨total, rfl⟩

/-- The loop over the registered clusters sweeps those whose pass
    completes. -/
theorem remotePasses_swept (cs : List RegisteredCluster) :
    ∀ {total n : Nat} {s s' : Nat × World},
      (cs.foldlM addRemotePass total).run outages.handler s = (.ok n, s') →
      ∀ p ∈ remotePasses outages cs s, Swept p.2 p.1 s.2 s'.2 := by
  induction cs with
  | nil => exact fun _ p hp => nomatch hp
  | cons c cs ih =>
      intro total n s s' h p hp
      rw [List.foldlM_cons, Prog.run_bind] at h
      obtain ⟨m, hm⟩ := addRemotePass_run outages.handler total c s
      have hpass := shrunk_run outages (remotePass_uses c) s
      rw [hm, Prog.andThen_ok] at h
      have hrest := shrunk_run outages (remoteLoop_uses cs m)
        ((remotePass c).run outages.handler s).2
      rw [h] at hrest
      rw [remotePasses] at hp
      cases hrun : (remotePass c).run outages.handler s with
      | mk r t =>
          rw [hrun] at hp hpass hrest h
          have htail : ∀ q ∈ remotePasses outages cs t,
              Swept q.2 q.1 s.2 s'.2 :=
            fun q hq => (ih h q hq).before hpass hrest
          cases r with
          | error e => exact htail p hp
          | ok k =>
              rcases List.mem_cons.mp hp with rfl | hp
              · exact (remotePass_ok hrun).after hrest
              · exact htail p hp

/-- `mark_expired`, when it returns, has done what it does without outages. -/
theorem markExpired_ok {u : Unit}
    (h : markExpired.run outages.handler s = (.ok u, s')) :
    markExpired.run handle s.2 = (.ok u, s'.2) := by
  rw [markExpired, Prog.run_bind, run_now] at h
  obtain ⟨t, s₁, hnow, h⟩ := Prog.andThen_eq_ok h
  rw [Prog.run_bind, run_db] at h
  obtain ⟨rows, s₂, hselect, h⟩ := Prog.andThen_eq_ok h
  have hcommit := (mostly_outages outages).ok (Prog.run_perform _ _ _ ▸ h)
  rw [markExpired, Prog.run_bind, run_now, (mostly_outages outages).ok hnow,
    Prog.andThen_ok, Prog.run_bind, run_db,
    (mostly_outages outages).ok hselect, Prog.andThen_ok]
  exact (Prog.run_perform _ _ _).trans hcommit

/-- The session of `mark_expired`, when it returns, has done so as well. -/
theorem markSession_ok {u : Unit}
    (h : (inSession markExpired).run outages.handler s = (.ok u, s')) :
    markExpired.run handle s.2 = (.ok u, s'.2) := by
  rw [inSession, Prog.run_ensuring, Prog.atLast] at h
  split at h
  · rename_i v t hclose
    obtain ⟨hres, rfl⟩ := Prod.mk.inj h
    have hrun : markExpired.run outages.handler s
        = (.ok u, (markExpired.run outages.handler s).2) := Prod.ext hres rfl
    have hsame : (markExpired.run outages.handler s).2.2 = t.2 :=
      (Prod.mk.inj (db_ok hclose)).2
    rw [← hsame]
    exact markExpired_ok hrun
  · cases (congrArg Prod.fst h)

/-- A job that returns has swept the clusters whose pass completed, and then,
    unless it stopped there, marked the requests. -/
theorem main_ok {u : Unit}
    (h : main.run outages.handler (0, w) = (.ok u, s')) :
    ∃ s : Nat × World, Shrunk w s.2 ∧
      (∀ p ∈ completedPasses outages w, Swept p.2 p.1 w s.2) ∧
      (s' = s ∨ markExpired.run handle s.2 = (.ok (), s'.2)) := by
  rw [main, Prog.run_bind] at h
  obtain ⟨m, s₁, hlocal, h⟩ := Prog.andThen_eq_ok h
  rw [Prog.run_bind] at h
  obtain ⟨cs, s₂, hclusters, h⟩ := Prog.andThen_eq_ok h
  rw [Prog.run_bind] at h
  obtain ⟨n, s₃, hloop, h⟩ := Prog.andThen_eq_ok h
  have hfirst : Shrunk w s₁.2 := by
    have hrun := shrunk_run outages (reconcile_uses localCluster) (0, w)
    rw [hlocal] at hrun
    exact hrun
  have hsame : s₁.2 = s₂.2 := (Prod.mk.inj (db_ok hclusters)).2
  have hrest : Shrunk s₁.2 s₃.2 := by
    have hrun := shrunk_run outages (remoteLoop_uses cs m) s₂
    rw [hloop] at hrun
    rw [hsame]
    exact hrun
  refine ⟨s₃, hfirst.trans hrest, ?_, ?_⟩
  · intro p hp
    rw [completedPasses, hlocal] at hp
    simp only [hclusters] at hp
    rcases List.mem_cons.mp hp with rfl | hp
    · exact (reconcile_ok hlocal).after hrest
    · have hswept := remotePasses_swept cs hloop p hp
      rw [← hsame] at hswept
      exact hswept.before hfirst hrest
  · by_cases hn : n ≠ 0
    · rw [if_pos hn] at h
      exact Or.inr (markSession_ok h)
    · rw [if_neg hn] at h
      exact Or.inl (Prod.mk.inj h).2.symm

/-! ## The requests that the job changes -/

/-- Every binding of an approved request carries the JIT label, and the expiry
    of the request in its annotation. -/
def Annotated (w : World) : Prop :=
  ∀ id r e, w.db.accessRequests.get id = some r → r.status = .approved →
    r.expiresAt = some e →
    ∀ c, ∀ b ∈ (w.clusters c).bindings.rows, b.name = jitBindingName id →
      b.labels.get? jitLabel = some "true" ∧
      ∃ annotations, b.annotations = some annotations ∧
        annotations.get? expiresAnnotation
          = some (String.ofList (isoformat (utc e)))

/-- A binding that carries an expiry has expired from then on. -/
theorem isExpired_isoformat {annotations : Dict} {e : Time} (now : Time)
    (h : annotations.get? expiresAnnotation
      = some (String.ofList (isoformat (utc e)))) :
    isExpired (some annotations) now = .ok (decide (e ≤ now)) := by
  have htext : String.ofList (isoformat (utc e)) ≠ "" := by
    intro hempty
    have hlist := congrArg String.toList hempty
    rw [String.toList_ofList] at hlist
    exact nomatch hlist
  rw [isExpired, Option.getD_some, h]
  show (if _ = "" then _ else _) = _
  rw [if_neg htext, String.toList_ofList, fromisoformat_isoformat]
  show Except.ok (decide ((e.instant : Int) - 0 ≤ now.instant)) = _
  rw [Int.sub_zero]
  exact congrArg _ (decide_eq_decide.mpr Int.ofNat_le)

/-- The last reading of the clock so far. -/
def lastReading (w : World) : Time := w.clock (w.tick - 1)

/-- Is there a binding of the request on the cluster, in any namespace? -/
def HasBinding (w : World) (cluster id : String) : Prop :=
  ∃ ns, (w.clusters cluster).bindings.get (ns, jitBindingName id) ≠ none

/-- The status of a request. -/
def statusOf (w : World) (id : String) : Option RequestStatus :=
  (w.db.accessRequests.get id).map AccessRequestRecord.status

/-- After the job has returned, a request that it has changed to `expired` was
    approved and has expired by the job's last reading of the clock; and on
    every cluster whose pass completed, and read the clock at or after that
    expiry, there is no binding of the request. -/
theorem main_expired (outages : Outages) (w : World) (hw : Annotated w)
    (hmain : (main.run outages.handler (0, w)).1 = .ok ()) (id : String)
    (r : AccessRequestRecord) (hr : w.db.accessRequests.get id = some r)
    (hbefore : r.status ≠ .expired)
    (hafter : statusOf (main.run outages.handler (0, w)).2.2 id
      = some .expired) :
    r.status = .approved ∧ ∃ e, r.expiresAt = some e ∧
      e ≤ lastReading (main.run outages.handler (0, w)).2.2 ∧
      ∀ p ∈ completedPasses outages w, e ≤ p.2 →
        ¬ HasBinding (main.run outages.handler (0, w)).2.2 p.1 id := by
  generalize hs' : (main.run outages.handler (0, w)).2 = s' at *
  obtain ⟨s, hshrunk, hswept, hend⟩ := main_ok (Prod.ext hmain hs')
  rcases hend with rfl | hmark
  · -- the job stopped before mark_expired: no status has changed
    rw [statusOf, hshrunk.db, hr] at hafter
    exact absurd (Option.some.inj hafter) hbefore
  · obtain ⟨t, hrun, hget⟩ := markExpired_run s.2
    rw [hrun] at hmark
    have hworld : s.2.ticked.setDb (s.2.db.withRequests t) = s'.2 :=
      (Prod.mk.inj hmark).2
    have hrow : s'.2.db.accessRequests.get id
        = some (expireRow (reading s.2) r) := by
      rw [← hworld]
      show t.get id = _
      rw [hget, hshrunk.db, hr]
      rfl
    rw [statusOf, hrow, Option.map_some, expireRow] at hafter
    by_cases hexp : r.approvedExpired (reading s.2) = true
    · obtain ⟨happ, htime⟩ := Bool.and_eq_true_iff.mp hexp
      have happroved := of_decide_eq_true happ
      cases he : r.expiresAt with
      | none =>
          rw [he] at htime
          cases htime
      | some e =>
          rw [he] at htime
          refine ⟨happroved, e, rfl, ?_, ?_⟩
          · rw [← hworld]
            exact of_decide_eq_true htime
          · rintro p hp hlate ⟨ns, hns⟩
            obtain ⟨b, hb⟩ := Option.ne_none_iff_exists'.mp hns
            have hb' : (s.2.clusters p.1).bindings.get
                (ns, jitBindingName id) = some b := by
              rw [← hworld] at hb
              exact hb
            have hkey : b.key = (ns, jitBindingName id) :=
              Table.key_of_get hb'
            have hold := hshrunk.bindings p.1 b (Table.mem_of_get hb')
            obtain ⟨hlabel, annotations, hann, htext⟩ :=
              hw id r e hr happroved he p.1 b hold (congrArg Prod.snd hkey)
            have hgone := hswept p hp b hold ⟨decide_eq_true hlabel, by
              rw [hann, isExpired_isoformat p.2 htext, decide_eq_true hlate]⟩
            rw [hkey, hb'] at hgone
            cases hgone
    · rw [if_neg hexp] at hafter
      exact absurd (Option.some.inj hafter) hbefore

end Job

/-! ## A cluster that is down -/

/-- An approved request whose grant has ended. -/
def endedRequest (id : String) : AccessRequestRecord where
  id := id
  requester := "bob"
  targetUsername := "ada"
  userKind := .user
  saNamespace := none
  roleName := "view"
  roleKind := .clusterRole
  ns := none
  ttlMinutes := 60
  reason := "incident"
  status := .approved
  requestedAt := Time.epoch
  expiresAt := some Time.epoch
  bindingName := some (jitBindingName id)

/-- A cluster with the binding of such a request. -/
def clusterOf (id : String) : Cluster :=
  Cluster.fresh.withBindings
    (Table.empty.put (jitBinding (endedRequest id) Time.epoch))

/-- Two such requests, one granted on the local cluster and one on `edge`. -/
def twoGrants : World :=
  ((World.fresh.setDb { Database.fresh with
      accessRequests := (Table.empty.put (endedRequest "1")).put
        (endedRequest "2")
      registeredClusters := Table.empty.put
        ⟨"edge", "https://edge:6443", "", ""⟩ }).setCluster localCluster
    (clusterOf "1")).setCluster "edge" (clusterOf "2")

/-- The API of `edge` does not answer. -/
def edgeDown : Outages where
  plan _ op :=
    match op with
    | .kube cluster _ =>
        if cluster = "edge" then some (.refuse .connectionError) else none
    | _ => none
  notFoundFree n op := by
    cases op with
    | kube cluster op =>
        by_cases hc : cluster = "edge"
        · simp [hc]
        · simp [hc]
    | _ => exact nofun

/-- Their bindings are all there is. -/
theorem twoGrants_binding {c : String} {b : Binding}
    (hb : b ∈ (twoGrants.clusters c).bindings.rows) :
    ∃ i, b = jitBinding (endedRequest i) Time.epoch := by
  by_cases hedge : c = "edge"
  · subst hedge
    rw [twoGrants, World.setCluster_self] at hb
    exact ⟨"2", List.mem_singleton.mp hb⟩
  · rw [twoGrants, World.setCluster_ne _ _ hedge] at hb
    by_cases hlocal : c = localCluster
    · subst hlocal
      rw [World.setCluster_self] at hb
      exact ⟨"1", List.mem_singleton.mp hb⟩
    · rw [World.setCluster_ne _ _ hlocal] at hb
      exact absurd hb List.not_mem_nil

theorem annotated_twoGrants : Annotated twoGrants := by
  have hrequest : ∀ r ∈ twoGrants.db.accessRequests.rows,
      r.expiresAt = some Time.epoch := by decide
  intro id r e hr happ he c b hb hname
  obtain ⟨i, rfl⟩ := twoGrants_binding hb
  obtain rfl : Time.epoch = e :=
    Option.some.inj ((hrequest r (Table.mem_of_get hr)).symm.trans he)
  exact ⟨rfl, _, rfl, rfl⟩

/-- Both grants end, and the job cannot reach `edge`: the request granted there
    is marked like the other one, and its binding is still there. -/
theorem main_expired_live :
    ¬ ∀ (outages : Outages) (w : World), Annotated w →
      (main.run outages.handler (0, w)).1 = .ok () →
      ∀ (id : String) (r : AccessRequestRecord),
        w.db.accessRequests.get id = some r → r.status ≠ .expired →
        statusOf (main.run outages.handler (0, w)).2.2 id = some .expired →
        ∀ cluster,
          ¬ HasBinding (main.run outages.handler (0, w)).2.2 cluster id := by
  intro hall
  refine hall edgeDown twoGrants annotated_twoGrants (by decide) "2"
    (endedRequest "2") rfl (by decide) (by decide) "edge" ⟨none, ?_⟩
  decide

/-- When every cluster answers, the pass over `edge` removes the binding. -/
theorem main_expired_reached :
    completedPasses Outages.none twoGrants
        = [(localCluster, Time.epoch), ("edge", Time.epoch)] ∧
      ¬ HasBinding (main.run Outages.none.handler (0, twoGrants)).2.2 "edge"
        "2" := by
  have hpasses : completedPasses Outages.none twoGrants
      = [(localCluster, Time.epoch), ("edge", Time.epoch)] := by decide
  obtain ⟨-, e, he, -, hgone⟩ := main_expired Outages.none twoGrants
    annotated_twoGrants (by decide) "2" (endedRequest "2") rfl (by decide)
    (by decide)
  obtain rfl : Time.epoch = e := Option.some.inj he
  refine ⟨hpasses, hgone ("edge", Time.epoch) ?_ (Nat.le_refl _)⟩
  rw [hpasses]
  exact List.mem_cons_of_mem _ (List.mem_singleton.mpr rfl)

end CvExpire
