import ClusterVision.AssignRoleProofs
import ClusterVision.PoolProofs

/-! # Concurrent calls of assign_role

    `assign_role` patches a binding and creates it when there is none to
    patch.  Calls that address different bindings do not meet.  Two calls that
    address the same one can both find it absent, and the later creation is
    answered with 409.  The main result says for which calls every
    interleaving gives every caller its role. -/

namespace CvAssign

open CvProg CvPool CvTable CvKube CvBackend CvRbac

/-! ## The two halves of a call -/

namespace AssignCall

variable (k : AssignCall) (kind : SubjectKind) (cluster : String)

/-- What the call does when there is no binding to patch. -/
def creation : Svc Unit :=
  if k.ns = none ∧ k.roleKind = .clusterRole then do
    let _ ← createClusterRoleBinding cluster
      (bindingNameFor k.username k.roleName) k.roleName [k.subject kind]
    pure ()
  else do
    let _ ← createRoleBinding cluster (namespaceOrDefault k.ns)
      (bindingNameFor k.username k.roleName) k.roleName k.roleKind
      [k.subject kind]
    pure ()

variable {k kind}

/-- A call patches its binding, or else creates it. -/
theorem prog_eq (hk : SubjectKind.ofText k.userKind = some kind) :
    k.prog cluster = unlessStatus 404 (k.creation kind cluster)
      (kube cluster (.patchBinding k.key.1 k.key.2 (k.subject kind))) := by
  rw [prog, assignRole, subjectKind, hk]
  show (if k.ns = none ∧ k.roleKind = .clusterRole then _ else _ : Svc Unit)
    = _
  by_cases hc : k.ns = none ∧ k.roleKind = .clusterRole
  · rw [if_pos hc, creation, if_pos hc, key, scope, if_pos hc]
    rfl
  · rw [if_neg hc, creation, if_neg hc, key, scope, if_neg hc]
    rfl

/-- The creation of a ClusterRoleBinding. -/
theorem creation_of_none (hs : k.scope = none) :
    k.creation kind cluster = (do
      let _ : Binding ← kube cluster (.createBinding (k.binding kind))
      pure ()) := by
  by_cases hc : k.ns = none ∧ k.roleKind = .clusterRole
  · have hbinding : clusterRoleBinding (bindingNameFor k.username k.roleName)
        k.roleName [k.subject kind] [] none = k.binding kind := by
      rw [binding, hs, hc.2]
      rfl
    rw [creation, if_pos hc, createClusterRoleBinding, hbinding, bind_assoc]
    rfl
  · rw [scope, if_neg hc] at hs
    cases hs

/-- The creation of a RoleBinding. -/
theorem creation_of_some {ns : String} (hs : k.scope = some ns) :
    k.creation kind cluster = (do
      ensureNamespace cluster ns
      let _ : Binding ← kube cluster (.createBinding (k.binding kind))
      pure ()) := by
  by_cases hc : k.ns = none ∧ k.roleKind = .clusterRole
  · rw [scope, if_pos hc] at hs
    exact nomatch hs
  · have hns : namespaceOrDefault k.ns = ns := by
      rw [scope, if_neg hc] at hs
      exact Option.some.inj hs
    have hbinding : roleBinding ns (bindingNameFor k.username k.roleName)
        k.roleName k.roleKind [k.subject kind] [] none = k.binding kind := by
      rw [binding, hs]
      rfl
    rw [creation, if_neg hc, hns, createRoleBinding, hbinding, bind_assoc]
    simp only [bind_assoc]
    rfl

end AssignCall

/-! ## The protocol of a call -/

/-- How far a call has come. -/
inductive Stage where
  | start
  | absent
  | missing
  | ready
  | done
  | failed
deriving DecidableEq

/-- A call, where it goes to, and how far it has come. -/
structure Caller where
  cluster : String
  call : AssignCall
  kind : SubjectKind
  stage : Stage

namespace Caller

/-- The calls that it may make. -/
inductive Allowed (cluster : String) (k : AssignCall) (kind : SubjectKind) :
    Stage → Op → Prop where
  | patch : Allowed cluster k kind .start
      (.kube cluster (.patchBinding k.key.1 k.key.2 (k.subject kind)))
  | read {ns : String} (hs : k.scope = some ns) :
      Allowed cluster k kind .absent (.kube cluster (.readNamespace ns))
  | add {ns : String} (hs : k.scope = some ns) :
      Allowed cluster k kind .missing
        (.kube cluster (.createNamespace ⟨ns, managedBy⟩))
  | create : Allowed cluster k kind .ready
      (.kube cluster (.createBinding (k.binding kind)))

/-- The stage after an answered call. -/
def nextStage (l : Caller) : (op : Op) → Except Exn op.Res → Stage
  | .kube _ (.patchBinding _ _ _), .ok _ => .done
  | .kube _ (.patchBinding _ _ _), .error e =>
      if e ≠ .api ⟨404⟩ then .failed
      else if l.call.scope = none then .ready else .absent
  | .kube _ (.readNamespace _), .ok _ => .ready
  | .kube _ (.readNamespace _), .error e =>
      if e ≠ .api ⟨404⟩ then .failed else .missing
  | .kube _ (.createNamespace _), .ok _ => .ready
  | .kube _ (.createNamespace _), .error e =>
      if e ≠ .api ⟨409⟩ then .failed else .ready
  | .kube _ (.createBinding _), .ok _ => .done
  | .kube _ (.createBinding _), .error _ => .failed
  | _, _ => l.stage

/-- The protocol of `assign_role`. -/
def protocol : Protocol backend Exn Caller where
  allowed l := Allowed l.cluster l.call l.kind l.stage
  next l op r := { l with stage := l.nextStage op r }

/-- A call that returns has its binding, and one that raises has failed. -/
def Ended (l : Caller) (r : Except Exn Unit) : Prop :=
  match r with
  | .ok _ => l.stage = .done
  | .error _ => l.stage = .failed

variable {cluster : String} {k : AssignCall} {kind : SubjectKind}

theorem create_follows :
    Follows protocol (do
      let _ : Binding ← kube cluster (.createBinding (k.binding kind))
      pure ()) ⟨cluster, k, kind, .ready⟩ Ended := by
  refine follows_bind (follows_perform .create ?_)
  intro r
  cases r with
  | ok b => exact rfl
  | error e => exact rfl

/-- `_ensure_namespace` makes ready, or fails. -/
theorem ensureNamespace_follows {ns : String} (hs : k.scope = some ns) :
    Follows protocol (ensureNamespace cluster ns) ⟨cluster, k, kind, .absent⟩
      (fun l r => match r with
        | .ok _ => l = ⟨cluster, k, kind, .ready⟩
        | .error _ => l.stage = .failed) := by
  refine follows_catching (follows_bind (follows_perform (.read hs) ?_))
  intro r
  cases r with
  | ok n => exact rfl
  | error e =>
      refine follows_ite (fun he => ?_) (fun he => if_pos he)
      rw [he]
      refine follows_catching (follows_perform (.add hs) ?_)
      intro r'
      cases r' with
      | ok u => exact rfl
      | error e' =>
          refine follows_ite (fun he' => ?_) (fun he' => if_pos he')
          rw [he']
          exact rfl

/-- A PATCH that finds no binding. -/
theorem next_patch (cluster : String) (k : AssignCall) (kind : SubjectKind) :
    protocol.next ⟨cluster, k, kind, .start⟩
        (.kube cluster (.patchBinding k.key.1 k.key.2 (k.subject kind)))
          (.error (.api ⟨404⟩))
      = ⟨cluster, k, kind, if k.scope = none then .ready else .absent⟩ := rfl

/-- `assign_role` follows the protocol. -/
theorem prog_follows (hk : SubjectKind.ofText k.userKind = some kind) :
    Follows protocol (k.prog cluster) ⟨cluster, k, kind, .start⟩ Ended := by
  rw [AssignCall.prog_eq cluster hk]
  refine follows_catching (follows_perform .patch ?_)
  intro r
  cases r with
  | ok u => exact rfl
  | error e =>
      refine follows_ite (fun he => ?_) (fun he => if_pos he)
      rw [he]
      cases hs : k.scope with
      | none =>
          rw [AssignCall.creation_of_none cluster hs, next_patch, if_pos hs]
          exact create_follows
      | some ns =>
          rw [AssignCall.creation_of_some cluster hs, next_patch,
            if_neg (hs ▸ Option.some_ne_none ns)]
          refine follows_bind (Follows.imp ?_ (ensureNamespace_follows hs))
          intro l r hr
          cases r with
          | ok u =>
              obtain rfl : l = _ := hr
              exact create_follows
          | error e => exact hr

/-! ## The store -/

/-- What the store holds for a call at its stage. -/
def Holds (l : Caller) (w : World) : Prop :=
  match l.stage with
  | .start | .absent | .missing =>
      (w.clusters l.cluster).bindings.get l.call.key = none
  | .ready =>
      (w.clusters l.cluster).bindings.get l.call.key = none ∧
        (w.clusters l.cluster).hasNamespace l.call.scope = true
  | .done =>
      ∃ b, (w.clusters l.cluster).bindings.get l.call.key = some b ∧
        l.call.subject l.kind ∈ b.subjects
  | .failed => False

/-- Every other binding is as it was, and no namespace is gone. -/
structure KeepsOthers (cluster : String) (key : Option String × String)
    (w w' : World) : Prop where
  bindings : ∀ c k, ¬ (c = cluster ∧ k = key) →
    (w'.clusters c).bindings.get k = (w.clusters c).bindings.get k
  namespaces : ∀ c ns, (w.clusters c).hasNamespace ns = true →
    (w'.clusters c).hasNamespace ns = true

theorem KeepsOthers.refl {key : Option String × String} (w : World) :
    KeepsOthers cluster key w w := ⟨fun _ _ _ => rfl, fun _ _ h => h⟩

/-- A call to another binding finds what it found before. -/
theorem Holds.frame {l l' : Caller} {w w' : World} (h : Holds l' w)
    (hkeeps : KeepsOthers l.cluster l.call.key w w')
    (hne : ¬ (l'.cluster = l.cluster ∧ l'.call.key = l.call.key)) :
    Holds l' w' := by
  have hget := hkeeps.bindings _ _ hne
  have hns := hkeeps.namespaces l'.cluster l'.call.scope
  rw [Holds] at h ⊢
  rw [hget]
  cases hs : l'.stage with
  | ready =>
      rw [hs] at h
      exact ⟨h.1, hns h.2⟩
  | start | absent | missing | done | failed =>
      rw [hs] at h
      exact h

/-- A cluster with one more namespace. -/
theorem hasNamespace_put {c : Cluster} {n : Namespace} {ns : Option String}
    (h : c.hasNamespace ns = true) :
    ({ c with namespaces := c.namespaces.put n } : Cluster).hasNamespace ns
      = true := by
  cases ns with
  | none => exact rfl
  | some ns =>
      show ((c.namespaces.put n).get ns).isSome = true
      rw [Table.get_put]
      by_cases hn : ns = n.name
      · rw [if_pos hn]
        exact rfl
      · rw [if_neg hn]
        exact h

/-- Reading the namespace of a call. -/
theorem holds_read {l : Caller} {w w' : World} {ns : String}
    {r : Except Exn Namespace} (hl : Holds l w) (hstage : l.stage = .absent)
    (hs : l.call.scope = some ns)
    (hans : handle (.kube l.cluster (.readNamespace ns)) w = (r, w')) :
    Holds (protocol.next l (.kube l.cluster (.readNamespace ns)) r) w' ∧
      w' = w := by
  have hread : handle (.kube l.cluster (.readNamespace ns)) w
      = ((readIn (w.clusters l.cluster).namespaces ns).mapError .api, w) :=
    Prod.ext rfl (World.setCluster_eq_self w l.cluster)
  rw [hread] at hans
  obtain ⟨rfl, rfl⟩ := Prod.mk.inj hans
  refine ⟨?_, rfl⟩
  rw [Holds, hstage] at hl
  rw [readIn]
  cases hn : (w.clusters l.cluster).namespaces.get ns with
  | none => exact hl
  | some n =>
      refine ⟨hl, ?_⟩
      show (w.clusters l.cluster).hasNamespace l.call.scope = true
      rw [hs]
      exact Option.isSome_iff_exists.mpr ⟨n, hn⟩

/-- Creating the namespace of a call. -/
theorem holds_add {l : Caller} {w w' : World} {ns : String}
    {r : Except Exn Unit} (hl : Holds l w) (hstage : l.stage = .missing)
    (hs : l.call.scope = some ns)
    (hans : handle (.kube l.cluster (.createNamespace ⟨ns, managedBy⟩)) w
      = (r, w')) :
    Holds (protocol.next l
        (.kube l.cluster (.createNamespace ⟨ns, managedBy⟩)) r) w' ∧
      KeepsOthers l.cluster l.call.key w w' := by
  have hadd : handle (.kube l.cluster (.createNamespace ⟨ns, managedBy⟩)) w
      = ((storing (w.clusters l.cluster)
            (createIn (w.clusters l.cluster).namespaces ⟨ns, managedBy⟩) ()
            (fun t => { w.clusters l.cluster with namespaces := t })).1.mapError
            .api,
          w.setCluster l.cluster (storing (w.clusters l.cluster)
            (createIn (w.clusters l.cluster).namespaces ⟨ns, managedBy⟩) ()
            (fun t => { w.clusters l.cluster with namespaces := t })).2) := rfl
  rw [hadd, createIn] at hans
  rw [Holds, hstage] at hl
  -- another call may have created it first: then the answer is a 409
  cases hn : (w.clusters l.cluster).namespaces.get
      (Namespace.name ⟨ns, managedBy⟩) with
  | some n =>
      rw [hn] at hans
      obtain ⟨rfl, rfl⟩ := Prod.mk.inj hans
      show Holds _ (w.setCluster l.cluster (w.clusters l.cluster)) ∧
        KeepsOthers _ _ w (w.setCluster l.cluster (w.clusters l.cluster))
      rw [World.setCluster_eq_self]
      refine ⟨⟨hl, ?_⟩, .refl w⟩
      show (w.clusters l.cluster).hasNamespace l.call.scope = true
      rw [hs]
      exact Option.isSome_iff_exists.mpr ⟨n, hn⟩
  | none =>
      rw [hn] at hans
      obtain ⟨rfl, rfl⟩ := Prod.mk.inj hans
      refine ⟨⟨?_, ?_⟩, ?_, ?_⟩
      · show ((w.setCluster l.cluster _).clusters l.cluster).bindings.get _ = _
        rw [World.setCluster_self]
        exact hl
      · show ((w.setCluster l.cluster _).clusters l.cluster).hasNamespace
          l.call.scope = _
        rw [World.setCluster_self, hs]
        refine Option.isSome_iff_exists.mpr ⟨⟨ns, managedBy⟩, ?_⟩
        exact Table.get_put_self _ _
      · intro c k _
        show ((w.setCluster l.cluster _).clusters c).bindings.get k = _
        by_cases hc : c = l.cluster
        · rw [hc, World.setCluster_self]
          rfl
        · rw [World.setCluster_ne w _ hc]
      · intro c n hcn
        show ((w.setCluster l.cluster _).clusters c).hasNamespace n = true
        by_cases hc : c = l.cluster
        · rw [hc, World.setCluster_self]
          rw [hc] at hcn
          exact hasNamespace_put hcn
        · rw [World.setCluster_ne w _ hc]
          exact hcn

/-- Creating the binding of a call. -/
theorem holds_create {l : Caller} {w w' : World} {r : Except Exn Binding}
    (hl : Holds l w) (hstage : l.stage = .ready)
    (hans : handle (.kube l.cluster
      (.createBinding (l.call.binding l.kind))) w = (r, w')) :
    Holds (protocol.next l (.kube l.cluster
        (.createBinding (l.call.binding l.kind))) r) w' ∧
      KeepsOthers l.cluster l.call.key w w' := by
  rw [Holds, hstage] at hl
  rw [handle_createBinding_free hl.2 hl.1] at hans
  obtain ⟨rfl, rfl⟩ := Prod.mk.inj hans
  refine ⟨⟨l.call.binding l.kind, ?_, List.mem_singleton.mpr rfl⟩, ?_, ?_⟩
  · show ((setBindings w l.cluster _).clusters l.cluster).bindings.get _ = _
    rw [setBindings, World.setCluster_self]
    exact Table.get_put_self _ (l.call.binding l.kind)
  · intro c k hne
    rw [setBindings]
    by_cases hc : c = l.cluster
    · rw [hc, World.setCluster_self]
      exact Table.get_put_ne _ (fun hk => hne ⟨hc, hk⟩)
    · rw [World.setCluster_ne w _ hc]
  · intro c n hcn
    rw [setBindings]
    by_cases hc : c = l.cluster
    · rw [hc, World.setCluster_self]
      rw [hc] at hcn
      exact hcn
    · rw [World.setCluster_ne w _ hc]
      exact hcn

/-- An allowed call brings its caller forward, and is none of the others'
    business. -/
theorem holds_step {l : Caller} {w w' : World} {op : Op}
    {r : Except Exn op.Res} (hl : Holds l w) (hop : protocol.allowed l op)
    (hans : handle op w = (r, w')) :
    Holds (protocol.next l op r) w' ∧
      KeepsOthers l.cluster l.call.key w w' := by
  obtain ⟨cluster, k, kind, stage⟩ := l
  cases hop with
  | patch =>
      have hget : (w.clusters cluster).bindings.get (k.key.1, k.key.2)
          = none := hl
      rw [handle_patchBinding_absent hget] at hans
      obtain ⟨rfl, rfl⟩ := Prod.mk.inj hans
      refine ⟨?_, .refl w⟩
      rw [next_patch]
      by_cases hs : k.scope = none
      · rw [if_pos hs]
        refine ⟨hget, ?_⟩
        show (w.clusters cluster).hasNamespace k.scope = true
        rw [hs]
        rfl
      · rw [if_neg hs]
        exact hget
  | read hs =>
      obtain ⟨hnext, rfl⟩ := holds_read hl rfl hs hans
      exact ⟨hnext, .refl _⟩
  | add hs => exact holds_add hl rfl hs hans
  | create => exact holds_create hl rfl hans

end Caller

/-! ## Any number of calls -/

/-- A call of `assign_role` on a cluster. -/
structure Assignment where
  cluster : String
  call : AssignCall

/-- The binding that it addresses. -/
def Assignment.target (a : Assignment) : String × Option String × String :=
  (a.cluster, a.call.key)

/-- The binding that it addresses is there, with its subject. -/
def Assignment.Has (a : Assignment) (w : World) : Prop :=
  ∃ kind b, SubjectKind.ofText a.call.userKind = some kind ∧
    (w.clusters a.cluster).bindings.get a.call.key = some b ∧
    a.call.subject kind ∈ b.subjects

variable {ι : Type} [DecidableEq ι] {calls : ι → Assignment} {w : World}

/-- The calls, at their start. -/
def assigning (calls : ι → Assignment) (w : World) :
    Pool backend Exn Unit World ι :=
  ⟨fun i => (calls i).call.prog (calls i).cluster, w⟩

/-- None of their bindings is there. -/
def NoneThere (calls : ι → Assignment) (w : World) : Prop :=
  ∀ i, (w.clusters (calls i).cluster).bindings.get (calls i).call.key = none

/-- In every interleaving no call fails, and each one that has returned has its
    subject in its binding, then and from then on. -/
def NothingLost (calls : ι → Assignment) (w : World) : Prop :=
  ∀ tr p, Run (fun _ op s r s' => handle op s = (r, s'))
      (assigning calls w) tr p →
    (∀ i e, p.threads i ≠ .raise e) ∧
      ∀ i u, p.threads i = .ret u → (calls i).Has p.shared

/-- Calls to different bindings lose nothing. -/
theorem nothingLost_of_apart (hnone : NoneThere calls w)
    (hkinds : ∀ i, SubjectKind.ofText (calls i).call.userKind ≠ none)
    (hinj : Function.Injective (fun i => (calls i).target)) :
    NothingLost calls w := by
  choose kind hkind using
    fun i => Option.ne_none_iff_exists'.mp (hkinds i)
  intro tr p hrun
  -- every call stays itself, and finds what its stage promises
  let Inv : List (Entry backend Exn World ι) → (ι → Caller) → World → Prop :=
    fun _ ph s => ∀ i, (ph i).cluster = (calls i).cluster ∧
      (ph i).call = (calls i).call ∧ (ph i).kind = kind i ∧
      Caller.Holds (ph i) s
  have hkeep : KeptBy Caller.protocol
      (fun _ op s r s' => handle op s = (r, s')) Inv (fun _ => True) := by
    intro tr ph s t op r s' hinv hop hans _ i
    obtain ⟨htc, htk, hkindt, hholds⟩ := hinv t
    obtain ⟨hnext, hothers⟩ := Caller.holds_step hholds hop hans
    by_cases hit : i = t
    · rw [hit, Function.update_self]
      exact ⟨htc, htk, hkindt, hnext⟩
    · rw [Function.update_of_ne hit]
      obtain ⟨hic, hik, hkindi, hi⟩ := hinv i
      refine ⟨hic, hik, hkindi, hi.frame hothers ?_⟩
      rintro ⟨hcluster, hkey⟩
      rw [hic, htc] at hcluster
      rw [hik, htk] at hkey
      exact hit (hinj (Prod.ext hcluster hkey))
  have hstart : Inv []
      (fun i => ⟨(calls i).cluster, (calls i).call, kind i, .start⟩) w :=
    fun i => ⟨rfl, rfl, rfl, hnone i⟩
  obtain ⟨ph, hinv, hfol⟩ := Run.inv (Q := fun _ => Caller.Ended) hkeep hstart
    (fun i => Caller.prog_follows (hkind i)) hrun (fun _ _ => trivial)
  refine ⟨?_, ?_⟩
  · intro i e hraise
    have hended := hfol i
    rw [hraise] at hended
    have hfailed : (ph i).stage = .failed := hended
    obtain ⟨-, -, -, hholds⟩ := hinv i
    rw [Caller.Holds, hfailed] at hholds
    exact hholds
  · intro i u hret
    have hended := hfol i
    rw [hret] at hended
    have hdone : (ph i).stage = .done := hended
    obtain ⟨hic, hik, hkindi, hholds⟩ := hinv i
    rw [Caller.Holds, hdone, hic, hik, hkindi] at hholds
    obtain ⟨b, hget, hmem⟩ := hholds
    exact ⟨kind i, b, hkind i, hget, hmem⟩

/-- A call that creates its binding leaves it there. -/
theorem creation_free {cluster : String} {k : AssignCall} {kind : SubjectKind}
    (hk : SubjectKind.ofText k.userKind = some kind)
    (hnone : (w.clusters cluster).bindings.get k.key = none) :
    (((k.creation kind cluster).run handle w).2.clusters cluster).bindings.get
      k.key = some (k.binding kind) := by
  have hpatch : handle (.kube cluster (.patchBinding k.key.1 k.key.2
      (k.subject kind))) w = (.error (.api ⟨404⟩), w) :=
    handle_patchBinding_absent hnone
  have hprog := (run_assignRole cluster w hk).2.1
  rw [AssignCall.prog_eq _ hk, run_unlessStatus, run_kube, hpatch,
    Prog.orElse_error, if_pos rfl, AssignCall.outcome, hnone] at hprog
  rw [hprog]
  exact Table.get_put_self _ (k.binding kind)

/-- A call that was to create its binding, and finds it taken. -/
theorem creation_taken {cluster : String} {k : AssignCall} {b : Binding}
    (kind : SubjectKind)
    (hb : (w.clusters cluster).bindings.get k.key = some b) :
    ((k.creation kind cluster).run handle w).1 = .error (.api ⟨409⟩) := by
  by_cases hc : k.ns = none ∧ k.roleKind = .clusterRole
  · rw [AssignCall.key, AssignCall.scope, if_pos hc] at hb
    rw [AssignCall.creation, if_pos hc, Prog.run_bind,
      run_createClusterRoleBinding_taken hb]
    rfl
  · rw [AssignCall.key, AssignCall.scope, if_neg hc] at hb
    rw [AssignCall.creation, if_neg hc, Prog.run_bind,
      run_createRoleBinding_taken hb]
    rfl

/-- A call that finds no binding goes on to create it. -/
theorem run_absent {tr : List (Entry backend Exn World ι)}
    {p : Pool backend Exn Unit World ι} {i : ι} {kind : SubjectKind}
    (hrun : Run (fun _ op s r s' => handle op s = (r, s'))
      (assigning calls w) tr p)
    (hi : SubjectKind.ofText (calls i).call.userKind = some kind)
    (hstart : p.threads i = (calls i).call.prog (calls i).cluster)
    (hnone : (p.shared.clusters (calls i).cluster).bindings.get
      (calls i).call.key = none) :
    ∃ tr', Run (fun _ op s r s' => handle op s = (r, s')) (assigning calls w)
      tr' ⟨Function.update p.threads i
        ((calls i).call.creation kind (calls i).cluster), p.shared⟩ := by
  rw [AssignCall.prog_eq _ hi] at hstart
  exact ⟨_, Run.step hrun hstart (handle_patchBinding_absent hnone)⟩

/-- Two calls to one binding can both find it absent, and then one fails. -/
theorem not_nothingLost_of_shared {i j : ι} {kind kind' : SubjectKind}
    (hnone : NoneThere calls w) (hij : i ≠ j)
    (hi : SubjectKind.ofText (calls i).call.userKind = some kind)
    (hj : SubjectKind.ofText (calls j).call.userKind = some kind')
    (htarget : (calls i).target = (calls j).target) :
    ¬ NothingLost calls w := by
  intro hall
  obtain ⟨hcluster, hkey⟩ := Prod.mk.inj htarget
  -- both calls find the binding absent
  obtain ⟨tr₁, hrun₁⟩ := run_absent .refl hi rfl (hnone i)
  obtain ⟨tr₂, hrun₂⟩ := run_absent hrun₁ hj
    (Function.update_of_ne hij.symm ..) (hnone j)
  -- the first one creates it
  obtain ⟨tr₃, hrun₃⟩ := run_thread i _
    ((Function.update_of_ne hij ..).trans (Function.update_self ..)) hrun₂
  -- the second one tries to
  obtain ⟨tr₄, hrun₄⟩ := run_thread j _
    ((Function.update_of_ne hij.symm ..).trans (Function.update_self ..)) hrun₃
  have hput : (((((calls i).call.creation kind (calls i).cluster).run handle
      w).2).clusters (calls j).cluster).bindings.get (calls j).call.key
        = some ((calls i).call.binding kind) := by
    rw [← hcluster, ← hkey]
    exact creation_free hi (hnone i)
  refine (hall _ _ hrun₄).1 j (.api ⟨409⟩) ?_
  refine (Function.update_self ..).trans ?_
  show Prog.ofExcept (((calls j).call.creation kind' (calls j).cluster).run
    handle (((calls i).call.creation kind (calls i).cluster).run handle
      w).2).1 = _
  rw [creation_taken kind' hput]
  rfl

/-- A call with a text that is no subject kind fails. -/
theorem not_nothingLost_of_badKind {i : ι}
    (hi : SubjectKind.ofText (calls i).call.userKind = none) :
    ¬ NothingLost calls w := by
  intro hall
  refine (hall _ _ .refl).1 i (.valueError ("'" ++ (calls i).call.userKind
    ++ "' is not a valid SubjectKind")) ?_
  show (calls i).call.prog (calls i).cluster = _
  rw [AssignCall.prog, assignRole, subjectKind, hi]
  rfl

/-- Concurrent calls, none of whose bindings is there, all succeed and keep
    their subjects in every interleaving exactly when each names a subject kind
    and no two address the same binding. -/
theorem nothing_lost_iff (calls : ι → Assignment) (w : World)
    (hnone : NoneThere calls w) :
    NothingLost calls w ↔
      (∀ i, SubjectKind.ofText (calls i).call.userKind ≠ none) ∧
        Function.Injective (fun i => (calls i).target) := by
  constructor
  · intro hall
    have hkinds : ∀ i, SubjectKind.ofText (calls i).call.userKind ≠ none :=
      fun i hi => not_nothingLost_of_badKind hi hall
    refine ⟨hkinds, ?_⟩
    intro i j htarget
    by_contra hij
    obtain ⟨kind, hi⟩ := Option.ne_none_iff_exists'.mp (hkinds i)
    obtain ⟨kind', hj⟩ := Option.ne_none_iff_exists'.mp (hkinds j)
    exact not_nothingLost_of_shared hnone hij hi hj htarget hall
  · rintro ⟨hkinds, hinj⟩
    exact nothingLost_of_apart hnone hkinds hinj

/-- The role `view` for `ada`, in one namespace or the other. -/
def viewIn (ns : Bool → String) (i : Bool) : Assignment :=
  ⟨"local", "ada", "User", "view", .clusterRole, some (ns i), none⟩

/-- In two namespaces. -/
theorem nothing_lost_namespaces :
    NothingLost (viewIn (fun i => if i then "prod" else "test"))
      World.fresh := by
  refine (nothing_lost_iff _ World.fresh (fun _ => rfl)).mpr
    ⟨fun _ => nofun, ?_⟩
  intro i j htarget
  revert htarget
  cases i <;> cases j <;> decide

/-- The same assignment, submitted twice. -/
theorem assignment_fails_other :
    ¬ NothingLost (viewIn (fun _ => "prod")) World.fresh :=
  have huser : SubjectKind.ofText "User" = some .user := rfl
  not_nothingLost_of_shared (i := false) (j := true) (fun _ => rfl) nofun
    huser huser rfl

end CvAssign
