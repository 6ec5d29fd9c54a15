import ClusterVision.TokenService
import ClusterVision.UserServicesProofs
import ClusterVision.RunProofs

/-! # Which Secrets are deleted

    TokenService reads a Secret before it deletes it, and touches only the
    tokens that the backend manages.  ServiceAccountService deletes the token
    Secret of a user by its name.  The main result says which calls of a run
    delete a Secret that is not a managed token. -/

namespace CvToken

open CvProg CvRun CvTable CvKube CvBackend CvRbac CvRegistry CvUsers

variable {w : World} {cluster secretName saName name ns : String}

/-! ## Deletions -/

/-- A call that deletes a Secret finds a managed token there. -/
def DeletesManaged (w : World) (op : Op) : Prop :=
  ∀ cluster ns name, op = .kube cluster (.deleteSecret ns name) →
    ∀ s, (w.clusters cluster).secrets.get (ns, name) = some s → ManagedToken s

/-- The calls that delete no Secret. -/
def NoDeletion : Op → Prop
  | .kube _ (.deleteSecret _ _) => False
  | _ => True

theorem deletesManaged_of_noDeletion (op : Op) (h : NoDeletion op)
    (w : World) : DeletesManaged w op := by
  rintro cluster ns name rfl
  exact h.elim

/-- A program that deletes no Secret. -/
theorem meets_of_noDeletion {α : Type} {p : Svc α} (hp : p.Uses NoDeletion)
    (w : World) : p.Meets handle DeletesManaged w :=
  Prog.meets_of_uses (hp.imp deletesManaged_of_noDeletion) w

theorem kube_meets (cluster : String) (op : KubeOp)
    (h : NoDeletion (.kube cluster op)) (w : World) :
    (kube cluster op).Meets handle DeletesManaged w :=
  meets_kube.mpr (deletesManaged_of_noDeletion _ h w)

theorem meets_deleteSecret :
    (kube cluster (.deleteSecret ns name)).Meets handle DeletesManaged w ↔
      ∀ s, (w.clusters cluster).secrets.get (ns, name) = some s →
        ManagedToken s := by
  rw [meets_kube]
  constructor
  · exact fun h => h cluster ns name rfl
  · rintro h _ _ _ ⟨⟩
    exact h

theorem updateRegistry_noDeletion
    (mutate : List RegistryEntry → Except Exn (List RegistryEntry)) :
    (updateRegistry mutate).Uses NoDeletion :=
  updateRegistry_uses trivial (fun _ => trivial) mutate

theorem loadRegistry_noDeletion : loadRegistry.Uses NoDeletion :=
  Prog.uses_bind (Prog.uses_perform trivial) (fun _ => trivial)

theorem nowText_noDeletion : nowText.Uses NoDeletion :=
  Prog.uses_bind (Prog.uses_perform trivial) (fun _ => trivial)

/-! ## TokenService -/

section Reading

variable {σ : Type} {h : Handler backend Exn σ} {s t : σ}

/-- A read that fails makes the guard raise. -/
theorem run_readManagedTokenSecret_error {e : Exn}
    (hread : h (.kube cluster (.readSecret ns secretName)) s
      = (.error e, t)) :
    ∃ e', (readManagedTokenSecret cluster secretName ns).run h s
      = (.error e', t) := by
  rw [readManagedTokenSecret, Prog.run_bind, Prog.run_catching, run_kube,
    hread]
  by_cases he : e = .api ⟨404⟩
  · refine ⟨.httpException 404 ("Secret '" ++ secretName
      ++ "' not found in namespace '" ++ ns ++ "'"), ?_⟩
    show Prog.andThen ((if e = .api ⟨404⟩ then throw _ else throw e :
      Svc Secret).run h t) _ = _
    rw [if_pos he]
    rfl
  · refine ⟨e, ?_⟩
    show Prog.andThen ((if e = .api ⟨404⟩ then throw _ else throw e :
      Svc Secret).run h t) _ = _
    rw [if_neg he]
    rfl

/-- A Secret that is read goes through when it is a managed token. -/
theorem run_readManagedTokenSecret_ok {secret : Secret}
    (hread : h (.kube cluster (.readSecret ns secretName)) s
      = (.ok secret, t)) :
    (ManagedToken secret ∧
      (readManagedTokenSecret cluster secretName ns).run h s
        = (.ok secret, t)) ∨
    (¬ ManagedToken secret ∧
      ∃ e, (readManagedTokenSecret cluster secretName ns).run h s
        = (.error e, t)) := by
  rw [readManagedTokenSecret, Prog.run_bind, Prog.run_catching, run_kube,
    hread, Prog.orElse_ok, Prog.andThen_ok]
  by_cases hmanaged : ManagedToken secret
  · refine Or.inl ⟨hmanaged, ?_⟩
    rw [if_pos hmanaged]
    rfl
  · refine Or.inr ⟨hmanaged, ?_⟩
    rw [if_neg hmanaged]
    exact ⟨_, rfl⟩

end Reading

/-- The answer to the read of a Secret. -/
theorem handle_readSecret (cluster ns name : String) (w : World) :
    handle (.kube cluster (.readSecret ns name)) w
      = ((readIn (w.clusters cluster).secrets (ns, name)).mapError .api,
        w) := by
  show (_, w.setCluster cluster (w.clusters cluster)) = _
  rw [World.setCluster_eq_self]
  rfl

/-- A Secret that was read is a managed token, and nothing has changed. -/
theorem run_readManagedTokenSecret (cluster secretName ns : String)
    (w : World) :
    (∃ e, (readManagedTokenSecret cluster secretName ns).run handle w
        = (.error e, w)) ∨
      ∃ s, (readManagedTokenSecret cluster secretName ns).run handle w
          = (.ok s, w) ∧
        (w.clusters cluster).secrets.get (ns, secretName) = some s ∧
        ManagedToken s := by
  have hread := handle_readSecret cluster ns secretName w
  rw [readIn] at hread
  cases hs : (w.clusters cluster).secrets.get (ns, secretName) with
  | none =>
      rw [hs] at hread
      exact Or.inl (run_readManagedTokenSecret_error hread)
  | some s =>
      rw [hs] at hread
      rcases run_readManagedTokenSecret_ok hread with
        ⟨hmanaged, hrun⟩ | ⟨-, hrun⟩
      · exact Or.inr ⟨s, hrun, rfl, hmanaged⟩
      · exact Or.inl hrun

theorem readManagedTokenSecret_noDeletion :
    (readManagedTokenSecret cluster secretName ns).Uses NoDeletion := by
  refine Prog.uses_bind (Prog.uses_catching (Prog.uses_perform trivial) ?_) ?_
  · exact fun e => Prog.uses_ite trivial trivial
  · exact fun s => Prog.uses_ite trivial trivial

/-- Whatever follows the guard finds the managed token that it has read. -/
theorem meets_guarded {f : Secret → Svc Unit}
    (hf : ∀ s, (w.clusters cluster).secrets.get (ns, secretName) = some s →
      ManagedToken s → (f s).Meets handle DeletesManaged w) :
    (readManagedTokenSecret cluster secretName ns >>= f).Meets handle
      DeletesManaged w := by
  rw [Prog.meets_bind]
  refine ⟨meets_of_noDeletion readManagedTokenSecret_noDeletion w, ?_⟩
  rcases run_readManagedTokenSecret cluster secretName ns w with
    ⟨e, hrun⟩ | ⟨s, hrun, hs, hmanaged⟩
  · rw [hrun]
    exact trivial
  · rw [hrun]
    exact hf s hs hmanaged

/-- The Secret that was read is a managed token when it is deleted. -/
theorem meets_deleteRead {s : Secret}
    (hs : (w.clusters cluster).secrets.get (ns, secretName) = some s)
    (hmanaged : ManagedToken s) :
    (kube cluster (.deleteSecret ns secretName)).Meets handle
      DeletesManaged w := by
  refine meets_deleteSecret.mpr (fun s' hs' => ?_)
  rw [hs] at hs'
  rw [← Option.some.inj hs']
  exact hmanaged

theorem revokeSaToken_meets :
    (revokeSaToken cluster secretName ns).Meets handle DeletesManaged w :=
  meets_guarded (fun _ hs hmanaged => meets_deleteRead hs hmanaged)

theorem rotateSaToken_meets :
    (rotateSaToken cluster secretName saName ns).Meets handle
      DeletesManaged w := by
  refine meets_guarded (fun s hs hmanaged => ?_)
  show (if _ then throw _ else _ : Svc Unit).Meets handle DeletesManaged w
  by_cases hother : s.annotations.get? serviceAccountName ≠ some saName
  · rw [if_pos hother]
    exact trivial
  · rw [if_neg hother, Prog.meets_bind, meets_unlessStatus]
    refine ⟨meets_deleteRead hs hmanaged, ?_⟩
    have hcreate : ∀ v : World,
        (kube cluster (.createSecret (rotatedSecret secretName saName
          ns))).Meets handle DeletesManaged v :=
      fun v => kube_meets cluster
        (.createSecret (rotatedSecret secretName saName ns)) trivial v
    rw [Prog.MeetsOk]
    split
    · exact hcreate _
    · exact trivial

/-! ## ServiceAccountService -/

theorem createUser_noDeletion :
    (ServiceAccount.createUser cluster name ns).Uses NoDeletion := by
  refine Prog.uses_bind loadRegistry_noDeletion
    (fun users => Prog.uses_ite trivial ?_)
  refine Prog.uses_bind (uses_unlessStatus
    (Prog.uses_bind (Prog.uses_perform trivial) (fun _ => trivial))
    (uses_unlessStatus (Prog.uses_perform trivial) trivial)) (fun _ => ?_)
  refine Prog.uses_bind (uses_unlessStatus (Prog.uses_perform trivial) trivial)
    (fun _ => ?_)
  refine Prog.uses_bind (uses_unlessStatus (Prog.uses_perform trivial) trivial)
    (fun _ => ?_)
  refine Prog.uses_bind nowText_noDeletion (fun now => ?_)
  exact Prog.uses_bind (updateRegistry_noDeletion _) (fun _ => trivial)

theorem importUser_noDeletion :
    (ServiceAccount.importUser cluster name ns).Uses NoDeletion := by
  refine Prog.uses_bind (Prog.uses_perform trivial) (fun _ => ?_)
  refine Prog.uses_bind nowText_noDeletion (fun now => ?_)
  exact Prog.uses_bind (updateRegistry_noDeletion _) (fun _ => trivial)

/-- The user that `delete_user` chooses has a Secret of another kind under the
    name of its token Secret. -/
def HitsForeign (w : World) (cluster username ns : String) : Prop :=
  ∃ u s, ServiceAccount.chosen username ns
      (w.db.managedUsers.rows.map toDict) = .ok u ∧
    (w.clusters cluster).secrets.get
      (u.ns, ServiceAccount.tokenSecretName username) = some s ∧
    ¬ ManagedToken s

/-- What `delete_user` deletes. -/
theorem deleteUser_meets_iff (cluster username ns : String) (w : World) :
    (ServiceAccount.deleteUser cluster username ns).Meets handle
        DeletesManaged w ↔
      ¬ HitsForeign w cluster username ns := by
  have hload : loadRegistry.Meets handle DeletesManaged w :=
    meets_of_noDeletion loadRegistry_noDeletion w
  rw [ServiceAccount.deleteUser, Prog.meets_bind, and_iff_right hload,
    run_loadRegistry]
  show (Prog.ofExcept _ >>= _ : Svc Unit).Meets handle DeletesManaged w ↔ _
  rw [Prog.meets_bind, and_iff_right (Prog.meets_ofExcept _ _),
    Prog.run_ofExcept]
  cases hchosen : ServiceAccount.chosen username ns
      (w.db.managedUsers.rows.map toDict) with
  | error e =>
      refine iff_of_true trivial ?_
      rintro ⟨u, s, hu, -⟩
      rw [hchosen] at hu
      cases hu
  | ok u =>
      -- the account goes first, which leaves the secrets as they are
      have hsa := run_deleteIn cluster w
        (fun a => { w.clusters cluster with serviceAccounts := a })
        (run_kube handle cluster (.deleteServiceAccount u.ns username) w) rfl
      generalize hv : w.setCluster cluster _ = v at hsa
      have hsecrets : (v.clusters cluster).secrets
          = (w.clusters cluster).secrets := by
        rw [← hv, World.setCluster_self]
      have hfirst : (unlessStatus 404 (pure ()) (kube cluster
          (.deleteServiceAccount u.ns username))).Meets handle
            DeletesManaged w :=
        meets_unlessStatus.mpr (kube_meets cluster
          (.deleteServiceAccount u.ns username) trivial w)
      have hrest : ∀ x : World, (Prog.void (updateRegistry
          (removeIf (ServiceAccount.isEntry username u.ns)))).Meets handle
            DeletesManaged x :=
        fun x => meets_of_noDeletion
          (Prog.uses_bind (updateRegistry_noDeletion _)
            (fun _ => Prog.uses_pure ())) x
      show (unlessStatus 404 (pure ()) _ >>= _ : Svc Unit).Meets handle
        DeletesManaged w ↔ _
      rw [Prog.meets_bind, and_iff_right hfirst, hsa]
      show (unlessStatus 404 (pure ()) _ >>= _ : Svc Unit).Meets handle
        DeletesManaged v ↔ _
      -- then the Secret goes by its name, without a look at its kind
      rw [Prog.meets_bind, meets_unlessStatus, meets_deleteSecret, hsecrets]
      constructor
      · rintro ⟨hmanaged, -⟩ ⟨u', s, hu', hs, hforeign⟩
        rw [hchosen] at hu'
        rw [← Except.ok.inj hu'] at hs
        exact hforeign (hmanaged s hs)
      · intro hno
        refine ⟨fun s hs => ?_, ?_⟩
        · by_contra hforeign
          exact hno ⟨u, s, hchosen, hs, hforeign⟩
        · rw [Prog.MeetsOk]
          split
          · exact hrest _
          · exact trivial

/-! ## Runs -/

/-- The calls of the two services. -/
inductive TokenCall where
  | revokeSaToken (cluster secretName ns : String)
  | rotateSaToken (cluster secretName saName ns : String)
  | createAccount (cluster name ns : String)
  | importAccount (cluster name ns : String)
  | deleteAccount (cluster username ns : String)

/-- The program of a call. -/
def TokenCall.prog : TokenCall → Svc Unit
  | .revokeSaToken cluster secretName ns =>
      CvToken.revokeSaToken cluster secretName ns
  | .rotateSaToken cluster secretName saName ns =>
      CvToken.rotateSaToken cluster secretName saName ns
  | .createAccount cluster name ns =>
      (ServiceAccount.createUser cluster name ns).void
  | .importAccount cluster name ns =>
      (ServiceAccount.importUser cluster name ns).void
  | .deleteAccount cluster username ns =>
      ServiceAccount.deleteUser cluster username ns

/-- The world after a call. -/
def tokenStep (k : TokenCall) (w : World) : World :=
  (k.prog.run handle w).2

/-- The call deletes a user that has a foreign Secret. -/
def DeletesForeign (w : World) : TokenCall → Prop
  | .deleteAccount cluster username ns => HitsForeign w cluster username ns
  | _ => False

/-- What one call deletes. -/
theorem prog_meets_iff (k : TokenCall) (w : World) :
    k.prog.Meets handle DeletesManaged w ↔ ¬ DeletesForeign w k := by
  cases k with
  | revokeSaToken cluster secretName ns =>
      exact iff_of_true revokeSaToken_meets id
  | rotateSaToken cluster secretName saName ns =>
      exact iff_of_true rotateSaToken_meets id
  | createAccount cluster name ns =>
      refine iff_of_true (meets_of_noDeletion ?_ w) id
      exact Prog.uses_bind createUser_noDeletion (fun _ => trivial)
  | importAccount cluster name ns =>
      refine iff_of_true (meets_of_noDeletion ?_ w) id
      exact Prog.uses_bind importUser_noDeletion (fun _ => trivial)
  | deleteAccount cluster username ns =>
      exact deleteUser_meets_iff cluster username ns w

/-- Every Secret that a run deletes is a managed token when it is deleted,
    exactly when no call of the run deletes a user that has a foreign Secret
    under the name of its token Secret. -/
theorem deletes_managed_iff (w : World) (ks : List TokenCall) :
    Along tokenStep (fun w k => k.prog.Meets handle DeletesManaged w) ks w ↔
      Along tokenStep (fun w k => ¬ DeletesForeign w k) ks w := by
  have hstep : ∀ (v : World) (k : TokenCall), True →
      k.prog.Meets handle DeletesManaged v → True :=
    fun _ _ _ _ => trivial
  have hiff : ∀ (v : World) (k : TokenCall), True →
      (k.prog.Meets handle DeletesManaged v ↔ ¬ DeletesForeign v k) :=
    fun v k _ => prog_meets_iff k v
  exact along_congr hstep hiff trivial ks

/-- A new installation with an opaque Secret on the local cluster, under the
    name that the token Secret of `ci` would have. -/
def withOpaque : World :=
  World.fresh.setCluster "local" { Cluster.fresh with
    secrets := Table.empty.put
      ⟨"clustervision-ci-token", "default", [], [], "Opaque", none⟩ }

/-- The creation of `ci` tolerates the Secret, and its deletion deletes it. -/
theorem deletes_foreign :
    ¬ Along tokenStep (fun w k => k.prog.Meets handle DeletesManaged w)
      [.createAccount "local" "ci" "default",
        .deleteAccount "local" "ci" "default"] withOpaque := by
  intro h
  have hdelete := (deleteUser_meets_iff "local" "ci" "default"
    (tokenStep (.createAccount "local" "ci" "default") withOpaque)).mp h.2.1
  refine hdelete ⟨ServiceAccount.userRecord "ci" "default"
    (timeText (CvIso.utc CvIso.Time.epoch)) false,
    ⟨"clustervision-ci-token", "default", [], [], "Opaque", none⟩, ?_, ?_, ?_⟩
  · decide +kernel
  · decide +kernel
  · decide

end CvToken
