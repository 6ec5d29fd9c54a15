import ClusterVision.TokenSecretProofs
import ClusterVision.FaultProofs

/-! # Rotations that fail half-way

    `rotate_sa_token` deletes the Secret of a token and creates it again, in
    two calls of which the first cannot be undone.  One call of a rotation
    fails here, before or after it takes effect.  The main result says for
    which failures the ServiceAccount still has a token Secret. -/

namespace CvRotation

open CvProg CvTable CvKube CvBackend CvRbac CvToken

/-! ## One point of failure -/

/-- The cluster with other Secrets. -/
def withSecrets (c : Cluster) (t : Table Secret Secret.key) : Cluster :=
  { c with secrets := t }

/-- A rotation, and the failure of its call number `point`; a later number is
    no failure at all. -/
structure Rotation where
  cluster : String
  secretName : String
  saName : String
  ns : String
  before : World
  point : Nat
  fault : Fault Exn

namespace Rotation

variable (x : Rotation)

/-- The program. -/
def prog : Svc Unit := rotateSaToken x.cluster x.secretName x.saName x.ns

/-- The API server, with the failure. -/
def server : Handler backend Exn (Nat × World) :=
  faulty (failAt x.point x.fault) handle

/-- How the rotation ends. -/
def result : Except Exn Unit := (x.prog.run x.server (0, x.before)).1

/-- The world that it leaves. -/
def left : World := (x.prog.run x.server (0, x.before)).2.2

/-- The Secret of the rotation, in a world. -/
def secret (w : World) : Option Secret :=
  (w.clusters x.cluster).secrets.get (x.ns, x.secretName)

/-- The Secret is a managed token of the ServiceAccount. -/
def Managed : Prop :=
  ∃ s, x.secret x.before = some s ∧ ManagedToken s ∧
    s.annotations.get? serviceAccountName = some x.saName

/-- A token Secret of the ServiceAccount is there. -/
def HasToken (w : World) : Prop :=
  ∃ s, x.secret w = some s ∧ s.type = tokenType ∧
    s.annotations.get? serviceAccountName = some x.saName

/-- No deletion of the run has an effect. -/
def DeletesNothing : Prop :=
  x.prog.Meets x.server (fun s op =>
    (∃ c ns name, op = .kube c (.deleteSecret ns name)) →
      (x.server op s).2.2 = s.2) (0, x.before)

/-- The ServiceAccount keeps a token Secret, and a rotation that raises before
    it deletes anything leaves all as it was. -/
structure Safe : Prop where
  keeps : x.Managed → x.HasToken x.left
  unchanged : ∀ e, x.result = .error e → x.DeletesNothing → x.left = x.before

/-- The deletion, the second call, takes effect. -/
structure Deletes : Prop where
  read : x.point ≠ 0
  delete : ∀ e, ¬ (x.point = 1 ∧ x.fault = .refuse e)

/-- The creation, the third call, is made and takes effect: its namespace takes
    new objects, a lost answer to the deletion is the one that is tolerated,
    and the creation is not refused. -/
structure Creates : Prop where
  hasNamespace : (x.before.clusters x.cluster).hasNamespace (some x.ns) = true
  delete : x.point = 1 → x.fault = .lose (.api ⟨404⟩)
  create : ∀ e, ¬ (x.point = 2 ∧ x.fault = .refuse e)

/-- The world after the deletion. -/
def erased : World :=
  x.before.setCluster x.cluster (withSecrets (x.before.clusters x.cluster)
    ((x.before.clusters x.cluster).secrets.erase (x.ns, x.secretName)))

/-- The world after the creation. -/
def recreated : World :=
  x.before.setCluster x.cluster (withSecrets (x.before.clusters x.cluster)
    (((x.before.clusters x.cluster).secrets.erase (x.ns, x.secretName)).put
      (rotatedSecret x.secretName x.saName x.ns)))

end Rotation

variable {x : Rotation}

/-! ## The calls -/

/-- The call that fails. -/
theorem server_refuse (op : Op) (w : World) {e : Exn}
    (h : x.fault = .refuse e) :
    x.server op (x.point, w) = (.error e, (x.point + 1, w)) := by
  refine faulty_refuse handle ?_
  rw [failAt, if_pos rfl, h]

theorem server_lose (op : Op) (w : World) {e : Exn} (h : x.fault = .lose e) :
    x.server op (x.point, w)
      = (.error e, (x.point + 1, (handle op w).2)) := by
  refine faulty_lose handle ?_
  rw [failAt, if_pos rfl, h]

/-- Any other call is answered. -/
theorem server_other {op : Op} {n : Nat} {w : World} (h : n ≠ x.point) :
    x.server op (n, w) = ((handle op w).1, (n + 1, (handle op w).2)) := by
  refine faulty_none handle ?_
  rw [failAt, if_neg h]

/-- The deletion of a Secret that is there. -/
theorem handle_delete {s : Secret} (hs : x.secret x.before = some s) :
    handle (.kube x.cluster (.deleteSecret x.ns x.secretName)) x.before
      = (.ok (), x.erased) := by
  have hs' : (x.before.clusters x.cluster).secrets.get (x.ns, x.secretName)
      = some s := hs
  rw [handle, Cluster.exec, deleteIn, hs']
  rfl

/-- A creation stores the Secret, or fails and changes nothing. -/
theorem handle_createSecret (cluster : String) (s : Secret) (w : World) :
    handle (.kube cluster (.createSecret s)) w
      = match createInNs (w.clusters cluster) (some s.ns)
            (w.clusters cluster).secrets s with
        | .ok t =>
            (.ok (), w.setCluster cluster
              (withSecrets (w.clusters cluster) t))
        | .error e => (.error (.api e), w) := by
  show ((storing _ (createInNs _ (some s.ns) _ s) () _).1.mapError Exn.api,
    w.setCluster cluster (storing _ (createInNs _ (some s.ns) _ s) () _).2) = _
  cases createInNs (w.clusters cluster) (some s.ns)
      (w.clusters cluster).secrets s with
  | ok t => rfl
  | error e => exact Prod.ext rfl (World.setCluster_eq_self ..)

/-- The creation where the Secret still is. -/
theorem handle_create_taken {s : Secret} (hs : x.secret x.before = some s) :
    ∃ e, handle (.kube x.cluster (.createSecret
        (rotatedSecret x.secretName x.saName x.ns))) x.before
      = (.error (.api e), x.before) := by
  have hs' : (x.before.clusters x.cluster).secrets.get (Secret.key
      (rotatedSecret x.secretName x.saName x.ns)) = some s := hs
  rw [handle_createSecret, createInNs]
  by_cases hns : (x.before.clusters x.cluster).hasNamespace
      (some (rotatedSecret x.secretName x.saName x.ns).ns) = true
  · rw [if_pos hns, createIn, hs']
    exact ⟨_, rfl⟩
  · rw [if_neg hns]
    exact ⟨_, rfl⟩

/-- The creation after the deletion. -/
theorem handle_create_erased :
    handle (.kube x.cluster (.createSecret
        (rotatedSecret x.secretName x.saName x.ns))) x.erased
      = if (x.before.clusters x.cluster).hasNamespace (some x.ns) = true
        then (.ok (), x.recreated)
        else (.error (.api ⟨404⟩), x.erased) := by
  have hfree : ((x.before.clusters x.cluster).secrets.erase
      (x.ns, x.secretName)).get (Secret.key
        (rotatedSecret x.secretName x.saName x.ns)) = none :=
    Table.get_erase_self _ _
  rw [handle_createSecret, createInNs, Rotation.erased,
    World.setCluster_self]
  change (match (if (x.before.clusters x.cluster).hasNamespace (some x.ns)
      = true then createIn ((x.before.clusters x.cluster).secrets.erase
        (x.ns, x.secretName)) _ else _) with
    | .ok t => _
    | .error e => _) = _
  by_cases hns : (x.before.clusters x.cluster).hasNamespace (some x.ns) = true
  · rw [if_pos hns, if_pos hns, createIn, hfree]
    exact Prod.ext rfl (World.setCluster_setCluster ..)
  · rw [if_neg hns, if_neg hns]

/-! ## Courses -/

/-- The two writes of a rotation. -/
def Rotation.replace (x : Rotation) : Svc Unit := do
  unlessStatus 404 (pure ())
    (kube x.cluster (.deleteSecret x.ns x.secretName))
  kube x.cluster (.createSecret (rotatedSecret x.secretName x.saName x.ns))

/-- The reading, which raises, or has found the Secret `s`. -/
theorem run_read (x : Rotation) :
    (∃ e, (readManagedTokenSecret x.cluster x.secretName x.ns).run x.server
        (0, x.before) = (.error e, (1, x.before)) ∧
      (x.point = 0 ∨ ∀ s, x.secret x.before = some s → ¬ ManagedToken s)) ∨
    ∃ s, (readManagedTokenSecret x.cluster x.secretName x.ns).run x.server
        (0, x.before) = (.ok s, (1, x.before)) ∧
      x.point ≠ 0 ∧ x.secret x.before = some s ∧ ManagedToken s := by
  have hanswer := handle_readSecret x.cluster x.ns x.secretName x.before
  by_cases hpoint : x.point = 0
  · -- whether the failing read takes effect or not, it changes nothing
    have hfail : ∃ e, x.server (.kube x.cluster
        (.readSecret x.ns x.secretName)) (0, x.before)
        = (.error e, (1, x.before)) := by
      rw [show (0, x.before) = (x.point, x.before) by rw [hpoint],
        show (1, x.before) = (x.point + 1, x.before) by rw [hpoint]]
      cases hfault : x.fault with
      | refuse e => exact ⟨e, server_refuse _ _ hfault⟩
      | lose e =>
          rw [server_lose _ _ hfault, hanswer]
          exact ⟨e, rfl⟩
    obtain ⟨e, he⟩ := hfail
    obtain ⟨e', hrun⟩ := run_readManagedTokenSecret_error he
    exact Or.inl ⟨e', hrun, Or.inl hpoint⟩
  · have hread : x.server (.kube x.cluster (.readSecret x.ns x.secretName))
        (0, x.before) = (_, (1, _)) := server_other (Ne.symm hpoint)
    rw [hanswer, readIn] at hread
    cases hs : (x.before.clusters x.cluster).secrets.get
        (x.ns, x.secretName) with
    | none =>
        rw [hs] at hread
        obtain ⟨e, hrun⟩ := run_readManagedTokenSecret_error hread
        refine Or.inl ⟨e, hrun, Or.inr (fun s hs' => ?_)⟩
        rw [Rotation.secret, hs] at hs'
        cases hs'
    | some s =>
        rw [hs] at hread
        rcases run_readManagedTokenSecret_ok hread with
          ⟨hmanaged, hrun⟩ | ⟨hforeign, e, hrun⟩
        · exact Or.inr ⟨s, hrun, hpoint, hs, hmanaged⟩
        · refine Or.inl ⟨e, hrun, Or.inr (fun s' hs' => ?_)⟩
          rw [Rotation.secret, hs] at hs'
          rw [← Option.some.inj hs']
          exact hforeign

/-- The deletion, which may tolerate that its Secret is absent. -/
theorem run_delete {p : Svc Unit} {n : Nat} {w : World} {r : Except Exn Unit}
    {t : Nat × World} (hp : p.run x.server (n, w) = (r, t)) :
    (unlessStatus 404 (pure ()) p).run x.server (n, w)
      = (if r = .error (.api ⟨404⟩) then .ok () else r, t) := by
  rw [run_unlessStatus, hp]
  cases r with
  | ok _ => rfl
  | error e =>
      by_cases he : e = .api ⟨404⟩
      · rw [he]
        rfl
      · rw [if_neg (fun h => he (Except.error.inj h)), Prog.orElse_error]
        rw [if_neg he]

/-- The deletion when it is refused. -/
theorem delete_refused {e : Exn} (hpoint : x.point = 1)
    (hfault : x.fault = .refuse e) :
    ∃ r, (unlessStatus 404 (pure ()) (kube x.cluster
      (.deleteSecret x.ns x.secretName))).run x.server (1, x.before)
      = (r, (2, x.before)) := by
  have hcall : (kube x.cluster (.deleteSecret x.ns x.secretName)).run x.server
      (1, x.before) = (.error e, (2, x.before)) := by
    have hrefused := server_refuse (.kube x.cluster
      (.deleteSecret x.ns x.secretName)) x.before hfault
    rw [hpoint] at hrefused
    rw [run_kube]
    exact hrefused
  exact ⟨_, run_delete hcall⟩

/-- The call of the deletion, when it takes effect. -/
theorem server_delete {s : Secret} (hs : x.secret x.before = some s)
    (h : x.Deletes) :
    x.server (.kube x.cluster (.deleteSecret x.ns x.secretName)) (1, x.before)
      = (if x.point = 1 then .error x.fault.error else .ok (),
          (2, x.erased)) := by
  by_cases hpoint : x.point = 1
  · cases hfault : x.fault with
    | refuse e => exact absurd ⟨hpoint, hfault⟩ (h.delete e)
    | lose e =>
        have hlost := server_lose (.kube x.cluster
          (.deleteSecret x.ns x.secretName)) x.before hfault
        rw [hpoint, handle_delete hs] at hlost
        rw [hlost, if_pos hpoint]
        rfl
  · rw [server_other (Ne.symm hpoint), handle_delete hs, if_neg hpoint]

/-- The deletion goes on unless its answer is lost to an error that is not
    tolerated. -/
theorem delete_effect {s : Secret} (hs : x.secret x.before = some s)
    (h : x.Deletes) :
    (unlessStatus 404 (pure ()) (kube x.cluster
      (.deleteSecret x.ns x.secretName))).run x.server (1, x.before)
      = (if x.point = 1 → x.fault = .lose (.api ⟨404⟩) then .ok ()
          else .error x.fault.error, (2, x.erased)) := by
  have hcall := (run_kube x.server x.cluster
    (.deleteSecret x.ns x.secretName) (1, x.before)).trans
      (server_delete hs h)
  rw [run_delete hcall]
  by_cases hpoint : x.point = 1
  · rw [if_pos hpoint]
    cases hfault : x.fault with
    | refuse e => exact absurd ⟨hpoint, hfault⟩ (h.delete e)
    | lose e =>
        rw [Fault.error]
        by_cases he : e = .api ⟨404⟩
        · rw [if_pos (congrArg Except.error he),
            if_pos (fun _ => congrArg Fault.lose he)]
        · rw [if_neg (fun h => he (Except.error.inj h)),
            if_neg (fun h => he (Fault.lose.inj (h hpoint)))]
  · rw [if_neg hpoint, if_neg nofun,
      if_pos (fun hone => absurd hone hpoint)]

/-- The creation where the Secret still is fails, and changes nothing. -/
theorem create_taken {s : Secret} (hs : x.secret x.before = some s)
    (hpoint : x.point = 1) :
    ∃ e, (kube x.cluster (.createSecret
        (rotatedSecret x.secretName x.saName x.ns))).run x.server (2, x.before)
      = (.error e, (3, x.before)) := by
  obtain ⟨e, he⟩ := handle_create_taken hs
  refine ⟨.api e, ?_⟩
  rw [run_kube, server_other (by rw [hpoint]; decide), he]

/-- The creation after the deletion. -/
theorem create_erased (h : ∀ e, ¬ (x.point = 2 ∧ x.fault = .refuse e))
    (hns : (x.before.clusters x.cluster).hasNamespace (some x.ns) = true) :
    ∃ r, (kube x.cluster (.createSecret
        (rotatedSecret x.secretName x.saName x.ns))).run x.server (2, x.erased)
      = (r, (3, x.recreated)) := by
  have hcreate := handle_create_erased (x := x)
  rw [if_pos hns] at hcreate
  rw [run_kube]
  by_cases hpoint : x.point = 2
  · cases hfault : x.fault with
    | refuse e => exact absurd ⟨hpoint, hfault⟩ (h e)
    | lose e =>
        have hlost := server_lose (.kube x.cluster (.createSecret
          (rotatedSecret x.secretName x.saName x.ns))) x.erased hfault
        rw [hpoint, hcreate] at hlost
        exact ⟨_, hlost⟩
  · rw [server_other (Ne.symm hpoint), hcreate]
    exact ⟨_, rfl⟩

/-- The creation that has no effect. -/
theorem create_missed
    (h : (x.before.clusters x.cluster).hasNamespace (some x.ns) = true →
      ∃ e, x.point = 2 ∧ x.fault = .refuse e) :
    ∃ e, (kube x.cluster (.createSecret
        (rotatedSecret x.secretName x.saName x.ns))).run x.server (2, x.erased)
      = (.error e, (3, x.erased)) := by
  rw [run_kube]
  by_cases hrefuse : ∃ e, x.point = 2 ∧ x.fault = .refuse e
  · obtain ⟨e, hpoint, hfault⟩ := hrefuse
    have hrefused := server_refuse (.kube x.cluster (.createSecret
      (rotatedSecret x.secretName x.saName x.ns))) x.erased hfault
    rw [hpoint] at hrefused
    exact ⟨e, hrefused⟩
  · have hcreate := handle_create_erased (x := x)
    rw [if_neg (fun hns => hrefuse (h hns))] at hcreate
    by_cases hpoint : x.point = 2
    · cases hfault : x.fault with
      | refuse e => exact absurd ⟨e, hpoint, hfault⟩ hrefuse
      | lose e =>
          have hlost := server_lose (.kube x.cluster (.createSecret
            (rotatedSecret x.secretName x.saName x.ns))) x.erased hfault
          rw [hpoint, hcreate] at hlost
          exact ⟨e, hlost⟩
    · rw [server_other (Ne.symm hpoint), hcreate]
      exact ⟨_, rfl⟩

/-- How the two writes end. -/
inductive Course (x : Rotation) (o : Except Exn Unit × (Nat × World)) : Prop
  | kept (e : Exn) (hr : o.1 = .error e) (hw : o.2.2 = x.before)
      (hd : ¬ x.Deletes)
  | replaced (hw : o.2.2 = x.recreated) (hd : x.Deletes) (hc : x.Creates)
  | lost (e : Exn) (hr : o.1 = .error e) (hw : o.2.2 = x.erased)
      (hd : x.Deletes) (hc : ¬ x.Creates)

theorem replace_course {s : Secret} (hs : x.secret x.before = some s)
    (hread : x.point ≠ 0) :
    Course x (x.replace.run x.server (1, x.before)) := by
  rw [Rotation.replace, Prog.run_bind]
  by_cases hd : x.Deletes
  · rw [delete_effect hs hd]
    by_cases hdelete : x.point = 1 → x.fault = .lose (.api ⟨404⟩)
    · rw [if_pos hdelete, Prog.andThen_ok]
      by_cases hc : x.Creates
      · obtain ⟨r, hrun⟩ := create_erased hc.create hc.hasNamespace
        rw [hrun]
        exact .replaced rfl hd hc
      · have hmissed : (x.before.clusters x.cluster).hasNamespace (some x.ns)
            = true → ∃ e, x.point = 2 ∧ x.fault = .refuse e := by
          intro hns
          by_contra hno
          exact hc ⟨hns, hdelete, fun e he => hno ⟨e, he⟩⟩
        obtain ⟨e, hrun⟩ := create_missed hmissed
        rw [hrun]
        exact .lost e rfl rfl hd hc
    · rw [if_neg hdelete, Prog.andThen_error]
      exact .lost _ rfl rfl hd (fun hc => hdelete hc.delete)
  · obtain ⟨e, hpoint, hfault⟩ : ∃ e, x.point = 1 ∧ x.fault = .refuse e := by
      by_contra hno
      exact hd ⟨hread, fun e he => hno ⟨e, he⟩⟩
    obtain ⟨r, hrun⟩ := delete_refused hpoint hfault
    rw [hrun]
    cases r with
    | error e' => exact .kept e' rfl rfl hd
    | ok _ =>
        -- a refusal with 404 is tolerated, and the creation meets the Secret
        rw [Prog.andThen_ok]
        obtain ⟨e', hcreate⟩ := create_taken hs hpoint
        rw [hcreate]
        exact .kept e' rfl rfl hd

/-! ## When a rotation is safe -/

/-- A rotation of a Secret that is no managed token of the ServiceAccount, or
    whose reading fails, raises and changes nothing. -/
theorem run_refused (h : x.Managed → x.point = 0) :
    ∃ e, x.prog.run x.server (0, x.before) = (.error e, (1, x.before)) := by
  rw [Rotation.prog, rotateSaToken, Prog.run_bind]
  rcases run_read x with ⟨e, hrun, -⟩ | ⟨s, hrun, hpoint, hs, hmanaged⟩
  · rw [hrun]
    exact ⟨e, rfl⟩
  · have hother : s.annotations.get? serviceAccountName ≠ some x.saName :=
      fun hname => hpoint (h ⟨s, hs, hmanaged, hname⟩)
    rw [hrun, Prog.andThen_ok]
    show ∃ e, (if s.annotations.get? serviceAccountName ≠ some x.saName
      then throw _ else _ : Svc Unit).run x.server (1, x.before) = _
    rw [if_pos hother]
    exact ⟨_, rfl⟩

/-- Otherwise the two writes follow. -/
theorem prog_managed {s : Secret} (hs : x.secret x.before = some s)
    (hmanaged : ManagedToken s)
    (hname : s.annotations.get? serviceAccountName = some x.saName)
    (hpoint : x.point ≠ 0) :
    x.prog.run x.server (0, x.before) = x.replace.run x.server (1, x.before) ∧
      ∀ R, x.prog.Meets x.server R (0, x.before) →
        x.replace.Meets x.server R (1, x.before) := by
  have hread : (readManagedTokenSecret x.cluster x.secretName x.ns).run
      x.server (0, x.before) = (.ok s, (1, x.before)) := by
    rcases run_read x with ⟨e, -, hzero | hforeign⟩ | ⟨s', hrun, -, hs', -⟩
    · exact absurd hzero hpoint
    · exact absurd hmanaged (hforeign s hs)
    · rw [hs] at hs'
      rw [hrun, Option.some.inj hs']
  have hrest : (if s.annotations.get? serviceAccountName ≠ some x.saName
      then throw (.httpException 400 ("Secret '" ++ x.secretName
        ++ "' belongs to ServiceAccount '"
        ++ orNone (s.annotations.get? serviceAccountName) ++ "', not '"
        ++ x.saName ++ "'"))
      else x.replace : Svc Unit) = x.replace := if_neg (not_not.mpr hname)
  constructor
  · rw [Rotation.prog, rotateSaToken, Prog.run_bind, hread, Prog.andThen_ok]
    exact congrArg (fun p => p.run x.server (1, x.before)) hrest
  · intro R hmeets
    rw [Rotation.prog, rotateSaToken, Prog.meets_bind, hread] at hmeets
    have hmeets' : (if s.annotations.get? serviceAccountName ≠ some x.saName
      then throw _ else x.replace : Svc Unit).Meets x.server R (1, x.before) :=
        hmeets.2
    rw [if_neg (not_not.mpr hname)] at hmeets'
    exact hmeets'

theorem hasToken_recreated (x : Rotation) : x.HasToken x.recreated := by
  refine ⟨rotatedSecret x.secretName x.saName x.ns, ?_, rfl, rfl⟩
  rw [Rotation.secret, Rotation.recreated, World.setCluster_self]
  exact Table.get_put_self ..

theorem not_hasToken_erased (x : Rotation) : ¬ x.HasToken x.erased := by
  rintro ⟨s, hs, -, -⟩
  rw [Rotation.secret, Rotation.erased, World.setCluster_self] at hs
  have hnone := Table.get_erase_self (x.before.clusters x.cluster).secrets
    (x.ns, x.secretName)
  exact nomatch hnone.symm.trans hs

/-- A rotation that deletes its Secret does not delete nothing. -/
theorem not_deletesNothing {s : Secret} (hs : x.secret x.before = some s)
    (hd : x.Deletes) (hmeets : ∀ R, x.prog.Meets x.server R (0, x.before) →
      x.replace.Meets x.server R (1, x.before)) : ¬ x.DeletesNothing := by
  intro hnothing
  have hreplace := hmeets _ hnothing
  rw [Rotation.replace, Prog.meets_bind, meets_unlessStatus, meets_kube]
    at hreplace
  have hsame := hreplace.1 ⟨_, _, _, rfl⟩
  rw [server_delete hs hd] at hsame
  have herased : x.secret x.erased = some s := by
    rw [show x.erased = x.before from hsame]
    exact hs
  rw [Rotation.secret, Rotation.erased, World.setCluster_self] at herased
  have hnone := Table.get_erase_self (x.before.clusters x.cluster).secrets
    (x.ns, x.secretName)
  exact nomatch hnone.symm.trans herased

/-- A rotation is safe exactly when, on a managed token of the ServiceAccount,
    the creation takes effect whenever the deletion does. -/
theorem rotation_safe_iff (x : Rotation) :
    x.Safe ↔ (x.Managed → x.Deletes → x.Creates) := by
  by_cases hreplaces : x.Managed ∧ x.point ≠ 0
  · obtain ⟨⟨s, hs, hmanaged, hname⟩, hpoint⟩ := hreplaces
    have hm : x.Managed := ⟨s, hs, hmanaged, hname⟩
    obtain ⟨hrun, hmeets⟩ := prog_managed hs hmanaged hname hpoint
    have hcourse := replace_course hs hpoint
    rw [← hrun] at hcourse
    cases hcourse with
    | kept e hr hw hd =>
        refine iff_of_true ⟨fun _ => ?_, fun _ _ _ => hw⟩
          (fun _ hd' => absurd hd' hd)
        rw [show x.left = x.before from hw]
        exact ⟨s, hs, hmanaged.1, hname⟩
    | replaced hw hd hc =>
        refine iff_of_true ⟨fun _ => ?_, fun _ _ hnothing => ?_⟩
          (fun _ _ => hc)
        · rw [show x.left = x.recreated from hw]
          exact hasToken_recreated x
        · exact absurd hnothing (not_deletesNothing hs hd hmeets)
    | lost e hr hw hd hc =>
        refine iff_of_false ?_ (fun h => hc (h hm hd))
        intro hsafe
        have htoken := hsafe.keeps hm
        rw [show x.left = x.erased from hw] at htoken
        exact not_hasToken_erased x htoken
  · have hzero : x.Managed → x.point = 0 := by
      intro hm
      by_contra hpoint
      exact hreplaces ⟨hm, hpoint⟩
    obtain ⟨e, hrun⟩ := run_refused hzero
    have hleft : x.left = x.before := congrArg (fun o => o.2.2) hrun
    refine iff_of_true ⟨?_, fun _ _ _ => hleft⟩
      (fun hm hd => absurd (hzero hm) hd.read)
    rintro ⟨s, hs, hmanaged, hname⟩
    rw [hleft]
    exact ⟨s, hs, hmanaged.1, hname⟩

/-- A managed token of `ci`, and a creation that the API server refuses. -/
def refusedCreation : Rotation where
  cluster := "local"
  secretName := "clustervision-ci-token"
  saName := "ci"
  ns := "default"
  before := World.fresh.setCluster "local" { Cluster.fresh with
    secrets := Table.empty.put
      (rotatedSecret "clustervision-ci-token" "ci" "default") }
  point := 2
  fault := .refuse (.api ⟨500⟩)

/-- The ServiceAccount has lost its token. -/
theorem rotation_loses_token :
    refusedCreation.Managed ∧ ¬ refusedCreation.HasToken refusedCreation.left ∧
      ¬ refusedCreation.Safe := by
  have hm : refusedCreation.Managed := by
    refine ⟨rotatedSecret "clustervision-ci-token" "ci" "default", ?_, ?_, ?_⟩
    · decide +kernel
    · decide
    · decide
  have hlost : ¬ refusedCreation.HasToken refusedCreation.left := by
    rintro ⟨s, hs, -⟩
    have hnone : refusedCreation.secret refusedCreation.left = none := by
      decide +kernel
    rw [hnone] at hs
    exact nomatch hs
  exact ⟨hm, hlost, fun hsafe => hlost (hsafe.keeps hm)⟩

end CvRotation
