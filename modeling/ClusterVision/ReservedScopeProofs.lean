import ClusterVision.AuthService
import ClusterVision.ClusterRegistryProofs
import ClusterVision.RunProofs

/-! # Clusters and the reserved scopes

    Cluster names share the scopes of the roles with `local` and `_instance`.
    A registration refuses the first name only, and the validator admits the
    second one, so a run of registrations keeps the two kinds of scopes apart
    exactly as long as none of them registers `_instance`. -/

namespace CvReserved

open CvProg CvRun CvTable CvIso CvKube CvBackend CvHttp CvCluster CvAuth

variable {checks : PayloadChecks}

/-! ## Runs -/

/-- A registration, by an administrator or with a bootstrap token. -/
inductive Registration (checks : PayloadChecks) where
  | addCluster (reachable : Except Exn Unit) (payload : ClusterAdd checks)
  | registerCluster (credentials : Option (Except Exn (Option String)))
      (reachable : Except Exn Unit) (payload : ClusterAdd checks)

namespace Registration

/-- Its program. -/
def prog : Registration checks → Svc ClusterInfo
  | .addCluster reachable payload => Router.addCluster reachable payload
  | .registerCluster credentials reachable payload =>
      Router.registerCluster credentials reachable payload

/-- The configuration that it sends. -/
def cfg : Registration checks → RegisteredCluster
  | .addCluster _ payload => payload.cfg
  | .registerCluster _ _ payload => payload.cfg

/-- Does it go through? -/
def Admitted (w : World) : Registration checks → Prop
  | .addCluster reachable payload => Accepted w reachable payload.cfg
  | .registerCluster credentials reachable payload =>
      credentials = some (.ok (some payload.cfg.name)) ∧
        Accepted w reachable payload.cfg

end Registration

/-- The world after a registration. -/
def register (k : Registration checks) (w : World) : World :=
  (k.prog.run handle w).2

/-- The names of the clusters are not reserved; the list of scopes has no
    duplicates; and a role on a cluster is never a role on the instance. -/
structure Apart (db : Database) : Prop where
  disjoint : ∀ c ∈ db.registeredClusters.rows,
    c.name ≠ instanceScope ∧ c.name ≠ localCluster
  nodup : (allScopes db).Nodup
  instanceRoles : ∀ c ∈ db.registeredClusters.rows,
    ∀ (username : String) (role : Role) (other : String),
      rolesFor (setScopeRole username c.name role db).2 other instanceScope
        = rolesFor db other instanceScope

/-- The registration does not register `_instance`. -/
def NotInstance (w : World) (k : Registration checks) : Prop :=
  k.cfg.name = instanceScope → ¬ k.Admitted w

/-! ## Scopes -/

/-- A role on one scope changes the roles on no other. -/
theorem rolesFor_setScopeRole {scope scope' : String} (hne : scope' ≠ scope)
    (username : String) (role : Role) (other : String) (db : Database) :
    rolesFor (setScopeRole username scope role db).2 other scope'
      = rolesFor db other scope' := by
  rw [setScopeRole]
  cases db.localUsers.get username with
  | none => rfl
  | some entry =>
      by_cases hsource : entry.source = .local
      · simp only [ne_eq, hsource, not_true_eq_false, if_false]
        have hkey : (other, scope')
            ≠ (ScopeRoleAssignment.mk username scope role).key :=
          fun h => hne (congrArg Prod.snd h)
        show ((db.scopeRoleAssignments.put _).get _).map _ = _
        rw [Table.get_put_ne _ hkey]
        rfl
      · simp only [ne_eq, hsource, not_false_eq_true, if_true]

/-- All three parts come down to the names. -/
theorem apart_iff {db : Database}
    (hlocal : db.registeredClusters.get localCluster = none) :
    Apart db ↔ db.registeredClusters.get instanceScope = none := by
  have hnames : ∀ name, db.registeredClusters.get name = none ↔
      name ∉ db.registeredClusters.rows.map RegisteredCluster.name := by
    intro name
    rw [Table.mem_keys_iff, not_not]
  constructor
  · intro h
    rw [Table.get_eq_none_iff]
    exact fun c hc => (h.disjoint c hc).1
  · intro hinstance
    refine ⟨?_, ?_, ?_⟩
    · intro c hc
      exact ⟨Table.get_eq_none_iff.mp hinstance c hc,
        Table.get_eq_none_iff.mp hlocal c hc⟩
    · rw [allScopes, List.nodup_cons, List.nodup_cons, List.mem_cons, not_or]
      exact ⟨⟨by decide, (hnames _).mp hinstance⟩, (hnames _).mp hlocal,
        db.registeredClusters.nodup⟩
    · intro c hc username role other
      exact rolesFor_setScopeRole
        (Table.get_eq_none_iff.mp hinstance c hc).symm username role other db

/-! ## One registration -/

/-- A registration writes its row, or is refused. -/
theorem run_answerErrors {p : Svc ClusterInfo} {w : World} {e : Exn}
    (h : p.run handle w = (.error e, w)) :
    ∃ e', (Router.answerErrors p).run handle w = (.error e', w) := by
  rw [Router.answerErrors, Prog.run_catching, h, Prog.orElse_error]
  split
  · exact ⟨_, rfl⟩
  · exact ⟨_, rfl⟩
  · exact ⟨_, rfl⟩

theorem run_addCluster_answered (reachable : Except Exn Unit)
    (c : RegisteredCluster) (w : World) :
    (∃ e, (Router.answerErrors (addCluster reachable c)).run handle w
        = (.error e, w) ∧ ¬ Accepted w reachable c) ∨
      ∃ t, (Router.answerErrors (addCluster reachable c)).run handle w
          = (.ok ⟨c.name, c.apiUrl, false⟩, w.setDb (withConfigs w.db t)) ∧
        Accepted w reachable c ∧
        ∀ name, t.get name
          = if name = c.name then some c
            else w.db.registeredClusters.get name := by
  rcases run_addCluster reachable c w with
    ⟨e, hrun, hrefused⟩ | ⟨t, hrun, haccepted, ht⟩
  · obtain ⟨e', he'⟩ := run_answerErrors hrun
    exact Or.inl ⟨e', he', hrefused⟩
  · refine Or.inr ⟨t, ?_, haccepted, ht⟩
    rw [Router.answerErrors, Prog.run_catching, hrun]
    rfl

/-- What a registration leaves. -/
theorem register_cases (k : Registration checks) (w : World) :
    (register k w = w ∧ ¬ k.Admitted w) ∨
      ∃ t, register k w = w.setDb (withConfigs w.db t) ∧ k.Admitted w ∧
        k.cfg.name ≠ localCluster ∧
        ∀ name, t.get name
          = if name = k.cfg.name then some k.cfg
            else w.db.registeredClusters.get name := by
  cases k with
  | addCluster reachable payload =>
      rcases run_addCluster_answered reachable payload.cfg w with
        ⟨e, hrun, hrefused⟩ | ⟨t, hrun, haccepted, ht⟩
      · exact Or.inl ⟨congrArg Prod.snd hrun, hrefused⟩
      · exact Or.inr ⟨t, congrArg Prod.snd hrun, haccepted,
          haccepted.notLocal, ht⟩
  | registerCluster credentials reachable payload =>
      by_cases htoken : credentials = some (.ok (some payload.cfg.name))
      · have hprog : (Registration.registerCluster credentials reachable
            payload).prog
            = Router.answerErrors (addCluster reachable payload.cfg) := by
          rw [htoken]
          exact if_neg (not_not.mpr rfl)
        rcases run_addCluster_answered reachable payload.cfg w with
          ⟨e, hrun, hrefused⟩ | ⟨t, hrun, haccepted, ht⟩
        · rw [register, hprog, hrun]
          exact Or.inl ⟨rfl, fun h => hrefused h.2⟩
        · rw [register, hprog, hrun]
          exact Or.inr ⟨t, rfl, ⟨htoken, haccepted⟩, haccepted.notLocal, ht⟩
      · refine Or.inl ⟨?_, fun h => htoken h.1⟩
        match credentials, htoken with
        | none, _ => rfl
        | some (.error e), _ => rfl
        | some (.ok sub), htoken =>
            have hsub : sub ≠ some payload.cfg.name := by
              rintro rfl
              exact htoken rfl
            show ((if sub ≠ some payload.cfg.name then _ else _ :
              Svc ClusterInfo).run handle w).2 = w
            rw [if_pos hsub]
            rfl

/-- No cluster is registered as `local`. -/
def NoLocal (w : World) : Prop :=
  w.db.registeredClusters.get localCluster = none

theorem noLocal_register (w : World) (k : Registration checks)
    (hw : NoLocal w) : NoLocal (register k w) := by
  rcases register_cases k w with ⟨hsame, -⟩ | ⟨t, hrun, -, hlocal, ht⟩
  · rw [hsame]
    exact hw
  · rw [hrun]
    show t.get localCluster = none
    rw [ht, if_neg hlocal.symm]
    exact hw

/-- A registration keeps the scopes apart exactly when it does not register
    `_instance`. -/
theorem apart_register (w : World) (k : Registration checks)
    (hw : NoLocal w ∧ Apart w.db) :
    Apart (register k w).db ↔ NotInstance w k := by
  have hinstance := (apart_iff hw.1).mp hw.2
  rw [apart_iff (noLocal_register w k hw.1)]
  rcases register_cases k w with
    ⟨hsame, hrefused⟩ | ⟨t, hrun, hadmitted, -, ht⟩
  · rw [hsame]
    exact ⟨fun _ _ => hrefused, fun _ => hinstance⟩
  · rw [hrun]
    show t.get instanceScope = none ↔ _
    rw [ht]
    by_cases hname : instanceScope = k.cfg.name
    · rw [if_pos hname]
      exact ⟨fun h => (nomatch h), fun h => absurd hadmitted (h hname.symm)⟩
    · rw [if_neg hname]
      exact ⟨fun _ h => absurd h.symm hname, fun _ => hinstance⟩

/-! ## Every run -/

/-- In every run of registrations from an empty registry: the clusters and the
    reserved scopes stay apart exactly when no registration registers
    `_instance`. -/
theorem scopes_apart_iff (w : World)
    (hempty : w.db.registeredClusters = Table.empty)
    (ks : List (Registration checks)) :
    Along register (fun v k => Apart (register k v).db) ks w
      ↔ Along register NotInstance ks w := by
  have hlocal : NoLocal w := by
    rw [NoLocal, hempty]
    rfl
  have hstart : NoLocal w ∧ Apart w.db := by
    refine ⟨hlocal, (apart_iff hlocal).mpr ?_⟩
    rw [hempty]
    rfl
  have hstep : ∀ (v : World) (k : Registration checks),
      NoLocal v ∧ Apart v.db → Apart (register k v).db →
      NoLocal (register k v) ∧ Apart (register k v).db :=
    fun v k hv hk => ⟨noLocal_register v k hv.1, hk⟩
  exact along_congr hstep apart_register hstart ks

/-- Validators that admit the payloads below. -/
def someChecks : PayloadChecks where
  apiUrl url := decide (url = "https://10.0.0.1:6443")
  caData data := decide (data = "Y2E=")

/-- A payload for a cluster of some name. -/
def payloadNamed (name : String) (h : clusterNameMatches name = true) :
    ClusterAdd someChecks where
  cfg := ⟨name, "https://10.0.0.1:6443", "Y2E=", "token"⟩
  nameOk := h
  apiUrlOk := rfl
  caDataOk := rfl

/-- A new installation has an empty registry. -/
theorem scopes_apart_fresh :
    Along register (fun v k => Apart (register k v).db)
      [.addCluster (.ok ()) (payloadNamed "prod" rfl),
        .addCluster (.ok ()) (payloadNamed "edge" rfl)] World.fresh := by
  refine (scopes_apart_iff World.fresh rfl _).mpr ⟨?_, ?_, trivial⟩
  · intro h
    exact absurd h (by decide)
  · intro h
    exact absurd h (by decide)

/-- The validator admits `_instance`, and so does the registration. -/
theorem instance_registered :
    ¬ Along register (fun v k => Apart (register k v).db)
        [.addCluster (.ok ()) (payloadNamed "_instance" rfl)]
        World.fresh := by
  intro h
  have hapart : Apart (register (.addCluster (.ok ())
      (payloadNamed "_instance" rfl)) World.fresh).db := h.1
  exact (hapart.disjoint _ (List.mem_singleton_self _)).1 rfl

end CvReserved
