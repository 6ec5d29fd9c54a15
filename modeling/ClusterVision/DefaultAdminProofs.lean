import ClusterVision.ScopeRoleProofs
import ClusterVision.ProtocolProofs

/-! # The first administrator

    Every worker calls `ensure_default_admin` when it starts, in a session of
    its own and at the same time as the others: it looks for an account, and
    commits `admin` with its two roles if it has seen none.  Nothing orders the
    workers.  The primary key of the accounts does: of the workers that have
    all seen an empty table one alone commits, the transactions of the others
    are rejected as a whole, and the `except` clause keeps them starting. -/

namespace CvStart

open CvProg CvPool CvTable CvBackend CvHttp CvAuth

/-! ## The service -/

/-- What `ensure_default_admin` asks of its session. -/
inductive StartOp where
  | anyUser
  | commit (entry : LocalUser) (roles : List ScopeRoleAssignment)
  | close

/-- What is answered. -/
@[reducible] def StartOp.Res : StartOp → Type
  | .anyUser => Bool
  | .commit _ _ | .close => Unit

abbrev startCalls : Iface := ⟨StartOp, StartOp.Res⟩

/-- A statement or another call. -/
def ask (op : StartOp) : Prog startCalls Exn op.Res :=
  Prog.perform (I := startCalls) op

/-- The account that is created. -/
def defaultAdmin (hash : String) : LocalUser :=
  ⟨"admin", some hash, .local, none, none, none⟩

/-- Its roles. -/
def defaultRoles : List ScopeRoleAssignment :=
  [⟨"admin", instanceScope, .admin⟩, ⟨"admin", localCluster, .admin⟩]

/-- What is done once there is no account. -/
def createAdmin (lib : AuthLib) (password : String) :
    Prog startCalls Exn Unit := do
  let hash ← Prog.ofExcept (lib.hashPassword password)
  ask (.commit (defaultAdmin hash) defaultRoles)

/-- The body of the `try` statement. -/
def tryCreate (lib : AuthLib) (password : String) :
    Prog startCalls Exn Unit := do
  let found : Bool ← ask .anyUser
  if found = true then pure () else createAdmin lib password

/-- `ensure_default_admin`, with the value of `CV_ADMIN_PASSWORD`. -/
def ensureDefaultAdmin (lib : AuthLib) :
    Option String → Prog startCalls Exn Unit
  | none => pure ()
  | some password =>
      if password = "" then pure ()
      else
        Prog.ensuring (tryCatch (tryCreate lib password) (fun _ => pure ()))
          (ask .close)

/-! ## The database -/

/-- New assignments; one that is there already is an `IntegrityError`. -/
def insertRoles :
    List ScopeRoleAssignment → Assignments → Except Exn Assignments
  | [], t => .ok t
  | a :: roles, t =>
      match t.get a.key with
      | some _ => .error .integrityError
      | none => insertRoles roles (t.put a)

/-- A transaction that adds an account and its roles. -/
def insertAccount (entry : LocalUser) (roles : List ScopeRoleAssignment)
    (db : Database) : Except Exn Database :=
  match db.localUsers.get entry.username with
  | some _ => .error .integrityError
  | none =>
      match insertRoles roles db.scopeRoleAssignments with
      | .error e => .error e
      | .ok t => .ok (withAssignments (withAccount db entry) t)

/-- The answers of the database. -/
def handle : Handler startCalls Exn Database
  | .anyUser, db => (.ok (decide (db.localUsers.rows ≠ [])), db)
  | .commit entry roles, db =>
      match insertAccount entry roles db with
      | .ok db' => (.ok (), db')
      | .error e => (.error e, db)
  | .close, db => (.ok (), db)

/-- The roles that `assignScopes` gives to `admin`. -/
theorem insertRoles_default (t : Assignments) :
    insertRoles defaultRoles t
      = assignScopes "admin" .admin [instanceScope, localCluster] t := rfl

theorem handle_commit (entry : LocalUser) (roles : List ScopeRoleAssignment)
    (db : Database) :
    (handle (.commit entry roles) db).2
      = (match insertAccount entry roles db with
        | .ok db' => db'
        | .error _ => db) := by
  rw [handle]
  cases insertAccount entry roles db with
  | ok db' => rfl
  | error e => rfl

/-- One worker alone is the function of `AuthService`. -/
theorem run_ensureDefaultAdmin (lib : AuthLib) (password : Option String)
    (db : Database) :
    (ensureDefaultAdmin lib password).run handle db
      = (.ok (), CvAuth.ensureDefaultAdmin lib password db) := by
  cases password with
  | none => rfl
  | some password =>
      rw [ensureDefaultAdmin, CvAuth.ensureDefaultAdmin]
      by_cases hempty : password = ""
      · rw [if_pos hempty, if_pos hempty]
        rfl
      · rw [if_neg hempty, if_neg hempty, Prog.run_ensuring, Prog.run_catching,
          tryCreate, Prog.run_bind, ask, Prog.run_perform, handle,
          Prog.andThen_ok]
        by_cases hrows : db.localUsers.rows ≠ []
        · rw [if_pos (decide_eq_true hrows), if_pos hrows]
          rfl
        · rw [if_neg (fun h => hrows (of_decide_eq_true h)), if_neg hrows,
            createAdmin, Prog.run_bind, Prog.run_ofExcept]
          cases lib.hashPassword password with
          | error e => rfl
          | ok hash =>
              have hnone : db.localUsers.get "admin" = none := by
                rw [Table.get_eq_none_iff, not_not.mp hrows]
                intro r hr
                cases hr
              rw [Prog.andThen_ok, ask, Prog.run_perform, handle,
                insertAccount, defaultAdmin, hnone, insertRoles_default]
              cases assignScopes "admin" .admin [instanceScope, localCluster]
                  db.scopeRoleAssignments with
              | error e => rfl
              | ok t => rfl

/-! ## What a commit of the first administrator leaves -/

/-- The database `db` is `d`, which had no accounts, with the default
    administrator. -/
structure FirstAdmin (hash : String) (d db : Database) : Prop where
  empty : d.localUsers.rows = []
  accounts : db.localUsers.rows = [defaultAdmin hash]
  roles : ∀ a, a ∈ db.scopeRoleAssignments.rows ↔
    a ∈ defaultRoles ∨ a ∈ d.scopeRoleAssignments.rows
  rest : db = { d with
    localUsers := db.localUsers
    scopeRoleAssignments := db.scopeRoleAssignments }

theorem mem_insertRoles {roles : List ScopeRoleAssignment} :
    ∀ {t t' : Assignments}, insertRoles roles t = .ok t' →
      ∀ a, a ∈ t'.rows ↔ a ∈ roles ∨ a ∈ t.rows := by
  induction roles with
  | nil =>
      intro t t' h a
      obtain rfl := Except.ok.inj h
      exact (or_iff_right List.not_mem_nil).symm
  | cons x roles ih =>
      intro t t' h a
      rw [insertRoles] at h
      cases hget : t.get x.key with
      | some y =>
          rw [hget] at h
          cases h
      | none =>
          rw [hget] at h
          rw [ih h, Table.mem_put, List.mem_cons, or_left_comm, or_assoc]
          have hkey : a ∈ t.rows → a.key ≠ x.key :=
            Table.get_eq_none_iff.mp hget a
          rw [and_iff_left_of_imp hkey]

/-- The commit succeeds on an empty table of accounts, or changes nothing. -/
theorem firstAdmin_of_insert {hash : String} {d db : Database}
    (hempty : d.localUsers.rows = [])
    (h : insertAccount (defaultAdmin hash) defaultRoles d = .ok db) :
    FirstAdmin hash d db := by
  rw [insertAccount] at h
  cases hget : d.localUsers.get (defaultAdmin hash).username with
  | some u =>
      rw [hget] at h
      cases h
  | none =>
      rw [hget] at h
      cases hroles : insertRoles defaultRoles d.scopeRoleAssignments with
      | error e =>
          rw [hroles] at h
          cases h
      | ok t =>
          rw [hroles] at h
          obtain rfl := Except.ok.inj h
          refine ⟨hempty, ?_, mem_insertRoles hroles, rfl⟩
          show putRow LocalUser.username (defaultAdmin hash) d.localUsers.rows
            = _
          rw [hempty]
          rfl

/-- A second administrator is rejected. -/
theorem insertAccount_of_firstAdmin {hash hash' : String} {d db : Database}
    (h : FirstAdmin hash d db) (roles : List ScopeRoleAssignment) :
    insertAccount (defaultAdmin hash') roles db = .error .integrityError := by
  have hget : db.localUsers.get (defaultAdmin hash').username
      = some (defaultAdmin hash) := by
    rw [Table.get_eq_some_iff, h.accounts]
    exact ⟨List.mem_singleton.mpr rfl, rfl⟩
  rw [insertAccount, hget]

/-! ## Workers -/

/-- Where a worker is. -/
inductive Phase where
  | fresh
  | looked
  | over
  | broken (e : Exn)

/-- The phase after an answered call. -/
def nextPhase : Phase → (op : StartOp) → Except Exn op.Res → Phase
  | _, .close, .error e => .broken e
  | .fresh, .anyUser, .ok false => .looked
  | _, _, _ => .over

/-- The calls of a worker: it commits when it has seen no account. -/
inductive Allowed (lib : AuthLib) (password : Option String) :
    Phase → StartOp → Prop where
  | look : Allowed lib password .fresh .anyUser
  | commit {text hash : String} (hpassword : password = some text)
      (hhash : lib.hashPassword text = .ok hash) :
      Allowed lib password .looked (.commit (defaultAdmin hash) defaultRoles)
  | close {l : Phase} : Allowed lib password l .close

/-- The protocol of a worker. -/
def workerProtocol (lib : AuthLib) (password : Option String) :
    Protocol startCalls Exn Phase :=
  ⟨Allowed lib password, nextPhase⟩

/-- A worker returns, unless its session could not be closed. -/
def Starts (l : Phase) (r : Except Exn Unit) : Prop :=
  ∀ e, r = .error e → l = .broken e

/-- What is left to do when the `try` statement is over. -/
theorem closing (lib : AuthLib) (password : Option String) (l : Phase)
    (r : Except Exn Unit) (hr : r = .ok ()) :
    AfterAll (workerProtocol lib password) (ask .close) Starts l r := by
  refine follows_perform .close ?_
  rw [hr]
  intro u
  cases u with
  | ok _ =>
      intro e he
      cases he
  | error e =>
      intro e' he
      obtain rfl := Except.error.inj he
      cases l <;> rfl

/-- Every worker follows the protocol. -/
theorem ensureDefaultAdmin_follows (lib : AuthLib)
    (password : Option String) :
    Follows (workerProtocol lib password) (ensureDefaultAdmin lib password)
      .fresh Starts := by
  have hreturns : ∀ l, Starts l (.ok ()) := by
    intro l e he
    cases he
  cases password with
  | none => exact hreturns _
  | some text =>
      refine follows_ite (fun _ => hreturns _) (fun _ => ?_)
      refine follows_ensuring (follows_catching (follows_bind
        (follows_perform .look ?_)))
      -- whatever goes wrong in the `try` statement is caught
      have hcaught : ∀ l e, AfterError (workerProtocol lib (some text))
          (fun _ => pure ()) (AfterAll (workerProtocol lib (some text))
            (ask .close) Starts) l (.error e) :=
        fun l e => closing lib _ l _ rfl
      have hdone : ∀ l u, AfterError (workerProtocol lib (some text))
          (fun _ => pure ()) (AfterAll (workerProtocol lib (some text))
            (ask .close) Starts) l (.ok u) :=
        fun l u => closing lib _ l _ rfl
      intro r
      cases r with
      | error e => exact hcaught _ e
      | ok found =>
          cases found with
          | true => exact hdone _ ()
          | false =>
              show Follows _ (Prog.ofExcept (lib.hashPassword text) >>= _) _ _
              cases hhash : lib.hashPassword text with
              | error e => exact hcaught _ e
              | ok hash =>
                  refine follows_perform (.commit rfl hhash) ?_
                  intro r
                  cases r with
                  | error e => exact hcaught _ e
                  | ok u => exact hdone _ u

/-! ## All workers -/

section Workers

variable {ι : Type} [DecidableEq ι] {lib : AuthLib}
  {passwords : ι → Option String} {d : Database}

/-- Any call can also fail, before it takes effect or after. -/
def answers : Answers startCalls Exn Database ι := fun _ op db r db' =>
  (r = (handle op db).1 ∧ db' = (handle op db).2) ∨
    ∃ e, r = .error e ∧ (db' = db ∨ db' = (handle op db).2)

/-- All workers are about to start. -/
def starting (lib : AuthLib) (passwords : ι → Option String)
    (d : Database) : Pool startCalls Exn Unit Database ι :=
  ⟨fun t => ensureDefaultAdmin lib (passwords t), d⟩

/-- The database has the default administrator of one of the workers. -/
def Created (lib : AuthLib) (passwords : ι → Option String) (d db : Database) :
    Prop :=
  ∃ t text hash, passwords t = some text ∧ lib.hashPassword text = .ok hash ∧
    FirstAdmin hash d db

/-- What holds along every run: the database is as it was or has the first
    administrator, a worker that has seen no account started without any, and
    one that is broken was so by its session. -/
structure Started (lib : AuthLib) (passwords : ι → Option String)
    (d : Database) (tr : List (Entry startCalls Exn Database ι))
    (ph : ι → Option String × Phase) (db : Database) : Prop where
  stored : db = d ∨ Created lib passwords d db
  own : ∀ t, (ph t).1 = passwords t
  looked : ∀ t, (ph t).2 = .looked → d.localUsers.rows = []
  broken : ∀ t e, (ph t).2 = .broken e →
    ∃ entry ∈ tr, entry.thread = t ∧ entry.event = ⟨.close, .error e⟩

omit [DecidableEq ι] in
/-- What a commit of a worker that has seen no account leaves. -/
theorem stored_commit {t : ι} {text hash : String} {db : Database}
    (hpassword : passwords t = some text)
    (hhash : lib.hashPassword text = .ok hash)
    (hempty : d.localUsers.rows = [])
    (h : db = d ∨ Created lib passwords d db) :
    (handle (.commit (defaultAdmin hash) defaultRoles) db).2 = d ∨
      Created lib passwords d
        (handle (.commit (defaultAdmin hash) defaultRoles) db).2 := by
  rw [handle_commit]
  rcases h with rfl | hcreated
  · cases hinsert : insertAccount (defaultAdmin hash) defaultRoles db with
    | error e => exact Or.inl rfl
    | ok db' =>
        exact Or.inr ⟨t, text, hash, hpassword, hhash,
          firstAdmin_of_insert hempty hinsert⟩
  · obtain ⟨_, _, _, _, _, hfirst⟩ := hcreated
    rw [insertAccount_of_firstAdmin hfirst]
    exact Or.inr ⟨_, _, _, ‹_›, ‹_›, hfirst⟩

omit [DecidableEq ι] in
/-- A worker that sees no account started without any. -/
theorem empty_of_look {db : Database}
    (h : db = d ∨ Created lib passwords d db)
    (hseen : (handle .anyUser db).1 = .ok false) :
    d.localUsers.rows = [] := by
  rcases h with rfl | ⟨_, _, _, _, _, hfirst⟩
  · exact not_not.mp (of_decide_eq_false (Except.ok.inj hseen))
  · exact hfirst.empty

/-- Only a look at an empty table leads to a commit. -/
theorem nextPhase_looked {l : Phase} {op : StartOp} {r : Except Exn op.Res}
    (h : nextPhase l op r = .looked) :
    ∃ hop : op = .anyUser, hop ▸ r = .ok false := by
  cases op with
  | anyUser =>
      refine ⟨rfl, ?_⟩
      cases r with
      | error e => cases l <;> cases h
      | ok found =>
          cases found with
          | true => cases l <;> cases h
          | false => rfl
  | commit entry roles => cases l <;> cases h
  | close => cases r <;> cases l <;> cases h

/-- Only a session that could not be closed breaks a worker. -/
theorem nextPhase_broken {l : Phase} {op : StartOp} {r : Except Exn op.Res}
    {e : Exn} (h : nextPhase l op r = .broken e) :
    (⟨op, r⟩ : Event startCalls Exn) = ⟨.close, .error e⟩ := by
  cases op with
  | anyUser =>
      cases r with
      | error e => cases l <;> cases h
      | ok found => cases found <;> cases l <;> cases h
  | commit entry roles => cases l <;> cases h
  | close =>
      cases r with
      | error e' =>
          have he : e' = e := by
            cases l <;> exact Phase.broken.inj h
          rw [he]
      | ok u => cases l <;> cases h

theorem started_step {tr : List (Entry startCalls Exn Database ι)}
    {ph : ι → Option String × Phase} {db db' : Database} {t : ι}
    {op : StartOp} {r : Except Exn op.Res}
    (hinv : Started lib passwords d tr ph db)
    (hop : (Protocol.family (workerProtocol lib)).allowed (ph t) op)
    (h : answers t op db r db') :
    Started lib passwords d (tr ++ [⟨db, t, ⟨op, r⟩⟩])
      (Function.update ph t
        ((Protocol.family (workerProtocol lib)).next (ph t) op r)) db' := by
  have hdb : db' = db ∨ db' = (handle op db).2 := by
    rcases h with ⟨-, hdb⟩ | ⟨e, -, hdb⟩
    · exact Or.inr hdb
    · exact hdb
  refine ⟨?_, ?_, ?_, ?_⟩
  · rcases hdb with rfl | rfl
    · exact hinv.stored
    · have hown := hinv.own t
      have hlooked := hinv.looked t
      revert hop hown hlooked
      rcases ph t with ⟨password, l⟩
      intro hop hown hlooked
      cases hop with
      | look | close => exact hinv.stored
      | commit hpassword hhash =>
          exact stored_commit (hown.symm.trans hpassword) hhash (hlooked rfl)
            hinv.stored
  · intro u
    by_cases hut : u = t
    · rw [hut, Function.update_self]
      exact hinv.own t
    · rw [Function.update_of_ne hut]
      exact hinv.own u
  · intro u hu
    by_cases hut : u = t
    · rw [hut, Function.update_self] at hu
      obtain ⟨rfl, hr⟩ := nextPhase_looked hu
      have hr' : r = .ok false := hr
      rcases h with ⟨hanswer, -⟩ | ⟨e, herror, -⟩
      · exact empty_of_look hinv.stored (hanswer.symm.trans hr')
      · rw [hr'] at herror
        cases herror
    · rw [Function.update_of_ne hut] at hu
      exact hinv.looked u hu
  · intro u e hu
    by_cases hut : u = t
    · rw [hut, Function.update_self] at hu
      exact ⟨_, List.mem_append_right _ (List.mem_singleton.mpr rfl),
        hut.symm, nextPhase_broken hu⟩
    · rw [Function.update_of_ne hut] at hu
      obtain ⟨entry, hentry, hthread⟩ := hinv.broken u e hu
      exact ⟨entry, List.mem_append_left _ hentry, hthread⟩

/-- **One first administrator**: in every run of starting workers the accounts
    are what they were, or there were none and there is the administrator of
    one of the workers, with its two roles; and no worker fails to start,
    unless its session cannot be closed. -/
theorem one_first_admin {tr : List (Entry startCalls Exn Database ι)}
    {p : Pool startCalls Exn Unit Database ι}
    (hrun : Run answers (starting lib passwords d) tr p) :
    (p.shared = d ∨ Created lib passwords d p.shared) ∧
    ∀ t e, p.threads t = .raise e →
      ∃ entry ∈ tr, entry.thread = t ∧ entry.event = ⟨.close, .error e⟩ := by
  have hkeep : KeptBy (Protocol.family (workerProtocol lib)) (@answers ι)
      (Started lib passwords d) (fun _ => True) :=
    fun tr ph s t op r s' hinv hop h _ => started_step hinv hop h
  have hstart : Started lib passwords d [] (fun t => (passwords t, .fresh))
      d := by
    refine ⟨Or.inl rfl, fun t => rfl, ?_, ?_⟩
    · intro t ht
      cases ht
    · intro t e ht
      cases ht
  have hfollows : ∀ t, Follows (Protocol.family (workerProtocol lib))
      (ensureDefaultAdmin lib (passwords t)) (passwords t, .fresh)
      (fun l r => Starts l.2 r) :=
    fun t => Follows.family (ensureDefaultAdmin_follows lib (passwords t))
  obtain ⟨ph, hinv, hfol⟩ := Run.inv hkeep hstart hfollows hrun
    (fun _ _ => trivial)
  refine ⟨hinv.stored, ?_⟩
  intro t e ht
  have hf := hfol t
  rw [ht] at hf
  exact hinv.broken t e (hf e rfl)

end Workers

open CvScope (plainLib)

/-- Two workers of one release, with another password each, after a change of
    the secret. -/
def twoPasswords (first : Bool) : Option String :=
  some (if first = true then "initial" else "changed")

/-- Both look before one of them commits: the second one has created the
    administrator, and both have started. -/
theorem one_first_admin_two :
    ∃ tr p, Run answers (starting plainLib twoPasswords Database.fresh) tr p ∧
      (∀ t, ∃ u, p.threads t = .ret u) ∧
      p.shared.localUsers.rows = [defaultAdmin "$2b$12$changed"] ∧
      (p.shared = Database.fresh ∨
        Created plainLib twoPasswords Database.fresh p.shared) := by
  obtain ⟨tr, p, hrun, hends⟩ := run_of_handler handle
    (starting plainLib twoPasswords Database.fresh)
    [true, false, false, true, true, false]
    (fun _ p => (returned (p.threads false) && returned (p.threads true))
      && decide (p.shared.localUsers.rows = [defaultAdmin "$2b$12$changed"]))
    (by decide)
  obtain ⟨hreturned, hrows⟩ := (Bool.and_eq_true _ _).mp hends
  have hrun' : Run answers (starting plainLib twoPasswords Database.fresh) tr
      p :=
    hrun.imp (fun t op s r s' hans => Or.inl
      ⟨(congrArg Prod.fst hans).symm, (congrArg Prod.snd hans).symm⟩)
  exact ⟨tr, p, hrun', both_returned hreturned, of_decide_eq_true hrows,
    (one_first_admin hrun').1⟩

end CvStart
