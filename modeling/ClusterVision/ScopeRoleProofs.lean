import ClusterVision.AuthService
import ClusterVision.ClusterRegistryProofs
import ClusterVision.RunProofs

/-! # Roles on clusters that come and go

    The roles of accounts and the registered clusters are two stores that know
    nothing of each other: a role can be given on any name, and removing a
    cluster leaves the roles on it.  So an account gets access to a new cluster
    by a role from before its registration, exactly when there is such a role
    at the moment of the registration. -/

namespace CvScope

open CvProg CvRun CvTable CvIso CvKube CvBackend CvHttp CvCluster CvAuth

/-! ## Runs -/

/-- A call of the services that deal with clusters, accounts and roles. -/
inductive ScopeStep where
  | addCluster (reachable : Except Exn Unit) (c : RegisteredCluster)
  | removeCluster (name : String)
  | setScopeRole (username scope : String) (role : Role)
  | deleteScopeRole (username scope : String)
  | createUser (username password : String)
  | deleteUser (username : String)

/-- The world, and which account was given a role on which scope since the
    last registration of a cluster under that name. -/
structure ScopeState where
  world : World
  given : List (String × String)

/-- A session on the database of a world. -/
def onDb {α : Type} (f : Database → Except Exn α × Database) (w : World) :
    Except Exn α × World :=
  ((f w.db).1, w.setDb (f w.db).2)

/-- What a call that ends in `r` adds to what was given. -/
def givenAfter {α : Type} (r : Except Exn α) (before after : List
    (String × String)) : List (String × String) :=
  match r with
  | .ok _ => after
  | .error _ => before

/-- A call. -/
def scopeStep (lib : AuthLib) : ScopeStep → ScopeState → ScopeState
  | .addCluster reachable c, s =>
      let p := (addCluster reachable c).run handle s.world
      ⟨p.2, givenAfter p.1 s.given
        (s.given.filter (fun g => decide (g.2 ≠ c.name)))⟩
  | .removeCluster name, s =>
      ⟨((removeCluster name).run handle s.world).2, s.given⟩
  | .setScopeRole username scope role, s =>
      let p := onDb (setScopeRole username scope role) s.world
      ⟨p.2, givenAfter p.1 s.given ((username, scope) :: s.given)⟩
  | .deleteScopeRole username scope, s =>
      ⟨(onDb (deleteScopeRole username scope) s.world).2, s.given⟩
  | .createUser username password, s =>
      ⟨(onDb (CvAuth.createUser lib username password) s.world).2, s.given⟩
  | .deleteUser username, s =>
      ⟨(onDb (CvAuth.deleteUser username) s.world).2, s.given⟩

/-- A local account. -/
def IsLocal (db : Database) (username : String) : Prop :=
  ∃ entry, db.localUsers.get username = some entry ∧ entry.source = .local

/-- The account, with its current roles, as an access token shows it. -/
def userInfo (db : Database) (username : String) : UserInfo :=
  ⟨username, rolesFor db username⟩

/-- Every local account that the gate admits to a registered cluster was given
    a role on it since its registration. -/
def AdmitsGiven (s : ScopeState) : Prop :=
  ∀ (username c : String) (method : Method), c ≠ localCluster →
    registered s.world c = true → IsLocal s.world.db username →
    authGate method c (userInfo s.world.db username) = .ok () →
    (username, c) ∈ s.given

/-- A registration that goes through finds no role of a local account on the
    name. -/
def NameUnused (s : ScopeState) : ScopeStep → Prop
  | .addCluster reachable c =>
      Accepted s.world reachable c → ∀ username, IsLocal s.world.db username →
        s.world.db.scopeRoleAssignments.get (username, c.name) = none
  | _ => True

/-! ## The gate -/

/-- The gate admits an account, if only to read, exactly when it has a role on
    the cluster. -/
theorem authGate_iff (db : Database) (username c : String) :
    (∃ method, authGate method c (userInfo db username) = .ok ())
      ↔ db.scopeRoleAssignments.get (username, c) ≠ none := by
  have hroles : (userInfo db username).roles c
      = (db.scopeRoleAssignments.get (username, c)).map
        ScopeRoleAssignment.role := rfl
  constructor
  · rintro ⟨method, hgate⟩ hnone
    rw [authGate, hroles, hnone] at hgate
    exact nomatch hgate
  · intro hrow
    obtain ⟨a, ha⟩ := Option.ne_none_iff_exists'.mp hrow
    refine ⟨.get, ?_⟩
    rw [authGate, hroles, ha]
    rfl

/-- The same property, by the rows. -/
theorem admitsGiven_iff (s : ScopeState) :
    AdmitsGiven s ↔ ∀ username c, c ≠ localCluster →
      registered s.world c = true → IsLocal s.world.db username →
      s.world.db.scopeRoleAssignments.get (username, c) ≠ none →
      (username, c) ∈ s.given := by
  constructor
  · intro h username c hc hreg hlocal hrow
    obtain ⟨method, hgate⟩ := (authGate_iff _ _ _).mpr hrow
    exact h username c method hc hreg hlocal hgate
  · intro h username c method hc hreg hlocal hgate
    exact h username c hc hreg hlocal ((authGate_iff _ _ _).mp ⟨method, hgate⟩)

/-! ## One call -/

/-- Every role belongs to an account, as the foreign key says. -/
def Owned (db : Database) : Prop :=
  ∀ a ∈ db.scopeRoleAssignments.rows, db.localUsers.get a.username ≠ none

/-- What a call that gives no role can do to the accounts and their roles. -/
inductive AccountEffect (db : Database) : Database → Prop where
  | same : AccountEffect db db
  | unset (username scope : String) :
      AccountEffect db (withAssignments db
        (db.scopeRoleAssignments.erase (username, scope)))
  | created (entry : LocalUser)
      (absent : db.localUsers.get entry.username = none) :
      AccountEffect db (withAccount db entry)
  | deleted (username : String) :
      AccountEffect db { db with
        localUsers := db.localUsers.erase username
        scopeRoleAssignments := db.scopeRoleAssignments.keep
          (fun a => decide (a.username ≠ username)) }

/-- A role is given to a local account, or nothing happens. -/
theorem setScopeRole_effect (username scope : String) (role : Role)
    (db : Database) :
    (∃ e, setScopeRole username scope role db = (.error e, db)) ∨
      db.localUsers.get username ≠ none ∧
        setScopeRole username scope role db = (.ok (), withAssignments db
          (db.scopeRoleAssignments.put ⟨username, scope, role⟩)) := by
  rw [setScopeRole]
  cases hget : db.localUsers.get username with
  | none => exact Or.inl ⟨_, rfl⟩
  | some entry =>
      by_cases hsource : entry.source = .local
      · simp only [ne_eq, hsource, not_true_eq_false, if_false]
        exact Or.inr ⟨nofun, trivial⟩
      · simp only [ne_eq, hsource, not_false_eq_true, if_true]
        exact Or.inl ⟨_, rfl⟩

theorem deleteScopeRole_effect (username scope : String) (db : Database) :
    AccountEffect db (deleteScopeRole username scope db).2 := by
  rw [deleteScopeRole]
  cases db.localUsers.get username with
  | none => exact .same
  | some entry =>
      by_cases hsource : entry.source = .local
      · simp only [ne_eq, hsource, not_true_eq_false, if_false]
        cases db.scopeRoleAssignments.get (username, scope) with
        | none => exact .same
        | some a => exact .unset username scope
      · simp only [ne_eq, hsource, not_false_eq_true, if_true]
        exact .same

theorem createUser_effect (lib : AuthLib) (username password : String)
    (db : Database) :
    AccountEffect db (CvAuth.createUser lib username password db).2 := by
  rw [CvAuth.createUser]
  cases hget : db.localUsers.get username with
  | some entry => exact .same
  | none =>
      cases lib.hashPassword password with
      | error e => exact .same
      | ok hash => exact .created _ hget

theorem deleteUser_effect (username : String) (db : Database) :
    AccountEffect db (CvAuth.deleteUser username db).2 := by
  rw [CvAuth.deleteUser]
  cases db.localUsers.get username with
  | none => exact .same
  | some entry => exact .deleted username

/-- A role that is given belongs to an account. -/
theorem owned_put {db : Database} (hdb : Owned db) {username : String}
    (hthere : db.localUsers.get username ≠ none) (scope : String)
    (role : Role) : Owned (withAssignments db
      (db.scopeRoleAssignments.put ⟨username, scope, role⟩)) := by
  intro a ha
  rcases Table.mem_put.mp ha with rfl | ⟨ha, -⟩
  · exact hthere
  · exact hdb a ha

/-- No call leaves a role without its account. -/
theorem owned_effect {db db' : Database} (h : AccountEffect db db')
    (hdb : Owned db) : Owned db' := by
  cases h with
  | same => exact hdb
  | unset username scope =>
      intro a ha
      exact hdb a (Table.mem_erase.mp ha).1
  | created entry absent =>
      intro a ha
      show (db.localUsers.put entry).get a.username ≠ none
      rw [Table.get_put]
      split
      · exact nofun
      · exact hdb a ha
  | deleted username =>
      intro a ha
      obtain ⟨ha, hne⟩ := Table.mem_keep.mp ha
      show (db.localUsers.erase username).get a.username ≠ none
      rw [Table.get_erase, if_neg (of_decide_eq_true hne)]
      exact hdb a ha

/-- A local account with a role after such a call had both before. -/
theorem role_effect {db db' : Database} (h : AccountEffect db db')
    (hdb : Owned db) {username c : String} (hlocal : IsLocal db' username)
    (hrow : db'.scopeRoleAssignments.get (username, c) ≠ none) :
    IsLocal db username ∧
      db.scopeRoleAssignments.get (username, c) ≠ none := by
  cases h with
  | same => exact ⟨hlocal, hrow⟩
  | unset username' scope =>
      have herase : (db.scopeRoleAssignments.erase
          (username', scope)).get (username, c) ≠ none := hrow
      rw [Table.get_erase] at herase
      split at herase
      · exact absurd rfl herase
      · exact ⟨hlocal, herase⟩
  | created entry absent =>
      refine ⟨?_, hrow⟩
      obtain ⟨entry', hget, hsource⟩ := hlocal
      have hput : (db.localUsers.put entry).get username = some entry' := hget
      rw [Table.get_put] at hput
      by_cases hname : username = entry.username
      · -- a new account has no roles
        obtain ⟨a, ha⟩ := Option.ne_none_iff_exists'.mp hrow
        have hkey : a.key = (username, c) := Table.key_of_get ha
        have howner : a.username = entry.username :=
          (congrArg Prod.fst hkey).trans hname
        exact absurd (howner ▸ absent) (hdb a (Table.mem_of_get ha))
      · rw [if_neg hname] at hput
        exact ⟨entry', hput, hsource⟩
  | deleted username' =>
      obtain ⟨entry', hget, hsource⟩ := hlocal
      have herase : (db.localUsers.erase username').get username
          = some entry' := hget
      rw [Table.get_erase] at herase
      split at herase
      · exact nomatch herase
      · refine ⟨⟨entry', herase, hsource⟩, ?_⟩
        intro hnone
        have hkeep : (db.scopeRoleAssignments.keep
          (fun a => decide (a.username ≠ username'))).get (username, c)
            ≠ none := hrow
        rw [Table.get_keep_eq, hnone] at hkeep
        exact hkeep rfl

/-- Such a call leaves the registered clusters alone. -/
theorem clusters_effect {db db' : Database} (h : AccountEffect db db') :
    db'.registeredClusters = db.registeredClusters := by
  cases h with
  | same | unset | created | deleted => rfl

/-- Such a call keeps what the gate admits in line with what was given. -/
theorem admitsGiven_effect {s : ScopeState} {db' : Database}
    (hs : AdmitsGiven s) (howned : Owned s.world.db)
    (h : AccountEffect s.world.db db') :
    AdmitsGiven ⟨s.world.setDb db', s.given⟩ := by
  rw [admitsGiven_iff] at hs ⊢
  intro username c hc hreg hlocal hrow
  obtain ⟨hlocal', hrow'⟩ := role_effect h howned hlocal hrow
  refine hs username c hc ?_ hlocal' hrow'
  rw [registered, ← clusters_effect h]
  exact hreg

/-- So does giving a role. -/
theorem admitsGiven_put {s : ScopeState} (hs : AdmitsGiven s)
    (username scope : String) (role : Role) :
    AdmitsGiven ⟨s.world.setDb (withAssignments s.world.db
      (s.world.db.scopeRoleAssignments.put ⟨username, scope, role⟩)),
      (username, scope) :: s.given⟩ := by
  rw [admitsGiven_iff] at hs ⊢
  intro username' c hc hreg hlocal hrow
  by_cases hkey : (username', c) = (username, scope)
  · rw [hkey]
    exact List.mem_cons_self ..
  · have hput : (s.world.db.scopeRoleAssignments.put
        ⟨username, scope, role⟩).get (username', c) ≠ none := hrow
    have hne : (username', c)
        ≠ (ScopeRoleAssignment.mk username scope role).key := hkey
    rw [Table.get_put, if_neg hne] at hput
    exact List.mem_cons_of_mem _ (hs username' c hc hreg hlocal hput)

/-- A cluster that goes takes no access along. -/
theorem admitsGiven_remove {s : ScopeState} (hs : AdmitsGiven s)
    {t : ConfigDict} {name : String} (ht : ∀ n, t.get n
      = if n = name then none else s.world.db.registeredClusters.get n) :
    AdmitsGiven ⟨s.world.setDb (withConfigs s.world.db t), s.given⟩ := by
  rw [admitsGiven_iff] at hs ⊢
  intro username c hc hreg hlocal hrow
  refine hs username c hc ?_ hlocal hrow
  have hthere : (t.get c).isSome = true := hreg
  rw [ht] at hthere
  split at hthere
  · exact nomatch hthere
  · exact hthere

/-- A registration does so exactly when no local account has a role on the
    name. -/
theorem admitsGiven_add {s : ScopeState} (hs : AdmitsGiven s)
    {t : ConfigDict} {c : RegisteredCluster} (hlocal : c.name ≠ localCluster)
    (ht : ∀ n, t.get n
      = if n = c.name then some c else s.world.db.registeredClusters.get n) :
    AdmitsGiven ⟨s.world.setDb (withConfigs s.world.db t),
        s.given.filter (fun g => decide (g.2 ≠ c.name))⟩
      ↔ ∀ username, IsLocal s.world.db username →
        s.world.db.scopeRoleAssignments.get (username, c.name) = none := by
  rw [admitsGiven_iff] at hs ⊢
  constructor
  · intro h username husername
    by_contra hrow
    have hreg : registered (s.world.setDb (withConfigs s.world.db t)) c.name
        = true := by
      show (t.get c.name).isSome = true
      rw [ht, if_pos rfl]
      rfl
    have hgiven := h username c.name hlocal hreg husername hrow
    exact of_decide_eq_true (List.mem_filter.mp hgiven).2 rfl
  · intro h username n hn hreg husername hrow
    by_cases hname : n = c.name
    · rw [hname] at hrow
      exact absurd (h username husername) hrow
    · refine List.mem_filter.mpr ⟨hs username n hn ?_ husername hrow,
        decide_eq_true hname⟩
      have hthere : (t.get n).isSome = true := hreg
      rw [ht, if_neg hname] at hthere
      exact hthere

/-! ## Every run -/

/-- What holds between two calls. -/
structure Consistent (s : ScopeState) : Prop where
  owned : Owned s.world.db
  admits : AdmitsGiven s

variable (lib : AuthLib)

/-- No call leaves a role without its account. -/
theorem owned_step {s : ScopeState} (hs : Owned s.world.db)
    (a : ScopeStep) : Owned (scopeStep lib a s).world.db := by
  cases a with
  | addCluster reachable c =>
      rcases run_addCluster reachable c s.world with
        ⟨e, hrun, -⟩ | ⟨t, hrun, -, -⟩
      · show Owned ((addCluster reachable c).run handle s.world).2.db
        rw [hrun]
        exact hs
      · show Owned ((addCluster reachable c).run handle s.world).2.db
        rw [hrun]
        exact hs
  | removeCluster name =>
      rcases run_removeCluster name s.world with ⟨e, hrun⟩ | ⟨t, hrun, -⟩
      · show Owned ((removeCluster name).run handle s.world).2.db
        rw [hrun]
        exact hs
      · show Owned ((removeCluster name).run handle s.world).2.db
        rw [hrun]
        exact hs
  | setScopeRole username scope role =>
      show Owned (setScopeRole username scope role s.world.db).2
      rcases setScopeRole_effect username scope role s.world.db with
        ⟨e, hset⟩ | ⟨hthere, hset⟩
      · rw [hset]
        exact hs
      · rw [hset]
        exact owned_put hs hthere scope role
  | deleteScopeRole username scope =>
      exact owned_effect (deleteScopeRole_effect username scope _) hs
  | createUser username password =>
      exact owned_effect (createUser_effect lib username password _) hs
  | deleteUser username =>
      exact owned_effect (deleteUser_effect username _) hs

/-- A call keeps what the gate admits in line with what was given exactly when
    it does not register a name on which a local account has a role. -/
theorem admitsGiven_step {s : ScopeState} (a : ScopeStep)
    (hs : Consistent s) :
    AdmitsGiven (scopeStep lib a s) ↔ NameUnused s a := by
  cases a with
  | addCluster reachable c =>
      rcases run_addCluster reachable c s.world with
        ⟨e, hrun, hrefused⟩ | ⟨t, hrun, haccepted, ht⟩
      · rw [scopeStep, hrun]
        exact ⟨fun _ h => absurd h hrefused, fun _ => hs.admits⟩
      · rw [scopeStep, hrun]
        exact (admitsGiven_add hs.admits haccepted.notLocal ht).trans
          ⟨fun h _ => h, fun h => h haccepted⟩
  | removeCluster name =>
      refine iff_of_true ?_ trivial
      rcases run_removeCluster name s.world with ⟨e, hrun⟩ | ⟨t, hrun, ht⟩
      · rw [scopeStep, hrun]
        exact hs.admits
      · rw [scopeStep, hrun]
        exact admitsGiven_remove hs.admits ht
  | setScopeRole username scope role =>
      refine iff_of_true ?_ trivial
      rcases setScopeRole_effect username scope role s.world.db with
        ⟨e, hset⟩ | ⟨-, hset⟩
      · rw [scopeStep, onDb, hset]
        exact hs.admits
      · rw [scopeStep, onDb, hset]
        exact admitsGiven_put hs.admits username scope role
  | deleteScopeRole username scope =>
      exact iff_of_true (admitsGiven_effect hs.admits hs.owned
        (deleteScopeRole_effect username scope _)) trivial
  | createUser username password =>
      exact iff_of_true (admitsGiven_effect hs.admits hs.owned
        (createUser_effect lib username password _)) trivial
  | deleteUser username =>
      exact iff_of_true (admitsGiven_effect hs.admits hs.owned
        (deleteUser_effect username _)) trivial

/-- In every run from a state without registered clusters: the gate only ever
    admits local accounts to a cluster that were given a role on it since its
    registration, exactly when every registration finds no role of a local
    account on its name. -/
theorem roles_given_iff (w : World)
    (hempty : w.db.registeredClusters = Table.empty) (howned : Owned w.db)
    (steps : List ScopeStep) :
    Along (scopeStep lib) (fun s a => AdmitsGiven (scopeStep lib a s)) steps
        ⟨w, []⟩
      ↔ Along (scopeStep lib) NameUnused steps ⟨w, []⟩ := by
  have hstart : Consistent ⟨w, []⟩ := by
    refine ⟨howned, ?_⟩
    intro username c method hc hreg
    have hnone : (w.db.registeredClusters.get c).isSome = true := hreg
    rw [hempty] at hnone
    exact nomatch hnone
  have hstep : ∀ s a, Consistent s → AdmitsGiven (scopeStep lib a s) →
      Consistent (scopeStep lib a s) :=
    fun s a hs ha => ⟨owned_step lib hs.owned a, ha⟩
  exact along_congr hstep (fun s a hs => admitsGiven_step lib a hs) hstart
    steps

/-- A template with its places for the username filled in. -/
def fillUsername (username : List Char) : List Char → List Char
  | '\x7b' :: 'u' :: 's' :: 'e' :: 'r' :: 'n' :: 'a' :: 'm' :: 'e' :: '\x7d' ::
      rest => username ++ fillUsername username rest
  | c :: rest => c :: fillUsername username rest
  | [] => []

/-- A hash that shows the password, templates that name the user in one way
    only, and names that need no escapes. -/
def plainLib : AuthLib where
  format template username :=
    .ok (String.ofList (fillUsername username.toList template.toList))
  escapeFilterChars username := username
  hashPassword password := .ok ("$2b$12$" ++ password)
  verifyPassword password hash := .ok (decide ("$2b$12$" ++ password = hash))

/-- A new installation has no clusters and no roles. A role on a cluster that
    was removed does not hinder the registration of one of another name. -/
theorem roles_given_fresh :
    Along (scopeStep plainLib)
      (fun s a => AdmitsGiven (scopeStep plainLib a s))
      [.addCluster (.ok ()) ⟨"prod", "https://a", "ca", "t"⟩,
        .createUser "eve" "pw", .setScopeRole "eve" "prod" .admin,
        .removeCluster "prod",
        .addCluster (.ok ()) ⟨"edge", "https://b", "ca", "t"⟩]
      ⟨World.fresh, []⟩ := by
  refine (roles_given_iff plainLib World.fresh rfl nofun _).mpr
    ⟨?_, trivial, trivial, trivial, ?_, trivial⟩
  · exact fun _ _ _ => rfl
  · intro _ username _
    have hne : "edge" ≠ "prod" := by decide
    show Table.get (Table.put _ _) _ = none
    rw [Table.get_put_ne]
    · rfl
    · intro h
      exact hne (congrArg Prod.snd h)

/-- An account is given a role on a cluster, the cluster is removed, and another
    one is registered under its name. -/
theorem role_outlives_cluster :
    ¬ Along (scopeStep plainLib)
        (fun s a => AdmitsGiven (scopeStep plainLib a s))
        [.addCluster (.ok ()) ⟨"prod", "https://a", "ca", "t"⟩,
          .createUser "eve" "pw", .setScopeRole "eve" "prod" .admin,
          .removeCluster "prod",
          .addCluster (.ok ()) ⟨"prod", "https://b", "ca", "t"⟩]
        ⟨World.fresh, []⟩ := by
  intro h
  have hgiven := h.2.2.2.2.1 "eve" "prod" .get (by decide) rfl
    ⟨_, rfl, rfl⟩ rfl
  exact nomatch hgiven

end CvScope
