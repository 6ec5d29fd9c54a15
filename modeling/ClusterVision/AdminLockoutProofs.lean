import ClusterVision.AuthRoutes
import ClusterVision.ScopeRoleProofs

/-! # The last administrator

    Only an administrator of the instance can give that role, so an
    installation without one is locked out.  The account routes keep an
    account from deleting itself and nothing more: an installation keeps an
    administrator exactly as long as no call takes the role, or the account,
    from the last one. -/

namespace CvAdmin

open CvProg CvRun CvTable CvIso CvKube CvBackend CvHttp CvAuth CvToken CvScope

/-! ## Runs -/

/-- The routes that change accounts and their roles. -/
inductive AdminCall where
  | addUser (body : LoginRequest)
  | removeUser (username : String)
  | resetPassword (username : String) (body : LoginRequest)
  | putUserRole (username scope : String) (role : Role)
  | deleteUserRole (username scope : String)

/-- A request of an account, or a start of the backend with the value of
    `CV_ADMIN_PASSWORD`. -/
inductive AdminStep where
  | request (current : UserInfo) (call : AdminCall)
  | restart (password : Option String)

variable (lib : AuthLib)

/-- A request. -/
def AdminCall.run (current : UserInfo) :
    AdminCall → Database → Except Exn Unit × Database
  | .addUser body => CvToken.addUser lib current body
  | .removeUser username => CvToken.removeUser current username
  | .resetPassword username body =>
      CvToken.resetPassword lib current username body
  | .putUserRole username scope role =>
      CvToken.putUserRole current username scope role
  | .deleteUserRole username scope =>
      CvToken.deleteUserRole current username scope

/-- What happens next. -/
def adminStep : AdminStep → Database → Database
  | .request current call, db => (call.run lib current db).2
  | .restart password, db => ensureDefaultAdmin lib password db

/-- An account with the role `admin` on `_instance`. -/
def IsAdmin (db : Database) (username : String) : Prop :=
  db.localUsers.get username ≠ none ∧
    rolesFor db username instanceScope = some .admin

/-- There is one. -/
def HasAdmin (db : Database) : Prop := ∃ username, IsAdmin db username

/-- There is one besides the given account. -/
def HasOtherAdmin (db : Database) (username : String) : Prop :=
  ∃ other, other ≠ username ∧ IsAdmin db other

/-- What a call takes from an account leaves an administrator: the call deletes
    the account, or it lowers or removes its role on `_instance`. -/
def LeavesAdmin (db : Database) : AdminStep → Prop
  | .request current (.removeUser username) =>
      requireAdmin current = .ok () → username ≠ current.username →
        HasOtherAdmin db username
  | .request current (.putUserRole username scope role) =>
      requireAdmin current = .ok () → IsLocal db username →
        scope = instanceScope → role ≠ .admin → HasOtherAdmin db username
  | .request current (.deleteUserRole username scope) =>
      requireAdmin current = .ok () → IsLocal db username →
        scope = instanceScope →
        rolesFor db username scope ≠ none → HasOtherAdmin db username
  | _ => True

/-! ## One step -/

section Step

variable {db : Database} {username : String}

/-- A route behind `require_admin` does nothing, or what it does for an
    administrator. -/
theorem asAdmin_eq {α : Type} (current : UserInfo)
    (f : Database → Except Exn α × Database) (db : Database) :
    (requireAdmin current ≠ .ok () ∧ (asAdmin current f db).2 = db) ∨
      (requireAdmin current = .ok () ∧ asAdmin current f db = f db) := by
  rw [asAdmin]
  cases hgate : requireAdmin current with
  | error e => exact Or.inl ⟨nofun, rfl⟩
  | ok u => exact Or.inr ⟨rfl, rfl⟩

/-- Behind `require_admin` an administrator remains when what the route does
    for an administrator leaves one. -/
theorem asAdmin_hasAdmin {α : Type} {C : Prop} (h : HasAdmin db)
    (current : UserInfo) {f : Database → Except Exn α × Database}
    (hf : HasAdmin (f db).2 ↔ C) :
    HasAdmin (asAdmin current f db).2 ↔ (requireAdmin current = .ok () → C) := by
  rcases asAdmin_eq current f db with ⟨hgate, heq⟩ | ⟨hgate, heq⟩
  · rw [heq]
    exact iff_of_true h (fun hok => absurd hok hgate)
  · rw [heq, hf]
    exact ⟨fun hc _ => hc, fun hc => hc hgate⟩

/-- No account is no local account. -/
theorem not_isLocal (hget : db.localUsers.get username = none) :
    ¬ IsLocal db username := by
  rintro ⟨entry, hentry, -⟩
  rw [hget] at hentry
  cases hentry

theorem isLocal_iff {entry : LocalUser}
    (hget : db.localUsers.get username = some entry) :
    IsLocal db username ↔ entry.source = .local := by
  constructor
  · rintro ⟨entry', hentry, hlocal⟩
    rw [hget] at hentry
    exact Option.some.inj hentry ▸ hlocal
  · intro hlocal
    exact ⟨entry, hget, hlocal⟩

/-- A new account, or a new entry of an account, takes no role. -/
theorem hasAdmin_withAccount (h : HasAdmin db) (entry : LocalUser) :
    HasAdmin (withAccount db entry) := by
  obtain ⟨u, hthere, hrole⟩ := h
  refine ⟨u, ?_, hrole⟩
  show (db.localUsers.put entry).get u ≠ none
  rw [Table.get_put]
  split
  · exact Option.some_ne_none entry
  · exact hthere

theorem createUser_hasAdmin (h : HasAdmin db) (username password : String) :
    HasAdmin (CvAuth.createUser lib username password db).2 := by
  rw [CvAuth.createUser]
  cases db.localUsers.get username with
  | some entry => exact h
  | none =>
      cases lib.hashPassword password with
      | error e => exact h
      | ok hash => exact hasAdmin_withAccount h _

theorem changePassword_hasAdmin (h : HasAdmin db)
    (username newPassword : String) :
    HasAdmin (changePassword lib username newPassword db).2 := by
  rw [changePassword]
  cases db.localUsers.get username with
  | none => exact h
  | some entry =>
      by_cases hsource : entry.source ≠ .local
      · simp only [if_pos hsource]
        exact h
      · simp only [if_neg hsource]
        cases lib.hashPassword newPassword with
        | error e => exact h
        | ok hash => exact hasAdmin_withAccount h _

/-- A start of the backend finds the accounts that there are. -/
theorem ensureDefaultAdmin_hasAdmin (h : HasAdmin db)
    (password : Option String) :
    HasAdmin (ensureDefaultAdmin lib password db) := by
  have hrows : db.localUsers.rows ≠ [] := by
    obtain ⟨u, hthere, -⟩ := h
    intro hempty
    refine hthere ?_
    rw [Table.get_eq_none_iff]
    intro entry hentry
    rw [hempty] at hentry
    exact absurd hentry List.not_mem_nil
  cases password with
  | none => exact h
  | some password =>
      rw [ensureDefaultAdmin]
      by_cases hempty : password = ""
      · rw [if_pos hempty]
        exact h
      · rw [if_neg hempty, if_pos hrows]
        exact h

/-- The administrators after an account is gone with its assignments. -/
theorem isAdmin_deleted (u : String) :
    IsAdmin { db with
      localUsers := db.localUsers.erase username
      scopeRoleAssignments := db.scopeRoleAssignments.keep
        (fun a => decide (a.username ≠ username)) } u
      ↔ u ≠ username ∧ IsAdmin db u := by
  show (db.localUsers.erase username).get u ≠ none ∧
    ((db.scopeRoleAssignments.keep
      (fun a => decide (a.username ≠ username))).get
        (u, instanceScope)).map ScopeRoleAssignment.role
      = some .admin ↔ _
  rw [Table.get_erase, Table.get_keep_eq]
  by_cases hu : u = username
  · rw [if_pos hu]
    exact iff_of_false (fun h => h.1 rfl) (fun h => h.1 hu)
  · rw [if_neg hu]
    -- a row under the key of `u` is a row of `u`, so it is kept
    have hkept : (db.scopeRoleAssignments.get (u, instanceScope)).filter
        (fun a => decide (a.username ≠ username))
        = db.scopeRoleAssignments.get (u, instanceScope) := by
      cases ha : db.scopeRoleAssignments.get (u, instanceScope) with
      | none => rfl
      | some a =>
          have howner : a.username = u :=
            congrArg Prod.fst (Table.key_of_get ha)
          rw [← howner] at hu
          exact if_pos (decide_eq_true hu)
    rw [hkept]
    exact ⟨fun h => ⟨hu, h⟩, And.right⟩

/-- Deleting an account leaves the administrators besides it. -/
theorem deleteUser_hasAdmin (h : HasAdmin db) (username : String) :
    HasAdmin (CvAuth.deleteUser username db).2 ↔ HasOtherAdmin db username := by
  rw [CvAuth.deleteUser]
  cases hget : db.localUsers.get username with
  | none =>
      refine iff_of_true h ?_
      obtain ⟨u, hthere, hrole⟩ := h
      refine ⟨u, ?_, hthere, hrole⟩
      rintro rfl
      exact hthere hget
  | some entry => exact exists_congr isAdmin_deleted

/-- The administrators after the assignments have changed. -/
theorem isAdmin_withAssignments (t : Assignments) (u : String) :
    IsAdmin (withAssignments db t) u ↔ db.localUsers.get u ≠ none ∧
      (t.get (u, instanceScope)).map ScopeRoleAssignment.role = some .admin :=
  Iff.rfl

/-- Changing an assignment on another scope changes no administrator. -/
theorem hasAdmin_otherScope {t : Assignments}
    (ht : ∀ u, t.get (u, instanceScope)
      = db.scopeRoleAssignments.get (u, instanceScope)) :
    HasAdmin (withAssignments db t) ↔ HasAdmin db := by
  refine exists_congr (fun u => ?_)
  rw [isAdmin_withAssignments, ht]
  rfl

/-- The administrators after an account got a role on `_instance`. -/
theorem isAdmin_put (hthere : db.localUsers.get username ≠ none) (role : Role)
    (u : String) :
    IsAdmin (withAssignments db (db.scopeRoleAssignments.put
        ⟨username, instanceScope, role⟩)) u ↔
      (u = username ∧ role = .admin) ∨ (u ≠ username ∧ IsAdmin db u) := by
  rw [isAdmin_withAssignments, Table.get_put]
  by_cases hu : u = username
  · subst hu
    have hkey : (u, instanceScope)
        = ScopeRoleAssignment.key ⟨u, instanceScope, role⟩ := rfl
    rw [if_pos hkey]
    simp [hthere]
  · rw [if_neg (fun hkey => hu (congrArg Prod.fst hkey))]
    simp only [hu, false_and, false_or, ne_eq, not_false_eq_true, true_and]
    rfl

/-- The administrators after an account lost its role on `_instance`. -/
theorem isAdmin_erase (u : String) :
    IsAdmin (withAssignments db (db.scopeRoleAssignments.erase
        (username, instanceScope))) u ↔ u ≠ username ∧ IsAdmin db u := by
  rw [isAdmin_withAssignments, Table.get_erase]
  by_cases hu : u = username
  · subst hu
    rw [if_pos rfl]
    simp
  · rw [if_neg (fun hkey => hu (congrArg Prod.fst hkey))]
    exact ⟨fun h => ⟨hu, h⟩, And.right⟩

/-- Setting a role leaves an administrator unless it lowers the role of the
    last one on `_instance`. -/
theorem setScopeRole_hasAdmin (h : HasAdmin db) (username scope : String)
    (role : Role) :
    HasAdmin (setScopeRole username scope role db).2 ↔
      (IsLocal db username → scope = instanceScope → role ≠ .admin →
        HasOtherAdmin db username) := by
  rw [setScopeRole]
  cases hget : db.localUsers.get username with
  | none => exact iff_of_true h (fun hlocal => absurd hlocal (not_isLocal hget))
  | some entry =>
      rw [isLocal_iff hget]
      by_cases hsource : entry.source = .local
      · simp only [hsource, ne_eq, not_true_eq_false, if_false]
        by_cases hscope : scope = instanceScope
        · subst hscope
          have hthere : db.localUsers.get username ≠ none := by
            rw [hget]
            exact Option.some_ne_none entry
          constructor
          · rintro ⟨u, hu⟩ - - hrole
            rcases (isAdmin_put hthere role u).mp hu with ⟨-, hadmin⟩ | hother
            · exact absurd hadmin hrole
            · exact ⟨u, hother⟩
          · intro hleaves
            by_cases hrole : role = .admin
            · exact ⟨username, (isAdmin_put hthere role username).mpr
                (Or.inl ⟨rfl, hrole⟩)⟩
            · obtain ⟨u, hu⟩ := hleaves trivial rfl hrole
              exact ⟨u, (isAdmin_put hthere role u).mpr (Or.inr hu)⟩
        · refine iff_of_true ((hasAdmin_otherScope (fun u => ?_)).mpr h)
            (fun _ hinstance => absurd hinstance hscope)
          rw [Table.get_put, if_neg]
          exact fun hkey => hscope (congrArg Prod.snd hkey).symm
      · simp only [ne_eq, hsource, not_false_eq_true, if_true]
        exact iff_of_true h False.elim

/-- Removing a role leaves an administrator unless it is that of the last one
    on `_instance`. -/
theorem deleteScopeRole_hasAdmin (h : HasAdmin db) (username scope : String) :
    HasAdmin (deleteScopeRole username scope db).2 ↔
      (IsLocal db username → scope = instanceScope →
        rolesFor db username scope ≠ none → HasOtherAdmin db username) := by
  rw [deleteScopeRole]
  cases hget : db.localUsers.get username with
  | none => exact iff_of_true h (fun hlocal => absurd hlocal (not_isLocal hget))
  | some entry =>
      rw [isLocal_iff hget]
      by_cases hsource : entry.source = .local
      · simp only [hsource, ne_eq, not_true_eq_false, if_false]
        cases hrow : db.scopeRoleAssignments.get (username, scope) with
        | none =>
            refine iff_of_true h (fun _ _ hrole => absurd ?_ hrole)
            rw [rolesFor, hrow]
            rfl
        | some a =>
            by_cases hscope : scope = instanceScope
            · subst hscope
              have hrole : rolesFor db username instanceScope ≠ none := by
                rw [rolesFor, hrow]
                exact Option.some_ne_none _
              constructor
              · rintro ⟨u, hu⟩ - - -
                exact ⟨u, (isAdmin_erase u).mp hu⟩
              · intro hleaves
                obtain ⟨u, hu⟩ := hleaves trivial rfl hrole
                exact ⟨u, (isAdmin_erase u).mpr hu⟩
            · refine iff_of_true ((hasAdmin_otherScope (fun u => ?_)).mpr h)
                (fun _ hinstance => absurd hinstance hscope)
              rw [Table.get_erase, if_neg]
              exact fun hkey => hscope (congrArg Prod.snd hkey).symm
      · simp only [ne_eq, hsource, not_false_eq_true, if_true]
        exact iff_of_true h False.elim

/-- A step leaves an administrator exactly when what it takes from an account
    does. -/
theorem adminStep_hasAdmin (h : HasAdmin db) (a : AdminStep) :
    HasAdmin (adminStep lib a db) ↔ LeavesAdmin db a := by
  cases a with
  | restart password =>
      exact iff_of_true (ensureDefaultAdmin_hasAdmin lib h password) trivial
  | request current call =>
      cases call with
      | addUser body =>
          have hmade := createUser_hasAdmin lib h body.username body.password
          exact iff_of_true ((asAdmin_hasAdmin h current
            (iff_of_true hmade trivial)).mpr (fun _ => trivial)) trivial
      | resetPassword username body =>
          have hkept := changePassword_hasAdmin lib h username body.password
          exact iff_of_true ((asAdmin_hasAdmin h current
            (iff_of_true hkept trivial)).mpr (fun _ => trivial)) trivial
      | removeUser username =>
          refine asAdmin_hasAdmin h current ?_
          by_cases hself : username = current.username
          · simp only [if_pos hself]
            exact iff_of_true h (fun hne => absurd hself hne)
          · simp only [if_neg hself]
            rw [deleteUser_hasAdmin h username]
            exact ⟨fun hother _ => hother, fun hleaves => hleaves hself⟩
      | putUserRole username scope role =>
          exact asAdmin_hasAdmin h current
            (setScopeRole_hasAdmin h username scope role)
      | deleteUserRole username scope =>
          exact asAdmin_hasAdmin h current
            (deleteScopeRole_hasAdmin h username scope)

end Step

/-! ## Every run -/

/-- In every run from a state with an administrator there is one after every
    step, exactly when every call leaves one. -/
theorem admin_remains_iff (db : Database) (hdb : HasAdmin db)
    (steps : List AdminStep) :
    Along (adminStep lib) (fun db a => HasAdmin (adminStep lib a db)) steps db
      ↔ Along (adminStep lib) LeavesAdmin steps db := by
  have hstep : ∀ db a, HasAdmin db → HasAdmin (adminStep lib a db) →
      HasAdmin (adminStep lib a db) := fun _ _ _ h => h
  exact along_congr hstep (fun _ a h => adminStep_hasAdmin lib h a) hdb steps

/-- A new installation after its first start. -/
def firstStart : Database :=
  ensureDefaultAdmin plainLib (some "initial") Database.fresh

theorem firstStart_hasAdmin : HasAdmin firstStart :=
  ⟨"admin", Option.some_ne_none _, rfl⟩

/-- The first administrator makes `eve` another one, and then steps down. -/
theorem admin_remains_two :
    Along (adminStep plainLib)
      (fun db a => HasAdmin (adminStep plainLib a db))
      [.request (userInfo firstStart "admin")
          (.addUser ⟨"eve", "password", by decide⟩),
        .request (userInfo firstStart "admin")
          (.putUserRole "eve" "_instance" .admin),
        .request (userInfo firstStart "admin")
          (.putUserRole "admin" "_instance" .viewer)] firstStart := by
  refine (admin_remains_iff plainLib firstStart firstStart_hasAdmin _).mpr
    ⟨trivial, ?_, ?_, trivial⟩
  · exact fun _ _ _ hne => absurd rfl hne
  · intro _ _ _ _
    exact ⟨"eve", by decide, Option.some_ne_none _, rfl⟩

/-- The only administrator lowers its own role, and a restart does not help. -/
theorem admin_locked_out :
    ¬ ∀ (db : Database), HasAdmin db → ∀ steps : List AdminStep,
      Along (adminStep plainLib)
        (fun db a => HasAdmin (adminStep plainLib a db)) steps db := by
  intro hall
  have hrun := hall firstStart firstStart_hasAdmin
    [.request (userInfo firstStart "admin")
      (.putUserRole "admin" "_instance" .viewer),
      .restart (some "initial")]
  obtain ⟨u, -, hrole⟩ := hrun.2.1
  obtain ⟨a, ha, hadmin⟩ := Option.map_eq_some_iff.mp hrole
  have hnone : ∀ a ∈ (adminStep plainLib (.restart (some "initial"))
      (adminStep plainLib (.request (userInfo firstStart "admin")
        (.putUserRole "admin" "_instance" .viewer)) firstStart)
      ).scopeRoleAssignments.rows,
      a.scope = instanceScope → a.role ≠ .admin := by decide
  exact hnone a (Table.mem_of_get ha)
    (congrArg Prod.snd (Table.key_of_get ha)) hadmin

end CvAdmin
