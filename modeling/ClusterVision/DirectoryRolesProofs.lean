import ClusterVision.SessionProofs

/-! # The roles of a directory account

    A login through the directory deletes the roles of its account and writes
    them again, one for each scope that there is at that moment.  The main
    result compares the tables after a login with the role that the directory
    gives, whatever they were before. -/

namespace CvDirectory

open CvProg CvTable CvIso CvKube CvBackend CvHttp CvAuth CvAccount

/-! ## What a login should leave -/

/-- The accounts and the roles of everybody but `username` are the same. -/
structure OthersKept (username : String) (db db' : Database) : Prop where
  accounts : ∀ name, name ≠ username →
    db'.localUsers.get name = db.localUsers.get name
  roles : ∀ name, name ≠ username → ∀ scope,
    db'.scopeRoleAssignments.get (name, scope)
      = db.scopeRoleAssignments.get (name, scope)

/-- The account is one of the directory, it has `role` on every scope and
    nothing else, and that is what the login answers. -/
structure FollowsDirectory (db db' : Database) (username : String)
    (role : Role) (user : UserInfo) : Prop where
  account : ∃ entry, db'.localUsers.get username = some entry ∧
    entry.source = .ldap
  stored : ∀ scope, rolesFor db' username scope
    = if scope ∈ allScopes db then some role else none
  returned : user = ⟨username, rolesFor db' username⟩
  others : OthersKept username db db'

/-! ## The roles of one account -/

variable {username : String} {role : Role}

/-- New assignments add a row for each scope and touch no other one. -/
theorem get_assignScopes {scopes : List String} {t t' : Assignments}
    (h : assignScopes username role scopes t = .ok t') (name scope : String) :
    t'.get (name, scope)
      = if name = username ∧ scope ∈ scopes
        then some ⟨username, scope, role⟩ else t.get (name, scope) := by
  induction scopes generalizing t with
  | nil =>
      rw [assignScopes, Except.ok.injEq] at h
      rw [if_neg (fun hmem => List.not_mem_nil hmem.2), h]
  | cons head scopes ih =>
      rw [assignScopes] at h
      cases hget : t.get (username, head) with
      | some a =>
          rw [hget] at h
          cases h
      | none =>
          rw [hget] at h
          rw [ih h, Table.get_put]
          by_cases hrest : name = username ∧ scope ∈ scopes
          · rw [if_pos hrest,
              if_pos ⟨hrest.1, List.mem_cons_of_mem head hrest.2⟩]
          · rw [if_neg hrest]
            by_cases hhead : (name, scope) = (username, head)
            · obtain ⟨rfl, rfl⟩ := Prod.mk.inj hhead
              rw [if_pos (show (name, scope) = ScopeRoleAssignment.key
                  ⟨name, scope, role⟩ from rfl),
                if_pos ⟨rfl, List.mem_cons_self ..⟩]
            · rw [if_neg (show ¬ (name, scope) = ScopeRoleAssignment.key
                  ⟨username, head, role⟩ from hhead), if_neg]
              rintro ⟨rfl, hmem⟩
              rcases List.mem_cons.mp hmem with rfl | hmem
              · exact hhead rfl
              · exact hrest ⟨rfl, hmem⟩

/-- Replaced roles: one row for each scope, and nothing stays of the rows that
    were there. -/
theorem get_resyncLdapRoles {db db' : Database}
    (h : resyncLdapRoles username role db = .ok db') (name scope : String) :
    db'.scopeRoleAssignments.get (name, scope)
      = if name = username then
          if scope ∈ allScopes db then some ⟨username, scope, role⟩ else none
        else db.scopeRoleAssignments.get (name, scope) := by
  rw [resyncLdapRoles] at h
  cases hassign : assignScopes username role (allScopes db)
      (db.scopeRoleAssignments.keep
        (fun a => decide (a.username ≠ username))) with
  | error e =>
      rw [hassign] at h
      cases h
  | ok t =>
      rw [hassign] at h
      obtain rfl := Except.ok.inj h
      show t.get (name, scope) = _
      rw [get_assignScopes hassign, get_keepOthers]
      by_cases hname : name = username
      · rw [if_pos hname, if_pos hname]
        by_cases hscope : scope ∈ allScopes db
        · rw [if_pos ⟨hname, hscope⟩, if_pos hscope]
        · rw [if_neg (fun hmem => hscope hmem.2), if_neg hscope]
      · rw [if_neg (fun hmem => hname hmem.1), if_neg hname, if_neg hname]

/-! ## A login -/

/-- The account that a login writes. -/
theorem provisioned_source {entry : Option LocalUser} (now : Time)
    (h : ∀ e, entry = some e → e.source = .ldap) :
    (provisioned entry username now).source = .ldap := by
  cases entry with
  | none => rfl
  | some e => exact h e rfl

/-- A login that the directory accepts, and what it leaves. -/
theorem followsDirectory_of_done {env : AuthEnv} {password : String}
    {now : Time} {db db' : Database} {user : UserInfo}
    (hsource : ∀ entry, db.localUsers.get username = some entry →
      entry.source = .ldap)
    (h : authenticateLdap env (db.localUsers.get username) username password
      now db = (.ok (some user), db')) :
    ∃ result, Ldap.authenticate env username password = .ok (some result) ∧
      FollowsDirectory db db' username result.role user := by
  obtain ⟨result, hldap, hresync, rfl⟩ := CvSource.authenticateLdap_done h
  have husers : db'.localUsers = db.localUsers.put
      (provisioned (db.localUsers.get username) username now) :=
    CvSource.resyncLdapRoles_users hresync
  have hname : LocalUser.username
      (provisioned (db.localUsers.get username) username now) = username :=
    CvSession.provisioned_username db username now
  refine ⟨result, hldap, ⟨provisioned (db.localUsers.get username) username now,
    ?_, provisioned_source now hsource⟩, ?_, rfl, ⟨?_, ?_⟩⟩
  · rw [husers, Table.get_put, hname, if_pos rfl]
  · intro scope
    rw [rolesFor, get_resyncLdapRoles hresync, if_pos rfl]
    show Option.map _ (if scope ∈ allScopes db then _ else _) = _
    by_cases hscope : scope ∈ allScopes db
    · rw [if_pos hscope, if_pos hscope]
      rfl
    · rw [if_neg hscope, if_neg hscope]
      rfl
  · intro name hne
    rw [husers, Table.get_put, hname, if_neg hne]
  · intro name hne scope
    rw [get_resyncLdapRoles hresync, if_neg hne]
    rfl

/-- A login that the directory does not accept, or that raises. -/
theorem authenticateLdap_refused {env : AuthEnv} {entry : Option LocalUser}
    {password : String} {now : Time} {db : Database}
    (h : ∀ user, (authenticateLdap env entry username password now db).1
      ≠ .ok (some user)) :
    (authenticateLdap env entry username password now db).2 = db := by
  rw [authenticateLdap] at h ⊢
  cases hldap : Ldap.authenticate env username password with
  | error e => rfl
  | ok found =>
      cases found with
      | none =>
          simp only
          cases env.lib.verifyPassword password dummyHash with
          | error e => rfl
          | ok verified => rfl
      | some result =>
          rw [hldap] at h
          simp only at h ⊢
          cases hresync : resyncLdapRoles username result.role
              (withAccount db (provisioned entry username now)) with
          | error e => rfl
          | ok db₁ =>
              rw [hresync] at h
              exact absurd rfl (h _)

/-- For every database, every directory and every name without a local account:
    a login that succeeds leaves a directory account that has the role of the
    directory on every scope and no other role, answers with these roles, and
    touches nobody else; any other login leaves the database as it was. -/
theorem login_follows_directory (env : AuthEnv) (username password : String)
    (now : Time) (db : Database) (h : localAccount db username = false) :
    (∀ user, (authenticate env username password now db).1 = .ok (some user) →
      ∃ result, Ldap.authenticate env username password = .ok (some result) ∧
        FollowsDirectory db (authenticate env username password now db).2
          username result.role user) ∧
    ((∀ user, (authenticate env username password now db).1
        ≠ .ok (some user)) →
      (authenticate env username password now db).2 = db) := by
  rcases CvSource.authenticate_eq env username password now db with
    ⟨entry, hget, hsource, -⟩ | ⟨hsource, heq⟩
  · rw [localAccount, hget] at h
    exact absurd hsource (of_decide_eq_false h)
  · rw [heq]
    constructor
    · intro user hdone
      exact followsDirectory_of_done hsource (Prod.ext hdone rfl)
    · exact authenticateLdap_refused

/-- The directory, when the group of `ada` gives the role of a viewer. -/
def viewersOnly : AuthEnv :=
  { oneEntry with
    settings := { oneEntry.settings with
      adminGroupDn := "CN=Owners,DC=corp"
      viewerGroupDn := "CN=Admins,DC=corp" } }

/-- `ada` has been an administrator, before `prod` was registered. -/
def adaAdmin : Database :=
  { Database.fresh with
    registeredClusters := Table.empty.put ⟨"prod", "https://a", "ca", "t"⟩
    localUsers := Table.empty.put ⟨"ada", none, .ldap, none, none, none⟩
    scopeRoleAssignments := (Table.empty.put
      ⟨"ada", instanceScope, .admin⟩).put ⟨"ada", localCluster, .admin⟩ }

/-- `ada` logs in, and is a viewer on every scope. -/
theorem login_ada :
    ∃ user, FollowsDirectory adaAdmin
      (authenticate viewersOnly "ada" "pw" Time.epoch adaAdmin).2 "ada"
      .viewer user := by
  obtain ⟨user, hdone⟩ : ∃ user,
      (authenticate viewersOnly "ada" "pw" Time.epoch adaAdmin).1
        = .ok (some user) := ⟨_, rfl⟩
  obtain ⟨result, hldap, hfollows⟩ := (login_follows_directory viewersOnly
    "ada" "pw" Time.epoch adaAdmin rfl).1 user hdone
  have hrole : result.role = .viewer := by
    have hviewer : Ldap.authenticate viewersOnly "ada" "pw"
        = .ok (some ⟨"ada", .viewer⟩) := rfl
    rw [hviewer] at hldap
    rw [← Option.some.inj (Except.ok.inj hldap)]
  exact ⟨user, hrole ▸ hfollows⟩

end CvDirectory
