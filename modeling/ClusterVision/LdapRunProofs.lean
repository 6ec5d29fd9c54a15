import ClusterVision.LdapService

/-! # A login, call by call

    What the parts of `ldap_service.authenticate` come to against a directory.
    The whole is one step: the entry that a login is verified against, and the
    role that its groups give. -/

namespace CvLdap

open CvProg CvKube CvBackend CvAuth

variable {env : AuthEnv} {d : Directory} {username password : String}

/-! ## The parts -/

theorem run_ldap (op : LdapOp) (s : Unit) :
    (ldap op).run d.answer s = d.answer op s := Prog.run_perform d.answer op s

/-- A `try` whose body returns. -/
theorem run_orReturn_ok {α : Type} {p : Dir α} {a : α}
    (h : p.run d.answer () = (.ok a, ())) :
    (orReturn p).run d.answer () = (.ok (some a), ()) := by
  rw [orReturn, Prog.run_catching, Prog.run_map, h]
  rfl

/-- A `try` whose body raises `LDAPException`. -/
theorem run_orReturn_raise {α : Type} {p : Dir α}
    (h : p.run d.answer () = (.error .ldapException, ())) :
    (orReturn p).run d.answer () = (.ok none, ()) := by
  rw [orReturn, Prog.run_catching, Prog.run_map, h]
  rfl

theorem run_serviceBind :
    (orReturn (ldap .serviceBind)).run d.answer ()
      = (.ok (if d.serviceBind = true then some () else none), ()) := by
  by_cases hbind : d.serviceBind = true
  · rw [if_pos hbind]
    refine run_orReturn_ok ?_
    rw [run_ldap, Directory.answer, hbind]
    rfl
  · rw [if_neg hbind]
    refine run_orReturn_raise ?_
    rw [run_ldap, Directory.answer, Bool.not_eq_true _ |>.mp hbind]
    rfl

theorem run_verifyPassword (dn : String) :
    (verifyPassword dn password).run d.answer ()
      = (.ok (if d.bind dn password = true then some () else none), ()) := by
  rw [verifyPassword]
  by_cases hbind : d.bind dn password = true
  · rw [if_pos hbind]
    refine run_orReturn_ok ?_
    rw [Prog.run_bind, run_ldap, Directory.answer, hbind]
    rfl
  · rw [if_neg hbind]
    refine run_orReturn_raise ?_
    rw [Prog.run_bind, run_ldap, Directory.answer,
      Bool.not_eq_true _ |>.mp hbind]
    rfl

/-- The `finally` of the search lets its exception through. -/
theorem run_firstEntry :
    (firstEntry env username).run d.answer ()
      = ((env.lib.format env.settings.userSearchFilter
          (env.lib.escapeFilterChars username)).bind (fun searchFilter =>
            (d.search env.settings.userSearchBase searchFilter).map
              List.head?), ()) := by
  rw [firstEntry, Prog.run_ensuring, Prog.run_bind, Prog.run_ofExcept]
  cases env.lib.format env.settings.userSearchFilter
      (env.lib.escapeFilterChars username) with
  | error e => rfl
  | ok searchFilter =>
      rw [Prog.andThen_ok, Prog.run_bind, run_ldap, Directory.answer]
      change _ = ((d.search env.settings.userSearchBase searchFilter).map
        List.head?, ())
      cases d.search env.settings.userSearchBase searchFilter with
      | error e => rfl
      | ok entries => rfl

/-! ## The whole -/

/-- What is left of a login once the first entry is known. -/
def finish (env : AuthEnv) (bind : String → String → Bool)
    (username password : String) :
    Option LdapEntry → Option Ldap.LdapAuthResult
  | none => none
  | some entry =>
      if bind entry.dn password = true then
        (Ldap.roleOf env entry.memberOf).map (fun role => ⟨username, role⟩)
      else none

/-- A login whose server object is there, to its end. -/
theorem run_asked (henabled : env.settings.enabled = true)
    (hpassword : password ≠ "") (hserver : d.server = true) :
    ((authenticate env username password).run d.answer ()).1
      = if d.serviceBind = true then
          ((env.lib.format env.settings.userSearchFilter
            (env.lib.escapeFilterChars username)).bind (fun searchFilter =>
              (d.search env.settings.userSearchBase searchFilter).map
                List.head?)).map (finish env d.bind username password)
        else .ok none := by
  rw [authenticate, if_neg (by rw [henabled]; nofun), if_neg hpassword,
    Prog.run_bind, run_ldap, Directory.answer, hserver]
  -- the first `try`; without a service bind nothing is searched
  change (Prog.run d.answer (_ >>= _) ()).1 = _
  rw [Prog.run_bind, run_serviceBind, Prog.andThen_ok]
  by_cases hbind : d.serviceBind = true
  · rw [if_pos hbind, if_pos hbind, Prog.run_bind, run_firstEntry]
    cases (env.lib.format env.settings.userSearchFilter
        (env.lib.escapeFilterChars username)).bind _ with
    | error e => rfl
    | ok found =>
        rw [Prog.andThen_ok]
        cases found with
        | none => rfl
        | some entry =>
            -- the last `try`, for the entry that was found first
            change (Prog.run d.answer (_ >>= _) ()).1 = _
            rw [Prog.run_bind, run_verifyPassword, Prog.andThen_ok]
            change _ = Except.ok (ite _ _ _)
            by_cases huser : d.bind entry.dn password = true
            · rw [if_pos huser, if_pos huser]
              rfl
            · rw [if_neg huser, if_neg huser]
              rfl
  · rw [if_neg hbind, if_neg hbind]
    rfl

/-- A login that is refused before anything is asked. -/
theorem run_unasked
    (h : ¬ (env.settings.enabled = true ∧ password ≠ "")) :
    ((authenticate env username password).run d.answer ()).1 = .ok none := by
  rw [authenticate]
  by_cases henabled : env.settings.enabled = false
  · rw [if_pos henabled]
    rfl
  · have hempty : password = "" :=
      not_not.mp (fun hne => h ⟨Bool.not_eq_false _ |>.mp henabled, hne⟩)
    rw [if_neg henabled, if_pos hempty]
    rfl

/-- A login to a server whose settings ldap3 refuses. -/
theorem run_refused (henabled : env.settings.enabled = true)
    (hpassword : password ≠ "") (hserver : d.server = false) :
    ((authenticate env username password).run d.answer ()).1
      = .error .ldapException := by
  rw [authenticate, if_neg (by rw [henabled]; nofun), if_neg hpassword,
    Prog.run_bind, run_ldap, Directory.answer, hserver]
  rfl

end CvLdap

namespace CvAuth

open CvProg CvKube CvBackend CvLdap

variable (env : AuthEnv)

/-- The entry that a login is verified against: the first one found for the
    name, if the password is its. -/
def Ldap.boundEntry (username password : String) :
    Except Exn (Option LdapEntry) :=
  if env.settings.enabled = true ∧ password ≠ "" then
    if env.directory.server = false then .error .ldapException
    else if env.directory.serviceBind = true then
      ((env.lib.format env.settings.userSearchFilter
        (env.lib.escapeFilterChars username)).bind (fun searchFilter =>
          (env.directory.search env.settings.userSearchBase searchFilter).map
            List.head?)).map
        (Option.filter (fun entry => env.directory.bind entry.dn password))
    else .ok none
  else .ok none

/-- A login ends with the role of that entry, if its groups give one. -/
theorem Ldap.authenticate_eq (username password : String) :
    Ldap.authenticate env username password
      = (boundEntry env username password).map (fun bound =>
          bound.bind (fun entry =>
            (roleOf env entry.memberOf).map (fun role => ⟨username, role⟩))) :=
    by
  rw [Ldap.authenticate, Ldap.boundEntry]
  by_cases hasked : env.settings.enabled = true ∧ password ≠ ""
  · rw [if_pos hasked]
    by_cases hserver : env.directory.server = false
    · rw [if_pos hserver, run_refused hasked.1 hasked.2 hserver]
      rfl
    · rw [if_neg hserver, run_asked hasked.1 hasked.2
        (Bool.not_eq_false _ |>.mp hserver)]
      by_cases hbind : env.directory.serviceBind = true
      · rw [if_pos hbind, if_pos hbind]
        cases (env.lib.format env.settings.userSearchFilter
            (env.lib.escapeFilterChars username)).bind _ with
        | error e => rfl
        | ok found =>
            cases found with
            | none => rfl
            | some entry =>
                -- a bind that fails and groups without a role give nothing
                show Except.ok (finish env _ _ _ _)
                  = Except.ok (Option.bind (Option.filter _ _) _)
                rw [finish, Option.filter]
                by_cases huser : env.directory.bind entry.dn password = true
                · rw [if_pos huser, if_pos huser]
                  rfl
                · rw [if_neg huser, if_neg huser]
                  rfl
      · rw [if_neg hbind, if_neg hbind]
        rfl
  · rw [if_neg hasked, run_unasked hasked]
    rfl

end CvAuth
