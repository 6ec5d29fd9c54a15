import ClusterVision.OneAccountProofs

/-! # Logins that the directory fails

    `authenticate` says that it returns `None` on any failure.  Its three
    remote operations are in three `try` statements, and the one around the
    search has a `finally` but no `except`.  The main result says for which
    answers of the directory the promise is kept. -/

namespace CvLdap

open CvProg CvKube CvBackend CvAuth

/-! ## What a login should be -/

/-- How a directory behaves: does ldap3 take the settings of the server, and
    which of the three operations succeed; one that does not raises
    `LDAPException`. -/
structure Replies where
  server : Bool := true
  serviceBind : Bool
  search : String → String → Option (List LdapEntry)
  userBind : String → String → Bool

/-- Such a directory. -/
def Replies.directory (r : Replies) : Directory where
  server := r.server
  serviceBind := r.serviceBind
  search := fun base searchFilter => orRaise (r.search base searchFilter)
  bind := r.userBind

variable (env : AuthEnv)

/-- How `authenticate` ends. -/
def result (r : Replies) (username password : String) :
    Except Exn (Option Ldap.LdapAuthResult) :=
  Ldap.authenticate { env with directory := r.directory } username password

/-- The calls that it makes. -/
def calls (r : Replies) (username password : String) : List LdapOp :=
  ((authenticate env username password).trace r.directory.answer ()).map
    Event.op

/-- The directory vouches for a login: what the filter finds first can bind
    with the password. -/
structure Vouched (env : AuthEnv) (r : Replies) (searchFilter password : String)
    (entry : LdapEntry) : Prop where
  enabled : env.settings.enabled = true
  nonEmpty : password ≠ ""
  serviceBind : r.serviceBind = true
  found : ∃ rest, r.search env.settings.userSearchBase searchFilter
    = some (entry :: rest)
  userBind : r.userBind entry.dn password = true

/-- The groups are an administrator's. -/
def AdminGroup (settings : LdapSettings) (groups : List String) : Prop :=
  settings.adminGroupDn ≠ "" ∧ settings.adminGroupDn ∈ groups

/-- The groups are those of somebody who may look. -/
def ViewerGroup (settings : LdapSettings) (groups : List String) : Prop :=
  settings.viewerGroupDn = "" ∨ settings.viewerGroupDn ∈ groups

/-- The groups give a role. -/
def GroupRole (settings : LdapSettings) (groups : List String) : Role → Prop
  | .admin => AdminGroup settings groups
  | .viewer => ¬ AdminGroup settings groups ∧ ViewerGroup settings groups
  | _ => False

/-- `authenticate` never raises, returns a result exactly when the directory
    vouches for the login and the groups give its role, and never binds with an
    empty password. -/
structure FailClosed (env : AuthEnv) (r : Replies)
    (searchFilter username password : String) : Prop where
  total : ∃ found, result env r username password = .ok found
  vouched : ∀ a, result env r username password = .ok (some a) ↔
    a.username = username ∧ ∃ entry,
      Vouched env r searchFilter password entry ∧
        GroupRole env.settings entry.memberOf a.role
  bindsWithPassword : ∀ dn,
    LdapOp.userBind dn "" ∉ calls env r username password

/-- An `LDAPException` leaves a call that no `except` is around: ldap3 refuses
    the settings of the server, or the search fails. -/
def Uncaught (env : AuthEnv) (r : Replies) (searchFilter password : String) :
    Prop :=
  env.settings.enabled = true ∧ password ≠ "" ∧
    (r.server = false ∨ r.serviceBind = true ∧
      r.search env.settings.userSearchBase searchFilter = none)

variable {env : AuthEnv} {r : Replies} {username password : String}

/-- A login whose server object is there, to its end. -/
theorem result_eq (henabled : env.settings.enabled = true)
    (hpassword : password ≠ "") (hserver : r.server = true) :
    result env r username password
      = if r.serviceBind = true then
          ((env.lib.format env.settings.userSearchFilter
            (env.lib.escapeFilterChars username)).bind (fun searchFilter =>
              (orRaise (r.search env.settings.userSearchBase
                searchFilter)).map List.head?)).map
            (finish env r.userBind username password)
        else .ok none := by
  show ((authenticate env username password).run r.directory.answer ()).1 = _
  exact run_asked henabled hpassword hserver

/-- A login that is refused before anything is asked. -/
theorem result_unasked
    (h : ¬ (env.settings.enabled = true ∧ password ≠ "")) :
    result env r username password = .ok none := by
  show ((authenticate env username password).run r.directory.answer ()).1 = _
  exact run_unasked h

/-- ldap3 refuses the settings of the server. -/
theorem result_refused (henabled : env.settings.enabled = true)
    (hpassword : password ≠ "") (hserver : r.server = false) :
    result env r username password = .error .ldapException := by
  show ((authenticate env username password).run r.directory.answer ()).1 = _
  exact run_refused henabled hpassword hserver

/-! ## What the answers decide -/

theorem roleOf_eq_some_iff (groups : List String) (role : Role) :
    Ldap.roleOf env groups = some role
      ↔ GroupRole env.settings groups role := by
  rw [Ldap.roleOf]
  by_cases hadmin : env.settings.adminGroupDn ≠ "" ∧
      env.settings.adminGroupDn ∈ groups
  · rw [if_pos hadmin, Option.some.injEq]
    cases role with
    | admin => exact iff_of_true rfl hadmin
    | viewer => exact iff_of_false nofun (fun h => h.1 hadmin)
    | operator => exact iff_of_false nofun id
    | approver => exact iff_of_false nofun id
  · rw [if_neg hadmin]
    by_cases hviewer : env.settings.viewerGroupDn = "" ∨
        env.settings.viewerGroupDn ∈ groups
    · rw [if_pos hviewer, Option.some.injEq]
      cases role with
      | admin => exact iff_of_false nofun hadmin
      | viewer => exact iff_of_true rfl ⟨hadmin, hviewer⟩
      | operator => exact iff_of_false nofun id
      | approver => exact iff_of_false nofun id
    · rw [if_neg hviewer]
      refine iff_of_false nofun ?_
      cases role with
      | admin => exact hadmin
      | viewer => exact fun h => hviewer h.2
      | operator => exact id
      | approver => exact id

theorem finish_eq_some_iff (found : Option LdapEntry)
    (a : Ldap.LdapAuthResult) :
    finish env r.userBind username password found = some a ↔
      ∃ entry, found = some entry ∧ r.userBind entry.dn password = true ∧
        a.username = username ∧
        GroupRole env.settings entry.memberOf a.role := by
  cases found with
  | none =>
      refine iff_of_false ?_ ?_
      · intro h
        cases h
      · rintro ⟨entry, h, -⟩
        cases h
  | some entry =>
      rw [finish]
      by_cases huser : r.userBind entry.dn password = true
      · rw [if_pos huser, Option.map_eq_some_iff]
        constructor
        · rintro ⟨role, hrole, rfl⟩
          exact ⟨entry, rfl, huser, rfl, (roleOf_eq_some_iff ..).mp hrole⟩
        · rintro ⟨entry', hentry, -, hname, hrole⟩
          cases hentry
          subst hname
          exact ⟨a.role, (roleOf_eq_some_iff ..).mpr hrole, rfl⟩
      · rw [if_neg huser]
        refine iff_of_false (by intro h; cases h) ?_
        rintro ⟨entry', hentry, hyes, -⟩
        cases hentry
        exact huser hyes

/-- The exception leaves the function. -/
theorem result_uncaught {searchFilter : String}
    (hformat : env.lib.format env.settings.userSearchFilter
      (env.lib.escapeFilterChars username) = .ok searchFilter)
    (h : Uncaught env r searchFilter password) :
    result env r username password = .error .ldapException := by
  obtain ⟨henabled, hpassword, hrefused⟩ := h
  cases hserver : r.server with
  | false => exact result_refused henabled hpassword hserver
  | true =>
      obtain ⟨hbind, hsearch⟩ :=
        hrefused.resolve_left (by rw [hserver]; nofun)
      rw [result_eq henabled hpassword hserver, if_pos hbind, hformat]
      change ((orRaise _).map List.head?).map _ = _
      rw [hsearch]
      rfl

/-- Otherwise the function returns what the first entry, if any, gives; and it
    is the one that can be vouched for. -/
theorem result_caught {searchFilter : String}
    (hformat : env.lib.format env.settings.userSearchFilter
      (env.lib.escapeFilterChars username) = .ok searchFilter)
    (h : ¬ Uncaught env r searchFilter password) :
    ∃ found,
      result env r username password
          = .ok (finish env r.userBind username password found) ∧
        ∀ entry, Vouched env r searchFilter password entry ↔
          found = some entry ∧ r.userBind entry.dn password = true := by
  by_cases hasked : env.settings.enabled = true ∧ password ≠ ""
  · obtain ⟨henabled, hpassword⟩ := hasked
    cases hserver : r.server with
    | false => exact absurd ⟨henabled, hpassword, Or.inl hserver⟩ h
    | true =>
        rw [result_eq henabled hpassword hserver, hformat]
        by_cases hbind : r.serviceBind = true
        · rw [if_pos hbind]
          change ∃ found, ((orRaise _).map List.head?).map _ = _ ∧ _
          cases hsearch : r.search env.settings.userSearchBase
              searchFilter with
          | none =>
              exact absurd ⟨henabled, hpassword, Or.inr ⟨hbind, hsearch⟩⟩ h
          | some entries =>
              refine ⟨entries.head?, rfl, fun entry => ⟨?_, ?_⟩⟩
              · intro hv
                obtain ⟨rest, hfound⟩ := hv.found
                rw [hsearch] at hfound
                rw [Option.some.inj hfound]
                exact ⟨rfl, hv.userBind⟩
              · rintro ⟨hhead, huser⟩
                refine ⟨henabled, hpassword, hbind, ⟨entries.tail, ?_⟩, huser⟩
                rw [hsearch, List.cons_head?_tail hhead]
        · rw [if_neg hbind]
          refine ⟨none, rfl, fun entry => iff_of_false ?_ ?_⟩
          · exact fun hv => hbind hv.serviceBind
          · exact fun hno => nomatch hno.1
  · refine ⟨none, result_unasked hasked, fun entry => iff_of_false ?_ ?_⟩
    · exact fun hv => hasked ⟨hv.enabled, hv.nonEmpty⟩
    · exact fun hno => nomatch hno.1

/-! ## Passwords -/

/-- A call that is not a bind without a password. -/
def WithPassword : LdapOp → Prop
  | .userBind _ password => password ≠ ""
  | _ => True

theorem uses_orReturn {α : Type} {P : LdapOp → Prop} {p : Dir α}
    (hp : p.Uses P) : (orReturn p).Uses P := by
  refine Prog.uses_catching ?_ (fun e => ?_)
  · rw [map_eq_pure_bind]
    exact Prog.uses_bind hp (fun _ => Prog.uses_pure _)
  · exact Prog.uses_ite (Prog.uses_pure _) (Prog.uses_throw _)

theorem uses_firstEntry : (firstEntry env username).Uses WithPassword := by
  refine Prog.uses_ensuring ?_ (Prog.uses_perform trivial)
  refine Prog.uses_bind (Prog.uses_ofExcept _) (fun searchFilter => ?_)
  exact Prog.uses_bind (Prog.uses_perform trivial)
    (fun _ => Prog.uses_pure _)

theorem uses_verifyPassword (dn : String) (hpassword : password ≠ "") :
    (verifyPassword dn password).Uses WithPassword :=
  uses_orReturn (Prog.uses_bind (Prog.uses_perform hpassword)
    (fun _ => Prog.uses_perform trivial))

/-- Whatever the directory answers, the guard at the start keeps an empty
    password from it. -/
theorem uses_authenticate :
    (authenticate env username password).Uses WithPassword := by
  rw [authenticate]
  refine Prog.uses_ite (Prog.uses_pure _) ?_
  by_cases hpassword : password = ""
  · rw [if_pos hpassword]
    exact Prog.uses_pure _
  rw [if_neg hpassword]
  refine Prog.uses_bind (Prog.uses_perform trivial) (fun _ => ?_)
  refine Prog.uses_bind (uses_orReturn (Prog.uses_perform trivial))
    (fun bound => ?_)
  cases bound with
  | none => exact Prog.uses_pure _
  | some _ =>
      refine Prog.uses_bind uses_firstEntry (fun found => ?_)
      cases found with
      | none => exact Prog.uses_pure _
      | some entry =>
          refine Prog.uses_bind (uses_verifyPassword entry.dn hpassword)
            (fun verified => ?_)
          cases verified with
          | none => exact Prog.uses_pure _
          | some _ => exact Prog.uses_pure _

/-! ## The promise -/

/-- For every login, configuration and directory: `authenticate` returns, gives
    a result exactly when the directory vouches for the login and its groups
    give the role, and binds with no empty password, exactly when the settings
    of the server are accepted and a search after a service bind does not
    raise. -/
theorem failClosed_iff (env : AuthEnv) (r : Replies)
    (searchFilter username password : String)
    (hformat : env.lib.format env.settings.userSearchFilter
      (env.lib.escapeFilterChars username) = .ok searchFilter) :
    FailClosed env r searchFilter username password
      ↔ ¬ Uncaught env r searchFilter password := by
  constructor
  · intro h hraises
    obtain ⟨found, hfound⟩ := h.total
    rw [result_uncaught hformat hraises] at hfound
    exact nomatch hfound
  · intro h
    obtain ⟨found, hresult, hvouched⟩ := result_caught hformat h
    refine ⟨⟨_, hresult⟩, fun a => ?_, fun dn hmem => ?_⟩
    · rw [hresult, Except.ok.injEq, finish_eq_some_iff]
      constructor
      · rintro ⟨entry, hfound, huser, hname, hrole⟩
        exact ⟨hname, entry, (hvouched entry).mpr ⟨hfound, huser⟩, hrole⟩
      · rintro ⟨hname, entry, hv, hrole⟩
        obtain ⟨hfound, huser⟩ := (hvouched entry).mp hv
        exact ⟨entry, hfound, huser, hname, hrole⟩
    · obtain ⟨ev, hev, hop⟩ := List.mem_map.mp hmem
      have hpassword := uses_authenticate.trace r.directory.answer () ev hev
      rw [hop] at hpassword
      exact hpassword rfl

/-- Ada's directory, when it answers. -/
def adasReplies : Replies where
  serviceBind := true
  search := fun _ _ => some [⟨"CN=Ada,DC=corp", ["CN=Admins,DC=corp"]⟩]
  userBind := fun _ password => decide (password = "pw")

/-- A login there. -/
theorem failClosed_ada :
    FailClosed CvAccount.oneEntry adasReplies "(sAMAccountName=ada)" "ada"
      "pw" := by
  refine (failClosed_iff _ _ _ _ _ rfl).mpr ?_
  rintro ⟨-, -, hserver | ⟨-, hsearch⟩⟩
  · cases hserver
  · cases hsearch

/-- The connection breaks between the service bind and the search. -/
theorem search_raises :
    ¬ FailClosed CvAccount.oneEntry
      { adasReplies with search := fun _ _ => none }
      "(sAMAccountName=ada)" "ada" "pw" := by
  intro h
  obtain ⟨found, hfound⟩ := h.total
  exact nomatch (show Except.error Exn.ldapException = Except.ok found
    from hfound)

end CvLdap
