import ClusterVision.LdapRunProofs
import ClusterVision.ScopeRoleProofs
import ClusterVision.AccessRequestProofs

/-! # One person, one account

    A login is verified against an entry of the directory, but the account is
    the text that was typed.  Two logins of one entry get one account exactly
    when they type the same text; a directory that compares names without
    regard to case finds the entry under other spellings too, and each of them
    is another account, which can approve what the first one has requested. -/

namespace CvAccount

open CvProg CvRun CvTable CvIso CvKube CvBackend CvHttp CvAccess CvAuth

/-! ## Runs -/

/-- A login that the directory has verified: what was typed, the account it
    got, and the name of the entry. -/
structure Login where
  typed : String
  username : String
  dn : String
deriving DecidableEq

/-- The world, and the logins that the directory has verified. -/
structure Site where
  world : World
  logins : List Login

/-- A login, or a call of the access request service. -/
inductive SiteStep where
  | login (username password : String)
  | call (k : JitCall)

variable (env : AuthEnv)

/-- The login at `/login`. -/
def logIn (username password : String) (w : World) :
    Except Exn (Option UserInfo) × World :=
  let p := authenticate env username password (w.clock w.tick) w.db
  (p.1, { (w.setDb p.2) with tick := w.tick + 1 })

/-- Does the name have a local account? -/
def localAccount (db : Database) (username : String) : Bool :=
  match db.localUsers.get username with
  | none => false
  | some entry => decide (entry.source = .local)

/-- The login, if the directory has verified it. -/
def verifiedLogin (username password : String) (w : World) : List Login :=
  if localAccount w.db username = true then []
  else
    match (logIn env username password w).1,
        Ldap.boundEntry env username password with
    | .ok (some user), .ok (some entry) =>
        [⟨username, user.username, entry.dn⟩]
    | _, _ => []

/-- What happens next. -/
def siteStep : SiteStep → Site → Site
  | .login username password, s =>
      ⟨(logIn env username password s.world).2,
        verifiedLogin env username password s.world ++ s.logins⟩
  | .call k, s => ⟨jitStep k s.world, s.logins⟩

/-- Two logins of one entry have the same account. -/
def OneAccount (s : Site) : Prop :=
  ∀ l ∈ s.logins, ∀ l' ∈ s.logins, l.dn = l'.dn → l.username = l'.username

/-- An approved request whose requester and reviewer have both logged in
    through the directory is one of two different entries. -/
def TwoPeople (s : Site) : Prop :=
  ∀ id r, s.world.db.accessRequests.get id = some r → r.status = .approved →
    ∀ l ∈ s.logins, ∀ l' ∈ s.logins, l.username = r.requester →
      r.reviewedBy = some l'.username → l.dn ≠ l'.dn

/-- The directory verifies this login, and it is not refused for another
    reason. -/
structure Verified (w : World) (username password : String)
    (entry : LdapEntry) : Prop where
  notLocal : localAccount w.db username = false
  bound : Ldap.boundEntry env username password = .ok (some entry)
  allowed : Ldap.roleOf env entry.memberOf ≠ none
  scopes : (allScopes w.db).Nodup

/-- A login that the directory verifies types what every earlier login of the
    same entry has typed. -/
def SameText (s : Site) : SiteStep → Prop
  | .login username password =>
      ∀ entry, Verified env s.world username password entry →
        ∀ l ∈ s.logins, l.dn = entry.dn → l.typed = username
  | .call _ => True

/-! ## Logins -/

/-- New assignments go through when their scopes are distinct and not there
    yet. -/
theorem assignScopes_ok_iff (username : String) (role : Role)
    (scopes : List String) : ∀ t : Assignments,
      (∃ t', assignScopes username role scopes t = .ok t') ↔
        scopes.Nodup ∧ ∀ scope ∈ scopes, t.get (username, scope) = none := by
  induction scopes with
  | nil => exact fun t => ⟨fun _ => ⟨List.nodup_nil, nofun⟩, fun _ => ⟨t, rfl⟩⟩
  | cons scope scopes ih =>
      intro t
      rw [assignScopes]
      cases hget : t.get (username, scope) with
      | some a =>
          refine iff_of_false ?_ ?_
          · rintro ⟨t', ht'⟩
            exact nomatch ht'
          · rintro ⟨-, hfree⟩
            have hnone := hfree scope (List.mem_cons_self ..)
            rw [hget] at hnone
            exact nomatch hnone
      | none =>
          have hput : ∀ s, (t.put ⟨username, scope, role⟩).get (username, s)
              = if s = scope then some ⟨username, scope, role⟩
                else t.get (username, s) := by
            intro s
            rw [Table.get_put]
            by_cases hs : s = scope
            · rw [if_pos hs, if_pos (by rw [hs]; rfl)]
            · rw [if_neg hs, if_neg (fun h => hs (congrArg Prod.snd h))]
          show (∃ t', assignScopes username role scopes
            (t.put ⟨username, scope, role⟩) = .ok t') ↔ _
          rw [ih, List.nodup_cons]
          constructor
          · rintro ⟨hnodup, hfree⟩
            have hnew : scope ∉ scopes := by
              intro hmem
              have hnone := hfree scope hmem
              rw [hput, if_pos rfl] at hnone
              exact nomatch hnone
            refine ⟨⟨hnew, hnodup⟩, ?_⟩
            intro s hs
            rcases List.mem_cons.mp hs with rfl | hs
            · exact hget
            · have hnone := hfree s hs
              have hne : s ≠ scope := fun h => hnew (by rwa [← h])
              rw [hput, if_neg hne] at hnone
              exact hnone
          · rintro ⟨⟨hnew, hnodup⟩, hfree⟩
            refine ⟨hnodup, ?_⟩
            intro s hs
            have hne : s ≠ scope := fun h => hnew (by rwa [← h])
            rw [hput, if_neg hne]
            exact hfree s (List.mem_cons_of_mem _ hs)

/-- Without the rows of a name the others stay. -/
theorem get_keepOthers (username name scope : String) (t : Assignments) :
    (t.keep (fun a => decide (a.username ≠ username))).get (name, scope)
      = if name = username then none else t.get (name, scope) := by
  by_cases hname : name = username
  · rw [if_pos hname, Table.get_eq_none_iff]
    intro a ha hkey
    exact of_decide_eq_true (Table.mem_keep.mp ha).2
      ((congrArg Prod.fst hkey).trans hname)
  · rw [if_neg hname, Table.get_keep_eq]
    cases hget : t.get (name, scope) with
    | none => rfl
    | some a =>
        have hkey : a.username = name :=
          congrArg Prod.fst (Table.key_of_get hget)
        rw [Option.filter_some, if_pos]
        rw [hkey]
        exact decide_eq_true hname

/-- The roles of a name can be replaced exactly when the scopes are
    distinct. -/
theorem resyncLdapRoles_ok_iff (username : String) (role : Role)
    (db : Database) :
    (∃ db', resyncLdapRoles username role db = .ok db')
      ↔ (allScopes db).Nodup := by
  have hfree : ∀ scope, (db.scopeRoleAssignments.keep
      (fun a => decide (a.username ≠ username))).get (username, scope)
        = none := by
    intro scope
    rw [get_keepOthers, if_pos rfl]
  have hassign := assignScopes_ok_iff username role (allScopes db)
    (db.scopeRoleAssignments.keep (fun a => decide (a.username ≠ username)))
  rw [resyncLdapRoles]
  constructor
  · rintro ⟨db', hdb'⟩
    cases ht : assignScopes username role (allScopes db)
        (db.scopeRoleAssignments.keep
          (fun a => decide (a.username ≠ username))) with
    | error e =>
        rw [ht] at hdb'
        exact nomatch hdb'
    | ok t => exact (hassign.mp ⟨t, ht⟩).1
  · intro hnodup
    obtain ⟨t, ht⟩ := hassign.mpr ⟨hnodup, fun scope _ => hfree scope⟩
    rw [ht]
    exact ⟨_, rfl⟩

/-- A login without a local account goes to the directory. -/
theorem logIn_of_notLocal {username : String} (password : String) {w : World}
    (h : localAccount w.db username = false) :
    (logIn env username password w).1
      = (authenticateLdap env (w.db.localUsers.get username) username password
          (w.clock w.tick) w.db).1 := by
  rw [localAccount] at h
  show (authenticate env username password _ _).1 = _
  rw [authenticate]
  cases hget : w.db.localUsers.get username with
  | none => rfl
  | some entry =>
      rw [hget] at h
      exact congrArg Prod.fst (if_neg (of_decide_eq_false h))

/-- The logins that count are those of `Verified`, and their account is the
    text that was typed. -/
theorem verifiedLogin_spec (username password : String) (w : World) :
    (∃ entry, Verified env w username password entry ∧
        verifiedLogin env username password w
          = [⟨username, username, entry.dn⟩]) ∨
      verifiedLogin env username password w = [] ∧
        ∀ entry, ¬ Verified env w username password entry := by
  rw [verifiedLogin]
  cases hlocal : localAccount w.db username with
  | true =>
      rw [if_pos rfl]
      refine Or.inr ⟨rfl, fun entry h => ?_⟩
      have hno := h.notLocal
      rw [hlocal] at hno
      exact nomatch hno
  | false =>
      rw [if_neg nofun, logIn_of_notLocal env password hlocal,
        authenticateLdap, Ldap.authenticate_eq]
      -- each way out of the LDAP path breaks one field of `Verified`
      cases hbound : Ldap.boundEntry env username password with
      | error e =>
          refine Or.inr ⟨rfl, fun entry h => ?_⟩
          have hb := h.bound
          rw [hbound] at hb
          exact nomatch hb
      | ok found =>
          cases found with
          | none =>
              refine Or.inr ⟨?_, fun entry h => ?_⟩
              · cases env.lib.verifyPassword password dummyHash <;> rfl
              · have hb := h.bound
                rw [hbound] at hb
                exact nomatch hb
          | some entry =>
              cases hrole : Ldap.roleOf env entry.memberOf with
              | none =>
                  simp only [Except.map, Option.bind_some, hrole,
                    Option.map_none]
                  refine Or.inr ⟨?_, fun entry' h => ?_⟩
                  · cases env.lib.verifyPassword password dummyHash <;> rfl
                  · have hb := h.bound
                    rw [hbound] at hb
                    cases hb
                    exact h.allowed hrole
              | some role =>
                  simp only [Except.map, Option.bind_some, hrole,
                    Option.map_some]
                  have hscopes := resyncLdapRoles_ok_iff username role
                    (withAccount w.db (provisioned
                      (w.db.localUsers.get username) username
                      (w.clock w.tick)))
                  cases hresync : resyncLdapRoles username role
                      (withAccount w.db (provisioned
                        (w.db.localUsers.get username) username
                        (w.clock w.tick))) with
                  | error e =>
                      refine Or.inr ⟨rfl, fun entry' h => ?_⟩
                      obtain ⟨db', hdb'⟩ := hscopes.mpr h.scopes
                      rw [hresync] at hdb'
                      exact nomatch hdb'
                  | ok db' =>
                      refine Or.inl ⟨entry, ⟨hlocal, hbound, ?_,
                        hscopes.mp ⟨db', hresync⟩⟩, rfl⟩
                      rw [hrole]
                      exact Option.some_ne_none role

/-! ## Approvals -/

/-- No request was approved by its requester. -/
def FourEyes (w : World) : Prop :=
  ∀ id r, w.db.accessRequests.get id = some r → r.status = .approved →
    r.reviewedBy ≠ some r.requester

/-- The guard of `approve_request` keeps it so. -/
theorem fourEyes_jitStep {w : World} (hw : FourEyes w) (k : JitCall) :
    FourEyes (jitStep k w) := by
  intro id r hget happroved
  have heffect := jitCall_rowEffect k w id
  rw [hget] at heffect
  generalize hrow : some r = row at heffect
  cases heffect with
  | same => exact hw id r hrow.symm happroved
  | requested free inNamespace =>
      cases hrow
      exact nomatch happroved
  | approved approvable =>
      cases hrow
      exact fun h => approvable.other (Option.some.inj h).symm
  | denied stored pending =>
      cases hrow
      exact nomatch happroved
  | revoked stored active =>
      cases hrow
      exact nomatch happroved
  | expired stored active late =>
      cases hrow
      exact nomatch happroved

/-- A login touches no request. -/
theorem fourEyes_logIn {w : World} (hw : FourEyes w)
    (username password : String) :
    FourEyes (logIn env username password w).2 := by
  have hrequests : (authenticate env username password (w.clock w.tick)
      w.db).2.accessRequests = w.db.accessRequests := by
    have hldap : ∀ entry, (authenticateLdap env entry username password
        (w.clock w.tick) w.db).2.accessRequests = w.db.accessRequests := by
      intro entry
      rw [authenticateLdap]
      cases Ldap.authenticate env username password with
      | error e => rfl
      | ok found =>
          cases found with
          | none => cases env.lib.verifyPassword password dummyHash <;> rfl
          | some result =>
              simp only [resyncLdapRoles]
              cases assignScopes username result.role _ _ <;> rfl
    rw [authenticate]
    cases w.db.localUsers.get username with
    | none => exact hldap none
    | some entry =>
        by_cases hsource : entry.source = .local
        · simp only [hsource, if_true, authenticateLocal]
          cases env.lib.verifyPassword password (LocalUser.hash entry) with
          | error e => rfl
          | ok b => cases b <;> rfl
        · simp only [hsource, if_false]
          exact hldap (some entry)
  intro id r hget
  have hget' : (authenticate env username password (w.clock w.tick)
      w.db).2.accessRequests.get id = some r := hget
  rw [hrequests] at hget'
  exact hw id r hget'

/-! ## Every run -/

/-- What holds between two steps. -/
structure Sound (s : Site) : Prop where
  fourEyes : FourEyes s.world
  typed : ∀ l ∈ s.logins, l.typed = l.username
  oneAccount : OneAccount s

/-- With one account for each entry, a second pair of eyes is a second
    entry. -/
theorem twoPeople_of_oneAccount {s : Site} (hw : FourEyes s.world)
    (h : OneAccount s) : TwoPeople s := by
  intro id r hget happroved l hl l' hl' hrequester hreviewer hdn
  have hsame : l'.username = r.requester :=
    (h l hl l' hl' hdn).symm.trans hrequester
  exact hw id r hget happroved (hsame ▸ hreviewer)

/-- Every step keeps the first two parts. -/
theorem fourEyes_siteStep {s : Site} (hs : FourEyes s.world) (a : SiteStep) :
    FourEyes (siteStep env a s).world := by
  cases a with
  | login username password => exact fourEyes_logIn env hs username password
  | call k => exact fourEyes_jitStep hs k

theorem typed_siteStep {s : Site} (hs : ∀ l ∈ s.logins, l.typed = l.username)
    (a : SiteStep) :
    ∀ l ∈ (siteStep env a s).logins, l.typed = l.username := by
  cases a with
  | call k => exact hs
  | login username password =>
      intro l hl
      rcases List.mem_append.mp hl with hl | hl
      · rcases verifiedLogin_spec env username password s.world with
          ⟨entry, -, hnew⟩ | ⟨hnone, -⟩
        · rw [hnew] at hl
          rw [List.mem_singleton.mp hl]
        · rw [hnone] at hl
          exact nomatch hl
      · exact hs l hl

/-- A step keeps one account for each entry exactly when it types the same
    text. -/
theorem oneAccount_siteStep {s : Site} (hs : Sound s) (a : SiteStep) :
    OneAccount (siteStep env a s) ↔ SameText env s a := by
  cases a with
  | call k => exact iff_of_true hs.oneAccount trivial
  | login username password =>
      rcases verifiedLogin_spec env username password s.world with
        ⟨entry, hverified, hnew⟩ | ⟨hnone, hno⟩
      · have hlogins : (siteStep env (.login username password) s).logins
            = ⟨username, username, entry.dn⟩ :: s.logins := by
          show verifiedLogin env username password s.world ++ s.logins = _
          rw [hnew]
          rfl
        rw [OneAccount, hlogins]
        constructor
        · intro h entry' hverified' l hl hdn
          have hentry : entry = entry' := by
            have hb := hverified.bound.symm.trans hverified'.bound
            exact Option.some.inj (Except.ok.inj hb)
          rw [← hentry] at hdn
          rw [hs.typed l hl]
          exact h l (List.mem_cons_of_mem _ hl) _ (List.mem_cons_self ..) hdn
        · intro h l hl l' hl' hdn
          rcases List.mem_cons.mp hl with rfl | hl
          · rcases List.mem_cons.mp hl' with rfl | hl'
            · rfl
            · exact (h entry hverified l' hl' hdn.symm).symm.trans
                (hs.typed l' hl')
          · rcases List.mem_cons.mp hl' with rfl | hl'
            · exact (hs.typed l hl).symm.trans (h entry hverified l hl hdn)
            · exact hs.oneAccount l hl l' hl' hdn
      · have hlogins : (siteStep env (.login username password) s).logins
            = s.logins := by
          show verifiedLogin env username password s.world ++ s.logins = _
          rw [hnone]
          rfl
        rw [OneAccount, hlogins]
        exact iff_of_true hs.oneAccount
          (fun entry hverified => absurd hverified (hno entry))

/-- In every run of logins and calls of the access request service from a state
    without requests: any two logins of one entry have one account, and every
    approved request has a requester and a reviewer that are two entries,
    exactly when all logins of one entry type the same text. -/
theorem one_account_iff (w : World)
    (hw : w.db.accessRequests = Table.empty) (steps : List SiteStep) :
    Along (siteStep env) (fun s a => OneAccount (siteStep env a s) ∧
        TwoPeople (siteStep env a s)) steps ⟨w, []⟩
      ↔ Along (siteStep env) (SameText env) steps ⟨w, []⟩ := by
  have hfour : FourEyes w := by
    intro id r hget
    rw [hw] at hget
    exact nomatch hget
  have hstart : Sound ⟨w, []⟩ := ⟨hfour, nofun, nofun⟩
  have hstep : ∀ s a, Sound s →
      OneAccount (siteStep env a s) ∧ TwoPeople (siteStep env a s) →
      Sound (siteStep env a s) :=
    fun s a hs ha => ⟨fourEyes_siteStep env hs.fourEyes a,
      typed_siteStep env hs.typed a, ha.1⟩
  refine along_congr hstep (fun s a hs => ?_) hstart steps
  rw [← oneAccount_siteStep env hs a]
  exact ⟨fun h => h.1, fun h => ⟨h, twoPeople_of_oneAccount
    (fourEyes_siteStep env hs.fourEyes a) h⟩⟩

/-- A directory with one administrator, `CN=Ada,DC=corp`, whose account name is
    compared without regard to case. -/
def oneEntry : AuthEnv where
  lib := CvScope.plainLib
  settings := ⟨true, "DC=corp", "(sAMAccountName=\x7busername\x7d)",
    "CN=Admins,DC=corp", ""⟩
  directory := {
    serviceBind := true
    search := fun _ searchFilter =>
      if searchFilter.toList.map Char.toLower
          = "(samaccountname=ada)".toList then
        .ok [⟨"CN=Ada,DC=corp", ["CN=Admins,DC=corp"]⟩]
      else .ok []
    bind := fun _ password => decide (password = "pw") }

/-- What `ada` requests. -/
def adasRequest : RequestSpec where
  requester := "ada"
  targetUsername := "ada"
  userKind := .user
  roleName := "view"
  roleKind := .clusterRole
  ttlMinutes := 60
  reason := "incident"
  ns := none
  saNamespace := none

/-- Two logins under one spelling, with a request and its approval. -/
theorem one_account_twice :
    Along (siteStep oneEntry) (fun s a => OneAccount (siteStep oneEntry a s) ∧
        TwoPeople (siteStep oneEntry a s))
      [.login "ada" "pw", .call (.createRequest adasRequest),
        .login "ada" "pw", .call (.approveRequest "local" "1" "ada")]
      ⟨World.fresh, []⟩ := by
  refine (one_account_iff oneEntry World.fresh rfl _).mpr
    ⟨?_, trivial, ?_, trivial, trivial⟩
  · exact fun entry _ l hl => nomatch hl
  · intro entry _ l hl _
    -- the second login meets the first one only
    have hlogins : (after (siteStep oneEntry)
        [.login "ada" "pw", .call (.createRequest adasRequest)]
        ⟨World.fresh, []⟩).logins = [⟨"ada", "ada", "CN=Ada,DC=corp"⟩] := rfl
    have hl : l ∈ (after (siteStep oneEntry)
        [.login "ada" "pw", .call (.createRequest adasRequest)]
        ⟨World.fresh, []⟩).logins := hl
    rw [hlogins, List.mem_singleton] at hl
    rw [hl]

/-- `CN=Ada` logs in as `ada` and makes a request, and logs in as `Ada` and
    approves it. -/
theorem self_approval :
    ¬ OneAccount (after (siteStep oneEntry)
        [.login "ada" "pw", .call (.createRequest adasRequest),
          .login "Ada" "pw", .call (.approveRequest "local" "1" "Ada")]
        ⟨World.fresh, []⟩) ∧
      ¬ TwoPeople (after (siteStep oneEntry)
        [.login "ada" "pw", .call (.createRequest adasRequest),
          .login "Ada" "pw", .call (.approveRequest "local" "1" "Ada")]
        ⟨World.fresh, []⟩) := by
  have hlogins : (after (siteStep oneEntry)
      [.login "ada" "pw", .call (.createRequest adasRequest),
        .login "Ada" "pw", .call (.approveRequest "local" "1" "Ada")]
      ⟨World.fresh, []⟩).logins
      = [⟨"Ada", "Ada", "CN=Ada,DC=corp"⟩, ⟨"ada", "ada", "CN=Ada,DC=corp"⟩] :=
    rfl
  constructor
  · intro h
    rw [OneAccount, hlogins] at h
    exact absurd (h _ (List.mem_cons_self ..) _
      (List.mem_cons_of_mem _ (List.mem_cons_self ..)) rfl) (by decide)
  · intro h
    rw [TwoPeople, hlogins] at h
    exact h "1" _ rfl rfl _ (List.mem_cons_of_mem _ (List.mem_cons_self ..)) _
      (List.mem_cons_self ..) rfl rfl rfl

end CvAccount
