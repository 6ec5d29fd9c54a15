import ClusterVision.CertificateNameProofs
import ClusterVision.HttpRunProofs
import ClusterVision.RegistryRoundTripProofs

/-! # Whom the access simulator asks about

    `check_access` looks a name up among the certificate users first and then
    among the ServiceAccount users, and takes the first one it finds.  The
    groups of a certificate user are those of the registry, which keeps them in
    one column.  The main result says for which users the API server is asked
    about the identity that it sees itself. -/

namespace CvSimulator

open CvProg CvRun CvTable CvIso CvKube CvBackend CvRbac CvRegistry CvUsers
open CvRegistration CvNames CvRoundTrip CvHttp

/-! ## Registered groups -/

/-- A world, and the groups that each certificate user was given when it was
    created or imported. -/
structure Ledger where
  world : World
  given : String → List String

/-- What a call that returns gives to whom. -/
def gives (given : String → List String) : UserCall → String → List String
  | .createCertificate _ username groups =>
      Function.update given username groups
  | .importCertificate username groups =>
      Function.update given username groups
  | _ => given

/-- The ledger after a step. -/
def ledgerStep : UserStep → Ledger → Ledger
  | .outside f keeps, s => ⟨userStep (.outside f keeps) s.world, s.given⟩
  | .call k, s =>
      ⟨userStep (.call k) s.world,
        match (k.prog.run handle s.world).1 with
        | .ok _ => gives s.given k
        | .error _ => s.given⟩

/-- The rows of the certificate users have the groups they were given. -/
def Recorded (t : Users) (given : String → List String) : Prop :=
  ∀ r ∈ t.rows, r.type = .certificate →
    r.ns = "default" ∧ r.groupsCsv = joinGroups (given r.name)

section Recording

variable {t t' : Users} {given : String → List String}

/-- A certificate user that is appended is recorded with its groups. -/
theorem recorded_of_certificate {taken : RegistryEntry → Bool}
    {user : RegistryEntry} (ht : Recorded t given)
    (h : Appended taken user t t') (hns : user.ns = "default") :
    Recorded t' (Function.update given user.name user.groups) := by
  obtain ⟨row, hrow, -, hmem⟩ := mem_of_appended h
  intro r hr htype
  rcases hmem r hr with rfl | ⟨hold, hkey⟩
  · rw [hrow.name, Function.update_self]
    exact ⟨hrow.ns.trans hns, hrow.groupsCsv⟩
  · obtain ⟨hrns, hgroups⟩ := ht r hold htype
    have hname : r.name ≠ user.name := by
      intro hname
      refine hkey ?_
      rw [ManagedUser.key, RegistryEntry.key, hrns, hns, hname]
    rw [Function.update_of_ne hname]
    exact ⟨hrns, hgroups⟩

/-- A ServiceAccount user that is appended makes no difference. -/
theorem recorded_of_account {taken : RegistryEntry → Bool}
    {user : RegistryEntry} (ht : Recorded t given)
    (h : Appended taken user t t') (htype : user.type = .serviceAccount) :
    Recorded t' given := by
  obtain ⟨row, hrow, -, hmem⟩ := mem_of_appended h
  intro r hr hcertificate
  rcases hmem r hr with rfl | ⟨hold, -⟩
  · rw [hrow.type, htype] at hcertificate
    cases hcertificate
  · exact ht r hold hcertificate

theorem recorded_of_removed {gone : RegistryEntry → Bool}
    (ht : Recorded t given) (h : Removed gone t t') : Recorded t' given := by
  intro r hr
  have hkey := h r.key
  rw [Table.get_of_mem hr] at hkey
  exact ht r (Table.mem_of_get (Option.eq_some_of_filter_eq_some hkey.symm))

/-- A call that raises leaves the registry, and one that returns ends in `E`;
    the ledger follows. -/
theorem recorded_of_ends {E : Users → Prop} {o : Except Exn Unit × World}
    {given' : String → List String} (h : Ends t E o)
    (ht : Recorded t given) (hE : ∀ t', E t' → Recorded t' given') :
    Recorded o.2.db.managedUsers
      (match o.1 with
        | .ok _ => given'
        | .error _ => given) := by
  rcases h with ⟨e, he, hsame⟩ | ⟨a, ha, hend⟩
  · rw [he, hsame]
    exact ht
  · rw [ha]
    exact hE _ hend

/-- The groups given stay when a call does not give any. -/
theorem recorded_of_leaves {E : Users → Prop} {o : Except Exn Unit × World}
    (h : Leaves t E o.2) (ht : Recorded t given)
    (hE : ∀ t', E t' → Recorded t' given) :
    Recorded o.2.db.managedUsers
      (match o.1 with
        | .ok _ => given
        | .error _ => given) := by
  have hgiven : (match o.1 with
      | .ok _ => given
      | .error _ => given) = given := by
    cases o.1 with
    | ok a => rfl
    | error e => rfl
  rw [hgiven]
  rcases h with h | h
  · rw [h]
    exact ht
  · exact hE _ h

/-- Every step keeps the record. -/
theorem recorded_step (s : Ledger) (a : UserStep)
    (hs : Recorded s.world.db.managedUsers s.given) :
    Recorded (ledgerStep a s).world.db.managedUsers (ledgerStep a s).given := by
  cases a with
  | outside f keeps =>
      show Recorded (f s.world).db.managedUsers s.given
      rw [keeps]
      exact hs
  | call k =>
      cases k with
      | createCertificate cluster username groups =>
          refine recorded_of_ends (ends_void (Certificate.createUser_ends rfl))
            hs ?_
          rintro t' ⟨now, certificate, happ⟩
          have hrecorded := recorded_of_certificate hs happ rfl
          exact hrecorded
      | importCertificate username groups =>
          refine recorded_of_ends (ends_void (Certificate.importUser_ends rfl))
            hs ?_
          rintro t' ⟨now, happ⟩
          have hrecorded := recorded_of_certificate hs happ rfl
          exact hrecorded
      | deleteCertificate cluster username =>
          exact recorded_of_leaves (Certificate.deleteUser_leaves rfl) hs
            (fun t' h => recorded_of_removed hs h)
      | createAccount cluster name ns =>
          refine recorded_of_ends
            (ends_void (ServiceAccount.createUser_ends rfl)) hs ?_
          rintro t' ⟨now, happ⟩
          exact recorded_of_account hs happ rfl
      | importAccount cluster name ns =>
          refine recorded_of_ends
            (ends_void (ServiceAccount.importUser_ends rfl)) hs ?_
          rintro t' ⟨now, happ⟩
          exact recorded_of_account hs happ rfl
      | deleteAccount cluster username ns =>
          refine recorded_of_leaves (ServiceAccount.deleteUser_leaves rfl) hs ?_
          rintro t' ⟨u, -, hremoved⟩
          exact recorded_of_removed hs hremoved

end Recording

/-- The ledger of a run that starts with an empty registry. -/
def ledgerAfter (w : World) (steps : List UserStep) : Ledger :=
  after ledgerStep steps ⟨w, fun _ => []⟩

theorem recorded_after {w : World} (hempty : w.db.managedUsers = Table.empty)
    (steps : List UserStep) :
    Recorded (ledgerAfter w steps).world.db.managedUsers
      (ledgerAfter w steps).given := by
  have hstep : ∀ (s : Ledger) (a : UserStep),
      Recorded s.world.db.managedUsers s.given →
      Recorded (ledgerStep a s).world.db.managedUsers (ledgerStep a s).given :=
    recorded_step
  have hstart : Recorded w.db.managedUsers (fun _ => []) := by
    rw [hempty]
    exact fun r hr => absurd hr List.not_mem_nil
  exact after_inv hstep hstart steps

/-! ## The lookup -/

/-- The first user of a type and a name. -/
def firstOf (t : Users) (type : UserType) (name : String) :
    Option ManagedUser :=
  t.rows.find? (fun r => decide (r.name = name ∧ r.type = type))

/-- The identity of a ServiceAccount, as the API server sees it. -/
def accountIdentity (ns name : String) : String × List String :=
  ("system:serviceaccount:" ++ ns ++ ":" ++ name,
    ["system:serviceaccounts", "system:serviceaccounts:" ++ ns,
      "system:authenticated"])

/-- What `check_access` simulates for a name. -/
def subjectOf (t : Users) (name : String) : String × List String :=
  match firstOf t .certificate name with
  | some r => (name, splitGroups r.groupsCsv ++ ["system:authenticated"])
  | none =>
      match firstOf t .serviceAccount name with
      | some r => accountIdentity r.ns name
      | none => (name, [])

section Lookup

variable {t : Users} {name : String}

theorem firstOf_spec {type : UserType} {r : ManagedUser}
    (h : firstOf t type name = some r) :
    r ∈ t.rows ∧ r.name = name ∧ r.type = type := by
  rw [firstOf] at h
  exact ⟨List.mem_of_find?_eq_some h, by simpa using List.find?_some h⟩

theorem firstOf_eq_none_iff {type : UserType} :
    firstOf t type name = none ↔
      ∀ r ∈ t.rows, ¬ (r.name = name ∧ r.type = type) := by
  rw [firstOf, List.find?_eq_none]
  simp only [decide_eq_true_eq]

theorem run_getCertificate (name : String) (w : World) :
    (Certificate.getUser name).run handle w
      = match firstOf w.db.managedUsers .certificate name with
        | some r => (.ok (toDict r), w)
        | none => (.error (.userNotFoundError name), w) := by
  have hfind : (w.db.managedUsers.rows.map toDict).find?
      (Certificate.isUser name)
        = (firstOf w.db.managedUsers .certificate name).map toDict := by
    rw [List.find?_map]
    rfl
  rw [Certificate.getUser, Prog.run_bind, run_loadRegistry, Prog.andThen_ok,
    hfind]
  cases firstOf w.db.managedUsers .certificate name with
  | some r => rfl
  | none => rfl

theorem run_getAccount (name : String) (w : World) :
    (ServiceAccount.getUser name none).run handle w
      = match firstOf w.db.managedUsers .serviceAccount name with
        | some r => (.ok (toDict r), w)
        | none => (.error (.userNotFoundError name), w) := by
  have hfind : (w.db.managedUsers.rows.map toDict).find?
      (fun u => decide (u.name = name ∧ u.type = .serviceAccount ∧
        ((none : Option String) = none ∨ none = some u.ns)))
        = (firstOf w.db.managedUsers .serviceAccount name).map toDict := by
    rw [List.find?_map, firstOf]
    congr 2
    funext r
    exact decide_eq_decide.mpr ⟨fun h => ⟨h.1, h.2.1⟩,
      fun h => ⟨h.1, h.2, Or.inl rfl⟩⟩
  rw [ServiceAccount.getUser, Prog.run_bind, run_loadRegistry,
    Prog.andThen_ok, hfind]
  cases firstOf w.db.managedUsers .serviceAccount name with
  | some r => rfl
  | none => rfl

theorem run_resolveSubject (name : String) (w : World) :
    (resolveSubject name).run handle w
      = (.ok (subjectOf w.db.managedUsers name), w) := by
  rw [resolveSubject, onUserNotFound, Prog.run_catching, Prog.run_bind,
    run_getCertificate, subjectOf]
  cases firstOf w.db.managedUsers .certificate name with
  | some r => rfl
  | none =>
      show Prog.run handle (onUserNotFound _ _) w = _
      rw [onUserNotFound, Prog.run_catching, Prog.run_bind, run_getAccount]
      cases firstOf w.db.managedUsers .serviceAccount name with
      | some r => rfl
      | none => rfl

end Lookup

/-! ## The review -/

/-- The access review of a call, with its cluster. -/
def reviewOf : Op → Option (String × SubjectAccessReviewSpec)
  | .kube cluster (.createSubjectAccessReview spec) => some (cluster, spec)
  | _ => none

/-- The access reviews that `check_access` issues. -/
def reviews (cluster : String) (payload : CheckAccessRequest) (w : World) :
    List (String × SubjectAccessReviewSpec) :=
  ((CvHttp.checkAccess cluster payload).calls handle w).filterMap reviewOf

/-- It issues one, about the subject that it has resolved. -/
theorem reviews_eq (cluster : String) (payload : CheckAccessRequest)
    (w : World) :
    reviews cluster payload w
      = [(cluster,
          ⟨(subjectOf w.db.managedUsers payload.user).1,
            groupsOrNone (subjectOf w.db.managedUsers payload.user).2,
            ⟨payload.verb, payload.resource, payload.ns,
              payload.apiGroup⟩⟩)] := by
  have hload : loadRegistry.Uses (fun op => reviewOf op = none) :=
    Prog.uses_bind (Prog.uses_perform rfl) (fun _ => trivial)
  have hcertificate : (Certificate.getUser payload.user).Uses
      (fun op => reviewOf op = none) := by
    refine Prog.uses_bind hload (fun users => ?_)
    cases users.find? (Certificate.isUser payload.user) with
    | some u => exact trivial
    | none => exact trivial
  have haccount : (ServiceAccount.getUser payload.user none).Uses
      (fun op => reviewOf op = none) := by
    refine Prog.uses_bind hload (fun users => ?_)
    simp only
    split
    · exact trivial
    · exact trivial
  have hresolve : (resolveSubject payload.user).Uses
      (fun op => reviewOf op = none) :=
    onUserNotFound_uses (Prog.uses_bind hcertificate (fun _ => trivial))
      (onUserNotFound_uses (Prog.uses_bind haccount (fun _ => trivial))
        trivial)
  have hquiet : ((resolveSubject payload.user).calls handle w).filterMap
      reviewOf = [] :=
    List.filterMap_eq_nil_iff.mpr (hresolve.calls handle w)
  rw [reviews, CvHttp.checkAccess,
    Prog.calls_bind_ok (run_resolveSubject payload.user w),
    List.filterMap_append, hquiet, List.nil_append]
  rfl

/-- Whom the API server sees when the user authenticates: a certificate user
    with the organizations of its certificate, a ServiceAccount with the groups
    of its namespace. -/
def identity (s : Ledger) (r : ManagedUser) : String × List String :=
  match r.type with
  | .certificate => (r.name, s.given r.name ++ ["system:authenticated"])
  | .serviceAccount => accountIdentity r.ns r.name

/-- A request about a user by its name asks about the identity of the user,
    once and nothing else. -/
def AsksRight (s : Ledger) (cluster : String) (payload : CheckAccessRequest)
    (r : ManagedUser) : Prop :=
  reviews cluster { payload with user := r.name } s.world
    = [(cluster, ⟨(identity s r).1, some (identity s r).2,
        ⟨payload.verb, payload.resource, payload.ns, payload.apiGroup⟩⟩)]

/-- A certificate user has groups that the registry can hold; a ServiceAccount
    user has no certificate user of its name, and is the first ServiceAccount
    user of its name. -/
def Resolvable (s : Ledger) (r : ManagedUser) : Prop :=
  match r.type with
  | .certificate => ∀ g ∈ s.given r.name, CleanGroup g
  | .serviceAccount =>
      (∀ c ∈ s.world.db.managedUsers.rows, c.name = r.name →
        c.type ≠ .certificate) ∧
      firstOf s.world.db.managedUsers .serviceAccount r.name = some r

section Review

variable {s : Ledger} {r : ManagedUser}

/-- The one review is right when its subject is. -/
theorem asksRight_iff_subject (cluster : String) (payload : CheckAccessRequest)
    (hne : (subjectOf s.world.db.managedUsers r.name).2 ≠ []) :
    AsksRight s cluster payload r ↔
      subjectOf s.world.db.managedUsers r.name = identity s r := by
  have hgroups : ∀ gs : List String, gs ≠ [] →
      groupsOrNone gs = some gs := by
    intro gs hgs
    cases gs with
    | nil => exact absurd rfl hgs
    | cons g gs => rfl
  rw [AsksRight, reviews_eq, hgroups _ hne]
  constructor
  · intro h
    obtain ⟨hspec, -⟩ := List.cons.inj h
    obtain ⟨huser, hgroups', -⟩ :=
      SubjectAccessReviewSpec.mk.inj (Prod.mk.inj hspec).2
    exact Prod.ext huser (Option.some.inj hgroups')
  · intro h
    rw [h]

/-- No user is called like its ServiceAccount identity. -/
theorem accountIdentity_ne (ns name : String) :
    (accountIdentity ns name).1 ≠ name := by
  intro h
  have huser : "system:serviceaccount:" ++ ns ++ ":" ++ name = name := h
  have hlist := congrArg String.toList huser
  rw [String.toList_append, List.append_left_eq_self, String.toList_append,
    List.append_eq_nil_iff] at hlist
  exact absurd hlist.2 (List.cons_ne_nil _ _)

theorem accountIdentity_ns {ns ns' name : String}
    (h : accountIdentity ns name = accountIdentity ns' name) : ns = ns' := by
  have huser : "system:serviceaccount:" ++ ns ++ ":" ++ name
      = "system:serviceaccount:" ++ ns' ++ ":" ++ name :=
    congrArg Prod.fst h
  rw [String.append_left_inj, String.append_left_inj,
    String.append_right_inj] at huser
  exact huser

/-- A certificate user is the first one of its name. -/
theorem firstOf_certificate
    (hs : Recorded s.world.db.managedUsers s.given)
    (hr : r ∈ s.world.db.managedUsers.rows) (htype : r.type = .certificate) :
    firstOf s.world.db.managedUsers .certificate r.name = some r := by
  cases hfirst : firstOf s.world.db.managedUsers .certificate r.name with
  | none => exact absurd ⟨rfl, htype⟩ (firstOf_eq_none_iff.mp hfirst r hr)
  | some c =>
      obtain ⟨hc, hname, hctype⟩ := firstOf_spec hfirst
      refine congrArg some (Table.eq_of_key hc hr ?_)
      rw [ManagedUser.key, ManagedUser.key, hname, (hs c hc hctype).1,
        (hs r hr htype).1]

/-- The identity of a certificate user. -/
theorem certificate_iff (hs : Recorded s.world.db.managedUsers s.given)
    (hr : r ∈ s.world.db.managedUsers.rows) (htype : r.type = .certificate) :
    subjectOf s.world.db.managedUsers r.name = identity s r ↔
      Resolvable s r := by
  rw [subjectOf, firstOf_certificate hs hr htype, identity, Resolvable, htype]
  simp only
  rw [(hs r hr htype).2, ← splitGroups_joinGroups_iff, Prod.mk.injEq,
    and_iff_right rfl, List.append_left_inj]

/-- The identity of a ServiceAccount user. -/
theorem account_iff (hr : r ∈ s.world.db.managedUsers.rows)
    (htype : r.type = .serviceAccount) :
    subjectOf s.world.db.managedUsers r.name = identity s r ↔
      Resolvable s r := by
  rw [subjectOf, identity, Resolvable, htype]
  cases hcertificate :
      firstOf s.world.db.managedUsers .certificate r.name with
  | some c =>
      obtain ⟨hc, hname, hctype⟩ := firstOf_spec hcertificate
      refine iff_of_false ?_ (fun h => h.1 c hc hname hctype)
      exact fun h => accountIdentity_ne r.ns r.name (congrArg Prod.fst h).symm
  | none =>
      have hnone : ∀ c ∈ s.world.db.managedUsers.rows, c.name = r.name →
          c.type ≠ .certificate := fun c hc hname hctype =>
        firstOf_eq_none_iff.mp hcertificate c hc ⟨hname, hctype⟩
      rw [and_iff_right hnone]
      cases hfirst :
          firstOf s.world.db.managedUsers .serviceAccount r.name with
      | none => exact absurd ⟨rfl, htype⟩ (firstOf_eq_none_iff.mp hfirst r hr)
      | some a =>
          obtain ⟨ha, hname, -⟩ := firstOf_spec hfirst
          constructor
          · intro h
            refine congrArg some (Table.eq_of_key ha hr ?_)
            rw [ManagedUser.key, ManagedUser.key, hname, accountIdentity_ns h]
          · intro h
            rw [Option.some.inj h]

/-- Whoever is in the registry has groups. -/
theorem subjectOf_groups_ne (hr : r ∈ s.world.db.managedUsers.rows) :
    (subjectOf s.world.db.managedUsers r.name).2 ≠ [] := by
  rw [subjectOf]
  cases hcertificate :
      firstOf s.world.db.managedUsers .certificate r.name with
  | some c => exact List.append_ne_nil_of_right_ne_nil _ (List.cons_ne_nil _ _)
  | none =>
      cases hfirst :
          firstOf s.world.db.managedUsers .serviceAccount r.name with
      | some a => exact List.cons_ne_nil _ _
      | none =>
          cases htype : r.type with
          | certificate =>
              exact absurd ⟨rfl, htype⟩
                (firstOf_eq_none_iff.mp hcertificate r hr)
          | serviceAccount =>
              exact absurd ⟨rfl, htype⟩ (firstOf_eq_none_iff.mp hfirst r hr)

end Review

/-- In every state that a run reaches from an empty registry: a request about
    a user asks about its identity exactly when the lookup finds the user, and
    the registry has its groups as they were given. -/
theorem checkAccess_asksRight_iff (w : World)
    (hempty : w.db.managedUsers = Table.empty) (steps : List UserStep)
    (cluster : String) (payload : CheckAccessRequest) (r : ManagedUser)
    (hr : r ∈ (ledgerAfter w steps).world.db.managedUsers.rows) :
    AsksRight (ledgerAfter w steps) cluster payload r ↔
      Resolvable (ledgerAfter w steps) r := by
  rw [asksRight_iff_subject cluster payload (subjectOf_groups_ne hr)]
  cases htype : r.type with
  | certificate => exact certificate_iff (recorded_after hempty steps) hr htype
  | serviceAccount => exact account_iff hr htype

/-- Two ServiceAccounts of one name, in two namespaces. -/
def twoAccounts : List UserStep :=
  [.call (.createAccount "local" "ci" "staging"),
    .call (.createAccount "local" "ci" "prod")]

/-- The row of the second one. -/
def prodAccount : ManagedUser where
  name := "ci"
  ns := "prod"
  type := .serviceAccount
  groupsCsv := ""
  createdAt := utc Time.epoch
  csrName := none
  certExpiry := none
  imported := false

/-- Can the user `ci` of `prod` list pods there? -/
def listPods : CheckAccessRequest where
  user := "ci"
  verb := "list"
  resource := "pods"
  ns := some "prod"

/-- The row of the first one. -/
def stagingAccount : ManagedUser := { prodAccount with ns := "staging" }

/-- The first one is found under its name. -/
theorem checkAccess_asksRight_staging :
    AsksRight (ledgerAfter World.fresh twoAccounts) "local" listPods
      stagingAccount := by
  refine (checkAccess_asksRight_iff World.fresh rfl twoAccounts "local"
    listPods stagingAccount (by decide +kernel)).mpr ⟨?_, by decide +kernel⟩
  decide +kernel

theorem mem_prodAccount : prodAccount ∈
    (ledgerAfter World.fresh twoAccounts).world.db.managedUsers.rows := by
  decide +kernel

/-- About the one of `prod`, the API server is asked for the one of
    `staging`. -/
theorem checkAccess_asks_staging :
    ¬ ∀ (w : World), w.db.managedUsers = Table.empty →
      ∀ (steps : List UserStep) (cluster : String)
        (payload : CheckAccessRequest),
        ∀ r ∈ (ledgerAfter w steps).world.db.managedUsers.rows,
          AsksRight (ledgerAfter w steps) cluster payload r := by
  intro hall
  have hasks := hall World.fresh rfl twoAccounts "local" listPods prodAccount
    mem_prodAccount
  rw [AsksRight, reviews_eq] at hasks
  have huser := congrArg (fun xs => (xs.map (fun x => x.2.user)).head?) hasks
  revert huser
  decide +kernel

end CvSimulator
