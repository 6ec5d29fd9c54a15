import ClusterVision.RegistrationProofs

/-! # The names of certificate users

    CertificateService adds a user only when nobody has its name, because the
    bindings, the permissions and the access checks of a user go by the name
    alone.  ServiceAccountService looks at the namespace as well, or at the
    ServiceAccount users only.  The main result says which calls of a run give
    a certificate user a namesake. -/

namespace CvNames

open CvProg CvRun CvTable CvIso CvKube CvBackend CvRegistry CvUsers
open CvRegistration

variable {t t' : Users} {w : World}

/-! ## Names -/

/-- Nobody shares the name of a certificate user. -/
def NamesUnique (t : Users) : Prop :=
  ∀ r ∈ t.rows, ∀ s ∈ t.rows, r.type = .certificate → s.name = r.name → s = r

instance (t : Users) : Decidable (NamesUnique t) :=
  inferInstanceAs (Decidable (∀ r ∈ t.rows, ∀ s ∈ t.rows, _ → _))

/-- There is a certificate user of this name. -/
def HasCertificate (name : String) (t : Users) : Prop :=
  ∃ r ∈ t.rows, r.name = name ∧ r.type = .certificate

/-- Whoever is in the registry after a user was appended was there before, with
    another key, or is the new one. -/
theorem mem_of_appended {taken : RegistryEntry → Bool} {user : RegistryEntry}
    (h : Appended taken user t t') :
    ∃ row, RowOf user row ∧ row ∈ t'.rows ∧
      ∀ r ∈ t'.rows, r = row ∨ (r ∈ t.rows ∧ r.key ≠ user.key) := by
  obtain ⟨row, hrow, hget⟩ := h.row
  refine ⟨row, hrow, ?_, ?_⟩
  · have hself := hget row.key
    rw [hrow.key, if_pos rfl] at hself
    exact Table.mem_of_get hself
  · intro r hr
    have hold := hget r.key
    rw [Table.get_of_mem hr] at hold
    by_cases hk : r.key = user.key
    · rw [if_pos hk] at hold
      exact Or.inl (Option.some.inj hold)
    · rw [if_neg hk] at hold
      exact Or.inr ⟨Table.mem_of_get hold.symm, hk⟩

/-- Appending a user keeps the names unique when neither it nor any namesake
    that stays is a certificate user. -/
theorem unique_of_appended {taken : RegistryEntry → Bool}
    {user : RegistryEntry} (ht : NamesUnique t)
    (h : Appended taken user t t')
    (hapart : ∀ r ∈ t.rows, r.key ≠ user.key → r.name = user.name →
      r.type ≠ .certificate ∧ user.type ≠ .certificate) :
    NamesUnique t' := by
  obtain ⟨row, hrow, -, hmem⟩ := mem_of_appended h
  intro r hr s hs hcertificate hname
  rcases hmem r hr with hr | ⟨hr, hrkey⟩ <;>
    rcases hmem s hs with hs | ⟨hs, hskey⟩
  · rw [hr, hs]
  · rw [hr] at hcertificate hname
    rw [hrow.name] at hname
    rw [hrow.type] at hcertificate
    exact absurd hcertificate (hapart s hs hskey hname).2
  · rw [hs, hrow.name] at hname
    exact absurd hcertificate (hapart r hr hrkey hname.symm).1
  · exact ht r hr s hs hcertificate hname

/-- Removing users keeps the names unique. -/
theorem unique_of_removed {gone : RegistryEntry → Bool} (ht : NamesUnique t)
    (h : Removed gone t t') : NamesUnique t' := by
  have hsub : ∀ r ∈ t'.rows, r ∈ t.rows := by
    intro r hr
    have hkey := h r.key
    rw [Table.get_of_mem hr] at hkey
    exact Table.mem_of_get (Option.eq_some_of_filter_eq_some hkey.symm)
  exact fun r hr s hs => ht r (hsub r hr) s (hsub s hs)

/-- A ServiceAccount user that is appended next to a certificate user of its
    name. -/
theorem not_unique_of_appended {taken : RegistryEntry → Bool}
    {user : RegistryEntry} (h : Appended taken user t t')
    (htype : user.type = .serviceAccount)
    (hcertificate : HasCertificate user.name t)
    (hfree : t.get user.key = none) : ¬ NamesUnique t' := by
  obtain ⟨r, hr, hname, htyper⟩ := hcertificate
  obtain ⟨row, hrow, hmem, -⟩ := mem_of_appended h
  have hkeep : r ∈ t'.rows := h.keeps hr
    (fun hkey => absurd hkey (Table.get_eq_none_iff.mp hfree r hr))
  intro hunique
  have hsame := hunique r hkeep row hmem htyper (hrow.name.trans hname.symm)
  have htypes : row.type = r.type := congrArg ManagedUser.type hsame
  rw [hrow.type, htype, htyper] at htypes
  exact nomatch htypes

/-! ## Calls -/

/-- The call gives a certificate user a namesake: it registers a ServiceAccount
    user under the name of a certificate user and a key that is free, and
    nothing else is in its way. -/
def GivesNamesake (w : World) : UserCall → Prop
  | .createAccount _ name ns =>
      HasCertificate name w.db.managedUsers ∧
        w.db.managedUsers.get (name, ns) = none
  | .importAccount cluster name ns =>
      (w.clusters cluster).serviceAccounts.get (ns, name) ≠ none ∧
        HasCertificate name w.db.managedUsers ∧
        w.db.managedUsers.get (name, ns) = none
  | _ => False

/-- The same of a step. -/
def StepGivesNamesake (w : World) : UserStep → Prop
  | .call k => GivesNamesake w k
  | .outside _ _ => False

/-- Creating a ServiceAccount user with a free key does not raise. -/
theorem createAccount_ok (cluster : String) {name ns : String}
    (hw : Dated w.db.managedUsers)
    (hfree : w.db.managedUsers.get (name, ns) = none) :
    ∃ a, ((ServiceAccount.createUser cluster name ns).run handle w).1
      = .ok a := by
  rw [ServiceAccount.run_createUser_free hfree, Prog.run_bind]
  obtain ⟨users, hok⟩ := run_append_ok
    (w := (w.setCluster cluster (ServiceAccount.withAccount
      (w.clusters cluster) name ns)).ticked)
    (ServiceAccount.sameKey name ns) (ServiceAccount.userRecord name ns
      (timeText (utc (w.clock w.tick))) false) hw.timely
    (utcTimes_of_noExpiry rfl rfl)
    (ServiceAccount.sameKey_of_free hfree)
  generalize (updateRegistry _).run handle _ = o at hok ⊢
  obtain ⟨r, w'⟩ := o
  obtain rfl : r = .ok users := hok
  exact ⟨_, rfl⟩

/-- Such a call breaks the rule. -/
theorem not_unique_of_namesake {k : UserCall} (hw : Dated w.db.managedUsers)
    (hunique : NamesUnique w.db.managedUsers) (hk : GivesNamesake w k) :
    ¬ NamesUnique (userStep (.call k) w).db.managedUsers := by
  cases k with
  | createAccount cluster name ns =>
      obtain ⟨hcertificate, hfree⟩ := hk
      obtain ⟨a, ha⟩ := createAccount_ok cluster hw hfree
      have hends : Ends w.db.managedUsers
          (ServiceAccount.Created name ns w.db.managedUsers)
          ((ServiceAccount.createUser cluster name ns).run handle w) :=
        ServiceAccount.createUser_ends rfl
      rw [userStep, UserCall.prog, Prog.run_void_snd]
      rcases hends with ⟨e, he, -⟩ | ⟨-, -, now, happ⟩
      · rw [ha] at he
        cases he
      · exact not_unique_of_appended happ rfl hcertificate hfree
  | importAccount cluster name ns =>
      obtain ⟨hsa, hcertificate, hfree⟩ := hk
      -- the namesake of the certificate user would be a ServiceAccount user
      have hother : ∀ r ∈ w.db.managedUsers.rows,
          ¬ (r.name = name ∧ r.type = .serviceAccount) := by
        rintro r hr ⟨hname, htype⟩
        obtain ⟨c, hc, hcname, hctype⟩ := hcertificate
        have hsame := hunique c hc r hr hctype (hname.trans hcname.symm)
        rw [hsame, hctype] at htype
        cases htype
      obtain ⟨a, ha⟩ := importAccount_ok hw.timely hsa hother
      have hends : Ends w.db.managedUsers
          (ServiceAccount.Imported name ns w.db.managedUsers)
          ((ServiceAccount.importUser cluster name ns).run handle w) :=
        ServiceAccount.importUser_ends rfl
      rw [userStep, UserCall.prog, Prog.run_void_snd]
      rcases hends with ⟨e, he, -⟩ | ⟨-, -, now, happ⟩
      · rw [ha] at he
        cases he
      · exact not_unique_of_appended happ rfl hcertificate hfree
  | createCertificate | importCertificate | deleteCertificate
  | deleteAccount => exact hk.elim

/-- A ServiceAccount user that does not become a namesake keeps the rule. -/
theorem unique_of_account {taken : RegistryEntry → Bool}
    {user : RegistryEntry} (ht : NamesUnique t)
    (happ : Appended taken user t t') (htype : user.type = .serviceAccount)
    (hno : ¬ (HasCertificate user.name t ∧ t.get user.key = none)) :
    NamesUnique t' := by
  refine unique_of_appended ht happ ?_
  intro r hr hkey hname
  refine ⟨?_, ?_⟩
  · intro hcertificate
    refine hno ⟨⟨r, hr, hname, hcertificate⟩, ?_⟩
    -- whoever has the key of the new user is a namesake as well
    rw [Table.get_eq_none_iff]
    intro s hs hskey
    have hsname : s.name = r.name := by
      rw [hname]
      exact congrArg Prod.fst hskey
    rw [ht r hr s hs hcertificate hsname] at hskey
    exact hkey hskey
  · rw [htype]
    exact nofun

/-- A certificate user is appended when nobody has its name. -/
theorem unique_of_certificate {username : String} {user : RegistryEntry}
    (ht : NamesUnique t)
    (happ : Appended (Certificate.sameName username) user t t')
    (hname : user.name = username) : NamesUnique t' := by
  refine unique_of_appended ht happ ?_
  intro r hr _ hsame
  have hfree := happ.free r hr
  exact absurd (hsame.trans hname) (of_decide_eq_false hfree)

theorem unique_of_leaves {E : Users → Prop} (ht : NamesUnique t)
    (hE : ∀ t', E t' → NamesUnique t') (h : Leaves t E w) :
    NamesUnique w.db.managedUsers := by
  rcases h with h | h
  · rw [h]
    exact ht
  · exact hE _ h

/-- Every other call keeps it. -/
theorem unique_of_no_namesake {k : UserCall}
    (hunique : NamesUnique w.db.managedUsers) (hk : ¬ GivesNamesake w k) :
    NamesUnique (userStep (.call k) w).db.managedUsers := by
  cases k with
  | createCertificate cluster username groups =>
      refine unique_of_leaves hunique ?_
        (ends_void (Certificate.createUser_ends rfl)).leaves
      rintro t' ⟨now, certificate, happ⟩
      exact unique_of_certificate hunique happ rfl
  | importCertificate username groups =>
      refine unique_of_leaves hunique ?_
        (ends_void (Certificate.importUser_ends rfl)).leaves
      rintro t' ⟨now, happ⟩
      exact unique_of_certificate hunique happ rfl
  | deleteCertificate cluster username =>
      exact unique_of_leaves hunique (fun t' h => unique_of_removed hunique h)
        (Certificate.deleteUser_leaves rfl)
  | createAccount cluster name ns =>
      refine unique_of_leaves hunique ?_
        (ends_void (ServiceAccount.createUser_ends rfl)).leaves
      rintro t' ⟨now, happ⟩
      exact unique_of_account hunique happ rfl hk
  | importAccount cluster name ns =>
      by_cases hsa : (w.clusters cluster).serviceAccounts.get (ns, name)
          = none
      · -- there is nothing to import
        obtain ⟨e, he⟩ := importAccount_absent hsa
        have hends : Ends w.db.managedUsers
            (ServiceAccount.Imported name ns w.db.managedUsers)
            ((ServiceAccount.importUser cluster name ns).run handle w) :=
          ServiceAccount.importUser_ends rfl
        rw [userStep, UserCall.prog, Prog.run_void_snd]
        rcases hends with ⟨-, -, hsame⟩ | ⟨a, ha, -⟩
        · rw [hsame]
          exact hunique
        · rw [he] at ha
          cases ha
      · refine unique_of_leaves hunique ?_
          (ends_void (ServiceAccount.importUser_ends rfl)).leaves
        rintro t' ⟨now, happ⟩
        exact unique_of_account hunique happ rfl (fun h => hk ⟨hsa, h⟩)
  | deleteAccount cluster username ns =>
      refine unique_of_leaves hunique ?_ (ServiceAccount.deleteUser_leaves rfl)
      rintro t' ⟨u, -, hremoved⟩
      exact unique_of_removed hunique hremoved

/-- What a step does to the rule. -/
theorem unique_step_iff (a : UserStep) (hw : Dated w.db.managedUsers)
    (hunique : NamesUnique w.db.managedUsers) :
    NamesUnique (userStep a w).db.managedUsers ↔ ¬ StepGivesNamesake w a := by
  cases a with
  | outside f keeps =>
      rw [userStep, keeps]
      exact iff_of_true hunique id
  | call k =>
      constructor
      · intro hafter hk
        exact not_unique_of_namesake hw hunique hk hafter
      · exact unique_of_no_namesake hunique

/-! ## Runs -/

/-- The names of the certificate users are unique in every state that a run
    reaches exactly when no step of it gives one of them a namesake. -/
theorem certificate_names_iff (w : World) (hdated : Dated w.db.managedUsers)
    (hunique : NamesUnique w.db.managedUsers) (steps : List UserStep) :
    (∀ pre, pre <+: steps →
        NamesUnique (after userStep pre w).db.managedUsers) ↔
      Along userStep (fun w a => ¬ StepGivesNamesake w a) steps w := by
  refine (reached_iff
    (I := fun w : World => NamesUnique w.db.managedUsers)).trans ?_
  have hstep : ∀ (v : World) (a : UserStep),
      Dated v.db.managedUsers ∧ NamesUnique v.db.managedUsers →
      NamesUnique (userStep a v).db.managedUsers →
      Dated (userStep a v).db.managedUsers ∧
        NamesUnique (userStep a v).db.managedUsers :=
    fun v a hv hafter => ⟨dated_step a hv.1, hafter⟩
  have hiff : ∀ (v : World) (a : UserStep),
      Dated v.db.managedUsers ∧ NamesUnique v.db.managedUsers →
      (NamesUnique (userStep a v).db.managedUsers ↔
        ¬ StepGivesNamesake v a) :=
    fun v a hv => unique_step_iff a hv.1 hv.2
  have hcongr := along_congr hstep hiff ⟨hdated, hunique⟩ steps
  constructor
  · exact fun h => hcongr.mp h.2
  · exact fun h => ⟨hunique, hcongr.mpr h⟩

theorem dated_fresh : Dated World.fresh.db.managedUsers := by
  intro r hr
  cases hr

/-- A ServiceAccount user is created first, and nobody takes its name. -/
theorem certificate_names_accounts :
    NamesUnique World.fresh.db.managedUsers ∧
      ∀ pre, pre <+: [.call (.createAccount "local" "ci" "apps"),
          .call (.importCertificate "ci" [])] →
        NamesUnique (after userStep pre World.fresh).db.managedUsers := by
  refine ⟨by decide, (certificate_names_iff World.fresh dated_fresh (by decide)
    [.call (.createAccount "local" "ci" "apps"),
      .call (.importCertificate "ci" [])]).mpr ⟨?_, id, trivial⟩⟩
  rintro ⟨⟨r, hr, -⟩, -⟩
  cases hr

/-- The other way round: the certificate user is registered first, and then a
    ServiceAccount user of its name in another namespace. -/
theorem certificate_has_namesake :
    ¬ ∀ pre, pre <+: [.call (.importCertificate "ci" []),
        .call (.createAccount "local" "ci" "apps")] →
      NamesUnique (after userStep pre World.fresh).db.managedUsers := by
  intro h
  have hlast := h _ (List.prefix_refl _)
  revert hlast
  decide +kernel

end CvNames
