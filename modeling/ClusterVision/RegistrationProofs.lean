import ClusterVision.UserServicesProofs
import ClusterVision.RunProofs

/-! # Registering a user leaves the others alone

    The registry is keyed by name and namespace, whatever the type of a user,
    and each function that registers a user has a check of its own for users
    in its way.  The main result says which calls do harm: the import of a
    ServiceAccount, where a certificate user has its key. -/

namespace CvRegistration

open CvProg CvRun CvTable CvIso CvKube CvBackend CvRegistry CvUsers

variable {t t' : Users} {w : World}

/-! ## Calls -/

/-- The calls of the two services that write to the registry. -/
inductive UserCall where
  | createCertificate (cluster username : String) (groups : List String)
  | importCertificate (username : String) (groups : List String)
  | deleteCertificate (cluster username : String)
  | createAccount (cluster name ns : String)
  | importAccount (cluster name ns : String)
  | deleteAccount (cluster username ns : String)

/-- The program of a call. -/
def UserCall.prog : UserCall → Svc Unit
  | .createCertificate cluster username groups =>
      (Certificate.createUser cluster username groups).void
  | .importCertificate username groups =>
      (Certificate.importUser username groups).void
  | .deleteCertificate cluster username =>
      Certificate.deleteUser cluster username
  | .createAccount cluster name ns =>
      (ServiceAccount.createUser cluster name ns).void
  | .importAccount cluster name ns =>
      (ServiceAccount.importUser cluster name ns).void
  | .deleteAccount cluster username ns =>
      ServiceAccount.deleteUser cluster username ns

/-- The creations and the imports. -/
def UserCall.registers : UserCall → Bool
  | .deleteCertificate _ _ => false
  | .deleteAccount _ _ _ => false
  | _ => true

/-- A step: a call, or anything else that does not write to the registry. -/
inductive UserStep where
  | call (k : UserCall)
  | outside (f : World → World)
      (keeps : ∀ w, (f w).db.managedUsers = w.db.managedUsers)

/-- The world after a step. -/
def userStep : UserStep → World → World
  | .call k, w => (k.prog.run handle w).2
  | .outside f _, w => f w

/-! ## Entries with readable times -/

/-- The times of the users are UTC times. -/
def Dated (t : Users) : Prop :=
  ∀ r ∈ t.rows, (∃ s, r.createdAt = utc s) ∧
    ∀ d, r.certExpiry = some d → ∃ s, d = utc s

/-- The times of the users are times that Python can hold. -/
def Timely (t : Users) : Prop :=
  ∀ r ∈ t.rows, r.createdAt.Proper ∧ ∀ d, r.certExpiry = some d → d.Proper

theorem Dated.timely (ht : Dated t) : Timely t := by
  intro r hr
  obtain ⟨⟨s, hs⟩, hexpiry⟩ := ht r hr
  refine ⟨hs ▸ utc_proper s, ?_⟩
  intro d hd
  obtain ⟨s', rfl⟩ := hexpiry d hd
  exact utc_proper s'

theorem toList_timeText (d : Datetime) : (timeText d).toList = isoformat d :=
  String.toList_ofList

theorem timeText_ne (s : Time) : timeText (utc s) ≠ "" := by
  intro h
  have hlist := congrArg String.toList h
  rw [toList_timeText, isoformat, pad_four] at hlist
  cases hlist

/-- The dictionary of such a user can be read. -/
theorem readable_toDict (ht : Timely t) {r : ManagedUser} (hr : r ∈ t.rows) :
    Readable (toDict r) := by
  obtain ⟨hcreated, hexpiry⟩ := ht r hr
  refine ⟨?_, ?_⟩
  · intro _
    show fromisoformat (timeText r.createdAt).toList ≠ none
    rw [toList_timeText, fromisoformat_of_proper hcreated]
    exact nofun
  · intro text htext _
    obtain ⟨d, hd, rfl⟩ := Option.map_eq_some_iff.mp htext
    rw [toList_timeText, fromisoformat_of_proper (hexpiry d hd)]
    exact nofun

/-- An entry with UTC times. -/
structure UtcTimes (u : RegistryEntry) : Prop where
  createdAt : ∃ s, u.createdAt = timeText (utc s)
  certExpiry : ∀ text, u.certExpiry = some text →
    ∃ s, text = timeText (utc s)

theorem UtcTimes.readable {u : RegistryEntry} (h : UtcTimes u) :
    Readable u := by
  obtain ⟨s, hs⟩ := h.createdAt
  refine ⟨?_, ?_⟩
  · intro _
    rw [hs, toList_timeText, fromisoformat_isoformat]
    exact nofun
  · intro text htext _
    obtain ⟨s', rfl⟩ := h.certExpiry text htext
    rw [toList_timeText, fromisoformat_isoformat]
    exact nofun

/-- An entry that does not expire. -/
theorem utcTimes_of_noExpiry {u : RegistryEntry} {s : Time}
    (hs : u.createdAt = timeText (utc s)) (hu : u.certExpiry = none) :
    UtcTimes u := by
  refine ⟨⟨s, hs⟩, ?_⟩
  intro text htext
  rw [hu] at htext
  cases htext

/-- A user that is appended with UTC times keeps the registry dated. -/
theorem dated_of_appended {taken : RegistryEntry → Bool} {user : RegistryEntry}
    (ht : Dated t) (huser : UtcTimes user) (h : Appended taken user t t') :
    Dated t' := by
  obtain ⟨row, hrow, hget⟩ := h.row
  intro r hr
  have hkey := Table.get_of_mem hr
  rw [hget] at hkey
  by_cases hk : r.key = user.key
  · rw [if_pos hk] at hkey
    obtain rfl := Option.some.inj hkey
    obtain ⟨s, hs⟩ := huser.createdAt
    refine ⟨⟨s, ?_⟩, ?_⟩
    · have hcreated := hrow.createdAt (by rw [hs]; exact timeText_ne s)
      rw [hs, toList_timeText, fromisoformat_isoformat] at hcreated
      exact (Option.some.inj hcreated).symm
    · intro d hd
      cases hexpiry : user.certExpiry with
      | none =>
          rw [hrow.noExpiry hexpiry] at hd
          exact nomatch hd
      | some text =>
          obtain ⟨s', rfl⟩ := huser.certExpiry text hexpiry
          have hrowExpiry := hrow.certExpiry _ hexpiry (timeText_ne s')
          rw [hd, toList_timeText, fromisoformat_isoformat] at hrowExpiry
          exact ⟨s', Option.some.inj hrowExpiry⟩
  · rw [if_neg hk] at hkey
    exact ht r (Table.mem_of_get hkey)

/-- Removing users keeps the registry dated. -/
theorem dated_of_removed {gone : RegistryEntry → Bool} (ht : Dated t)
    (h : Removed gone t t') : Dated t' := by
  intro r hr
  have hkey := h r.key
  rw [Table.get_of_mem hr] at hkey
  exact ht r (Table.mem_of_get (Option.eq_some_of_filter_eq_some hkey.symm))

theorem dated_of_leaves {E : Users → Prop} (ht : Dated t)
    (hE : ∀ t', E t' → Dated t') (h : Leaves t E w) :
    Dated w.db.managedUsers := by
  rcases h with h | h
  · rw [h]
    exact ht
  · exact hE _ h

/-- Leaving the value out makes no difference. -/
theorem ends_void {α : Type} {E : Users → Prop} {p : Svc α}
    (h : Ends t E (p.run handle w)) : Ends t E (p.void.run handle w) :=
  ends_andThen h (fun _ => ⟨(), rfl⟩)

/-- Every step keeps the registry dated. -/
theorem dated_step (a : UserStep) (hw : Dated w.db.managedUsers) :
    Dated (userStep a w).db.managedUsers := by
  cases a with
  | outside f keeps =>
      rw [userStep, keeps]
      exact hw
  | call k =>
      cases k with
      | createCertificate cluster username groups =>
          refine dated_of_leaves hw ?_
            (ends_void (Certificate.createUser_ends rfl)).leaves
          rintro t' ⟨now, certificate, happ⟩
          refine dated_of_appended hw ⟨⟨now, rfl⟩, ?_⟩ happ
          rintro text ⟨⟩
          exact ⟨certificate.notValidAfterUtc, rfl⟩
      | importCertificate username groups =>
          refine dated_of_leaves hw ?_
            (ends_void (Certificate.importUser_ends rfl)).leaves
          rintro t' ⟨now, happ⟩
          exact dated_of_appended hw (utcTimes_of_noExpiry rfl rfl) happ
      | deleteCertificate cluster username =>
          exact dated_of_leaves hw (fun t' h => dated_of_removed hw h)
            (Certificate.deleteUser_leaves rfl)
      | createAccount cluster name ns =>
          refine dated_of_leaves hw ?_
            (ends_void (ServiceAccount.createUser_ends rfl)).leaves
          rintro t' ⟨now, happ⟩
          exact dated_of_appended hw (utcTimes_of_noExpiry rfl rfl) happ
      | importAccount cluster name ns =>
          refine dated_of_leaves hw ?_
            (ends_void (ServiceAccount.importUser_ends rfl)).leaves
          rintro t' ⟨now, happ⟩
          exact dated_of_appended hw (utcTimes_of_noExpiry rfl rfl) happ
      | deleteAccount cluster username ns =>
          refine dated_of_leaves hw ?_ (ServiceAccount.deleteUser_leaves rfl)
          rintro t' ⟨u, -, hremoved⟩
          exact dated_of_removed hw hremoved

/-! ## Harmless calls -/

/-- Every entry is there as before, and there is exactly one more. -/
def AddsOne (t t' : Users) : Prop :=
  ∃ r, t.get r.key = none ∧
    ∀ k, t'.get k = if k = r.key then some r else t.get k

/-- A registration that returns has added one entry and changed none, and one
    that raises has left the registry as it was. -/
def Harmless (w : World) (k : UserCall) : Prop :=
  k.registers = true → Ends w.db.managedUsers (AddsOne w.db.managedUsers)
    (k.prog.run handle w)

/-- The call imports a ServiceAccount that is there, no ServiceAccount user has
    its name, and some user has its key: a certificate user. -/
def TakesPlace (w : World) : UserCall → Prop
  | .importAccount cluster name ns =>
      (w.clusters cluster).serviceAccounts.get (ns, name) ≠ none ∧
      (∀ r ∈ w.db.managedUsers.rows,
        ¬ (r.name = name ∧ r.type = .serviceAccount)) ∧
      w.db.managedUsers.get (name, ns) ≠ none
  | _ => False

/-- A user whose key is free adds one entry. -/
theorem addsOne_of_appended {taken : RegistryEntry → Bool}
    {user : RegistryEntry} (h : Appended taken user t t')
    (hfree : t.get user.key = none) : AddsOne t t' := by
  obtain ⟨row, hrow, hget⟩ := h.row
  refine ⟨row, ?_, ?_⟩
  · rw [hrow.key]
    exact hfree
  · rw [hrow.key]
    exact hget

/-- The key is free when whoever has it is in the way. -/
theorem free_of_taken {taken : RegistryEntry → Bool} {user : RegistryEntry}
    (h : Appended taken user t t')
    (htaken : ∀ r : ManagedUser, r.key = user.key →
      taken (toDict r) = true) : t.get user.key = none := by
  rw [Table.get_eq_none_iff]
  intro r hr hkey
  have hfree := h.free r hr
  rw [htaken r hkey] at hfree
  exact nomatch hfree

/-- Importing a ServiceAccount that is not there is an error. -/
theorem importAccount_absent {cluster name ns : String}
    (hsa : (w.clusters cluster).serviceAccounts.get (ns, name) = none) :
    ∃ e, ((ServiceAccount.importUser cluster name ns).run handle w).1
      = .error e := by
  have hread : (handle (.kube cluster (.readServiceAccount ns name)) w).1
      = .error (.api ⟨404⟩) := by
    show ((readIn (w.clusters cluster).serviceAccounts
      (ns, name)).mapError Exn.api) = _
    rw [readIn, hsa]
    rfl
  rw [ServiceAccount.importUser, Prog.run_bind, run_kube]
  generalize handle (.kube cluster (.readServiceAccount ns name)) w = o at hread
  obtain ⟨r, w'⟩ := o
  obtain rfl : r = .error (.api ⟨404⟩) := hread
  exact ⟨_, rfl⟩

/-- A registration that takes nobody's place is harmless. -/
theorem harmless_of_not_takesPlace {k : UserCall} (hk : ¬ TakesPlace w k) :
    Harmless w k := by
  intro hreg
  cases k with
  | deleteCertificate | deleteAccount => exact nomatch hreg
  | createCertificate cluster username groups =>
      refine Ends.imp ?_ (ends_void (Certificate.createUser_ends rfl))
      rintro t' ⟨now, certificate, happ⟩
      exact addsOne_of_appended happ (free_of_taken happ
        (fun r hr => decide_eq_true (congrArg Prod.fst hr)))
  | importCertificate username groups =>
      refine Ends.imp ?_ (ends_void (Certificate.importUser_ends rfl))
      rintro t' ⟨now, happ⟩
      exact addsOne_of_appended happ (free_of_taken happ
        (fun r hr => decide_eq_true (congrArg Prod.fst hr)))
  | createAccount cluster name ns =>
      refine Ends.imp ?_ (ends_void (ServiceAccount.createUser_ends rfl))
      rintro t' ⟨now, happ⟩
      exact addsOne_of_appended happ (free_of_taken happ
        (fun r hr => decide_eq_true (Prod.mk.inj hr)))
  | importAccount cluster name ns =>
      have hends : Ends w.db.managedUsers
          (ServiceAccount.Imported name ns w.db.managedUsers)
          ((ServiceAccount.importUser cluster name ns).run handle w) :=
        ServiceAccount.importUser_ends rfl
      refine ends_void ?_
      rcases hends with herror | ⟨a, ha, now, happ⟩
      · exact Or.inl herror
      · refine Or.inr ⟨a, ha, addsOne_of_appended happ ?_⟩
        by_contra htaken
        refine hk ⟨?_, ?_, htaken⟩
        · intro habsent
          obtain ⟨e, he⟩ := importAccount_absent habsent
          rw [ha] at he
          exact nomatch he
        · rintro r hr ⟨hname, htype⟩
          have hfree := happ.free r hr
          exact absurd ⟨hname, htype⟩ (of_decide_eq_false hfree)

/-- Appending a user with UTC times where nobody is in its way does not
    raise. -/
theorem run_append_ok (taken : RegistryEntry → Bool) (user : RegistryEntry)
    (hw : Timely w.db.managedUsers) (huser : UtcTimes user)
    (hfree : ∀ r ∈ w.db.managedUsers.rows, taken (toDict r) = false) :
    ∃ users, ((updateRegistry (appendUnless taken user)).run handle w).1
      = .ok users := by
  have hnone : (registryOf w.db).rows.any taken = false := by
    rw [rows_registryOf, List.any_eq_false]
    intro u hu
    obtain ⟨r, hr, rfl⟩ := List.mem_map.mp hu
    rw [hfree r hr]
    exact Bool.false_ne_true
  have hmut : appendUnless taken user (registryOf w.db).rows
      = .ok ((registryOf w.db).rows ++ [user]) := by
    rw [appendUnless, hnone]
    rfl
  rcases run_updateRegistry (appendUnless taken user) w with
    ⟨-, ⟨e, he⟩ | ⟨us, hus, u, hu, hnot⟩⟩ | ⟨users, t', -, hcommit, -⟩
  · rw [hmut] at he
    cases he
  · -- every entry can be read: it is the new one, or that of a row
    rw [hmut] at hus
    obtain rfl := Except.ok.inj hus
    rw [entryDict_append, Table.mem_put] at hu
    rcases hu with rfl | ⟨hold, -⟩
    · exact absurd huser.readable hnot
    · rw [rows_registryOf] at hold
      obtain ⟨r, hr, rfl⟩ := List.mem_map.mp hold
      exact absurd (readable_toDict hw hr) hnot
  · exact ⟨users, hcommit.ok⟩

/-- Importing a ServiceAccount that is there, where no ServiceAccount user has
    its name, does not raise. -/
theorem importAccount_ok {cluster name ns : String}
    (hw : Timely w.db.managedUsers)
    (hsa : (w.clusters cluster).serviceAccounts.get (ns, name) ≠ none)
    (hfree : ∀ r ∈ w.db.managedUsers.rows,
      ¬ (r.name = name ∧ r.type = .serviceAccount)) :
    ∃ a, ((ServiceAccount.importUser cluster name ns).run handle w).1
      = .ok a := by
  obtain ⟨sa, hsa⟩ := Option.ne_none_iff_exists'.mp hsa
  have hread : handle (.kube cluster (.readServiceAccount ns name)) w
      = (.ok sa, w) := by
    show ((readIn (w.clusters cluster).serviceAccounts
      (ns, name)).mapError Exn.api, w.setCluster cluster (w.clusters cluster))
        = _
    rw [readIn, hsa, World.setCluster_eq_self]
    rfl
  rw [ServiceAccount.importUser, Prog.run_bind, run_kube, hread,
    Prog.andThen_ok, bind_nowText]
  obtain ⟨users, hok⟩ := run_append_ok (w := w.ticked)
    (ServiceAccount.sameName name) (ServiceAccount.userRecord name ns
      (timeText (utc (w.clock w.tick))) true) hw (utcTimes_of_noExpiry rfl rfl)
    (fun r hr => decide_eq_false (hfree r hr))
  rw [Prog.run_bind]
  generalize (updateRegistry _).run handle w.ticked = o at hok ⊢
  obtain ⟨r, w'⟩ := o
  obtain rfl : r = .ok users := hok
  exact ⟨_, rfl⟩

/-- A call that takes somebody's place does harm. -/
theorem not_takesPlace_of_harmless {k : UserCall}
    (hw : Dated w.db.managedUsers) (hk : Harmless w k) :
    ¬ TakesPlace w k := by
  cases k with
  | importAccount cluster name ns =>
      rintro ⟨hsa, hfree, htaken⟩
      obtain ⟨old, hold⟩ := Option.ne_none_iff_exists'.mp htaken
      obtain ⟨a, hok⟩ := importAccount_ok hw.timely hsa hfree
      have hends : Ends w.db.managedUsers
          (ServiceAccount.Imported name ns w.db.managedUsers)
          ((ServiceAccount.importUser cluster name ns).run handle w) :=
        ServiceAccount.importUser_ends rfl
      have hharmless : Ends w.db.managedUsers (AddsOne w.db.managedUsers)
        ((ServiceAccount.importUser cluster name ns).void.run handle w) :=
          hk rfl
      rw [Ends, Prog.run_void_fst, Prog.run_void_snd, hok] at hharmless
      rw [Ends, hok] at hends
      -- the key has an entry before, so it would be the same one afterwards
      rcases hharmless with ⟨e, he, -⟩ | ⟨-, -, r, hnew, hget⟩
      · exact nomatch he
      rcases hends with ⟨e, he, -⟩ | ⟨-, -, now, happ⟩
      · exact nomatch he
      obtain ⟨row, hrow, hput⟩ := happ.row
      have hsame := hget (name, ns)
      rw [if_neg, hold] at hsame
      · have hwritten := (hput (name, ns)).trans (if_pos rfl)
        rw [hsame] at hwritten
        obtain rfl := Option.some.inj hwritten
        exact hfree old (Table.mem_of_get hold) ⟨hrow.name, hrow.type⟩
      · intro hkey
        rw [← hkey, hold] at hnew
        exact nomatch hnew
  | createCertificate | importCertificate | deleteCertificate
  | createAccount | deleteAccount => exact id

/-- In every state that a run reaches from an empty registry: a call is
    harmless exactly when it does not import a ServiceAccount over a
    certificate user with its key. -/
theorem harmless_iff (w : World)
    (hempty : w.db.managedUsers = Table.empty) (steps : List UserStep)
    (k : UserCall) :
    Harmless (after userStep steps w) k
      ↔ ¬ TakesPlace (after userStep steps w) k := by
  have hdated : Dated (after userStep steps w).db.managedUsers := by
    have hstep : ∀ (v : World) (a : UserStep), Dated v.db.managedUsers →
        Dated (userStep a v).db.managedUsers := fun v a => dated_step a
    refine after_inv hstep ?_ steps
    rw [hempty]
    intro r hr
    exact nomatch hr
  exact ⟨not_takesPlace_of_harmless hdated, harmless_of_not_takesPlace⟩

/-- A new installation with one ServiceAccount on the local cluster. -/
def withAccount : World :=
  World.fresh.setCluster "local" { Cluster.fresh with
    serviceAccounts := Table.empty.put ⟨"ci", "default", []⟩ }

/-- It has an empty registry. With one user of each kind in it, the
    ServiceAccount is imported under a free key. -/
theorem harmless_withAccount :
    Harmless
      (after userStep [.call (.importCertificate "ada" []),
        .call (.createAccount "local" "bot" "default")] withAccount)
      (.importAccount "local" "ci" "default") := by
  refine (harmless_iff withAccount rfl _ _).mpr ?_
  rintro ⟨-, -, htaken⟩
  exact htaken rfl

/-- Importing the ServiceAccount of the same name and namespace turns the
    certificate user into a ServiceAccount user. -/
theorem import_takes_place :
    ¬ Harmless (after userStep [.call (.importCertificate "ci" [])] withAccount)
      (.importAccount "local" "ci" "default") := by
  intro h
  rcases h rfl with ⟨e, he, -⟩ | ⟨-, -, r, hnew, hget⟩
  · exact nomatch he
  · have hci := hget ("ci", "default")
    by_cases hr : ("ci", "default") = r.key
    · rw [← hr] at hnew
      exact nomatch hnew
    · rw [if_neg hr] at hci
      exact absurd (congrArg (Option.map ManagedUser.type) hci) (by decide)

end CvRegistration
