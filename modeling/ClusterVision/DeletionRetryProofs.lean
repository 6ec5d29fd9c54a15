import ClusterVision.FaultProofs
import ClusterVision.AccessRequestProofs
import ClusterVision.LinkProofs

/-! # Retrying a DELETE that failed

    DELETE calls Kubernetes, commits the registry, sweeps the bindings and
    clears the links, without a common transaction.  An attempt that fails
    leaves what its first calls have done.  The retry begins with the registry
    entry, and does nothing more once that is gone. -/

namespace CvRetry

open CvProg CvRun CvTable CvKube CvBackend CvRbac CvAccess CvRegistry CvUsers
open CvRegistration CvHttp CvDeletion CvLinks

/-! ## Requests and attempts -/

/-- `DELETE /users/{username}`, with its query. -/
structure Deletion where
  cluster : String
  username : String
  userType : UserType
  ns : String

/-- A failure: the call of an attempt that raises, and how.  The one error
    that the route tolerates is not among them. -/
structure Failure where
  call : Nat
  fault : Fault Exn
  not404 : fault.error ≠ .api ⟨404⟩

namespace Deletion

variable (q : Deletion)

/-- The route. -/
def prog (w : World) : Svc Body :=
  CvHttp.deleteUser (enoughPages q.cluster w) q.cluster q.username q.userType
    q.ns

/-- The entry that the request chooses. -/
def chosen (w : World) : Option RegistryEntry :=
  chosenEntry w q.username q.userType q.ns

/-- The world after an attempt that meets a failure. -/
def attempt (x : Failure) (w : World) : World :=
  ((q.prog w).run (faulty (failAt x.call x.fault) handle) (0, w)).2.2

/-- The world after an attempt that meets none. -/
def retry (w : World) : World := ((q.prog w).run handle w).2

/-- The calls of an attempt that take effect before, or when, it fails. -/
def done (x : Failure) (w : World) : List Op :=
  ((q.prog w).calls handle w).take (x.call + x.fault.effects)

/-- The call that deletes a binding. -/
def deletion (b : Binding) : Op :=
  .kube q.cluster (.deleteBinding b.ns b.name)

/-- The call that clears the links. -/
def clearing : Op :=
  .db (.commit [.clearLinksTo q.username (linkedNamespace q.userType q.ns)])

end Deletion

/-- Some account is linked to the user of this key. -/
def Linked (w : World) (k : String × String) : Prop :=
  ∃ a ∈ w.db.localUsers.rows, LinkedTo k a

/-- The user is unregistered, no binding has its prefix, and no account is
    linked to it. -/
structure Finished (q : Deletion) (u : RegistryEntry) (w : World) : Prop where
  unregistered : w.db.managedUsers.get u.key = none
  unbound : ∀ b ∈ (w.clusters q.cluster).bindings.rows,
    startswith b.name (bindingPrefix q.username) = false
  unlinked : ¬ Linked w u.key

variable {q : Deletion} {w v : World} {u x : RegistryEntry} {f : Failure}

/-! ## An attempt gives up where it fails -/

/-- Calls that change nothing: the end of a session. -/
def Inert (op : Op) : Prop := op = .db .close

variable {e : Exn}

/-- What the handlers of the delete calls do with an error. -/
theorem halts_tolerating (he : e ≠ .api ⟨404⟩) :
    (if e = .api ⟨404⟩ then pure () else throw e : Svc Unit).Halts Inert := by
  rw [if_neg he]
  exact trivial

theorem givesUp_tolerating (x : Exn) :
    (if x = .api ⟨404⟩ then pure () else throw x : Svc Unit).GivesUp Inert
      e :=
  Prog.givesUp_ite trivial trivial

theorem givesUp_loadRegistry : loadRegistry.GivesUp Inert e :=
  Prog.givesUp_bind (Prog.givesUp_perform _) (fun _ => trivial)

theorem givesUp_parseTime (text : String) :
    (CvRegistry.parseTime text).GivesUp Inert e := by
  rw [CvRegistry.parseTime]
  cases CvIso.fromisoformat text.toList with
  | none => exact trivial
  | some d => exact trivial

theorem givesUp_writeEntry (before : EntryDict) (writes : List DbWrite)
    (u : RegistryEntry) : (writeEntry before writes u).GivesUp Inert e := by
  have hcolumns : (columns u).GivesUp Inert e := by
    refine Prog.givesUp_bind (Prog.givesUp_ite ?_ (givesUp_parseTime _))
      (fun d => Prog.givesUp_bind ?_ (fun _ => trivial))
    · exact Prog.givesUp_bind (Prog.givesUp_perform _) (fun _ => trivial)
    · cases u.certExpiry with
      | none => exact trivial
      | some text =>
          exact Prog.givesUp_ite trivial
            (Prog.givesUp_bind (givesUp_parseTime _) (fun _ => trivial))
  refine Prog.givesUp_bind hcolumns (fun row => ?_)
  refine Prog.givesUp_bind (Prog.givesUp_perform _) (fun existing => ?_)
  cases existing with
  | none => exact trivial
  | some old => exact Prog.givesUp_ite trivial trivial

theorem givesUp_updateRegistry
    (mutate : List RegistryEntry → Except Exn (List RegistryEntry)) :
    (updateRegistry mutate).GivesUp Inert e := by
  refine Prog.givesUp_bind givesUp_loadRegistry (fun loaded => ?_)
  refine Prog.givesUp_bind (Prog.givesUp_ofExcept _) (fun users => ?_)
  refine Prog.givesUp_bind (Prog.givesUp_foldlM
    (fun writes u => givesUp_writeEntry _ writes u) _) (fun writes => ?_)
  exact Prog.givesUp_bind (Prog.givesUp_perform _) (fun _ => trivial)

theorem givesUp_deleteManagedUser (he : e ≠ .api ⟨404⟩) (cluster username : String)
    (userType : UserType) (ns : String) :
    (deleteManagedUser cluster username userType ns).GivesUp Inert e := by
  have hremove : ∀ gone : RegistryEntry → Bool,
      (updateRegistry (removeIf gone)).void.GivesUp Inert e :=
    fun gone => Prog.givesUp_bind (givesUp_updateRegistry _) (fun _ => trivial)
  refine Prog.givesUp_ite ?_ ?_
  · refine Prog.givesUp_bind givesUp_loadRegistry (fun users => ?_)
    cases users.find? (Certificate.isUser username) with
    | none => exact trivial
    | some user =>
        refine Prog.givesUp_bind ?_ (fun _ => hremove _)
        rw [Certificate.deleteSigningRequest]
        cases user.csrName with
        | none => exact trivial
        | some name =>
            exact Prog.givesUp_ite trivial (Prog.givesUp_catching
              (halts_tolerating he) givesUp_tolerating)
  · refine Prog.givesUp_bind givesUp_loadRegistry (fun users => ?_)
    refine Prog.givesUp_bind (Prog.givesUp_ofExcept _) (fun user => ?_)
    refine Prog.givesUp_bind (Prog.givesUp_catching (halts_tolerating he)
      givesUp_tolerating) (fun _ => ?_)
    refine Prog.givesUp_bind (Prog.givesUp_catching (halts_tolerating he)
      givesUp_tolerating) (fun _ => ?_)
    exact hremove _

/-- The whole route gives up where a call fails. -/
theorem givesUp_prog (he : e ≠ .api ⟨404⟩) :
    (q.prog w).GivesUp Inert e := by
  have hmatching : ∀ (u : Unit) (b : Binding), (deleteMatching q.cluster
      (bindingPrefix q.username) u b).GivesUp Inert e :=
    fun u b => Prog.givesUp_ite (Prog.givesUp_catching (halts_tolerating he)
      givesUp_tolerating) trivial
  refine Prog.givesUp_bind (givesUp_deleteManagedUser he ..) (fun _ => ?_)
  refine Prog.givesUp_bind (Prog.givesUp_bind ?_ (fun _ => ?_)) (fun _ => ?_)
  · exact Prog.givesUp_followPages (fun _ => Prog.givesUp_perform _) hmatching
      _ _ _
  · exact Prog.givesUp_followPages (fun _ => Prog.givesUp_perform _) hmatching
      _ _ _
  · refine Prog.givesUp_bind (Prog.givesUp_ensuring (Prog.givesUp_perform _)
      (Prog.givesUp_perform _) (Prog.uses_perform rfl)) (fun _ => trivial)

/-- An attempt that fails leaves what its calls have done up to there. -/
theorem attempt_eq (q : Deletion) (f : Failure) (w : World) :
    q.attempt f w = stateAfter handle (q.done f w) w := by
  have hinert : ∀ (op : Op) (s : World), Inert op → (handle op s).2 = s := by
    rintro op s rfl
    rfl
  have hrun := Prog.run_failAt hinert (givesUp_prog (q := q) (w := w)
    f.not404) 0 f.call w
  rw [Nat.zero_add] at hrun
  exact hrun

/-! ## What lists of calls leave -/

theorem calm_stateAfter {ops : List Op} (hops : ∀ op ∈ ops, Quiet op)
    (w : World) : Calm w (stateAfter handle ops w) := by
  induction ops generalizing w with
  | nil => exact calm_refl w
  | cons op ops ih =>
      exact calm_trans (calm_of_quiet (hops op (List.mem_cons_self ..)) w)
        (ih (fun o ho => hops o (List.mem_cons_of_mem op ho)) (handle op w).2)

/-- A commit. -/
def IsCommit (op : Op) : Prop := ∃ writes, op = .db (.commit writes)

/-- The calls of a DELETE: on bindings, it only deletes them. -/
def Deletes (cluster : String) (op : Op) : Prop :=
  Quiet op ∨ IsCommit op ∨
    ∃ ns name, op = .kube cluster (.deleteBinding ns name)

theorem noCommit_of_quiet {op : Op} (h : Quiet op) : NoCommit op := by
  rintro writes rfl
  exact h

/-- A binding is left by a delete call unless it is the one deleted. -/
theorem mem_after_deleteBinding (ns : Option String) (name : String)
    (w : World) (b : Binding) :
    b ∈ ((handle (.kube q.cluster (.deleteBinding ns name)) w).2.clusters
        q.cluster).bindings.rows ↔
      b ∈ (w.clusters q.cluster).bindings.rows ∧
        q.deletion b ≠ .kube q.cluster (.deleteBinding ns name) := by
  have hrows : ((handle (.kube q.cluster (.deleteBinding ns name))
      w).2.clusters q.cluster).bindings
        = (w.clusters q.cluster).bindings.erase (ns, name) := by
    show ((w.setCluster q.cluster (storing (w.clusters q.cluster) (deleteIn
      (w.clusters q.cluster).bindings (ns, name)) ()
        (w.clusters q.cluster).withBindings).2).clusters q.cluster).bindings
      = _
    rw [World.setCluster_self, deleteIn]
    cases hb : (w.clusters q.cluster).bindings.get (ns, name) with
    | none =>
        rw [Table.erase_of_get_none hb]
        rfl
    | some b => rfl
  rw [hrows, Table.mem_erase]
  refine and_congr_right (fun _ => not_congr ?_)
  constructor
  · intro hkey
    obtain ⟨rfl, rfl⟩ := Prod.mk.inj hkey
    rfl
  · intro hop
    cases hop
    rfl

/-- The bindings that are left are those whose deletion is not among the
    calls. -/
theorem mem_bindings_stateAfter {ops : List Op}
    (hops : ∀ op ∈ ops, Deletes q.cluster op) (w : World) (b : Binding) :
    b ∈ ((stateAfter handle ops w).clusters q.cluster).bindings.rows ↔
      b ∈ (w.clusters q.cluster).bindings.rows ∧ q.deletion b ∉ ops := by
  induction ops generalizing w with
  | nil => exact ⟨fun h => ⟨h, List.not_mem_nil⟩, And.left⟩
  | cons op ops ih =>
      have hrest := ih (fun o ho => hops o (List.mem_cons_of_mem op ho))
        (handle op w).2
      have hhead : b ∈ ((handle op w).2.clusters q.cluster).bindings.rows ↔
          b ∈ (w.clusters q.cluster).bindings.rows ∧ q.deletion b ≠ op := by
        rcases hops op (List.mem_cons_self ..) with
          hquiet | ⟨writes, rfl⟩ | ⟨ns, name, rfl⟩
        · rw [(calm_of_quiet hquiet w).bindings]
          refine ⟨fun h => ⟨h, ?_⟩, And.left⟩
          rintro rfl
          exact nomatch hquiet
        · exact ⟨fun h => ⟨h, nofun⟩, And.left⟩
        · exact mem_after_deleteBinding ns name w b
      show b ∈ ((stateAfter handle ops (handle op w).2).clusters
        q.cluster).bindings.rows ↔ _
      rw [hrest, hhead, List.mem_cons, not_or, and_assoc]

/-- The calls after the registry commit that write to the database. -/
def ClearsOnly (q : Deletion) (op : Op) : Prop :=
  NoCommit op ∨ op = q.clearing

theorem ClearsOnly.keepsUsers {op : Op} (h : ClearsOnly q op) :
    KeepsUsers op := by
  rcases h with h | rfl
  · exact KeepsUsers.of_noCommit op h
  · rintro writes ⟨⟩
    exact ⟨_, _, rfl⟩

/-- Who is linked when the links to one user have been cleared. -/
theorem linked_of_accounts {k : String × String} {name ns : String}
    (h : v.db.localUsers.rows
      = w.db.localUsers.rows.map (LocalUser.unlinked name ns)) :
    Linked v k ↔ Linked w k ∧ k ≠ (name, ns) := by
  rw [Linked, h]
  constructor
  · rintro ⟨a', ha', hlink⟩
    obtain ⟨a, ha, rfl⟩ := List.mem_map.mp ha'
    obtain ⟨hold, hne⟩ := linkedTo_unlinked.mp hlink
    exact ⟨⟨a, ha, hold⟩, hne⟩
  · rintro ⟨⟨a, ha, hold⟩, hne⟩
    exact ⟨_, List.mem_map.mpr ⟨a, ha, rfl⟩,
      linkedTo_unlinked.mpr ⟨hold, hne⟩⟩

/-- Who is linked after such calls. -/
theorem linked_stateAfter {ops : List Op}
    (hops : ∀ op ∈ ops, ClearsOnly q op) (w : World) (k : String × String) :
    Linked (stateAfter handle ops w) k ↔ Linked w k ∧
      (q.clearing ∈ ops →
        k ≠ (q.username, linkedNamespace q.userType q.ns)) := by
  induction ops generalizing w with
  | nil => exact ⟨fun h => ⟨h, fun hmem => absurd hmem List.not_mem_nil⟩,
      And.left⟩
  | cons op ops ih =>
      have hrest := ih (fun o ho => hops o (List.mem_cons_of_mem op ho))
        (handle op w).2
      show Linked (stateAfter handle ops (handle op w).2) k ↔ _
      rw [hrest, List.mem_cons]
      rcases hops op (List.mem_cons_self ..) with hno | rfl
      · have hsame : Linked (handle op w).2 k ↔ Linked w k := by
          rw [Linked, handle_db hno]
          exact Iff.rfl
        have hne : q.clearing ≠ op := by
          rintro rfl
          exact hno _ rfl
        rw [hsame, or_iff_right hne]
      · have hhead : Linked (handle q.clearing w).2 k ↔ Linked w k ∧
            k ≠ (q.username, linkedNamespace q.userType q.ns) :=
          linked_of_accounts rfl
        rw [hhead]
        constructor
        · rintro ⟨⟨hlink, hne⟩, -⟩
          exact ⟨hlink, fun _ => hne⟩
        · rintro ⟨hlink, hne⟩
          exact ⟨⟨hlink, hne (Or.inl rfl)⟩, fun h => hne (Or.inr h)⟩

theorem users_stateAfter {ops : List Op}
    (hops : ∀ op ∈ ops, ClearsOnly q op) (w : World) :
    (stateAfter handle ops w).db.managedUsers = w.db.managedUsers := by
  induction ops generalizing w with
  | nil => rfl
  | cons op ops ih =>
      have hrest := ih (fun o ho => hops o (List.mem_cons_of_mem op ho))
        (handle op w).2
      have hhead := handle_users
        (hops op (List.mem_cons_self ..)).keepsUsers w
      exact hrest.trans hhead

/-! ## The calls of a DELETE -/

theorem loadRegistry_quiet : loadRegistry.Uses Quiet :=
  Prog.uses_bind (Prog.uses_perform trivial) (fun _ => trivial)

/-- An update of the registry reads, and then commits. -/
theorem updateRegistry_endsWith {P : Op → Prop} (hnow : P .now)
    (hload : P (.db .selectManagedUsers))
    (hget : ∀ name ns, P (.db (.getManagedUser name ns)))
    (mutate : List RegistryEntry → Except Exn (List RegistryEntry)) :
    (updateRegistry mutate).EndsWith P IsCommit := by
  refine Prog.endsWith_bind (Prog.uses_bind (Prog.uses_perform hload)
    (fun _ => trivial)) (fun loaded => ?_)
  refine Prog.endsWith_bind (Prog.uses_ofExcept _) (fun users => ?_)
  refine Prog.endsWith_bind (Prog.uses_foldlM (fun writes u _ =>
    writeEntry_uses hnow hget _ writes u) _) (fun writes => ?_)
  exact Prog.EndsWith.andThen (Prog.endsWith_perform ⟨writes, rfl⟩)
    (fun _ => ⟨users, rfl⟩)

/-- The service functions write nothing but objects of the user before they
    commit, and nothing at all afterwards. -/
theorem deleteManagedUser_endsWith (cluster username : String)
    (userType : UserType) (ns : String) :
    (deleteManagedUser cluster username userType ns).EndsWith Quiet
      IsCommit := by
  have hremove : ∀ gone : RegistryEntry → Bool,
      (updateRegistry (removeIf gone)).void.EndsWith Quiet IsCommit :=
    fun gone => (updateRegistry_endsWith trivial trivial (fun _ _ => trivial)
      _).andThen (fun _ => ⟨(), rfl⟩)
  rw [deleteManagedUser]
  by_cases htype : userType = .certificate
  · rw [if_pos htype]
    refine Prog.endsWith_bind loadRegistry_quiet (fun users => ?_)
    cases users.find? (Certificate.isUser username) with
    | none => exact trivial
    | some user =>
        refine Prog.endsWith_bind ?_ (fun _ => hremove _)
        rw [Certificate.deleteSigningRequest]
        cases user.csrName with
        | none => exact trivial
        | some name =>
            exact Prog.uses_ite trivial
              (uses_unlessStatus (uses_kube rfl) trivial)
  · rw [if_neg htype]
    refine Prog.endsWith_bind loadRegistry_quiet (fun users => ?_)
    refine Prog.endsWith_bind (Prog.uses_ofExcept _) (fun user => ?_)
    refine Prog.endsWith_bind (uses_unlessStatus (uses_kube rfl) trivial)
      (fun _ => ?_)
    refine Prog.endsWith_bind (uses_unlessStatus (uses_kube rfl) trivial)
      (fun _ => ?_)
    exact hremove _

/-- What follows the service function. -/
def cleanup (q : Deletion) (fuel : Nat) : Svc Body := do
  deleteUserBindings fuel q.cluster q.username
  clearLinksTo q.username (linkedNamespace q.userType q.ns)
  pure .empty

theorem cleanup_uses {P : Op → Prop} (q : Deletion) (fuel : Nat)
    (hkube : ∀ scope cursor, P (.kube q.cluster
      (.listBindings scope none (some pageSize) cursor)))
    (hdelete : ∀ ns name, P (.kube q.cluster (.deleteBinding ns name)))
    (hclear : P q.clearing) (hclose : P (.db .close)) :
    (cleanup q fuel).Uses P := by
  have hmatching : ∀ (u : Unit) (b : Binding), (deleteMatching q.cluster
      (bindingPrefix q.username) u b).Uses P :=
    fun u b => Prog.uses_ite (uses_unlessStatus
      (Prog.uses_perform (hdelete _ _)) trivial) trivial
  refine Prog.uses_bind (Prog.uses_bind ?_ (fun _ => ?_)) (fun _ => ?_)
  · exact CvPage.uses_followPages (fun _ => Prog.uses_perform (hkube _ _))
      hmatching _ _ _
  · exact CvPage.uses_followPages (fun _ => Prog.uses_perform (hkube _ _))
      hmatching _ _ _
  · exact Prog.uses_bind (Prog.uses_ensuring (Prog.uses_perform hclear)
      (Prog.uses_perform hclose)) (fun _ => trivial)

theorem cleanup_deletes (q : Deletion) (fuel : Nat) :
    (cleanup q fuel).Uses (Deletes q.cluster) :=
  cleanup_uses q fuel (fun _ _ => Or.inl rfl)
    (fun ns name => Or.inr (Or.inr ⟨ns, name, rfl⟩))
    (Or.inr (Or.inl ⟨_, rfl⟩)) (Or.inl trivial)

theorem cleanup_clearsOnly (q : Deletion) (fuel : Nat) :
    (cleanup q fuel).Uses (ClearsOnly q) :=
  cleanup_uses q fuel (fun _ _ => Or.inl nofun) (fun _ _ => Or.inl nofun)
    (Or.inr rfl) (Or.inl nofun)

/-! ## What a failed attempt leaves -/

/-- What is left of the world `w` by an attempt that fails after its registry
    commit, when `done` are the calls that took effect. -/
structure Cut (q : Deletion) (x : RegistryEntry) (done : List Op)
    (w v : World) : Prop where
  users : Removed (removedWith q.username q.userType x) w.db.managedUsers
    v.db.managedUsers
  bindings : ∀ b, b ∈ (v.clusters q.cluster).bindings.rows ↔
    b ∈ (w.clusters q.cluster).bindings.rows ∧ q.deletion b ∉ done
  links : ∀ k, Linked v k ↔ Linked w k ∧ (q.clearing ∈ done →
    k ≠ (q.username, linkedNamespace q.userType q.ns))

/-- Only the first calls of the service function have taken effect. -/
theorem calm_of_take {init rest : List Op} {n : Nat}
    (hinit : ∀ op ∈ init, Quiet op) (hn : n ≤ init.length) (w : World) :
    (∀ op ∈ (init ++ rest).take n, NoCommit op) ∧
      Calm w (stateAfter handle ((init ++ rest).take n) w) := by
  rw [List.take_append_of_le_length hn]
  have htake : ∀ op ∈ init.take n, Quiet op :=
    fun op hop => hinit op (List.mem_of_mem_take hop)
  exact ⟨fun op hop => noCommit_of_quiet (htake op hop),
    calm_stateAfter htake w⟩

/-- An attempt that finds no entry makes one call. -/
theorem calls_none (h : q.chosen w = none) :
    (q.prog w).calls handle w = [.db .selectManagedUsers] := by
  obtain ⟨y, hrun⟩ := run_deleteManagedUser_none q.cluster h
  have hcalls : (q.prog w).calls handle w
      = (deleteManagedUser q.cluster q.username q.userType q.ns).calls handle
          w := Prog.calls_bind_error hrun
  rw [hcalls, deleteManagedUser]
  rw [Deletion.chosen, chosenEntry] at h
  by_cases htype : q.userType = .certificate
  · rw [if_pos htype] at h
    rw [if_pos htype, Certificate.deleteUser,
      Prog.calls_bind_ok (run_loadRegistry w), h]
    rfl
  · rw [if_neg htype] at h
    rw [if_neg htype, ServiceAccount.deleteUser,
      Prog.calls_bind_ok (run_loadRegistry w)]
    cases hchosen : ServiceAccount.chosen q.username q.ns
        (w.db.managedUsers.rows.map toDict) with
    | error e => rfl
    | ok u =>
        rw [hchosen] at h
        cases h

/-- The calls of an attempt that finds the entry `x`: the last one of the
    service function is the registry commit. -/
structure Calls (q : Deletion) (x : RegistryEntry) (w : World)
    (init : List Op) (commit : Op) (rest : List Op) : Prop where
  calls : (q.prog w).calls handle w = init ++ commit :: rest
  quiet : ∀ op ∈ init, Quiet op
  isCommit : IsCommit commit
  ne_clearing : commit ≠ q.clearing
  deletes : ∀ op ∈ rest, Deletes q.cluster op
  clearsOnly : ∀ op ∈ rest, ClearsOnly q op
  users : Removed (removedWith q.username q.userType x) w.db.managedUsers
    (stateAfter handle (init ++ [commit]) w).db.managedUsers
  accounts : (stateAfter handle (init ++ [commit]) w).db.localUsers
    = w.db.localUsers

/-- Removing the chosen entry changes the registry. -/
theorem ne_of_removed {t' : Users} (h : q.chosen w = some x)
    (hremoved : Removed (removedWith q.username q.userType x)
      w.db.managedUsers t') : t' ≠ w.db.managedUsers := by
  rintro rfl
  obtain ⟨r, hr, rfl⟩ := List.mem_map.mp (mem_of_chosen h)
  have hkey := hremoved r.key
  rw [Table.get_of_mem hr, Option.filter_some, removedWith_chosen h] at hkey
  cases hkey

theorem calls_chosen (hw : Legible w.db.managedUsers)
    (h : q.chosen w = some x) :
    ∃ init commit rest, Calls q x w init commit rest := by
  have hservice := run_deleteManagedUser_chosen q.cluster hw h
  have hcalls := Prog.run_calls handle (deleteManagedUser q.cluster q.username
    q.userType q.ns) w
  have hchanged := ne_of_removed h hservice.users
  have hends := (deleteManagedUser_endsWith q.cluster q.username q.userType
    q.ns).calls handle w
  generalize hp : deleteManagedUser q.cluster q.username q.userType q.ns = p
    at hservice hcalls hchanged hends
  rcases hends with hall | ⟨init, commit, heq, hcommit, hinit⟩
  · rw [hcalls, (calm_stateAfter hall w).db] at hchanged
    exact absurd rfl hchanged
  rw [heq] at hcalls
  have hrun : p.run handle w = (.ok (), (p.run handle w).2) :=
    Prod.ext hservice.ok rfl
  have hprog : q.prog w
      = (p >>= fun _ => cleanup q (enoughPages q.cluster w)) := by
    rw [← hp]
    rfl
  refine ⟨init, commit, _, {
    calls := ?_
    quiet := hinit
    isCommit := hcommit
    ne_clearing := ?_
    deletes := (cleanup_deletes q (enoughPages q.cluster w)).calls handle
      (p.run handle w).2
    clearsOnly := (cleanup_clearsOnly q (enoughPages q.cluster w)).calls
      handle (p.run handle w).2
    users := ?_
    accounts := ?_ }⟩
  · rw [hprog, Prog.calls_bind_ok hrun, heq, List.append_assoc]
    rfl
  · -- clearing links would not have changed the registry
    rintro rfl
    refine hchanged ?_
    rw [hcalls, stateAfter_append]
    show (handle q.clearing (stateAfter handle init w)).2.db.managedUsers = _
    rw [handle_users (ClearsOnly.keepsUsers (Or.inr rfl)),
      (calm_stateAfter hinit w).db]
  · rw [← hcalls]
    exact hservice.users
  · rw [← hcalls]
    exact hservice.accounts

/-- A failed attempt has not committed and is calm, or it has removed the
    entry, and done whatever else its calls say. -/
theorem attempt_cases (hw : Legible w.db.managedUsers) (f : Failure) :
    ((∀ op ∈ q.done f w, NoCommit op) ∧ Calm w (q.attempt f w)) ∨
      ∃ x, q.chosen w = some x ∧ (∃ op ∈ q.done f w, ¬ NoCommit op) ∧
        Cut q x (q.done f w) w (q.attempt f w) := by
  rw [attempt_eq]
  cases hchosen : q.chosen w with
  | none =>
      refine Or.inl ?_
      have hdone : ∀ op ∈ q.done f w, Quiet op := by
        intro op hop
        rw [Deletion.done, calls_none hchosen] at hop
        obtain rfl := List.mem_singleton.mp (List.mem_of_mem_take hop)
        exact trivial
      exact ⟨fun op hop => noCommit_of_quiet (hdone op hop),
        calm_stateAfter hdone w⟩
  | some x =>
      obtain ⟨init, commit, rest, h⟩ := calls_chosen hw hchosen
      rw [Deletion.done, h.calls]
      generalize f.call + f.fault.effects = n
      by_cases hn : n ≤ init.length
      · exact Or.inl (calm_of_take h.quiet hn w)
      -- the commit and some of the calls behind it
      obtain ⟨m, rfl⟩ : ∃ m, n = init.length + (m + 1) :=
        ⟨n - init.length - 1, by omega⟩
      have hdone : (init ++ commit :: rest).take (init.length + (m + 1))
          = (init ++ [commit]) ++ rest.take m := by
        rw [List.take_length_add_append, List.take_succ_cons,
          List.append_assoc]
        rfl
      rw [hdone]
      have hrest : ∀ op ∈ rest.take m, op ∈ rest :=
        fun _ hop => List.mem_of_mem_take hop
      have hdeletes : ∀ op ∈ (init ++ [commit]) ++ rest.take m,
          Deletes q.cluster op := by
        intro op hop
        rcases List.mem_append.mp hop with hfirst | hlater
        · rcases List.mem_append.mp hfirst with hinit | hcommit
          · exact Or.inl (h.quiet op hinit)
          · rw [List.mem_singleton.mp hcommit]
            exact Or.inr (Or.inl h.isCommit)
        · exact h.deletes op (hrest op hlater)
      have hclearing : q.clearing ∈ (init ++ [commit]) ++ rest.take m ↔
          q.clearing ∈ rest.take m := by
        rw [List.mem_append, or_iff_right]
        intro hfirst
        rcases List.mem_append.mp hfirst with hinit | hcommit
        · exact noCommit_of_quiet (h.quiet _ hinit) _ rfl
        · exact h.ne_clearing (List.mem_singleton.mp hcommit).symm
      refine Or.inr ⟨x, rfl, ⟨commit, ?_, ?_⟩, ?_, ?_, ?_⟩
      · exact List.mem_append_left _
          (List.mem_append_right _ (List.mem_singleton_self commit))
      · obtain ⟨writes, hwrites⟩ := h.isCommit
        exact fun hno => hno writes hwrites
      · rw [stateAfter_append,
          users_stateAfter (fun op hop => h.clearsOnly op (hrest op hop))]
        exact h.users
      · exact fun b => mem_bindings_stateAfter hdeletes w b
      · intro k
        have hlinks := linked_stateAfter
          (fun op hop => h.clearsOnly op (hrest op hop))
          (stateAfter handle (init ++ [commit]) w) k
        have hsame : Linked (stateAfter handle (init ++ [commit]) w) k ↔
            Linked w k := by
          rw [Linked, h.accounts]
          exact Iff.rfl
        rw [hsame] at hlinks
        rw [stateAfter_append, hclearing]
        exact hlinks

/-! ## Whether a retry finds another entry -/

/-- The request is for a ServiceAccount user, and there are two of the name. -/
def OneOther (q : Deletion) (w : World) : Prop :=
  q.userType ≠ .certificate ∧ (ServiceAccount.matching q.username
    (w.db.managedUsers.rows.map toDict)).length = 2

/-- Where no user of the name is in the namespace, the choice falls on the
    only one. -/
theorem chosen_of_absent {username ns : String} {users : List RegistryEntry}
    (h : ∀ y ∈ ServiceAccount.matching username users, y.ns ≠ ns) :
    (∃ y, ServiceAccount.chosen username ns users = .ok y) ↔
      (ServiceAccount.matching username users).length = 1 := by
  rw [ServiceAccount.chosen]
  generalize ServiceAccount.matching username users = ms at h
  cases ms with
  | nil =>
      refine iff_of_false ?_ (fun h => by cases h)
      rintro ⟨_, h⟩
      cases h
  | cons y ys =>
      have hfind : (y :: ys).find? (fun u => decide (u.ns = ns)) = none := by
        rw [List.find?_eq_none]
        exact fun z hz => by simpa using h z hz
      simp only [hfind]
      by_cases hys : ys = []
      · rw [if_neg (not_not.mpr hys), hys]
        exact iff_of_true ⟨y, rfl⟩ rfl
      · rw [if_pos hys]
        refine iff_of_false ?_ ?_
        · rintro ⟨_, h⟩
          cases h
        intro hlength
        exact hys (List.length_eq_zero_iff.mp (Nat.succ.inj hlength))

/-- The chosen entry is in the namespace, or the only one of the name. -/
theorem chosen_ns {username ns : String} {users : List RegistryEntry}
    (h : ServiceAccount.chosen username ns users = .ok x) :
    x ∈ ServiceAccount.matching username users ∧
      (x.ns = ns ∨ ServiceAccount.matching username users = [x]) := by
  rw [ServiceAccount.chosen] at h
  cases hm : ServiceAccount.matching username users with
  | nil =>
      rw [hm] at h
      cases h
  | cons y ys =>
      rw [hm] at h
      simp only at h
      cases hfind : (y :: ys).find? (fun u => decide (u.ns = ns)) with
      | some z =>
          rw [hfind] at h
          obtain rfl := Except.ok.inj h
          have hns := List.find?_some hfind
          exact ⟨List.mem_of_find?_eq_some hfind,
            Or.inl (of_decide_eq_true hns)⟩
      | none =>
          rw [hfind] at h
          by_cases hys : ys = []
          · simp only [if_neg (not_not.mpr hys)] at h
            obtain rfl := Except.ok.inj h
            rw [hys]
            exact ⟨List.mem_singleton_self y, Or.inr rfl⟩
          · simp only [if_pos hys] at h
            cases h

/-- The entries that are left when users have been removed. -/
theorem removed_perm {t t' : Users} {gone : RegistryEntry → Bool}
    (h : Removed gone t t') :
    (t'.rows.map toDict).Perm
      ((t.rows.map toDict).filter (fun u => !gone u)) := by
  have hnodup : ∀ s : Users, s.rows.Nodup :=
    fun s => List.Nodup.of_map _ s.nodup
  have hrows : t'.rows.Perm (t.rows.filter (fun r => !gone (toDict r))) := by
    rw [List.perm_ext_iff_of_nodup (hnodup t') ((hnodup t).filter _)]
    intro r
    rw [List.mem_filter]
    constructor
    · intro hr
      have hkey := h r.key
      rw [Table.get_of_mem hr] at hkey
      have hold := Option.eq_some_of_filter_eq_some hkey.symm
      rw [hold, Option.filter_some] at hkey
      refine ⟨Table.mem_of_get hold, ?_⟩
      by_contra hgone
      rw [if_neg hgone] at hkey
      cases hkey
    · rintro ⟨hr, hgone⟩
      exact h.keeps hr (by rwa [Bool.not_eq_true'] at hgone)
  have hmap : (t.rows.map toDict).filter (fun u => !gone u)
      = (t.rows.filter (fun r => !gone (toDict r))).map toDict :=
    List.filter_map
  rw [hmap]
  exact hrows.map toDict

/-- The ServiceAccount users of the name that are left. -/
theorem matching_perm {username : String} {t t' : Users}
    (hx : x ∈ ServiceAccount.matching username (t.rows.map toDict))
    (h : Removed (ServiceAccount.isEntry username x.ns) t t') :
    (ServiceAccount.matching username (t'.rows.map toDict)).Perm
      ((ServiceAccount.matching username (t.rows.map toDict)).erase x) := by
  have hkeys : ((t.rows.map toDict).map RegistryEntry.key).Nodup := by
    rw [List.map_map]
    exact t.nodup
  have hnodup : (ServiceAccount.matching username (t.rows.map toDict)).Nodup :=
    (List.Nodup.of_map _ hkeys).filter _
  have hleft := (removed_perm h).filter
    (fun u => decide (u.name = username ∧ u.type = .serviceAccount))
  obtain ⟨hxmem, hxname⟩ := List.mem_filter.mp hx
  obtain ⟨hxname, hxtype⟩ := of_decide_eq_true hxname
  have hswap : ((t.rows.map toDict).filter
        (fun u => !ServiceAccount.isEntry username x.ns u)).filter
          (fun u => decide (u.name = username ∧ u.type = .serviceAccount))
      = (ServiceAccount.matching username (t.rows.map toDict)).erase x := by
    rw [hnodup.erase_eq_filter, ServiceAccount.matching, List.filter_filter,
      List.filter_filter]
    refine List.filter_congr (fun y hy => ?_)
    rw [Bool.eq_iff_iff]
    simp only [ServiceAccount.isEntry, Bool.and_eq_true, decide_eq_true_eq,
      Bool.not_eq_true', decide_eq_false_iff_not, bne_iff_ne]
    constructor
    · rintro ⟨⟨hname, htype⟩, hne⟩
      refine ⟨?_, hname, htype⟩
      rintro rfl
      exact hne ⟨hname, htype, rfl⟩
    · rintro ⟨hne, hname, htype⟩
      refine ⟨⟨hname, htype⟩, ?_⟩
      rintro ⟨-, -, hns⟩
      exact hne (List.inj_on_of_nodup_map hkeys hy hxmem
        (Prod.ext (hname.trans hxname.symm) hns))
  rw [hswap] at hleft
  exact hleft

/-- Once the entry is removed, the request finds one exactly when there was
    exactly one other. -/
theorem chosen_after (h : q.chosen w = some x)
    (hremoved : Removed (removedWith q.username q.userType x)
      w.db.managedUsers v.db.managedUsers) :
    (∃ y, q.chosen v = some y) ↔ OneOther q w := by
  by_cases htype : q.userType = .certificate
  · refine iff_of_false ?_ (fun hone => hone.1 htype)
    rintro ⟨y, hy⟩
    rw [Deletion.chosen, chosenEntry, if_pos htype] at hy
    have hyuser : Certificate.isUser q.username y = true :=
      List.find?_some hy
    have hmem := (removed_perm hremoved).mem_iff.mp
      (List.mem_of_find?_eq_some hy)
    have hgone := (List.mem_filter.mp hmem).2
    rw [removedWith, if_pos htype, hyuser] at hgone
    cases hgone
  · obtain ⟨hx, hns⟩ := chosen_ns (chosen_of_chosenEntry htype h)
    rw [removedWith, if_neg htype] at hremoved
    have hleft := matching_perm hx hremoved
    have hlength := hleft.length_eq
    rw [List.length_erase_of_mem hx] at hlength
    -- none of those that are left is in the namespace of the request
    have habsent : ∀ y ∈ ServiceAccount.matching q.username
        (v.db.managedUsers.rows.map toDict), y.ns ≠ q.ns := by
      intro y hy
      rcases hns with hxns | honly
      · obtain ⟨hymem, hyname⟩ := List.mem_filter.mp hy
        have hkept := (List.mem_filter.mp
          ((removed_perm hremoved).mem_iff.mp hymem)).2
        obtain ⟨hyname, hytype⟩ := of_decide_eq_true hyname
        intro hyns
        have hgone : ServiceAccount.isEntry q.username x.ns y = true :=
          decide_eq_true ⟨hyname, hytype, hyns.trans hxns.symm⟩
        rw [hgone] at hkept
        cases hkept
      · rw [honly, List.erase_cons_head] at hleft
        rw [hleft.eq_nil] at hy
        exact absurd hy List.not_mem_nil
    have hiff := chosen_of_absent habsent
    have hpos := List.length_pos_of_mem hx
    rw [hlength] at hiff
    have hcount : (ServiceAccount.matching q.username
        (w.db.managedUsers.rows.map toDict)).length - 1 = 1 ↔
          OneOther q w := by
      rw [OneOther, and_iff_right htype]
      omega
    rw [← hcount, ← hiff, Deletion.chosen, chosenEntry, if_neg htype]
    cases ServiceAccount.chosen q.username q.ns
        (v.db.managedUsers.rows.map toDict) with
    | error e =>
        refine iff_of_false ?_ ?_
        · rintro ⟨_, h⟩
          cases h
        · rintro ⟨_, h⟩
          cases h
    | ok y => exact iff_of_true ⟨y, rfl⟩ ⟨y, rfl⟩

/-! ## Retries -/

/-- The entry is in the namespace whose links the request clears, or no account
    is linked to it. -/
def LinksCleared (q : Deletion) (u : RegistryEntry) (w : World) : Prop :=
  u.ns = linkedNamespace q.userType q.ns ∨ ¬ Linked w u.key

/-- The calls delete every binding with the prefix, and clear the links if any
    account is linked to the entry. -/
structure Cleaned (q : Deletion) (u : RegistryEntry) (w : World)
    (done : List Op) : Prop where
  bindings : ∀ b ∈ (w.clusters q.cluster).bindings.rows,
    startswith b.name (bindingPrefix q.username) = true →
      q.deletion b ∈ done
  links : Linked w u.key → q.clearing ∈ done

/-- A failure that a retry makes up for: before the registry commit has taken
    effect, or after the last call that was needed; or the retry finds one
    other entry to go on with. -/
def Recovers (q : Deletion) (u : RegistryEntry) (w : World) (f : Failure) :
    Prop :=
  (∀ op ∈ q.done f w, NoCommit op) ∨ Cleaned q u w (q.done f w) ∨
    OneOther q w

/-- From this world an attempt without failure finishes the deletion of the
    entry: it finds an entry, or nothing is left to do. -/
def CanFinish (q : Deletion) (u : RegistryEntry) (w : World) : Prop :=
  (∃ x, q.chosen w = some x ∧
    (x.key = u.key ∨ w.db.managedUsers.get u.key = none) ∧
    LinksCleared q u w) ∨
  (q.chosen w = none ∧ Finished q u w)

theorem retry_none (h : q.chosen w = none) : q.retry w = w := by
  obtain ⟨y, hrun⟩ := run_deleteUser_none (enoughPages q.cluster w)
    q.cluster h
  rw [Deletion.retry, Deletion.prog, hrun]

/-- An entry that is removed is unregistered, and one that was unregistered
    stays so. -/
theorem unregistered_of_removed {t' : Users} (h : q.chosen w = some x)
    (hu : x.key = u.key ∨ w.db.managedUsers.get u.key = none)
    (hremoved : Removed (removedWith q.username q.userType x)
      w.db.managedUsers t') : t'.get u.key = none := by
  rw [hremoved u.key]
  rcases hu with hkey | hnone
  · obtain ⟨r, hr, rfl⟩ := List.mem_map.mp (mem_of_chosen h)
    rw [← hkey, toDict_key, Table.get_of_mem hr, Option.filter_some,
      removedWith_chosen h]
    rfl
  · rw [hnone, Option.filter_none]

/-- An attempt that finds an entry and meets no failure. -/
theorem finished_retry_iff (hw : Legible w.db.managedUsers)
    (hname : u.name = q.username) (h : q.chosen w = some x)
    (hu : x.key = u.key ∨ w.db.managedUsers.get u.key = none) :
    Finished q u (q.retry w) ↔ LinksCleared q u w := by
  have hdeleted := (run_deleteUser_chosen q.cluster hw
    (Nat.lt_succ_self _) h).2
  have hlinks : Linked (q.retry w) u.key ↔ Linked w u.key ∧
      u.key ≠ (q.username, linkedNamespace q.userType q.ns) :=
    linked_of_accounts hdeleted.accounts
  have hkey : u.key = (q.username, linkedNamespace q.userType q.ns) ↔
      u.ns = linkedNamespace q.userType q.ns := by
    rw [← hname]
    exact ⟨fun h => (Prod.mk.inj h).2, fun h => by rw [← h]; rfl⟩
  constructor
  · intro hfinished
    rw [LinksCleared, or_iff_not_imp_left]
    intro hns hlinked
    exact hfinished.unlinked (hlinks.mpr ⟨hlinked, fun h => hns (hkey.mp h)⟩)
  · intro hclears
    refine ⟨unregistered_of_removed h hu hdeleted.users, ?_, ?_⟩
    · intro b hb
      have hb' : b ∈ ((w.clusters q.cluster).bindings.keep (fun b =>
          !startswith b.name (bindingPrefix q.username))).rows :=
        hdeleted.bindings ▸ hb
      have hno := (Table.mem_keep.mp hb').2
      rw [Bool.not_eq_true'] at hno
      exact hno
    · rw [hlinks]
      rintro ⟨hlinked, hne⟩
      rcases hclears with hns | hnone
      · exact hne (hkey.mpr hns)
      · exact hnone hlinked

/-- What `CanFinish` says. -/
theorem finished_retry_of_canFinish (hw : Legible w.db.managedUsers)
    (hname : u.name = q.username) (h : CanFinish q u w) :
    Finished q u (q.retry w) := by
  rcases h with ⟨x, hx, hu, hclears⟩ | ⟨hnone, hfinished⟩
  · exact (finished_retry_iff hw hname hx hu).mpr hclears
  · rw [retry_none hnone]
    exact hfinished

/-- It depends on the database and the bindings only. -/
theorem canFinish_calm (hcalm : Calm w v) (h : CanFinish q u w) :
    CanFinish q u v := by
  have hchosen : q.chosen v = q.chosen w := by
    rw [Deletion.chosen, chosenEntry, hcalm.db]
    rfl
  have hlinked : Linked v u.key ↔ Linked w u.key := by
    rw [Linked, hcalm.db]
    exact Iff.rfl
  rcases h with ⟨x, hx, hu, hclears⟩ | ⟨hnone, hfinished⟩
  · refine Or.inl ⟨x, hchosen.trans hx, ?_, ?_⟩
    · rw [hcalm.db]
      exact hu
    · rw [LinksCleared, hlinked]
      exact hclears
  · refine Or.inr ⟨hchosen.trans hnone, ?_, ?_, ?_⟩
    · rw [hcalm.db]
      exact hfinished.unregistered
    · rw [hcalm.bindings]
      exact hfinished.unbound
    · rw [hlinked]
      exact hfinished.unlinked

/-- After an attempt that fails behind its registry commit, nothing is left
    exactly when its calls have cleaned up. -/
theorem finished_cut_iff {done : List Op} (hname : u.name = q.username)
    (h : q.chosen w = some x)
    (hu : x.key = u.key ∨ w.db.managedUsers.get u.key = none)
    (hclears : LinksCleared q u w) (hcut : Cut q x done w v) :
    Finished q u v ↔ Cleaned q u w done := by
  have hlinks := hcut.links u.key
  constructor
  · intro hfinished
    refine ⟨?_, ?_⟩
    · intro b hb hstart
      by_contra hkept
      have hno := hfinished.unbound b ((hcut.bindings b).mpr ⟨hb, hkept⟩)
      rw [hstart] at hno
      cases hno
    · intro hlinked
      by_contra hkept
      exact hfinished.unlinked
        (hlinks.mpr ⟨hlinked, fun hmem => absurd hmem hkept⟩)
  · intro hcleaned
    refine ⟨unregistered_of_removed h hu hcut.users, ?_, ?_⟩
    · intro b hb
      obtain ⟨hold, hkept⟩ := (hcut.bindings b).mp hb
      rw [← Bool.not_eq_true]
      exact fun hstart => hkept (hcleaned.bindings b hold hstart)
    · intro hlinked
      obtain ⟨hold, hne⟩ := hlinks.mp hlinked
      rcases hclears with hns | hnone
      · refine hne (hcleaned.links hold) ?_
        rw [← hname, ← hns]
        rfl
      · exact hnone hold

/-- What the worlds of a run of failed attempts satisfy as long as a retry can
    finish. -/
structure Retriable (q : Deletion) (u : RegistryEntry) (w : World) : Prop where
  legible : Legible w.db.managedUsers
  canFinish : CanFinish q u w

/-- One failed attempt: a retry can still finish exactly when it makes up for
    the failure. -/
theorem attempt_canFinish (hname : u.name = q.username)
    (hw : Retriable q u w) (f : Failure) :
    (Finished q u (q.retry (q.attempt f w)) ↔ Recovers q u w f) ∧
      (Finished q u (q.retry (q.attempt f w)) →
        Retriable q u (q.attempt f w)) := by
  rcases attempt_cases hw.legible f with
    ⟨hno, hcalm⟩ | ⟨x, hx, ⟨op, hop, hcommit⟩, hcut⟩
  · have hlegible : Legible (q.attempt f w).db.managedUsers := by
      rw [hcalm.db]
      exact hw.legible
    have hcan := canFinish_calm hcalm hw.canFinish
    exact ⟨iff_of_true (finished_retry_of_canFinish hlegible hname hcan)
      (Or.inl hno), fun _ => ⟨hlegible, hcan⟩⟩
  · obtain ⟨hu, hclears⟩ : (x.key = u.key ∨
        w.db.managedUsers.get u.key = none) ∧ LinksCleared q u w := by
      rcases hw.canFinish with ⟨y, hy, hu, hclears⟩ | ⟨hnone, -⟩
      · rw [hx] at hy
        obtain rfl := Option.some.inj hy
        exact ⟨hu, hclears⟩
      · rw [hx] at hnone
        cases hnone
    have hlegible : Legible (q.attempt f w).db.managedUsers :=
      hw.legible.removed hcut.users
    have hrecovers : Recovers q u w f ↔
        Cleaned q u w (q.done f w) ∨ OneOther q w :=
      or_iff_right (fun hno => hcommit (hno op hop))
    rw [hrecovers]
    have hafter := chosen_after hx hcut.users
    by_cases hother : OneOther q w
    · -- the retry goes on with the other entry
      obtain ⟨y, hy⟩ := hafter.mpr hother
      have hcan : CanFinish q u (q.attempt f w) := by
        refine Or.inl ⟨y, hy, Or.inr (unregistered_of_removed hx hu
          hcut.users), ?_⟩
        exact hclears.imp_right (fun hnone hlinked =>
          hnone ((hcut.links u.key).mp hlinked).1)
      exact ⟨iff_of_true (finished_retry_of_canFinish hlegible hname hcan)
        (Or.inr hother), fun _ => ⟨hlegible, hcan⟩⟩
    · have hnone : q.chosen (q.attempt f w) = none := by
        rw [Option.eq_none_iff_forall_not_mem]
        exact fun y hy => hother (hafter.mp ⟨y, hy⟩)
      rw [retry_none hnone, or_iff_left hother]
      exact ⟨finished_cut_iff hname hx hu hclears hcut,
        fun hfinished => ⟨hlegible, Or.inr ⟨hnone, hfinished⟩⟩⟩

/-- Whatever the attempts before, an attempt without failure finishes the
    deletion, exactly when the request clears the links to the entry and every
    failed attempt stopped where a retry makes up for it. -/
theorem retry_finishes_iff (q : Deletion) (w : World) (u : RegistryEntry)
    (hw : Legible w.db.managedUsers) (hu : q.chosen w = some u)
    (fs : List Failure) :
    (∀ pre, pre <+: fs → Finished q u (q.retry (after q.attempt pre w))) ↔
      LinksCleared q u w ∧ Along q.attempt (Recovers q u) fs w := by
  have hname : u.name = q.username := (chosen_name hu).1
  have hfirst := finished_retry_iff hw hname hu (Or.inl rfl)
  refine (reached_iff (I := fun v : World => Finished q u (q.retry v))).trans ?_
  rw [hfirst]
  refine and_congr_right (fun hclears => ?_)
  have hstep : ∀ (v : World) (f : Failure), Retriable q u v →
      Finished q u (q.retry (q.attempt f v)) →
        Retriable q u (q.attempt f v) :=
    fun v f hv => (attempt_canFinish hname hv f).2
  have hiff : ∀ (v : World) (f : Failure), Retriable q u v →
      (Finished q u (q.retry (q.attempt f v)) ↔ Recovers q u v f) :=
    fun v f hv => (attempt_canFinish hname hv f).1
  exact along_congr hstep hiff
    ⟨hw, Or.inl ⟨u, hu, Or.inl rfl, hclears⟩⟩ fs

/-! ## A ServiceAccount user with a role -/

/-- The ServiceAccount user `ci`, with one role. -/
def withRole : World :=
  ((assignRole "local" "ci" "ServiceAccount" "view" .clusterRole none
    (some "default")).run handle
      ((ServiceAccount.createUser "local" "ci" "default").run handle
        World.fresh).2).2

/-- The request that deletes it. -/
def deleteCi : Deletion := ⟨"local", "ci", .serviceAccount, "default"⟩

theorem legible_withRole : Legible withRole.db.managedUsers := by
  have hfresh : Dated World.fresh.db.managedUsers := by
    intro r hr
    cases hr
  have hcreated := dated_step
    (.call (.createAccount "local" "ci" "default")) hfresh
  have hassigned : withRole.db = (userStep
      (.call (.createAccount "local" "ci" "default")) World.fresh).db :=
    (run_db_of_uses ((assignRole_kubeOn ..).imp KubeOn.noCommit) _).trans
      (congrArg World.db (Prog.run_void_snd handle _ _)).symm
  rw [hassigned]
  exact fun r hr => readable_toDict hcreated.timely hr

/-- The `n`-th call of an attempt is answered with 503. -/
def unavailable (n : Nat) : Failure where
  call := n
  fault := .refuse (.api ⟨503⟩)
  not404 := by decide

/-- An attempt fails at the deletion of the ServiceAccount, and is repeated. -/
theorem retry_finishes_early :
    LinksCleared deleteCi ciEntry withRole ∧ ∀ pre, pre <+: [unavailable 1] →
      Finished deleteCi ciEntry
        (deleteCi.retry (after deleteCi.attempt pre withRole)) := by
  refine ⟨Or.inl rfl, ?_⟩
  refine (retry_finishes_iff deleteCi withRole ciEntry legible_withRole rfl
    [unavailable 1]).mpr ⟨Or.inl rfl, Or.inl ?_, trivial⟩
  intro op hop
  have hdone : deleteCi.done (unavailable 1) withRole
      = [.db .selectManagedUsers] := rfl
  rw [hdone] at hop
  rw [List.mem_singleton.mp hop]
  exact nofun

/-- An attempt fails at the first call of the binding sweep: the entry is gone
    by then, so that the retry is answered with 404, and the role stays. -/
theorem retry_stops :
    ¬ ∀ pre, pre <+: [unavailable 5] →
      Finished deleteCi ciEntry
        (deleteCi.retry (after deleteCi.attempt pre withRole)) := by
  intro h
  have hfinished := (h [unavailable 5] (List.prefix_refl _)).unbound
  revert hfinished
  decide +kernel

end CvRetry
