import ClusterVision.RegistryProofs
import ClusterVision.RbacProofs
import ClusterVision.UserServices

/-! # What the user services do

    A service function prepares its cluster and then updates the registry.  So
    it leaves the registry as it was, or it has appended its user, or removed
    the users it was asked to remove. -/

namespace CvUsers

open CvProg CvTable CvIso CvKube CvBackend CvRbac CvRegistry

/-- The rows of the registry. -/
abbrev Users := Table ManagedUser ManagedUser.key

variable {w : World} {t : Users} {E : Users → Prop}

/-! ## Updates of the registry -/

/-- The user has been appended: nobody was in the way, and its row is new. -/
structure Appended (taken : RegistryEntry → Bool) (user : RegistryEntry)
    (t t' : Users) : Prop where
  free : ∀ r ∈ t.rows, taken (toDict r) = false
  row : ∃ r, RowOf user r ∧
    ∀ k, t'.get k = if k = user.key then some r else t.get k

/-- The users for whom `gone` holds have been removed. -/
def Removed (gone : RegistryEntry → Bool) (t t' : Users) : Prop :=
  ∀ k, t'.get k = (t.get k).filter (fun r => !gone (toDict r))

/-- Who is appended does not take the place of somebody in the way. -/
theorem Appended.keeps {taken : RegistryEntry → Bool} {user : RegistryEntry}
    {t' : Users} {r : ManagedUser} (h : Appended taken user t t')
    (hr : r ∈ t.rows)
    (htaken : r.key = user.key → taken (toDict r) = true) : r ∈ t'.rows := by
  obtain ⟨row, -, hget⟩ := h.row
  have hne : r.key ≠ user.key := by
    intro hkey
    have hfree := h.free r hr
    rw [htaken hkey] at hfree
    exact nomatch hfree
  have hold := hget r.key
  rw [if_neg hne, Table.get_of_mem hr] at hold
  exact Table.mem_of_get hold

/-- Who is not removed stays. -/
theorem Removed.keeps {gone : RegistryEntry → Bool} {t' : Users}
    {r : ManagedUser} (h : Removed gone t t') (hr : r ∈ t.rows)
    (hgone : gone (toDict r) = false) : r ∈ t'.rows := by
  have hold := h r.key
  rw [Table.get_of_mem hr, Option.filter_some, hgone] at hold
  exact Table.mem_of_get hold

/-- The registry is `t` still, or has become one of `E`. -/
def Leaves (t : Users) (E : Users → Prop) (w : World) : Prop :=
  w.db.managedUsers = t ∨ E w.db.managedUsers

theorem Leaves.imp {E' : Users → Prop} (hE : ∀ t', E t' → E' t')
    (h : Leaves t E w) : Leaves t E' w := by
  rcases h with h | h
  · exact Or.inl h
  · exact Or.inr (hE _ h)

/-- A program has raised and the registry is `t` still, or it has returned and
    the registry has become one of `E`. -/
def Ends {α : Type} (t : Users) (E : Users → Prop)
    (o : Except Exn α × World) : Prop :=
  (∃ e, o.1 = .error e ∧ o.2.db.managedUsers = t) ∨
    ∃ a, o.1 = .ok a ∧ E o.2.db.managedUsers

theorem Ends.leaves {α : Type} {o : Except Exn α × World}
    (h : Ends t E o) : Leaves t E o.2 := by
  rcases h with ⟨e, -, h⟩ | ⟨a, -, h⟩
  · exact Or.inl h
  · exact Or.inr h

theorem Ends.imp {α : Type} {o : Except Exn α × World} {E' : Users → Prop}
    (hE : ∀ t', E t' → E' t') (h : Ends t E o) : Ends t E' o :=
  h.imp_right (fun ⟨a, ha, hend⟩ => ⟨a, ha, hE _ hend⟩)

/-- An entry that stays as it is keeps its row. -/
theorem stores_same {k : String × String} {r : Option ManagedUser}
    (h : Stores w k ((registryOf w.db).get k) r) :
    r = w.db.managedUsers.get k := by
  cases hget : (registryOf w.db).get k with
  | none =>
      rw [hget] at h
      rw [get_registryOf, Option.map_eq_none_iff] at hget
      rw [hget]
      exact h
  | some u =>
      rw [hget] at h
      rcases h with ⟨-, hr⟩ | ⟨hne, -⟩
      · exact hr
      · exact absurd hget hne

/-- Appending a user that would be in its own way. -/
theorem run_append {taken : RegistryEntry → Bool} {user : RegistryEntry}
    (htaken : taken user = true) (hw : w.db.managedUsers = t) :
    Ends t (Appended taken user t)
      ((updateRegistry (appendUnless taken user)).run handle w) := by
  rcases run_updateRegistry (appendUnless taken user) w with
    ⟨⟨e, w', hrun, hidle⟩, -⟩ | ⟨users, t', hmut, hcommit, hstores⟩
  · rw [hrun]
    exact Or.inl ⟨e, rfl, (congrArg Database.managedUsers hidle.db).trans hw⟩
  rw [appendUnless] at hmut
  by_cases hany : (registryOf w.db).rows.any taken = true
  · rw [if_pos hany] at hmut
    exact nomatch hmut
  rw [if_neg hany] at hmut
  obtain rfl := Except.ok.inj hmut
  rw [entryDict_append] at hstores
  have hfree : ∀ u ∈ (registryOf w.db).rows, taken u = false := by
    intro u hu
    rw [Bool.not_eq_true, List.any_eq_false] at hany
    exact Bool.eq_false_iff.mpr (hany u hu)
  refine Or.inr ⟨_, hcommit.ok, ?_⟩
  rw [hcommit.db, withUsers_managedUsers, ← hw]
  refine ⟨?_, ?_⟩
  · intro r hr
    refine hfree (toDict r) ?_
    rw [rows_registryOf]
    exact List.mem_map.mpr ⟨r, hr, rfl⟩
  · -- the dictionary of the user is not there yet, so its row is written
    have huser := hstores user.key
    rw [Table.get_put_self] at huser
    rcases huser with ⟨hold, -⟩ | ⟨-, r, hrow, hget⟩
    · have hmem := hfree user (Table.mem_of_get hold)
      rw [htaken] at hmem
      exact nomatch hmem
    refine ⟨r, hrow, ?_⟩
    intro k
    by_cases hk : k = user.key
    · rw [if_pos hk, hk, hget]
    · rw [if_neg hk]
      have h := hstores k
      rw [Table.get_put_ne _ hk] at h
      exact stores_same h

/-- Removing users: it raises when one of the others cannot be read. -/
theorem run_remove_cases (gone : RegistryEntry → Bool) (w : World) :
    (Rejected ((updateRegistry (removeIf gone)).run handle w) w ∧
      ∃ r ∈ w.db.managedUsers.rows, ¬ Readable (toDict r)) ∨
    ∃ users t', Committed ((updateRegistry (removeIf gone)).run handle w) w
        users t' ∧ Removed gone w.db.managedUsers t' := by
  rcases run_updateRegistry (removeIf gone) w with
    ⟨hrejected, ⟨e, he⟩ | ⟨us, hus, u, hu, hnot⟩⟩
      | ⟨users, t', hmut, hcommit, hstores⟩
  · exact nomatch he
  · obtain rfl := Except.ok.inj hus
    rw [entryDict_filter] at hu
    have hold := (Table.mem_keep.mp hu).1
    rw [rows_registryOf] at hold
    obtain ⟨r, hr, rfl⟩ := List.mem_map.mp hold
    exact Or.inl ⟨hrejected, r, hr, hnot⟩
  obtain rfl := Except.ok.inj hmut
  rw [entryDict_filter] at hstores
  refine Or.inr ⟨_, t', hcommit, ?_⟩
  intro k
  have h := hstores k
  rw [Table.get_keep_eq] at h
  cases hrow : w.db.managedUsers.get k with
  | none =>
      rw [get_registryOf, hrow] at h
      exact h
  | some r =>
      have hold : (registryOf w.db).get k = some (toDict r) := by
        rw [get_registryOf, hrow, Option.map_some]
      rw [hold, Option.filter_some] at h
      rw [Option.filter_some]
      cases hgone : gone (toDict r) with
      | true =>
          rw [hgone] at h
          exact h
      | false =>
          rw [hgone] at h
          refine Eq.trans (stores_same ?_) hrow
          rw [hold]
          exact h

/-- What removing users leaves. -/
theorem run_remove (gone : RegistryEntry → Bool)
    (hw : w.db.managedUsers = t) :
    Leaves t (Removed gone t)
      ((updateRegistry (removeIf gone)).run handle w).2 := by
  rcases run_remove_cases gone w with
    ⟨⟨e, w', hrun, hidle⟩, -⟩ | ⟨users, t', hcommit, hremoved⟩
  · rw [hrun]
    exact Or.inl ((congrArg Database.managedUsers hidle.db).trans hw)
  · refine Or.inr ?_
    rw [hcommit.db, withUsers_managedUsers, ← hw]
    exact hremoved

/-! ## Calls -/

/-- Calls that leave the managed users alone: the only commits are those that
    clear links. -/
def KeepsUsers (op : Op) : Prop :=
  ∀ writes, op = .db (.commit writes) →
    ∃ name ns, writes = [.clearLinksTo name ns]

/-- Calls on one cluster, or on none, that do not commit. -/
def Prepares (cluster : String) (op : Op) : Prop :=
  OnCluster cluster op ∧ NoCommit op

theorem Prepares.of_kubeOn {cluster : String} (op : Op)
    (h : KubeOn cluster op) : Prepares cluster op :=
  ⟨h.onCluster, h.noCommit⟩

theorem Prepares.onCluster {cluster : String} (op : Op)
    (h : Prepares cluster op) : OnCluster cluster op := h.1

theorem KeepsUsers.of_noCommit (op : Op) (h : NoCommit op) :
    KeepsUsers op := fun writes hop => absurd hop (h writes)

/-- Such a call leaves the managed users alone. -/
theorem handle_users {op : Op} (h : KeepsUsers op) (w : World) :
    (handle op w).2.db.managedUsers = w.db.managedUsers := by
  by_cases hcommit : NoCommit op
  · exact congrArg Database.managedUsers (handle_db hcommit w)
  · rw [NoCommit, not_forall] at hcommit
    obtain ⟨writes, hop⟩ := hcommit
    rw [not_not] at hop
    obtain ⟨name, ns, rfl⟩ := h writes hop
    rw [hop]
    rfl

/-- A program of such calls leaves the managed users alone. -/
theorem run_users_of_uses {α : Type} {p : Svc α} (hp : p.Uses KeepsUsers)
    (w : World) : (p.run handle w).2.db.managedUsers = w.db.managedUsers := by
  have htrans : ∀ {u v x : World}, v.db.managedUsers = u.db.managedUsers →
      x.db.managedUsers = v.db.managedUsers →
      x.db.managedUsers = u.db.managedUsers := fun h h' => h'.trans h
  exact hp.run_keeps (R := fun w w' => w'.db.managedUsers = w.db.managedUsers)
    (fun _ => rfl) htrans (fun _ w hop => handle_users hop w) w

variable {cluster : String}

/-- What a program does to the registry, it does after its preparations. -/
theorem leaves_bind {α β : Type} {p : Svc α} {f : α → Svc β}
    (hp : p.Uses (Prepares cluster)) (hw : w.db.managedUsers = t)
    (hf : ∀ a w', w'.db.managedUsers = t →
      Leaves t E ((f a).run handle w').2) :
    Leaves t E ((p >>= f).run handle w).2 := by
  rw [Prog.run_bind]
  have hw' := (congrArg Database.managedUsers
    (run_db_of_uses (hp.imp (fun _ h => h.2)) w)).trans hw
  generalize p.run handle w = o at hw' ⊢
  obtain ⟨r, w'⟩ := o
  cases r with
  | error e => exact Or.inl hw'
  | ok a => exact hf a w' hw'

/-- A program that raises in its preparations leaves the registry as it is. -/
theorem ends_bind {α β : Type} {p : Svc α} {f : α → Svc β}
    (hp : p.Uses (Prepares cluster)) (hw : w.db.managedUsers = t)
    (hf : ∀ a w', w'.db.managedUsers = t → Ends t E ((f a).run handle w')) :
    Ends t E ((p >>= f).run handle w) := by
  rw [Prog.run_bind]
  have hw' := (congrArg Database.managedUsers
    (run_db_of_uses (hp.imp (fun _ h => h.2)) w)).trans hw
  generalize p.run handle w = o at hw' ⊢
  obtain ⟨r, w'⟩ := o
  cases r with
  | error e => exact Or.inl ⟨e, rfl, hw'⟩
  | ok a => exact hf a w' hw'

/-- What a program returns after its update makes no difference. -/
theorem ends_andThen {α β : Type} {p : Svc α} {f : α → Svc β}
    (hp : Ends t E (p.run handle w)) (hf : ∀ a, ∃ b, f a = pure b) :
    Ends t E ((p >>= f).run handle w) := by
  rw [Prog.run_bind]
  generalize p.run handle w = o at hp ⊢
  obtain ⟨r, w'⟩ := o
  rcases hp with ⟨e, he, hsame⟩ | ⟨a, ha, hend⟩
  · obtain rfl : r = .error e := he
    exact Or.inl ⟨e, rfl, hsame⟩
  · obtain rfl : r = .ok a := ha
    obtain ⟨b, hb⟩ := hf a
    rw [Prog.andThen_ok, hb]
    exact Or.inr ⟨b, rfl, hend⟩

/-- What follows and keeps the managed users leaves the registry so. -/
theorem leaves_andThen {α β : Type} {p : Svc α} {f : α → Svc β}
    (hp : Leaves t E (p.run handle w).2) (hf : ∀ a, (f a).Uses KeepsUsers) :
    Leaves t E ((p >>= f).run handle w).2 := by
  rw [Prog.run_bind]
  generalize p.run handle w = o at hp ⊢
  obtain ⟨r, w'⟩ := o
  cases r with
  | error e => exact hp
  | ok a =>
      rw [Prog.andThen_ok, Leaves, run_users_of_uses (hf a) w']
      exact hp

theorem prepares_kube (op : KubeOp) :
    (kube cluster op).Uses (Prepares cluster) :=
  Prog.uses_perform ⟨rfl, nofun⟩

theorem loadRegistry_prepares (cluster : String) :
    loadRegistry.Uses (Prepares cluster) :=
  Prog.uses_bind (Prog.uses_perform ⟨trivial, nofun⟩) (fun _ => trivial)

theorem nowText_prepares (cluster : String) :
    nowText.Uses (Prepares cluster) :=
  Prog.uses_bind (Prog.uses_perform ⟨trivial, nofun⟩) (fun _ => trivial)

/-- What follows takes the text of a reading of the clock. -/
theorem bind_nowText {α : Type} (f : String → Svc α) (w : World) :
    (nowText >>= f).run handle w
      = (f (timeText (utc (w.clock w.tick)))).run handle w.ticked := by
  rw [Prog.run_bind, nowText, Prog.run_bind, run_now, handle_now]
  rfl

theorem usersOfType_prepares (cluster : String) (type : UserType) :
    (usersOfType type).Uses (Prepares cluster) :=
  Prog.uses_bind (loadRegistry_prepares _) (fun _ => trivial)

theorem parseTime_uses {P : Op → Prop} (text : String) :
    (CvRegistry.parseTime text).Uses P := by
  rw [CvRegistry.parseTime]
  cases fromisoformat text.toList with
  | none => exact trivial
  | some d => exact trivial

theorem columns_uses {P : Op → Prop} (hnow : P .now) (u : RegistryEntry) :
    (columns u).Uses P := by
  refine Prog.uses_bind (Prog.uses_ite ?_ (parseTime_uses _)) (fun d => ?_)
  · exact Prog.uses_bind (Prog.uses_perform hnow) (fun _ => trivial)
  refine Prog.uses_bind ?_ (fun x => trivial)
  cases u.certExpiry with
  | none => exact trivial
  | some text =>
      rw [certExpiryColumn]
      exact Prog.uses_ite trivial
        (Prog.uses_bind (parseTime_uses _) (fun _ => trivial))

theorem writeEntry_uses {P : Op → Prop} (hnow : P .now)
    (hget : ∀ name ns, P (.db (.getManagedUser name ns)))
    (before : EntryDict) (writes : List DbWrite) (u : RegistryEntry) :
    (writeEntry before writes u).Uses P := by
  refine Prog.uses_bind (columns_uses hnow u) (fun row => ?_)
  refine Prog.uses_bind (Prog.uses_perform (hget _ _)) (fun existing => ?_)
  cases existing with
  | none => exact trivial
  | some old => exact Prog.uses_ite trivial trivial

/-- An update of the registry reads the clock and the database. -/
theorem updateRegistry_uses {P : Op → Prop} (hnow : P .now)
    (hdb : ∀ op, P (.db op))
    (mutate : List RegistryEntry → Except Exn (List RegistryEntry)) :
    (updateRegistry mutate).Uses P := by
  refine Prog.uses_bind
    (Prog.uses_bind (Prog.uses_perform (hdb _)) (fun _ => trivial))
    (fun loaded => ?_)
  refine Prog.uses_bind (Prog.uses_ofExcept _) (fun users => ?_)
  refine Prog.uses_bind (Prog.uses_foldlM ?_ _) (fun writes => ?_)
  · exact fun writes u _ =>
      writeEntry_uses hnow (fun _ _ => hdb _) _ writes u
  · exact Prog.uses_bind (Prog.uses_perform (hdb _)) (fun _ => trivial)

/-- It touches no cluster. -/
theorem updateRegistry_onCluster
    (mutate : List RegistryEntry → Except Exn (List RegistryEntry)) :
    (updateRegistry mutate).Uses (OnCluster cluster) :=
  updateRegistry_uses trivial (fun _ => trivial) mutate

theorem clearLinksTo_keepsUsers (name ns : String) :
    (clearLinksTo name ns).Uses KeepsUsers := by
  refine Prog.uses_ensuring (Prog.uses_perform ?_) (Prog.uses_perform nofun)
  rintro writes ⟨⟩
  exact ⟨name, ns, rfl⟩

theorem clearLinksTo_onCluster (name ns : String) :
    (clearLinksTo name ns).Uses (OnCluster cluster) :=
  Prog.uses_ensuring (Prog.uses_perform trivial) (Prog.uses_perform trivial)

/-! ## ServiceAccountService -/

namespace ServiceAccount

variable {username name ns : String}

/-- The registry after the creation of a user. -/
def Created (name ns : String) (t t' : Users) : Prop :=
  ∃ now, Appended (sameKey name ns) (userRecord name ns (timeText (utc now))
    false) t t'

/-- The registry after the import of a user. -/
def Imported (name ns : String) (t t' : Users) : Prop :=
  ∃ now, Appended (sameName name) (userRecord name ns (timeText (utc now))
    true) t t'

/-- The cluster with the ServiceAccount of a user and its token Secret. -/
def withAccount (c : Cluster) (name ns : String) : Cluster :=
  { ensured c ns with
    serviceAccounts :=
      addNew (ensured c ns).serviceAccounts (serviceAccount name ns)
    secrets := addNew (ensured c ns).secrets (tokenSecret name ns) }

/-- `create_user` refuses a key that is taken. -/
theorem run_createUser_taken {r : ManagedUser}
    (hr : w.db.managedUsers.get (name, ns) = some r) :
    (createUser cluster name ns).run handle w
      = (.error (.userAlreadyExistsError name), w) := by
  have hkey : r.key = (name, ns) := Table.key_of_get hr
  have htaken : (w.db.managedUsers.rows.map toDict).any (sameKey name ns)
      = true := by
    refine List.any_eq_true.mpr ⟨toDict r, ?_, ?_⟩
    · exact List.mem_map.mpr ⟨r, Table.mem_of_get hr, rfl⟩
    · exact decide_eq_true (Prod.mk.inj hkey)
  rw [createUser, Prog.run_bind, run_loadRegistry, Prog.andThen_ok,
    Prog.run_ite, if_pos htaken]
  rfl

/-- Nobody is in the way of a key that is free. -/
theorem sameKey_of_free (hfree : t.get (name, ns) = none) :
    ∀ r ∈ t.rows, sameKey name ns (toDict r) = false := by
  intro r hr
  refine decide_eq_false ?_
  rintro ⟨hname, hns⟩
  exact Table.get_eq_none_iff.mp hfree r hr (Prod.ext hname hns)

/-- Otherwise it makes sure of the namespace, the ServiceAccount and the token
    Secret, and appends its user. -/
theorem run_createUser_free (hfree : w.db.managedUsers.get (name, ns) = none) :
    (createUser cluster name ns).run handle w
      = ((do
          let _ ← updateRegistry (appendUnless (sameKey name ns)
            (userRecord name ns (timeText (utc (w.clock w.tick))) false))
          pure (userRecord name ns (timeText (utc (w.clock w.tick))) false) :
            Svc RegistryEntry).run handle
          (w.setCluster cluster
            (withAccount (w.clusters cluster) name ns)).ticked) := by
  have hnone : ¬ (w.db.managedUsers.rows.map toDict).any (sameKey name ns)
      = true := by
    rw [Bool.not_eq_true, List.any_eq_false]
    intro u hu
    obtain ⟨r, hr, rfl⟩ := List.mem_map.mp hu
    rw [sameKey_of_free hfree r hr]
    exact Bool.false_ne_true
  generalize hv : w.setCluster cluster (ensured (w.clusters cluster) ns) = v
  have hcluster : v.clusters cluster = ensured (w.clusters cluster) ns := by
    rw [← hv, World.setCluster_self]
  have hns : (v.clusters cluster).hasNamespace (some ns) = true := by
    rw [hcluster, ensured_hasNamespace]
  have haccount := run_createIn cluster v
    (fun a => { v.clusters cluster with serviceAccounts := a })
    (run_kube handle cluster
      (.createServiceAccount (serviceAccount name ns)) v) hns rfl
  generalize hu : v.setCluster cluster _ = u at haccount
  have hsecret := run_createIn cluster u
    (fun a => { u.clusters cluster with secrets := a })
    (run_kube handle cluster (.createSecret (tokenSecret name ns)) u)
    (by rw [← hu, World.setCluster_self]; exact hns) rfl
  rw [createUser, Prog.run_bind, run_loadRegistry, Prog.andThen_ok,
    Prog.run_ite, if_neg hnone, Prog.run_bind, ensureTargetNamespace,
    run_ensureNamespace, Prog.andThen_ok, hv, Prog.run_bind, haccount,
    Prog.andThen_ok, Prog.run_bind, hsecret, Prog.andThen_ok, bind_nowText,
    ← hu, World.setCluster_self, World.setCluster_setCluster, hcluster, ← hv,
    World.setCluster_setCluster]
  rfl

theorem createUser_ends (hw : w.db.managedUsers = t) :
    Ends t (Created name ns t)
      ((createUser cluster name ns).run handle w) := by
  refine ends_bind (loadRegistry_prepares cluster) hw (fun users w₁ h₁ => ?_)
  rw [Prog.run_ite]
  by_cases htaken : users.any (sameKey name ns) = true
  · rw [if_pos htaken]
    exact Or.inl ⟨_, rfl, h₁⟩
  rw [if_neg htaken]
  refine ends_bind ((ensureNamespace_kubeOn _ _).imp Prepares.of_kubeOn) h₁
    (fun _ w₂ h₂ => ?_)
  refine ends_bind (uses_unlessStatus (prepares_kube _) trivial) h₂
    (fun _ w₃ h₃ => ?_)
  refine ends_bind (uses_unlessStatus (prepares_kube _) trivial) h₃
    (fun _ w₄ h₄ => ?_)
  rw [bind_nowText]
  refine ends_andThen ?_ (fun _ => ⟨_, rfl⟩)
  exact (run_append (w := w₄.ticked) (decide_eq_true ⟨rfl, rfl⟩) h₄).imp
    (fun t' h => ⟨_, h⟩)

theorem createUser_onCluster :
    (createUser cluster name ns).Uses (OnCluster cluster) := by
  refine Prog.uses_bind ((loadRegistry_prepares _).imp Prepares.onCluster)
    (fun users => Prog.uses_ite trivial ?_)
  refine Prog.uses_bind ((ensureNamespace_kubeOn _ _).imp KubeOn.onCluster)
    (fun _ => ?_)
  refine Prog.uses_bind (uses_unlessStatus (Prog.uses_perform rfl) trivial)
    (fun _ => ?_)
  refine Prog.uses_bind (uses_unlessStatus (Prog.uses_perform rfl) trivial)
    (fun _ => ?_)
  refine Prog.uses_bind ((nowText_prepares _).imp Prepares.onCluster)
    (fun now => ?_)
  exact Prog.uses_bind (updateRegistry_onCluster _) (fun _ => trivial)

theorem importUser_ends (hw : w.db.managedUsers = t) :
    Ends t (Imported name ns t)
      ((importUser cluster name ns).run handle w) := by
  refine ends_bind (prepares_kube _) hw (fun _ w₁ h₁ => ?_)
  rw [bind_nowText]
  refine ends_andThen ?_ (fun _ => ⟨_, rfl⟩)
  exact (run_append (w := w₁.ticked) (decide_eq_true ⟨rfl, rfl⟩) h₁).imp
    (fun t' h => ⟨_, h⟩)

theorem importUser_onCluster :
    (importUser cluster name ns).Uses (OnCluster cluster) := by
  refine Prog.uses_bind (Prog.uses_perform rfl) (fun _ => ?_)
  refine Prog.uses_bind ((nowText_prepares _).imp Prepares.onCluster)
    (fun now => ?_)
  exact Prog.uses_bind (updateRegistry_onCluster _) (fun _ => trivial)

theorem deleteUser_leaves (hw : w.db.managedUsers = t) :
    Leaves t (fun t' => ∃ u, chosen username ns (t.rows.map toDict) = .ok u ∧
        Removed (isEntry username u.ns) t t')
      ((deleteUser cluster username ns).run handle w).2 := by
  rw [deleteUser, Prog.run_bind, run_loadRegistry, Prog.andThen_ok, hw,
    Prog.run_bind, Prog.run_ofExcept]
  cases hchosen : chosen username ns (t.rows.map toDict) with
  | error e => exact Or.inl hw
  | ok u =>
      rw [Prog.andThen_ok]
      refine leaves_bind (uses_unlessStatus (prepares_kube _) trivial) hw
        (fun _ w₁ h₁ => ?_)
      refine leaves_bind (uses_unlessStatus (prepares_kube _) trivial) h₁
        (fun _ w₂ h₂ => ?_)
      refine leaves_andThen ?_ (fun _ => trivial)
      exact (run_remove _ h₂).imp (fun t' h => ⟨u, rfl, h⟩)

theorem deleteUser_onCluster :
    (deleteUser cluster username ns).Uses (OnCluster cluster) := by
  refine Prog.uses_bind ((loadRegistry_prepares _).imp Prepares.onCluster)
    (fun users => ?_)
  refine Prog.uses_bind (Prog.uses_ofExcept _) (fun user => ?_)
  refine Prog.uses_bind (uses_unlessStatus (Prog.uses_perform rfl) trivial)
    (fun _ => ?_)
  refine Prog.uses_bind (uses_unlessStatus (Prog.uses_perform rfl) trivial)
    (fun _ => ?_)
  exact Prog.uses_bind (updateRegistry_onCluster _) (fun _ => trivial)

/-- The chosen user is a ServiceAccount user of the name. -/
theorem chosen_spec {users : List RegistryEntry} {u : RegistryEntry}
    (h : chosen username ns users = .ok u) :
    u ∈ users ∧ u.name = username ∧ u.type = .serviceAccount := by
  have hmatching : ∀ v ∈ matching username users,
      v ∈ users ∧ v.name = username ∧ v.type = .serviceAccount :=
    fun v hv => ⟨(List.mem_filter.mp hv).1,
      of_decide_eq_true (List.mem_filter.mp hv).2⟩
  rw [chosen] at h
  cases hm : matching username users with
  | nil =>
      rw [hm] at h
      exact nomatch h
  | cons v vs =>
      rw [hm] at h hmatching
      simp only at h
      cases hfind : (v :: vs).find? (fun u => decide (u.ns = ns)) with
      | some user =>
          rw [hfind] at h
          exact Except.ok.inj h ▸ hmatching user
            (List.mem_of_find?_eq_some hfind)
      | none =>
          rw [hfind] at h
          by_cases hvs : vs = []
          · simp only [hvs, ne_eq, not_true_eq_false, if_false] at h
            exact Except.ok.inj h ▸ hmatching v (List.mem_cons_self ..)
          · simp only [ne_eq, hvs, not_false_eq_true, if_true] at h
            exact nomatch h

/-- The cluster without the ServiceAccount of a user and its token Secret. -/
def withoutAccount (c : Cluster) (ns username : String) : Cluster :=
  { c with
    serviceAccounts := c.serviceAccounts.erase (ns, username)
    secrets := c.secrets.erase (ns, tokenSecretName username) }

/-- `delete_user` removes both, whatever becomes of the registry. -/
theorem run_deleteUser_clusters {u : RegistryEntry}
    (hchosen : chosen username ns (w.db.managedUsers.rows.map toDict)
      = .ok u) :
    ((deleteUser cluster username ns).run handle w).2.clusters
      = (w.setCluster cluster
          (withoutAccount (w.clusters cluster) u.ns username)).clusters := by
  have hsa := run_deleteIn cluster w
    (fun a => { w.clusters cluster with serviceAccounts := a })
    (run_kube handle cluster (.deleteServiceAccount u.ns username) w) rfl
  generalize hv : w.setCluster cluster _ = v at hsa
  have hsecret := run_deleteIn cluster v
    (fun a => { v.clusters cluster with secrets := a })
    (run_kube handle cluster
      (.deleteSecret u.ns (tokenSecretName username)) v) rfl
  rw [deleteUser, Prog.run_bind, run_loadRegistry, Prog.andThen_ok,
    Prog.run_bind, Prog.run_ofExcept, hchosen, Prog.andThen_ok,
    Prog.run_bind, hsa, Prog.andThen_ok, Prog.run_bind, hsecret,
    Prog.andThen_ok]
  refine (congrArg World.clusters (Prog.run_void_snd handle _ _)).trans ?_
  rw [run_updateRegistry_clusters, ← hv, World.setCluster_self,
    World.setCluster_setCluster]
  rfl

end ServiceAccount

/-! ## CertificateService -/

namespace Certificate

variable {username : String} {groups : List String}

section Uses

variable {P : Op → Prop}

theorem submit_uses (hkube : ∀ op, P (.kube cluster op)) (csr : Csr) :
    (submit cluster csr).Uses P :=
  uses_unlessStatus (Prog.uses_perform (hkube _))
    (Prog.uses_bind (Prog.uses_perform (hkube _))
      (fun _ => Prog.uses_perform (hkube _)))

theorem approve_uses (hkube : ∀ op, P (.kube cluster op)) (csrName : String) :
    (approve cluster csrName).Uses P :=
  Prog.uses_bind (Prog.uses_perform (hkube _))
    (fun _ => Prog.uses_perform (hkube _))

theorem pollCertificate_uses (hkube : ∀ op, P (.kube cluster op))
    (hnow : P .now) (csrName : String) (deadline : Nat) :
    ∀ rounds, (pollCertificate cluster csrName deadline rounds).Uses P := by
  intro rounds
  induction rounds with
  | zero => exact trivial
  | succ rounds ih =>
      refine Prog.uses_bind (Prog.uses_perform hnow) (fun t => ?_)
      refine Prog.uses_ite ?_ trivial
      refine Prog.uses_bind (Prog.uses_perform (hkube _)) (fun csr => ?_)
      cases csr.certificate with
      | none => exact ih
      | some certificate => exact trivial

theorem waitForCertificate_uses (hkube : ∀ op, P (.kube cluster op))
    (hnow : P .now) (csrName : String) :
    (waitForCertificate cluster csrName).Uses P :=
  Prog.uses_bind (Prog.uses_perform hnow)
    (fun _ => pollCertificate_uses hkube hnow _ _ _)

theorem storeKey_uses (hkube : ∀ op, P (.kube cluster op))
    (hservice : P .getVaultService) {key : PrivateKey}
    {certificate : CvKube.Certificate}
    (hwrite : P (.writeSecret username key certificate)) :
    (storeKey cluster username key certificate).Uses P := by
  refine Prog.uses_bind (Prog.uses_perform hservice) (fun enabled => ?_)
  refine Prog.uses_ite (Prog.uses_catching ?_ (fun e => ?_)) trivial
  · exact Prog.uses_bind (Prog.uses_perform hwrite) (fun _ => trivial)
  · refine Prog.uses_bind (Prog.uses_catching (Prog.uses_perform (hkube _))
      (fun e => ?_)) (fun _ => trivial)
    cases e <;> exact trivial

end Uses

theorem submit_prepares (csr : Csr) :
    (submit cluster csr).Uses (Prepares cluster) :=
  submit_uses (fun _ => ⟨rfl, nofun⟩) csr

theorem approve_prepares (csrName : String) :
    (approve cluster csrName).Uses (Prepares cluster) :=
  approve_uses (fun _ => ⟨rfl, nofun⟩) csrName

theorem waitForCertificate_prepares (csrName : String) :
    (waitForCertificate cluster csrName).Uses (Prepares cluster) :=
  waitForCertificate_uses (fun _ => ⟨rfl, nofun⟩) ⟨trivial, nofun⟩ csrName

theorem storeKey_prepares (key : PrivateKey)
    (certificate : CvKube.Certificate) :
    (storeKey cluster username key certificate).Uses (Prepares cluster) :=
  storeKey_uses (fun _ => ⟨rfl, nofun⟩) ⟨trivial, nofun⟩ ⟨trivial, nofun⟩

/-- Everything that `create_user` does before it turns to Vault. -/
def certify (cluster username : String) (groups : List String) :
    Svc (PrivateKey × CvKube.Certificate × String) := do
  let users ← loadRegistry
  if users.any (sameName username) = true then
    throw (.userAlreadyExistsError username)
  let key : PrivateKey ← Prog.perform (I := backend) .generatePrivateKey
  submit cluster (signingRequest key username groups)
  approve cluster (csrNameFor username)
  let certificate ← waitForCertificate cluster (csrNameFor username)
  let now ← nowText
  pure (key, certificate, now)

/-- Everything that it does when the key is stored, or need not be. -/
def register (username : String) (groups : List String) (key : PrivateKey)
    (certificate : CvKube.Certificate) (now : String)
    (vaultPath : Option String) : Svc Credentials := do
  let user := userRecord username groups now certificate
  let _ ← updateRegistry (appendUnless (sameName username) user)
  if truthy vaultPath = true then
    pure ⟨user, none, certificate, vaultPath⟩
  else pure ⟨user, some key, certificate, none⟩

/-- `create_user` in three parts. -/
theorem createUser_eq (cluster username : String) (groups : List String) :
    createUser cluster username groups = (do
      let p ← certify cluster username groups
      let vaultPath ← storeKey cluster username p.1 p.2.1
      register username groups p.1 p.2.1 p.2.2 vaultPath) := by
  rw [createUser, certify, bind_assoc]
  congr 1
  funext users
  by_cases htaken : users.any (sameName username) = true
  · rw [if_pos htaken, if_pos htaken]
    rfl
  · rw [if_neg htaken, if_neg htaken]
    simp only [bind_assoc, pure_bind, register]

theorem certify_uses {P : Op → Prop} (hkube : ∀ op, P (.kube cluster op))
    (hnow : P .now) (hload : P (.db .selectManagedUsers))
    (hkey : P .generatePrivateKey) :
    (certify cluster username groups).Uses P := by
  refine Prog.uses_bind (Prog.uses_bind (Prog.uses_perform hload)
    (fun _ => trivial)) (fun users => Prog.uses_ite trivial ?_)
  refine Prog.uses_bind (Prog.uses_perform hkey) (fun key => ?_)
  refine Prog.uses_bind (submit_uses hkube _) (fun _ => ?_)
  refine Prog.uses_bind (approve_uses hkube _) (fun _ => ?_)
  refine Prog.uses_bind (waitForCertificate_uses hkube hnow _)
    (fun certificate => ?_)
  exact Prog.uses_bind (Prog.uses_bind (Prog.uses_perform hnow)
    (fun _ => trivial)) (fun now => trivial)

/-- The registry after the creation of a user. -/
def Created (username : String) (groups : List String) (t t' : Users) : Prop :=
  ∃ now certificate, Appended (sameName username)
    (userRecord username groups (timeText (utc now)) certificate) t t'

/-- The registry after the import of a user. -/
def Imported (username : String) (groups : List String) (t t' : Users) :
    Prop :=
  ∃ now, Appended (sameName username)
    (importedRecord username groups (timeText (utc now))) t t'

theorem createUser_ends (hw : w.db.managedUsers = t) :
    Ends t (Created username groups t)
      ((createUser cluster username groups).run handle w) := by
  refine ends_bind (loadRegistry_prepares cluster) hw
    (fun users w₁ h₁ => ?_)
  rw [Prog.run_ite]
  by_cases htaken : users.any (sameName username) = true
  · rw [if_pos htaken]
    exact Or.inl ⟨_, rfl, h₁⟩
  rw [if_neg htaken]
  have hkey : (Prog.perform (I := backend) .generatePrivateKey :
      Svc PrivateKey).Uses (Prepares cluster) :=
    Prog.uses_perform ⟨trivial, nofun⟩
  refine ends_bind hkey h₁ (fun key w₂ h₂ => ?_)
  refine ends_bind (submit_prepares _) h₂ (fun _ w₃ h₃ => ?_)
  refine ends_bind (approve_prepares _) h₃ (fun _ w₄ h₄ => ?_)
  refine ends_bind (waitForCertificate_prepares _) h₄
    (fun certificate w₅ h₅ => ?_)
  rw [bind_nowText]
  refine ends_bind (storeKey_prepares _ _) h₅ (fun vaultPath w₆ h₆ => ?_)
  refine ends_andThen ?_ (fun _ => ?_)
  · exact (run_append (decide_eq_true rfl) h₆).imp
      (fun t' h => ⟨_, certificate, h⟩)
  · by_cases hpath : truthy vaultPath = true
    · exact ⟨_, if_pos hpath⟩
    · exact ⟨_, if_neg hpath⟩

theorem createUser_onCluster :
    (createUser cluster username groups).Uses (OnCluster cluster) := by
  rw [createUser_eq]
  refine Prog.uses_bind (certify_uses (fun _ => rfl) trivial trivial trivial)
    (fun p => ?_)
  refine Prog.uses_bind (storeKey_uses (fun _ => rfl) trivial trivial)
    (fun vaultPath => ?_)
  exact Prog.uses_bind (updateRegistry_onCluster _)
    (fun _ => Prog.uses_ite trivial trivial)

theorem importUser_ends (hw : w.db.managedUsers = t) :
    Ends t (Imported username groups t)
      ((importUser username groups).run handle w) := by
  rw [importUser, bind_nowText]
  refine ends_andThen ?_ (fun _ => ⟨_, rfl⟩)
  exact (run_append (w := w.ticked) (decide_eq_true rfl) hw).imp
    (fun t' h => ⟨_, h⟩)

theorem importUser_onCluster :
    (importUser username groups).Uses (OnCluster cluster) := by
  refine Prog.uses_bind ((nowText_prepares _).imp Prepares.onCluster)
    (fun now => ?_)
  exact Prog.uses_bind (updateRegistry_onCluster _) (fun _ => trivial)

theorem deleteSigningRequest_prepares (user : RegistryEntry) :
    (deleteSigningRequest cluster user).Uses (Prepares cluster) := by
  rw [deleteSigningRequest]
  cases user.csrName with
  | none => exact trivial
  | some name =>
      exact Prog.uses_ite trivial
        (uses_unlessStatus (prepares_kube _) trivial)

theorem deleteUser_leaves (hw : w.db.managedUsers = t) :
    Leaves t (Removed (isUser username) t)
      ((deleteUser cluster username).run handle w).2 := by
  refine leaves_bind (loadRegistry_prepares cluster) hw
    (fun users w₁ h₁ => ?_)
  cases users.find? (isUser username) with
  | none => exact Or.inl h₁
  | some user =>
      refine leaves_bind (deleteSigningRequest_prepares user) h₁
        (fun _ w₂ h₂ => ?_)
      exact leaves_andThen (run_remove _ h₂) (fun _ => trivial)

theorem deleteUser_onCluster :
    (deleteUser cluster username).Uses (OnCluster cluster) := by
  refine Prog.uses_bind ((loadRegistry_prepares _).imp Prepares.onCluster)
    (fun users => ?_)
  cases users.find? (isUser username) with
  | none => exact trivial
  | some user =>
      refine Prog.uses_bind
        ((deleteSigningRequest_prepares user).imp Prepares.onCluster)
        (fun _ => ?_)
      exact Prog.uses_bind (updateRegistry_onCluster _) (fun _ => trivial)

theorem csrNameFor_ne (username : String) : csrNameFor username ≠ "" := by
  intro h
  have hlist := congrArg String.toList h
  rw [csrNameFor, String.toList_append] at hlist
  exact nomatch (List.append_eq_nil_iff.mp hlist).1

/-- The cluster without a signing request. -/
def withoutCsr (c : Cluster) (csrName : String) : Cluster :=
  { c with csrs := c.csrs.erase csrName }

/-- `delete_user` removes the signing request that the entry names, whatever
    becomes of the registry. -/
theorem run_deleteUser_clusters {u : RegistryEntry} {csrName : String}
    (hfound : (w.db.managedUsers.rows.map toDict).find? (isUser username)
      = some u)
    (hcsr : u.csrName = some csrName) (hne : csrName ≠ "") :
    ((deleteUser cluster username).run handle w).2.clusters
      = (w.setCluster cluster
          (withoutCsr (w.clusters cluster) csrName)).clusters := by
  have hdelete := run_deleteIn cluster w
    (fun r => { w.clusters cluster with csrs := r })
    (run_kube handle cluster (.deleteCsr csrName) w) rfl
  rw [deleteUser, Prog.run_bind, run_loadRegistry, Prog.andThen_ok, hfound]
  show ((deleteSigningRequest cluster u >>= fun _ =>
    Prog.void (updateRegistry (removeIf (isUser username)))).run handle
      w).2.clusters = _
  rw [Prog.run_bind, deleteSigningRequest, hcsr]
  simp only [if_neg hne]
  rw [hdelete, Prog.andThen_ok, Prog.run_void_snd, run_updateRegistry_clusters]
  rfl

end Certificate

end CvUsers
