import ClusterVision.AssignRoleProofs

/-! # Which bindings delete_user_bindings deletes

    `delete_user_bindings` decides by the start of a binding's name.  Along
    runs of the programs that create bindings, the main result says when this
    choice is the bindings of the user. -/

namespace CvCleanup

open CvProg CvRun CvTable CvKube CvBackend CvRbac CvAssign

/-! ## Runs that create bindings -/

/-- A call that can create a binding. -/
inductive BindingCall where
  | assignRole (k : AssignCall)
  | createClusterRoleBinding (name roleName : String)
      (subjects : List Subject)
  | createRoleBinding (ns name roleName : String) (roleKind : RoleKind)
      (subjects : List Subject)

/-- The world after such a call. -/
def bindingStep (cluster : String) : BindingCall → World → World
  | .assignRole k, w => assignStep cluster k w
  | .createClusterRoleBinding name roleName subjects, w =>
      ((createClusterRoleBinding cluster name roleName subjects).run handle
        w).2
  | .createRoleBinding ns name roleName roleKind subjects, w =>
      ((createRoleBinding cluster ns name roleName roleKind subjects).run
        handle w).2

/-- Is this one of the bindings that the backend has created? -/
def managed (b : Binding) : Bool :=
  decide (b.labels.get? "managed-by" = some "clustervision")

/-- Every binding of the cluster is managed. -/
def AllManaged (cluster : String) (w : World) : Prop :=
  ∀ b ∈ (w.clusters cluster).bindings.rows, managed b = true

variable {cluster : String} {w : World}

/-- Writing a managed binding keeps every binding managed. -/
theorem allManaged_put {b : Binding} {t : Table Binding Binding.key}
    (ht : ∀ x ∈ t.rows, managed x = true) (hb : managed b = true) :
    ∀ x ∈ (t.put b).rows, managed x = true := by
  intro x hx
  rcases Table.mem_put.mp hx with hxb | ⟨hxt, -⟩
  · exact hxb ▸ hb
  · exact ht x hxt

/-- Every call that can create a binding keeps every binding managed. -/
theorem allManaged_step (hw : AllManaged cluster w) (k : BindingCall) :
    AllManaged cluster (bindingStep cluster k w) := by
  rw [AllManaged]
  cases k with
  | assignRole k =>
      show ∀ b ∈ ((assignStep cluster k w).clusters cluster).bindings.rows, _
      rw [assignStep]
      cases hk : SubjectKind.ofText k.userKind with
      | none =>
          rw [run_assignRole_badKind hk]
          exact hw
      | some kind =>
          obtain ⟨-, hbind, -⟩ :=
            run_assignRole cluster w hk
          rw [hbind]
          refine allManaged_put hw ?_
          rw [AssignCall.outcome]
          cases hb : (w.clusters cluster).bindings.get k.key with
          | none => exact rfl
          | some b => exact hw b (Table.mem_of_get hb)
  | createClusterRoleBinding name roleName subjects =>
      show ∀ b ∈ (((createClusterRoleBinding cluster name roleName
        subjects).run handle w).2.clusters cluster).bindings.rows, _
      cases hb : (w.clusters cluster).bindings.get (none, name) with
      | none =>
          rw [run_createClusterRoleBinding_free hb, setBindings_self]
          exact allManaged_put hw rfl
      | some b =>
          rw [run_createClusterRoleBinding_taken hb]
          exact hw
  | createRoleBinding ns name roleName roleKind subjects =>
      show ∀ b ∈ (((createRoleBinding cluster ns name roleName roleKind
        subjects).run handle w).2.clusters cluster).bindings.rows, _
      cases hb : (w.clusters cluster).bindings.get (some ns, name) with
      | none =>
          rw [run_createRoleBinding_free hb, World.setCluster_self]
          exact allManaged_put hw rfl
      | some b =>
          rw [run_createRoleBinding_taken hb, World.setCluster_self,
            ensured_bindings]
          exact hw

/-! ## What is deleted -/

/-- No managed binding has the user as a subject. -/
def Complete (cluster username : String) (after : World) : Prop :=
  ∀ b ∈ (after.clusters cluster).bindings.rows, managed b = true →
    references username b = false

/-- Every binding that is gone had the user among its subjects. -/
def Sound (cluster username : String) (before after : World) : Prop :=
  ∀ b ∈ (before.clusters cluster).bindings.rows,
    b ∉ (after.clusters cluster).bindings.rows → references username b = true

/-- In a store of managed bindings, `delete_user_bindings` deletes the
    bindings of a user and no others exactly when the names that start with
    the user's prefix are those of the user's bindings. -/
theorem deleteUserBindings_correct_iff (hw : AllManaged cluster w)
    (username : String) {fuel : Nat}
    (hfuel : (w.clusters cluster).bindings.rows.length < fuel) :
    (Complete cluster username
        ((deleteUserBindings fuel cluster username).run handle w).2 ∧
      Sound cluster username w
        ((deleteUserBindings fuel cluster username).run handle w).2)
      ↔ ∀ b ∈ (w.clusters cluster).bindings.rows,
          startswith b.name (bindingPrefix username) = references username b := by
  rw [run_deleteUserBindings hfuel]
  rw [Complete, Sound]
  rw [setBindings_self]
  constructor
  · rintro ⟨hc, hs⟩ b hb
    cases hp : startswith b.name (bindingPrefix username) with
    | true =>
        refine (hs b hb ?_).symm
        rw [Table.mem_keep]
        rintro ⟨-, hn⟩
        rw [hp] at hn
        exact nomatch hn
    | false =>
        refine (hc b ?_ (hw b hb)).symm
        rw [Table.mem_keep]
        exact ⟨hb, by rw [hp]; rfl⟩
  · intro h
    constructor
    · intro b hb _
      obtain ⟨hbt, hn⟩ := Table.mem_keep.mp hb
      rw [← h b hbt]
      simpa using hn
    · intro b hb hgone
      rw [← h b hb]
      by_cases hp : startswith b.name (bindingPrefix username) = true
      · exact hp
      · exact absurd (Table.mem_keep.mpr ⟨hb, by simpa using hp⟩) hgone

/-- After every run of the calls that create bindings, and for every user:
    `delete_user_bindings` completes, and it deletes the user's bindings and
    no others exactly when the names that start with the user's prefix are
    those of the user's bindings. -/
theorem deleteUserBindings_after_run (cluster : String) (w : World)
    (hw : (w.clusters cluster).bindings = Table.empty)
    (ks : List BindingCall) (username : String) (fuel : Nat)
    (hfuel : ((after (bindingStep cluster) ks w).clusters
      cluster).bindings.rows.length < fuel) :
    ((deleteUserBindings fuel cluster username).run handle
        (after (bindingStep cluster) ks w)).1 = .ok () ∧
    ((Complete cluster username
          ((deleteUserBindings fuel cluster username).run handle
            (after (bindingStep cluster) ks w)).2 ∧
        Sound cluster username (after (bindingStep cluster) ks w)
          ((deleteUserBindings fuel cluster username).run handle
            (after (bindingStep cluster) ks w)).2)
      ↔ ∀ b ∈ ((after (bindingStep cluster) ks w).clusters
            cluster).bindings.rows,
          startswith b.name (bindingPrefix username)
            = references username b) := by
  have hinit : AllManaged cluster w := by
    intro b hb
    rw [hw] at hb
    exact nomatch hb
  have hstep : ∀ v k, AllManaged cluster v →
      AllManaged cluster (bindingStep cluster k v) :=
    fun v k hv => allManaged_step hv k
  have hall : AllManaged cluster (after (bindingStep cluster) ks w) :=
    after_inv hstep hinit ks
  refine ⟨?_, deleteUserBindings_correct_iff hall username hfuel⟩
  rw [run_deleteUserBindings hfuel]

/-- One assignment in a new installation, and the user it was made for. -/
theorem deleteUserBindings_after_assign :
    ((deleteUserBindings 2 "local" "ada").run handle
        (after (bindingStep "local")
          [.assignRole ⟨"ada", "User", "view", .clusterRole, none, none⟩]
          World.fresh)).1 = .ok () :=
  (deleteUserBindings_after_run "local" World.fresh rfl
    [.assignRole ⟨"ada", "User", "view", .clusterRole, none, none⟩] "ada" 2
    (by decide)).1

/-- `UserCreate.name`'s pattern: `^[a-z0-9][a-z0-9\\-\\.]*$`. -/
def userNamePattern (name : String) : Bool :=
  match name.toList with
  | [] => false
  | c :: cs => alnum c && cs.all (fun d => alnum d || d = '-' || d = '.')
where
  alnum (c : Char) : Bool :=
    ('a'.toNat ≤ c.toNat && c.toNat ≤ 'z'.toNat) ||
      ('0'.toNat ≤ c.toNat && c.toNat ≤ '9'.toNat)

/-- Deleting the bindings of the user `a` also deletes that of the user
    `a-b`. -/
theorem deleteUserBindings_overlap :
    userNamePattern "a" = true ∧ userNamePattern "a-b" = true ∧
    ¬ Sound "local" "a"
      (after (bindingStep "local")
        [.assignRole ⟨"a-b", "User", "view", .clusterRole, none, none⟩]
        World.fresh)
      ((deleteUserBindings 2 "local" "a").run handle
        (after (bindingStep "local")
          [.assignRole ⟨"a-b", "User", "view", .clusterRole, none, none⟩]
          World.fresh)).2 := by
  refine ⟨by decide, by decide, ?_⟩
  intro h
  have := h
    (AssignCall.binding ⟨"a-b", "User", "view", .clusterRole, none, none⟩ .user)
    (by decide) (by decide)
  exact absurd this (by decide)

end CvCleanup
