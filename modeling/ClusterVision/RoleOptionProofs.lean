import ClusterVision.JsTextProofs
import ClusterVision.Backend

/-! # Roles as option values

    The panel of a user's permissions and the form for access requests offer
    the roles in a `<select>`, whose values are texts: the kind, two colons,
    and the name (`UserPermissionsPanel.tsx`, `RequestAccessModal.tsx`).  Both
    take such a text apart with `split` and send its first two pieces. -/

namespace CvRoleOption

open CvJs CvKube CvBackend

/-! ## The components -/

/-- The scope of an assignment, as the forms offer it. -/
inductive FormScope where
  | cluster
  | inNamespace
deriving DecidableEq

/-- An entry of a `<select>`. -/
structure SelectOption where
  value : String
  label : String
deriving DecidableEq

/-- The value of the option of a role. -/
def optionValue (kind : RoleKind) (name : String) : String :=
  kind.text ++ "::" ++ name

/-- `roleOptions`, which is the same in both components: the names of the
    namespace's roles and of the ClusterRoles. -/
def roleOptions (scope : FormScope) (ns : String)
    (nsRoles clusterRoles : List String) : List SelectOption :=
  if scope = .inNamespace ∧ ns ≠ "" then
    nsRoles.map (fun r => ⟨optionValue .role r, r ++ " (Role)"⟩)
      ++ clusterRoles.map (fun r => ⟨optionValue .clusterRole r,
          r ++ " (ClusterRole — this namespace only)"⟩)
  else clusterRoles.map (fun r => ⟨optionValue .clusterRole r, r⟩)

/-- `const [kind, name] = value.split('::')`. -/
def kindAndName (value : String) : Option String × Option String :=
  ((split value "::")[0]?, (split value "::")[1]?)

/-- The subject kind of a user type. -/
def userKindOf (userType : UserType) : String :=
  if userType = .serviceAccount then "ServiceAccount" else "User"

/-- The props and the state of `UserPermissionsPanel` that `handleAssign`
    reads. -/
structure PermissionsPanel where
  username : String
  userType : UserType
  userNamespace : Option String
  scope : FormScope
  selectedNs : String
  selectedRole : String

/-- What `handleAssign` passes to `assignRole.mutate`. -/
structure AssignRoleCall where
  roleName : Option String
  roleKind : Option String
  ns : Option String
  userKind : String
  saNamespace : Option String
deriving DecidableEq

/-- `handleAssign`. -/
def handleAssign (p : PermissionsPanel) : Option AssignRoleCall :=
  if p.selectedRole = "" then none
  else some {
    roleName := (kindAndName p.selectedRole).2
    roleKind := (kindAndName p.selectedRole).1
    ns := if p.scope = .inNamespace then some p.selectedNs else none
    userKind := userKindOf p.userType
    saNamespace := if p.userType = .serviceAccount then
      some (p.userNamespace.getD "default") else none }

/-- `User`. -/
structure User where
  name : String
  userType : UserType
  ns : Option String
deriving DecidableEq

/-- `userKey`. -/
def userKey (u : User) : String := u.ns.getD "" ++ "/" ++ u.name

/-- The state of `RequestAccessModal`, with the users it has loaded. -/
structure RequestModal where
  users : List User
  targetKey : String
  scope : FormScope
  ns : String
  roleValue : String
  ttlMinutes : Nat
  reason : String

/-- `target`. -/
def RequestModal.target (m : RequestModal) : Option User :=
  m.users.find? (fun u => decide (userKey u = m.targetKey))

/-- `canSubmit`. -/
def RequestModal.canSubmit (m : RequestModal) : Bool :=
  m.target.isSome && decide (m.roleValue ≠ "")
    && decide (trim m.reason ≠ "")
    && (decide (m.scope = .cluster) || decide (m.ns ≠ ""))

/-- What `handleSubmit` passes to `create.mutate`. -/
structure AccessRequestPayload where
  targetUsername : String
  userKind : String
  saNamespace : Option String
  roleName : Option String
  roleKind : Option String
  ns : Option String
  ttlMinutes : Nat
  reason : String
deriving DecidableEq

/-- `handleSubmit`. -/
def handleSubmit (m : RequestModal) : Option AccessRequestPayload :=
  match m.target with
  | none => none
  | some target =>
      if m.canSubmit = false then none
      else some {
        targetUsername := target.name
        userKind := userKindOf target.userType
        saNamespace := if target.userType = .serviceAccount then target.ns
          else none
        roleName := (kindAndName m.roleValue).2
        roleKind := (kindAndName m.roleValue).1
        ns := if m.scope = .inNamespace then some m.ns else none
        ttlMinutes := m.ttlMinutes
        reason := trim m.reason }

/-! ## What an option value says -/

/-- The kinds have no colon. -/
theorem RoleKind.text_colon (kind : RoleKind) :
    ∀ c ∈ kind.text.toList, c ≠ ':' := by
  cases kind with
  | clusterRole => simp [RoleKind.text]
  | role => simp [RoleKind.text]

/-- The characters of an option value. -/
theorem toList_optionValue (kind : RoleKind) (name : String) :
    (optionValue kind name).toList
      = kind.text.toList ++ ':' :: ([':'] ++ name.toList) := by
  rw [optionValue, String.toList_append, String.toList_append,
    List.append_assoc]
  rfl

/-- The first piece is the kind; the others are the pieces of the name. -/
theorem split_optionValue (kind : RoleKind) (name : String) :
    split (optionValue kind name) "::" = kind.text :: split name "::" := by
  have hsep : "::".toList = ':' :: [':'] := rfl
  rw [split, toList_optionValue, hsep,
    splitSeq_append _ _ _ (RoleKind.text_colon kind), List.map_cons,
    String.ofList_toList, split, hsep]

/-- The kind always survives. -/
theorem kind_decoded (kind : RoleKind) (name : String) :
    (kindAndName (optionValue kind name)).1 = some kind.text := by
  rw [kindAndName, split_optionValue]
  rfl

/-- The name survives exactly when it does not contain the separator. -/
theorem name_decoded_iff (kind : RoleKind) (name : String) :
    (kindAndName (optionValue kind name)).2 = some name ↔
      ¬ "::".toList <:+: name.toList := by
  have hpieces : (kindAndName (optionValue kind name)).2
      = ((splitSeq "::".toList name.toList).head?).map String.ofList := by
    rw [kindAndName, split_optionValue, split, ← List.head?_map,
      List.head?_eq_getElem?]
    rfl
  rw [hpieces, ← head?_splitSeq_eq_iff (by decide) name.toList]
  constructor
  · intro h
    obtain ⟨piece, hpiece, hname⟩ := Option.map_eq_some_iff.mp h
    rw [hpiece, ← hname, String.toList_ofList]
  · intro h
    rw [h, Option.map_some, String.ofList_toList]

/-- Different roles have different option values. -/
theorem optionValue_inj {kind kind' : RoleKind} {name name' : String}
    (h : optionValue kind name = optionValue kind' name') :
    kind = kind' ∧ name = name' := by
  have hkind : kind.text = kind'.text := by
    have hsplit := congrArg (fun v => split v "::") h
    simp only [split_optionValue] at hsplit
    exact (List.cons.inj hsplit).1
  have hkinds : kind = kind' := by
    cases kind <;> cases kind' <;> simp_all [RoleKind.text]
  refine ⟨hkinds, ?_⟩
  have hchars := congrArg String.toList h
  rw [toList_optionValue, toList_optionValue, hkinds] at hchars
  have hrest := List.append_cancel_left hchars
  exact String.toList_inj.mp (List.cons.inj (List.cons.inj hrest).2).2

/-- A form has one option a role: no two of its options have one value. -/
theorem nodup_roleOptions {nsRoles clusterRoles : List String}
    (hns : nsRoles.Nodup) (hcluster : clusterRoles.Nodup) (scope : FormScope)
    (ns : String) :
    ((roleOptions scope ns nsRoles clusterRoles).map
      SelectOption.value).Nodup := by
  have hnames : ∀ {names : List String}, names.Nodup → ∀ kind,
      (names.map (optionValue kind)).Nodup := fun h kind =>
    h.map (fun _ _ hvalue => (optionValue_inj hvalue).2)
  rw [roleOptions]
  split
  · rw [List.map_append, List.map_map, List.map_map]
    refine List.nodup_append.mpr
      ⟨hnames hns .role, hnames hcluster .clusterRole, ?_⟩
    -- the two lists may share a name, but not a kind
    intro value hrole value' hclusterRole hsame
    obtain ⟨name, -, hname⟩ := List.mem_map.mp hrole
    obtain ⟨name', -, hname'⟩ := List.mem_map.mp hclusterRole
    have hkind := optionValue_inj (hname.trans (hsame.trans hname'.symm))
    exact nomatch hkind.1
  · rw [List.map_map]
    exact hnames hcluster .clusterRole

/-- A value of the options is a true text. -/
theorem optionValue_ne_empty (kind : RoleKind) (name : String) :
    optionValue kind name ≠ "" := by
  intro h
  have hchars := congrArg String.toList h
  rw [toList_optionValue] at hchars
  exact absurd hchars (List.append_ne_nil_of_right_ne_nil _
    (List.cons_ne_nil _ _))

/-! ## The role that is sent -/

/-- The role is sent as it was picked: by `handleAssign`, whatever else the
    panel holds, and by `handleSubmit`, whenever the form can be submitted; and
    no other role has its option value. -/
structure Sent (kind : RoleKind) (name : String) : Prop where
  assigned : ∀ p : PermissionsPanel, p.selectedRole = optionValue kind name →
    ∃ call, handleAssign p = some call
      ∧ call.roleKind = some kind.text ∧ call.roleName = some name
  requested : ∀ m : RequestModal, m.roleValue = optionValue kind name →
    m.canSubmit = true →
    ∃ payload, handleSubmit m = some payload
      ∧ payload.roleKind = some kind.text ∧ payload.roleName = some name
  unambiguous : ∀ kind' name', optionValue kind' name' = optionValue kind name →
    kind' = kind ∧ name' = name

/-- A form that can be submitted has a target. -/
theorem RequestModal.target_of_canSubmit {m : RequestModal}
    (h : m.canSubmit = true) : ∃ target, m.target = some target := by
  rw [RequestModal.canSubmit, Bool.and_eq_true, Bool.and_eq_true,
    Bool.and_eq_true] at h
  exact Option.isSome_iff_exists.mp h.1.1.1

/-- A role is sent as it was picked exactly when its name has no two colons in
    a row. -/
theorem sent_iff_no_separator (kind : RoleKind) (name : String) :
    Sent kind name ↔ ¬ "::".toList <:+: name.toList := by
  rw [← name_decoded_iff kind name]
  constructor
  · intro h
    let panel : PermissionsPanel :=
      ⟨"ann", .certificate, none, .cluster, "", optionValue kind name⟩
    obtain ⟨call, hcall, -, hname⟩ := h.assigned panel rfl
    rw [handleAssign, if_neg (optionValue_ne_empty kind name)] at hcall
    rw [← hname, ← Option.some.inj hcall]
  · intro hname
    refine ⟨?_, ?_, fun _ _ h => optionValue_inj h⟩
    · intro p hp
      rw [handleAssign, hp, if_neg (optionValue_ne_empty kind name)]
      exact ⟨_, rfl, kind_decoded kind name, hname⟩
    · intro m hm hsubmit
      obtain ⟨target, htarget⟩ := RequestModal.target_of_canSubmit hsubmit
      rw [handleSubmit, htarget, hsubmit]
      refine ⟨_, rfl, ?_, ?_⟩
      · rw [hm]
        exact kind_decoded kind name
      · rw [hm]
        exact hname

/-- The names that Kubernetes admits for a role. -/
def AdmittedName (name : String) : Prop :=
  name ≠ "" ∧ name ≠ "." ∧ name ≠ ".." ∧ ∀ c ∈ name.toList, c ≠ '/' ∧ c ≠ '%'

/-- `team::admin` is an admitted name, and `team` is sent in its place. -/
theorem separator_in_name_cut :
    AdmittedName "team::admin" ∧ ¬ Sent .clusterRole "team::admin"
      ∧ (kindAndName (optionValue .clusterRole "team::admin")).2
        = some "team" := by
  refine ⟨⟨by decide, by decide, by decide, by simp⟩, ?_, by decide⟩
  intro h
  obtain ⟨call, hcall, -, hname⟩ := h.assigned
    ⟨"ann", .certificate, none, .cluster, "",
      optionValue .clusterRole "team::admin"⟩ rfl
  have hcut : call.roleName = some "team" := by
    rw [← Option.some.inj hcall]
    decide
  exact absurd (hcut.symm.trans hname) (by decide)

end CvRoleOption
