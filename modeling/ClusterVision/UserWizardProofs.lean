import ClusterVision.JsSetProofs
import ClusterVision.RoleOptionProofs
import ClusterVision.RunProofs

/-! # The namespaces that the user wizard selects

    The wizard selects the namespace that its first step creates, when the user
    goes on to the second step, and deselects the name of the last time if it
    was another one (`CreateUserWizard.tsx`).  The function that does so is
    handed to React, and reads a ref that the same handler overwrites next.
    This file models the wizard event by event, and says in which runs its
    second step shows every namespace that is selected. -/

namespace CvUserWizard

open CvJs CvBackend CvRoleOption CvRun

/-! ## The wizard -/

/-- The steps: 1, 2 and 3. -/
inductive WizardStep where
  | identity
  | permissions
  | done
deriving DecidableEq

/-- `PRESETS`. -/
inductive Preset where
  | none
  | readonly
  | developer
  | admin
deriving DecidableEq

/-- The role of a preset. -/
def Preset.role : Preset → Option String
  | .none => Option.none
  | .readonly => some "view"
  | .developer => some "edit"
  | .admin => some "admin"

/-- What `UserWithCredentials` carries that the wizard reads. -/
structure UserWithCredentials where
  name : String
  ns : Option String
  vaultPath : Option String
deriving DecidableEq

/-- `CreateUserPayload`. -/
structure CreateUserPayload where
  name : String
  userType : UserType
  groups : List String
  ns : String
deriving DecidableEq

/-- The state of `CreateUserWizard`: its own, its prop `open`, its ref, and the
    request under way, if any; `assigning` covers the role assignments that
    follow the request. -/
structure Wizard where
  isOpen : Bool
  step : WizardStep
  name : String
  nameError : String
  userType : UserType
  saNamespace : String
  newNamespace : String
  newNamespaceError : String
  groups : String
  preset : Preset
  scope : FormScope
  selectedNs : JsSet String
  assigning : Bool
  inlineNsInput : String
  inlineNsError : String
  extraNs : JsSet String
  credentials : Option UserWithCredentials
  confirmed : Bool
  lastAutoAddedNs : Option String
  creating : Option CreateUserPayload

/-- The wizard when the page is loaded. -/
def Wizard.init : Wizard where
  isOpen := false
  step := .identity
  name := ""
  nameError := ""
  userType := .serviceAccount
  saNamespace := "__new__"
  newNamespace := ""
  newNamespaceError := ""
  groups := ""
  preset := .readonly
  scope := .inNamespace
  selectedNs := .empty
  assigning := false
  inlineNsInput := ""
  inlineNsError := ""
  extraNs := .empty
  credentials := none
  confirmed := false
  lastAutoAddedNs := none
  creating := none

/-- A lower-case letter or a digit. -/
def lowerAlnum (c : Char) : Bool := c.isLower || c.isDigit

/-- A name that starts with a lower-case letter or a digit and goes on with
    these or with some more characters. -/
def nameOf (more : List Char) (text : String) : Bool :=
  match text.toList with
  | [] => false
  | c :: cs => lowerAlnum c && cs.all (fun c => lowerAlnum c || more.contains c)

/-- `/^[a-z0-9][a-z0-9\-\.]*$/`. -/
def isUsername : String → Bool := nameOf ['-', '.']

/-- `/^[a-z0-9][a-z0-9\-]*$/`. -/
def isNamespaceName : String → Bool := nameOf ['-']

/-- `pendingNs`. -/
def pendingNs (w : Wizard) : String :=
  if w.saNamespace = "__new__" then trim w.newNamespace else ""

/-- `allNewNs`. -/
def allNewNs (w : Wizard) : JsSet String :=
  .ofList ((if pendingNs w = "" then [] else [pendingNs w]) ++ w.extraNs.items)

/-- `namespacesWithPending`, the list that the second step displays. -/
def namespacesWithPending (namespaces : List String) (w : Wizard) :
    List String :=
  (allNewNs w).items.filter (fun ns => !namespaces.contains ns) ++ namespaces

/-- What the wizard passes to `assignRole`. -/
structure RoleCall where
  username : String
  roleName : String
  roleKind : String
  ns : Option String
  userKind : String
  saNamespace : Option String
deriving DecidableEq

/-- The role assignments that follow the creation of a user. -/
def roleCalls (w : Wizard) (data : UserWithCredentials) : List RoleCall :=
  match w.preset.role with
  | none => []
  | some role =>
      let saNs := if w.userType = .serviceAccount then data.ns else none
      match w.scope with
      | .cluster =>
          [⟨data.name, role, "ClusterRole", none, userKindOf w.userType, saNs⟩]
      | .inNamespace => w.selectedNs.items.map (fun ns =>
          ⟨data.name, role, "ClusterRole", some ns, userKindOf w.userType,
            saNs⟩)

/-- `handleClose`. -/
def handleClose (w : Wizard) : Wizard :=
  { Wizard.init with assigning := w.assigning, creating := w.creating }

/-- `validateStep1`: does it pass, and the wizard with the errors that it has
    set. -/
def validateStep1 (w : Wizard) : Bool × Wizard :=
  if w.name = "" then (false, { w with nameError := "Required" })
  else if isUsername w.name = false then
    (false, { w with
      nameError := "Lowercase letters, numbers, dashes and dots only" })
  else if w.userType = .serviceAccount ∧ w.saNamespace = "__new__" then
    if trim w.newNamespace = "" then
      (false, { w with nameError := "", newNamespaceError := "Required" })
    else if isNamespaceName (trim w.newNamespace) = false then
      (false, { w with
        nameError := ""
        newNamespaceError :=
          "Lowercase alphanumeric and hyphens only (e.g. my-namespace)" })
    else (true, { w with nameError := "", newNamespaceError := "" })
  else (true, { w with nameError := "", newNamespaceError := "" })

/-- When React runs a functional updater: during the call of the setter, or at
    the next render. -/
inductive Timing where
  | duringCall
  | atRender
deriving DecidableEq

/-- The first part of the updater of `handleStep1Next`: the name of the last
    time is deselected, when it is another one. -/
def deselectLast (ref : Option String) (pending : String)
    (prev : JsSet String) : JsSet String :=
  match ref with
  | none => prev
  | some last => if last ≠ "" ∧ last ≠ pending then prev.delete last else prev

/-- The updater of `handleStep1Next`, when it reads `ref`. -/
def autoAdd (ref : Option String) (pending : String) (prev : JsSet String) :
    JsSet String :=
  if pending = "" then deselectLast ref pending prev
  else (deselectLast ref pending prev).add pending

/-- `pendingNs || null`. -/
def pendingOrNull (w : Wizard) : Option String :=
  if pendingNs w = "" then none else some (pendingNs w)

/-- What the updater reads in the ref: its old value, or the one that the
    handler has written meanwhile. -/
def refRead (timing : Timing) (w : Wizard) : Option String :=
  match timing with
  | .duringCall => w.lastAutoAddedNs
  | .atRender => pendingOrNull w

/-- `handleStep1Next`. -/
def handleStep1Next (timing : Timing) (w : Wizard) : Wizard :=
  if (validateStep1 w).1 = false then (validateStep1 w).2
  else
    { (validateStep1 w).2 with
      selectedNs := autoAdd (refRead timing w) (pendingNs w) w.selectedNs
      lastAutoAddedNs := pendingOrNull w
      step := .permissions }

/-- `handleCreate`: what is sent. -/
def handleCreate (w : Wizard) : CreateUserPayload where
  name := w.name
  userType := w.userType
  groups := ((split w.groups ",").map trim).filter (· ≠ "")
  ns :=
    if w.userType = .serviceAccount then
      if w.saNamespace = "__new__" then trim w.newNamespace else w.saNamespace
    else ""

/-- `addInlineNs`. -/
def addInlineNs (w : Wizard) : Wizard :=
  let ns := trim w.inlineNsInput
  if ns = "" then w
  else if isNamespaceName ns = false then
    { w with inlineNsError := "Lowercase alphanumeric and hyphens only" }
  else
    { w with
      extraNs := .ofList (w.extraNs.items ++ [ns])
      selectedNs := .ofList (w.selectedNs.items ++ [ns])
      inlineNsInput := ""
      inlineNsError := "" }

/-- `toggleNs`. -/
def toggleNs (ns : String) (w : Wizard) : Wizard :=
  { w with
    selectedNs :=
      if ns ∈ w.selectedNs then w.selectedNs.delete ns
      else w.selectedNs.add ns }

/-- `canClose`. -/
def canClose (w : Wizard) : Bool :=
  decide (w.step ≠ .done) || decide (w.userType ≠ .certificate) || w.confirmed
    || match w.credentials with
      | none => false
      | some c => decide (c.vaultPath.getD "" ≠ "")

/-! ## Its events -/

/-- What can happen: what the page does, what the user does, and the answers
    to the requests. -/
inductive WizardEvent where
  | reopen
  | close
  | chooseUserType (userType : UserType)
  | typeName (text : String)
  | chooseNamespace (value : String)
  | typeNewNamespace (text : String)
  | typeGroups (text : String)
  | next (timing : Timing)
  | back
  | choosePreset (preset : Preset)
  | chooseScope (scope : FormScope)
  | toggle (ns : String)
  | typeInline (text : String)
  | addInline
  | create
  | created (data : UserWithCredentials)
  | createFailed
  | rolesAssigned
  | confirm (checked : Bool)

/-- Is this step shown? -/
def shows (step : WizardStep) (w : Wizard) : Bool :=
  w.isOpen && decide (w.step = step)

/-- The namespaces that the first step offers. -/
def offered (namespaces : List String) : List String :=
  "__new__" :: if namespaces = [] then ["default"] else namespaces

/-- Is the list of namespaces shown? -/
def listShown (w : Wizard) : Bool :=
  shows .permissions w && decide (w.preset ≠ .none)
    && decide (w.scope = .inNamespace)

/-- Is the button that creates the user enabled? -/
def canCreate (w : Wizard) : Bool :=
  !(w.creating.isSome || w.assigning)
    && !(decide (w.preset ≠ .none) && decide (w.scope = .inNamespace)
      && w.selectedNs.items.isEmpty)
    && !(decide (w.userType = .serviceAccount)
      && decide (w.saNamespace = "__new__")
      && decide (trim w.newNamespace = ""))

/-- The wizard once the user is created: the roles are assigned, if any, and
    then the last step is shown. -/
def handleCreated (data : UserWithCredentials) (w : Wizard) : Wizard :=
  if w.preset.role.isSome then
    { w with creating := none, credentials := some data, assigning := true }
  else { w with creating := none, credentials := some data, step := .done }

/-- Can this event happen, with what is on the screen and under way? -/
def enabled (namespaces : List String) (w : Wizard) : WizardEvent → Bool
  | .reopen => !w.isOpen
  | .close => w.isOpen && canClose w
  | .chooseUserType _ | .typeName _ | .next _ => shows .identity w
  | .chooseNamespace value =>
      shows .identity w && decide (w.userType = .serviceAccount)
        && (offered namespaces).contains value
  | .typeNewNamespace _ =>
      shows .identity w && decide (w.userType = .serviceAccount)
        && decide (w.saNamespace = "__new__")
  | .typeGroups _ => shows .identity w && decide (w.userType = .certificate)
  | .back | .choosePreset _ => shows .permissions w
  | .chooseScope _ => shows .permissions w && decide (w.preset ≠ .none)
  | .toggle ns =>
      listShown w && (namespacesWithPending namespaces w).contains ns
  | .typeInline _ | .addInline => listShown w
  | .create => shows .permissions w && canCreate w
  | .created _ | .createFailed => w.creating.isSome
  | .rolesAssigned => w.assigning
  | .confirm _ => shows .done w && decide (w.userType = .certificate)

/-- What an event does. -/
def handle (w : Wizard) : WizardEvent → Wizard
  | .reopen => { w with isOpen := true }
  | .close => handleClose w
  | .chooseUserType userType => { w with userType := userType }
  | .typeName text => { w with name := text, nameError := "" }
  | .chooseNamespace value =>
      { w with saNamespace := value, newNamespace := "" }
  | .typeNewNamespace text =>
      { w with newNamespace := text, newNamespaceError := "" }
  | .typeGroups text => { w with groups := text }
  | .next timing => handleStep1Next timing w
  | .back => { w with step := .identity }
  | .choosePreset preset => { w with preset := preset }
  | .chooseScope scope => { w with scope := scope }
  | .toggle ns => toggleNs ns w
  | .typeInline text => { w with inlineNsInput := text, inlineNsError := "" }
  | .addInline => addInlineNs w
  | .create => { w with creating := some (handleCreate w) }
  | .created data => handleCreated data w
  | .createFailed => { w with creating := none }
  | .rolesAssigned => { w with assigning := false, step := .done }
  | .confirm checked => { w with confirmed := checked }

/-- One event, with the namespaces of the cluster. -/
def wizardStep (namespaces : List String) (e : WizardEvent) (w : Wizard) :
    Wizard :=
  if enabled namespaces w e then handle w e else w

/-! ## What the second step shows -/

/-- The second step displays every namespace that is selected, and no role is
    assigned in another one. -/
structure NamespacesShown (namespaces : List String) (w : Wizard) : Prop where
  selected : ∀ ns ∈ w.selectedNs, ns ∈ namespacesWithPending namespaces w
  assigned : ∀ data, ∀ call ∈ roleCalls w data, ∀ ns, call.ns = some ns →
    ns ∈ namespacesWithPending namespaces w

/-- Whenever the second step is shown. -/
def SafeStep2 (namespaces : List String) (w : Wizard) : Prop :=
  shows .permissions w = true → NamespacesShown namespaces w

/-- When the first step is left and React runs the updater late, the name that
    was added the last time is still the pending one, or not selected any more,
    or displayed on its own account. -/
def LeavesNothing (namespaces : List String) (w : Wizard) :
    WizardEvent → Prop
  | .next .atRender =>
      shows .identity w = true → (validateStep1 w).1 = true →
        ∀ ns, w.lastAutoAddedNs = some ns → ns ≠ pendingNs w →
          ns ∈ w.selectedNs → ns ∈ namespaces ∨ ns ∈ w.extraNs
  | _ => True

/-- What keeps the list complete: what is selected is displayed on its own
    account, or was added the last time the first step was left, and in the
    second step that is the pending name. -/
structure Inv (namespaces : List String) (w : Wizard) : Prop where
  selected : ∀ ns ∈ w.selectedNs,
    ns ∈ namespaces ∨ ns ∈ w.extraNs ∨ w.lastAutoAddedNs = some ns
  current : w.step = .permissions → w.lastAutoAddedNs = pendingOrNull w
  named : ∀ ns, w.lastAutoAddedNs = some ns → ns ≠ ""

variable {namespaces : List String} {w w' : Wizard}

theorem pendingOrNull_eq_some {ns : String} :
    pendingOrNull w = some ns ↔ ns = pendingNs w ∧ pendingNs w ≠ "" := by
  rw [pendingOrNull]
  by_cases h : pendingNs w = ""
  · rw [if_pos h]
    constructor
    · intro hnone
      cases hnone
    · rintro ⟨-, hne⟩
      exact absurd h hne
  · rw [if_neg h, Option.some_inj]
    constructor
    · intro heq
      exact ⟨heq.symm, h⟩
    · rintro ⟨heq, -⟩
      exact heq.symm

/-- What is displayed. -/
theorem mem_namespacesWithPending {ns : String} :
    ns ∈ namespacesWithPending namespaces w ↔
      ns ∈ namespaces ∨ ns ∈ w.extraNs ∨ pendingOrNull w = some ns := by
  have hnew : ns ∈ allNewNs w ↔
      ns ∈ w.extraNs ∨ pendingOrNull w = some ns := by
    rw [allNewNs, JsSet.mem_ofList, List.mem_append, JsSet.mem_items,
      pendingOrNull_eq_some, or_comm]
    refine or_congr_right ?_
    by_cases h : pendingNs w = ""
    · rw [if_pos h]
      constructor
      · intro hmem
        exact absurd hmem List.not_mem_nil
      · rintro ⟨-, hne⟩
        exact absurd h hne
    · rw [if_neg h, List.mem_singleton]
      exact ⟨fun heq => ⟨heq, h⟩, And.left⟩
  rw [namespacesWithPending, List.mem_append, List.mem_filter,
    JsSet.mem_items, hnew, ← List.contains_iff_mem]
  cases namespaces.contains ns <;> simp

/-- The roles are assigned in selected namespaces. -/
theorem roleCalls_selected {data : UserWithCredentials} {call : RoleCall}
    (hcall : call ∈ roleCalls w data) {ns : String} (hns : call.ns = some ns) :
    ns ∈ w.selectedNs := by
  rw [roleCalls] at hcall
  cases hrole : w.preset.role with
  | none =>
      rw [hrole] at hcall
      exact absurd hcall List.not_mem_nil
  | some role =>
      rw [hrole] at hcall
      dsimp only at hcall
      cases hscope : w.scope with
      | cluster =>
          rw [hscope] at hcall
          rw [List.mem_singleton.mp hcall] at hns
          exact nomatch hns
      | inNamespace =>
          rw [hscope] at hcall
          obtain ⟨n, hn, rfl⟩ := List.mem_map.mp hcall
          cases hns
          exact hn

/-- It is enough that the selected namespaces are displayed. -/
theorem namespacesShown_iff : NamespacesShown namespaces w ↔
    ∀ ns ∈ w.selectedNs, ns ∈ namespacesWithPending namespaces w :=
  ⟨NamespacesShown.selected, fun h =>
    ⟨h, fun _ _ hcall _ hns => h _ (roleCalls_selected hcall hns)⟩⟩

/-- The second step is complete where the invariant holds. -/
theorem Inv.safe (hw : Inv namespaces w) : SafeStep2 namespaces w := by
  intro hshown
  have hstep : w.step = .permissions :=
    of_decide_eq_true (Bool.and_eq_true_iff.mp hshown).2
  refine namespacesShown_iff.mpr (fun ns hns => ?_)
  rw [mem_namespacesWithPending, ← hw.current hstep]
  exact hw.selected ns hns

theorem inv_init : Inv namespaces .init :=
  ⟨fun ns h => absurd h (JsSet.not_mem_empty ns), nofun, nofun⟩

/-- The invariant looks at the selection, at what is displayed, and at the
    ref. -/
theorem Inv.congr (hw : Inv namespaces w)
    (hselected : w'.selectedNs = w.selectedNs) (hextra : w'.extraNs = w.extraNs)
    (hlast : w'.lastAutoAddedNs = w.lastAutoAddedNs)
    (hstep : w'.step = .permissions →
      w.step = .permissions ∧ pendingNs w' = pendingNs w) :
    Inv namespaces w' := by
  refine ⟨?_, fun h => ?_, ?_⟩
  · rw [hselected, hextra, hlast]
    exact hw.selected
  · obtain ⟨hstep, hpending⟩ := hstep h
    rw [hlast, hw.current hstep, pendingOrNull, pendingOrNull, hpending]
  · rw [hlast]
    exact hw.named

/-- `validateStep1` sets errors only. -/
theorem validateStep1_snd (w : Wizard) : ∃ e e', (validateStep1 w).2
    = { w with nameError := e, newNamespaceError := e' } := by
  rw [validateStep1]
  split
  · exact ⟨"Required", w.newNamespaceError, rfl⟩
  · split
    · exact ⟨_, w.newNamespaceError, rfl⟩
    · split
      · split
        · exact ⟨"", "Required", rfl⟩
        · split
          · exact ⟨"", _, rfl⟩
          · exact ⟨"", "", rfl⟩
      · exact ⟨"", "", rfl⟩

/-- The first step stays as it is, but for its errors. -/
theorem handleStep1Next_invalid (timing : Timing)
    (h : (validateStep1 w).1 = false) : ∃ e e', handleStep1Next timing w
      = { w with nameError := e, newNamespaceError := e' } := by
  obtain ⟨e, e', hsnd⟩ := validateStep1_snd w
  exact ⟨e, e', by rw [handleStep1Next, if_pos h, hsnd]⟩

/-- The first step is left. -/
theorem handleStep1Next_valid (timing : Timing)
    (h : (validateStep1 w).1 = true) : ∃ e e', handleStep1Next timing w
      = { w with
          nameError := e
          newNamespaceError := e'
          selectedNs := autoAdd (refRead timing w) (pendingNs w) w.selectedNs
          lastAutoAddedNs := pendingOrNull w
          step := .permissions } := by
  obtain ⟨e, e', hsnd⟩ := validateStep1_snd w
  refine ⟨e, e', ?_⟩
  rw [handleStep1Next, if_neg (by rw [h]; nofun), hsnd]

/-- What the first part of the updater leaves selected. -/
theorem mem_deselectLast {ref : Option String} {pending : String}
    {prev : JsSet String} {ns : String} :
    ns ∈ deselectLast ref pending prev ↔
      ns ∈ prev ∧ ∀ last, ref = some last → last ≠ "" → last ≠ pending →
        ns ≠ last := by
  cases ref with
  | none => exact ⟨fun h => ⟨h, nofun⟩, And.left⟩
  | some last =>
      rw [deselectLast]
      by_cases hlast : last ≠ "" ∧ last ≠ pending
      · rw [if_pos hlast, JsSet.mem_delete]
        refine and_congr_right (fun _ => ?_)
        constructor
        · intro hne last' heq _ _
          rw [← Option.some.inj heq]
          exact hne
        · intro hall
          exact hall last rfl hlast.1 hlast.2
      · rw [if_neg hlast]
        constructor
        · intro hns
          refine ⟨hns, fun last' heq hne hne' => ?_⟩
          rw [Option.some.inj heq] at hlast
          exact absurd ⟨hne, hne'⟩ hlast
        · exact And.left

/-- What the updater leaves selected. -/
theorem mem_autoAdd {ref : Option String} {pending : String}
    {prev : JsSet String} {ns : String} :
    ns ∈ autoAdd ref pending prev ↔
      (pending ≠ "" ∧ ns = pending) ∨
        (ns ∈ prev ∧ ∀ last, ref = some last → last ≠ "" → last ≠ pending →
          ns ≠ last) := by
  rw [autoAdd, ← mem_deselectLast]
  by_cases hpending : pending = ""
  · rw [if_pos hpending]
    constructor
    · exact Or.inr
    · rintro (⟨hne, -⟩ | hkept)
      · exact absurd hpending hne
      · exact hkept
  · rw [if_neg hpending, JsSet.mem_add, or_comm]
    exact or_congr_left ⟨fun h => ⟨hpending, h⟩, And.right⟩

/-- When the updater runs at the render, it deselects nothing. -/
theorem mem_autoAdd_late {ns : String} :
    ns ∈ autoAdd (refRead .atRender w) (pendingNs w) w.selectedNs ↔
      pendingOrNull w = some ns ∨ ns ∈ w.selectedNs := by
  rw [mem_autoAdd, pendingOrNull_eq_some, and_comm]
  refine or_congr_right (and_iff_left (fun last hlast _ hne => ?_))
  exact absurd (pendingOrNull_eq_some.mp hlast).1 hne

/-- Leaving the first step, when the updater leaves nothing behind. -/
theorem Inv.next (hw : Inv namespaces w) {timing : Timing}
    (hshown : shows .identity w = true)
    (h : LeavesNothing namespaces w (.next timing)) :
    Inv namespaces (handleStep1Next timing w) := by
  cases hvalid : (validateStep1 w).1 with
  | false =>
      obtain ⟨e, e', heq⟩ := handleStep1Next_invalid timing hvalid
      rw [heq]
      exact hw.congr rfl rfl rfl (fun hstep => ⟨hstep, rfl⟩)
  | true =>
      obtain ⟨e, e', heq⟩ := handleStep1Next_valid timing hvalid
      rw [heq]
      refine ⟨fun ns hns => ?_, fun _ => rfl, fun ns hns => ?_⟩
      · show ns ∈ namespaces ∨ ns ∈ w.extraNs ∨ pendingOrNull w = some ns
        cases timing with
        | atRender =>
            rcases mem_autoAdd_late.mp hns with hpending | hns
            · exact Or.inr (Or.inr hpending)
            · rcases hw.selected ns hns with hlist | hextra | hlast
              · exact Or.inl hlist
              · exact Or.inr (Or.inl hextra)
              · by_cases heq : ns = pendingNs w
                · exact Or.inr (Or.inr (pendingOrNull_eq_some.mpr
                    ⟨heq, heq ▸ hw.named ns hlast⟩))
                · exact (h hshown hvalid ns hlast heq hns).elim Or.inl
                    (fun hextra => Or.inr (Or.inl hextra))
        | duringCall =>
            rcases mem_autoAdd.mp hns with ⟨hne, heq⟩ | ⟨hns, hkept⟩
            · exact Or.inr (Or.inr (pendingOrNull_eq_some.mpr ⟨heq, hne⟩))
            · rcases hw.selected ns hns with hlist | hextra | hlast
              · exact Or.inl hlist
              · exact Or.inr (Or.inl hextra)
              · -- the name added the last time is deleted if it is another one
                have hne := hw.named ns hlast
                have heq : ns = pendingNs w := by
                  by_contra hother
                  exact hkept ns hlast hne hother rfl
                exact Or.inr (Or.inr (pendingOrNull_eq_some.mpr
                  ⟨heq, heq ▸ hne⟩))
      · have hpending := pendingOrNull_eq_some.mp hns
        exact hpending.1 ▸ hpending.2

/-- If the updater leaves a name behind, the second step does not show it. -/
theorem leavesNothing_of_safe {timing : Timing}
    (h : SafeStep2 namespaces (handleStep1Next timing w)) :
    LeavesNothing namespaces w (.next timing) := by
  cases timing with
  | duringCall => exact trivial
  | atRender =>
      intro hshown hvalid ns hlast hne hns
      obtain ⟨e, e', heq⟩ := handleStep1Next_valid .atRender hvalid
      rw [heq] at h
      have hopen : w.isOpen = true := (Bool.and_eq_true_iff.mp hshown).1
      have hdisplayed := (h (Bool.and_eq_true_iff.mpr ⟨hopen, rfl⟩)).selected
        ns (mem_autoAdd_late.mpr (Or.inr hns))
      rcases mem_namespacesWithPending.mp hdisplayed with
        hlist | hextra | hpending
      · exact Or.inl hlist
      · exact Or.inr hextra
      · exact absurd (pendingOrNull_eq_some.mp hpending).1 hne

/-- A wizard shows the step that it is in. -/
theorem step_of_shows {step : WizardStep} (h : shows step w = true) :
    w.step = step :=
  of_decide_eq_true (Bool.and_eq_true_iff.mp h).2

theorem step_of_listShown (h : listShown w = true) : w.step = .permissions :=
  step_of_shows (Bool.and_eq_true_iff.mp (Bool.and_eq_true_iff.mp h).1).1

/-- A checkbox of the list. -/
theorem Inv.toggle (hw : Inv namespaces w) {ns : String}
    (h : enabled namespaces w (.toggle ns) = true) :
    Inv namespaces (toggleNs ns w) := by
  obtain ⟨hlist, hns⟩ := Bool.and_eq_true_iff.mp h
  refine ⟨fun x hx => ?_, hw.current, hw.named⟩
  have hor : x ∈ w.selectedNs ∨ x = ns := by
    have hx : x ∈ (if ns ∈ w.selectedNs then w.selectedNs.delete ns
      else w.selectedNs.add ns) := hx
    by_cases hmem : ns ∈ w.selectedNs
    · rw [if_pos hmem] at hx
      exact Or.inl (JsSet.mem_delete.mp hx).1
    · rw [if_neg hmem] at hx
      exact JsSet.mem_add.mp hx
  rcases hor with hx | rfl
  · exact hw.selected x hx
  · have hshown := mem_namespacesWithPending.mp
      (List.contains_iff_mem.mp hns)
    rw [← hw.current (step_of_listShown hlist)] at hshown
    exact hshown

/-- A namespace that is added to the list. -/
theorem Inv.addInline (hw : Inv namespaces w) :
    Inv namespaces (addInlineNs w) := by
  rw [addInlineNs]
  split
  · exact hw
  · split
    · exact hw.congr rfl rfl rfl (fun hstep => ⟨hstep, rfl⟩)
    · refine ⟨fun x hx => ?_, hw.current, hw.named⟩
      show x ∈ namespaces ∨ x ∈ JsSet.ofList _ ∨ w.lastAutoAddedNs = some x
      rw [JsSet.mem_ofList, List.mem_append]
      rcases List.mem_append.mp (JsSet.mem_ofList.mp hx) with hx | hx
      · exact (hw.selected x hx).imp_right (Or.imp_left Or.inl)
      · exact Or.inr (Or.inl (Or.inr hx))

/-- What an event keeps. -/
theorem Inv.handle (hw : Inv namespaces w) {e : WizardEvent}
    (henabled : enabled namespaces w e = true)
    (h : LeavesNothing namespaces w e) : Inv namespaces (handle w e) := by
  -- events of the first step may change the pending name
  have hfirst : shows .identity w = true →
      ∀ v : Wizard, v.step = w.step → v.step ≠ .permissions := by
    intro hshown v hv hstep
    exact nomatch (step_of_shows hshown).symm.trans (hv.symm.trans hstep)
  cases e with
  | close =>
      have hinit : Inv namespaces .init := inv_init
      exact hinit.congr rfl rfl rfl nofun
  | next timing => exact hw.next henabled h
  | toggle ns => exact hw.toggle henabled
  | addInline => exact hw.addInline
  | chooseNamespace | typeNewNamespace =>
      refine hw.congr rfl rfl rfl (fun hstep => ?_)
      have hshown := (Bool.and_eq_true_iff.mp
        (Bool.and_eq_true_iff.mp henabled).1).1
      exact absurd hstep (hfirst hshown _ rfl)
  | back | rolesAssigned => exact hw.congr rfl rfl rfl nofun
  | created data =>
      rw [CvUserWizard.handle, handleCreated]
      split
      · exact hw.congr rfl rfl rfl (fun hstep => ⟨hstep, rfl⟩)
      · exact hw.congr rfl rfl rfl nofun
  | reopen | chooseUserType | typeName | typeGroups | choosePreset
  | chooseScope | typeInline | create | createFailed | confirm =>
      exact hw.congr rfl rfl rfl (fun hstep => ⟨hstep, rfl⟩)

theorem Inv.wizardStep (hw : Inv namespaces w) {e : WizardEvent}
    (h : LeavesNothing namespaces w e) :
    Inv namespaces (wizardStep namespaces e w) := by
  rw [CvUserWizard.wizardStep]
  by_cases henabled : enabled namespaces w e = true
  · rw [if_pos henabled]
    exact hw.handle henabled h
  · rw [if_neg henabled]
    exact hw

/-- One event, from a state in which the invariant holds. -/
theorem safe_wizardStep_iff (hw : Inv namespaces w) (e : WizardEvent) :
    SafeStep2 namespaces (wizardStep namespaces e w) ↔
      LeavesNothing namespaces w e := by
  refine ⟨fun h => ?_, fun h => (hw.wizardStep h).safe⟩
  cases e with
  | next timing =>
      by_cases henabled : enabled namespaces w (.next timing) = true
      · rw [CvUserWizard.wizardStep, if_pos henabled] at h
        exact leavesNothing_of_safe h
      · cases timing with
        | duringCall => exact trivial
        | atRender => exact fun hshown => absurd hshown henabled
  | _ => exact trivial

/-- In every state that a run reaches, the second step shows all selected
    namespaces, exactly if no late updater of the run leaves a name behind. -/
theorem selected_namespaces_shown_iff (namespaces : List String)
    (events : List WizardEvent) :
    (∀ pre, pre <+: events →
      SafeStep2 namespaces (after (wizardStep namespaces) pre .init)) ↔
      Along (wizardStep namespaces) (LeavesNothing namespaces) events
        .init := by
  have hkept : ∀ w e, Inv namespaces w →
      SafeStep2 namespaces (wizardStep namespaces e w) →
      Inv namespaces (wizardStep namespaces e w) :=
    fun w e hw hsafe => hw.wizardStep ((safe_wizardStep_iff hw e).mp hsafe)
  rw [reached_iff, and_iff_right inv_init.safe]
  exact along_congr hkept (fun w e hw => safe_wizardStep_iff hw e) inv_init
    events

/-- A namespace is renamed, and the updater runs at the render: the old name
    stays selected, and the list does not show it. -/
theorem renamed_namespace_stays :
    ¬ SafeStep2 [] (after (wizardStep [])
      [.reopen, .typeName "ci", .typeNewNamespace "team-a", .next .duringCall,
        .back, .typeNewNamespace "team-b", .next .atRender] .init) := by
  intro h
  have hshown := (h (by decide)).selected "team-a" (by decide)
  revert hshown
  decide

end CvUserWizard
