import ClusterVision.Backend

/-! # RegistryMixin

    The registry of managed users, `core/registry.py`.  Its callers see lists of
    dictionaries; the table keeps rows.  An update loads the dictionaries, lets
    the caller change the list, and writes the difference. -/

namespace CvRegistry

open CvProg CvTable CvIso CvKube CvBackend

/-! ## Dictionaries -/

/-- The dictionary of a managed user.  A missing optional key is `none`, and a
    missing `imported` is `false`. -/
structure RegistryEntry where
  name : String
  type : UserType
  groups : List String
  ns : String
  createdAt : String
  csrName : Option String := none
  certExpiry : Option String := none
  imported : Bool := false
deriving DecidableEq

/-- `(u["name"], u.get("namespace", "default"))`. -/
def RegistryEntry.key (u : RegistryEntry) : String × String := (u.name, u.ns)

/-- `",".join(groups)`. -/
def joinGroups (groups : List String) : String :=
  String.ofList ([','].intercalate (groups.map String.toList))

/-- `[g for g in groups_csv.split(",") if g]`. -/
def splitGroups (groupsCsv : String) : List String :=
  ((groupsCsv.toList.splitOn ',').map String.ofList).filter
    (fun g => decide (g ≠ ""))

/-- The text of a stored time. -/
def timeText (d : Datetime) : String := String.ofList (isoformat d)

/-- `ManagedUser.to_dict`. -/
def toDict (r : ManagedUser) : RegistryEntry where
  name := r.name
  type := r.type
  groups := splitGroups r.groupsCsv
  ns := r.ns
  createdAt := timeText r.createdAt
  csrName := if truthy r.csrName = true then r.csrName else none
  certExpiry := r.certExpiry.map timeText
  imported := r.imported

/-- A Python dictionary of registry entries, keyed as the table is: a later
    entry takes the place of an earlier one with its key. -/
abbrev EntryDict := Table RegistryEntry RegistryEntry.key

/-- `{key(u): u for u in users}`. -/
def entryDict (users : List RegistryEntry) : EntryDict :=
  users.foldl Table.put Table.empty

/-! ## Reading and writing -/

/-- `_load_registry`. -/
def loadRegistry : Svc (List RegistryEntry) := do
  let rows : List ManagedUser ← db .selectManagedUsers
  pure (rows.map toDict)

/-- `datetime.fromisoformat(text)`. -/
def parseTime (text : String) : Svc Datetime :=
  match fromisoformat text.toList with
  | some d => pure d
  | none => throw (.valueError ("Invalid isoformat string: '" ++ text ++ "'"))

/-- `datetime.fromisoformat(created_at) if created_at else datetime.now(UTC)`. -/
def createdAtColumn (text : String) : Svc Datetime :=
  if text = "" then do
    let t ← now
    pure (utc t)
  else parseTime text

/-- `datetime.fromisoformat(cert_expiry) if cert_expiry else None`. -/
def certExpiryColumn (text : Option String) : Svc (Option Datetime) :=
  match text with
  | none => pure none
  | some text =>
      if text = "" then pure none
      else do
        let d ← parseTime text
        pure (some d)

/-- The row of an entry: its key and `values`. -/
def columns (u : RegistryEntry) : Svc ManagedUser := do
  let createdAt ← createdAtColumn u.createdAt
  let certExpiry ← certExpiryColumn u.certExpiry
  pure {
    name := u.name
    ns := u.ns
    type := u.type
    groupsCsv := joinGroups u.groups
    createdAt := createdAt
    csrName := u.csrName
    certExpiry := certExpiry
    imported := u.imported }

/-- The body of the loop of `_update_registry` over the new entries: the
    statement for one of them, if it needs one. -/
def writeEntry (before : EntryDict) (writes : List DbWrite)
    (u : RegistryEntry) : Svc (List DbWrite) := do
  let row ← columns u
  let existing : Option ManagedUser ← db (.getManagedUser u.name u.ns)
  match existing with
  | none => pure (writes ++ [.insertManagedUser row])
  | some _ =>
      if before.get u.key ≠ some u then
        pure (writes ++ [.updateManagedUser row])
      else pure writes

/-- The statements for the entries that are gone. -/
def deletions (before after : EntryDict) : List DbWrite :=
  (before.rows.filter (fun u => (after.get u.key).isNone)).map
    (fun u => .deleteManagedUser u.name u.ns)

/-- `_update_registry`; `mutate` may raise. -/
def updateRegistry
    (mutate : List RegistryEntry → Except Exn (List RegistryEntry)) :
    Svc (List RegistryEntry) := do
  let loaded ← loadRegistry
  let before := entryDict loaded
  let afterList ← Prog.ofExcept (mutate before.rows)
  let after := entryDict afterList
  let writes ← after.rows.foldlM (writeEntry before) (deletions before after)
  db (.commit writes)
  pure afterList

end CvRegistry
