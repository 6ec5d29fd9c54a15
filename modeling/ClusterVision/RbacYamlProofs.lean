import ClusterVision.RoleEditProofs

/-! # Importing rules from YAML

    The role editor takes a list of rules as YAML (`lib/parseRbacYaml.ts`).
    The importer checks the fields that it knows, fills in the core group, and
    builds the rules that the editor saves.  This file gives the rules that a
    YAML value denotes, and says for which values the imported rules authorise
    the same requests. -/

namespace CvYaml

open CvKube CvRbac CvEdit

/-! ## Values -/

/-- What `load` returns.  `null` stands for `undefined` too, and the value of a
    boolean, of a number and of any other object (a date, binary data) is never
    looked at. -/
inductive Yaml where
  | null
  | bool
  | number
  | str (s : String)
  | seq (xs : List Yaml)
  | map (fields : List (String × Yaml))
  | object

/-- `value[key]`; a missing key is `undefined`. -/
def Yaml.prop (value : Yaml) (key : String) : Yaml :=
  match value with
  | .map fields =>
      ((fields.find? (fun f => decide (f.1 = key))).map Prod.snd).getD .null
  | _ => .null

/-- `a ?? b`. -/
def coalesce : Yaml → Yaml → Yaml
  | .null, b => b
  | a, _ => a

/-- The text, if the value is one. -/
def Yaml.text? : Yaml → Option String
  | .str s => some s
  | _ => none

/-- Is this an object, but no array? -/
def Yaml.isMapping : Yaml → Bool
  | .map _ => true
  | .object => true
  | _ => false

/-! ## The importer -/

/-- `RbacYamlError`. -/
structure RbacYamlError where
  message : String
deriving DecidableEq

/-- The text of a rule's place in the list. -/
def ruleLabel (ruleIndex : Nat) : String :=
  "Rule " ++ toString (ruleIndex + 1)

/-- The error of a field that is neither a string nor a list of strings. -/
def badField (field : String) (ruleIndex : Nat) : RbacYamlError :=
  ⟨ruleLabel ruleIndex ++ ": \"" ++ field
    ++ "\" must be a string or a list of strings"⟩

/-- `asStringArray`. -/
def asStringArray (value : Yaml) (field : String) (ruleIndex : Nat) :
    Except RbacYamlError (List String) :=
  match value with
  | .null => .ok []
  | .str s => .ok [s]
  | .seq xs =>
      match xs.mapM Yaml.text? with
      | some texts => .ok texts
      | none => .error (badField field ruleIndex)
  | _ => .error (badField field ruleIndex)

/-- The rule that the importer makes of the four lists. -/
def ruleOf (apiGroups resources verbs resourceNames : List String) :
    RulePayload where
  apiGroups := if apiGroups = [] then [""] else apiGroups
  resources := resources
  verbs := verbs
  resourceNames := if resourceNames = [] then none else some resourceNames

/-- One entry of the list. -/
def importRule (entry : Yaml) (i : Nat) : Except RbacYamlError RulePayload :=
  if entry.isMapping = false then
    .error ⟨ruleLabel i ++ " must be a mapping (apiGroups/resources/verbs)"⟩
  else do
    let apiGroups ← asStringArray
      (coalesce (entry.prop "apiGroups") (entry.prop "api_groups"))
      "apiGroups" i
    let resources ← asStringArray (entry.prop "resources") "resources" i
    let verbs ← asStringArray (entry.prop "verbs") "verbs" i
    let resourceNames ← asStringArray
      (coalesce (entry.prop "resourceNames") (entry.prop "resource_names"))
      "resourceNames" i
    if verbs = [] then .error ⟨ruleLabel i ++ ": \"verbs\" is required"⟩
    else .ok (ruleOf apiGroups resources verbs resourceNames)

/-- `rulesValue.map(...)`, from the entry with the index `i` on. -/
def importRules : Nat → List Yaml → Except RbacYamlError (List RulePayload)
  | _, [] => .ok []
  | i, entry :: entries => do
      let rule ← importRule entry i
      let rules ← importRules (i + 1) entries
      .ok (rule :: rules)

/-- `rulesValue`: a bare list, or the list under the key `rules`. -/
def rulesValue : Yaml → Option (List Yaml)
  | .seq entries => some entries
  | parsed =>
      match parsed.prop "rules" with
      | .seq entries => some entries
      | _ => none

/-- `parseRulesYaml`, given the value of `load` or the message of its error. -/
def parseRulesYaml (loaded : Except String Yaml) :
    Except RbacYamlError (List RulePayload) :=
  match loaded with
  | .error message => .error ⟨"Invalid YAML: " ++ message⟩
  | .ok parsed =>
      match rulesValue parsed with
      | none => .error
          ⟨"Expected a list of rules, or an object with a \"rules:\" array"⟩
      | some [] => .error ⟨"No rules found"⟩
      | some (entry :: entries) => importRules 0 (entry :: entries)

/-! ## What a value denotes -/

/-- The texts of a field: one string, or a list of strings.  Anything else
    names nothing. -/
def texts : Yaml → List String
  | .str s => [s]
  | .seq xs => (xs.mapM Yaml.text?).getD []
  | _ => []

/-- The fields of a rule, each under the names that the importer documents;
    `nonResourceURLs` is the one field of Kubernetes that it does not know. -/
structure Fields where
  apiGroups : Yaml
  resources : Yaml
  verbs : Yaml
  resourceNames : Yaml
  nonResourceUrls : Yaml

/-- The fields of an entry. -/
def fieldsOf (entry : Yaml) : Fields where
  apiGroups := coalesce (entry.prop "apiGroups") (entry.prop "api_groups")
  resources := entry.prop "resources"
  verbs := entry.prop "verbs"
  resourceNames :=
    coalesce (entry.prop "resourceNames") (entry.prop "resource_names")
  nonResourceUrls := entry.prop "nonResourceURLs"

/-- The rule that an entry denotes; without API groups it is about the core
    group. -/
def denoted (entry : Yaml) : PolicyRule :=
  let f := fieldsOf entry
  { apiGroups := some (if texts f.apiGroups = [] then [""]
      else texts f.apiGroups)
    resources := some (texts f.resources)
    verbs := some (texts f.verbs)
    resourceNames := some (texts f.resourceNames)
    nonResourceUrls := some (texts f.nonResourceUrls) }

/-- The entries of a value. -/
def entriesOf (v : Yaml) : List Yaml := (rulesValue v).getD []

/-- Does a list of rules allow a request? -/
def rulesAllow (rules : List PolicyRule) (q : Request) : Bool :=
  rules.any (fun rule => ruleAllows rule q)

/-- The importer refuses the value, or the rules it returns authorise what the
    value's rules authorise. -/
def Faithful (v : Yaml) : Prop :=
  ∀ rules, parseRulesYaml (.ok v) = .ok rules →
    ∀ q, rulesAllow (rules.map ruleToK8s) q
      = rulesAllow ((entriesOf v).map denoted) q

/-! ## Which values are imported -/

/-- A field that is missing, a string, or a list of strings. -/
def Readable : Yaml → Prop
  | .null => True
  | .str _ => True
  | .seq xs => ∃ ts, xs.mapM Yaml.text? = some ts
  | _ => False

/-- A mapping whose known fields can be read, and that has a verb. -/
def ImportableRule (entry : Yaml) : Prop :=
  entry.isMapping = true ∧ Readable (fieldsOf entry).apiGroups ∧
    Readable (fieldsOf entry).resources ∧ Readable (fieldsOf entry).verbs ∧
    Readable (fieldsOf entry).resourceNames ∧
    texts (fieldsOf entry).verbs ≠ []

/-- A value with rules, all of which can be read. -/
def Importable (v : Yaml) : Prop :=
  entriesOf v ≠ [] ∧ ∀ entry ∈ entriesOf v, ImportableRule entry

/-- The rule that the importer makes of an entry that it can read. -/
def imported (entry : Yaml) : RulePayload :=
  ruleOf (texts (fieldsOf entry).apiGroups) (texts (fieldsOf entry).resources)
    (texts (fieldsOf entry).verbs) (texts (fieldsOf entry).resourceNames)

/-- A readable field is read as its texts. -/
theorem asStringArray_eq_ok_iff {value : Yaml} {field : String} {i : Nat}
    {xs : List String} :
    asStringArray value field i = .ok xs ↔ Readable value ∧ xs = texts value :=
    by
  have hok : ∀ ys : List String,
      (Except.ok ys : Except RbacYamlError (List String)) = .ok xs ↔
        xs = ys :=
    fun ys => ⟨fun h => (Except.ok.inj h).symm, fun h => h ▸ rfl⟩
  cases value with
  | null =>
      rw [asStringArray, hok, Readable, true_and]
      exact Iff.rfl
  | str s => rw [asStringArray, hok, Readable, true_and, texts]
  | seq ys =>
      rw [asStringArray, Readable, texts]
      cases hys : ys.mapM Yaml.text? with
      | some ts =>
          rw [hok]
          exact ⟨fun h => ⟨⟨ts, rfl⟩, h⟩, fun h => h.2⟩
      | none => exact ⟨nofun, fun h => nomatch h.1⟩
  | bool => exact ⟨nofun, fun h => h.1.elim⟩
  | number => exact ⟨nofun, fun h => h.1.elim⟩
  | map fields => exact ⟨nofun, fun h => h.1.elim⟩
  | object => exact ⟨nofun, fun h => h.1.elim⟩

/-- A step that reads a field, and what comes after it. -/
theorem bind_asStringArray_iff {value : Yaml} {field : String} {i : Nat}
    {k : List String → Except RbacYamlError RulePayload} {rule : RulePayload} :
    (asStringArray value field i >>= k) = .ok rule ↔
      Readable value ∧ k (texts value) = .ok rule := by
  cases hread : asStringArray value field i with
  | error e =>
      refine ⟨nofun, fun h => ?_⟩
      have hok : asStringArray value field i = .ok (texts value) :=
        asStringArray_eq_ok_iff.mpr ⟨h.1, rfl⟩
      exact nomatch hread.symm.trans hok
  | ok xs =>
      obtain ⟨hreadable, rfl⟩ := asStringArray_eq_ok_iff.mp hread
      exact ⟨fun h => ⟨hreadable, h⟩, fun h => h.2⟩

/-- An entry is imported when it can be, and as one rule. -/
theorem importRule_eq_ok_iff {entry : Yaml} {i : Nat} {rule : RulePayload} :
    importRule entry i = .ok rule ↔
      ImportableRule entry ∧ rule = imported entry := by
  rw [importRule, ImportableRule]
  by_cases hmap : entry.isMapping = true
  · rw [if_neg (by rw [hmap]; nofun), bind_asStringArray_iff,
      bind_asStringArray_iff, bind_asStringArray_iff, bind_asStringArray_iff]
    by_cases hverbs : texts (entry.prop "verbs") = []
    · rw [if_pos hverbs]
      exact ⟨fun h => (nomatch h.2.2.2.2),
        fun h => absurd hverbs h.1.2.2.2.2.2⟩
    · rw [if_neg hverbs]
      constructor
      · rintro ⟨hgroups, hresources, hverb, hnames, hrule⟩
        exact ⟨⟨hmap, hgroups, hresources, hverb, hnames, hverbs⟩,
          (Except.ok.inj hrule).symm⟩
      · rintro ⟨⟨-, hgroups, hresources, hverb, hnames, -⟩, rfl⟩
        exact ⟨hgroups, hresources, hverb, hnames, rfl⟩
  · rw [if_pos (Bool.not_eq_true _ ▸ hmap)]
    exact ⟨nofun, fun h => absurd h.1.1 hmap⟩

/-- The list is imported when every entry can be, entry by entry. -/
theorem importRules_eq_ok_iff {entries : List Yaml} :
    ∀ {i : Nat} {rules : List RulePayload},
      importRules i entries = .ok rules ↔
        (∀ entry ∈ entries, ImportableRule entry)
          ∧ rules = entries.map imported := by
  induction entries with
  | nil =>
      intro i rules
      rw [importRules]
      exact ⟨fun h => ⟨nofun, (Except.ok.inj h).symm⟩,
        fun h => congrArg Except.ok h.2.symm⟩
  | cons entry entries ih =>
      intro i rules
      rw [importRules, List.forall_mem_cons, List.map_cons]
      cases hrule : importRule entry i with
      | error e =>
          refine ⟨nofun, fun h => ?_⟩
          have hok := (importRule_eq_ok_iff (i := i)).mpr ⟨h.1.1, rfl⟩
          exact nomatch hrule.symm.trans hok
      | ok rule =>
          obtain ⟨hentry, rfl⟩ := importRule_eq_ok_iff.mp hrule
          cases hrest : importRules (i + 1) entries with
          | error e =>
              refine ⟨nofun, fun h => ?_⟩
              have hok := (ih (i := i + 1)).mpr ⟨h.1.2, rfl⟩
              exact nomatch hrest.symm.trans hok
          | ok rest =>
              obtain ⟨hentries, rfl⟩ := ih.mp hrest
              exact ⟨fun h => ⟨⟨hentry, hentries⟩, (Except.ok.inj h).symm⟩,
                fun h => congrArg Except.ok h.2.symm⟩

/-- A value is imported when it can be, entry by entry. -/
theorem parseRulesYaml_eq_ok_iff {v : Yaml} {rules : List RulePayload} :
    parseRulesYaml (.ok v) = .ok rules ↔
      Importable v ∧ rules = (entriesOf v).map imported := by
  rw [parseRulesYaml, Importable, entriesOf]
  cases hvalue : rulesValue v with
  | none => exact ⟨nofun, fun h => absurd rfl h.1.1⟩
  | some entries =>
      cases entries with
      | nil => exact ⟨nofun, fun h => absurd rfl h.1.1⟩
      | cons entry entries =>
          rw [Option.getD_some, importRules_eq_ok_iff,
            and_iff_right (List.cons_ne_nil entry entries)]

/-! ## What the import loses -/

/-- For resources, the imported rule allows what the entry denotes. -/
theorem ruleAllows_imported_resource (entry : Yaml) (q : ResourceRequest) :
    ruleAllows (ruleToK8s (imported entry)) (.resource q)
      = ruleAllows (denoted entry) (.resource q) := by
  -- no names, and an empty list of names, are no restriction
  have hnames : entries (ruleToK8s (imported entry)).resourceNames
      = entries (denoted entry).resourceNames := by
    show entries (if texts (fieldsOf entry).resourceNames = [] then none
      else some (texts (fieldsOf entry).resourceNames)) = _
    by_cases hnone : texts (fieldsOf entry).resourceNames = []
    · rw [if_pos hnone, denoted, hnone]
      rfl
    · rw [if_neg hnone]
      rfl
  rw [ruleAllows, ruleAllows, covers, covers, nameMatches, nameMatches, hnames]
  rfl

/-- For other URLs, the imported rule allows nothing. -/
theorem ruleAllows_imported_path (entry : Yaml) (verb path : String) :
    ruleAllows (ruleToK8s (imported entry)) (.nonResource verb path)
      = false :=
  Bool.and_false _

/-- An entry with a verb and a URL denotes a rule that allows a request for
    that URL. -/
theorem ruleAllows_denoted_url {entry : Yaml} {verb url : String}
    (hverb : verb ∈ texts (fieldsOf entry).verbs)
    (hurl : url ∈ texts (fieldsOf entry).nonResourceUrls) :
    ruleAllows (denoted entry) (.nonResource verb url) = true := by
  rw [ruleAllows, Bool.and_eq_true]
  constructor
  · refine List.any_eq_true.mpr ⟨verb, hverb, ?_⟩
    simp
  · refine List.any_eq_true.mpr ⟨url, hurl, ?_⟩
    simp

/-- An entry without URLs denotes a rule that allows no request for one. -/
theorem ruleAllows_denoted_path {entry : Yaml}
    (hnone : texts (fieldsOf entry).nonResourceUrls = [])
    (verb path : String) :
    ruleAllows (denoted entry) (.nonResource verb path) = false := by
  have hurls : urlMatches (denoted entry) path = false := by
    rw [urlMatches, denoted]
    show List.any (texts (fieldsOf entry).nonResourceUrls) _ = false
    rw [hnone]
    rfl
  rw [ruleAllows, hurls, Bool.and_false]

/-- What a list of imported rules allows. -/
theorem rulesAllow_imported (es : List Yaml) (q : Request) :
    rulesAllow ((es.map imported).map ruleToK8s) q
      = es.any (fun e => ruleAllows (ruleToK8s (imported e)) q) := by
  rw [rulesAllow, List.any_map, List.any_map]
  rfl

/-- What a list of denoted rules allows. -/
theorem rulesAllow_denoted (es : List Yaml) (q : Request) :
    rulesAllow (es.map denoted) q
      = es.any (fun e => ruleAllows (denoted e) q) := by
  rw [rulesAllow, List.any_map]
  rfl

/-- The importer is faithful to a value exactly when it cannot be imported, or
    no rule of it names a URL that is no resource. -/
theorem faithful_iff_no_urls (v : Yaml) :
    Faithful v ↔ (Importable v →
      ∀ entry ∈ entriesOf v, texts (fieldsOf entry).nonResourceUrls = []) := by
  constructor
  · intro hfaithful himport entry hentry
    have hsame := hfaithful _ (parseRulesYaml_eq_ok_iff.mpr ⟨himport, rfl⟩)
    obtain ⟨-, -, -, -, -, hverbs⟩ := himport.2 entry hentry
    obtain ⟨verb, hverb⟩ := List.exists_mem_of_ne_nil _ hverbs
    -- a URL would be allowed by the entry, and by no imported rule
    refine List.eq_nil_iff_forall_not_mem.mpr (fun url hurl => ?_)
    have hq := hsame (.nonResource verb url)
    rw [rulesAllow_imported, rulesAllow_denoted] at hq
    have hallowed : (entriesOf v).any (fun e =>
        ruleAllows (denoted e) (.nonResource verb url)) = true :=
      List.any_eq_true.mpr
        ⟨entry, hentry, ruleAllows_denoted_url hverb hurl⟩
    rw [← hq, List.any_eq_true] at hallowed
    obtain ⟨e, -, he⟩ := hallowed
    rw [ruleAllows_imported_path] at he
    exact Bool.false_ne_true he
  · intro hurls rules hrules q
    obtain ⟨himport, rfl⟩ := parseRulesYaml_eq_ok_iff.mp hrules
    have hsame : ∀ e ∈ entriesOf v, ruleAllows (ruleToK8s (imported e)) q
        = ruleAllows (denoted e) q := by
      intro e he
      cases q with
      | resource q => exact ruleAllows_imported_resource e q
      | nonResource verb path =>
          rw [ruleAllows_imported_path,
            ruleAllows_denoted_path (hurls himport e he)]
    rw [rulesAllow_imported, rulesAllow_denoted, Bool.eq_iff_iff,
      List.any_eq_true, List.any_eq_true]
    exact exists_congr (fun e => and_congr_right (fun he => by
      rw [hsame e he]))

/-- A list with one rule, for a URL of the API server. -/
def healthzRule : Yaml :=
  .seq [.map [("nonResourceURLs", .seq [.str "/healthz"]),
    ("verbs", .seq [.str "get"])]]

/-- The rule is imported, and allows nothing. -/
theorem healthzRule_emptied : ¬ Faithful healthzRule := by
  intro h
  have hrules : parseRulesYaml (.ok healthzRule)
      = .ok [⟨[""], [], ["get"], none⟩] := by rfl
  exact absurd (h _ hrules (.nonResource "get" "/healthz")) (by decide)

end CvYaml
