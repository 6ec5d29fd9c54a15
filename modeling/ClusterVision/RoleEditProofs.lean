import ClusterVision.ClusterRoleProofs

/-! # Editing a role

    The API server authorises a request by the rules of the roles that are
    bound to its user.  The first half of this file is that decision, for one
    role.  The second half is what an editor does: it reads the rules of a role
    as `_rule_from_k8s` shows them and saves them as `_rule_to_k8s` sends them.
    The models on the way have no field for non-resource URLs, and they read a
    rule without API groups as one of the core group. -/

namespace CvEdit

open CvProg CvTable CvKube CvBackend CvRbac CvRoles

/-! ## What a role authorises -/

/-- A request for a resource of a namespace (`none` for the others). -/
structure ResourceRequest where
  verb : String
  ns : Option String
  group : String
  resource : String
  subresource : String
  name : String

/-- A request as the authorizer of the API server sees it. -/
inductive Request where
  | resource (q : ResourceRequest)
  | nonResource (verb path : String)

/-- A list of a rule; an absent one is empty. -/
def entries (xs : Option (List String)) : List String := xs.getD []

/-- `VerbMatches`. -/
def verbMatches (rule : PolicyRule) (verb : String) : Bool :=
  (entries rule.verbs).any (fun v => v = "*" || v = verb)

/-- `APIGroupMatches`, for a list of API groups. -/
def groupMatches (groups : List String) (group : String) : Bool :=
  groups.any (fun g => g = "*" || g = group)

/-- The resource of a request with its subresource. -/
def ResourceRequest.combined (q : ResourceRequest) : String :=
  if q.subresource = "" then q.resource
  else q.resource ++ "/" ++ q.subresource

/-- `ResourceMatches`. -/
def resourceMatches (rule : PolicyRule) (q : ResourceRequest) : Bool :=
  (entries rule.resources).any (fun r => r = "*" || r = q.combined ||
    (q.subresource ≠ "" && r = "*/" ++ q.subresource))

/-- `ResourceNameMatches`: no names are all names. -/
def nameMatches (rule : PolicyRule) (name : String) : Bool :=
  (entries rule.resourceNames).isEmpty ||
    (entries rule.resourceNames).any (fun n => n = name)

/-- `strings.TrimRight(text, "*")`. -/
def trimStars (cs : List Char) : List Char :=
  (cs.reverse.dropWhile (fun c => c = '*')).reverse

/-- `NonResourceURLMatches`. -/
def urlMatches (rule : PolicyRule) (path : String) : Bool :=
  (entries rule.nonResourceUrls).any (fun u => u = "*" || u = path ||
    (u.toList.getLast? = some '*' &&
      (trimStars u.toList).isPrefixOf path.toList))

/-- Does a rule cover a request, if its API groups are `groups`? -/
def covers (rule : PolicyRule) (groups : List String) (q : ResourceRequest) :
    Bool :=
  verbMatches rule q.verb && groupMatches groups q.group &&
    resourceMatches rule q && nameMatches rule q.name

/-- `RuleAllows`. -/
def ruleAllows (rule : PolicyRule) : Request → Bool
  | .resource q => covers rule (entries rule.apiGroups) q
  | .nonResource verb path => verbMatches rule verb && urlMatches rule path

/-- Does a role apply to a request?  A Role applies to requests for resources
    of its own namespace. -/
def applies (r : RoleObject) : Request → Bool
  | .resource q => r.ns.isNone || r.ns = q.ns
  | .nonResource _ _ => r.ns.isNone

/-- `RulesAllow`. -/
def authorises (r : RoleObject) (q : Request) : Bool :=
  applies r q && r.rules.any (fun rule => ruleAllows rule q)

/-! ## Reading and saving -/

/-- `PolicyRule(**rule)`. -/
def policyRule (rule : RuleRead) : RulePayload :=
  ⟨rule.apiGroups, rule.resources, rule.verbs, rule.resourceNames⟩

/-- A rule as it comes back from an edit that changes nothing. -/
def editedRule (rule : PolicyRule) : PolicyRule :=
  ruleToK8s (policyRule (ruleFromK8s rule))

/-- Save a role as it was read. -/
def saveBack (cluster : String) (r : RoleObject) : Svc RoleRead :=
  let rules := r.rules.map (fun rule => policyRule (ruleFromK8s rule))
  match r.ns with
  | none => updateClusterRole cluster r.name rules
  | some ns => updateRole cluster ns r.name rules

/-- A role that has been saved as it was read. -/
def edited (r : RoleObject) : RoleObject :=
  { r with rules := r.rules.map editedRule }

section Editing

variable {w : World} {cluster : String} {r : RoleObject}

theorem entries_orDefault (xs : Option (List String)) :
    orDefault xs [] = entries xs := by
  match xs with
  | none => rfl
  | some [] => rfl
  | some (_ :: _) => rfl

/-- Saving a role stores what was read of it. -/
theorem run_saveBack (hr : (w.clusters cluster).roles.get r.key = some r) :
    ∃ read, (saveBack cluster r).run handle w
      = (.ok read, setRoles w cluster
          ((w.clusters cluster).roles.put (edited r))) := by
  have hedited : edited r = { r with
      rules := (r.rules.map (fun rule =>
        policyRule (ruleFromK8s rule))).map ruleToK8s } := by
    rw [List.map_map]
    rfl
  rw [saveBack]
  cases hns : r.ns with
  | none =>
      have hrun := run_replaceRules w cluster none r.name
        ((r.rules.map (fun rule =>
          policyRule (ruleFromK8s rule))).map ruleToK8s) clusterRoleRead
      rw [RoleObject.key, hns] at hr
      rw [hr] at hrun
      simp only [← hedited] at hrun
      exact ⟨_, hrun⟩
  | some ns =>
      have hrun := run_replaceRules w cluster (some ns) r.name
        ((r.rules.map (fun rule =>
          policyRule (ruleFromK8s rule))).map ruleToK8s) roleRead
      rw [RoleObject.key, hns] at hr
      rw [hr] at hrun
      simp only [← hedited] at hrun
      exact ⟨_, hrun⟩

/-- An edited rule covers what its rule covers in the groups that are read. -/
theorem ruleAllows_edited (rule : PolicyRule) (q : ResourceRequest) :
    ruleAllows (editedRule rule) (.resource q)
      = covers rule (orDefault rule.apiGroups [""]) q := by
  have hverbs : verbMatches (editedRule rule) = verbMatches rule := by
    funext verb
    show (orDefault rule.verbs []).any _ = _
    rw [entries_orDefault]
    rfl
  have hresources : resourceMatches (editedRule rule)
      = resourceMatches rule := by
    funext q
    show (orDefault rule.resources []).any _ = _
    rw [entries_orDefault]
    rfl
  have hnames : nameMatches (editedRule rule) = nameMatches rule := rfl
  rw [ruleAllows, covers, covers, hverbs, hresources, hnames]
  rfl

/-- No edited rule covers a path. -/
theorem ruleAllows_edited_path (rule : PolicyRule) (verb path : String) :
    ruleAllows (editedRule rule) (.nonResource verb path) = false :=
  Bool.and_false _

/-- Reading a rule adds the core group where it has no group. -/
theorem covers_read (rule : PolicyRule) (q : ResourceRequest) :
    covers rule (orDefault rule.apiGroups [""]) q = true ↔
      ruleAllows rule (.resource q) = true ∨
        (entries rule.apiGroups = [] ∧ covers rule [""] q = true) := by
  rw [ruleAllows]
  match hgroups : rule.apiGroups with
  | some (g :: gs) => exact ⟨Or.inl, fun h => h.elim id (fun h => nomatch h.1)⟩
  | none | some [] =>
      -- without a group the rule itself covers nothing
      have hnothing : covers rule (entries rule.apiGroups) q = false := by
        rw [hgroups, covers]
        simp [entries, groupMatches]
      rw [hgroups] at hnothing
      rw [hnothing]
      exact ⟨fun h => Or.inr ⟨rfl, h⟩, fun h => h.elim nofun And.right⟩

end Editing

/-- A request that a rule without API groups would cover in the core group. -/
def CoreRead (r : RoleObject) (q : ResourceRequest) : Prop :=
  applies r (.resource q) = true ∧
    ∃ rule ∈ r.rules, entries rule.apiGroups = [] ∧ covers rule [""] q = true

/-- What an edit that changes nothing comes to: `r'` authorises the resource
    requests of `r`, and those of the rules of `r` without API groups read in
    the core group, and no others. -/
structure EditOf (r r' : RoleObject) : Prop where
  resource : ∀ q, authorises r' (.resource q) = true ↔
    authorises r (.resource q) = true ∨ CoreRead r q
  nonResource : ∀ verb path, authorises r' (.nonResource verb path) = false

theorem editOf_edited (r : RoleObject) : EditOf r (edited r) := by
  refine ⟨fun q => ?_, fun verb path => ?_⟩
  · have happlies : applies (edited r) (.resource q)
        = applies r (.resource q) := rfl
    rw [authorises, authorises, CoreRead, happlies, Bool.and_eq_true,
      Bool.and_eq_true, ← and_or_left, and_congr_right_iff]
    intro _
    simp only [edited, List.any_eq_true, List.mem_map,
      exists_exists_and_eq_and, ruleAllows_edited, covers_read, and_or_left,
      exists_or]
  · have hnone : (edited r).rules.any
        (fun rule => ruleAllows rule (.nonResource verb path)) = false := by
      rw [List.any_eq_false]
      intro rule hrule
      obtain ⟨rule', -, rfl⟩ := List.mem_map.mp hrule
      rw [ruleAllows_edited_path]
      exact Bool.false_ne_true
    rw [authorises, hnone, Bool.and_false]

/-- Saving a role as it was read stores a role that authorises the resource
    requests it authorised before, with the core group for rules without API
    groups, and no non-resource request.  It authorises what it did exactly
    when that adds nothing and takes nothing away. -/
theorem saveBack_authorises (w : World) (cluster : String) (r : RoleObject)
    (hr : (w.clusters cluster).roles.get r.key = some r) :
    ∃ read r', ((saveBack cluster r).run handle w).1 = .ok read ∧
      (((saveBack cluster r).run handle w).2.clusters cluster).roles.get r.key
        = some r' ∧
      EditOf r r' ∧
      ((∀ q, authorises r' q = authorises r q) ↔
        (∀ q, CoreRead r q → authorises r (.resource q) = true) ∧
        ∀ verb path, authorises r (.nonResource verb path) = false) := by
  obtain ⟨read, hrun⟩ := run_saveBack hr
  have hedit := editOf_edited r
  refine ⟨read, edited r, by rw [hrun], ?_, hedit, ?_⟩
  · rw [hrun]
    show ((setRoles w cluster _).clusters cluster).roles.get r.key = _
    rw [setRoles, World.setCluster_self]
    exact Table.get_put_self _ (edited r)
  · constructor
    · intro hsame
      refine ⟨fun q hq => ?_, fun verb path => ?_⟩
      · rw [← hsame]
        exact (hedit.resource q).mpr (Or.inr hq)
      · rw [← hsame]
        exact hedit.nonResource verb path
    · rintro ⟨hcore, hpaths⟩ q
      cases q with
      | resource q =>
          rw [Bool.eq_iff_iff, hedit.resource q, or_iff_left_iff_imp]
          exact hcore q
      | nonResource verb path =>
          rw [hedit.nonResource, hpaths]

/-- A role for the health check. -/
def healthRole : RoleObject :=
  ⟨"health-reader", none, [], [⟨none, none, some ["get"], none,
    some ["/healthz"]⟩]⟩

/-- A cluster with that role. -/
def withHealthRole : World :=
  World.fresh.setCluster "local" { Cluster.fresh with
    roles := Table.empty.put healthRole }

/-- It can be saved, and authorises less afterwards. -/
theorem saveBack_healthRole :
    ∃ read r', ((saveBack "local" healthRole).run handle withHealthRole).1
        = .ok read ∧
      (((saveBack "local" healthRole).run handle withHealthRole).2.clusters
        "local").roles.get healthRole.key = some r' ∧
      EditOf healthRole r' ∧
      ¬ ∀ q, authorises r' q = authorises healthRole q := by
  obtain ⟨read, r', hread, hr', hedit, hsame⟩ :=
    saveBack_authorises withHealthRole "local" healthRole (by decide)
  refine ⟨read, r', hread, hr', hedit, fun h => ?_⟩
  exact absurd ((hsame.mp h).2 "get" "/healthz") (by decide)

/-- Afterwards nobody may read the health check through it. -/
theorem saveBack_loses_path :
    ¬ ∀ (w : World) (cluster : String) (r : RoleObject),
      (w.clusters cluster).roles.get r.key = some r →
      ∃ r', (((saveBack cluster r).run handle w).2.clusters
          cluster).roles.get r.key = some r' ∧
        ∀ q, authorises r' q = authorises r q := by
  intro hall
  obtain ⟨r', hr', hsame⟩ := hall withHealthRole "local" healthRole (by decide)
  obtain rfl : edited healthRole = r' :=
    Option.some.inj ((by decide : _ = some (edited healthRole)).symm.trans hr')
  exact absurd (hsame (.nonResource "get" "/healthz")) (by decide)

end CvEdit
