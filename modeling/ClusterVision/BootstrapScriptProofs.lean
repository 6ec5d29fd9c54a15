import ClusterVision.SessionProofs
import ClusterVision.VaultService

/-! # The bootstrap script

    `bootstrap_script` pastes the name of a cluster into a shell script
    (`routers/cluster.py`), and trusts the same pattern as the validator of
    `ClusterAdd`.  The `$` of that pattern also matches before a newline at the
    end.  This file models the script, says which names pass, and when the
    assignment of `CLUSTER_NAME` is the line that it is meant to be. -/

namespace CvBootstrapScript

open CvIso CvBackend CvHttp CvAuth CvToken
open CvCluster (clusterNameMatches nameChar)

/-! ## The names that pass -/

/-- What the message of the validator says of a name. -/
def IsClusterName (name : String) : Prop :=
  1 ≤ name.toList.length ∧ name.toList.length ≤ 63 ∧
    ∀ c ∈ name.toList, ('a' ≤ c ∧ c ≤ 'z') ∨ ('A' ≤ c ∧ c ≤ 'Z') ∨
      ('0' ≤ c ∧ c ≤ '9') ∨ c = '-' ∨ c = '_'

/-- `ClusterAdd.validate_name`. -/
def validateName (v : String) : Except Exn String :=
  if clusterNameMatches v then .ok v
  else .error (.valueError
    "name must be 1-63 alphanumeric characters, hyphens or underscores")

/-- The characters of the pattern. -/
theorem nameChar_iff (c : Char) :
    nameChar c = true ↔ ('a' ≤ c ∧ c ≤ 'z') ∨ ('A' ≤ c ∧ c ≤ 'Z') ∨
      ('0' ≤ c ∧ c ≤ '9') ∨ c = '-' ∨ c = '_' := by
  have hrange : ∀ a b : Char,
      (decide (a.val ≤ c.val) && decide (c.val ≤ b.val)) = true ↔
        a ≤ c ∧ c ≤ b := by
    intro a b
    rw [Bool.and_eq_true, decide_eq_true_iff, decide_eq_true_iff]
    exact Iff.rfl
  have hupper : c.isUpper = true ↔ 'A' ≤ c ∧ c ≤ 'Z' := decide_eq_true_iff
  have hlower : c.isLower = true ↔ 'a' ≤ c ∧ c ≤ 'z' := hrange 'a' 'z'
  have hdigit : c.isDigit = true ↔ '0' ≤ c ∧ c ≤ '9' := hrange '0' '9'
  show (((c.isUpper || c.isLower) || c.isDigit) || c == '-' || c == '_') = true
    ↔ _
  rw [Bool.or_eq_true, Bool.or_eq_true, Bool.or_eq_true, Bool.or_eq_true,
    hupper, hlower, hdigit, beq_iff_eq, beq_iff_eq, or_assoc, or_assoc,
    or_assoc, or_left_comm]

/-- A name has no newline. -/
theorem IsClusterName.newline {name : String} (h : IsClusterName name) :
    '\n' ∉ name.toList := by
  intro hmem
  have hchar := (nameChar_iff '\n').mpr (h.2.2 '\n' hmem)
  exact absurd hchar (by decide)

/-- The test of the pattern on what it takes for the name. -/
theorem isClusterName_iff (name : String) :
    IsClusterName name ↔
      (decide (1 ≤ name.toList.length ∧ name.toList.length ≤ 63)
        && name.toList.all nameChar) = true := by
  rw [Bool.and_eq_true, decide_eq_true_eq, List.all_eq_true, and_assoc]
  refine and_congr_right (fun _ => and_congr_right (fun _ => ?_))
  exact forall₂_congr (fun c _ => (nameChar_iff c).symm)

/-- The pattern lets through the names, and each of them with one newline
    behind it. -/
theorem clusterNameMatches_iff (v : String) :
    clusterNameMatches v = true ↔
      IsClusterName v ∨ ∃ name, IsClusterName name ∧ v = name ++ "\n" := by
  by_cases hlast : v.toList.getLast? = some '\n'
  · -- the pattern ends before the newline
    have hsplit : v = String.ofList v.toList.dropLast ++ "\n" := by
      refine String.toList_inj.mp ?_
      rw [String.toList_append, String.toList_ofList]
      exact (List.dropLast_append_getLast? '\n' hlast).symm
    have hbody : clusterNameMatches v = true ↔
        IsClusterName (String.ofList v.toList.dropLast) := by
      rw [isClusterName_iff, String.toList_ofList, clusterNameMatches,
        if_pos hlast]
    rw [hbody]
    constructor
    · exact fun h => Or.inr ⟨_, h, hsplit⟩
    · rintro (h | ⟨name, hname, heq⟩)
      · exact absurd (List.mem_of_getLast? hlast) h.newline
      · have hlist : v.toList.dropLast = name.toList := by
          rw [heq, String.toList_append]
          exact List.dropLast_concat
        rwa [hlist, String.ofList_toList]
  · have hbody : clusterNameMatches v = true ↔ IsClusterName v := by
      rw [isClusterName_iff, clusterNameMatches, if_neg hlast]
    rw [hbody]
    refine ⟨Or.inl, ?_⟩
    rintro (h | ⟨name, -, heq⟩)
    · exact h
    · refine absurd ?_ hlast
      rw [heq, String.toList_append]
      exact List.getLast?_concat

/-! ## The script -/

/-- The text of some lines. -/
def unlines : List String → String
  | [] => ""
  | line :: lines => line ++ "\n" ++ unlines lines

/-- The lines of a text. -/
def lines (text : String) : List (List Char) := text.toList.splitOn '\n'

/-- The head of the script. -/
def scriptHead : List String :=
  ["#!/bin/sh",
    "# ClusterVision — bootstrap agent on a remote cluster",
    "# Run this script with a kubeconfig targeting the cluster you "
      ++ "want to add.",
    "set -e",
    ""]

/-- The assignments of the script. -/
def scriptAssignments (name baseUrl registerToken : String) : List String :=
  ["CLUSTER_NAME=\"" ++ name ++ "\"",
    "CLUSTERVISION_URL=\"" ++ baseUrl ++ "\"",
    "REGISTER_TOKEN=\"" ++ registerToken ++ "\""]

/-- The commands of the script. -/
def scriptCommands : List String :=
  ["NAMESPACE=\"clustervision\"",
    "SA_NAME=\"clustervision-agent\"",
    "",
    "echo \"→ Creating namespace $NAMESPACE...\"",
    "kubectl create namespace \"$NAMESPACE\" --dry-run=client -o "
      ++ "yaml | kubectl apply -f -",
    "",
    "echo \"→ Creating ServiceAccount, ClusterRole, "
      ++ "ClusterRoleBinding and token Secret...\"",
    "kubectl apply -f - <<MANIFEST",
    "apiVersion: v1",
    "kind: ServiceAccount",
    "metadata:",
    "  name: $SA_NAME",
    "  namespace: $NAMESPACE",
    "---",
    "apiVersion: rbac.authorization.k8s.io/v1",
    "kind: ClusterRole",
    "metadata:",
    "  name: clustervision-agent",
    "rules:",
    "- apiGroups: [\"certificates.k8s.io\"]",
    "  resources: [\"certificatesigningrequests\"]",
    "  verbs: [\"get\", \"list\", \"watch\", \"create\", " ++ "\"delete\"]",
    "- apiGroups: [\"certificates.k8s.io\"]",
    "  resources: [\"certificatesigningrequests/approval\"]",
    "  verbs: [\"update\", \"patch\"]",
    "- apiGroups: [\"certificates.k8s.io\"]",
    "  resources: [\"signers\"]",
    "  resourceNames: [\"kubernetes.io/kube-apiserver-client\"]",
    "  verbs: [\"approve\"]",
    "- apiGroups: [\"rbac.authorization.k8s.io\"]",
    "  resources: [\"clusterroles\", \"clusterrolebindings\", "
      ++ "\"roles\", \"rolebindings\"]",
    "  verbs: [\"get\", \"list\", \"watch\", \"create\", "
      ++ "\"update\", \"patch\", \"delete\"]",
    "- apiGroups: [\"\"]",
    "  resources: [\"serviceaccounts\"]",
    "  verbs: [\"get\", \"list\", \"watch\", \"create\", " ++ "\"delete\"]",
    "- apiGroups: [\"\"]",
    "  resources: [\"serviceaccounts/token\"]",
    "  verbs: [\"create\"]",
    "- apiGroups: [\"\"]",
    "  resources: [\"secrets\"]",
    "  verbs: [\"get\", \"list\", \"watch\", \"create\", " ++ "\"delete\"]",
    "- apiGroups: [\"\"]",
    "  resources: [\"configmaps\"]",
    "  verbs: [\"get\", \"list\", \"watch\", \"create\", "
      ++ "\"update\", \"patch\"]",
    "- apiGroups: [\"\"]",
    "  resources: [\"namespaces\"]",
    "  verbs: [\"get\", \"list\", \"watch\"]",
    "---",
    "apiVersion: rbac.authorization.k8s.io/v1",
    "kind: ClusterRoleBinding",
    "metadata:",
    "  name: clustervision-agent",
    "roleRef:",
    "  apiGroup: rbac.authorization.k8s.io",
    "  kind: ClusterRole",
    "  name: clustervision-agent",
    "subjects:",
    "- kind: ServiceAccount",
    "  name: $SA_NAME",
    "  namespace: $NAMESPACE",
    "---",
    "apiVersion: v1",
    "kind: Secret",
    "metadata:",
    "  name: clustervision-agent-token",
    "  namespace: $NAMESPACE",
    "  annotations:",
    "    kubernetes.io/service-account.name: $SA_NAME",
    "type: kubernetes.io/service-account-token",
    "MANIFEST",
    "",
    "echo \"→ Waiting for token to be populated...\"",
    "for i in $(seq 1 10); do",
    "  TOKEN_B64=$(kubectl get secret clustervision-agent-token -n "
      ++ "\"$NAMESPACE\" -o jsonpath='\x7b.data.token\x7d' 2>/dev/null "
      ++ "|| true)",
    "  [ -n \"$TOKEN_B64\" ] && break",
    "  sleep 2",
    "done",
    "",
    "if [ -z \"$TOKEN_B64\" ]; then",
    "  echo \"ERROR: Token not available after 20s. Check your "
      ++ "cluster.\" >&2",
    "  exit 1",
    "fi",
    "",
    "# The registration API expects the raw JWT but .data.token is "
      ++ "base64-encoded.",
    "# Decode through kubectl — the base64 CLI flags differ "
      ++ "between GNU and BSD.",
    "TOKEN=$(kubectl get secret clustervision-agent-token -n "
      ++ "\"$NAMESPACE\" -o go-template='\x7b\x7b.data.token | "
      ++ "base64decode\x7d\x7d')",
    "CA=$(kubectl get secret clustervision-agent-token -n "
      ++ "\"$NAMESPACE\" -o jsonpath='\x7b.data.ca\\.crt\x7d')",
    "API_URL=$(kubectl config view --minify -o "
      ++ "jsonpath='\x7b.clusters[0].cluster.server\x7d')",
    "",
    "echo \"→ Registering cluster '$CLUSTER_NAME' in "
      ++ "ClusterVision...\"",
    "curl -sfS -X POST "
      ++ "\"$CLUSTERVISION_URL/api/v1/cluster/register\"   -H "
      ++ "\"Content-Type: application/json\"   -H \"Authorization: "
      ++ "Bearer $REGISTER_TOKEN\"   -d "
      ++ "'\x7b\"name\":\"'\"$CLUSTER_NAME\"'\",\"api_url\":\"'\""
      ++ "$API_URL\"'\",\"ca_data\":\"'\"$CA\"'\",\"token\":\"'\""
      ++ "$TOKEN\"'\"\x7d'",
    "",
    "echo \"\"",
    "echo \"✓ Cluster '$CLUSTER_NAME' successfully registered in "
      ++ "ClusterVision.\""]

/-- The text that `bootstrap_script` formats. -/
def scriptText (name baseUrl registerToken : String) : String :=
  unlines (scriptHead ++ scriptAssignments name baseUrl registerToken
    ++ scriptCommands)

/-- What the route reads besides its arguments. -/
structure ScriptEnv (Token : Type) where
  jwt : Jwt Token
  tokenText : Token → String
  publicUrl : String
  requestBaseUrl : String

/-- The address under which the script calls back. -/
def baseUrl (publicUrl requestBaseUrl : String) : String :=
  if publicUrl ≠ "" then CvVault.rstripSlash publicUrl
  else CvVault.rstripSlash requestBaseUrl

variable {Token : Type}

/-- `bootstrap_script`. -/
def bootstrapScript (env : ScriptEnv Token) (current : UserInfo)
    (name : String) (now : Time) : Except Exn String :=
  (CvToken.bootstrapScript env.jwt current name now).map (fun token =>
    scriptText name (baseUrl env.publicUrl env.requestBaseUrl)
      (env.tokenText token))

/-- A line without a newline in it is the first line. -/
theorem lines_cons {line : String} (h : '\n' ∉ line.toList)
    (rest : List String) :
    lines (unlines (line :: rest)) = line.toList :: lines (unlines rest) := by
  have hchars : (unlines (line :: rest)).toList
      = line.toList ++ '\n' :: (unlines rest).toList := by
    rw [unlines, String.toList_append, String.toList_append, List.append_assoc]
    rfl
  rw [lines, hchars, List.splitOn_append_cons_self_of_not_mem h]
  rfl

/-- Lines without newlines in them stay what they are. -/
theorem lines_append {front : List String} (rest : List String) :
    (∀ line ∈ front, '\n' ∉ line.toList) →
      lines (unlines (front ++ rest))
        = front.map String.toList ++ lines (unlines rest) := by
  induction front with
  | nil => exact fun _ => rfl
  | cons line front ih =>
      intro h
      rw [List.cons_append, lines_cons (h line (List.mem_cons_self ..)),
        ih (fun l hl => h l (List.mem_cons_of_mem line hl)), List.map_cons,
        List.cons_append]

/-- The head of the script has no newline inside a line. -/
theorem scriptHead_newline : ∀ line ∈ scriptHead, '\n' ∉ line.toList := by
  simp [scriptHead]

/-- The assignment of `CLUSTER_NAME`. -/
def nameAssignment (name : String) : String :=
  "CLUSTER_NAME=\"" ++ name ++ "\""

/-- Behind the head comes the assignment, in one line for a name. -/
theorem script_assignment {name : String} (h : '\n' ∉ name.toList)
    (baseUrl registerToken : String) :
    (lines (scriptText name baseUrl registerToken))[scriptHead.length]?
      = some (nameAssignment name).toList := by
  have hline : '\n' ∉ ("CLUSTER_NAME=\"" ++ name ++ "\"").toList := by
    simp [h]
  rw [scriptText, List.append_assoc, lines_append _ scriptHead_newline,
    scriptAssignments, List.cons_append]
  rw [lines_cons hline]
  rw [List.getElem?_append_right (Nat.le_of_eq (List.length_map ..)),
    List.length_map, Nat.sub_self]
  rfl

/-! ## Which names are exact -/

/-- The answer to a name that does not pass. -/
def invalidName : Exn :=
  .httpException 422 ("Cluster name must be 1-63 alphanumeric characters, "
    ++ "hyphens or underscores.")

/-- The validator and `bootstrap_script` accept `s` exactly when it is a name,
    and the script assigns it in the line behind the head. -/
def Exact (env : ScriptEnv Token) (s : String) : Prop :=
  (validateName s = .ok s ↔ IsClusterName s)
  ∧ (∀ current now, requireAdmin current = .ok () →
      (bootstrapScript env current s now ≠ .error invalidName
        ↔ IsClusterName s))
  ∧ ∀ current now script, bootstrapScript env current s now = .ok script →
      (lines script)[scriptHead.length]? = some (nameAssignment s).toList

/-- `validateName` accepts what the pattern lets through. -/
theorem validateName_iff (s : String) :
    validateName s = .ok s ↔ clusterNameMatches s = true := by
  rw [validateName]
  by_cases h : clusterNameMatches s = true
  · rw [if_pos h]
    exact ⟨fun _ => h, fun _ => rfl⟩
  · rw [if_neg h]
    exact ⟨nofun, fun h' => absurd h' h⟩

/-- For an administrator, `bootstrap_script` accepts what the pattern lets
    through. -/
theorem bootstrapScript_accepts_iff (env : ScriptEnv Token)
    {current : UserInfo} (hadmin : requireAdmin current = .ok ())
    (s : String) (now : Time) :
    bootstrapScript env current s now ≠ .error invalidName ↔
      clusterNameMatches s = true := by
  have hroute : CvToken.bootstrapScript env.jwt current s now
      = if clusterNameMatches s = true then createRegisterToken env.jwt s now
        else .error invalidName := by
    rw [CvToken.bootstrapScript, hadmin]
    rfl
  rw [bootstrapScript, hroute]
  by_cases h : clusterNameMatches s = true
  · rw [if_pos h, createRegisterToken, createToken]
    refine ⟨fun _ => h, fun _ => ?_⟩
    -- the token may fail, but not with the answer to a bad name
    cases now.addMinutes registerTokenExpireMinutes with
    | none => exact fun hsame => by cases hsame
    | some t => exact fun hsame => by cases hsame
  · rw [if_neg h]
    exact ⟨fun hne => absurd rfl hne, fun h' => absurd h' h⟩

/-- A name is exact for the validator, the route and the script, exactly when
    it is no name with one newline behind it. -/
theorem exact_iff_no_final_newline (env : ScriptEnv Token) (s : String) :
    Exact env s ↔ ¬ ∃ name, IsClusterName name ∧ s = name ++ "\n" := by
  have hmatches := clusterNameMatches_iff s
  constructor
  · rintro ⟨hvalid, -, -⟩ hex
    obtain ⟨name, -, heq⟩ := id hex
    have hname : IsClusterName s :=
      hvalid.mp ((validateName_iff s).mpr (hmatches.mpr (Or.inr hex)))
    have hmem : '\n' ∈ s.toList := by
      rw [heq, String.toList_append]
      exact List.mem_append_right _ (List.mem_singleton.mpr rfl)
    exact hname.newline hmem
  · intro hno
    have hiff : clusterNameMatches s = true ↔ IsClusterName s :=
      hmatches.trans (or_iff_left hno)
    refine ⟨(validateName_iff s).trans hiff, ?_, ?_⟩
    · intro current now hadmin
      exact (bootstrapScript_accepts_iff env hadmin s now).trans hiff
    · intro current now script hscript
      rw [bootstrapScript] at hscript
      cases htoken : CvToken.bootstrapScript env.jwt current s now with
      | error e =>
          rw [htoken] at hscript
          exact nomatch hscript
      | ok token =>
          rw [htoken] at hscript
          have hname := (CvSession.bootstrapScript_ok htoken).2.1
          rw [← Except.ok.inj hscript]
          exact script_assignment (hiff.mp hname).newline _ _

/-- An environment whose tokens are the claims themselves. -/
def plainEnv : ScriptEnv Claims where
  jwt := ⟨fun claims => claims, some⟩
  tokenText := fun claims => claims.sub
  publicUrl := "https://clustervision"
  requestBaseUrl := ""

/-- The validator accepts a name with a newline behind it. -/
theorem final_newline_accepted : ¬ Exact plainEnv "prod\n" := by
  intro h
  have hname : IsClusterName "prod\n" :=
    h.1.mp ((validateName_iff _).mpr (by decide))
  exact hname.newline (by decide)

end CvBootstrapScript
