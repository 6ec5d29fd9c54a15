import ClusterVision.TokenService
import ClusterVision.UserServices

/-! # KubeconfigService

    The token that a ServiceAccount's kubeconfig carries
    (`services/kubeconfig_service.py`): that of the Secret with the known
    name, or else of a Secret annotated with the account, or else one that is
    issued for the request. -/

namespace CvKubeconfig

open CvProg CvTable CvKube CvBackend CvToken CvUsers

/-- `base64.b64decode(token_bytes).decode()`. -/
def decode (bytes : ByteArray) : Except Exn String :=
  match String.fromUTF8? bytes with
  | some token => .ok token
  | none => .error .unicodeDecodeError

/-- `(secret.data or {}).get("token")`; an empty value counts as none. -/
def tokenBytes (s : Secret) : Option ByteArray :=
  (((s.data.getD []).find? (fun e => decide (e.1 = "token"))).map (·.2)).filter
    (fun bytes => decide (bytes.size ≠ 0))

/-- The token that a Secret holds, if it holds one. -/
def secretToken (s : Secret) : Except Exn (Option String) :=
  match tokenBytes s with
  | some bytes => (decode bytes).map some
  | none => .ok none

/-- The first part of `_get_sa_token`: the Secret with the known name. -/
def knownToken (cluster saName ns : String) : Svc (Option String) :=
  tryCatch
    (do
      let secret : Secret ← kube cluster
        (.readSecret ns (ServiceAccount.tokenSecretName saName))
      if secret.type = tokenType then Prog.ofExcept (secretToken secret)
      else pure none)
    fun e => if e = .api ⟨404⟩ then pure none else throw e

/-- The loop over the Secrets of the namespace. -/
def scanTokens (saName : String) : List Secret → Except Exn (Option String)
  | [] => .ok none
  | s :: ss =>
      if s.type ≠ tokenType then scanTokens saName ss
      else if s.annotations.get? serviceAccountName = some saName then
        match secretToken s with
        | .ok none => scanTokens saName ss
        | r => r
      else scanTokens saName ss

/-- The `V1TokenRequestSpec` of the fallback. -/
def tokenRequest : TokenRequestSpec where
  audiences := ["https://kubernetes.default.svc"]
  expirationSeconds := 86400 * 365

/-- The rest of `_get_sa_token`: the scan, and the TokenRequest. -/
def scanOrIssue (cluster saName ns : String) : Svc String := do
  let secrets : List Secret ← kube cluster (.listSecrets ns)
  match ← Prog.ofExcept (scanTokens saName secrets) with
  | some token => pure token
  | none => kube cluster (.createToken ns saName tokenRequest)

/-- `_get_sa_token`. -/
def getSaToken (cluster saName ns : String) : Svc String := do
  match ← knownToken cluster saName ns with
  | some token => pure token
  | none => scanOrIssue cluster saName ns

end CvKubeconfig
