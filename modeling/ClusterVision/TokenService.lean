import ClusterVision.RbacService

/-! # TokenService

    The token Secrets of ServiceAccounts: revoking one and rotating one
    (`services/token_service.py`).  Both read the Secret first and refuse to
    touch one that the backend does not manage. -/

namespace CvToken

open CvProg CvTable CvKube CvBackend CvRbac

/-- The type of the token Secrets of ServiceAccounts. -/
def tokenType : String := "kubernetes.io/service-account-token"

/-- The annotation that names the ServiceAccount of a token Secret. -/
def serviceAccountName : String := "kubernetes.io/service-account.name"

/-- A ServiceAccount token that the backend manages. -/
def ManagedToken (s : Secret) : Prop :=
  s.type = tokenType ∧ s.labels.get? "managed-by" = some "clustervision"

instance (s : Secret) : Decidable (ManagedToken s) :=
  inferInstanceAs (Decidable (_ ∧ _))

/-- `f"{text}"`, for a text that may be `None`. -/
def orNone (text : Option String) : String :=
  text.getD "None"

/-- `_read_managed_token_secret`. -/
def readManagedTokenSecret (cluster secretName ns : String) : Svc Secret := do
  let secret : Secret ← tryCatch (kube cluster (.readSecret ns secretName))
    fun e =>
      if e = .api ⟨404⟩ then
        throw (.httpException 404 ("Secret '" ++ secretName
          ++ "' not found in namespace '" ++ ns ++ "'"))
      else throw e
  if ManagedToken secret then pure secret
  else throw (.httpException 403 ("Secret '" ++ secretName
    ++ "' is not a ClusterVision-managed SA token"))

/-- `revoke_sa_token`. -/
def revokeSaToken (cluster secretName ns : String) : Svc Unit := do
  let _ ← readManagedTokenSecret cluster secretName ns
  kube cluster (.deleteSecret ns secretName)

/-- The Secret that `rotate_sa_token` sends. -/
def rotatedSecret (secretName saName ns : String) : Secret where
  name := secretName
  ns := ns
  annotations := [(serviceAccountName, saName)]
  labels := managedBy
  type := tokenType

/-- `rotate_sa_token`. -/
def rotateSaToken (cluster secretName saName ns : String) : Svc Unit := do
  let existing ← readManagedTokenSecret cluster secretName ns
  let annotatedSa := existing.annotations.get? serviceAccountName
  if annotatedSa ≠ some saName then
    throw (.httpException 400 ("Secret '" ++ secretName
      ++ "' belongs to ServiceAccount '" ++ orNone annotatedSa ++ "', not '"
      ++ saName ++ "'"))
  unlessStatus 404 (pure ()) (kube cluster (.deleteSecret ns secretName))
  kube cluster (.createSecret (rotatedSecret secretName saName ns))

end CvToken
