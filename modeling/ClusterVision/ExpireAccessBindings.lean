import ClusterVision.AccessRequestService

/-! # The cleanup job

    The programs of `jobs/expire_access_bindings.py`: one pass over the JIT
    bindings of each cluster, and then the central registry of requests. -/

namespace CvExpire

open CvProg CvPage CvTable CvIso CvKube CvBackend CvRbac CvAccess

/-- `aware <= now`; comparing a naive `datetime` is a `TypeError`. -/
def lessEqual (d : Datetime) (now : Time) : Except Exn Bool :=
  match d.utcoffset with
  | none => .error .typeError
  | some offset => .ok (decide ((d.fields.instant : Int) - offset
      ≤ (now.instant : Int)))

/-- `_is_expired`. -/
def isExpired (annotations : Option Dict) (now : Time) : Except Exn Bool :=
  match (annotations.getD []).get? expiresAnnotation with
  | none => .ok false
  | some expiry =>
      if expiry = "" then .ok false
      else match fromisoformat expiry.toList with
        | none => .ok false
        | some d => lessEqual d now

/-- `label_selector=f"{JIT_LABEL}=true"`. -/
def jitSelector : Option (String × String) := some (jitLabel, "true")

/-- The body of both loops of `_reconcile`: delete the binding when it has
    expired, and count it.  `ns` is `none` where the loop deletes a
    ClusterRoleBinding. -/
def expireBinding (cluster : String) (now : Time) (ns : Option String)
    (revoked : Nat) (b : Binding) : Svc Nat := do
  let expired ← Prog.ofExcept (isExpired b.annotations now)
  if expired = false then pure revoked
  else
    tryCatch
      (do
        kube cluster (.deleteBinding ns b.name)
        pure (revoked + 1))
      fun e => if e = .api ⟨404⟩ then pure revoked else throw e

/-- `_reconcile`. -/
def reconcile (cluster : String) : Svc Nat := do
  let t ← now
  let crbs : Page Binding ←
    kube cluster (.listBindings .cluster jitSelector none none)
  let revoked ← crbs.items.foldlM
    (fun revoked crb => expireBinding cluster t none revoked crb) 0
  let rbs : Page Binding ←
    kube cluster (.listBindings .allNamespaces jitSelector none none)
  rbs.items.foldlM (fun revoked rb => expireBinding cluster t rb.ns revoked rb)
    revoked

/-- The pass over a registered cluster. -/
def remotePass (c : RegisteredCluster) : Svc Nat := do
  let client ← registeredApiClient c.name
  reconcile client

/-- One round of the loop over the registered clusters: an exception is logged
    and adds nothing. -/
def addRemotePass (total : Nat) (c : RegisteredCluster) : Svc Nat :=
  tryCatch
    (do
      let revoked ← remotePass c
      pure (total + revoked))
    fun _ => pure total

/-- `main`. -/
def main : Svc Unit := do
  let total ← reconcile localCluster
  let clusters : List RegisteredCluster ← db .selectRegisteredClusters
  let total ← clusters.foldlM addRemotePass total
  if total ≠ 0 then inSession markExpired
  else pure ()

end CvExpire
