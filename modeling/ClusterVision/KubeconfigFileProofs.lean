import ClusterVision.KubeconfigFile
import ClusterVision.KeyPairProofs
import ClusterVision.AccessSimulatorProofs

/-! # What a kubeconfig opens

    A kubeconfig is put together from the settings, the cluster, the registry
    and Vault.  For a certificate user whose key is in Vault it connects to the
    cluster as that user: the certificate in it is in the name of the user, and
    the key is the one that the certificate certifies, after any run of
    creations, imports and deletions. -/

namespace CvKubeFile

open CvProg CvRun CvTable CvKube CvBackend CvRegistry CvUsers CvBase64 CvKeys
open CvKeyPair
open CvUsers.Certificate (csrNameFor)
open CvSimulator (firstOf firstOf_spec)

variable {env : Endpoint} {cluster : String} {w : World}

/-! ## Documents -/

theorem decode_b64encode (bytes : List UInt8) :
    decode (b64encode bytes).toList = some bytes := by
  rw [b64encode, String.toList_ofList, decode_encode]

/-- The certificate authority of an endpoint. -/
def Endpoint.ca (env : Endpoint) : List UInt8 :=
  match env.rootCa with
  | .ok data =>
      octets ((data.bind (fun d => Dict.get? d "ca.crt")).getD "")
  | .error _ => env.mountedCa.getD []

theorem decode_clusterCa {ca : String} (h : getClusterCa env = .ok ca) :
    decode ca.toList = some env.ca := by
  rw [getClusterCa] at h
  rw [Endpoint.ca]
  cases hroot : env.rootCa with
  | error e =>
      rw [hroot] at h
      rw [← Except.ok.inj h, decode_b64encode]
  | ok data =>
      cases data with
      | none =>
          rw [hroot] at h
          cases h
      | some d =>
          rw [hroot] at h
          rw [← Except.ok.inj h, decode_b64encode]
          rfl

/-- A document connects to its one cluster as its one user. -/
theorem connection_document {clusterName server ca name ns : String}
    {auth : AuthInfo} {bytes : List UInt8} {credential : Credential}
    (hca : decode ca.toList = some bytes)
    (hauth : auth.credential = some credential) :
    (document clusterName server ca name ns auth).connection
      = some ⟨server, bytes, credential, if ns = "" then "default" else ns⟩ := by
  by_cases hns : ns = ""
  · simp [Kubeconfig.connection, document, hca, hauth, hns]
  · simp [Kubeconfig.connection, document, hca, hauth, hns]

theorem credential_certificate (cert key : List UInt8) :
    (AuthInfo.certificate (b64encode cert) (b64encode key)).credential
      = some (.certificate cert key) := by
  simp [AuthInfo.credential, decode_b64encode]

/-! ## Certificate users -/

/-- The certificate that is served for a user is one of its signing request. -/
theorem run_getCertificate {username : String} {certificate : Certificate}
    (h : ((getCertificate cluster username).run handle w).1
      = .ok (.ok certificate)) :
    ∃ u ∈ w.db.managedUsers.rows, u.name = username ∧
      u.type = .certificate ∧ ∃ csrName, u.csrName = some csrName ∧
        ∃ r, (w.clusters cluster).csrs.get csrName = some r ∧
          (r.served (w.clusters cluster).signer w.tick).certificate
            = some certificate := by
  rw [getCertificate, Prog.run_bind, CvSimulator.run_getCertificate] at h
  cases hfirst : firstOf w.db.managedUsers .certificate username with
  | none =>
      rw [hfirst] at h
      cases h
  | some u =>
      obtain ⟨hu, hname, htype⟩ := firstOf_spec hfirst
      simp only [hfirst, Prog.andThen_ok] at h
      cases hcsr : (toDict u).csrName with
      | none =>
          rw [hcsr] at h
          cases h
      | some csrName =>
          have hrow : u.csrName = some csrName := by
            rw [toDict] at hcsr
            split at hcsr
            · exact hcsr
            · cases hcsr
          rw [hcsr] at h
          change (Prog.run handle (if _ ∨ _ then _ else _) w).1 = _ at h
          split at h
          · cases h
          · refine ⟨u, hu, hname, htype, csrName, hrow, ?_⟩
            rw [Prog.run_bind, run_kube] at h
            cases hread : handle (.kube cluster (.readCsr csrName)) w with
            | mk a w' =>
                rw [hread] at h
                cases a with
                | error e => cases h
                | ok r =>
                    obtain ⟨r₀, hget, rfl⟩ := readCsr_ok hread
                    refine ⟨r₀, hget, ?_⟩
                    rw [Prog.andThen_ok] at h
                    cases hc : (r₀.served (w.clusters cluster).signer
                        w.tick).certificate with
                    | none =>
                        rw [hc] at h
                        cases h
                    | some c =>
                        rw [hc] at h
                        change Except.ok (Except.ok c) = _ at h
                        rw [Except.ok.inj (Except.ok.inj h)]

/-- A certificate is one of the request of its user. -/
theorem certificate_of_paired (hw : Paired cluster w) {username : String}
    {certificate : Certificate}
    (h : ((getCertificate cluster username).run handle w).1
      = .ok (.ok certificate)) :
    certificate.commonName = username ∧
      ∃ k c, secret w username = some (k, c) ∧
        k.publicKey = certificate.publicKey := by
  obtain ⟨u, hu, rfl, htype, csrName, hcsr, r, hget, hserved⟩ :=
    run_getCertificate h
  have hrequest : HasRequest u :=
    ⟨htype, by rw [hcsr]; exact Option.some_ne_none _⟩
  obtain rfl : csrName = csrNameFor u.name :=
    Option.some.inj (hcsr.symm.trans (hw.csrNames u hu hrequest))
  have hsigned : (if r.approved = true then
      (w.clusters cluster).signer w.tick r else none) = some certificate :=
    hserved
  by_cases happroved : r.approved = true
  · rw [if_pos happroved] at hsigned
    obtain ⟨hkey, hname⟩ := hw.signer _ _ _ hsigned
    obtain ⟨k, c, honly, hsecret⟩ := hw.keys u hu hrequest
    refine ⟨hname.trans (hw.ownNames u.name r hget), k, c, hsecret, ?_⟩
    rw [hkey, honly r hget]
  · rw [if_neg happroved] at hsigned
    cases hsigned

variable {keyPem : PrivateKey → String} {certificatePem : Certificate → String}
  {vaultFault : Option String} {payload : KubeconfigRequest}
  {file : Kubeconfig}

theorem storedKeyPem_cases {username key : String}
    (h : storedKeyPem keyPem vaultFault w username = .ok key)
    (hne : key ≠ "") :
    ∃ k c, secret w username = some (k, c) ∧ key = keyPem k := by
  cases hvault : w.vault with
  | none =>
      simp only [storedKeyPem, hvault] at h
      exact absurd (Except.ok.inj h).symm hne
  | some v =>
      cases vaultFault with
      | some e =>
          simp only [storedKeyPem, hvault] at h
          cases h
      | none =>
          cases hread : v.read username with
          | none =>
              simp only [storedKeyPem, hvault, hread] at h
              exact absurd (Except.ok.inj h).symm hne
          | some s =>
              simp only [storedKeyPem, hvault, hread] at h
              refine ⟨s.1, s.2, ?_, (Except.ok.inj h).symm⟩
              rw [secret, hvault]
              exact hread

/-- The private key is the one that is sent, or the one in Vault. -/
theorem privateKeyPem_cases {key : String}
    (h : privateKeyPem keyPem vaultFault w payload = .ok key) :
    (payload.privateKeyPem.getD "" ≠ "" ∧
      key = payload.privateKeyPem.getD "") ∨
    (payload.privateKeyPem.getD "" = "" ∧
      ∃ k c, secret w payload.username = some (k, c) ∧ key = keyPem k) := by
  rw [privateKeyPem] at h
  by_cases hsent : payload.privateKeyPem.getD "" = ""
  · rw [if_neg (not_not.mpr hsent)] at h
    refine Or.inr ⟨hsent, ?_⟩
    cases hstored : storedKeyPem keyPem vaultFault w payload.username with
    | error e =>
        rw [hstored] at h
        cases h
    | ok stored =>
        rw [hstored] at h
        change (if stored = "" then _ else _) = _ at h
        by_cases hempty : stored = ""
        · rw [if_pos hempty] at h
          cases h
        · rw [if_neg hempty] at h
          rw [← Except.ok.inj h]
          exact storedKeyPem_cases hstored hempty
  · rw [if_pos hsent] at h
    exact Or.inl ⟨hsent, (Except.ok.inj h).symm⟩

/-- A kubeconfig for a certificate user has a key and the certificate. -/
theorem generateCertificate_ok
    (h : (generateCertificate keyPem certificatePem vaultFault env cluster
      payload w).1 = .ok file) :
    ∃ key certificate, privateKeyPem keyPem vaultFault w payload = .ok key ∧
      ((getCertificate cluster payload.username).run handle w).1
        = .ok (.ok certificate) ∧
      generateForCertUser env payload.username (certificatePem certificate) key
        payload.ns = .ok file := by
  rw [generateCertificate] at h
  cases hkey : privateKeyPem keyPem vaultFault w payload with
  | error e =>
      rw [hkey] at h
      cases h
  | ok key =>
      rw [hkey] at h
      cases hrun : (getCertificate cluster payload.username).run handle w with
      | mk a w' =>
          simp only [hrun] at h
          cases a with
          | error e => cases h
          | ok a =>
              cases a with
              | error e => cases h
              | ok certificate =>
                  refine ⟨key, certificate, rfl, rfl, ?_⟩
                  change (generateForCertUser env payload.username
                    (certificatePem certificate) key payload.ns).mapError
                      Failure.service = _ at h
                  cases hfile : generateForCertUser env payload.username
                      (certificatePem certificate) key payload.ns with
                  | error e =>
                      rw [hfile] at h
                      cases h
                  | ok file' =>
                      rw [hfile] at h
                      rw [Except.ok.inj h]

/-- It connects to the endpoint with them. -/
theorem connection_of_certUser {username certPem key ns : String}
    (h : generateForCertUser env username certPem key ns = .ok file) :
    file.connection = some ⟨getApiServerUrl env, env.ca,
      .certificate (octets certPem) (octets key),
      if ns = "" then "default" else ns⟩ := by
  rw [generateForCertUser] at h
  cases hca : getClusterCa env with
  | error e =>
      rw [hca] at h
      cases h
  | ok ca =>
      rw [hca] at h
      obtain rfl := Except.ok.inj h
      exact connection_document (decode_clusterCa hca)
        (credential_certificate _ _)

/-- **A kubeconfig opens the cluster as its user**: after any run of creations,
    imports and deletions on a cluster with Vault, a kubeconfig that is
    generated for a certificate user without a key of its own connects to the
    cluster with a certificate in the name of the user and the private key that
    the certificate certifies. -/
theorem kubeconfig_opens (hvault : w.vault.isSome = true)
    (hsigner : Certifies (w.clusters cluster))
    (hcsrs : ∀ username,
      (w.clusters cluster).csrs.get (csrNameFor username) = none)
    (husers : w.db.managedUsers = Table.empty)
    (steps : List (PairStep cluster)) (htype : payload.userType = .certificate)
    (hno : payload.privateKeyPem.getD "" = "")
    (h : (generateKubeconfig keyPem certificatePem vaultFault env cluster
      payload (after pairStep steps w)).1 = .ok file) :
    ∃ certificate key, file.connection = some ⟨getApiServerUrl env, env.ca,
        .certificate (octets (certificatePem certificate))
          (octets (keyPem key)),
        if payload.ns = "" then "default" else payload.ns⟩ ∧
      certificate.commonName = payload.username ∧
      key.publicKey = certificate.publicKey := by
  have hpaired : Paired cluster (after pairStep steps w) :=
    paired_after (paired_empty hvault hsigner hcsrs husers) steps
  rw [generateKubeconfig, htype] at h
  obtain ⟨keyText, certificate, hkey, hcertificate, hfile⟩ :=
    generateCertificate_ok h
  obtain ⟨hname, k, c, hsecret, hmatch⟩ :=
    certificate_of_paired hpaired hcertificate
  rcases privateKeyPem_cases hkey with ⟨hsent, -⟩ | ⟨-, k', c', hsecret', rfl⟩
  · exact absurd hno hsent
  · obtain ⟨rfl, -⟩ := Prod.mk.inj
      (Option.some.inj (hsecret'.symm.trans hsecret))
    exact ⟨certificate, k', connection_of_certUser hfile, hname, hmatch⟩

/-- An installation with Vault, whose signer issues at once. -/
def vaultWorld : World := promptWorld (some ⟨"secret", "users", []⟩)

/-- Its endpoint. -/
def vaultEndpoint : Endpoint where
  clusterName := "main"
  clusterApiUrl := "https://k8s.corp:6443"
  host := some "https://10.0.0.1:443/"
  isLocal := true
  rootCa := .ok (some [("ca.crt", "CA")])
  mountedCa := none

/-- Texts of keys and certificates, for reading. -/
def keyText (k : PrivateKey) : String := "private key " ++ k.publicKey.repr

@[inherit_doc keyText]
def certificateText (c : Certificate) : String :=
  "certificate of " ++ c.commonName

/-- Ada's request. -/
def adasPayload : KubeconfigRequest :=
  ⟨"ada", .certificate, "apps", none, none⟩

/-- Ada's kubeconfig. -/
def adasKubeconfig : Kubeconfig :=
  document "main" "https://k8s.corp:6443" (b64encode (octets "CA")) "ada"
    "apps" (.certificate (b64encode (octets "certificate of ada"))
      (b64encode (octets "private key 0")))

/-- Ada is created and asks for her kubeconfig. -/
theorem kubeconfig_opens_ada :
    ∃ (certificate : Certificate) (key : PrivateKey), adasKubeconfig.connection
        = some ⟨getApiServerUrl vaultEndpoint, vaultEndpoint.ca,
          .certificate (octets (certificateText certificate))
            (octets (keyText key)), "apps"⟩ ∧
      certificate.commonName = "ada" ∧
      key.publicKey = certificate.publicKey :=
  @kubeconfig_opens vaultEndpoint "local" vaultWorld keyText certificateText
    none adasPayload adasKubeconfig rfl
    (fun n r cert h => by rw [← Option.some.inj h]; exact ⟨rfl, rfl⟩)
    (fun _ => rfl) rfl
    [.call (.createCertificate "local" "ada" [])
      (fun _ _ _ h => by cases h; rfl)] rfl rfl rfl

end CvKubeFile
