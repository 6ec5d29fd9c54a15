import ClusterVision.UserServicesProofs
import ClusterVision.PoolProofs

/-! # Private keys and certificates

    Concurrent calls of `CertificateService.create_user` for one name share a
    signing request: they all call it by the name of the user, and a call that
    finds it taken deletes it and submits its own.  A call can so approve, and
    receive the certificate of, a request with another call's key.

    The main result says when this cannot happen.  A call relies on the
    request that it submitted until it has read its certificate, and with
    Vault enabled for as long as its secret is to go with it.  In a run where
    no deletion takes a request from a call that relies on it, at most one
    call relies on the request, and all keys match. -/

namespace CvKeys

open CvProg CvPool CvTable CvIso CvKube CvBackend CvRegistry CvUsers
open CvUsers.Certificate (Credentials csrNameFor signingRequest)

/-! ## Runs -/

section Runs

variable {ι : Type} [DecidableEq ι] (cluster username : String)

/-- Calls of `create_user` for one name, at their start. -/
def creating (groups : ι → List String) (w : World) :
    Pool backend Exn Credentials World ι :=
  ⟨fun t => Certificate.createUser cluster username (groups t), w⟩

/-- A call is answered by the world, or fails and has no effect. -/
def answered (_ : ι) (op : Op) (w : World) (r : Except Exn op.Res)
    (w' : World) : Prop :=
  handle op w = (r, w') ∨ (∃ e, r = .error e) ∧ w' = w

/-- The submission of a signing request. -/
def submits : Event backend Exn → Bool
  | ⟨.kube _ (.createCsr _), .ok _⟩ => true
  | _ => false

/-- The deletion of a signing request. -/
def deletes : Event backend Exn → Bool
  | ⟨.kube _ (.deleteCsr _), .ok _⟩ => true
  | _ => false

/-- A read of a signing request that has its certificate. -/
def certifies : Event backend Exn → Bool
  | ⟨.kube _ (.readCsr _), .ok r⟩ => r.certificate.isSome
  | _ => false

/-- Has the call made a step of this kind? -/
def Did (kind : Event backend Exn → Bool)
    (tr : List (Entry backend Exn World ι)) (t : ι) : Prop :=
  ∃ e ∈ tr, e.thread = t ∧ kind e.event = true

/-- The call has not failed. -/
def Alive (p : Pool backend Exn Credentials World ι) (t : ι) : Prop :=
  ∀ e, p.threads t ≠ .raise e

/-- The call relies on the signing request that it submitted: it has not failed
    and still waits for the certificate, or there is a Vault, whose secret is
    to go with the request. -/
def Relies (tr : List (Entry backend Exn World ι))
    (p : Pool backend Exn Credentials World ι) (t : ι) : Prop :=
  Did submits tr t ∧ Alive p t ∧
    (p.shared.vault.isSome = true ∨ ¬ Did certifies tr t)

/-- No deletion takes the signing request from another call that relies on
    it. -/
def SparesOthers (tr : List (Entry backend Exn World ι))
    (p : Pool backend Exn Credentials World ι)
    (e : Entry backend Exn World ι) : Prop :=
  deletes e.event = true → ∀ u, u ≠ e.thread → ¬ Relies tr p u

/-- The key that belongs to what a call has returned: returned with the
    certificate, or left in Vault. -/
def Matches (c : Credentials) (w : World) : Prop :=
  (∃ k, c.privateKey = some k ∧ k.publicKey = c.certificate.publicKey) ∨
    ∃ v k cert, w.vault = some v ∧ v.read username = some (k, cert) ∧
      k.publicKey = c.certificate.publicKey

/-- The certificate user is in the registry. -/
def Registered (w : World) : Prop :=
  ∃ u ∈ w.db.managedUsers.rows, u.name = username ∧ u.type = .certificate

/-- When the user is registered, and there is a Vault, it holds the key of each
    certificate that the user's signing request has, or ever will have. -/
def VaultMatches (w : World) : Prop :=
  Registered username w → ∀ v r n cert, w.vault = some v →
    (w.clusters cluster).csrs.get (csrNameFor username) = some r →
    (r.served (w.clusters cluster).signer n).certificate = some cert →
      ∃ k c, v.read username = some (k, c) ∧ k.publicKey = cert.publicKey

/-- The signer certifies the key of the request. -/
def CertifiesKey (c : Cluster) : Prop :=
  ∀ n r cert, c.signer n r = some cert →
    cert.publicKey = r.request.publicKey

end Runs

/-! ## The protocol of a call -/

/-- How far a call has come: its key, its certificate, and whether the key is
    in Vault. -/
inductive Stage where
  | start
  | free
  | keyed (k : PrivateKey)
  | submitted (k : PrivateKey)
  | approved (k : PrivateKey)
  | certified (k : PrivateKey) (c : Certificate)
  | storing (k : PrivateKey) (c : Certificate)
  | keeping (k : PrivateKey) (c : Certificate) (inVault : Bool)
  | registered (k : PrivateKey) (c : Certificate) (inVault : Bool)
  | failed

/-- The calls that it may make. -/
inductive Allowed (cluster username : String) : Stage → Op → Prop where
  | load : Allowed cluster username .start (.db .selectManagedUsers)
  | generate : Allowed cluster username .free .generatePrivateKey
  | create {k : PrivateKey} (gs : List String) :
      Allowed cluster username (.keyed k)
        (.kube cluster (.createCsr (signingRequest k username gs)))
  | replace {k : PrivateKey} : Allowed cluster username (.keyed k)
      (.kube cluster (.deleteCsr (csrNameFor username)))
  | read {k : PrivateKey} : Allowed cluster username (.submitted k)
      (.kube cluster (.readCsr (csrNameFor username)))
  | approve {k : PrivateKey} (r : Csr) :
      Allowed cluster username (.submitted k) (.kube cluster (.approveCsr r))
  | wait {k : PrivateKey} : Allowed cluster username (.approved k) .now
  | poll {k : PrivateKey} : Allowed cluster username (.approved k)
      (.kube cluster (.readCsr (csrNameFor username)))
  | date {k : PrivateKey} {c : Certificate} :
      Allowed cluster username (.certified k c) .now
  | service {k : PrivateKey} {c : Certificate} :
      Allowed cluster username (.certified k c) .getVaultService
  | write {k : PrivateKey} {c : Certificate} :
      Allowed cluster username (.storing k c) (.writeSecret username k c)
  | takeBack {k : PrivateKey} {c : Certificate} :
      Allowed cluster username (.storing k c)
        (.kube cluster (.deleteCsr (csrNameFor username)))
  | time {k : PrivateKey} {c : Certificate} {inVault : Bool} :
      Allowed cluster username (.keeping k c inVault) .now
  | register {k : PrivateKey} {c : Certificate} {inVault : Bool} (op : DbOp) :
      Allowed cluster username (.keeping k c inVault) (.db op)

/-- The stage after the registry has been read. -/
def afterLoad (username : String) (rows : List ManagedUser) : Stage :=
  if rows.any (fun u => decide (u.name = username)) = true then .failed
  else .free

/-- The stage after a signing request has been read. -/
def afterPoll (k : PrivateKey) (r : Csr) : Stage :=
  match r.certificate with
  | some c => .certified k c
  | none => .approved k

/-- The stage after an answered call. -/
def nextStage (username : String) :
    Stage → (op : Op) → Except Exn op.Res → Stage
  | .start, .db .selectManagedUsers, .ok rows => afterLoad username rows
  | .free, .generatePrivateKey, .ok k => .keyed k
  | .keyed k, .kube _ (.createCsr _), .ok _ => .submitted k
  | .submitted k, .kube _ (.approveCsr _), .ok _ => .approved k
  | .approved k, .kube _ (.readCsr _), .ok r => afterPoll k r
  | .certified k c, .getVaultService, .ok enabled =>
      if enabled = true then .storing k c else .keeping k c false
  | .storing k c, .writeSecret _ _ _, .ok _ => .keeping k c true
  | .storing _ _, .kube _ (.deleteCsr _), _ => .failed
  | .keeping k c inVault, .db (.commit _), .ok _ => .registered k c inVault
  | l, _, _ => l

variable {cluster username : String} {k : PrivateKey} {c : Certificate}
  {inVault : Bool}

/-- The protocol of `create_user`. -/
def protocol (cluster username : String) : Protocol backend Exn Stage where
  allowed := Allowed cluster username
  next := nextStage username

/-- Has the call registered its user? -/
def Stage.isRegistered : Stage → Bool
  | .registered _ _ _ => true
  | _ => false

/-- A call that returns has registered its user and returns what it got, and
    one that raises has not. -/
def Ended (l : Stage) : Except Exn Credentials → Prop
  | .ok creds => ∃ k c inVault, l = .registered k c inVault ∧
      creds.certificate = c ∧ (creds.privateKey = some k ∨ inVault = true)
  | .error _ => l.isRegistered = false

/-- A part of the call ends in a stage that its result belongs to. -/
def Reaches {α : Type} (ok : α → Stage → Prop) (l : Stage) :
    Except Exn α → Prop
  | .ok a => ok a l
  | .error _ => l.isRegistered = false

/-- Two parts in a row, where the condition asks no more of a failure than that
    nothing is registered. -/
theorem reaches_bind {α β : Type} {p : Svc α} {f : α → Svc β} {l : Stage}
    {ok : α → Stage → Prop} {Q : Stage → Except Exn β → Prop}
    (hp : Follows (protocol cluster username) p l (Reaches ok))
    (herror : ∀ l e, l.isRegistered = false → Q l (.error e))
    (hf : ∀ a l, ok a l → Follows (protocol cluster username) (f a) l Q) :
    Follows (protocol cluster username) (p >>= f) l Q := by
  refine follows_bind (Follows.imp ?_ hp)
  intro l r hl
  cases r with
  | error e => exact herror l e hl
  | ok a => exact hf a l hl

theorem submit_follows (gs : List String) :
    Follows (protocol cluster username)
      (Certificate.submit cluster (signingRequest k username gs)) (.keyed k)
      (Reaches fun _ l => l = .submitted k) := by
  refine follows_catching (follows_perform (.create gs) ?_)
  intro r
  cases r with
  | ok u => exact rfl
  | error e =>
      refine follows_ite (fun _ => ?_) (fun _ => follows_throw rfl)
      refine follows_bind (follows_perform .replace ?_)
      intro r
      cases r with
      | error e => exact rfl
      | ok u =>
          refine follows_perform (.create gs) ?_
          intro r
          cases r with
          | ok u => exact rfl
          | error e => exact rfl

theorem approve_follows :
    Follows (protocol cluster username)
      (Certificate.approve cluster (csrNameFor username)) (.submitted k)
      (Reaches fun _ l => l = .approved k) := by
  refine follows_bind (follows_perform .read ?_)
  intro r
  cases r with
  | error e => exact rfl
  | ok existing =>
      refine follows_perform (.approve existing) ?_
      intro r
      cases r with
      | ok u => exact rfl
      | error e => exact rfl

/-- Each round reads the clock and then the signing request. -/
theorem pollCertificate_follows (deadline : Nat) : ∀ rounds : Nat,
    Follows (protocol cluster username)
      (Certificate.pollCertificate cluster (csrNameFor username) deadline
        rounds) (.approved k) (Reaches fun c l => l = .certified k c) := by
  intro rounds
  induction rounds with
  | zero => exact follows_throw rfl
  | succ rounds ih =>
      refine follows_bind (follows_perform .wait ?_)
      intro r
      cases r with
      | error e => exact rfl
      | ok t =>
          refine follows_ite (fun _ => ?_) (fun _ => follows_throw rfl)
          refine follows_bind (follows_perform .poll ?_)
          intro r
          cases r with
          | error e => exact rfl
          | ok csr =>
              show Follows _ (match csr.certificate with
                | some certificate => pure certificate
                | none => _) (afterPoll k csr) _
              rw [afterPoll]
              cases csr.certificate with
              | some c => exact follows_pure rfl
              | none => exact ih

theorem waitForCertificate_follows :
    Follows (protocol cluster username)
      (Certificate.waitForCertificate cluster (csrNameFor username))
      (.approved k) (Reaches fun c l => l = .certified k c) := by
  refine follows_bind (follows_perform .wait ?_)
  intro r
  cases r with
  | error e => exact rfl
  | ok t => exact pollCertificate_follows _ _

theorem nowText_follows :
    Follows (protocol cluster username) nowText (.certified k c)
      (Reaches fun _ l => l = .certified k c) := by
  refine follows_bind (follows_perform .date ?_)
  intro r
  cases r with
  | error e => exact rfl
  | ok t => exact rfl

/-- `storeKey` says where the key is; the clause that takes the signing request
    back raises whatever happens. -/
theorem storeKey_follows :
    Follows (protocol cluster username)
      (Certificate.storeKey cluster username k c) (.certified k c)
      (Reaches fun path l => ∃ inVault, l = .keeping k c inVault ∧
        (truthy path = true → inVault = true)) := by
  refine follows_bind (follows_perform .service ?_)
  intro r
  cases r with
  | error e => exact rfl
  | ok enabled =>
      cases enabled with
      | false => exact ⟨false, rfl, fun h => h⟩
      | true =>
          refine follows_catching (follows_bind (follows_perform .write ?_))
          intro r
          cases r with
          | ok path => exact ⟨true, rfl, fun _ => rfl⟩
          | error e =>
              refine follows_bind (follows_catching
                (follows_perform .takeBack ?_))
              intro r
              cases r with
              | ok u => exact rfl
              | error e' =>
                  cases e' with
                  | api _ => exact rfl
                  | _ => exact rfl

/-- A reading of the clock or of the database. -/
def Reads (op : Op) : Prop := op = .now ∨ (∃ o, op = .db o) ∧ NoCommit op

/-- What only reads leaves the stage as it is. -/
theorem reads_follow {α : Type} {p : Svc α} (hp : p.Uses Reads) :
    Follows (protocol cluster username) p (.keeping k c inVault)
      (Reaches fun _ l => l = .keeping k c inVault) := by
  refine follows_of_uses (hp.imp ?_) ?_
  · rintro op (rfl | ⟨⟨o, rfl⟩, hno⟩)
    · exact ⟨.time, fun _ => rfl⟩
    · refine ⟨.register o, fun r => ?_⟩
      cases o with
      | commit writes => exact absurd rfl (hno writes)
      | _ => rfl
  · intro r
    cases r with
    | ok a => exact rfl
    | error e => exact rfl

/-- The update of the registry reads until it commits. -/
theorem updateRegistry_follows
    (mutate : List RegistryEntry → Except Exn (List RegistryEntry)) :
    Follows (protocol cluster username) (updateRegistry mutate)
      (.keeping k c inVault)
      (Reaches fun _ l => l = .registered k c inVault) := by
  have hload : loadRegistry.Uses Reads :=
    Prog.uses_bind (Prog.uses_perform (Or.inr ⟨⟨_, rfl⟩, nofun⟩))
      (fun _ => trivial)
  refine reaches_bind (reads_follow hload) (fun _ _ h => h) ?_
  rintro loaded l rfl
  refine reaches_bind (reads_follow (Prog.uses_ofExcept _))
    (fun _ _ h => h) ?_
  rintro afterList l rfl
  refine reaches_bind (reads_follow (Prog.uses_foldlM
    (fun writes u _ => writeEntry_uses (Or.inl rfl)
      (fun _ _ => Or.inr ⟨⟨_, rfl⟩, nofun⟩) _ writes u) _))
    (fun _ _ h => h) ?_
  rintro writes l rfl
  refine follows_bind (follows_perform (.register _) ?_)
  intro r
  cases r with
  | ok u => exact rfl
  | error e => exact rfl

/-- `create_user` follows the protocol. -/
theorem createUser_follows (gs : List String) :
    Follows (protocol cluster username)
      (Certificate.createUser cluster username gs) .start Ended := by
  refine follows_bind (follows_bind (follows_perform .load ?_))
  intro r
  cases r with
  | error e => exact rfl
  | ok rows =>
      show Follows _ (if (rows.map toDict).any _ = true then _ else _)
        (afterLoad username rows) _
      rw [afterLoad, List.any_map]
      by_cases hany : rows.any (fun u => decide (u.name = username)) = true
      · rw [if_pos hany]
        refine follows_ite (fun _ => rfl) (fun hno => absurd hany hno)
      · rw [if_neg hany]
        refine follows_ite (fun hyes => absurd hyes hany) (fun _ => ?_)
        refine follows_bind (follows_perform .generate ?_)
        intro r
        cases r with
        | error e => exact rfl
        | ok key =>
            refine reaches_bind (submit_follows gs) (fun _ _ h => h) ?_
            rintro - l rfl
            refine reaches_bind approve_follows (fun _ _ h => h) ?_
            rintro - l rfl
            refine reaches_bind waitForCertificate_follows (fun _ _ h => h) ?_
            rintro certificate l rfl
            refine reaches_bind nowText_follows (fun _ _ h => h) ?_
            rintro now l rfl
            refine reaches_bind storeKey_follows (fun _ _ h => h) ?_
            rintro path l ⟨inVault, rfl, hpath⟩
            refine reaches_bind (updateRegistry_follows _) (fun _ _ h => h) ?_
            rintro - l rfl
            refine follows_ite (fun h => ?_) (fun _ => ?_)
            · exact ⟨key, certificate, inVault, rfl, rfl, Or.inr (hpath h)⟩
            · exact ⟨key, certificate, inVault, rfl, rfl, Or.inl rfl⟩

/-! ## What a call relies on -/

/-- The stored signing request is one with the key `k`. -/
def Asks (cluster username : String) (w : World) (k : PrivateKey) : Prop :=
  ∃ r, (w.clusters cluster).csrs.get (csrNameFor username) = some r ∧
    r.request.publicKey = k.publicKey

/-- It has not been approved. -/
def Unapproved (cluster username : String) (w : World) : Prop :=
  ∀ r, (w.clusters cluster).csrs.get (csrNameFor username) = some r →
    r.approved = false

/-- Vault holds this key and this certificate. -/
def Stored (username : String) (w : World) (k : PrivateKey)
    (c : Certificate) : Prop :=
  ∀ v, w.vault = some v → v.read username = some (k, c)

/-- Does a call in this stage rely on the signing request? -/
def Stage.relies (vault : Bool) : Stage → Bool
  | .submitted _ | .approved _ => true
  | .certified _ _ | .storing _ _ | .keeping _ _ _ | .registered _ _ _ => vault
  | _ => false

variable {ι : Type} {w w' : World} {tr : List (Entry backend Exn World ι)}
  {t u : ι} {l : Stage} {vault : Bool}

/-- What a call finds at its stage. -/
def Holds (cluster username : String) (vault : Bool) (w : World)
    (tr : List (Entry backend Exn World ι)) (t : ι) : Stage → Prop
  | .submitted k => Asks cluster username w k ∧
      Unapproved cluster username w ∧ Did submits tr t ∧ ¬ Did certifies tr t
  | .approved k => Asks cluster username w k ∧ Did submits tr t ∧
      ¬ Did certifies tr t
  | .certified k c => c.publicKey = k.publicKey ∧
      (vault = true → Asks cluster username w k ∧ Did submits tr t)
  | .storing k c => c.publicKey = k.publicKey ∧ vault = true ∧
      Asks cluster username w k ∧ Did submits tr t
  | .keeping k c inVault | .registered k c inVault =>
      c.publicKey = k.publicKey ∧ inVault = vault ∧
        (vault = true → Asks cluster username w k ∧ Did submits tr t ∧
          Stored username w k c)
  | .start | .free | .keyed _ => ¬ Did certifies tr t
  | .failed => True

/-- A call that relies on the signing request finds its own. -/
theorem Holds.asks (h : Holds cluster username vault w tr t l)
    (hl : l.relies vault = true) :
    (∃ k, Asks cluster username w k) ∧ Did submits tr t ∧
      (vault = true ∨ ¬ Did certifies tr t) := by
  cases l with
  | submitted k => exact ⟨⟨k, h.1⟩, h.2.2.1, Or.inr h.2.2.2⟩
  | approved k => exact ⟨⟨k, h.1⟩, h.2.1, Or.inr h.2.2⟩
  | certified k c => exact ⟨⟨k, (h.2 hl).1⟩, (h.2 hl).2, Or.inl hl⟩
  | storing k c => exact ⟨⟨k, h.2.2.1⟩, h.2.2.2, Or.inl hl⟩
  | keeping k c inVault | registered k c inVault =>
      exact ⟨⟨k, (h.2.2 hl).1⟩, (h.2.2 hl).2.1, Or.inl hl⟩
  | start | free | keyed k | failed => cases hl

/-- The signing request and the secret are as they were. -/
structure Quiet (cluster username : String) (w w' : World) : Prop where
  csr : (w'.clusters cluster).csrs.get (csrNameFor username)
    = (w.clusters cluster).csrs.get (csrNameFor username)
  vault : w'.vault = w.vault

theorem Quiet.asks (hq : Quiet cluster username w w')
    (h : Asks cluster username w k) : Asks cluster username w' k := by
  obtain ⟨r, hget, hkey⟩ := h
  exact ⟨r, hq.csr.trans hget, hkey⟩

theorem Quiet.unapproved (hq : Quiet cluster username w w')
    (h : Unapproved cluster username w) : Unapproved cluster username w' := by
  intro r hget
  exact h r (hq.csr.symm.trans hget)

theorem Quiet.stored (hq : Quiet cluster username w w')
    (h : Stored username w k c) : Stored username w' k c := by
  intro v hv
  exact h v (hq.vault.symm.trans hv)

/-- What a call has done after one more step. -/
theorem did_concat {kind : Event backend Exn → Bool}
    {e : Entry backend Exn World ι} :
    Did kind (tr ++ [e]) t ↔
      Did kind tr t ∨ (e.thread = t ∧ kind e.event = true) := by
  constructor
  · rintro ⟨e', he', ht, hk⟩
    rcases List.mem_append.mp he' with hold | hnew
    · exact Or.inl ⟨e', hold, ht, hk⟩
    · rw [List.mem_singleton.mp hnew] at ht hk
      exact Or.inr ⟨ht, hk⟩
  · rintro (⟨e', he', ht, hk⟩ | ⟨ht, hk⟩)
    · exact ⟨e', List.mem_append_left _ he', ht, hk⟩
    · exact ⟨e, List.mem_append_right _ (List.mem_singleton.mpr rfl), ht, hk⟩

theorem Did.concat {kind : Event backend Exn → Bool} (h : Did kind tr t)
    (e : Entry backend Exn World ι) : Did kind (tr ++ [e]) t :=
  did_concat.mpr (Or.inl h)

theorem not_did_concat {kind : Event backend Exn → Bool}
    {e : Entry backend Exn World ι} (h : ¬ Did kind tr t)
    (he : e.thread = t → kind e.event = false) :
    ¬ Did kind (tr ++ [e]) t := by
  intro hdid
  rcases did_concat.mp hdid with hold | ⟨ht, hk⟩
  · exact h hold
  · exact absurd hk (Bool.eq_false_iff.mp (he ht))

/-- A step that changes neither the signing request nor the secret. -/
theorem Holds.quiet (h : Holds cluster username vault w tr t l)
    (hq : Quiet cluster username w w') {e : Entry backend Exn World ι}
    (he : e.thread = t → certifies e.event = false) :
    Holds cluster username vault w' (tr ++ [e]) t l := by
  have hdid : Did submits tr t → Did submits (tr ++ [e]) t :=
    fun hd => hd.concat e
  cases l with
  | submitted k =>
      obtain ⟨hasks, hunapproved, hsub, hnot⟩ := h
      exact ⟨hq.asks hasks, hq.unapproved hunapproved, hdid hsub,
        not_did_concat hnot he⟩
  | approved k =>
      obtain ⟨hasks, hsub, hnot⟩ := h
      exact ⟨hq.asks hasks, hdid hsub, not_did_concat hnot he⟩
  | certified k c =>
      refine ⟨h.1, fun hv => ?_⟩
      exact ⟨hq.asks (h.2 hv).1, hdid (h.2 hv).2⟩
  | storing k c =>
      obtain ⟨hkey, hv, hasks, hsub⟩ := h
      exact ⟨hkey, hv, hq.asks hasks, hdid hsub⟩
  | keeping k c inVault | registered k c inVault =>
      refine ⟨h.1, h.2.1, fun hv => ?_⟩
      obtain ⟨hasks, hsub, hstored⟩ := h.2.2 hv
      exact ⟨hq.asks hasks, hdid hsub, hq.stored hstored⟩
  | start | free | keyed k => exact not_did_concat h he
  | failed => exact trivial

/-- A step of another call, of whatever kind, when this one does not rely on
    the signing request. -/
theorem Holds.of_not_relies (h : Holds cluster username vault w tr t l)
    (hl : l.relies vault = false) (w' : World)
    {e : Entry backend Exn World ι} (he : e.thread ≠ t) :
    Holds cluster username vault w' (tr ++ [e]) t l := by
  cases l with
  | submitted k | approved k => cases hl
  | certified k c => exact ⟨h.1, fun hv => absurd hv (Bool.eq_false_iff.mp hl)⟩
  | storing k c => exact absurd h.2.1 (Bool.eq_false_iff.mp hl)
  | keeping k c inVault | registered k c inVault =>
      exact ⟨h.1, h.2.1, fun hv => absurd hv (Bool.eq_false_iff.mp hl)⟩
  | start | free | keyed k =>
      exact not_did_concat h (fun ht => absurd ht he)
  | failed => exact trivial

/-! ## One step -/

/-- The calls that leave the signing request and the secret as they are. -/
def IsQuiet : Op → Prop
  | .kube _ (.createCsr _) | .kube _ (.approveCsr _) | .kube _ (.deleteCsr _)
  | .writeSecret _ _ _ => False
  | _ => True

theorem quiet_handle {op : Op} (hop : Allowed cluster username l op)
    (h : IsQuiet op) (w : World) :
    Quiet cluster username w (handle op w).2 := by
  cases hop with
  | create _ | replace | approve _ | write | takeBack => exact h.elim
  | load | generate | wait | date | service | time => exact ⟨rfl, rfl⟩
  | register op => exact ⟨rfl, rfl⟩
  | read | poll =>
      refine ⟨?_, rfl⟩
      show ((w.setCluster cluster _).clusters cluster).csrs.get _ = _
      rw [World.setCluster_self]
      rfl

theorem answered_error {op : Op} {e : Exn}
    (h : answered t op w (.error e) w') : w' = w := by
  rcases h with h | ⟨-, h⟩
  · exact handle_error h
  · exact h

theorem answered_ok {op : Op} {a : op.Res}
    (h : answered t op w (.ok a) w') : handle op w = (.ok a, w') := by
  rcases h with h | ⟨⟨e, he⟩, -⟩
  · exact h
  · cases he

theorem certifies_error {op : Op} {e : Exn} :
    certifies ⟨op, .error e⟩ = false := by
  cases op with
  | kube c op =>
      cases op with
      | _ => rfl
  | _ => rfl

/-- After a failure a call stays where it is, or gives up. -/
theorem nextStage_error {op : Op} (hop : Allowed cluster username l op)
    (e : Exn) : nextStage username l op (.error e) = l ∨
      nextStage username l op (.error e) = .failed := by
  cases hop with
  | takeBack => exact Or.inr rfl
  | register op =>
      cases op with
      | _ => exact Or.inl rfl
  | _ => exact Or.inl rfl

/-- A read answers with the stored signing request. -/
theorem readCsr_ok {name : String} {r : Csr}
    (h : handle (.kube cluster (.readCsr name)) w = (.ok r, w')) :
    ∃ r₀, (w.clusters cluster).csrs.get name = some r₀ ∧
      r = r₀.served (w.clusters cluster).signer w.tick := by
  have hread : ((readIn (w.clusters cluster).csrs name).map
      (Csr.served (w.clusters cluster).signer w.tick)).mapError Exn.api
        = .ok r := (Prod.mk.inj h).1
  rw [readIn] at hread
  cases hget : (w.clusters cluster).csrs.get name with
  | none =>
      rw [hget] at hread
      cases hread
  | some r₀ =>
      rw [hget] at hread
      exact ⟨r₀, rfl, (Except.ok.inj hread).symm⟩

/-- A call that is to store something, and succeeds, stores it. -/
theorem stored_ok {τ : Type} {res : Except ApiException τ}
    {store : τ → Cluster} {a : Unit}
    (h : ((storing (w.clusters cluster) res () store).1.mapError Exn.api,
      w.setCluster cluster (storing (w.clusters cluster) res () store).2)
        = (Except.ok a, w')) :
    ∃ x, res = .ok x ∧ w' = w.setCluster cluster (store x) := by
  obtain ⟨hres, hw⟩ := Prod.mk.inj h
  cases res with
  | ok x => exact ⟨x, rfl, hw.symm⟩
  | error e => cases hres

/-- The cluster with other signing requests. -/
def withCsrs (w : World) (cluster : String) (t : Table Csr Csr.name) : World :=
  w.setCluster cluster { w.clusters cluster with csrs := t }

theorem withCsrs_csrs (w : World) (cluster : String)
    (t : Table Csr Csr.name) :
    ((withCsrs w cluster t).clusters cluster).csrs = t := by
  rw [withCsrs, World.setCluster_self]

/-- A create call that succeeds has found the name free. -/
theorem createCsr_ok {r : Csr} {a : Unit}
    (h : handle (.kube cluster (.createCsr r)) w = (.ok a, w')) :
    (w.clusters cluster).csrs.get r.name = none ∧
      w' = withCsrs w cluster ((w.clusters cluster).csrs.put r) := by
  obtain ⟨x, hx, hw⟩ := stored_ok h
  rw [createIn] at hx
  cases hget : (w.clusters cluster).csrs.get r.name with
  | some r₀ =>
      rw [hget] at hx
      cases hx
  | none =>
      rw [hget] at hx
      obtain rfl := Except.ok.inj hx
      exact ⟨rfl, hw⟩

/-- An approval that succeeds approves the stored signing request. -/
theorem approveCsr_ok {read : Csr} {a : Unit}
    (h : handle (.kube cluster (.approveCsr read)) w = (.ok a, w')) :
    ∃ r, (w.clusters cluster).csrs.get read.name = some r ∧
      w' = withCsrs w cluster ((w.clusters cluster).csrs.put r.approve) := by
  obtain ⟨x, hx, hw⟩ := stored_ok h
  rw [approvalIn] at hx
  cases hget : (w.clusters cluster).csrs.get read.name with
  | none =>
      rw [hget] at hx
      cases hx
  | some r =>
      rw [hget] at hx
      change (if _ = read then _ else _) = _ at hx
      by_cases hread : r.served (w.clusters cluster).signer w.tick = read
      · rw [if_pos hread] at hx
        obtain rfl := Except.ok.inj hx
        exact ⟨r, rfl, hw⟩
      · rw [if_neg hread] at hx
        cases hx

/-- A write to Vault that succeeds leaves its secret there. -/
theorem writeSecret_ok {a : String}
    (h : handle (.writeSecret username k c) w = (.ok a, w')) :
    w'.clusters = w.clusters ∧ Stored username w' k c := by
  have hwrite : w.writeSecret username k c = (.ok a, w') := h
  rw [World.writeSecret] at hwrite
  cases hv : w.vault with
  | none =>
      rw [hv] at hwrite
      cases (Prod.mk.inj hwrite).1
  | some v =>
      rw [hv] at hwrite
      obtain ⟨-, rfl⟩ := Prod.mk.inj hwrite
      refine ⟨rfl, ?_⟩
      intro v' hv'
      rw [← Option.some.inj hv', Vault.read_write]

/-- A request that has not been approved has no certificate. -/
theorem certificate_of_unapproved {r : Csr}
    {signer : Nat → Csr → Option Certificate} {n : Nat}
    (h : r.approved = false) : (r.served signer n).certificate = none := by
  show (if r.approved = true then signer n r else none) = none
  rw [h]
  rfl

/-- A certificate certifies the key of its request. -/
theorem certificate_key {r : Csr} {n : Nat}
    (hsigner : CertifiesKey (w.clusters cluster))
    (h : (r.served (w.clusters cluster).signer n).certificate = some c) :
    c.publicKey = r.request.publicKey := by
  have hserved : (if r.approved = true then (w.clusters cluster).signer n r
    else none) = some c := h
  by_cases happroved : r.approved = true
  · rw [if_pos happroved] at hserved
    exact hsigner n r c hserved
  · rw [if_neg happroved] at hserved
    cases hserved

/-- The submission of a signing request. -/
theorem holds_create {gs : List String} {a : Unit}
    (h : ¬ Did certifies tr t)
    (hans : handle (.kube cluster (.createCsr (signingRequest k username gs)))
      w = (.ok a, w')) :
    Holds cluster username vault w'
      (tr ++ [⟨w, t, ⟨.kube cluster (.createCsr (signingRequest k username gs)),
        .ok a⟩⟩]) t (.submitted k) := by
  obtain ⟨-, rfl⟩ := createCsr_ok hans
  have hget : ((withCsrs w cluster ((w.clusters cluster).csrs.put
      (signingRequest k username gs))).clusters cluster).csrs.get
        (csrNameFor username) = some (signingRequest k username gs) := by
    rw [withCsrs_csrs]
    exact Table.get_put_self _ (signingRequest k username gs)
  refine ⟨⟨_, hget, rfl⟩, ?_, did_concat.mpr (Or.inr ⟨rfl, rfl⟩),
    not_did_concat h (fun _ => rfl)⟩
  intro r hr
  rw [← Option.some.inj (hget.symm.trans hr)]
  rfl

/-- The approval of a signing request. -/
theorem holds_approve {read : Csr} {a : Unit}
    (h : Holds cluster username vault w tr t (.submitted k))
    (hans : handle (.kube cluster (.approveCsr read)) w = (.ok a, w')) :
    Holds cluster username vault w'
      (tr ++ [⟨w, t, ⟨.kube cluster (.approveCsr read), .ok a⟩⟩]) t
      (.approved k) := by
  obtain ⟨⟨own, hown, hkey⟩, -, hsub, hnot⟩ := h
  obtain ⟨r, hget, rfl⟩ := approveCsr_ok hans
  have hrname : r.name = read.name := Table.key_of_get hget
  have happroved : r.approve.name = read.name := hrname
  refine ⟨?_, hsub.concat _,
    not_did_concat hnot (fun _ => rfl)⟩
  rw [Asks, withCsrs_csrs]
  -- an approval keeps the key, and the other requests as they are
  by_cases hname : csrNameFor username = read.name
  · rw [hname] at hown ⊢
    obtain rfl : own = r := Option.some.inj (hown.symm.trans hget)
    have hself := Table.get_put_self (w.clusters cluster).csrs own.approve
    rw [happroved] at hself
    exact ⟨own.approve, hself, hkey⟩
  · refine ⟨own, ?_, hkey⟩
    rw [Table.get_put_ne _ (fun hn => hname (hn.trans happroved))]
    exact hown

/-- A round of the wait for the certificate. -/
theorem holds_poll {r : Csr}
    (hsigner : CertifiesKey (w.clusters cluster))
    (h : Holds cluster username vault w tr t (.approved k))
    (hans : handle (.kube cluster (.readCsr (csrNameFor username))) w
      = (.ok r, w')) (hq : Quiet cluster username w w') :
    Holds cluster username vault w'
      (tr ++ [⟨w, t, ⟨.kube cluster (.readCsr (csrNameFor username)),
        .ok r⟩⟩]) t (afterPoll k r) := by
  obtain ⟨⟨own, hown, hkey⟩, hsub, hnot⟩ := h
  obtain ⟨r₀, hget, hr⟩ := readCsr_ok hans
  obtain rfl : own = r₀ := Option.some.inj (hown.symm.trans hget)
  have hasks : Asks cluster username w' k := hq.asks ⟨own, hown, hkey⟩
  rw [afterPoll]
  cases hc : r.certificate with
  | none =>
      refine ⟨hasks, hsub.concat _,
        not_did_concat hnot (fun _ => ?_)⟩
      show r.certificate.isSome = false
      rw [hc]
      rfl
  | some c =>
      refine ⟨?_, fun _ => ⟨hasks, hsub.concat _⟩⟩
      rw [hr] at hc
      exact (certificate_key hsigner hc).trans hkey

/-- What a call finds after its own step. -/
theorem holds_step {op : Op} {r : Except Exn op.Res}
    (hvault : w.vault.isSome = vault)
    (hsigner : CertifiesKey (w.clusters cluster))
    (h : Holds cluster username vault w tr t l)
    (hop : Allowed cluster username l op) (hans : answered t op w r w') :
    Holds cluster username vault w' (tr ++ [⟨w, t, ⟨op, r⟩⟩]) t
      (nextStage username l op r) := by
  cases r with
  | error e =>
      obtain rfl := answered_error hans
      rcases nextStage_error hop e with hnext | hnext
      · rw [hnext]
        exact h.quiet ⟨rfl, rfl⟩ (fun _ => certifies_error)
      · rw [hnext]
        exact trivial
  | ok a =>
      have hok := answered_ok hans
      have hquiet : IsQuiet op → Quiet cluster username w w' := by
        intro hq
        have hh := quiet_handle hop hq w
        rw [hok] at hh
        exact hh
      cases hop with
      | load =>
          show Holds _ _ _ _ _ _ (afterLoad username a)
          rw [afterLoad]
          split
          · exact trivial
          · exact not_did_concat h (fun _ => rfl)
      | generate => exact not_did_concat h (fun _ => rfl)
      | create gs => exact holds_create h hok
      | replace => exact not_did_concat h (fun _ => rfl)
      | read =>
          refine h.quiet (hquiet trivial) (fun _ => ?_)
          -- the stored request is not approved yet, so the read certifies
          -- nothing
          obtain ⟨r₀, hget, hr⟩ := readCsr_ok hok
          show a.certificate.isSome = false
          rw [hr, certificate_of_unapproved (h.2.1 r₀ hget)]
          rfl
      | approve r => exact holds_approve h hok
      | wait => exact h.quiet (hquiet trivial) (fun _ => rfl)
      | poll => exact holds_poll hsigner h hok (hquiet trivial)
      | date => exact h.quiet (hquiet trivial) (fun _ => rfl)
      | service =>
          obtain ⟨ha, rfl⟩ := Prod.mk.inj hok
          -- Vault answers what it has been all along
          have hava : a = vault := (Except.ok.inj ha).symm.trans hvault
          obtain ⟨hkey, hrest⟩ := h
          cases a with
          | true =>
              exact ⟨hkey, hava.symm, (hrest hava.symm).1,
                (hrest hava.symm).2.concat _⟩
          | false =>
              exact ⟨hkey, hava, fun hv => nomatch hava.trans hv⟩
      | write =>
          obtain ⟨hclusters, hstored⟩ := writeSecret_ok hok
          obtain ⟨hkey, hv, hasks, hsub⟩ := h
          refine ⟨hkey, hv.symm, fun _ => ⟨?_, hsub.concat _,
            hstored⟩⟩
          rw [Asks, hclusters]
          exact hasks
      | takeBack => exact trivial
      | time => exact h.quiet (hquiet trivial) (fun _ => rfl)
      | register op =>
          have hkept := h.quiet (hquiet trivial) (fun _ => rfl)
            (e := ⟨w, t, ⟨.db op, .ok a⟩⟩)
          cases op with
          | commit writes => exact hkept
          | _ => exact hkept

/-- A step either leaves the signing request and the secret as they are, or is
    made by a call that relies on the request, or it creates a missing request
    or deletes one. -/
theorem step_effect {op : Op} {r : Except Exn op.Res}
    (h : Holds cluster username vault w tr t l)
    (hop : Allowed cluster username l op) (hans : answered t op w r w') :
    Quiet cluster username w w' ∨ l.relies vault = true ∨
      (w.clusters cluster).csrs.get (csrNameFor username) = none ∨
      deletes ⟨op, r⟩ = true := by
  cases r with
  | error e =>
      obtain rfl := answered_error hans
      exact Or.inl ⟨rfl, rfl⟩
  | ok a =>
      have hok := answered_ok hans
      have hquiet : IsQuiet op → Quiet cluster username w w' := by
        intro hq
        have hh := quiet_handle hop hq w
        rw [hok] at hh
        exact hh
      cases hop with
      | create gs => exact Or.inr (Or.inr (Or.inl (createCsr_ok hok).1))
      | replace => exact Or.inr (Or.inr (Or.inr rfl))
      | approve r => exact Or.inr (Or.inl rfl)
      | write => exact Or.inr (Or.inl h.2.1)
      | takeBack => exact Or.inr (Or.inl h.2.1)
      | _ => exact Or.inl (hquiet trivial)

/-- A call comes to rely on the signing request by creating it. -/
theorem relies_next {op : Op} {r : Except Exn op.Res}
    (hop : Allowed cluster username l op) (hans : answered t op w r w')
    (h : (nextStage username l op r).relies vault = true) :
    l.relies vault = true ∨
      (w.clusters cluster).csrs.get (csrNameFor username) = none := by
  cases r with
  | error e =>
      rcases nextStage_error hop e with hnext | hnext
      · exact Or.inl (hnext ▸ h)
      · rw [hnext] at h
        cases h
  | ok a =>
      have hok := answered_ok hans
      cases hop with
      | load =>
          change (afterLoad username a).relies vault = true at h
          rw [afterLoad] at h
          split at h
          · cases h
          · cases h
      | create gs => exact Or.inr (createCsr_ok hok).1
      | generate | replace | takeBack => cases h
      | read | approve r | wait | poll => exact Or.inl rfl
      | service =>
          cases a with
          | true => exact Or.inl h
          | false => exact Or.inl h
      | date | write | time => exact Or.inl h
      | register op =>
          cases op with
          | _ => exact Or.inl h

/-- No step touches the signer, or switches Vault on or off. -/
theorem settings_kept {op : Op} {r : Except Exn op.Res}
    (hop : Allowed cluster username l op) (hans : answered t op w r w') :
    (w'.clusters cluster).signer = (w.clusters cluster).signer ∧
      w'.vault.isSome = w.vault.isSome := by
  cases r with
  | error e =>
      obtain rfl := answered_error hans
      exact ⟨rfl, rfl⟩
  | ok a =>
      have hok := answered_ok hans
      cases hop with
      | create gs =>
          obtain ⟨-, rfl⟩ := createCsr_ok hok
          rw [withCsrs, World.setCluster_self]
          exact ⟨rfl, rfl⟩
      | approve r =>
          obtain ⟨-, -, rfl⟩ := approveCsr_ok hok
          rw [withCsrs, World.setCluster_self]
          exact ⟨rfl, rfl⟩
      | replace | takeBack =>
          obtain ⟨-, -, rfl⟩ := stored_ok hok
          rw [World.setCluster_self]
          exact ⟨rfl, rfl⟩
      | read | poll =>
          obtain ⟨-, rfl⟩ := Prod.mk.inj hok
          rw [World.setCluster_self]
          exact ⟨rfl, rfl⟩
      | write =>
          have hwrite : w.writeSecret username _ _ = (.ok a, w') := hok
          rw [World.writeSecret] at hwrite
          cases hv : w.vault with
          | none =>
              rw [hv] at hwrite
              cases (Prod.mk.inj hwrite).1
          | some v =>
              rw [hv] at hwrite
              obtain ⟨-, rfl⟩ := Prod.mk.inj hwrite
              exact ⟨rfl, rfl⟩
      | _ =>
          obtain ⟨-, rfl⟩ := Prod.mk.inj hok
          exact ⟨rfl, rfl⟩

/-- The registry changes when a call commits, which registers its user. -/
theorem registered_next {op : Op} {r : Except Exn op.Res}
    (hop : Allowed cluster username l op) (hans : answered t op w r w') :
    w'.db = w.db ∨ (nextStage username l op r).isRegistered = true := by
  cases r with
  | error e =>
      obtain rfl := answered_error hans
      exact Or.inl rfl
  | ok a =>
      have hok := answered_ok hans
      have hdb : NoCommit op → w'.db = w.db := by
        intro hno
        have hh := handle_db hno w
        rw [hok] at hh
        exact hh
      cases hop with
      | register op =>
          cases op with
          | commit writes => exact Or.inr rfl
          | _ => exact Or.inl (hdb nofun)
      | _ => exact Or.inl (hdb nofun)

/-! ## Runs of calls -/

section Runs

variable {ph : ι → Stage} {p : Pool backend Exn Credentials World ι}

/-- What the calls of a run find, as far as they have not failed: at most one
    of them relies on the signing request. -/
structure KeyInv (cluster username : String) (vault : Bool)
    (tr : List (Entry backend Exn World ι)) (ph : ι → Stage)
    (p : Pool backend Exn Credentials World ι) : Prop where
  signer : CertifiesKey (p.shared.clusters cluster)
  enabled : p.shared.vault.isSome = vault
  holds : ∀ t, Alive p t → Holds cluster username vault p.shared tr t (ph t)
  alone : ∀ t u, Alive p t → Alive p u → (ph t).relies vault = true →
    (ph u).relies vault = true → t = u
  registered : Registered username p.shared →
    ∃ t, (ph t).isRegistered = true

/-- A call that relies on the signing request, in the invariant, does so in the
    run. -/
theorem KeyInv.relies (hinv : KeyInv cluster username vault tr ph p)
    (halive : Alive p u) (h : (ph u).relies vault = true) :
    (∃ k, Asks cluster username p.shared k) ∧ Relies tr p u := by
  obtain ⟨hasks, hsub, hwaits⟩ := (hinv.holds u halive).asks h
  refine ⟨hasks, hsub, halive, ?_⟩
  rw [hinv.enabled]
  exact hwaits

/-- A step of one call leaves the others what they find. -/
theorem KeyInv.others (hinv : KeyInv cluster username vault tr ph p) {op : Op}
    {r : Except Exn op.Res} (halive : Alive p t)
    (hop : Allowed cluster username (ph t) op)
    (hans : answered t op p.shared r w')
    (hguard : SparesOthers tr p ⟨p.shared, t, ⟨op, r⟩⟩) (hut : u ≠ t)
    (hu : Alive p u) :
    Holds cluster username vault w' (tr ++ [⟨p.shared, t, ⟨op, r⟩⟩]) u
      (ph u) := by
  have hold := hinv.holds u hu
  rcases step_effect (hinv.holds t halive) hop hans with
    hquiet | hrelies | hnone | hdeletes
  · exact hold.quiet hquiet (fun htu => absurd htu hut.symm)
  -- in the other three cases `u` cannot rely on the signing request
  all_goals
    refine hold.of_not_relies (Bool.eq_false_iff.mpr fun hyes => ?_) w'
      (e := ⟨p.shared, t, ⟨op, r⟩⟩) hut.symm
    obtain ⟨⟨k, own, hown, -⟩, hrun⟩ := hinv.relies hu hyes
  · exact hut (hinv.alone u t hu halive hyes hrelies)
  · cases hown.symm.trans hnone
  · exact hguard hdeletes u hut hrun

/-- A call that has returned left its key where it belongs. -/
theorem matches_of_inv (hinv : KeyInv cluster username vault tr ph p)
    (hfol : Follows (protocol cluster username) (p.threads t) (ph t) Ended)
    {creds : Credentials} (hret : p.threads t = .ret creds) :
    Matches username creds p.shared := by
  have halive : Alive p t := by
    intro e he
    rw [hret] at he
    cases he
  rw [hret] at hfol
  obtain ⟨k, c, inVault, hl, hc, hkey⟩ := hfol
  have hholds := hinv.holds t halive
  rw [hl] at hholds
  obtain ⟨hpublic, hvault, hrest⟩ := hholds
  rcases hkey with hk | hv
  · exact Or.inl ⟨k, hk, hpublic.symm.trans (congrArg _ hc.symm)⟩
  · obtain ⟨v, hsome⟩ := Option.isSome_iff_exists.mp
      (hinv.enabled.trans (hvault.symm.trans hv))
    exact Or.inr ⟨v, k, c, hsome, (hrest (hvault.symm.trans hv)).2.2 v hsome,
      hpublic.symm.trans (congrArg _ hc.symm)⟩

/-- What Vault keeps for a registered user belongs to its signing request. -/
theorem vaultMatches_of_inv (hinv : KeyInv cluster username vault tr ph p)
    (hfol : ∀ t, Follows (protocol cluster username) (p.threads t) (ph t)
      Ended) : VaultMatches cluster username p.shared := by
  intro hreg v r n cert hv hget hcert
  -- the call that registered the user left its key in Vault
  obtain ⟨t, ht⟩ := hinv.registered hreg
  have halive : Alive p t := by
    intro e he
    have hended := hfol t
    rw [he] at hended
    exact absurd ht (Bool.eq_false_iff.mp hended)
  have hholds := hinv.holds t halive
  have henabled : vault = true := by
    rw [← hinv.enabled, hv]
    rfl
  cases hl : ph t with
  | registered k c inVault =>
      rw [hl] at hholds
      obtain ⟨-, -, hrest⟩ := hholds
      obtain ⟨⟨own, hown, hkey⟩, -, hstored⟩ := hrest henabled
      obtain rfl : own = r := Option.some.inj (hown.symm.trans hget)
      exact ⟨k, c, hstored v hv,
        ((certificate_key hinv.signer hcert).trans hkey).symm⟩
  | _ =>
      rw [hl] at ht
      cases ht

/-- The name is taken. -/
def Taken (username : String) (w : World) : Prop :=
  w.db.managedUsers.rows.any (fun u => decide (u.name = username)) = true

/-- A call for a name that is taken reads it and gives up. -/
theorem next_taken {op : Op} {r : Except Exn op.Res} (htaken : Taken username w)
    (hl : l = .start ∨ l = .failed) (hop : Allowed cluster username l op)
    (hans : answered t op w r w') :
    w' = w ∧ (nextStage username l op r = .start ∨
      nextStage username l op r = .failed) := by
  rcases hl with rfl | rfl
  · cases hop
    cases r with
    | error e => exact ⟨answered_error hans, Or.inl rfl⟩
    | ok rows =>
        obtain ⟨hrows, hw⟩ := Prod.mk.inj (answered_ok hans)
        refine ⟨hw.symm, Or.inr ?_⟩
        show afterLoad username rows = .failed
        rw [afterLoad, ← Except.ok.inj hrows]
        exact if_pos htaken
  · cases hop

variable [DecidableEq ι]

/-- Every step of a run keeps the invariant. -/
theorem KeyInv.step (hinv : KeyInv cluster username vault tr ph p) {op : Op}
    {k : Except Exn op.Res → Prog backend Exn Credentials}
    {r : Except Exn op.Res} (hcall : p.threads t = .call op k)
    (hop : Allowed cluster username (ph t) op)
    (hans : answered t op p.shared r w')
    (hguard : SparesOthers tr p ⟨p.shared, t, ⟨op, r⟩⟩) :
    KeyInv cluster username vault (tr ++ [⟨p.shared, t, ⟨op, r⟩⟩])
      (Function.update ph t (nextStage username (ph t) op r))
      ⟨Function.update p.threads t (k r), w'⟩ := by
  have halive : Alive p t := by
    intro e he
    rw [hcall] at he
    cases he
  have hothers : ∀ {u}, u ≠ t →
      Alive ⟨Function.update p.threads t (k r), w'⟩ u → Alive p u := by
    intro u hut hu e he
    exact hu e ((Function.update_of_ne hut ..).trans he)
  obtain ⟨hsigner, hvault⟩ := settings_kept hop hans
  -- a call that now relies on the request is alone with it
  have halone : ∀ u, u ≠ t → Alive p u → (ph u).relies vault = true →
      (nextStage username (ph t) op r).relies vault = true → False := by
    intro u hut hu hrelies hnext
    rcases relies_next hop hans hnext with hbefore | hnone
    · exact hut (hinv.alone u t hu halive hrelies hbefore)
    · obtain ⟨⟨k, own, hown, -⟩, -⟩ := hinv.relies hu hrelies
      cases hown.symm.trans hnone
  refine ⟨?_, hvault.trans hinv.enabled, ?_, ?_, ?_⟩
  · intro n r cert hcert
    rw [hsigner] at hcert
    exact hinv.signer n r cert hcert
  · intro u hu
    by_cases hut : u = t
    · rw [hut, Function.update_self]
      exact holds_step hinv.enabled hinv.signer (hinv.holds t halive) hop hans
    · rw [Function.update_of_ne hut]
      exact hinv.others halive hop hans hguard hut (hothers hut hu)
  · intro x y hx hy hxr hyr
    by_cases hxt : x = t
    · by_cases hyt : y = t
      · rw [hxt, hyt]
      · rw [hxt, Function.update_self] at hxr
        rw [Function.update_of_ne hyt] at hyr
        exact (halone y hyt (hothers hyt hy) hyr hxr).elim
    · rw [Function.update_of_ne hxt] at hxr
      by_cases hyt : y = t
      · rw [hyt, Function.update_self] at hyr
        exact (halone x hxt (hothers hxt hx) hxr hyr).elim
      · rw [Function.update_of_ne hyt] at hyr
        exact hinv.alone x y (hothers hxt hx) (hothers hyt hy) hxr hyr
  · intro hreg
    rcases registered_next hop hans with hdb | hnext
    · have hbefore : Registered username p.shared := by
        rw [Registered, ← hdb]
        exact hreg
      obtain ⟨u, hu⟩ := hinv.registered hbefore
      refine ⟨u, ?_⟩
      by_cases hut : u = t
      · rw [hut] at hu
        -- a call that has registered makes no step any more
        generalize ph t = l at hop hu
        cases hop with
        | _ => cases hu
      · rw [Function.update_of_ne hut]
        exact hu
    · exact ⟨t, (congrArg _ (Function.update_self ..)).trans hnext⟩

variable {groups : ι → List String}

/-- Calls for a name that is taken change nothing. -/
theorem run_idle (htaken : Taken username w)
    (hrun : Run answered (creating cluster username groups w) tr p) :
    ∃ ph : ι → Stage, (p.shared = w ∧ ∀ t, ph t = .start ∨ ph t = .failed) ∧
      ∀ t, Follows (protocol cluster username) (p.threads t) (ph t) Ended := by
  refine Run.inv_pool
    (J := fun _ ph p => p.shared = w ∧ ∀ t, ph t = .start ∨ ph t = .failed)
    (G := fun _ _ _ => True) ?_ ⟨rfl, fun _ => Or.inl rfl⟩
    (fun t => createUser_follows (groups t)) hrun (fun _ _ _ _ _ _ => trivial)
  rintro tr ph p t op k r s' ⟨hsame, hstage⟩ hfol hcall hans -
  have hop := hfol t
  rw [hcall] at hop
  rw [hsame] at hans
  obtain ⟨hs, hnext⟩ := next_taken htaken (hstage t) hop.1 hans
  refine ⟨hs, fun u => ?_⟩
  by_cases hut : u = t
  · rw [hut, Function.update_self]
    exact hnext
  · rw [Function.update_of_ne hut]
    exact hstage u

/-- None of them returns. -/
theorem run_taken (htaken : Taken username w)
    (hrun : Run answered (creating cluster username groups w) tr p) :
    p.shared = w ∧ ∀ t creds, p.threads t ≠ .ret creds := by
  obtain ⟨ph, ⟨hsame, hstage⟩, hfol⟩ := run_idle htaken hrun
  refine ⟨hsame, ?_⟩
  intro t creds hret
  have hended := hfol t
  rw [hret] at hended
  obtain ⟨k, c, inVault, hl, -⟩ := hended
  rcases hstage t with h | h
  · cases h.symm.trans hl
  · cases h.symm.trans hl

/-- Calls for a free name keep the invariant. -/
theorem run_free (hfree : ¬ Taken username w)
    (hsigner : CertifiesKey (w.clusters cluster))
    (hrun : Run answered (creating cluster username groups w) tr p)
    (hguard : Guarded answered (creating cluster username groups w)
      SparesOthers tr) :
    ∃ ph, KeyInv cluster username w.vault.isSome tr ph p ∧
      ∀ t, Follows (protocol cluster username) (p.threads t) (ph t) Ended := by
  refine Run.inv_pool (G := SparesOthers) ?_ ?_
    (fun t => createUser_follows (groups t)) hrun hguard
  · intro tr ph p t op k r s' hinv hfol hcall hans hg
    have hop := hfol t
    rw [hcall] at hop
    exact hinv.step hcall hop.1 hans hg
  · refine ⟨hsigner, rfl, fun _ _ => ?_, fun _ _ _ _ h _ => ?_, ?_⟩
    · rintro ⟨e, he, -⟩
      cases he
    · cases h
    · rintro ⟨u, hu, hname, -⟩
      exact absurd (List.any_eq_true.mpr ⟨u, hu, decide_eq_true hname⟩) hfree

/-- In every run of concurrent creations of one user in which no deletion takes
    the signing request from a call that relies on it, each call that has
    returned left a key that belongs to its certificate, and the keys in Vault
    still belong to the certificates if they did so at the start. -/
theorem keys_match (cluster username : String) (groups : ι → List String)
    (w : World) (hsigner : CertifiesKey (w.clusters cluster))
    (hrun : Run answered (creating cluster username groups w) tr p)
    (hguard : Guarded answered (creating cluster username groups w)
      SparesOthers tr) :
    (∀ t creds, p.threads t = .ret creds → Matches username creds p.shared) ∧
      (VaultMatches cluster username w →
        VaultMatches cluster username p.shared) := by
  by_cases htaken : Taken username w
  -- then no call gets as far as a signing request
  · obtain ⟨hsame, hnone⟩ := run_taken htaken hrun
    refine ⟨fun t creds hret => absurd hret (hnone t creds), ?_⟩
    rw [hsame]
    exact fun h => h
  · obtain ⟨ph, hinv, hfol⟩ := run_free htaken hsigner hrun hguard
    exact ⟨fun t creds hret => matches_of_inv hinv (hfol t) hret,
      fun _ => vaultMatches_of_inv hinv hfol⟩

/-- A run without deletions takes no signing request from anyone. -/
theorem guarded_of_noDeletion {start : Pool backend Exn Credentials World ι}
    (h : tr.all (fun e => !deletes e.event) = true) :
    Guarded answered start SparesOthers tr := by
  intro pre e post q htr _ hdel
  rw [htr] at h
  have he := List.all_eq_true.mp h e
    (List.mem_append_right _ (List.mem_cons_self ..))
  rw [hdel] at he
  cases he

end Runs

/-- A cluster whose signer issues certificates at once. -/
def promptCluster : Cluster :=
  { Cluster.fresh with
    signer := fun _ r => some ⟨r.request.publicKey, r.request.commonName,
      r.request.organizations, Time.epoch⟩ }

/-- A new installation with such a cluster, and perhaps with Vault. -/
def promptWorld (vault : Option Vault) : World :=
  { World.fresh with clusters := fun _ => promptCluster, vault := vault }

theorem certifiesKey_prompt (vault : Option Vault) :
    CertifiesKey ((promptWorld vault).clusters "local") := by
  intro n r cert hcert
  rw [← Option.some.inj hcert]

/-- Two calls that create ada. -/
def adaTwice (vault : Option Vault) : Pool backend Exn Credentials World Bool :=
  creating "local" "ada" (fun _ => []) (promptWorld vault)

/-- A schedule of handled calls is a run. -/
theorem run_of_schedule (vault : Option Vault) (ts : List Bool)
    (P : List (Entry backend Exn World Bool) →
      Pool backend Exn Credentials World Bool → Bool)
    (hplay : (play (fun _ op s => some (handle op s)) ts []
      (adaTwice vault)).any (fun o => P o.1 o.2) = true) :
    ∃ tr p, Run answered (adaTwice vault) tr p ∧ P tr p = true := by
  obtain ⟨tr, p, hrun, hP⟩ := run_of_handler handle (adaTwice vault) ts P hplay
  exact ⟨tr, p, hrun.imp (fun _ _ _ _ _ h => Or.inl h), hP⟩

/-- One call creates ada, with Vault; the other one comes too late. -/
theorem keys_match_inVault :
    ∃ tr p, Run answered (adaTwice (some ⟨"secret", "users", []⟩)) tr p ∧
      (∃ creds, p.threads false = .ret creds) ∧
      (∀ t creds, p.threads t = .ret creds → Matches "ada" creds p.shared) ∧
      (VaultMatches "local" "ada" (promptWorld (some ⟨"secret", "users", []⟩)) →
        VaultMatches "local" "ada" p.shared) := by
  obtain ⟨tr, p, hrun, hend⟩ := run_of_schedule
    (some ⟨"secret", "users", []⟩)
    (List.replicate 14 false ++ [true])
    (fun tr p => tr.all (fun e => !deletes e.event) &&
      returned (p.threads false)) (by decide +kernel)
  rw [Bool.and_eq_true] at hend
  refine ⟨tr, p, hrun, returned_iff.mp hend.2, ?_⟩
  exact keys_match "local" "ada" (fun _ => []) _ (certifiesKey_prompt _) hrun
    (guarded_of_noDeletion hend.1)

/-- Does the call return a key that its certificate does not certify? -/
def mismatched : Prog backend Exn Credentials → Bool
  | .ret creds =>
      match creds.privateKey with
      | some k => decide (k.publicKey ≠ creds.certificate.publicKey)
      | none => false
  | _ => false

/-- Such a key matches nothing, when there is no Vault. -/
theorem not_matches {p : Prog backend Exn Credentials} {w : World}
    (h : mismatched p = true) (hvault : w.vault = none) :
    ∃ creds, p = .ret creds ∧ ¬ Matches "ada" creds w := by
  cases p with
  | call op f => cases h
  | raise e => cases h
  | ret creds =>
      refine ⟨creds, rfl, ?_⟩
      rw [mismatched] at h
      rintro (⟨k, hk, hkey⟩ | ⟨v, k, cert, hv, -⟩)
      · rw [hk] at h
        exact of_decide_eq_true h hkey
      · cases hvault.symm.trans hv

/-- A call submits its request; the other one finds it, deletes it and submits
    its own; the first one approves that one, and returns its certificate. -/
theorem key_of_other_call :
    CertifiesKey ((promptWorld none).clusters "local") ∧
      ¬ ∀ tr p, Run answered (adaTwice none) tr p →
        (∀ t creds, p.threads t = .ret creds →
          Matches "ada" creds p.shared) ∧
        (VaultMatches "local" "ada" (promptWorld none) →
          VaultMatches "local" "ada" p.shared) := by
  refine ⟨certifiesKey_prompt none, fun hall => ?_⟩
  obtain ⟨tr, p, hrun, hend⟩ := run_of_schedule none
    (List.replicate 3 false ++ List.replicate 5 true ++
      List.replicate 10 false)
    (fun _ p => mismatched (p.threads false) && p.shared.vault.isNone)
    (by decide +kernel)
  rw [Bool.and_eq_true] at hend
  obtain ⟨creds, hret, hnot⟩ := not_matches hend.1
    (Option.isNone_iff_eq_none.mp hend.2)
  exact hnot ((hall tr p hrun).1 false creds hret)

end CvKeys
