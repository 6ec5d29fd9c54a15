import ClusterVision.KeyMatchProofs
import ClusterVision.RegistrationProofs

/-! # Keys and certificates that stay together

    The key of a certificate user is in Vault, its certificate with its signing
    request on the cluster, and its entry in the registry: three stores, that
    creations, imports and deletions write one after the other.  Whatever calls
    have run on a cluster, one after the other, the key that Vault has for a
    registered user is the key of the user's signing request, and the request
    is in the name of the user. -/

namespace CvKeyPair

open CvProg CvRun CvPool CvTable CvIso CvKube CvBackend CvRbac CvRegistry
open CvUsers CvRegistration CvKeys
open CvUsers.Certificate (Credentials csrNameFor signingRequest)

variable {cluster username : String} {w w' : World}

/-! ## Calls that issue nothing -/

/-- All calls but the submission of a signing request and a write to Vault. -/
def Issueless : Op → Prop
  | .kube _ (.createCsr _) => False
  | .writeSecret _ _ _ => False
  | _ => True

/-- The signing requests of a cluster are the ones that were there, or fewer,
    and its signer and Vault are as they were. -/
structure Fewer (cluster : String) (w w' : World) : Prop where
  csrs : ∀ name r', (w'.clusters cluster).csrs.get name = some r' →
    ∃ r, (w.clusters cluster).csrs.get name = some r ∧ r'.request = r.request
  signer : (w'.clusters cluster).signer = (w.clusters cluster).signer
  vault : w'.vault = w.vault

theorem Fewer.refl (w : World) : Fewer cluster w w :=
  ⟨fun _ r h => ⟨r, h, rfl⟩, rfl, rfl⟩

theorem Fewer.trans {u v x : World} (h : Fewer cluster u v)
    (h' : Fewer cluster v x) : Fewer cluster u x := by
  refine ⟨?_, h'.signer.trans h.signer, h'.vault.trans h.vault⟩
  intro name r hr
  obtain ⟨r₁, hr₁, hreq₁⟩ := h'.csrs name r hr
  obtain ⟨r₂, hr₂, hreq₂⟩ := h.csrs name r₁ hr₁
  exact ⟨r₂, hr₂, hreq₁.trans hreq₂⟩

theorem fewer_of_clusters (hclusters : w'.clusters = w.clusters)
    (hvault : w'.vault = w.vault) : Fewer cluster w w' := by
  refine ⟨?_, by rw [hclusters], hvault⟩
  rw [hclusters]
  exact fun _ r h => ⟨r, h, rfl⟩

/-- A cluster has the signing requests of another one, or fewer, and its
    signer. -/
def Within (c d : Cluster) : Prop :=
  (∀ name r', d.csrs.get name = some r' →
    ∃ r, c.csrs.get name = some r ∧ r'.request = r.request) ∧
    d.signer = c.signer

theorem within_of_csrs {c d : Cluster} (hcsrs : d.csrs = c.csrs)
    (hsigner : d.signer = c.signer) : Within c d := by
  refine ⟨?_, hsigner⟩
  rw [hcsrs]
  exact fun _ r hr => ⟨r, hr, rfl⟩

/-- An approval keeps what the requests ask for. -/
theorem within_approve {n : Nat} {c : Cluster} {read : Csr}
    {t : Table Csr Csr.name}
    (ht : approvalIn c.signer n c.csrs read = .ok t) :
    Within c { c with csrs := t } := by
  refine ⟨?_, rfl⟩
  intro name r' hr'
  rw [approvalIn] at ht
  cases hget : c.csrs.get read.name with
  | none =>
      rw [hget] at ht
      cases ht
  | some r =>
      rw [hget] at ht
      change (if _ = read then _ else _) = _ at ht
      by_cases hread : r.served c.signer n = read
      · rw [if_pos hread] at ht
        obtain rfl := Except.ok.inj ht
        have hkey : r.name = read.name := Table.key_of_get hget
        change (c.csrs.put r.approve).get name = some r' at hr'
        rw [Table.get_put] at hr'
        by_cases hname : name = r.approve.name
        · rw [if_pos hname] at hr'
          rw [← Option.some.inj hr', hname]
          exact ⟨r, hkey ▸ hget, rfl⟩
        · rw [if_neg hname] at hr'
          exact ⟨r', hr', rfl⟩
      · rw [if_neg hread] at ht
        cases ht

theorem within_delete {c : Cluster} {csrName : String}
    {t : Table Csr Csr.name} (ht : deleteIn c.csrs csrName = .ok t) :
    Within c { c with csrs := t } := by
  refine ⟨?_, rfl⟩
  intro name r' hr'
  rw [deleteIn] at ht
  cases hget : c.csrs.get csrName with
  | none =>
      rw [hget] at ht
      cases ht
  | some r =>
      rw [hget] at ht
      obtain rfl := Except.ok.inj ht
      change (c.csrs.erase csrName).get name = some r' at hr'
      rw [Table.get_erase] at hr'
      by_cases hname : name = csrName
      · rw [if_pos hname] at hr'
        cases hr'
      · rw [if_neg hname] at hr'
        exact ⟨r', hr', rfl⟩

/-- What a call that issues nothing does to a cluster. -/
theorem exec_within {n : Nat} {op : KubeOp} {c : Cluster}
    (h : ∀ r, op ≠ .createCsr r) : Within c (c.exec n op).2 := by
  have hsame : Within c c := within_of_csrs rfl rfl
  cases op with
  | createCsr r => exact absurd rfl (h r)
  | listBindings _ _ _ _ | readNamespace _ | listNamespaces
  | readServiceAccount _ _ | listServiceAccounts | readSecret _ _
  | listSecrets _ | createToken _ _ _ | readCsr _ | readRole _ _
  | listRoles _ _ _ | createSubjectAccessReview _ | getCode => exact hsame
  | createBinding _ | patchBinding _ _ _ | deleteBinding _ _
  | createNamespace _ | createServiceAccount _ | deleteServiceAccount _ _
  | createSecret _ | deleteSecret _ _ | createRole _ | replaceRole _
  | deleteRole _ _ =>
      exact storing_snd (P := Within c) hsame
        (fun _ _ => within_of_csrs rfl rfl)
  | approveCsr read =>
      exact storing_snd (P := Within c) hsame (fun _ => within_approve)
  | deleteCsr csrName =>
      exact storing_snd (P := Within c) hsame (fun _ => within_delete)

/-- Such a call leaves no more signing requests, and Vault alone. -/
theorem handle_fewer {op : Op} (h : Issueless op) (w : World) :
    Fewer cluster w (handle op w).2 := by
  cases op with
  | kube c op =>
      have hop : ∀ r, op ≠ .createCsr r := by
        rintro r rfl
        exact h
      by_cases hc : cluster = c
      · subst hc
        obtain ⟨hcsrs, hsigner⟩ :=
          @exec_within w.tick op (w.clusters cluster) hop
        refine ⟨?_, ?_, rfl⟩
        · show ∀ name r', ((w.setCluster cluster _).clusters
            cluster).csrs.get name = some r' → _
          rw [World.setCluster_self]
          exact hcsrs
        · show ((w.setCluster cluster _).clusters cluster).signer = _
          rw [World.setCluster_self]
          exact hsigner
      · have hsame : (handle (.kube c op) w).2.clusters cluster
            = w.clusters cluster := World.setCluster_ne w _ hc
        refine ⟨?_, by rw [hsame], rfl⟩
        rw [hsame]
        exact fun _ r hr => ⟨r, hr, rfl⟩
  | writeSecret _ _ _ => exact h.elim
  | _ => exact fewer_of_clusters rfl rfl

theorem run_fewer {α : Type} {p : Svc α} (hp : p.Uses Issueless) (w : World) :
    Fewer cluster w (p.run handle w).2 :=
  hp.run_keeps (R := Fewer cluster) Fewer.refl Fewer.trans
    (fun _ w hop => handle_fewer hop w) w

theorem updateRegistry_issueless
    (mutate : List RegistryEntry → Except Exn (List RegistryEntry)) :
    (updateRegistry mutate).Uses Issueless :=
  updateRegistry_uses trivial (fun _ => trivial) mutate

theorem nowText_issueless : nowText.Uses Issueless :=
  Prog.uses_bind (Prog.uses_perform trivial) (fun _ => trivial)

theorem loadRegistry_issueless : loadRegistry.Uses Issueless :=
  Prog.uses_bind (Prog.uses_perform trivial) (fun _ => trivial)

theorem ensureNamespace_issueless (cluster ns : String) :
    (ensureNamespace cluster ns).Uses Issueless :=
  uses_unlessStatus
    (Prog.uses_bind (Prog.uses_perform trivial) (fun _ => trivial))
    (uses_unlessStatus (Prog.uses_perform trivial) trivial)

theorem uses_void {α : Type} {P : Op → Prop} {p : Svc α} (hp : p.Uses P) :
    p.void.Uses P :=
  Prog.uses_bind hp (fun _ => trivial)

/-- Only the creation of a certificate user issues anything. -/
theorem userCall_issueless {k : UserCall}
    (h : ∀ c name groups, k ≠ .createCertificate c name groups) :
    k.prog.Uses Issueless := by
  cases k with
  | createCertificate c name groups => exact absurd rfl (h c name groups)
  | importCertificate name groups =>
      exact uses_void (Prog.uses_bind nowText_issueless (fun _ =>
        Prog.uses_bind (updateRegistry_issueless _) (fun _ => trivial)))
  | deleteCertificate c name =>
      refine Prog.uses_bind loadRegistry_issueless (fun users => ?_)
      cases users.find? (Certificate.isUser name) with
      | none => exact trivial
      | some user =>
          refine Prog.uses_bind ?_ (fun _ =>
            Prog.uses_bind (updateRegistry_issueless _) (fun _ => trivial))
          rw [Certificate.deleteSigningRequest]
          cases user.csrName with
          | none => exact trivial
          | some csrName =>
              exact Prog.uses_ite trivial
                (uses_unlessStatus (Prog.uses_perform trivial) trivial)
  | createAccount c name ns =>
      refine uses_void (Prog.uses_bind loadRegistry_issueless
        (fun users => Prog.uses_ite trivial ?_))
      refine Prog.uses_bind (ensureNamespace_issueless _ _) (fun _ => ?_)
      refine Prog.uses_bind
        (uses_unlessStatus (Prog.uses_perform trivial) trivial) (fun _ => ?_)
      refine Prog.uses_bind
        (uses_unlessStatus (Prog.uses_perform trivial) trivial) (fun _ => ?_)
      exact Prog.uses_bind nowText_issueless (fun _ =>
        Prog.uses_bind (updateRegistry_issueless _) (fun _ => trivial))
  | importAccount c name ns =>
      exact uses_void (Prog.uses_bind (Prog.uses_perform trivial) (fun _ =>
        Prog.uses_bind nowText_issueless (fun _ =>
          Prog.uses_bind (updateRegistry_issueless _) (fun _ => trivial))))
  | deleteAccount c name ns =>
      refine Prog.uses_bind loadRegistry_issueless (fun users => ?_)
      refine Prog.uses_bind (Prog.uses_ofExcept _) (fun user => ?_)
      refine Prog.uses_bind
        (uses_unlessStatus (Prog.uses_perform trivial) trivial) (fun _ => ?_)
      refine Prog.uses_bind
        (uses_unlessStatus (Prog.uses_perform trivial) trivial) (fun _ => ?_)
      exact Prog.uses_bind (updateRegistry_issueless _) (fun _ => trivial)

/-! ## A creation -/

theorem csrNameFor_injective {a b : String}
    (h : csrNameFor a = csrNameFor b) : a = b := by
  have hlist := congrArg String.toList h
  rw [csrNameFor, csrNameFor, String.toList_append,
    String.toList_append] at hlist
  exact String.toList_inj.mp (List.append_cancel_left hlist)

/-- The secret of another user is not touched by a write. -/
theorem read_write_ne (v : Vault) {name : String} (h : name ≠ username)
    (k : PrivateKey) (c : Certificate) :
    (v.write username k c).read name = v.read name := by
  rw [Vault.read, Vault.write, List.find?_cons_of_neg
    (by rw [decide_eq_true_eq]; exact fun heq => h heq.symm), Vault.read,
    List.find?_filter]
  congr 2
  funext e
  by_cases he : e.1 = name
  · rw [decide_eq_true he, decide_eq_true (he ▸ h : e.1 ≠ username)]
    rfl
  · rw [decide_eq_false he]
    exact decide_eq_false (fun hboth => Bool.false_ne_true hboth.2)

/-- Vault's secret of a user. -/
def secret (w : World) (name : String) : Option (PrivateKey × Certificate) :=
  w.vault.bind (fun v => v.read name)

/-- The signing request of a user, if there is one, has the key. -/
def OnlyKey (cluster username : String) (w : World) (k : PrivateKey) : Prop :=
  ∀ r, (w.clusters cluster).csrs.get (csrNameFor username) = some r →
    r.request.publicKey = k.publicKey

/-- The signing request of a user, if there is one, is in its name. -/
def OwnName (cluster username : String) (w : World) : Prop :=
  ∀ r, (w.clusters cluster).csrs.get (csrNameFor username) = some r →
    r.request.commonName = username

/-- A creation has left everything of other users alone. -/
structure Apart (cluster username : String) (w w' : World) : Prop where
  csrs : ∀ name, name ≠ csrNameFor username →
    ∀ r', (w'.clusters cluster).csrs.get name = some r' →
    ∃ r, (w.clusters cluster).csrs.get name = some r ∧ r'.request = r.request
  ownName : OwnName cluster username w'
  secrets : ∀ name, name ≠ username → secret w' name = secret w name
  signer : (w'.clusters cluster).signer = (w.clusters cluster).signer
  vault : w'.vault.isSome = true

/-- What a creation relies on in its stage. -/
def Carries (cluster username : String) (w : World) : Stage → Prop
  | .submitted k | .approved k | .certified k _ | .storing k _ =>
      OnlyKey cluster username w k
  | .keeping k c _ | .registered k c _ =>
      OnlyKey cluster username w k ∧ secret w username = some (k, c)
  | _ => True

variable {v : World} {l : Stage}

theorem Fewer.onlyKey (h : Fewer cluster w w') {k : PrivateKey}
    (hk : OnlyKey cluster username w k) : OnlyKey cluster username w' k := by
  intro r' hr'
  obtain ⟨r, hr, hreq⟩ := h.csrs _ r' hr'
  rw [hreq]
  exact hk r hr

theorem Fewer.secret (h : Fewer cluster w w') (name : String) :
    secret w' name = secret w name := by
  rw [CvKeyPair.secret, CvKeyPair.secret, h.vault]

theorem Fewer.apart (h : Fewer cluster w w')
    (hw : Apart cluster username v w) : Apart cluster username v w' := by
  refine ⟨?_, ?_, ?_, h.signer.trans hw.signer, ?_⟩
  · intro name hne r' hr'
    obtain ⟨r₁, hr₁, hreq₁⟩ := h.csrs name r' hr'
    obtain ⟨r, hr, hreq⟩ := hw.csrs name hne r₁ hr₁
    exact ⟨r, hr, hreq₁.trans hreq⟩
  · intro r' hr'
    obtain ⟨r, hr, hreq⟩ := h.csrs _ r' hr'
    rw [hreq]
    exact hw.ownName r hr
  · exact fun name hne => (h.secret name).trans (hw.secrets name hne)
  · rw [h.vault]
    exact hw.vault

theorem Fewer.carries (h : Fewer cluster w w')
    (hw : Carries cluster username w l) : Carries cluster username w' l := by
  cases l with
  | submitted k | approved k | certified k c | storing k c =>
      exact h.onlyKey hw
  | keeping k c b | registered k c b =>
      exact ⟨h.onlyKey hw.1, (h.secret username).trans hw.2⟩
  | start | free | keyed k | failed => exact trivial

/-- A call that issues nothing takes a creation to a stage that relies on no
    more. -/
theorem carries_issueless {op : Op} (hop : Allowed cluster username l op)
    (h : Issueless op) (hv : w.vault.isSome = true)
    (hw : Carries cluster username w l) :
    Carries cluster username (handle op w).2
      (nextStage username l op (handle op w).1) := by
  have hsame := (handle_fewer h w).carries hw
  generalize hr : (handle op w).1 = r at hsame ⊢
  cases hop with
  | load =>
      cases r with
      | error e => exact trivial
      | ok rows =>
          show Carries _ _ _ (afterLoad username rows)
          rw [afterLoad]
          split <;> exact trivial
  | generate =>
      cases r with
      | error e => exact trivial
      | ok k => exact trivial
  | create gs => exact h.elim
  | write => exact h.elim
  | replace => exact trivial
  | read => exact hsame
  | approve read =>
      cases r with
      | error e => exact hsame
      | ok u => exact hsame
  | wait => exact hsame
  | poll =>
      cases r with
      | error e => exact hsame
      | ok csr =>
          show Carries _ _ _ (afterPoll _ csr)
          rw [afterPoll]
          cases csr.certificate with
          | none => exact hsame
          | some c => exact hsame
  | date => exact hsame
  | service =>
      cases r with
      | error e => exact hsame
      | ok enabled =>
          have henabled : enabled = true :=
            (Except.ok.inj hr).symm.trans hv
          rw [henabled]
          exact hsame
  | takeBack =>
      cases r with
      | error e => exact trivial
      | ok u => exact trivial
  | time => exact hsame
  | register op =>
      cases op with
      | commit writes =>
          cases r with
          | error e => exact hsame
          | ok u => exact hsame
      | _ => exact hsame

/-- The submission of a signing request. -/
theorem create_step {k : PrivateKey} (groups : List String)
    (hw : Apart cluster username v w) (u : Except Exn Unit) (w' : World)
    (h : handle (.kube cluster (.createCsr
      (signingRequest k username groups))) w = (u, w')) :
    Apart cluster username v w' ∧
      Carries cluster username w' (nextStage username (.keyed k)
        (.kube cluster (.createCsr (signingRequest k username groups))) u) := by
  cases u with
  | error e =>
      obtain rfl := handle_error h
      exact ⟨hw, trivial⟩
  | ok a =>
      obtain ⟨-, rfl⟩ := createCsr_ok h
      have hown : ((withCsrs w cluster ((w.clusters cluster).csrs.put
          (signingRequest k username groups))).clusters cluster).csrs.get
            (csrNameFor username) = some (signingRequest k username groups) := by
        rw [withCsrs_csrs]
        exact Table.get_put_self _ (signingRequest k username groups)
      refine ⟨⟨?_, ?_, hw.secrets, ?_, hw.vault⟩, ?_⟩
      · intro name hne r' hr'
        have hput := Table.get_put_ne (w.clusters cluster).csrs
          (r := signingRequest k username groups) hne
        rw [withCsrs_csrs, hput] at hr'
        exact hw.csrs name hne r' hr'
      · intro r' hr'
        rw [← Option.some.inj (hown.symm.trans hr')]
        rfl
      · rw [withCsrs, World.setCluster_self]
        exact hw.signer
      · intro r' hr'
        rw [← Option.some.inj (hown.symm.trans hr')]
        rfl

/-- The write to Vault. -/
theorem write_step {k : PrivateKey} {c : Certificate}
    (hw : Apart cluster username v w) (hkey : OnlyKey cluster username w k)
    (u : Except Exn String) (w' : World)
    (h : handle (.writeSecret username k c) w = (u, w')) :
    Apart cluster username v w' ∧
      Carries cluster username w' (nextStage username (.storing k c)
        (.writeSecret username k c) u) := by
  obtain ⟨vault, hvault⟩ := Option.isSome_iff_exists.mp hw.vault
  have hwrite : w.writeSecret username k c = (u, w') := h
  rw [World.writeSecret, hvault] at hwrite
  obtain ⟨rfl, rfl⟩ := Prod.mk.inj hwrite
  refine ⟨⟨hw.csrs, hw.ownName, ?_, hw.signer, rfl⟩, hkey, ?_⟩
  · intro name hne
    rw [← hw.secrets name hne, secret, secret, hvault]
    exact read_write_ne vault hne k c
  · exact Vault.read_write vault username k c

/-- Every step of a creation keeps to its own. -/
theorem creation_step {op : Op} (hop : Allowed cluster username l op)
    (hw : Apart cluster username v w ∧ Carries cluster username w l) :
    Apart cluster username v (handle op w).2 ∧
      Carries cluster username (handle op w).2
        (nextStage username l op (handle op w).1) := by
  by_cases h : Issueless op
  · exact ⟨(handle_fewer h w).apart hw.1,
      carries_issueless hop h hw.1.vault hw.2⟩
  · cases hop with
    | create gs => exact create_step gs hw.1 _ _ rfl
    | write => exact write_step hw.1 hw.2 _ _ rfl
    | _ => exact absurd trivial h

/-- A creation as a whole: it leaves everything of other users alone, and when
    it returns, its key is in Vault and in its signing request. -/
theorem run_creation (groups : List String) (hvault : w.vault.isSome = true)
    (hname : OwnName cluster username w) :
    let o := (Certificate.createUser cluster username groups).run handle w
    Apart cluster username w o.2 ∧ ∀ creds, o.1 = .ok creds →
      ∃ k c, OnlyKey cluster username o.2 k ∧
        secret o.2 username = some (k, c) := by
  have hstart : Apart cluster username w w :=
    ⟨fun _ _ r hr => ⟨r, hr, rfl⟩, hname, fun _ _ => rfl, rfl, hvault⟩
  obtain ⟨l, hended, hapart, hcarries⟩ :=
    (createUser_follows groups).run
      (K := fun l w' => Apart cluster username w w' ∧
        Carries cluster username w' l)
      (fun _ _ _ hop hw => creation_step hop hw) ⟨hstart, trivial⟩
  refine ⟨hapart, ?_⟩
  intro creds hok
  rw [hok] at hended
  obtain ⟨k, c, inVault, rfl, -⟩ := hended
  exact ⟨k, c, hcarries⟩

/-! ## Runs -/

/-- The signer certifies the key and the name of the request. -/
def Certifies (c : Cluster) : Prop :=
  ∀ n r cert, c.signer n r = some cert →
    cert.publicKey = r.request.publicKey ∧
      cert.commonName = r.request.commonName

/-- The entry of a certificate user with a signing request. -/
def HasRequest (u : ManagedUser) : Prop :=
  u.type = .certificate ∧ u.csrName ≠ none

/-- Vault has the key of the user's signing request. -/
def KeyInVault (cluster username : String) (w : World) : Prop :=
  ∃ k c, OnlyKey cluster username w k ∧ secret w username = some (k, c)

/-- The three stores agree. -/
structure Paired (cluster : String) (w : World) : Prop where
  vault : w.vault.isSome = true
  signer : Certifies (w.clusters cluster)
  ownNames : ∀ username, OwnName cluster username w
  csrNames : ∀ u ∈ w.db.managedUsers.rows, HasRequest u →
    u.csrName = some (csrNameFor u.name)
  keys : ∀ u ∈ w.db.managedUsers.rows, HasRequest u →
    KeyInVault cluster u.name w

/-- A step: a call on the cluster, or anything else that leaves the three
    stores and the signer alone. -/
inductive PairStep (cluster : String) where
  | call (k : UserCall)
      (here : ∀ c name groups, k = .createCertificate c name groups →
        c = cluster)
  | outside (f : World → World)
      (users : ∀ w, (f w).db.managedUsers = w.db.managedUsers)
      (fewer : ∀ w, Fewer cluster w (f w))

/-- The world after a step. -/
def pairStep {cluster : String} : PairStep cluster → World → World
  | .call k _, w => (k.prog.run handle w).2
  | .outside f _ _, w => f w

theorem Fewer.certifies (h : Fewer cluster w w')
    (hw : Certifies (w.clusters cluster)) :
    Certifies (w'.clusters cluster) := by
  intro n r cert hcert
  rw [h.signer] at hcert
  exact hw n r cert hcert

/-- A step that issues nothing, and registers no user with a signing request,
    keeps the stores together. -/
theorem Paired.fewer (hw : Paired cluster w) (h : Fewer cluster w w')
    (hrows : ∀ u ∈ w'.db.managedUsers.rows, HasRequest u →
      u ∈ w.db.managedUsers.rows) : Paired cluster w' := by
  refine ⟨?_, h.certifies hw.signer, ?_, ?_, ?_⟩
  · rw [h.vault]
    exact hw.vault
  · intro username r' hr'
    obtain ⟨r, hr, hreq⟩ := h.csrs _ r' hr'
    rw [hreq]
    exact hw.ownNames username r hr
  · exact fun u hu hrequest => hw.csrNames u (hrows u hu hrequest) hrequest
  · intro u hu hrequest
    obtain ⟨k, c, hkey, hsecret⟩ := hw.keys u (hrows u hu hrequest) hrequest
    exact ⟨k, c, h.onlyKey hkey, (h.secret u.name).trans hsecret⟩

section Registry

variable {t t' : Users} {u : ManagedUser}

/-- A row after an append is the new one or an old one. -/
theorem mem_appended {taken : RegistryEntry → Bool} {user : RegistryEntry}
    (h : Appended taken user t t') (hu : u ∈ t'.rows) :
    RowOf user u ∨ u ∈ t.rows := by
  obtain ⟨row, hrow, hget⟩ := h.row
  have hu' := Table.get_of_mem hu
  rw [hget] at hu'
  by_cases hkey : u.key = user.key
  · rw [if_pos hkey] at hu'
    exact Or.inl (Option.some.inj hu' ▸ hrow)
  · rw [if_neg hkey] at hu'
    exact Or.inr (Table.mem_of_get hu')

theorem mem_removed {gone : RegistryEntry → Bool} (h : Removed gone t t')
    (hu : u ∈ t'.rows) : u ∈ t.rows := by
  have hu' := Table.get_of_mem hu
  rw [h, Option.filter_eq_some_iff] at hu'
  exact Table.mem_of_get hu'.1

theorem mem_leaves {E : Users → Prop} (h : Leaves t E w)
    (hE : ∀ t', E t' → ∀ u ∈ t'.rows, HasRequest u → u ∈ t.rows) :
    ∀ u ∈ w.db.managedUsers.rows, HasRequest u → u ∈ t.rows := by
  intro u hu hrequest
  rcases h with h | h
  · rw [h] at hu
    exact hu
  · exact hE _ h u hu hrequest

/-- No other call registers a certificate user with a signing request. -/
theorem mem_userCall {k : UserCall}
    (h : ∀ c name groups, k ≠ .createCertificate c name groups) (w : World) :
    ∀ u ∈ (k.prog.run handle w).2.db.managedUsers.rows, HasRequest u →
      u ∈ w.db.managedUsers.rows := by
  cases k with
  | createCertificate c name groups => exact absurd rfl (h c name groups)
  | importCertificate name groups =>
      refine mem_leaves (ends_void (Certificate.importUser_ends rfl)).leaves ?_
      rintro t' ⟨now, happended⟩ u hu hrequest
      rcases mem_appended happended hu with hrow | hold
      · exact absurd hrow.csrName hrequest.2
      · exact hold
  | deleteCertificate c name =>
      refine mem_leaves (Certificate.deleteUser_leaves rfl) ?_
      exact fun t' hremoved u hu _ => mem_removed hremoved hu
  | createAccount c name ns =>
      refine mem_leaves
        (ends_void (ServiceAccount.createUser_ends rfl)).leaves ?_
      rintro t' ⟨now, happended⟩ u hu hrequest
      rcases mem_appended happended hu with hrow | hold
      · exact absurd hrow.csrName hrequest.2
      · exact hold
  | importAccount c name ns =>
      refine mem_leaves
        (ends_void (ServiceAccount.importUser_ends rfl)).leaves ?_
      rintro t' ⟨now, happended⟩ u hu hrequest
      rcases mem_appended happended hu with hrow | hold
      · exact absurd hrow.csrName hrequest.2
      · exact hold
  | deleteAccount c name ns =>
      refine mem_leaves (ServiceAccount.deleteUser_leaves rfl) ?_
      rintro t' ⟨user, -, hremoved⟩ u hu -
      exact mem_removed hremoved hu

end Registry

/-- A creation for a name that is taken does nothing. -/
theorem run_createUser_taken (groups : List String)
    (h : Taken username w) :
    (Certificate.createUser cluster username groups).run handle w
      = (.error (.userAlreadyExistsError username), w) := by
  have hany : (w.db.managedUsers.rows.map toDict).any
      (Certificate.sameName username) = true := by
    rw [List.any_map]
    exact h
  rw [Certificate.createUser, Prog.run_bind, run_loadRegistry,
    Prog.andThen_ok, Prog.run_ite, if_pos hany]
  rfl

/-- A creation keeps the stores together. -/
theorem paired_create (hw : Paired cluster w) (groups : List String) :
    Paired cluster
      ((Certificate.createUser cluster username groups).run handle w).2 := by
  by_cases htaken : Taken username w
  · rw [run_createUser_taken groups htaken]
    exact hw
  have hother : ∀ u ∈ w.db.managedUsers.rows, u.name ≠ username :=
    fun u hu hname => htaken (List.any_eq_true.mpr
      ⟨u, hu, decide_eq_true hname⟩)
  obtain ⟨hapart, hown⟩ :=
    run_creation groups hw.vault (hw.ownNames username)
  have hends := @Certificate.createUser_ends w _ cluster username groups rfl
  generalize (Certificate.createUser cluster username groups).run handle w = o
    at hapart hown hends
  have hnames : ∀ name, OwnName cluster name o.2 := by
    intro name
    by_cases hname : name = username
    · rw [hname]
      exact hapart.ownName
    · intro r' hr'
      obtain ⟨r, hr, hreq⟩ := hapart.csrs _
        (fun h => hname (csrNameFor_injective h)) r' hr'
      rw [hreq]
      exact hw.ownNames name r hr
  have hkept : ∀ u ∈ w.db.managedUsers.rows, HasRequest u →
      KeyInVault cluster u.name o.2 := by
    intro u hu hrequest
    obtain ⟨k, c, hkey, hsecret⟩ := hw.keys u hu hrequest
    refine ⟨k, c, ?_, (hapart.secrets _ (hother u hu)).trans hsecret⟩
    intro r' hr'
    obtain ⟨r, hr, hreq⟩ := hapart.csrs _
      (fun h => hother u hu (csrNameFor_injective h)) r' hr'
    rw [hreq]
    exact hkey r hr
  have hsigner : Certifies (o.2.clusters cluster) := by
    intro n r cert hcert
    rw [hapart.signer] at hcert
    exact hw.signer n r cert hcert
  rcases hends with ⟨e, -, hsame⟩ | ⟨creds, hok, now, certificate, happended⟩
  · refine ⟨hapart.vault, hsigner, hnames, ?_, ?_⟩
    · rw [hsame]
      exact hw.csrNames
    · rw [hsame]
      exact hkept
  · refine ⟨hapart.vault, hsigner, hnames, ?_, ?_⟩
    · intro u hu hrequest
      rcases mem_appended happended hu with hrow | hold
      · rw [hrow.csrName, hrow.name]
        rfl
      · exact hw.csrNames u hold hrequest
    · intro u hu hrequest
      rcases mem_appended happended hu with hrow | hold
      · rw [hrow.name]
        exact hown creds hok
      · exact hkept u hold hrequest

theorem paired_step (hw : Paired cluster w) (a : PairStep cluster) :
    Paired cluster (pairStep a w) := by
  cases a with
  | outside f users fewer =>
      refine hw.fewer (fewer w) ?_
      rw [pairStep, users]
      exact fun u hu _ => hu
  | call k here =>
      by_cases hk : ∀ c name groups, k ≠ .createCertificate c name groups
      · exact hw.fewer (run_fewer (userCall_issueless hk) w)
          (mem_userCall hk w)
      · push Not at hk
        obtain ⟨c, name, groups, rfl⟩ := hk
        obtain rfl := here c name groups rfl
        show Paired c ((Certificate.createUser c name groups).void.run
          handle w).2
        rw [Prog.run_void_snd]
        exact paired_create hw groups

/-- Whatever has run, the stores agree. -/
theorem paired_after (hw : Paired cluster w) (steps : List (PairStep cluster)) :
    Paired cluster (after pairStep steps w) :=
  @after_inv _ _ pairStep (Paired cluster) (fun _ a hs => paired_step hs a) w
    hw steps

/-- A cluster without users, where Vault is enabled. -/
theorem paired_empty (hvault : w.vault.isSome = true)
    (hsigner : Certifies (w.clusters cluster))
    (hcsrs : ∀ username,
      (w.clusters cluster).csrs.get (csrNameFor username) = none)
    (husers : w.db.managedUsers = Table.empty) : Paired cluster w := by
  refine ⟨hvault, hsigner, ?_, ?_, ?_⟩
  · intro username r hr
    cases (hcsrs username).symm.trans hr
  · rw [husers]
    exact fun u hu => absurd hu List.not_mem_nil
  · rw [husers]
    exact fun u hu => absurd hu List.not_mem_nil

end CvKeyPair
