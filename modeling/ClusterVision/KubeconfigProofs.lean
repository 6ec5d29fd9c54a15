import ClusterVision.KubeconfigService

/-! # Whose token a kubeconfig carries

    The scan of a namespace accepts a token Secret by its annotation, the
    lookup before it by its name and type alone.  The main result says when
    the token that is returned is one the scan would have accepted, or was
    issued for the account. -/

namespace CvKubeconfig

open CvProg CvTable CvKube CvBackend CvToken CvUsers

variable {w : World} {cluster saName ns token : String}

/-! ## The scan -/

/-- The scan takes the token of this Secret for one of the account. -/
structure Owned (saName : String) (s : Secret) : Prop where
  type : s.type = tokenType
  annotated : s.annotations.get? serviceAccountName = some saName

/-- A token that the scan finds is that of a Secret of the account. -/
theorem scanTokens_sound {ss : List Secret}
    (h : scanTokens saName ss = .ok (some token)) :
    ∃ s ∈ ss, Owned saName s ∧ secretToken s = .ok (some token) := by
  induction ss with
  | nil => exact nomatch h
  | cons s ss ih =>
      have hrest : scanTokens saName ss = .ok (some token) →
          ∃ t ∈ s :: ss, Owned saName t ∧
            secretToken t = .ok (some token) := by
        intro hss
        obtain ⟨t, ht, hown, htoken⟩ := ih hss
        exact ⟨t, List.mem_cons_of_mem s ht, hown, htoken⟩
      rw [scanTokens] at h
      by_cases htype : s.type = tokenType
      · rw [if_neg (not_not.mpr htype)] at h
        by_cases hname : s.annotations.get? serviceAccountName = some saName
        · rw [if_pos hname] at h
          cases htoken : secretToken s with
          | error e =>
              rw [htoken] at h
              exact nomatch h
          | ok r =>
              cases r with
              | none =>
                  rw [htoken] at h
                  exact hrest h
              | some t =>
                  rw [htoken] at h
                  refine ⟨s, List.mem_cons_self, ⟨htype, hname⟩, ?_⟩
                  exact htoken.trans h
        · rw [if_neg hname] at h
          exact hrest h
      · rw [if_pos htype] at h
        exact hrest h

/-! ## Runs -/

/-- What the lookup makes of the Secret with the known name. -/
def namedToken : Option Secret → Except Exn (Option String)
  | none => .ok none
  | some s => if s.type = tokenType then secretToken s else .ok none

/-- A Secret holds no `ApiException`. -/
theorem secretToken_ne_api (s : Secret) (e : ApiException) :
    secretToken s ≠ .error (.api e) := by
  rw [secretToken]
  cases tokenBytes s with
  | none => exact nofun
  | some bytes =>
      show (decode bytes).map some ≠ _
      rw [decode]
      cases String.fromUTF8? bytes with
      | none => exact nofun
      | some token => exact nofun

/-- The Secret that has the known name in the namespace. -/
def named (w : World) (cluster saName ns : String) : Option Secret :=
  (w.clusters cluster).secrets.get (ns, ServiceAccount.tokenSecretName saName)

theorem run_knownToken (cluster saName ns : String) (w : World) :
    (knownToken cluster saName ns).run handle w
      = (namedToken (named w cluster saName ns), w) := by
  have hread : handle (.kube cluster
      (.readSecret ns (ServiceAccount.tokenSecretName saName))) w
      = ((readIn (w.clusters cluster).secrets
          (ns, ServiceAccount.tokenSecretName saName)).mapError .api,
        w.setCluster cluster (w.clusters cluster)) := rfl
  rw [knownToken, Prog.run_catching, Prog.run_bind, run_kube, hread, readIn,
    World.setCluster_eq_self]
  change _ = (namedToken ((w.clusters cluster).secrets.get
    (ns, ServiceAccount.tokenSecretName saName)), w)
  cases (w.clusters cluster).secrets.get
      (ns, ServiceAccount.tokenSecretName saName) with
  | none => rfl
  | some s =>
      show Prog.orElse ((if s.type = tokenType then
        Prog.ofExcept (secretToken s) else pure none :
          Svc (Option String)).run handle w) _ = (if _ then _ else _, w)
      by_cases htype : s.type = tokenType
      · rw [if_pos htype, if_pos htype, Prog.run_ofExcept]
        cases htoken : secretToken s with
        | ok r => rfl
        | error e =>
            have hne : e ≠ .api ⟨404⟩ := by
              rintro rfl
              exact secretToken_ne_api s ⟨404⟩ htoken
            show (if e = .api ⟨404⟩ then pure none else throw e :
              Svc (Option String)).run handle w = _
            rw [if_neg hne]
            rfl
      · rw [if_neg htype, if_neg htype]
        rfl

/-- The lookup leaves the world as it is, and issues nothing. -/
theorem trace_knownToken (cluster saName ns : String) (w : World) :
    ∀ ev ∈ (knownToken cluster saName ns).trace handle w,
      ev.op = Op.kube cluster
        (.readSecret ns (ServiceAccount.tokenSecretName saName)) := by
  refine Prog.Uses.trace (P := fun op : Op => op = .kube cluster
    (.readSecret ns (ServiceAccount.tokenSecretName saName))) ?_ handle w
  refine Prog.uses_catching (Prog.uses_bind (Prog.uses_perform rfl) ?_) ?_
  · exact fun s => Prog.uses_ite (Prog.uses_ofExcept _) trivial
  · exact fun e => Prog.uses_ite trivial trivial

/-- A token that the lookup finds is returned, and nothing is issued. -/
theorem getSaToken_of_named
    (h : namedToken (named w cluster saName ns) = .ok (some token)) :
    (getSaToken cluster saName ns).run handle w = (.ok token, w) ∧
      (getSaToken cluster saName ns).trace handle w
        = (knownToken cluster saName ns).trace handle w := by
  have hrun : (knownToken cluster saName ns).run handle w
      = (.ok (some token), w) := by rw [run_knownToken, h]
  constructor
  · rw [getSaToken, Prog.run_bind, hrun]
    rfl
  · rw [getSaToken, Prog.trace_bind, hrun]
    exact List.append_nil _

/-- When the lookup finds nothing, the rest decides. -/
theorem getSaToken_of_none
    (h : namedToken (named w cluster saName ns) = .ok none) :
    (getSaToken cluster saName ns).run handle w
        = (scanOrIssue cluster saName ns).run handle w ∧
      (getSaToken cluster saName ns).trace handle w
        = (knownToken cluster saName ns).trace handle w
          ++ (scanOrIssue cluster saName ns).trace handle w := by
  have hrun : (knownToken cluster saName ns).run handle w
      = (.ok none, w) := by rw [run_knownToken, h]
  constructor
  · rw [getSaToken, Prog.run_bind, hrun]
    rfl
  · rw [getSaToken, Prog.trace_bind, hrun]
    rfl

/-! ## Whose token it is -/

/-- A Secret of the namespace that the scan accepts holds the token. -/
def Accepted (w : World) (cluster saName ns token : String) : Prop :=
  ∃ s ∈ (w.clusters cluster).secrets.rows, s.ns = ns ∧ Owned saName s ∧
    secretToken s = .ok (some token)

/-- The server issues the token in this run, for this ServiceAccount. -/
def Issued (w : World) (cluster saName ns token : String) : Prop :=
  ∃ account spec,
    (w.clusters cluster).serviceAccounts.get (ns, saName) = some account ∧
    token = (w.clusters cluster).issuer w.tick account spec ∧
    (⟨.kube cluster (.createToken ns saName spec), .ok token⟩ :
      Event backend Exn) ∈ (getSaToken cluster saName ns).trace handle w

/-- The token that is returned is one of the account, and so is the one that
    the lookup by name finds. -/
structure ServesOwn (w : World) (cluster saName ns : String) : Prop where
  returned : ∀ token,
    ((getSaToken cluster saName ns).run handle w).1 = .ok token →
      Accepted w cluster saName ns token ∨ Issued w cluster saName ns token
  found : ∀ token,
    ((knownToken cluster saName ns).run handle w).1 = .ok (some token) →
      Accepted w cluster saName ns token

/-- The token Secret with the known name is annotated with another account,
    or with none, and no Secret of the account in the namespace holds the same
    token. -/
def Misnamed (w : World) (cluster saName ns : String) : Prop :=
  ∃ s token, named w cluster saName ns = some s ∧ s.type = tokenType ∧
    secretToken s = .ok (some token) ∧
    s.annotations.get? serviceAccountName ≠ some saName ∧
    ∀ t ∈ (w.clusters cluster).secrets.rows, t.ns = ns → Owned saName t →
      secretToken t ≠ .ok (some token)

/-- The lookup finds the token of a token Secret with the known name. -/
theorem namedToken_eq_some {r : Option Secret} :
    namedToken r = .ok (some token) ↔
      ∃ s, r = some s ∧ s.type = tokenType ∧
        secretToken s = .ok (some token) := by
  cases r with
  | none => exact iff_of_false nofun (fun ⟨_, hs, _⟩ => nomatch hs)
  | some s =>
      by_cases htype : s.type = tokenType
      · rw [namedToken, if_pos htype]
        constructor
        · exact fun h => ⟨s, rfl, htype, h⟩
        · rintro ⟨_, ⟨⟩, -, h⟩
          exact h
      · rw [namedToken, if_neg htype]
        refine iff_of_false nofun ?_
        rintro ⟨_, ⟨⟩, h, -⟩
        exact htype h

/-- The Secrets of the namespace, as the list call answers. -/
theorem handle_listSecrets (cluster ns : String) (w : World) :
    handle (.kube cluster (.listSecrets ns)) w
      = (.ok ((w.clusters cluster).secrets.rows.filter
          (fun s => decide (s.ns = ns))), w) := by
  show (Except.ok _, w.setCluster cluster (w.clusters cluster)) = _
  rw [World.setCluster_eq_self]

/-- A token that the server issues is one for the account. -/
theorem issuer_of_createToken {spec : TokenRequestSpec}
    (h : (handle (.kube cluster (.createToken ns saName spec)) w).1
      = .ok token) :
    ∃ account,
      (w.clusters cluster).serviceAccounts.get (ns, saName) = some account ∧
      token = (w.clusters cluster).issuer w.tick account spec := by
  change ((readIn (w.clusters cluster).serviceAccounts (ns, saName)).map
    _).mapError Exn.api = _ at h
  rw [readIn] at h
  cases haccount : (w.clusters cluster).serviceAccounts.get (ns, saName) with
  | none =>
      rw [haccount] at h
      exact nomatch h
  | some account =>
      rw [haccount] at h
      exact ⟨account, rfl, (Except.ok.inj h).symm⟩

/-- What the scan finds is accepted, and what the fallback returns is issued
    in its last call. -/
theorem scanOrIssue_sound
    (h : ((scanOrIssue cluster saName ns).run handle w).1 = .ok token) :
    Accepted w cluster saName ns token ∨
      ((handle (.kube cluster (.createToken ns saName tokenRequest)) w).1
          = .ok token ∧
        (⟨.kube cluster (.createToken ns saName tokenRequest), .ok token⟩ :
          Event backend Exn)
            ∈ (scanOrIssue cluster saName ns).trace handle w) := by
  rw [scanOrIssue, Prog.run_bind, run_kube, handle_listSecrets,
    Prog.andThen_ok, Prog.run_bind, Prog.run_ofExcept] at h
  cases hscan : scanTokens saName ((w.clusters cluster).secrets.rows.filter
      (fun s => decide (s.ns = ns))) with
  | error e =>
      rw [hscan] at h
      exact nomatch h
  | ok r =>
      rw [hscan, Prog.andThen_ok] at h
      cases r with
      | some t =>
          obtain rfl : t = token := Except.ok.inj h
          obtain ⟨s, hs, hown, htoken⟩ := scanTokens_sound hscan
          obtain ⟨hrow, hns⟩ := List.mem_filter.mp hs
          exact Or.inl ⟨s, hrow, of_decide_eq_true hns, hown, htoken⟩
      | none =>
          have hissue : (handle (.kube cluster
              (.createToken ns saName tokenRequest)) w).1 = .ok token := by
            rw [← h]
            exact congrArg Prod.fst (run_kube handle cluster
              (.createToken ns saName tokenRequest) w).symm
          refine Or.inr ⟨hissue, ?_⟩
          rw [scanOrIssue, Prog.trace_bind, run_kube, handle_listSecrets,
            Prog.traceThen_ok, Prog.trace_bind, Prog.run_ofExcept, hscan,
            Prog.traceThen_ok]
          refine List.mem_append_right _ (List.mem_append_right _ ?_)
          have hlast := trace_kube handle cluster
            (.createToken ns saName tokenRequest) w
          rw [hissue] at hlast
          exact hlast.symm ▸ List.mem_singleton_self _

/-- A Secret of another account is served as the token of this one. -/
theorem serves_misnamed (h : Misnamed w cluster saName ns) :
    ∃ token,
      ((getSaToken cluster saName ns).run handle w).1 = .ok token ∧
      ¬ Accepted w cluster saName ns token ∧
      ¬ Issued w cluster saName ns token := by
  obtain ⟨s, token, hs, htype, htoken, -, hothers⟩ := h
  obtain ⟨hrun, htrace⟩ := getSaToken_of_named
    (namedToken_eq_some.mpr ⟨s, hs, htype, htoken⟩)
  refine ⟨token, congrArg Prod.fst hrun, ?_, ?_⟩
  · rintro ⟨t, ht, hns, hown, htaken⟩
    exact hothers t ht hns hown htaken
  · rintro ⟨account, spec, -, -, hev⟩
    rw [htrace] at hev
    exact nomatch trace_knownToken cluster saName ns w _ hev

/-- What the lookup finds is accepted, when the Secret with the known name is
    not that of another account. -/
theorem accepted_of_named (h : ¬ Misnamed w cluster saName ns)
    (hnamed : namedToken (named w cluster saName ns) = .ok (some token)) :
    Accepted w cluster saName ns token := by
  obtain ⟨s, hs, htype, htoken⟩ := namedToken_eq_some.mp hnamed
  by_contra hno
  refine h ⟨s, token, hs, htype, htoken, ?_, ?_⟩
  · intro hname
    have hns : s.ns = ns := congrArg Prod.fst (Table.key_of_get hs)
    exact hno ⟨s, Table.mem_of_get hs, hns, ⟨htype, hname⟩, htoken⟩
  · intro t ht hns hown htaken
    exact hno ⟨t, ht, hns, hown, htaken⟩

/-- And so is what is returned, unless it is issued. -/
theorem getSaToken_sound (h : ¬ Misnamed w cluster saName ns)
    (hok : ((getSaToken cluster saName ns).run handle w).1 = .ok token) :
    Accepted w cluster saName ns token ∨
      Issued w cluster saName ns token := by
  cases hnamed : namedToken (named w cluster saName ns) with
  | error e =>
      rw [getSaToken, Prog.run_bind, run_knownToken, hnamed] at hok
      exact nomatch hok
  | ok r =>
      cases r with
      | some t =>
          rw [(getSaToken_of_named hnamed).1] at hok
          obtain rfl : t = token := Except.ok.inj hok
          exact Or.inl (accepted_of_named h hnamed)
      | none =>
          obtain ⟨hrun, htrace⟩ := getSaToken_of_none hnamed
          rw [hrun] at hok
          rcases scanOrIssue_sound hok with haccepted | ⟨hissue, hev⟩
          · exact Or.inl haccepted
          · obtain ⟨account, haccount, htoken⟩ := issuer_of_createToken hissue
            refine Or.inr ⟨account, tokenRequest, haccount, htoken, ?_⟩
            rw [htrace]
            exact List.mem_append_right _ hev

/-- The token that is returned is one of the account, and so is the one that
    the lookup finds, exactly when the Secret with the known name is not that
    of another account. -/
theorem servesOwn_iff (w : World) (cluster saName ns : String) :
    ServesOwn w cluster saName ns ↔ ¬ Misnamed w cluster saName ns := by
  constructor
  · rintro ⟨hreturned, -⟩ hmisnamed
    obtain ⟨token, hok, haccepted, hissued⟩ := serves_misnamed hmisnamed
    exact (hreturned token hok).elim haccepted hissued
  · intro h
    refine ⟨fun token hok => getSaToken_sound h hok, fun token hok => ?_⟩
    rw [run_knownToken] at hok
    exact accepted_of_named h hok

/-- The bytes of a text are decoded to it. -/
theorem decode_toUTF8 (text : String) : decode text.toUTF8 = .ok text := by
  have hvalid : text.toUTF8.IsValidUTF8 := text.isValidUTF8
  rw [decode, String.fromUTF8?, dif_pos hvalid]
  rfl

/-- The token Secret of `admin`, under the name that the token Secret of `ci`
    would have. -/
def adminToken : Secret where
  name := "clustervision-ci-token"
  ns := "apps"
  annotations := [(serviceAccountName, "admin")]
  labels := []
  type := tokenType
  data := some [("token", "admin-token".toUTF8)]

/-- A cluster with both accounts and that Secret. -/
def withAdminToken : World :=
  World.fresh.setCluster "local" { Cluster.fresh with
    serviceAccounts := (Table.empty.put ⟨"admin", "apps", []⟩).put
      ⟨"ci", "apps", []⟩
    secrets := Table.empty.put adminToken }

theorem secretToken_adminToken :
    secretToken adminToken = .ok (some "admin-token") := by
  have hbytes : tokenBytes adminToken = some "admin-token".toUTF8 := rfl
  rw [secretToken, hbytes]
  show (decode _).map some = _
  rw [decode_toUTF8]
  rfl

theorem misnamed_adminToken : Misnamed withAdminToken "local" "ci" "apps" := by
  refine ⟨adminToken, "admin-token", ?_, rfl, secretToken_adminToken, ?_, ?_⟩
  · decide +kernel
  · decide
  · intro t ht _ hown
    obtain rfl := List.mem_singleton.mp (show t ∈ [adminToken] from ht)
    exact absurd hown.annotated (by decide)

/-- The kubeconfig of `ci` carries the token of `admin`. -/
theorem ci_serves_adminToken :
    ((getSaToken "local" "ci" "apps").run handle withAdminToken).1
        = .ok "admin-token" ∧
      ¬ ServesOwn withAdminToken "local" "ci" "apps" := by
  constructor
  · rw [(getSaToken_of_named (namedToken_eq_some.mpr
      ⟨adminToken, by decide +kernel, rfl, secretToken_adminToken⟩)).1]
  · rintro ⟨hreturned, -⟩
    obtain ⟨token, hok, haccepted, hissued⟩ :=
      serves_misnamed misnamed_adminToken
    exact (hreturned token hok).elim haccepted hissued

end CvKubeconfig
