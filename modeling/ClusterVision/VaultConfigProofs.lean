import ClusterVision.VaultSyncProofs

/-! # What a PUT of the Vault configuration leaves

    `set_vault_config` writes the row first, and finds out afterwards whether
    what it wrote makes a service, and whether that service can ask Vault for
    its health.  A PUT that the database takes is answered with the status of
    the service exactly when the address has more than slashes and the health
    check raises nothing but a `VaultError`.  Otherwise it fails after the row
    and the service have become what the payload asks for. -/

namespace CvVault

open CvBackend

/-! ## What keeps a service -/

/-- A configuration keeps the service that has it. -/
theorem applyConfig_eq_self_iff (svc : Option VaultService)
    (dict : Option ConfigDict) :
    applyConfig svc dict = svc ↔ svc.map (·.config) = usableDict dict := by
  constructor
  · intro h
    rw [← applyConfig_config svc dict, h]
  · intro h
    cases svc with
    | none =>
        have hnone := (applyConfig_config none dict).trans h.symm
        exact Option.map_eq_none_iff.mp hnone
    | some current =>
        cases dict with
        | none => cases h
        | some dict =>
            cases dict with
            | disabled => cases h
            | full cfg =>
                have husable : some current.config = usable cfg := h
                rw [usable] at husable
                by_cases hempty : cfg.normalized.addr = "" ∨
                    cfg.normalized.token = ""
                · rw [if_pos hempty] at husable
                  cases husable
                · rw [if_neg hempty] at husable
                  show (if cfg.normalized.addr = "" ∨
                    cfg.normalized.token = "" then none else
                      if current.config ≠ cfg.normalized then _
                      else some current) = some current
                  rw [if_neg hempty,
                    if_neg (not_not.mpr (Option.some.inj husable))]

/-- A sync that reads the row keeps the service with the effective
    configuration. -/
theorem synced_eq_self_iff (env : Settings) (svc : Option VaultService)
    (row : Option VaultConfigRow) :
    synced env svc (some row) = svc
      ↔ svc.map (·.config) = effectiveConfig env row := by
  rw [← synced_config env svc row, synced, applyConfig_eq_self_iff,
    applyConfig_config]

/-- A sync that cannot read it keeps every service. -/
theorem synced_unread {env : Settings} {svc : Option VaultService}
    (h : svc ≠ none) : synced env svc none = svc := if_neg h

/-! ## The token -/

/-- The service of the worker is the one that a sync of `get_vault_service`
    would leave. -/
def SyncKeeps (env : Settings) (o : Outside) (s : Site) : Prop :=
  syncDue false o.syncTime s.worker = false ∨
    if o.readable = true then
      s.worker.vaultSvc.map (·.config) = effectiveConfig env s.row
    else s.worker.vaultSvc ≠ none

/-- The look for a token leaves the service: the payload has one, or the sync
    keeps the service. -/
def TokenKeeps (env : Settings) (o : Outside) (payload : VaultConfig)
    (s : Site) : Prop :=
  payload.config.token ≠ "" ∨ SyncKeeps env o s

variable {env : Settings} {o : Outside} {payload : VaultConfig} {s s' : Site}
  {token : String} {cfg : Config}

theorem getVaultService_row :
    (s.getVaultService env o.syncTime o.readable).row = s.row := by
  rw [Site.getVaultService]
  split
  · rfl
  · rfl

theorem getVaultService_keeps_iff
    (h : (s.getVaultService env o.syncTime o.readable).worker.vaultSvc
      ≠ none) :
    (s.getVaultService env o.syncTime o.readable).worker.vaultSvc
      = s.worker.vaultSvc ↔ SyncKeeps env o s := by
  rw [Site.getVaultService] at h ⊢
  rw [SyncKeeps]
  by_cases hdue : syncDue false o.syncTime s.worker = true
  · rw [if_pos hdue] at h ⊢
    rw [hdue, or_iff_right (nofun : ¬ true = false)]
    change synced env s.worker.vaultSvc
      (if o.readable = true then some s.row else none) ≠ none at h
    change synced env s.worker.vaultSvc
      (if o.readable = true then some s.row else none) = _ ↔ _
    by_cases hreadable : o.readable = true
    · rw [if_pos hreadable, if_pos hreadable]
      exact synced_eq_self_iff env s.worker.vaultSvc s.row
    · rw [if_neg hreadable] at h ⊢
      rw [if_neg hreadable]
      constructor
      · intro hsame
        rw [← hsame]
        exact h
      · exact synced_unread
  · rw [if_neg hdue]
    exact ⟨fun _ => Or.inl (Bool.eq_false_iff.mpr hdue), fun _ => rfl⟩

/-- The look for a token changes nothing but the service. -/
theorem tokenToWrite_spec
    (h : tokenToWrite env o payload s = (some token, s')) :
    s'.row = s.row ∧
      (s'.worker.vaultSvc = s.worker.vaultSvc
        ↔ TokenKeeps env o payload s) := by
  rw [tokenToWrite] at h
  rw [TokenKeeps]
  by_cases hgiven : payload.config.token ≠ ""
  · rw [if_pos hgiven] at h
    obtain ⟨-, rfl⟩ := Prod.mk.inj h
    exact ⟨rfl, fun _ => Or.inl hgiven, fun _ => rfl⟩
  · rw [if_neg hgiven] at h
    obtain ⟨htoken, rfl⟩ := Prod.mk.inj h
    refine ⟨getVaultService_row, ?_⟩
    rw [or_iff_right hgiven]
    refine getVaultService_keeps_iff (fun hnone => ?_)
    rw [hnone] at htoken
    exact nomatch htoken

/-! ## The write -/

/-- The database takes the configuration. -/
def Writable (o : Outside) (cfg : Config) : Prop :=
  o.fault = none ∧ cfg.fits = true

theorem configureVault_refused {t : Int} (h : ¬ Writable o cfg) :
    ∃ e, s.configureVault o.fault t cfg = (.error e, s) := by
  cases hfault : o.fault with
  | some e => exact ⟨e, rfl⟩
  | none =>
      have hfits : ¬ cfg.fits = true := fun hfits => h ⟨hfault, hfits⟩
      have hrow : writeConfigRow (.full cfg) = .error .dataError := if_neg hfits
      refine ⟨.dataError, ?_⟩
      rw [Site.configureVault, hrow]

/-- The row and the service after a write. -/
def Site.configured (s : Site) (t : Int) (cfg : Config) : Site where
  row := some ⟨true, cfg⟩
  worker :=
    { s.worker with
      vaultSvc := applyConfig s.worker.vaultSvc (some (.full cfg))
      lastSync := s.worker.monotonic t }

theorem configureVault_written {t : Int} (h : Writable o cfg) :
    s.configureVault o.fault t cfg
      = (.ok (applyConfig s.worker.vaultSvc (some (.full cfg))),
        s.configured t cfg) := by
  have hrow : writeConfigRow (.full cfg) = .ok ⟨true, cfg⟩ := if_pos h.2
  rw [h.1, Site.configureVault, hrow]
  rfl

/-- What every worker makes of the row that was written. -/
theorem reread_written (env : Settings) (svc : Option VaultService)
    (cfg : Config) :
    (synced env svc (some (some ⟨true, cfg⟩))).map (·.config) = usable cfg := by
  rw [synced_config, effectiveConfig, if_pos rfl]

@[simp] theorem configured_vaultSvc (s : Site) (t : Int) (cfg : Config) :
    (s.configured t cfg).worker.vaultSvc
      = applyConfig s.worker.vaultSvc (some (.full cfg)) := rfl

/-- What the worker that writes makes of it. -/
theorem configured_config (s : Site) (t : Int) (cfg : Config) :
    (s.configured t cfg).worker.vaultSvc.map (·.config) = usable cfg := by
  rw [configured_vaultSvc, applyConfig_config, usableDict]

theorem usable_normalized (haddr : cfg.normalized.addr ≠ "")
    (htoken : cfg.token ≠ "") : usable cfg = some cfg.normalized := by
  rw [usable, if_neg]
  rintro (hempty | hempty)
  · exact haddr hempty
  · exact htoken hempty

theorem usable_slashes (haddr : cfg.normalized.addr = "") :
    usable cfg = none := by
  rw [usable, if_pos (Or.inl haddr)]

/-- A write with an address of slashes leaves no service. -/
theorem configured_none (s : Site) (t : Int)
    (haddr : cfg.normalized.addr = "") :
    (s.configured t cfg).worker.vaultSvc = none := by
  have hconfig := configured_config s t cfg
  rw [usable_slashes haddr] at hconfig
  exact Option.map_eq_none_iff.mp hconfig

/-- A write with another address leaves one with the configuration. -/
theorem configured_some (s : Site) (t : Int) (haddr : cfg.normalized.addr ≠ "")
    (htoken : cfg.token ≠ "") :
    ∃ svc, (s.configured t cfg).worker.vaultSvc = some svc ∧
      svc.config = cfg.normalized := by
  have hconfig := configured_config s t cfg
  rw [usable_normalized haddr htoken] at hconfig
  exact Option.map_eq_some_iff.mp hconfig

/-! ## The request -/

/-- An answer that `_request` returns, or turns into a `VaultError`. -/
def Answered (answer : Reply) : Prop := ∀ e, answer ≠ .raised e

theorem request_answered {answer : Reply} (h : Answered answer)
    (path : String) : ∃ error, Vault.failure "GET" path answer = .ok error := by
  cases answer with
  | json => exact ⟨none, rfl⟩
  | httpError code body =>
      rw [Vault.failure]
      split
      · exact ⟨_, rfl⟩
      · exact ⟨_, rfl⟩
  | unreachable text => exact ⟨_, rfl⟩
  | raised e => exact absurd rfl (h e)

/-- Where the database refuses the row, the PUT fails. -/
theorem setVaultConfig_refused
    (h : tokenToWrite env o payload s = (some token, s'))
    (hwrite : ¬ Writable o (payload.withToken token)) :
    ∃ e, setVaultConfig env o payload s = (.error e, s') := by
  obtain ⟨e, hconfigure⟩ := configureVault_refused (s := s')
    (t := o.writeTime) hwrite
  refine ⟨e, ?_⟩
  rw [setVaultConfig, h]
  simp only
  rw [hconfigure]

/-- Where it takes one that makes no service, the PUT fails, and there is
    none. -/
theorem setVaultConfig_unusable
    (h : tokenToWrite env o payload s = (some token, s'))
    (hwrite : Writable o (payload.withToken token))
    (hservice : (s'.configured o.writeTime
      (payload.withToken token)).worker.vaultSvc = none) :
    setVaultConfig env o payload s = (.error .attributeError,
      s'.configured o.writeTime (payload.withToken token)) := by
  rw [configured_vaultSvc] at hservice
  rw [setVaultConfig, h]
  simp only
  rw [configureVault_written hwrite, hservice]

/-- Where it takes one that makes a service, the PUT ends as the health check
    does. -/
theorem setVaultConfig_checked {svc : VaultService}
    (h : tokenToWrite env o payload s = (some token, s'))
    (hwrite : Writable o (payload.withToken token))
    (hservice : (s'.configured o.writeTime
      (payload.withToken token)).worker.vaultSvc = some svc) :
    (∃ error, Vault.failure "GET" healthPath o.answer = .ok error ∧
      setVaultConfig env o payload s = (.ok (statusPayload
        (svc.healthCheck error)), (s'.configured o.writeTime
          (payload.withToken token)).withService
            (some (svc.healthCheck error)))) ∨
    (∃ e, o.answer = .raised e ∧
      setVaultConfig env o payload s = (.error e,
        s'.configured o.writeTime (payload.withToken token))) := by
  have hconfigure : s'.configureVault o.fault o.writeTime
      (payload.withToken token) = (.ok (some svc),
        s'.configured o.writeTime (payload.withToken token)) := by
    rw [configureVault_written hwrite, ← hservice, configured_vaultSvc]
  by_cases hanswer : Answered o.answer
  · obtain ⟨error, hrequest⟩ := request_answered hanswer healthPath
    have hcheck : svc.checkHealth o.answer = .ok (svc.healthCheck error) := by
      rw [VaultService.checkHealth, hrequest]
      rfl
    refine Or.inl ⟨error, hrequest, ?_⟩
    rw [setVaultConfig, h]
    simp only [hconfigure, hcheck]
  · obtain ⟨e, hraised⟩ := not_forall_not.mp hanswer
    have hcheck : svc.checkHealth o.answer = .error e := by
      rw [hraised]
      rfl
    refine Or.inr ⟨e, hraised, ?_⟩
    rw [setVaultConfig, h]
    simp only [hconfigure, hcheck]

/-! ## The worker among the others -/

section Among

variable {ι : Type} {sys : System ι} {i : ι} {t : Int}

/-- The site is what a worker that holds no lock has of the system. -/
def Serves (sys : System ι) (i : ι) (s : Site) : Prop :=
  sys.row = s.row ∧ sys.ready i = some s.worker

theorem Serves.site (h : Serves sys i s) : sys.site s.worker = s := by
  rw [System.site, h.1]

variable [DecidableEq ι]

/-- What the worker has after it has done something. -/
theorem serves_setSite {p : Site} (h : p.worker.reading = none) :
    Serves (sys.setSite i p) i p := by
  refine ⟨rfl, ?_⟩
  show ((Function.update sys.workers i (some p.worker)) i).filter _
    = some p.worker
  rw [Function.update_self]
  exact Option.filter_eq_some_iff.mpr ⟨rfl, decide_eq_true h⟩

/-- `get_vault_service` of a site is that of the worker, to the end of its
    read. -/
theorem serves_getVaultService {readable : Bool} (h : Serves sys i s) :
    Serves ((sys.get t i).read env i readable) i
      (s.getVaultService env t readable) := by
  obtain ⟨hworker, hreading⟩ := ready_eq_some h.2
  rw [System.get, h.2, Site.getVaultService]
  by_cases hdue : syncDue false t s.worker = true
  · simp only [if_pos hdue, h.site]
    -- between the two halves the worker holds the lock
    have hbegun : (sys.setSite i (s.beginSync .getting t)).workers i
        = some (s.beginSync .getting t).worker := Function.update_self ..
    have hreads : ¬ (s.beginSync .getting t).worker.reading = none :=
      Option.some_ne_none _
    rw [System.read, hbegun]
    simp only [if_neg hreads]
    exact serves_setSite rfl
  · simp only [if_neg hdue]
    rw [System.read, hworker]
    simp only [if_pos hreading]
    exact h

/-- So is `configure_vault`, where the database has no fault. -/
theorem serves_configureVault (h : Serves sys i s) :
    Serves (sys.configure t i cfg) i (s.configureVault none t cfg).2 := by
  have hreading := (ready_eq_some h.2).2
  rw [System.configure, h.2]
  simp only [h.site]
  refine serves_setSite ?_
  rw [Site.configureVault]
  cases writeConfigRow (.full cfg) with
  | error e => exact hreading
  | ok row => exact hreading

/-- And so is a health check. -/
theorem serves_healthCheck {error : Option String} (h : Serves sys i s) :
    Serves (sys.healthCheck i error) i (s.healthCheck error) := by
  obtain ⟨hworker, hreading⟩ := ready_eq_some h.2
  rw [System.healthCheck, hworker]
  simp only [h.site]
  exact serves_setSite hreading

end Among

/-! ## All or nothing -/

/-- The PUT answers with the status of a service that has the normalized
    configuration, and so has every service that a worker makes of the row. -/
def Works (cfg : Config) (r : Except Exn Status × Site) : Prop :=
  ∃ svc, r.1 = .ok (statusPayload svc) ∧ r.2.worker.vaultSvc = some svc ∧
    svc.config = cfg.normalized ∧
    ∀ env svc', (synced env svc' (some r.2.row)).map (·.config)
      = some cfg.normalized

/-- The PUT fails, and leaves the row and the service. -/
def Unchanged (s : Site) (r : Except Exn Status × Site) : Prop :=
  (∃ e, r.1 = .error e) ∧ r.2.row = s.row ∧
    r.2.worker.vaultSvc = s.worker.vaultSvc

/-- A configuration that makes a service, which can ask Vault for its
    health. -/
def Usable (o : Outside) (cfg : Config) : Prop :=
  cfg.normalized.addr ≠ "" ∧ Answered o.answer

/-- The row and the service are already what the configuration makes of
    them. -/
def Settled (s : Site) (cfg : Config) : Prop :=
  s.row = some ⟨true, cfg⟩ ∧ s.worker.vaultSvc.map (·.config) = usable cfg

theorem works_error {e : Exn} : ¬ Works cfg (.error e, s) := by
  rintro ⟨svc, hok, -⟩
  exact nomatch hok

theorem unchanged_error {e : Exn} :
    Unchanged s (.error e, s') ↔ s'.row = s.row ∧
      s'.worker.vaultSvc = s.worker.vaultSvc :=
  and_iff_right ⟨e, rfl⟩

/-- In a settled site, the look for a token leaves the service. -/
theorem tokenKeeps_of_settled {svc : VaultService}
    (hsettled : Settled s cfg) (hservice : s.worker.vaultSvc = some svc) :
    TokenKeeps env o payload s := by
  refine Or.inr (Or.inr ?_)
  by_cases hreadable : o.readable = true
  · rw [if_pos hreadable, hsettled.1, hsettled.2]
    rfl
  · rw [if_neg hreadable, hservice]
    exact Option.some_ne_none svc

/-- A write leaves the row and the service of a settled site, and of no
    other. -/
theorem configured_unchanged_iff (t : Int) (cfg : Config)
    (hkeeps : s'.worker.vaultSvc = s.worker.vaultSvc
      ↔ TokenKeeps env o payload s) :
    ((s'.configured t cfg).row = s.row ∧
      (s'.configured t cfg).worker.vaultSvc = s.worker.vaultSvc)
      ↔ Settled s cfg := by
  have happlied := configured_config s' t cfg
  constructor
  · rintro ⟨hwritten, hservice⟩
    refine ⟨hwritten.symm, ?_⟩
    rw [← hservice]
    exact happlied
  · intro hsettled
    refine ⟨hsettled.1.symm, ?_⟩
    cases hservice : s.worker.vaultSvc with
    | none =>
        rw [← hsettled.2, hservice] at happlied
        exact Option.map_eq_none_iff.mp happlied
    | some svc =>
        have hsame : s'.worker.vaultSvc = some svc :=
          (hkeeps.mpr (tokenKeeps_of_settled hsettled hservice)).trans hservice
        rw [configured_vaultSvc, hsame, applyConfig_eq_self_iff, ← hservice]
        exact hsettled.2

/-- A PUT of slashes fails; it changes nothing in a settled site only. -/
theorem put_slashes_iff
    (h : tokenToWrite env o payload s = (some token, s'))
    (hwrite : Writable o (payload.withToken token))
    (haddr : (payload.withToken token).normalized.addr = "") :
    (Works (payload.withToken token) (setVaultConfig env o payload s) ∨
      Unchanged s (setVaultConfig env o payload s))
      ↔ Settled s (payload.withToken token) := by
  have hservice := configured_none s' o.writeTime haddr
  rw [setVaultConfig_unusable h hwrite hservice, or_iff_right works_error,
    unchanged_error]
  exact configured_unchanged_iff o.writeTime (payload.withToken token)
    (tokenToWrite_spec h).2

/-- A PUT of an address works when the health request is answered; otherwise it
    changes nothing in a settled site only. -/
theorem put_address_iff (hne : token ≠ "")
    (h : tokenToWrite env o payload s = (some token, s'))
    (hwrite : Writable o (payload.withToken token))
    (haddr : (payload.withToken token).normalized.addr ≠ "") :
    (Works (payload.withToken token) (setVaultConfig env o payload s) ∨
      Unchanged s (setVaultConfig env o payload s))
      ↔ Answered o.answer ∨ Settled s (payload.withToken token) := by
  obtain ⟨svc, hservice, hconfig⟩ := configured_some s' o.writeTime haddr hne
  rcases setVaultConfig_checked h hwrite hservice with
    ⟨error, hrequest, hput⟩ | ⟨e, hraised, hput⟩
  · have hanswered : Answered o.answer := by
      intro e hraised
      rw [hraised] at hrequest
      exact nomatch hrequest
    rw [hput]
    refine iff_of_true (Or.inl ⟨_, rfl, rfl, hconfig, ?_⟩) (Or.inl hanswered)
    intro env' svc'
    exact (reread_written env' svc' _).trans (usable_normalized haddr hne)
  · have hnot : ¬ Answered o.answer := fun hanswered => hanswered e hraised
    rw [hput, or_iff_right works_error, or_iff_right hnot, unchanged_error]
    exact configured_unchanged_iff o.writeTime (payload.withToken token)
      (tokenToWrite_spec h).2

/-- A PUT that the database refuses changes nothing when the look for a token
    does not. -/
theorem put_refused_iff (h : tokenToWrite env o payload s = (some token, s'))
    (hwrite : ¬ Writable o (payload.withToken token)) :
    (Works (payload.withToken token) (setVaultConfig env o payload s) ∨
      Unchanged s (setVaultConfig env o payload s))
      ↔ TokenKeeps env o payload s := by
  obtain ⟨hrow, hkeeps⟩ := tokenToWrite_spec h
  obtain ⟨e, hput⟩ := setVaultConfig_refused h hwrite
  rw [hput, or_iff_right works_error, unchanged_error, and_iff_right hrow]
  exact hkeeps

/-- **A PUT WORKS OR CHANGES NOTHING** exactly when: of a configuration that the
    database takes, it makes a service that can ask Vault for its health, or
    the row and the service are already what it asks for; and before a refused
    one, the look for a token leaves the service. -/
theorem put_works_or_unchanged_iff (hne : token ≠ "")
    (h : tokenToWrite env o payload s = (some token, s')) :
    (Works (payload.withToken token) (setVaultConfig env o payload s) ∨
      Unchanged s (setVaultConfig env o payload s))
      ↔ (Writable o (payload.withToken token) →
          Usable o (payload.withToken token) ∨
            Settled s (payload.withToken token)) ∧
        (¬ Writable o (payload.withToken token) →
          TokenKeeps env o payload s) := by
  by_cases hwrite : Writable o (payload.withToken token)
  · rw [and_iff_left (fun hnot => absurd hwrite hnot),
      forall_prop_of_true hwrite, Usable]
    by_cases haddr : (payload.withToken token).normalized.addr = ""
    · rw [put_slashes_iff h hwrite haddr]
      exact (or_iff_right (fun husable => husable.1 haddr)).symm
    · rw [put_address_iff hne h hwrite haddr, and_iff_right haddr]
  · rw [and_iff_right (fun hyes => absurd hyes hwrite),
      forall_prop_of_true hwrite]
    exact put_refused_iff h hwrite

/-- A payload with the address of a Vault. -/
def vaultPayload : VaultConfig where
  config := { addr := "https://vault/", token := "t" }
  minLength := by decide

/-- A worker without a service, and a table without a row. -/
def newSite : Site := ⟨none, newWorker 0⟩

/-- A request that meets no fault, and a Vault that answers. -/
def calm : Outside := ⟨0, true, 0, none, .json⟩

/-- The PUT of that address, where nothing was configured. -/
theorem put_works_or_unchanged_vault :
    Works (vaultPayload.withToken "t")
      (setVaultConfig {} calm vaultPayload newSite) := by
  refine ((put_works_or_unchanged_iff (by decide) rfl).mpr
    ⟨fun _ => Or.inl ⟨by decide, ?_⟩, fun hwrite => ?_⟩).resolve_right ?_
  · intro e hraised
    cases hraised
  · exact absurd ⟨rfl, by decide⟩ hwrite
  · rintro ⟨⟨e, he⟩, -⟩
    cases he

/-- A payload whose address is a slash, which has a character. -/
def slashPayload : VaultConfig where
  config := { addr := "/", token := "t" }
  minLength := by decide

/-- The PUT of that payload fails, and leaves a row that makes no service. -/
theorem slash_is_half_configured :
    setVaultConfig {} calm slashPayload newSite
        = (.error .attributeError,
          newSite.configured 0 (slashPayload.withToken "t")) ∧
    ¬ (Works (slashPayload.withToken "t")
        (setVaultConfig {} calm slashPayload newSite) ∨
      Unchanged newSite (setVaultConfig {} calm slashPayload newSite)) := by
  have hput : setVaultConfig {} calm slashPayload newSite
      = (.error .attributeError,
        newSite.configured 0 (slashPayload.withToken "t")) := by decide
  refine ⟨hput, ?_⟩
  rw [hput]
  rintro (hworks | hunchanged)
  · exact works_error hworks
  · exact nomatch (unchanged_error.mp hunchanged).1

end CvVault
