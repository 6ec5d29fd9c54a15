import ClusterVision.VaultService
import ClusterVision.TimedRunProofs
import Mathlib.Data.Int.Order.Basic

/-! # How far a worker is behind the Vault configuration

    `get_vault_service` answers from the service that the worker keeps, which
    was made from the shared row at some time.  The effective configuration is
    what a reader of the row would use at that time.  In every run, whatever a
    worker answers was effective less than one interval ago: a worker notes
    the time of its sync before it reads the row, and what it writes itself it
    also applies. -/

namespace CvVault

open CvRun CvTimed

/-! ## The effective configuration -/

/-- What a configuration comes to: its normalized form, unless that has no
    address or no token. -/
def usable (cfg : Config) : Option Config :=
  if cfg.normalized.addr = "" ∨ cfg.normalized.token = "" then none
  else some cfg.normalized

/-- What a dictionary comes to. -/
def usableDict : Option ConfigDict → Option Config
  | some (.full cfg) => usable cfg
  | _ => none

/-- The effective configuration: that of the row, or that of the environment
    when there is no row. -/
def effectiveConfig (env : Settings) : Option VaultConfigRow → Option Config
  | some row => if row.enabled = true then usable row.config else none
  | none => usableDict (envConfig env)

/-- Both ways to a service, from what was just written and from what is read
    again, come to the same. -/
theorem applyConfig_config (svc : Option VaultService)
    (dict : Option ConfigDict) :
    (applyConfig svc dict).map (·.config) = usableDict dict := by
  cases dict with
  | none => rfl
  | some dict =>
      cases dict with
      | disabled => rfl
      | full cfg =>
          show (if cfg.normalized.addr = "" ∨ cfg.normalized.token = "" then none
            else _ : Option VaultService).map _ = usable cfg
          rw [usable]
          by_cases hempty : cfg.normalized.addr = "" ∨
              cfg.normalized.token = ""
          · rw [if_pos hempty, if_pos hempty]
            rfl
          · rw [if_neg hempty, if_neg hempty]
            cases svc with
            | none => rfl
            | some current =>
                by_cases hsame : current.config ≠ cfg.normalized
                · exact congrArg _ (if_pos hsame)
                · refine (congrArg _ (if_neg hsame)).trans ?_
                  exact congrArg some (not_not.mp hsame)

/-- A sync that reads the row comes to the effective configuration. -/
theorem synced_config (env : Settings) (svc : Option VaultService)
    (row : Option VaultConfigRow) :
    (synced env svc (some row)).map (·.config) = effectiveConfig env row := by
  rw [synced, applyConfig_config]
  cases row with
  | none => rfl
  | some row =>
      show usableDict (some (if row.enabled = true then .full row.config
        else .disabled)) = _
      rw [effectiveConfig]
      by_cases henabled : row.enabled = true
      · rw [if_pos henabled, if_pos henabled]
        rfl
      · rw [if_neg henabled, if_neg henabled]
        rfl

/-! ## Steps -/

variable {ι : Type} {env : Settings} {s : System ι} {t : Int}
  {i j : ι} {w : Worker} {cfg : Config}

theorem ready_eq_some (h : s.ready i = some w) :
    s.workers i = some w ∧ w.reading = none := by
  obtain ⟨hw, hreading⟩ := Option.filter_eq_some_iff.mp h
  exact ⟨hw, of_decide_eq_true hreading⟩

/-- An answer from the row. -/
theorem fresh_read {svc : Option VaultService} {readable : Bool}
    (hreadable : readable = true)
    (hret : returned env s (t, .read i readable) = some svc) :
    svc.map (·.config) = effectiveConfig env s.row := by
  obtain rfl := hreadable
  cases hw : s.workers i with
  | none =>
      rw [returned, hw] at hret
      cases hret
  | some w =>
      rw [returned, hw] at hret
      change (if w.reading = some .getting then
        some (synced env w.vaultSvc (some s.row)) else none) = some svc at hret
      by_cases hgetting : w.reading = some .getting
      · rw [if_pos hgetting] at hret
        rw [← Option.some.inj hret]
        exact synced_config env w.vaultSvc s.row
      · rw [if_neg hgetting] at hret
        cases hret

/-- The row marks a disable. -/
def RowDisabled (s : System ι) : Prop :=
  ∃ row, s.row = some row ∧ row.enabled = false

theorem effectiveConfig_disabled (h : RowDisabled s) :
    effectiveConfig env s.row = none := by
  obtain ⟨row, hrow, henabled⟩ := h
  rw [hrow, effectiveConfig, henabled]
  rfl

variable [DecidableEq ι]

@[simp] theorem setWorker_self (s : System ι) (i : ι) (w : Worker) :
    (s.setWorker i w).workers i = some w := Function.update_self ..

theorem setWorker_ne (s : System ι) (w : Worker) (h : j ≠ i) :
    (s.setWorker i w).workers j = s.workers j := Function.update_of_ne h ..

@[simp] theorem setWorker_row (s : System ι) (i : ι) (w : Worker) :
    (s.setWorker i w).row = s.row := rfl

/-- A worker that does nothing leaves the system as it is. -/
theorem setSite_site {w : Worker} (hw : s.workers i = some w) :
    s.setSite i (s.site w) = s := by
  show (⟨s.row, Function.update s.workers i (some w)⟩ : System ι) = s
  rw [← hw, Function.update_eq_self]

/-- What a step makes of the worker that takes it, and of the row. -/
inductive Took (env : Settings) (s : System ι) (t : Int) (i : ι) :
    Worker → Option VaultConfigRow → Prop where
  | began (w : Worker) (reading : Reading) :
      Took env s t i (beginSync reading t w) s.row
  | read (w : Worker) (hw : s.workers i = some w) :
      Took env s t i (endSync env (some s.row) w) s.row
  | applied (w : Worker) (row : VaultConfigRow) (svc : Option VaultService)
      (hsvc : svc.map (·.config) = effectiveConfig env (some row)) :
      Took env s t i { w with vaultSvc := svc, lastSync := w.monotonic t }
        (some row)
  | checked (w : Worker) (hw : s.workers i = some w) (error : Option String) :
      Took env s t i { w with vaultSvc := w.vaultSvc.map (·.healthCheck error) }
        s.row

/-- Nothing happens, or a worker takes a step. -/
def Moves (env : Settings) (s : System ι) (t : Int) (s' : System ι) : Prop :=
  s' = s ∨ ∃ i w row, Took env s t i w row ∧
    s' = ({ s with row := row } : System ι).setWorker i w

/-- Every step whose read does not fail is one of these. -/
theorem act_moves {a : Act ι} (hread : ∀ i, a ≠ .read i false) :
    Moves env s t (act env (t, a) s) := by
  cases a with
  | init i origin => exact Or.inr ⟨i, _, _, .began (newWorker origin) _, rfl⟩
  | get i =>
      show Moves env s t (s.get t i)
      rw [System.get]
      cases hw : s.ready i with
      | none => exact Or.inl rfl
      | some w =>
          by_cases hdue : syncDue false t w = true
          · exact Or.inr ⟨i, _, _, .began w _, if_pos hdue⟩
          · exact Or.inl (if_neg hdue)
  | read i readable =>
      cases readable with
      | false => exact absurd rfl (hread i)
      | true =>
          show Moves env s t (s.read env i true)
          rw [System.read]
          cases hw : s.workers i with
          | none => exact Or.inl rfl
          | some w =>
              by_cases hnone : w.reading = none
              · exact Or.inl (if_pos hnone)
              · exact Or.inr ⟨i, _, _, .read w hw, if_neg hnone⟩
  -- a value that does not fit its column is refused, and nothing is written
  | configure i cfg =>
      show Moves env s t (s.configure t i cfg)
      rw [System.configure]
      cases hready : s.ready i with
      | none => exact Or.inl rfl
      | some w =>
          simp only [Site.configureVault, writeConfigRow]
          by_cases hfits : cfg.fits = true
          · rw [if_pos hfits]
            exact Or.inr ⟨i, _, _, .applied w _ _ (applyConfig_config _ _), rfl⟩
          · rw [if_neg hfits]
            exact Or.inl (setSite_site (ready_eq_some hready).1)
  | disable i =>
      show Moves env s t (s.disable t i)
      rw [System.disable]
      cases s.ready i with
      | none => exact Or.inl rfl
      | some w => exact Or.inr ⟨i, _, _, .applied w _ none rfl, rfl⟩
  | healthCheck i error =>
      show Moves env s t (s.healthCheck i error)
      rw [System.healthCheck]
      cases hw : s.workers i with
      | none => exact Or.inl rfl
      | some w => exact Or.inr ⟨i, _, _, .checked w hw error, rfl⟩

/-! ## Runs -/

/-- No worker runs yet. -/
def stopped (row : Option VaultConfigRow) : System ι := ⟨row, fun _ => none⟩

variable {row : Option VaultConfigRow} {ks : List (Int × Act ι)}

/-- The service was made from the effective configuration, at a time that is
    no earlier than the one noted as the last sync. -/
def Current (env : Settings) (s₀ : System ι) (ks : List (Int × Act ι))
    (w : Worker) (l : Int) : Prop :=
  ∃ τ, l ≤ τ ∧ (∃ k ∈ ks, τ ≤ k.1) ∧ InForce (act env) ks s₀ τ (fun s =>
    w.vaultSvc.map (·.config) = effectiveConfig env s.row)

/-- What a worker knows, unless it waits for the row. -/
def Synced (env : Settings) (s₀ : System ι) (ks : List (Int × Act ι))
    (w : Worker) : Prop :=
  ∃ l, w.lastSync = l + w.origin ∧ (∃ k ∈ ks, l ≤ k.1) ∧
    (w.reading = none → Current env s₀ ks w l)

/-- The steps of others leave a worker what it knows. -/
theorem Synced.append {s₀ : System ι} {k : Int × Act ι}
    (h : Synced env s₀ ks w) (hk : ∀ l ∈ ks, l.1 ≤ k.1) :
    Synced env s₀ (ks ++ [k]) w := by
  obtain ⟨l, hlast, ⟨k₁, hk₁, hl⟩, hcurrent⟩ := h
  refine ⟨l, hlast, ⟨k₁, List.mem_append_left _ hk₁, hl⟩, fun hidle => ?_⟩
  obtain ⟨τ, hle, ⟨k₂, hk₂, hτ⟩, hforce⟩ := hcurrent hidle
  refine ⟨τ, hle, ⟨k₂, List.mem_append_left _ hk₂, hτ⟩, hforce.append ?_⟩
  intro k' hk'
  rw [List.mem_singleton.mp hk']
  exact hτ.trans (hk k₂ hk₂)

/-- The worker that takes a step knows what it needs to. -/
theorem synced_took {s₀ : System ι} {a : Act ι} {row : Option VaultConfigRow}
    (htook : Took env s t i w row)
    (hold : ∀ w, s.workers i = some w → Synced env s₀ ks w)
    (hk : ∀ l ∈ ks, l.1 ≤ t)
    (hrow : (after (act env) (ks ++ [(t, a)]) s₀).row = row) :
    Synced env s₀ (ks ++ [(t, a)]) w := by
  have hnew : (t, a) ∈ ks ++ [(t, a)] :=
    List.mem_append_right _ (List.mem_singleton.mpr rfl)
  have hlast : ∀ l ∈ ks ++ [(t, a)], l.1 ≤ t := by
    intro l hl
    rcases List.mem_append.mp hl with hl | hl
    · exact hk l hl
    · rw [List.mem_singleton.mp hl]
  cases htook with
  | began w reading =>
      exact ⟨t, rfl, ⟨_, hnew, le_refl t⟩, fun hidle => nomatch hidle⟩
  | read w hw =>
      -- the row that was read is the one in force now
      obtain ⟨l, hsync, ⟨k, hkmem, hl⟩, -⟩ := hold w hw
      refine ⟨l, hsync, ⟨k, List.mem_append_left _ hkmem, hl⟩, fun _ => ?_⟩
      refine ⟨t, hl.trans (hk k hkmem), ⟨_, hnew, le_refl t⟩,
        inForce_last hlast ?_⟩
      rw [hrow]
      exact synced_config env w.vaultSvc s.row
  | applied w row svc hsvc =>
      refine ⟨t, rfl, ⟨_, hnew, le_refl t⟩, fun _ => ?_⟩
      refine ⟨t, le_refl t, ⟨_, hnew, le_refl t⟩, inForce_last hlast ?_⟩
      rw [hrow]
      exact hsvc
  | checked w hw error =>
      obtain ⟨l, hsync, hpast, hcurrent⟩ := (hold w hw).append (k := (t, a)) hk
      refine ⟨l, hsync, hpast, fun hidle => ?_⟩
      obtain ⟨τ, hle, hτ, hforce⟩ := hcurrent hidle
      refine ⟨τ, hle, hτ, hforce.imp (fun s hs => ?_)⟩
      rw [Option.map_map]
      exact hs

/-- Every worker knows what it needs to, in every run. -/
theorem synced_run (row : Option VaultConfigRow) (hks : InOrder ks)
    (hread : ∀ k ∈ ks, ∀ i, k.2 ≠ .read i false) :
    ∀ i w, (after (act env) ks (stopped row)).workers i = some w →
      Synced env (stopped row) ks w := by
  refine hks.inv (J := fun ks (s : System ι) => ∀ i w, s.workers i = some w →
    Synced env (stopped row) ks w) (fun i w hw => nomatch hw) ?_
  rintro pre ⟨t, a⟩ hmem hpast hbefore i w hw
  have hreadable : ∀ i, a ≠ .read i false := hread (t, a) hmem
  rcases act_moves hreadable with hsame | ⟨j, w', row', htook, hstep⟩
  · rw [hsame] at hw
    exact (hbefore i w hw).append hpast
  · rw [hstep] at hw
    by_cases hij : i = j
    · rw [hij, setWorker_self] at hw
      obtain rfl := Option.some.inj hw
      refine synced_took htook (hbefore j) hpast ?_
      rw [after_append, after_cons, after_nil, hstep]
      rfl
    · rw [setWorker_ne _ _ hij] at hw
      exact (hbefore i w hw).append hpast

/-- What `get_vault_service` returns was effective less than one interval
    before. -/
def Fresh (env : Settings) (s₀ : System ι) (ks : List (Int × Act ι)) : Prop :=
  ∀ pre t a post svc, ks = pre ++ (t, a) :: post →
    returned env (after (act env) pre s₀) (t, a) = some svc →
    ∃ τ, t - syncInterval < τ ∧ τ ≤ t ∧ InForce (act env) ks s₀ τ (fun s =>
      svc.map (·.config) = effectiveConfig env s.row)

/-- An answer from the service that the worker keeps: no sync was due. -/
theorem fresh_get {s₀ : System ι} {svc : Option VaultService}
    (hsynced : ∀ w, s.workers i = some w → Synced env s₀ ks w)
    (hks : ∀ l ∈ ks, l.1 ≤ t)
    (hret : returned env s (t, .get i) = some svc) :
    ∃ τ, t - syncInterval < τ ∧ τ ≤ t ∧ InForce (act env) ks s₀ τ (fun s =>
      svc.map (·.config) = effectiveConfig env s.row) := by
  cases hready : s.ready i with
  | none =>
      rw [returned, hready] at hret
      cases hret
  | some w =>
      rw [returned, hready] at hret
      change (if syncDue false t w = true then none else some w.vaultSvc)
        = some svc at hret
      obtain ⟨hw, hidle⟩ := ready_eq_some hready
      obtain ⟨l, hsync, -, hcurrent⟩ := hsynced w hw
      obtain ⟨τ, hle, ⟨k, hk, hτ⟩, hforce⟩ := hcurrent hidle
      by_cases hdue : syncDue false t w = true
      · rw [if_pos hdue] at hret
        cases hret
      · rw [if_neg hdue] at hret
        obtain rfl := Option.some.inj hret
        -- no sync was due, so the last one is less than an interval ago
        have hnot : ¬ syncInterval ≤ t + w.origin - w.lastSync := by
          intro hyes
          exact hdue (decide_eq_true hyes)
        refine ⟨τ, ?_, hτ.trans (hks k hk), hforce⟩
        omega

theorem fresh_run (row : Option VaultConfigRow) (hks : InOrder ks)
    (hread : ∀ k ∈ ks, ∀ i, k.2 ≠ .read i false) :
    Fresh env (stopped row) ks := by
  intro pre t a post svc hsplit hret
  rw [hsplit] at hks hread ⊢
  have hlater : ∀ {τ}, τ ≤ t → ∀ k ∈ (t, a) :: post, τ ≤ k.1 :=
    fun hτ k hk => hτ.trans (hks.le_right k hk)
  cases a with
  | get i =>
      obtain ⟨τ, hlt, hle, hforce⟩ := fresh_get
        (synced_run row hks.left
          (fun k hk => hread k (List.mem_append_left _ hk)) i)
        hks.le_last hret
      exact ⟨τ, hlt, hle, hforce.append (hlater hle)⟩
  | read i readable =>
      have hreadable : readable = true := by
        cases readable with
        | true => rfl
        | false =>
            exact absurd rfl (hread _
              (List.mem_append_right _ (List.mem_cons_self ..)) i)
      refine ⟨t, ?_, le_refl t, pre, (t, .read i readable) :: post, rfl,
        hks.le_last, hks.le_right, fresh_read hreadable hret⟩
      show t - 30 * 1000000 < t
      omega
  | init _ _ | configure _ _ | disable _ | healthCheck _ _ => cases hret

/-- The steps that change the configuration. -/
def Act.changes : Act ι → Bool
  | .configure _ _ | .disable _ => true
  | _ => false

/-- From one interval after the last change on, every answer is what is
    effective then. -/
def Agree (env : Settings) (s₀ : System ι) (ks : List (Int × Act ι)) : Prop :=
  ∀ pre post T, ks = pre ++ post → (∀ k ∈ post, k.2.changes = false) →
    (∀ k ∈ pre, k.1 ≤ T) → ∀ mid t a rest svc, post = mid ++ (t, a) :: rest →
      T + syncInterval ≤ t →
      returned env (after (act env) (pre ++ mid) s₀) (t, a) = some svc →
      svc.map (·.config) = effectiveConfig env (after (act env) pre s₀).row

/-- After a disable, and until Vault is configured again, no configuration is
    effective, and from one interval after it on no worker has a service. -/
def StaysDisabled (env : Settings) (s₀ : System ι) (ks : List (Int × Act ι)) :
    Prop :=
  ∀ pre t i post, ks = pre ++ (t, .disable i) :: post →
    ((after (act env) pre s₀).ready i).isSome = true →
    (∀ k ∈ post, ∀ j cfg, k.2 ≠ .configure j cfg) →
    effectiveConfig env (after (act env) ks s₀).row = none ∧
      ∀ mid t' a rest svc, post = mid ++ (t', a) :: rest →
        t + syncInterval ≤ t' →
        returned env (after (act env) (pre ++ (t, .disable i) :: mid) s₀)
          (t', a) = some svc → svc = none

/-- Other steps keep the row. -/
theorem act_row {a : Act ι} (h : a.changes = false) :
    (act env (t, a) s).row = s.row := by
  cases a with
  | configure i cfg | disable i => cases h
  | init i origin => rfl
  | get i =>
      show (s.get t i).row = s.row
      rw [System.get]
      cases s.ready i with
      | none => rfl
      | some w =>
          show (if syncDue false t w = true then _ else s).row = s.row
          by_cases hdue : syncDue false t w = true
          · rw [if_pos hdue]
            rfl
          · rw [if_neg hdue]
  | read i readable =>
      show (s.read env i readable).row = s.row
      rw [System.read]
      cases s.workers i with
      | none => rfl
      | some w =>
          show (if w.reading = none then s else _).row = s.row
          by_cases hnone : w.reading = none
          · rw [if_pos hnone]
          · rw [if_neg hnone]
            rfl
  | healthCheck i error =>
      show (s.healthCheck i error).row = s.row
      rw [System.healthCheck]
      cases s.workers i with
      | none => rfl
      | some w => rfl

/-- A disable marks the row. -/
theorem rowDisabled_disable (env : Settings)
    (h : (s.ready i).isSome = true) :
    RowDisabled (act env (t, .disable i) s) := by
  show RowDisabled (s.disable t i)
  rw [System.disable]
  cases hready : s.ready i with
  | none =>
      rw [hready] at h
      cases h
  | some w => exact ⟨_, rfl, rfl⟩

/-- The mark stays until Vault is configured again. -/
theorem rowDisabled_act {a : Act ι} (hno : ∀ i cfg, a ≠ .configure i cfg)
    (h : RowDisabled s) : RowDisabled (act env (t, a) s) := by
  cases a with
  | configure i cfg => exact absurd rfl (hno i cfg)
  | disable i =>
      cases hready : s.ready i with
      | none =>
          show RowDisabled (s.disable t i)
          rw [System.disable, hready]
          exact h
      | some w => exact rowDisabled_disable env (by rw [hready]; rfl)
  | init i origin | get i | read i readable | healthCheck i error =>
      rw [RowDisabled, act_row rfl]
      exact h

/-- Between changes the row stays as it is. -/
theorem row_after {ls : List (Int × Act ι)}
    (h : ∀ k ∈ ls, k.2.changes = false) (s : System ι) :
    (after (act env) ls s).row = s.row :=
  @after_inv_of_mem _ _ _ (fun s' => s'.row = s.row) ls
    (fun _ k hk hs => (act_row (h k hk)).trans hs) s rfl

/-- A disabled row stays so until Vault is configured again. -/
theorem rowDisabled_after {ls : List (Int × Act ι)}
    (h : ∀ k ∈ ls, ∀ i cfg, k.2 ≠ .configure i cfg) (hs : RowDisabled s) :
    RowDisabled (after (act env) ls s) :=
  after_inv_of_mem (fun _ k hk hs => rowDisabled_act (h k hk) hs) hs

theorem agree_of_fresh {s₀ : System ι} (hfresh : Fresh env s₀ ks) :
    Agree env s₀ ks := by
  intro pre post T hks hquiet hT mid t a rest svc hpost hlate hret
  have hsplit : ks = (pre ++ mid) ++ (t, a) :: rest := by
    rw [hks, hpost, List.append_assoc]
  obtain ⟨τ, hlt, -, hforce⟩ := hfresh (pre ++ mid) t a rest svc hsplit hret
  rw [hks] at hforce
  have hpast : ∀ k ∈ pre, k.1 < τ := by
    intro k hk
    have hkT := hT k hk
    omega
  -- what was in force then was left after `pre`, where the row rests
  obtain ⟨done, hpre, hdone⟩ := hforce.later hpast
  rw [hdone, after_append,
    row_after (fun k hk => hquiet k (hpre.subset hk))]

theorem staysDisabled_of_fresh {s₀ : System ι} (hks : InOrder ks)
    (hfresh : Fresh env s₀ ks) : StaysDisabled env s₀ ks := by
  intro pre t i post hsplit hready hno
  have hsplit' : ks = (pre ++ [(t, .disable i)]) ++ post := by
    rw [hsplit, List.append_assoc]
    rfl
  have hbefore : ∀ k ∈ pre, k.1 ≤ t := by
    rw [hsplit] at hks
    exact hks.le_last
  have hdisabled : RowDisabled
      (after (act env) (pre ++ [(t, .disable i)]) s₀) := by
    rw [after_append]
    exact rowDisabled_disable env hready
  constructor
  · rw [hsplit', after_append]
    exact effectiveConfig_disabled (rowDisabled_after hno hdisabled)
  · intro mid t' a rest svc hpost hlate hret
    have hsplit₂ : ks = (pre ++ (t, .disable i) :: mid) ++ (t', a) :: rest := by
      rw [hsplit, hpost, List.append_assoc]
      rfl
    obtain ⟨τ, hlt, -, hforce⟩ := hfresh _ t' a rest svc hsplit₂ hret
    rw [hsplit'] at hforce
    have hpast : ∀ k ∈ pre ++ [(t, Act.disable i)], k.1 < τ := by
      intro k hk
      have hkt : k.1 ≤ t := by
        rcases List.mem_append.mp hk with hk | hk
        · exact hbefore k hk
        · rw [List.mem_singleton.mp hk]
      omega
    obtain ⟨done, hpre, hdone⟩ := hforce.later hpast
    rw [after_append, effectiveConfig_disabled (rowDisabled_after
      (fun k hk => hno k (hpre.subset hk)) hdisabled)] at hdone
    exact Option.map_eq_none_iff.mp hdone

/-- In every run of any number of workers whose clocks do not go back and whose
    reads of the row succeed, an answer was effective less than one interval
    before; so from one interval after the last change on all workers agree,
    and the environment never undoes a disable. -/
theorem one_interval_behind (env : Settings) (row : Option VaultConfigRow)
    (ks : List (Int × Act ι)) (hks : InOrder ks)
    (hread : ∀ k ∈ ks, ∀ i, k.2 ≠ .read i false) :
    Fresh env (stopped row) ks ∧ Agree env (stopped row) ks ∧
      StaysDisabled env (stopped row) ks := by
  have hfresh : Fresh env (stopped row) ks := fresh_run row hks hread
  exact ⟨hfresh, agree_of_fresh hfresh, staysDisabled_of_fresh hks hfresh⟩

/-- One worker is configured, and the other one notices half a minute later. -/
def noticed : List (Int × Act Bool) :=
  [(0, .init false 7), (0, .init true 0), (1, .read false true),
    (2, .read true true), (3, .configure false { addr := "v/", token := "t" }),
    (4, .get true), (30000000, .get true)]

theorem one_interval_behind_noticed :
    (Fresh {} (stopped none) noticed ∧ Agree {} (stopped none) noticed ∧
      StaysDisabled {} (stopped none) noticed) ∧
    (returned {} (after (act {}) noticed (stopped none))
      (30000001, .read true true)).map (Option.map (·.config))
        = some (some { addr := "v", token := "t" }) := by
  refine ⟨one_interval_behind {} none noticed ?_ ?_, ?_⟩
  · rw [InOrder]
    decide
  · decide
  · decide

end CvVault
