import ClusterVision.VaultSyncProofs

/-! # The Vault token that a PUT without a token keeps

    `set_vault_config` takes the token to keep from `get_vault_service`, and
    writes it with the rest of the row in a second step.  What it writes is the
    token that is effective at that moment when the answer was, and when
    nothing has changed the effective token in between. -/

namespace CvVault

open CvRun

variable {ι ρ : Type} {env : Settings} {s : Admin ι ρ} {t : Int} {r : ρ}
  {i : ι}

/-- The effective token. -/
def effectiveToken (env : Settings) (row : Option VaultConfigRow) :
    Option String :=
  (effectiveConfig env row).map (·.token)

/-- The token of a service. -/
def tokenOf (svc : Option VaultService) : Option String :=
  svc.map (·.config.token)

/-- A PUT without a token that writes the row. -/
def Writes (s : Admin ι ρ) (r : ρ) : Prop :=
  ∃ p token, s.puts r = some p ∧ p.payload.token = "" ∧
    p.token = some token ∧ (s.sys.ready p.worker).isSome = true ∧
    { p.payload with token := token }.fits = true

/-- A PUT without a token waits for the row on this worker. -/
def Waits (s : Admin ι ρ) (i : ι) : Prop :=
  ∃ r p, s.puts r = some p ∧ p.worker = i ∧ p.token = none

/-- Where `get_vault_service` answers such a PUT without the row, because no
    sync is due or the row cannot be read, it answers with the effective
    token. -/
def AnswersCurrent (env : Settings) (s : Admin ι ρ) :
    Int × AdminAct ι ρ → Prop
  | (t, .put _ i payload) => payload.token = "" → ∀ w, s.sys.ready i = some w →
      syncDue false t w = false →
      tokenOf w.vaultSvc = effectiveToken env s.sys.row
  | (_, .other (.read i false)) => Waits s i → ∀ w, s.sys.workers i = some w →
      tokenOf (synced env w.vaultSvc none) = effectiveToken env s.sys.row
  | _ => True

/-- Every PUT that holds a token that it got holds the effective one. -/
def HoldsCurrent (env : Settings) (s : Admin ι ρ) : Prop :=
  ∀ r p token, s.puts r = some p → p.payload.token = "" →
    p.token = some token → effectiveToken env s.sys.row = some token

/-- A sync that reads the row answers with the effective token. -/
theorem tokenOf_synced (svc : Option VaultService)
    (row : Option VaultConfigRow) :
    tokenOf (synced env svc (some row)) = effectiveToken env row := by
  rw [effectiveToken, ← synced_config env svc row, Option.map_map]
  rfl

/-- What a PUT holds when its `get_vault_service` has answered. -/
theorem held_of_answered {payload : Config} {svc : Option VaultService}
    {p : Put ι} (h : answered i payload svc = some p) :
    p.token = tokenOf svc := by
  cases svc with
  | none => cases h
  | some svc =>
      obtain rfl := Option.some.inj h
      rfl

/-- What a read answers to a PUT that waits for it. -/
theorem answer_current {readable : Bool} {svc : Option VaultService}
    (hcurrent : AnswersCurrent env s (t, .other (.read i readable)))
    (hwaits : Waits s i)
    (hret : returned env s.sys (t, .read i readable) = some svc) :
    tokenOf svc = effectiveToken env s.sys.row := by
  cases hw : s.sys.workers i with
  | none =>
      rw [returned, hw] at hret
      cases hret
  | some w =>
      rw [returned, hw] at hret
      change (if w.reading = some .getting then
        some (synced env w.vaultSvc
          (if readable = true then some s.sys.row else none)) else none)
        = some svc at hret
      by_cases hgetting : w.reading = some .getting
      · rw [if_pos hgetting] at hret
        rw [← Option.some.inj hret]
        cases readable with
        | true => exact tokenOf_synced w.vaultSvc s.sys.row
        | false => exact hcurrent hwaits w hw
      · rw [if_neg hgetting] at hret
        cases hret

/-- What `get_vault_service` answers at once to a PUT. -/
theorem get_current {payload : Config} {svc : Option VaultService}
    (hcurrent : AnswersCurrent env s (t, .put r i payload))
    (htoken : payload.token = "")
    (hret : returned env s.sys (t, .get i) = some svc) :
    tokenOf svc = effectiveToken env s.sys.row := by
  cases hw : s.sys.ready i with
  | none =>
      rw [returned, hw] at hret
      cases hret
  | some w =>
      rw [returned, hw] at hret
      change (if syncDue false t w = true then none else some w.vaultSvc)
        = some svc at hret
      by_cases hdue : syncDue false t w = true
      · rw [if_pos hdue] at hret
        cases hret
      · rw [if_neg hdue] at hret
        rw [← Option.some.inj hret]
        exact hcurrent htoken w hw (Bool.eq_false_iff.mpr hdue)

variable [DecidableEq ι]

/-- A PUT that is in progress after the step of a worker was so before it, and
    holds what it held, or got its token from the read. -/
theorem after_cases {a : Act ι} {p p' : Put ι}
    (h : Put.after env s.sys t a p = some p') :
    p' = p ∨ ∃ readable svc, a = .read p.worker readable ∧ p.token = none ∧
      returned env s.sys (t, a) = some svc ∧
      answered p.worker p.payload svc = some p' := by
  cases a with
  | init i origin =>
      change (if p.worker = i then none else some p) = some p' at h
      by_cases hi : p.worker = i
      · rw [if_pos hi] at h
        cases h
      · rw [if_neg hi] at h
        exact Or.inl (Option.some.inj h).symm
  | read i readable =>
      change (if p.worker = i ∧ p.token = none then _ else some p) = some p'
        at h
      by_cases hwaits : p.worker = i ∧ p.token = none
      · rw [if_pos hwaits] at h
        cases hret : returned env s.sys (t, .read i readable) with
        | none =>
            rw [hret] at h
            exact Or.inl (Option.some.inj h).symm
        | some svc =>
            rw [hret] at h
            obtain ⟨rfl, hnone⟩ := hwaits
            exact Or.inr ⟨readable, svc, rfl, hnone, rfl, h⟩
      · rw [if_neg hwaits] at h
        exact Or.inl (Option.some.inj h).symm
  | get i | configure i cfg | disable i | healthCheck i error =>
      exact Or.inl (Option.some.inj h).symm

variable [DecidableEq ρ]

/-- Such a PUT leaves the token that is effective before it writes. -/
def KeepsToken (env : Settings) (s : Admin ι ρ) : Int × AdminAct ι ρ → Prop
  | (t, .write r) => Writes s r →
      (adminAct env (t, .write r) s).sys.row.map (·.config.token)
        = effectiveToken env s.sys.row
  | _ => True

/-- While a PUT holds the token that it got, other steps leave the effective
    token as it is. -/
def LeavesToken (env : Settings) (s : Admin ι ρ) (k : Int × AdminAct ι ρ) :
    Prop :=
  ∀ r p, s.puts r = some p → p.payload.token = "" → p.token ≠ none →
    k.2 ≠ .write r →
    effectiveToken env (adminAct env k s).sys.row
      = effectiveToken env s.sys.row

/-- A step of a worker. -/
theorem holdsCurrent_other {a : Act ι} (h : HoldsCurrent env s)
    (hcurrent : AnswersCurrent env s (t, .other a))
    (hleaves : LeavesToken env s (t, .other a)) :
    HoldsCurrent env (adminAct env (t, .other a) s) := by
  intro r p' token hp' hpayload htoken
  obtain ⟨p, hp, hafter⟩ := Option.bind_eq_some_iff.mp hp'
  rcases after_cases hafter with rfl | ⟨readable, svc, rfl, hnone, hret, hans⟩
  -- it held its token already: the step may not change the effective one
  · have hsome : p'.token ≠ none := by
      rw [htoken]
      exact Option.some_ne_none token
    rw [hleaves r p' hp hpayload hsome nofun]
    exact h r p' token hp hpayload htoken
  -- it gets its token from this read
  · rw [← htoken, held_of_answered hans]
    show effectiveToken env (act env (t, .read p.worker readable) s.sys).row
      = _
    rw [act_row rfl]
    exact (answer_current hcurrent ⟨r, p, hp, rfl, hnone⟩ hret).symm

/-- A PUT that arrives. -/
theorem holdsCurrent_put {payload : Config} (h : HoldsCurrent env s)
    (hcurrent : AnswersCurrent env s (t, .put r i payload)) :
    HoldsCurrent env (adminAct env (t, .put r i payload) s) := by
  show HoldsCurrent env (s.put env t r i payload)
  rw [Admin.put]
  by_cases hbad : (s.puts r).isSome = true ∨ payload.addr = "" ∨
      (s.sys.ready i).isSome = false
  · rw [if_pos hbad]
    exact h
  rw [if_neg hbad]
  -- a token of its own does not need the effective one
  by_cases hgiven : payload.token ≠ ""
  · rw [if_pos hgiven]
    intro r' p token hp hpayload htoken
    change Function.update s.puts r _ r' = some p at hp
    by_cases hr : r' = r
    · rw [hr, Function.update_self] at hp
      obtain rfl := Option.some.inj hp
      exact absurd hpayload hgiven
    · rw [Function.update_of_ne hr] at hp
      exact h r' p token hp hpayload htoken
  · rw [if_neg hgiven]
    intro r' p token hp hpayload htoken
    have hrow : (act env (t, .get i) s.sys).row = s.sys.row := act_row rfl
    change (s.sys.get t i).row = s.sys.row at hrow
    show effectiveToken env (s.sys.get t i).row = some token
    rw [hrow]
    change Function.update s.puts r _ r' = some p at hp
    by_cases hr : r' = r
    · rw [hr, Function.update_self] at hp
      cases hret : returned env s.sys (t, .get i) with
      | none =>
          rw [hret] at hp
          obtain rfl := Option.some.inj hp
          cases htoken
      | some svc =>
          rw [hret] at hp
          rw [← htoken, held_of_answered hp]
          exact (get_current hcurrent (not_not.mp hgiven) hret).symm
    · rw [Function.update_of_ne hr] at hp
      exact h r' p token hp hpayload htoken

/-- A PUT whose turn it is to write does so, or nothing happens. -/
theorem write_cases (s : Admin ι ρ) (t : Int) (r : ρ) :
    s.write t r = s ∨ ∃ p token, s.puts r = some p ∧ p.token = some token ∧
      s.write t r = ⟨s.sys.configure t p.worker
        { p.payload with token := token }, Function.update s.puts r none⟩ := by
  rw [Admin.write]
  split
  · rename_i i payload token hput
    by_cases hready : (s.sys.ready i).isSome = true
    · exact Or.inr ⟨_, token, hput, rfl, if_pos hready⟩
    · exact Or.inl (if_neg hready)
  · exact Or.inl rfl

/-- A PUT that writes is over, and leaves the others what they hold. -/
theorem holdsCurrent_write (h : HoldsCurrent env s)
    (hleaves : LeavesToken env s (t, .write r)) :
    HoldsCurrent env (adminAct env (t, .write r) s) := by
  rcases write_cases s t r with hsame | ⟨_, _, _, _, hwrite⟩
  · show HoldsCurrent env (s.write t r)
    rw [hsame]
    exact h
  · intro r' p token hp hpayload htoken
    have hputs : (s.write t r).puts r' = some p := hp
    rw [hwrite] at hputs
    change Function.update s.puts r none r' = some p at hputs
    by_cases hr : r' = r
    · rw [hr, Function.update_self] at hputs
      cases hputs
    · rw [Function.update_of_ne hr] at hputs
      have hsome : p.token ≠ none := by
        rw [htoken]
        exact Option.some_ne_none token
      have hother : AdminAct.write (ι := ι) r ≠ .write r' := by
        intro heq
        exact hr (AdminAct.write.inj heq).symm
      rw [hleaves r' p hputs hpayload hsome hother]
      exact h r' p token hputs hpayload htoken

/-- A configuration that fits is written. -/
theorem configure_row {sys : System ι} {cfg : Config}
    (hready : (sys.ready i).isSome = true) (hfits : cfg.fits = true) :
    (sys.configure t i cfg).row = some ⟨true, cfg⟩ := by
  obtain ⟨w, hw⟩ := Option.isSome_iff_exists.mp hready
  rw [System.configure, hw]
  simp only [Site.configureVault, writeConfigRow, if_pos hfits]
  rfl

/-- A PUT that holds the effective token writes it. -/
theorem keepsToken_of_holds {k : Int × AdminAct ι ρ}
    (h : HoldsCurrent env s) : KeepsToken env s k := by
  obtain ⟨t, a⟩ := k
  cases a with
  | other a => exact trivial
  | put r i payload => exact trivial
  | write r =>
      rintro ⟨p, token, hp, hpayload, htoken, hready, hfits⟩
      obtain ⟨i, payload, held⟩ := p
      obtain rfl : held = some token := htoken
      show (s.write t r).sys.row.map _ = _
      rw [Admin.write, hp]
      change (if (s.sys.ready i).isSome = true then _ else s).sys.row.map _ = _
      rw [if_pos hready, configure_row hready hfits]
      exact (h r _ token hp hpayload rfl).symm

/-- In every run in which each PUT without a token is answered with the
    effective token, and no other step changes that before the PUT writes, every
    such PUT keeps the effective token. -/
theorem put_keeps_token (env : Settings) (sys : System ι)
    (ks : List (Int × AdminAct ι ρ))
    (h : Along (adminAct env)
      (fun s k => AnswersCurrent env s k ∧ LeavesToken env s k) ks
      ⟨sys, fun _ => none⟩) :
    Along (adminAct env) (KeepsToken env) ks ⟨sys, fun _ => none⟩ := by
  refine @Along.imp_of_kept _ _ _ _ _ (HoldsCurrent env) ?_ ?_ ks _ nofun h
  · rintro s ⟨t, a⟩ hs ⟨hcurrent, hleaves⟩
    cases a with
    | other a => exact holdsCurrent_other hs hcurrent hleaves
    | put r i payload => exact holdsCurrent_put hs hcurrent
    | write r => exact holdsCurrent_write hs hleaves
  · intro s k hs _
    exact keepsToken_of_holds hs

/-- Two workers start, and one of them configures Vault. -/
def configured (token : String) : List (Int × AdminAct Bool Unit) :=
  [(0, .other (.init false 0)), (0, .other (.init true 0)),
    (1, .other (.read false true)), (1, .other (.read true true)),
    (2, .other (.configure true { addr := "v", token := token }))]

/-- A later PUT on the other worker, which has a sync to do. -/
def editedLater : List (Int × AdminAct Bool Unit) :=
  configured "t" ++
    [(30000000, .put () false { addr := "w", token := "" }),
      (30000001, .other (.read false true)), (30000002, .write ())]

/-- The PUT reads the row, and writes the token that it finds there. -/
theorem put_keeps_token_later :
    Along (adminAct {}) (KeepsToken {}) editedLater
        ⟨stopped none, fun _ => none⟩ ∧
      (after (adminAct {}) editedLater ⟨stopped none, fun _ => none⟩).sys.row
        = some ⟨true, { addr := "w", token := "t" }⟩ := by
  refine ⟨put_keeps_token {} (stopped none) editedLater ?_, by decide⟩
  refine ⟨⟨trivial, nofun⟩, ⟨trivial, nofun⟩, ⟨trivial, nofun⟩,
    ⟨trivial, nofun⟩, ⟨trivial, nofun⟩, ⟨?_, nofun⟩, ⟨trivial, ?_⟩,
    ⟨trivial, ?_⟩, trivial⟩
  · intro _ w hw hdue
    obtain rfl := Option.some.inj hw
    exact absurd hdue (by decide)
  · intro r p hp _ hsome
    obtain rfl := Option.some.inj hp
    exact absurd rfl hsome
  · intro r p _ _ _ hother
    exact absurd rfl hother

/-- The other worker changes the token, and then the first one edits the
    address without a token: it does not know of the change yet. -/
def editedAtOnce : List (Int × AdminAct Bool Unit) :=
  configured "old" ++
    [(3, .other (.configure false { addr := "v", token := "new" })),
      (4, .put () true { addr := "w", token := "" })]

theorem put_loses_token :
    ¬ ∀ ks : List (Int × AdminAct Bool Unit),
      Along (adminAct {}) (KeepsToken {}) ks ⟨stopped none, fun _ => none⟩ := by
  intro hall
  have hwrite := along_iff_split.mp (hall (editedAtOnce ++ [(5, .write ())]))
    editedAtOnce (5, .write ()) [] rfl
  have hkept := hwrite ⟨⟨true, { addr := "w", token := "" }, some "old"⟩, "old",
    by decide, rfl, rfl, by decide, by decide⟩
  exact absurd hkept (by decide)

end CvVault
