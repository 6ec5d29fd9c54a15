import ClusterVision.RefreshQueueProofs

/-! # Which cluster a request goes to

    The request interceptor reads the active cluster anew each time a request
    passes it, and it never takes the parameter out again.  A request that is
    sent a second time, after a refresh, keeps its cluster only when the
    selection of that moment is the old one or is none at all. -/

namespace CvTarget

open CvRun CvKube CvToken CvClient CvQueue

variable {ι Token : Type}

/-- The selection of a cluster: the query parameter, or none for the local
    cluster. -/
def selection (cluster : String) : Option String :=
  if cluster ≠ "" ∧ cluster ≠ "local" then some cluster else none

/-- The query parameter `cluster`. -/
def clusterParam (config : Config Token) : Option String :=
  config.params.get? "cluster"

/-- An entry that was merged in is found. -/
theorem get?_merge (d : Dict) (key value : String) :
    (d.merge [(key, value)]).get? key = some value := by
  have hnone : (d.filter (fun x => [(key, value)].all
      (fun y => decide (y.1 ≠ x.1)))).find? (fun e => decide (e.1 = key))
        = none := by
    rw [List.find?_eq_none]
    intro x hx hkey
    have hne := (List.mem_filter.mp hx).2
    rw [List.all_cons, of_decide_eq_true hkey] at hne
    simp at hne
  rw [Dict.get?, Dict.merge, List.find?_append, hnone]
  simp

/-- The interceptor sets the parameter, or leaves it as it is. -/
theorem clusterParam_requestInterceptor (activeCluster : String)
    (accessToken : Option Token) (config : Config Token) :
    clusterParam (requestInterceptor activeCluster accessToken config)
      = (selection activeCluster).or (clusterParam config) := by
  have hite : clusterParam (if activeCluster ≠ "" ∧ activeCluster ≠ "local" then
        { config with
          params := config.params.merge [("cluster", activeCluster)] }
      else config) = (selection activeCluster).or (clusterParam config) := by
    rw [selection]
    by_cases hremote : activeCluster ≠ "" ∧ activeCluster ≠ "local"
    · rw [if_pos hremote, if_pos hremote]
      exact get?_merge ..
    · rw [if_neg hremote, if_neg hremote]
      rfl
  cases accessToken with
  | none => exact hite
  | some token => exact hite

/-! ## The parameter of a request -/

/-- A request carries no parameter before it passes the interceptor for the
    first time, and the selection that it was issued with from then on. -/
def Carries (q : Request Token) : Prop :=
  if q.phase = .asked ∧ q.config.retry = false then
    clusterParam q.config = none
  else clusterParam q.config = selection q.issuedOn

theorem carries_of_marked {q : Request Token} (h : q.config.retry = true) :
    Carries q ↔ clusterParam q.config = selection q.issuedOn := by
  rw [Carries, if_neg]
  rintro ⟨-, hretry⟩
  rw [h] at hretry
  cases hretry

theorem carries_of_sent {q : Request Token} (h : q.phase ≠ .asked) :
    Carries q ↔ clusterParam q.config = selection q.issuedOn := by
  rw [Carries, if_neg]
  exact fun hasked => h hasked.1

/-- A callback leaves the parameter as it is. -/
theorem carries_callback {q : Request Token} (h : Carries q)
    (hheld : q.Held) (hretry : q.config.retry = true) (token : Option Token) :
    Carries (q.callback token) := by
  have hsent : q.phase ≠ .asked := by
    intro hasked
    rcases hheld with hw | ⟨err, hr⟩
    · exact nomatch hasked.symm.trans hw
    · exact nomatch hasked.symm.trans hr
  rw [carries_of_marked ((callback_retry token q).trans hretry), clusterParam,
    callback_params, callback_issuedOn]
  exact (carries_of_sent hsent).mp h

/-- The invariant of the runs that stay on target. -/
def Aimed (t : Tab ι Token) : Prop :=
  Flying t ∧ ∀ i q, t.requests i = some q → Carries q

theorem aimed_load (activeCluster : String) :
    Aimed (Tab.load activeCluster : Tab ι Token) :=
  ⟨flying_load activeCluster, nofun⟩

/-! ## What is transmitted -/

variable [DecidableEq ι]

/-- A request is transmitted when the request interceptor has run, and only
    then. -/
theorem transmitted_iff {t : Tab ι Token} {e : Event ι Token} {i : ι}
    {config : Config Token} :
    .transmitted i config ∈ out e t ↔
      ∃ q, e = .intercept i ∧ t.requests i = some q ∧ q.phase = .asked ∧
        config = requestInterceptor t.activeCluster t.auth.accessToken
          q.config := by
  constructor
  · intro hmem
    have hacts := acts_react e t
    change .transmitted i config ∈ (react e t).2 at hmem
    generalize react e t = r at hacts hmem
    cases hacts with
    | @sent j q hq hphase =>
        injection List.mem_singleton.mp hmem with hi hconfig
        subst hi
        exact ⟨q, rfl, hq, hphase, hconfig⟩
    | refreshed data hq hphase => exact absurd (settling_of_mem hmem) id
    | rejected err hq hphase hfinal => cases List.mem_singleton.mp hmem
    | resolved hq hphase => cases List.mem_singleton.mp hmem
    | queued err hq hphase hretry hbusy => cases List.mem_singleton.mp hmem
    | refreshing err hq hphase hretry hfree =>
        cases List.mem_singleton.mp hmem
    | logout => cases List.mem_singleton.mp hmem
    | _ => exact absurd hmem List.not_mem_nil
  · rintro ⟨⟨c, phase, issuedOn⟩, rfl, hq, hphase, rfl⟩
    obtain rfl : phase = .asked := hphase
    rw [out, react, hq]
    exact List.mem_singleton_self _

/-! ## The cluster that a request was issued for -/

/-- No event changes for which cluster a request was issued. -/
theorem issuedOn_step {t : Tab ι Token} (h : Flying t) (e : Event ι Token)
    {i : ι} {cluster : String} (hi : Has t i (·.issuedOn = cluster)) :
    Has (step e t) i (·.issuedOn = cluster) := by
  have hput : ∀ {j : ι} {q r : Request Token}, t.requests j = some q →
      r.issuedOn = q.issuedOn → Has (t.put j r) i (·.issuedOn = cluster) := by
    intro j q r hq hsame
    rw [has_put]
    by_cases hij : i = j
    · subst hij
      rw [if_pos rfl]
      exact hsame.trans ((has_iff hq).mp hi)
    · rw [if_neg hij]
      exact hi
  have hacts := acts_react e t
  change Has (react e t).1 i (·.issuedOn = cluster)
  generalize react e t = r at hacts
  cases hacts with
  | @called j params hnew =>
      rw [has_put, if_neg]
      · exact hi
      · rintro rfl
        exact not_has hnew hi
  | sent hq hphase => exact hput hq rfl
  | resolved hq hphase => exact hput hq rfl
  | rejected err hq hphase hfinal => exact hput hq rfl
  | queued err hq hphase hretry hbusy => exact hput hq rfl
  | refreshing err hq hphase hretry hfree => exact hput hq rfl
  | @refreshed j q err data hq hphase =>
      obtain ⟨f, hf⟩ := h
      obtain ⟨r, hr, hissued⟩ := hi
      rw [Has, afterRefresh_requests hq err data (hf.queue ▸ hf.once), hr]
      by_cases hmem : i ∈ landed j t
      · rw [if_pos hmem]
        exact ⟨_, rfl, (callback_issuedOn ..).trans hissued⟩
      · rw [if_neg hmem]
        exact ⟨r, rfl, hissued⟩
  | _ => exact hi

/-- Each transmission carries the selection that was active when the request
    was issued. -/
def OnTarget (t : Tab ι Token) (e : Event ι Token) : Prop :=
  ∀ i config q, .transmitted i config ∈ out e t → t.requests i = some q →
    clusterParam config = selection q.issuedOn

/-- When a request passes the interceptor, the active cluster is the one that
    it was issued for; a request that is sent again may also find the local
    cluster active. -/
def Steady (t : Tab ι Token) (e : Event ι Token) : Prop :=
  ∀ i q, e = .intercept i → t.requests i = some q → q.phase = .asked →
    selection t.activeCluster = selection q.issuedOn ∨
      q.config.retry = true ∧ selection t.activeCluster = none

theorem aimed_step (t : Tab ι Token) (e : Event ι Token) (h : Aimed t)
    (he : OnTarget t e) : Aimed (step e t) := by
  refine ⟨flying_step t e h.1, ?_⟩
  have hacts := acts_react e t
  change ∀ i config q, .transmitted i config ∈ (react e t).2 →
    t.requests i = some q → clusterParam config = selection q.issuedOn at he
  change ∀ i q, (react e t).1.requests i = some q → Carries q
  have hkeep : ∀ {i : ι} {q r : Request Token}, t.requests i = some q →
      q.phase = .sent → r.phase ≠ .asked →
      clusterParam r.config = clusterParam q.config →
      r.issuedOn = q.issuedOn →
      ∀ j s, (t.put i r).requests j = some s → Carries s := by
    intro i q r hq hsent hr hparam hissued
    refine forall_put h.2 ((carries_of_sent hr).mpr ?_)
    rw [hparam, hissued]
    exact (carries_of_sent (by rw [hsent]; nofun)).mp (h.2 i q hq)
  generalize react e t = r at hacts he
  cases hacts with
  | called params hnew =>
      -- the API modules pass no `cluster`
      refine forall_put h.2 ?_
      rw [Carries, if_pos ⟨rfl, rfl⟩]
      exact params.noCluster
  | @sent i q hq hphase =>
      have hsent : Phase.sent ≠ .asked := nofun
      refine forall_put h.2 ((carries_of_sent hsent).mpr ?_)
      -- what was transmitted stays in the config
      exact he i _ q (List.mem_singleton_self _) hq
  | resolved hq hphase =>
      exact hkeep hq hphase (show Phase.settled ≠ .asked from nofun) rfl rfl
  | rejected err hq hphase hfinal =>
      exact hkeep hq hphase (show Phase.settled ≠ .asked from nofun) rfl rfl
  | queued err hq hphase hretry hbusy =>
      exact hkeep hq hphase (show Phase.queued ≠ .asked from nofun) rfl rfl
  | refreshing err hq hphase hretry hfree =>
      exact hkeep hq hphase (show Phase.refreshing err ≠ .asked from nofun)
        rfl rfl
  | @refreshed i q err data hq hphase =>
      obtain ⟨⟨f, hf⟩, hcarries⟩ := h
      have hlead := (hf.leads i).mp ⟨q, hq, err, hphase⟩
      intro j r hr
      rw [afterRefresh_requests hq err data (hf.queue ▸ hf.once)] at hr
      by_cases hmem : j ∈ landed i t
      · rw [if_pos hmem] at hr
        obtain ⟨s, hs, rfl⟩ := Option.map_eq_some_iff.mp hr
        have hheld : s.Held := (has_iff hs).mp ((hf.mem_landed hlead j).mp hmem)
        exact carries_callback (hcarries j s hs) hheld
          (hf.marked j s hs hheld) (newToken data)
      · rw [if_neg hmem] at hr
        exact hcarries j r hr
  | _ => exact h.2

/-- At one event. -/
theorem onTarget_iff (t : Tab ι Token) (e : Event ι Token) (h : Aimed t) :
    OnTarget t e ↔ Steady t e := by
  have hpass : ∀ q, Carries q → q.phase = .asked →
      (clusterParam (requestInterceptor t.activeCluster t.auth.accessToken
          q.config) = selection q.issuedOn ↔
        selection t.activeCluster = selection q.issuedOn ∨
          q.config.retry = true ∧ selection t.activeCluster = none) := by
    intro q hq hasked
    rw [clusterParam_requestInterceptor]
    cases hretry : q.config.retry with
    -- the first pass: there is no parameter yet
    | false =>
        rw [Carries, if_pos ⟨hasked, hretry⟩] at hq
        rw [hq, Option.or_none]
        exact ⟨.inl, fun h => h.resolve_right (fun h => nomatch h.1)⟩
    -- a later pass: the parameter of the first one is still there
    | true =>
        rw [(carries_of_marked hretry).mp hq]
        cases hsel : selection t.activeCluster with
        | none => exact iff_of_true rfl (.inr ⟨rfl, rfl⟩)
        | some c => simp
  constructor
  · rintro he i q rfl hq hasked
    refine (hpass q (h.2 i q hq) hasked).mp (he i _ q ?_ hq)
    exact transmitted_iff.mpr ⟨q, rfl, hq, hasked, rfl⟩
  · intro he i config q hmem hq
    obtain ⟨r, rfl, hr, hasked, rfl⟩ := transmitted_iff.mp hmem
    obtain rfl := Option.some.inj (hr.symm.trans hq)
    exact (hpass r (h.2 i r hq) hasked).mpr (he i r rfl hq hasked)

/-- In every run of a tab, the transmissions carry the cluster that the
    requests were issued for, the first one and those after a refresh, exactly
    when no request finds another cluster active as it passes the interceptor
    (the local one is harmless after a refresh). -/
theorem transmissions_on_target (activeCluster : String)
    (run : List (Event ι Token)) :
    Along step OnTarget run (Tab.load activeCluster) ↔
      Along step Steady run (Tab.load activeCluster) :=
  along_congr aimed_step onTarget_iff (aimed_load activeCluster) run

/-- A deletion is issued on the local cluster with an expired token, and
    another cluster is chosen while the refresh is on its way. -/
def switchRun : List (Event Nat Nat) :=
  [.login ⟨0, fun _ => some .operator, "alice"⟩,
    .call 0 ⟨[("namespace", "default")], rfl⟩, .intercept 0,
    .respond 0 (some ⟨"", some (401, .text "Token expired")⟩),
    .setActiveCluster "production",
    .refreshed 0 (some ⟨1, fun _ => some .operator, "alice"⟩)]

/-- It is deleted on the other cluster. -/
theorem replay_on_other_cluster :
    ¬ Along step OnTarget (switchRun ++ [.intercept 0])
      (Tab.load "local") := by
  intro h
  have hlast := along_iff_split.mp h switchRun (.intercept 0) [] rfl
  have hmem : .transmitted 0
      ⟨[("namespace", "default"), ("cluster", "production")], some 1, true⟩
        ∈ out (.intercept 0) (after step switchRun (Tab.load "local")) := by
    decide +kernel
  obtain ⟨q, -, hq, -, -⟩ := transmitted_iff.mp hmem
  have hissued : Has (after step switchRun (Tab.load "local")) 0
      (·.issuedOn = "local") := ⟨_, rfl, rfl⟩
  have hlocal : q.issuedOn = "local" := (has_iff hq).mp hissued
  have hparam := hlast 0 _ q hmem hq
  rw [hlocal] at hparam
  exact absurd hparam (by decide)

end CvTarget
