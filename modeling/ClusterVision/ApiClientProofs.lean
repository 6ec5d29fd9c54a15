import ClusterVision.ApiClient

/-! # What the events of a tab do

    One inversion lemma for all handlers, and what each of them leaves of the
    requests: an update at one name, or, when a refresh has answered, the
    callback of every request of the queue. -/

namespace CvClient

open CvToken

/-! ## What an event does -/

section Events

variable {ι Token : Type} [DecidableEq ι]

/-- What an event can do to a tab, and what the tab puts out. -/
inductive Acts (t : Tab ι Token) :
    Event ι Token → Tab ι Token × List (Output ι Token) → Prop
  | idle (e : Event ι Token) : Acts t e (t, [])
  | called {i : ι} (params : Params) (hnew : t.requests i = none) :
      Acts t (.call i params)
        (t.put i ⟨{ params := params.dict }, .asked, t.activeCluster⟩, [])
  | sent {i : ι} {q : Request Token} (hq : t.requests i = some q)
      (hphase : q.phase = .asked) :
      Acts t (.intercept i)
        (t.put i { q with
            config := requestInterceptor t.activeCluster t.auth.accessToken
              q.config
            phase := .sent },
          [.transmitted i (requestInterceptor t.activeCluster
            t.auth.accessToken q.config)])
  | resolved {i : ι} {q : Request Token} (hq : t.requests i = some q)
      (hphase : q.phase = .sent) :
      Acts t (.respond i none) (t.put i q.settle, [.resolved i])
  | rejected {i : ι} {q : Request Token} (err : AxiosError)
      (hq : t.requests i = some q) (hphase : q.phase = .sent)
      (hfinal : ¬ (err.status = some 401 ∧ q.config.retry = false)) :
      Acts t (.respond i (some err))
        (t.put i q.settle, [.rejected i (.formatted (formatApiError err))])
  | queued {i : ι} {q : Request Token} (err : AxiosError)
      (hq : t.requests i = some q) (hphase : q.phase = .sent)
      (hretry : q.config.retry = false) (hbusy : t.isRefreshing = true) :
      Acts t (.respond i (some err))
        ({ t.put i { q.mark with phase := .queued } with
            pendingQueue := t.pendingQueue ++ [⟨i, err⟩] }, [.queued i])
  | refreshing {i : ι} {q : Request Token} (err : AxiosError)
      (hq : t.requests i = some q) (hphase : q.phase = .sent)
      (hretry : q.config.retry = false) (hfree : t.isRefreshing = false) :
      Acts t (.respond i (some err))
        ({ t.put i { q.mark with phase := .refreshing err } with
            isRefreshing := true }, [.refreshSent i])
  | refreshed {i : ι} {q : Request Token} {err : AxiosError}
      (data : Option (TokenResponse Token)) (hq : t.requests i = some q)
      (hphase : q.phase = .refreshing err) :
      Acts t (.refreshed i data) (afterRefresh i q err data t)
  | switched (name : String) :
      Acts t (.setActiveCluster name) ({ t with activeCluster := name }, [])
  | login (data : TokenResponse Token) : Acts t (.login data) (t.signIn data, [])
  | mounted : Acts t .requireAuth ({ t with checks := t.checks + 1 }, [])
  | restored (data : TokenResponse Token) :
      Acts t (.checked (some data))
        (Tab.signIn data { t with checks := t.checks - 1 }, [])
  | refused :
      Acts t (.checked none) ({ t with checks := t.checks - 1 }, [])
  | logout : Acts t .logout (t.signOut, [.cacheCleared])

theorem acts_responseInterceptor {i : ι} {q : Request Token}
    {err : AxiosError} {t : Tab ι Token} (hq : t.requests i = some q)
    (hphase : q.phase = .sent) :
    Acts t (.respond i (some err)) (responseInterceptor i q err t) := by
  rw [responseInterceptor]
  by_cases hfirst : err.status = some 401 ∧ q.config.retry = false
  · rw [if_pos hfirst]
    by_cases hbusy : t.isRefreshing = true
    · rw [if_pos hbusy]
      exact .queued err hq hphase hfirst.2 hbusy
    · rw [if_neg hbusy]
      exact .refreshing err hq hphase hfirst.2 (Bool.eq_false_iff.mpr hbusy)
  · rw [if_neg hfirst]
    exact .rejected err hq hphase hfirst

/-- Every event does one of these things. -/
theorem acts_react (e : Event ι Token) (t : Tab ι Token) :
    Acts t e (react e t) := by
  cases e with
  | call i params =>
      rw [react]
      cases hq : t.requests i with
      | none => exact .called params hq
      | some q => exact .idle _
  | intercept i =>
      rw [react]
      rcases hq : t.requests i with _ | ⟨config, phase, issuedOn⟩
      · exact .idle _
      · cases phase with
        | asked => exact .sent hq rfl
        | sent => exact .idle _
        | queued => exact .idle _
        | refreshing err => exact .idle _
        | settled => exact .idle _
  -- an answer to a request that was not transmitted changes nothing
  | respond i error =>
      rcases hq : t.requests i with _ | ⟨config, phase, issuedOn⟩
      · cases error <;> · rw [react, hq]; exact .idle _
      · cases phase with
        | sent =>
            cases error with
            | none => rw [react, hq]; exact .resolved hq rfl
            | some err =>
                rw [react, hq]
                exact acts_responseInterceptor hq rfl
        | asked => cases error <;> · rw [react, hq]; exact .idle _
        | queued => cases error <;> · rw [react, hq]; exact .idle _
        | refreshing err => cases error <;> · rw [react, hq]; exact .idle _
        | settled => cases error <;> · rw [react, hq]; exact .idle _
  | refreshed i data =>
      rw [react]
      rcases hq : t.requests i with _ | ⟨config, phase, issuedOn⟩
      · exact .idle _
      · cases phase with
        | refreshing err => exact .refreshed data hq rfl
        | asked => exact .idle _
        | sent => exact .idle _
        | queued => exact .idle _
        | settled => exact .idle _
  | setActiveCluster name => exact .switched name
  | login data => exact .login data
  | requireAuth =>
      rw [react]
      cases t.auth.user with
      | none => exact .mounted
      | some user => exact .idle _
  | checked data =>
      rw [react]
      by_cases hnone : t.checks = 0
      · rw [if_pos hnone]
        exact .idle _
      · rw [if_neg hnone]
        cases data with
        | none => exact .refused
        | some data => exact .restored data
  | logout => exact .logout

end Events

/-! ## Requests by what they are like -/

section Requests

variable {ι Token : Type}

/-- There is such a request under this name. -/
def Has (t : Tab ι Token) (i : ι) (P : Request Token → Prop) : Prop :=
  ∃ q, t.requests i = some q ∧ P q

/-- Its callback is in the queue. -/
def Request.Queued (q : Request Token) : Prop := q.phase = .queued

/-- Its response interceptor awaits the refresh. -/
def Request.Refreshing (q : Request Token) : Prop :=
  ∃ err, q.phase = .refreshing err

/-- It waits for a refresh, its own or another one's. -/
def Request.Held (q : Request Token) : Prop := q.Queued ∨ q.Refreshing

theorem has_iff {t : Tab ι Token} {i : ι} {q : Request Token}
    {P : Request Token → Prop} (hq : t.requests i = some q) :
    Has t i P ↔ P q := by
  constructor
  · rintro ⟨r, hr, hP⟩
    rw [hq] at hr
    obtain rfl := Option.some.inj hr
    exact hP
  · intro hP
    exact ⟨q, hq, hP⟩

theorem not_has {t : Tab ι Token} {i : ι} {P : Request Token → Prop}
    (h : t.requests i = none) : ¬ Has t i P := by
  rintro ⟨q, hq, -⟩
  exact Option.some_ne_none q (hq.symm.trans h)

end Requests

variable {ι Token : Type} [DecidableEq ι]

@[simp] theorem put_self (i : ι) (q : Request Token) (t : Tab ι Token) :
    (t.put i q).requests i = some q :=
  Function.update_self ..

theorem put_of_ne {i j : ι} (h : j ≠ i) (q : Request Token)
    (t : Tab ι Token) : (t.put i q).requests j = t.requests j :=
  Function.update_of_ne h ..

theorem has_put {i j : ι} {q : Request Token} {t : Tab ι Token}
    {P : Request Token → Prop} :
    Has (t.put i q) j P ↔ if j = i then P q else Has t j P := by
  by_cases hj : j = i
  · subst hj
    rw [if_pos rfl]
    exact has_iff (put_self j q t)
  · rw [if_neg hj, Has, put_of_ne hj]
    exact Iff.rfl

/-- What holds of all requests holds of them after an update, when it holds of
    the new one. -/
theorem forall_put {P : Request Token → Prop} {i : ι} {q : Request Token}
    {t : Tab ι Token} (h : ∀ j r, t.requests j = some r → P r) (hq : P q) :
    ∀ j r, (t.put i q).requests j = some r → P r := by
  intro j r hr
  by_cases hj : j = i
  · subst hj
    obtain rfl := Option.some.inj ((put_self j q t).symm.trans hr)
    exact hq
  · rw [put_of_ne hj] at hr
    exact h j r hr

@[simp] theorem requestInterceptor_retry (activeCluster : String)
    (accessToken : Option Token) (config : Config Token) :
    (requestInterceptor activeCluster accessToken config).retry
      = config.retry := by
  have hite : ∀ c : Config Token, c.retry = config.retry →
      (if activeCluster ≠ "" ∧ activeCluster ≠ "local" then c
        else config).retry = config.retry := by
    intro c hc
    split
    · exact hc
    · rfl
  cases accessToken with
  | none => exact hite _ rfl
  | some token => exact hite _ rfl

/-! ## A callback for each of the queue -/

theorem callback_not_held (token : Option Token) (q : Request Token) :
    ¬ (q.callback token).Held := by
  cases token with
  | none => rintro (h | ⟨err, h⟩) <;> cases h
  | some token => rintro (h | ⟨err, h⟩) <;> cases h

@[simp] theorem callback_params (token : Option Token) (q : Request Token) :
    (q.callback token).config.params = q.config.params := by
  cases token <;> rfl

@[simp] theorem callback_retry (token : Option Token) (q : Request Token) :
    (q.callback token).config.retry = q.config.retry := by
  cases token <;> rfl

@[simp] theorem callback_issuedOn (token : Option Token) (q : Request Token) :
    (q.callback token).issuedOn = q.issuedOn := by
  cases token <;> rfl

theorem callBack_requests (token : Option Token) (t : Tab ι Token)
    (w : Waiting ι) (j : ι) :
    (t.callBack token w).requests j
      = if j = w.request then (t.requests j).map (Request.callback token)
        else t.requests j := by
  rw [Tab.callBack]
  cases hq : t.requests w.request with
  | none =>
      by_cases hj : j = w.request
      · rw [if_pos hj, hj, hq]
        rfl
      · rw [if_neg hj]
  | some q =>
      by_cases hj : j = w.request
      · rw [if_pos hj, hj, hq]
        exact put_self ..
      · rw [if_neg hj]
        exact put_of_ne hj ..

/-- A callback touches the requests only. -/
theorem callBack_frame (token : Option Token) (t : Tab ι Token)
    (w : Waiting ι) :
    t.callBack token w = { t with requests := (t.callBack token w).requests } := by
  rw [Tab.callBack]
  cases t.requests w.request with
  | none => rfl
  | some q => rfl

theorem foldl_callBack_frame (token : Option Token) (ws : List (Waiting ι))
    (t : Tab ι Token) :
    ws.foldl (Tab.callBack token) t
      = { t with requests := (ws.foldl (Tab.callBack token) t).requests } := by
  induction ws generalizing t with
  | nil => rfl
  | cons w ws ih =>
      rw [List.foldl_cons, ih, callBack_frame]

/-- Each of the queue is called back once, when each is there once. -/
theorem foldl_callBack_requests (token : Option Token)
    {ws : List (Waiting ι)} (hws : (ws.map Waiting.request).Nodup)
    (t : Tab ι Token) (j : ι) :
    (ws.foldl (Tab.callBack token) t).requests j
      = if j ∈ ws.map Waiting.request then
          (t.requests j).map (Request.callback token)
        else t.requests j := by
  induction ws generalizing t with
  | nil => rfl
  | cons w ws ih =>
      obtain ⟨hw, hws⟩ := List.nodup_cons.mp hws
      rw [List.foldl_cons, List.map_cons, ih hws, callBack_requests]
      by_cases hj : j = w.request
      · subst hj
        -- the rest of the queue does not call it back again
        rw [if_neg hw, if_pos rfl, if_pos (List.mem_cons_self ..)]
      · have hmem : j ∈ w.request :: ws.map Waiting.request ↔
            j ∈ ws.map Waiting.request := by simp [hj]
        rw [if_neg hj]
        by_cases hin : j ∈ ws.map Waiting.request
        · rw [if_pos hin, if_pos (hmem.mpr hin)]
        · rw [if_neg hin, if_neg (fun h => hin (hmem.mp h))]

/-! ## After a refresh -/

/-- The token that the callbacks are called with. -/
def newToken (data : Option (TokenResponse Token)) : Option Token :=
  data.map (·.accessToken)

/-- The requests that a refresh lets go: those of the queue, then the one that
    asked for it. -/
def landed (i : ι) (t : Tab ι Token) : List ι :=
  t.pendingQueue.map Waiting.request ++ [i]

theorem afterRefresh_requests {i : ι} {q : Request Token} {t : Tab ι Token}
    (hq : t.requests i = some q) (err : AxiosError)
    (data : Option (TokenResponse Token))
    (hqueue : (t.pendingQueue.map Waiting.request).Nodup) (j : ι) :
    (afterRefresh i q err data t).1.requests j
      = if j ∈ landed i t then
          (t.requests j).map (Request.callback (newToken data))
        else t.requests j := by
  have hmem : j ∈ landed i t ↔
      j ∈ t.pendingQueue.map Waiting.request ∨ j = i := by simp [landed]
  by_cases hj : j = i
  -- its own update comes last, so the queue does not matter here
  · rw [if_pos (hmem.mpr (.inr hj)), hj, hq]
    cases data with
    | none => exact put_self ..
    | some data => exact put_self ..
  · have hsame : (j ∈ landed i t) = (j ∈ t.pendingQueue.map Waiting.request) :=
      propext (hmem.trans (or_iff_left hj))
    simp only [hsame]
    cases data with
    | none =>
        exact (put_of_ne hj ..).trans
          (foldl_callBack_requests none hqueue t j)
    | some data =>
        exact (put_of_ne hj ..).trans
          (foldl_callBack_requests (some data.accessToken) hqueue
            (t.renew data) j)

theorem react_refreshed {i : ι} {q : Request Token} {err : AxiosError}
    {t : Tab ι Token} (hq : t.requests i = some q)
    (hphase : q.phase = .refreshing err)
    (data : Option (TokenResponse Token)) :
    react (.refreshed i data) t = afterRefresh i q err data t := by
  obtain ⟨config, phase, issuedOn⟩ := q
  obtain rfl : phase = .refreshing err := hphase
  rw [react, hq]

/-- What is put out for the request that asked for the refresh. -/
def lastOutputs (i : ι) (err : AxiosError) :
    Option (TokenResponse Token) → List (Output ι Token)
  | some data => [.replayed i data.accessToken]
  | none => [.cacheCleared, .redirected, .rejected i (.raw err)]

theorem afterRefresh_outputs (i : ι) (q : Request Token) (err : AxiosError)
    (data : Option (TokenResponse Token)) (t : Tab ι Token) :
    (afterRefresh i q err data t).2
      = t.pendingQueue.flatMap (Waiting.outputs (newToken data))
        ++ lastOutputs i err data := by
  cases data with
  | none => rfl
  | some data => rfl

/-- An output that neither sends a request nor queues one. -/
def Output.Settling : Output ι Token → Prop
  | .transmitted .. => False
  | .refreshSent _ => False
  | .queued _ => False
  | _ => True

/-- The answer of a refresh sends and queues nothing at once. -/
theorem settling_of_mem {i : ι} {q : Request Token} {err : AxiosError}
    {data : Option (TokenResponse Token)} {t : Tab ι Token}
    {o : Output ι Token} (ho : o ∈ (afterRefresh i q err data t).2) :
    o.Settling := by
  rw [afterRefresh_outputs, List.mem_append, List.mem_flatMap] at ho
  cases data with
  | none =>
      rcases ho with ⟨w, -, ho⟩ | ho
      · have h2 : o = .calledBack w.request ∨
            o = .rejected w.request (.raw w.err) := by
          simpa [Waiting.outputs, newToken] using ho
        rcases h2 with rfl | rfl <;> exact trivial
      · have h3 : o = .cacheCleared ∨ o = .redirected ∨
            o = .rejected i (.raw err) := by simpa [lastOutputs] using ho
        rcases h3 with rfl | rfl | rfl <;> exact trivial
  | some data =>
      rcases ho with ⟨w, -, ho⟩ | ho
      · have h2 : o = .calledBack w.request ∨
            o = .replayed w.request data.accessToken := by
          simpa [Waiting.outputs, newToken] using ho
        rcases h2 with rfl | rfl <;> exact trivial
      · obtain rfl : o = .replayed i data.accessToken := by
          simpa [lastOutputs] using ho
        exact trivial

/-- What the answer of a refresh makes of the stores. -/
def Tab.answered (data : Option (TokenResponse Token)) (t : Tab ι Token) :
    Tab ι Token :=
  match data with
  | some data => t.renew data
  | none => t.signOut

/-- It touches nothing but the stores, the queue and the requests. -/
theorem afterRefresh_frame (i : ι) (q : Request Token) (err : AxiosError)
    (data : Option (TokenResponse Token)) (t : Tab ι Token) :
    (afterRefresh i q err data t).1
      = { t.answered data with
          requests := (afterRefresh i q err data t).1.requests
          pendingQueue := []
          isRefreshing := false } := by
  cases data with
  | none =>
      rw [afterRefresh, drainQueue, foldl_callBack_frame]
      rfl
  | some data =>
      rw [afterRefresh, drainQueue, foldl_callBack_frame]
      rfl

end CvClient
