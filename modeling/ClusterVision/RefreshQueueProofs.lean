import ClusterVision.FlightProofs
import ClusterVision.ApiClientProofs

/-! # The refresh queue

    The requests of a tab that wait for a refresh are a single flight: the
    one whose 401 came first leads, the others are in `pendingQueue`, and the
    answer of the refresh lands it.  Each event of a tab is matched by moves
    of the flight that put to wait and let go the same requests.  The mark
    `_retry` then keeps a request from joining twice. -/

namespace CvQueue

open CvRun CvToken CvClient CvFlight

variable {ι Token : Type}

/-! ## What the queue puts out -/

/-- Whose callback is put into the queue. -/
def enqueued : Output ι Token → Option ι
  | .queued i => some i
  | _ => none

/-- Whose callback is called. -/
def called : Output ι Token → Option ι
  | .calledBack i => some i
  | _ => none

/-- Which request is sent again. -/
def sentAgain : Output ι Token → Option ι
  | .replayed i _ => some i
  | _ => none

theorem called_outputs (token : Option Token) (ws : List (Waiting ι)) :
    (ws.flatMap (Waiting.outputs token)).filterMap called
      = ws.map Waiting.request := by
  induction ws with
  | nil => rfl
  | cons w ws ih =>
      rw [List.flatMap_cons, List.filterMap_append, ih]
      cases token <;> rfl

theorem sentAgain_outputs (token : Option Token) (ws : List (Waiting ι)) :
    (ws.flatMap (Waiting.outputs token)).filterMap sentAgain
      = if token.isSome then ws.map Waiting.request else [] := by
  induction ws with
  | nil => cases token <;> rfl
  | cons w ws ih =>
      rw [List.flatMap_cons, List.filterMap_append, ih]
      cases token <;> rfl

/-! ## What the log says -/

/-- The mark `_retry`. -/
def Marked (q : Request Token) : Prop := q.config.retry = true

/-- The request has had its refresh. -/
def Done (q : Request Token) : Prop := q.config.retry = true ∧ ¬ q.Held

theorem marked_of_done (q : Request Token) (h : Done q) : Marked q := h.1

/-- No request is put into the queue twice or sent again twice. -/
structure Once (log : List (Output ι Token)) (t : Tab ι Token) : Prop where
  enqueued : (log.filterMap enqueued).Nodup
  sentAgain : (log.filterMap sentAgain).Nodup
  enqueued_marked : ∀ i ∈ log.filterMap CvQueue.enqueued, Has t i Marked
  sentAgain_done : ∀ i ∈ log.filterMap CvQueue.sentAgain, Has t i Done

theorem Once.load (activeCluster : String) :
    Once [] (Tab.load activeCluster : Tab ι Token) where
  enqueued := List.nodup_nil
  sentAgain := List.nodup_nil
  enqueued_marked _ h := absurd h List.not_mem_nil
  sentAgain_done _ h := absurd h List.not_mem_nil

/-- More outputs, when they are of requests that the log does not have. -/
theorem Once.append {log new : List (Output ι Token)} {t : Tab ι Token}
    (h : Once log t) (hq : (new.filterMap CvQueue.enqueued).Nodup)
    (hs : (new.filterMap CvQueue.sentAgain).Nodup)
    (hqueue : ∀ i ∈ new.filterMap CvQueue.enqueued,
      i ∉ log.filterMap CvQueue.enqueued ∧ Has t i Marked)
    (hsent : ∀ i ∈ new.filterMap CvQueue.sentAgain,
      i ∉ log.filterMap CvQueue.sentAgain ∧ Has t i Done) :
    Once (log ++ new) t where
  enqueued := by
    rw [List.filterMap_append]
    exact List.Nodup.append h.enqueued hq
      (fun i hi hi' => (hqueue i hi').1 hi)
  sentAgain := by
    rw [List.filterMap_append]
    exact List.Nodup.append h.sentAgain hs (fun i hi hi' => (hsent i hi').1 hi)
  enqueued_marked i hi := by
    rw [List.filterMap_append, List.mem_append] at hi
    rcases hi with hi | hi
    · exact h.enqueued_marked i hi
    · exact (hqueue i hi).2
  sentAgain_done i hi := by
    rw [List.filterMap_append, List.mem_append] at hi
    rcases hi with hi | hi
    · exact h.sentAgain_done i hi
    · exact (hsent i hi).2

/-- Outputs that are not about the queue. -/
theorem Once.append_other {log new : List (Output ι Token)} {t : Tab ι Token}
    (h : Once log t) (hq : new.filterMap CvQueue.enqueued = [])
    (hs : new.filterMap CvQueue.sentAgain = []) : Once (log ++ new) t := by
  refine h.append (hq ▸ List.nodup_nil) (hs ▸ List.nodup_nil) ?_ ?_
  · intro i hi
    rw [hq] at hi
    exact absurd hi List.not_mem_nil
  · intro i hi
    rw [hs] at hi
    exact absurd hi List.not_mem_nil

/-! ## The flight of a tab -/

/-- A request in a phase of its own waits for no refresh. -/
theorem not_held {t : Tab ι Token} {i : ι} {q : Request Token}
    (hq : t.requests i = some q) (hqueued : q.phase ≠ .queued)
    (hrefreshing : ∀ err, q.phase ≠ .refreshing err) :
    ¬ Has t i Request.Held := by
  rw [has_iff hq]
  rintro (h | ⟨err, h⟩)
  · exact hqueued h
  · exact hrefreshing err h

theorem free_of_sent {t : Tab ι Token} {i : ι} {q : Request Token}
    (hq : t.requests i = some q) (hphase : q.phase = .sent) :
    ¬ Has t i Request.Held :=
  not_held hq (by rw [hphase]; nofun) (by rw [hphase]; nofun)

/-- The requests that wait for a refresh are this flight. -/
structure Flies (t : Tab ι Token) (f : Flight ι) : Prop where
  flag : t.isRefreshing = f.leader.isSome
  leads : ∀ i, Has t i Request.Refreshing ↔ f.leader = some i
  queue : t.pendingQueue.map Waiting.request = f.waiting
  waits : ∀ i, Has t i Request.Queued ↔ i ∈ f.waiting
  once : f.waiting.Nodup
  marked : ∀ i q, t.requests i = some q → q.Held → q.config.retry = true

namespace Flies

variable {t t' : Tab ι Token} {f : Flight ι} {i : ι} {q : Request Token}

theorem load (activeCluster : String) :
    Flies (Tab.load activeCluster : Tab ι Token) Flight.idle where
  flag := rfl
  leads _ := iff_of_false (not_has rfl) nofun
  queue := rfl
  waits _ := iff_of_false (not_has rfl) List.not_mem_nil
  once := List.nodup_nil
  marked _ _ hq := nomatch hq

/-- The stores do not matter. -/
theorem congr (h : Flies t f) (hrequests : t'.requests = t.requests)
    (hqueue : t'.pendingQueue = t.pendingQueue)
    (hflag : t'.isRefreshing = t.isRefreshing) : Flies t' f where
  flag := hflag.trans h.flag
  leads i := by
    rw [Has, hrequests]
    exact h.leads i
  queue := by
    rw [hqueue]
    exact h.queue
  waits i := by
    rw [Has, hrequests]
    exact h.waits i
  once := h.once
  marked i q hq := h.marked i q (hrequests ▸ hq)

theorem not_leads (h : Flies t f) (hfree : ¬ Has t i Request.Held) :
    f.leader ≠ some i := by
  intro hlead
  obtain ⟨q, hq, hr⟩ := (h.leads i).mpr hlead
  exact hfree ⟨q, hq, .inr hr⟩

theorem not_waits (h : Flies t f) (hfree : ¬ Has t i Request.Held) :
    i ∉ f.waiting := by
  intro hmem
  obtain ⟨q, hq, hw⟩ := (h.waits i).mpr hmem
  exact hfree ⟨q, hq, .inl hw⟩

/-- No refresh is on its way when the flag is down. -/
theorem leader_none (h : Flies t f) (hflag : t.isRefreshing = false) :
    f.leader = none := by
  rw [h.flag] at hflag
  exact Option.not_isSome_iff_eq_none.mp (Bool.eq_false_iff.mp hflag)

/-- Whoever leads does not wait. -/
theorem leader_not_waits (h : Flies t f) (hlead : f.leader = some i) :
    i ∉ f.waiting := by
  intro hmem
  obtain ⟨q, hq, err, hr⟩ := (h.leads i).mpr hlead
  have hw : q.phase = .queued := (has_iff hq).mp ((h.waits i).mpr hmem)
  rw [hr] at hw
  cases hw

/-- The requests of a flight that lands are those that wait for a refresh. -/
theorem mem_landed (h : Flies t f) (hlead : f.leader = some i) (j : ι) :
    j ∈ landed i t ↔ Has t j Request.Held := by
  rw [landed, List.mem_append, List.mem_singleton, h.queue]
  constructor
  · rintro (hmem | rfl)
    · obtain ⟨q, hq, hw⟩ := (h.waits j).mpr hmem
      exact ⟨q, hq, .inl hw⟩
    · obtain ⟨q, hq, hr⟩ := (h.leads j).mpr hlead
      exact ⟨q, hq, .inr hr⟩
  · rintro ⟨q, hq, hw | hr⟩
    · exact .inl ((h.waits j).mp ⟨q, hq, hw⟩)
    · have hj := (h.leads j).mp ⟨q, hq, hr⟩
      exact .inr (Option.some.inj (hj.symm.trans hlead))

variable [DecidableEq ι]

/-- A request that waits for no refresh goes on. -/
theorem put (h : Flies t f) (hfree : ¬ Has t i Request.Held)
    (hq : ¬ q.Held) : Flies (t.put i q) f where
  flag := h.flag
  leads j := by
    rw [has_put]
    by_cases hj : j = i
    · subst hj
      rw [if_pos rfl]
      exact iff_of_false (fun hr => hq (.inr hr)) (h.not_leads hfree)
    · rw [if_neg hj]
      exact h.leads j
  queue := h.queue
  waits j := by
    rw [has_put]
    by_cases hj : j = i
    · subst hj
      rw [if_pos rfl]
      exact iff_of_false (fun hw => hq (.inl hw)) (h.not_waits hfree)
    · rw [if_neg hj]
      exact h.waits j
  once := h.once
  marked := forall_put h.marked (fun hheld => absurd hheld hq)

/-- A request that finds no refresh starts one. -/
theorem lead (h : Flies t f) (hflag : t.isRefreshing = false)
    (hq : q.Refreshing) (hretry : q.config.retry = true) :
    Flies { t.put i q with isRefreshing := true } (f.join i) := by
  have hnone : f.leader = none := h.leader_none hflag
  have hempty : f.waiting = [] := f.grounded hnone
  rw [Flight.join_idle hnone]
  refine ⟨rfl, fun j => ?_, ?_, fun j => ?_, List.nodup_nil,
    forall_put h.marked (fun _ => hretry)⟩
  · show Has (t.put i q) j Request.Refreshing ↔ some i = some j
    rw [has_put]
    by_cases hj : j = i
    · rw [if_pos hj, hj]
      exact iff_of_true hq rfl
    · rw [if_neg hj, h.leads, hnone]
      exact iff_of_false nofun (fun he => hj (Option.some.inj he).symm)
  · exact h.queue.trans hempty
  · show Has (t.put i q) j Request.Queued ↔ j ∈ []
    rw [has_put]
    by_cases hj : j = i
    · rw [if_pos hj]
      obtain ⟨err, herr⟩ := hq
      refine iff_of_false (fun hw => ?_) List.not_mem_nil
      exact nomatch herr.symm.trans hw
    · rw [if_neg hj, h.waits, hempty]

/-- A request that finds one waits for it. -/
theorem wait (h : Flies t f) (hfree : ¬ Has t i Request.Held)
    (hflag : t.isRefreshing = true) (hq : q.Queued)
    (hretry : q.config.retry = true) (err : AxiosError) :
    Flies { t.put i q with pendingQueue := t.pendingQueue ++ [⟨i, err⟩] }
      (f.join i) := by
  obtain ⟨k, hk⟩ := Option.isSome_iff_exists.mp (h.flag.symm.trans hflag)
  obtain ⟨hlead, hwaiting⟩ := Flight.join_busy (i := i) hk
  refine ⟨?_, fun j => ?_, ?_, fun j => ?_, ?_,
    forall_put h.marked (fun _ => hretry)⟩
  · rw [hlead]
    exact hflag
  · show Has (t.put i q) j Request.Refreshing ↔ _
    rw [has_put, hlead, ← hk]
    by_cases hj : j = i
    · subst hj
      rw [if_pos rfl]
      refine iff_of_false (fun ⟨err, herr⟩ => ?_) (h.not_leads hfree)
      exact nomatch hq.symm.trans herr
    · rw [if_neg hj]
      exact h.leads j
  · rw [hwaiting, List.map_append, h.queue]
    rfl
  · show Has (t.put i q) j Request.Queued ↔ _
    rw [has_put, hwaiting, List.mem_append, List.mem_singleton]
    by_cases hj : j = i
    · rw [if_pos hj]
      exact iff_of_true hq (.inr hj)
    · rw [if_neg hj, h.waits]
      exact (or_iff_left hj).symm
  · rw [hwaiting]
    exact List.Nodup.append h.once (List.nodup_singleton i)
      (List.disjoint_singleton.mpr (h.not_waits hfree))

/-- The answer of the refresh leaves nobody waiting. -/
theorem free_afterRefresh (h : Flies t f) (hq : t.requests i = some q)
    (err : AxiosError) (hlead : f.leader = some i)
    (data : Option (TokenResponse Token)) (j : ι) :
    ¬ Has (afterRefresh i q err data t).1 j Request.Held := by
  rintro ⟨r, hr, hheld⟩
  rw [afterRefresh_requests hq err data (h.queue ▸ h.once)] at hr
  by_cases hmem : j ∈ landed i t
  · rw [if_pos hmem] at hr
    obtain ⟨s, -, rfl⟩ := Option.map_eq_some_iff.mp hr
    exact callback_not_held _ s hheld
  · rw [if_neg hmem] at hr
    exact hmem ((h.mem_landed hlead j).mpr ⟨r, hr, hheld⟩)

theorem land (h : Flies t f) (hq : t.requests i = some q) (err : AxiosError)
    (hlead : f.leader = some i) (data : Option (TokenResponse Token)) :
    Flies (afterRefresh i q err data t).1 Flight.idle := by
  have hfree := h.free_afterRefresh hq err hlead data
  have hframe := afterRefresh_frame i q err data t
  refine ⟨congrArg Tab.isRefreshing hframe, fun j => ?_, ?_, fun j => ?_,
    List.nodup_nil, fun j r hr hheld => ?_⟩
  · exact iff_of_false (fun ⟨r, hr, hr'⟩ => hfree j ⟨r, hr, .inr hr'⟩) nofun
  · rw [congrArg Tab.pendingQueue hframe]
    rfl
  · exact iff_of_false (fun ⟨r, hr, hw⟩ => hfree j ⟨r, hr, .inl hw⟩)
      List.not_mem_nil
  · exact absurd ⟨r, hr, hheld⟩ (hfree j)

end Flies

/-- The requests that wait for a refresh are some flight. -/
def Flying (t : Tab ι Token) : Prop := ∃ f, Flies t f

theorem flying_load (activeCluster : String) :
    Flying (Tab.load activeCluster : Tab ι Token) :=
  ⟨Flight.idle, .load activeCluster⟩

/-! ## One event -/

section Steps

variable [DecidableEq ι]

theorem called_afterRefresh (i : ι) (q : Request Token) (err : AxiosError)
    (data : Option (TokenResponse Token)) (t : Tab ι Token) :
    (afterRefresh i q err data t).2.filterMap called
      = t.pendingQueue.map Waiting.request := by
  have hlast : (lastOutputs i err data).filterMap called = [] := by
    cases data <;> rfl
  rw [afterRefresh_outputs, List.filterMap_append, called_outputs, hlast,
    List.append_nil]

theorem enqueued_afterRefresh (i : ι) (q : Request Token) (err : AxiosError)
    (data : Option (TokenResponse Token)) (t : Tab ι Token) :
    (afterRefresh i q err data t).2.filterMap enqueued = [] := by
  refine List.filterMap_eq_nil_iff.mpr (fun o ho => ?_)
  have hsettling := settling_of_mem ho
  cases o with
  | queued j => exact absurd hsettling id
  | _ => rfl

theorem sentAgain_afterRefresh (i : ι) (q : Request Token) (err : AxiosError)
    (data : Option (TokenResponse Token)) (t : Tab ι Token) :
    (afterRefresh i q err data t).2.filterMap sentAgain
      = if data.isSome then landed i t else [] := by
  rw [afterRefresh_outputs, List.filterMap_append, sentAgain_outputs]
  cases data with
  | none => rfl
  | some data => rfl

/-- A step of a tab is matched by moves of the flight. -/
theorem flies_step {t : Tab ι Token} {f : Flight ι} (h : Flies t f)
    (e : Event ι Token) :
    ∃ ks, Flies (step e t) (after fly ks f) ∧
      (out e t).filterMap enqueued = outputs fly toWait ks f ∧
      (out e t).filterMap called = outputs fly letGo ks f := by
  have hacts := acts_react e t
  show ∃ ks, Flies (react e t).1 (after fly ks f) ∧
    (react e t).2.filterMap enqueued = outputs fly toWait ks f ∧
    (react e t).2.filterMap called = outputs fly letGo ks f
  generalize react e t = r at hacts
  -- a 401 of a request without a mark joins the flight, the answer of the
  -- refresh lands it, and nothing else concerns it
  cases hacts with
  | idle => exact ⟨[], h, rfl, rfl⟩
  | called params hnew =>
      exact ⟨[], h.put (not_has hnew) (by rintro (h | ⟨err, h⟩) <;> cases h),
        rfl, rfl⟩
  | sent hq hphase =>
      exact ⟨[], h.put (not_held hq (by rw [hphase]; nofun)
        (by rw [hphase]; nofun)) (by rintro (h | ⟨err, h⟩) <;> cases h),
        rfl, rfl⟩
  | resolved hq hphase =>
      exact ⟨[], h.put (free_of_sent hq hphase)
        (callback_not_held none _), rfl, rfl⟩
  | rejected err hq hphase hfinal =>
      exact ⟨[], h.put (free_of_sent hq hphase)
        (callback_not_held none _), rfl, rfl⟩
  | @queued i q err hq hphase hretry hbusy =>
      obtain ⟨k, hk⟩ := Option.isSome_iff_exists.mp (h.flag.symm.trans hbusy)
      have hnow : Request.Queued { q.mark with phase := .queued } := rfl
      refine ⟨[.join i], h.wait (free_of_sent hq hphase) hbusy hnow rfl err,
        ?_, rfl⟩
      show [i] = (if f.leader.isSome then [i] else []) ++ []
      rw [hk]
      rfl
  | @refreshing i q err hq hphase hretry hfree =>
      refine ⟨[.join i], h.lead hfree ⟨err, rfl⟩ rfl,
        ?_, rfl⟩
      show [] = (if f.leader.isSome then [i] else []) ++ []
      rw [← h.flag, hfree]
      rfl
  | @refreshed i q err data hq hphase =>
      have hlead := (h.leads i).mp ⟨q, hq, err, hphase⟩
      refine ⟨[.land], h.land hq err hlead data, enqueued_afterRefresh ..,
        (called_afterRefresh ..).trans ?_⟩
      rw [h.queue]
      exact (List.append_nil _).symm
  | switched name => exact ⟨[], h.congr rfl rfl rfl, rfl, rfl⟩
  | login data => exact ⟨[], h.congr rfl rfl rfl, rfl, rfl⟩
  | mounted => exact ⟨[], h.congr rfl rfl rfl, rfl, rfl⟩
  | restored data => exact ⟨[], h.congr rfl rfl rfl, rfl, rfl⟩
  | refused => exact ⟨[], h.congr rfl rfl rfl, rfl, rfl⟩
  | logout => exact ⟨[], h.congr rfl rfl rfl, rfl, rfl⟩

/-! ## Requests go through the queue once -/

/-- What is true of marked requests only, and of all marked requests that wait
    for no refresh, stays true of a request. -/
theorem has_step {t : Tab ι Token} {f : Flight ι} (h : Flies t f)
    {P : Request Token → Prop} (hmark : ∀ q, P q → Marked q)
    (hdone : ∀ q, Done q → P q) (e : Event ι Token) {j : ι}
    (hj : Has t j P) : Has (step e t) j P := by
  -- the events that let a request go on keep its mark, so it is done
  have hput : ∀ {i : ι} {q r : Request Token}, t.requests i = some q →
      r.config.retry = q.config.retry → ¬ r.Held → Has (t.put i r) j P := by
    intro i q r hq hretry hfree
    rw [has_put]
    by_cases hji : j = i
    · subst hji
      rw [if_pos rfl]
      exact hdone r ⟨hretry.trans (hmark q ((has_iff hq).mp hj)), hfree⟩
    · rw [if_neg hji]
      exact hj
  -- a request that joins the flight had no mark, so it is another one
  have hunmarked : ∀ {i : ι} {q : Request Token}, t.requests i = some q →
      q.config.retry = false → j ≠ i := by
    rintro i q hq hretry rfl
    have hm : q.config.retry = true := hmark q ((has_iff hq).mp hj)
    rw [hretry] at hm
    cases hm
  have hacts := acts_react e t
  show Has (react e t).1 j P
  generalize react e t = r at hacts
  cases hacts with
  | idle => exact hj
  | @called i params hnew =>
      rw [has_put, if_neg]
      · exact hj
      · rintro rfl
        exact not_has hnew hj
  | sent hq hphase =>
      refine hput hq ?_ (by rintro (h | ⟨err, h⟩) <;> cases h)
      exact requestInterceptor_retry ..
  | resolved hq hphase => exact hput hq rfl (callback_not_held none _)
  | rejected err hq hphase hfinal =>
      exact hput hq rfl (callback_not_held none _)
  | queued err hq hphase hretry hbusy =>
      obtain ⟨q, hj, hP⟩ := hj
      exact ⟨q, (put_of_ne (hunmarked hq hretry) ..).trans hj, hP⟩
  | refreshing err hq hphase hretry hfree =>
      obtain ⟨q, hj, hP⟩ := hj
      exact ⟨q, (put_of_ne (hunmarked hq hretry) ..).trans hj, hP⟩
  | @refreshed i q err data hq hphase =>
      obtain ⟨r, hr, hP⟩ := hj
      rw [Has, afterRefresh_requests hq err data (h.queue ▸ h.once), hr]
      by_cases hmem : j ∈ landed i t
      · rw [if_pos hmem]
        exact ⟨_, rfl, hdone _ ⟨(callback_retry ..).trans (hmark r hP),
          callback_not_held _ r⟩⟩
      · rw [if_neg hmem]
        exact ⟨r, rfl, hP⟩
  | switched name => exact hj
  | login data => exact hj
  | mounted => exact hj
  | restored data => exact hj
  | refused => exact hj
  | logout => exact hj

/-- A step keeps what the log so far says of the requests. -/
theorem Once.kept {log : List (Output ι Token)} {t : Tab ι Token}
    {f : Flight ι} (h : Once log t) (hf : Flies t f) (e : Event ι Token) :
    Once log (step e t) where
  enqueued := h.enqueued
  sentAgain := h.sentAgain
  enqueued_marked i hi :=
    has_step hf (fun _ => id) marked_of_done e (h.enqueued_marked i hi)
  sentAgain_done i hi :=
    has_step hf marked_of_done (fun _ => id) e (h.sentAgain_done i hi)

theorem Once.step {log : List (Output ι Token)} {t : Tab ι Token}
    {f : Flight ι} (h : Once log t) (hf : Flies t f) (e : Event ι Token) :
    Once (log ++ out e t) (step e t) := by
  have hkept := h.kept hf e
  have hacts := acts_react e t
  change Once (log ++ (react e t).2) (react e t).1
  change Once log (react e t).1 at hkept
  generalize react e t = r at hacts hkept
  cases hacts with
  | idle => exact hkept.append_other rfl rfl
  | called params hnew => exact hkept.append_other rfl rfl
  | sent hq hphase => exact hkept.append_other rfl rfl
  | resolved hq hphase => exact hkept.append_other rfl rfl
  | rejected err hq hphase hfinal => exact hkept.append_other rfl rfl
  | @queued i q err hq hphase hretry hbusy =>
      refine hkept.append (List.nodup_singleton i) List.nodup_nil ?_
        (fun j hj => absurd hj List.not_mem_nil)
      intro j hj
      obtain rfl := List.mem_singleton.mp hj
      refine ⟨fun hin => ?_, ⟨_, put_self .., rfl⟩⟩
      -- who was queued before has the mark, and `q` has none
      have hm : q.config.retry = true :=
        (has_iff hq).mp (h.enqueued_marked j hin)
      rw [hretry] at hm
      cases hm
  | refreshing err hq hphase hretry hfree => exact hkept.append_other rfl rfl
  | @refreshed i q err data hq hphase =>
      have hlead := (hf.leads i).mp ⟨q, hq, err, hphase⟩
      cases data with
      | none =>
          exact hkept.append_other (enqueued_afterRefresh ..)
            (sentAgain_afterRefresh ..)
      | some data =>
          have hsent : (afterRefresh i q err (some data) t).2.filterMap
              CvQueue.sentAgain = landed i t := sentAgain_afterRefresh ..
          refine hkept.append ?_ (hsent ▸ ?_) ?_ ?_
          · rw [enqueued_afterRefresh]
            exact List.nodup_nil
          · refine List.Nodup.append (hf.queue ▸ hf.once)
              (List.nodup_singleton i) (List.disjoint_singleton.mpr ?_)
            rw [hf.queue]
            exact hf.leader_not_waits hlead
          · intro j hj
            rw [enqueued_afterRefresh] at hj
            exact absurd hj List.not_mem_nil
          · intro j hj
            rw [hsent] at hj
            obtain ⟨r, hr, hheld⟩ := (hf.mem_landed hlead j).mp hj
            refine ⟨fun hin => ?_, r.callback (newToken (some data)), ?_,
              (callback_retry ..).trans (hf.marked j r hr hheld),
              callback_not_held _ r⟩
            · -- who was sent again before waits for nothing any more
              exact ((has_iff hr).mp (h.sentAgain_done j hin)).2 hheld
            · rw [afterRefresh_requests hq err _ (hf.queue ▸ hf.once), if_pos hj,
                hr]
              rfl
  | switched name => exact hkept.append_other rfl rfl
  | login data => exact hkept.append_other rfl rfl
  | mounted => exact hkept.append_other rfl rfl
  | restored data => exact hkept.append_other rfl rfl
  | refused => exact hkept.append_other rfl rfl
  | logout => exact hkept.append_other rfl rfl

theorem flying_step (t : Tab ι Token) (e : Event ι Token) (h : Flying t) :
    Flying (step e t) := by
  obtain ⟨f, hf⟩ := h
  obtain ⟨ks, hks, -⟩ := flies_step hf e
  exact ⟨after fly ks f, hks⟩

end Steps

/-! ## Every run -/

/-- The log and the tab that a run leaves. -/
structure Tracks (log : List (Output ι Token)) (t : Tab ι Token)
    (ks : List (Move ι)) : Prop where
  flies : Flies t (after fly ks Flight.idle)
  waited : log.filterMap enqueued = outputs fly toWait ks Flight.idle
  freed : log.filterMap called = outputs fly letGo ks Flight.idle

/-- What holds of the log and of the tab in every run. -/
def Kept (log : List (Output ι Token)) (t : Tab ι Token) : Prop :=
  (∃ ks, Tracks log t ks) ∧ Once log t

theorem kept_load (activeCluster : String) :
    Kept [] (Tab.load activeCluster : Tab ι Token) :=
  ⟨⟨[], .load activeCluster, rfl, rfl⟩, .load activeCluster⟩

/-- The queue of a tab, after the outputs of its log. -/
structure QueueKept (log : List (Output ι Token)) (t : Tab ι Token) :
    Prop where
  one_refresh : ∀ i j, Has t i Request.Refreshing →
    Has t j Request.Refreshing → i = j
  flag : t.isRefreshing = true ↔ ∃ i, Has t i Request.Refreshing
  drained : t.isRefreshing = false → t.pendingQueue = []
  settled : log.filterMap enqueued
    = log.filterMap called ++ t.pendingQueue.map Waiting.request
  settled_once : (log.filterMap enqueued).Nodup
  replayed_once : (log.filterMap sentAgain).Nodup

theorem queueKept_of_kept {log : List (Output ι Token)} {t : Tab ι Token}
    (h : Kept log t) : QueueKept log t := by
  obtain ⟨⟨ks, hf, hwaited, hfreed⟩, honce⟩ := h
  refine ⟨fun i j hi hj => ?_, ?_, fun hflag => ?_, ?_, honce.enqueued,
    honce.sentAgain⟩
  · exact Option.some.inj (((hf.leads i).mp hi).symm.trans ((hf.leads j).mp hj))
  · rw [hf.flag, Option.isSome_iff_exists]
    exact exists_congr (fun i => (hf.leads i).symm)
  · -- nobody waits in a flight without a leader
    have hempty := (after fly ks Flight.idle).grounded (hf.leader_none hflag)
    rw [← hf.queue] at hempty
    exact List.map_eq_nil_iff.mp hempty
  · rw [hwaited, hfreed, hf.queue]
    exact waited_eq ks

variable [DecidableEq ι]

theorem kept_step (log : List (Output ι Token)) (t : Tab ι Token)
    (e : Event ι Token) (h : Kept log t) :
    Kept (log ++ out e t) (step e t) := by
  obtain ⟨⟨ks, hflies, hwaited, hfreed⟩, honce⟩ := h
  obtain ⟨new, hnew, hqueue, hcalled⟩ := flies_step hflies e
  refine ⟨⟨ks ++ new, ?_, ?_, ?_⟩, honce.step hflies e⟩
  · rw [after_append]
    exact hnew
  · rw [List.filterMap_append, hwaited, hqueue, outputs_append]
  · rw [List.filterMap_append, hfreed, hcalled, outputs_append]

theorem kept_run (activeCluster : String) (run : List (Event ι Token)) :
    Kept (outputs step out run (Tab.load activeCluster))
      (after step run (Tab.load activeCluster)) :=
  outputs_inv kept_step (kept_load activeCluster) run

/-- The answer of a refresh settles every request of the queue: after a
    success it is sent again with the new token, after a failure its promise
    is rejected. -/
def Settles (t : Tab ι Token) (e : Event ι Token) : Prop :=
  ∀ i data, e = .refreshed i data → Has t i Request.Refreshing →
    (step e t).pendingQueue = [] ∧
    ∀ w ∈ t.pendingQueue, ∃ q, t.requests w.request = some q ∧ q.Queued ∧
      .calledBack w.request ∈ out e t ∧
      match data with
      | some data =>
          (step e t).requests w.request = some (q.replay data.accessToken) ∧
            .replayed w.request data.accessToken ∈ out e t ∧
            (step e t).auth.accessToken = some data.accessToken
      | none =>
          (step e t).requests w.request = some q.settle ∧
            .rejected w.request (.raw w.err) ∈ out e t

theorem settles_of_flies {t : Tab ι Token} {f : Flight ι} (h : Flies t f)
    (e : Event ι Token) : Settles t e := by
  rintro i data rfl ⟨q, hq, err, hphase⟩
  rw [step, out, react_refreshed hq hphase]
  refine ⟨congrArg Tab.pendingQueue (afterRefresh_frame ..), fun w hw => ?_⟩
  have hwait : w.request ∈ t.pendingQueue.map Waiting.request :=
    List.mem_map_of_mem hw
  obtain ⟨r, hr, hqueued⟩ := (h.waits w.request).mpr (h.queue ▸ hwait)
  have hmem : w.request ∈ landed i t := List.mem_append_left [i] hwait
  have hrequest := afterRefresh_requests hq err data (h.queue ▸ h.once)
    w.request
  rw [if_pos hmem, hr] at hrequest
  have hout : ∀ o ∈ w.outputs (newToken data),
      o ∈ (afterRefresh i q err data t).2 := by
    intro o ho
    rw [afterRefresh_outputs]
    exact List.mem_append_left _ (List.mem_flatMap.mpr ⟨w, hw, ho⟩)
  have hauth := congrArg Tab.auth (afterRefresh_frame i q err data t)
  refine ⟨r, hr, hqueued, ?_⟩
  cases data with
  | none =>
      exact ⟨hout _ (List.mem_cons_self ..), hrequest,
        hout _ (List.mem_cons_of_mem _ (List.mem_cons_self ..))⟩
  | some data =>
      exact ⟨hout _ (List.mem_cons_self ..), hrequest,
        hout _ (List.mem_cons_of_mem _ (List.mem_cons_self ..)),
        congrArg AuthStore.accessToken hauth⟩

/-- In every run of a tab at most one refresh of the interceptor is on its
    way, nobody is queued when there is none, and whoever is queued is called
    back once, by the answer of the refresh. -/
theorem refresh_queue (activeCluster : String) (run : List (Event ι Token)) :
    QueueKept (outputs step out run (Tab.load activeCluster))
        (after step run (Tab.load activeCluster)) ∧
      Along step Settles run (Tab.load activeCluster) := by
  have hsettles : ∀ (t : Tab ι Token) e, Flying t → Settles t e := by
    rintro t e ⟨f, hf⟩
    exact settles_of_flies hf e
  exact ⟨queueKept_of_kept (kept_run activeCluster run),
    along_of_inv flying_step hsettles (flying_load activeCluster) run⟩

end CvQueue
