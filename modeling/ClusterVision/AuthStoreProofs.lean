import ClusterVision.ActiveClusterProofs

/-! # Who is signed in

    The store of a tab has a user and an access token.  A login and the
    refresh of `RequireAuth` set both; the refresh of the interceptor sets the
    token alone, though its response has a user, too. -/

namespace CvStore

open CvRun CvIso CvBackend CvHttp CvToken CvClient

variable {ι Token : Type}

/-- The store decides on the roles of this response. -/
structure SpeaksFor (s : AuthStore Token) (data : TokenResponse Token) :
    Prop where
  token : s.accessToken = some data.accessToken
  user : s.user = some ⟨data.username, data.roles⟩
  roleFor : ∀ scope, s.roleFor scope = data.roles scope
  canWrite : ∀ scope, s.canWrite scope = true ↔
    data.roles scope = some .operator ∨ data.roles scope = some .admin
  isInstanceAdmin : s.isInstanceAdmin = true ↔
    data.roles instanceScope = some .admin

/-- The user and the token make up the rest. -/
theorem speaksFor_iff {s : AuthStore Token} {data : TokenResponse Token} :
    SpeaksFor s data ↔ s.accessToken = some data.accessToken ∧
      s.user = some ⟨data.username, data.roles⟩ := by
  constructor
  · intro h
    exact ⟨h.token, h.user⟩
  · rintro ⟨htoken, huser⟩
    have hrole : ∀ scope, s.roleFor scope = data.roles scope := by
      intro scope
      rw [AuthStore.roleFor, huser]
      rfl
    refine ⟨htoken, huser, hrole, fun scope => ?_, ?_⟩
    · rw [AuthStore.canWrite, decide_eq_true_iff, hrole]
    · rw [AuthStore.isInstanceAdmin, decide_eq_true_iff, hrole]

/-! ## The token of the store -/

/-- A store with an access token speaks for the response that the token came
    with. -/
def MatchesToken (t : Tab ι Token) : Prop :=
  ∀ token, t.auth.accessToken = some token →
    ∃ data, t.granted = some data ∧ data.accessToken = token ∧
      SpeaksFor t.auth data

variable [DecidableEq ι]

/-- When a refresh of the interceptor answers, the store has the user of the
    response already: the same account, with the same roles, still signed
    in. -/
def KeepsUser (t : Tab ι Token) (e : PageEvent ι Token) : Prop :=
  ∀ i data, e = .inTab (.refreshed i (some data)) →
    Has t i Request.Refreshing →
    t.auth.user = some ⟨data.username, data.roles⟩

/-- The other events keep user and token together. -/
theorem matches_act {t : Tab ι Token} {e : Event ι Token}
    {r : Tab ι Token × List (Output ι Token)} (hacts : Acts t e r)
    (hother : ∀ i data, e = .refreshed i (some data) →
      ¬ Has t i Request.Refreshing) (h : MatchesToken t) :
    MatchesToken r.1 := by
  cases hacts with
  | @refreshed i q err data hq hphase =>
      cases data with
      | some data =>
          exact absurd ⟨q, hq, err, hphase⟩ (hother i data rfl)
      | none =>
          -- a failed refresh clears both fields
          intro token htoken
          rw [afterRefresh_frame] at htoken
          cases htoken
  | login data =>
      intro token htoken
      exact ⟨data, rfl, Option.some.inj htoken, speaksFor_iff.mpr ⟨rfl, rfl⟩⟩
  | restored data =>
      intro token htoken
      exact ⟨data, rfl, Option.some.inj htoken, speaksFor_iff.mpr ⟨rfl, rfl⟩⟩
  | logout => exact nofun
  | _ => exact h

/-- After a refresh of the interceptor, user and token belong together when
    the user was the one of the response before. -/
theorem matches_refreshed {i : ι} {q : Request Token} {err : AxiosError}
    {data : TokenResponse Token} {t : Tab ι Token} :
    MatchesToken (afterRefresh i q err (some data) t).1 ↔
      t.auth.user = some ⟨data.username, data.roles⟩ := by
  rw [afterRefresh_frame]
  constructor
  · intro h
    obtain ⟨data', hgranted, -, hspeaks⟩ := h data.accessToken rfl
    obtain rfl := Option.some.inj hgranted
    exact hspeaks.user
  · intro huser token htoken
    exact ⟨data, rfl, Option.some.inj htoken,
      speaksFor_iff.mpr ⟨rfl, huser⟩⟩

theorem matches_step (t : Tab ι Token) (e : PageEvent ι Token)
    (h : MatchesToken t) : MatchesToken (pageStep e t) ↔ KeepsUser t e := by
  cases e with
  | load activeCluster => exact iff_of_true nofun nofun
  | inTab e =>
      have hacts := acts_react e t
      change MatchesToken (react e t).1 ↔ _
      by_cases hrefreshed : ∃ i data, e = .refreshed i (some data) ∧
          Has t i Request.Refreshing
      · obtain ⟨i, data, rfl, q, hq, err, hphase⟩ := hrefreshed
        rw [react_refreshed hq hphase, matches_refreshed]
        constructor
        · rintro huser j data' he -
          cases he
          exact huser
        · intro hkeeps
          exact hkeeps i data rfl ⟨q, hq, err, hphase⟩
      · have hother : ∀ i data, e = .refreshed i (some data) →
            ¬ Has t i Request.Refreshing :=
          fun i data he hi => hrefreshed ⟨i, data, he, hi⟩
        refine iff_of_true (matches_act hacts hother h) ?_
        rintro i data he hi
        cases he
        exact absurd hi (hother i data rfl)

/-- In every session, a store with an access token speaks for the response
    that the token came with, in every state, exactly when each refresh of the
    interceptor answers with the user that the store has. -/
theorem store_matches_token (activeCluster : String)
    (run : List (PageEvent ι Token)) :
    (∀ pre, pre <+: run →
      MatchesToken (after pageStep pre (Tab.load activeCluster))) ↔
    Along pageStep KeepsUser run (Tab.load activeCluster) := by
  have hload : MatchesToken (Tab.load activeCluster : Tab ι Token) := nofun
  rw [reached_iff, and_iff_right hload]
  refine along_congr ?_ matches_step hload run
  exact fun t e _ hnext => hnext

/-- A viewer signs in, becomes an operator, and works on. -/
def promotedRun : List (PageEvent Nat Nat) :=
  [.inTab (.login ⟨0, fun _ => some .viewer, "alice"⟩),
    .inTab (.call 0 ⟨[], rfl⟩), .inTab (.intercept 0),
    .inTab (.respond 0 (some ⟨"", some (401, .text "Token expired")⟩)),
    .inTab (.refreshed 0 (some ⟨1, fun _ => some .operator, "alice"⟩))]

/-- The store has the new token and the old roles. -/
theorem promoted_keeps_old_roles :
    ¬ MatchesToken (after pageStep promotedRun (Tab.load "local")) := by
  intro h
  have htoken : (after pageStep promotedRun (Tab.load "local")).auth.accessToken
      = some 1 := by decide +kernel
  have hrole : (after pageStep promotedRun
      (Tab.load "local")).auth.roleFor "local" = some .viewer := by
    decide +kernel
  obtain ⟨data, hgranted, -, hspeaks⟩ := h 1 htoken
  have hdata : data = ⟨1, fun _ => some .operator, "alice"⟩ :=
    (Option.some.inj hgranted).symm
  have hsame := hspeaks.roleFor "local"
  rw [hrole, hdata] at hsame
  exact absurd hsame (by decide)

end CvStore
