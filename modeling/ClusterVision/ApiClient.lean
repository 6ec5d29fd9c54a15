import Mathlib.Logic.Function.Basic
import ClusterVision.RunProofs
import ClusterVision.AuthRoutes

/-! # The browser client

    `api/client.ts`, `store/authStore.ts`, `store/clusterStore.ts`,
    `RequireAuth.tsx` and the places that sign in and out.  A tab is one load
    of the page.  Its handlers run to their next `await` without interruption,
    so each event below is one handler; axios runs the request interceptor in
    a microtask of its own, after `client(config)` has returned. -/

namespace CvClient

open CvKube CvBackend CvHttp CvToken

/-! ## Errors -/

/-- An element of the `detail` of a validation error: an object with a `msg`,
    or what `String(d)` gives. -/
inductive DetailItem where
  | entry (loc : Option (List String)) (msg : String)
  | other (text : String)
deriving DecidableEq, Repr

/-- `err.response?.data?.detail`. -/
inductive Detail where
  | text (s : String)
  | items (ds : List DetailItem)
  | other
deriving DecidableEq, Repr

/-- `AxiosError`: `response` is the status and the detail of an answer. -/
structure AxiosError where
  message : String
  response : Option (Nat × Detail)
deriving DecidableEq, Repr

/-- `err.response?.status`. -/
def AxiosError.status (err : AxiosError) : Option Nat :=
  err.response.map (·.1)

/-- `ApiError`. -/
structure ApiError where
  message : String
  status : Option Nat
deriving DecidableEq, Repr

def DetailItem.text : DetailItem → String
  | .entry loc msg =>
      let loc := ".".intercalate ((loc.getD []).drop 1)
      if loc = "" then msg else loc ++ ": " ++ msg
  | .other text => text

/-- `formatApiError`. -/
def formatApiError (err : AxiosError) : ApiError :=
  let message :=
    match err.response.map (·.2) with
    | some (.text s) => s
    | some (.items ds) => " — ".intercalate (ds.map DetailItem.text)
    | _ => if err.message = "" then "Request failed" else err.message
  ⟨message, err.status⟩

/-- What a promise of the client is rejected with. -/
inductive Failure where
  | raw (err : AxiosError)
  | formatted (err : ApiError)
deriving DecidableEq, Repr

/-! ## Stores -/

structure AuthUser where
  username : String
  roles : String → Option Role

/-- `useAuthStore`. -/
structure AuthStore (Token : Type) where
  user : Option AuthUser := none
  accessToken : Option Token := none

namespace AuthStore

variable {Token : Type}

def setAuth (user : AuthUser) (accessToken : Token) : AuthStore Token :=
  { user := some user, accessToken := some accessToken }

def setAccessToken (accessToken : Token) (s : AuthStore Token) :
    AuthStore Token :=
  { s with accessToken := some accessToken }

def clearAuth : AuthStore Token := { user := none, accessToken := none }

def roleFor (scope : String) (s : AuthStore Token) : Option Role :=
  s.user.bind (·.roles scope)

def isInstanceAdmin (s : AuthStore Token) : Bool :=
  decide (s.roleFor instanceScope = some .admin)

def canWrite (scope : String) (s : AuthStore Token) : Bool :=
  decide (s.roleFor scope = some .operator ∨ s.roleFor scope = some .admin)

end AuthStore

/-! ## Requests -/

/-- The query parameters of an API module: none of them is `cluster`. -/
structure Params where
  dict : Dict
  noCluster : dict.get? "cluster" = none

/-- The config of a request, as far as the interceptors touch it: `retry` is
    `_retry`, `authorization` the token of the header. -/
structure Config (Token : Type) where
  params : Dict
  authorization : Option Token := none
  retry : Bool := false
deriving DecidableEq

/-- Where a request is: `client(config)` was called, it is on its way, its
    callback is in `pendingQueue`, its response interceptor awaits the refresh
    (and holds the error that it was called with), its promise is settled. -/
inductive Phase where
  | asked
  | sent
  | queued
  | refreshing (err : AxiosError)
  | settled
deriving DecidableEq, Repr

/-- A request.  The code does not keep `issuedOn`: it is the cluster that was
    active when the request was made. -/
structure Request (Token : Type) where
  config : Config Token
  phase : Phase
  issuedOn : String

namespace Request

variable {Token : Type}

def settle (q : Request Token) : Request Token :=
  { q with phase := .settled }

/-- `client(original)`, with a new token. -/
def replay (token : Token) (q : Request Token) : Request Token :=
  { q with
    config := { q.config with authorization := some token }
    phase := .asked }

/-- `original._retry = true`. -/
def mark (q : Request Token) : Request Token :=
  { q with config := { q.config with retry := true } }

end Request

/-- A callback of `pendingQueue`, with what it closes over. -/
structure Waiting (ι : Type) where
  request : ι
  err : AxiosError
deriving DecidableEq

/-- What a tab does to the outside, and the steps of the queue. -/
inductive Output (ι Token : Type) where
  | transmitted (i : ι) (config : Config Token)
  | refreshSent (i : ι)
  | queued (i : ι)
  | calledBack (i : ι)
  | replayed (i : ι) (token : Token)
  | resolved (i : ι)
  | rejected (i : ι) (failure : Failure)
  | cacheCleared
  | redirected
deriving DecidableEq

/-- The state of a tab.  `checks` counts the refreshes of `RequireAuth` that
    have no answer yet.  The code does not keep `granted`: it is the response
    that the access token of the store came with. -/
structure Tab (ι Token : Type) where
  activeCluster : String
  auth : AuthStore Token
  isRefreshing : Bool
  pendingQueue : List (Waiting ι)
  requests : ι → Option (Request Token)
  checks : Nat
  granted : Option (TokenResponse Token)

section Handlers

variable {ι Token : Type}

/-- A page that was just loaded: only the active cluster is persisted. -/
def Tab.load (activeCluster : String) : Tab ι Token where
  activeCluster := activeCluster
  auth := {}
  isRefreshing := false
  pendingQueue := []
  requests := fun _ => none
  checks := 0
  granted := none

/-- The request interceptor. -/
def requestInterceptor (activeCluster : String) (accessToken : Option Token)
    (config : Config Token) : Config Token :=
  let config :=
    if activeCluster ≠ "" ∧ activeCluster ≠ "local" then
      { config with
        params := config.params.merge [("cluster", activeCluster)] }
    else config
  match accessToken with
  | some token => { config with authorization := some token }
  | none => config

/-- The callback that a request left in the queue. -/
def Request.callback (token : Option Token) (q : Request Token) :
    Request Token :=
  match token with
  | none => q.settle
  | some token => q.replay token

def Waiting.outputs (token : Option Token) (w : Waiting ι) :
    List (Output ι Token) :=
  match token with
  | none => [.calledBack w.request, .rejected w.request (.raw w.err)]
  | some token => [.calledBack w.request, .replayed w.request token]

/-- `setAuth` with a response of the backend. -/
def Tab.signIn (data : TokenResponse Token) (t : Tab ι Token) : Tab ι Token :=
  { t with
    auth := AuthStore.setAuth ⟨data.username, data.roles⟩ data.accessToken
    granted := some data }

/-- `clearAuth`. -/
def Tab.signOut (t : Tab ι Token) : Tab ι Token :=
  { t with auth := AuthStore.clearAuth, granted := none }

/-- `setAccessToken` with a response of the backend. -/
def Tab.renew (data : TokenResponse Token) (t : Tab ι Token) : Tab ι Token :=
  { t with
    auth := t.auth.setAccessToken data.accessToken
    granted := some data }

variable [DecidableEq ι]

def Tab.put (i : ι) (q : Request Token) (t : Tab ι Token) : Tab ι Token :=
  { t with requests := Function.update t.requests i (some q) }

/-- One callback runs. -/
def Tab.callBack (token : Option Token) (t : Tab ι Token) (w : Waiting ι) :
    Tab ι Token :=
  match t.requests w.request with
  | none => t
  | some q => t.put w.request (q.callback token)

/-- `drainQueue`. -/
def drainQueue (token : Option Token) (t : Tab ι Token) :
    Tab ι Token × List (Output ι Token) :=
  ({ t.pendingQueue.foldl (Tab.callBack token) t with pendingQueue := [] },
    t.pendingQueue.flatMap (Waiting.outputs token))

/-- The response interceptor for an error, up to its first `await`. -/
def responseInterceptor (i : ι) (q : Request Token) (err : AxiosError)
    (t : Tab ι Token) : Tab ι Token × List (Output ι Token) :=
  if err.status = some 401 ∧ q.config.retry = false then
    if t.isRefreshing then
      ({ t.put i { q.mark with phase := .queued } with
        pendingQueue := t.pendingQueue ++ [⟨i, err⟩] }, [.queued i])
    else
      ({ t.put i { q.mark with phase := .refreshing err } with
        isRefreshing := true }, [.refreshSent i])
  else
    (t.put i q.settle, [.rejected i (.formatted (formatApiError err))])

/-- The rest of it, when the refresh has answered (`none`: it failed): `try`
    or `catch`, then `finally`. -/
def afterRefresh (i : ι) (q : Request Token) (err : AxiosError)
    (data : Option (TokenResponse Token)) (t : Tab ι Token) :
    Tab ι Token × List (Output ι Token) :=
  match data with
  | some data =>
      let p := drainQueue (some data.accessToken) (t.renew data)
      -- `return client(original)` does not wait for the replay
      ({ p.1.put i (q.replay data.accessToken) with isRefreshing := false },
        p.2 ++ [.replayed i data.accessToken])
  | none =>
      let p := drainQueue none t
      ({ p.1.signOut.put i q.settle with isRefreshing := false },
        p.2 ++ [.cacheCleared, .redirected, .rejected i (.raw err)])

/-- What happens in a tab.  A name of a request stands for one call of the
    client. -/
inductive Event (ι Token : Type) where
  | call (i : ι) (params : Params)
  | intercept (i : ι)
  | respond (i : ι) (error : Option AxiosError)
  | refreshed (i : ι) (data : Option (TokenResponse Token))
  | setActiveCluster (name : String)
  /-- `handleSubmit` of the login page has its answer. -/
  | login (data : TokenResponse Token)
  /-- `RequireAuth` is mounted. -/
  | requireAuth
  | checked (data : Option (TokenResponse Token))
  /-- `handleLogout` has its answer, or has given up on it. -/
  | logout

/-- The handler of an event.  An event of a request that does not wait for it
    does nothing. -/
def react (e : Event ι Token) (t : Tab ι Token) :
    Tab ι Token × List (Output ι Token) :=
  match e with
  | .call i params =>
      match t.requests i with
      | some _ => (t, [])
      | none =>
          (t.put i ⟨{ params := params.dict }, .asked, t.activeCluster⟩, [])
  | .intercept i =>
      match t.requests i with
      | some ⟨config, .asked, issuedOn⟩ =>
          let config :=
            requestInterceptor t.activeCluster t.auth.accessToken config
          (t.put i ⟨config, .sent, issuedOn⟩, [.transmitted i config])
      | _ => (t, [])
  | .respond i none =>
      match t.requests i with
      | some ⟨config, .sent, issuedOn⟩ =>
          (t.put i ⟨config, .settled, issuedOn⟩, [.resolved i])
      | _ => (t, [])
  | .respond i (some err) =>
      match t.requests i with
      | some ⟨config, .sent, issuedOn⟩ =>
          responseInterceptor i ⟨config, .sent, issuedOn⟩ err t
      | _ => (t, [])
  | .refreshed i data =>
      match t.requests i with
      | some ⟨config, .refreshing err, issuedOn⟩ =>
          afterRefresh i ⟨config, .refreshing err, issuedOn⟩ err data t
      | _ => (t, [])
  | .setActiveCluster name => ({ t with activeCluster := name }, [])
  | .login data => (t.signIn data, [])
  | .requireAuth =>
      match t.auth.user with
      | some _ => (t, [])
      | none => ({ t with checks := t.checks + 1 }, [])
  | .checked data =>
      if t.checks = 0 then (t, [])
      else
        let t := { t with checks := t.checks - 1 }
        match data with
        | some data => (t.signIn data, [])
        | none => (t, [])
  | .logout => (t.signOut, [.cacheCleared])

def step (e : Event ι Token) (t : Tab ι Token) : Tab ι Token := (react e t).1

def out (e : Event ι Token) (t : Tab ι Token) : List (Output ι Token) :=
  (react e t).2

end Handlers

/-! ## Reloads -/

/-- A session in the browser: tabs one after the other, since a reload loses
    all but the persisted cluster (which another tab may have set). -/
inductive PageEvent (ι Token : Type) where
  | load (activeCluster : String)
  | inTab (e : Event ι Token)

def pageStep {ι Token : Type} [DecidableEq ι] :
    PageEvent ι Token → Tab ι Token → Tab ι Token
  | .load activeCluster, _ => Tab.load activeCluster
  | .inTab e, t => step e t

end CvClient
