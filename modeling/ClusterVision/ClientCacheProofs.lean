import ClusterVision.ClusterService
import ClusterVision.RunProofs

/-! # How old a cached client can be

    One worker, and a registry that other workers change: `registry t` holds
    the rows at the moment `t`.  All cached clients share one time of reload,
    but a reload looks at the row of the requested cluster only.  A client is
    as fresh as the reload interval says exactly as long as the worker answers
    from the cache only within that interval of the last reload made for that
    very cluster. -/

namespace CvCluster

open CvProg CvRun CvTable CvIso CvKube CvBackend

/-! ## What a call leaves in the cache -/

/-- Every cached client is kept with the configuration it was built from. -/
def Paired (c : ClientCache) : Prop :=
  ∀ name client, c.clients name = some client →
    c.clientCfgs name = some client.cfg

/-- Two caches that hold the same clients for all clusters but one. -/
structure SameBut (name : String) (c c' : ClientCache) : Prop where
  clients : ∀ n, n ≠ name → c'.clients n = c.clients n
  clientCfgs : ∀ n, n ≠ name → c'.clientCfgs n = c.clientCfgs n

/-- The time of the last reload does not matter. -/
theorem sameBut_stamped (name : String) (c : ClientCache) (t : Nat) :
    SameBut name c { c with lastReload := t } :=
  ⟨fun _ _ => rfl, fun _ _ => rfl⟩

theorem SameBut.trans {name : String} {b c d : ClientCache}
    (h : SameBut name b c) (h' : SameBut name c d) : SameBut name b d :=
  ⟨fun n hn => (h'.clients n hn).trans (h.clients n hn),
    fun n hn => (h'.clientCfgs n hn).trans (h.clientCfgs n hn)⟩

@[simp] theorem dropClient_clients (name : String) (c : ClientCache) :
    (dropClient name c).clients = Function.update c.clients name none := rfl

theorem sameBut_dropClient (name : String) (c : ClientCache) :
    SameBut name c (dropClient name c) :=
  ⟨fun _ hn => Function.update_of_ne hn .., fun _ hn =>
    Function.update_of_ne hn ..⟩

/-- What a reload for `name` leaves, when it has read `configs`: no client for
    `name`, or the one returned, whose configuration is in `configs`. -/
inductive Reloaded (name : String) (configs : List RegisteredCluster)
    (p : Except Exn ApiClient × ClientCache) : Prop where
  | failed (e : Exn) (raised : p.1 = .error e)
      (dropped : p.2.clients name = none)
  | checked (client : ApiClient) (row : RegisteredCluster)
      (returned : p.1 = .ok client) (stored : row ∈ configs)
      (named : row.name = name) (built : connectionCfg row = client.cfg)
      (kept : p.2.clients name = some client)
      (paired : p.2.clientCfgs name = some client.cfg)

variable (env : ClientEnv)

/-- A new client is kept with its configuration, or nothing is kept. -/
theorem createClient_spec {name : String} {row : RegisteredCluster}
    {configs : List RegisteredCluster} (hrow : row ∈ configs)
    (hname : row.name = name) {c : ClientCache}
    (hnone : c.clients name = none) :
    Reloaded name configs (createClient env name (connectionCfg row) c) ∧
      SameBut name c (createClient env name (connectionCfg row) c).2 := by
  rw [createClient, buildClient]
  cases env.caPem (connectionCfg row).caData with
  | error e => exact ⟨.failed e rfl hnone, fun _ _ => rfl, fun _ _ => rfl⟩
  | ok pem =>
      refine ⟨.checked _ row rfl hrow hname rfl ?_ ?_, ?_, ?_⟩
      · exact Function.update_self ..
      · exact Function.update_self ..
      · intro n hn
        exact Function.update_of_ne hn ..
      · intro n hn
        exact Function.update_of_ne hn ..

/-- A reload returns a client with a configuration that it has read. -/
theorem reloadClient_spec (name : String) (configs : List RegisteredCluster)
    (stamped : Nat) {c : ClientCache} (hc : Paired c) :
    Reloaded name configs (reloadClient env name configs stamped c) ∧
      SameBut name c (reloadClient env name configs stamped c).2 := by
  have hstamped := sameBut_stamped name c stamped
  rw [reloadClient]
  cases hfind : configs.find? (fun row => decide (row.name = name)) with
  | none =>
      refine ⟨.failed _ rfl (Function.update_self ..), ?_⟩
      exact hstamped.trans (sameBut_dropClient name _)
  | some row =>
      have hrow : row ∈ configs := List.mem_of_find?_eq_some hfind
      have hname : row.name = name :=
        of_decide_eq_true (List.find?_some (p := fun row =>
          decide (RegisteredCluster.name row = name)) hfind)
      cases hcached : c.clients name with
      | none =>
          dsimp only
          obtain ⟨hreload, hsame⟩ := createClient_spec env hrow hname
            (c := { c with lastReload := stamped }) hcached
          exact ⟨hreload, hstamped.trans hsame⟩
      | some cached =>
          dsimp only
          by_cases hwanted : c.clientCfgs name = some (connectionCfg row)
          · rw [if_pos hwanted]
            have hpair := hc name cached hcached
            have hbuilt : connectionCfg row = cached.cfg :=
              Option.some.inj (hwanted.symm.trans hpair)
            exact ⟨.checked cached row rfl hrow hname hbuilt hcached hpair,
              hstamped⟩
          · rw [if_neg hwanted]
            -- the old client is dropped before the new one is built
            have hnone : (dropClient name { c with lastReload := stamped
                }).clients name = none := Function.update_self ..
            obtain ⟨hreload, hsame⟩ :=
              createClient_spec env hrow hname hnone
            exact ⟨hreload, hstamped.trans
              ((sameBut_dropClient name _).trans hsame)⟩

/-! ## One worker -/

/-- A call of `get_api_client`: how much time passes before it reads the clock,
    until it reads the registry, and until it reads the clock again. -/
structure ClientCall where
  name : String
  idle : Nat
  loading : Nat
  stamping : Nat

/-- What happens in a worker; `removeCluster` is the part of `remove_cluster`
    that drops the client. -/
inductive WorkerStep where
  | getApiClient (k : ClientCall)
  | removeCluster (name : String) (idle : Nat)

/-- A worker: its cache, the clock, and for each cluster the moment at which
    the registry was last read for it. -/
structure Worker where
  cache : ClientCache
  now : Nat
  readFor : String → Nat

/-- A worker that has just started. -/
def Worker.started (t : Nat) : Worker :=
  ⟨.init, t, fun _ => 0⟩

/-- The contents of `registered_clusters` at each moment. -/
abbrev RegistryHistory := Nat → Table RegisteredCluster RegisteredCluster.name

namespace ClientCall

variable (k : ClientCall) (s : Worker)

/-- The first reading of the clock. -/
def called : Nat := s.now + k.idle

/-- The moment at which the registry is read. -/
def loaded : Nat := k.called s + k.loading

/-- The second reading of the clock. -/
def stamped : Nat := k.loaded s + k.stamping

/-- The client that the call returns without looking at the registry. -/
def trusted : Option ApiClient := trustedClient k.name (k.called s) s.cache

/-- When the call returns: after its last look at the clock. -/
def returned : Nat :=
  match k.trusted s with
  | some _ => k.called s
  | none => k.stamped s

/-- The call. -/
def run (registry : RegistryHistory) : Except Exn ApiClient × ClientCache :=
  getApiClient env k.name (k.called s) (registry (k.loaded s)).rows
    (k.stamped s) s.cache

/-- The worker after the call. -/
def after (registry : RegistryHistory) : Worker where
  cache := (k.run env s registry).2
  now := k.returned s
  readFor :=
    match k.trusted s with
    | some _ => s.readFor
    | none => Function.update s.readFor k.name (k.loaded s)

end ClientCall

/-- What happens next in a worker. -/
def workerStep (registry : RegistryHistory) : WorkerStep → Worker → Worker
  | .getApiClient k, s => k.after env s registry
  | .removeCluster name idle, s =>
      { s with cache := dropClient name s.cache, now := s.now + idle }

/-- The registry had a row for `name` with this configuration at a moment not
    longer than the reload interval before `t`. -/
def RecentlyRegistered (registry : RegistryHistory) (name : String)
    (cfg : ConnectionCfg) (t : Nat) : Prop :=
  ∃ t', t - reloadInterval ≤ t' ∧ t' ≤ t ∧
    ∃ row ∈ (registry t').rows, row.name = name ∧ connectionCfg row = cfg

/-- A client that a call returns was built from what the registry held not
    longer than the reload interval ago. -/
def ReturnsFresh (registry : RegistryHistory) (s : Worker) :
    WorkerStep → Prop
  | .getApiClient k =>
      ∀ client, (k.run env s registry).1 = .ok client →
        RecentlyRegistered registry k.name client.cfg (k.returned s)
  | .removeCluster _ _ => True

/-- A call answers from the cache only within the reload interval of the last
    reload for its own cluster, and stamps a reload within that interval. -/
def OwnReload (s : Worker) : WorkerStep → Prop
  | .getApiClient k =>
      match k.trusted s with
      | some _ => k.called s - s.readFor k.name ≤ reloadInterval
      | none => k.stamping ≤ reloadInterval
  | .removeCluster _ _ => True

/-! ## Freshness -/

/-- The clients in the cache are those that the last reloads for their
    clusters have seen. -/
def AsRead (registry : RegistryHistory) (s : Worker) : Prop :=
  Paired s.cache ∧ ∀ name client, s.cache.clients name = some client →
    s.readFor name ≤ s.now ∧
      ∃ row ∈ (registry (s.readFor name)).rows,
        row.name = name ∧ connectionCfg row = client.cfg

theorem asRead_started (registry : RegistryHistory) (t : Nat) :
    AsRead registry (Worker.started t) :=
  ⟨nofun, nofun⟩

variable {env}

/-- A client answered from the cache is in it. -/
theorem trustedClient_eq_some {name : String} {called : Nat}
    {c : ClientCache} {client : ApiClient}
    (h : trustedClient name called c = some client) :
    c.clients name = some client := by
  rw [trustedClient] at h
  cases hcached : c.clients name with
  | none =>
      rw [hcached] at h
      exact nomatch h
  | some cached =>
      simp only [hcached] at h
      split at h
      · exact h
      · exact nomatch h

/-- A call that answers from the cache leaves it as it is. -/
theorem run_of_trusted {registry : RegistryHistory} {k : ClientCall}
    {s : Worker} {client : ApiClient} (h : k.trusted s = some client) :
    k.run env s registry = (.ok client, s.cache) := by
  rw [ClientCall.run, getApiClient]
  rw [ClientCall.trusted] at h
  rw [h]

theorem run_of_not_trusted {registry : RegistryHistory} {k : ClientCall}
    {s : Worker} (h : k.trusted s = none) :
    k.run env s registry = reloadClient env k.name
      (registry (k.loaded s)).rows (k.stamped s) s.cache := by
  rw [ClientCall.run, getApiClient]
  rw [ClientCall.trusted] at h
  rw [h]

/-- The clock does not go back. -/
theorem now_le_returned (k : ClientCall) (s : Worker) :
    s.now ≤ k.returned s := by
  rw [ClientCall.returned]
  cases k.trusted s with
  | some _ => exact Nat.le_add_right _ _
  | none =>
      show s.now ≤ s.now + k.idle + k.loading + k.stamping
      omega

/-- A reload leaves the clients as they were read. -/
theorem asRead_reload {registry : RegistryHistory} {s : Worker}
    (hs : AsRead registry s) {k : ClientCall} (h : k.trusted s = none) :
    AsRead registry (k.after env s registry) := by
  have hnow := now_le_returned k s
  obtain ⟨hreload, hsame⟩ := reloadClient_spec env k.name
    (registry (k.loaded s)).rows (k.stamped s) hs.1
  rw [← run_of_not_trusted h] at hreload hsame
  have hread : (k.after env s registry).readFor
      = Function.update s.readFor k.name (k.loaded s) := by
    show (match k.trusted s with
      | some _ => s.readFor
      | none => Function.update s.readFor k.name (k.loaded s)) = _
    rw [h]
  constructor
  · intro name client hclient
    by_cases hname : name = k.name
    · rw [hname] at hclient ⊢
      cases hreload with
      | failed e raised dropped =>
          exact nomatch dropped.symm.trans hclient
      | checked client' row returned stored named built kept paired =>
          rw [← Option.some.inj (kept.symm.trans hclient)]
          exact paired
    · exact (hsame.clientCfgs name hname).trans
        (hs.1 name client ((hsame.clients name hname).symm.trans hclient))
  · intro name client hclient
    rw [hread]
    by_cases hname : name = k.name
    · rw [hname] at hclient ⊢
      rw [Function.update_self]
      cases hreload with
      | failed e raised dropped =>
          exact nomatch dropped.symm.trans hclient
      | checked client' row returned stored named built kept paired =>
          rw [← Option.some.inj (kept.symm.trans hclient)]
          refine ⟨?_, row, stored, named, built⟩
          show k.loaded s ≤ k.returned s
          rw [ClientCall.returned, h]
          exact Nat.le_add_right _ _
    · rw [Function.update_of_ne hname]
      obtain ⟨hle, hrow⟩ := hs.2 name client
        ((hsame.clients name hname).symm.trans hclient)
      exact ⟨Nat.le_trans hle hnow, hrow⟩

/-- Dropping a client leaves the others as they were read. -/
theorem asRead_drop {registry : RegistryHistory} {s : Worker}
    (hs : AsRead registry s) (name : String) (idle : Nat) :
    AsRead registry
      { s with cache := dropClient name s.cache, now := s.now + idle } := by
  have hold : ∀ n client, (dropClient name s.cache).clients n = some client →
      n ≠ name ∧ s.cache.clients n = some client := by
    intro n client hclient
    by_cases hn : n = name
    · rw [hn, dropClient_clients, Function.update_self] at hclient
      exact nomatch hclient
    · rw [dropClient_clients, Function.update_of_ne hn] at hclient
      exact ⟨hn, hclient⟩
  constructor
  · intro n client hclient
    obtain ⟨hn, hclient⟩ := hold n client hclient
    exact ((sameBut_dropClient name s.cache).clientCfgs n hn).trans
      (hs.1 n client hclient)
  · intro n client hclient
    obtain ⟨hle, hrow⟩ := hs.2 n client (hold n client hclient).2
    exact ⟨Nat.le_trans hle (Nat.le_add_right _ _), hrow⟩

/-- Every step leaves the clients as they were read. -/
theorem asRead_step {registry : RegistryHistory} (s : Worker)
    (a : WorkerStep) (hs : AsRead registry s) :
    AsRead registry (workerStep env registry a s) := by
  cases a with
  | removeCluster name idle => exact asRead_drop hs name idle
  | getApiClient k =>
      cases htrusted : k.trusted s with
      | none => exact asRead_reload hs htrusted
      | some client =>
          have hcache : (k.after env s registry).cache = s.cache :=
            congrArg Prod.snd (run_of_trusted htrusted)
          have hread : (k.after env s registry).readFor = s.readFor := by
            show (match k.trusted s with
              | some _ => s.readFor
              | none => Function.update s.readFor k.name (k.loaded s)) = _
            rw [htrusted]
          show AsRead registry (k.after env s registry)
          rw [AsRead, hcache, hread]
          refine ⟨hs.1, ?_⟩
          intro name client' hclient
          obtain ⟨hle, hrow⟩ := hs.2 name client' hclient
          exact ⟨Nat.le_trans hle (now_le_returned k s), hrow⟩

/-- A call that meets the condition returns a fresh client. -/
theorem returnsFresh_of_ownReload {registry : RegistryHistory} (s : Worker)
    (a : WorkerStep) (hs : AsRead registry s) (ha : OwnReload s a) :
    ReturnsFresh env registry s a := by
  cases a with
  | removeCluster name idle => trivial
  | getApiClient k =>
      intro client hclient
      rw [OwnReload] at ha
      cases htrusted : k.trusted s with
      | some cached =>
          rw [htrusted] at ha
          rw [run_of_trusted htrusted] at hclient
          obtain rfl : cached = client := Except.ok.inj hclient
          obtain ⟨hle, hrow⟩ := hs.2 k.name cached
            (trustedClient_eq_some htrusted)
          rw [ClientCall.returned, htrusted]
          refine ⟨s.readFor k.name, ?_, ?_, hrow⟩
          · show k.called s - reloadInterval ≤ s.readFor k.name
            have hage : k.called s - s.readFor k.name ≤ reloadInterval := ha
            omega
          · exact Nat.le_trans hle (Nat.le_add_right _ _)
      | none =>
          rw [htrusted] at ha
          have hstamp : k.stamping ≤ reloadInterval := ha
          rw [run_of_not_trusted htrusted] at hclient
          rw [ClientCall.returned, htrusted]
          cases (reloadClient_spec env k.name (registry (k.loaded s)).rows
            (k.stamped s) hs.1).1 with
          | failed e raised dropped => exact nomatch raised.symm.trans hclient
          | checked client' row returned stored named built kept paired =>
              rw [← Except.ok.inj (returned.symm.trans hclient)]
              refine ⟨k.loaded s, ?_, Nat.le_add_right _ _, row, stored,
                named, built⟩
              show k.loaded s + k.stamping - reloadInterval ≤ k.loaded s
              omega

variable (env)

/-- In every run of a worker whose calls all meet the condition, every client
    that is returned was built from what the registry held at most the reload
    interval before. -/
theorem clients_fresh (registry : RegistryHistory) (t : Nat)
    (steps : List WorkerStep)
    (h : Along (workerStep env registry) OwnReload steps (Worker.started t)) :
    Along (workerStep env registry) (ReturnsFresh env registry) steps
      (Worker.started t) :=
  h.imp_of_inv asRead_step returnsFresh_of_ownReload
    (asRead_started registry t)

/-- Two clusters; the token of the first is rotated after one second. -/
def rotated (t : Nat) : Table RegisteredCluster RegisteredCluster.name :=
  (Table.empty.put ⟨"a", "https://a", "ca",
    if t < 10 ^ 9 then "old" else "new"⟩).put ⟨"b", "https://b", "ca", "b"⟩

/-- CA data that is its own text, and numbered files. -/
def plainEnv : ClientEnv where
  caPem := .ok
  tmpPath n name := "/tmp/" ++ toString n ++ "-" ++ name ++ ".crt"

/-- Two calls for one cluster, ten seconds apart. -/
theorem clients_fresh_again :
    Along (workerStep plainEnv rotated) (ReturnsFresh plainEnv rotated)
      [.getApiClient ⟨"a", 0, 0, 0⟩, .getApiClient ⟨"a", 10 * 10 ^ 9, 0, 0⟩]
      (Worker.started 0) :=
  clients_fresh plainEnv rotated 0 _
    ⟨Nat.zero_le _, (by decide : 10 * 10 ^ 9 - 0 ≤ reloadInterval), trivial⟩

/-- The first cluster is requested at once and after 58 seconds, and the second
    one after 29 seconds: the last call returns a client whose token was
    rotated 57 seconds before. -/
theorem client_stale :
    ¬ Along (workerStep plainEnv rotated) (ReturnsFresh plainEnv rotated)
      [.getApiClient ⟨"a", 0, 0, 0⟩, .getApiClient ⟨"b", 29 * 10 ^ 9, 0, 0⟩,
        .getApiClient ⟨"a", 29 * 10 ^ 9, 0, 0⟩]
      (Worker.started 0) := by
  intro h
  obtain ⟨t, hold, -, row, hrow, hname, hcfg⟩ := h.2.2.1
    ⟨⟨"https://a", "ca", "old"⟩, "/tmp/0-a.crt"⟩ rfl
  have hlate : ¬ t < 10 ^ 9 := by
    have hwindow : 58 * 10 ^ 9 - 30 * 10 ^ 9 ≤ t := hold
    omega
  have hrows : (rotated t).rows
      = [⟨"a", "https://a", "ca", "new"⟩, ⟨"b", "https://b", "ca", "b"⟩] := by
    rw [rotated, if_neg hlate]
    rfl
  rw [hrows] at hrow
  rcases List.mem_cons.mp hrow with rfl | hrow
  · exact absurd (congrArg ConnectionCfg.token hcfg) (by decide)
  · rw [List.mem_singleton.mp hrow] at hname
    exact absurd hname (by decide)

end CvCluster
