import ClusterVision.ClientCacheProofs
import ClusterVision.LedgerProofs

/-! # The temporary CA files

    A client trusts the certificates of a temporary file, which is deleted with
    the client.  `verify_connectivity` builds a client too, under a key made of
    the cluster's name, and deletes its file when the probe is over.  Clients
    and probes share one map from keys to files (`services/cluster_service.py`).
    This file models the threads that call the service, section by section of
    its lock, and says in which runs every file lives exactly as long as its
    client. -/

namespace CvProbe

open CvRun CvLedger CvBackend CvCluster

/-! ## The service and its threads -/

/-- Where a thread is in `verify_connectivity`, if it is in it: between the two
    sections of the lock, or behind the second one with the file that it has
    popped. -/
inductive Phase where
  | idle
  | probing (name : String) (client : ApiClient)
  | releasing (client : ApiClient) (caFile : Option String)

/-- The service, and the phases of the threads. -/
structure Service (ι : Type) where
  cache : ClientCache
  phase : ι → Phase

variable {ι : Type} [DecidableEq ι]

/-- A new service. -/
def Service.init : Service ι := ⟨.init, fun _ => .idle⟩

/-- `probe_key`. -/
def probeKey (name : String) : String := "__verify__" ++ name

/-- What happens without interruption: a call of `get_api_client`, the section
    of `remove_cluster` that drops the client, and the three parts of
    `verify_connectivity`: the first section of the lock, the second one, and
    the deletion of the file that follows it. -/
inductive Step (ι : Type) where
  | getApiClient (name : String) (called : Nat)
      (configs : List RegisteredCluster) (stamped : Nat)
  | removeCluster (name : String)
  | probe (i : ι) (name : String) (cfg : ConnectionCfg)
  | release (i : ι)
  | unlink (i : ι)

/-- The files once one of them, if any, is deleted. -/
def deleted (caFile : Option String) (files : String → Option String) :
    String → Option String :=
  match caFile with
  | none => files
  | some path => Function.update files path none

/-- One step; a thread takes the steps of its phase only. -/
def step (env : ClientEnv) : Step ι → Service ι → Service ι
  | .getApiClient name called configs stamped, s =>
      { s with
        cache := (getApiClient env name called configs stamped s.cache).2 }
  | .removeCluster name, s => { s with cache := dropClient name s.cache }
  | .probe i name cfg, s =>
      match s.phase i with
      | .idle =>
          match buildClient env (probeKey name) cfg s.cache with
          | (.error _, c) => { s with cache := c }
          | (.ok client, c) =>
              ⟨c, Function.update s.phase i (.probing name client)⟩
      | _ => s
  | .release i, s =>
      match s.phase i with
      | .probing name client =>
          ⟨{ s.cache with
              caFiles := Function.update s.cache.caFiles (probeKey name) none },
            Function.update s.phase i
              (.releasing client (s.cache.caFiles (probeKey name)))⟩
      | _ => s
  | .unlink i, s =>
      match s.phase i with
      | .releasing _ caFile =>
          ⟨{ s.cache with files := deleted caFile s.cache.files },
            Function.update s.phase i .idle⟩
      | _ => s

/-- A probe that has built its client and has not finished. -/
def Running (s : Service ι) (i : ι) (client : ApiClient) : Prop :=
  (∃ name, s.phase i = .probing name client)
    ∨ ∃ caFile, s.phase i = .releasing client caFile

/-- The file of every cached client and of every running probe exists, and
    every file belongs to one of them. -/
structure CaFilesLive (s : Service ι) : Prop where
  cached : ∀ name client, s.cache.clients name = some client →
    s.cache.files client.sslCaCert ≠ none
  probed : ∀ i client, Running s i client →
    s.cache.files client.sslCaCert ≠ none
  owned : ∀ path, s.cache.files path ≠ none →
    (∃ name client, s.cache.clients name = some client
      ∧ client.sslCaCert = path)
    ∨ ∃ i client, Running s i client ∧ client.sslCaCert = path

/-! ## The books -/

/-- Who can hold a file. -/
inductive Holder (ι : Type) where
  | cached (name : String)
  | probing (i : ι) (name : String)
  | releasing (i : ι)
deriving DecidableEq

/-- The key under which the service finds the file of a holder. -/
def keyOf : Holder ι → Option String
  | .cached name => some name
  | .probing _ name => some (probeKey name)
  | .releasing _ => none

/-- The file that a holder holds. -/
def held (s : Service ι) : Holder ι → Option String
  | .cached name => (s.cache.clients name).map ApiClient.sslCaCert
  | .probing i name =>
      match s.phase i with
      | .probing name' client =>
          if name' = name then some client.sslCaCert else none
      | _ => none
  | .releasing i =>
      match s.phase i with
      | .releasing client _ => some client.sslCaCert
      | _ => none

/-- The books of a service. -/
def books (s : Service ι) : Books (Holder ι) String String where
  held := held s
  index := s.cache.caFiles
  exists_ := fun path => (s.cache.files path).isSome

/-- The books are balanced, and a thread that deletes a file deletes its
    own. -/
structure Inv (s : Service ι) : Prop where
  balanced : Balanced keyOf (books s)
  popped : ∀ i client caFile, s.phase i = .releasing client caFile →
    caFile = some client.sslCaCert

omit [DecidableEq ι] in
/-- Somebody holds a file: a cached client, or a running probe. -/
theorem held_iff {s : Service ι} {path : String} :
    (∃ h, held s h = some path) ↔
      (∃ name client, s.cache.clients name = some client
        ∧ client.sslCaCert = path)
      ∨ ∃ i client, Running s i client ∧ client.sslCaCert = path := by
  constructor
  · rintro ⟨h, hh⟩
    cases h with
    | cached name =>
        obtain ⟨client, hclient, hpath⟩ := Option.map_eq_some_iff.mp hh
        exact Or.inl ⟨name, client, hclient, hpath⟩
    | probing i name =>
        rw [held] at hh
        cases hphase : s.phase i with
        | probing name' client =>
            simp only [hphase] at hh
            by_cases hname : name' = name
            · rw [if_pos hname] at hh
              exact Or.inr
                ⟨i, client, Or.inl ⟨name', hphase⟩, Option.some.inj hh⟩
            · rw [if_neg hname] at hh
              exact nomatch hh
        | idle => simp only [hphase, reduceCtorEq] at hh
        | releasing client caFile => simp only [hphase, reduceCtorEq] at hh
    | releasing i =>
        rw [held] at hh
        cases hphase : s.phase i with
        | releasing client caFile =>
            simp only [hphase] at hh
            exact Or.inr
              ⟨i, client, Or.inr ⟨caFile, hphase⟩, Option.some.inj hh⟩
        | idle => simp only [hphase, reduceCtorEq] at hh
        | probing name client => simp only [hphase, reduceCtorEq] at hh
  · rintro (⟨name, client, hclient, rfl⟩ | ⟨i, client, hrun, rfl⟩)
    · exact ⟨.cached name, by rw [held, hclient]; rfl⟩
    · rcases hrun with ⟨name, hphase⟩ | ⟨caFile, hphase⟩
      · exact ⟨.probing i name, by simp only [held, hphase, if_true]⟩
      · exact ⟨.releasing i, by simp only [held, hphase]⟩

omit [DecidableEq ι] in
/-- With balanced books, the files live as long as their clients. -/
theorem live_of_balanced {s : Service ι} (hs : Balanced keyOf (books s)) :
    CaFilesLive s := by
  have hexists : ∀ path, (∃ h, held s h = some path) →
      s.cache.files path ≠ none := by
    rintro path ⟨h, hh⟩ hnone
    have hsome := hs.onDisk h path hh
    simp only [books, hnone, Option.isSome_none, Bool.false_eq_true] at hsome
  refine ⟨?_, ?_, ?_⟩
  · exact fun name client h =>
      hexists _ (held_iff.mpr (Or.inl ⟨name, client, h, rfl⟩))
  · exact fun i client h =>
      hexists _ (held_iff.mpr (Or.inr ⟨i, client, h, rfl⟩))
  · intro path hpath
    exact held_iff.mp (hs.owned path (Option.isSome_iff_ne_none.mpr hpath))

/-! ## What keeps the books balanced -/

/-- No running probe uses this key. -/
def KeyFree (s : Service ι) (key : String) : Prop :=
  ∀ i name client, s.phase i = .probing name client → probeKey name ≠ key

/-- `get_api_client` drops a client or writes a file: the cached client is not
    trusted, and the row is missing, or differs, or has readable CA data. -/
def Touches (env : ClientEnv) (name : String) (called : Nat)
    (configs : List RegisteredCluster) (c : ClientCache) : Prop :=
  trustedClient name called c = none ∧
    match configs.find? (fun row => decide (row.name = name)) with
    | none => True
    | some row =>
        match c.clients name with
        | none => ∃ pem, env.caPem (connectionCfg row).caData = .ok pem
        | some _ => c.clientCfgs name ≠ some (connectionCfg row)

/-- `get_api_client` writes a file: the cached client is not trusted, the row
    is there, with readable CA data, and no client is cached for it as it
    is. -/
def Creates (env : ClientEnv) (name : String) (called : Nat)
    (configs : List RegisteredCluster) (c : ClientCache) : Prop :=
  trustedClient name called c = none ∧
    ∃ row, configs.find? (fun row => decide (row.name = name)) = some row
      ∧ (c.clients name = none
        ∨ c.clientCfgs name ≠ some (connectionCfg row))
      ∧ ∃ pem, env.caPem (connectionCfg row).caData = .ok pem

/-- A step takes no key that is in use: a probe starts when no running probe
    and no cached client has its key, and a client is dropped or created when
    no running probe has its name as the key. -/
def Clean (env : ClientEnv) (s : Service ι) : Step ι → Prop
  | .getApiClient name called configs _ =>
      Touches env name called configs s.cache → KeyFree s name
  | .removeCluster name => KeyFree s name
  | .probe i name cfg =>
      s.phase i = .idle → (∃ pem, env.caPem cfg.caData = .ok pem) →
        KeyFree s (probeKey name) ∧ s.cache.clients (probeKey name) = none
  | .release _ => True
  | .unlink _ => True

/-- The cache in which `get_api_client` makes a new client. -/
def beforeCreate (name : String) (c : ClientCache) : ClientCache :=
  if c.clients name = none then c else dropClient name c

/-- `NamedTemporaryFile` makes a file that does not exist. -/
def Fresh (env : ClientEnv) (s : Service ι) : Step ι → Prop
  | .getApiClient name called configs _ =>
      Creates env name called configs s.cache →
        (beforeCreate name s.cache).files
          (env.tmpPath s.cache.filesMade name) = none
  | .probe i name cfg =>
      s.phase i = .idle → (∃ pem, env.caPem cfg.caData = .ok pem) →
        s.cache.files (env.tmpPath s.cache.filesMade (probeKey name)) = none
  | _ => True

/-! ## The steps -/

variable {env : ClientEnv} {s : Service ι}

/-- The service with another cache. -/
def withCache (s : Service ι) (c : ClientCache) : Service ι :=
  { s with cache := c }

/-- A map changed at one key. -/
theorem update_at_key (f : String → Option String) (key k : String)
    (v : Option String) :
    Function.update f key v k = if some key = some k then v else f k := by
  by_cases hk : key = k
  · rw [if_pos (congrArg some hk), hk, Function.update_self]
  · rw [if_neg (fun h => hk (Option.some.inj h)),
      Function.update_of_ne (Ne.symm hk)]

/-- Dropping a cached client, when the service finds its file. -/
theorem books_dropClient {name : String} {client : ApiClient}
    (hclient : s.cache.clients name = some client)
    (hfile : s.cache.caFiles name = some client.sslCaCert) :
    books (withCache s (dropClient name s.cache))
      = drop keyOf (.cached name) (books s) := by
  refine Books.ext (funext fun h => ?_) (funext fun k => ?_)
    (funext fun path => ?_)
  · show held _ h = Function.update (held s) (.cached name) none h
    by_cases hh : h = .cached name
    · rw [hh, Function.update_self]
      show (Function.update s.cache.clients name none name).map _ = none
      rw [Function.update_self, Option.map_none]
    · rw [Function.update_of_ne hh]
      cases h with
      | cached n =>
          have hn : n ≠ name := fun heq => hh (congrArg Holder.cached heq)
          show (Function.update s.cache.clients name none n).map _ = _
          rw [Function.update_of_ne hn]
          rfl
      | probing i n => rfl
      | releasing i => rfl
  · exact update_at_key s.cache.caFiles name k none
  · have hheld : held s (.cached name) = some client.sslCaCert := by
      rw [held, hclient]
      rfl
    show ((dropClient name s.cache).files path).isSome
      = if held s (.cached name) = some path then false
        else (s.cache.files path).isSome
    rw [hheld, dropClient, hfile]
    show (Function.update s.cache.files client.sslCaCert none path).isSome = _
    by_cases hpath : client.sslCaCert = path
    · rw [if_pos (congrArg some hpath), hpath, Function.update_self,
        Option.isSome_none]
    · rw [if_neg (fun h => hpath (Option.some.inj h)),
        Function.update_of_ne (Ne.symm hpath)]

omit [DecidableEq ι] in
/-- Dropping a client that is not cached, under a key that names no file. -/
theorem books_dropClient_none {name : String}
    (hclient : s.cache.clients name = none)
    (hfile : s.cache.caFiles name = none) :
    books (withCache s (dropClient name s.cache)) = books s := by
  have hclients : (dropClient name s.cache).clients = s.cache.clients :=
    Function.update_eq_self_iff.mpr hclient.symm
  have hindex : (dropClient name s.cache).caFiles = s.cache.caFiles :=
    Function.update_eq_self_iff.mpr hfile.symm
  have hfiles : (dropClient name s.cache).files = s.cache.files := by
    rw [dropClient, hfile]
  refine Books.ext (funext fun h => ?_) hindex (funext fun path => ?_)
  · cases h with
    | cached n =>
        show ((dropClient name s.cache).clients n).map _ = _
        rw [hclients]
        rfl
    | probing i n => rfl
    | releasing i => rfl
  · show ((dropClient name s.cache).files path).isSome = _
    rw [hfiles]
    rfl

omit [DecidableEq ι] in
/-- A key that no running probe uses is the key of its cached client, or of
    nobody. -/
theorem Inv.index_of_free (hs : Inv s) {key : String} (hfree : KeyFree s key) :
    s.cache.caFiles key = (s.cache.clients key).map ApiClient.sslCaCert := by
  have hprobe : ∀ i n, keyOf (.probing i n) = some key →
      held s (.probing i n) = none := by
    intro i n hkey
    rw [held]
    cases hphase : s.phase i with
    | probing n' client =>
        have hne : n' ≠ n := fun heq =>
          hfree i n' client hphase (heq ▸ Option.some.inj hkey)
        simp only [if_neg hne]
    | idle => rfl
    | releasing client caFile => rfl
  cases hclient : s.cache.clients key with
  | some client =>
      refine (hs.balanced.indexed key client.sslCaCert).mpr
        ⟨.cached key, rfl, ?_⟩
      show (s.cache.clients key).map _ = _
      rw [hclient]
      rfl
  | none =>
      refine hs.balanced.index_eq_none (fun h hkey => ?_)
      cases h with
      | cached n =>
          show (s.cache.clients n).map _ = none
          rw [Option.some.inj hkey, hclient]
          rfl
      | probing i n => exact hprobe i n hkey
      | releasing i => exact nomatch hkey

/-- Dropping the client of a key that no running probe uses. -/
theorem Inv.dropClient (hs : Inv s) {name : String} (hfree : KeyFree s name) :
    Inv (withCache s (dropClient name s.cache)) := by
  refine ⟨?_, hs.popped⟩
  have hfile := hs.index_of_free hfree
  cases hclient : s.cache.clients name with
  | some client =>
      rw [hclient] at hfile
      rw [books_dropClient hclient hfile]
      refine hs.balanced.drop (p := client.sslCaCert) ?_
      show (s.cache.clients name).map _ = _
      rw [hclient]
      rfl
  | none =>
      rw [hclient] at hfile
      rw [books_dropClient_none hclient hfile]
      exact hs.balanced

/-- A new file under a free key, for a holder that holds none. -/
theorem balanced_taken {s' : Service ι} {h : Holder ι}
    {key path pem : String} (hs : Balanced keyOf (books s))
    (hkey : keyOf h = some key)
    (hheld : held s' = Function.update (held s) h (some path))
    (hindex : s'.cache.caFiles
      = Function.update s.cache.caFiles key (some path))
    (hfiles : s'.cache.files
      = Function.update s.cache.files path (some pem))
    (hnone : held s h = none) (hfree : s.cache.caFiles key = none)
    (hnew : s.cache.files path = none) : Balanced keyOf (books s') := by
  have hexists : (books s).exists_ path = false := by
    show (s.cache.files path).isSome = false
    rw [hnew]
    rfl
  have htake : Balanced keyOf (take keyOf h path (books s)) := by
    refine hs.take hexists hnone (fun k hk => ?_)
    rw [hkey] at hk
    rw [← Option.some.inj hk]
    exact hfree
  have hbooks : books s' = take keyOf h path (books s) := by
    refine Books.ext hheld (funext fun k => ?_) (funext fun q => ?_)
    · show s'.cache.caFiles k
        = if keyOf h = some k then some path else s.cache.caFiles k
      rw [hindex, hkey]
      exact update_at_key s.cache.caFiles key k (some path)
    · show (s'.cache.files q).isSome
        = Function.update (books s).exists_ path true q
      rw [hfiles]
      by_cases hq : q = path
      · rw [hq, Function.update_self, Function.update_self]
        rfl
      · rw [Function.update_of_ne hq, Function.update_of_ne hq]
        rfl
  rw [hbooks]
  exact htake

/-- Making a client for a cluster that has none, under a key that no running
    probe uses. -/
theorem Inv.createClient (hs : Inv s) {name : String} {wanted : ConnectionCfg}
    (hnone : s.cache.clients name = none)
    (hfree : (∃ pem, env.caPem wanted.caData = .ok pem) → KeyFree s name)
    (hfresh : (∃ pem, env.caPem wanted.caData = .ok pem) →
      s.cache.files (env.tmpPath s.cache.filesMade name) = none) :
    Inv (withCache s (createClient env name wanted s.cache).2) := by
  refine ⟨?_, hs.popped⟩
  rw [CvCluster.createClient, buildClient]
  cases hpem : env.caPem wanted.caData with
  | error e => exact hs.balanced
  | ok pem =>
      have hindex := hs.index_of_free (hfree ⟨pem, hpem⟩)
      rw [hnone, Option.map_none] at hindex
      have hheld : held s (.cached name) = none := by
        rw [held, hnone]
        rfl
      refine balanced_taken hs.balanced (h := .cached name) rfl
        (funext fun h => ?_) rfl rfl hheld hindex (hfresh ⟨pem, hpem⟩)
      by_cases hh : h = .cached name
      · rw [hh, Function.update_self]
        show (Function.update s.cache.clients name _ name).map _ = _
        rw [Function.update_self]
        rfl
      · rw [Function.update_of_ne hh]
        cases h with
        | cached n =>
            have hn : n ≠ name := fun heq => hh (congrArg Holder.cached heq)
            exact congrArg (Option.map ApiClient.sslCaCert)
              (Function.update_of_ne hn ..)
        | probing i n => rfl
        | releasing i => rfl

omit [DecidableEq ι] in
/-- The time of the last reload does not matter. -/
theorem Inv.stamped (hs : Inv s) (t : Nat) :
    Inv (withCache s { s.cache with lastReload := t }) :=
  ⟨hs.balanced, hs.popped⟩

/-- A call of `get_api_client`. -/
theorem inv_getApiClient (hs : Inv s) {name : String} {called : Nat}
    {configs : List RegisteredCluster} {t : Nat}
    (hfresh : Fresh env s (.getApiClient name called configs t))
    (hclean : Clean env s (.getApiClient name called configs t)) :
    Inv (step env (.getApiClient name called configs t) s) := by
  show Inv (withCache s
    (CvCluster.getApiClient env name called configs t s.cache).2)
  rw [CvCluster.getApiClient]
  cases htrusted : trustedClient name called s.cache with
  | some cached => exact hs
  | none =>
      rw [reloadClient]
      have hstamped := hs.stamped t
      cases hfind : configs.find? (fun row => decide (row.name = name)) with
      | none =>
          refine hstamped.dropClient (hclean ⟨htrusted, ?_⟩)
          rw [hfind]
          exact trivial
      | some row =>
          dsimp only
          cases hcached : s.cache.clients name with
          | none =>
              refine hstamped.createClient hcached (fun hpem => ?_)
                (fun hpem => ?_)
              · refine hclean ⟨htrusted, ?_⟩
                rw [hfind]
                dsimp only
                rw [hcached]
                exact hpem
              · have hnew := hfresh
                  ⟨htrusted, row, hfind, Or.inl hcached, hpem⟩
                rw [beforeCreate, if_pos hcached] at hnew
                exact hnew
          | some cached =>
              dsimp only
              by_cases hwanted :
                  s.cache.clientCfgs name = some (connectionCfg row)
              · rw [if_pos hwanted]
                exact hstamped
              · rw [if_neg hwanted]
                have hfree : KeyFree s name := by
                  refine hclean ⟨htrusted, ?_⟩
                  rw [hfind]
                  dsimp only
                  rw [hcached]
                  exact hwanted
                refine (hstamped.dropClient hfree).createClient
                  (Function.update_self ..) (fun _ => hfree) (fun hpem => ?_)
                have hnew := hfresh
                  ⟨htrusted, row, hfind, Or.inr hwanted, hpem⟩
                have hsome : s.cache.clients name ≠ none := by
                  rw [hcached]
                  exact Option.some_ne_none cached
                rw [beforeCreate, if_neg hsome] at hnew
                exact hnew

/-- What is held when a thread moves on: its own holders are the only ones
    that can change. -/
theorem held_moved {c : ClientCache} {i : ι} {ph : Phase}
    {f : Holder ι → Option String} (hc : c.clients = s.cache.clients)
    (hprobing : ∀ n, f (.probing i n)
      = held ⟨c, Function.update s.phase i ph⟩ (.probing i n))
    (hreleasing : f (.releasing i)
      = held ⟨c, Function.update s.phase i ph⟩ (.releasing i))
    (hother : ∀ h, (∀ n, h ≠ .probing i n) → h ≠ .releasing i →
      f h = held s h) :
    held ⟨c, Function.update s.phase i ph⟩ = f := by
  funext h
  cases h with
  | cached n =>
      rw [hother (.cached n) nofun nofun]
      show (c.clients n).map _ = (s.cache.clients n).map _
      rw [hc]
  | probing j n =>
      by_cases hij : j = i
      · rw [hij, hprobing]
      · rw [hother (.probing j n) (fun m h => hij (by cases h; rfl)) nofun]
        simp only [held, Function.update_of_ne hij]
  | releasing j =>
      by_cases hij : j = i
      · rw [hij, hreleasing]
      · rw [hother (.releasing j) nofun (fun h => hij (by cases h; rfl))]
        simp only [held, Function.update_of_ne hij]

/-- A thread that moves on has still popped the file of its client. -/
theorem Inv.popped_moved (hs : Inv s) {i : ι} {ph : Phase}
    (hph : ∀ client caFile, ph = .releasing client caFile →
      caFile = some client.sslCaCert) :
    ∀ j client caFile, Function.update s.phase i ph j
      = .releasing client caFile → caFile = some client.sslCaCert := by
  intro j client caFile hj
  by_cases hij : j = i
  · rw [hij, Function.update_self] at hj
    exact hph client caFile hj
  · rw [Function.update_of_ne hij] at hj
    exact hs.popped j client caFile hj

/-- A probe starts. -/
theorem inv_probe (hs : Inv s) {i : ι} {name : String} {cfg : ConnectionCfg}
    (hfresh : Fresh env s (.probe i name cfg))
    (hclean : Clean env s (.probe i name cfg)) :
    Inv (step env (.probe i name cfg) s) := by
  rw [step]
  cases hphase : s.phase i with
  | probing name' client => exact hs
  | releasing client caFile => exact hs
  | idle =>
      rw [buildClient]
      dsimp only
      cases hpem : env.caPem cfg.caData with
      | error e => exact hs
      | ok pem =>
          obtain ⟨hfree, hnone⟩ := hclean hphase ⟨pem, hpem⟩
          have hindex := hs.index_of_free hfree
          rw [hnone, Option.map_none] at hindex
          have hidle : ∀ n, held s (.probing i n) = none := fun n => by
            rw [held, hphase]
          refine ⟨balanced_taken hs.balanced (h := .probing i name) rfl ?_
            rfl rfl (hidle name) hindex (hfresh hphase ⟨pem, hpem⟩), ?_⟩
          · refine held_moved rfl (fun n => ?_) ?_ (fun h hne _ => ?_)
            · simp only [held, Function.update_self]
              by_cases hn : n = name
              · rw [hn, Function.update_self, if_pos rfl]
              · have hne : Holder.probing i n ≠ Holder.probing i name :=
                  fun h => hn (by cases h; rfl)
                rw [Function.update_of_ne hne, if_neg (Ne.symm hn)]
                exact hidle n
            · have hne : (.releasing i : Holder ι) ≠ .probing i name :=
                fun h => by cases h
              rw [Function.update_of_ne hne]
              simp only [held, hphase, Function.update_self]
            · exact Function.update_of_ne (hne name) ..
          · refine hs.popped_moved (fun client caFile h => ?_)
            cases h

/-- In the second section of the lock, a probe takes over the file that it
    has found under its key. -/
theorem books_release {i : ι} {name : String} {client : ApiClient}
    (hphase : s.phase i = .probing name client) :
    books (step env (.release i) s)
      = hand keyOf (.probing i name) (.releasing i) (books s) := by
  have hheld : held s (.probing i name) = some client.sslCaCert := by
    simp only [held, hphase, if_true]
  rw [step, hphase]
  refine Books.ext (held_moved rfl (fun n => ?_) ?_ (fun h hne hne' => ?_))
    (funext fun k => ?_) rfl
  · have hne : (.probing i n : Holder ι) ≠ .releasing i := nofun
    show Function.update (Function.update (held s) (.probing i name) none)
      (.releasing i) (held s (.probing i name)) (.probing i n) = _
    rw [Function.update_of_ne hne]
    simp only [held, Function.update_self]
    by_cases hn : n = name
    · rw [hn, Function.update_self]
    · have hne' : Holder.probing i n ≠ Holder.probing i name :=
        fun h => hn (by cases h; rfl)
      rw [Function.update_of_ne hne']
      simp only [held, hphase, if_neg (Ne.symm hn)]
  · show Function.update (Function.update (held s) _ none) _
      (held s (.probing i name)) _ = _
    rw [Function.update_self, hheld]
    simp only [held, Function.update_self]
  · show Function.update (Function.update (held s) _ none) _ _ _ = _
    rw [Function.update_of_ne hne', Function.update_of_ne (hne name)]
  · exact update_at_key s.cache.caFiles (probeKey name) k none

/-- A probe that deletes the file of its client is over with it. -/
theorem books_unlink {i : ι} {client : ApiClient}
    (hphase : s.phase i = .releasing client (some client.sslCaCert)) :
    books (step env (.unlink i) s) = drop keyOf (.releasing i) (books s) := by
  have hheld : held s (.releasing i) = some client.sslCaCert := by
    simp only [held, hphase]
  rw [step, hphase]
  refine Books.ext (held_moved rfl (fun n => ?_) ?_ (fun h _ hne => ?_))
    rfl (funext fun q => ?_)
  · have hne : (.probing i n : Holder ι) ≠ .releasing i := nofun
    show Function.update (held s) (.releasing i) none (.probing i n) = _
    rw [Function.update_of_ne hne]
    simp only [held, hphase, Function.update_self]
  · show Function.update (held s) _ none _ = _
    simp only [held, Function.update_self]
  · exact Function.update_of_ne hne ..
  · show (Function.update s.cache.files client.sslCaCert none q).isSome
      = if held s (.releasing i) = some q then false
        else (s.cache.files q).isSome
    rw [hheld]
    by_cases hq : client.sslCaCert = q
    · rw [if_pos (congrArg some hq), hq, Function.update_self]
      rfl
    · rw [if_neg (fun h => hq (Option.some.inj h)),
        Function.update_of_ne (Ne.symm hq)]

/-- A probe reaches the second section of the lock. -/
theorem inv_release (hs : Inv s) (i : ι) :
    Inv (step env (.release i) s) := by
  cases hphase : s.phase i with
  | idle =>
      rw [step, hphase]
      exact hs
  | releasing client caFile =>
      rw [step, hphase]
      exact hs
  | probing name client =>
      have hheld : held s (.probing i name) = some client.sslCaCert := by
        simp only [held, hphase, if_true]
      have hnone : held s (.releasing i) = none := by
        rw [held, hphase]
      refine ⟨?_, ?_⟩
      · rw [books_release hphase]
        exact hs.balanced.hand hheld hnone rfl
      · rw [step, hphase]
        refine hs.popped_moved (fun client' caFile h => ?_)
        cases h
        -- the thread has popped what the index says of its key
        exact (hs.balanced.indexed _ _).mpr ⟨.probing i name, rfl, hheld⟩

/-- A probe deletes its file. -/
theorem inv_unlink (hs : Inv s) (i : ι) : Inv (step env (.unlink i) s) := by
  cases hphase : s.phase i with
  | idle =>
      rw [step, hphase]
      exact hs
  | probing name client =>
      rw [step, hphase]
      exact hs
  | releasing client caFile =>
      have hheld : held s (.releasing i) = some client.sslCaCert := by
        simp only [held, hphase]
      refine ⟨?_, ?_⟩
      · rw [hs.popped i client caFile hphase] at hphase
        rw [books_unlink hphase]
        exact hs.balanced.drop hheld
      · rw [step, hphase]
        refine hs.popped_moved (fun client' caFile' h => ?_)
        cases h

omit [DecidableEq ι] in
/-- A new service. -/
theorem inv_init : Inv (Service.init : Service ι) := by
  have hheld : ∀ h, held (Service.init : Service ι) h = none := by
    intro h
    cases h with
    | cached n => rfl
    | probing i n => rfl
    | releasing i => rfl
  refine ⟨⟨?_, nofun, ?_, ?_⟩, nofun⟩
  · exact fun h p hp => nomatch (hheld h).symm.trans hp
  · exact fun h h' p hp => nomatch (hheld h).symm.trans hp
  · refine fun k p => ⟨nofun, ?_⟩
    rintro ⟨h, -, hp⟩
    exact nomatch (hheld h).symm.trans hp

/-- A step that takes no key in use keeps the books balanced. -/
theorem inv_step {k : Step ι} (hs : Inv s) (hfresh : Fresh env s k)
    (hclean : Clean env s k) : Inv (step env k s) := by
  cases k with
  | getApiClient name called configs t =>
      exact inv_getApiClient hs hfresh hclean
  | removeCluster name => exact hs.dropClient hclean
  | probe i name cfg => exact inv_probe hs hfresh hclean
  | release i => exact inv_release hs i
  | unlink i => exact inv_unlink hs i

/-- As long as no step takes a key that is in use, every file lives exactly as
    long as its client, in every state that the run reaches. -/
theorem ca_files_live (env : ClientEnv) (ks : List (Step ι))
    (hfresh : Along (step env) (Fresh env) ks .init)
    (hclean : Along (step env) (Clean env) ks .init) :
    ∀ pre, pre <+: ks → CaFilesLive (after (step env) pre .init) := by
  have hboth := along_and.mpr ⟨hfresh, hclean⟩
  exact reached_of_along (fun s k hs hk => inv_step hs hk.1 hk.2)
    (fun s hs => live_of_balanced hs.balanced) inv_init hboth

/-- Base64 of one text, and numbered files. -/
def numberedEnv : ClientEnv where
  caPem data :=
    if data = "Y2E=" then .ok "ca" else .error (.valueError "Incorrect padding")
  tmpPath n name := "/tmp/tmp" ++ toString n ++ "-" ++ name ++ ".crt"

/-- What a cluster is registered with. -/
def prodCfg : ConnectionCfg := ⟨"https://prod", "Y2E=", "token"⟩

/-- A cluster is probed while its client is made, and removed later. -/
theorem probed_and_removed :
    CaFilesLive (after (step numberedEnv)
      [.probe 0 "prod" prodCfg,
        .getApiClient "prod" 0 [⟨"prod", "https://prod", "Y2E=", "token"⟩] 0,
        .release 0, .unlink 0, .removeCluster "prod"]
      (.init : Service Nat)) := by
  refine ca_files_live numberedEnv _ ?_ ?_ _ (List.prefix_refl _)
  · exact ⟨fun _ _ => rfl, fun _ => by decide, trivial, trivial, trivial,
      trivial⟩
  · refine ⟨fun _ _ => ⟨nofun, rfl⟩, fun _ i n client h => ?_, trivial,
      trivial, fun i n client h => ?_, trivial⟩
    · by_cases hi : i = 0
      · rw [hi] at h
        cases h
        decide
      · exact nomatch (Function.update_of_ne hi ..).symm.trans h
    · by_cases hi : i = 0
      · rw [hi] at h
        exact nomatch h
      · have hidle : ∀ p q r : Phase, Function.update (Function.update
            (Function.update (fun _ => Phase.idle) 0 p) 0 q) 0 r i = .idle := by
          intro p q r
          rw [Function.update_of_ne hi, Function.update_of_ne hi,
            Function.update_of_ne hi]
        exact nomatch (hidle _ _ _).symm.trans h

/-- Two threads probe one name.  The first one deletes the file of the
    second. -/
theorem concurrent_probes_share_a_key :
    clusterNameMatches "prod" = true
      ∧ Along (step numberedEnv) (Fresh numberedEnv)
          [.probe 0 "prod" prodCfg, .probe 1 "prod" prodCfg, .release 0,
            .unlink 0] (.init : Service Nat)
      ∧ ¬ CaFilesLive (after (step numberedEnv)
          [.probe 0 "prod" prodCfg, .probe 1 "prod" prodCfg, .release 0,
            .unlink 0] (.init : Service Nat)) := by
  refine ⟨by decide, ?_, fun h => ?_⟩
  · exact ⟨fun _ _ => rfl, fun _ _ => by decide, trivial, trivial, trivial⟩
  · exact h.probed 1 ⟨prodCfg, "/tmp/tmp1-__verify__prod.crt"⟩
      (Or.inl ⟨"prod", rfl⟩) rfl

end CvProbe
