import ClusterVision.SessionProofs
import ClusterVision.ReservedScopeProofs

/-! # Bootstrap tokens

    A bootstrap script has a token to register one cluster with.  Nothing
    records that a token was used: a second registration is refused because the
    name is taken, until an administrator removes the cluster.  So a token
    registers once exactly as long as none is presented that is older than a
    removal of its cluster. -/

namespace CvBootstrap

open CvProg CvRun CvTable CvIso CvKube CvBackend CvHttp CvCluster CvAuth
  CvToken CvSession CvReserved

/-! ## Runs -/

/-- A request.  The clock of a request can be anything, and so can the answer
    of the cluster that is probed. -/
inductive BootstrapStep (Token : Type) (checks : PayloadChecks) where
  | bootstrapScript (current : UserInfo) (name : String) (now : Time)
  | registerCluster (credentials : Option Token) (now : Time)
      (reachable : Except Exn Unit) (payload : ClusterAdd checks)
  | addCluster (reachable : Except Exn Unit) (payload : ClusterAdd checks)
  | removeCluster (name : String)

/-- What has happened: a token was handed out for a name, a token has
    registered a name, a cluster was removed. -/
inductive BootstrapEvent (Token : Type) where
  | issued (token : Token) (name : String)
  | registered (token : Token) (name : String) (now : Time)
  | removed (name : String)

/-- The world, and what has happened, the oldest event first. -/
structure Bootstrapping (Token : Type) where
  world : World
  history : List (BootstrapEvent Token)

section Machine

variable {Token : Type} (jwt : Jwt Token) {checks : PayloadChecks}

/-- The world after a request. -/
def worldAfter (s : Bootstrapping Token) : BootstrapStep Token checks → World
  | .bootstrapScript _ _ _ => s.world
  | .registerCluster credentials now reachable payload =>
      ((registerCluster jwt credentials now reachable payload).run handle
        s.world).2
  | .addCluster reachable payload =>
      ((Router.addCluster reachable payload).run handle s.world).2
  | .removeCluster name => ((removeCluster name).run handle s.world).2

/-- What happens in a request. -/
def newEvents (s : Bootstrapping Token) :
    BootstrapStep Token checks → List (BootstrapEvent Token)
  | .bootstrapScript current name now =>
      onSuccess (fun token => [.issued token name])
        (bootstrapScript jwt current name now)
  | .registerCluster credentials now reachable payload =>
      onSuccess (fun _ => credentials.toList.map
          (fun token => .registered token payload.cfg.name now))
        ((registerCluster jwt credentials now reachable payload).run handle
          s.world).1
  | .addCluster _ _ => []
  | .removeCluster name =>
      onSuccess (fun _ => [.removed name])
        ((removeCluster name).run handle s.world).1

/-- A request. -/
def bootstrapStep (k : BootstrapStep Token checks) (s : Bootstrapping Token) :
    Bootstrapping Token :=
  ⟨worldAfter jwt s k, s.history ++ newEvents jwt s k⟩

/-- Every token registers at most once, only the name it was handed out for,
    only before it expires, and not after its cluster was removed. -/
structure SingleUse (history : List (BootstrapEvent Token)) : Prop where
  once : ∀ token name n₁ t₁ n₂ t₂,
    ¬ List.Sublist [.issued token name, .registered token n₁ t₁,
      .registered token n₂ t₂] history
  named : ∀ token name n t,
    List.Sublist [.issued token name, .registered token n t] history → n = name
  unexpired : ∀ token n t c, .registered token n t ∈ history →
    jwt.decode token = some c → c.expired t = false
  notRemoved : ∀ token name n t,
    ¬ List.Sublist [.issued token name, .removed name, .registered token n t]
      history

/-- What `register_cluster` asks of a token and its payload. -/
structure Admits (w : World) (token : Token) (now : Time)
    (reachable : Except Exn Unit) (payload : ClusterAdd checks) : Prop where
  decoded : ∃ c, decodeToken jwt token .clusterRegister now = .ok c ∧
    c.sub = payload.cfg.name
  accepted : Accepted w reachable payload.cfg

/-- A token that would register its cluster was not handed out before a removal
    of it. -/
def NotStale (s : Bootstrapping Token) : BootstrapStep Token checks → Prop
  | .registerCluster (some token) now reachable payload =>
      Admits jwt s.world token now reachable payload →
        ¬ List.Sublist [.issued token payload.cfg.name,
          .removed payload.cfg.name] s.history
  | _ => True

end Machine

/-! ## Histories -/

/-- The last element of a part of a longer list is the new one, or the part was
    there before. -/
theorem concat_sublist_concat {α : Type} {l h : List α} {x e : α} :
    List.Sublist (l ++ [x]) (h ++ [e]) ↔
      List.Sublist (l ++ [x]) h ∨ (List.Sublist l h ∧ x = e) := by
  constructor
  · intro hsub
    obtain ⟨l₁, l₂, hsplit, h₁, h₂⟩ := List.sublist_append_iff.mp hsub
    rcases List.sublist_singleton.mp h₂ with rfl | rfl
    · rw [List.append_nil] at hsplit
      rw [hsplit]
      exact Or.inl h₁
    · obtain ⟨rfl, hlast⟩ := List.append_inj' hsplit rfl
      exact Or.inr ⟨h₁, (List.cons.inj hlast).1⟩
  · rintro (hsub | ⟨hsub, rfl⟩)
    · exact hsub.trans (List.sublist_append_left h [e])
    · exact hsub.append_right [x]

section History

variable {Token : Type} {jwt : Jwt Token}
  {h : List (BootstrapEvent Token)} {e : BootstrapEvent Token}

/-- Two events in a longer history. -/
theorem pair_concat {a b : BootstrapEvent Token} :
    List.Sublist [a, b] (h ++ [e]) ↔
      List.Sublist [a, b] h ∨ (a ∈ h ∧ b = e) := by
  rw [← List.singleton_sublist (a := a)]
  exact concat_sublist_concat (l := [a])

/-- Three events in a longer history. -/
theorem triple_concat {a b c : BootstrapEvent Token} :
    List.Sublist [a, b, c] (h ++ [e]) ↔
      List.Sublist [a, b, c] h ∨ (List.Sublist [a, b] h ∧ c = e) :=
  concat_sublist_concat (l := [a, b])

/-- Only registrations can go against the single use of tokens. -/
theorem singleUse_concat (hh : SingleUse jwt h)
    (he : ∀ token n t, e ≠ .registered token n t) :
    SingleUse jwt (h ++ [e]) := by
  refine ⟨?_, ?_, ?_, ?_⟩
  · intro token name n₁ t₁ n₂ t₂ hsub
    rcases triple_concat.mp hsub with hold | ⟨-, hnew⟩
    · exact hh.once token name n₁ t₁ n₂ t₂ hold
    · exact he token n₂ t₂ hnew.symm
  · intro token name n t hsub
    rcases pair_concat.mp hsub with hold | ⟨-, hnew⟩
    · exact hh.named token name n t hold
    · exact absurd hnew.symm (he token n t)
  · intro token n t c hmem hdecode
    rcases List.mem_append.mp hmem with hold | hnew
    · exact hh.unexpired token n t c hold hdecode
    · exact absurd (List.mem_singleton.mp hnew).symm (he token n t)
  · intro token name n t hsub
    rcases triple_concat.mp hsub with hold | ⟨-, hnew⟩
    · exact hh.notRemoved token name n t hold
    · exact he token n t hnew.symm

theorem singleUse_onSuccess {α : Type} (hh : SingleUse jwt h)
    (f : α → BootstrapEvent Token)
    (hf : ∀ a token n t, f a ≠ .registered token n t) (r : Except Exn α) :
    SingleUse jwt (h ++ onSuccess (fun a => [f a]) r) := by
  cases r with
  | error e =>
      show SingleUse jwt (h ++ [])
      rw [List.append_nil]
      exact hh
  | ok a => exact singleUse_concat hh (hf a)

end History

/-! ## One request -/

section Step

variable {Token : Type} {jwt : Jwt Token} {checks : PayloadChecks}

/-- A registration with a token writes its row, or is refused. -/
theorem run_registerCluster (jwt : Jwt Token) (credentials : Option Token)
    (now : Time) (reachable : Except Exn Unit) (payload : ClusterAdd checks)
    (w : World) :
    (∃ e, (registerCluster jwt credentials now reachable payload).run handle w
        = (.error e, w) ∧
      ∀ token, credentials = some token →
        ¬ Admits jwt w token now reachable payload) ∨
      ∃ token info t, credentials = some token ∧
        Admits jwt w token now reachable payload ∧
        (registerCluster jwt credentials now reachable payload).run handle w
          = (.ok info, w.setDb (withConfigs w.db t)) ∧
        ∀ name, t.get name
          = if name = payload.cfg.name then some payload.cfg
            else w.db.registeredClusters.get name := by
  cases credentials with
  | none => exact Or.inl ⟨_, rfl, fun token h => by cases h⟩
  | some token =>
      rw [registerCluster, registerCredentials, Option.map_some]
      cases hdecode : decodeToken jwt token .clusterRegister now with
      | error e =>
          refine Or.inl ⟨e, rfl, ?_⟩
          rintro token' htoken ⟨⟨c, hc, -⟩, -⟩
          rw [← Option.some.inj htoken, hdecode] at hc
          cases hc
      | ok c =>
          show (∃ e, (Router.registerCluster (some (.ok (some c.sub)))
            reachable payload).run handle w = (.error e, w) ∧ _) ∨ _
          by_cases hname : c.sub = payload.cfg.name
          · have hprog : Router.registerCluster (some (.ok (some c.sub)))
                reachable payload
                = Router.answerErrors (CvCluster.addCluster reachable
                  payload.cfg) := by
              rw [Router.registerCluster, hname]
              exact if_neg (not_not.mpr rfl)
            rcases run_addCluster_answered reachable payload.cfg w with
              ⟨e, hrun, hrefused⟩ | ⟨t, hrun, haccepted, ht⟩
            · refine Or.inl ⟨e, ?_, fun _ _ h => hrefused h.accepted⟩
              rw [hprog]
              exact hrun
            · refine Or.inr ⟨token, ⟨payload.cfg.name, payload.cfg.apiUrl,
                false⟩, t, rfl, ⟨⟨c, hdecode, hname⟩, haccepted⟩, ?_, ht⟩
              show (Router.registerCluster (some (.ok (some c.sub)))
                reachable payload).run handle w = _
              rw [hprog]
              exact hrun
          · have hprog : Router.registerCluster (some (.ok (some c.sub)))
                reachable payload
                = throw (.httpException 403
                  "Bootstrap token was issued for a different cluster name") :=
              if_pos (fun h => hname (Option.some.inj h))
            refine Or.inl ⟨_, by rw [hprog]; rfl, ?_⟩
            rintro token' htoken ⟨⟨c', hc', hsub⟩, -⟩
            rw [← Option.some.inj htoken, hdecode] at hc'
            rw [Except.ok.inj hc'] at hname
            exact hname hsub

/-- What a request can do to the registered names and the history. -/
inductive StepEffect (jwt : Jwt Token) (s s' : Bootstrapping Token) : Prop
  | quiet (history : s'.history = s.history)
      (kept : ∀ n, registered s.world n = true →
        registered s'.world n = true)
  | issued (token : Token) (name : String)
      (decoded : ∃ c, jwt.decode token = some c ∧ c.sub = name)
      (history : s'.history = s.history ++ [.issued token name])
      (world : s'.world = s.world)
  | registered (token : Token) (name : String) (now : Time)
      (history : s'.history = s.history ++ [.registered token name now])
      (there : CvCluster.registered s'.world name = true)
      (kept : ∀ n, CvCluster.registered s.world n = true →
        CvCluster.registered s'.world n = true)
  | removed (name : String)
      (history : s'.history = s.history ++ [.removed name])
      (kept : ∀ n, n ≠ name → CvCluster.registered s.world n = true →
        CvCluster.registered s'.world n = true)

/-- A new row leaves the names that are there, and adds its own. -/
theorem registered_withConfigs {w : World} {t : ConfigDict}
    {c : RegisteredCluster}
    (ht : ∀ name, t.get name
      = if name = c.name then some c
        else w.db.registeredClusters.get name) :
    registered (w.setDb (withConfigs w.db t)) c.name = true ∧
      ∀ n, registered w n = true →
        registered (w.setDb (withConfigs w.db t)) n = true := by
  refine ⟨?_, ?_⟩
  · show (t.get c.name).isSome = true
    rw [ht, if_pos rfl]
    rfl
  · intro n hn
    show (t.get n).isSome = true
    rw [ht]
    by_cases hname : n = c.name
    · rw [if_pos hname]
      rfl
    · rw [if_neg hname]
      exact hn

theorem bootstrapStep_effect (hjwt : jwt.Lawful) (s : Bootstrapping Token)
    (k : BootstrapStep Token checks) :
    StepEffect jwt s (bootstrapStep jwt k s) := by
  cases k with
  | bootstrapScript current name now =>
      cases hscript : bootstrapScript jwt current name now with
      | error e =>
          refine .quiet ?_ (fun n hn => hn)
          rw [bootstrapStep, newEvents, hscript]
          exact List.append_nil _
      | ok token =>
          obtain ⟨exp, hsigned, -⟩ :=
            createToken_ok hjwt (bootstrapScript_ok hscript).2.2
          refine .issued token name ⟨_, hsigned, rfl⟩ ?_ rfl
          rw [bootstrapStep, newEvents, hscript]
          rfl
  | registerCluster credentials now reachable payload =>
      rcases run_registerCluster jwt credentials now reachable payload
        s.world with ⟨e, hrun, -⟩ | ⟨token, info, t, rfl, -, hrun, ht⟩
      · refine .quiet ?_ ?_
        · rw [bootstrapStep, newEvents, hrun]
          exact List.append_nil _
        · intro n hn
          rw [bootstrapStep, worldAfter, hrun]
          exact hn
      · obtain ⟨hthere, hkept⟩ := registered_withConfigs ht
        refine .registered token payload.cfg.name now ?_ ?_ ?_
        · rw [bootstrapStep, newEvents, hrun]
          rfl
        · rw [bootstrapStep, worldAfter, hrun]
          exact hthere
        · rw [bootstrapStep, worldAfter, hrun]
          exact hkept
  | addCluster reachable payload =>
      refine .quiet (List.append_nil _) ?_
      rw [bootstrapStep, worldAfter, Router.addCluster]
      rcases run_addCluster_answered reachable payload.cfg s.world with
        ⟨e, hrun, -⟩ | ⟨t, hrun, -, ht⟩
      · rw [hrun]
        exact fun n hn => hn
      · rw [hrun]
        exact (registered_withConfigs ht).2
  | removeCluster name =>
      rcases run_removeCluster name s.world with ⟨e, hrun⟩ | ⟨t, hrun, ht⟩
      · refine .quiet ?_ ?_
        · rw [bootstrapStep, newEvents, hrun]
          exact List.append_nil _
        · rw [bootstrapStep, worldAfter, hrun]
          exact fun n hn => hn
      · refine .removed name ?_ ?_
        · rw [bootstrapStep, newEvents, hrun]
          rfl
        · intro n hname hn
          rw [bootstrapStep, worldAfter, hrun]
          show (t.get n).isSome = true
          rw [ht, if_neg hname]
          exact hn

/-- The history accounts for the tokens and for the registered names. -/
structure Recorded (jwt : Jwt Token) (s : Bootstrapping Token) : Prop where
  decoded : ∀ token name, .issued token name ∈ s.history →
    ∃ c, jwt.decode token = some c ∧ c.sub = name
  used : ∀ token name n t,
    List.Sublist [.issued token name, .registered token n t] s.history →
    registered s.world n = true ∨
      List.Sublist [.issued token name, .removed n] s.history

/-- One more event, which issues a token that is decodable, or none. -/
theorem decoded_concat {history : List (BootstrapEvent Token)}
    {e : BootstrapEvent Token}
    (hold : ∀ token name, .issued token name ∈ history →
      ∃ c, jwt.decode token = some c ∧ c.sub = name)
    (hnew : ∀ token name, e = .issued token name →
      ∃ c, jwt.decode token = some c ∧ c.sub = name) :
    ∀ token name, .issued token name ∈ history ++ [e] →
      ∃ c, jwt.decode token = some c ∧ c.sub = name := by
  intro token name hmem
  rcases List.mem_append.mp hmem with hmem | hmem
  · exact hold token name hmem
  · exact hnew token name (List.mem_singleton.mp hmem).symm

theorem recorded_effect {s s' : Bootstrapping Token}
    (heffect : StepEffect jwt s s') (hs : Recorded jwt s) :
    Recorded jwt s' := by
  cases heffect with
  | quiet history kept =>
      refine ⟨?_, ?_⟩
      · rw [history]
        exact hs.decoded
      · intro token name n t hsub
        rw [history] at hsub ⊢
        exact (hs.used token name n t hsub).imp (kept n) id
  | issued token name decoded history world =>
      refine ⟨?_, ?_⟩
      · rw [history]
        refine decoded_concat hs.decoded (fun token' name' heq => ?_)
        cases heq
        exact decoded
      · intro token' name' n t hsub
        rw [history] at hsub ⊢
        rw [world]
        rcases pair_concat.mp hsub with hold | ⟨-, hnew⟩
        · exact (hs.used token' name' n t hold).imp id
            (fun h => pair_concat.mpr (Or.inl h))
        · cases hnew
  | registered token name now history there kept =>
      refine ⟨?_, ?_⟩
      · rw [history]
        refine decoded_concat hs.decoded (fun token' name' heq => ?_)
        cases heq
      · intro token' name' n t hsub
        rw [history] at hsub ⊢
        rcases pair_concat.mp hsub with hold | ⟨-, hnew⟩
        · exact (hs.used token' name' n t hold).imp (kept n)
            (fun h => pair_concat.mpr (Or.inl h))
        · cases hnew
          exact Or.inl there
  | removed name history kept =>
      refine ⟨?_, ?_⟩
      · rw [history]
        refine decoded_concat hs.decoded (fun token' name' heq => ?_)
        cases heq
      · intro token' name' n t hsub
        rw [history] at hsub ⊢
        rcases pair_concat.mp hsub with hold | ⟨-, hnew⟩
        · by_cases hname : n = name
          · -- the name that was registered is the one removed
            rw [hname]
            exact Or.inr (pair_concat.mpr
              (Or.inr ⟨hold.subset List.mem_cons_self, rfl⟩))
          · exact (hs.used token' name' n t hold).imp (kept n hname)
              (fun h => pair_concat.mpr (Or.inl h))
        · cases hnew

/-- A token registers once as long as it is not stale. -/
theorem singleUse_registered {s : Bootstrapping Token} {token : Token}
    {now : Time} {reachable : Except Exn Unit} {payload : ClusterAdd checks}
    (hs : Recorded jwt s) (huse : SingleUse jwt s.history)
    (hadmits : Admits jwt s.world token now reachable payload) :
    SingleUse jwt
        (s.history ++ [.registered token payload.cfg.name now]) ↔
      ¬ List.Sublist [.issued token payload.cfg.name,
        .removed payload.cfg.name] s.history := by
  obtain ⟨⟨c, hdecode, hsub⟩, haccepted⟩ := hadmits
  obtain ⟨hsigned, hfresh, -⟩ := decodeToken_ok_iff.mp hdecode
  have hname : ∀ name, .issued token name ∈ s.history →
      name = payload.cfg.name := by
    intro name hmem
    obtain ⟨c', hsigned', rfl⟩ := hs.decoded token name hmem
    rw [hsigned] at hsigned'
    rw [← Option.some.inj hsigned']
    exact hsub
  constructor
  · intro h hstale
    exact h.notRemoved token payload.cfg.name payload.cfg.name now
      (triple_concat.mpr (Or.inr ⟨hstale, rfl⟩))
  · intro hnot
    refine ⟨?_, ?_, ?_, ?_⟩
    · intro token' name n₁ t₁ n₂ t₂ hlong
      rcases triple_concat.mp hlong with hold | ⟨hpair, hnew⟩
      · exact huse.once token' name n₁ t₁ n₂ t₂ hold
      -- the name of the earlier registration would have to be free again
      · cases hnew
        have hissued : .issued token name ∈ s.history :=
          hpair.subset List.mem_cons_self
        have hn : n₁ = payload.cfg.name :=
          (huse.named token name n₁ t₁ hpair).trans (hname name hissued)
        rcases hs.used token name n₁ t₁ hpair with hthere | hremoved
        · rw [hn, haccepted.absent] at hthere
          cases hthere
        · rw [hn, hname name hissued] at hremoved
          exact hnot hremoved
    · intro token' name n t hlong
      rcases pair_concat.mp hlong with hold | ⟨hissued, hnew⟩
      · exact huse.named token' name n t hold
      · cases hnew
        exact (hname name hissued).symm
    · intro token' n t c' hmem hsigned'
      rcases List.mem_append.mp hmem with hold | hnew
      · exact huse.unexpired token' n t c' hold hsigned'
      · cases List.mem_singleton.mp hnew
        rw [hsigned] at hsigned'
        rw [← Option.some.inj hsigned']
        exact hfresh
    · intro token' name n t hlong
      rcases triple_concat.mp hlong with hold | ⟨hpair, hnew⟩
      · exact huse.notRemoved token' name n t hold
      · cases hnew
        rw [hname name (hpair.subset List.mem_cons_self)] at hpair
        exact hnot hpair

/-- A request keeps the single use of tokens exactly when its token is not
    stale. -/
theorem bootstrapStep_singleUse {s : Bootstrapping Token}
    (hs : Recorded jwt s) (huse : SingleUse jwt s.history)
    (k : BootstrapStep Token checks) :
    SingleUse jwt (bootstrapStep jwt k s).history ↔ NotStale jwt s k := by
  cases k with
  | registerCluster credentials now reachable payload =>
      rw [bootstrapStep, newEvents]
      rcases run_registerCluster jwt credentials now reachable payload
        s.world with ⟨e, hrun, hrefused⟩ | ⟨token, info, t, rfl, hadmits,
          hrun, -⟩
      · rw [hrun]
        refine iff_of_true ?_ ?_
        · show SingleUse jwt (s.history ++ [])
          rw [List.append_nil]
          exact huse
        · cases credentials with
          | none => exact trivial
          | some token => exact fun h => absurd h (hrefused token rfl)
      · rw [hrun]
        refine (singleUse_registered hs huse hadmits).trans ?_
        exact ⟨fun h _ => h, fun h => h hadmits⟩
  | bootstrapScript current name now =>
      refine iff_of_true (singleUse_onSuccess huse
        (fun token => .issued token name) ?_ _) trivial
      intro a token n t h
      cases h
  | addCluster reachable payload =>
      refine iff_of_true ?_ trivial
      show SingleUse jwt (s.history ++ [])
      rw [List.append_nil]
      exact huse
  | removeCluster name =>
      refine iff_of_true (singleUse_onSuccess huse
        (fun _ => .removed name) ?_ _) trivial
      intro a token n t h
      cases h

end Step

/-! ## Every run -/

section Run

variable {Token : Type} (jwt : Jwt Token) {checks : PayloadChecks}

/-- Before the first request, whatever is registered. -/
def Bootstrapping.start (Token : Type) (w : World) : Bootstrapping Token :=
  ⟨w, []⟩

/-- In every run every token authorizes a single registration, exactly when no
    request registers with a token from before a removal of its cluster. -/
theorem single_use_iff (hjwt : jwt.Lawful) (w : World)
    (steps : List (BootstrapStep Token checks)) :
    Along (bootstrapStep jwt)
        (fun s k => SingleUse jwt (bootstrapStep jwt k s).history) steps
        (.start Token w)
      ↔ Along (bootstrapStep jwt) (NotStale jwt) steps (.start Token w) := by
  have hstart : Recorded jwt (.start Token w) ∧
      SingleUse jwt (Bootstrapping.start Token w).history := by
    refine ⟨⟨?_, ?_⟩, ⟨?_, ?_, ?_, ?_⟩⟩
    · exact fun token name h => absurd h List.not_mem_nil
    · intro token name n t h
      cases h
    · intro token name n₁ t₁ n₂ t₂ h
      cases h
    · intro token name n t h
      cases h
    · exact fun token n t c h => absurd h List.not_mem_nil
    · intro token name n t h
      cases h
  have hstep : ∀ (s : Bootstrapping Token) (k : BootstrapStep Token checks),
      Recorded jwt s ∧ SingleUse jwt s.history →
      SingleUse jwt (bootstrapStep jwt k s).history →
      Recorded jwt (bootstrapStep jwt k s) ∧
        SingleUse jwt (bootstrapStep jwt k s).history :=
    fun s k h hafter =>
      ⟨recorded_effect (bootstrapStep_effect hjwt s k) h.1, hafter⟩
  exact along_congr hstep (fun s k h => bootstrapStep_singleUse h.1 h.2 k)
    hstart steps

end Run

/-- An administrator of the instance. -/
def instanceAdmin : UserInfo where
  username := "admin"
  roles := fun scope => if scope = instanceScope then some .admin else none

/-- The token in a script for `prod`. -/
def prodToken : Claims where
  sub := "prod"
  payload := .clusterRegister
  exp := seconds Time.epoch + 3600

/-- A script, and the registration that it makes. -/
def prodRegisters : List (BootstrapStep Claims someChecks) :=
  [.bootstrapScript instanceAdmin "prod" Time.epoch,
    .registerCluster (some prodToken) Time.epoch (.ok ())
      (payloadNamed "prod" rfl)]

theorem single_use_prod :
    Along (bootstrapStep claimsJwt)
      (fun s k => SingleUse claimsJwt (bootstrapStep claimsJwt k s).history)
      prodRegisters (.start Claims World.fresh) := by
  refine (single_use_iff claimsJwt claimsJwt_lawful World.fresh
    prodRegisters).mpr ⟨trivial, ?_, trivial⟩
  intro _ hsub
  exact absurd hsub.length_le (by decide)

/-- The script is run again after the cluster was removed. -/
def prodReturns : List (BootstrapStep Claims someChecks) :=
  prodRegisters ++ [.removeCluster "prod",
    .registerCluster (some prodToken) Time.epoch (.ok ())
      (payloadNamed "prod" rfl)]

/-- The token registers `prod` twice. -/
theorem token_used_twice :
    ¬ ∀ (w : World) (steps : List (BootstrapStep Claims someChecks)),
      SingleUse claimsJwt
        (after (bootstrapStep claimsJwt) steps (.start Claims w)).history := by
  intro h
  have hhistory : (after (bootstrapStep claimsJwt) prodReturns
      (.start Claims World.fresh)).history
      = [.issued prodToken "prod", .registered prodToken "prod" Time.epoch,
        .removed "prod", .registered prodToken "prod" Time.epoch] := rfl
  have huse := h World.fresh prodReturns
  rw [hhistory] at huse
  refine huse.once prodToken "prod" "prod" Time.epoch "prod" Time.epoch ?_
  exact .cons_cons _ (.cons_cons _ (.cons _ (.cons_cons _ .slnil)))

end CvBootstrap
