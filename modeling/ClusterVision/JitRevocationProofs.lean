import ClusterVision.JitGrantProofs

/-! # Revocation reaches the grant where it lives

    A request is revoked through the api client of the call, and the record
    does not say on which cluster its binding was created.  The main result
    says along which runs no revoked request keeps a binding on any cluster:
    those in which every revocation of an active grant is sent to the cluster
    on which the binding lives. -/

namespace CvRevoke

open CvProg CvRun CvTable CvIso CvKube CvBackend CvRbac CvAccess CvGrant

/-! ## Where bindings live -/

/-- On the cluster there is a binding with the name of the request. -/
def Live (w : World) (cluster id : String) : Prop :=
  ∃ b ∈ (w.clusters cluster).bindings.rows, b.name = jitBindingName id

/-- No revoked request has a binding, on any cluster. -/
def NoStaleGrant (w : World) : Prop :=
  ∀ id r, w.db.accessRequests.get id = some r → r.status = .revoked →
    ∀ c, ¬ Live w c id

/-- A call that revokes an active grant goes to the cluster on which the
    binding of the request lives. -/
def SentHome (w : World) (k : JitCall) : Prop :=
  ∀ cluster id reviewer, k = .revokeRequest cluster id reviewer →
    ∀ r, w.db.accessRequests.get id = some r → r.status = .approved →
      ∀ c, Live w c id → c = cluster

/-- What the status of a request says about its bindings. -/
def Placed (w : World) (id : String) : Option AccessRequestRecord → Prop
  | none => ∀ c, ¬ Live w c id
  | some r =>
      match r.status with
      | .approved => r.bindingName = some (jitBindingName id) ∧
          ∀ c, ∀ b ∈ (w.clusters c).bindings.rows,
            b.name = jitBindingName id → b.ns = grantScope r
      | .expired => True
      | .pending | .denied | .revoked => ∀ c, ¬ Live w c id

/-- Every request's bindings are where its status says. -/
def WellPlaced (w : World) : Prop :=
  ∀ id, Placed w id (w.db.accessRequests.get id)

/-- The bindings of a request are those that it had, or fewer. -/
def Fewer (w w' : World) (id : String) : Prop :=
  ∀ c, ∀ b ∈ (w'.clusters c).bindings.rows, b.name = jitBindingName id →
    b ∈ (w.clusters c).bindings.rows

theorem fewer_of_sameBindings {w w' : World} (h : SameBindings w w')
    (id : String) : Fewer w w' id := by
  intro c b hb _
  rw [h c] at hb
  exact hb

/-- With fewer bindings, no request loses its place. -/
theorem placed_of_fewer {w w' : World} {id : String}
    {row : Option AccessRequestRecord} (hf : Fewer w w' id)
    (h : Placed w id row) : Placed w' id row := by
  have hlive : ∀ c, Live w' c id → Live w c id :=
    fun c ⟨b, hb, hname⟩ => ⟨b, hf c b hb hname, hname⟩
  cases row with
  | none => exact fun c hc => h c (hlive c hc)
  | some r =>
      rw [Placed] at h ⊢
      cases hs : r.status with
      | approved =>
          simp only [hs] at h ⊢
          exact ⟨h.1, fun c b hb hname => h.2 c b (hf c b hb hname) hname⟩
      | expired => exact trivial
      | pending | denied | revoked =>
          simp only [hs] at h ⊢
          exact fun c hc => h c (hlive c hc)

/-- A request in one of these statuses has no bindings. -/
theorem not_live_of_placed {w : World} {id : String} {r : AccessRequestRecord}
    (h : Placed w id (some r))
    (hs : r.status = .pending ∨ r.status = .denied ∨ r.status = .revoked) :
    ∀ c, ¬ Live w c id := by
  rw [Placed] at h
  rcases hs with hs | hs | hs <;> simpa only [hs] using h

/-- The other way round. -/
theorem placed_of_not_live {w : World} {id : String}
    {r : AccessRequestRecord} (h : ∀ c, ¬ Live w c id)
    (hs : r.status = .pending ∨ r.status = .denied ∨ r.status = .revoked) :
    Placed w id (some r) := by
  rw [Placed]
  rcases hs with hs | hs | hs <;> simpa only [hs] using h

theorem noStaleGrant_of_wellPlaced {w : World} (h : WellPlaced w) :
    NoStaleGrant w := by
  intro id r hget hs
  have hp := h id
  rw [hget] at hp
  exact not_live_of_placed hp (Or.inr (Or.inr hs))

/-! ## One call -/

/-- A revocation that is sent home deletes every binding of the request. -/
theorem not_live_of_erase {w w' : World} {cluster id : String}
    {record : AccessRequestRecord}
    (hplaced : ∀ c, ∀ b ∈ (w.clusters c).bindings.rows,
      b.name = jitBindingName id → b.ns = grantScope record)
    (hhome : ∀ c, Live w c id → c = cluster)
    (hbind : (w'.clusters cluster).bindings
      = (w.clusters cluster).bindings.erase
        (grantScope record, jitBindingName id))
    (hothers : ∀ c, c ≠ cluster →
      (w'.clusters c).bindings = (w.clusters c).bindings) (c : String) :
    ¬ Live w' c id := by
  rintro ⟨b, hb, hname⟩
  by_cases hc : c = cluster
  · rw [hc, hbind, Table.mem_erase] at hb
    refine hb.2 ?_
    rw [Binding.key, hname, hplaced cluster b hb.1 hname]
  · rw [hothers c hc] at hb
    exact hc (hhome c ⟨b, hb, hname⟩)

/-- A binding under another name is none of the request's. -/
theorem fewer_of_put {w w' : World} {cluster id : String} {b₀ : Binding}
    (hname : b₀.name ≠ jitBindingName id)
    (hbind : (w'.clusters cluster).bindings
      = (w.clusters cluster).bindings.put b₀)
    (hothers : ∀ c, c ≠ cluster →
      (w'.clusters c).bindings = (w.clusters c).bindings) :
    Fewer w w' id := by
  intro c b hb hb'
  by_cases hc : c = cluster
  · rw [hc, hbind] at hb
    rcases Table.mem_put.mp hb with rfl | ⟨hold, -⟩
    · exact absurd hb' hname
    · rw [hc]
      exact hold
  · rw [hothers c hc] at hb
    exact hb

/-- A deletion leaves the request fewer bindings. -/
theorem fewer_of_erase {w w' : World} {cluster : String}
    {key : Option String × String} (id : String)
    (hbind : (w'.clusters cluster).bindings
      = (w.clusters cluster).bindings.erase key)
    (hothers : ∀ c, c ≠ cluster →
      (w'.clusters c).bindings = (w.clusters c).bindings) :
    Fewer w w' id := by
  intro c b hb _
  by_cases hc : c = cluster
  · rw [hc, hbind, Table.mem_erase] at hb
    rw [hc]
    exact hb.1
  · rw [hothers c hc] at hb
    exact hb

/-- A request without bindings that is approved has the new one. -/
theorem placed_of_approved {w w' : World} {cluster id : String}
    {r : AccessRequestRecord} {b₀ : Binding} (hno : ∀ c, ¬ Live w c id)
    (hstatus : r.status = .approved)
    (hname : r.bindingName = some (jitBindingName id))
    (hns : b₀.ns = grantScope r)
    (hbind : (w'.clusters cluster).bindings
      = (w.clusters cluster).bindings.put b₀)
    (hothers : ∀ c, c ≠ cluster →
      (w'.clusters c).bindings = (w.clusters c).bindings) :
    Placed w' id (some r) := by
  rw [Placed]
  simp only [hstatus]
  refine ⟨hname, ?_⟩
  intro c b hb hb'
  by_cases hc : c = cluster
  · rw [hc, hbind] at hb
    rcases Table.mem_put.mp hb with rfl | ⟨hold, -⟩
    · exact hns
    · exact absurd ⟨b, hold, hb'⟩ (hno cluster)
  · rw [hothers c hc] at hb
    exact absurd ⟨b, hb, hb'⟩ (hno c)

/-- A call that is sent home keeps every request well placed. -/
theorem wellPlaced_step {w : World} {k : JitCall} (hw : WellPlaced w)
    (hk : SentHome w k) : WellPlaced (jitStep k w) := by
  intro id
  have heff := jitCall_effect k w
  generalize created k w = bs at heff
  generalize jitStep k w = w' at heff ⊢
  have hid := hw id
  cases heff with
  | calm requests bindings =>
      rw [requests]
      exact placed_of_fewer (fewer_of_sameBindings bindings id) hid
  | @requested q id' t _ free inNamespace requests bindings =>
      refine placed_of_fewer (fewer_of_sameBindings bindings id) ?_
      rw [requests, Table.get_put]
      by_cases hidq : id = (q.record id' t).id
      · have hidq' : id = id' := hidq
        rw [hidq', free] at hid
        rw [if_pos hidq, hidq']
        exact placed_of_not_live hid (Or.inl rfl)
      · rw [if_neg hidq]
        exact hid
  | @approved cluster requestId reviewer record t expiresAt _ approvable free
      requests bindings others =>
      rw [requests, get_put_request _ approvable.stored]
      by_cases hr : id = requestId
      · -- before, the request had no binding; now it has the new one
        rw [if_pos hr]
        have hno : ∀ c, ¬ Live w c id := by
          rw [hr, approvable.stored] at hid
          rw [hr]
          exact not_live_of_placed hid (Or.inl approvable.pending)
        refine placed_of_approved hno rfl ?_
          (congrArg Prod.fst (jitBinding_key record expiresAt)) bindings others
        show some (jitBindingName record.id) = _
        rw [approvable.id_eq, hr]
      · rw [if_neg hr]
        refine placed_of_fewer (fewer_of_put ?_ bindings others) hid
        rw [jitBinding_name, approvable.id_eq]
        exact fun hname => hr (jitBindingName_inj hname).symm
  | @denied requestId reviewer record t _ stored pending requests bindings =>
      refine placed_of_fewer (fewer_of_sameBindings bindings id) ?_
      rw [requests, get_put_request _ stored]
      by_cases hr : id = requestId
      · rw [if_pos hr]
        rw [hr, stored] at hid
        rw [hr]
        exact placed_of_not_live (not_live_of_placed hid (Or.inl pending))
          (Or.inr (Or.inl rfl))
      · rw [if_neg hr]
        exact hid
  | @revoked cluster requestId reviewer record name t _ stored active named
      requests bindings others =>
      rw [requests, get_put_request _ stored]
      by_cases hr : id = requestId
      · rw [if_pos hr]
        rw [hr, stored] at hid
        rw [Placed] at hid
        simp only [active] at hid
        have hname : name = jitBindingName requestId :=
          Option.some.inj (named.symm.trans hid.1)
        rw [hname] at bindings
        -- sent home, the call deletes the one place it can be in
        refine placed_of_not_live ?_ (Or.inr (Or.inr rfl))
        rw [hr]
        exact not_live_of_erase hid.2
          (hk cluster requestId reviewer rfl record stored active) bindings
          others
      · rw [if_neg hr]
        exact placed_of_fewer (fewer_of_erase id bindings others) hid
  | @expired t _ requests bindings =>
      refine placed_of_fewer (fewer_of_sameBindings bindings id) ?_
      rw [requests]
      cases hget : w.db.accessRequests.get id with
      | none =>
          rw [hget] at hid
          exact hid
      | some r =>
          rw [hget] at hid
          rw [Option.map_some]
          rw [expireRow]
          by_cases hlate : r.approvedExpired t = true
          · rw [if_pos hlate]
            trivial
          · rw [if_neg hlate]
            exact hid

/-- A call after which no revoked request has a binding was sent home. -/
theorem sentHome_of_noStaleGrant {w : World} {k : JitCall}
    (hw : WellPlaced w) (hk : NoStaleGrant (jitStep k w)) : SentHome w k := by
  intro cluster id reviewer hkind r hget hs c hlive
  by_contra hc
  rw [hkind] at hk
  have hp := hw id
  rw [hget] at hp
  rw [Placed] at hp
  simp only [hs] at hp
  obtain ⟨w', hrun, hreq, -, hothers⟩ :=
    revokeRequest_active cluster reviewer hget hs hp.1
  have hstep : jitStep (.revokeRequest cluster id reviewer) w = w' :=
    (Prog.run_void_snd handle _ w).trans (congrArg Prod.snd hrun)
  rw [hstep] at hk
  refine hk id (r.set (revocation (w.clock w.tick))) ?_ rfl c ?_
  · rw [hreq, get_put_request _ hget, if_pos rfl]
  · obtain ⟨b, hb, hname⟩ := hlive
    exact ⟨b, by rw [hothers c hc]; exact hb, hname⟩

/-! ## Runs -/

/-- Along every run that starts without requests and without bindings of
    requests: no revoked request has a binding on any cluster, after any of
    its calls, exactly when every revocation of an active grant is sent to
    the cluster on which the binding of the request lives. -/
theorem noStaleGrant_iff (w : World)
    (hreq : w.db.accessRequests = Table.empty)
    (hbind : ∀ c id, ¬ Live w c id) (ks : List JitCall) :
    Along jitStep (fun w k => NoStaleGrant (jitStep k w)) ks w
      ↔ Along jitStep SentHome ks w := by
  have hinit : WellPlaced w := by
    intro id
    rw [hreq, Table.get_empty]
    exact fun c => hbind c id
  have hstep : ∀ v k, WellPlaced v → NoStaleGrant (jitStep k v) →
      WellPlaced (jitStep k v) :=
    fun v k hv hk => wellPlaced_step hv (sentHome_of_noStaleGrant hv hk)
  refine along_congr hstep ?_ hinit ks
  exact fun v k hv => ⟨sentHome_of_noStaleGrant hv,
    fun hk => noStaleGrant_of_wellPlaced (wellPlaced_step hv hk)⟩

/-- A new installation has neither requests nor bindings, and the grant is
    revoked on the cluster on which it was approved. -/
theorem noStaleGrant_fresh :
    Along jitStep (fun w k => NoStaleGrant (jitStep k w))
      [.createRequest bobsRequest, .approveRequest "local" "0" "carol",
        .revokeRequest "local" "0" "carol"] World.fresh := by
  refine (noStaleGrant_iff World.fresh rfl ?_ _).mpr ⟨?_, ?_, ?_, trivial⟩
  · rintro c id ⟨b, hb, -⟩
    exact nomatch hb
  · exact fun _ _ _ h => by cases h
  · exact fun _ _ _ h => by cases h
  · rintro _ _ _ ⟨⟩ r _ _ c ⟨b, hb, -⟩
    by_contra hc
    -- the approval writes to no other cluster
    obtain ⟨v, x, hclusters, hfresh⟩ : ∃ v x,
        (jitStep (.approveRequest "local" "0" "carol")
          (jitStep (.createRequest bobsRequest) World.fresh)).clusters
            = (World.setCluster v "local" x).clusters ∧
          v.clusters = World.fresh.clusters := ⟨_, _, rfl, rfl⟩
    rw [hclusters, World.setCluster_ne v _ hc, hfresh] at hb
    exact nomatch hb

/-- A request that is approved on the local cluster and revoked on another one
    is revoked, and keeps its binding. -/
theorem revoked_elsewhere :
    ¬ NoStaleGrant (after jitStep
      [.createRequest bobsRequest, .approveRequest "local" "0" "carol",
        .revokeRequest "staging" "0" "carol"] World.fresh) := by
  intro h
  refine h "0" _ rfl rfl "local" ?_
  rw [Live]
  decide

end CvRevoke
