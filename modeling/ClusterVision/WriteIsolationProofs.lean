import ClusterVision.HttpRunProofs

/-! # Write isolation between clusters

    An account without a role on a cluster does not change the objects of that
    cluster.  The registry is not divided so: a DELETE removes the entries of a
    name whatever cluster they came through, and an import of a ServiceAccount
    takes the place of a certificate user with its key.  The main result says
    that nothing else touches the entries of the other cluster. -/

namespace CvWrites

open CvProg CvRun CvTable CvIso CvKube CvBackend CvRegistry CvUsers CvHttp

/-- Does a DELETE remove this entry? -/
def removes (users : List RegistryEntry) (username : String)
    (userType : UserType) (ns : String) (u : RegistryEntry) : Bool :=
  if userType = .certificate then Certificate.isUser username u
  else
    match ServiceAccount.chosen username ns users with
    | .ok v => ServiceAccount.isEntry username v.ns u
    | .error _ => false

/-- Does a request leave this entry alone?  Deletions remove what they name,
    and an import writes under its key, unless a ServiceAccount user is in its
    way there. -/
def spares (users : List RegistryEntry) (u : RegistryEntry) :
    Endpoint → Bool
  | .users (.deleteUser username userType ns) =>
      !removes users username userType ns u
  | .users (.importUser payload) =>
      decide (payload.userType = .serviceAccount →
        u.key = (payload.name, payload.ns) → u.type = .serviceAccount)
  | _ => true

/-- The rows that came through the cluster `A`. -/
def rowsOf (A : String) (s : Tracked) : List ManagedUser :=
  s.world.db.managedUsers.rows.filter
    (fun r => decide (s.origins r.key = some A))

/-- If the account makes this step, through the users router, then every entry
    of the cluster `A` stays as it is, and so does the cluster. -/
def Isolated (A : String) (account : UserInfo) (s : Tracked) :
    RunStep → Prop
  | .request q => q.user = account → (∃ e, q.endpoint = .users e) →
      (∀ r ∈ rowsOf A s, r ∈ (q.after s.world).db.managedUsers.rows) ∧
        (q.after s.world).clusters A = s.world.clusters A
  | .outside _ _ => True

/-- If the account makes this step, and it is admitted, then it spares the
    entries of the cluster `A`. -/
def Confined (A : String) (account : UserInfo) (s : Tracked) :
    RunStep → Prop
  | .request q => q.user = account → q.Admitted s.world →
      ∀ r ∈ rowsOf A s, spares (s.world.db.managedUsers.rows.map toDict)
        (toDict r) q.endpoint = true
  | .outside _ _ => True

variable {t t' : Users} {r : ManagedUser}

/-- A change of the registry keeps the entries that its request spares. -/
theorem change_keeps {e : UsersEndpoint} (h : e.Change t t')
    (hr : r ∈ t.rows)
    (hspare : spares (t.rows.map toDict) (toDict r) (.users e) = true) :
    r ∈ t'.rows := by
  cases e with
  | listUsers => exact nomatch h
  | listUnmanagedServiceAccounts => exact nomatch h
  | getUser username => exact nomatch h
  | createUser payload =>
      rw [UsersEndpoint.Change] at h
      by_cases htype : payload.userType = .certificate
      · rw [if_pos htype] at h
        obtain ⟨now, certificate, happ⟩ := h
        exact happ.keeps hr (fun hkey =>
          decide_eq_true (congrArg Prod.fst hkey))
      · rw [if_neg htype] at h
        obtain ⟨now, happ⟩ := h
        refine happ.keeps hr (fun hkey => decide_eq_true ?_)
        exact ⟨congrArg Prod.fst hkey, congrArg Prod.snd hkey⟩
  | importUser payload =>
      rw [UsersEndpoint.Change] at h
      by_cases htype : payload.userType = .certificate
      · rw [if_pos htype] at h
        obtain ⟨now, happ⟩ := h
        exact happ.keeps hr (fun hkey =>
          decide_eq_true (congrArg Prod.fst hkey))
      · rw [if_neg htype] at h
        obtain ⟨now, happ⟩ := h
        -- a ServiceAccount user with this key is in the way
        have hsa : payload.userType = .serviceAccount := by
          cases hut : payload.userType with
          | certificate => exact absurd hut htype
          | serviceAccount => rfl
        refine happ.keeps hr (fun hkey => decide_eq_true ?_)
        exact ⟨congrArg Prod.fst hkey, of_decide_eq_true hspare hsa hkey⟩
  | deleteUser username userType ns =>
      rw [UsersEndpoint.Change] at h
      rw [spares, removes, Bool.not_eq_true'] at hspare
      by_cases htype : userType = .certificate
      · rw [if_pos htype] at h hspare
        exact h.keeps hr hspare
      · rw [if_neg htype] at h hspare
        obtain ⟨u, hchosen, hremoved⟩ := h
        rw [hchosen] at hspare
        exact hremoved.keeps hr hspare

/-- One step of the account. -/
theorem isolated_of_confined {A : String} {account : UserInfo}
    (haccount : account.roles A = none) (s : Tracked) (k : RunStep)
    (h : Confined A account s k) : Isolated A account s k := by
  cases k with
  | outside f keeps => exact trivial
  | request q =>
      rintro huser ⟨e, he⟩
      constructor
      · intro r hr
        have hmem := (List.mem_filter.mp hr).1
        rcases after_users q s.world with hsame | ⟨e', he', hq, hchange⟩
        · rw [hsame]
          exact hmem
        · refine change_keeps hchange hmem ?_
          rw [← he']
          exact h huser hq r hr
      · refine after_clusters he (fun hq => ?_)
        -- the account has a role where it is admitted
        rintro rfl
        refine hq.role ?_
        rw [huser]
        exact haccount

/-- An account without a role on the cluster `A`, in any run in which its
    admitted requests spare the entries of `A`, changes neither these entries
    nor the cluster. -/
theorem writes_isolated (A : String) (account : UserInfo)
    (haccount : account.roles A = none) (s : Tracked) (ks : List RunStep)
    (h : Along trackedStep (Confined A account) ks s) :
    Along trackedStep (Isolated A account) ks s :=
  h.imp (isolated_of_confined haccount)

/-- A user came through `local`; the operator of `edge` creates and deletes
    another one. -/
theorem writes_isolated_edge :
    Along trackedStep (Isolated "local" (operatorOf "edge"))
      [createAccount "local" "ci", createAccount "edge" "bot",
        deleteAccount "edge" "bot"] .fresh := by
  refine writes_isolated "local" (operatorOf "edge") (by decide) .fresh
    [createAccount "local" "ci", createAccount "edge" "bot",
      deleteAccount "edge" "bot"] ⟨?_, ?_, ?_, trivial⟩
  · exact fun _ _ => by decide
  · exact fun _ _ => by decide
  · exact fun _ _ => by decide

/-- A user came through `local`; the operator of `edge` deletes the entry. -/
theorem edge_deletes_local :
    (∀ scope, scope ≠ "edge" → (operatorOf "edge").roles scope = none) ∧
      ¬ Along trackedStep (Isolated "local" (operatorOf "edge"))
        [createAccount "local" "ci", deleteAccount "edge" "ci"] .fresh := by
  constructor
  · intro scope hscope
    exact if_neg hscope
  · rintro ⟨-, hdelete, -⟩
    have hrows := (hdelete rfl ⟨_, rfl⟩).1
    revert hrows
    decide

end CvWrites
