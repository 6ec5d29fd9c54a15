import ClusterVision.AuditProofs

/-! # The history of generated tokens

    `record_generation` adds a row and, in the same transaction, deletes the
    rows behind the newest 500 (`services/token_service.py`).  The query that
    looks for them comes after the flush of the new row, so it counts that row
    too.  This file models the table and its four operations, and proves that
    the history is the list that the obvious operations on a list give. -/

namespace CvTokenHistory

open CvRun CvIso CvBackend

/-! ## The newest rows -/

variable {Row : Type}

/-- Rows in strictly descending order of their times. -/
def Descending (time : Row → Time) (rows : List Row) : Prop :=
  rows.Pairwise (fun a b => (time b).instant < (time a).instant)

/-- Rows with different times have only one order. -/
theorem sort_eq_of_descending {time : Row → Time} (order : LatestFirst time)
    {rows hist : List Row} (hperm : rows.Perm hist)
    (hhist : Descending time hist) : order.sort rows = hist := by
  have hsort : (order.sort rows).Perm hist := (order.perm rows).trans hperm
  have hdistinct : (hist.map (fun r => (time r).instant)).Nodup :=
    List.pairwise_map.mpr (hhist.imp Nat.ne_of_gt)
  have hdiffer := List.pairwise_map.mp
    ((hsort.map (fun r => (time r).instant)).nodup_iff.mpr hdistinct)
  have hstrict : Descending time (order.sort rows) :=
    ((order.sorted rows).and hdiffer).imp
      (fun h => Nat.lt_of_le_of_ne h.1 (Ne.symm h.2))
  exact List.Perm.eq_of_pairwise
    (fun a b _ _ hab hba => absurd (Nat.lt_trans hab hba) (Nat.lt_irrefl _))
    hstrict hhist hsort

/-- Deleting what stands behind the first `n` leaves the first `n`, when no
    two rows have the same key. -/
theorem filter_notMem_drop {κ : Type} [DecidableEq κ] (key : Row → κ)
    {rows : List Row} (hkeys : (rows.map key).Nodup) (n : Nat) :
    rows.filter (fun r => decide (key r ∉ (rows.drop n).map key))
      = rows.take n := by
  generalize hback : rows.drop n = back
  have hsplit : rows = rows.take n ++ back := by
    rw [← hback, List.take_append_drop]
  have hapart : ∀ r ∈ rows.take n, key r ∉ back.map key := by
    intro r hr hmem
    rw [hsplit, List.map_append] at hkeys
    exact (List.nodup_append.mp hkeys).2.2 _ (List.mem_map_of_mem hr) _ hmem rfl
  conv_lhs => rw [hsplit]
  rw [List.filter_append, List.filter_eq_self.mpr, List.filter_eq_nil_iff.mpr,
    List.append_nil]
  · intro r hr
    rw [decide_eq_true_eq, not_not]
    exact List.mem_map_of_mem hr
  · exact fun r hr => decide_eq_true (hapart r hr)

/-! ## The table and its operations -/

/-- `TokenHistoryEntry`. -/
structure TokenHistoryEntry where
  id : String
  user : String
  userType : String
  ns : String
  generatedAt : Time
deriving DecidableEq

/-- Does the database take the texts of a row?  Columns have lengths, and no
    text may have a NUL. -/
def TokenHistoryEntry.fits (row : TokenHistoryEntry) : Bool :=
  decide (row.id.length ≤ 36 ∧ row.user.length ≤ 253 ∧
    row.userType.length ≤ 32 ∧ row.ns.length ≤ 63) &&
  [row.id, row.user, row.userType, row.ns].all
    (fun text => decide (Char.ofNat 0 ∉ text.toList))

/-- The dict of an entry (`to_dict`). -/
structure EntryDict where
  id : String
  user : String
  userType : String
  ns : String
  generatedAt : String
deriving DecidableEq

/-- `TokenHistoryEntry.to_dict`. -/
def TokenHistoryEntry.toDict (row : TokenHistoryEntry) : EntryDict :=
  ⟨row.id, row.user, row.userType, row.ns,
    String.ofList (isoformat (utc row.generatedAt))⟩

/-- The order of the two queries. -/
abbrev HistoryOrder := LatestFirst TokenHistoryEntry.generatedAt

/-- The flush of an added row: the texts must fit, and the id be new. -/
def flush (row : TokenHistoryEntry) (rows : List TokenHistoryEntry) :
    Except Exn (List TokenHistoryEntry) :=
  if row.fits = false then .error .dataError
  else if row.id ∈ rows.map TokenHistoryEntry.id then .error .integrityError
  else .ok (rows ++ [row])

/-- `record_generation`, with the row it adds; the id and the time are drawn
    in the call. -/
def recordGeneration (order : HistoryOrder) (row : TokenHistoryEntry)
    (rows : List TokenHistoryEntry) :
    Except Exn (List TokenHistoryEntry) := do
  -- the query flushes the pending row first
  let rows ← flush row rows
  let ids := ((order.sort rows).map TokenHistoryEntry.id).drop 500
  if ids = [] then pure rows
  else pure (rows.filter (fun r => decide (r.id ∉ ids)))

/-- `list_history`. -/
def listHistory (order : HistoryOrder) (rows : List TokenHistoryEntry) :
    List EntryDict :=
  (order.sort rows).map TokenHistoryEntry.toDict

/-- `delete_history_entry`. -/
def deleteHistoryEntry (entryId : String) (rows : List TokenHistoryEntry) :
    List TokenHistoryEntry :=
  rows.filter (fun r => decide (r.id ≠ entryId))

/-- A call of one of the operations that change the table. -/
inductive HistoryCall where
  | recordGeneration (row : TokenHistoryEntry)
  | deleteHistoryEntry (entryId : String)
  | clearHistory
deriving DecidableEq

/-- How a call ends, and the table it commits. -/
def serve (order : HistoryOrder) : HistoryCall →
    List TokenHistoryEntry → Except Exn (List TokenHistoryEntry)
  | .recordGeneration row, rows => recordGeneration order row rows
  | .deleteHistoryEntry entryId, rows => .ok (deleteHistoryEntry entryId rows)
  | .clearHistory, _ => .ok []

/-- The table after a call; one that raises commits nothing. -/
def step (order : HistoryOrder) (call : HistoryCall)
    (rows : List TokenHistoryEntry) : List TokenHistoryEntry :=
  match serve order call rows with
  | .ok rows' => rows'
  | .error _ => rows

/-- The call, if it returns. -/
def returned (order : HistoryOrder) (call : HistoryCall)
    (rows : List TokenHistoryEntry) : List HistoryCall :=
  match serve order call rows with
  | .ok _ => [call]
  | .error _ => []

/-! ## The reference -/

/-- What a call means for the list of entries, newest first. -/
def refStep (hist : List TokenHistoryEntry) :
    HistoryCall → List TokenHistoryEntry
  | .recordGeneration row => (row :: hist).take 500
  | .deleteHistoryEntry entryId =>
      hist.filter (fun r => decide (r.id ≠ entryId))
  | .clearHistory => []

/-- The list that a sequence of calls leaves. -/
def reference (calls : List HistoryCall) : List TokenHistoryEntry :=
  calls.foldl refStep []

/-- The generation time of a call, if it has one. -/
def HistoryCall.time? : HistoryCall → Option Time
  | .recordGeneration row => some row.generatedAt
  | .deleteHistoryEntry _ => none
  | .clearHistory => none

/-- The generation times increase strictly from call to call. -/
def Increasing (calls : List HistoryCall) : Prop :=
  (calls.filterMap HistoryCall.time?).Pairwise
    (fun a b => a.instant < b.instant)

/-! ## The table mirrors the reference -/

variable {order : HistoryOrder} {hist rows : List TokenHistoryEntry}
  {row : TokenHistoryEntry}

/-- The table holds the entries of the reference list, which is in order, not
    too long, and free of repeated ids. -/
structure Mirrors (hist rows : List TokenHistoryEntry) : Prop where
  perm : rows.Perm hist
  descending : Descending TokenHistoryEntry.generatedAt hist
  atMost : hist.length ≤ 500
  ids : (hist.map TokenHistoryEntry.id).Nodup

/-- The empty table mirrors the empty list. -/
theorem mirrors_nil : Mirrors [] [] :=
  ⟨.nil, .nil, Nat.zero_le _, .nil⟩

/-- `list_history` shows the reference list. -/
theorem Mirrors.listHistory_eq (h : Mirrors hist rows) :
    listHistory order rows = hist.map TokenHistoryEntry.toDict := by
  rw [listHistory, sort_eq_of_descending order h.perm h.descending]

/-- A list without some of its entries. -/
theorem Mirrors.filter (h : Mirrors hist rows)
    (p : TokenHistoryEntry → Bool) :
    Mirrors (hist.filter p) (rows.filter p) where
  perm := h.perm.filter p
  descending := h.descending.filter p
  atMost := Nat.le_trans (List.length_filter_le p hist) h.atMost
  ids := h.ids.sublist (List.filter_sublist.map _)

/-- The rows of the query are the entries behind the newest 500, and deleting
    them is taking the newest 500. -/
theorem Mirrors.cut {hist rows : List TokenHistoryEntry}
    (hperm : rows.Perm hist)
    (hdesc : Descending TokenHistoryEntry.generatedAt hist)
    (hids : (hist.map TokenHistoryEntry.id).Nodup) :
    Mirrors (hist.take 500) (rows.filter (fun r => decide
      (r.id ∉ ((order.sort rows).map TokenHistoryEntry.id).drop 500))) where
  perm := by
    rw [sort_eq_of_descending order hperm hdesc, ← List.map_drop]
    rw [← filter_notMem_drop TokenHistoryEntry.id hids 500]
    exact hperm.filter _
  descending := hdesc.sublist (List.take_sublist 500 hist)
  atMost := List.length_take_le 500 hist
  ids := hids.sublist ((List.take_sublist 500 hist).map _)

/-- Without rows behind the newest 500 the query finds nothing, and nothing
    is deleted. -/
theorem recordGeneration_eq (order : HistoryOrder) (row : TokenHistoryEntry)
    (rows : List TokenHistoryEntry) :
    recordGeneration order row rows = (flush row rows).map (fun rows =>
      rows.filter (fun r => decide
        (r.id ∉ ((order.sort rows).map TokenHistoryEntry.id).drop 500))) := by
  rw [recordGeneration]
  cases flush row rows with
  | error e => rfl
  | ok rows =>
      show (if _ then _ else _) = Except.ok _
      split
      · rename_i hnone
        simp only [hnone]
        rw [List.filter_eq_self.mpr (fun r _ => by simp)]
        rfl
      · rfl

/-- A row is flushed when its texts fit and its id is new. -/
theorem flush_eq_ok_iff {rows' : List TokenHistoryEntry} :
    flush row rows = .ok rows' ↔
      row.fits = true ∧ row.id ∉ rows.map TokenHistoryEntry.id
        ∧ rows' = rows ++ [row] := by
  rw [flush]
  by_cases hfits : row.fits = false
  · rw [if_pos hfits]
    exact ⟨nofun, fun h => absurd (hfits.symm.trans h.1) nofun⟩
  · rw [if_neg hfits]
    have hfits : row.fits = true := Bool.not_eq_false _ ▸ hfits
    by_cases hid : row.id ∈ rows.map TokenHistoryEntry.id
    · rw [if_pos hid]
      exact ⟨nofun, fun h => absurd hid h.2.1⟩
    · rw [if_neg hid]
      exact ⟨fun h => ⟨hfits, hid, (Except.ok.inj h).symm⟩,
        fun h => congrArg Except.ok h.2.2.symm⟩

/-- A recorded row goes in front, and the newest 500 stay. -/
theorem Mirrors.record (h : Mirrors hist rows)
    (hnewest : ∀ e ∈ hist, e.generatedAt.instant < row.generatedAt.instant)
    {rows' : List TokenHistoryEntry}
    (hrecord : recordGeneration order row rows = .ok rows') :
    Mirrors ((row :: hist).take 500) rows' := by
  rw [recordGeneration_eq] at hrecord
  cases hflush : flush row rows with
  | error e =>
      rw [hflush] at hrecord
      exact nomatch hrecord
  | ok flushed =>
      rw [hflush] at hrecord
      obtain ⟨-, hid, rfl⟩ := flush_eq_ok_iff.mp hflush
      rw [← Except.ok.inj hrecord]
      have hperm : (rows ++ [row]).Perm (row :: hist) :=
        List.perm_append_singleton row rows |>.trans (h.perm.cons row)
      have hnew : row.id ∉ hist.map TokenHistoryEntry.id :=
        fun hmem => hid ((h.perm.map _).mem_iff.mpr hmem)
      exact Mirrors.cut hperm
        (List.pairwise_cons.mpr ⟨hnewest, h.descending⟩)
        (List.nodup_cons.mpr ⟨hnew, h.ids⟩)

/-- Every entry is older than every generation time that is still to come. -/
def OlderThan (hist : List TokenHistoryEntry) (calls : List HistoryCall) :
    Prop :=
  ∀ e ∈ hist, ∀ t ∈ calls.filterMap HistoryCall.time?,
    e.generatedAt.instant < t.instant

/-- One call: the table mirrors what the call means, if it returned. -/
theorem Mirrors.step (h : Mirrors hist rows) {call : HistoryCall}
    (hnewest : ∀ e ∈ hist, ∀ t, call.time? = some t →
      e.generatedAt.instant < t.instant) :
    Mirrors ((returned order call rows).foldl refStep hist)
      (step order call rows) := by
  cases call with
  | recordGeneration row =>
      rw [returned, CvTokenHistory.step, serve]
      cases hrecord : recordGeneration order row rows with
      | error e => exact h
      | ok rows' => exact h.record (fun e he => hnewest e he _ rfl) hrecord
  | deleteHistoryEntry entryId => exact h.filter _
  | clearHistory => exact mirrors_nil

/-- What a call leaves of the list is older than what is still to come. -/
theorem olderThan_step {call : HistoryCall} {calls : List HistoryCall}
    (hinc : Increasing (call :: calls)) (hold : OlderThan hist calls) :
    OlderThan ((returned order call rows).foldl refStep hist) calls := by
  have hsub : ∀ e ∈ (returned order call rows).foldl refStep hist,
      e ∈ hist ∨ call.time? = some e.generatedAt := by
    intro e he
    rw [returned] at he
    cases hserve : serve order call rows with
    | error err =>
        simp only [hserve] at he
        exact Or.inl he
    | ok rows' =>
        simp only [hserve] at he
        cases call with
        | recordGeneration row =>
            rcases List.mem_cons.mp (List.mem_of_mem_take he) with rfl | hmem
            · exact Or.inr rfl
            · exact Or.inl hmem
        | deleteHistoryEntry entryId => exact Or.inl (List.mem_of_mem_filter he)
        | clearHistory => exact nomatch he
  intro e he t ht
  rcases hsub e he with hmem | htime
  · exact hold e hmem t ht
  · rw [Increasing, List.filterMap_cons_some htime] at hinc
    exact (List.pairwise_cons.mp hinc).1 t ht

/-- A run of calls: the table mirrors what the calls that returned mean. -/
theorem Mirrors.run {calls : List HistoryCall} (hinc : Increasing calls) :
    ∀ {hist rows : List TokenHistoryEntry}, Mirrors hist rows →
      OlderThan hist calls →
      Mirrors
        ((outputs (CvTokenHistory.step order) (returned order) calls rows).foldl
          refStep hist)
        (after (CvTokenHistory.step order) calls rows) := by
  induction calls with
  | nil => exact fun h _ => h
  | cons call calls ih =>
      intro hist rows h hold
      have hnewest : ∀ e ∈ hist, ∀ t, call.time? = some t →
          e.generatedAt.instant < t.instant := by
        intro e he t ht
        exact hold e he t (List.mem_filterMap.mpr
          ⟨call, List.mem_cons_self .., ht⟩)
      have hrest : Increasing calls :=
        List.Pairwise.sublist ((List.sublist_cons_self _ _).filterMap _) hinc
      have hlater : OlderThan hist calls := fun e he t ht =>
        hold e he t (((List.sublist_cons_self _ _).filterMap _).mem ht)
      rw [outputs, List.foldl_append, after_cons]
      exact ih hrest (h.step hnewest) (olderThan_step hinc hlater)

/-- Recording returns exactly when the texts fit and the id is new; the other
    two calls always return. -/
theorem serve_returns_iff (order : HistoryOrder) (call : HistoryCall)
    (rows : List TokenHistoryEntry) :
    (∃ rows', serve order call rows = .ok rows') ↔
      ∀ row, call = .recordGeneration row →
        row.fits = true ∧ row.id ∉ rows.map TokenHistoryEntry.id := by
  cases call with
  | recordGeneration row =>
      rw [serve, recordGeneration_eq]
      constructor
      · rintro ⟨rows', hrecord⟩ r hr
        cases hflush : flush row rows with
        | error e =>
            rw [hflush] at hrecord
            exact nomatch hrecord
        | ok flushed =>
            obtain ⟨hfits, hid, -⟩ := flush_eq_ok_iff.mp hflush
            cases hr
            exact ⟨hfits, hid⟩
      · intro h
        obtain ⟨hfits, hid⟩ := h row rfl
        rw [flush_eq_ok_iff.mpr ⟨hfits, hid, rfl⟩]
        exact ⟨_, rfl⟩
  | deleteHistoryEntry entryId =>
      exact ⟨fun _ => nofun, fun _ => ⟨_, rfl⟩⟩
  | clearHistory => exact ⟨fun _ => nofun, fun _ => ⟨_, rfl⟩⟩

/-- After calls with increasing times, `list_history` shows the list that the
    calls that returned leave by the reference operations; it is never longer
    than 500, and starts with the entry just recorded. -/
theorem list_history_is_the_reference (order : HistoryOrder)
    (calls : List HistoryCall) (hinc : Increasing calls) :
    listHistory order (after (step order) calls [])
        = (reference (outputs (step order) (returned order) calls [])).map
            TokenHistoryEntry.toDict
    ∧ (listHistory order (after (step order) calls [])).length ≤ 500
    ∧ ∀ pre row, calls = pre ++ [.recordGeneration row] →
        row.fits = true →
        row.id ∉ (after (step order) pre []).map TokenHistoryEntry.id →
        (listHistory order (after (step order) calls [])).head?
          = some row.toDict := by
  have hmirrors : Mirrors
      (reference (outputs (step order) (returned order) calls []))
      (after (step order) calls []) :=
    Mirrors.run hinc mirrors_nil (fun e he => nomatch he)
  rw [hmirrors.listHistory_eq]
  refine ⟨rfl, by rw [List.length_map]; exact hmirrors.atMost, ?_⟩
  intro pre row hcalls hfits hid
  -- the last call returned, so the reference ends with putting its entry first
  obtain ⟨rows', hserve⟩ := (serve_returns_iff order (.recordGeneration row)
    (after (step order) pre [])).mpr
      (fun r hr => by cases hr; exact ⟨hfits, hid⟩)
  rw [hcalls, outputs_append, reference, List.foldl_append, outputs, outputs,
    returned, hserve]
  rfl

/-- A second after the epoch. -/
def aSecondLater : Time :=
  { Time.epoch with second := 1, inRange := by decide }

/-- Clearing forgets the first entry, and the second one stands first. -/
theorem recorded_after_clear :
    (listHistory (.stable _) (after (step (.stable _))
      [.recordGeneration ⟨"1", "ann", "certificate", "default", Time.epoch⟩,
        .clearHistory,
        .recordGeneration ⟨"2", "bob", "certificate", "ops", aSecondLater⟩]
      [])).head?
      = some (TokenHistoryEntry.mk "2" "bob" "certificate" "ops"
          aSecondLater).toDict := by
  refine (list_history_is_the_reference (.stable _)
    [.recordGeneration ⟨"1", "ann", "certificate", "default", Time.epoch⟩,
      .clearHistory,
      .recordGeneration ⟨"2", "bob", "certificate", "ops", aSecondLater⟩]
    ?_).2.2 [_, _] _ rfl (by decide) (List.not_mem_nil)
  refine List.pairwise_pair.mpr ?_
  decide

end CvTokenHistory
