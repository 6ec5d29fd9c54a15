import Mathlib.Data.List.Perm.Subperm
import ClusterVision.OffsetPagingProofs
import ClusterVision.TokenHistoryProofs
import ClusterVision.RedactionProofs
import ClusterVision.CsvExport

/-! # The page of the audit log

    The page asks for 25 entries by offset, turns to the next ones and back
    with two buttons, and takes over the text filters 300 ms after they were
    typed, with the first page (`AuditLogPage.tsx`).  Requests are audited
    while somebody reads, so a page that was asked for later is cut from a
    longer log.  This file models the page and its events, and says that a
    reader who waits for each page sees all that was there at the start. -/

namespace CvAuditPage

open CvRun CvOffset CvIso CvBackend CvExport CvTokenHistory
open CvAudit (AuditLogEntry AuditLogEntryRead AuditLogPage NewestFirst Filters
  PageQuery listAuditLog readEntry listEntries)

/-! ## The page -/

/-- `PAGE_SIZE`. -/
def pageSize : Nat := 25

/-- The state of the component, does a timer run, `data` as the query gives it,
    and is it the answer to the query that the page asks now.  Until that has
    come, `data` is what the query before it gave. -/
structure AuditView where
  actor : String
  pathContains : String
  debouncedActor : String
  debouncedPathContains : String
  offset : Nat
  timer : Bool
  data : Option AuditLogPage
  current : Bool

/-- The page after its first render, which starts the timer. -/
def mounted : AuditView := ⟨"", "", "", "", 0, true, none, false⟩

/-- What `useAuditLog` is called with. -/
def AuditView.query (v : AuditView) : PageQuery where
  limit := pageSize
  offset := v.offset
  actor := orUndefined v.debouncedActor
  pathContains := orUndefined v.debouncedPathContains
  limitPos := by decide
  limitLe := by decide

/-- `total`. -/
def AuditView.total (v : AuditView) : Nat :=
  (v.data.map AuditLogPage.total).getD 0

/-- Can the button `Next` be pressed? -/
def AuditView.hasNext (v : AuditView) : Bool :=
  decide (0 < v.total) && !decide (v.total ≤ v.offset + pageSize)

/-- Can the button `Prev` be pressed? -/
def AuditView.hasPrev (v : AuditView) : Bool :=
  decide (0 < v.total) && !decide (v.offset = 0)

/-- The debounced filters and the offset are set: when they are others than
    before, another query is asked. -/
def AuditView.ask (v : AuditView) (actor pathContains : String)
    (offset : Nat) : AuditView :=
  { v with
    debouncedActor := actor
    debouncedPathContains := pathContains
    offset := offset
    current := v.current && decide (actor = v.debouncedActor)
      && decide (pathContains = v.debouncedPathContains)
      && decide (offset = v.offset) }

/-- `setOffset`. -/
def AuditView.turn (v : AuditView) (offset : Nat) : AuditView :=
  v.ask v.debouncedActor v.debouncedPathContains offset

/-- What can happen: typing, the timer, the two buttons, and that the query is
    answered from a state of the log, by the server or by what the client still
    holds. -/
inductive ViewEvent where
  | typeActor (text : String)
  | typePath (text : String)
  | debounced
  | next
  | prev
  | answered (log : List AuditLogEntry)

/-- The page, with the log that its last answer was made from, and the entries
    that it has shown. -/
structure Reading where
  view : AuditView
  log : List AuditLogEntry
  shown : List AuditLogEntryRead

/-- One event. -/
def viewStep (order : NewestFirst) : ViewEvent → Reading → Reading
  | .typeActor text, s =>
      { s with view := { s.view with actor := text, timer := true } }
  | .typePath text, s =>
      { s with view := { s.view with pathContains := text, timer := true } }
  | .debounced, s =>
      if s.view.timer then
        { s with view :=
            { (s.view.ask s.view.actor s.view.pathContains 0) with
              timer := false } }
      else s
  | .next, s =>
      if s.view.hasNext then
        { s with view := s.view.turn (s.view.offset + pageSize) }
      else s
  | .prev, s =>
      if s.view.hasPrev then
        { s with view := s.view.turn (s.view.offset - pageSize) }
      else s
  | .answered log, s =>
      match listAuditLog order s.view.query log with
      | .ok page =>
          { view := { s.view with data := some page, current := true }
            log := log
            shown := s.shown ++ page.items }
      | .error _ =>
          -- an answer to this query that is there already is kept
          if s.view.current then s
          else { s with view := { s.view with data := none } }

/-! ## The order of the entries -/

/-- No two entries have the same time. -/
def Distinct (log : List AuditLogEntry) : Prop :=
  (log.map (fun e => e.timestamp.instant)).Nodup

/-- The entries that a query admits, newest first. -/
def admitted (order : NewestFirst) (q : PageQuery) (log : List AuditLogEntry) :
    List AuditLogEntry :=
  order.sort (log.filter q.admits)

/-- Entries with different times are sorted strictly. -/
theorem sort_descending (order : NewestFirst) {log : List AuditLogEntry}
    (hlog : Distinct log) :
    Descending AuditLogEntry.timestamp (order.sort log) := by
  have hdiffer := List.pairwise_map.mp
    (((order.perm log).map
      (fun e => (AuditLogEntry.timestamp e).instant)).nodup_iff.mpr hlog)
  exact ((order.sorted log).and hdiffer).imp
    (fun h => Nat.lt_of_le_of_ne h.1 (Ne.symm h.2))

/-- In a log that has grown, the entries that were there keep their order. -/
theorem admitted_grow (order : NewestFirst) (q : PageQuery)
    {log log' : List AuditLogEntry} (hgrow : log.Sublist log')
    (hlog : Distinct log') :
    (admitted order q log).Sublist (admitted order q log') := by
  have hfilter : (log.filter q.admits).Sublist (log'.filter q.admits) :=
    hgrow.filter q.admits
  have hadmits : Distinct (log'.filter q.admits) :=
    hlog.sublist (List.filter_sublist.map _)
  have hsub : (admitted order q log).Subperm (admitted order q log') :=
    (order.perm _).subperm.trans
      (hfilter.subperm.trans (order.perm _).symm.subperm)
  obtain ⟨part, hperm, hpart⟩ := hsub
  have heq : admitted order q log = part := by
    refine List.Perm.eq_of_pairwise
      (fun a b _ _ hab hba => absurd (Nat.lt_trans hab hba) (Nat.lt_irrefl _))
      (sort_descending order (hadmits.sublist (hfilter.map _)))
      ((sort_descending order hadmits).sublist hpart) hperm.symm
  rw [heq]
  exact hpart

/-! ## Reading from the first page to the last -/

/-- The reader presses `Next` only when the page that he asked for is there,
    does not let the timer change the filters, and the log only grows, by
    entries with times of their own. -/
def Steady (s : Reading) : ViewEvent → Prop
  | .next => s.view.current = true
  | .debounced => s.view.actor = s.view.debouncedActor
      ∧ s.view.pathContains = s.view.debouncedPathContains
  | .answered log => s.log.Sublist log ∧ Distinct log
  | _ => True

/-- Has an entry been shown? -/
def Reading.Shows (s : Reading) (e : AuditLogEntry) : Prop :=
  ∃ r ∈ s.shown, readEntry e.toDict = .ok r

/-- In the middle of a walk: the first `n` pages have been shown, each from
    the log of its time, and the reader is on one of them, or has asked for the
    next one.  `wanted` are the entries that were admitted at the start. -/
structure Walk (order : NewestFirst) (q : PageQuery)
    (wanted : List AuditLogEntry) (n : Nat) (s : Reading) : Prop where
  filters : s.view.query.admits = q.admits
  onPage : ∃ j, s.view.offset = j * pageSize ∧ j ≤ n
    ∧ (s.view.current = true → j < n)
  answer : s.view.current = true →
    s.view.total = (admitted order q s.log).length
  reached : ∀ e ∈ wanted,
    Reached pageSize n (admitted order q s.log) s.Shows e

variable {order : NewestFirst} {q : PageQuery} {wanted : List AuditLogEntry}
  {n : Nat} {s : Reading}

/-- Only the debounced filters decide what a query admits. -/
theorem admits_turn (v : AuditView) (offset : Nat) :
    (v.turn offset).query.admits = v.query.admits := rfl

/-- The page that is turned to is there only when it is the same one. -/
theorem current_turn {v : AuditView} {offset : Nat}
    (h : (v.turn offset).current = true) :
    v.current = true ∧ offset = v.offset := by
  rw [AuditView.turn, AuditView.ask, Bool.and_eq_true, Bool.and_eq_true,
    Bool.and_eq_true] at h
  exact ⟨h.1.1.1, of_decide_eq_true h.2⟩

/-- Turning to a page that has been shown, or to the next one. -/
theorem Walk.turned (h : Walk order q wanted n s) {j : Nat} (hj : j ≤ n) :
    Walk order q wanted n { s with view := s.view.turn (j * pageSize) } where
  filters := (admits_turn s.view _).trans h.filters
  onPage := by
    refine ⟨j, rfl, hj, ?_⟩
    intro hcur
    obtain ⟨hcur, hoffset⟩ := current_turn hcur
    obtain ⟨i, hi, -, hlt⟩ := h.onPage
    have hij : j * pageSize = i * pageSize := hoffset.trans hi
    rw [Nat.eq_of_mul_eq_mul_right (by decide) hij]
    exact hlt hcur
  answer := fun hcur => h.answer (current_turn hcur).1
  reached := h.reached

/-- Each item of the first list has its partner in the second. -/
theorem exists_partner {α β : Type} {R : α → β → Prop} {xs : List α}
    {ys : List β} (h : List.Forall₂ R xs ys) : ∀ x ∈ xs, ∃ y ∈ ys, R x y := by
  induction h with
  | nil =>
      intro x hx
      cases hx
  | cons hxy _ ih =>
      rw [List.forall_mem_cons]
      refine ⟨⟨_, List.mem_cons_self, hxy⟩, ?_⟩
      intro x hx
      obtain ⟨y, hy, hR⟩ := ih x hx
      exact ⟨y, List.mem_cons_of_mem _ hy, hR⟩

/-- What an answer holds. -/
theorem listAuditLog_ok {log : List AuditLogEntry} {page : AuditLogPage}
    (h : listAuditLog order q log = .ok page) :
    page.total = (admitted order q log).length ∧
      ∀ e ∈ CvAudit.pageEntries order q log,
        ∃ r ∈ page.items, readEntry e.toDict = .ok r := by
  have hmap : (((CvAudit.pageEntries order q log).map
      AuditLogEntry.toDict).mapM readEntry).map
        (fun items => AuditLogPage.mk items (listEntries order q log).2)
      = .ok page := h
  obtain ⟨items, hitems, hpage⟩ := (CvAudit.ok_map_iff
    (p := fun p => p = page)).mp ⟨page, hmap, rfl⟩
  rw [← hpage]
  refine ⟨(order.perm _).length_eq.symm, ?_⟩
  intro e he
  rw [CvAudit.mapM_ok_iff, List.forall₂_map_left_iff] at hitems
  exact exists_partner hitems e he

/-- What has been shown stays shown. -/
theorem shows_append {view : AuditView} {log : List AuditLogEntry}
    {items : List AuditLogEntryRead} {e : AuditLogEntry} (h : s.Shows e) :
    Reading.Shows ⟨view, log, s.shown ++ items⟩ e := by
  obtain ⟨r, hr, hread⟩ := h
  exact ⟨r, List.mem_append_left items hr, hread⟩

/-- A log whose entries fit the model is always answered. -/
theorem answered_of_fits (order : NewestFirst) {log : List AuditLogEntry}
    (hfits : ∀ e ∈ log, CvAudit.Fits e) (s : Reading) :
    ∃ items, viewStep order (.answered log) s =
      { view := { s.view with
          data := some ⟨items, (log.filter s.view.query.admits).length⟩
          current := true }
        log := log
        shown := s.shown ++ items } := by
  obtain ⟨page, hpage⟩ := (CvAudit.listAuditLog_iff order s.view.query log).mpr
    (fun e he => hfits e (CvAudit.mem_of_mem_page he))
  have htotal := (listAuditLog_ok hpage).1
  rw [admitted, (order.perm _).length_eq] at htotal
  refine ⟨page.items, ?_⟩
  rw [viewStep, hpage, ← htotal]

/-- The answer to the query on screen: the page of the longer log is shown, a
    new one or one that has been shown before. -/
theorem Walk.answered (h : Walk order q wanted n s)
    {log : List AuditLogEntry} {page : AuditLogPage}
    (hgrow : s.log.Sublist log) (hlog : Distinct log)
    (hpage : listAuditLog order s.view.query log = .ok page) :
    ∃ n', Walk order q wanted n'
      { view := { s.view with data := some page, current := true }
        log := log
        shown := s.shown ++ page.items } := by
  obtain ⟨j, hoffset, hj, -⟩ := h.onPage
  obtain ⟨htotal, hitems⟩ := listAuditLog_ok hpage
  have hfilter : admitted order s.view.query log = admitted order q log := by
    rw [admitted, h.filters]
    rfl
  rw [hfilter] at htotal
  have hgrown : ∀ e ∈ wanted,
      Reached pageSize n (admitted order q log) s.Shows e :=
    fun e he => (h.reached e he).grow (admitted_grow order q hgrow hlog)
  rcases Nat.lt_or_eq_of_le hj with hlt | rfl
  · refine ⟨n, h.filters, ⟨j, hoffset, hj, fun _ => hlt⟩, fun _ => htotal, ?_⟩
    exact fun e he => (hgrown e he).mono (fun _ => shows_append)
  · refine ⟨j + 1, h.filters,
      ⟨j, hoffset, Nat.le_succ j, fun _ => Nat.lt_succ_self j⟩,
      fun _ => htotal, ?_⟩
    intro e he
    refine (hgrown e he).page ?_ (fun _ => shows_append)
    intro e he
    rw [← hfilter, CvOffset.page, ← hoffset] at he
    obtain ⟨r, hr, hread⟩ := hitems e he
    exact ⟨r, List.mem_append_right _ hr, hread⟩

/-- One event of a steady reader. -/
theorem walk_step (h : Walk order q wanted n s) {e : ViewEvent}
    (hsteady : Steady s e) :
    ∃ n', Walk order q wanted n' (viewStep order e s) := by
  cases e with
  | typeActor text =>
      exact ⟨n, h.filters, h.onPage, h.answer, h.reached⟩
  | typePath text =>
      exact ⟨n, h.filters, h.onPage, h.answer, h.reached⟩
  | debounced =>
      rw [viewStep]
      by_cases htimer : s.view.timer = true
      · obtain ⟨hactor, hpath⟩ := hsteady
        rw [if_pos htimer, hactor, hpath]
        have hfirst := h.turned (Nat.zero_le n)
        rw [Nat.zero_mul] at hfirst
        exact ⟨n, hfirst.filters, hfirst.onPage, hfirst.answer, hfirst.reached⟩
      · rw [if_neg htimer]
        exact ⟨n, h⟩
  | next =>
      rw [viewStep]
      by_cases hnext : s.view.hasNext = true
      · obtain ⟨j, hoffset, -, hlt⟩ := h.onPage
        rw [if_pos hnext, hoffset, ← Nat.succ_mul]
        exact ⟨n, h.turned (hlt hsteady)⟩
      · rw [if_neg hnext]
        exact ⟨n, h⟩
  | prev =>
      rw [viewStep]
      by_cases hprev : s.view.hasPrev = true
      · obtain ⟨j, hoffset, hj, -⟩ := h.onPage
        have hback : s.view.offset - pageSize = (j - 1) * pageSize := by
          rw [hoffset, Nat.sub_mul, Nat.one_mul]
        rw [if_pos hprev, hback]
        exact ⟨n, h.turned (Nat.le_trans (Nat.sub_le j 1) hj)⟩
      · rw [if_neg hprev]
        exact ⟨n, h⟩
  | answered log =>
      rw [viewStep]
      cases hpage : listAuditLog order s.view.query log with
      | ok page => exact h.answered hsteady.1 hsteady.2 hpage
      | error e =>
          by_cases hcur : s.view.current = true
          · rw [if_pos hcur]
            exact ⟨n, h⟩
          · rw [if_neg hcur]
            exact ⟨n, h.filters, h.onPage, fun hc => absurd hc hcur, h.reached⟩

/-- A whole run of a steady reader. -/
theorem walk_after (h : Walk order q wanted n s) {events : List ViewEvent}
    (hsteady : Along (viewStep order) Steady events s) :
    ∃ n', Walk order q wanted n' (after (viewStep order) events s) := by
  induction events generalizing s n with
  | nil => exact ⟨n, h⟩
  | cons e events ih =>
      obtain ⟨n', h'⟩ := walk_step h hsteady.1
      exact ih h' hsteady.2

/-- The entry of the minute `i`. -/
def minuteEntry (i : Fin 60) : AuditLogEntry where
  id := toString i.val
  timestamp := { Time.epoch with
    minute := i.val
    inRange := { Time.epoch.inRange with minute := i.isLt } }
  actor := some "ada"
  actorRole := some "admin"
  method := "POST"
  path := "/api/v1/users"
  statusCode := 201
  payload := .null

/-- The log of the first minutes. -/
def minutes (n : Nat) : List AuditLogEntry :=
  ((List.finRange 60).take n).map minuteEntry

theorem instant_minuteEntry (i : Fin 60) :
    (minuteEntry i).timestamp.instant
      = toOrdinal 1970 1 1 * dayMicros + i.val * 60000000 := by
  have hday : (minuteEntry i).timestamp.dayTime
      = ((0 * 60 + i.val) * 60 + 0) * 1000000 + 0 := rfl
  rw [Time.instant, hday, Nat.zero_mul, Nat.zero_add, Nat.add_zero,
    Nat.add_zero, Nat.mul_assoc]
  rfl

theorem distinct_minutes (n : Nat) : Distinct (minutes n) := by
  rw [Distinct, minutes, List.map_map]
  refine List.Nodup.map ?_ ((List.nodup_finRange 60).sublist
    (List.take_sublist n _))
  intro i k h
  rw [Function.comp_apply, Function.comp_apply, instant_minuteEntry,
    instant_minuteEntry] at h
  exact Fin.ext (Nat.eq_of_mul_eq_mul_right (by decide)
    (Nat.add_left_cancel h))

theorem fits_minutes (n : Nat) : ∀ e ∈ minutes n, CvAudit.Fits e := by
  intro e he
  obtain ⟨i, -, rfl⟩ := List.mem_map.mp he
  rfl

theorem total_minutes (q : PageQuery) (hactor : q.actor = none)
    (hpath : q.pathContains = none) (n : Nat) :
    ((minutes n).filter q.admits).length = min n 60 := by
  rw [List.filter_eq_self.mpr, minutes, List.length_map, List.length_take,
    List.length_finRange]
  intro e _
  rw [PageQuery.admits, Filters.admits, hactor, hpath]
  rfl

end CvAuditPage
