import ClusterVision.CsvExport

/-! # The days of an export

    A dialog sends a day, and the route reads it as the midnight with which
    the day begins.  As a lower bound this is the day; as an upper bound it
    leaves out the rows of the last day, except those of its first
    microsecond. -/

namespace CvExport

open CvProg CvTable CvIso CvKube CvBackend CvRbac CvHttp CvAudit

/-! ## Days and times -/

/-- The day of a time. -/
def dayOf (t : Time) : Day where
  year := t.year
  month := t.month
  day := t.day
  inRange :=
    { year := t.inRange.year
      month := t.inRange.month
      day := t.inRange.day
      hour := by decide
      minute := by decide
      second := by decide
      microsecond := by decide }

theorem instant_midnight (d : Day) :
    d.midnight.instant = d.ordinal * dayMicros := by
  have hzero : d.midnight.dayTime = 0 := by
    simp only [Time.dayTime, Day.midnight, Nat.zero_mul, Nat.add_zero]
  rw [Time.instant, hzero, Nat.add_zero]
  rfl

theorem instant_eq (t : Time) :
    t.instant = (dayOf t).ordinal * dayMicros + t.dayTime := rfl

/-- A day ends before the next one. -/
theorem dayTime_lt (t : Time) : t.dayTime < dayMicros := by
  have hh := t.inRange.hour
  have hmi := t.inRange.minute
  have hs := t.inRange.second
  have hus := t.inRange.microsecond
  rw [Time.dayTime, dayMicros]
  omega

/-- The midnight of a day comes before the times of this day and of later
    ones. -/
theorem midnight_le_iff (d : Day) (t : Time) :
    d.midnight.instant ≤ t.instant ↔ d.ordinal ≤ (dayOf t).ordinal := by
  have hlt := dayTime_lt t
  rw [instant_midnight, instant_eq]
  constructor
  · intro h
    by_contra hnot
    have hnext : ((dayOf t).ordinal + 1) * dayMicros ≤ d.ordinal * dayMicros :=
      Nat.mul_le_mul_right _ (Nat.lt_of_not_le hnot)
    rw [Nat.succ_mul] at hnext
    omega
  · intro h
    exact Nat.le_trans (Nat.mul_le_mul_right _ h) (Nat.le_add_right _ _)

/-- It comes after the times of earlier days, and after no other time of its
    day than itself. -/
theorem le_midnight_iff {d : Day} {t : Time}
    (h : (dayOf t).ordinal ≤ d.ordinal) :
    t.instant ≤ d.midnight.instant
      ↔ ((dayOf t).ordinal = d.ordinal → t.dayTime = 0) := by
  have hlt := dayTime_lt t
  rw [instant_midnight, instant_eq]
  rcases Nat.lt_or_eq_of_le h with hbefore | hsame
  · have hnext : ((dayOf t).ordinal + 1) * dayMicros ≤ d.ordinal * dayMicros :=
      Nat.mul_le_mul_right _ hbefore
    rw [Nat.succ_mul] at hnext
    refine ⟨fun _ heq => absurd heq (Nat.ne_of_lt hbefore), fun _ => ?_⟩
    omega
  · rw [hsame]
    constructor
    · intro hle _
      omega
    · intro hzero
      rw [hzero rfl]
      exact Nat.le_of_eq (Nat.add_zero _)

theorem ordinal_le_of_le_midnight {d : Day} {t : Time}
    (h : t.instant ≤ d.midnight.instant) : (dayOf t).ordinal ≤ d.ordinal := by
  by_contra hnot
  have hnext : (d.ordinal + 1) * dayMicros ≤ (dayOf t).ordinal * dayMicros :=
    Nat.mul_le_mul_right _ (Nat.lt_of_not_le hnot)
  rw [instant_midnight, instant_eq] at h
  rw [Nat.succ_mul, dayMicros] at hnext
  rw [dayMicros] at h
  omega

/-! ## From the dialog to the bounds -/

/-- The midnight of a day, in UTC. -/
def dayStart (d : Day) : Aware := ⟨utc d.midnight, 0, rfl⟩

/-- A parser of query dates that reads a day as its midnight, without a time
    zone. -/
def ParsesDays (parse : String → Except Exn Datetime) : Prop :=
  ∀ d : Day, parse d.text = .ok ⟨d.midnight, none⟩

theorem text_ne_empty (d : Day) : d.text ≠ "" := by
  intro h
  have hlist := congrArg String.toList h
  rw [Day.text, String.toList_ofList, pad_four] at hlist
  exact nomatch hlist

/-- A blank date is no bound, and a day is its midnight in UTC. -/
theorem queryDate_sentDate {parse : String → Except Exn Datetime}
    (hparse : ParsesDays parse) (d : Option Day) :
    ∃ value, queryDate parse (sentDate d) = .ok value ∧
      asUtc value = d.map dayStart := by
  cases d with
  | none => exact ⟨none, rfl, rfl⟩
  | some d =>
      have hsent : sentDate (some d) = some d.text := if_neg (text_ne_empty d)
      refine ⟨some ⟨d.midnight, none⟩, ?_, rfl⟩
      rw [hsent, queryDate, hparse d]
      rfl

/-! ## The rows between two days -/

/-- Does a time lie between two days, both included?  A day that is not given
    is no bound. -/
def inDays (first last : Option Day) (t : Time) : Bool :=
  first.all (fun d => decide (d.ordinal ≤ (dayOf t).ordinal))
    && last.all (fun d => decide ((dayOf t).ordinal ≤ d.ordinal))

/-- A time that does not lie on the last day, or is its midnight. -/
def NotLate (last : Option Day) (t : Time) : Prop :=
  ∀ d, last = some d → (dayOf t).ordinal = d.ordinal → t.dayTime = 0

theorem notBefore_dayStart (first : Option Day) (t : Time) :
    notBefore (first.map dayStart) t
      = first.all (fun d => decide (d.ordinal ≤ (dayOf t).ordinal)) := by
  cases first with
  | none => rfl
  | some d =>
      have hinstant : (dayStart d).instant = (d.midnight.instant : Int) :=
        Int.sub_zero _
      rw [Option.map_some, notBefore, hinstant, Option.all_some,
        decide_eq_decide, Int.ofNat_le]
      exact midnight_le_iff d t

theorem notAfter_dayStart (last : Option Day) (t : Time) :
    notAfter (last.map dayStart) t = true
      ↔ last.all (fun d => decide ((dayOf t).ordinal ≤ d.ordinal)) = true ∧
        NotLate last t := by
  cases last with
  | none => exact ⟨fun _ => ⟨rfl, nofun⟩, fun _ => rfl⟩
  | some d =>
      have hinstant : (dayStart d).instant = (d.midnight.instant : Int) :=
        Int.sub_zero _
      rw [Option.map_some, notAfter, hinstant, Option.all_some,
        decide_eq_true_iff, decide_eq_true_iff, Int.ofNat_le]
      constructor
      · intro h
        have hday := ordinal_le_of_le_midnight h
        refine ⟨hday, ?_⟩
        rintro d' ⟨⟩
        exact (le_midnight_iff hday).mp h
      · rintro ⟨hday, hlate⟩
        exact (le_midnight_iff hday).mpr (hlate d rfl)

/-- Of two filters, one stricter than the other, the rows are the same when
    each row that the other takes passes it. -/
theorem map_filter_perm_iff {α β : Type} {f : α → β} {p q : α → Bool}
    (h : ∀ x, p x = true → q x = true) (xs : List α) :
    ((xs.filter p).map f).Perm ((xs.filter q).map f)
      ↔ ∀ x ∈ xs, q x = true → p x = true := by
  constructor
  · intro hperm x hx hq
    have hlength := hperm.length_eq
    rw [List.length_map, List.length_map] at hlength
    have hsub : (xs.filter p).Sublist (xs.filter q) := by
      have hpq : xs.filter p = (xs.filter q).filter p := by
        rw [List.filter_filter]
        refine List.filter_congr (fun y _ => ?_)
        rw [Bool.eq_iff_iff, Bool.and_eq_true]
        exact ⟨fun hp => ⟨hp, h y hp⟩, fun hp => hp.1⟩
      rw [hpq]
      exact List.filter_sublist
    have hmem : x ∈ xs.filter p := by
      rw [hsub.eq_of_length hlength]
      exact List.mem_filter.mpr ⟨hx, hq⟩
    exact (List.mem_filter.mp hmem).2
  · intro hall
    have hsame : xs.filter p = xs.filter q :=
      List.filter_congr (fun x hx =>
        Bool.eq_iff_iff.mpr ⟨h x, hall x hx⟩)
    rw [hsame]

section Rows

variable {Row Dict : Type} {time : Row → Time}

/-- The dicts of the rows between two days that meet the other filters. -/
def betweenDays (time : Row → Time) (toDict : Row → Dict)
    (first last : Option Day) (admits : Row → Bool) (rows : List Row) :
    List Dict :=
  (rows.filter (fun r => inDays first last (time r) && admits r)).map toDict

/-- None of the rows between two days that meet the other filters is from the
    last day, unless from its midnight. -/
def NoneLate (time : Row → Time) (first last : Option Day)
    (admits : Row → Bool) (rows : List Row) : Prop :=
  ∀ r ∈ rows, (inDays first last (time r) && admits r) = true →
    NotLate last (time r)

/-- What an export between two midnights has. -/
theorem exportRows_perm_iff (toDict : Row → Dict) (order : OldestFirst time)
    (first last : Option Day) (admits : Row → Bool) (rows : List Row) :
    (exportRows time toDict order (first.map dayStart) (last.map dayStart)
        admits rows).Perm (betweenDays time toDict first last admits rows)
      ↔ NoneLate time first last admits rows := by
  have hkept : ∀ r, (notBefore (first.map dayStart) (time r) &&
      notAfter (last.map dayStart) (time r) && admits r) = true
        ↔ (inDays first last (time r) && admits r) = true ∧
          NotLate last (time r) := by
    intro r
    rw [notBefore_dayStart, inDays]
    simp only [Bool.and_eq_true]
    rw [notAfter_dayStart]
    constructor
    · rintro ⟨⟨hfirst, hlast, hlate⟩, hadmits⟩
      exact ⟨⟨⟨hfirst, hlast⟩, hadmits⟩, hlate⟩
    · rintro ⟨⟨⟨hfirst, hlast⟩, hadmits⟩, hlate⟩
      exact ⟨⟨hfirst, hlast, hlate⟩, hadmits⟩
  rw [exportRows, betweenDays, ((order.perm _).map toDict).congr_left,
    map_filter_perm_iff (fun r h => ((hkept r).mp h).1)]
  refine forall₃_congr (fun r _ hr => ?_)
  rw [hkept r]
  exact and_iff_right hr

end Rows

/-! ## The exports -/

/-- An export answers with these rows, in some order. -/
def Exports {Dict : Type} (result : Except Exn (List Dict))
    (wanted : List Dict) : Prop :=
  ∃ rows, result = .ok rows ∧ rows.Perm wanted

theorem exports_ok {Dict : Type} {rows wanted : List Dict} :
    Exports (.ok rows) wanted ↔ rows.Perm wanted := by
  constructor
  · rintro ⟨rows', h, hperm⟩
    rw [Except.ok.inj h]
    exact hperm
  · intro hperm
    exact ⟨rows, rfl, hperm⟩

section Dialogs

variable {parse : String → Except Exn Datetime}

theorem exportAccessRequests_iff (hparse : ParsesDays parse)
    (order : OldestFirst AccessRequestRecord.requestedAt)
    (first last : Option Day) (requests : List AccessRequestRecord) :
    Exports (exportAccessRequests parse order (sentDate first) (sentDate last)
        requests)
      (betweenDays AccessRequestRecord.requestedAt requestDict first last
        (fun _ => true) requests)
      ↔ NoneLate AccessRequestRecord.requestedAt first last (fun _ => true)
          requests := by
  obtain ⟨since, hsince, hfirst⟩ := queryDate_sentDate hparse first
  obtain ⟨until_, huntil, hlast⟩ := queryDate_sentDate hparse last
  have hexport : exportAccessRequests parse order (sentDate first)
      (sentDate last) requests = .ok (AccessRequestService.exportRequests order
        (first.map dayStart) (last.map dayStart) requests) := by
    rw [exportAccessRequests, hsince, huntil, ← hfirst, ← hlast]
    rfl
  rw [hexport, exports_ok]
  exact exportRows_perm_iff requestDict order first last (fun _ => true)
    requests

theorem exportAuditLog_iff (hparse : ParsesDays parse)
    (order : OldestFirst AuditLogEntry.timestamp)
    (first last : Option Day) (f : Filters) (log : List AuditLogEntry) :
    Exports (exportAuditLog parse order (sentDate first) (sentDate last) f log)
      (betweenDays AuditLogEntry.timestamp AuditLogEntry.toDict first last
        f.admits log)
      ↔ NoneLate AuditLogEntry.timestamp first last f.admits log := by
  obtain ⟨since, hsince, hfirst⟩ := queryDate_sentDate hparse first
  obtain ⟨until_, huntil, hlast⟩ := queryDate_sentDate hparse last
  have hexport : exportAuditLog parse order (sentDate first) (sentDate last) f
      log = .ok (AuditService.exportEntries order (first.map dayStart)
        (last.map dayStart) f log) := by
    rw [exportAuditLog, hsince, huntil, ← hfirst, ← hlast]
    rfl
  rw [hexport, exports_ok]
  exact exportRows_perm_iff AuditLogEntry.toDict order first last f.admits log

/-- **THE DAYS OF AN EXPORT**: an export of access requests, and one of the
    audit log, has the rows between its days, both included, exactly when none
    of them is from the last day, after its midnight. -/
theorem export_days_iff (hparse : ParsesDays parse)
    (first last : Option Day)
    (oldest : OldestFirst AccessRequestRecord.requestedAt)
    (requests : List AccessRequestRecord)
    (oldest' : OldestFirst AuditLogEntry.timestamp) (f : Filters)
    (log : List AuditLogEntry) :
    (Exports (exportAccessRequests parse oldest (sentDate first)
        (sentDate last) requests)
      (betweenDays AccessRequestRecord.requestedAt requestDict first last
        (fun _ => true) requests)
      ↔ NoneLate AccessRequestRecord.requestedAt first last (fun _ => true)
          requests) ∧
    (Exports (exportAuditLog parse oldest' (sentDate first) (sentDate last) f
        log)
      (betweenDays AuditLogEntry.timestamp AuditLogEntry.toDict first last
        f.admits log)
      ↔ NoneLate AuditLogEntry.timestamp first last f.admits log) :=
  ⟨exportAccessRequests_iff hparse oldest first last requests,
    exportAuditLog_iff hparse oldest' first last f log⟩

end Dialogs

/-- A parser that reads ISO 8601 texts. -/
def isoParse (text : String) : Except Exn Datetime :=
  match fromisoformat text.toList with
  | none => .error (.httpException 422 "Input should be a valid datetime")
  | some d => .ok d

/-- It reads a day as its midnight. -/
theorem isoParse_days : ParsesDays isoParse := by
  intro d
  obtain ⟨hy, hm, hd⟩ := d.midnight.date_lt
  have hread : fromisoformat (pad 4 d.year ++ '-' :: (pad 2 d.month ++ '-' ::
      pad 2 d.day)) = some ⟨d.midnight, none⟩ := by
    have hsep := separatorAt_pad d.year d.month d.day []
    rw [List.append_nil] at hsep
    have hlength : (pad 4 d.year ++ '-' :: (pad 2 d.month ++ '-' ::
        pad 2 d.day)).length = 10 := rfl
    rw [fromisoformat, hsep, if_neg (by rw [hlength]; decide)]
    have htake : (pad 4 d.year ++ '-' :: (pad 2 d.month ++ '-' ::
        pad 2 d.day)).take 10 = pad 4 d.year ++ '-' :: (pad 2 d.month ++ '-' ::
          pad 2 d.day) := rfl
    have hdrop : (pad 4 d.year ++ '-' :: (pad 2 d.month ++ '-' ::
        pad 2 d.day)).drop (10 + 1) = [] := rfl
    have hdate : parseDate (pad 4 d.year ++ '-' :: (pad 2 d.month ++ '-' ::
        pad 2 d.day)) = some (d.year, d.month, d.day) :=
      parseDate_pad hy hm hd
    have hmake : mkTime? d.year d.month d.day 0 0 0 0 = some d.midnight :=
      dif_pos d.inRange
    simp only [htake, hdrop, hdate, Option.bind_eq_bind, Option.bind_some,
      hmake, Option.map_some]
  rw [isoParse, Day.text, String.toList_ofList, hread]

/-- The first of March. -/
def marchFirst : Day := ⟨2026, 3, 1, by decide⟩

/-- The last of March. -/
def marchLast : Day := ⟨2026, 3, 31, by decide⟩

/-- A request made at noon of that day. -/
def lastDayRequest : AccessRequestRecord where
  id := "7"
  requester := "bob"
  targetUsername := "ada"
  userKind := .user
  saNamespace := none
  roleName := "view"
  roleKind := .clusterRole
  ns := none
  ttlMinutes := 60
  reason := "incident"
  status := .pending
  requestedAt := ⟨2026, 3, 31, 12, 0, 0, 0, by decide⟩

/-- A request made on the day before. -/
def dayBeforeRequest : AccessRequestRecord :=
  { lastDayRequest with
    requestedAt := ⟨2026, 3, 30, 12, 0, 0, 0, by decide⟩ }

/-- The exports of March, with that request and an empty log. -/
theorem export_days_march :
    Exports (exportAccessRequests isoParse (OldestFirst.stable _)
        (sentDate (some marchFirst)) (sentDate (some marchLast))
        [dayBeforeRequest])
      (betweenDays AccessRequestRecord.requestedAt requestDict (some marchFirst)
        (some marchLast) (fun _ => true) [dayBeforeRequest]) ∧
    Exports (exportAuditLog isoParse (OldestFirst.stable _)
        (sentDate (some marchFirst)) (sentDate (some marchLast)) ⟨none, none⟩
        [])
      (betweenDays AuditLogEntry.timestamp AuditLogEntry.toDict
        (some marchFirst) (some marchLast) (Filters.admits ⟨none, none⟩)
        []) := by
  obtain ⟨hrequests, hlog⟩ := export_days_iff isoParse_days (some marchFirst)
    (some marchLast) (OldestFirst.stable _) [dayBeforeRequest]
    (OldestFirst.stable _) ⟨none, none⟩ []
  refine ⟨hrequests.mpr ?_, hlog.mpr nofun⟩
  intro r hr _ d hd hday
  obtain rfl := List.mem_singleton.mp hr
  obtain rfl := Option.some.inj hd
  exact absurd hday (by decide)

/-- The export of March lacks a request of its last day. -/
theorem march_lacks_last_day :
    inDays (some marchFirst) (some marchLast) lastDayRequest.requestedAt
      = true ∧
    ¬ Exports (exportAccessRequests isoParse (OldestFirst.stable _)
        (sentDate (some marchFirst)) (sentDate (some marchLast))
        [lastDayRequest])
      (betweenDays AccessRequestRecord.requestedAt requestDict (some marchFirst)
        (some marchLast) (fun _ => true) [lastDayRequest]) := by
  have hbetween : inDays (some marchFirst) (some marchLast)
      lastDayRequest.requestedAt = true := by decide
  refine ⟨hbetween, ?_⟩
  rw [exportAccessRequests_iff isoParse_days]
  intro hnone
  have hmidnight := hnone lastDayRequest List.mem_cons_self
    (Bool.and_eq_true_iff.mpr ⟨hbetween, rfl⟩) marchLast rfl rfl
  exact absurd hmidnight (by decide)

end CvExport
