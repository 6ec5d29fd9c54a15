import ClusterVision.AuditLog

/-! # The exports

    What the two CSV exports read of the database (`services/audit_service.py`,
    `services/access_request_service.py`), the export routes with
    `core/csv_export.py`, and the dates that the export dialogs of the frontend
    send to them.  Rows are kept as the dicts that `rows_to_csv` writes. -/

namespace CvExport

open CvProg CvTable CvIso CvKube CvBackend CvRbac CvHttp CvAudit

/-! ## Bounds -/

/-- A `datetime` that has an offset. -/
structure Aware where
  value : Datetime
  offset : Int
  aware : value.utcoffset = some offset

/-- The instant of an aware `datetime`, in microseconds. -/
def Aware.instant (a : Aware) : Int := a.value.fields.instant - a.offset

/-- `as_utc`. -/
def asUtc : Option Datetime → Option Aware
  | none => none
  | some ⟨fields, some offset⟩ => some ⟨⟨fields, some offset⟩, offset, rfl⟩
  | some ⟨fields, none⟩ => some ⟨⟨fields, some 0⟩, 0, rfl⟩

/-- `column >= since`, when there is a bound. -/
def notBefore (since : Option Aware) (t : Time) : Bool :=
  match since with
  | none => true
  | some a => decide (a.instant ≤ t.instant)

/-- `column <= until`, when there is a bound. -/
def notAfter (until_ : Option Aware) (t : Time) : Bool :=
  match until_ with
  | none => true
  | some a => decide ((t.instant : Int) ≤ a.instant)

/-! ## The services -/

/-- The rows between two bounds that meet the other filters, oldest first. -/
def exportRows {Row Dict : Type} (time : Row → Time) (toDict : Row → Dict)
    (order : OldestFirst time) (since until_ : Option Aware)
    (admits : Row → Bool) (rows : List Row) : List Dict :=
  (order.sort (rows.filter (fun r =>
    notBefore since (time r) && notAfter until_ (time r) && admits r))).map
    toDict

/-- The dict of an access request (`to_dict`). -/
structure RequestDict where
  id : String
  requester : String
  targetUsername : String
  userKind : SubjectKind
  saNamespace : Option String
  roleName : String
  roleKind : RoleKind
  ns : Option String
  ttlMinutes : Int
  reason : String
  status : String
  requestedAt : String
  reviewedBy : Option String
  reviewedAt : Option String
  expiresAt : Option String
  bindingName : Option String

/-- The text of a time in a dict. -/
def dictTime (t : Time) : String := String.ofList (isoformat (utc t))

/-- `AccessRequestRecord.to_dict`. -/
def requestDict (r : AccessRequestRecord) : RequestDict :=
  ⟨r.id, r.requester, r.targetUsername, r.userKind, r.saNamespace, r.roleName,
    r.roleKind, r.ns, r.ttlMinutes, r.reason, r.status.text,
    dictTime r.requestedAt, r.reviewedBy, r.reviewedAt.map dictTime,
    r.expiresAt.map dictTime, r.bindingName⟩

/-- `AccessRequestService.export_requests`. -/
def AccessRequestService.exportRequests
    (order : OldestFirst AccessRequestRecord.requestedAt)
    (since until_ : Option Aware) (requests : List AccessRequestRecord) :
    List RequestDict :=
  exportRows AccessRequestRecord.requestedAt requestDict order since until_
    (fun _ => true) requests

/-- `AuditService.export_entries`. -/
def AuditService.exportEntries (order : OldestFirst AuditLogEntry.timestamp)
    (since until_ : Option Aware) (f : Filters) (log : List AuditLogEntry) :
    List EntryDict :=
  exportRows AuditLogEntry.timestamp AuditLogEntry.toDict order since until_
    f.admits log

/-! ## The routes -/

section Routes

variable (parse : String → Except Exn Datetime)

/-- `datetime | None = Query(default=None)`. -/
def queryDate (text : Option String) : Except Exn (Option Datetime) :=
  match text with
  | none => .ok none
  | some text => (parse text).map some

/-- `export_access_requests`. -/
def exportAccessRequests
    (order : OldestFirst AccessRequestRecord.requestedAt)
    (from_ to_ : Option String) (requests : List AccessRequestRecord) :
    Except Exn (List RequestDict) := do
  let since ← queryDate parse from_
  let until_ ← queryDate parse to_
  pure (AccessRequestService.exportRequests order (asUtc since) (asUtc until_)
    requests)

/-- `export_audit_log`. -/
def exportAuditLog (order : OldestFirst AuditLogEntry.timestamp)
    (from_ to_ : Option String) (f : Filters) (log : List AuditLogEntry) :
    Except Exn (List EntryDict) := do
  let since ← queryDate parse from_
  let until_ ← queryDate parse to_
  pure (AuditService.exportEntries order (asUtc since) (asUtc until_) f log)

end Routes

/-! ## The dialogs -/

/-- A day of the calendar. -/
structure Day where
  year : Nat
  month : Nat
  day : Nat
  inRange : InRange year month day 0 0 0 0

/-- The ordinal of a day. -/
def Day.ordinal (d : Day) : Nat := toOrdinal d.year d.month d.day

/-- The time at which a day begins. -/
def Day.midnight (d : Day) : Time :=
  ⟨d.year, d.month, d.day, 0, 0, 0, 0, d.inRange⟩

/-- `YYYY-MM-DD`. -/
def Day.text (d : Day) : String :=
  String.ofList (pad 4 d.year ++ '-' :: (pad 2 d.month ++ '-' :: pad 2 d.day))

/-- The value of an `<input type="date">`: empty, or the day in it. -/
def inputValue : Option Day → String
  | none => ""
  | some d => d.text

/-- `value || undefined`. -/
def orUndefined (value : String) : Option String :=
  if value = "" then none else some value

/-- The date of a dialog, as it is sent. -/
def sentDate (d : Option Day) : Option String := orUndefined (inputValue d)

end CvExport
