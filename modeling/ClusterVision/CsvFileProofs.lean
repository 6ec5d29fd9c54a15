import ClusterVision.CsvTextProofs
import ClusterVision.CsvExport

/-! # The exported files

    `rows_to_csv` and the two export routes up to the text that they answer
    with.  The text of a file is read as any reader of CSV reads it.  What it
    gives back are the rows of the export, one for each, with the text of every
    column as it was stored: no text of a user ends a field or a row of the
    file.  The file of the access requests determines the requests. -/

namespace CvExport

open CvProg CvTable CvIso CvKube CvBackend CvRbac CvHttp CvAudit CvCsv

/-! ## Rows as dicts -/

/-- The values of the dicts that are exported. -/
inductive CsvValue where
  | null
  | text (s : String)
  | int (n : Int)
deriving DecidableEq

/-- A value as the writer puts it. -/
def CsvValue.written : CsvValue → String
  | .null => ""
  | .text s => s
  | .int n => toString n

/-- `None`, or a text. -/
def CsvValue.ofText : Option String → CsvValue
  | none => .null
  | some s => .text s

/-- A dict of an export. -/
abbrev CsvDict := List (String × CsvValue)

/-- `row.get(column, "")`. -/
def CsvDict.get (row : CsvDict) (column : String) : CsvValue :=
  ((row.find? (fun e => e.1 == column)).map Prod.snd).getD (.text "")

/-- The fields of a dict, in the order of the columns. -/
def csvFields (columns : List String) (row : CsvDict) : List String :=
  columns.map (fun column => (row.get column).written)

/-- `rows_to_csv`. -/
def rowsToCsv (rows : List CsvDict) (columns : List String) : String :=
  String.ofList (writeRows
    ((columns :: rows.map (csvFields columns)).map (List.map String.toList)))

/-- The rows that a reader finds in a file. -/
def readCsv (file : String) : Option (List (List String)) :=
  (readRows file.toList).map (List.map (List.map String.ofList))

/-- **A file is read back**: the columns, and the fields of each dict. -/
theorem readCsv_rowsToCsv (rows : List CsvDict) (columns : List String) :
    readCsv (rowsToCsv rows columns)
      = some (columns :: rows.map (csvFields columns)) := by
  have hback : ∀ table : List (List String),
      (table.map (List.map String.toList)).map (List.map String.ofList)
        = table := by
    intro table
    rw [List.map_map]
    refine (List.map_congr_left ?_).trans (List.map_id table)
    intro row _
    show (row.map String.toList).map String.ofList = row
    rw [List.map_map]
    exact (List.map_congr_left (fun s _ => String.ofList_toList)).trans
      (List.map_id row)
  rw [readCsv, rowsToCsv, String.toList_ofList, readRows_writeRows,
    Option.map_some, hback]

/-! ## Access requests -/

/-- `_EXPORT_COLUMNS` of the access requests. -/
def requestColumns : List String :=
  ["id", "requester", "target_username", "user_kind", "sa_namespace",
    "role_name", "role_kind", "namespace", "ttl_minutes", "reason", "status",
    "requested_at", "reviewed_by", "reviewed_at", "expires_at", "binding_name"]

/-- The text of a kind of subject. -/
def kindText : SubjectKind → String
  | .user => "User"
  | .group => "Group"
  | .serviceAccount => "ServiceAccount"

/-- The dict of an access request, with its keys. -/
def RequestDict.csvDict (d : RequestDict) : CsvDict :=
  [("id", .text d.id), ("requester", .text d.requester),
    ("target_username", .text d.targetUsername),
    ("user_kind", .text (kindText d.userKind)),
    ("sa_namespace", .ofText d.saNamespace), ("role_name", .text d.roleName),
    ("role_kind", .text d.roleKind.text), ("namespace", .ofText d.ns),
    ("ttl_minutes", .int d.ttlMinutes), ("reason", .text d.reason),
    ("status", .text d.status), ("requested_at", .text d.requestedAt),
    ("reviewed_by", .ofText d.reviewedBy),
    ("reviewed_at", .ofText d.reviewedAt),
    ("expires_at", .ofText d.expiresAt),
    ("binding_name", .ofText d.bindingName)]

/-- The file of some access requests. -/
def requestFile (rows : List RequestDict) : String :=
  rowsToCsv (rows.map RequestDict.csvDict) requestColumns

/-- The fields of a request in the file. -/
def requestFields (r : AccessRequestRecord) : List String :=
  [r.id, r.requester, r.targetUsername, kindText r.userKind,
    r.saNamespace.getD "", r.roleName, r.roleKind.text, r.ns.getD "",
    toString r.ttlMinutes, r.reason, r.status.text, dictTime r.requestedAt,
    r.reviewedBy.getD "", (r.reviewedAt.map dictTime).getD "",
    (r.expiresAt.map dictTime).getD "", r.bindingName.getD ""]

@[simp] theorem written_text (s : String) :
    (CsvValue.text s).written = s := rfl

@[simp] theorem written_int (n : Int) :
    (CsvValue.int n).written = toString n := rfl

@[simp] theorem written_ofText (s : Option String) :
    (CsvValue.ofText s).written = s.getD "" := by
  cases s with
  | none => rfl
  | some s => rfl

theorem csvFields_requestDict (r : AccessRequestRecord) :
    csvFields requestColumns (requestDict r).csvDict = requestFields r := by
  simp [csvFields, requestColumns, RequestDict.csvDict, CsvDict.get,
    requestFields, requestDict]

theorem readCsv_requestFile (kept : List AccessRequestRecord) :
    readCsv (requestFile (kept.map requestDict))
      = some (requestColumns :: kept.map requestFields) := by
  rw [requestFile, readCsv_rowsToCsv, List.map_map, List.map_map]
  exact congrArg (fun rows => some (requestColumns :: rows))
    (List.map_congr_left (fun r _ => csvFields_requestDict r))

/-! ## What a field says -/

/-- The digits of a number are those of no other. -/
theorem digits_inj {m n : Nat} (h : Nat.toDigits 10 m = Nat.toDigits 10 n) :
    m = n := by
  have hm := @Nat.ofDigitChars_ten_toDigits m
  rw [h, Nat.ofDigitChars_ten_toDigits] at hm
  exact hm.symm

/-- A number without a sign does not read as one with a sign. -/
theorem digits_ne_minus (m n : Nat) :
    Nat.toDigits 10 m ≠ '-' :: Nat.toDigits 10 n := by
  intro h
  have hmem : '-' ∈ Nat.toDigits 10 m := h ▸ List.mem_cons_self
  exact absurd (Nat.isDigit_of_mem_toDigits (by decide) (by decide) hmem)
    (by decide)

/-- The characters of a number: its sign, and its digits. -/
def intChars : Int → List Char
  | .ofNat n => Nat.toDigits 10 n
  | .negSucc n => '-' :: Nat.toDigits 10 (n + 1)

theorem toList_intText (n : Int) : (toString n).toList = intChars n := by
  cases n with
  | ofNat n => exact String.toList_ofList
  | negSucc n =>
      show ("-" ++ String.ofList (Nat.toDigits 10 (n + 1))).toList = _
      simp [intChars]

/-- The text of a number is that of no other. -/
theorem intText_inj {m n : Int} (h : toString m = toString n) : m = n := by
  have hchars : intChars m = intChars n := by
    rw [← toList_intText, h, toList_intText]
  cases m with
  | ofNat m =>
      cases n with
      | ofNat n => exact congrArg Int.ofNat (digits_inj hchars)
      | negSucc n => exact absurd hchars (digits_ne_minus _ _)
  | negSucc m =>
      cases n with
      | ofNat n => exact absurd hchars.symm (digits_ne_minus _ _)
      | negSucc n =>
          have hsucc := digits_inj (List.cons.inj hchars).2
          exact congrArg Int.negSucc (Nat.succ.inj hsucc)

theorem kindText_inj {k l : SubjectKind} (h : kindText k = kindText l) :
    k = l := by
  cases k <;> cases l <;> first | rfl | exact absurd h (by decide)

theorem roleKindText_inj {k l : RoleKind} (h : k.text = l.text) : k = l := by
  cases k <;> cases l <;> first | rfl | exact absurd h (by decide)

theorem statusText_inj {s t : RequestStatus} (h : s.text = t.text) : s = t := by
  cases s <;> cases t <;> first | rfl | exact absurd h (by decide)

theorem dictTime_inj {t u : Time} (h : dictTime t = dictTime u) : t = u := by
  have hchars : isoformat (utc t) = isoformat (utc u) :=
    String.ofList_injective h
  have hread := fromisoformat_isoformat t
  rw [hchars, fromisoformat_isoformat] at hread
  exact (congrArg Datetime.fields (Option.some.inj hread)).symm

theorem dictTime_ne_empty (t : Time) : dictTime t ≠ "" := by
  intro h
  have hnil : isoformat (utc t) = [] := String.ofList_injective h
  have hread := fromisoformat_isoformat t
  have hnone : fromisoformat [] = none := by decide
  rw [hnil, hnone] at hread
  cases hread

/-- A time that may be missing is told by its text. -/
theorem dictTime?_inj {t u : Option Time}
    (h : (t.map dictTime).getD "" = (u.map dictTime).getD "") : t = u := by
  cases t with
  | none =>
      cases u with
      | none => rfl
      | some u => exact absurd h.symm (dictTime_ne_empty u)
  | some t =>
      cases u with
      | none => exact absurd h (dictTime_ne_empty t)
      | some u => exact congrArg some (dictTime_inj h)

/-- A request as far as the file tells: a text that is missing and an empty one
    are one field. -/
def shown (r : AccessRequestRecord) : AccessRequestRecord :=
  { r with
    saNamespace := some (r.saNamespace.getD "")
    ns := some (r.ns.getD "")
    reviewedBy := some (r.reviewedBy.getD "")
    bindingName := some (r.bindingName.getD "") }

/-- The fields of a request tell everything else about it. -/
theorem requestFields_inj {r r' : AccessRequestRecord}
    (h : requestFields r = requestFields r') : shown r = shown r' := by
  simp only [requestFields, List.cons.injEq, and_true] at h
  obtain ⟨hid, hrequester, htarget, hkind, hsa, hrole, hroleKind, hns, httl,
    hreason, hstatus, hat, hby, hreviewed, hexpires, hbinding⟩ := h
  have hkind := kindText_inj hkind
  have hroleKind := roleKindText_inj hroleKind
  have httl := intText_inj httl
  have hstatus := statusText_inj hstatus
  have hat := dictTime_inj hat
  have hreviewed := dictTime?_inj hreviewed
  have hexpires := dictTime?_inj hexpires
  simp only [shown, hid, hrequester, htarget, hkind, hsa, hrole, hroleKind, hns,
    httl, hreason, hstatus, hat, hby, hreviewed, hexpires, hbinding]

theorem requestFields_map_inj :
    ∀ {rows rows' : List AccessRequestRecord},
      rows.map requestFields = rows'.map requestFields →
        rows.map shown = rows'.map shown := by
  intro rows
  induction rows with
  | nil =>
      intro rows' h
      rw [List.map_nil, eq_comm, List.map_eq_nil_iff] at h
      rw [h]
  | cons r rows ih =>
      intro rows' h
      cases rows' with
      | nil => cases h
      | cons r' rows' =>
          rw [List.map_cons, List.map_cons, List.cons.injEq] at h
          rw [List.map_cons, List.map_cons, requestFields_inj h.1, ih h.2]

/-! ## The export of the access requests -/

section Requests

variable {parse : String → Except Exn Datetime}

/-- The response of `export_access_requests`. -/
def exportAccessRequestsFile (parse : String → Except Exn Datetime)
    (order : OldestFirst AccessRequestRecord.requestedAt)
    (from_ to_ : Option String) (requests : List AccessRequestRecord) :
    Except Exn String :=
  (exportAccessRequests parse order from_ to_ requests).map requestFile

/-- The rows of a table between two dates of a query, oldest first. -/
structure Selected {Row : Type} (parse : String → Except Exn Datetime)
    (time : Row → Time) (admits : Row → Bool) (from_ to_ : Option String)
    (rows kept : List Row) : Prop where
  between : ∃ since until_, queryDate parse from_ = .ok since ∧
    queryDate parse to_ = .ok until_ ∧
    kept.Perm (rows.filter (fun r => notBefore (asUtc since) (time r) &&
      notAfter (asUtc until_) (time r) && admits r))
  oldestFirst : kept.Pairwise (fun a b => time a ≤ time b)

/-- The rows that an export writes. -/
theorem exportRows_selected {Row Dict : Type} {time : Row → Time}
    (toDict : Row → Dict) (order : OldestFirst time) {admits : Row → Bool}
    {from_ to_ : Option String} {since until_ : Option Datetime}
    (hsince : queryDate parse from_ = .ok since)
    (huntil : queryDate parse to_ = .ok until_) (rows : List Row) :
    ∃ kept, Selected parse time admits from_ to_ rows kept ∧
      exportRows time toDict order (asUtc since) (asUtc until_) admits rows
        = kept.map toDict :=
  ⟨_, ⟨⟨since, until_, hsince, huntil, order.perm _⟩, order.sorted _⟩, rfl⟩

theorem exportAccessRequestsFile_ok
    {order : OldestFirst AccessRequestRecord.requestedAt}
    {from_ to_ : Option String} {requests : List AccessRequestRecord}
    {file : String}
    (h : exportAccessRequestsFile parse order from_ to_ requests = .ok file) :
    ∃ kept, Selected parse AccessRequestRecord.requestedAt (fun _ => true)
        from_ to_ requests kept ∧
      file = requestFile (kept.map requestDict) := by
  rw [exportAccessRequestsFile, exportAccessRequests] at h
  cases hsince : queryDate parse from_ with
  | error e =>
      rw [hsince] at h
      cases h
  | ok since =>
      cases huntil : queryDate parse to_ with
      | error e =>
          rw [hsince, huntil] at h
          cases h
      | ok until_ =>
          rw [hsince, huntil] at h
          obtain ⟨kept, hkept, hrows⟩ :=
            exportRows_selected requestDict order hsince huntil requests
          refine ⟨kept, hkept, ?_⟩
          rw [← hrows]
          exact (Except.ok.inj h).symm

/-- **What is exported is what is read**: the file of an export holds, after
    its header, one row for each request between the two dates, in the order of
    their times, with the text of every column as it is stored. -/
theorem exported_requests_read_back
    {order : OldestFirst AccessRequestRecord.requestedAt}
    {from_ to_ : Option String} {requests : List AccessRequestRecord}
    {file : String}
    (h : exportAccessRequestsFile parse order from_ to_ requests = .ok file) :
    ∃ kept, Selected parse AccessRequestRecord.requestedAt (fun _ => true)
        from_ to_ requests kept ∧
      readCsv file = some (requestColumns :: kept.map requestFields) := by
  obtain ⟨kept, hkept, rfl⟩ := exportAccessRequestsFile_ok h
  exact ⟨kept, hkept, readCsv_requestFile kept⟩

/-- A request whose reason looks like the end of its row and another one. -/
def forgingRequest : AccessRequestRecord where
  id := "7"
  requester := "bob"
  targetUsername := "ada"
  userKind := .user
  saNamespace := none
  roleName := "view"
  roleKind := .clusterRole
  ns := none
  ttlMinutes := 60
  reason := "incident\"\r\n8,eve,\"mallory"
  status := .pending
  requestedAt := ⟨2026, 3, 30, 9, 0, 0, 0, by decide⟩

/-- A parser that no date is given to. -/
def noDates (_ : String) : Except Exn Datetime := .error .typeError

theorem forging_export :
    exportAccessRequestsFile noDates (OldestFirst.stable _) none none
        [forgingRequest]
      = .ok (requestFile [requestDict forgingRequest]) := by
  have hsort : (OldestFirst.stable AccessRequestRecord.requestedAt).sort
      [forgingRequest] = [forgingRequest] := List.mergeSort_singleton _
  show Except.ok (requestFile (List.map requestDict
    ((OldestFirst.stable AccessRequestRecord.requestedAt).sort
      [forgingRequest]))) = _
  rw [hsort]
  rfl

/-- It stays one row. -/
theorem forging_request_read_back :
    ∃ kept, Selected noDates AccessRequestRecord.requestedAt (fun _ => true)
        none none [forgingRequest] kept ∧
      readCsv (requestFile [requestDict forgingRequest])
        = some (requestColumns :: kept.map requestFields) :=
  exported_requests_read_back forging_export

/-- **The file tells the requests apart**: two tables that export the same
    file had, between their dates, the same requests in the same order, up to a
    text that is missing where the other has an empty one. -/
theorem same_file_same_requests
    {order : OldestFirst AccessRequestRecord.requestedAt}
    {from_ to_ from' to' : Option String}
    {requests requests' : List AccessRequestRecord} {file : String}
    (h : exportAccessRequestsFile parse order from_ to_ requests = .ok file)
    (h' : exportAccessRequestsFile parse order from' to' requests'
      = .ok file) :
    ∃ kept kept',
      Selected parse AccessRequestRecord.requestedAt (fun _ => true) from_ to_
        requests kept ∧
      Selected parse AccessRequestRecord.requestedAt (fun _ => true) from' to'
        requests' kept' ∧
      kept.map shown = kept'.map shown := by
  obtain ⟨kept, hkept, hfile⟩ := exportAccessRequestsFile_ok h
  obtain ⟨kept', hkept', hfile'⟩ := exportAccessRequestsFile_ok h'
  have hread := readCsv_requestFile kept
  rw [← hfile, hfile', readCsv_requestFile] at hread
  have hrows := (List.cons.inj (Option.some.inj hread)).2
  exact ⟨kept, kept', hkept, hkept', requestFields_map_inj hrows.symm⟩

/-- The request in a table that has empty texts where the other one has
    none. -/
def emptyTexts : AccessRequestRecord :=
  { forgingRequest with saNamespace := some "", ns := some "" }

theorem emptyTexts_export :
    exportAccessRequestsFile noDates (OldestFirst.stable _) none none
        [emptyTexts]
      = .ok (requestFile [requestDict forgingRequest]) := by
  have hsort : (OldestFirst.stable AccessRequestRecord.requestedAt).sort
      [emptyTexts] = [emptyTexts] := List.mergeSort_singleton _
  show Except.ok (requestFile (List.map requestDict
    ((OldestFirst.stable AccessRequestRecord.requestedAt).sort
      [emptyTexts]))) = _
  rw [hsort]
  rfl

/-- Both tables give one file, which shows the same request. -/
theorem forging_request_told :
    emptyTexts ≠ forgingRequest ∧ ∃ kept kept',
      Selected noDates AccessRequestRecord.requestedAt (fun _ => true) none none
        [forgingRequest] kept ∧
      Selected noDates AccessRequestRecord.requestedAt (fun _ => true) none none
        [emptyTexts] kept' ∧
      kept.map shown = kept'.map shown :=
  ⟨by decide, same_file_same_requests forging_export emptyTexts_export⟩

end Requests

/-! ## The export of the audit log -/

section Log

variable {parse : String → Except Exn Datetime}

/-- `_EXPORT_COLUMNS` of the audit log. -/
def auditColumns : List String :=
  ["timestamp", "actor", "actor_role", "method", "path", "status_code",
    "payload"]

/-- The payload of an entry as the route writes it: `json.dumps` of what is
    not `None`. -/
def payloadValue (dumps : Json → String) : Json → CsvValue
  | .null => .null
  | payload => .text (dumps payload)

/-- The dict of an entry, with its keys, after the route has replaced its
    payload. -/
def EntryDict.csvDict (dumps : Json → String) (d : EntryDict) : CsvDict :=
  [("id", .text d.id), ("timestamp", .text d.timestamp),
    ("actor", .ofText d.actor), ("actor_role", .ofText d.actorRole),
    ("method", .text d.method), ("path", .text d.path),
    ("status_code", .int d.statusCode),
    ("payload", payloadValue dumps d.payload)]

/-- The file of some entries. -/
def auditFile (dumps : Json → String) (rows : List EntryDict) : String :=
  rowsToCsv (rows.map (EntryDict.csvDict dumps)) auditColumns

/-- The response of `export_audit_log`. -/
def exportAuditLogFile (parse : String → Except Exn Datetime)
    (dumps : Json → String) (order : OldestFirst AuditLogEntry.timestamp)
    (from_ to_ : Option String) (f : Filters) (log : List AuditLogEntry) :
    Except Exn String :=
  (exportAuditLog parse order from_ to_ f log).map (auditFile dumps)

/-- The fields of an entry in the file. -/
def auditFields (dumps : Json → String) (e : AuditLogEntry) : List String :=
  [dictTime e.timestamp, e.actor.getD "", e.actorRole.getD "", e.method, e.path,
    toString (e.statusCode : Int), (payloadValue dumps e.payload).written]

theorem csvFields_entryDict (dumps : Json → String) (e : AuditLogEntry) :
    csvFields auditColumns (EntryDict.csvDict dumps e.toDict)
      = auditFields dumps e := by
  simp [csvFields, auditColumns, EntryDict.csvDict, CsvDict.get, auditFields,
    AuditLogEntry.toDict, dictTime]

/-- **The exported log is read back**: after its header the file holds one row
    for each entry that the dates and the filters select, oldest first; no path
    and no payload of a request reaches beyond its own field. -/
theorem exported_log_read_back (dumps : Json → String)
    {order : OldestFirst AuditLogEntry.timestamp} {from_ to_ : Option String}
    {f : Filters} {log : List AuditLogEntry} {file : String}
    (h : exportAuditLogFile parse dumps order from_ to_ f log = .ok file) :
    ∃ kept, Selected parse AuditLogEntry.timestamp f.admits from_ to_ log kept ∧
      readCsv file
        = some (auditColumns :: kept.map (auditFields dumps)) := by
  rw [exportAuditLogFile, exportAuditLog] at h
  cases hsince : queryDate parse from_ with
  | error e =>
      rw [hsince] at h
      cases h
  | ok since =>
      cases huntil : queryDate parse to_ with
      | error e =>
          rw [hsince, huntil] at h
          cases h
      | ok until_ =>
          rw [hsince, huntil] at h
          obtain ⟨kept, hkept, hrows⟩ :=
            exportRows_selected AuditLogEntry.toDict order hsince huntil log
          refine ⟨kept, hkept, ?_⟩
          have hfile : file = auditFile dumps (kept.map AuditLogEntry.toDict) := by
            rw [← hrows]
            exact (Except.ok.inj h).symm
          rw [hfile, auditFile, readCsv_rowsToCsv, List.map_map, List.map_map]
          exact congrArg (fun rows => some (auditColumns :: rows))
            (List.map_congr_left (fun e _ => csvFields_entryDict dumps e))

/-- An entry whose path holds a quote and the end of a line. -/
def forgedEntry : AuditLogEntry where
  id := "1"
  timestamp := ⟨2026, 3, 30, 9, 0, 0, 0, by decide⟩
  actor := some "eve"
  actorRole := none
  method := "DELETE"
  path := "/api/v1/users/x\"\r\n,ada"
  statusCode := 404
  payload := .null

/-- The text of a payload, for an entry without one. -/
def noDumps (_ : Json) : String := ""

theorem forged_export :
    exportAuditLogFile noDates noDumps (OldestFirst.stable _) none none
        ⟨none, none⟩ [forgedEntry]
      = .ok (auditFile noDumps [forgedEntry.toDict]) := by
  have hsort : (OldestFirst.stable AuditLogEntry.timestamp).sort [forgedEntry]
      = [forgedEntry] := List.mergeSort_singleton _
  show Except.ok (auditFile noDumps (List.map AuditLogEntry.toDict
    ((OldestFirst.stable AuditLogEntry.timestamp).sort [forgedEntry]))) = _
  rw [hsort]
  rfl

/-- It stays one row. -/
theorem forged_log_read_back :
    ∃ kept, Selected noDates AuditLogEntry.timestamp
        (Filters.admits ⟨none, none⟩) none none [forgedEntry] kept ∧
      readCsv (auditFile noDumps [forgedEntry.toDict])
        = some (auditColumns :: kept.map (auditFields noDumps)) :=
  exported_log_read_back noDumps forged_export

end Log

end CvExport
