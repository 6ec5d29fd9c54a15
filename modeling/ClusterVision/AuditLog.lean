import ClusterVision.HttpRoutes

/-! # The audit log

    The middleware that writes an entry for each audited request
    (`core/audit_middleware.py`), and the service, the route and the response
    model that read them (`services/audit_service.py`, `routers/audit.py`,
    `models/audit.py`). -/

namespace CvAudit

open CvProg CvTable CvIso CvKube CvBackend CvRbac CvHttp

/-! ## JSON values -/

/-- A code point of a `str`: a character, or a surrogate, as `json.loads` returns
    it for an escape such as `\ud800`. -/
inductive CodePoint where
  | char (c : Char)
  | surrogate (n : Fin 2048)
deriving DecidableEq

/-- `str`. -/
abbrev Str := List CodePoint

/-- The `str` of a text. -/
def str (text : String) : Str := text.toList.map .char

def CodePoint.isChar : CodePoint → Bool
  | .char _ => true
  | .surrogate _ => false

/-- UTF-8 has no surrogates. -/
def Str.encodable (s : Str) : Bool := s.all CodePoint.isChar

/-- What `json.loads` returns.  It accepts the literals `NaN` and `Infinity`,
    and reads a number that is too large as an infinity. -/
inductive Json where
  | null
  | bool (b : Bool)
  | number (q : Rat)
  | nan
  | infinity (negative : Bool)
  | str (s : Str)
  | list (xs : List Json)
  | dict (entries : List (Str × Json))

mutual

/-- Is this a value that JSON has a text for?  `NaN` and `Infinity` have
    none. -/
def Json.valid : Json → Bool
  | .nan => false
  | .infinity _ => false
  | .list xs => validItems xs
  | .dict entries => validEntries entries
  | _ => true

/-- Do the items of a list all have a text? -/
def validItems : List Json → Bool
  | [] => true
  | x :: xs => x.valid && validItems xs

/-- Do the values of a dict all have a text? -/
def validEntries : List (Str × Json) → Bool
  | [] => true
  | (_, v) :: entries => v.valid && validEntries entries

end

/-- Is this a dict or `None`? -/
def Json.isDictOrNull : Json → Bool
  | .null => true
  | .dict _ => true
  | _ => false

/-! ## Entries -/

/-- `AuditLogEntry`. -/
structure AuditLogEntry where
  id : String
  timestamp : Time
  actor : Option String
  actorRole : Option String
  method : String
  path : String
  statusCode : Nat
  payload : Json

/-- Does a column of this length take the text?  No text may have a NUL. -/
def fitsColumn (length : Nat) (text : Option String) : Bool :=
  text.all (fun t =>
    decide (t.length ≤ length) && decide (Char.ofNat 0 ∉ t.toList))

/-- Does the database take the texts of an entry? -/
def AuditLogEntry.fits (e : AuditLogEntry) : Bool :=
  fitsColumn 253 e.actor && fitsColumn 16 e.actorRole &&
    fitsColumn 8 (some e.method) && fitsColumn 500 (some e.path)

/-- `_AUDITED_PREFIXES`. -/
def auditedPrefixes : List String :=
  ["/api/v1/rbac", "/api/v1/users", "/api/v1/tokens", "/api/v1/cluster",
    "/api/v1/admin", "/api/v1/auth/users", "/api/v1/access-requests/policies",
    "/api/v1/permissions"]

/-- `_CLUSTER_SCOPED_PREFIXES`. -/
def clusterScopedPrefixes : List String :=
  ["/api/v1/rbac", "/api/v1/users", "/api/v1/tokens"]

/-- `_AUDITED_METHODS`. -/
def auditedMethods : List String := ["POST", "PUT", "PATCH", "DELETE"]

/-- `_REDACT_KEYS`. -/
def redactKeys : List String :=
  ["password", "token", "secret", "bind_password", "ca_data", "new_password",
    "current_password"]

/-- `text.startswith(starts)`, for a tuple. -/
def startswithAny (text : String) (starts : List String) : Bool :=
  starts.any (startswith text)

/-- `str.lower`, as far as it matters for a comparison with ASCII texts: of the
    letters outside ASCII, the Kelvin sign alone becomes an ASCII letter. -/
def lowerChar (c : Char) : Char := if c = '\u212A' then 'k' else c.toLower

@[inherit_doc lowerChar]
def lower (text : String) : String := String.ofList (text.toList.map lowerChar)

@[inherit_doc lowerChar]
def CodePoint.lower : CodePoint → CodePoint
  | .char c => .char (lowerChar c)
  | .surrogate n => .surrogate n

/-- Is the value of this key redacted? -/
def redacted (key : Str) : Bool :=
  (redactKeys.map str).contains (key.map CodePoint.lower)

/-- `_redact`, with the number of calls that the interpreter's stack still has
    room for. -/
def redact : Nat → Json → Except Exn Json
  | 0, _ => .error .recursionError
  | stack + 1, .dict entries => do
      let entries' ← entries.mapM (fun e =>
        if redacted e.1 then .ok (e.1, .str (str "***redacted***"))
        else (redact stack e.2).map (Prod.mk e.1))
      .ok (.dict entries')
  | stack + 1, .list xs => do
      let xs' ← xs.mapM (redact stack)
      .ok (.list xs')
  | _ + 1, value => .ok value

/-! ## Requests -/

/-- What the middleware reads of a request. -/
structure Request where
  method : String
  path : String
  cluster : Option String
  authorization : Option String
  body : List UInt8

/-- The claims of an access token. -/
structure TokenPayload where
  sub : Option String
  roles : String → Option String

/-- What the middleware relies on: `json.loads`, the room on the interpreter's
    stack, and `decode_token`, which answers with the claims of a valid access
    token. -/
structure AuditEnv where
  loads : List UInt8 → Except Exn Json
  recursionLimit : Nat
  decodeToken : String → Option TokenPayload

/-- `should_audit`. -/
def shouldAudit (method path : String) : Bool :=
  auditedMethods.contains method && startswithAny path auditedPrefixes

/-- The bearer token of an `Authorization` header. -/
def bearerToken (authorization : Option String) : Option String :=
  match authorization with
  | none => none
  | some header =>
      if startswith header "Bearer " then
        some (String.ofList (header.toList.drop "Bearer ".length))
      else none

/-- `_actor_from_request`. -/
def actorFromRequest (env : AuditEnv) (request : Request) :
    Option String × Option String :=
  match (bearerToken request.authorization).bind env.decodeToken with
  | none => (none, none)
  | some payload =>
      let scope := if startswithAny request.path clusterScopedPrefixes then
        request.cluster.getD localCluster else instanceScope
      (payload.sub, payload.roles scope)

/-- The payload of the entry of an audited request: a body that is not JSON
    has none, and any other exception of the parser is raised. -/
def auditPayload (env : AuditEnv) (body : List UInt8) : Except Exn Json :=
  if body = [] then .ok .null
  else
    match env.loads body with
    | .ok value => redact env.recursionLimit value
    | .error .jsonDecodeError => .ok .null
    | .error .unicodeDecodeError => .ok .null
    | .error e => .error e

/-- The responses of the registered exception handlers; FastAPI registers the
    one for `HTTPException`. -/
def registeredHandler : Exn → Option Response
  | .api e => some (k8sExceptionToHttp e)
  | .userNotFoundError username =>
      some ⟨404, .detail (Exn.userNotFoundError username).text⟩
  | .userAlreadyExistsError username =>
      some ⟨409, .detail (Exn.userAlreadyExistsError username).text⟩
  | .httpException status detail => some ⟨status, .detail detail⟩
  | _ => none

/-- An exception that is not handled ends in the server's own response. -/
theorem errorResponse_eq (e : Exn) :
    errorResponse e = (registeredHandler e).getD
      ⟨500, .detail "Internal Server Error"⟩ := by
  cases e <;> rfl

/-- `call_next`: the status of the response, when the inner application
    responds or raises an exception that has a handler. -/
def callNext (inner : Except Exn Nat) : Except Exn Nat :=
  match inner with
  | .ok status => .ok status
  | .error e =>
      match registeredHandler e with
      | some response => .ok response.status
      | none => .error e

/-- How a route ends, as the middleware sees it. -/
def innerOf (q : HttpRequest) (w : World) : Except Exn Nat :=
  (q.run w).1.map (fun _ => q.endpoint.status)

/-- `_write_entry`: the database rejects a text that is too long for its column,
    and a payload that is not valid JSON. -/
def writeEntry (entry : AuditLogEntry) (log : List AuditLogEntry) :
    Except Exn (List AuditLogEntry) :=
  if entry.fits && entry.payload.valid then .ok (log ++ [entry])
  else .error .dataError

/-- The readings that an entry takes: its id and its time. -/
structure Stamp where
  id : String
  now : Time

/-- The entry of a request. -/
def auditEntry (env : AuditEnv) (request : Request) (stamp : Stamp)
    (status : Nat) (payload : Json) : AuditLogEntry where
  id := stamp.id
  timestamp := stamp.now
  actor := (actorFromRequest env request).1
  actorRole := (actorFromRequest env request).2
  method := request.method
  path := request.path
  statusCode := status
  payload := payload

/-- `AuditLogMiddleware.dispatch`: how the request ends, and the audit log
    after it.  What the inner application does is given by how it ends. -/
def dispatch (env : AuditEnv) (request : Request) (inner : Except Exn Nat)
    (stamp : Stamp) (log : List AuditLogEntry) :
    Except Exn Nat × List AuditLogEntry :=
  if shouldAudit request.method request.path then
    match auditPayload env request.body with
    | .error e => (.error e, log)
    | .ok payload =>
        match callNext inner with
        | .error e => (.error e, log)
        | .ok status =>
            match writeEntry (auditEntry env request stamp status payload)
              log with
            | .ok log' => (.ok status, log')
            | .error _ => (.ok status, log)
  else (callNext inner, log)

/-! ## Reading the log -/

/-- `LIKE`, for the characters of a pattern and of a text. -/
def like : List Char → List Char → Bool
  | [], text => text.isEmpty
  | '%' :: pattern, text => text.tails.any (like pattern)
  | '\\' :: c :: pattern, text =>
      match text with
      | [] => false
      | d :: text => decide (d = c) && like pattern text
  | c :: pattern, text =>
      match text with
      | [] => false
      | d :: text => (decide (c = '_') || decide (d = c)) && like pattern text

/-- `column.contains(text)`; the text is not escaped. -/
def contains (column text : String) : Bool :=
  like ('%' :: text.toList ++ ['%']) column.toList

/-- `.order_by(AuditLogEntry.timestamp.desc())`. -/
abbrev NewestFirst := LatestFirst AuditLogEntry.timestamp

@[inherit_doc OrderBy.stable]
def NewestFirst.stable : NewestFirst := LatestFirst.stable _

/-- The filters of the audit log. -/
structure Filters where
  actor : Option String
  pathContains : Option String

/-- Does an entry meet the filters?  An empty text filters nothing. -/
def Filters.admits (f : Filters) (e : AuditLogEntry) : Bool :=
  (!truthy f.actor || decide (e.actor = f.actor))
    && (!truthy f.pathContains || contains e.path (f.pathContains.getD ""))

/-- The parameters of the route, in the ranges that it admits. -/
structure PageQuery extends Filters where
  limit : Nat
  offset : Nat
  limitPos : 1 ≤ limit
  limitLe : limit ≤ 200

/-- Does an entry meet the filters? -/
abbrev PageQuery.admits (q : PageQuery) : AuditLogEntry → Bool :=
  q.toFilters.admits

/-- The dict of an entry (`to_dict`). -/
structure EntryDict where
  id : String
  timestamp : String
  actor : Option String
  actorRole : Option String
  method : String
  path : String
  statusCode : Nat
  payload : Json

/-- `AuditLogEntry.to_dict`. -/
def AuditLogEntry.toDict (e : AuditLogEntry) : EntryDict :=
  ⟨e.id, String.ofList (isoformat (utc e.timestamp)), e.actor, e.actorRole,
    e.method, e.path, e.statusCode, e.payload⟩

/-- `AuditService.list_entries`: the page, and the total. -/
def AuditService.listEntries (order : NewestFirst) (limit offset : Nat)
    (f : Filters) (log : List AuditLogEntry) : List EntryDict × Nat :=
  ((((order.sort (log.filter f.admits)).drop offset).take limit).map
    AuditLogEntry.toDict, (log.filter f.admits).length)

/-- What the route asks of it. -/
abbrev listEntries (order : NewestFirst) (q : PageQuery)
    (log : List AuditLogEntry) : List EntryDict × Nat :=
  AuditService.listEntries order q.limit q.offset q.toFilters log

/-- `AuditLogEntryRead`. -/
structure AuditLogEntryRead where
  id : String
  timestamp : String
  actor : Option String
  actorRole : Option String
  method : String
  path : String
  statusCode : Nat
  payload : Option (List (Str × Json))

/-- `AuditLogPage`. -/
structure AuditLogPage where
  items : List AuditLogEntryRead
  total : Nat

/-- The field `payload: dict | None`. -/
def readPayload : Json → Except Exn (Option (List (Str × Json)))
  | .null => .ok none
  | .dict entries => .ok (some entries)
  | _ => .error .responseValidationError

/-- The validation of an entry. -/
def readEntry (d : EntryDict) : Except Exn AuditLogEntryRead :=
  (readPayload d.payload).map (fun payload =>
    ⟨d.id, d.timestamp, d.actor, d.actorRole, d.method, d.path, d.statusCode,
      payload⟩)

/-- `list_audit_log`: a page that does not fit its model is an exception. -/
def listAuditLog (order : NewestFirst) (q : PageQuery)
    (log : List AuditLogEntry) : Except Exn AuditLogPage := do
  let items ← (listEntries order q log).1.mapM readEntry
  .ok ⟨items, (listEntries order q log).2⟩

/-! ## The response -/

/-- Can a response hold the value?  Its texts are encoded, and the serializer has
    room for so many values in one another. -/
def Json.renders : Nat → Json → Bool
  | 0, _ => false
  | room + 1, .dict entries =>
      entries.all (fun e => Str.encodable e.1 && e.2.renders room)
  | room + 1, .list xs => xs.all (Json.renders room)
  | _ + 1, .str s => Str.encodable s
  | _ + 1, _ => true

/-- Can a response hold the dict of a payload? -/
def rendersDict (room : Nat) (entries : List (Str × Json)) : Bool :=
  entries.all (fun e => Str.encodable e.1 && e.2.renders room)

/-- Can a response hold the entry? -/
def AuditLogEntryRead.renders (room : Nat) (r : AuditLogEntryRead) : Bool :=
  r.payload.all (rendersDict room)

/-- `GET /api/v1/audit`, with the room that the serializer has. -/
def serveAuditLog (room : Nat) (order : NewestFirst) (q : PageQuery)
    (log : List AuditLogEntry) : Except Exn AuditLogPage := do
  let page ← listAuditLog order q log
  if page.items.all (AuditLogEntryRead.renders room) then .ok page
  else .error .serializationError

end CvAudit
