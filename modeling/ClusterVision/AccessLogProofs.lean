import ClusterVision.LogLineProofs

/-! # The access log

    `core/access_log_middleware.py` logs one record for every response, and
    every other part of the process logs into the same stream.  The log is
    still a faithful account of the traffic: its access lines are the answered
    requests, in order, and no path or cluster name can add a line or change
    one. -/

namespace CvLog

open CvIso CvJson

/-! ## The middleware -/

/-- What the middleware reads of a request.  The cluster is the query
    parameter, empty where there is none. -/
structure Request where
  method : String
  path : String
  cluster : String
  client : Option String

/-- What it reads of a response, with the milliseconds until it came: rounded,
    and as the message prints them. -/
structure Response where
  status : Nat
  duration : Number
  durationText : String

/-- What `makeRecord` adds by itself. -/
structure Stamp where
  created : Time
  attributes : Payload
  standard : ∀ entry ∈ attributes, entry.1 ∈ standardAttrs

/-- The text of the access line. -/
def accessMessage (request : Request) (response : Response) : String :=
  request.method ++ " " ++ request.path
    ++ (if request.cluster = "" then ""
      else " [cluster=" ++ request.cluster ++ "]")
    ++ " -> " ++ toString response.status
    ++ " (" ++ response.durationText ++ "ms)"

/-- The host of the client, or `None`. -/
def clientValue (request : Request) : Value :=
  match request.client with
  | none => .null
  | some host => text host

/-- The `extra` of the access line. -/
def accessExtra (request : Request) (response : Response) : Payload :=
  [("http_method", text request.method), ("http_path", text request.path),
    ("http_status", .num (Number.ofNat response.status)),
    ("duration_ms", .num response.duration),
    ("client_ip", clientValue request)]
    ++ if request.cluster = "" then [] else [("cluster", text request.cluster)]

/-- The record that `logger.info` makes. -/
def accessRecord (request : Request) (response : Response) (stamp : Stamp) :
    LogRecord where
  created := stamp.created
  levelname := "INFO"
  name := "app.access"
  message := accessMessage request response
  attributes := stamp.attributes ++ accessExtra request response
  excInfo := none

/-- `AccessLogMiddleware.dispatch`: the records of one call.  A request whose
    handler raises has none. -/
def dispatch (request : Request) (response : Option Response)
    (stamp : Stamp) : List LogRecord :=
  match response with
  | none => []
  | some answer => [accessRecord request answer stamp]

/-- What logs: a call of the middleware, or anything else under a name of its
    own. -/
inductive Event where
  | dispatch (request : Request) (response : Option Response) (stamp : Stamp)
  | other (record : LogRecord) (named : record.name ≠ "app.access")

/-- The records of an event. -/
def Event.records : Event → List LogRecord
  | .dispatch request response stamp => CvLog.dispatch request response stamp
  | .other record _ => [record]

/-- The answer of an event, if it is one. -/
def Event.answer : Event → Option (Request × Response)
  | .dispatch request response _ => response.map (fun r => (request, r))
  | .other _ _ => none

/-! ## What a line shows -/

/-- Whether a line is an access line. -/
def isAccess (x : Value) : Bool :=
  match entryOf "logger" x with
  | some (.str name) => decide (name = "app.access".toList)
  | _ => false

/-- The line shows the answer. -/
structure Shows (answer : Request × Response) (x : Value) : Prop where
  method : entryOf "http_method" x = some (text answer.1.method)
  path : entryOf "http_path" x = some (text answer.1.path)
  status : entryOf "http_status" x
    = some (.num (Number.ofNat answer.2.status))
  duration : entryOf "duration_ms" x = some (.num answer.2.duration)
  client : entryOf "client_ip" x = some (clientValue answer.1)
  cluster : entryOf "cluster" x
    = if answer.1.cluster = "" then none else some (text answer.1.cluster)

/-- A record shows a field of its own unless the formatter has one of that
    name. -/
theorem shown_extra {r : LogRecord} {key : String}
    (hkey : key ∉ ["timestamp", "level", "logger", "message", "exception"])
    (hstandard : key ∉ standardAttrs) :
    shown r key = lookup key r.attributes := by
  rw [List.mem_cons, List.mem_cons, List.mem_cons, List.mem_cons,
    List.mem_cons] at hkey
  push Not at hkey
  obtain ⟨htime, hlevel, hlogger, hmessage, hexception, -⟩ := hkey
  rw [shown, if_neg htime, if_neg hlevel, if_neg hlogger, if_neg hmessage,
    if_neg (fun h => hexception h.1), if_neg hstandard]

/-- The standard attributes hide no field. -/
theorem Stamp.lookup_append (stamp : Stamp) {key : String}
    (hkey : key ∉ standardAttrs) (entries : Payload) :
    lookup key (stamp.attributes ++ entries) = lookup key entries := by
  have hnone : lookup key stamp.attributes = none := by
    rw [lookup_eq_none_iff]
    intro hmem
    obtain ⟨entry, hentry, rfl⟩ := List.mem_map.mp hmem
    exact hkey (stamp.standard entry hentry)
  rw [CvLog.lookup_append, hnone, Option.none_or]

theorem isAccess_object (r : LogRecord) :
    isAccess (object r) = decide (r.name = "app.access") := by
  have hlogger : entryOf "logger" (object r) = some (text r.name) :=
    entryOf_object r "logger"
  rw [isAccess, hlogger]
  exact decide_eq_decide.mpr String.toList_inj

/-- The line of an answer shows it. -/
theorem shows_object (request : Request) (response : Response)
    (stamp : Stamp) :
    Shows (request, response) (object (accessRecord request response stamp)) := by
  have hfields : ∀ key,
      key ∉ ["timestamp", "level", "logger", "message", "exception"] →
      key ∉ standardAttrs →
      entryOf key (object (accessRecord request response stamp))
        = lookup key (accessExtra request response) := by
    intro key hkey hstandard
    rw [entryOf_object, shown_extra hkey hstandard]
    exact stamp.lookup_append hstandard _
  constructor
  · exact hfields "http_method" (by decide) (by decide)
  · exact hfields "http_path" (by decide) (by decide)
  · exact hfields "http_status" (by decide) (by decide)
  · exact hfields "duration_ms" (by decide) (by decide)
  · exact hfields "client_ip" (by decide) (by decide)
  · rw [hfields "cluster" (by decide) (by decide), accessExtra]
    by_cases hcluster : request.cluster = ""
    · rw [if_pos hcluster, if_pos hcluster]
      rfl
    · rw [if_neg hcluster, if_neg hcluster]
      rfl

/-! ## The log -/

/-- The access lines of one event show its answer. -/
theorem shows_event (event : Event) :
    List.Forall₂ Shows event.answer.toList
      ((event.records.map object).filter isAccess) := by
  cases event with
  | dispatch request response stamp =>
      cases response with
      | none => exact List.Forall₂.nil
      | some answer =>
          rw [Event.records, dispatch, List.map_singleton,
            List.filter_cons_of_pos]
          · exact List.Forall₂.cons
              (shows_object request answer stamp) List.Forall₂.nil
          · rw [isAccess_object]
            exact decide_eq_true rfl
  | other record named =>
      rw [Event.records, List.map_singleton, List.filter_cons_of_neg]
      · exact List.Forall₂.nil
      · rw [isAccess_object]
        exact fun h => named (of_decide_eq_true h)

/-- **The access log tells the traffic**: whatever else is logged and whatever
    the requests contain, the log reads back, and its access lines are the
    answered requests in order. -/
theorem access_log_reads_back (events : List Event) :
    ∃ objects, readLines (logText (events.flatMap Event.records))
        = some objects ∧
      List.Forall₂ Shows (events.filterMap Event.answer)
        (objects.filter isAccess) := by
  refine ⟨(events.flatMap Event.records).map object, readLines_logText _, ?_⟩
  induction events with
  | nil => exact List.Forall₂.nil
  | cons event events ih =>
      have hanswers : (event :: events).filterMap Event.answer
          = event.answer.toList ++ events.filterMap Event.answer := by
        cases hanswer : event.answer with
        | none => rw [List.filterMap_cons_none hanswer]; rfl
        | some answer => rw [List.filterMap_cons_some hanswer]; rfl
      rw [hanswers, List.flatMap_cons, List.map_append, List.filter_append]
      exact List.rel_append (shows_event event) ih

end CvLog
