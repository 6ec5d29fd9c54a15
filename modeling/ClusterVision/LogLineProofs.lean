import ClusterVision.JsonTextProofs
import ClusterVision.IsoTimeProofs
import Mathlib.Data.List.Forall2

/-! # The log of the process

    `core/logging_config.py` writes every record as one JSON object on a line
    of its own, and `core/access_log_middleware.py` logs every response through
    it.  Paths and other texts of a request come from outside, with line ends
    and quotes as well.  Whoever reads the log line by line gets the records
    back nevertheless, one object for each, with what the formatter is for
    under its four keys. -/

namespace CvLog

open CvIso CvJson

/-! ## The formatter -/

/-- `_STANDARD_ATTRS`: the attributes of a record without extra fields, and
    that of uvicorn. -/
def standardAttrs : List String :=
  ["name", "msg", "args", "levelname", "levelno", "pathname", "filename",
    "module", "exc_info", "exc_text", "stack_info", "lineno", "funcName",
    "created", "msecs", "relativeCreated", "thread", "threadName",
    "processName", "process", "taskName", "color_message"]

/-- A `dict`, in the order of its keys. -/
abbrev Payload := List (String × Value)

/-- A `LogRecord`: what `getMessage` and `formatException` give, and its
    `__dict__`.  An object that JSON has no value for stands as the string that
    `default=str` makes of it. -/
structure LogRecord where
  created : Time
  levelname : String
  name : String
  message : String
  attributes : Payload
  excInfo : Option String

/-- A text as a value. -/
def text (s : String) : Value := .str s.toList

/-- The time of a record in UTC, up to its milliseconds.  The offset `+00:00`
    is the end of the text, which `replace` makes a `Z`. -/
def timestamp (t : Time) : String :=
  String.ofList (pad 4 t.year ++ '-' :: (pad 2 t.month ++ '-' ::
    (pad 2 t.day ++ 'T' :: (pad 2 t.hour ++ ':' :: (pad 2 t.minute ++ ':' ::
      (pad 2 t.second ++ '.' :: (pad 3 (t.microsecond / 1000) ++ ['Z'])))))))

/-- The entries that every payload begins with. -/
def header (r : LogRecord) : Payload :=
  [("timestamp", text (timestamp r.created)), ("level", text r.levelname),
    ("logger", text r.name), ("message", text r.message)]

/-- One step of the loop over the attributes. -/
def addExtra (payload : Payload) (entry : String × Value) : Payload :=
  if entry.1 ∉ standardAttrs ∧ entry.1 ∉ payload.map Prod.fst then
    payload ++ [entry]
  else payload

/-- `payload[key] = value`. -/
def setEntry (key : String) (value : Value) : Payload → Payload
  | [] => [(key, value)]
  | entry :: payload =>
      if entry.1 = key then (key, value) :: payload
      else entry :: setEntry key value payload

/-- The payload of a record. -/
def payload (r : LogRecord) : Payload :=
  let entries := r.attributes.foldl addExtra (header r)
  match r.excInfo with
  | none => entries
  | some exception => setEntry "exception" (text exception) entries

/-- The object of a record. -/
def object (r : LogRecord) : Value :=
  .dict ((payload r).map (fun entry => (entry.1.toList, entry.2)))

/-- `JsonFormatter.format`. -/
def format (r : LogRecord) : List Char := write (object r)

/-- What a stream handler with the formatter has written. -/
def logText (records : List LogRecord) : List Char :=
  records.flatMap (fun r => format r ++ ['\n'])

/-! ## What a payload shows -/

/-- The value under a key. -/
def lookup (key : String) (entries : Payload) : Option Value :=
  (entries.find? (fun entry => decide (entry.1 = key))).map Prod.snd

/-- The value under a key of an object. -/
def entryOf (key : String) : Value → Option Value
  | .dict entries =>
      (entries.find? (fun entry => decide (entry.1 = key.toList))).map Prod.snd
  | _ => none

theorem lookup_cons_self {key : String} {entry : String × Value}
    (h : entry.1 = key) (entries : Payload) :
    lookup key (entry :: entries) = some entry.2 := by
  simp [lookup, h]

theorem lookup_cons_ne {key : String} {entry : String × Value}
    (h : entry.1 ≠ key) (entries : Payload) :
    lookup key (entry :: entries) = lookup key entries := by
  simp [lookup, h]

theorem lookup_append (key : String) (xs ys : Payload) :
    lookup key (xs ++ ys) = (lookup key xs).or (lookup key ys) := by
  rw [lookup, List.find?_append]
  cases hx : xs.find? (fun entry => decide (entry.1 = key)) with
  | none =>
      rw [lookup, hx]
      rfl
  | some entry =>
      rw [lookup, hx]
      rfl

theorem lookup_eq_none_iff {key : String} {entries : Payload} :
    lookup key entries = none ↔ key ∉ entries.map Prod.fst := by
  rw [lookup, Option.map_eq_none_iff, List.find?_eq_none]
  constructor
  · intro h hmem
    obtain ⟨entry, hentry, rfl⟩ := List.mem_map.mp hmem
    exact h entry hentry (decide_eq_true rfl)
  · intro h entry hentry hkey
    rw [← of_decide_eq_true hkey] at h
    exact h (List.mem_map_of_mem hentry)

/-- A step of the loop shows the attribute under a key that is free. -/
theorem lookup_addExtra (key : String) (payload : Payload)
    (entry : String × Value) :
    lookup key (addExtra payload entry) = (lookup key payload).or
      (if key ∈ standardAttrs then none else lookup key [entry]) := by
  rw [addExtra]
  by_cases hkey : entry.1 = key
  · have hself : lookup key [entry] = some entry.2 :=
      lookup_cons_self hkey []
    rw [hself, hkey]
    by_cases hstandard : key ∈ standardAttrs
    · rw [if_neg (fun h => h.1 hstandard), if_pos hstandard, Option.or_none]
    · rw [if_neg hstandard]
      by_cases hmem : key ∈ payload.map Prod.fst
      · rw [if_neg (fun h => h.2 hmem)]
        cases hlookup : lookup key payload with
        | none => exact absurd hmem (lookup_eq_none_iff.mp hlookup)
        | some value => rfl
      · rw [if_pos ⟨hstandard, hmem⟩, lookup_append, hself]
  · have hother : lookup key [entry] = none := lookup_cons_ne hkey []
    rw [hother, ite_self, Option.or_none]
    split
    · rw [lookup_append, hother, Option.or_none]
    · rfl

/-- The loop shows the attributes that are not standard, under keys that are
    free. -/
theorem lookup_foldl_addExtra (key : String) (attributes : Payload) :
    ∀ payload : Payload,
      lookup key (attributes.foldl addExtra payload) = (lookup key payload).or
        (if key ∈ standardAttrs then none else lookup key attributes) := by
  induction attributes with
  | nil =>
      intro payload
      have hnil : lookup key [] = none := rfl
      rw [hnil, ite_self, Option.or_none]
      rfl
  | cons entry attributes ih =>
      intro payload
      have hcons : lookup key (entry :: attributes)
          = (lookup key [entry]).or (lookup key attributes) :=
        lookup_append key [entry] attributes
      rw [List.foldl_cons, ih, lookup_addExtra, Option.or_assoc, hcons]
      by_cases hstandard : key ∈ standardAttrs
      · rw [if_pos hstandard, if_pos hstandard, if_pos hstandard]
        rfl
      · rw [if_neg hstandard, if_neg hstandard, if_neg hstandard]

theorem lookup_setEntry (key key' : String) (value : Value)
    (entries : Payload) :
    lookup key (setEntry key' value entries)
      = if key = key' then some value else lookup key entries := by
  induction entries with
  | nil =>
      rw [setEntry]
      by_cases hkey : key = key'
      · rw [if_pos hkey, lookup_cons_self hkey.symm]
      · rw [if_neg hkey, lookup_cons_ne (fun h => hkey h.symm)]
  | cons entry entries ih =>
      rw [setEntry]
      by_cases hentry : entry.1 = key'
      · rw [if_pos hentry]
        by_cases hkey : key = key'
        · rw [if_pos hkey, lookup_cons_self hkey.symm]
        · have hne : entry.1 ≠ key := by
            rw [hentry]
            exact fun h => hkey h.symm
          rw [if_neg hkey, lookup_cons_ne (fun h => hkey h.symm),
            lookup_cons_ne hne]
      · rw [if_neg hentry]
        by_cases hkey : entry.1 = key
        · have hne : key ≠ key' := by
            rw [← hkey]
            exact hentry
          rw [lookup_cons_self hkey, lookup_cons_self hkey, if_neg hne]
        · rw [lookup_cons_ne hkey, lookup_cons_ne hkey, ih]

/-- What the object of a record has under a key: the four fields of every
    record, the exception, and the other attributes that are not standard. -/
def shown (r : LogRecord) (key : String) : Option Value :=
  if key = "timestamp" then some (text (timestamp r.created))
  else if key = "level" then some (text r.levelname)
  else if key = "logger" then some (text r.name)
  else if key = "message" then some (text r.message)
  else if key = "exception" ∧ r.excInfo ≠ none then r.excInfo.map text
  else if key ∈ standardAttrs then none
  else lookup key r.attributes

theorem lookup_header (r : LogRecord) (key : String) :
    lookup key (header r)
      = if key = "timestamp" then some (text (timestamp r.created))
        else if key = "level" then some (text r.levelname)
        else if key = "logger" then some (text r.name)
        else if key = "message" then some (text r.message)
        else none := by
  rw [header]
  split_ifs with htime hlevel hlogger hmessage
  · rw [lookup_cons_self htime.symm]
  · rw [lookup_cons_ne (fun h => htime h.symm),
      lookup_cons_self hlevel.symm]
  · rw [lookup_cons_ne (fun h => htime h.symm),
      lookup_cons_ne (fun h => hlevel h.symm), lookup_cons_self hlogger.symm]
  · rw [lookup_cons_ne (fun h => htime h.symm),
      lookup_cons_ne (fun h => hlevel h.symm),
      lookup_cons_ne (fun h => hlogger h.symm),
      lookup_cons_self hmessage.symm]
  · rw [lookup_cons_ne (fun h => htime h.symm),
      lookup_cons_ne (fun h => hlevel h.symm),
      lookup_cons_ne (fun h => hlogger h.symm),
      lookup_cons_ne (fun h => hmessage h.symm)]
    rfl

/-- The payload shows exactly that. -/
theorem lookup_payload (r : LogRecord) (key : String) :
    lookup key (payload r) = shown r key := by
  have hentries := lookup_foldl_addExtra key r.attributes (header r)
  rw [lookup_header] at hentries
  rw [payload, shown]
  cases hexc : r.excInfo with
  | none =>
      rw [hentries]
      split_ifs <;> simp_all
  | some exception =>
      rw [lookup_setEntry, hentries]
      split_ifs <;> simp_all

/-- So does its object. -/
theorem entryOf_object (r : LogRecord) (key : String) :
    entryOf key (object r) = shown r key := by
  rw [← lookup_payload, lookup, object, entryOf, List.find?_map,
    Option.map_map]
  have hkeys : (fun entry : List Char × Value => decide (entry.1 = key.toList))
      ∘ (fun entry : String × Value => (entry.1.toList, entry.2))
      = fun entry => decide (entry.1 = key) := by
    funext entry
    exact decide_eq_decide.mpr String.toList_inj
  rw [hkeys]
  rfl

/-! ## Reading the log -/

/-- The lines of a log are its objects. -/
theorem readLines_logText (records : List LogRecord) :
    readLines (logText records) = some (records.map object) := by
  have htext : logText records = writeLines (records.map object) := by
    rw [logText, writeLines, List.flatMap_map]
    rfl
  rw [htext, readLines_writeLines]

/-- **The log is read back**: whatever texts the records hold, their lines give
    one object for each record, in order, that shows what the record is. -/
theorem log_reads_back (records : List LogRecord) :
    ∃ objects, readLines (logText records) = some objects ∧
      List.Forall₂ (fun r x => ∀ key, entryOf key x = shown r key) records
        objects := by
  refine ⟨records.map object, readLines_logText records, ?_⟩
  rw [List.forall₂_map_right_iff]
  exact List.forall₂_same.mpr (fun r _ => entryOf_object r)

end CvLog
