import Mathlib.Data.List.Basic

/-! # CSV texts

    The writer and the reader of comma-separated values in the dialect that
    spreadsheets use: a comma between fields, a carriage return and a line feed
    after each row, quotes around a field only where it needs them, and a quote
    inside quotes written twice.  The reader goes line by line, one character
    at a time, and keeps its state from one line to the next, so that a quoted
    field can hold the end of a line.

    It reads back whatever the writer wrote. -/

namespace CvCsv

/-! ## The writer -/

/-- Is this a character that a field needs quotes for? -/
def special (c : Char) : Bool :=
  c == ',' || c == '"' || c == '\r' || c == '\n'

/-- The characters of a field between quotes. -/
def doubled : List Char → List Char
  | [] => []
  | c :: cs => if c = '"' then '"' :: '"' :: doubled cs else c :: doubled cs

/-- A field, with quotes where it needs them. -/
def writeField (field : List Char) : List Char :=
  if field.any special then '"' :: (doubled field ++ ['"']) else field

/-- Fields with commas between them. -/
def joinFields : List (List Char) → List Char
  | [] => []
  | [field] => writeField field
  | field :: fields => writeField field ++ ',' :: joinFields fields

/-- A row.  A single empty field is quoted: its row would be no row. -/
def writeRow (row : List (List Char)) : List Char :=
  (if row = [[]] then ['"', '"'] else joinFields row) ++ ['\r', '\n']

/-- The rows, one after the other. -/
def writeRows (rows : List (List (List Char))) : List Char :=
  rows.flatMap writeRow

/-! ## The reader -/

/-- Where the reader stands. -/
inductive ReadState where
  | startRecord
  | startField
  | inField
  | inQuotedField
  | quoteInQuotedField
  | eatCrnl
deriving DecidableEq, Repr

/-- The reader: its state, the field and the row that it is in, and the rows
    that it has returned. -/
structure Reader where
  state : ReadState
  field : List Char
  fields : List (List Char)
  records : List (List (List Char))
deriving DecidableEq, Repr

/-- A reader before the first line. -/
def Reader.start : Reader := ⟨.startRecord, [], [], []⟩

/-- A reader that stands before a row. -/
def Reader.between (records : List (List (List Char))) : Reader :=
  ⟨.startRecord, [], [], records⟩

/-- Put a character into the field. -/
def Reader.add (c : Char) (state : ReadState) (r : Reader) : Reader :=
  { r with state := state, field := r.field ++ [c] }

/-- The field is complete. -/
def Reader.save (state : ReadState) (r : Reader) : Reader :=
  { r with state := state, field := [], fields := r.fields ++ [r.field] }

/-- One character.  `none` is the answer to a character behind the end of a
    row on the same line. -/
def Reader.char (c : Char) (r : Reader) : Option Reader :=
  match r.state with
  | .startRecord | .startField =>
      if c = '\n' ∨ c = '\r' then
        if r.state = .startRecord then some { r with state := .eatCrnl }
        else some (r.save .eatCrnl)
      else if c = '"' then some { r with state := .inQuotedField }
      else if c = ',' then some (r.save .startField)
      else some (r.add c .inField)
  | .inField =>
      if c = '\n' ∨ c = '\r' then some (r.save .eatCrnl)
      else if c = ',' then some (r.save .startField)
      else some (r.add c .inField)
  | .inQuotedField =>
      if c = '"' then some { r with state := .quoteInQuotedField }
      else some (r.add c .inQuotedField)
  | .quoteInQuotedField =>
      if c = '"' then some (r.add c .inQuotedField)
      else if c = ',' then some (r.save .startField)
      else if c = '\n' ∨ c = '\r' then some (r.save .eatCrnl)
      else some (r.add c .inField)
  | .eatCrnl => if c = '\n' ∨ c = '\r' then some r else none

/-- The row is complete. -/
def Reader.finish (r : Reader) : Reader :=
  .between (r.records ++ [r.fields])

/-- The end of a line: it ends the row, unless a quoted field is open. -/
def Reader.endLine (r : Reader) : Reader :=
  match r.state with
  | .startRecord | .eatCrnl => r.finish
  | .inQuotedField => r
  | _ => (r.save .startRecord).finish

/-- Does a line end behind this character? -/
def endsLine (c : Char) (rest : List Char) : Bool :=
  c == '\n' || (c == '\r' && rest.head? != some '\n')

/-- The characters of a text, with the ends of its lines. -/
def Reader.run : List Char → Reader → Option Reader
  | [], r => some r
  | c :: cs, r => do
      let r' ← r.char c
      Reader.run cs (if endsLine c cs then r'.endLine else r')

/-- The end of the text: a last line may lack its end, and a quoted field its
    quote. -/
def Reader.stop (r : Reader) : List (List (List Char)) :=
  match r.state with
  | .startRecord => r.records
  | .inQuotedField => r.records ++ [r.fields ++ [r.field]]
  | _ => r.endLine.records

/-- The rows of a text. -/
def readRows (text : List Char) : Option (List (List (List Char))) :=
  (Reader.start.run text).map Reader.stop

/-! ## Reading what was written -/

theorem special_eq_false {c : Char} (h : special c = false) :
    c ≠ ',' ∧ c ≠ '"' ∧ c ≠ '\r' ∧ c ≠ '\n' := by
  simpa [special, not_or, and_assoc] using h

theorem endsLine_of_not_special {c : Char} (h : special c = false)
    (rest : List Char) : endsLine c rest = false := by
  obtain ⟨-, -, hcr, hlf⟩ := special_eq_false h
  simp [endsLine, hcr, hlf]

@[simp] theorem endsLine_comma (rest : List Char) :
    endsLine ',' rest = false := rfl

@[simp] theorem endsLine_quote (rest : List Char) :
    endsLine '"' rest = false := rfl

@[simp] theorem endsLine_cr_lf (rest : List Char) :
    endsLine '\r' ('\n' :: rest) = false := rfl

@[simp] theorem endsLine_lf (rest : List Char) :
    endsLine '\n' rest = true := rfl

variable {fields : List (List Char)} {records : List (List (List Char))}

/-- Between quotes a field is read up to the quote that closes it, ends of
    lines included. -/
theorem run_doubled (text field rest : List Char) :
    Reader.run (doubled text ++ rest)
        ⟨.inQuotedField, field, fields, records⟩
      = Reader.run rest ⟨.inQuotedField, field ++ text, fields, records⟩ := by
  induction text generalizing field with
  | nil => rw [doubled, List.nil_append, List.append_nil]
  | cons c cs ih =>
      have hcons : field ++ c :: cs = (field ++ [c]) ++ cs := by simp
      rw [doubled, hcons, ← ih (field ++ [c])]
      by_cases hc : c = '"'
      · subst hc
        rw [if_pos rfl]
        rfl
      · rw [if_neg hc, List.cons_append]
        have hchar : Reader.char c ⟨.inQuotedField, field, fields, records⟩
            = some ⟨.inQuotedField, field ++ [c], fields, records⟩ :=
          if_neg hc
        rw [Reader.run, hchar]
        show Reader.run _ (if _ then _ else _) = _
        -- the end of a line changes nothing inside quotes
        rw [show Reader.endLine
          ⟨.inQuotedField, field ++ [c], fields, records⟩
            = ⟨.inQuotedField, field ++ [c], fields, records⟩ from rfl, ite_self]

/-- Outside quotes a field is read up to the first special character. -/
theorem run_plain {text : List Char} (htext : text.any special = false)
    (field rest : List Char) :
    Reader.run (text ++ rest) ⟨.inField, field, fields, records⟩
      = Reader.run rest ⟨.inField, field ++ text, fields, records⟩ := by
  induction text generalizing field with
  | nil => rw [List.nil_append, List.append_nil]
  | cons c cs ih =>
      rw [List.any_cons, Bool.or_eq_false_iff] at htext
      obtain ⟨hc, hcs⟩ := htext
      obtain ⟨hcomma, -, hcr, hlf⟩ := special_eq_false hc
      have hchar : Reader.char c ⟨.inField, field, fields, records⟩
          = some ⟨.inField, field ++ [c], fields, records⟩ := by
        simp [Reader.char, Reader.add, hcomma, hcr, hlf]
      have hcons : field ++ c :: cs = (field ++ [c]) ++ cs := by simp
      rw [hcons, ← ih hcs (field ++ [c]), List.cons_append, Reader.run, hchar]
      show Reader.run _ (if _ then _ else _) = _
      rw [endsLine_of_not_special hc, if_neg Bool.false_ne_true]

/-- A reader that has read a field and not yet what closes it. -/
inductive Holding (field : List Char) (fields : List (List Char))
    (records : List (List (List Char))) : Reader → Prop where
  | plain : Holding field fields records ⟨.inField, field, fields, records⟩
  | quoted :
      Holding field fields records ⟨.quoteInQuotedField, field, fields, records⟩
  | empty (h : field = []) :
      Holding field fields records ⟨.startField, [], fields, records⟩

/-- A reader that stands before a field. -/
structure Before (fields : List (List Char))
    (records : List (List (List Char))) (r : Reader) : Prop where
  field : r.field = []
  fields_eq : r.fields = fields
  records_eq : r.records = records
  state : r.state = .startField ∨ r.state = .startRecord

/-- Behind a field that it wrote the writer finds the reader holding it. -/
theorem run_writeField {r : Reader} (hr : Before fields records r)
    {field : List Char} (hempty : field = [] → r.state = .startField)
    (rest : List Char) :
    ∃ r', Holding field fields records r' ∧
      Reader.run (writeField field ++ rest) r = Reader.run rest r' := by
  obtain ⟨state, f, fs, rs⟩ := r
  obtain ⟨hf, hfs, hrs, hstate⟩ := hr
  dsimp only at hf hfs hrs hstate hempty
  subst hf hfs hrs
  rw [writeField]
  by_cases hspecial : field.any special = true
  · rw [if_pos hspecial, List.cons_append, List.append_assoc, Reader.run]
    have hopen : Reader.char '"' ⟨state, [], fs, rs⟩
        = some ⟨.inQuotedField, [], fs, rs⟩ := by
      rcases hstate with rfl | rfl <;> rfl
    rw [hopen]
    refine ⟨_, .quoted, ?_⟩
    show Reader.run _ (if _ then _ else _) = _
    rw [endsLine_quote, if_neg Bool.false_ne_true, run_doubled]
    rfl
  · rw [if_neg hspecial]
    cases field with
    | nil =>
        obtain rfl := hempty rfl
        exact ⟨_, .empty rfl, rfl⟩
    | cons c cs =>
        rw [Bool.not_eq_true, List.any_cons, Bool.or_eq_false_iff] at hspecial
        obtain ⟨hc, hcs⟩ := hspecial
        obtain ⟨hcomma, hquote, hcr, hlf⟩ := special_eq_false hc
        have hchar : Reader.char c ⟨state, [], fs, rs⟩
            = some ⟨.inField, [c], fs, rs⟩ := by
          rcases hstate with rfl | rfl <;>
            simp [Reader.char, Reader.add, hcomma, hquote, hcr, hlf]
        refine ⟨_, .plain, ?_⟩
        rw [List.cons_append, Reader.run, hchar]
        show Reader.run _ (if _ then _ else _) = _
        rw [endsLine_of_not_special hc, if_neg Bool.false_ne_true,
          run_plain hcs]
        rfl

/-- A comma closes the field that the reader holds. -/
theorem Holding.comma {field : List Char} {r : Reader}
    (h : Holding field fields records r) (rest : List Char) :
    Reader.run (',' :: rest) r
      = Reader.run rest ⟨.startField, [], fields ++ [field], records⟩ := by
  cases h with
  | plain => rfl
  | quoted => rfl
  | empty hfield =>
      subst hfield
      rfl

/-- The end of the line closes the field and the row. -/
theorem Holding.crlf {field : List Char} {r : Reader}
    (h : Holding field fields records r) (rest : List Char) :
    Reader.run ('\r' :: '\n' :: rest) r
      = Reader.run rest (.between (records ++ [fields ++ [field]])) := by
  cases h with
  | plain => rfl
  | quoted => rfl
  | empty hfield =>
      subst hfield
      rfl

/-- A field and the comma behind it. -/
theorem run_field_comma {r : Reader} (hr : Before fields records r)
    (field rest : List Char) :
    Reader.run (writeField field ++ ',' :: rest) r
      = Reader.run rest ⟨.startField, [], fields ++ [field], records⟩ := by
  by_cases hfield : field = []
  · -- the comma of an empty field may be the first character of a row
    subst hfield
    obtain ⟨state, f, fs, rs⟩ := r
    obtain ⟨rfl, rfl, rfl, hstate⟩ := hr
    rcases hstate with rfl | rfl <;> rfl
  · obtain ⟨r', hheld, hrun⟩ := run_writeField hr
      (fun h => absurd h hfield) (',' :: rest)
    rw [hrun, hheld.comma]

/-- The rest of a row, from its next field on. -/
theorem run_joinFields (row : List (List Char)) :
    ∀ {fields : List (List Char)} {r : Reader}, Before fields records r →
      row ≠ [] → (row = [[]] → r.state = .startField) → ∀ rest : List Char,
      Reader.run (joinFields row ++ '\r' :: '\n' :: rest) r
        = Reader.run rest (.between (records ++ [fields ++ row])) := by
  induction row with
  | nil => exact fun _ hne => absurd rfl hne
  | cons field row ih =>
      intro fields r hr _ hempty rest
      cases row with
      | nil =>
          have hfield : field = [] → r.state = .startField :=
            fun h => hempty (congrArg (fun f => [f]) h)
          obtain ⟨r', hheld, hrun⟩ := run_writeField hr hfield
            ('\r' :: '\n' :: rest)
          rw [joinFields, hrun, hheld.crlf]
      | cons next row =>
          have hnext : Before (fields ++ [field]) records
              ⟨.startField, [], fields ++ [field], records⟩ :=
            ⟨rfl, rfl, rfl, Or.inl rfl⟩
          have hjoin : joinFields (field :: next :: row)
              = writeField field ++ ',' :: joinFields (next :: row) := rfl
          rw [hjoin, List.append_assoc, List.cons_append,
            run_field_comma hr, ih hnext (List.cons_ne_nil _ _) (fun _ => rfl)]
          rw [List.append_assoc, List.singleton_append]

/-- A row, and the reader before the next one. -/
theorem run_writeRow (row : List (List Char)) (rest : List Char) :
    Reader.run (writeRow row ++ rest) (.between records)
      = Reader.run rest (.between (records ++ [row])) := by
  have hbefore : Before [] records (.between records) :=
    ⟨rfl, rfl, rfl, Or.inr rfl⟩
  rw [writeRow, List.append_assoc]
  by_cases hsingle : row = [[]]
  · subst hsingle
    rw [if_pos rfl]
    rfl
  · rw [if_neg hsingle]
    cases row with
    | nil => rfl
    | cons field row =>
        exact run_joinFields (field :: row) hbefore (List.cons_ne_nil _ _)
          (fun h => absurd h hsingle) rest

theorem run_writeRows (rows : List (List (List Char))) :
    ∀ records : List (List (List Char)),
      Reader.run (writeRows rows) (.between records)
        = some (.between (records ++ rows)) := by
  induction rows with
  | nil =>
      intro records
      rw [List.append_nil]
      rfl
  | cons row rows ih =>
      intro records
      rw [writeRows, List.flatMap_cons, run_writeRow]
      exact (ih _).trans (by rw [List.append_assoc, List.singleton_append])

/-- **The reader reads the rows that were written**, whatever is in their
    fields. -/
theorem readRows_writeRows (rows : List (List (List Char))) :
    readRows (writeRows rows) = some rows := by
  rw [readRows, show Reader.start = .between [] from rfl, run_writeRows]
  rfl

/-- A row that holds commas, quotes and the end of a line. -/
example : readRows (writeRows [["a,b".toList, "say \"no\"\r\n".toList, []]])
    = some [["a,b".toList, "say \"no\"\r\n".toList, []]] := by decide

end CvCsv
