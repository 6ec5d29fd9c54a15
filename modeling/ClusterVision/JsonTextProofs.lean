import Mathlib.Data.List.Basic
import Mathlib.Data.List.TakeWhile
import Mathlib.Data.Char
import Mathlib.Tactic.SplitIfs

/-! # JSON texts

    The writer and a reader of JSON.  The writer keeps to printable ASCII: what
    is no plain character of a string is written as an escape, those beyond the
    basic plane as a pair of surrogates.  The reader takes any JSON text, with
    white space between its tokens and characters written in any of the ways
    that the format has; a string is read as UTF-16 units first, and the units
    are put together then.

    What the writer wrote is read back, whatever follows it, and holds no
    control character, so it is one line. -/

namespace CvJson

/-! ## Values -/

/-- A character of a number. -/
def numberChar (c : Char) : Bool :=
  c.isDigit || c == '-' || c == '+' || c == '.' || c == 'e' || c == 'E'

/-- Digits, at least one, and nothing else. -/
def isDigits : List Char → Bool
  | [] => false
  | c :: cs => c.isDigit && cs.all Char.isDigit

/-- An exponent, or the end of the number. -/
def isExponent : List Char → Bool
  | [] => true
  | e :: '+' :: cs => (e == 'e' || e == 'E') && isDigits cs
  | e :: '-' :: cs => (e == 'e' || e == 'E') && isDigits cs
  | e :: cs => (e == 'e' || e == 'E') && isDigits cs

/-- What follows the digits before the point. -/
def isFraction : List Char → Bool
  | '.' :: c :: cs => c.isDigit && isExponent (cs.dropWhile Char.isDigit)
  | cs => isExponent cs

/-- A number without its sign: no zero in front of other digits. -/
def isUnsigned : List Char → Bool
  | '0' :: cs => isFraction cs
  | c :: cs => c.isDigit && isFraction (cs.dropWhile Char.isDigit)
  | [] => false

/-- Is this the text of a number? -/
def isNumber (text : List Char) : Bool :=
  text.all numberChar &&
    match text with
    | '-' :: cs => isUnsigned cs
    | cs => isUnsigned cs

/-- A number, as it is written. -/
structure Number where
  text : List Char
  isNumber : isNumber text = true
deriving DecidableEq

/-- JSON values.  The entries of an object keep their order. -/
inductive Value where
  | null
  | bool (b : Bool)
  | num (n : Number)
  | str (s : List Char)
  | list (xs : List Value)
  | dict (entries : List (List Char × Value))

/-! ## The writer -/

/-- The UTF-16 units of a character. -/
def utf16 (c : Char) : List Nat :=
  if c.toNat < 0x10000 then [c.toNat]
  else [0xD800 + (c.toNat - 0x10000) / 0x400,
    0xDC00 + (c.toNat - 0x10000) % 0x400]

/-- A hexadecimal digit. -/
def hexDigit (n : Nat) : Char :=
  if n < 10 then Char.ofNat (48 + n) else Char.ofNat (87 + n)

/-- The escape of a unit. -/
def writeUnit (u : Nat) : List Char :=
  ['\\', 'u', hexDigit (u / 4096), hexDigit (u / 256 % 16),
    hexDigit (u / 16 % 16), hexDigit (u % 16)]

/-- The letter that stands for a character behind a backslash. -/
def shortName (c : Char) : Option Char :=
  if c = '"' then some '"'
  else if c = '\\' then some '\\'
  else if c = '\n' then some 'n'
  else if c = '\r' then some 'r'
  else if c = '\t' then some 't'
  else if c = '\x0c' then some 'f'
  else if c = '\x08' then some 'b'
  else none

/-- Is this a printable ASCII character? -/
def printable (c : Char) : Bool :=
  decide (0x20 ≤ c.toNat) && decide (c.toNat ≤ 0x7E)

/-- A character of a string. -/
def writeChar (c : Char) : List Char :=
  match shortName c with
  | some e => ['\\', e]
  | none => if printable c then [c] else (utf16 c).flatMap writeUnit

/-- A string, with its quotes. -/
def writeString (s : List Char) : List Char :=
  '"' :: (s.flatMap writeChar ++ ['"'])

mutual

/-- A value. -/
def write : Value → List Char
  | .null => ['n', 'u', 'l', 'l']
  | .bool true => ['t', 'r', 'u', 'e']
  | .bool false => ['f', 'a', 'l', 's', 'e']
  | .num n => n.text
  | .str s => writeString s
  | .list xs => '[' :: writeItems xs
  | .dict entries => '\x7b' :: writeEntries entries

/-- The items of a list, behind its bracket. -/
def writeItems : List Value → List Char
  | [] => [']']
  | x :: xs => write x ++ writeMoreItems xs

/-- The items that follow another one. -/
def writeMoreItems : List Value → List Char
  | [] => [']']
  | x :: xs => ',' :: ' ' :: (write x ++ writeMoreItems xs)

/-- The entries of an object, behind its brace. -/
def writeEntries : List (List Char × Value) → List Char
  | [] => ['\x7d']
  | (key, x) :: entries =>
      writeString key ++ ':' :: ' ' :: (write x ++ writeMoreEntries entries)

/-- The entries that follow another one. -/
def writeMoreEntries : List (List Char × Value) → List Char
  | [] => ['\x7d']
  | (key, x) :: entries =>
      ',' :: ' ' :: (writeString key
        ++ ':' :: ' ' :: (write x ++ writeMoreEntries entries))

end

/-! ## The reader -/

/-- White space between tokens. -/
def isBlank (c : Char) : Bool :=
  c == ' ' || c == '\t' || c == '\n' || c == '\r'

/-- The text behind white space. -/
def skip (text : List Char) : List Char := text.dropWhile isBlank

/-- The value of a hexadecimal digit, of either case. -/
def hexValue (c : Char) : Option Nat :=
  if '0' ≤ c ∧ c ≤ '9' then some (c.toNat - 48)
  else if 'a' ≤ c ∧ c ≤ 'f' then some (c.toNat - 87)
  else if 'A' ≤ c ∧ c ≤ 'F' then some (c.toNat - 55)
  else none

/-- The unit of four digits. -/
def unitOfHex (a b c d : Char) : Option Nat := do
  let a ← hexValue a
  let b ← hexValue b
  let c ← hexValue c
  let d ← hexValue d
  some (a * 4096 + b * 256 + c * 16 + d)

/-- The unit of a letter behind a backslash. -/
def unitOfName (c : Char) : Option Nat :=
  if c = '"' then some 34
  else if c = '\\' then some 92
  else if c = '/' then some 47
  else if c = 'n' then some 10
  else if c = 'r' then some 13
  else if c = 't' then some 9
  else if c = 'f' then some 12
  else if c = 'b' then some 8
  else none

/-- Put units in front of those that have been read. -/
def push (us : List Nat) (r : List Nat × List Char) : List Nat × List Char :=
  (us ++ r.1, r.2)

/-- The units of a string behind its quote, and the text behind the string. -/
def readUnits : List Char → Option (List Nat × List Char)
  | [] => none
  | '"' :: text => some ([], text)
  | '\\' :: 'u' :: a :: b :: c :: d :: text => do
      let u ← unitOfHex a b c d
      (readUnits text).map (push [u])
  | '\\' :: e :: text => do
      let u ← unitOfName e
      (readUnits text).map (push [u])
  | c :: text =>
      if c.toNat < 0x20 then none else (readUnits text).map (push (utf16 c))

/-- The first unit of a pair. -/
def isHigh (u : Nat) : Bool := decide (0xD800 ≤ u) && decide (u < 0xDC00)

/-- The second unit of a pair. -/
def isLow (u : Nat) : Bool := decide (0xDC00 ≤ u) && decide (u < 0xE000)

/-- The character of a pair. -/
def ofPair (u v : Nat) : Char :=
  Char.ofNat (0x10000 + (u - 0xD800) * 0x400 + (v - 0xDC00))

/-- The characters of units.  A surrogate alone is none. -/
def decode : List Nat → Option (List Char)
  | [] => some []
  | u :: us =>
      if isHigh u = true then
        match us with
        | v :: vs =>
            if isLow v = true then (decode vs).map (ofPair u v :: ·) else none
        | [] => none
      else if isLow u = true then none
      else (decode us).map (Char.ofNat u :: ·)

/-- A string behind its quote. -/
def readString (text : List Char) : Option (List Char × List Char) := do
  let (us, rest) ← readUnits text
  let s ← decode us
  some (s, rest)

/-- A number. -/
def readNumber (text : List Char) : Option (Value × List Char) :=
  if h : isNumber (text.takeWhile numberChar) = true then
    some (.num ⟨text.takeWhile numberChar, h⟩, text.dropWhile numberChar)
  else none

mutual

/-- A value at the front of a text, and what follows it. -/
def readValue : Nat → List Char → Option (Value × List Char)
  | 0, _ => none
  | n + 1, text =>
      match skip text with
      | 'n' :: 'u' :: 'l' :: 'l' :: rest => some (.null, rest)
      | 't' :: 'r' :: 'u' :: 'e' :: rest => some (.bool true, rest)
      | 'f' :: 'a' :: 'l' :: 's' :: 'e' :: rest => some (.bool false, rest)
      | '"' :: rest => do
          let (s, rest) ← readString rest
          some (.str s, rest)
      | '[' :: rest => do
          let (xs, rest) ← readItems n rest
          some (.list xs, rest)
      | '\x7b' :: rest => do
          let (entries, rest) ← readEntries n rest
          some (.dict entries, rest)
      | rest => readNumber rest

/-- Items up to the end of their list. -/
def readItems : Nat → List Char → Option (List Value × List Char)
  | 0, _ => none
  | n + 1, text =>
      match skip text with
      | ']' :: rest => some ([], rest)
      | rest => do
          let (x, rest) ← readValue n rest
          let (xs, rest) ← readMoreItems n rest
          some (x :: xs, rest)

/-- The items behind another one. -/
def readMoreItems : Nat → List Char → Option (List Value × List Char)
  | 0, _ => none
  | n + 1, text =>
      match skip text with
      | ']' :: rest => some ([], rest)
      | ',' :: rest => do
          let (x, rest) ← readValue n rest
          let (xs, rest) ← readMoreItems n rest
          some (x :: xs, rest)
      | _ => none

/-- Entries up to the end of their object. -/
def readEntries : Nat → List Char →
    Option (List (List Char × Value) × List Char)
  | 0, _ => none
  | n + 1, text =>
      match skip text with
      | '\x7d' :: rest => some ([], rest)
      | rest => do
          let (entry, rest) ← readEntry n rest
          let (entries, rest) ← readMoreEntries n rest
          some (entry :: entries, rest)

/-- The entries behind another one. -/
def readMoreEntries : Nat → List Char →
    Option (List (List Char × Value) × List Char)
  | 0, _ => none
  | n + 1, text =>
      match skip text with
      | '\x7d' :: rest => some ([], rest)
      | ',' :: rest => do
          let (entry, rest) ← readEntry n rest
          let (entries, rest) ← readMoreEntries n rest
          some (entry :: entries, rest)
      | _ => none

/-- One entry. -/
def readEntry : Nat → List Char → Option ((List Char × Value) × List Char)
  | 0, _ => none
  | n + 1, text =>
      match skip text with
      | '"' :: rest => do
          let (key, rest) ← readString rest
          match skip rest with
          | ':' :: rest => do
              let (x, rest) ← readValue n rest
              some ((key, x), rest)
          | _ => none
      | _ => none

end

/-- The value of a text. -/
def parse (text : List Char) : Option Value :=
  match readValue (text.length + 1) text with
  | some (x, rest) => if skip rest = [] then some x else none
  | none => none

/-! ## Numbers -/

/-- The digits of a number do not begin with a zero, unless it is zero. -/
theorem toDigits_cons (n : Nat) (hn : 0 < n) :
    ∃ c cs, Nat.toDigits 10 n = c :: cs ∧ c ≠ '0' := by
  induction n using Nat.strong_induction_on with
  | _ n ih =>
      by_cases hsmall : n < 10
      · rw [Nat.toDigits_of_lt_base hsmall]
        refine ⟨_, _, rfl, ?_⟩
        have hdigits : ∀ d, d < 10 → 0 < d → d.digitChar ≠ '0' := by decide
        exact hdigits n hsmall hn
      · obtain ⟨c, cs, hcons, hc⟩ := ih (n / 10) (by omega) (by omega)
        rw [Nat.toDigits_of_base_le (by decide) (Nat.le_of_not_lt hsmall),
          hcons]
        exact ⟨c, _, rfl, hc⟩

theorem all_isDigit_toDigits (n : Nat) :
    ∀ c ∈ Nat.toDigits 10 n, c.isDigit = true :=
  fun _ hc => Nat.isDigit_of_mem_toDigits (by decide) (by decide) hc

/-- A digit that is no zero may be followed by digits. -/
theorem isUnsigned_cons {c : Char} {cs : List Char} (hc : c ≠ '0')
    (h : ∀ d ∈ c :: cs, d.isDigit = true) : isUnsigned (c :: cs) = true := by
  have hrest : cs.dropWhile Char.isDigit = [] :=
    List.dropWhile_eq_nil_iff.mpr
      (fun d hd => h d (List.mem_cons_of_mem c hd))
  rw [isUnsigned.eq_def]
  split
  · rename_i heq
    exact absurd (List.cons.inj heq).1 hc
  · rename_i heq
    obtain ⟨rfl, rfl⟩ := List.cons.inj heq
    rw [hrest, h c List.mem_cons_self]
    rfl
  · rename_i heq
    cases heq

theorem isUnsigned_toDigits (n : Nat) :
    isUnsigned (Nat.toDigits 10 n) = true := by
  rcases Nat.eq_zero_or_pos n with rfl | hn
  · rfl
  · obtain ⟨c, cs, hcons, hc⟩ := toDigits_cons n hn
    have hdigits := all_isDigit_toDigits n
    rw [hcons] at hdigits ⊢
    exact isUnsigned_cons hc hdigits

theorem isNumber_toDigits (n : Nat) : isNumber (Nat.toDigits 10 n) = true := by
  have hdigits := all_isDigit_toDigits n
  have hunsigned := isUnsigned_toDigits n
  unfold isNumber
  rw [Bool.and_eq_true, List.all_eq_true]
  refine ⟨fun c hc => ?_, ?_⟩
  · rw [numberChar, hdigits c hc]
    rfl
  · cases htext : Nat.toDigits 10 n with
    | nil =>
        rw [htext] at hunsigned
        cases hunsigned
    | cons c cs =>
        rw [htext] at hdigits hunsigned
        split
        · rename_i heq
          have hminus := hdigits c List.mem_cons_self
          rw [(List.cons.inj heq).1] at hminus
          cases hminus
        · exact hunsigned

/-- The text of a natural number. -/
def Number.ofNat (n : Nat) : Number :=
  ⟨Nat.toDigits 10 n, isNumber_toDigits n⟩

/-! ## Strings -/

theorem hexValue_hexDigit : ∀ n, n < 16 → hexValue (hexDigit n) = some n := by
  decide

/-- The four digits of a unit. -/
theorem unitOfHex_hexDigit {u : Nat} (h : u < 65536) :
    unitOfHex (hexDigit (u / 4096)) (hexDigit (u / 256 % 16))
      (hexDigit (u / 16 % 16)) (hexDigit (u % 16)) = some u := by
  have hsum : u / 4096 * 4096 + u / 256 % 16 * 256 + u / 16 % 16 * 16 + u % 16
      = u := by omega
  have hfirst : u / 4096 < 16 := by omega
  rw [unitOfHex, hexValue_hexDigit _ hfirst,
    hexValue_hexDigit _ (Nat.mod_lt _ (by decide)),
    hexValue_hexDigit _ (Nat.mod_lt _ (by decide)),
    hexValue_hexDigit _ (Nat.mod_lt _ (by decide))]
  simp only [Option.bind_eq_bind, Option.bind_some, hsum]

theorem map_push (us vs : List Nat) (r : Option (List Nat × List Char)) :
    (r.map (push vs)).map (push us) = r.map (push (us ++ vs)) := by
  cases r with
  | none => rfl
  | some r =>
      show some (us ++ (vs ++ r.1), r.2) = some (us ++ vs ++ r.1, r.2)
      rw [List.append_assoc]

theorem readUnits_writeUnit {u : Nat} (h : u < 65536) (text : List Char) :
    readUnits (writeUnit u ++ text) = (readUnits text).map (push [u]) := by
  show (unitOfHex _ _ _ _).bind _ = _
  rw [unitOfHex_hexDigit h]
  rfl

/-- The units of a string of escapes. -/
theorem readUnits_writeUnits (text : List Char) :
    ∀ us : List Nat, (∀ u ∈ us, u < 65536) →
      readUnits (us.flatMap writeUnit ++ text)
        = (readUnits text).map (push us) := by
  intro us
  induction us with
  | nil =>
      intro _
      show readUnits text = _
      cases readUnits text with
      | none => rfl
      | some r => rfl
  | cons u us ih =>
      intro h
      rw [List.flatMap_cons, List.append_assoc,
        readUnits_writeUnit (h u List.mem_cons_self),
        ih (fun v hv => h v (List.mem_cons_of_mem u hv)), map_push]
      rfl

/-- Where the characters of Unicode lie. -/
theorem toNat_cases (c : Char) :
    c.toNat < 0xD800 ∨ (0xDFFF < c.toNat ∧ c.toNat < 0x110000) := by
  rcases c.valid with h | ⟨h, h'⟩
  · exact Or.inl h
  · exact Or.inr ⟨h, h'⟩

theorem utf16_lt (c : Char) : ∀ u ∈ utf16 c, u < 65536 := by
  intro u hu
  have hc := toNat_cases c
  rw [utf16] at hu
  split at hu
  · rename_i h
    rw [List.mem_singleton.mp hu]
    exact h
  · rcases List.mem_pair.mp hu with h | h
    · rw [h]
      omega
    · rw [h]
      omega

/-- A character that is written as it is. -/
theorem readUnits_plain {c : Char} (hquote : c ≠ '"') (hslash : c ≠ '\\')
    (h : 0x20 ≤ c.toNat) (text : List Char) :
    readUnits (c :: text) = (readUnits text).map (push (utf16 c)) := by
  rw [readUnits.eq_def]
  split
  · rename_i heq
    cases heq
  · rename_i heq
    exact absurd (List.cons.inj heq).1 hquote
  · rename_i heq
    exact absurd (List.cons.inj heq).1 hslash
  · rename_i heq
    exact absurd (List.cons.inj heq).1 hslash
  · rename_i heq
    obtain ⟨rfl, rfl⟩ := List.cons.inj heq
    rw [if_neg (Nat.not_lt.mpr h)]

/-- The characters with a name. -/
theorem readUnits_name {c e : Char} (h : shortName c = some e)
    (text : List Char) :
    readUnits ('\\' :: e :: text) = (readUnits text).map (push (utf16 c)) := by
  unfold shortName at h
  split_ifs at h with h1 h2 h3 h4 h5 h6 h7 <;>
    (obtain rfl := Option.some.inj h; subst c; rfl)

/-- A character with no name is neither a quote nor a backslash. -/
theorem ne_of_shortName {c : Char} (h : shortName c = none) :
    c ≠ '"' ∧ c ≠ '\\' := by
  constructor
  · rintro rfl
    cases h
  · rintro rfl
    cases h

theorem readUnits_writeChar (c : Char) (text : List Char) :
    readUnits (writeChar c ++ text) = (readUnits text).map (push (utf16 c)) := by
  rw [writeChar]
  cases hname : shortName c with
  | some e => exact readUnits_name hname text
  | none =>
      obtain ⟨hquote, hslash⟩ := ne_of_shortName hname
      by_cases hplain : printable c = true
      · have hle : 0x20 ≤ c.toNat :=
          of_decide_eq_true (Bool.and_eq_true_iff.mp hplain).1
        simp only [if_pos hplain]
        exact readUnits_plain hquote hslash hle text
      · simp only [if_neg hplain]
        exact readUnits_writeUnits text _ (utf16_lt c)

/-- The units of a written string, up to its quote. -/
theorem readUnits_write (text : List Char) :
    ∀ s : List Char, readUnits (s.flatMap writeChar ++ '"' :: text)
      = some (s.flatMap utf16, text) := by
  intro s
  induction s with
  | nil => rfl
  | cons c s ih =>
      rw [List.flatMap_cons, List.append_assoc, readUnits_writeChar, ih]
      rfl

/-- A unit of its own. -/
theorem decode_single {u : Nat} (hhigh : isHigh u = false)
    (hlow : isLow u = false) (us : List Nat) :
    decode (u :: us) = (decode us).map (Char.ofNat u :: ·) := by
  rw [decode.eq_def]
  simp only [hhigh, hlow, Bool.false_eq_true, if_false]

/-- A pair. -/
theorem decode_pair {u v : Nat} (hhigh : isHigh u = true)
    (hlow : isLow v = true) (us : List Nat) :
    decode (u :: v :: us) = (decode us).map (ofPair u v :: ·) := by
  rw [decode.eq_def]
  simp only [hhigh, hlow, if_true]

theorem decode_utf16 (c : Char) (us : List Nat) :
    decode (utf16 c ++ us) = (decode us).map (c :: ·) := by
  have hc := toNat_cases c
  rw [utf16]
  by_cases hsmall : c.toNat < 0x10000
  · rw [if_pos hsmall]
    have hhigh : isHigh c.toNat = false := by
      rw [isHigh, Bool.and_eq_false_iff, decide_eq_false_iff_not,
        decide_eq_false_iff_not]
      omega
    have hlow : isLow c.toNat = false := by
      rw [isLow, Bool.and_eq_false_iff, decide_eq_false_iff_not,
        decide_eq_false_iff_not]
      omega
    show decode (c.toNat :: us) = _
    rw [decode_single hhigh hlow, Char.ofNat_toNat]
  · rw [if_neg hsmall]
    have hhigh : isHigh (0xD800 + (c.toNat - 0x10000) / 0x400) = true := by
      rw [isHigh, Bool.and_eq_true, decide_eq_true_eq, decide_eq_true_eq]
      omega
    have hlow : isLow (0xDC00 + (c.toNat - 0x10000) % 0x400) = true := by
      rw [isLow, Bool.and_eq_true, decide_eq_true_eq, decide_eq_true_eq]
      omega
    have hpair : ofPair (0xD800 + (c.toNat - 0x10000) / 0x400)
        (0xDC00 + (c.toNat - 0x10000) % 0x400) = c := by
      have hsum : 0x10000 + (0xD800 + (c.toNat - 0x10000) / 0x400 - 0xD800)
          * 0x400 + (0xDC00 + (c.toNat - 0x10000) % 0x400 - 0xDC00)
            = c.toNat := by omega
      rw [ofPair, hsum, Char.ofNat_toNat]
    show decode (_ :: _ :: us) = _
    rw [decode_pair hhigh hlow, hpair]

theorem decode_flatMap_utf16 (s : List Char) :
    decode (s.flatMap utf16) = some s := by
  induction s with
  | nil => rfl
  | cons c s ih =>
      rw [List.flatMap_cons, decode_utf16, ih]
      rfl

/-- A written string is read back. -/
theorem readString_write (s text : List Char) :
    readString (s.flatMap writeChar ++ '"' :: text) = some (s, text) := by
  rw [readString, readUnits_write]
  show (decode (s.flatMap utf16)).bind _ = _
  rw [decode_flatMap_utf16]
  rfl

/-! ## Values -/

/-- What may follow a number. -/
def Ends (rest : List Char) : Prop :=
  ∀ c, rest.head? = some c → numberChar c = false

theorem ends_nil : Ends [] := by
  intro c h
  cases h

theorem ends_cons {c : Char} (h : numberChar c = false) (rest : List Char) :
    Ends (c :: rest) := by
  intro d hd
  rw [← Option.some.inj hd]
  exact h

theorem skip_cons {c : Char} (h : isBlank c = false) (text : List Char) :
    skip (c :: text) = c :: text := by
  rw [skip, List.dropWhile_cons, if_neg]
  rw [h]
  exact Bool.false_ne_true

/-- Can a value begin with this character? -/
structure Begins (c : Char) : Prop where
  notBlank : isBlank c = false
  notEnd : c ≠ ']'

theorem begins_of_numberChar {c : Char} (h : numberChar c = true) :
    Begins c := by
  constructor
  · by_contra hblank
    rw [Bool.not_eq_false, isBlank, Bool.or_eq_true, Bool.or_eq_true,
      Bool.or_eq_true, beq_iff_eq, beq_iff_eq, beq_iff_eq, beq_iff_eq]
      at hblank
    rcases hblank with ((rfl | rfl) | rfl) | rfl
    · revert h
      decide
    · revert h
      decide
    · revert h
      decide
    · revert h
      decide
  · rintro rfl
    revert h
    decide

/-- A number begins with one of its characters, and has no others. -/
theorem number_cons (n : Number) :
    ∃ c cs, n.text = c :: cs ∧ ∀ d ∈ c :: cs, numberChar d = true := by
  have hn := n.isNumber
  unfold isNumber at hn
  rw [Bool.and_eq_true, List.all_eq_true] at hn
  cases htext : n.text with
  | nil =>
      rw [htext] at hn
      cases hn.2
  | cons c cs =>
      refine ⟨c, cs, rfl, ?_⟩
      rw [← htext]
      exact hn.1

/-- How a written value begins. -/
theorem write_cons (x : Value) : ∃ c cs, write x = c :: cs ∧ Begins c := by
  cases x with
  | null => exact ⟨_, _, rfl, rfl, by decide⟩
  | bool b => cases b <;> exact ⟨_, _, rfl, rfl, by decide⟩
  | num n =>
      obtain ⟨c, cs, htext, hchars⟩ := number_cons n
      exact ⟨c, cs, htext,
        begins_of_numberChar (hchars c List.mem_cons_self)⟩
  | str s => exact ⟨_, _, rfl, rfl, by decide⟩
  | list xs => exact ⟨_, _, by rw [write], rfl, by decide⟩
  | dict entries => exact ⟨_, _, by rw [write], rfl, by decide⟩

theorem length_write_pos (x : Value) : 0 < (write x).length := by
  obtain ⟨c, cs, h, -⟩ := write_cons x
  rw [h]
  exact Nat.succ_pos _

theorem length_writeMoreItems_pos (xs : List Value) :
    0 < (writeMoreItems xs).length := by
  cases xs <;> rw [writeMoreItems] <;> exact Nat.succ_pos _

theorem length_writeMoreEntries_pos (entries : List (List Char × Value)) :
    0 < (writeMoreEntries entries).length := by
  cases entries <;> rw [writeMoreEntries] <;> exact Nat.succ_pos _

/-- A number is read up to what cannot belong to it. -/
theorem readNumber_text (n : Number) {rest : List Char} (h : Ends rest) :
    readNumber (n.text ++ rest) = some (.num n, rest) := by
  obtain ⟨c, cs, htext, hchars⟩ := number_cons n
  rw [← htext] at hchars
  have htake : (n.text ++ rest).takeWhile numberChar = n.text := by
    rw [List.takeWhile_append_of_pos hchars]
    cases rest with
    | nil => exact List.append_nil _
    | cons d rest =>
        rw [List.takeWhile_cons_of_neg, List.append_nil]
        rw [h d rfl]
        exact Bool.false_ne_true
  have hdrop : (n.text ++ rest).dropWhile numberChar = rest := by
    rw [List.dropWhile_append_of_pos hchars]
    cases rest with
    | nil => rfl
    | cons d rest =>
        rw [List.dropWhile_cons_of_neg]
        rw [h d rfl]
        exact Bool.false_ne_true
  have hnumber : isNumber ((n.text ++ rest).takeWhile numberChar) = true := by
    rw [htake]
    exact n.isNumber
  rw [readNumber, dif_pos hnumber, hdrop]
  congr 3
  cases n
  congr 1

/-- What is no other value is read as a number. -/
theorem readValue_number {c : Char} (h : numberChar c = true) (n : Nat)
    (text : List Char) :
    readValue (n + 1) (c :: text) = readNumber (c :: text) := by
  have hhead : ∀ {d : Char} {ds : List Char}, c :: text = d :: ds →
      numberChar d = true := by
    intro d ds heq
    rw [← (List.cons.inj heq).1]
    exact h
  rw [readValue, skip_cons (begins_of_numberChar h).notBlank]
  split
  · exact absurd (hhead ‹_›) (by decide)
  · exact absurd (hhead ‹_›) (by decide)
  · exact absurd (hhead ‹_›) (by decide)
  · exact absurd (hhead ‹_›) (by decide)
  · exact absurd (hhead ‹_›) (by decide)
  · exact absurd (hhead ‹_›) (by decide)
  · rfl

/-- Items that are not at their end begin with a value. -/
theorem readItems_cons {c : Char} (h : Begins c) (n : Nat)
    (text : List Char) :
    readItems (n + 1) (c :: text) = (do
      let (x, rest) ← readValue n (c :: text)
      let (xs, rest) ← readMoreItems n rest
      some (x :: xs, rest)) := by
  rw [readItems, skip_cons h.notBlank]
  split
  · rename_i heq
    exact absurd (List.cons.inj heq).1 h.notEnd
  · rfl

/-- A string is read up to its quote. -/
theorem readValue_string (n : Nat) (s rest : List Char) :
    readValue (n + 1) (writeString s ++ rest) = some (.str s, rest) := by
  have htext : writeString s ++ rest
      = '"' :: (s.flatMap writeChar ++ '"' :: rest) := by
    rw [writeString, List.cons_append, List.append_assoc]
    rfl
  rw [htext, readValue, skip_cons rfl]
  show (readString _).bind _ = _
  rw [readString_write]
  rfl

/-- So is the key of an entry, with its value. -/
theorem readEntry_string (key : List Char) {n : Nat} {text rest : List Char}
    {x : Value}
    (h : readValue n (' ' :: text) = some (x, rest)) :
    readEntry (n + 1) (writeString key ++ ':' :: ' ' :: text)
      = some ((key, x), rest) := by
  have htext : writeString key ++ ':' :: ' ' :: text
      = '"' :: (key.flatMap writeChar ++ '"' :: ':' :: ' ' :: text) := by
    rw [writeString, List.cons_append, List.append_assoc]
    rfl
  rw [htext, readEntry, skip_cons rfl]
  show (readString _).bind _ = _
  rw [readString_write]
  show (readValue n (' ' :: text)).bind _ = _
  rw [h]
  rfl

/-- A blank in front of a value. -/
theorem readValue_blank (n : Nat) (text : List Char) :
    readValue n (' ' :: text) = readValue n text := by
  cases n with
  | zero => rfl
  | succ n =>
      have hskip : skip (' ' :: text) = skip text := rfl
      rw [readValue, readValue, hskip]

/-- A blank in front of an entry. -/
theorem readEntry_blank (n : Nat) (text : List Char) :
    readEntry n (' ' :: text) = readEntry n text := by
  cases n with
  | zero => rfl
  | succ n =>
      have hskip : skip (' ' :: text) = skip text := rfl
      rw [readEntry, readEntry, hskip]

/-- A comma or a bracket follows an item. -/
theorem ends_moreItems (xs : List Value) (rest : List Char) :
    Ends (writeMoreItems xs ++ rest) := by
  cases xs <;> rw [writeMoreItems] <;> exact ends_cons rfl _

/-- A comma or a brace follows an entry. -/
theorem ends_moreEntries (entries : List (List Char × Value))
    (rest : List Char) : Ends (writeMoreEntries entries ++ rest) := by
  cases entries <;> rw [writeMoreEntries] <;> exact ends_cons rfl _

mutual

/-- A written value is read back, whatever follows it. -/
theorem readValue_write (x : Value) (n : Nat) (rest : List Char)
    (hn : (write x).length ≤ n) (hrest : Ends rest) :
    readValue n (write x ++ rest) = some (x, rest) := by
  obtain ⟨n, rfl⟩ := Nat.exists_eq_add_of_lt
    (Nat.lt_of_lt_of_le (length_write_pos x) hn)
  rw [Nat.zero_add] at hn ⊢
  match x with
  | .null => rfl
  | .bool true => rfl
  | .bool false => rfl
  | .num number =>
      obtain ⟨c, cs, htext, hchars⟩ := number_cons number
      have hnumber := readNumber_text number hrest
      rw [htext] at hnumber
      rw [write, htext]
      exact (readValue_number (hchars c List.mem_cons_self) n _).trans hnumber
  | .str s =>
      rw [write]
      exact readValue_string n s rest
  | .list xs =>
      rw [write] at hn ⊢
      rw [List.cons_append, readValue, skip_cons rfl]
      show (readItems n (writeItems xs ++ rest)).bind _ = _
      rw [readItems_write xs n rest (Nat.le_of_succ_le_succ hn)]
      rfl
  | .dict entries =>
      rw [write] at hn ⊢
      rw [List.cons_append, readValue, skip_cons rfl]
      show (readEntries n (writeEntries entries ++ rest)).bind _ = _
      rw [readEntries_write entries n rest (Nat.le_of_succ_le_succ hn)]
      rfl

theorem readItems_write (xs : List Value) (n : Nat) (rest : List Char)
    (hn : (writeItems xs).length ≤ n) :
    readItems n (writeItems xs ++ rest) = some (xs, rest) := by
  match xs, n with
  | [], 0 => cases hn
  | [], n + 1 => rfl
  | x :: xs, n =>
      rw [writeItems, List.length_append] at hn
      have hx := length_write_pos x
      have hxs := length_writeMoreItems_pos xs
      obtain ⟨n, rfl⟩ : ∃ m, n = m + 1 := ⟨n - 1, by omega⟩
      have hvalue := readValue_write x n (writeMoreItems xs ++ rest) (by omega)
        (ends_moreItems xs rest)
      have hmore := readMoreItems_write xs n rest (by omega)
      obtain ⟨c, cs, hcons, hbegins⟩ := write_cons x
      rw [writeItems, List.append_assoc]
      rw [hcons] at hvalue ⊢
      rw [List.cons_append] at hvalue ⊢
      rw [readItems_cons hbegins, hvalue]
      show (readMoreItems n (writeMoreItems xs ++ rest)).bind _ = _
      rw [hmore]
      rfl

theorem readMoreItems_write (xs : List Value) (n : Nat) (rest : List Char)
    (hn : (writeMoreItems xs).length ≤ n) :
    readMoreItems n (writeMoreItems xs ++ rest) = some (xs, rest) := by
  match xs, n with
  | [], 0 => cases hn
  | [], n + 1 => rfl
  | x :: xs, n =>
      rw [writeMoreItems, List.length_cons, List.length_cons,
        List.length_append] at hn
      obtain ⟨n, rfl⟩ : ∃ m, n = m + 1 := ⟨n - 1, by omega⟩
      rw [writeMoreItems, List.cons_append, List.cons_append,
        List.append_assoc, readMoreItems, skip_cons rfl]
      show (readValue n (' ' :: (write x ++ (writeMoreItems xs ++ rest)))).bind
        _ = _
      rw [readValue_blank, readValue_write x n (writeMoreItems xs ++ rest)
        (by omega) (ends_moreItems xs rest)]
      show (readMoreItems n (writeMoreItems xs ++ rest)).bind _ = _
      rw [readMoreItems_write xs n rest (by omega)]
      rfl

theorem readEntries_write (entries : List (List Char × Value)) (n : Nat)
    (rest : List Char) (hn : (writeEntries entries).length ≤ n) :
    readEntries n (writeEntries entries ++ rest) = some (entries, rest) := by
  match entries, n with
  | [], 0 => cases hn
  | [], n + 1 => rfl
  | (key, x) :: entries, n =>
      rw [writeEntries, List.length_append, List.length_cons, List.length_cons,
        List.length_append] at hn
      have hmore := length_writeMoreEntries_pos entries
      obtain ⟨n, rfl⟩ : ∃ m, n = m + 2 := ⟨n - 2, by omega⟩
      have hvalue := readValue_write x n (writeMoreEntries entries ++ rest)
        (by omega) (ends_moreEntries entries rest)
      have hentry := readEntry_string key
        ((readValue_blank n _).trans hvalue)
      have htext : writeEntries ((key, x) :: entries) ++ rest
          = writeString key ++ ':' :: ' ' ::
            (write x ++ (writeMoreEntries entries ++ rest)) := by
        rw [writeEntries, List.append_assoc, List.cons_append,
          List.cons_append, List.append_assoc]
      rw [htext, readEntries, writeString, List.cons_append, skip_cons rfl]
      rw [writeString, List.cons_append] at hentry
      show (readEntry (n + 1) _).bind _ = _
      rw [hentry]
      show (readMoreEntries (n + 1) (writeMoreEntries entries ++ rest)).bind _
        = _
      rw [readMoreEntries_write entries (n + 1) rest (by omega)]
      rfl

theorem readMoreEntries_write (entries : List (List Char × Value)) (n : Nat)
    (rest : List Char) (hn : (writeMoreEntries entries).length ≤ n) :
    readMoreEntries n (writeMoreEntries entries ++ rest)
      = some (entries, rest) := by
  match entries, n with
  | [], 0 => cases hn
  | [], n + 1 => rfl
  | (key, x) :: entries, n =>
      rw [writeMoreEntries, List.length_cons, List.length_cons,
        List.length_append, List.length_cons, List.length_cons,
        List.length_append] at hn
      obtain ⟨n, rfl⟩ : ∃ m, n = m + 2 := ⟨n - 2, by omega⟩
      have hvalue := readValue_write x n (writeMoreEntries entries ++ rest)
        (by omega) (ends_moreEntries entries rest)
      have hentry := readEntry_string key
        ((readValue_blank n _).trans hvalue)
      have htext : writeMoreEntries ((key, x) :: entries) ++ rest
          = ',' :: ' ' :: (writeString key ++ ':' :: ' ' ::
            (write x ++ (writeMoreEntries entries ++ rest))) := by
        rw [writeMoreEntries, List.cons_append, List.cons_append,
          List.append_assoc, List.cons_append, List.cons_append,
          List.append_assoc]
      rw [htext, readMoreEntries, skip_cons rfl]
      show (readEntry (n + 1) (' ' :: _)).bind _ = _
      rw [readEntry_blank, hentry]
      show (readMoreEntries (n + 1) (writeMoreEntries entries ++ rest)).bind _
        = _
      rw [readMoreEntries_write entries (n + 1) rest (by omega)]
      rfl

end

/-- **What was written is read back.** -/
theorem parse_write (x : Value) : parse (write x) = some x := by
  have hread := readValue_write x ((write x).length + 1) []
    (Nat.le_succ _) ends_nil
  rw [List.append_nil] at hread
  rw [parse, hread]
  exact if_pos rfl

/-! ## One line -/

/-- Printable ASCII characters only. -/
def Printable (text : List Char) : Prop := ∀ c ∈ text, printable c = true

theorem printable_nil : Printable [] := by
  intro c hc
  cases hc

theorem printable_cons {c : Char} {text : List Char}
    (hc : printable c = true) (h : Printable text) :
    Printable (c :: text) := by
  intro d hd
  rcases List.mem_cons.mp hd with rfl | hd
  · exact hc
  · exact h d hd

theorem printable_append {text text' : List Char} (h : Printable text)
    (h' : Printable text') : Printable (text ++ text') := by
  intro c hc
  rcases List.mem_append.mp hc with hc | hc
  · exact h c hc
  · exact h' c hc

theorem printable_flatMap {α : Type} {f : α → List Char} {xs : List α}
    (h : ∀ x ∈ xs, Printable (f x)) : Printable (xs.flatMap f) := by
  intro c hc
  obtain ⟨x, hx, hc⟩ := List.mem_flatMap.mp hc
  exact h x hx c hc

/-- The end of a line is not printable. -/
theorem newline_not_mem {text : List Char} (h : Printable text) :
    '\n' ∉ text := by
  intro hmem
  have hprintable := h _ hmem
  revert hprintable
  decide

theorem printable_hexDigit : ∀ n, n < 16 → printable (hexDigit n) = true := by
  decide

theorem printable_writeUnit {u : Nat} (h : u < 65536) :
    Printable (writeUnit u) := by
  have hfirst : u / 4096 < 16 := by omega
  refine printable_cons rfl (printable_cons rfl (printable_cons ?_
    (printable_cons ?_ (printable_cons ?_ (printable_cons ?_
      printable_nil)))))
  · exact printable_hexDigit _ hfirst
  · exact printable_hexDigit _ (Nat.mod_lt _ (by decide))
  · exact printable_hexDigit _ (Nat.mod_lt _ (by decide))
  · exact printable_hexDigit _ (Nat.mod_lt _ (by decide))

theorem printable_writeChar (c : Char) : Printable (writeChar c) := by
  rw [writeChar]
  cases hname : shortName c with
  | some e =>
      have he : printable e = true := by
        unfold shortName at hname
        split_ifs at hname <;> (obtain rfl := Option.some.inj hname; rfl)
      exact printable_cons rfl (printable_cons he printable_nil)
  | none =>
      by_cases hplain : printable c = true
      · simp only [if_pos hplain]
        exact printable_cons hplain printable_nil
      · simp only [if_neg hplain]
        exact printable_flatMap
          (fun u hu => printable_writeUnit (utf16_lt c u hu))

theorem printable_writeString (s : List Char) : Printable (writeString s) :=
  printable_cons rfl (printable_append
    (printable_flatMap (fun c _ => printable_writeChar c))
    (printable_cons rfl printable_nil))

/-- The characters of numbers are printable. -/
theorem printable_numberChar {c : Char} (h : numberChar c = true) :
    printable c = true := by
  rw [numberChar, Bool.or_eq_true, Bool.or_eq_true, Bool.or_eq_true,
    Bool.or_eq_true, Bool.or_eq_true, beq_iff_eq, beq_iff_eq, beq_iff_eq,
    beq_iff_eq, beq_iff_eq] at h
  rcases h with ((((hdigit | rfl) | rfl) | rfl) | rfl) | rfl
  · rw [Char.isDigit, Bool.and_eq_true, decide_eq_true_eq,
      decide_eq_true_eq] at hdigit
    have hlow : 48 ≤ c.toNat := hdigit.1
    have hhigh : c.toNat ≤ 57 := hdigit.2
    rw [printable, Bool.and_eq_true, decide_eq_true_eq, decide_eq_true_eq]
    omega
  · rfl
  · rfl
  · rfl
  · rfl
  · rfl

mutual

/-- A written value is printable ASCII. -/
theorem printable_write (x : Value) : Printable (write x) := by
  match x with
  | .null | .bool true | .bool false => exact List.all_eq_true.mp rfl
  | .num n =>
      obtain ⟨c, cs, htext, hchars⟩ := number_cons n
      rw [write, htext]
      exact fun d hd => printable_numberChar (hchars d hd)
  | .str s =>
      rw [write]
      exact printable_writeString s
  | .list xs =>
      rw [write]
      exact printable_cons rfl (printable_writeItems xs)
  | .dict entries =>
      rw [write]
      exact printable_cons rfl (printable_writeEntries entries)

theorem printable_writeItems (xs : List Value) :
    Printable (writeItems xs) := by
  match xs with
  | [] => exact printable_cons rfl printable_nil
  | x :: xs =>
      rw [writeItems]
      exact printable_append (printable_write x)
        (printable_writeMoreItems xs)

theorem printable_writeMoreItems (xs : List Value) :
    Printable (writeMoreItems xs) := by
  match xs with
  | [] => exact printable_cons rfl printable_nil
  | x :: xs =>
      rw [writeMoreItems]
      exact printable_cons rfl (printable_cons rfl
        (printable_append (printable_write x)
          (printable_writeMoreItems xs)))

theorem printable_writeEntries (entries : List (List Char × Value)) :
    Printable (writeEntries entries) := by
  match entries with
  | [] => exact printable_cons rfl printable_nil
  | (key, x) :: entries =>
      rw [writeEntries]
      exact printable_append (printable_writeString key)
        (printable_cons rfl (printable_cons rfl
          (printable_append (printable_write x)
            (printable_writeMoreEntries entries))))

theorem printable_writeMoreEntries (entries : List (List Char × Value)) :
    Printable (writeMoreEntries entries) := by
  match entries with
  | [] => exact printable_cons rfl printable_nil
  | (key, x) :: entries =>
      rw [writeMoreEntries]
      exact printable_cons rfl (printable_cons rfl
        (printable_append (printable_writeString key)
          (printable_cons rfl (printable_cons rfl
            (printable_append (printable_write x)
              (printable_writeMoreEntries entries))))))

end

/-! ## Lines -/

/-- Values, one on each line. -/
def writeLines (xs : List Value) : List Char :=
  xs.flatMap (fun x => write x ++ ['\n'])

/-- The lines of a text; what is behind the last end of a line is one, too,
    unless it is empty. -/
def linesFrom (line : List Char) : List Char → List (List Char)
  | [] => if line = [] then [] else [line]
  | c :: text =>
      if c = '\n' then line :: linesFrom [] text
      else linesFrom (line ++ [c]) text

/-- Read every line of a text. -/
def readLines (text : List Char) : Option (List Value) :=
  (linesFrom [] text).mapM parse

theorem linesFrom_append (text rest : List Char) (h : '\n' ∉ text) :
    ∀ line : List Char, linesFrom line (text ++ '\n' :: rest)
      = (line ++ text) :: linesFrom [] rest := by
  induction text with
  | nil =>
      intro line
      rw [List.nil_append, linesFrom, if_pos rfl, List.append_nil]
  | cons c text ih =>
      intro line
      have hc : c ≠ '\n' := fun hc => h (hc ▸ List.mem_cons_self)
      rw [List.cons_append, linesFrom, if_neg hc,
        ih (fun hmem => h (List.mem_cons_of_mem c hmem)), List.append_assoc]
      rfl

/-- **Lines are read back one by one**: no value ends its line, and none is
    read as two. -/
theorem readLines_writeLines (xs : List Value) :
    readLines (writeLines xs) = some xs := by
  rw [readLines]
  induction xs with
  | nil => rfl
  | cons x xs ih =>
      rw [writeLines, List.flatMap_cons, List.append_assoc]
      show (linesFrom [] (write x ++ '\n' :: writeLines xs)).mapM parse = _
      rw [linesFrom_append _ _ (newline_not_mem (printable_write x)),
        List.nil_append, List.mapM_cons, parse_write, ih]
      rfl

end CvJson
