import ClusterVision.JsonTextProofs

/-! # Search filters

    The filters of a directory search and their text form: nested conditions
    in parentheses over items such as `(cn=a*b)`, whose values write the
    characters of the syntax as escapes.  A filter is read back from its text,
    whatever its values are; what a text stands for in a value is the octets
    that it is read as. -/

namespace CvFilter

open CvJson

/-! ## Values -/

/-- The characters that a value has as escapes only. -/
def special (c : Char) : Bool :=
  c == '(' || c == ')' || c == '*' || c == '\\' || c == '\x00'

/-- The octets of a text. -/
def utf8 (s : List Char) : List UInt8 := s.flatMap String.utf8EncodeChar

/-- The octet of two hexadecimal digits. -/
def octetOfHex (a b : Char) : Option UInt8 := do
  let high ← hexValue a
  let low ← hexValue b
  some (UInt8.ofNat (high * 16 + low))

/-- The octets that a piece of a value stands for. -/
def unescape : List Char → Option (List UInt8)
  | [] => some []
  | '\\' :: a :: b :: rest => do
      let octet ← octetOfHex a b
      (unescape rest).map (fun octets => octet :: octets)
  | c :: rest =>
      if special c then none
      else (unescape rest).map (fun octets => String.utf8EncodeChar c ++ octets)

theorem unescape_plain {c : Char} (h : special c = false) (rest : List Char) :
    unescape (c :: rest)
      = (unescape rest).map (fun octets => String.utf8EncodeChar c ++ octets) := by
  have hc : c ≠ '\\' := by
    intro hc
    rw [hc] at h
    exact absurd h (by decide)
  rw [unescape]
  · rw [if_neg (by rw [h]; exact Bool.false_ne_true)]
  · exact fun a b rest' hslash => absurd hslash hc

theorem unescape_escape {a b : Char} {octet : UInt8}
    (h : octetOfHex a b = some octet) (rest : List Char) :
    unescape ('\\' :: a :: b :: rest)
      = (unescape rest).map (fun octets => octet :: octets) := by
  rw [unescape, h]
  rfl

/-- A piece that can be read is read in front of another one. -/
theorem unescape_append {s : List Char} :
    ∀ {octets : List UInt8}, unescape s = some octets → ∀ t,
      unescape (s ++ t) = (unescape t).map (fun us => octets ++ us) := by
  fun_induction unescape s with
  | case1 =>
      intro octets h t
      obtain rfl := Option.some.inj h
      exact Option.map_id'.symm
  | case2 a b rest ih =>
      intro octets h t
      obtain ⟨octet, hoctet, h⟩ := Option.bind_eq_some_iff.mp h
      obtain ⟨octets', hrest, rfl⟩ := Option.map_eq_some_iff.mp h
      rw [List.cons_append, List.cons_append, List.cons_append,
        unescape_escape hoctet, ih hrest, Option.map_map]
      rfl
  | case3 c rest hshape hspecial => exact fun h => nomatch h
  | case4 c rest hshape hspecial ih =>
      intro octets h t
      obtain ⟨octets', hrest, rfl⟩ := Option.map_eq_some_iff.mp h
      rw [List.cons_append, unescape_plain (Bool.eq_false_iff.mpr hspecial),
        ih hrest, Option.map_map]
      congr 1
      funext us
      exact (List.append_assoc ..).symm

theorem hexValue_special {c : Char} (h : special c = true) :
    hexValue c = none := by
  rw [special, Bool.or_eq_true, Bool.or_eq_true, Bool.or_eq_true,
    Bool.or_eq_true, beq_iff_eq, beq_iff_eq, beq_iff_eq, beq_iff_eq,
    beq_iff_eq] at h
  rcases h with (((rfl | rfl) | rfl) | rfl) | rfl <;> rfl

/-- A piece that can be read has no character of the syntax but the one that
    begins an escape. -/
theorem plain_of_unescape {s : List Char} :
    ∀ {octets : List UInt8}, unescape s = some octets →
      ∀ c ∈ s, c = '\\' ∨ special c = false := by
  fun_induction unescape s with
  | case1 => exact fun _ c hc => absurd hc List.not_mem_nil
  | case2 a b rest ih =>
      intro octets h c hc
      obtain ⟨octet, hoctet, h⟩ := Option.bind_eq_some_iff.mp h
      obtain ⟨octets', hrest, -⟩ := Option.map_eq_some_iff.mp h
      obtain ⟨high, hhigh, hlow⟩ := Option.bind_eq_some_iff.mp hoctet
      obtain ⟨low, hlow, -⟩ := Option.bind_eq_some_iff.mp hlow
      have hdigit : ∀ {d n}, hexValue d = some n → special d = false := by
        intro d n hd
        rw [← Bool.not_eq_true]
        intro hspecial
        rw [hexValue_special hspecial] at hd
        cases hd
      rcases List.mem_cons.mp hc with rfl | hc
      · exact Or.inl rfl
      rcases List.mem_cons.mp hc with rfl | hc
      · exact Or.inr (hdigit hhigh)
      rcases List.mem_cons.mp hc with rfl | hc
      · exact Or.inr (hdigit hlow)
      · exact ih hrest c hc
  | case3 c rest hshape hspecial => exact fun h => nomatch h
  | case4 c rest hshape hspecial ih =>
      intro octets h d hd
      obtain ⟨octets', hrest, -⟩ := Option.map_eq_some_iff.mp h
      rcases List.mem_cons.mp hd with rfl | hd
      · exact Or.inr (Bool.eq_false_iff.mpr hspecial)
      · exact ih hrest d hd

theorem not_mem_of_unescape {s : List Char} {octets : List UInt8}
    (h : unescape s = some octets) {c : Char} (hc : special c = true)
    (hslash : c ≠ '\\') : c ∉ s := by
  intro hmem
  rcases plain_of_unescape h c hmem with hc' | hc'
  · exact hslash hc'
  · rw [hc] at hc'
    cases hc'

/-! ## Filters -/

/-- How an item compares. -/
inductive Rel where
  | equal
  | approx
  | greater
  | less
deriving DecidableEq

/-- The characters of what an item compares: an attribute, with its options and
    its matching rule. -/
def isLeft (c : Char) : Bool :=
  c.isAlphanum || c == '-' || c == '.' || c == ';' || c == ':'

/-- What an item compares, as it is written. -/
structure Left where
  text : List Char
  nonEmpty : text ≠ []
  isLeft : text.all isLeft = true
deriving DecidableEq

/-- An item: a value has pieces, with a star between one and the next. -/
structure Item (σ : Type) where
  left : Left
  rel : Rel
  first : σ
  more : List σ
deriving DecidableEq

/-- A filter over items. -/
inductive Filter (ι : Type) where
  | all (fs : List (Filter ι))
  | any (fs : List (Filter ι))
  | neg (f : Filter ι)
  | item (i : ι)

/-- The item with other pieces. -/
def Item.map {σ τ : Type} (f : σ → τ) (i : Item σ) : Item τ :=
  ⟨i.left, i.rel, f i.first, i.more.map f⟩

mutual

/-- The filter over other items. -/
def Filter.map {ι κ : Type} (f : ι → κ) : Filter ι → Filter κ
  | .all fs => .all (mapAll f fs)
  | .any fs => .any (mapAll f fs)
  | .neg g => .neg (g.map f)
  | .item i => .item (f i)

/-- Several of them. -/
def mapAll {ι κ : Type} (f : ι → κ) : List (Filter ι) → List (Filter κ)
  | [] => []
  | g :: gs => g.map f :: mapAll f gs

end

/-! ## The writer -/

/-- The sign of a comparison. -/
def Rel.text : Rel → List Char
  | .equal => ['=']
  | .approx => ['~', '=']
  | .greater => ['>', '=']
  | .less => ['<', '=']

variable {σ : Type}

/-- The pieces of a value. -/
def joinStars (first : List Char) (more : List (List Char)) : List Char :=
  first ++ more.flatMap (fun s => '*' :: s)

/-- The text of an item, by that of its pieces. -/
def writeItem (g : σ → List Char) (i : Item σ) : List Char :=
  i.left.text ++ i.rel.text ++ joinStars (g i.first) (i.more.map g)

mutual

/-- The text of a filter. -/
def write (g : σ → List Char) : Filter (Item σ) → List Char
  | .all fs => '(' :: '&' :: writeAll g fs
  | .any fs => '(' :: '|' :: writeAll g fs
  | .neg f => '(' :: '!' :: (write g f ++ [')'])
  | .item i => '(' :: (writeItem g i ++ [')'])

/-- Filters and the end of their list. -/
def writeAll (g : σ → List Char) : List (Filter (Item σ)) → List Char
  | [] => [')']
  | f :: fs => write g f ++ writeAll g fs

end

/-! ## The reader -/

/-- What an item compares. -/
def readLeft (text : List Char) : Option (Left × List Char) :=
  if h : text.takeWhile isLeft ≠ [] then
    some (⟨text.takeWhile isLeft, h, List.all_takeWhile⟩,
      text.dropWhile isLeft)
  else none

/-- The sign. -/
def readRel : List Char → Option (Rel × List Char)
  | '=' :: rest => some (.equal, rest)
  | '~' :: '=' :: rest => some (.approx, rest)
  | '>' :: '=' :: rest => some (.greater, rest)
  | '<' :: '=' :: rest => some (.less, rest)
  | _ => none

/-- The characters that a value goes on with. -/
def inValue (c : Char) : Bool := decide (c ≠ ')')

/-- The pieces of a value. -/
def readPieces (text : List Char) : Option (List (List UInt8)) :=
  (text.splitOn '*').mapM unescape

/-- An item and its parenthesis. -/
def readItem (text : List Char) :
    Option (Item (List UInt8) × List Char) := do
  let (left, rest) ← readLeft text
  let (rel, rest) ← readRel rest
  let pieces ← readPieces (rest.takeWhile inValue)
  match pieces, rest.dropWhile inValue with
  | first :: more, _ :: rest => some (⟨left, rel, first, more⟩, rest)
  | _, _ => none

mutual

/-- A filter, with a bound on its depth and its length. -/
def readFilter : Nat → List Char →
    Option (Filter (Item (List UInt8)) × List Char)
  | 0, _ => none
  | n + 1, '(' :: '&' :: rest => do
      let (fs, rest) ← readFilters n rest
      some (.all fs, rest)
  | n + 1, '(' :: '|' :: rest => do
      let (fs, rest) ← readFilters n rest
      some (.any fs, rest)
  | n + 1, '(' :: '!' :: rest => do
      let (f, rest) ← readFilter n rest
      match rest with
      | ')' :: rest => some (.neg f, rest)
      | _ => none
  | _ + 1, '(' :: rest => do
      let (i, rest) ← readItem rest
      some (.item i, rest)
  | _, _ => none

/-- Filters to the end of their list. -/
def readFilters : Nat → List Char →
    Option (List (Filter (Item (List UInt8))) × List Char)
  | 0, _ => none
  | _ + 1, ')' :: rest => some ([], rest)
  | n + 1, text => do
      let (f, rest) ← readFilter n text
      let (fs, rest) ← readFilters n rest
      some (f :: fs, rest)

end

/-- The filter of a text. -/
def parse (text : List Char) : Option (Filter (Item (List UInt8))) :=
  match readFilter text.length text with
  | some (f, []) => some f
  | _ => none

/-! ## Reading what was written -/

theorem splitOn_joinStars {more : List (List Char)} :
    ∀ {first : List Char}, '*' ∉ first → (∀ s ∈ more, '*' ∉ s) →
      (joinStars first more).splitOn '*' = first :: more := by
  induction more with
  | nil =>
      intro first hfirst _
      rw [joinStars, List.flatMap_nil, List.append_nil]
      exact List.splitOn_eq_singleton hfirst
  | cons s more ih =>
      intro first hfirst hmore
      have hrest : joinStars first (s :: more)
          = first ++ '*' :: joinStars s more := by
        rw [joinStars, List.flatMap_cons]
        rfl
      rw [hrest, List.splitOn_append_cons_self_of_not_mem hfirst,
        ih (hmore s List.mem_cons_self)
          (fun t ht => hmore t (List.mem_cons_of_mem _ ht))]

theorem mem_joinStars {c : Char} (hc : c ≠ '*') {first : List Char}
    {more : List (List Char)} (h : c ∈ joinStars first more) :
    c ∈ first ∨ ∃ s ∈ more, c ∈ s := by
  rcases List.mem_append.mp h with h | h
  · exact Or.inl h
  · obtain ⟨s, hs, h⟩ := List.mem_flatMap.mp h
    rcases List.mem_cons.mp h with h | h
    · exact absurd h hc
    · exact Or.inr ⟨s, hs, h⟩

theorem readRel_text (rel : Rel) (rest : List Char) :
    readRel (rel.text ++ rest) = some (rel, rest) := by
  cases rel <;> rfl

theorem rel_text_cons (rel : Rel) :
    ∃ c cs, rel.text = c :: cs ∧ isLeft c = false := by
  cases rel
  · exact ⟨'=', [], rfl, rfl⟩
  · exact ⟨'~', ['='], rfl, rfl⟩
  · exact ⟨'>', ['='], rfl, rfl⟩
  · exact ⟨'<', ['='], rfl, rfl⟩

theorem readLeft_text (left : Left) {c : Char} (hc : isLeft c = false)
    (rest : List Char) :
    readLeft (left.text ++ c :: rest) = some (left, c :: rest) := by
  have hall := List.all_eq_true.mp left.isLeft
  have htake : (left.text ++ c :: rest).takeWhile isLeft = left.text := by
    rw [List.takeWhile_append_of_pos hall,
      List.takeWhile_cons_of_neg (by rw [hc]; exact Bool.false_ne_true),
      List.append_nil]
  have hdrop : (left.text ++ c :: rest).dropWhile isLeft = c :: rest := by
    rw [List.dropWhile_append_of_pos hall,
      List.dropWhile_cons_of_neg (by rw [hc]; exact Bool.false_ne_true)]
  rw [readLeft, dif_pos (by rw [htake]; exact left.nonEmpty), hdrop]
  congr 2
  cases left
  congr 1

variable {g : σ → List Char} {o : σ → List UInt8}

theorem mapM_unescape (hg : ∀ s, unescape (g s) = some (o s)) (xs : List σ) :
    (xs.map g).mapM unescape = some (xs.map o) := by
  induction xs with
  | nil => rfl
  | cons s xs ih =>
      rw [List.map_cons, List.mapM_cons, hg, ih]
      rfl

/-- The pieces of a value are read back. -/
theorem readPieces_join (hg : ∀ s, unescape (g s) = some (o s)) (first : σ)
    (more : List σ) :
    readPieces (joinStars (g first) (more.map g))
      = some (o first :: more.map o) := by
  have hstar : ∀ s, '*' ∉ g s := fun s =>
    not_mem_of_unescape (hg s) rfl (by decide)
  rw [readPieces, splitOn_joinStars (hstar first)]
  · exact mapM_unescape hg (first :: more)
  · intro s hs
    obtain ⟨x, -, rfl⟩ := List.mem_map.mp hs
    exact hstar x

/-- So is an item. -/
theorem readItem_write (hg : ∀ s, unescape (g s) = some (o s)) (i : Item σ)
    (rest : List Char) :
    readItem (writeItem g i ++ ')' :: rest) = some (i.map o, rest) := by
  obtain ⟨c, cs, hrel, hc⟩ := rel_text_cons i.rel
  have hplain : ∀ d ∈ joinStars (g i.first) (i.more.map g),
      inValue d = true := by
    intro d hd
    refine decide_eq_true ?_
    rintro rfl
    rcases mem_joinStars (by decide) hd with hd | ⟨s, hs, hd⟩
    · exact not_mem_of_unescape (hg _) rfl (by decide) hd
    · obtain ⟨x, -, rfl⟩ := List.mem_map.mp hs
      exact not_mem_of_unescape (hg _) rfl (by decide) hd
  have hend : ¬ inValue ')' = true := by decide
  have htext : writeItem g i ++ ')' :: rest
      = i.left.text ++ (i.rel.text
        ++ (joinStars (g i.first) (i.more.map g) ++ ')' :: rest)) := by
    rw [writeItem, List.append_assoc, List.append_assoc]
  have hleft : readLeft (i.left.text ++ (i.rel.text
      ++ (joinStars (g i.first) (i.more.map g) ++ ')' :: rest)))
      = some (i.left, i.rel.text
        ++ (joinStars (g i.first) (i.more.map g) ++ ')' :: rest)) := by
    rw [hrel]
    exact readLeft_text i.left hc _
  rw [htext, readItem, hleft]
  show (readRel _).bind _ = _
  rw [readRel_text]
  show (readPieces (List.takeWhile inValue _)).bind _ = _
  rw [List.takeWhile_append_of_pos hplain, List.takeWhile_cons_of_neg hend,
    List.append_nil, readPieces_join hg]
  rw [Option.bind_some, List.dropWhile_append_of_pos hplain,
    List.dropWhile_cons_of_neg hend]
  rfl

/-- A filter begins with a parenthesis. -/
theorem write_cons (f : Filter (Item σ)) : ∃ cs, write g f = '(' :: cs := by
  cases f with
  | all fs => exact ⟨_, by rw [write]⟩
  | any fs => exact ⟨_, by rw [write]⟩
  | neg f => exact ⟨_, by rw [write]⟩
  | item i => exact ⟨_, by rw [write]⟩

theorem length_write_pos (f : Filter (Item σ)) : 0 < (write g f).length := by
  obtain ⟨cs, hcs⟩ := @write_cons _ g f
  rw [hcs]
  exact Nat.succ_pos _

theorem length_writeAll_pos (fs : List (Filter (Item σ))) :
    0 < (writeAll g fs).length := by
  cases fs with
  | nil => exact Nat.one_pos
  | cons f fs =>
      rw [writeAll, List.length_append]
      exact Nat.add_pos_left (length_write_pos f) _

/-- An item is no list and no negation. -/
theorem readFilter_item (n : Nat) (i : Item σ) (text : List Char) :
    readFilter (n + 1) ('(' :: (writeItem g i ++ text))
      = (readItem (writeItem g i ++ text)).map
        (fun r => (.item r.1, r.2)) := by
  obtain ⟨c, cs, hleft⟩ := List.exists_cons_of_ne_nil i.left.nonEmpty
  have hc : isLeft c = true := by
    refine List.all_eq_true.mp i.left.isLeft c ?_
    rw [hleft]
    exact List.mem_cons_self
  have htext : writeItem g i ++ text
      = c :: (cs ++ i.rel.text ++ joinStars (g i.first) (i.more.map g)
        ++ text) := by
    rw [writeItem, hleft]
    rfl
  rw [htext, readFilter]
  · cases readItem _ with
    | none => rfl
    | some r => rfl
  · rintro rest hand
    rw [(List.cons.inj hand).1] at hc
    cases hc
  · rintro rest hor
    rw [(List.cons.inj hor).1] at hc
    cases hc
  · rintro rest hnot
    rw [(List.cons.inj hnot).1] at hc
    cases hc

mutual

theorem readFilter_write (hg : ∀ s, unescape (g s) = some (o s))
    (f : Filter (Item σ)) (n : Nat) (rest : List Char)
    (hn : (write g f).length ≤ n) :
    readFilter n (write g f ++ rest) = some (f.map (Item.map o), rest) := by
  match f, n with
  | .all fs, 0 => rw [write] at hn; cases hn
  | .any fs, 0 => rw [write] at hn; cases hn
  | .neg f, 0 => rw [write] at hn; cases hn
  | .item i, 0 => rw [write] at hn; cases hn
  | .all fs, n + 1 =>
      rw [write, List.length_cons, List.length_cons] at hn
      rw [write, List.cons_append, List.cons_append, readFilter,
        readFilters_write hg fs n rest (by omega), Filter.map]
      rfl
  | .any fs, n + 1 =>
      rw [write, List.length_cons, List.length_cons] at hn
      rw [write, List.cons_append, List.cons_append, readFilter,
        readFilters_write hg fs n rest (by omega), Filter.map]
      rfl
  | .neg f, n + 1 =>
      rw [write, List.length_cons, List.length_cons, List.length_append] at hn
      rw [write, List.cons_append, List.cons_append, List.append_assoc,
        readFilter, readFilter_write hg f n _ (by omega), Filter.map]
      rfl
  | .item i, n + 1 =>
      rw [write, List.cons_append, List.append_assoc, readFilter_item,
        List.singleton_append, readItem_write hg, Filter.map]
      rfl

theorem readFilters_write (hg : ∀ s, unescape (g s) = some (o s))
    (fs : List (Filter (Item σ))) (n : Nat) (rest : List Char)
    (hn : (writeAll g fs).length ≤ n) :
    readFilters n (writeAll g fs ++ rest)
      = some (mapAll (Item.map o) fs, rest) := by
  match fs, n with
  | [], 0 => cases hn
  | [], n + 1 => rfl
  | f :: fs, 0 =>
      exact absurd (length_writeAll_pos (f :: fs)) (Nat.not_lt.mpr hn)
  | f :: fs, n + 1 =>
      rw [writeAll, List.length_append] at hn
      have hfilter := @length_write_pos _ g f
      have hfilters := @length_writeAll_pos _ g fs
      rw [writeAll, List.append_assoc]
      obtain ⟨cs, hcs⟩ := @write_cons _ g f
      rw [readFilters]
      · rw [readFilter_write hg f n _ (by omega)]
        show (readFilters n _).bind _ = _
        rw [readFilters_write hg fs n rest (by omega), mapAll]
        rfl
      · intro rest' h
        rw [hcs] at h
        exact absurd (List.cons.inj h).1 (by decide)

end

/-- A filter is read back from its text, with what its pieces stand for. -/
theorem parse_write (hg : ∀ s, unescape (g s) = some (o s))
    (f : Filter (Item σ)) :
    parse (write g f) = some (f.map (Item.map o)) := by
  have hread := readFilter_write hg f (write g f).length [] le_rfl
  rw [List.append_nil] at hread
  rw [parse, hread]

end CvFilter
