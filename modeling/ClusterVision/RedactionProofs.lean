import ClusterVision.AuditProofs
import Mathlib.Data.List.Forall2

/-! # Redacted payloads

    What the audit log stores of a request body.  A position in a JSON value is
    a path of child numbers; it is hidden when the path enters a redacted key.
    The main result says, of every value at once, that hidden positions show
    the marker, that all others are as they were, and that nothing that stands
    under a redacted key can influence the redaction. -/

namespace CvAudit

open CvProg CvTable CvIso CvKube CvBackend CvRbac CvHttp

/-! ## Positions -/

namespace Json

/-- The child with a number. -/
def child : Json → Nat → Option Json
  | .list xs, i => xs[i]?
  | .dict entries, i => entries[i]?.map Prod.snd
  | _, _ => none

/-- Does the child with a number stand under a redacted key? -/
def hides : Json → Nat → Bool
  | .dict entries, i => (entries[i]?.map (fun e => redacted e.1)).getD false
  | _, _ => false

/-- The value at the end of a path. -/
def at? : Json → List Nat → Option Json
  | v, [] => some v
  | v, i :: path => (v.child i).bind (fun c => c.at? path)

/-- Does a path enter no redacted key? -/
def Exposed : Json → List Nat → Prop
  | _, [] => True
  | v, i :: path =>
      v.hides i = false ∧ ∀ c, v.child i = some c → c.Exposed path

end Json

/-- What one node of a value is: the length of a list, the keys of a dict in
    their order, or all of a leaf. -/
inductive Shape where
  | list (length : Nat)
  | dict (keys : List Str)
  | leaf (value : Json)

/-- The shape of a value. -/
def Json.shape : Json → Shape
  | .list xs => .list xs.length
  | .dict entries => .dict (entries.map Prod.fst)
  | value => .leaf value

/-- Two values differ in nothing but what stands under redacted keys. -/
def SameOutside (v w : Json) : Prop :=
  ∀ path, v.Exposed path →
    (w.at? path).map Json.shape = (v.at? path).map Json.shape

/-- `"***redacted***"`. -/
def marker : Json := .str (str "***redacted***")

/-- At any depth, what stands under a redacted key is the marker. -/
def AllHidden (v : Json) : Prop :=
  ∀ path u i c, v.at? path = some u → u.hides i = true → u.child i = some c →
    c = marker

mutual

/-- The calls of `_redact` that are on the stack at a time. -/
def Json.depth : Json → Nat
  | .list xs => depthItems xs + 1
  | .dict entries => depthEntries entries + 1
  | _ => 1

def depthItems : List Json → Nat
  | [] => 0
  | x :: xs => max x.depth (depthItems xs)

def depthEntries : List (Str × Json) → Nat
  | [] => 0
  | (_, v) :: entries => max v.depth (depthEntries entries)

end

/-- What redaction should do with a value. -/
structure Redacts (stack : Nat) (v : Json) : Prop where
  returns : v.depth ≤ stack → ∃ v', redact stack v = .ok v'
  hidden : ∀ v', redact stack v = .ok v' → AllHidden v'
  outside : ∀ v', redact stack v = .ok v' → SameOutside v v'
  idempotent : ∀ v', redact stack v = .ok v' → redact stack v' = .ok v'
  interference : ∀ w, SameOutside v w → redact stack w = redact stack v

/-! ## Shapes -/

/-- The number of children. -/
def Shape.size : Shape → Nat
  | .list length => length
  | .dict keys => keys.length
  | .leaf _ => 0

theorem isSome_item {α : Type} (xs : List α) (i : Nat) :
    xs[i]?.isSome = decide (i < xs.length) := by
  rw [Bool.eq_iff_iff, decide_eq_true_eq, Option.isSome_iff_ne_none, Ne,
    List.getElem?_eq_none_iff, Nat.not_le]

theorem isSome_child (v : Json) (i : Nat) :
    (v.child i).isSome = decide (i < v.shape.size) := by
  cases v with
  | list xs => exact isSome_item xs i
  | dict entries =>
      rw [Json.child, Option.isSome_map, Json.shape, Shape.size,
        List.length_map]
      exact isSome_item entries i
  | null | bool | number | nan | infinity | str => rfl

/-- A leaf is all there is. -/
theorem eq_of_shape_leaf {v w : Json} (h : w.shape = .leaf v) : w = v := by
  cases w with
  | list ys => exact nomatch h
  | dict entries => exact nomatch h
  | null | bool | number | nan | infinity | str => exact Shape.leaf.inj h

/-- Where one value has a child, a value of the same shape has one. -/
theorem exists_child {v w c : Json} {i : Nat} (h : w.shape = v.shape)
    (hc : v.child i = some c) : ∃ d, w.child i = some d := by
  rw [← Option.isSome_iff_exists, isSome_child, h, ← isSome_child, hc]
  rfl

/-- The values that are the same outside the redacted keys, step by step. -/
theorem sameOutside_iff {v w : Json} :
    SameOutside v w ↔ w.shape = v.shape ∧ ∀ i c d, v.hides i = false →
      v.child i = some c → w.child i = some d → SameOutside c d := by
  constructor
  · intro h
    have hshape : w.shape = v.shape := Option.some.inj (h [] trivial)
    refine ⟨hshape, ?_⟩
    intro i c d hopen hc hd path hexposed
    have hpath := h (i :: path) ⟨hopen, fun c' hc' => by
      obtain rfl := Option.some.inj (hc.symm.trans hc')
      exact hexposed⟩
    rw [Json.at?, Json.at?, hc, hd] at hpath
    exact hpath
  · rintro ⟨hshape, hchildren⟩ path hexposed
    cases path with
    | nil => exact congrArg some hshape
    | cons i path =>
        obtain ⟨hopen, hrest⟩ := hexposed
        rw [Json.at?, Json.at?]
        cases hc : v.child i with
        | none =>
            have hd : w.child i = none := by
              rw [← Option.not_isSome_iff_eq_none, isSome_child, hshape,
                ← isSome_child, hc]
              exact Bool.false_ne_true
            rw [hd]
        | some c =>
            obtain ⟨d, hd⟩ := exists_child hshape hc
            rw [hd]
            exact hchildren i c d hopen hc hd path (hrest c hc)

theorem sameOutside_list {xs : List Json} {w : Json} :
    SameOutside (.list xs) w
      ↔ ∃ ys, w = .list ys ∧ List.Forall₂ SameOutside xs ys := by
  rw [sameOutside_iff]
  constructor
  · rintro ⟨hshape, hchildren⟩
    cases w with
    | list ys =>
        have hlength : ys.length = xs.length := Shape.list.inj hshape
        refine ⟨ys, rfl, List.forall₂_iff_get.mpr ⟨hlength.symm, ?_⟩⟩
        intro i hx hy
        exact hchildren i _ _ rfl (List.getElem?_eq_getElem hx)
          (List.getElem?_eq_getElem hy)
    | dict entries => exact nomatch hshape
    | null | bool | number | nan | infinity | str => exact nomatch hshape
  · rintro ⟨ys, rfl, hsame⟩
    obtain ⟨hlength, hget⟩ := List.forall₂_iff_get.mp hsame
    refine ⟨congrArg Shape.list hlength.symm, ?_⟩
    intro i c d _ hc hd
    obtain ⟨hx, rfl⟩ := List.getElem?_eq_some_iff.mp hc
    obtain ⟨hy, rfl⟩ := List.getElem?_eq_some_iff.mp hd
    exact hget i hx hy

/-- Two items of a dict with one key, and alike unless it is redacted. -/
def SameEntry (e f : Str × Json) : Prop :=
  f.1 = e.1 ∧ (redacted e.1 = false → SameOutside e.2 f.2)

theorem sameOutside_dict {entries : List (Str × Json)} {w : Json} :
    SameOutside (.dict entries) w
      ↔ ∃ entries', w = .dict entries' ∧
        List.Forall₂ SameEntry entries entries' := by
  rw [sameOutside_iff]
  constructor
  · rintro ⟨hshape, hchildren⟩
    cases w with
    | dict entries' =>
        have hkeys : entries'.map Prod.fst = entries.map Prod.fst :=
          Shape.dict.inj hshape
        have hlength : entries'.length = entries.length := by
          rw [← List.length_map (f := Prod.fst), hkeys, List.length_map]
        refine ⟨entries', rfl, List.forall₂_iff_get.mpr ⟨hlength.symm, ?_⟩⟩
        intro i hx hy
        have hkey := congrArg (fun keys => keys[i]?) hkeys
        simp only [List.getElem?_map, List.getElem?_eq_getElem hx,
          List.getElem?_eq_getElem hy, Option.map_some,
          Option.some.injEq] at hkey
        refine ⟨hkey, fun hopen => ?_⟩
        refine hchildren i _ _ ?_ ?_ ?_
        · rw [Json.hides, List.getElem?_eq_getElem hx]
          exact hopen
        · rw [Json.child, List.getElem?_eq_getElem hx]
          rfl
        · rw [Json.child, List.getElem?_eq_getElem hy]
          rfl
    | list ys => exact nomatch hshape
    | null | bool | number | nan | infinity | str => exact nomatch hshape
  · rintro ⟨entries', rfl, hsame⟩
    obtain ⟨hlength, hget⟩ := List.forall₂_iff_get.mp hsame
    refine ⟨congrArg Shape.dict (List.ext_getElem ?_ ?_), ?_⟩
    · rw [List.length_map, List.length_map, hlength]
    · intro i hi hi'
      rw [List.getElem_map, List.getElem_map]
      exact (hget i (by simpa using hi') (by simpa using hi)).1
    · intro i c d hopen hc hd
      obtain ⟨e, he, rfl⟩ := Option.map_eq_some_iff.mp hc
      obtain ⟨f, hf, rfl⟩ := Option.map_eq_some_iff.mp hd
      rw [Json.hides, he] at hopen
      obtain ⟨hx, rfl⟩ := List.getElem?_eq_some_iff.mp he
      obtain ⟨hy, rfl⟩ := List.getElem?_eq_some_iff.mp hf
      exact (hget i hx hy).2 hopen

/-! ## Lists of computations -/

/-- A map over a list that may fail, item by item. -/
theorem mapM_ok_iff {α β ε : Type} {f : α → Except ε β} {xs : List α}
    {ys : List β} :
    xs.mapM f = .ok ys ↔ List.Forall₂ (fun x y => f x = .ok y) xs ys := by
  induction xs generalizing ys with
  | nil =>
      rw [List.forall₂_nil_left_iff, List.mapM_nil]
      exact ⟨fun h => (Except.ok.inj h).symm, fun h => by rw [h]; rfl⟩
  | cons x xs ih =>
      rw [List.mapM_cons, List.forall₂_cons_left_iff]
      cases hx : f x with
      | error e =>
          refine iff_of_false nofun ?_
          rintro ⟨y, ys', h, -⟩
          exact nomatch h
      | ok y =>
          show (xs.mapM f).map (List.cons y) = .ok ys ↔ _
          cases hxs : xs.mapM f with
          | error e =>
              refine iff_of_false nofun ?_
              rintro ⟨y', ys', -, h, -⟩
              rw [ih.mpr h] at hxs
              exact nomatch hxs
          | ok zs =>
              constructor
              · intro h
                exact ⟨y, zs, rfl, ih.mp hxs, (Except.ok.inj h).symm⟩
              · rintro ⟨y', ys', hy, h, rfl⟩
                rw [ih.mpr h] at hxs
                rw [Except.ok.inj hy, Except.ok.inj hxs]
                rfl

/-- It returns when it does for every item. -/
theorem mapM_returns {α β ε : Type} {f : α → Except ε β} {xs : List α}
    (h : ∀ x ∈ xs, ∃ y, f x = .ok y) : ∃ ys, xs.mapM f = .ok ys := by
  obtain ⟨ys, hys, -⟩ := mapM_all_iff (p := fun _ => true) |>.mpr
    (fun x hx => (h x hx).imp (fun y hy => ⟨hy, rfl⟩))
  exact ⟨ys, hys⟩

/-- What follows for the items of the second list. -/
theorem forall_right {α β : Type} {R : α → β → Prop} {P : β → Prop}
    {xs : List α} {ys : List β} (h : List.Forall₂ R xs ys)
    (hP : ∀ x y, R x y → P y) : ∀ y ∈ ys, P y := by
  induction h with
  | nil => exact fun y hy => nomatch hy
  | cons hxy _ ih =>
      rw [List.forall_mem_cons]
      exact ⟨hP _ _ hxy, ih⟩

/-- Lists whose items are treated alike. -/
theorem mapM_congr {α β ε : Type} {f : α → Except ε β} {xs ys : List α}
    (h : List.Forall₂ (fun x y => f y = f x) xs ys) :
    ys.mapM f = xs.mapM f := by
  induction h with
  | nil => rfl
  | cons hx hxs ih => rw [List.mapM_cons, List.mapM_cons, hx, ih]

/-! ## Values -/

/-- Redaction of a list, item by item. -/
theorem redact_list_ok {stack : Nat} {xs : List Json} {v : Json} :
    redact (stack + 1) (.list xs) = .ok v ↔ ∃ ys, v = .list ys ∧
      List.Forall₂ (fun x y => redact stack x = .ok y) xs ys := by
  rw [redact_list]
  cases hxs : xs.mapM (redact stack) with
  | error e =>
      refine iff_of_false nofun ?_
      rintro ⟨ys, -, h⟩
      rw [mapM_ok_iff.mpr h] at hxs
      exact nomatch hxs
  | ok ys =>
      constructor
      · intro h
        exact ⟨ys, (Except.ok.inj h).symm, mapM_ok_iff.mp hxs⟩
      · rintro ⟨ys', rfl, h⟩
        rw [mapM_ok_iff.mpr h] at hxs
        rw [Except.ok.inj hxs]
        rfl

theorem redact_dict_ok {stack : Nat} {entries : List (Str × Json)}
    {v : Json} :
    redact (stack + 1) (.dict entries) = .ok v ↔ ∃ entries',
      v = .dict entries' ∧
        List.Forall₂ (fun e f => redactEntry stack e = .ok f) entries
          entries' := by
  rw [redact_dict]
  cases hentries : entries.mapM (redactEntry stack) with
  | error e =>
      refine iff_of_false nofun ?_
      rintro ⟨ys, -, h⟩
      rw [mapM_ok_iff.mpr h] at hentries
      exact nomatch hentries
  | ok ys =>
      constructor
      · intro h
        exact ⟨ys, (Except.ok.inj h).symm, mapM_ok_iff.mp hentries⟩
      · rintro ⟨ys', rfl, h⟩
        rw [mapM_ok_iff.mpr h] at hentries
        rw [Except.ok.inj hentries]
        rfl

/-- Redaction of an item: the marker under a redacted key, the redacted value
    under any other. -/
theorem redactEntry_ok {stack : Nat} {e f : Str × Json} :
    redactEntry stack e = .ok f ↔ f.1 = e.1 ∧
      (redacted e.1 = true → f.2 = marker) ∧
      (redacted e.1 = false → redact stack e.2 = .ok f.2) := by
  obtain ⟨key, value⟩ := e
  obtain ⟨key', value'⟩ := f
  rw [redactEntry]
  by_cases hkey : redacted key = true
  · rw [if_pos hkey, Except.ok.injEq, Prod.mk.injEq]
    constructor
    · rintro ⟨rfl, rfl⟩
      refine ⟨rfl, fun _ => rfl, fun hopen => ?_⟩
      cases hkey.symm.trans hopen
    · rintro ⟨hname, hmarker, -⟩
      exact ⟨hname.symm, (hmarker hkey).symm⟩
  · rw [if_neg hkey]
    have hopen : redacted key = false := Bool.not_eq_true _ |>.mp hkey
    cases redact stack value with
    | error e =>
        refine iff_of_false (fun h => ?_) (fun h => ?_)
        · cases h
        · cases h.2.2 hopen
    | ok x =>
        constructor
        · intro h
          obtain ⟨rfl, rfl⟩ := Prod.mk.inj (Except.ok.inj h)
          exact ⟨rfl, fun hyes => absurd hyes hkey, fun _ => rfl⟩
        · rintro ⟨hname, -, hvalue⟩
          obtain rfl := Except.ok.inj (hvalue hopen)
          show Except.ok (key, x) = Except.ok (key', x)
          rw [show key' = key from hname]

theorem depth_le_items {x : Json} {xs : List Json} (h : x ∈ xs) :
    x.depth ≤ depthItems xs := by
  induction xs with
  | nil => exact nomatch h
  | cons y ys ih =>
      rw [depthItems]
      rcases List.mem_cons.mp h with rfl | h
      · exact Nat.le_max_left ..
      · exact Nat.le_trans (ih h) (Nat.le_max_right ..)

theorem depth_le_entries {e : Str × Json} {entries : List (Str × Json)}
    (h : e ∈ entries) : e.2.depth ≤ depthEntries entries := by
  induction entries with
  | nil => exact nomatch h
  | cons f entries ih =>
      rw [depthEntries]
      rcases List.mem_cons.mp h with rfl | h
      · exact Nat.le_max_left ..
      · exact Nat.le_trans (ih h) (Nat.le_max_right ..)

/-- With room for the depth of a value its redaction returns. -/
theorem redact_returns (stack : Nat) : ∀ v : Json, v.depth ≤ stack →
    ∃ v', redact stack v = .ok v' := by
  induction stack with
  | zero =>
      intro v h
      cases v <;> exact absurd h (Nat.not_succ_le_zero _)
  | succ stack ih =>
      intro v h
      cases v with
      | list xs =>
          have hitems : depthItems xs ≤ stack := Nat.le_of_succ_le_succ h
          obtain ⟨ys, hys⟩ := mapM_returns
            (fun x hx => ih x (Nat.le_trans (depth_le_items hx) hitems))
          exact ⟨.list ys, redact_list_ok.mpr ⟨ys, rfl, mapM_ok_iff.mp hys⟩⟩
      | dict entries =>
          have hitems : depthEntries entries ≤ stack :=
            Nat.le_of_succ_le_succ h
          have hentry : ∀ e ∈ entries, ∃ f, redactEntry stack e = .ok f := by
            intro e he
            obtain ⟨y, hy⟩ := ih e.2 (Nat.le_trans (depth_le_entries he) hitems)
            rw [redactEntry, hy]
            by_cases hkey : redacted e.1 = true
            · exact ⟨_, if_pos hkey⟩
            · exact ⟨_, if_neg hkey⟩
          obtain ⟨entries', hall⟩ := mapM_returns hentry
          exact ⟨.dict entries',
            redact_dict_ok.mpr ⟨entries', rfl, mapM_ok_iff.mp hall⟩⟩
      | null | bool | number | nan | infinity | str => exact ⟨_, rfl⟩

/-- Outside the redacted keys a redaction is the value. -/
theorem redact_exact (stack : Nat) : ∀ v v' : Json,
    redact stack v = .ok v' → SameOutside v v' := by
  induction stack with
  | zero => exact fun v v' h => nomatch h
  | succ stack ih =>
      intro v v' h
      cases v with
      | list xs =>
          obtain ⟨ys, rfl, hall⟩ := redact_list_ok.mp h
          exact sameOutside_list.mpr ⟨ys, rfl, hall.imp (fun x y => ih x y)⟩
      | dict entries =>
          obtain ⟨entries', rfl, hall⟩ := redact_dict_ok.mp h
          refine sameOutside_dict.mpr ⟨entries', rfl, hall.imp ?_⟩
          intro e f hef
          obtain ⟨hname, -, hvalue⟩ := redactEntry_ok.mp hef
          exact ⟨hname, fun hopen => ih e.2 f.2 (hvalue hopen)⟩
      | null | bool | number | nan | infinity | str =>
          obtain rfl := Except.ok.inj h
          exact fun _ _ => rfl

/-- A redaction is its own redaction. -/
theorem redact_idempotent (stack : Nat) : ∀ v v' : Json,
    redact stack v = .ok v' → redact stack v' = .ok v' := by
  induction stack with
  | zero => exact fun v v' h => nomatch h
  | succ stack ih =>
      intro v v' h
      cases v with
      | list xs =>
          obtain ⟨ys, rfl, hall⟩ := redact_list_ok.mp h
          refine redact_list_ok.mpr ⟨ys, rfl, ?_⟩
          rw [List.forall₂_same]
          exact forall_right hall (fun x y => ih x y)
      | dict entries =>
          obtain ⟨entries', rfl, hall⟩ := redact_dict_ok.mp h
          refine redact_dict_ok.mpr ⟨entries', rfl, ?_⟩
          rw [List.forall₂_same]
          refine forall_right hall (fun e f hef => ?_)
          obtain ⟨hname, hmarker, hvalue⟩ := redactEntry_ok.mp hef
          rw [redactEntry_ok, hname]
          exact ⟨rfl, hmarker, fun hopen => ih e.2 f.2 (hvalue hopen)⟩
      | null | bool | number | nan | infinity | str =>
          obtain rfl := Except.ok.inj h
          exact h

/-- What stands under redacted keys has no influence. -/
theorem redact_interference (stack : Nat) : ∀ v w : Json, SameOutside v w →
    redact stack w = redact stack v := by
  induction stack with
  | zero => exact fun v w _ => rfl
  | succ stack ih =>
      intro v w h
      cases v with
      | list xs =>
          obtain ⟨ys, rfl, hall⟩ := sameOutside_list.mp h
          rw [redact_list, redact_list,
            mapM_congr (hall.imp (fun x y => ih x y))]
      | dict entries =>
          obtain ⟨entries', rfl, hall⟩ := sameOutside_dict.mp h
          rw [redact_dict, redact_dict, mapM_congr (hall.imp ?_)]
          rintro ⟨key, value⟩ ⟨key', value'⟩ ⟨hname, hvalue⟩
          obtain rfl : key' = key := hname
          rw [redactEntry, redactEntry]
          by_cases hkey : redacted key' = true
          · rw [if_pos hkey, if_pos hkey]
          · rw [if_neg hkey, if_neg hkey,
              ih value value' (hvalue (Bool.not_eq_true _ |>.mp hkey))]
      | null | bool | number | nan | infinity | str =>
          rw [eq_of_shape_leaf (sameOutside_iff.mp h).1]

/-- A leaf has nothing to hide. -/
theorem allHidden_leaf {v : Json} (h : v.shape = .leaf v) : AllHidden v := by
  have hchild : ∀ i, v.child i = none := by
    intro i
    rw [← Option.not_isSome_iff_eq_none, isSome_child, h]
    exact fun hlt => absurd (of_decide_eq_true hlt) (Nat.not_lt_zero i)
  intro path u i c hu hhides hc
  cases path with
  | nil =>
      obtain rfl := Option.some.inj hu
      rw [hchild] at hc
      exact nomatch hc
  | cons j path =>
      rw [Json.at?, hchild] at hu
      exact nomatch hu

/-- At any depth of a redaction the redacted keys have the marker. -/
theorem redact_hidden (stack : Nat) : ∀ v v' : Json,
    redact stack v = .ok v' → AllHidden v' := by
  induction stack with
  | zero => exact fun v v' h => nomatch h
  | succ stack ih =>
      intro v v' h path u i c hu hhides hc
      cases v with
      | list xs =>
          obtain ⟨ys, rfl, hall⟩ := redact_list_ok.mp h
          cases path with
          | nil =>
              obtain rfl := Option.some.inj hu
              exact nomatch hhides
          | cons j path =>
              obtain ⟨y, hy, hrest⟩ := Option.bind_eq_some_iff.mp hu
              exact forall_right hall (fun x y => ih x y) y
                (List.mem_of_getElem? hy) path u i c hrest hhides hc
      | dict entries =>
          obtain ⟨entries', rfl, hall⟩ := redact_dict_ok.mp h
          cases path with
          | nil =>
              obtain rfl := Option.some.inj hu
              obtain ⟨f, hf, rfl⟩ := Option.map_eq_some_iff.mp hc
              rw [Json.hides, hf] at hhides
              have hmarker := forall_right hall (P := fun f =>
                redacted f.1 = true → f.2 = marker) (fun e f hef => by
                  obtain ⟨hname, hmarker, -⟩ := redactEntry_ok.mp hef
                  rw [hname]
                  exact hmarker)
              exact hmarker f (List.mem_of_getElem? hf) hhides
          | cons j path =>
              obtain ⟨y, hy, hrest⟩ := Option.bind_eq_some_iff.mp hu
              obtain ⟨f, hf, rfl⟩ := Option.map_eq_some_iff.mp hy
              have hvalue : AllHidden f.2 := by
                refine forall_right hall (P := fun f => AllHidden f.2)
                  (fun e f hef => ?_) f (List.mem_of_getElem? hf)
                obtain ⟨-, hmarker, hopen⟩ := redactEntry_ok.mp hef
                by_cases hkey : redacted e.1 = true
                · rw [hmarker hkey]
                  exact allHidden_leaf rfl
                · exact ih e.2 f.2 (hopen (Bool.not_eq_true _ |>.mp hkey))
              exact hvalue path u i c hrest hhides hc
      | null | bool | number | nan | infinity | str =>
          obtain rfl := Except.ok.inj h
          exact allHidden_leaf rfl path u i c hu hhides hc

/-- For every JSON value and every room on the stack: the redaction returns if
    the value is not nested deeper, has the marker under every redacted key and
    is the value anywhere else, is its own redaction, and is the redaction of
    every value that differs only under redacted keys. -/
theorem redact_exact_and_blind (stack : Nat) (v : Json) : Redacts stack v where
  returns := redact_returns stack v
  hidden := redact_hidden stack v
  outside := redact_exact stack v
  idempotent := redact_idempotent stack v
  interference := redact_interference stack v

/-- So the audit log shows the same for two bodies that differ only under
    redacted keys. -/
theorem auditPayload_interference {env : AuditEnv} {body body' : List UInt8}
    {v w : Json} (hbody : body ≠ []) (hbody' : body' ≠ [])
    (hv : env.loads body = .ok v) (hw : env.loads body' = .ok w)
    (h : SameOutside v w) : auditPayload env body' = auditPayload env body := by
  rw [auditPayload, auditPayload, if_neg hbody, if_neg hbody', hv, hw]
  exact redact_interference env.recursionLimit v w h

end CvAudit
