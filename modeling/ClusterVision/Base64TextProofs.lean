import Mathlib.Data.List.Basic
import Mathlib.Tactic.SplitIfs

/-! # Base64

    Octets as text in the standard alphabet, three octets in four characters,
    with padding at the end.  The octets are read back from their text. -/

namespace CvBase64

/-- The character of six bits. -/
def digit (n : Nat) : Char :=
  if n < 26 then Char.ofNat (65 + n)
  else if n < 52 then Char.ofNat (71 + n)
  else if n < 62 then Char.ofNat (n - 4)
  else if n = 62 then '+'
  else '/'

/-- The six bits of a character. -/
def value (c : Char) : Option Nat :=
  if 'A' ≤ c ∧ c ≤ 'Z' then some (c.toNat - 65)
  else if 'a' ≤ c ∧ c ≤ 'z' then some (c.toNat - 71)
  else if '0' ≤ c ∧ c ≤ '9' then some (c.toNat + 4)
  else if c = '+' then some 62
  else if c = '/' then some 63
  else none

/-- `b64encode`. -/
def encode : List UInt8 → List Char
  | [] => []
  | [a] => [digit (a.toNat / 4), digit (a.toNat % 4 * 16), '=', '=']
  | [a, b] =>
      [digit (a.toNat / 4), digit (a.toNat % 4 * 16 + b.toNat / 16),
        digit (b.toNat % 16 * 4), '=']
  | a :: b :: c :: rest =>
      digit (a.toNat / 4) :: digit (a.toNat % 4 * 16 + b.toNat / 16) ::
        digit (b.toNat % 16 * 4 + c.toNat / 64) :: digit (c.toNat % 64) ::
          encode rest

/-- The three octets of four characters, each from two of them. -/
def first (x y : Nat) : UInt8 := UInt8.ofNat (x * 4 + y / 16)

@[inherit_doc first]
def second (y z : Nat) : UInt8 := UInt8.ofNat (y % 16 * 16 + z / 4)

@[inherit_doc first]
def third (z u : Nat) : UInt8 := UInt8.ofNat (z % 4 * 64 + u)

/-- `b64decode`; padding is at the end only. -/
def decode : List Char → Option (List UInt8)
  | [] => some []
  | a :: b :: c :: d :: rest => do
      let x ← value a
      let y ← value b
      if d = '=' then
        if rest ≠ [] then none
        else if c = '=' then some [first x y]
        else do
          let z ← value c
          some [first x y, second y z]
      else do
        let z ← value c
        let u ← value d
        (decode rest).map (fun octets =>
          first x y :: second y z :: third z u :: octets)
  | _ => none

/-! ## Reading what was written -/

theorem value_digit : ∀ n, n < 64 → value (digit n) = some n := by
  decide

theorem digit_ne : ∀ n, n < 64 → digit n ≠ '=' := by
  decide

theorem octet_eq {n : Nat} {a : UInt8} (h : n = a.toNat) :
    UInt8.ofNat n = a := by
  rw [h, UInt8.ofNat_toNat]

theorem first_eq (a : UInt8) {y : Nat} (h : y / 16 = a.toNat % 4) :
    first (a.toNat / 4) y = a := by
  refine octet_eq ?_
  rw [h]
  omega

theorem second_eq (b : UInt8) {y z : Nat} (hy : y % 16 = b.toNat / 16)
    (hz : z / 4 = b.toNat % 16) : second y z = b := by
  refine octet_eq ?_
  rw [hy, hz]
  omega

theorem third_eq (c : UInt8) {z : Nat} (h : z % 4 = c.toNat / 64) :
    third z (c.toNat % 64) = c := by
  refine octet_eq ?_
  rw [h]
  omega

/-- **The octets are read back.** -/
theorem decode_encode (octets : List UInt8) :
    decode (encode octets) = some octets := by
  fun_induction encode octets with
  | case1 => rfl
  | case2 a =>
      have ha := a.toNat_lt
      rw [decode, value_digit _ (by omega), value_digit _ (by omega)]
      show some [first _ _] = _
      rw [first_eq a (by omega)]
  | case3 a b =>
      have ha := a.toNat_lt
      have hb := b.toNat_lt
      rw [decode, value_digit _ (by omega), value_digit _ (by omega)]
      show (if digit (b.toNat % 16 * 4) = '=' then _ else _) = _
      rw [if_neg (digit_ne _ (by omega)), value_digit _ (by omega)]
      show some [first _ _, second _ _] = _
      rw [first_eq a (by omega), second_eq b (by omega) (by omega)]
  | case4 a b c rest ih =>
      have ha := a.toNat_lt
      have hb := b.toNat_lt
      have hc := c.toNat_lt
      rw [decode, value_digit _ (by omega), value_digit _ (by omega)]
      show (if digit (c.toNat % 64) = '=' then _ else _) = _
      rw [if_neg (digit_ne _ (by omega)), value_digit _ (by omega),
        value_digit _ (by omega)]
      show (decode (encode rest)).map _ = _
      rw [ih, Option.map_some, first_eq a (by omega),
        second_eq b (by omega) (by omega), third_eq c (by omega)]

end CvBase64
