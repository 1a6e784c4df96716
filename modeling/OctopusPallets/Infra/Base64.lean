import Mathlib.Data.List.Basic
import Mathlib.Tactic.Common

/-!
# Base64

The standard alphabet with padding. Three bytes are four digits of six bits each; what is left at the
end is filled up with `=`.

* `value_digit` — the alphabet
* `decode_encode` — what was encoded is decoded
-/

namespace Infra.Base64

def digit (n : Nat) : Char :=
  if n < 26 then Char.ofNat (65 + n)
  else if n < 52 then Char.ofNat (71 + n)
  else if n < 62 then Char.ofNat (n - 4)
  else if n = 62 then '+'
  else '/'

def value (c : Char) : Option Nat :=
  let n := c.toNat
  if 65 ≤ n ∧ n ≤ 90 then some (n - 65)
  else if 97 ≤ n ∧ n ≤ 122 then some (n - 71)
  else if 48 ≤ n ∧ n ≤ 57 then some (n + 4)
  else if c = '+' then some 62
  else if c = '/' then some 63
  else none

theorem value_digit {n : Nat} (h : n < 64) : value (digit n) = some n := by
  have hall : ∀ n ∈ List.range 64, value (digit n) = some n := by decide
  exact hall n (List.mem_range.mpr h)

/-- The padding is no digit. -/
theorem digit_ne_pad (n : Nat) : digit n ≠ '=' := by
  rcases Nat.lt_or_ge n 64 with h | h
  · intro hpad
    have hvalue := value_digit h
    rw [hpad] at hvalue
    cases hvalue
  · unfold digit
    rw [if_neg (by omega), if_neg (by omega), if_neg (by omega), if_neg (by omega)]
    decide

def encode : List UInt8 → List Char
  | [] => []
  | [a] => [digit (a.toNat / 4), digit (a.toNat % 4 * 16), '=', '=']
  | [a, b] => [digit (a.toNat / 4), digit (a.toNat % 4 * 16 + b.toNat / 16),
      digit (b.toNat % 16 * 4), '=']
  | a :: b :: c :: rest => digit (a.toNat / 4) :: digit (a.toNat % 4 * 16 + b.toNat / 16) ::
      digit (b.toNat % 16 * 4 + c.toNat / 64) :: digit (c.toNat % 64) :: encode rest

/-- The bytes of four characters. -/
def decodeGroup (p q r s : Char) : Option (List UInt8) := do
  let a ← value p
  let b ← value q
  let first := UInt8.ofNat (a * 4 + b / 16)
  if r = '=' then
    if s = '=' then some [first] else none
  else
    let c ← value r
    let second := UInt8.ofNat (b % 16 * 16 + c / 4)
    if s = '=' then some [first, second]
    else
      let d ← value s
      some [first, second, UInt8.ofNat (c % 4 * 64 + d)]

def decode : List Char → Option (List UInt8)
  | [] => some []
  | p :: q :: r :: s :: rest => do
    let bytes ← decodeGroup p q r s
    if s = '=' then
      if rest.isEmpty then some bytes else none
    else
      let more ← decode rest
      some (bytes ++ more)
  | _ => none

example : encode [0x4D, 0x61, 0x6E, 0x4D] = "TWFuTQ==".toList ∧
    decode "TWFuTQ==".toList = some [0x4D, 0x61, 0x6E, 0x4D] := by decide

/-- A byte is put together again. -/
theorem ofNat_eq {a : UInt8} {n : Nat} (h : n = a.toNat) : UInt8.ofNat n = a := by
  rw [h, UInt8.ofNat_toNat]

theorem decode_encode : ∀ bytes : List UInt8, decode (encode bytes) = some bytes
  | [] => rfl
  | [a] => by
    have ha := a.toNat_lt
    have hgroup : decodeGroup (digit (a.toNat / 4)) (digit (a.toNat % 4 * 16)) '=' '=' = some [a] := by
      unfold decodeGroup
      rw [value_digit (by omega), value_digit (by omega)]
      exact congrArg (fun a => some [a]) (ofNat_eq (by omega))
    simp only [encode, decode, hgroup, Option.bind_eq_bind, Option.bind_some, if_true,
      List.isEmpty_nil]
  | [a, b] => by
    have ha := a.toNat_lt
    have hb := b.toNat_lt
    have hgroup : decodeGroup (digit (a.toNat / 4)) (digit (a.toNat % 4 * 16 + b.toNat / 16))
        (digit (b.toNat % 16 * 4)) '=' = some [a, b] := by
      unfold decodeGroup
      rw [value_digit (by omega), value_digit (by omega), value_digit (by omega)]
      simp only [Option.bind_eq_bind, Option.bind_some, if_neg (digit_ne_pad _), if_true]
      rw [ofNat_eq (a := a) (by omega), ofNat_eq (a := b) (by omega)]
    simp only [encode, decode, hgroup, Option.bind_eq_bind, Option.bind_some, if_true,
      List.isEmpty_nil]
  | a :: b :: c :: rest => by
    have ha := a.toNat_lt
    have hb := b.toNat_lt
    have hc := c.toNat_lt
    have hgroup : decodeGroup (digit (a.toNat / 4)) (digit (a.toNat % 4 * 16 + b.toNat / 16))
        (digit (b.toNat % 16 * 4 + c.toNat / 64)) (digit (c.toNat % 64)) = some [a, b, c] := by
      unfold decodeGroup
      rw [value_digit (by omega), value_digit (by omega), value_digit (by omega),
        value_digit (by omega)]
      simp only [Option.bind_eq_bind, Option.bind_some, if_neg (digit_ne_pad _)]
      rw [ofNat_eq (a := a) (by omega), ofNat_eq (a := b) (by omega), ofNat_eq (a := c) (by omega)]
    simp only [encode, decode, hgroup, decode_encode rest, Option.bind_eq_bind, Option.bind_some,
      if_neg (digit_ne_pad _), List.cons_append, List.nil_append]

end Infra.Base64
