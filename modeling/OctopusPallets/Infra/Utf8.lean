import Mathlib.Tactic.Common

/-!
# Text from bytes

`String::from_utf8_lossy`, `str::trim` and slices, on lists of characters. A decoder that reads byte
after byte holds the character it is in; what does not continue it stands for U+FFFD, and is read
again as the start of another one.
-/

namespace Infra.Utf8

def replacement : Char := Char.ofNat 0xFFFD

/-- A character of which some bytes are read: their value, how many are missing, and the range of
the next one. -/
structure Partial where
  value : Nat
  missing : Nat
  low : Nat
  high : Nat

/-- The first byte of a character. A second byte that would make an overlong form, a surrogate or
a value above U+10FFFF is outside the range. -/
def first (b : Nat) : Char ⊕ Partial :=
  if b < 0x80 then .inl (Char.ofNat b)
  else if b < 0xC2 then .inl replacement
  else if b < 0xE0 then .inr ⟨b % 0x20, 1, 0x80, 0xBF⟩
  else if b < 0xF0 then
    .inr ⟨b % 0x10, 2, if b = 0xE0 then 0xA0 else 0x80, if b = 0xED then 0x9F else 0xBF⟩
  else if b < 0xF5 then
    .inr ⟨b % 0x08, 3, if b = 0xF0 then 0x90 else 0x80, if b = 0xF4 then 0x8F else 0xBF⟩
  else .inl replacement

/-- Read `bytes`, inside the character `inside` if there is one. -/
def decode : (inside : Option Partial) → (bytes : List UInt8) → List Char
  | none, [] => []
  | some _, [] => [replacement]
  | none, b :: bytes =>
    match first b.toNat with
    | .inl c => c :: decode none bytes
    | .inr p => decode (some p) bytes
  | some p, b :: bytes =>
    if p.low ≤ b.toNat ∧ b.toNat ≤ p.high then
      let value := p.value * 0x40 + b.toNat % 0x40
      if p.missing = 1 then Char.ofNat value :: decode none bytes
      else decode (some ⟨value, p.missing - 1, 0x80, 0xBF⟩) bytes
    else
      match first b.toNat with
      | .inl c => replacement :: c :: decode none bytes
      | .inr q => replacement :: decode (some q) bytes

def fromUtf8Lossy (bytes : List UInt8) : List Char := decode none bytes

example : fromUtf8Lossy [0x6F, 0xC3, 0xA9, 0xE2, 0x82, 0x21]
    = ['o', Char.ofNat 0xE9, replacement, '!'] := by decide

/-- The property `White_Space` of Unicode. -/
def isWhitespace (c : Char) : Bool :=
  (0x09 ≤ c.toNat && c.toNat ≤ 0x0D) || (0x2000 ≤ c.toNat && c.toNat ≤ 0x200A) ||
    [0x20, 0x85, 0xA0, 0x1680, 0x2028, 0x2029, 0x202F, 0x205F, 0x3000].contains c.toNat

/-- No white space is left at either end. -/
def trim (text : List Char) : List Char :=
  ((text.dropWhile isWhitespace).reverse.dropWhile isWhitespace).reverse

/-! ## Slices -/

/-- The length in bytes. -/
def utf8Length : List Char → Nat
  | [] => 0
  | c :: text => c.utf8Size + utf8Length text

/-- `&text[n..]`, which aborts when `n` is outside the text or inside a character. -/
def sliceFrom : List Char → Nat → Option (List Char)
  | text, 0 => some text
  | [], _ + 1 => none
  | c :: text, n + 1 => if c.utf8Size ≤ n + 1 then sliceFrom text (n + 1 - c.utf8Size) else none

/-- **A slice splits the text between two characters.** -/
theorem sliceFrom_eq_some : ∀ {text rest : List Char} {n : Nat},
    sliceFrom text n = some rest ↔ ∃ first, text = first ++ rest ∧ utf8Length first = n
  | text, rest, 0 => by
    rw [sliceFrom]
    constructor
    · intro h
      exact ⟨[], Option.some.inj h, rfl⟩
    · rintro ⟨first, rfl, hlength⟩
      cases first with
      | nil => rfl
      | cons c first =>
        have hpos := c.utf8Size_pos
        rw [utf8Length] at hlength
        omega
  | [], rest, n + 1 => by
    constructor
    · intro h
      cases h
    · rintro ⟨first, hsplit, hlength⟩
      obtain ⟨rfl, -⟩ := List.append_eq_nil_iff.mp hsplit.symm
      cases hlength
  | c :: text, rest, n + 1 => by
    rw [sliceFrom]
    constructor
    · intro h
      split at h
      · next hle =>
        obtain ⟨first, rfl, hlength⟩ := sliceFrom_eq_some.mp h
        exact ⟨c :: first, rfl, by rw [utf8Length, hlength]; omega⟩
      · cases h
    · rintro ⟨first, hsplit, hlength⟩
      cases first with
      | nil => cases hlength
      | cons c' first =>
        obtain ⟨rfl, rfl⟩ := List.cons.inj hsplit
        rw [utf8Length] at hlength
        rw [if_pos (by omega)]
        exact sliceFrom_eq_some.mpr ⟨first, rfl, by omega⟩

example : sliceFrom ['0', 'x', 'a'] 2 = some ['a'] ∧ sliceFrom ['a', Char.ofNat 0xE9] 2 = none := by
  decide

end Infra.Utf8
