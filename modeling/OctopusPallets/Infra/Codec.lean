import Mathlib.Algebra.Group.Nat.Defs
import Mathlib.Data.List.Basic
import Mathlib.Tactic.Common

/-!
# Encodings

An encoding that a decoder reads back from the front of any longer input. `Codec` carries its own
round trip, so that what is built with the combinators below comes with one, and is injective on the
values it is valid for.

* `Codec.le` — integers of a fixed width
* `Codec.pair`, `Codec.via` — fields of a structure
* `Codec.variant` — enumerations
* `Codec.option`, `Codec.vec` — optional values, and lists behind their length
-/

namespace Infra

/-! ## Little-endian bytes -/

/-- The lowest `k` bytes of `n`, the lowest first. -/
def leBytes : Nat → Nat → List UInt8
  | 0, _ => []
  | k + 1, n => UInt8.ofNat n :: leBytes k (n / 256)

/-- Read `k` bytes, the lowest first. -/
def takeLe : Nat → List UInt8 → Option (Nat × List UInt8)
  | 0, bytes => some (0, bytes)
  | _ + 1, [] => none
  | k + 1, byte :: bytes =>
    (takeLe k bytes).map fun r => (byte.toNat + 256 * r.1, r.2)

theorem takeLe_leBytes : ∀ (k n : Nat) (rest : List UInt8), n < 256 ^ k →
    takeLe k (leBytes k n ++ rest) = some (n, rest)
  | 0, n, rest, h => by
    have hn : n = 0 := by simpa using h
    rw [hn]
    rfl
  | k + 1, n, rest, h => by
    have hdiv : n / 256 < 256 ^ k := by
      rw [Nat.div_lt_iff_lt_mul (by decide)]
      rwa [Nat.pow_succ] at h
    have hbyte : (UInt8.ofNat n).toNat = n % 256 := UInt8.toNat_ofNat'
    rw [leBytes, List.cons_append, takeLe, takeLe_leBytes k _ rest hdiv, Option.map_some, hbyte,
      Nat.mod_add_div]

/-! ## Codecs -/

/-- An encoding with a decoder that reads the value back from the front of the input. -/
structure Codec (α : Type) where
  encode : α → List UInt8
  decode : List UInt8 → Option (α × List UInt8)
  /-- The values that can be encoded. -/
  valid : α → Bool
  decode_encode : ∀ a, valid a = true → ∀ rest, decode (encode a ++ rest) = some (a, rest)

namespace Codec

variable {α β γ : Type}

/-- **A codec is injective on its valid values.** -/
theorem encode_injOn (c : Codec α) {a b : α} (ha : c.valid a = true) (hb : c.valid b = true)
    (h : c.encode a = c.encode b) : a = b := by
  have hda := c.decode_encode a ha []
  rw [h, c.decode_encode b hb [], Option.some.injEq, Prod.mk.injEq] at hda
  exact hda.1.symm

/-- Encode a value, or fail when it cannot be. -/
def tryToVec (c : Codec α) (a : α) : Option (List UInt8) :=
  if c.valid a then some (c.encode a) else none

theorem tryToVec_eq_some {c : Codec α} {a : α} {bytes : List UInt8} :
    c.tryToVec a = some bytes ↔ c.valid a = true ∧ bytes = c.encode a := by
  unfold tryToVec
  by_cases h : c.valid a = true
  · simp [h, eq_comm]
  · simp [h]

/-- A single byte. -/
def byte : Codec UInt8 where
  encode b := [b]
  decode
    | [] => none
    | b :: rest => some (b, rest)
  valid _ := true
  decode_encode _ _ _ := rfl

/-- An integer of `k` bytes, the lowest first. -/
def le (k : Nat) : Codec Nat where
  encode := leBytes k
  decode := takeLe k
  valid n := n < 256 ^ k
  decode_encode n h rest := takeLe_leBytes k n rest (of_decide_eq_true h)

/-- One value behind the other. -/
def pair (c : Codec α) (d : Codec β) : Codec (α × β) where
  encode p := c.encode p.1 ++ d.encode p.2
  decode bytes :=
    (c.decode bytes).bind fun r => (d.decode r.2).map fun r' => ((r.1, r'.1), r'.2)
  valid p := c.valid p.1 && d.valid p.2
  decode_encode p hp rest := by
    rw [Bool.and_eq_true] at hp
    rw [List.append_assoc, c.decode_encode _ hp.1, Option.bind_some, d.decode_encode _ hp.2,
      Option.map_some]

/-- The encoding of another type, seen through a conversion that loses nothing. -/
def via (c : Codec γ) (rep : α → γ) (ofRep : γ → Option α)
    (ofRep_rep : ∀ a, ofRep (rep a) = some a) : Codec α where
  encode a := c.encode (rep a)
  decode bytes := (c.decode bytes).bind fun r => (ofRep r.1).map fun a => (a, r.2)
  valid a := c.valid (rep a)
  decode_encode a ha rest := by
    rw [c.decode_encode _ ha, Option.bind_some, ofRep_rep, Option.map_some]

/-- An enumeration: the byte of the variant. -/
def variant (index : α → UInt8) (ofIndex : UInt8 → Option α)
    (ofIndex_index : ∀ a, ofIndex (index a) = some a) : Codec α :=
  byte.via index ofIndex ofIndex_index

/-- An optional value: a byte that says whether it is there. -/
def option (c : Codec α) : Codec (Option α) where
  encode
    | none => [0]
    | some a => 1 :: c.encode a
  decode
    | [] => none
    | b :: rest =>
      if b = 0 then some (none, rest)
      else if b = 1 then (c.decode rest).map fun r => (some r.1, r.2)
      else none
  valid o := o.all c.valid
  decode_encode o ho rest := by
    cases o with
    | none => rfl
    | some a =>
      show (c.decode (c.encode a ++ rest)).map (fun r => (some r.1, r.2)) = some (some a, rest)
      rw [c.decode_encode a ho, Option.map_some]

/-! ### Lists -/

/-- Read `n` values. -/
def decodeMany (c : Codec α) : Nat → List UInt8 → Option (List α × List UInt8)
  | 0, bytes => some ([], bytes)
  | n + 1, bytes =>
    (c.decode bytes).bind fun r => (decodeMany c n r.2).map fun r' => (r.1 :: r'.1, r'.2)

theorem decodeMany_encode (c : Codec α) : ∀ (as : List α), (∀ a ∈ as, c.valid a = true) →
    ∀ rest, decodeMany c as.length (as.flatMap c.encode ++ rest) = some (as, rest)
  | [], _, _ => rfl
  | a :: as, h, rest => by
    -- the first value is read back with the encoding of the others as its rest
    have ih := decodeMany_encode c as (fun b hb => h b (List.mem_cons_of_mem _ hb)) rest
    rw [List.flatMap_cons, List.append_assoc, List.length_cons, decodeMany,
      c.decode_encode a (h a List.mem_cons_self), Option.bind_some, ih, Option.map_some]

/-- A list behind its length, which is encoded with `len`. -/
def vec (len : Codec Nat) (c : Codec α) : Codec (List α) where
  encode as := len.encode as.length ++ as.flatMap c.encode
  decode bytes := (len.decode bytes).bind fun r => decodeMany c r.1 r.2
  valid as := len.valid as.length && as.all c.valid
  decode_encode as h rest := by
    rw [Bool.and_eq_true, List.all_eq_true] at h
    rw [List.append_assoc, len.decode_encode _ h.1, Option.bind_some]
    exact decodeMany_encode c as h.2 rest

theorem vec_valid {len : Codec Nat} {c : Codec α} {as : List α} :
    (vec len c).valid as = true ↔ len.valid as.length = true ∧ ∀ a ∈ as, c.valid a = true := by
  rw [← List.all_eq_true, ← Bool.and_eq_true]
  rfl

end Codec

end Infra
