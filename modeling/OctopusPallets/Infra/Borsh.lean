import OctopusPallets.Infra.Codec

/-!
# The Borsh encoding

Integers of fixed width, and strings and lists behind a length of four bytes. A value fails to
serialize exactly when one of its lengths does not fit.
-/

namespace Infra.Borsh

def u32 : Codec Nat := .le 4

def u64 : Codec Nat := .le 8

def u128 : Codec Nat := .le 16

def vec {α : Type} (c : Codec α) : Codec (List α) := .vec u32 c

def option {α : Type} (c : Codec α) : Codec (Option α) := .option c

/-- `String::from_utf8`. -/
def fromUtf8 (bytes : List UInt8) : Option String := String.fromUTF8? ⟨bytes.toArray⟩

/-- `String::as_bytes`. -/
def asBytes (s : String) : List UInt8 := s.toByteArray.data.toList

theorem fromUtf8_asBytes (s : String) : fromUtf8 (asBytes s) = some s := by
  unfold fromUtf8 asBytes String.fromUTF8?
  rw [Array.toArray_toList, dif_pos s.isValidUTF8]
  rfl

theorem asBytes_of_fromUtf8 {bytes : List UInt8} {s : String} (h : fromUtf8 bytes = some s) :
    asBytes s = bytes := by
  unfold fromUtf8 String.fromUTF8? at h
  split at h
  · rw [← Option.some.inj h]
    rfl
  · cases h

def string : Codec String := (vec .byte).via asBytes fromUtf8 fromUtf8_asBytes

end Infra.Borsh
