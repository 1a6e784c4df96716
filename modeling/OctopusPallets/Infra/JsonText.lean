import Mathlib.Data.Char
import Mathlib.Tactic.Common
import OctopusPallets.Infra.Json

/-!
# Objects of strings as texts

How an object whose members are strings is written in JSON, without blanks, and that it can be read
again: the keys, the strings and their order.

* `readChars_escape` — a character
* `readString_write`, `readMember_write` — strings and members
* `readObject_write` — an object
-/

namespace Infra.Json

/-! ## Strings -/

/-- Characters that are written with a backslash and a letter. -/
def shortEscapes : List (Char × Char) :=
  [('"', '"'), ('\\', '\\'), (Char.ofNat 8, 'b'), ('\t', 't'), ('\n', 'n'), (Char.ofNat 12, 'f'),
    ('\r', 'r')]

def escape (c : Char) : List Char :=
  match shortEscapes.find? fun p => p.1 == c with
  | some p => ['\\', p.2]
  | none =>
    if c.toNat < 32 then
      ['\\', 'u', '0', '0', Nat.digitChar (c.toNat / 16), Nat.digitChar (c.toNat % 16)]
    else [c]

def writeString (s : String) : List Char := '"' :: (s.toList.flatMap escape ++ ['"'])

def hexValue (c : Char) : Option Nat :=
  (List.range 16).find? fun n => Nat.digitChar n == c

/-- The string up to the quotation mark that ends it, and what follows. -/
def readChars : List Char → Option (List Char × List Char)
  | [] => none
  | c :: text =>
    if c = '"' then some ([], text)
    else if c = '\\' then
      match text with
      | 'u' :: w :: x :: y :: z :: text => do
        let a ← hexValue w
        let b ← hexValue x
        let c ← hexValue y
        let d ← hexValue z
        let (cs, rest) ← readChars text
        some (Char.ofNat (((a * 16 + b) * 16 + c) * 16 + d) :: cs, rest)
      | e :: text => do
        let p ← shortEscapes.find? fun p => p.2 == e
        let (cs, rest) ← readChars text
        some (p.1 :: cs, rest)
      | [] => none
    else if c.toNat < 32 then none
    else do
      let (cs, rest) ← readChars text
      some (c :: cs, rest)

theorem hexValue_digitChar {n : Nat} (h : n < 16) : hexValue (Nat.digitChar n) = some n := by
  have hall : ∀ n ∈ List.range 16, hexValue (Nat.digitChar n) = some n := by decide
  exact hall n (List.mem_range.mpr h)

/-- A letter after a backslash. -/
theorem readChars_shortEscape {p : Char × Char} (hp : p ∈ shortEscapes) (text : List Char) :
    readChars ('\\' :: p.2 :: text) = (readChars text).map fun q => (p.1 :: q.1, q.2) := by
  have hbind : readChars ('\\' :: p.2 :: text)
      = (readChars text).bind fun q => some (p.1 :: q.1, q.2) := by
    rw [readChars.eq_def]
    simp only [shortEscapes, List.mem_cons, List.not_mem_nil, or_false] at hp
    rcases hp with rfl | rfl | rfl | rfl | rfl | rfl | rfl <;> rfl
  rw [hbind]
  cases readChars text <;> rfl

/-- The code of a character in hexadecimal. -/
theorem readChars_code (w x y z : Char) (text : List Char) :
    readChars ('\\' :: 'u' :: w :: x :: y :: z :: text)
      = (hexValue w).bind fun a => (hexValue x).bind fun b => (hexValue y).bind fun c =>
        (hexValue z).bind fun d => (readChars text).bind fun q =>
          some (Char.ofNat (((a * 16 + b) * 16 + c) * 16 + d) :: q.1, q.2) := by
  rw [readChars.eq_def]
  rfl

theorem readChars_control {c : Char} (hc : c.toNat < 32) (text : List Char) :
    readChars ('\\' :: 'u' :: '0' :: '0' :: Nat.digitChar (c.toNat / 16) ::
        Nat.digitChar (c.toNat % 16) :: text)
      = (readChars text).map fun q => (c :: q.1, q.2) := by
  have hcode : ((0 * 16 + 0) * 16 + c.toNat / 16) * 16 + c.toNat % 16 = c.toNat := by omega
  have hzero : hexValue '0' = some 0 := by decide
  have hhigh : hexValue (Nat.digitChar (c.toNat / 16)) = some (c.toNat / 16) :=
    hexValue_digitChar (by omega)
  have hlow : hexValue (Nat.digitChar (c.toNat % 16)) = some (c.toNat % 16) :=
    hexValue_digitChar (by omega)
  rw [readChars_code, hzero, hhigh, hlow]
  simp only [Option.bind_some, hcode, Char.ofNat_toNat]
  cases readChars text <;> rfl

/-- **A character is read as it was written.** -/
theorem readChars_escape (c : Char) (text : List Char) :
    readChars (escape c ++ text) = (readChars text).map fun q => (c :: q.1, q.2) := by
  unfold escape
  split
  · next p hfind =>
    have hc : p.1 = c := by simpa using List.find?_some hfind
    rw [← hc]
    exact readChars_shortEscape (List.mem_of_find?_eq_some hfind) text
  · next hfind =>
    have hne : ∀ p ∈ shortEscapes, p.1 ≠ c := by simpa using hfind
    have hquote : c ≠ '"' := (hne _ (.head _)).symm
    have hbackslash : c ≠ '\\' := (hne _ (.tail _ (.head _))).symm
    split
    · next hcontrol => exact readChars_control hcontrol text
    · next hplain =>
      rw [List.singleton_append, readChars.eq_def]
      dsimp only
      rw [if_neg hquote, if_neg hbackslash, if_neg hplain]
      cases readChars text <;> rfl

theorem readChars_write : ∀ cs text : List Char,
    readChars (cs.flatMap escape ++ '"' :: text) = some (cs, text)
  | [], text => by
    rw [List.flatMap_nil, List.nil_append, readChars.eq_def]
    rfl
  | c :: cs, text => by
    rw [List.flatMap_cons, List.append_assoc, readChars_escape, readChars_write cs text]
    rfl

/-! ## Objects -/

def writeMember (p : String × String) : List Char := writeString p.1 ++ ':' :: writeString p.2

/-- The members after the first one. -/
def writeRest : List (String × String) → List Char
  | [] => ['\x7d']
  | p :: ps => ',' :: (writeMember p ++ writeRest ps)

def writeObject : List (String × String) → String
  | [] => "\x7b\x7d"
  | p :: ps => String.ofList ('\x7b' :: (writeMember p ++ writeRest ps))

def readString? : List Char → Option (String × List Char)
  | '"' :: text => (readChars text).map fun q => (String.ofList q.1, q.2)
  | _ => none

def readMember : List Char → Option ((String × String) × List Char) := fun text =>
  (readString? text).bind fun
    | (key, ':' :: text) => (readString? text).map fun q => ((key, q.1), q.2)
    | _ => none

/-- As many members as the fuel is enough for. -/
def readRest : Nat → List Char → Option (List (String × String))
  | _, ['\x7d'] => some []
  | fuel + 1, ',' :: text => do
    let (p, text) ← readMember text
    let ps ← readRest fuel text
    some (p :: ps)
  | _, _ => none

/-- Each member of the text takes more than one character. -/
def readObject (text : List Char) : Option (List (String × String)) :=
  match text with
  | ['\x7b', '\x7d'] => some []
  | '\x7b' :: text => do
    let (p, rest) ← readMember text
    let ps ← readRest text.length rest
    some (p :: ps)
  | _ => none

theorem readString_write (s : String) (text : List Char) :
    readString? (writeString s ++ text) = some (s, text) := by
  unfold writeString
  rw [List.cons_append, List.append_assoc, List.singleton_append, readString?, readChars_write]
  simp

theorem readMember_write (p : String × String) (text : List Char) :
    readMember (writeMember p ++ text) = some (p, text) := by
  unfold readMember writeMember
  rw [List.append_assoc, List.cons_append, readString_write]
  simp [readString_write]

theorem readRest_write : ∀ (ps : List (String × String)) {fuel : Nat}, ps.length ≤ fuel →
    readRest fuel (writeRest ps) = some ps
  | [], fuel, _ => by cases fuel <;> rfl
  | p :: ps, fuel + 1, h => by
    rw [writeRest, readRest, readMember_write]
    simp [readRest_write ps (Nat.le_of_succ_le_succ h)]

theorem length_le_writeRest : ∀ ps : List (String × String), ps.length ≤ (writeRest ps).length
  | [] => Nat.zero_le _
  | p :: ps => by
    have hrest := length_le_writeRest ps
    rw [writeRest, List.length_cons, List.length_cons, List.length_append]
    omega

/-- The members as a deserializer sees them. -/
def Members.ofTexts : List (String × String) → Members
  | [] => .close
  | p :: ps => .cons p.1 (.string p.2) (.ofTexts ps)

/-- **An object is read as it was written.** -/
theorem readObject_write (ps : List (String × String)) :
    readObject (writeObject ps).toList = some ps := by
  cases ps with
  | nil => rfl
  | cons p ps =>
    have hfuel : ps.length ≤ (writeMember p ++ writeRest ps).length := by
      have hrest := length_le_writeRest ps
      rw [List.length_append]
      omega
    have hread : readObject ('\x7b' :: (writeMember p ++ writeRest ps))
        = (readMember (writeMember p ++ writeRest ps)).bind fun q =>
          (readRest (writeMember p ++ writeRest ps).length q.2).bind fun qs => some (q.1 :: qs) := rfl
    rw [writeObject, String.toList_ofList, hread, readMember_write, Option.bind_some,
      readRest_write ps hfuel]
    rfl

end Infra.Json
