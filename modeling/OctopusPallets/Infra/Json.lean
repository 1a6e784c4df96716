import Mathlib.Data.List.Basic
import Mathlib.Tactic.Common

/-!
# Values read from JSON

What a deserializer sees of a JSON text, in the order of the text, and the readers that are derived
for structures and enumerations. A reader stops at the first error, so that what it does before may
matter: it can abort. A text that is no JSON is broken from some point on.

* `readStruct` — from an object, or from an array of the fields in their order
* `readVariant` — from an object with the name of the variant as its only key
* `readAll_not_aborts`, `readStruct_not_aborts`, `readVariant_not_aborts` — who can abort
-/

namespace Infra

/-- How a computation stops: aborted, or with an error. -/
inductive Failure (ε : Type) where
  | abort
  | error (e : ε)
deriving DecidableEq

abbrev Attempt (ε α : Type) : Type := Except (Failure ε) α

namespace Attempt

variable {ε ε' α β : Type}

/-- `map_err`. -/
def mapErr (f : ε → ε') : Attempt ε α → Attempt ε' α
  | .ok a => .ok a
  | .error .abort => .error .abort
  | .error (.error e) => .error (.error (f e))

def okOr (o : Option α) (e : ε) : Attempt ε α :=
  match o with
  | some a => .ok a
  | none => .error (.error e)

/-- What aborts when it is not there. -/
def orAbort (o : Option α) : Attempt ε α :=
  match o with
  | some a => .ok a
  | none => .error .abort

def Aborts (x : Attempt ε α) : Prop := x = .error .abort

theorem bind_eq_ok {x : Attempt ε α} {f : α → Attempt ε β} {b : β} :
    (x >>= f) = .ok b ↔ ∃ a, x = .ok a ∧ f a = .ok b := by
  cases x with
  | error e => exact iff_of_false nofun (by simp)
  | ok a => exact ⟨fun h => ⟨a, rfl, h⟩, fun ⟨_, ha, h⟩ => Except.ok.inj ha ▸ h⟩

theorem pure_eq_ok {a b : α} : (pure a : Attempt ε α) = .ok b ↔ a = b :=
  ⟨Except.ok.inj, congrArg Except.ok⟩

theorem okOr_eq_ok {o : Option α} {e : ε} {a : α} : okOr o e = .ok a ↔ o = some a := by
  cases o with
  | none => exact iff_of_false nofun nofun
  | some b => exact ⟨fun h => congrArg some (Except.ok.inj h), fun h => Option.some.inj h ▸ rfl⟩

theorem orAbort_eq_ok {o : Option α} {a : α} :
    (orAbort o : Attempt ε α) = .ok a ↔ o = some a := by
  cases o with
  | none => exact iff_of_false nofun nofun
  | some b => exact ⟨fun h => congrArg some (Except.ok.inj h), fun h => Option.some.inj h ▸ rfl⟩

theorem mapErr_eq_ok {f : ε → ε'} {x : Attempt ε α} {a : α} : mapErr f x = .ok a ↔ x = .ok a := by
  rcases x with (_ | e) | b
  · exact iff_of_false nofun nofun
  · exact iff_of_false nofun nofun
  · exact ⟨fun h => congrArg Except.ok (Except.ok.inj h), fun h => congrArg Except.ok
      (Except.ok.inj h)⟩

theorem bind_aborts {x : Attempt ε α} {f : α → Attempt ε β} :
    Aborts (x >>= f) ↔ x.Aborts ∨ ∃ a, x = .ok a ∧ (f a).Aborts := by
  rcases x with (_ | e) | a
  · exact iff_of_true rfl (Or.inl rfl)
  · exact iff_of_false nofun (by rintro (h | ⟨_, h, -⟩) <;> cases h)
  · constructor
    · exact fun h => Or.inr ⟨a, rfl, h⟩
    · rintro (h | ⟨_, ⟨⟩, h⟩)
      · cases h
      · exact h

theorem orAbort_aborts {o : Option α} : (orAbort o : Attempt ε α).Aborts ↔ o = none := by
  cases o with
  | none => exact iff_of_true rfl rfl
  | some a => exact iff_of_false nofun nofun

theorem not_aborts_ok (a : α) : ¬ Aborts (.ok a : Attempt ε α) := nofun

theorem not_aborts_error (e : ε) : ¬ Aborts (.error (.error e) : Attempt ε α) := nofun

theorem not_aborts_okOr (o : Option α) (e : ε) : ¬ Aborts (okOr o e) := by
  cases o with
  | none => exact not_aborts_error e
  | some a => exact not_aborts_ok a

theorem not_aborts_mapErr {f : ε → ε'} {x : Attempt ε α} (h : ¬ x.Aborts) :
    ¬ (mapErr f x).Aborts := by
  rcases x with (_ | e) | a
  · exact absurd rfl h
  · exact not_aborts_error _
  · exact not_aborts_ok a

theorem not_aborts_bind {x : Attempt ε α} {f : α → Attempt ε β} (hx : ¬ x.Aborts)
    (hf : ∀ a, x = .ok a → ¬ (f a).Aborts) : ¬ Aborts (x >>= f) := by
  rcases x with (_ | e) | a
  · exact absurd rfl hx
  · exact not_aborts_error e
  · exact hf a rfl

end Attempt

namespace Json

open Attempt

mutual

inductive Value where
  | null
  | boolean (b : Bool)
  /-- A number, with its value when it is an integer. -/
  | number (value : Option Int)
  | string (s : String)
  | array (elements : Elements)
  | object (members : Members)
  /-- The text is no JSON from here on. -/
  | broken

inductive Elements where
  | close
  | broken
  | cons (head : Value) (tail : Elements)

inductive Members where
  | close
  | broken
  | cons (key : String) (value : Value) (tail : Members)

end

/-- A text: its value, and whether nothing follows it. -/
structure Document where
  value : Value
  ended : Bool

/-! ## Readers -/

abbrev Reader (α : Type) : Type := Value → Attempt Unit α

def invalid {α : Type} : Attempt Unit α := .error (.error ())

def fromSlice {α : Type} (read : Reader α) (d : Document) : Attempt Unit α := do
  let a ← read d.value
  if d.ended then pure a else invalid

mutual

/-- The text of the value is JSON. -/
def Value.intact : Value → Bool
  | .null | .boolean _ | .number _ | .string _ => true
  | .array elements => elements.intact
  | .object members => members.intact
  | .broken => false

def Elements.intact : Elements → Bool
  | .close => true
  | .broken => false
  | .cons head tail => head.intact && tail.intact

def Members.intact : Members → Bool
  | .close => true
  | .broken => false
  | .cons _ value tail => value.intact && tail.intact

end

def readString : Reader String
  | .string s => .ok s
  | _ => invalid

/-- An unsigned integer below `bound`. -/
def readUnsigned (bound : Nat) : Reader Nat
  | .number (some n) => if 0 ≤ n ∧ n < bound then .ok n.toNat else invalid
  | _ => invalid

def Elements.readAll {α : Type} (read : Reader α) : Elements → Attempt Unit (List α)
  | .close => .ok []
  | .broken => invalid
  | .cons head tail => do
    let a ← read head
    let as ← tail.readAll read
    pure (a :: as)

def readList {α : Type} (read : Reader α) : Reader (List α)
  | .array elements => elements.readAll read
  | _ => invalid

/-- Bytes, as a string or as an array of numbers. -/
def readBytes (utf8 : String → List UInt8) : Reader (List UInt8)
  | .string s => .ok (utf8 s)
  | .array elements => (elements.readAll (readUnsigned 256)).map (List.map UInt8.ofNat)
  | _ => invalid

/-- A field of a structure that is read into `σ`. -/
structure FieldReader (σ : Type) where
  name : String
  isSet : σ → Bool
  read : σ → Reader σ

/-- The field that `set` writes and `get` reads. -/
def FieldReader.of {σ α : Type} (name : String) (get : σ → Option α) (set : α → σ → σ)
    (read : Reader α) : FieldReader σ where
  name := name
  isSet s := (get s).isSome
  read s v := (read v).map fun a => set a s

/-- The members of an object. A field that is there twice is an error, and what is no field is
skipped. -/
def readMembers {σ : Type} (fields : List (FieldReader σ)) : Members → σ → Attempt Unit σ
  | .close, s => .ok s
  | .broken, _ => invalid
  | .cons key value tail, s =>
    match fields.find? fun f => f.name == key with
    | some f =>
      if f.isSet s then invalid
      else do
        let s' ← f.read s value
        readMembers fields tail s'
    | none => if value.intact then readMembers fields tail s else invalid

/-- The elements of an array, as the fields in their order. -/
def readFields {σ : Type} : List (FieldReader σ) → Elements → σ → Attempt Unit σ
  | _, .close, s => .ok s
  | _, .broken, _ => invalid
  | [], .cons _ _, _ => invalid
  | f :: fields, .cons head tail, s => do
    let s' ← f.read s head
    readFields fields tail s'

/-- A structure; `build` fails when a field is missing. -/
def readStruct {σ α : Type} (fields : List (FieldReader σ)) (empty : σ) (build : σ → Option α) :
    Reader α
  | .object members => do
    let s ← readMembers fields members empty
    okOr (build s) ()
  | .array elements => do
    let s ← readFields fields elements empty
    okOr (build s) ()
  | _ => invalid

/-- An enumeration whose variants hold one value each. -/
def readVariant {α : Type} (variants : String → Option (Reader α)) : Reader α
  | .object (.cons key value tail) =>
    match variants key with
    | some read => do
      let a ← read value
      match tail with
      | .close => pure a
      | _ => invalid
    | none => invalid
  | _ => invalid

/-! ## Who can abort -/

def Elements.toList : Elements → List Value
  | .close | .broken => []
  | .cons head tail => head :: tail.toList

/-- The values under a key. -/
def Members.valuesOf (key : String) : Members → List Value
  | .close | .broken => []
  | .cons key' value tail => if key' = key then value :: tail.valuesOf key else tail.valuesOf key

/-- The values that are read for the field `name` of a structure with the fields `names`. -/
def Value.fieldValues (names : List String) (name : String) : Value → List Value
  | .object members => members.valuesOf name
  | .array elements => (names.zip elements.toList).filterMap fun p =>
    if p.1 = name then some p.2 else none
  | _ => []

variable {α σ : Type}

theorem not_aborts_invalid : ¬ Aborts (invalid : Attempt Unit α) := nofun

theorem not_aborts_map {β : Type} {f : α → β} {x : Attempt Unit α} (h : ¬ x.Aborts) :
    ¬ Aborts (Except.map f x : Attempt Unit β) := by
  rcases x with (_ | e) | a
  · exact absurd rfl h
  · exact not_aborts_error e
  · exact not_aborts_ok _

theorem fromSlice_not_aborts {read : Reader α} {d : Document} (h : ¬ (read d.value).Aborts) :
    ¬ (fromSlice read d).Aborts := by
  refine not_aborts_bind h fun a _ => ?_
  split
  · exact not_aborts_ok a
  · exact not_aborts_invalid

theorem readString_not_aborts (v : Value) : ¬ (readString v).Aborts := by
  cases v <;> nofun

theorem readUnsigned_not_aborts (bound : Nat) (v : Value) : ¬ (readUnsigned bound v).Aborts := by
  unfold readUnsigned
  split
  · split
    · exact not_aborts_ok _
    · exact not_aborts_invalid
  · exact not_aborts_invalid

theorem readAll_not_aborts {read : Reader α} : ∀ {elements : Elements},
    (∀ v ∈ elements.toList, ¬ (read v).Aborts) → ¬ (elements.readAll read).Aborts
  | .close, _ => not_aborts_ok []
  | .broken, _ => not_aborts_invalid
  | .cons head _, h =>
    not_aborts_bind (h head (.head _)) fun _ _ =>
      not_aborts_bind (readAll_not_aborts fun v hv => h v (.tail _ hv)) fun _ _ =>
        not_aborts_ok _

theorem readBytes_not_aborts (utf8 : String → List UInt8) (v : Value) :
    ¬ (readBytes utf8 v).Aborts := by
  cases v with
  | array elements =>
    exact not_aborts_map (readAll_not_aborts fun v _ => readUnsigned_not_aborts 256 v)
  | _ => nofun

theorem readMembers_not_aborts {fields : List (FieldReader σ)} : ∀ {members : Members} {s : σ},
    (∀ f ∈ fields, ∀ v ∈ members.valuesOf f.name, ∀ s, ¬ (f.read s v).Aborts) →
      ¬ (readMembers fields members s).Aborts
  | .close, s, _ => not_aborts_ok s
  | .broken, _, _ => not_aborts_invalid
  | .cons key value tail, s, h => by
    have hrest : ∀ s', ¬ (readMembers fields tail s').Aborts := by
      intro s'
      refine readMembers_not_aborts fun f hf v hv => h f hf v ?_
      rw [Members.valuesOf]
      split
      · exact List.mem_cons_of_mem _ hv
      · exact hv
    unfold readMembers
    split
    · next f hfind =>
      have hname : f.name = key := by simpa using List.find?_some hfind
      split
      · exact not_aborts_invalid
      · refine not_aborts_bind ?_ fun s' _ => hrest s'
        refine h f (List.mem_of_find?_eq_some hfind) value ?_ s
        rw [Members.valuesOf, if_pos hname.symm]
        exact List.mem_cons_self
    · split
      · exact hrest s
      · exact not_aborts_invalid

theorem readFields_not_aborts : ∀ {fields : List (FieldReader σ)} {elements : Elements} {s : σ},
    (∀ p ∈ fields.zip elements.toList, ∀ s, ¬ (p.1.read s p.2).Aborts) →
      ¬ (readFields fields elements s).Aborts
  | _, .close, s, _ => by
    rw [readFields]
    exact not_aborts_ok s
  | _, .broken, _, _ => by
    rw [readFields]
    exact not_aborts_invalid
  | [], .cons _ _, _, _ => not_aborts_invalid
  | f :: fields, .cons head tail, s, h =>
    not_aborts_bind (h (f, head) (.head _) s) fun _ _ =>
      readFields_not_aborts fun p hp => h p (.tail _ hp)

/-- **A structure is read without aborting when its fields are, from the values there are for
them.** -/
theorem readStruct_not_aborts {fields : List (FieldReader σ)} {empty : σ} {build : σ → Option α}
    {v : Value} (h : ∀ f ∈ fields, ∀ w ∈ v.fieldValues (fields.map FieldReader.name) f.name,
      ∀ s, ¬ (f.read s w).Aborts) : ¬ (readStruct fields empty build v).Aborts := by
  cases v with
  | object members =>
    exact not_aborts_bind (readMembers_not_aborts h) fun _ _ => not_aborts_okOr _ _
  | array elements =>
    refine not_aborts_bind (readFields_not_aborts ?_) fun _ _ => not_aborts_okOr _ _
    rintro ⟨f, w⟩ hp s
    refine h f (List.of_mem_zip hp).1 w ?_ s
    refine List.mem_filterMap.mpr ⟨(f.name, w), ?_, if_pos rfl⟩
    rw [List.zip_map_left]
    exact List.mem_map.mpr ⟨(f, w), hp, rfl⟩
  | _ => exact not_aborts_invalid

theorem readVariant_not_aborts {variants : String → Option (Reader α)} {v : Value}
    (h : ∀ key value tail, v = .object (.cons key value tail) → ∀ read, variants key = some read →
      ¬ (read value).Aborts) : ¬ (readVariant variants v).Aborts := by
  unfold readVariant
  split
  · next key value _ =>
    split
    · next read hread =>
      refine not_aborts_bind (h key value _ rfl read hread) fun a _ => ?_
      split
      · exact not_aborts_ok a
      · exact not_aborts_invalid
    · exact not_aborts_invalid
  · exact not_aborts_invalid

end Json

end Infra
