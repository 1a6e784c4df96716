import Mathlib.Data.List.Nodup
import Mathlib.Data.List.Pairwise
import OctopusPallets.Infra.Json

/-!
# What the readers accept

The values that a reader accepts, without saying how it goes through them. The members of an object
come in any order, and those that are no field are skipped; a field is there once, or not at all.

* `Value.Shaped`, `Value.Gives` — a structure, and what is in one of its fields
* `readAll_eq_ok`, `readVariant_eq_ok` — arrays and enumerations
* `readSlots_gives`, `readSlots_shaped` — what is read from a structure was written there
* `readSlots_of_shaped` — and what is written there is read
-/

namespace Infra.Json

open Attempt

variable {α β σ : Type}

/-! ## The grammar -/

def Elements.Closed : Elements → Prop
  | .close => True
  | .broken => False
  | .cons _ tail => tail.Closed

def Members.Closed : Members → Prop
  | .close => True
  | .broken => False
  | .cons _ _ tail => tail.Closed

def Members.toList : Members → List (String × Value)
  | .close | .broken => []
  | .cons key value tail => (key, value) :: tail.toList

/-- A structure with these fields, as an object or as an array. -/
inductive Value.Shaped (names : List String) : Value → Prop where
  | object {members : Members} (closed : members.Closed)
      (once : ∀ name ∈ names, (members.valuesOf name).length ≤ 1)
      (skipped : ∀ p ∈ members.toList, p.1 ∉ names → p.2.intact = true) :
      Shaped names (.object members)
  | array {elements : Elements} (closed : elements.Closed)
      (fits : elements.toList.length ≤ names.length) :
      Shaped names (.array elements)

/-- What is in the field `name`, if it is there. -/
def Value.Gives (names : List String) (name : String) (read : Reader β) (v : Value) :
    Option β → Prop
  | none => v.fieldValues names name = []
  | some b => ∃ w, v.fieldValues names name = [w] ∧ read w = .ok b

/-! ## Arrays, enumerations and texts -/

theorem readAll_eq_ok {read : Reader α} : ∀ {elements : Elements} {as : List α},
    elements.readAll read = .ok as ↔
      elements.Closed ∧ List.Forall₂ (fun v a => read v = .ok a) elements.toList as
  | .close, as => by
    constructor
    · intro h
      cases h
      exact ⟨trivial, .nil⟩
    · rintro ⟨-, hall⟩
      cases hall
      rfl
  | .broken, as => iff_of_false nofun fun h => h.1
  | .cons head tail, as => by
    simp only [Elements.readAll, bind_eq_ok, pure_eq_ok, readAll_eq_ok]
    constructor
    · rintro ⟨a, ha, as', ⟨hclosed, hall⟩, rfl⟩
      exact ⟨hclosed, .cons ha hall⟩
    · rintro ⟨hclosed, hall⟩
      cases hall with
      | cons ha hall => exact ⟨_, ha, _, ⟨hclosed, hall⟩, rfl⟩

theorem readList_eq_ok {read : Reader α} {v : Value} {as : List α} :
    readList read v = .ok as ↔ ∃ elements, v = .array elements ∧ elements.Closed ∧
      List.Forall₂ (fun w a => read w = .ok a) elements.toList as := by
  cases v with
  | array elements =>
    refine readAll_eq_ok.trans ⟨fun h => ⟨elements, rfl, h⟩, ?_⟩
    rintro ⟨_, ⟨⟩, h⟩
    exact h
  | _ => exact iff_of_false nofun nofun

theorem readVariant_eq_ok {variants : String → Option (Reader α)} {v : Value} {a : α} :
    readVariant variants v = .ok a ↔ ∃ key value read, v = .object (.cons key value .close) ∧
      variants key = some read ∧ read value = .ok a := by
  constructor
  · intro h
    unfold readVariant at h
    split at h
    · next key value tail =>
      split at h
      · next read hread =>
        obtain ⟨b, hb, h⟩ := bind_eq_ok.mp h
        split at h
        · exact ⟨key, value, read, rfl, hread, pure_eq_ok.mp h ▸ hb⟩
        · cases h
      · cases h
    · cases h
  · rintro ⟨key, value, read, rfl, hread, ha⟩
    simp only [readVariant, hread, bind_eq_ok]
    exact ⟨a, ha, rfl⟩

theorem fromSlice_eq_ok {read : Reader α} {d : Document} {a : α} :
    fromSlice read d = .ok a ↔ d.ended = true ∧ read d.value = .ok a := by
  simp only [fromSlice, bind_eq_ok]
  constructor
  · rintro ⟨b, hb, h⟩
    split at h
    · next hended => exact ⟨hended, pure_eq_ok.mp h ▸ hb⟩
    · cases h
  · rintro ⟨hended, ha⟩
    exact ⟨a, ha, by rw [hended]; rfl⟩

theorem map_eq_ok {f : α → β} {x : Attempt Unit α} {b : β} :
    (Except.map f x : Attempt Unit β) = .ok b ↔ ∃ a, x = .ok a ∧ f a = b := by
  cases x with
  | error e => exact iff_of_false nofun nofun
  | ok a =>
    constructor
    · exact fun h => ⟨a, rfl, Except.ok.inj h⟩
    · rintro ⟨_, ⟨⟩, rfl⟩
      rfl

/-! ## Fields -/

/-- The field `name` is one of `fields`, and no other of them writes what it writes. -/
structure Owned (fields : List (FieldReader σ)) (name : String) (get : σ → Option β)
    (set : β → σ → σ) (read : Reader β) : Prop where
  mem : .of name get set read ∈ fields
  get_set : ∀ b s, get (set b s) = some b
  frame : ∀ g ∈ fields, g.name = name ∨ ∀ s w s', g.read s w = .ok s' → get s' = get s

/-- Each field has a name and a place of its own. -/
structure Lawful (fields : List (FieldReader σ)) : Prop where
  nodup : (fields.map FieldReader.name).Nodup
  owned : ∀ f ∈ fields, ∃ (β : Type) (get : σ → Option β) (set : β → σ → σ) (read : Reader β),
    f = .of f.name get set read ∧ Owned fields f.name get set read

variable {fields : List (FieldReader σ)} {name : String} {get : σ → Option β} {set : β → σ → σ}
  {read : Reader β} {f g : FieldReader σ} {s s' : σ} {w : Value}

theorem of_read_eq_ok : (FieldReader.of name get set read).read s w = .ok s' ↔
    ∃ b, read w = .ok b ∧ set b s = s' := map_eq_ok

/-- A field that writes something else. -/
theorem of_frame {γ : Type} {get' : σ → Option γ} (h : ∀ b s, get' (set b s) = get' s) (s : σ)
    (w : Value) (s' : σ) (hread : (FieldReader.of name get set read).read s w = .ok s') :
    get' s' = get' s := by
  obtain ⟨b, -, rfl⟩ := of_read_eq_ok.mp hread
  exact h b s

theorem Lawful.eq_of_name (h : Lawful fields) (hf : f ∈ fields) (hg : g ∈ fields)
    (hname : f.name = g.name) : f = g := List.inj_on_of_nodup_map h.nodup hf hg hname

theorem Lawful.isSet_of_ne (h : Lawful fields) (hf : f ∈ fields) (hg : g ∈ fields)
    (hne : g.name ≠ f.name) (hread : g.read s w = .ok s') : f.isSet s' = f.isSet s := by
  obtain ⟨β, get, set, read, hof, howned⟩ := h.owned f hf
  rcases howned.frame g hg with hname | hframe
  · exact absurd hname hne
  · rw [hof]
    exact congrArg Option.isSome (hframe s w s' hread)

/-- The field that is found under a key is the one with this name. -/
theorem find_name (h : Lawful fields) (hf : f ∈ fields) :
    fields.find? (fun g => g.name == f.name) = some f := by
  cases hfind : fields.find? (fun g => g.name == f.name) with
  | none =>
    have hno := List.find?_eq_none.mp hfind f hf
    exact absurd (beq_self_eq_true f.name) hno
  | some g =>
    have hname : g.name = f.name := by simpa using List.find?_some hfind
    rw [h.eq_of_name (List.mem_of_find?_eq_some hfind) hf hname]

/-- A field, with the place where it is kept. -/
structure Slot (σ : Type) where
  Content : Type
  name : String
  get : σ → Option Content
  set : Content → σ → σ
  read : Reader Content

def Slot.reader (a : Slot σ) : FieldReader σ := .of a.name a.get a.set a.read

@[mk_iff]
structure Slot.Apart (a b : Slot σ) : Prop where
  name : a.name ≠ b.name
  left : ∀ c s, a.get (b.set c s) = a.get s
  right : ∀ c s, b.get (a.set c s) = b.get s

instance : Std.Symm (Slot.Apart : Slot σ → Slot σ → Prop) :=
  ⟨fun _ _ h => ⟨h.name.symm, h.right, h.left⟩⟩

/-- Fields with places of their own, where there is nothing at first. -/
structure Places (empty : σ) (slots : List (Slot σ)) : Prop where
  get_empty : ∀ a ∈ slots, a.get empty = none
  get_set : ∀ a ∈ slots, ∀ c s, a.get (a.set c s) = some c
  apart : slots.Pairwise Slot.Apart

theorem Places.owned {empty : σ} {slots : List (Slot σ)} (h : Places empty slots) {a : Slot σ}
    (ha : a ∈ slots) :
    Owned (slots.map Slot.reader) a.name a.get a.set a.read := by
  refine ⟨List.mem_map.mpr ⟨a, ha, rfl⟩, h.get_set a ha, fun g hg => ?_⟩
  obtain ⟨b, hb, rfl⟩ := List.mem_map.mp hg
  by_cases hab : a = b
  · exact Or.inl (congrArg Slot.name hab.symm)
  · exact Or.inr (of_frame (h.apart.forall ha hb hab).left)

theorem Places.lawful {empty : σ} {slots : List (Slot σ)} (h : Places empty slots) :
    Lawful (slots.map Slot.reader) where
  nodup := by
    rw [List.map_map, List.Nodup, List.pairwise_map]
    exact h.apart.imp fun hab => hab.name
  owned f hf := by
    obtain ⟨a, ha, rfl⟩ := List.mem_map.mp hf
    exact ⟨a.Content, a.get, a.set, a.read, rfl, h.owned ha⟩

/-! ## Structures -/

/-- The fields of a structure, before it is built. -/
def readSlots (fields : List (FieldReader σ)) (empty : σ) : Value → Attempt Unit σ
  | .object members => readMembers fields members empty
  | .array elements => readFields fields elements empty
  | _ => invalid

theorem readStruct_eq_ok {empty : σ} {build : σ → Option α} {v : Value} {a : α} :
    readStruct fields empty build v = .ok a ↔
      ∃ s, readSlots fields empty v = .ok s ∧ build s = some a := by
  cases v with
  | object members => simp only [readStruct, readSlots, bind_eq_ok, okOr_eq_ok]
  | array elements => simp only [readStruct, readSlots, bind_eq_ok, okOr_eq_ok]
  | _ => simp [readStruct, readSlots, invalid]

/-- One member of an object: its field is not set yet and is read, or it is skipped. -/
theorem readMembers_cons_eq_ok (h : Lawful fields) {key : String} {value : Value} {tail : Members} :
    readMembers fields (.cons key value tail) s = .ok s' ↔
      (∃ f ∈ fields, f.name = key ∧ f.isSet s = false ∧
        ∃ t, f.read s value = .ok t ∧ readMembers fields tail t = .ok s') ∨
      (∀ f ∈ fields, f.name ≠ key) ∧ value.intact = true ∧ readMembers fields tail s = .ok s' := by
  rw [readMembers]
  by_cases hknown : ∃ f ∈ fields, f.name = key
  · obtain ⟨f, hf, rfl⟩ := hknown
    rw [find_name h hf]
    dsimp only
    constructor
    · intro hread
      split at hread
      · cases hread
      · next hset => exact Or.inl ⟨f, hf, rfl, Bool.eq_false_iff.mpr hset, bind_eq_ok.mp hread⟩
    · rintro (⟨g, hg, hname, hset, hread⟩ | ⟨hno, -⟩)
      · obtain rfl := h.eq_of_name hg hf hname
        rw [hset]
        exact bind_eq_ok.mpr hread
      · exact absurd rfl (hno f hf)
  · have hno : ∀ f ∈ fields, f.name ≠ key := fun f hf hname => hknown ⟨f, hf, hname⟩
    have hfind : fields.find? (fun f => f.name == key) = none := by
      rw [List.find?_eq_none]
      exact fun f hf heq => hno f hf (beq_iff_eq.mp heq)
    rw [hfind]
    dsimp only
    constructor
    · intro hread
      split at hread
      · next hintact => exact Or.inr ⟨hno, hintact, hread⟩
      · cases hread
    · rintro (⟨f, hf, hname, -⟩ | ⟨-, hintact, hread⟩)
      · exact absurd hname (hno f hf)
      · rw [hintact]
        exact hread

/-- The values there are for a field, and what is in it before and after they are read. -/
def Fill (values : List Value) (read : Reader β) (before after : Option β) : Prop :=
  (values = [] ∧ after = before) ∨
    ∃ w b, values = [w] ∧ before = none ∧ read w = .ok b ∧ after = some b

theorem readMembers_fill (h : Lawful fields) (howned : Owned fields name get set read) :
    ∀ {members : Members} {s : σ}, readMembers fields members s = .ok s' →
      Fill (members.valuesOf name) read (get s) (get s')
  | .close, s, hread => Or.inl ⟨rfl, by cases hread; rfl⟩
  | .broken, _, hread => by cases hread
  | .cons key value tail, s, hread => by
    rw [Members.valuesOf]
    rcases (readMembers_cons_eq_ok h).mp hread with
      ⟨f, hf, hname, hnot, t, ht, hread⟩ | ⟨hno, -, hread⟩
    · have hrest := readMembers_fill h howned hread
      by_cases hkey : key = name
      · -- the field itself: it was not set, and is not there again
        obtain rfl := h.eq_of_name hf howned.mem (hname.trans hkey)
        obtain ⟨b, hb, rfl⟩ := of_read_eq_ok.mp ht
        rw [howned.get_set] at hrest
        rw [if_pos hkey]
        rcases hrest with ⟨hvalues, hget⟩ | ⟨_, _, -, hnone, -⟩
        · exact Or.inr ⟨value, b, by rw [hvalues], Option.not_isSome_iff_eq_none.mp
            (Bool.eq_false_iff.mp hnot), hb, hget⟩
        · cases hnone
      · have hframe := (howned.frame f hf).resolve_left (hname ▸ hkey)
        rw [if_neg hkey]
        rwa [hframe s value t ht] at hrest
    · have hkey : key ≠ name := fun heq => hno _ howned.mem heq.symm
      rw [if_neg hkey]
      exact readMembers_fill h howned hread

theorem readMembers_shaped (h : Lawful fields) : ∀ {members : Members} {s : σ},
    readMembers fields members s = .ok s' → members.Closed ∧
      ∀ p ∈ members.toList, p.1 ∉ fields.map FieldReader.name → p.2.intact = true
  | .close, _, _ => ⟨trivial, nofun⟩
  | .broken, _, hread => by cases hread
  | .cons key value tail, s, hread => by
    rcases (readMembers_cons_eq_ok h).mp hread with
      ⟨f, hf, rfl, -, t, -, hread⟩ | ⟨-, hintact, hread⟩
    · obtain ⟨hclosed, hskipped⟩ := readMembers_shaped h hread
      refine ⟨hclosed, fun p hp hno => ?_⟩
      rcases List.mem_cons.mp hp with rfl | hp
      · exact absurd (List.mem_map_of_mem hf) hno
      · exact hskipped p hp hno
    · obtain ⟨hclosed, hskipped⟩ := readMembers_shaped h hread
      refine ⟨hclosed, fun p hp hno => ?_⟩
      rcases List.mem_cons.mp hp with rfl | hp
      · exact hintact
      · exact hskipped p hp hno

/-- The members of an object are read when each value that is there for a field is. -/
theorem readMembers_of_shaped (h : Lawful fields) : ∀ {members : Members} {s : σ},
    members.Closed → (∀ p ∈ members.toList, p.1 ∉ fields.map FieldReader.name →
      p.2.intact = true) →
    (∀ f ∈ fields, (members.valuesOf f.name).length ≤ 1) →
    (∀ f ∈ fields, f.isSet s = true → members.valuesOf f.name = []) →
    (∀ f ∈ fields, ∀ w ∈ members.valuesOf f.name, ∀ s, ∃ s', f.read s w = .ok s') →
      ∃ s', readMembers fields members s = .ok s'
  | .close, s, _, _, _, _, _ => ⟨s, rfl⟩
  | .broken, _, hclosed, _, _, _, _ => hclosed.elim
  | .cons key value tail, s, hclosed, hskipped, honce, hset, hreads => by
    simp only [Members.valuesOf] at honce hset hreads
    have hclosed' : tail.Closed := hclosed
    have hskipped' : ∀ p ∈ tail.toList, p.1 ∉ fields.map FieldReader.name → p.2.intact = true :=
      fun p hp => hskipped p (.tail _ hp)
    have hreads' : ∀ f ∈ fields, ∀ w ∈ tail.valuesOf f.name, ∀ s, ∃ s', f.read s w = .ok s' := by
      intro f hf w hw
      refine hreads f hf w ?_
      split
      · exact .tail _ hw
      · exact hw
    have honce' : ∀ f ∈ fields, (tail.valuesOf f.name).length ≤ 1 := by
      intro f hf
      have hle := honce f hf
      split at hle
      · exact Nat.le_of_succ_le hle
      · exact hle
    by_cases hknown : ∃ f ∈ fields, f.name = key
    · obtain ⟨f, hf, rfl⟩ := hknown
      have hnot : f.isSet s = false := by
        by_contra hsome
        have hnil := hset f hf (eq_true_of_ne_false hsome)
        rw [if_pos rfl] at hnil
        cases hnil
      obtain ⟨t, ht⟩ := hreads f hf value (by rw [if_pos rfl]; exact .head _) s
      have hset' : ∀ g ∈ fields, g.isSet t = true → tail.valuesOf g.name = [] := by
        intro g hg hsome
        by_cases hname : f.name = g.name
        · have hle := honce g hg
          rw [if_pos hname] at hle
          exact List.eq_nil_of_length_eq_zero (Nat.le_zero.mp (Nat.le_of_succ_le_succ hle))
        · rw [h.isSet_of_ne hg hf hname ht] at hsome
          have hnil := hset g hg hsome
          rwa [if_neg hname] at hnil
      obtain ⟨s', hs'⟩ := readMembers_of_shaped h hclosed' hskipped' honce' hset' hreads'
      exact ⟨s', (readMembers_cons_eq_ok h).mpr (Or.inl ⟨f, hf, rfl, hnot, t, ht, hs'⟩)⟩
    · have hno : ∀ f ∈ fields, f.name ≠ key := fun f hf hname => hknown ⟨f, hf, hname⟩
      have hintact : value.intact = true := by
        refine hskipped (key, value) (.head _) fun hmem => ?_
        obtain ⟨f, hf, hname⟩ := List.mem_map.mp hmem
        exact hno f hf hname
      have hset' : ∀ f ∈ fields, f.isSet s = true → tail.valuesOf f.name = [] := by
        intro f hf hsome
        have hnil := hset f hf hsome
        rwa [if_neg (hno f hf).symm] at hnil
      obtain ⟨s', hs'⟩ := readMembers_of_shaped h hclosed' hskipped' honce' hset' hreads'
      exact ⟨s', (readMembers_cons_eq_ok h).mpr (Or.inr ⟨hno, hintact, hs'⟩)⟩

/-- The elements of an array that belong to the field `name`. -/
def Elements.valuesAt (name : String) (names : List String) (elements : Elements) : List Value :=
  (names.zip elements.toList).filterMap fun p => if p.1 = name then some p.2 else none

theorem valuesAt_cons (name' : String) (names : List String) (head : Value) (tail : Elements) :
    (Elements.cons head tail).valuesAt name (name' :: names)
      = if name' = name then head :: tail.valuesAt name names else tail.valuesAt name names := by
  unfold Elements.valuesAt
  rw [Elements.toList, List.zip_cons_cons, List.filterMap_cons]
  by_cases hname : name' = name <;> simp [hname]

theorem valuesAt_of_not_mem {names : List String} (hno : name ∉ names) (elements : Elements) :
    elements.valuesAt name names = [] := by
  refine List.filterMap_eq_nil_iff.mpr fun p hp => if_neg fun heq => hno ?_
  exact heq ▸ (List.of_mem_zip hp).1

/-- The fields that are left do not write what is in another one. -/
theorem readFields_frame (howned : Owned fields name get set read) :
    ∀ {rest : List (FieldReader σ)} {elements : Elements} {s : σ}, rest ⊆ fields →
      name ∉ rest.map FieldReader.name → readFields rest elements s = .ok s' → get s' = get s
  | _, .close, s, _, _, hread => by
    rw [readFields] at hread
    cases hread
    rfl
  | _, .broken, _, _, _, hread => by
    rw [readFields] at hread
    cases hread
  | [], .cons _ _, _, _, _, hread => by cases hread
  | f :: rest, .cons head tail, s, hsub, hno, hread => by
    obtain ⟨t, ht, hread⟩ := bind_eq_ok.mp hread
    rw [List.map_cons, List.mem_cons, not_or] at hno
    have hframe := (howned.frame f (hsub (.head _))).resolve_left fun heq => hno.1 heq.symm
    rw [readFields_frame howned (fun g hg => hsub (.tail _ hg)) hno.2 hread, hframe s head t ht]

theorem readFields_fill (h : Lawful fields) (howned : Owned fields name get set read) :
    ∀ {rest : List (FieldReader σ)} {elements : Elements} {s : σ}, rest ⊆ fields →
      (rest.map FieldReader.name).Nodup → get s = none → readFields rest elements s = .ok s' →
        Fill (elements.valuesAt name (rest.map FieldReader.name)) read none (get s')
  | rest, .close, s, _, _, hnone, hread => by
    rw [readFields] at hread
    cases hread
    refine Or.inl ⟨?_, hnone⟩
    simp [Elements.valuesAt, Elements.toList]
  | _, .broken, _, _, _, _, hread => by
    rw [readFields] at hread
    cases hread
  | [], .cons _ _, _, _, _, _, hread => by cases hread
  | f :: rest, .cons head tail, s, hsub, hnodup, hnone, hread => by
    obtain ⟨t, ht, hread⟩ := bind_eq_ok.mp hread
    rw [List.map_cons, List.nodup_cons] at hnodup
    have hsub' : rest ⊆ fields := fun g hg => hsub (.tail _ hg)
    rw [List.map_cons, valuesAt_cons]
    by_cases hname : f.name = name
    · obtain rfl := h.eq_of_name (hsub (.head _)) howned.mem hname
      obtain ⟨b, hb, rfl⟩ := of_read_eq_ok.mp ht
      have hno : name ∉ rest.map FieldReader.name := hnodup.1
      rw [if_pos hname, valuesAt_of_not_mem hno]
      refine Or.inr ⟨head, b, rfl, rfl, hb, ?_⟩
      rw [readFields_frame howned hsub' hno hread, howned.get_set]
    · have hframe := (howned.frame f (hsub (.head _))).resolve_left hname
      rw [if_neg hname]
      exact readFields_fill h howned hsub' hnodup.2 ((hframe s head t ht).trans hnone) hread

theorem readFields_shaped : ∀ {rest : List (FieldReader σ)} {elements : Elements} {s : σ},
    readFields rest elements s = .ok s' →
      elements.Closed ∧ elements.toList.length ≤ rest.length
  | _, .close, _, _ => ⟨trivial, Nat.zero_le _⟩
  | _, .broken, _, hread => by
    rw [readFields] at hread
    cases hread
  | [], .cons _ _, _, hread => by cases hread
  | f :: rest, .cons head tail, s, hread => by
    obtain ⟨t, -, hread⟩ := bind_eq_ok.mp hread
    obtain ⟨hclosed, hle⟩ := readFields_shaped hread
    exact ⟨hclosed, Nat.succ_le_succ hle⟩

/-- The elements of an array are read when each of them is. -/
theorem readFields_of_shaped : ∀ {rest : List (FieldReader σ)} {elements : Elements} {s : σ},
    elements.Closed → elements.toList.length ≤ rest.length →
    (∀ p ∈ rest.zip elements.toList, ∀ s, ∃ s', p.1.read s p.2 = .ok s') →
      ∃ s', readFields rest elements s = .ok s'
  | _, .close, s, _, _, _ => ⟨s, by rw [readFields]⟩
  | _, .broken, _, hclosed, _, _ => hclosed.elim
  | [], .cons _ _, _, _, hle, _ => absurd hle (Nat.not_succ_le_zero _)
  | f :: rest, .cons head tail, s, hclosed, hle, hreads => by
    have hclosed' : tail.Closed := hclosed
    obtain ⟨t, ht⟩ := hreads (f, head) (.head _) s
    obtain ⟨s', hs'⟩ := readFields_of_shaped hclosed' (Nat.le_of_succ_le_succ hle)
      (fun p hp => hreads p (.tail _ hp)) (s := t)
    exact ⟨s', bind_eq_ok.mpr ⟨t, ht, hs'⟩⟩

/-! ## Both -/

theorem Fill.gives {names : List String} {v : Value} {b : Option β}
    (h : Fill (v.fieldValues names name) read none b) : v.Gives names name read b := by
  rcases h with ⟨hnil, rfl⟩ | ⟨w, b, hone, -, hb, rfl⟩
  · exact hnil
  · exact ⟨w, hone, hb⟩

variable {empty : σ} {v : Value}

/-- **What is read into a field was written there**, and nowhere else. -/
theorem readSlots_gives (h : Lawful fields) (howned : Owned fields name get set read)
    (hempty : get empty = none) (hread : readSlots fields empty v = .ok s) :
    v.Gives (fields.map FieldReader.name) name read (get s) := by
  cases v with
  | object members =>
    have hfill := readMembers_fill h howned hread
    rw [hempty] at hfill
    exact Fill.gives hfill
  | array elements =>
    exact Fill.gives (readFields_fill h howned (fun _ hg => hg) h.nodup hempty hread)
  | _ => cases hread

/-- **What is read has the shape of the structure.** -/
theorem readSlots_shaped (h : Lawful fields) (hread : readSlots fields empty v = .ok s) :
    v.Shaped (fields.map FieldReader.name) := by
  cases v with
  | object members =>
    obtain ⟨hclosed, hskipped⟩ := readMembers_shaped h hread
    refine .object hclosed (fun name hname => ?_) hskipped
    obtain ⟨f, hf, rfl⟩ := List.mem_map.mp hname
    obtain ⟨β, get, set, read, hof, howned⟩ := h.owned f hf
    rcases readMembers_fill h howned hread with ⟨hnil, -⟩ | ⟨w, b, hone, -⟩
    · exact hnil ▸ Nat.zero_le _
    · exact hone ▸ Nat.le_refl _
  | array elements =>
    obtain ⟨hclosed, hle⟩ := readFields_shaped hread
    exact .array hclosed (by rwa [List.length_map])
  | _ => cases hread

/-- **What has the shape of the structure is read**, if what is in its fields is. -/
theorem readSlots_of_shaped (h : Lawful fields) (hempty : ∀ f ∈ fields, f.isSet empty = false)
    (hshaped : v.Shaped (fields.map FieldReader.name))
    (hreads : ∀ f ∈ fields, ∀ w ∈ v.fieldValues (fields.map FieldReader.name) f.name,
      ∀ s, ∃ s', f.read s w = .ok s') : ∃ s, readSlots fields empty v = .ok s := by
  cases hshaped with
  | object hclosed honce hskipped =>
    refine readMembers_of_shaped h hclosed hskipped
      (fun f hf => honce f.name (List.mem_map_of_mem hf)) (fun f hf hset => ?_) hreads
    rw [hempty f hf] at hset
    cases hset
  | @array elements hclosed hfits =>
    rw [List.length_map] at hfits
    refine readFields_of_shaped hclosed hfits fun p hp => ?_
    refine hreads p.1 (List.of_mem_zip hp).1 p.2 ?_
    refine List.mem_filterMap.mpr ⟨(p.1.name, p.2), ?_, if_pos rfl⟩
    rw [List.zip_map_left]
    exact List.mem_map.mpr ⟨p, hp, rfl⟩

/-- A field holds one thing. -/
theorem Value.Gives.unique {names : List String} {b b' : Option β}
    (h : v.Gives names name read b) (h' : v.Gives names name read b') : b = b' := by
  cases b with
  | none =>
    cases b' with
    | none => rfl
    | some _ =>
      obtain ⟨w, hone, -⟩ := h'
      rw [show v.fieldValues names name = [] from h] at hone
      cases hone
  | some c =>
    obtain ⟨w, hone, hc⟩ := h
    cases b' with
    | none =>
      rw [show v.fieldValues names name = [] from h'] at hone
      cases hone
    | some c' =>
      obtain ⟨w', hone', hc'⟩ := h'
      obtain ⟨rfl, -⟩ := List.cons.inj (hone.symm.trans hone')
      exact congrArg some (Except.ok.inj (hc.symm.trans hc'))

/-- What a field holds is read into it. -/
theorem Value.Gives.reads {names : List String} {b : Option β} (h : v.Gives names name read b)
    {w : Value} (hw : w ∈ v.fieldValues names name) (s : σ) :
    ∃ s', (FieldReader.of name get set read).read s w = .ok s' := by
  cases b with
  | none =>
    rw [show v.fieldValues names name = [] from h] at hw
    cases hw
  | some b =>
    obtain ⟨w', hone, hb⟩ := h
    rw [hone, List.mem_singleton] at hw
    exact ⟨set b s, of_read_eq_ok.mpr ⟨b, hw ▸ hb, rfl⟩⟩

section

variable {slots : List (Slot σ)} {a : Slot σ} {t : σ}

theorem names_reader : (slots.map Slot.reader).map FieldReader.name = slots.map Slot.name :=
  List.map_map

theorem Places.gives (h : Places empty slots)
    (hread : readSlots (slots.map Slot.reader) empty v = .ok s) (ha : a ∈ slots) :
    v.Gives (slots.map Slot.name) a.name a.read (a.get s) := by
  rw [← names_reader]
  exact readSlots_gives h.lawful (h.owned ha) (h.get_empty a ha) hread

theorem Places.shaped (h : Places empty slots)
    (hread : readSlots (slots.map Slot.reader) empty v = .ok s) :
    v.Shaped (slots.map Slot.name) := by
  rw [← names_reader]
  exact readSlots_shaped h.lawful hread

/-- **A structure is read as it is written.** -/
theorem Places.exists_read (h : Places empty slots) (t : σ)
    (hshaped : v.Shaped (slots.map Slot.name))
    (hgives : ∀ a ∈ slots, v.Gives (slots.map Slot.name) a.name a.read (a.get t)) :
    ∃ s, readSlots (slots.map Slot.reader) empty v = .ok s ∧ ∀ a ∈ slots, a.get s = a.get t := by
  have hread : ∃ s, readSlots (slots.map Slot.reader) empty v = .ok s := by
    rw [← names_reader] at hshaped hgives
    refine readSlots_of_shaped h.lawful (fun f hf => ?_) hshaped fun f hf w hw => ?_
    · obtain ⟨a, ha, rfl⟩ := List.mem_map.mp hf
      exact congrArg Option.isSome (h.get_empty a ha)
    · obtain ⟨a, ha, rfl⟩ := List.mem_map.mp hf
      exact (hgives a ha).reads hw
  obtain ⟨s, hs⟩ := hread
  exact ⟨s, hs, fun a ha => (h.gives hs ha).unique (hgives a ha)⟩

end

/-! ## Objects in any order -/

/-- The members are these, in some order, among others that are no fields. -/
structure Members.Among (names : List String) (members : Members)
    (written : List (String × Value)) : Prop where
  closed : members.Closed
  perm : ∃ others, members.toList.Perm (written ++ others) ∧
    ∀ p ∈ others, p.1 ∉ names ∧ p.2.intact = true

theorem valuesOf_eq (name : String) : ∀ members : Members,
    members.valuesOf name = (members.toList.filter fun p => p.1 == name).map Prod.snd
  | .close | .broken => rfl
  | .cons key value tail => by
    rw [Members.valuesOf, Members.toList, List.filter_cons, valuesOf_eq name tail]
    by_cases hkey : key = name <;> simp [hkey]

/-- The values under the name of a field are those that are written, whatever else there is. -/
theorem Members.Among.valuesOf_perm {names : List String} {members : Members}
    {written : List (String × Value)} (h : members.Among names written) {name : String}
    (hname : name ∈ names) : (members.valuesOf name).Perm
      ((written.filter fun p => p.1 == name).map Prod.snd) := by
  obtain ⟨others, hperm, hothers⟩ := h.perm
  have hnone : others.filter (fun p => p.1 == name) = [] := by
    rw [List.filter_eq_nil_iff]
    intro p hp heq
    exact (hothers p hp).1 (beq_iff_eq.mp heq ▸ hname)
  have hvalues := (hperm.filter fun p => p.1 == name).map Prod.snd
  rwa [List.filter_append, hnone, List.append_nil, ← valuesOf_eq] at hvalues

/-- A field that is written once. -/
theorem Members.Among.valuesOf_one {names : List String} {members : Members}
    {written : List (String × Value)} (h : members.Among names written) {name : String}
    (hname : name ∈ names) (hwritten : written.filter (fun p => p.1 == name) = [(name, w)]) :
    members.valuesOf name = [w] := by
  have hperm := h.valuesOf_perm hname
  rw [hwritten] at hperm
  exact List.perm_singleton.mp hperm

/-- A field that is not written. -/
theorem Members.Among.valuesOf_nil {names : List String} {members : Members}
    {written : List (String × Value)} (h : members.Among names written) {name : String}
    (hname : name ∈ names) (hwritten : written.filter (fun p => p.1 == name) = []) :
    members.valuesOf name = [] := by
  have hperm := h.valuesOf_perm hname
  rw [hwritten] at hperm
  exact List.perm_nil.mp hperm

theorem Members.Among.gives {names : List String} {members : Members}
    {written : List (String × Value)} (h : members.Among names written) {name : String}
    (hname : name ∈ names) (hwritten : written.filter (fun p => p.1 == name) = [(name, w)])
    {b : β} (hread : read w = .ok b) : (Value.object members).Gives names name read (some b) :=
  ⟨w, h.valuesOf_one hname hwritten, hread⟩

/-- Fields that are written once each have the shape of the structure. -/
theorem Members.Among.shaped {names : List String} {members : Members}
    {written : List (String × Value)} (h : members.Among names written)
    (hnodup : (written.map Prod.fst).Nodup) (hnames : written.map Prod.fst ⊆ names) :
    (Value.object members).Shaped names := by
  refine .object h.closed (fun name hname => ?_) fun p hp hno => ?_
  · rw [(h.valuesOf_perm hname).length_eq, List.length_map, ← List.countP_eq_length_filter]
    have hcount := List.nodup_iff_count_le_one.mp hnodup name
    rwa [List.count_eq_countP, List.countP_map] at hcount
  · obtain ⟨others, hperm, hothers⟩ := h.perm
    rcases List.mem_append.mp (hperm.mem_iff.mp hp) with hp | hp
    · exact absurd (hnames (List.mem_map_of_mem hp)) hno
    · exact (hothers p hp).2

end Infra.Json
