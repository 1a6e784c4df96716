import Mathlib.Data.List.Nodup
import Mathlib.Tactic.Common

/-!
# Maps in both directions

A finite map, as the list of its entries in the order in which they are iterated over. `valueOf`
looks a key up, `keyOf` searches the entries for the first one with a value. While neither the keys
nor the values repeat, the two are inverse to each other, and the order of the entries does not
matter.

* `OneToOne.valueOf_iff_keyOf` — the two directions agree
* `OneToOne.append`, `OneToOne.filter` — entries that are added and removed
* `putEntries_of_distinct` — a map that is filled entry by entry
-/

namespace Infra

variable {κ ν : Type*}

/-- Neither a key nor a value is in two entries. -/
structure OneToOne (m : List (κ × ν)) : Prop where
  keys : (m.map Prod.fst).Nodup
  values : (m.map Prod.snd).Nodup

namespace OneToOne

theorem nil : OneToOne ([] : List (κ × ν)) := ⟨List.nodup_nil, List.nodup_nil⟩

theorem perm {m m' : List (κ × ν)} (h : OneToOne m) (hperm : m'.Perm m) : OneToOne m' :=
  ⟨(hperm.map Prod.fst).nodup_iff.mpr h.keys, (hperm.map Prod.snd).nodup_iff.mpr h.values⟩

theorem filter {m : List (κ × ν)} (h : OneToOne m) (p : κ × ν → Bool) : OneToOne (m.filter p) :=
  ⟨h.keys.sublist (List.filter_sublist.map Prod.fst),
    h.values.sublist (List.filter_sublist.map Prod.snd)⟩

theorem append {m : List (κ × ν)} (h : OneToOne m) {k : κ} {v : ν} (hk : k ∉ m.map Prod.fst)
    (hv : v ∉ m.map Prod.snd) : OneToOne (m ++ [(k, v)]) := by
  constructor
  · rw [List.map_append, List.nodup_append_comm]
    exact List.nodup_cons.mpr ⟨hk, h.keys⟩
  · rw [List.map_append, List.nodup_append_comm]
    exact List.nodup_cons.mpr ⟨hv, h.values⟩

end OneToOne

/-! ## Looking up -/

def valueOf [BEq κ] (k : κ) (m : List (κ × ν)) : Option ν :=
  (m.find? fun p => p.1 == k).map Prod.snd

def keyOf [BEq ν] (v : ν) (m : List (κ × ν)) : Option κ :=
  (m.find? fun p => p.2 == v).map Prod.fst

/-- In a column without repetitions a search finds the only entry there is. -/
theorem find?_column_iff {α γ : Type*} [BEq γ] [LawfulBEq γ] {f : α → γ} {l : List α}
    (h : (l.map f).Nodup) {c : γ} {a : α} :
    (l.find? fun x => f x == c) = some a ↔ a ∈ l ∧ f a = c := by
  constructor
  · intro hfind
    exact ⟨List.mem_of_find?_eq_some hfind, by simpa using List.find?_some hfind⟩
  · rintro ⟨ha, rfl⟩
    cases hfind : l.find? (fun x => f x == f a) with
    | none => exact absurd (List.find?_eq_none.mp hfind a ha) (by simp)
    | some b =>
      have hcolumn : f b = f a := by simpa using List.find?_some hfind
      rw [List.inj_on_of_nodup_map h (List.mem_of_find?_eq_some hfind) ha hcolumn]

namespace OneToOne

variable {m : List (κ × ν)} {k : κ} {v : ν}

theorem valueOf_eq_some [BEq κ] [LawfulBEq κ] (h : OneToOne m) :
    valueOf k m = some v ↔ (k, v) ∈ m := by
  unfold valueOf
  rw [Option.map_eq_some_iff]
  constructor
  · rintro ⟨p, hfind, rfl⟩
    obtain ⟨hmem, rfl⟩ := (find?_column_iff h.keys).mp hfind
    exact hmem
  · intro hmem
    exact ⟨(k, v), (find?_column_iff h.keys).mpr ⟨hmem, rfl⟩, rfl⟩

theorem keyOf_eq_some [BEq ν] [LawfulBEq ν] (h : OneToOne m) :
    keyOf v m = some k ↔ (k, v) ∈ m := by
  unfold keyOf
  rw [Option.map_eq_some_iff]
  constructor
  · rintro ⟨p, hfind, rfl⟩
    obtain ⟨hmem, rfl⟩ := (find?_column_iff h.values).mp hfind
    exact hmem
  · intro hmem
    exact ⟨(k, v), (find?_column_iff h.values).mpr ⟨hmem, rfl⟩, rfl⟩

/-- **A key has a value exactly when it is the first key with this value.** -/
theorem valueOf_iff_keyOf [BEq κ] [LawfulBEq κ] [BEq ν] [LawfulBEq ν] (h : OneToOne m) :
    valueOf k m = some v ↔ keyOf v m = some k :=
  h.valueOf_eq_some.trans h.keyOf_eq_some.symm

end OneToOne

/-! ## Filling a map -/

/-- Write one entry over the one with its key. -/
def putEntry [BEq κ] (k : κ) (v : ν) (m : List (κ × ν)) : List (κ × ν) :=
  (m.filter fun p => p.1 != k) ++ [(k, v)]

def putEntries [BEq κ] (l m : List (κ × ν)) : List (κ × ν) :=
  l.foldl (fun m p => putEntry p.1 p.2 m) m

theorem putEntry_of_fresh [BEq κ] [LawfulBEq κ] {k : κ} {m : List (κ × ν)} (v : ν)
    (h : k ∉ m.map Prod.fst) : putEntry k v m = m ++ [(k, v)] := by
  have hall : (m.filter fun p => p.1 != k) = m := by
    refine List.filter_eq_self.mpr fun p hp => bne_iff_ne.mpr fun heq => h ?_
    rw [← heq]
    exact List.mem_map_of_mem hp
  rw [putEntry, hall]

/-- Entries whose keys are all distinct are added one after the other. -/
theorem putEntries_of_distinct [BEq κ] [LawfulBEq κ] : ∀ {l m : List (κ × ν)},
    ((m ++ l).map Prod.fst).Nodup → putEntries l m = m ++ l
  | [], m, _ => (List.append_nil m).symm
  | p :: l, m, h => by
    have hfresh : p.1 ∉ m.map Prod.fst := by
      intro hp
      rw [List.map_append, List.nodup_append] at h
      exact h.2.2 p.1 hp p.1 (by simp) rfl
    have hstep : putEntries (p :: l) m = putEntries l (m ++ [p]) :=
      congrArg (putEntries l) (putEntry_of_fresh p.2 hfresh)
    have hnodup : (((m ++ [p]) ++ l).map Prod.fst).Nodup := by
      rw [List.append_assoc]
      exact h
    rw [hstep, putEntries_of_distinct hnodup, List.append_assoc]
    rfl

end Infra
