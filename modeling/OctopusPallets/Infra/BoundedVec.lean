import Mathlib.Data.List.Basic
import Mathlib.Tactic.Common

/-!
# Vectors of bounded length

A list that carries the proof of its bound, with the append that fails at the bound and the
append that skips an element already present.
-/

namespace Infra

/-- A list of at most `n` elements. -/
structure BoundedVec (α : Type) (n : Nat) where
  val : List α
  length_le : val.length ≤ n
deriving DecidableEq

namespace BoundedVec

variable {α : Type} {n : Nat}

/-- The empty vector. -/
def empty : BoundedVec α n := ⟨[], Nat.zero_le n⟩

instance : Inhabited (BoundedVec α n) := ⟨empty⟩

@[simp] theorem empty_val : (empty : BoundedVec α n).val = [] := rfl

@[ext] theorem ext {xs ys : BoundedVec α n} (h : xs.val = ys.val) : xs = ys := by
  cases xs
  cases ys
  simp_all

/-- A list as a bounded vector, when it fits. -/
def ofList (n : Nat) (l : List α) : Option (BoundedVec α n) :=
  if h : l.length ≤ n then some ⟨l, h⟩ else none

theorem ofList_eq_some {l : List α} {ys : BoundedVec α n} : ofList n l = some ys ↔ ys.val = l := by
  unfold ofList
  split
  · next h =>
    constructor
    · intro he
      rw [← Option.some.inj he]
    · intro he
      exact congrArg some (BoundedVec.ext he.symm)
  · next h =>
    constructor
    · intro he
      cases he
    · intro he
      exact absurd (he ▸ ys.length_le) h

/-- The entries of a vector are within its bound. -/
theorem ofList_val (xs : BoundedVec α n) : ofList n xs.val = some xs := ofList_eq_some.mpr rfl

theorem ofList_eq_none {l : List α} : ofList n l = none ↔ n < l.length := by
  unfold ofList
  split <;> simp_all

/-- Append at the end; at the bound the vector stays as it is. -/
def tryPush (xs : BoundedVec α n) (x : α) : Option (BoundedVec α n) :=
  ofList n (xs.val ++ [x])

theorem tryPush_eq_some {xs ys : BoundedVec α n} {x : α} :
    xs.tryPush x = some ys ↔ ys.val = xs.val ++ [x] := ofList_eq_some

theorem tryPush_eq_none {xs : BoundedVec α n} {x : α} :
    xs.tryPush x = none ↔ xs.val.length = n := by
  have hlen := xs.length_le
  unfold tryPush
  rw [ofList_eq_none, List.length_append, List.length_singleton]
  omega

section Absent

variable [DecidableEq α]

/-- Append `x` unless it is there already. -/
def tryPushAbsent (xs : BoundedVec α n) (x : α) : Option (BoundedVec α n) :=
  if xs.val.any (fun y => y == x) then some xs else xs.tryPush x

theorem tryPushAbsent_of_mem {xs : BoundedVec α n} {x : α} (h : x ∈ xs.val) :
    xs.tryPushAbsent x = some xs := by
  unfold tryPushAbsent
  rw [if_pos]
  simpa using h

theorem tryPushAbsent_of_not_mem {xs : BoundedVec α n} {x : α} (h : x ∉ xs.val) :
    xs.tryPushAbsent x = xs.tryPush x := by
  unfold tryPushAbsent
  rw [if_neg]
  simpa using h

/-- The append is refused exactly when the vector is full and `x` is not in it. -/
theorem tryPushAbsent_eq_none {xs : BoundedVec α n} {x : α} :
    xs.tryPushAbsent x = none ↔ xs.val.length = n ∧ x ∉ xs.val := by
  by_cases h : x ∈ xs.val
  · simp [tryPushAbsent_of_mem h, h]
  · simp [tryPushAbsent_of_not_mem h, tryPush_eq_none, h]

theorem mem_of_tryPushAbsent {xs ys : BoundedVec α n} {x : α} (h : xs.tryPushAbsent x = some ys)
    (y : α) : y ∈ ys.val ↔ y = x ∨ y ∈ xs.val := by
  by_cases hx : x ∈ xs.val
  · rw [tryPushAbsent_of_mem hx, Option.some.injEq] at h
    rw [← h]
    constructor
    · exact Or.inr
    · rintro (rfl | hy)
      · exact hx
      · exact hy
  · rw [tryPushAbsent_of_not_mem hx, tryPush_eq_some] at h
    rw [h, List.mem_append, List.mem_singleton]
    exact or_comm

theorem nodup_of_tryPushAbsent {xs ys : BoundedVec α n} {x : α} (h : xs.tryPushAbsent x = some ys)
    (hnd : xs.val.Nodup) : ys.val.Nodup := by
  by_cases hx : x ∈ xs.val
  · rw [tryPushAbsent_of_mem hx, Option.some.injEq] at h
    exact h ▸ hnd
  · rw [tryPushAbsent_of_not_mem hx, tryPush_eq_some] at h
    rw [h]
    refine List.nodup_append.mpr ⟨hnd, by simp, ?_⟩
    intro a ha b hb hab
    rw [List.mem_singleton] at hb
    rw [hab, hb] at ha
    exact hx ha

end Absent

end BoundedVec

end Infra
