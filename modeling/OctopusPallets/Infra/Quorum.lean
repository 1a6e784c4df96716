import Mathlib.Algebra.BigOperators.Group.Finset.Basic
import Mathlib.Algebra.Order.BigOperators.Group.Finset
import Mathlib.Tactic.Linarith

/-!
# Weighted quorums and vote books

Voters carry weights whose sum over any set is bounded by a total. A quorum holds more than two
thirds of the total. A book records, for each ballot, the set of voters who cast it; casting a
vote only ever adds to it.
-/

namespace Infra

open scoped BigOperators

variable {α β : Type*}

/-! ## Weights -/

/-- The weight of a set of voters. -/
def weightOf (w : α → ℕ) (S : Finset α) : ℕ := ∑ v ∈ S, w v

theorem weightOf_mono (w : α → ℕ) {S S' : Finset α} (h : S ⊆ S') : weightOf w S ≤ weightOf w S' :=
  Finset.sum_le_sum_of_subset h

/-- A list without repetitions weighs as much as the set of its elements. -/
theorem weightOf_toFinset [DecidableEq α] (w : α → ℕ) {l : List α} (h : l.Nodup) :
    weightOf w l.toFinset = (l.map w).sum :=
  List.sum_toFinset w h

/-! ## Electorates -/

/-- Weights with a total that no set of voters exceeds. -/
structure Electorate (α : Type*) where
  weight : α → ℕ
  total : ℕ
  sum_le : ∀ S : Finset α, weightOf weight S ≤ total

namespace Electorate

variable (E : Electorate α)

/-- The weight of a set of voters. -/
def stake (S : Finset α) : ℕ := weightOf E.weight S

/-- More than two thirds of the total. -/
def Quorum (S : Finset α) : Prop := 2 * E.total < 3 * E.stake S

/-- Less than a third of the total. -/
def Minority (S : Finset α) : Prop := 3 * E.stake S < E.total

theorem stake_le_total (S : Finset α) : E.stake S ≤ E.total := E.sum_le S

theorem stake_mono {S S' : Finset α} (h : S ⊆ S') : E.stake S ≤ E.stake S' :=
  weightOf_mono E.weight h

variable {E}

theorem Quorum.mono {S S' : Finset α} (hS : E.Quorum S) (h : S ⊆ S') : E.Quorum S' := by
  have hle := E.stake_mono h
  unfold Quorum at *
  omega

/-- **A quorum has a member outside every minority.** -/
theorem Quorum.exists_not_mem {S B : Finset α} (hS : E.Quorum S) (hB : E.Minority B) :
    ∃ v ∈ S, v ∉ B := by
  by_contra hall
  simp only [not_exists, not_and, not_not] at hall
  -- otherwise the minority would weigh as much as the quorum
  have hle : E.stake S ≤ E.stake B := E.stake_mono hall
  unfold Quorum at hS
  unfold Minority at hB
  omega

/-- A quorum has a member outside every set that is none. -/
theorem Quorum.exists_not_mem_of_not_quorum {S B : Finset α} (hS : E.Quorum S)
    (hB : ¬ E.Quorum B) : ∃ v ∈ S, v ∉ B := by
  by_contra hall
  simp only [not_exists, not_and, not_not] at hall
  exact hB (hS.mono hall)

/-- Nobody is no quorum. -/
theorem not_quorum_empty : ¬ E.Quorum ∅ := by
  unfold Quorum stake weightOf
  rw [Finset.sum_empty]
  omega

/-- **Two quorums share more than a third of the total.** -/
theorem Quorum.inter [DecidableEq α] {S S' : Finset α} (hS : E.Quorum S) (hS' : E.Quorum S') :
    E.total < 3 * E.stake (S ∩ S') := by
  have hsum : E.stake (S ∪ S') + E.stake (S ∩ S') = E.stake S + E.stake S' :=
    Finset.sum_union_inter
  have hunion := E.stake_le_total (S ∪ S')
  unfold Quorum at hS hS'
  omega

end Electorate

/-! ## Books -/

/-- Who voted for what. -/
def Book (α β : Type*) : Type _ := β → Finset α

namespace Book

variable [DecidableEq α] [DecidableEq β]

/-- Add the vote of `v` for `b`. -/
def cast (k : Book α β) (v : α) (b : β) : Book α β :=
  Function.update k b (insert v (k b))

@[simp] theorem cast_self (k : Book α β) (v : α) (b : β) : k.cast v b b = insert v (k b) :=
  Function.update_self ..

theorem cast_of_ne (k : Book α β) (v : α) {b c : β} (h : c ≠ b) : k.cast v b c = k c :=
  Function.update_of_ne h ..

theorem mem_cast {k : Book α β} {v x : α} {b c : β} :
    x ∈ k.cast v b c ↔ x ∈ k c ∨ (x = v ∧ c = b) := by
  by_cases h : c = b
  · subst h
    simp [or_comm]
  · simp [cast_of_ne k v h, h]

end Book

end Infra
