import OctopusPallets.Infra.Overwrite

/-!
# Tallies

A tally is a finite map from keys to natural numbers that only grows by additions to one key. Its
total is the sum of its values, and a truncated average of it is reached by one of the keys.

* `sum_entries_insert` — what a replaced value does to the total
* `exists_average_le` — someone has at least the average
* `cutOff_le`, `cutOff_le_average` — a share of the truncated average
-/

namespace Infra.Tally

open Infra.Overwrite
open scoped BigOperators

variable {α : Type*} [DecidableEq α]

/-! ## The total -/

/-- Keys outside the map add nothing. -/
theorem sum_entries_of_subset (m : AList fun _ : α => ℕ) {S : Finset α}
    (hS : ∀ a p, m.lookup a = some p → 0 < p → a ∈ S) :
    (m.entries.map Sigma.snd).sum = ∑ a ∈ S, (m.lookup a).getD 0 := by
  have hzero : ∀ a, a ∉ m.keys.toFinset → (m.lookup a).getD 0 = 0 := by
    intro a ha
    rw [List.mem_toFinset, ← AList.mem_keys, ← AList.lookup_eq_none] at ha
    rw [ha]
    rfl
  have hout : ∀ a, a ∉ S → (m.lookup a).getD 0 = 0 := by
    intro a ha
    cases hlookup : m.lookup a with
    | none => rfl
    | some p => exact Nat.eq_zero_of_not_pos fun hp => ha (hS a p hlookup hp)
  rw [sum_entries]
  calc ∑ a ∈ m.keys.toFinset, (m.lookup a).getD 0
      = ∑ a ∈ m.keys.toFinset ∪ S, (m.lookup a).getD 0 :=
        Finset.sum_subset Finset.subset_union_left fun a _ ha => hzero a ha
    _ = ∑ a ∈ S, (m.lookup a).getD 0 :=
        (Finset.sum_subset Finset.subset_union_right fun a _ ha => hout a ha).symm

theorem mem_keys_of_lookup {m : AList fun _ : α => ℕ} {a : α} {p : ℕ} (h : m.lookup a = some p) :
    a ∈ m.keys.toFinset := by
  rw [List.mem_toFinset, ← AList.mem_keys, ← AList.lookup_isSome, h]
  rfl

/-- No value is more than the total. -/
theorem lookup_le_sum_entries (m : AList fun _ : α => ℕ) (a : α) :
    (m.lookup a).getD 0 ≤ (m.entries.map Sigma.snd).sum := by
  rw [sum_entries_of_subset m (S := insert a m.keys.toFinset) fun b p hb _ =>
    Finset.mem_insert_of_mem (mem_keys_of_lookup hb)]
  exact Finset.single_le_sum (f := fun b => (m.lookup b).getD 0) (fun _ _ => Nat.zero_le _)
    (Finset.mem_insert_self a _)

/-- **A replaced value moves the total by the difference.** -/
theorem sum_entries_insert (m : AList fun _ : α => ℕ) (a : α) (p : ℕ) :
    ((m.insert a p).entries.map Sigma.snd).sum + (m.lookup a).getD 0
      = (m.entries.map Sigma.snd).sum + p := by
  -- both totals over the keys of the two maps
  let S := insert a (m.keys.toFinset ∪ (m.insert a p).keys.toFinset)
  have ha : a ∈ S := Finset.mem_insert_self a _
  have hbefore := sum_entries_of_subset m (S := S) fun b q hb _ =>
    Finset.mem_insert_of_mem (Finset.mem_union_left _ (mem_keys_of_lookup hb))
  have hafter := sum_entries_of_subset (m.insert a p) (S := S) fun b q hb _ =>
    Finset.mem_insert_of_mem (Finset.mem_union_right _ (mem_keys_of_lookup hb))
  have hrest : ∑ b ∈ S.erase a, ((m.insert a p).lookup b).getD 0
      = ∑ b ∈ S.erase a, (m.lookup b).getD 0 :=
    Finset.sum_congr rfl fun b hb => by rw [AList.lookup_insert_ne (Finset.ne_of_mem_erase hb)]
  rw [hbefore, hafter, ← Finset.add_sum_erase S _ ha, ← Finset.add_sum_erase S _ ha, hrest,
    AList.lookup_insert, Option.getD_some]
  omega

/-! ## Averages -/

omit [DecidableEq α] in
/-- Someone who has anything has at least the truncated average. -/
theorem exists_average_le {S : Finset α} {f : α → ℕ} {n : ℕ} (hcard : S.card ≤ n)
    (hpos : 0 < ∑ a ∈ S, f a) : ∃ a ∈ S, 0 < f a ∧ (∑ b ∈ S, f b) / n ≤ f a := by
  by_contra hnone
  push Not at hnone
  have hsplit : ∑ a ∈ S with 0 < f a, f a = ∑ a ∈ S, f a :=
    Finset.sum_filter_of_ne fun a _ ha => Nat.pos_of_ne_zero ha
  have hsome : (S.filter fun a => 0 < f a).Nonempty := by
    rw [Finset.nonempty_iff_ne_empty]
    intro hempty
    rw [hempty, Finset.sum_empty] at hsplit
    omega
  have hbelow : ∑ a ∈ S with 0 < f a, f a < ∑ a ∈ S, f a := by
    calc ∑ a ∈ S with 0 < f a, f a
        < ∑ a ∈ S with 0 < f a, (∑ b ∈ S, f b) / n :=
          Finset.sum_lt_sum_of_nonempty hsome fun a ha =>
            hnone a (Finset.mem_filter.mp ha).1 (Finset.mem_filter.mp ha).2
      _ = (S.filter fun a => 0 < f a).card * ((∑ b ∈ S, f b) / n) :=
          Finset.sum_const_nat fun _ _ => rfl
      _ ≤ n * ((∑ b ∈ S, f b) / n) :=
          Nat.mul_le_mul_right _ ((Finset.card_filter_le _ _).trans hcard)
      _ ≤ ∑ a ∈ S, f a := Nat.mul_div_le _ _
  omega

/-- `r` percent of the truncated average of `total` among `n`. -/
def cutOff (r total n : ℕ) : ℕ := total / n * r / 100

/-- Nobody with `r` percent of the exact average is below the cut-off. -/
theorem cutOff_le {r total n p : ℕ} (hn : 0 < n) (h : r * total ≤ p * n * 100) :
    cutOff r total n ≤ p := by
  have hshare : n * (total / n * r) ≤ n * (p * 100) :=
    calc n * (total / n * r) = n * (total / n) * r := (Nat.mul_assoc ..).symm
      _ ≤ total * r := Nat.mul_le_mul_right r (Nat.mul_div_le total n)
      _ = r * total := Nat.mul_comm ..
      _ ≤ p * n * 100 := h
      _ = n * (p * 100) := by rw [Nat.mul_comm p n, Nat.mul_assoc]
  exact Nat.div_le_of_le_mul (by
    rw [Nat.mul_comm 100]
    exact Nat.le_of_mul_le_mul_left hshare hn)

/-- Nor is the cut-off above the average. -/
theorem cutOff_le_average {r : ℕ} (hr : r ≤ 100) (total n : ℕ) : cutOff r total n ≤ total / n := by
  refine Nat.div_le_of_le_mul ?_
  rw [Nat.mul_comm]
  exact Nat.mul_le_mul_right _ hr

end Infra.Tally
