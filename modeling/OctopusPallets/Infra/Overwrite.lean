import Mathlib.Algebra.BigOperators.Group.Finset.Basic
import Mathlib.Algebra.GroupWithZero.Nat
import Mathlib.Algebra.Order.BigOperators.Group.Finset
import Mathlib.Data.List.AList

/-!
# Entries that overwrite each other

A list of entries is written into a finite map, one after the other: of two entries with one key the
later one stays. With weights as values, what is lost on the way is the sum of the `overwritten`
ones.

* `insertAll_lookup` — a key holds what was entered last
* `sum_held`, `sum_insertAll` — the weights that are held, and those that were overwritten
* `map_held_iff` — when every entry reads back as it was entered
-/

namespace Infra.Overwrite

open scoped BigOperators

variable {α β : Type*} [DecidableEq α]

/-- Write the entries, one after the other. -/
def insertAll (l : List (α × β)) (m : AList fun _ : α => β) : AList fun _ : α => β :=
  l.foldl (fun m p => m.insert p.1 p.2) m

/-- The value that is entered last under a key. -/
def last (a : α) : List (α × β) → Option β
  | [] => none
  | p :: l => (last a l).or (if p.1 = a then some p.2 else none)

/-- **A key holds what was entered last, or what it held before.** -/
theorem insertAll_lookup (a : α) : ∀ (l : List (α × β)) (m : AList fun _ : α => β),
    (insertAll l m).lookup a = (last a l).or (m.lookup a)
  | [], m => (Option.none_or).symm
  | p :: l, m => by
    have hstep : insertAll (p :: l) m = insertAll l (m.insert p.1 p.2) := rfl
    rw [hstep, insertAll_lookup a l, last, Option.or_assoc]
    by_cases h : p.1 = a
    · rw [if_pos h, ← h, AList.lookup_insert, Option.some_or]
    · rw [if_neg h, AList.lookup_insert_ne (Ne.symm h), Option.none_or]

theorem last_eq_none {a : α} : ∀ {l : List (α × β)}, last a l = none ↔ a ∉ l.map Prod.fst
  | [] => by simp [last]
  | p :: l => by
    rw [last, Option.or_eq_none_iff, last_eq_none, List.map_cons, List.mem_cons, not_or]
    by_cases h : p.1 = a
    · simp [h]
    · simp [h, Ne.symm h]

theorem mem_insertAll {a : α} {l : List (α × β)} {m : AList fun _ : α => β} :
    a ∈ insertAll l m ↔ a ∈ l.map Prod.fst ∨ a ∈ m := by
  rw [← AList.lookup_isSome, insertAll_lookup, Option.isSome_or, Bool.or_eq_true,
    AList.lookup_isSome, Option.isSome_iff_ne_none, Ne, last_eq_none, not_not]

/-! ## Weights -/

/-- The weight that a key ends with. -/
def held (l : List (α × ℕ)) (a : α) : ℕ := (last a l).getD 0

/-- The weights that a later entry replaces. -/
def overwritten : List (α × ℕ) → List ℕ
  | [] => []
  | p :: l => if p.1 ∈ l.map Prod.fst then p.2 :: overwritten l else overwritten l

theorem held_cons_of_mem {p : α × ℕ} {l : List (α × ℕ)} {a : α} (h : a ∈ l.map Prod.fst) :
    held (p :: l) a = held l a := by
  have hsome : last a l ≠ none := fun hnone => last_eq_none.mp hnone h
  unfold held
  rw [last]
  cases hlast : last a l with
  | none => exact absurd hlast hsome
  | some w => rfl

theorem held_cons_self {p : α × ℕ} {l : List (α × ℕ)} (h : p.1 ∉ l.map Prod.fst) :
    held (p :: l) p.1 = p.2 := by
  unfold held
  rw [last, last_eq_none.mpr h, if_pos rfl]
  rfl

theorem held_cons_of_ne {p : α × ℕ} {l : List (α × ℕ)} {a : α} (h : p.1 ≠ a) :
    held (p :: l) a = held l a := by
  unfold held
  rw [last, if_neg h, Option.or_none]

/-- A key that is not entered holds nothing. -/
theorem held_eq_zero {l : List (α × ℕ)} {a : α} (h : a ∉ l.map Prod.fst) : held l a = 0 := by
  unfold held
  rw [last_eq_none.mpr h]
  rfl

/-- **What the keys hold and what was overwritten is all that was entered.** -/
theorem sum_held : ∀ {l : List (α × ℕ)} {S : Finset α}, (∀ p ∈ l, p.1 ∈ S) →
    (∑ a ∈ S, held l a) + (overwritten l).sum = (l.map Prod.snd).sum
  | [], S, _ => by simp [held, last, overwritten]
  | p :: l, S, h => by
    have ih := sum_held fun q hq => h q (List.mem_cons_of_mem p hq)
    rw [overwritten, List.map_cons, List.sum_cons]
    by_cases hmem : p.1 ∈ l.map Prod.fst
    · have hsame : ∑ a ∈ S, held (p :: l) a = ∑ a ∈ S, held l a := by
        refine Finset.sum_congr rfl fun a _ => ?_
        by_cases ha : p.1 = a
        · exact held_cons_of_mem (ha ▸ hmem)
        · exact held_cons_of_ne ha
      rw [if_pos hmem, hsame, List.sum_cons]
      omega
    · -- the key is new: it held nothing
      have hrest : ∑ a ∈ S.erase p.1, held (p :: l) a = ∑ a ∈ S.erase p.1, held l a :=
        Finset.sum_congr rfl fun a ha => held_cons_of_ne (Finset.ne_of_mem_erase ha).symm
      have hself := h p (.head l)
      rw [if_neg hmem, ← Finset.add_sum_erase S _ hself, hrest, held_cons_self hmem]
      rw [← Finset.add_sum_erase S _ hself, held_eq_zero hmem] at ih
      omega

/-- No set of keys holds more than was entered. -/
theorem sum_held_le (l : List (α × ℕ)) (S : Finset α) :
    ∑ a ∈ S, held l a ≤ (l.map Prod.snd).sum := by
  have hall := sum_held (l := l) (S := S ∪ (l.map Prod.fst).toFinset) fun p hp =>
    Finset.mem_union_right _ (List.mem_toFinset.mpr (List.mem_map_of_mem hp))
  have hsub : S ⊆ S ∪ (l.map Prod.fst).toFinset := Finset.subset_union_left
  have hle := Finset.sum_le_sum_of_subset (f := held l) hsub
  omega

/-! ## The entries of the map -/

/-- The values of a finite map, summed over its keys. -/
theorem sum_entries (m : AList fun _ : α => ℕ) :
    (m.entries.map Sigma.snd).sum = ∑ a ∈ m.keys.toFinset, (m.lookup a).getD 0 := by
  rw [List.sum_toFinset _ m.keys_nodup]
  unfold AList.keys List.keys
  rw [List.map_map]
  refine congrArg List.sum (List.map_congr_left fun x hx => ?_)
  have hlookup : m.lookup x.1 = some x.2 := AList.mem_lookup_iff.mpr hx
  rw [Function.comp_apply, hlookup, Option.getD_some]

theorem insertAll_keys (l : List (α × β)) :
    (insertAll l ∅).keys.toFinset = (l.map Prod.fst).toFinset := by
  ext a
  rw [List.mem_toFinset, List.mem_toFinset, ← AList.mem_keys, ← AList.lookup_isSome,
    insertAll_lookup, AList.lookup_empty, Option.or_none, Option.isSome_iff_ne_none, Ne,
    last_eq_none, not_not]

theorem insertAll_held (l : List (α × ℕ)) (a : α) :
    ((insertAll l ∅).lookup a).getD 0 = held l a := by
  rw [insertAll_lookup, AList.lookup_empty, Option.or_none]
  rfl

/-- **The map sums to what was entered, less what was overwritten.** -/
theorem sum_insertAll (l : List (α × ℕ)) :
    (((insertAll l ∅).entries.map Sigma.snd).sum) + (overwritten l).sum = (l.map Prod.snd).sum := by
  rw [sum_entries, insertAll_keys]
  simp only [insertAll_held]
  exact sum_held fun p hp => List.mem_toFinset.mpr (List.mem_map_of_mem hp)

/-! ## Keys that are entered twice -/

theorem held_eq_iff : ∀ {l : List (α × ℕ)},
    (∀ p ∈ l, held l p.1 = p.2) ↔ l.Pairwise fun p q => p.1 = q.1 → p.2 = q.2
  | [] => by simp
  | p :: l => by
    have hrest : ∀ q ∈ l, held (p :: l) q.1 = held l q.1 := fun q hq =>
      held_cons_of_mem (List.mem_map_of_mem hq)
    rw [List.pairwise_cons, ← held_eq_iff, List.forall_mem_cons]
    constructor
    · rintro ⟨hself, hl⟩
      have hl' : ∀ q ∈ l, held l q.1 = q.2 := fun q hq => (hrest q hq).symm.trans (hl q hq)
      refine ⟨fun q hq heq => ?_, hl'⟩
      rw [← hself, heq, hrest q hq, hl' q hq]
    · rintro ⟨hself, hl⟩
      refine ⟨?_, fun q hq => (hrest q hq).trans (hl q hq)⟩
      by_cases hmem : p.1 ∈ l.map Prod.fst
      · obtain ⟨q, hq, heq⟩ := List.mem_map.mp hmem
        rw [← heq, hrest q hq, hl q hq, hself q hq heq.symm]
      · exact held_cons_self hmem

/-- **Every entry reads back as it was entered exactly when those of one key agree.** -/
theorem map_held_iff {l : List (α × ℕ)} :
    l.map (fun p => (p.1, held l p.1)) = l ↔ l.Pairwise fun p q => p.1 = q.1 → p.2 = q.2 := by
  have hid : l.map (fun p => (p.1, held l p.1)) = l ↔
      l.map (fun p => (p.1, held l p.1)) = l.map id := by
    rw [List.map_id]
  rw [hid, List.map_inj_left, ← held_eq_iff]
  exact forall₂_congr fun p _ => by simp [Prod.ext_iff]

theorem overwritten_sum_eq_zero : ∀ {l : List (α × ℕ)},
    (overwritten l).sum = 0 ↔ l.Pairwise fun p q => p.1 = q.1 → p.2 = 0
  | [] => by simp [overwritten]
  | p :: l => by
    rw [overwritten, List.pairwise_cons, ← overwritten_sum_eq_zero]
    by_cases hmem : p.1 ∈ l.map Prod.fst
    · obtain ⟨q, hq, heq⟩ := List.mem_map.mp hmem
      rw [if_pos hmem, List.sum_cons, Nat.add_eq_zero_iff]
      exact and_congr_left fun _ => ⟨fun h _ _ _ => h, fun h => h q hq heq.symm⟩
    · rw [if_neg hmem]
      refine (and_iff_right fun q hq heq => ?_).symm
      exact absurd (heq ▸ List.mem_map_of_mem hq) hmem

/-- Nothing is lost and nothing reads back otherwise: a key that is entered twice has no weight. -/
theorem lossless_iff {l : List (α × ℕ)} :
    (overwritten l).sum = 0 ∧ l.map (fun p => (p.1, held l p.1)) = l ↔
      l.Pairwise fun p q => p.1 = q.1 → p.2 = 0 ∧ q.2 = 0 := by
  rw [overwritten_sum_eq_zero, map_held_iff, ← List.pairwise_and_iff]
  refine List.Pairwise.iff fun p q => ⟨?_, ?_⟩
  · rintro ⟨hzero, hsame⟩ heq
    exact ⟨hzero heq, (hsame heq).symm.trans (hzero heq)⟩
  · intro h
    exact ⟨fun heq => (h heq).1, fun heq => (h heq).1.trans (h heq).2.symm⟩

theorem overwritten_of_nodup : ∀ {l : List (α × ℕ)}, (l.map Prod.fst).Nodup → overwritten l = []
  | [], _ => rfl
  | p :: l, h => by
    rw [List.map_cons, List.nodup_cons] at h
    rw [overwritten, if_neg h.1, overwritten_of_nodup h.2]

theorem last_filter {S : Finset α} {a : α} (ha : a ∈ S) : ∀ l : List (α × β),
    last a (l.filter fun p => p.1 ∈ S) = last a l
  | [] => rfl
  | p :: l => by
    rw [List.filter_cons, last, ← last_filter ha l]
    by_cases hp : p.1 ∈ S
    · rw [if_pos (decide_eq_true hp), last]
    · have hne : p.1 ≠ a := fun h => hp (h ▸ ha)
      rw [if_neg (by simpa using hp), if_neg hne, Option.or_none]

/-- Without repetitions a set of keys holds the entries under them. -/
theorem sum_held_of_nodup {l : List (α × ℕ)} (h : (l.map Prod.fst).Nodup) (S : Finset α) :
    ∑ a ∈ S, held l a = ((l.filter fun p => p.1 ∈ S).map Prod.snd).sum := by
  have hnodup : ((l.filter fun p => p.1 ∈ S).map Prod.fst).Nodup :=
    h.sublist (List.filter_sublist.map _)
  have hsum := sum_held (l := l.filter fun p => p.1 ∈ S) (S := S) fun p hp => by
    simpa using (List.mem_filter.mp hp).2
  rw [overwritten_of_nodup hnodup, List.sum_nil, Nat.add_zero] at hsum
  rw [← hsum]
  refine Finset.sum_congr rfl fun a ha => ?_
  unfold held
  rw [last_filter ha]

end Infra.Overwrite
