import OctopusPallets.Infra.Machine
import OctopusPallets.Infra.Tally
import OctopusPallets.Lpos.EraSchedule
import OctopusPallets.Lpos.Payout

/-!
# Who is excluded at the end of an era

`reward_by_ids` keeps the points of each validator and their total, and at the end of the era the
stakers below four fifths of the average are excluded from the payout. The average and the share of it
are truncated, and the points are those of block authors, who need not be stakers.

* `rewardByIds_run` — both numbers of the table are what was awarded
* `excludeOf_eq` — the excluded stakers are those below the cut-off
-/

namespace OctopusPallets.Lpos

open Infra Infra.Dispatch Infra.FixedWidth Infra.Tally

variable {AccountId : Type} {T : Config AccountId} [DecidableEq AccountId]

/-! ## The table of points -/

/-- The points of some awards. -/
def awarded (validatorsPoints : List (AccountId × Nat)) : Nat :=
  (validatorsPoints.map Prod.snd).sum

omit [DecidableEq AccountId] in
theorem awarded_append (ps qs : List (AccountId × Nat)) :
    awarded (ps ++ qs) = awarded ps + awarded qs := by
  simp [awarded]

/-- The total and the individual points both add up to `n`. -/
structure EraRewardPoints.Tallied (points : EraRewardPoints AccountId) (n : Nat) : Prop where
  total : points.total = n
  individual : (points.individual.entries.map Sigma.snd).sum = n

omit [DecidableEq AccountId] in
theorem tallied_default : (default : EraRewardPoints AccountId).Tallied 0 := ⟨rfl, rfl⟩

theorem rewardOne_tallied (build : Build) {points : EraRewardPoints AccountId} {n : Nat}
    (h : points.Tallied n) (p : AccountId × Nat) (hfits : n + p.2 < 2 ^ 32) :
    ∃ points', rewardOne build points p = some points' ∧ points'.Tallied (n + p.2) := by
  have hle := lookup_le_sum_entries points.individual p.1
  rw [h.individual] at hle
  have hpoints := build.add_of_lt (w := 32) (a := (points.individual.lookup p.1).getD 0) (b := p.2)
    (by omega)
  have htotal := build.add_of_lt (w := 32) (a := points.total) (b := p.2) (by rw [h.total]; exact hfits)
  refine ⟨⟨points.total + p.2,
    points.individual.insert p.1 ((points.individual.lookup p.1).getD 0 + p.2)⟩, ?_, ?_, ?_⟩
  · unfold rewardOne
    rw [hpoints, htotal]
    rfl
  · rw [h.total]
  · have hsum := sum_entries_insert points.individual p.1
      ((points.individual.lookup p.1).getD 0 + p.2)
    rw [h.individual] at hsum
    show ((points.individual.insert p.1 _).entries.map Sigma.snd).sum = _
    omega

/-- The fold of one call. -/
theorem foldlM_rewardOne_tallied (build : Build) {ps : List (AccountId × Nat)}
    {points : EraRewardPoints AccountId} {n : Nat} (h : points.Tallied n)
    (hfits : n + awarded ps < 2 ^ 32) :
    ∃ points', ps.foldlM (rewardOne build) points = some points' ∧
      points'.Tallied (n + awarded ps) := by
  induction ps generalizing points n with
  | nil => exact ⟨points, rfl, h⟩
  | cons p ps ih =>
    have hcons : awarded (p :: ps) = p.2 + awarded ps := by simp [awarded]
    rw [hcons, ← Nat.add_assoc] at hfits ⊢
    obtain ⟨points', hone, htallied⟩ := rewardOne_tallied build h p (by omega)
    obtain ⟨points'', hrest, htallied⟩ := ih htallied hfits
    refine ⟨points'', ?_, htallied⟩
    rw [List.foldlM_cons, hone]
    exact hrest

/-- `reward_by_ids`, called once after another. -/
def rewardMachine (T : Config AccountId) :
    Machine (State T) (List (AccountId × Nat)) (Except Fault Unit) where
  step ps s := ((rewardByIds ps s).2, [(rewardByIds ps s).1])

theorem rewardByIds_tallied {s : State T} {activeEra : ActiveEraInfo}
    (hactive : s.activeEra = some activeEra) {n : Nat}
    (h : (s.erasRewardPoints activeEra.index).Tallied n) (ps : List (AccountId × Nat))
    (hfits : n + awarded ps < 2 ^ 32) :
    ∃ s', rewardByIds ps s = (.ok (), s') ∧ s'.activeEra = some activeEra ∧
      (s'.erasRewardPoints activeEra.index).Tallied (n + awarded ps) := by
  obtain ⟨points, hfold, htallied⟩ := foldlM_rewardOne_tallied T.build h hfits
  refine ⟨{ s with erasRewardPoints :=
    Function.update s.erasRewardPoints activeEra.index points }, ?_, hactive, ?_⟩
  · simp [rewardByIds, bind_apply, hactive, hfold]
  · show (Function.update s.erasRewardPoints activeEra.index points activeEra.index).Tallied _
    rw [Function.update_self]
    exact htallied

/-- The run lemma: the table of the active era holds what was awarded. -/
theorem rewardByIds_run {s : State T} {activeEra : ActiveEraInfo}
    (hactive : s.activeEra = some activeEra) {n : Nat}
    (h : (s.erasRewardPoints activeEra.index).Tallied n) {calls : List (List (AccountId × Nat))}
    (hfits : n + awarded calls.flatten < 2 ^ 32) :
    (((rewardMachine T).run calls s).erasRewardPoints activeEra.index).Tallied
      (n + awarded calls.flatten) := by
  induction calls generalizing s n with
  | nil => exact h
  | cons ps calls ih =>
    rw [List.flatten_cons, awarded_append, ← Nat.add_assoc] at hfits ⊢
    obtain ⟨s', hone, hactive', htallied⟩ := rewardByIds_tallied hactive h ps (by omega)
    have hstep : ((rewardMachine T).step ps s).1 = s' := congrArg Prod.snd hone
    rw [Machine.run, hstep]
    exact ih hactive' htallied hfits

/-! ## The cut-off -/

omit [DecidableEq AccountId] in
theorem thresholdOf_of_fits (build : Build) {total n : Nat} (hn : 0 < n) (hlt : n < 2 ^ 32)
    (hfits : 80 * total < 2 ^ 32) : thresholdOf build total n = .ok (cutOff 80 total n) := by
  have hmod : n % 2 ^ 32 = n := Nat.mod_eq_of_lt hlt
  have hshare : total / n * 80 < 2 ^ 32 := by
    have hle := Nat.div_le_self total n
    omega
  unfold thresholdOf
  rw [hmod, if_neg (by omega), build.mul_of_lt hshare]
  rfl

/-- **The excluded stakers are those that have no points or less than the cut-off.** -/
theorem excludeOf_eq (build : Build) {validators : List AccountId}
    (points : EraRewardPoints AccountId) (hn : 0 < validators.length)
    (hlt : validators.length < 2 ^ 32) (hfits : 80 * points.total < 2 ^ 32) :
    ∃ excluded, excludeOf build validators points = .ok excluded ∧ excluded.Sublist validators ∧
      ∀ v, v ∈ excluded ↔ v ∈ validators ∧ ∀ p, points.individual.lookup v = some p →
        p < cutOff 80 points.total validators.length := by
  unfold excludeOf
  cases hentries : points.individual.entries with
  | nil =>
    refine ⟨validators, rfl, List.Sublist.refl _, fun v => ?_⟩
    have hnone : points.individual.lookup v = none := by
      simp [AList.lookup, hentries]
    simp [hnone]
  | cons entry entries =>
    rw [← hentries, thresholdOf_of_fits build hn hlt hfits]
    have hne : points.individual.entries.isEmpty = false := by simp [hentries]
    rw [hne]
    refine ⟨_, rfl, List.filter_sublist, fun v => ?_⟩
    rw [List.mem_filter]
    refine and_congr_right fun _ => ?_
    simp only [Bool.not_eq_true', List.contains_eq_mem, decide_eq_false_iff_not, List.mem_map,
      List.mem_filter, decide_eq_true_eq, not_exists, not_and, and_imp, Sigma.forall]
    constructor
    · intro h p hp
      rw [← Nat.not_le]
      exact fun hle => h v p (AList.mem_lookup_iff.mp hp) hle rfl
    · rintro h w p hp hle rfl
      exact absurd (h p (AList.mem_lookup_iff.mpr hp)) (Nat.not_lt.mpr hle)

/--
**Exclusion is fair.**

Take a table that calls of `reward_by_ids` have made of an empty one, with less than `2 ^ 32 / 80`
points in all, and an era with this table and at least one staker. (The stakers fit in a `Vec`, whose
length is a `u32` in the runtime.) The total of the table is the sum of its points, and the excluded
validators are stakers: all that have no entry, none with four fifths of the exact average, and not
every one of them, if there are points and only stakers have any.
-/
theorem fair_exclusion {s₀ : State T} {activeEra : ActiveEraInfo}
    (hactive : s₀.activeEra = some activeEra)
    (hfresh : s₀.erasRewardPoints activeEra.index = default)
    (calls : List (List (AccountId × Nat))) (hawarded : 80 * awarded calls.flatten < 2 ^ 32)
    (s : State T) (index : Nat) (htable : s.erasRewardPoints index
      = ((rewardMachine T).run calls s₀).erasRewardPoints activeEra.index)
    (hstakers : (s.erasStakers index).keys ≠ [])
    (hlen : (s.erasStakers index).keys.length < 2 ^ 32) :
    let validators := (s.erasStakers index).keys
    let points := s.erasRewardPoints index
    points.total = (points.individual.entries.map Sigma.snd).sum ∧
    ∃ excluded, getExcludeValidators index s = (.ok excluded, s) ∧ excluded.Sublist validators ∧
      (∀ v ∈ validators, points.individual.lookup v = none → v ∈ excluded) ∧
      (∀ v p, points.individual.lookup v = some p →
        80 * points.total ≤ p * validators.length * 100 → v ∉ excluded) ∧
      (0 < points.total →
        (∀ v p, points.individual.lookup v = some p → 0 < p → v ∈ validators) →
          ∃ v ∈ validators, v ∉ excluded) := by
  intro validators points
  have hn : 0 < validators.length := List.length_pos_iff.mpr hstakers
  have htallied : points.Tallied (0 + awarded calls.flatten) := by
    show (s.erasRewardPoints index).Tallied _
    rw [htable]
    exact rewardByIds_run hactive (hfresh ▸ tallied_default) (by omega)
  have htotal : points.total = (points.individual.entries.map Sigma.snd).sum :=
    htallied.total.trans htallied.individual.symm
  obtain ⟨excluded, hexcluded, hsub, hmem⟩ := excludeOf_eq T.build points hn hlen
    (by rw [htallied.total]; omega)
  refine ⟨htotal, excluded, ?_, hsub, ?_, ?_, ?_⟩
  · rw [getExcludeValidators_apply, hexcluded]
  · intro v hv hnone
    rw [hmem]
    exact ⟨hv, fun p hp => by rw [hnone] at hp; cases hp⟩
  · intro v p hp hshare hv
    exact Nat.not_lt.mpr (cutOff_le hn hshare) (((hmem v).mp hv).2 p hp)
  · intro hpos honly
    -- the points of the stakers are all points, so one of the stakers has the average
    have hsum : points.total = ∑ v ∈ validators.toFinset, (points.individual.lookup v).getD 0 := by
      rw [htotal]
      exact sum_entries_of_subset points.individual fun v p hp hp0 =>
        List.mem_toFinset.mpr (honly v p hp hp0)
    obtain ⟨v, hv, hvpos, haverage⟩ := exists_average_le (List.toFinset_card_le validators)
      (f := fun v => (points.individual.lookup v).getD 0) (hsum ▸ hpos)
    refine ⟨v, List.mem_toFinset.mp hv, fun hex => ?_⟩
    cases hlookup : points.individual.lookup v with
    | none => simp [hlookup] at hvpos
    | some p =>
      have hbelow := ((hmem v).mp hex).2 p hlookup
      have hcut := cutOff_le_average (show 80 ≤ 100 by decide) points.total validators.length
      rw [← hsum, hlookup, Option.getD_some] at haverage
      omega

namespace Sample

/-- Two validators in era 0. -/
def firstEra : State config where
  toStorage := { genesisBuild 84 5 with
    activeEra := some ⟨0, 0, none⟩
    erasStakers := fun _ => insertStakers [(1, 10), (2, 20)] ∅ }
  balances := Nat.zero
  messages := Nat.zero
  historical := Nat.zero

/-- Seven points for validator 1, and one for validator 2. -/
def awards : List (List (Nat × Nat)) := [[(1, 5), (2, 1)], [(1, 2)]]

end Sample

/-- Validator 1 is not excluded. -/
theorem fair_exclusion_of_two :
    let s := (rewardMachine Sample.config).run Sample.awards Sample.firstEra
    ∃ excluded, getExcludeValidators 0 s = (.ok excluded, s) ∧ 1 ∉ excluded ∧
      ∃ v ∈ (s.erasStakers 0).keys, v ∉ excluded := by
  intro s
  obtain ⟨-, excluded, hexcluded, -, -, hshare, hsome⟩ :=
    fair_exclusion (show Sample.firstEra.activeEra = some ⟨0, 0, none⟩ from rfl) rfl Sample.awards
      (by decide) s 0 rfl (by decide) (by decide)
  refine ⟨excluded, hexcluded, hshare 1 7 (by decide) (by decide), hsome (by decide) ?_⟩
  intro v p hlookup _
  have hkey := mem_keys_of_lookup hlookup
  have hkeys : (s.erasRewardPoints 0).individual.keys.toFinset = (s.erasStakers 0).keys.toFinset := by
    decide
  rwa [hkeys, List.mem_toFinset] at hkey

end OctopusPallets.Lpos
