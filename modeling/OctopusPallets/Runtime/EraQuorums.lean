import OctopusPallets.Appchain.VoteBook
import OctopusPallets.Lpos.EraStakers
import OctopusPallets.Runtime.AnchorEras

/-!
# Votes against the stakes of an era

The two-thirds test adds up the stakes of the voters in the active era and compares them with the
total of the era. Here the stakes are traced back to the list the era was planned with.

* `entered_run` — over every run, an era holds what was planned for it, or it is cleared
* `quorums_intersect` — two lists that pass share more than a third of the stake
* `two_thirds_exact_iff` — when the test decides as exact arithmetic does
-/

namespace OctopusPallets.Runtime

open Infra Infra.Dispatch Infra.FixedWidth Infra.Overwrite
open scoped BigOperators

variable {AccountId : Type} [DecidableEq AccountId] {R : Config AccountId}

/-! ## The eras of a run -/

/-- The runtime, seen through the eras it plans. -/
def eraMachine (R : Config AccountId) : Machine (State R) (Step R) (Lpos.Plan AccountId) :=
  (machine R).observing fun s i s' => (i.chainCall s).plans s.chain s'.chain

/-- The eras planned by the genesis and by the steps. -/
def Genesis.eras (g : Genesis R) (s₀ : State R) (steps : List (Step R)) :
    List (Lpos.Plan AccountId) :=
  g.lpos.plans s₀.chain ++ (eraMachine R).log steps s₀

theorem Genesis.eras_append (g : Genesis R) (s₀ : State R) (steps later : List (Step R)) :
    g.eras s₀ (steps ++ later)
      = g.eras s₀ steps ++ (eraMachine R).log later ((eraMachine R).run steps s₀) := by
  unfold Genesis.eras
  rw [Machine.log_append, List.append_assoc]

/-- **Over every run, an era holds what was planned for it, or it is cleared.** -/
theorem entered_run (g : Genesis R) {s₀ : State R} (hstart : g.start = some s₀)
    (steps : List (Step R)) (hsteps : (machine R).Along (fun s i => i.SessionInRange s) steps s₀) :
    Lpos.Entered ((machine R).run steps s₀).chain (g.eras s₀ steps) := by
  obtain ⟨⟨c₀, os₀⟩, hchain, rfl⟩ := Option.map_eq_some_iff.mp hstart
  have h : Lpos.Entered ((eraMachine R).run steps (g.state.withChain c₀)).chain
      (g.eras (g.state.withChain c₀) steps) := by
    refine (eraMachine R).invariant
      (I := fun _ s plans => Lpos.Entered s.chain (g.lpos.plans c₀ ++ plans)) ?_ ?_ steps
      ((Machine.observing_along ..).mpr hsteps)
    · rw [List.append_nil]
      exact g.lpos.entered hchain
    · intro _ s plans i hs hi
      have hstep := hs.step (Step.chainCall_inRange hi)
      rw [← s.step_chain i, List.append_assoc] at hstep
      exact hstep
  rwa [eraMachine, Machine.observing_run] at h

/-- The plan of the active era, which has not changed since. -/
theorem Genesis.mem_eras_of_append (g : Genesis R) {s₀ : State R} {steps later : List (Step R)}
    (h : Lpos.Entered ((machine R).run steps s₀).chain (g.eras s₀ steps))
    (h' : Lpos.Entered ((machine R).run (steps ++ later) s₀).chain (g.eras s₀ (steps ++ later)))
    {p : Lpos.Plan AccountId} (hp : p ∈ g.eras s₀ (steps ++ later))
    (hactive : ((machine R).run steps s₀).timeline.activeIndex = some p.era) :
    p ∈ g.eras s₀ steps := by
  have hlt : p.era < Lpos.following ((machine R).run steps s₀).timeline.currentEra := by
    have hle := h.timeline.active_le
    rw [show ((machine R).run steps s₀).chain.state.timeline.activeIndex = some p.era from hactive]
      at hle
    exact hle
  have hmem : p.era ∈ (g.eras s₀ steps).map Lpos.Plan.era := by
    rw [h.timeline.eras, List.mem_range]
    exact hlt
  obtain ⟨q, hq, hera⟩ := List.mem_map.mp hmem
  have hq' : q ∈ g.eras s₀ (steps ++ later) := by
    rw [g.eras_append]
    exact List.mem_append_left _ hq
  rwa [h'.timeline.eq_of_era hp hq' hera.symm]

/-! ## The vote book of a run -/

/-- Only votes change the book. -/
theorem wellFormed_step (s : State R) (i : Step R) (h : s.appchain.WellFormed) :
    (s.step i).1.appchain.WellFormed := by
  cases i with
  | vote keyData o =>
    show (s.vote keyData o).1.appchain.WellFormed
    unfold State.vote
    cases s.voteOf keyData o with
    | none => exact h
    | some x => exact Appchain.wellFormed_step (Appchain.voteMachine_step _ x _) h
  | force origin forced =>
    have hsame : (s.step (.force origin forced)).1.appchain.observations = s.appchain.observations ∧
        (s.step (.force origin forced)).1.appchain.observing = s.appchain.observing := by
      cases origin <;> cases forced <;> exact ⟨rfl, rfl⟩
    obtain ⟨h₁, h₂, h₃, h₄⟩ := h
    rw [← hsame.1] at h₁ h₂ h₄
    rw [← hsame.2] at h₃ h₄
    exact ⟨h₁, h₂, h₃, h₄⟩
  | onInitialize now =>
    show (s.onInitialize now).appchain.WellFormed
    obtain ⟨messages, -, hrun⟩ := s.onInitialize_eq now
    rw [hrun]
    exact ⟨h.keyed, h.nodup, h.voters_nodup, h.registered⟩
  | timestamp _ | onFinalize | rotate | noteAuthor _ | reportOffence _ _ _ _ | lpos _ _
  | bridge _ _ | fees _ | keys _ | elsewhere _ _ _ _ =>
    exact ⟨h.keyed, h.nodup, h.voters_nodup, h.registered⟩

theorem wellFormed_run (g : Genesis R) {s₀ : State R} (hstart : g.start = some s₀)
    (steps : List (Step R)) : ((machine R).run steps s₀).appchain.WellFormed := by
  refine (machine R).invariant_state (I := fun s => s.appchain.WellFormed) ?_ wellFormed_step steps
  obtain ⟨c, -, rfl⟩ := Option.map_eq_some_iff.mp hstart
  have hgenesis : (Appchain.genesisBuild R.appchain g.anchorContract g.validators
      g.bridge).WellFormed := Appchain.wellFormed_genesis ..
  exact ⟨hgenesis.keyed, hgenesis.nodup, hgenesis.voters_nodup, hgenesis.registered⟩

/-! ## The test -/

/-- The two-thirds test, for a list of voters. -/
def State.TwoThirds (s : State R) (voters : List AccountId) : Prop :=
  ∃ T, s.stakes.activeTotalStake = some T ∧
    Appchain.twoThirds (Appchain.stakeOf s.stakes voters) T = true

/-- What `submit_observation` puts to the test for `o`: the stored list of voters, or the list with
the vote that is being submitted. -/
def State.Counts (s : State R) (o : Appchain.Observation AccountId) (voters : List AccountId) :
    Prop :=
  voters = (s.appchain.observing o).val ∨ ∃ v, voters = s.appchain.votersWith v o

theorem State.Counts.nodup {s : State R} {o : Appchain.Observation AccountId}
    {voters : List AccountId} (h : s.Counts o voters) (hs : s.appchain.WellFormed) :
    voters.Nodup := by
  rcases h with rfl | ⟨v, rfl⟩
  · exact hs.voters_nodup o
  · exact (hs.votersWith v o).1

/-- What an account holds of the stake that an era is planned with. -/
def electorate (p : Lpos.Plan AccountId) : Electorate AccountId where
  weight := held p.validators
  total := p.weights
  sum_le := sum_held_le p.validators

section Active

variable {s : State R} {p : Lpos.Plan AccountId}

/-- The stakes of the active era are read. -/
theorem State.stakes_eq (hactive : s.timeline.activeIndex = some p.era) :
    s.stakes.activeStakeOf = s.lpos.stakeIn p.era ∧
      s.stakes.activeTotalStake = some (s.lpos.erasTotalStake p.era) := by
  have hindex : s.lpos.activeEra.map Lpos.ActiveEraInfo.index = some p.era :=
    s.lposState.timeline_activeIndex.symm.trans hactive
  obtain ⟨activeEra, hsome, hera⟩ := Option.map_eq_some_iff.mp hindex
  refine ⟨funext fun who => ?_, ?_⟩
  · show (s.lpos.activeEra.map fun activeEra => s.lpos.stakeIn activeEra.index who).getD 0 = _
    rw [hsome, ← hera]
    rfl
  · show s.lpos.activeEra.map (fun activeEra => s.lpos.erasTotalStake activeEra.index) = _
    rw [hsome, ← hera]
    rfl

theorem State.stakeIn_of_holds (hholds : s.timeline.Holds p) (who : AccountId) :
    s.lpos.stakeIn p.era who = held p.validators who :=
  Lpos.Storage.stakeIn_of_stakers hholds.1 who

theorem State.twoThirds_iff (hactive : s.timeline.activeIndex = some p.era)
    (voters : List AccountId) : s.TwoThirds voters ↔
      Appchain.twoThirds (wrappingSum 128 (voters.map (s.lpos.stakeIn p.era)))
        (s.lpos.erasTotalStake p.era) = true := by
  obtain ⟨hstake, htotal⟩ := State.stakes_eq hactive
  unfold State.TwoThirds Appchain.stakeOf
  rw [hstake, htotal]
  constructor
  · rintro ⟨T, hT, h⟩
    rwa [Option.some.inj hT]
  · exact fun h => ⟨_, rfl, h⟩

/-- Nobody passes the test in an era that was cleared. -/
theorem State.not_twoThirds_of_cleared (hactive : s.timeline.activeIndex = some p.era)
    (hcleared : s.timeline.Cleared p.era) (voters : List AccountId) : ¬ s.TwoThirds voters := by
  have htotal : s.lpos.erasTotalStake p.era = 0 := hcleared.2
  have hzero : voters.map (s.lpos.stakeIn p.era) = voters.map fun _ => 0 :=
    List.map_congr_left fun v _ => Lpos.Storage.stakeIn_of_empty hcleared.1 v
  rw [State.twoThirds_iff hactive, htotal, hzero, wrappingSum_eq]
  simp [Appchain.twoThirds, wrappingMul]

/-- The stakes of an era that holds its plan back the votes. -/
theorem State.backs (hactive : s.timeline.activeIndex = some p.era) (hholds : s.timeline.Holds p)
    (hweights : p.weights < 2 ^ 128) : Appchain.Backs (electorate p) s.stakes := by
  obtain ⟨hstake, htotal⟩ := State.stakes_eq hactive
  refine ⟨hstake.trans (funext (State.stakeIn_of_holds hholds)), htotal.trans (congrArg some ?_)⟩
  exact Eq.trans (b := Lpos.saturatingTotal p.validators) hholds.2
    (Lpos.saturatingTotal_of_lt hweights)

end Active

/-! ## Two lists that pass -/

/-- **Quorum intersection.** In one era, two lists of voters that pass the test, at the same time or
one after the other, share accounts with more than a third of the stake. -/
theorem quorums_intersect (g : Genesis R) {s₀ : State R} (hstart : g.start = some s₀)
    (steps later : List (Step R))
    (hsteps : (machine R).Along (fun s i => i.SessionInRange s) (steps ++ later) s₀)
    {p : Lpos.Plan AccountId} (hp : p ∈ g.eras s₀ (steps ++ later))
    (hweights : p.weights ≤ (2 ^ 128 - 1) / 3) (o o' : Appchain.Observation AccountId)
    {voters voters' : List AccountId}
    (hactive : ((machine R).run steps s₀).timeline.activeIndex = some p.era)
    (hactive' : ((machine R).run (steps ++ later) s₀).timeline.activeIndex = some p.era)
    (hcounts : ((machine R).run steps s₀).Counts o voters)
    (hcounts' : ((machine R).run (steps ++ later) s₀).Counts o' voters')
    (hpasses : ((machine R).run steps s₀).TwoThirds voters)
    (hpasses' : ((machine R).run (steps ++ later) s₀).TwoThirds voters') :
    ((machine R).run (steps ++ later) s₀).lpos.erasTotalStake p.era
      < 3 * ∑ v ∈ voters.toFinset ∩ voters'.toFinset,
        ((machine R).run (steps ++ later) s₀).lpos.stakeIn p.era v := by
  have hentered := entered_run g hstart steps ((Machine.along_append _ steps later s₀).mp hsteps).1
  have hentered' := entered_run g hstart (steps ++ later) hsteps
  have hp₀ := g.mem_eras_of_append hentered hentered' hp hactive
  have hfit : 3 * (electorate p).total < 2 ^ 128 := by
    show 3 * p.weights < 2 ^ 128
    omega
  -- an era in which somebody passes is not cleared
  have hquorum : ∀ {s : State R} {plans o voters}, Lpos.Entered s.chain plans → p ∈ plans →
      s.appchain.WellFormed → s.timeline.activeIndex = some p.era → s.Counts o voters →
      s.TwoThirds voters → s.timeline.Holds p ∧ (electorate p).Quorum voters.toFinset := by
    intro s plans o voters hentered hp hs hactive hcounts hpasses
    rcases hentered.timeline.plan_stakes hp with hcleared | hholds
    · exact absurd hpasses (State.not_twoThirds_of_cleared hactive hcleared voters)
    · have hbacks := State.backs hactive hholds (show p.weights < 2 ^ 128 by omega)
      refine ⟨hholds, (hbacks.twoThirds_iff hfit (hcounts.nodup hs)).mp ?_⟩
      obtain ⟨T, hT, h⟩ := hpasses
      rw [hbacks.activeTotalStake, Option.some.injEq] at hT
      rwa [hT]
  obtain ⟨-, hq⟩ := hquorum hentered hp₀ (wellFormed_run g hstart steps) hactive hcounts hpasses
  obtain ⟨hholds, hq'⟩ := hquorum hentered' hp (wellFormed_run g hstart _) hactive' hcounts' hpasses'
  have htotal : ((machine R).run (steps ++ later) s₀).lpos.erasTotalStake p.era
      = Lpos.saturatingTotal p.validators := hholds.2
  rw [Lpos.saturatingTotal_of_lt (show p.weights < 2 ^ 128 by omega)] at htotal
  have hstakes : ∑ v ∈ voters.toFinset ∩ voters'.toFinset,
      ((machine R).run (steps ++ later) s₀).lpos.stakeIn p.era v
        = (electorate p).stake (voters.toFinset ∩ voters'.toFinset) :=
    Finset.sum_congr rfl fun v _ => State.stakeIn_of_holds hholds v
  rw [htotal, hstakes]
  exact hq.inter hq'

namespace Sample

/-- The unlocking of so many native tokens, as the validators report it. -/
def unlocking (amount : Nat) : Appchain.Observation Nat := .burn ⟨1, [], 1, amount⟩

/-- Validator 1 reports two different amounts, both under index 1. -/
def bothReported : List (Step config) := [.vote [1] (unlocking 3), .vote [1] (unlocking 4)]

end Sample

theorem quorums_intersect_in_one_validator :
    ∃ s₀, Sample.genesis.start = some s₀ ∧
      (machine Sample.config).log Sample.bothReported s₀
        = [Sample.unlocking 3, Sample.unlocking 4] ∧
      ((machine Sample.config).run Sample.bothReported s₀).lpos.erasTotalStake 0
        < 3 * ∑ v ∈ ([1] : List Nat).toFinset ∩ ([1] : List Nat).toFinset,
          ((machine Sample.config).run Sample.bothReported s₀).lpos.stakeIn 0 v := by
  refine ⟨_, rfl, by decide, ?_⟩
  exact quorums_intersect Sample.genesis rfl [Sample.bothReported.head (by decide)]
    Sample.bothReported.tail (by decide) (p := ⟨0, 0, [(1, 1)]⟩) (by decide) (by decide)
    (Sample.unlocking 3) (Sample.unlocking 4) (by decide) (by decide) (Or.inl (by decide))
    (Or.inl (by decide)) ⟨1, by decide, by decide⟩ ⟨1, by decide, by decide⟩

/-! ## Exactness -/

/-- The stake of the voters and the total, before they are cut to the `u128`, for which the test
comes out as it should. Below the maximum the two products have to leave the `u128` equally often,
or the second one has to stay the larger one when it has lost its carry. A total beyond the maximum
is compared as `2 ^ 128 - 2`. -/
def DecidesExactly (stake total : Nat) : Prop :=
  if total < 2 ^ 128 then
    3 * stake / 2 ^ 128 = 2 * total / 2 ^ 128 ∨
      3 * stake < 2 ^ 128 ∧ 3 * stake + 2 ^ 128 ≤ 2 * total
  else
    if 2 * total < 3 * stake then 3 * stake % 2 ^ 128 = 2 ^ 128 - 1
    else 3 * stake % 2 ^ 128 ≠ 2 ^ 128 - 1

instance (stake total : Nat) : Decidable (DecidesExactly stake total) := by
  unfold DecidesExactly
  infer_instance

theorem twoThirds_exact_iff {stake total : Nat} (hle : stake ≤ total) :
    (Appchain.twoThirds (stake % 2 ^ 128) (min total (2 ^ 128 - 1)) = true ↔
      2 * total < 3 * stake) ↔ DecidesExactly stake total := by
  have hstake : 3 * (stake % 2 ^ 128) % 2 ^ 128 = 3 * stake % 2 ^ 128 :=
    Nat.mul_mod_mod 3 stake (2 ^ 128)
  unfold Appchain.twoThirds wrappingMul DecidesExactly
  rw [decide_eq_true_eq, hstake]
  by_cases htotal : total < 2 ^ 128
  · rw [if_pos htotal, Nat.min_eq_left (Nat.le_sub_one_of_lt htotal)]
    exact mod_lt_mod_iff (by omega) (by omega)
  · -- the maximum is doubled to `2 ^ 128 - 2`
    have hmax : 2 * (2 ^ 128 - 1) % 2 ^ 128 = 2 ^ 128 - 2 := by norm_num
    have hrest : 3 * stake % 2 ^ 128 < 2 ^ 128 := Nat.mod_lt _ (Nat.two_pow_pos 128)
    rw [if_neg htotal, Nat.min_eq_right (by omega), hmax]
    generalize 3 * stake % 2 ^ 128 = rest at hrest
    by_cases hexact : 2 * total < 3 * stake
    · rw [if_pos hexact, iff_true_right hexact]
      omega
    · rw [if_neg hexact, iff_false_right hexact]
      omega

/--
**The test is exact where `DecidesExactly` holds.** For an era planned from a list without repeated
accounts, and any voters without repetitions. Once the era is cleared nobody passes the test any
more.
-/
theorem two_thirds_exact_iff (g : Genesis R) {s₀ : State R} (hstart : g.start = some s₀)
    (steps : List (Step R)) (hsteps : (machine R).Along (fun s i => i.SessionInRange s) steps s₀)
    {p : Lpos.Plan AccountId} (hp : p ∈ g.eras s₀ steps)
    (haccounts : (p.validators.map Prod.fst).Nodup) (voters : List AccountId)
    (hvoters : voters.Nodup)
    (hactive : ((machine R).run steps s₀).timeline.activeIndex = some p.era) :
    let s := (machine R).run steps s₀
    let stake := ((p.validators.filter fun v => v.1 ∈ voters).map Prod.snd).sum
    (∀ v o, s.appchain.Passes s.stakes v o ↔ s.TwoThirds (s.appchain.votersWith v o)) ∧
      (s.timeline.Cleared p.era →
        ((s.TwoThirds voters ↔ 2 * p.weights < 3 * stake) ↔ 3 * stake ≤ 2 * p.weights)) ∧
      (¬ s.timeline.Cleared p.era →
        ((s.TwoThirds voters ↔ 2 * p.weights < 3 * stake) ↔ DecidesExactly stake p.weights)) := by
  intro s stake
  refine ⟨fun v o => Appchain.State.passes_iff, fun hcleared => ?_, fun hkept => ?_⟩
  · rw [iff_false_left (State.not_twoThirds_of_cleared hactive hcleared voters), Nat.not_lt]
  · have hentered := entered_run g hstart steps hsteps
    have hholds := (hentered.timeline.plan_stakes hp).resolve_left hkept
    have hsum : ∑ v ∈ voters.toFinset, held p.validators v = stake := by
      rw [sum_held_of_nodup haccounts]
      simp [stake]
    have hle : stake ≤ p.weights := hsum ▸ sum_held_le p.validators voters.toFinset
    have hstake : wrappingSum 128 (voters.map (s.lpos.stakeIn p.era)) = stake % 2 ^ 128 := by
      have hstakes : s.lpos.stakeIn p.era = held p.validators :=
        funext (State.stakeIn_of_holds hholds)
      rw [wrappingSum_eq, hstakes, ← List.sum_toFinset _ hvoters, hsum]
    have htotal : s.lpos.erasTotalStake p.era = min p.weights (2 ^ 128 - 1) := by
      have heq : s.lpos.erasTotalStake p.era = Lpos.saturatingTotal p.validators := hholds.2
      rw [heq, Lpos.saturatingTotal_eq]
      rfl
    rw [State.twoThirds_iff hactive, hstake, htotal]
    exact twoThirds_exact_iff hle

theorem two_thirds_exact_for_one_validator :
    ∃ s₀, Sample.genesis.start = some s₀ ∧
      (((machine Sample.config).run Sample.bothReported s₀).TwoThirds [1] ↔ 2 * 1 < 3 * 1) := by
  refine ⟨_, rfl, ?_⟩
  have h := (two_thirds_exact_iff Sample.genesis rfl Sample.bothReported (by decide)
    (p := ⟨0, 0, [(1, 1)]⟩) (by decide) (by decide) [1] (by decide) (by decide)).2.2
  exact (h fun hcleared => absurd hcleared.2 (by decide)).mpr (by decide)

namespace Sample

/-- Root plans 1 unit for account 1 and the rest of `2 ^ 127` units for account 2. -/
def doubledToZero : List (Step config) :=
  [.force .root (.plannedValidators [(1, 1), (2, 2 ^ 127 - 1)]), .rotate, .rotate]

end Sample

/-- 1 unit of `2 ^ 127` passes the test, and what its holder reports takes effect. -/
theorem two_thirds_doubles_to_zero :
    ∃ s₀, Sample.genesis.start = some s₀ ∧
      ⟨1, 2, [(1, 1), (2, 2 ^ 127 - 1)]⟩ ∈ Sample.genesis.eras s₀ Sample.doubledToZero ∧
      ∃ s, (machine Sample.config).run Sample.doubledToZero s₀ = s ∧
        s.timeline.activeIndex = some 1 ∧
        s.lpos.erasTotalStake 1 = 2 ^ 127 ∧ s.lpos.stakeIn 1 1 = 1 ∧
        s.TwoThirds [1] ∧ ¬ 2 * 2 ^ 127 < 3 * 1 ∧
        (s.step (.vote [1] (Sample.unlocking 3))).2 = [Sample.unlocking 3] := by
  refine ⟨_, rfl, by decide, _, rfl, by decide, by decide, by decide, ?_, by decide, by decide⟩
  exact ⟨2 ^ 127, by decide, by decide⟩

end OctopusPallets.Runtime
