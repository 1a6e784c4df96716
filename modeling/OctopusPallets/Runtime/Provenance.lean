import OctopusPallets.Appchain.Anchor
import OctopusPallets.Appchain.QuorumSafety
import OctopusPallets.Runtime.EraQuorums
import OctopusPallets.Runtime.Shared

/-!
# Where validator sets come from

A vote is counted with the stakes of an era, the era was planned with a validator set, and that set
took effect by the votes of an era before it. So the trust in the genesis list carries over from set
to set, as long as the faulty accounts are a quorum of none of them.

* `Rooted` — the state of a chain all of whose sets are those of the anchor contract
* `Rooted.effects` — what takes effect in such a state is in the anchor contract
* `sets_rooted` — over every run
-/

namespace OctopusPallets.Runtime

open Infra Infra.Dispatch Infra.FixedWidth Infra.Overwrite

variable {AccountId : Type} [DecidableEq AccountId] {R : Config AccountId}

/-! ## Honest votes -/

/-- What the accounts of a list hold of its weights. -/
def electorateOf (validators : List (AccountId × Nat)) : Electorate AccountId where
  weight := held validators
  total := (validators.map Prod.snd).sum
  sum_le := sum_held_le validators

/-- The faulty accounts are no quorum of the list, and the list is tested without overflow. -/
structure Outvotes (validators : List (AccountId × Nat)) (faulty : Finset AccountId) : Prop where
  fits : 3 * (electorateOf validators).total < 2 ^ 128
  noQuorum : ¬ (electorateOf validators).Quorum faulty

instance (validators : List (AccountId × Nat)) (faulty : Finset AccountId) :
    Decidable (Outvotes validators faulty) :=
  decidable_of_iff (3 * (validators.map Prod.snd).sum < 2 ^ 128 ∧
      ¬ 2 * (validators.map Prod.snd).sum < 3 * ∑ v ∈ faulty, held validators v)
    ⟨fun ⟨h₁, h₂⟩ => ⟨h₁, h₂⟩, fun ⟨h₁, h₂⟩ => ⟨h₁, h₂⟩⟩

/-- A vote that is counted for an account that is not faulty is for what the anchor contract holds,
and root neither moves the counter of the sets nor plans a list of its own. -/
def Step.Honest (A : Appchain.Anchor AccountId) (faulty : Finset AccountId) (s : State R) :
    Step R → Prop
  | .vote keyData o => ∀ x ∈ s.voteOf keyData o, x.validatorId ∉ faulty → A.Holds o
  | .force .root (.nextSetId _) | .force .root (.plannedValidators _) => False
  | _ => True

instance (A : Appchain.Anchor AccountId) (faulty : Finset AccountId) (s : State R) :
    (i : Step R) → Decidable (i.Honest A faulty s)
  | .vote keyData o => inferInstanceAs
      (Decidable (∀ x ∈ s.voteOf keyData o, x.validatorId ∉ faulty → A.Holds o))
  | .force .root (.nextSetId _) | .force .root (.plannedValidators _) => isFalse not_false
  | .force .root (.isActivated _) | .force .root (.nextNotificationId _) | .force (.signed _) _
  | .force .none _ | .timestamp _ | .onInitialize _ | .onFinalize | .rotate | .noteAuthor _
  | .reportOffence _ _ _ _ | .lpos _ _ | .bridge _ _ | .fees _ | .keys _ | .elsewhere _ _ _ _ =>
    isTrue trivial

/-! ## The appchain pallet -/

/-- The planned set is one of the anchor contract, and so is what honest validators have voted
for. -/
structure Sourced {cfg : Appchain.Config} {β : Type} (A : Appchain.Anchor AccountId)
    (faulty : Finset AccountId) (a : Appchain.State cfg AccountId β) : Prop where
  book : ∀ o, ∀ v ∈ a.book o, v ∉ faulty → A.Holds o
  pos : 1 ≤ a.nextSetId
  planned : a.plannedValidators = A.plan (a.nextSetId - 1)

section

variable {cfg : Appchain.Config} {β : Type} {A : Appchain.Anchor AccountId}
  {faulty : Finset AccountId} {a a' : Appchain.State cfg AccountId β}

theorem Sourced.of_fields (h : Sourced A faulty a) (hobserving : a'.observing = a.observing)
    (hset : a'.nextSetId = a.nextSetId) (hplanned : a'.plannedValidators = a.plannedValidators) :
    Sourced A faulty a' := by
  obtain ⟨hbook, hpos, hplan⟩ := h
  have hsame : a'.book = a.book := by
    unfold Appchain.State.book
    rw [hobserving]
  rw [← hsame] at hbook
  rw [← hset] at hpos
  rw [← hset, ← hplanned] at hplan
  exact ⟨hbook, hpos, hplan⟩

/-- A vote is entered in the book, and a set that takes effect is planned under its own id. -/
theorem Sourced.vote (h : Sourced A faulty a) {bridge : BridgeInterface AccountId β}
    {lpos : LposInterface AccountId} {v : AccountId} {o : Appchain.Observation AccountId}
    {os : List (Appchain.Observation AccountId)}
    (hstep : Appchain.VoteStep bridge lpos v o a a' os) (hvote : v ∉ faulty → A.Holds o)
    (heffects : ∀ o' ∈ os, A.Holds o') :
    Sourced A faulty a' ∧ a.nextSetId ≤ a'.nextSetId := by
  have hbook : ∀ o, ∀ v ∈ a'.book o, v ∉ faulty → A.Holds o := by
    intro o' w hw hhonest
    rcases hstep.book with ⟨rfl, -⟩ | ⟨-, hcast⟩
    · exact h.book o' w hw hhonest
    · rw [hcast, Book.mem_cast] at hw
      rcases hw with hw | ⟨rfl, rfl⟩
      · exact h.book o' w hw hhonest
      · exact hvote hhonest
  cases hstep with
  | refused _ => exact ⟨h, Nat.le_refl _⟩
  | counted _ _ _ => exact ⟨⟨hbook, h.pos, h.planned⟩, Nat.le_refl _⟩
  | relayed _ _ _ _ _ => exact ⟨⟨hbook, h.pos, h.planned⟩, Nat.le_refl _⟩
  | @installed _ _ _ valSet hreg _ _ hset _ =>
    subst hset
    have hid : valSet.setId = a.nextSetId :=
      (Appchain.State.inRange_set fun ho => ho rfl).mp hreg.inRange
    have hplan := Appchain.Anchor.plan_of_holds (heffects _ (.head _))
    rw [hid] at hplan
    exact ⟨⟨hbook, Nat.le_add_left 1 _, hplan⟩, Nat.le_succ _⟩

end

/-! ## Rooted chains -/

/-- Every set of the chain is one of the anchor contract. -/
structure Rooted (A : Appchain.Anchor AccountId) (faulty : Finset AccountId) (s : State R)
    (plans : List (Lpos.Plan AccountId)) : Prop extends Sourced A faulty s.appchain where
  wellFormed : s.appchain.WellFormed
  entered : Lpos.Entered s.chain plans
  plans : ∀ p ∈ plans, ∃ setId < s.appchain.nextSetId, p.validators = A.plan setId

variable {A : Appchain.Anchor AccountId} {faulty : Finset AccountId} {s : State R}
  {plans : List (Lpos.Plan AccountId)}

/-- The active era was planned, with a set of the anchor contract. -/
theorem Rooted.active_plan (h : Rooted A faulty s plans) {activeEra : Lpos.ActiveEraInfo}
    (hactive : s.lpos.activeEra = some activeEra) :
    ∃ p ∈ plans, s.timeline.activeIndex = some p.era ∧ ∃ setId, p.validators = A.plan setId := by
  have hindex : s.timeline.activeIndex = some activeEra.index :=
    s.lposState.timeline_activeIndex.trans (congrArg _ hactive)
  have hlt : activeEra.index < Lpos.following s.timeline.currentEra := by
    have hle := h.entered.timeline.active_le
    rw [show s.chain.state.timeline.activeIndex = some activeEra.index from hindex] at hle
    exact hle
  have hmem : activeEra.index ∈ plans.map Lpos.Plan.era := by
    rw [h.entered.timeline.eras, List.mem_range]
    exact hlt
  obtain ⟨p, hp, hera⟩ := List.mem_map.mp hmem
  obtain ⟨setId, -, hvalidators⟩ := h.plans p hp
  exact ⟨p, hp, hera ▸ hindex, setId, hvalidators⟩

/-- In the active era nobody has a stake, or it is counted as the anchor contract has it. -/
theorem Rooted.active_stakes (h : Rooted A faulty s plans)
    (hsets : ∀ setId, Outvotes (A.plan setId) faulty) {activeEra : Lpos.ActiveEraInfo}
    (hactive : s.lpos.activeEra = some activeEra) :
    ((∀ who, s.stakes.activeStakeOf who = 0) ∧ s.stakes.activeTotalStake = some 0) ∨
      ∃ setId, Appchain.Backs (electorateOf (A.plan setId)) s.stakes := by
  obtain ⟨p, hp, hindex, setId, hvalidators⟩ := h.active_plan hactive
  rcases h.entered.timeline.plan_stakes hp with hcleared | hholds
  · obtain ⟨hstake, htotal⟩ := State.stakes_eq hindex
    have hzero : s.lpos.erasTotalStake p.era = 0 := hcleared.2
    refine Or.inl ⟨fun who => ?_, by rw [htotal, hzero]⟩
    rw [hstake]
    exact Lpos.Storage.stakeIn_of_empty hcleared.1 who
  · have hfits := (hsets setId).fits
    rw [← hvalidators] at hfits
    have hweights : 3 * p.weights < 2 ^ 128 := hfits
    refine Or.inr ⟨setId, ?_⟩
    rw [← hvalidators]
    exact State.backs hindex hholds (by omega)

/-- Whoever the test is passed for, an honest account is among them. -/
theorem Rooted.honest_of_passes (h : Rooted A faulty s plans)
    (hsets : ∀ setId, Outvotes (A.plan setId) faulty) {v : AccountId}
    {o : Appchain.Observation AccountId} (hpasses : s.appchain.Passes s.stakes v o) :
    ∃ w ∈ insert v (s.appchain.book o), w ∉ faulty := by
  obtain ⟨T, hT, htest⟩ := Appchain.State.passes_iff.mp hpasses
  obtain ⟨activeEra, hactive, -⟩ := Option.map_eq_some_iff.mp hT
  rcases h.active_stakes hsets hactive with ⟨hstake, htotal⟩ | ⟨setId, hbacks⟩
  · -- nobody passes without a stake
    rw [htotal] at hT
    obtain rfl := Option.some.inj hT
    have hzero : (s.appchain.votersWith v o).map s.stakes.activeStakeOf
        = (s.appchain.votersWith v o).map fun _ => 0 :=
      List.map_congr_left fun w _ => hstake w
    unfold Appchain.stakeOf at htest
    rw [hzero, wrappingSum_eq] at htest
    simp [Appchain.twoThirds, wrappingMul] at htest
  · have hquorum := (hbacks.passes_iff (hsets setId).fits h.wellFormed v o).mp hpasses
    exact hquorum.exists_not_mem_of_not_quorum (hsets setId).noQuorum

/-- **What takes effect is in the anchor contract.** -/
theorem Rooted.effects (h : Rooted A faulty s plans)
    (hsets : ∀ setId, Outvotes (A.plan setId) faulty) {i : Step R} (hi : i.Honest A faulty s)
    {o : Appchain.Observation AccountId} (ho : o ∈ (s.step i).2) : A.Holds o := by
  cases i with
  | vote keyData o' =>
    have ho : o ∈ (s.vote keyData o').2 := ho
    unfold State.vote at ho
    cases hvote : s.voteOf keyData o' with
    | none => rw [hvote] at ho; cases ho
    | some x =>
      obtain ⟨v, -, rfl⟩ := Option.map_eq_some_iff.mp hvote
      rw [hvote] at ho
      obtain ⟨rfl, hpasses⟩ :=
        (Appchain.voteMachine_step Bridge.bridgeInterface _ s.appchain).passes_of_mem ho
      obtain ⟨w, hw, hhonest⟩ := h.honest_of_passes hsets hpasses
      rcases Finset.mem_insert.mp hw with rfl | hw
      · exact hi _ hvote hhonest
      · exact h.book o w hw hhonest
  | timestamp _ | onInitialize _ | onFinalize | rotate | noteAuthor _ | reportOffence _ _ _ _
  | lpos _ _ | force _ _ | bridge _ _ | fees _ | keys _ | elsewhere _ _ _ _ => cases ho

theorem Rooted.step_sourced (h : Rooted A faulty s plans)
    (hsets : ∀ setId, Outvotes (A.plan setId) faulty) {i : Step R} (hi : i.Honest A faulty s) :
    Sourced A faulty (s.step i).1.appchain ∧
      s.appchain.nextSetId ≤ (s.step i).1.appchain.nextSetId := by
  have heffects : ∀ o ∈ (s.step i).2, A.Holds o := fun o ho => h.effects hsets hi ho
  rcases s.step_appchain i with ⟨keyData, o, rfl⟩ | ⟨origin, forced, rfl⟩ | ⟨bridge, hsame⟩
  · have heffects : ∀ o' ∈ (s.vote keyData o).2, A.Holds o' := heffects
    show Sourced A faulty (s.vote keyData o).1.appchain ∧
      s.appchain.nextSetId ≤ (s.vote keyData o).1.appchain.nextSetId
    unfold State.vote at heffects ⊢
    cases hvote : s.voteOf keyData o with
    | none => exact ⟨h.toSourced, Nat.le_refl _⟩
    | some x =>
      rw [hvote] at heffects
      obtain ⟨v, -, rfl⟩ := Option.map_eq_some_iff.mp hvote
      exact h.toSourced.vote (Appchain.voteMachine_step Bridge.bridgeInterface _ s.appchain)
        (hi _ hvote) heffects
  · cases origin with
    | signed _ | none =>
      cases forced <;> exact ⟨h.toSourced.of_fields rfl rfl rfl, Nat.le_refl _⟩
    | root =>
      cases forced with
      | isActivated _ | nextNotificationId _ =>
        exact ⟨h.toSourced.of_fields rfl rfl rfl, Nat.le_refl _⟩
      | nextSetId _ | plannedValidators _ => exact hi.elim
  · rw [hsame]
    exact ⟨h.toSourced.of_fields rfl rfl rfl, Nat.le_refl _⟩

/-- An era is planned with the planned set. -/
theorem Step.validators_of_plans {i : Step R} {c' : Lpos.Chain R.lpos} {p : Lpos.Plan AccountId}
    (hp : p ∈ (i.chainCall s).plans s.chain c') : p.validators = s.appchain.plannedValidators := by
  cases i with
  | rotate =>
    have hp : p ∈ Lpos.plannedEra s.chain.state.currentEra (s.chain.session + 2) s.context c' := hp
    unfold Lpos.plannedEra at hp
    split at hp
    · cases hp
    · obtain ⟨era, -, rfl⟩ := Option.map_eq_some_iff.mp (Option.mem_toList.mp hp)
      rfl
  | timestamp _ | onInitialize _ | onFinalize | noteAuthor _ | reportOffence _ _ _ _ | lpos _ _
  | vote _ _ | force _ _ | bridge _ _ | fees _ | keys _ | elsewhere _ _ _ _ => cases hp

theorem Rooted.step (h : Rooted A faulty s plans)
    (hsets : ∀ setId, Outvotes (A.plan setId) faulty) {i : Step R} (hrange : i.SessionInRange s)
    (hi : i.Honest A faulty s) :
    Rooted A faulty (s.step i).1 (plans ++ (i.chainCall s).plans s.chain (s.step i).1.chain) := by
  obtain ⟨hsourced, hle⟩ := h.step_sourced hsets hi
  refine ⟨hsourced, wellFormed_step s i h.wellFormed, ?_, fun p hp => ?_⟩
  · have hstep := h.entered.step (Step.chainCall_inRange hrange)
    rwa [← s.step_chain i] at hstep
  · rcases List.mem_append.mp hp with hp | hp
    · obtain ⟨setId, hlt, hvalidators⟩ := h.plans p hp
      exact ⟨setId, hlt.trans_le hle, hvalidators⟩
    · have hpos := h.pos
      refine ⟨s.appchain.nextSetId - 1, by omega, ?_⟩
      rw [Step.validators_of_plans hp]
      exact h.planned

/-! ## Runs -/

theorem Genesis.rooted (g : Genesis R) {s₀ : State R} (hstart : g.start = some s₀)
    (hgenesis : g.validators = A.plan 0) : Rooted A faulty s₀ (g.eras s₀ []) := by
  obtain ⟨⟨c₀, os₀⟩, hchain, rfl⟩ := Option.map_eq_some_iff.mp hstart
  have hentered := g.lpos.entered hchain
  unfold Genesis.eras
  rw [Machine.log, List.append_nil]
  refine ⟨⟨fun o v hv => ?_, Nat.le_refl 1, hgenesis⟩, wellFormed_run g hstart [], hentered,
    fun p hp => ⟨0, Nat.one_pos, ?_⟩⟩
  · simp [Appchain.State.book, State.withChain, Genesis.state, Appchain.genesisBuild] at hv
  · obtain ⟨era, -, rfl⟩ := List.mem_map.mp hp
    exact hgenesis

/-- The run lemma. -/
theorem rooted_run (g : Genesis R) {s₀ : State R} (hstart : g.start = some s₀)
    (hgenesis : g.validators = A.plan 0) (hsets : ∀ setId, Outvotes (A.plan setId) faulty)
    (steps : List (Step R))
    (hsteps : (machine R).Along (fun s i => i.SessionInRange s ∧ i.Honest A faulty s) steps s₀) :
    Rooted A faulty ((machine R).run steps s₀) (g.eras s₀ steps) := by
  have h : Rooted A faulty ((eraMachine R).run steps s₀) (g.eras s₀ steps) := by
    refine (eraMachine R).invariant
      (I := fun _ s plans => Rooted A faulty s (g.lpos.plans s₀.chain ++ plans))
      (g.rooted hstart hgenesis) ?_ steps ((Machine.observing_along ..).mpr hsteps)
    intro _ s plans i hs hi
    rw [← List.append_assoc]
    exact hs.step hsets hi.1 hi.2
  rwa [eraMachine, Machine.observing_run] at h

/-- What took effect, some step of the run brought into effect. -/
theorem log_holds (g : Genesis R) {s₀ : State R} (hstart : g.start = some s₀)
    (hgenesis : g.validators = A.plan 0) (hsets : ∀ setId, Outvotes (A.plan setId) faulty)
    {steps : List (Step R)}
    (hsteps : (machine R).Along (fun s i => i.SessionInRange s ∧ i.Honest A faulty s) steps s₀)
    {o : Appchain.Observation AccountId} (ho : o ∈ (machine R).log steps s₀) : A.Holds o := by
  obtain ⟨js, i, ks, rfl, heffect⟩ := (machine R).mem_log ho
  rw [Machine.along_append] at hsteps
  exact (rooted_run g hstart hgenesis hsets js hsteps.1).effects hsets hsteps.2.1.2 heffect

/-- The stakes of an era are those of a set of the contract, or cleared. -/
def EraRooted (A : Appchain.Anchor AccountId) (s : State R) (era : Nat) : Prop :=
  s.timeline.Cleared era ∨ ∃ setId < s.appchain.nextSetId,
    s.timeline.stakers era = Lpos.insertStakers (A.plan setId) ∅ ∧
      s.timeline.totalStake era = ((A.plan setId).map Prod.snd).sum

theorem Rooted.era (h : Rooted A faulty s plans)
    (hsets : ∀ setId, Outvotes (A.plan setId) faulty) (era : Nat) : EraRooted A s era := by
  rcases h.entered.timeline.stakes era with hcleared | ⟨p, hp, rfl, hstakers, htotal⟩
  · exact Or.inl hcleared
  · obtain ⟨setId, hlt, hvalidators⟩ := h.plans p hp
    have hfits : 3 * ((A.plan setId).map Prod.snd).sum < 2 ^ 128 := (hsets setId).fits
    rw [hvalidators] at hstakers htotal
    rw [Lpos.saturatingTotal_of_lt (by omega)] at htotal
    exact Or.inr ⟨setId, hlt, hstakers, htotal⟩

/--
**The chain runs on the sets of the anchor contract.**

From a genesis that starts with set 0 of the anchor contract, in every run in which what is counted
for the accounts outside `faulty` is in the contract, and in which root sets neither the counter of
the sets nor the list: as long as the faulty accounts hold at most two thirds of each set, all that
takes effect is in the contract, the planned set is the one before `NextSetId`, and the stakes of
every era are those of a set of the contract, or cleared.
-/
theorem sets_rooted (g : Genesis R) {s₀ : State R} (hstart : g.start = some s₀)
    (A : Appchain.Anchor AccountId) (faulty : Finset AccountId)
    (hgenesis : g.validators = A.plan 0) (hsets : ∀ setId, Outvotes (A.plan setId) faulty)
    (steps : List (Step R))
    (hsteps : (machine R).Along (fun s i => i.SessionInRange s ∧ i.Honest A faulty s) steps s₀) :
    let s := (machine R).run steps s₀
    (∀ o ∈ (machine R).log steps s₀, A.Holds o) ∧
      s.appchain.plannedValidators = A.plan (s.appchain.nextSetId - 1) ∧
      ∀ era, EraRooted A s era := by
  have h := rooted_run g hstart hgenesis hsets steps hsteps
  exact ⟨fun o ho => log_holds g hstart hgenesis hsets hsteps ho, h.planned, h.era hsets⟩

namespace Sample

/-- Account 1 validates in every set, from set 1 on next to account 2, which has a stake of 5 in 16. -/
def anchor : Appchain.Anchor Nat where
  notification i := .burn ⟨i, [], 1, 1⟩
  isNotification _ := nofun
  index _ := rfl
  validators setId := if setId = 0 then [⟨1, 1⟩] else [⟨1, 11⟩, ⟨2, 5⟩]

/-- Set 1 is reported and becomes active. Then account 2 reports what is not in the contract, and
account 1 the notification that is. -/
def nextSetActive : List (Step config) :=
  [.vote [1] (.updateValidatorSet (anchor.valSet 1)), .rotate, .rotate, .keys (keysOf [1, 2]),
    .vote [2] (.burn ⟨0, [], 2, 100⟩), .vote [1] (anchor.notification 0)]

theorem anchor_plan (setId : Nat) :
    anchor.plan setId = if setId = 0 then [(1, 1)] else [(1, 11), (2, 5)] := by
  unfold Appchain.Anchor.plan Appchain.Anchor.valSet Appchain.ValidatorSet.plan anchor
  by_cases hzero : setId = 0 <;> simp [hzero]

theorem anchor_outvotes (setId : Nat) : Outvotes (anchor.plan setId) {2} := by
  rw [anchor_plan]
  by_cases hzero : setId = 0
  · rw [if_pos hzero]
    decide
  · rw [if_neg hzero]
    decide

end Sample

/-- Account 2 is faulty, and only what is in the contract takes effect. -/
theorem sets_rooted_in_two_sets :
    ∃ s₀, Sample.genesis.start = some s₀ ∧
      (machine Sample.config).log Sample.nextSetActive s₀
        = [.updateValidatorSet (Sample.anchor.valSet 1), Sample.anchor.notification 0] ∧
      ∀ o ∈ (machine Sample.config).log Sample.nextSetActive s₀, Sample.anchor.Holds o := by
  refine ⟨_, rfl, by decide, ?_⟩
  exact (sets_rooted Sample.genesis rfl Sample.anchor {2} rfl Sample.anchor_outvotes
    Sample.nextSetActive (by decide)).1

end OctopusPallets.Runtime
