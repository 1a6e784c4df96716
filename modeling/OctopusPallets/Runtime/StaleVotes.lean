import OctopusPallets.Runtime.EraQuorums

/-!
# Votes that stay

The list of those who have voted for an observation has room for one set of validators. Nobody
leaves it when the validators change, so votes of former validators can fill it up.

* `countsVote_iff` — when a vote for a registered observation is counted
* `vote_counted_iff` — the same for the validators of a reachable state
-/

namespace OctopusPallets.Appchain

open Infra Infra.Dispatch Infra.FixedWidth

variable {cfg : Config} {AccountId β : Type} [DecidableEq AccountId]

/-- The vote is in the list afterwards or its observation takes effect, and the list was not too
long. -/
structure State.CountsVote (bridge : BridgeInterface AccountId β) (s : State cfg AccountId β)
    (x : Vote AccountId) : Prop where
  entered : x.validatorId ∈
      ((submitObservation bridge x.lpos x.validatorId x.observation s).2.observing x.observation).val ∨
    x.observation ∈ ((voteMachine bridge).step x s).2
  notFull : (submitObservation bridge x.lpos x.validatorId x.observation s).1
    ≠ .error .observationsExceededLimit

/-- The voter is in the list, or the list is shorter than one set of validators may be; and a set
of validators that would take effect finds its counter below the maximum. -/
def State.HasVoterRoom (s : State cfg AccountId β) (x : Vote AccountId) : Prop :=
  x.validatorId ∈ (s.observing x.observation).val ∨
    (s.observing x.observation).val.length < cfg.maxValidators ∧
      (x.observation.IsNotification ∨ ¬ s.Passes x.lpos x.validatorId x.observation ∨
        s.nextSetId + 1 < 2 ^ 32)

theorem State.HasVoterRoom.isSome {s : State cfg AccountId β} {x : Vote AccountId}
    (h : s.HasVoterRoom x) : ((s.observing x.observation).tryPushAbsent x.validatorId).isSome := by
  rw [Option.isSome_iff_ne_none, Ne, BoundedVec.tryPushAbsent_eq_none]
  rintro ⟨hfull, hmem⟩
  rcases h with h | ⟨h, -⟩
  · exact hmem h
  · omega

section

variable (bridge : BridgeInterface AccountId β) {s : State cfg AccountId β} {x : Vote AccountId}
  {obs : BoundedVec (Observation AccountId) maxObservations}
  {vals : BoundedVec AccountId cfg.maxValidators}

/-- A vote that both lists have room for does not fail for want of room. -/
theorem Registers.notFull (hreg : Registers s x.validatorId x.observation obs vals) :
    (submitObservation bridge x.lpos x.validatorId x.observation s).1
      ≠ .error .observationsExceededLimit := by
  intro herror
  rcases submitObservation_step bridge x.lpos x.validatorId x.observation s with
    ⟨e, hrefused, hrun⟩ | ⟨s', os, hrun, -⟩
  · rw [hrun] at herror
    cases herror
    cases hrefused with
    | observationsFull _ h =>
      rw [hreg.observations] at h
      cases h
    | observingFull _ h =>
      rw [hreg.observing] at h
      cases h
  · rw [hrun] at herror
    cases herror

/-- A vote that does not pass the test is entered. -/
theorem Registers.entered_of_not_passes
    (hreg : Registers s x.validatorId x.observation obs vals) {T : Nat}
    (htotal : x.lpos.activeTotalStake = some T)
    (hpasses : ¬ s.Passes x.lpos x.validatorId x.observation) :
    (submitObservation bridge x.lpos x.validatorId x.observation s).2
      = s.withVote x.observation obs vals := by
  rw [hreg.passes_iff htotal, Bool.not_eq_true] at hpasses
  rw [submitObservation_registered bridge x.lpos hreg htotal, hpasses]
  rfl

/-- A set of validators that passes the test with the counter at its maximum is not entered. -/
theorem Registers.reverted_of_overflow
    (hreg : Registers s x.validatorId x.observation obs vals) {T : Nat}
    (htotal : x.lpos.activeTotalStake = some T)
    (hpasses : s.Passes x.lpos x.validatorId x.observation) (hset : ¬ x.observation.IsNotification)
    (hmax : 2 ^ 32 ≤ s.nextSetId + 1) :
    (submitObservation bridge x.lpos x.validatorId x.observation s).2 = s := by
  have hquorum := (hreg.passes_iff htotal).mp hpasses
  rw [submitObservation_registered bridge x.lpos hreg htotal, hquorum]
  show (transactional (fun _ => processObservation bridge x.observation
    (s.withVote x.observation obs vals)) s).2 = s
  rcases submitObservation_quorum bridge x.lpos hreg htotal hquorum with
    ⟨e, -, hrun⟩ | ⟨s', os, hrun, hstep⟩
  · rw [hrun]
  · rw [hrun]
    cases hstep with
    | refused _ => rfl
    | counted hreg' htotal' hno =>
      rw [(hreg'.passes_iff htotal').mp hpasses] at hno
      cases hno
    | installed _ _ _ _ hlt => omega
    | relayed _ _ _ ho _ => exact absurd ho hset

/-- The voter is in the list that has room for them, or is pushed onto a shorter one. -/
theorem Registers.mem_or_lt (hreg : Registers s x.validatorId x.observation obs vals) :
    x.validatorId ∈ (s.observing x.observation).val ∨
      (s.observing x.observation).val.length < cfg.maxValidators := by
  by_contra hno
  rw [not_or, Nat.not_lt] at hno
  have hnone := BoundedVec.tryPushAbsent_eq_none.mpr
    ⟨Nat.le_antisymm (s.observing x.observation).length_le hno.2, hno.1⟩
  rw [hreg.observing] at hnone
  cases hnone

/-- A vote that does not pass the test is counted. -/
theorem Registers.countsVote_of_not_passes
    (hreg : Registers s x.validatorId x.observation obs vals) {T : Nat}
    (htotal : x.lpos.activeTotalStake = some T)
    (hpasses : ¬ s.Passes x.lpos x.validatorId x.observation) : s.CountsVote bridge x := by
  refine ⟨Or.inl ?_, hreg.notFull bridge⟩
  rw [hreg.entered_of_not_passes bridge htotal hpasses, State.withVote_observing_self,
    BoundedVec.mem_of_tryPushAbsent hreg.observing]
  exact Or.inl rfl

/-- A vote that brings its observation into effect is counted. -/
theorem Registers.countsVote_of_takesEffect
    (hreg : Registers s x.validatorId x.observation obs vals) (heffect : s.TakesEffect x) :
    s.CountsVote bridge x := by
  have heffects := effects_of_step (voteMachine_step bridge x s)
  rw [if_pos heffect] at heffects
  refine ⟨Or.inr ?_, hreg.notFull bridge⟩
  rw [heffects]
  exact .head _

/-- Of the votes for a set of validators that overflows the counter only repeated ones are
counted. -/
theorem Registers.countsVote_iff_of_overflow
    (hreg : Registers s x.validatorId x.observation obs vals) {T : Nat}
    (htotal : x.lpos.activeTotalStake = some T)
    (hpasses : s.Passes x.lpos x.validatorId x.observation) (hset : ¬ x.observation.IsNotification)
    (hmax : 2 ^ 32 ≤ s.nextSetId + 1) :
    s.CountsVote bridge x ↔ x.validatorId ∈ (s.observing x.observation).val := by
  have hreverted := hreg.reverted_of_overflow bridge htotal hpasses hset hmax
  have heffects := effects_of_step (voteMachine_step bridge x s)
  have hnoEffect : ¬ s.TakesEffect x := by
    intro heffect
    have hcounter := heffect.lt
    rw [State.counterOf, if_neg hset] at hcounter
    omega
  rw [if_neg hnoEffect] at heffects
  constructor
  · intro h
    have hentered := h.entered
    rw [hreverted, heffects] at hentered
    exact hentered.resolve_right List.not_mem_nil
  · intro hmem
    exact ⟨Or.inl (by rwa [hreverted]), hreg.notFull bridge⟩

end

/-- **When a vote for a registered observation inside the window is counted.** -/
theorem State.countsVote_iff (bridge : BridgeInterface AccountId β) {s : State cfg AccountId β}
    {x : Vote AccountId} (hregistered : x.observation ∈ (s.observations
      (x.observation.getObservationType, x.observation.observationIndex)).val)
    (hrange : s.InRange x.observation) {T : Nat} (htotal : x.lpos.activeTotalStake = some T) :
    s.CountsVote bridge x ↔ s.HasVoterRoom x := by
  have hobs := BoundedVec.tryPushAbsent_of_mem hregistered
  cases hvals : (s.observing x.observation).tryPushAbsent x.validatorId with
  | none =>
    -- the list is full, without the voter
    refine iff_of_false (fun h => h.notFull ?_) fun h => ?_
    · rw [submitObservation_register_error bridge x.lpos hrange (Or.inr hvals)]
    · simpa [hvals] using h.isSome
  | some vals =>
    have hreg : Registers s x.validatorId x.observation _ vals := ⟨hrange, hobs, hvals⟩
    have hroom := hreg.mem_or_lt
    by_cases hpasses : s.Passes x.lpos x.validatorId x.observation
    · by_cases hlt : x.observation.IsNotification ∨ s.nextSetId + 1 < 2 ^ 32
      · have hcounter : s.counterOf x.observation + 1 < 2 ^ 32 := by
          unfold State.counterOf
          by_cases ho : x.observation.IsNotification
          · rw [if_pos ho]
            exact State.counter_lt ho hrange
          · rw [if_neg ho]
            exact hlt.resolve_left ho
        have heffect : s.TakesEffect x :=
          ⟨hrange, by rw [hobs]; rfl, by rw [hvals]; rfl, hpasses, hcounter⟩
        refine iff_of_true (hreg.countsVote_of_takesEffect bridge heffect) ?_
        exact hroom.imp_right fun h => ⟨h, hlt.imp_right Or.inr⟩
      · rw [not_or, Nat.not_lt] at hlt
        rw [hreg.countsVote_iff_of_overflow bridge htotal hpasses hlt.1 hlt.2]
        refine ⟨Or.inl, ?_⟩
        rintro (hmem | ⟨-, ho | hno | hfits⟩)
        · exact hmem
        · exact absurd ho hlt.1
        · exact absurd hpasses hno
        · exact absurd hfits (Nat.not_lt.mpr hlt.2)
    · refine iff_of_true (hreg.countsVote_of_not_passes bridge htotal hpasses) ?_
      exact hroom.imp_right fun h => ⟨h, Or.inr (Or.inl hpasses)⟩

end OctopusPallets.Appchain

namespace OctopusPallets.Runtime

open Infra Infra.Dispatch Infra.FixedWidth

variable {AccountId : Type} [DecidableEq AccountId] {R : Config AccountId}

/-- A validator who has not voted finds room where only current validators have. -/
theorem room_of_current {validators voters : List AccountId} {v : AccountId} {n : Nat}
    (hmax : validators.length ≤ n) (hv : v ∈ validators) (hnodup : voters.Nodup)
    (hcurrent : ∀ w ∈ voters, w ∈ validators) : v ∈ voters ∨ voters.length < n := by
  by_cases hmem : v ∈ voters
  · exact Or.inl hmem
  · right
    have hcons : (v :: voters).Nodup := List.nodup_cons.mpr ⟨hmem, hnodup⟩
    have hsub : v :: voters ⊆ validators := by
      intro w hw
      rcases List.mem_cons.mp hw with rfl | hw
      · exact hv
      · exact hcurrent w hw
    exact (hcons.subperm hsub).length_le.trans hmax

/--
**When the vote of a current validator is counted.** In every reachable state, for an observation
that is registered and inside the window. There is room as long as everyone who has voted for it is
a current validator.
-/
theorem vote_counted_iff (g : Genesis R) {s₀ : State R} (hstart : g.start = some s₀)
    (steps : List (Step R)) {v : AccountId}
    (hv : v ∈ ((machine R).run steps s₀).sessionPallet.validators)
    (hmax : ((machine R).run steps s₀).sessionPallet.validators.length ≤ R.appchain.maxValidators)
    {o : Appchain.Observation AccountId}
    (hregistered : o ∈ (((machine R).run steps s₀).appchain.observations
      (o.getObservationType, o.observationIndex)).val)
    (hrange : ((machine R).run steps s₀).appchain.InRange o) {T : Nat}
    (htotal : ((machine R).run steps s₀).stakes.activeTotalStake = some T) :
    let s := (machine R).run steps s₀
    (s.appchain.CountsVote Bridge.bridgeInterface ⟨s.stakes, v, o⟩ ↔
      s.appchain.HasVoterRoom ⟨s.stakes, v, o⟩) ∧
    ((∀ w ∈ (s.appchain.observing o).val, w ∈ s.sessionPallet.validators) →
      v ∈ (s.appchain.observing o).val ∨
        (s.appchain.observing o).val.length < R.appchain.maxValidators) := by
  intro s
  have hnodup := (wellFormed_run g hstart steps).voters_nodup o
  exact ⟨Appchain.State.countsVote_iff Bridge.bridgeInterface hregistered hrange htotal,
    room_of_current hmax hv hnodup⟩

namespace Sample

/-- Accounts 2 to 6, which have no stake, report an unlocking. -/
def formerVotes : List (Step config) :=
  .keys (keysOf [2, 3, 4, 5, 6]) ::
    [2, 3, 4, 5, 6].map fun v => .vote [UInt8.ofNat v] (unlocking 3)

/-- Then account 1 is the only validator again. -/
def votesThatStay : List (Step config) := formerVotes ++ [.keys (keysOf [1])]

end Sample

/-- One of them is gone before it votes: account 1 makes the unlocking take effect. -/
theorem vote_counted_beside_four :
    ∃ s₀, Sample.genesis.start = some s₀ ∧
      let s := (machine Sample.config).run (Sample.formerVotes.take 5 ++ [.keys (Sample.keysOf [1])]) s₀
      (s.appchain.observing (Sample.unlocking 3)).val = [2, 3, 4, 5] ∧
      s.appchain.CountsVote Bridge.bridgeInterface ⟨s.stakes, 1, Sample.unlocking 3⟩ := by
  refine ⟨_, rfl, by decide, ?_⟩
  refine (vote_counted_iff Sample.genesis rfl
    (Sample.formerVotes.take 5 ++ [.keys (Sample.keysOf [1])]) (v := 1) (o := Sample.unlocking 3)
    (T := 1) (by decide) (by decide) (by decide) (by decide) (by decide)).1.mpr ?_
  exact Or.inr ⟨by decide, Or.inl (by decide)⟩

/-- Account 1 is the only validator and has all the stake, and its vote is refused. -/
theorem vote_refused_for_stale_votes :
    ∃ s₀, Sample.genesis.start = some s₀ ∧
      ∃ s, (machine Sample.config).run Sample.votesThatStay s₀ = s ∧
        s.sessionPallet.validators = [1] ∧
        Sample.unlocking 3 ∈ (s.appchain.observations (.burn, 1)).val ∧
        s.appchain.InRange (Sample.unlocking 3) ∧ s.stakes.activeTotalStake = some 1 ∧
        (Appchain.submitObservation Bridge.bridgeInterface s.stakes 1 (Sample.unlocking 3)
          s.appchain).1 = .error .observationsExceededLimit ∧
        ¬ s.appchain.CountsVote Bridge.bridgeInterface ⟨s.stakes, 1, Sample.unlocking 3⟩ := by
  refine ⟨_, rfl, _, rfl, by decide, by decide, by decide, by decide, by decide, ?_⟩
  exact fun h => h.notFull (by decide)

end OctopusPallets.Runtime
