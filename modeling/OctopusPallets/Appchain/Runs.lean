import OctopusPallets.Infra.Machine
import OctopusPallets.Appchain.VoteStep

/-!
# Runs of votes and of calls

A call of `submit_observations` is a list of votes of one validator, one after the other. Runs are
runs of a machine whose outputs are the observations that took effect; the machine of calls is
that of votes with the calls unfolded.
-/

namespace OctopusPallets.Appchain

open Infra Infra.Dispatch Infra.FixedWidth

variable {cfg : Config} {AccountId Public β : Type} [DecidableEq AccountId]

/-! ## Effects -/

/-- Between `s` and `s'` an observation took effect: one of the two counters moved. -/
def TookEffect (s s' : State cfg AccountId β) : Prop :=
  s'.nextSetId ≠ s.nextSetId ∨ s'.nextNotificationId ≠ s.nextNotificationId

instance (s s' : State cfg AccountId β) : Decidable (TookEffect s s') :=
  inferInstanceAs (Decidable (_ ∨ _))

/-- One vote: the validator it is counted for, the observation, and the stakes it is counted
with. -/
structure Vote (AccountId : Type) where
  lpos : LposInterface AccountId
  validatorId : AccountId
  observation : Observation AccountId

/-- The pallet as a machine that reads votes. -/
def voteMachine (bridge : BridgeInterface AccountId β) :
    Machine (State cfg AccountId β) (Vote AccountId) (Observation AccountId) where
  step x s :=
    let s' := (submitObservation bridge x.lpos x.validatorId x.observation s).2
    (s', if TookEffect s s' then [x.observation] else [])

theorem VoteStep.effects {bridge : BridgeInterface AccountId β} {lpos : LposInterface AccountId}
    {v : AccountId} {o : Observation AccountId} {s s' : State cfg AccountId β}
    {os : List (Observation AccountId)} (h : VoteStep bridge lpos v o s s' os) :
    (if TookEffect s s' then [o] else []) = os := by
  cases h with
  | refused _ => simp [TookEffect]
  | counted _ _ _ => simp [TookEffect, State.withVote]
  | installed _ _ _ _ _ => simp [TookEffect, State.withVote, State.installed]
  | relayed _ _ _ _ _ => simp [TookEffect, State.withVote, State.relayed]

/-- **A step of the machine is one of the four vote steps.** -/
theorem voteMachine_step (bridge : BridgeInterface AccountId β) (x : Vote AccountId)
    (s : State cfg AccountId β) :
    VoteStep bridge x.lpos x.validatorId x.observation s ((voteMachine bridge).step x s).1
      ((voteMachine bridge).step x s).2 := by
  rcases submitObservation_step bridge x.lpos x.validatorId x.observation s with
    ⟨e, hrefused, he⟩ | ⟨s', os, hok, hstep⟩
  · have hstep : VoteStep bridge x.lpos x.validatorId x.observation s s [] := .refused hrefused
    simpa only [voteMachine, he, hstep.effects] using hstep
  · simpa only [voteMachine, hok, hstep.effects] using hstep

/-! ## Calls -/

/-- A call of `submit_observations`, with what the other pallets hold when it is dispatched. -/
structure Call (Public AccountId : Type) where
  lpos : LposInterface AccountId
  payload : ObservationsPayload Public AccountId

/-- The validator the call is counted for. -/
def Call.validatorId (c : Call Public AccountId) : Option AccountId :=
  c.lpos.isActiveValidator keyType c.payload.keyData

/-- The votes of a call: none unless its key belongs to a current validator. -/
def Call.votes (c : Call Public AccountId) : List (Vote AccountId) :=
  match c.validatorId with
  | some v => c.payload.observations.map fun o => ⟨c.lpos, v, o⟩
  | none => []

omit [DecidableEq AccountId] in
theorem Call.mem_votes {c : Call Public AccountId} {x : Vote AccountId} :
    x ∈ c.votes ↔ x.lpos = c.lpos ∧ c.validatorId = some x.validatorId ∧
      x.observation ∈ c.payload.observations := by
  obtain ⟨lpos, v, o⟩ := x
  unfold Call.votes
  cases hv : c.validatorId with
  | none => simp
  | some w =>
    simp only [List.mem_map, Vote.mk.injEq, Option.some.injEq]
    constructor
    · rintro ⟨o', ho', rfl, rfl, rfl⟩
      exact ⟨rfl, rfl, ho'⟩
    · rintro ⟨rfl, rfl, ho⟩
      exact ⟨o, ho, rfl, rfl, rfl⟩

/-- The pallet as a machine that reads calls. -/
def callMachine (bridge : BridgeInterface AccountId β) :
    Machine (State cfg AccountId β) (Call Public AccountId) (Observation AccountId) where
  step c s :=
    ((submitObservations bridge c.lpos .none c.payload s).2,
      (voteMachine bridge).log c.votes s)

theorem submitEach_apply (bridge : BridgeInterface AccountId β) (lpos : LposInterface AccountId)
    (v : AccountId) : ∀ (os : List (Observation AccountId)) (s : State cfg AccountId β),
    submitEach bridge lpos v os s
      = (.ok (), (voteMachine bridge).run (os.map fun o => ⟨lpos, v, o⟩) s)
  | [], _ => rfl
  | _ :: os, _ => submitEach_apply bridge lpos v os _

/-- **A call leaves the state that its votes lead to, one by one.** -/
theorem submitObservations_state (bridge : BridgeInterface AccountId β)
    (c : Call Public AccountId) (s : State cfg AccountId β) :
    (submitObservations bridge c.lpos .none c.payload s).2 = (voteMachine bridge).run c.votes s := by
  unfold submitObservations Call.votes Call.validatorId
  cases hv : c.lpos.isActiveValidator keyType c.payload.keyData with
  | none => simp [ensureNone, bind_apply, okOr, Machine.run]
  | some v => simp [ensureNone, bind_apply, okOr, submitEach_apply]

theorem callMachine_eq (bridge : BridgeInterface AccountId β) :
    (callMachine bridge : Machine (State cfg AccountId β) (Call Public AccountId) _)
      = (voteMachine bridge).unfolding Call.votes := by
  unfold callMachine Machine.unfolding
  congr
  funext c s
  rw [submitObservations_state]

theorem callMachine_run (bridge : BridgeInterface AccountId β)
    (cs : List (Call Public AccountId)) (s : State cfg AccountId β) :
    (callMachine bridge).run cs s = (voteMachine bridge).run (cs.flatMap Call.votes) s := by
  rw [callMachine_eq, Machine.unfolding_run]

theorem callMachine_log (bridge : BridgeInterface AccountId β)
    (cs : List (Call Public AccountId)) (s : State cfg AccountId β) :
    (callMachine bridge).log cs s = (voteMachine bridge).log (cs.flatMap Call.votes) s := by
  rw [callMachine_eq, Machine.unfolding_log]

/-! ## A small chain

Validators are numbers, and the key of validator `n` is the single byte `n`. -/

namespace Sample

def config : Config := ⟨10, 5, 0⟩

/-- The validators below `n`, with a stake of one each. -/
def equalStakes (n : Nat) : LposInterface Nat where
  isActiveValidator _ keyData := (keyData.head?.map UInt8.toNat).filter fun v => v < n
  activeStakeOf v := if v < n then 1 else 0
  activeTotalStake := some n

/-- A bridge that accepts everything. -/
def idleBridge : BridgeInterface Nat Unit where
  unlock _ _ _ _ := pure ()
  mintNep141 _ _ _ _ _ := pure ()
  unlockNonfungible _ _ _ _ _ := pure ()

def burnAt (i : Nat) : Observation Nat := .burn ⟨i, [], 0, 0⟩

/-- A call of validator `v`, one of `n`. -/
def callOf (n : Nat) (v : UInt8) (os : List (Observation Nat)) : Call Unit Nat :=
  ⟨equalStakes n, ⟨(), [v], 0, os⟩⟩

end Sample

end OctopusPallets.Appchain
