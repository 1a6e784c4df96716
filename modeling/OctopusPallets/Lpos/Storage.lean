import OctopusPallets.Support.Traits
import Mathlib.Data.List.AList

/-!
# What the lpos pallet stores, and what others read of it

The storage of `lpos/src/lib.rs`, the part of `pallet_session` behind its `SessionInterface`, and
the `LposInterface` that the appchain pallet votes with.
-/

namespace OctopusPallets.Lpos

variable {AccountId : Type}

/-- Information regarding the active era. -/
structure ActiveEraInfo where
  /-- Index of era. -/
  index : Nat
  /-- Anchor era number of this era. -/
  setId : Nat
  /-- Moment of start in milliseconds, set in the first `on_finalize` of the era. -/
  start : Option Nat
deriving DecidableEq

/-- Reward points of an era. -/
structure EraRewardPoints (AccountId : Type) where
  /-- Total number of points. -/
  total : Nat
  /-- The reward points earned by a given validator. -/
  individual : AList fun _ : AccountId => Nat

instance : Inhabited (EraRewardPoints AccountId) := ⟨⟨0, ∅⟩⟩

inductive Event (AccountId : Type) where
  /-- Notifies the mainchain to prepare the next era. -/
  | planNewEra (eraIndex : Nat)
  /-- Failed to notify the mainchain to prepare the next era. -/
  | planNewEraFailed
  /-- Trigger new era. -/
  | triggerNewEra
  /-- Notifies the mainchain to pay the validator rewards of `eraIndex`. -/
  | eraPayout (eraIndex : Nat) (excludedValidators : List AccountId)
  /-- Failed to notify the mainchain to pay the validator rewards of `eraIndex`. -/
  | eraPayoutFailed (eraIndex : Nat)
  /-- An old slashing report from a prior era was discarded. -/
  | oldSlashingReportDiscarded (sessionIndex : Nat)
deriving DecidableEq

/-- The two lines the session hooks send to `frame_support::print`. -/
inductive Printed where
  | startSessionIndexMissing
  | sessionSkipped
deriving DecidableEq

/-- `sp_staking::offence::Kind`. -/
abbrev Kind : Type := List UInt8

/-- The storage of the pallet, with its events and what it printed. -/
structure Storage (AccountId : Type) where
  historyDepth : Nat
  currentEra : Option Nat
  activeEra : Option ActiveEraInfo
  erasStartSessionIndex : Nat → Option Nat
  /-- The double map, one finite map for each era prefix. -/
  erasStakers : Nat → AList fun _ : AccountId => Nat
  erasValidatorReward : Nat → Option Nat
  erasRewardPoints : Nat → EraRewardPoints AccountId
  erasTotalStake : Nat → Nat
  bondedEras : List (Nat × Nat)
  currentPlannedSession : Nat
  eraPayout : Nat
  offenders : AList fun _ : Kind × AccountId => Nat
  events : List (Event AccountId)
  printed : List Printed

/-- `GenesisBuild::build` on empty storage. -/
def genesisBuild (historyDepth eraPayout : Nat) : Storage AccountId where
  historyDepth := historyDepth
  currentEra := none
  activeEra := none
  erasStartSessionIndex := fun _ => none
  erasStakers := fun _ => ∅
  erasValidatorReward := fun _ => none
  erasRewardPoints := fun _ => default
  erasTotalStake := fun _ => 0
  bondedEras := []
  currentPlannedSession := 0
  eraPayout := eraPayout
  offenders := ∅
  events := []
  printed := []

/-! ## The session pallet -/

/-- What `pallet_session` holds: the current validators, the owner of each registered session key,
and the conversion from an account to its validator id. -/
structure Session (AccountId : Type) where
  validators : List AccountId
  keyOwner : KeyTypeId → List UInt8 → Option AccountId
  validatorIdOf : AccountId → Option AccountId

variable [DecidableEq AccountId]

/-- `SessionInterface::is_active_validator`. -/
def Session.isActiveValidator (session : Session AccountId) (id : KeyTypeId)
    (keyData : List UInt8) : Option AccountId :=
  match session.keyOwner id keyData with
  | none => none
  | some who => session.validators.find? fun v => session.validatorIdOf v = some who

theorem Session.keyOwner_of_isActiveValidator {session : Session AccountId} {id : KeyTypeId}
    {keyData : List UInt8} {v : AccountId} (h : session.isActiveValidator id keyData = some v) :
    v ∈ session.validators ∧ session.keyOwner id keyData = session.validatorIdOf v ∧
      (session.validatorIdOf v).isSome := by
  unfold Session.isActiveValidator at h
  cases howner : session.keyOwner id keyData with
  | none =>
    rw [howner] at h
    cases h
  | some who =>
    rw [howner] at h
    have hv := List.find?_some h
    simp only [decide_eq_true_eq] at hv
    exact ⟨List.mem_of_find?_eq_some h, hv.symm, by rw [hv]; rfl⟩

/-! ## The interface -/

/-- The stake of `who` in era `era`: 0 when there is no entry. -/
def Storage.stakeIn (s : Storage AccountId) (era : Nat) (who : AccountId) : Nat :=
  ((s.erasStakers era).lookup who).getD 0

/-- `impl LposInterface for Pallet`. -/
def lposInterface (session : Session AccountId) (s : Storage AccountId) :
    LposInterface AccountId where
  isActiveValidator := session.isActiveValidator
  activeStakeOf who := (s.activeEra.map fun activeEra => s.stakeIn activeEra.index who).getD 0
  activeTotalStake := s.activeEra.map fun activeEra => s.erasTotalStake activeEra.index

end OctopusPallets.Lpos
