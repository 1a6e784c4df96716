import Mathlib.Tactic.Common

/-!
# Observations

What a validator reports about the mainchain, as in `appchain/src/types.rs`. `u32` and `u128`
fields are `Nat`; byte strings are lists of bytes.
-/

namespace OctopusPallets.Appchain

/-- Validator of appchain. -/
structure Validator (AccountId : Type) where
  validatorIdInAppchain : AccountId
  /-- The total stake of this validator in mainchain's staking system. -/
  totalStake : Nat
deriving DecidableEq

structure ValidatorSet (AccountId : Type) where
  /-- The anchor era that this set belongs to. -/
  setId : Nat
  validators : List (Validator AccountId)
deriving DecidableEq

/-- Appchain token burn event. -/
structure BurnEvent (AccountId : Type) where
  index : Nat
  senderId : List UInt8
  receiver : AccountId
  amount : Nat
deriving DecidableEq

/-- Token locked event. -/
structure LockAssetEvent (AccountId : Type) where
  index : Nat
  tokenId : List UInt8
  senderId : List UInt8
  receiver : AccountId
  amount : Nat
deriving DecidableEq

/-- Appchain token lock event. -/
structure BurnNftEvent (AccountId : Type) where
  index : Nat
  senderId : List UInt8
  receiver : AccountId
  collection : Nat
  item : Nat
deriving DecidableEq

inductive NotificationResult where
  | success
  | unlockFailed
  | assetMintFailed
  | assetGetFailed
  | nftUnlockFailed
deriving DecidableEq

inductive ObservationType where
  | updateValidatorSet
  | burn
  | lockAsset
  | burnNft
deriving DecidableEq

inductive Observation (AccountId : Type) where
  | updateValidatorSet (valSet : ValidatorSet AccountId)
  | lockAsset (event : LockAssetEvent AccountId)
  | burn (event : BurnEvent AccountId)
  | burnNft (event : BurnNftEvent AccountId)
deriving DecidableEq

namespace Observation

variable {AccountId : Type}

def getObservationType : Observation AccountId → ObservationType
  | .updateValidatorSet _ => .updateValidatorSet
  | .burn _ => .burn
  | .lockAsset _ => .lockAsset
  | .burnNft _ => .burnNft

def observationIndex : Observation AccountId → Nat
  | .updateValidatorSet valSet => valSet.setId
  | .lockAsset event => event.index
  | .burn event => event.index
  | .burnNft event => event.index

/-- Everything but a validator set is a notification. -/
def IsNotification (o : Observation AccountId) : Prop :=
  o.getObservationType ≠ .updateValidatorSet

instance (o : Observation AccountId) : Decidable o.IsNotification :=
  inferInstanceAs (Decidable (_ ≠ _))

end Observation

/-- The body of the unsigned extrinsic that a validator's offchain worker signs. -/
structure ObservationsPayload (Public AccountId : Type) where
  «public» : Public
  keyData : List UInt8
  blockNumber : Nat
  observations : List (Observation AccountId)

end OctopusPallets.Appchain
