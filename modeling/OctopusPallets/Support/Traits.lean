import OctopusPallets.Infra.Dispatch
import OctopusPallets.Support.DispatchError

/-!
# Interfaces between the pallets

Each pallet is written against the traits of the support crate. An interface that only reads is a
record of the values it returns; one that also writes is a record of calls over the storage of
the pallets behind it.
-/

namespace OctopusPallets

open Infra

/-- `sp_core::crypto::KeyTypeId`, four bytes. -/
structure KeyTypeId where
  byte₀ : UInt8
  byte₁ : UInt8
  byte₂ : UInt8
  byte₃ : UInt8
deriving DecidableEq

inductive PayloadType where
  | lock
  | burnAsset
  | planNewEra
  | eraPayout
  | lockNft
deriving DecidableEq

structure AppchainInterface (AccountId : Type) where
  isActivated : Bool
  nextSetId : Nat
  /-- A new set of validators. -/
  plannedValidators : List (AccountId × Nat)

structure BridgeInterface (AccountId β : Type) where
  unlock : (senderId : List UInt8) → (receiver : AccountId) → (amount sequence : Nat) →
    Dispatch DispatchError β Unit
  mintNep141 : (tokenId senderId : List UInt8) → (receiver : AccountId) →
    (amount sequence : Nat) → Dispatch DispatchError β Unit
  unlockNonfungible : (collection item : Nat) → (senderId : List UInt8) →
    (receiver : AccountId) → (sequence : Nat) → Dispatch DispatchError β Unit

structure LposInterface (AccountId : Type) where
  isActiveValidator : KeyTypeId → List UInt8 → Option AccountId
  activeStakeOf : AccountId → Nat
  activeTotalStake : Option Nat

structure UpwardMessagesInterface (AccountId μ : Type) where
  submit : (who : Option AccountId) → PayloadType → (payload : List UInt8) →
    Dispatch DispatchError μ Nat

/-! ## Traits of the framework -/

/-- What a transfer may do to the account it takes from. -/
inductive ExistenceRequirement where
  | keepAlive
  | allowDeath

/-- `frame_support::traits::Currency`. -/
structure Currency (AccountId χ : Type) where
  transfer : (source dest : AccountId) → (value : Nat) → ExistenceRequirement →
    Dispatch DispatchError χ Unit
  depositCreating : (who : AccountId) → (value : Nat) → χ → χ

/-- `fungibles::Mutate`. -/
structure Fungibles (AccountId φ : Type) where
  mintInto : (asset : Nat) → (who : AccountId) → (amount : Nat) → Dispatch DispatchError φ Unit
  /-- Returns the amount burned. -/
  burnFrom : (asset : Nat) → (who : AccountId) → (amount : Nat) → Dispatch DispatchError φ Nat

/-- `nonfungibles::Inspect` and `nonfungibles::Transfer`. -/
structure Nonfungibles (AccountId ν : Type) where
  owner : ν → (collection item : Nat) → Option AccountId
  transfer : (collection item : Nat) → (destination : AccountId) → Dispatch DispatchError ν Unit

end OctopusPallets
