import OctopusPallets.Infra.BoundedVec
import OctopusPallets.Infra.FixedWidth
import OctopusPallets.Support.Traits
import OctopusPallets.Appchain.Types
import Mathlib.Logic.Function.Basic

/-!
# The appchain pallet

The on-chain part of `appchain/src/lib.rs`: the vote book of observations and the calls that
write it.

Storage maps are functions from keys to values. Unchecked `u32` and `u128` arithmetic wraps, as in
the release build of a runtime. The pallets behind `T::BridgeInterface` have a storage of any type
`β`, which only bridge calls touch.
-/

namespace OctopusPallets.Appchain

open Infra Infra.Dispatch Infra.FixedWidth

/-- `KEY_TYPE`: the bytes `octo`. -/
def keyType : KeyTypeId := ⟨0x6f, 0x63, 0x74, 0x6f⟩

/-- `MaxObservations`. -/
def maxObservations : Nat := 100

structure Config where
  /-- The limit for request notification histories. -/
  requestEventLimit : Nat
  maxValidators : Nat
  /-- The base priority of unsigned transactions. -/
  unsignedPriority : Nat

inductive Event (AccountId : Type) where
  /-- A new set of validators is waiting to be changed. -/
  | newPlannedValidators (setId : Nat) (validators : List (AccountId × Nat))
  /-- An `amount` unlock to `receiver` from `sender` failed. -/
  | unlockFailed (sender : List UInt8) (receiver : AccountId) (amount sequence : Nat)
  | mintNep141Failed (tokenId sender : List UInt8) (receiver : AccountId) (amount sequence : Nat)
  | unlockNonfungibleFailed (collection item : Nat) (sender : List UInt8) (receiver : AccountId)
      (sequence : Nat)
deriving DecidableEq

/-- The storage of the pallet, its events, and the storage behind the bridge interface. -/
structure State (cfg : Config) (AccountId β : Type) where
  anchorContract : List UInt8
  isActivated : Bool
  nextSetId : Nat
  plannedValidators : List (AccountId × Nat)
  nextNotificationId : Nat
  observations : ObservationType × Nat → BoundedVec (Observation AccountId) maxObservations
  observing : Observation AccountId → BoundedVec AccountId cfg.maxValidators
  notificationHistory : Nat → Option NotificationResult
  events : List (Event AccountId)
  bridge : β

variable {cfg : Config} {AccountId Public β : Type}

/-- `GenesisBuild::build` on empty storage. Set 0 is already in the genesis. -/
def genesisBuild (cfg : Config) (anchorContract : List UInt8)
    (validators : List (AccountId × Nat)) (bridge : β) : State cfg AccountId β where
  anchorContract := anchorContract
  isActivated := false
  nextSetId := 1
  plannedValidators := validators
  nextNotificationId := 0
  observations := fun _ => .empty
  observing := fun _ => .empty
  notificationHistory := fun _ => none
  events := []
  bridge := bridge

/-- `impl AppchainInterface for Pallet`. -/
def State.appchainInterface (s : State cfg AccountId β) : AppchainInterface AccountId where
  isActivated := s.isActivated
  nextSetId := s.nextSetId
  plannedValidators := s.plannedValidators

/-! ## Counters -/

def increaseNextNotificationId : Dispatch Error (State cfg AccountId β) Unit := do
  let nextId ← load State.nextNotificationId
  let nextId ← okOr (checkedAdd 32 nextId 1) .nextNotificationIdOverflow
  store fun s => { s with nextNotificationId := nextId }

def increaseNextSetId : Dispatch Error (State cfg AccountId β) Unit := do
  let nextId ← load State.nextSetId
  let nextId ← okOr (checkedAdd 32 nextId 1) .nextSetIdOverflow
  store fun s => { s with nextSetId := nextId }

def checkObservation (observationType : ObservationType) (obsId : Nat) :
    Dispatch Error (State cfg AccountId β) Unit :=
  match observationType with
  | .updateValidatorSet => do
    let nextSetId ← load State.nextSetId
    if obsId ≠ nextSetId then fail .wrongSetId
  | _ => do
    let nextNotificationId ← load State.nextNotificationId
    let limit := cfg.requestEventLimit
    if obsId < nextNotificationId ∨ wrappingAdd 32 nextNotificationId limit ≤ obsId then
      fail .invalidNotificationId

/-! ## Executing an observation -/

def depositEvent (event : Event AccountId) : Dispatch Error (State cfg AccountId β) Unit :=
  store fun s => { s with events := s.events ++ [event] }

def processUpdateValidatorSet (valSet : ValidatorSet AccountId) :
    Dispatch Error (State cfg AccountId β) Unit := do
  let validators := valSet.validators.map fun v => (v.validatorIdInAppchain, v.totalStake)
  store fun s => { s with plannedValidators := validators }
  let setId ← load State.nextSetId
  depositEvent (.newPlannedValidators setId validators)
  -- an overflow here fails the call after the list was written
  increaseNextSetId

/--
What the three notification branches of `submit_observation` share: the counter moves first, then
the bridge is called, and a failure of the bridge is recorded instead of returned.
-/
def processNotification (obsId : Nat) (call : Dispatch DispatchError β Unit)
    (failed : Event AccountId) (failure : NotificationResult) :
    Dispatch Error (State cfg AccountId β) Unit := do
  increaseNextNotificationId
  let result ← attempt (zoom State.bridge (fun b s => { s with bridge := b }) call)
  match result with
  | .ok _ =>
    store fun s =>
      { s with notificationHistory := Function.update s.notificationHistory obsId (some .success) }
  | .error _ => do
    depositEvent failed
    store fun s =>
      { s with notificationHistory := Function.update s.notificationHistory obsId (some failure) }

def processBurn (bridge : BridgeInterface AccountId β) (event : BurnEvent AccountId) :
    Dispatch Error (State cfg AccountId β) Unit :=
  processNotification event.index
    (bridge.unlock event.senderId event.receiver event.amount event.index)
    (.unlockFailed event.senderId event.receiver event.amount event.index) .unlockFailed

def processLockAsset (bridge : BridgeInterface AccountId β) (event : LockAssetEvent AccountId) :
    Dispatch Error (State cfg AccountId β) Unit :=
  processNotification event.index
    (bridge.mintNep141 event.tokenId event.senderId event.receiver event.amount event.index)
    (.mintNep141Failed event.tokenId event.senderId event.receiver event.amount event.index)
    .assetMintFailed

def processBurnNft (bridge : BridgeInterface AccountId β) (event : BurnNftEvent AccountId) :
    Dispatch Error (State cfg AccountId β) Unit :=
  processNotification event.index
    (bridge.unlockNonfungible event.collection event.item event.senderId event.receiver
      event.index)
    (.unlockNonfungibleFailed event.collection event.item event.senderId event.receiver
      event.index)
    .nftUnlockFailed

def processObservation (bridge : BridgeInterface AccountId β) :
    Observation AccountId → Dispatch Error (State cfg AccountId β) Unit
  | .updateValidatorSet valSet => processUpdateValidatorSet valSet
  | .burn event => processBurn bridge event
  | .lockAsset event => processLockAsset bridge event
  | .burnNft event => processBurnNft bridge event

/-! ## Voting -/

/-- `3 * stake > 2 * total_stake` on `u128`. -/
def twoThirds (stake totalStake : Nat) : Bool :=
  wrappingMul 128 2 totalStake < wrappingMul 128 3 stake

/-- The stake of a list of voters, summed as `u128`. -/
def stakeOf (lpos : LposInterface AccountId) (voters : List AccountId) : Nat :=
  wrappingSum 128 (voters.map lpos.activeStakeOf)

variable [DecidableEq AccountId]

/-- The vote is entered in `Observations` and in `Observing`, each with its own bound. -/
def registerVote (validatorId : AccountId) (observation : Observation AccountId) :
    Dispatch Error (State cfg AccountId β) Unit := do
  let key := (observation.getObservationType, observation.observationIndex)
  let obs ← load fun s => (s.observations key).tryPushAbsent observation
  let obs ← okOr obs .observationsExceededLimit
  store fun s => { s with observations := Function.update s.observations key obs }
  let vals ← load fun s => (s.observing observation).tryPushAbsent validatorId
  let vals ← okOr vals .observationsExceededLimit
  store fun s => { s with observing := Function.update s.observing observation vals }

/--
If the observation already exists in `Observations`, then the only thing to do is vote for this
observation.
-/
def submitObservation (bridge : BridgeInterface AccountId β) (lpos : LposInterface AccountId)
    (validatorId : AccountId) (observation : Observation AccountId) :
    Dispatch Error (State cfg AccountId β) Unit :=
  transactional do
    checkObservation observation.getObservationType observation.observationIndex
    registerVote validatorId observation
    let totalStake ← okOr lpos.activeTotalStake .invalidActiveTotalStake
    let voters ← load fun s => (s.observing observation).val
    if twoThirds (stakeOf lpos voters) totalStake then
      processObservation bridge observation

/-- The loop of `submit_observations`. An error of one observation is only logged. -/
def submitEach (bridge : BridgeInterface AccountId β) (lpos : LposInterface AccountId)
    (valId : AccountId) :
    List (Observation AccountId) → Dispatch DispatchError (State cfg AccountId β) Unit
  | [] => pure ()
  | observation :: rest => do
    let _ ← attempt (submitObservation bridge lpos valId observation)
    submitEach bridge lpos valId rest

def ensureNone : Origin AccountId → Dispatch DispatchError (State cfg AccountId β) Unit
  | .none => pure ()
  | _ => fail .badOrigin

/-- Submit observations. The signature argument of the call is not read here: `validateUnsigned`
checks it before the call is dispatched. -/
def submitObservations (bridge : BridgeInterface AccountId β) (lpos : LposInterface AccountId)
    (origin : Origin AccountId) (payload : ObservationsPayload Public AccountId) :
    Dispatch DispatchError (State cfg AccountId β) Unit := do
  ensureNone origin
  let valId ← okOr (lpos.isActiveValidator keyType payload.keyData) (.appchain .notValidator)
  submitEach bridge lpos valId payload.observations

/-! ## The calls of the pallet -/

inductive PalletCall (Public AccountId Signature : Type) where
  | submitObservations (payload : ObservationsPayload Public AccountId) (signature : Signature)
  | forceSetIsActivated (isActivated : Bool)
  | forceSetNextSetId (nextSetId : Nat)
  | forceSetPlannedValidators (validators : List (AccountId × Nat))
  | forceSetNextNotificationId (nextNotificationId : Nat)

def ensureRoot : Origin AccountId → Dispatch DispatchError (State cfg AccountId β) Unit
  | .root => pure ()
  | _ => fail .badOrigin

/-- What the four `force_set` calls share: root writes one value. -/
def forceSet (origin : Origin AccountId) (put : State cfg AccountId β → State cfg AccountId β) :
    Dispatch DispatchError (State cfg AccountId β) Unit := do
  ensureRoot origin
  store put

def PalletCall.dispatch {Signature : Type} (bridge : BridgeInterface AccountId β)
    (lpos : LposInterface AccountId) (origin : Origin AccountId) :
    PalletCall Public AccountId Signature → Dispatch DispatchError (State cfg AccountId β) Unit
  | .submitObservations payload _ => Appchain.submitObservations bridge lpos origin payload
  | .forceSetIsActivated isActivated => forceSet origin fun s => { s with isActivated }
  | .forceSetNextSetId nextSetId => forceSet origin fun s => { s with nextSetId }
  | .forceSetPlannedValidators validators =>
    forceSet origin fun s => { s with plannedValidators := validators }
  | .forceSetNextNotificationId nextNotificationId =>
    forceSet origin fun s => { s with nextNotificationId }

end OctopusPallets.Appchain
