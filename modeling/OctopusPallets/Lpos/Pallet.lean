import OctopusPallets.Infra.FixedWidth
import OctopusPallets.Infra.Utf8
import OctopusPallets.Support.Payloads
import OctopusPallets.Lpos.Storage
import Mathlib.Logic.Function.Basic

/-!
# The lpos pallet

The session hooks of `lpos/src/lib.rs`, its calls and its event handlers. A plain arithmetic
operator wraps or aborts, as the build says. Maps are read in the order of their entries here, not
in that of their hashed keys.
-/

namespace OctopusPallets.Lpos

open Infra Infra.Dispatch Infra.FixedWidth

/-- The associated types of the pallet, with the storages behind them. -/
structure Config (AccountId : Type) where
  build : Build
  /-- The account of `PalletId`. -/
  accountId : AccountId
  /-- The SCALE encoding of an account. -/
  encode : AccountId → List UInt8
  /-- Number of sessions per era. -/
  sessionsPerEra : Nat
  /-- Number of eras that staked funds must remain bonded for. -/
  bondingDuration : Nat
  /-- The width of the balance of `Currency`, in bits. -/
  balanceBits : Nat
  Balances : Type
  currency : Currency AccountId Balances
  Messages : Type
  upwardMessages : UpwardMessagesInterface AccountId Messages
  Historical : Type
  /-- Prune historical session tries up to but not including the given index. -/
  pruneHistoricalUpTo : Nat → Historical → Historical

/-- What the pallet reads of the others while a block is executed. -/
structure Context (AccountId : Type) where
  appchain : AppchainInterface AccountId
  /-- `UnixTime::now`, in milliseconds. -/
  now : Nat

variable {AccountId : Type}

/-- `saturated_into::<u64>`. -/
def Context.nowAsMillisU64 (ctx : Context AccountId) : Nat := min ctx.now (2 ^ 64 - 1)

structure State (T : Config AccountId) extends Storage AccountId where
  balances : T.Balances
  messages : T.Messages
  historical : T.Historical

variable {T : Config AccountId}

def depositEvent {ε : Type} (event : Event AccountId) : Dispatch ε (State T) Unit :=
  store fun s => { s with events := s.events ++ [event] }

/-- `frame_support::print`. -/
def print {ε : Type} (line : Printed) : Dispatch ε (State T) Unit :=
  store fun s => { s with printed := s.printed ++ [line] }

/-- The value of a plain operator. -/
def operator (value : Option Nat) : Dispatch Fault (State T) Nat := okOr value .abort

theorem operator_eq_ok {value : Option Nat} {n : Nat} {s s' : State T} :
    operator value s = (.ok n, s') ↔ value = some n ∧ s' = s :=
  okOr_eq_ok

theorem operator_cases (value : Option Nat) (s : State T) :
    (∃ n, operator value s = (.ok n, s)) ∨ operator value s = (.error .abort, s) := by
  cases value with
  | none => exact Or.inr rfl
  | some n => exact Or.inl ⟨n, rfl⟩

def onMessages {α : Type} (x : Dispatch DispatchError T.Messages α) :
    Dispatch DispatchError (State T) α :=
  zoom State.messages (fun messages s => { s with messages }) x

def lposError (e : Error) : Fault := .error (.lpos e)

/-- `map(|e| e + 1).unwrap_or(0)`. -/
def nextIndex (era : Option Nat) : Dispatch Fault (State T) Nat :=
  match era with
  | some era => operator (T.build.add 32 era 1)
  | none => pure 0

/-! ## Planning an era -/

/-- Clear all era information for given era. -/
def State.clearEraInformation (s : State T) (eraIndex : Nat) : State T :=
  { s with
    erasStakers := Function.update s.erasStakers eraIndex ∅
    erasValidatorReward := Function.update s.erasValidatorReward eraIndex none
    erasRewardPoints := Function.update s.erasRewardPoints eraIndex default
    erasTotalStake := Function.update s.erasTotalStake eraIndex 0
    erasStartSessionIndex := Function.update s.erasStartSessionIndex eraIndex none }

def clearOldEra : Option Nat → Dispatch Fault (State T) Unit
  | some oldEra => store fun s => s.clearEraInformation oldEra
  | none => pure ()

/-- `ErasStakers::insert`, one validator after the other: a later weight replaces an earlier one. -/
def insertStakers [DecidableEq AccountId] (validators : List (AccountId × Nat))
    (stakers : AList fun _ : AccountId => Nat) : AList fun _ : AccountId => Nat :=
  validators.foldl (fun stakers v => stakers.insert v.1 v.2) stakers

/-- The sum of the weights as `u128`, which stays at its maximum. -/
def saturatingTotal (validators : List (AccountId × Nat)) : Nat :=
  validators.foldl (fun total v => saturatingAdd 128 total v.2) 0

variable [DecidableEq AccountId]

/-- Store staking information for the new planned era. -/
def storeStakersInfo (validators : List (AccountId × Nat)) (newPlannedEra : Nat) :
    Dispatch Fault (State T) (List AccountId) := do
  let electedStashes := validators.map Prod.fst
  store fun s => { s with
    erasStakers := Function.update s.erasStakers newPlannedEra
      (insertStakers validators (s.erasStakers newPlannedEra)) }
  store fun s => { s with
    erasTotalStake := Function.update s.erasTotalStake newPlannedEra
      (saturatingTotal validators) }
  pure electedStashes

/-- Bump the current era, and store the session it starts with. -/
def planEra (startSessionIndex : Nat) : Dispatch Fault (State T) Nat := do
  let currentEra ← load fun s => s.currentEra
  let newPlannedEra ← nextIndex currentEra
  store fun s => { s with currentEra := some newPlannedEra }
  store fun s => { s with
    erasStartSessionIndex :=
      Function.update s.erasStartSessionIndex newPlannedEra (some startSessionIndex) }
  pure newPlannedEra

/-- Plan a new era. Returns the new validator set. -/
def triggerNewEra (startSessionIndex : Nat) (validators : List (AccountId × Nat)) :
    Dispatch Fault (State T) (List AccountId) := do
  let newPlannedEra ← planEra startSessionIndex
  -- Clean old era information.
  let historyDepth ← load fun s => s.historyDepth
  let kept ← operator (T.build.add 32 historyDepth 1)
  clearOldEra (checkedSub newPlannedEra kept)
  storeStakersInfo validators newPlannedEra

/-- Get planned validator set from the appchain pallet. -/
def tryTriggerNewEra (ctx : Context AccountId) (startSessionIndex : Nat) :
    Dispatch Fault (State T) (Option (List AccountId)) := do
  let validators := ctx.appchain.plannedValidators
  depositEvent .triggerNewEra
  let elected ← triggerNewEra startSessionIndex validators
  pure (some elected)

/-- The message of the last session of an era. -/
def submitPlanNewEra (ctx : Context AccountId) : Dispatch Fault (State T) Unit := do
  let nextSetId := ctx.appchain.nextSetId
  let payload ← okOr (PlanNewEraPayload.codec.tryToVec ⟨nextSetId⟩) .abort
  let res ← attempt (onMessages (T.upwardMessages.submit none .planNewEra payload))
  match res with
  | .ok _ => depositEvent (.planNewEra nextSetId)
  | .error _ => depositEvent .planNewEraFailed

/-- The start session of the current era, 0 if it is not stored. -/
def currentEraStart (currentEra : Nat) : Dispatch Fault (State T) Nat := do
  let start ← load fun s => s.erasStartSessionIndex currentEra
  match start with
  | some start => pure start
  | none => do
    print .startSessionIndexMissing
    pure 0

/-- The condition under which the mainchain is told to plan an era. -/
def isLastSession (T : Config AccountId) (eraLength : Nat) : Bool :=
  eraLength == T.sessionsPerEra - 1

/-- Plan a new session potentially trigger a new era. -/
def newSession (ctx : Context AccountId) (sessionIndex : Nat) :
    Dispatch Fault (State T) (Option (List AccountId)) := do
  let currentEra ← load fun s => s.currentEra
  match currentEra with
  | some currentEra => do
    let currentEraStartSessionIndex ← currentEraStart currentEra
    let eraLength := sessionIndex - currentEraStartSessionIndex
    if eraLength < T.sessionsPerEra then do
      if ctx.appchain.isActivated && isLastSession T eraLength then
        submitPlanNewEra ctx
      pure none
    else
      -- New era.
      tryTriggerNewEra ctx sessionIndex
  | none =>
    -- Set initial era.
    tryTriggerNewEra ctx sessionIndex

/-! ## Starting an era -/

/-- Increment the index of the active era, and reset its start. Returns the index. -/
def activateEra (ctx : Context AccountId) : Dispatch Fault (State T) Nat := do
  let nextSetId := ctx.appchain.nextSetId
  let activeEra ← load fun s => s.activeEra
  let newIndex ← nextIndex (activeEra.map ActiveEraInfo.index)
  let setId ← operator (T.build.sub 32 nextSetId 1)
  store fun s => { s with activeEra := some ⟨newIndex, setId, none⟩ }
  pure newIndex

/-- The first session that is still bonded. -/
def pruneHistorical : Option (Nat × Nat) → Dispatch Fault (State T) Unit
  | some (_, firstSession) =>
    store fun s => { s with historical := T.pruneHistoricalUpTo firstSession s.historical }
  | none => pure ()

/-- The entries before the first one to keep are counted in the source, but stay. -/
def startEra (ctx : Context AccountId) (startSession : Nat) : Dispatch Fault (State T) Unit := do
  let activeEra ← activateEra ctx
  store fun s => { s with bondedEras := s.bondedEras ++ [(activeEra, startSession)] }
  if T.bondingDuration < activeEra then
    let first ← load fun s => s.bondedEras.head?
    pruneHistorical first

/-- Start a session potentially starting an era. -/
def startSession (ctx : Context AccountId) (startSession : Nat) :
    Dispatch Fault (State T) Unit := do
  let activeEra ← load fun s => s.activeEra
  let nextActiveEra ← nextIndex (activeEra.map ActiveEraInfo.index)
  let nextActiveEraStartSessionIndex ← load fun s => s.erasStartSessionIndex nextActiveEra
  match nextActiveEraStartSessionIndex with
  | some start =>
    if start = startSession then
      startEra ctx startSession
    else if start < startSession then do
      print .sessionSkipped
      startEra ctx startSession
  | none => pure ()

/-! ## Ending an era -/

/-- The points below which a validator counts as not working. -/
def expectPoints (total validators : Nat) : Dispatch Fault (State T) Nat := do
  -- A division by zero aborts in every build.
  ensure (validators % 2 ^ 32 != 0) .abort
  let points ← operator (T.build.mul 32 (total / (validators % 2 ^ 32)) 80)
  pure (points / 100)

/-- Get exclude validators. -/
def getExcludeValidators (index : Nat) : Dispatch Fault (State T) (List AccountId) := do
  let validators ← load fun s => (s.erasStakers index).keys
  let eraRewardPoints ← load fun s => s.erasRewardPoints index
  if eraRewardPoints.individual.entries.isEmpty then
    -- All validators did not produce blocks, so they should be excluded.
    pure validators
  else do
    let expectPoints ← expectPoints eraRewardPoints.total validators.length
    let qualified := eraRewardPoints.individual.entries.filter fun p => expectPoints ≤ p.2
    pure (validators.filter fun v => !(qualified.map Sigma.fst).contains v)

/-- An entry of `Offenders` as it is sent. -/
def offenderOf (encode : AccountId → List UInt8) (entry : Sigma fun _ : Kind × AccountId => Nat) :
    Offender where
  kind := String.ofList (Utf8.trim (Utf8.fromUtf8Lossy entry.1.1))
  who := hexFormat (encode entry.1.2)
  offences := entry.2

/-- `Offenders::drain`. -/
def drainOffenders : Dispatch Fault (State T) (List Offender) := do
  let offenders ← load fun s => s.offenders.entries
  store fun s => { s with offenders := ∅ }
  pure (offenders.map (offenderOf T.encode))

/-- The part of `end_era` behind its guards. -/
def payoutEra (ctx : Context AccountId) (activeEra : ActiveEraInfo) (activeEraStart : Nat) :
    Dispatch Fault (State T) Unit := do
  let _eraDuration ← operator (T.build.sub 64 ctx.nowAsMillisU64 activeEraStart)
  let validatorPayout ← load fun s => s.eraPayout
  -- Set ending era reward.
  store fun s => { s with
    erasValidatorReward :=
      Function.update s.erasValidatorReward activeEra.index (some validatorPayout) }
  let excludedValidators ← getExcludeValidators activeEra.index
  let offenders ← drainOffenders
  let message : EraPayoutPayload :=
    ⟨activeEra.setId, excludedValidators.map fun v => hexFormat (T.encode v), offenders⟩
  -- the reward is set and the offenders are drained already when one of these two fails
  let amount ← okOr (checkedInto T.balanceBits validatorPayout) (lposError .amountOverflow)
  store fun s => { s with balances := T.currency.depositCreating T.accountId amount s.balances }
  let payload ← okOr (EraPayoutPayload.codec.tryToVec message) (lposError .borshSerializeFailed)
  let res ← attempt (onMessages (T.upwardMessages.submit none .eraPayout payload))
  match res with
  | .ok _ => depositEvent (.eraPayout activeEra.setId excludedValidators)
  | .error _ => depositEvent (.eraPayoutFailed activeEra.setId)

/-- Compute payout for era. -/
def endEra (ctx : Context AccountId) (activeEra : ActiveEraInfo) (_sessionIndex : Nat) :
    Dispatch Fault (State T) Unit := do
  let eraPayout ← load fun s => s.eraPayout
  if !ctx.appchain.isActivated || eraPayout == 0 then pure ()
  else
    match activeEra.start with
    | some activeEraStart => do
      let reward ← load fun s => s.erasValidatorReward activeEra.index
      if reward.isSome then pure () else payoutEra ctx activeEra activeEraStart
    | none => pure ()

/-- The active era, if the session after `sessionIndex` starts the next one. -/
def endingEra (sessionIndex : Nat) : Dispatch Fault (State T) (Option ActiveEraInfo) := do
  let activeEra ← load fun s => s.activeEra
  match activeEra with
  | some activeEra => do
    let nextActiveEra ← operator (T.build.add 32 activeEra.index 1)
    let nextActiveEraStartSessionIndex ← load fun s => s.erasStartSessionIndex nextActiveEra
    match nextActiveEraStartSessionIndex with
    | some start => do
      let nextSession ← operator (T.build.add 32 sessionIndex 1)
      pure (if start = nextSession then some activeEra else none)
    | none => pure none
  | none => pure none

/-- End a session potentially ending an era. -/
def endSession (ctx : Context AccountId) (sessionIndex : Nat) : Dispatch Fault (State T) Unit := do
  let ending ← endingEra sessionIndex
  match ending with
  | some activeEra => endEra ctx activeEra sessionIndex
  | none => pure ()

/-! ## The hooks of the session pallet -/

/-- `impl SessionManager for Pallet`: the three hooks, and the one of the genesis. -/
def SessionManager.newSession (ctx : Context AccountId) (newIndex : Nat) :
    Dispatch Fault (State T) (Option (List AccountId)) := do
  store fun s => { s with currentPlannedSession := newIndex }
  Lpos.newSession ctx newIndex

def SessionManager.newSessionGenesis (ctx : Context AccountId) (newIndex : Nat) :
    Dispatch Fault (State T) (Option (List AccountId)) := do
  store fun s => { s with currentPlannedSession := newIndex }
  Lpos.newSession ctx newIndex

def SessionManager.startSession (ctx : Context AccountId) (startIndex : Nat) :
    Dispatch Fault (State T) Unit :=
  Lpos.startSession ctx startIndex

/-- An error is only logged, and what was written before it stays. -/
def SessionManager.endSession (ctx : Context AccountId) (endIndex : Nat) :
    Dispatch Fault (State T) Unit := do
  let res ← attempt (Lpos.endSession ctx endIndex)
  match res with
  | .ok _ => pure ()
  | .error (.error _) => pure ()
  | .error .abort => fail .abort

/-- `validators_with_exposure`, which the hooks of `historical` add to a new set. -/
def validatorsWithExposure (s : Storage AccountId) (validators : List AccountId) :
    List (AccountId × Nat) :=
  let currentEra := s.currentEra.getD 0
  validators.map fun v => (v, s.stakeIn currentEra v)

/-! ## Points, offences and calls -/

/-- One pair of `reward_by_ids`. -/
def rewardOne (build : Build) (eraRewards : EraRewardPoints AccountId) (p : AccountId × Nat) :
    Option (EraRewardPoints AccountId) := do
  let points ← build.add 32 ((eraRewards.individual.lookup p.1).getD 0) p.2
  let total ← build.add 32 eraRewards.total p.2
  pure ⟨total, eraRewards.individual.insert p.1 points⟩

/-- Add reward points to validators. -/
def rewardByIds (validatorsPoints : List (AccountId × Nat)) : Dispatch Fault (State T) Unit := do
  let activeEra ← load fun s => s.activeEra
  match activeEra with
  | some activeEra => do
    let eraRewards ← load fun s => s.erasRewardPoints activeEra.index
    let eraRewards ← okOr (validatorsPoints.foldlM (rewardOne T.build) eraRewards) .abort
    store fun s => { s with
      erasRewardPoints := Function.update s.erasRewardPoints activeEra.index eraRewards }
  | none => pure ()

/-- Add reward points to block authors. -/
def noteAuthor (author : AccountId) : Dispatch Fault (State T) Unit := rewardByIds [(author, 1)]

/-- `sp_staking::offence::OffenceError`. -/
inductive OffenceError where
  | duplicateReport
  | other (code : UInt8)
deriving DecidableEq

/-- `Offenders::mutate` for one offender after the other. -/
def countOffences (build : Build) (kind : Kind) (offenders : List AccountId)
    (counts : AList fun _ : Kind × AccountId => Nat) :
    Option (AList fun _ : Kind × AccountId => Nat) :=
  offenders.foldlM (fun counts offender => do
    let count ← build.add 32 ((counts.lookup (kind, offender)).getD 0) 1
    pure (counts.insert (kind, offender) count)) counts

/-- `FilterHistoricalOffences::report_offence`, where `reported` is the answer of the handler that
the report is forwarded to. -/
def reportOffence (kind : Kind) (offenceSession : Nat) (offenders : List AccountId)
    (reported : Except OffenceError Unit) :
    Dispatch Fault (State T) (Except OffenceError Unit) := do
  let bondedEras ← load fun s => s.bondedEras
  -- Disallow any slashing from before the current bonding period.
  if bondedEras.head?.any fun e => e.2 ≤ offenceSession then
    match reported with
    | .error e => pure (.error e)
    | .ok _ => do
      let counts ← load fun s => s.offenders
      let counts ← okOr (countOffences T.build kind offenders counts) .abort
      store fun s => { s with offenders := counts }
      pure (.ok ())
  else do
    depositEvent (.oldSlashingReportDiscarded offenceSession)
    pure (.ok ())

omit [DecidableEq AccountId]

/-- Set the start of the active era in the first block of the era. -/
def onFinalize (ctx : Context AccountId) (s : State T) : State T :=
  match s.activeEra with
  | some activeEra =>
    if activeEra.start.isNone then
      { s with activeEra := some { activeEra with start := some ctx.nowAsMillisU64 } }
    else s
  | none => s

/-- The eras from `first` to before `last`. -/
def State.clearEras (s : State T) (first last : Nat) : State T :=
  (List.range' first (last - first)).foldl State.clearEraInformation s

def ensureRoot : Origin AccountId → Dispatch Fault (State T) Unit
  | .root => pure ()
  | _ => fail (.error .badOrigin)

/-- Set `HistoryDepth` value. This function will delete any history information when `HistoryDepth`
is reduced. -/
def setHistoryDepth (origin : Origin AccountId) (newHistoryDepth _eraItemsDeleted : Nat) :
    Dispatch Fault (State T) Unit := do
  ensureRoot origin
  let currentEra ← load fun s => s.currentEra
  match currentEra with
  | some currentEra => do
    let historyDepth ← load fun s => s.historyDepth
    let lastKept := (checkedSub currentEra historyDepth).getD 0
    let newLastKept := (checkedSub currentEra newHistoryDepth).getD 0
    store fun s => s.clearEras lastKept newLastKept
    store fun s => { s with historyDepth := newHistoryDepth }
  | none => pure ()

def forceSetEraPayout (origin : Origin AccountId) (eraPayout : Nat) :
    Dispatch Fault (State T) Unit := do
  ensureRoot origin
  store fun s => { s with eraPayout }

inductive PalletCall where
  | setHistoryDepth (newHistoryDepth eraItemsDeleted : Nat)
  | forceSetEraPayout (eraPayout : Nat)

def PalletCall.dispatch (origin : Origin AccountId) : PalletCall → Dispatch Fault (State T) Unit
  | .setHistoryDepth newHistoryDepth eraItemsDeleted =>
    Lpos.setHistoryDepth origin newHistoryDepth eraItemsDeleted
  | .forceSetEraPayout eraPayout => Lpos.forceSetEraPayout origin eraPayout

end OctopusPallets.Lpos
