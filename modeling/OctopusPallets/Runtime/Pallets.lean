import OctopusPallets.Appchain.Sequencing
import OctopusPallets.Bridge.Ownership
import OctopusPallets.Lpos.Sessions
import OctopusPallets.Support.Currency
import OctopusPallets.UpwardMessages.Contents

/-!
# The pallets in one runtime

Each pallet is modelled over a storage of its own. Here they share one: the bridge and the lpos
pallet take their balances from one currency and put their messages into one queue, the appchain
pallet calls that bridge and counts votes with the stakes of that lpos pallet.

* `State.chain`, `State.withChain` — the storage, as the lpos pallet sees it
* `machine` — what happens to the storage, one step after the other
* `State.step_chain` — a step of the runtime is a step of the chain of the lpos pallet
* `Call.run_steps` — a call of `submit_observations` is a step for each observation
-/

namespace OctopusPallets.Runtime

open Infra Infra.Dispatch Infra.FixedWidth

/-- The associated types of the pallets. What two of them share is here once. -/
structure Config (AccountId : Type) where
  build : Build
  appchain : Appchain.Config
  messages : UpwardMessages.Config
  /-- The hash function of the commitments. -/
  hash : List UInt8 → List UInt8
  /-- The account of the `PalletId` of the bridge pallet. -/
  bridgeAccount : AccountId
  /-- The account of the `PalletId` of the lpos pallet. -/
  lposAccount : AccountId
  encode : AccountId → List UInt8
  sessionsPerEra : Nat
  bondingDuration : Nat
  balanceBits : Nat
  Balances : Type
  currency : Currency AccountId Balances
  Assets : Type
  fungibles : Fungibles AccountId Assets
  Items : Type
  nonfungibles : Nonfungibles AccountId Items
  convertIntoNep171Metadata : (collection item : Nat) → Option Nep171TokenMetadata
  Historical : Type
  pruneHistoricalUpTo : Nat → Historical → Historical

variable {AccountId : Type}

@[reducible] def Config.bridge (R : Config AccountId) : Bridge.Config AccountId where
  accountId := R.bridgeAccount
  encode := R.encode
  balanceBits := R.balanceBits
  Balances := R.Balances
  currency := R.currency
  Assets := R.Assets
  fungibles := R.fungibles
  Items := R.Items
  nonfungibles := R.nonfungibles
  Messages := UpwardMessages.State R.messages
  upwardMessages := UpwardMessages.upwardMessagesInterface
  convertIntoNep171Metadata := R.convertIntoNep171Metadata

@[reducible] def Config.lpos (R : Config AccountId) : Lpos.Config AccountId where
  build := R.build
  accountId := R.lposAccount
  encode := R.encode
  sessionsPerEra := R.sessionsPerEra
  bondingDuration := R.bondingDuration
  balanceBits := R.balanceBits
  Balances := R.Balances
  currency := R.currency
  Messages := UpwardMessages.State R.messages
  upwardMessages := UpwardMessages.upwardMessagesInterface
  Historical := R.Historical
  pruneHistoricalUpTo := R.pruneHistoricalUpTo

/-- The storage between two steps. The balances and the messages are in the storage of the bridge
pallet, which is that behind the appchain pallet. -/
structure State (R : Config AccountId) where
  /-- What `pallet_timestamp` holds, in milliseconds. -/
  now : Nat
  /-- The current session. -/
  session : Nat
  sessionPallet : Lpos.Session AccountId
  appchain : Appchain.State R.appchain AccountId (Bridge.State R.bridge)
  lpos : Lpos.Storage AccountId
  historical : R.Historical

variable {R : Config AccountId}

namespace State

variable (s : State R)

def balances : R.Balances := s.appchain.bridge.balances

def items : R.Items := s.appchain.bridge.items

def messages : UpwardMessages.State R.messages := s.appchain.bridge.messages

/-- The storage of the lpos pallet, with what it shares. -/
def lposState : Lpos.State R.lpos where
  toStorage := s.lpos
  balances := s.balances
  messages := s.messages
  historical := s.historical

def chain : Lpos.Chain R.lpos := ⟨s.session, s.lposState⟩

/-- The chain of the lpos pallet is put back. -/
def withChain (c : Lpos.Chain R.lpos) : State R :=
  { s with
    session := c.session
    lpos := c.state.toStorage
    historical := c.state.historical
    appchain := { s.appchain with
      bridge := { s.appchain.bridge with
        balances := c.state.balances
        messages := c.state.messages } } }

def withBridge (bridge : Bridge.State R.bridge) : State R :=
  { s with appchain := { s.appchain with bridge } }

/-- What the lpos pallet reads of the others. -/
def context : Lpos.Context AccountId := ⟨s.appchain.appchainInterface, s.now⟩

@[simp] theorem withChain_chain (c : Lpos.Chain R.lpos) : (s.withChain c).chain = c := rfl

@[simp] theorem chain_withChain : s.withChain s.chain = s := rfl

@[simp] theorem withBridge_lpos (bridge : Bridge.State R.bridge) :
    (s.withBridge bridge).lpos = s.lpos := rfl

end State

/-! ## Steps -/

/-- The four `force_set` calls of the appchain pallet. -/
inductive Forced (AccountId : Type) where
  | isActivated (isActivated : Bool)
  | nextSetId (nextSetId : Nat)
  | plannedValidators (validators : List (AccountId × Nat))
  | nextNotificationId (nextNotificationId : Nat)

def Forced.call {Public Signature : Type} :
    Forced AccountId → Appchain.PalletCall Public AccountId Signature
  | .isActivated active => .forceSetIsActivated active
  | .nextSetId id => .forceSetNextSetId id
  | .plannedValidators validators => .forceSetPlannedValidators validators
  | .nextNotificationId id => .forceSetNextNotificationId id

/-- What happens to the storage. -/
inductive Step (R : Config AccountId) where
  /-- `pallet_timestamp` sets the time. -/
  | timestamp (now : Nat)
  /-- The hook of the upward-messages pallet, in this block. -/
  | onInitialize (now : Nat)
  /-- The hook of the lpos pallet. -/
  | onFinalize
  /-- `pallet_session` rotates to the next session. -/
  | rotate
  | noteAuthor (author : AccountId)
  | reportOffence (kind : Lpos.Kind) (offenceSession : Nat) (offenders : List AccountId)
      (reported : Except Lpos.OffenceError Unit)
  | lpos (origin : Origin AccountId) (call : Lpos.PalletCall)
  /-- One observation of an unsigned `submit_observations`, under its session key. -/
  | vote (keyData : List UInt8) (observation : Appchain.Observation AccountId)
  | force (origin : Origin AccountId) (forced : Forced AccountId)
  | bridge (origin : Origin AccountId) (call : Bridge.PalletCall AccountId)
  /-- The oracle or root has set the fees. -/
  | fees (crosschainTransferFee : Bridge.CrossChainTransferType → Option (Option Nat))
  /-- `pallet_session` has other validators or keys. -/
  | keys (sessionPallet : Lpos.Session AccountId)
  /-- The other pallets do anything with their storages. -/
  | elsewhere (balances : R.Balances) (assets : R.Assets) (items : R.Items)
      (historical : R.Historical)

/-- The storage after a call that can abort: an abort refuses the call, an error does not undo what
was written before it. -/
def settle {σ : Type} (x : Dispatch Fault σ Unit) (s : σ) : σ :=
  match x s with
  | (.error .abort, _) => s
  | (_, s') => s'

def State.onInitialize (s : State R) (now : Nat) : State R :=
  match UpwardMessages.onInitialize R.hash now s.messages with
  | some messages => s.withBridge { s.appchain.bridge with messages }
  | none => s

variable [DecidableEq AccountId]

namespace State

variable (s : State R)

/-- The stakes that votes are counted with. -/
def stakes : LposInterface AccountId := Lpos.lposInterface s.sessionPallet s.lpos

/-- The vote of the validator with this session key. -/
def voteOf (keyData : List UInt8) (observation : Appchain.Observation AccountId) :
    Option (Appchain.Vote AccountId) :=
  (s.stakes.isActiveValidator Appchain.keyType keyData).map fun v => ⟨s.stakes, v, observation⟩

/-- The vote is cast, if there is such a validator. -/
def vote (keyData : List UInt8) (observation : Appchain.Observation AccountId) :
    State R × List (Appchain.Observation AccountId) :=
  match s.voteOf keyData observation with
  | some x =>
    let r := (Appchain.voteMachine Bridge.bridgeInterface).step x s.appchain
    ({ s with appchain := r.1 }, r.2)
  | none => (s, [])

def onChain (call : Lpos.Call R.lpos) : State R := s.withChain (s.chain.step call).1

end State

/-- One step, with the observations that take effect in it. -/
def State.step (s : State R) : Step R → State R × List (Appchain.Observation AccountId)
  | .timestamp now => ({ s with now }, [])
  | .onInitialize now => (s.onInitialize now, [])
  | .onFinalize => (s.onChain (.onFinalize s.context), [])
  | .rotate => (s.onChain (.rotate s.context), [])
  | .noteAuthor author => (s.onChain (.noteAuthor author), [])
  | .reportOffence kind offenceSession offenders reported =>
    (s.onChain (.reportOffence kind offenceSession offenders reported), [])
  | .lpos origin call => (s.onChain (.dispatch origin call), [])
  | .vote keyData observation => s.vote keyData observation
  | .force origin forced =>
    ({ s with
      appchain := ((forced.call : Appchain.PalletCall Unit AccountId Unit).dispatch
        Bridge.bridgeInterface s.stakes origin s.appchain).2 }, [])
  | .bridge origin call =>
    (s.withBridge (settle (call.dispatch s.appchain.appchainInterface origin) s.appchain.bridge),
      [])
  | .fees crosschainTransferFee =>
    (s.withBridge { s.appchain.bridge with crosschainTransferFee }, [])
  | .keys sessionPallet => ({ s with sessionPallet }, [])
  | .elsewhere balances assets items historical =>
    ({ s.withBridge { s.appchain.bridge with balances, assets, items } with historical }, [])

def machine (R : Config AccountId) :
    Machine (State R) (Step R) (Appchain.Observation AccountId) where
  step i s := s.step i

/-! ## Genesis -/

/-- What the storage is built from. The appchain pallet is built before the session pallet, whose
genesis calls the hooks of the lpos pallet. -/
structure Genesis (R : Config AccountId) where
  now : Nat
  sessionPallet : Lpos.Session AccountId
  anchorContract : List UInt8
  validators : List (AccountId × Nat)
  historyDepth : Nat
  eraPayout : Nat
  bridge : Bridge.State R.bridge
  historical : R.Historical

omit [DecidableEq AccountId] in
/-- The storage in which the hooks of the genesis are called. -/
def Genesis.state (g : Genesis R) : State R where
  now := g.now
  session := 0
  sessionPallet := g.sessionPallet
  appchain := Appchain.genesisBuild R.appchain g.anchorContract g.validators g.bridge
  lpos := Lpos.genesisBuild g.historyDepth g.eraPayout
  historical := g.historical

omit [DecidableEq AccountId] in
def Genesis.lpos (g : Genesis R) : Lpos.Genesis R.lpos where
  historyDepth := g.historyDepth
  eraPayout := g.eraPayout
  ctx := g.state.context
  balances := g.bridge.balances
  messages := g.bridge.messages
  historical := g.historical

/-- The storage in session 0, if the hooks of the genesis end. -/
def Genesis.start (g : Genesis R) : Option (State R) :=
  g.lpos.chain.map fun c => g.state.withChain c.1

/-! ## The chain of the lpos pallet -/

/-- What a step is to the lpos pallet. -/
def Step.chainCall (s : State R) (i : Step R) : Lpos.Call R.lpos :=
  match i with
  | .onFinalize => .onFinalize s.context
  | .rotate => .rotate s.context
  | .noteAuthor author => .noteAuthor author
  | .reportOffence kind offenceSession offenders reported =>
    .reportOffence kind offenceSession offenders reported
  | .lpos origin call => .dispatch origin call
  | i =>
    let s' := (s.step i).1
    .elsewhere s'.balances s'.messages s'.historical

theorem State.vote_chain (s : State R) (keyData : List UInt8)
    (o : Appchain.Observation AccountId) :
    (s.vote keyData o).1.session = s.session ∧ (s.vote keyData o).1.lpos = s.lpos := by
  unfold State.vote
  cases s.voteOf keyData o with
  | none => exact ⟨rfl, rfl⟩
  | some x => exact ⟨rfl, rfl⟩

omit [DecidableEq AccountId] in
/-- The hook of the upward-messages pallet moves messages, and accepts none. -/
theorem State.onInitialize_eq (s : State R) (now : Nat) :
    ∃ messages : UpwardMessages.State R.messages, messages.accepted = s.messages.accepted ∧
      s.onInitialize now = s.withBridge { s.appchain.bridge with messages } := by
  unfold State.onInitialize
  cases hrun : UpwardMessages.onInitialize R.hash now s.messages with
  | none => exact ⟨s.messages, rfl, rfl⟩
  | some messages => exact ⟨messages, UpwardMessages.onInitialize_accepted hrun, rfl⟩

omit [DecidableEq AccountId] in
theorem State.onInitialize_chain (s : State R) (now : Nat) :
    (s.onInitialize now).session = s.session ∧ (s.onInitialize now).lpos = s.lpos := by
  obtain ⟨messages, -, hrun⟩ := s.onInitialize_eq now
  rw [hrun]
  exact ⟨rfl, rfl⟩

/-- **Every step of the runtime is a step of the chain of the lpos pallet.** -/
theorem State.step_chain (s : State R) (i : Step R) :
    (s.step i).1.chain = (s.chain.step (i.chainCall s)).1 := by
  have helsewhere : ∀ s' : State R, s'.session = s.session → s'.lpos = s.lpos →
      s'.chain = (s.chain.step (.elsewhere s'.balances s'.messages s'.historical)).1 := by
    intro s' hsession hlpos
    show (⟨s'.session, s'.lposState⟩ : Lpos.Chain R.lpos) = ⟨s.session, _⟩
    unfold State.lposState
    rw [hsession, hlpos]
    rfl
  cases i with
  | onFinalize | rotate | noteAuthor _ | reportOffence _ _ _ _ | lpos _ _ => rfl
  | vote keyData o => exact helsewhere _ (s.vote_chain keyData o).1 (s.vote_chain keyData o).2
  | onInitialize now =>
    exact helsewhere _ (s.onInitialize_chain now).1 (s.onInitialize_chain now).2
  | timestamp _ | force _ _ | bridge _ _ | fees _ | keys _ | elsewhere _ _ _ _ =>
    exact helsewhere _ rfl rfl

/-! ## Calls -/

/-- What is submitted to the chain: like the steps, with whole calls of the appchain pallet. -/
inductive Call (R : Config AccountId) (Public Signature : Type) where
  | appchain (origin : Origin AccountId)
      (call : Appchain.PalletCall Public AccountId Signature)
  | other (i : Step R)

variable {Public Signature : Type}

/-- The steps of a call: a call of `submit_observations` casts its votes one by one. -/
def Call.steps : Call R Public Signature → List (Step R)
  | .appchain .none (.submitObservations payload _) =>
    payload.observations.map fun o => .vote payload.keyData o
  | .appchain _ (.submitObservations _ _) => []
  | .appchain origin (.forceSetIsActivated active) => [.force origin (.isActivated active)]
  | .appchain origin (.forceSetNextSetId id) => [.force origin (.nextSetId id)]
  | .appchain origin (.forceSetPlannedValidators validators) =>
    [.force origin (.plannedValidators validators)]
  | .appchain origin (.forceSetNextNotificationId id) => [.force origin (.nextNotificationId id)]
  | .other i => [i]

/-- Votes do not bear on how later votes are counted. -/
theorem run_votes (s : State R) (keyData : List UInt8) :
    ∀ (os : List (Appchain.Observation AccountId)) (a : Appchain.State R.appchain AccountId _),
    (machine R).run (os.map fun o => .vote keyData o) { s with appchain := a }
      = { s with
        appchain := match s.stakes.isActiveValidator Appchain.keyType keyData with
          | some v => (Appchain.voteMachine Bridge.bridgeInterface).run
            (os.map fun o => ⟨s.stakes, v, o⟩) a
          | none => a } := by
  intro os
  induction os with
  | nil =>
    intro a
    cases s.stakes.isActiveValidator Appchain.keyType keyData <;> rfl
  | cons o os ih =>
    intro a
    have hstep : ((machine R).step (.vote keyData o) { s with appchain := a }).1
        = { s with appchain := match s.stakes.isActiveValidator Appchain.keyType keyData with
          | some v => ((Appchain.voteMachine Bridge.bridgeInterface).step ⟨s.stakes, v, o⟩ a).1
          | none => a } := by
      show (({ s with appchain := a } : State R).vote keyData o).1 = _
      unfold State.vote State.voteOf
      have hstakes : ({ s with appchain := a } : State R).stakes = s.stakes := rfl
      rw [hstakes]
      cases s.stakes.isActiveValidator Appchain.keyType keyData <;> rfl
    rw [List.map_cons, Machine.run, hstep, ih]
    cases s.stakes.isActiveValidator Appchain.keyType keyData <;> rfl

/-- **A call of the appchain pallet leaves what its steps lead to.** -/
theorem Call.run_steps (s : State R) (origin : Origin AccountId)
    (call : Appchain.PalletCall Public AccountId Signature) :
    (machine R).run (Call.appchain (R := R) origin call).steps s
      = { s with
        appchain := (call.dispatch Bridge.bridgeInterface s.stakes origin s.appchain).2 } := by
  cases call with
  | submitObservations payload signature =>
    cases origin with
    | none =>
      have hvotes := Appchain.submitObservations_state Bridge.bridgeInterface
        ⟨s.stakes, payload⟩ s.appchain
      refine (run_votes s payload.keyData payload.observations s.appchain).trans ?_
      show _ = { s with appchain := (Appchain.submitObservations Bridge.bridgeInterface s.stakes
        .none payload s.appchain).2 }
      rw [hvotes]
      unfold Appchain.Call.votes Appchain.Call.validatorId
      cases s.stakes.isActiveValidator Appchain.keyType payload.keyData <;> rfl
    | root | signed _ => rfl
  | forceSetIsActivated _ | forceSetNextSetId _ | forceSetPlannedValidators _
  | forceSetNextNotificationId _ => cases origin <;> rfl

/-! ## A small runtime

Accounts are numbers, 99 is the account of the bridge and 98 that of the lpos pallet. The existential
deposit is 10, and the session key of account `n` is the single byte `n`. -/

namespace Sample

/-- Balances of assets. Less than 5 is not kept: it is burned along. -/
def assets : Fungibles Nat (Nat → Nat → Nat) where
  mintInto asset who amount balances :=
    (.ok (), fun a w => if a = asset ∧ w = who then balances asset who + amount else balances a w)
  burnFrom asset who amount balances :=
    if balances asset who < amount then (.error (.foreign 2), balances)
    else
      let rest := balances asset who - amount
      let kept := if rest < 5 then 0 else rest
      (.ok (balances asset who - kept), fun a w => if a = asset ∧ w = who then kept else balances a w)

def config : Config Nat where
  build := .release
  appchain := Appchain.Sample.config
  messages := Bridge.Sample.messageConfig
  hash := id
  bridgeAccount := 99
  lposAccount := 98
  encode who := [UInt8.ofNat who]
  sessionsPerEra := 2
  bondingDuration := 1
  balanceBits := 128
  Balances := Nat → Nat
  currency := balancesCurrency 10
  Assets := Nat → Nat → Nat
  fungibles := assets
  Items := Nat → Nat → Option Nat
  nonfungibles := Bridge.Sample.uniques
  convertIntoNep171Metadata := Bridge.Sample.config.convertIntoNep171Metadata
  Historical := Nat
  pruneHistoricalUpTo session _ := session

/-- These accounts validate. -/
def keysOf (validators : List Nat) : Lpos.Session Nat where
  validators := validators
  keyOwner _ keyData := keyData.head?.map UInt8.toNat
  validatorIdOf := some

/-- Accounts 0 and 1 hold 1000 native tokens, and account 0 the item 42 and 100 units of asset 7. -/
def bridge : Bridge.State config.bridge where
  assetIdByTokenId := [([116], 7)]
  crosschainTransferFee _ := none
  events := []
  balances who := if who ≤ 1 then 1000 else 0
  assets asset who := if asset = 7 ∧ who = 0 then 100 else 0
  items := Bridge.Sample.state.items
  messages := UpwardMessages.genesisBuild Bridge.Sample.messageConfig 1

/-- Account 1 is the only validator. -/
def genesis : Genesis config where
  now := 0
  sessionPallet := keysOf [1]
  anchorContract := []
  validators := [(1, 1)]
  historyDepth := 84
  eraPayout := 5
  bridge := bridge
  historical := Nat.zero

/-- Accounts 1 and 2 validate. -/
def pair : Genesis config :=
  { genesis with sessionPallet := keysOf [1, 2], validators := [(1, 1), (2, 1)] }

end Sample

end OctopusPallets.Runtime
