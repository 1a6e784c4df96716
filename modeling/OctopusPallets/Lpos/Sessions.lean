import OctopusPallets.Infra.Machine
import OctopusPallets.Lpos.Pallet

/-!
# Runs of sessions

The order in which `pallet_session` calls the hooks: at genesis the sessions 0 and 1 are planned and
session 0 is started; a rotation ends a session, starts the next one and plans the one after that.
Between rotations blocks are authored and finalized, offences are reported and calls are
dispatched. A call that aborts refuses its block, which leaves no trace.
-/

namespace OctopusPallets.Lpos

open Infra Infra.Dispatch Infra.FixedWidth

variable {AccountId : Type}

/-- What the hooks are seen to do. -/
inductive Observed (AccountId : Type) where
  /-- `end_era` was called for the era of this index. -/
  | ended (era : Nat)
  /-- `new_session` met the condition of `PlanNewEra`. -/
  | lastSession (session : Nat)
  /-- `new_session` returned a validator set. -/
  | planned (session : Nat) (validators : List AccountId)
deriving DecidableEq

def Observed.ended? : Observed AccountId → Option Nat
  | .ended era => some era
  | _ => none

def Observed.lastSession? : Observed AccountId → Option Nat
  | .lastSession session => some session
  | _ => none

def Observed.planned? : Observed AccountId → Option Nat
  | .planned session _ => some session
  | _ => none

/-- A chain between two calls: the current session, and the storage. -/
structure Chain (T : Config AccountId) where
  session : Nat
  state : State T

variable {T : Config AccountId}

/-- Whether `new_session` will compute an era length that ends the era. -/
def State.reachesPlanNewEra (s : State T) (sessionIndex : Nat) : Bool :=
  s.currentEra.any fun currentEra =>
    let eraLength := sessionIndex - (s.erasStartSessionIndex currentEra).getD 0
    eraLength < T.sessionsPerEra && isLastSession T eraLength

variable [DecidableEq AccountId]

/-- What is seen of a call of `new_session` for `session` that returned `validators`. -/
def Observed.planning (last : Bool) (session : Nat) (validators : Option (List AccountId)) :
    List (Observed AccountId) :=
  (if last then [.lastSession session] else []) ++ (validators.map (planned session)).toList

/-- A call of `new_session`, observed. -/
def planning (hook : Dispatch Fault (State T) (Option (List AccountId))) (session : Nat) :
    Dispatch Fault (State T) (List (Observed AccountId)) := do
  let last ← load fun s => s.reachesPlanNewEra session
  let validators ← hook
  pure (Observed.planning last session validators)

/-- A call of `end_session`, observed. -/
def ending (ctx : Context AccountId) (session : Nat) :
    Dispatch Fault (State T) (List (Observed AccountId)) := do
  let activeEra ← endingEra session
  SessionManager.endSession ctx session
  pure (activeEra.map fun e => .ended e.index).toList

def genesisHooks (ctx : Context AccountId) :
    Dispatch Fault (State T) (List (Observed AccountId)) := do
  let os ← planning (SessionManager.newSessionGenesis ctx 0) 0
  let os' ← planning (SessionManager.newSessionGenesis ctx 1) 1
  SessionManager.startSession ctx 0
  pure (os ++ os')

/-- The rotation from `session` to the next one. -/
def rotateSession (ctx : Context AccountId) (session : Nat) :
    Dispatch Fault (State T) (List (Observed AccountId)) := do
  let os ← ending ctx session
  SessionManager.startSession ctx (session + 1)
  let os' ← planning (SessionManager.newSession ctx (session + 2)) (session + 2)
  pure (os ++ os')

/-- What happens to a chain. -/
inductive Call (T : Config AccountId) where
  | rotate (ctx : Context AccountId)
  | onFinalize (ctx : Context AccountId)
  | noteAuthor (author : AccountId)
  | reportOffence (kind : Kind) (offenceSession : Nat) (offenders : List AccountId)
      (reported : Except OffenceError Unit)
  | dispatch (origin : Origin AccountId) (call : PalletCall)
  /-- The other pallets do anything with their own storages. -/
  | elsewhere (balances : T.Balances) (messages : T.Messages) (historical : T.Historical)

/-- The calls that are not rotations. They are not observed. -/
def Call.between : Call T → Dispatch Fault (State T) Unit
  | .rotate _ => pure ()
  | .onFinalize ctx => store (Lpos.onFinalize ctx)
  | .noteAuthor author => Lpos.noteAuthor author
  | .reportOffence kind offenceSession offenders reported => do
    let _ ← Lpos.reportOffence kind offenceSession offenders reported
    pure ()
  | .dispatch origin call => call.dispatch origin
  | .elsewhere balances messages historical =>
    store fun s => { s with balances, messages, historical }

/-- The state after `x`, or the one before it when `x` fails. -/
def Chain.apply (c : Chain T) (x : Dispatch Fault (State T) Unit) : Chain T :=
  match x c.state with
  | (.ok _, s) => ⟨c.session, s⟩
  | (.error _, _) => c

/-- The rotation to the next session. -/
def Chain.rotate (c : Chain T) (ctx : Context AccountId) : Chain T × List (Observed AccountId) :=
  match rotateSession ctx c.session c.state with
  | (.ok os, s) => (⟨c.session + 1, s⟩, os)
  | (.error _, _) => (c, [])

/-- A chain reads one call. -/
def Chain.step (c : Chain T) : Call T → Chain T × List (Observed AccountId)
  | .rotate ctx => c.rotate ctx
  | call => (c.apply call.between, [])

def chainMachine (T : Config AccountId) :
    Machine (Chain T) (Call T) (Observed AccountId) where
  step call c := c.step call

/-- What a chain starts from. -/
structure Genesis (T : Config AccountId) where
  historyDepth : Nat
  eraPayout : Nat
  ctx : Context AccountId
  balances : T.Balances
  messages : T.Messages
  historical : T.Historical

omit [DecidableEq AccountId] in
/-- The state in which the hooks of the genesis are called. -/
def Genesis.state (g : Genesis T) : State T :=
  ⟨genesisBuild g.historyDepth g.eraPayout, g.balances, g.messages, g.historical⟩

/-- The chain in session 0, if its hooks end, with what they were seen to do. -/
def Chain.ofHooks :
    Except Fault (List (Observed AccountId)) × State T →
      Option (Chain T × List (Observed AccountId))
  | (.ok os, s) => some (⟨0, s⟩, os)
  | (.error _, _) => none

def Genesis.chain (g : Genesis T) : Option (Chain T × List (Observed AccountId)) :=
  Chain.ofHooks (genesisHooks g.ctx g.state)

end OctopusPallets.Lpos
