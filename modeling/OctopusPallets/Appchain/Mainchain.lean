import OctopusPallets.Infra.Borsh
import OctopusPallets.Infra.Json
import OctopusPallets.Infra.Utf8
import OctopusPallets.Appchain.Types

/-!
# Queries to the mainchain

The two queries of the offchain worker, `appchain/src/mainchain.rs`, and the deserializers of
`types.rs` that read the answers. `serde_json` reads a text from its beginning, and stops at the
first error.
-/

namespace OctopusPallets.Appchain

open Infra Infra.Attempt Infra.Json

/-- `http::Error`. -/
inductive HttpError where
  | deadlineReached
  | ioError
  | unknown
deriving DecidableEq

structure Params where
  requestType : String
  finality : String
  accountId : String
  methodName : String
  argsBase64 : String
deriving DecidableEq

structure HttpBody where
  jsonrpc : String
  id : String
  method : String
  params : Params
deriving DecidableEq

/-- What the queries call: the host, and other crates. -/
structure Outside (AccountId : Type) where
  /-- Post a body to an endpoint and wait for the answer, two seconds at most: the status, and the
  body. -/
  post : String → HttpBody → Except HttpError (Nat × List UInt8)
  base64 : String → String
  /-- `serde_json`: the bytes `result.result` of a `Response`. -/
  response : List UInt8 → Option (List UInt8)
  /-- `serde_json`: what a deserializer sees of the text. -/
  json : List UInt8 → Document
  hexDecode : List Char → Option (List UInt8)
  /-- `AccountId::decode`, with what it leaves of the input. -/
  decodeAccount : List UInt8 → Option (AccountId × List UInt8)

variable {AccountId : Type}

/-! ## Deserializers -/

/-- The first two bytes are cut off, whatever they are, and so is what follows the account. -/
def accountDeserializeFromHexStr (o : Outside AccountId) : Reader AccountId := fun v => do
  let accountIdStr ← readString v
  let digits ← orAbort (Utf8.sliceFrom accountIdStr.toList 2)
  let accountIdHex ← okOr (o.hexDecode digits) ()
  let decoded ← okOr (o.decodeAccount accountIdHex) ()
  pure decoded.1

/-- `str::parse` for an unsigned integer below `bound`. -/
def parseUnsigned (bound : Nat) (text : List Char) : Option Nat :=
  let digits := match text with
    | '+' :: digits => digits
    | digits => digits
  if digits.isEmpty || digits.any fun c => !c.isDigit then none
  else
    let n := digits.foldl (fun n c => 10 * n + (c.toNat - '0'.toNat)) 0
    if n < bound then some n else none

example : parseUnsigned 256 ['+', '2', '5', '5'] = some 255 ∧
    parseUnsigned 256 ['2', '5', '6'] = none ∧ parseUnsigned 256 ['+'] = none := by decide

def deserializeFromStr (bound : Nat) : Reader Nat := fun v => do
  let amountStr ← readString v
  okOr (parseUnsigned bound amountStr.toList) ()

/-- The fields of a `Validator`, as far as they are read. -/
structure ValidatorFields (AccountId : Type) where
  validatorIdInAppchain : Option AccountId
  totalStake : Option Nat

def validatorFields (o : Outside AccountId) : List (FieldReader (ValidatorFields AccountId)) :=
  [.of "validator_id_in_appchain" ValidatorFields.validatorIdInAppchain
      (fun a s => { s with validatorIdInAppchain := some a }) (accountDeserializeFromHexStr o),
    .of "total_stake" ValidatorFields.totalStake (fun n s => { s with totalStake := some n })
      (deserializeFromStr (2 ^ 128))]

def readValidator (o : Outside AccountId) : Reader (Validator AccountId) :=
  readStruct (validatorFields o) ⟨none, none⟩ fun s => do
    pure ⟨← s.validatorIdInAppchain, ← s.totalStake⟩

/-- The fields of the three events, as far as they are read. -/
structure EventFields (AccountId : Type) where
  index : Option Nat
  tokenId : Option (List UInt8)
  senderId : Option (List UInt8)
  receiver : Option AccountId
  amount : Option Nat
  collection : Option Nat
  item : Option Nat

def EventFields.empty : EventFields AccountId := ⟨none, none, none, none, none, none, none⟩

namespace EventFields

def indexField : FieldReader (EventFields AccountId) :=
  .of "index" EventFields.index (fun n s => { s with index := some n }) (readUnsigned (2 ^ 32))

def bytesField (name : String) (get : EventFields AccountId → Option (List UInt8))
    (set : List UInt8 → EventFields AccountId → EventFields AccountId) :
    FieldReader (EventFields AccountId) :=
  .of name get set (readBytes Borsh.asBytes)

def senderField : FieldReader (EventFields AccountId) :=
  bytesField "sender_id_in_near" EventFields.senderId fun b s => { s with senderId := some b }

def receiverField (o : Outside AccountId) : FieldReader (EventFields AccountId) :=
  .of "receiver_id_in_appchain" EventFields.receiver (fun a s => { s with receiver := some a })
    (accountDeserializeFromHexStr o)

def integerField (name : String) (get : EventFields AccountId → Option Nat)
    (set : Nat → EventFields AccountId → EventFields AccountId) :
    FieldReader (EventFields AccountId) :=
  .of name get set (deserializeFromStr (2 ^ 128))

def amountField : FieldReader (EventFields AccountId) :=
  integerField "amount" EventFields.amount fun n s => { s with amount := some n }

end EventFields

open EventFields

def burnFields (o : Outside AccountId) : List (FieldReader (EventFields AccountId)) :=
  [indexField, senderField, receiverField o, amountField]

/-- An index that is missing is 0. -/
def readBurn (o : Outside AccountId) : Reader (BurnEvent AccountId) :=
  readStruct (burnFields o) .empty fun s => do
    pure ⟨s.index.getD 0, ← s.senderId, ← s.receiver, ← s.amount⟩

def lockAssetFields (o : Outside AccountId) : List (FieldReader (EventFields AccountId)) :=
  [indexField, bytesField "contract_account" EventFields.tokenId
      (fun b s => { s with tokenId := some b }),
    senderField, receiverField o, amountField]

def readLockAsset (o : Outside AccountId) : Reader (LockAssetEvent AccountId) :=
  readStruct (lockAssetFields o) .empty fun s => do
    pure ⟨s.index.getD 0, ← s.tokenId, ← s.senderId, ← s.receiver, ← s.amount⟩

def burnNftFields (o : Outside AccountId) : List (FieldReader (EventFields AccountId)) :=
  [indexField, senderField, receiverField o,
    integerField "class_id" EventFields.collection (fun n s => { s with collection := some n }),
    integerField "token_id" EventFields.item (fun n s => { s with item := some n })]

def readBurnNft (o : Outside AccountId) : Reader (BurnNftEvent AccountId) :=
  readStruct (burnNftFields o) .empty fun s => do
    pure ⟨s.index.getD 0, ← s.senderId, ← s.receiver, ← s.collection, ← s.item⟩

inductive AppchainNotification (AccountId : Type) where
  | lockAsset (event : LockAssetEvent AccountId)
  | burn (event : BurnEvent AccountId)
  | burnNft (event : BurnNftEvent AccountId)

def notificationVariants (o : Outside AccountId) :
    String → Option (Reader (AppchainNotification AccountId))
  | "NearFungibleTokenLocked" => some fun v => (readLockAsset o v).map .lockAsset
  | "WrappedAppchainTokenBurnt" => some fun v => (readBurn o v).map .burn
  | "WrappedAppchainNFTLocked" => some fun v => (readBurnNft o v).map .burnNft
  | _ => none

structure AppchainNotificationHistory (AccountId : Type) where
  appchainNotification : AppchainNotification AccountId
  index : Nat

structure HistoryFields (AccountId : Type) where
  appchainNotification : Option (AppchainNotification AccountId)
  index : Option Nat

def historyFields (o : Outside AccountId) : List (FieldReader (HistoryFields AccountId)) :=
  [.of "appchain_notification" HistoryFields.appchainNotification
      (fun n s => { s with appchainNotification := some n }) (readVariant (notificationVariants o)),
    .of "index" HistoryFields.index (fun n s => { s with index := some n })
      (deserializeFromStr (2 ^ 32))]

def readHistory (o : Outside AccountId) : Reader (AppchainNotificationHistory AccountId) :=
  readStruct (historyFields o) ⟨none, none⟩ fun s => do
    pure ⟨← s.appchainNotification, ← s.index⟩

/-! ## Queries -/

/-- What the two queries share: the text that a method of the anchor contract returns. -/
def callFunction (o : Outside AccountId) (rpcEndpoint : String) (anchorContract : List UInt8)
    (methodName argsBase64 : String) : Attempt HttpError Document := do
  let accountId ← okOr (Borsh.fromUtf8 anchorContract) HttpError.unknown
  let params : Params := ⟨"call_function", "final", accountId, methodName, argsBase64⟩
  match o.post rpcEndpoint ⟨"2.0", "dontcare", "query", params⟩ with
  | .error e => .error (.error e)
  | .ok (code, body) =>
    if code ≠ 200 then .error (.error .unknown)
    else
      let result ← okOr (o.response body) .unknown
      pure (o.json result)

def encodeGetValidatorArgs (o : Outside AccountId) (era : Nat) : String :=
  o.base64 ("\x7b\"era_number\":\"" ++ toString era ++ "\"\x7d")

/-- Gets a validator set by the specified era number.
Returns an empty list if the validator set has not been generated. -/
def getValidatorListOf (o : Outside AccountId) (rpcEndpoint : String)
    (anchorContract : List UInt8) (setId : Nat) :
    Attempt HttpError (List (Observation AccountId)) := do
  let result ← callFunction o rpcEndpoint anchorContract "get_validator_list_of"
    (encodeGetValidatorArgs o setId)
  let validators ← mapErr (fun _ => .unknown) (fromSlice (readList (readValidator o)) result)
  pure (if validators.isEmpty then [] else [.updateValidatorSet ⟨setId, validators⟩])

def encodeGetNotificationArgs (o : Outside AccountId) (start limit : Nat) : String :=
  o.base64 ("\x7b\"start_index\":\"" ++ toString start ++ "\",\"quantity\":\"" ++ toString limit ++
    "\"\x7d")

/-- The index of the event is that of the history. -/
def AppchainNotificationHistory.observation (n : AppchainNotificationHistory AccountId) :
    Observation AccountId :=
  match n.appchainNotification with
  | .burn event => .burn { event with index := n.index }
  | .lockAsset event => .lockAsset { event with index := n.index }
  | .burnNft event => .burnNft { event with index := n.index }

/-- Fetch the notifications from anchor contract. -/
def getAppchainNotificationHistories (o : Outside AccountId) (rpcEndpoint : String)
    (anchorContract : List UInt8) (index limit : Nat) :
    Attempt HttpError (List (Observation AccountId)) := do
  let result ← callFunction o rpcEndpoint anchorContract "get_appchain_notification_histories"
    (encodeGetNotificationArgs o index limit)
  let notifications ← mapErr (fun _ => .unknown) (fromSlice (readList (readHistory o)) result)
  pure (notifications.map AppchainNotificationHistory.observation)

end OctopusPallets.Appchain
