import OctopusPallets.Infra.FixedWidth
import OctopusPallets.Support.Payloads
import OctopusPallets.Support.Traits

/-!
# The bridge pallet

The transfers of `bridge/src`, out of the appchain (`token.rs`, `nep141.rs`, `nonfungible.rs`) and
into it (`impls.rs`). The currencies and collections that the pallet moves belong to other pallets:
each has a storage of its own in the state, which only its own operations touch.
-/

namespace OctopusPallets.Bridge

open Infra Infra.Dispatch Infra.FixedWidth

/-- The associated types of the pallet, with the storages behind them. -/
structure Config (AccountId : Type) where
  /-- The account of `PalletId`. -/
  accountId : AccountId
  /-- The SCALE encoding of an account. -/
  encode : AccountId → List UInt8
  /-- The width of `BalanceOf`, in bits. -/
  balanceBits : Nat
  Balances : Type
  currency : Currency AccountId Balances
  Assets : Type
  fungibles : Fungibles AccountId Assets
  Items : Type
  nonfungibles : Nonfungibles AccountId Items
  Messages : Type
  upwardMessages : UpwardMessagesInterface AccountId Messages
  /-- `ConvertIntoNep171`. -/
  convertIntoNep171Metadata : (collection item : Nat) → Option Nep171TokenMetadata

inductive CrossChainTransferType where
  | fungible
  | nonfungible
deriving DecidableEq

inductive Event (AccountId : Type) where
  /-- An `amount` of native token has been locked in the appchain to indicate that
  it will be cross-chain transferred to the mainchain. -/
  | locked (sender : AccountId) (receiver : List UInt8) (amount fee sequence : Nat)
  /-- An `amount` was unlocked to `receiver` from `sender`. -/
  | unlocked (sender : List UInt8) (receiver : AccountId) (amount sequence : Nat)
  | nep141Minted (assetId : Nat) (sender : List UInt8) (receiver : AccountId)
      (amount sequence : Nat)
  | nep141Burned (assetId : Nat) (sender : AccountId) (receiver : List UInt8)
      (amount fee sequence : Nat)
  | nonfungibleLocked (collection item : Nat) (sender : AccountId) (receiver : List UInt8)
      (fee sequence : Nat)
  | nonfungibleUnlocked (collection item : Nat) (sender : List UInt8) (receiver : AccountId)
      (sequence : Nat)
  | forceUnlocked (who : AccountId) (amount : Nat)
  /-- Some asset was force-minted. -/
  | forceNep141Minted (assetId : Nat) (who : AccountId) (amount : Nat)
  | forceNonfungibleUnlocked (collection item : Nat) (who : AccountId)
deriving DecidableEq

variable {AccountId : Type}

structure State (T : Config AccountId) where
  /-- A map from NEAR token account ID to appchain asset ID, in the order of its iteration. -/
  assetIdByTokenId : List (List UInt8 × Nat)
  /-- The transfer fee for different cross chain transactions. -/
  crosschainTransferFee : CrossChainTransferType → Option (Option Nat)
  events : List (Event AccountId)
  balances : T.Balances
  assets : T.Assets
  items : T.Items
  messages : T.Messages

variable {T : Config AccountId}

def depositEvent {ε : Type} (event : Event AccountId) : Dispatch ε (State T) Unit :=
  store fun s => { s with events := s.events ++ [event] }

/-! ## Calls of the other pallets -/

def onBalances {α : Type} (x : Dispatch DispatchError T.Balances α) :
    Dispatch DispatchError (State T) α :=
  zoom State.balances (fun balances s => { s with balances }) x

def onAssets {α : Type} (x : Dispatch DispatchError T.Assets α) :
    Dispatch DispatchError (State T) α :=
  zoom State.assets (fun assets s => { s with assets }) x

def onItems {α : Type} (x : Dispatch DispatchError T.Items α) :
    Dispatch DispatchError (State T) α :=
  zoom State.items (fun items s => { s with items }) x

def onMessages {α : Type} (x : Dispatch DispatchError T.Messages α) :
    Dispatch DispatchError (State T) α :=
  zoom State.messages (fun messages s => { s with messages }) x

/-- `?` on a call of another pallet. -/
def orFail {α : Type} (x : Dispatch DispatchError (State T) α) : Dispatch Fault (State T) α :=
  mapErr Fault.error x

def bridgeError (e : Error) : Fault := .error (.bridge e)

/-! ## Fees -/

/-- The fee of a kind of transfer: zero when none is stored. -/
def State.transferFee (s : State T) (kind : CrossChainTransferType) : Option Nat :=
  (s.crosschainTransferFee kind).getD (some 0)

/-- `do_lock_fungible_transfer_fee` and `do_lock_nonfungible_transfer_fee`: a stored fee that is
absent aborts. -/
def deductFee (kind : CrossChainTransferType) (sender : AccountId) :
    Dispatch Fault (State T) Nat := do
  let fee ← load fun s => s.transferFee kind
  let fee ← okOr fee .abort
  mapErr (fun _ => bridgeError .notEnoughBalanceForDeductionFee)
    (onBalances (T.currency.transfer sender T.accountId fee .allowDeath))
  pure fee

def doLockFungibleTransferFee (sender : AccountId) : Dispatch Fault (State T) Nat :=
  deductFee .fungible sender

def doLockNonfungibleTransferFee (sender : AccountId) (_metadataLength : Nat) :
    Dispatch Fault (State T) Nat :=
  deductFee .nonfungible sender

/-! ## Out of the appchain -/

def doLock (sender : AccountId) (receiverId : List UInt8) (amount : Nat) :
    Dispatch Fault (State T) Unit := do
  let receiver ← okOr (Borsh.fromUtf8 receiverId) (bridgeError .invalidReceiverId)
  let amountWrapped ← okOr (checkedInto 128 amount) (bridgeError .amountOverflow)
  let fee ← doLockFungibleTransferFee sender
  let feeWrapped ← okOr (checkedInto 128 fee) (bridgeError .amountOverflow)
  orFail (onBalances (T.currency.transfer sender T.accountId amount .allowDeath))
  let message : LockPayload := ⟨hexFormat (T.encode sender), receiver, amountWrapped, feeWrapped⟩
  let payload ← okOr (LockPayload.codec.tryToVec message) (bridgeError .borshSerializeFailed)
  let sequence ← orFail (onMessages (T.upwardMessages.submit (some sender) .lock payload))
  depositEvent (.locked sender (Borsh.asBytes receiver) amount fee sequence)

/-- `try_get_token_id`: the first entry of the map with this asset. -/
def State.tryGetTokenId (s : State T) (assetId : Nat) : Option (List UInt8) :=
  (s.assetIdByTokenId.find? fun p => p.2 == assetId).map Prod.fst

def State.tryGetAssetId (s : State T) (tokenId : List UInt8) : Option Nat :=
  (s.assetIdByTokenId.find? fun p => p.1 == tokenId).map Prod.snd

def doBurnNep141 (assetId : Nat) (sender : AccountId) (receiverId : List UInt8) (amount : Nat) :
    Dispatch Fault (State T) Unit := do
  let receiver ← okOr (Borsh.fromUtf8 receiverId) (bridgeError .invalidReceiverId)
  let tokenId ← load fun s => s.tryGetTokenId assetId
  let tokenId ← okOr tokenId (bridgeError .noAssetId)
  let tokenId ← okOr (Borsh.fromUtf8 tokenId) (bridgeError .invalidTokenId)
  let fee ← doLockFungibleTransferFee sender
  let feeWrapped ← okOr (checkedInto 128 fee) (bridgeError .amountOverflow)
  let _ ← orFail (onAssets (T.fungibles.burnFrom assetId sender amount))
  let message : BurnAssetPayload :=
    ⟨tokenId, hexFormat (T.encode sender), receiver, amount, feeWrapped⟩
  let payload ← okOr (BurnAssetPayload.codec.tryToVec message) (bridgeError .borshSerializeFailed)
  let sequence ← orFail (onMessages (T.upwardMessages.submit (some sender) .burnAsset payload))
  depositEvent (.nep141Burned assetId sender (Borsh.asBytes receiver) amount fee sequence)

/-- The transfer to the pallet account is asked for without naming the sender. -/
def doLockNonfungible (collection item : Nat) (sender : AccountId) (receiverId : List UInt8) :
    Dispatch Fault (State T) Unit := do
  let receiver ← okOr (Borsh.fromUtf8 receiverId) (bridgeError .invalidReceiverId)
  let metadata ← okOr (T.convertIntoNep171Metadata collection item)
    (bridgeError .convertorNotImplement)
  let data ← okOr (Nep171TokenMetadata.codec.tryToVec metadata) (bridgeError .borshSerializeFailed)
  let fee ← doLockNonfungibleTransferFee sender (data.length % 2 ^ 32)
  let feeWrapped ← okOr (checkedInto 128 fee) (bridgeError .amountOverflow)
  -- nothing compares the owner of the item with the sender
  orFail (onItems (T.nonfungibles.transfer collection item T.accountId))
  let message : LockNftPayload :=
    ⟨hexFormat (T.encode sender), receiver, collection, item, metadata, feeWrapped⟩
  let payload ← okOr (LockNftPayload.codec.tryToVec message) (bridgeError .borshSerializeFailed)
  let sequence ← orFail (onMessages (T.upwardMessages.submit (some sender) .lockNft payload))
  depositEvent (.nonfungibleLocked collection item sender (Borsh.asBytes receiver) fee sequence)

def ensureSigned : Origin AccountId → Dispatch Fault (State T) AccountId
  | .signed who => pure who
  | _ => fail (.error .badOrigin)

/-- What the three outbound calls share. -/
def outbound (appchain : AppchainInterface AccountId) (origin : Origin AccountId)
    (call : AccountId → Dispatch Fault (State T) Unit) : Dispatch Fault (State T) Unit :=
  transactional do
    let sender ← ensureSigned origin
    ensure appchain.isActivated (bridgeError .notActivated)
    call sender

def lock (appchain : AppchainInterface AccountId) (origin : Origin AccountId)
    (receiverId : List UInt8) (amount : Nat) : Dispatch Fault (State T) Unit :=
  outbound appchain origin fun sender => doLock sender receiverId amount

def burnNep141 (appchain : AppchainInterface AccountId) (origin : Origin AccountId)
    (assetId : Nat) (receiverId : List UInt8) (amount : Nat) : Dispatch Fault (State T) Unit :=
  outbound appchain origin fun sender => doBurnNep141 assetId sender receiverId amount

def lockNonfungible (appchain : AppchainInterface AccountId) (origin : Origin AccountId)
    (collectionId itemId : Nat) (receiverId : List UInt8) : Dispatch Fault (State T) Unit :=
  outbound appchain origin fun sender => doLockNonfungible collectionId itemId sender receiverId

/-! ## Calls of root

An account is named by itself here, not by a source that `T::Lookup` resolves. -/

def ensureRoot : Origin AccountId → Dispatch Fault (State T) Unit
  | .root => pure ()
  | _ => fail (.error .badOrigin)

def setTokenId (appchain : AppchainInterface AccountId) (origin : Origin AccountId)
    (tokenId : List UInt8) (assetId : Nat) : Dispatch Fault (State T) Unit := do
  ensureRoot origin
  ensure appchain.isActivated (bridgeError .notActivated)
  let assetIdByTokenId ← load State.assetIdByTokenId
  ensure (!assetIdByTokenId.any fun p => p.1 == tokenId) (bridgeError .tokenIdInUse)
  ensure (!assetIdByTokenId.any fun p => p.2 == assetId) (bridgeError .assetIdInUse)
  store fun s => { s with assetIdByTokenId := s.assetIdByTokenId ++ [(tokenId, assetId)] }

def deleteTokenId (origin : Origin AccountId) (tokenId : List UInt8) :
    Dispatch Fault (State T) Unit := do
  ensureRoot origin
  let assetIdByTokenId ← load State.assetIdByTokenId
  ensure (assetIdByTokenId.any fun p => p.1 == tokenId) (bridgeError .tokenIdNotExist)
  store fun s =>
    { s with assetIdByTokenId := s.assetIdByTokenId.filter fun p => p.1 != tokenId }

def forceUnlock (origin : Origin AccountId) (who : AccountId) (amount : Nat) :
    Dispatch Fault (State T) Unit := do
  ensureRoot origin
  orFail (onBalances (T.currency.transfer T.accountId who amount .keepAlive))
  depositEvent (.forceUnlocked who amount)

def forceMintNep141 (origin : Origin AccountId) (assetId : Nat) (who : AccountId) (amount : Nat) :
    Dispatch Fault (State T) Unit := do
  ensureRoot origin
  orFail (onAssets (T.fungibles.mintInto assetId who amount))
  depositEvent (.forceNep141Minted assetId who amount)

def forceUnlockNonfungible (origin : Origin AccountId) (who : AccountId) (collection item : Nat) :
    Dispatch Fault (State T) Unit := do
  ensureRoot origin
  orFail (onItems (T.nonfungibles.transfer collection item who))
  depositEvent (.forceNonfungibleUnlocked collection item who)

/-- The calls of the pallet, besides the three that set the fees. -/
inductive PalletCall (AccountId : Type) where
  | lock (receiverId : List UInt8) (amount : Nat)
  | burnNep141 (assetId : Nat) (receiverId : List UInt8) (amount : Nat)
  | lockNonfungible (collectionId itemId : Nat) (receiverId : List UInt8)
  | setTokenId (tokenId : List UInt8) (assetId : Nat)
  | deleteTokenId (tokenId : List UInt8)
  | forceUnlock (who : AccountId) (amount : Nat)
  | forceMintNep141 (assetId : Nat) (who : AccountId) (amount : Nat)
  | forceUnlockNonfungible (who : AccountId) (collection item : Nat)

def PalletCall.dispatch (appchain : AppchainInterface AccountId) (origin : Origin AccountId) :
    PalletCall AccountId → Dispatch Fault (State T) Unit
  | .lock receiverId amount => Bridge.lock appchain origin receiverId amount
  | .burnNep141 assetId receiverId amount =>
    Bridge.burnNep141 appchain origin assetId receiverId amount
  | .lockNonfungible collectionId itemId receiverId =>
    Bridge.lockNonfungible appchain origin collectionId itemId receiverId
  | .setTokenId tokenId assetId => Bridge.setTokenId appchain origin tokenId assetId
  | .deleteTokenId tokenId => Bridge.deleteTokenId origin tokenId
  | .forceUnlock who amount => Bridge.forceUnlock origin who amount
  | .forceMintNep141 assetId who amount => Bridge.forceMintNep141 origin assetId who amount
  | .forceUnlockNonfungible who collection item =>
    Bridge.forceUnlockNonfungible origin who collection item

/-! ## Into the appchain -/

def doUnlock (senderId : List UInt8) (receiver : AccountId) (amount sequence : Nat) :
    Dispatch DispatchError (State T) Unit := do
  let amountUnwrapped ← okOr (checkedInto T.balanceBits amount) (.bridge .amountOverflow)
  onBalances (T.currency.transfer T.accountId receiver amountUnwrapped .keepAlive)
  depositEvent (.unlocked senderId receiver amountUnwrapped sequence)

def doMintNep141 (tokenId senderId : List UInt8) (receiver : AccountId) (amount sequence : Nat) :
    Dispatch DispatchError (State T) Unit := do
  let assetId ← load fun s => s.tryGetAssetId tokenId
  let assetId ← okOr assetId (.bridge .noTokenId)
  let amountUnwrapped ← okOr (checkedInto 128 amount) (.bridge .amountOverflow)
  onAssets (T.fungibles.mintInto assetId receiver amountUnwrapped)
  depositEvent (.nep141Minted assetId senderId receiver amountUnwrapped sequence)

def doUnlockNonfungible (collection item : Nat) (senderId : List UInt8) (receiver : AccountId)
    (sequence : Nat) : Dispatch DispatchError (State T) Unit := do
  let collection ← okOr (checkedInto 128 collection) (.bridge .collectionOverflow)
  let item ← okOr (checkedInto 128 item) (.bridge .itemOverflow)
  onItems (T.nonfungibles.transfer collection item receiver)
  depositEvent (.nonfungibleUnlocked collection item senderId receiver sequence)

/-- `impl BridgeInterface for Pallet`. -/
def bridgeInterface : BridgeInterface AccountId (State T) where
  unlock := doUnlock
  mintNep141 := doMintNep141
  unlockNonfungible := doUnlockNonfungible

end OctopusPallets.Bridge
