/-!
# Errors

The `Error` enumeration of each pallet, and the `DispatchError` that a call of one pallet sees
when it calls another. Of the errors of the lpos pallet only those that its code raises are here.
-/

namespace OctopusPallets

inductive Appchain.Error where
  /-- The set id of new validator set was wrong. -/
  | wrongSetId
  /-- Invalid notification id of observation. -/
  | invalidNotificationId
  /-- Must be a validator. -/
  | notValidator
  /-- Next notification Id overflow. -/
  | nextNotificationIdOverflow
  /-- Invalid active total stake. -/
  | invalidActiveTotalStake
  /-- Appchain is not activated. -/
  | notActivated
  /-- ReceiverId is not a valid utf8 string. -/
  | invalidReceiverId
  /-- Next set Id overflow. -/
  | nextSetIdOverflow
  /-- Observations exceeded limit. -/
  | observationsExceededLimit
deriving DecidableEq

inductive Bridge.Error where
  | amountOverflow
  | collectionOverflow
  | itemOverflow
  | noTokenId
  | noAssetId
  | notActivated
  | invalidReceiverId
  | invalidTokenId
  | tokenIdInUse
  | assetIdInUse
  | tokenIdNotExist
  | convertorNotImplement
  | noOracleAccount
  | nearPriceSetedIsZero
  | nativeTokenPriceSetedIsZero
  | updatePriceWithNoPermissionAccount
  | notEnoughBalanceForDeductionFee
  | invalidCoef
  | invalidFeeMakeOverflow
  | borshSerializeFailed
deriving DecidableEq

inductive Lpos.Error where
  | amountOverflow
  | borshSerializeFailed
deriving DecidableEq

inductive UpwardMessages.Error where
  /-- The message payload exceeds byte limit. -/
  | payloadTooLarge
  /-- No more messages can be queued for the channel during this commit cycle. -/
  | queueSizeLimitReached
  /-- Cannot increment nonce -/
  | nonceOverflow
deriving DecidableEq

/-- `sp_runtime::DispatchError`. `foreign` stands for the errors of pallets outside this
repository. -/
inductive DispatchError where
  | badOrigin
  | appchain (e : Appchain.Error)
  | bridge (e : Bridge.Error)
  | lpos (e : Lpos.Error)
  | upwardMessages (e : UpwardMessages.Error)
  | foreign (code : Nat)
deriving DecidableEq

/-- How code that can panic fails: with an error for the caller, or by aborting. -/
inductive Fault where
  | error (e : DispatchError)
  | abort
deriving DecidableEq

/-- `frame_system::RawOrigin`. -/
inductive Origin (AccountId : Type) where
  | root
  | signed (who : AccountId)
  | none

end OctopusPallets
