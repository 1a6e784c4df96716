import OctopusPallets.Infra.JsonGrammar
import OctopusPallets.Appchain.AccountStrings

/-!
# What the mainchain answers

The answers to the two queries, as they are written: which members an object has, and what is in
them. The deserializers accept these and no others.

* `ValidatorWritten`, `HistoryWritten` — the elements of the two lists
* `readValidator_eq_ok`, `readHistory_eq_ok` — the deserializers
* `answers_read_as_written` — the queries
-/

namespace OctopusPallets.Appchain

open Infra Infra.Attempt Infra.Json

variable {AccountId : Type} {o : Outside AccountId}

/-! ## Grammar -/

def validatorNames : List String := ["validator_id_in_appchain", "total_stake"]

def historyNames : List String := ["appchain_notification", "index"]

/-- How a validator is written. -/
structure ValidatorWritten (o : Outside AccountId) (v : Value) (x : Validator AccountId) : Prop where
  shaped : v.Shaped validatorNames
  validatorIdInAppchain : v.Gives validatorNames "validator_id_in_appchain"
    (accountDeserializeFromHexStr o) (some x.validatorIdInAppchain)
  totalStake : v.Gives validatorNames "total_stake" (deserializeFromStr (2 ^ 128))
    (some x.totalStake)

/-- How the fields are written that all events have. -/
structure EventWritten (o : Outside AccountId) (names : List String) (v : Value)
    (index : Nat) (senderId : List UInt8) (receiver : AccountId) : Prop where
  shaped : v.Shaped names
  index : ∃ i, v.Gives names "index" (readUnsigned (2 ^ 32)) i ∧ index = i.getD 0
  senderId : v.Gives names "sender_id_in_near" (readBytes Borsh.asBytes) (some senderId)
  receiver : v.Gives names "receiver_id_in_appchain" (accountDeserializeFromHexStr o)
    (some receiver)

def lockAssetNames : List String :=
  ["index", "contract_account", "sender_id_in_near", "receiver_id_in_appchain", "amount"]

def burnNames : List String := ["index", "sender_id_in_near", "receiver_id_in_appchain", "amount"]

def burnNftNames : List String :=
  ["index", "sender_id_in_near", "receiver_id_in_appchain", "class_id", "token_id"]

structure LockAssetWritten (o : Outside AccountId) (v : Value) (event : LockAssetEvent AccountId) :
    Prop extends EventWritten o lockAssetNames v event.index event.senderId event.receiver where
  tokenId : v.Gives lockAssetNames "contract_account" (readBytes Borsh.asBytes) (some event.tokenId)
  amount : v.Gives lockAssetNames "amount" (deserializeFromStr (2 ^ 128)) (some event.amount)

structure BurnWritten (o : Outside AccountId) (v : Value) (event : BurnEvent AccountId) :
    Prop extends EventWritten o burnNames v event.index event.senderId event.receiver where
  amount : v.Gives burnNames "amount" (deserializeFromStr (2 ^ 128)) (some event.amount)

structure BurnNftWritten (o : Outside AccountId) (v : Value) (event : BurnNftEvent AccountId) :
    Prop extends EventWritten o burnNftNames v event.index event.senderId event.receiver where
  collection : v.Gives burnNftNames "class_id" (deserializeFromStr (2 ^ 128))
    (some event.collection)
  item : v.Gives burnNftNames "token_id" (deserializeFromStr (2 ^ 128)) (some event.item)

/-- An object with one member. -/
def tagged (key : String) (v : Value) : Value := .object (.cons key v .close)

/-- How a notification is written: under the name of its kind. -/
def NotificationWritten (o : Outside AccountId) (v : Value) :
    AppchainNotification AccountId → Prop
  | .lockAsset event => ∃ w, v = tagged "NearFungibleTokenLocked" w ∧ LockAssetWritten o w event
  | .burn event => ∃ w, v = tagged "WrappedAppchainTokenBurnt" w ∧ BurnWritten o w event
  | .burnNft event => ∃ w, v = tagged "WrappedAppchainNFTLocked" w ∧ BurnNftWritten o w event

/-- How an entry of the history is written. -/
structure HistoryWritten (o : Outside AccountId) (v : Value)
    (n : AppchainNotificationHistory AccountId) : Prop where
  shaped : v.Shaped historyNames
  appchainNotification : ∃ w, v.fieldValues historyNames "appchain_notification" = [w] ∧
    NotificationWritten o w n.appchainNotification
  index : v.Gives historyNames "index" (deserializeFromStr (2 ^ 32)) (some n.index)

/-- A text that is a list. -/
def ListWritten {α : Type} (written : Value → α → Prop) (d : Document) (as : List α) : Prop :=
  d.ended = true ∧ ∃ elements, d.value = .array elements ∧ elements.Closed ∧
    List.Forall₂ written elements.toList as

/-- The observations that are written in an answer. -/
def MainchainQuery.Written (o : Outside AccountId) (document : Document) :
    MainchainQuery → List (Observation AccountId) → Prop
  | .validatorListOf setId, obs => ∃ validators,
    ListWritten (ValidatorWritten o) document validators ∧
      (if validators.isEmpty then [] else [.updateValidatorSet ⟨setId, validators⟩]) = obs
  | .appchainNotificationHistories _ _, obs => ∃ notifications,
    ListWritten (HistoryWritten o) document notifications ∧
      notifications.map AppchainNotificationHistory.observation = obs

/-! ## Places -/

def validatorSlots (o : Outside AccountId) : List (Slot (ValidatorFields AccountId)) :=
  [⟨_, "validator_id_in_appchain", ValidatorFields.validatorIdInAppchain,
      fun a s => { s with validatorIdInAppchain := some a }, accountDeserializeFromHexStr o⟩,
    ⟨_, "total_stake", ValidatorFields.totalStake, fun n s => { s with totalStake := some n },
      deserializeFromStr (2 ^ 128)⟩]

def historySlots (o : Outside AccountId) : List (Slot (HistoryFields AccountId)) :=
  [⟨_, "appchain_notification", HistoryFields.appchainNotification,
      fun n s => { s with appchainNotification := some n }, readVariant (notificationVariants o)⟩,
    ⟨_, "index", HistoryFields.index, fun n s => { s with index := some n },
      deserializeFromStr (2 ^ 32)⟩]

def indexSlot : Slot (EventFields AccountId) :=
  ⟨_, "index", EventFields.index, fun n s => { s with index := some n }, readUnsigned (2 ^ 32)⟩

def tokenIdSlot : Slot (EventFields AccountId) :=
  ⟨_, "contract_account", EventFields.tokenId, fun b s => { s with tokenId := some b },
    readBytes Borsh.asBytes⟩

def senderIdSlot : Slot (EventFields AccountId) :=
  ⟨_, "sender_id_in_near", EventFields.senderId, fun b s => { s with senderId := some b },
    readBytes Borsh.asBytes⟩

def receiverSlot (o : Outside AccountId) : Slot (EventFields AccountId) :=
  ⟨_, "receiver_id_in_appchain", EventFields.receiver, fun a s => { s with receiver := some a },
    accountDeserializeFromHexStr o⟩

def amountSlot : Slot (EventFields AccountId) :=
  ⟨_, "amount", EventFields.amount, fun n s => { s with amount := some n },
    deserializeFromStr (2 ^ 128)⟩

def collectionSlot : Slot (EventFields AccountId) :=
  ⟨_, "class_id", EventFields.collection, fun n s => { s with collection := some n },
    deserializeFromStr (2 ^ 128)⟩

def itemSlot : Slot (EventFields AccountId) :=
  ⟨_, "token_id", EventFields.item, fun n s => { s with item := some n },
    deserializeFromStr (2 ^ 128)⟩

def lockAssetSlots (o : Outside AccountId) : List (Slot (EventFields AccountId)) :=
  [indexSlot, tokenIdSlot, senderIdSlot, receiverSlot o, amountSlot]

def burnSlots (o : Outside AccountId) : List (Slot (EventFields AccountId)) :=
  [indexSlot, senderIdSlot, receiverSlot o, amountSlot]

def burnNftSlots (o : Outside AccountId) : List (Slot (EventFields AccountId)) :=
  [indexSlot, senderIdSlot, receiverSlot o, collectionSlot, itemSlot]

theorem validatorSlots_places : Places ⟨none, none⟩ (validatorSlots o) := by
  constructor <;> simp [validatorSlots, Slot.apart_iff]

theorem historySlots_places : Places ⟨none, none⟩ (historySlots o) := by
  constructor <;> simp [historySlots, Slot.apart_iff]

theorem lockAssetSlots_places : Places .empty (lockAssetSlots o) := by
  constructor <;> simp [lockAssetSlots, indexSlot, tokenIdSlot, senderIdSlot, receiverSlot,
    amountSlot, Slot.apart_iff, EventFields.empty]

theorem burnSlots_places : Places .empty (burnSlots o) := by
  constructor <;> simp [burnSlots, indexSlot, senderIdSlot, receiverSlot, amountSlot,
    Slot.apart_iff, EventFields.empty]

theorem burnNftSlots_places : Places .empty (burnNftSlots o) := by
  constructor <;> simp [burnNftSlots, indexSlot, senderIdSlot, receiverSlot, collectionSlot,
    itemSlot, Slot.apart_iff, EventFields.empty]

/-! ## Deserializers -/

theorem readValidator_eq_ok {v : Value} {x : Validator AccountId} :
    readValidator o v = .ok x ↔ ValidatorWritten o v x := by
  refine readStruct_eq_ok.trans ⟨?_, fun h => ?_⟩
  · rintro ⟨⟨_ | id, _ | stake⟩, hs, hbuild⟩ <;> cases hbuild
    exact ⟨validatorSlots_places.shaped hs, validatorSlots_places.gives hs (.head _),
      validatorSlots_places.gives hs (.tail _ (.head _))⟩
  · obtain ⟨s, hs, hsame⟩ := validatorSlots_places.exists_read
      ⟨some x.validatorIdInAppchain, some x.totalStake⟩ h.shaped
      (List.forall_mem_cons.mpr ⟨h.validatorIdInAppchain,
        List.forall_mem_singleton.mpr h.totalStake⟩)
    have hid : s.validatorIdInAppchain = some x.validatorIdInAppchain := hsame _ (.head _)
    have hstake : s.totalStake = some x.totalStake := hsame _ (.tail _ (.head _))
    refine ⟨s, hs, ?_⟩
    rw [hid, hstake]
    rfl

theorem readLockAsset_eq_ok {v : Value} {event : LockAssetEvent AccountId} :
    readLockAsset o v = .ok event ↔ LockAssetWritten o v event := by
  refine readStruct_eq_ok.trans ⟨?_, fun h => ?_⟩
  · rintro ⟨⟨index, _ | tokenId, _ | senderId, _ | receiver, _ | amount, _, _⟩, hs, hbuild⟩ <;>
      cases hbuild
    have hgives : ∀ a ∈ lockAssetSlots o, v.Gives lockAssetNames a.name a.read (a.get _) :=
      fun a ha => lockAssetSlots_places.gives hs ha
    exact ⟨⟨lockAssetSlots_places.shaped hs, ⟨_, hgives indexSlot (by simp [lockAssetSlots]), rfl⟩,
        hgives senderIdSlot (by simp [lockAssetSlots]),
        hgives (receiverSlot o) (by simp [lockAssetSlots])⟩,
      hgives tokenIdSlot (by simp [lockAssetSlots]), hgives amountSlot (by simp [lockAssetSlots])⟩
  · obtain ⟨i, hi, hindex⟩ := h.index
    obtain ⟨s, hs, hsame⟩ := lockAssetSlots_places.exists_read
      ⟨i, some event.tokenId, some event.senderId, some event.receiver, some event.amount, none,
        none⟩ h.shaped
      (by simpa [lockAssetSlots] using ⟨hi, h.tokenId, h.senderId, h.receiver, h.amount⟩)
    obtain ⟨hi, htoken, hsender, hreceiver, hamount⟩ : s.index = i ∧
        s.tokenId = some event.tokenId ∧ s.senderId = some event.senderId ∧
        s.receiver = some event.receiver ∧ s.amount = some event.amount := by
      simpa [lockAssetSlots, indexSlot, tokenIdSlot, senderIdSlot, receiverSlot, amountSlot]
        using hsame
    refine ⟨s, hs, ?_⟩
    rw [hi, htoken, hsender, hreceiver, hamount, ← hindex]
    rfl

theorem readBurn_eq_ok {v : Value} {event : BurnEvent AccountId} :
    readBurn o v = .ok event ↔ BurnWritten o v event := by
  refine readStruct_eq_ok.trans ⟨?_, fun h => ?_⟩
  · rintro ⟨⟨index, _, _ | senderId, _ | receiver, _ | amount, _, _⟩, hs, hbuild⟩ <;>
      cases hbuild
    have hgives : ∀ a ∈ burnSlots o, v.Gives burnNames a.name a.read (a.get _) :=
      fun a ha => burnSlots_places.gives hs ha
    exact ⟨⟨burnSlots_places.shaped hs, ⟨_, hgives indexSlot (by simp [burnSlots]), rfl⟩,
        hgives senderIdSlot (by simp [burnSlots]), hgives (receiverSlot o) (by simp [burnSlots])⟩,
      hgives amountSlot (by simp [burnSlots])⟩
  · obtain ⟨i, hi, hindex⟩ := h.index
    obtain ⟨s, hs, hsame⟩ := burnSlots_places.exists_read
      ⟨i, none, some event.senderId, some event.receiver, some event.amount, none, none⟩ h.shaped
      (by simpa [burnSlots] using ⟨hi, h.senderId, h.receiver, h.amount⟩)
    obtain ⟨hi, hsender, hreceiver, hamount⟩ : s.index = i ∧ s.senderId = some event.senderId ∧
        s.receiver = some event.receiver ∧ s.amount = some event.amount := by
      simpa [burnSlots, indexSlot, senderIdSlot, receiverSlot, amountSlot] using hsame
    refine ⟨s, hs, ?_⟩
    rw [hi, hsender, hreceiver, hamount, ← hindex]
    rfl

theorem readBurnNft_eq_ok {v : Value} {event : BurnNftEvent AccountId} :
    readBurnNft o v = .ok event ↔ BurnNftWritten o v event := by
  refine readStruct_eq_ok.trans ⟨?_, fun h => ?_⟩
  · rintro ⟨⟨index, _, _ | senderId, _ | receiver, _, _ | collection, _ | item⟩, hs, hbuild⟩ <;>
      cases hbuild
    have hgives : ∀ a ∈ burnNftSlots o, v.Gives burnNftNames a.name a.read (a.get _) :=
      fun a ha => burnNftSlots_places.gives hs ha
    exact ⟨⟨burnNftSlots_places.shaped hs, ⟨_, hgives indexSlot (by simp [burnNftSlots]), rfl⟩,
        hgives senderIdSlot (by simp [burnNftSlots]),
        hgives (receiverSlot o) (by simp [burnNftSlots])⟩,
      hgives collectionSlot (by simp [burnNftSlots]), hgives itemSlot (by simp [burnNftSlots])⟩
  · obtain ⟨i, hi, hindex⟩ := h.index
    obtain ⟨s, hs, hsame⟩ := burnNftSlots_places.exists_read
      ⟨i, none, some event.senderId, some event.receiver, none, some event.collection,
        some event.item⟩ h.shaped
      (by simpa [burnNftSlots] using ⟨hi, h.senderId, h.receiver, h.collection, h.item⟩)
    obtain ⟨hi, hsender, hreceiver, hcollection, hitem⟩ : s.index = i ∧
        s.senderId = some event.senderId ∧ s.receiver = some event.receiver ∧
        s.collection = some event.collection ∧ s.item = some event.item := by
      simpa [burnNftSlots, indexSlot, senderIdSlot, receiverSlot, collectionSlot, itemSlot]
        using hsame
    refine ⟨s, hs, ?_⟩
    rw [hi, hsender, hreceiver, hcollection, hitem, ← hindex]
    rfl

theorem readNotification_eq_ok {v : Value} {n : AppchainNotification AccountId} :
    readVariant (notificationVariants o) v = .ok n ↔ NotificationWritten o v n := by
  refine readVariant_eq_ok.trans ⟨?_, fun h => ?_⟩
  · rintro ⟨key, w, read, rfl, hread, hn⟩
    unfold notificationVariants at hread
    split at hread
    · cases hread
      obtain ⟨event, hevent, rfl⟩ := map_eq_ok.mp hn
      exact ⟨w, rfl, readLockAsset_eq_ok.mp hevent⟩
    · cases hread
      obtain ⟨event, hevent, rfl⟩ := map_eq_ok.mp hn
      exact ⟨w, rfl, readBurn_eq_ok.mp hevent⟩
    · cases hread
      obtain ⟨event, hevent, rfl⟩ := map_eq_ok.mp hn
      exact ⟨w, rfl, readBurnNft_eq_ok.mp hevent⟩
    · cases hread
  · cases n with
    | lockAsset event =>
      obtain ⟨w, rfl, hevent⟩ := h
      exact ⟨_, w, _, rfl, rfl, map_eq_ok.mpr ⟨event, readLockAsset_eq_ok.mpr hevent, rfl⟩⟩
    | burn event =>
      obtain ⟨w, rfl, hevent⟩ := h
      exact ⟨_, w, _, rfl, rfl, map_eq_ok.mpr ⟨event, readBurn_eq_ok.mpr hevent, rfl⟩⟩
    | burnNft event =>
      obtain ⟨w, rfl, hevent⟩ := h
      exact ⟨_, w, _, rfl, rfl, map_eq_ok.mpr ⟨event, readBurnNft_eq_ok.mpr hevent, rfl⟩⟩

theorem readHistory_eq_ok {v : Value} {n : AppchainNotificationHistory AccountId} :
    readHistory o v = .ok n ↔ HistoryWritten o v n := by
  refine readStruct_eq_ok.trans ⟨?_, fun h => ?_⟩
  · rintro ⟨⟨_ | notification, _ | index⟩, hs, hbuild⟩ <;> cases hbuild
    obtain ⟨w, hw, hread⟩ := historySlots_places.gives hs (.head _)
    exact ⟨historySlots_places.shaped hs, ⟨w, hw, readNotification_eq_ok.mp hread⟩,
      historySlots_places.gives hs (.tail _ (.head _))⟩
  · obtain ⟨w, hw, hwritten⟩ := h.appchainNotification
    obtain ⟨s, hs, hsame⟩ := historySlots_places.exists_read
      ⟨some n.appchainNotification, some n.index⟩ h.shaped
      (List.forall_mem_cons.mpr ⟨⟨w, hw, readNotification_eq_ok.mpr hwritten⟩,
        List.forall_mem_singleton.mpr h.index⟩)
    have hnotification : s.appchainNotification = some n.appchainNotification := hsame _ (.head _)
    have hindex : s.index = some n.index := hsame _ (.tail _ (.head _))
    refine ⟨s, hs, ?_⟩
    rw [hnotification, hindex]
    rfl

/-! ## Queries -/

theorem listWritten_iff {α : Type} {read : Reader α} {written : Value → α → Prop}
    (h : ∀ {v a}, read v = .ok a ↔ written v a) {d : Document} {as : List α} :
    fromSlice (readList read) d = .ok as ↔ ListWritten written d as := by
  have hsame : (fun v a => read v = .ok a) = written := by
    funext v a
    exact propext h
  rw [fromSlice_eq_ok, readList_eq_ok, hsame]
  rfl

/-- A call that the endpoint answers. -/
theorem callFunction_eq_ok {rpcEndpoint : String} {anchorContract : List UInt8}
    {methodName argsBase64 : String} {document : Document} :
    callFunction o rpcEndpoint anchorContract methodName argsBase64 = .ok document ↔
      ∃ accountId body result, Borsh.fromUtf8 anchorContract = some accountId ∧
        o.post rpcEndpoint ⟨"2.0", "dontcare", "query",
          ⟨"call_function", "final", accountId, methodName, argsBase64⟩⟩ = .ok (200, body) ∧
        o.response body = some result ∧ o.json result = document := by
  unfold callFunction
  simp only [bind_eq_ok, okOr_eq_ok]
  constructor
  · rintro ⟨accountId, haccount, h⟩
    split at h
    · cases h
    · next code body hpost =>
      split at h
      · cases h
      · next hcode =>
        obtain rfl : code = 200 := by simpa using hcode
        obtain ⟨result, hresult, h⟩ := bind_eq_ok.mp h
        exact ⟨accountId, body, result, haccount, hpost, okOr_eq_ok.mp hresult, pure_eq_ok.mp h⟩
  · rintro ⟨accountId, body, result, haccount, hpost, hresult, rfl⟩
    refine ⟨accountId, haccount, ?_⟩
    rw [hpost]
    exact bind_eq_ok.mpr ⟨result, okOr_eq_ok.mpr hresult, rfl⟩

/-- What the two queries share, when they succeed. -/
theorem readAnswer_eq_ok {α β : Type} {call : Attempt HttpError Document} {read : Reader α}
    {written : Value → α → Prop} (h : ∀ {v a}, read v = .ok a ↔ written v a)
    {result : List α → β} {b : β} :
    (do
      let document ← call
      let l ← mapErr (fun _ => HttpError.unknown) (fromSlice (readList read) document)
      pure (result l) : Attempt HttpError β) = .ok b ↔
        ∃ document, call = .ok document ∧ ∃ l, ListWritten written document l ∧ result l = b := by
  simp only [bind_eq_ok, Attempt.mapErr_eq_ok, pure_eq_ok, listWritten_iff h]

/--
**Answers are read as they are written.** A query succeeds exactly when the endpoint answers with a
list of validators, or of notifications: objects with each of their members once, in any order and
among others, or arrays of the members in their order, and accounts and integers as strings. Then it
returns what is written there.
-/
theorem answers_read_as_written (o : Outside AccountId) (rpcEndpoint : String)
    (anchorContract : List UInt8) (q : MainchainQuery) (obs : List (Observation AccountId)) :
    q.run o rpcEndpoint anchorContract = .ok obs ↔
      ∃ document, q.answer o rpcEndpoint anchorContract = .ok document ∧ q.Written o document obs := by
  cases q with
  | validatorListOf setId => exact readAnswer_eq_ok readValidator_eq_ok
  | appchainNotificationHistories index limit => exact readAnswer_eq_ok readHistory_eq_ok

end OctopusPallets.Appchain
