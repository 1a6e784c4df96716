import OctopusPallets.Bridge.Pallet
import OctopusPallets.UpwardMessages.Pallet

/-!
# Who can lock an item

`lock_nonfungible` moves the item with a transfer that does not know the caller, and checks nothing
about its owner itself. So any account can lock any item that is there to be moved, once it meets
what the call asks of its other arguments.
-/

namespace OctopusPallets.Bridge

open Infra Infra.Dispatch Infra.FixedWidth

variable {AccountId : Type} {T : Config AccountId}

/-! ## When the call succeeds -/

/-- What `lock_nonfungible` asks for besides the item: an active appchain, a receiver in UTF-8,
metadata that can be serialized, a caller who can pay the fee, and a queue that takes the
message. -/
structure State.AcceptsLock (s : State T) (appchain : AppchainInterface AccountId)
    (sender : AccountId) (collection item : Nat) (receiverId : List UInt8) (receiver : String)
    (metadata : Nep171TokenMetadata) (fee : Nat) (payload : List UInt8) : Prop where
  isActivated : appchain.isActivated = true
  receiver_eq : Borsh.fromUtf8 receiverId = some receiver
  metadata_eq : T.convertIntoNep171Metadata collection item = some metadata
  serializes : Nep171TokenMetadata.codec.valid metadata = true
  fee_eq : s.transferFee .nonfungible = some fee
  fee_lt : fee < 2 ^ 128
  paid : (T.currency.transfer sender T.accountId fee .allowDeath s.balances).1 = .ok ()
  payload_eq : LockNftPayload.codec.tryToVec
    ⟨hexFormat (T.encode sender), receiver, collection, item, metadata, fee⟩ = some payload
  queued : ∃ sequence,
    (T.upwardMessages.submit (some sender) .lockNft payload s.messages).1 = .ok sequence

theorem checkedInto_eq_some {w n m : Nat} : checkedInto w n = some m ↔ n < 2 ^ w ∧ m = n := by
  unfold checkedInto
  by_cases h : n < 2 ^ w
  · simp [h, eq_comm]
  · simp [h]

theorem outbound_eq_ok {appchain : AppchainInterface AccountId} {sender : AccountId}
    {call : AccountId → Dispatch Fault (State T) Unit} {s s' : State T} :
    outbound appchain (.signed sender) call s = (.ok (), s') ↔
      appchain.isActivated = true ∧ call sender s = (.ok (), s') := by
  simp only [outbound, transactional_eq_ok, bind_eq_ok, ensureSigned, pure_eq_ok]
  constructor
  · rintro ⟨_, _, ⟨rfl, rfl⟩, _, _, hensure, hcall⟩
    obtain ⟨hactive, rfl⟩ := ensure_eq_ok.mp hensure
    exact ⟨hactive, hcall⟩
  · rintro ⟨hactive, hcall⟩
    exact ⟨_, _, ⟨rfl, rfl⟩, (), _, ensure_eq_ok.mpr ⟨hactive, rfl⟩, hcall⟩

/-- The fee is deducted exactly when one is stored and the sender can pay it. -/
theorem deductFee_eq_ok {kind : CrossChainTransferType} {sender : AccountId} {fee : Nat}
    {s s' : State T} :
    deductFee kind sender s = (.ok fee, s') ↔ s.transferFee kind = some fee ∧
      ∃ balances, T.currency.transfer sender T.accountId fee .allowDeath s.balances
        = (.ok (), balances) ∧ s' = { s with balances } := by
  simp only [deductFee, onBalances, bind_eq_ok, load_eq_ok, okOr_eq_ok, mapErr_eq_ok, zoom_eq_ok,
    pure_eq_ok]
  constructor
  · rintro ⟨_, _, ⟨rfl, rfl⟩, _, _, ⟨hfee, rfl⟩, _, _, ⟨balances, hpaid, rfl⟩, rfl, rfl⟩
    exact ⟨hfee, balances, hpaid, rfl⟩
  · rintro ⟨hfee, balances, hpaid, rfl⟩
    exact ⟨_, _, ⟨rfl, rfl⟩, _, _, ⟨hfee, rfl⟩, _, _, ⟨balances, hpaid, rfl⟩, rfl, rfl⟩

/-- **A lock succeeds exactly when the call is accepted and the item can be moved to the pallet.** -/
theorem lockNonfungible_ok_iff (appchain : AppchainInterface AccountId) (sender : AccountId)
    (collection item : Nat) (receiverId : List UInt8) (s : State T) :
    (lockNonfungible appchain (.signed sender) collection item receiverId s).1 = .ok () ↔
      (∃ receiver metadata fee payload,
        s.AcceptsLock appchain sender collection item receiverId receiver metadata fee payload) ∧
      (T.nonfungibles.transfer collection item T.accountId s.items).1 = .ok () := by
  rw [fst_eq_ok]
  simp only [lockNonfungible, outbound_eq_ok, doLockNonfungible, doLockNonfungibleTransferFee,
    depositEvent, orFail, onItems, onMessages, bind_eq_ok, okOr_eq_ok, mapErr_eq_ok, zoom_eq_ok,
    deductFee_eq_ok, checkedInto_eq_some, store_eq_ok, Codec.tryToVec_eq_some]
  constructor
  · rintro ⟨_, hactive, receiver, _, ⟨hreceiver, rfl⟩, metadata, _, ⟨hmetadata, rfl⟩, _, _,
      ⟨⟨hvalid, rfl⟩, rfl⟩, fee, _, ⟨hfee, balances, hpaid, rfl⟩, _, _, ⟨⟨hfit, rfl⟩, rfl⟩, _, _,
      ⟨items, hmoved, rfl⟩, payload, _, ⟨⟨hserializes, rfl⟩, rfl⟩, sequence, _,
      ⟨messages, hqueued, rfl⟩, -⟩
    exact ⟨⟨receiver, metadata, _, _, hactive, hreceiver, hmetadata, hvalid, hfee, hfit,
      fst_eq_ok.mpr ⟨balances, hpaid⟩, Codec.tryToVec_eq_some.mpr ⟨hserializes, rfl⟩,
      ⟨sequence, fst_eq_ok.mpr ⟨messages, hqueued⟩⟩⟩, fst_eq_ok.mpr ⟨items, hmoved⟩⟩
  · rintro ⟨⟨receiver, metadata, fee, payload, h⟩, hmoved⟩
    obtain ⟨items, hmoved⟩ := fst_eq_ok.mp hmoved
    obtain ⟨balances, hpaid⟩ := fst_eq_ok.mp h.paid
    obtain ⟨sequence, hqueued⟩ := h.queued
    obtain ⟨messages, hqueued⟩ := fst_eq_ok.mp hqueued
    obtain ⟨hserializes, hpayload⟩ := Codec.tryToVec_eq_some.mp h.payload_eq
    exact ⟨_, h.isActivated, receiver, _, ⟨h.receiver_eq, rfl⟩, metadata, _, ⟨h.metadata_eq, rfl⟩,
      _, _, ⟨⟨h.serializes, rfl⟩, rfl⟩, fee, _, ⟨h.fee_eq, balances, hpaid, rfl⟩, _, _,
      ⟨⟨h.fee_lt, rfl⟩, rfl⟩, _, _, ⟨items, hmoved, rfl⟩, payload, _,
      ⟨⟨hserializes, hpayload⟩, rfl⟩, sequence, _, ⟨messages, hqueued, rfl⟩, rfl⟩

/-! ## Whose item it is -/

/-- `nonfungibles::Transfer` as in `pallet_uniques`: an item that exists and is not frozen moves to
the destination, whoever asks for it; any other transfer fails. -/
structure MovesExisting {ν : Type} (N : Nonfungibles AccountId ν) (frozen : ν → Nat → Nat → Bool) :
    Prop where
  moves : ∀ (n : ν) (collection item : Nat) (destination : AccountId),
    (N.owner n collection item).isSome → frozen n collection item = false →
      ∃ n', N.transfer collection item destination n = (.ok (), n') ∧
        N.owner n' collection item = some destination
  refuses : ∀ (n : ν) (collection item : Nat) (destination : AccountId),
    ¬ ((N.owner n collection item).isSome ∧ frozen n collection item = false) →
      ∃ e n', N.transfer collection item destination n = (.error e, n')

theorem MovesExisting.ok_iff {ν : Type} {N : Nonfungibles AccountId ν}
    {frozen : ν → Nat → Nat → Bool} (h : MovesExisting N frozen) (n : ν) (collection item : Nat)
    (destination : AccountId) : (N.transfer collection item destination n).1 = .ok () ↔
      (N.owner n collection item).isSome ∧ frozen n collection item = false := by
  constructor
  · intro hok
    by_contra hnot
    obtain ⟨e, n', he⟩ := h.refuses n collection item destination hnot
    rw [he] at hok
    cases hok
  · rintro ⟨howner, hfrozen⟩
    obtain ⟨n', hn', -⟩ := h.moves n collection item destination howner hfrozen
    rw [hn']

theorem MovesExisting.of_ok {ν : Type} {N : Nonfungibles AccountId ν}
    {frozen : ν → Nat → Nat → Bool} (h : MovesExisting N frozen) {n n' : ν} {collection item : Nat}
    {destination : AccountId} (hmoved : N.transfer collection item destination n = (.ok (), n')) :
    frozen n collection item = false ∧ N.owner n' collection item = some destination := by
  obtain ⟨howner, hfrozen⟩ := (h.ok_iff n collection item destination).mp (congrArg Prod.fst hmoved)
  obtain ⟨n'', hmoved', howner'⟩ := h.moves n collection item destination howner hfrozen
  obtain rfl := (Prod.mk.inj (hmoved'.symm.trans hmoved)).2
  exact ⟨hfrozen, howner'⟩

/--
**Only owners lock their items exactly where nothing but the owner could stop the lock.**

"If the lock succeeds, the sender owned the item" holds of a call if and only if the sender owns the
item, or the call is not accepted for reasons that have nothing to do with the owner, or the item
does not exist or is frozen.
-/
theorem lock_only_by_owner_iff {frozen : T.Items → Nat → Nat → Bool}
    (hitems : MovesExisting T.nonfungibles frozen) (appchain : AppchainInterface AccountId)
    (sender : AccountId) (collection item : Nat) (receiverId : List UInt8) (s : State T) :
    ((lockNonfungible appchain (.signed sender) collection item receiverId s).1 = .ok () →
        T.nonfungibles.owner s.items collection item = some sender) ↔
      T.nonfungibles.owner s.items collection item = some sender ∨
        (¬ ∃ receiver metadata fee payload,
          s.AcceptsLock appchain sender collection item receiverId receiver metadata fee payload) ∨
        T.nonfungibles.owner s.items collection item = none ∨
        frozen s.items collection item = true := by
  rw [lockNonfungible_ok_iff, hitems.ok_iff]
  constructor
  · intro h
    by_cases haccepts : ∃ receiver metadata fee payload,
        s.AcceptsLock appchain sender collection item receiverId receiver metadata fee payload
    · cases howner : T.nonfungibles.owner s.items collection item with
      | none => exact Or.inr (Or.inr (Or.inl rfl))
      | some who =>
        cases hfrozen : frozen s.items collection item with
        | true => exact Or.inr (Or.inr (Or.inr rfl))
        | false =>
          rw [howner, hfrozen] at h
          exact Or.inl (h ⟨haccepts, rfl, rfl⟩)
    · exact Or.inr (Or.inl haccepts)
  · rintro (howner | hrefused | hnone | hfrozen) ⟨haccepts, hsome, hfree⟩
    · exact howner
    · exact absurd haccepts hrefused
    · rw [hnone] at hsome
      cases hsome
    · rw [hfrozen] at hfree
      cases hfree

namespace Sample

/-- Owners of items; a transfer looks at nothing but the item. -/
def uniques : Nonfungibles Nat (Nat → Nat → Option Nat) where
  owner owners := owners
  transfer collection item destination owners :=
    if (owners collection item).isSome then
      (.ok (), fun c i => if c = collection ∧ i = item then some destination else owners c i)
    else (.error (.foreign 0), owners)

theorem uniques_movesExisting : MovesExisting uniques fun _ _ _ => false where
  moves owners collection item destination howner _ := by
    refine ⟨fun c i => if c = collection ∧ i = item then some destination else owners c i, ?_, ?_⟩
    · exact if_pos howner
    · exact if_pos ⟨rfl, rfl⟩
  refuses owners collection item destination hnot := by
    refine ⟨.foreign 0, owners, if_neg fun howner => hnot ⟨howner, rfl⟩⟩

/-- A transfer that is refused leaves the owners as they were. -/
theorem uniques_clean {collection item destination : Nat} {owners owners' : Nat → Nat → Option Nat}
    {e : DispatchError} (h : uniques.transfer collection item destination owners
      = (.error e, owners')) : owners' = owners := by
  simp only [uniques] at h
  split at h
  · cases h
  · exact (Prod.mk.inj h).2.symm

def messageConfig : UpwardMessages.Config := ⟨1000, 20, by decide, by decide⟩

/-- Accounts are numbers; 99 is the pallet account, and every item has empty metadata. -/
def config : Config Nat where
  accountId := 99
  encode who := [UInt8.ofNat who]
  balanceBits := 128
  Balances := Unit
  currency := ⟨fun _ _ _ _ => pure (), fun _ _ => id⟩
  Assets := Unit
  fungibles := ⟨fun _ _ _ => pure (), fun _ _ amount => pure amount⟩
  Items := Nat → Nat → Option Nat
  nonfungibles := uniques
  Messages := UpwardMessages.State messageConfig
  upwardMessages := UpwardMessages.upwardMessagesInterface
  convertIntoNep171Metadata _ _ :=
    some ⟨none, none, none, none, none, none, none, none, none, none, none, none⟩

/-- Account 0 owns item 42 of collection 0. -/
def state : State config where
  assetIdByTokenId := []
  crosschainTransferFee _ := none
  events := []
  balances := ()
  assets := ()
  items collection item := if collection = 0 ∧ item = 42 then some 0 else none
  messages := UpwardMessages.genesisBuild messageConfig 1

def activated : AppchainInterface Nat := ⟨true, 1, []⟩

end Sample

/-- Account 0 locks its own item. -/
theorem lock_by_owner :
    (lockNonfungible Sample.activated (.signed 0) 0 42 [97] Sample.state).1 = .ok () ∧
      Sample.config.nonfungibles.owner Sample.state.items 0 42 = some 0 := by
  have hlock : (lockNonfungible Sample.activated (.signed 0) 0 42 [97] Sample.state).1 = .ok () := by
    decide
  exact ⟨hlock, (lock_only_by_owner_iff (T := Sample.config) Sample.uniques_movesExisting
    Sample.activated 0 0 42 [97] Sample.state).mpr (Or.inl (by decide)) hlock⟩

/-- Account 1 locks the item of account 0. -/
theorem lock_by_stranger :
    MovesExisting Sample.config.nonfungibles (fun _ _ _ => false) ∧
      ¬ ((lockNonfungible Sample.activated (.signed 1) 0 42 [97] Sample.state).1 = .ok () →
        Sample.config.nonfungibles.owner Sample.state.items 0 42 = some 1) :=
  ⟨Sample.uniques_movesExisting, by decide⟩

end OctopusPallets.Bridge
