import OctopusPallets.Bridge.Ownership

/-!
# What a call of the bridge does

A call of an account either fails and changes nothing, or it is one of three transfers: the fee is
paid, the asset is moved, and one message is queued, in one transaction. `Outbound` says so. Root
and the notifications move tokens the other way, without a transaction.

* `dispatch_signed`, `dispatch_root` — the calls of accounts and of root
* `doUnlock_eq_ok`, `doMintNep141_eq_ok`, `doUnlockNonfungible_eq_ok` — behind the notifications
-/

namespace OctopusPallets.Bridge

open Infra Infra.Dispatch Infra.FixedWidth

variable {AccountId : Type} {T : Config AccountId}

/-! ## Out of the appchain -/

/-- A transfer out of the appchain that went through. -/
inductive Outbound (sender : AccountId) : PalletCall AccountId → State T → State T → Prop where
  | lock {s : State T} {receiverId : List UInt8} {receiver : String} {amount fee sequence : Nat}
    {paid moved : T.Balances} {messages : T.Messages}
    (hreceiver : Borsh.fromUtf8 receiverId = some receiver) (hamount : amount < 2 ^ 128)
    (hstored : s.transferFee .fungible = some fee)
    (hfee : T.currency.transfer sender T.accountId fee .allowDeath s.balances = (.ok (), paid))
    (hmoved : T.currency.transfer sender T.accountId amount .allowDeath paid = (.ok (), moved))
    (hmessage : LockPayload.codec.valid ⟨hexFormat (T.encode sender), receiver, amount, fee⟩ = true)
    (hsubmit : T.upwardMessages.submit (some sender) .lock
      (LockPayload.codec.encode ⟨hexFormat (T.encode sender), receiver, amount, fee⟩) s.messages
        = (.ok sequence, messages)) :
    Outbound sender (.lock receiverId amount) s { s with
      balances := moved
      messages
      events := s.events ++ [.locked sender (Borsh.asBytes receiver) amount fee sequence] }
  | burnNep141 {s : State T} {receiverId token : List UInt8} {receiver tokenId : String}
    {assetId amount burned fee sequence : Nat}
    {paid : T.Balances} {assets : T.Assets} {messages : T.Messages}
    (hreceiver : Borsh.fromUtf8 receiverId = some receiver)
    (htoken : s.tryGetTokenId assetId = some token) (htokenId : Borsh.fromUtf8 token = some tokenId)
    (hstored : s.transferFee .fungible = some fee)
    (hfee : T.currency.transfer sender T.accountId fee .allowDeath s.balances = (.ok (), paid))
    (hburned : T.fungibles.burnFrom assetId sender amount s.assets = (.ok burned, assets))
    (hmessage : BurnAssetPayload.codec.valid
      ⟨tokenId, hexFormat (T.encode sender), receiver, amount, fee⟩ = true)
    (hsubmit : T.upwardMessages.submit (some sender) .burnAsset
      (BurnAssetPayload.codec.encode
        ⟨tokenId, hexFormat (T.encode sender), receiver, amount, fee⟩) s.messages
          = (.ok sequence, messages)) :
    Outbound sender (.burnNep141 assetId receiverId amount) s { s with
      balances := paid
      assets
      messages
      events := s.events ++
        [.nep141Burned assetId sender (Borsh.asBytes receiver) amount fee sequence] }
  | lockNonfungible {s : State T} {receiverId : List UInt8} {receiver : String}
    {metadata : Nep171TokenMetadata} {collection item fee sequence : Nat}
    {paid : T.Balances} {items : T.Items} {messages : T.Messages}
    (hreceiver : Borsh.fromUtf8 receiverId = some receiver)
    (hmetadata : T.convertIntoNep171Metadata collection item = some metadata)
    (hstored : s.transferFee .nonfungible = some fee)
    (hfee : T.currency.transfer sender T.accountId fee .allowDeath s.balances = (.ok (), paid))
    (hmoved : T.nonfungibles.transfer collection item T.accountId s.items = (.ok (), items))
    (hmessage : LockNftPayload.codec.valid
      ⟨hexFormat (T.encode sender), receiver, collection, item, metadata, fee⟩ = true)
    (hsubmit : T.upwardMessages.submit (some sender) .lockNft
      (LockNftPayload.codec.encode
        ⟨hexFormat (T.encode sender), receiver, collection, item, metadata, fee⟩) s.messages
          = (.ok sequence, messages)) :
    Outbound sender (.lockNonfungible collection item receiverId) s { s with
      balances := paid
      items
      messages
      events := s.events ++
        [.nonfungibleLocked collection item sender (Borsh.asBytes receiver) fee sequence] }

theorem lock_outbound {appchain : AppchainInterface AccountId} {sender : AccountId}
    {receiverId : List UInt8} {amount : Nat} {s s' : State T}
    (h : Bridge.lock appchain (.signed sender) receiverId amount s = (.ok (), s')) :
    appchain.isActivated = true ∧ Outbound sender (.lock receiverId amount) s s' := by
  simp only [Bridge.lock, outbound_eq_ok, doLock, doLockFungibleTransferFee, depositEvent, orFail,
    onBalances, onMessages, bind_eq_ok, okOr_eq_ok, mapErr_eq_ok, zoom_eq_ok, deductFee_eq_ok,
    checkedInto_eq_some, store_eq_ok, Codec.tryToVec_eq_some] at h
  obtain ⟨hactive, receiver, _, ⟨hreceiver, rfl⟩, _, _, ⟨⟨hamount, rfl⟩, rfl⟩, fee, _,
    ⟨hstored, paid, hfee, rfl⟩, _, _, ⟨⟨-, rfl⟩, rfl⟩, _, _, ⟨moved, hmoved, rfl⟩, _, _,
    ⟨⟨hmessage, rfl⟩, rfl⟩, sequence, _, ⟨messages, hsubmit, rfl⟩, rfl⟩ := h
  exact ⟨hactive, .lock hreceiver hamount hstored hfee hmoved hmessage hsubmit⟩

theorem burnNep141_eq_ok {appchain : AppchainInterface AccountId} {sender : AccountId}
    {assetId : Nat} {receiverId : List UInt8} {amount : Nat} {s s' : State T} :
    Bridge.burnNep141 appchain (.signed sender) assetId receiverId amount s = (.ok (), s') ↔
      appchain.isActivated = true ∧ Outbound sender (.burnNep141 assetId receiverId amount) s s' := by
  simp only [Bridge.burnNep141, outbound_eq_ok, doBurnNep141, doLockFungibleTransferFee,
    depositEvent, orFail, onAssets, onMessages, bind_eq_ok, okOr_eq_ok, load_eq_ok, mapErr_eq_ok,
    zoom_eq_ok, deductFee_eq_ok, checkedInto_eq_some, store_eq_ok, Codec.tryToVec_eq_some]
  constructor
  · rintro ⟨hactive, receiver, _, ⟨hreceiver, rfl⟩, _, _, ⟨rfl, rfl⟩, token, _, ⟨htoken, rfl⟩,
      tokenId, _, ⟨htokenId, rfl⟩, fee, _, ⟨hstored, paid, hfee, rfl⟩, _, _, ⟨⟨-, rfl⟩, rfl⟩,
      burned, _, ⟨assets, hburned, rfl⟩, _, _, ⟨⟨hmessage, rfl⟩, rfl⟩, sequence, _,
      ⟨messages, hsubmit, rfl⟩, rfl⟩
    exact ⟨hactive, .burnNep141 hreceiver htoken htokenId hstored hfee hburned hmessage hsubmit⟩
  · rintro ⟨hactive, hout⟩
    cases hout with
    | burnNep141 hreceiver htoken htokenId hstored hfee hburned hmessage hsubmit =>
      exact ⟨hactive, _, _, ⟨hreceiver, rfl⟩, _, _, ⟨rfl, rfl⟩, _, _, ⟨htoken, rfl⟩, _, _,
        ⟨htokenId, rfl⟩, _, _, ⟨hstored, _, hfee, rfl⟩, _, _,
        ⟨⟨BurnAssetPayload.fee_lt hmessage, rfl⟩, rfl⟩, _, _, ⟨_, hburned, rfl⟩, _, _,
        ⟨⟨hmessage, rfl⟩, rfl⟩, _, _, ⟨_, hsubmit, rfl⟩, rfl⟩

theorem lockNonfungible_outbound {appchain : AppchainInterface AccountId} {sender : AccountId}
    {collection item : Nat} {receiverId : List UInt8} {s s' : State T}
    (h : Bridge.lockNonfungible appchain (.signed sender) collection item receiverId s
      = (.ok (), s')) :
    appchain.isActivated = true ∧
      Outbound sender (.lockNonfungible collection item receiverId) s s' := by
  simp only [Bridge.lockNonfungible, outbound_eq_ok, doLockNonfungible,
    doLockNonfungibleTransferFee, depositEvent, orFail, onItems, onMessages, bind_eq_ok, okOr_eq_ok,
    mapErr_eq_ok, zoom_eq_ok, deductFee_eq_ok, checkedInto_eq_some, store_eq_ok,
    Codec.tryToVec_eq_some] at h
  obtain ⟨hactive, receiver, _, ⟨hreceiver, rfl⟩, metadata, _, ⟨hmetadata, rfl⟩, _, _,
    ⟨⟨-, rfl⟩, rfl⟩, fee, _, ⟨hstored, paid, hfee, rfl⟩, _, _, ⟨⟨-, rfl⟩, rfl⟩, _, _,
    ⟨items, hmoved, rfl⟩, _, _, ⟨⟨hmessage, rfl⟩, rfl⟩, sequence, _, ⟨messages, hsubmit, rfl⟩,
    rfl⟩ := h
  exact ⟨hactive, .lockNonfungible hreceiver hmetadata hstored hfee hmoved hmessage hsubmit⟩

theorem transactional_cases {ε σ : Type} (x : Dispatch ε σ Unit) (s : σ) :
    (∃ e, transactional x s = (.error e, s)) ∨ ∃ s', transactional x s = (.ok (), s') := by
  rcases hx : x s with ⟨e | _, s'⟩
  · exact Or.inl ⟨e, transactional_error hx⟩
  · exact Or.inr ⟨s', transactional_ok hx⟩

/-- **A call of an account fails and changes nothing, or it is a transfer out of an active
appchain.** -/
theorem dispatch_signed (appchain : AppchainInterface AccountId) (sender : AccountId)
    (call : PalletCall AccountId) (s : State T) :
    (∃ e, call.dispatch appchain (.signed sender) s = (.error e, s)) ∨
      ∃ s', call.dispatch appchain (.signed sender) s = (.ok (), s') ∧
        appchain.isActivated = true ∧ Outbound sender call s s' := by
  cases call with
  | lock receiverId amount =>
    rcases transactional_cases _ s with ⟨e, he⟩ | ⟨s', hs'⟩
    · exact Or.inl ⟨e, he⟩
    · exact Or.inr ⟨s', hs', lock_outbound hs'⟩
  | burnNep141 assetId receiverId amount =>
    rcases transactional_cases _ s with ⟨e, he⟩ | ⟨s', hs'⟩
    · exact Or.inl ⟨e, he⟩
    · exact Or.inr ⟨s', hs', burnNep141_eq_ok.mp hs'⟩
  | lockNonfungible collection item receiverId =>
    rcases transactional_cases _ s with ⟨e, he⟩ | ⟨s', hs'⟩
    · exact Or.inl ⟨e, he⟩
    · exact Or.inr ⟨s', hs', lockNonfungible_outbound hs'⟩
  | setTokenId _ _ | deleteTokenId _ | forceUnlock _ _ | forceMintNep141 _ _ _
  | forceUnlockNonfungible _ _ _ => exact Or.inl ⟨_, rfl⟩

theorem dispatch_none (appchain : AppchainInterface AccountId) (call : PalletCall AccountId)
    (s : State T) : ∃ e, call.dispatch appchain .none s = (.error e, s) := by
  cases call <;> exact ⟨_, rfl⟩

/-! ## Calls of root -/

/-- The native tokens that an event reports to be released from the pallet account. -/
def Event.released : Event AccountId → Nat
  | .unlocked _ _ amount _ => amount
  | .forceUnlocked _ amount => amount
  | _ => 0

def State.released (s : State T) : Nat := (s.events.map Event.released).sum

/-- What root changes with `force_unlock` only. -/
def State.purse (s : State T) : T.Balances × T.Messages × Nat := (s.balances, s.messages, s.released)

theorem depositEvent_released {ε : Type} (event : Event AccountId) (s : State T) :
    ((depositEvent event : Dispatch ε _ _) s).2.released = s.released + event.released := by
  show ((s.events ++ [event]).map Event.released).sum = _
  simp [State.released]

theorem depositEvent_purse {ε : Type} {event : Event AccountId} (h : event.released = 0) :
    Keeps (State.purse : State T → _) (depositEvent event : Dispatch ε _ _) := by
  intro s
  have hreleased : ((depositEvent event : Dispatch ε _ _) s).2.released = _ :=
    depositEvent_released event s
  rw [h, Nat.add_zero] at hreleased
  exact congrArg (fun n => (s.balances, s.messages, n)) hreleased

theorem onAssets_purse {α : Type} (x : Dispatch DispatchError T.Assets α) :
    Keeps (State.purse : State T → _) (onAssets x) :=
  fun _ => rfl

theorem onItems_purse {α : Type} (x : Dispatch DispatchError T.Items α) :
    Keeps (State.purse : State T → _) (onItems x) :=
  fun _ => rfl

theorem dispatch_root (appchain : AppchainInterface AccountId) {call : PalletCall AccountId}
    (hcall : ∀ who amount, call ≠ .forceUnlock who amount) :
    Keeps (State.purse : State T → _) (call.dispatch appchain .root) := by
  cases call with
  | forceUnlock who amount => exact absurd rfl (hcall who amount)
  | lock _ _ | burnNep141 _ _ _ | lockNonfungible _ _ _ => exact fun _ => rfl
  | setTokenId tokenId assetId =>
    exact .bind (.pure _) fun _ => .bind (.ensure _ _) fun _ => .bind (.load _) fun _ =>
      .bind (.ensure _ _) fun _ => .bind (.ensure _ _) fun _ => .store fun _ => rfl
  | deleteTokenId tokenId =>
    exact .bind (.pure _) fun _ => .bind (.load _) fun _ => .bind (.ensure _ _) fun _ =>
      .store fun _ => rfl
  | forceMintNep141 assetId who amount =>
    exact .bind (.pure _) fun _ => .bind (.mapErr (onAssets_purse _)) fun _ =>
      depositEvent_purse rfl
  | forceUnlockNonfungible who collection item =>
    exact .bind (.pure _) fun _ => .bind (.mapErr (onItems_purse _)) fun _ =>
      depositEvent_purse rfl

/-- `force_unlock` moves tokens out of the pallet account, or leaves what the failed transfer
leaves. -/
theorem forceUnlock_cases (who : AccountId) (amount : Nat) (s : State T) :
    (∃ e balances, T.currency.transfer T.accountId who amount .keepAlive s.balances
        = (.error e, balances) ∧
      forceUnlock .root who amount s = (.error (.error e), { s with balances })) ∨
      ∃ balances, T.currency.transfer T.accountId who amount .keepAlive s.balances
          = (.ok (), balances) ∧
        forceUnlock .root who amount s = (.ok (), { s with
          balances, events := s.events ++ [.forceUnlocked who amount] }) := by
  rcases hmoved : T.currency.transfer T.accountId who amount .keepAlive s.balances with
    ⟨e | _, balances⟩
  · exact Or.inl ⟨e, balances, rfl,
      (bind_of_ok rfl).trans (bind_of_error (mapErr_of_error (zoom_of_eq hmoved)))⟩
  · exact Or.inr ⟨balances, rfl,
      (bind_of_ok rfl).trans (bind_of_ok (mapErr_eq_ok.mpr (zoom_of_eq hmoved)))⟩

/-- `force_mint_nep141` mints, or leaves what the failed mint leaves. -/
theorem forceMintNep141_cases (assetId : Nat) (who : AccountId) (amount : Nat) (s : State T) :
    (∃ e assets, T.fungibles.mintInto assetId who amount s.assets = (.error e, assets) ∧
      forceMintNep141 .root assetId who amount s = (.error (.error e), { s with assets })) ∨
      ∃ assets, T.fungibles.mintInto assetId who amount s.assets = (.ok (), assets) ∧
        forceMintNep141 .root assetId who amount s = (.ok (), { s with
          assets, events := s.events ++ [.forceNep141Minted assetId who amount] }) := by
  rcases hminted : T.fungibles.mintInto assetId who amount s.assets with ⟨e | _, assets⟩
  · exact Or.inl ⟨e, assets, rfl,
      (bind_of_ok rfl).trans (bind_of_error (mapErr_of_error (zoom_of_eq hminted)))⟩
  · exact Or.inr ⟨assets, rfl,
      (bind_of_ok rfl).trans (bind_of_ok (mapErr_eq_ok.mpr (zoom_of_eq hminted)))⟩

/-! ## Into the appchain -/

theorem doUnlock_eq_ok {senderId : List UInt8} {receiver : AccountId} {amount sequence : Nat}
    {s s' : State T} :
    doUnlock senderId receiver amount sequence s = (.ok (), s') ↔ amount < 2 ^ T.balanceBits ∧
      ∃ balances, T.currency.transfer T.accountId receiver amount .keepAlive s.balances
          = (.ok (), balances) ∧
        s' = { s with
          balances, events := s.events ++ [.unlocked senderId receiver amount sequence] } := by
  simp only [doUnlock, onBalances, depositEvent, bind_eq_ok, okOr_eq_ok, zoom_eq_ok,
    checkedInto_eq_some, store_eq_ok]
  constructor
  · rintro ⟨_, _, ⟨⟨hfits, rfl⟩, rfl⟩, _, _, ⟨balances, hmoved, rfl⟩, rfl⟩
    exact ⟨hfits, balances, hmoved, rfl⟩
  · rintro ⟨hfits, balances, hmoved, rfl⟩
    exact ⟨_, _, ⟨⟨hfits, rfl⟩, rfl⟩, _, _, ⟨balances, hmoved, rfl⟩, rfl⟩

/-- A failed unlock leaves what the failed transfer leaves. -/
theorem doUnlock_error {senderId : List UInt8} {receiver : AccountId} {amount sequence : Nat}
    {s s' : State T} {e : DispatchError}
    (h : doUnlock senderId receiver amount sequence s = (.error e, s')) :
    s' = s ∨ ∃ e' balances,
      T.currency.transfer T.accountId receiver amount .keepAlive s.balances = (.error e', balances) ∧
        s' = { s with balances } := by
  simp only [doUnlock, onBalances, depositEvent, bind_eq_error, okOr_eq_error, okOr_eq_ok,
    zoom_eq_error, store_ne_error, checkedInto_eq_some, and_false, exists_false, or_false] at h
  rcases h with ⟨-, -, rfl⟩ | ⟨_, _, ⟨⟨-, rfl⟩, rfl⟩, balances, hmoved, rfl⟩
  · exact Or.inl rfl
  · exact Or.inr ⟨e, balances, hmoved, rfl⟩

theorem doUnlockNonfungible_eq_ok {collection item : Nat} {senderId : List UInt8}
    {receiver : AccountId} {sequence : Nat} {s s' : State T} :
    doUnlockNonfungible collection item senderId receiver sequence s = (.ok (), s') ↔
      collection < 2 ^ 128 ∧ item < 2 ^ 128 ∧
        ∃ items, T.nonfungibles.transfer collection item receiver s.items = (.ok (), items) ∧
          s' = { s with
            items
            events := s.events ++ [.nonfungibleUnlocked collection item senderId receiver
              sequence] } := by
  simp only [doUnlockNonfungible, onItems, depositEvent, bind_eq_ok, okOr_eq_ok, zoom_eq_ok,
    checkedInto_eq_some, store_eq_ok]
  constructor
  · rintro ⟨_, _, ⟨⟨hcollection, rfl⟩, rfl⟩, _, _, ⟨⟨hitem, rfl⟩, rfl⟩, _, _, ⟨items, hmoved, rfl⟩,
      rfl⟩
    exact ⟨hcollection, hitem, items, hmoved, rfl⟩
  · rintro ⟨hcollection, hitem, items, hmoved, rfl⟩
    exact ⟨_, _, ⟨⟨hcollection, rfl⟩, rfl⟩, _, _, ⟨⟨hitem, rfl⟩, rfl⟩, _, _, ⟨items, hmoved, rfl⟩,
      rfl⟩

/-- A failed unlock of an item leaves what the failed transfer leaves. -/
theorem doUnlockNonfungible_error {collection item : Nat} {senderId : List UInt8}
    {receiver : AccountId} {sequence : Nat} {s s' : State T} {e : DispatchError}
    (h : doUnlockNonfungible collection item senderId receiver sequence s = (.error e, s')) :
    s' = s ∨ ∃ e' items,
      T.nonfungibles.transfer collection item receiver s.items = (.error e', items) ∧
        s' = { s with items } := by
  simp only [doUnlockNonfungible, onItems, depositEvent, bind_eq_error, okOr_eq_error, okOr_eq_ok,
    zoom_eq_error, store_ne_error, checkedInto_eq_some, and_false, exists_false, or_false] at h
  rcases h with ⟨-, -, rfl⟩ | ⟨_, _, ⟨⟨-, rfl⟩, rfl⟩,
    ⟨-, -, rfl⟩ | ⟨_, _, ⟨⟨-, rfl⟩, rfl⟩, items, hmoved, rfl⟩⟩
  · exact Or.inl rfl
  · exact Or.inl rfl
  · exact Or.inr ⟨e, items, hmoved, rfl⟩

theorem doMintNep141_eq_ok {tokenId senderId : List UInt8} {receiver : AccountId}
    {amount sequence : Nat} {s s' : State T} :
    doMintNep141 tokenId senderId receiver amount sequence s = (.ok (), s') ↔
      ∃ assetId assets, s.tryGetAssetId tokenId = some assetId ∧ amount < 2 ^ 128 ∧
        T.fungibles.mintInto assetId receiver amount s.assets = (.ok (), assets) ∧
          s' = { s with
            assets
            events := s.events ++ [.nep141Minted assetId senderId receiver amount sequence] } := by
  simp only [doMintNep141, onAssets, depositEvent, bind_eq_ok, load_eq_ok, okOr_eq_ok, zoom_eq_ok,
    checkedInto_eq_some, store_eq_ok]
  constructor
  · rintro ⟨_, _, ⟨rfl, rfl⟩, assetId, _, ⟨hasset, rfl⟩, _, _, ⟨⟨hfits, rfl⟩, rfl⟩, _, _,
      ⟨assets, hminted, rfl⟩, rfl⟩
    exact ⟨assetId, assets, hasset, hfits, hminted, rfl⟩
  · rintro ⟨assetId, assets, hasset, hfits, hminted, rfl⟩
    exact ⟨_, _, ⟨rfl, rfl⟩, _, _, ⟨hasset, rfl⟩, _, _, ⟨⟨hfits, rfl⟩, rfl⟩, _, _,
      ⟨assets, hminted, rfl⟩, rfl⟩

/-- A failed mint leaves what the failed mint of the asset leaves. -/
theorem doMintNep141_error {tokenId senderId : List UInt8} {receiver : AccountId}
    {amount sequence : Nat} {s s' : State T} {e : DispatchError}
    (h : doMintNep141 tokenId senderId receiver amount sequence s = (.error e, s')) :
    s' = s ∨ ∃ assetId e' assets,
      T.fungibles.mintInto assetId receiver amount s.assets = (.error e', assets) ∧
        s' = { s with assets } := by
  simp only [doMintNep141, onAssets, depositEvent, bind_eq_error, load_eq_ok, load_ne_error,
    okOr_eq_error, okOr_eq_ok, zoom_eq_error, store_ne_error, checkedInto_eq_some, and_false,
    exists_false, or_false, false_or] at h
  obtain ⟨_, _, ⟨rfl, rfl⟩, h⟩ := h
  rcases h with ⟨-, -, rfl⟩ | ⟨assetId, _, ⟨-, rfl⟩,
    ⟨-, -, rfl⟩ | ⟨_, _, ⟨⟨-, rfl⟩, rfl⟩, assets, hminted, rfl⟩⟩
  · exact Or.inl rfl
  · exact Or.inl rfl
  · exact Or.inr ⟨assetId, e, assets, hminted, rfl⟩

/-- A mint touches the assets alone, with at most its event added. -/
theorem doMintNep141_cases {tokenId senderId : List UInt8} {receiver : AccountId}
    {amount sequence : Nat} {s s' : State T} {r : Except DispatchError Unit}
    (h : doMintNep141 tokenId senderId receiver amount sequence s = (r, s')) :
    ∃ assets events, s' = { s with assets, events := s.events ++ events } ∧
      (events = [] ∨ ∃ assetId, events
        = [.nep141Minted assetId senderId receiver amount sequence]) := by
  rcases r with e | _
  · rcases doMintNep141_error h with rfl | ⟨assetId, e', assets, -, rfl⟩
    · exact ⟨s'.assets, [], by rw [List.append_nil], Or.inl rfl⟩
    · exact ⟨assets, [], by rw [List.append_nil], Or.inl rfl⟩
  · obtain ⟨assetId, assets, -, -, -, rfl⟩ := doMintNep141_eq_ok.mp h
    exact ⟨assets, _, rfl, Or.inr ⟨assetId, rfl⟩⟩

end OctopusPallets.Bridge
