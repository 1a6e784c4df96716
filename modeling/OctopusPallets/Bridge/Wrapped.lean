import OctopusPallets.Bridge.Transfers
import Mathlib.Data.List.Nodup

/-!
# Wrapped tokens

A token of the mainchain is an asset on the appchain. The map of token ids says which, in both
directions: the entries are searched for the first with this asset, and a token id is in one entry
only.

* `State.Maps` — the token id of an asset, which only its removal takes away
* `State.wrapped` — what minting, burning and the token ids are about, and all other calls keep
-/

namespace OctopusPallets.Bridge

open Infra Infra.Dispatch Infra.FixedWidth

variable {AccountId : Type} {T : Config AccountId}

/-! ## The map of token ids -/

/-- The asset is mapped to this token id, in a map whose keys are distinct. -/
structure State.Maps (s : State T) (token : List UInt8) (asset : Nat) : Prop where
  distinct : (s.assetIdByTokenId.map Prod.fst).Nodup
  first : s.tryGetTokenId asset = some token

theorem State.mem_of_tryGetTokenId {s : State T} {asset : Nat} {token : List UInt8}
    (h : s.tryGetTokenId asset = some token) : (token, asset) ∈ s.assetIdByTokenId := by
  obtain ⟨⟨token', asset'⟩, hfind, rfl⟩ := Option.map_eq_some_iff.mp h
  have hasset : asset' = asset := by simpa using List.find?_some hfind
  rw [← hasset]
  exact List.mem_of_find?_eq_some hfind

/-- Two assets have different token ids. -/
theorem State.Maps.eq_of_tryGetTokenId {s : State T} {token : List UInt8} {asset other : Nat}
    (h : s.Maps token asset) (hother : s.tryGetTokenId other = some token) : other = asset := by
  have hpair := List.inj_on_of_nodup_map h.distinct (State.mem_of_tryGetTokenId hother)
    (State.mem_of_tryGetTokenId h.first) rfl
  exact (Prod.mk.inj hpair).2

theorem State.Maps.of_eq {s s' : State T} {token : List UInt8} {asset : Nat}
    (h : s.Maps token asset) (heq : s'.assetIdByTokenId = s.assetIdByTokenId) :
    s'.Maps token asset := by
  refine ⟨by rw [heq]; exact h.distinct, ?_⟩
  unfold State.tryGetTokenId
  rw [heq]
  exact h.first

theorem ensureRoot_bind {α : Type} (f : Unit → Dispatch Fault (State T) α) (s : State T) :
    (ensureRoot .root >>= f) s = f () s := rfl

/-- `set_token_id` adds an entry with a new key and a new asset, if any. -/
theorem setTokenId_cases (appchain : AppchainInterface AccountId) (token : List UInt8)
    (asset : Nat) (s : State T) :
    (setTokenId appchain .root token asset s).2 = s ∨
      token ∉ s.assetIdByTokenId.map Prod.fst ∧ asset ∉ s.assetIdByTokenId.map Prod.snd ∧
        (setTokenId appchain .root token asset s).2
          = { s with assetIdByTokenId := s.assetIdByTokenId ++ [(token, asset)] } := by
  unfold setTokenId
  rw [ensureRoot_bind, ensure_bind]
  split
  · rw [load_bind, ensure_bind]
    split
    · next hfresh =>
      rw [ensure_bind]
      split
      · next hunused => exact Or.inr ⟨by grind, by grind, rfl⟩
      · exact Or.inl rfl
    · exact Or.inl rfl
  · exact Or.inl rfl

/-- `delete_token_id` removes the entry of the key, if any. -/
theorem deleteTokenId_cases (token : List UInt8) (s : State T) :
    (deleteTokenId .root token s).2 = s ∨ (deleteTokenId .root token s).2
      = { s with assetIdByTokenId := s.assetIdByTokenId.filter fun p => p.1 != token } := by
  unfold deleteTokenId
  rw [ensureRoot_bind, load_bind, ensure_bind]
  split
  · exact Or.inr rfl
  · exact Or.inl rfl

/-- An entry that is added does not come before the first one. -/
theorem State.Maps.setTokenId {s : State T} {token : List UInt8} {asset : Nat}
    (h : s.Maps token asset) (appchain : AppchainInterface AccountId) (other : List UInt8)
    (otherAsset : Nat) :
    (Bridge.setTokenId appchain .root other otherAsset s).2.Maps token asset := by
  rcases setTokenId_cases appchain other otherAsset s with hsame | ⟨hfresh, -, hadded⟩
  · rw [hsame]
    exact h
  · rw [hadded]
    obtain ⟨pair, hfind, htoken⟩ := Option.map_eq_some_iff.mp h.first
    constructor
    · show ((s.assetIdByTokenId ++ [(other, otherAsset)]).map Prod.fst).Nodup
      rw [List.map_append, List.nodup_append_comm]
      exact List.nodup_cons.mpr ⟨hfresh, h.distinct⟩
    · show ((s.assetIdByTokenId ++ [(other, otherAsset)]).find? fun p => p.2 == asset).map Prod.fst
        = some token
      rw [List.find?_append, hfind]
      exact congrArg some htoken

/-- What is found first is still found first when others are left out. -/
theorem find?_filter_of_pos {α : Type} {p q : α → Bool} {l : List α} {a : α}
    (h : l.find? q = some a) (hp : p a = true) : (l.filter p).find? q = some a := by
  obtain ⟨ha, before, after, rfl, hbefore⟩ := List.find?_eq_some_iff_append.mp h
  rw [List.filter_append, List.filter_cons_of_pos hp]
  exact List.find?_eq_some_iff_append.mpr ⟨ha, _, _, rfl, fun b hb =>
    hbefore b (List.mem_of_mem_filter hb)⟩

/-- The entry stays the first one when that of another token id is removed. -/
theorem State.Maps.deleteTokenId {s : State T} {token : List UInt8} {asset : Nat}
    (h : s.Maps token asset) {other : List UInt8} (hne : other ≠ token) :
    (Bridge.deleteTokenId .root other s).2.Maps token asset := by
  rcases deleteTokenId_cases other s with hsame | hremoved
  · rw [hsame]
    exact h
  · rw [hremoved]
    obtain ⟨pair, hfind, htoken⟩ := Option.map_eq_some_iff.mp h.first
    constructor
    · exact h.distinct.sublist (List.filter_sublist.map Prod.fst)
    · have hkept : (pair.1 != other) = true := by
        rw [htoken]
        simpa using hne.symm
      show ((s.assetIdByTokenId.filter fun p => p.1 != other).find? fun p => p.2 == asset).map
        Prod.fst = some token
      rw [find?_filter_of_pos hfind hkept]
      exact congrArg some htoken

/-! ## What the other calls keep -/

/-- The amount of an asset that an event reports to be minted. -/
def Event.minted (asset : Nat) : Event AccountId → Nat
  | .nep141Minted assetId _ _ amount _ | .forceNep141Minted assetId _ amount =>
    if assetId = asset then amount else 0
  | _ => 0

def State.minted (asset : Nat) (s : State T) : Nat := (s.events.map (Event.minted asset)).sum

/-- What minting and burning an asset and the map of token ids are about. -/
def State.wrapped (asset : Nat) (s : State T) :
    T.Assets × T.Messages × Nat × List (List UInt8 × Nat) :=
  (s.assets, s.messages, s.minted asset, s.assetIdByTokenId)

theorem minted_append (asset : Nat) (events : List (Event AccountId)) (event : Event AccountId) :
    ((events ++ [event]).map (Event.minted asset)).sum
      = (events.map (Event.minted asset)).sum + event.minted asset := by
  simp

theorem depositEvent_wrapped {ε : Type} {asset : Nat} {event : Event AccountId}
    (h : event.minted asset = 0) :
    Keeps (State.wrapped asset : State T → _) (depositEvent event : Dispatch ε _ _) := by
  intro s
  have hminted := minted_append asset s.events event
  rw [h, Nat.add_zero] at hminted
  exact congrArg (fun n => (s.assets, s.messages, n, s.assetIdByTokenId)) hminted

theorem doUnlock_wrapped (asset : Nat) (senderId : List UInt8) (receiver : AccountId)
    (amount sequence : Nat) :
    Keeps (State.wrapped asset : State T → _) (doUnlock senderId receiver amount sequence) :=
  .bind (.okOr _ _) fun _ => .bind (fun _ => rfl) fun _ => depositEvent_wrapped rfl

theorem doUnlockNonfungible_wrapped (asset : Nat) (collection item : Nat) (senderId : List UInt8)
    (receiver : AccountId) (sequence : Nat) :
    Keeps (State.wrapped asset : State T → _)
      (doUnlockNonfungible collection item senderId receiver sequence) :=
  .bind (.okOr _ _) fun _ => .bind (.okOr _ _) fun _ => .bind (fun _ => rfl) fun _ =>
    depositEvent_wrapped rfl

theorem forceUnlock_wrapped (asset : Nat) (who : AccountId) (amount : Nat) :
    Keeps (State.wrapped asset : State T → _) (forceUnlock .root who amount) :=
  .bind (.pure _) fun _ => .bind (.mapErr fun _ => rfl) fun _ => depositEvent_wrapped rfl

theorem forceUnlockNonfungible_wrapped (asset : Nat) (who : AccountId) (collection item : Nat) :
    Keeps (State.wrapped asset : State T → _)
      (forceUnlockNonfungible .root who collection item) :=
  .bind (.pure _) fun _ => .bind (.mapErr fun _ => rfl) fun _ => depositEvent_wrapped rfl

end OctopusPallets.Bridge
