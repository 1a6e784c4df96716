import OctopusPallets.Appchain.VoteBook
import OctopusPallets.Bridge.Transfers

/-!
# What becomes of an executed notification

The counter moves before the bridge is called, and an error of the bridge is recorded instead of
returned. So a notification whose vote passes is either refused as a whole, or it is accounted for:
by an asset that moved, or by the failure kind of its type with nothing moved.

* `moved_iff` — the bridge call succeeds exactly when the backend moves the asset
* `bridge_error` — a bridge call that fails leaves the storage of the bridge as it was
-/

namespace OctopusPallets.Runtime

open Infra Infra.Dispatch Infra.FixedWidth
open Appchain (Observation)

variable {AccountId : Type} {T : Bridge.Config AccountId}

/-- The backends of the bridge undo what they did before an error. -/
structure FailsCleanly (T : Bridge.Config AccountId) : Prop where
  transfer : ∀ {source dest value requirement x x' e},
    T.currency.transfer source dest value requirement x = (.error e, x') → x' = x
  mintInto : ∀ {asset who amount x x' e},
    T.fungibles.mintInto asset who amount x = (.error e, x') → x' = x
  transferItem : ∀ {collection item destination x x' e},
    T.nonfungibles.transfer collection item destination x = (.error e, x') → x' = x

/-- Between `b` and `b'` the asset of the notification moved, for exactly its fields. -/
def Moved : Observation AccountId → Bridge.State T → Bridge.State T → Prop
  | .updateValidatorSet _, _, _ => False
  | .burn event, b, b' =>
    event.amount < 2 ^ T.balanceBits ∧
      ∃ balances, T.currency.transfer T.accountId event.receiver event.amount .keepAlive b.balances
          = (.ok (), balances) ∧
        b' = { b with
          balances
          events := b.events ++ [.unlocked event.senderId event.receiver event.amount event.index] }
  | .lockAsset event, b, b' =>
    ∃ assetId assets, b.tryGetAssetId event.tokenId = some assetId ∧ event.amount < 2 ^ 128 ∧
      T.fungibles.mintInto assetId event.receiver event.amount b.assets = (.ok (), assets) ∧
        b' = { b with
          assets
          events := b.events ++
            [.nep141Minted assetId event.senderId event.receiver event.amount event.index] }
  | .burnNft event, b, b' =>
    event.collection < 2 ^ 128 ∧ event.item < 2 ^ 128 ∧
      ∃ items, T.nonfungibles.transfer event.collection event.item event.receiver b.items
          = (.ok (), items) ∧
        b' = { b with
          items
          events := b.events ++
            [.nonfungibleUnlocked event.collection event.item event.senderId event.receiver
              event.index] }

/-- The failure kind of a notification. -/
def failureKind : Observation AccountId → Option Appchain.NotificationResult
  | .updateValidatorSet _ => none
  | .burn _ => some .unlockFailed
  | .lockAsset _ => some .assetMintFailed
  | .burnNft _ => some .nftUnlockFailed

/-! ## The bridge call -/

theorem moved_iff {o : Observation AccountId} (ho : o.IsNotification) {b b' : Bridge.State T} :
    o.bridgeCall Bridge.bridgeInterface b = (.ok (), b') ↔ Moved o b b' := by
  cases o with
  | updateValidatorSet _ => exact absurd rfl ho
  | burn event => exact Bridge.doUnlock_eq_ok
  | lockAsset event => exact Bridge.doMintNep141_eq_ok
  | burnNft event => exact Bridge.doUnlockNonfungible_eq_ok

theorem bridge_error (hclean : FailsCleanly T) {o : Observation AccountId} (ho : o.IsNotification)
    {b b' : Bridge.State T} {e : DispatchError}
    (h : o.bridgeCall Bridge.bridgeInterface b = (.error e, b')) : b' = b := by
  cases o with
  | updateValidatorSet _ => exact absurd rfl ho
  | burn event =>
    rcases Bridge.doUnlock_error h with rfl | ⟨_, balances, hmoved, rfl⟩
    · rfl
    · rw [hclean.transfer hmoved]
  | lockAsset event =>
    rcases Bridge.doMintNep141_error h with rfl | ⟨_, _, assets, hminted, rfl⟩
    · rfl
    · rw [hclean.mintInto hminted]
  | burnNft event =>
    rcases Bridge.doUnlockNonfungible_error h with rfl | ⟨_, items, hmoved, rfl⟩
    · rfl
    · rw [hclean.transferItem hmoved]

/-- An asset that moved leaves an event, so the storage of the bridge is another one. -/
theorem not_moved_self (o : Observation AccountId) (b : Bridge.State T) : ¬ Moved o b b := by
  have hevents : ∀ {b' : Bridge.State T} {event}, b' = b → b'.events ≠ b.events ++ [event] := by
    intro b' event h hgrown
    rw [h] at hgrown
    simpa using congrArg List.length hgrown
  intro hmoved
  cases o with
  | updateValidatorSet _ => exact hmoved
  | burn event =>
    obtain ⟨-, balances, -, hb⟩ := hmoved
    exact hevents hb.symm rfl
  | lockAsset event =>
    obtain ⟨_, assets, -, -, -, hb⟩ := hmoved
    exact hevents hb.symm rfl
  | burnNft event =>
    obtain ⟨-, -, items, -, hb⟩ := hmoved
    exact hevents hb.symm rfl

/-! ## The notification -/

variable {cfg : Appchain.Config}

/-- The notification `o` took the chain from `s` to `s'`, and left a record of how it went. -/
structure Accounted (o : Observation AccountId)
    (s s' : Appchain.State cfg AccountId (Bridge.State T)) : Prop where
  counter : s'.nextNotificationId = s.nextNotificationId + 1
  success_iff : s'.notificationHistory o.observationIndex = some .success ↔
    Moved o s.bridge s'.bridge
  /-- No event of a failure comes with a success. -/
  success_events : Moved o s.bridge s'.bridge → s'.events = s.events
  failure : ¬ Moved o s.bridge s'.bridge →
    s'.notificationHistory o.observationIndex = failureKind o ∧ s'.bridge = s.bridge ∧
      s'.events = s.events ++ o.failedEvent
  history : ∀ i, i ≠ o.observationIndex → s'.notificationHistory i = s.notificationHistory i
  plannedValidators : s'.plannedValidators = s.plannedValidators
  nextSetId : s'.nextSetId = s.nextSetId

theorem failureKind_ne_success {o : Observation AccountId} :
    failureKind o ≠ some .success := by
  cases o <;> simp [failureKind]

theorem notificationResult_error {o : Observation AccountId} (ho : o.IsNotification)
    (e : DispatchError) : some (o.notificationResult (.error e)) = failureKind o := by
  cases o with
  | updateValidatorSet _ => exact absurd rfl ho
  | burn _ | lockAsset _ | burnNft _ => rfl

/-- What a notification leaves that is relayed after its vote is entered. -/
theorem accounted_relayed (hclean : FailsCleanly T) {o : Observation AccountId}
    (ho : o.IsNotification) (s : Appchain.State cfg AccountId (Bridge.State T)) :
    Accounted o s (s.relayed Bridge.bridgeInterface o) := by
  rcases hcall : o.bridgeCall Bridge.bridgeInterface s.bridge with ⟨e | _, b⟩
  · obtain rfl := bridge_error hclean ho hcall
    have hbridge : (s.relayed Bridge.bridgeInterface o).bridge = s.bridge := by
      rw [Appchain.State.relayed_bridge, hcall]
    have hentry : (s.relayed Bridge.bridgeInterface o).notificationHistory o.observationIndex
        = failureKind o := by
      rw [← notificationResult_error ho e]
      simp [Appchain.State.relayed, hcall]
    refine ⟨rfl, ?_, ?_, ?_, fun i hi => Function.update_of_ne hi .., rfl, rfl⟩
    · rw [hentry, hbridge]
      exact iff_of_false failureKind_ne_success (not_moved_self o s.bridge)
    · rw [hbridge]
      exact fun hmoved => absurd hmoved (not_moved_self o s.bridge)
    · refine fun _ => ⟨hentry, hbridge, ?_⟩
      simp [Appchain.State.relayed, hcall]
  · have hmoved : Moved o s.bridge (s.relayed Bridge.bridgeInterface o).bridge := by
      rw [Appchain.State.relayed_bridge, hcall]
      exact (moved_iff ho).mp hcall
    refine ⟨rfl, iff_of_true ?_ hmoved, fun _ => ?_, fun h => absurd hmoved h,
      fun i hi => Function.update_of_ne hi .., rfl, rfl⟩
    · simp [Appchain.State.relayed, hcall, Observation.notificationResult]
    · simp [Appchain.State.relayed, hcall]

variable [DecidableEq AccountId]

/-- Entering the vote is not seen in what is accounted for. -/
theorem Accounted.of_withVote {o : Observation AccountId}
    {s s' : Appchain.State cfg AccountId (Bridge.State T)} {obs vals}
    (h : Accounted o (s.withVote o obs vals) s') : Accounted o s s' :=
  ⟨h.counter, h.success_iff, h.success_events, h.failure, h.history, h.plannedValidators,
    h.nextSetId⟩

/--
**Every notification that passes the two-thirds test is refused as a whole or accounted for.**

In every state: a vote for a `Burn`, `LockAsset` or `BurnNft` that passes either returns an error and
leaves the state as it was, or the counter moves by one and the history at its index is `Success`
exactly when the asset moved for the fields of the observation. Otherwise it is the failure kind of
the observation, no asset moved and one failure event has its fields.
-/
theorem notification_accounted (hclean : FailsCleanly T)
    (s : Appchain.State cfg AccountId (Bridge.State T)) (lpos : LposInterface AccountId)
    (v : AccountId) (o : Observation AccountId) (ho : o.IsNotification)
    (hpasses : s.Passes lpos v o) :
    (∃ e, Appchain.submitObservation Bridge.bridgeInterface lpos v o s = (.error e, s)) ∨
      ∃ s', Appchain.submitObservation Bridge.bridgeInterface lpos v o s = (.ok (), s') ∧
        Accounted o s s' := by
  have hfull : (s.observations (o.getObservationType, o.observationIndex)).tryPushAbsent o = none ∨
      (s.observing o).tryPushAbsent v = none → s.InRange o →
        ∃ e, Appchain.submitObservation Bridge.bridgeInterface lpos v o s = (.error e, s) :=
    fun h hrange => ⟨_, Appchain.submitObservation_register_error _ lpos hrange h⟩
  by_cases hrange : s.InRange o
  · cases hobs : (s.observations (o.getObservationType, o.observationIndex)).tryPushAbsent o with
    | none => exact Or.inl (hfull (Or.inl hobs) hrange)
    | some obs =>
      cases hvals : (s.observing o).tryPushAbsent v with
      | none => exact Or.inl (hfull (Or.inr hvals) hrange)
      | some vals =>
        have hreg : Appchain.Registers s v o obs vals := ⟨hrange, hobs, hvals⟩
        exact Or.inr ⟨_, hreg.submitObservation_relayed _ ho hpasses,
          (accounted_relayed hclean ho _).of_withVote⟩
  · obtain ⟨e, -, hcheck⟩ := Appchain.checkObservation_error lpos v hrange
    exact Or.inl ⟨e, Appchain.submitObservation_check_error _ lpos hcheck⟩

/-- The third of four validators reports that item 42 of collection 0 is released to account 5. -/
theorem notification_accounted_nft :
    let o : Observation Nat := .burnNft ⟨0, [], 5, 0, 42⟩
    let s : Appchain.State Appchain.Sample.config Nat (Bridge.State Bridge.Sample.config) :=
      (Appchain.callMachine Bridge.bridgeInterface).run
        [Appchain.Sample.callOf 4 0 [o], Appchain.Sample.callOf 4 1 [o]]
        (Appchain.genesisBuild Appchain.Sample.config [] [] Bridge.Sample.state)
    (∃ e, Appchain.submitObservation Bridge.bridgeInterface (Appchain.Sample.equalStakes 4) 2 o s
        = (.error e, s)) ∨
      ∃ s', Appchain.submitObservation Bridge.bridgeInterface (Appchain.Sample.equalStakes 4) 2 o s
          = (.ok (), s') ∧ Accounted o s s' :=
  notification_accounted
    ⟨by rintro _ _ _ _ _ _ _ ⟨⟩, by rintro _ _ _ _ _ _ ⟨⟩, Bridge.Sample.uniques_clean⟩ _ _ _ _
    (by decide) (by decide)

end OctopusPallets.Runtime
