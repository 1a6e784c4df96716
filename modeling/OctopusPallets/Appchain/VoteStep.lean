import OctopusPallets.Appchain.Pallet

/-!
# What one vote does

`VoteStep` says everything a call of `submit_observation` can do to the state: be refused and
change nothing, be counted, install a validator set, or relay a notification. The invariants of
the later modules are proved by cases on it and never unfold the pallet.
-/

namespace OctopusPallets.Appchain

open Infra Infra.Dispatch Infra.FixedWidth

variable {cfg : Config} {AccountId β : Type}

/-! ## The checks -/

/-- `check_observation` accepts `o`: the next set id, or an index inside the window. -/
def State.InRange (s : State cfg AccountId β) (o : Observation AccountId) : Prop :=
  if o.IsNotification then
    s.nextNotificationId ≤ o.observationIndex ∧
      o.observationIndex < wrappingAdd 32 s.nextNotificationId cfg.requestEventLimit
  else o.observationIndex = s.nextSetId

instance (s : State cfg AccountId β) (o : Observation AccountId) : Decidable (s.InRange o) :=
  inferInstanceAs (Decidable (if o.IsNotification then _ ∧ _ else _ = _))

theorem State.inRange_notification {s : State cfg AccountId β} {o : Observation AccountId}
    (ho : o.IsNotification) : s.InRange o ↔
      s.nextNotificationId ≤ o.observationIndex ∧
        o.observationIndex < wrappingAdd 32 s.nextNotificationId cfg.requestEventLimit := by
  unfold State.InRange
  rw [if_pos ho]

theorem State.inRange_set {s : State cfg AccountId β} {o : Observation AccountId}
    (ho : ¬ o.IsNotification) : s.InRange o ↔ o.observationIndex = s.nextSetId := by
  unfold State.InRange
  rw [if_neg ho]

theorem checkObservation_ok {s : State cfg AccountId β} {o : Observation AccountId}
    (h : s.InRange o) :
    checkObservation o.getObservationType o.observationIndex s = (.ok (), s) := by
  cases o with
  | updateValidatorSet valSet =>
    have hid := (State.inRange_set (by simp [Observation.IsNotification,
      Observation.getObservationType])).mp h
    simp [checkObservation, Observation.getObservationType, hid]
  | burn _ | lockAsset _ | burnNft _ =>
    obtain ⟨hlo, hhi⟩ := (State.inRange_notification (by simp [Observation.IsNotification,
      Observation.getObservationType])).mp h
    simp [checkObservation, Observation.getObservationType, Nat.not_lt.mpr hlo,
      Nat.not_le.mpr hhi]

/-! ## Entering the vote -/

section

variable [DecidableEq AccountId]

/-- The state with the two entries of the vote book replaced. -/
def State.withVote (s : State cfg AccountId β) (o : Observation AccountId)
    (obs : BoundedVec (Observation AccountId) maxObservations)
    (vals : BoundedVec AccountId cfg.maxValidators) : State cfg AccountId β :=
  { s with
    observations :=
      Function.update s.observations (o.getObservationType, o.observationIndex) obs
    observing := Function.update s.observing o vals }

section Fields

variable (s : State cfg AccountId β) (o : Observation AccountId)
  (obs : BoundedVec (Observation AccountId) maxObservations)
  (vals : BoundedVec AccountId cfg.maxValidators)

@[simp] theorem State.withVote_nextSetId : (s.withVote o obs vals).nextSetId = s.nextSetId := rfl

@[simp] theorem State.withVote_plannedValidators :
    (s.withVote o obs vals).plannedValidators = s.plannedValidators := rfl

@[simp] theorem State.withVote_nextNotificationId :
    (s.withVote o obs vals).nextNotificationId = s.nextNotificationId := rfl

@[simp] theorem State.withVote_bridge : (s.withVote o obs vals).bridge = s.bridge := rfl

@[simp] theorem State.withVote_observing_self : (s.withVote o obs vals).observing o = vals :=
  Function.update_self ..

theorem State.withVote_observing_of_ne {o' : Observation AccountId} (h : o' ≠ o) :
    (s.withVote o obs vals).observing o' = s.observing o' :=
  Function.update_of_ne h ..

end Fields

/-- Both lists have room for the vote of `v` for `o`, and become `obs` and `vals`. -/
structure Registers (s : State cfg AccountId β) (v : AccountId) (o : Observation AccountId)
    (obs : BoundedVec (Observation AccountId) maxObservations)
    (vals : BoundedVec AccountId cfg.maxValidators) : Prop where
  inRange : s.InRange o
  observations :
    (s.observations (o.getObservationType, o.observationIndex)).tryPushAbsent o = some obs
  observing : (s.observing o).tryPushAbsent v = some vals

/-- The voters of `o` once `v` has voted for it. -/
def State.votersWith (s : State cfg AccountId β) (v : AccountId) (o : Observation AccountId) :
    List AccountId :=
  if v ∈ (s.observing o).val then (s.observing o).val else (s.observing o).val ++ [v]

theorem Registers.votersWith {s : State cfg AccountId β} {v : AccountId}
    {o : Observation AccountId} {obs vals} (h : Registers s v o obs vals) :
    vals.val = s.votersWith v o := by
  have hvals := h.observing
  unfold State.votersWith
  by_cases hv : v ∈ (s.observing o).val
  · rw [BoundedVec.tryPushAbsent_of_mem hv, Option.some.injEq] at hvals
    rw [if_pos hv, hvals]
  · rw [BoundedVec.tryPushAbsent_of_not_mem hv, BoundedVec.tryPush_eq_some] at hvals
    rw [if_neg hv, hvals]

/-- Why a vote is refused. -/
inductive Refused (lpos : LposInterface AccountId) (v : AccountId) (o : Observation AccountId)
    (s : State cfg AccountId β) : Error → Prop where
  | wrongSetId (ho : ¬ o.IsNotification) (h : ¬ s.InRange o) : Refused lpos v o s .wrongSetId
  | invalidNotificationId (ho : o.IsNotification) (h : ¬ s.InRange o) :
    Refused lpos v o s .invalidNotificationId
  | observationsFull (hrange : s.InRange o)
    (h : (s.observations (o.getObservationType, o.observationIndex)).tryPushAbsent o = none) :
    Refused lpos v o s .observationsExceededLimit
  | observingFull (hrange : s.InRange o) (h : (s.observing o).tryPushAbsent v = none) :
    Refused lpos v o s .observationsExceededLimit
  | noActiveEra {obs vals} (hreg : Registers s v o obs vals) (h : lpos.activeTotalStake = none) :
    Refused lpos v o s .invalidActiveTotalStake
  | nextSetIdOverflow {obs vals} (hreg : Registers s v o obs vals) (ho : ¬ o.IsNotification)
    (h : 2 ^ 32 ≤ s.nextSetId + 1) : Refused lpos v o s .nextSetIdOverflow
  | nextNotificationIdOverflow {obs vals} (hreg : Registers s v o obs vals)
    (ho : o.IsNotification) (h : 2 ^ 32 ≤ s.nextNotificationId + 1) :
    Refused lpos v o s .nextNotificationIdOverflow

theorem checkObservation_error {s : State cfg AccountId β} {o : Observation AccountId}
    (lpos : LposInterface AccountId) (v : AccountId) (h : ¬ s.InRange o) :
    ∃ e, Refused lpos v o s e ∧
      checkObservation o.getObservationType o.observationIndex s = (.error e, s) := by
  by_cases ho : o.IsNotification
  · have hr := h
    rw [State.inRange_notification ho, not_and_or, Nat.not_le, Nat.not_lt] at hr
    refine ⟨_, .invalidNotificationId ho h, ?_⟩
    cases o with
    | updateValidatorSet valSet => exact absurd rfl ho
    | burn _ | lockAsset _ | burnNft _ =>
      simp [checkObservation, Observation.getObservationType, hr]
  · have hr := h
    rw [State.inRange_set ho] at hr
    refine ⟨_, .wrongSetId ho h, ?_⟩
    cases o with
    | updateValidatorSet valSet => simp [checkObservation, Observation.getObservationType, hr]
    | burn _ | lockAsset _ | burnNft _ =>
      simp [Observation.IsNotification, Observation.getObservationType] at ho

theorem registerVote_ok {s : State cfg AccountId β} {v : AccountId} {o : Observation AccountId}
    {obs vals} (h : Registers s v o obs vals) :
    registerVote v o s = (.ok (), s.withVote o obs vals) := by
  simp [registerVote, h.observations, h.observing, bind_apply, okOr, State.withVote]

theorem registerVote_error {s : State cfg AccountId β} {v : AccountId} {o : Observation AccountId}
    (h : (s.observations (o.getObservationType, o.observationIndex)).tryPushAbsent o = none ∨
      (s.observing o).tryPushAbsent v = none) :
    ∃ s', registerVote v o s = (.error .observationsExceededLimit, s') := by
  cases hobs : (s.observations (o.getObservationType, o.observationIndex)).tryPushAbsent o with
  | none => exact ⟨s, by simp [registerVote, hobs, bind_apply, okOr]⟩
  | some obs =>
    have hvals : (s.observing o).tryPushAbsent v = none := by
      rcases h with h | h
      · rw [hobs] at h
        cases h
      · exact h
    simp [registerVote, hobs, hvals, bind_apply, okOr]

end

/-! ## Executing -/

namespace Observation

/-- The bridge call of a notification. -/
def bridgeCall (bridge : BridgeInterface AccountId β) :
    Observation AccountId → Dispatch DispatchError β Unit
  | .updateValidatorSet _ => pure ()
  | .burn event => bridge.unlock event.senderId event.receiver event.amount event.index
  | .lockAsset event =>
    bridge.mintNep141 event.tokenId event.senderId event.receiver event.amount event.index
  | .burnNft event =>
    bridge.unlockNonfungible event.collection event.item event.senderId event.receiver event.index

/-- The event deposited when that call fails. -/
def failedEvent : Observation AccountId → List (Event AccountId)
  | .updateValidatorSet _ => []
  | .burn event =>
    [.unlockFailed event.senderId event.receiver event.amount event.index]
  | .lockAsset event =>
    [.mintNep141Failed event.tokenId event.senderId event.receiver event.amount event.index]
  | .burnNft event =>
    [.unlockNonfungibleFailed event.collection event.item event.senderId event.receiver
      event.index]

/-- The history entry of the notification, by the result of its bridge call. -/
def notificationResult (o : Observation AccountId) : Except DispatchError Unit → NotificationResult
  | .ok _ => .success
  | .error _ =>
    match o with
    | .updateValidatorSet _ => .success
    | .burn _ => .unlockFailed
    | .lockAsset _ => .assetMintFailed
    | .burnNft _ => .nftUnlockFailed

end Observation

/-- The state after the notification `o` is relayed to the bridge. -/
def State.relayed (s : State cfg AccountId β) (bridge : BridgeInterface AccountId β)
    (o : Observation AccountId) : State cfg AccountId β :=
  { s with
    nextNotificationId := s.nextNotificationId + 1
    bridge := (o.bridgeCall bridge s.bridge).2
    events := s.events ++
      match (o.bridgeCall bridge s.bridge).1 with
      | .ok _ => []
      | .error _ => o.failedEvent
    notificationHistory := Function.update s.notificationHistory o.observationIndex
      (some (o.notificationResult (o.bridgeCall bridge s.bridge).1)) }

/-- The planned validators a validator set stands for. -/
def ValidatorSet.plan (valSet : ValidatorSet AccountId) : List (AccountId × Nat) :=
  valSet.validators.map fun v => (v.validatorIdInAppchain, v.totalStake)

/-- The state after the validator set is installed. -/
def State.installed (s : State cfg AccountId β) (valSet : ValidatorSet AccountId) :
    State cfg AccountId β :=
  { s with
    plannedValidators := valSet.plan
    events := s.events ++ [.newPlannedValidators s.nextSetId valSet.plan]
    nextSetId := s.nextSetId + 1 }

section Fields

variable (s : State cfg AccountId β) (bridge : BridgeInterface AccountId β)
  (o : Observation AccountId) (valSet : ValidatorSet AccountId)

@[simp] theorem State.relayed_nextSetId : (s.relayed bridge o).nextSetId = s.nextSetId := rfl

@[simp] theorem State.relayed_plannedValidators :
    (s.relayed bridge o).plannedValidators = s.plannedValidators := rfl

@[simp] theorem State.relayed_nextNotificationId :
    (s.relayed bridge o).nextNotificationId = s.nextNotificationId + 1 := rfl

@[simp] theorem State.relayed_observations :
    (s.relayed bridge o).observations = s.observations := rfl

@[simp] theorem State.relayed_observing : (s.relayed bridge o).observing = s.observing := rfl

@[simp] theorem State.relayed_bridge :
    (s.relayed bridge o).bridge = (o.bridgeCall bridge s.bridge).2 := rfl

@[simp] theorem State.installed_nextSetId : (s.installed valSet).nextSetId = s.nextSetId + 1 := rfl

@[simp] theorem State.installed_plannedValidators :
    (s.installed valSet).plannedValidators = valSet.plan := rfl

@[simp] theorem State.installed_nextNotificationId :
    (s.installed valSet).nextNotificationId = s.nextNotificationId := rfl

@[simp] theorem State.installed_observations :
    (s.installed valSet).observations = s.observations := rfl

@[simp] theorem State.installed_observing : (s.installed valSet).observing = s.observing := rfl

@[simp] theorem State.installed_bridge : (s.installed valSet).bridge = s.bridge := rfl

end Fields

theorem processNotification_apply (s : State cfg AccountId β) (obsId : Nat)
    (call : Dispatch DispatchError β Unit) (failed : Event AccountId)
    (failure : NotificationResult) :
    processNotification obsId call failed failure s =
      if s.nextNotificationId + 1 < 2 ^ 32 then
        (.ok (), { s with
          nextNotificationId := s.nextNotificationId + 1
          bridge := (call s.bridge).2
          events := s.events ++ match (call s.bridge).1 with
            | .ok _ => []
            | .error _ => [failed]
          notificationHistory := Function.update s.notificationHistory obsId
            (some (match (call s.bridge).1 with
              | .ok _ => .success
              | .error _ => failure)) })
      else (.error .nextNotificationIdOverflow, s) := by
  unfold processNotification increaseNextNotificationId
  by_cases h : s.nextNotificationId + 1 < 2 ^ 32
  · have hnext := checkedAdd_eq_some.mpr ⟨h, rfl⟩
    rw [if_pos h]
    rcases hcall : call s.bridge with ⟨_ | _, b⟩ <;>
      simp [bind_apply, hnext, attempt, zoom, depositEvent, hcall]
  · have hnext := checkedAdd_eq_none.mpr (Nat.not_lt.mp h)
    rw [if_neg h]
    simp [bind_apply, hnext, okOr]

theorem processObservation_notification (bridge : BridgeInterface AccountId β)
    {o : Observation AccountId} (ho : o.IsNotification) (s : State cfg AccountId β) :
    processObservation bridge o s =
      if s.nextNotificationId + 1 < 2 ^ 32 then (.ok (), s.relayed bridge o)
      else (.error .nextNotificationIdOverflow, s) := by
  cases o with
  | updateValidatorSet valSet =>
    exact absurd rfl ho
  | burn event =>
    simp only [processObservation, processBurn, processNotification_apply]
    rcases hcall : bridge.unlock event.senderId event.receiver event.amount event.index s.bridge
      with ⟨_ | _, b⟩ <;>
      simp [State.relayed, Observation.bridgeCall, Observation.notificationResult,
        Observation.failedEvent, Observation.observationIndex, hcall]
  | lockAsset event =>
    simp only [processObservation, processLockAsset, processNotification_apply]
    rcases hcall : bridge.mintNep141 event.tokenId event.senderId event.receiver event.amount
      event.index s.bridge with ⟨_ | _, b⟩ <;>
      simp [State.relayed, Observation.bridgeCall, Observation.notificationResult,
        Observation.failedEvent, Observation.observationIndex, hcall]
  | burnNft event =>
    simp only [processObservation, processBurnNft, processNotification_apply]
    rcases hcall : bridge.unlockNonfungible event.collection event.item event.senderId
      event.receiver event.index s.bridge with ⟨_ | _, b⟩ <;>
      simp [State.relayed, Observation.bridgeCall, Observation.notificationResult,
        Observation.failedEvent, Observation.observationIndex, hcall]

theorem processUpdateValidatorSet_apply (valSet : ValidatorSet AccountId)
    (s : State cfg AccountId β) :
    (s.nextSetId + 1 < 2 ^ 32 ∧ processUpdateValidatorSet valSet s = (.ok (), s.installed valSet)) ∨
      2 ^ 32 ≤ s.nextSetId + 1 ∧
        ∃ s', processUpdateValidatorSet valSet s = (.error .nextSetIdOverflow, s') := by
  unfold processUpdateValidatorSet increaseNextSetId
  by_cases h : s.nextSetId + 1 < 2 ^ 32
  · have hnext := checkedAdd_eq_some.mpr ⟨h, rfl⟩
    refine Or.inl ⟨h, ?_⟩
    simp [bind_apply, hnext, depositEvent, State.installed, ValidatorSet.plan]
  · have hnext := checkedAdd_eq_none.mpr (Nat.not_lt.mp h)
    refine Or.inr ⟨Nat.not_lt.mp h, ?_⟩
    simp [bind_apply, hnext, okOr, depositEvent]

/-! ## The step -/

variable [DecidableEq AccountId]

/-- The vote of `v` for `o` in state `s`, under the stakes of `lpos`: the state it leads to and
the observations that take effect. -/
inductive VoteStep (bridge : BridgeInterface AccountId β) (lpos : LposInterface AccountId)
    (v : AccountId) (o : Observation AccountId) (s : State cfg AccountId β) :
    State cfg AccountId β → List (Observation AccountId) → Prop where
  /-- The vote is refused: nothing changes. -/
  | refused {e} (h : Refused lpos v o s e) : VoteStep bridge lpos v o s s []
  /-- The vote is entered and there is no quorum. -/
  | counted {obs vals T} (hreg : Registers s v o obs vals) (htotal : lpos.activeTotalStake = some T)
    (hquorum : twoThirds (stakeOf lpos vals.val) T = false) :
    VoteStep bridge lpos v o s (s.withVote o obs vals) []
  /-- The vote makes a quorum for the next validator set. -/
  | installed {obs vals T valSet} (hreg : Registers s v o obs vals)
    (htotal : lpos.activeTotalStake = some T)
    (hquorum : twoThirds (stakeOf lpos vals.val) T = true)
    (hset : o = .updateValidatorSet valSet) (hlt : s.nextSetId + 1 < 2 ^ 32) :
    VoteStep bridge lpos v o s ((s.withVote o obs vals).installed valSet) [o]
  /-- The vote makes a quorum for a notification. -/
  | relayed {obs vals T} (hreg : Registers s v o obs vals) (htotal : lpos.activeTotalStake = some T)
    (hquorum : twoThirds (stakeOf lpos vals.val) T = true) (ho : o.IsNotification)
    (hlt : s.nextNotificationId + 1 < 2 ^ 32) :
    VoteStep bridge lpos v o s ((s.withVote o obs vals).relayed bridge o) [o]

variable (bridge : BridgeInterface AccountId β) (lpos : LposInterface AccountId)
  {v : AccountId} {o : Observation AccountId} {s : State cfg AccountId β}

/-- A failure before the stakes are read is the failure of the vote. -/
theorem submitObservation_check_error {e : Error}
    (h : checkObservation o.getObservationType o.observationIndex s = (.error e, s)) :
    submitObservation bridge lpos v o s = (.error e, s) :=
  transactional_error (by rw [bind_apply, h])

theorem submitObservation_register_error (hrange : s.InRange o)
    (h : (s.observations (o.getObservationType, o.observationIndex)).tryPushAbsent o = none ∨
      (s.observing o).tryPushAbsent v = none) :
    submitObservation bridge lpos v o s = (.error .observationsExceededLimit, s) := by
  obtain ⟨s', hs'⟩ := registerVote_error h
  refine transactional_error (t := s') ?_
  simp [bind_apply, checkObservation_ok hrange, hs']

variable {obs : BoundedVec (Observation AccountId) maxObservations}
  {vals : BoundedVec AccountId cfg.maxValidators}

theorem submitObservation_noActiveEra (hreg : Registers s v o obs vals)
    (htotal : lpos.activeTotalStake = none) :
    submitObservation bridge lpos v o s = (.error .invalidActiveTotalStake, s) := by
  refine transactional_error (t := s.withVote o obs vals) ?_
  simp [bind_apply, checkObservation_ok hreg.inRange, registerVote_ok hreg, okOr, htotal]

/-- With the vote entered, what happens depends on the quorum test alone. -/
theorem submitObservation_registered (hreg : Registers s v o obs vals) {T : Nat}
    (htotal : lpos.activeTotalStake = some T) :
    submitObservation bridge lpos v o s = transactional (fun _ =>
      if twoThirds (stakeOf lpos vals.val) T then
        processObservation bridge o (s.withVote o obs vals)
      else (.ok (), s.withVote o obs vals)) s := by
  have hite : ∀ (b : Bool) (x : Dispatch Error (State cfg AccountId β) Unit) (t : State cfg AccountId β),
      (if b then x else pure ()) t = if b then x t else (.ok (), t) := by
    intro b x t
    cases b <;> rfl
  unfold submitObservation transactional
  simp [bind_apply, checkObservation_ok hreg.inRange, registerVote_ok hreg, okOr, htotal, hite]

theorem submitObservation_quorum (hreg : Registers s v o obs vals) {T : Nat}
    (htotal : lpos.activeTotalStake = some T)
    (hquorum : twoThirds (stakeOf lpos vals.val) T = true) :
    (∃ e, Refused lpos v o s e ∧
        transactional (fun _ => processObservation bridge o (s.withVote o obs vals)) s
          = (.error e, s)) ∨
      ∃ s' os, transactional (fun _ => processObservation bridge o (s.withVote o obs vals)) s
          = (.ok (), s') ∧ VoteStep bridge lpos v o s s' os := by
  by_cases ho : o.IsNotification
  · by_cases hlt : s.nextNotificationId + 1 < 2 ^ 32
    · refine Or.inr ⟨_, _, transactional_ok ?_, .relayed hreg htotal hquorum ho hlt⟩
      rw [processObservation_notification bridge ho]
      exact if_pos hlt
    · refine Or.inl ⟨_, .nextNotificationIdOverflow hreg ho (Nat.not_lt.mp hlt),
        transactional_error (t := s.withVote o obs vals) ?_⟩
      rw [processObservation_notification bridge ho]
      exact if_neg hlt
  · cases o with
    | updateValidatorSet valSet =>
      rcases processUpdateValidatorSet_apply valSet (s.withVote _ obs vals) with
        ⟨hlt, hok⟩ | ⟨hge, s', herr⟩
      · exact Or.inr ⟨_, _, transactional_ok hok, .installed hreg htotal hquorum rfl hlt⟩
      · exact Or.inl ⟨_, .nextSetIdOverflow hreg ho hge, transactional_error herr⟩
    | burn _ | lockAsset _ | burnNft _ =>
      simp [Observation.IsNotification, Observation.getObservationType] at ho

variable (v o s)

/-- **Every vote is one of the four steps.** It fails exactly when it is refused, and then the
storage is as before. -/
theorem submitObservation_step :
    (∃ e, Refused lpos v o s e ∧ submitObservation bridge lpos v o s = (.error e, s)) ∨
      ∃ s' os, submitObservation bridge lpos v o s = (.ok (), s') ∧
        VoteStep bridge lpos v o s s' os := by
  by_cases hrange : s.InRange o
  · cases hobs : (s.observations (o.getObservationType, o.observationIndex)).tryPushAbsent o with
    | none =>
      exact Or.inl ⟨_, .observationsFull hrange hobs,
        submitObservation_register_error bridge lpos hrange (Or.inl hobs)⟩
    | some obs =>
      cases hvals : (s.observing o).tryPushAbsent v with
      | none =>
        exact Or.inl ⟨_, .observingFull hrange hvals,
          submitObservation_register_error bridge lpos hrange (Or.inr hvals)⟩
      | some vals =>
        have hreg : Registers s v o obs vals := ⟨hrange, hobs, hvals⟩
        cases htotal : lpos.activeTotalStake with
        | none =>
          exact Or.inl ⟨_, .noActiveEra hreg htotal,
            submitObservation_noActiveEra bridge lpos hreg htotal⟩
        | some T =>
          rw [submitObservation_registered bridge lpos hreg htotal]
          cases hquorum : twoThirds (stakeOf lpos vals.val) T with
          | false => exact Or.inr ⟨_, _, rfl, .counted hreg htotal hquorum⟩
          | true => exact submitObservation_quorum bridge lpos hreg htotal hquorum
  · obtain ⟨e, he, hcheck⟩ := checkObservation_error lpos v hrange
    exact Or.inl ⟨e, he, submitObservation_check_error bridge lpos hcheck⟩

end OctopusPallets.Appchain
