import OctopusPallets.Appchain.Runs

/-!
# Sequence numbers

Validator sets take effect under consecutive ids, because their id is checked against the counter.
Notifications are only checked against a window, so their indices are consecutive in the runs where
no quorum is reached ahead of the counter (`InOrder`), and need not be otherwise.
-/

namespace OctopusPallets.Appchain

open Infra Infra.Dispatch Infra.FixedWidth

variable {cfg : Config} {AccountId Public β : Type} [DecidableEq AccountId]

/-! ## Validator sets -/

/-- The validator set of an observation, if it is one. -/
def Observation.validatorSet? : Observation AccountId → Option (ValidatorSet AccountId)
  | .updateValidatorSet valSet => some valSet
  | _ => none

omit [DecidableEq AccountId] in
theorem Observation.validatorSet?_notification {o : Observation AccountId}
    (ho : o.IsNotification) : o.validatorSet? = none := by
  cases o with
  | updateValidatorSet _ => exact absurd rfl ho
  | burn _ | lockAsset _ | burnNft _ => rfl

/-- The planned validators when the sets `sets` took effect after the list `genesis`. -/
def planAfter (genesis : List (AccountId × Nat)) (sets : List (ValidatorSet AccountId)) :
    List (AccountId × Nat) :=
  match sets.getLast? with
  | some valSet => valSet.plan
  | none => genesis

/-- The sets that took effect are numbered from 1 up to the counter, and the last one is planned. -/
structure SetsSequenced (genesis : List (AccountId × Nat)) (s : State cfg AccountId β)
    (sets : List (ValidatorSet AccountId)) : Prop where
  pos : 1 ≤ s.nextSetId
  ids : sets.map ValidatorSet.setId = List.range' 1 (s.nextSetId - 1)
  planned : s.plannedValidators = planAfter genesis sets

theorem setsSequenced_step {bridge : BridgeInterface AccountId β} {lpos : LposInterface AccountId}
    {v : AccountId} {o : Observation AccountId} {s s' : State cfg AccountId β}
    {os : List (Observation AccountId)} (hstep : VoteStep bridge lpos v o s s' os)
    {genesis : List (AccountId × Nat)} {sets : List (ValidatorSet AccountId)}
    (h : SetsSequenced genesis s sets) :
    SetsSequenced genesis s' (sets ++ os.filterMap Observation.validatorSet?) := by
  obtain ⟨hpos, hids, hplanned⟩ := h
  cases hstep with
  | refused _ => exact ⟨hpos, by simpa using hids, by simpa using hplanned⟩
  | counted _ _ _ => exact ⟨hpos, by simpa using hids, by simpa using hplanned⟩
  | @installed obs vals T valSet hreg _ _ hset _ =>
    subst hset
    have hid : valSet.setId = s.nextSetId :=
      (State.inRange_set (by simp [Observation.IsNotification,
        Observation.getObservationType])).mp hreg.inRange
    have hlen : s.nextSetId + 1 - 1 = (s.nextSetId - 1) + 1 := by omega
    refine ⟨by simp [State.installed], ?_, by simp [State.installed, planAfter,
      Observation.validatorSet?]⟩
    show (sets ++ [valSet]).map ValidatorSet.setId = List.range' 1 (s.nextSetId + 1 - 1)
    rw [List.map_append, hids, hlen, List.range'_1_concat, List.map_singleton, hid]
    congr 2
    omega
  | relayed _ _ _ ho _ =>
    simp only [List.filterMap_cons, Observation.validatorSet?_notification ho, List.filterMap_nil,
      List.append_nil]
    exact ⟨hpos, hids, hplanned⟩

/-- The run lemma: from genesis, sets stay sequenced. -/
theorem setsSequenced_run (bridge : BridgeInterface AccountId β) (anchorContract : List UInt8)
    (genesis : List (AccountId × Nat)) (b : β) (xs : List (Vote AccountId)) :
    SetsSequenced genesis
      ((voteMachine bridge).run xs (genesisBuild cfg anchorContract genesis b))
      (((voteMachine bridge).log xs (genesisBuild cfg anchorContract genesis b)).filterMap
        Observation.validatorSet?) := by
  refine (voteMachine bridge).invariant (P := fun _ _ => True)
    (I := fun _ s os => SetsSequenced genesis s (os.filterMap Observation.validatorSet?))
    ⟨Nat.le_refl 1, rfl, rfl⟩ ?_ xs ((voteMachine bridge).along_trivial xs _)
  intro _ s os x h _
  rw [List.filterMap_append]
  exact setsSequenced_step (voteMachine_step bridge x s) h

/-- From any state, sets stay sequenced. -/
theorem SetsSequenced.run (bridge : BridgeInterface AccountId β) {s : State cfg AccountId β}
    {genesis : List (AccountId × Nat)} {sets : List (ValidatorSet AccountId)}
    (h : SetsSequenced genesis s sets) (xs : List (Vote AccountId)) :
    SetsSequenced genesis ((voteMachine bridge).run xs s)
      (sets ++ ((voteMachine bridge).log xs s).filterMap Observation.validatorSet?) := by
  induction xs generalizing s sets with
  | nil => rwa [Machine.log, List.filterMap_nil, List.append_nil]
  | cons x xs ih =>
    rw [Machine.log, List.filterMap_append, ← List.append_assoc]
    exact ih (setsSequenced_step (voteMachine_step bridge x s) h)

/-- A vote that fails changes nothing at all. -/
theorem submitObservation_state_of_error (bridge : BridgeInterface AccountId β)
    (lpos : LposInterface AccountId) (v : AccountId) (o : Observation AccountId)
    (s : State cfg AccountId β) {e : Error} (h : (submitObservation bridge lpos v o s).1 = .error e) :
    (submitObservation bridge lpos v o s).2 = s :=
  transactional_state_of_error h

/-- Nor does a call that fails. -/
theorem submitObservations_state_of_error (bridge : BridgeInterface AccountId β)
    (lpos : LposInterface AccountId) (origin : Origin AccountId)
    (payload : ObservationsPayload Public AccountId) (s : State cfg AccountId β)
    {e : DispatchError} (h : (submitObservations bridge lpos origin payload s).1 = .error e) :
    (submitObservations bridge lpos origin payload s).2 = s := by
  unfold submitObservations at h ⊢
  cases origin with
  | root | signed _ => rfl
  | none =>
    cases hv : lpos.isActiveValidator keyType payload.keyData with
    | none => simp [ensureNone, bind_apply, okOr]
    | some v => simp [ensureNone, bind_apply, okOr, hv, submitEach_apply] at h

/--
**Validator sets take effect one by one, in the order of their ids.**

From genesis, whatever the calls carry, the sets that took effect have the ids `1, 2, …` up to
`NextSetId - 1`, and `PlannedValidators` is the list of the last of them. A call or a single vote
that fails leaves the storage as it was.
-/
theorem validator_sets_in_sequence (bridge : BridgeInterface AccountId β)
    (anchorContract : List UInt8) (genesis : List (AccountId × Nat)) (b : β)
    (cs : List (Call Public AccountId)) :
    let s₀ := genesisBuild cfg anchorContract genesis b
    let s := (callMachine bridge).run cs s₀
    let sets := ((callMachine bridge).log cs s₀).filterMap Observation.validatorSet?
    sets.map ValidatorSet.setId = List.range' 1 (s.nextSetId - 1) ∧
      s.plannedValidators = planAfter genesis sets ∧
      (∀ lpos v o e, (submitObservation bridge lpos v o s).1 = .error e →
        (submitObservation bridge lpos v o s).2 = s) ∧
      ∀ lpos origin (payload : ObservationsPayload Public AccountId) e,
        (submitObservations bridge lpos origin payload s).1 = .error e →
          (submitObservations bridge lpos origin payload s).2 = s := by
  intro s₀ s sets
  have h : SetsSequenced genesis s sets := by
    show SetsSequenced genesis ((callMachine bridge).run cs s₀)
      (((callMachine bridge).log cs s₀).filterMap Observation.validatorSet?)
    rw [callMachine_run, callMachine_log]
    exact setsSequenced_run bridge anchorContract genesis b (cs.flatMap Call.votes)
  exact ⟨h.ids, h.planned,
    fun lpos v o _ he => submitObservation_state_of_error bridge lpos v o s he,
    fun lpos origin payload _ he => submitObservations_state_of_error bridge lpos origin payload s he⟩

/-! ## Notifications -/

/-- The notifications among a list of observations. -/
def notifications (os : List (Observation AccountId)) : List (Observation AccountId) :=
  os.filter fun o => o.IsNotification

/-- The voters of `o`, with `v` among them, pass the two-thirds test under the stakes of `lpos`. -/
def State.Passes (s : State cfg AccountId β) (lpos : LposInterface AccountId) (v : AccountId)
    (o : Observation AccountId) : Prop :=
  lpos.activeTotalStake.any fun T => twoThirds (stakeOf lpos (s.votersWith v o)) T

instance (s : State cfg AccountId β) (lpos : LposInterface AccountId) (v : AccountId)
    (o : Observation AccountId) : Decidable (s.Passes lpos v o) :=
  inferInstanceAs (Decidable (_ = true))

theorem State.passes_iff {s : State cfg AccountId β} {lpos : LposInterface AccountId}
    {v : AccountId} {o : Observation AccountId} : s.Passes lpos v o ↔
      ∃ T, lpos.activeTotalStake = some T ∧ twoThirds (stakeOf lpos (s.votersWith v o)) T = true := by
  unfold State.Passes
  rw [Option.any_eq_true]

theorem Registers.passes_iff {s : State cfg AccountId β} {lpos : LposInterface AccountId}
    {v : AccountId} {o : Observation AccountId} {obs vals T} (hreg : Registers s v o obs vals)
    (htotal : lpos.activeTotalStake = some T) :
    s.Passes lpos v o ↔ twoThirds (stakeOf lpos vals.val) T = true := by
  rw [State.passes_iff, hreg.votersWith]
  constructor
  · rintro ⟨T', hT', h⟩
    rw [htotal, Option.some.injEq] at hT'
    rwa [hT']
  · exact fun h => ⟨T, htotal, h⟩

/-- The vote `x` makes a quorum for a notification, so that the bridge is called. -/
structure State.Relays (s : State cfg AccountId β) (x : Vote AccountId) : Prop where
  notification : x.observation.IsNotification
  inRange : s.InRange x.observation
  hasRoom : ((s.observations (x.observation.getObservationType,
    x.observation.observationIndex)).tryPushAbsent x.observation).isSome
  hasVoterRoom : ((s.observing x.observation).tryPushAbsent x.validatorId).isSome
  passes : s.Passes x.lpos x.validatorId x.observation
  lt : s.nextNotificationId + 1 < 2 ^ 32

instance (s : State cfg AccountId β) (x : Vote AccountId) : Decidable (s.Relays x) :=
  decidable_of_iff (_ ∧ _ ∧ _ ∧ _ ∧ _ ∧ _)
    ⟨fun ⟨h₁, h₂, h₃, h₄, h₅, h₆⟩ => ⟨h₁, h₂, h₃, h₄, h₅, h₆⟩,
      fun ⟨h₁, h₂, h₃, h₄, h₅, h₆⟩ => ⟨h₁, h₂, h₃, h₄, h₅, h₆⟩⟩

theorem Refused.not_relays {x : Vote AccountId} {s : State cfg AccountId β} {e : Error}
    (h : Refused x.lpos x.validatorId x.observation s e) : ¬ s.Relays x := by
  intro hrelays
  cases h with
  | wrongSetId _ h | invalidNotificationId _ h => exact h hrelays.inRange
  | observationsFull _ h => simpa [h] using hrelays.hasRoom
  | observingFull _ h => simpa [h] using hrelays.hasVoterRoom
  | noActiveEra _ h =>
    obtain ⟨T, hT, -⟩ := State.passes_iff.mp hrelays.passes
    rw [h] at hT
    cases hT
  | nextSetIdOverflow _ ho _ => exact ho hrelays.notification
  | nextNotificationIdOverflow _ _ h => exact absurd hrelays.lt (Nat.not_lt.mpr h)

/-- A step relays its notification or none. -/
theorem notifications_of_step {bridge : BridgeInterface AccountId β} {x : Vote AccountId}
    {s s' : State cfg AccountId β} {os : List (Observation AccountId)}
    (hstep : VoteStep bridge x.lpos x.validatorId x.observation s s' os) :
    notifications os = if s.Relays x then [x.observation] else [] := by
  cases hstep with
  | refused h => rw [if_neg h.not_relays]; rfl
  | counted hreg htotal hquorum =>
    rw [if_neg]
    · rfl
    · intro hrelays
      rw [(hreg.passes_iff htotal).mp hrelays.passes] at hquorum
      cases hquorum
  | installed hreg htotal hquorum hset hlt =>
    rw [if_neg]
    · rw [hset]
      rfl
    · exact fun hrelays => hrelays.notification (by rw [hset]; rfl)
  | relayed hreg htotal hquorum ho hlt =>
    rw [if_pos ⟨ho, hreg.inRange, by rw [hreg.observations]; rfl, by rw [hreg.observing]; rfl,
      (hreg.passes_iff htotal).mpr hquorum, hlt⟩]
    simp [notifications, ho]

/-- The counter moves by one for each notification that takes effect. -/
theorem nextNotificationId_of_step {bridge : BridgeInterface AccountId β}
    {lpos : LposInterface AccountId} {v : AccountId} {o : Observation AccountId}
    {s s' : State cfg AccountId β} {os : List (Observation AccountId)}
    (hstep : VoteStep bridge lpos v o s s' os) :
    s'.nextNotificationId = s.nextNotificationId + (notifications os).length := by
  cases hstep with
  | refused _ => rfl
  | counted _ _ _ => rfl
  | installed _ _ _ hset _ =>
    subst hset
    rfl
  | relayed _ _ _ ho _ => simp [notifications, ho]

omit [DecidableEq AccountId] in
theorem notifications_append (os os' : List (Observation AccountId)) :
    notifications (os ++ os') = notifications os ++ notifications os' := List.filter_append ..

/-- The run lemma: as many notifications took effect as the counter moved. -/
theorem nextNotificationId_run (bridge : BridgeInterface AccountId β) (s₀ : State cfg AccountId β)
    (xs : List (Vote AccountId)) :
    ((voteMachine bridge).run xs s₀).nextNotificationId
      = s₀.nextNotificationId + (notifications ((voteMachine bridge).log xs s₀)).length := by
  refine (voteMachine bridge).invariant (P := fun _ _ => True)
    (I := fun _ s os =>
      s.nextNotificationId = s₀.nextNotificationId + (notifications os).length)
    rfl ?_ xs ((voteMachine bridge).along_trivial xs _)
  intro _ s os x hs _
  rw [nextNotificationId_of_step (voteMachine_step bridge x s), hs, notifications_append,
    List.length_append, Nat.add_assoc]

/-- A quorum for a notification is only reached at the index the counter stands at. -/
def InOrder (s : State cfg AccountId β) (x : Vote AccountId) : Prop :=
  s.Relays x → x.observation.observationIndex = s.nextNotificationId

instance (s : State cfg AccountId β) (x : Vote AccountId) : Decidable (InOrder s x) :=
  inferInstanceAs (Decidable (_ → _))

/--
**The notifications that took effect are numbered consecutively, from the counter on, exactly in
the runs where quorums come in order.**
-/
theorem indices_run (bridge : BridgeInterface AccountId β) :
    ∀ (xs : List (Vote AccountId)) (s₀ : State cfg AccountId β),
      (notifications ((voteMachine bridge).log xs s₀)).map Observation.observationIndex
          = List.range' s₀.nextNotificationId
              (notifications ((voteMachine bridge).log xs s₀)).length ↔
        (voteMachine bridge).Along InOrder xs s₀
  | [], _ => by simp [Machine.log, Machine.Along, notifications]
  | x :: xs, s₀ => by
    have hstep := voteMachine_step bridge x s₀
    have hnext := nextNotificationId_of_step hstep
    have hrest := indices_run bridge xs ((voteMachine bridge).step x s₀).1
    rw [hnext] at hrest
    rw [notifications_of_step hstep] at hrest
    rw [Machine.log, Machine.Along, ← hrest, notifications_append, notifications_of_step hstep,
      InOrder]
    by_cases hrelays : s₀.Relays x
    -- relayed: the first index must be the counter, and the rest follows from the counter plus one
    · rw [if_pos hrelays, List.singleton_append, List.map_cons, List.length_cons,
        List.range'_succ, List.cons.injEq, List.length_singleton]
      exact and_congr_left fun _ => ⟨fun h _ => h, fun h => h hrelays⟩
    · rw [if_neg hrelays, List.nil_append, List.length_nil, Nat.add_zero]
      exact ⟨fun h => ⟨fun hr => absurd hr hrelays, h⟩, fun h => h.2⟩

/-! ## Calls of the bridge -/

/-- A call of one of the three functions of the bridge interface. -/
inductive BridgeCall (AccountId : Type) where
  | unlock (senderId : List UInt8) (receiver : AccountId) (amount sequence : Nat)
  | mintNep141 (tokenId senderId : List UInt8) (receiver : AccountId) (amount sequence : Nat)
  | unlockNonfungible (collection item : Nat) (senderId : List UInt8) (receiver : AccountId)
      (sequence : Nat)

def BridgeCall.sequence : BridgeCall AccountId → Nat
  | .unlock _ _ _ sequence | .mintNep141 _ _ _ _ sequence | .unlockNonfungible _ _ _ _ sequence =>
    sequence

/-- The bridge call a notification asks for. -/
def Observation.bridgeCall? : Observation AccountId → Option (BridgeCall AccountId)
  | .updateValidatorSet _ => none
  | .burn event => some (.unlock event.senderId event.receiver event.amount event.index)
  | .lockAsset event =>
    some (.mintNep141 event.tokenId event.senderId event.receiver event.amount event.index)
  | .burnNft event =>
    some (.unlockNonfungible event.collection event.item event.senderId event.receiver event.index)

/-- The call `x`, noted as `c` before its result is known. -/
def noting {ε α κ : Type} (c : κ) (x : Dispatch ε β α) : Dispatch ε (β × List κ) α := fun s =>
  ((x s.1).1, ((x s.1).2, s.2 ++ [c]))

/-- Any bridge, with a record of the calls it receives. -/
def recording (bridge : BridgeInterface AccountId β) :
    BridgeInterface AccountId (β × List (BridgeCall AccountId)) where
  unlock senderId receiver amount sequence :=
    noting (.unlock senderId receiver amount sequence)
      (bridge.unlock senderId receiver amount sequence)
  mintNep141 tokenId senderId receiver amount sequence :=
    noting (.mintNep141 tokenId senderId receiver amount sequence)
      (bridge.mintNep141 tokenId senderId receiver amount sequence)
  unlockNonfungible collection item senderId receiver sequence :=
    noting (.unlockNonfungible collection item senderId receiver sequence)
      (bridge.unlockNonfungible collection item senderId receiver sequence)

omit [DecidableEq AccountId] in
theorem bridgeCall_recording (bridge : BridgeInterface AccountId β) {o : Observation AccountId}
    (ho : o.IsNotification) (b : β × List (BridgeCall AccountId)) :
    ∃ c, o.bridgeCall? = some c ∧ c.sequence = o.observationIndex ∧
      (o.bridgeCall (recording bridge) b).2.2 = b.2 ++ [c] := by
  cases o with
  | updateValidatorSet _ => exact absurd rfl ho
  | burn _ | lockAsset _ | burnNft _ => exact ⟨_, rfl, rfl, rfl⟩

/-- **The bridge is called for the notifications that take effect**, once for each. -/
theorem bridge_calls_of_step (bridge : BridgeInterface AccountId β)
    {lpos : LposInterface AccountId} {v : AccountId} {o : Observation AccountId}
    {s s' : State cfg AccountId (β × List (BridgeCall AccountId))}
    {os : List (Observation AccountId)} (hstep : VoteStep (recording bridge) lpos v o s s' os) :
    s'.bridge.2 = s.bridge.2 ++ os.filterMap Observation.bridgeCall? := by
  cases hstep with
  | refused _ => simp
  | counted _ _ _ => simp
  | @installed _ _ _ valSet _ _ _ hset _ =>
    subst hset
    simp [Observation.bridgeCall?]
  | relayed _ _ _ ho _ =>
    obtain ⟨c, hc, -, hrecord⟩ := bridgeCall_recording bridge ho s.bridge
    simp [hc, hrecord]

/-- The run lemma: the record is that of the notifications that took effect. -/
theorem bridge_calls_run (bridge : BridgeInterface AccountId β)
    (s₀ : State cfg AccountId (β × List (BridgeCall AccountId))) (xs : List (Vote AccountId)) :
    ((voteMachine (recording bridge)).run xs s₀).bridge.2 = s₀.bridge.2
      ++ ((voteMachine (recording bridge)).log xs s₀).filterMap Observation.bridgeCall? := by
  refine (voteMachine (recording bridge)).invariant (P := fun _ _ => True)
    (I := fun _ s os => s.bridge.2 = s₀.bridge.2 ++ os.filterMap Observation.bridgeCall?)
    (by simp) ?_ xs ((voteMachine (recording bridge)).along_trivial xs _)
  intro _ s os x hs _
  rw [bridge_calls_of_step bridge (voteMachine_step (recording bridge) x s), hs,
    List.filterMap_append, List.append_assoc]

omit [DecidableEq AccountId] in
/-- A bridge call carries the index of its notification. -/
theorem sequence_bridgeCalls : ∀ os : List (Observation AccountId),
    (os.filterMap Observation.bridgeCall?).map BridgeCall.sequence
      = (notifications os).map Observation.observationIndex
  | [] => rfl
  | .updateValidatorSet _ :: os => sequence_bridgeCalls os
  | .burn event :: os => congrArg (event.index :: ·) (sequence_bridgeCalls os)
  | .lockAsset event :: os => congrArg (event.index :: ·) (sequence_bridgeCalls os)
  | .burnNft event :: os => congrArg (event.index :: ·) (sequence_bridgeCalls os)

/--
**A notification is executed at most once, in the runs where quorums come in order.**

The sequence numbers of all calls the bridge received since `s₀` are consecutive, so no two are
equal.
-/
theorem bridge_called_once (bridge : BridgeInterface AccountId β)
    (s₀ : State cfg AccountId (β × List (BridgeCall AccountId))) (hs₀ : s₀.bridge.2 = [])
    (cs : List (Call Public AccountId))
    (horder : (voteMachine (recording bridge)).Along InOrder (cs.flatMap Call.votes) s₀) :
    (((callMachine (recording bridge)).run cs s₀).bridge.2.map BridgeCall.sequence).Nodup := by
  rw [callMachine_run, bridge_calls_run, hs₀, List.nil_append, sequence_bridgeCalls,
    (indices_run _ _ _).mpr horder]
  exact List.nodup_range'

/-- Three of four validators report the indices 0 and 1 in order. -/
theorem bridge_called_once_in_order :
    (((callMachine (recording Sample.idleBridge)).run
      [Sample.callOf 4 0 [Sample.burnAt 0, Sample.burnAt 1],
        Sample.callOf 4 1 [Sample.burnAt 0, Sample.burnAt 1],
        Sample.callOf 4 2 [Sample.burnAt 0, Sample.burnAt 1]]
      (genesisBuild Sample.config [] [] ((), []))).bridge.2.map BridgeCall.sequence).Nodup :=
  bridge_called_once Sample.idleBridge (genesisBuild Sample.config [] [] ((), [])) rfl _ (by decide)

/-- Three of four validators report index 1 before anyone reports index 0, and one of them reports
it again: the counter has moved to 1, so the second report is accepted and calls the bridge. -/
theorem bridge_called_twice :
    ¬ (((callMachine (recording Sample.idleBridge)).run
      [Sample.callOf 4 0 [Sample.burnAt 1], Sample.callOf 4 1 [Sample.burnAt 1],
        Sample.callOf 4 2 [Sample.burnAt 1], Sample.callOf 4 2 [Sample.burnAt 1]]
      (genesisBuild Sample.config [] [] ((), []))).bridge.2.map BridgeCall.sequence).Nodup := by
  decide

end OctopusPallets.Appchain
