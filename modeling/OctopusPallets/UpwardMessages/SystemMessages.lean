import OctopusPallets.UpwardMessages.Commitments

/-!
# Messages of the runtime

`submit` checks its limits for the messages of accounts only. The queue and the payload are bounded
for every message, so the messages of the runtime meet the same two limits a little later.
-/

namespace OctopusPallets.UpwardMessages

open Infra Infra.Dispatch Infra.FixedWidth

variable {cfg : Config} {AccountId : Type}

/-- The messages that the runtime sends by itself. -/
def IsSystem (payloadType : PayloadType) : Prop :=
  payloadType = .planNewEra ∨ payloadType = .eraPayout

instance (payloadType : PayloadType) : Decidable (IsSystem payloadType) :=
  inferInstanceAs (Decidable (_ ∨ _))

/-- The queue and the payload have room for one more message with this payload. -/
def State.HasRoom (s : State cfg) (payload : List UInt8) : Prop :=
  s.messageQueue.val.length < cfg.maxMessagesPerCommit ∧
    payload.length ≤ cfg.maxMessagePayloadSize

instance (s : State cfg) (payload : List UInt8) : Decidable (s.HasRoom payload) :=
  inferInstanceAs (Decidable (_ ∧ _))

/-- With room and a nonce left, a message is queued. -/
theorem appendMessage_of_room {s : State cfg} {payload : List UInt8} (h : s.HasRoom payload)
    (hnonce : s.nonce + 1 < 2 ^ 64) (payloadType : PayloadType) :
    ∃ nonce, (appendMessage payloadType payload s).1 = .ok nonce := by
  obtain ⟨hqueue, hpayload⟩ := h
  have hnext := checkedAdd_eq_some.mpr ⟨hnonce, rfl⟩
  cases hbytes : BoundedVec.ofList cfg.maxMessagePayloadSize payload with
  | none =>
    rw [BoundedVec.ofList_eq_none] at hbytes
    omega
  | some bytes =>
    cases hpush : s.messageQueue.tryPush ⟨s.nonce + 1, payloadType, bytes⟩ with
    | none =>
      rw [BoundedVec.tryPush_eq_none] at hpush
      omega
    | some queue =>
      refine ⟨s.nonce + 1, ?_⟩
      simp [appendMessage, bind_apply, okOr, hnext, hbytes, hpush, depositEvent]

/-- A message that is queued found room. -/
theorem hasRoom_of_fields {s : State cfg} {m : Message cfg}
    {queue : BoundedVec (Message cfg) cfg.maxMessagesPerCommit}
    (hqueue : queue.val = s.messageQueue.val ++ [m]) : s.HasRoom m.payload.val := by
  have hlen := queue.length_le
  rw [hqueue, List.length_append, List.length_singleton] at hlen
  exact ⟨hlen, m.payload.length_le⟩

/-- **Any message is accepted only if there is room, and one of the runtime whenever there is.** -/
theorem submit_system_iff {s : State cfg} (hnonce : s.nonce + 1 < 2 ^ 64)
    (who : Option AccountId) {payloadType : PayloadType} (hsystem : IsSystem payloadType)
    (payload : List UInt8) :
    (∃ nonce, (submit who payloadType payload s).1 = .ok nonce) ↔ s.HasRoom payload := by
  constructor
  · rintro ⟨nonce, hok⟩
    rcases submit_cases who payloadType payload s with ⟨e, he⟩ | ⟨m, queue, hm, -, hqueue, -⟩
    · rw [he] at hok
      cases hok
    · have hpayload : m.payload.val = payload := congrArg (fun fields => fields.2.2) hm
      rw [← hpayload]
      exact hasRoom_of_fields hqueue
  · intro hroom
    obtain ⟨nonce, hok⟩ := appendMessage_of_room hroom hnonce payloadType
    refine ⟨nonce, ?_⟩
    have hlimits : ensureWithinLimits payloadType payload s = (.ok (), s) := by
      rcases hsystem with rfl | rfl <;> rfl
    unfold submit
    rw [bind_of_ok hlimits]
    exact hok

/-- With any nonce, a message of the runtime also needs a next one. -/
theorem submit_system_ok_iff {s : State cfg} (who : Option AccountId) {payloadType : PayloadType}
    (hsystem : IsSystem payloadType) (payload : List UInt8) :
    (∃ nonce, (submit who payloadType payload s).1 = .ok nonce) ↔
      s.HasRoom payload ∧ s.nonce + 1 < 2 ^ 64 := by
  constructor
  · rintro ⟨nonce, hok⟩
    rcases submit_cases who payloadType payload s with ⟨e, he⟩ | ⟨m, queue, -, hnonce, -, -⟩
    · rw [he] at hok
      cases hok
    · exact ⟨(submit_system_iff hnonce who hsystem payload).mp ⟨nonce, hok⟩, hnonce⟩
  · rintro ⟨hroom, hnonce⟩
    exact (submit_system_iff hnonce who hsystem payload).mpr hroom

/--
**A message of the runtime is accepted exactly when the queue has a place left and the payload is
not longer than the bound**, in every state that submissions and commitments lead to and in which
the nonce can still grow.
-/
theorem system_message_accepted_iff (hash : List UInt8 → List UInt8) (interval : Nat)
    (is : List (Input AccountId)) (who : Option AccountId) {payloadType : PayloadType}
    (hsystem : IsSystem payloadType) (payload : List UInt8)
    (hnonce : ((machine cfg AccountId hash).run is (genesisBuild cfg interval)).nonce
      < 2 ^ 64 - 1) :
    (∃ nonce, (submit who payloadType payload
        ((machine cfg AccountId hash).run is (genesisBuild cfg interval))).1 = .ok nonce) ↔
      ((machine cfg AccountId hash).run is (genesisBuild cfg interval)).messageQueue.val.length
          < cfg.maxMessagesPerCommit ∧
        payload.length ≤ cfg.maxMessagePayloadSize :=
  submit_system_iff (by omega) who hsystem payload

namespace Sample

/-- Two users fill the queue. -/
def fullQueue : List (Input Nat) :=
  [.submit (some 0) .lock [1], .submit (some 1) .burnAsset [2]]

end Sample

/-- With one message queued there is room for a second one. -/
theorem system_message_accepted_beside_user :
    ∃ nonce, (submit (none : Option Nat) .planNewEra [2] ((machine Sample.config Nat id).run
      [.submit (some 0) .lock [1]] (genesisBuild Sample.config 1))).1 = .ok nonce :=
  (system_message_accepted_iff id 1 [.submit (some 0) .lock [1]] (none : Option Nat) (Or.inl rfl) [2]
    (by decide)).mpr (by decide)

/-- Neither the plan of an era nor a long payout gets through. -/
theorem system_message_refused :
    ¬ (∀ (payloadType : PayloadType) (payload : List UInt8), IsSystem payloadType →
        ((machine Sample.config Nat id).run Sample.fullQueue (genesisBuild Sample.config 1)).nonce
          < 2 ^ 64 - 1 →
        ∃ nonce, (submit (none : Option Nat) payloadType payload ((machine Sample.config Nat id).run
          Sample.fullQueue (genesisBuild Sample.config 1))).1 = .ok nonce) ∧
      ¬ ∃ nonce, (submit (none : Option Nat) .eraPayout (List.replicate 101 0)
        (genesisBuild Sample.config 1)).1 = .ok nonce := by
  have hfull : (submit (none : Option Nat) .planNewEra [3] ((machine Sample.config Nat id).run Sample.fullQueue
      (genesisBuild Sample.config 1))).1 = .error (.upwardMessages .queueSizeLimitReached) := by
    decide
  have hlong : (submit (none : Option Nat) .eraPayout (List.replicate 101 0) (genesisBuild Sample.config 1)).1
      = .error (.upwardMessages .payloadTooLarge) := by
    decide
  constructor
  · intro hall
    obtain ⟨nonce, hok⟩ := hall .planNewEra [3] (Or.inl rfl) (by decide)
    rw [hfull] at hok
    cases hok
  · rintro ⟨nonce, hok⟩
    rw [hlong] at hok
    cases hok

end OctopusPallets.UpwardMessages
