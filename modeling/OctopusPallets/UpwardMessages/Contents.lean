import OctopusPallets.UpwardMessages.SystemMessages

/-!
# What the messages say

A commitment moves messages from the queue into a batch, so the messages that were accepted are read
off the batches and the queue together. `sent` reads the payloads of one type off them.
-/

namespace OctopusPallets.UpwardMessages

open Infra Infra.Dispatch

variable {cfg : Config} {AccountId α : Type}

/-- The messages accepted so far. -/
def State.accepted (s : State cfg) : List (Message cfg) :=
  s.committedBatches.flatten ++ s.messageQueue.val

theorem accept_accepted {s : State cfg} {m : Message cfg}
    {queue : BoundedVec (Message cfg) cfg.maxMessagesPerCommit}
    (hqueue : queue.val = s.messageQueue.val ++ [m]) :
    (s.accept m queue).accepted = s.accepted ++ [m] := by
  unfold State.accepted
  rw [committedBatches_accept, List.append_assoc, ← hqueue]
  rfl

theorem commit_accepted (hash : List UInt8 → List UInt8) (s : State cfg) :
    (commit hash s).accepted = s.accepted := by
  unfold State.accepted
  rcases commit_cases hash s with ⟨-, heq⟩ | ⟨-, hbatches, hqueue, -⟩
  · rw [heq]
  · rw [hbatches, hqueue]
    simp

theorem onInitialize_accepted {hash : List UInt8 → List UInt8} {now : Nat} {s s' : State cfg}
    (h : onInitialize hash now s = some s') : s'.accepted = s.accepted := by
  rcases @onInitialize_cases cfg Unit hash now s s' h with rfl | rfl
  · exact commit_accepted hash s
  · rfl

/-- **A submission is refused and changes nothing, or adds one message.** -/
theorem submit_accepted (who : Option AccountId) (payloadType : PayloadType)
    (payload : List UInt8) (s : State cfg) :
    (∃ e, submit who payloadType payload s = (.error e, s)) ∨
      ∃ (m : Message cfg) (s' : State cfg), submit who payloadType payload s = (.ok m.nonce, s') ∧
        m.payloadType = payloadType ∧ m.payload.val = payload ∧ s'.accepted = s.accepted ++ [m] := by
  rcases submit_cases who payloadType payload s with herror | ⟨m, queue, hm, -, hqueue, hok⟩
  · exact Or.inl herror
  · exact Or.inr ⟨m, _, hok, congrArg (fun fields => fields.2.1) hm,
      congrArg (fun fields => fields.2.2) hm, accept_accepted hqueue⟩

theorem submit_error {who : Option AccountId} {payloadType : PayloadType} {payload : List UInt8}
    {s s' : State cfg} {e : DispatchError}
    (h : submit who payloadType payload s = (.error e, s')) : s' = s := by
  rcases submit_accepted who payloadType payload s with ⟨e', he⟩ | ⟨m, t, hok, -⟩
  · exact (Prod.mk.inj (h.symm.trans he)).2
  · cases (Prod.mk.inj (h.symm.trans hok)).1

/-! ## Payloads -/

/-- The payload of a message, if it is of this type. -/
def Message.read (payloadType : PayloadType) (codec : Codec α) (m : Message cfg) : Option α :=
  if m.payloadType = payloadType then (codec.decode m.payload.val).map Prod.fst else none

theorem Message.payloadType_of_read {payloadType : PayloadType} {codec : Codec α} {m : Message cfg}
    {a : α} (h : m.read payloadType codec = some a) : m.payloadType = payloadType := by
  by_contra hne
  rw [Message.read, if_neg hne] at h
  cases h

/-- The payloads of one type, in the order in which they were accepted. -/
def State.sent (payloadType : PayloadType) (codec : Codec α) (s : State cfg) : List α :=
  s.accepted.filterMap (Message.read payloadType codec)

theorem sent_of_accepted {s s' : State cfg} (h : s'.accepted = s.accepted)
    (payloadType : PayloadType) (codec : Codec α) :
    s'.sent payloadType codec = s.sent payloadType codec := by
  unfold State.sent
  rw [h]

/-- A payload that is accepted is read back. -/
theorem submit_read (who : Option AccountId) {payloadType : PayloadType} {codec : Codec α} {a : α}
    {s s' : State cfg} {nonce : Nat} (hvalid : codec.valid a = true)
    (h : submit who payloadType (codec.encode a) s = (.ok nonce, s')) :
    ∃ m : Message cfg, s'.accepted = s.accepted ++ [m] ∧ m.read payloadType codec = some a := by
  rcases submit_accepted who payloadType (codec.encode a) s with
    ⟨e, he⟩ | ⟨m, t, hok, htype, hpayload, haccepted⟩
  · cases (Prod.mk.inj (h.symm.trans he)).1
  · obtain rfl := (Prod.mk.inj (h.symm.trans hok)).2
    refine ⟨m, haccepted, ?_⟩
    have hdecode := codec.decode_encode a hvalid []
    rw [List.append_nil] at hdecode
    unfold Message.read
    rw [if_pos htype, hpayload, hdecode]
    rfl

theorem submit_sent (who : Option AccountId) {payloadType : PayloadType} {codec : Codec α} {a : α}
    {s s' : State cfg} {nonce : Nat} (hvalid : codec.valid a = true)
    (h : submit who payloadType (codec.encode a) s = (.ok nonce, s')) :
    s'.sent payloadType codec = s.sent payloadType codec ++ [a] := by
  obtain ⟨m, haccepted, hread⟩ := submit_read who hvalid h
  unfold State.sent
  rw [haccepted, List.filterMap_append]
  simp [hread]

/-- A message is not read as one of another type. -/
theorem submit_sent_of_ne {other payloadType : PayloadType} (hne : payloadType ≠ other)
    (codec : Codec α) (who : Option AccountId) (payload : List UInt8) (s : State cfg) :
    (submit who payloadType payload s).2.sent other codec = s.sent other codec := by
  rcases submit_accepted who payloadType payload s with
    ⟨e, he⟩ | ⟨m, t, hok, htype, -, haccepted⟩
  · rw [he]
  · have hread : m.read other codec = none := if_neg (by rw [htype]; exact hne)
    rw [hok]
    unfold State.sent
    rw [haccepted, List.filterMap_append]
    simp [hread]

end OctopusPallets.UpwardMessages
