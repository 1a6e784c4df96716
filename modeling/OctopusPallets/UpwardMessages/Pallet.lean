import OctopusPallets.Infra.BoundedVec
import OctopusPallets.Infra.FixedWidth
import OctopusPallets.Infra.Scale
import OctopusPallets.Support.Traits
import Mathlib.Logic.Function.Basic

/-!
# The upward-messages pallet

`upward-messages/src/lib.rs`: a queue of messages to the mainchain, and the commitments that empty
it. Events and digest items are kept for the whole run, not only for the current block. Weights are
left out: nothing reads them.
-/

namespace OctopusPallets.UpwardMessages

open Infra Infra.Dispatch Infra.FixedWidth Infra.Scale

structure Config where
  /-- Max bytes in a message payload -/
  maxMessagePayloadSize : Nat
  /-- Max number of messages per commitment -/
  maxMessagesPerCommit : Nat
  payloadSize_lt : maxMessagePayloadSize < 2 ^ 32
  messages_lt : maxMessagesPerCommit < 2 ^ 32

structure Message (cfg : Config) where
  nonce : Nat
  payloadType : PayloadType
  payload : BoundedVec UInt8 cfg.maxMessagePayloadSize
deriving DecidableEq

/-! ## Encoding -/

/-- The SCALE index of a payload type. -/
def payloadTypeIndex : PayloadType → UInt8
  | .lock => 0
  | .burnAsset => 1
  | .planNewEra => 2
  | .eraPayout => 3
  | .lockNft => 4

def payloadTypeOfIndex (index : UInt8) : Option PayloadType :=
  [PayloadType.lock, .burnAsset, .planNewEra, .eraPayout, .lockNft].find?
    fun payloadType => payloadTypeIndex payloadType == index

def payloadTypeCodec : Codec PayloadType :=
  .variant payloadTypeIndex payloadTypeOfIndex (by rintro (_ | _ | _ | _ | _) <;> decide)

variable {cfg : Config} {AccountId : Type}

/-- The fields of a message, in the order in which they are encoded. -/
def Message.fields (m : Message cfg) : Nat × PayloadType × List UInt8 :=
  (m.nonce, m.payloadType, m.payload.val)

def Message.ofFields (fields : Nat × PayloadType × List UInt8) : Option (Message cfg) :=
  (BoundedVec.ofList _ fields.2.2).map fun payload => ⟨fields.1, fields.2.1, payload⟩

theorem Message.ofFields_fields (m : Message cfg) : Message.ofFields m.fields = some m := by
  unfold Message.ofFields Message.fields
  rw [BoundedVec.ofList_val]
  rfl

/-- The nonce is compact; the payload is a vector of bytes. -/
def messageCodec (cfg : Config) : Codec (Message cfg) :=
  ((compact 64 (by decide)).pair (payloadTypeCodec.pair (vec .byte))).via Message.fields
    Message.ofFields Message.ofFields_fields

def batchCodec (cfg : Config) : Codec (List (Message cfg)) := vec (messageCodec cfg)

theorem messageCodec_valid {m : Message cfg} (h : m.nonce < 2 ^ 64) :
    (messageCodec cfg).valid m = true := by
  have hlen : m.payload.val.length < 2 ^ 32 :=
    Nat.lt_of_le_of_lt m.payload.length_le cfg.payloadSize_lt
  have hpayload : (vec Codec.byte).valid m.payload.val = true :=
    Codec.vec_valid.mpr ⟨decide_eq_true hlen, fun _ _ => rfl⟩
  show (decide (m.nonce < 2 ^ 64) && (true && (vec Codec.byte).valid m.payload.val)) = true
  rw [hpayload, decide_eq_true h]
  rfl

/-! ## The pallet -/

inductive Event (cfg : Config) where
  | messageAccepted (nonce : Nat)
  | committed (hash : List UInt8) (data : List (Message cfg))
deriving DecidableEq

structure State (cfg : Config) where
  /-- Interval between commitments -/
  interval : Nat
  messageQueue : BoundedVec (Message cfg) cfg.maxMessagesPerCommit
  nonce : Nat
  events : List (Event cfg)
  /-- The `Other` items of the block digests. -/
  digest : List (List UInt8)
  offchainIndex : List UInt8 → Option (List UInt8)

def genesisBuild (cfg : Config) (interval : Nat) : State cfg where
  interval := interval
  messageQueue := .empty
  nonce := 0
  events := []
  digest := []
  offchainIndex := fun _ => none

def depositEvent (event : Event cfg) : Dispatch DispatchError (State cfg) Unit :=
  store fun s => { s with events := s.events ++ [event] }

/-- The limits of the messages that accounts send. Messages of the runtime only meet the bounds of
the storage. -/
def ensureWithinLimits (payloadType : PayloadType) (payload : List UInt8) :
    Dispatch DispatchError (State cfg) Unit :=
  match payloadType with
  | .lock | .burnAsset | .lockNft => do
    let queue ← load State.messageQueue
    ensure (queue.val.length < cfg.maxMessagesPerCommit) (.upwardMessages .queueSizeLimitReached)
    ensure (payload.length ≤ cfg.maxMessagePayloadSize) (.upwardMessages .payloadTooLarge)
  | _ => pure ()

/-- The `try_mutate` of the nonce. It is written last, when nothing can fail any more. -/
def appendMessage (payloadType : PayloadType) (payload : List UInt8) :
    Dispatch DispatchError (State cfg) Nat := do
  let nonce ← load State.nonce
  let nonce ← okOr (checkedAdd 64 nonce 1) (.upwardMessages .nonceOverflow)
  let payload ← okOr (BoundedVec.ofList _ payload) (.upwardMessages .payloadTooLarge)
  let queue ← load fun s => s.messageQueue.tryPush ⟨nonce, payloadType, payload⟩
  let queue ← okOr queue (.upwardMessages .queueSizeLimitReached)
  store fun s => { s with messageQueue := queue }
  depositEvent (.messageAccepted nonce)
  store fun s => { s with nonce := nonce }
  pure nonce

/-- `UpwardMessagesInterface::submit`. -/
def submit (_who : Option AccountId) (payloadType : PayloadType) (payload : List UInt8) :
    Dispatch DispatchError (State cfg) Nat := do
  ensureWithinLimits payloadType payload
  appendMessage payloadType payload

/-- `impl UpwardMessagesInterface for Pallet`. -/
def upwardMessagesInterface : UpwardMessagesInterface AccountId (State cfg) where
  submit := submit

/-- `commit`, under the hash function of the runtime. -/
def commit (hash : List UInt8 → List UInt8) (s : State cfg) : State cfg :=
  let messageQueue := s.messageQueue.val
  if messageQueue.isEmpty then { s with messageQueue := .empty }
  else
    let encodedMessages := (batchCodec cfg).encode messageQueue
    let commitmentHash := hash encodedMessages
    { s with
      messageQueue := .empty
      digest := s.digest ++ [commitmentHash]
      events := s.events ++ [.committed commitmentHash messageQueue]
      offchainIndex :=
        Function.update s.offchainIndex commitmentHash (some encodedMessages) }

/-- The hook of every block: a commitment every `interval` blocks. Division by an interval of 0
aborts. -/
def onInitialize (hash : List UInt8 → List UInt8) (now : Nat) (s : State cfg) :
    Option (State cfg) :=
  if s.interval = 0 then none
  else if now % s.interval = 0 then some (commit hash s)
  else some s

/-! ## What a submission does -/

/-- The state after the message `m` is accepted. -/
def State.accept (s : State cfg) (m : Message cfg)
    (queue : BoundedVec (Message cfg) cfg.maxMessagesPerCommit) : State cfg :=
  { s with
    messageQueue := queue
    nonce := m.nonce
    events := s.events ++ [.messageAccepted m.nonce] }

theorem ensureWithinLimits_cases (payloadType : PayloadType) (payload : List UInt8)
    (s : State cfg) :
    (∃ e, ensureWithinLimits payloadType payload s = (.error e, s)) ∨
      ensureWithinLimits payloadType payload s = (.ok (), s) := by
  have hlimits : ∀ b b' : Bool, ∀ e e' : DispatchError,
      (∃ e'', (do ensure b e; ensure b' e' : Dispatch _ (State cfg) Unit) s = (.error e'', s)) ∨
        (do ensure b e; ensure b' e' : Dispatch _ (State cfg) Unit) s = (.ok (), s) := by
    rintro (_ | _) (_ | _) e e'
    · exact Or.inl ⟨e, rfl⟩
    · exact Or.inl ⟨e, rfl⟩
    · exact Or.inl ⟨e', rfl⟩
    · exact Or.inr rfl
  cases payloadType with
  | lock | burnAsset | lockNft => exact hlimits _ _ _ _
  | planNewEra | eraPayout => exact Or.inr rfl

theorem appendMessage_cases (payloadType : PayloadType) (payload : List UInt8) (s : State cfg) :
    (∃ e, appendMessage payloadType payload s = (.error e, s)) ∨
      ∃ m : Message cfg, ∃ queue, m.fields = (s.nonce + 1, payloadType, payload) ∧
        s.nonce + 1 < 2 ^ 64 ∧ queue.val = s.messageQueue.val ++ [m] ∧
        appendMessage payloadType payload s = (.ok m.nonce, s.accept m queue) := by
  unfold appendMessage
  cases hnonce : checkedAdd 64 s.nonce 1 with
  | none => exact Or.inl ⟨_, by simp [bind_apply, okOr, hnonce]; rfl⟩
  | some nonce =>
    obtain ⟨hlt, rfl⟩ := checkedAdd_eq_some.mp hnonce
    cases hpayload : BoundedVec.ofList cfg.maxMessagePayloadSize payload with
    | none => exact Or.inl ⟨_, by simp [bind_apply, okOr, hnonce]; rfl⟩
    | some bytes =>
      cases hqueue : s.messageQueue.tryPush ⟨s.nonce + 1, payloadType, bytes⟩ with
      | none => exact Or.inl ⟨_, by simp [bind_apply, okOr, hnonce, hqueue]; rfl⟩
      | some queue =>
        refine Or.inr ⟨⟨s.nonce + 1, payloadType, bytes⟩, queue, ?_, hlt,
          BoundedVec.tryPush_eq_some.mp hqueue, ?_⟩
        · rw [Message.fields, BoundedVec.ofList_eq_some.mp hpayload]
        · simp [bind_apply, okOr, hnonce, hqueue, depositEvent, State.accept]

/-- **A submission is refused and changes nothing, or its message is queued under the next nonce.** -/
theorem submit_cases (who : Option AccountId) (payloadType : PayloadType) (payload : List UInt8)
    (s : State cfg) :
    (∃ e, submit who payloadType payload s = (.error e, s)) ∨
      ∃ m : Message cfg, ∃ queue, m.fields = (s.nonce + 1, payloadType, payload) ∧
        s.nonce + 1 < 2 ^ 64 ∧ queue.val = s.messageQueue.val ++ [m] ∧
        submit who payloadType payload s = (.ok m.nonce, s.accept m queue) := by
  unfold submit
  rw [bind_apply]
  rcases ensureWithinLimits_cases payloadType payload s with ⟨e, he⟩ | hok
  · exact Or.inl ⟨e, by rw [he]⟩
  · rw [hok]
    exact appendMessage_cases payloadType payload s

end OctopusPallets.UpwardMessages
