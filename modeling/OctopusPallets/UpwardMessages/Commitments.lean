import Mathlib.Data.List.Nodup
import OctopusPallets.Infra.Machine
import OctopusPallets.UpwardMessages.Pallet

/-!
# Messages are neither lost nor reordered

Over any run of submissions and commitments, the committed batches followed by the queue are the
messages that were accepted, in the order of acceptance and numbered from 1. Each batch stays
readable in the offchain index under the hash in the digest, as long as the hash function does not
collide on the batches of the run.
-/

namespace OctopusPallets.UpwardMessages

open Infra Infra.Dispatch Infra.FixedWidth Infra.Scale

variable {cfg : Config} {AccountId : Type}

/-! ## Runs -/

inductive Input (AccountId : Type) where
  | submit (who : Option AccountId) (payloadType : PayloadType) (payload : List UInt8)
  | commit

/-- The pallet as a machine. It emits the messages it accepts: the nonce that the submission
returned, with what was submitted. -/
def machine (cfg : Config) (AccountId : Type) (hash : List UInt8 → List UInt8) :
    Machine (State cfg) (Input AccountId) (Nat × PayloadType × List UInt8) where
  step
    | .submit who payloadType payload, s =>
      let r := submit who payloadType payload s
      (r.2, match r.1 with
        | .ok nonce => [(nonce, payloadType, payload)]
        | .error _ => [])
    | .commit, s => (commit hash s, [])

/-- A block either commits or leaves the state as it is. -/
theorem onInitialize_cases (hash : List UInt8 → List UInt8) (now : Nat) {s s' : State cfg}
    (h : onInitialize hash now s = some s') :
    s' = ((machine cfg AccountId hash).step .commit s).1 ∨ s' = s := by
  unfold onInitialize at h
  split at h
  · cases h
  split at h
  · exact Or.inl (Option.some.inj h).symm
  · exact Or.inr (Option.some.inj h).symm

/-! ## Batches -/

def Event.batch? : Event cfg → Option (List (Message cfg))
  | .committed _ data => some data
  | .messageAccepted _ => none

/-- The batches committed so far, as the events report them. -/
def State.committedBatches (s : State cfg) : List (List (Message cfg)) :=
  s.events.filterMap Event.batch?

theorem committedBatches_accept (s : State cfg) (m : Message cfg) (queue) :
    (s.accept m queue).committedBatches = s.committedBatches := by
  show (s.events ++ [Event.messageAccepted m.nonce]).filterMap Event.batch? = _
  rw [List.filterMap_append]
  exact List.append_nil _

/-- A commitment does nothing but empty the queue into one batch, unless the queue is empty. -/
theorem commit_cases (hash : List UInt8 → List UInt8) (s : State cfg) :
    (s.messageQueue.val = [] ∧ commit hash s = s) ∨
      s.messageQueue.val ≠ [] ∧
        (commit hash s).committedBatches = s.committedBatches ++ [s.messageQueue.val] ∧
        (commit hash s).messageQueue.val = [] ∧ (commit hash s).nonce = s.nonce ∧
        (commit hash s).digest
          = s.digest ++ [hash ((batchCodec cfg).encode s.messageQueue.val)] ∧
        (commit hash s).offchainIndex
          = Function.update s.offchainIndex (hash ((batchCodec cfg).encode s.messageQueue.val))
              (some ((batchCodec cfg).encode s.messageQueue.val)) := by
  unfold commit
  by_cases hempty : s.messageQueue.val = []
  · refine Or.inl ⟨hempty, ?_⟩
    have hqueue : s.messageQueue = BoundedVec.empty := BoundedVec.ext hempty
    simp only [hempty, List.isEmpty_nil, if_true]
    rw [← hqueue]
  · refine Or.inr ⟨hempty, ?_⟩
    have hne : s.messageQueue.val.isEmpty = false := by
      rw [List.isEmpty_eq_false_iff]
      exact hempty
    simp only [hne]
    exact ⟨List.filterMap_append, rfl, rfl, rfl, rfl⟩

/-! ## The invariant -/

/-- What the offchain index holds after the batches were written one by one. -/
def indexOf (hash : List UInt8 → List UInt8) (batches : List (List (Message cfg))) :
    List UInt8 → Option (List UInt8) :=
  batches.foldl (fun index batch => Function.update index (hash ((batchCodec cfg).encode batch))
    (some ((batchCodec cfg).encode batch))) fun _ => none

/-- The batches and the queue are the accepted messages, and the digest and the offchain index are
those of the batches. -/
structure InSequence (hash : List UInt8 → List UInt8) (s : State cfg)
    (accepted : List (Nat × PayloadType × List UInt8)) : Prop where
  messages : (s.committedBatches.flatten ++ s.messageQueue.val).map Message.fields = accepted
  nonces : accepted.map Prod.fst = List.range' 1 s.nonce
  nonce_lt : s.nonce < 2 ^ 64
  ne_nil : ∀ batch ∈ s.committedBatches, batch ≠ []
  length_le : ∀ batch ∈ s.committedBatches, batch.length ≤ cfg.maxMessagesPerCommit
  digest : s.digest = s.committedBatches.map fun batch => hash ((batchCodec cfg).encode batch)
  offchainIndex : s.offchainIndex = indexOf hash s.committedBatches

variable {hash : List UInt8 → List UInt8} {s : State cfg}
  {accepted : List (Nat × PayloadType × List UInt8)}

theorem inSequence_genesis (hash : List UInt8 → List UInt8) (interval : Nat) :
    InSequence hash (genesisBuild cfg interval) [] where
  messages := rfl
  nonces := rfl
  nonce_lt := show 0 < 2 ^ 64 by decide
  ne_nil _ h := by cases h
  length_le _ h := by cases h
  digest := rfl
  offchainIndex := rfl

theorem inSequence_submit (h : InSequence hash s accepted) {m : Message cfg}
    {queue : BoundedVec (Message cfg) cfg.maxMessagesPerCommit}
    {fields : Nat × PayloadType × List UInt8} (hm : m.fields = fields)
    (hnonce : fields.1 = s.nonce + 1) (hlt : s.nonce + 1 < 2 ^ 64)
    (hqueue : queue.val = s.messageQueue.val ++ [m]) :
    InSequence hash (s.accept m queue) (accepted ++ [fields]) := by
  have hbatches := committedBatches_accept s m queue
  have hnext : (s.accept m queue).nonce = s.nonce + 1 := by rw [← hnonce, ← hm]; rfl
  obtain ⟨hmessages, hnonces, -, hne, hlen, hdigest, hindex⟩ := h
  refine ⟨?_, ?_, by rwa [hnext], by rwa [hbatches], by rwa [hbatches], by rwa [hbatches],
    by rwa [hbatches]⟩
  · rw [hbatches]
    show (s.committedBatches.flatten ++ queue.val).map Message.fields = _
    rw [hqueue, ← List.append_assoc, List.map_append, hmessages, List.map_singleton, hm]
  · rw [List.map_append, hnonces, hnext, List.range'_1_concat, List.map_singleton, hnonce,
      Nat.add_comm 1]

theorem inSequence_commit (h : InSequence hash s accepted) :
    InSequence hash (commit hash s) accepted := by
  rcases commit_cases hash s with ⟨-, heq⟩ | ⟨hne, hbatches, hqueue, hnonce, hdigest, hindex⟩
  · rwa [heq]
  · refine ⟨?_, by rw [hnonce]; exact h.nonces, by rw [hnonce]; exact h.nonce_lt, ?_, ?_, ?_, ?_⟩
    · rw [hbatches, hqueue, List.flatten_append, List.flatten_singleton, List.append_nil]
      exact h.messages
    · intro batch hb
      rw [hbatches, List.mem_append, List.mem_singleton] at hb
      rcases hb with hb | rfl
      · exact h.ne_nil batch hb
      · exact hne
    · intro batch hb
      rw [hbatches, List.mem_append, List.mem_singleton] at hb
      rcases hb with hb | rfl
      · exact h.length_le batch hb
      · exact s.messageQueue.length_le
    · rw [hdigest, hbatches, h.digest, List.map_append, List.map_singleton]
    · rw [hindex, hbatches, h.offchainIndex, indexOf, indexOf, List.foldl_append]
      rfl

/-- The run lemma. -/
theorem inSequence_run (hash : List UInt8 → List UInt8) (interval : Nat)
    (is : List (Input AccountId)) :
    InSequence hash ((machine cfg AccountId hash).run is (genesisBuild cfg interval))
      ((machine cfg AccountId hash).log is (genesisBuild cfg interval)) := by
  refine (machine cfg AccountId hash).invariant (P := fun _ _ => True)
    (I := fun _ s accepted => InSequence hash s accepted) (inSequence_genesis hash interval) ?_ is
    ((machine cfg AccountId hash).along_trivial is _)
  intro _ s accepted i h _
  cases i with
  | commit =>
    show InSequence hash (commit hash s) (accepted ++ [])
    rw [List.append_nil]
    exact inSequence_commit h
  | submit who payloadType payload =>
    rcases submit_cases who payloadType payload s with
      ⟨e, he⟩ | ⟨m, queue, hm, hlt, hqueue, hok⟩
    · simp only [machine, he, List.append_nil]
      exact h
    · have hnonce : m.nonce = s.nonce + 1 := congrArg Prod.fst hm
      simp only [machine, hok]
      exact inSequence_submit h (by rw [hm, hnonce]) hnonce hlt hqueue

/-! ## Reading the batches back -/

/-- The hash function does not collide on the encodings of these batches. -/
def CollisionFree (hash : List UInt8 → List UInt8) (batches : List (List (Message cfg))) : Prop :=
  ∀ b ∈ batches, ∀ b' ∈ batches, hash ((batchCodec cfg).encode b) = hash ((batchCodec cfg).encode b') →
    (batchCodec cfg).encode b = (batchCodec cfg).encode b'

/-- Without collisions, every batch is found under its hash. -/
theorem indexOf_of_mem : ∀ {batches : List (List (Message cfg))}, CollisionFree hash batches →
    ∀ b ∈ batches, indexOf hash batches (hash ((batchCodec cfg).encode b))
      = some ((batchCodec cfg).encode b) := by
  intro batches
  induction batches using List.reverseRecOn with
  | nil => exact fun _ b hb => by cases hb
  | append_singleton batches last ih =>
    intro hfree b hb
    rw [indexOf, List.foldl_append]
    show Function.update (indexOf hash batches) _ _ _ = _
    -- under the hash of the last batch the index holds the last batch, which then is `b`
    by_cases heq : hash ((batchCodec cfg).encode b) = hash ((batchCodec cfg).encode last)
    · rw [heq, Function.update_self, hfree b hb last (by simp) heq]
    · rw [Function.update_of_ne heq]
      refine ih (fun c hc c' hc' => hfree c (by simp [hc]) c' (by simp [hc'])) b ?_
      rcases List.mem_append.mp hb with hb | hb
      · exact hb
      · exact absurd (by rw [List.mem_singleton.mp hb]) heq

theorem InSequence.batch_valid (h : InSequence hash s accepted) {batch : List (Message cfg)}
    (hb : batch ∈ s.committedBatches) : (batchCodec cfg).valid batch = true := by
  have hlen : batch.length < 2 ^ 32 := Nat.lt_of_le_of_lt (h.length_le batch hb) cfg.messages_lt
  refine Codec.vec_valid.mpr ⟨decide_eq_true hlen, ?_⟩
  intro m hm
  -- the nonce of `m` is one of those counted so far
  have hmem : m.nonce ∈ accepted.map Prod.fst := by
    rw [← h.messages, List.map_map, List.mem_map]
    exact ⟨m, List.mem_append_left _ (List.mem_flatten.mpr ⟨batch, hb, hm⟩), rfl⟩
  rw [h.nonces, List.mem_range'_1] at hmem
  have hlt := h.nonce_lt
  exact messageCodec_valid (by omega)

/-- No two batches are equal: they hold different nonces. -/
theorem InSequence.batches_nodup (h : InSequence hash s accepted) :
    s.committedBatches.Nodup := by
  have hnonces : (s.committedBatches.flatten ++ s.messageQueue.val).Nodup := by
    refine List.Nodup.of_map (fun m => (Message.fields m).1) ?_
    have hmap := congrArg (List.map Prod.fst) h.messages
    rw [List.map_map, h.nonces] at hmap
    show (List.map (Prod.fst ∘ Message.fields) _).Nodup
    rw [hmap]
    exact List.nodup_range'
  have hdisjoint := (List.nodup_flatten.mp (List.nodup_append.mp hnonces).1).2
  refine hdisjoint.imp_of_mem ?_
  rintro b b' hb - hdisj rfl
  obtain ⟨m, hm⟩ := List.exists_mem_of_ne_nil b (h.ne_nil b hb)
  exact hdisj hm hm

/-- Without collisions no commitment uses the key of an earlier one. -/
theorem InSequence.digest_nodup (h : InSequence hash s accepted)
    (hfree : CollisionFree hash s.committedBatches) : s.digest.Nodup := by
  rw [h.digest]
  refine List.Nodup.map_on ?_ h.batches_nodup
  intro b hb b' hb' heq
  exact (batchCodec cfg).encode_injOn (h.batch_valid hb) (h.batch_valid hb')
    (hfree b hb b' hb' heq)

/--
**Upward messages are never lost, duplicated or reordered.**

After any run from genesis the committed batches followed by the queue are the accepted messages,
numbered `1, 2, …` up to `Nonce`; a submission that fails changes nothing; and if the hash does not
collide on the batches of the run, the digest holds a different hash for each of them, under which
the offchain index still holds the batch.
-/
theorem messages_in_sequence (hash : List UInt8 → List UInt8) (interval : Nat)
    (is : List (Input AccountId)) :
    let s := (machine cfg AccountId hash).run is (genesisBuild cfg interval)
    let accepted := (machine cfg AccountId hash).log is (genesisBuild cfg interval)
    (s.committedBatches.flatten ++ s.messageQueue.val).map Message.fields = accepted ∧
      accepted.map Prod.fst = List.range' 1 s.nonce ∧
      (∀ (who : Option AccountId) payloadType payload e,
        (submit who payloadType payload s).1 = .error e →
          (submit who payloadType payload s).2 = s) ∧
      (CollisionFree hash s.committedBatches →
        s.digest = s.committedBatches.map (fun b => hash ((batchCodec cfg).encode b)) ∧
          s.digest.Nodup ∧
          ∀ b ∈ s.committedBatches, ∃ bytes,
            s.offchainIndex (hash ((batchCodec cfg).encode b)) = some bytes ∧
              (batchCodec cfg).decode bytes = some (b, [])) := by
  intro s accepted
  have h : InSequence hash s accepted := inSequence_run hash interval is
  refine ⟨h.messages, h.nonces, ?_, ?_⟩
  · intro who payloadType payload e he
    rcases submit_cases who payloadType payload s with ⟨e', he'⟩ | ⟨m, queue, -, -, -, hok⟩
    · rw [he']
    · rw [hok] at he
      cases he
  · intro hfree
    refine ⟨h.digest, h.digest_nodup hfree, ?_⟩
    intro b hb
    have hread := (batchCodec cfg).decode_encode b (h.batch_valid hb) []
    rw [List.append_nil] at hread
    refine ⟨_, ?_, hread⟩
    rw [h.offchainIndex]
    exact indexOf_of_mem hfree b hb

namespace Sample

def config : Config := ⟨100, 2, by decide, by decide⟩

/-- Two batches; the third submission of the first block finds the queue full. -/
def twoBatches : List (Input Nat) :=
  [.submit (some 0) .lock [1], .submit none .planNewEra [2], .submit (some 0) .lockNft [3],
    .commit, .submit (some 1) .burnAsset [], .commit]

end Sample

/-- With a hash that keeps its input, the two batches are read back. -/
theorem two_batches_in_sequence :
    (((machine Sample.config Nat id).run Sample.twoBatches
        (genesisBuild Sample.config 1)).committedBatches.map
          fun b => b.map Message.nonce) = [[1, 2], [3]] ∧
      ∀ b ∈ ((machine Sample.config Nat id).run Sample.twoBatches
          (genesisBuild Sample.config 1)).committedBatches, ∃ bytes,
        ((machine Sample.config Nat id).run Sample.twoBatches
          (genesisBuild Sample.config 1)).offchainIndex ((batchCodec Sample.config).encode b)
            = some bytes ∧ (batchCodec Sample.config).decode bytes = some (b, []) :=
  ⟨by decide, ((messages_in_sequence id 1 Sample.twoBatches).2.2.2
    (fun _ _ _ _ h => h)).2.2⟩

end OctopusPallets.UpwardMessages
