import OctopusPallets.Infra.CompareAndSet
import OctopusPallets.Infra.Codec
import OctopusPallets.Infra.FixedWidth

/-!
# The grace period between sends

`should_send`, by which the runs of the offchain worker on a node share the number of the block of
the last send. The runs may be concurrent, and their block numbers are in no order.

* `lastSend_remembered` — the stored number is not below that of any run that sends
* `sends_grace_period_apart` — under every schedule
-/

namespace OctopusPallets.Appchain

open Infra Infra.FixedWidth

/-- `StorageRetrievalError`. -/
inductive StorageRetrievalError where
  | undecodable
deriving DecidableEq

/-- The value that `mutate` hands to its closure. What follows the number is not looked at. -/
def decodeLastSend (bytes : Nat) (stored : Option (List UInt8)) :
    Except StorageRetrievalError (Option Nat) :=
  match stored with
  | none => .ok none
  | some raw =>
    match (Codec.le bytes).decode raw with
    | some (block, _) => .ok (some block)
    | none => .error .undecodable

/-- The closure of `should_send`: the block number to store, unless the last send is recent. The sum
is one of block numbers, which are `bytes` wide. -/
def nextSend (bytes gracePeriod blockNumber : Nat)
    (lastSend : Except StorageRetrievalError (Option Nat)) : Option Nat :=
  match lastSend with
  | .ok (some block) =>
    if blockNumber < wrappingAdd (8 * bytes) block gracePeriod then none else some blockNumber
  | _ => some blockNumber

/-- What a run proposes to store after it read the stored bytes. -/
def proposeSend {ι : Type} (bytes gracePeriod : Nat) (block : ι → Nat) (i : ι)
    (stored : Option (List UInt8)) : Option (List UInt8) :=
  (nextSend bytes gracePeriod (block i) (decodeLastSend bytes stored)).map (Codec.le bytes).encode

/-- What `should_send` returns, once `mutate` is done. -/
def shouldSend : CompareAndSet.Outcome → Bool
  | .set => true
  -- the grace period
  | .declined => false
  -- another run stored its number in between
  | .concurrent => false

/-- What a run of `should_send` has returned so far. -/
def returned {ρ : Type} : CompareAndSet.Phase ρ → Option Bool
  | .done outcome => some (shouldSend outcome)
  | _ => none

theorem returned_eq_true {ρ : Type} {phase : CompareAndSet.Phase ρ} :
    returned phase = some true ↔ phase = .done .set := by
  unfold returned
  split
  · next outcome => cases outcome <;> simp [shouldSend]
  · next hphase => simp only [reduceCtorEq, false_iff]; exact hphase _

/-- The runs of the offchain worker on one node, each on the block `block i`. -/
def sendMachine {ι : Type} [DecidableEq ι] (bytes gracePeriod : Nat) (block : ι → Nat) :
    Machine (CompareAndSet.State ι (List UInt8)) ι ι :=
  CompareAndSet.machine (proposeSend bytes gracePeriod block)

variable {ι : Type} {bytes gracePeriod : Nat} {block : ι → Nat}

theorem decodeLastSend_encode {n : Nat} (h : n < 2 ^ (8 * bytes)) :
    decodeLastSend bytes (some ((Codec.le bytes).encode n)) = .ok (some n) := by
  have hwidth : (256 : Nat) ^ bytes = 2 ^ (8 * bytes) := by rw [Nat.pow_mul]
  have hread := (Codec.le bytes).decode_encode n (decide_eq_true (by rwa [hwidth])) []
  rw [List.append_nil] at hread
  rw [decodeLastSend, hread]

/-- The stored number is not below that of this run. -/
def LastSendAtLeast (bytes : Nat) (block : ι → Nat) (gracePeriod : Nat) (i : ι)
    (stored : Option (List UInt8)) : Prop :=
  ∃ n, decodeLastSend bytes stored = .ok (some n) ∧ block i ≤ n ∧
    n + gracePeriod < 2 ^ (8 * bytes)

/-- A run that sends stores its number. -/
theorem lastSendAtLeast_of_proposed (hfits : ∀ i, block i + gracePeriod < 2 ^ (8 * bytes)) (i : ι)
    (stored : Option (List UInt8)) (new : List UInt8)
    (h : proposeSend bytes gracePeriod block i stored = some new) :
    LastSendAtLeast bytes block gracePeriod i (some new) := by
  obtain ⟨n, hnext, rfl⟩ := Option.map_eq_some_iff.mp h
  obtain rfl : n = block i := by
    unfold nextSend at hnext
    split at hnext
    · split at hnext
      · cases hnext
      · exact (Option.some.inj hnext).symm
    · exact (Option.some.inj hnext).symm
  have hi := hfits i
  exact ⟨block i, decodeLastSend_encode (by omega), Nat.le_refl _, hi⟩

/-- **A number is only replaced by one that is a grace period later.** -/
theorem lastSend_remembered (hfits : ∀ i, block i + gracePeriod < 2 ^ (8 * bytes)) (i j : ι)
    (stored : Option (List UInt8)) (new : List UInt8)
    (hlast : LastSendAtLeast bytes block gracePeriod i stored)
    (h : proposeSend bytes gracePeriod block j stored = some new) :
    block i + gracePeriod ≤ block j ∧ LastSendAtLeast bytes block gracePeriod i (some new) := by
  obtain ⟨n, hdecoded, hin, hn⟩ := hlast
  obtain ⟨n', hread, hjn', hn'⟩ := lastSendAtLeast_of_proposed hfits j stored new h
  have hlater : n + gracePeriod ≤ block j := by
    unfold proposeSend at h
    rw [hdecoded, nextSend, wrappingAdd_of_lt hn] at h
    split at h
    · cases h
    · next hge => exact Nat.le_of_not_lt hge
  exact ⟨by omega, n', hread, by omega, hn'⟩

/--
**Sends are a grace period apart.** Whatever the schedule of the runs, their block numbers and the
stored bytes, the numbers of two runs that may send differ by the grace period at least.
-/
theorem sends_grace_period_apart [DecidableEq ι] (bytes gracePeriod : Nat) (block : ι → Nat)
    (hfits : ∀ i, block i + gracePeriod < 2 ^ (8 * bytes)) (stored : Option (List UInt8))
    (schedule : List ι) (i j : ι) (hij : i ≠ j)
    (hi : returned (((sendMachine bytes gracePeriod block).run schedule
      (CompareAndSet.start stored)).phase i) = some true)
    (hj : returned (((sendMachine bytes gracePeriod block).run schedule
      (CompareAndSet.start stored)).phase j) = some true) :
    block i + gracePeriod ≤ block j ∨ block j + gracePeriod ≤ block i := by
  have hsent : ∀ {k : ι}, returned (((sendMachine bytes gracePeriod block).run schedule
      (CompareAndSet.start stored)).phase k) = some true →
      k ∈ (sendMachine bytes gracePeriod block).log schedule (CompareAndSet.start stored) := by
    intro k hk
    rcases CompareAndSet.mem_log_of_done _ schedule _ (returned_eq_true.mp hk) with hready | hlog
    · cases hready
    · exact hlog
  have hinTurn := CompareAndSet.run_inTurn (proposeSend bytes gracePeriod block) schedule
    (CompareAndSet.start stored)
  have hlater := hinTurn.pairwise_of_remembered (lastSendAtLeast_of_proposed hfits)
    (lastSend_remembered hfits)
  -- either of the two may have been the first to send
  have heither : List.Pairwise (fun i j => block i + gracePeriod ≤ block j ∨
      block j + gracePeriod ≤ block i) _ := hlater.imp Or.inl
  have hsymm : Std.Symm fun i j => block i + gracePeriod ≤ block j ∨
      block j + gracePeriod ≤ block i := ⟨fun _ _ => Or.symm⟩
  exact heither.forall (hsent hi) (hsent hj) hij

namespace Sample

/-- The blocks of the runs 0, 1 and 2. -/
def sendBlock (run : Nat) : Nat := if run = 0 then 10 else if run = 1 then 11 else 16

/-- The first two runs read the same bytes. -/
def sends : CompareAndSet.State Nat (List UInt8) :=
  (sendMachine 4 5 sendBlock).run [0, 1, 0, 1, 2, 2] (CompareAndSet.start none)

end Sample

/-- One of the two runs that race sends, and the one on block 16. -/
theorem sends_six_apart :
    returned (Sample.sends.phase 0) = some true ∧ returned (Sample.sends.phase 1) = some false ∧
      (Sample.sendBlock 0 + 5 ≤ Sample.sendBlock 2 ∨
        Sample.sendBlock 2 + 5 ≤ Sample.sendBlock 0) := by
  have hfits : ∀ run, Sample.sendBlock run + 5 < 2 ^ (8 * 4) := by
    intro run
    unfold Sample.sendBlock
    split
    · decide
    · split <;> decide
  exact ⟨by decide, by decide,
    sends_grace_period_apart 4 5 Sample.sendBlock hfits none [0, 1, 0, 1, 2, 2] 0 2 (by decide)
      (by decide) (by decide)⟩

end OctopusPallets.Appchain
