import Mathlib.Order.Bounds.Defs
import OctopusPallets.UpwardMessages.Commitments

/-!
# Commitments at their blocks

In a block the hook comes first, and the submissions follow. An accepted message waits in the queue
for the next block whose number is a multiple of the interval. The hook divides by the interval, and
the interval of a genesis that does not set it is 0.

* `BlockRun` — the states of a run, before each hook and after it
* `committed_in_time_iff` — the interval is not 0, or the run has no block
-/

namespace OctopusPallets.UpwardMessages

open Infra Infra.Dispatch

variable {cfg : Config} {AccountId : Type}

/-! ## Blocks -/

/-- The submissions of a block, in their order. -/
abbrev Submissions (AccountId : Type) : Type :=
  List (Option AccountId × PayloadType × List UInt8)

def Submissions.inputs (block : Submissions AccountId) : List (Input AccountId) :=
  block.map fun x => .submit x.1 x.2.1 x.2.2

/-- The state after the submissions of a block. -/
def State.submitted (s : State cfg) (hash : List UInt8 → List UInt8)
    (block : Submissions AccountId) : State cfg :=
  (machine cfg AccountId hash).run block.inputs s

/-- The messages that a block accepts: the nonces, with what was submitted. -/
def State.accepts (s : State cfg) (hash : List UInt8 → List UInt8)
    (block : Submissions AccountId) : List (Nat × PayloadType × List UInt8) :=
  (machine cfg AccountId hash).log block.inputs s

/-- Consecutive blocks, the first with the number `first`: the state `before` and `after` the hook
of each. -/
structure BlockRun (hash : List UInt8 → List UInt8) (first : Nat)
    (blocks : List (Submissions AccountId)) (s : State cfg) (before after : Nat → State cfg) :
    Prop where
  start : before 0 = s
  hook : ∀ i < blocks.length, onInitialize hash (first + i) (before i) = some (after i)
  submissions : ∀ i, ∀ block ∈ blocks[i]?, before (i + 1) = (after i).submitted hash block

/-- No hook aborts. Each message that block `i` accepts is in the batch that the first later
multiple of the interval commits, after which the queue holds later messages only. The hooks of
other blocks leave the queue and the digest as they are. -/
def CommittedInTime (hash : List UInt8 → List UInt8) (first : Nat)
    (blocks : List (Submissions AccountId)) (s : State cfg) : Prop :=
  ∃ before after : Nat → State cfg, BlockRun hash first blocks s before after ∧
    (∀ i j, ∀ block ∈ blocks[i]?, j < blocks.length →
      IsLeast {n | first + i < n ∧ n % s.interval = 0} (first + j) →
        j ≤ i + s.interval ∧
        (∀ m ∈ (after i).accepts hash block, ∃ batch,
          (after j).committedBatches = (before j).committedBatches ++ [batch] ∧
          (after j).digest = (before j).digest ++ [hash ((batchCodec cfg).encode batch)] ∧
            m ∈ batch.map Message.fields) ∧
        (after j).messageQueue.val = [] ∧
        ∀ k, j ≤ k → k < blocks.length → ∀ m ∈ (before (k + 1)).messageQueue.val,
          ∃ l, j ≤ l ∧ l ≤ k ∧ ∃ later ∈ blocks[l]?,
            m.fields ∈ (after l).accepts hash later) ∧
    ∀ i < blocks.length, (first + i) % s.interval ≠ 0 →
      (after i).messageQueue = (before i).messageQueue ∧ (after i).digest = (before i).digest

/-! ## What a block does -/

/-- The submissions put what is accepted at the end of the queue. -/
theorem submitted_spec (hash : List UInt8 → List UInt8) : ∀ (block : Submissions AccountId)
    (s : State cfg), (s.submitted hash block).interval = s.interval ∧
      (s.submitted hash block).messageQueue.val.map Message.fields
        = s.messageQueue.val.map Message.fields ++ s.accepts hash block := by
  intro block
  induction block with
  | nil => exact fun s => ⟨rfl, (List.append_nil _).symm⟩
  | cons x block ih =>
    intro s
    have hstate : s.submitted hash (x :: block)
        = (submit x.1 x.2.1 x.2.2 s).2.submitted hash block := rfl
    have haccepts : s.accepts hash (x :: block)
        = ((machine cfg AccountId hash).step (.submit x.1 x.2.1 x.2.2) s).2 ++
          (submit x.1 x.2.1 x.2.2 s).2.accepts hash block := rfl
    obtain ⟨hinterval, hqueue⟩ := ih (submit x.1 x.2.1 x.2.2 s).2
    rw [hstate, haccepts, hinterval, hqueue]
    rcases submit_cases x.1 x.2.1 x.2.2 s with ⟨e, he⟩ | ⟨m, queue, hm, -, hpushed, hok⟩
    · simp [machine, he]
    · have hfields : m.fields = (m.nonce, x.2.1, x.2.2) := by
        have hnonce := congrArg Prod.fst hm
        rw [hm, show m.nonce = s.nonce + 1 from hnonce]
      simp [machine, hok, State.accept, hpushed, hfields]

/-- The hook, when the interval is not 0. -/
theorem onInitialize_of_interval (hash : List UInt8 → List UInt8) (now : Nat) {s : State cfg}
    (h : s.interval ≠ 0) :
    onInitialize hash now s = some (if now % s.interval = 0 then commit hash s else s) := by
  unfold onInitialize
  rw [if_neg h]
  split <;> rfl

theorem commit_interval (hash : List UInt8 → List UInt8) (s : State cfg) :
    (commit hash s).interval = s.interval := by
  unfold commit
  dsimp only
  split <;> rfl

/-- After a commitment the queue is empty. -/
theorem commit_queue (hash : List UInt8 → List UInt8) (s : State cfg) :
    (commit hash s).messageQueue.val = [] := by
  rcases commit_cases hash s with ⟨hempty, heq⟩ | ⟨-, -, hqueue, -⟩
  · rw [heq, hempty]
  · exact hqueue

/-! ## What a run does -/

namespace BlockRun

variable {hash : List UInt8 → List UInt8} {first : Nat} {blocks : List (Submissions AccountId)}
  {s : State cfg} {before after : Nat → State cfg}

theorem block_of_lt {i : Nat} (h : i < blocks.length) : ∃ block, block ∈ blocks[i]? :=
  ⟨blocks[i], List.getElem?_eq_getElem h⟩

theorem interval_eq (h : BlockRun hash first blocks s before after) (hs : s.interval ≠ 0) :
    ∀ {i : Nat}, i ≤ blocks.length → (before i).interval = s.interval := by
  intro i
  induction i with
  | zero => exact fun _ => congrArg State.interval h.start
  | succ i ih =>
    intro hi
    have hbefore : (before i).interval = s.interval := ih (Nat.le_of_succ_le hi)
    have hhook := h.hook i hi
    rw [onInitialize_of_interval hash _ (by rwa [hbefore])] at hhook
    obtain ⟨block, hblock⟩ := block_of_lt hi
    rw [h.submissions i block hblock, (submitted_spec hash block (after i)).1,
      ← Option.some.inj hhook]
    split
    · rw [commit_interval, hbefore]
    · exact hbefore

/-- Every hook runs to its end, and commits at the multiples of the interval only. -/
theorem after_eq (h : BlockRun hash first blocks s before after) (hs : s.interval ≠ 0) {i : Nat}
    (hi : i < blocks.length) :
    after i = if (first + i) % s.interval = 0 then commit hash (before i) else before i := by
  have hbefore := h.interval_eq hs (Nat.le_of_lt hi)
  have hhook := h.hook i hi
  rw [onInitialize_of_interval hash _ (by rwa [hbefore]), hbefore] at hhook
  exact (Option.some.inj hhook).symm

/-- What is in the queue after a block was there after its hook, or is accepted in it. -/
theorem queue_succ (h : BlockRun hash first blocks s before after) {i : Nat}
    {block : Submissions AccountId} (hblock : block ∈ blocks[i]?) :
    (before (i + 1)).messageQueue.val.map Message.fields
      = (after i).messageQueue.val.map Message.fields ++ (after i).accepts hash block := by
  rw [h.submissions i block hblock]
  exact (submitted_spec hash block (after i)).2

/-- **An accepted message waits in the queue while no number is a multiple of the interval.** -/
theorem waits (h : BlockRun hash first blocks s before after) (hs : s.interval ≠ 0) {i : Nat}
    {block : Submissions AccountId} (hblock : block ∈ blocks[i]?)
    {m : Nat × PayloadType × List UInt8} (hm : m ∈ (after i).accepts hash block) {j : Nat}
    (hij : i + 1 ≤ j) (hbetween : ∀ k, i < k → k < j → (first + k) % s.interval ≠ 0)
    (hj : j ≤ blocks.length) : m ∈ (before j).messageQueue.val.map Message.fields := by
  induction j, hij using Nat.le_induction with
  | base =>
    rw [h.queue_succ hblock]
    exact List.mem_append_right _ hm
  | succ j hij ih =>
    have hwaiting := ih (fun k hk hkj => hbetween k hk (Nat.lt_succ_of_lt hkj))
      (Nat.le_of_succ_le hj)
    obtain ⟨later, hlater⟩ := block_of_lt hj
    rw [h.queue_succ hlater, h.after_eq hs hj, if_neg (hbetween j hij (Nat.lt_succ_self j))]
    exact List.mem_append_left _ hwaiting

/-- What is in the queue after an empty queue was accepted in between. -/
theorem accepted_since (h : BlockRun hash first blocks s before after) (hs : s.interval ≠ 0)
    {j : Nat} (hempty : (after j).messageQueue.val = []) {k : Nat} (hjk : j ≤ k)
    (hk : k < blocks.length) : ∀ m ∈ (before (k + 1)).messageQueue.val,
      ∃ l, j ≤ l ∧ l ≤ k ∧ ∃ later ∈ blocks[l]?, m.fields ∈ (after l).accepts hash later := by
  induction k, hjk using Nat.le_induction with
  | base =>
    intro m hm
    obtain ⟨later, hlater⟩ := block_of_lt hk
    have hfields := List.mem_map_of_mem (f := Message.fields) hm
    rw [h.queue_succ hlater, hempty] at hfields
    exact ⟨j, Nat.le_refl j, Nat.le_refl j, later, hlater, hfields⟩
  | succ k hjk ih =>
    intro m hm
    obtain ⟨later, hlater⟩ := block_of_lt hk
    have hfields := List.mem_map_of_mem (f := Message.fields) hm
    rw [h.queue_succ hlater, List.mem_append] at hfields
    rcases hfields with hold | hnew
    · rw [h.after_eq hs hk] at hold
      split at hold
      · rw [commit_queue] at hold
        cases hold
      · obtain ⟨m', hm', heq⟩ := List.mem_map.mp hold
        obtain ⟨l, hjl, hlk, hrest⟩ := ih (Nat.lt_of_succ_lt hk) m' hm'
        rw [heq] at hrest
        exact ⟨l, hjl, Nat.le_succ_of_le hlk, hrest⟩
    · exact ⟨k + 1, Nat.le_succ_of_le hjk, Nat.le_refl _, later, hlater, hnew⟩

end BlockRun

/-! ## Runs exist, and commit in time -/

/-- The state after a hook that does not abort. -/
def State.initialized (s : State cfg) (hash : List UInt8 → List UInt8) (now : Nat) : State cfg :=
  (onInitialize hash now s).getD s

/-- The state before each hook of a run whose hooks do not abort. -/
def stateBefore (hash : List UInt8 → List UInt8) (first : Nat)
    (blocks : List (Submissions AccountId)) (s : State cfg) : Nat → State cfg
  | 0 => s
  | i + 1 => ((stateBefore hash first blocks s i).initialized hash (first + i)).submitted hash
      (blocks[i]?.getD [])

theorem initialized_eq (hash : List UInt8 → List UInt8) (now : Nat) {s : State cfg}
    (h : s.interval ≠ 0) : onInitialize hash now s = some (s.initialized hash now) := by
  unfold State.initialized
  rw [onInitialize_of_interval hash now h]
  rfl

theorem stateBefore_interval (hash : List UInt8 → List UInt8) (first : Nat)
    (blocks : List (Submissions AccountId)) {s : State cfg} (h : s.interval ≠ 0) :
    ∀ i, (stateBefore hash first blocks s i).interval = s.interval := by
  intro i
  induction i with
  | zero => rfl
  | succ i ih =>
    rw [stateBefore, (submitted_spec hash _ _).1, State.initialized,
      onInitialize_of_interval hash _ (by rwa [ih])]
    show (if _ then _ else _ : State cfg).interval = _
    split
    · rw [commit_interval, ih]
    · exact ih

/-- With an interval other than 0 no hook aborts. -/
theorem exists_blockRun (hash : List UInt8 → List UInt8) (first : Nat)
    (blocks : List (Submissions AccountId)) {s : State cfg} (h : s.interval ≠ 0) :
    ∃ before after, BlockRun hash first blocks s before after := by
  refine ⟨stateBefore hash first blocks s,
    fun i => (stateBefore hash first blocks s i).initialized hash (first + i), rfl, ?_, ?_⟩
  · intro i _
    exact initialized_eq hash _ (by rwa [stateBefore_interval hash first blocks h])
  · intro i block hblock
    rw [stateBefore, show blocks[i]? = some block from hblock]
    rfl

/-- The hook divides by an interval of 0. -/
theorem BlockRun.interval_ne_zero {hash : List UInt8 → List UInt8} {first : Nat}
    {blocks : List (Submissions AccountId)} {s : State cfg} {before after : Nat → State cfg}
    (h : BlockRun hash first blocks s before after) (hblocks : blocks ≠ []) : s.interval ≠ 0 := by
  intro hzero
  have hhook := h.hook 0 (List.length_pos_of_ne_nil hblocks)
  rw [h.start, onInitialize, if_pos hzero] at hhook
  cases hhook

/-- The next multiple is not farther away than one interval. -/
theorem next_multiple_le {b c d : Nat} (hd : d ≠ 0) (h : IsLeast {n | b < n ∧ n % d = 0} c) :
    c ≤ b + d := by
  have hlater : b < d * (b / d + 1) := Nat.lt_mul_div_succ b (Nat.pos_of_ne_zero hd)
  have hnext : c ≤ d * (b / d + 1) := h.2 ⟨hlater, Nat.mul_mod_right d _⟩
  have hdiv : d * (b / d) ≤ b := Nat.mul_div_le b d
  rw [Nat.mul_add, Nat.mul_one] at hnext
  exact Nat.le_trans hnext (Nat.add_le_add_right hdiv d)

theorem BlockRun.committedInTime {hash : List UInt8 → List UInt8} {first : Nat}
    {blocks : List (Submissions AccountId)} {s : State cfg} {before after : Nat → State cfg}
    (h : BlockRun hash first blocks s before after) (hs : s.interval ≠ 0) :
    CommittedInTime hash first blocks s := by
  refine ⟨before, after, h, ?_, ?_⟩
  · intro i j block hblock hj hnext
    obtain ⟨⟨hlater, hmultiple⟩, hleast⟩ := hnext
    have hij : i + 1 ≤ j := by omega
    have hafter : after j = commit hash (before j) := by rw [h.after_eq hs hj, if_pos hmultiple]
    have hempty : (after j).messageQueue.val = [] := by rw [hafter, commit_queue]
    refine ⟨?_, fun m hm => ?_, hempty, fun k hjk hk => h.accepted_since hs hempty hjk hk⟩
    · have hnear := next_multiple_le hs ⟨⟨hlater, hmultiple⟩, hleast⟩
      omega
    · -- no block in between has a number that is a multiple: it would be the next one
      have hwaiting := h.waits hs hblock hm hij (fun k hk hkj hmod => by
        have := hleast (⟨by omega, hmod⟩ : first + k ∈ {n | first + i < n ∧ n % s.interval = 0})
        omega) (Nat.le_of_lt hj)
      rcases commit_cases hash (before j) with ⟨hnone, -⟩ | ⟨-, hbatch, -, -, hdigest, -⟩
      · rw [hnone] at hwaiting
        cases hwaiting
      · rw [hafter]
        exact ⟨(before j).messageQueue.val, hbatch, hdigest, hwaiting⟩
  · intro i hi hmod
    rw [h.after_eq hs hi, if_neg hmod]
    exact ⟨rfl, rfl⟩

/--
**Every accepted message is committed within one interval**, unless the interval is 0: then the
first hook aborts.
-/
theorem committed_in_time_iff (hash : List UInt8 → List UInt8) (first : Nat)
    (blocks : List (Submissions AccountId)) (s : State cfg) :
    CommittedInTime hash first blocks s ↔ blocks = [] ∨ s.interval ≠ 0 := by
  constructor
  · rintro ⟨before, after, hrun, -⟩
    rcases Classical.em (blocks = []) with hnone | hblocks
    · exact Or.inl hnone
    · exact Or.inr (hrun.interval_ne_zero hblocks)
  · rintro (rfl | hs)
    · exact ⟨fun _ => s, fun _ => s, ⟨rfl, by simp, by simp⟩, by simp, by simp⟩
    · obtain ⟨before, after, hrun⟩ := exists_blockRun hash first blocks hs
      exact hrun.committedInTime hs

/-- The interval of a genesis configuration that does not set it. -/
def defaultInterval : Nat := 0

/-- The first block of a chain with the default genesis. -/
theorem default_interval_aborts :
    ¬ CommittedInTime id 1 ([[]] : List (Submissions Nat))
      (genesisBuild Sample.config defaultInterval) :=
  fun ⟨_, _, hrun, _⟩ => hrun.interval_ne_zero (by simp) rfl

end OctopusPallets.UpwardMessages
