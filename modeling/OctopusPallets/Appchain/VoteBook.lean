import OctopusPallets.Infra.Quorum
import OctopusPallets.Appchain.Sequencing

/-!
# The vote book

`Observations` and `Observing` together are a book: who voted for what. The two storage maps stay
consistent with each other (`State.WellFormed`), and a vote of the pallet is a `Book.cast`. With
the stakes of an electorate behind the call, the two-thirds test is its quorum.

* `wellFormed_step` — the two maps stay consistent
* `VoteStep.book` — what a step does to the book
* `voters_cast_run` — every entry of the book was cast by a vote
* `Backs.passes_iff` — the test is the quorum of the voters
-/

namespace OctopusPallets.Appchain

open Infra Infra.Dispatch Infra.FixedWidth

variable {cfg : Config} {AccountId Public β : Type} [DecidableEq AccountId]

/-! ## Consistency of the two maps -/

/-- The vote book is consistent: each list of `Observations` holds observations of its own type
and index, no list repeats an entry, and the registered observations are those with a voter. -/
structure State.WellFormed (s : State cfg AccountId β) : Prop where
  keyed : ∀ key, ∀ o ∈ (s.observations key).val, (o.getObservationType, o.observationIndex) = key
  nodup : ∀ key, (s.observations key).val.Nodup
  voters_nodup : ∀ o, (s.observing o).val.Nodup
  registered : ∀ o, o ∈ (s.observations (o.getObservationType, o.observationIndex)).val ↔
    (s.observing o).val ≠ []

omit [DecidableEq AccountId] in
theorem wellFormed_genesis (anchorContract : List UInt8) (validators : List (AccountId × Nat))
    (b : β) : (genesisBuild cfg anchorContract validators b).WellFormed where
  keyed _ o ho := by simp [genesisBuild] at ho
  nodup _ := List.nodup_nil
  voters_nodup _ := List.nodup_nil
  registered o := by simp [genesisBuild]

omit [DecidableEq AccountId] in
/-- It is about the two maps alone. -/
theorem State.WellFormed.of_maps {s s' : State cfg AccountId β} (hs : s.WellFormed)
    (hobservations : s'.observations = s.observations) (hobserving : s'.observing = s.observing) :
    s'.WellFormed := by
  obtain ⟨h₁, h₂, h₃, h₄⟩ := hs
  rw [← hobservations] at h₁ h₂ h₄
  rw [← hobserving] at h₃ h₄
  exact ⟨h₁, h₂, h₃, h₄⟩

/-- A step leaves the two maps alone and has no effect, or it enters the vote. -/
theorem VoteStep.entries {bridge : BridgeInterface AccountId β} {lpos : LposInterface AccountId}
    {v : AccountId} {o : Observation AccountId} {s s' : State cfg AccountId β}
    {os : List (Observation AccountId)} (hstep : VoteStep bridge lpos v o s s' os) :
    (s' = s ∧ os = []) ∨ ∃ obs vals, Registers s v o obs vals ∧
      s'.observations = (s.withVote o obs vals).observations ∧
      s'.observing = (s.withVote o obs vals).observing := by
  cases hstep with
  | refused _ => exact Or.inl ⟨rfl, rfl⟩
  | counted hreg _ _ => exact Or.inr ⟨_, _, hreg, rfl, rfl⟩
  | installed hreg _ _ _ _ => exact Or.inr ⟨_, _, hreg, rfl, rfl⟩
  | relayed hreg _ _ _ _ => exact Or.inr ⟨_, _, hreg, rfl, rfl⟩

theorem wellFormed_withVote {s : State cfg AccountId β} {v : AccountId}
    {o : Observation AccountId} {obs vals} (hs : s.WellFormed) (hreg : Registers s v o obs vals) :
    (s.withVote o obs vals).WellFormed := by
  have hobs := BoundedVec.mem_of_tryPushAbsent hreg.observations
  have hvals := BoundedVec.mem_of_tryPushAbsent hreg.observing
  have hkey : ∀ key, (s.withVote o obs vals).observations key
      = if key = (o.getObservationType, o.observationIndex) then obs else s.observations key :=
    fun key => Function.update_apply ..
  have hobserving : ∀ o', (s.withVote o obs vals).observing o'
      = if o' = o then vals else s.observing o' := fun o' => Function.update_apply ..
  constructor
  · intro key o' ho'
    rw [hkey] at ho'
    split at ho'
    · next h =>
      rcases (hobs o').mp ho' with rfl | ho'
      · exact h.symm
      · rw [h]
        exact hs.keyed _ o' ho'
    · exact hs.keyed key o' ho'
  · intro key
    rw [hkey]
    split
    · exact BoundedVec.nodup_of_tryPushAbsent hreg.observations (hs.nodup _)
    · exact hs.nodup key
  · intro o'
    rw [hobserving]
    split
    · exact BoundedVec.nodup_of_tryPushAbsent hreg.observing (hs.voters_nodup o)
    · exact hs.voters_nodup o'
  · intro o'
    rw [hkey, hobserving]
    -- only the two lists of `o` change, and both hold it now
    by_cases h : o' = o
    · subst h
      rw [if_pos rfl, if_pos rfl]
      exact ⟨fun _ => List.ne_nil_of_mem ((hvals v).mpr (Or.inl rfl)),
        fun _ => (hobs o').mpr (Or.inl rfl)⟩
    · rw [if_neg h, ← hs.registered o']
      split
      · next hk => rw [hobs, hk, or_iff_right h]
      · exact Iff.rfl

theorem wellFormed_step {bridge : BridgeInterface AccountId β} {lpos : LposInterface AccountId}
    {v : AccountId} {o : Observation AccountId} {s s' : State cfg AccountId β}
    {os : List (Observation AccountId)} (hstep : VoteStep bridge lpos v o s s' os)
    (hs : s.WellFormed) : s'.WellFormed := by
  rcases hstep.entries with ⟨rfl, -⟩ | ⟨obs, vals, hreg, hobservations, hobserving⟩
  · exact hs
  · exact (wellFormed_withVote hs hreg).of_maps hobservations hobserving

/-- The run lemma: the vote book stays consistent. -/
theorem wellFormed_run (bridge : BridgeInterface AccountId β) {s₀ : State cfg AccountId β}
    (hs₀ : s₀.WellFormed) (xs : List (Vote AccountId)) :
    ((voteMachine bridge).run xs s₀).WellFormed :=
  (voteMachine bridge).invariant_state hs₀
    (fun s x hs => wellFormed_step (voteMachine_step bridge x s) hs) xs

/-! ## The book -/

/-- Who has voted for each observation. -/
def State.book (s : State cfg AccountId β) : Book AccountId (Observation AccountId) :=
  fun o => (s.observing o).val.toFinset

theorem State.mem_book {s : State cfg AccountId β} {v : AccountId} {o : Observation AccountId} :
    v ∈ s.book o ↔ v ∈ (s.observing o).val := List.mem_toFinset

/-- With room for every account that votes, no voter is turned away. -/
theorem State.WellFormed.voter_isSome {s : State cfg AccountId β} (hs : s.WellFormed)
    {accounts : Finset AccountId} {o : Observation AccountId} (hvoters : s.book o ⊆ accounts)
    (hcard : accounts.card ≤ cfg.maxValidators) {v : AccountId} (hv : v ∈ accounts) :
    ((s.observing o).tryPushAbsent v).isSome := by
  rw [Option.isSome_iff_ne_none, Ne, BoundedVec.tryPushAbsent_eq_none]
  rintro ⟨hfull, hmem⟩
  have hinsert : insert v (s.book o) ⊆ accounts := Finset.insert_subset hv hvoters
  have hle := Finset.card_le_card hinsert
  rw [Finset.card_insert_of_notMem (by rwa [State.mem_book]), State.book,
    List.toFinset_card_of_nodup (hs.voters_nodup o), hfull] at hle
  omega

theorem book_withVote {s : State cfg AccountId β} {v : AccountId} {o : Observation AccountId}
    {obs vals} (hreg : Registers s v o obs vals) :
    (s.withVote o obs vals).book = s.book.cast v o := by
  funext o'
  ext w
  rw [Book.mem_cast, State.mem_book, State.mem_book]
  by_cases h : o' = o
  · subst h
    rw [State.withVote_observing_self, BoundedVec.mem_of_tryPushAbsent hreg.observing]
    simp [or_comm]
  · rw [State.withVote_observing_of_ne _ _ _ _ h]
    simp [h]

/-- **A step of the pallet casts the vote in the book or leaves the state as it is.** -/
theorem VoteStep.book {bridge : BridgeInterface AccountId β} {lpos : LposInterface AccountId}
    {v : AccountId} {o : Observation AccountId} {s s' : State cfg AccountId β}
    {os : List (Observation AccountId)} (hstep : VoteStep bridge lpos v o s s' os) :
    (s' = s ∧ os = []) ∨ s.InRange o ∧ s'.book = s.book.cast v o := by
  rcases hstep.entries with h | ⟨obs, vals, hreg, -, hobserving⟩
  · exact Or.inl h
  · refine Or.inr ⟨hreg.inRange, ?_⟩
    rw [← book_withVote hreg]
    funext o'
    show (s'.observing o').val.toFinset = _
    rw [hobserving]
    rfl

/-- The run lemma: whoever is in the book was there at the start or cast the vote on the way. -/
theorem voters_cast_run (bridge : BridgeInterface AccountId β) (s₀ : State cfg AccountId β)
    (xs : List (Vote AccountId)) (v : AccountId) (o : Observation AccountId) :
    v ∈ ((voteMachine bridge).run xs s₀).book o →
      v ∈ s₀.book o ∨ ∃ x ∈ xs, x.validatorId = v ∧ x.observation = o := by
  refine (voteMachine bridge).invariant (P := fun _ _ => True)
    (I := fun xs s _ => v ∈ s.book o →
      v ∈ s₀.book o ∨ ∃ x ∈ xs, x.validatorId = v ∧ x.observation = o)
    Or.inl ?_ xs ((voteMachine bridge).along_trivial xs _)
  intro xs s _ x ih _ hv
  have hkeep : v ∈ s.book o →
      v ∈ s₀.book o ∨ ∃ y ∈ xs ++ [x], y.validatorId = v ∧ y.observation = o := by
    intro hs
    rcases ih hs with h | ⟨y, hy, h⟩
    · exact Or.inl h
    · exact Or.inr ⟨y, List.mem_append_left _ hy, h⟩
  rcases (voteMachine_step bridge x s).book with ⟨hs, -⟩ | ⟨-, hbook⟩
  · rw [hs] at hv
    exact hkeep hv
  · rw [hbook, Book.mem_cast] at hv
    rcases hv with hv | ⟨hvx, hox⟩
    · exact hkeep hv
    · exact Or.inr ⟨x, by simp, hvx.symm, hox.symm⟩

/-! ## Votes that are not refused -/

/-- `o` is registered, or there is room to register it. -/
def State.HasRoom (s : State cfg AccountId β) (o : Observation AccountId) : Prop :=
  o ∈ (s.observations (o.getObservationType, o.observationIndex)).val ∨
    (s.observations (o.getObservationType, o.observationIndex)).val.length < maxObservations

theorem State.HasRoom.isSome {s : State cfg AccountId β} {o : Observation AccountId}
    (h : s.HasRoom o) :
    ((s.observations (o.getObservationType, o.observationIndex)).tryPushAbsent o).isSome := by
  rw [Option.isSome_iff_ne_none, Ne, BoundedVec.tryPushAbsent_eq_none]
  rintro ⟨hfull, hmem⟩
  rcases h with h | h
  · exact hmem h
  · omega

omit [DecidableEq AccountId] in
/-- An index inside the window leaves the counter room to move. -/
theorem State.counter_lt {s : State cfg AccountId β} {o : Observation AccountId}
    (ho : o.IsNotification) (h : s.InRange o) :
    s.nextNotificationId + 1 < 2 ^ 32 := by
  have hwindow := (State.inRange_notification ho).mp h
  have hlt : wrappingAdd 32 s.nextNotificationId cfg.requestEventLimit < 2 ^ 32 :=
    Nat.mod_lt _ (by decide)
  omega

/-- A vote that is entered and passes relays its notification. -/
theorem Registers.submitObservation_relayed {s : State cfg AccountId β} {v : AccountId}
    {o : Observation AccountId} {obs vals} (hreg : Registers s v o obs vals)
    (bridge : BridgeInterface AccountId β) {lpos : LposInterface AccountId} (ho : o.IsNotification)
    (hpasses : s.Passes lpos v o) :
    submitObservation bridge lpos v o s = (.ok (), (s.withVote o obs vals).relayed bridge o) := by
  obtain ⟨T, htotal, -⟩ := State.passes_iff.mp hpasses
  rw [submitObservation_registered bridge lpos hreg htotal, (hreg.passes_iff htotal).mp hpasses]
  refine transactional_ok ?_
  rw [if_pos rfl, processObservation_notification bridge ho]
  exact if_pos (State.counter_lt ho hreg.inRange)

/-- A vote for a notification inside the window that has room is entered. It is relayed exactly when
its voters pass the test. -/
theorem VoteStep.of_accepted {bridge : BridgeInterface AccountId β}
    {lpos : LposInterface AccountId} {v : AccountId} {o : Observation AccountId}
    {s s' : State cfg AccountId β} {os : List (Observation AccountId)} {T : Nat}
    (hstep : VoteStep bridge lpos v o s s' os) (ho : o.IsNotification) (hrange : s.InRange o)
    (hroom : s.HasRoom o) (hvoter : ((s.observing o).tryPushAbsent v).isSome)
    (htotal : lpos.activeTotalStake = some T) :
    ∃ obs vals, Registers s v o obs vals ∧
      (¬ s.Passes lpos v o ∧ s' = s.withVote o obs vals ∧ os = [] ∨
        s.Passes lpos v o ∧ s' = (s.withVote o obs vals).relayed bridge o ∧ os = [o]) := by
  cases hstep with
  | refused h =>
    exfalso
    -- every reason for a refusal is excluded by an assumption
    cases h with
    | wrongSetId _ h | invalidNotificationId _ h => exact h hrange
    | observationsFull _ h => simpa [h] using hroom.isSome
    | observingFull _ h => simp [h] at hvoter
    | noActiveEra _ h =>
      rw [htotal] at h
      cases h
    | nextSetIdOverflow _ hn _ => exact hn ho
    | nextNotificationIdOverflow _ _ h =>
      exact absurd (State.counter_lt ho hrange) (Nat.not_lt.mpr h)
  | counted hreg htotal' hquorum =>
    refine ⟨_, _, hreg, Or.inl ⟨?_, rfl, rfl⟩⟩
    rw [hreg.passes_iff htotal', hquorum]
    exact Bool.false_ne_true
  | installed _ _ _ hset _ =>
    rw [hset] at ho
    exact absurd rfl ho
  | relayed hreg htotal' hquorum _ _ =>
    exact ⟨_, _, hreg, Or.inr ⟨(hreg.passes_iff htotal').mpr hquorum, rfl, rfl⟩⟩

/-! ## The two-thirds test -/

/-- The wrapping product on the left only makes the test harder to pass. -/
theorem twoThirds_sound {stake total : Nat} (htotal : 2 * total < 2 ^ 128)
    (h : twoThirds stake total = true) : 2 * total < 3 * stake := by
  unfold twoThirds at h
  rw [decide_eq_true_eq, wrappingMul_of_lt htotal] at h
  exact Nat.lt_of_lt_of_le h (wrappingMul_le ..)

theorem twoThirds_iff {stake total : Nat} (htotal : 2 * total < 2 ^ 128)
    (hstake : 3 * stake < 2 ^ 128) : twoThirds stake total = true ↔ 2 * total < 3 * stake := by
  unfold twoThirds
  rw [decide_eq_true_eq, wrappingMul_of_lt htotal, wrappingMul_of_lt hstake]

omit [DecidableEq AccountId] in
theorem stakeOf_le (lpos : LposInterface AccountId) (voters : List AccountId) :
    stakeOf lpos voters ≤ (voters.map lpos.activeStakeOf).sum := wrappingSum_le ..

/-- The voters counted with `v` are those of the book with `v` inserted. -/
theorem State.WellFormed.votersWith {s : State cfg AccountId β} (hs : s.WellFormed)
    (v : AccountId) (o : Observation AccountId) :
    (s.votersWith v o).Nodup ∧ (s.votersWith v o).toFinset = insert v (s.book o) := by
  unfold State.votersWith
  have hnodup := hs.voters_nodup o
  split
  · next h =>
    refine ⟨hnodup, ?_⟩
    rw [Finset.insert_eq_of_mem (State.mem_book.mpr h)]
    rfl
  · next h =>
    refine ⟨?_, ?_⟩
    · rw [List.nodup_append]
      exact ⟨hnodup, List.nodup_singleton v, fun a ha b hb hab =>
        h (by rwa [← List.mem_singleton.mp hb, ← hab])⟩
    · ext w
      simp [State.mem_book]

/-- Their stake, when it fits, is the weight of that set. -/
theorem State.WellFormed.stakeOf_votersWith {s : State cfg AccountId β} (hs : s.WellFormed)
    (lpos : LposInterface AccountId) (v : AccountId) (o : Observation AccountId)
    (hfit : weightOf lpos.activeStakeOf (insert v (s.book o)) < 2 ^ 128) :
    stakeOf lpos (s.votersWith v o) = weightOf lpos.activeStakeOf (insert v (s.book o)) := by
  obtain ⟨hnodup, hset⟩ := hs.votersWith v o
  rw [← hset, weightOf_toFinset _ hnodup] at hfit ⊢
  exact wrappingSum_of_lt hfit

/-- **Without overflow, the test compares the weight of the voters with the total.** -/
theorem State.WellFormed.passes_iff {s : State cfg AccountId β} (hs : s.WellFormed)
    {lpos : LposInterface AccountId} {v : AccountId} {o : Observation AccountId} {T : Nat}
    (htotal : lpos.activeTotalStake = some T) (hT : 2 * T < 2 ^ 128)
    (hstake : 3 * weightOf lpos.activeStakeOf (insert v (s.book o)) < 2 ^ 128) :
    s.Passes lpos v o ↔ 2 * T < 3 * weightOf lpos.activeStakeOf (insert v (s.book o)) := by
  rw [State.passes_iff, htotal, hs.stakeOf_votersWith lpos v o (by omega),
    ← twoThirds_iff hT hstake]
  constructor
  · rintro ⟨T', hT', h⟩
    rwa [Option.some.inj hT']
  · exact fun h => ⟨T, rfl, h⟩

/-- The stakes that a call reads are those of the electorate. -/
structure Backs (E : Electorate AccountId) (lpos : LposInterface AccountId) : Prop where
  activeStakeOf : lpos.activeStakeOf = E.weight
  activeTotalStake : lpos.activeTotalStake = some E.total

/-- For a list that does not repeat anyone, the test is the quorum of its accounts. -/
theorem Backs.twoThirds_iff {E : Electorate AccountId} {lpos : LposInterface AccountId}
    (hbacks : Backs E lpos) (htotal : 3 * E.total < 2 ^ 128) {voters : List AccountId}
    (hvoters : voters.Nodup) :
    twoThirds (stakeOf lpos voters) E.total = true ↔ E.Quorum voters.toFinset := by
  have hle : (voters.map lpos.activeStakeOf).sum ≤ E.total := by
    rw [hbacks.activeStakeOf, ← weightOf_toFinset _ hvoters]
    exact E.stake_le_total _
  have hsum : stakeOf lpos voters = E.stake voters.toFinset := by
    unfold stakeOf
    rw [wrappingSum_of_lt (by omega), hbacks.activeStakeOf, ← weightOf_toFinset _ hvoters]
    rfl
  have hstake := E.stake_le_total voters.toFinset
  rw [hsum, OctopusPallets.Appchain.twoThirds_iff (by omega) (by omega)]
  rfl

/-- With an electorate behind the call, the test is the quorum of the voters. -/
theorem Backs.passes_iff {E : Electorate AccountId} {lpos : LposInterface AccountId}
    (hbacks : Backs E lpos) (htotal : 3 * E.total < 2 ^ 128) {s : State cfg AccountId β}
    (hs : s.WellFormed) (v : AccountId) (o : Observation AccountId) :
    s.Passes lpos v o ↔ E.Quorum (insert v (s.book o)) := by
  obtain ⟨hnodup, hset⟩ := hs.votersWith v o
  rw [State.passes_iff, ← hset, ← hbacks.twoThirds_iff htotal hnodup, hbacks.activeTotalStake]
  constructor
  · rintro ⟨T, hT, h⟩
    rwa [Option.some.inj hT]
  · exact fun h => ⟨_, rfl, h⟩

end OctopusPallets.Appchain
