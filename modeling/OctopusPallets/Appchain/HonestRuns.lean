import OctopusPallets.Appchain.History

/-!
# Honest runs

When every validator reports slices of the history, the voters of an index are voters of all the
indices between it and the counter. So an index cannot reach its quorum before the ones below it,
whatever the stakes are, and the history is executed in order.

The stakes may be different at every call. Within a call they are fixed: this is what lets the
quorum test of an earlier index speak for a later one (`Voting.ahead`).
-/

namespace OctopusPallets.Appchain

open Infra Infra.Dispatch Infra.FixedWidth

variable {cfg : Config} {AccountId Public β : Type} [DecidableEq AccountId]

/-! ## Faithful vote books -/

/-- A vote book made by honest validators: it holds only notifications of the history, and whoever
has voted for an index has voted for every index from the counter up to it. -/
structure Faithful (H : History AccountId) (s : State cfg AccountId β) : Prop where
  wellFormed : s.WellFormed
  known : ∀ o, o.IsNotification → (s.book o).Nonempty → H.Contains o
  nested : ∀ j i, s.nextNotificationId ≤ j → j ≤ i →
    s.book (H.notification i) ⊆ s.book (H.notification j)

theorem faithful_genesis (H : History AccountId) (anchorContract : List UInt8)
    (validators : List (AccountId × Nat)) (b : β) :
    Faithful H (genesisBuild cfg anchorContract validators b) where
  wellFormed := wellFormed_genesis ..
  known _ _ h := by simp [State.book, genesisBuild] at h
  nested _ _ _ _ := Finset.Subset.refl _

omit [DecidableEq AccountId] in
theorem History.notification_injective (H : History AccountId) {i j : Nat}
    (h : H.notification i = H.notification j) : i = j := by
  rw [← H.index i, h, H.index]

/-- An honest book has at most one observation registered at an index. -/
theorem Faithful.hasRoom {H : History AccountId} {s : State cfg AccountId β} (h : Faithful H s)
    (p : Nat) : s.HasRoom (H.notification p) := by
  unfold State.HasRoom
  generalize hkey : ((H.notification p).getObservationType, (H.notification p).observationIndex)
    = key
  have hall : ∀ o ∈ (s.observations key).val, o = H.notification p := by
    intro o ho
    have hk := h.wellFormed.keyed key o ho
    have hvoted : (s.book o).Nonempty := by
      rw [State.book, List.toFinset_nonempty_iff, ← h.wellFormed.registered, hk]
      exact ho
    rw [← hkey, Prod.mk.injEq, H.index] at hk
    have hnotification : o.IsNotification := by
      unfold Observation.IsNotification
      rw [hk.1]
      exact H.isNotification p
    rw [h.known o hnotification hvoted, hk.2]
  cases hlist : (s.observations key).val with
  | nil => exact Or.inr (show 0 < maxObservations by decide)
  | cons o rest =>
    refine Or.inl ?_
    rw [hlist] at hall
    rw [← hall o (List.mem_cons_self ..)]
    exact List.mem_cons_self ..

/-! ## Voting through a slice -/

/-- Nothing refuses the vote for lack of room in `Observing`, and no addition or product made for it
overflows. -/
structure Fits (s : State cfg AccountId β) (x : Vote AccountId) : Prop where
  window : x.observation.IsNotification → s.nextNotificationId + cfg.requestEventLimit < 2 ^ 32
  hasVoterRoom : s.InRange x.observation →
    ((s.observing x.observation).tryPushAbsent x.validatorId).isSome
  total : s.InRange x.observation → ∀ T ∈ x.lpos.activeTotalStake, 2 * T < 2 ^ 128
  stake : s.InRange x.observation →
    3 * weightOf x.lpos.activeStakeOf (insert x.validatorId (s.book x.observation)) < 2 ^ 128

instance (s : State cfg AccountId β) (x : Vote AccountId) : Decidable (Fits s x) :=
  decidable_of_iff (_ ∧ _ ∧ _ ∧ _)
    ⟨fun ⟨h₁, h₂, h₃, h₄⟩ => ⟨h₁, h₂, h₃, h₄⟩, fun ⟨h₁, h₂, h₃, h₄⟩ => ⟨h₁, h₂, h₃, h₄⟩⟩

variable {H : History AccountId} {lpos : LposInterface AccountId} {v : AccountId} {p : Nat}
  {T : Nat} {s s' : State cfg AccountId β} {os : List (Observation AccountId)}

/-- `v` has voted through its slice up to `p`. If the counter stayed behind, `v` has voted for every
index from it up to `p`, and the voters at the counter were no quorum. -/
structure Voting (H : History AccountId) (lpos : LposInterface AccountId) (T : Nat) (v : AccountId)
    (p : Nat) (s : State cfg AccountId β) : Prop extends Faithful H s where
  ahead : s.nextNotificationId < p →
    (∀ j, s.nextNotificationId ≤ j → j < p → v ∈ s.book (H.notification j)) ∧
      3 * weightOf lpos.activeStakeOf (s.book (H.notification s.nextNotificationId)) ≤ 2 * T

/-- The vote for the next index keeps the book faithful, the counter moving or not. -/
theorem Voting.faithful_cast (h : Voting H lpos T v p s) (hs' : s'.WellFormed)
    (hbook : s'.book = s.book.cast v (H.notification p))
    (hle : s.nextNotificationId ≤ s'.nextNotificationId) : Faithful H s' := by
  refine ⟨hs', ?_, ?_⟩
  · rintro o ho ⟨w, hw⟩
    rw [hbook, Book.mem_cast] at hw
    rcases hw with hw | ⟨-, rfl⟩
    · exact h.known o ho ⟨w, hw⟩
    · exact H.contains_notification p
  · intro j i hj hji w hw
    rw [hbook, Book.mem_cast] at hw ⊢
    rcases hw with hw | ⟨rfl, hi⟩
    · exact Or.inl (h.nested j i (Nat.le_trans hle hj) hji hw)
    · -- the new vote, for `p` itself: `v` has voted for all indices below it
      obtain rfl := H.notification_injective hi
      rcases Nat.lt_or_eq_of_le hji with hlt | rfl
      · have hnj := Nat.le_trans hle hj
        exact Or.inl ((h.ahead (Nat.lt_of_le_of_lt hnj hlt)).1 j hnj hlt)
      · exact Or.inr ⟨rfl, rfl⟩

/-- **Ahead of the counter there is no quorum.** Its voters, with `v`, have all voted at the
counter. -/
theorem Voting.not_passes (h : Voting H lpos T v p s) (hp : s.nextNotificationId < p)
    (htotal : lpos.activeTotalStake = some T) (hT : 2 * T < 2 ^ 128) :
    ¬ s.Passes lpos v (H.notification p) := by
  obtain ⟨hvoted, hstake⟩ := h.ahead hp
  have hsub : insert v (s.book (H.notification p))
      ⊆ s.book (H.notification s.nextNotificationId) :=
    Finset.insert_subset (hvoted _ (Nat.le_refl _) hp)
      (h.nested _ _ (Nat.le_refl _) (Nat.le_of_lt hp))
  have hle := weightOf_mono lpos.activeStakeOf hsub
  rw [h.wellFormed.passes_iff htotal hT (by omega)]
  omega

section

variable {obs : BoundedVec (Observation AccountId) maxObservations}
  {vals : BoundedVec AccountId cfg.maxValidators}

/-- The vote is counted: the counter stays, at `p` or behind it. -/
theorem Voting.counted (h : Voting H lpos T v p s)
    (hreg : Registers s v (H.notification p) obs vals) (hn : s.nextNotificationId ≤ p)
    (hno : 3 * weightOf lpos.activeStakeOf (insert v (s.book (H.notification p))) ≤ 2 * T) :
    Voting H lpos T v (p + 1) (s.withVote (H.notification p) obs vals) := by
  have hbook := book_withVote hreg
  refine ⟨h.faithful_cast (wellFormed_withVote h.wellFormed hreg) hbook (Nat.le_refl _), ?_⟩
  intro _
  rw [State.withVote_nextNotificationId, hbook]
  refine ⟨?_, ?_⟩
  · intro j hj hjp
    rw [Book.mem_cast]
    rcases Nat.lt_or_eq_of_le (Nat.le_of_lt_succ hjp) with hlt | rfl
    · exact Or.inl ((h.ahead (Nat.lt_of_le_of_lt hj hlt)).1 j hj hlt)
    · exact Or.inr ⟨rfl, rfl⟩
  · rcases Nat.lt_or_eq_of_le hn with hlt | heq
    · have hne : H.notification s.nextNotificationId ≠ H.notification p := fun he =>
        absurd (H.notification_injective he) (Nat.ne_of_lt hlt)
      rw [Book.cast_of_ne _ _ hne]
      exact (h.ahead hlt).2
    · rw [heq, Book.cast_self]
      exact hno

/-- The vote is relayed: the counter was at `p` and leaves it behind. -/
theorem Voting.relayed (h : Voting H lpos T v p s)
    (hreg : Registers s v (H.notification p) obs vals) (hp : p = s.nextNotificationId)
    (bridge : BridgeInterface AccountId β) :
    Voting H lpos T v (p + 1)
      ((s.withVote (H.notification p) obs vals).relayed bridge (H.notification p)) := by
  have hbook : ((s.withVote (H.notification p) obs vals).relayed bridge
      (H.notification p)).book = s.book.cast v (H.notification p) := book_withVote hreg
  have hwf := wellFormed_withVote h.wellFormed hreg
  refine ⟨h.faithful_cast ⟨hwf.keyed, hwf.nodup, hwf.voters_nodup, hwf.registered⟩ hbook
    (Nat.le_succ _), ?_⟩
  intro hlt
  rw [State.relayed_nextNotificationId, State.withVote_nextNotificationId] at hlt
  omega

end

/-- The step lemma: the vote for the next index of a slice is in order, and keeps `Voting`. -/
theorem voting_step {bridge : BridgeInterface AccountId β}
    (hstep : VoteStep bridge lpos v (H.notification p) s s' os)
    (htotal : lpos.activeTotalStake = some T) (hfits : Fits s ⟨lpos, v, H.notification p⟩)
    (hp : p < s.nextNotificationId + cfg.requestEventLimit) (h : Voting H lpos T v p s) :
    InOrder s ⟨lpos, v, H.notification p⟩ ∧ Voting H lpos T v (p + 1) s' := by
  have ho := H.isNotification p
  have hwindow : wrappingAdd 32 s.nextNotificationId cfg.requestEventLimit
      = s.nextNotificationId + cfg.requestEventLimit := wrappingAdd_of_lt (hfits.window ho)
  by_cases hn : s.nextNotificationId ≤ p
  · have hrange : s.InRange (H.notification p) := by
      rw [State.inRange_notification ho, H.index, hwindow]
      exact ⟨hn, hp⟩
    have hT := hfits.total hrange T htotal
    have hpasses := h.wellFormed.passes_iff htotal hT (hfits.stake hrange)
    have hpassed : s.Passes lpos v (H.notification p) → p = s.nextNotificationId := by
      intro hpass
      by_contra hne
      exact h.not_passes (by omega) htotal hT hpass
    refine ⟨fun hrelays => (H.index p).trans (hpassed hrelays.passes), ?_⟩
    obtain ⟨obs, vals, hreg, ⟨hnot, rfl, rfl⟩ | ⟨hpass, rfl, rfl⟩⟩ :=
      hstep.of_accepted ho hrange (h.hasRoom p) (hfits.hasVoterRoom hrange) htotal
    · rw [hpasses] at hnot
      exact h.counted hreg hn (Nat.not_lt.mp hnot)
    · exact h.relayed hreg (hpassed hpass) bridge
  · -- the index is below the counter: refused
    have hrange : ¬ s.InRange (H.notification p) := by
      rw [State.inRange_notification ho, H.index]
      exact fun hr => hn hr.1
    refine ⟨fun hrelays => absurd hrelays.inRange hrange, ?_⟩
    rcases hstep.book with ⟨rfl, -⟩ | ⟨hr, -⟩
    · exact ⟨h.toFaithful, fun hlt => absurd hlt (by omega)⟩
    · exact absurd hr hrange

/-! ## Voting through a payload -/

/-- The votes of a call that carries `os`. -/
def votesFor (lpos : LposInterface AccountId) (v : AccountId) (os : List (Observation AccountId)) :
    List (Vote AccountId) :=
  os.map fun o => ⟨lpos, v, o⟩

theorem slice_in_order (bridge : BridgeInterface AccountId β)
    (htotal : lpos.activeTotalStake = some T) : ∀ (k p : Nat) (s : State cfg AccountId β),
      Voting H lpos T v p s → p + k ≤ s.nextNotificationId + cfg.requestEventLimit →
      (voteMachine bridge).Along Fits (votesFor lpos v (H.slice p k)) s →
        (voteMachine bridge).Along InOrder (votesFor lpos v (H.slice p k)) s ∧
          Faithful H ((voteMachine bridge).run (votesFor lpos v (H.slice p k)) s)
  | 0, _, _, h, _, _ => ⟨trivial, h.toFaithful⟩
  | k + 1, p, s, h, hk, hfits => by
    have hstep := voteMachine_step bridge ⟨lpos, v, H.notification p⟩ s
    obtain ⟨horder, hnext⟩ := voting_step hstep htotal hfits.1 (by omega) h
    have hcounter := nextNotificationId_of_step hstep
    obtain ⟨hrest, hfaithful⟩ := slice_in_order bridge htotal k (p + 1) _ hnext (by omega) hfits.2
    exact ⟨⟨horder, hrest⟩, hfaithful⟩

/-- A vote for a validator set does not touch the votes for notifications. -/
theorem faithful_set {bridge : BridgeInterface AccountId β} {o : Observation AccountId}
    (hstep : VoteStep bridge lpos v o s s' os) (ho : ¬ o.IsNotification) (h : Faithful H s) :
    Faithful H s' := by
  have hcounter : s'.nextNotificationId = s.nextNotificationId := by
    cases hstep with
    | refused _ => rfl
    | counted _ _ _ => rfl
    | installed _ _ _ _ _ => rfl
    | relayed _ _ _ hn _ => exact absurd hn ho
  have hbook : ∀ o', o'.IsNotification → s'.book o' = s.book o' := by
    intro o' ho'
    rcases hstep.book with ⟨rfl, -⟩ | ⟨-, hcast⟩
    · rfl
    · have hne : o' ≠ o := by
        rintro rfl
        exact ho ho'
      rw [hcast, Book.cast_of_ne _ _ hne]
  refine ⟨wellFormed_step hstep h.wellFormed, ?_, ?_⟩
  · intro o' ho' hvoted
    rw [hbook o' ho'] at hvoted
    exact h.known o' ho' hvoted
  · intro j i hj hji
    rw [hbook _ (H.isNotification i), hbook _ (H.isNotification j)]
    exact h.nested j i (hcounter ▸ hj) hji

/-- Without an active era a vote is refused. -/
theorem VoteStep.of_noActiveEra {bridge : BridgeInterface AccountId β}
    {o : Observation AccountId} (hstep : VoteStep bridge lpos v o s s' os)
    (htotal : lpos.activeTotalStake = none) : s' = s := by
  cases hstep with
  | refused _ => rfl
  | counted _ h _ | installed _ h _ _ _ | relayed _ h _ _ _ =>
    rw [htotal] at h
    cases h

theorem noActiveEra_in_order (bridge : BridgeInterface AccountId β)
    (htotal : lpos.activeTotalStake = none) (v : AccountId) (s : State cfg AccountId β) :
    ∀ os : List (Observation AccountId),
      (voteMachine bridge).Along InOrder (votesFor lpos v os) s ∧
        (voteMachine bridge).run (votesFor lpos v os) s = s
  | [] => ⟨trivial, rfl⟩
  | o :: os => by
    have hstep := (voteMachine_step bridge ⟨lpos, v, o⟩ s).of_noActiveEra htotal
    have hrest := noActiveEra_in_order bridge htotal v s os
    have horder : InOrder s ⟨lpos, v, o⟩ := by
      intro hrelays
      obtain ⟨T, hT, -⟩ := State.passes_iff.mp hrelays.passes
      rw [htotal] at hT
      cases hT
    rw [votesFor, List.map_cons, Machine.Along, Machine.run, hstep]
    exact ⟨⟨horder, hrest.1⟩, hrest.2⟩

/-! ## Honest runs -/

/-- A call counted for a validator carries a slice of the history or a single validator set. -/
def HonestCall (H : History AccountId) (s : State cfg AccountId β) (c : Call Public AccountId) :
    Prop :=
  c.validatorId.isSome → HonestSlice H s c.payload.observations ∨
    ∃ valSet, c.payload.observations = [.updateValidatorSet valSet]

/-- What one call does: its votes are in order, and the book stays faithful. -/
theorem honest_call (bridge : BridgeInterface AccountId β) {c : Call Public AccountId}
    (hs : Faithful H s) (hc : HonestCall H s c)
    (hfits : (voteMachine bridge).Along Fits c.votes s) :
    (voteMachine bridge).Along InOrder c.votes s ∧
      Faithful H ((voteMachine bridge).run c.votes s) := by
  unfold HonestCall at hc
  unfold Call.votes at hfits ⊢
  cases hv : c.validatorId with
  | none => exact ⟨trivial, hs⟩
  | some v =>
    rw [hv] at hfits hc
    cases htotal : c.lpos.activeTotalStake with
    | none =>
      -- no active era: every vote of the call is refused
      obtain ⟨horder, hrun⟩ := noActiveEra_in_order bridge htotal v s c.payload.observations
      exact ⟨horder, hrun.symm ▸ hs⟩
    | some T =>
      rcases hc rfl with ⟨m, k, hm, hk, hslice⟩ | ⟨valSet, hset⟩
      · rw [hslice] at hfits ⊢
        have hstart : Voting H c.lpos T v m s := ⟨hs, fun hlt => absurd hlt (by omega)⟩
        exact slice_in_order bridge htotal k m s hstart (by omega) hfits
      · rw [hset]
        have hnot : ¬ (Observation.updateValidatorSet valSet).IsNotification := by
          simp [Observation.IsNotification, Observation.getObservationType]
        exact ⟨⟨fun hrelays => absurd hrelays.notification hnot, trivial⟩,
          faithful_set (voteMachine_step bridge ⟨c.lpos, v, _⟩ s) hnot hs⟩

/-- Only notifications of the history take effect. -/
theorem contains_of_honest_run {bridge : BridgeInterface AccountId β}
    {cs : List (Call Public AccountId)} (hhonest : (callMachine bridge).Along (HonestCall H) cs s)
    {o : Observation AccountId}
    (ho : o ∈ notifications ((voteMachine bridge).log (cs.flatMap Call.votes) s)) :
    H.Contains o := by
  obtain ⟨ys, x, zs, hxs, rfl, hrelays⟩ := relays_of_mem_log ho
  have hx : x ∈ cs.flatMap Call.votes := by rw [hxs]; simp
  obtain ⟨c, hc, hxc⟩ := List.mem_flatMap.mp hx
  obtain ⟨-, hvalidator, hmem⟩ := Call.mem_votes.mp hxc
  obtain ⟨t, hcall⟩ := hhonest.exists_of_mem hc
  rcases hcall (by rw [hvalidator]; rfl) with ⟨m, k, -, -, hslice⟩ | ⟨valSet, hset⟩
  · rw [hslice] at hmem
    exact History.contains_of_mem_slice hmem
  · rw [hset, List.mem_singleton] at hmem
    have hnotification := hrelays.notification
    rw [hmem] at hnotification
    exact absurd rfl hnotification

/--
**Honest runs execute the history in order.**

The calls are counted for any validators under any stakes, different from call to call, with slices
that may be stale. As long as no voter is turned away and nothing overflows, the notifications that
took effect since genesis are the history up to `NextNotificationId`, each once and in order.
-/
theorem honest_run_executes_history (bridge : BridgeInterface AccountId β)
    (anchorContract : List UInt8) (genesis : List (AccountId × Nat)) (b : β)
    (H : History AccountId) (cs : List (Call Public AccountId))
    (hhonest : (callMachine bridge).Along (HonestCall H) cs
      (genesisBuild cfg anchorContract genesis b))
    (hfits : (voteMachine bridge).Along Fits (cs.flatMap Call.votes)
      (genesisBuild cfg anchorContract genesis b)) :
    notifications ((callMachine bridge).log cs (genesisBuild cfg anchorContract genesis b))
      = (List.range ((callMachine bridge).run cs
          (genesisBuild cfg anchorContract genesis b)).nextNotificationId).map H.notification := by
  rw [callMachine_log, callMachine_run]
  refine (executes_history_iff bridge H rfl _ fun o ho => contains_of_honest_run hhonest ho).mpr ?_
  -- that all quorums come in order is kept call by call, with a faithful book
  rw [callMachine_eq] at hhonest
  exact (voteMachine bridge).along_unfolding (I := Faithful H)
    (fun _ _ hI hP hQ => honest_call bridge hI hP hQ) cs _ (faithful_genesis ..) hhonest hfits

namespace Sample

/-- Slices and a validator set; before the third call the fourth validator leaves. -/
def mixedRun : List (Call Unit Nat) :=
  [callOf 4 0 [burnAt 0, burnAt 1], callOf 4 1 [.updateValidatorSet ⟨1, []⟩],
    callOf 3 2 [burnAt 0], callOf 3 1 [burnAt 0, burnAt 1]]

end Sample

/-- Index 0 takes effect in the last call, and index 1 has to wait. -/
theorem mixed_run_executes_history :
    notifications ((callMachine Sample.idleBridge).log Sample.mixedRun
        (genesisBuild Sample.config [] [] ()))
      = (List.range ((callMachine Sample.idleBridge).run Sample.mixedRun
          (genesisBuild Sample.config [] [] ())).nextNotificationId).map
            Sample.burns.notification := by
  refine honest_run_executes_history Sample.idleBridge [] [] () Sample.burns Sample.mixedRun ?_
    (by decide)
  have hslice := fun s => Sample.honest_slice s
  have hshort : ∀ s : State Sample.config Nat Unit, HonestSlice Sample.burns s [Sample.burnAt 0] :=
    fun _ => ⟨0, 1, Nat.zero_le _, by decide, rfl⟩
  exact ⟨fun _ => Or.inl (hslice _), fun _ => Or.inr ⟨_, rfl⟩, fun _ => Or.inl (hshort _),
    fun _ => Or.inl (hslice _), trivial⟩

end OctopusPallets.Appchain
