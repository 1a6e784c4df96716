import OctopusPallets.Appchain.Minority

/-!
# Progress

A quorum that votes for the notification at the counter brings it into effect, whatever was
submitted before. The storage that it shares with everyone else must have room for it:
`Observations` keeps at most 100 observations of a type at an index, and an outsider can fill them.
-/

namespace OctopusPallets.Appchain

open Infra Infra.Dispatch Infra.FixedWidth

variable {cfg : Config} {AccountId Public β : Type} [DecidableEq AccountId]

/-! ## Votes that cannot be refused -/

/-- The members of `accounts` can vote for `o`, and nobody else has. -/
structure State.Ready (accounts : Finset AccountId) (o : Observation AccountId)
    (s : State cfg AccountId β) : Prop where
  wellFormed : s.WellFormed
  inRange : s.InRange o
  hasRoom : s.HasRoom o
  voters : s.book o ⊆ accounts

variable {accounts : Finset AccountId} {o : Observation AccountId} {s : State cfg AccountId β}

variable {E : Electorate AccountId}

/-- A vote for `o` brings it into effect, or is entered without making a quorum. -/
theorem ready_step {bridge : BridgeInterface AccountId β} {x : Vote AccountId}
    {s' : State cfg AccountId β} {os : List (Observation AccountId)}
    (hstep : VoteStep bridge x.lpos x.validatorId x.observation s s' os)
    (hx : x.observation = o) (ho : o.IsNotification) (hbacks : Backs E x.lpos)
    (htotal : 3 * E.total < 2 ^ 128) (hcard : accounts.card ≤ cfg.maxValidators)
    (hv : x.validatorId ∈ accounts) (hs : s.Ready accounts o) :
    o ∈ os ∨ s'.Ready accounts o ∧ s'.book o = insert x.validatorId (s.book o) ∧
      ¬ E.Quorum (s'.book o) := by
  subst hx
  obtain ⟨obs, vals, hreg, ⟨hpasses, rfl, rfl⟩ | ⟨-, -, rfl⟩⟩ := hstep.of_accepted ho hs.inRange
    hs.hasRoom (hs.wellFormed.voter_isSome hs.voters hcard hv) hbacks.activeTotalStake
  · have hbook : (s.withVote x.observation obs vals).book x.observation
        = insert x.validatorId (s.book x.observation) := by
      rw [book_withVote hreg, Book.cast_self]
    have hroom : (s.withVote x.observation obs vals).HasRoom x.observation := by
      refine Or.inl ?_
      show x.observation ∈ (Function.update s.observations _ obs _).val
      rw [Function.update_self]
      exact (BoundedVec.mem_of_tryPushAbsent hreg.observations _).mpr (Or.inl rfl)
    refine Or.inr ⟨⟨wellFormed_withVote hs.wellFormed hreg, hs.inRange, hroom, ?_⟩, hbook, ?_⟩
    · rw [hbook]
      exact Finset.insert_subset hv hs.voters
    · rwa [hbook, ← hbacks.passes_iff htotal hs.wellFormed]
  · exact Or.inl (List.mem_singleton.mpr rfl)

/-- The run lemma: after votes for `o`, it took effect, or the book holds all of the voters and they
are no quorum. -/
theorem ready_run (bridge : BridgeInterface AccountId β) (ho : o.IsNotification)
    (htotal : 3 * E.total < 2 ^ 128) (hcard : accounts.card ≤ cfg.maxValidators)
    (hs : s.Ready accounts o) (xs : List (Vote AccountId))
    (hxs : ∀ x ∈ xs, x.observation = o ∧ Backs E x.lpos ∧ x.validatorId ∈ accounts) :
    o ∈ (voteMachine bridge).log xs s ∨ xs = [] ∨
      (∀ x ∈ xs, x.validatorId ∈ ((voteMachine bridge).run xs s).book o) ∧
        ¬ E.Quorum (((voteMachine bridge).run xs s).book o) := by
  have halong : (voteMachine bridge).Along
      (fun _ x => x.observation = o ∧ Backs E x.lpos ∧ x.validatorId ∈ accounts) xs s :=
    (voteMachine bridge).along_of_forall hxs s
  have h := (voteMachine bridge).invariant (s := s)
    (I := fun xs t os => o ∈ os ∨ t.Ready accounts o ∧
      (∀ x ∈ xs, x.validatorId ∈ t.book o) ∧ (xs = [] ∨ ¬ E.Quorum (t.book o)))
    (Or.inr ⟨hs, by simp, Or.inl rfl⟩) ?_ xs halong
  · rcases h with h | ⟨-, hvoted, hempty | hquorum⟩
    · exact Or.inl h
    · exact Or.inr (Or.inl hempty)
    · exact Or.inr (Or.inr ⟨hvoted, hquorum⟩)
  · intro xs t os x ih hx
    rcases ih with h | ⟨ht, hvoted, -⟩
    · exact Or.inl (List.mem_append_left _ h)
    · rcases ready_step (voteMachine_step bridge x t) hx.1 ho hx.2.1 htotal hcard hx.2.2 ht with
        h | ⟨ht', hbook, hquorum⟩
      · exact Or.inl (List.mem_append_right _ h)
      · refine Or.inr ⟨ht', ?_, Or.inr hquorum⟩
        intro y hy
        rw [hbook, Finset.mem_insert]
        rcases List.mem_append.mp hy with hy | hy
        · exact Or.inr (hvoted y hy)
        · exact Or.inl (congrArg _ (List.mem_singleton.mp hy))

/-! ## A quorum is not blocked -/

/-- The call is counted for the account `v`, under the stakes of `E`, and reports `o` alone. -/
structure Call.ReportsOnly (c : Call Public AccountId) (E : Electorate AccountId) (v : AccountId)
    (o : Observation AccountId) : Prop where
  backs : Backs E c.lpos
  validatorId : c.validatorId = some v
  observations : c.payload.observations = [o]

omit [DecidableEq AccountId] in
theorem Call.ReportsOnly.votes {c : Call Public AccountId} {v : AccountId}
    (h : c.ReportsOnly E v o) : c.votes = [⟨c.lpos, v, o⟩] := by
  unfold Call.votes
  rw [h.validatorId, h.observations]
  rfl

/--
**A quorum brings a notification into effect, as long as it can be registered.**

`earlier` are any calls since genesis. In the state they leave, the notification `o` is inside the
window (at the counter, for one), and it is registered or there is room to register it. When each
member of a quorum `H` reports it, in whatever order and however often, it takes effect.
-/
theorem quorum_brings_into_effect (bridge : BridgeInterface AccountId β)
    (anchorContract : List UInt8) (genesis : List (AccountId × Nat)) (b : β)
    (earlier later : List (Call Public AccountId)) (ho : o.IsNotification)
    (htotal : 3 * E.total < 2 ^ 128) {H : Finset AccountId} (hH : E.Quorum H)
    (hcard : accounts.card ≤ cfg.maxValidators)
    (hvoters : ∀ c ∈ earlier ++ later, ∀ v ∈ c.validatorId, v ∈ accounts)
    (hs : s = (callMachine bridge).run earlier (genesisBuild cfg anchorContract genesis b))
    (hrange : s.InRange o) (hroom : s.HasRoom o)
    (hlater : ∀ c ∈ later, ∃ v ∈ H, c.ReportsOnly E v o)
    (hall : ∀ v ∈ H, ∃ c ∈ later, c.ReportsOnly E v o) :
    o ∈ (callMachine bridge).log later s := by
  -- the voters of the book all voted in an earlier call
  have hready : s.Ready accounts o := by
    subst hs
    rw [callMachine_run] at hrange hroom ⊢
    refine ⟨wellFormed_run bridge (wellFormed_genesis ..) _, hrange, hroom, ?_⟩
    intro v hv
    rcases voters_cast_run bridge _ _ v o hv with hstart | ⟨x, hx, rfl, -⟩
    · simp [State.book, genesisBuild] at hstart
    · obtain ⟨c, hc, hxc⟩ := List.mem_flatMap.mp hx
      exact hvoters c (List.mem_append_left _ hc) _ (Call.mem_votes.mp hxc).2.1
  have hxs : ∀ x ∈ later.flatMap Call.votes,
      x.observation = o ∧ Backs E x.lpos ∧ x.validatorId ∈ accounts := by
    intro x hx
    obtain ⟨c, hc, hxc⟩ := List.mem_flatMap.mp hx
    obtain ⟨v, -, hreports⟩ := hlater c hc
    rw [hreports.votes, List.mem_singleton] at hxc
    subst hxc
    exact ⟨rfl, hreports.backs,
      hvoters c (List.mem_append_right _ hc) v hreports.validatorId⟩
  have hvotes : ∀ v ∈ H, ∃ x ∈ later.flatMap Call.votes, x.validatorId = v := by
    intro v hv
    obtain ⟨c, hc, hreports⟩ := hall v hv
    exact ⟨⟨c.lpos, v, o⟩, List.mem_flatMap.mpr ⟨c, hc, by rw [hreports.votes]; simp⟩, rfl⟩
  rw [callMachine_log]
  rcases ready_run bridge ho htotal hcard hready _ hxs with h | hempty | ⟨hvoted, hquorum⟩
  · exact h
  · -- without votes `H` is empty, and no quorum
    exfalso
    have hnone : H = ∅ := by
      refine Finset.eq_empty_of_forall_notMem fun v hv => ?_
      obtain ⟨x, hx, -⟩ := hvotes v hv
      rw [hempty] at hx
      cases hx
    rw [hnone] at hH
    unfold Electorate.Quorum Electorate.stake weightOf at hH
    simp at hH
  · refine absurd (hH.mono ?_) hquorum
    intro v hv
    obtain ⟨x, hx, rfl⟩ := hvotes v hv
    exact hvoted x hx

namespace Sample

/-- The reports of index 0 by three of four validators. -/
def reports : List (Call Unit Nat) :=
  [callOf 4 0 [burnAt 0], callOf 4 1 [burnAt 0], callOf 4 2 [burnAt 0]]

/-- Burns at index 0 that the mainchain does not know. -/
def junk (n : Nat) : List (Observation Nat) :=
  (List.range n).map fun i => .burn ⟨0, [], 0, i + 1⟩

theorem quorum_of_three : (electorate 4).Quorum {0, 1, 2} := by
  unfold Electorate.Quorum
  decide

theorem reportsOnly (v : UInt8) (hv : v.toNat < 4) :
    (callOf 4 v [burnAt 0]).ReportsOnly (electorate 4) v.toNat (burnAt 0) :=
  ⟨backs_electorate 4, by simp [Call.validatorId, callOf, equalStakes, Option.filter, hv], rfl⟩

theorem all_report : ∀ v ∈ ({0, 1, 2} : Finset Nat),
    ∃ c ∈ reports, c.ReportsOnly (electorate 4) v (burnAt 0) := by
  intro v hv
  simp only [Finset.mem_insert, Finset.mem_singleton] at hv
  rcases hv with rfl | rfl | rfl
  · exact ⟨_, by simp [reports], reportsOnly 0 (by decide)⟩
  · exact ⟨_, by simp [reports], reportsOnly 1 (by decide)⟩
  · exact ⟨_, by simp [reports], reportsOnly 2 (by decide)⟩

theorem only_reports : ∀ c ∈ reports,
    ∃ v ∈ ({0, 1, 2} : Finset Nat), c.ReportsOnly (electorate 4) v (burnAt 0) := by
  intro c hc
  simp only [reports, List.mem_cons, List.not_mem_nil, or_false] at hc
  rcases hc with rfl | rfl | rfl
  · exact ⟨0, by decide, reportsOnly 0 (by decide)⟩
  · exact ⟨1, by decide, reportsOnly 1 (by decide)⟩
  · exact ⟨2, by decide, reportsOnly 2 (by decide)⟩

end Sample

/-- The fourth validator has registered five other burns at index 0; the other three bring theirs
into effect. -/
theorem quorum_brings_into_effect_beside_junk :
    Sample.burnAt 0 ∈ (callMachine Sample.idleBridge).log Sample.reports
      ((callMachine Sample.idleBridge).run [Sample.callOf 4 3 (Sample.junk 5)]
        (genesisBuild Sample.config [] [] ())) := by
  have hcard : ({0, 1, 2, 3} : Finset Nat).card ≤ Sample.config.maxValidators := by decide
  exact quorum_brings_into_effect Sample.idleBridge [] [] () _ Sample.reports (by decide)
    (by decide) Sample.quorum_of_three hcard (by decide) rfl (by decide) (Or.inr (by decide))
    Sample.only_reports Sample.all_report

/-- The fourth validator has registered a hundred other burns at index 0, and nothing the other
three report there is accepted. Nor is it when the window has no room for any index. -/
theorem quorum_blocked :
    3 * (Sample.electorate 4).total < 2 ^ 128 ∧ (Sample.electorate 4).Quorum {0, 1, 2} ∧
      (∀ v ∈ ({0, 1, 2} : Finset Nat), ∃ c ∈ Sample.reports,
        c.ReportsOnly (Sample.electorate 4) v (Sample.burnAt 0)) ∧
      (∀ c ∈ Sample.reports, ∃ v ∈ ({0, 1, 2} : Finset Nat),
        c.ReportsOnly (Sample.electorate 4) v (Sample.burnAt 0)) ∧
      Sample.burnAt 0 ∉ (callMachine Sample.idleBridge).log Sample.reports
        ((callMachine Sample.idleBridge).run [Sample.callOf 4 3 (Sample.junk 100)]
          (genesisBuild Sample.config [] [] ())) ∧
      Sample.burnAt 0 ∉ (callMachine Sample.idleBridge).log Sample.reports
        (genesisBuild ⟨0, 5, 0⟩ [] [] ()) :=
  ⟨by decide, Sample.quorum_of_three, Sample.all_report, Sample.only_reports, by decide +kernel,
    by decide⟩

end OctopusPallets.Appchain
