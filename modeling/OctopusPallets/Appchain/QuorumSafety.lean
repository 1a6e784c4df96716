import OctopusPallets.Lpos.Storage
import OctopusPallets.Appchain.VoteBook

/-!
# Quorum safety

What took effect was reported, field by field the same, by current validators who hold more than
two thirds of the stake of the era in which it took effect. Nothing is assumed of the calls: the
sessions and the stakes may be different at each of them.
-/

namespace OctopusPallets.Appchain

open Infra Infra.Dispatch Infra.FixedWidth

variable {cfg : Config} {AccountId Public β : Type} [DecidableEq AccountId]

/-- A call of `submit_observations`, with what the session pallet and the lpos pallet hold when it
is dispatched. -/
structure Submission (Public AccountId : Type) where
  session : Lpos.Session AccountId
  storage : Lpos.Storage AccountId
  payload : ObservationsPayload Public AccountId

def Submission.call (c : Submission Public AccountId) : Call Public AccountId :=
  ⟨Lpos.lposInterface c.session c.storage, c.payload⟩

/-- The payload carries `o`, and its key belongs to the current validator `v`. -/
structure Submission.Reports (c : Submission Public AccountId) (v : AccountId)
    (o : Observation AccountId) : Prop where
  isActive : c.session.isActiveValidator keyType c.payload.keyData = some v
  mem : o ∈ c.payload.observations

theorem Submission.Reports.mem_validators {c : Submission Public AccountId} {v : AccountId}
    {o : Observation AccountId} (h : c.Reports v o) : v ∈ c.session.validators :=
  (Lpos.Session.keyOwner_of_isActiveValidator h.isActive).1

theorem Submission.reports_of_mem_votes {c : Submission Public AccountId} {x : Vote AccountId}
    (hx : x ∈ c.call.votes) : c.Reports x.validatorId x.observation :=
  ⟨(Call.mem_votes.mp hx).2.1, (Call.mem_votes.mp hx).2.2⟩

/-- Only the observation voted for takes effect, and only if its voters pass the test. -/
theorem VoteStep.passes_of_mem {bridge : BridgeInterface AccountId β}
    {lpos : LposInterface AccountId} {v : AccountId} {o o' : Observation AccountId}
    {s s' : State cfg AccountId β} {os : List (Observation AccountId)}
    (hstep : VoteStep bridge lpos v o s s' os) (ho' : o' ∈ os) :
    o' = o ∧ s.Passes lpos v o := by
  cases hstep with
  | refused _ => cases ho'
  | counted _ _ _ => cases ho'
  | installed hreg htotal hquorum _ _ =>
    exact ⟨List.mem_singleton.mp ho', (hreg.passes_iff htotal).mpr hquorum⟩
  | relayed hreg htotal hquorum _ _ =>
    exact ⟨List.mem_singleton.mp ho', (hreg.passes_iff htotal).mpr hquorum⟩

/-- The stake that a test adds up is that of entries of the active era. -/
theorem two_thirds_of_passes {session : Lpos.Session AccountId} {storage : Lpos.Storage AccountId}
    {s : State cfg AccountId β} {v : AccountId} {o : Observation AccountId}
    (hfit : ∀ era ∈ storage.activeEra, 3 * storage.erasTotalStake era.index < 2 ^ 128)
    (h : s.Passes (Lpos.lposInterface session storage) v o) :
    ∃ era ∈ storage.activeEra, 2 * storage.erasTotalStake era.index
      < 3 * ((s.votersWith v o).map (storage.stakeIn era.index)).sum := by
  obtain ⟨T, hT, htest⟩ := State.passes_iff.mp h
  obtain ⟨era, hera, rfl⟩ := Option.map_eq_some_iff.mp hT
  refine ⟨era, hera, ?_⟩
  have hlt := twoThirds_sound (by have := hfit era hera; omega) htest
  have hstake : (Lpos.lposInterface session storage).activeStakeOf = storage.stakeIn era.index := by
    funext who
    simp [Lpos.lposInterface, hera]
  have hle := stakeOf_le (Lpos.lposInterface session storage) (s.votersWith v o)
  rw [hstake] at hle
  omega

/-- Everyone whose vote is counted reported the observation, in this call or an earlier one. -/
theorem voters_reported (bridge : BridgeInterface AccountId β) (anchorContract : List UInt8)
    (genesis : List (AccountId × Nat)) (b : β) (cs : List (Submission Public AccountId))
    (c : Submission Public AccountId) {xs ys : List (Vote AccountId)} {x : Vote AccountId}
    (hvotes : c.call.votes = xs ++ x :: ys) {w : AccountId}
    (hw : w ∈ ((voteMachine bridge).run
      ((cs.map Submission.call).flatMap Call.votes ++ xs)
      (genesisBuild cfg anchorContract genesis b)).votersWith x.validatorId x.observation) :
    ∃ c' ∈ cs ++ [c], c'.Reports w x.observation := by
  have hself : x ∈ c.call.votes := by rw [hvotes]; simp
  unfold State.votersWith at hw
  have hcases : w ∈ (((voteMachine bridge).run
      ((cs.map Submission.call).flatMap Call.votes ++ xs)
      (genesisBuild cfg anchorContract genesis b)).observing x.observation).val ∨
        w = x.validatorId := by
    split at hw
    · exact Or.inl hw
    · rwa [List.mem_append, List.mem_singleton] at hw
  rcases hcases with hold | rfl
  · rcases voters_cast_run bridge _ _ w x.observation (State.mem_book.mpr hold) with
      hgenesis | ⟨y, hy, rfl, hobs⟩
    · simp [State.book, genesisBuild] at hgenesis
    · rw [← hobs]
      rcases List.mem_append.mp hy with hy | hy
      · obtain ⟨_, hcall, hy⟩ := List.mem_flatMap.mp hy
        obtain ⟨c', hc', rfl⟩ := List.mem_map.mp hcall
        exact ⟨c', List.mem_append_left _ hc', Submission.reports_of_mem_votes hy⟩
      · have hmem : y ∈ c.call.votes := by rw [hvotes]; exact List.mem_append_left _ hy
        exact ⟨c, by simp, Submission.reports_of_mem_votes hmem⟩
  · exact ⟨c, by simp, Submission.reports_of_mem_votes hself⟩

/--
**Behind every effect stands a quorum that reported it.**

Whatever was submitted before, when the call `c` makes `o` take effect there are accounts, no two
the same, that were each a current validator at a call up to `c` whose payload contains `o`, and
that hold more than two thirds of the stake of the era active at `c`.
-/
theorem quorum_behind_effect (bridge : BridgeInterface AccountId β) (anchorContract : List UInt8)
    (genesis : List (AccountId × Nat)) (b : β) (cs : List (Submission Public AccountId))
    (c : Submission Public AccountId) (o : Observation AccountId)
    (hfit : ∀ era ∈ c.storage.activeEra, 3 * c.storage.erasTotalStake era.index < 2 ^ 128)
    (heffect : o ∈ ((callMachine bridge).step c.call ((callMachine bridge).run
      (cs.map Submission.call) (genesisBuild cfg anchorContract genesis b))).2) :
    ∃ voters : List AccountId, voters.Nodup ∧
      (∀ v ∈ voters, ∃ c' ∈ cs ++ [c], v ∈ c'.session.validators ∧ c'.Reports v o) ∧
      ∃ era ∈ c.storage.activeEra, 2 * c.storage.erasTotalStake era.index
        < 3 * (voters.map (c.storage.stakeIn era.index)).sum := by
  have hlog : o ∈ (voteMachine bridge).log c.call.votes ((callMachine bridge).run
    (cs.map Submission.call) (genesisBuild cfg anchorContract genesis b)) := heffect
  obtain ⟨xs, x, ys, hvotes, ho⟩ := Machine.mem_log _ hlog
  rw [callMachine_run, ← Machine.run_append] at ho
  -- the state in which the vote `x` of the call finds its quorum
  let t := (voteMachine bridge).run ((cs.map Submission.call).flatMap Call.votes ++ xs)
    (genesisBuild cfg anchorContract genesis b)
  have ht : t.WellFormed := wellFormed_run bridge (wellFormed_genesis ..) _
  obtain ⟨rfl, hpasses⟩ := (voteMachine_step bridge x t).passes_of_mem ho
  have hlpos : x.lpos = Lpos.lposInterface c.session c.storage :=
    (Call.mem_votes.mp (by rw [hvotes]; simp : x ∈ c.call.votes)).1
  rw [hlpos] at hpasses
  refine ⟨t.votersWith x.validatorId x.observation, (ht.votersWith _ _).1, ?_,
    two_thirds_of_passes hfit hpasses⟩
  intro w hw
  obtain ⟨c', hc', hreports⟩ := voters_reported bridge anchorContract genesis b cs c hvotes hw
  exact ⟨c', hc', hreports.mem_validators, hreports⟩

namespace Sample

/-- The validators below `n`, each with the stake 1 in era 0. -/
def session (n : Nat) : Lpos.Session Nat :=
  ⟨List.range n, fun _ keyData => keyData.head?.map UInt8.toNat, some⟩

def storage (n : Nat) : Lpos.Storage Nat :=
  { Lpos.genesisBuild 84 0 with
    activeEra := some ⟨0, 1, none⟩
    erasStakers := fun _ => (List.range n).foldl (fun stakes v => stakes.insert v 1) ∅
    erasTotalStake := fun _ => n }

def submissionOf (n : Nat) (v : UInt8) (os : List (Observation Nat)) : Submission Unit Nat :=
  ⟨session n, storage n, ⟨(), [v], 0, os⟩⟩

end Sample

/-- The third of four equal validators to report index 0 makes the quorum. -/
theorem quorum_behind_effect_of_third :
    ∃ voters : List Nat, voters.Nodup ∧
      (∀ v ∈ voters, ∃ c' ∈ [Sample.submissionOf 4 0 [Sample.burnAt 0],
          Sample.submissionOf 4 1 [Sample.burnAt 0]] ++ [Sample.submissionOf 4 2 [Sample.burnAt 0]],
        v ∈ c'.session.validators ∧ c'.Reports v (Sample.burnAt 0)) ∧
      ∃ era ∈ (Sample.storage 4).activeEra, 2 * (Sample.storage 4).erasTotalStake era.index
        < 3 * (voters.map ((Sample.storage 4).stakeIn era.index)).sum :=
  @quorum_behind_effect Sample.config Nat Unit Unit _ Sample.idleBridge [] [] () _
    (Sample.submissionOf 4 2 [Sample.burnAt 0]) (Sample.burnAt 0) (by decide) (by decide)

end OctopusPallets.Appchain
