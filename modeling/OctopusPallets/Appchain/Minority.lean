import Mathlib.Algebra.BigOperators.Group.Finset.Piecewise
import OctopusPallets.Appchain.History

/-!
# A byzantine minority

Validators with less than a third of the stake submit whatever they like; the others report slices
of the history. Every quorum contains one of the others, so only notifications of the history take
effect. The order in which they do is not protected by the quorum.
-/

namespace OctopusPallets.Appchain

open Infra Infra.Dispatch Infra.FixedWidth

variable {cfg : Config} {AccountId Public β : Type} [DecidableEq AccountId]

/-- A call counted for a validator outside `byzantine` carries a slice of the history. -/
def HonestOutside (H : History AccountId) (byzantine : Finset AccountId)
    (s : State cfg AccountId β) (c : Call Public AccountId) : Prop :=
  ∀ v, c.validatorId = some v → v ∉ byzantine → HonestSlice H s c.payload.observations

/-- What an honest validator votes for is in the history. -/
theorem contains_of_honest_vote {bridge : BridgeInterface AccountId β} {H : History AccountId}
    {byzantine : Finset AccountId} {cs : List (Call Public AccountId)}
    {s₀ : State cfg AccountId β}
    (hhonest : (callMachine bridge).Along (HonestOutside H byzantine) cs s₀)
    {x : Vote AccountId} (hx : x ∈ cs.flatMap Call.votes) (hv : x.validatorId ∉ byzantine) :
    H.Contains x.observation := by
  obtain ⟨c, hc, hxc⟩ := List.mem_flatMap.mp hx
  obtain ⟨-, hvalidator, ho⟩ := Call.mem_votes.mp hxc
  obtain ⟨t, hhonest⟩ := hhonest.exists_of_mem hc
  obtain ⟨m, k, -, -, hslice⟩ := hhonest _ hvalidator hv
  rw [hslice] at ho
  exact History.contains_of_mem_slice ho

section Electorate

variable {E : Electorate AccountId} {byzantine : Finset AccountId}

/-- **A quorum against a minority: some honest validator cast a vote for what took effect.** -/
theorem honest_vote_of_effect {bridge : BridgeInterface AccountId β}
    (htotal : 3 * E.total < 2 ^ 128) (hminority : E.Minority byzantine)
    {s₀ : State cfg AccountId β} (hs₀ : s₀.WellFormed) (hempty : ∀ o, s₀.book o = ∅)
    {xs : List (Vote AccountId)} (hbacks : ∀ x ∈ xs, Backs E x.lpos) {o : Observation AccountId}
    (ho : o ∈ notifications ((voteMachine bridge).log xs s₀)) :
    ∃ x ∈ xs, x.validatorId ∉ byzantine ∧ x.observation = o := by
  obtain ⟨ys, x, zs, rfl, rfl, hrelays⟩ := relays_of_mem_log ho
  have hx : x ∈ ys ++ x :: zs := by simp
  have hquorum := ((hbacks x hx).passes_iff htotal (wellFormed_run bridge hs₀ ys) x.validatorId
    x.observation).mp hrelays.passes
  obtain ⟨w, hw, hhonest⟩ := hquorum.exists_not_mem hminority
  rcases Finset.mem_insert.mp hw with rfl | hw
  · exact ⟨x, hx, hhonest, rfl⟩
  · rcases voters_cast_run bridge s₀ ys w x.observation hw with hstart | ⟨y, hy, rfl, hobs⟩
    · rw [hempty] at hstart
      exact absurd hstart (Finset.notMem_empty w)
    · exact ⟨y, List.mem_append_left _ hy, hhonest, hobs⟩

/--
**Against a byzantine minority the history is executed in order exactly when the quorums come in
order.**

Whatever the minority submits, and however its calls interleave with the honest ones, the
notifications that took effect from genesis are the history up to `NextNotificationId` if and only
if no quorum was completed ahead of the counter.
-/
theorem minority_executes_history_iff (bridge : BridgeInterface AccountId β)
    (anchorContract : List UInt8) (genesis : List (AccountId × Nat)) (b : β)
    (H : History AccountId) (htotal : 3 * E.total < 2 ^ 128) (hminority : E.Minority byzantine)
    (cs : List (Call Public AccountId)) (hbacks : ∀ c ∈ cs, Backs E c.lpos)
    (hhonest : (callMachine bridge).Along (HonestOutside H byzantine) cs
      (genesisBuild cfg anchorContract genesis b)) :
    notifications ((callMachine bridge).log cs (genesisBuild cfg anchorContract genesis b))
        = (List.range ((callMachine bridge).run cs
            (genesisBuild cfg anchorContract genesis b)).nextNotificationId).map H.notification ↔
      (voteMachine bridge).Along InOrder (cs.flatMap Call.votes)
        (genesisBuild cfg anchorContract genesis b) := by
  rw [callMachine_log, callMachine_run]
  refine executes_history_iff bridge H rfl _ ?_
  intro o ho
  -- a quorum has an honest member, and honest calls hold only notifications of the history
  have hbacked : ∀ x ∈ cs.flatMap Call.votes, Backs E x.lpos := by
    intro x hx
    obtain ⟨c, hc, hxc⟩ := List.mem_flatMap.mp hx
    rw [(Call.mem_votes.mp hxc).1]
    exact hbacks c hc
  obtain ⟨x, hx, hv, rfl⟩ := honest_vote_of_effect htotal hminority (wellFormed_genesis ..)
    (fun _ => rfl) hbacked ho
  exact contains_of_honest_vote hhonest hx hv

end Electorate

namespace Sample

/-- The electorate of `n` validators with a stake of one each. -/
def electorate (n : Nat) : Electorate Nat where
  weight v := if v < n then 1 else 0
  total := n
  sum_le S := by
    have hsub : S.filter (· < n) ⊆ Finset.range n := by
      intro v hv
      exact Finset.mem_range.mpr (Finset.mem_filter.mp hv).2
    have hcard := Finset.card_le_card hsub
    rw [Finset.card_range] at hcard
    unfold weightOf
    rwa [Finset.sum_ite, Finset.sum_const_zero, Nat.add_zero, Finset.sum_const, nsmul_eq_mul,
      Nat.mul_one]

theorem backs_electorate (n : Nat) : Backs (electorate n) (equalStakes n) := ⟨rfl, rfl⟩

/-- Two honest validators report the indices 0 and 1, and a byzantine one reports only index 1. -/
def aheadOfCounter : List (Call Unit Nat) :=
  [callOf 4 0 [burnAt 0, burnAt 1], callOf 4 1 [burnAt 0, burnAt 1], callOf 4 2 [burnAt 1]]

/-- The third validator is honest as well. -/
def inOrder : List (Call Unit Nat) :=
  [callOf 4 0 [burnAt 0, burnAt 1], callOf 4 1 [burnAt 0, burnAt 1],
    callOf 4 2 [burnAt 0, burnAt 1]]

end Sample

/-- A minority of one in four completes the quorum of index 1 while the counter is at 0, and index
1 takes effect without index 0. -/
theorem minority_executes_out_of_order :
    3 * (Sample.electorate 4).total < 2 ^ 128 ∧ (Sample.electorate 4).Minority {2} ∧
      (∀ c ∈ Sample.aheadOfCounter, Backs (Sample.electorate 4) c.lpos) ∧
      (callMachine Sample.idleBridge).Along (HonestOutside Sample.burns {2}) Sample.aheadOfCounter
        (genesisBuild Sample.config [] [] ()) ∧
      ¬ notifications ((callMachine Sample.idleBridge).log Sample.aheadOfCounter
          (genesisBuild Sample.config [] [] ()))
        = (List.range ((callMachine Sample.idleBridge).run Sample.aheadOfCounter
            (genesisBuild Sample.config [] [] ())).nextNotificationId).map
              Sample.burns.notification := by
  refine ⟨by decide, by unfold Electorate.Minority; decide, ?_, ⟨?_, ?_, ?_, trivial⟩, by decide⟩
  · intro c hc
    simp only [Sample.aheadOfCounter, List.mem_cons, List.not_mem_nil, or_false] at hc
    rcases hc with rfl | rfl | rfl <;> exact Sample.backs_electorate 4
  · exact fun _ _ _ => Sample.honest_slice _
  · exact fun _ _ _ => Sample.honest_slice _
  · intro v hv hnot
    rw [← Option.some.inj hv] at hnot
    exact absurd (Finset.mem_singleton.mpr rfl) hnot

/-- With the same byzantine validator reporting in order, the history is executed. -/
theorem minority_executes_history_in_order :
    notifications ((callMachine Sample.idleBridge).log Sample.inOrder
        (genesisBuild Sample.config [] [] ()))
      = (List.range ((callMachine Sample.idleBridge).run Sample.inOrder
          (genesisBuild Sample.config [] [] ())).nextNotificationId).map
            Sample.burns.notification := by
  have hminority : (Sample.electorate 4).Minority {2} := by
    unfold Electorate.Minority
    decide
  refine (minority_executes_history_iff Sample.idleBridge [] [] () Sample.burns (by decide)
    hminority Sample.inOrder ?_ ?_).mpr (by decide)
  · intro c hc
    simp only [Sample.inOrder, List.mem_cons, List.not_mem_nil, or_false] at hc
    rcases hc with rfl | rfl | rfl <;> exact Sample.backs_electorate 4
  · exact ⟨fun _ _ _ => Sample.honest_slice _, fun _ _ _ => Sample.honest_slice _,
      fun _ _ _ => Sample.honest_slice _, trivial⟩

end OctopusPallets.Appchain
