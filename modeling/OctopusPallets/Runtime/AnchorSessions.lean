import OctopusPallets.Lpos.SessionValidators
import OctopusPallets.Runtime.Provenance

/-!
# Who validates a session

The sets that take effect are those of the anchor contract, and the set of a session is that of the
active era. Together: each session is run by a set of the contract, and the votes in it are counted
with the stakes of this set.

* `Staffed.step` — every step keeps the sets of the sessions those of the contract
* `sessions_rooted` — over every run
-/

namespace OctopusPallets.Runtime

open Infra Infra.Dispatch Infra.FixedWidth Infra.Overwrite

variable {AccountId : Type} [DecidableEq AccountId] {R : Config AccountId}

/-! ## The sets of the sessions -/

/-- The set that `historical` is given in a step. -/
def Step.sessionSets (s : State R) (i : Step R) (_ : State R) : List (Lpos.SessionSet AccountId) :=
  ((Lpos.historicalMachine R.lpos).step (i.chainCall s) s.chain).2

/-- The sets that `historical` is given by the genesis and by the steps. -/
def Genesis.sessionSets (g : Genesis R) (s₀ : State R) (steps : List (Step R)) :
    List (Lpos.SessionSet AccountId) :=
  (g.lpos.historicalChain.map Prod.snd).getD [] ++
    ((machine R).observing Step.sessionSets).log steps s₀

/-- The active era is not cleared. -/
def Step.SparesActive (s : State R) (i : Step R) : Prop := (i.chainCall s).SparesActive s.chain

instance (s : State R) (i : Step R) : Decidable (i.SparesActive s) :=
  inferInstanceAs (Decidable ((i.chainCall s).SparesActive s.chain))

/-! ## One step -/

/-- The sets are those of the plans, and the plans those of the anchor contract. -/
structure Staffed (A : Appchain.Anchor AccountId) (faulty : Finset AccountId) (s : State R)
    (sets : List (Lpos.SessionSet AccountId)) (plans : List (Lpos.Plan AccountId)) : Prop where
  rooted : Rooted A faulty s plans
  manned : Lpos.Manned s.chain plans
  sets : sets = plans.map Lpos.Plan.set

namespace Staffed

variable {A : Appchain.Anchor AccountId} {faulty : Finset AccountId} {s : State R}
  {sets : List (Lpos.SessionSet AccountId)} {plans : List (Lpos.Plan AccountId)}

/-- **The step lemma.** -/
theorem step (h : Staffed A faulty s sets plans) (hsets : ∀ setId, Outvotes (A.plan setId) faulty)
    {i : Step R} (hrange : i.SessionInRange s) (hi : i.Honest A faulty s)
    (hspares : i.SparesActive s) :
    Staffed A faulty (s.step i).1 (sets ++ i.sessionSets s (s.step i).1)
      (plans ++ (i.chainCall s).plans s.chain (s.step i).1.chain) := by
  have hcall := Step.chainCall_inRange hrange
  have hmanned := h.manned.step hcall hspares
  have hreturned := h.manned.returned hcall
  rw [← s.step_chain i] at hmanned hreturned
  refine ⟨h.rooted.step hsets hrange hi, hmanned, ?_⟩
  rw [h.sets, List.map_append]
  exact congrArg _ hreturned

/-- **The set of the session**, the exposures of its members and the stakes of their votes are those
of one set of the anchor contract. -/
theorem session (h : Staffed A faulty s sets plans)
    (hsets : ∀ setId, Outvotes (A.plan setId) faulty) :
    ∃ setId < s.appchain.nextSetId,
      Lpos.setOf sets s.session
        = some ((A.plan setId).map fun v => (v.1, held (A.plan setId) v.1)) ∧
      (∀ v, Lpos.exposureOf s.lpos v = some (held (A.plan setId) v)) ∧
      Appchain.Backs (electorateOf (A.plan setId)) s.stakes := by
  obtain ⟨p, hp, hset, hactive⟩ := h.manned.running
  obtain ⟨setId, hlt, hvalidators⟩ := h.rooted.plans p hp
  have hentry := h.manned.recorded.kept p hp (Or.inl hactive)
  have hholds : s.timeline.Holds p :=
    ⟨congrArg (fun entry => entry.2.1) hentry, congrArg (fun entry => entry.2.2) hentry⟩
  have hfits := (hsets setId).fits
  refine ⟨setId, hlt, ?_⟩
  rw [← hvalidators] at hfits ⊢
  have hweights : 3 * p.weights < 2 ^ 128 := hfits
  have hbacks : Appchain.Backs (electorate p) s.stakes := State.backs hactive hholds (by omega)
  obtain ⟨activeEra, hactiveEra, hindex⟩ := Lpos.State.exists_activeEra hactive
  refine ⟨h.sets ▸ hset, fun v => ?_, hbacks⟩
  have hera : s.lpos.activeEra = some activeEra := hactiveEra
  unfold Lpos.exposureOf
  rw [hera, Option.map_some, hindex, State.stakeIn_of_holds hholds]

end Staffed

/-! ## Runs -/

theorem Genesis.staffed (g : Genesis R) (hkeeps : g.lpos.keepsPlanned = true) {s₀ : State R}
    (hstart : g.start = some s₀) {A : Appchain.Anchor AccountId} {faulty : Finset AccountId}
    (hgenesis : g.validators = A.plan 0) :
    Staffed A faulty s₀ (g.sessionSets s₀ []) (g.eras s₀ []) := by
  have hrooted : Rooted A faulty s₀ (g.eras s₀ []) := g.rooted hstart hgenesis
  obtain ⟨⟨c₀, os₀⟩, hchain, rfl⟩ := Option.map_eq_some_iff.mp hstart
  obtain ⟨sets₀, hsets₀⟩ := g.lpos.historicalChain_iff.mpr ⟨os₀, hchain⟩
  have heras : g.eras (g.state.withChain c₀) [] = g.lpos.plans c₀ := List.append_nil _
  have hsame : g.sessionSets (g.state.withChain c₀) [] = sets₀ := by
    unfold Genesis.sessionSets
    rw [hsets₀]
    exact List.append_nil _
  rw [heras] at hrooted ⊢
  rw [hsame]
  exact ⟨hrooted, g.lpos.manned hkeeps hchain, g.lpos.historical_sets hsets₀⟩

/--
**Every session is run by a set of the anchor contract.**

From a genesis that starts with set 0 of the anchor contract, in every run in which what is counted
for the accounts outside `faulty` is in the contract, root sets neither the counter of the sets nor
the list, and the active era is spared: as long as the faulty accounts hold at most two thirds of
each set, the validators of every session are those of a set of the contract. Their exposures are
their stakes in this set, and so are the stakes that their votes are counted with.
-/
theorem sessions_rooted (g : Genesis R) (hkeeps : g.lpos.keepsPlanned = true) {s₀ : State R}
    (hstart : g.start = some s₀) (A : Appchain.Anchor AccountId) (faulty : Finset AccountId)
    (hgenesis : g.validators = A.plan 0) (hsets : ∀ setId, Outvotes (A.plan setId) faulty)
    (steps : List (Step R))
    (hsteps : (machine R).Along
      (fun s i => i.SessionInRange s ∧ i.Honest A faulty s ∧ i.SparesActive s) steps s₀) :
    let s := (machine R).run steps s₀
    ∃ setId < s.appchain.nextSetId,
      Lpos.setOf (g.sessionSets s₀ steps) s.session
        = some ((A.plan setId).map fun v => (v.1, held (A.plan setId) v.1)) ∧
      (∀ v, Lpos.exposureOf s.lpos v = some (held (A.plan setId) v)) ∧
      Appchain.Backs (electorateOf (A.plan setId)) s.stakes := by
  have hrun : ∃ plans, Staffed A faulty (((machine R).observing Step.sessionSets).run steps s₀)
      (g.sessionSets s₀ steps) plans := by
    refine ((machine R).observing Step.sessionSets).invariant
      (P := fun s i => i.SessionInRange s ∧ i.Honest A faulty s ∧ i.SparesActive s)
      (I := fun _ s sets => ∃ plans,
        Staffed A faulty s ((g.lpos.historicalChain.map Prod.snd).getD [] ++ sets) plans)
      ⟨_, g.staffed hkeeps hstart hgenesis⟩ ?_ steps
      (((machine R).observing_along _ steps s₀).mpr hsteps)
    rintro _ s sets i ⟨plans, h⟩ ⟨hrange, hi, hspares⟩
    rw [← List.append_assoc]
    exact ⟨_, h.step hsets hrange hi hspares⟩
  rw [(machine R).observing_run] at hrun
  obtain ⟨plans, h⟩ := hrun
  exact h.session hsets

/-- In session 2 set 1 is running, which took effect in session 0. -/
theorem sessions_rooted_in_set_one :
    ∃ s₀, Sample.genesis.start = some s₀ ∧
      Appchain.Backs (electorateOf [(1, 11), (2, 5)])
        ((machine Sample.config).run Sample.nextSetActive s₀).stakes := by
  refine ⟨_, rfl, ?_⟩
  obtain ⟨setId, -, hset, -, hbacks⟩ := sessions_rooted Sample.genesis (by decide) rfl
    Sample.anchor {2} rfl Sample.anchor_outvotes Sample.nextSetActive (by decide)
  rw [Sample.anchor_plan] at hset hbacks
  by_cases hzero : setId = 0
  · rw [if_pos hzero] at hset
    exact absurd hset (by decide)
  · rwa [if_neg hzero] at hbacks

end OctopusPallets.Runtime
