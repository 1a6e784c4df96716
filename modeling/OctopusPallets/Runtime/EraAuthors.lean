import Mathlib.Data.List.Dedup
import OctopusPallets.Lpos.Authors
import OctopusPallets.Runtime.AnchorEras

/-!
# Payouts follow the authors

The validators of the mainchain are paid by their eras, and a message says whom of them to leave out.
From the set that the mainchain has sent to the message about its era: the set takes effect, it is
planned, it becomes active, its validators author blocks, and at the end the idle ones are named.

* `authored_run` — the active era runs its set, and its points are those of its authors
* `payouts_follow_authors` — whom the messages of a run leave out
-/

namespace OctopusPallets.Runtime

open Infra Infra.Dispatch Infra.FixedWidth

variable {AccountId : Type} [DecidableEq AccountId] {R : Config AccountId}

/-! ## The stakers of a set -/

namespace SameStakes

variable {stakers : AList fun _ : AccountId => Nat} {validators : List (AccountId × Nat)}

theorem mem_keys (h : SameStakes stakers validators) (v : AccountId) :
    v ∈ stakers.keys ↔ v ∈ validators.map Prod.fst := by
  rw [← AList.mem_keys, ← AList.lookup_isSome, h v, AList.lookup_isSome]
  exact Overwrite.mem_insertAll.trans (or_iff_left (AList.notMem_empty v))

theorem length_keys (h : SameStakes stakers validators) :
    stakers.keys.length = (validators.map Prod.fst).dedup.length := by
  refine List.Perm.length_eq ((List.perm_ext_iff_of_nodup stakers.keys_nodup
    (List.nodup_dedup _)).mpr fun v => ?_)
  rw [h.mem_keys, List.mem_dedup]

end SameStakes

/-! ## The authors of a run -/

/-- The authors of the blocks since the active era has started. -/
def Step.authors (authors : List AccountId) (s : State R) (i : Step R) (s' : State R) :
    List AccountId :=
  match i with
  | .noteAuthor author => authors ++ [author]
  | .rotate => if s'.timeline.activeIndex = s.timeline.activeIndex then authors else []
  | _ => authors

/-- The authors of the active era at the end of a run. -/
def eraAuthors (steps : List (Step R)) (s₀ : State R) : List AccountId :=
  (((machine R).remembering Step.authors).run steps (s₀, [])).2

theorem Step.authors_chain (authors : List AccountId) (s : State R) (i : Step R) (s' : State R) :
    i.authors authors s s' = (i.chainCall s).authors authors s.chain s'.chain := by
  cases i <;> rfl

theorem Anchored.chainCall_sparesActive {g : Genesis R} {s : State R}
    {sets : List (Appchain.ValidatorSet AccountId)} (h : Anchored g s sets)
    (hkeeps : R.lpos.keepsEraBefore g.historyDepth = true) {i : Step R} (hanchors : i.AnchorsEra s) :
    (i.chainCall s).SparesActive s.chain := by
  cases i with
  | rotate => exact h.sparesActive hkeeps
  | lpos origin call =>
    cases origin with
    | root =>
      cases call with
      | setHistoryDepth _ _ => exact hanchors.elim
      | forceSetEraPayout _ => trivial
    | signed _ | none => trivial
  | timestamp _ | onInitialize _ | onFinalize | noteAuthor _ | reportOffence _ _ _ _
  | vote _ _ | force _ _ | bridge _ _ | fees _ | keys _ | elsewhere _ _ _ _ => trivial

/-- The run lemma: the active era runs the set it is named after, and its table counts the blocks
of its authors. -/
theorem authored_run {g : Genesis R} (hkeeps : g.lpos.keepsPlanned = true)
    (hbefore : R.lpos.keepsEraBefore g.historyDepth = true) {s₀ : State R}
    (hstart : g.start = some s₀) (steps : List (Step R))
    (hsteps : (machine R).Along (fun s i => i.SessionInRange s ∧ i.AnchorsEra s) steps s₀) :
    Anchored g ((machine R).run steps s₀)
        (((machine R).log steps s₀).filterMap Appchain.Observation.validatorSet?) ∧
      Lpos.Credited ((machine R).run steps s₀).chain (eraAuthors steps s₀) := by
  let M := (machine R).remembering Step.authors
  have hcredited : Lpos.Credited s₀.chain [] := by
    obtain ⟨⟨c₀, os₀⟩, hchain, rfl⟩ := Option.map_eq_some_iff.mp hstart
    exact g.lpos.credited hchain
  have hrun := M.invariant
    (P := fun p i => i.SessionInRange p.1 ∧ i.AnchorsEra p.1)
    (I := fun _ p os => Anchored g p.1 (os.filterMap Appchain.Observation.validatorSet?) ∧
      Lpos.Credited p.1.chain p.2)
    ⟨g.anchored hkeeps hstart, hcredited⟩
    (fun _ p os i h hi => by
      obtain ⟨hanchored, hauthors⟩ := h
      obtain ⟨plans, hrecorded⟩ := hanchored.recorded
      rw [List.filterMap_append]
      refine ⟨hanchored.step hbefore hi.1 hi.2, ?_⟩
      show Lpos.Credited (p.1.step i).1.chain (i.authors p.2 p.1 (p.1.step i).1)
      rw [Step.authors_chain, p.1.step_chain i]
      exact hauthors.step hrecorded (Step.chainCall_inRange hi.1)
        (hanchored.chainCall_sparesActive hbefore hi.2) hi.2.chainCall)
    steps (((machine R).remembering_along Step.authors steps s₀ []).mpr hsteps)
  rw [(machine R).remembering_run, (machine R).remembering_log] at hrun
  exact hrun

/--
**The messages name the idle validators of the era that has ended.**

The genesis has a history depth of at least 1, or eras of one session. Take a run in which no other
validator set takes effect while an era is planned ahead, with fewer than `2 ^ 32` stakers of the
active era and so few blocks that their points fit, and one more step. It reports no payout, or that
of the active era: the message names the set of the mainchain that the era runs, and of the validators
in this set it leaves out those that authored none of the blocks of the era, or less than four fifths
of the average.
-/
theorem payouts_follow_authors (g : Genesis R) (hdepth : g.historyDepth < 2 ^ 32)
    (hkept : 1 ≤ g.historyDepth ∨ R.sessionsPerEra ≤ 1) {s₀ : State R}
    (hstart : g.start = some s₀) (steps : List (Step R))
    (hsteps : (machine R).Along (fun s i => i.SessionInRange s ∧ i.AnchorsEra s) steps s₀)
    (hblocks : 80 * (eraAuthors steps s₀).length < 2 ^ 32)
    (hstakers : ∀ activeEra, ((machine R).run steps s₀).lpos.activeEra = some activeEra →
      (((machine R).run steps s₀).lpos.erasStakers activeEra.index).keys.length < 2 ^ 32)
    (i : Step R) :
    let s := (machine R).run steps s₀
    let sets := ((machine R).log steps s₀).filterMap Appchain.Observation.validatorSet?
    eraPayouts (s.step i).1.messages = eraPayouts s.messages ∨
      ∃ activeEra validators, ∃ excluded : List AccountId, s.lpos.activeEra = some activeEra ∧
        validatorsOf g.validators sets activeEra.setId = some validators ∧
        eraPayouts (s.step i).1.messages = eraPayouts s.messages ++
          [⟨activeEra.setId, excluded.map fun v => hexFormat (R.encode v),
            s.lpos.offenders.entries.map (Lpos.offenderOf R.encode)⟩] ∧
        excluded.Nodup ∧ ∀ v, v ∈ excluded ↔ v ∈ validators.map Prod.fst ∧
          Lpos.Idle (eraAuthors steps s₀) (validators.map Prod.fst).dedup.length v := by
  intro s sets
  rcases s.step_reports i with hsame | ⟨activeEra, hactive, hsent⟩
  · exact Or.inl hsame
  have hindex : s.timeline.activeIndex = some activeEra.index := by
    unfold State.timeline
    rw [s.lposState.timeline_activeIndex]
    exact congrArg (Option.map Lpos.ActiveEraInfo.index) hactive
  have htimeline : s.timeline.activeEra = some (activeEra.index, activeEra.setId) :=
    congrArg (Option.map fun e : Lpos.ActiveEraInfo => (e.index, e.setId)) hactive
  cases hkeeps : g.lpos.keepsPlanned with
  | false =>
    have hnone := inactive_run hkeeps hstart steps hsteps
    cases hnone.symm.trans htimeline
  | true =>
    obtain ⟨hanchored, hcredited⟩ := authored_run hkeeps (g.keepsEraBefore hdepth hkept hkeeps)
      hstart steps hsteps
    obtain ⟨validators, hvalidators, hsame⟩ := hanchored.active htimeline
    have hcredits := hcredited.active activeEra.index hindex (by omega)
    obtain ⟨hnodup, hmem⟩ := Lpos.mem_excludeValidators hcredits (hstakers activeEra hactive) hblocks
    refine Or.inr ⟨activeEra, validators, _, hactive, hvalidators, hsent, hnodup, fun v => ?_⟩
    rw [← hsame.length_keys, ← hsame.mem_keys]
    exact hmem v

namespace Sample

/-- Account 1 authors both blocks. -/
def twoBlocks : List (Step config) :=
  [.force .root (.isActivated true), .onFinalize, .rotate, .noteAuthor 1, .noteAuthor 1]

end Sample

/-- Account 2 is left out of the payout of era 0. -/
theorem payouts_follow_authors_of_two :
    ∃ s₀, Sample.pair.start = some s₀ ∧ eraAuthors Sample.twoBlocks s₀ = [1, 1] ∧
      let s := (machine Sample.config).run Sample.twoBlocks s₀
      ∃ excluded : List Nat, eraPayouts (s.step .rotate).1.messages = eraPayouts s.messages ++
          [⟨0, excluded.map fun v => hexFormat (Sample.config.encode v), []⟩] ∧
        1 ∉ excluded ∧ 2 ∈ excluded := by
  refine ⟨_, rfl, by decide, ?_⟩
  intro s
  have hactive : s.lpos.activeEra = some ⟨0, 0, some 0⟩ := by decide
  have hstakers : ∀ activeEra, s.lpos.activeEra = some activeEra →
      (s.lpos.erasStakers activeEra.index).keys.length < 2 ^ 32 := by
    intro activeEra hsome
    obtain rfl := Option.some.inj (hsome.symm.trans hactive)
    decide
  rcases payouts_follow_authors Sample.pair (by decide) (by decide) rfl Sample.twoBlocks
    ⟨⟨trivial, trivial⟩, ⟨trivial, trivial⟩, ⟨by decide, trivial⟩, ⟨trivial, trivial⟩,
      ⟨trivial, trivial⟩, trivial⟩ (by decide) hstakers .rotate with
    hsame | ⟨activeEra, validators, excluded, hsome, hvalidators, hsent, -, hmem⟩
  · exact absurd (congrArg List.length hsame) (by decide +kernel)
  · obtain rfl := Option.some.inj (hsome.symm.trans hactive)
    obtain rfl : validators = [(1, 1), (2, 1)] := Option.some.inj hvalidators.symm
    refine ⟨excluded, hsent, fun hone => ?_, (hmem 2).mpr ⟨by decide, by decide⟩⟩
    exact absurd ((hmem 1).mp hone).2 (by decide)

end OctopusPallets.Runtime
