import OctopusPallets.Appchain.TakingEffect
import OctopusPallets.Lpos.ActiveEra
import OctopusPallets.Runtime.EraPayouts

/-!
# The set id of the active era

An era is planned with the validators that are planned at that moment, and one session later it is
started under the set id that the counter gives at that other moment. The two agree unless a
validator set takes effect between them.

* `active_era_runs_its_set` — when the set id of the active era is that of its stakes
-/

namespace OctopusPallets.Runtime

open Infra Infra.Dispatch Infra.FixedWidth

variable {AccountId : Type} [DecidableEq AccountId] {R : Config AccountId}

/-! ## Sets by their ids -/

/-- The validators of the set with this id, among those that took effect; set 0 is that of the
genesis. -/
def validatorsOf (genesis : List (AccountId × Nat)) (sets : List (Appchain.ValidatorSet AccountId))
    (id : Nat) : Option (List (AccountId × Nat)) :=
  if id = 0 then some genesis
  else (sets.find? fun valSet => valSet.setId == id).map Appchain.ValidatorSet.plan

omit [DecidableEq AccountId] in
/-- The sets that come later do not change what an id stands for. -/
theorem validatorsOf_append {genesis validators : List (AccountId × Nat)}
    {sets : List (Appchain.ValidatorSet AccountId)} {id : Nat}
    (h : validatorsOf genesis sets id = some validators)
    (more : List (Appchain.ValidatorSet AccountId)) :
    validatorsOf genesis (sets ++ more) id = some validators := by
  unfold validatorsOf at h ⊢
  split
  · next hzero => rwa [if_pos hzero] at h
  · next hzero =>
    rw [if_neg hzero] at h
    obtain ⟨valSet, hfind, hplan⟩ := Option.map_eq_some_iff.mp h
    rw [List.find?_append, hfind, Option.some_or, Option.map_some, hplan]

omit [DecidableEq AccountId] in
/-- The last set is the planned one, and its id is the one before the counter. -/
theorem validatorsOf_last {genesis : List (AccountId × Nat)} {β : Type} {cfg : Appchain.Config}
    {a : Appchain.State cfg AccountId β} {sets : List (Appchain.ValidatorSet AccountId)}
    (h : Appchain.SetsSequenced genesis a sets) :
    validatorsOf genesis sets (a.nextSetId - 1) = some a.plannedValidators := by
  obtain ⟨-, hids, hplanned⟩ := h
  rw [hplanned]
  rcases List.eq_nil_or_concat sets with rfl | ⟨before, last, rfl⟩
  · have hzero : a.nextSetId - 1 = 0 := by
      have hlen := congrArg List.length hids
      rw [List.length_range'] at hlen
      exact hlen.symm
    rw [hzero]
    rfl
  · rw [List.concat_eq_append] at hids ⊢
    have hlen : before.length + 1 = a.nextSetId - 1 := by
      have hlen := congrArg List.length hids
      rwa [List.length_range', List.length_map, List.length_append, List.length_singleton] at hlen
    rw [← hlen, List.range'_1_concat, List.map_append] at hids
    obtain ⟨hbefore, hlast⟩ := List.append_inj' hids rfl
    have hid : last.setId = before.length + 1 := by
      have hid := List.head_eq_of_cons_eq hlast
      omega
    -- the ids before the last one are smaller
    have hnone : before.find? (fun valSet => valSet.setId == before.length + 1) = none := by
      rw [List.find?_eq_none]
      intro valSet hmem
      have hrange : valSet.setId ∈ List.range' 1 before.length := by
        rw [← hbefore]
        exact List.mem_map.mpr ⟨valSet, hmem, rfl⟩
      rw [List.mem_range'_1] at hrange
      rw [beq_iff_eq]
      omega
    unfold validatorsOf Appchain.planAfter
    rw [← hlen, if_neg (Nat.succ_ne_zero _), List.find?_append, hnone, Option.none_or,
      List.find?_singleton, hid, beq_self_eq_true, List.getLast?_concat]
    rfl

/-- The stakes are those that a list of validators stands for. -/
def SameStakes (stakers : AList fun _ : AccountId => Nat) (validators : List (AccountId × Nat)) :
    Prop :=
  ∀ who, stakers.lookup who = (Lpos.insertStakers validators ∅).lookup who

/-! ## One step -/

omit [DecidableEq AccountId] in
def State.timeline (s : State R) : Lpos.Timeline AccountId := s.lposState.timeline

omit [DecidableEq AccountId] in
/-- This era is planned, and the era before it is still the active one. -/
def State.PlannedAhead (s : State R) (era : Nat) : Prop :=
  s.timeline.currentEra = some era ∧ s.timeline.activeIndex ≠ some era

/-- Between the planning of an era and its start no other validator set takes effect than the one
it was planned with; and root sets neither the counter, nor the list, nor the depth of the
history. -/
def Step.AnchorsEra (s : State R) : Step R → Prop
  | .vote keyData o => ∀ x valSet era, s.voteOf keyData o = some x → o = .updateValidatorSet valSet →
    s.appchain.TakesEffect x → s.PlannedAhead era → SameStakes (s.timeline.stakers era) valSet.plan
  | .force .root (.nextSetId _) | .force .root (.plannedValidators _)
  | .lpos .root (.setHistoryDepth _ _) => False
  | _ => True

omit [DecidableEq AccountId] in
/-- Session indices stay in `u32`. -/
def Step.SessionInRange (s : State R) : Step R → Prop
  | .rotate => s.session + 2 < 2 ^ 32
  | _ => True

instance (s : State R) (i : Step R) : Decidable (i.SessionInRange s) := by
  cases i <;> unfold Step.SessionInRange <;> infer_instance

/-- The set id of the active era is that of its stakes, and an era that is planned ahead has the
stakes of the planned validators. -/
structure Anchored (g : Genesis R) (s : State R) (sets : List (Appchain.ValidatorSet AccountId)) :
    Prop where
  sequenced : Appchain.SetsSequenced g.validators s.appchain sets
  setId_lt : s.appchain.nextSetId < 2 ^ 32
  depth : s.lpos.historyDepth = g.historyDepth
  recorded : ∃ plans, Lpos.Recorded s.chain plans
  active : ∀ {era setId}, s.timeline.activeEra = some (era, setId) →
    ∃ validators, validatorsOf g.validators sets setId = some validators ∧
      SameStakes (s.timeline.stakers era) validators
  ahead : ∀ {era}, s.PlannedAhead era →
    SameStakes (s.timeline.stakers era) s.appchain.plannedValidators

namespace Anchored

variable {g : Genesis R} {s s' : State R} {sets : List (Appchain.ValidatorSet AccountId)}

/-- A step that leaves the sets and the timeline alone. -/
theorem same (h : Anchored g s sets) (hset : s'.appchain.nextSetId = s.appchain.nextSetId)
    (hplanned : s'.appchain.plannedValidators = s.appchain.plannedValidators)
    (hsession : s'.session = s.session) (htimeline : s'.timeline = s.timeline) :
    Anchored g s' (sets ++ []) := by
  obtain ⟨⟨hpos, hids, hlast⟩, hlt, hdepth, ⟨plans, hrecorded⟩, hactive, hahead⟩ := h
  rw [List.append_nil]
  refine ⟨⟨by rwa [hset], by rwa [hset], by rwa [hplanned]⟩, by rwa [hset],
    (congrArg Lpos.Timeline.historyDepth htimeline).trans hdepth,
    ⟨plans, hrecorded.of_timeline hsession htimeline⟩, ?_, ?_⟩
  · rw [htimeline]
    exact hactive
  · unfold State.PlannedAhead
    rw [htimeline, hplanned]
    exact hahead

theorem sparesActive (h : Anchored g s sets)
    (hkeeps : R.lpos.keepsEraBefore g.historyDepth = true) :
    (Lpos.Call.rotate s.context : Lpos.Call R.lpos).SparesActive s.chain := by
  intro _
  show R.lpos.keepsEraBefore s.lpos.historyDepth = true
  rw [h.depth]
  exact hkeeps

section

variable {os : List (Lpos.Observed AccountId)} {l : Lpos.State R.lpos}
  (h : Anchored g s sets) (hkeeps : R.lpos.keepsEraBefore g.historyDepth = true)
  (hrange : s.session + 2 < 2 ^ 32)
  (hrun : Lpos.rotateSession s.context s.chain.session s.chain.state = (.ok os, l))

include h hkeeps hrange hrun

/-- The active era after a rotation is the one that was planned, with the stakes of the last set or
those it had. -/
theorem rotated_active {era setId : Nat} (hera : l.timeline.activeEra = some (era, setId)) :
    ∃ validators, validatorsOf g.validators sets setId = some validators ∧
      SameStakes (l.timeline.stakers era) validators := by
  obtain ⟨plans, hrecorded⟩ := h.recorded
  obtain ⟨current, start, hinTurn⟩ := hrecorded.inTurn
  have hcurrent : s.timeline.currentEra = some current := hinTurn.current
  obtain ⟨hnow, hstakers⟩ :=
    hrecorded.rotated_now s.context hrange (h.sparesActive hkeeps) hrun hcurrent
  obtain rfl : era = current := by
    have hindex : l.timeline.activeIndex = some era := by
      unfold Lpos.Timeline.activeIndex
      rw [hera]
      rfl
    exact Option.some.inj (hindex.symm.trans hnow)
  have hstakers : l.timeline.stakers era = s.timeline.stakers era := hstakers
  rw [hstakers]
  rcases hrecorded.rotated_active s.context hrange hrun hcurrent with
    ⟨-, heq⟩ | ⟨hne, setId', hsetId, heq⟩
  · exact h.active (heq ▸ hera)
  · obtain rfl : setId = s.appchain.nextSetId - 1 := by
      have hsetId : R.build.sub 32 s.appchain.nextSetId 1 = some setId' := hsetId
      rw [R.build.sub_of_le h.sequenced.pos h.setId_lt] at hsetId
      rw [heq] at hera
      have heq' := congrArg Prod.snd (Option.some.inj hera)
      exact heq'.symm.trans (Option.some.inj hsetId).symm
    exact ⟨_, validatorsOf_last h.sequenced, h.ahead ⟨hcurrent, hne⟩⟩

/-- An era that a rotation plans has the stakes of the planned validators. -/
theorem rotated_ahead {era : Nat} (hera : l.timeline.currentEra = some era)
    (hne : l.timeline.activeIndex ≠ some era) :
    SameStakes (l.timeline.stakers era) s.appchain.plannedValidators := by
  obtain ⟨plans, hrecorded⟩ := h.recorded
  obtain ⟨current, start, hinTurn⟩ := hrecorded.inTurn
  have hcurrent : s.timeline.currentEra = some current := hinTurn.current
  have hkept := h.sparesActive hkeeps
  obtain ⟨hnow, -⟩ := hrecorded.rotated_now s.context hrange hkept hrun hcurrent
  have hnew : some era ≠ s.lpos.currentEra := by
    intro heq
    have hsame : s.lpos.currentEra = some current := hcurrent
    rw [hsame] at heq
    exact hne (hnow.trans heq.symm)
  have hplanned : l.timeline.stakers era = Lpos.insertStakers s.appchain.plannedValidators ∅ :=
    hrecorded.rotated_ahead s.context hrange hkept hrun hera hnew
  rw [hplanned]
  exact fun _ => rfl

end

/-- A rotation starts the era that is planned ahead, and plans the next one. -/
theorem rotated (h : Anchored g s sets) (hkeeps : R.lpos.keepsEraBefore g.historyDepth = true)
    (hrange : s.session + 2 < 2 ^ 32) :
    Anchored g (s.onChain (.rotate s.context)) (sets ++ []) := by
  have hrefused : Anchored g s (sets ++ []) := h.same rfl rfl rfl rfl
  unfold State.onChain
  have hstep : (s.chain.step (.rotate s.context)).1 = (s.chain.rotate s.context).1 := rfl
  rw [hstep]
  unfold Lpos.Chain.rotate
  rcases hrun : Lpos.rotateSession s.context s.chain.session s.chain.state with ⟨_ | os, l⟩
  · exact hrefused
  obtain ⟨plans, hrecorded⟩ := h.recorded
  have hafter := hrecorded.rotated s.context hrange (h.sparesActive hkeeps) hrun
  obtain ⟨era, start, hinTurn⟩ := hrecorded.inTurn
  have hle : era ≤ s.session + 1 := hinTurn.era_lt
  have hbound := hinTurn.following_le
  have hdepth : l.historyDepth = s.lpos.historyDepth :=
    Lpos.rotateSession_historyDepth s.context (by omega)
      (by rw [hinTurn.current]; exact Nat.lt_of_le_of_lt (Nat.succ_le_succ hle) hrange) hrun
  rw [List.append_nil]
  refine ⟨⟨h.sequenced.pos, h.sequenced.ids, h.sequenced.planned⟩, h.setId_lt,
    hdepth.trans h.depth, ⟨_, hafter⟩, ?_, ?_⟩
  · exact h.rotated_active hkeeps hrange hrun
  · rintro era' ⟨hera', hne⟩
    exact h.rotated_ahead hkeeps hrange hrun hera' hne

/-- A vote installs a set at most while no era is planned ahead, or one with the same stakes. -/
theorem voted (h : Anchored g s sets) {keyData : List UInt8}
    {o : Appchain.Observation AccountId} (hanchors : (Step.vote keyData o : Step R).AnchorsEra s) :
    Anchored g (s.vote keyData o).1
      (sets ++ (s.vote keyData o).2.filterMap Appchain.Observation.validatorSet?) := by
  unfold State.vote
  cases hvote : s.voteOf keyData o with
  | none => exact h.same rfl rfl rfl rfl
  | some x =>
    have ho : x.observation = o := by
      unfold State.voteOf at hvote
      obtain ⟨v, -, rfl⟩ := Option.map_eq_some_iff.mp hvote
      rfl
    have hstep := Appchain.voteMachine_step Bridge.bridgeInterface x s.appchain
    have hsequenced := Appchain.setsSequenced_step hstep h.sequenced
    have heffect := Appchain.effects_of_step hstep
    dsimp only
    generalize (Appchain.voteMachine Bridge.bridgeInterface).step x s.appchain = r
      at hstep hsequenced heffect ⊢
    obtain ⟨a, os⟩ := r
    obtain ⟨plans, hrecorded⟩ := h.recorded
    refine ⟨⟨hsequenced.pos, hsequenced.ids, hsequenced.planned⟩, ?_, h.depth,
      ⟨plans, hrecorded.of_timeline rfl rfl⟩, fun hactive => ?_, fun hahead => ?_⟩
    · cases hstep with
      | refused _ | counted _ _ _ | relayed _ _ _ _ _ => exact h.setId_lt
      | installed _ _ _ _ hlt => exact hlt
    · obtain ⟨validators, hvalidators, hstakes⟩ := h.active hactive
      exact ⟨validators, validatorsOf_append hvalidators _, hstakes⟩
    · cases hstep with
      | refused _ | counted _ _ _ | relayed _ _ _ _ _ => exact h.ahead hahead
      | installed _ _ _ hset _ =>
        have htakes : s.appchain.TakesEffect x := by
          by_contra hno
          rw [if_neg hno] at heffect
          cases heffect
        exact hanchors x _ _ hvote (ho ▸ hset) htakes hahead

/-- The calls of root that are left do not bear on the sets. -/
theorem forced (h : Anchored g s sets) {origin : Origin AccountId}
    {forced : Forced AccountId} (hanchors : (Step.force origin forced : Step R).AnchorsEra s) :
    Anchored g (s.step (.force origin forced)).1 (sets ++ []) := by
  cases origin with
  | signed _ | none => cases forced <;> exact h.same rfl rfl rfl rfl
  | root =>
    cases forced with
    | isActivated _ | nextNotificationId _ => exact h.same rfl rfl rfl rfl
    | nextSetId _ | plannedValidators _ => exact hanchors.elim

/-- The steps of the chain that are not rotations. -/
theorem onChain (h : Anchored g s sets) {call : Lpos.Call R.lpos}
    (hrotate : ∀ ctx, call ≠ .rotate ctx)
    (hdepth : ∀ depth deleted, call ≠ .dispatch .root (.setHistoryDepth depth deleted)) :
    Anchored g (s.onChain call) (sets ++ []) :=
  have hstep := s.chain.step_timeline hrotate hdepth
  h.same rfl rfl hstep.1 hstep.2

theorem step (h : Anchored g s sets) (hkeeps : R.lpos.keepsEraBefore g.historyDepth = true)
    {i : Step R} (hrange : i.SessionInRange s) (hanchors : i.AnchorsEra s) :
    Anchored g (s.step i).1
      (sets ++ (s.step i).2.filterMap Appchain.Observation.validatorSet?) := by
  cases i with
  | rotate => exact h.rotated hkeeps hrange
  | vote keyData o => exact h.voted hanchors
  | force origin forced => exact h.forced hanchors
  | onFinalize => exact h.onChain (by simp) (by simp)
  | noteAuthor _ => exact h.onChain (by simp) (by simp)
  | reportOffence _ _ _ _ => exact h.onChain (by simp) (by simp)
  | lpos origin call =>
    refine h.onChain (by simp) fun depth deleted hcall => ?_
    cases hcall
    exact hanchors
  | onInitialize now =>
    show Anchored g (s.onInitialize now) (sets ++ [])
    obtain ⟨messages, -, hrun⟩ := s.onInitialize_eq now
    rw [hrun]
    exact h.same rfl rfl rfl rfl
  | timestamp _ | bridge _ _ | fees _ | keys _ | elsewhere _ _ _ _ => exact h.same rfl rfl rfl rfl

end Anchored

/-! ## Genesis -/

omit [DecidableEq AccountId] in
/-- `HistoryDepth + 1` is what it should be, or 0. -/
theorem kept_cases (build : Build) {depth kept : Nat} (hdepth : depth < 2 ^ 32)
    (h : build.add 32 depth 1 = some kept) : kept = depth + 1 ∨ kept = 0 := by
  rcases Nat.lt_or_ge (depth + 1) (2 ^ 32) with hlt | hge
  · rw [build.add_of_lt hlt] at h
    exact Or.inl (Option.some.inj h).symm
  · obtain rfl : depth = 2 ^ 32 - 1 := by omega
    cases build with
    | release => exact Or.inr (Option.some.inj h).symm
    | debug => cases h

omit [DecidableEq AccountId] in
/-- A depth of at least 1 keeps the active era, if the genesis keeps what it plans. -/
theorem Genesis.keepsEraBefore (g : Genesis R) (hdepth : g.historyDepth < 2 ^ 32)
    (hkept : 1 ≤ g.historyDepth ∨ R.sessionsPerEra ≤ 1) (hkeeps : g.lpos.keepsPlanned = true) :
    R.lpos.keepsEraBefore g.historyDepth = true := by
  unfold Lpos.Config.keepsEraBefore
  unfold Lpos.Genesis.keepsPlanned at hkeeps
  have hsame : g.lpos.historyDepth = g.historyDepth := rfl
  rw [hsame] at hkeeps
  cases hadd : R.lpos.build.add 32 g.historyDepth 1 with
  | none => rfl
  | some kept =>
    rw [hadd, Option.all_some] at hkeeps
    rw [Option.all_some, decide_eq_true_eq]
    split at hkeeps
    · exact of_decide_eq_true hkeeps
    · next hS =>
      have hone := of_decide_eq_true hkeeps
      rcases kept_cases _ hdepth hadd with rfl | rfl
      · rcases hkept with hpos | hle
        · omega
        · exact absurd hle hS
      · omega

/-- The genesis starts era 0 under set 0. -/
theorem Genesis.anchored (g : Genesis R) (hkeeps : g.lpos.keepsPlanned = true) {s₀ : State R}
    (hstart : g.start = some s₀) : Anchored g s₀ [] := by
  obtain ⟨⟨c₀, os₀⟩, hchain, rfl⟩ := Option.map_eq_some_iff.mp hstart
  have hrecorded := g.lpos.recorded hkeeps hchain
  obtain ⟨era, start, hinTurn⟩ := hrecorded.inTurn
  -- whatever is planned is planned with the list of the genesis
  have hstakers : ∀ e, c₀.state.timeline.activeIndex = some e ∨
      c₀.state.timeline.currentEra = some e →
      SameStakes (c₀.state.timeline.stakers e) g.validators := by
    intro e he who
    have hle : e ≤ era := by
      rcases he with he | he
      · have hbound := hinTurn.following_le
        rw [he] at hbound
        exact Nat.le_of_succ_le_succ hbound
      · exact Nat.le_of_eq (Option.some.inj (he.symm.trans hinTurn.current))
    have hmem : (⟨e, e, g.validators⟩ : Lpos.Plan AccountId) ∈ g.lpos.plans c₀ := by
      refine List.mem_map.mpr ⟨e, ?_, rfl⟩
      have hcurrent : c₀.state.currentEra = some era := hinTurn.current
      rw [hcurrent, List.mem_range]
      exact Nat.lt_succ_of_le hle
    have hentry := congrArg (fun entry => entry.2.1) (hrecorded.kept _ hmem he)
    exact congrArg (fun stakers => AList.lookup who stakers) hentry
  refine ⟨⟨Nat.le_refl 1, rfl, rfl⟩, show 1 < 2 ^ 32 by decide, g.lpos.historyDepth_of_chain hchain,
    ⟨_, hrecorded⟩, fun {e setId} hactive => ?_, fun {e} hahead => hstakers e (Or.inr hahead.1)⟩
  have hindex : c₀.state.timeline.activeIndex = some e := congrArg (Option.map Prod.fst) hactive
  obtain ⟨kept, setId', t, -, ht, hsub, -, htimeline⟩ := g.lpos.phases hchain
  have hactive₀ : c₀.state.timeline.activeEra = (t.startPhase setId' 0).activeEra :=
    Lpos.Timeline.activeEra_of_unprinted htimeline
  obtain rfl : setId = 0 := by
    have hactive : c₀.state.timeline.activeEra = some (e, setId) := hactive
    rw [hactive] at hactive₀
    unfold Lpos.Timeline.startPhase at hactive₀
    split at hactive₀
    · next hyes =>
      have hone : R.build.sub 32 1 1 = some setId' := hsub hyes
      rw [R.build.sub_of_le (Nat.le_refl 1) (by decide)] at hone
      exact (congrArg Prod.snd (Option.some.inj hactive₀)).trans (Option.some.inj hone).symm
    · have hnone : t.activeEra = none := by
        rw [ht, Lpos.Timeline.planPhase_activeEra, Lpos.Timeline.planKept_activeEra]
        rfl
      rw [hnone] at hactive₀
      cases hactive₀
  exact ⟨g.validators, rfl, hstakers e (Or.inl hindex)⟩

/-! ## Runs -/

omit [DecidableEq AccountId] in
theorem Step.chainCall_inRange [DecidableEq AccountId] {s : State R} {i : Step R}
    (h : i.SessionInRange s) : (i.chainCall s).SessionInRange s.chain := by
  cases i with
  | rotate => exact h
  | timestamp _ | onInitialize _ | onFinalize | noteAuthor _ | reportOffence _ _ _ _ | lpos _ _
  | vote _ _ | force _ _ | bridge _ _ | fees _ | keys _ | elsewhere _ _ _ _ => trivial

theorem Step.AnchorsEra.chainCall {s : State R} {i : Step R} (h : i.AnchorsEra s)
    (depth deleted : Nat) : i.chainCall s ≠ .dispatch .root (.setHistoryDepth depth deleted) := by
  cases i with
  | lpos origin call =>
    intro hcall
    cases hcall
    exact h
  | timestamp _ | onInitialize _ | onFinalize | rotate | noteAuthor _ | reportOffence _ _ _ _
  | vote _ _ | force _ _ | bridge _ _ | fees _ | keys _ | elsewhere _ _ _ _ =>
    exact fun hcall => by cases hcall

/-- A genesis that clears what it plans never has an active era. -/
theorem inactive_run {g : Genesis R} (hkeeps : g.lpos.keepsPlanned = false) {s₀ : State R}
    (hstart : g.start = some s₀) (steps : List (Step R))
    (hsteps : (machine R).Along (fun s i => i.SessionInRange s ∧ i.AnchorsEra s) steps s₀) :
    ((machine R).run steps s₀).timeline.activeEra = none := by
  obtain ⟨⟨c₀, os₀⟩, hchain, rfl⟩ := Option.map_eq_some_iff.mp hstart
  have hstuck : Lpos.Stuck (g.state.withChain c₀).chain := g.lpos.stuck hkeeps hchain
  have hrun := (machine R).invariant (I := fun _ s _ => Lpos.Stuck s.chain) hstuck
    (fun _ s os i h hi => by
      show Lpos.Stuck (s.step i).1.chain
      rw [s.step_chain i]
      exact h.step (Step.chainCall_inRange hi.1) hi.2.chainCall) steps hsteps
  exact hrun.inactive

/--
**The active era runs under the id of its validator set.** In every run in which no validator set
takes effect while an era is planned ahead, unless its stakes are those of that era, the stakes of
the active era are those of the set that its set id names; and if the next step sends the message
about a payout, the message names this set.
-/
theorem active_era_runs_its_set (g : Genesis R) (hdepth : g.historyDepth < 2 ^ 32)
    (hkept : 1 ≤ g.historyDepth ∨ R.sessionsPerEra ≤ 1) {s₀ : State R}
    (hstart : g.start = some s₀) (steps : List (Step R))
    (hsteps : (machine R).Along (fun s i => i.SessionInRange s ∧ i.AnchorsEra s) steps s₀) :
    let s := (machine R).run steps s₀
    let sets := ((machine R).log steps s₀).filterMap Appchain.Observation.validatorSet?
    ∀ activeEra, s.lpos.activeEra = some activeEra →
      (∃ validators, validatorsOf g.validators sets activeEra.setId = some validators ∧
        SameStakes (s.lpos.erasStakers activeEra.index) validators) ∧
      ∀ i, eraPayouts (s.step i).1.messages = eraPayouts s.messages ∨
        ∃ payload, eraPayouts (s.step i).1.messages = eraPayouts s.messages ++ [payload] ∧
          payload.endEra = activeEra.setId := by
  intro s sets activeEra hactive
  have htimeline : s.timeline.activeEra = some (activeEra.index, activeEra.setId) :=
    congrArg (Option.map fun e : Lpos.ActiveEraInfo => (e.index, e.setId)) hactive
  constructor
  · cases hkeeps : g.lpos.keepsPlanned with
    | true =>
      have h : Anchored g s sets := by
        refine (machine R).invariant (I := fun _ s os =>
          Anchored g s (os.filterMap Appchain.Observation.validatorSet?)) (g.anchored hkeeps hstart)
          (fun _ s os i h hi => ?_) steps hsteps
        rw [List.filterMap_append]
        exact h.step (g.keepsEraBefore hdepth hkept hkeeps) hi.1 hi.2
      exact h.active htimeline
    | false =>
      have hnone := inactive_run hkeeps hstart steps hsteps
      cases hnone.symm.trans htimeline
  · intro i
    rcases s.step_reports i with hsame | ⟨reported, hreported, hsent⟩
    · exact Or.inl hsame
    · obtain rfl := Option.some.inj (hreported.symm.trans hactive)
      exact Or.inr ⟨_, hsent, rfl⟩

namespace Sample

/-- The only validator reports set 1. -/
def newSet : Step config := .vote [1] (.updateValidatorSet ⟨1, [⟨1, 5⟩]⟩)

end Sample

/-- Set 1 is reported in session 0, before era 1 is planned, and named when era 1 is paid. -/
theorem active_era_runs_reported_set :
    ∃ s₀, Sample.genesis.start = some s₀ ∧
      let steps : List (Step Sample.config) :=
        [.force .root (.isActivated true), Sample.newSet, .rotate, .rotate, .onFinalize, .rotate]
      let s := (machine Sample.config).run steps s₀
      s.lpos.activeEra = some ⟨1, 1, some 0⟩ ∧
      (∃ validators, validatorsOf Sample.genesis.validators (((machine Sample.config).log steps
          s₀).filterMap Appchain.Observation.validatorSet?) 1 = some validators ∧
        SameStakes (s.lpos.erasStakers 1) validators) ∧
      ∃ payload, eraPayouts (s.step .rotate).1.messages = eraPayouts s.messages ++ [payload] ∧
        payload.endEra = 1 := by
  refine ⟨_, rfl, by decide, ?_⟩
  have hruns := active_era_runs_its_set Sample.genesis (by decide) (by decide) rfl
    [.force .root (.isActivated true), Sample.newSet, .rotate, .rotate, .onFinalize, .rotate]
    ⟨⟨trivial, trivial⟩, ⟨trivial, fun x valSet era _ _ _ hahead => by
      -- era 0 is the current one and active
      obtain rfl : era = 0 := Option.some.inj (hahead.1.symm.trans (by decide))
      exact absurd (by decide) hahead.2⟩,
      ⟨by decide, trivial⟩, ⟨by decide, trivial⟩, ⟨trivial, trivial⟩, ⟨by decide, trivial⟩, trivial⟩
    ⟨1, 1, some 0⟩ (by decide)
  refine ⟨hruns.1, (hruns.2 .rotate).resolve_left fun hsame => ?_⟩
  exact absurd (congrArg List.length hsame) (by decide +kernel)

/-- Set 1 is reported in session 1, when era 1 is planned already: era 1 runs under the name of set
1 with the stakes of set 0. -/
theorem active_era_named_after_next_set :
    ∃ s₀, Sample.genesis.start = some s₀ ∧
      let steps : List (Step Sample.config) := [.rotate, Sample.newSet, .rotate]
      ((machine Sample.config).run steps s₀).lpos.activeEra = some ⟨1, 1, none⟩ ∧
      validatorsOf Sample.genesis.validators (((machine Sample.config).log steps s₀).filterMap
        Appchain.Observation.validatorSet?) 1 = some [(1, 5)] ∧
      ¬ SameStakes (((machine Sample.config).run steps s₀).lpos.erasStakers 1) [(1, 5)] := by
  refine ⟨_, rfl, by decide, by decide, fun hsame => ?_⟩
  have hstake := hsame 1
  revert hstake
  decide

end OctopusPallets.Runtime
