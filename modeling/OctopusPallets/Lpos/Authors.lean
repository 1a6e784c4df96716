import OctopusPallets.Lpos.ActiveEra
import OctopusPallets.Lpos.Exclusion

/-!
# The authors of an era

Each block gives its author a point in the table of the active era. The table of an era is empty
until the era starts and is not cleared before it ends, so the points of a validator are the blocks
that it authored in the era, and these alone decide whether it is excluded at its end.

* `rotateSession_points` — a rotation leaves a table alone, or clears it with its era
* `Credited.step` — the table of the active era counts the blocks of its authors
* `Credited.mem_excludeValidators` — who is excluded
-/

namespace OctopusPallets.Lpos

open Infra Infra.Dispatch Infra.FixedWidth Infra.Tally

variable {AccountId : Type} {T : Config AccountId} [DecidableEq AccountId]

/-! ## One point for each block -/

/-- The points are the blocks of these authors. -/
structure EraRewardPoints.Credits (points : EraRewardPoints AccountId) (authors : List AccountId) :
    Prop where
  total : points.total = authors.length
  individual : ∀ v, points.individual.lookup v
    = if authors.count v = 0 then none else some (authors.count v)

theorem credits_default : (default : EraRewardPoints AccountId).Credits [] := ⟨rfl, fun _ => rfl⟩

theorem EraRewardPoints.Credits.getD {points : EraRewardPoints AccountId}
    {authors : List AccountId} (h : points.Credits authors) (v : AccountId) :
    (points.individual.lookup v).getD 0 = authors.count v := by
  rw [h.individual]
  split
  · next hzero => exact hzero.symm
  · rfl

/-- One block more. -/
theorem rewardOne_credits (build : Build) {points : EraRewardPoints AccountId}
    {authors : List AccountId} (h : points.Credits authors) (author : AccountId)
    (hfits : authors.length + 1 < 2 ^ 32) :
    ∃ points', rewardOne build points (author, 1) = some points' ∧
      points'.Credits (authors ++ [author]) := by
  have hcount := authors.count_le_length (a := author)
  have hone := build.add_of_lt (w := 32) (a := authors.count author) (b := 1) (by omega)
  have htotal := build.add_of_lt (w := 32) (a := authors.length) (b := 1) hfits
  refine ⟨⟨authors.length + 1, points.individual.insert author (authors.count author + 1)⟩,
    ?_, ?_, fun v => ?_⟩
  · unfold rewardOne
    rw [h.getD, h.total, hone, htotal]
    rfl
  · rw [List.length_append, List.length_singleton]
  · rw [List.count_append, List.count_singleton]
    by_cases hv : v = author
    · subst hv
      rw [AList.lookup_insert, beq_self_eq_true, if_pos rfl, if_neg (Nat.succ_ne_zero _)]
    · have hother : (author == v) = false := beq_false_of_ne (Ne.symm hv)
      rw [AList.lookup_insert_ne hv, hother, if_neg Bool.false_ne_true, Nat.add_zero]
      exact h.individual v

omit [DecidableEq AccountId] in
def State.withPoints (s : State T) (era : Nat) (points : EraRewardPoints AccountId) : State T :=
  { s with erasRewardPoints := Function.update s.erasRewardPoints era points }

/-- A point for one validator. -/
theorem rewardByIds_one {s : State T} {activeEra : ActiveEraInfo} (author : AccountId)
    (hactive : s.activeEra = some activeEra) :
    rewardByIds [(author, 1)] s =
      (okOr (rewardOne T.build (s.erasRewardPoints activeEra.index) (author, 1)) .abort >>=
        fun points => store fun s => s.withPoints activeEra.index points) s := by
  unfold rewardByIds
  rw [load_bind, hactive]
  dsimp only
  rw [load_bind, List.foldlM_cons]
  generalize rewardOne T.build (s.erasRewardPoints activeEra.index) (author, 1) = r
  cases r with
  | none => rfl
  | some points => rfl

/-- The author gets a point in the active era, or the block is refused. -/
theorem Chain.noteAuthor_cases (c : Chain T) (author : AccountId) :
    (c.step (.noteAuthor author)).1 = c ∧ (∀ activeEra, c.state.activeEra = some activeEra →
        rewardOne T.build (c.state.erasRewardPoints activeEra.index) (author, 1) = none) ∨
      ∃ activeEra points, c.state.activeEra = some activeEra ∧
        rewardOne T.build (c.state.erasRewardPoints activeEra.index) (author, 1) = some points ∧
        (c.step (.noteAuthor author)).1
          = ⟨c.session, c.state.withPoints activeEra.index points⟩ := by
  rw [c.step_between fun _ h => by cases h]
  unfold Chain.apply
  have hbetween : (Call.noteAuthor author : Call T).between = rewardByIds [(author, 1)] := rfl
  rw [hbetween]
  cases hactive : c.state.activeEra with
  | none =>
    refine Or.inl ⟨?_, nofun⟩
    unfold rewardByIds
    rw [load_bind, hactive]
    rfl
  | some activeEra =>
    rw [rewardByIds_one author hactive]
    cases hone : rewardOne T.build (c.state.erasRewardPoints activeEra.index) (author, 1) with
    | none => exact Or.inl ⟨rfl, fun _ hsame => Option.some.inj hsame ▸ hone⟩
    | some points => exact Or.inr ⟨activeEra, points, rfl, hone, rfl⟩

/-! ## Tables that are cleared -/

omit [DecidableEq AccountId] in
/-- A table is left alone, or it is cleared together with the start of its era. -/
def Wiped (s s' : State T) : Prop :=
  ∀ era, s'.erasRewardPoints era = s.erasRewardPoints era ∨
    s'.erasRewardPoints era = default ∧ s'.erasStartSessionIndex era = none

omit [DecidableEq AccountId] in
theorem Wiped.of_eq {s s' : State T} (h : s'.erasRewardPoints = s.erasRewardPoints) : Wiped s s' :=
  fun era => Or.inl (congrFun h era)

omit [DecidableEq AccountId] in
/-- What comes before leaves the tables alone. -/
theorem Wiped.from {s t s' : State T} (h : Wiped t s')
    (hsame : t.erasRewardPoints = s.erasRewardPoints) : Wiped s s' := by
  unfold Wiped at h ⊢
  rwa [hsame] at h

omit [DecidableEq AccountId] in
/-- An empty table stays empty. -/
theorem Wiped.default {s s' : State T} (h : Wiped s s') {era : Nat}
    (hempty : s.erasRewardPoints era = default) : s'.erasRewardPoints era = default := by
  rcases h era with hsame | ⟨hwiped, -⟩
  · rw [hsame, hempty]
  · exact hwiped

omit [DecidableEq AccountId] in
theorem clearOldEra_wiped {oldEra : Option Nat} {s s' : State T}
    (h : clearOldEra oldEra s = (.ok (), s')) : Wiped s s' := by
  cases oldEra with
  | none =>
    obtain ⟨-, rfl⟩ := pure_eq_ok.mp h
    exact .of_eq rfl
  | some old =>
    have hcleared : s' = s.clearEraInformation old := (Prod.mk.inj h).2.symm
    subst hcleared
    intro era
    by_cases hera : era = old
    · subst hera
      exact Or.inr ⟨Function.update_self .., Function.update_self ..⟩
    · exact Or.inl (Function.update_of_ne hera _ _)

omit [DecidableEq AccountId] in
theorem nextIndex_state {era : Option Nat} {s s' : State T} {next : Nat}
    (h : nextIndex era s = (.ok next, s')) : s' = s := by
  have hkept := nextIndex_frame id era s
  rwa [h] at hkept

theorem tryTriggerNewEra_wiped {ctx : Context AccountId} {startSession : Nat}
    {elected : Option (List AccountId)} {s s' : State T}
    (h : tryTriggerNewEra ctx startSession s = (.ok elected, s')) : Wiped s s' := by
  unfold tryTriggerNewEra triggerNewEra planEra storeStakersInfo depositEvent at h
  simp only [bind_eq_ok, store_eq_ok, load_eq_ok, pure_eq_ok, operator_eq_ok] at h
  obtain ⟨_, s₁, rfl, _, s₂, ⟨era, s₃, ⟨_, s₄, ⟨-, rfl⟩, _, s₅, hnext, h⟩, hclear⟩, -, rfl⟩ := h
  obtain rfl := nextIndex_state hnext
  obtain ⟨_, _, rfl, _, _, rfl, -, rfl⟩ := h
  obtain ⟨_, _, ⟨-, rfl⟩, kept, _, ⟨-, rfl⟩, _, t, hclear, _, _, rfl, _, _, rfl, -, rfl⟩ := hclear
  exact fun era => clearOldEra_wiped hclear era

omit [DecidableEq AccountId] in
theorem points_outsidePayout : OutsidePayout fun s : State T => s.erasRewardPoints :=
  fun _ _ _ _ _ _ => rfl

/-- Planning a session clears at most one table. -/
theorem newSession_wiped {ctx : Context AccountId} {session : Nat}
    {elected : Option (List AccountId)} {s s' : State T}
    (h : newSession ctx session s = (.ok elected, s')) : Wiped s s' := by
  unfold newSession at h
  rw [load_bind] at h
  cases hera : s.currentEra with
  | none =>
    rw [hera] at h
    exact tryTriggerNewEra_wiped h
  | some era =>
    rw [hera] at h
    dsimp only at h
    rw [bind_eq_ok] at h
    obtain ⟨start, t, hstart, h⟩ := h
    have hsame : t.erasRewardPoints = s.erasRewardPoints := by
      have hkept : Keeps (fun s : State T => s.erasRewardPoints) (currentEraStart era) := by
        refine .bind (.load _) fun start => ?_
        cases start with
        | none => exact .bind (.store fun _ => rfl) fun _ => .pure _
        | some start => exact .pure _
      have hs := hkept s
      rwa [hstart] at hs
    split at h
    · have hkept : Keeps (fun s : State T => s.erasRewardPoints) (if (ctx.appchain.isActivated &&
          isLastSession T (session - start)) = true then
            (do submitPlanNewEra ctx; pure none : Dispatch Fault (State T) (Option (List AccountId)))
          else pure none) := by
        split
        · exact .bind (points_outsidePayout.submitPlanNewEra ctx) fun _ => .pure _
        · exact .pure _
      have hs' : s'.erasRewardPoints = t.erasRewardPoints :=
        (congrArg (fun r => r.2.erasRewardPoints) h.symm).trans (hkept t)
      exact .of_eq (hs'.trans hsame)
    · exact (tryTriggerNewEra_wiped h).from hsame

omit [DecidableEq AccountId] in
theorem startSession_points {ctx : Context AccountId} {s s' : State T} {session : Nat}
    (h : SessionManager.startSession ctx session s = (.ok (), s')) :
    s'.erasRewardPoints = s.erasRewardPoints := by
  have hkept := startSession_writes (f := fun s : State T => s.erasRewardPoints) ctx
    (fun _ _ => rfl) (fun _ _ _ _ => rfl) session s
  rwa [h] at hkept

theorem planning_wiped {ctx : Context AccountId} {session newIndex : Nat}
    {os : List (Observed AccountId)} {s s' : State T}
    (h : planning (SessionManager.newSession ctx newIndex) session s = (.ok os, s')) :
    Wiped s s' := by
  obtain ⟨elected, hnew⟩ := newSession_of_planning h
  exact (newSession_wiped hnew).from rfl

/-- **A rotation leaves a table alone, or clears it with its era.** -/
theorem rotateSession_points {ctx : Context AccountId} {s s' : State T} {i : Nat}
    {os : List (Observed AccountId)} (h : rotateSession ctx i s = (.ok os, s')) : Wiped s s' := by
  obtain ⟨os₁, os₂, s₁, s₂, hend, hstart, hplan, -⟩ := rotateSession_eq_ok.mp h
  exact (planning_wiped hplan).from
    ((startSession_points hstart).trans
      (endSession_kept points_outsidePayout (endSession_of_ending hend)))

/-! ## The authors of the active era -/

/-- The authors of the blocks since the active era has started. -/
def Call.authors (authors : List AccountId) (c : Chain T) (call : Call T) (c' : Chain T) :
    List AccountId :=
  match call with
  | .noteAuthor author => authors ++ [author]
  | .rotate _ =>
    if c'.state.timeline.activeIndex = c.state.timeline.activeIndex then authors else []
  | _ => authors

/-- The table of the active era counts its blocks, as long as they fit in a `u32`, and those of
later eras are empty. -/
structure Credited (c : Chain T) (authors : List AccountId) : Prop where
  active : ∀ era, c.state.timeline.activeIndex = some era → authors.length < 2 ^ 32 →
    (c.state.erasRewardPoints era).Credits authors
  later : ∀ era, following c.state.timeline.activeIndex ≤ era →
    c.state.erasRewardPoints era = default

theorem Credited.of_eq {c c' : Chain T} {authors : List AccountId} (h : Credited c authors)
    (hpoints : c'.state.erasRewardPoints = c.state.erasRewardPoints)
    (htimeline : c'.state.timeline = c.state.timeline) : Credited c' authors := by
  refine ⟨?_, ?_⟩
  · rw [hpoints, htimeline]
    exact h.active
  · rw [hpoints, htimeline]
    exact h.later

/-- A block of `author`. -/
theorem Credited.noteAuthor {c : Chain T} {authors : List AccountId} (h : Credited c authors)
    (author : AccountId) :
    Credited (c.step (.noteAuthor author)).1 (authors ++ [author]) := by
  have hlength : (authors ++ [author]).length = authors.length + 1 := by simp
  rcases c.noteAuthor_cases author with ⟨hrefused, hnone⟩ | ⟨activeEra, points, hactive, hone, hstep⟩
  · rw [hrefused]
    refine ⟨fun era hera hfits => ?_, h.later⟩
    obtain ⟨activeEra, hactive, rfl⟩ := Option.map_eq_some_iff.mp
      (c.state.timeline_activeIndex ▸ hera)
    rw [hlength] at hfits
    obtain ⟨points, hone, -⟩ := rewardOne_credits T.build (h.active _ hera (by omega)) author hfits
    cases (hnone activeEra hactive).symm.trans hone
  · have hindex : c.state.timeline.activeIndex = some activeEra.index := by
      rw [c.state.timeline_activeIndex, hactive]
      rfl
    rw [hstep]
    refine ⟨fun era hera hfits => ?_, fun era hera => ?_⟩
    · obtain rfl : era = activeEra.index := Option.some.inj (hera.symm.trans hindex)
      rw [hlength] at hfits
      obtain ⟨points', hone', hcredits⟩ :=
        rewardOne_credits T.build (h.active _ hindex (by omega)) author hfits
      obtain rfl : points = points' := Option.some.inj (hone.symm.trans hone')
      show (Function.update c.state.erasRewardPoints _ points _).Credits _
      rw [Function.update_self]
      exact hcredits
    · have hlater : following c.state.timeline.activeIndex ≤ era := hera
      have hne : era ≠ activeEra.index := by
        rw [hindex] at hlater
        exact (Nat.ne_of_lt hlater).symm
      exact (Function.update_of_ne hne _ _).trans (h.later era hlater)

/-- A rotation keeps the table of the active era, or starts the next era, whose table is empty. -/
theorem Credited.rotated {c : Chain T} {authors : List AccountId} (h : Credited c authors)
    {plans : List (Plan AccountId)} (hrecorded : Recorded c plans) (ctx : Context AccountId)
    {s' : State T} {os : List (Observed AccountId)} (hrange : c.session + 2 < 2 ^ 32)
    (hspares : (Call.rotate ctx : Call T).SparesActive c)
    (hrun : rotateSession ctx c.session c.state = (.ok os, s')) :
    Credited ⟨c.session + 1, s'⟩
      ((Call.rotate ctx : Call T).authors authors c ⟨c.session + 1, s'⟩) := by
  have hwiped := rotateSession_points hrun
  obtain ⟨era, start, hinTurn⟩ := hrecorded.inTurn
  have hbound := hinTurn.following_le
  obtain ⟨hnow, -⟩ := hrecorded.rotated_now ctx hrange hspares hrun hinTurn.current
  have hlater : ∀ e, era < e → s'.erasRewardPoints e = default := fun e he =>
    hwiped.default (h.later e (by omega))
  refine ⟨fun e he hfits => ?_, fun e he => hlater e ?_⟩
  · obtain rfl : e = era := Option.some.inj (he.symm.trans hnow)
    unfold Call.authors at hfits ⊢
    dsimp only at hfits ⊢
    by_cases hsame : s'.timeline.activeIndex = c.state.timeline.activeIndex
    · rw [if_pos hsame] at hfits ⊢
      have hactive : c.state.timeline.activeIndex = some e := hsame.symm.trans hnow
      -- the start of the era is still there, so its table was not cleared with it
      have hstart : s'.erasStartSessionIndex e = some start :=
        (congrArg Prod.fst (hrecorded.entry_kept (hrecorded.rotated ctx hrange hspares hrun)
          (Or.inl hactive) (Or.inl hnow))).trans hinTurn.starts
      rcases hwiped e with hkept | ⟨-, hcleared⟩
      · show (s'.erasRewardPoints e).Credits authors
        rw [hkept]
        exact h.active e hactive hfits
      · cases hstart.symm.trans hcleared
    · rw [if_neg hsame]
      have hempty : s'.erasRewardPoints e = default := by
        refine hwiped.default (h.later e ?_)
        rcases hinTurn.active with ⟨hactive, -⟩ | ⟨before, hactive, hnext, -⟩
        · exact absurd (hnow.trans hactive.symm) hsame
        · rw [hactive]
          exact Nat.le_of_eq hnext
      show (s'.erasRewardPoints e).Credits []
      rw [hempty]
      exact credits_default
  · rw [show (⟨c.session + 1, s'⟩ : Chain T).state.timeline.activeIndex = some era from hnow] at he
    exact he

/-- The calls that are neither rotations nor blocks leave the tables alone. -/
theorem between_points {call : Call T} (hauthor : ∀ author, call ≠ .noteAuthor author)
    (hdepth : ∀ depth deleted, call ≠ .dispatch .root (.setHistoryDepth depth deleted)) :
    Keeps (fun s : State T => s.erasRewardPoints) call.between := by
  cases call with
  | rotate ctx => exact .pure _
  | noteAuthor author => exact absurd rfl (hauthor author)
  | onFinalize ctx => exact onFinalize_frame (fun _ _ _ _ => rfl) ctx
  | reportOffence kind offenceSession offenders reported =>
    exact .bind (reportOffence_writes (fun _ _ => rfl) (fun _ _ => rfl) _ _ _ _) fun _ => .pure _
  | elsewhere balances messages historical => exact .store fun _ => rfl
  | dispatch origin call =>
    cases call with
    | forceSetEraPayout eraPayout =>
      cases origin with
      | root => exact .store fun _ => rfl
      | signed _ | none => exact .fail _
    | setHistoryDepth depth deleted =>
      cases origin with
      | root => exact absurd rfl (hdepth depth deleted)
      | signed _ | none => exact .fail _

/-- **The table of the active era counts the blocks of its authors.** -/
theorem Credited.step {c : Chain T} {authors : List AccountId} (h : Credited c authors)
    {plans : List (Plan AccountId)} (hrecorded : Recorded c plans) {call : Call T}
    (hrange : call.SessionInRange c) (hspares : call.SparesActive c)
    (hdepth : ∀ depth deleted, call ≠ .dispatch .root (.setHistoryDepth depth deleted)) :
    Credited (c.step call).1 (call.authors authors c (c.step call).1) := by
  have hbetween : (∀ ctx, call ≠ .rotate ctx) → (∀ author, call ≠ .noteAuthor author) →
      Credited (c.step call).1 authors := by
    intro hrotate hauthor
    refine h.of_eq ?_ (c.step_timeline hrotate hdepth).2
    rw [c.step_between hrotate]
    exact c.apply_keeps (between_points hauthor hdepth)
  cases call with
  | rotate ctx =>
    have hstep : (c.step (.rotate ctx)).1 = (c.rotate ctx).1 := rfl
    rw [hstep]
    unfold Chain.rotate
    rcases hrun : rotateSession ctx c.session c.state with ⟨_ | os, s'⟩
    · show Credited c (if c.state.timeline.activeIndex = c.state.timeline.activeIndex then authors
        else [])
      rw [if_pos rfl]
      exact h
    · exact h.rotated hrecorded ctx hrange hspares hrun
  | noteAuthor author => exact h.noteAuthor author
  | onFinalize _ | reportOffence _ _ _ _ | dispatch _ _ | elsewhere _ _ _ =>
    exact hbetween (by simp) (by simp)

/-- The genesis has no blocks. -/
theorem Genesis.credited (g : Genesis T) {c₀ : Chain T} {os₀ : List (Observed AccountId)}
    (hchain : g.chain = some (c₀, os₀)) : Credited c₀ [] := by
  obtain ⟨-, os₁, s₁, os₂, s₂, hplan₀, hplan₁, hstart⟩ := Genesis.hooks hchain
  have hempty : ∀ era, c₀.state.erasRewardPoints era = default := by
    intro era
    rw [startSession_points hstart]
    exact (planning_wiped hplan₁).default ((planning_wiped hplan₀).default rfl)
  refine ⟨fun era _ _ => ?_, fun era _ => hempty era⟩
  rw [hempty era]
  exact credits_default

/-! ## Who is excluded -/

/-- A validator authored nothing, or less than four fifths of the average, which is truncated. -/
def Idle (authors : List AccountId) (validators : Nat) (v : AccountId) : Prop :=
  authors.count v = 0 ∨ authors.count v < cutOff 80 authors.length validators

instance (authors : List AccountId) (validators : Nat) (v : AccountId) :
    Decidable (Idle authors validators v) :=
  inferInstanceAs (Decidable (_ ∨ _))

/-- Without stakers nobody is excluded. -/
theorem excludeValidators_of_nil {s : State T} {index : Nat} (h : (s.erasStakers index).keys = []) :
    s.excludeValidators index = [] := by
  unfold State.excludeValidators excludeOf
  rw [h]
  split
  · next hok =>
    split at hok
    · exact (Except.ok.inj hok).symm
    · cases hok
  · rfl

/-- **The idle stakers are excluded.** -/
theorem mem_excludeValidators {s : State T} {index : Nat} {authors : List AccountId}
    (hcredits : (s.erasRewardPoints index).Credits authors)
    (hlen : (s.erasStakers index).keys.length < 2 ^ 32) (hfits : 80 * authors.length < 2 ^ 32) :
    (s.excludeValidators index).Nodup ∧ ∀ v, v ∈ s.excludeValidators index ↔
      v ∈ (s.erasStakers index).keys ∧ Idle authors (s.erasStakers index).keys.length v := by
  rcases Nat.eq_zero_or_pos (s.erasStakers index).keys.length with hzero | hpos
  · have hnil := List.eq_nil_of_length_eq_zero hzero
    rw [excludeValidators_of_nil hnil, hnil]
    exact ⟨List.nodup_nil, fun v => by simp⟩
  obtain ⟨excluded, hexcluded, hsub, hmem⟩ := excludeOf_eq T.build (s.erasRewardPoints index) hpos
    hlen (by rw [hcredits.total]; exact hfits)
  have hsame : s.excludeValidators index = excluded := by
    unfold State.excludeValidators
    rw [hexcluded]
  rw [hsame]
  refine ⟨hsub.nodup (s.erasStakers index).keys_nodup, fun v => (hmem v).trans ?_⟩
  refine and_congr_right fun _ => ?_
  rw [hcredits.total, hcredits.individual]
  unfold Idle
  split
  · next hzero => exact iff_of_true nofun (Or.inl hzero)
  · next hsome =>
    constructor
    · exact fun h => Or.inr (h _ rfl)
    · rintro (hzero | hbelow) p hp
      · exact absurd hzero hsome
      · exact Option.some.inj hp ▸ hbelow

end OctopusPallets.Lpos
