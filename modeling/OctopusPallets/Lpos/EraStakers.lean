import OctopusPallets.Infra.Overwrite
import OctopusPallets.Lpos.EraRecords

/-!
# The stakers of an era and their total

The total of an era is a sum over the planned list, and its stakers are a map that the list is
written into. Later the two are only ever cleared together. So they agree as long as no entry of the
list overwrites another.

* `entered_run` — over every run, an era holds what was planned for it, or it is cleared
* `eras_agree_iff` — when the totals are those of the stakers, and the stakers those of the list
-/

namespace OctopusPallets.Lpos

open Infra Infra.Dispatch Infra.FixedWidth Infra.Overwrite

variable {AccountId : Type}

/-! ## The sum of the weights -/

/-- The weights over the naturals. -/
def Plan.weights (p : Plan AccountId) : Nat := (p.validators.map Prod.snd).sum

/-- **The total is the sum, cut at the maximum of the `u128`.** -/
theorem saturatingTotal_eq (validators : List (AccountId × Nat)) :
    saturatingTotal validators = min (validators.map Prod.snd).sum (2 ^ 128 - 1) := by
  have hfold : ∀ (l : List (AccountId × Nat)) (a : Nat), a ≤ 2 ^ 128 - 1 →
      l.foldl (fun total v => saturatingAdd 128 total v.2) a
        = min (a + (l.map Prod.snd).sum) (2 ^ 128 - 1) := by
    intro l
    induction l with
    | nil =>
      intro a ha
      exact (Nat.min_eq_left ha).symm
    | cons v l ih =>
      intro a _
      rw [List.foldl_cons, ih _ (show saturatingAdd 128 a v.2 ≤ _ from Nat.min_le_right _ _),
        List.map_cons, List.sum_cons]
      unfold saturatingAdd
      omega
  exact (hfold validators 0 (Nat.zero_le _)).trans (by rw [Nat.zero_add])

theorem saturatingTotal_of_lt {validators : List (AccountId × Nat)}
    (h : (validators.map Prod.snd).sum < 2 ^ 128) :
    saturatingTotal validators = (validators.map Prod.snd).sum := by
  rw [saturatingTotal_eq]
  exact Nat.min_eq_left (Nat.le_sub_one_of_lt h)

/-! ## What is stored of an era -/

namespace Timeline

/-- Nothing is stored of the era. -/
def Cleared (t : Timeline AccountId) (e : Nat) : Prop := t.stakers e = ∅ ∧ t.totalStake e = 0

theorem clear_stakes_of_ne (t : Timeline AccountId) {era e : Nat} (h : e ≠ era) :
    (t.clear era).stakers e = t.stakers e ∧ (t.clear era).totalStake e = t.totalStake e :=
  ⟨Function.update_of_ne h _ _, Function.update_of_ne h _ _⟩

theorem clear_cleared (t : Timeline AccountId) (era : Nat) : (t.clear era).Cleared era :=
  ⟨Function.update_self _ _ _, Function.update_self _ _ _⟩

theorem clearKept_cleared (t : Timeline AccountId) {kept era e : Nat} (h : e + kept = era) :
    (t.clearKept kept era).Cleared e := by
  unfold clearKept
  rw [checkedSub_eq_some.mpr (show era = kept + e by omega)]
  exact t.clear_cleared e

variable [DecidableEq AccountId]

/-- What was planned is stored. -/
def Holds (t : Timeline AccountId) (p : Plan AccountId) : Prop :=
  t.stakers p.era = insertStakers p.validators ∅ ∧ t.totalStake p.era = saturatingTotal p.validators

/-- Whatever is kept, the planned era holds its stakers, when nothing was stored of it. -/
theorem planKept_holds (t : Timeline AccountId) (kept era session : Nat)
    (validators : List (AccountId × Nat)) (hempty : t.stakers era = ∅) :
    (t.planKept kept era session validators).Holds ⟨era, session, validators⟩ := by
  refine ⟨?_, Function.update_self _ _ _⟩
  refine (Function.update_self _ _ _).trans (congrArg (insertStakers validators) ?_)
  rcases Nat.eq_zero_or_pos kept with rfl | hpos
  · exact (clearKept_cleared _ (Nat.add_zero era)).1
  · exact (clearKept_of_ne _ (by omega)).1.trans hempty

/-- Planning an era keeps what is stored of another, or clears it. -/
theorem planKept_other (t : Timeline AccountId) (kept session : Nat) {era e : Nat}
    (validators : List (AccountId × Nat)) (hne : e ≠ era) :
    (t.planKept kept era session validators).Cleared e ∨
      (t.planKept kept era session validators).stakers e = t.stakers e ∧
        (t.planKept kept era session validators).totalStake e = t.totalStake e := by
  by_cases hkept : e + kept = era
  · left
    have hcleared := clearKept_cleared { t with
      currentEra := some era
      start := Function.update t.start era (some session) } hkept
    exact ⟨(Function.update_of_ne hne _ _).trans hcleared.1,
      (Function.update_of_ne hne _ _).trans hcleared.2⟩
  · exact Or.inr (t.planKept_of_ne kept era session validators hne hkept)

/-! ## One change of the timeline -/

/-- The eras were planned one after the other; each holds what was planned or is cleared, and the
current one is not cleared. -/
structure Entered (t : Timeline AccountId) (plans : List (Plan AccountId)) : Prop where
  eras : plans.map Plan.era = List.range (following t.currentEra)
  active_le : following t.activeIndex ≤ following t.currentEra
  started : ∀ e, following t.currentEra ≤ e → t.start e = none
  stakes : ∀ e, t.Cleared e ∨ ∃ p ∈ plans, p.era = e ∧ t.Holds p
  current : ∀ p ∈ plans, t.currentEra = some p.era → t.Holds p

namespace Entered

variable {t t' : Timeline AccountId} {plans : List (Plan AccountId)}

theorem era_lt (h : t.Entered plans) {p : Plan AccountId} (hp : p ∈ plans) :
    p.era < following t.currentEra := by
  have hmem : p.era ∈ plans.map Plan.era := List.mem_map_of_mem hp
  rwa [h.eras, List.mem_range] at hmem

/-- No two plans are of one era. -/
theorem eq_of_era (h : t.Entered plans) {p q : Plan AccountId} (hp : p ∈ plans) (hq : q ∈ plans)
    (hera : p.era = q.era) : p = q := by
  have hnodup : (plans.map Plan.era).Nodup := h.eras ▸ List.nodup_range
  exact List.inj_on_of_nodup_map hnodup hp hq hera

/-- What is stored of a planned era. -/
theorem plan_stakes (h : t.Entered plans) {p : Plan AccountId} (hp : p ∈ plans) :
    t.Cleared p.era ∨ t.Holds p := by
  rcases h.stakes p.era with hcleared | ⟨q, hq, hera, hholds⟩
  · exact Or.inl hcleared
  · rw [h.eq_of_era hq hp hera] at hholds
    exact Or.inr hholds

/-- Nothing is stored of an era that is not planned yet. -/
theorem later (h : t.Entered plans) {e : Nat} (he : following t.currentEra ≤ e) : t.Cleared e := by
  rcases h.stakes e with hcleared | ⟨p, hp, rfl, -⟩
  · exact hcleared
  · exact absurd (h.era_lt hp) (Nat.not_lt.mpr he)

theorem of_unprinted (h : t.Entered plans) (ht : t'.unprinted = t.unprinted) :
    t'.Entered plans := by
  have h' : t.unprinted.Entered plans := ⟨h.eras, h.active_le, h.started, h.stakes, h.current⟩
  rw [← ht] at h'
  exact ⟨h'.eras, h'.active_le, h'.started, h'.stakes, h'.current⟩

/-- An era that starts is one that was planned. -/
theorem startPhase (h : t.Entered plans) (setId session : Nat) :
    (t.startPhase setId session).Entered plans := by
  unfold Timeline.startPhase
  by_cases hstarts : t.startsEra session = true
  · rw [if_pos hstarts]
    refine ⟨h.eras, ?_, h.started, h.stakes, h.current⟩
    by_contra hlt
    have hnone := h.started (following t.activeIndex) (Nat.lt_succ_iff.mp (Nat.lt_of_not_le hlt))
    unfold startsEra at hstarts
    rw [hnone] at hstarts
    cases hstarts
  · rw [if_neg hstarts]
    exact h

theorem clear (h : t.Entered plans) {era : Nat} (hne : t.currentEra ≠ some era) :
    (t.clear era).Entered plans := by
  refine ⟨h.eras, h.active_le, fun e he => ?_, fun e => ?_, fun p hp hcurrent => ?_⟩
  · rw [clear_start, h.started e he, ite_self]
  · by_cases heq : e = era
    · exact Or.inl (heq ▸ t.clear_cleared era)
    · obtain ⟨hstakers, htotal⟩ := t.clear_stakes_of_ne heq
      rcases h.stakes e with hcleared | ⟨p, hp, rfl, hholds⟩
      · exact Or.inl ⟨hstakers.trans hcleared.1, htotal.trans hcleared.2⟩
      · exact Or.inr ⟨p, hp, rfl, hstakers.trans hholds.1, htotal.trans hholds.2⟩
  · have hneq : p.era ≠ era := by
      rintro rfl
      exact hne hcurrent
    obtain ⟨hstakers, htotal⟩ := t.clear_stakes_of_ne hneq
    obtain ⟨hholds, hholds'⟩ := h.current p hp hcurrent
    exact ⟨hstakers.trans hholds, htotal.trans hholds'⟩

theorem foldl_clear (eras : List Nat) : ∀ {t : Timeline AccountId}, t.Entered plans →
    (∀ era ∈ eras, t.currentEra ≠ some era) → (eras.foldl Timeline.clear t).Entered plans := by
  induction eras with
  | nil => exact fun h _ => h
  | cons era eras ih =>
    intro t h hne
    exact ih (h.clear (hne era (.head _))) fun e he => hne e (.tail _ he)

/-- Root changes the depth: only eras before the current one are cleared. -/
theorem setHistoryDepth (h : t.Entered plans) {era : Nat} (hcurrent : t.currentEra = some era)
    (first depth : Nat) :
    Entered { t.clearEras first (era - depth) with historyDepth := depth } plans := by
  have hcleared : (t.clearEras first (era - depth)).Entered plans := by
    refine foldl_clear _ h fun e he heq => ?_
    rw [hcurrent, Option.some.injEq] at heq
    rw [List.mem_range'_1] at he
    omega
  exact ⟨hcleared.eras, hcleared.active_le, hcleared.started, hcleared.stakes, hcleared.current⟩

/-- **The next era is planned.** -/
theorem plan (h : t.Entered plans) (kept session : Nat) (validators : List (AccountId × Nat)) :
    (t.planKept kept (following t.currentEra) session validators).Entered
      (plans ++ [⟨following t.currentEra, session, validators⟩]) := by
  have hholds := t.planKept_holds kept (following t.currentEra) session validators
    (h.later (Nat.le_refl _)).1
  have hcurrent := t.planKept_currentEra kept (following t.currentEra) session validators
  refine ⟨?_, ?_, fun e he => ?_, fun e => ?_, fun p hp he => ?_⟩
  · rw [List.map_append, h.eras, hcurrent]
    exact List.range_succ.symm
  · unfold activeIndex
    rw [planKept_activeEra, hcurrent]
    exact Nat.le_succ_of_le h.active_le
  · rw [hcurrent] at he
    have he' : following t.currentEra < e := he
    rw [planKept_start, if_neg he'.ne', h.started e he'.le, ite_self]
  · by_cases heq : e = following t.currentEra
    · exact Or.inr ⟨_, List.mem_append_right _ (.head _), heq.symm, hholds⟩
    · rcases t.planKept_other kept session validators heq with hcleared | ⟨hstakers, htotal⟩
      · exact Or.inl hcleared
      · rcases h.stakes e with hcleared | ⟨p, hp, rfl, hp'⟩
        · exact Or.inl ⟨hstakers.trans hcleared.1, htotal.trans hcleared.2⟩
        · exact Or.inr ⟨p, List.mem_append_left _ hp, rfl, hstakers.trans hp'.1,
            htotal.trans hp'.2⟩
  · rcases List.mem_append.mp hp with hp | hp
    · -- an older plan is not that of the current era
      rw [hcurrent, Option.some.injEq] at he
      exact absurd (h.era_lt hp) (by omega)
    · rw [List.mem_singleton.mp hp]
      exact hholds

end Entered

end Timeline

/-! ## One call -/

variable [DecidableEq AccountId] {T : Config AccountId}

/-- The stakes of a chain are as planned or cleared, and at most one era is planned a session. -/
structure Entered (c : Chain T) (plans : List (Plan AccountId)) : Prop where
  timeline : c.state.timeline.Entered plans
  following_le : following c.state.timeline.currentEra ≤ c.session + 2

namespace Entered

variable {c : Chain T} {plans : List (Plan AccountId)}

theorem of_timeline (h : Entered c plans) {c' : Chain T} (hsession : c'.session = c.session)
    (htimeline : c'.state.timeline = c.state.timeline) : Entered c' plans := by
  obtain ⟨hentered, hle⟩ := h
  rw [← htimeline] at hentered hle
  rw [← hsession] at hle
  exact ⟨hentered, hle⟩

theorem setHistoryDepth (h : Entered c plans) (newHistoryDepth eraItemsDeleted : Nat) :
    Entered (c.apply (Lpos.setHistoryDepth .root newHistoryDepth eraItemsDeleted)) plans := by
  cases hcurrent : c.state.currentEra with
  | none =>
    have hsame : Lpos.setHistoryDepth .root newHistoryDepth eraItemsDeleted c.state
        = (.ok (), c.state) := by
      unfold Lpos.setHistoryDepth ensureRoot
      rw [pure_bind, load_bind, hcurrent]
      rfl
    unfold Chain.apply
    rw [hsame]
    exact h
  | some era =>
    obtain ⟨s', hset, htimeline⟩ :=
      setHistoryDepth_timeline hcurrent newHistoryDepth eraItemsDeleted
    have hafter := h.timeline.setHistoryDepth hcurrent (era - c.state.historyDepth) newHistoryDepth
    rw [← htimeline] at hafter
    have hsame : s'.timeline.currentEra = c.state.timeline.currentEra := by
      rw [htimeline]
      exact (Timeline.foldl_clear _ c.state.timeline).2.1
    unfold Chain.apply
    rw [hset]
    refine ⟨hafter, ?_⟩
    dsimp only
    rw [hsame]
    exact h.following_le

/-- A rotation starts an era that was planned, and plans the next one or none. -/
theorem rotated (h : Entered c plans) (ctx : Context AccountId) {s' : State T}
    {os : List (Observed AccountId)} (hrange : c.session + 2 < 2 ^ 32)
    (hrun : rotateSession ctx c.session c.state = (.ok os, s')) :
    Entered ⟨c.session + 1, s'⟩ (plans ++
      plannedEra c.state.currentEra (c.session + 2) ctx ⟨c.session + 1, s'⟩) := by
  have hle := h.following_le
  obtain ⟨setId, kept, -, -, htimeline⟩ := rotateSession_of_ok ctx
    ((h.timeline.active_le.trans hle).trans_lt hrange) (hle.trans_lt hrange) hrun
  have hstarted := h.timeline.startPhase setId (c.session + 1)
  have hcurrent := c.state.timeline.startPhase_currentEra setId (c.session + 1)
  generalize c.state.timeline.startPhase setId (c.session + 1) = t at hstarted hcurrent htimeline
  unfold Timeline.planPhase at htimeline
  by_cases hplans : t.plansEra T.sessionsPerEra (c.session + 2) = true
  · rw [if_pos hplans] at htimeline
    have hafter := (hstarted.plan kept (c.session + 2) ctx.appchain.plannedValidators).of_unprinted
      htimeline
    have hera : s'.currentEra = some (following t.currentEra) :=
      (congrArg Timeline.currentEra htimeline).trans (t.planKept_currentEra kept
        (following t.currentEra) (c.session + 2) ctx.appchain.plannedValidators)
    have hnew : some (following t.currentEra) ≠ c.state.currentEra := by
      intro heq
      have hsame : t.currentEra = some (following t.currentEra) := hcurrent.trans heq.symm
      cases hera' : t.currentEra with
      | none => rw [hera'] at hsame; cases hsame
      | some era =>
        rw [hera'] at hsame
        exact absurd (Option.some.inj hsame) (Nat.ne_of_lt (Nat.lt_succ_self era))
    rw [plannedEra_next (c := ⟨c.session + 1, s'⟩) hera hnew]
    have hfollowing : following s'.currentEra = following c.state.currentEra + 1 := by
      rw [hera, ← show t.currentEra = c.state.currentEra from hcurrent]
      rfl
    exact ⟨hafter, hfollowing.trans_le (Nat.succ_le_succ hle)⟩
  · rw [if_neg hplans] at htimeline
    have hera : s'.currentEra = c.state.currentEra :=
      (congrArg Timeline.currentEra htimeline).trans hcurrent
    rw [plannedEra_same (c := ⟨c.session + 1, s'⟩) hera, List.append_nil]
    refine ⟨hstarted.of_unprinted htimeline, ?_⟩
    have hsame : following s'.currentEra = following c.state.currentEra := congrArg following hera
    exact hsame.trans_le (hle.trans (Nat.le_succ _))

/-- **Every call keeps it.** -/
theorem step (h : Entered c plans) {call : Call T} (hrange : call.SessionInRange c) :
    Entered (c.step call).1 (plans ++ call.plans c (c.step call).1) := by
  refine Chain.step_plans (fun c' hsession htimeline => h.of_timeline hsession htimeline) ?_ ?_
  · rintro ctx os s' rfl hrun
    exact h.rotated ctx hrange hrun
  · rintro depth deleted rfl
    exact h.setHistoryDepth depth deleted

end Entered

/-- The genesis plans era 0, and era 1 if eras have one session. -/
theorem Genesis.entered (g : Genesis T) {c₀ : Chain T} {os₀ : List (Observed AccountId)}
    (hchain : g.chain = some (c₀, os₀)) : Entered c₀ (g.plans c₀) := by
  obtain ⟨kept, setId, t, -, rfl, -, hsession, htimeline⟩ := g.phases hchain
  have hblank : g.state.timeline.Entered [] :=
    ⟨rfl, Nat.le_refl _, fun _ _ => rfl, fun _ => Or.inl ⟨rfl, rfl⟩, fun _ hp => by cases hp⟩
  have hfirst := hblank.plan kept 0 g.ctx.appchain.plannedValidators
  have hzero : following (g.state.timeline.planKept kept 0 0
      g.ctx.appchain.plannedValidators).currentEra = 1 := by
    rw [Timeline.planKept_currentEra]
    rfl
  replace hfirst : (g.state.timeline.planKept kept 0 0 g.ctx.appchain.plannedValidators).Entered
    [⟨0, 0, g.ctx.appchain.plannedValidators⟩] := hfirst
  generalize g.state.timeline.planKept kept 0 0 g.ctx.appchain.plannedValidators = t
    at hfirst hzero htimeline
  have hplans : ∀ n, following c₀.state.timeline.currentEra = n →
      g.plans c₀ = (List.range n).map fun era => ⟨era, era, g.ctx.appchain.plannedValidators⟩ := by
    rintro n rfl
    rfl
  have hcurrent : c₀.state.timeline.currentEra
      = (t.planPhase T.sessionsPerEra kept 1 g.ctx.appchain.plannedValidators).currentEra :=
    (congrArg Timeline.currentEra htimeline).trans (Timeline.startPhase_currentEra _ _ _)
  unfold Timeline.planPhase at htimeline hcurrent
  by_cases hplan : t.plansEra T.sessionsPerEra 1 = true
  · rw [if_pos hplan, hzero] at htimeline hcurrent
    have hsecond := hfirst.plan kept 1 g.ctx.appchain.plannedValidators
    rw [hzero] at hsecond
    rw [Timeline.planKept_currentEra] at hcurrent
    rw [hplans 2 (by rw [hcurrent]; rfl)]
    refine ⟨(hsecond.startPhase setId 0).of_unprinted htimeline, ?_⟩
    rw [hcurrent, hsession]
    exact Nat.le_refl 2
  · rw [if_neg hplan] at htimeline hcurrent
    rw [hplans 1 (by rw [hcurrent]; exact hzero)]
    refine ⟨(hfirst.startPhase setId 0).of_unprinted htimeline, ?_⟩
    rw [hcurrent, hzero, hsession]
    exact Nat.le_succ 1

/-- **Over every run, an era holds what was planned for it, or it is cleared.** -/
theorem entered_run (g : Genesis T) {c₀ : Chain T} {os₀ : List (Observed AccountId)}
    (hchain : g.chain = some (c₀, os₀)) (calls : List (Call T))
    (hcalls : (plansMachine T).Along (fun c call => call.SessionInRange c) calls c₀) :
    Entered ((plansMachine T).run calls c₀) (g.plans c₀ ++ (plansMachine T).log calls c₀) := by
  refine (plansMachine T).invariant (I := fun _ c plans => Entered c (g.plans c₀ ++ plans))
    ?_ ?_ calls hcalls
  · rw [List.append_nil]
    exact g.entered hchain
  · intro _ c plans call hc hcall
    have hstep := hc.step hcall
    rwa [List.append_assoc] at hstep

/-! ## Totals and stakers -/

omit [DecidableEq AccountId] in
/-- The total of every era is that of its stakers, and the stakers of the current one read back as
it was planned. -/
structure Agrees (s : Storage AccountId) (plans : List (Plan AccountId)) : Prop where
  total : ∀ e, s.erasTotalStake e = ((s.erasStakers e).entries.map Sigma.snd).sum
  exposure : ∀ p ∈ plans, s.currentEra = some p.era →
    validatorsWithExposure s (p.validators.map Prod.fst) = p.validators

omit [DecidableEq AccountId] in
/-- An account that is listed more than once has no weight in any of its entries. -/
def Plan.Lossless (p : Plan AccountId) : Prop :=
  p.validators.Pairwise fun v w => v.1 = w.1 → v.2 = 0 ∧ w.2 = 0

instance (p : Plan AccountId) : Decidable p.Lossless :=
  inferInstanceAs (Decidable (List.Pairwise _ _))

/-- The list that `trigger_new_era` returns. -/
theorem triggerNewEra_elected {startSessionIndex : Nat} {validators : List (AccountId × Nat)}
    {s s' : State T} {elected : List AccountId}
    (h : triggerNewEra startSessionIndex validators s = (.ok elected, s')) :
    elected = validators.map Prod.fst := by
  unfold triggerNewEra at h
  obtain ⟨newPlannedEra, s₁, -, h⟩ := bind_eq_ok.mp h
  obtain ⟨historyDepth, s₂, -, h⟩ := bind_eq_ok.mp h
  obtain ⟨kept, s₃, -, h⟩ := bind_eq_ok.mp h
  obtain ⟨_, s₄, -, h⟩ := bind_eq_ok.mp h
  unfold storeStakersInfo at h
  obtain ⟨_, s₅, -, h⟩ := bind_eq_ok.mp h
  obtain ⟨_, s₆, -, h⟩ := bind_eq_ok.mp h
  exact (pure_eq_ok.mp h).1

/-- The total of an era that holds its plan misses what was overwritten. -/
theorem Timeline.Holds.total_iff {t : Timeline AccountId} {p : Plan AccountId} (h : t.Holds p)
    (hweights : p.weights < 2 ^ 128) :
    t.totalStake p.era = ((t.stakers p.era).entries.map Sigma.snd).sum ↔
      (overwritten p.validators).sum = 0 := by
  obtain ⟨hstakers, htotal⟩ := h
  have hsum : (((insertStakers p.validators ∅).entries.map Sigma.snd).sum)
      + (overwritten p.validators).sum = (p.validators.map Prod.snd).sum :=
    sum_insertAll p.validators
  rw [hstakers, htotal, saturatingTotal_of_lt hweights, ← hsum]
  exact Nat.add_eq_left

/-- Of an account that is listed twice, the last weight is its stake. -/
theorem Storage.stakeIn_of_stakers {s : Storage AccountId} {era : Nat}
    {validators : List (AccountId × Nat)} (h : s.erasStakers era = insertStakers validators ∅)
    (who : AccountId) : s.stakeIn era who = held validators who := by
  unfold Storage.stakeIn
  rw [h]
  exact insertAll_held validators who

theorem Storage.stakeIn_of_empty {s : Storage AccountId} {era : Nat}
    (h : s.erasStakers era = ∅) (who : AccountId) : s.stakeIn era who = 0 := by
  unfold Storage.stakeIn
  rw [h]
  rfl

/-- The exposures in the current era are the stakes in it. -/
theorem Plan.exposure {s : Storage AccountId} {p : Plan AccountId}
    (hcurrent : s.currentEra = some p.era)
    (hstakers : s.erasStakers p.era = insertStakers p.validators ∅) :
    validatorsWithExposure s (p.validators.map Prod.fst)
      = p.validators.map fun v => (v.1, held p.validators v.1) := by
  unfold validatorsWithExposure
  rw [hcurrent, List.map_map]
  exact List.map_congr_left fun v _ =>
    congrArg (Prod.mk v.1) (Storage.stakeIn_of_stakers hstakers v.1)

namespace Entered

variable {c : Chain T} {plans : List (Plan AccountId)}

/-- The exposures of the current era: of an account that is listed twice, the last weight. -/
theorem exposure (h : Entered c plans) {p : Plan AccountId} (hp : p ∈ plans)
    (hcurrent : c.state.currentEra = some p.era) :
    validatorsWithExposure c.state.toStorage (p.validators.map Prod.fst)
      = p.validators.map fun v => (v.1, held p.validators v.1) :=
  p.exposure hcurrent (h.timeline.current p hp hcurrent).1

theorem agrees (h : Entered c plans) (hweights : ∀ p ∈ plans, p.weights < 2 ^ 128)
    (hlossless : ∀ p ∈ plans, p.Lossless) : Agrees c.state.toStorage plans := by
  refine ⟨fun e => ?_, fun p hp hcurrent => ?_⟩
  · rcases h.timeline.stakes e with ⟨hstakers, htotal⟩ | ⟨p, hp, rfl, hholds⟩
    · have hempty : c.state.erasStakers e = ∅ := hstakers
      rw [hempty]
      exact htotal
    · exact (hholds.total_iff (hweights p hp)).mpr (lossless_iff.mpr (hlossless p hp)).1
  · exact (h.exposure hp hcurrent).trans (lossless_iff.mpr (hlossless p hp)).2

/-- Where they agree, the current era was planned without a loss. -/
theorem lossless (h : Entered c plans) (hagrees : Agrees c.state.toStorage plans)
    {p : Plan AccountId} (hp : p ∈ plans) (hweights : p.weights < 2 ^ 128)
    (hcurrent : c.state.currentEra = some p.era) : p.Lossless := by
  have htotal := ((h.timeline.current p hp hcurrent).total_iff hweights).mp (hagrees.total p.era)
  have hback := (h.exposure hp hcurrent).symm.trans (hagrees.exposure p hp hcurrent)
  exact lossless_iff.mp ⟨htotal, hback⟩

end Entered

omit [DecidableEq AccountId] in
/-- A call plans the era that is the current one after it. -/
theorem Call.plans_current {c c' : Chain T} {call : Call T} {p : Plan AccountId}
    (hp : p ∈ call.plans c c') : c'.state.currentEra = some p.era := by
  cases call with
  | rotate ctx =>
    unfold Call.plans plannedEra at hp
    dsimp only at hp
    by_cases hsame : c'.state.currentEra = c.state.currentEra
    · rw [if_pos hsame] at hp
      cases hp
    · rw [if_neg hsame, Option.mem_toList, Option.map_eq_some_iff] at hp
      obtain ⟨era, hera, rfl⟩ := hp
      exact hera
  | _ => cases hp

omit [DecidableEq AccountId] in
/-- The plans of the genesis are of one list, and the last of them is that of the current era. -/
theorem Genesis.plans_current (g : Genesis T) {c₀ : Chain T} {p : Plan AccountId}
    (hp : p ∈ g.plans c₀) :
    ∃ q ∈ g.plans c₀, c₀.state.currentEra = some q.era ∧ q.validators = p.validators := by
  unfold Genesis.plans at hp ⊢
  obtain ⟨era, hera, rfl⟩ := List.mem_map.mp hp
  rw [List.mem_range] at hera
  cases hcurrent : c₀.state.currentEra with
  | none => rw [hcurrent] at hera; exact absurd hera (Nat.not_lt_zero era)
  | some current =>
    exact ⟨_, List.mem_map_of_mem (List.mem_range.mpr (Nat.lt_succ_self current)), rfl, rfl⟩

/--
**The totals are those of the stakers, and the stakers those of the lists, exactly when no list of
the run gives a weight to an account that it has twice.**
-/
theorem eras_agree_iff (g : Genesis T) {c₀ : Chain T} {os₀ : List (Observed AccountId)}
    (hchain : g.chain = some (c₀, os₀)) (calls : List (Call T))
    (hcalls : (plansMachine T).Along (fun c call => call.SessionInRange c) calls c₀)
    (hweights : ∀ p ∈ g.plans c₀ ++ (plansMachine T).log calls c₀, p.weights < 2 ^ 128) :
    (∀ startSessionIndex validators (s s' : State T) elected,
      triggerNewEra startSessionIndex validators s = (.ok elected, s') →
        elected = validators.map Prod.fst) ∧
    ((∀ js, js <+: calls →
        Agrees ((plansMachine T).run js c₀).state.toStorage
          (g.plans c₀ ++ (plansMachine T).log js c₀)) ↔
      ∀ p ∈ g.plans c₀ ++ (plansMachine T).log calls c₀, p.Lossless) := by
  refine ⟨fun _ _ _ _ _ => triggerNewEra_elected, fun h p hp => ?_, fun h js hjs => ?_⟩
  · rcases List.mem_append.mp hp with hgenesis | hlog
    · obtain ⟨q, hq, hcurrent, hsame⟩ := g.plans_current hgenesis
      have hagrees := h [] (List.nil_prefix)
      rw [Machine.run, Machine.log, List.append_nil] at hagrees
      have hlossless := (g.entered hchain).lossless hagrees hq
        (hweights q (List.mem_append_left _ hq)) hcurrent
      unfold Plan.Lossless at hlossless ⊢
      rwa [← hsame]
    · -- right after the call that planned it, its era is the current one
      obtain ⟨js, call, ks, rfl, hmem⟩ := Machine.mem_log _ hlog
      have hprefix : js ++ [call] <+: js ++ call :: ks :=
        (List.prefix_append_right_inj js).mpr (by simp)
      have hsplit : js ++ call :: ks = (js ++ [call]) ++ ks := by simp
      rw [hsplit, Machine.along_append] at hcalls
      have hentered := entered_run g hchain (js ++ [call]) hcalls.1
      have hplan : p ∈ g.plans c₀ ++ (plansMachine T).log (js ++ [call]) c₀ := by
        refine List.mem_append_right _ ?_
        rw [Machine.log_append]
        refine List.mem_append_right _ ?_
        rw [Machine.log, Machine.log, List.append_nil]
        exact hmem
      refine hentered.lossless (h _ hprefix) hplan (hweights p hp) ?_
      rw [Machine.run_append]
      exact Call.plans_current hmem
  · obtain ⟨ks, rfl⟩ := hjs
    have hsub : ∀ p ∈ g.plans c₀ ++ (plansMachine T).log js c₀,
        p ∈ g.plans c₀ ++ (plansMachine T).log (js ++ ks) c₀ := by
      intro p hp
      rw [Machine.log_append, ← List.append_assoc]
      exact List.mem_append_left _ hp
    rw [Machine.along_append] at hcalls
    exact (entered_run g hchain js hcalls.1).agrees (fun p hp => hweights p (hsub p hp))
      fun p hp => h p (hsub p hp)

theorem eras_agree_over_four_sessions :
    ∃ c₀ os₀, Sample.genesis.chain = some (c₀, os₀) ∧
      ∀ js, js <+: Sample.calls →
        Agrees ((plansMachine Sample.config).run js c₀).state.toStorage
          (Sample.genesis.plans c₀ ++ (plansMachine Sample.config).log js c₀) := by
  have h := eras_agree_iff Sample.genesis rfl Sample.calls (by decide) (by decide)
  exact ⟨_, _, rfl, h.2.mpr (by decide)⟩

namespace Sample

/-- The appchain has planned account 1 twice. -/
def listedTwice : Context Nat := ⟨⟨true, 2, [(1, 5), (1, 7)]⟩, 1⟩

end Sample

/-- The total of era 1 is 12 where its only staker has 7, and the exposures read 7 twice. -/
theorem era_total_counts_twice :
    ∃ c₀ os₀, Sample.genesis.chain = some (c₀, os₀) ∧
      (plansMachine Sample.config).log [.rotate Sample.listedTwice] c₀
        = [⟨1, 2, [(1, 5), (1, 7)]⟩] ∧
      ∃ s, ((plansMachine Sample.config).run [.rotate Sample.listedTwice] c₀).state.toStorage = s ∧
        s.currentEra = some 1 ∧
        s.erasTotalStake 1 = 12 ∧
        ((s.erasStakers 1).entries.map Sigma.snd).sum = 7 ∧
        validatorsWithExposure s [1, 1] = [(1, 7), (1, 7)] ∧
        ¬ Agrees s [⟨1, 2, [(1, 5), (1, 7)]⟩] := by
  refine ⟨_, _, rfl, by decide, _, rfl, by decide, by decide, by decide, by decide, fun h => ?_⟩
  exact absurd (h.total 1) (by decide)

end OctopusPallets.Lpos
