import OctopusPallets.Lpos.EraRecords
import OctopusPallets.Lpos.Payout

/-!
# How the active era changes

A rotation makes the current era the active one when it was planned ahead, and nothing else changes
the active era. A genesis whose depth clears what it plans has no active era, and never gets one.

* `Recorded.rotated_active`, `Recorded.rotated_now`, `Recorded.rotated_ahead` — what a rotation does to
  the active era and to the next one
* `Stuck.step` — a chain without the start of era 0 has no active era
-/

namespace OctopusPallets.Lpos

open Infra Infra.Dispatch Infra.FixedWidth

variable {AccountId : Type} {T : Config AccountId} [DecidableEq AccountId]

/-- What a rotation does to the active era. -/
theorem Recorded.rotated_active {c : Chain T} {plans : List (Plan AccountId)}
    (h : Recorded c plans) (ctx : Context AccountId) {s' : State T}
    {os : List (Observed AccountId)} (hrange : c.session + 2 < 2 ^ 32)
    (hrun : rotateSession ctx c.session c.state = (.ok os, s')) {era : Nat}
    (hera : c.state.timeline.currentEra = some era) :
    (c.state.timeline.activeIndex = some era ∧
        s'.timeline.activeEra = c.state.timeline.activeEra) ∨
      c.state.timeline.activeIndex ≠ some era ∧
        ∃ setId, T.build.sub 32 ctx.appchain.nextSetId 1 = some setId ∧
          s'.timeline.activeEra = some (era, setId) := by
  obtain ⟨era', start, hinTurn⟩ := h.inTurn
  obtain rfl : era' = era := Option.some.inj (hinTurn.current.symm.trans hera)
  have hle := hinTurn.era_lt
  have hbound := hinTurn.following_le
  have hfollowing : following c.state.timeline.currentEra = era' + 1 := by
    rw [hera]
    rfl
  obtain ⟨setId, kept, hsub, -, htimeline⟩ := rotateSession_of_ok ctx (by omega) (by omega) hrun
  have hactive : s'.timeline.activeEra
      = (c.state.timeline.startPhase setId (c.session + 1)).activeEra :=
    (Timeline.activeEra_of_unprinted htimeline).trans (Timeline.planPhase_activeEra _ _ _ _ _)
  have hstarts := hinTurn.startsEra_eq
  unfold Timeline.startPhase at hactive
  by_cases hsame : c.state.timeline.activeIndex = some era'
  · rw [hstarts, hsame, if_neg (by simp)] at hactive
    exact Or.inl ⟨hsame, hactive⟩
  · have hyes : c.state.timeline.startsEra (c.session + 1) = true := by
      rw [hstarts, decide_eq_true hsame]
    rw [if_pos hyes] at hactive
    refine Or.inr ⟨hsame, setId, hsub hyes, ?_⟩
    rcases hinTurn.active with ⟨heq, -⟩ | ⟨before, heq, rfl, -⟩
    · exact absurd heq hsame
    · rw [hactive, heq]
      rfl

/-- A rotation leaves the depth as it is. -/
theorem rotateSession_historyDepth (ctx : Context AccountId) {s s' : State T} {i : Nat}
    {os : List (Observed AccountId)} (hactive : following s.timeline.activeIndex < 2 ^ 32)
    (hcurrent : following s.timeline.currentEra < 2 ^ 32)
    (h : rotateSession ctx i s = (.ok os, s')) : s'.historyDepth = s.historyDepth := by
  obtain ⟨setId, kept, -, -, htimeline⟩ := rotateSession_of_ok ctx hactive hcurrent h
  refine (congrArg Timeline.historyDepth htimeline).trans ?_
  exact (Timeline.planPhase_historyDepth _ _ _ _ _).trans
    (Timeline.startPhase_historyDepth _ _ _)

/-- Of two records of one chain, the later one tells the same of the eras that were planned. -/
theorem Recorded.entry_kept {c c' : Chain T} {plans more : List (Plan AccountId)}
    (h : Recorded c plans) (h' : Recorded c' (plans ++ more)) {era : Nat}
    (hera : c.state.timeline.activeIndex = some era ∨ c.state.timeline.currentEra = some era)
    (hera' : c'.state.timeline.activeIndex = some era ∨ c'.state.timeline.currentEra = some era) :
    c'.state.timeline.entry era = c.state.timeline.entry era := by
  obtain ⟨current, start, hinTurn⟩ := h.inTurn
  have hle : era ≤ current := by
    rcases hera with hactive | hcurrent
    · have hbound := hinTurn.following_le
      rw [hactive] at hbound
      exact Nat.le_of_succ_le_succ hbound
    · exact Nat.le_of_eq (Option.some.inj (hcurrent.symm.trans hinTurn.current))
  have hmem : era ∈ plans.map Plan.era := by
    rw [h.eras, hinTurn.current, List.mem_range]
    exact Nat.lt_succ_of_le hle
  obtain ⟨p, hp, rfl⟩ := List.mem_map.mp hmem
  rw [h.kept p hp hera, h'.kept p (List.mem_append_left _ hp) hera']

/-- After a rotation the era that was the current one is active, with the stakes it was planned with. -/
theorem Recorded.rotated_now {c : Chain T} {plans : List (Plan AccountId)} (h : Recorded c plans)
    (ctx : Context AccountId) {s' : State T} {os : List (Observed AccountId)}
    (hrange : c.session + 2 < 2 ^ 32) (hspares : (Call.rotate ctx : Call T).SparesActive c)
    (hrun : rotateSession ctx c.session c.state = (.ok os, s')) {era : Nat}
    (hera : c.state.timeline.currentEra = some era) :
    s'.timeline.activeIndex = some era ∧
      s'.timeline.stakers era = c.state.timeline.stakers era := by
  have hnow : s'.timeline.activeIndex = some era := by
    unfold Timeline.activeIndex
    rcases h.rotated_active ctx hrange hrun hera with ⟨hsame, heq⟩ | ⟨-, setId, -, heq⟩
    · rw [heq]
      exact hsame
    · rw [heq]
      rfl
  exact ⟨hnow, congrArg (fun entry => entry.2.1)
    (h.entry_kept (h.rotated ctx hrange hspares hrun) (Or.inr hera) (Or.inl hnow))⟩

/-- An era that a rotation plans has the stakes of the planned validators. -/
theorem Recorded.rotated_ahead {c : Chain T} {plans : List (Plan AccountId)} (h : Recorded c plans)
    (ctx : Context AccountId) {s' : State T} {os : List (Observed AccountId)}
    (hrange : c.session + 2 < 2 ^ 32) (hspares : (Call.rotate ctx : Call T).SparesActive c)
    (hrun : rotateSession ctx c.session c.state = (.ok os, s')) {era : Nat}
    (hera : s'.timeline.currentEra = some era) (hnew : some era ≠ c.state.currentEra) :
    s'.timeline.stakers era = insertStakers ctx.appchain.plannedValidators ∅ := by
  have hplan := plannedEra_next (c := ⟨c.session + 1, s'⟩) hera hnew (c.session + 2) ctx
  have hmem : (⟨era, c.session + 2, ctx.appchain.plannedValidators⟩ : Plan AccountId) ∈
      plans ++ plannedEra c.state.currentEra (c.session + 2) ctx ⟨c.session + 1, s'⟩ := by
    rw [hplan]
    simp
  exact congrArg (fun entry => entry.2.1)
    ((h.rotated ctx hrange hspares hrun).kept _ hmem (Or.inr hera))

theorem Genesis.historyDepth_of_chain (g : Genesis T) {c₀ : Chain T}
    {os₀ : List (Observed AccountId)} (hchain : g.chain = some (c₀, os₀)) :
    c₀.state.historyDepth = g.historyDepth := by
  obtain ⟨kept, setId, t, -, rfl, -, -, htimeline⟩ := g.phases hchain
  refine (congrArg Timeline.historyDepth htimeline).trans ?_
  refine (Timeline.startPhase_historyDepth _ _ _).trans ?_
  exact (Timeline.planPhase_historyDepth _ _ _ _ _).trans (Timeline.planKept_historyDepth _ _ _ _ _)

/-! ## Its start -/

omit [DecidableEq AccountId] in
theorem startEra_activeEra (ctx : Context AccountId) {s s' : State T} {session : Nat}
    (h : startEra ctx session s = (.ok (), s')) :
    ∃ activeEra, s'.activeEra = some activeEra ∧ activeEra.start = none := by
  unfold startEra at h
  rw [bind_eq_ok] at h
  obtain ⟨era, s₁, hactivate, h⟩ := h
  have hs₁ : ∃ setId, s₁.activeEra = some ⟨era, setId, none⟩ := by
    unfold activateEra at hactivate
    simp only [load_bind, bind_eq_ok, store_eq_ok, pure_eq_ok] at hactivate
    obtain ⟨index, _, -, setId, _, -, _, _, rfl, rfl, rfl⟩ := hactivate
    exact ⟨setId, rfl⟩
  obtain ⟨setId, hs₁⟩ := hs₁
  refine ⟨⟨era, setId, none⟩, ?_, rfl⟩
  rw [store_bind] at h
  split at h
  · rw [load_bind] at h
    rw [← (Prod.mk.inj h).2]
    cases s₁.bondedEras ++ [(era, session)] <;> exact hs₁
  · rw [← (Prod.mk.inj h).2]
    exact hs₁

omit [DecidableEq AccountId] in
/-- A session that starts leaves the active era alone, or replaces it by one without a start. -/
theorem startSession_activeEra (ctx : Context AccountId) {s s' : State T} {session : Nat}
    (h : SessionManager.startSession ctx session s = (.ok (), s')) :
    s'.activeEra = s.activeEra ∨
      ∃ activeEra, s'.activeEra = some activeEra ∧ activeEra.start = none := by
  unfold SessionManager.startSession Lpos.startSession at h
  rw [load_bind, bind_eq_ok] at h
  obtain ⟨next, s₁, hnext, h⟩ := h
  obtain rfl : s₁ = s := by
    cases hactive : s.activeEra with
    | none =>
      rw [hactive] at hnext
      exact (Prod.mk.inj hnext).2.symm
    | some activeEra =>
      rw [hactive] at hnext
      exact (operator_eq_ok.mp hnext).2
  rw [load_bind] at h
  cases hstart : s₁.erasStartSessionIndex next with
  | none =>
    rw [hstart] at h
    exact Or.inl ((Prod.mk.inj h).2 ▸ rfl)
  | some start =>
    rw [hstart] at h
    dsimp only at h
    split at h
    · exact Or.inr (startEra_activeEra ctx h)
    split at h
    · exact Or.inr (startEra_activeEra ctx h)
    · exact Or.inl ((Prod.mk.inj h).2 ▸ rfl)

/-- **A rotation leaves the active era alone, or replaces it by one without a start.** -/
theorem rotateSession_activeEra (ctx : Context AccountId) {s s' : State T} {i : Nat}
    {os : List (Observed AccountId)} (h : rotateSession ctx i s = (.ok os, s')) :
    s'.activeEra = s.activeEra ∨
      ∃ activeEra, s'.activeEra = some activeEra ∧ activeEra.start = none := by
  obtain ⟨os₁, os₂, s₁, s₂, hend, hstart, hplan, -⟩ := rotateSession_eq_ok.mp h
  have hended : s₁.activeEra = s.activeEra :=
    endSession_kept (f := fun s => s.activeEra) (fun _ _ _ _ _ _ => rfl) (endSession_of_ending hend)
  have hplanned : s'.activeEra = s₂.activeEra := by
    have hkeeps := planning_keeps_started ctx (i + 2) s₂
    rw [hplan] at hkeeps
    exact congrArg Prod.fst hkeeps
  rw [hplanned, ← hended]
  exact startSession_activeEra ctx hstart

/-- The genesis starts an era without a start, or none. -/
theorem Genesis.activeEra_start (g : Genesis T) {c₀ : Chain T} {os₀ : List (Observed AccountId)}
    (hchain : g.chain = some (c₀, os₀)) {activeEra : ActiveEraInfo}
    (hactive : c₀.state.activeEra = some activeEra) : activeEra.start = none := by
  obtain ⟨s, hblank, hstart⟩ := Genesis.starts hchain (planning_keeps_started g.ctx)
  have hinactive : s.activeEra = none := congrArg Prod.fst hblank
  rcases startSession_activeEra g.ctx hstart with hsame | ⟨started, hstarted, hnone⟩
  · rw [hsame, hinactive] at hactive
    cases hactive
  · rw [hstarted] at hactive
    exact Option.some.inj hactive ▸ hnone

/-! ## A genesis that starts no era -/

/-- The start of era 0 was cleared before it came, so no era is ever started. -/
structure Stuck (c : Chain T) : Prop where
  inactive : c.state.timeline.activeEra = none
  unstarted : c.state.timeline.start 0 = none
  current : ∃ era, c.state.timeline.currentEra = some era ∧ era ≤ c.session + 1

omit [DecidableEq AccountId] in
/-- No era starts without the start of era 0. -/
theorem Timeline.startPhase_stuck {t : Timeline AccountId} (hinactive : t.activeEra = none)
    (hunstarted : t.start 0 = none) (setId session : Nat) : t.startPhase setId session = t := by
  have hno : t.startsEra session = false := by
    unfold Timeline.startsEra Timeline.activeIndex
    rw [hinactive]
    show (t.start 0).any _ = false
    rw [hunstarted]
    rfl
  unfold Timeline.startPhase
  rw [hno]
  rfl

/-- Planning another era than era 0 does not bring its start back. -/
theorem Timeline.planPhase_stuck {t : Timeline AccountId} {era : Nat}
    (hera : t.currentEra = some era) (hunstarted : t.start 0 = none)
    (sessionsPerEra kept session : Nat) (validators : List (AccountId × Nat)) :
    (t.planPhase sessionsPerEra kept session validators).start 0 = none ∧
      ∃ era', (t.planPhase sessionsPerEra kept session validators).currentEra = some era' ∧
        era' ≤ era + 1 := by
  unfold Timeline.planPhase
  split
  · have hfollowing : following t.currentEra = era + 1 := by
      rw [hera]
      rfl
    rw [hfollowing]
    refine ⟨?_, era + 1, Timeline.planKept_currentEra _ _ _ _ _, Nat.le_refl _⟩
    rw [Timeline.planKept_start, if_neg (Nat.succ_ne_zero era).symm, hunstarted, ite_self]
  · exact ⟨hunstarted, era, hera, Nat.le_succ _⟩

/-- The depth of such a genesis clears era 0 when it plans it, or when it plans era 1 at once. -/
theorem Genesis.stuck (g : Genesis T) (hkeeps : g.keepsPlanned = false) {c₀ : Chain T}
    {os₀ : List (Observed AccountId)} (hchain : g.chain = some (c₀, os₀)) : Stuck c₀ := by
  obtain ⟨kept, setId, t, hadd, ht, -, hsession, htimeline⟩ := g.phases hchain
  unfold Genesis.keepsPlanned at hkeeps
  rw [hadd, Option.all_some] at hkeeps
  have hera₁ := g.state.timeline.planKept_currentEra kept 0 0 g.ctx.appchain.plannedValidators
  have hstart₁ := g.state.timeline.planKept_start kept 0 0 g.ctx.appchain.plannedValidators 0
  rw [if_pos rfl] at hstart₁
  have hactive : t.activeEra = none := by
    rw [ht, Timeline.planPhase_activeEra, Timeline.planKept_activeEra]
    rfl
  have hplanned : t.start 0 = none ∧ ∃ era, t.currentEra = some era ∧ era ≤ 0 + 1 := by
    rcases Nat.eq_zero_or_pos kept with rfl | hpos
    · rw [if_pos rfl] at hstart₁
      rw [ht]
      exact Timeline.planPhase_stuck hera₁ hstart₁ _ _ _ _
    · have hS : T.sessionsPerEra ≤ 1 := by
        by_contra hS
        rw [if_neg hS, decide_eq_false_iff_not] at hkeeps
        exact hkeeps hpos
      obtain rfl : kept = 1 := by
        rw [if_pos hS, decide_eq_false_iff_not] at hkeeps
        omega
      rw [if_neg (by decide)] at hstart₁
      have hyes : (g.state.timeline.planKept 1 0 0 g.ctx.appchain.plannedValidators).plansEra
          T.sessionsPerEra 1 = true := by
        unfold Timeline.plansEra
        rw [hera₁]
        dsimp only
        rw [hstart₁]
        exact decide_eq_true hS
      unfold Timeline.planPhase at ht
      rw [if_pos hyes, hera₁] at ht
      rw [ht]
      refine ⟨?_, 1, Timeline.planKept_currentEra _ _ _ _ _, Nat.le_refl _⟩
      rw [Timeline.planKept_start]
      rfl
  rw [Timeline.startPhase_stuck hactive hplanned.1] at htimeline
  have hactive₀ := Timeline.activeEra_of_unprinted htimeline
  obtain ⟨hunstarted, era, hera, hle⟩ := hplanned
  refine ⟨hactive₀.trans hactive, ?_, era, ?_, by rw [hsession]; exact hle⟩
  · exact (congrArg (fun t => Timeline.start t 0) htimeline).trans hunstarted
  · exact (congrArg Timeline.currentEra htimeline).trans hera

/-- **Such a chain never has an active era.** -/
theorem Stuck.step {c : Chain T} (h : Stuck c) {call : Call T} (hrange : call.SessionInRange c)
    (hdepth : ∀ depth deleted, call ≠ .dispatch .root (.setHistoryDepth depth deleted)) :
    Stuck (c.step call).1 := by
  obtain ⟨hinactive, hunstarted, era, hera, hle⟩ := h
  by_cases hrotate : ∃ ctx, call = .rotate ctx
  · obtain ⟨ctx, rfl⟩ := hrotate
    show Stuck (c.rotate ctx).1
    unfold Chain.rotate
    rcases hrun : rotateSession ctx c.session c.state with ⟨_ | os, s'⟩
    · exact ⟨hinactive, hunstarted, era, hera, hle⟩
    have hrange : c.session + 2 < 2 ^ 32 := hrange
    have hactive : following c.state.timeline.activeIndex = 0 := by
      unfold Timeline.activeIndex
      rw [hinactive]
      rfl
    have hcurrent : following c.state.timeline.currentEra = era + 1 := by
      rw [hera]
      rfl
    obtain ⟨setId, kept, -, -, htimeline⟩ :=
      rotateSession_of_ok ctx (by omega) (by omega) hrun
    rw [Timeline.startPhase_stuck hinactive hunstarted] at htimeline
    obtain ⟨hunstarted', era', hera', hle'⟩ := Timeline.planPhase_stuck hera hunstarted
      T.sessionsPerEra kept (c.session + 2) ctx.appchain.plannedValidators
    refine ⟨?_, (congrArg (fun t => Timeline.start t 0) htimeline).trans hunstarted', era',
      (congrArg Timeline.currentEra htimeline).trans hera', by show era' ≤ c.session + 1 + 1; omega⟩
    exact (Timeline.activeEra_of_unprinted htimeline).trans
      ((Timeline.planPhase_activeEra _ _ _ _ _).trans hinactive)
  · obtain ⟨hsession, htimeline⟩ :=
      c.step_timeline (fun ctx hcall => hrotate ⟨ctx, hcall⟩) hdepth
    exact ⟨by rw [htimeline, hinactive], by rw [htimeline, hunstarted], era,
      by rw [htimeline, hera], by rw [hsession]; exact hle⟩

end OctopusPallets.Lpos
