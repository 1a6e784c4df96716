import OctopusPallets.Lpos.BondedEras
import OctopusPallets.Lpos.Rotation

/-!
# What is stored of the active era

Planning an era writes its start, its stakers and their total, and clears the era that leaves the
history. The active era is the current one or the one before it, so it stays in the history while
the depth is at least one, as computed. Nothing in the code asks for that: neither the genesis nor
`set_history_depth`.

* `active_era_kept` — the entries of the active and of the current era stay as planned
-/

namespace OctopusPallets.Lpos

open Infra Infra.Dispatch Infra.FixedWidth

variable {AccountId : Type}

/-! ## Clearing -/

namespace Timeline

theorem clear_entry_of_ne (t : Timeline AccountId) {era e : Nat} (h : e ≠ era) :
    (t.clear era).entry e = t.entry e :=
  Prod.ext (Function.update_of_ne h _ _)
    (Prod.ext (Function.update_of_ne h _ _) (Function.update_of_ne h _ _))

theorem foldl_clear_entry {e : Nat} : ∀ {eras : List Nat} (t : Timeline AccountId), e ∉ eras →
    (eras.foldl clear t).entry e = t.entry e
  | [], _, _ => rfl
  | era :: eras, t, h => by
    rw [List.mem_cons, not_or] at h
    rw [List.foldl_cons, foldl_clear_entry (t.clear era) h.2, clear_entry_of_ne t h.1]

/-- Eras outside the range keep their entries. -/
theorem clearEras_entry (t : Timeline AccountId) {first last e : Nat} (h : e < first ∨ last ≤ e) :
    (t.clearEras first last).entry e = t.entry e := by
  refine foldl_clear_entry t fun hmem => ?_
  rw [List.mem_range'_1] at hmem
  omega

/-- **A change of the depth clears no era from the current one on.** -/
theorem InTurn.setHistoryDepth {t : Timeline AccountId} {i era start : Nat}
    (h : InTurn i t era start) (depth : Nat) :
    InTurn i { t.clearEras (era - t.historyDepth) (era - depth) with historyDepth := depth }
      era start := by
  obtain ⟨-, hcurrent, hactive, -, -⟩ :=
    foldl_clear (List.range' (era - t.historyDepth) (era - depth - (era - t.historyDepth))) t
  have hentry : ∀ e, era ≤ e → (t.clearEras (era - t.historyDepth) (era - depth)).entry e
      = t.entry e := fun e he => t.clearEras_entry (Or.inr (by omega))
  refine ⟨hcurrent.trans h.current, ?_, h.era_le, ?_, fun e he => ?_⟩
  · exact (congrArg Prod.fst (hentry era (Nat.le_refl _))).trans h.starts
  · have hindex : (t.clearEras (era - t.historyDepth) (era - depth)).activeIndex = t.activeIndex :=
      congrArg (Option.map Prod.fst) hactive
    exact hindex ▸ h.active
  · obtain ⟨hstart, hstakers⟩ := h.later e he
    have hsame := hentry e (Nat.le_of_lt he)
    exact ⟨(congrArg Prod.fst hsame).trans hstart,
      (congrArg (fun p => p.2.1) hsame).trans hstakers⟩

end Timeline

/-! ## Plans -/

/-- The planning of an era. -/
structure Plan (AccountId : Type) where
  era : Nat
  /-- The session that the era is to start with. -/
  session : Nat
  validators : List (AccountId × Nat)
deriving DecidableEq

variable [DecidableEq AccountId]

/-- What is written for the era. -/
def Plan.entry (p : Plan AccountId) : Option Nat × (AList fun _ : AccountId => Nat) × Nat :=
  (some p.session, insertStakers p.validators ∅, saturatingTotal p.validators)

variable {T : Config AccountId}

omit [DecidableEq AccountId] in
/-- The era that has become the current one, with the session and the validators it is planned
for. -/
def plannedEra (before : Option Nat) (session : Nat) (ctx : Context AccountId) (c : Chain T) :
    List (Plan AccountId) :=
  if c.state.currentEra = before then []
  else (c.state.currentEra.map fun era => ⟨era, session, ctx.appchain.plannedValidators⟩).toList

omit [DecidableEq AccountId] in
theorem plannedEra_same {before : Option Nat} {c : Chain T} (h : c.state.currentEra = before)
    (session : Nat) (ctx : Context AccountId) : plannedEra before session ctx c = [] :=
  if_pos h

omit [DecidableEq AccountId] in
theorem plannedEra_next {before : Option Nat} {c : Chain T} {era : Nat}
    (h : c.state.currentEra = some era) (hne : some era ≠ before) (session : Nat)
    (ctx : Context AccountId) :
    plannedEra before session ctx c = [⟨era, session, ctx.appchain.plannedValidators⟩] := by
  unfold plannedEra
  rw [h, if_neg hne]
  rfl

omit [DecidableEq AccountId] in
/-- The plans of a call that leads from `c` to `c'`. -/
def Call.plans (c : Chain T) (call : Call T) (c' : Chain T) : List (Plan AccountId) :=
  match call with
  | .rotate ctx => plannedEra c.state.currentEra (c.session + 2) ctx c'
  | _ => []

omit [DecidableEq AccountId] in
theorem Call.plans_eq_nil (call : Call T) (hrotate : ∀ ctx, call ≠ .rotate ctx) (c c' : Chain T) :
    call.plans c c' = [] := by
  cases call with
  | rotate ctx => exact absurd rfl (hrotate ctx)
  | _ => rfl

/-- **The step rule for what is said about a chain and its plans.** A rotation that ends plans
eras, root may set the depth, and no other call moves the timeline. -/
theorem Chain.step_plans {P : Chain T → List (Plan AccountId) → Prop} {c : Chain T}
    {plans : List (Plan AccountId)} {call : Call T}
    (hsame : ∀ c' : Chain T, c'.session = c.session → c'.state.timeline = c.state.timeline →
      P c' plans)
    (hrotated : ∀ ctx os s', call = .rotate ctx →
      rotateSession ctx c.session c.state = (.ok os, s') →
        P ⟨c.session + 1, s'⟩ (plans ++
          plannedEra c.state.currentEra (c.session + 2) ctx ⟨c.session + 1, s'⟩))
    (hdepth : ∀ depth deleted, call = .dispatch .root (.setHistoryDepth depth deleted) →
      P (c.apply (setHistoryDepth .root depth deleted)) plans) :
    P (c.step call).1 (plans ++ call.plans c (c.step call).1) := by
  by_cases hrotate : ∃ ctx, call = .rotate ctx
  · obtain ⟨ctx, rfl⟩ := hrotate
    show P (c.rotate ctx).1
      (plans ++ plannedEra c.state.currentEra (c.session + 2) ctx (c.rotate ctx).1)
    unfold Chain.rotate
    rcases hrun : rotateSession ctx c.session c.state with ⟨_ | os, s'⟩
    · rw [plannedEra_same rfl, List.append_nil]
      exact hsame c rfl rfl
    · exact hrotated ctx os s' rfl hrun
  have hrotate : ∀ ctx, call ≠ .rotate ctx := fun ctx hcall => hrotate ⟨ctx, hcall⟩
  rw [call.plans_eq_nil hrotate, List.append_nil]
  by_cases hset : ∃ depth deleted, call = .dispatch .root (.setHistoryDepth depth deleted)
  · obtain ⟨depth, deleted, rfl⟩ := hset
    exact hdepth depth deleted rfl
  · obtain ⟨hsession, htimeline⟩ := c.step_timeline hrotate fun depth deleted hcall =>
      hset ⟨depth, deleted, hcall⟩
    exact hsame _ hsession htimeline

/-- The chain, seen through the eras it plans. -/
def plansMachine (T : Config AccountId) : Machine (Chain T) (Call T) (Plan AccountId) :=
  (chainMachine T).observing Call.plans

omit [DecidableEq AccountId] in
/-- The genesis plans era 0 for session 0, and era 1 for session 1 if eras have one session. -/
def Genesis.plans (g : Genesis T) (c₀ : Chain T) : List (Plan AccountId) :=
  (List.range (following c₀.state.currentEra)).map fun era =>
    ⟨era, era, g.ctx.appchain.plannedValidators⟩

/-! ## The depth that is needed -/

omit [DecidableEq AccountId] in
/-- `HistoryDepth + 1`, as it is computed, keeps the era before the one that is planned. -/
def Config.keepsEraBefore (T : Config AccountId) (historyDepth : Nat) : Bool :=
  (T.build.add 32 historyDepth 1).all fun kept => 2 ≤ kept

omit [DecidableEq AccountId] in
/-- The depth of the genesis keeps the eras that the genesis plans. -/
def Genesis.keepsPlanned (g : Genesis T) : Bool :=
  (T.build.add 32 g.historyDepth 1).all fun kept =>
    if T.sessionsPerEra ≤ 1 then 2 ≤ kept else 1 ≤ kept

omit [DecidableEq AccountId] in
/-- The calls that spare the active era: an era is planned while the era before it is kept, and root
sets a depth of 0 only while no era is planned ahead. -/
def Call.SparesActive (c : Chain T) : Call T → Prop
  | .rotate _ => c.state.timeline.plansEra T.sessionsPerEra (c.session + 2) = true →
    T.keepsEraBefore c.state.historyDepth = true
  | .dispatch .root (.setHistoryDepth newHistoryDepth _) =>
    1 ≤ newHistoryDepth ∨ c.state.currentEra = c.state.timeline.activeIndex
  | _ => True

instance (c : Chain T) (call : Call T) : Decidable (call.SparesActive c) := by
  rcases call with _ | _ | _ | _ | ⟨_ | _ | _, _ | _⟩ | _ <;> unfold Call.SparesActive <;>
    infer_instance

omit [DecidableEq AccountId] in
theorem Config.keepsEraBefore_of_some {historyDepth kept : Nat}
    (h : T.keepsEraBefore historyDepth = true)
    (hkept : T.build.add 32 historyDepth 1 = some kept) : 2 ≤ kept := by
  unfold Config.keepsEraBefore at h
  rw [hkept] at h
  exact of_decide_eq_true h

/-! ## One call -/

/-- The eras were planned one after the other, and what was written for the active and for the
current one is still there. -/
structure Recorded (c : Chain T) (plans : List (Plan AccountId)) : Prop where
  inTurn : ∃ era start, c.state.timeline.InTurn c.session era start
  eras : plans.map Plan.era = List.range (following c.state.timeline.currentEra)
  kept : ∀ p ∈ plans, c.state.timeline.activeIndex = some p.era ∨
    c.state.timeline.currentEra = some p.era → c.state.timeline.entry p.era = p.entry

namespace Recorded

variable {c : Chain T} {plans : List (Plan AccountId)}

/-- A planned era is at most the current one. -/
theorem era_le (h : Recorded c plans) {p : Plan AccountId} (hp : p ∈ plans) {era : Nat}
    (hera : c.state.timeline.currentEra = some era) : p.era ≤ era := by
  have hmem : p.era ∈ plans.map Plan.era := List.mem_map.mpr ⟨p, hp, rfl⟩
  rw [h.eras, hera, List.mem_range] at hmem
  exact Nat.lt_succ_iff.mp hmem

theorem of_timeline (h : Recorded c plans) {c' : Chain T} (hsession : c'.session = c.session)
    (htimeline : c'.state.timeline = c.state.timeline) : Recorded c' plans := by
  obtain ⟨hinTurn, heras, hkept⟩ := h
  rw [← htimeline] at hinTurn heras hkept
  rw [← hsession] at hinTurn
  exact ⟨hinTurn, heras, hkept⟩

/-- Root changes the depth, and the active era is not in the range that is cleared. -/
theorem setHistoryDepth (h : Recorded c plans) {newHistoryDepth : Nat} (eraItemsDeleted : Nat)
    (hspares : 1 ≤ newHistoryDepth ∨ c.state.currentEra = c.state.timeline.activeIndex) :
    Recorded (c.apply (Lpos.setHistoryDepth .root newHistoryDepth eraItemsDeleted)) plans := by
  obtain ⟨era, start, hinTurn⟩ := h.inTurn
  obtain ⟨s', hset, htimeline⟩ :=
    setHistoryDepth_timeline hinTurn.current newHistoryDepth eraItemsDeleted
  unfold Chain.apply
  rw [hset]
  have hafter := hinTurn.setHistoryDepth newHistoryDepth
  have hactive : s'.timeline.activeIndex = c.state.timeline.activeIndex := by
    rw [htimeline]
    exact congrArg (Option.map Prod.fst) (Timeline.foldl_clear _ c.state.timeline).2.2.1
  have hentry : ∀ e, c.state.timeline.activeIndex = some e ∨ c.state.timeline.currentEra = some e →
      s'.timeline.entry e = c.state.timeline.entry e := by
    intro e he
    rw [htimeline]
    have hle : era - newHistoryDepth ≤ e := by
      rcases he with hactive | hcurrent
      · rcases hspares with hpos | hsame
        · rcases hinTurn.active with ⟨heq, -⟩ | ⟨before, heq, hnext, -⟩
          · rw [heq] at hactive
            cases hactive
            omega
          · rw [heq] at hactive
            cases hactive
            omega
        · rw [← hsame] at hactive
          have heq : some era = some e := hinTurn.current.symm.trans hactive
          cases heq
          omega
      · rw [hinTurn.current] at hcurrent
        cases hcurrent
        omega
    exact c.state.timeline.clearEras_entry (Or.inr hle)
  refine ⟨⟨era, start, ?_⟩, ?_, fun p hp he => ?_⟩
  · dsimp only
    rw [htimeline]
    exact hafter
  · dsimp only
    rw [htimeline, h.eras]
    exact congrArg (fun o => List.range (following o)) (hinTurn.current.trans hafter.current.symm)
  · dsimp only at he ⊢
    have hcurrent : s'.timeline.currentEra = c.state.timeline.currentEra := by
      rw [htimeline]
      exact hafter.current.trans hinTurn.current.symm
    rw [hactive, hcurrent] at he
    rw [hentry p.era he]
    exact h.kept p hp he

/-- The current era is the active one, and what was written for it is kept. -/
theorem same (h : Recorded c plans) {c' : Chain T} {era start : Nat}
    (hcurrent : c.state.timeline.currentEra = some era)
    (hafter : c'.state.timeline.InTurn c'.session era start)
    (hactive : c'.state.timeline.activeIndex = some era)
    (hkept : ∀ p ∈ plans, p.era = era → c'.state.timeline.entry p.era = p.entry) :
    Recorded c' plans := by
  refine ⟨⟨era, start, hafter⟩, ?_, fun p hp he => hkept p hp ?_⟩
  · rw [h.eras, hcurrent]
    exact congrArg (fun o => List.range (following o)) hafter.current.symm
  · rcases he with he | he
    · exact (Option.some.inj (hactive.symm.trans he)).symm
    · exact (Option.some.inj (hafter.current.symm.trans he)).symm

/-- The era after the current one is planned for a later session, and what was written for the
current one is kept. -/
theorem next (h : Recorded c plans) {c' : Chain T} {era start : Nat} {p : Plan AccountId}
    (hcurrent : c.state.timeline.currentEra = some era) (hp : p.era = era + 1)
    (hafter : c'.state.timeline.InTurn c'.session (era + 1) start) (hlater : c'.session < start)
    (hkept : ∀ p ∈ plans, p.era = era → c'.state.timeline.entry p.era = p.entry)
    (hnew : c'.state.timeline.entry p.era = p.entry) : Recorded c' (plans ++ [p]) := by
  refine ⟨⟨era + 1, start, hafter⟩, ?_, fun q hq he => ?_⟩
  · rw [List.map_append, h.eras, hcurrent, List.map_singleton, hp, hafter.current]
    exact List.range_succ.symm
  · rcases List.mem_append.mp hq with hq | hq
    · -- an older plan is that of the active era
      have hold := h.era_le hq hcurrent
      have hactive : c'.state.timeline.activeIndex = some era := by
        rcases hafter.active with ⟨-, hstart⟩ | ⟨before, hactive, hnext, -⟩
        · omega
        · rw [hactive, Nat.succ.inj hnext]
      refine hkept q hq ?_
      rcases he with he | he
      · exact (Option.some.inj (hactive.symm.trans he)).symm
      · have := Option.some.inj (hafter.current.symm.trans he)
        omega
    · rw [List.mem_singleton.mp hq]
      exact hnew

/-- A rotation plans the next era, or none. -/
theorem rotated (h : Recorded c plans) (ctx : Context AccountId) {s' : State T}
    {os : List (Observed AccountId)} (hrange : c.session + 2 < 2 ^ 32)
    (hspares : (Call.rotate ctx : Call T).SparesActive c)
    (hrun : rotateSession ctx c.session c.state = (.ok os, s')) :
    Recorded ⟨c.session + 1, s'⟩ (plans ++
      plannedEra c.state.currentEra (c.session + 2) ctx ⟨c.session + 1, s'⟩) := by
  obtain ⟨era, start, hinTurn⟩ := h.inTurn
  have hle := hinTurn.era_lt
  have hcurrent : c.state.currentEra = some era := hinTurn.current
  have hbound := hinTurn.following_le
  have hfollowing : following c.state.timeline.currentEra = era + 1 := by
    rw [hinTurn.current]
    rfl
  obtain ⟨setId, kept, -, hadd, htimeline⟩ :=
    rotateSession_of_ok ctx (by omega) (by omega) hrun
  -- the first phase leaves the entries and the current era as they are
  have hsettled := hinTurn.startPhase setId
  have hentries := c.state.timeline.startPhase_entry setId (c.session + 1)
  have hplans := c.state.timeline.startPhase_plansEra setId (c.session + 1) T.sessionsPerEra
    (c.session + 2)
  generalize c.state.timeline.startPhase setId (c.session + 1) = t
    at hsettled hentries hplans htimeline
  have hkept : ∀ p ∈ plans, p.era = era → t.entry p.era = p.entry := by
    intro p hp heq
    rw [hentries]
    exact h.kept p hp (Or.inr (heq ▸ hinTurn.current))
  unfold Timeline.planPhase at htimeline
  rw [hplans] at htimeline
  by_cases hyes : c.state.timeline.plansEra T.sessionsPerEra (c.session + 2) = true
  · have htwo := T.keepsEraBefore_of_some (hspares hyes) (hadd hyes)
    have ht : following t.currentEra = era + 1 := by
      rw [hsettled.current]
      rfl
    rw [if_pos hyes, ht] at htimeline
    have hafter := (hsettled.plan htwo ctx.appchain.plannedValidators).of_unprinted htimeline
    have hentry := fun e => Timeline.entry_of_unprinted e htimeline
    rw [plannedEra_next hafter.current (by rw [hcurrent]; simp)]
    refine h.next hinTurn.current rfl hafter (Nat.lt_succ_self _) (fun p hp heq => ?_) ?_
    · rw [hentry]
      exact (Timeline.planKept_entry_of_ne _ (by omega) (by omega)).trans (hkept p hp heq)
    · rw [hentry]
      exact Timeline.planKept_entry_self _ (by omega) (hsettled.later (era + 1) (by omega)).2
  · rw [if_neg hyes] at htimeline
    have hafter := hsettled.inTurn.of_unprinted htimeline
    rw [plannedEra_same (hafter.current.trans hcurrent.symm), List.append_nil]
    refine h.same hinTurn.current hafter ?_ fun p hp heq => ?_
    · exact (Timeline.activeIndex_of_unprinted htimeline).trans hsettled.active
    · exact (Timeline.entry_of_unprinted p.era htimeline).trans (hkept p hp heq)

/-- **A call that spares the active era keeps what was planned of it.** -/
theorem step (h : Recorded c plans) {call : Call T} (hrange : call.SessionInRange c)
    (hspares : call.SparesActive c) :
    Recorded (c.step call).1 (plans ++ call.plans c (c.step call).1) := by
  refine Chain.step_plans (fun c' hsession htimeline => h.of_timeline hsession htimeline) ?_ ?_
  · rintro ctx os s' rfl hrun
    exact h.rotated ctx hrange hspares hrun
  · rintro depth deleted rfl
    exact h.setHistoryDepth deleted hspares

end Recorded

/-! ## Genesis -/

omit [DecidableEq AccountId] in
/-- Era 0 is planned for session 0, and nothing else is stored. -/
structure Timeline.First (t : Timeline AccountId) : Prop where
  current : t.currentEra = some 0
  starts : t.start 0 = some 0
  inactive : t.activeIndex = none
  later : ∀ e, 0 < e → t.start e = none ∧ t.stakers e = ∅

omit [DecidableEq AccountId] in
theorem Timeline.First.plansEra_eq {t : Timeline AccountId} (h : t.First) (sessionsPerEra : Nat) :
    t.plansEra sessionsPerEra 1 = decide (sessionsPerEra ≤ 1) := by
  unfold Timeline.plansEra
  rw [h.current]
  dsimp only
  rw [h.starts]
  rfl

theorem Genesis.plan_first (g : Genesis T) {kept : Nat} (hkept : 1 ≤ kept) :
    (g.state.timeline.planKept kept 0 0 g.ctx.appchain.plannedValidators).First ∧
      (g.state.timeline.planKept kept 0 0 g.ctx.appchain.plannedValidators).entry 0
        = Plan.entry ⟨0, 0, g.ctx.appchain.plannedValidators⟩ := by
  refine ⟨⟨Timeline.planKept_currentEra _ _ _ _ _, ?_, ?_, fun e he => ⟨?_, ?_⟩⟩,
    Timeline.planKept_entry_self _ hkept rfl⟩
  · rw [Timeline.planKept_start, if_neg (by omega), if_pos rfl]
  · unfold Timeline.activeIndex
    rw [Timeline.planKept_activeEra]
    rfl
  · rw [Timeline.planKept_start, if_neg (by omega), if_neg (by omega)]
    rfl
  · exact (Timeline.planKept_of_ne _ kept 0 0 _ (by omega) (by omega)).1

omit [DecidableEq AccountId] in
/-- Era 0 starts with session 0, whatever was printed. -/
theorem Timeline.startPhase_first {t : Timeline AccountId} (hstarts : t.start 0 = some 0)
    (hinactive : t.activeIndex = none) (setId : Nat) :
    t.startPhase setId 0 = t.activate 0 setId 0 := by
  have hyes : t.startsEra 0 = true := by
    unfold Timeline.startsEra
    rw [hinactive]
    show (t.start 0).any _ = _
    rw [hstarts]
    rfl
  unfold Timeline.startPhase
  rw [if_pos hyes, hinactive]
  rfl

/-- Session 1 is planned and session 0 starts, and with it era 0: the entries of the eras up to the
current one are as planned. -/
theorem Timeline.First.inTurn {t : Timeline AccountId} (h : t.First)
    (sessionsPerEra kept setId : Nat) (validators : List (AccountId × Nat))
    (hentry : t.entry 0 = Plan.entry ⟨0, 0, validators⟩) (hkept : sessionsPerEra ≤ 1 → 2 ≤ kept) :
    ∃ era, InTurn 0 ((t.planPhase sessionsPerEra kept 1 validators).startPhase setId 0) era era ∧
      ∀ e ≤ era, ((t.planPhase sessionsPerEra kept 1 validators).startPhase setId 0).entry e
        = Plan.entry ⟨e, e, validators⟩ := by
  have hplans := h.plansEra_eq sessionsPerEra
  have hsettled : Timeline.Settled 1 (t.activate 0 setId 0) 0 0 :=
    ⟨h.current, h.starts, Nat.le_refl _, rfl, Nat.zero_lt_one, h.later⟩
  unfold Timeline.planPhase
  rw [hplans]
  by_cases hS : sessionsPerEra ≤ 1
  · have htwo := hkept hS
    have hera : following t.currentEra = 1 := by
      rw [h.current]
      rfl
    have hinactive : (t.planKept kept 1 1 validators).activeIndex = none := by
      unfold Timeline.activeIndex
      rw [Timeline.planKept_activeEra]
      exact h.inactive
    have hfirst : (t.planKept kept 1 1 validators).start 0 = some 0 := by
      rw [Timeline.planKept_start, if_neg (by omega), if_neg (by omega), h.starts]
    have hcomm : (t.activate 0 setId 0).planKept kept 1 1 validators
        = (t.planKept kept 1 1 validators).activate 0 setId 0 := by
      unfold Timeline.planKept Timeline.clearKept
      cases checkedSub 1 kept <;> rfl
    rw [if_pos (decide_eq_true hS), hera, Timeline.startPhase_first hfirst hinactive, ← hcomm]
    refine ⟨1, hsettled.plan htwo validators, fun e he => ?_⟩
    rcases Nat.le_one_iff_eq_zero_or_eq_one.mp he with rfl | rfl
    · exact (Timeline.planKept_entry_of_ne validators (by omega) (by omega)).trans hentry
    · exact Timeline.planKept_entry_self validators (by omega) (h.later 1 Nat.zero_lt_one).2
  · rw [if_neg (by rw [decide_eq_true_eq]; exact hS), Timeline.startPhase_first h.starts h.inactive]
    refine ⟨0, hsettled.inTurn, fun e he => ?_⟩
    rw [Nat.le_zero.mp he]
    exact hentry

/-- The genesis plans era 0 for session 0, then session 1, and starts session 0. -/
theorem Genesis.phases (g : Genesis T) {c₀ : Chain T} {os₀ : List (Observed AccountId)}
    (hchain : g.chain = some (c₀, os₀)) :
    ∃ kept setId t, T.build.add 32 g.historyDepth 1 = some kept ∧
      t = (g.state.timeline.planKept kept 0 0 g.ctx.appchain.plannedValidators).planPhase
        T.sessionsPerEra kept 1 g.ctx.appchain.plannedValidators ∧
      (t.startsEra 0 = true → T.build.sub 32 g.ctx.appchain.nextSetId 1 = some setId) ∧
      c₀.session = 0 ∧ c₀.state.timeline.unprinted = (t.startPhase setId 0).unprinted := by
  obtain ⟨hsession, os₁, s₁, os₂, s₂, hplan₀, hplan₁, hstart⟩ := Genesis.hooks hchain
  obtain ⟨r₀, hnew₀⟩ := newSession_of_planning hplan₀
  obtain ⟨r₁, hnew₁⟩ := newSession_of_planning hplan₁
  -- session 0: there is no era yet
  obtain ⟨kept, hadd, ht₁⟩ := newSession_of_ok g.ctx
    (s := { g.state with currentPlannedSession := 0 }) (Nat.two_pow_pos 32) hnew₀
  replace hadd : T.build.add 32 g.historyDepth 1 = some kept := hadd rfl
  replace ht₁ : s₁.timeline.unprinted
      = (g.state.timeline.planKept kept 0 0 g.ctx.appchain.plannedValidators).unprinted := ht₁
  have hdepth : s₁.historyDepth = g.historyDepth :=
    (congrArg Timeline.historyDepth ht₁).trans
      (g.state.timeline.planKept_historyDepth kept 0 0 g.ctx.appchain.plannedValidators)
  have hcurrent : s₁.timeline.currentEra = some 0 :=
    (congrArg Timeline.currentEra ht₁).trans
      (g.state.timeline.planKept_currentEra kept 0 0 g.ctx.appchain.plannedValidators)
  generalize ht : g.state.timeline.planKept kept 0 0 g.ctx.appchain.plannedValidators = t at ht₁
  -- session 1: era 0 is long enough when eras have one session
  obtain ⟨kept', hadd', ht₂⟩ := newSession_of_ok g.ctx
    (s := { s₁ with currentPlannedSession := 1 })
    (show following s₁.timeline.currentEra < 2 ^ 32 by rw [hcurrent]; decide) hnew₁
  have hphase : t.planPhase T.sessionsPerEra kept' 1 g.ctx.appchain.plannedValidators
      = t.planPhase T.sessionsPerEra kept 1 g.ctx.appchain.plannedValidators := by
    unfold Timeline.planPhase
    by_cases hplans : t.plansEra T.sessionsPerEra 1 = true
    · have hsame := hadd' ((congrArg (fun t => Timeline.plansEra t T.sessionsPerEra 1) ht₁).trans
        hplans)
      rw [show ({ s₁ with currentPlannedSession := 1 } : State T).historyDepth = g.historyDepth
        from hdepth, hadd] at hsame
      rw [Option.some.inj hsame]
    · rw [if_neg hplans, if_neg hplans]
  replace ht₂ : s₂.timeline.unprinted
      = (s₁.timeline.planPhase T.sessionsPerEra kept' 1 g.ctx.appchain.plannedValidators).unprinted :=
    ht₂
  rw [← Timeline.planPhase_unprinted, ht₁, Timeline.planPhase_unprinted, hphase] at ht₂
  generalize hphased : t.planPhase T.sessionsPerEra kept 1 g.ctx.appchain.plannedValidators = t₂
    at ht₂
  -- session 0 starts
  have hinactive : s₂.timeline.activeIndex = none := by
    have h₀ := planning_keeps_bonding g.ctx 0 g.state
    have h₁ := planning_keeps_bonding g.ctx 1 s₁
    rw [hplan₀] at h₀
    rw [hplan₁] at h₁
    exact congrArg Prod.fst (h₁.trans h₀)
  obtain ⟨setId, hsub, ht₃⟩ := startSession_of_ok g.ctx (by rw [hinactive]; decide) hstart
  rw [← Timeline.startPhase_unprinted, ht₂, Timeline.startPhase_unprinted] at ht₃
  refine ⟨kept, setId, t₂, hadd, by rw [ht, hphased], fun hstarts => hsub ?_, hsession, ht₃⟩
  exact (congrArg (fun t => Timeline.startsEra t 0) ht₂).trans hstarts

/-- **The genesis records what it plans.** -/
theorem Genesis.recorded (g : Genesis T) (hkeeps : g.keepsPlanned = true) {c₀ : Chain T}
    {os₀ : List (Observed AccountId)} (hchain : g.chain = some (c₀, os₀)) :
    Recorded c₀ (g.plans c₀) := by
  obtain ⟨kept, setId, t, hadd, rfl, -, hsession, htimeline⟩ := g.phases hchain
  unfold Genesis.keepsPlanned at hkeeps
  rw [hadd, Option.all_some] at hkeeps
  have hone : 1 ≤ kept ∧ (T.sessionsPerEra ≤ 1 → 2 ≤ kept) := by
    split at hkeeps
    · next hS =>
      have htwo := of_decide_eq_true hkeeps
      exact ⟨by omega, fun _ => htwo⟩
    · next hS => exact ⟨of_decide_eq_true hkeeps, fun hle => absurd hle hS⟩
  obtain ⟨hfirst, hentry⟩ := g.plan_first hone.1
  obtain ⟨era, hinTurn, hentries⟩ := hfirst.inTurn T.sessionsPerEra kept setId
    g.ctx.appchain.plannedValidators hentry hone.2
  have hafter := hinTurn.of_unprinted htimeline
  have hcurrent : c₀.state.currentEra = some era := hafter.current
  have hplans : g.plans c₀ = (List.range (era + 1)).map fun era =>
      ⟨era, era, g.ctx.appchain.plannedValidators⟩ := by
    unfold Genesis.plans
    rw [hcurrent]
    rfl
  rw [hplans]
  refine ⟨⟨era, era, hsession ▸ hafter⟩, ?_, fun p hp _ => ?_⟩
  · rw [List.map_map, hafter.current]
    exact List.map_id _
  · obtain ⟨e, he, rfl⟩ := List.mem_map.mp hp
    rw [List.mem_range] at he
    exact (Timeline.entry_of_unprinted e htimeline).trans (hentries e (Nat.lt_succ_iff.mp he))

/-! ## The records of the active era -/

/--
**The active era stays in the history.** When the depth of the genesis keeps the eras it plans, and
every call of the run spares the active era, the entries of the active era and of the current one
are as they were written when the era was planned; in particular the total stake that votes are
counted against is.
-/
theorem active_era_kept {T : Config AccountId} (g : Genesis T) (hkeeps : g.keepsPlanned = true)
    {c₀ : Chain T} {os₀ : List (Observed AccountId)} (hchain : g.chain = some (c₀, os₀))
    (calls : List (Call T))
    (hcalls : (plansMachine T).Along (fun c call => call.SessionInRange c ∧ call.SparesActive c)
      calls c₀) :
    let s := ((plansMachine T).run calls c₀).state
    let plans := g.plans c₀ ++ (plansMachine T).log calls c₀
    plans.map Plan.era = List.range (following s.currentEra) ∧
      ∀ p ∈ plans,
        (s.activeEra.map ActiveEraInfo.index = some p.era ∨ s.currentEra = some p.era →
          s.timeline.entry p.era = p.entry) ∧
        (s.activeEra.map ActiveEraInfo.index = some p.era → ∀ session,
          (lposInterface session s.toStorage).activeTotalStake
            = some (saturatingTotal p.validators)) := by
  intro s plans
  have h : Recorded ((plansMachine T).run calls c₀) plans := by
    refine (plansMachine T).invariant (I := fun _ c plans => Recorded c (g.plans c₀ ++ plans))
      ?_ ?_ calls hcalls
    · rw [List.append_nil]
      exact g.recorded hkeeps hchain
    · intro _ c plans call hc hcall
      have hstep := hc.step hcall.1 hcall.2
      rwa [List.append_assoc] at hstep
  have hactive : s.timeline.activeIndex = s.activeEra.map ActiveEraInfo.index :=
    s.timeline_activeIndex
  refine ⟨h.eras, fun p hp => ⟨fun he => ?_, fun he session => ?_⟩⟩
  · rw [← hactive] at he
    exact h.kept p hp he
  · have hentry := h.kept p hp (Or.inl (hactive.trans he))
    obtain ⟨activeEra, hsome, hindex⟩ := Option.map_eq_some_iff.mp he
    show s.activeEra.map (fun activeEra => s.erasTotalStake activeEra.index) = _
    rw [hsome, Option.map_some, hindex]
    exact congrArg (fun entry => some entry.2.2) hentry

/-- In session 4 era 2 is active, with the stakes it was planned with. -/
theorem active_era_kept_over_four_sessions :
    ∃ c₀ os₀, Sample.genesis.chain = some (c₀, os₀) ∧
      (((plansMachine Sample.config).run Sample.calls c₀).state.activeEra.map ActiveEraInfo.index
        = some 2) ∧
      ∀ session, (lposInterface session
        ((plansMachine Sample.config).run Sample.calls c₀).state.toStorage).activeTotalStake
          = some 30 := by
  have h := active_era_kept Sample.genesis (by decide) rfl Sample.calls (by decide)
  exact ⟨_, _, rfl, by decide, (h.2 ⟨2, 4, [(1, 10), (2, 20)]⟩ (by decide)).2 (by decide)⟩

namespace Sample

/-- A history of depth 0. -/
def forgetful : Genesis config := { genesis with historyDepth := 0 }

end Sample

/-- With a depth of 0 the next planning clears the active era; and root clears it with a depth of 0
once an era is planned ahead. Its stake was positive, and votes are counted against 0. -/
theorem active_era_forgotten :
    (∃ c₀ os₀, Sample.forgetful.chain = some (c₀, os₀) ∧
      c₀.state.timeline.totalStake 0 = 30 ∧
      ((plansMachine Sample.config).run [.rotate (Sample.contextAt 1)] c₀).state.activeEra.map
        ActiveEraInfo.index = some 0 ∧
      ((plansMachine Sample.config).run [.rotate (Sample.contextAt 1)] c₀).state.timeline.start 0
        = none ∧
      ((plansMachine Sample.config).run
        [.rotate (Sample.contextAt 1)] c₀).state.timeline.totalStake 0 = 0) ∧
    ∃ c₀ os₀, Sample.genesis.chain = some (c₀, os₀) ∧
      ((plansMachine Sample.config).run
        [.rotate (Sample.contextAt 1), .dispatch .root (.setHistoryDepth 0 0)] c₀).state.activeEra.map
          ActiveEraInfo.index = some 0 ∧
      ((plansMachine Sample.config).run [.rotate (Sample.contextAt 1),
        .dispatch .root (.setHistoryDepth 0 0)] c₀).state.timeline.totalStake 0 = 0 :=
  ⟨⟨_, _, rfl, by decide, by decide, by decide, by decide⟩, _, _, rfl, by decide, by decide⟩

end OctopusPallets.Lpos
