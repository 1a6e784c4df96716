import OctopusPallets.Infra.Retention
import OctopusPallets.Lpos.EraStakers

/-!
# The history window

Planning an era clears at most one older era, and `set_history_depth` clears the eras between two
depths. The planning tables are a log of eras of which the newest are kept: at any time they hold what
was written for the eras from some floor on, and nothing else.

* `Shows` — the tables show the window of the log of plans
* `shows_run` — planning appends, and a change of the depth resizes
* `history_window` — what is stored after any calls
-/

namespace OctopusPallets.Lpos

open Infra Infra.Dispatch Infra.FixedWidth Infra.Retention

variable {AccountId : Type} {T : Config AccountId}

/-! ## Calls -/

/-- The two operations that write the planning tables. -/
inductive PlanningCall (AccountId : Type) where
  | triggerNewEra (startSessionIndex : Nat) (validators : List (AccountId × Nat))
  | setHistoryDepth (origin : Origin AccountId) (newHistoryDepth eraItemsDeleted : Nat)

namespace PlanningCall

def plansEra : PlanningCall AccountId → Bool
  | .triggerNewEra _ _ => true
  | .setHistoryDepth _ _ _ => false

/-- What the call does to the log of eras. -/
def move : PlanningCall AccountId → Move
  | .triggerNewEra _ _ => .append
  | .setHistoryDepth .root newHistoryDepth _ => .resize newHistoryDepth
  | .setHistoryDepth _ _ _ => .idle

/-- The depth that root asks for. -/
def depth? : PlanningCall AccountId → Option Nat
  | .setHistoryDepth .root newHistoryDepth _ => some newHistoryDepth
  | .setHistoryDepth _ _ _ | .triggerNewEra _ _ => none

/-- The depth in force after the calls: the last one that root has asked for since the first era was
planned. -/
def depthAfter (historyDepth : Nat) (calls : List (PlanningCall AccountId)) : Nat :=
  ((calls.dropWhile fun call => !call.plansEra).filterMap depth?).getLastD historyDepth

end PlanningCall

variable [DecidableEq AccountId]

/-- The tables as a machine that emits the plans. A planning that aborts leaves nothing. -/
def planningMachine (T : Config AccountId) :
    Machine (State T) (PlanningCall AccountId) (Plan AccountId) where
  step
    | .triggerNewEra startSessionIndex validators, s =>
      match triggerNewEra startSessionIndex validators s with
      | (.ok _, s') => (s', (s'.currentEra.map fun era => ⟨era, startSessionIndex, validators⟩).toList)
      | (.error _, _) => (s, [])
    | .setHistoryDepth origin newHistoryDepth eraItemsDeleted, s =>
      ((setHistoryDepth origin newHistoryDepth eraItemsDeleted s).2, [])

/-! ## Entries -/

namespace Timeline

omit [DecidableEq AccountId] in
/-- The entry of an era that nothing is stored of. -/
def blank : Option Nat × (AList fun _ : AccountId => Nat) × Nat := (none, ∅, 0)

omit [DecidableEq AccountId] in
theorem clear_entry_self (t : Timeline AccountId) (era : Nat) : (t.clear era).entry era = blank :=
  Prod.ext (Function.update_self _ _ _)
    (Prod.ext (Function.update_self _ _ _) (Function.update_self _ _ _))

omit [DecidableEq AccountId] in
/-- Cleared eras are blank. -/
theorem foldl_clear_entry_of_mem {e : Nat} : ∀ {eras : List Nat} (t : Timeline AccountId), e ∈ eras →
    (eras.foldl clear t).entry e = blank
  | era :: eras, t, h => by
    rw [List.foldl_cons]
    by_cases hrest : e ∈ eras
    · exact foldl_clear_entry_of_mem (t.clear era) hrest
    · rw [foldl_clear_entry (t.clear era) hrest]
      rcases List.mem_cons.mp h with rfl | h
      · exact t.clear_entry_self e
      · exact absurd h hrest

/-- Planning clears the era that leaves the history. -/
theorem plan_entry_old (t : Timeline AccountId) {era e : Nat} (startSession : Nat)
    (validators : List (AccountId × Nat)) (h : e + (t.historyDepth + 1) = era) :
    (t.plan era startSession validators).entry e = blank := by
  have hcleared := clearKept_cleared
    { t with currentEra := some era, start := Function.update t.start era (some startSession) } h
  have hne : e ≠ era := by omega
  refine Prod.ext ?_ (Prod.ext ((Function.update_of_ne hne _ _).trans hcleared.1)
    ((Function.update_of_ne hne _ _).trans hcleared.2))
  show (t.plan era startSession validators).start e = none
  rw [plan_start, if_pos h]

theorem plan_entry_self (t : Timeline AccountId) (era startSession : Nat)
    (validators : List (AccountId × Nat)) (hempty : t.stakers era = ∅) :
    (t.plan era startSession validators).entry era
      = (Plan.mk era startSession validators).entry :=
  planKept_entry_self validators (Nat.le_add_left 1 t.historyDepth) hempty

theorem plan_entry_of_ne (t : Timeline AccountId) {era e : Nat} (startSession : Nat)
    (validators : List (AccountId × Nat)) (hne : e ≠ era)
    (hkept : e + (t.historyDepth + 1) ≠ era) :
    (t.plan era startSession validators).entry e = t.entry e :=
  planKept_entry_of_ne validators hne hkept

end Timeline

/-! ## The tables show a window -/

/-- The tables show the plans that the window keeps. -/
structure Shows (t : Timeline AccountId) (plans : List (Plan AccountId)) (w : Window) : Prop where
  next : following t.currentEra = w.next
  depth : t.historyDepth = w.depth
  eras : plans.map Plan.era = List.range w.next
  fits : w.Fits
  entry : ∀ e, t.entry e
    = if w.floor ≤ e then (plans[e]?.map Plan.entry).getD Timeline.blank else Timeline.blank

namespace Shows

variable {t : Timeline AccountId} {plans : List (Plan AccountId)} {w : Window}

theorem length_eq (h : Shows t plans w) : plans.length = w.next := by
  rw [← List.length_map (f := Plan.era), h.eras, List.length_range]

/-- Nothing is stored of an era that is not planned yet. -/
theorem entry_later (h : Shows t plans w) {e : Nat} (he : w.next ≤ e) : t.entry e = Timeline.blank := by
  rw [h.entry, List.getElem?_eq_none (by rw [h.length_eq]; exact he)]
  split <;> rfl

/-- **Planning an era appends to the log.** -/
theorem plan (h : Shows t plans w) (startSession : Nat) (validators : List (AccountId × Nat)) :
    Shows (t.plan w.next startSession validators) (plans ++ [⟨w.next, startSession, validators⟩])
      (w.step .append) := by
  obtain ⟨hbound, hfloor⟩ := h.fits
  unfold Window.bound at hbound
  refine ⟨?_, ?_, ?_, h.fits.step .append, fun e => ?_⟩
  · rw [Timeline.plan_currentEra]
    rfl
  · rw [Timeline.plan_historyDepth, h.depth]
    rfl
  · rw [List.map_append, h.eras]
    exact List.range_succ.symm
  · rw [Window.step_append]
    simp only
    rcases Nat.lt_trichotomy e w.next with hlt | rfl | hgt
    · rw [List.getElem?_append_left (by rw [h.length_eq]; exact hlt)]
      by_cases hold : e + (t.historyDepth + 1) = w.next
      · rw [t.plan_entry_old startSession validators hold, if_neg (by rw [h.depth] at hold; omega)]
      · rw [t.plan_entry_of_ne startSession validators (by omega) hold, h.entry]
        rw [h.depth] at hold
        -- the floor only moves to the era after the one that is cleared
        by_cases he : w.floor ≤ e
        · rw [if_pos he, if_pos (by omega)]
        · rw [if_neg he, if_neg (by omega)]
    · have hempty := congrArg (fun p => p.2.1) (h.entry_later (Nat.le_refl _))
      rw [t.plan_entry_self w.next startSession validators hempty,
        List.getElem?_append_right (by rw [h.length_eq]), h.length_eq, Nat.sub_self, if_pos (by omega)]
      rfl
    · rw [t.plan_entry_of_ne startSession validators (by omega) (by omega), h.entry_later (by omega),
        List.getElem?_eq_none (by rw [List.length_append, h.length_eq]; exact hgt)]
      split <;> rfl

/-- **Changing the depth resizes it.** -/
theorem setHistoryDepth (h : Shows t plans w) {era : Nat} (hcurrent : t.currentEra = some era)
    (newHistoryDepth : Nat) :
    Shows { t.clearEras (era - t.historyDepth) (era - newHistoryDepth) with
      historyDepth := newHistoryDepth } plans (w.step (.resize newHistoryDepth)) := by
  have hnext : w.next = era + 1 := by
    rw [← h.next, hcurrent]
    rfl
  obtain ⟨hbound, hfloor⟩ := h.fits
  unfold Window.bound at hbound
  have hstep := Window.step_resize (w := w) (by omega) newHistoryDepth
  have hfits := h.fits.step (.resize newHistoryDepth)
  rw [hstep] at hfits ⊢
  refine ⟨?_, rfl, h.eras, hfits, fun e => ?_⟩
  · rw [← h.next]
    exact congrArg following (Timeline.foldl_clear _ t).2.1
  · show (t.clearEras (era - t.historyDepth) (era - newHistoryDepth)).entry e = _
    rw [h.depth]
    simp only
    by_cases hrange : era - w.depth ≤ e ∧ e < era - newHistoryDepth
    · have hmem : e ∈ List.range' (era - w.depth) (era - newHistoryDepth - (era - w.depth)) := by
        rw [List.mem_range'_1]
        omega
      rw [if_neg (by omega)]
      exact Timeline.foldl_clear_entry_of_mem t hmem
    · rw [t.clearEras_entry (by omega), h.entry]
      by_cases he : w.floor ≤ e
      · rw [if_pos he, if_pos (by omega)]
      · rw [if_neg he, if_neg (by omega)]

end Shows

/-! ## Runs -/

theorem planningMachine_plan {s : State T} {w : Window} {plans : List (Plan AccountId)}
    (h : Shows s.timeline plans w) (hnext : w.next < 2 ^ 32) (hdepth : w.depth + 1 < 2 ^ 32)
    (startSessionIndex : Nat) (validators : List (AccountId × Nat)) :
    ∃ s', (planningMachine T).step (.triggerNewEra startSessionIndex validators) s
        = (s', [⟨w.next, startSessionIndex, validators⟩]) ∧
      s'.timeline = s.timeline.plan w.next startSessionIndex validators := by
  have hera : following s.currentEra = w.next := h.next
  obtain ⟨s', hrun, htimeline⟩ := triggerNewEra_timeline startSessionIndex validators
    (s := s) (by rw [hera]; exact hnext) (by rw [show s.historyDepth = w.depth from h.depth]; exact hdepth)
  rw [hera] at htimeline
  have hcurrent : s'.currentEra = some w.next :=
    (congrArg Timeline.currentEra htimeline).trans (Timeline.plan_currentEra _ _ _ _)
  refine ⟨s', ?_, htimeline⟩
  simp only [planningMachine, hrun, hcurrent, Option.map_some, Option.toList_some]

/-- The step lemma. -/
theorem shows_step {s : State T} {w : Window} {plans : List (Plan AccountId)}
    (h : Shows s.timeline plans w) (call : PlanningCall AccountId)
    (hnext : call.plansEra = true → w.next < 2 ^ 32) (hdepth : w.depth + 1 < 2 ^ 32) :
    Shows ((planningMachine T).step call s).1.timeline
      (plans ++ ((planningMachine T).step call s).2) (w.step call.move) := by
  cases call with
  | triggerNewEra startSessionIndex validators =>
    obtain ⟨s', hstep, htimeline⟩ :=
      planningMachine_plan h (hnext rfl) hdepth startSessionIndex validators
    rw [hstep]
    simp only
    rw [htimeline]
    exact h.plan startSessionIndex validators
  | setHistoryDepth origin newHistoryDepth eraItemsDeleted =>
    show Shows (setHistoryDepth origin newHistoryDepth eraItemsDeleted s).2.timeline (plans ++ []) _
    rw [List.append_nil]
    cases origin with
    | root =>
      cases hcurrent : s.currentEra with
      | none =>
        have hempty : w.next = 0 := by
          rw [← h.next]
          exact congrArg following hcurrent
        have hsame : (setHistoryDepth .root newHistoryDepth eraItemsDeleted s).2 = s := by
          simp [setHistoryDepth, ensureRoot, hcurrent]
        rw [hsame]
        exact (Window.step_resize_empty hempty newHistoryDepth).symm ▸ h
      | some era =>
        obtain ⟨s', hrun, htimeline⟩ :=
          setHistoryDepth_timeline hcurrent newHistoryDepth eraItemsDeleted
        rw [hrun]
        simp only
        rw [htimeline]
        exact h.setHistoryDepth hcurrent newHistoryDepth
    | signed _ | none =>
      rw [setHistoryDepth_refused (by simp)]
      exact h

omit [DecidableEq AccountId] in
theorem PlanningCall.next_step (call : PlanningCall AccountId) (w : Window) :
    (w.step call.move).next = w.next + if call.plansEra then 1 else 0 := by
  cases call with
  | triggerNewEra _ _ => rfl
  | setHistoryDepth origin newHistoryDepth _ =>
    cases origin with
    | root =>
      show (w.step (.resize newHistoryDepth)).next = _
      by_cases hempty : w.next = 0
      · rw [Window.step_resize_empty hempty]
        rfl
      · rw [Window.step_resize hempty]
        rfl
    | signed _ | none => rfl

omit [DecidableEq AccountId] in
theorem PlanningCall.depth_step {call : PlanningCall AccountId} {w : Window} {bound : Nat}
    (hdepth : w.depth < bound)
    (hcall : ∀ origin depth deleted, call = .setHistoryDepth origin depth deleted → depth < bound) :
    (w.step call.move).depth < bound := by
  cases call with
  | triggerNewEra _ _ => exact hdepth
  | setHistoryDepth origin newHistoryDepth deleted =>
    cases origin with
    | root =>
      show (w.step (.resize newHistoryDepth)).depth < bound
      by_cases hempty : w.next = 0
      · rw [Window.step_resize_empty hempty]
        exact hdepth
      · rw [Window.step_resize hempty]
        exact hcall _ _ _ rfl
    | signed _ | none => exact hdepth

omit [DecidableEq AccountId] in
theorem PlanningCall.next_run : ∀ (calls : List (PlanningCall AccountId)) (w : Window),
    (w.run (calls.map PlanningCall.move)).next = w.next + calls.countP PlanningCall.plansEra
  | [], _ => rfl
  | call :: calls, w => by
    rw [List.map_cons, Window.run_cons, next_run calls, call.next_step, List.countP_cons]
    omega

omit [DecidableEq AccountId] in
theorem PlanningCall.depth_run {bound : Nat} : ∀ {calls : List (PlanningCall AccountId)} {w : Window},
    w.depth < bound →
    (∀ origin depth deleted, .setHistoryDepth origin depth deleted ∈ calls → depth < bound) →
      (w.run (calls.map PlanningCall.move)).depth < bound
  | [], _, hdepth, _ => hdepth
  | call :: calls, w, hdepth, hdepths => by
    rw [List.map_cons, Window.run_cons]
    exact depth_run (depth_step hdepth fun origin depth deleted hcall =>
        hdepths origin depth deleted (hcall ▸ List.mem_cons_self))
      fun origin depth deleted hmem => hdepths origin depth deleted (List.mem_cons_of_mem _ hmem)

omit [DecidableEq AccountId] in
/-- With an era planned, every depth that root asks for is set. -/
theorem PlanningCall.depth_run_of_next_ne : ∀ (calls : List (PlanningCall AccountId)) {w : Window},
    w.next ≠ 0 →
      (w.run (calls.map PlanningCall.move)).depth = (calls.filterMap depth?).getLastD w.depth
  | [], _, _ => rfl
  | call :: calls, w, hnext => by
    have hstep : (w.step call.move).next ≠ 0 := by
      rw [call.next_step]
      omega
    rw [List.map_cons, Window.run_cons, depth_run_of_next_ne calls hstep]
    cases call with
    | triggerNewEra _ _ => rfl
    | setHistoryDepth origin newHistoryDepth _ =>
      cases origin with
      | root =>
        have hdepth : (w.step (.resize newHistoryDepth)).depth = newHistoryDepth := by
          rw [Window.step_resize hnext]
        show (calls.filterMap depth?).getLastD (w.step (.resize newHistoryDepth)).depth = _
        rw [hdepth, List.filterMap_cons]
        exact List.getLastD_cons.symm
      | signed _ | none => rfl

omit [DecidableEq AccountId] in
/-- Before the first era none is. -/
theorem PlanningCall.depth_run_eq : ∀ (calls : List (PlanningCall AccountId)) {w : Window},
    w.next = 0 → (w.run (calls.map PlanningCall.move)).depth = depthAfter w.depth calls
  | [], _, _ => rfl
  | .triggerNewEra startSessionIndex validators :: calls, w, _ => by
    rw [List.map_cons, Window.run_cons]
    exact depth_run_of_next_ne calls (Nat.succ_ne_zero w.next)
  | .setHistoryDepth origin newHistoryDepth deleted :: calls, w, hnext => by
    have hsame : w.step (move (.setHistoryDepth origin newHistoryDepth deleted)) = w := by
      cases origin with
      | root => exact Window.step_resize_empty hnext _
      | signed _ | none => rfl
    rw [List.map_cons, Window.run_cons, hsame]
    exact depth_run_eq calls hnext

/-- **The run lemma: the tables show the window that the calls lead to.** -/
theorem shows_run {calls : List (PlanningCall AccountId)} : ∀ {s : State T} {w : Window}
    {plans : List (Plan AccountId)}, Shows s.timeline plans w → w.depth < 2 ^ 32 - 1 →
    (∀ origin depth deleted, .setHistoryDepth origin depth deleted ∈ calls → depth < 2 ^ 32 - 1) →
    w.next + calls.countP PlanningCall.plansEra ≤ 2 ^ 32 →
      Shows ((planningMachine T).run calls s).timeline (plans ++ (planningMachine T).log calls s)
        (w.run (calls.map PlanningCall.move)) := by
  induction calls with
  | nil =>
    intro s w plans h _ _ _
    rw [Machine.log, List.append_nil]
    exact h
  | cons call calls ih =>
    intro s w plans h hdepth hdepths hrange
    rw [List.countP_cons] at hrange
    have hstep := shows_step h call (fun hplans => by rw [if_pos hplans] at hrange; omega)
      (by omega)
    rw [Machine.log, ← List.append_assoc]
    refine ih hstep (PlanningCall.depth_step hdepth fun origin depth deleted hcall =>
      hdepths origin depth deleted (hcall ▸ List.mem_cons_self))
      (fun origin depth deleted hmem => hdepths origin depth deleted (List.mem_cons_of_mem _ hmem)) ?_
    rw [call.next_step]
    omega

/-- Of an era something is stored in one of the three tables. -/
def State.Stored (s : State T) (era : Nat) : Prop :=
  s.erasStartSessionIndex era ≠ none ∨ s.erasStakers era ≠ ∅ ∨ s.erasTotalStake era ≠ 0

/-- Of an era is stored what planning it writes. -/
def State.StoredAs (s : State T) (era startSession : Nat) (validators : List (AccountId × Nat)) :
    Prop :=
  s.erasStartSessionIndex era = some startSession ∧ s.erasStakers era = insertStakers validators ∅ ∧
    s.erasTotalStake era = saturatingTotal validators

theorem State.StoredAs.of_entry {s : State T} {era startSession : Nat}
    {validators : List (AccountId × Nat)}
    (h : s.timeline.entry era = (Plan.mk era startSession validators).entry) :
    s.StoredAs era startSession validators := by
  obtain ⟨hstart, hrest⟩ := Prod.mk.inj h
  exact ⟨hstart, Prod.mk.inj hrest⟩

omit [DecidableEq AccountId] in
theorem State.Stored.entry_ne {s : State T} {era : Nat} (h : s.Stored era) :
    s.timeline.entry era ≠ Timeline.blank := by
  intro hblank
  rcases h with hstart | hstakers | htotal
  · exact hstart (congrArg Prod.fst hblank)
  · exact hstakers (congrArg (fun p => p.2.1) hblank)
  · exact htotal (congrArg (fun p => p.2.2) hblank)

namespace Shows

variable {s : State T} {plans : List (Plan AccountId)} {w : Window}

/-- What is stored lies in the window. -/
theorem stored (h : Shows s.timeline plans w) {e : Nat} (hstored : s.Stored e) :
    w.floor ≤ e ∧ e < w.next ∧ ∃ p, plans[e]? = some p ∧ s.timeline.entry e = p.entry := by
  have hne := hstored.entry_ne
  rw [h.entry] at hne ⊢
  by_cases hfloor : w.floor ≤ e
  · rw [if_pos hfloor] at hne ⊢
    cases hp : plans[e]? with
    | none =>
      rw [hp] at hne
      exact absurd rfl hne
    | some p =>
      have hlt := (List.getElem?_eq_some_iff.mp hp).1
      rw [h.length_eq] at hlt
      exact ⟨hfloor, hlt, p, rfl, rfl⟩
  · rw [if_neg hfloor] at hne
    exact absurd rfl hne

theorem era_of_getElem? (h : Shows s.timeline plans w) {e : Nat} {p : Plan AccountId}
    (hp : plans[e]? = some p) : p.era = e := by
  have hera : (plans.map Plan.era)[e]? = some p.era := by
    rw [List.getElem?_map, hp]
    rfl
  rw [h.eras] at hera
  exact (List.getElem?_eq_some_iff.mp hera).2 ▸ (List.getElem_range _).symm ▸ rfl

/-- The current era is the newest entry. -/
theorem currentEra (h : Shows s.timeline plans w) :
    s.currentEra = if w.next = 0 then none else some (w.next - 1) := by
  have hnext : following s.currentEra = w.next := h.next
  cases hera : s.currentEra with
  | none =>
    rw [hera] at hnext
    have hzero : w.next = 0 := hnext.symm
    rw [if_pos hzero]
  | some era =>
    rw [hera] at hnext
    have hsucc : w.next = era + 1 := hnext.symm
    rw [hsucc, if_neg (Nat.succ_ne_zero era), Nat.add_sub_cancel]

/-- An era that the later depths reach back to is stored as planned. -/
theorem kept (h : Shows s.timeline plans w) (startSession : Nat)
    (validators : List (AccountId × Nat)) (after : List (PlanningCall AccountId))
    (hdepth : w.depth < 2 ^ 32 - 1)
    (hdepths : ∀ origin depth deleted, .setHistoryDepth origin depth deleted ∈ after →
      depth < 2 ^ 32 - 1)
    (hrange : w.next + 1 + after.countP PlanningCall.plansEra ≤ 2 ^ 32)
    (hreach : ∀ since, since <+: after → after.countP PlanningCall.plansEra
      ≤ ((planningMachine T).run (.triggerNewEra startSession validators :: since) s).historyDepth) :
    ((planningMachine T).run (.triggerNewEra startSession validators :: after) s).StoredAs
      w.next startSession validators := by
  have hruns : ∀ since, since <+: after →
      Shows ((planningMachine T).run (.triggerNewEra startSession validators :: since) s).timeline
        (plans ++ (planningMachine T).log (.triggerNewEra startSession validators :: since) s)
        (w.run (.append :: since.map PlanningCall.move)) := by
    intro since hsince
    have hcount := hsince.sublist.countP_le (p := PlanningCall.plansEra)
    refine shows_run h hdepth (fun origin depth deleted hmem => ?_) ?_
    · rcases List.mem_cons.mp hmem with heq | hmem
      · cases heq
      · exact hdepths origin depth deleted (hsince.subset hmem)
    · rw [List.countP_cons_of_pos rfl]
      omega
  have hend := hruns after List.prefix_rfl
  have hnext : (Window.run (after.map PlanningCall.move) (w.step .append)).next
      = w.next + 1 + after.countP PlanningCall.plansEra := PlanningCall.next_run after _
  have hfloor : (w.run (.append :: after.map PlanningCall.move)).floor ≤ w.next := by
    rw [Window.run_cons]
    refine Window.floor_run_le (h.fits.step .append).floor_le fun since hsince => ?_
    obtain ⟨calls, hcalls, rfl⟩ := List.prefix_map_iff.mp hsince
    have hdepth : _ = (Window.run (calls.map PlanningCall.move) (w.step .append)).depth :=
      (hruns calls hcalls).depth
    have hle : after.countP PlanningCall.plansEra
        ≤ (Window.run (calls.map PlanningCall.move) (w.step .append)).depth :=
      hdepth ▸ hreach calls hcalls
    omega
  obtain ⟨s', hstep, -⟩ := planningMachine_plan h (by omega) (by omega) startSession validators
  refine State.StoredAs.of_entry ?_
  rw [hend.entry, if_pos hfloor, Machine.log, hstep, List.singleton_append,
    List.getElem?_append_right (by rw [h.length_eq]), h.length_eq, Nat.sub_self]
  rfl

end Shows

/--
**The planning tables keep exactly the history window.**

From genesis, for all calls that plan eras and set depths below `u32::MAX` in any order (and plan no
more eras than there are `u32` indices): the eras are numbered as they are planned, and the current
one is the last. The tables have entries only for the eras from `CurrentEra - HistoryDepth` up to
`CurrentEra`; an entry is what was written when its era was planned; and an era is still there if all
depths in force since it was planned reach back to it.
-/
theorem history_window {s₀ : State T} {historyDepth eraPayout : Nat}
    (hgenesis : s₀.toStorage = genesisBuild historyDepth eraPayout)
    (hdepth : historyDepth < 2 ^ 32 - 1) (calls : List (PlanningCall AccountId))
    (hdepths : ∀ origin depth deleted, .setHistoryDepth origin depth deleted ∈ calls →
      depth < 2 ^ 32 - 1)
    (hrange : calls.countP PlanningCall.plansEra ≤ 2 ^ 32) :
    let s := (planningMachine T).run calls s₀
    let planned := calls.countP PlanningCall.plansEra
    s.currentEra = (if planned = 0 then none else some (planned - 1)) ∧
    s.historyDepth = PlanningCall.depthAfter historyDepth calls ∧
    (∀ e, s.Stored e → ∃ era, s.currentEra = some era ∧ era - s.historyDepth ≤ e ∧ e ≤ era) ∧
    (∀ e, s.Stored e → ∃ before startSession validators after,
      calls = before ++ .triggerNewEra startSession validators :: after ∧
        before.countP PlanningCall.plansEra = e ∧ s.StoredAs e startSession validators) ∧
    ∀ before startSession validators after,
      calls = before ++ .triggerNewEra startSession validators :: after →
        let e := before.countP PlanningCall.plansEra
        (∀ since, since <+: after → planned - 1 - e ≤ ((planningMachine T).run
          (before ++ .triggerNewEra startSession validators :: since) s₀).historyDepth) →
        s.StoredAs e startSession validators := by
  intro s planned
  have hstart : Shows s₀.timeline ([] : List (Plan AccountId)) ⟨0, historyDepth, 0⟩ := by
    unfold State.timeline
    rw [hgenesis]
    refine ⟨rfl, rfl, rfl, ⟨by simp [Window.bound], Nat.zero_le _⟩, fun e => ?_⟩
    split <;> rfl
  -- every prefix of the calls is a run of its own
  have hshows : ∀ js, js <+: calls → Shows ((planningMachine T).run js s₀).timeline
      ((planningMachine T).log js s₀)
      (Window.run (js.map PlanningCall.move) ⟨0, historyDepth, 0⟩) := by
    intro js hjs
    have hcount := hjs.sublist.countP_le (p := PlanningCall.plansEra)
    exact shows_run hstart hdepth
      (fun origin depth deleted hmem => hdepths origin depth deleted (hjs.subset hmem)) (by
        simp only
        omega)
  have hnext : ∀ js : List (PlanningCall AccountId),
      (Window.run (js.map PlanningCall.move) ⟨0, historyDepth, 0⟩).next
        = js.countP PlanningCall.plansEra := by
    intro js
    rw [PlanningCall.next_run]
    exact Nat.zero_add _
  have hdepthOf : ∀ js, js <+: calls →
      (Window.run (js.map PlanningCall.move) ⟨0, historyDepth, 0⟩).depth < 2 ^ 32 - 1 :=
    fun js hjs => PlanningCall.depth_run hdepth fun origin depth deleted hmem =>
      hdepths origin depth deleted (hjs.subset hmem)
  have hend := hshows calls List.prefix_rfl
  have hcurrent : s.currentEra = if planned = 0 then none else some (planned - 1) := by
    rw [hend.currentEra, hnext]
  have hforce : s.historyDepth = PlanningCall.depthAfter historyDepth calls :=
    hend.depth.trans (PlanningCall.depth_run_eq calls rfl)
  refine ⟨hcurrent, hforce, fun e he => ?_, fun e he => ?_, ?_⟩
  · obtain ⟨hfloor, hlt, -⟩ := hend.stored he
    rw [hnext] at hlt
    rw [if_neg (Nat.ne_of_gt (Nat.zero_lt_of_lt hlt))] at hcurrent
    refine ⟨_, hcurrent, ?_, Nat.le_sub_one_of_lt hlt⟩
    have hbound := hend.fits.bound_le
    unfold Window.bound at hbound
    rw [← hend.depth, hnext] at hbound
    exact hbound.trans hfloor
  · obtain ⟨-, -, p, hp, hentry⟩ := hend.stored he
    obtain rfl := hend.era_of_getElem? hp
    obtain ⟨before, call, after, hcalls, hmem⟩ :=
      (planningMachine T).mem_log (List.mem_of_getElem? hp)
    have hprefix : before <+: calls := ⟨call :: after, hcalls.symm⟩
    cases call with
    | setHistoryDepth origin depth deleted => exact absurd hmem List.not_mem_nil
    | triggerNewEra startSession validators =>
      have hbound : before.countP PlanningCall.plansEra < 2 ^ 32 := by
        rw [hcalls, List.countP_append, List.countP_cons_of_pos rfl] at hrange
        omega
      obtain ⟨s', hstep, -⟩ := planningMachine_plan (hshows before hprefix)
        (by rw [hnext]; exact hbound) (by have := hdepthOf before hprefix; omega)
        startSession validators
      rw [hstep, List.mem_singleton] at hmem
      subst hmem
      exact ⟨before, startSession, validators, after, hcalls, (hnext before).symm,
        .of_entry hentry⟩
  · rintro before startSession validators after rfl e hreach
    have hcount : planned = e + (after.countP PlanningCall.plansEra + 1) := by
      show List.countP _ (before ++ _) = _
      rw [List.countP_append, List.countP_cons_of_pos rfl]
    have hbefore := hshows before (List.prefix_append _ _)
    have hkept := hbefore.kept startSession validators after
      (hdepthOf before (List.prefix_append _ _))
      (fun origin depth deleted hmem => hdepths origin depth deleted
        (List.mem_append_right _ (List.mem_cons_of_mem _ hmem)))
      (by rw [hnext]; omega)
      (fun since hsince => by
        rw [← Machine.run_append]
        exact le_trans (by omega) (hreach since hsince))
    rwa [← Machine.run_append, hnext] at hkept

namespace Sample

/-- Three eras are planned, with a depth of 2 in between. -/
def plannings : List (PlanningCall Nat) :=
  [.triggerNewEra 0 [(1, 10)], .setHistoryDepth .root 2 0, .triggerNewEra 2 [(1, 10), (2, 5)],
    .setHistoryDepth (.signed 1) 0 0, .triggerNewEra 4 [(1, 20)], .setHistoryDepth .root 1 0]

end Sample

/-- With a depth of 2 era 0 is still stored when era 2 is planned. Then the depth is lowered: era 0 is
cleared, and the eras 1 and 2 are stored as they were planned. -/
theorem history_window_of_three :
    let before := (planningMachine Sample.config).run (Sample.plannings.take 5) Sample.genesis.state
    let s := (planningMachine Sample.config).run Sample.plannings Sample.genesis.state
    (before.historyDepth = 2 ∧ before.StoredAs 0 0 [(1, 10)]) ∧
      s.currentEra = some 2 ∧ s.historyDepth = 1 ∧ (∀ e, s.Stored e → 1 ≤ e ∧ e ≤ 2) ∧
      s.StoredAs 1 2 [(1, 10), (2, 5)] ∧ s.StoredAs 2 4 [(1, 20)] := by
  intro before s
  have hdepths : ∀ (origin : Origin Nat) depth deleted,
      PlanningCall.setHistoryDepth origin depth deleted ∈ Sample.plannings → depth < 2 ^ 32 - 1 := by
    intro origin depth deleted hmem
    simp [Sample.plannings] at hmem
    omega
  have hgenesis : Sample.genesis.state.toStorage = genesisBuild 1 5 := rfl
  obtain ⟨-, hraised, -⟩ := history_window hgenesis (by decide) (Sample.plannings.take 5)
    (fun origin depth deleted hmem => hdepths origin depth deleted (List.mem_of_mem_take hmem))
    (by decide)
  obtain ⟨hcurrent, hlowered, hwindow, -, hkept⟩ :=
    history_window hgenesis (by decide) Sample.plannings hdepths (by decide)
  have htwo : s.currentEra = some 2 := hcurrent
  have hone : s.historyDepth = 1 := hlowered
  refine ⟨⟨hraised, rfl, rfl, rfl⟩, htwo, hone, fun e he => ?_, ?_, ?_⟩
  · obtain ⟨era, hera, hlo, hhi⟩ := hwindow e he
    obtain rfl := Option.some.inj (hera.symm.trans htwo)
    exact ⟨by rw [hone] at hlo; exact hlo, hhi⟩
  · refine hkept (Sample.plannings.take 2) 2 _ (Sample.plannings.drop 3) rfl fun since hsince => ?_
    have hdepth : ∀ since ∈ (Sample.plannings.drop 3).inits, 1 ≤ ((planningMachine Sample.config).run
        (Sample.plannings.take 2 ++ .triggerNewEra 2 [(1, 10), (2, 5)] :: since)
        Sample.genesis.state).historyDepth := by decide
    exact hdepth since ((List.mem_inits _ _).mpr hsince)
  · exact hkept (Sample.plannings.take 4) 4 _ (Sample.plannings.drop 5) rfl
      fun since _ => Nat.zero_le _

end OctopusPallets.Lpos
