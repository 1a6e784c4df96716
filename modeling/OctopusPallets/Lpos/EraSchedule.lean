import OctopusPallets.Lpos.Timeline
import Mathlib.Data.Nat.Init

/-!
# The era schedule

An era is `S` sessions long. Planning runs one session ahead of starting: when session `i` is the
current one, the sessions up to `i + 1` are planned. `Planned S j` says what the timeline holds
once the sessions up to `j` are; it looks one era back from the current one, which is as far as the
active era can lag behind, and as far as a history depth of at least 1 keeps.

* `rotateSession_cases` — what one rotation does
* `era_schedule` — what a run does
-/

namespace OctopusPallets.Lpos

open Infra Infra.Dispatch Infra.FixedWidth

variable {AccountId : Type} {S : Nat}

/-! ## Sessions and eras -/

theorem start_of_dvd {j : Nat} (h : S ∣ j + 1) : (j / S + 1) * S = j + 1 := by
  rw [← Nat.succ_div_of_dvd h]
  exact Nat.div_mul_cancel h

/-- The era length that `new_session` computes for session `j + 1`. -/
theorem eraLength_eq (j : Nat) : j + 1 - j / S * S = j % S + 1 := by
  have hdiv := Nat.div_add_mod' j S
  omega

theorem dvd_iff_eq {n : Nat} (hpos : 0 < n) (hlt : n < 2 * S) : S ∣ n ↔ n = S := by
  constructor
  · rintro ⟨k, rfl⟩
    have hk : k < 2 := by
      by_contra hge
      have hmul := Nat.mul_le_mul_left S (Nat.le_of_not_lt hge)
      omega
    obtain rfl : k = 1 := by
      rcases k with _ | _ | k
      · omega
      · rfl
      · omega
    rw [Nat.mul_one]
  · rintro rfl
    exact Nat.dvd_refl _

theorem dvd_add_iff (j k : Nat) : S ∣ j + k ↔ S ∣ j % S + k := by
  have hsplit : j + k = j / S * S + (j % S + k) := by
    have hdiv := Nat.div_add_mod' j S
    omega
  rw [hsplit]
  exact Nat.dvd_add_right (Nat.dvd_mul_left _ _)

/-- Session `j + 1` starts an era exactly when the one before is full. -/
theorem eraLength_lt_iff {j : Nat} (hS : 1 ≤ S) : j + 1 - j / S * S < S ↔ ¬ S ∣ j + 1 := by
  have hmod := Nat.mod_lt j hS
  rw [eraLength_eq, dvd_add_iff, dvd_iff_eq (by omega) (by omega)]
  omega

/-- Session `j + 1` is the last of its era exactly when session `j + 2` starts one. -/
theorem lastSession_iff {j : Nat} (hS : 2 ≤ S) :
    (j + 1 - j / S * S < S ∧ j + 1 - j / S * S = S - 1) ↔ S ∣ j + 2 := by
  have hmod := Nat.mod_lt j (by omega : 0 < S)
  rw [eraLength_eq, dvd_add_iff, dvd_iff_eq (by omega) (by omega)]
  omega

/-! ## What is planned -/

namespace Timeline

/-- The sessions up to `j` are planned. -/
structure Planned (S j : Nat) (t : Timeline AccountId) : Prop where
  depth_pos : 1 ≤ t.historyDepth
  depth_lt : t.historyDepth + 1 < 2 ^ 32
  current : t.currentEra = some (j / S)
  /-- The entries from one era back. -/
  start : ∀ e, j / S ≤ e + 1 → t.start e = if e ≤ j / S then some (e * S) else none
  printed : t.printed = []

namespace Planned

variable {t : Timeline AccountId} {j : Nat}

theorem start_current (h : t.Planned S j) : t.start (j / S) = some (j / S * S) := by
  rw [h.start _ (Nat.le_succ _), if_pos (Nat.le_refl _)]

/-- The era after the one of session `i` is planned when session `i + 1` starts it. -/
theorem start_next {i : Nat} (h : t.Planned S (i + 1)) :
    t.start (i / S + 1) = if S ∣ i + 1 then some (i + 1) else none := by
  have hdiv := @Nat.succ_div i S
  by_cases hdvd : S ∣ i + 1
  · rw [if_pos hdvd] at hdiv ⊢
    rw [h.start _ (by omega), if_pos (by omega), start_of_dvd hdvd]
  · rw [if_neg hdvd] at hdiv ⊢
    rw [h.start _ (by omega), if_neg (by omega)]

/-- Within an era, nothing changes. -/
theorem same (h : t.Planned S j) (hdvd : ¬ S ∣ j + 1) : t.Planned S (j + 1) := by
  have hdiv : (j + 1) / S = j / S := Nat.succ_div_of_not_dvd hdvd
  refine ⟨h.depth_pos, h.depth_lt, ?_, ?_, h.printed⟩
  · rw [hdiv]
    exact h.current
  · rw [hdiv]
    exact h.start

theorem activate (h : t.Planned S j) (era setId startSession : Nat) :
    (t.activate era setId startSession).Planned S j :=
  ⟨h.depth_pos, h.depth_lt, h.current, h.start, h.printed⟩

/-- The old era that planning clears lies before the era that is still active. -/
theorem plan [DecidableEq AccountId] (h : t.Planned S j) (hdvd : S ∣ j + 1)
    (validators : List (AccountId × Nat)) :
    (t.plan (j / S + 1) (j + 1) validators).Planned S (j + 1) := by
  have hdiv : (j + 1) / S = j / S + 1 := Nat.succ_div_of_dvd hdvd
  have hdepth := h.depth_pos
  refine ⟨?_, ?_, ?_, fun e he => ?_, ?_⟩
  -- `e` is at most one era back, and the cleared era at least two
  · rwa [plan_historyDepth]
  · rw [plan_historyDepth]
    exact h.depth_lt
  · rw [plan_currentEra, hdiv]
  · rw [hdiv] at he ⊢
    rw [plan_start, if_neg (by omega)]
    by_cases heq : e = j / S + 1
    · rw [if_pos heq, if_pos (by omega), heq, start_of_dvd hdvd]
    · rw [if_neg heq, h.start e (by omega)]
      by_cases hle : e ≤ j / S
      · rw [if_pos hle, if_pos (by omega)]
      · rw [if_neg hle, if_neg (by omega)]
  · rw [plan_printed]
    exact h.printed

/-- A depth of at least 1 keeps the entry of one era back. -/
theorem setHistoryDepth (h : t.Planned S j) {first depth : Nat} (hpos : 1 ≤ depth)
    (hlt : depth + 1 < 2 ^ 32) :
    Planned S j { t.clearEras first (j / S - depth) with historyDepth := depth } := by
  obtain ⟨-, hcurrent, -, hprinted, hstart⟩ :=
    foldl_clear (List.range' first (j / S - depth - first)) t
  refine ⟨hpos, hlt, hcurrent.trans h.current, fun e he => ?_, hprinted.trans h.printed⟩
  rw [← h.start e he]
  refine hstart e fun hmem => ?_
  rw [List.mem_range'_1] at hmem
  omega

end Planned

/-- Nothing is planned yet. -/
structure Blank (t : Timeline AccountId) : Prop where
  current : t.currentEra = none
  start : ∀ e, t.start e = none
  printed : t.printed = []

theorem Blank.plan [DecidableEq AccountId] {t : Timeline AccountId} (h : t.Blank)
    (hpos : 1 ≤ t.historyDepth) (hlt : t.historyDepth + 1 < 2 ^ 32)
    (validators : List (AccountId × Nat)) : (t.plan 0 0 validators).Planned S 0 := by
  have hzero : 0 / S = 0 := Nat.zero_div S
  refine ⟨?_, ?_, ?_, fun e he => ?_, ?_⟩
  · rwa [plan_historyDepth]
  · rwa [plan_historyDepth]
  · rw [plan_currentEra, hzero]
  · rw [hzero, plan_start, if_neg (by omega)]
    cases e with
    | zero => simp
    | succ e => simp [h.start]
  · rw [plan_printed]
    exact h.printed

end Timeline

/-! ## What the hooks are seen to do -/

/-- The eras for which `end_era` was called. -/
def endedEras (os : List (Observed AccountId)) : List Nat := os.filterMap Observed.ended?

/-- The sessions whose planning met the condition of `PlanNewEra`. -/
def lastSessions (os : List (Observed AccountId)) : List Nat := os.filterMap Observed.lastSession?

/-- The sessions for which `new_session` returned a validator set. -/
def plannedSessions (os : List (Observed AccountId)) : List Nat := os.filterMap Observed.planned?

theorem endedEras_append (os os' : List (Observed AccountId)) :
    endedEras (os ++ os') = endedEras os ++ endedEras os' := List.filterMap_append

theorem lastSessions_append (os os' : List (Observed AccountId)) :
    lastSessions (os ++ os') = lastSessions os ++ lastSessions os' := List.filterMap_append

theorem plannedSessions_append (os os' : List (Observed AccountId)) :
    plannedSessions (os ++ os') = plannedSessions os ++ plannedSessions os' :=
  List.filterMap_append

/-- `n`, under a condition. -/
def onlyIf (p : Prop) [Decidable p] (n : Nat) : List Nat := if p then [n] else []

theorem onlyIf_congr {p q : Prop} [Decidable p] [Decidable q] (h : p ↔ q) (n : Nat) :
    onlyIf p n = onlyIf q n := by
  unfold onlyIf
  simp only [h]

theorem endedEras_planning (last : Bool) (n : Nat) (validators : Option (List AccountId)) :
    endedEras (Observed.planning last n validators) = [] := by
  cases last <;> cases validators <;> rfl

theorem plannedSessions_planning (last : Bool) (n : Nat) (validators : Option (List AccountId)) :
    plannedSessions (Observed.planning last n validators)
      = onlyIf (validators.isSome = true) n := by
  cases last <;> cases validators <;> rfl

theorem lastSessions_planning (last : Bool) (n : Nat) (validators : Option (List AccountId)) :
    lastSessions (Observed.planning last n validators) = onlyIf (last = true) n := by
  cases last <;> cases validators <;> rfl

variable {T : Config AccountId} [DecidableEq AccountId]

/-- The `u32` of the next set id is not 0. -/
def Context.SetIdInRange (ctx : Context AccountId) : Prop :=
  1 ≤ ctx.appchain.nextSetId ∧ ctx.appchain.nextSetId < 2 ^ 32

instance (ctx : Context AccountId) : Decidable ctx.SetIdInRange := inferInstanceAs (Decidable (_ ∧ _))

omit [DecidableEq AccountId] in
/-- The condition of `PlanNewEra`, over the schedule. -/
theorem reachesPlanNewEra_iff {s : State T} {j : Nat} (hS : 2 ≤ T.sessionsPerEra)
    (h : s.timeline.Planned T.sessionsPerEra j) :
    s.reachesPlanNewEra (j + 1) = true ↔ T.sessionsPerEra ∣ j + 2 := by
  have hcurrent : s.currentEra = some (j / T.sessionsPerEra) := h.current
  have hstart : s.erasStartSessionIndex (j / T.sessionsPerEra)
      = some (j / T.sessionsPerEra * T.sessionsPerEra) := h.start_current
  rw [← lastSession_iff hS]
  unfold State.reachesPlanNewEra isLastSession
  rw [hcurrent, Option.any_some, hstart, Option.getD_some, Bool.and_eq_true, decide_eq_true_eq,
    beq_iff_eq]

/-- A hook that plans session `n` does what is due: it plans an era when one starts with `n`, it
has `PlanNewEra` sent when the next session starts one, and there is nothing else it does. -/
def PlansOnSchedule (hook : Dispatch Fault (State T) (Option (List AccountId)))
    (ctx : Context AccountId) (n : Nat) (s : State T) : Prop :=
  hook s =
    (if T.sessionsPerEra ∣ n then tryTriggerNewEra ctx n
    else if ctx.appchain.isActivated = true ∧ T.sessionsPerEra ∣ n + 1 then do
      submitPlanNewEra ctx
      pure none
    else pure none) { s with currentPlannedSession := n }

/-- The first era starts with session 0. -/
theorem newSession_first (ctx : Context AccountId) {s : State T} (h : s.currentEra = none) :
    PlansOnSchedule (SessionManager.newSessionGenesis ctx 0) ctx 0 s := by
  let s₁ : State T := { s with currentPlannedSession := 0 }
  show newSession ctx 0 s₁ = _
  rw [if_pos (Nat.dvd_zero _)]
  exact newSession_initial ctx 0 h

/-- **What planning session `j + 1` does.** -/
theorem newSession_due (ctx : Context AccountId) {s : State T} {j : Nat}
    (hS : 1 ≤ T.sessionsPerEra) (h : s.timeline.Planned T.sessionsPerEra j) :
    newSession ctx (j + 1) s =
      (if T.sessionsPerEra ∣ j + 1 then tryTriggerNewEra ctx (j + 1)
      else if ctx.appchain.isActivated = true ∧ T.sessionsPerEra ∣ j + 2 then do
        submitPlanNewEra ctx
        pure none
      else pure none) s := by
  have hcurrent : s.currentEra = some (j / T.sessionsPerEra) := h.current
  by_cases hdvd : T.sessionsPerEra ∣ j + 1
  · have hlen := (eraLength_lt_iff hS).not.mpr (not_not.mpr hdvd)
    rw [if_pos hdvd]
    exact newSession_newEra ctx hcurrent h.start_current (Nat.le_of_not_lt hlen)
  · have hlen := (eraLength_lt_iff hS).mpr hdvd
    -- an era of one session has no session but its first
    have hS2 : 2 ≤ T.sessionsPerEra := by
      rcases Nat.eq_or_lt_of_le hS with hone | hS2
      · exact absurd (hone ▸ Nat.one_dvd _) hdvd
      · exact hS2
    have hlast : (ctx.appchain.isActivated && s.reachesPlanNewEra (j + 1)) = true ↔
        ctx.appchain.isActivated = true ∧ T.sessionsPerEra ∣ j + 2 := by
      rw [Bool.and_eq_true, reachesPlanNewEra_iff hS2 h]
    rw [if_neg hdvd, newSession_within ctx hcurrent h.start_current hlen]
    simp only [hlast]

theorem newSession_onSchedule (ctx : Context AccountId) {s : State T} {j : Nat}
    (hS : 1 ≤ T.sessionsPerEra) (h : s.timeline.Planned T.sessionsPerEra j) :
    PlansOnSchedule (SessionManager.newSession ctx (j + 1)) ctx (j + 1) s :=
  newSession_due (s := { s with currentPlannedSession := j + 1 }) ctx hS h

/-- Session `j + 1` is planned after session `j`. -/
theorem newSession_planned (ctx : Context AccountId) {s : State T} {j : Nat}
    (hS : 1 ≤ T.sessionsPerEra) (h : s.timeline.Planned T.sessionsPerEra j) (hj : j + 1 < 2 ^ 32)
    (hset : ctx.SetIdInRange) :
    ∃ validators s', newSession ctx (j + 1) s = (.ok validators, s') ∧
      s'.timeline.Planned T.sessionsPerEra (j + 1) ∧
      s'.timeline.activeIndex = s.timeline.activeIndex ∧
      (validators.isSome = true ↔ T.sessionsPerEra ∣ j + 1) := by
  have hcurrent : s.currentEra = some (j / T.sessionsPerEra) := h.current
  rw [newSession_due ctx hS h]
  by_cases hdvd : T.sessionsPerEra ∣ j + 1
  · have hera : following s.currentEra = j / T.sessionsPerEra + 1 := by rw [hcurrent]; rfl
    have hle := Nat.div_le_self j T.sessionsPerEra
    obtain ⟨s', hnew, htimeline⟩ := tryTriggerNewEra_timeline ctx (s := s) (j + 1)
      (by omega) h.depth_lt
    rw [if_pos hdvd]
    refine ⟨_, s', hnew, ?_, ?_, iff_of_true rfl hdvd⟩
    · rw [htimeline, hera]
      exact h.plan hdvd _
    · rw [htimeline, Timeline.activeIndex, Timeline.plan_activeEra]
      rfl
  · have hnone : (none : Option (List AccountId)).isSome = true ↔ T.sessionsPerEra ∣ j + 1 :=
      iff_of_false Bool.false_ne_true hdvd
    rw [if_neg hdvd]
    split
    · obtain ⟨s', hsubmit, htimeline⟩ := submitPlanNewEra_timeline ctx s hset.2
      refine ⟨none, s', bind_of_ok hsubmit, ?_, by rw [htimeline], hnone⟩
      rw [htimeline]
      exact h.same hdvd
    · exact ⟨none, s, rfl, h.same hdvd, rfl, hnone⟩

theorem planning_of_newSession {ctx : Context AccountId} {s s' : State T} {n : Nat}
    {validators : Option (List AccountId)}
    (h : newSession ctx n { s with currentPlannedSession := n } = (.ok validators, s')) :
    planning (SessionManager.newSession ctx n) n s
      = (.ok (Observed.planning (s.reachesPlanNewEra n) n validators), s') := by
  have hhook : SessionManager.newSession ctx n s = (.ok validators, s') := h
  unfold planning
  rw [load_bind, bind_of_ok hhook]
  rfl

/-- **Planning session `j + 1`, observed.** -/
theorem planning_planned (ctx : Context AccountId) {s : State T} {j : Nat}
    (hS : 1 ≤ T.sessionsPerEra) (h : s.timeline.Planned T.sessionsPerEra j) (hj : j + 1 < 2 ^ 32)
    (hset : ctx.SetIdInRange) :
    ∃ os s', planning (SessionManager.newSession ctx (j + 1)) (j + 1) s = (.ok os, s') ∧
      s'.timeline.Planned T.sessionsPerEra (j + 1) ∧
      s'.timeline.activeIndex = s.timeline.activeIndex ∧
      endedEras os = [] ∧ plannedSessions os = onlyIf (T.sessionsPerEra ∣ j + 1) (j + 1) ∧
      (2 ≤ T.sessionsPerEra → lastSessions os = onlyIf (T.sessionsPerEra ∣ j + 2) (j + 1)) := by
  obtain ⟨validators, s', hnew, hplanned, hactive, hsome⟩ :=
    newSession_planned (s := { s with currentPlannedSession := j + 1 }) ctx hS h hj hset
  refine ⟨_, s', planning_of_newSession hnew, hplanned, hactive, endedEras_planning _ _ _, ?_, ?_⟩
  · rw [plannedSessions_planning]
    exact onlyIf_congr hsome _
  · intro hS2
    rw [lastSessions_planning]
    exact onlyIf_congr (reachesPlanNewEra_iff hS2 h) _

/-! ## A rotation -/

omit [DecidableEq AccountId] in
theorem State.exists_activeEra {s : State T} {k : Nat} (h : s.timeline.activeIndex = some k) :
    ∃ activeEra, s.activeEra = some activeEra ∧ activeEra.index = k := by
  rw [State.timeline_activeIndex, Option.map_eq_some_iff] at h
  exact h

omit [DecidableEq AccountId] in
/-- Session `i + 1` starts: with it an era, when it is the first one of an era. -/
theorem startSession_planned (ctx : Context AccountId) {s : State T} {i : Nat}
    (h : s.timeline.Planned T.sessionsPerEra (i + 1))
    (hactive : s.timeline.activeIndex = some (i / T.sessionsPerEra)) (hi : i + 1 < 2 ^ 32)
    (hset : ctx.SetIdInRange) :
    ∃ s', SessionManager.startSession ctx (i + 1) s = (.ok (), s') ∧
      s'.timeline.Planned T.sessionsPerEra (i + 1) ∧
      s'.timeline.activeIndex = some ((i + 1) / T.sessionsPerEra) := by
  have hle := Nat.div_le_self i T.sessionsPerEra
  have hera : following (s.activeEra.map ActiveEraInfo.index) = i / T.sessionsPerEra + 1 := by
    rw [← State.timeline_activeIndex, hactive]
    rfl
  have hstart : s.erasStartSessionIndex (i / T.sessionsPerEra + 1)
      = if T.sessionsPerEra ∣ i + 1 then some (i + 1) else none := h.start_next
  by_cases hdvd : T.sessionsPerEra ∣ i + 1
  · rw [if_pos hdvd] at hstart
    obtain ⟨s', hstarted, htimeline⟩ :=
      startEra_timeline ctx (i + 1) hera (by omega) hset.1 hset.2
    refine ⟨s', (startSession_starts ctx hera (by omega) hstart).trans hstarted, ?_, ?_⟩
    · rw [htimeline]
      exact h.activate _ _ _
    · rw [htimeline, Nat.succ_div_of_dvd hdvd]
      rfl
  · rw [if_neg hdvd] at hstart
    refine ⟨s, startSession_idle ctx (i + 1) hera (by omega) hstart, h, ?_⟩
    rw [hactive, Nat.succ_div_of_not_dvd hdvd]

omit [DecidableEq AccountId] in
/-- Session `i` ends: the active era ends with it, when session `i + 1` is the first one of an
era. -/
theorem endingEra_planned {s : State T} {i : Nat} {activeEra : ActiveEraInfo}
    (h : s.timeline.Planned T.sessionsPerEra (i + 1)) (hactive : s.activeEra = some activeEra)
    (hindex : activeEra.index = i / T.sessionsPerEra) (hi : i + 1 < 2 ^ 32) :
    endingEra i s = (.ok (if T.sessionsPerEra ∣ i + 1 then some activeEra else none), s) := by
  have hle := Nat.div_le_self i T.sessionsPerEra
  have hstart : s.erasStartSessionIndex (activeEra.index + 1)
      = if T.sessionsPerEra ∣ i + 1 then some (i + 1) else none := by
    rw [hindex]
    exact h.start_next
  rw [endingEra_apply hactive (by omega) hi, hstart]
  by_cases hdvd : T.sessionsPerEra ∣ i + 1
  · simp [hdvd]
  · simp [hdvd]

/-- What `end_session` is due to do: `end_era`, for the active era, when the next session starts an
era. -/
theorem endSession_onSchedule (ctx : Context AccountId) {s : State T}
    {i : Nat} {activeEra : ActiveEraInfo} (h : s.timeline.Planned T.sessionsPerEra (i + 1))
    (hactive : s.activeEra = some activeEra) (hindex : activeEra.index = i / T.sessionsPerEra)
    (hi : i + 1 < 2 ^ 32) :
    SessionManager.endSession ctx i s =
      logged (if T.sessionsPerEra ∣ i + 1 then endEra ctx activeEra i s else (.ok (), s)) := by
  have hending := endingEra_planned h hactive hindex hi
  rw [SessionManager.endSession_apply]
  unfold endSession
  rw [bind_of_ok hending]
  by_cases hdvd : T.sessionsPerEra ∣ i + 1
  · rw [if_pos hdvd, if_pos hdvd]
  · rw [if_neg hdvd, if_neg hdvd]
    rfl

/-- What is seen of a rotation: the era that ends, then what planning shows. -/
def Observed.rotation (ended : Option ActiveEraInfo) (os : List (Observed AccountId)) :
    List (Observed AccountId) :=
  (ended.map fun e => Observed.ended e.index).toList ++ os

omit [DecidableEq AccountId] in
theorem endedEras_rotation (p : Prop) [Decidable p] (activeEra : ActiveEraInfo)
    (os : List (Observed AccountId)) :
    endedEras (Observed.rotation (if p then some activeEra else none) os)
      = onlyIf p activeEra.index ++ endedEras os := by
  unfold endedEras onlyIf
  by_cases hp : p
  · rw [if_pos hp, if_pos hp]
    rfl
  · rw [if_neg hp, if_neg hp]
    rfl

omit [DecidableEq AccountId] in
theorem plannedSessions_rotation (ended : Option ActiveEraInfo) (os : List (Observed AccountId)) :
    plannedSessions (Observed.rotation ended os) = plannedSessions os := by
  cases ended <;> rfl

omit [DecidableEq AccountId] in
theorem lastSessions_rotation (ended : Option ActiveEraInfo) (os : List (Observed AccountId)) :
    lastSessions (Observed.rotation ended os) = lastSessions os := by
  cases ended <;> rfl

/-- What a rotation from session `i` to session `i + 1` leads to. -/
structure Rotated (S i : Nat) (t : Timeline AccountId) (os : List (Observed AccountId)) :
    Prop where
  planned : t.Planned S (i + 2)
  active : t.activeIndex = some ((i + 1) / S)
  ended : endedEras os = onlyIf (S ∣ i + 1) (i / S)
  plannedAt : plannedSessions os = onlyIf (S ∣ i + 2) (i + 2)
  lastAt : 2 ≤ S → lastSessions os = onlyIf (S ∣ i + 3) (i + 2)

/-- **A rotation keeps the schedule, unless the payout of the era it ends aborts.** -/
theorem rotateSession_cases (ctx : Context AccountId) {s : State T} {i : Nat}
    (hS : 1 ≤ T.sessionsPerEra) (h : s.timeline.Planned T.sessionsPerEra (i + 1))
    (hactive : s.timeline.activeIndex = some (i / T.sessionsPerEra)) (hi : i + 2 < 2 ^ 32)
    (hset : ctx.SetIdInRange) :
    (∃ os s', rotateSession ctx i s = (.ok os, s') ∧ Rotated T.sessionsPerEra i s'.timeline os) ∨
      ∃ activeEra s', endingEra i s = (.ok (some activeEra), s) ∧
        endEra ctx activeEra i s = (.error .abort, s') ∧
        rotateSession ctx i s = (.error .abort, s') := by
  obtain ⟨activeEra, hsome, hindex⟩ := State.exists_activeEra hactive
  have hending := endingEra_planned h hsome hindex (by omega)
  rcases endSession_cases ctx hending with ⟨s₁, hend, ht₁⟩ | ⟨ended, s₁, heq, habort, hend⟩
  · -- the session ends, the next one starts, and the one after that is planned
    rw [← ht₁] at h hactive
    obtain ⟨s₂, hstart, h₂, hactive₂⟩ := startSession_planned ctx h hactive (by omega) hset
    obtain ⟨os, s₃, hplan, h₃, hactive₃, hended, hplannedAt, hlastAt⟩ :=
      planning_planned ctx hS h₂ hi hset
    have hrun : rotateSession ctx i s = (.ok (Observed.rotation
        (if T.sessionsPerEra ∣ i + 1 then some activeEra else none) os), s₃) := by
      have hobserved : ending ctx i s = (.ok (Observed.rotation
          (if T.sessionsPerEra ∣ i + 1 then some activeEra else none) []), s₁) := by
        unfold ending Observed.rotation
        rw [bind_of_ok hending, bind_of_ok hend, List.append_nil]
        rfl
      refine rotateSession_eq_ok.mpr ⟨_, os, s₁, s₂, hobserved, hstart, hplan, ?_⟩
      unfold Observed.rotation
      rw [List.append_nil]
    refine Or.inl ⟨_, s₃, hrun, h₃, hactive₃.trans hactive₂, ?_, ?_, fun hS2 => ?_⟩
    · rw [endedEras_rotation, hended, List.append_nil, hindex]
    · rw [plannedSessions_rotation, hplannedAt]
    · rw [lastSessions_rotation, hlastAt hS2]
  · refine Or.inr ⟨ended, s₁, ?_, habort, ?_⟩
    · rw [hending, heq]
    · have hobserved : ending ctx i s = (.error .abort, s₁) := by
        unfold ending
        rw [bind_of_ok hending, bind_of_error hend]
      unfold rotateSession
      rw [bind_of_error hobserved]

/-! ## Between rotations -/

/-- The calls of the schedule: session indices stay in `u32`, the next set id is not 0, and root
sets history depths of at least 1 that leave room for one more. -/
def Call.Allowed (c : Chain T) : Call T → Prop
  | .rotate ctx => c.session + 2 < 2 ^ 32 ∧ ctx.SetIdInRange
  | .dispatch .root (.setHistoryDepth newHistoryDepth _) =>
    1 ≤ newHistoryDepth ∧ newHistoryDepth + 1 < 2 ^ 32
  | _ => True

omit [DecidableEq AccountId] in
/-- A call that leaves the timeline as it is leaves the schedule as it is. -/
theorem planned_of_keeps {α : Type} {x : Dispatch Fault (State T) α} (hx : Keeps State.timeline x)
    {s : State T} {j : Nat} (h : s.timeline.Planned S j) :
    (x s).2.timeline.Planned S j ∧ (x s).2.timeline.activeIndex = s.timeline.activeIndex := by
  rw [hx s]
  exact ⟨h, rfl⟩

omit [DecidableEq AccountId] in
theorem setHistoryDepth_planned {s : State T} {j newHistoryDepth : Nat} (eraItemsDeleted : Nat)
    (h : s.timeline.Planned S j) (hpos : 1 ≤ newHistoryDepth) (hlt : newHistoryDepth + 1 < 2 ^ 32) :
    (setHistoryDepth .root newHistoryDepth eraItemsDeleted s).2.timeline.Planned S j ∧
      (setHistoryDepth .root newHistoryDepth eraItemsDeleted s).2.timeline.activeIndex
        = s.timeline.activeIndex := by
  obtain ⟨s', hset, htimeline⟩ :=
    setHistoryDepth_timeline h.current newHistoryDepth eraItemsDeleted
  rw [hset]
  dsimp only
  rw [htimeline]
  refine ⟨h.setHistoryDepth hpos hlt, ?_⟩
  unfold Timeline.activeIndex
  exact congrArg _ (Timeline.foldl_clear _ _).2.2.1

/-- **Nothing that happens between two rotations moves the schedule.** -/
theorem between_planned {c : Chain T} {call : Call T} {j : Nat} (hallowed : call.Allowed c)
    (h : c.state.timeline.Planned S j) :
    (call.between c.state).2.timeline.Planned S j ∧
      (call.between c.state).2.timeline.activeIndex = c.state.timeline.activeIndex := by
  by_cases hdepth : ∃ depth deleted, call = .dispatch .root (.setHistoryDepth depth deleted)
  · obtain ⟨depth, deleted, rfl⟩ := hdepth
    exact setHistoryDepth_planned deleted h hallowed.1 hallowed.2
  · exact planned_of_keeps (between_timeline fun depth deleted hcall =>
      hdepth ⟨depth, deleted, hcall⟩) h

/-! ## Runs -/

omit [DecidableEq AccountId] in
theorem range_div (i : Nat) :
    List.range ((i + 1) / S) = List.range (i / S) ++ onlyIf (S ∣ i + 1) (i / S) := by
  unfold onlyIf
  by_cases hdvd : S ∣ i + 1
  · rw [if_pos hdvd, Nat.succ_div_of_dvd hdvd, List.range_succ]
  · rw [if_neg hdvd, Nat.succ_div_of_not_dvd hdvd, List.append_nil]

/-- The multiples of `S` below `n`. -/
def multiples (S n : Nat) : List Nat := (List.range n).filter fun i => S ∣ i

theorem multiples_succ (S n : Nat) :
    multiples S (n + 1) = multiples S n ++ onlyIf (S ∣ n) n := by
  unfold multiples onlyIf
  rw [List.range_succ, List.filter_append]
  by_cases hdvd : S ∣ n <;> simp [hdvd]

/-- The last session of each of the first `eras` eras. -/
def lastOfEras (S eras : Nat) : List Nat := (List.range eras).map fun era => era * S + (S - 1)

theorem lastOfEras_succ (hS : 1 ≤ S) (j : Nat) :
    lastOfEras S ((j + 1) / S) = lastOfEras S (j / S) ++ onlyIf (S ∣ j + 1) j := by
  unfold lastOfEras
  rw [range_div, List.map_append]
  unfold onlyIf
  by_cases hdvd : S ∣ j + 1
  · have hend := start_of_dvd hdvd
    rw [Nat.succ_mul] at hend
    rw [if_pos hdvd, if_pos hdvd, List.map_singleton]
    congr 2
    omega
  · rw [if_neg hdvd, if_neg hdvd]
    rfl

/-- The schedule as it is kept over a run. -/
structure InStep (c : Chain T) (os : List (Observed AccountId)) : Prop where
  planned : c.state.timeline.Planned T.sessionsPerEra (c.session + 1)
  active : c.state.timeline.activeIndex = some (c.session / T.sessionsPerEra)
  ended : endedEras os = List.range (c.session / T.sessionsPerEra)
  plannedAt : plannedSessions os = multiples T.sessionsPerEra (c.session + 2)
  lastAt : 2 ≤ T.sessionsPerEra →
    lastSessions os = lastOfEras T.sessionsPerEra ((c.session + 2) / T.sessionsPerEra)

namespace InStep

variable {c : Chain T} {os os' : List (Observed AccountId)}

omit [DecidableEq AccountId] in
theorem rotated {s' : State T} (h : InStep c os)
    (hrotated : Rotated T.sessionsPerEra c.session s'.timeline os') :
    InStep ⟨c.session + 1, s'⟩ (os ++ os') := by
  refine ⟨hrotated.planned, hrotated.active, ?_, ?_, fun hS => ?_⟩
  · rw [endedEras_append, h.ended, hrotated.ended]
    exact (range_div c.session).symm
  · rw [plannedSessions_append, h.plannedAt, hrotated.plannedAt]
    exact (multiples_succ _ (c.session + 2)).symm
  · rw [lastSessions_append, h.lastAt hS, hrotated.lastAt hS]
    exact (lastOfEras_succ (by omega) (c.session + 2)).symm

omit [DecidableEq AccountId] in
theorem applied {x : Dispatch Fault (State T) Unit} (h : InStep c os)
    (hx : (x c.state).2.timeline.Planned T.sessionsPerEra (c.session + 1) ∧
      (x c.state).2.timeline.activeIndex = c.state.timeline.activeIndex) :
    InStep (c.apply x) (os ++ []) := by
  rw [List.append_nil]
  unfold Chain.apply
  rcases hrun : x c.state with ⟨_ | _, s'⟩
  · exact h
  · rw [hrun] at hx
    exact ⟨hx.1, hx.2.trans h.active, h.ended, h.plannedAt, h.lastAt⟩

/-- **One call keeps the schedule.** -/
theorem step {call : Call T} (hS : 1 ≤ T.sessionsPerEra) (h : InStep c os)
    (hallowed : call.Allowed c) : InStep (c.step call).1 (os ++ (c.step call).2) := by
  cases call with
  | rotate ctx =>
    show InStep (c.rotate ctx).1 (os ++ (c.rotate ctx).2)
    unfold Chain.rotate
    rcases rotateSession_cases ctx hS h.planned h.active hallowed.1 hallowed.2 with
      ⟨os', s', hrun, hrotated⟩ | ⟨_, s', _, _, hrun⟩
    · rw [hrun]
      exact h.rotated hrotated
    · rw [hrun]
      simpa only [List.append_nil] using h
  | onFinalize _ | noteAuthor _ | reportOffence _ _ _ _ | dispatch _ _ | elsewhere _ _ _ =>
    exact h.applied (between_planned hallowed h.planned)

end InStep

/-! ## Genesis -/

/-- Session 0 is planned, in the first era. -/
theorem planning_blank (ctx : Context AccountId) {s : State T} (hblank : s.timeline.Blank)
    (hpos : 1 ≤ s.historyDepth) (hlt : s.historyDepth + 1 < 2 ^ 32) :
    ∃ os s', planning (SessionManager.newSessionGenesis ctx 0) 0 s = (.ok os, s') ∧
      s'.timeline.Planned S 0 ∧ s'.timeline.activeIndex = s.timeline.activeIndex ∧
      endedEras os = [] ∧ plannedSessions os = [0] ∧ lastSessions os = [] := by
  let s₀ : State T := { s with currentPlannedSession := 0 }
  have hcurrent : s₀.currentEra = none := hblank.current
  have hzero : following s₀.currentEra = 0 := by rw [hcurrent]; rfl
  obtain ⟨s', hnew, htimeline⟩ := tryTriggerNewEra_timeline ctx (s := s₀) 0 (by omega) hlt
  rw [hzero] at htimeline
  have hnew₀ := (newSession_initial ctx 0 hcurrent).trans hnew
  have hreach : s.reachesPlanNewEra 0 = false := by
    have hcurrent' : s.currentEra = none := hblank.current
    unfold State.reachesPlanNewEra
    rw [hcurrent']
    rfl
  refine ⟨_, s', planning_of_newSession hnew₀, ?_, ?_, endedEras_planning _ _ _, ?_, ?_⟩
  · rw [htimeline]
    exact hblank.plan hpos hlt _
  · rw [htimeline, Timeline.activeIndex, Timeline.plan_activeEra]
    rfl
  · rw [plannedSessions_planning]
    rfl
  · rw [lastSessions_planning, hreach]
    rfl

omit [DecidableEq AccountId] in
/-- Session 0 starts, and with it the first era. -/
theorem startSession_first (ctx : Context AccountId) {s : State T}
    (h : s.timeline.Planned S 1) (hactive : s.timeline.activeIndex = none)
    (hset : ctx.SetIdInRange) :
    ∃ s', SessionManager.startSession ctx 0 s = (.ok (), s') ∧ s'.timeline.Planned S 1 ∧
      s'.timeline.activeIndex = some 0 := by
  have hera : following (s.activeEra.map ActiveEraInfo.index) = 0 := by
    rw [← State.timeline_activeIndex, hactive]
    rfl
  have hstart : s.erasStartSessionIndex 0 = some 0 := by
    have hentry := h.start 0 (Nat.div_le_self _ _)
    rwa [if_pos (Nat.zero_le _), Nat.zero_mul] at hentry
  obtain ⟨s', hstarted, htimeline⟩ := startEra_timeline ctx 0 hera (by decide) hset.1 hset.2
  refine ⟨s', (startSession_starts ctx hera (by decide) hstart).trans hstarted, ?_, ?_⟩
  · rw [htimeline]
    exact h.activate _ _ _
  · rw [htimeline]
    rfl

/-- **The genesis plans the sessions 0 and 1, and starts session 0.** -/
theorem genesisHooks_inStep (ctx : Context AccountId) {s : State T} (hS : 1 ≤ T.sessionsPerEra)
    (hblank : s.timeline.Blank) (hactive : s.timeline.activeIndex = none)
    (hpos : 1 ≤ s.historyDepth) (hlt : s.historyDepth + 1 < 2 ^ 32) (hset : ctx.SetIdInRange) :
    ∃ os s', genesisHooks ctx s = (.ok os, s') ∧ InStep ⟨0, s'⟩ os := by
  obtain ⟨os₀, s₁, hplan₀, h₁, hactive₁, hended₀, hplanned₀, hlast₀⟩ :=
    planning_blank (S := T.sessionsPerEra) ctx hblank hpos hlt
  obtain ⟨os₁, s₂, hplan₁, h₂, hactive₂, hended₁, hplanned₁, hlast₁⟩ :=
    planning_planned ctx hS h₁ (by decide) hset
  have hnone : s₂.timeline.activeIndex = none := hactive₂.trans (hactive₁.trans hactive)
  obtain ⟨s₃, hstart, h₃, hactive₃⟩ := startSession_first ctx h₂ hnone hset
  have hrun : genesisHooks ctx s = (.ok (os₀ ++ os₁), s₃) := by
    unfold genesisHooks
    rw [bind_of_ok hplan₀]
    show (planning (SessionManager.newSession ctx 1) 1 >>= _) s₁ = _
    rw [bind_of_ok hplan₁, bind_of_ok hstart]
    rfl
  refine ⟨_, s₃, hrun, h₃, ?_, ?_, ?_, fun hS2 => ?_⟩
  · rw [hactive₃, Nat.zero_div]
  · rw [endedEras_append, hended₀, hended₁, Nat.zero_div]
    rfl
  -- session 0 is a multiple, and the last of its era only when eras have one session
  · have hfirst : multiples T.sessionsPerEra 1 = [0] := by
      unfold multiples
      simp
    rw [plannedSessions_append, hplanned₀, hplanned₁]
    show _ = multiples T.sessionsPerEra (1 + 1)
    rw [multiples_succ, hfirst]
  · have hnoEra : lastOfEras T.sessionsPerEra (1 / T.sessionsPerEra) = [] := by
      rw [Nat.div_eq_of_lt hS2]
      rfl
    rw [lastSessions_append, hlast₀, hlast₁ hS2]
    show _ = lastOfEras T.sessionsPerEra ((1 + 1) / T.sessionsPerEra)
    rw [lastOfEras_succ hS, hnoEra]

omit [DecidableEq AccountId] in
theorem Genesis.state_blank (g : Genesis T) : g.state.timeline.Blank :=
  ⟨rfl, fun _ => rfl, rfl⟩

omit [DecidableEq AccountId] in
theorem Genesis.state_historyDepth (g : Genesis T) : g.state.historyDepth = g.historyDepth := rfl

/-! ## The schedule -/

/-- The schedule of a chain, with what was seen of its hooks. -/
structure Schedule (c : Chain T) (os : List (Observed AccountId)) : Prop where
  active : c.state.activeEra.map ActiveEraInfo.index = some (c.session / T.sessionsPerEra)
  current : c.state.currentEra = some ((c.session + 1) / T.sessionsPerEra)
  active_start : c.state.erasStartSessionIndex (c.session / T.sessionsPerEra)
    = some (c.session / T.sessionsPerEra * T.sessionsPerEra)
  current_start : c.state.erasStartSessionIndex ((c.session + 1) / T.sessionsPerEra)
    = some ((c.session + 1) / T.sessionsPerEra * T.sessionsPerEra)
  /-- `new_session` returned a set for the multiples among the sessions that are planned. -/
  planned : plannedSessions os = multiples T.sessionsPerEra (c.session + 2)
  /-- `end_era` was called for each era below the active one, once. -/
  ended : endedEras os = List.range (c.session / T.sessionsPerEra)
  not_skipped : Printed.sessionSkipped ∉ c.state.printed
  plan_new_era : 2 ≤ T.sessionsPerEra →
    lastSessions os = lastOfEras T.sessionsPerEra ((c.session + 2) / T.sessionsPerEra)
  /-- The hook calls `end_era` for the active era when the next session starts an era, and calls it
  for no other; the era seen to end is the one it is called for. -/
  end_session : ∀ ctx : Context AccountId, c.session + 1 < 2 ^ 32 →
    ∃ activeEra, c.state.activeEra = some activeEra ∧
      endingEra c.session c.state =
        (.ok (if T.sessionsPerEra ∣ c.session + 1 then some activeEra else none), c.state) ∧
      SessionManager.endSession ctx c.session c.state =
        logged (if T.sessionsPerEra ∣ c.session + 1 then endEra ctx activeEra c.session c.state
          else (.ok (), c.state))
  /-- Once the session has ended and the next one has started, the one after that is planned as it
  is due. -/
  new_session : ∀ (ctx : Context AccountId) (s₁ s₂ : State T), ctx.SetIdInRange →
    c.session + 1 < 2 ^ 32 → SessionManager.endSession ctx c.session c.state = (.ok (), s₁) →
    SessionManager.startSession ctx (c.session + 1) s₁ = (.ok (), s₂) →
      PlansOnSchedule (SessionManager.newSession ctx (c.session + 2)) ctx (c.session + 2) s₂
  /-- The next rotation goes through, unless `end_era` aborts. -/
  goes_on : ∀ ctx : Context AccountId, ctx.SetIdInRange → c.session + 2 < 2 ^ 32 →
    (∃ os' s', rotateSession ctx c.session c.state = (.ok os', s')) ∨
      ∃ activeEra s', endingEra c.session c.state = (.ok (some activeEra), c.state) ∧
        endEra ctx activeEra c.session c.state = (.error .abort, s')

namespace InStep

variable {c : Chain T} {os : List (Observed AccountId)}

/-- The session that is planned by a rotation is planned on schedule. -/
theorem newSession (h : InStep c os) (hS : 1 ≤ T.sessionsPerEra) {ctx : Context AccountId}
    {s₁ s₂ : State T} (hset : ctx.SetIdInRange) (hlt : c.session + 1 < 2 ^ 32)
    (hend : SessionManager.endSession ctx c.session c.state = (.ok (), s₁))
    (hstart : SessionManager.startSession ctx (c.session + 1) s₁ = (.ok (), s₂)) :
    PlansOnSchedule (SessionManager.newSession ctx (c.session + 2)) ctx (c.session + 2) s₂ := by
  have hkept := endSession_kept State.timeline_outsidePayout hend
  have hplanned₁ : s₁.timeline.Planned T.sessionsPerEra (c.session + 1) := by
    rw [hkept]
    exact h.planned
  have hactive₁ : s₁.timeline.activeIndex = some (c.session / T.sessionsPerEra) := by
    rw [hkept]
    exact h.active
  obtain ⟨t, hstarted, hplanned, -⟩ := startSession_planned ctx hplanned₁ hactive₁ hlt hset
  rw [hstart] at hstarted
  obtain ⟨-, rfl⟩ := Prod.mk.inj hstarted
  exact newSession_onSchedule ctx hS hplanned

theorem schedule (hS : 1 ≤ T.sessionsPerEra) (h : InStep c os) : Schedule c os := by
  have hstart := h.planned.start (c.session / T.sessionsPerEra)
  have hle : c.session / T.sessionsPerEra ≤ (c.session + 1) / T.sessionsPerEra :=
    Nat.div_le_div_right (Nat.le_succ _)
  have hdiv := @Nat.succ_div c.session T.sessionsPerEra
  refine ⟨?_, h.planned.current, ?_, h.planned.start_current, h.plannedAt, h.ended, ?_, h.lastAt,
    fun ctx hlt => ?_, fun ctx s₁ s₂ => h.newSession hS, fun ctx hset hlt => ?_⟩
  · rw [← State.timeline_activeIndex]
    exact h.active
  · have hclose : (c.session + 1) / T.sessionsPerEra ≤ c.session / T.sessionsPerEra + 1 := by
      rw [hdiv]
      split <;> omega
    rw [if_pos hle] at hstart
    exact hstart hclose
  · have hprinted : c.state.printed = [] := h.planned.printed
    rw [hprinted]
    exact List.not_mem_nil
  · obtain ⟨activeEra, hsome, hindex⟩ := State.exists_activeEra h.active
    exact ⟨activeEra, hsome, endingEra_planned h.planned hsome hindex hlt,
      endSession_onSchedule ctx h.planned hsome hindex hlt⟩
  · rcases rotateSession_cases ctx hS h.planned h.active hlt hset with
      ⟨os', s', hrun, -⟩ | ⟨activeEra, s', hending, habort, -⟩
    · exact Or.inl ⟨os', s', hrun⟩
    · exact Or.inr ⟨activeEra, s', hending, habort⟩

end InStep

/-- The hooks of the genesis plan the sessions 0 and 1 on schedule. -/
structure Genesis.PlansOnSchedule (g : Genesis T) : Prop where
  first : Lpos.PlansOnSchedule (SessionManager.newSessionGenesis g.ctx 0) g.ctx 0 g.state
  second : ∀ validators s₁,
    SessionManager.newSessionGenesis g.ctx 0 g.state = (.ok validators, s₁) →
      Lpos.PlansOnSchedule (SessionManager.newSessionGenesis g.ctx 1) g.ctx 1 s₁

theorem Genesis.plansOnSchedule (g : Genesis T) (hS : 1 ≤ T.sessionsPerEra)
    (hpos : 1 ≤ g.historyDepth) (hlt : g.historyDepth + 1 < 2 ^ 32) : g.PlansOnSchedule := by
  refine ⟨?_, fun validators s₁ hfirst => ?_⟩
  · exact newSession_first g.ctx g.state_blank.current
  · obtain ⟨_, t, hplan, hplanned, -⟩ :=
      planning_blank (S := T.sessionsPerEra) g.ctx g.state_blank hpos hlt
    have hsame : t = s₁ := by
      unfold planning at hplan
      rw [load_bind, bind_of_ok hfirst] at hplan
      exact (Prod.mk.inj hplan).2.symm
    exact newSession_onSchedule g.ctx hS (hsame ▸ hplanned)

/--
**The era schedule.** From a genesis with a history depth in range, the chain starts, its first two
sessions planned on schedule, and whatever is called on it, it keeps to the schedule.
-/
theorem era_schedule {T : Config AccountId} (g : Genesis T) (hS : 1 ≤ T.sessionsPerEra)
    (hpos : 1 ≤ g.historyDepth) (hlt : g.historyDepth + 1 < 2 ^ 32) (hset : g.ctx.SetIdInRange) :
    g.PlansOnSchedule ∧ ∃ c₀ os₀, g.chain = some (c₀, os₀) ∧
      ∀ calls : List (Call T), (chainMachine T).Along Call.Allowed calls c₀ →
        Schedule ((chainMachine T).run calls c₀) (os₀ ++ (chainMachine T).log calls c₀) := by
  refine ⟨g.plansOnSchedule hS hpos hlt, ?_⟩
  rw [← g.state_historyDepth] at hpos hlt
  obtain ⟨os₀, s₀, hgenesis, hinStep⟩ :=
    genesisHooks_inStep g.ctx hS g.state_blank rfl hpos hlt hset
  refine ⟨⟨0, s₀⟩, os₀, congrArg Chain.ofHooks hgenesis, fun calls hcalls => InStep.schedule hS ?_⟩
  refine (chainMachine T).invariant (I := fun _ c os => InStep c (os₀ ++ os)) ?_ ?_ calls hcalls
  · rwa [List.append_nil]
  · intro _ c os call hc hallowed
    rw [← List.append_assoc]
    exact hc.step hS hallowed

/-! ### A small chain -/

namespace Sample

/-- Eras of two sessions. Every message is accepted. -/
def config : Config Nat where
  build := .debug
  accountId := 0
  encode v := [UInt8.ofNat v]
  sessionsPerEra := 2
  bondingDuration := 1
  balanceBits := 128
  Balances := Nat
  currency := ⟨fun _ _ _ _ => pure (), fun _ value balance => balance + value⟩
  Messages := Nat
  upwardMessages := ⟨fun _ _ _ n => (.ok n, n + 1)⟩
  Historical := Nat
  pruneHistoricalUpTo session _ := session

def contextAt (now : Nat) : Context Nat := ⟨⟨true, 1, [(1, 10), (2, 20)]⟩, now⟩

def genesis : Genesis config := ⟨1, 5, contextAt 0, Nat.zero, Nat.zero, Nat.zero⟩

/-- Four sessions, in which root changes the history depth. -/
def calls : List (Call config) :=
  [.onFinalize (contextAt 1), .noteAuthor 1, .rotate (contextAt 2),
    .dispatch .root (.setHistoryDepth 84 0), .rotate (contextAt 3), .onFinalize (contextAt 4),
    .dispatch .root (.setHistoryDepth 1 0), .rotate (contextAt 5), .rotate (contextAt 6)]

end Sample

theorem era_schedule_of_two_sessions :
    ∃ c₀ os₀, Sample.genesis.chain = some (c₀, os₀) ∧
      ((chainMachine Sample.config).run Sample.calls c₀).session = 4 ∧
      Schedule ((chainMachine Sample.config).run Sample.calls c₀)
        (os₀ ++ (chainMachine Sample.config).log Sample.calls c₀) := by
  obtain ⟨-, c₀, os₀, hchain, hschedule⟩ :=
    era_schedule Sample.genesis (by decide) (by decide) (by decide) (by decide)
  obtain ⟨rfl, rfl⟩ := Prod.mk.inj (Option.some.inj hchain)
  refine ⟨_, _, rfl, rfl, hschedule Sample.calls ?_⟩
  exact ⟨trivial, trivial, ⟨by decide, by decide⟩, ⟨by decide, by decide⟩, ⟨by decide, by decide⟩,
    trivial, ⟨by decide, by decide⟩, ⟨by decide, by decide⟩, ⟨by decide, by decide⟩, trivial⟩

end OctopusPallets.Lpos
