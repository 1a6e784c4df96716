import OctopusPallets.Lpos.Timeline

/-!
# A rotation, in the words of the timeline

Whatever the state, a rotation that goes through does two things to the timeline: it starts the era
after the active one when that era is planned for a session that has come (`startPhase`), and it
plans the era after the current one when the current one is long enough (`planPhase`). This holds
without any of the assumptions of the schedule, and whatever `HistoryDepth + 1` is computed to.

* `rotateSession_of_ok` — the two phases
* `InTurn` — the active era is the current one, or the one before it
-/

namespace OctopusPallets.Lpos

open Infra Infra.Dispatch Infra.FixedWidth

variable {AccountId : Type}

namespace Timeline

variable (t : Timeline AccountId)

/-- Apart from what was printed. -/
def unprinted : Timeline AccountId := { t with printed := [] }

/-- The next era is planned for `session` or one before it. -/
def startsEra (session : Nat) : Bool :=
  (t.start (following t.activeIndex)).any fun start => start ≤ session

/-- In `session` the current era will be long enough, or there is none. -/
def plansEra (sessionsPerEra session : Nat) : Bool :=
  match t.currentEra with
  | none => true
  | some era => sessionsPerEra ≤ session - (t.start era).getD 0

def startPhase (setId session : Nat) : Timeline AccountId :=
  if t.startsEra session then t.activate (following t.activeIndex) setId session else t

def planPhase [DecidableEq AccountId] (sessionsPerEra kept session : Nat)
    (validators : List (AccountId × Nat)) : Timeline AccountId :=
  if t.plansEra sessionsPerEra session then
    t.planKept kept (following t.currentEra) session validators
  else t

/-! ## Reading the phases -/

variable [DecidableEq AccountId] (kept era i : Nat) (validators : List (AccountId × Nat))

/-- The stakers of the planned era are added to those that are stored for it. -/
theorem planKept_self (hkept : 1 ≤ kept) :
    (t.planKept kept era i validators).stakers era = insertStakers validators (t.stakers era) ∧
      (t.planKept kept era i validators).totalStake era = saturatingTotal validators := by
  have hne : era + kept ≠ era := by omega
  have hold := (clearKept_of_ne
    { t with currentEra := some era, start := Function.update t.start era (some i) } hne).1
  constructor
  · refine (Function.update_self _ _ _).trans ?_
    rw [hold]
  · exact Function.update_self _ _ _

theorem planKept_of_ne {e : Nat} (hne : e ≠ era) (hkept : e + kept ≠ era) :
    (t.planKept kept era i validators).stakers e = t.stakers e ∧
      (t.planKept kept era i validators).totalStake e = t.totalStake e := by
  have hold := clearKept_of_ne
    { t with currentEra := some era, start := Function.update t.start era (some i) } hkept
  exact ⟨(Function.update_of_ne hne _ _).trans hold.1,
    (Function.update_of_ne hne _ _).trans hold.2⟩

/-- What was printed has no part in the planning. -/
theorem planKept_unprinted :
    (t.unprinted.planKept kept era i validators).unprinted
      = (t.planKept kept era i validators).unprinted := by
  unfold planKept clearKept
  cases checkedSub era kept <;> rfl

theorem planPhase_unprinted (sessionsPerEra session : Nat) :
    (t.unprinted.planPhase sessionsPerEra kept session validators).unprinted
      = (t.planPhase sessionsPerEra kept session validators).unprinted := by
  have hplans : t.unprinted.plansEra sessionsPerEra session = t.plansEra sessionsPerEra session :=
    rfl
  unfold planPhase
  rw [hplans]
  split
  · exact t.planKept_unprinted kept _ session validators
  · rfl

theorem planPhase_activeEra (sessionsPerEra session : Nat) :
    (t.planPhase sessionsPerEra kept session validators).activeEra = t.activeEra := by
  unfold planPhase
  split
  · exact t.planKept_activeEra _ _ _ _
  · rfl

@[simp] theorem planPhase_historyDepth (sessionsPerEra session : Nat) :
    (t.planPhase sessionsPerEra kept session validators).historyDepth = t.historyDepth := by
  unfold planPhase
  split
  · exact t.planKept_historyDepth _ _ _ _
  · rfl

omit [DecidableEq AccountId] in
theorem startPhase_unprinted (setId session : Nat) :
    (t.unprinted.startPhase setId session).unprinted
      = (t.startPhase setId session).unprinted := by
  have hstarts : t.unprinted.startsEra session = t.startsEra session := rfl
  unfold startPhase
  rw [hstarts]
  split <;> rfl

omit [DecidableEq AccountId] in
/-- Starting an era does not bear on the planning of the next one. -/
theorem startPhase_plansEra (setId session sessionsPerEra session' : Nat) :
    (t.startPhase setId session).plansEra sessionsPerEra session'
      = t.plansEra sessionsPerEra session' := by
  unfold startPhase
  split <;> rfl

omit [DecidableEq AccountId] in
@[simp] theorem startPhase_currentEra (setId session : Nat) :
    (t.startPhase setId session).currentEra = t.currentEra := by
  unfold startPhase
  split <;> rfl

omit [DecidableEq AccountId] in
@[simp] theorem startPhase_historyDepth (setId session : Nat) :
    (t.startPhase setId session).historyDepth = t.historyDepth := by
  unfold startPhase
  split <;> rfl

end Timeline

variable {T : Config AccountId}

/-! ## The two phases of the code -/

/-- An era that starts goes through the first phase, whatever has been printed before. -/
theorem startEra_startPhase (ctx : Context AccountId) {s t s' : State T} {session : Nat}
    (ht : t.timeline.unprinted = s.timeline.unprinted)
    (hlt : following s.timeline.activeIndex < 2 ^ 32)
    (hstarts : s.timeline.startsEra session = true)
    (hstart : startEra ctx session t = (.ok (), s')) :
    ∃ setId, T.build.sub 32 ctx.appchain.nextSetId 1 = some setId ∧
      s'.timeline.unprinted = (s.timeline.startPhase setId session).unprinted := by
  have hindex : t.timeline.activeIndex = s.timeline.activeIndex := by
    show t.timeline.unprinted.activeIndex = s.timeline.unprinted.activeIndex
    rw [ht]
  have hera : following (t.activeEra.map ActiveEraInfo.index)
      = following s.timeline.activeIndex := by
    rw [← hindex, State.timeline_activeIndex]
  obtain ⟨setId, hsub, htimeline⟩ := startEra_of_ok ctx hera hlt hstart
  refine ⟨setId, hsub, ?_⟩
  unfold Timeline.startPhase
  rw [if_pos hstarts, htimeline]
  exact congrArg (fun t' => t'.activate (following s.timeline.activeIndex) setId session) ht

/-- A session that starts goes through the first phase. -/
theorem startSession_of_ok (ctx : Context AccountId) {s s' : State T} {session : Nat}
    (hlt : following s.timeline.activeIndex < 2 ^ 32)
    (h : SessionManager.startSession ctx session s = (.ok (), s')) :
    ∃ setId, (s.timeline.startsEra session = true →
        T.build.sub 32 ctx.appchain.nextSetId 1 = some setId) ∧
      s'.timeline.unprinted = (s.timeline.startPhase setId session).unprinted := by
  have hactive := s.timeline_activeIndex
  have hstarted : ∀ {t : State T}, t.timeline.unprinted = s.timeline.unprinted →
      s.timeline.startsEra session = true → startEra ctx session t = (.ok (), s') →
      ∃ setId, (s.timeline.startsEra session = true →
          T.build.sub 32 ctx.appchain.nextSetId 1 = some setId) ∧
        s'.timeline.unprinted = (s.timeline.startPhase setId session).unprinted := by
    intro t ht hstarts hstart
    obtain ⟨setId, hsub, hphase⟩ := startEra_startPhase ctx ht hlt hstarts hstart
    exact ⟨setId, fun _ => hsub, hphase⟩
  have hidle : s.timeline.startsEra session = false → s' = s →
      ∃ setId, (s.timeline.startsEra session = true →
          T.build.sub 32 ctx.appchain.nextSetId 1 = some setId) ∧
        s'.timeline.unprinted = (s.timeline.startPhase setId session).unprinted := by
    rintro hstarts rfl
    refine ⟨0, fun h => absurd h (by simp [hstarts]), ?_⟩
    unfold Timeline.startPhase
    rw [hstarts]
    rfl
  have hstarts : s.timeline.startsEra session
      = (s.erasStartSessionIndex (following (s.activeEra.map ActiveEraInfo.index))).any
        fun start => start ≤ session := by
    rw [← hactive]
    rfl
  rw [hactive] at hlt
  unfold SessionManager.startSession Lpos.startSession at h
  rw [load_bind, bind_of_ok (nextIndex_of_lt hlt s), load_bind] at h
  cases hnext : s.erasStartSessionIndex (following (s.activeEra.map ActiveEraInfo.index)) with
  | none =>
    rw [hnext] at h hstarts
    exact hidle hstarts (Prod.mk.inj h).2.symm
  | some start =>
    rw [hnext] at h hstarts
    rw [Option.any_some] at hstarts
    simp only at h
    split at h
    · next heq => exact hstarted rfl (by rw [hstarts, heq]; exact decide_eq_true (Nat.le_refl _)) h
    split at h
    · next hlt' =>
      -- the warning is printed first
      exact hstarted (t := { s with printed := s.printed ++ [.sessionSkipped] }) rfl
        (by rw [hstarts]; exact decide_eq_true (Nat.le_of_lt hlt')) h
    · next hne hge =>
      exact hidle (by rw [hstarts]; exact decide_eq_false (by omega)) (Prod.mk.inj h).2.symm

variable [DecidableEq AccountId]

/-- A planning that goes through, whatever is kept. -/
theorem tryTriggerNewEra_of_ok (ctx : Context AccountId) {s s' : State T} {startSession : Nat}
    {elected : Option (List AccountId)} (hera : following s.currentEra < 2 ^ 32)
    (h : tryTriggerNewEra ctx startSession s = (.ok elected, s')) :
    ∃ kept, T.build.add 32 s.historyDepth 1 = some kept ∧
      s'.timeline = s.timeline.planKept kept (following s.currentEra) startSession
        ctx.appchain.plannedValidators := by
  let announced : State T := { s with events := s.events ++ [.triggerNewEra] }
  have hplan := planEra_apply (s := announced) startSession hera
  have htrigger : ∃ accounts, triggerNewEra startSession ctx.appchain.plannedValidators announced
      = (.ok accounts, s') := by
    have hbind : (triggerNewEra startSession ctx.appchain.plannedValidators >>= fun elected =>
      pure (some elected)) announced = (.ok elected, s') := h
    rw [bind_eq_ok] at hbind
    obtain ⟨accounts, t, htrigger, hpure⟩ := hbind
    obtain ⟨-, rfl⟩ := pure_eq_ok.mp hpure
    exact ⟨accounts, htrigger⟩
  obtain ⟨accounts, htrigger⟩ := htrigger
  unfold triggerNewEra at htrigger
  rw [bind_of_ok hplan, load_bind, bind_eq_ok] at htrigger
  obtain ⟨kept, t, hkept, hrest⟩ := htrigger
  obtain ⟨hadd, rfl⟩ := operator_eq_ok.mp hkept
  obtain ⟨s₂, hclear, htimeline⟩ := clearOldEra_kept
    (announced.withEra (following announced.currentEra) startSession) kept
    (following announced.currentEra)
  rw [bind_of_ok hclear] at hrest
  have hdepth : (announced.withEra (following announced.currentEra) startSession).historyDepth
      = s.historyDepth := rfl
  rw [hdepth] at hadd
  refine ⟨kept, hadd, ?_⟩
  rw [← (Prod.mk.inj hrest).2]
  exact congrArg (fun t' : Timeline AccountId => { t' with
    stakers := Function.update t'.stakers (following s.currentEra)
      (insertStakers ctx.appchain.plannedValidators (t'.stakers (following s.currentEra)))
    totalStake := Function.update t'.totalStake (following s.currentEra)
      (saturatingTotal ctx.appchain.plannedValidators) }) htimeline

omit [DecidableEq AccountId] in
/-- The start of the current era is read, or the line that it is missing is printed. -/
theorem currentEraStart_apply (s : State T) (era : Nat) :
    ∃ s', currentEraStart era s = (.ok ((s.erasStartSessionIndex era).getD 0), s') ∧
      s'.timeline.unprinted = s.timeline.unprinted ∧ s'.currentEra = s.currentEra ∧
      s'.historyDepth = s.historyDepth := by
  unfold currentEraStart
  rw [load_bind]
  cases s.erasStartSessionIndex era with
  | none => exact ⟨_, rfl, rfl, rfl, rfl⟩
  | some start => exact ⟨s, rfl, rfl, rfl, rfl⟩

/-- An era that is planned goes through the second phase, whatever has been printed before. -/
theorem tryTriggerNewEra_planPhase (ctx : Context AccountId) {s t s' : State T} {session : Nat}
    {elected : Option (List AccountId)} (ht : t.timeline.unprinted = s.timeline.unprinted)
    (hera : following s.timeline.currentEra < 2 ^ 32)
    (hplans : s.timeline.plansEra T.sessionsPerEra session = true)
    (h : tryTriggerNewEra ctx session t = (.ok elected, s')) :
    ∃ kept, T.build.add 32 s.historyDepth 1 = some kept ∧
      s'.timeline.unprinted = (s.timeline.planPhase T.sessionsPerEra kept session
        ctx.appchain.plannedValidators).unprinted := by
  have heras : t.currentEra = s.timeline.currentEra := congrArg Timeline.currentEra ht
  have hdepth : t.historyDepth = s.historyDepth := congrArg Timeline.historyDepth ht
  obtain ⟨kept, hadd, htimeline⟩ :=
    tryTriggerNewEra_of_ok ctx (by rw [heras]; exact hera) h
  rw [hdepth] at hadd
  refine ⟨kept, hadd, ?_⟩
  unfold Timeline.planPhase
  rw [if_pos hplans, htimeline, heras]
  rw [← Timeline.planKept_unprinted, ht, Timeline.planKept_unprinted]

/-- A session that is planned goes through the second phase. -/
theorem newSession_of_ok (ctx : Context AccountId) {s s' : State T} {session : Nat}
    {elected : Option (List AccountId)} (hera : following s.timeline.currentEra < 2 ^ 32)
    (h : newSession ctx session s = (.ok elected, s')) :
    ∃ kept, (s.timeline.plansEra T.sessionsPerEra session = true →
        T.build.add 32 s.historyDepth 1 = some kept) ∧
      s'.timeline.unprinted = (s.timeline.planPhase T.sessionsPerEra kept session
        ctx.appchain.plannedValidators).unprinted := by
  have hcurrent : s.timeline.currentEra = s.currentEra := rfl
  have hplans : s.timeline.plansEra T.sessionsPerEra session = (match s.currentEra with
    | none => true
    | some era => T.sessionsPerEra ≤ session - (s.erasStartSessionIndex era).getD 0) := rfl
  have hplanned : ∀ {t : State T}, t.timeline.unprinted = s.timeline.unprinted →
      s.timeline.plansEra T.sessionsPerEra session = true →
      tryTriggerNewEra ctx session t = (.ok elected, s') →
      ∃ kept, (s.timeline.plansEra T.sessionsPerEra session = true →
          T.build.add 32 s.historyDepth 1 = some kept) ∧
        s'.timeline.unprinted = (s.timeline.planPhase T.sessionsPerEra kept session
          ctx.appchain.plannedValidators).unprinted := by
    intro t ht hyes htrigger
    obtain ⟨kept, hadd, hphase⟩ := tryTriggerNewEra_planPhase ctx ht hera hyes htrigger
    exact ⟨kept, fun _ => hadd, hphase⟩
  unfold newSession at h
  rw [load_bind] at h
  cases hera' : s.currentEra with
  | none =>
    rw [hera'] at h hplans
    exact hplanned rfl hplans h
  | some era =>
    rw [hera'] at h hplans
    simp only at h hplans
    obtain ⟨t, hstart, htimeline, -⟩ := currentEraStart_apply s era
    rw [bind_of_ok hstart] at h
    split at h
    · next hwithin =>
      have hno : s.timeline.plansEra T.sessionsPerEra session = false := by
        rw [hplans]
        exact decide_eq_false (by omega)
      have hkeeps : Keeps State.timeline (if (ctx.appchain.isActivated && isLastSession T (session -
          (s.erasStartSessionIndex era).getD 0)) = true then
            (do submitPlanNewEra ctx; pure none : Dispatch Fault (State T) (Option (List AccountId)))
          else pure none) := by
        split
        · exact .bind (State.timeline_outsidePayout.submitPlanNewEra ctx) fun _ => .pure _
        · exact .pure _
      have hsame : s'.timeline = t.timeline := by
        rw [← hkeeps t]
        exact congrArg (fun r => State.timeline r.2) h.symm
      refine ⟨0, fun hyes => absurd hyes (by simp [hno]), ?_⟩
      unfold Timeline.planPhase
      rw [hno, hsame, htimeline]
      rfl
    · next hlong =>
      exact hplanned htimeline (by rw [hplans]; exact decide_eq_true (by omega)) h

omit [DecidableEq AccountId] in
theorem newSession_of_planning {x : Dispatch Fault (State T) (Option (List AccountId))}
    {s s' : State T} {session newIndex : Nat} {os : List (Observed AccountId)}
    (h : planning (do store fun s => { s with currentPlannedSession := newIndex }; x) session s
      = (.ok os, s')) :
    ∃ elected, x { s with currentPlannedSession := newIndex } = (.ok elected, s') := by
  unfold planning at h
  rw [load_bind, bind_eq_ok] at h
  obtain ⟨elected, t, hnew, h⟩ := h
  obtain ⟨-, rfl⟩ := pure_eq_ok.mp h
  exact ⟨elected, hnew⟩

theorem ending_keeps (ctx : Context AccountId) (session : Nat) :
    Keeps State.timeline (ending (T := T) ctx session) :=
  .bind (endingEra_frame _ _) fun _ =>
    .bind (endSession_frame State.timeline_outsidePayout _ _) fun _ => .pure _

/-- **A rotation that goes through goes through the two phases.** -/
theorem rotateSession_of_ok (ctx : Context AccountId) {s s' : State T} {i : Nat}
    {os : List (Observed AccountId)} (hactive : following s.timeline.activeIndex < 2 ^ 32)
    (hcurrent : following s.timeline.currentEra < 2 ^ 32)
    (h : rotateSession ctx i s = (.ok os, s')) :
    ∃ setId kept, (s.timeline.startsEra (i + 1) = true →
        T.build.sub 32 ctx.appchain.nextSetId 1 = some setId) ∧
      (s.timeline.plansEra T.sessionsPerEra (i + 2) = true →
        T.build.add 32 s.historyDepth 1 = some kept) ∧
      s'.timeline.unprinted = ((s.timeline.startPhase setId (i + 1)).planPhase T.sessionsPerEra kept
        (i + 2) ctx.appchain.plannedValidators).unprinted := by
  obtain ⟨os₁, os₂, s₁, s₂, hend, hstart, hplan, -⟩ := rotateSession_eq_ok.mp h
  have hended : s₁.timeline = s.timeline := by
    have hs := ending_keeps (T := T) ctx i s
    rwa [hend] at hs
  obtain ⟨setId, hsub, hstarted⟩ := startSession_of_ok ctx (by rw [hended]; exact hactive) hstart
  rw [hended] at hsub hstarted
  have hcurrent₂ : s₂.timeline.currentEra = s.timeline.currentEra :=
    (congrArg Timeline.currentEra hstarted).trans (s.timeline.startPhase_currentEra setId (i + 1))
  have hdepth₂ : s₂.historyDepth = s.historyDepth :=
    (congrArg Timeline.historyDepth hstarted).trans
      (s.timeline.startPhase_historyDepth setId (i + 1))
  have hplans₂ : s₂.timeline.plansEra T.sessionsPerEra (i + 2)
      = s.timeline.plansEra T.sessionsPerEra (i + 2) :=
    (congrArg (fun t => Timeline.plansEra t T.sessionsPerEra (i + 2)) hstarted).trans
      (s.timeline.startPhase_plansEra setId (i + 1) T.sessionsPerEra (i + 2))
  obtain ⟨r, hnew⟩ := newSession_of_planning hplan
  obtain ⟨kept, hadd, hplanned⟩ := newSession_of_ok ctx
    (s := { s₂ with currentPlannedSession := i + 2 }) (by rw [← hcurrent₂] at hcurrent; exact hcurrent)
    hnew
  refine ⟨setId, kept, hsub, fun hyes => ?_, ?_⟩
  · rw [← hdepth₂]
    exact hadd (hplans₂.trans hyes)
  · refine hplanned.trans ?_
    show (s₂.timeline.planPhase T.sessionsPerEra kept (i + 2) _).unprinted = _
    rw [← Timeline.planPhase_unprinted, hstarted, Timeline.planPhase_unprinted]

/-! ## Taking turns -/

namespace Timeline

/-- What planning stores of an era: its start, its stakers and their total. -/
def entry (t : Timeline AccountId) (era : Nat) :
    Option Nat × (AList fun _ : AccountId => Nat) × Nat :=
  (t.start era, t.stakers era, t.totalStake era)

/--
In session `i` the era `era`, which is to start with the session `start`, is the current one. The
active era is the same, or it is the one before, and then `start` is the next session.
-/
structure InTurn (i : Nat) (t : Timeline AccountId) (era start : Nat) : Prop where
  current : t.currentEra = some era
  starts : t.start era = some start
  era_le : era ≤ start
  active : (t.activeIndex = some era ∧ start ≤ i) ∨
    ∃ before, t.activeIndex = some before ∧ before + 1 = era ∧ start = i + 1
  later : ∀ e, era < e → t.start e = none ∧ t.stakers e = ∅

/-- The current era is the active one before the session `i` is planned. -/
structure Settled (i : Nat) (t : Timeline AccountId) (era start : Nat) : Prop where
  current : t.currentEra = some era
  starts : t.start era = some start
  era_le : era ≤ start
  active : t.activeIndex = some era
  start_lt : start < i
  later : ∀ e, era < e → t.start e = none ∧ t.stakers e = ∅

variable {t : Timeline AccountId} {i era start setId : Nat}

omit [DecidableEq AccountId] in
theorem entry_of_unprinted {t' : Timeline AccountId} (e : Nat) (h : t'.unprinted = t.unprinted) :
    t'.entry e = t.entry e := by
  show t'.unprinted.entry e = t.unprinted.entry e
  rw [h]

omit [DecidableEq AccountId] in
theorem activeEra_of_unprinted {t' : Timeline AccountId} (h : t'.unprinted = t.unprinted) :
    t'.activeEra = t.activeEra := by
  show t'.unprinted.activeEra = t.unprinted.activeEra
  rw [h]

omit [DecidableEq AccountId] in
theorem activeIndex_of_unprinted {t' : Timeline AccountId} (h : t'.unprinted = t.unprinted) :
    t'.activeIndex = t.activeIndex :=
  congrArg (Option.map Prod.fst) (activeEra_of_unprinted h)

omit [DecidableEq AccountId] in
theorem InTurn.era_lt (h : InTurn i t era start) : era ≤ i + 1 := by
  have hle := h.era_le
  rcases h.active with ⟨-, hstart⟩ | ⟨_, -, -, hstart⟩ <;> omega

omit [DecidableEq AccountId] in
theorem InTurn.following_le (h : InTurn i t era start) : following t.activeIndex ≤ era + 1 := by
  rcases h.active with ⟨hactive, -⟩ | ⟨before, hactive, hnext, -⟩
  · rw [hactive]
    exact Nat.le_refl _
  · rw [hactive]
    exact Nat.le_succ_of_le (Nat.le_of_eq hnext)

omit [DecidableEq AccountId] in
/-- An era that was planned ahead starts with the next session, and no other does. -/
theorem InTurn.startsEra_eq (h : InTurn i t era start) :
    t.startsEra (i + 1) = decide (t.activeIndex ≠ some era) := by
  unfold startsEra
  rcases h.active with ⟨hactive, -⟩ | ⟨before, hactive, rfl, rfl⟩
  · rw [hactive]
    show (t.start (era + 1)).any _ = _
    rw [(h.later (era + 1) (Nat.lt_succ_self _)).1]
    simp
  · rw [hactive]
    show (t.start (before + 1)).any _ = _
    rw [h.starts]
    simp

omit [DecidableEq AccountId] in
theorem startPhase_entry (setId session e : Nat) :
    (t.startPhase setId session).entry e = t.entry e := by
  unfold startPhase
  split <;> rfl

omit [DecidableEq AccountId] in
/-- After the first phase the current era is the active one. -/
theorem InTurn.startPhase (h : InTurn i t era start) (setId : Nat) :
    Settled (i + 2) (t.startPhase setId (i + 1)) era start := by
  have hstarts := h.startsEra_eq
  unfold Timeline.startPhase
  rcases h.active with ⟨hactive, hle⟩ | ⟨before, hactive, rfl, rfl⟩
  · have hno : ¬ t.startsEra (i + 1) = true := by
      rw [hstarts, hactive]
      simp
    rw [if_neg hno]
    exact ⟨h.current, h.starts, h.era_le, hactive, by omega, h.later⟩
  · have hyes : t.startsEra (i + 1) = true := by
      rw [hstarts, hactive]
      simp
    rw [if_pos hyes, hactive]
    exact ⟨h.current, h.starts, h.era_le, rfl, by omega, h.later⟩

omit [DecidableEq AccountId] in
theorem Settled.inTurn (h : Settled (i + 1) t era start) : InTurn i t era start :=
  ⟨h.current, h.starts, h.era_le, Or.inl ⟨h.active, Nat.lt_succ_iff.mp h.start_lt⟩, h.later⟩

/-- The entry of an era that nothing was stored of. -/
theorem planKept_entry_self {kept : Nat} (validators : List (AccountId × Nat)) (hkept : 1 ≤ kept)
    (hempty : t.stakers era = ∅) :
    (t.planKept kept era i validators).entry era
      = (some i, insertStakers validators ∅, saturatingTotal validators) := by
  obtain ⟨hstakers, htotal⟩ := t.planKept_self kept era i validators hkept
  unfold entry
  rw [hstakers, htotal, planKept_start, if_neg (by omega), if_pos rfl, hempty]

theorem planKept_entry_of_ne {kept e : Nat} (validators : List (AccountId × Nat)) (hne : e ≠ era)
    (hkept : e + kept ≠ era) : (t.planKept kept era i validators).entry e = t.entry e := by
  obtain ⟨hstakers, htotal⟩ := t.planKept_of_ne kept era i validators hne hkept
  unfold entry
  rw [hstakers, htotal, planKept_start, if_neg hkept, if_neg hne]

/-- **Planning the next era keeps the turn, when it does not clear the active era.** -/
theorem Settled.plan (h : Settled (i + 1) t era start) {kept : Nat} (hkept : 2 ≤ kept)
    (validators : List (AccountId × Nat)) :
    InTurn i (t.planKept kept (era + 1) (i + 1) validators) (era + 1) (i + 1) := by
  have hle := h.era_le
  have hlt := h.start_lt
  refine ⟨planKept_currentEra _ _ _ _ _, ?_, by omega, Or.inr ⟨era, ?_, rfl, rfl⟩, fun e he => ?_⟩
  · rw [planKept_start, if_neg (by omega), if_pos rfl]
  · unfold activeIndex
    rw [planKept_activeEra]
    exact h.active
  · obtain ⟨hstart, hstakers⟩ := h.later e (by omega)
    constructor
    · rw [planKept_start, if_neg (by omega), if_neg (by omega), hstart]
    · rw [(t.planKept_of_ne kept (era + 1) (i + 1) validators (e := e) (by omega) (by omega)).1,
        hstakers]

omit [DecidableEq AccountId] in
/-- Only the fields besides what was printed take part in the turns. -/
theorem InTurn.of_unprinted {t' : Timeline AccountId} (h : InTurn i t era start)
    (ht : t'.unprinted = t.unprinted) : InTurn i t' era start := by
  have h' : InTurn i t.unprinted era start := ⟨h.current, h.starts, h.era_le, h.active, h.later⟩
  rw [← ht] at h'
  exact ⟨h'.current, h'.starts, h'.era_le, h'.active, h'.later⟩

end Timeline

end OctopusPallets.Lpos
