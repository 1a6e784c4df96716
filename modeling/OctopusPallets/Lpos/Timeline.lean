import OctopusPallets.Lpos.Frames

/-!
# The timeline of eras

Of the storage, the timeline is what decides when an era is planned, started and ended, and with
whom. Of the hooks, only the planning and the start of an era write it, and each writes it in one
way: `Timeline.plan` and `Timeline.activate`. The payout of an era, the points and the offences
leave it as it is.
-/

namespace OctopusPallets.Lpos

open Infra Infra.Dispatch Infra.FixedWidth

variable {AccountId : Type}

/-- The era after the one of an optional index. -/
def following : Option Nat → Nat
  | some era => era + 1
  | none => 0

structure Timeline (AccountId : Type) where
  historyDepth : Nat
  currentEra : Option Nat
  /-- The index and the set id of the active era. -/
  activeEra : Option (Nat × Nat)
  start : Nat → Option Nat
  stakers : Nat → AList fun _ : AccountId => Nat
  totalStake : Nat → Nat
  bonded : List (Nat × Nat)
  printed : List Printed

namespace Timeline

variable (t : Timeline AccountId)

def activeIndex : Option Nat := t.activeEra.map Prod.fst

def clear (era : Nat) : Timeline AccountId :=
  { t with
    start := Function.update t.start era none
    stakers := Function.update t.stakers era ∅
    totalStake := Function.update t.totalStake era 0 }

/-- The eras from `first` to before `last` are cleared. -/
def clearEras (first last : Nat) : Timeline AccountId :=
  (List.range' first (last - first)).foldl clear t

/-- The era that is cleared when `era` is planned and `kept` eras are kept. -/
def clearKept (kept era : Nat) : Timeline AccountId :=
  match checkedSub era kept with
  | some oldEra => t.clear oldEra
  | none => t

/-- `era` is planned, to start with the session `startSession`, and `kept` eras are kept. -/
def planKept [DecidableEq AccountId] (kept era startSession : Nat)
    (validators : List (AccountId × Nat)) : Timeline AccountId :=
  let t' := clearKept
    { t with currentEra := some era, start := Function.update t.start era (some startSession) }
    kept era
  { t' with
    stakers := Function.update t'.stakers era (insertStakers validators (t'.stakers era))
    totalStake := Function.update t'.totalStake era (saturatingTotal validators) }

/-- The history and the era that is planned are kept. -/
def plan [DecidableEq AccountId] (era startSession : Nat) (validators : List (AccountId × Nat)) :
    Timeline AccountId :=
  t.planKept (t.historyDepth + 1) era startSession validators

/-- `era` becomes the active one. -/
def activate (era setId startSession : Nat) : Timeline AccountId :=
  { t with
    activeEra := some (era, setId)
    bonded := t.bonded ++ [(era, startSession)] }

/-! ## Reading the timeline -/

@[simp] theorem clear_start (era e : Nat) :
    (t.clear era).start e = if e = era then none else t.start e := by
  unfold clear
  exact Function.update_apply _ _ _ _

/-- Clearing writes the entries of the cleared eras, and nothing else. -/
theorem foldl_clear (eras : List Nat) : ∀ t : Timeline AccountId,
    (eras.foldl clear t).historyDepth = t.historyDepth ∧
      (eras.foldl clear t).currentEra = t.currentEra ∧
      (eras.foldl clear t).activeEra = t.activeEra ∧
      (eras.foldl clear t).printed = t.printed ∧
      ∀ e, e ∉ eras → (eras.foldl clear t).start e = t.start e := by
  induction eras with
  | nil => exact fun t => ⟨rfl, rfl, rfl, rfl, fun _ _ => rfl⟩
  | cons era eras ih =>
    intro t
    obtain ⟨hdepth, hcurrent, hactive, hprinted, hstart⟩ := ih (t.clear era)
    refine ⟨hdepth, hcurrent, hactive, hprinted, fun e he => ?_⟩
    rw [List.mem_cons, not_or] at he
    rw [List.foldl_cons, hstart e he.2, clear_start, if_neg he.1]

theorem clearKept_start (kept era e : Nat) :
    (t.clearKept kept era).start e = if e + kept = era then none else t.start e := by
  unfold clearKept
  cases hold : checkedSub era kept with
  | none =>
    -- the subtraction is below 0: what is kept reaches back to era 0
    have hlt : ¬ kept ≤ era := by
      intro hle
      rw [checkedSub, if_pos hle] at hold
      cases hold
    rw [if_neg (by omega)]
  | some oldEra =>
    have hera := checkedSub_eq_some.mp hold
    have hiff : e = oldEra ↔ e + kept = era := by omega
    simp only [clear_start, hiff]

/-- Eras other than the cleared one keep their entries. -/
theorem clearKept_of_ne {kept era e : Nat} (h : e + kept ≠ era) :
    (t.clearKept kept era).stakers e = t.stakers e ∧
      (t.clearKept kept era).totalStake e = t.totalStake e := by
  unfold clearKept
  cases hold : checkedSub era kept with
  | none => exact ⟨rfl, rfl⟩
  | some oldEra =>
    have hera := checkedSub_eq_some.mp hold
    have hne : e ≠ oldEra := by omega
    exact ⟨Function.update_of_ne hne _ _, Function.update_of_ne hne _ _⟩

variable [DecidableEq AccountId] (kept era i : Nat) (validators : List (AccountId × Nat))

@[simp] theorem planKept_currentEra : (t.planKept kept era i validators).currentEra = some era := by
  unfold planKept clearKept
  split <;> rfl

@[simp] theorem planKept_activeEra :
    (t.planKept kept era i validators).activeEra = t.activeEra := by
  unfold planKept clearKept
  split <;> rfl

@[simp] theorem planKept_historyDepth :
    (t.planKept kept era i validators).historyDepth = t.historyDepth := by
  unfold planKept clearKept
  split <;> rfl

@[simp] theorem planKept_printed : (t.planKept kept era i validators).printed = t.printed := by
  unfold planKept clearKept
  split <;> rfl

/-- **Planning writes the start of its own era, and clears at most the one that is no longer
kept.** -/
theorem planKept_start (e : Nat) :
    (t.planKept kept era i validators).start e =
      if e + kept = era then none else if e = era then some i else t.start e := by
  have hold := clearKept_start
    { t with currentEra := some era, start := Function.update t.start era (some i) } kept era e
  rw [← Function.update_apply t.start era (some i) e]
  exact hold

@[simp] theorem plan_currentEra : (t.plan era i validators).currentEra = some era :=
  planKept_currentEra _ _ _ _ _

@[simp] theorem plan_activeEra : (t.plan era i validators).activeEra = t.activeEra :=
  planKept_activeEra _ _ _ _ _

@[simp] theorem plan_historyDepth : (t.plan era i validators).historyDepth = t.historyDepth :=
  planKept_historyDepth _ _ _ _ _

@[simp] theorem plan_printed : (t.plan era i validators).printed = t.printed :=
  planKept_printed _ _ _ _ _

theorem plan_start (e : Nat) :
    (t.plan era i validators).start e =
      if e + (t.historyDepth + 1) = era then none else if e = era then some i else t.start e :=
  planKept_start _ _ _ _ _ _

end Timeline

variable {T : Config AccountId}

def State.timeline (s : State T) : Timeline AccountId where
  historyDepth := s.historyDepth
  currentEra := s.currentEra
  activeEra := s.activeEra.map fun e => (e.index, e.setId)
  start := s.erasStartSessionIndex
  stakers := s.erasStakers
  totalStake := s.erasTotalStake
  bonded := s.bondedEras
  printed := s.printed

theorem State.timeline_activeIndex (s : State T) :
    s.timeline.activeIndex = s.activeEra.map ActiveEraInfo.index := by
  unfold Timeline.activeIndex State.timeline
  rw [Option.map_map]
  rfl

/-! ## Errors that are only logged -/

/-- What the hook makes of how `end_session` ends. -/
def logged : Except Fault Unit × State T → Except Fault Unit × State T
  | (.ok _, s) => (.ok (), s)
  | (.error (.error _), s) => (.ok (), s)
  | (.error .abort, s) => (.error .abort, s)

@[simp] theorem logged_state (out : Except Fault Unit × State T) : (logged out).2 = out.2 := by
  rcases out with ⟨(_ | _) | _, s⟩ <;> rfl

/-! ## What leaves the timeline as it is -/

theorem State.timeline_outsidePayout : OutsidePayout (State.timeline (T := T)) :=
  fun _ _ _ _ _ _ => rfl

variable [DecidableEq AccountId]

/-- Nor do points and offences move it. -/
theorem rewardByIds_keeps (validatorsPoints : List (AccountId × Nat)) :
    Keeps State.timeline (rewardByIds (T := T) validatorsPoints) :=
  rewardByIds_writes (fun _ _ => rfl) _

theorem reportOffence_keeps (kind : Kind) (offenceSession : Nat) (offenders : List AccountId)
    (reported : Except OffenceError Unit) :
    Keeps State.timeline (reportOffence (T := T) kind offenceSession offenders reported) :=
  reportOffence_writes (fun _ _ => rfl) (fun _ _ => rfl) _ _ _ _

omit [DecidableEq AccountId] in
theorem onFinalize_timeline (ctx : Context AccountId) (s : State T) :
    (onFinalize ctx s).timeline = s.timeline := by
  unfold onFinalize
  cases hactive : s.activeEra with
  | none => rfl
  | some activeEra =>
    simp only
    split
    · simp [State.timeline, hactive]
    · rfl

/-! ## Planning -/

omit [DecidableEq AccountId]

theorem operator_of_some {value : Option Nat} {n : Nat} (h : value = some n) (s : State T) :
    operator value s = (.ok n, s) := by
  unfold operator
  rw [h, okOr_some]

/-- An index that fits is the one after. -/
theorem nextIndex_of_lt {era : Option Nat} (h : following era < 2 ^ 32) (s : State T) :
    nextIndex era s = (.ok (following era), s) := by
  cases era with
  | none => rfl
  | some e => exact operator_of_some (T.build.add_of_lt h) s

theorem clearOldEra_kept (s : State T) (kept era : Nat) :
    ∃ s', clearOldEra (checkedSub era kept) s = (.ok (), s') ∧
      s'.timeline = s.timeline.clearKept kept era := by
  unfold Timeline.clearKept
  cases checkedSub era kept with
  | none => exact ⟨s, rfl, rfl⟩
  | some oldEra => exact ⟨s.clearEraInformation oldEra, rfl, rfl⟩

/-- The state once the new era is the current one. -/
def State.withEra (s : State T) (era startSession : Nat) : State T :=
  { s with
    currentEra := some era
    erasStartSessionIndex := Function.update s.erasStartSessionIndex era (some startSession) }

theorem planEra_apply {s : State T} (startSession : Nat) (h : following s.currentEra < 2 ^ 32) :
    planEra startSession s
      = (.ok (following s.currentEra), s.withEra (following s.currentEra) startSession) := by
  unfold planEra
  rw [load_bind, bind_of_ok (nextIndex_of_lt h s)]
  rfl

variable [DecidableEq AccountId]

/-- The effect of planning, in the words of the timeline. -/
theorem triggerNewEra_timeline {s : State T} (startSession : Nat)
    (validators : List (AccountId × Nat)) (hera : following s.currentEra < 2 ^ 32)
    (hdepth : s.historyDepth + 1 < 2 ^ 32) :
    ∃ s', triggerNewEra startSession validators s = (.ok (validators.map Prod.fst), s') ∧
      s'.timeline = s.timeline.plan (following s.currentEra) startSession validators := by
  have hplan := planEra_apply startSession hera
  generalize following s.currentEra = era at hplan ⊢
  have hkept : T.build.add 32 (s.withEra era startSession).historyDepth 1
      = some ((s.withEra era startSession).historyDepth + 1) := T.build.add_of_lt hdepth
  obtain ⟨s₂, hclear, htimeline⟩ := clearOldEra_kept (s.withEra era startSession)
    ((s.withEra era startSession).historyDepth + 1) era
  have hstore : triggerNewEra startSession validators s = storeStakersInfo validators era s₂ := by
    unfold triggerNewEra
    rw [bind_of_ok hplan, load_bind, bind_of_ok (operator_of_some hkept _), bind_of_ok hclear]
  refine ⟨(storeStakersInfo validators era s₂).2, hstore, ?_⟩
  exact congrArg (fun t' : Timeline AccountId => { t' with
    stakers := Function.update t'.stakers era (insertStakers validators (t'.stakers era))
    totalStake := Function.update t'.totalStake era (saturatingTotal validators) }) htimeline

/-- **A new era is planned, and its validators are returned.** -/
theorem tryTriggerNewEra_timeline (ctx : Context AccountId) {s : State T} (startSession : Nat)
    (hera : following s.currentEra < 2 ^ 32) (hdepth : s.historyDepth + 1 < 2 ^ 32) :
    ∃ s', tryTriggerNewEra ctx startSession s
        = (.ok (some (ctx.appchain.plannedValidators.map Prod.fst)), s') ∧
      s'.timeline = s.timeline.plan (following s.currentEra) startSession
        ctx.appchain.plannedValidators := by
  let announced : State T := { s with events := s.events ++ [.triggerNewEra] }
  obtain ⟨s', htrigger, htimeline⟩ := triggerNewEra_timeline (s := announced) startSession
    ctx.appchain.plannedValidators hera hdepth
  refine ⟨s', ?_, htimeline⟩
  show (triggerNewEra startSession ctx.appchain.plannedValidators >>= fun elected =>
    pure (some elected)) announced = _
  rw [bind_of_ok htrigger]
  rfl

omit [DecidableEq AccountId] in
theorem submitPlanNewEra_timeline (ctx : Context AccountId) (s : State T)
    (h : ctx.appchain.nextSetId < 2 ^ 32) :
    ∃ s', submitPlanNewEra ctx s = (.ok (), s') ∧ s'.timeline = s.timeline := by
  have hpayload : PlanNewEraPayload.codec.tryToVec ⟨ctx.appchain.nextSetId⟩
      = some (PlanNewEraPayload.codec.encode ⟨ctx.appchain.nextSetId⟩) :=
    Codec.tryToVec_eq_some.mpr ⟨decide_eq_true h, rfl⟩
  unfold submitPlanNewEra
  rw [hpayload, bind_of_ok (okOr_some _ _ s), attempt_bind]
  have hsent := State.timeline_outsidePayout.onMessages (T.upwardMessages.submit none .planNewEra
    (PlanNewEraPayload.codec.encode ⟨ctx.appchain.nextSetId⟩)) s
  rcases hres : onMessages (T.upwardMessages.submit none .planNewEra
    (PlanNewEraPayload.codec.encode ⟨ctx.appchain.nextSetId⟩)) s with ⟨_ | _, sent⟩
  all_goals
    rw [hres] at hsent
    exact ⟨_, rfl, hsent⟩

/-! ### The three outcomes of `new_session` -/

omit [DecidableEq AccountId] in
theorem currentEraStart_of_some {s : State T} {era start : Nat}
    (h : s.erasStartSessionIndex era = some start) :
    currentEraStart era s = (.ok start, s) := by
  unfold currentEraStart
  rw [load_bind, h]
  rfl

theorem newSession_initial (ctx : Context AccountId) {s : State T} (sessionIndex : Nat)
    (h : s.currentEra = none) :
    newSession ctx sessionIndex s = tryTriggerNewEra ctx sessionIndex s := by
  unfold newSession
  rw [load_bind, h]

theorem newSession_newEra (ctx : Context AccountId) {s : State T} {sessionIndex era start : Nat}
    (hera : s.currentEra = some era) (hstart : s.erasStartSessionIndex era = some start)
    (hlen : T.sessionsPerEra ≤ sessionIndex - start) :
    newSession ctx sessionIndex s = tryTriggerNewEra ctx sessionIndex s := by
  unfold newSession
  rw [load_bind, hera]
  show (currentEraStart era >>= _) s = _
  rw [bind_of_ok (currentEraStart_of_some hstart)]
  simp only
  rw [if_neg (by omega)]

/-- Before the era is long enough, only the condition of `PlanNewEra` makes a difference. -/
theorem newSession_within (ctx : Context AccountId) {s : State T} {sessionIndex era start : Nat}
    (hera : s.currentEra = some era) (hstart : s.erasStartSessionIndex era = some start)
    (hlen : sessionIndex - start < T.sessionsPerEra) :
    newSession ctx sessionIndex s =
      (if (ctx.appchain.isActivated && s.reachesPlanNewEra sessionIndex) = true then
        (do submitPlanNewEra ctx; pure none : Dispatch Fault (State T) _)
      else pure none) s := by
  have hreach : s.reachesPlanNewEra sessionIndex = isLastSession T (sessionIndex - start) := by
    unfold State.reachesPlanNewEra
    rw [hera, Option.any_some, hstart, Option.getD_some]
    dsimp only
    rw [decide_eq_true hlen, Bool.true_and]
  unfold newSession
  rw [load_bind, hera, hreach]
  show (currentEraStart era >>= _) s = _
  rw [bind_of_ok (currentEraStart_of_some hstart)]
  simp only
  rw [if_pos hlen]

/-! ## The history depth -/

omit [DecidableEq AccountId]

theorem clearEras_timeline (s : State T) (first last : Nat) :
    (s.clearEras first last).timeline = s.timeline.clearEras first last := by
  unfold State.clearEras Timeline.clearEras
  generalize List.range' first (last - first) = eras
  induction eras generalizing s with
  | nil => rfl
  | cons era eras ih => exact ih (s.clearEraInformation era)

/-- **Root lowers or raises the history depth: the eras that leave the history are cleared.** -/
theorem setHistoryDepth_timeline {s : State T} {currentEra : Nat} (h : s.currentEra = some currentEra)
    (newHistoryDepth eraItemsDeleted : Nat) :
    ∃ s', setHistoryDepth .root newHistoryDepth eraItemsDeleted s = (.ok (), s') ∧
      s'.timeline =
        { s.timeline.clearEras (currentEra - s.historyDepth) (currentEra - newHistoryDepth) with
          historyDepth := newHistoryDepth } := by
  unfold setHistoryDepth ensureRoot
  rw [pure_bind, load_bind, h]
  refine ⟨_, rfl, ?_⟩
  rw [← clearEras_timeline, ← checkedSub_getD, ← checkedSub_getD]
  rfl

theorem setHistoryDepth_refused {origin : Origin AccountId} (h : origin ≠ .root) (s : State T)
    (newHistoryDepth eraItemsDeleted : Nat) :
    setHistoryDepth origin newHistoryDepth eraItemsDeleted s = (.error (.error .badOrigin), s) := by
  cases origin with
  | root => exact absurd rfl h
  | signed _ => rfl
  | none => rfl

theorem forceSetEraPayout_keeps (origin : Origin AccountId) (eraPayout : Nat) :
    Keeps State.timeline (forceSetEraPayout (T := T) origin eraPayout) := by
  refine .bind ?_ fun _ => .store fun _ => rfl
  cases origin with
  | root => exact .pure _
  | signed _ => exact .fail _
  | none => exact .fail _

/-! ## Starting an era -/

theorem pruneHistorical_timeline (first : Option (Nat × Nat)) (s : State T) :
    ∃ s', pruneHistorical first s = (.ok (), s') ∧ s'.timeline = s.timeline := by
  cases first with
  | none => exact ⟨_, rfl, rfl⟩
  | some first => exact ⟨_, rfl, rfl⟩

theorem activateEra_apply (ctx : Context AccountId) {s : State T} {era : Nat}
    (hera : following (s.activeEra.map ActiveEraInfo.index) = era) (hlt : era < 2 ^ 32)
    (hpos : 1 ≤ ctx.appchain.nextSetId) (hset : ctx.appchain.nextSetId < 2 ^ 32) :
    activateEra ctx s
      = (.ok era, { s with activeEra := some ⟨era, ctx.appchain.nextSetId - 1, none⟩ }) := by
  have hid : T.build.sub 32 ctx.appchain.nextSetId 1 = some (ctx.appchain.nextSetId - 1) :=
    T.build.sub_of_le hpos hset
  have hnext := nextIndex_of_lt (T := T) (hera ▸ hlt) s
  unfold activateEra
  rw [load_bind, bind_of_ok hnext, bind_of_ok (operator_of_some hid s), hera]
  rfl

/-- The index of the next era is stored with whatever the subtraction gives for its set id. -/
theorem activateEra_eq_ok (ctx : Context AccountId) {s s' : State T} {era index : Nat}
    (hera : following (s.activeEra.map ActiveEraInfo.index) = era) (hlt : era < 2 ^ 32) :
    activateEra ctx s = (.ok index, s') ↔ ∃ setId,
      T.build.sub 32 ctx.appchain.nextSetId 1 = some setId ∧ index = era ∧
        s' = { s with activeEra := some ⟨era, setId, none⟩ } := by
  have hnext := nextIndex_of_lt (T := T) (hera ▸ hlt) s
  unfold activateEra
  rw [load_bind, bind_of_ok hnext, hera]
  simp only [operator, bind_eq_ok, okOr_eq_ok, store_eq_ok, pure_eq_ok]
  constructor
  · rintro ⟨setId, _, ⟨hid, rfl⟩, _, _, rfl, rfl, rfl⟩
    exact ⟨setId, hid, rfl, rfl⟩
  · rintro ⟨setId, hid, rfl, rfl⟩
    exact ⟨setId, _, ⟨hid, rfl⟩, (), _, rfl, rfl, rfl⟩

theorem startEra_of_ok (ctx : Context AccountId) {s s' : State T} {era startSession : Nat}
    (hera : following (s.activeEra.map ActiveEraInfo.index) = era) (hlt : era < 2 ^ 32)
    (h : startEra ctx startSession s = (.ok (), s')) :
    ∃ setId, T.build.sub 32 ctx.appchain.nextSetId 1 = some setId ∧
      s'.timeline = s.timeline.activate era setId startSession := by
  unfold startEra at h
  rw [bind_eq_ok] at h
  obtain ⟨_, _, hactivate, h⟩ := h
  obtain ⟨setId, hid, rfl, rfl⟩ := (activateEra_eq_ok ctx hera hlt).mp hactivate
  refine ⟨setId, hid, ?_⟩
  rw [store_bind] at h
  split at h
  · obtain ⟨s₂, hprune, htimeline⟩ := pruneHistorical_timeline (T := T) _ _
    rw [load_bind, hprune] at h
    rw [← (Prod.mk.inj h).2, htimeline]
    rfl
  · rw [← (Prod.mk.inj h).2]
    rfl

/-- **The next era becomes the active one.** -/
theorem startEra_timeline (ctx : Context AccountId) {s : State T} {era : Nat} (startSession : Nat)
    (hera : following (s.activeEra.map ActiveEraInfo.index) = era) (hlt : era < 2 ^ 32)
    (hpos : 1 ≤ ctx.appchain.nextSetId) (hset : ctx.appchain.nextSetId < 2 ^ 32) :
    ∃ s', startEra ctx startSession s = (.ok (), s') ∧
      s'.timeline = s.timeline.activate era (ctx.appchain.nextSetId - 1) startSession := by
  unfold startEra
  rw [bind_of_ok (activateEra_apply ctx hera hlt hpos hset), store_bind]
  split
  · exact pruneHistorical_timeline _ _
  · exact ⟨_, rfl, rfl⟩

/-- The next era is not planned yet. -/
theorem startSession_idle (ctx : Context AccountId) {s : State T} {era : Nat} (startSession : Nat)
    (hera : following (s.activeEra.map ActiveEraInfo.index) = era) (hlt : era < 2 ^ 32)
    (hstart : s.erasStartSessionIndex era = none) :
    Lpos.startSession ctx startSession s = (.ok (), s) := by
  unfold Lpos.startSession
  rw [load_bind, bind_of_ok (nextIndex_of_lt (hera ▸ hlt) s), load_bind, hera, hstart]
  rfl

/-- The next era is planned to start with this session. -/
theorem startSession_starts (ctx : Context AccountId) {s : State T} {era startSession : Nat}
    (hera : following (s.activeEra.map ActiveEraInfo.index) = era) (hlt : era < 2 ^ 32)
    (hstart : s.erasStartSessionIndex era = some startSession) :
    Lpos.startSession ctx startSession s = startEra ctx startSession s := by
  unfold Lpos.startSession
  rw [load_bind, bind_of_ok (nextIndex_of_lt (hera ▸ hlt) s), load_bind, hera, hstart]
  simp only [if_true]

/-! ## Ending an era -/

/-- **The era that `end_session` ends is the active one, when the next session starts the era after
it.** -/
theorem endingEra_apply {s : State T} {activeEra : ActiveEraInfo} {sessionIndex : Nat}
    (hactive : s.activeEra = some activeEra) (hera : activeEra.index + 1 < 2 ^ 32)
    (hsession : sessionIndex + 1 < 2 ^ 32) :
    endingEra sessionIndex s =
      (.ok (if s.erasStartSessionIndex (activeEra.index + 1) = some (sessionIndex + 1) then
        some activeEra else none), s) := by
  have hnext : T.build.add 32 activeEra.index 1 = some (activeEra.index + 1) :=
    T.build.add_of_lt hera
  have hsucc : T.build.add 32 sessionIndex 1 = some (sessionIndex + 1) :=
    T.build.add_of_lt hsession
  unfold endingEra
  rw [load_bind, hactive]
  show (operator _ >>= _) s = _
  rw [bind_of_ok (operator_of_some hnext s), load_bind]
  cases s.erasStartSessionIndex (activeEra.index + 1) with
  | none => rfl
  | some start =>
    simp only [Option.some.injEq]
    rw [bind_of_ok (operator_of_some hsucc s), pure_apply]

variable [DecidableEq AccountId]

/-- The hook swallows the errors of `end_session`, and keeps what was written before them. -/
theorem SessionManager.endSession_apply (ctx : Context AccountId) (sessionIndex : Nat)
    (s : State T) :
    SessionManager.endSession ctx sessionIndex s = logged (Lpos.endSession ctx sessionIndex s) := by
  unfold SessionManager.endSession
  rw [attempt_bind]
  rcases Lpos.endSession ctx sessionIndex s with ⟨(_ | _) | _, s'⟩ <;> rfl

/-- The hook ends like `end_era` when it aborts, and goes on otherwise. -/
theorem endSession_cases (ctx : Context AccountId) {s : State T} {ending : Option ActiveEraInfo}
    {sessionIndex : Nat} (h : endingEra sessionIndex s = (.ok ending, s)) :
    (∃ s', SessionManager.endSession ctx sessionIndex s = (.ok (), s') ∧
        s'.timeline = s.timeline) ∨
      (∃ activeEra s', ending = some activeEra ∧
        endEra ctx activeEra sessionIndex s = (.error .abort, s') ∧
        SessionManager.endSession ctx sessionIndex s = (.error .abort, s')) := by
  rw [SessionManager.endSession_apply]
  cases ending with
  | none =>
    have hrun : Lpos.endSession ctx sessionIndex s = (.ok (), s) := bind_of_ok h
    rw [hrun]
    exact Or.inl ⟨s, rfl, rfl⟩
  | some activeEra =>
    have hrun : Lpos.endSession ctx sessionIndex s = endEra ctx activeEra sessionIndex s :=
      bind_of_ok h
    have hkeeps := endEra_frame State.timeline_outsidePayout ctx activeEra sessionIndex s
    rw [hrun]
    rcases hend : endEra ctx activeEra sessionIndex s with ⟨(_ | _) | _, s'⟩
    all_goals rw [hend] at hkeeps
    · exact Or.inl ⟨s', rfl, hkeeps⟩
    · exact Or.inr ⟨activeEra, s', rfl, hend, rfl⟩
    · exact Or.inl ⟨s', rfl, hkeeps⟩

/-! ## Between rotations -/

omit [DecidableEq AccountId] in
theorem setHistoryDepth_refused_keeps (origin : Origin AccountId) (h : origin ≠ .root)
    (newHistoryDepth eraItemsDeleted : Nat) :
    Keeps State.timeline (setHistoryDepth (T := T) origin newHistoryDepth eraItemsDeleted) := by
  intro s
  rw [setHistoryDepth_refused h]

/-- Only root moves the timeline between rotations, with the depth. -/
theorem between_timeline {call : Call T}
    (hdepth : ∀ depth deleted, call ≠ .dispatch .root (.setHistoryDepth depth deleted)) :
    Keeps State.timeline call.between := by
  cases call with
  | rotate ctx => exact .pure _
  | onFinalize ctx => exact .store (onFinalize_timeline ctx)
  | noteAuthor author => exact rewardByIds_keeps _
  | reportOffence kind offenceSession offenders reported =>
    exact .bind (reportOffence_keeps _ _ _ _) fun _ => .pure _
  | elsewhere balances messages historical => exact .store fun _ => rfl
  | dispatch origin call =>
    cases call with
    | forceSetEraPayout eraPayout => exact forceSetEraPayout_keeps origin eraPayout
    | setHistoryDepth depth deleted =>
      refine setHistoryDepth_refused_keeps origin ?_ depth deleted
      rintro rfl
      exact hdepth depth deleted rfl

/-- Between rotations the timeline moves only when root changes the depth. -/
theorem Chain.step_timeline (c : Chain T) {call : Call T} (hrotate : ∀ ctx, call ≠ .rotate ctx)
    (hdepth : ∀ depth deleted, call ≠ .dispatch .root (.setHistoryDepth depth deleted)) :
    (c.step call).1.session = c.session ∧ (c.step call).1.state.timeline = c.state.timeline := by
  rw [c.step_between hrotate]
  exact ⟨c.apply_session _, c.apply_keeps (between_timeline hdepth)⟩

end OctopusPallets.Lpos
