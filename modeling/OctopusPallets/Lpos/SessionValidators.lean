import OctopusPallets.Lpos.ActiveEra
import OctopusPallets.Lpos.EraStakers

/-!
# The validators of a session

For each session that is planned, `historical` asks for a new set of validators, and is given it
with their exposures in the current era. A session without a set of its own goes on with the last
one. The era that a set is planned for becomes the active one later, with the first session of the
set. So whatever happens meanwhile, the validators of a session are the stakers of the active era,
and the exposures that were handed out for them are the stakes of their votes.

* `Historical.rotateSession` — the hooks of `historical`, in the order of a rotation
* `historicalMachine_run` — `historical` sees the runs of the session pallet
* `Manned.step` — every call keeps the sets and the eras together
* `sessions_run_active_era` — the validators of every session
-/

namespace OctopusPallets.Lpos

open Infra Infra.Dispatch Infra.FixedWidth Infra.Overwrite

variable {AccountId : Type} {T : Config AccountId}

/-! ## The hooks of `historical` -/

/-- A set with the session it was returned for. -/
abbrev SessionSet (AccountId : Type) := Nat × List (AccountId × Nat)

variable [DecidableEq AccountId]

/-- `ExposureOf`: the exposure of a validator in the active era. -/
def exposureOf (s : Storage AccountId) (validator : AccountId) : Option Nat :=
  s.activeEra.map fun activeEra => s.stakeIn activeEra.index validator

/-- A set that is returned gets its exposures. -/
def withExposure (hook : Dispatch Fault (State T) (Option (List AccountId))) :
    Dispatch Fault (State T) (Option (List (AccountId × Nat))) := do
  let validators ← hook
  let s ← load State.toStorage
  pure (validators.map (validatorsWithExposure s))

/-- `impl historical::SessionManager for Pallet`. -/
def Historical.newSession (ctx : Context AccountId) (newIndex : Nat) :
    Dispatch Fault (State T) (Option (List (AccountId × Nat))) :=
  withExposure (SessionManager.newSession ctx newIndex)

def Historical.newSessionGenesis (ctx : Context AccountId) (newIndex : Nat) :
    Dispatch Fault (State T) (Option (List (AccountId × Nat))) :=
  withExposure (SessionManager.newSessionGenesis ctx newIndex)

def Historical.startSession (ctx : Context AccountId) (startIndex : Nat) :
    Dispatch Fault (State T) Unit :=
  SessionManager.startSession ctx startIndex

def Historical.endSession (ctx : Context AccountId) (endIndex : Nat) :
    Dispatch Fault (State T) Unit :=
  SessionManager.endSession ctx endIndex

namespace Historical

omit [DecidableEq AccountId] in
/-- A call of `new_session`, with the set that it returned. -/
def planning (hook : Dispatch Fault (State T) (Option (List (AccountId × Nat)))) (session : Nat) :
    Dispatch Fault (State T) (List (SessionSet AccountId)) := do
  let set ← hook
  pure (set.map fun set => (session, set)).toList

def genesisHooks (ctx : Context AccountId) :
    Dispatch Fault (State T) (List (SessionSet AccountId)) := do
  let sets ← planning (newSessionGenesis ctx 0) 0
  let sets' ← planning (newSessionGenesis ctx 1) 1
  startSession ctx 0
  pure (sets ++ sets')

/-- The rotation from `session` to the next one. -/
def rotateSession (ctx : Context AccountId) (session : Nat) :
    Dispatch Fault (State T) (List (SessionSet AccountId)) := do
  endSession ctx session
  startSession ctx (session + 1)
  planning (newSession ctx (session + 2)) (session + 2)

end Historical

/-- The rotation to the next session, with the set that it returned. -/
def Chain.rotateHistorical (c : Chain T) (ctx : Context AccountId) :
    Chain T × List (SessionSet AccountId) :=
  match Historical.rotateSession ctx c.session c.state with
  | (.ok sets, s) => (⟨c.session + 1, s⟩, sets)
  | (.error _, _) => (c, [])

/-- The chain, seen through the sets that it returns. -/
def historicalMachine (T : Config AccountId) :
    Machine (Chain T) (Call T) (SessionSet AccountId) where
  step
    | .rotate ctx, c => c.rotateHistorical ctx
    | call, c => (c.apply call.between, [])

omit [DecidableEq AccountId] in
/-- The chain in session 0, if its hooks end, with the sets they returned. -/
def Historical.ofHooks : Except Fault (List (SessionSet AccountId)) × State T →
    Option (Chain T × List (SessionSet AccountId))
  | (.ok sets, s) => some (⟨0, s⟩, sets)
  | (.error _, _) => none

def Genesis.historicalChain (g : Genesis T) : Option (Chain T × List (SessionSet AccountId)) :=
  Historical.ofHooks (Historical.genesisHooks g.ctx g.state)

omit [DecidableEq AccountId] in
/-- The set of a session: the last one that was returned for a session up to it. -/
def setOf (sets : List (SessionSet AccountId)) (session : Nat) : Option (List (AccountId × Nat)) :=
  ((sets.filter fun p => p.1 ≤ session).getLast?).map Prod.snd

/-! ### The set of a session -/

section

omit [DecidableEq AccountId]

variable {sets later : List (SessionSet AccountId)} {session : Nat}

/-- Sets for later sessions make no difference. -/
theorem setOf_append_later (h : ∀ p ∈ later, session < p.1) :
    setOf (sets ++ later) session = setOf sets session := by
  have hnone : later.filter (fun p => p.1 ≤ session) = [] := by
    rw [List.filter_eq_nil_iff]
    intro p hp
    rw [decide_eq_true_eq, Nat.not_le]
    exact h p hp
  unfold setOf
  rw [List.filter_append, hnone, List.append_nil]

/-- When no set is for a later session, it is the last one. -/
theorem setOf_of_within (h : ∀ p ∈ sets, p.1 ≤ session) :
    setOf sets session = sets.getLast?.map Prod.snd := by
  have hall : sets.filter (fun p => p.1 ≤ session) = sets := by
    rw [List.filter_eq_self]
    intro p hp
    exact decide_eq_true (h p hp)
  unfold setOf
  rw [hall]

theorem setOf_append_self (set : List (AccountId × Nat)) :
    setOf (sets ++ [(session, set)]) session = some set := by
  unfold setOf
  rw [List.filter_append, List.filter_singleton, decide_eq_true (Nat.le_refl session)]
  simp

end

/-! ## The sets that are planned -/

/-- The set that is returned for a plan: of an account that is listed twice, the last weight. -/
def Plan.exposures (p : Plan AccountId) : List (AccountId × Nat) :=
  p.validators.map fun v => (v.1, held p.validators v.1)

def Plan.set (p : Plan AccountId) : SessionSet AccountId := (p.session, p.exposures)

/-- A set is returned for the session that an era is planned for, and for no other. -/
theorem newSession_elected (ctx : Context AccountId) {s s' : State T} {session : Nat}
    {elected : Option (List AccountId)} (h : newSession ctx session s = (.ok elected, s')) :
    elected = if s.timeline.plansEra T.sessionsPerEra session = true then
      some (ctx.appchain.plannedValidators.map Prod.fst) else none := by
  have htrigger : ∀ {t : State T}, tryTriggerNewEra ctx session t = (.ok elected, s') →
      elected = some (ctx.appchain.plannedValidators.map Prod.fst) := by
    intro t h
    unfold tryTriggerNewEra at h
    obtain ⟨_, t₁, -, h⟩ := bind_eq_ok.mp h
    obtain ⟨accounts, t₂, htrigger, h⟩ := bind_eq_ok.mp h
    rw [(pure_eq_ok.mp h).1, triggerNewEra_elected htrigger]
  unfold newSession at h
  rw [load_bind] at h
  cases hera : s.currentEra with
  | none =>
    have hplans : s.timeline.plansEra T.sessionsPerEra session = true := by
      unfold Timeline.plansEra
      rw [show s.timeline.currentEra = none from hera]
    rw [hera] at h
    rw [if_pos hplans]
    exact htrigger h
  | some era =>
    have hplans : s.timeline.plansEra T.sessionsPerEra session
        = decide (T.sessionsPerEra ≤ session - (s.erasStartSessionIndex era).getD 0) := by
      unfold Timeline.plansEra
      rw [show s.timeline.currentEra = some era from hera]
      rfl
    rw [hera] at h
    simp only at h
    obtain ⟨t, hstart, -, -⟩ := currentEraStart_apply s era
    rw [bind_of_ok hstart] at h
    rw [hplans]
    split at h
    · next hwithin =>
      rw [if_neg (by rw [decide_eq_true_eq]; omega)]
      split at h
      · obtain ⟨_, t₁, -, h⟩ := bind_eq_ok.mp h
        exact (pure_eq_ok.mp h).1
      · exact (pure_eq_ok.mp h).1
    · next hlong =>
      rw [if_pos (decide_eq_true (by omega))]
      exact htrigger h

theorem SessionManager.newSession_apply (ctx : Context AccountId) (n : Nat) (s : State T) :
    SessionManager.newSession ctx n s = Lpos.newSession ctx n { s with currentPlannedSession := n } :=
  rfl

namespace Historical

theorem planning_eq_ok {hook : Dispatch Fault (State T) (Option (List AccountId))} {session : Nat}
    {s s' : State T} {sets : List (SessionSet AccountId)} :
    planning (withExposure hook) session s = (.ok sets, s') ↔ ∃ elected, hook s = (.ok elected, s') ∧
      sets = (elected.map fun validators =>
        (session, validatorsWithExposure s'.toStorage validators)).toList := by
  unfold planning withExposure
  simp only [bind_eq_ok, load_eq_ok, pure_eq_ok]
  constructor
  · rintro ⟨_, _, ⟨elected, _, hhook, _, _, ⟨rfl, rfl⟩, rfl, rfl⟩, rfl, rfl⟩
    exact ⟨elected, hhook, by rw [Option.map_map]; rfl⟩
  · rintro ⟨elected, hhook, rfl⟩
    exact ⟨_, _, ⟨elected, _, hhook, _, _, ⟨rfl, rfl⟩, rfl, rfl⟩, by rw [Option.map_map]; rfl, rfl⟩

/-- Where the session pallet plans a session, `historical` does. -/
theorem planning_of_session {ctx : Context AccountId} {session : Nat} {s s' : State T}
    {os : List (Observed AccountId)}
    (h : Lpos.planning (SessionManager.newSession ctx session) session s = (.ok os, s')) :
    ∃ sets, planning (newSession ctx session) session s = (.ok sets, s') := by
  obtain ⟨elected, hnew⟩ := newSession_of_planning h
  have hhook : SessionManager.newSession ctx session s = (.ok elected, s') := hnew
  have hplanned : planning (newSession ctx session) session s = (.ok _, s') :=
    planning_eq_ok.mpr ⟨elected, hhook, rfl⟩
  exact ⟨_, hplanned⟩

/-- **What `historical` is given for a session**: the set of the plan, if an era is planned. -/
theorem planning_of_ok (ctx : Context AccountId) {s s' : State T} {session : Nat}
    {sets : List (SessionSet AccountId)} (hera : following s.timeline.currentEra < 2 ^ 32)
    (hempty : s.timeline.stakers (following s.timeline.currentEra) = ∅)
    (h : planning (newSession ctx session) session s = (.ok sets, s')) :
    sets = (if s.timeline.plansEra T.sessionsPerEra session = true then
      [Plan.set ⟨following s.timeline.currentEra, session, ctx.appchain.plannedValidators⟩]
      else []) := by
  obtain ⟨elected, hnew, rfl⟩ := planning_eq_ok.mp h
  rw [SessionManager.newSession_apply] at hnew
  obtain ⟨kept, -, htimeline⟩ :=
    newSession_of_ok ctx (s := { s with currentPlannedSession := session }) hera hnew
  have helected := newSession_elected ctx hnew
  have hsame : State.timeline { s with currentPlannedSession := session } = s.timeline := rfl
  rw [hsame] at htimeline helected
  rw [helected]
  unfold Timeline.planPhase at htimeline
  by_cases hyes : s.timeline.plansEra T.sessionsPerEra session = true
  · rw [if_pos hyes] at htimeline ⊢
    rw [if_pos hyes]
    have hholds := s.timeline.planKept_holds kept _ session ctx.appchain.plannedValidators hempty
    have hcurrent := s.timeline.planKept_currentEra kept (following s.timeline.currentEra) session
      ctx.appchain.plannedValidators
    have hexposures := Plan.exposure (s := s'.toStorage)
      (p := ⟨following s.timeline.currentEra, session, ctx.appchain.plannedValidators⟩)
      ((congrArg Timeline.currentEra htimeline).trans hcurrent)
      ((congrArg (fun t => Timeline.stakers t _) htimeline).trans hholds.1)
    rw [Option.map_some, Option.toList_some]
    exact congrArg (fun set => [(session, set)]) hexposures
  · rw [if_neg hyes, if_neg hyes]
    rfl

/-- What `historical` sees of a rotation is what the session pallet does. -/
theorem rotateSession_eq_ok {ctx : Context AccountId} {i : Nat} {s s' : State T}
    {sets : List (SessionSet AccountId)} :
    rotateSession ctx i s = (.ok sets, s') ↔ ∃ os s₁ s₂, ending ctx i s = (.ok os, s₁) ∧
      SessionManager.startSession ctx (i + 1) s₁ = (.ok (), s₂) ∧
      planning (newSession ctx (i + 2)) (i + 2) s₂ = (.ok sets, s') := by
  have hend : ∀ t, endSession ctx i s = (.ok (), t) ↔ ∃ os, ending ctx i s = (.ok os, t) := by
    refine fun t => ⟨fun h => ?_, fun ⟨os, h⟩ => endSession_of_ending h⟩
    unfold ending
    rcases endingEra_cases i s with ⟨active, hfound⟩ | habort
    · have hdone : SessionManager.endSession ctx i s = (.ok (), t) := h
      rw [bind_of_ok hfound, bind_of_ok hdone]
      exact ⟨_, rfl⟩
    · unfold endSession SessionManager.endSession Lpos.endSession at h
      rw [attempt_bind, bind_of_error habort] at h
      cases (Prod.mk.inj h).1
  unfold rotateSession
  simp only [bind_eq_ok, hend]
  constructor
  · rintro ⟨_, s₁, ⟨os, hending⟩, _, s₂, hstart, hplan⟩
    exact ⟨os, s₁, s₂, hending, hstart, hplan⟩
  · rintro ⟨os, s₁, s₂, hending, hstart, hplan⟩
    exact ⟨(), s₁, ⟨os, hending⟩, (), s₂, hstart, hplan⟩

theorem rotateSession_of_ok {ctx : Context AccountId} {i : Nat} {s s' : State T}
    {sets : List (SessionSet AccountId)} (h : rotateSession ctx i s = (.ok sets, s')) :
    ∃ os, Lpos.rotateSession ctx i s = (.ok os, s') := by
  obtain ⟨os, s₁, s₂, hending, hstart, hplan⟩ := rotateSession_eq_ok.mp h
  obtain ⟨elected, hnew, -⟩ := planning_eq_ok.mp hplan
  rw [SessionManager.newSession_apply] at hnew
  have hplanning : Lpos.planning (SessionManager.newSession ctx (i + 2)) (i + 2) s₂
      = (.ok (Observed.planning (s₂.reachesPlanNewEra (i + 2)) (i + 2) elected), s') :=
    planning_of_newSession hnew
  exact ⟨_, Lpos.rotateSession_eq_ok.mpr ⟨os, _, s₁, s₂, hending, hstart, hplanning, rfl⟩⟩

/-- A rotation goes through for `historical` where it does for the session pallet, and leaves the
same state. -/
theorem rotateSession_iff {ctx : Context AccountId} {i : Nat} {s s' : State T} :
    (∃ sets, rotateSession ctx i s = (.ok sets, s')) ↔
      ∃ os, Lpos.rotateSession ctx i s = (.ok os, s') := by
  refine ⟨fun ⟨_, h⟩ => rotateSession_of_ok h, ?_⟩
  rintro ⟨_, h⟩
  obtain ⟨os₁, _, s₁, s₂, hending, hstart, hplan, -⟩ := Lpos.rotateSession_eq_ok.mp h
  obtain ⟨_, hplanned⟩ := planning_of_session hplan
  exact ⟨_, rotateSession_eq_ok.mpr ⟨os₁, s₁, s₂, hending, hstart, hplanned⟩⟩

end Historical

/-! ## The same chain -/

/-- Seen by `historical`, a call does what it does for the session pallet. -/
theorem historicalMachine_step (call : Call T) (c : Chain T) :
    ((historicalMachine T).step call c).1 = (c.step call).1 := by
  cases call with
  | rotate ctx =>
    show (c.rotateHistorical ctx).1 = (c.rotate ctx).1
    unfold Chain.rotateHistorical Chain.rotate
    rcases hrun : Historical.rotateSession ctx c.session c.state with ⟨_ | sets, s'⟩
    · rcases hchain : rotateSession ctx c.session c.state with ⟨_ | os, s''⟩
      · rfl
      · obtain ⟨sets, hsets⟩ := Historical.rotateSession_iff.mpr ⟨os, hchain⟩
        rw [hrun] at hsets
        cases (Prod.mk.inj hsets).1
    · obtain ⟨os, hchain⟩ := Historical.rotateSession_of_ok hrun
      rw [hchain]
  | onFinalize _ | noteAuthor _ | reportOffence _ _ _ _ | dispatch _ _ | elsewhere _ _ _ => rfl

/-- **`historical` sees the runs of the session pallet.** -/
theorem historicalMachine_run (calls : List (Call T)) (c : Chain T) :
    (historicalMachine T).run calls c = (chainMachine T).run calls c :=
  (historicalMachine T).run_congr historicalMachine_step calls c

/-- The plans of a rotation, told from the timeline before it. -/
theorem plannedEra_rotated (ctx : Context AccountId) {c : Chain T} {s' : State T}
    {os : List (Observed AccountId)} (hactive : following c.state.timeline.activeIndex < 2 ^ 32)
    (hcurrent : following c.state.timeline.currentEra < 2 ^ 32)
    (hrun : rotateSession ctx c.session c.state = (.ok os, s')) :
    plannedEra c.state.currentEra (c.session + 2) ctx ⟨c.session + 1, s'⟩
      = if c.state.timeline.plansEra T.sessionsPerEra (c.session + 2) = true then
          [⟨following c.state.timeline.currentEra, c.session + 2, ctx.appchain.plannedValidators⟩]
        else [] := by
  obtain ⟨setId, kept, -, -, htimeline⟩ := rotateSession_of_ok ctx hactive hcurrent hrun
  have hsame := c.state.timeline.startPhase_currentEra setId (c.session + 1)
  have hplans := c.state.timeline.startPhase_plansEra setId (c.session + 1) T.sessionsPerEra
    (c.session + 2)
  generalize c.state.timeline.startPhase setId (c.session + 1) = t at hsame hplans htimeline
  unfold Timeline.planPhase at htimeline
  rw [hplans] at htimeline
  by_cases hyes : c.state.timeline.plansEra T.sessionsPerEra (c.session + 2) = true
  · rw [if_pos hyes, hsame] at htimeline
    rw [if_pos hyes]
    have hera : s'.currentEra = some (following c.state.timeline.currentEra) :=
      (congrArg Timeline.currentEra htimeline).trans
        (t.planKept_currentEra _ _ _ ctx.appchain.plannedValidators)
    refine plannedEra_next (c := ⟨c.session + 1, s'⟩) hera ?_ _ _
    show some (following c.state.currentEra) ≠ c.state.currentEra
    cases c.state.currentEra with
    | none => exact Option.some_ne_none _
    | some era => exact fun heq => absurd (Option.some.inj heq) (Nat.succ_ne_self era)
  · rw [if_neg hyes] at htimeline
    rw [if_neg hyes]
    exact plannedEra_same (c := ⟨c.session + 1, s'⟩)
      ((congrArg Timeline.currentEra htimeline).trans hsame) _ _

/-- **A rotation returns the sets of its plans.** -/
theorem Recorded.rotated_sets {c : Chain T} {plans : List (Plan AccountId)} (h : Recorded c plans)
    (ctx : Context AccountId) {s' : State T} {sets : List (SessionSet AccountId)}
    (hrange : c.session + 2 < 2 ^ 32)
    (hrun : Historical.rotateSession ctx c.session c.state = (.ok sets, s')) :
    sets = (plannedEra c.state.currentEra (c.session + 2) ctx
      ⟨c.session + 1, s'⟩).map Plan.set := by
  obtain ⟨era, start, hinTurn⟩ := h.inTurn
  have hle := hinTurn.era_lt
  have hbound := hinTurn.following_le
  have hfollowing : following c.state.timeline.currentEra = era + 1 := by
    rw [hinTurn.current]
    rfl
  obtain ⟨os, hchain⟩ := Historical.rotateSession_of_ok hrun
  obtain ⟨os₁, s₁, s₂, hending, hstart, hplan⟩ := Historical.rotateSession_eq_ok.mp hrun
  have hended : s₁.timeline = c.state.timeline := by
    have hs := ending_keeps (T := T) ctx c.session c.state
    rwa [hending] at hs
  obtain ⟨setId, -, hstarted⟩ := startSession_of_ok ctx (by rw [hended]; omega) hstart
  rw [hended] at hstarted
  have hcurrent : s₂.timeline.currentEra = c.state.timeline.currentEra :=
    (congrArg Timeline.currentEra hstarted).trans
      (c.state.timeline.startPhase_currentEra setId (c.session + 1))
  have hplans : s₂.timeline.plansEra T.sessionsPerEra (c.session + 2)
      = c.state.timeline.plansEra T.sessionsPerEra (c.session + 2) :=
    (congrArg (fun t => Timeline.plansEra t T.sessionsPerEra (c.session + 2)) hstarted).trans
      (c.state.timeline.startPhase_plansEra setId (c.session + 1) T.sessionsPerEra (c.session + 2))
  have hempty : s₂.timeline.stakers (following s₂.timeline.currentEra) = ∅ := by
    rw [hcurrent, hfollowing]
    exact (congrArg (fun t => Timeline.stakers t (era + 1)) hstarted).trans
      ((hinTurn.startPhase setId).later (era + 1) (Nat.lt_succ_self era)).2
  rw [plannedEra_rotated ctx (by omega) (by omega) hchain,
    Historical.planning_of_ok ctx (by rw [hcurrent]; omega) hempty hplan, hplans, hcurrent]
  split <;> rfl

/-! ## The set that is running -/

/-- The set of the session is that of the active era, and the set of the next one that of the
current era. -/
structure Manned (c : Chain T) (plans : List (Plan AccountId)) : Prop where
  recorded : Recorded c plans
  within : ∀ p ∈ plans, p.session ≤ c.session + 1
  running : ∃ p ∈ plans, setOf (plans.map Plan.set) c.session = some p.exposures ∧
    c.state.timeline.activeIndex = some p.era
  next : ∃ p ∈ plans, setOf (plans.map Plan.set) (c.session + 1) = some p.exposures ∧
    c.state.timeline.currentEra = some p.era

namespace Manned

variable {c : Chain T} {plans : List (Plan AccountId)}

theorem of_timeline (h : Manned c plans) {c' : Chain T} (hsession : c'.session = c.session)
    (htimeline : c'.state.timeline = c.state.timeline) : Manned c' plans := by
  obtain ⟨hrecorded, hwithin, hrunning, hnext⟩ := h
  have hrecorded' := hrecorded.of_timeline hsession htimeline
  rw [← htimeline] at hrunning hnext
  rw [← hsession] at hwithin hrunning hnext
  exact ⟨hrecorded', hwithin, hrunning, hnext⟩

theorem setHistoryDepth (h : Manned c plans) {newHistoryDepth : Nat} (eraItemsDeleted : Nat)
    (hspares : 1 ≤ newHistoryDepth ∨ c.state.currentEra = c.state.timeline.activeIndex) :
    Manned (c.apply (Lpos.setHistoryDepth .root newHistoryDepth eraItemsDeleted)) plans := by
  have hrecorded := h.recorded.setHistoryDepth eraItemsDeleted hspares
  obtain ⟨era, start, hinTurn⟩ := h.recorded.inTurn
  obtain ⟨s', hset, htimeline⟩ :=
    setHistoryDepth_timeline hinTurn.current newHistoryDepth eraItemsDeleted
  have hcleared := Timeline.foldl_clear (List.range' (era - c.state.historyDepth)
    (era - newHistoryDepth - (era - c.state.historyDepth))) c.state.timeline
  have hcurrent : s'.timeline.currentEra = c.state.timeline.currentEra := by
    rw [htimeline]
    exact hcleared.2.1
  have hactive : s'.timeline.activeIndex = c.state.timeline.activeIndex := by
    rw [htimeline]
    exact congrArg (Option.map Prod.fst) hcleared.2.2.1
  have hrunning := h.running
  have hnext := h.next
  rw [← hactive] at hrunning
  rw [← hcurrent] at hnext
  unfold Chain.apply at hrecorded ⊢
  rw [hset] at hrecorded ⊢
  exact ⟨hrecorded, h.within, hrunning, hnext⟩

/-- **A rotation hands the session over**: the set that was next is running. -/
theorem rotated (h : Manned c plans) (ctx : Context AccountId) {s' : State T}
    {os : List (Observed AccountId)} (hrange : c.session + 2 < 2 ^ 32)
    (hspares : (Call.rotate ctx : Call T).SparesActive c)
    (hrun : rotateSession ctx c.session c.state = (.ok os, s')) :
    Manned ⟨c.session + 1, s'⟩ (plans ++
      plannedEra c.state.currentEra (c.session + 2) ctx ⟨c.session + 1, s'⟩) := by
  have hrecorded := h.recorded.rotated ctx hrange hspares hrun
  obtain ⟨p, hp, hset, hcurrent⟩ := h.next
  have hactive := (h.recorded.rotated_now ctx hrange hspares hrun hcurrent).1
  have hwithin : ∀ q ∈ plans.map Plan.set, q.1 ≤ c.session + 1 := by
    intro set hset
    obtain ⟨q, hq, rfl⟩ := List.mem_map.mp hset
    exact h.within q hq
  by_cases hera : s'.currentEra = c.state.currentEra
  · -- no set is returned, so the next session goes on with the same
    rw [plannedEra_same (c := ⟨c.session + 1, s'⟩) hera, List.append_nil] at hrecorded ⊢
    refine ⟨hrecorded, fun q hq => Nat.le_succ_of_le (h.within q hq), ⟨p, hp, hset, hactive⟩,
      p, hp, ?_, (show s'.timeline.currentEra = _ from hera).trans hcurrent⟩
    rw [setOf_of_within fun q hq => Nat.le_succ_of_le (hwithin q hq), ← setOf_of_within hwithin]
    exact hset
  · obtain ⟨era, _, hinTurn⟩ := hrecorded.inTurn
    have hera' : s'.currentEra = some era := hinTurn.current
    rw [plannedEra_next (c := ⟨c.session + 1, s'⟩) hera' (by rw [← hera']; exact hera)] at hrecorded ⊢
    refine ⟨hrecorded, fun q hq => ?_, ⟨p, List.mem_append_left _ hp, ?_, hactive⟩, _,
      List.mem_append_right _ (.head _), ?_, hera'⟩
    · rcases List.mem_append.mp hq with hq | hq
      · exact Nat.le_succ_of_le (h.within q hq)
      · rw [List.mem_singleton.mp hq]
    · rw [List.map_append]
      refine (setOf_append_later fun set hset => ?_).trans hset
      rw [List.mem_singleton.mp hset]
      exact Nat.lt_succ_self _
    · rw [List.map_append]
      exact setOf_append_self _

/-- **Every call keeps it.** -/
theorem step (h : Manned c plans) {call : Call T} (hrange : call.SessionInRange c)
    (hspares : call.SparesActive c) :
    Manned (c.step call).1 (plans ++ call.plans c (c.step call).1) := by
  refine Chain.step_plans (fun c' hsession htimeline => h.of_timeline hsession htimeline) ?_ ?_
  · rintro ctx os s' rfl hrun
    exact h.rotated ctx hrange hspares hrun
  · rintro depth deleted rfl
    exact h.setHistoryDepth deleted hspares

/-- A call returns the sets of its plans. -/
theorem returned (h : Manned c plans) {call : Call T} (hrange : call.SessionInRange c) :
    ((historicalMachine T).step call c).2 = (call.plans c (c.step call).1).map Plan.set := by
  rw [← historicalMachine_step]
  cases call with
  | rotate ctx =>
    show (c.rotateHistorical ctx).2
      = (plannedEra c.state.currentEra (c.session + 2) ctx (c.rotateHistorical ctx).1).map Plan.set
    unfold Chain.rotateHistorical
    rcases hrun : Historical.rotateSession ctx c.session c.state with ⟨_ | sets, s'⟩
    · rw [plannedEra_same rfl]
      rfl
    · exact h.recorded.rotated_sets ctx hrange hrun
  | onFinalize _ | noteAuthor _ | reportOffence _ _ _ _ | dispatch _ _ | elsewhere _ _ _ => rfl

end Manned

/-! ## Genesis -/

/-- The current era after a session was planned. -/
theorem newSession_currentEra (ctx : Context AccountId) {s s' : State T} {session : Nat}
    {elected : Option (List AccountId)} (hera : following s.timeline.currentEra < 2 ^ 32)
    (h : newSession ctx session s = (.ok elected, s')) :
    s'.timeline.currentEra = if s.timeline.plansEra T.sessionsPerEra session = true then
      some (following s.timeline.currentEra) else s.timeline.currentEra := by
  obtain ⟨kept, -, htimeline⟩ := newSession_of_ok ctx hera h
  refine (congrArg Timeline.currentEra htimeline).trans ?_
  show (Timeline.planPhase _ _ _ _ _).currentEra = _
  unfold Timeline.planPhase
  split
  · exact Timeline.planKept_currentEra _ _ _ _ _
  · rfl

/-- The genesis asks for the sets as a rotation does. -/
theorem Historical.newSessionGenesis_eq (ctx : Context AccountId) (session : Nat) :
    Historical.newSessionGenesis (T := T) ctx session = Historical.newSession ctx session := rfl

theorem planning_of_newSessionGenesis {ctx : Context AccountId} {s s' : State T} {session : Nat}
    {elected : Option (List AccountId)}
    (h : SessionManager.newSession ctx session s = (.ok elected, s')) :
    planning (SessionManager.newSessionGenesis ctx session) session s
      = (.ok (Observed.planning (s.reachesPlanNewEra session) session elected), s') :=
  planning_of_newSession h

/-- What `historical` sees of the genesis is what the session pallet does. -/
theorem Genesis.historical_hooks (g : Genesis T) {c₀ : Chain T} {sets₀ : List (SessionSet AccountId)}
    (hchain : g.historicalChain = some (c₀, sets₀)) :
    (∃ os₀, g.chain = some (c₀, os₀)) ∧ ∃ sets₁ s₁ sets₂ s₂,
      Historical.planning (Historical.newSession g.ctx 0) 0 g.state = (.ok sets₁, s₁) ∧
      Historical.planning (Historical.newSession g.ctx 1) 1 s₁ = (.ok sets₂, s₂) ∧
      SessionManager.startSession g.ctx 0 s₂ = (.ok (), c₀.state) ∧ sets₀ = sets₁ ++ sets₂ := by
  unfold Genesis.historicalChain at hchain
  rcases hrun : Historical.genesisHooks g.ctx g.state with ⟨_ | sets, s⟩
  · rw [hrun] at hchain
    cases hchain
  rw [hrun] at hchain
  obtain ⟨rfl, rfl⟩ := Prod.mk.inj (Option.some.inj hchain)
  unfold Historical.genesisHooks at hrun
  rw [Historical.newSessionGenesis_eq, Historical.newSessionGenesis_eq] at hrun
  obtain ⟨sets₁, s₁, hplan₀, hrun⟩ := bind_eq_ok.mp hrun
  obtain ⟨sets₂, s₂, hplan₁, hrun⟩ := bind_eq_ok.mp hrun
  obtain ⟨_, s₃, hstart, hrun⟩ := bind_eq_ok.mp hrun
  obtain ⟨rfl, rfl⟩ := pure_eq_ok.mp hrun
  refine ⟨?_, sets₁, s₁, sets₂, s₂, hplan₀, hplan₁, hstart, rfl⟩
  obtain ⟨elected₁, hnew₀, -⟩ := Historical.planning_eq_ok.mp hplan₀
  obtain ⟨elected₂, hnew₁, -⟩ := Historical.planning_eq_ok.mp hplan₁
  have hplanning₀ := planning_of_newSessionGenesis hnew₀
  have hplanning₁ := planning_of_newSessionGenesis hnew₁
  have hstarted : SessionManager.startSession g.ctx 0 s₂ = (.ok (), s) := hstart
  unfold Genesis.chain genesisHooks
  rw [bind_of_ok hplanning₀, bind_of_ok hplanning₁, bind_of_ok hstarted]
  exact ⟨_, rfl⟩

/-- The genesis goes through for `historical` where it does for the session pallet. -/
theorem Genesis.historicalChain_iff (g : Genesis T) {c₀ : Chain T} :
    (∃ sets₀, g.historicalChain = some (c₀, sets₀)) ↔ ∃ os₀, g.chain = some (c₀, os₀) := by
  refine ⟨fun ⟨_, h⟩ => (g.historical_hooks h).1, ?_⟩
  rintro ⟨_, h⟩
  obtain ⟨hsession, _, s₁, _, s₂, hplan₀, hplan₁, hstart⟩ := Genesis.hooks h
  obtain ⟨_, hplanned₀⟩ := Historical.planning_of_session hplan₀
  obtain ⟨_, hplanned₁⟩ := Historical.planning_of_session hplan₁
  have hstarted : Historical.startSession g.ctx 0 s₂ = (.ok (), c₀.state) := hstart
  have hc₀ : (⟨0, c₀.state⟩ : Chain T) = c₀ :=
    congrArg (fun session => (⟨session, c₀.state⟩ : Chain T)) hsession.symm
  unfold Genesis.historicalChain Historical.genesisHooks
  rw [Historical.newSessionGenesis_eq, Historical.newSessionGenesis_eq, bind_of_ok hplanned₀,
    bind_of_ok hplanned₁, bind_of_ok hstarted]
  exact ⟨_, congrArg (fun c => some (c, _)) hc₀⟩

/-- **The genesis returns the sets of its plans.** -/
theorem Genesis.historical_sets (g : Genesis T) {c₀ : Chain T} {sets₀ : List (SessionSet AccountId)}
    (hchain : g.historicalChain = some (c₀, sets₀)) : sets₀ = (g.plans c₀).map Plan.set := by
  obtain ⟨-, sets₁, s₁, sets₂, s₂, hplan₀, hplan₁, hstart, rfl⟩ := g.historical_hooks hchain
  obtain ⟨elected₁, hnew₀, -⟩ := Historical.planning_eq_ok.mp hplan₀
  obtain ⟨elected₂, hnew₁, -⟩ := Historical.planning_eq_ok.mp hplan₁
  rw [SessionManager.newSession_apply] at hnew₀ hnew₁
  -- session 0: era 0 is planned
  have hzero : following g.state.timeline.currentEra < 2 ^ 32 := Nat.two_pow_pos 32
  obtain ⟨kept, -, htimeline⟩ :=
    newSession_of_ok g.ctx (s := { g.state with currentPlannedSession := 0 }) hzero hnew₀
  replace htimeline : s₁.timeline.unprinted
      = (g.state.timeline.planKept kept 0 0 g.ctx.appchain.plannedValidators).unprinted := htimeline
  have hfirst : s₁.timeline.currentEra = some 0 := (congrArg Timeline.currentEra htimeline).trans
    (Timeline.planKept_currentEra _ kept 0 0 g.ctx.appchain.plannedValidators)
  have hempty : s₁.timeline.stakers (following s₁.timeline.currentEra) = ∅ := by
    rw [hfirst]
    refine (congrArg (fun t => Timeline.stakers t 1) htimeline).trans ?_
    exact (Timeline.planKept_of_ne _ kept 0 0 g.ctx.appchain.plannedValidators Nat.one_ne_zero
      (by omega)).1
  have hsets₁ : sets₁ = [Plan.set ⟨0, 0, g.ctx.appchain.plannedValidators⟩] :=
    Historical.planning_of_ok g.ctx hzero rfl hplan₀
  -- session 1: with eras of one session, era 1 is planned
  have hsecond : following s₁.timeline.currentEra < 2 ^ 32 := by
    rw [hfirst]
    decide
  have hsets₂ := Historical.planning_of_ok g.ctx hsecond hempty hplan₁
  have hcurrent :=
    newSession_currentEra g.ctx (s := { s₁ with currentPlannedSession := 1 }) hsecond hnew₁
  have hsame : State.timeline { s₁ with currentPlannedSession := 1 } = s₁.timeline := rfl
  rw [hsame] at hcurrent
  have hstarted : c₀.state.currentEra = s₂.timeline.currentEra := by
    have hkeeps := startSession_writes (T := T) (f := fun s => s.currentEra) g.ctx
      (fun _ _ => rfl) (fun _ _ _ _ => rfl) 0 s₂
    rwa [hstart] at hkeeps
  unfold Genesis.plans
  rw [hsets₁, hsets₂, hstarted, hcurrent, hfirst]
  split <;> rfl

/-- **The genesis hands session 0 over to era 0.** -/
theorem Genesis.manned (g : Genesis T) (hkeeps : g.keepsPlanned = true) {c₀ : Chain T}
    {os₀ : List (Observed AccountId)} (hchain : g.chain = some (c₀, os₀)) :
    Manned c₀ (g.plans c₀) := by
  have hrecorded := g.recorded hkeeps hchain
  obtain ⟨-, -, -, -, -, -, hsession, -⟩ := g.phases hchain
  obtain ⟨era, start, hinTurn⟩ := hrecorded.inTurn
  have hcurrent : c₀.state.currentEra = some era := hinTurn.current
  rw [hsession] at hinTurn
  have hle := hinTurn.era_lt
  have hplans : g.plans c₀ = (List.range (era + 1)).map fun era =>
      ⟨era, era, g.ctx.appchain.plannedValidators⟩ := by
    unfold Genesis.plans
    rw [hcurrent]
    rfl
  have hactive : c₀.state.timeline.activeIndex = some 0 := by
    rcases hinTurn.active with ⟨hactive, hstart⟩ | ⟨before, hactive, hnext, -⟩
    · have hzero := hinTurn.era_le
      obtain rfl : era = 0 := by omega
      exact hactive
    · obtain rfl : before = 0 := by omega
      exact hactive
  refine ⟨hrecorded, fun p hp => ?_, ?_, ?_⟩
  · rw [hplans] at hp
    obtain ⟨e, he, rfl⟩ := List.mem_map.mp hp
    rw [List.mem_range] at he
    rw [hsession]
    exact (Nat.lt_succ_iff.mp he).trans hle
  · rw [hsession, hplans]
    rcases Nat.le_one_iff_eq_zero_or_eq_one.mp hle with rfl | rfl
    · exact ⟨_, .head _, rfl, hactive⟩
    · exact ⟨_, .head _, rfl, hactive⟩
  · rw [hsession, hplans]
    rcases Nat.le_one_iff_eq_zero_or_eq_one.mp hle with rfl | rfl
    · exact ⟨_, .head _, rfl, hcurrent⟩
    · exact ⟨_, .tail _ (.head _), rfl, hcurrent⟩

/-! ## The validators of every session -/

theorem map_fst_exposures (p : Plan AccountId) :
    p.exposures.map Prod.fst = p.validators.map Prod.fst := by
  unfold Plan.exposures
  rw [List.map_map]
  rfl

/-- **Over every run, the sets are those of the plans.** -/
theorem manned_run (g : Genesis T) (hkeeps : g.keepsPlanned = true) {c₀ : Chain T}
    {sets₀ : List (SessionSet AccountId)} (hchain : g.historicalChain = some (c₀, sets₀))
    (calls : List (Call T))
    (hcalls : (historicalMachine T).Along
      (fun c call => call.SessionInRange c ∧ call.SparesActive c) calls c₀) :
    ∃ plans, sets₀ ++ (historicalMachine T).log calls c₀ = plans.map Plan.set ∧
      Manned ((historicalMachine T).run calls c₀) plans := by
  refine (historicalMachine T).invariant
    (I := fun _ c sets => ∃ plans, sets₀ ++ sets = plans.map Plan.set ∧ Manned c plans)
    ?_ ?_ calls hcalls
  · obtain ⟨⟨os₀, hchain'⟩, -⟩ := g.historical_hooks hchain
    refine ⟨_, ?_, g.manned hkeeps hchain'⟩
    rw [List.append_nil]
    exact g.historical_sets hchain
  · rintro _ c sets call ⟨plans, hsets, h⟩ ⟨hrange, hspares⟩
    refine ⟨plans ++ call.plans c (c.step call).1, ?_, ?_⟩
    · rw [← List.append_assoc, hsets, h.returned hrange, List.map_append]
    · rw [historicalMachine_step]
      exact h.step hrange hspares

/--
**The validators of a session are the stakers of the active era.** While the active era is spared, in
every session of every run: the set that was last returned for a session up to this one has as
members the accounts with an entry in the active era. `ExposureOf` gives each of them the exposure
that `historical` was given for it, and its votes count with this stake.
-/
theorem sessions_run_active_era (g : Genesis T) (hkeeps : g.keepsPlanned = true) {c₀ : Chain T}
    {sets₀ : List (SessionSet AccountId)} (hchain : g.historicalChain = some (c₀, sets₀))
    (calls : List (Call T))
    (hcalls : (historicalMachine T).Along
      (fun c call => call.SessionInRange c ∧ call.SparesActive c) calls c₀) :
    let c := (historicalMachine T).run calls c₀
    ∃ set activeEra, setOf (sets₀ ++ (historicalMachine T).log calls c₀) c.session = some set ∧
      c.state.activeEra = some activeEra ∧
      (∀ v, v ∈ set.map Prod.fst ↔ v ∈ c.state.erasStakers activeEra.index) ∧
      ∀ v exposure, (v, exposure) ∈ set → exposureOf c.state.toStorage v = some exposure ∧
        ∀ session, (lposInterface session c.state.toStorage).activeStakeOf v = exposure := by
  intro c
  obtain ⟨plans, hsets, h⟩ := manned_run g hkeeps hchain calls hcalls
  obtain ⟨p, hp, hset, hactive⟩ := h.running
  obtain ⟨activeEra, hactiveEra, hindex⟩ := State.exists_activeEra hactive
  have hstakers : c.state.erasStakers p.era = insertStakers p.validators ∅ :=
    congrArg (fun entry => entry.2.1) (h.recorded.kept p hp (Or.inl hactive))
  rw [← hsets] at hset
  refine ⟨p.exposures, activeEra, hset, hactiveEra, fun v => ?_, fun v exposure hv => ?_⟩
  · rw [hindex, hstakers, map_fst_exposures]
    exact (mem_insertAll.trans (or_iff_left (AList.notMem_empty v))).symm
  · obtain ⟨q, -, hq⟩ := List.mem_map.mp hv
    obtain ⟨rfl, rfl⟩ := Prod.mk.inj hq
    have hstake : c.state.toStorage.stakeIn activeEra.index q.1 = held p.validators q.1 := by
      rw [hindex]
      exact Storage.stakeIn_of_stakers hstakers q.1
    have hexposure : exposureOf c.state.toStorage q.1 = some (held p.validators q.1) := by
      unfold exposureOf
      rw [hactiveEra, Option.map_some, hstake]
    exact ⟨hexposure, fun session => congrArg (fun stake => stake.getD 0) hexposure⟩

/-- In session 4 the set of era 2 is running, which was returned for this session. -/
theorem sessions_run_active_era_over_four_sessions :
    ∃ c₀ sets₀, Sample.genesis.historicalChain = some (c₀, sets₀) ∧
      ((historicalMachine Sample.config).run Sample.calls c₀).session = 4 ∧
      exposureOf ((historicalMachine Sample.config).run Sample.calls c₀).state.toStorage 2
        = some 20 := by
  obtain ⟨set, activeEra, hset, -, -, hexposures⟩ :=
    sessions_run_active_era Sample.genesis (by decide) rfl Sample.calls (by decide)
  refine ⟨_, _, rfl, by decide, (hexposures 2 20 ?_).1⟩
  obtain rfl := Option.some.inj hset
  decide

end OctopusPallets.Lpos
