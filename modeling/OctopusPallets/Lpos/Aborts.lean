import OctopusPallets.Lpos.ActiveEra
import OctopusPallets.Lpos.Payout

/-!
# Where the session hooks abort

In a debug build an operator whose result does not fit aborts the block. Of the operators of the
hooks three can do that in a range of indices that leaves room: the set id of an era that starts,
the depth of the history when an era is planned, and the threshold of the points when an era is
paid.

* `rotateSession_safe_iff` — a rotation aborts exactly where one of the three does
-/

namespace OctopusPallets.Lpos

open Infra Infra.Dispatch Infra.FixedWidth

variable {AccountId : Type} {T : Config AccountId}

/-- The call ends, with a value or with an error. -/
def Completes {α : Type} (x : Dispatch Fault (State T) α) (s : State T) : Prop :=
  (x s).1 ≠ .error .abort

/-! ## The threshold -/

/-- The points of the era give a threshold: none is needed, or there is a validator to divide by and
the product fits. -/
def State.ThresholdFits (s : State T) (era : Nat) : Prop :=
  (s.erasRewardPoints era).individual.entries.isEmpty = true ∨
    (s.erasStakers era).keys.length % 2 ^ 32 ≠ 0 ∧
      (s.erasRewardPoints era).total / ((s.erasStakers era).keys.length % 2 ^ 32) * 80 < 2 ^ 32

instance (s : State T) (era : Nat) : Decidable (s.ThresholdFits era) :=
  inferInstanceAs (Decidable (_ ∨ _))

theorem thresholdOf_debug_iff (total validators : Nat) :
    (∃ points, thresholdOf .debug total validators = .ok points) ↔
      validators % 2 ^ 32 ≠ 0 ∧ total / (validators % 2 ^ 32) * 80 < 2 ^ 32 := by
  unfold thresholdOf
  by_cases hzero : validators % 2 ^ 32 = 0
  · rw [if_pos hzero]
    constructor
    · rintro ⟨_, ⟨⟩⟩
    · exact fun h => absurd hzero h.1
  · rw [if_neg hzero, and_iff_right hzero, ← Build.debug_mul_eq_some_iff]
    cases Build.debug.mul 32 (total / (validators % 2 ^ 32)) 80 <;> simp

theorem excludeOf_debug_iff [DecidableEq AccountId] (s : State T) (era : Nat) :
    (∃ excluded, excludeOf .debug (s.erasStakers era).keys (s.erasRewardPoints era)
      = .ok excluded) ↔ s.ThresholdFits era := by
  have hthreshold := thresholdOf_debug_iff (s.erasRewardPoints era).total
    (s.erasStakers era).keys.length
  unfold excludeOf State.ThresholdFits
  rw [← hthreshold]
  by_cases hempty : (s.erasRewardPoints era).individual.entries.isEmpty = true
  · simp [hempty]
  · rw [if_neg hempty, or_iff_right hempty]
    cases thresholdOf .debug (s.erasRewardPoints era).total (s.erasStakers era).keys.length <;>
      simp [Except.map]

/-! ## The payout -/

theorem sendPayout_completes (activeEra : ActiveEraInfo) (validatorPayout : Nat)
    (excludedValidators : List AccountId) (message : EraPayoutPayload) (s : State T) :
    Completes (sendPayout activeEra validatorPayout excludedValidators message) s := by
  unfold Completes sendPayout
  cases checkedInto T.balanceBits validatorPayout with
  | none => simp [bind_apply, okOr, lposError]
  | some amount =>
    cases EraPayoutPayload.codec.tryToVec message with
    | none => simp [bind_apply, okOr, lposError]
    | some payload =>
      rw [bind_of_ok (okOr_some _ _ _), store_bind, bind_of_ok (okOr_some _ _ _), attempt_bind]
      generalize (onMessages (T.upwardMessages.submit none .eraPayout payload) _).1 = r
      cases r <;> simp [depositEvent]

variable [DecidableEq AccountId]

/-- With a clock that does not run backwards, a payout aborts for its threshold alone. -/
theorem payoutEra_completes_iff (hbuild : T.build = .debug) {ctx : Context AccountId}
    {activeEra : ActiveEraInfo} {start : Nat} {s : State T}
    (hclock : start ≤ ctx.nowAsMillisU64) :
    Completes (payoutEra ctx activeEra start) s ↔ s.ThresholdFits activeEra.index := by
  have hnow : ctx.nowAsMillisU64 < 2 ^ 64 :=
    Nat.lt_of_le_of_lt (Nat.min_le_right _ _) (by decide)
  have hsub := T.build.sub_of_le hclock hnow
  rw [← excludeOf_debug_iff, ← hbuild]
  rcases payoutEra_apply ctx activeEra start s with ⟨hnone | habort, s', hrun⟩ | ⟨-, hok, hrun⟩
  · rw [hsub] at hnone
    cases hnone
  · unfold Completes
    simp [hrun, habort]
  · unfold Completes
    rw [hrun]
    exact iff_of_true (sendPayout_completes _ _ _ _ _) hok

omit [DecidableEq AccountId] in
/-- The active era ends with this session. -/
def State.EndsEra (s : State T) (sessionIndex : Nat) (activeEra : ActiveEraInfo) : Prop :=
  s.activeEra = some activeEra ∧
    s.erasStartSessionIndex (activeEra.index + 1) = some (sessionIndex + 1)

omit [DecidableEq AccountId] in
/-- The start of the active era is not in the future. -/
def State.Started (s : State T) (ctx : Context AccountId) : Prop :=
  ∀ activeEra start, s.activeEra = some activeEra → activeEra.start = some start →
    start ≤ ctx.nowAsMillisU64

omit [DecidableEq AccountId] in
/-- The era that ends is paid at most with a threshold that fits. -/
def State.PaysSafely (s : State T) (ctx : Context AccountId) (sessionIndex : Nat) : Prop :=
  ∀ activeEra, s.EndsEra sessionIndex activeEra → s.Pays ctx activeEra →
    s.ThresholdFits activeEra.index

/-! ## The three hooks -/

omit [DecidableEq AccountId] in
/-- Indices that leave room for the next two. -/
structure State.IndicesFit (s : State T) (session : Nat) : Prop where
  session : session + 2 < 2 ^ 32
  active : following s.timeline.activeIndex < 2 ^ 32
  current : following s.timeline.currentEra < 2 ^ 32

instance (s : State T) (session : Nat) : Decidable (s.IndicesFit session) :=
  decidable_of_iff (session + 2 < 2 ^ 32 ∧ following s.timeline.activeIndex < 2 ^ 32 ∧
    following s.timeline.currentEra < 2 ^ 32)
    ⟨fun h => ⟨h.1, h.2.1, h.2.2⟩, fun h => ⟨h.session, h.active, h.current⟩⟩

omit [DecidableEq AccountId] in
/-- No era ends without an active one. -/
theorem endingEra_of_none {s : State T} (h : s.activeEra = none) (sessionIndex : Nat) :
    endingEra sessionIndex s = (.ok none, s) := by
  unfold endingEra
  rw [load_bind, h]
  rfl

theorem endSession_completes_iff (hbuild : T.build = .debug) {ctx : Context AccountId}
    {sessionIndex : Nat} {s : State T} (hfits : s.IndicesFit sessionIndex)
    (hclock : s.Started ctx) :
    Completes (SessionManager.endSession ctx sessionIndex) s ↔ s.PaysSafely ctx sessionIndex := by
  have hsame : Completes (SessionManager.endSession ctx sessionIndex) s ↔
      Completes (Lpos.endSession ctx sessionIndex) s := by
    unfold Completes
    rw [SessionManager.endSession_apply]
    rcases Lpos.endSession ctx sessionIndex s with ⟨(_ | _) | _, s'⟩ <;> simp [logged]
  rw [hsame]
  cases hactive : s.activeEra with
  | none =>
    have hend : Lpos.endSession ctx sessionIndex s = (.ok (), s) :=
      bind_of_ok (endingEra_of_none hactive sessionIndex)
    refine iff_of_true ?_ fun activeEra hends => ?_
    · simp [Completes, hend]
    · rw [hends.1] at hactive
      cases hactive
  | some activeEra =>
    have hindex := s.timeline_activeIndex
    rw [hactive] at hindex
    have hera : activeEra.index + 1 < 2 ^ 32 := by
      have hlt := hfits.active
      rwa [hindex] at hlt
    have hending := endingEra_apply hactive hera
      (Nat.lt_of_succ_lt hfits.session : sessionIndex + 1 < 2 ^ 32)
    by_cases hstarts : s.erasStartSessionIndex (activeEra.index + 1) = some (sessionIndex + 1)
    · rw [if_pos hstarts] at hending
      have hend : Lpos.endSession ctx sessionIndex s = endEra ctx activeEra sessionIndex s :=
        bind_of_ok hending
      have hends : s.PaysSafely ctx sessionIndex ↔
          (s.Pays ctx activeEra → s.ThresholdFits activeEra.index) := by
        constructor
        · exact fun h hpays => h activeEra ⟨hactive, hstarts⟩ hpays
        · rintro h activeEra' ⟨hactive', -⟩ hpays
          rw [hactive] at hactive'
          cases hactive'
          exact h hpays
      rw [hends]
      by_cases hpays : s.Pays ctx activeEra
      · obtain ⟨start, hstart, hrun⟩ := endEra_of_pays hpays sessionIndex
        have hpayout : Completes (payoutEra ctx activeEra start) s ↔
            s.ThresholdFits activeEra.index :=
          payoutEra_completes_iff hbuild (hclock activeEra start hactive hstart)
        unfold Completes at hpayout ⊢
        rw [hend, hrun, hpayout]
        exact ⟨fun h _ => h, fun h => h hpays⟩
      · refine iff_of_true ?_ fun h => absurd h hpays
        simp [Completes, hend, endEra_of_not_pays hpays]
    · rw [if_neg hstarts] at hending
      have hend : Lpos.endSession ctx sessionIndex s = (.ok (), s) := bind_of_ok hending
      refine iff_of_true ?_ fun activeEra' hends => ?_
      · simp [Completes, hend]
      · obtain rfl := Option.some.inj (hactive.symm.trans hends.1)
        exact absurd hends.2 hstarts

omit [DecidableEq AccountId] in
/-- A session starts, if the set id of the era that it starts does not fall below 0. -/
theorem startSession_completes {ctx : Context AccountId} {session : Nat} {s : State T}
    (hlt : following s.timeline.activeIndex < 2 ^ 32) (hset : ctx.appchain.nextSetId < 2 ^ 32)
    (hstarts : s.timeline.startsEra session = true → ctx.appchain.nextSetId ≠ 0) :
    ∃ s', SessionManager.startSession ctx session s = (.ok (), s') := by
  have hera : following (s.activeEra.map ActiveEraInfo.index) < 2 ^ 32 := by
    rwa [s.timeline_activeIndex] at hlt
  have hstarts : (s.erasStartSessionIndex (following (s.activeEra.map ActiveEraInfo.index))).any
      (fun start => start ≤ session) = true → ctx.appchain.nextSetId ≠ 0 := by
    rw [← s.timeline_activeIndex]
    exact hstarts
  have hstarted : ∀ t : State T, t.activeEra = s.activeEra → ctx.appchain.nextSetId ≠ 0 →
      ∃ s', startEra ctx session t = (.ok (), s') := by
    intro t ht hne
    obtain ⟨s', hrun, -⟩ := startEra_timeline ctx session (congrArg (fun a =>
      following (Option.map ActiveEraInfo.index a)) ht) hera (Nat.pos_of_ne_zero hne) hset
    exact ⟨s', hrun⟩
  unfold SessionManager.startSession Lpos.startSession
  rw [load_bind, bind_of_ok (nextIndex_of_lt hera s), load_bind]
  cases hnext : s.erasStartSessionIndex (following (s.activeEra.map ActiveEraInfo.index)) with
  | none => exact ⟨s, rfl⟩
  | some start =>
    rw [hnext, Option.any_some, decide_eq_true_eq] at hstarts
    dsimp only
    split
    · next heq => exact hstarted s rfl (hstarts (Nat.le_of_eq heq))
    split
    · next hlt =>
      exact hstarted { s with printed := s.printed ++ [.sessionSkipped] } rfl
        (hstarts (Nat.le_of_lt hlt))
    · exact ⟨s, rfl⟩

/-- A session is planned, if the depth of the history leaves room for one more. -/
theorem newSession_completes {ctx : Context AccountId} {session : Nat} {s : State T}
    (hera : following s.timeline.currentEra < 2 ^ 32) (hset : ctx.appchain.nextSetId < 2 ^ 32)
    (hplans : s.timeline.plansEra T.sessionsPerEra session = true →
      s.historyDepth + 1 < 2 ^ 32) :
    ∃ elected s', newSession ctx session s = (.ok elected, s') := by
  have hplanned : ∀ t : State T, t.currentEra = s.currentEra → t.historyDepth = s.historyDepth →
      s.timeline.plansEra T.sessionsPerEra session = true →
      ∃ elected s', tryTriggerNewEra ctx session t = (.ok elected, s') := by
    intro t hcurrent hdepth hyes
    obtain ⟨s', hrun, -⟩ := tryTriggerNewEra_timeline ctx (s := t) session
      (by rw [hcurrent]; exact hera) (by rw [hdepth]; exact hplans hyes)
    exact ⟨_, s', hrun⟩
  unfold newSession
  rw [load_bind]
  cases hcurrent : s.currentEra with
  | none =>
    have htimeline : s.timeline.currentEra = none := hcurrent
    refine hplanned s rfl rfl ?_
    unfold Timeline.plansEra
    rw [htimeline]
  | some era =>
    obtain ⟨t, hstart, -, hcurrent', hdepth⟩ := currentEraStart_apply s era
    dsimp only
    rw [bind_of_ok hstart]
    split
    · split
      · obtain ⟨s', hsubmit, -⟩ := submitPlanNewEra_timeline ctx t hset
        exact ⟨none, s', bind_of_ok hsubmit⟩
      · exact ⟨none, t, rfl⟩
    · next hlong =>
      have htimeline : s.timeline.currentEra = some era := hcurrent
      refine hplanned t hcurrent' hdepth ?_
      unfold Timeline.plansEra
      rw [htimeline]
      exact decide_eq_true (Nat.not_lt.mp hlong)

/-! ## A rotation -/

omit [DecidableEq AccountId] in
/-- The three operators have a value: the set id of an era that starts, the depth when an era is
planned, and the threshold of an era that is paid. -/
structure State.Safe (s : State T) (ctx : Context AccountId) (session : Nat) : Prop where
  starts : s.timeline.startsEra (session + 1) = true → ctx.appchain.nextSetId ≠ 0
  plans : s.timeline.plansEra T.sessionsPerEra (session + 2) = true → s.historyDepth + 1 < 2 ^ 32
  pays : s.PaysSafely ctx session

omit [DecidableEq AccountId] in
/-- A hook that is observed completes when the hook does. -/
theorem planning_completes {hook : Dispatch Fault (State T) (Option (List AccountId))}
    {session : Nat} {s s' : State T} {elected : Option (List AccountId)}
    (h : hook s = (.ok elected, s')) : ∃ os, planning hook session s = (.ok os, s') := by
  refine ⟨Observed.planning (s.reachesPlanNewEra session) session elected, ?_⟩
  unfold planning
  rw [load_bind, bind_of_ok h]
  rfl

theorem ending_eq (ctx : Context AccountId) {session : Nat} {s : State T}
    (hfits : s.IndicesFit session) :
    ∃ os, ending ctx session s = (SessionManager.endSession ctx session >>= fun _ => pure os) s := by
  cases hactive : s.activeEra with
  | none => exact ⟨_, bind_of_ok (endingEra_of_none hactive session)⟩
  | some activeEra =>
    have hera : activeEra.index + 1 < 2 ^ 32 := by
      have hlt := hfits.active
      rwa [s.timeline_activeIndex, hactive] at hlt
    exact ⟨_, bind_of_ok (endingEra_apply hactive hera (Nat.lt_of_succ_lt hfits.session))⟩

/-- The hook that ends a session swallows every error that is not an abort. -/
theorem endSession_of_completes {ctx : Context AccountId} {session : Nat} {s : State T}
    (h : Completes (SessionManager.endSession ctx session) s) :
    ∃ s', SessionManager.endSession ctx session s = (.ok (), s') := by
  have hcases := endSession_end ctx session s
  unfold Completes at h
  generalize SessionManager.endSession ctx session s = r at h hcases ⊢
  obtain ⟨r, s'⟩ := r
  cases hcases with
  | aborted _ => exact absurd rfl h
  | unpaid _ | payout _ _ _ _ => exact ⟨_, rfl⟩

/-- The next session is planned after another one has started. -/
theorem newSession_completes_after {ctx : Context AccountId} {session setId : Nat}
    {s s' : State T} (hfits : s.IndicesFit session) (hset : ctx.appchain.nextSetId < 2 ^ 32)
    (hplans : s.timeline.plansEra T.sessionsPerEra (session + 2) = true →
      s.historyDepth + 1 < 2 ^ 32)
    (hstarted : s'.timeline.unprinted
      = (s.timeline.startPhase setId (session + 1)).unprinted) :
    ∃ elected s'', SessionManager.newSession ctx (session + 2) s' = (.ok elected, s'') := by
  have hcurrent : s'.timeline.currentEra = s.timeline.currentEra :=
    (congrArg Timeline.currentEra hstarted).trans (Timeline.startPhase_currentEra _ _ _)
  have hdepth : s'.historyDepth = s.historyDepth :=
    (congrArg Timeline.historyDepth hstarted).trans (Timeline.startPhase_historyDepth _ _ _)
  have hyes : s'.timeline.plansEra T.sessionsPerEra (session + 2)
      = s.timeline.plansEra T.sessionsPerEra (session + 2) :=
    (congrArg (fun t => Timeline.plansEra t T.sessionsPerEra (session + 2)) hstarted).trans
      (Timeline.startPhase_plansEra _ _ _ _ _)
  refine newSession_completes ?_ hset fun hplanned => ?_
  · show following s'.timeline.currentEra < 2 ^ 32
    rw [hcurrent]
    exact hfits.current
  · show s'.historyDepth + 1 < 2 ^ 32
    rw [hdepth]
    exact hplans (hyes ▸ hplanned)

/-- A rotation goes through where the three operators have a value. -/
theorem rotateSession_of_safe (hbuild : T.build = .debug) {ctx : Context AccountId}
    {session : Nat} {s : State T} (hfits : s.IndicesFit session) (hclock : s.Started ctx)
    (hset : ctx.appchain.nextSetId < 2 ^ 32) (hsafe : s.Safe ctx session) :
    ∃ os s', rotateSession ctx session s = (.ok os, s') := by
  obtain ⟨os, hending⟩ := ending_eq ctx hfits
  obtain ⟨s₁, hend⟩ := endSession_of_completes
    ((endSession_completes_iff hbuild hfits hclock).mpr hsafe.pays)
  rw [bind_of_ok hend, pure_apply] at hending
  have htimeline : s₁.timeline = s.timeline := by
    have hkeeps := ending_keeps ctx session s
    rwa [hending] at hkeeps
  obtain ⟨s₂, hstart⟩ : ∃ s₂, SessionManager.startSession ctx (session + 1) s₁ = (.ok (), s₂) :=
    startSession_completes (by rw [htimeline]; exact hfits.active) hset
      (by rw [htimeline]; exact hsafe.starts)
  obtain ⟨setId, -, hstarted⟩ := startSession_of_ok ctx
    (by rw [htimeline]; exact hfits.active) hstart
  rw [htimeline] at hstarted
  obtain ⟨elected, s₃, hnew⟩ := newSession_completes_after hfits hset hsafe.plans hstarted
  obtain ⟨os', hplanned⟩ : ∃ os', planning (SessionManager.newSession ctx (session + 2))
      (session + 2) s₂ = (.ok os', s₃) := planning_completes hnew
  exact ⟨os ++ os', s₃, rotateSession_eq_ok.mpr ⟨os, os', s₁, s₂, hending, hstart, hplanned, rfl⟩⟩

/-- **A rotation goes through exactly where the three operators have a value.** -/
theorem rotateSession_safe_iff (hbuild : T.build = .debug) {ctx : Context AccountId}
    {session : Nat} {s : State T} (hfits : s.IndicesFit session) (hclock : s.Started ctx)
    (hset : ctx.appchain.nextSetId < 2 ^ 32) :
    (∃ os s', rotateSession ctx session s = (.ok os, s')) ↔ s.Safe ctx session := by
  have hpays := endSession_completes_iff hbuild hfits hclock
  obtain ⟨os, hending⟩ := ending_eq ctx hfits
  refine ⟨?_, rotateSession_of_safe hbuild hfits hclock hset⟩
  rintro ⟨os', s', hrun⟩
  obtain ⟨setId, kept, hsub, hadd, -⟩ := rotateSession_of_ok ctx hfits.active hfits.current hrun
  rw [hbuild] at hsub hadd
  refine ⟨fun hstarts => ?_, fun hplans => ?_, hpays.mp fun habort => ?_⟩
  · have hfit := (Build.debug_eq_some_iff.mp ⟨_, hsub hstarts⟩).1
    omega
  · have hfit := (Build.debug_eq_some_iff.mp ⟨_, hadd hplans⟩).2
    exact_mod_cast hfit
  · -- an abort of the first hook is one of the rotation
    have herror : SessionManager.endSession ctx session s
        = (.error .abort, (SessionManager.endSession ctx session s).2) := Prod.ext habort rfl
    rw [bind_of_error herror] at hending
    obtain ⟨_, _, s₁, _, hended, -⟩ := rotateSession_eq_ok.mp hrun
    cases (Prod.mk.inj (hending.symm.trans hended)).1

/-! ## The debug build of a chain -/

/-- The same pallet, compiled with overflow checks. -/
@[reducible] def Config.debug (T : Config AccountId) : Config AccountId := { T with build := .debug }

omit [DecidableEq AccountId] in
/-- The same storage, under the hooks of the debug build. -/
def State.debug (s : State T) : State T.debug where
  toStorage := s.toStorage
  balances := s.balances
  messages := s.messages
  historical := s.historical

end OctopusPallets.Lpos
