import OctopusPallets.Runtime.EraReports

/-!
# Which sets the mainchain is asked for

When the last session of an era is planned, an active appchain asks the mainchain for the validator
set of the era after the next one. What it asks for is `NextSetId`, the set after those that have
taken effect. So it asks once an era at most, never for a set that it has, and for the same set
again until it gets it.

* `rotate_requests` — what a rotation asks for
* `Asking.step` — the requests never go down, and there is at most one for each era
* `sets_asked_in_turn` — the requests of a run
-/

namespace OctopusPallets.Runtime

open Infra Infra.Dispatch Infra.FixedWidth

variable {AccountId : Type} {R : Config AccountId}

/-! ## Requests -/

/-- The ids of the validator sets that the mainchain was asked for. -/
def setRequests {cfg : UpwardMessages.Config} (messages : UpwardMessages.State cfg) : List Nat :=
  (messages.sent .planNewEra PlanNewEraPayload.codec).map PlanNewEraPayload.newEra

/-- The queue takes the message that asks for this set. -/
def TakesRequest {cfg : UpwardMessages.Config} (messages : UpwardMessages.State cfg) (setId : Nat) :
    Prop :=
  messages.HasRoom (PlanNewEraPayload.codec.encode ⟨setId⟩) ∧ messages.nonce + 1 < 2 ^ 64

instance {cfg : UpwardMessages.Config} (messages : UpwardMessages.State cfg) (setId : Nat) :
    Decidable (TakesRequest messages setId) :=
  inferInstanceAs (Decidable (_ ∧ _))

theorem submit_requests {cfg : UpwardMessages.Config} (messages : UpwardMessages.State cfg)
    {setId : Nat} (hlt : setId < 2 ^ 32) :
    setRequests (UpwardMessages.submit (none : Option AccountId) .planNewEra
        (PlanNewEraPayload.codec.encode ⟨setId⟩) messages).2
      = setRequests messages ++ if TakesRequest messages setId then [setId] else [] := by
  have hok := UpwardMessages.submit_system_ok_iff (s := messages) (none : Option AccountId)
    (Or.inl rfl) (PlanNewEraPayload.codec.encode ⟨setId⟩)
  rcases hsubmit : UpwardMessages.submit (none : Option AccountId) .planNewEra
    (PlanNewEraPayload.codec.encode ⟨setId⟩) messages with ⟨e | nonce, messages'⟩
  · have hno : ¬ TakesRequest messages setId := by
      intro htakes
      obtain ⟨nonce, hnonce⟩ := hok.mpr htakes
      rw [hsubmit] at hnonce
      cases hnonce
    rw [if_neg hno, List.append_nil, UpwardMessages.submit_error hsubmit]
  · have hyes : TakesRequest messages setId := hok.mp ⟨nonce, congrArg Prod.fst hsubmit⟩
    have hsent : messages'.sent .planNewEra PlanNewEraPayload.codec
        = messages.sent .planNewEra PlanNewEraPayload.codec ++ [⟨setId⟩] :=
      UpwardMessages.submit_sent none (decide_eq_true hlt) hsubmit
    rw [if_pos hyes]
    unfold setRequests
    rw [hsent, List.map_append]
    rfl

/-- The session is the last one of an era that has more than one. -/
def LastOfEra (sessionsPerEra session : Nat) : Prop :=
  2 ≤ sessionsPerEra ∧ sessionsPerEra ∣ session + 1

instance (sessionsPerEra session : Nat) : Decidable (LastOfEra sessionsPerEra session) :=
  inferInstanceAs (Decidable (_ ∧ _))

/-- Whether it is accepted or not, the message has been submitted. -/
theorem submitPlanNewEra_messages (ctx : Lpos.Context AccountId) (l : Lpos.State R.lpos)
    (hlt : ctx.appchain.nextSetId < 2 ^ 32) :
    (Lpos.submitPlanNewEra ctx l).2.messages
      = (UpwardMessages.submit (none : Option AccountId) .planNewEra
          (PlanNewEraPayload.codec.encode ⟨ctx.appchain.nextSetId⟩) l.messages).2 := by
  have hpayload : PlanNewEraPayload.codec.tryToVec ⟨ctx.appchain.nextSetId⟩
      = some (PlanNewEraPayload.codec.encode ⟨ctx.appchain.nextSetId⟩) :=
    Codec.tryToVec_eq_some.mpr ⟨decide_eq_true hlt, rfl⟩
  unfold Lpos.submitPlanNewEra
  rw [hpayload, bind_of_ok (okOr_some _ _ l), attempt_bind]
  rcases hsubmit : Lpos.onMessages (R.lpos.upwardMessages.submit none .planNewEra
    (PlanNewEraPayload.codec.encode ⟨ctx.appchain.nextSetId⟩)) l with ⟨_ | _, l'⟩
  all_goals
    exact (congrArg (fun r => Lpos.State.messages r.2) hsubmit).symm

variable [DecidableEq AccountId]

/-- **What planning a session asks for.** -/
theorem newSession_requests (ctx : Lpos.Context AccountId) {l l' : Lpos.State R.lpos} {j : Nat}
    {elected : Option (List AccountId)} (hS : 1 ≤ R.sessionsPerEra)
    (h : l.timeline.Planned R.sessionsPerEra j) (hlt : ctx.appchain.nextSetId < 2 ^ 32)
    (hrun : Lpos.newSession ctx (j + 1) l = (.ok elected, l')) :
    setRequests l'.messages = setRequests l.messages ++
      if ctx.appchain.isActivated = true ∧ LastOfEra R.sessionsPerEra (j + 1) ∧
          TakesRequest l.messages ctx.appchain.nextSetId then
        [ctx.appchain.nextSetId] else [] := by
  rw [Lpos.newSession_due (T := R.lpos) (s := l) ctx hS h] at hrun
  by_cases hdvd : R.sessionsPerEra ∣ j + 1
  · -- the session is the first one of an era, and not the last one
    have hno : ¬ (ctx.appchain.isActivated = true ∧ LastOfEra R.sessionsPerEra (j + 1) ∧
        TakesRequest l.messages ctx.appchain.nextSetId) := by
      rintro ⟨-, ⟨htwo, hlast⟩, -⟩
      have hone : R.sessionsPerEra ∣ 1 := (Nat.dvd_add_right hdvd).mp hlast
      exact absurd (Nat.le_of_dvd Nat.one_pos hone) (by omega)
    have hkept := Lpos.tryTriggerNewEra_frame (T := R.lpos) (f := fun l => setRequests l.messages)
      (fun _ _ => rfl) ctx (j + 1) l
    rw [show Lpos.tryTriggerNewEra ctx (j + 1) l = _ from (congrFun (if_pos hdvd) l).symm.trans hrun]
      at hkept
    rw [if_neg hno, List.append_nil]
    exact hkept
  · have htwo : 2 ≤ R.sessionsPerEra := by
      by_contra hone
      have heq : R.sessionsPerEra = 1 := by omega
      rw [heq] at hdvd
      exact hdvd (one_dvd _)
    replace hrun := (congrFun (if_neg hdvd) l).symm.trans hrun
    by_cases hasks : ctx.appchain.isActivated = true ∧ R.sessionsPerEra ∣ j + 2
    · rw [if_pos hasks] at hrun
      obtain ⟨_, l₁, hsubmit, hpure⟩ := bind_eq_ok.mp hrun
      obtain ⟨-, rfl⟩ := pure_eq_ok.mp hpure
      have hsent := submitPlanNewEra_messages ctx l hlt
      rw [hsubmit] at hsent
      rw [show l'.messages = _ from hsent, submit_requests l.messages hlt]
      simp only [hasks.1, true_and, LastOfEra, htwo, hasks.2]
    · rw [if_neg hasks] at hrun
      obtain ⟨-, rfl⟩ := pure_eq_ok.mp hrun
      rw [if_neg fun hall => hasks ⟨hall.1, hall.2.1.2⟩, List.append_nil]

/-! ## A rotation -/

/-- The messages once the session has ended: the payout of the era is queued before the request. -/
def State.afterEnd (s : State R) : UpwardMessages.State R.messages :=
  (Lpos.SessionManager.endSession s.context s.session s.lposState).2.messages

/-- The rotation asks for the next set: the appchain is active, the session that is planned is the
last one of its era, and the queue takes the message. -/
def State.Asks (s : State R) : Prop :=
  s.appchain.isActivated = true ∧ LastOfEra R.sessionsPerEra (s.session + 2) ∧
    TakesRequest s.afterEnd s.appchain.nextSetId

instance (s : State R) : Decidable s.Asks := inferInstanceAs (Decidable (_ ∧ _ ∧ _))

/-- The end of a session asks for nothing. -/
theorem State.afterEnd_requests {s : State R} {l : Lpos.State R.lpos}
    (hend : Lpos.SessionManager.endSession s.context s.session s.lposState = (.ok (), l)) :
    setRequests l.messages = setRequests s.messages := by
  have hcases := Lpos.endSession_end s.context s.session s.lposState
  rw [hend] at hcases
  cases hcases with
  | unpaid _ => rfl
  | payout _ _ hpayout hr =>
    rcases hpayout.moved hr with ⟨-, -, hsame⟩ | ⟨-, -, hsame | ⟨payload, hsubmit⟩⟩
    · exact congrArg setRequests hsame
    · exact congrArg setRequests hsame
    · refine (congrArg setRequests hsubmit).trans (congrArg (List.map PlanNewEraPayload.newEra) ?_)
      exact UpwardMessages.submit_sent_of_ne (by decide) PlanNewEraPayload.codec
        (none : Option AccountId) payload s.messages

/-- **What a rotation asks for.** -/
theorem State.rotate_requests {s : State R} (hS : 1 ≤ R.sessionsPerEra)
    (h : s.timeline.Planned R.sessionsPerEra (s.session + 1))
    (hactive : s.timeline.activeIndex = some (s.session / R.sessionsPerEra))
    (hrange : s.session + 2 < 2 ^ 32) (hset : s.context.SetIdInRange)
    {os : List (Lpos.Observed AccountId)} {l : Lpos.State R.lpos}
    (hrun : Lpos.rotateSession s.context s.session s.lposState = (.ok os, l)) :
    setRequests l.messages
      = setRequests s.messages ++ if s.Asks then [s.appchain.nextSetId] else [] := by
  obtain ⟨os₁, os₂, l₁, l₂, hending, hstart, hplan, -⟩ := Lpos.rotateSession_eq_ok.mp hrun
  have hend := Lpos.endSession_of_ending hending
  have hafter : s.afterEnd = l₁.messages := by
    unfold State.afterEnd
    rw [hend]
  have hended : l₁.timeline = s.timeline := by
    have hkept := Lpos.ending_keeps (T := R.lpos) s.context s.session s.lposState
    rwa [hending] at hkept
  -- the start of the next session has no part in it
  have hplanned : l₂.timeline.Planned R.sessionsPerEra (s.session + 1) := by
    rw [← hended] at h hactive
    obtain ⟨l₂', hstart', h', -⟩ := Lpos.startSession_planned s.context h hactive
      (by omega) hset
    rw [hstart] at hstart'
    obtain ⟨-, rfl⟩ := Prod.mk.inj hstart'
    exact h'
  have hmessages : l₂.messages = l₁.messages := by
    have hkept := Lpos.startSession_writes (T := R.lpos) (f := fun l => l.messages) s.context
      (fun _ _ => rfl) (fun _ _ _ _ => rfl) (s.session + 1) l₁
    rwa [hstart] at hkept
  obtain ⟨elected, hnew⟩ := Lpos.newSession_of_planning hplan
  have hrequests := newSession_requests (l := { l₂ with currentPlannedSession := s.session + 2 })
    s.context hS hplanned hset.2 hnew
  rw [show Lpos.State.messages { l₂ with currentPlannedSession := s.session + 2 } = l₂.messages
    from rfl, hmessages, State.afterEnd_requests hend, ← hafter] at hrequests
  exact hrequests

/-! ## One step -/

/-- What a step asks for. An aborted rotation asks for nothing. -/
def Step.asks (s : State R) (i : Step R) (s' : State R) : List Nat :=
  match i with
  | .rotate => if s'.session ≠ s.session ∧ s.Asks then [s.appchain.nextSetId] else []
  | _ => []

omit [DecidableEq AccountId] in
/-- Root sets history depths of at least 1 that leave room for one more. -/
def Step.DepthInRange : Step R → Prop
  | .lpos .root (.setHistoryDepth newHistoryDepth _) =>
    1 ≤ newHistoryDepth ∧ newHistoryDepth + 1 < 2 ^ 32
  | _ => True

instance : (i : Step R) → Decidable i.DepthInRange
  | .lpos .root (.setHistoryDepth _ _) => inferInstanceAs (Decidable (_ ∧ _))
  | .lpos .root (.forceSetEraPayout _) | .lpos (.signed _) _ | .lpos .none _ | .force _ _
  | .timestamp _ | .onInitialize _ | .onFinalize | .rotate | .noteAuthor _ | .reportOffence _ _ _ _
  | .vote _ _ | .bridge _ _ | .fees _ | .keys _ | .elsewhere _ _ _ _ => isTrue trivial

/-- Besides rotations, no step begins a session. -/
theorem State.step_session (s : State R) {i : Step R} (hi : i ≠ .rotate) :
    (s.step i).1.session = s.session := by
  have hrotate : ∀ ctx, i.chainCall s ≠ .rotate ctx := by
    intro ctx h
    cases i with
    | rotate => exact hi rfl
    | timestamp _ | onInitialize _ | onFinalize | noteAuthor _ | reportOffence _ _ _ _ | lpos _ _
    | vote _ _ | force _ _ | bridge _ _ | fees _ | keys _ | elsewhere _ _ _ _ => cases h
  have hstep := congrArg Lpos.Chain.session (s.step_chain i)
  rw [s.chain.step_between hrotate] at hstep
  exact hstep.trans (s.chain.apply_session _)

/-- The ids of the validator sets among the observations that took effect. -/
def setIds (os : List (Appchain.Observation AccountId)) : List Nat :=
  (os.filterMap Appchain.Observation.validatorSet?).map Appchain.ValidatorSet.setId

/-- The sets that take effect are those that the counter goes through. -/
theorem State.step_setIds (s : State R) {i : Step R} (hi : i.LeavesSetId)
    (hpos : 1 ≤ s.appchain.nextSetId) {os : List (Appchain.Observation AccountId)}
    (h : setIds os = List.range' 1 (s.appchain.nextSetId - 1)) :
    setIds (os ++ (s.step i).2) = List.range' 1 ((s.step i).1.appchain.nextSetId - 1) := by
  have hsame : (s.step i).2 = [] → (s.step i).1.appchain.nextSetId = s.appchain.nextSetId →
      setIds (os ++ (s.step i).2) = List.range' 1 ((s.step i).1.appchain.nextSetId - 1) := by
    intro hnone hset
    rw [hnone, hset, List.append_nil]
    exact h
  cases i with
  | vote keyData o =>
    show setIds (os ++ (s.vote keyData o).2)
      = List.range' 1 ((s.vote keyData o).1.appchain.nextSetId - 1)
    unfold State.vote
    cases s.voteOf keyData o with
    | none => rwa [List.append_nil]
    | some x =>
      dsimp only
      have hstep := Appchain.voteMachine_step Bridge.bridgeInterface x s.appchain
      generalize (Appchain.voteMachine Bridge.bridgeInterface).step x s.appchain = r at hstep ⊢
      obtain ⟨a, os'⟩ := r
      cases hstep with
      | refused _ | counted _ _ _ => rwa [List.append_nil]
      | relayed _ _ _ ho _ =>
        unfold setIds
        rw [List.filterMap_append, List.filterMap_cons,
          Appchain.Observation.validatorSet?_notification ho, List.filterMap_nil, List.append_nil]
        exact h
      | @installed obs vals T valSet hreg _ _ hset _ =>
        rw [hset] at hreg ⊢
        have hid : valSet.setId = s.appchain.nextSetId :=
          (Appchain.State.inRange_set (by simp [Appchain.Observation.IsNotification,
            Appchain.Observation.getObservationType])).mp hreg.inRange
        have hlen : s.appchain.nextSetId + 1 - 1 = (s.appchain.nextSetId - 1) + 1 := by omega
        have hlast : 1 + 1 * (s.appchain.nextSetId - 1) = s.appchain.nextSetId := by omega
        show setIds (os ++ [.updateValidatorSet valSet])
          = List.range' 1 (s.appchain.nextSetId + 1 - 1)
        rw [hlen, List.range'_concat, hlast, ← h, ← hid]
        unfold setIds
        rw [List.filterMap_append, List.map_append]
        rfl
  | force origin forced =>
    refine hsame rfl ?_
    cases origin with
    | signed _ | none => cases forced <;> rfl
    | root =>
      cases forced with
      | nextSetId id => exact hi.elim
      | isActivated _ | plannedValidators _ | nextNotificationId _ => rfl
  | onInitialize now =>
    refine hsame rfl ?_
    obtain ⟨messages, -, hrun⟩ := s.onInitialize_eq now
    show (s.onInitialize now).appchain.nextSetId = _
    rw [hrun]
    rfl
  | timestamp _ | onFinalize | rotate | noteAuthor _ | reportOffence _ _ _ _ | lpos _ _
  | bridge _ _ | fees _ | keys _ | elsewhere _ _ _ _ => exact hsame rfl rfl

/-- The requests never go down and never go beyond the counter, and there is at most one for each era
whose last session is planned. -/
structure Asking (s : State R) (asked : List Nat) : Prop where
  inStep : ∃ os, Lpos.InStep s.chain os
  pos : 1 ≤ s.appchain.nextSetId
  lt : s.appchain.nextSetId < 2 ^ 32
  requests : setRequests s.messages = asked
  sorted : asked.Pairwise (· ≤ ·)
  within : ∀ id ∈ asked, 1 ≤ id ∧ id ≤ s.appchain.nextSetId
  once : asked.length ≤ (s.session + 2) / R.sessionsPerEra

theorem Step.chainCall_allowed {s : State R} {i : Step R} (hrange : i.SessionInRange s)
    (hdepth : i.DepthInRange) (hset : s.context.SetIdInRange) :
    (i.chainCall s).Allowed s.chain := by
  cases i with
  | rotate => exact ⟨hrange, hset⟩
  | lpos origin call =>
    cases origin with
    | root =>
      cases call with
      | setHistoryDepth _ _ => exact hdepth
      | forceSetEraPayout _ => trivial
    | signed _ | none => trivial
  | timestamp _ | onInitialize _ | onFinalize | noteAuthor _ | reportOffence _ _ _ _
  | vote _ _ | force _ _ | bridge _ _ | fees _ | keys _ | elsewhere _ _ _ _ => trivial

namespace Asking

variable {s : State R} {asked : List Nat}

/-- A rotation that goes through asks for the next set, or for none. -/
theorem rotated (h : Asking s asked) (hS : 1 ≤ R.sessionsPerEra) (hrange : s.session + 2 < 2 ^ 32)
    {os : List (Lpos.Observed AccountId)} {l : Lpos.State R.lpos}
    (hrun : Lpos.rotateSession s.context s.session s.lposState = (.ok os, l))
    (hinStep : ∃ os, Lpos.InStep (s.withChain ⟨s.session + 1, l⟩).chain os) :
    Asking (s.withChain ⟨s.session + 1, l⟩)
      (asked ++ if s.Asks then [s.appchain.nextSetId] else []) := by
  obtain ⟨_, hbefore⟩ := h.inStep
  have hrequests := State.rotate_requests hS hbefore.planned hbefore.active hrange ⟨h.pos, h.lt⟩ hrun
  rw [h.requests] at hrequests
  have hsucc := @Nat.succ_div (s.session + 2) R.sessionsPerEra
  by_cases hasks : s.Asks
  · have hdvd : R.sessionsPerEra ∣ s.session + 2 + 1 := hasks.2.1.2
    rw [if_pos hasks] at hrequests ⊢
    rw [if_pos hdvd] at hsucc
    refine ⟨hinStep, h.pos, h.lt, hrequests, ?_, fun id hid => ?_, ?_⟩
    · rw [List.pairwise_append]
      exact ⟨h.sorted, List.pairwise_singleton _ _, fun id hid last hlast =>
        List.mem_singleton.mp hlast ▸ (h.within id hid).2⟩
    · rcases List.mem_append.mp hid with hid | hid
      · exact h.within id hid
      · rw [List.mem_singleton.mp hid]
        exact ⟨h.pos, Nat.le_refl _⟩
    · have honce := h.once
      show (asked ++ [s.appchain.nextSetId]).length ≤ (s.session + 2 + 1) / R.sessionsPerEra
      rw [List.length_append, List.length_singleton, hsucc]
      exact Nat.succ_le_succ honce
  · rw [if_neg hasks, List.append_nil] at hrequests ⊢
    refine ⟨hinStep, h.pos, h.lt, hrequests, h.sorted, h.within, h.once.trans ?_⟩
    exact Nat.div_le_div_right (Nat.le_succ _)

/-- **The step lemma.** -/
theorem step (h : Asking s asked) (hS : 1 ≤ R.sessionsPerEra) {i : Step R}
    (hrange : i.SessionInRange s) (hset : i.LeavesSetId) (hdepth : i.DepthInRange) :
    Asking (s.step i).1 (asked ++ i.asks s (s.step i).1) := by
  have hinStep : ∃ os, Lpos.InStep (s.step i).1.chain os := by
    obtain ⟨os, hbefore⟩ := h.inStep
    have hstep := hbefore.step hS (Step.chainCall_allowed hrange hdepth ⟨h.pos, h.lt⟩)
    rw [← s.step_chain i] at hstep
    exact ⟨_, hstep⟩
  by_cases hrotate : i = .rotate
  · subst hrotate
    rcases s.rotate_cases with ⟨-, hsame⟩ | ⟨os, l, hrun, hl⟩
    · have hstep : (s.step .rotate).1 = s := hsame
      rw [hstep]
      have hnone : Step.rotate.asks s s = [] := if_neg fun hasks => hasks.1 rfl
      rw [hnone, List.append_nil]
      exact h
    · have hstep : (s.step .rotate).1 = s.withChain ⟨s.session + 1, l⟩ := hl
      rw [hstep] at hinStep ⊢
      have hasked : Step.rotate.asks s (s.withChain ⟨s.session + 1, l⟩)
          = if s.Asks then [s.appchain.nextSetId] else [] := by
        have hmoved : (s.withChain ⟨s.session + 1, l⟩).session ≠ s.session := Nat.succ_ne_self _
        unfold Step.asks
        simp only [hmoved, ne_eq, not_false_eq_true, true_and]
      rw [hasked]
      exact h.rotated hS hrange hrun hinStep
  · have hnone : i.asks s (s.step i).1 = [] := by
      cases i with
      | rotate => exact absurd rfl hrotate
      | _ => rfl
    obtain ⟨hle, hlt⟩ := s.step_nextSetId hset h.lt
    have hsession := s.step_session hrotate
    rw [hnone, List.append_nil]
    refine ⟨hinStep, h.pos.trans hle, hlt, ?_, h.sorted, fun id hid => ?_, ?_⟩
    · rw [← h.requests]
      exact congrArg (List.map PlanNewEraPayload.newEra)
        (s.step_sent hrotate (Or.inl rfl) PlanNewEraPayload.codec)
    · obtain ⟨hone, hid'⟩ := h.within id hid
      exact ⟨hone, hid'.trans hle⟩
    · rw [hsession]
      exact h.once

end Asking

/-! ## Runs -/

/-- The genesis keeps to the schedule, and asks for nothing. -/
theorem Genesis.asking (g : Genesis R) (hS : 1 ≤ R.sessionsPerEra) (hpos : 1 ≤ g.historyDepth)
    (hlt : g.historyDepth + 1 < 2 ^ 32) (hnone : setRequests g.bridge.messages = [])
    {s₀ : State R} (hstart : g.start = some s₀) : Asking s₀ [] := by
  obtain ⟨⟨c₀, os₀⟩, hchain, rfl⟩ := Option.map_eq_some_iff.mp hstart
  have hone : g.lpos.ctx.SetIdInRange := ⟨Nat.le_refl 1, (by decide : 1 < 2 ^ 32)⟩
  obtain ⟨os, l, hhooks, hinStep⟩ := Lpos.genesisHooks_inStep g.lpos.ctx hS g.lpos.state_blank rfl
    hpos hlt hone
  have hc₀ : (⟨0, l⟩ : Lpos.Chain R.lpos) = c₀ := by
    have hofHooks : g.lpos.chain = some (⟨0, l⟩, os) := congrArg Lpos.Chain.ofHooks hhooks
    exact congrArg Prod.fst (Option.some.inj (hofHooks.symm.trans hchain))
  have hkept := g.lpos.frame (f := fun l => setRequests l.messages) (fun _ _ => rfl)
    (fun _ _ _ _ => rfl) (fun hactive => by cases hactive) hchain
  rw [hc₀] at hinStep
  refine ⟨⟨os, hinStep⟩, Nat.le_refl 1, (by decide : 1 < 2 ^ 32), hkept.trans hnone, .nil,
    fun _ hid => absurd hid List.not_mem_nil, Nat.zero_le _⟩

/--
**The mainchain is asked for the validator sets in turn.** At genesis nothing is asked for yet, and the
history depth, there and wherever root sets it, is at least 1 and leaves room for one more. Unless
root sets the counter, in every run: the messages that ask for a set are those of the rotations that
plan the last session of an era while the appchain is active and the queue has room. Each asks for the
set after those that have taken effect by then. So the ids never go down, none is beyond the counter,
and there is at most one message for each era; an era of one session has none.
-/
theorem sets_asked_in_turn (g : Genesis R) (hS : 1 ≤ R.sessionsPerEra) (hpos : 1 ≤ g.historyDepth)
    (hlt : g.historyDepth + 1 < 2 ^ 32) (hnone : setRequests g.bridge.messages = [])
    {s₀ : State R} (hstart : g.start = some s₀) (steps : List (Step R))
    (hsteps : (machine R).Along
      (fun s i => i.SessionInRange s ∧ i.LeavesSetId ∧ i.DepthInRange) steps s₀) :
    let s := (machine R).run steps s₀
    let asked := setRequests s.messages
    asked = ((machine R).observing Step.asks).log steps s₀ ∧
      setIds ((machine R).log steps s₀) = List.range' 1 (s.appchain.nextSetId - 1) ∧
      asked.Pairwise (· ≤ ·) ∧ (∀ id ∈ asked, 1 ≤ id ∧ id ≤ s.appchain.nextSetId) ∧
      asked.length ≤ (s.session + 2) / R.sessionsPerEra := by
  have hgenesis := g.asking hS hpos hlt hnone hstart
  have h := ((machine R).observing Step.asks).invariant
    (P := fun s i => i.SessionInRange s ∧ i.LeavesSetId ∧ i.DepthInRange)
    (I := fun _ s asked => Asking s asked) hgenesis
    (fun _ s asked i h hi => h.step hS hi.1 hi.2.1 hi.2.2) steps
    (((machine R).observing_along _ steps s₀).mpr hsteps)
  rw [(machine R).observing_run] at h
  have hids := (machine R).invariant
    (P := fun s i => i.SessionInRange s ∧ i.LeavesSetId ∧ i.DepthInRange)
    (I := fun _ s os => (1 ≤ s.appchain.nextSetId ∧ s.appchain.nextSetId < 2 ^ 32) ∧
      setIds os = List.range' 1 (s.appchain.nextSetId - 1)) ⟨⟨hgenesis.pos, hgenesis.lt⟩, ?_⟩ ?_ steps
    hsteps
  · exact ⟨h.requests, hids.2, h.requests ▸ h.sorted, h.requests ▸ h.within, h.requests ▸ h.once⟩
  · obtain ⟨_, -, rfl⟩ := Option.map_eq_some_iff.mp hstart
    rfl
  · rintro _ s os i ⟨⟨hone, hlt⟩, hids⟩ ⟨-, hset, -⟩
    obtain ⟨hle, hlt'⟩ := s.step_nextSetId hset hlt
    exact ⟨⟨hone.trans hle, hlt'⟩, s.step_setIds hset hone hids⟩

namespace Sample

/-- Set 1 has taken effect when the last session of era 1 is planned. -/
def askingSteps : List (Step config) :=
  [newSet, .force .root (.isActivated true), .rotate, .rotate, .rotate]

end Sample

/-- Set 2 is asked for. -/
theorem sets_asked_in_turn_for_set_two :
    ∃ s₀, Sample.genesis.start = some s₀ ∧
      setRequests ((machine Sample.config).run Sample.askingSteps s₀).messages = [2] := by
  refine ⟨_, rfl, ?_⟩
  rw [(sets_asked_in_turn Sample.genesis (by decide) (by decide) (by decide) rfl rfl
    Sample.askingSteps (by decide)).1]
  decide

end OctopusPallets.Runtime
