import OctopusPallets.Lpos.Sessions

/-!
# What the hooks and calls leave alone

Planning an era, the calls of root and the points of authors write the records of eras and sessions.
What reads none of these records is not changed by them.

* `newSession_frame`, `startSession_frame`, `endSession_frame` — the hooks that plan, start and end
  sessions
* `dispatch_frame`, `rewardByIds_frame`, `reportOffence_frame` — what happens between rotations
* `rotateSession_eq_ok` — the three parts of a rotation
* `Chain.step_between`, `Chain.step_frame` — a chain between rotations
* `Genesis.hooks`, `Genesis.starts` — the hooks of the genesis
-/

namespace OctopusPallets.Lpos

open Infra Infra.Dispatch Infra.FixedWidth

variable {AccountId τ : Type} {T : Config AccountId}

/-- The state with the records of `r`, besides the active era, the bonded eras and the offenders. -/
def State.withRecords (s : State T) (r : Storage AccountId) : State T :=
  { s with
    historyDepth := r.historyDepth
    currentEra := r.currentEra
    erasStartSessionIndex := r.erasStartSessionIndex
    erasStakers := r.erasStakers
    erasValidatorReward := r.erasValidatorReward
    erasRewardPoints := r.erasRewardPoints
    erasTotalStake := r.erasTotalStake
    currentPlannedSession := r.currentPlannedSession
    eraPayout := r.eraPayout
    events := r.events
    printed := r.printed }

/-- `f` reads nothing of these records. -/
def Apart (f : State T → τ) : Prop := ∀ s r, f (s.withRecords r) = f s

variable {f : State T → τ}

/-- A write to the records alone. -/
theorem Apart.store (hf : Apart f) {g : State T → State T}
    (hg : ∀ s, g s = s.withRecords (g s).toStorage) : Keeps f (Dispatch.store g : Dispatch Fault _ _) := by
  intro s
  show f (g s) = f s
  rw [hg s, hf s]

theorem operator_frame (f : State T → τ) (value : Option Nat) :
    Keeps f (operator value : Dispatch Fault (State T) Nat) :=
  .okOr _ _

theorem nextIndex_frame (f : State T → τ) (era : Option Nat) :
    Keeps f (nextIndex era : Dispatch Fault (State T) Nat) := by
  cases era with
  | none => exact .pure _
  | some era => exact operator_frame f (T.build.add 32 era 1)

/-! ## Planning -/

theorem planEra_frame (hf : Apart f) (startSession : Nat) :
    Keeps f (planEra (T := T) startSession) := by
  unfold planEra
  refine .bind (.load _) fun current => .bind (nextIndex_frame f current) fun era => ?_
  exact .bind (hf.store fun _ => rfl) fun _ => .bind (hf.store fun _ => rfl) fun _ => .pure _

theorem clearOldEra_frame (hf : Apart f) (oldEra : Option Nat) :
    Keeps f (clearOldEra (T := T) oldEra) := by
  cases oldEra with
  | none => exact .pure _
  | some oldEra => exact hf.store fun _ => rfl

section

variable [DecidableEq AccountId]

theorem storeStakersInfo_frame (hf : Apart f) (validators : List (AccountId × Nat)) (era : Nat) :
    Keeps f (storeStakersInfo (T := T) validators era) := by
  unfold storeStakersInfo
  exact .bind (hf.store fun _ => rfl) fun _ => .bind (hf.store fun _ => rfl) fun _ => .pure _

theorem tryTriggerNewEra_frame (hf : Apart f) (ctx : Context AccountId) (startSession : Nat) :
    Keeps f (tryTriggerNewEra (T := T) ctx startSession) := by
  unfold tryTriggerNewEra triggerNewEra
  refine .bind (hf.store fun _ => rfl) fun _ => .bind ?_ fun _ => .pure _
  refine .bind (planEra_frame hf _) fun era => .bind (.load _) fun depth => ?_
  refine .bind (operator_frame f _) fun kept => .bind (clearOldEra_frame hf _) fun _ => ?_
  exact storeStakersInfo_frame hf _ _

omit [DecidableEq AccountId] in
/-- The message is submitted in any case, and may be refused. -/
theorem submitPlanNewEra_frame (hf : Apart f) (ctx : Context AccountId)
    (hsubmit : ∀ payload (s : State T), f { s with
      messages := (T.upwardMessages.submit none .planNewEra payload s.messages).2 } = f s) :
    Keeps f (submitPlanNewEra (T := T) ctx) := by
  refine .bind (.okOr _ _) fun payload => .bind (.attempt fun s => hsubmit payload s) fun res => ?_
  cases res with
  | ok _ => exact hf.store fun _ => rfl
  | error _ => exact hf.store fun _ => rfl

/-- Only an active appchain submits a message when a session is planned. -/
theorem newSession_frame (hf : Apart f) (ctx : Context AccountId)
    (hsubmit : ctx.appchain.isActivated = true → ∀ payload (s : State T), f { s with
      messages := (T.upwardMessages.submit none .planNewEra payload s.messages).2 } = f s)
    (sessionIndex : Nat) : Keeps f (newSession (T := T) ctx sessionIndex) := by
  refine .bind (.load _) fun current => ?_
  cases current with
  | none => exact tryTriggerNewEra_frame hf _ _
  | some era =>
    refine .bind (.bind (.load _) fun start => ?_) fun start => ?_
    · cases start with
      | none => exact .bind (hf.store fun _ => rfl) fun _ => .pure _
      | some start => exact .pure _
    · dsimp only
      split
      · split
        · next hlast =>
          rw [Bool.and_eq_true] at hlast
          exact .bind (submitPlanNewEra_frame hf ctx (hsubmit hlast.1)) fun _ => .pure _
        · exact .pure _
      · exact tryTriggerNewEra_frame hf _ _

/-- A hook that plans a session, observed. -/
theorem planning_frame (hf : Apart f) (ctx : Context AccountId)
    (hsubmit : ctx.appchain.isActivated = true → ∀ payload (s : State T), f { s with
      messages := (T.upwardMessages.submit none .planNewEra payload s.messages).2 } = f s)
    (session : Nat) :
    Keeps f (planning (T := T) (SessionManager.newSession ctx session) session) :=
  .bind (.load _) fun _ => .bind (.bind (hf.store fun _ => rfl) fun _ =>
    newSession_frame hf ctx hsubmit _) fun _ => .pure _

end

/-! ## Starting -/

/-- The start of a session may start an era, which writes the active era and the bonded eras and
drops old sessions; a skipped one is printed. -/
theorem startSession_writes (ctx : Context AccountId)
    (hprinted : ∀ (s : State T) printed, f { s with printed } = f s)
    (hstarted : ∀ (s : State T) activeEra bondedEras historical,
      f { s with activeEra, bondedEras, historical } = f s) (session : Nat) :
    Keeps f (SessionManager.startSession (T := T) ctx session) := by
  have hera : Keeps f (startEra (T := T) ctx session) := by
    unfold startEra activateEra
    refine .bind (.bind (.load _) fun active => .bind (nextIndex_frame f _) fun era =>
      .bind (operator_frame f _) fun setId =>
        .bind (.store fun s => hstarted s _ s.bondedEras s.historical) fun _ => .pure _) fun era => ?_
    refine .bind (.store fun s => hstarted s s.activeEra _ s.historical) fun _ => ?_
    split
    · refine .bind (.load _) fun first => ?_
      cases first with
      | none => exact .pure _
      | some first => exact .store fun s => hstarted s s.activeEra s.bondedEras _
    · exact .pure _
  unfold SessionManager.startSession startSession
  refine .bind (.load _) fun active => .bind (nextIndex_frame f _) fun era =>
    .bind (.load _) fun start => ?_
  cases start with
  | none => exact .pure _
  | some start =>
    dsimp only
    split
    · exact hera
    split
    · exact .bind (.store fun s => hprinted s _) fun _ => hera
    · exact .pure _

theorem startSession_frame (hf : Apart f) (ctx : Context AccountId)
    (hstarted : ∀ (s : State T) activeEra bondedEras historical,
      f { s with activeEra, bondedEras, historical } = f s) (session : Nat) :
    Keeps f (SessionManager.startSession (T := T) ctx session) :=
  startSession_writes ctx (fun s printed => hf s { s.toStorage with printed }) hstarted session

/-! ## Ending -/

/-- `f` reads nothing of what the payout of an era writes. -/
def OutsidePayout (f : State T → τ) : Prop :=
  ∀ (s : State T) erasValidatorReward offenders balances messages events,
    f { s with erasValidatorReward, offenders, balances, messages, events } = f s

theorem OutsidePayout.depositEvent (hf : OutsidePayout f) {ε : Type} (event : Event AccountId) :
    Keeps f (depositEvent event : Dispatch ε (State T) Unit) :=
  .store fun s => hf s s.erasValidatorReward s.offenders s.balances s.messages _

theorem OutsidePayout.onMessages (hf : OutsidePayout f) {α : Type}
    (x : Dispatch DispatchError T.Messages α) :
    Keeps f (onMessages x : Dispatch DispatchError (State T) α) :=
  fun s => hf s s.erasValidatorReward s.offenders s.balances _ s.events

/-- The plan of an era is sent as the payout is. -/
theorem OutsidePayout.submitPlanNewEra (hf : OutsidePayout f) (ctx : Context AccountId) :
    Keeps f (submitPlanNewEra (T := T) ctx) := by
  refine .bind (.okOr _ _) fun payload => .bind (.attempt (hf.onMessages _)) fun res => ?_
  cases res with
  | ok _ => exact hf.depositEvent _
  | error _ => exact hf.depositEvent _

theorem drainOffenders_frame (hf : OutsidePayout f) :
    Keeps f (drainOffenders : Dispatch Fault (State T) (List Offender)) :=
  .bind (.load _) fun _ =>
    .bind (.store fun s => hf s s.erasValidatorReward ∅ s.balances s.messages s.events) fun _ =>
      .pure _

theorem expectPoints_frame (f : State T → τ) (total validators : Nat) :
    Keeps f (expectPoints (T := T) total validators) :=
  .bind (.ensure _ _) fun _ => .bind (operator_frame f _) fun _ => .pure _

theorem endingEra_frame (f : State T → τ) (sessionIndex : Nat) :
    Keeps f (endingEra (T := T) sessionIndex) := by
  refine .bind (.load _) fun activeEra => ?_
  cases activeEra with
  | none => exact .pure _
  | some activeEra =>
    refine .bind (operator_frame f _) fun _ => .bind (.load _) fun start => ?_
    cases start with
    | none => exact .pure _
    | some start => exact .bind (operator_frame f _) fun _ => .pure _

section

variable [DecidableEq AccountId]

theorem getExcludeValidators_frame (f : State T → τ) (index : Nat) :
    Keeps f (getExcludeValidators (T := T) index) := by
  unfold getExcludeValidators
  refine .bind (.load _) fun validators => .bind (.load _) fun eraRewardPoints => ?_
  split
  · exact .pure _
  · exact .bind (expectPoints_frame f _ _) fun _ => .pure _

theorem payoutEra_frame (hf : OutsidePayout f) (ctx : Context AccountId)
    (activeEra : ActiveEraInfo) (start : Nat) :
    Keeps f (payoutEra (T := T) ctx activeEra start) := by
  refine .bind (operator_frame f _) fun _ => .bind (.load _) fun validatorPayout => ?_
  refine .bind (.store fun s => hf s _ s.offenders s.balances s.messages s.events) fun _ => ?_
  refine .bind (getExcludeValidators_frame f _) fun excluded => ?_
  refine .bind (drainOffenders_frame hf) fun offenders => .bind (.okOr _ _) fun amount => ?_
  refine .bind (.store fun s => hf s s.erasValidatorReward s.offenders _ s.messages s.events)
    fun _ => .bind (.okOr _ _) fun payload => .bind (.attempt (hf.onMessages _)) fun res => ?_
  cases res with
  | ok _ => exact hf.depositEvent _
  | error _ => exact hf.depositEvent _

theorem endEra_frame (hf : OutsidePayout f) (ctx : Context AccountId) (activeEra : ActiveEraInfo)
    (sessionIndex : Nat) : Keeps f (endEra (T := T) ctx activeEra sessionIndex) := by
  unfold endEra
  refine .bind (.load _) fun eraPayout => ?_
  split
  · exact .pure _
  · cases activeEra.start with
    | none => exact .pure _
    | some start =>
      refine .bind (.load _) fun reward => ?_
      split
      · exact .pure _
      · exact payoutEra_frame hf _ _ _

/-- **The end of a session writes what the payout of an era does, however it ends.** -/
theorem endSession_frame (hf : OutsidePayout f) (ctx : Context AccountId) (sessionIndex : Nat) :
    Keeps f (SessionManager.endSession (T := T) ctx sessionIndex) := by
  refine .bind (.attempt (.bind (endingEra_frame f _) fun ending => ?_)) fun res => ?_
  · cases ending with
    | none => exact .pure _
    | some activeEra => exact endEra_frame hf _ _ _
  · rcases res with (_ | _) | _
    · exact .pure _
    · exact .fail _
    · exact .pure _

theorem endSession_kept (hf : OutsidePayout f) {ctx : Context AccountId} {sessionIndex : Nat}
    {s s' : State T} (h : SessionManager.endSession ctx sessionIndex s = (.ok (), s')) :
    f s' = f s := by
  have hkept := endSession_frame hf ctx sessionIndex s
  rwa [h] at hkept

end

/-! ## Between rotations -/

theorem Apart.clearEras (hf : Apart f) (s : State T) (first last : Nat) :
    f (s.clearEras first last) = f s := by
  unfold State.clearEras
  generalize List.range' first (last - first) = eras
  induction eras generalizing s with
  | nil => rfl
  | cons era eras ih =>
    refine (ih (s.clearEraInformation era)).trans ?_
    exact hf s (s.clearEraInformation era).toStorage

/-- The calls of the pallet. -/
theorem dispatch_frame (hf : Apart f) (origin : Origin AccountId) (call : PalletCall) :
    Keeps f (call.dispatch (T := T) origin) := by
  have hroot : Keeps f (ensureRoot (T := T) origin) := by
    cases origin with
    | root => exact .pure _
    | signed _ | none => exact .fail _
  cases call with
  | setHistoryDepth newHistoryDepth eraItemsDeleted =>
    refine .bind hroot fun _ => .bind (.load _) fun current => ?_
    cases current with
    | none => exact .pure _
    | some era =>
      exact .bind (.load _) fun depth => .bind (.store fun s => hf.clearEras s _ _) fun _ =>
        hf.store fun _ => rfl
  | forceSetEraPayout eraPayout => exact .bind hroot fun _ => hf.store fun _ => rfl

/-- The first block of an era sets the start of the era alone. -/
theorem onFinalize_frame
    (hstarted : ∀ (s : State T) activeEra start, s.activeEra = some activeEra →
      f { s with activeEra := some { activeEra with start } } = f s) (ctx : Context AccountId) :
    Keeps f (store (onFinalize ctx) : Dispatch Fault (State T) Unit) := by
  refine .store fun s => ?_
  unfold onFinalize
  cases hactive : s.activeEra with
  | none => rfl
  | some activeEra =>
    dsimp only
    split
    · exact hstarted s activeEra _ hactive
    · rfl

variable [DecidableEq AccountId]

/-- The points of authors are the only records that their blocks write. -/
theorem rewardByIds_writes
    (hpoints : ∀ (s : State T) erasRewardPoints, f { s with erasRewardPoints } = f s)
    (validatorsPoints : List (AccountId × Nat)) :
    Keeps f (rewardByIds (T := T) validatorsPoints) := by
  unfold rewardByIds
  refine .bind (.load _) fun activeEra => ?_
  cases activeEra with
  | none => exact .pure _
  | some activeEra =>
    exact .bind (.load _) fun _ => .bind (.okOr _ _) fun _ => .store fun s => hpoints s _

/-- An offence writes the offenders where it counts, and an event where it is too old. -/
theorem reportOffence_writes (hevents : ∀ (s : State T) events, f { s with events } = f s)
    (hcounted : ∀ (s : State T) offenders, f { s with offenders } = f s) (kind : Kind)
    (offenceSession : Nat) (offenders : List AccountId) (reported : Except OffenceError Unit) :
    Keeps f (reportOffence (T := T) kind offenceSession offenders reported) := by
  unfold reportOffence
  refine .bind (.load _) fun bondedEras => ?_
  split
  · cases reported with
    | error e => exact .pure _
    | ok _ =>
      exact .bind (.load _) fun _ => .bind (.okOr _ _) fun _ =>
        .bind (.store fun s => hcounted s _) fun _ => .pure _
  · exact .bind (.store fun s => hevents s _) fun _ => .pure _

theorem rewardByIds_frame (hf : Apart f) (validatorsPoints : List (AccountId × Nat)) :
    Keeps f (rewardByIds (T := T) validatorsPoints) :=
  rewardByIds_writes (fun s erasRewardPoints => hf s { s.toStorage with erasRewardPoints }) _

theorem reportOffence_frame (hf : Apart f)
    (hcounted : ∀ (s : State T) offenders, f { s with offenders } = f s) (kind : Kind)
    (offenceSession : Nat) (offenders : List AccountId) (reported : Except OffenceError Unit) :
    Keeps f (reportOffence (T := T) kind offenceSession offenders reported) :=
  reportOffence_writes (fun s events => hf s { s.toStorage with events }) hcounted _ _ _ _

/-- `f` does not read what `call` writes besides the records: the start of the active era, the
offenders, or the storages of the other pallets. -/
def Call.Leaves (f : State T → τ) : Call T → Prop
  | .onFinalize _ => ∀ (s : State T) activeEra start, s.activeEra = some activeEra →
      f { s with activeEra := some { activeEra with start } } = f s
  | .reportOffence _ _ _ _ => ∀ (s : State T) offenders, f { s with offenders } = f s
  | .elsewhere balances messages historical =>
    ∀ s : State T, f { s with balances, messages, historical } = f s
  | .rotate _ | .noteAuthor _ | .dispatch _ _ => True

theorem between_frame (hf : Apart f) {call : Call T} (h : call.Leaves f) :
    Keeps f call.between := by
  cases call with
  | rotate ctx => exact .pure _
  | onFinalize ctx => exact onFinalize_frame h ctx
  | noteAuthor author => exact rewardByIds_frame hf _
  | reportOffence kind offenceSession offenders reported =>
    exact .bind (reportOffence_frame hf h _ _ _ _) fun _ => .pure _
  | dispatch origin call => exact dispatch_frame hf origin call
  | elsewhere balances messages historical => exact .store h

/-! ## Rotations -/

/-- **A rotation is completed when the session ends, the next one starts and the one after that is
planned, one after the other.** -/
theorem rotateSession_eq_ok {ctx : Context AccountId} {session : Nat} {s s' : State T}
    {os : List (Observed AccountId)} :
    rotateSession ctx session s = (.ok os, s') ↔ ∃ os₁ os₂ s₁ s₂,
      ending ctx session s = (.ok os₁, s₁) ∧
      SessionManager.startSession ctx (session + 1) s₁ = (.ok (), s₂) ∧
      planning (SessionManager.newSession ctx (session + 2)) (session + 2) s₂ = (.ok os₂, s') ∧
      os = os₁ ++ os₂ := by
  unfold rotateSession
  constructor
  · intro h
    rw [bind_eq_ok] at h
    obtain ⟨os₁, s₁, hend, h⟩ := h
    rw [bind_eq_ok] at h
    obtain ⟨_, s₂, hstart, h⟩ := h
    rw [bind_eq_ok] at h
    obtain ⟨os₂, s₃, hplan, h⟩ := h
    obtain ⟨hos, rfl⟩ := pure_eq_ok.mp h
    exact ⟨os₁, os₂, s₁, s₂, hend, hstart, hplan, hos⟩
  · rintro ⟨os₁, os₂, s₁, s₂, hend, hstart, hplan, rfl⟩
    rw [bind_of_ok hend, bind_of_ok hstart, bind_of_ok hplan]
    rfl

/-! ## Chains -/

omit [DecidableEq AccountId] in
@[simp] theorem Chain.apply_session (c : Chain T) (x : Dispatch Fault (State T) Unit) :
    (c.apply x).session = c.session := by
  unfold Chain.apply
  rcases x c.state with ⟨_ | _, s⟩
  · rfl
  · rfl

omit [DecidableEq AccountId] in
/-- What fails is undone. -/
theorem Chain.apply_keeps (c : Chain T) {x : Dispatch Fault (State T) Unit} (hx : Keeps f x) :
    f (c.apply x).state = f c.state := by
  have hkept := hx c.state
  unfold Chain.apply
  rcases hrun : x c.state with ⟨_ | _, s⟩
  · rfl
  · rw [hrun] at hkept
    exact hkept

/-- Besides rotations, a chain applies its call. -/
theorem Chain.step_between (c : Chain T) {call : Call T} (hrotate : ∀ ctx, call ≠ .rotate ctx) :
    (c.step call).1 = c.apply call.between := by
  cases call with
  | rotate ctx => exact absurd rfl (hrotate ctx)
  | onFinalize _ | noteAuthor _ | reportOffence _ _ _ _ | dispatch _ _ | elsewhere _ _ _ => rfl

/-- **Between rotations, a chain keeps what its call does not write.** -/
theorem Chain.step_frame (hf : Apart f) (c : Chain T) {call : Call T}
    (hrotate : ∀ ctx, call ≠ .rotate ctx) (h : call.Leaves f) :
    f (c.step call).1.state = f c.state := by
  rw [c.step_between hrotate]
  exact c.apply_keeps (between_frame hf h)

/-! ## The genesis -/

section

variable {g : Genesis T} {c₀ : Chain T} {os₀ : List (Observed AccountId)}

/-- The hooks of a genesis that ends: sessions 0 and 1 are planned, and session 0 is started. -/
theorem Genesis.hooks (hchain : g.chain = some (c₀, os₀)) :
    c₀.session = 0 ∧ ∃ os₁ s₁ os₂ s₂,
      planning (SessionManager.newSession g.ctx 0) 0 g.state = (.ok os₁, s₁) ∧
      planning (SessionManager.newSession g.ctx 1) 1 s₁ = (.ok os₂, s₂) ∧
      SessionManager.startSession g.ctx 0 s₂ = (.ok (), c₀.state) := by
  unfold Genesis.chain at hchain
  rcases hrun : genesisHooks g.ctx g.state with ⟨_ | os, s⟩
  · rw [hrun] at hchain
    cases hchain
  rw [hrun] at hchain
  obtain ⟨rfl, rfl⟩ := Prod.mk.inj (Option.some.inj hchain)
  unfold genesisHooks at hrun
  rw [bind_eq_ok] at hrun
  obtain ⟨os₁, s₁, hplan₀, hrun⟩ := hrun
  rw [bind_eq_ok] at hrun
  obtain ⟨os₂, s₂, hplan₁, hrun⟩ := hrun
  rw [bind_eq_ok] at hrun
  obtain ⟨_, s₃, hstart, hrun⟩ := hrun
  obtain ⟨-, rfl⟩ := pure_eq_ok.mp hrun
  exact ⟨rfl, os₁, s₁, os₂, s₂, hplan₀, hplan₁, hstart⟩

/-- What planning keeps is as it was built when session 0 starts. -/
theorem Genesis.starts (hchain : g.chain = some (c₀, os₀))
    (hf : ∀ session, Keeps f (planning (SessionManager.newSession g.ctx session) session)) :
    ∃ s, f s = f g.state ∧ SessionManager.startSession g.ctx 0 s = (.ok (), c₀.state) := by
  obtain ⟨-, os₁, s₁, os₂, s₂, hplan₀, hplan₁, hstart⟩ := Genesis.hooks hchain
  have h₀ := hf 0 g.state
  have h₁ := hf 1 s₁
  rw [hplan₀] at h₀
  rw [hplan₁] at h₁
  exact ⟨s₂, h₁.trans h₀, hstart⟩

end

end OctopusPallets.Lpos
