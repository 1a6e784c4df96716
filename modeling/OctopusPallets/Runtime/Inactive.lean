import OctopusPallets.Runtime.Shared

/-!
# An inactive appchain

"Only an active appchain will communicate with the mainchain and pay block rewards." The way out is
closed: each path to the queue of messages and to a payout asks whether the appchain is active. The
way in is not: nobody asks when votes are counted, so an observation that finds a quorum takes effect.

* `State.silent_step` — no message and no payout
* `State.linked_step` — what the mainchain moves, exactly when a vote takes effect
-/

namespace OctopusPallets.Runtime

open Infra Infra.Dispatch Infra.FixedWidth

variable {AccountId : Type} {R : Config AccountId}

/-- What observations of the mainchain set or move. -/
structure Linked (R : Config AccountId) where
  plannedValidators : List (AccountId × Nat)
  nextSetId : Nat
  nextNotificationId : Nat
  notificationHistory : Nat → Option Appchain.NotificationResult
  balances : R.Balances
  assets : R.Assets
  items : R.Items

def State.linked (s : State R) : Linked R where
  plannedValidators := s.appchain.plannedValidators
  nextSetId := s.appchain.nextSetId
  nextNotificationId := s.appchain.nextNotificationId
  notificationHistory := s.appchain.notificationHistory
  balances := s.appchain.bridge.balances
  assets := s.appchain.bridge.assets
  items := s.appchain.bridge.items

/-- No call of root, and no balance that other pallets change. -/
def Step.Unprivileged (s : State R) : Step R → Prop
  | .lpos origin _ | .force origin _ | .bridge origin _ => origin ≠ .root
  | .elsewhere balances assets items _ =>
    balances = s.balances ∧ assets = s.appchain.bridge.assets ∧ items = s.items
  | _ => True

variable [DecidableEq AccountId]

/-- The step is not a vote that takes effect. -/
def Step.Idle (s : State R) : Step R → Prop
  | .vote keyData o => ¬ s.Executes keyData o
  | _ => True

instance (s : State R) : (i : Step R) → Decidable (i.Idle s)
  | .vote keyData o => inferInstanceAs (Decidable (¬ s.Executes keyData o))
  | .timestamp _ | .onInitialize _ | .onFinalize | .rotate | .noteAuthor _ | .reportOffence _ _ _ _
  | .lpos _ _ | .force _ _ | .bridge _ _ | .fees _ | .keys _ | .elsewhere _ _ _ _ => isTrue trivial

/-! ## Rotations and calls -/

/-- A rotation neither pays nor plans an era, as far as the mainchain is concerned. -/
theorem State.rotate_inactive (s : State R) (h : s.appchain.isActivated = false) :
    (s.onChain (.rotate s.context)).linked = s.linked ∧
      (s.onChain (.rotate s.context)).messages.accepted = s.messages.accepted := by
  rcases s.rotate_cases with ⟨-, hsame⟩ | ⟨os, l, hrun, hrotate⟩
  · rw [hsame]
    exact ⟨rfl, rfl⟩
  have hnever : ¬ s.context.appchain.isActivated = true := by
    intro hactive
    exact absurd (hactive.symm.trans h) (by decide)
  let f : Lpos.State R.lpos → _ := fun l => (l.balances, UpwardMessages.State.accepted l.messages)
  obtain ⟨l₁, hend, hf⟩ := Lpos.rotateSession_end (f := f) (fun _ _ => rfl) (fun _ _ _ _ => rfl)
    (fun hactive => absurd hactive hnever) hrun
  have hkept : l₁ = s.lposState := by
    cases hend with
    | unpaid _ => rfl
    | payout _ hpays _ _ => exact absurd hpays.1 hnever
  rw [hkept] at hf
  obtain ⟨hbalances, haccepted⟩ := Prod.mk.inj hf
  rw [hrotate]
  refine ⟨?_, haccepted⟩
  show ({ s.linked with balances := l.balances } : Linked R) = s.linked
  rw [hbalances]
  rfl

omit [DecidableEq AccountId] in
/-- A call of an account is refused. -/
theorem settle_inactive {T : Bridge.Config AccountId} {appchain : AppchainInterface AccountId}
    (h : appchain.isActivated = false) {origin : Origin AccountId} (horigin : origin ≠ .root)
    (call : Bridge.PalletCall AccountId) (b : Bridge.State T) :
    settle (call.dispatch appchain origin) b = b := by
  have hdispatch : ∃ e, call.dispatch appchain origin b = (.error e, b) := by
    cases origin with
    | root => exact absurd rfl horigin
    | none => exact Bridge.dispatch_none appchain call b
    | signed sender =>
      rcases Bridge.dispatch_signed appchain sender call b with he | ⟨b', -, hactive, -⟩
      · exact he
      · rw [h] at hactive
        cases hactive
  obtain ⟨e, he⟩ := hdispatch
  exact settle_of_error he

/-! ## Votes -/

/-- A vote takes effect exactly when something is moved that belongs to the mainchain. -/
theorem State.linked_vote (s : State R) (keyData : List UInt8)
    (o : Appchain.Observation AccountId) :
    (s.vote keyData o).1.linked = s.linked ↔ (Step.vote keyData o : Step R).Idle s := by
  show _ ↔ ¬ s.Executes keyData o
  unfold State.vote State.Executes
  cases s.voteOf keyData o with
  | none => simp
  | some x =>
    have hstep := Appchain.voteMachine_step Bridge.bridgeInterface x s.appchain
    show ({ s with appchain := ((Appchain.voteMachine Bridge.bridgeInterface).step x
      s.appchain).1 } : State R).linked = s.linked ↔ _
    constructor
    · rintro hlinked ⟨y, hy, heffect⟩
      obtain rfl := Option.some.inj hy
      have hcounter := Appchain.counter_of_step hstep heffect
      have hset := congrArg Linked.nextSetId hlinked
      have hnotification := congrArg Linked.nextNotificationId hlinked
      simp only [State.linked] at hset hnotification
      unfold Appchain.State.counterOf at hcounter
      rw [hset, hnotification] at hcounter
      omega
    · intro hidle
      obtain ⟨-, hkept⟩ := Appchain.step_of_not_takesEffect Bridge.bridgeInterface
        fun heffect => hidle ⟨x, rfl, heffect⟩
      rcases hkept with hsame | ⟨obs, vals, hcounted⟩
      · rw [hsame]
      · rw [hcounted]
        rfl

/-! ## Steps -/

/-- **The mainchain moves what it moves exactly by votes that take effect.** -/
theorem State.linked_step (s : State R) (h : s.appchain.isActivated = false) {i : Step R}
    (hi : i.Unprivileged s) : (s.step i).1.linked = s.linked ↔ i.Idle s := by
  have hlpos : ∀ call : Lpos.Call R.lpos, (s.onChain call).appchain.bridge = s.appchain.bridge →
      (s.onChain call).linked = s.linked := by
    intro call hbridge
    unfold State.linked
    rw [hbridge]
    rfl
  cases i with
  | vote keyData o => exact s.linked_vote keyData o
  | timestamp _ | keys _ | fees _ => exact iff_of_true rfl trivial
  | onFinalize | noteAuthor _ | reportOffence _ _ _ _ | lpos _ _ =>
    exact iff_of_true (hlpos _ (s.onChain_bridge (by simp) (by simp))) trivial
  | rotate => exact iff_of_true (s.rotate_inactive h).1 trivial
  | onInitialize now =>
    obtain ⟨messages, -, hrun⟩ := s.onInitialize_eq now
    exact iff_of_true ((congrArg State.linked hrun).trans rfl) trivial
  | force origin forced =>
    refine iff_of_true ?_ trivial
    cases origin with
    | root => exact absurd rfl hi
    | none | signed _ => cases forced <;> rfl
  | bridge origin call =>
    refine iff_of_true ?_ trivial
    show (s.withBridge (settle (call.dispatch s.appchain.appchainInterface origin)
      s.appchain.bridge)).linked = s.linked
    rw [settle_inactive h hi]
    rfl
  | elsewhere balances assets items historical =>
    obtain ⟨rfl, rfl, rfl⟩ := hi
    exact iff_of_true rfl trivial

/-- **No step submits a message or activates the appchain.** -/
theorem State.silent_step (s : State R) (h : s.appchain.isActivated = false) {i : Step R}
    (hi : i.Unprivileged s) :
    (s.step i).1.appchain.isActivated = false ∧
      (s.step i).1.messages.accepted = s.messages.accepted := by
  have hquiet : i.Quiet → (s.step i).1.messages.accepted = s.messages.accepted := by
    intro hquiet
    unfold State.messages
    rw [s.step_bridge hquiet]
  cases i with
  | vote keyData o =>
    show (s.vote keyData o).1.appchain.isActivated = false ∧
      (s.vote keyData o).1.messages.accepted = s.messages.accepted
    constructor
    · unfold State.vote
      cases s.voteOf keyData o with
      | none => exact h
      | some x =>
        exact (Appchain.isActivated_of_step
          (Appchain.voteMachine_step Bridge.bridgeInterface x s.appchain)).trans h
    · unfold State.messages
      rcases s.vote_bridge keyData o with ⟨-, hsame⟩ | ⟨-, hcalled⟩
      · rw [hsame]
      · rw [hcalled, bridgeCall_messages]
  | timestamp _ | keys _ | onFinalize | noteAuthor _ | reportOffence _ _ _ _ | lpos _ _ =>
    exact ⟨h, hquiet trivial⟩
  | force origin forced =>
    refine ⟨?_, hquiet trivial⟩
    cases origin with
    | root => exact absurd rfl hi
    | none | signed _ => cases forced <;> exact h
  | rotate => exact ⟨h, (s.rotate_inactive h).2⟩
  | onInitialize now =>
    obtain ⟨messages, haccepted, hrun⟩ := s.onInitialize_eq now
    show (s.onInitialize now).appchain.isActivated = false ∧
      (s.onInitialize now).messages.accepted = s.messages.accepted
    rw [hrun]
    exact ⟨h, haccepted⟩
  | bridge origin call =>
    refine ⟨h, ?_⟩
    show UpwardMessages.State.accepted (settle (call.dispatch s.appchain.appchainInterface origin)
      s.appchain.bridge).messages = s.messages.accepted
    rw [settle_inactive h hi]
    rfl
  | fees _ | elsewhere _ _ _ _ => exact ⟨h, rfl⟩

/-! ## Runs -/

/--
**An inactive appchain does not talk to the mainchain exactly as long as no vote takes effect.** No
message is accepted and the end of a session mints nothing, whatever accounts and validators do until
root intervenes. What observations move stays as it is in every state reached if and only if no vote
of the run completes the quorum of an observation that is due.
-/
theorem inactive_is_silent_iff (s₀ : State R) (h₀ : s₀.appchain.isActivated = false)
    (steps : List (Step R)) (hsteps : (machine R).Along (fun s i => i.Unprivileged s) steps s₀) :
    let s := (machine R).run steps s₀
    (s.messages.accepted = s₀.messages.accepted ∧
      ∀ session, (Lpos.SessionManager.endSession s.context session s.lposState).2 = s.lposState) ∧
    ((∀ is, is <+: steps → ((machine R).run is s₀).linked = s₀.linked) ↔
      (machine R).Along (fun s i => i.Idle s) steps s₀) := by
  intro s
  constructor
  · have hrun := (machine R).invariant (P := fun s i => i.Unprivileged s)
      (I := fun _ s _ => s.appchain.isActivated = false ∧
        s.messages.accepted = s₀.messages.accepted) ⟨h₀, rfl⟩ ?_ steps hsteps
    · exact ⟨hrun.2, fun session => Lpos.endSession_of_inactive hrun.1 session _⟩
    · rintro _ s _ i ⟨h, haccepted⟩ hi
      obtain ⟨hinactive, hsame⟩ := s.silent_step h hi
      exact ⟨hinactive, hsame.trans haccepted⟩
  · refine (machine R).prefixes_iff (Q := fun s i => i.Unprivileged s)
      (J := fun s => s.appchain.isActivated = false) (I := fun _ s => s.linked = s₀.linked)
      (fun s i h hi => (s.silent_step h hi).1) ?_ steps [] s₀ h₀ hsteps rfl
    intro _ s i h hi hlinked
    show (s.step i).1.linked = s₀.linked ↔ i.Idle s
    rw [← hlinked]
    exact s.linked_step h hi

namespace Sample

/-- A lock that is refused, a vote that one of two validators casts, and a session that ends. -/
def refusals : List (Step config) :=
  [.bridge (.signed 0) (.lock [97] 100), .vote [1] (.lockAsset ⟨0, [116], [], 1, 50⟩), .rotate]

end Sample

/-- The vote of validator 1 is entered and makes no quorum without validator 2. -/
theorem inactive_is_silent_after_refusals :
    ∃ s₀, Sample.pair.start = some s₀ ∧
      let s := (machine Sample.config).run Sample.refusals s₀
      (s.appchain.observing (.lockAsset ⟨0, [116], [], 1, 50⟩)).val = [1] ∧
      s.messages.accepted = s₀.messages.accepted ∧
      ∀ is, is <+: Sample.refusals → ((machine Sample.config).run is s₀).linked = s₀.linked := by
  have hstart : Sample.pair.start = some (Sample.pair.start.get rfl) := rfl
  obtain ⟨⟨hmessages, -⟩, hlinked⟩ := inactive_is_silent_iff (Sample.pair.start.get rfl) (by decide)
    Sample.refusals ⟨(nofun : (Origin.signed 0 : Origin Nat) ≠ .root), trivial, trivial, trivial⟩
  refine ⟨_, hstart, by decide, hmessages, hlinked.mpr ?_⟩
  decide

/-- The vote of the only validator mints 50 units of asset 7 while the appchain is inactive. -/
theorem inactive_appchain_mints :
    ∃ s₀, Sample.genesis.start = some s₀ ∧ s₀.appchain.isActivated = false ∧
      let s := ((machine Sample.config).step (.vote [1] (.lockAsset ⟨0, [116], [], 1, 50⟩)) s₀).1
      s.linked ≠ s₀.linked ∧ s₀.appchain.nextNotificationId = 0 ∧
        s.appchain.nextNotificationId = 1 ∧
        s.appchain.notificationHistory 0 = some .success ∧ s₀.appchain.bridge.assets 7 1 = 0 ∧
        s.appchain.bridge.assets 7 1 = 50 := by
  refine ⟨_, rfl, rfl, ?_, ?_⟩
  · intro hlinked
    cases congrArg Linked.nextNotificationId hlinked
  · decide

end OctopusPallets.Runtime
