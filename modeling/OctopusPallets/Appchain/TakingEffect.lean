import OctopusPallets.Appchain.Sequencing

/-!
# Whether a vote takes effect

Of the votes, only those that complete a quorum do more than to be counted. `TakesEffect` says which
they are, in the state before the vote.
-/

namespace OctopusPallets.Appchain

open Infra Infra.Dispatch Infra.FixedWidth

variable {cfg : Config} {AccountId β : Type}

/-- The counter that an observation moves. -/
def State.counterOf (s : State cfg AccountId β) (o : Observation AccountId) : Nat :=
  if o.IsNotification then s.nextNotificationId else s.nextSetId

variable [DecidableEq AccountId]

/-- The vote `x` makes a quorum, and its observation is executed. -/
structure State.TakesEffect (s : State cfg AccountId β) (x : Vote AccountId) : Prop where
  inRange : s.InRange x.observation
  hasRoom : ((s.observations (x.observation.getObservationType,
    x.observation.observationIndex)).tryPushAbsent x.observation).isSome
  hasVoterRoom : ((s.observing x.observation).tryPushAbsent x.validatorId).isSome
  passes : s.Passes x.lpos x.validatorId x.observation
  lt : s.counterOf x.observation + 1 < 2 ^ 32

instance (s : State cfg AccountId β) (x : Vote AccountId) : Decidable (s.TakesEffect x) :=
  decidable_of_iff (_ ∧ _ ∧ _ ∧ _ ∧ _)
    ⟨fun ⟨h₁, h₂, h₃, h₄, h₅⟩ => ⟨h₁, h₂, h₃, h₄, h₅⟩,
      fun ⟨h₁, h₂, h₃, h₄, h₅⟩ => ⟨h₁, h₂, h₃, h₄, h₅⟩⟩

variable {s : State cfg AccountId β} {x : Vote AccountId}

theorem Refused.not_takesEffect {e : Error}
    (h : Refused x.lpos x.validatorId x.observation s e) : ¬ s.TakesEffect x := by
  intro heffect
  cases h with
  | wrongSetId _ h | invalidNotificationId _ h => exact h heffect.inRange
  | observationsFull _ h => simpa [h] using heffect.hasRoom
  | observingFull _ h => simpa [h] using heffect.hasVoterRoom
  | noActiveEra _ h =>
    obtain ⟨T, hT, -⟩ := State.passes_iff.mp heffect.passes
    rw [h] at hT
    cases hT
  | nextSetIdOverflow _ ho h =>
    have hlt := heffect.lt
    rw [State.counterOf, if_neg ho] at hlt
    omega
  | nextNotificationIdOverflow _ ho h =>
    have hlt := heffect.lt
    rw [State.counterOf, if_pos ho] at hlt
    omega

theorem Registers.takesEffect {obs vals T}
    (hreg : Registers s x.validatorId x.observation obs vals)
    (htotal : x.lpos.activeTotalStake = some T)
    (hquorum : twoThirds (stakeOf x.lpos vals.val) T = true)
    (hlt : s.counterOf x.observation + 1 < 2 ^ 32) : s.TakesEffect x :=
  ⟨hreg.inRange, by rw [hreg.observations]; rfl, by rw [hreg.observing]; rfl,
    (hreg.passes_iff htotal).mpr hquorum, hlt⟩

/-- **A step emits its observation exactly when the vote takes effect.** -/
theorem effects_of_step {bridge : BridgeInterface AccountId β} {s' : State cfg AccountId β}
    {os : List (Observation AccountId)}
    (hstep : VoteStep bridge x.lpos x.validatorId x.observation s s' os) :
    os = if s.TakesEffect x then [x.observation] else [] := by
  cases hstep with
  | refused h => rw [if_neg h.not_takesEffect]
  | counted hreg htotal hquorum =>
    rw [if_neg]
    intro heffect
    rw [(hreg.passes_iff htotal).mp heffect.passes] at hquorum
    cases hquorum
  | installed hreg htotal hquorum hset hlt =>
    have hcounter : s.counterOf x.observation + 1 < 2 ^ 32 := by
      rw [State.counterOf, if_neg (by rw [hset]; exact fun ho => ho rfl)]
      exact hlt
    rw [if_pos (hreg.takesEffect htotal hquorum hcounter)]
  | relayed hreg htotal hquorum ho hlt =>
    have hcounter : s.counterOf x.observation + 1 < 2 ^ 32 := by
      rw [State.counterOf, if_pos ho]
      exact hlt
    rw [if_pos (hreg.takesEffect htotal hquorum hcounter)]

/-- The bridge is called for an observation that takes effect, and not otherwise. -/
theorem bridge_of_step {bridge : BridgeInterface AccountId β} {s' : State cfg AccountId β}
    {os : List (Observation AccountId)}
    (hstep : VoteStep bridge x.lpos x.validatorId x.observation s s' os) :
    s'.bridge
      = if s.TakesEffect x then (x.observation.bridgeCall bridge s.bridge).2 else s.bridge := by
  have hos := effects_of_step hstep
  by_cases heffect : s.TakesEffect x
  · rw [if_pos heffect] at hos ⊢
    subst hos
    cases hstep with
    | installed _ _ _ hset _ => rw [hset]; rfl
    | relayed _ _ _ _ _ => rfl
  · rw [if_neg heffect] at hos ⊢
    subst hos
    cases hstep with
    | refused _ => rfl
    | counted _ _ _ => rfl

/-- A notification that takes effect is recorded with what the bridge has returned. -/
theorem history_of_step {bridge : BridgeInterface AccountId β} {s' : State cfg AccountId β}
    {os : List (Observation AccountId)}
    (hstep : VoteStep bridge x.lpos x.validatorId x.observation s s' os)
    (heffect : s.TakesEffect x) (ho : x.observation.IsNotification) :
    s'.notificationHistory x.observation.observationIndex
      = some (x.observation.notificationResult (x.observation.bridgeCall bridge s.bridge).1) := by
  have hos := effects_of_step hstep
  rw [if_pos heffect] at hos
  subst hos
  cases hstep with
  | installed _ _ _ hset _ =>
    rw [hset] at ho
    exact absurd rfl ho
  | relayed _ _ _ _ _ => exact Function.update_self ..

/-- The counter moves when an observation takes effect. -/
theorem counter_of_step {bridge : BridgeInterface AccountId β} {s' : State cfg AccountId β}
    {os : List (Observation AccountId)}
    (hstep : VoteStep bridge x.lpos x.validatorId x.observation s s' os)
    (heffect : s.TakesEffect x) :
    s'.counterOf x.observation = s.counterOf x.observation + 1 := by
  have hos := effects_of_step hstep
  rw [if_pos heffect] at hos
  subst hos
  unfold State.counterOf
  cases hstep with
  | installed _ _ _ hset _ =>
    have hno : ¬ x.observation.IsNotification := by
      rw [hset]
      exact fun ho => ho rfl
    rw [if_neg hno, if_neg hno]
    rfl
  | relayed _ _ _ ho _ =>
    rw [if_pos ho, if_pos ho]
    rfl

/-- No vote touches the activation. -/
theorem isActivated_of_step {bridge : BridgeInterface AccountId β} {s' : State cfg AccountId β}
    {os : List (Observation AccountId)}
    (hstep : VoteStep bridge x.lpos x.validatorId x.observation s s' os) :
    s'.isActivated = s.isActivated := by
  cases hstep <;> rfl

/-- A vote without effect changes the vote book at most. -/
theorem step_of_not_takesEffect (bridge : BridgeInterface AccountId β)
    (h : ¬ s.TakesEffect x) :
    ((voteMachine bridge).step x s).2 = [] ∧
      (((voteMachine bridge).step x s).1 = s ∨
        ∃ obs vals, ((voteMachine bridge).step x s).1 = s.withVote x.observation obs vals) := by
  have hstep := voteMachine_step bridge x s
  have hos := effects_of_step hstep
  rw [if_neg h] at hos
  refine ⟨hos, ?_⟩
  rw [hos] at hstep
  generalize ((voteMachine bridge).step x s).1 = s' at hstep ⊢
  cases hstep with
  | refused _ => exact Or.inl rfl
  | counted _ _ _ => exact Or.inr ⟨_, _, rfl⟩

end OctopusPallets.Appchain
