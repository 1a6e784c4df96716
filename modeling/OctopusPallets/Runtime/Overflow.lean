import OctopusPallets.Lpos.Aborts
import OctopusPallets.Runtime.AnchorEras

/-!
# Overflow in the session hooks

Root can set the counter of the validator sets, the depth of the history and the planned validators
to anything, and blocks can be authored by others than the validators of the era. So each of the
three operators that can fail in a rotation does fail in some state that is reached. What keeps the
others in range is that the set id stays in `u32` and that no era starts in the future.

* `session_hooks_safe_iff` — the states in which the hooks do not overflow
-/

namespace OctopusPallets.Runtime

open Infra Infra.Dispatch Infra.FixedWidth

variable {AccountId : Type} [DecidableEq AccountId] {R : Config AccountId}

/-- The three hooks of the next rotation perform no operation whose result does not fit: the debug
build goes through. -/
def State.HooksFit (s : State R) : Prop :=
  ∃ os l, Lpos.rotateSession s.context s.session s.lposState.debug = (.ok os, l)

instance (s : State R) : Decidable s.HooksFit :=
  decidable_of_iff
    ((Lpos.rotateSession s.context s.session s.lposState.debug).1.toOption.isSome = true) <| by
    unfold State.HooksFit
    generalize Lpos.rotateSession s.context s.session s.lposState.debug = r
    obtain ⟨_ | os, l⟩ := r <;> simp [Except.toOption]

omit [DecidableEq AccountId] in
/-- The clock does not run backwards, and the arguments of root are of their types. -/
def Step.Typed (s : State R) : Step R → Prop
  | .timestamp now => s.now ≤ now
  | .force _ (.nextSetId id) => id < 2 ^ 32
  | _ => True

instance (s : State R) (i : Step R) : Decidable (i.Typed s) := by
  rcases i with _ | _ | _ | _ | _ | _ | _ | _ | ⟨_, _ | _ | _ | _⟩ | _ | _ | _ | _ <;>
    unfold Step.Typed <;> infer_instance

omit [DecidableEq AccountId] in
/-- What every reachable state has in range. -/
structure Timed (s : State R) : Prop where
  setId_lt : s.appchain.nextSetId < 2 ^ 32
  started : s.lposState.Started s.context

namespace Timed

variable {s s' : State R}

omit [DecidableEq AccountId] in
/-- Only the set id, the active era and the clock matter. -/
theorem same (h : Timed s) (hset : s'.appchain.nextSetId = s.appchain.nextSetId)
    (hactive : s'.lpos.activeEra = s.lpos.activeEra) (hnow : s.now ≤ s'.now) : Timed s' := by
  refine ⟨by rw [hset]; exact h.setId_lt, fun activeEra start hactive' hstart => ?_⟩
  have hle : start ≤ min s.now (2 ^ 64 - 1) := h.started activeEra start (hactive ▸ hactive') hstart
  show start ≤ min s'.now (2 ^ 64 - 1)
  omega

theorem onChain (h : Timed s) {call : Lpos.Call R.lpos} (hrotate : ∀ ctx, call ≠ .rotate ctx)
    (hfinalize : ∀ ctx, call ≠ .onFinalize ctx) : Timed (s.onChain call) := by
  have hkept := s.chain.apply_keeps (Lpos.between_keeps_started hfinalize)
  rw [← s.chain.step_between hrotate] at hkept
  exact h.same rfl (congrArg Prod.fst hkept) (Nat.le_refl _)

/-- A rotation starts an era without a start. -/
theorem rotated (h : Timed s) : Timed (s.onChain (.rotate s.context)) := by
  unfold State.onChain
  have hstep : (s.chain.step (.rotate s.context)).1 = (s.chain.rotate s.context).1 := rfl
  rw [hstep]
  unfold Lpos.Chain.rotate
  rcases hrun : Lpos.rotateSession s.context s.chain.session s.chain.state with ⟨_ | os, l⟩
  · exact h
  rcases Lpos.rotateSession_activeEra s.context hrun with hsame | ⟨activeEra, hactive, hstart⟩
  · exact h.same rfl hsame (Nat.le_refl _)
  · refine ⟨h.setId_lt, fun activeEra' start hactive' hstart' => ?_⟩
    obtain rfl := Option.some.inj (hactive.symm.trans hactive')
    rw [hstart] at hstart'
    cases hstart'

/-- The first block of an era starts it now. -/
theorem finalized (h : Timed s) : Timed (s.onChain (.onFinalize s.context)) := by
  refine ⟨h.setId_lt, fun activeEra start hactive hstart => ?_⟩
  have hactive : (Lpos.onFinalize s.context s.lposState).activeEra = some activeEra := hactive
  unfold Lpos.onFinalize at hactive
  cases hbefore : s.lpos.activeEra with
  | none =>
    have hnone : s.lposState.activeEra = none := hbefore
    rw [hnone] at hactive
    exact absurd (hnone.symm.trans hactive) (by simp)
  | some before =>
    have hsome : s.lposState.activeEra = some before := hbefore
    rw [hsome] at hactive
    dsimp only at hactive
    split at hactive
    · obtain rfl := Option.some.inj hactive
      exact Nat.le_of_eq (Option.some.inj hstart).symm
    · exact h.started activeEra start hactive hstart

/-- A vote moves the counter by one at most, and not past its range. -/
theorem voted (h : Timed s) (keyData : List UInt8) (o : Appchain.Observation AccountId) :
    Timed (s.vote keyData o).1 := by
  unfold State.vote
  cases s.voteOf keyData o with
  | none => exact h
  | some x =>
    have hstep := Appchain.voteMachine_step Bridge.bridgeInterface x s.appchain
    dsimp only
    generalize (Appchain.voteMachine Bridge.bridgeInterface).step x s.appchain = r at hstep ⊢
    obtain ⟨a, os⟩ := r
    refine ⟨?_, h.started⟩
    cases hstep with
    | refused _ | counted _ _ _ | relayed _ _ _ _ _ => exact h.setId_lt
    | installed _ _ _ _ hlt => exact hlt

theorem step (h : Timed s) {i : Step R} (htyped : i.Typed s) : Timed (s.step i).1 := by
  cases i with
  | timestamp now => exact h.same rfl rfl htyped
  | rotate => exact h.rotated
  | onFinalize => exact h.finalized
  | vote keyData o => exact h.voted keyData o
  | noteAuthor _ => exact h.onChain (by simp) (by simp)
  | reportOffence _ _ _ _ => exact h.onChain (by simp) (by simp)
  | lpos _ _ => exact h.onChain (by simp) (by simp)
  | force origin forced =>
    cases origin with
    | signed _ | none => cases forced <;> exact h.same rfl rfl (Nat.le_refl _)
    | root =>
      cases forced with
      | nextSetId id => exact ⟨htyped, h.started⟩
      | isActivated _ | plannedValidators _ | nextNotificationId _ =>
        exact h.same rfl rfl (Nat.le_refl _)
  | onInitialize now =>
    show Timed (s.onInitialize now)
    obtain ⟨messages, -, hrun⟩ := s.onInitialize_eq now
    rw [hrun]
    exact h.same rfl rfl (Nat.le_refl _)
  | bridge _ _ | fees _ | keys _ | elsewhere _ _ _ _ => exact h.same rfl rfl (Nat.le_refl _)

end Timed

theorem Genesis.timed (g : Genesis R) {s₀ : State R} (hstart : g.start = some s₀) : Timed s₀ := by
  obtain ⟨⟨c₀, os₀⟩, hchain, rfl⟩ := Option.map_eq_some_iff.mp hstart
  refine ⟨show 1 < 2 ^ 32 by decide, fun activeEra start hactive hstart => ?_⟩
  rw [g.lpos.activeEra_start hchain hactive] at hstart
  cases hstart

/--
**Where the session hooks do not overflow.** In every state that is reached, with room for the next
indices, the three hooks go through in a debug build if and only if an era that starts finds a set
id, an era that is planned finds a depth with a successor, and an era that is paid has no points, or
stakers, and a threshold that fits.
-/
theorem session_hooks_safe_iff (g : Genesis R) {s₀ : State R} (hstart : g.start = some s₀)
    (steps : List (Step R)) (hsteps : (machine R).Along (fun s i => i.Typed s) steps s₀)
    (hfits : ((machine R).run steps s₀).lposState.IndicesFit ((machine R).run steps s₀).session) :
    ((machine R).run steps s₀).HooksFit ↔
      ((machine R).run steps s₀).lposState.Safe ((machine R).run steps s₀).context
        ((machine R).run steps s₀).session := by
  have h : Timed ((machine R).run steps s₀) :=
    (machine R).invariant (I := fun _ s _ => Timed s) (g.timed hstart)
      (fun _ s _ i h hi => h.step hi) steps hsteps
  have hsafe : ((machine R).run steps s₀).HooksFit ↔ Lpos.State.Safe
      ((machine R).run steps s₀).lposState.debug ((machine R).run steps s₀).context
        ((machine R).run steps s₀).session :=
    Lpos.rotateSession_safe_iff rfl ⟨hfits.session, hfits.active, hfits.current⟩ h.started
      h.setId_lt
  refine hsafe.trans ⟨fun hs => ⟨hs.starts, hs.plans, hs.pays⟩,
    fun hs => ⟨hs.starts, hs.plans, hs.pays⟩⟩

/-- Era 1 is planned and has not been started. -/
theorem session_hooks_safe_before_start :
    ∃ s₀, Sample.genesis.start = some s₀ ∧
      ((machine Sample.config).run [.rotate] s₀).HooksFit ∧
      ((machine Sample.config).run [.rotate] s₀).lposState.timeline.startsEra
        (((machine Sample.config).run [.rotate] s₀).session + 1) = true := by
  refine ⟨_, rfl, ?_, by decide⟩
  refine (session_hooks_safe_iff Sample.genesis rfl [.rotate] (by decide) (by decide)).mpr
    ⟨by decide, by decide, fun activeEra _ hpays => ?_⟩
  -- the appchain is not activated
  exact absurd hpays.1 (by decide)

/-- Root takes the set id of the next era away, or the room above the depth of the history, or the
stakers of the next era. These are missed when that era ends, if someone has authored a block. -/
theorem session_hooks_overflow :
    ∃ s₀, Sample.genesis.start = some s₀ ∧
      ∀ steps ∈ ([[.rotate, .force .root (.nextSetId 0)],
          [.lpos .root (.setHistoryDepth (2 ^ 32 - 1) 0)],
          [.force .root (.isActivated true), .force .root (.plannedValidators []), .rotate,
            .rotate, .noteAuthor 1, .onFinalize, .rotate]] : List (List (Step Sample.config))),
        (machine Sample.config).Along (fun s i => i.Typed s) steps s₀ ∧
          ((machine Sample.config).run steps s₀).lposState.IndicesFit
            ((machine Sample.config).run steps s₀).session ∧
          ¬ ((machine Sample.config).run steps s₀).HooksFit := by
  refine ⟨_, rfl, fun steps hsteps => ?_⟩
  simp only [List.mem_cons, List.not_mem_nil, or_false] at hsteps
  rcases hsteps with rfl | rfl | rfl <;> decide

end OctopusPallets.Runtime
