import OctopusPallets.Appchain.PalletCalls

/-!
# The window of notification ids

`check_observation` accepts the ids from `NextNotificationId` up to `RequestEventLimit` further. The
upper bound is a plain `u32` sum, while the counter itself moves with `checked_add`: for the last ids
the sum wraps to a bound below the counter, and the window is empty.

* `State.inWindow_of_fits`, `State.not_inWindow_of_wraps` — which ids pass the check
* `window_exact_iff` — the check is the window over the naturals exactly when the sum fits
-/

namespace OctopusPallets.Appchain

open Infra Infra.Dispatch Infra.FixedWidth

variable {cfg : Config} {AccountId β : Type}

/-- The bounds that `check_observation` puts on the id of a notification. -/
def State.InWindow (s : State cfg AccountId β) (obsId : Nat) : Prop :=
  s.nextNotificationId ≤ obsId ∧ obsId < wrappingAdd 32 s.nextNotificationId cfg.requestEventLimit

theorem checkObservation_notification {t : ObservationType} (ht : t ≠ .updateValidatorSet)
    (obsId : Nat) (s : State cfg AccountId β) :
    (checkObservation t obsId s).1 = .ok () ↔ s.InWindow obsId := by
  unfold State.InWindow
  rw [← not_iff_not, not_and_or, Nat.not_le, Nat.not_lt]
  cases t with
  | updateValidatorSet => exact absurd rfl ht
  | burn | lockAsset | burnNft =>
    by_cases h : obsId < s.nextNotificationId ∨
        wrappingAdd 32 s.nextNotificationId cfg.requestEventLimit ≤ obsId <;>
      simp [checkObservation, h]

theorem State.inWindow_of_fits {s : State cfg AccountId β}
    (hfits : s.nextNotificationId + cfg.requestEventLimit < 2 ^ 32) (obsId : Nat) :
    s.InWindow obsId ↔
      s.nextNotificationId ≤ obsId ∧ obsId < s.nextNotificationId + cfg.requestEventLimit := by
  unfold State.InWindow
  rw [wrappingAdd_of_lt hfits]

/-- Once the sum wraps, the upper bound is below the lower one. -/
theorem State.not_inWindow_of_wraps {s : State cfg AccountId β}
    (hnext : s.nextNotificationId < 2 ^ 32) (hlimit : cfg.requestEventLimit < 2 ^ 32)
    (hwraps : 2 ^ 32 ≤ s.nextNotificationId + cfg.requestEventLimit) (obsId : Nat) :
    ¬ s.InWindow obsId := by
  rintro ⟨hlo, hhi⟩
  have hwrapped : wrappingAdd 32 s.nextNotificationId cfg.requestEventLimit
      = s.nextNotificationId + cfg.requestEventLimit - 2 ^ 32 := by
    unfold wrappingAdd
    omega
  omega

variable [DecidableEq AccountId]

/-- The window is the one over the naturals, and a quorum for its first id moves the counter. -/
structure State.WindowExact (s : State cfg AccountId β) : Prop where
  /-- The sum overflows in neither build. -/
  sum : ∀ build : Build, build.add 32 s.nextNotificationId cfg.requestEventLimit
    = some (s.nextNotificationId + cfg.requestEventLimit)
  accepts : ∀ t i, t ≠ .updateValidatorSet → i < 2 ^ 32 →
    ((checkObservation t i s).1 = .ok () ↔
      s.nextNotificationId ≤ i ∧ i < s.nextNotificationId + cfg.requestEventLimit)
  executes : ∀ (bridge : BridgeInterface AccountId β) lpos v o, o.IsNotification →
    o.observationIndex = s.nextNotificationId → s.HasRoom o →
      ((s.observing o).tryPushAbsent v).isSome → s.Passes lpos v o →
        ∃ obs vals, submitObservation bridge lpos v o s
            = (.ok (), (s.withVote o obs vals).relayed bridge o) ∧
          ((s.withVote o obs vals).relayed bridge o).nextNotificationId
            = s.nextNotificationId + 1

theorem windowExact_of_fits {s : State cfg AccountId β} (hlimit : 1 ≤ cfg.requestEventLimit)
    (hfits : s.nextNotificationId + cfg.requestEventLimit < 2 ^ 32) : s.WindowExact where
  sum build := build.add_of_lt hfits
  accepts t i ht _ := (checkObservation_notification ht i s).trans (State.inWindow_of_fits hfits i)
  executes bridge lpos v o ho hindex hroom hvoter hpasses := by
    have hwindow : s.InWindow o.observationIndex := by
      rw [State.inWindow_of_fits hfits, hindex]
      omega
    have hobs := hroom.isSome
    rw [Option.isSome_iff_exists] at hobs hvoter
    obtain ⟨obs, hobs⟩ := hobs
    obtain ⟨vals, hvals⟩ := hvoter
    have hreg : Registers s v o obs vals :=
      ⟨(State.inRange_notification ho).mpr hwindow, hobs, hvals⟩
    exact ⟨obs, vals, hreg.submitObservation_relayed bridge ho hpasses, rfl⟩

/-- The error of the counter only comes with a counter that has no successor. -/
theorem nextNotificationIdOverflow_imp {bridge : BridgeInterface AccountId β}
    {lpos : LposInterface AccountId} {v : AccountId} {o : Observation AccountId}
    {s : State cfg AccountId β}
    (herr : (submitObservation bridge lpos v o s).1 = .error .nextNotificationIdOverflow) :
    2 ^ 32 ≤ s.nextNotificationId + 1 := by
  rcases submitObservation_step bridge lpos v o s with ⟨e, hrefused, he⟩ | ⟨s', os, hok, -⟩
  · rw [he, Except.error.injEq] at herr
    subst herr
    cases hrefused with
    | nextNotificationIdOverflow _ _ h => exact h
  · rw [hok] at herr
    cases herr

/--
**Below the limit of `u32`, the window is exact if and only if its upper bound fits.**

For a counter that has a successor: the check accepts exactly the ids of the window over the naturals,
without overflow, and a quorum for the first of them is executed and moves the counter by one, if
and only if `NextNotificationId + RequestEventLimit` is below `2 ^ 32`. The error of the counter is
only returned at `u32::MAX`, with the state unchanged; but there the window is empty, and every
notification is refused by the check.
-/
theorem window_exact_iff (s : State cfg AccountId β) (hnext : s.nextNotificationId < 2 ^ 32)
    (hlimit : 1 ≤ cfg.requestEventLimit) (hlimit_lt : cfg.requestEventLimit < 2 ^ 32) :
    (s.nextNotificationId < 2 ^ 32 - 1 →
      (s.WindowExact ↔ s.nextNotificationId + cfg.requestEventLimit < 2 ^ 32)) ∧
    (∀ (bridge : BridgeInterface AccountId β) lpos v o,
      (submitObservation bridge lpos v o s).1 = .error .nextNotificationIdOverflow →
        s.nextNotificationId = 2 ^ 32 - 1 ∧ (submitObservation bridge lpos v o s).2 = s) ∧
    (s.nextNotificationId = 2 ^ 32 - 1 → ∀ (bridge : BridgeInterface AccountId β) lpos v o,
      o.IsNotification → submitObservation bridge lpos v o s = (.error .invalidNotificationId, s)) := by
  refine ⟨fun hlt => ⟨fun hexact => ?_, windowExact_of_fits hlimit⟩, ?_, ?_⟩
  · by_contra hwraps
    -- the counter itself is in the window over the naturals, but the check refuses it
    have haccepts := (hexact.accepts .burn s.nextNotificationId (by simp) hnext).mpr ⟨Nat.le_refl _,
      by omega⟩
    rw [checkObservation_notification (by simp)] at haccepts
    exact State.not_inWindow_of_wraps hnext hlimit_lt (Nat.not_lt.mp hwraps) _ haccepts
  · intro bridge lpos v o herr
    have hover := nextNotificationIdOverflow_imp herr
    exact ⟨by omega, submitObservation_state_of_error bridge lpos v o s herr⟩
  · intro hmax bridge lpos v o ho
    have hrange : ¬ s.InRange o := by
      rw [State.inRange_notification ho]
      exact State.not_inWindow_of_wraps hnext hlimit_lt (by omega) _
    obtain ⟨e, hrefused, hcheck⟩ := checkObservation_error lpos v hrange
    have herr := submitObservation_check_error (v := v) bridge lpos hcheck
    cases hrefused with
    | wrongSetId h _ => exact absurd ho h
    | invalidNotificationId _ _ => exact herr
    | observationsFull h _ | observingFull h _ => exact absurd h hrange
    | noActiveEra hreg _ | nextSetIdOverflow hreg _ _ | nextNotificationIdOverflow hreg _ _ =>
      exact absurd hreg.inRange hrange

/-- With a limit of ten, a counter of twenty less than `2 ^ 32` is fine. -/
theorem window_exact_at_twenty_below :
    let call : PalletCall Unit Nat Unit := .forceSetNextNotificationId (2 ^ 32 - 20)
    let s := (call.dispatch Sample.idleBridge (Sample.equalStakes 4) .root
      (genesisBuild Sample.config [] [] ())).2
    s.WindowExact :=
  ((window_exact_iff _ (by decide) (by decide) (by decide)).1 (by decide)).mpr (by decide)

/-- Ten below, the bound wraps to zero: root has set the counter to `2 ^ 32 - 10`, and the check
refuses the id the counter stands at. -/
theorem window_empty_at_ten_below :
    let call : PalletCall Unit Nat Unit := .forceSetNextNotificationId (2 ^ 32 - 10)
    let s := (call.dispatch Sample.idleBridge (Sample.equalStakes 4) .root
      (genesisBuild Sample.config [] [] ())).2
    s.nextNotificationId < 2 ^ 32 - 1 ∧ ¬ s.WindowExact := by
  refine ⟨by decide, fun hexact => ?_⟩
  have haccepts := (hexact.accepts .burn (2 ^ 32 - 10) (by simp) (by decide)).mpr (by decide)
  rw [checkObservation_notification (by simp)] at haccepts
  exact absurd haccepts.2 (by decide)

end OctopusPallets.Appchain
