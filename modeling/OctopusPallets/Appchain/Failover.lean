import OctopusPallets.Appchain.AccountStrings
import OctopusPallets.Appchain.Pallet

/-!
# Two endpoints for the same answer

`observing_mainchain` asks for a validator set, and for notifications when there is none. Each query
that fails is made again at the secondary endpoint, but inside of `map_err`, so that its answer
takes the place of the error and is dropped with it.

* `observe_of_failed` — what is left of a query that failed once
* `fails_over_iff` — the answers for which the failover works
-/

namespace OctopusPallets.Appchain

open Infra Infra.Attempt

variable {AccountId Public β : Type} {cfg : Config}

/-! ## Observing -/

inductive Endpoint where
  | primary
  | secondary
deriving DecidableEq

/-- The two queries, as `observing_mainchain` calls them. -/
structure MainchainQueries (AccountId : Type) where
  getValidatorListOf : Endpoint → (anchorContract : List UInt8) → (setId : Nat) →
    Attempt HttpError (List (Observation AccountId))
  getAppchainNotificationHistories : Endpoint → (anchorContract : List UInt8) →
    (index limit : Nat) → Attempt HttpError (List (Observation AccountId))

/-- The queries over HTTP. -/
def mainchainQueries (o : Outside AccountId) (url : Endpoint → String) :
    MainchainQueries AccountId where
  getValidatorListOf e := Appchain.getValidatorListOf o (url e)
  getAppchainNotificationHistories e := Appchain.getAppchainNotificationHistories o (url e)

/-- `map_err` with a closure that asks again: the new answer becomes the error. -/
def retrying {ε α : Type} (query again : Attempt ε α) : Attempt (Except ε α) α :=
  match query with
  | .ok a => .ok a
  | .error .abort => .error .abort
  | .error (.error _) =>
    match again with
    | .error .abort => .error .abort
    | .ok a => .error (.error (.ok a))
    | .error (.error e) => .error (.error (.error e))

/-- The observations that `observing_mainchain` finds, in one of its two stages. -/
def observe (q : MainchainQueries AccountId) (anchorContract : List UInt8)
    (s : State cfg AccountId β) : Attempt String (List (Observation AccountId)) := do
  let obs ← mapErr (fun _ => "Failed to get_validator_list_of")
    (retrying (q.getValidatorListOf .primary anchorContract s.nextSetId)
      (q.getValidatorListOf .secondary anchorContract s.nextSetId))
  -- check cross-chain transfers only if there isn't a validator_set update
  if obs.isEmpty then
    mapErr (fun _ => "Failed to get_appchain_notification_histories")
      (retrying
        (q.getAppchainNotificationHistories .primary anchorContract s.nextNotificationId
          cfg.requestEventLimit)
        (q.getAppchainNotificationHistories .secondary anchorContract s.nextNotificationId
          cfg.requestEventLimit))
  else pure obs

/-- The keys of the node, and the transaction pool. -/
structure Signer (Public AccountId : Type) where
  /-- `all_accounts().with_filter(..)`. -/
  accounts : Public → List Public
  submit : ObservationsPayload Public AccountId → Except Unit Unit

/-- The payloads that are signed and submitted for these observations. -/
def Signer.payloads (signer : Signer Public AccountId) (key : Public) (keyData : List UInt8)
    (blockNumber : Nat) (obs : List (Observation AccountId)) :
    List (ObservationsPayload Public AccountId) :=
  (signer.accounts key).map fun account => ⟨account, keyData, blockNumber, obs⟩

/-- `observing_mainchain`: its result, and the payloads it submits. -/
def observingMainchain (q : MainchainQueries AccountId) (signer : Signer Public AccountId)
    (s : State cfg AccountId β) (blockNumber : Nat) (anchorContract : List UInt8) (key : Public)
    (keyData : List UInt8) :
    Attempt String Unit × List (ObservationsPayload Public AccountId) :=
  match observe q anchorContract s with
  | .error e => (.error e, [])
  | .ok obs =>
    if obs.isEmpty then (.ok (), [])
    else
      let payloads := signer.payloads key keyData blockNumber obs
      match payloads.map signer.submit with
      | [.ok _] => (.ok (), payloads)
      | [.error _] => (.error (.error "Failed to submit observations"), payloads)
      | _ => (.error (.error "No account found"), payloads)

/-! ## Failing over -/

/-- The answer of the primary endpoint, or otherwise that of the secondary one. -/
def stageResult {ε α : Type} (primary secondary : Attempt ε α) : Option α :=
  match primary with
  | .ok a => some a
  | .error _ =>
    match secondary with
    | .ok a => some a
    | .error _ => none

/-- The answer of the first stage, or that of the second one if it is empty. -/
def expectedObservations (q : MainchainQueries AccountId) (anchorContract : List UInt8)
    (s : State cfg AccountId β) : Option (List (Observation AccountId)) :=
  (stageResult (q.getValidatorListOf .primary anchorContract s.nextSetId)
    (q.getValidatorListOf .secondary anchorContract s.nextSetId)).bind fun obs =>
      if obs.isEmpty then
        stageResult
          (q.getAppchainNotificationHistories .primary anchorContract s.nextNotificationId
            cfg.requestEventLimit)
          (q.getAppchainNotificationHistories .secondary anchorContract s.nextNotificationId
            cfg.requestEventLimit)
      else some obs

def Fails {ε α : Type} (x : Attempt ε α) : Prop := ∃ e, x = .error (.error e)

def Succeeds {ε α : Type} (x : Attempt ε α) : Prop := ∃ a, x = .ok a

/-- The failover works: what is submitted is what one of the endpoints answered, and a stage only
fails when both endpoints do. -/
structure FailsOver (q : MainchainQueries AccountId) (signer : Signer Public AccountId)
    (s : State cfg AccountId β) (blockNumber : Nat) (anchorContract : List UInt8) (key : Public)
    (keyData : List UInt8) : Prop where
  submitted : (observingMainchain q signer s blockNumber anchorContract key keyData).2
    = match expectedObservations q anchorContract s with
      | some obs => if obs.isEmpty then [] else signer.payloads key keyData blockNumber obs
      | none => []
  validators : (observingMainchain q signer s blockNumber anchorContract key keyData).1
      = .error (.error "Failed to get_validator_list_of") →
    ∀ e, Fails (q.getValidatorListOf e anchorContract s.nextSetId)
  notifications : (observingMainchain q signer s blockNumber anchorContract key keyData).1
      = .error (.error "Failed to get_appchain_notification_histories") →
    ∀ e, Fails (q.getAppchainNotificationHistories e anchorContract s.nextNotificationId
      cfg.requestEventLimit)

theorem fails_or_succeeds {ε α : Type} {x : Attempt ε α} (h : ¬ x.Aborts) :
    Fails x ∨ Succeeds x := by
  rcases x with (_ | e) | a
  · exact absurd rfl h
  · exact Or.inl ⟨e, rfl⟩
  · exact Or.inr ⟨a, rfl⟩

theorem Fails.not_succeeds {ε α : Type} {x : Attempt ε α} (h : Fails x) : ¬ Succeeds x := by
  obtain ⟨e, rfl⟩ := h
  rintro ⟨a, ha⟩
  cases ha

/-- **A query that fails is an error, whatever the other endpoint answers.** -/
theorem mapErr_retrying_of_fails {ε ε' α : Type} {query again : Attempt ε α} (hquery : Fails query)
    (hagain : ¬ again.Aborts) (message : ε') :
    mapErr (fun _ => message) (retrying query again) = .error (.error message) := by
  obtain ⟨e, rfl⟩ := hquery
  rcases fails_or_succeeds hagain with ⟨e', rfl⟩ | ⟨a, rfl⟩
  · rfl
  · rfl

theorem stageResult_of_fails {ε α : Type} {primary secondary : Attempt ε α}
    (hprimary : Fails primary) (hsecondary : Fails secondary) :
    stageResult primary secondary = none := by
  obtain ⟨e, rfl⟩ := hprimary
  obtain ⟨e', rfl⟩ := hsecondary
  rfl

/-! ## What is observed -/

section Observed

variable {q : MainchainQueries AccountId}
  {s : State cfg AccountId β} {anchorContract : List UInt8}

/-- The second stage does not take place when the first one failed. -/
theorem observe_of_failed
    (hfails : Fails (q.getValidatorListOf .primary anchorContract s.nextSetId))
    (hsecondary : ¬ (q.getValidatorListOf .secondary anchorContract s.nextSetId).Aborts) :
    observe q anchorContract s = .error (.error "Failed to get_validator_list_of") := by
  unfold observe
  rw [mapErr_retrying_of_fails hfails hsecondary]
  rfl

theorem observe_of_validators {o : Observation AccountId} {obs : List (Observation AccountId)}
    (h : q.getValidatorListOf .primary anchorContract s.nextSetId = .ok (o :: obs)) :
    observe q anchorContract s = .ok (o :: obs) := by
  unfold observe
  rw [h]
  rfl

theorem observe_of_no_validators
    (h : q.getValidatorListOf .primary anchorContract s.nextSetId = .ok []) :
    observe q anchorContract s = mapErr (fun _ => "Failed to get_appchain_notification_histories")
      (retrying
        (q.getAppchainNotificationHistories .primary anchorContract s.nextNotificationId
          cfg.requestEventLimit)
        (q.getAppchainNotificationHistories .secondary anchorContract s.nextNotificationId
          cfg.requestEventLimit)) := by
  unfold observe
  rw [h]
  rfl

theorem observingMainchain_of_error {e : Failure String}
    (h : observe q anchorContract s = .error e) (signer : Signer Public AccountId)
    (blockNumber : Nat) (key : Public) (keyData : List UInt8) :
    observingMainchain q signer s blockNumber anchorContract key keyData = (.error e, []) := by
  unfold observingMainchain
  rw [h]

/-- What is observed is submitted, and then no error is that of a stage. -/
theorem observingMainchain_of_ok {obs : List (Observation AccountId)}
    (h : observe q anchorContract s = .ok obs) (signer : Signer Public AccountId)
    (blockNumber : Nat) (key : Public) (keyData : List UInt8) :
    (observingMainchain q signer s blockNumber anchorContract key keyData).2
        = (if obs.isEmpty then [] else signer.payloads key keyData blockNumber obs) ∧
      ∀ message, (observingMainchain q signer s blockNumber anchorContract key keyData).1
          = .error (.error message) →
        message = "Failed to submit observations" ∨ message = "No account found" := by
  unfold observingMainchain
  rw [h]
  cases obs with
  | nil => exact ⟨rfl, fun _ hmessage => by cases hmessage⟩
  | cons o obs =>
    simp only [List.isEmpty_cons, Bool.false_eq_true, if_false]
    split
    · exact ⟨rfl, fun _ hmessage => by cases hmessage⟩
    · exact ⟨rfl, fun _ hmessage => Or.inl (by cases hmessage; rfl)⟩
    · exact ⟨rfl, fun _ hmessage => Or.inr (by cases hmessage; rfl)⟩

variable (signer : Signer Public AccountId) (blockNumber : Nat) (key : Public)
  (keyData : List UInt8)

/-- The failover works when what is observed is what should be. -/
theorem failsOver_of_observed {obs : List (Observation AccountId)}
    (hobs : observe q anchorContract s = .ok obs)
    (hexpected : expectedObservations q anchorContract s = some obs) :
    FailsOver q signer s blockNumber anchorContract key keyData := by
  obtain ⟨hsubmitted, hmessage⟩ := observingMainchain_of_ok hobs signer blockNumber key keyData
  refine ⟨?_, fun h => ?_, fun h => ?_⟩
  · rw [hsubmitted, hexpected]
  · rcases hmessage _ h with h | h <;> simp at h
  · rcases hmessage _ h with h | h <;> simp at h

/-- The failover works when a stage fails at both endpoints. -/
theorem failsOver_of_failed {message : String}
    (hobs : observe q anchorContract s = .error (.error message))
    (hexpected : expectedObservations q anchorContract s = none)
    (hvalidators : message = "Failed to get_validator_list_of" →
      ∀ e, Fails (q.getValidatorListOf e anchorContract s.nextSetId))
    (hnotifications : message = "Failed to get_appchain_notification_histories" →
      ∀ e, Fails (q.getAppchainNotificationHistories e anchorContract s.nextNotificationId
        cfg.requestEventLimit)) :
    FailsOver q signer s blockNumber anchorContract key keyData := by
  have hrun := observingMainchain_of_error hobs signer blockNumber key keyData
  refine ⟨?_, fun h => ?_, fun h => ?_⟩
  · rw [hrun, hexpected]
  · rw [hrun] at h
    cases h
    exact hvalidators rfl
  · rw [hrun] at h
    cases h
    exact hnotifications rfl

end Observed

theorem forall_endpoint {P : Endpoint → Prop} (hprimary : P .primary) (hsecondary : P .secondary) :
    ∀ e, P e
  | .primary => hprimary
  | .secondary => hsecondary

/--
**Failover to the secondary endpoint.** For any answers and failures of the four queries, the
failover works exactly when the secondary endpoint is not needed: not where a primary query failed
whose stage is reached, and the secondary one would have succeeded.
-/
theorem fails_over_iff (q : MainchainQueries AccountId) (signer : Signer Public AccountId)
    (s : State cfg AccountId β) (blockNumber : Nat) (anchorContract : List UInt8) (key : Public)
    (keyData : List UInt8)
    (hvalidators : ∀ e, ¬ (q.getValidatorListOf e anchorContract s.nextSetId).Aborts)
    (hnotifications : ∀ e, ¬ (q.getAppchainNotificationHistories e anchorContract
      s.nextNotificationId cfg.requestEventLimit).Aborts) :
    FailsOver q signer s blockNumber anchorContract key keyData ↔
      ¬ (Fails (q.getValidatorListOf .primary anchorContract s.nextSetId) ∧
        Succeeds (q.getValidatorListOf .secondary anchorContract s.nextSetId)) ∧
      ¬ (q.getValidatorListOf .primary anchorContract s.nextSetId = .ok [] ∧
        Fails (q.getAppchainNotificationHistories .primary anchorContract s.nextNotificationId
          cfg.requestEventLimit) ∧
        Succeeds (q.getAppchainNotificationHistories .secondary anchorContract
          s.nextNotificationId cfg.requestEventLimit)) := by
  constructor
  · intro h
    constructor
    · rintro ⟨hfails, hsucceeds⟩
      have hobs := observe_of_failed hfails (hvalidators .secondary)
      have hboth := h.validators (by
        rw [observingMainchain_of_error hobs signer blockNumber key keyData])
      exact (hboth .secondary).not_succeeds hsucceeds
    · rintro ⟨hempty, hfails, hsucceeds⟩
      have hobs := (observe_of_no_validators hempty).trans
        (mapErr_retrying_of_fails hfails (hnotifications .secondary) _)
      have hboth := h.notifications (by
        rw [observingMainchain_of_error hobs signer blockNumber key keyData])
      exact (hboth .secondary).not_succeeds hsucceeds
  · rintro ⟨hfirst, hsecond⟩
    rcases fails_or_succeeds (hvalidators .primary) with hfails | ⟨_ | ⟨o, obs⟩, hobs⟩
    · have hagain : Fails (q.getValidatorListOf .secondary anchorContract s.nextSetId) :=
        (fails_or_succeeds (hvalidators .secondary)).resolve_right fun h => hfirst ⟨hfails, h⟩
      refine failsOver_of_failed signer blockNumber key keyData
        (observe_of_failed hfails (hvalidators .secondary)) ?_
        (fun _ => forall_endpoint hfails hagain) (fun h => by simp at h)
      unfold expectedObservations
      rw [stageResult_of_fails hfails hagain]
      rfl
    · rcases fails_or_succeeds (hnotifications .primary) with hfails | ⟨obs, hsucceeds⟩
      · have hagain : Fails (q.getAppchainNotificationHistories .secondary anchorContract
            s.nextNotificationId cfg.requestEventLimit) :=
          (fails_or_succeeds (hnotifications .secondary)).resolve_right fun h =>
            hsecond ⟨hobs, hfails, h⟩
        refine failsOver_of_failed signer blockNumber key keyData
          ((observe_of_no_validators hobs).trans
            (mapErr_retrying_of_fails hfails (hnotifications .secondary) _)) ?_
          (fun h => by simp at h) (fun _ => forall_endpoint hfails hagain)
        unfold expectedObservations
        rw [hobs]
        exact stageResult_of_fails hfails hagain
      · refine failsOver_of_observed signer blockNumber key keyData
          ((observe_of_no_validators hobs).trans (by rw [hsucceeds]; rfl)) ?_
        unfold expectedObservations
        rw [hobs]
        show stageResult _ _ = _
        rw [hsucceeds]
        rfl
    · refine failsOver_of_observed signer blockNumber key keyData (observe_of_validators hobs) ?_
      unfold expectedObservations
      rw [hobs]
      rfl

namespace Sample

def failoverConfig : Config := ⟨10, 5, 0⟩

def failoverState : State failoverConfig Nat Unit := genesisBuild failoverConfig [97] [] ()

def validatorSet : Observation Nat := .updateValidatorSet ⟨1, [⟨0, 100⟩]⟩

/-- Queries for a validator set that `validators` answers, and no notifications. -/
def queries (validators : Endpoint → Attempt HttpError (List (Observation Nat))) :
    MainchainQueries Nat where
  getValidatorListOf e _ _ := validators e
  getAppchainNotificationHistories _ _ _ _ := .ok []

def validatorsAtBoth : MainchainQueries Nat := queries fun _ => .ok [validatorSet]

/-- The primary endpoint does not answer in time. -/
def validatorsAtSecondary : MainchainQueries Nat :=
  queries fun
    | .primary => .error (.error .deadlineReached)
    | .secondary => .ok [validatorSet]

def oneKey : Signer Nat Nat := ⟨fun key => [key], fun _ => .ok ()⟩

end Sample

/-- Both endpoints answer. -/
theorem fails_over_at_both :
    FailsOver Sample.validatorsAtBoth Sample.oneKey Sample.failoverState 7 [97] 0 [0] :=
  (fails_over_iff Sample.validatorsAtBoth Sample.oneKey Sample.failoverState 7 [97] 0 [0]
    (fun _ => not_aborts_ok _) (fun _ => not_aborts_ok _)).mpr
      ⟨fun h => h.1.not_succeeds ⟨_, rfl⟩, fun h => by cases h.1⟩

/-- Only the secondary endpoint answers. -/
theorem secondary_answer_dropped :
    ¬ FailsOver Sample.validatorsAtSecondary Sample.oneKey Sample.failoverState 7 [97] 0 [0] := by
  intro h
  have hboth := h.validators rfl
  exact (hboth .secondary).not_succeeds ⟨_, rfl⟩

end OctopusPallets.Appchain
