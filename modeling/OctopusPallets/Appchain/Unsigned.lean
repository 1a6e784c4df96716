import OctopusPallets.Appchain.QuorumSafety

/-!
# Who casts a vote

A call of `submit_observations` is unsigned: the transaction pool checks the signature in the
payload with `validate_unsigned`, and the dispatch then looks up the validator. The signature is
checked against `public` and the validator is looked up by `key_data`, two fields of the payload
that nothing compares. The vote is that of the signer exactly when the two have the same owner.
-/

namespace OctopusPallets.Appchain

open Infra Infra.Dispatch Infra.FixedWidth

/-! ## The transaction pool -/

/-- `SigningTypes` and `AppCrypto`: the public keys of the runtime, and whether a signature over a
payload was made by a key. -/
structure SigningTypes (Public AccountId Signature : Type) where
  toRawVec : Public → List UInt8
  intoAccount : Public → AccountId
  verify : Public → ObservationsPayload Public AccountId → Signature → Bool

inductive InvalidTransaction where
  | badProof
  | future
  | call
deriving DecidableEq

structure ValidTransaction (AccountId : Type) where
  priority : Nat
  /-- Tags, each with the prefix of the pallet. -/
  provides : List (String × AccountId)
  longevity : Nat
  propagate : Bool
deriving DecidableEq

variable {cfg : Config} {AccountId Public Signature β : Type}

/-- `SignedPayload::verify`: the payload is checked against its own public key. -/
def ObservationsPayload.verify (crypto : SigningTypes Public AccountId Signature)
    (payload : ObservationsPayload Public AccountId) (signature : Signature) : Bool :=
  crypto.verify payload.public payload signature

def validateTransactionParameters (cfg : Config) (currentBlock blockNumber : Nat)
    (accountId : AccountId) : Except InvalidTransaction (ValidTransaction AccountId) :=
  if currentBlock < blockNumber then .error .future
  else .ok
    { priority := cfg.unsignedPriority
      provides := [("OctopusAppchain", accountId)]
      longevity := 5
      propagate := true }

/-- Only `submit_observations` calls with a valid signature enter the pool. -/
def validateUnsigned (cfg : Config) (crypto : SigningTypes Public AccountId Signature)
    (currentBlock : Nat) :
    PalletCall Public AccountId Signature →
      Except InvalidTransaction (ValidTransaction AccountId)
  | .submitObservations payload signature =>
    if payload.verify crypto signature then
      validateTransactionParameters cfg currentBlock payload.blockNumber
        (crypto.intoAccount payload.public)
    else .error .badProof
  | _ => .error .call

theorem verify_of_validateUnsigned {crypto : SigningTypes Public AccountId Signature}
    {currentBlock : Nat} {payload : ObservationsPayload Public AccountId} {signature : Signature}
    {t : ValidTransaction AccountId}
    (h : validateUnsigned cfg crypto currentBlock (.submitObservations payload signature) = .ok t) :
    payload.verify crypto signature = true := by
  simp only [validateUnsigned] at h
  by_cases hverify : payload.verify crypto signature = true
  · exact hverify
  · rw [if_neg hverify] at h
    cases h

/-! ## The vote of an accepted call -/

variable [DecidableEq AccountId]

/-- The payload was signed by the session key that `v` registered: the session pallet gives the
validator id of `v` as the owner of the raw bytes of `public`. -/
structure SignedBy (crypto : SigningTypes Public AccountId Signature)
    (session : Lpos.Session AccountId) (payload : ObservationsPayload Public AccountId)
    (signature : Signature) (v : AccountId) : Prop where
  signed : crypto.verify payload.public payload signature = true
  isRegistered : (session.validatorIdOf v).isSome
  owner : session.keyOwner keyType (crypto.toRawVec payload.public) = session.validatorIdOf v

/-- A vote that a call records is counted for the current validator that owns `key_data`. -/
theorem keyOwner_of_recorded {bridge : BridgeInterface AccountId β} {c : Submission Public AccountId}
    {s : State cfg AccountId β} {v : AccountId} {o : Observation AccountId}
    (hnew : v ∉ (s.observing o).val)
    (hrecorded : v ∈ ((submitObservations bridge (Lpos.lposInterface c.session c.storage) .none
      c.payload s).2.observing o).val) :
    v ∈ c.session.validators ∧
      c.session.keyOwner keyType c.payload.keyData = c.session.validatorIdOf v ∧
      (c.session.validatorIdOf v).isSome := by
  have hrun := submitObservations_state bridge c.call s
  unfold Submission.call at hrun
  rw [hrun, ← State.mem_book] at hrecorded
  rcases voters_cast_run bridge s _ v o hrecorded with hold | ⟨x, hx, rfl, -⟩
  · exact absurd (State.mem_book.mp hold) hnew
  · exact Lpos.Session.keyOwner_of_isActiveValidator (Submission.reports_of_mem_votes hx).isActive

/--
**An accepted vote is its signer's exactly when the two keys of the payload have one owner.**

In any state, for any payload that the pool accepts: if its dispatch records a vote of `v`, then the
payload was signed by the session key of `v` if and only if the session pallet knows the same owner
for `public` as for `key_data`.
-/
theorem signedBy_iff_same_owner (crypto : SigningTypes Public AccountId Signature)
    (bridge : BridgeInterface AccountId β) (session : Lpos.Session AccountId)
    (storage : Lpos.Storage AccountId) (s : State cfg AccountId β) (currentBlock : Nat)
    (payload : ObservationsPayload Public AccountId) (signature : Signature)
    (t : ValidTransaction AccountId) (v : AccountId) (o : Observation AccountId)
    (haccept : validateUnsigned cfg crypto currentBlock (.submitObservations payload signature)
      = .ok t)
    (hnew : v ∉ (s.observing o).val)
    (hrecorded : v ∈ (((PalletCall.submitObservations payload signature).dispatch bridge
      (Lpos.lposInterface session storage) .none s).2.observing o).val) :
    SignedBy crypto session payload signature v ↔
      session.keyOwner keyType (crypto.toRawVec payload.public)
        = session.keyOwner keyType payload.keyData := by
  obtain ⟨-, howner, hsome⟩ :=
    keyOwner_of_recorded (c := ⟨session, storage, payload⟩) hnew hrecorded
  constructor
  · exact fun h => h.owner.trans howner.symm
  · exact fun h => ⟨verify_of_validateUnsigned haccept, hsome, h.trans howner⟩

namespace Sample

/-- Keys are bytes, and a signature is the key it was made with. -/
def signing : SigningTypes UInt8 Nat UInt8 where
  toRawVec key := [key]
  intoAccount := UInt8.toNat
  verify key _ signature := key == signature

end Sample

/-- Validator 0 signs its own vote. -/
theorem signedBy_honest_validator :
    SignedBy Sample.signing (Sample.session 4) ⟨0, [0], 0, [Sample.burnAt 0]⟩ 0 0 :=
  (signedBy_iff_same_owner Sample.signing Sample.idleBridge (Sample.session 4) (Sample.storage 4)
    (genesisBuild Sample.config [] [] ()) 7 ⟨0, [0], 0, [Sample.burnAt 0]⟩ 0
    ⟨0, [("OctopusAppchain", 0)], 5, true⟩ 0 (Sample.burnAt 0) rfl (by decide) (by decide)).mpr rfl

/-- The owner of key 9 is no validator. It signs a payload that names the key of validator 0, and
the vote is counted for validator 0. -/
theorem outsider_casts_vote :
    validateUnsigned Sample.config Sample.signing 7
        (.submitObservations ⟨9, [0], 0, [Sample.burnAt 0]⟩ 9)
      = .ok ⟨0, [("OctopusAppchain", 9)], 5, true⟩ ∧
    (0 ∉ ((genesisBuild Sample.config [] [] () : State _ Nat _).observing (Sample.burnAt 0)).val ∧
      0 ∈ (((PalletCall.submitObservations
        (⟨9, [0], 0, [Sample.burnAt 0]⟩ : ObservationsPayload UInt8 Nat) (9 : UInt8)).dispatch Sample.idleBridge
          (Lpos.lposInterface (Sample.session 4) (Sample.storage 4)) .none
          (genesisBuild Sample.config [] [] ())).2.observing (Sample.burnAt 0)).val) ∧
    9 ∉ (Sample.session 4).validators ∧
    ¬ SignedBy Sample.signing (Sample.session 4) ⟨9, [0], 0, [Sample.burnAt 0]⟩ 9 0 := by
  refine ⟨rfl, by decide, by decide, ?_⟩
  intro h
  exact absurd h.owner (by decide)

end OctopusPallets.Appchain
