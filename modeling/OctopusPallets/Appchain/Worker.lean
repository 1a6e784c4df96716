import OctopusPallets.Appchain.Anchor
import OctopusPallets.Appchain.Failover
import OctopusPallets.Appchain.Unsigned

/-!
# The offchain worker

The hook `offchain_worker` as a whole, from its guards to the calls that it hands to the transaction
pool. A payload that it signs names its own key twice, so the pool accepts it and the chain counts it
for the validator whose key signed it.

* `offchainWorker_signedBy` — whose votes the calls of a worker are
* `observe_of_answers` — what a worker reports when the mainchain answers from the anchor contract
-/

namespace OctopusPallets.Appchain

open Infra Infra.Dispatch Infra.FixedWidth Infra.Attempt

variable {cfg : Config} {Key Public AccountId Signature β : Type}

/-! ## A node -/

/-- `AppCrypto`: the application keys in the keystore of a node, and the public keys that they are in
the runtime. -/
structure AppCrypto (Key Public AccountId Signature : Type) extends
    SigningTypes Public AccountId Signature where
  /-- `RuntimeAppPublic::to_raw_vec`. -/
  keyRawVec : Key → List UInt8
  /-- By way of `GenericPublic`. -/
  intoPublic : Key → Public

/-- What a worker finds on its node. -/
structure Node (Key Public AccountId Signature : Type) where
  isValidator : Bool
  /-- `RuntimeAppPublic::all`. -/
  localKeys : List Key
  /-- How the keystore signs for a key that it has. -/
  sign : Public → Option (ObservationsPayload Public AccountId → Signature)
  /-- The local storage under `octopus_appchain::mainchain_rpc_endpoint`. -/
  configuredEndpoint : Option (List UInt8)
  /-- `NEAR_TESTNET` and `NEAR_MAINNET`, as the runtime was compiled. -/
  nearTestnet : String
  nearMainnet : String

/-- An unsigned call of `submit_observations`. -/
structure SignedCall (Public AccountId Signature : Type) where
  payload : ObservationsPayload Public AccountId
  signature : Signature

def SignedCall.call (c : SignedCall Public AccountId Signature) :
    PalletCall Public AccountId Signature := .submitObservations c.payload c.signature

namespace Node

variable (node : Node Key Public AccountId Signature)

def nearRpcEndpoint (isTestnet : Bool) : String :=
  if isTestnet then node.nearTestnet else node.nearMainnet

/-- A configured endpoint that is no text is not used either. -/
def getMainchainRpcEndpoint (isTestnet : Bool) : String :=
  match node.configuredEndpoint with
  | none => node.nearRpcEndpoint isTestnet
  | some data => (Borsh.fromUtf8 data).getD (node.nearRpcEndpoint isTestnet)

def endpoint (isTestnet : Bool) : Endpoint → String
  | .primary => node.getMainchainRpcEndpoint isTestnet
  | .secondary => node.nearRpcEndpoint isTestnet

/-- The call with the payload, if the keystore signs it. -/
def signed (payload : ObservationsPayload Public AccountId) :
    Option (SignedCall Public AccountId Signature) :=
  (node.sign payload.public).map fun sign => ⟨payload, sign payload⟩

/-- The signer of `observing_mainchain`, who signs for one local key and submits to the pool. -/
def signer (pool : SignedCall Public AccountId Signature → Except Unit Unit) :
    Signer Public AccountId where
  accounts key := if (node.sign key).isSome then [key] else []
  submit payload :=
    match node.signed payload with
    | some c => pool c
    | none => .error ()

end Node

/-- The first local key that is the session key of a current validator. -/
def getValidatorId (crypto : AppCrypto Key Public AccountId Signature)
    (lpos : LposInterface AccountId) : List Key → Option (Public × List UInt8 × AccountId)
  | [] => none
  | key :: keys =>
    let keyData := crypto.keyRawVec key
    match lpos.isActiveValidator keyType keyData with
    | none => getValidatorId crypto lpos keys
    | some valId => some (crypto.intoPublic key, keyData, valId)

/-- An anchor contract whose account ends with a `t` is one on the testnet. -/
def isTestnet (anchorContract : List UInt8) : Bool := anchorContract.getLast? == some 116

/--
The hook `offchain_worker`, with what `should_send` returns: what becomes of it, and the calls that it
submits. An error of `observing_mainchain` is only logged.
-/
def offchainWorker (crypto : AppCrypto Key Public AccountId Signature)
    (queries : (Endpoint → String) → MainchainQueries AccountId)
    (node : Node Key Public AccountId Signature)
    (pool : SignedCall Public AccountId Signature → Except Unit Unit)
    (lpos : LposInterface AccountId) (s : State cfg AccountId β) (blockNumber : Nat)
    (shouldSend : Bool) :
    Attempt String Unit × List (SignedCall Public AccountId Signature) :=
  if !node.isValidator || !s.isActivated || s.anchorContract.isEmpty then (.ok (), [])
  else if !shouldSend then (.ok (), [])
  else
    -- only communicate with the mainchain if we are validators
    match getValidatorId crypto lpos node.localKeys with
    | none => (.ok (), [])
    | some (key, keyData, _) =>
      let r := observingMainchain (queries (node.endpoint (isTestnet s.anchorContract)))
        (node.signer pool) s blockNumber s.anchorContract key keyData
      (r.1, r.2.filterMap node.signed)

/-! ## What a worker submits -/

theorem getValidatorId_eq_some {crypto : AppCrypto Key Public AccountId Signature}
    {lpos : LposInterface AccountId} {key : Public} {keyData : List UInt8} {v : AccountId} :
    ∀ {keys : List Key}, getValidatorId crypto lpos keys = some (key, keyData, v) →
      ∃ k ∈ keys, crypto.intoPublic k = key ∧ crypto.keyRawVec k = keyData ∧
        lpos.isActiveValidator keyType keyData = some v
  | [], h => by cases h
  | k :: keys, h => by
    unfold getValidatorId at h
    dsimp only at h
    cases hactive : lpos.isActiveValidator keyType (crypto.keyRawVec k) with
    | none =>
      rw [hactive] at h
      obtain ⟨k', hk', hkey⟩ := getValidatorId_eq_some h
      exact ⟨k', List.mem_cons_of_mem k hk', hkey⟩
    | some valId =>
      rw [hactive] at h
      cases h
      exact ⟨k, List.mem_cons_self, rfl, rfl, hactive⟩

/-- What is submitted is what was observed, under the key that was asked for. -/
theorem observingMainchain_payloads {q : MainchainQueries AccountId}
    {signer : Signer Public AccountId} {s : State cfg AccountId β} {blockNumber : Nat}
    {anchorContract : List UInt8} {key : Public} {keyData : List UInt8}
    {payload : ObservationsPayload Public AccountId}
    (h : payload ∈ (observingMainchain q signer s blockNumber anchorContract key keyData).2) :
    observe q anchorContract s = .ok payload.observations ∧ payload.observations ≠ [] ∧
      payload ∈ signer.payloads key keyData blockNumber payload.observations := by
  cases hobs : observe q anchorContract s with
  | error e =>
    rw [observingMainchain_of_error hobs] at h
    cases h
  | ok obs =>
    rw [(observingMainchain_of_ok hobs signer blockNumber key keyData).1] at h
    split at h
    · cases h
    · next hne =>
      have hsame : payload.observations = obs := by
        obtain ⟨account, -, rfl⟩ := List.mem_map.mp h
        rfl
      rw [hsame]
      exact ⟨rfl, fun hnil => hne (by rw [hnil]; rfl), h⟩

/-- What a worker has found out before it submits the call `c`. -/
structure Worked (crypto : AppCrypto Key Public AccountId Signature)
    (queries : (Endpoint → String) → MainchainQueries AccountId)
    (node : Node Key Public AccountId Signature) (lpos : LposInterface AccountId)
    (s : State cfg AccountId β) (blockNumber : Nat) (c : SignedCall Public AccountId Signature)
    (key : Key) (v : AccountId) : Prop where
  isValidator : node.isValidator = true
  isActivated : s.isActivated = true
  anchorContract : s.anchorContract ≠ []
  mem : key ∈ node.localKeys
  isActive : lpos.isActiveValidator keyType (crypto.keyRawVec key) = some v
  keyData : c.payload.keyData = crypto.keyRawVec key
  «public» : c.payload.public = crypto.intoPublic key
  block : c.payload.blockNumber = blockNumber
  observe : observe (queries (node.endpoint (isTestnet s.anchorContract))) s.anchorContract s
    = .ok c.payload.observations
  nonempty : c.payload.observations ≠ []
  signed : ∃ sign, node.sign c.payload.public = some sign ∧ c.signature = sign c.payload

/-- **The spec of the worker.** -/
theorem offchainWorker_spec {crypto : AppCrypto Key Public AccountId Signature}
    {queries : (Endpoint → String) → MainchainQueries AccountId}
    {node : Node Key Public AccountId Signature}
    {pool : SignedCall Public AccountId Signature → Except Unit Unit}
    {lpos : LposInterface AccountId} {s : State cfg AccountId β} {blockNumber : Nat}
    {shouldSend : Bool} {c : SignedCall Public AccountId Signature}
    (h : c ∈ (offchainWorker crypto queries node pool lpos s blockNumber shouldSend).2) :
    shouldSend = true ∧ ∃ key v, Worked crypto queries node lpos s blockNumber c key v := by
  unfold offchainWorker at h
  split at h
  · cases h
  · next hguard =>
    simp only [Bool.or_eq_true, Bool.not_eq_true', not_or, Bool.not_eq_false] at hguard
    obtain ⟨⟨hvalidator, hactivated⟩, hanchor⟩ := hguard
    split at h
    · cases h
    · next hsend =>
      simp only [Bool.not_eq_true', Bool.not_eq_false] at hsend
      split at h
      · cases h
      · next key keyData v hget =>
        obtain ⟨k, hk, rfl, rfl, hactive⟩ := getValidatorId_eq_some hget
        obtain ⟨payload, hpayload, hsigned⟩ := List.mem_filterMap.mp h
        obtain ⟨sign, hsign, rfl⟩ := Option.map_eq_some_iff.mp hsigned
        obtain ⟨hobserve, hne, hmem⟩ := observingMainchain_payloads hpayload
        obtain ⟨account, haccount, hfields⟩ := List.mem_map.mp hmem
        obtain rfl : account = crypto.intoPublic k := by
          have haccount : account ∈ if (node.sign (crypto.intoPublic k)).isSome then
            [crypto.intoPublic k] else [] := haccount
          split at haccount
          · exact List.mem_singleton.mp haccount
          · cases haccount
        refine ⟨hsend, k, v, hvalidator, hactivated, fun hnil => hanchor (by rw [hnil]; rfl), hk,
          hactive, ?_, ?_, ?_, hobserve, hne, sign, hsign, rfl⟩
        · exact (congrArg ObservationsPayload.keyData hfields).symm
        · exact (congrArg ObservationsPayload.public hfields).symm
        · exact (congrArg ObservationsPayload.blockNumber hfields).symm

/-! ## Whose votes they are -/

section

variable [DecidableEq AccountId]

omit [DecidableEq AccountId] in
/-- The pool accepts what a worker signed, from its block on. -/
theorem Worked.valid {crypto : AppCrypto Key Public AccountId Signature}
    {queries : (Endpoint → String) → MainchainQueries AccountId}
    {node : Node Key Public AccountId Signature} {lpos : LposInterface AccountId}
    {s : State cfg AccountId β} {blockNumber : Nat} {c : SignedCall Public AccountId Signature}
    {key : Key} {v : AccountId} (h : Worked crypto queries node lpos s blockNumber c key v)
    (hverify : crypto.verify c.payload.public c.payload c.signature = true) {currentBlock : Nat}
    (hblock : blockNumber ≤ currentBlock) :
    validateUnsigned cfg crypto.toSigningTypes currentBlock c.call
      = .ok ⟨cfg.unsignedPriority, [("OctopusAppchain", crypto.intoAccount c.payload.public)], 5,
          true⟩ := by
  have hfuture : ¬ currentBlock < c.payload.blockNumber := by
    rw [h.block]
    exact Nat.not_lt.mpr hblock
  have hverify : c.payload.verify crypto.toSigningTypes c.signature = true := hverify
  unfold SignedCall.call validateUnsigned validateTransactionParameters
  dsimp only
  rw [if_pos hverify, if_neg hfuture]

/-- A call of a current validator records no vote of anybody else. -/
theorem recorded_of_active {bridge : BridgeInterface AccountId β} {lpos : LposInterface AccountId}
    {payload : ObservationsPayload Public AccountId} {v w : AccountId}
    (hactive : lpos.isActiveValidator keyType payload.keyData = some v)
    {s : State cfg AccountId β} {o : Observation AccountId} (hnew : w ∉ (s.observing o).val)
    (hrecorded : w ∈ ((submitObservations bridge lpos .none payload s).2.observing o).val) :
    w = v ∧ o ∈ payload.observations := by
  have hrun := submitObservations_state bridge ⟨lpos, payload⟩ s
  rw [hrun, ← State.mem_book] at hrecorded
  rcases voters_cast_run bridge s _ w o hrecorded with hold | ⟨x, hx, rfl, rfl⟩
  · exact absurd (State.mem_book.mp hold) hnew
  · obtain ⟨-, hvalidator, hmem⟩ := Call.mem_votes.mp hx
    have hsame : some x.validatorId = some v := hvalidator.symm.trans hactive
    exact ⟨Option.some.inj hsame, hmem⟩

/--
**What a worker submits is the vote of the validator whose session key has signed it.**

Whatever the mainchain answered: each call of a worker was signed with the session key of a current
validator, the pool accepts it from the block of the worker on, and as long as the session lasts the
chain records votes of this validator only, for what the call reports. The key that signs is one of
the node, by the law `hsign` of the keystore; `hraw` says that a key has the same bytes in the
keystore and in the runtime.
-/
theorem offchainWorker_signedBy (crypto : AppCrypto Key Public AccountId Signature)
    (hraw : ∀ key, crypto.toRawVec (crypto.intoPublic key) = crypto.keyRawVec key)
    (queries : (Endpoint → String) → MainchainQueries AccountId)
    (node : Node Key Public AccountId Signature)
    (hsign : ∀ key sign payload, node.sign key = some sign →
      crypto.verify key payload (sign payload) = true)
    (pool : SignedCall Public AccountId Signature → Except Unit Unit)
    (session : Lpos.Session AccountId) (storage : Lpos.Storage AccountId)
    (s : State cfg AccountId β) (blockNumber : Nat) (shouldSend : Bool)
    (c : SignedCall Public AccountId Signature)
    (hc : c ∈ (offchainWorker crypto queries node pool (Lpos.lposInterface session storage) s
      blockNumber shouldSend).2) :
    ∃ v ∈ session.validators,
      SignedBy crypto.toSigningTypes session c.payload c.signature v ∧
      (∀ currentBlock, blockNumber ≤ currentBlock →
        validateUnsigned cfg crypto.toSigningTypes currentBlock c.call
          = .ok ⟨cfg.unsignedPriority, [("OctopusAppchain", crypto.intoAccount c.payload.public)],
              5, true⟩) ∧
      ∀ (bridge : BridgeInterface AccountId β) (storage' : Lpos.Storage AccountId)
        (s' : State cfg AccountId β) (w : AccountId) (o : Observation AccountId),
        w ∉ (s'.observing o).val →
        w ∈ ((c.call.dispatch bridge (Lpos.lposInterface session storage') .none s').2.observing
          o).val → w = v ∧ o ∈ c.payload.observations := by
  obtain ⟨-, key, v, hworked⟩ := offchainWorker_spec hc
  obtain ⟨sign, hsome, hsignature⟩ := hworked.signed
  have hverify : crypto.verify c.payload.public c.payload c.signature = true := by
    rw [hsignature]
    exact hsign _ _ _ hsome
  have hactive : session.isActiveValidator keyType c.payload.keyData = some v := by
    rw [hworked.keyData]
    exact hworked.isActive
  obtain ⟨hmem, howner, hregistered⟩ := Lpos.Session.keyOwner_of_isActiveValidator hactive
  have hbytes : crypto.toRawVec c.payload.public = c.payload.keyData := by
    rw [hworked.public, hraw, hworked.keyData]
  refine ⟨v, hmem, ⟨hverify, hregistered, hbytes ▸ howner⟩, fun _ => hworked.valid hverify, ?_⟩
  intro bridge storage' s' w o hnew hrecorded
  have hactive' : (Lpos.lposInterface session storage').isActiveValidator keyType
      c.payload.keyData = some v := hactive
  exact recorded_of_active hactive' hnew hrecorded

end

namespace Sample

/-- A key is one byte, and a signature is the key it was made with. -/
def appCrypto : AppCrypto UInt8 UInt8 Nat UInt8 where
  toSigningTypes := signing
  keyRawVec key := [key]
  intoPublic key := key

/-- A node with the keys 7 and 2. -/
def node : Node UInt8 UInt8 Nat UInt8 where
  isValidator := true
  localKeys := [7, 2]
  sign key := if key = 7 ∨ key = 2 then some fun _ => key else none
  configuredEndpoint := none
  nearTestnet := "testnet"
  nearMainnet := "mainnet"

/-- An active appchain of the anchor contract `at`, on the testnet. -/
def activeChain : State config Nat Unit :=
  { genesisBuild config [97, 116] [] () with isActivated := true }

/-- The endpoints of the testnet have two notifications. -/
def testnetQueries (url : Endpoint → String) : MainchainQueries Nat where
  getValidatorListOf _ _ _ := .ok []
  getAppchainNotificationHistories e _ _ _ :=
    if url e = "testnet" then .ok [burnAt 0, burnAt 1] else .error (.error .unknown)

end Sample

/-- Key 7 belongs to no validator, and validator 2 votes. -/
theorem offchainWorker_signedBy_validator_two :
    (offchainWorker Sample.appCrypto Sample.testnetQueries Sample.node (fun _ => .ok ())
        (Lpos.lposInterface (Sample.session 4) (Sample.storage 4)) Sample.activeChain 5 true).2.map
          SignedCall.payload
        = [⟨2, [2], 5, [Sample.burnAt 0, Sample.burnAt 1]⟩] ∧
      ∀ c ∈ (offchainWorker Sample.appCrypto Sample.testnetQueries Sample.node (fun _ => .ok ())
          (Lpos.lposInterface (Sample.session 4) (Sample.storage 4)) Sample.activeChain 5 true).2,
        ∃ v ∈ (Sample.session 4).validators,
          SignedBy Sample.signing (Sample.session 4) c.payload c.signature v := by
  refine ⟨rfl, fun c hc => ?_⟩
  obtain ⟨v, hv, hsigned, -⟩ := offchainWorker_signedBy Sample.appCrypto (fun _ => rfl)
    Sample.testnetQueries Sample.node (fun key sign payload h => by
      unfold Sample.node at h
      dsimp only at h
      split at h
      · cases h
        exact beq_self_eq_true key
      · cases h) (fun _ => .ok ()) (Sample.session 4) (Sample.storage 4) Sample.activeChain 5 true c hc
  exact ⟨v, hv, hsigned⟩

/-! ## What is reported -/

/-- The endpoints answer from the anchor contract, or not at all: a set that is generated, or a part
of the notifications that were asked for. -/
structure Anchor.Answers (A : Anchor AccountId) (q : MainchainQueries AccountId) : Prop where
  validators : ∀ e anchorContract setId obs,
    q.getValidatorListOf e anchorContract setId = .ok obs →
      obs = [] ∨ obs = [.updateValidatorSet (A.valSet setId)]
  notifications : ∀ e anchorContract index limit obs,
    q.getAppchainNotificationHistories e anchorContract index limit = .ok obs →
      ∃ k ≤ limit, obs = A.slice index k

/-- A query that is made again does not answer. -/
theorem retrying_eq_ok {ε α : Type} {query again : Attempt ε α} {a : α}
    (h : retrying query again = .ok a) : query = .ok a := by
  rcases query with (_ | e) | a'
  · cases h
  · unfold retrying at h
    rcases again with (_ | e') | a' <;> cases h
  · cases h
    rfl

/-- **A worker reports the next set, or a slice of the history from the counter on.** -/
theorem observe_of_answers {A : Anchor AccountId} {q : MainchainQueries AccountId}
    (hq : A.Answers q) {anchorContract : List UInt8} {s : State cfg AccountId β}
    {obs : List (Observation AccountId)} (h : observe q anchorContract s = .ok obs) :
    obs = [.updateValidatorSet (A.valSet s.nextSetId)] ∨
      ∃ k ≤ cfg.requestEventLimit, obs = A.slice s.nextNotificationId k := by
  unfold observe at h
  obtain ⟨sets, hsets, h⟩ := Attempt.bind_eq_ok.mp h
  rcases hq.validators _ _ _ _ (retrying_eq_ok (Attempt.mapErr_eq_ok.mp hsets)) with rfl | rfl
  · exact Or.inr (hq.notifications _ _ _ _ _ (retrying_eq_ok (Attempt.mapErr_eq_ok.mp h)))
  · exact Or.inl (Attempt.pure_eq_ok.mp h).symm

/-- It reports nothing that the anchor contract does not hold. -/
theorem holds_of_answers {A : Anchor AccountId} {q : MainchainQueries AccountId}
    (hq : A.Answers q) {anchorContract : List UInt8} {s : State cfg AccountId β}
    {obs : List (Observation AccountId)} (h : observe q anchorContract s = .ok obs) :
    ∀ o ∈ obs, A.Holds o := by
  intro o ho
  rcases observe_of_answers hq h with rfl | ⟨k, -, rfl⟩
  · rw [List.mem_singleton.mp ho]
    exact Anchor.holds_valSet s.nextSetId
  · exact Anchor.holds_of_mem_slice ho

end OctopusPallets.Appchain
