import OctopusPallets.Appchain.Answers
import OctopusPallets.Appchain.Worker

/-!
# Endpoints that serve the anchor contract

How the mainchain writes what the anchor contract holds: each structure as an object, its members in
some order and among others, accounts in hexadecimal and integers in decimal. A worker that asks such
endpoints reports what the contract holds.

* `Anchor.Serves` — an endpoint
* `Anchor.answers_of_serves` — what is read from it
* `worker_reports_contract` — what is signed
-/

namespace OctopusPallets.Appchain

open Infra Infra.Attempt Infra.Json

variable {cfg : Config} {AccountId β : Type} {o : Outside AccountId}

/-! ## Integers and accounts -/

theorem parseUnsigned_toDigits {bound n : Nat} (h : n < bound) :
    parseUnsigned bound (Nat.toDigits 10 n) = some n := by
  have hdigit : ∀ c ∈ Nat.toDigits 10 n, c.isDigit = true := fun c hc =>
    Nat.isDigit_of_mem_toDigits (by decide) (by decide) hc
  have hvalue : (Nat.toDigits 10 n).foldl (fun n c => 10 * n + (c.toNat - '0'.toNat)) 0 = n := by
    rw [← Nat.ofDigitChars_eq_foldl]
    exact Nat.ofDigitChars_ten_toDigits
  have hany : (Nat.toDigits 10 n).any (fun c => !c.isDigit) = false := by
    rw [List.any_eq_false]
    intro c hc
    rw [hdigit c hc]
    exact Bool.false_ne_true
  cases hdigits : Nat.toDigits 10 n with
  | nil => exact absurd hdigits Nat.toDigits_ne_nil
  | cons c digits =>
    rw [hdigits] at hdigit hvalue hany
    have hplus : c ≠ '+' := by
      rintro rfl
      exact absurd (hdigit '+' (.head _)) (by decide)
    unfold parseUnsigned
    split
    · next hhead => exact absurd (List.cons.inj hhead).1 hplus
    · dsimp only
      rw [hany, hvalue, List.isEmpty_cons, Bool.or_self, if_neg Bool.false_ne_true, if_pos h]

/-- An integer is read back from its decimal digits. -/
theorem deserializeFromStr_toString {bound n : Nat} (h : n < bound) :
    deserializeFromStr bound (.string (toString n)) = .ok n := by
  simp only [deserializeFromStr, readString, bind_eq_ok, okOr_eq_ok]
  refine ⟨_, rfl, ?_⟩
  rw [Nat.toString_eq_ofList_toDigits, String.toList_ofList]
  exact parseUnsigned_toDigits h

/-- The account `a`, in hexadecimal. -/
def AccountHex (o : Outside AccountId) (s : String) (a : AccountId) : Prop :=
  ∃ digits bytes, s.toList = '0' :: 'x' :: digits ∧ o.hexDecode digits = some bytes ∧
    o.decodeAccount bytes = some (a, [])

theorem deserialize_of_accountHex {s : String} {a : AccountId} (h : AccountHex o s a) :
    accountDeserializeFromHexStr o (.string s) = .ok a := by
  obtain ⟨digits, bytes, htext, hhex, hdecoded⟩ := h
  refine accountDeserializeFromHexStr_eq_ok.mpr ⟨digits, bytes, [], ?_, hhex, hdecoded⟩
  exact Utf8.sliceFrom_eq_some.mpr ⟨['0', 'x'], htext, by decide⟩

/-! ## What an endpoint serves -/

/-- A validator. -/
def ValidatorServed (o : Outside AccountId) (v : Value) (x : Validator AccountId) : Prop :=
  ∃ members id, v = .object members ∧ AccountHex o id x.validatorIdInAppchain ∧
    x.totalStake < 2 ^ 128 ∧ members.Among validatorNames
      [("validator_id_in_appchain", .string id), ("total_stake", .string (toString x.totalStake))]

/-- A notification, without its index. -/
def NotificationServed (o : Outside AccountId) (v : Value) : Observation AccountId → Prop
  | .lockAsset event => ∃ members contract sender receiver,
    v = tagged "NearFungibleTokenLocked" (.object members) ∧
      Borsh.asBytes contract = event.tokenId ∧ Borsh.asBytes sender = event.senderId ∧
      AccountHex o receiver event.receiver ∧ event.amount < 2 ^ 128 ∧
      members.Among lockAssetNames
        [("contract_account", .string contract), ("sender_id_in_near", .string sender),
          ("receiver_id_in_appchain", .string receiver),
          ("amount", .string (toString event.amount))]
  | .burn event => ∃ members sender receiver,
    v = tagged "WrappedAppchainTokenBurnt" (.object members) ∧
      Borsh.asBytes sender = event.senderId ∧ AccountHex o receiver event.receiver ∧
      event.amount < 2 ^ 128 ∧ members.Among burnNames
        [("sender_id_in_near", .string sender), ("receiver_id_in_appchain", .string receiver),
          ("amount", .string (toString event.amount))]
  | .burnNft event => ∃ members sender receiver,
    v = tagged "WrappedAppchainNFTLocked" (.object members) ∧
      Borsh.asBytes sender = event.senderId ∧ AccountHex o receiver event.receiver ∧
      event.collection < 2 ^ 128 ∧ event.item < 2 ^ 128 ∧ members.Among burnNftNames
        [("sender_id_in_near", .string sender), ("receiver_id_in_appchain", .string receiver),
          ("class_id", .string (toString event.collection)),
          ("token_id", .string (toString event.item))]
  | .updateValidatorSet _ => False

/-- A notification under its index. -/
def HistoryServed (o : Outside AccountId) (v : Value) (obs : Observation AccountId) : Prop :=
  ∃ members notification, v = .object members ∧ NotificationServed o notification obs ∧
    obs.observationIndex < 2 ^ 32 ∧ members.Among historyNames
      [("appchain_notification", notification),
        ("index", .string (toString obs.observationIndex))]

/-- The endpoint serves what the anchor contract holds: a set or nothing, as long as it has not been
generated, and notifications from the index on that it is asked for. -/
structure Anchor.Serves (A : Anchor AccountId) (o : Outside AccountId) (rpcEndpoint : String) :
    Prop where
  validators : ∀ anchorContract setId document,
    (MainchainQuery.validatorListOf setId).answer o rpcEndpoint anchorContract = .ok document →
      ∃ validators, (validators = [] ∨ validators = A.validators setId) ∧
        ListWritten (ValidatorServed o) document validators
  notifications : ∀ anchorContract index limit document,
    (MainchainQuery.appchainNotificationHistories index limit).answer o rpcEndpoint anchorContract
        = .ok document →
      ∃ k ≤ limit, ListWritten (HistoryServed o) document (A.slice index k)

/-! ## Reading it -/

theorem validatorWritten_of_served {v : Value} {x : Validator AccountId}
    (h : ValidatorServed o v x) : ValidatorWritten o v x := by
  obtain ⟨members, id, rfl, hid, hstake, hamong⟩ := h
  refine ⟨hamong.shaped ?_ ?_, hamong.gives ?_ ?_ (deserialize_of_accountHex hid),
    hamong.gives ?_ ?_ (deserializeFromStr_toString hstake)⟩ <;> simp [validatorNames]

/-- Without an index of its own, an event is read with index 0. -/
theorem eventWritten_of_served {names : List String} {members : Members}
    {written : List (String × Value)} {sender receiver : String} {senderId : List UInt8}
    {a : AccountId} (hamong : members.Among names written)
    (hshaped : (Value.object members).Shaped names)
    (hindex : "index" ∈ names ∧ written.filter (fun p => p.1 == "index") = [])
    (hsender : "sender_id_in_near" ∈ names ∧ written.filter (fun p => p.1 == "sender_id_in_near")
      = [("sender_id_in_near", .string sender)])
    (hreceiver : "receiver_id_in_appchain" ∈ names ∧
      written.filter (fun p => p.1 == "receiver_id_in_appchain")
        = [("receiver_id_in_appchain", .string receiver)])
    (hsenderId : Borsh.asBytes sender = senderId) (ha : AccountHex o receiver a) :
    EventWritten o names (.object members) 0 senderId a where
  shaped := hshaped
  index := ⟨none, hamong.valuesOf_nil hindex.1 hindex.2, rfl⟩
  senderId := hamong.gives hsender.1 hsender.2 (congrArg Except.ok hsenderId)
  receiver := hamong.gives hreceiver.1 hreceiver.2 (deserialize_of_accountHex ha)

theorem historyWritten_of_served {v : Value} {obs : Observation AccountId}
    (h : HistoryServed o v obs) :
    ∃ n : AppchainNotificationHistory AccountId, HistoryWritten o v n ∧ n.observation = obs := by
  obtain ⟨members, notification, rfl, hnotification, hindex, hamong⟩ := h
  have hshaped : (Value.object members).Shaped historyNames := by
    refine hamong.shaped ?_ ?_ <;> simp [historyNames]
  have hvalues : members.valuesOf "appchain_notification" = [notification] :=
    hamong.valuesOf_one (by simp [historyNames]) (by simp)
  have hwritten : (Value.object members).Gives historyNames "index" (deserializeFromStr (2 ^ 32))
      (some obs.observationIndex) := by
    refine hamong.gives ?_ ?_ (deserializeFromStr_toString hindex) <;> simp [historyNames]
  cases obs with
  | updateValidatorSet _ => exact hnotification.elim
  | lockAsset event =>
    obtain ⟨fields, contract, sender, receiver, rfl, hcontract, hsender, hreceiver, hamount, h⟩ :=
      hnotification
    refine ⟨⟨.lockAsset { event with index := 0 }, event.index⟩,
      ⟨hshaped, ⟨_, hvalues, _, rfl, ?_⟩, hwritten⟩, rfl⟩
    have hshaped : (Value.object fields).Shaped lockAssetNames := by
      refine h.shaped ?_ ?_ <;> simp [lockAssetNames]
    refine ⟨eventWritten_of_served h hshaped ?_ ?_ ?_ hsender hreceiver, ?_, ?_⟩
    · simp [lockAssetNames]
    · simp [lockAssetNames]
    · simp [lockAssetNames]
    · refine h.gives (w := .string contract) ?_ ?_ (congrArg Except.ok hcontract) <;>
        simp [lockAssetNames]
    · refine h.gives ?_ ?_ (deserializeFromStr_toString hamount) <;> simp [lockAssetNames]
  | burn event =>
    obtain ⟨fields, sender, receiver, rfl, hsender, hreceiver, hamount, h⟩ := hnotification
    refine ⟨⟨.burn { event with index := 0 }, event.index⟩,
      ⟨hshaped, ⟨_, hvalues, _, rfl, ?_⟩, hwritten⟩, rfl⟩
    have hshaped : (Value.object fields).Shaped burnNames := by
      refine h.shaped ?_ ?_ <;> simp [burnNames]
    refine ⟨eventWritten_of_served h hshaped ?_ ?_ ?_ hsender hreceiver, ?_⟩
    · simp [burnNames]
    · simp [burnNames]
    · simp [burnNames]
    · refine h.gives ?_ ?_ (deserializeFromStr_toString hamount) <;> simp [burnNames]
  | burnNft event =>
    obtain ⟨fields, sender, receiver, rfl, hsender, hreceiver, hcollection, hitem, h⟩ :=
      hnotification
    refine ⟨⟨.burnNft { event with index := 0 }, event.index⟩,
      ⟨hshaped, ⟨_, hvalues, _, rfl, ?_⟩, hwritten⟩, rfl⟩
    have hshaped : (Value.object fields).Shaped burnNftNames := by
      refine h.shaped ?_ ?_ <;> simp [burnNftNames]
    refine ⟨eventWritten_of_served h hshaped ?_ ?_ ?_ hsender hreceiver, ?_, ?_⟩
    · simp [burnNftNames]
    · simp [burnNftNames]
    · simp [burnNftNames]
    · refine h.gives ?_ ?_ (deserializeFromStr_toString hcollection) <;> simp [burnNftNames]
    · refine h.gives ?_ ?_ (deserializeFromStr_toString hitem) <;> simp [burnNftNames]

/-- A list is read element by element. -/
theorem listWritten_of_served {α γ : Type} {served : Value → γ → Prop} {written : Value → α → Prop}
    {f : α → γ} (h : ∀ {v c}, served v c → ∃ a, written v a ∧ f a = c) {d : Document}
    {cs : List γ} (hserved : ListWritten served d cs) :
    ∃ as, ListWritten written d as ∧ as.map f = cs := by
  obtain ⟨hended, elements, hvalue, hclosed, hall⟩ := hserved
  have hread : ∃ as, List.Forall₂ written elements.toList as ∧ as.map f = cs := by
    generalize elements.toList = vs at hall
    induction hall with
    | nil => exact ⟨[], .nil, rfl⟩
    | cons hc _ ih =>
      obtain ⟨a, ha, rfl⟩ := h hc
      obtain ⟨as, has, rfl⟩ := ih
      exact ⟨a :: as, .cons ha has, rfl⟩
  obtain ⟨as, has, hmap⟩ := hread
  exact ⟨as, ⟨hended, elements, hvalue, hclosed, has⟩, hmap⟩

variable {A : Anchor AccountId} {rpcEndpoint : String}

/-- What is read when a query is answered. -/
theorem Anchor.Serves.run (h : A.Serves o rpcEndpoint) {anchorContract : List UInt8}
    {q : MainchainQuery} {document : Document}
    (hanswer : q.answer o rpcEndpoint anchorContract = .ok document) :
    ∃ obs, q.run o rpcEndpoint anchorContract = .ok obs ∧
      match q with
      | .validatorListOf setId => obs = [] ∨ obs = [.updateValidatorSet (A.valSet setId)]
      | .appchainNotificationHistories index limit => ∃ k ≤ limit, obs = A.slice index k := by
  cases q with
  | validatorListOf setId =>
    obtain ⟨validators, hsets, hserved⟩ := h.validators _ _ _ hanswer
    obtain ⟨xs, hwritten, hmap⟩ := listWritten_of_served (f := id)
      (fun hv => ⟨_, validatorWritten_of_served hv, rfl⟩) hserved
    rw [List.map_id] at hmap
    subst hmap
    refine ⟨_, (readAnswer_eq_ok readValidator_eq_ok).mpr ⟨document, hanswer, xs, hwritten, rfl⟩, ?_⟩
    rcases hsets with rfl | rfl
    · exact Or.inl rfl
    · by_cases hempty : (A.validators setId).isEmpty = true
      · exact Or.inl (if_pos hempty)
      · exact Or.inr (if_neg hempty)
  | appchainNotificationHistories index limit =>
    obtain ⟨k, hk, hserved⟩ := h.notifications _ _ _ _ hanswer
    obtain ⟨ns, hwritten, hmap⟩ := listWritten_of_served historyWritten_of_served hserved
    exact ⟨_, (readAnswer_eq_ok readHistory_eq_ok).mpr ⟨document, hanswer, ns, hwritten, hmap⟩,
      k, hk, rfl⟩

/-- The endpoints answer from the anchor contract. -/
theorem Anchor.answers_of_serves {url : Endpoint → String} (h : ∀ e, A.Serves o (url e)) :
    A.Answers (mainchainQueries o url) where
  validators e anchorContract setId obs hrun := by
    have hrun : (MainchainQuery.validatorListOf setId).run o (url e) anchorContract = .ok obs := hrun
    obtain ⟨document, hanswer, -⟩ := (readAnswer_eq_ok readValidator_eq_ok).mp hrun
    obtain ⟨obs', hrun', hset⟩ := (h e).run (q := .validatorListOf setId) hanswer
    rwa [Except.ok.inj (hrun'.symm.trans hrun)] at hset
  notifications e anchorContract index limit obs hrun := by
    have hrun : (MainchainQuery.appchainNotificationHistories index limit).run o (url e)
      anchorContract = .ok obs := hrun
    obtain ⟨document, hanswer, -⟩ := (readAnswer_eq_ok readHistory_eq_ok).mp hrun
    obtain ⟨obs', hrun', hslice⟩ :=
      (h e).run (q := .appchainNotificationHistories index limit) hanswer
    rwa [Except.ok.inj (hrun'.symm.trans hrun)] at hslice

/-! ## Reporting it -/

/-- When the primary endpoint answers, observing does not fail. -/
theorem observe_of_serves {url : Endpoint → String} {anchorContract : List UInt8}
    {s : State cfg AccountId β} (h : A.Serves o (url .primary))
    (hanswers : ∀ q : MainchainQuery, ∃ document,
      q.answer o (url .primary) anchorContract = .ok document) :
    ∃ obs, observe (mainchainQueries o url) anchorContract s = .ok obs := by
  obtain ⟨_, hanswer⟩ := hanswers (.validatorListOf s.nextSetId)
  obtain ⟨sets, hsets, -⟩ := h.run hanswer
  obtain ⟨_, hanswer⟩ := hanswers (.appchainNotificationHistories s.nextNotificationId
    cfg.requestEventLimit)
  obtain ⟨notifications, hnotifications, -⟩ := h.run hanswer
  have hsets : (mainchainQueries o url).getValidatorListOf .primary anchorContract s.nextSetId
    = .ok sets := hsets
  have hnotifications : (mainchainQueries o url).getAppchainNotificationHistories .primary
    anchorContract s.nextNotificationId cfg.requestEventLimit = .ok notifications := hnotifications
  unfold observe
  rw [hsets]
  by_cases hempty : sets.isEmpty = true
  · refine ⟨notifications, Attempt.bind_eq_ok.mpr ⟨sets, rfl, ?_⟩⟩
    rw [if_pos hempty, hnotifications]
    rfl
  · exact ⟨sets, Attempt.bind_eq_ok.mpr ⟨sets, rfl, if_neg hempty⟩⟩

variable {Key Public Signature : Type}

/--
**A worker reports what the anchor contract holds.** However the endpoints write it, with the members
of an object in any order and among others: each call that the worker submits reports the next
validator set or notifications from the next one on, as they are in the contract, and when the primary
endpoint answers, the worker does not fail to observe.
-/
theorem worker_reports_contract (crypto : AppCrypto Key Public AccountId Signature)
    (o : Outside AccountId) (node : Node Key Public AccountId Signature)
    (pool : SignedCall Public AccountId Signature → Except Unit Unit) (lpos : LposInterface AccountId)
    (s : State cfg AccountId β) (blockNumber : Nat) (shouldSend : Bool) (A : Anchor AccountId)
    (hserves : ∀ e, A.Serves o (node.endpoint (isTestnet s.anchorContract) e)) :
    (∀ c ∈ (offchainWorker crypto (mainchainQueries o) node pool lpos s blockNumber shouldSend).2,
      c.payload.observations = [.updateValidatorSet (A.valSet s.nextSetId)] ∨
        ∃ k ≤ cfg.requestEventLimit, c.payload.observations = A.slice s.nextNotificationId k) ∧
      ((∀ q : MainchainQuery, ∃ document, q.answer o
          (node.endpoint (isTestnet s.anchorContract) .primary) s.anchorContract = .ok document) →
        ∃ obs, observe (mainchainQueries o (node.endpoint (isTestnet s.anchorContract)))
          s.anchorContract s = .ok obs) := by
  refine ⟨fun c hc => ?_, observe_of_serves (hserves .primary)⟩
  obtain ⟨-, key, v, hworked⟩ := offchainWorker_spec hc
  exact observe_of_answers (Anchor.answers_of_serves hserves) hworked.observe

namespace Sample

/-- Account 5 validates in every set, and there are no notifications yet. -/
def lone : Anchor Nat := { burns with validators := fun _ => [⟨5, 100⟩] }

/-- The set, with its members in another order and one that is not known. -/
def loneMembers : Members :=
  .cons "total_stake" (.string (toString 100)) (.cons "unbonding" .null
    (.cons "validator_id_in_appchain" (.string "0x05") .close))

def loneService : Outside Nat where
  post _ body := .ok (200, [if body.params.methodName = "get_validator_list_of" then 1 else 0])
  base64 s := s
  response body := some body
  json body := ⟨.array (if body = [1] then .cons (.object loneMembers) .close else .close), true⟩
  hexDecode := hexDecode
  decodeAccount bytes := bytes.head?.map fun b => (b.toNat, bytes.tail)

theorem loneMembers_among : loneMembers.Among validatorNames
    [("validator_id_in_appchain", .string "0x05"), ("total_stake", .string (toString 100))] := by
  refine ⟨trivial, [("unbonding", .null)], ?_, fun p hp => ?_⟩
  · exact (List.perm_append_comm : ([_, _] ++ [_]).Perm ([_] ++ [_, _]))
  · rw [List.mem_singleton.mp hp]
    exact ⟨by decide, rfl⟩

theorem lone_serves (rpcEndpoint : String) : lone.Serves loneService rpcEndpoint where
  validators anchorContract setId document hanswer := by
    have hanswer : callFunction loneService rpcEndpoint anchorContract "get_validator_list_of"
      (encodeGetValidatorArgs loneService setId) = .ok document := hanswer
    obtain ⟨_, body, result, -, hpost, hresponse, rfl⟩ := callFunction_eq_ok.mp hanswer
    cases hpost
    cases hresponse
    refine ⟨[⟨5, 100⟩], Or.inr rfl, rfl, _, rfl, trivial, .cons ?_ .nil⟩
    exact ⟨loneMembers, "0x05", rfl, ⟨['0', '5'], [5], by decide, by decide, rfl⟩, by decide,
      loneMembers_among⟩
  notifications anchorContract index limit document hanswer := by
    have hanswer : callFunction loneService rpcEndpoint anchorContract
      "get_appchain_notification_histories" (encodeGetNotificationArgs loneService index limit)
        = .ok document := hanswer
    obtain ⟨_, body, result, -, hpost, hresponse, rfl⟩ := callFunction_eq_ok.mp hanswer
    cases hpost
    cases hresponse
    exact ⟨0, Nat.zero_le _, rfl, _, rfl, trivial, .nil⟩

end Sample

/-- The worker of validator 2 reports the set. -/
theorem worker_reports_contract_of_one :
    (offchainWorker Sample.appCrypto (mainchainQueries Sample.loneService) Sample.node
        (fun _ => .ok ()) (Lpos.lposInterface (Sample.session 4) (Sample.storage 4))
        Sample.activeChain 5 true).2.map (fun c => c.payload.observations)
      = [[.updateValidatorSet (Sample.lone.valSet 1)]] ∧
    ∀ c ∈ (offchainWorker Sample.appCrypto (mainchainQueries Sample.loneService) Sample.node
        (fun _ => .ok ()) (Lpos.lposInterface (Sample.session 4) (Sample.storage 4))
        Sample.activeChain 5 true).2,
      c.payload.observations = [.updateValidatorSet (Sample.lone.valSet 1)] ∨
        ∃ k ≤ 10, c.payload.observations = Sample.lone.slice 0 k :=
  ⟨by decide, (worker_reports_contract Sample.appCrypto Sample.loneService Sample.node
    (fun _ => .ok ()) (Lpos.lposInterface (Sample.session 4) (Sample.storage 4)) Sample.activeChain
    5 true Sample.lone fun _ => Sample.lone_serves _).1⟩

end OctopusPallets.Appchain
