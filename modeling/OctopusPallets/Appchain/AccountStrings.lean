import OctopusPallets.Appchain.Mainchain

/-!
# Account strings from the mainchain

The accounts in an answer of the mainchain are strings that its users chose. The deserializer cuts
off the first two bytes without looking at them, which aborts when they are not there, or end inside
a character, and it looks at no byte behind the account.

* `readsAsWritten_iff` — one string
* `hostile_accounts_iff` — a query, whatever the answer
-/

namespace OctopusPallets.Appchain

open Infra Infra.Attempt Infra.Json

variable {AccountId : Type}

/-! ## The accounts of an answer -/

/-- The account strings in a list of validators. -/
def validatorAccounts (o : Outside AccountId) (answer : Value) : List Value :=
  match answer with
  | .array elements => elements.toList.flatMap
    (Value.fieldValues ((validatorFields o).map FieldReader.name) "validator_id_in_appchain")
  | _ => []

/-- The fields of the event under the name of a variant. -/
def eventFields (o : Outside AccountId) : String → List (FieldReader (EventFields AccountId))
  | "NearFungibleTokenLocked" => lockAssetFields o
  | "WrappedAppchainTokenBurnt" => burnFields o
  | "WrappedAppchainNFTLocked" => burnNftFields o
  | _ => []

/-- The account strings in a notification. -/
def notificationAccounts (o : Outside AccountId) : Value → List Value
  | .object (.cons key event _) =>
    event.fieldValues ((eventFields o key).map FieldReader.name) "receiver_id_in_appchain"
  | _ => []

/-- The account strings in a list of notifications. -/
def historyAccounts (o : Outside AccountId) (answer : Value) : List Value :=
  match answer with
  | .array elements => elements.toList.flatMap fun v =>
    (v.fieldValues ((historyFields o).map FieldReader.name) "appchain_notification").flatMap
      (notificationAccounts o)
  | _ => []

/-! ## Who can abort -/

/-- The deserializer does not abort at these values. -/
def Reads (o : Outside AccountId) (accounts : List Value) : Prop :=
  ∀ v ∈ accounts, ¬ (accountDeserializeFromHexStr o v).Aborts

theorem deserializeFromStr_not_aborts (bound : Nat) (v : Value) :
    ¬ (deserializeFromStr bound v).Aborts :=
  not_aborts_bind (readString_not_aborts v) fun _ _ => not_aborts_okOr _ _

theorem readValidator_not_aborts {o : Outside AccountId} {v : Value}
    (h : Reads o (v.fieldValues ((validatorFields o).map FieldReader.name)
      "validator_id_in_appchain")) :
    ¬ (readValidator o v).Aborts := by
  refine readStruct_not_aborts fun f hf w hw s => ?_
  simp only [validatorFields, List.mem_cons, List.not_mem_nil, or_false] at hf
  rcases hf with rfl | rfl
  · exact not_aborts_map (h w hw)
  · exact not_aborts_map (deserializeFromStr_not_aborts _ w)

/-- The fields of the events abort at their receiver only. -/
theorem eventField_not_aborts {o : Outside AccountId} {key : String}
    {f : FieldReader (EventFields AccountId)} (hf : f ∈ eventFields o key) {w : Value}
    (h : f.name = "receiver_id_in_appchain" → ¬ (accountDeserializeFromHexStr o w).Aborts)
    (s : EventFields AccountId) : ¬ (f.read s w).Aborts := by
  have hindex := not_aborts_map (f := fun n => { s with index := some n })
    (readUnsigned_not_aborts (2 ^ 32) w)
  have hbytes : ∀ set : List UInt8 → EventFields AccountId, ¬ Aborts
      (Except.map set (readBytes Borsh.asBytes w) : Attempt Unit _) :=
    fun set => not_aborts_map (readBytes_not_aborts _ w)
  have hinteger : ∀ set : Nat → EventFields AccountId, ¬ Aborts
      (Except.map set (deserializeFromStr (2 ^ 128) w) : Attempt Unit _) :=
    fun set => not_aborts_map (deserializeFromStr_not_aborts _ w)
  unfold eventFields at hf
  split at hf
  · simp only [lockAssetFields, List.mem_cons, List.not_mem_nil, or_false] at hf
    rcases hf with rfl | rfl | rfl | rfl | rfl
    · exact hindex
    · exact hbytes _
    · exact hbytes _
    · exact not_aborts_map (h rfl)
    · exact hinteger _
  · simp only [burnFields, List.mem_cons, List.not_mem_nil, or_false] at hf
    rcases hf with rfl | rfl | rfl | rfl
    · exact hindex
    · exact hbytes _
    · exact not_aborts_map (h rfl)
    · exact hinteger _
  · simp only [burnNftFields, List.mem_cons, List.not_mem_nil, or_false] at hf
    rcases hf with rfl | rfl | rfl | rfl | rfl
    · exact hindex
    · exact hbytes _
    · exact not_aborts_map (h rfl)
    · exact hinteger _
    · exact hinteger _
  · cases hf

/-- An event is read without aborting when its receiver is. -/
theorem readEvent_not_aborts {o : Outside AccountId} {key : String} {event : Value} {α : Type}
    {build : EventFields AccountId → Option α}
    (h : Reads o (event.fieldValues ((eventFields o key).map FieldReader.name)
      "receiver_id_in_appchain")) :
    ¬ (readStruct (eventFields o key) .empty build event).Aborts := by
  refine readStruct_not_aborts fun f hf w hw s => eventField_not_aborts hf (fun hname => ?_) s
  rw [hname] at hw
  exact h w hw

theorem readNotification_not_aborts {o : Outside AccountId} {v : Value}
    (h : Reads o (notificationAccounts o v)) :
    ¬ (readVariant (notificationVariants o) v).Aborts := by
  refine readVariant_not_aborts fun key event tail hv read hread => ?_
  subst hv
  unfold notificationVariants at hread
  split at hread
  · rw [← Option.some.inj hread]
    exact not_aborts_map (readEvent_not_aborts h)
  · rw [← Option.some.inj hread]
    exact not_aborts_map (readEvent_not_aborts h)
  · rw [← Option.some.inj hread]
    exact not_aborts_map (readEvent_not_aborts h)
  · cases hread

theorem readHistory_not_aborts {o : Outside AccountId} {v : Value}
    (h : Reads o ((v.fieldValues ((historyFields o).map FieldReader.name)
      "appchain_notification").flatMap (notificationAccounts o))) :
    ¬ (readHistory o v).Aborts := by
  refine readStruct_not_aborts fun f hf w hw s => ?_
  simp only [historyFields, List.mem_cons, List.not_mem_nil, or_false] at hf
  rcases hf with rfl | rfl
  · exact not_aborts_map (readNotification_not_aborts fun u hu =>
      h u (List.mem_flatMap.mpr ⟨w, hw, hu⟩))
  · exact not_aborts_map (deserializeFromStr_not_aborts _ w)

theorem readList_not_aborts {α : Type} {read : Reader α} {answer : Value}
    (h : ∀ elements, answer = .array elements → ∀ v ∈ elements.toList, ¬ (read v).Aborts) :
    ¬ (readList read answer).Aborts := by
  unfold readList
  split
  · exact readAll_not_aborts (h _ rfl)
  · exact not_aborts_invalid

/-- What the two queries share, for an answer whose elements are read without aborting. -/
theorem readAnswer_not_aborts {α β : Type} {call : Attempt HttpError Document} {read : Reader α}
    {result : List α → β} (hcall : ¬ call.Aborts)
    (h : ∀ document elements, call = .ok document → document.value = .array elements →
      ∀ v ∈ elements.toList, ¬ (read v).Aborts) :
    ¬ Aborts (do
      let document ← call
      let l ← mapErr (fun _ => HttpError.unknown) (fromSlice (readList read) document)
      pure (result l)) := by
  refine not_aborts_bind hcall fun document hdocument => ?_
  refine not_aborts_bind (not_aborts_mapErr (fromSlice_not_aborts ?_)) fun _ _ => not_aborts_ok _
  exact readList_not_aborts fun elements helements => h document elements hdocument helements

theorem callFunction_not_aborts (o : Outside AccountId) (rpcEndpoint : String)
    (anchorContract : List UInt8) (methodName argsBase64 : String) :
    ¬ (callFunction o rpcEndpoint anchorContract methodName argsBase64).Aborts := by
  refine not_aborts_bind (not_aborts_okOr _ _) fun accountId _ => ?_
  dsimp only
  split
  · exact not_aborts_error _
  · split
    · exact not_aborts_error _
    · exact not_aborts_bind (not_aborts_okOr _ _) fun _ _ => not_aborts_ok _

/-! ## One string -/

/-- What is expected of a string: no abort, and an account only when the string is `0x` and the
digits of one account. -/
structure ReadsAsWritten (o : Outside AccountId) (s : String) : Prop where
  not_aborts : ¬ (accountDeserializeFromHexStr o (.string s)).Aborts
  written : ∀ a, accountDeserializeFromHexStr o (.string s) = .ok a →
    ∃ digits bytes, s.toList = '0' :: 'x' :: digits ∧ o.hexDecode digits = some bytes ∧
      o.decodeAccount bytes = some (a, [])

/-- A character begins at the third byte, or the string ends there; and if digits of an account
follow, they follow `0x`, and nothing follows the account. -/
def AccountString (o : Outside AccountId) (s : String) : Prop :=
  ∃ first digits, s.toList = first ++ digits ∧ Utf8.utf8Length first = 2 ∧
    ∀ bytes a rest, o.hexDecode digits = some bytes → o.decodeAccount bytes = some (a, rest) →
      first = ['0', 'x'] ∧ rest = []

theorem accountDeserializeFromHexStr_eq_ok {o : Outside AccountId} {s : String} {a : AccountId} :
    accountDeserializeFromHexStr o (.string s) = .ok a ↔ ∃ digits bytes rest,
      Utf8.sliceFrom s.toList 2 = some digits ∧ o.hexDecode digits = some bytes ∧
        o.decodeAccount bytes = some (a, rest) := by
  simp only [accountDeserializeFromHexStr, readString, bind_eq_ok, orAbort_eq_ok, okOr_eq_ok,
    pure_eq_ok]
  constructor
  · rintro ⟨_, ⟨⟩, digits, hslice, bytes, hhex, ⟨_, rest⟩, hdecoded, rfl⟩
    exact ⟨digits, bytes, rest, hslice, hhex, hdecoded⟩
  · rintro ⟨digits, bytes, rest, hslice, hhex, hdecoded⟩
    exact ⟨s, rfl, digits, hslice, bytes, hhex, (a, rest), hdecoded, rfl⟩

theorem accountDeserializeFromHexStr_aborts {o : Outside AccountId} {s : String} :
    (accountDeserializeFromHexStr o (.string s)).Aborts ↔ Utf8.sliceFrom s.toList 2 = none := by
  simp only [accountDeserializeFromHexStr, readString, bind_aborts, orAbort_aborts]
  constructor
  · -- what comes after the slice fails with errors only
    rintro (h | ⟨_, ⟨⟩, hslice | ⟨digits, -, h | ⟨bytes, -, h | ⟨decoded, -, h⟩⟩⟩⟩)
    · cases h
    · exact hslice
    · exact absurd h (not_aborts_okOr _ _)
    · exact absurd h (not_aborts_okOr _ _)
    · exact absurd h (not_aborts_ok _)
  · intro hslice
    exact Or.inr ⟨s, rfl, Or.inl hslice⟩

/-- **The strings that are read as they should be.** -/
theorem readsAsWritten_iff {o : Outside AccountId} {s : String} :
    ReadsAsWritten o s ↔ AccountString o s := by
  constructor
  · rintro ⟨hreads, hwritten⟩
    rw [accountDeserializeFromHexStr_aborts] at hreads
    obtain ⟨digits, hslice⟩ := Option.ne_none_iff_exists'.mp hreads
    obtain ⟨first, hsplit, hlength⟩ := Utf8.sliceFrom_eq_some.mp hslice
    refine ⟨first, digits, hsplit, hlength, fun bytes a rest hhex hdecoded => ?_⟩
    obtain ⟨digits', bytes', htext, hhex', hdecoded'⟩ := hwritten a
      (accountDeserializeFromHexStr_eq_ok.mpr ⟨digits, bytes, rest, hslice, hhex, hdecoded⟩)
    -- `0x` is two bytes, so that the slice begins where the digits do
    have hcut : Utf8.sliceFrom s.toList 2 = some digits' :=
      Utf8.sliceFrom_eq_some.mpr ⟨['0', 'x'], htext, by decide⟩
    obtain rfl := Option.some.inj (hslice.symm.trans hcut)
    obtain rfl := Option.some.inj (hhex.symm.trans hhex')
    have hrest := Option.some.inj (hdecoded.symm.trans hdecoded')
    refine ⟨List.append_cancel_right (hsplit.symm.trans htext), (Prod.mk.inj hrest).2⟩
  · rintro ⟨first, digits, hsplit, hlength, hdigits⟩
    have hslice : Utf8.sliceFrom s.toList 2 = some digits :=
      Utf8.sliceFrom_eq_some.mpr ⟨first, hsplit, hlength⟩
    constructor
    · rw [accountDeserializeFromHexStr_aborts, hslice]
      simp
    · intro a ha
      obtain ⟨digits', bytes, rest, hslice', hhex, hdecoded⟩ :=
        accountDeserializeFromHexStr_eq_ok.mp ha
      obtain rfl := Option.some.inj (hslice.symm.trans hslice')
      obtain ⟨rfl, rfl⟩ := hdigits bytes a rest hhex hdecoded
      exact ⟨digits, bytes, hsplit, hhex, hdecoded⟩

/-! ## Queries -/

/-- One of the two queries. -/
inductive MainchainQuery where
  | validatorListOf (setId : Nat)
  | appchainNotificationHistories (index limit : Nat)

namespace MainchainQuery

def run (o : Outside AccountId) (rpcEndpoint : String) (anchorContract : List UInt8) :
    MainchainQuery → Attempt HttpError (List (Observation AccountId))
  | .validatorListOf setId => getValidatorListOf o rpcEndpoint anchorContract setId
  | .appchainNotificationHistories index limit =>
    getAppchainNotificationHistories o rpcEndpoint anchorContract index limit

/-- The answer to the query, if there is one. -/
def answer (o : Outside AccountId) (rpcEndpoint : String) (anchorContract : List UInt8) :
    MainchainQuery → Attempt HttpError Document
  | .validatorListOf setId => callFunction o rpcEndpoint anchorContract "get_validator_list_of"
    (encodeGetValidatorArgs o setId)
  | .appchainNotificationHistories index limit =>
    callFunction o rpcEndpoint anchorContract "get_appchain_notification_histories"
      (encodeGetNotificationArgs o index limit)

/-- The accounts in the answer. -/
def accounts (o : Outside AccountId) (rpcEndpoint : String) (anchorContract : List UInt8)
    (q : MainchainQuery) : List Value :=
  match q.answer o rpcEndpoint anchorContract with
  | .error _ => []
  | .ok document =>
    match q with
    | .validatorListOf _ => validatorAccounts o document.value
    | .appchainNotificationHistories _ _ => historyAccounts o document.value

/-- **A query ends when the deserializer of the accounts does.** -/
theorem run_not_aborts {o : Outside AccountId} {rpcEndpoint : String}
    {anchorContract : List UInt8} (q : MainchainQuery)
    (h : Reads o (q.accounts o rpcEndpoint anchorContract)) :
    ¬ (q.run o rpcEndpoint anchorContract).Aborts := by
  unfold accounts at h
  cases q with
  | validatorListOf setId =>
    refine readAnswer_not_aborts (callFunction_not_aborts _ _ _ _ _)
      fun document elements hanswer helements v hv => readValidator_not_aborts fun w hw => ?_
    rw [answer, hanswer] at h
    refine h w ?_
    dsimp only
    rw [helements]
    exact List.mem_flatMap.mpr ⟨v, hv, hw⟩
  | appchainNotificationHistories index limit =>
    refine readAnswer_not_aborts (callFunction_not_aborts _ _ _ _ _)
      fun document elements hanswer helements v hv => readHistory_not_aborts fun w hw => ?_
    rw [answer, hanswer] at h
    refine h w ?_
    dsimp only
    rw [helements]
    exact List.mem_flatMap.mpr ⟨v, hv, hw⟩

end MainchainQuery

/-- What is expected of a query: it ends, and reads the accounts in the answer as they are
written. -/
def AnswerHandled (o : Outside AccountId) (rpcEndpoint : String) (anchorContract : List UInt8)
    (q : MainchainQuery) : Prop :=
  ¬ (q.run o rpcEndpoint anchorContract).Aborts ∧
    ∀ s, Value.string s ∈ q.accounts o rpcEndpoint anchorContract → ReadsAsWritten o s

/-- What is no string is an error, not an abort. -/
theorem accountDeserializeFromHexStr_of_not_string {o : Outside AccountId} {v : Value}
    (h : ∀ s, v ≠ .string s) : ¬ (accountDeserializeFromHexStr o v).Aborts := by
  refine not_aborts_bind (readString_not_aborts v) fun s hs => ?_
  cases v with
  | string s' => exact absurd rfl (h s')
  | _ => cases hs

theorem reads_of_accountStrings {o : Outside AccountId} {accounts : List Value}
    (h : ∀ s, Value.string s ∈ accounts → AccountString o s) : Reads o accounts := by
  intro v hv
  cases v with
  | string s => exact (readsAsWritten_iff.mpr (h s hv)).not_aborts
  | _ => exact accountDeserializeFromHexStr_of_not_string nofun

/--
**Hostile account strings.** For every answer of the mainchain, the query ends and reads the
accounts as they are written exactly when each account string has a character boundary behind its
second byte and, if digits of an account follow, they follow `0x` and nothing follows the account.
-/
theorem hostile_accounts_iff (o : Outside AccountId) (rpcEndpoint : String)
    (anchorContract : List UInt8) (q : MainchainQuery) :
    AnswerHandled o rpcEndpoint anchorContract q ↔
      ∀ s, Value.string s ∈ q.accounts o rpcEndpoint anchorContract → AccountString o s := by
  constructor
  · rintro ⟨-, hreads⟩ s hs
    exact readsAsWritten_iff.mp (hreads s hs)
  · intro hstrings
    exact ⟨q.run_not_aborts (reads_of_accountStrings hstrings),
      fun s hs => readsAsWritten_iff.mpr (hstrings s hs)⟩

namespace Sample

def hexDigit (c : Char) : Option Nat :=
  if c.isDigit then some (c.toNat - '0'.toNat)
  else if 'a'.toNat ≤ c.toNat ∧ c.toNat ≤ 'f'.toNat then some (c.toNat - 'a'.toNat + 10)
  else if 'A'.toNat ≤ c.toNat ∧ c.toNat ≤ 'F'.toNat then some (c.toNat - 'A'.toNat + 10)
  else none

def hexDecode : List Char → Option (List UInt8)
  | [] => some []
  | [_] => none
  | high :: low :: digits => do
    let h ← hexDigit high
    let l ← hexDigit low
    let bytes ← hexDecode digits
    pure (UInt8.ofNat (16 * h + l) :: bytes)

/-- Accounts of 32 bytes. -/
def decodeAccount (bytes : List UInt8) : Option (List UInt8 × List UInt8) :=
  if bytes.length < 32 then none else some (bytes.take 32, bytes.drop 32)

/-- A validator whose account is the empty string. -/
def result : List UInt8 :=
  Borsh.asBytes "[\x7b\"validator_id_in_appchain\":\"\",\"total_stake\":\"1\"\x7d]"

def body : List UInt8 :=
  Borsh.asBytes ("\x7b\"jsonrpc\":\"2.0\",\"result\":\x7b\"result\":" ++
    toString (result.map UInt8.toNat) ++
    ",\"logs\":[],\"block_height\":1,\"block_hash\":\"\"\x7d,\"id\":\"dontcare\"\x7d")

def document : Document :=
  ⟨.array (.cons (.object (.cons "validator_id_in_appchain" (.string "")
    (.cons "total_stake" (.string "1") .close))) .close), true⟩

def outside : Outside (List UInt8) where
  post _ _ := .ok (200, body)
  base64 _ := "eyJlcmFfbnVtYmVyIjoiMSJ9"
  response bytes := if bytes = body then some result else none
  json bytes := if bytes = result then document else ⟨.broken, false⟩
  hexDecode := hexDecode
  decodeAccount := decodeAccount

end Sample

/-- The answer of a call that the endpoint serves. -/
theorem callFunction_of_response {o : Outside AccountId} {rpcEndpoint accountId : String}
    {methodName argsBase64 : String} {body result : List UInt8}
    (hpost : ∀ request, o.post rpcEndpoint request = .ok (200, body))
    (hresponse : o.response body = some result) :
    callFunction o rpcEndpoint (Borsh.asBytes accountId) methodName argsBase64
      = .ok (o.json result) := by
  unfold callFunction
  rw [Borsh.fromUtf8_asBytes]
  simp only [bind_eq_ok, okOr_eq_ok, hpost]
  refine ⟨accountId, rfl, ?_⟩
  rw [if_neg (by simp), hresponse]
  rfl

/-- A user of the mainchain who leaves the account empty stops the offchain worker. -/
theorem empty_account_aborts :
    ¬ AnswerHandled Sample.outside "https://rpc.testnet.near.org" (Borsh.asBytes "octopus.testnet")
      (.validatorListOf 1) := by
  have hresponse : Sample.outside.response Sample.body = some Sample.result := by
    simp [Sample.outside]
  have hjson : Sample.outside.json Sample.result = Sample.document := by simp [Sample.outside]
  have hanswer : ∀ argsBase64, callFunction Sample.outside "https://rpc.testnet.near.org"
      (Borsh.asBytes "octopus.testnet") "get_validator_list_of" argsBase64
        = .ok Sample.document := by
    intro argsBase64
    rw [callFunction_of_response (fun _ => rfl) hresponse, hjson]
  rintro ⟨hends, -⟩
  refine hends ?_
  rw [MainchainQuery.run, getValidatorListOf, hanswer]
  rfl

end OctopusPallets.Appchain
