import OctopusPallets.Appchain.Answers

/-!
# The bodies of answers

The body of an HTTP answer is a `Response`, in which what the method of the anchor contract returned
is an array of its bytes. With that, a query is followed from the request to the observations.

* `readResponse_eq_ok` — the body
* `bodies_read_as_written` — a query as a whole
-/

namespace OctopusPallets.Appchain

open Infra Infra.Attempt Infra.Json

structure ResponseResult where
  result : List UInt8
  logs : List String
  blockHeight : Nat
  blockHash : String

structure Response where
  jsonrpc : String
  result : ResponseResult
  id : String

/-! ## Deserializers -/

/-- `Vec<u8>`. -/
def readByteArray : Reader (List UInt8) := fun v =>
  (readList (readUnsigned 256) v).map (List.map UInt8.ofNat)

structure ResponseResultFields where
  result : Option (List UInt8)
  logs : Option (List String)
  blockHeight : Option Nat
  blockHash : Option String

def responseResultSlots : List (Slot ResponseResultFields) :=
  [⟨_, "result", ResponseResultFields.result, fun b s => { s with result := some b }, readByteArray⟩,
    ⟨_, "logs", ResponseResultFields.logs, fun l s => { s with logs := some l },
      readList readString⟩,
    ⟨_, "block_height", ResponseResultFields.blockHeight,
      fun n s => { s with blockHeight := some n }, readUnsigned (2 ^ 64)⟩,
    ⟨_, "block_hash", ResponseResultFields.blockHash, fun t s => { s with blockHash := some t },
      readString⟩]

def readResponseResult : Reader ResponseResult :=
  readStruct (responseResultSlots.map Slot.reader) ⟨none, none, none, none⟩ fun s => do
    pure ⟨← s.result, ← s.logs, ← s.blockHeight, ← s.blockHash⟩

structure ResponseFields where
  jsonrpc : Option String
  result : Option ResponseResult
  id : Option String

def responseSlots : List (Slot ResponseFields) :=
  [⟨_, "jsonrpc", ResponseFields.jsonrpc, fun t s => { s with jsonrpc := some t }, readString⟩,
    ⟨_, "result", ResponseFields.result, fun r s => { s with result := some r },
      readResponseResult⟩,
    ⟨_, "id", ResponseFields.id, fun t s => { s with id := some t }, readString⟩]

def readResponse : Reader Response :=
  readStruct (responseSlots.map Slot.reader) ⟨none, none, none⟩ fun s => do
    pure ⟨← s.jsonrpc, ← s.result, ← s.id⟩

/-- What the queries call, with the body of an answer read here. -/
structure Host (AccountId : Type) where
  post : String → HttpBody → Except HttpError (Nat × List UInt8)
  base64 : String → String
  json : List UInt8 → Document
  hexDecode : List Char → Option (List UInt8)
  decodeAccount : List UInt8 → Option (AccountId × List UInt8)

variable {AccountId : Type}

/-- `json_response.result.result`. -/
def Host.response (h : Host AccountId) (body : List UInt8) : Option (List UInt8) :=
  match fromSlice readResponse (h.json body) with
  | .ok jsonResponse => some jsonResponse.result.result
  | .error _ => none

def Host.outside (h : Host AccountId) : Outside AccountId :=
  { h with response := h.response }

/-! ## Grammar -/

structure ResponseResultWritten (v : Value) (r : ResponseResult) : Prop where
  shaped : v.Shaped (responseResultSlots.map Slot.name)
  result : v.Gives (responseResultSlots.map Slot.name) "result" readByteArray (some r.result)
  logs : v.Gives (responseResultSlots.map Slot.name) "logs" (readList readString) (some r.logs)
  blockHeight : v.Gives (responseResultSlots.map Slot.name) "block_height" (readUnsigned (2 ^ 64))
    (some r.blockHeight)
  blockHash : v.Gives (responseResultSlots.map Slot.name) "block_hash" readString (some r.blockHash)

structure ResponseWritten (v : Value) (r : Response) : Prop where
  shaped : v.Shaped (responseSlots.map Slot.name)
  jsonrpc : v.Gives (responseSlots.map Slot.name) "jsonrpc" readString (some r.jsonrpc)
  result : ∃ w, v.fieldValues (responseSlots.map Slot.name) "result" = [w] ∧
    ResponseResultWritten w r.result
  id : v.Gives (responseSlots.map Slot.name) "id" readString (some r.id)

theorem responseResultSlots_places : Places ⟨none, none, none, none⟩ responseResultSlots := by
  constructor <;> simp [responseResultSlots, Slot.apart_iff]

theorem responseSlots_places : Places ⟨none, none, none⟩ responseSlots := by
  constructor <;> simp [responseSlots, Slot.apart_iff]

theorem readResponseResult_eq_ok {v : Value} {r : ResponseResult} :
    readResponseResult v = .ok r ↔ ResponseResultWritten v r := by
  refine readStruct_eq_ok.trans ⟨?_, fun h => ?_⟩
  · rintro ⟨⟨_ | result, _ | logs, _ | blockHeight, _ | blockHash⟩, hs, hbuild⟩ <;> cases hbuild
    exact ⟨responseResultSlots_places.shaped hs, responseResultSlots_places.gives hs (.head _),
      responseResultSlots_places.gives hs (.tail _ (.head _)),
      responseResultSlots_places.gives hs (.tail _ (.tail _ (.head _))),
      responseResultSlots_places.gives hs (.tail _ (.tail _ (.tail _ (.head _))))⟩
  · obtain ⟨s, hs, hsame⟩ := responseResultSlots_places.exists_read
      ⟨some r.result, some r.logs, some r.blockHeight, some r.blockHash⟩ h.shaped
      (by simpa [responseResultSlots] using ⟨h.result, h.logs, h.blockHeight, h.blockHash⟩)
    obtain ⟨hresult, hlogs, hheight, hhash⟩ : s.result = some r.result ∧ s.logs = some r.logs ∧
        s.blockHeight = some r.blockHeight ∧ s.blockHash = some r.blockHash := by
      simpa [responseResultSlots] using hsame
    refine ⟨s, hs, ?_⟩
    rw [hresult, hlogs, hheight, hhash]
    rfl

theorem readResponse_eq_ok {v : Value} {r : Response} :
    readResponse v = .ok r ↔ ResponseWritten v r := by
  refine readStruct_eq_ok.trans ⟨?_, fun h => ?_⟩
  · rintro ⟨⟨_ | jsonrpc, _ | result, _ | id⟩, hs, hbuild⟩ <;> cases hbuild
    obtain ⟨w, hw, hread⟩ := responseSlots_places.gives hs (.tail _ (.head _))
    exact ⟨responseSlots_places.shaped hs, responseSlots_places.gives hs (.head _),
      ⟨w, hw, readResponseResult_eq_ok.mp hread⟩,
      responseSlots_places.gives hs (.tail _ (.tail _ (.head _)))⟩
  · obtain ⟨w, hw, hwritten⟩ := h.result
    obtain ⟨s, hs, hsame⟩ := responseSlots_places.exists_read
      ⟨some r.jsonrpc, some r.result, some r.id⟩ h.shaped
      (List.forall_mem_cons.mpr ⟨h.jsonrpc, List.forall_mem_cons.mpr
        ⟨⟨w, hw, readResponseResult_eq_ok.mpr hwritten⟩, List.forall_mem_singleton.mpr h.id⟩⟩)
    obtain ⟨hjsonrpc, hresult, hid⟩ : s.jsonrpc = some r.jsonrpc ∧ s.result = some r.result ∧
        s.id = some r.id := by
      simpa [responseSlots] using hsame
    refine ⟨s, hs, ?_⟩
    rw [hjsonrpc, hresult, hid]
    rfl

/-! ## Queries -/

namespace MainchainQuery

def methodName : MainchainQuery → String
  | .validatorListOf _ => "get_validator_list_of"
  | .appchainNotificationHistories _ _ => "get_appchain_notification_histories"

def argsBase64 (o : Outside AccountId) : MainchainQuery → String
  | .validatorListOf setId => encodeGetValidatorArgs o setId
  | .appchainNotificationHistories index limit => encodeGetNotificationArgs o index limit

/-- The body of the request. -/
def request (o : Outside AccountId) (accountId : String) (q : MainchainQuery) : HttpBody :=
  ⟨"2.0", "dontcare", "query", ⟨"call_function", "final", accountId, q.methodName, q.argsBase64 o⟩⟩

theorem answer_eq (o : Outside AccountId) (rpcEndpoint : String) (anchorContract : List UInt8)
    (q : MainchainQuery) : q.answer o rpcEndpoint anchorContract
      = callFunction o rpcEndpoint anchorContract q.methodName (q.argsBase64 o) := by
  cases q <;> rfl

end MainchainQuery

theorem Host.response_eq_some {h : Host AccountId} {body result : List UInt8} :
    h.response body = some result ↔ (h.json body).ended = true ∧
      ∃ r, ResponseWritten (h.json body).value r ∧ r.result.result = result := by
  unfold Host.response
  constructor
  · intro hresponse
    split at hresponse
    · next r hread =>
      obtain ⟨hended, hr⟩ := fromSlice_eq_ok.mp hread
      exact ⟨hended, r, readResponse_eq_ok.mp hr, Option.some.inj hresponse⟩
    · cases hresponse
  · rintro ⟨hended, r, hr, rfl⟩
    rw [fromSlice_eq_ok.mpr ⟨hended, readResponse_eq_ok.mpr hr⟩]

/--
**Answers are read as they are written.** A query succeeds exactly when the anchor contract is a text,
the endpoint answers the request for it with status 200 and a response, and what the response returns
is a list of validators, or of notifications: objects that have each of their fields once, in any
order and among others, or arrays of the fields in their order. Then the observations are those that
are written there.
-/
theorem bodies_read_as_written (h : Host AccountId) (rpcEndpoint : String)
    (anchorContract : List UInt8) (q : MainchainQuery) (obs : List (Observation AccountId)) :
    q.run h.outside rpcEndpoint anchorContract = .ok obs ↔
      ∃ accountId body r, Borsh.fromUtf8 anchorContract = some accountId ∧
        h.post rpcEndpoint (q.request h.outside accountId) = .ok (200, body) ∧
        (h.json body).ended = true ∧ ResponseWritten (h.json body).value r ∧
        q.Written h.outside (h.json r.result.result) obs := by
  rw [answers_read_as_written]
  constructor
  · rintro ⟨document, hanswer, hwritten⟩
    rw [MainchainQuery.answer_eq] at hanswer
    obtain ⟨accountId, body, result, haccount, hpost, hresponse, rfl⟩ :=
      callFunction_eq_ok.mp hanswer
    obtain ⟨hended, r, hr, rfl⟩ := Host.response_eq_some.mp hresponse
    exact ⟨accountId, body, r, haccount, hpost, hended, hr, hwritten⟩
  · rintro ⟨accountId, body, r, haccount, hpost, hended, hr, hwritten⟩
    refine ⟨_, ?_, hwritten⟩
    rw [MainchainQuery.answer_eq]
    exact callFunction_eq_ok.mpr ⟨accountId, body, r.result.result, haccount, hpost,
      Host.response_eq_some.mpr ⟨hended, r, hr, rfl⟩, rfl⟩

end OctopusPallets.Appchain
