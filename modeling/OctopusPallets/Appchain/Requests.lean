import OctopusPallets.Infra.Base64
import OctopusPallets.Appchain.Responses
import OctopusPallets.Appchain.Service

/-!
# Requests

The arguments of a query are a JSON text in Base64 inside the body of the request. An endpoint that
decodes them sees the query that was made, for every number of a set and every index, and so the
worker reads what the endpoint has answered to that query.

* `MainchainQuery.ofRequest` — what an endpoint reads in a request
* `ofRequest_request` — it reads the query that was made
* `queries_come_through` — from the query to the observations
-/

namespace OctopusPallets.Appchain

open Infra Infra.Attempt Infra.Json

variable {AccountId : Type}

/-- `base64::encode`. -/
def base64Encode (text : String) : String := String.ofList (Base64.encode (Borsh.asBytes text))

example : base64Encode "\x7b\"era_number\":\"4294967295\"\x7d"
    = "eyJlcmFfbnVtYmVyIjoiNDI5NDk2NzI5NSJ9" := by decide

/-! ## What an endpoint reads -/

/-- The text after a literal. -/
def expect : List Char → List Char → Option (List Char)
  | [], text => some text
  | c :: literal, d :: text => if c = d then expect literal text else none
  | _ :: _, [] => none

/-- A `u32` in decimal, with the text after it. -/
def readDigits (text : List Char) : Option (Nat × List Char) := do
  let n ← parseUnsigned (2 ^ 32) (text.takeWhile Char.isDigit)
  pure (n, text.dropWhile Char.isDigit)

namespace MainchainQuery

/-- The numbers of the query are of the type `u32`. -/
def Fits : MainchainQuery → Prop
  | .validatorListOf setId => setId < 2 ^ 32
  | .appchainNotificationHistories index limit => index < 2 ^ 32 ∧ limit < 2 ^ 32

/-- The arguments, before they are encoded. -/
def args : MainchainQuery → String
  | .validatorListOf setId => "\x7b\"era_number\":\"" ++ toString setId ++ "\"\x7d"
  | .appchainNotificationHistories index limit => "\x7b\"start_index\":\"" ++ toString index ++
      "\",\"quantity\":\"" ++ toString limit ++ "\"\x7d"

def ofArgs (methodName : String) (args : List Char) : Option MainchainQuery :=
  if methodName = "get_validator_list_of" then do
    let args ← expect "\x7b\"era_number\":\"".toList args
    let (setId, args) ← readDigits args
    if args = "\"\x7d".toList then some (.validatorListOf setId) else none
  else if methodName = "get_appchain_notification_histories" then do
    let args ← expect "\x7b\"start_index\":\"".toList args
    let (index, args) ← readDigits args
    let args ← expect "\",\"quantity\":\"".toList args
    let (limit, args) ← readDigits args
    if args = "\"\x7d".toList then some (.appchainNotificationHistories index limit) else none
  else none

/-- The contract that is asked, and the query. -/
def ofRequest (body : HttpBody) : Option (String × MainchainQuery) := do
  let bytes ← Base64.decode body.params.argsBase64.toList
  let args ← Borsh.fromUtf8 bytes
  let q ← ofArgs body.params.methodName args.toList
  pure (body.params.accountId, q)

end MainchainQuery

/-! ## It reads what was asked -/

theorem expect_append : ∀ literal rest : List Char, expect literal (literal ++ rest) = some rest
  | [], _ => rfl
  | c :: literal, rest => by
    rw [List.cons_append, expect, if_pos rfl]
    exact expect_append literal rest

/-- The digits of a number end at a quotation mark. -/
theorem readDigits_toDigits {n : Nat} (h : n < 2 ^ 32) (rest : List Char) :
    readDigits (Nat.toDigits 10 n ++ '"' :: rest) = some (n, '"' :: rest) := by
  have hdigit : ∀ c ∈ Nat.toDigits 10 n, c.isDigit = true := fun c hc =>
    Nat.isDigit_of_mem_toDigits (by decide) (by decide) hc
  have htake : (Nat.toDigits 10 n ++ '"' :: rest).takeWhile Char.isDigit = Nat.toDigits 10 n := by
    rw [List.takeWhile_append_of_pos hdigit, List.takeWhile_cons_of_neg (by decide),
      List.append_nil]
  have hdrop : (Nat.toDigits 10 n ++ '"' :: rest).dropWhile Char.isDigit = '"' :: rest := by
    rw [List.dropWhile_append_of_pos hdigit, List.dropWhile_cons_of_neg (by decide)]
  unfold readDigits
  rw [htake, hdrop, parseUnsigned_toDigits h]
  rfl

theorem toList_toString (n : Nat) : (toString n).toList = Nat.toDigits 10 n := by
  rw [Nat.toString_eq_ofList_toDigits, String.toList_ofList]

namespace MainchainQuery

variable {q : MainchainQuery}

/-- The arguments are read back. -/
theorem ofArgs_args (hq : q.Fits) : ofArgs q.methodName q.args.toList = some q := by
  cases q with
  | validatorListOf setId =>
    have hargs : (validatorListOf setId).args.toList = "\x7b\"era_number\":\"".toList ++
        (Nat.toDigits 10 setId ++ "\"\x7d".toList) := by
      unfold args
      rw [String.toList_append, String.toList_append, toList_toString, List.append_assoc]
    unfold ofArgs methodName
    rw [if_pos rfl, hargs, expect_append]
    simp only [Option.bind_eq_bind, Option.bind_some]
    rw [show "\"\x7d".toList = '"' :: ['\x7d'] from rfl, readDigits_toDigits hq]
    rfl
  | appchainNotificationHistories index limit =>
    have hargs : (appchainNotificationHistories index limit).args.toList
        = "\x7b\"start_index\":\"".toList ++ (Nat.toDigits 10 index ++
          ("\",\"quantity\":\"".toList ++ (Nat.toDigits 10 limit ++ "\"\x7d".toList))) := by
      unfold args
      simp only [String.toList_append, toList_toString, List.append_assoc]
    have hname : (appchainNotificationHistories index limit).methodName
      = "get_appchain_notification_histories" := rfl
    unfold ofArgs
    rw [hname, if_neg (by decide), if_pos rfl, hargs, expect_append]
    simp only [Option.bind_eq_bind, Option.bind_some]
    have hmiddle : ∀ rest, "\",\"quantity\":\"".toList ++ rest
        = '"' :: (",\"quantity\":\"".toList ++ rest) := fun _ => rfl
    rw [hmiddle, readDigits_toDigits hq.1, ← hmiddle]
    simp only [Option.bind_some]
    rw [expect_append]
    simp only [Option.bind_some]
    rw [show "\"\x7d".toList = '"' :: ['\x7d'] from rfl, readDigits_toDigits hq.2]
    rfl

theorem argsBase64_eq {o : Outside AccountId} (hbase64 : o.base64 = base64Encode) :
    q.argsBase64 o = base64Encode q.args := by
  cases q <;> exact congrFun hbase64 _

/-- **An endpoint that decodes a request reads the query that was made.** -/
theorem ofRequest_request {o : Outside AccountId} (hbase64 : o.base64 = base64Encode) (hq : q.Fits)
    (accountId : String) : ofRequest (q.request o accountId) = some (accountId, q) := by
  unfold ofRequest request
  dsimp only
  rw [argsBase64_eq hbase64, base64Encode, String.toList_ofList, Base64.decode_encode]
  simp only [Option.bind_eq_bind, Option.bind_some]
  rw [Borsh.fromUtf8_asBytes]
  simp only [Option.bind_some]
  rw [ofArgs_args hq]
  rfl

end MainchainQuery

/--
**Queries come through.** The endpoint decodes the arguments of a request and answers the query that
it reads. Then a query is run exactly as if it was put to the server itself: it succeeds when the
server answers it, for the anchor contract, with status 200 and a response, and the observations are
those that are written in there.
-/
theorem queries_come_through (h : Host AccountId) (rpcEndpoint : String)
    (server : String → MainchainQuery → Except HttpError (Nat × List UInt8))
    (hbase64 : h.base64 = base64Encode)
    (hpost : ∀ body accountId q, MainchainQuery.ofRequest body = some (accountId, q) →
      h.post rpcEndpoint body = server accountId q)
    {anchorContract : List UInt8} {accountId : String}
    (haccount : Borsh.fromUtf8 anchorContract = some accountId) (q : MainchainQuery) (hq : q.Fits)
    (obs : List (Observation AccountId)) :
    q.run h.outside rpcEndpoint anchorContract = .ok obs ↔
      ∃ body r, server accountId q = .ok (200, body) ∧ (h.json body).ended = true ∧
        ResponseWritten (h.json body).value r ∧ q.Written h.outside (h.json r.result.result) obs := by
  have hserver : h.post rpcEndpoint (q.request h.outside accountId) = server accountId q :=
    hpost _ _ _ (MainchainQuery.ofRequest_request hbase64 hq accountId)
  rw [answers_read_as_written]
  constructor
  · rintro ⟨document, hanswer, hwritten⟩
    rw [MainchainQuery.answer_eq] at hanswer
    obtain ⟨accountId', body, result, haccount', hpost', hresponse, rfl⟩ :=
      callFunction_eq_ok.mp hanswer
    obtain rfl := Option.some.inj (haccount.symm.trans haccount')
    obtain ⟨hended, r, hr, rfl⟩ := Host.response_eq_some.mp hresponse
    exact ⟨body, r, hserver.symm.trans hpost', hended, hr, hwritten⟩
  · rintro ⟨body, r, hanswer, hended, hr, hwritten⟩
    refine ⟨_, ?_, hwritten⟩
    rw [MainchainQuery.answer_eq]
    exact callFunction_eq_ok.mpr ⟨accountId, body, r.result.result, haccount,
      hserver.trans hanswer, Host.response_eq_some.mpr ⟨hended, r, hr, rfl⟩, rfl⟩

namespace Sample

/-- Set 7 of the contract `at`, and nothing else. -/
def seventh : String → MainchainQuery → Except HttpError (Nat × List UInt8)
  | "at", .validatorListOf 7 => .ok (200, [0])
  | _, _ => .error .ioError

def seventhHost : Host Nat where
  post _ body :=
    match MainchainQuery.ofRequest body with
    | some (accountId, q) => seventh accountId q
    | none => .error .ioError
  base64 := base64Encode
  json bytes := if bytes = [0] then ⟨response, true⟩ else ⟨set, true⟩
  hexDecode := hexDecode
  decodeAccount bytes := bytes.head?.map fun b => (b.toNat, bytes.tail)
where
  response : Value := .object <| .cons "jsonrpc" (.string "2.0") <| .cons "result" (.object result) <|
    .cons "id" (.string "dontcare") .close
  result : Members := .cons "result" (.array (.cons (.number (some 1)) .close)) <|
    .cons "logs" (.array .close) <| .cons "block_height" (.number (some 90)) <|
    .cons "block_hash" (.string "h") .close
  set : Value := .array <| .cons (.array <| .cons (.string "0x05") <| .cons (.string "100") .close)
    .close

end Sample

/-- The set is what the server has answered to the query for set 7. -/
theorem queries_come_through_for_seventh :
    ∃ body r, Sample.seventh "at" (.validatorListOf 7) = .ok (200, body) ∧
      (Sample.seventhHost.json body).ended = true ∧
      ResponseWritten (Sample.seventhHost.json body).value r ∧
      (MainchainQuery.validatorListOf 7).Written Sample.seventhHost.outside
        (Sample.seventhHost.json r.result.result) [.updateValidatorSet ⟨7, [⟨5, 100⟩]⟩] := by
  have hrun : (MainchainQuery.validatorListOf 7).run Sample.seventhHost.outside "" [97, 116]
      = .ok [.updateValidatorSet ⟨7, [⟨5, 100⟩]⟩] := by decide
  refine (queries_come_through Sample.seventhHost "" Sample.seventh rfl (fun body accountId q h => ?_)
    (by decide : Borsh.fromUtf8 [97, 116] = some "at") (.validatorListOf 7)
    (by decide : 7 < 2 ^ 32) _).mp hrun
  show (match MainchainQuery.ofRequest body with
    | some (accountId, q) => Sample.seventh accountId q
    | none => .error .ioError) = _
  rw [h]

end OctopusPallets.Appchain
