import OctopusPallets.Infra.Machine
import OctopusPallets.Infra.PerThing
import OctopusPallets.Bridge.Transfers

/-!
# The fees of the bridge

The three calls of `bridge/src/lib.rs` that the fees depend on: root names the oracle account and
sets the coefficient, and the oracle sets the two prices and with them the fees.

* `calculateAndUpdateFee_apply` — what a fee is computed from
* `FeeCall.dispatch_cases` — what a call does
-/

namespace OctopusPallets.Bridge

open Infra Infra.Dispatch Infra.FixedWidth

/-- Parts per billion. -/
abbrev Perbill : Type := PerThing 1000000000

/-- The constants that the fees are computed with, besides the associated types. -/
structure FeeConfig (AccountId : Type) extends Config AccountId where
  build : Build
  /-- One native token in smallest unit. -/
  nativeTokenDecimals : Nat
  /-- The upper limit of the number of native tokens paid by the relay fee. -/
  threshold : Nat
  /-- `Perbill::from_rational`. -/
  fromRational : (p q : Nat) → Perbill

inductive FeeEvent (AccountId : Type) where
  | oracleAccountHasBeenSet (who : AccountId)
  | priceUpdated (who : AccountId) (nearPrice nativeTokenPrice : Nat)
  | coefUpdated (coef : Nat)
deriving DecidableEq

variable {AccountId : Type}

/-- The storage of the transfers, and what the fees are computed from. The events of the fees are in
a list of their own. -/
structure FeeState (T : FeeConfig AccountId) extends State T.toConfig where
  oracleAccount : Option AccountId
  /-- Token price setted by oracle account. -/
  tokenPrice : Option Nat
  /-- Near price setted by oracle account. -/
  nearPrice : Option Nat
  /-- Coef used to calculate fee for cross chain transactions. -/
  coef : Nat
  feeEvents : List (FeeEvent AccountId)

variable {T : FeeConfig AccountId}

/-- `DefaultForCoef`. -/
def defaultForCoef : Nat := 3

/-- `GenesisBuild::build` writes none of the items of the fees. -/
def feeGenesis (b : State T.toConfig) : FeeState T where
  toState := { b with crosschainTransferFee := fun _ => none }
  oracleAccount := none
  tokenPrice := none
  nearPrice := none
  coef := defaultForCoef
  feeEvents := []

def depositFeeEvent (event : FeeEvent AccountId) : Dispatch Fault (FeeState T) Unit :=
  store fun s => { s with feeEvents := s.feeEvents ++ [event] }

/-- The value of a plain operator. -/
def operator (value : Option Nat) : Dispatch Fault (FeeState T) Nat := okOr value .abort

def onTransfers {α : Type} (x : Dispatch Fault (State T.toConfig) α) :
    Dispatch Fault (FeeState T) α :=
  zoom FeeState.toState (fun b s => { s with toState := b }) x

/-! ## The fee -/

/--
Calculate:
  coef = Coef / 100,
  quantity = coef * near_native_token_price / wrapped_appchain_token_price.
If quantity > threshold, then quantity = threshold.
-/
def calculateQuantityOfNativeTokens (nearPrice nativeTokenPrice : Nat) :
    Dispatch Fault (FeeState T) (Nat × Perbill) := do
  -- a division by zero aborts in every build
  ensure (nativeTokenPrice != 0) .abort
  -- (integer, fraction) = near_native_token_price / wrapped_appchain_token_price
  let integer := if nativeTokenPrice ≤ nearPrice then nearPrice / nativeTokenPrice else 0
  let remain := nearPrice % nativeTokenPrice
  let fraction := T.fromRational remain nativeTokenPrice
  -- (integer1, fraction1) = integer * coef
  let coef ← load FeeState.coef
  let value1 ← operator (T.build.mul 64 integer coef)
  let integer1 := if 100 ≤ value1 then value1 / 100 else 0
  if T.threshold ≤ integer1 then
    pure (T.threshold, .zero)
  else do
    let remain1 := value1 % 100
    let fraction1 := T.fromRational remain1 100
    -- fraction2 = fraction * coef
    let fraction2 := fraction * T.fromRational coef 100
    -- result = (integer1, fraction1) + (0, fraction2)
    pure (integer1, fraction1 + fraction2)

/-- `CrosschainTransferFee::insert`. -/
def insertFee (kind : CrossChainTransferType) (fee : Nat) : Dispatch Fault (FeeState T) Unit :=
  store fun s => { s with
    crosschainTransferFee := Function.update s.crosschainTransferFee kind (some (some fee)) }

def calculateAndUpdateFee (nearPrice nativeTokenPrice : Nat) :
    Dispatch Fault (FeeState T) Unit := do
  let (integer, fraction) ← calculateQuantityOfNativeTokens nearPrice nativeTokenPrice
  let feeInteger ← operator (T.build.mul 128 T.nativeTokenDecimals integer)
  let scaled ← operator (T.build.mul 128 T.nativeTokenDecimals fraction.parts)
  let feeFraction := scaled / 1000000000
  let fee ← operator (T.build.add 128 feeInteger feeFraction)
  let ftFee ← okOr (checkedInto T.balanceBits fee) (bridgeError .invalidFeeMakeOverflow)
  let nftFee := ftFee
  insertFee .fungible ftFee
  insertFee .nonfungible nftFee

/-! ## The calls

The framework runs every dispatched call in a storage layer of its own, so a call that fails after a
write leaves nothing behind. -/

def setOracleAccount (origin : Origin AccountId) (who : AccountId) :
    Dispatch Fault (FeeState T) Unit := do
  onTransfers (ensureRoot origin)
  store fun s => { s with oracleAccount := some who }
  depositFeeEvent (.oracleAccountHasBeenSet who)

def setTokenPrice [DecidableEq AccountId] (origin : Origin AccountId)
    (nearPrice nativeTokenPrice : Nat) : Dispatch Fault (FeeState T) Unit := do
  let who ← onTransfers (ensureSigned origin)
  ensure (nearPrice != 0) (bridgeError .nearPriceSetedIsZero)
  ensure (nativeTokenPrice != 0) (bridgeError .nativeTokenPriceSetedIsZero)
  let oracleAccount ← load FeeState.oracleAccount
  let oracleAccount ← okOr oracleAccount (bridgeError .noOracleAccount)
  ensure (who == oracleAccount) (bridgeError .updatePriceWithNoPermissionAccount)
  store fun s => { s with tokenPrice := some nativeTokenPrice }
  store fun s => { s with nearPrice := some nearPrice }
  calculateAndUpdateFee nearPrice nativeTokenPrice
  depositFeeEvent (.priceUpdated who nearPrice nativeTokenPrice)

def setCoefForCalculateFee (origin : Origin AccountId) (coef : Nat) :
    Dispatch Fault (FeeState T) Unit := do
  onTransfers (ensureRoot origin)
  ensure (decide (0 < coef) && decide (coef ≤ 100)) (bridgeError .invalidCoef)
  store fun s => { s with coef }
  depositFeeEvent (.coefUpdated coef)

inductive FeeCall (AccountId : Type) where
  | setOracleAccount (who : AccountId)
  | setTokenPrice (nearPrice nativeTokenPrice : Nat)
  | setCoefForCalculateFee (coef : Nat)

def FeeCall.dispatch [DecidableEq AccountId] (origin : Origin AccountId) :
    FeeCall AccountId → Dispatch Fault (FeeState T) Unit
  | .setOracleAccount who => transactional (Bridge.setOracleAccount origin who)
  | .setTokenPrice nearPrice nativeTokenPrice =>
    transactional (Bridge.setTokenPrice origin nearPrice nativeTokenPrice)
  | .setCoefForCalculateFee coef => transactional (Bridge.setCoefForCalculateFee origin coef)

/-- The pallet as a machine that reads these calls. -/
def feeMachine [DecidableEq AccountId] (T : FeeConfig AccountId) :
    Machine (FeeState T) (Origin AccountId × FeeCall AccountId) Unit where
  step i s := ((i.2.dispatch i.1 s).2, [])

/-! ## What a fee is computed from -/

namespace FeeConfig

variable (T)

/-- The quantity for a coefficient, unless the product aborts. -/
def quantity (coef nearPrice nativeTokenPrice : Nat) : Option (Nat × Perbill) :=
  (T.build.mul 64 (nearPrice / nativeTokenPrice) coef).map fun value1 =>
    if T.threshold ≤ value1 / 100 then (T.threshold, .zero)
    else (value1 / 100, T.fromRational (value1 % 100) 100
      + T.fromRational (nearPrice % nativeTokenPrice) nativeTokenPrice * T.fromRational coef 100)

/-- The amount of a quantity, in smallest units. -/
def amount (quantity : Nat × Perbill) : Option Nat :=
  (T.build.mul 128 T.nativeTokenDecimals quantity.1).bind fun feeInteger =>
    (T.build.mul 128 T.nativeTokenDecimals quantity.2.parts).bind fun scaled =>
      T.build.add 128 feeInteger (scaled / 1000000000)

/-- The fee is an amount that the balances have. -/
def fee (coef nearPrice nativeTokenPrice : Nat) : Except Fault Nat :=
  ((T.quantity coef nearPrice nativeTokenPrice).bind T.amount).elim (.error .abort) fun fee =>
    (checkedInto T.balanceBits fee).elim (.error (bridgeError .invalidFeeMakeOverflow)) .ok

end FeeConfig

/-- The state with both fees set. -/
def FeeState.withFee (s : FeeState T) (fee : Nat) : FeeState T :=
  { s with crosschainTransferFee := fun _ => some (some fee) }

/-- What a computation of the fee ends with. -/
def FeeState.settle (s : FeeState T) : Except Fault Nat → Except Fault Unit × FeeState T
  | .error e => (.error e, s)
  | .ok fee => (.ok (), s.withFee fee)

theorem ensure_true {b : Bool} (h : b = true) (e : Fault) (s : FeeState T) :
    ensure b e s = (.ok (), s) :=
  ensure_eq_ok.mpr ⟨h, rfl⟩

@[simp] theorem operator_some (n : Nat) (s : FeeState T) : operator (some n) s = (.ok n, s) := rfl

@[simp] theorem operator_none (s : FeeState T) :
    operator (none : Option Nat) s = (.error .abort, s) := rfl

theorem calculateQuantityOfNativeTokens_apply (s : FeeState T) (nearPrice : Nat)
    {nativeTokenPrice : Nat} (hnative : nativeTokenPrice ≠ 0) :
    calculateQuantityOfNativeTokens nearPrice nativeTokenPrice s
      = okOr (T.quantity s.coef nearPrice nativeTokenPrice) .abort s := by
  have hinteger : (if nativeTokenPrice ≤ nearPrice then nearPrice / nativeTokenPrice else 0)
      = nearPrice / nativeTokenPrice := by
    split
    · rfl
    · next hlt => exact (Nat.div_eq_of_lt (Nat.not_le.mp hlt)).symm
  have hhundreds : ∀ n : Nat, (if 100 ≤ n then n / 100 else 0) = n / 100 := by
    intro n
    split
    · rfl
    · next hlt => exact (Nat.div_eq_of_lt (Nat.not_le.mp hlt)).symm
  unfold calculateQuantityOfNativeTokens FeeConfig.quantity
  rw [bind_of_ok (ensure_true (bne_iff_ne.mpr hnative) _ s)]
  simp only [hinteger, hhundreds]
  rw [load_bind]
  cases T.build.mul 64 (nearPrice / nativeTokenPrice) s.coef with
  | none => exact bind_of_error (operator_none s)
  | some value1 =>
    rw [bind_of_ok (operator_some value1 s), Option.map_some, okOr_some]
    by_cases hcap : T.threshold ≤ value1 / 100
    · rw [if_pos hcap, if_pos hcap, pure_apply]
    · rw [if_neg hcap, if_neg hcap, pure_apply]

/-- The three operators of `calculateAndUpdateFee`, before what it does with the amount. -/
theorem amount_bind (quantity : Nat × Perbill) (f : Nat → Dispatch Fault (FeeState T) Unit)
    (s : FeeState T) :
    (operator (T.build.mul 128 T.nativeTokenDecimals quantity.1) >>= fun feeInteger =>
        operator (T.build.mul 128 T.nativeTokenDecimals quantity.2.parts) >>= fun scaled =>
          operator (T.build.add 128 feeInteger (scaled / 1000000000)) >>= f) s
      = (T.amount quantity).elim (.error .abort, s) fun fee => f fee s := by
  rw [FeeConfig.amount]
  cases T.build.mul 128 T.nativeTokenDecimals quantity.1 with
  | none => rfl
  | some feeInteger =>
    rw [bind_of_ok (operator_some feeInteger s), Option.bind_some]
    cases T.build.mul 128 T.nativeTokenDecimals quantity.2.parts with
    | none => rfl
    | some scaled =>
      rw [bind_of_ok (operator_some scaled s), Option.bind_some]
      cases T.build.add 128 feeInteger (scaled / 1000000000) with
      | none => rfl
      | some fee => rfl

/-- The rest of `calculateAndUpdateFee`, once it has the amount. -/
theorem storeFee_apply (fee : Nat) (s : FeeState T) :
    (okOr (checkedInto T.balanceBits fee) (bridgeError .invalidFeeMakeOverflow) >>= fun ftFee => do
        insertFee .fungible ftFee
        insertFee .nonfungible ftFee) s
      = s.settle ((checkedInto T.balanceBits fee).elim
          (.error (bridgeError .invalidFeeMakeOverflow)) .ok) := by
  cases checkedInto T.balanceBits fee with
  | none => rfl
  | some ftFee =>
    have htable : Function.update (Function.update s.crosschainTransferFee .fungible
        (some (some ftFee))) .nonfungible (some (some ftFee)) = fun _ => some (some ftFee) := by
      funext kind
      cases kind <;> rfl
    exact congrArg (fun table => (Except.ok (), { s with crosschainTransferFee := table })) htable

/-- **The fee is a function of the prices and the coefficient.** -/
theorem calculateAndUpdateFee_apply (s : FeeState T) {nearPrice nativeTokenPrice : Nat}
    (hnative : nativeTokenPrice ≠ 0) :
    calculateAndUpdateFee nearPrice nativeTokenPrice s
      = s.settle (T.fee s.coef nearPrice nativeTokenPrice) := by
  have hquantity := calculateQuantityOfNativeTokens_apply s nearPrice hnative
  rw [calculateAndUpdateFee, FeeConfig.fee]
  cases hquantity' : T.quantity s.coef nearPrice nativeTokenPrice with
  | none =>
    rw [hquantity'] at hquantity
    exact bind_of_error hquantity
  | some quantity =>
    obtain ⟨integer, fraction⟩ := quantity
    rw [hquantity', okOr_some] at hquantity
    refine (bind_of_ok hquantity).trans ((amount_bind (integer, fraction) _ s).trans ?_)
    rw [Option.bind_some]
    cases T.amount (integer, fraction) with
    | none => rfl
    | some fee => exact storeFee_apply fee s

theorem calculateAndUpdateFee_eq_ok {s s' : FeeState T} {nearPrice nativeTokenPrice : Nat}
    (hnative : nativeTokenPrice ≠ 0) :
    calculateAndUpdateFee nearPrice nativeTokenPrice s = (.ok (), s') ↔
      ∃ fee, T.fee s.coef nearPrice nativeTokenPrice = .ok fee ∧ s' = s.withFee fee := by
  rw [calculateAndUpdateFee_apply s hnative]
  cases T.fee s.coef nearPrice nativeTokenPrice with
  | error e => simp [FeeState.settle]
  | ok fee => simp [FeeState.settle, eq_comm]

/-! ## What a call does -/

/-- A call that goes through. -/
inductive FeeEffect :
    Origin AccountId → FeeCall AccountId → FeeState T → FeeState T → Prop where
  | setOracleAccount {s : FeeState T} {who : AccountId} :
    FeeEffect .root (.setOracleAccount who) s { s with
      oracleAccount := some who
      feeEvents := s.feeEvents ++ [.oracleAccountHasBeenSet who] }
  | setTokenPrice {s : FeeState T} {who : AccountId} {nearPrice nativeTokenPrice fee : Nat}
    (hnear : nearPrice ≠ 0) (hnative : nativeTokenPrice ≠ 0)
    (horacle : s.oracleAccount = some who)
    (hfee : T.fee s.coef nearPrice nativeTokenPrice = .ok fee) :
    FeeEffect (.signed who) (.setTokenPrice nearPrice nativeTokenPrice) s { s with
      tokenPrice := some nativeTokenPrice
      nearPrice := some nearPrice
      crosschainTransferFee := fun _ => some (some fee)
      feeEvents := s.feeEvents ++ [.priceUpdated who nearPrice nativeTokenPrice] }
  | setCoefForCalculateFee {s : FeeState T} {coef : Nat} (hcoef : 0 < coef ∧ coef ≤ 100) :
    FeeEffect .root (.setCoefForCalculateFee coef) s { s with
      coef
      feeEvents := s.feeEvents ++ [.coefUpdated coef] }

theorem onTransfers_ensureRoot_eq_ok {origin : Origin AccountId} {u : Unit} {s s' : FeeState T} :
    onTransfers (ensureRoot origin) s = (.ok u, s') ↔ origin = .root ∧ s' = s := by
  unfold onTransfers
  rw [zoom_eq_ok]
  cases origin <;> simp [ensureRoot]

theorem onTransfers_ensureSigned_eq_ok {origin : Origin AccountId} {who : AccountId}
    {s s' : FeeState T} :
    onTransfers (ensureSigned origin) s = (.ok who, s') ↔ origin = .signed who ∧ s' = s := by
  unfold onTransfers
  rw [zoom_eq_ok]
  cases origin with
  | signed sender =>
    simp only [ensureSigned, pure_eq_ok]
    constructor
    · rintro ⟨_, ⟨rfl, rfl⟩, rfl⟩
      exact ⟨rfl, rfl⟩
    · rintro ⟨⟨⟩, rfl⟩
      exact ⟨_, ⟨rfl, rfl⟩, rfl⟩
  | root | none => simp [ensureSigned]

variable [DecidableEq AccountId]

theorem setTokenPrice_eq_ok {origin : Origin AccountId} {nearPrice nativeTokenPrice : Nat}
    {s s' : FeeState T} :
    setTokenPrice origin nearPrice nativeTokenPrice s = (.ok (), s') ↔
      FeeEffect origin (.setTokenPrice nearPrice nativeTokenPrice) s s' := by
  simp only [setTokenPrice, depositFeeEvent, bind_eq_ok, onTransfers_ensureSigned_eq_ok,
    ensure_eq_ok, load_eq_ok, okOr_eq_ok, store_eq_ok, bne_iff_ne, beq_iff_eq]
  constructor
  · rintro ⟨who, _, ⟨rfl, rfl⟩, _, _, ⟨hnear, rfl⟩, _, _, ⟨hnative, rfl⟩, _, _, ⟨rfl, rfl⟩, _, _,
      ⟨horacle, rfl⟩, _, _, ⟨rfl, rfl⟩, _, _, rfl, _, _, rfl, _, _, hstored, rfl⟩
    obtain ⟨fee, hfee, rfl⟩ := (calculateAndUpdateFee_eq_ok hnative).mp hstored
    exact .setTokenPrice hnear hnative horacle hfee
  · rintro ⟨⟩
    next who fee hnear hnative horacle hfee =>
      exact ⟨who, _, ⟨rfl, rfl⟩, (), _, ⟨hnear, rfl⟩, (), _, ⟨hnative, rfl⟩, _, _, ⟨rfl, rfl⟩, _, _,
        ⟨horacle, rfl⟩, (), _, ⟨rfl, rfl⟩, (), _, rfl, (), _, rfl, (), _,
        (calculateAndUpdateFee_eq_ok hnative).mpr ⟨fee, hfee, rfl⟩, rfl⟩

/-- **What a call that goes through does.** -/
theorem FeeCall.dispatch_eq_ok {origin : Origin AccountId} {call : FeeCall AccountId}
    {s s' : FeeState T} :
    call.dispatch origin s = (.ok (), s') ↔ FeeEffect origin call s s' := by
  cases call with
  | setOracleAccount who =>
    simp only [FeeCall.dispatch, transactional_eq_ok, Bridge.setOracleAccount, depositFeeEvent,
      bind_eq_ok, onTransfers_ensureRoot_eq_ok, store_eq_ok]
    constructor
    · rintro ⟨_, _, ⟨rfl, rfl⟩, _, _, rfl, rfl⟩
      exact .setOracleAccount
    · rintro ⟨⟩
      exact ⟨(), _, ⟨rfl, rfl⟩, (), _, rfl, rfl⟩
  | setTokenPrice nearPrice nativeTokenPrice =>
    rw [FeeCall.dispatch, transactional_eq_ok]
    exact setTokenPrice_eq_ok
  | setCoefForCalculateFee coef =>
    simp only [FeeCall.dispatch, transactional_eq_ok, Bridge.setCoefForCalculateFee,
      depositFeeEvent, bind_eq_ok, onTransfers_ensureRoot_eq_ok, store_eq_ok, ensure_eq_ok,
      Bool.and_eq_true, decide_eq_true_eq]
    constructor
    · rintro ⟨_, _, ⟨rfl, rfl⟩, _, _, ⟨hcoef, rfl⟩, _, _, rfl, rfl⟩
      exact .setCoefForCalculateFee hcoef
    · rintro ⟨⟩
      next hcoef => exact ⟨(), _, ⟨rfl, rfl⟩, (), _, ⟨hcoef, rfl⟩, (), _, rfl, rfl⟩

/-- **A call changes nothing, or it goes through.** -/
theorem feeMachine_cases (i : Origin AccountId × FeeCall AccountId) (s : FeeState T) :
    ((feeMachine T).step i s).1 = s ∨ FeeEffect i.1 i.2 s ((feeMachine T).step i s).1 := by
  obtain ⟨origin, call⟩ := i
  have htransactional : (∃ e, call.dispatch origin s = (.error e, s)) ∨
      ∃ s', call.dispatch origin s = (.ok (), s') := by
    cases call <;> exact transactional_cases _ s
  rcases htransactional with ⟨e, he⟩ | ⟨s', hs'⟩
  · exact Or.inl (congrArg Prod.snd he)
  · have heffect := FeeCall.dispatch_eq_ok.mp hs'
    refine Or.inr ?_
    have hstep : ((feeMachine T).step (origin, call) s).1 = s' := congrArg Prod.snd hs'
    rw [hstep]
    exact heffect

namespace Sample

/-- The quotient rounded down, and one where it is not below one. -/
def fromRational (p q : Nat) : Perbill :=
  if p < q then .ofParts (p * 1000000000 / q) else .one

/-- The constants of the mock runtime. -/
def feeConfig : FeeConfig Nat where
  toConfig := config
  build := .release
  nativeTokenDecimals := 1000000000000000000
  threshold := 300
  fromRational := fromRational

/-- The oracle is account 1. -/
def feeState : FeeState feeConfig := { feeGenesis state with oracleAccount := some 1 }

/-- The fee after the oracle set two prices. -/
def feeOfPrices (nearPrice nativeTokenPrice : Nat) : Option (Option Nat) :=
  ((FeeCall.setTokenPrice nearPrice nativeTokenPrice).dispatch (.signed 1)
    feeState).2.crosschainTransferFee .fungible

-- the prices of `test_set_token_price`
example : feeOfPrices 1000 1000 = some (some 30000000000000000) := by decide +kernel

example : feeOfPrices 3119000 6620000 = some (some 14134441000000000) := by decide +kernel

example : feeOfPrices 3119000 20535200000 = some (some 4556000000000) := by decide +kernel

example : feeOfPrices 3119000 41000 = some (some 2282195121000000000) := by decide +kernel

example : feeOfPrices 3119000 1 = some (some 300000000000000000000) := by decide +kernel

end Sample

end OctopusPallets.Bridge
