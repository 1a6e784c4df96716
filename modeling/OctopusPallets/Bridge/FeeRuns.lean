import OctopusPallets.Bridge.Fees

/-!
# The fees over runs

Whatever prices and coefficients were set in whatever order, a stored fee is at most the threshold
in native tokens, and a transfer finds one to charge. The fee is that of the stored parameters as
long as the coefficient stays what it was when the prices were set.

* `fee_le_cap` — one computation
* `fee_capped` — every run, and every transfer charged after it
* `fee_follows_parameters` — when the fee follows what it is computed from
-/

namespace OctopusPallets.Bridge

open Infra Infra.Dispatch Infra.FixedWidth

variable {AccountId : Type} {T : FeeConfig AccountId}

/-! ## One computation -/

namespace FeeConfig

variable (T)

/-- Neither product of `calculateAndUpdateFee` leaves the `u128`. -/
def ProductsFit : Prop := T.nativeTokenDecimals * max T.threshold 1000000000 < 2 ^ 128

/-- The threshold in smallest units. -/
def feeCap : Nat := T.threshold * T.nativeTokenDecimals

/-- The amount of a quantity over the naturals. -/
def units (quantity : Nat × Perbill) : Nat :=
  T.nativeTokenDecimals * quantity.1 + T.nativeTokenDecimals * quantity.2.parts / 1000000000

variable {T}

/-- A quantity stays below the threshold, or it is the threshold. -/
theorem quantity_bounded {coef nearPrice nativeTokenPrice : Nat} {quantity : Nat × Perbill}
    (h : T.quantity coef nearPrice nativeTokenPrice = some quantity) :
    quantity.1 < T.threshold ∨ quantity = (T.threshold, .zero) := by
  rw [FeeConfig.quantity, Option.map_eq_some_iff] at h
  obtain ⟨value1, -, rfl⟩ := h
  by_cases hcap : T.threshold ≤ value1 / 100
  · rw [if_pos hcap]
    exact Or.inr rfl
  · rw [if_neg hcap]
    exact Or.inl (Nat.lt_of_not_le hcap)

/-- The fraction adds at most one native token to what is below the threshold. -/
theorem units_le_cap {quantity : Nat × Perbill}
    (h : quantity.1 < T.threshold ∨ quantity = (T.threshold, .zero)) :
    T.units quantity ≤ T.feeCap := by
  unfold units feeCap
  rcases h with hlt | rfl
  · have hfraction := PerThing.scaled_le T.nativeTokenDecimals quantity.2
    have hnext : T.nativeTokenDecimals * (quantity.1 + 1) ≤ T.nativeTokenDecimals * T.threshold :=
      Nat.mul_le_mul_left _ hlt
    rw [Nat.mul_add, Nat.mul_one] at hnext
    rw [Nat.mul_comm T.threshold]
    omega
  · simp [Nat.mul_comm]

theorem feeCap_lt (hfits : T.ProductsFit) : T.feeCap < 2 ^ 128 := by
  rw [feeCap, Nat.mul_comm]
  exact (Nat.mul_le_mul_left _ (Nat.le_max_left _ _)).trans_lt hfits

theorem amount_of_bounded (hfits : T.ProductsFit) {quantity : Nat × Perbill}
    (h : quantity.1 < T.threshold ∨ quantity = (T.threshold, .zero)) :
    T.amount quantity = some (T.units quantity) := by
  have hle : quantity.1 ≤ T.threshold := by
    rcases h with hlt | rfl
    · exact hlt.le
    · exact le_refl _
  have hinteger : T.nativeTokenDecimals * quantity.1 < 2 ^ 128 :=
    (Nat.mul_le_mul_left _ (hle.trans (Nat.le_max_left _ _))).trans_lt hfits
  have hparts : T.nativeTokenDecimals * quantity.2.parts < 2 ^ 128 :=
    (Nat.mul_le_mul_left _ (quantity.2.parts_le.trans (Nat.le_max_right _ _))).trans_lt hfits
  have hsum : T.nativeTokenDecimals * quantity.1
      + T.nativeTokenDecimals * quantity.2.parts / 1000000000 < 2 ^ 128 :=
    (units_le_cap h).trans_lt (feeCap_lt hfits)
  rw [amount, T.build.mul_of_lt hinteger, Option.bind_some, T.build.mul_of_lt hparts,
    Option.bind_some, T.build.add_of_lt hsum]
  rfl

/-- The fee is the amount of the quantity. -/
theorem fee_of_quantity (hfits : T.ProductsFit) {coef nearPrice nativeTokenPrice : Nat}
    {quantity : Nat × Perbill}
    (h : T.quantity coef nearPrice nativeTokenPrice = some quantity) :
    T.fee coef nearPrice nativeTokenPrice
      = (checkedInto T.balanceBits (T.units quantity)).elim
          (.error (bridgeError .invalidFeeMakeOverflow)) .ok := by
  rw [fee, h, Option.bind_some, amount_of_bounded hfits (quantity_bounded h), Option.elim_some]

/-- **A computed fee is at most the cap.** -/
theorem fee_le_cap (hfits : T.ProductsFit) {coef nearPrice nativeTokenPrice fee : Nat}
    (h : T.fee coef nearPrice nativeTokenPrice = .ok fee) : fee ≤ T.feeCap := by
  cases hquantity : T.quantity coef nearPrice nativeTokenPrice with
  | none =>
    rw [FeeConfig.fee, hquantity] at h
    cases h
  | some quantity =>
    rw [fee_of_quantity hfits hquantity] at h
    cases hinto : checkedInto T.balanceBits (T.units quantity) with
    | none =>
      rw [hinto] at h
      cases h
    | some n =>
      rw [hinto, Option.elim_some, Except.ok.injEq] at h
      obtain ⟨-, rfl⟩ := checkedInto_eq_some.mp hinto
      rw [← h]
      exact units_le_cap (quantity_bounded hquantity)

end FeeConfig

/-! ## Every run -/

/-- Every stored fee is there and at most the cap. -/
def FeeState.Capped (s : FeeState T) : Prop :=
  ∀ kind, s.crosschainTransferFee kind = none ∨
    ∃ fee, s.crosschainTransferFee kind = some (some fee) ∧ fee ≤ T.feeCap

theorem FeeEffect.capped (hfits : T.ProductsFit) {origin : Origin AccountId}
    {call : FeeCall AccountId} {s s' : FeeState T} (h : FeeEffect origin call s s')
    (hs : s.Capped) : s'.Capped := by
  cases h with
  | setOracleAccount => exact hs
  | setTokenPrice hnear hnative horacle hfee =>
    intro kind
    exact Or.inr ⟨_, rfl, FeeConfig.fee_le_cap hfits hfee⟩
  | setCoefForCalculateFee hcoef => exact hs

theorem feeMachine_capped [DecidableEq AccountId] (hfits : T.ProductsFit) (b : State T.toConfig)
    (is : List (Origin AccountId × FeeCall AccountId)) :
    ((feeMachine T).run is (feeGenesis b)).Capped := by
  refine (feeMachine T).invariant_state ?_ ?_ is
  · intro kind
    exact Or.inl rfl
  · intro s i hs
    rcases feeMachine_cases i s with hsame | heffect
    · rw [hsame]
      exact hs
    · exact heffect.capped hfits hs

/-! ## What a transfer charges -/

/-- The code does not panic. -/
def Completes {α : Type} (x : Dispatch Fault (State T.toConfig) α) (s : State T.toConfig) : Prop :=
  (x s).1 ≠ .error .abort

namespace Completes

variable {α β : Type} {s : State T.toConfig}

theorem bind {x : Dispatch Fault (State T.toConfig) α}
    {f : α → Dispatch Fault (State T.toConfig) β} (hx : Completes x s)
    (hf : ∀ a s', x s = (.ok a, s') → Completes (f a) s') : Completes (x >>= f) s := by
  unfold Completes at hx ⊢
  rw [bind_apply]
  rcases hs : x s with ⟨e | a, s'⟩
  · rw [hs] at hx
    intro h
    cases h
    exact hx rfl
  · exact hf a s' hs

theorem okOr (o : Option α) {e : Fault} (he : e ≠ .abort) : Completes (okOr o e) s := by
  cases o with
  | none => exact fun h => he (by cases h; rfl)
  | some a => rintro ⟨⟩

/-- A check leaves the storage to what comes after it. -/
theorem okOr_bind {o : Option α} {e : Fault} (he : e ≠ .abort)
    {f : α → Dispatch Fault (State T.toConfig) β} (hf : ∀ a, Completes (f a) s) :
    Completes (Dispatch.okOr o e >>= f) s := by
  refine bind (okOr o he) fun a s' h => ?_
  obtain ⟨-, rfl⟩ := okOr_eq_ok.mp h
  exact hf a

theorem ensure_bind {b : Bool} {e : Fault} (he : e ≠ .abort)
    {f : Unit → Dispatch Fault (State T.toConfig) β} (hf : Completes (f ()) s) :
    Completes (Dispatch.ensure b e >>= f) s := by
  cases b with
  | false => exact fun h => he (by cases h; rfl)
  | true => exact hf

theorem orFail (x : Dispatch DispatchError (State T.toConfig) α) : Completes (orFail x) s := by
  unfold Completes Bridge.orFail mapErr
  rcases x s with ⟨e | a, s'⟩
  · rintro ⟨⟩
  · rintro ⟨⟩

theorem transactional {x : Dispatch Fault (State T.toConfig) α} (hx : Completes x s) :
    Completes (transactional x) s := by
  unfold Completes at hx ⊢
  unfold Dispatch.transactional
  rcases hs : x s with ⟨e | a, s'⟩ <;> rwa [hs] at hx

end Completes

/-- No entry of the table is an absent fee. -/
def State.FeesPresent (s : State T.toConfig) : Prop :=
  ∀ kind, ∃ fee, s.transferFee kind = some fee ∧ fee ≤ T.feeCap

theorem deductFee_completes {s : State T.toConfig} (h : s.FeesPresent)
    (kind : CrossChainTransferType) (sender : AccountId) : Completes (deductFee kind sender) s := by
  obtain ⟨fee, hfee, -⟩ := h kind
  unfold deductFee Completes
  rw [load_bind, hfee, bind_of_ok (okOr_some _ _ _)]
  refine Completes.bind ?_ fun _ _ _ => ?_
  · unfold Completes mapErr
    rcases onBalances _ s with ⟨e | a, s'⟩ <;> rintro ⟨⟩
  · rintro ⟨⟩

/-- What comes after the fee: a call of another pallet, a message and an event. -/
theorem sent_completes {α : Type} (moved : Dispatch DispatchError (State T.toConfig) α)
    (payload : Option (List UInt8)) (submit : List UInt8 → Dispatch DispatchError T.Messages Nat)
    (event : Nat → Event AccountId) (s : State T.toConfig) :
    Completes (do
      let _ ← orFail moved
      let payload ← okOr payload (bridgeError .borshSerializeFailed)
      let sequence ← orFail (onMessages (submit payload))
      depositEvent (event sequence)) s := by
  refine .bind (.orFail _) fun _ _ _ => ?_
  refine .okOr_bind (by rintro ⟨⟩) fun _ => ?_
  refine .bind (.orFail _) fun _ _ _ => ?_
  rintro ⟨⟩

theorem doLock_completes {s : State T.toConfig} (h : s.FeesPresent) (sender : AccountId)
    (receiverId : List UInt8) (amount : Nat) : Completes (doLock sender receiverId amount) s := by
  unfold doLock
  refine .okOr_bind (by rintro ⟨⟩) fun receiver => ?_
  refine .okOr_bind (by rintro ⟨⟩) fun amountWrapped => ?_
  refine .bind (deductFee_completes h .fungible sender) fun fee _ _ => ?_
  refine .okOr_bind (by rintro ⟨⟩) fun feeWrapped => ?_
  exact sent_completes _ _ _ _ _

theorem doBurnNep141_completes {s : State T.toConfig} (h : s.FeesPresent) (assetId : Nat)
    (sender : AccountId) (receiverId : List UInt8) (amount : Nat) :
    Completes (doBurnNep141 assetId sender receiverId amount) s := by
  unfold doBurnNep141
  refine .okOr_bind (by rintro ⟨⟩) fun receiver => ?_
  refine .okOr_bind (by rintro ⟨⟩) fun token => ?_
  refine .okOr_bind (by rintro ⟨⟩) fun tokenId => ?_
  refine .bind (deductFee_completes h .fungible sender) fun fee _ _ => ?_
  refine .okOr_bind (by rintro ⟨⟩) fun feeWrapped => ?_
  exact sent_completes _ _ _ _ _

theorem doLockNonfungible_completes {s : State T.toConfig} (h : s.FeesPresent)
    (collection item : Nat) (sender : AccountId) (receiverId : List UInt8) :
    Completes (doLockNonfungible collection item sender receiverId) s := by
  unfold doLockNonfungible
  refine .okOr_bind (by rintro ⟨⟩) fun receiver => ?_
  refine .okOr_bind (by rintro ⟨⟩) fun metadata => ?_
  refine .okOr_bind (by rintro ⟨⟩) fun data => ?_
  refine .bind (deductFee_completes h .nonfungible sender) fun fee _ _ => ?_
  refine .okOr_bind (by rintro ⟨⟩) fun feeWrapped => ?_
  exact sent_completes _ _ _ _ _

/-- A call of an account. -/
theorem dispatch_completes {s : State T.toConfig} (h : s.FeesPresent)
    (appchain : AppchainInterface AccountId) (sender : AccountId) (call : PalletCall AccountId) :
    Completes (call.dispatch appchain (.signed sender)) s := by
  have houtbound : ∀ f : AccountId → Dispatch Fault (State T.toConfig) Unit,
      Completes (f sender) s → Completes (outbound appchain (.signed sender) f) s := by
    intro f hf
    exact .transactional (.ensure_bind (by rintro ⟨⟩) hf)
  cases call with
  | lock receiverId amount => exact houtbound _ (doLock_completes h sender receiverId amount)
  | burnNep141 assetId receiverId amount =>
    exact houtbound _ (doBurnNep141_completes h assetId sender receiverId amount)
  | lockNonfungible collection item receiverId =>
    exact houtbound _ (doLockNonfungible_completes h collection item sender receiverId)
  | setTokenId _ _ | deleteTokenId _ | forceUnlock _ _ | forceMintNep141 _ _ _
  | forceUnlockNonfungible _ _ _ => rintro ⟨⟩

/-- What a transfer takes from the balances: the fee, to the account of the pallet, and the amount
of a lock. -/
def Charges (sender : AccountId) (call : PalletCall AccountId) (fee : Nat)
    (s s' : State T.toConfig) : Prop :=
  ∃ paid, T.currency.transfer sender T.accountId fee .allowDeath s.balances = (.ok (), paid) ∧
    match call with
    | .lock _ amount =>
      T.currency.transfer sender T.accountId amount .allowDeath paid = (.ok (), s'.balances)
    | _ => s'.balances = paid

theorem Outbound.charges {sender : AccountId} {call : PalletCall AccountId}
    {s s' : State T.toConfig} (hout : Outbound sender call s s') (h : s.FeesPresent) :
    ∃ fee, fee ≤ T.feeCap ∧ Charges sender call fee s s' := by
  have hcap : ∀ kind fee, s.transferFee kind = some fee → fee ≤ T.feeCap := by
    intro kind fee hfee
    obtain ⟨fee', hfee', hle⟩ := h kind
    rw [hfee, Option.some.injEq] at hfee'
    rw [hfee']
    exact hle
  cases hout with
  | lock hreceiver hamount hstored hfee hmoved hmessage hsubmit =>
    exact ⟨_, hcap _ _ hstored, _, hfee, hmoved⟩
  | burnNep141 hreceiver htoken htokenId hstored hfee hburned hmessage hsubmit =>
    exact ⟨_, hcap _ _ hstored, _, hfee, rfl⟩
  | lockNonfungible hreceiver hmetadata hstored hfee hmoved hmessage hsubmit =>
    exact ⟨_, hcap _ _ hstored, _, hfee, rfl⟩

/-- **The fee is capped.** After any calls that set fees, every stored fee is there and at most the
threshold in native tokens: no transfer panics, and one that goes through charges at most that. -/
theorem fee_capped [DecidableEq AccountId] (hfits : T.ProductsFit) (b : State T.toConfig)
    (is : List (Origin AccountId × FeeCall AccountId)) :
    ((feeMachine T).run is (feeGenesis b)).Capped ∧
      ∀ s : State T.toConfig,
        s.crosschainTransferFee = ((feeMachine T).run is (feeGenesis b)).crosschainTransferFee →
        ∀ (appchain : AppchainInterface AccountId) (sender : AccountId)
          (call : PalletCall AccountId),
          (call.dispatch appchain (.signed sender) s).1 ≠ .error .abort ∧
            ∀ s', call.dispatch appchain (.signed sender) s = (.ok (), s') →
              ∃ fee, fee ≤ T.feeCap ∧ Charges sender call fee s s' := by
  have hcapped := feeMachine_capped hfits b is
  refine ⟨hcapped, fun s hs appchain sender call => ?_⟩
  have hpresent : s.FeesPresent := by
    intro kind
    unfold State.transferFee
    rw [hs]
    rcases hcapped kind with hnone | ⟨fee, hfee, hle⟩
    · exact ⟨0, by rw [hnone, Option.getD_none], Nat.zero_le _⟩
    · exact ⟨fee, by rw [hfee, Option.getD_some], hle⟩
  refine ⟨dispatch_completes hpresent appchain sender call, fun s' hok => ?_⟩
  rcases dispatch_signed appchain sender call s with ⟨e, he⟩ | ⟨t, ht, -, hout⟩
  · rw [he] at hok
    cases hok
  · rw [ht] at hok
    cases hok
    exact hout.charges hpresent

theorem Sample.productsFit : Sample.feeConfig.ProductsFit := by
  unfold FeeConfig.ProductsFit
  decide

/-- With the constants of the mock runtime, after a price that the threshold cuts. -/
theorem fee_capped_after_price :
    Sample.feeConfig.ProductsFit ∧
      ((feeMachine Sample.feeConfig).run
        [(.root, .setOracleAccount 1), (.signed 1, .setTokenPrice 3119000 1)]
        (feeGenesis Sample.state)).Capped :=
  ⟨Sample.productsFit, (fee_capped Sample.productsFit Sample.state _).1⟩

/-! ## What a fee follows -/

/-- Where both prices are stored, both fees are those of the stored parameters. -/
def FeeState.Follows (s : FeeState T) : Prop :=
  ∀ nearPrice nativeTokenPrice, s.nearPrice = some nearPrice →
    s.tokenPrice = some nativeTokenPrice →
    ∃ fee, T.fee s.coef nearPrice nativeTokenPrice = .ok fee ∧
      ∀ kind, s.crosschainTransferFee kind = some (some fee)

/-- A call that sets the coefficient while prices are stored sets the stored one. -/
def FeeState.KeepsCoef (s : FeeState T) (i : Origin AccountId × FeeCall AccountId) : Prop :=
  match i.2 with
  | .setCoefForCalculateFee coef =>
    i.1 = .root → 0 < coef ∧ coef ≤ 100 → s.nearPrice ≠ none → coef = s.coef
  | _ => True

theorem FeeEffect.follows {origin : Origin AccountId} {call : FeeCall AccountId}
    {s s' : FeeState T} (h : FeeEffect origin call s s') (hkeeps : s.KeepsCoef (origin, call))
    (hs : s.Follows) : s'.Follows := by
  cases h with
  | setOracleAccount => exact hs
  | setTokenPrice hnear hnative horacle hfee =>
    rintro _ _ ⟨⟩ ⟨⟩
    exact ⟨_, hfee, fun _ => rfl⟩
  | setCoefForCalculateFee hcoef =>
    intro nearPrice nativeTokenPrice hnear hnative
    have hsome : s.nearPrice ≠ none := by
      intro hnone
      rw [hnone] at hnear
      cases hnear
    obtain ⟨fee, hfee, htable⟩ := hs nearPrice nativeTokenPrice hnear hnative
    rw [← hkeeps rfl hcoef hsome] at hfee
    exact ⟨fee, hfee, htable⟩

/-- A new coefficient keeps the relation exactly when it gives the same fee. -/
theorem follows_setCoef_iff {s : FeeState T} (hs : s.Follows) {nearPrice nativeTokenPrice : Nat}
    (hnear : s.nearPrice = some nearPrice) (hnative : s.tokenPrice = some nativeTokenPrice)
    (coef : Nat) (feeEvents : List (FeeEvent AccountId)) :
    FeeState.Follows { s with
        coef
        feeEvents } ↔
      T.fee coef nearPrice nativeTokenPrice = T.fee s.coef nearPrice nativeTokenPrice := by
  obtain ⟨fee, hfee, htable⟩ := hs nearPrice nativeTokenPrice hnear hnative
  rw [hfee]
  constructor
  · intro h
    obtain ⟨fee', hfee', htable'⟩ := h nearPrice nativeTokenPrice hnear hnative
    have hsame : some (some fee) = some (some fee') :=
      (htable .fungible).symm.trans (htable' .fungible)
    cases hsame
    exact hfee'
  · intro h nearPrice' nativeTokenPrice' hnear' hnative'
    cases hnear.symm.trans hnear'
    cases hnative.symm.trans hnative'
    exact ⟨fee, h, htable⟩

/-- **The fee follows its parameters as long as the coefficient stays.** It does in every state that
calls reach which keep the coefficient while prices are stored, and a call that sets another one
keeps it exactly when both give the same fee. -/
theorem fee_follows_parameters [DecidableEq AccountId] (b : State T.toConfig)
    (is : List (Origin AccountId × FeeCall AccountId)) :
    ((feeMachine T).Along FeeState.KeepsCoef is (feeGenesis b) →
        ((feeMachine T).run is (feeGenesis b)).Follows) ∧
      ∀ nearPrice nativeTokenPrice coef,
        ((feeMachine T).run is (feeGenesis b)).Follows →
        ((feeMachine T).run is (feeGenesis b)).nearPrice = some nearPrice →
        ((feeMachine T).run is (feeGenesis b)).tokenPrice = some nativeTokenPrice →
        0 < coef → coef ≤ 100 →
        (((feeMachine T).run (is ++ [(.root, .setCoefForCalculateFee coef)])
            (feeGenesis b)).Follows ↔
          T.fee coef nearPrice nativeTokenPrice
            = T.fee ((feeMachine T).run is (feeGenesis b)).coef nearPrice nativeTokenPrice) := by
  constructor
  · intro h
    refine (feeMachine T).invariant (I := fun _ s _ => s.Follows) ?_ ?_ is h
    · rintro _ _ ⟨⟩
    · intro _ s _ i hs hkeeps
      rcases feeMachine_cases i s with hsame | heffect
      · rw [hsame]
        exact hs
      · exact heffect.follows hkeeps hs
  · intro nearPrice nativeTokenPrice coef hs hnear hnative hpos hle
    have heffect := FeeCall.dispatch_eq_ok.mpr
      (FeeEffect.setCoefForCalculateFee (s := (feeMachine T).run is (feeGenesis b)) ⟨hpos, hle⟩)
    have hstep := congrArg Prod.snd heffect
    rw [Machine.run_append]
    exact (congrArg FeeState.Follows hstep).to_iff.trans (follows_setCoef_iff hs hnear hnative _ _)

/-- Keeping the coefficient: the prices come after it. -/
theorem fee_follows_after_price :
    ((feeMachine Sample.feeConfig).run
      [(.root, .setCoefForCalculateFee 4), (.root, .setOracleAccount 1),
        (.signed 1, .setTokenPrice 1000 1000)] (feeGenesis Sample.state)).Follows :=
  (fee_follows_parameters (T := Sample.feeConfig) Sample.state
    [(.root, .setCoefForCalculateFee 4), (.root, .setOracleAccount 1),
      (.signed 1, .setTokenPrice 1000 1000)]).1 ⟨fun _ _ h => absurd rfl h, trivial, trivial, trivial⟩

/-- The coefficient changes after the prices: the fees stay those of the old one. -/
theorem fee_outlives_coef :
    ¬ ((feeMachine Sample.feeConfig).run
      [(.root, .setOracleAccount 1), (.signed 1, .setTokenPrice 1000 1000),
        (.root, .setCoefForCalculateFee 4)] (feeGenesis Sample.state)).Follows := by
  intro h
  obtain ⟨fee, hfee, htable⟩ := h 1000 1000 (by decide +kernel) (by decide +kernel)
  have hnew : Sample.feeConfig.fee 4 1000 1000 = .ok 40000000000000000 := by decide +kernel
  have hcoef : ((feeMachine Sample.feeConfig).run
      [(.root, .setOracleAccount 1), (.signed 1, .setTokenPrice 1000 1000),
        (.root, .setCoefForCalculateFee 4)] (feeGenesis Sample.state)).coef = 4 := by
    decide +kernel
  have hold : ((feeMachine Sample.feeConfig).run
      [(.root, .setOracleAccount 1), (.signed 1, .setTokenPrice 1000 1000),
        (.root, .setCoefForCalculateFee 4)] (feeGenesis Sample.state)).crosschainTransferFee
        .fungible = some (some 30000000000000000) := by
    decide +kernel
  rw [hcoef, hnew, Except.ok.injEq] at hfee
  rw [htable, ← hfee] at hold
  cases hold

end OctopusPallets.Bridge
