import Mathlib.Tactic.LinearCombination
import OctopusPallets.Bridge.FeeRuns

/-!
# How accurate a fee is

A fee is computed from the integer and the fractional part of a quotient, which are scaled on their
own. What is exact, within the rounding of `Perbill`, is the integer part with at most one more
native token: the carry out of the fractions is lost, unless the threshold cuts it off.

* `calculateAndUpdateFee_accuracy` — when the fee is close to the exact one
* `fee_monotone` — when a higher price never makes a lower fee
-/

namespace OctopusPallets.Bridge

open Infra Infra.Dispatch Infra.FixedWidth

variable {AccountId : Type} {T : FeeConfig AccountId}

namespace FeeConfig

variable (T)

/-! ## What `Perbill` does -/

/-- `from_rational` is within `10^-8`. -/
def RationalsNear : Prop :=
  ∀ p q, p ≤ q → 0 < q → q < 2 ^ 64 → |(T.fromRational p q).value - p / q| ≤ 1 / 10 ^ 8

/-- `from_rational` is exact on hundredths. -/
def HundredthsExact : Prop := ∀ p, p ≤ 100 → (T.fromRational p 100).parts = p * 10000000

/-- `from_rational` grows with the numerator. -/
def RationalsMonotone : Prop :=
  ∀ p p' q, p ≤ p' → p' ≤ q → q < 2 ^ 64 →
    (T.fromRational p q).parts ≤ (T.fromRational p' q).parts

/-- The fraction of a quantity that the threshold does not cut. -/
def fraction (coef nearPrice nativeTokenPrice : Nat) : Perbill :=
  T.fromRational (nearPrice / nativeTokenPrice * coef % 100) 100
    + T.fromRational (nearPrice % nativeTokenPrice) nativeTokenPrice * T.fromRational coef 100

variable {T}

theorem quantity_of_le {coef nearPrice nativeTokenPrice : Nat}
    (hproduct : nearPrice / nativeTokenPrice * coef < 2 ^ 64)
    (h : T.threshold ≤ nearPrice / nativeTokenPrice * coef / 100) :
    T.quantity coef nearPrice nativeTokenPrice = some (T.threshold, .zero) := by
  rw [FeeConfig.quantity, T.build.mul_of_lt hproduct, Option.map_some, if_pos h]

theorem quantity_of_lt {coef nearPrice nativeTokenPrice : Nat}
    (hproduct : nearPrice / nativeTokenPrice * coef < 2 ^ 64)
    (h : nearPrice / nativeTokenPrice * coef / 100 < T.threshold) :
    T.quantity coef nearPrice nativeTokenPrice
      = some (nearPrice / nativeTokenPrice * coef / 100,
          T.fraction coef nearPrice nativeTokenPrice) := by
  rw [FeeConfig.quantity, T.build.mul_of_lt hproduct, Option.map_some, if_neg h.not_ge]
  rfl

variable (T)

/-! ## The exact fee -/

/-- The fee over the rationals. -/
def exactFee (coef nearPrice nativeTokenPrice : Nat) : ℚ :=
  T.nativeTokenDecimals * min (T.threshold : ℚ) (coef * nearPrice / (100 * nativeTokenPrice))

/-- How far from it a fee may be. -/
def tolerance : ℚ := T.nativeTokenDecimals / 10 ^ 7 + 1

/-- The two fractions over the rationals: of the hundredths, and of the quotient. -/
def fractions (coef nearPrice nativeTokenPrice : Nat) : ℚ :=
  ((nearPrice / nativeTokenPrice * coef % 100 : Nat) : ℚ) / 100
    + coef * (nearPrice % nativeTokenPrice : Nat) / (100 * nativeTokenPrice)

/-- No carry of note is lost: the threshold cuts it off, or the fractions are hardly above one. -/
def CarryKept (coef nearPrice nativeTokenPrice : Nat) : Prop :=
  T.threshold ≤ nearPrice / nativeTokenPrice * coef / 100 + 1 ∨
    T.nativeTokenDecimals * (fractions coef nearPrice nativeTokenPrice - 1) ≤ T.tolerance

theorem exact_quotient (coef nearPrice : Nat) {nativeTokenPrice : Nat} (h : 0 < nativeTokenPrice) :
    (coef : ℚ) * nearPrice / (100 * nativeTokenPrice)
      = (nearPrice / nativeTokenPrice * coef / 100 : Nat)
        + fractions coef nearPrice nativeTokenPrice := by
  have hpos : (nativeTokenPrice : ℚ) ≠ 0 := by exact_mod_cast h.ne'
  have hprice : (nearPrice : ℚ) = nativeTokenPrice * (nearPrice / nativeTokenPrice : Nat)
      + (nearPrice % nativeTokenPrice : Nat) := by
    exact_mod_cast (Nat.div_add_mod nearPrice nativeTokenPrice).symm
  have hvalue : ((nearPrice / nativeTokenPrice : Nat) : ℚ) * coef
      = 100 * (nearPrice / nativeTokenPrice * coef / 100 : Nat)
        + (nearPrice / nativeTokenPrice * coef % 100 : Nat) := by
    exact_mod_cast (Nat.div_add_mod (nearPrice / nativeTokenPrice * coef) 100).symm
  unfold fractions
  rw [hprice]
  field_simp
  linear_combination nativeTokenPrice * hvalue

theorem fractions_lt_two {coef : Nat} (hcoef : coef ≤ 100) (nearPrice : Nat)
    {nativeTokenPrice : Nat} (h : 0 < nativeTokenPrice) :
    fractions coef nearPrice nativeTokenPrice < 2 := by
  have hpos : (0 : ℚ) < nativeTokenPrice := by exact_mod_cast h
  have hhundredths : ((nearPrice / nativeTokenPrice * coef % 100 : Nat) : ℚ) < 100 := by
    exact_mod_cast Nat.mod_lt _ (by decide)
  have hremain : ((nearPrice % nativeTokenPrice : Nat) : ℚ) < nativeTokenPrice := by
    exact_mod_cast Nat.mod_lt _ h
  have hle : (coef : ℚ) ≤ 100 := by exact_mod_cast hcoef
  have hproduct : (coef : ℚ) * (nearPrice % nativeTokenPrice : Nat)
      ≤ 100 * (nearPrice % nativeTokenPrice : Nat) :=
    mul_le_mul_of_nonneg_right hle (Nat.cast_nonneg _)
  have hsecond : (coef : ℚ) * (nearPrice % nativeTokenPrice : Nat) / (100 * nativeTokenPrice)
      < 1 := by
    rw [div_lt_one (by positivity)]
    linarith
  unfold fractions
  linarith

variable {T}

theorem hundredths_value (h : T.HundredthsExact) {p : Nat} (hp : p ≤ 100) :
    (T.fromRational p 100).value = p / 100 := by
  unfold PerThing.value
  rw [h p hp]
  push_cast
  ring

/-- The fraction of a quantity below the threshold is the exact one, cut at one. -/
theorem fraction_value (hnear : T.RationalsNear) (hhundredths : T.HundredthsExact)
    {coef nativeTokenPrice : Nat} (hcoef : coef ≤ 100) (hpos : 0 < nativeTokenPrice)
    (hnative : nativeTokenPrice < 2 ^ 64) (nearPrice : Nat) :
    ∃ x : ℚ, (T.fraction coef nearPrice nativeTokenPrice).value = min x 1 ∧
      fractions coef nearPrice nativeTokenPrice - 11 / 10 ^ 9 ≤ x ∧
      x ≤ fractions coef nearPrice nativeTokenPrice + 1 / 10 ^ 8 := by
  have hlt : nearPrice / nativeTokenPrice * coef % 100 ≤ 100 := (Nat.mod_lt _ (by decide)).le
  have hremain : nearPrice % nativeTokenPrice ≤ nativeTokenPrice := (Nat.mod_lt _ hpos).le
  obtain ⟨hlo, hhi⟩ := abs_le.mp (hnear _ _ hremain hpos hnative)
  obtain ⟨hproductlo, hproducthi⟩ := PerThing.value_mul_bounds (by decide)
    (T.fromRational (nearPrice % nativeTokenPrice) nativeTokenPrice) (T.fromRational coef 100)
  have hratio : (coef : ℚ) / 100 ≤ 1 := by
    rw [div_le_one (by norm_num)]
    exact_mod_cast hcoef
  have hratio0 : (0 : ℚ) ≤ (coef : ℚ) / 100 := by positivity
  -- the product of the exact quotient and the exact coefficient
  have hexact : (coef : ℚ) * (nearPrice % nativeTokenPrice : Nat) / (100 * nativeTokenPrice)
      = (nearPrice % nativeTokenPrice : Nat) / nativeTokenPrice * (coef / 100) := by
    have hne : (nativeTokenPrice : ℚ) ≠ 0 := by exact_mod_cast hpos.ne'
    field_simp
  refine ⟨_, PerThing.value_add (by decide) _ _, ?_, ?_⟩
  · have herror := mul_le_mul_of_nonneg_right hlo hratio0
    rw [hundredths_value hhundredths hcoef] at hproductlo
    rw [hundredths_value hhundredths hlt, fractions, hexact]
    norm_num at hproductlo herror ⊢
    nlinarith
  · have herror := mul_le_mul_of_nonneg_right hhi hratio0
    rw [hundredths_value hhundredths hcoef] at hproducthi
    rw [hundredths_value hhundredths hlt, fractions, hexact]
    norm_num at hproducthi herror ⊢
    nlinarith

theorem units_bounds (quantity : Nat × Perbill) :
    (T.nativeTokenDecimals : ℚ) * quantity.1 + T.nativeTokenDecimals * quantity.2.value - 1
        ≤ T.units quantity ∧
      (T.units quantity : ℚ)
        ≤ T.nativeTokenDecimals * quantity.1 + T.nativeTokenDecimals * quantity.2.value := by
  obtain ⟨hlo, hhi⟩ :=
    PerThing.scaled_bounds (A := 1000000000) (by decide) T.nativeTokenDecimals quantity.2
  unfold units
  push_cast at hlo hhi ⊢
  constructor <;> linarith

/-- A whole fraction is a whole native token. -/
theorem units_one (quantity : Nat × Perbill) (h : quantity.2.value = 1) :
    (T.units quantity : ℚ) = T.nativeTokenDecimals * quantity.1 + T.nativeTokenDecimals := by
  unfold units
  rw [PerThing.scaled_one (by decide) T.nativeTokenDecimals h]
  push_cast
  ring

section Rounding

/-! ## The rounding errors

`n` native tokens are `i` and a fraction, which is `y` but for the rounding that makes it `x`. -/

variable {n i x y fee : ℚ}

/-- Cut at one, the fraction is close. -/
theorem cut_close (hn : 0 ≤ n) (hx : y - 11 / 10 ^ 9 ≤ x) (hx' : x ≤ y + 1 / 10 ^ 8)
    (hlo : n * i + n * min x 1 - 1 ≤ fee) (hhi : fee ≤ n * i + n * min x 1) :
    |fee - (n * i + n * min y 1)| ≤ n / 10 ^ 7 + 1 := by
  have hmin : min y 1 - 11 / 10 ^ 9 ≤ min x 1 := by
    refine le_min ((sub_le_sub_right (min_le_left y 1) _).trans hx) ?_
    linarith [min_le_right y 1]
  have hmin' : min x 1 ≤ min y 1 + 1 / 10 ^ 8 := by
    rcases min_choice y 1 with h | h
    · rw [h]
      exact (min_le_left x 1).trans hx'
    · rw [h]
      linarith [min_le_right x 1]
  have hbelow := mul_le_mul_of_nonneg_left hmin hn
  have habove := mul_le_mul_of_nonneg_left hmin' hn
  rw [abs_le]
  constructor <;> linarith

/-- Not cut, it is close exactly when hardly anything is above one. -/
theorem uncut_close_iff (hn : 0 ≤ n) (hx : y - 11 / 10 ^ 9 ≤ x) (hx' : x ≤ y + 1 / 10 ^ 8)
    (hlo : n * i + n * min x 1 - 1 ≤ fee) (hhi : fee ≤ n * i + n * min x 1)
    (hone : min x 1 = 1 → fee = n * i + n) :
    |fee - (n * i + n * y)| ≤ n / 10 ^ 7 + 1 ↔ n * (y - 1) ≤ n / 10 ^ 7 + 1 := by
  constructor
  · intro h
    have hcut := mul_le_mul_of_nonneg_left (min_le_right x 1) hn
    have hbelow := (abs_le.mp h).1
    linarith
  · intro h
    rcases le_total y 1 with hy | hy
    · have hclose := cut_close hn hx hx' hlo hhi
      rwa [min_eq_left hy] at hclose
    · rcases le_total 1 x with hx1 | hx1
      · -- the sum stays at one: what is above it is lost
        rw [hone (min_eq_right hx1), abs_le]
        have hnonneg := mul_nonneg hn (sub_nonneg.mpr hy)
        constructor <;> linarith
      · rw [min_eq_left hx1] at hlo hhi
        have hbelow := mul_le_mul_of_nonneg_left hx hn
        have habove := mul_le_mul_of_nonneg_left (hx1.trans hy) hn
        rw [abs_le]
        constructor <;> linarith

end Rounding

/-- The fee over the rationals, from the parts of the quotient. -/
theorem exactFee_eq (coef nearPrice : Nat) {nativeTokenPrice : Nat} (h : 0 < nativeTokenPrice) :
    T.exactFee coef nearPrice nativeTokenPrice
      = T.nativeTokenDecimals * min (T.threshold : ℚ)
          ((nearPrice / nativeTokenPrice * coef / 100 : Nat)
            + fractions coef nearPrice nativeTokenPrice) := by
  unfold exactFee
  rw [exact_quotient coef nearPrice h]

theorem fractions_nonneg (coef nearPrice nativeTokenPrice : Nat) :
    0 ≤ fractions coef nearPrice nativeTokenPrice := by
  unfold fractions
  positivity

/-- **The units of a quantity are close to the exact fee exactly when the carry is kept.** -/
theorem units_accuracy (hnear : T.RationalsNear) (hhundredths : T.HundredthsExact)
    {coef nearPrice nativeTokenPrice : Nat} (hcoef : coef ≤ 100) (hpos : 0 < nativeTokenPrice)
    (hnative : nativeTokenPrice < 2 ^ 64) (hproduct : nearPrice / nativeTokenPrice * coef < 2 ^ 64) :
    ∃ quantity, T.quantity coef nearPrice nativeTokenPrice = some quantity ∧
      (|(T.units quantity : ℚ) - T.exactFee coef nearPrice nativeTokenPrice| ≤ T.tolerance ↔
        T.CarryKept coef nearPrice nativeTokenPrice) := by
  have hn : (0 : ℚ) ≤ T.nativeTokenDecimals := Nat.cast_nonneg _
  rw [exactFee_eq coef nearPrice hpos, CarryKept, tolerance]
  rcases Nat.lt_or_ge (nearPrice / nativeTokenPrice * coef / 100) T.threshold with hlt | hcap
  · refine ⟨_, quantity_of_lt hproduct hlt, ?_⟩
    obtain ⟨x, hx, hxlo, hxhi⟩ := fraction_value hnear hhundredths hcoef hpos hnative nearPrice
    obtain ⟨hlo, hhi⟩ := units_bounds (T := T) (nearPrice / nativeTokenPrice * coef / 100,
      T.fraction coef nearPrice nativeTokenPrice)
    have hone := units_one (T := T) (nearPrice / nativeTokenPrice * coef / 100,
      T.fraction coef nearPrice nativeTokenPrice)
    simp only [hx] at hlo hhi hone
    rcases Nat.lt_or_ge (nearPrice / nativeTokenPrice * coef / 100 + 1) T.threshold with hlt' | hge
    · -- room for the carry
      have hroom : ((nearPrice / nativeTokenPrice * coef / 100 : Nat) : ℚ)
          + fractions coef nearPrice nativeTokenPrice ≤ T.threshold := by
        have hlt'' : ((nearPrice / nativeTokenPrice * coef / 100 : Nat) : ℚ) + 2 ≤ T.threshold := by
          exact_mod_cast hlt'
        linarith [fractions_lt_two hcoef nearPrice hpos]
      rw [min_eq_right hroom, mul_add, or_iff_right (Nat.not_le_of_lt hlt')]
      exact uncut_close_iff hn hxlo hxhi hlo hhi hone
    · -- the threshold cuts the carry off as the sum of the fractions does
      have hcut : (T.threshold : ℚ) = (nearPrice / nativeTokenPrice * coef / 100 : Nat) + 1 := by
        exact_mod_cast Nat.le_antisymm hge hlt
      rw [hcut, min_add_add_left, mul_add, min_comm]
      exact iff_of_true (cut_close hn hxlo hxhi hlo hhi) (Or.inl hge)
  · -- the threshold: nothing is rounded
    refine ⟨_, quantity_of_le hproduct hcap, iff_of_true ?_ (Or.inl (hcap.trans (Nat.le_succ _)))⟩
    have hcap' : (T.threshold : ℚ) ≤ (nearPrice / nativeTokenPrice * coef / 100 : Nat) := by
      exact_mod_cast hcap
    rw [min_eq_left (hcap'.trans (le_add_of_nonneg_right (fractions_nonneg _ _ _)))]
    have hunits : (T.units (T.threshold, .zero) : ℚ) = T.nativeTokenDecimals * T.threshold := by
      simp [units]
    rw [hunits, sub_self, abs_zero]
    positivity

/-! ## A higher price -/

theorem fraction_mono (hhundredths : T.HundredthsExact) (hmono : T.RationalsMonotone)
    {coef nearPrice nearPrice' nativeTokenPrice : Nat} (hcoef : coef ≤ 100)
    (hpos : 0 < nativeTokenPrice) (hnative : nativeTokenPrice < 2 ^ 64) (hle : nearPrice ≤ nearPrice')
    (hsame : nearPrice / nativeTokenPrice * coef / 100 = nearPrice' / nativeTokenPrice * coef / 100) :
    (T.fraction coef nearPrice nativeTokenPrice).parts
      ≤ (T.fraction coef nearPrice' nativeTokenPrice).parts := by
  have hremain : ∀ n : Nat, n % 100 ≤ 100 := fun n => (Nat.mod_lt n (by decide)).le
  rcases Nat.lt_or_eq_of_le (Nat.div_le_div_right (c := nativeTokenPrice) hle) with hlt | heq
  · -- one more unit of the quotient is a whole coefficient, which the fraction cannot exceed
    have hstep : nearPrice / nativeTokenPrice * coef + coef
        ≤ nearPrice' / nativeTokenPrice * coef := by
      rw [← Nat.succ_mul]
      exact Nat.mul_le_mul_right coef hlt
    have hproduct := PerThing.mul_parts_le_right
      (T.fromRational (nearPrice % nativeTokenPrice) nativeTokenPrice) (T.fromRational coef 100)
    refine PerThing.add_parts_mono ?_
    rw [hhundredths _ (hremain _), hhundredths _ (hremain _)]
    rw [hhundredths _ hcoef] at hproduct
    omega
  · have hmod : nearPrice % nativeTokenPrice ≤ nearPrice' % nativeTokenPrice := by
      have hdiv := Nat.div_add_mod nearPrice nativeTokenPrice
      have hdiv' := Nat.div_add_mod nearPrice' nativeTokenPrice
      rw [heq] at hdiv
      omega
    refine PerThing.add_parts_mono ?_
    rw [heq]
    exact Nat.add_le_add_left (PerThing.mul_parts_mono _
      (hmono _ _ _ hmod (Nat.mod_lt _ hpos).le hnative)) _

/-- A fee below the threshold grows with its quantity. -/
theorem units_le_units {quantity quantity' : Nat × Perbill}
    (h : quantity.1 < quantity'.1 ∨
      quantity.1 = quantity'.1 ∧ quantity.2.parts ≤ quantity'.2.parts) :
    T.units quantity ≤ T.units quantity' := by
  unfold units
  rcases h with hlt | ⟨heq, hparts⟩
  · have hfraction := PerThing.scaled_le T.nativeTokenDecimals quantity.2
    have hnext := Nat.mul_le_mul_left T.nativeTokenDecimals hlt
    rw [Nat.mul_succ] at hnext
    omega
  · rw [heq]
    exact Nat.add_le_add_left (Nat.div_le_div_right (Nat.mul_le_mul_left _ hparts)) _

theorem units_mono (hhundredths : T.HundredthsExact) (hmono : T.RationalsMonotone)
    {coef nearPrice nearPrice' nativeTokenPrice : Nat} {quantity quantity' : Nat × Perbill}
    (hcoef : coef ≤ 100) (hpos : 0 < nativeTokenPrice) (hnative : nativeTokenPrice < 2 ^ 64)
    (hle : nearPrice ≤ nearPrice') (hproduct : nearPrice' / nativeTokenPrice * coef < 2 ^ 64)
    (h : T.quantity coef nearPrice nativeTokenPrice = some quantity)
    (h' : T.quantity coef nearPrice' nativeTokenPrice = some quantity') :
    T.units quantity ≤ T.units quantity' := by
  have hvalue : nearPrice / nativeTokenPrice * coef ≤ nearPrice' / nativeTokenPrice * coef :=
    Nat.mul_le_mul_right coef (Nat.div_le_div_right hle)
  rcases Nat.lt_or_ge (nearPrice' / nativeTokenPrice * coef / 100) T.threshold with hlt | hcap
  · have hinteger := Nat.div_le_div_right (c := 100) hvalue
    rw [quantity_of_lt hproduct hlt, Option.some.injEq] at h'
    rw [quantity_of_lt (hvalue.trans_lt hproduct) (hinteger.trans_lt hlt), Option.some.injEq] at h
    rw [← h, ← h']
    rcases Nat.lt_or_eq_of_le hinteger with hless | hsame
    · exact units_le_units (Or.inl hless)
    · exact units_le_units (Or.inr ⟨hsame,
        fraction_mono hhundredths hmono hcoef hpos hnative hle hsame⟩)
  · rw [quantity_of_le hproduct hcap, Option.some.injEq] at h'
    have hunits : T.units (T.threshold, .zero) = T.feeCap := by
      simp [units, feeCap, Nat.mul_comm]
    rw [← h', hunits]
    exact units_le_cap (quantity_bounded h)

/-- Where the product fits, there is a fee. -/
theorem fee_of_product (hfits : T.ProductsFit) (hbits : T.balanceBits = 128)
    {coef nearPrice nativeTokenPrice : Nat}
    (hproduct : nearPrice / nativeTokenPrice * coef < 2 ^ 64) :
    ∃ quantity, T.quantity coef nearPrice nativeTokenPrice = some quantity ∧
      T.fee coef nearPrice nativeTokenPrice = .ok (T.units quantity) := by
  obtain ⟨quantity, hquantity⟩ :
      ∃ quantity, T.quantity coef nearPrice nativeTokenPrice = some quantity :=
    ⟨_, by rw [FeeConfig.quantity, T.build.mul_of_lt hproduct, Option.map_some]⟩
  have hlt : T.units quantity < 2 ^ T.balanceBits := by
    rw [hbits]
    exact (units_le_cap (quantity_bounded hquantity)).trans_lt (feeCap_lt hfits)
  refine ⟨quantity, hquantity, ?_⟩
  rw [fee_of_quantity hfits hquantity, checkedInto_eq_some.mpr ⟨hlt, rfl⟩, Option.elim_some]

variable (T)

/-- The same constants in a build whose operators abort. -/
def debug : FeeConfig AccountId := { T with build := .debug }

end FeeConfig

def FeeState.debug (s : FeeState T) : FeeState T.debug where
  toState := s.toState
  oracleAccount := s.oracleAccount
  tokenPrice := s.tokenPrice
  nearPrice := s.nearPrice
  coef := s.coef
  feeEvents := s.feeEvents

namespace Sample

theorem fromRational_parts {p q : Nat} (h : p < q) :
    (fromRational p q).parts = p * 1000000000 / q := by
  unfold fromRational
  rw [if_pos h]
  refine Nat.min_eq_left (Nat.div_le_of_le_mul ?_)
  exact Nat.mul_le_mul_right _ h.le

theorem rationalsNear : feeConfig.RationalsNear := by
  intro p q hle hpos _
  have hq : (0 : ℚ) < q := by exact_mod_cast hpos
  rcases Nat.lt_or_eq_of_le hle with hlt | rfl
  · obtain ⟨hlo, hhi⟩ := PerThing.natCast_div_bounds (p * 1000000000) hpos
    have hexact : ((p * 1000000000 : Nat) : ℚ) / q = p / q * 10 ^ 9 := by
      push_cast
      ring
    rw [hexact] at hlo hhi
    have hvalue : (fromRational p q).value = (p * 1000000000 / q : Nat) / 10 ^ 9 := by
      unfold PerThing.value
      rw [fromRational_parts hlt]
      norm_num
    rw [show (feeConfig.fromRational p q).value = (fromRational p q).value from rfl, hvalue,
      abs_le]
    constructor <;> linarith
  · have hone : (feeConfig.fromRational p p).value = 1 := by
      unfold PerThing.value feeConfig fromRational
      simp
    rw [hone, div_self hq.ne']
    norm_num

theorem hundredthsExact : feeConfig.HundredthsExact := by
  intro p hle
  rcases Nat.lt_or_eq_of_le hle with hlt | rfl
  · exact (fromRational_parts hlt).trans (by omega)
  · rfl

theorem rationalsMonotone : feeConfig.RationalsMonotone := by
  intro p p' q hle hle' _
  rcases Nat.lt_or_eq_of_le hle' with hlt | rfl
  · have hparts := fromRational_parts (hle.trans_lt hlt)
    have hparts' := fromRational_parts hlt
    refine (hparts.le.trans ?_).trans hparts'.ge
    exact Nat.div_le_div_right (Nat.mul_le_mul_right _ hle)
  · have hone : (feeConfig.fromRational p' p').parts = 1000000000 := by
      unfold feeConfig fromRational
      simp
    rw [hone]
    exact (feeConfig.fromRational p p').parts_le

end Sample

/-- **A fee is accurate exactly when no carry is lost.** -/
theorem calculateAndUpdateFee_accuracy (hnear : T.RationalsNear)
    (hhundredths : T.HundredthsExact) (hfits : T.ProductsFit) (hbits : T.balanceBits = 128)
    {s : FeeState T} {nearPrice nativeTokenPrice : Nat} (hpos : 0 < nativeTokenPrice)
    (hnative : nativeTokenPrice < 2 ^ 64) (hcoef : s.coef ≤ 100)
    (hproduct : nearPrice / nativeTokenPrice * s.coef < 2 ^ 64) :
    ∃ fee, calculateAndUpdateFee nearPrice nativeTokenPrice s = (.ok (), s.withFee fee) ∧
      (|(fee : ℚ) - T.exactFee s.coef nearPrice nativeTokenPrice| ≤ T.tolerance ↔
        T.CarryKept s.coef nearPrice nativeTokenPrice) := by
  obtain ⟨quantity, hquantity, hfee⟩ := FeeConfig.fee_of_product hfits hbits hproduct
  obtain ⟨quantity', hquantity', haccuracy⟩ :=
    FeeConfig.units_accuracy hnear hhundredths hcoef hpos hnative hproduct
  rw [hquantity, Option.some.injEq] at hquantity'
  rw [← hquantity'] at haccuracy
  exact ⟨T.units quantity, (calculateAndUpdateFee_eq_ok hpos.ne').mpr ⟨_, hfee, rfl⟩, haccuracy⟩

/-- One near token for one native token: the fee is the exact one. -/
theorem calculateAndUpdateFee_accuracy_even :
    ∃ fee, calculateAndUpdateFee 1000 1000 Sample.feeState
        = (.ok (), Sample.feeState.withFee fee) ∧
      (|(fee : ℚ) - Sample.feeConfig.exactFee Sample.feeState.coef 1000 1000|
          ≤ Sample.feeConfig.tolerance ↔
        Sample.feeConfig.CarryKept Sample.feeState.coef 1000 1000) :=
  calculateAndUpdateFee_accuracy Sample.rationalsNear Sample.hundredthsExact Sample.productsFit rfl
    (by decide) (by decide) (by decide) (by decide)

/-- Thirty-three quotients and a third, at three hundredths each: the carry is lost. -/
theorem calculateAndUpdateFee_loses_carry :
    (Sample.feeConfig.RationalsNear ∧ Sample.feeConfig.HundredthsExact ∧
        Sample.feeConfig.ProductsFit) ∧
      (calculateAndUpdateFee 3334 100 Sample.feeState).2.crosschainTransferFee .fungible
        = some (some 1000000000000000000) ∧
      ¬ |((1000000000000000000 : Nat) : ℚ) - Sample.feeConfig.exactFee 3 3334 100|
        ≤ Sample.feeConfig.tolerance := by
  refine ⟨⟨Sample.rationalsNear, Sample.hundredthsExact, Sample.productsFit⟩,
    by decide +kernel, ?_⟩
  unfold FeeConfig.exactFee FeeConfig.tolerance Sample.feeConfig
  norm_num

section Prices

variable [DecidableEq AccountId]

/-- After root set the coefficient, the prices of the oracle give both kinds of transfer the fee. -/
def FeeState.Prices (s : FeeState T) (coef : Nat) (oracle : AccountId)
    (nearPrice nativeTokenPrice fee : Nat) : Prop :=
  ∃ t t', (FeeCall.setCoefForCalculateFee coef).dispatch .root s = (.ok (), t) ∧
    (FeeCall.setTokenPrice nearPrice nativeTokenPrice).dispatch (.signed oracle) t = (.ok (), t') ∧
    ∀ kind, t'.crosschainTransferFee kind = some (some fee)

theorem FeeState.prices_iff {s : FeeState T} {oracle : AccountId}
    (horacle : s.oracleAccount = some oracle) {coef nearPrice nativeTokenPrice fee : Nat}
    (hcoef : 0 < coef ∧ coef ≤ 100) (hnear : nearPrice ≠ 0) (hnative : nativeTokenPrice ≠ 0) :
    s.Prices coef oracle nearPrice nativeTokenPrice fee ↔
      T.fee coef nearPrice nativeTokenPrice = .ok fee := by
  constructor
  · rintro ⟨t, t', ht, ht', hfee⟩
    have hset := FeeCall.dispatch_eq_ok.mp ht
    have hpriced := FeeCall.dispatch_eq_ok.mp ht'
    cases hset
    cases hpriced with
    | setTokenPrice _ _ _ hstored =>
      cases hfee .fungible
      exact hstored
  · intro hfee
    exact ⟨_, _, FeeCall.dispatch_eq_ok.mpr (.setCoefForCalculateFee hcoef),
      FeeCall.dispatch_eq_ok.mpr (.setTokenPrice hnear hnative horacle hfee), fun _ => rfl⟩

/-- **A higher price never makes a lower fee, and nothing overflows, exactly when the product of the
quotient and the coefficient fits.** -/
theorem fee_monotone (hhundredths : T.HundredthsExact) (hmono : T.RationalsMonotone)
    (hfits : T.ProductsFit) (hbits : T.balanceBits = 128) {s : FeeState T} {oracle : AccountId}
    (horacle : s.oracleAccount = some oracle) {coef nearPrice nearPrice' nativeTokenPrice : Nat}
    (hcoef : 0 < coef ∧ coef ≤ 100) (hnear : nearPrice ≠ 0) (hle : nearPrice ≤ nearPrice')
    (hpos : nativeTokenPrice ≠ 0) (hnative : nativeTokenPrice < 2 ^ 64) :
    (∃ fee fee', s.Prices coef oracle nearPrice nativeTokenPrice fee ∧
        s.Prices coef oracle nearPrice' nativeTokenPrice fee' ∧ fee ≤ fee' ∧
        (∃ n, s.debug.Prices coef oracle nearPrice nativeTokenPrice n) ∧
        ∃ n, s.debug.Prices coef oracle nearPrice' nativeTokenPrice n) ↔
      nearPrice' / nativeTokenPrice * coef < 2 ^ 64 := by
  have hnear' : nearPrice' ≠ 0 := fun h => hnear (Nat.le_zero.mp (h ▸ hle))
  have horacle' : s.debug.oracleAccount = some oracle := horacle
  constructor
  · rintro ⟨_, _, -, -, -, -, n, hn⟩
    rw [FeeState.prices_iff horacle' hcoef hnear' hpos] at hn
    refine Build.debug_mul_eq_some_iff.mp ?_
    cases hvalue : Build.debug.mul 64 (nearPrice' / nativeTokenPrice) coef with
    | none =>
      have hnone : T.debug.quantity coef nearPrice' nativeTokenPrice = none :=
        Option.map_eq_none_iff.mpr hvalue
      rw [FeeConfig.fee, hnone] at hn
      cases hn
    | some value => exact ⟨value, rfl⟩
  · intro hproduct
    have hproduct' : nearPrice / nativeTokenPrice * coef < 2 ^ 64 :=
      (Nat.mul_le_mul_right coef (Nat.div_le_div_right hle)).trans_lt hproduct
    obtain ⟨quantity, hquantity, hfee⟩ := FeeConfig.fee_of_product hfits hbits hproduct'
    obtain ⟨quantity', hquantity', hfee'⟩ := FeeConfig.fee_of_product hfits hbits hproduct
    have hfitsDebug : T.debug.ProductsFit := hfits
    have hbitsDebug : T.debug.balanceBits = 128 := hbits
    obtain ⟨_, -, hdebug⟩ := FeeConfig.fee_of_product hfitsDebug hbitsDebug hproduct'
    obtain ⟨_, -, hdebug'⟩ := FeeConfig.fee_of_product hfitsDebug hbitsDebug hproduct
    exact ⟨_, _, (FeeState.prices_iff horacle hcoef hnear hpos).mpr hfee,
      (FeeState.prices_iff horacle hcoef hnear' hpos).mpr hfee',
      FeeConfig.units_mono hhundredths hmono hcoef.2 (Nat.pos_of_ne_zero hpos) hnative hle hproduct
        hquantity hquantity',
      ⟨_, (FeeState.prices_iff horacle' hcoef hnear hpos).mpr hdebug⟩,
      ⟨_, (FeeState.prices_iff horacle' hcoef hnear' hpos).mpr hdebug'⟩⟩

/-- A thousand near tokens for one native token, and then two thousand. -/
theorem fee_monotone_even :
    (∃ fee fee', Sample.feeState.Prices 3 1 1000 1 fee ∧
        Sample.feeState.Prices 3 1 2000 1 fee' ∧ fee ≤ fee' ∧
        (∃ n, Sample.feeState.debug.Prices 3 1 1000 1 n) ∧
        ∃ n, Sample.feeState.debug.Prices 3 1 2000 1 n) ↔
      2000 / 1 * 3 < 2 ^ 64 :=
  fee_monotone Sample.hundredthsExact Sample.rationalsMonotone Sample.productsFit rfl rfl
    (by decide) (by decide) (by decide) (by decide) (by decide)

/-- Past a third of `2^64` the product wraps: a near price that is far higher costs next to
nothing. -/
theorem fee_wraps :
    (Sample.feeConfig.HundredthsExact ∧ Sample.feeConfig.RationalsMonotone ∧
        Sample.feeConfig.ProductsFit) ∧
      Sample.feeState.Prices 3 1 1000000 1 300000000000000000000 ∧
      Sample.feeState.Prices 3 1 6148914691236517206 1 20000000000000000 ∧
      ¬ ∃ n, Sample.feeState.debug.Prices 3 1 6148914691236517206 1 n := by
  refine ⟨⟨Sample.hundredthsExact, Sample.rationalsMonotone, Sample.productsFit⟩, ?_, ?_, ?_⟩
  · exact (FeeState.prices_iff rfl (by decide) (by decide) (by decide)).mpr (by decide +kernel)
  · exact (FeeState.prices_iff rfl (by decide) (by decide) (by decide)).mpr (by decide +kernel)
  · rintro ⟨n, hn⟩
    rw [FeeState.prices_iff rfl (by decide) (by decide) (by decide)] at hn
    have habort : Sample.feeConfig.debug.fee 3 6148914691236517206 1 = .error .abort := by
      decide +kernel
    rw [habort] at hn
    cases hn

end Prices

end OctopusPallets.Bridge
