import Mathlib.Algebra.Order.Field.Basic
import Mathlib.Algebra.Order.Ring.Rat
import Mathlib.Data.Nat.Cast.Order.Field
import Mathlib.Tactic.FieldSimp
import Mathlib.Tactic.Linarith
import Mathlib.Tactic.Positivity
import Mathlib.Tactic.Ring

/-!
# Fractions of fixed accuracy

A fraction between 0 and 1, as a number of parts of `accuracy`. Products are rounded down and sums
stay at one. `value` is the rational that a fraction stands for, and the lemmas say how far the
operations are from those of the rationals.
-/

namespace Infra

/-- `parts` out of `accuracy`. -/
structure PerThing (accuracy : Nat) where
  parts : Nat
  parts_le : parts ≤ accuracy
deriving DecidableEq

namespace PerThing

variable {A : Nat}

def zero : PerThing A := ⟨0, Nat.zero_le A⟩

def one : PerThing A := ⟨A, Nat.le_refl A⟩

/-- `n` parts, or one if these are too many. -/
def ofParts (n : Nat) : PerThing A := ⟨min n A, Nat.min_le_right n A⟩

/-- The sum stays at one. -/
def add (x y : PerThing A) : PerThing A := ofParts (x.parts + y.parts)

/-- The product is rounded down. -/
def mul (x y : PerThing A) : PerThing A := ofParts (x.parts * y.parts / A)

instance : Add (PerThing A) := ⟨add⟩

instance : Mul (PerThing A) := ⟨mul⟩

@[simp] theorem zero_parts : (zero : PerThing A).parts = 0 := rfl

@[simp] theorem one_parts : (one : PerThing A).parts = A := rfl

@[simp] theorem add_parts (x y : PerThing A) : (x + y).parts = min (x.parts + y.parts) A := rfl

/-- The bound never cuts a product. -/
@[simp] theorem mul_parts (x y : PerThing A) : (x * y).parts = x.parts * y.parts / A := by
  refine Nat.min_eq_left (Nat.div_le_of_le_mul ?_)
  exact Nat.mul_le_mul x.parts_le y.parts_le

theorem add_parts_mono {x x' y y' : PerThing A} (h : x.parts + y.parts ≤ x'.parts + y'.parts) :
    (x + y).parts ≤ (x' + y').parts := by
  simp only [add_parts]
  omega

theorem mul_parts_mono {x x' : PerThing A} (y : PerThing A) (h : x.parts ≤ x'.parts) :
    (x * y).parts ≤ (x' * y).parts := by
  simp only [mul_parts]
  exact Nat.div_le_div_right (Nat.mul_le_mul_right y.parts h)

/-- A product is at most each of its factors. -/
theorem mul_parts_le_right (x y : PerThing A) : (x * y).parts ≤ y.parts := by
  rw [mul_parts]
  exact Nat.div_le_of_le_mul (Nat.mul_le_mul_right y.parts x.parts_le)

/-! ## As rationals -/

/-- What the fraction stands for. -/
def value (x : PerThing A) : ℚ := x.parts / A

/-- **The sum is that of the rationals, cut at one.** -/
theorem value_add (hA : 0 < A) (x y : PerThing A) : (x + y).value = min (x.value + y.value) 1 := by
  have hpos : (0 : ℚ) < A := by exact_mod_cast hA
  unfold value
  rw [add_parts, Nat.cast_min, Nat.cast_add, ← min_div_div_right hpos.le, add_div,
    div_self hpos.ne']

/-- A quotient of naturals is the rational one, rounded down. -/
theorem natCast_div_bounds (n : Nat) {d : Nat} (hd : 0 < d) :
    (n : ℚ) / d - 1 ≤ (n / d : Nat) ∧ ((n / d : Nat) : ℚ) ≤ n / d := by
  have hpos : (0 : ℚ) < d := by exact_mod_cast hd
  have hlt : (n : ℚ) < ((n / d : Nat) + 1) * d := by
    exact_mod_cast Nat.lt_mul_of_div_lt (Nat.lt_succ_self (n / d)) hd
  constructor
  · rw [sub_le_iff_le_add, div_le_iff₀ hpos]
    exact hlt.le
  · exact Nat.cast_div_le

/-- **The product is that of the rationals, up to one part.** -/
theorem value_mul_bounds (hA : 0 < A) (x y : PerThing A) :
    x.value * y.value - 1 / A ≤ (x * y).value ∧ (x * y).value ≤ x.value * y.value := by
  have hpos : (0 : ℚ) < A := by exact_mod_cast hA
  obtain ⟨hlo, hhi⟩ := natCast_div_bounds (x.parts * y.parts) hA
  have hexact : x.value * y.value = ((x.parts * y.parts : Nat) : ℚ) / A / A := by
    unfold value
    push_cast
    field_simp
  unfold value at hexact ⊢
  rw [hexact, mul_parts, ← sub_div]
  exact ⟨div_le_div_of_nonneg_right hlo hpos.le, div_le_div_of_nonneg_right hhi hpos.le⟩

/-- An amount taken in a fraction, rounded down, is within one unit. -/
theorem scaled_bounds (hA : 0 < A) (n : Nat) (x : PerThing A) :
    (n : ℚ) * x.value - 1 ≤ (n * x.parts / A : Nat) ∧
      ((n * x.parts / A : Nat) : ℚ) ≤ n * x.value := by
  have hbounds := natCast_div_bounds (n * x.parts) hA
  have hexact : (n : ℚ) * x.value = ((n * x.parts : Nat) : ℚ) / A := by
    unfold value
    push_cast
    ring
  rwa [hexact]

theorem scaled_one (hA : 0 < A) (n : Nat) {x : PerThing A} (h : x.value = 1) :
    n * x.parts / A = n := by
  have hpos : (0 : ℚ) < A := by exact_mod_cast hA
  have hparts : x.parts = A := by
    unfold value at h
    rw [div_eq_one_iff_eq hpos.ne'] at h
    exact_mod_cast h
  rw [hparts, Nat.mul_div_cancel n hA]

/-- What is added at most is the amount itself. -/
theorem scaled_le (n : Nat) (x : PerThing A) : n * x.parts / A ≤ n :=
  Nat.div_le_of_le_mul (by rw [Nat.mul_comm A]; exact Nat.mul_le_mul_left n x.parts_le)

end PerThing

end Infra
