import Mathlib.Algebra.Group.Int.Defs
import Mathlib.Algebra.Ring.Nat
import Mathlib.Data.List.Basic
import Mathlib.Tactic.Common
import Mathlib.Tactic.IntervalCases

/-!
# Fixed-width unsigned integers

The operations a Rust program performs on `u32`, `u64` and `u128`, on `Nat` with the width as a
parameter. A value of width `w` is a `Nat` below `2 ^ w`.

The plain operators wrap in a release build and abort in a debug build; `Build` selects one of
the two. The `checked_*` and `saturating_*` methods behave the same in both.
-/

namespace Infra.FixedWidth

/-! ## Release arithmetic -/

def wrappingAdd (w a b : Nat) : Nat := (a + b) % 2 ^ w

def wrappingMul (w a b : Nat) : Nat := a * b % 2 ^ w

/-- `Iterator::sum`, adding from the left. -/
def wrappingSum (w : Nat) (l : List Nat) : Nat := l.foldl (wrappingAdd w) 0

theorem wrappingAdd_of_lt {w a b : Nat} (h : a + b < 2 ^ w) : wrappingAdd w a b = a + b :=
  Nat.mod_eq_of_lt h

theorem wrappingMul_of_lt {w a b : Nat} (h : a * b < 2 ^ w) : wrappingMul w a b = a * b :=
  Nat.mod_eq_of_lt h

theorem wrappingMul_le (w a b : Nat) : wrappingMul w a b ≤ a * b := Nat.mod_le _ _

/-- Remainders compare as the numbers do when the quotients are equal, or when the larger number
loses one multiple and is the larger one still. -/
theorem mod_lt_mod_iff {x y n : Nat} (hle : 2 * x ≤ 3 * y) (hlt : y < 2 * n) :
    (y % n < x % n ↔ y < x) ↔ x / n = y / n ∨ x < n ∧ x + n ≤ y := by
  have hn : 0 < n := by omega
  have hx := Nat.div_add_mod x n
  have hy := Nat.div_add_mod y n
  have hrx := Nat.mod_lt x hn
  have hry := Nat.mod_lt y hn
  have hqy : y / n < 2 := (Nat.div_lt_iff_lt_mul hn).mpr hlt
  have hqx : x / n < 3 := (Nat.div_lt_iff_lt_mul hn).mpr (by omega)
  generalize x / n = qx at *
  generalize y / n = qy at *
  generalize x % n = rx at *
  generalize y % n = ry at *
  interval_cases qx <;> interval_cases qy <;> omega

private theorem foldl_wrappingAdd (w : Nat) : ∀ (l : List Nat) (a : Nat),
    l.foldl (wrappingAdd w) (a % 2 ^ w) = (a + l.sum) % 2 ^ w
  | [], a => by simp
  | b :: l, a => by
    -- the accumulator stays reduced, so one more addition is again a reduced sum
    have hab : wrappingAdd w (a % 2 ^ w) b = (a + b) % 2 ^ w := by simp [wrappingAdd]
    rw [List.foldl_cons, hab, foldl_wrappingAdd w l (a + b), List.sum_cons, Nat.add_assoc]

/-- A wrapping sum is the exact sum modulo `2 ^ w`, whatever the order of the additions. -/
theorem wrappingSum_eq (w : Nat) (l : List Nat) : wrappingSum w l = l.sum % 2 ^ w := by
  have h := foldl_wrappingAdd w l 0
  rwa [Nat.zero_mod, Nat.zero_add] at h

theorem wrappingSum_le (w : Nat) (l : List Nat) : wrappingSum w l ≤ l.sum := by
  rw [wrappingSum_eq]
  exact Nat.mod_le _ _

theorem wrappingSum_of_lt {w : Nat} {l : List Nat} (h : l.sum < 2 ^ w) :
    wrappingSum w l = l.sum := by
  rw [wrappingSum_eq, Nat.mod_eq_of_lt h]

/-! ## Checked and saturating arithmetic -/

def checkedAdd (w a b : Nat) : Option Nat := if a + b < 2 ^ w then some (a + b) else none

def checkedSub (a b : Nat) : Option Nat := if b ≤ a then some (a - b) else none

def saturatingAdd (w a b : Nat) : Nat := min (a + b) (2 ^ w - 1)

/-- `checked_into`, to an integer of `w` bits. -/
def checkedInto (w n : Nat) : Option Nat := if n < 2 ^ w then some n else none

theorem checkedAdd_eq_some {w a b c : Nat} :
    checkedAdd w a b = some c ↔ a + b < 2 ^ w ∧ c = a + b := by
  unfold checkedAdd
  split
  · next h => simp [h, eq_comm]
  · next h => simp [h]

theorem checkedAdd_eq_none {w a b : Nat} : checkedAdd w a b = none ↔ 2 ^ w ≤ a + b := by
  unfold checkedAdd
  split <;> simp_all

theorem checkedSub_eq_some {a b c : Nat} : checkedSub a b = some c ↔ a = b + c := by
  unfold checkedSub
  split
  · next h => rw [Option.some.injEq]; omega
  · next h => simp only [reduceCtorEq, false_iff]; omega

theorem checkedSub_getD (a b : Nat) : (checkedSub a b).getD 0 = a - b := by
  unfold checkedSub
  split
  · rfl
  · next h =>
    have hzero : a - b = 0 := by omega
    rw [hzero]
    rfl

/-! ## Plain operators -/

/-- How the program was compiled. -/
inductive Build where
  | release
  | debug
deriving DecidableEq

namespace Build

/-- The value of a plain operator that gives `exact` over the integers: `none` is an abort. -/
def plain (build : Build) (w : Nat) (exact : Int) : Option Nat :=
  if 0 ≤ exact ∧ exact < 2 ^ w then some exact.toNat
  else
    match build with
    | release => some (exact % 2 ^ w).toNat
    | debug => none

def add (build : Build) (w a b : Nat) : Option Nat := build.plain w (a + b)

def sub (build : Build) (w a b : Nat) : Option Nat := build.plain w (a - b)

def mul (build : Build) (w a b : Nat) : Option Nat := build.plain w (a * b)

/-- **Where the exact result fits, the two builds agree on it.** -/
theorem plain_of_fits (build : Build) {w : Nat} {exact : Int} {n : Nat} (h : exact = n)
    (hn : n < 2 ^ w) : build.plain w exact = some n := by
  have hfits : (n : Int) < 2 ^ w := by exact_mod_cast hn
  unfold plain
  rw [h, if_pos ⟨Int.natCast_nonneg n, hfits⟩, Int.toNat_natCast]

theorem add_of_lt (build : Build) {w a b : Nat} (h : a + b < 2 ^ w) :
    build.add w a b = some (a + b) :=
  build.plain_of_fits (by simp) h

theorem mul_of_lt (build : Build) {w a b : Nat} (h : a * b < 2 ^ w) :
    build.mul w a b = some (a * b) :=
  build.plain_of_fits (by simp) h

theorem sub_of_le (build : Build) {w a b : Nat} (hle : b ≤ a) (ha : a < 2 ^ w) :
    build.sub w a b = some (a - b) :=
  build.plain_of_fits (by omega) (by omega)

/-- In a debug build an operator has a value exactly when its result fits. -/
theorem debug_eq_some_iff {w : Nat} {exact : Int} :
    (∃ n, debug.plain w exact = some n) ↔ 0 ≤ exact ∧ exact < 2 ^ w := by
  unfold plain
  by_cases h : 0 ≤ exact ∧ exact < 2 ^ w
  · rw [if_pos h]
    exact ⟨fun _ => h, fun _ => ⟨_, rfl⟩⟩
  · rw [if_neg h]
    refine ⟨?_, fun h' => absurd h' h⟩
    rintro ⟨_, ⟨⟩⟩

theorem debug_mul_eq_some_iff {w a b : Nat} :
    (∃ n, debug.mul w a b = some n) ↔ a * b < 2 ^ w := by
  refine debug_eq_some_iff.trans ?_
  constructor
  · rintro ⟨-, hlt⟩
    exact_mod_cast hlt
  · intro hlt
    exact ⟨by omega, by exact_mod_cast hlt⟩

end Build

end Infra.FixedWidth
