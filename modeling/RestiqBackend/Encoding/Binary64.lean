import Mathlib.Algebra.Order.Field.Power
import Mathlib.Algebra.Order.Floor.Ring
import Mathlib.Data.Int.Log
import Mathlib.Data.Rat.Floor
import Mathlib.Tactic.Linarith
import Mathlib.Tactic.NormNum
import Mathlib.Tactic.Positivity
import Mathlib.Tactic.Ring

/-!
Numbers in 64 bits (binary64), as the rationals they stand for.

A rational is carried to the nearest multiple of the power of two that its size leaves room
for, and to the even multiple where two are as near; what comes out too large is infinite. Zero
has no sign here. An error in the last place is told from the size of the number.
-/

namespace Binary64

inductive Number
  | nan
  | infinite (negative : Bool)
  | finite (value : ℚ)
  deriving DecidableEq

/-- The integer nearest to a rational, the even one of two. -/
def halfEven (q : ℚ) : ℤ :=
  if q - ⌊q⌋ < 1 / 2 then ⌊q⌋
  else if 1 / 2 < q - ⌊q⌋ then ⌊q⌋ + 1
  else if ⌊q⌋ % 2 = 0 then ⌊q⌋ else ⌊q⌋ + 1

/-- The exponent of the last place of a number as large as `q`. -/
def exponent (q : ℚ) : ℤ := max (Int.log 2 |q| - 52) (-1074)

def nearest (q : ℚ) : ℚ := halfEven (q / 2 ^ exponent q) * 2 ^ exponent q

def Number.ofRat (q : ℚ) : Number :=
  if 2 ^ 1024 ≤ |nearest q| then .infinite (q < 0) else .finite (nearest q)

/-- To the nearest integer, up where two are as near. -/
def Number.round : Number → Number
  | .finite value => .finite ⌊value + 1 / 2⌋
  | x => x

variable {q : ℚ}

/-! ### To the nearest integer -/

theorem halfEven_near (q : ℚ) : |halfEven q - q| ≤ 1 / 2 := by
  have hlow := Int.floor_le q
  have hhigh := Int.lt_floor_add_one q
  unfold halfEven
  split
  · rw [abs_le]
    constructor <;> linarith
  · split
    · push_cast
      rw [abs_le]
      constructor <;> linarith
    · split
      · rw [abs_le]
        constructor <;> linarith
      · push_cast
        rw [abs_le]
        constructor <;> linarith

theorem halfEven_nonneg (h : 0 ≤ q) : 0 ≤ halfEven q := by
  have hfloor := Int.floor_nonneg.mpr h
  unfold halfEven
  repeat' split
  all_goals omega

theorem halfEven_le (h : 0 ≤ q) : (halfEven q : ℚ) ≤ 2 * q := by
  by_cases hhalf : q < 1 / 2
  · have hfloor : ⌊q⌋ = 0 := Int.floor_eq_zero_iff.mpr ⟨h, by linarith⟩
    rw [halfEven, hfloor, Int.cast_zero, sub_zero, if_pos hhalf, Int.cast_zero]
    linarith
  · have hnear := (abs_le.mp (halfEven_near q)).2
    linarith

/-! ### To the nearest number -/

@[simp] theorem nearest_zero : nearest 0 = 0 := by
  rw [nearest, zero_div]
  have hzero : halfEven 0 = 0 := by decide +kernel
  rw [hzero, Int.cast_zero, zero_mul]

/-- The last place is small beside the number, or as small as there is. -/
theorem two_zpow_exponent_le (h : q ≠ 0) :
    (2 : ℚ) ^ exponent q ≤ |q| / 2 ^ 52 + 2 ^ (-1074 : ℤ) := by
  have hpos : (0 : ℚ) ≤ 2 ^ (-1074 : ℤ) := by positivity
  have hq : (0 : ℚ) ≤ |q| / 2 ^ 52 := by positivity
  rcases max_choice (Int.log 2 |q| - 52) (-1074) with hmax | hmax
  · have hlog := Int.zpow_log_le_self (b := 2) (by decide) (abs_pos.mpr h)
    have hle : (2 : ℚ) ^ (Int.log 2 |q| - 52) ≤ |q| / 2 ^ 52 := by
      rw [zpow_sub₀ (by decide)]
      exact div_le_div_of_nonneg_right (by exact_mod_cast hlog) (by positivity)
    rw [exponent, hmax]
    linarith
  · rw [exponent, hmax]
    linarith

/-- The error of rounding. -/
theorem nearest_near (q : ℚ) : |nearest q - q| ≤ |q| / 2 ^ 53 + 2 ^ (-1074 : ℤ) / 2 := by
  by_cases h : q = 0
  · rw [h, nearest_zero, sub_zero, abs_zero, zero_div, zero_add]
    positivity
  · have hplace : (0 : ℚ) < 2 ^ exponent q := by positivity
    have heq : nearest q - q =
        (halfEven (q / 2 ^ exponent q) - q / 2 ^ exponent q) * 2 ^ exponent q := by
      rw [nearest, sub_mul, div_mul_cancel₀ _ hplace.ne']
    rw [heq, abs_mul, abs_of_pos hplace]
    calc |(halfEven (q / 2 ^ exponent q) : ℚ) - q / 2 ^ exponent q| * 2 ^ exponent q
        ≤ 1 / 2 * (|q| / 2 ^ 52 + 2 ^ (-1074 : ℤ)) :=
          mul_le_mul (halfEven_near _) (two_zpow_exponent_le h) hplace.le (by norm_num)
      _ = |q| / 2 ^ 53 + 2 ^ (-1074 : ℤ) / 2 := by ring

theorem nearest_nonneg (h : 0 ≤ q) : 0 ≤ nearest q := by
  have hround : 0 ≤ halfEven (q / 2 ^ exponent q) := halfEven_nonneg (by positivity)
  rw [nearest]
  exact mul_nonneg (by exact_mod_cast hround) (by positivity)

theorem nearest_le (h : 0 ≤ q) : nearest q ≤ 2 * q := by
  have hplace : (0 : ℚ) < 2 ^ exponent q := by positivity
  have hround : (halfEven (q / 2 ^ exponent q) : ℚ) ≤ 2 * (q / 2 ^ exponent q) :=
    halfEven_le (by positivity)
  calc nearest q ≤ 2 * (q / 2 ^ exponent q) * 2 ^ exponent q :=
        mul_le_mul_of_nonneg_right hround hplace.le
    _ = 2 * q := by rw [mul_assoc, div_mul_cancel₀ _ hplace.ne']

theorem Number.ofRat_finite {value : ℚ} (h : ofRat q = .finite value) : value = nearest q := by
  unfold ofRat at h
  split at h
  · cases h
  · exact (Number.finite.inj h).symm

theorem Number.ofRat_of_lt (h : |nearest q| < 2 ^ 1024) : ofRat q = .finite (nearest q) :=
  if_neg (not_le.mpr h)

example : Number.ofRat (1 / 4) = .finite (1 / 4) := by decide +kernel

end Binary64
