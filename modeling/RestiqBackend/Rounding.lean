import Mathlib.Algebra.Order.Field.Basic
import Mathlib.Algebra.Order.Group.Unbundled.Int
import Mathlib.Algebra.Order.Ring.Rat
import Mathlib.Data.Rat.Cast.Order
import Mathlib.Tactic.FieldSimp
import Mathlib.Tactic.Linarith
import Mathlib.Tactic.Ring

/-!
Rounding a fraction of whole numbers to a nearest whole number.

Nothing is said of how ties go: `Nearest n d q` only says that `q` is no further than
half a unit from `n / d`. That alone keeps the order of what is rounded, leaves whole
numbers alone and never lets a fraction of a whole number grow faster than it does.
-/

namespace Rounding

/-- `q` is at most half a unit from `n / d`. -/
def Nearest (n d q : ℤ) : Prop := 2 * |n - q * d| ≤ d

variable {n n' d q q' : ℤ}

theorem nearest_iff : Nearest n d q ↔ 2 * (n - q * d) ≤ d ∧ -d ≤ 2 * (n - q * d) := by
  have : 2 * |n - q * d| = |2 * (n - q * d)| := by rw [abs_mul]; rfl
  rw [Nearest, this, abs_le]
  exact and_comm

theorem Nearest.neg (h : Nearest n d q) : Nearest (-n) d (-q) := by
  have : -n - -q * d = -(n - q * d) := by ring
  rw [Nearest, this, abs_neg]
  exact h

/-- Of different numbers the larger is not rounded below the other. -/
theorem Nearest.le (hd : 0 < d) (h : Nearest n d q) (h' : Nearest n' d q') (hn : n < n') :
    q ≤ q' := by
  obtain ⟨-, hlow⟩ := nearest_iff.mp h
  obtain ⟨hhigh, -⟩ := nearest_iff.mp h'
  have : (q - q') * d < 1 * d := by linarith
  have := lt_of_mul_lt_mul_right this hd.le
  omega

/-- A whole number has only itself near it. -/
theorem Nearest.eq_of_whole (hd : 0 < d) (h : Nearest (q * d) d q') : q' = q := by
  obtain ⟨hhigh, hlow⟩ := nearest_iff.mp h
  have h₁ : (q - q') * d < 1 * d := by linarith
  have h₂ : (q' - q) * d < 1 * d := by linarith
  have := lt_of_mul_lt_mul_right h₁ hd.le
  have := lt_of_mul_lt_mul_right h₂ hd.le
  omega

/-- What is left of a whole number when a rounded fraction of it is taken does not
shrink as the number grows. -/
theorem Nearest.sub_le {a s s' : ℤ} (had : a ≤ d) (hd : 0 < d) (h : Nearest (s * a) d q)
    (h' : Nearest (s' * a) d q') (hs : s ≤ s') (hsame : s = s' → q = q') : s - q ≤ s' - q' := by
  rcases hs.eq_or_lt with rfl | hlt
  · rw [hsame rfl]
  rcases had.eq_or_lt with rfl | had
  · rw [h.eq_of_whole hd, h'.eq_of_whole hd]
    omega
  · obtain ⟨-, hlow⟩ := nearest_iff.mp h'
    obtain ⟨hhigh, hlow'⟩ := nearest_iff.mp h
    obtain ⟨hhigh', -⟩ := nearest_iff.mp h'
    have hgrow : (s' - s) * a < (s' - s) * d := mul_lt_mul_of_pos_left had (by omega)
    have : (q' - q) * d < (s' - s + 1) * d := by linarith
    have := lt_of_mul_lt_mul_right this hd.le
    omega

/-- The distance from the exact quotient. -/
theorem Nearest.abs_sub_div_le (hd : 0 < d) (h : Nearest n d q) :
    |(q : ℚ) - n / d| ≤ 1 / 2 := by
  have hd' : (0 : ℚ) < d := by exact_mod_cast hd
  have hq : (q : ℚ) - n / d = (q * d - n) / d := by field_simp
  obtain ⟨hhigh, hlow⟩ := nearest_iff.mp h
  have hhigh' : 2 * ((n : ℚ) - q * d) ≤ d := by exact_mod_cast hhigh
  have hlow' : -(d : ℚ) ≤ 2 * (n - q * d) := by exact_mod_cast hlow
  rw [hq, abs_le, le_div_iff₀ hd', div_le_iff₀ hd']
  constructor <;> linarith

/-- Whole numbers that are less than two apart differ by at most one. -/
theorem abs_sub_le_one {x y : ℤ} {t : ℚ} (hx : |(x : ℚ) - t| ≤ 1) (hy : |(y : ℚ) - t| ≤ 1 / 2) :
    |x - y| ≤ 1 := by
  have hlt : |(x : ℚ) - y| < 2 := by
    rw [abs_le] at hx hy
    rw [abs_lt]
    constructor <;> linarith
  have : |x - y| < 2 := by exact_mod_cast hlt
  omega

/-! ### To a multiple of a unit -/

/-- The multiple of a unit that is nearest to `n`, halves up. -/
def halfUp (n unit : ℤ) : ℤ := (2 * n + unit) / (2 * unit) * unit

theorem dvd_halfUp (n unit : ℤ) : unit ∣ halfUp n unit := Dvd.intro_left _ rfl

theorem halfUp_bounds {unit : ℤ} (hunit : 0 < unit) (n : ℤ) :
    -unit < 2 * (halfUp n unit - n) ∧ 2 * (halfUp n unit - n) ≤ unit := by
  have hrest : (2 * unit) * ((2 * n + unit) / (2 * unit)) + (2 * n + unit) % (2 * unit) =
      2 * n + unit := Int.mul_ediv_add_emod _ _
  have hlow : 0 ≤ (2 * n + unit) % (2 * unit) := Int.emod_nonneg _ (by omega)
  have hhigh : (2 * n + unit) % (2 * unit) < 2 * unit := Int.emod_lt_of_pos _ (by omega)
  have htwice : 2 * halfUp n unit = (2 * unit) * ((2 * n + unit) / (2 * unit)) := by
    rw [halfUp]
    ring
  constructor <;> linarith

end Rounding
