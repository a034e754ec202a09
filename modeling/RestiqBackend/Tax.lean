import Mathlib.Data.Int.Order.Basic
import Mathlib.Data.Rat.Defs
import Mathlib.Tactic.Common
import Mathlib.Tactic.Linarith

/-!
The tax engine (`src/pos/bills/tax.ts`).

Money is a signed integer of minor units and `/` on it truncates toward zero, as
on a JavaScript `bigint`. The configured rate is kept as the integer number of
hundredths of a percent that the column stores, so that no rate is ever a
floating point number. What the rest of the development needs of the engine is
that nothing is charged on nothing, that no tax is negative on a bill that is
not, and that more is never charged on less.
-/

namespace RestiqBackend

inductive TaxCountry
  | IN
  | AU
  deriving DecidableEq, Repr

/-- The odd-paisa rule of the CGST/SGST split. -/
inductive GstSplitRounding
  | exactTotal
  | equalHalfUp
  | equalHalfEven
  deriving DecidableEq, Repr

structure ComputeTaxParams where
  country : TaxCountry
  taxProfile : String
  compositionScheme : Bool
  gstRegistered : Bool
  subtotalMinor : ℤ
  /-- Hundredths of a percent; `none` means the statutory default. -/
  gstRatePercent : Option ℕ
  gstSplitRounding : GstSplitRounding

structure TaxBreakdownLine where
  label : String
  ratePercent : ℚ
  amountMinor : ℤ
  deriving DecidableEq

structure TaxResult where
  taxMinor : ℤ
  pricesIncludeTax : Bool
  breakdown : List TaxBreakdownLine
  notes : List String
  gstSplitRounding : Option GstSplitRounding
  deriving DecidableEq

def compositionNote : String :=
  "Composition taxable person, not eligible to collect tax on supplies"

def notRegisteredNote : String :=
  "Not registered for GST - this is a receipt, not a tax invoice"

/-- `round(numerator / denominator)`, half away from zero. -/
def roundHalfUp (numerator denominator : ℤ) : ℤ :=
  if numerator < 0 then -((2 * -numerator + denominator).tdiv (2 * denominator))
  else (2 * numerator + denominator).tdiv (2 * denominator)

/-- `round(numerator / denominator)` of a numerator that is not negative, ties to even. -/
def roundHalfEvenNonneg (numerator denominator : ℤ) : ℤ :=
  let quotient := numerator.tdiv denominator
  let twiceRemainder := 2 * numerator.tmod denominator
  if twiceRemainder > denominator ∨ (twiceRemainder = denominator ∧ quotient.tmod 2 = 1) then
    quotient + 1
  else quotient

/-- `round(numerator / denominator)`, ties to even, symmetric about zero. -/
def roundHalfEven (numerator denominator : ℤ) : ℤ :=
  if numerator < 0 then -roundHalfEvenNonneg (-numerator) denominator
  else roundHalfEvenNonneg numerator denominator

/-- Lower-casing only matters on the letters looked for, which are ASCII. -/
def isIgstProfile (taxProfile : String) : Bool :=
  (taxProfile.toList.map Char.toLower).tails.any fun rest => "igst".toList.isPrefixOf rest

/-- The rate as an integer number of basis points. -/
def rateBasisPoints (gstRatePercent : Option ℕ) (defaultPercent : ℕ) : ℤ :=
  gstRatePercent.getD (defaultPercent * 100)

/-- The CGST and SGST halves of an Indian intra-state supply. -/
def splitCgstSgst (rounding : GstSplitRounding) (subtotalMinor rateBasis : ℤ) : ℤ × ℤ :=
  match rounding with
  | .exactTotal =>
      let totalMinor := roundHalfUp (subtotalMinor * rateBasis) 10000
      let cgstMinor := totalMinor.tdiv 2
      (cgstMinor, totalMinor - cgstMinor)
  | .equalHalfUp =>
      let cgstMinor := roundHalfUp (subtotalMinor * rateBasis) 20000
      (cgstMinor, cgstMinor)
  | .equalHalfEven =>
      let cgstMinor := roundHalfEven (subtotalMinor * rateBasis) 20000
      (cgstMinor, cgstMinor)

def computeTax (params : ComputeTaxParams) : TaxResult :=
  match params.country with
  | .IN =>
      if params.compositionScheme then
        { taxMinor := 0, pricesIncludeTax := false, breakdown := [], notes := [compositionNote],
          gstSplitRounding := none }
      else
        let rateBasis := rateBasisPoints params.gstRatePercent 5
        if isIgstProfile params.taxProfile then
          let amountMinor := roundHalfUp (params.subtotalMinor * rateBasis) 10000
          { taxMinor := amountMinor, pricesIncludeTax := false,
            breakdown := [⟨"IGST", rateBasis / 100, amountMinor⟩], notes := [],
            gstSplitRounding := none }
        else
          let halves := splitCgstSgst params.gstSplitRounding params.subtotalMinor rateBasis
          { taxMinor := halves.1 + halves.2, pricesIncludeTax := false,
            breakdown := [⟨"CGST", rateBasis / 200, halves.1⟩, ⟨"SGST", rateBasis / 200, halves.2⟩],
            notes := [], gstSplitRounding := some params.gstSplitRounding }
  | .AU =>
      if !params.gstRegistered then
        { taxMinor := 0, pricesIncludeTax := false, breakdown := [], notes := [notRegisteredNote],
          gstSplitRounding := none }
      else
        let rateBasis := rateBasisPoints params.gstRatePercent 10
        let taxMinor :=
          params.subtotalMinor - roundHalfUp (params.subtotalMinor * 10000) (10000 + rateBasis)
        { taxMinor := taxMinor, pricesIncludeTax := true,
          breakdown := [⟨"GST", rateBasis / 100, taxMinor⟩], notes := [], gstSplitRounding := none }

/-! ### Rounding -/

theorem rateBasisPoints_nonneg (rate : Option ℕ) (default : ℕ) : 0 ≤ rateBasisPoints rate default :=
  Int.natCast_nonneg _

theorem roundHalfUp_of_nonneg {n d : ℤ} (hn : 0 ≤ n) (hd : 0 < d) :
    roundHalfUp n d = (2 * n + d) / (2 * d) := by
  rw [roundHalfUp, if_neg (not_lt.mpr hn), Int.tdiv_eq_ediv_of_nonneg (by omega)]

theorem roundHalfUp_zero {d : ℤ} (hd : 0 < d) : roundHalfUp 0 d = 0 := by
  rw [roundHalfUp_of_nonneg le_rfl hd]
  exact Int.ediv_eq_zero_of_lt (by omega) (by omega)

theorem roundHalfUp_nonneg {n d : ℤ} (hn : 0 ≤ n) (hd : 0 < d) : 0 ≤ roundHalfUp n d := by
  rw [roundHalfUp_of_nonneg hn hd]
  exact Int.ediv_nonneg (by omega) (by omega)

theorem roundHalfUp_mono {n m d : ℤ} (hn : 0 ≤ n) (hnm : n ≤ m) (hd : 0 < d) :
    roundHalfUp n d ≤ roundHalfUp m d := by
  rw [roundHalfUp_of_nonneg hn hd, roundHalfUp_of_nonneg (hn.trans hnm) hd]
  exact Int.ediv_le_ediv (by omega) (by omega)

/-- Rounding never passes an integer that the exact quotient does not pass. -/
theorem roundHalfUp_le {n d q : ℤ} (hn : 0 ≤ n) (hd : 0 < d) (h : n ≤ q * d) :
    roundHalfUp n d ≤ q := by
  rw [roundHalfUp_of_nonneg hn hd]
  have : (2 * n + d) / (2 * d) < q + 1 := by
    rw [Int.ediv_lt_iff_lt_mul (by omega)]
    nlinarith
  omega

theorem roundHalfEvenNonneg_eq {n d : ℤ} (hn : 0 ≤ n) :
    roundHalfEvenNonneg n d =
      if 2 * (n % d) > d ∨ (2 * (n % d) = d ∧ n / d % 2 = 1) then n / d + 1 else n / d := by
  by_cases hd : 0 ≤ d
  · have hq : 0 ≤ n / d := Int.ediv_nonneg hn hd
    simp only [roundHalfEvenNonneg, Int.tdiv_eq_ediv_of_nonneg hn, Int.tmod_eq_emod_of_nonneg hn,
      Int.tmod_eq_emod_of_nonneg hq]
  · simp only [roundHalfEvenNonneg, Int.tdiv_eq_ediv_of_nonneg hn, Int.tmod_eq_emod_of_nonneg hn]
    have hr : 0 ≤ n % d := Int.emod_nonneg n (by omega)
    rw [if_pos (Or.inl (by omega)), if_pos (Or.inl (by omega))]

theorem roundHalfEven_of_nonneg {n d : ℤ} (hn : 0 ≤ n) :
    roundHalfEven n d = roundHalfEvenNonneg n d := by
  rw [roundHalfEven, if_neg (not_lt.mpr hn)]

theorem roundHalfEven_zero {d : ℤ} (hd : 0 < d) : roundHalfEven 0 d = 0 := by
  rw [roundHalfEven_of_nonneg le_rfl, roundHalfEvenNonneg_eq le_rfl]
  simp [not_lt.mpr hd.le, hd.ne]

theorem roundHalfEven_nonneg {n d : ℤ} (hn : 0 ≤ n) (hd : 0 < d) : 0 ≤ roundHalfEven n d := by
  have hq : 0 ≤ n / d := Int.ediv_nonneg hn hd.le
  rw [roundHalfEven_of_nonneg hn, roundHalfEvenNonneg_eq hn]
  split <;> omega

theorem roundHalfEven_mono {n m d : ℤ} (hn : 0 ≤ n) (hnm : n ≤ m) (hd : 0 < d) :
    roundHalfEven n d ≤ roundHalfEven m d := by
  have hm : 0 ≤ m := hn.trans hnm
  rw [roundHalfEven_of_nonneg hn, roundHalfEven_of_nonneg hm, roundHalfEvenNonneg_eq hn,
    roundHalfEvenNonneg_eq hm]
  have hq : n / d ≤ m / d := Int.ediv_le_ediv hd hnm
  rcases hq.lt_or_eq with hlt | heq
  · split <;> split <;> omega
  · -- Equal quotients: the remainders are ordered, and only they decide.
    have hr : n % d ≤ m % d := by
      have h₁ := Int.mul_ediv_add_emod n d
      have h₂ := Int.mul_ediv_add_emod m d
      rw [heq] at h₁
      omega
    rw [heq]
    split <;> split <;> omega

/-! ### The engine -/

theorem splitCgstSgst_nonneg (r : GstSplitRounding) {s b : ℤ} (hs : 0 ≤ s) (hb : 0 ≤ b) :
    0 ≤ (splitCgstSgst r s b).1 + (splitCgstSgst r s b).2 := by
  have hsb : 0 ≤ s * b := mul_nonneg hs hb
  cases r with
  | exactTotal =>
      have := roundHalfUp_nonneg hsb (d := 10000) (by norm_num)
      simp only [splitCgstSgst]; omega
  | equalHalfUp =>
      have := roundHalfUp_nonneg hsb (d := 20000) (by norm_num)
      simp only [splitCgstSgst]; omega
  | equalHalfEven =>
      have := roundHalfEven_nonneg hsb (d := 20000) (by norm_num)
      simp only [splitCgstSgst]; omega

theorem splitCgstSgst_mono (r : GstSplitRounding) {s s' b : ℤ} (hs : 0 ≤ s) (hss : s ≤ s')
    (hb : 0 ≤ b) : (splitCgstSgst r s b).1 + (splitCgstSgst r s b).2 ≤
      (splitCgstSgst r s' b).1 + (splitCgstSgst r s' b).2 := by
  have hsb : 0 ≤ s * b := mul_nonneg hs hb
  have hle : s * b ≤ s' * b := mul_le_mul_of_nonneg_right hss hb
  cases r with
  | exactTotal =>
      have := roundHalfUp_mono hsb hle (d := 10000) (by norm_num)
      simp only [splitCgstSgst]; omega
  | equalHalfUp =>
      have := roundHalfUp_mono hsb hle (d := 20000) (by norm_num)
      simp only [splitCgstSgst]; omega
  | equalHalfEven =>
      have := roundHalfEven_mono hsb hle (d := 20000) (by norm_num)
      simp only [splitCgstSgst]; omega

/-- Nothing is charged on nothing. -/
theorem computeTax_zero (params : ComputeTaxParams) (h : params.subtotalMinor = 0) :
    (computeTax params).taxMinor = 0 := by
  obtain ⟨country, profile, comp, reg, sub, rate, split⟩ := params
  subst h
  have hup : ∀ d : ℤ, 0 < d → roundHalfUp 0 d = 0 := fun d => roundHalfUp_zero
  have heven : roundHalfEven 0 20000 = 0 := roundHalfEven_zero (by norm_num)
  cases country with
  | IN =>
      cases comp <;> cases hp : isIgstProfile profile <;> cases split <;>
        simp [computeTax, splitCgstSgst, hp, hup, heven]
  | AU =>
      have hd : (0 : ℤ) < 10000 + rateBasisPoints rate 10 := by
        have := rateBasisPoints_nonneg rate 10
        omega
      cases reg <;> simp [computeTax, hup _ hd]

/-- No tax is negative on a taxable value that is not. -/
theorem computeTax_nonneg (params : ComputeTaxParams) (h : 0 ≤ params.subtotalMinor) :
    0 ≤ (computeTax params).taxMinor := by
  obtain ⟨country, profile, comp, reg, sub, rate, split⟩ := params
  dsimp only at h
  cases country with
  | IN =>
      have hb := rateBasisPoints_nonneg rate 5
      cases comp with
      | true => simp [computeTax]
      | false =>
          cases hp : isIgstProfile profile with
          | true =>
              simpa [computeTax, hp] using
                roundHalfUp_nonneg (mul_nonneg h hb) (d := 10000) (by norm_num)
          | false => simpa [computeTax, hp] using splitCgstSgst_nonneg split h hb
  | AU =>
      have hb := rateBasisPoints_nonneg rate 10
      cases reg with
      | false => simp [computeTax]
      | true =>
          have := roundHalfUp_le (n := sub * 10000) (d := 10000 + rateBasisPoints rate 10) (q := sub)
            (by omega) (by omega) (by nlinarith)
          simpa [computeTax] using this

/-- Where tax is added on top of the prices, more is never charged on less. -/
theorem computeTax_mono (params params' : ComputeTaxParams) (hs : 0 ≤ params.subtotalMinor)
    (hss : params.subtotalMinor ≤ params'.subtotalMinor)
    (hsame : params' = { params with subtotalMinor := params'.subtotalMinor })
    (hexcl : (computeTax params).pricesIncludeTax = false) :
    (computeTax params).taxMinor ≤ (computeTax params').taxMinor := by
  obtain ⟨country, profile, comp, reg, sub, rate, split⟩ := params
  generalize hs' : params'.subtotalMinor = s' at hss hsame
  subst hsame
  dsimp only at hs hss
  cases country with
  | IN =>
      have hb := rateBasisPoints_nonneg rate 5
      cases comp with
      | true => simp [computeTax]
      | false =>
          cases hp : isIgstProfile profile with
          | true =>
              simpa [computeTax, hp] using roundHalfUp_mono (mul_nonneg hs hb)
                (mul_le_mul_of_nonneg_right hss hb) (d := 10000) (by norm_num)
          | false => simpa [computeTax, hp] using splitCgstSgst_mono split hs hss hb
  | AU =>
      cases reg with
      | false => simp [computeTax]
      | true => simp [computeTax] at hexcl

/-- Whether prices include the tax is a matter of the registration, not of the value. -/
theorem computeTax_pricesIncludeTax (params : ComputeTaxParams) (s : ℤ) :
    (computeTax { params with subtotalMinor := s }).pricesIncludeTax =
      (computeTax params).pricesIncludeTax := by
  obtain ⟨country, profile, comp, reg, sub, rate, split⟩ := params
  cases country with
  | IN => cases comp <;> cases hp : isIgstProfile profile <;> simp [computeTax, hp]
  | AU => cases reg <;> simp [computeTax]

end RestiqBackend
