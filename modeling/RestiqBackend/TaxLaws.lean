import RestiqBackend.Rounding
import RestiqBackend.Tax

/-!
What the tax engine promises of every bill (`src/pos/bills/tax.ts`).

Both of its roundings are to a nearest whole number and symmetric about zero, so each
amount follows the exact tax within half a unit and a split one within a whole unit;
that they are the engine's own roundings matters nowhere else.
-/

namespace RestiqBackend

open Rounding

/-- The tax that the registration charges on the subtotal, before any rounding. -/
def exactTax (params : ComputeTaxParams) : ℚ :=
  match params.country with
  | .IN =>
      if params.compositionScheme then 0
      else params.subtotalMinor * rateBasisPoints params.gstRatePercent 5 / 10000
  | .AU =>
      if params.gstRegistered then
        params.subtotalMinor * rateBasisPoints params.gstRatePercent 10 /
          (10000 + rateBasisPoints params.gstRatePercent 10)
      else 0

/-! ### The roundings -/

section Roundings

variable {n d : ℤ}

theorem roundHalfUp_of_neg (hn : n < 0) : roundHalfUp n d = -roundHalfUp (-n) d := by
  rw [roundHalfUp, if_pos hn, roundHalfUp, if_neg (by omega)]

theorem roundHalfUp_neg (hd : 0 < d) : roundHalfUp (-n) d = -roundHalfUp n d := by
  rcases lt_trichotomy n 0 with hn | rfl | hn
  · rw [roundHalfUp_of_neg hn, neg_neg]
  · simp [roundHalfUp_zero hd]
  · rw [roundHalfUp_of_neg (by omega), neg_neg]

theorem roundHalfUp_nearest (hd : 0 < d) : Nearest n d (roundHalfUp n d) := by
  have key : ∀ m : ℤ, 0 ≤ m → Nearest m d (roundHalfUp m d) := by
    intro m hm
    rw [roundHalfUp_of_nonneg hm hd, nearest_iff]
    have hq := Int.mul_ediv_add_emod (2 * m + d) (2 * d)
    have hlow := Int.emod_nonneg (2 * m + d) (show 2 * d ≠ 0 by omega)
    have hhigh := Int.emod_lt_of_pos (2 * m + d) (show 0 < 2 * d by omega)
    constructor <;> linarith
  rcases lt_or_ge n 0 with hn | hn
  · rw [roundHalfUp_of_neg hn]
    simpa using (key (-n) (by omega)).neg
  · exact key n hn

theorem roundHalfEven_of_neg (hn : n < 0) : roundHalfEven n d = -roundHalfEven (-n) d := by
  rw [roundHalfEven, if_pos hn, roundHalfEven, if_neg (by omega)]

theorem roundHalfEven_neg (hd : 0 < d) : roundHalfEven (-n) d = -roundHalfEven n d := by
  rcases lt_trichotomy n 0 with hn | rfl | hn
  · rw [roundHalfEven_of_neg hn, neg_neg]
  · simp [roundHalfEven_zero hd]
  · rw [roundHalfEven_of_neg (by omega), neg_neg]

theorem roundHalfEven_nearest (hd : 0 < d) : Nearest n d (roundHalfEven n d) := by
  have key : ∀ m : ℤ, 0 ≤ m → Nearest m d (roundHalfEven m d) := by
    intro m hm
    rw [roundHalfEven_of_nonneg hm, roundHalfEvenNonneg_eq hm, nearest_iff]
    have hq := Int.mul_ediv_add_emod m d
    have hlow := Int.emod_nonneg m hd.ne'
    have hhigh := Int.emod_lt_of_pos m hd
    split
    · constructor <;> linarith [show d ≤ 2 * (m % d) by omega]
    · constructor <;> linarith [show 2 * (m % d) ≤ d by omega]
  rcases lt_or_ge n 0 with hn | hn
  · rw [roundHalfEven_of_neg hn]
    simpa using (key (-n) (by omega)).neg
  · exact key n hn

end Roundings

/-- The whole of a split tax. -/
def splitTotal (r : GstSplitRounding) (s b : ℤ) : ℤ :=
  (splitCgstSgst r s b).1 + (splitCgstSgst r s b).2

/-! ### The split -/

section Split

variable {s s' b : ℤ}

@[simp] theorem splitTotal_exactTotal : splitTotal .exactTotal s b = roundHalfUp (s * b) 10000 := by
  simp [splitTotal, splitCgstSgst]

@[simp] theorem splitTotal_equalHalfUp :
    splitTotal .equalHalfUp s b = 2 * roundHalfUp (s * b) 20000 := by
  simp only [splitTotal, splitCgstSgst]
  ring

@[simp] theorem splitTotal_equalHalfEven :
    splitTotal .equalHalfEven s b = 2 * roundHalfEven (s * b) 20000 := by
  simp only [splitTotal, splitCgstSgst]
  ring

theorem splitTotal_neg (r : GstSplitRounding) : splitTotal r (-s) b = -splitTotal r s b := by
  cases r with
  | exactTotal => simp [roundHalfUp_neg]
  | equalHalfUp => simp [roundHalfUp_neg]
  | equalHalfEven => simp [roundHalfEven_neg]

theorem splitTotal_mono (r : GstSplitRounding) (hs : s ≤ s') (hb : 0 ≤ b) :
    splitTotal r s b ≤ splitTotal r s' b := by
  rcases (mul_le_mul_of_nonneg_right hs hb).eq_or_lt with heq | hlt
  · cases r <;> simp [heq]
  cases r with
  | exactTotal =>
      simpa using (roundHalfUp_nearest (by norm_num)).le (by norm_num)
        (roundHalfUp_nearest (by norm_num)) hlt
  | equalHalfUp =>
      simpa using (roundHalfUp_nearest (by norm_num)).le (by norm_num)
        (roundHalfUp_nearest (by norm_num)) hlt
  | equalHalfEven =>
      simpa using (roundHalfEven_nearest (by norm_num)).le (by norm_num)
        (roundHalfEven_nearest (by norm_num)) hlt

/-- Two equal halves, each near its own half, are within a unit of the whole. -/
theorem double_near {q : ℤ} (h : Nearest (s * b) 20000 q) :
    |((2 * q : ℤ) : ℚ) - s * b / 10000| ≤ 1 := by
  have := h.abs_sub_div_le (by norm_num)
  push_cast at this ⊢
  rw [abs_le] at this ⊢
  constructor <;> linarith

theorem splitTotal_exactTotal_near : |(splitTotal .exactTotal s b : ℚ) - s * b / 10000| ≤ 1 / 2 := by
  have := (roundHalfUp_nearest (n := s * b) (d := 10000) (by norm_num)).abs_sub_div_le (by norm_num)
  rw [splitTotal_exactTotal]
  exact_mod_cast this

theorem splitTotal_near (r : GstSplitRounding) : |(splitTotal r s b : ℚ) - s * b / 10000| ≤ 1 := by
  cases r with
  | exactTotal => exact splitTotal_exactTotal_near.trans (by norm_num)
  | equalHalfUp =>
      rw [splitTotal_equalHalfUp]
      exact double_near (roundHalfUp_nearest (by norm_num))
  | equalHalfEven =>
      rw [splitTotal_equalHalfEven]
      exact double_near (roundHalfEven_nearest (by norm_num))

/-- Halving a whole number leaves halves that differ by at most one. -/
theorem splitCgstSgst_halves (r : GstSplitRounding) :
    |(splitCgstSgst r s b).1 - (splitCgstSgst r s b).2| ≤ 1 ∧
      (r ≠ .exactTotal → (splitCgstSgst r s b).1 = (splitCgstSgst r s b).2) := by
  cases r with
  | exactTotal =>
      refine ⟨?_, fun h => absurd rfl h⟩
      simp only [splitCgstSgst]
      have := Int.mul_tdiv_add_tmod (roundHalfUp (s * b) 10000) 2
      have := Int.tmod_two_eq (roundHalfUp (s * b) 10000)
      rw [abs_le]
      omega
  | equalHalfUp => simp [splitCgstSgst]
  | equalHalfEven => simp [splitCgstSgst]

end Split

/-! ### The engine -/

/-- What holds of the tax on any subtotal under any registration. -/
structure TaxLaws (params : ComputeTaxParams) : Prop where
  /-- The lines add up to the tax. -/
  sum_breakdown :
    ((computeTax params).breakdown.map (·.amountMinor)).sum = (computeTax params).taxMinor
  /-- The split that rounds once charges what the same rate charges between states. -/
  exactTotal_eq_igst : params.country = .IN → params.gstSplitRounding = .exactTotal →
    ∀ profile, isIgstProfile profile = true →
      (computeTax params).taxMinor = (computeTax { params with taxProfile := profile }).taxMinor
  /-- Rounded once, the tax is within half a unit of the exact one. -/
  near_exact : params.country = .AU ∨ isIgstProfile params.taxProfile = true ∨
      params.gstSplitRounding = .exactTotal →
    |((computeTax params).taxMinor : ℚ) - exactTax params| ≤ 1 / 2
  /-- Rounded in two equal halves, it is within a whole unit. -/
  near_exact_of_halves : |((computeTax params).taxMinor : ℚ) - exactTax params| ≤ 1
  near_exactTotal : |(computeTax params).taxMinor -
    (computeTax { params with gstSplitRounding := .exactTotal }).taxMinor| ≤ 1
  halves : params.country = .IN → params.compositionScheme = false →
    isIgstProfile params.taxProfile = false → ∃ cgst sgst,
      (computeTax params).breakdown = [cgst, sgst] ∧ cgst.label = "CGST" ∧ sgst.label = "SGST" ∧
        |cgst.amountMinor - sgst.amountMinor| ≤ 1 ∧
        (params.gstSplitRounding ≠ .exactTotal → cgst.amountMinor = sgst.amountMinor)
  neg : (computeTax { params with subtotalMinor := -params.subtotalMinor }).taxMinor =
    -(computeTax params).taxMinor
  mono : ∀ s, params.subtotalMinor ≤ s →
    (computeTax params).taxMinor ≤ (computeTax { params with subtotalMinor := s }).taxMinor
  included : params.country = .AU → 0 ≤ params.subtotalMinor →
    0 ≤ (computeTax params).taxMinor ∧ (computeTax params).taxMinor ≤ params.subtotalMinor

section Included

variable {s s' b : ℤ}

/-- The tax that is contained in a price. -/
def includedTax (s b : ℤ) : ℤ := s - roundHalfUp (s * 10000) (10000 + b)

theorem includedTax_neg (hb : 0 ≤ b) : includedTax (-s) b = -includedTax s b := by
  simp only [includedTax, neg_mul, roundHalfUp_neg (show 0 < 10000 + b by omega)]
  ring

theorem includedTax_mono (hs : s ≤ s') (hb : 0 ≤ b) : includedTax s b ≤ includedTax s' b :=
  (roundHalfUp_nearest (by omega)).sub_le (by omega) (by omega) (roundHalfUp_nearest (by omega)) hs
    fun h => by rw [h]

theorem includedTax_near (hb : 0 ≤ b) :
    |(includedTax s b : ℚ) - s * b / (10000 + b)| ≤ 1 / 2 := by
  have hpos : (0 : ℚ) < 10000 + b := by
    have : (0 : ℚ) ≤ b := by exact_mod_cast hb
    linarith
  have hnear := (roundHalfUp_nearest (n := s * 10000) (d := 10000 + b) (by omega)).abs_sub_div_le
    (by omega)
  push_cast at hnear
  -- What is left of the price when its taxable part is taken.
  have hsplit : (s : ℚ) * b / (10000 + b) = s - s * 10000 / (10000 + b) := by
    field_simp
    ring
  rw [includedTax, hsplit, ← abs_neg]
  push_cast
  convert hnear using 2
  ring

theorem includedTax_nonneg (hs : 0 ≤ s) (hb : 0 ≤ b) : 0 ≤ includedTax s b := by
  have := roundHalfUp_le (n := s * 10000) (d := 10000 + b) (q := s) (by omega) (by omega)
    (by nlinarith)
  rw [includedTax]
  omega

theorem includedTax_le (hs : 0 ≤ s) (hb : 0 ≤ b) : includedTax s b ≤ s := by
  have := roundHalfUp_nonneg (n := s * 10000) (d := 10000 + b) (by omega) (by omega)
  rw [includedTax]
  omega

end Included

/-- The ways a registration charges tax. -/
inductive Charging (params : ComputeTaxParams) : (ℤ → ℤ) → Prop
  | composition : params.country = .IN → params.compositionScheme = true → Charging params fun _ => 0
  | igst : params.country = .IN → params.compositionScheme = false →
      isIgstProfile params.taxProfile = true →
      Charging params fun s => splitTotal .exactTotal s (rateBasisPoints params.gstRatePercent 5)
  | split : params.country = .IN → params.compositionScheme = false →
      isIgstProfile params.taxProfile = false →
      Charging params fun s =>
        splitTotal params.gstSplitRounding s (rateBasisPoints params.gstRatePercent 5)
  | unregistered : params.country = .AU → params.gstRegistered = false → Charging params fun _ => 0
  | included : params.country = .AU → params.gstRegistered = true →
      Charging params fun s => includedTax s (rateBasisPoints params.gstRatePercent 10)

theorem exists_charging (params : ComputeTaxParams) : ∃ tax, Charging params tax := by
  cases hc : params.country with
  | IN =>
      cases hcomp : params.compositionScheme with
      | true => exact ⟨_, .composition hc hcomp⟩
      | false =>
          cases hp : isIgstProfile params.taxProfile with
          | true => exact ⟨_, .igst hc hcomp hp⟩
          | false => exact ⟨_, .split hc hcomp hp⟩
  | AU =>
      cases hreg : params.gstRegistered with
      | true => exact ⟨_, .included hc hreg⟩
      | false => exact ⟨_, .unregistered hc hreg⟩

section Charging

variable {params : ComputeTaxParams} {tax : ℤ → ℤ}

theorem Charging.taxMinor (h : Charging params tax) (s : ℤ) :
    (computeTax { params with subtotalMinor := s }).taxMinor = tax s := by
  cases h with
  | composition hc hcomp => simp [computeTax, hc, hcomp]
  | igst hc hcomp hp => simp [computeTax, hc, hcomp, hp]
  | split hc hcomp hp => simp [computeTax, hc, hcomp, hp, splitTotal]
  | unregistered hc hreg => simp [computeTax, hc, hreg]
  | included hc hreg => simp [computeTax, hc, hreg, includedTax]

theorem Charging.neg (h : Charging params tax) (s : ℤ) : tax (-s) = -tax s := by
  cases h with
  | composition | unregistered => simp
  | igst | split => exact splitTotal_neg _
  | included => exact includedTax_neg (rateBasisPoints_nonneg _ _)

theorem Charging.mono (h : Charging params tax) {s s' : ℤ} (hs : s ≤ s') : tax s ≤ tax s' := by
  cases h with
  | composition | unregistered => exact le_rfl
  | igst | split => exact splitTotal_mono _ hs (rateBasisPoints_nonneg _ _)
  | included => exact includedTax_mono hs (rateBasisPoints_nonneg _ _)

theorem Charging.near (h : Charging params tax) :
    |(tax params.subtotalMinor : ℚ) - exactTax params| ≤ 1 := by
  cases h with
  | composition hc hcomp => simp [exactTax, hc, hcomp]
  | igst hc hcomp | split hc hcomp =>
      simp only [exactTax, hc, hcomp]
      exact splitTotal_near _
  | unregistered hc hreg => simp [exactTax, hc, hreg]
  | included hc hreg =>
      simp only [exactTax, hc, hreg]
      exact (includedTax_near (rateBasisPoints_nonneg _ _)).trans (by norm_num)

theorem Charging.near_half (h : Charging params tax)
    (honce : params.country = .AU ∨ isIgstProfile params.taxProfile = true ∨
      params.gstSplitRounding = .exactTotal) :
    |(tax params.subtotalMinor : ℚ) - exactTax params| ≤ 1 / 2 := by
  cases h with
  | composition hc hcomp => simp [exactTax, hc, hcomp]
  | igst hc hcomp =>
      simp only [exactTax, hc, hcomp]
      exact splitTotal_exactTotal_near
  | split hc hcomp hp =>
      have hr : params.gstSplitRounding = .exactTotal := by simpa [hc, hp] using honce
      simp only [exactTax, hc, hcomp, hr]
      exact splitTotal_exactTotal_near
  | unregistered hc hreg => simp [exactTax, hc, hreg]
  | included hc hreg =>
      simp only [exactTax, hc, hreg]
      exact includedTax_near (rateBasisPoints_nonneg _ _)

theorem Charging.included_bounds (h : Charging params tax) (hc : params.country = .AU) {s : ℤ}
    (hs : 0 ≤ s) : 0 ≤ tax s ∧ tax s ≤ s := by
  cases h with
  | composition hin | igst hin | split hin => simp [hc] at hin
  | unregistered => exact ⟨le_rfl, hs⟩
  | included =>
      have hb := rateBasisPoints_nonneg params.gstRatePercent 10
      exact ⟨includedTax_nonneg hs hb, includedTax_le hs hb⟩

theorem Charging.sum_breakdown (h : Charging params tax) :
    ((computeTax params).breakdown.map (·.amountMinor)).sum = (computeTax params).taxMinor := by
  cases h with
  | composition hc hcomp => simp [computeTax, hc, hcomp]
  | igst hc hcomp hp => simp [computeTax, hc, hcomp, hp]
  | split hc hcomp hp => simp [computeTax, hc, hcomp, hp]
  | unregistered hc hreg => simp [computeTax, hc, hreg]
  | included hc hreg => simp [computeTax, hc, hreg]

end Charging

theorem computeTax_halves {params : ComputeTaxParams} (hc : params.country = .IN)
    (hcomp : params.compositionScheme = false) (hp : isIgstProfile params.taxProfile = false) :
    ∃ cgst sgst, (computeTax params).breakdown = [cgst, sgst] ∧ cgst.label = "CGST" ∧
      sgst.label = "SGST" ∧ |cgst.amountMinor - sgst.amountMinor| ≤ 1 ∧
      (params.gstSplitRounding ≠ .exactTotal → cgst.amountMinor = sgst.amountMinor) := by
  let rate : ℤ := rateBasisPoints params.gstRatePercent 5
  let halves := splitCgstSgst params.gstSplitRounding params.subtotalMinor rate
  refine ⟨⟨"CGST", rate / 200, halves.1⟩, ⟨"SGST", rate / 200, halves.2⟩, ?_, rfl, rfl,
    splitCgstSgst_halves params.gstSplitRounding⟩
  simp [computeTax, hc, hcomp, hp, rate, halves]

/-- The laws hold of every subtotal, rate, country, profile and split rule. -/
theorem computeTax_laws (params : ComputeTaxParams) : TaxLaws params := by
  obtain ⟨tax, h⟩ := exists_charging params
  obtain ⟨once, honce⟩ := exists_charging { params with gstSplitRounding := .exactTotal }
  have hself : (computeTax params).taxMinor = tax params.subtotalMinor :=
    h.taxMinor params.subtotalMinor
  refine
    { sum_breakdown := h.sum_breakdown
      exactTotal_eq_igst := ?exactTotal
      near_exact := fun hround => hself ▸ h.near_half hround
      near_exact_of_halves := hself ▸ h.near
      near_exactTotal := ?near
      halves := computeTax_halves
      neg := ?neg
      mono := fun s hs => ?mono
      included := fun hc hs => hself ▸ h.included_bounds hc hs }
  case exactTotal =>
      intro hc hr profile hprofile
      cases hcomp : params.compositionScheme <;> cases hp : isIgstProfile params.taxProfile <;>
        simp [computeTax, hc, hcomp, hp, hprofile, hr, splitCgstSgst]
  case near =>
      -- Both follow the same exact tax, which knows nothing of the split.
      have hnear := honce.near_half (.inr (.inr rfl))
      rw [hself, honce.taxMinor params.subtotalMinor]
      exact abs_sub_le_one h.near hnear
  case neg => rw [hself, h.taxMinor, h.neg]
  case mono =>
      rw [hself, h.taxMinor]
      exact h.mono hs

end RestiqBackend
