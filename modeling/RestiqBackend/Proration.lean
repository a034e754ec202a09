import Mathlib.Algebra.BigOperators.Group.List.Basic
import Mathlib.Algebra.Order.BigOperators.Group.List
import Mathlib.Algebra.Order.Ring.Int
import Mathlib.Tactic.Linarith

/-!
Dividing whole money in proportion.

`share total w W` is the part of `total` that the weight `w` is of `W`, truncated.
`apportion` gives every weight its share and the last one whatever is left, so that
nothing is lost however many there are. The cumulative rule is the other way not to
lose anything: what is taken at each step is the share of everything so far less
what was taken before, so a sequence of steps takes the share of its sum.
-/

namespace Proration

/-- The part of `total` that `w` is of `W`, truncated; nothing of an empty whole. -/
def share (total w W : ℤ) : ℤ := if W = 0 then 0 else (total * w).tdiv W

/-- Every weight's share of `total`, the last one taking what is left of it after
`given` and the shares before. -/
def apportion (total W : ℤ) : ℤ → List ℤ → List ℤ
  | _, [] => []
  | given, [_] => [total - given]
  | given, w :: w' :: ws =>
      share total w W :: apportion total W (given + share total w W) (w' :: ws)

/-! ### Shares -/

theorem share_eq_ediv {total w W : ℤ} (hW : 0 < W) (ht : 0 ≤ total) (hw : 0 ≤ w) :
    share total w W = total * w / W := by
  rw [share, if_neg hW.ne', Int.tdiv_eq_ediv_of_nonneg (mul_nonneg ht hw)]

@[simp] theorem share_zero_whole (total w : ℤ) : share total w 0 = 0 := if_pos rfl

@[simp] theorem share_zero (total W : ℤ) : share total 0 W = 0 := by
  simp [share]

/-- The whole weight gets the whole. -/
theorem share_self {total W : ℤ} (hW : W ≠ 0) : share total W W = total := by
  rw [share, if_neg hW, Int.mul_tdiv_cancel _ hW]

theorem share_nonneg {total w W : ℤ} (ht : 0 ≤ total) (hw : 0 ≤ w) (hW : 0 ≤ W) :
    0 ≤ share total w W := by
  rcases hW.lt_or_eq with hW | rfl
  · rw [share_eq_ediv hW ht hw]
    exact Int.ediv_nonneg (mul_nonneg ht hw) hW.le
  · simp

theorem share_mono {total w w' W : ℤ} (ht : 0 ≤ total) (hw : 0 ≤ w) (hww : w ≤ w')
    (hW : 0 ≤ W) : share total w W ≤ share total w' W := by
  rcases hW.lt_or_eq with hW | rfl
  · rw [share_eq_ediv hW ht hw, share_eq_ediv hW ht (hw.trans hww)]
    exact Int.ediv_le_ediv hW (mul_le_mul_of_nonneg_left hww ht)
  · simp

/-- A part of the weight never gets more than the whole. -/
theorem share_le {total w W : ℤ} (ht : 0 ≤ total) (hw : 0 ≤ w) (hwW : w ≤ W) :
    share total w W ≤ total := by
  rcases (hw.trans hwW).lt_or_eq with hW | rfl
  · exact (share_mono ht hw hwW hW.le).trans (share_self hW.ne').le
  · simpa using ht

/-- Shares of parts do not add up to more than the share of their sum. -/
theorem share_add_le {total w w' W : ℤ} (ht : 0 ≤ total) (hw : 0 ≤ w) (hw' : 0 ≤ w')
    (hW : 0 ≤ W) : share total w W + share total w' W ≤ share total (w + w') W := by
  rcases hW.lt_or_eq with hW | rfl
  · rw [share_eq_ediv hW ht hw, share_eq_ediv hW ht hw', share_eq_ediv hW ht (add_nonneg hw hw'),
      mul_add]
    refine Int.le_ediv_of_mul_le hW ?_
    rw [add_mul]
    exact add_le_add (Int.ediv_mul_le _ hW.ne') (Int.ediv_mul_le _ hW.ne')
  · simp

/-! ### Apportioning -/

theorem apportion_length (total W given : ℤ) (ws : List ℤ) :
    (apportion total W given ws).length = ws.length := by
  fun_induction apportion total W given ws with
  | case1 => rfl
  | case2 => rfl
  | case3 given w w' ws ih => simp [ih]

/-- Nothing is lost: the parts and what was given before add up to the total. -/
theorem apportion_sum (total W given : ℤ) {ws : List ℤ} (hws : ws ≠ []) :
    (apportion total W given ws).sum = total - given := by
  fun_induction apportion total W given ws with
  | case1 => exact absurd rfl hws
  | case2 => simp
  | case3 given w w' ws ih =>
      rw [List.sum_cons, ih (List.cons_ne_nil _ _)]
      omega

/-- All but the last get their share, and the last what is left. -/
theorem apportion_snoc (total W given : ℤ) (ws : List ℤ) (w : ℤ) :
    apportion total W given (ws ++ [w]) =
      ws.map (share total · W) ++ [total - given - (ws.map (share total · W)).sum] := by
  induction ws generalizing given with
  | nil => simp [apportion]
  | cons a ws ih =>
      have hstep : apportion total W given (a :: (ws ++ [w])) =
          share total a W :: apportion total W (given + share total a W) (ws ++ [w]) := by
        cases ws <;> rfl
      rw [List.cons_append, hstep, ih, List.map_cons, List.sum_cons, List.cons_append,
        sub_add_eq_sub_sub, sub_sub _ (share total a W)]

/-- No part is negative, where what was given is no more than its own share. -/
theorem apportion_nonneg {total W given : ℤ} {ws : List ℤ} (ht : 0 ≤ total)
    (hws : ∀ w ∈ ws, 0 ≤ w) (hgiven : given ≤ share total (W - ws.sum) W)
    (hsum : ws.sum ≤ W) : ∀ a ∈ apportion total W given ws, 0 ≤ a := by
  fun_induction apportion total W given ws with
  | case1 => simp
  | case2 given w =>
      have hw : 0 ≤ w := hws w List.mem_cons_self
      simp only [List.sum_cons, List.sum_nil, add_zero] at hgiven hsum
      have := share_le (w := W - w) (W := W) ht (by omega) (by omega)
      simp only [List.mem_singleton, forall_eq]
      omega
  | case3 given w w' ws ih =>
      have hw : 0 ≤ w := hws w List.mem_cons_self
      have hrest : ∀ x ∈ w' :: ws, 0 ≤ x := fun x hx => hws x (List.mem_cons_of_mem _ hx)
      have hrest_sum : 0 ≤ (w' :: ws).sum := List.sum_nonneg hrest
      rw [List.sum_cons] at hgiven hsum
      have hW : 0 ≤ W := by omega
      have hstep : share total (W - (w + (w' :: ws).sum)) W + share total w W ≤
          share total (W - (w + (w' :: ws).sum) + w) W := share_add_le ht (by omega) hw hW
      have hshift : W - (w + (w' :: ws).sum) + w = W - (w' :: ws).sum := by omega
      rw [hshift] at hstep
      intro a ha
      rcases List.mem_cons.mp ha with rfl | ha
      · exact share_nonneg ht hw hW
      · exact ih hrest (by omega) (by omega) a ha

end Proration
