import RestiqBackend.Bookkeeping
import RestiqBackend.Rounding

/-!
Rounding the cash.

What is left of a total after every other tender is paid in coins, to the nearest unit of the
market. The check of a settlement only looks at two sums, so how the cash was handed over does
not matter to it.
-/

namespace RestiqBackend

open ReadCommitted

/-! ### The rule -/

/-- The smallest amount that cash can settle. -/
def TaxCountry.cashUnit : TaxCountry → ℤ
  | .IN => 100
  | .AU => 5

theorem TaxCountry.cashUnit_pos (country : TaxCountry) : 0 < country.cashUnit := by
  cases country <;> exact Int.ofNat_lt.mpr (by decide)

theorem cashRoundOffMinor_of_nonpos {dueMinor : ℤ} (h : dueMinor ≤ 0) (country : TaxCountry) :
    cashRoundOffMinor dueMinor country = 0 := if_pos h

theorem cashRoundOffMinor_of_pos {dueMinor : ℤ} (h : 0 < dueMinor) (country : TaxCountry) :
    cashRoundOffMinor dueMinor country = Rounding.halfUp dueMinor country.cashUnit - dueMinor := by
  have hunit := country.cashUnit_pos
  have hrule : cashRoundOffMinor dueMinor country =
      (dueMinor * 2 + country.cashUnit).tdiv (2 * country.cashUnit) * country.cashUnit -
        dueMinor := by
    cases country <;> exact if_neg (not_le.mpr h)
  rw [hrule, Rounding.halfUp, Int.tdiv_eq_ediv_of_nonneg (by omega), mul_comm dueMinor]

/-- Nothing is rounded of what is not due. -/
theorem due_of_roundOff {dueMinor : ℤ} {country : TaxCountry}
    (h : cashRoundOffMinor dueMinor country ≠ 0) : 0 < dueMinor := by
  by_contra hdue
  exact h (cashRoundOffMinor_of_nonpos (not_lt.mp hdue) country)

/-! ### What the check looks at -/

def nonCashMinorOf (tenders : List Tender) : ℤ :=
  ((tenders.filter (·.method ≠ .cash)).map (·.amountMinor)).sum

theorem tenderTotal_eq (tenders : List Tender) :
    (tenders.map (·.amountMinor)).sum = cashMinorOf tenders + nonCashMinorOf tenders := by
  induction tenders with
  | nil => rfl
  | cons t tenders ih =>
      rw [List.map_cons, List.sum_cons, ih, cashMinorOf, cashMinorOf, nonCashMinorOf,
        nonCashMinorOf]
      by_cases hcash : t.method = .cash
      · simp [hcash]
        ring
      · simp [hcash]
        ring

theorem cashMinorOf_pos {tenders : List Tender} (h : ∀ t ∈ tenders, 1 ≤ t.amountMinor) :
    0 < cashMinorOf tenders ↔ ∃ t ∈ tenders, t.method = .cash := by
  have hcash : ∀ x ∈ (tenders.filter (·.method = .cash)).map (·.amountMinor), (1 : ℤ) ≤ x := by
    intro x hx
    obtain ⟨t, ht, rfl⟩ := List.mem_map.mp hx
    exact h t (List.mem_of_mem_filter ht)
  constructor
  · intro hpos
    by_contra hnone
    have hempty : tenders.filter (·.method = .cash) = [] :=
      List.filter_eq_nil_iff.mpr fun t ht hmethod =>
        hnone ⟨t, ht, of_decide_eq_true hmethod⟩
    rw [cashMinorOf, hempty] at hpos
    exact lt_irrefl _ hpos
  · rintro ⟨t, ht, hmethod⟩
    have hmem : t.amountMinor ∈ (tenders.filter (·.method = .cash)).map (·.amountMinor) :=
      List.mem_map_of_mem (List.mem_filter.mpr ⟨ht, decide_eq_true hmethod⟩)
    have hle := List.single_le_sum (fun x hx => zero_le_one.trans (hcash x hx)) _ hmem
    exact lt_of_lt_of_le zero_lt_one ((hcash _ hmem).trans hle)

/-- What the check answers, of the tenders that are there and the country it may read. -/
def Store.coverage (v : Store) (totalMinor : ℤ) : Except ApiError (Option ℤ) :=
  settleRoundOff totalMinor v.tenderTotal (cashMinorOf v.tenders)
    (if 0 < cashMinorOf v.tenders then some v.tenant.country else none)

/-- It is accepted exactly, or with the cash rounded. -/
theorem coverage_ok {v : Store} {totalMinor : ℤ} {roundOff : Option ℤ} :
    v.coverage totalMinor = .ok roundOff ↔
      (v.tenderTotal = totalMinor ∧ roundOff = none) ∨
      (v.tenderTotal ≠ totalMinor ∧ 0 < cashMinorOf v.tenders ∧
        v.tenderTotal = totalMinor +
          cashRoundOffMinor (totalMinor - nonCashMinorOf v.tenders) v.tenant.country ∧
        roundOff =
          some (cashRoundOffMinor (totalMinor - nonCashMinorOf v.tenders) v.tenant.country)) := by
  have hdue : v.tenderTotal - cashMinorOf v.tenders = nonCashMinorOf v.tenders := by
    rw [Store.tenderTotal, tenderTotal_eq]
    ring
  rw [Store.coverage, settleRoundOff, hdue]
  by_cases hexact : v.tenderTotal = totalMinor
  · rw [if_pos hexact]
    simp [hexact, eq_comm]
  · rw [if_neg hexact]
    by_cases hcash : 0 < cashMinorOf v.tenders
    · rw [if_pos hcash]
      have hrule : cashRoundOffIn (some v.tenant.country)
          (totalMinor - nonCashMinorOf v.tenders) =
        cashRoundOffMinor (totalMinor - nonCashMinorOf v.tenders) v.tenant.country := rfl
      dsimp only
      rw [hrule]
      generalize cashRoundOffMinor (totalMinor - nonCashMinorOf v.tenders) v.tenant.country = adj
      split
      · rename_i hzero
        simp [hexact, hzero]
      · split
        · rename_i hsum
          simp [hexact, hsum]
        · rename_i hzero hsum
          have hsum : v.tenderTotal = totalMinor + adj := not_not.mp hsum
          simp [hcash, hsum, hzero, eq_comm]
    · rw [if_neg hcash]
      simp [cashRoundOffIn, hexact, hcash]

theorem assertCovered_run (totalMinor : ℤ) (envs : ℕ → Env) (n : ℕ) (v : Store) :
    (assertCovered totalMinor).run envs n v = (v.coverage totalMinor).map (·, v) := by
  have hanswer : ∀ (x : Except ApiError (Option ℤ)) (m : ℕ),
      (ofExcept x).run envs m v = x.map (·, v) := by
    intro x m
    cases x <;> rfl
  show (if v.tenderTotal = totalMinor then
      (pure none >>= fun country =>
        ofExcept (settleRoundOff totalMinor v.tenderTotal (cashMinorOf v.tenders) country) :
          Tx (Option ℤ))
    else cashCountry (cashMinorOf v.tenders) >>= fun country =>
      ofExcept (settleRoundOff totalMinor v.tenderTotal (cashMinorOf v.tenders) country)).run
        envs (n + 1) v = _
  split
  · rename_i hexact
    rw [Store.coverage, hexact, settleRoundOff_exact]
    exact congrArg (fun x => (ofExcept x).run envs (n + 1) v) (settleRoundOff_exact ..)
  · rw [Store.coverage, cashCountry]
    split
    · exact hanswer _ _
    · exact hanswer _ _

/-- The same cash, and the other tenders in any order. -/
structure Recut (tenders tenders' : List Tender) : Prop where
  cash : cashMinorOf tenders' = cashMinorOf tenders
  others : (tenders'.filter (·.method ≠ .cash)).Perm (tenders.filter (·.method ≠ .cash))

theorem Recut.coverage {v v' : Store} (h : Recut v.tenders v'.tenders)
    (hcountry : v'.tenant.country = v.tenant.country) (totalMinor : ℤ) :
    v'.coverage totalMinor = v.coverage totalMinor := by
  have hothers : nonCashMinorOf v'.tenders = nonCashMinorOf v.tenders :=
    (h.others.map Tender.amountMinor).sum_eq
  have htotal : v'.tenderTotal = v.tenderTotal := by
    rw [Store.tenderTotal, Store.tenderTotal, tenderTotal_eq, tenderTotal_eq, h.cash, hothers]
  rw [Store.coverage, Store.coverage, htotal, h.cash, hcountry]

/-- Cash that was rounded is a whole number of units, and all of it was due. -/
structure Rounded (totalMinor roundOff : ℤ) (v : Store) : Prop where
  whole : v.tenant.country.cashUnit ∣ cashMinorOf v.tenders
  cash_pos : 0 < cashMinorOf v.tenders
  nearest : 2 * |roundOff| ≤ v.tenant.country.cashUnit
  half_up : 2 * |roundOff| = v.tenant.country.cashUnit → 0 < roundOff
  others_lt : nonCashMinorOf v.tenders < totalMinor

theorem rounded_of_coverage {v : Store} {totalMinor roundOff : ℤ}
    (h : v.coverage totalMinor = .ok (some roundOff)) : Rounded totalMinor roundOff v := by
  rcases coverage_ok.mp h with ⟨-, hnone⟩ | ⟨hexact, hcash, hsum, hround⟩
  · cases hnone
  · obtain rfl := Option.some.inj hround
    have hdue : 0 < totalMinor - nonCashMinorOf v.tenders := by
      have hne : cashRoundOffMinor (totalMinor - nonCashMinorOf v.tenders) v.tenant.country ≠ 0 := by
        intro hzero
        refine hexact ?_
        rw [hsum, hzero, add_zero]
      exact due_of_roundOff hne
    have hunit := v.tenant.country.cashUnit_pos
    obtain ⟨hlow, hhigh⟩ :=
      Rounding.halfUp_bounds hunit (totalMinor - nonCashMinorOf v.tenders)
    rw [← cashRoundOffMinor_of_pos hdue] at hlow hhigh
    refine ⟨?_, hcash, ?_, fun htie => ?_, by omega⟩
    · have hcut : cashMinorOf v.tenders = Rounding.halfUp
          (totalMinor - nonCashMinorOf v.tenders) v.tenant.country.cashUnit := by
        have hround := cashRoundOffMinor_of_pos hdue v.tenant.country
        rw [Store.tenderTotal, tenderTotal_eq] at hsum
        omega
      exact hcut ▸ Rounding.dvd_halfUp _ _
    · rcases abs_cases (cashRoundOffMinor (totalMinor - nonCashMinorOf v.tenders)
        v.tenant.country) with ⟨habs, -⟩ | ⟨habs, -⟩ <;> omega
    · rcases abs_cases (cashRoundOffMinor (totalMinor - nonCashMinorOf v.tenders)
        v.tenant.country) with ⟨habs, -⟩ | ⟨habs, -⟩ <;> omega

/-! ### Settling -/

/-- Tenders cover a total exactly or with the cash that was due rounded; the round-off that is
stored is the one that the check answered, and no other way of handing over the same cash changes
that answer. -/
theorem cash_round_off_rule (totalMinor : ℤ) {v : Store}
    (hamounts : ∀ t ∈ v.tenders, 1 ≤ t.amountMinor) (envs : ℕ → Env) (n : ℕ) :
    ((∃ roundOff, (assertCovered totalMinor).run envs n v = .ok (roundOff, v)) ↔
      v.tenderTotal = totalMinor ∨ (∃ t ∈ v.tenders, t.method = .cash) ∧
        v.tenderTotal = totalMinor +
          cashRoundOffMinor (totalMinor - nonCashMinorOf v.tenders) v.tenant.country) ∧
      (∀ roundOff, (assertCovered totalMinor).run envs n v = .ok (some roundOff, v) →
        Rounded totalMinor roundOff v) ∧
      (∀ v', Recut v.tenders v'.tenders → v'.tenant.country = v.tenant.country →
        ((assertCovered totalMinor).run envs n v').map (·.1) =
          ((assertCovered totalMinor).run envs n v).map (·.1)) ∧
      ∀ params bill v', (commitFinalize params).run envs n v = .ok (bill, v') →
        ∃ tax, (assertCovered (params.totalMinor tax)).run envs n v =
          .ok (bill.bill.roundOffMinor, v) := by
  have hrun : ∀ totalMinor roundOff, (assertCovered totalMinor).run envs n v = .ok (roundOff, v) ↔
      v.coverage totalMinor = .ok roundOff := by
    intro totalMinor roundOff
    rw [assertCovered_run]
    cases v.coverage totalMinor <;> simp [Except.map]
  refine ⟨?_, fun roundOff h => rounded_of_coverage ((hrun _ _).mp h), fun v' hcut hcountry => ?_,
    fun params bill v' h => ?_⟩
  · rw [← cashMinorOf_pos hamounts]
    constructor
    · rintro ⟨roundOff, h⟩
      rcases coverage_ok.mp ((hrun _ _).mp h) with ⟨hexact, -⟩ | ⟨-, hcash, hsum, -⟩
      · exact .inl hexact
      · exact .inr ⟨hcash, hsum⟩
    · intro h
      by_cases hexact : v.tenderTotal = totalMinor
      · exact ⟨none, (hrun _ _).mpr (coverage_ok.mpr (.inl ⟨hexact, rfl⟩))⟩
      · obtain ⟨hcash, hsum⟩ := h.resolve_left hexact
        exact ⟨_, (hrun _ _).mpr (coverage_ok.mpr (.inr ⟨hexact, hcash, hsum, rfl⟩))⟩
  · rw [assertCovered_run, assertCovered_run, hcut.coverage hcountry]
    cases v.coverage totalMinor <;> rfl
  · have hcommits : (commitFinalize params).commits (fun bill _ => ∃ tax,
        v.coverage (params.totalMinor tax) = .ok bill.bill.roundOffMinor) v := by
      refine commits_commitFinalize fun v' b' roundOff tax hcheck hsettled => ⟨tax, ?_⟩
      obtain ⟨b, -, -, number, at_, rfl⟩ := hsettled.wasOpen
      exact hcheck.roundOff
    obtain ⟨tax, htax⟩ := Txn.commits_run hcommits h
    exact ⟨tax, (hrun _ _).mpr htax⟩

/-- The sample order, paid in part by card and for the rest in whole rupees. -/
def partlyInCash : Store :=
  { sampleOrder with tenders := [⟨1, .external, 10000, none, false, some "card", none⟩,
      ⟨2, .cash, 14000, none, false, none, none⟩] }

theorem cash_round_off_rule_partlyInCash : Rounded 24046 (-46) partlyInCash :=
  (cash_round_off_rule 24046 (v := partlyInCash) (by decide) (fun n => ⟨n, n⟩) 0).2.1 (-46) rfl

end RestiqBackend
