import RestiqBackend.Ledger

/-!
Requests keep the books.

Every request, handled on its own, takes the ledger of the store through a page of
moves and nothing else. The first part says what the shared programs of the money
path do, each once; the second reads every request's page off them.
-/

namespace RestiqBackend

open ReadCommitted

/-- The tax columns the tenant's bills are computed with. -/
def Store.profile (v : Store) : TenantTaxProfile := taxProfileOf v.tenant.country v.taxRegistration

def Store.ledger (v : Store) : Ledger where
  subtotal := v.subtotal
  profile := v.profile
  simulator := v.simulatorOn
  bill := v.bill
  tenders := v.tenders
  intents := v.intents
  shares := v.shares

/-- Prices are not negative, and lines are told apart by their key. -/
structure Store.Priced (v : Store) : Prop where
  prices : ∀ l ∈ v.lines, 0 ≤ l.unitPriceMinor ∧ ∀ m ∈ l.modifiers, 0 ≤ m.priceMinor
  ids : (v.lines.map (·.id)).Nodup

/-- The request took the books from `v` to `v'` by entries that `P` allows. -/
def Posts (P : Entry → Prop) (v v' : Store) : Prop :=
  v'.Priced ∧ ∃ es, v.ledger.Moves es v'.ledger ∧ ∀ e ∈ es, P e

theorem Posts.refl {P : Entry → Prop} {v : Store} (h : v.Priced) : Posts P v v :=
  ⟨h, [], .nil _, by simp⟩

theorem Posts.trans {P : Entry → Prop} {v v' v'' : Store} (h : Posts P v v')
    (h' : Posts P v' v'') : Posts P v v'' := by
  obtain ⟨_, es, hes, hP⟩ := h
  obtain ⟨hpriced, es', hes', hP'⟩ := h'
  refine ⟨hpriced, es ++ es', hes.append hes', fun e he => ?_⟩
  rcases List.mem_append.mp he with he | he
  · exact hP e he
  · exact hP' e he

theorem Posts.mono {P P' : Entry → Prop} {v v' : Store} (h : Posts P v v')
    (hP : ∀ e, P e → P' e) : Posts P' v v' := by
  obtain ⟨hpriced, es, hes, h⟩ := h
  exact ⟨hpriced, es, hes, fun e he => hP e (h e he)⟩

theorem Posts.wf {P : Entry → Prop} {v v' : Store} (h : Posts P v v') (hwf : v.ledger.Wf) :
    v'.ledger.Wf := by
  obtain ⟨_, es, hes, _⟩ := h
  exact hes.wf hwf

/-- One move, with the lines as they were. -/
theorem Posts.of_move {P : Entry → Prop} {v v' : Store} {e : Entry} (hpriced : v.Priced)
    (hlines : v'.lines = v.lines) (h : v.ledger.Move e v'.ledger) (he : P e) : Posts P v v' := by
  refine ⟨⟨by simpa [hlines] using hpriced.prices, by simpa [hlines] using hpriced.ids⟩, [e],
    h.page, by simpa using he⟩

/-- The tables the books are not kept in. -/
def quietTables : List Table :=
  [.billNumberCounters, .creditNotes, .tickets, .orders, .tableSessions, .printJobs, .auditEvents]

/-- The tables that say what the bill comes to and whether payments are simulated. -/
def settingTables : List Table := [.orderLines, .tenants, .taxRegistrations, .environment]

/-- Where no setting is touched, only the rows of the books can differ. -/
theorem Frame.ledger_rows {ts : List Table} {v v' : Store} (h : Frame ts v v')
    (hts : ∀ t ∈ settingTables, t ∉ ts) :
    v'.ledger = { v.ledger with bill := v'.bill, tenders := v'.tenders, intents := v'.intents,
                                shares := v'.shares } ∧ v'.lines = v.lines := by
  have hlines := h .orderLines (hts _ (by decide))
  have htenant := h .tenants (hts _ (by decide))
  have htax := h .taxRegistrations (hts _ (by decide))
  have henv := h .environment (hts _ (by decide))
  simp only [Table.same] at hlines htenant htax henv
  refine ⟨?_, hlines⟩
  simp [Store.ledger, Store.subtotal, Store.liveLines, Store.profile, Store.simulatorOn,
    Store.testMode, hlines, htenant, htax, henv]

/-- What only touches quiet tables leaves the books alone. -/
theorem Frame.ledger {ts : List Table} {v v' : Store} (h : Frame ts v v')
    (hts : ∀ t ∈ ts, t ∈ quietTables) : v'.ledger = v.ledger ∧ v'.lines = v.lines := by
  have hsame : ∀ t, t ∉ quietTables → t.same v v' := fun t ht => h t fun hmem => ht (hts t hmem)
  have hbill : v'.bill = v.bill := hsame .bills (by decide)
  have htenders : v'.tenders = v.tenders := hsame .tenders (by decide)
  have hintents : v'.intents = v.intents := hsame .paymentIntents (by decide)
  have hshares : v'.shares = v.shares := hsame .billShares (by decide)
  have hquiet : ∀ t ∈ settingTables, t ∉ quietTables := by decide
  obtain ⟨hledger, hlines⟩ := h.ledger_rows fun t ht hmem => hquiet t ht (hts t hmem)
  rw [hbill, htenders, hintents, hshares] at hledger
  exact ⟨hledger, hlines⟩

theorem Posts.of_frame {P : Entry → Prop} {ts : List Table} {v v' : Store} (hpriced : v.Priced)
    (h : Frame ts v v') (hts : ∀ t ∈ ts, t ∈ quietTables) : Posts P v v' := by
  obtain ⟨hledger, hlines⟩ := h.ledger hts
  refine ⟨⟨by simpa [hlines] using hpriced.prices, by simpa [hlines] using hpriced.ids⟩, [], ?_,
    by simp⟩
  rw [hledger]
  exact .nil _

/-- A program that writes quiet tables only, as a request's last or only part. -/
theorem emits_posts {α : Type} {P : Entry → Prop} {ts : List Table} {p : Tx α}
    (h : p.Emits (Touching ts)) (hts : ∀ t ∈ ts, t ∈ quietTables) {v : Store} (hpriced : v.Priced) :
    p.commits (fun _ v' => Posts P v v') v :=
  Txn.wlp_mono (emits_wlp_frame h (.all (fun _ => trivial) p) v) fun _ _ hframe =>
    .of_frame hpriced hframe hts

theorem OrderLine.unitMinor_nonneg {l : OrderLine}
    (h : 0 ≤ l.unitPriceMinor ∧ ∀ m ∈ l.modifiers, 0 ≤ m.priceMinor) : 0 ≤ l.unitMinor := by
  refine add_nonneg h.1 (List.sum_nonneg fun x hx => ?_)
  obtain ⟨m, hm, rfl⟩ := List.mem_map.mp hx
  exact h.2 m hm

theorem OrderLine.totalMinor_nonneg {l : OrderLine}
    (h : 0 ≤ l.unitPriceMinor ∧ ∀ m ∈ l.modifiers, 0 ≤ m.priceMinor) : 0 ≤ l.totalMinor :=
  mul_nonneg (Int.natCast_nonneg _) (unitMinor_nonneg h)

theorem Store.Priced.subtotal_nonneg {v : Store} (h : v.Priced) : 0 ≤ v.subtotal := by
  refine List.sum_nonneg fun x hx => ?_
  obtain ⟨l, hl, rfl⟩ := List.mem_map.mp hx
  exact OrderLine.totalMinor_nonneg (h.prices l (List.mem_of_mem_filter hl))

/-! ### Refreshing -/

/-- The store with its bill, if it is open, brought in step with the lines. -/
def Store.refreshed (v : Store) : Store :=
  { v with bill := v.bill.map (·.refreshed v.subtotal v.profile) }

section Refreshing

variable {E : ApiError → Prop} {V : Env → Store → Prop} {v : Store}

@[simp] theorem Store.refreshed_lines (v : Store) : v.refreshed.lines = v.lines := rfl

@[simp] theorem Store.refreshed_tenders (v : Store) : v.refreshed.tenders = v.tenders := rfl

@[simp] theorem Store.refreshed_intents (v : Store) : v.refreshed.intents = v.intents := rfl

@[simp] theorem Store.refreshed_shares (v : Store) : v.refreshed.shares = v.shares := rfl

theorem Store.refreshed_bill {b : Bill} (hb : v.bill = some b) :
    v.refreshed.bill = some (b.refreshed v.subtotal v.profile) := by
  simp [Store.refreshed, hb]

theorem Store.refreshed_frame (v : Store) : Frame [.bills] v v.refreshed := by
  intro t ht
  cases t <;> first | rfl | exact ⟨rfl, rfl⟩ | exact ⟨rfl, rfl, rfl⟩ | simp at ht

/-- A finalized bill is not refreshed. -/
theorem Store.refreshed_eq_self {b : Bill} (hb : v.bill = some b) (h : b.status = .finalized) :
    v.refreshed = v := by
  have hself : { v with bill := some b } = v := by rw [← hb]
  simp [Store.refreshed, hb, Bill.refreshed, h, hself]

/-- The row already says what the lines and the tax do. -/
def Bill.InTune (b : Bill) (subtotal : ℤ) (profile : TenantTaxProfile) : Prop :=
  subtotal = b.subtotalMinor ∧ (profile.taxOn subtotal).taxMinor = b.taxMinor ∧
    (profile.taxOn subtotal).gstSplitRounding =
      (readStoredTaxBreakdown b.taxBreakdown).gstSplitRounding

theorem Bill.refreshed_eq_self {b : Bill} {subtotal : ℤ} {profile : TenantTaxProfile}
    (h : b.status ≠ .open ∨ b.InTune subtotal profile) : b.refreshed subtotal profile = b :=
  if_pos h

theorem Bill.refreshed_eq_withTotals {b : Bill} {subtotal : ℤ} {profile : TenantTaxProfile}
    (hopen : b.status = .open) (h : ¬ b.InTune subtotal profile) :
    b.refreshed subtotal profile = b.withTotals subtotal (profile.taxOn subtotal).taxMinor
      (toStoredTaxBreakdown (profile.taxOn subtotal)) (profile.taxOn subtotal).pricesIncludeTax :=
  if_neg (not_or.mpr ⟨not_not.mpr hopen, h⟩)

/-- Refreshing twice is refreshing once. -/
theorem Bill.refreshed_refreshed (b : Bill) (subtotal : ℤ) (profile : TenantTaxProfile) :
    (b.refreshed subtotal profile).refreshed subtotal profile = b.refreshed subtotal profile := by
  by_cases h : b.status ≠ .open ∨ b.InTune subtotal profile
  · rw [Bill.refreshed_eq_self h, Bill.refreshed_eq_self h]
  · obtain ⟨hopen, htune⟩ := not_or.mp h
    rw [Bill.refreshed_eq_withTotals (not_not.mp hopen) htune]
    exact Bill.refreshed_eq_self (Or.inr ⟨rfl, rfl, rfl⟩)

@[simp] theorem Bill.refreshed_status (b : Bill) (subtotal : ℤ) (profile : TenantTaxProfile) :
    (b.refreshed subtotal profile).status = b.status := by
  unfold Bill.refreshed
  dsimp only
  split <;> rfl

@[simp] theorem Bill.refreshed_discountMinor (b : Bill) (subtotal : ℤ)
    (profile : TenantTaxProfile) :
    (b.refreshed subtotal profile).discountMinor = b.discountMinor := by
  unfold Bill.refreshed
  dsimp only
  split <;> rfl

/-- A finalized bill is returned as it is. -/
theorem Bill.refreshed_of_finalized {b : Bill} (h : b.status = .finalized) (subtotal : ℤ)
    (profile : TenantTaxProfile) : b.refreshed subtotal profile = b := by
  simp [Bill.refreshed, h]

theorem wlp_loadBill {Q : BillWithTenders → Store → Prop} {b : Bill} (hb : v.bill = some b)
    (hQ : Q ⟨b, v.tenders⟩ v) : loadBill.wlp E V Q v := by
  simpa [loadBill, Store.loadedBill, hb] using fun _ _ => hQ

theorem wlp_computeTaxOn {Q : TaxResult → Store → Prop} {taxable : ℤ}
    (hQ : Q (v.profile.taxOn taxable) v) : (computeTaxOn taxable).wlp E V Q v := by
  simp only [computeTaxOn, loadTenantTaxProfile, Txn.wlp_bind, Txn.wlp_query, Txn.wlp_pure]
  exact fun _ _ _ _ => hQ

theorem wlp_computeBillTotals {Q : ℤ × TaxResult → Store → Prop}
    (hQ : Q (v.subtotal, v.profile.taxOn v.subtotal) v) : computeBillTotals.wlp E V Q v := by
  simp only [computeBillTotals, computeSubtotal, Txn.wlp_bind, Txn.wlp_stmt, Txn.wlp_done,
    applyAll_nil]
  exact fun _ _ => wlp_computeTaxOn hQ

/-- What `refreshOpenBillTotals` does to the rows, and returns of them. -/
theorem wlp_refresh {Q : BillWithTenders → Store → Prop} {b : Bill} (hb : v.bill = some b)
    (hQ : Q ⟨b.refreshed v.subtotal v.profile, v.tenders⟩ v.refreshed) :
    (refreshOpenBillTotals ⟨b, v.tenders⟩).wlp E V Q v := by
  have hself : { v with bill := some b } = v := by rw [← hb]
  unfold refreshOpenBillTotals
  split
  · rename_i hstatus
    rw [Store.refreshed, hb, Option.map_some, Bill.refreshed_eq_self (Or.inl hstatus), hself] at hQ
    exact hQ
  · rename_i hstatus
    rw [Txn.wlp_bind]
    refine wlp_computeBillTotals ?_
    dsimp only
    split
    · rename_i htune
      rw [Store.refreshed, hb, Option.map_some, Bill.refreshed_eq_self (Or.inr htune), hself] at hQ
      exact hQ
    · rename_i htune
      rw [Store.refreshed, hb, Option.map_some,
        Bill.refreshed_eq_withTotals (not_not.mp hstatus) htune] at hQ
      simpa [updateBillTotals, Store.loadedBill, Store.apply, hb] using fun _ _ => hQ

/-- Loading the bill and refreshing it, as most requests begin. -/
theorem commits_loadBill_refresh {Q : BillWithTenders → Store → Prop}
    (hQ : ∀ b, v.bill = some b → Q ⟨b.refreshed v.subtotal v.profile, v.tenders⟩ v.refreshed) :
    loadBill.commits (fun loaded => (refreshOpenBillTotals loaded).commits Q) v := by
  cases hb : v.bill with
  | none => simp [loadBill, Store.loadedBill, hb]
  | some b => exact wlp_loadBill hb (wlp_refresh hb (hQ b hb))

theorem refreshed_posts {P : Entry → Prop} (hplain : P .plain) (h : v.Priced) {b : Bill}
    (hb : v.bill = some b) : Posts P v v.refreshed := by
  have hledger : v.refreshed.ledger =
      { v.ledger with bill := some (b.refreshed v.subtotal v.profile) } := by
    rw [← Store.refreshed_bill hb]
    rfl
  refine .of_move h rfl (e := .plain) ?_ hplain
  rw [hledger]
  exact .refresh v.ledger b hb

end Refreshing

/-! ### Settling -/

section Settling

variable {v : Store} {params : CommitFinalizeParams}

/-- What `checkSettlement` has made sure of when it answers. -/
structure Settleable (v : Store) (params : CommitFinalizeParams) (roundOffMinor : Option ℤ)
    (tax : Option TaxResult) : Prop where
  notFinalized : params.bill.bill.status ≠ .finalized
  unsimulated : v.simulatorOn = false → v.simulatedTenders = []
  discount_le : params.discountMinor.getD 0 ≤ params.bill.bill.subtotalMinor
  tax_eq : tax = if 0 < params.discountMinor.getD 0 then
      some (v.profile.taxOn (params.bill.bill.subtotalMinor - params.discountMinor.getD 0))
    else none
  roundOff : settleRoundOff (params.totalMinor tax) v.tenderTotal (cashMinorOf v.tenders)
    (if 0 < cashMinorOf v.tenders then some v.tenant.country else none) = .ok roundOffMinor

/-- The row that a settlement writes is as sound as the one it was handed. -/
theorem Settleable.sound {roundOff : Option ℤ} {tax : Option TaxResult}
    (h : Settleable v params roundOff tax) (hdiscount : 0 ≤ params.discountMinor.getD 0)
    (number : ℕ) (at_ : ℤ) (hsound : params.bill.bill.Sound) :
    (params.bill.bill.finalize number params.discountMinor params.discountReason roundOff
      (tax.map fun t => (t.taxMinor, toStoredTaxBreakdown t)) params.finalizedByStaffId at_).Sound := by
  have hle := h.discount_le
  by_cases hpos : 0 < params.discountMinor.getD 0
  · have htax := h.tax_eq
    rw [if_pos hpos] at htax
    refine ⟨hdiscount, hle, ?_, fun hzero => ?_⟩
    · rw [htax]
      exact v.profile.taxOn_nonneg (sub_nonneg.mpr hle)
    · have hzero : params.bill.bill.subtotalMinor = 0 := hzero
      omega
  · have htax := h.tax_eq
    rw [if_neg hpos] at htax
    rw [htax]
    exact ⟨hdiscount, hle, hsound.tax_nonneg, hsound.untaxed⟩

/-- Accepted tenders cover the total with its round-off. -/
theorem settleRoundOff_covered {totalMinor tenderTotal cashMinor : ℤ}
    {country : Option TaxCountry} {roundOff : Option ℤ}
    (h : settleRoundOff totalMinor tenderTotal cashMinor country = .ok roundOff) :
    tenderTotal = totalMinor + roundOff.getD 0 := by
  unfold settleRoundOff at h
  split at h
  · rename_i heq
    cases h
    simpa using heq
  · dsimp only at h
    split at h
    · cases h
    · split at h
      · cases h
      · rename_i hcover
        cases h
        simpa using hcover

theorem settleRoundOff_exact (totalMinor cashMinor : ℤ) (country : Option TaxCountry) :
    settleRoundOff totalMinor totalMinor cashMinor country = .ok none :=
  if_pos rfl

theorem commits_assertNothingPending {Q : Unit → Store → Prop} (hQ : Q () v) :
    assertNothingPending.commits Q v := by
  simp only [assertNothingPending, countPendingIntents, Txn.commits, Txn.wlp_bind, Txn.wlp_clock,
    Txn.wlp_stmt, Txn.wlp_done, applyAll_nil, wlp_raiseIf]
  intro _ _ _ _
  split
  · trivial
  · exact hQ

theorem commits_assertNotSimulated {Q : Unit → Store → Prop}
    (hQ : (v.simulatorOn = false → v.simulatedTenders = []) → Q () v) :
    assertNotSimulated.commits Q v := by
  simp only [assertNotSimulated, paymentsSimulatorFor, Txn.commits, Txn.wlp_bind, Txn.wlp_query]
  intro _ _
  split
  · rename_i hon
    exact hQ fun hoff => absurd hon (by simp [hoff])
  · simp only [Txn.wlp_bind, Txn.wlp_query, wlp_raiseIf]
    intro _ _
    split
    · trivial
    · rename_i hnone
      exact hQ fun _ => List.eq_nil_of_length_eq_zero (by omega)

theorem commits_discountedTax {subtotal discount : ℤ} {Q : Option TaxResult → Store → Prop}
    (hQ : Q (if 0 < discount then some (v.profile.taxOn (subtotal - discount)) else none) v) :
    (discountedTax subtotal discount).commits Q v := by
  unfold discountedTax
  split
  · rename_i hpos
    rw [if_pos hpos] at hQ
    rw [Txn.commits, Txn.wlp_bind]
    exact wlp_computeTaxOn hQ
  · rename_i hpos
    rwa [if_neg hpos] at hQ

theorem commits_assertCovered {totalMinor : ℤ} {Q : Option ℤ → Store → Prop}
    (hQ : ∀ roundOff, settleRoundOff totalMinor v.tenderTotal (cashMinorOf v.tenders)
      (if 0 < cashMinorOf v.tenders then some v.tenant.country else none) = .ok roundOff →
        Q roundOff v) : (assertCovered totalMinor).commits Q v := by
  have hlast : ∀ country, (v.tenderTotal = totalMinor ∨
      country = if 0 < cashMinorOf v.tenders then some v.tenant.country else none) →
        (ofExcept (settleRoundOff totalMinor v.tenderTotal (cashMinorOf v.tenders) country)).commits
          Q v := by
    intro country hcountry
    cases hround : settleRoundOff totalMinor v.tenderTotal (cashMinorOf v.tenders) country with
    | error e => trivial
    | ok roundOff =>
        refine hQ roundOff ?_
        rcases hcountry with heq | rfl
        · rw [heq, settleRoundOff_exact] at hround ⊢
          exact hround
        · exact hround
  simp only [assertCovered, cashCountry, Txn.commits, Txn.wlp_bind, Txn.wlp_query]
  intro _ _
  split
  · rename_i heq
    exact hlast none (Or.inl heq)
  · split
    · rename_i hcash
      exact fun _ _ => hlast _ (Or.inr (if_pos hcash).symm)
    · rename_i hcash
      exact hlast none (Or.inr (if_neg hcash).symm)

theorem commits_checkSettlement {Q : Option ℤ × Option TaxResult → Store → Prop}
    (hQ : ∀ roundOff tax, Settleable v params roundOff tax → Q (roundOff, tax) v) :
    (checkSettlement params).commits Q v := by
  simp only [checkSettlement, Txn.commits, Txn.wlp_bind, wlp_raiseIf]
  split
  · trivial
  · rename_i hstatus
    refine commits_assertNothingPending (commits_assertNotSimulated fun hsim => ?_)
    split
    · trivial
    · rename_i hdiscount
      refine commits_discountedTax (commits_assertCovered fun roundOff hround => ?_)
      exact hQ _ _ ⟨hstatus, hsim, not_lt.mp hdiscount, rfl, hround⟩

/-- What `writeSettlement` has done to the rows when it answers. -/
structure Settled (v v' : Store) (params : CommitFinalizeParams) (roundOffMinor : Option ℤ)
    (tax : Option TaxResult) (b' : Bill) : Prop where
  wasOpen : ∃ b, v.bill = some b ∧ b.status = .open ∧ ∃ number at_,
    b' = b.finalize number params.discountMinor params.discountReason roundOffMinor
      (tax.map fun t => (t.taxMinor, toStoredTaxBreakdown t)) params.finalizedByStaffId at_
  bill : v'.bill = some b'
  frame : Frame [.bills, .billNumberCounters, .tickets, .orders, .tenants, .auditEvents] v v'
  country : v'.tenant.country = v.tenant.country
  liveSince : v'.tenant.liveSince = v.tenant.liveSince
  closed : v'.order.status = .closed

theorem commits_goLiveOnFirstSale {Q : Unit → Store → Prop}
    (hQ : ∀ v', Frame [.tenants, .auditEvents] v v' → v'.tenant.country = v.tenant.country →
      v'.tenant.liveSince = v.tenant.liveSince → Q () v') : goLiveOnFirstSale.commits Q v := by
  simp only [goLiveOnFirstSale, Txn.commits, Txn.wlp_bind, Txn.wlp_writeWhen, applyAll_cons,
    applyAll_nil, writeTo_apply]
  intro _ _
  split
  · simp only [Txn.wlp_exec, applyAll_cons, applyAll_nil, writeTo_apply]
    intro _ _
    refine hQ _ ?_ rfl rfl
    exact (frame_apply (by simp [Write.table]) v).trans (frame_apply (by simp [Write.table]) _)
  · exact hQ v (.refl _ v) rfl rfl

theorem commits_writeSettlement {roundOff : Option ℤ} {tax : Option TaxResult}
    {Q : BillWithTenders → Store → Prop}
    (hQ : ∀ v' b', Settled v v' params roundOff tax b' → Q ⟨b', v.tenders⟩ v') :
    (writeSettlement params roundOff tax).commits Q v := by
  simp only [writeSettlement, upsertBillNumberCounter, Txn.commits, Txn.wlp_bind, Txn.wlp_stmt,
    Txn.wlp_done, Txn.wlp_clock, Txn.wlp_writeWhen, wlp_raiseIf, applyAll_cons, applyAll_nil,
    writeTo_apply]
  intro _ _ env _ _ _
  split
  · rename_i hopen
    simp only [Bool.true_eq_false, if_false]
    obtain ⟨b, hb, hstatus⟩ : ∃ b, v.bill = some b ∧ b.status = .open := by
      cases hb : v.bill with
      | none => simp [Store.billIs, Store.apply, hb] at hopen
      | some b => exact ⟨b, rfl, by simpa [Store.billIs, Store.apply, hb] using hopen⟩
    refine Txn.wlp_mono (emits_wlp_frame (fireOnSend_emits _) (.all (fun _ => trivial) _) _) ?_
    intro _ v₁ hfire
    simp only [Txn.wlp_exec, applyAll_cons, applyAll_nil, writeTo_apply]
    intro _ _
    refine commits_goLiveOnFirstSale fun v₂ hlive hcountry hsince => ?_
    have htenant : v₁.tenant = v.tenant := hfire .tenants (by decide)
    have hbill : v₂.bill = some (b.finalize (v.billNumberCounter.getD 0 + 1) params.discountMinor
        params.discountReason roundOff (tax.map fun t => (t.taxMinor, toStoredTaxBreakdown t))
        params.finalizedByStaffId env.now) := by
      have h₁ : v₁.bill = _ := hfire .bills (by decide)
      have h₂ : v₂.bill = _ := hlive .bills (by decide)
      rw [h₂, Store.apply, h₁]
      simp only [Store.apply, hb, Option.map_some]
    have hframe : Frame [.bills, .billNumberCounters, .tickets, .orders, .tenants, .auditEvents]
        v v₂ := by
      exact (frame_apply (by simp [Write.table]) v).trans
        ((frame_apply (by simp [Write.table]) _).trans ((hfire.mono (by simp)).trans
          ((frame_apply (by simp [Write.table]) v₁).trans (hlive.mono (by simp)))))
    refine wlp_loadBill hbill ?_
    rw [show v₂.tenders = v.tenders from hframe .tenders (by decide)]
    refine hQ v₂ _ ⟨⟨b, hb, hstatus, _, _, rfl⟩, hbill, hframe, ?_, ?_, ?_⟩
    · rw [hcountry, ← htenant]
      rfl
    · rw [hsince, ← htenant]
      rfl
    · rw [show v₂.order = _ from hlive .orders (by decide)]
      rfl
  · trivial

theorem commits_commitFinalize {Q : BillWithTenders → Store → Prop}
    (hQ : ∀ v' b' roundOff tax, Settleable v params roundOff tax →
      Settled v v' params roundOff tax b' → Q ⟨b', v.tenders⟩ v') :
    (commitFinalize params).commits Q v := by
  simp only [commitFinalize, Txn.commits, Txn.wlp_bind]
  exact commits_checkSettlement fun roundOff tax hcheck =>
    commits_writeSettlement fun v' b' hsettled => hQ v' b' roundOff tax hcheck hsettled

variable {v' : Store} {roundOff : Option ℤ} {tax : Option TaxResult} {b b' : Bill}

/-- A settlement changes the bill row of the ledger and nothing else of it. -/
theorem Settled.ledger (h : Settled v v' params roundOff tax b') :
    v'.ledger = { v.ledger with bill := some b' } ∧ v'.lines = v.lines := by
  have hlines : v'.lines = v.lines := h.frame .orderLines (by decide)
  have htenders : v'.tenders = v.tenders := h.frame .tenders (by decide)
  have hintents : v'.intents = v.intents := h.frame .paymentIntents (by decide)
  have hshares : v'.shares = v.shares := h.frame .billShares (by decide)
  have htax : v'.taxRegistration = v.taxRegistration := h.frame .taxRegistrations (by decide)
  have henv := h.frame .environment (by decide)
  refine ⟨?_, hlines⟩
  simp [Store.ledger, Store.subtotal, Store.liveLines, Store.profile, Store.simulatorOn,
    Store.testMode, h.bill, htenders, hintents, hshares, hlines, h.country, h.liveSince, htax,
    henv.1]

theorem Settled.bill_eq (h : Settled v v' params roundOff tax b') (hb : v.bill = some b) :
    b.status = .open ∧ ∃ number at_,
      b' = b.finalize number params.discountMinor params.discountReason roundOff
        (tax.map fun t => (t.taxMinor, toStoredTaxBreakdown t)) params.finalizedByStaffId at_ := by
  obtain ⟨b₀, hb₀, hopen, hrow⟩ := h.wasOpen
  rw [hb, Option.some.injEq] at hb₀
  subst hb₀
  exact ⟨hopen, hrow⟩

/-- What is settled is covered: the check was made on the row that is written. -/
theorem Settled.settles (h : Settled v v' params roundOff tax b')
    (hcheck : Settleable v params roundOff tax) (hb : v.bill = some params.bill.bill)
    (hdiscount : 0 ≤ params.discountMinor.getD 0) :
    Settles params.bill.bill b' v.tenders := by
  obtain ⟨hopen, number, at_, rfl⟩ := h.bill_eq hb
  refine ⟨hopen, rfl, rfl, rfl, hcheck.sound hdiscount number at_, ?_⟩
  have hcovered := settleRoundOff_covered hcheck.roundOff
  simp only [Bill.totalMinor, Bill.finalize, Option.map_map]
  exact hcovered

end Settling

/-! ### Tenders -/

section Tenders

variable {v : Store} {params : TenderParams}

theorem commits_createTender {Q : Tender → Store → Prop}
    (hQ : ∀ id, v.tenderTaken (params.row id) = false → (params.row id).checks = true →
      Q (params.row id) (v.apply (.createTender (params.row id)))) :
    (createTenderRecord params).commits Q v := by
  simp only [createTenderRecord, Txn.commits, Txn.wlp_bind, Txn.wlp_uuid]
  intro env _
  split
  · rename_i hchecks
    simp only [Txn.wlp_bind, wlp_insertRow, Txn.wlp_pure]
    intro _ _
    split
    · trivial
    · rename_i htaken
      exact hQ env.uuid (by simpa using htaken) hchecks
  · trivial

end Tenders

/-! ### Payment intents -/

section Intents

variable {v : Store}

theorem Store.intentRow_some {id : ℕ} {row : IntentRow} (h : v.intentRow id = some row) :
    row.intent ∈ v.intents ∧ row.intent.id = id ∧
      (row.tender.isSome ↔ ∃ t ∈ v.tenders, t.paymentIntentId = some id) := by
  simp only [Store.intentRow, Option.map_eq_some_iff] at h
  obtain ⟨i, hi, rfl⟩ := h
  refine ⟨List.mem_of_find?_eq_some hi, by simpa using List.find?_some hi, ?_⟩
  simp [Option.isSome_map, List.find?_isSome]

theorem commits_findIntent {id : ℕ} {Q : IntentRow → Store → Prop}
    (hQ : ∀ row, v.intentRow id = some row → Q row v) : (findIntent id).commits Q v := by
  simp only [findIntent, Txn.commits, Txn.wlp_bind, Txn.wlp_query]
  intro _ _
  cases hrow : v.intentRow id with
  | none => trivial
  | some row => exact hQ row hrow

theorem commits_loadIntent {id : ℕ} {Q : IntentRow → Store → Prop}
    (hQ : ∀ row, v.intentRow id = some row → Q row v) : (loadIntent id).commits Q v := by
  simp only [loadIntent, Txn.commits, Txn.wlp_bind, Txn.wlp_query]
  intro _ _
  cases hrow : v.intentRow id with
  | none => trivial
  | some row => exact hQ row hrow

/-- Whether a guarded update of an intent goes through. -/
def Store.intentIs (v : Store) (id : ℕ) (guard : PaymentIntentStatus → Bool) : Bool :=
  v.intents.any fun i => i.id = id && guard i.status

theorem commits_updateIntentWhere {id : ℕ} {guard : PaymentIntentStatus → Bool}
    {status : PaymentIntentStatus} {reason : Option String} {at_ : Option ℤ}
    {Q : Bool → Store → Prop}
    (htrue : v.intentIs id guard = true → Q true (v.apply (.updateIntent id status reason at_)))
    (hfalse : v.intentIs id guard = false → Q false v) :
    (updateIntentWhere id guard status reason at_).commits Q v :=
  Txn.commits_writeWhen htrue hfalse

/-- Closing an active intent is one entry. -/
theorem close_posts {P : Entry → Prop} (hplain : P .plain) (hpriced : v.Priced) {id : ℕ}
    {status : PaymentIntentStatus} {reason : Option String}
    (h : status = .failed ∨ status = .expired ∨ status = .cancelled)
    (hactive : v.intentIs id (·.isActive) = true) :
    Posts P v (v.apply (.updateIntent id status reason none)) := by
  simp only [Store.intentIs, List.any_eq_true, Bool.and_eq_true, decide_eq_true_eq] at hactive
  obtain ⟨i, hi, hid, hact⟩ := hactive
  exact .of_move hpriced rfl (.close v.ledger id status reason h i hi hid hact) hplain

/-- Expiring what is due leaves the books in order, whatever row it was asked about. -/
theorem commits_expireIfDue {P : Entry → Prop} (hplain : P .plain) (hpriced : v.Priced)
    {row : IntentRow} {Q : IntentRow → Store → Prop}
    (hQ : ∀ row' v', Posts P v v' → Frame [.paymentIntents] v v' →
      (v' = v ∧ row' = row ∨ v'.intentRow row.intent.id = some row') → Q row' v') :
    (expireIfDue row).commits Q v := by
  simp only [expireIfDue, Txn.commits, Txn.wlp_bind, Txn.wlp_clock]
  intro env _
  split
  · exact hQ row v (.refl hpriced) (.refl _ v) (Or.inl ⟨rfl, rfl⟩)
  · rw [Txn.wlp_bind]
    refine commits_updateIntentWhere (fun hactive => ?_) fun _ => ?_
    · refine commits_findIntent fun row' hrow' => hQ row' _ ?_ ?_ (Or.inr hrow')
      · exact close_posts hplain hpriced (Or.inr (Or.inl rfl)) hactive
      · exact frame_apply (by simp [Write.table]) v
    · exact commits_findIntent fun row' hrow' =>
        hQ row' v (.refl hpriced) (.refl _ v) (Or.inr hrow')

/-- What a confirmation can have done: nothing, a capture flagged on a settled bill,
or a capture with its tender on an open one. -/
inductive Confirmed (v : Store) (id : ℕ) : Store → Prop
  | same : Confirmed v id v
  | flagged (b : Bill) (hb : v.bill = some b) (hfin : b.status = .finalized) (at_ : ℤ)
      (reason : String) (event : AuditEvent) :
      Confirmed v id (((v.apply (.updateIntent id .succeeded none (some at_))).apply
        (.flagIntent id reason)).apply (.createAuditEvent event))
  | captured (b : Bill) (hb : v.bill = some b) (hopen : b.status = .open) (i : PaymentIntent)
      (hi : i ∈ v.intents) (hid : i.id = id) (hcap : i.status.capturable) (t : Tender) (at_ : ℤ)
      (ht : t.paymentIntentId = some id) (hamount : t.amountMinor = i.amountMinor) :
      Confirmed v id ((v.apply (.updateIntent id .succeeded none (some at_))).apply
        (.createTender t))

theorem commits_confirmIntent (hwf : v.ledger.Wf) {id : ℕ} {Q : IntentRow → Store → Prop}
    (hQ : ∀ row' v', Confirmed v id v' → v'.intentRow id = some row' → Q row' v') :
    (confirmIntent id).commits Q v := by
  simp only [confirmIntent, lockBill, paymentsSimulatorFor, Txn.commits, Txn.wlp_bind,
    Txn.wlp_exec, Txn.wlp_query, Txn.wlp_clock, applyAll_nil]
  refine commits_findIntent fun target htarget => ?_
  intro _ _ _ _
  refine commits_raiseIf fun _ => ?_
  intro env _
  refine commits_updateIntentWhere (fun hflip => ?_) fun _ => ?_
  · refine commits_findIntent fun row hrow => ?_
    simp only [Store.intentIs, List.any_eq_true, Bool.and_eq_true, decide_eq_true_eq] at hflip
    obtain ⟨i, hi, hid, hcap⟩ := hflip
    obtain ⟨hmem, hrowid, htender⟩ := Store.intentRow_some hrow
    have hsame : ∀ j ∈ v.intents, j.id = id → j = i := fun j hj hjid =>
      eq_of_key_eq hwf.intent_ids hj hi (hjid.trans hid.symm)
    -- A capturable intent has no tender yet.
    have hnone : row.tender.isSome = false := by
      by_contra hsome
      obtain ⟨t, ht, htid⟩ := htender.mp (Bool.eq_true_of_not_eq_false hsome)
      obtain ⟨j, hj, hjid, hsucc⟩ := hwf.captured t ht id htid
      rw [hsame j hj hjid] at hsucc
      simp [hsucc, PaymentIntentStatus.capturable] at hcap
    have hamount : row.intent.amountMinor = i.amountMinor := by
      rcases mem_updateRows.mp hmem with ⟨_, hne⟩ | ⟨j, hj, hjid, hupd⟩
      · exact absurd hrowid hne
      · rw [← hupd, hsame j hj hjid]
        rfl
    rw [if_neg (by simp [hnone]), Txn.wlp_bind]
    cases hb : v.bill with
    | none => simp [loadBill, Store.loadedBill, Store.apply, hb]
    | some b =>
        refine wlp_loadBill (b := b) hb ?_
        by_cases hfin : b.status = .finalized
        · rw [if_pos hfin]
          simp only [Txn.wlp_bind, Txn.wlp_exec, applyAll_cons, applyAll_nil, writeTo_apply]
          exact fun _ _ _ _ => commits_findIntent fun row' hrow' =>
            hQ row' _ (.flagged b hb hfin env.now _ _) hrow'
        · have hopen : b.status = .open := by
            cases hstatus : b.status <;> simp_all
          rw [if_neg hfin, Txn.wlp_bind]
          refine commits_createTender fun tid _ _ => commits_findIntent fun row' hrow' => ?_
          exact hQ row' _ (.captured b hb hopen i hi hid hcap _ env.now rfl hamount) hrow'
  · refine commits_findIntent fun row hrow => ?_
    rw [if_pos (Or.inl rfl)]
    exact hQ row v .same hrow

/-- A confirmation is at most one entry. -/
theorem Confirmed.posts {P : Entry → Prop} (hplain : P .plain)
    (hcapture : ∀ a late, P (.capture a late)) (hpriced : v.Priced) {id : ℕ} {v' : Store}
    (h : Confirmed v id v') : Posts P v v' := by
  cases h with
  | same => exact .refl hpriced
  | flagged b hb hfin at_ reason event =>
      refine .of_move hpriced rfl (.flag v.ledger b _ hb hfin fun hwf => ?_) hplain
      refine { hwf with no_bill := by simp [Store.ledger, hb], intent_ids := ?_, captured := ?_ }
      · exact nodup_updateRows (fun _ => rfl) (nodup_updateRows (fun _ => rfl) hwf.intent_ids)
      · intro t ht tid htid
        obtain ⟨i, hi, hid, hsucc⟩ :=
          Ledger.captured_update hwf id .succeeded none (some at_) (Or.inl rfl) t ht tid htid
        by_cases heq : i.id = id
        · exact ⟨{ i with failureReason := some reason },
            mem_updateRows.mpr (Or.inr ⟨i, hi, heq, rfl⟩), hid, hsucc⟩
        · exact ⟨i, mem_updateRows.mpr (Or.inl ⟨hi, heq⟩), hid, hsucc⟩
  | captured b hb hopen i hi hid hcap t at_ ht hamount =>
      subst hid
      exact .of_move hpriced rfl (.capture v.ledger b i t at_ hb hopen hi hcap ht hamount)
        (hcapture _ _)

end Intents

end RestiqBackend
