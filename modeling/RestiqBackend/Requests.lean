import RestiqBackend.Sharing

/-!
The page of every request.

`Op.mayPost` says which entries a request can make in the books, and `Op.posts`
that it makes no others. Where a result needs more than the kinds of entries, what
the request does is said in full first: `Prepared` for the two guest payments,
`FinalizedBy` for the staff's settlement.
-/

namespace RestiqBackend

open ReadCommitted

/-! ### Opening and reading -/

section Reading

variable {P : Entry → Prop} {v v' : Store}

/-- A bill in hand that is the row there is, up to plain entries. -/
structure Opened (v v' : Store) (bill : BillWithTenders) : Prop where
  posts : Posts (· = .plain) v v'
  bill : v'.bill = some bill.bill

theorem opened_refreshed (hpriced : v.Priced) {b : Bill} (hb : v.bill = some b)
    (tenders : List Tender) :
    Opened v v.refreshed ⟨b.refreshed v.subtotal v.profile, tenders⟩ :=
  ⟨refreshed_posts rfl hpriced hb, Store.refreshed_bill hb⟩

theorem commits_createOrGetBillRecord (hpriced : v.Priced) {params : CreateBillParams}
    {Q : BillWithTenders × Bool → Store → Prop}
    (hQ : ∀ bill created v', Opened v v' bill → Q (bill, created) v') :
    (createOrGetBillRecord params).commits Q v := by
  simp only [createOrGetBillRecord, Txn.commits, Txn.wlp_bind, Txn.wlp_query]
  intro _ _
  cases hb : v.bill with
  | some b =>
      simp only [Store.loadedBill, hb, Option.map_some, Txn.wlp_bind]
      exact wlp_refresh hb (hQ _ false _ (opened_refreshed hpriced hb _))
  | none =>
      simp only [Store.loadedBill, hb, Option.map_none, Txn.wlp_bind, Txn.wlp_uuid]
      refine commits_raiseIf fun _ => wlp_computeBillTotals ?_
      intro _ _
      refine Txn.commits_writeWhen (fun _ => ?_) fun htaken => by simp [hb] at htaken
      exact hQ _ true _ ⟨.of_move hpriced rfl (.create v.ledger _ hb rfl rfl rfl fun hsub =>
        .of_priced v.profile hsub rfl rfl) rfl, rfl⟩

theorem Opened.posts_of {bill : BillWithTenders} (h : Opened v v' bill) (hplain : P .plain) : Posts P v v' :=
  h.posts.mono fun _ he => he ▸ hplain

/-- Bringing the shares in step with a bill that was just opened. -/
theorem commits_syncShares {bill : BillWithTenders} (h : Opened v v' bill) (hwf : v.ledger.Wf) :
    (syncShares bill).commits (fun _ v'' => Posts (· = .plain) v v'') v' := by
  by_cases hopen : bill.bill.status = .open
  · have hwf' := h.posts.wf hwf
    refine Txn.wlp_mono (wlp_syncShares hopen ?_ hwf'.share_ids hwf'.share_guests
      (Or.inl trivial) (Or.inl fun _ => trivial)) fun _ v'' hsynced => ?_
    · exact fun l hl => OrderLine.totalMinor_nonneg (h.posts.1.prices l (List.mem_of_mem_filter hl))
    · exact h.posts.trans (hsynced.posts (P := (· = .plain)) rfl h.posts.1 h.bill hopen)
  · unfold syncShares
    rw [if_pos hopen]
    exact h.posts

theorem commits_buildInvoiceView {Q : InvoiceView → Store → Prop}
    (hQ : ∀ view b, v.bill = some b → Q view v.refreshed) : buildInvoiceView.commits Q v := by
  simp only [buildInvoiceView, loadTenantTaxProfile, Txn.commits, Txn.wlp_bind, Txn.wlp_query,
    Txn.wlp_pure]
  exact commits_loadBill_refresh fun b hb _ _ _ _ _ _ _ _ _ _ => hQ _ b hb

variable (hplain : P .plain) (hpriced : v.Priced) (hwf : v.ledger.Wf)

include hplain hpriced

theorem createBill_posts (staff : PosPrincipal) (name : String) :
    (createBill staff name).commits (fun _ v' => Posts P v v') v := by
  simp only [createBill, Txn.commits, Txn.wlp_bind, Txn.wlp_query]
  intro _ _
  exact commits_reads (assertMayOpen_emits ..) fun _ =>
    commits_createOrGetBillRecord hpriced fun _ _ _ h => h.posts_of hplain

theorem getBill_posts : getBill.commits (fun _ v' => Posts P v v') v := by
  simp only [getBill, Txn.commits, Txn.wlp_bind]
  exact commits_loadBill_refresh fun b hb => refreshed_posts hplain hpriced hb

theorem getInvoice_posts : getInvoice.commits (fun _ v' => Posts P v v') v :=
  commits_buildInvoiceView fun _ _ hb => refreshed_posts hplain hpriced hb

theorem printBill_posts (source : Option ℕ) :
    (printBill source).commits (fun _ v' => Posts P v v') v := by
  simp only [printBill, Txn.commits, Txn.wlp_bind]
  refine commits_reads loadBill_emits fun bill => ?_
  refine commits_buildInvoiceView fun _ b hb => ?_
  refine commits_reads (linkedPeripheral_emits ..) fun target => ?_
  have hrefreshed := refreshed_posts (P := P) hplain hpriced hb
  have hframe : Frame [.printJobs] v.refreshed (v.refreshed.apply (.createPrintJob ⟨target⟩)) :=
    frame_apply (by simp [Write.table]) _
  have hspooled : Posts P v (v.refreshed.apply (.createPrintJob ⟨target⟩)) :=
    hrefreshed.trans (.of_frame hrefreshed.1 hframe (by decide))
  simp only [Txn.wlp_exec, applyAll_cons, applyAll_nil, writeTo_apply]
  intro _ _
  cases target with
  | some target => exact hspooled
  | none => exact commits_reads (emits_query _) fun _ => hspooled

theorem guestGetInvoice_posts (guest : GuestPrincipal) :
    (guestGetInvoice guest).commits (fun _ v' => Posts P v v') v := by
  simp only [guestGetInvoice, Txn.commits, Txn.wlp_bind]
  refine commits_reads loadBill_emits fun bill => ?_
  refine commits_reads (loadOrderForSession_emits guest) fun _ => commits_raiseIf fun _ => ?_
  exact commits_buildInvoiceView fun _ _ hb => refreshed_posts hplain hpriced hb

include hwf

theorem guestCreateBill_posts (guest : GuestPrincipal) :
    (guestCreateBill guest).commits (fun _ v' => Posts P v v') v := by
  simp only [guestCreateBill, Txn.commits, Txn.wlp_bind]
  refine commits_reads (assertSessionActive_emits guest) fun _ => ?_
  refine commits_reads (loadOrderForSession_emits guest) fun _ => ?_
  refine commits_createOrGetBillRecord hpriced fun bill created v₁ hopened => ?_
  refine Txn.wlp_mono (commits_syncShares hopened hwf) fun _ v₂ hposts => ?_
  exact commits_reads (guestView_emits bill) fun _ => hposts.mono fun _ he => he ▸ hplain

theorem guestGetBill_posts (guest : GuestPrincipal) :
    (guestGetBill guest).commits (fun _ v' => Posts P v v') v := by
  simp only [guestGetBill, Txn.commits, Txn.wlp_bind, Txn.wlp_query]
  refine commits_reads (loadOrderForSession_emits guest) fun _ _ _ => commits_raiseIf fun _ => ?_
  refine commits_loadBill_refresh fun b hb => ?_
  refine Txn.wlp_mono (commits_syncShares (opened_refreshed hpriced hb _) hwf) fun _ v₂ hposts => ?_
  exact commits_reads (guestView_emits _) fun _ => hposts.mono fun _ he => he ▸ hplain

end Reading

/-! ### Payment intents -/

section Intents

variable {P : Entry → Prop} {v : Store}

/-- A stale active intent is closed on the way. -/
theorem commits_assertNoActiveIntent (hplain : P .plain) (hpriced : v.Priced)
    {Q : Unit → Store → Prop}
    (hQ : ∀ v', Posts P v v' → Frame [.paymentIntents] v v' → Q () v') :
    assertNoActiveIntent.commits Q v := by
  simp only [assertNoActiveIntent, Txn.commits, Txn.wlp_bind, Txn.wlp_query]
  intro _ _
  cases v.activeIntents.head?.bind fun i => v.intentRow i.id with
  | none => exact hQ v (.refl hpriced) (.refl _ v)
  | some row =>
      simp only [Txn.wlp_bind]
      exact commits_expireIfDue hplain hpriced fun _ v' hposts hframe _ =>
        commits_raiseIf fun _ => hQ v' hposts hframe

/-- An intent that is inserted is the bill's only active one. -/
theorem insertIntent_posts (hraise : P .raise) (hpriced : v.Priced) {b : Bill}
    (hb : v.bill = some b) (hopen : b.status = .open) (hfresh : b = b.refreshed v.subtotal v.profile)
    (dto : CreatePaymentIntentDto) (hdue : dto.amountMinor ≤ b.totalMinor - v.tenderTotal)
    (target : Option ℕ) : (insertIntent dto target).commits (fun _ v' => Posts P v v') v := by
  simp only [insertIntent, Txn.commits, Txn.wlp_bind, Txn.wlp_query, Txn.wlp_uuid, Txn.wlp_clock]
  intro _ _ env _ env' _
  refine Txn.commits_writeWhen (fun hfree => ?_) fun _ => trivial
  simp only [Store.intentTaken, PaymentIntent.isActive, PaymentIntentStatus.isActive, Bool.true_and,
    Bool.not_or, Bool.and_eq_true, Bool.not_eq_true', List.any_eq_false, Bool.or_eq_true,
    decide_eq_true_eq, not_or, Bool.not_eq_false', List.isEmpty_iff] at hfree
  obtain ⟨⟨hids, _⟩, hnone⟩ := hfree
  refine .of_move hpriced rfl (.raise v.ledger b _ hb hopen hfresh ?_ rfl hnone
    dto.one_le_amountMinor hdue) hraise
  intro hmem
  obtain ⟨i, hi, hid⟩ := List.mem_map.mp hmem
  exact (hids i hi).1 hid

theorem createIntent_posts (hplain : P .plain) (hraise : P .raise) (hpriced : v.Priced)
    (dto : CreatePaymentIntentDto) :
    (createIntent dto).commits (fun _ v' => Posts P v v') v := by
  simp only [createIntent, paymentsSimulatorFor, lockBill, Txn.commits, Txn.wlp_bind,
    Txn.wlp_query, Txn.wlp_exec, applyAll_nil]
  intro _ _
  refine commits_raiseIf fun _ _ _ => commits_loadBill_refresh fun b hb => ?_
  refine commits_raiseIf fun hstatus _ _ => commits_raiseIf fun _ _ _ => ?_
  have hposts := refreshed_posts hplain hpriced hb
  cases (v.refreshed.intents.find? (·.clientKey = dto.clientKey)).bind
      fun i => v.refreshed.intentRow i.id with
  | some existing =>
      simp only [Txn.wlp_bind]
      exact commits_expireIfDue hplain hposts.1 fun _ v₂ h _ _ => hposts.trans h
  | none =>
      simp only [Txn.wlp_bind, assertStillDue]
      refine commits_raiseIf fun hdue => ?_
      refine commits_assertNoActiveIntent hplain hposts.1 fun v₂ h₂ hframe => ?_
      refine commits_reads (routeToTerminal_emits ..) fun target => ?_
      have hsub : v₂.subtotal = v.subtotal :=
        congrArg Ledger.subtotal (hframe.ledger_rows (by decide)).1
      have hprofile : v₂.profile = v.profile :=
        congrArg Ledger.profile (hframe.ledger_rows (by decide)).1
      have htenders : v₂.tenders = v.tenders := hframe .tenders (by decide)
      have hopen : (b.refreshed v.subtotal v.profile).status = .open := by
        cases h : (b.refreshed v.subtotal v.profile).status <;> simp_all
      refine Txn.wlp_mono (insertIntent_posts (b := b.refreshed v.subtotal v.profile) hraise h₂.1
        ((hframe .bills (by decide)).trans (Store.refreshed_bill hb)) hopen ?_ dto ?_ target)
        fun _ _ h => hposts.trans (h₂.trans h)
      · rw [hsub, hprofile, Bill.refreshed_refreshed]
      · rw [Store.tenderTotal, htenders]
        exact not_lt.mp hdue

theorem getIntent_posts (hplain : P .plain) (hpriced : v.Priced) (id : ℕ) :
    (getIntent id).commits (fun _ v' => Posts P v v') v := by
  simp only [getIntent, Txn.commits, Txn.wlp_bind]
  exact commits_loadIntent fun _ _ => commits_expireIfDue hplain hpriced fun _ _ h _ _ => h

/-- Declining or cancelling, where it finds the intent active. -/
theorem updateIntentWhere_posts (hplain : P .plain) (hpriced : v.Priced) {id : ℕ}
    {status : PaymentIntentStatus} {reason : Option String}
    (h : status = .failed ∨ status = .expired ∨ status = .cancelled) :
    (updateIntentWhere id (·.isActive) status reason none).commits (fun _ v' => Posts P v v') v :=
  commits_updateIntentWhere (fun hactive => close_posts hplain hpriced h hactive)
    fun _ => .refl hpriced

theorem cancelIntent_posts (hplain : P .plain) (hpriced : v.Priced) (id : ℕ) :
    (cancelIntent id).commits (fun _ v' => Posts P v v') v := by
  simp only [cancelIntent, Txn.commits, Txn.wlp_bind]
  refine commits_loadIntent fun _ _ => commits_expireIfDue hplain hpriced fun row v₁ h₁ _ _ => ?_
  refine commits_raiseIf fun _ => ?_
  by_cases hactive : row.intent.isActive = true
  · rw [if_neg (not_not.mpr hactive), Txn.wlp_bind]
    refine Txn.wlp_mono (updateIntentWhere_posts hplain h₁.1 (Or.inr (Or.inr rfl)))
      fun _ v₂ h₂ => commits_reads (findIntent_emits id) fun _ => h₁.trans h₂
  · rw [if_pos hactive]
    exact h₁

theorem sweepDueIntents_posts (hplain : P .plain) (hpriced : v.Priced) :
    sweepDueIntents.commits (fun _ v' => Posts P v v') v := by
  simp only [sweepDueIntents, Txn.commits, Txn.wlp_bind, Txn.wlp_clock, Txn.wlp_query]
  intro _ _ _ _
  refine Txn.wlp_forEach (I := Posts P v) (fun id _ v₁ h₁ => ?_) (.refl hpriced)
  simp only [Txn.wlp_bind]
  exact Txn.wlp_mono (updateIntentWhere_posts hplain h₁.1 (Or.inr (Or.inl rfl)))
    fun _ _ h₂ => h₁.trans h₂

theorem listPending_posts (hplain : P .plain) (hpriced : v.Priced) (staff : PosPrincipal)
    (outletId : ℕ) (deviceId : Option ℕ) :
    (listPendingForOutlet staff outletId deviceId).commits (fun _ v' => Posts P v v') v := by
  simp only [listPendingForOutlet, Txn.commits, Txn.wlp_bind, Txn.wlp_query]
  refine commits_raiseIf fun _ _ _ => ?_
  have hsweep : ∀ own, (sweepOwn own).commits (fun _ v' => Posts P v v') v := fun own => by
    cases own with
    | false => exact .refl hpriced
    | true => exact sweepDueIntents_posts hplain hpriced
  refine Txn.wlp_mono (hsweep _) fun _ v₁ h₁ => ?_
  exact commits_reads (queueFor_emits ..) fun _ _ _ => h₁

/-- What the simulated provider's answer does: it closes the intent, or confirms it. -/
theorem commits_simulate (hpriced : v.Priced) (hwf : v.ledger.Wf) (id : ℕ)
    (outcome : SimulatedOutcome) :
    (simulate id outcome).commits
      (fun _ v' => Posts (· = .plain) v v' ∨ Confirmed v id v') v := by
  simp only [simulate, paymentsSimulatorFor, Txn.commits, Txn.wlp_bind, Txn.wlp_query]
  refine commits_loadIntent fun row _ _ _ => commits_raiseIf fun _ => ?_
  cases outcome with
  | success =>
      dsimp only
      by_cases hsucc : row.intent.status = .succeeded
      · rw [if_pos hsucc]
        exact Or.inl (.refl hpriced)
      · rw [if_neg hsucc]
        by_cases hover : row.intent.status = .failed ∨ row.intent.status = .cancelled
        · rw [if_pos hover]
          trivial
        · rw [if_neg hover]
          exact commits_confirmIntent hwf fun _ _ hconfirmed _ => Or.inr hconfirmed
  | failure =>
      simp only [Txn.wlp_bind]
      refine commits_expireIfDue (P := (· = .plain)) rfl hpriced fun current v₁ h₁ _ _ => ?_
      by_cases hfailed : current.intent.status = .failed
      · rw [if_pos hfailed]
        exact Or.inl h₁
      · rw [if_neg hfailed]
        by_cases hactive : current.intent.isActive = true
        · rw [if_neg (not_not.mpr hactive)]
          simp only [failIntent, Txn.wlp_bind]
          refine Txn.wlp_mono (updateIntentWhere_posts (P := (· = .plain)) rfl h₁.1 (Or.inl rfl))
            fun _ v₂ h₂ => ?_
          exact commits_reads (findIntent_emits id) fun _ => Or.inl (h₁.trans h₂)
        · rw [if_pos hactive]
          trivial

end Intents

/-! ### Settling by the staff -/

section Finalize

variable {v v' : Store}

/-- Some tenders that no intent backs were added, and nothing else. -/
structure Tendered (v v' : Store) (ts : List Tender) : Prop where
  frame : Frame [.tenders] v v'
  tenders : v'.tenders = v.tenders ++ ts
  manual : ∀ t ∈ ts, t.paymentIntentId = none
  fresh : ∀ t ∈ ts, ∀ t' ∈ v.tenders, t'.id ≠ t.id

theorem Tendered.refl (v : Store) : Tendered v v [] := ⟨.refl _ v, by simp, by simp, by simp⟩

theorem Tendered.trans {v'' : Store} {ts ts' : List Tender} (h : Tendered v v' ts)
    (h' : Tendered v' v'' ts') : Tendered v v'' (ts ++ ts') where
  frame := h.frame.trans h'.frame
  tenders := by rw [h'.tenders, h.tenders, List.append_assoc]
  manual t ht := (List.mem_append.mp ht).elim (h.manual t) (h'.manual t)
  fresh t ht t' ht' := by
    rcases List.mem_append.mp ht with ht | ht
    · exact h.fresh t ht t' ht'
    · exact h'.fresh t ht t' (h.tenders ▸ List.mem_append_left _ ht')

theorem Tendered.one {t : Tender} (hmanual : t.paymentIntentId = none)
    (hfree : v.tenderTaken t = false) : Tendered v (v.apply (.createTender t)) [t] where
  frame := frame_apply (by simp [Write.table]) v
  tenders := rfl
  manual := by simpa using hmanual
  fresh := by
    simp only [Store.tenderTaken, List.any_eq_false, Bool.or_eq_true, decide_eq_true_eq,
      not_or] at hfree
    simpa using fun t' ht' => (hfree t' ht').1

theorem commits_takeTenders (dtos : List TenderDto) :
    (Txn.forEach takeTender dtos).commits (fun _ v' => ∃ ts, Tendered v v' ts ∧
      ts.map (·.amountMinor) = dtos.map (·.amountMinor)) v := by
  induction dtos generalizing v with
  | nil => exact ⟨[], .refl v, rfl⟩
  | cons dto dtos ih =>
      simp only [Txn.forEach_cons, takeTender, Txn.commits, Txn.wlp_bind, Txn.wlp_pure]
      refine commits_raiseIf fun _ => commits_createTender fun id hfree _ => ?_
      refine Txn.wlp_mono ih ?_
      rintro _ v' ⟨ts, hts, hamounts⟩
      exact ⟨_, (Tendered.one rfl hfree).trans hts, by simp [hamounts, TenderParams.row,
        TenderDto.toParams]⟩

/-- What a staff settlement has done when it answers: the bill `b` was brought in step
with its lines, the tenders `ts` were added, and the row became `b'`. -/
structure FinalizedBy (dto : FinalizeBillDto) (v v' : Store) (b b' : Bill) (ts : List Tender) :
    Prop where
  wasBill : v.bill = some b
  wasOpen : b.status = .open
  bill : v'.bill = some b'
  tenders : v'.tenders = v.tenders ++ ts
  manual : ∀ t ∈ ts, t.paymentIntentId = none
  fresh : ∀ t ∈ ts, ∀ t' ∈ v.tenders, t'.id ≠ t.id
  amounts : ts.map (·.amountMinor) = dto.tenders.map (·.amountMinor)
  frame : Frame [.bills, .tenders, .billNumberCounters, .tickets, .orders, .tenants, .auditEvents]
    v v'
  unsimulated : v.simulatorOn = false → v.simulatedTenders = []
  discount_le : dto.discountMinor.getD 0 ≤ v.subtotal
  row : ∃ number staff roundOff at_,
    b' = (b.refreshed v.subtotal v.profile).finalize number dto.discountMinor dto.discountReason
      roundOff ((if 0 < dto.discountMinor.getD 0 then
          some (v.profile.taxOn (v.subtotal - dto.discountMinor.getD 0)) else none).map
        fun t => (t.taxMinor, toStoredTaxBreakdown t)) staff at_
  covered : settleRoundOff b'.totalMinor v'.tenderTotal (cashMinorOf v'.tenders)
    (if 0 < cashMinorOf v'.tenders then some v.tenant.country else none) = .ok b'.roundOffMinor

/-- An open bill in step with the lines bills what they add up to. -/
theorem Bill.refreshed_subtotalMinor {b : Bill} (hopen : b.status = .open) (subtotal : ℤ)
    (profile : TenantTaxProfile) : (b.refreshed subtotal profile).subtotalMinor = subtotal := by
  by_cases h : b.InTune subtotal profile
  · rw [Bill.refreshed_eq_self (Or.inr h)]
    exact h.1.symm
  · rw [Bill.refreshed_eq_withTotals hopen h]
    rfl

theorem Bill.refreshed_taxMinor {b : Bill} (hopen : b.status = .open) (subtotal : ℤ)
    (profile : TenantTaxProfile) :
    (b.refreshed subtotal profile).taxMinor = (profile.taxOn subtotal).taxMinor := by
  by_cases h : b.InTune subtotal profile
  · rw [Bill.refreshed_eq_self (Or.inr h)]
    exact h.2.1.symm
  · rw [Bill.refreshed_eq_withTotals hopen h]
    rfl

/-- The intents of manual tenders back nothing. -/
theorem simulatedTenders_append {v v' : Store} {ts : List Tender} (h : Tendered v v' ts) :
    v'.simulatedTenders = v.simulatedTenders := by
  have hintents : v'.intents = v.intents := h.frame .paymentIntents (by decide)
  have hnone : (ts.filter fun t => v.intents.any fun i =>
      some i.id = t.paymentIntentId && i.provider = .simulated) = [] := by
    refine List.filter_eq_nil_iff.mpr fun t ht => ?_
    simp [h.manual t ht]
  rw [Store.simulatedTenders, h.tenders, hintents, List.filter_append, hnone, List.append_nil]
  rfl

theorem Tendered.ledger {ts : List Tender} (h : Tendered v v' ts) :
    v'.ledger = { v.ledger with tenders := v.tenders ++ ts } ∧ v'.lines = v.lines := by
  obtain ⟨hledger, hlines⟩ := h.frame.ledger_rows (by decide)
  rw [h.tenders, show v'.bill = v.bill from h.frame .bills (by decide),
    show v'.intents = v.intents from h.frame .paymentIntents (by decide),
    show v'.shares = v.shares from h.frame .billShares (by decide)] at hledger
  exact ⟨hledger, hlines⟩

/-- Manual tenders keep the books readable. -/
theorem Ledger.Wf.add_manual {L : Ledger} (h : L.Wf) {b' : Bill} {ts : List Tender}
    (hmanual : ∀ t ∈ ts, t.paymentIntentId = none) :
    Ledger.Wf { L with bill := some b', tenders := L.tenders ++ ts } :=
  { h with
    no_bill := by simp
    captured := fun t ht id hid => by
      rcases List.mem_append.mp ht with ht | ht
      · exact h.captured t ht id hid
      · rw [hmanual t ht] at hid
        cases hid }

theorem FinalizeBillDto.discount_nonneg (dto : FinalizeBillDto) : 0 ≤ dto.discountMinor.getD 0 := by
  cases h : dto.discountMinor with
  | none => rfl
  | some d =>
      have := dto.one_le_discountMinor d h
      simp only [Option.getD_some]
      omega

/-- The last part of a staff settlement, from the store that the refresh left. -/
theorem finalize_posts {P : Entry → Prop} (hsettle : P .settle) {v₀ v₁ v₂ : Store}
    (hpriced : v₀.Priced) {params : CommitFinalizeParams} {ts : List Tender} {b' : Bill}
    {roundOff : Option ℤ} {tax : Option TaxResult} (hb : v₀.bill = some params.bill.bill)
    (hdiscount : 0 ≤ params.discountMinor.getD 0)
    (htendered : Tendered v₀ v₁ ts) (hcheck : Settleable v₁ params roundOff tax)
    (hsettled : Settled v₁ v₂ params roundOff tax b') : Posts P v₀ v₂ := by
  obtain ⟨hledger₁, hlines₁⟩ := htendered.ledger
  obtain ⟨hledger₂, hlines₂⟩ := hsettled.ledger
  have hb₁ : v₁.bill = some params.bill.bill := (htendered.frame .bills (by decide)).trans hb
  have hsettles := hsettled.settles hcheck hb₁ hdiscount
  rw [htendered.tenders] at hsettles
  refine .of_move hpriced (hlines₂.trans hlines₁) (e := .settle) ?_ hsettle
  rw [hledger₂, hledger₁]
  refine .settle v₀.ledger params.bill.bill b' ts _ _ hb hsettles (fun hoff => ?_)
    fun hwf => hwf.add_manual htendered.manual
  refine ⟨htendered.manual, rfl, rfl, ?_⟩
  have hoff₁ : v₁.simulatorOn = false := (congrArg Ledger.simulator hledger₁).trans hoff
  exact (simulatedTenders_append htendered).symm.trans (hcheck.unsimulated hoff₁)

theorem commits_finalize (hpriced : v.Priced) (staff : PosPrincipal) (dto : FinalizeBillDto)
    (authorize : Except ApiError ManagerApproval) :
    (finalize staff dto authorize).commits (fun _ v' =>
      (∃ b b' ts, FinalizedBy dto v v' b b' ts) ∧
        Posts (fun e => e = .plain ∨ e = .settle) v v') v := by
  simp only [finalize, lockBill, Txn.commits, Txn.wlp_bind, Txn.wlp_exec, Txn.wlp_pure,
    applyAll_nil]
  refine commits_raiseIf fun _ _ _ => commits_loadBill_refresh fun b hb => ?_
  refine commits_raiseIf fun hstatus => commits_reads (approveDiscount_emits ..) fun approval => ?_
  refine commits_reads (assertShiftForCash_emits _) fun _ => ?_
  have hopen : b.status = .open := by
    rw [Bill.refreshed_status] at hstatus
    cases h : b.status <;> simp_all
  refine Txn.wlp_mono (commits_takeTenders dto.tenders) ?_
  rintro _ v₁ ⟨ts, htendered, hamounts⟩
  refine commits_commitFinalize fun v₂ b' roundOff tax hcheck hsettled => ?_
  have hbill₀ := Store.refreshed_bill hb
  have hbill₁ := (htendered.frame .bills (by decide)).trans hbill₀
  obtain ⟨_, number, at_, hrow⟩ := hsettled.bill_eq hbill₁
  have hposts₀ := refreshed_posts (P := fun e => e = .plain ∨ e = .settle) (Or.inl rfl) hpriced hb
  have hposts₂ := hposts₀.trans
    (finalize_posts (Or.inr rfl) hposts₀.1 hbill₀ dto.discount_nonneg htendered hcheck hsettled)
  have hledger₁ := htendered.ledger.1
  have hprofile₁ : v₁.profile = v.profile := congrArg Ledger.profile hledger₁
  have hsub := Bill.refreshed_subtotalMinor hopen v.subtotal v.profile
  have htax := hcheck.tax_eq
  have hcountry : v₁.tenant = v.tenant := htendered.frame .tenants (by decide)
  have htenders₂ : v₂.tenders = v₁.tenders := hsettled.frame .tenders (by decide)
  rw [hsub, hprofile₁] at htax
  -- What holds after the settlement still holds after the audit row.
  have hlast : ∀ v₃, Frame [.auditEvents] v₂ v₃ →
      (∃ b b' ts, FinalizedBy dto v v₃ b b' ts) ∧
        Posts (fun e => e = .plain ∨ e = .settle) v v₃ := by
    intro v₃ hframe
    have htenders₃ : v₃.tenders = v₁.tenders :=
      (hframe .tenders (by decide)).trans htenders₂
    refine ⟨⟨b, b', ts, ?_⟩, hposts₂.trans (.of_frame hposts₂.1 hframe (by decide))⟩
    refine ⟨hb, hopen, (hframe .bills (by decide)).trans hsettled.bill, ?_, htendered.manual,
      htendered.fresh, hamounts, ?_, ?_, ?_, ?_, ?_⟩
    · exact htenders₃.trans htendered.tenders
    · exact (v.refreshed_frame.mono (by simp)).trans ((htendered.frame.mono (by simp)).trans
        ((hsettled.frame.mono (by simp)).trans (hframe.mono (by simp))))
    · intro hoff
      have hoff₁ : v₁.simulatorOn = false := (congrArg Ledger.simulator hledger₁).trans hoff
      exact (simulatedTenders_append htendered).symm.trans (hcheck.unsimulated hoff₁)
    · exact hsub ▸ hcheck.discount_le
    · exact ⟨number, some staff.id, roundOff, at_, htax ▸ hrow⟩
    · have hround := hcheck.roundOff
      rw [Store.tenderTotal, htenders₃, ← hcountry, hrow]
      simp only [Bill.totalMinor, Bill.finalize, Option.map_map]
      exact hround
  cases approval with
  | none => exact hlast v₂ (.refl _ v₂)
  | some approval =>
      simp only [whenGiven, recordApproval, Txn.wlp_exec, applyAll_cons, applyAll_nil,
        writeTo_apply]
      exact fun _ _ => hlast _ (frame_apply (by simp [Write.table]) v₂)

end Finalize

/-! ### Refunding -/

section Refund

variable {v v' : Store}

/-- What a refund has done when it answers: it wrote the note, whose lines were priced
against the bill and the notes that were there. -/
structure Refunded (dto : RefundBillDto) (v v' : Store) (b : Bill) (lines : List CreditNoteLine)
    (note : CreditNote) : Prop where
  bill : v.bill = some b
  finalized : b.status = .finalized
  priced : ∃ targets, refundTargets v.liveLines
      (refundedSoFar (v.creditNotes.flatMap (·.lines))) dto.lines = .ok targets ∧
    priceTargets v.liveLines (refundedSoFar (v.creditNotes.flatMap (·.lines))) targets = .ok lines
  amounts : (note.subtotalMinor, note.taxMinor) =
    noteAmounts b (v.creditNotes.flatMap (·.lines)) v.creditNotes lines
  lines : note.lines = allocateLines note.subtotalMinor lines
  notes : v'.creditNotes = v.creditNotes ++ [note]
  frame : Frame [.creditNotes, .auditEvents] v v'

theorem commits_refund (staff : PosPrincipal) (dto : RefundBillDto)
    (authorize : Except ApiError ManagerApproval) :
    (refund staff dto authorize).commits
      (fun note v' => ∃ b lines, Refunded dto v v' b lines note) v := by
  simp only [refund, lockBill, recordApproval, Txn.commits, Txn.wlp_bind, Txn.wlp_exec,
    Txn.wlp_query, Txn.wlp_uuid, Txn.wlp_clock, Txn.wlp_pure, applyAll_nil]
  refine commits_reads (assertPinGiven_emits ..) fun _ _ _ => commits_loadBill_refresh fun b hb => ?_
  refine commits_raiseIf fun hstatus => ?_
  rw [Bill.refreshed_status, not_not] at hstatus
  rw [Store.refreshed_eq_self hb hstatus, Bill.refreshed_of_finalized hstatus]
  intro _ _ _ _
  refine commits_ofExcept fun targets htargets => commits_ofExcept fun lines hlines => ?_
  intro _ _
  refine commits_ofExcept fun approval _ env _ env' _ => commits_insertRow fun _ => ?_
  simp only [applyAll_cons, applyAll_nil, writeTo_apply]
  intro _ _
  exact ⟨b, lines, hb, hstatus, ⟨targets, htargets, hlines⟩, rfl, rfl, rfl,
    (frame_apply (by simp [Write.table]) v).trans (frame_apply (by simp [Write.table]) _)⟩

theorem refund_posts {P : Entry → Prop} (hpriced : v.Priced) (staff : PosPrincipal)
    (dto : RefundBillDto) (authorize : Except ApiError ManagerApproval) :
    (refund staff dto authorize).commits (fun _ v' => Posts P v v') v :=
  Txn.wlp_mono (commits_refund staff dto authorize) fun _ _ hrefunded => by
    obtain ⟨_, _, h⟩ := hrefunded
    exact .of_frame hpriced h.frame (by decide)

end Refund

/-! ### Paying by phone -/

section Guest

variable {P : Entry → Prop} {v v' : Store}

/-- What both guest payments start from: an open bill in step with its lines and its
shares, while payments are simulated. -/
structure Prepared (v v' : Store) (b : Bill) : Prop where
  posts : Posts (· = .plain) v v'
  simulator : v'.simulatorOn = true
  bill : v'.bill = some b
  isOpen : b.status = .open
  fresh : b = b.refreshed v'.subtotal v'.profile
  inStep : InStep b v'.shares

theorem commits_preparePayment (hpriced : v.Priced) (hwf : v.ledger.Wf) (guest : GuestPrincipal)
    {Q : BillWithTenders × Order × TableSession → Store → Prop}
    (hQ : ∀ b ts order session v', Prepared v v' b → Q (⟨b, ts⟩, order, session) v') :
    (preparePayment guest).commits Q v := by
  simp only [preparePayment, assertGuestPaymentsAvailable, paymentsSimulatorFor, lockBill,
    Txn.commits, Txn.wlp_bind, Txn.wlp_query, Txn.wlp_exec, Txn.wlp_pure, applyAll_nil]
  intro _ _
  refine commits_raiseIf fun hsim _ _ => commits_loadBill_refresh fun b hb => ?_
  refine commits_reads (loadOrderForSession_emits guest) fun order => commits_raiseIf fun hstatus => ?_
  refine commits_reads (assertSessionActive_emits guest) fun session => ?_
  have hopen : (b.refreshed v.subtotal v.profile).status = .open := by
    cases h : (b.refreshed v.subtotal v.profile).status <;> simp_all
  have hposts := refreshed_posts (P := (· = .plain)) rfl hpriced hb
  have hwf₁ := hposts.wf hwf
  refine Txn.wlp_mono (wlp_syncShares hopen (fun l hl => ?_) hwf₁.share_ids hwf₁.share_guests
    (Or.inl trivial) (Or.inl fun _ => trivial)) fun _ v₂ hsynced => ?_
  · exact OrderLine.totalMinor_nonneg (hpriced.prices l (List.mem_of_mem_filter hl))
  · have hbill₁ := Store.refreshed_bill hb
    have hledger := (hsynced.frame.ledger_rows (by decide)).1
    have hsub : v₂.subtotal = v.subtotal := congrArg Ledger.subtotal hledger
    have hprofile : v₂.profile = v.profile := congrArg Ledger.profile hledger
    have hon : v₂.simulatorOn = v.simulatorOn := congrArg Ledger.simulator hledger
    refine hQ _ _ order session v₂ ⟨hposts.trans (hsynced.posts (P := (· = .plain)) rfl hposts.1 hbill₁ hopen),
      ?_, (hsynced.frame .bills (by decide)).trans hbill₁, hopen, ?_, hsynced.inStep⟩
    · rw [hon]
      simpa using hsim
    · rw [hsub, hprofile, Bill.refreshed_refreshed]

/-- What settling for the guests has done when it answers. -/
structure Completed (v v' : Store) (b b' : Bill) : Prop where
  bill : v.bill = some b
  settles : Settles b b' v.tenders
  ledger : v'.ledger = { v.ledger with bill := some b' }
  lines : v'.lines = v.lines

theorem commits_completeBill (order : Order) {Q : Unit → Store → Prop}
    (hQ : ∀ b b' v', Completed v v' b b' → Q () v') : (completeBill order).commits Q v := by
  simp only [completeBill, Txn.commits, Txn.wlp_bind]
  cases hb : v.bill with
  | none => simp [loadBill, Store.loadedBill, hb]
  | some b =>
      refine wlp_loadBill hb (commits_commitFinalize fun v₁ b' roundOff tax hcheck hsettled => ?_)
      have hlast : ∀ v₂, Frame [.tableSessions] v₁ v₂ → Completed v v₂ b b' := fun v₂ hframe =>
        { bill := hb
          settles := hsettled.settles hcheck hb le_rfl
          ledger := (hframe.ledger (by decide)).1.trans hsettled.ledger.1
          lines := (hframe.ledger (by decide)).2.trans hsettled.ledger.2 }
      split
      · simp only [Txn.wlp_exec, applyAll_cons, applyAll_nil, writeTo_apply]
        exact fun _ _ => hQ b b' _ (hlast _ (frame_apply (by simp [Write.table]) v₁))
      · exact hQ b b' _ (hlast v₁ (.refl _ v₁))

/-- Settling what is on the bill, while payments are simulated. -/
theorem Completed.posts (hsettle : P .settle) (hpriced : v.Priced) (hon : v.simulatorOn = true)
    {b b' : Bill} (h : Completed v v' b b') : Posts P v v' := by
  refine .of_move hpriced h.lines (e := .settle) ?_ hsettle
  have hledger := h.ledger
  have hsettles := h.settles
  rw [← List.append_nil v.tenders] at hsettles
  have hmove := Ledger.Move.settle v.ledger b b' [] v.ledger.intents v.ledger.shares h.bill
    hsettles (fun hoff => absurd (hon.symm.trans hoff) (by simp))
    fun hwf => hwf.add_manual (by simp)
  rw [List.append_nil] at hmove
  rw [hledger]
  exact hmove

/-- Paying one share is one entry, and settling the bill another. -/
theorem takeShare_posts (hshare : ∀ id, P (.share id)) (hsettle : P .settle) (hpriced : v.Priced)
    {b : Bill} (hb : v.bill = some b) (hopen : b.status = .open)
    (hfresh : b = b.refreshed v.subtotal v.profile) (hstep : InStep b v.shares)
    (hon : v.simulatorOn = true) {share : BillShare} (hs : share ∈ v.shares)
    (hout : share.status = .outstanding) (order : Order) (phone : Option String) :
    (takeShare order share phone).commits (fun _ v' => Posts P v v') v := by
  simp only [takeShare, markSharePaid, Txn.commits, Txn.wlp_bind, Txn.wlp_clock, Txn.wlp_query]
  refine commits_createTender fun id _ _ env _ => ?_
  refine Txn.commits_writeWhen (fun _ => ?_) fun _ => trivial
  set t : Tender := ({ method := .upiManual, amountMinor := share.amountMinor } : TenderParams).row id
    with ht
  have hpaid : Posts P v ((v.apply (.createTender t)).apply
      (.payShare share.id phone t.id env.now)) :=
    .of_move hpriced rfl (.pay v.ledger b share t phone env.now hb hopen hfresh hstep hs hout rfl
      rfl) (hshare _)
  simp only [applyAll_cons, applyAll_nil, writeTo_apply]
  intro _ _
  by_cases hlast : ((v.apply (.createTender t)).apply
      (.payShare share.id phone t.id env.now)).shares.countP (·.status = .outstanding) = 0
  · rw [if_pos hlast]
    exact commits_completeBill order fun _ _ v' h => hpaid.trans (h.posts hsettle hpaid.1 hon)
  · rw [if_neg hlast]
    exact hpaid

theorem payShare_posts (hplain : P .plain) (hpriced : v.Priced) (hwf : v.ledger.Wf)
    (guest : GuestPrincipal) (guestId : ℕ) (dto : SimulatedPaymentDto)
    (hshare : dto.simulatedOutcome = .success → ∀ id, P (.share id))
    (hsettle : dto.simulatedOutcome = .success → P .settle) :
    (payShare guest guestId dto).commits (fun _ v' => Posts P v v') v := by
  simp only [payShare, Txn.commits, Txn.wlp_bind, Txn.wlp_query]
  refine commits_preparePayment hpriced hwf guest fun b ts order session v₁ hprep => ?_
  intro _ _
  have hposts : Posts P v v₁ := hprep.posts.mono fun _ he => he ▸ hplain
  cases hfind : v₁.shares.find? (·.guestId = guestId) with
  | none => trivial
  | some share =>
      simp only [Txn.wlp_bind]
      refine commits_raiseIf fun hstatus => ?_
      have hout : share.status = .outstanding := by
        cases h : share.status <;> simp_all
      cases houtcome : dto.simulatedOutcome with
      | failure => exact commits_reads buildView_emits fun _ => hposts
      | success =>
          refine Txn.wlp_mono (takeShare_posts (hshare houtcome) (hsettle houtcome) hposts.1
            hprep.bill hprep.isOpen hprep.fresh hprep.inStep hprep.simulator
            (List.mem_of_find?_eq_some hfind) hout order dto.payerPhone) fun _ v₂ h => ?_
          exact commits_reads buildView_emits fun _ => hposts.trans h

/-- Confirming an intent that was raised in the same transaction writes its tender. -/
theorem commits_confirmNew (hpriced : v.Priced) (hwf : v.ledger.Wf) {b : Bill}
    (hb : v.bill = some b) (hopen : b.status = .open) {i : PaymentIntent}
    (hfree : v.intentTaken i = false) {Q : IntentRow → Store → Prop}
    (hQ : ∀ row t intents v', v'.ledger = { v.ledger with tenders := v.tenders ++ [t], intents } →
      v'.lines = v.lines → v'.ledger.Wf → Q row v')
    (hnone : ∀ row v', row.tender = none → Q row v') :
    (confirmIntent i.id).commits Q (v.apply (.createIntent i)) := by
  simp only [Store.intentTaken, Bool.or_eq_false_iff, List.any_eq_false, Bool.or_eq_true,
    decide_eq_true_eq, not_or] at hfree
  have hid : i.id ∉ v.ledger.intents.map (·.id) := by
    intro hmem
    obtain ⟨j, hj, hjid⟩ := List.mem_map.mp hmem
    exact (hfree.1.1 j hj).1 hjid
  have hwf₁ : (v.apply (.createIntent i)).ledger.Wf := hwf.add_intent hb hid
  refine commits_confirmIntent hwf₁ fun row v₂ hconfirmed hrow => ?_
  have hpriced₁ : (v.apply (.createIntent i)).Priced := ⟨hpriced.prices, hpriced.ids⟩
  have hwf₂ := (hconfirmed.posts (P := fun _ => True) trivial (fun _ _ => trivial) hpriced₁).wf hwf₁
  cases hconfirmed with
  | same =>
      refine hnone row _ (Option.not_isSome_iff_eq_none.mp fun hsome => ?_)
      obtain ⟨t, ht, htid⟩ := (Store.intentRow_some hrow).2.2.mp hsome
      obtain ⟨j, hj, hjid, _⟩ := hwf.captured t ht _ htid
      exact hid (hjid ▸ List.mem_map_of_mem hj)
  | flagged b' hb' hfin =>
      rw [show b' = b from Option.some.inj (hb'.symm.trans hb), hopen] at hfin
      cases hfin
  | captured b' hb' hopen' j hj hjid hcap t at_ ht hamount =>
      exact hQ row t _ _ rfl rfl hwf₂

/-- A card at a kiosk, or a manual tender: one tender for the whole of an open bill. -/
theorem commits_takeWhole (hpriced : v.Priced) (hwf : v.ledger.Wf) {b : Bill} (hb : v.bill = some b)
    (hopen : b.status = .open) (session : TableSession) (bill : Bill) (total : ℤ)
    {Q : ℕ → Store → Prop}
    (hQ : ∀ id t intents v', v'.ledger = { v.ledger with tenders := v.tenders ++ [t], intents } →
      v'.lines = v.lines → v'.ledger.Wf → Q id v') :
    (takeWhole session bill total).commits Q v := by
  unfold takeWhole
  cases session.tableId with
  | some table =>
      simp only [Txn.commits, Txn.wlp_bind, Txn.wlp_pure]
      refine commits_createTender fun id hfree _ => ?_
      refine hQ _ _ v.intents _ rfl rfl ?_
      have hmanual : Ledger.Wf { v.ledger with
          bill := some b
          tenders := v.tenders ++
            [({ method := .upiManual, amountMinor := total } : TenderParams).row id] } :=
        hwf.add_manual (by simp [TenderParams.row])
      rwa [← show v.ledger.bill = some b from hb] at hmanual
  | none =>
      simp only [payByKioskCard, Txn.commits, Txn.wlp_bind, Txn.wlp_query, Txn.wlp_uuid,
        Txn.wlp_clock]
      intro _ _ env _ env' _
      refine commits_insertRow fun hfree => ?_
      refine commits_confirmNew hpriced hwf hb hopen hfree (fun row t intents v' h₁ h₂ h₃ => ?_)
        fun row v' hnone => ?_
      · cases row.tender with
        | none => trivial
        | some tid => exact hQ tid t intents v' h₁ h₂ h₃
      · rw [hnone]
        trivial

/-- `updateMany` over the shares keeps their keys. -/
theorem commits_payAllShares (phone : Option String) (tenderId : ℕ) {Q : Unit → Store → Prop}
    (hQ : ∀ v', Frame [.billShares] v v' →
      v'.shares.map (fun s => (s.id, s.guestId)) = v.shares.map (fun s => (s.id, s.guestId)) →
      Q () v') : (payAllShares phone tenderId).commits Q v := by
  simp only [payAllShares, Txn.commits, Txn.wlp_bind, Txn.wlp_clock, Txn.wlp_exec]
  intro env _ _ _
  refine hQ _ (frame_applyAll (fun w hw => ?_) v) ?_
  · obtain ⟨s, _, rfl⟩ := List.mem_map.mp hw
    simp [Write.table]
  · have hkept : ∀ w ∈ v.shares.map fun s => Write.payShare s.id phone tenderId env.now,
        ∀ s : Store, (WriteTo.apply w s).shares.map (fun s => (s.id, s.guestId)) =
          s.shares.map fun s => (s.id, s.guestId) := by
      intro w hw s
      obtain ⟨share, _, rfl⟩ := List.mem_map.mp hw
      exact updateRows_map (fun s : BillShare => (s.id, s.guestId)) fun _ => rfl
    exact applyAll_frame (fun v : Store => v.shares.map fun s => (s.id, s.guestId)) hkept v

theorem takeAll_posts (hsettle : P .settle) (hpriced : v.Priced) (hwf : v.ledger.Wf) {b : Bill}
    (hb : v.bill = some b) (hopen : b.status = .open) (hon : v.simulatorOn = true) (bill : Bill)
    (order : Order) (session : TableSession) (phone : Option String) :
    (takeAll bill order session phone).commits (fun _ v' => Posts P v v') v := by
  simp only [takeAll, Txn.commits, Txn.wlp_bind]
  refine commits_takeWhole hpriced hwf hb hopen session bill bill.totalMinor ?_
  intro tid t intents v₁ hledger₁ hlines₁ hwf₁
  refine commits_payAllShares phone tid fun v₂ hframe hkeys => ?_
  refine commits_completeBill order fun b₂ b' v₃ hdone => ?_
  obtain ⟨hledger₂, hlines₂⟩ := hframe.ledger_rows (by decide)
  have htenders₁ : v₁.tenders = v.tenders ++ [t] := congrArg Ledger.tenders hledger₁
  have hbill₁ : v₁.bill = v.bill := congrArg Ledger.bill hledger₁
  rw [show v₂.bill = v₁.bill from hframe .bills (by decide),
    show v₂.tenders = v₁.tenders from hframe .tenders (by decide),
    show v₂.intents = v₁.intents from hframe .paymentIntents (by decide)] at hledger₂
  have hbill₂ : v₂.bill = some b := ((hframe .bills (by decide)).trans hbill₁).trans hb
  have hsame : b₂ = b := Option.some.inj (hdone.bill.symm.trans hbill₂)
  have hsettles : Settles b b' (v.tenders ++ [t]) := by
    rw [← htenders₁, ← show v₂.tenders = v₁.tenders from hframe .tenders (by decide), ← hsame]
    exact hdone.settles
  have hledger : v₃.ledger = { v.ledger with bill := some b', tenders := v.tenders ++ [t],
                                             intents := v₁.intents, shares := v₂.shares } := by
    rw [hdone.ledger, hledger₂, hledger₁, htenders₁]
  refine .of_move hpriced (hdone.lines.trans (hlines₂.trans hlines₁)) (e := .settle) ?_ hsettle
  rw [hledger]
  refine .settle v.ledger b b' [t] v₁.intents v₂.shares hb hsettles
    (fun hoff => absurd (hon.symm.trans hoff) (by simp)) fun _ => ?_
  have hids : v₂.shares.map (·.id) = v₁.shares.map (·.id) := by
    simpa [Function.comp_def] using congrArg (List.map Prod.fst) hkeys
  have hguests : v₂.shares.map (·.guestId) = v₁.shares.map (·.guestId) := by
    simpa [Function.comp_def] using congrArg (List.map Prod.snd) hkeys
  have hcaptured := hwf₁.captured
  rw [show v₁.ledger.tenders = v.tenders ++ [t] from htenders₁] at hcaptured
  exact { subtotal_nonneg := hwf.subtotal_nonneg
          no_bill := by simp
          intent_ids := hwf₁.intent_ids
          share_ids := by rw [hids]; exact hwf₁.share_ids
          share_guests := by rw [hguests]; exact hwf₁.share_guests
          captured := hcaptured }

theorem payAll_posts (hplain : P .plain) (hpriced : v.Priced) (hwf : v.ledger.Wf)
    (guest : GuestPrincipal) (dto : SimulatedPaymentDto)
    (hsettle : dto.simulatedOutcome = .success → P .settle) :
    (payAll guest dto).commits (fun _ v' => Posts P v v') v := by
  simp only [payAll, Txn.commits, Txn.wlp_bind, Txn.wlp_query]
  refine commits_preparePayment hpriced hwf guest fun b ts order session v₁ hprep => ?_
  intro _ _
  have hposts : Posts P v v₁ := hprep.posts.mono fun _ he => he ▸ hplain
  refine commits_raiseIf fun _ => ?_
  cases houtcome : dto.simulatedOutcome with
  | failure => exact commits_reads buildView_emits fun _ => hposts
  | success =>
      refine Txn.wlp_mono (takeAll_posts (hsettle houtcome) hposts.1 (hposts.wf hwf) hprep.bill hprep.isOpen
        hprep.simulator b order session dto.payerPhone) fun _ v₂ h => ?_
      exact commits_reads buildView_emits fun _ => hposts.trans h

end Guest

/-! ### Settings, and the table of all requests -/

section Table

variable {P : Entry → Prop} {v : Store}

/-- The lines and the rows of the books stay; the mode, the tax or the switch may not. -/
theorem switch_posts (houtside : P .outside) (hpriced : v.Priced) {v' : Store}
    (h : Frame [.tenants, .taxRegistrations, .environment, .auditEvents] v v') : Posts P v v' := by
  have hlines : v'.lines = v.lines := h .orderLines (by decide)
  have hledger : v'.ledger = { v.ledger with profile := v'.profile, simulator := v'.simulatorOn } := by
    simp [Store.ledger, Store.subtotal, Store.liveLines, hlines,
      show v'.bill = v.bill from h .bills (by decide),
      show v'.tenders = v.tenders from h .tenders (by decide),
      show v'.intents = v.intents from h .paymentIntents (by decide),
      show v'.shares = v.shares from h .billShares (by decide)]
  refine .of_move hpriced hlines (e := .outside) ?_ houtside
  rw [hledger]
  exact .switch v.ledger _ _

theorem emits_switch_posts (houtside : P .outside) (hpriced : v.Priced) {op : Op}
    (hop : ∀ t ∈ op.tables, t ∈ [Table.tenants, .taxRegistrations, .environment, .auditEvents]) :
    op.prog.commits (fun _ v' => Posts P v v') v :=
  Txn.wlp_mono (emits_wlp_frame op.emits (.all (fun _ => trivial) _) v) fun _ _ hframe =>
    switch_posts houtside hpriced (hframe.mono hop)

/-- The entries a request can make in the books. -/
def Op.mayPost : Op → Entry → Prop
  | .finalize .., e => e = .plain ∨ e = .settle
  | .createIntent _, e => e = .plain ∨ e = .raise
  | .simulate .., e => e = .plain ∨ ∃ amount late, e = .capture amount late
  | .payShare _ _ dto, e =>
      e = .plain ∨ dto.simulatedOutcome = .success ∧ ((∃ id, e = .share id) ∨ e = .settle)
  | .payAll _ dto, e => e = .plain ∨ dto.simulatedOutcome = .success ∧ e = .settle
  | .setMode .., e | .updateTaxRegistration _, e | .setPaymentsSimulator _, e => e = .outside
  | .changeSurroundings _, e => e = .outside
  | _, e => e = .plain

/-- **Every request keeps the books.** Run alone, a request takes the ledger through a
page of the entries it may make, and prices stay as they are kept. -/
theorem Op.posts (op : Op) (hpriced : v.Priced) (hwf : v.ledger.Wf) :
    op.prog.commits (fun _ v' => Posts op.mayPost v v') v := by
  have hmoney := hwf.noBillNoMoney
  have answered : ∀ {α : Type} {p : Tx α} {P : Entry → Prop},
      p.commits (fun _ v' => Posts P v v') v → p.void.commits (fun _ v' => Posts P v v') v :=
    fun h => (Txn.wlp_void ..).mpr h
  have edited : ∀ {p : Tx Unit}, p.commits (fun _ v' => Edited v v') v →
      p.commits (fun _ v' => Posts (· = .plain) v v') v :=
    fun h => Txn.wlp_mono h fun _ _ h => h.posts rfl
  cases op with
  | createBill staff name => exact answered (createBill_posts (P := (· = .plain)) rfl hpriced staff name)
  | getBill => exact answered (getBill_posts (P := (· = .plain)) rfl hpriced)
  | getInvoice => exact answered (getInvoice_posts (P := (· = .plain)) rfl hpriced)
  | printBill source => exact answered (printBill_posts (P := (· = .plain)) rfl hpriced source)
  | finalize staff dto authorize =>
      exact answered (Txn.wlp_mono (commits_finalize hpriced staff dto authorize) fun _ _ h => h.2)
  | refund staff dto authorize => exact answered (refund_posts hpriced staff dto authorize)
  | addLine staff name dto menu => exact edited (addLine_edits hpriced staff name dto menu)
  | addCombo staff name dto menu => exact edited (addCombo_edits hpriced staff name dto menu)
  | updateLine staff name lineId dto =>
      exact edited (updateLine_edits hpriced hmoney staff name lineId dto)
  | removeLine staff name lineId =>
      exact edited (removeLine_edits hpriced hmoney staff name lineId)
  | voidLine staff name lineId authorize =>
      exact edited (voidLine_edits hpriced hmoney staff name lineId authorize)
  | updateStatus staff name status =>
      exact emits_posts (updateStatus_emits staff name status) (by decide) hpriced
  | createIntent dto =>
      exact answered (createIntent_posts (Or.inl rfl) (Or.inr rfl) hpriced dto)
  | getIntent id => exact answered (getIntent_posts (P := (· = .plain)) rfl hpriced id)
  | cancelIntent id => exact answered (cancelIntent_posts (P := (· = .plain)) rfl hpriced id)
  | listPending staff outletId deviceId =>
      exact answered
        (listPending_posts (P := (· = .plain)) rfl hpriced staff outletId deviceId)
  | simulate id outcome =>
      refine answered (Txn.wlp_mono (commits_simulate hpriced hwf id outcome) ?_)
      rintro _ v' (h | h)
      · exact h.mono fun _ he => Or.inl he
      · exact h.posts (Or.inl rfl) (fun _ _ => Or.inr ⟨_, _, rfl⟩) hpriced
  | guestCreateBill guest =>
      exact answered (guestCreateBill_posts (P := (· = .plain)) rfl hpriced hwf guest)
  | guestGetBill guest =>
      exact answered (guestGetBill_posts (P := (· = .plain)) rfl hpriced hwf guest)
  | guestGetInvoice guest =>
      exact answered (guestGetInvoice_posts (P := (· = .plain)) rfl hpriced guest)
  | payShare guest guestId dto =>
      exact answered (payShare_posts (Or.inl rfl) hpriced hwf guest guestId dto
        (fun h _ => Or.inr ⟨h, Or.inl ⟨_, rfl⟩⟩) fun h => Or.inr ⟨h, Or.inr rfl⟩)
  | payAll guest dto =>
      exact answered (payAll_posts (Or.inl rfl) hpriced hwf guest dto fun h => Or.inr ⟨h, rfl⟩)
  | setMode operatorId mode reason =>
      exact emits_switch_posts (P := (· = .outside)) rfl hpriced (by simp [Op.tables])
  | updateTaxRegistration dto =>
      exact emits_switch_posts (P := (· = .outside)) rfl hpriced (by simp [Op.tables])
  | setPaymentsSimulator on =>
      exact emits_switch_posts (P := (· = .outside)) rfl hpriced (by simp [Op.tables])
  | changeSurroundings around =>
      exact emits_switch_posts (P := (· = .outside)) rfl hpriced (by simp [Op.tables])

end Table

/-- An order before its bill: no bill, so nothing on it, and prices that are prices. -/
structure Store.Placed (v : Store) : Prop where
  priced : v.Priced
  bill : v.bill = none
  tenders : v.tenders = []
  intents : v.intents = []
  shares : v.shares = []
  creditNotes : v.creditNotes = []

theorem Store.Placed.wf {v : Store} (h : v.Placed) : v.ledger.Wf where
  subtotal_nonneg := h.priced.subtotal_nonneg
  no_bill _ := ⟨h.tenders, h.intents, h.shares⟩
  intent_ids := by simp [Store.ledger, h.intents]
  share_ids := by simp [Store.ledger, h.shares]
  share_guests := by simp [Store.ledger, h.shares]
  captured := by simp [Store.ledger, h.tenders]

theorem sampleOrder_placed : sampleOrder.Placed where
  priced := ⟨by decide, by decide⟩
  bill := rfl
  tenders := rfl
  intents := rfl
  shares := rfl
  creditNotes := rfl

/-- A step posts what its request may. -/
theorem Op.Step.posts {op : Op} {v v' : Store} (h : op.Step v v') (hpriced : v.Priced)
    (hwf : v.ledger.Wf) : Posts op.mayPost v v' :=
  h.post (.refl hpriced) (op.posts hpriced hwf)

/-- What every move keeps, for the requests that make them, every run keeps. -/
theorem Runs.ledger_preserves {P : Op → Prop} {I : Ledger → Prop} {v v' : Store} (h : Runs P v v')
    (hI : ∀ op e L L', P op → op.mayPost e → L.Wf → I L → L.Move e L' → I L') (hpriced : v.Priced)
    (hwf : v.ledger.Wf) (hv : I v.ledger) : v'.Priced ∧ v'.ledger.Wf ∧ I v'.ledger := by
  refine h.preserves (I := fun v => v.Priced ∧ v.ledger.Wf ∧ I v.ledger) ?_ ⟨hpriced, hwf, hv⟩
  rintro op v v' hop ⟨hpriced, hwf, hv⟩ hstep
  have hposts := hstep.posts hpriced hwf
  refine ⟨hposts.1, hposts.wf hwf, ?_⟩
  obtain ⟨_, es, hes, hP⟩ := hposts
  exact hes.preserves_of (fun e L L' he => hI op e L L' hop (hP e he)) hwf hv

end RestiqBackend
