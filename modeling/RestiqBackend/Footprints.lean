import RestiqBackend.Service

/-!
The tables that every program writes.

Read off the statements, program by program: what a request can touch at all, in
whatever order its statements and those of others are carried out. A result that
looks at one table skips the programs that do not write it.
-/

namespace RestiqBackend

open ReadCommitted

theorem emits_within {α : Type} {p : Tx α} {ts ts' : List Table} (h : p.Emits (Touching ts))
    (hts : ∀ t ∈ ts, t ∈ ts') : p.Emits (Touching ts') :=
  h.mono fun _ hl w hw => hts _ (hl w hw)

/-- What only reads, wherever it stands. -/
theorem emits_reads {α : Type} {p : Tx α} {ts : List Table} (h : p.Emits (Touching [])) :
    p.Emits (Touching ts) :=
  emits_within h (by simp)

theorem emits_void {α : Type} {p : Tx α} {ts : List Table} (h : p.Emits (Touching ts)) :
    p.void.Emits (Touching ts) :=
  Txn.Emits.bind h fun _ => trivial

theorem emits_any {α : Type} (p : Tx α) : p.Emits fun _ => True := by
  induction p with
  | done a => trivial
  | fail e => trivial
  | stmt f k ih => exact ⟨fun _ _ => trivial, ih⟩

/-! ### Bills -/

theorem loadBill_emits : loadBill.Emits (Touching []) := by
  refine (emits_query _).bind fun loaded => ?_
  cases loaded <;> trivial

theorem lockBill_emits : lockBill.Emits (Touching []) := emits_exec (by simp)

theorem loadTenantTaxProfile_emits : loadTenantTaxProfile.Emits (Touching []) :=
  (emits_query _).bind fun _ => (emits_query _).bind fun _ => trivial

theorem computeTaxOn_emits (taxable : ℤ) : (computeTaxOn taxable).Emits (Touching []) :=
  loadTenantTaxProfile_emits.bind fun _ => trivial

theorem computeSubtotal_emits : computeSubtotal.Emits (Touching []) :=
  ⟨fun _ _ => by simp [Touching], fun _ => trivial⟩

theorem computeBillTotals_emits : computeBillTotals.Emits (Touching []) :=
  computeSubtotal_emits.bind fun _ => (computeTaxOn_emits _).bind fun _ => trivial

theorem updateBillTotals_emits (subtotal : ℤ) (tax : TaxResult) :
    (updateBillTotals subtotal tax).Emits (Touching [.bills]) := by
  refine Txn.Emits.bind ⟨fun _ _ => by simp [Touching, Write.table], fun _ => trivial⟩ fun bill => ?_
  cases bill <;> trivial

theorem refreshOpenBillTotals_emits (bill : BillWithTenders) :
    (refreshOpenBillTotals bill).Emits (Touching [.bills]) :=
  .ite trivial ((emits_reads computeBillTotals_emits).bind fun _ =>
    .ite trivial (updateBillTotals_emits _ _))

theorem createOrGetBillRecord_emits (params : CreateBillParams) :
    (createOrGetBillRecord params).Emits (Touching [.bills]) := by
  refine (emits_query _).bind fun existing => ?_
  cases existing with
  | some existing => exact (refreshOpenBillTotals_emits existing).bind fun _ => trivial
  | none =>
      refine (emits_raiseIf ..).bind fun _ => (emits_reads computeBillTotals_emits).bind fun _ => ?_
      refine emits_uuid.bind fun _ => (emits_writeWhen (by simp [Write.table])).bind fun _ => ?_
      refine .ite trivial ((emits_query _).bind fun raced => ?_)
      cases raced <;> trivial

theorem createTenderRecord_emits (params : TenderParams) :
    (createTenderRecord params).Emits (Touching [.tenders]) :=
  emits_uuid.bind fun _ =>
    .ite ((emits_insertRow (by simp [Write.table])).bind fun _ => trivial) trivial

theorem assertNothingPending_emits : assertNothingPending.Emits (Touching []) :=
  emits_clock.bind fun _ =>
    Txn.Emits.bind ⟨fun _ _ => by simp [Touching], fun _ => trivial⟩ fun _ => emits_raiseIf ..

theorem assertNotSimulated_emits : assertNotSimulated.Emits (Touching []) :=
  (emits_query _).bind fun _ =>
    .ite trivial ((emits_query _).bind fun _ => emits_raiseIf ..)

theorem discountedTax_emits (subtotal discount : ℤ) :
    (discountedTax subtotal discount).Emits (Touching []) :=
  .ite ((computeTaxOn_emits _).bind fun _ => trivial) trivial

theorem assertCovered_emits (total : ℤ) : (assertCovered total).Emits (Touching []) := by
  have hcountry : ∀ cash, (cashCountry cash).Emits (Touching []) := fun _ =>
    .ite (emits_query _) trivial
  exact (emits_query _).bind fun _ =>
    .ite (emits_ofExcept _) ((hcountry _).bind fun _ => emits_ofExcept _)

theorem checkSettlement_emits (params : CommitFinalizeParams) :
    (checkSettlement params).Emits (Touching []) :=
  (emits_raiseIf ..).bind fun _ => assertNothingPending_emits.bind fun _ =>
    assertNotSimulated_emits.bind fun _ => (emits_raiseIf ..).bind fun _ =>
    (discountedTax_emits _ _).bind fun _ => (assertCovered_emits _).bind fun _ => trivial

/-- The tables that a settlement writes. -/
def settlementTables : List Table :=
  [.bills, .billNumberCounters, .tickets, .orders, .tenants, .auditEvents]

theorem writeSettlement_emits (params : CommitFinalizeParams) (roundOff : Option ℤ)
    (tax : Option TaxResult) :
    (writeSettlement params roundOff tax).Emits (Touching settlementTables) := by
  have hcounter : upsertBillNumberCounter.Emits (Touching settlementTables) :=
    ⟨fun _ _ => by simp [Touching, Write.table, settlementTables], fun _ => trivial⟩
  refine hcounter.bind fun _ => emits_clock.bind fun _ => ?_
  refine (emits_writeWhen (by simp [Write.table, settlementTables])).bind fun _ => ?_
  refine (emits_raiseIf ..).bind fun _ => (emits_within (fireOnSend_emits _) (by decide)).bind ?_
  refine fun _ => (emits_exec (by simp [Write.table, settlementTables])).bind fun _ => ?_
  exact (emits_within goLiveOnFirstSale_emits (by decide)).bind fun _ => emits_reads loadBill_emits

theorem commitFinalize_emits (params : CommitFinalizeParams) :
    (commitFinalize params).Emits (Touching settlementTables) :=
  (emits_reads (checkSettlement_emits params)).bind fun _ => writeSettlement_emits ..

/-! ### Order lines -/

theorem loadOpenOrder_emits (staff : PosPrincipal) (name : String) :
    (loadOpenOrder staff name).Emits (Touching []) :=
  (emits_query _).bind fun _ => (emits_raiseIf ..).bind fun _ => (emits_raiseIf ..).bind fun _ =>
    trivial

theorem loadOrderLine_emits (id : ℕ) : (loadOrderLine id).Emits (Touching []) := by
  refine (emits_query _).bind fun line => ?_
  split <;> trivial

theorem lineAndChildIds_emits (line : OrderLine) : (lineAndChildIds line).Emits (Touching []) :=
  (emits_query _).bind fun _ => trivial

theorem assertLineNotSent_emits (line : OrderLine) : (assertLineNotSent line).Emits (Touching []) :=
  (lineAndChildIds_emits line).bind fun _ => (emits_query _).bind fun _ => emits_raiseIf ..

theorem assertNotComboLine_emits (line : OrderLine) (action : ComboAction) :
    (assertNotComboLine line action).Emits (Touching []) :=
  (emits_raiseIf ..).bind fun _ => emits_raiseIf ..

theorem assertBillHasNoPayments_emits : assertBillHasNoPayments.Emits (Touching []) :=
  (emits_query _).bind fun _ =>
    .ite (lockBill_emits.bind fun _ => (emits_query _).bind fun _ => emits_raiseIf ..) trivial

theorem assertReduction_emits (reduces : Bool) : (assertReduction reduces).Emits (Touching []) :=
  .ite assertBillHasNoPayments_emits trivial

theorem createLine_emits (line : OrderLine) (modifiers : List OrderLineModifier) :
    (createLine line modifiers).Emits (Touching [.orderLines]) :=
  (emits_insertRow (by simp [Write.table])).bind fun _ =>
    .forEach fun _ _ => emits_exec (by simp [Write.table])

theorem addLine_emits (staff : PosPrincipal) (name : String) (dto : AddOrderLineDto)
    (menu : Except ApiError PricedItem) :
    (addLine staff name dto menu).Emits (Touching [.orderLines]) :=
  (emits_reads (loadOpenOrder_emits ..)).bind fun _ => (emits_ofExcept _).bind fun _ =>
    emits_uuid.bind fun _ => createLine_emits _ _

theorem addCombo_emits (staff : PosPrincipal) (name : String) (dto : AddComboLineDto)
    (menu : Except ApiError ComboSelection) :
    (addCombo staff name dto menu).Emits (Touching [.orderLines]) :=
  (emits_reads (loadOpenOrder_emits ..)).bind fun _ => (emits_ofExcept _).bind fun _ =>
    emits_uuid.bind fun _ => (createLine_emits _ _).bind fun _ =>
    .forEach fun _ _ => emits_uuid.bind fun _ => createLine_emits _ _

theorem updateLine_emits (staff : PosPrincipal) (name : String) (id : ℕ)
    (dto : UpdateOrderLineDto) :
    (updateLine staff name id dto).Emits (Touching [.orderLines]) := by
  have hwrite : ∀ w : Write, w.table = .orderLines →
      Txn.Emits (Touching [.orderLines]) (do
        let updated ← Txn.writeWhen (fun v => v.lines.any (·.id = id)) [.line id] [w]
        if updated then pure () else Txn.throw internalError : Tx Unit) := fun w hw =>
    (emits_writeWhen (by simpa using hw)).bind fun _ => .ite trivial trivial
  refine (emits_reads (loadOpenOrder_emits ..)).bind fun _ =>
    (emits_reads (loadOrderLine_emits id)).bind fun line =>
    (emits_reads (assertNotComboLine_emits ..)).bind fun _ =>
    (emits_reads (assertLineNotSent_emits line)).bind fun _ =>
    (emits_reads (assertReduction_emits _)).bind fun _ => ?_
  refine (emits_whenGiven fun _ => hwrite _ rfl).bind fun _ =>
    (emits_whenGiven fun _ => hwrite _ rfl).bind fun _ => emits_whenGiven fun menu => ?_
  refine (emits_ofExcept _).bind fun modifiers => (emits_query _).bind fun _ =>
    (emits_reads (assertReduction_emits _)).bind fun _ => ?_
  exact (emits_exec (by simp [Write.table])).bind fun _ =>
    .forEach fun _ _ => emits_exec (by simp [Write.table])

theorem removeLine_emits (staff : PosPrincipal) (name : String) (id : ℕ) :
    (removeLine staff name id).Emits (Touching [.orderLines]) :=
  (emits_reads (loadOpenOrder_emits ..)).bind fun _ =>
    (emits_reads (loadOrderLine_emits id)).bind fun line =>
    (emits_reads (assertNotComboLine_emits ..)).bind fun _ =>
    (emits_reads (assertLineNotSent_emits line)).bind fun _ =>
    (emits_reads assertBillHasNoPayments_emits).bind fun _ =>
    (emits_writeWhen (by simp [Write.table])).bind fun _ => .ite trivial trivial

theorem recordApproval_emits (approval : ManagerApproval) (action : String) (actorId : ℕ) :
    (recordApproval approval action actorId).Emits (Touching [.auditEvents]) :=
  emits_exec (by simp [Write.table])

theorem voidLine_emits (staff : PosPrincipal) (name : String) (id : ℕ)
    (authorize : Except ApiError ManagerApproval) :
    (voidLine staff name id authorize).Emits (Touching [.orderLines, .tickets, .auditEvents]) :=
  (emits_reads (loadOpenOrder_emits ..)).bind fun _ =>
    (emits_reads (loadOrderLine_emits id)).bind fun line => (emits_raiseIf ..).bind fun _ =>
    (emits_reads (lineAndChildIds_emits line)).bind fun _ => (emits_query _).bind fun _ =>
    (emits_raiseIf ..).bind fun _ => (emits_reads assertBillHasNoPayments_emits).bind fun _ =>
    (emits_ofExcept _).bind fun _ => emits_clock.bind fun _ =>
    (emits_exec (by simp [Write.table])).bind fun _ =>
    (emits_exec (by simp [Write.table])).bind fun _ =>
    emits_within (recordApproval_emits ..) (by decide)

/-! ### Payment intents -/

theorem findIntent_emits (id : ℕ) : (findIntent id).Emits (Touching []) := by
  refine (emits_query _).bind fun row => ?_
  cases row <;> trivial

theorem loadIntent_emits (id : ℕ) : (loadIntent id).Emits (Touching []) := by
  refine (emits_query _).bind fun row => ?_
  cases row <;> trivial

theorem updateIntentWhere_emits (id : ℕ) (guard : PaymentIntentStatus → Bool)
    (status : PaymentIntentStatus) (reason : Option String) (at_ : Option ℤ) :
    (updateIntentWhere id guard status reason at_).Emits (Touching [.paymentIntents]) :=
  emits_writeWhen (by simp [Write.table])

theorem expireIfDue_emits (row : IntentRow) :
    (expireIfDue row).Emits (Touching [.paymentIntents]) :=
  emits_clock.bind fun _ => .ite trivial
    ((updateIntentWhere_emits ..).bind fun _ => emits_reads (findIntent_emits _))

theorem confirmIntent_emits (id : ℕ) :
    (confirmIntent id).Emits (Touching [.paymentIntents, .tenders, .auditEvents]) := by
  refine (emits_reads (findIntent_emits id)).bind fun _ => (emits_reads lockBill_emits).bind fun _ =>
    (emits_query _).bind fun _ => (emits_raiseIf ..).bind fun _ => emits_clock.bind fun _ =>
    (emits_within (updateIntentWhere_emits ..) (by decide)).bind fun _ =>
    (emits_reads (findIntent_emits id)).bind fun _ => .ite trivial ?_
  refine (emits_reads loadBill_emits).bind fun _ => .ite ?_ ?_
  · exact (emits_exec (by simp [Write.table])).bind fun _ =>
      (emits_exec (by simp [Write.table])).bind fun _ => emits_reads (findIntent_emits id)
  · exact (emits_within (createTenderRecord_emits _) (by decide)).bind fun _ =>
      emits_reads (findIntent_emits id)

theorem linkedPeripheral_emits (source : Option ℕ) (type : DeviceType) :
    (linkedPeripheral source type).Emits (Touching []) := by
  cases source with
  | none => trivial
  | some pos => exact emits_query _

theorem queueFor_emits (deviceId : Option ℕ) (type : DeviceType) :
    (queueFor deviceId type).Emits (Touching []) := by
  cases deviceId with
  | none => trivial
  | some id => exact emits_query _

theorem assertNoActiveIntent_emits : assertNoActiveIntent.Emits (Touching [.paymentIntents]) := by
  refine (emits_query _).bind fun active => ?_
  cases active with
  | none => trivial
  | some row => exact (expireIfDue_emits row).bind fun _ => emits_raiseIf ..

theorem routeToTerminal_emits (outletId : ℕ) (deviceId : Option ℕ) :
    (routeToTerminal outletId deviceId).Emits (Touching []) := by
  refine (linkedPeripheral_emits ..).bind fun target => ?_
  cases target with
  | some target => trivial
  | none => exact (emits_query _).bind fun _ => (emits_raiseIf ..).bind fun _ => trivial

theorem insertIntent_emits (dto : CreatePaymentIntentDto) (target : Option ℕ) :
    (insertIntent dto target).Emits (Touching [.paymentIntents]) :=
  (emits_query _).bind fun _ => emits_uuid.bind fun _ => emits_clock.bind fun _ =>
    (emits_writeWhen (by simp [Write.table])).bind fun _ => .ite trivial trivial

theorem createIntent_emits (dto : CreatePaymentIntentDto) :
    (createIntent dto).Emits (Touching [.bills, .paymentIntents]) := by
  refine (emits_query _).bind fun _ => (emits_raiseIf ..).bind fun _ =>
    (emits_reads lockBill_emits).bind fun _ => (emits_reads loadBill_emits).bind fun _ =>
    (emits_within (refreshOpenBillTotals_emits _) (by decide)).bind fun _ =>
    (emits_raiseIf ..).bind fun _ => (emits_query _).bind fun _ => (emits_raiseIf ..).bind fun _ =>
    (emits_query _).bind fun existing => ?_
  cases existing with
  | some row => exact (emits_within (expireIfDue_emits row) (by decide)).bind fun _ => trivial
  | none =>
      exact (emits_raiseIf ..).bind fun _ =>
        (emits_within assertNoActiveIntent_emits (by decide)).bind fun _ =>
        (emits_reads (routeToTerminal_emits ..)).bind fun _ =>
        emits_within (insertIntent_emits ..) (by decide)

theorem cancelIntent_emits (id : ℕ) : (cancelIntent id).Emits (Touching [.paymentIntents]) :=
  (emits_reads (loadIntent_emits id)).bind fun row => (expireIfDue_emits row).bind fun _ =>
    (emits_raiseIf ..).bind fun _ => .ite trivial
      ((updateIntentWhere_emits ..).bind fun _ => emits_reads (findIntent_emits id))

theorem sweepDueIntents_emits : sweepDueIntents.Emits (Touching [.paymentIntents]) :=
  emits_clock.bind fun _ => (emits_query _).bind fun _ => .forEach fun _ _ =>
    Txn.Emits.bind (updateIntentWhere_emits ..) fun _ => trivial

theorem listPendingForOutlet_emits (staff : PosPrincipal) (outletId : ℕ) (deviceId : Option ℕ) :
    (listPendingForOutlet staff outletId deviceId).Emits (Touching [.paymentIntents]) := by
  have hsweep : ∀ own, (sweepOwn own).Emits (Touching [.paymentIntents]) := fun _ =>
    .ite sweepDueIntents_emits trivial
  exact (emits_raiseIf ..).bind fun _ => (emits_query _).bind fun own => (hsweep own).bind fun _ =>
    (emits_reads (queueFor_emits ..)).bind fun _ => emits_query _

theorem simulate_emits (id : ℕ) (outcome : SimulatedOutcome) :
    (simulate id outcome).Emits (Touching [.paymentIntents, .tenders, .auditEvents]) := by
  refine (emits_reads (loadIntent_emits id)).bind fun row => (emits_query _).bind fun _ =>
    (emits_raiseIf ..).bind fun _ => ?_
  cases outcome with
  | success => exact .ite trivial (.ite trivial (confirmIntent_emits id))
  | failure =>
      exact (emits_within (expireIfDue_emits row) (by decide)).bind fun _ => .ite trivial
        (.ite trivial ((emits_within (updateIntentWhere_emits ..) (by decide)).bind fun _ =>
          emits_reads (findIntent_emits id)))

/-! ### The staff's bills -/

theorem assertMayOpen_emits (order : Order) (staff : PosPrincipal) (name : String) :
    (assertMayOpen order staff name).Emits (Touching []) :=
  .ite trivial (emits_raiseIf ..)

theorem createBill_emits (staff : PosPrincipal) (name : String) :
    (createBill staff name).Emits (Touching [.bills]) :=
  (emits_query _).bind fun _ => (emits_reads (assertMayOpen_emits ..)).bind fun _ =>
    createOrGetBillRecord_emits _

theorem getBill_emits : getBill.Emits (Touching [.bills]) :=
  (emits_reads loadBill_emits).bind fun _ => refreshOpenBillTotals_emits _

theorem buildInvoiceView_emits : buildInvoiceView.Emits (Touching [.bills]) :=
  (emits_reads loadBill_emits).bind fun _ => (refreshOpenBillTotals_emits _).bind fun _ =>
    (emits_query _).bind fun _ =>
    (emits_reads loadTenantTaxProfile_emits).bind fun _ =>
    (emits_query _).bind fun _ => (emits_query _).bind fun _ => trivial

theorem printBill_emits (source : Option ℕ) :
    (printBill source).Emits (Touching [.bills, .printJobs]) := by
  refine (emits_reads loadBill_emits).bind fun _ =>
    (emits_within buildInvoiceView_emits (by decide)).bind fun _ =>
    (emits_reads (linkedPeripheral_emits ..)).bind fun target =>
    (emits_exec (by simp [Write.table])).bind fun _ => ?_
  cases target with
  | some target => trivial
  | none => exact emits_query _

theorem approveDiscount_emits (subtotalMinor : ℤ) (dto : FinalizeBillDto)
    (authorize : Except ApiError ManagerApproval) :
    (approveDiscount subtotalMinor dto authorize).Emits (Touching []) := by
  unfold approveDiscount
  cases dto.discountMinor with
  | none => trivial
  | some discountMinor =>
      exact .ite trivial ((emits_raiseIf ..).bind fun _ => (emits_ofExcept _).bind fun _ => trivial)

theorem assertShiftForCash_emits (tenders : List TenderDto) :
    (assertShiftForCash tenders).Emits (Touching []) :=
  .ite ((emits_query _).bind fun _ => emits_raiseIf ..) trivial

theorem takeTender_emits (tender : TenderDto) : (takeTender tender).Emits (Touching [.tenders]) :=
  (emits_raiseIf ..).bind fun _ => Txn.Emits.bind (createTenderRecord_emits _) fun _ => trivial

theorem finalize_emits (staff : PosPrincipal) (dto : FinalizeBillDto)
    (authorize : Except ApiError ManagerApproval) :
    (finalize staff dto authorize).Emits (Touching (.tenders :: settlementTables)) :=
  (emits_raiseIf ..).bind fun _ => (emits_reads lockBill_emits).bind fun _ =>
    (emits_reads loadBill_emits).bind fun _ =>
    (emits_within (refreshOpenBillTotals_emits _) (by decide)).bind fun _ =>
    (emits_raiseIf ..).bind fun _ => (emits_reads (approveDiscount_emits ..)).bind fun _ =>
    (emits_reads (assertShiftForCash_emits _)).bind fun _ =>
    (emits_within (.forEach fun tender _ => takeTender_emits tender) (by decide)).bind fun _ =>
    (emits_within (commitFinalize_emits _) (by decide)).bind fun _ =>
    (emits_whenGiven fun _ => emits_within (recordApproval_emits ..) (by decide)).bind fun _ => trivial

theorem assertPinGiven_emits (staff : PosPrincipal) (pin : Option String) :
    (assertPinGiven staff pin).Emits (Touching []) :=
  .ite trivial (.ite trivial trivial)

theorem refund_emits (staff : PosPrincipal) (dto : RefundBillDto)
    (authorize : Except ApiError ManagerApproval) :
    (refund staff dto authorize).Emits (Touching [.bills, .creditNotes, .auditEvents]) :=
  (emits_reads (assertPinGiven_emits ..)).bind fun _ => (emits_reads lockBill_emits).bind fun _ =>
    (emits_reads loadBill_emits).bind fun _ =>
    (emits_within (refreshOpenBillTotals_emits _) (by decide)).bind fun _ =>
    (emits_raiseIf ..).bind fun _ => (emits_query _).bind fun _ => (emits_query _).bind fun _ =>
    (emits_ofExcept _).bind fun _ => (emits_ofExcept _).bind fun _ => (emits_query _).bind fun _ =>
    (emits_ofExcept _).bind fun _ => emits_uuid.bind fun _ => emits_clock.bind fun _ =>
    (emits_insertRow (by simp [Write.table])).bind fun _ =>
    (emits_within (recordApproval_emits ..) (by decide)).bind fun _ => trivial

/-! ### The guests' bills -/

theorem createMissingShares_emits (weights : List GuestWeight) (shares : List BillShare) :
    (createMissingShares weights shares).Emits (Touching [.billShares]) := by
  induction weights generalizing shares with
  | nil => trivial
  | cons weight weights ih =>
      exact .ite (ih shares) (emits_uuid.bind fun _ => emits_clock.bind fun _ =>
        (emits_insertRow (by simp [Write.table])).bind fun _ => ih _)

theorem setShareAmount_emits (share : BillShare) (amountMinor : ℤ) :
    (setShareAmount share amountMinor).Emits (Touching [.billShares]) :=
  .ite trivial ((emits_writeWhen (by simp [Write.table])).bind fun _ => .ite trivial trivial)

theorem syncShares_emits (bill : BillWithTenders) : (syncShares bill).Emits (Touching [.billShares]) :=
  .ite trivial ((emits_query _).bind fun _ => (emits_query _).bind fun _ =>
    (createMissingShares_emits ..).bind fun _ => (emits_raiseIf ..).bind fun _ =>
    .forEach fun _ _ => setShareAmount_emits ..)

theorem guestView_emits (bill : BillWithTenders) : (guestView bill).Emits (Touching []) :=
  (emits_query _).bind fun _ => (emits_query _).bind fun _ => trivial

theorem loadOrderForSession_emits (guest : GuestPrincipal) :
    (loadOrderForSession guest).Emits (Touching []) :=
  (emits_query _).bind fun _ => (emits_raiseIf ..).bind fun _ => trivial

theorem assertSessionActive_emits (guest : GuestPrincipal) :
    (assertSessionActive guest).Emits (Touching []) := by
  refine (emits_query _).bind fun session => ?_
  cases session with
  | none => trivial
  | some session =>
      exact emits_clock.bind fun _ => (emits_raiseIf ..).bind fun _ => trivial

theorem guestCreateBill_emits (guest : GuestPrincipal) :
    (guestCreateBill guest).Emits (Touching [.bills, .billShares]) :=
  (emits_reads (assertSessionActive_emits guest)).bind fun _ =>
    (emits_reads (loadOrderForSession_emits guest)).bind fun _ =>
    (emits_within (createOrGetBillRecord_emits _) (by decide)).bind fun _ =>
    (emits_within (syncShares_emits _) (by decide)).bind fun _ =>
    (emits_reads (guestView_emits _)).bind fun _ => trivial

theorem guestGetBill_emits (guest : GuestPrincipal) :
    (guestGetBill guest).Emits (Touching [.bills, .billShares]) :=
  (emits_reads (loadOrderForSession_emits guest)).bind fun _ => (emits_query _).bind fun _ =>
    (emits_raiseIf ..).bind fun _ => (emits_reads loadBill_emits).bind fun _ =>
    (emits_within (refreshOpenBillTotals_emits _) (by decide)).bind fun _ =>
    (emits_within (syncShares_emits _) (by decide)).bind fun _ => emits_reads (guestView_emits _)

theorem guestGetInvoice_emits (guest : GuestPrincipal) :
    (guestGetInvoice guest).Emits (Touching [.bills]) :=
  (emits_reads loadBill_emits).bind fun _ => (emits_reads (loadOrderForSession_emits guest)).bind
    fun _ => (emits_raiseIf ..).bind fun _ => buildInvoiceView_emits

theorem preparePayment_emits (guest : GuestPrincipal) :
    (preparePayment guest).Emits (Touching [.bills, .billShares]) :=
  (Txn.Emits.bind (emits_query _) fun _ => emits_raiseIf ..).bind fun _ =>
    (emits_reads lockBill_emits).bind fun _ => (emits_reads loadBill_emits).bind fun _ =>
    (emits_within (refreshOpenBillTotals_emits _) (by decide)).bind fun _ =>
    (emits_reads (loadOrderForSession_emits guest)).bind fun _ => (emits_raiseIf ..).bind fun _ =>
    (emits_reads (assertSessionActive_emits guest)).bind fun _ =>
    (emits_within (syncShares_emits _) (by decide)).bind fun _ => trivial

theorem completeBill_emits (order : Order) :
    (completeBill order).Emits (Touching (.tableSessions :: settlementTables)) :=
  (emits_reads loadBill_emits).bind fun _ =>
    (emits_within (commitFinalize_emits _) (by decide)).bind fun _ =>
    .ite (emits_exec (by simp [Write.table])) trivial

theorem buildView_emits : buildView.Emits (Touching []) :=
  loadBill_emits.bind fun bill => guestView_emits bill

theorem markSharePaid_emits (share : BillShare) (phone : Option String) (tenderId : ℕ) :
    (markSharePaid share phone tenderId).Emits (Touching [.billShares]) :=
  emits_clock.bind fun _ => (emits_writeWhen (by simp [Write.table])).bind fun _ =>
    .ite trivial trivial

/-- The tables that a guest's payment writes. -/
def guestPaymentTables : List Table :=
  [.tenders, .paymentIntents, .billShares, .tableSessions] ++ settlementTables

theorem onSuccess_emits (outcome : SimulatedOutcome) {p : Tx Unit} {ts : List Table}
    (h : p.Emits (Touching ts)) : (onSuccess outcome p).Emits (Touching ts) := by
  cases outcome with
  | success => exact h
  | failure => trivial

theorem takeShare_emits (order : Order) (share : BillShare) (phone : Option String) :
    (takeShare order share phone).Emits (Touching guestPaymentTables) :=
  (emits_within (createTenderRecord_emits _) (by decide)).bind fun _ =>
    (emits_within (markSharePaid_emits ..) (by decide)).bind fun _ => (emits_query _).bind fun _ =>
    .ite (emits_within (completeBill_emits order) (by decide)) trivial

theorem payShare_emits (guest : GuestPrincipal) (guestId : ℕ) (dto : SimulatedPaymentDto) :
    (payShare guest guestId dto).Emits (Touching guestPaymentTables) := by
  refine (emits_within (preparePayment_emits guest) (by decide)).bind fun _ =>
    (emits_query _).bind fun share => ?_
  cases share with
  | none => trivial
  | some share =>
      exact (emits_raiseIf ..).bind fun _ => (onSuccess_emits _ (takeShare_emits ..)).bind fun _ =>
        emits_reads buildView_emits

theorem payByKioskCard_emits (bill : Bill) (amountMinor : ℤ) :
    (payByKioskCard bill amountMinor).Emits
      (Touching [.paymentIntents, .tenders, .auditEvents]) := by
  refine (emits_query _).bind fun _ => emits_uuid.bind fun _ => emits_clock.bind fun _ =>
    (emits_insertRow (by simp [Write.table])).bind fun _ =>
    (confirmIntent_emits _).bind fun confirmed => ?_
  split <;> trivial

theorem takeWhole_emits (session : TableSession) (bill : Bill) (total : ℤ) :
    (takeWhole session bill total).Emits
      (Touching [.paymentIntents, .tenders, .auditEvents]) := by
  unfold takeWhole
  cases session.tableId with
  | none => exact payByKioskCard_emits bill total
  | some tableId =>
      exact (emits_within (createTenderRecord_emits _) (by decide)).bind fun _ => trivial

theorem payAllShares_emits (phone : Option String) (tenderId : ℕ) :
    (payAllShares phone tenderId).Emits (Touching [.billShares]) :=
  emits_clock.bind fun _ => emits_exec fun v w hw => by
    obtain ⟨s, _, rfl⟩ := List.mem_map.mp hw
    simp [Write.table]

theorem takeAll_emits (bill : Bill) (order : Order) (session : TableSession)
    (phone : Option String) :
    (takeAll bill order session phone).Emits (Touching guestPaymentTables) :=
  (emits_within (takeWhole_emits ..) (by decide)).bind fun _ =>
    (emits_within (payAllShares_emits ..) (by decide)).bind fun _ =>
    emits_within (completeBill_emits order) (by decide)

theorem payAll_emits (guest : GuestPrincipal) (dto : SimulatedPaymentDto) :
    (payAll guest dto).Emits (Touching guestPaymentTables) :=
  (emits_within (preparePayment_emits guest) (by decide)).bind fun _ =>
    (emits_query _).bind fun _ => (emits_raiseIf ..).bind fun _ =>
    (onSuccess_emits _ (takeAll_emits ..)).bind fun _ => emits_reads buildView_emits

/-! ### The tenant, the order and the surroundings -/

theorem setMode_emits (operatorId : ℕ) (mode : Mode) (reason : String) :
    (setMode operatorId mode reason).Emits (Touching [.tenants, .auditEvents]) := by
  have hnext : ∀ current, (nextLiveSince current mode).Emits (Touching []) := by
    intro current
    cases mode with
    | test => exact (emits_query _).bind fun _ => (emits_raiseIf ..).bind fun _ => trivial
    | live => exact emits_clock.bind fun _ => trivial
  exact (emits_query _).bind fun _ => (emits_raiseIf ..).bind fun _ =>
    (emits_reads (hnext _)).bind fun _ => (emits_exec (by simp [Write.table])).bind fun _ =>
    (emits_exec (by simp [Write.table])).bind fun _ => trivial

theorem updateTaxRegistration_emits (dto : UpdateTaxRegistrationDto) :
    (updateTaxRegistration dto).Emits (Touching [.taxRegistrations]) :=
  (emits_query _).bind fun _ => (emits_query _).bind fun _ => (emits_raiseIf ..).bind fun _ =>
    (emits_raiseIf ..).bind fun _ => (emits_exec (by simp [Write.table])).bind fun _ => trivial

theorem updateStatus_emits (staff : PosPrincipal) (name : String) (status : OrderStatus) :
    (updateStatus staff name status).Emits (Touching [.orders, .tickets]) := by
  have hfire : ∀ outletId, (fireOnSend outletId).Emits (Touching [.orders, .tickets]) :=
    fun outletId => emits_within (fireOnSend_emits outletId) (by decide)
  exact (emits_query _).bind fun _ => (emits_raiseIf ..).bind fun _ =>
    .ite ((hfire _).bind fun _ => emits_raiseIf ..)
      ((emits_raiseIf ..).bind fun _ => (emits_exec (by simp [Write.table])).bind fun _ =>
        .ite ((hfire _).bind fun _ => trivial) trivial)

/-- The tables that a request can write. -/
def Op.tables : Op → List Table
  | .createBill .. | .getBill | .getInvoice | .guestGetInvoice .. => [.bills]
  | .printBill .. => [.bills, .printJobs]
  | .finalize .. => .tenders :: settlementTables
  | .refund .. => [.bills, .creditNotes, .auditEvents]
  | .addLine .. | .addCombo .. | .updateLine .. | .removeLine .. => [.orderLines]
  | .voidLine .. => [.orderLines, .tickets, .auditEvents]
  | .updateStatus .. => [.orders, .tickets]
  | .createIntent .. => [.bills, .paymentIntents]
  | .getIntent .. | .cancelIntent .. | .listPending .. => [.paymentIntents]
  | .simulate .. => [.paymentIntents, .tenders, .auditEvents]
  | .guestCreateBill .. | .guestGetBill .. => [.bills, .billShares]
  | .payShare .. | .payAll .. => guestPaymentTables
  | .setMode .. => [.tenants, .auditEvents]
  | .updateTaxRegistration .. => [.taxRegistrations]
  | .setPaymentsSimulator .. | .changeSurroundings .. => [.environment]

/-- **Footprints.** A request writes no other tables. -/
theorem Op.emits (op : Op) : op.prog.Emits (Touching op.tables) := by
  cases op with
  | createBill staff name => exact emits_void (createBill_emits staff name)
  | getBill => exact emits_void getBill_emits
  | getInvoice => exact emits_void buildInvoiceView_emits
  | printBill source => exact emits_void (printBill_emits source)
  | finalize staff dto authorize => exact emits_void (finalize_emits staff dto authorize)
  | refund staff dto authorize => exact emits_void (refund_emits staff dto authorize)
  | addLine staff name dto menu => exact addLine_emits staff name dto menu
  | addCombo staff name dto menu => exact addCombo_emits staff name dto menu
  | updateLine staff name id dto => exact updateLine_emits staff name id dto
  | removeLine staff name id => exact removeLine_emits staff name id
  | voidLine staff name id authorize => exact voidLine_emits staff name id authorize
  | updateStatus staff name status => exact updateStatus_emits staff name status
  | createIntent dto => exact emits_void (createIntent_emits dto)
  | getIntent id =>
      exact emits_void ((emits_reads (loadIntent_emits id)).bind fun row => expireIfDue_emits row)
  | cancelIntent id => exact emits_void (cancelIntent_emits id)
  | listPending staff outletId deviceId =>
      exact emits_void (listPendingForOutlet_emits staff outletId deviceId)
  | simulate id outcome => exact emits_void (simulate_emits id outcome)
  | guestCreateBill guest => exact emits_void (guestCreateBill_emits guest)
  | guestGetBill guest => exact emits_void (guestGetBill_emits guest)
  | guestGetInvoice guest => exact emits_void (guestGetInvoice_emits guest)
  | payShare guest guestId dto => exact emits_void (payShare_emits guest guestId dto)
  | payAll guest dto => exact emits_void (payAll_emits guest dto)
  | setMode operatorId mode reason => exact emits_void (setMode_emits operatorId mode reason)
  | updateTaxRegistration dto => exact emits_void (updateTaxRegistration_emits dto)
  | setPaymentsSimulator on => exact emits_exec (by simp [Op.tables, Write.table])
  | changeSurroundings around => exact emits_exec (by simp [Op.tables, Write.table])

/-- A step of the request leaves every other table as it was. -/
theorem Op.Step.frame {op : Op} {v v' : Store} (h : op.Step v v') : Frame op.tables v v' :=
  h.post (.refl _ v) (Txn.wlp_mono (emits_wlp_frame op.emits (.all (fun _ => trivial) _) v)
    fun _ _ hframe => hframe)

end RestiqBackend
