import RestiqBackend.Kitchen

/-!
The money path shared by staff and guests (`src/pos/bills/bill-core.ts`).

Every program here takes plain rows and no principal, as in the source, so the
staff service, the guest service and the payment intents all call the same code:
pricing the order's lines, refreshing an open bill, creating one, writing a
tender and committing a settlement. A row a program was handed is a snapshot: it
says what the bill was when it was loaded, not what it is.
-/

namespace RestiqBackend

open ReadCommitted

/-- A bill loaded with its tenders, oldest first. -/
structure BillWithTenders where
  bill : Bill
  tenders : List Tender
  deriving DecidableEq

structure TenantTaxProfile where
  country : TaxCountry
  taxProfile : String
  compositionScheme : Bool
  gstRegistered : Bool
  gstRatePercent : Option ℕ
  gstSplitRounding : GstSplitRounding

/-! ### Pricing -/

/-- The tax columns of a registration, or their defaults where there is none. -/
def taxProfileOf (country : TaxCountry) (registration : Option TenantTaxRegistration) :
    TenantTaxProfile where
  country := country
  taxProfile := (registration.map (·.taxProfile)).getD ""
  compositionScheme := (registration.map (·.compositionScheme)).getD false
  gstRegistered := (registration.map (·.gstRegistered)).getD true
  gstRatePercent := registration.bind (·.gstRatePercent)
  gstSplitRounding := (registration.map (·.gstSplitRounding)).getD .exactTotal

def loadTenantTaxProfile : Tx TenantTaxProfile := do
  let country ← Txn.query (·.tenant.country)
  let registration ← Txn.query (·.taxRegistration)
  pure (taxProfileOf country registration)

def toStoredTaxBreakdown (tax : TaxResult) : StoredTaxBreakdown :=
  ⟨tax.breakdown, tax.notes, tax.gstSplitRounding⟩

def readStoredTaxBreakdown (taxBreakdown : Option StoredTaxBreakdown) : StoredTaxBreakdown :=
  taxBreakdown.getD ⟨[], [], none⟩

/-- What the customer pays: tax sits on top of exclusive prices, and is already in
inclusive ones. -/
def computeTotalMinor (subtotalMinor taxMinor discountMinor : ℤ) (pricesIncludeTax : Bool) : ℤ :=
  if pricesIncludeTax then subtotalMinor - discountMinor
  else subtotalMinor + taxMinor - discountMinor

/-- The total of a bill's stored columns, as `toBillView` shows it. What `syncShares`, `payAll` and
`createIntent` charge is the view's `Number`, which is taken as exact: it is below 2^53. -/
def Bill.totalMinor (bill : Bill) : ℤ :=
  computeTotalMinor bill.subtotalMinor bill.taxMinor (bill.discountMinor.getD 0)
    bill.pricesIncludeTax

/-- Sums an order's lines: the unit price with the modifiers, times the quantity. -/
def computeSubtotal : Tx ℤ :=
  .stmt (fun _ v => { reads := [.orderLines], ret := v.subtotal }) .done

/-- The tax of a profile on a taxable value. -/
def TenantTaxProfile.taxOn (profile : TenantTaxProfile) (taxableMinor : ℤ) : TaxResult :=
  computeTax
    { country := profile.country
      taxProfile := profile.taxProfile
      compositionScheme := profile.compositionScheme
      gstRegistered := profile.gstRegistered
      subtotalMinor := taxableMinor
      gstRatePercent := profile.gstRatePercent
      gstSplitRounding := profile.gstSplitRounding }

def computeTaxOn (taxableMinor : ℤ) : Tx TaxResult := do
  let profile ← loadTenantTaxProfile
  pure (profile.taxOn taxableMinor)

def computeBillTotals : Tx (ℤ × TaxResult) := do
  let subtotalMinor ← computeSubtotal
  let tax ← computeTaxOn subtotalMinor
  pure (subtotalMinor, tax)

/-! ### Loading and refreshing a bill -/

/-- `SELECT … FOR UPDATE`: the row lock, while there is a row. -/
def lockBill : Tx Unit :=
  Txn.exec (fun v => if v.bill.isSome then [.bill] else []) fun _ => []

def Store.loadedBill (v : Store) : Option BillWithTenders := v.bill.map fun b => ⟨b, v.tenders⟩

def loadBill : Tx BillWithTenders := do
  let bill ← Txn.query Store.loadedBill
  match bill with
  | some bill => pure bill
  | none => raise .notFound "not_found" "No such bill"

/-- `tx.bill.update` by id alone, answering with the row it leaves. -/
def updateBillTotals (subtotalMinor : ℤ) (tax : TaxResult) : Tx BillWithTenders := do
  let write := Write.updateBillTotals subtotalMinor tax.taxMinor (toStoredTaxBreakdown tax)
    tax.pricesIncludeTax
  let bill ← .stmt (fun _ v => { locks := [.bill], writes := [write]
                                 ret := (v.apply write).loadedBill }) .done
  match bill with
  | some bill => pure bill
  | none => Txn.throw internalError

/-- Re-derives an open bill's totals from the order's current lines. The check
that the bill is open is made on the row that was handed over. -/
def refreshOpenBillTotals (bill : BillWithTenders) : Tx BillWithTenders := do
  if bill.bill.status ≠ .open then pure bill
  else do
    let (subtotalMinor, tax) ← computeBillTotals
    if subtotalMinor = bill.bill.subtotalMinor ∧ tax.taxMinor = bill.bill.taxMinor ∧
        tax.gstSplitRounding = (readStoredTaxBreakdown bill.bill.taxBreakdown).gstSplitRounding then
      pure bill
    else updateBillTotals subtotalMinor tax

structure CreateBillParams where
  outletId : ℕ
  createdByStaffId : Option ℕ
  orderClosed : Bool

/-- Idempotent per order: an existing bill is returned, refreshed; one that a
concurrent request created meanwhile is returned as it is. -/
def createOrGetBillRecord (params : CreateBillParams) : Tx (BillWithTenders × Bool) := do
  let existing ← Txn.query Store.loadedBill
  match existing with
  | some existing => do
      let bill ← refreshOpenBillTotals existing
      pure (bill, false)
  | none => do
      raiseIf (params.orderClosed = true) .conflict "conflict" "This order is already closed"
      let (subtotalMinor, tax) ← computeBillTotals
      let id ← Txn.uuid
      let bill : Bill :=
        { id, subtotalMinor
          outletId := params.outletId
          billNumber := none
          taxMinor := tax.taxMinor
          taxBreakdown := some (toStoredTaxBreakdown tax)
          pricesIncludeTax := tax.pricesIncludeTax
          discountMinor := none, discountReason := none, roundOffMinor := none
          status := .open
          createdByStaffId := params.createdByStaffId
          finalizedByStaffId := none, finalizedAt := none }
      -- Inside a savepoint, so a taken order id does not end the transaction.
      let inserted ← Txn.writeWhen (fun v => v.bill.isNone) [.bill] [.createBill bill]
      if inserted then pure (⟨bill, []⟩, true)
      else do
        let raced ← Txn.query Store.loadedBill
        match raced with
        | some raced => pure (raced, false)
        | none => Txn.throw uniqueViolation

/-! ### Tenders -/

/-- The `CHECK` constraints on a row of `tenders`. -/
def Tender.checks (t : Tender) : Bool :=
  (decide (t.method ∈ [TenderMethod.cash, .upiManual, .external]) == t.paymentIntentId.isNone) &&
  (decide (t.method = .external) == t.reference.isSome) &&
  t.tenderedMinor.all fun given => t.method = .cash && t.amountMinor ≤ given

/-- What a tender is asked to be; the identifier is drawn as it is written. -/
structure TenderParams where
  method : TenderMethod
  amountMinor : ℤ
  paymentIntentId : Option ℕ := none
  riskAcknowledged : Bool := false
  reference : Option String := none
  tenderedMinor : Option ℤ := none

def TenderParams.row (params : TenderParams) (id : ℕ) : Tender :=
  { id
    method := params.method
    amountMinor := params.amountMinor
    paymentIntentId := params.paymentIntentId
    riskAcknowledged := params.riskAcknowledged
    reference := params.reference
    tenderedMinor := params.tenderedMinor }

/-- Whether a new tender would repeat a key that must be unique. -/
def Store.tenderTaken (v : Store) (t : Tender) : Bool :=
  v.tenders.any fun t' => t'.id = t.id || (t.paymentIntentId.isSome &&
    t'.paymentIntentId = t.paymentIntentId)

/-- Inserts one tender against the bill. It is never updated or deleted. -/
def createTenderRecord (params : TenderParams) : Tx Tender := do
  let id ← Txn.uuid
  let tender := params.row id
  if tender.checks then do
    insertRow (fun v => v.tenderTaken tender) [.tender id] (.createTender tender)
    pure tender
  else Txn.throw internalError

/-! ### Settling -/

/-- The adjustment that brings cash due to the nearest Rs 1 or 5c, halves up. -/
def cashRoundOffMinor (dueMinor : ℤ) (country : TaxCountry) : ℤ :=
  if dueMinor ≤ 0 then 0
  else
    let unit : ℤ := match country with
      | .IN => 100
      | .AU => 5
    (dueMinor * 2 + unit).tdiv (2 * unit) * unit - dueMinor

/-- `paymentsSimulatorFor`: the server switch, or the tenant's Test mode. -/
def paymentsSimulatorFor : Tx Bool := Txn.query Store.simulatorOn

/-- The intents that a settlement still has to wait for at the time `now`. -/
def Store.pendingIntents (v : Store) (now : ℤ) : List PaymentIntent :=
  v.activeIntents.filter fun i => now < i.expiresAt

def countPendingIntents (now : ℤ) : Tx ℕ :=
  .stmt (fun _ v => { reads := [.pendingIntents now], ret := (v.pendingIntents now).length }) .done

/-- The tenders whose intent a simulated provider confirmed. -/
def Store.simulatedTenders (v : Store) : List Tender :=
  v.tenders.filter fun t => v.intents.any fun i =>
    some i.id = t.paymentIntentId && i.provider = .simulated

/-- The part of the tenders that is cash. -/
def cashMinorOf (tenders : List Tender) : ℤ :=
  ((tenders.filter (·.method = .cash)).map (·.amountMinor)).sum

/-- Without cash there is nothing to round. -/
def cashRoundOffIn (country : Option TaxCountry) (dueMinor : ℤ) : ℤ :=
  (country.map (cashRoundOffMinor dueMinor)).getD 0

/-- The round-off that makes the tenders cover the total, if one does: `none` for
the exact sum. -/
def settleRoundOff (totalMinor tenderTotal cashMinor : ℤ) (country : Option TaxCountry) :
    Except ApiError (Option ℤ) :=
  if tenderTotal = totalMinor then .ok none
  else
    let cashRoundOff := cashRoundOffIn country (totalMinor - (tenderTotal - cashMinor))
    if cashRoundOff = 0 then
      .error ⟨.badRequest, "tender_mismatch",
        s!"Tenders sum to {tenderTotal} but the bill total is {totalMinor}"⟩
    else if tenderTotal ≠ totalMinor + cashRoundOff then
      .error ⟨.badRequest, "tender_mismatch",
        s!"Tenders sum to {tenderTotal} but the bill total is {totalMinor} " ++
          s!"({totalMinor + cashRoundOff} with the cash rounded)"⟩
    else .ok (some cashRoundOff)

structure CommitFinalizeParams where
  bill : BillWithTenders
  discountMinor : Option ℤ
  discountReason : Option String
  finalizedByStaffId : Option ℕ

/-- The increment of the outlet's counter, answering with the new number. -/
def upsertBillNumberCounter : Tx ℕ :=
  .stmt (fun _ v =>
    let lastNumber := v.billNumberCounter.getD 0 + 1
    { locks := [.billNumberCounter], writes := [.upsertBillNumberCounter lastNumber]
      ret := lastNumber }) .done

/-- The tax of a discounted bill, on what is left of the subtotal (SE-2). -/
def discountedTax (subtotalMinor discountMinor : ℤ) : Tx (Option TaxResult) :=
  if 0 < discountMinor then do
    let tax ← computeTaxOn (subtotalMinor - discountMinor)
    pure (some tax)
  else pure none

/-- The country is only read when some cash was tendered. -/
def cashCountry (cashMinor : ℤ) : Tx (Option TaxCountry) :=
  if 0 < cashMinor then Txn.query fun v => some v.tenant.country else pure none

/-- The first finalised bill of a provisioning tenant takes it live. -/
def goLiveOnFirstSale : Tx Unit := do
  let wentLive ← Txn.writeWhen (fun v => v.tenant.status = .provisioning) [.tenant] [.goLive]
  if wentLive then
    Txn.exec (fun _ => []) fun _ =>
      [.createAuditEvent ⟨"tenant.went_live", none, none, .text "First sale"⟩]
  else pure ()

/-- An intent that still runs keeps the bill from being settled. -/
def assertNothingPending : Tx Unit := do
  let now ← Txn.clock
  let pendingIntents ← countPendingIntents now
  raiseIf (0 < pendingIntents) .conflict "payment_pending"
    ("A payment is still waiting on the terminal - wait for it to complete or cancel it " ++
      "before finalising")

/-- With the simulator off, a simulated card payment cannot settle a bill (#170). -/
def assertNotSimulated : Tx Unit := do
  let simulator ← paymentsSimulatorFor
  if simulator then pure ()
  else do
    let simulated ← Txn.query fun v => v.simulatedTenders.length
    raiseIf (0 < simulated) .conflict "simulated_tender"
      ("This bill has a simulated card payment that collected no money - it cannot be settled " ++
        "while simulated payments are off")

/-- The tenders on the bill must cover its total, exactly or with the cash rounded. -/
def assertCovered (totalMinor : ℤ) : Tx (Option ℤ) := do
  let tenders ← Txn.query (·.tenders)
  let tenderTotal := (tenders.map (·.amountMinor)).sum
  let cashMinor := cashMinorOf tenders
  let country ← if tenderTotal = totalMinor then pure none else cashCountry cashMinor
  ofExcept (settleRoundOff totalMinor tenderTotal cashMinor country)

/-- The total a settlement charges: the discount's own tax, or the bill's. -/
def CommitFinalizeParams.totalMinor (params : CommitFinalizeParams) (tax : Option TaxResult) : ℤ :=
  let bill := params.bill.bill
  computeTotalMinor bill.subtotalMinor ((tax.map (·.taxMinor)).getD bill.taxMinor)
    (params.discountMinor.getD 0) bill.pricesIncludeTax

/-- The checks of a settlement, made on the bill row it was handed and on the
tenders that are there: the round-off, and the tax of a discounted bill. -/
def checkSettlement (params : CommitFinalizeParams) : Tx (Option ℤ × Option TaxResult) := do
  raiseIf (params.bill.bill.status = .finalized) .conflict "already_finalized"
    "This bill has already been finalised"
  assertNothingPending
  assertNotSimulated
  let discountMinor := params.discountMinor.getD 0
  raiseIf (params.bill.bill.subtotalMinor < discountMinor) .badRequest "validation_failed"
    "The discount cannot be more than the bill subtotal"
  let tax ← discountedTax params.bill.bill.subtotalMinor discountMinor
  let roundOffMinor ← assertCovered (params.totalMinor tax)
  pure (roundOffMinor, tax)

/-- What a settlement writes once every check has passed: the number, the bill
row if it is still open, the kitchen, the order and the tenant. -/
def writeSettlement (params : CommitFinalizeParams) (roundOffMinor : Option ℤ)
    (tax : Option TaxResult) : Tx BillWithTenders := do
  let billNumber ← upsertBillNumberCounter
  let finalizedAt ← Txn.clock
  let updated ← Txn.writeWhen (·.billIs .open) [.bill]
    [.finalizeBill billNumber params.discountMinor params.discountReason roundOffMinor
      (tax.map fun t => (t.taxMinor, toStoredTaxBreakdown t)) params.finalizedByStaffId finalizedAt]
  raiseIf (updated = false) .conflict "already_finalized" "This bill has already been finalised"
  let _ ← fireOnSend params.bill.bill.outletId
  Txn.exec (fun _ => [.order]) fun _ => [.updateOrderStatus .closed]
  goLiveOnFirstSale
  loadBill

/-- Finalizing a bill whose tenders are already written: the half that staff and
guests share. -/
def commitFinalize (params : CommitFinalizeParams) : Tx BillWithTenders := do
  let (roundOffMinor, tax) ← checkSettlement params
  writeSettlement params roundOffMinor tax

def currencyForCountry (country : TaxCountry) : String :=
  match country with
  | .IN => "INR"
  | .AU => "AUD"

/-- Going live changes the tenant and nothing of the bill, and cannot fail. -/
theorem goLiveOnFirstSale_emits : goLiveOnFirstSale.Emits (Touching [.tenants, .auditEvents]) :=
  (emits_writeWhen (by simp [Write.table])).bind fun _ =>
    .ite (emits_exec (by simp [Write.table])) trivial

theorem goLiveOnFirstSale_throws : goLiveOnFirstSale.Throws fun _ => False :=
  fun _ => .ite (fun _ => trivial) trivial

end RestiqBackend
