import RestiqBackend.Payments
import RestiqBackend.Proration
import Mathlib.Data.Rat.Floor

/-!
The staff side of bills (`src/pos/bills/bills.service.ts`).

Opening, reading, printing, finalizing and refunding a bill. Finalizing writes the
tenders it was given and hands over to `commitFinalize`; refunding writes a credit
note and never touches the bill. The arithmetic of a refund is kept apart from its
statements: which units are taken back (`refundTargets`, `priceTargets`), what they
are worth of what was paid (`noteAmounts`), and how that is spread over the lines
(`allocateLines`).
-/

namespace RestiqBackend

open ReadCommitted

/-! ### Opening and reading -/

/-- Who may settle bills may open anyone's. -/
def assertMayOpen (order : Order) (staff : PosPrincipal) (ownerName : String) : Tx Unit :=
  if roleHasPermission staff.role .settleBills then pure () else assertOwner order staff ownerName

/-- The staff's idempotent `POST`. -/
def createBill (staff : PosPrincipal) (ownerName : String) : Tx (BillWithTenders × Bool) := do
  let order ← Txn.query (·.order)
  assertMayOpen order staff ownerName
  createOrGetBillRecord
    { outletId := order.outletId
      createdByStaffId := some staff.id
      orderClosed := order.status = .closed }

def getBill : Tx BillWithTenders := do
  let bill ← loadBill
  refreshOpenBillTotals bill

/-- Whether a bill was finalised, or is being rung up, while its tenant was in Test mode. -/
def isTestSale (liveSince finalizedAt : Option ℤ) : Bool :=
  match liveSince with
  | none => true
  | some live => finalizedAt.any (· < live)

structure InvoiceLineView where
  comboId : Option ℕ
  itemId : Option ℕ
  variantId : Option ℕ
  quantity : ℕ
  unitPriceMinor : ℤ
  lineTotalMinor : ℤ
  /-- The items of a combo, with how many of each there are in one combo. -/
  components : List (ℚ × Option ℕ)

structure InvoiceView where
  status : BillStatus
  invoiceNumber : Option ℕ
  testMode : Bool
  title : String
  issuedAt : Option ℤ
  currency : String
  lines : List InvoiceLineView
  subtotalMinor : ℤ
  discountMinor : Option ℤ
  discountReason : Option String
  taxBreakdown : List TaxBreakdownLine
  taxMinor : ℤ
  totalMinor : ℤ
  roundOffMinor : Option ℤ
  pricesIncludeTax : Bool
  tenders : List Tender
  /-- What each credit note paid back, and how. -/
  creditNotes : List (ℤ × Option TenderMethod)
  notes : List String

/-- What a credit note pays back: an inclusive bill's subtotal already holds its tax. -/
def CreditNote.totalMinor (note : CreditNote) (pricesIncludeTax : Bool) : ℤ :=
  if pricesIncludeTax then note.subtotalMinor else note.subtotalMinor + note.taxMinor

/-- A combo prints as one line: its price plus every chosen item's extra charge. -/
def invoiceLines (orderLines : List OrderLine) : List InvoiceLineView :=
  (orderLines.filter (·.parentLineId.isNone)).map fun line =>
    let children := orderLines.filter (·.parentLineId = some line.id)
    let lineTotal := line.totalMinor + (children.map (·.totalMinor)).sum
    { comboId := line.comboId, itemId := line.itemId, variantId := line.variantId
      quantity := line.quantity
      unitPriceMinor := lineTotal.tdiv line.quantity
      lineTotalMinor := lineTotal
      components := children.map fun c => ((c.quantity : ℚ) / line.quantity, c.itemId) }

def invoiceTitle (profile : TenantTaxProfile) (status : BillStatus) : String :=
  match status, profile.country with
  | .open, _ => "Bill"
  | .finalized, .IN => if profile.compositionScheme then "Bill of Supply" else "Tax Invoice"
  | .finalized, .AU => if profile.gstRegistered then "Tax Invoice" else "Receipt"

/-- The invoice, built afresh on every call; an open bill is refreshed and served as
a pro forma with no number and no tenders. -/
def buildInvoiceView : Tx InvoiceView := do
  let loaded ← loadBill
  let bill ← refreshOpenBillTotals loaded
  let orderLines ← Txn.query Store.liveLines
  let profile ← loadTenantTaxProfile
  let creditNotes ← Txn.query (·.creditNotes)
  let liveSince ← Txn.query (·.tenant.liveSince)
  let row := bill.bill
  let isFinalized := row.status = .finalized
  pure
    { status := row.status
      invoiceNumber := if isFinalized then row.billNumber else none
      testMode := isTestSale liveSince row.finalizedAt
      title := invoiceTitle profile row.status
      issuedAt := if isFinalized then row.finalizedAt else none
      currency := currencyForCountry profile.country
      lines := invoiceLines orderLines
      subtotalMinor := row.subtotalMinor
      discountMinor := row.discountMinor
      discountReason := row.discountReason
      taxBreakdown := (readStoredTaxBreakdown row.taxBreakdown).lines
      taxMinor := row.taxMinor
      totalMinor := row.totalMinor
      roundOffMinor := row.roundOffMinor
      pricesIncludeTax := row.pricesIncludeTax
      tenders := if isFinalized then bill.tenders else []
      creditNotes := creditNotes.map fun n => (n.totalMinor row.pricesIncludeTax, n.method)
      notes := (readStoredTaxBreakdown row.taxBreakdown).notes }

def getInvoice : Tx InvoiceView := buildInvoiceView

/-- Spools the invoice for the till's own printer or the outlet's, and says whether
anything drains that queue. -/
def printBill (sourceDeviceId : Option ℕ) : Tx Bool := do
  let bill ← loadBill
  let _ ← buildInvoiceView
  let target ← linkedPeripheral sourceDeviceId .printer
  Txn.exec (fun _ => []) fun _ => [.createPrintJob ⟨target⟩]
  match target with
  | some _ => pure true
  | none => Txn.query fun v => v.around.devices.any fun d =>
      d.outletId = bill.bill.outletId && d.type = .printer && d.active && d.pairedPosId.isNone

/-! ### Finalizing -/

/-- A tender the cashier asserts: never an electronic method. -/
structure TenderDto where
  method : TenderMethod
  amountMinor : ℤ
  riskAcknowledged : Option Bool
  reference : Option String
  tenderedMinor : Option ℤ
  method_mem : method ∈ [TenderMethod.cash, .upiManual, .external]
  one_le_amountMinor : 1 ≤ amountMinor

structure FinalizeBillDto where
  discountMinor : Option ℤ
  discountReason : Option String
  managerPin : Option String
  tenders : List TenderDto
  one_le_discountMinor : ∀ d ∈ discountMinor, 1 ≤ d

def discountThresholdPercent : ℤ := 20

/-- A discount above the threshold needs a manager's PIN. -/
def approveDiscount (subtotalMinor : ℤ) (dto : FinalizeBillDto)
    (authorize : Except ApiError ManagerApproval) : Tx (Option ManagerApproval) :=
  match dto.discountMinor with
  | none => pure none
  | some discountMinor =>
      if discountMinor ≤ (subtotalMinor * discountThresholdPercent).tdiv 100 then pure none
      else do
        raiseIf (dto.managerPin = none) .badRequest "manager_pin_required"
          "A manager PIN is required for a discount above the threshold"
        let approval ← ofExcept authorize
        pure (some approval)

def TenderDto.toParams (tender : TenderDto) : TenderParams where
  method := tender.method
  amountMinor := tender.amountMinor
  riskAcknowledged := tender.riskAcknowledged.getD false
  reference := if tender.method = .external then tender.reference.map (·.trimAscii.toString)
    else none
  tenderedMinor := tender.tenderedMinor

/-- Writing one tender of the list, after the check on the cash handed over. -/
def takeTender (tender : TenderDto) : Tx Unit := do
  raiseIf (tender.tenderedMinor.any fun given =>
      tender.method ≠ .cash || given < tender.amountMinor) .badRequest "validation_failed"
    (if tender.method = .cash then "The cash handed over cannot be less than the cash tender"
      else "Only a cash tender records the cash handed over")
  let _ ← createTenderRecord tender.toParams

/-- Cash goes into a drawer, so it needs an open shift. -/
def assertShiftForCash (tenders : List TenderDto) : Tx Unit :=
  if tenders.any (·.method = .cash) then do
    let openShift ← Txn.query (·.around.openShift)
    raiseIf (openShift = none) .conflict "shift_not_open"
      "Open a shift with your starting cash float before taking cash"
  else pure ()

def finalize (staff : PosPrincipal) (dto : FinalizeBillDto)
    (authorize : Except ApiError ManagerApproval) : Tx BillWithTenders := do
  raiseIf (dto.discountMinor.isSome ≠ dto.discountReason.isSome) .badRequest "validation_failed"
    "discountMinor and discountReason must be given together"
  lockBill
  let loaded ← loadBill
  let bill ← refreshOpenBillTotals loaded
  raiseIf (bill.bill.status = .finalized) .conflict "already_finalized"
    "This bill has already been finalised"
  let approval ← approveDiscount bill.bill.subtotalMinor dto authorize
  assertShiftForCash dto.tenders
  Txn.forEach takeTender dto.tenders
  let final ← commitFinalize
    { bill
      discountMinor := dto.discountMinor
      discountReason := dto.discountReason
      finalizedByStaffId := some staff.id }
  whenGiven approval (recordApproval · "discount_above_threshold" staff.id)
  pure final

/-! ### Refunding -/

structure RefundLineDto where
  orderLineId : ℕ
  quantity : ℕ
  one_le_quantity : 1 ≤ quantity

structure RefundBillDto where
  managerPin : Option String
  reason : String
  lines : Option (List RefundLineDto)
  method : Option TenderMethod
  lines_ne_nil : lines ≠ some []

/-- Units of a line to take back. A combo's items are counted by a division, so this
is a number and not yet a whole one. -/
structure RefundTarget where
  orderLineId : ℕ
  quantity : ℚ
  deriving DecidableEq

/-- How many units of each line the lines of credit notes add up to. -/
def refundedSoFar (noteLines : List CreditNoteLine) (orderLineId : ℕ) : ℚ :=
  ((noteLines.filter (·.orderLineId = orderLineId)).map fun l => (l.quantity : ℚ)).sum

/-- A line's gross: the amount before the bill's discount. -/
def CreditNoteLine.grossMinor (l : CreditNoteLine) : ℤ := l.unitPriceMinor * l.quantity

/-- The items of the combos among the named lines; naming one item is refused. -/
def comboTargets (orderLines : List OrderLine) :
    List RefundTarget → Except ApiError (List RefundTarget)
  | [] => .ok []
  | target :: targets =>
      match orderLines.find? (·.id = target.orderLineId) with
      | none => comboTargets orderLines targets
      | some line =>
          if line.parentLineId.isSome then
            .error ⟨.badRequest, "combo_refund_whole",
              "Refund the whole combo, not one item in it"⟩
          else do
            let rest ← comboTargets orderLines targets
            let children := if line.comboId.isSome then
                (orderLines.filter (·.parentLineId = some line.id)).map fun child =>
                  ⟨child.id, target.quantity * child.quantity / line.quantity⟩
              else []
            .ok (children ++ rest)

/-- What a refund takes back: the named lines with the items of their combos, or
everything that is left. -/
def refundTargets (orderLines : List OrderLine) (refunded : ℕ → ℚ)
    (lines : Option (List RefundLineDto)) : Except ApiError (List RefundTarget) :=
  let targets : List RefundTarget := match lines with
    | some lines => lines.map fun l => ⟨l.orderLineId, l.quantity⟩
    | none => (orderLines.map fun l => ⟨l.id, l.quantity - refunded l.id⟩).filter (0 < ·.quantity)
  if targets = [] then
    .error ⟨.badRequest, "nothing_to_refund", "There is nothing left to refund on this bill"⟩
  else
    match lines with
    | some _ => do
        let children ← comboTargets orderLines targets
        .ok (targets ++ children)
    | none => .ok targets

/-- Pricing one target gross: it must be a line of the bill, with that many units
left, and a whole number of them (`BigInt` throws on a fraction). -/
def priceTarget (orderLines : List OrderLine) (refunded : ℕ → ℚ) (target : RefundTarget) :
    Except ApiError CreditNoteLine :=
  match orderLines.find? (·.id = target.orderLineId) with
  | none => .error ⟨.badRequest, "validation_failed",
      s!"Order line {target.orderLineId} is not part of this bill"⟩
  | some line =>
      let remaining := line.quantity - refunded target.orderLineId
      if remaining < target.quantity then
        .error ⟨.badRequest, "over_refund",
          s!"Cannot refund {target.quantity} of order line {target.orderLineId} - " ++
            s!"only {remaining} remain refundable"⟩
      else if target.quantity.den ≠ 1 then .error internalError
      else .ok ⟨target.orderLineId, target.quantity.num.toNat, line.unitMinor,
        line.unitMinor * target.quantity.num⟩

/-- Pricing the targets in turn, each counted before the next one is checked. -/
def priceTargets (orderLines : List OrderLine) :
    (ℕ → ℚ) → List RefundTarget → Except ApiError (List CreditNoteLine)
  | _, [] => .ok []
  | refunded, target :: targets => do
      let line ← priceTarget orderLines refunded target
      let counted := Function.update refunded target.orderLineId
        (refunded target.orderLineId + target.quantity)
      let rest ← priceTargets orderLines counted targets
      .ok (line :: rest)

/-- Spreading the note's subtotal over its lines by their gross, each rounded down
and the last taking the remainder. -/
def allocateLines (subtotalMinor : ℤ) (lines : List CreditNoteLine) : List CreditNoteLine :=
  let grossMinor := (lines.map (·.amountMinor)).sum
  List.zipWith (fun l amountMinor => { l with amountMinor }) lines
    (Proration.apportion subtotalMinor grossMinor 0 (lines.map (·.amountMinor)))

/-- The tender most of the bill was paid with: the largest, the earliest on a tie. -/
def mainTender (tenders : List Tender) : Option Tender :=
  tenders.foldl (fun best t =>
    match best with
    | none => some t
    | some b => if b.amountMinor < t.amountMinor then some t else some b) none

/-- The money of a new credit note: what everything refunded so far is worth of what
was paid, this note included, less what the earlier notes already took. -/
def noteAmounts (bill : Bill) (priorLines : List CreditNoteLine) (priorNotes : List CreditNote)
    (lines : List CreditNoteLine) : ℤ × ℤ :=
  let cumGross := (priorLines.map (·.grossMinor)).sum + (lines.map (·.amountMinor)).sum
  let due (of taken : ℤ) : ℤ := max 0 (Proration.share of cumGross bill.subtotalMinor - taken)
  (due (bill.subtotalMinor - bill.discountMinor.getD 0) (priorNotes.map (·.subtotalMinor)).sum,
    due bill.taxMinor (priorNotes.map (·.taxMinor)).sum)

/-- The refund's request is checked before a PIN is spent on it. -/
def assertPinGiven (staff : PosPrincipal) (managerPin : Option String) : Tx Unit :=
  if managerPin.isSome then pure ()
  else if roleHasPermission staff.role .refunds = false then
    raise .forbidden "forbidden" "Your role cannot do this"
  else
    raise .badRequest "validation_failed"
      ("managerPin must be longer than or equal to 1 characters; " ++
        "managerPin must be a string")

def refund (staff : PosPrincipal) (dto : RefundBillDto)
    (authorize : Except ApiError ManagerApproval) : Tx CreditNote := do
  assertPinGiven staff dto.managerPin
  lockBill
  let loaded ← loadBill
  let bill ← refreshOpenBillTotals loaded
  raiseIf (bill.bill.status ≠ .finalized) .conflict "bill_not_finalized"
    "Only a finalized bill can be refunded"
  let orderLines ← Txn.query Store.liveLines
  let priorLines ← Txn.query fun v => v.creditNotes.flatMap (·.lines)
  let refunded := refundedSoFar priorLines
  let targets ← ofExcept (refundTargets orderLines refunded dto.lines)
  let lines ← ofExcept (priceTargets orderLines refunded targets)
  let priorNotes ← Txn.query (·.creditNotes)
  let amounts := noteAmounts bill.bill priorLines priorNotes lines
  let approval ← ofExcept authorize
  let id ← Txn.uuid
  let createdAt ← Txn.clock
  let note : CreditNote :=
    { id, createdAt
      reason := dto.reason
      approvedByStaffId := approval.approverId
      createdByStaffId := staff.id
      subtotalMinor := amounts.1
      taxMinor := amounts.2
      method := dto.method.or ((mainTender bill.tenders).map (·.method))
      lines := allocateLines amounts.1 lines }
  insertRow (fun v => v.creditNotes.any (·.id = id)) [] (.createCreditNote note)
  recordApproval approval "refund" staff.id
  pure note

end RestiqBackend
