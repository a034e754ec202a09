import RestiqBackend.Bills
import Mathlib.Data.List.Sort

/-!
The guest side of bills (`src/guest/bills/bills.service.ts`).

A guest's bill is the same row the staff have, with one share per guest beside it.
The shares of an open bill are brought in step with its total whenever it is read
or paid; paying a share, or everything at once, writes an ordinary tender, and the
payment that leaves no share outstanding settles the bill.
-/

namespace RestiqBackend

open ReadCommitted

structure GuestPrincipal where
  sessionId : ℕ

/-! ### Guards -/

def loadOrderForSession (guest : GuestPrincipal) : Tx Order := do
  let order ← Txn.query (·.order)
  raiseIf (order.sessionId ≠ some guest.sessionId) .notFound "not_found" "No such order"
  pure order

def isSessionInactive (session : TableSession) (now : ℤ) : Bool :=
  session.status ≠ .open || session.expiresAt ≤ now

def assertSessionActive (guest : GuestPrincipal) : Tx TableSession := do
  let session ← Txn.query fun v => v.session.filter (·.id = guest.sessionId)
  match session with
  | none => raise .notFound "not_found" "No such session"
  | some session => do
      let now ← Txn.clock
      raiseIf (isSessionInactive session now = true) .gone "session_closed"
        "This table session has ended"
      pure session

/-- The caller picks its own outcome, so with simulated payments off nobody may pay. -/
def assertGuestPaymentsAvailable : Tx Unit := do
  let simulator ← paymentsSimulatorFor
  raiseIf (simulator = false) .conflict "provider_unavailable"
    "Paying from your phone is not available here yet - please pay at the counter"

/-! ### Shares -/

/-- What a guest's own lines add up to. -/
structure GuestWeight where
  guestId : ℕ
  guestName : String
  lineTotal : ℤ
  deriving DecidableEq

/-- Adding a line to a `Map` of weights, in insertion order. -/
def addWeight (weights : List GuestWeight) (guestId : ℕ) (guestName : Option String)
    (lineTotal : ℤ) : List GuestWeight :=
  if weights.any (·.guestId = guestId) then
    weights.map fun w =>
      if w.guestId = guestId then { w with lineTotal := w.lineTotal + lineTotal } else w
  else weights ++ [⟨guestId, guestName.getD "Guest", lineTotal⟩]

/-- A line the staff added belongs to no guest: its cost is spread over them, not
dropped. -/
def addLineWeight (weights : List GuestWeight) (line : OrderLine) : List GuestWeight :=
  match line.guestId with
  | some guestId => addWeight weights guestId line.guestName line.totalMinor
  | none => weights

def guestWeights (lines : List OrderLine) : List GuestWeight := lines.foldl addLineWeight []

def weightOf (weights : List GuestWeight) (guestId : ℕ) : ℤ :=
  ((weights.find? (·.guestId = guestId)).map (·.lineTotal)).getD 0

/-- `orderBy: [{ createdAt: 'asc' }, { id: 'asc' }]`. -/
def BillShare.before (a b : BillShare) : Bool :=
  a.createdAt < b.createdAt || (a.createdAt = b.createdAt && a.id ≤ b.id)

def Store.sortedShares (v : Store) : List BillShare := v.shares.insertionSort (·.before ·)

/-- Creating the shares of guests that have none yet, after the ones there are. -/
def createMissingShares : List GuestWeight → List BillShare → Tx (List BillShare)
  | [], shares => pure shares
  | weight :: weights, shares =>
      if shares.any (·.guestId = weight.guestId) then createMissingShares weights shares
      else do
        let id ← Txn.uuid
        let createdAt ← Txn.clock
        let share : BillShare :=
          { id, createdAt
            guestId := weight.guestId, guestName := weight.guestName
            amountMinor := 0, status := .outstanding
            payerPhone := none, tenderId := none, paidAt := none }
        insertRow (fun v => v.shares.any fun s => s.id = id || s.guestId = weight.guestId)
          [.share id, .guestShare weight.guestId] (.createShare share)
        createMissingShares weights (shares ++ [share])

def paidMinorOf (shares : List BillShare) : ℤ :=
  ((shares.filter (·.status = .paid)).map (·.amountMinor)).sum

/-- The amounts that split what is due over the outstanding shares by weight, the
last absorbing the remainder. -/
def shareAmounts (weights : List GuestWeight) (dueMinor : ℤ) (outstanding : List BillShare) :
    List ℤ :=
  let ws := outstanding.map fun s => weightOf weights s.guestId
  Proration.apportion dueMinor ws.sum 0 ws

/-- A share is only written when its amount changes. -/
def setShareAmount (share : BillShare) (amountMinor : ℤ) : Tx Unit :=
  if amountMinor = share.amountMinor then pure ()
  else do
    let updated ← Txn.writeWhen (fun v => v.shares.any (·.id = share.id)) [.share share.id]
      [.updateShareAmount share.id amountMinor]
    if updated then pure () else Txn.throw internalError

/-- Keeps an open bill's shares adding up to its total. Paid shares never change;
what is still due is split over the outstanding ones. -/
def syncShares (bill : BillWithTenders) : Tx Unit :=
  if bill.bill.status ≠ .open then pure ()
  else do
    let lines ← Txn.query Store.liveLines
    let weights := guestWeights lines
    let existing ← Txn.query Store.sortedShares
    let shares ← createMissingShares weights existing
    let dueMinor := bill.bill.totalMinor - paidMinorOf shares
    let outstanding := shares.filter (·.status = .outstanding)
    raiseIf (dueMinor < 0 ∨ (0 < dueMinor ∧ outstanding = [])) .conflict "bill_changed"
      "This bill changed after it was paid - please ask the staff to settle it"
    Txn.forEach (fun s : BillShare × ℤ => setShareAmount s.1 s.2)
      (outstanding.zip (shareAmounts weights dueMinor outstanding))

/-- The guest's view of a bill: its row, its shares and whether the phone can pay. -/
structure GuestBillView where
  bill : BillWithTenders
  shares : List BillShare
  paymentsAvailable : Bool

def loadShareViews : Tx (List BillShare) := Txn.query (·.shares)

def guestView (bill : BillWithTenders) : Tx GuestBillView := do
  let shares ← loadShareViews
  let paymentsAvailable ← paymentsSimulatorFor
  pure { bill, shares, paymentsAvailable }

/-! ### Reading -/

def guestCreateBill (guest : GuestPrincipal) : Tx (GuestBillView × Bool) := do
  let _ ← assertSessionActive guest
  let order ← loadOrderForSession guest
  let (bill, created) ← createOrGetBillRecord
    { outletId := order.outletId
      createdByStaffId := none
      orderClosed := order.status = .closed }
  syncShares bill
  let view ← guestView bill
  pure (view, created)

def guestGetBill (guest : GuestPrincipal) : Tx GuestBillView := do
  let _ ← loadOrderForSession guest
  let hasBill ← Txn.query (·.bill.isSome)
  raiseIf (hasBill = false) .notFound "not_found" "No bill exists yet for this order"
  let loaded ← loadBill
  let bill ← refreshOpenBillTotals loaded
  syncShares bill
  guestView bill

def guestGetInvoice (guest : GuestPrincipal) : Tx InvoiceView := do
  let bill ← loadBill
  let _ ← loadOrderForSession guest
  raiseIf (bill.bill.status ≠ .finalized) .conflict "not_finalized"
    "This bill has not been finalized yet"
  buildInvoiceView

/-! ### Paying -/

structure SimulatedPaymentDto where
  simulatedOutcome : SimulatedOutcome
  payerPhone : Option String

/-- What paying a share and paying everything begin with: the simulator, the bill's
lock, the refreshed bill, the order, and a session that is still open. -/
def preparePayment (guest : GuestPrincipal) :
    Tx (BillWithTenders × Order × TableSession) := do
  assertGuestPaymentsAvailable
  lockBill
  let loaded ← loadBill
  let bill ← refreshOpenBillTotals loaded
  let order ← loadOrderForSession guest
  raiseIf (bill.bill.status = .finalized) .conflict "already_finalized"
    "This bill has already been finalised"
  let session ← assertSessionActive guest
  syncShares bill
  pure (bill, order, session)

/-- Settling on behalf of the guests: no discount, no staff, and the table session
ends with it. -/
def completeBill (order : Order) : Tx Unit := do
  let freshBill ← loadBill
  let _ ← commitFinalize
    { bill := freshBill, discountMinor := none, discountReason := none
      finalizedByStaffId := none }
  if order.sessionId.isSome then
    Txn.exec (fun _ => [.session]) fun _ => [.settleSession]
  else pure ()

def buildView : Tx GuestBillView := do
  let bill ← loadBill
  guestView bill

/-- Marking one share paid by a tender. -/
def markSharePaid (share : BillShare) (payerPhone : Option String) (tenderId : ℕ) : Tx Unit := do
  let paidAt ← Txn.clock
  let updated ← Txn.writeWhen (fun v => v.shares.any (·.id = share.id)) [.share share.id]
    [.payShare share.id payerPhone tenderId paidAt]
  if updated then pure () else Txn.throw internalError

/-- The caller's own outcome: a failure writes nothing. -/
def onSuccess (outcome : SimulatedOutcome) (p : Tx Unit) : Tx Unit :=
  match outcome with
  | .success => p
  | .failure => pure ()

/-- Writing the tender of a share; the last share outstanding settles the bill. -/
def takeShare (order : Order) (share : BillShare) (payerPhone : Option String) : Tx Unit := do
  let tender ← createTenderRecord { method := .upiManual, amountMinor := share.amountMinor }
  markSharePaid share payerPhone tender.id
  let stillOutstanding ← Txn.query fun v => v.shares.countP (·.status = .outstanding)
  if stillOutstanding = 0 then completeBill order else pure ()

def payShare (guest : GuestPrincipal) (guestId : ℕ) (dto : SimulatedPaymentDto) :
    Tx GuestBillView := do
  let (_, order, _) ← preparePayment guest
  let share ← Txn.query fun v => v.shares.find? (·.guestId = guestId)
  match share with
  | none => raise .notFound "not_found" "No such share on this bill"
  | some share => do
      raiseIf (share.status = .paid) .conflict "share_already_paid"
        "This share has already been paid"
      onSuccess dto.simulatedOutcome (takeShare order share dto.payerPhone)
      buildView

def kioskTtlMs : ℤ := 60000

/-- A kiosk pays by card, and card money needs an intent: it is raised and confirmed
in this one transaction. -/
def payByKioskCard (bill : Bill) (amountMinor : ℤ) : Tx ℕ := do
  let country ← Txn.query (·.tenant.country)
  let id ← Txn.uuid
  let now ← Txn.clock
  let intent : PaymentIntent :=
    { id
      rail := .cardTerminal, provider := .simulated
      amountMinor, currency := currencyOf country
      status := .pending, clientKey := s!"kiosk:{bill.id}"
      failureReason := none, expiresAt := now + kioskTtlMs, succeededAt := none
      targetDeviceId := none }
  insertRow (·.intentTaken intent) intent.keys (.createIntent intent)
  let confirmed ← confirmIntent id
  match confirmed.tender with
  | some tender => pure tender
  | none => Txn.throw internalError

/-- `updateMany` over the shares of the bill. -/
def payAllShares (payerPhone : Option String) (tenderId : ℕ) : Tx Unit := do
  let paidAt ← Txn.clock
  Txn.exec (fun v => v.shares.map fun s => .share s.id)
    fun v => v.shares.map fun s => .payShare s.id payerPhone tenderId paidAt

/-- The one tender of a whole bill: by card at a kiosk, which has no table. -/
def takeWhole (session : TableSession) (bill : Bill) (totalMinor : ℤ) : Tx ℕ :=
  match session.tableId with
  | none => payByKioskCard bill totalMinor
  | some _ => do
      let tender ← createTenderRecord { method := .upiManual, amountMinor := totalMinor }
      pure tender.id

def takeAll (bill : Bill) (order : Order) (session : TableSession)
    (payerPhone : Option String) : Tx Unit := do
  let tenderId ← takeWhole session bill bill.totalMinor
  payAllShares payerPhone tenderId
  completeBill order

def payAll (guest : GuestPrincipal) (dto : SimulatedPaymentDto) : Tx GuestBillView := do
  let (bill, order, session) ← preparePayment guest
  let anyPaid ← Txn.query fun v => v.shares.any (·.status = .paid)
  raiseIf (anyPaid = true) .conflict "partial_payment_exists"
    ("One or more shares on this bill are already paid - pay the remaining shares " ++
      "individually")
  onSuccess dto.simulatedOutcome (takeAll bill.bill order session dto.payerPhone)
  buildView

end RestiqBackend
