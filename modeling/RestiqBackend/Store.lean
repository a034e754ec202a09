import RestiqBackend.ReadCommitted.Zoom
import RestiqBackend.Tax

/-!
The rows of one order and its bill.

The store holds one order with everything the money path keeps about it: its
lines, its kitchen tickets, its bill with the tenders, guest shares, payment
intents and credit notes, and the rows of the tenant and the outlet these read.
A table is a list, oldest row first; an order line carries its modifier rows and
a credit note its lines, which the code always loads together. Rows of other
orders appear only where the code looks at them: the client keys their intents
have used and the times their bills were finalized.

There is one `Write` for every writing statement of the code, named after it, and
`Store.apply` is what the statement does to the rows. A row is never rebuilt from
a stale copy: a write names the columns it sets.
-/

namespace RestiqBackend

open ReadCommitted

/-! ### Rows -/

inductive TenantStatus
  | provisioning
  | active
  | inactive
  deriving DecidableEq, Repr

structure Tenant where
  country : TaxCountry
  status : TenantStatus
  /-- When the tenant last went Live; `none` is Test mode. -/
  liveSince : Option ℤ
  deriving DecidableEq

structure TenantTaxRegistration where
  taxProfile : String
  compositionScheme : Bool
  gstRegistered : Bool
  gstRatePercent : Option ℕ
  gstSplitRounding : GstSplitRounding
  deriving DecidableEq

inductive OrderStatus
  | open
  | sent
  | closed
  deriving DecidableEq, Repr

structure Order where
  status : OrderStatus
  ownerId : Option ℕ
  tableId : Option ℕ
  sessionId : Option ℕ
  outletId : ℕ
  /-- Set once the row is deleted: an order nobody ordered anything on is thrown away. -/
  deleted : Bool
  deriving DecidableEq

inductive TableSessionStatus
  | open
  | settled
  | closed
  deriving DecidableEq, Repr

structure TableSession where
  id : ℕ
  status : TableSessionStatus
  tableId : Option ℕ
  expiresAt : ℤ
  deriving DecidableEq

structure OrderLineModifier where
  modifierId : ℕ
  priceMinor : ℤ
  deriving DecidableEq

structure OrderLine where
  id : ℕ
  itemId : Option ℕ
  variantId : Option ℕ
  comboId : Option ℕ
  parentLineId : Option ℕ
  quantity : ℕ
  unitPriceMinor : ℤ
  modifiers : List OrderLineModifier
  seatNumber : Option ℕ
  guestId : Option ℕ
  guestName : Option String
  voidedAt : Option ℤ
  deriving DecidableEq

inductive BillStatus
  | open
  | finalized
  deriving DecidableEq, Repr

/-- The shape of the `tax_breakdown` column. -/
structure StoredTaxBreakdown where
  lines : List TaxBreakdownLine
  notes : List String
  gstSplitRounding : Option GstSplitRounding
  deriving DecidableEq

structure Bill where
  id : ℕ
  outletId : ℕ
  billNumber : Option ℕ
  subtotalMinor : ℤ
  taxMinor : ℤ
  taxBreakdown : Option StoredTaxBreakdown
  pricesIncludeTax : Bool
  discountMinor : Option ℤ
  discountReason : Option String
  roundOffMinor : Option ℤ
  status : BillStatus
  createdByStaffId : Option ℕ
  finalizedByStaffId : Option ℕ
  finalizedAt : Option ℤ
  deriving DecidableEq

inductive TenderMethod
  | cash
  | upiManual
  | upiIntent
  | upiQr
  | cardOnline
  | cardTerminal
  | external
  deriving DecidableEq, Repr

structure Tender where
  id : ℕ
  method : TenderMethod
  amountMinor : ℤ
  paymentIntentId : Option ℕ
  riskAcknowledged : Bool
  reference : Option String
  tenderedMinor : Option ℤ
  deriving DecidableEq

inductive PaymentRail
  | upiIntent
  | upiQr
  | cardOnline
  | cardTerminal
  deriving DecidableEq, Repr

/-- The four electronic names are shared by design. -/
def PaymentRail.toTenderMethod : PaymentRail → TenderMethod
  | .upiIntent => .upiIntent
  | .upiQr => .upiQr
  | .cardOnline => .cardOnline
  | .cardTerminal => .cardTerminal

inductive PaymentIntentStatus
  | created
  | pending
  | succeeded
  | failed
  | expired
  | cancelled
  deriving DecidableEq, Repr

inductive PaymentProviderKind
  | simulated
  | razorpay
  deriving DecidableEq, Repr

/-- An intent on the bill as a whole: the code raises no other. -/
structure PaymentIntent where
  id : ℕ
  rail : PaymentRail
  provider : PaymentProviderKind
  amountMinor : ℤ
  currency : String
  status : PaymentIntentStatus
  clientKey : String
  failureReason : Option String
  expiresAt : ℤ
  succeededAt : Option ℤ
  targetDeviceId : Option ℕ
  deriving DecidableEq

inductive BillShareStatus
  | outstanding
  | paid
  deriving DecidableEq, Repr

structure BillShare where
  id : ℕ
  guestId : ℕ
  guestName : String
  amountMinor : ℤ
  status : BillShareStatus
  payerPhone : Option String
  tenderId : Option ℕ
  paidAt : Option ℤ
  createdAt : ℤ
  deriving DecidableEq

structure CreditNoteLine where
  orderLineId : ℕ
  quantity : ℕ
  unitPriceMinor : ℤ
  amountMinor : ℤ
  deriving DecidableEq

structure CreditNote where
  id : ℕ
  reason : String
  approvedByStaffId : ℕ
  createdByStaffId : ℕ
  subtotalMinor : ℤ
  taxMinor : ℤ
  method : Option TenderMethod
  createdAt : ℤ
  lines : List CreditNoteLine
  deriving DecidableEq

structure Station where
  id : ℕ
  outletId : ℕ
  name : String
  deletedAt : Option ℤ
  deriving DecidableEq

inductive TicketStatus
  | queued
  | bumped
  deriving DecidableEq, Repr

structure Ticket where
  id : ℕ
  stationId : Option ℕ
  status : TicketStatus
  firedAt : ℤ
  bumpedAt : Option ℤ
  deriving DecidableEq

structure TicketLine where
  ticketId : ℕ
  orderLineId : ℕ
  quantity : ℕ
  addOnBatch : ℕ
  voided : Bool
  deriving DecidableEq

inductive DeviceType
  | pos
  | printer
  | terminal
  deriving DecidableEq, Repr

structure Device where
  id : ℕ
  type : DeviceType
  outletId : ℕ
  active : Bool
  pairedPosId : Option ℕ
  deriving DecidableEq

structure PrintJob where
  targetDeviceId : Option ℕ
  deriving DecidableEq

/-- The reason column of an audit event: free text, or the text of a late capture
by the values that are written into it. -/
inductive AuditReason
  | text (reason : String)
  | lateCapture (intentId : ℕ) (amountMinor : ℤ) (currency : String) (billId : ℕ)
  deriving DecidableEq

structure AuditEvent where
  action : String
  actorId : Option ℕ
  approverId : Option ℕ
  reason : AuditReason
  deriving DecidableEq

/-- What the money path reads of the outlet and of the tenant's other bills, and
never writes. -/
structure Surroundings where
  /-- When the tenant's other bills were finalized. -/
  otherFinalizedAt : List ℤ
  /-- The client keys of the tenant's intents on other bills. -/
  otherClientKeys : List String
  /-- The outlet's open shift, if it has one. -/
  openShift : Option ℕ
  devices : List Device
  stations : List Station
  /-- The station each menu item is routed to. -/
  menuItemStations : List (ℕ × ℕ)
  deriving DecidableEq

/-- One order and its bill, with the tenant and outlet rows the money path reads. -/
structure Store where
  /-- `PAYMENTS_SIMULATOR=on` in the server's environment. -/
  paymentsSimulator : Bool
  tenant : Tenant
  taxRegistration : Option TenantTaxRegistration
  around : Surroundings
  /-- The outlet's bill number counter; `none` while it has no row. -/
  billNumberCounter : Option ℕ
  order : Order
  session : Option TableSession
  lines : List OrderLine
  tickets : List Ticket
  ticketLines : List TicketLine
  /-- The tickets that had an add-on fired, one entry an event. -/
  addOnEvents : List ℕ
  bill : Option Bill
  tenders : List Tender
  intents : List PaymentIntent
  shares : List BillShare
  creditNotes : List CreditNote
  printJobs : List PrintJob
  auditEvents : List AuditEvent

/-! ### Reading rows -/

/-- The unit price of a line with its selected modifiers. -/
def OrderLine.unitMinor (line : OrderLine) : ℤ :=
  line.unitPriceMinor + (line.modifiers.map (·.priceMinor)).sum

/-- What a line adds to its order's subtotal. -/
def OrderLine.totalMinor (line : OrderLine) : ℤ := line.quantity * line.unitMinor

/-- A line is on a ticket at most once. -/
def TicketLine.key (l : TicketLine) : ℕ × ℕ := (l.ticketId, l.orderLineId)

def PaymentIntentStatus.isActive : PaymentIntentStatus → Bool
  | .created | .pending => true
  | _ => false

def PaymentIntent.isActive (intent : PaymentIntent) : Bool := intent.status.isActive

/-- The lines that are still on the order, as every reader of them selects them. -/
def Store.liveLines (s : Store) : List OrderLine := s.lines.filter fun l => l.voidedAt.isNone

/-- The sum that `computeSubtotal` takes over the order's lines. -/
def Store.subtotal (s : Store) : ℤ := (s.liveLines.map OrderLine.totalMinor).sum

def Store.activeIntents (s : Store) : List PaymentIntent := s.intents.filter (·.isActive)

def Store.tenderTotal (s : Store) : ℤ := (s.tenders.map (·.amountMinor)).sum

/-- Whether the tenant is in Test mode. -/
def Store.testMode (s : Store) : Bool := s.tenant.liveSince.isNone

/-- `paymentsSimulatorFor`: the server switch, or the tenant's Test mode. -/
def Store.simulatorOn (s : Store) : Bool := s.paymentsSimulator || s.testMode

/-- Whether the bill exists and is in the given status. -/
def Store.billIs (s : Store) (status : BillStatus) : Bool := s.bill.any (·.status = status)

/-! ### Writing rows -/

/-- The rows a transaction can lock: the row itself, or the unique key that a
row being inserted claims. -/
inductive Key
  | bill
  | order
  | tenant
  | taxRegistration
  | session
  | billNumberCounter
  | line (id : ℕ)
  | ticket (id : ℕ)
  | ticketLine (ticketId orderLineId : ℕ)
  | tender (id : ℕ)
  | intent (id : ℕ)
  /-- The bill's slot in `payment_intents_one_active`. -/
  | activeIntent
  | clientKey (key : String)
  | share (id : ℕ)
  /-- The guest's slot in the unique index on a bill's shares. -/
  | guestShare (guestId : ℕ)
  deriving DecidableEq, Repr

/-- What is remembered of the reads a transaction has made. -/
inductive Read
  /-- The lines were read to price the bill. -/
  | orderLines
  /-- The pending intents were counted against this reading of the clock. -/
  | pendingIntents (now : ℤ)
  /-- These lines were found to have no ticket line yet. -/
  | unfiredLines (ids : List ℕ)
  deriving DecidableEq, Repr

/-- The writing statements. -/
inductive Write
  | createBill (bill : Bill)
  | deleteBill
  | updateBillTotals (subtotalMinor taxMinor : ℤ) (taxBreakdown : StoredTaxBreakdown)
      (pricesIncludeTax : Bool)
  | finalizeBill (billNumber : ℕ) (discountMinor : Option ℤ) (discountReason : Option String)
      (roundOffMinor : Option ℤ) (tax : Option (ℤ × StoredTaxBreakdown))
      (finalizedByStaffId : Option ℕ) (finalizedAt : ℤ)
  | upsertBillNumberCounter (lastNumber : ℕ)
  | createTender (tender : Tender)
  | createIntent (intent : PaymentIntent)
  | updateIntent (id : ℕ) (status : PaymentIntentStatus) (failureReason : Option String)
      (succeededAt : Option ℤ)
  | flagIntent (id : ℕ) (failureReason : String)
  | createShare (share : BillShare)
  | updateShareAmount (id : ℕ) (amountMinor : ℤ)
  | payShare (id : ℕ) (payerPhone : Option String) (tenderId : ℕ) (paidAt : ℤ)
  | createCreditNote (note : CreditNote)
  | createLine (line : OrderLine)
  | updateLineQuantity (id quantity : ℕ)
  | updateLineSeat (id seatNumber : ℕ)
  | deleteLineModifiers (id : ℕ)
  | createLineModifier (id : ℕ) (modifier : OrderLineModifier)
  | deleteLine (id : ℕ)
  | voidLines (ids : List ℕ) (voidedAt : ℤ)
  | createTicket (ticket : Ticket)
  | updateTicket (id : ℕ) (status : TicketStatus) (bumpedAt : Option (Option ℤ))
  | createTicketLine (line : TicketLine)
  | createAddOnEvent (ticketId : ℕ)
  | voidTicketLines (keys : List (ℕ × ℕ))
  | updateOrderStatus (status : OrderStatus)
  | transferOrder (ownerId : ℕ)
  | deleteOrder
  | settleSession
  | goLive
  | setLiveSince (liveSince : Option ℤ)
  | setTaxRegistration (registration : TenantTaxRegistration)
  | setPaymentsSimulator (on : Bool)
  | setSurroundings (around : Surroundings)
  | createPrintJob (job : PrintJob)
  | deletePrintJobs
  | createAuditEvent (event : AuditEvent)
  deriving DecidableEq

/-- Changing the rows of a table that have the given id. -/
def updateRows {α : Type} (idOf : α → ℕ) (id : ℕ) (f : α → α) (rows : List α) : List α :=
  rows.map fun r => if idOf r = id then f r else r

def Bill.withTotals (b : Bill) (subtotalMinor taxMinor : ℤ) (taxBreakdown : StoredTaxBreakdown)
    (pricesIncludeTax : Bool) : Bill :=
  { b with subtotalMinor, taxMinor, taxBreakdown := some taxBreakdown, pricesIncludeTax }

def Bill.finalize (b : Bill) (billNumber : ℕ) (discountMinor : Option ℤ)
    (discountReason : Option String) (roundOffMinor : Option ℤ)
    (tax : Option (ℤ × StoredTaxBreakdown)) (finalizedByStaffId : Option ℕ)
    (finalizedAt : ℤ) : Bill :=
  { b with
    billNumber := some billNumber, discountMinor, discountReason, roundOffMinor
    taxMinor := (tax.map (·.1)).getD b.taxMinor
    taxBreakdown := (tax.map (some ·.2)).getD b.taxBreakdown
    status := .finalized, finalizedByStaffId, finalizedAt := some finalizedAt }

/-- A status change; the time of success is only set, never cleared. -/
def PaymentIntent.update (i : PaymentIntent) (status : PaymentIntentStatus)
    (failureReason : Option String) (succeededAt : Option ℤ) : PaymentIntent :=
  { i with status, failureReason, succeededAt := succeededAt.or i.succeededAt }

def BillShare.pay (share : BillShare) (payerPhone : Option String) (tenderId : ℕ)
    (paidAt : ℤ) : BillShare :=
  { share with status := .paid, payerPhone, tenderId := some tenderId, paidAt := some paidAt }

/-- What a writing statement does to the rows. -/
def Store.apply (w : Write) (s : Store) : Store :=
  match w with
  | .createBill bill => { s with bill := some bill }
  | .deleteBill => { s with bill := none }
  | .updateBillTotals sub tax breakdown incl =>
      { s with bill := s.bill.map (·.withTotals sub tax breakdown incl) }
  | .finalizeBill number discount reason roundOff tax staff at_ =>
      { s with bill := s.bill.map (·.finalize number discount reason roundOff tax staff at_) }
  | .upsertBillNumberCounter n => { s with billNumberCounter := some n }
  | .createTender t => { s with tenders := s.tenders ++ [t] }
  | .createIntent i => { s with intents := s.intents ++ [i] }
  | .updateIntent id status failureReason succeededAt =>
      let row (i : PaymentIntent) := i.update status failureReason succeededAt
      { s with intents := updateRows PaymentIntent.id id row s.intents }
  | .flagIntent id reason =>
      let row (i : PaymentIntent) : PaymentIntent := { i with failureReason := some reason }
      { s with intents := updateRows PaymentIntent.id id row s.intents }
  | .createShare sh => { s with shares := s.shares ++ [sh] }
  | .updateShareAmount id amountMinor =>
      let row (sh : BillShare) : BillShare := { sh with amountMinor }
      { s with shares := updateRows BillShare.id id row s.shares }
  | .payShare id payerPhone tenderId paidAt =>
      { s with shares := updateRows BillShare.id id (·.pay payerPhone tenderId paidAt) s.shares }
  | .createCreditNote note => { s with creditNotes := s.creditNotes ++ [note] }
  | .createLine l => { s with lines := s.lines ++ [l] }
  | .updateLineQuantity id quantity =>
      let row (l : OrderLine) : OrderLine := { l with quantity }
      { s with lines := updateRows OrderLine.id id row s.lines }
  | .updateLineSeat id seat =>
      let row (l : OrderLine) : OrderLine := { l with seatNumber := some seat }
      { s with lines := updateRows OrderLine.id id row s.lines }
  | .deleteLineModifiers id =>
      let row (l : OrderLine) : OrderLine := { l with modifiers := [] }
      { s with lines := updateRows OrderLine.id id row s.lines }
  | .createLineModifier id m =>
      let row (l : OrderLine) : OrderLine := { l with modifiers := l.modifiers ++ [m] }
      { s with lines := updateRows OrderLine.id id row s.lines }
  | .deleteLine id =>
      -- A combo's items go with it (`ON DELETE CASCADE` on the parent).
      { s with lines := s.lines.filter fun l => !(l.id = id || l.parentLineId = some id) }
  | .voidLines ids voidedAt =>
      let row (l : OrderLine) : OrderLine :=
        if l.id ∈ ids then { l with voidedAt := some voidedAt } else l
      { s with lines := s.lines.map row }
  | .createTicket t => { s with tickets := s.tickets ++ [t] }
  | .updateTicket id status bumpedAt =>
      let row (t : Ticket) : Ticket := { t with status, bumpedAt := bumpedAt.getD t.bumpedAt }
      { s with tickets := updateRows Ticket.id id row s.tickets }
  | .createTicketLine l => { s with ticketLines := s.ticketLines ++ [l] }
  | .createAddOnEvent ticketId => { s with addOnEvents := s.addOnEvents ++ [ticketId] }
  | .voidTicketLines keys =>
      let row (l : TicketLine) : TicketLine :=
        if l.key ∈ keys then { l with voided := true } else l
      { s with ticketLines := s.ticketLines.map row }
  | .updateOrderStatus status => { s with order := { s.order with status } }
  | .transferOrder ownerId => { s with order := { s.order with ownerId := some ownerId } }
  | .deleteOrder => { s with order := { s.order with deleted := true } }
  | .settleSession =>
      let row (x : TableSession) : TableSession := { x with status := .settled }
      { s with session := s.session.map row }
  | .goLive => { s with tenant := { s.tenant with status := .active } }
  | .setLiveSince liveSince => { s with tenant := { s.tenant with liveSince } }
  | .setTaxRegistration r => { s with taxRegistration := some r }
  | .setPaymentsSimulator b => { s with paymentsSimulator := b }
  | .setSurroundings around => { s with around }
  | .createPrintJob job => { s with printJobs := s.printJobs ++ [job] }
  | .deletePrintJobs => { s with printJobs := [] }
  | .createAuditEvent e => { s with auditEvents := s.auditEvents ++ [e] }

instance : WriteTo Write Store := ⟨Store.apply⟩

@[simp] theorem writeTo_apply (w : Write) (s : Store) :
    WriteTo.apply w s = s.apply w := rfl

/-! ### Permissions -/

inductive Permission
  | takeOrders
  | fireKitchen
  | settleBills
  | discounts
  | voidAfterFire
  | refunds
  | zReport
  | manageMenu
  | manageStaff
  deriving DecidableEq, Repr

def permissions : List Permission :=
  [.takeOrders, .fireKitchen, .settleBills, .discounts, .voidAfterFire, .refunds, .zReport,
    .manageMenu, .manageStaff]

/-- What the seeded roles may do; any other name gets nothing. -/
def permissionsFor (role : String) : List Permission :=
  if role = "Owner" ∨ role = "Manager" then permissions
  else if role = "Cashier" then [.takeOrders, .fireKitchen, .settleBills, .discounts]
  else if role = "Waiter" then [.takeOrders, .fireKitchen]
  else if role = "Kitchen" then [.fireKitchen]
  else if role = "Accountant" then [.settleBills, .zReport]
  else []

def roleHasPermission (role : String) (permission : Permission) : Bool :=
  (permissionsFor role).contains permission

/-! ### Errors and transactions -/

/-- The HTTP status an error is answered with. -/
inductive ErrorKind
  | badRequest
  | unauthorized
  | forbidden
  | notFound
  | conflict
  | gone
  | tooManyRequests
  | internal
  deriving DecidableEq, Repr

structure ApiError where
  kind : ErrorKind
  code : String
  message : String
  deriving DecidableEq, Repr

/-- A transaction of the region's database. -/
abbrev Tx (α : Type) := Txn Store Key Read Write ApiError α

abbrev TxFootprint := Footprint Key Read Write

/-- Throwing one of the framework's exceptions. -/
def raise {α : Type} (kind : ErrorKind) (code message : String) : Tx α :=
  Txn.throw ⟨kind, code, message⟩

/-- A check that throws. -/
def raiseIf (c : Prop) [Decidable c] (kind : ErrorKind) (code message : String) : Tx Unit :=
  if c then raise kind code message else pure ()

/-- Work done elsewhere that answers or throws: the menu's prices, a manager's PIN. -/
def ofExcept {α : Type} : Except ApiError α → Tx α
  | .ok a => pure a
  | .error e => Txn.throw e

/-- A step that is only taken for something that was given. -/
def whenGiven {α : Type} (x : Option α) (f : α → Tx Unit) : Tx Unit :=
  match x with
  | some a => f a
  | none => pure ()

/-- What the error filter answers when a unique value is taken and nothing caught it. -/
def uniqueViolation : ApiError := ⟨.conflict, "conflict", "This already exists"⟩

/-- What the error filter answers for anything it does not know. -/
def internalError : ApiError :=
  ⟨.internal, "internal_error", "Something went wrong on our side - try again"⟩

/-- An `INSERT` that nothing catches: the keys it claims must be free. -/
def insertRow (taken : Store → Bool) (keys : List Key) (w : Write) : Tx Unit := do
  let inserted ← Txn.writeWhen (fun v => !taken v) keys [w]
  if inserted then pure () else Txn.throw uniqueViolation

section Rules

variable {E : ApiError → Prop} {V : Env → Store → Prop} {α : Type}

@[simp] theorem wlp_raise (kind : ErrorKind) (code message : String) (Q : α → Store → Prop)
    (v : Store) : (raise kind code message : Tx α).wlp E V Q v ↔ E ⟨kind, code, message⟩ :=
  Iff.rfl

@[simp] theorem wlp_raiseIf (c : Prop) [Decidable c] (kind : ErrorKind) (code message : String)
    (Q : Unit → Store → Prop) (v : Store) :
    (raiseIf c kind code message).wlp E V Q v ↔
      if c then E ⟨kind, code, message⟩ else Q () v := by
  unfold raiseIf
  split <;> rfl

@[simp] theorem wlp_ofExcept_ok (a : α) (Q : α → Store → Prop) (v : Store) :
    (ofExcept (.ok a)).wlp E V Q v ↔ Q a v := Iff.rfl

@[simp] theorem wlp_ofExcept_error (e : ApiError) (Q : α → Store → Prop) (v : Store) :
    (ofExcept (.error e)).wlp E V Q v ↔ E e := Iff.rfl

@[simp] theorem wlp_insertRow (taken : Store → Bool) (keys : List Key) (w : Write)
    (Q : Unit → Store → Prop) (v : Store) :
    (insertRow taken keys w).wlp E V Q v ↔
      ∀ env, V env v → if taken v then E uniqueViolation else Q () (v.apply w) := by
  simp only [insertRow, Txn.wlp_bind, Txn.wlp_writeWhen]
  refine forall_congr' fun env => imp_congr_right fun _ => ?_
  cases taken v <;> rfl

theorem commits_raiseIf {c : Prop} [Decidable c] {kind : ErrorKind} {code message : String}
    {Q : Unit → Store → Prop} {v : Store} (hQ : ¬ c → Q () v) :
    (raiseIf c kind code message).commits Q v := by
  rw [Txn.commits, wlp_raiseIf]
  by_cases hc : c
  · rw [if_pos hc]
    trivial
  · rw [if_neg hc]
    exact hQ hc

theorem commits_ofExcept {x : Except ApiError α} {Q : α → Store → Prop} {v : Store}
    (hQ : ∀ a, x = .ok a → Q a v) : (ofExcept x).commits Q v := by
  cases x with
  | error e => trivial
  | ok a => exact hQ a rfl

theorem commits_whenGiven {x : Option α} {f : α → Tx Unit} {Q : Unit → Store → Prop} {v : Store}
    (hsome : ∀ a, x = some a → (f a).commits Q v) (hnone : x = none → Q () v) :
    (whenGiven x f).commits Q v := by
  cases x with
  | some a => exact hsome a rfl
  | none => exact hnone rfl

theorem commits_insertRow {taken : Store → Bool} {keys : List Key} {w : Write}
    {Q : Unit → Store → Prop} {v : Store} (hQ : taken v = false → Q () (v.apply w)) :
    (insertRow taken keys w).commits Q v := by
  rw [Txn.commits, wlp_insertRow]
  intro _ _
  cases htaken : taken v with
  | true => trivial
  | false => exact hQ htaken

end Rules

/-! ### What a program leaves alone -/

/-- The table a writing statement writes. -/
inductive Table
  | bills
  | billNumberCounters
  | tenders
  | paymentIntents
  | billShares
  | creditNotes
  | orderLines
  | tickets
  | orders
  | tableSessions
  | tenants
  | taxRegistrations
  | printJobs
  | auditEvents
  | environment
  deriving DecidableEq, Repr

def Write.table : Write → Table
  | .createBill .. | .deleteBill | .updateBillTotals .. | .finalizeBill .. => .bills
  | .upsertBillNumberCounter .. => .billNumberCounters
  | .createTender .. => .tenders
  | .createIntent .. | .updateIntent .. | .flagIntent .. => .paymentIntents
  | .createShare .. | .updateShareAmount .. | .payShare .. => .billShares
  | .createCreditNote .. => .creditNotes
  | .createLine .. | .updateLineQuantity .. | .updateLineSeat .. | .deleteLineModifiers ..
  | .createLineModifier .. | .deleteLine .. | .voidLines .. => .orderLines
  | .createTicket .. | .updateTicket .. | .createTicketLine .. | .createAddOnEvent ..
  | .voidTicketLines .. => .tickets
  | .updateOrderStatus .. | .transferOrder .. | .deleteOrder => .orders
  | .settleSession => .tableSessions
  | .goLive | .setLiveSince .. => .tenants
  | .setTaxRegistration .. => .taxRegistrations
  | .createPrintJob .. | .deletePrintJobs => .printJobs
  | .createAuditEvent .. => .auditEvents
  | .setPaymentsSimulator .. | .setSurroundings .. => .environment

/-- The rows of a table are the same in both stores. -/
def Table.same (v v' : Store) : Table → Prop
  | .bills => v'.bill = v.bill
  | .billNumberCounters => v'.billNumberCounter = v.billNumberCounter
  | .tenders => v'.tenders = v.tenders
  | .paymentIntents => v'.intents = v.intents
  | .billShares => v'.shares = v.shares
  | .creditNotes => v'.creditNotes = v.creditNotes
  | .orderLines => v'.lines = v.lines
  | .tickets => v'.tickets = v.tickets ∧ v'.ticketLines = v.ticketLines ∧
      v'.addOnEvents = v.addOnEvents
  | .orders => v'.order = v.order
  | .tableSessions => v'.session = v.session
  | .tenants => v'.tenant = v.tenant
  | .taxRegistrations => v'.taxRegistration = v.taxRegistration
  | .printJobs => v'.printJobs = v.printJobs
  | .auditEvents => v'.auditEvents = v.auditEvents
  | .environment => v'.paymentsSimulator = v.paymentsSimulator ∧ v'.around = v.around

/-- Everything outside the tables `ts` is the same in both stores. -/
def Frame (ts : List Table) (v v' : Store) : Prop := ∀ t, t ∉ ts → t.same v v'

/-- A footprint whose writes are all in the tables `ts`. -/
def Touching (ts : List Table) (l : TxFootprint) : Prop := ∀ w ∈ l.writes, w.table ∈ ts

theorem Frame.refl (ts : List Table) (v : Store) : Frame ts v v := by
  intro t _
  cases t <;> simp [Table.same]

theorem Frame.trans {ts : List Table} {v v' v'' : Store} (h : Frame ts v v')
    (h' : Frame ts v' v'') : Frame ts v v'' := by
  intro t ht
  have h₁ := h t ht
  have h₂ := h' t ht
  cases t <;> simp_all [Table.same]

theorem Frame.mono {ts ts' : List Table} {v v' : Store} (h : Frame ts v v') (hts : ts ⊆ ts') :
    Frame ts' v v' :=
  fun t ht => h t fun ht' => ht (hts ht')

/-- A write changes nothing outside its own table. -/
theorem Write.frame (w : Write) (v : Store) : Frame [w.table] v (v.apply w) := by
  intro t ht
  have ht : t ≠ w.table := by simpa using ht
  cases w <;> cases t <;> first | exact absurd rfl ht | rfl | exact ⟨rfl, rfl⟩ | exact ⟨rfl, rfl, rfl⟩

theorem frame_apply {ts : List Table} {w : Write} (h : w.table ∈ ts) (v : Store) :
    Frame ts v (v.apply w) :=
  (w.frame v).mono (by simpa using h)

theorem frame_applyAll {ts : List Table} {ws : List Write} (h : ∀ w ∈ ws, w.table ∈ ts)
    (v : Store) : Frame ts v (applyAll ws v) := by
  induction ws generalizing v with
  | nil => exact .refl ts v
  | cons w ws ih =>
      exact (frame_apply (h w List.mem_cons_self) v).trans
        (ih (fun w' hw' => h w' (List.mem_cons_of_mem _ hw')) _)

theorem Touching.frame {ts : List Table} {l : TxFootprint} (h : Touching ts l) (v : Store) :
    Frame ts v (applyAll l.writes v) :=
  frame_applyAll h v

section Emits

variable {α : Type} {ts : List Table}

@[simp] theorem emits_query (f : Store → α) :
    (Txn.query f : Tx α).Emits (Touching ts) := by
  simp [Txn.query, Touching]

@[simp] theorem emits_clock : (Txn.clock : Tx ℤ).Emits (Touching ts) := by
  simp [Txn.clock, Touching]

@[simp] theorem emits_uuid : (Txn.uuid : Tx ℕ).Emits (Touching ts) := by
  simp [Txn.uuid, Touching]

@[simp] theorem emits_raise (kind : ErrorKind) (code message : String) :
    (raise kind code message : Tx α).Emits (Touching ts) := trivial

@[simp] theorem emits_raiseIf (c : Prop) [Decidable c] (kind : ErrorKind) (code message : String) :
    (raiseIf c kind code message).Emits (Touching ts) := .ite trivial trivial

@[simp] theorem emits_ofExcept (x : Except ApiError α) :
    (ofExcept x).Emits (Touching ts) := by
  cases x <;> trivial

theorem emits_whenGiven {β : Type} {x : Option β} {f : β → Tx Unit}
    (h : ∀ b, (f b).Emits (Touching ts)) : (whenGiven x f).Emits (Touching ts) := by
  cases x with
  | some b => exact h b
  | none => trivial

theorem emits_exec {locks : Store → List Key} {writes : Store → List Write}
    (h : ∀ v, ∀ w ∈ writes v, w.table ∈ ts) :
    (Txn.exec locks writes : Tx Unit).Emits (Touching ts) :=
  ⟨fun _ v => h v, fun _ => trivial⟩

theorem emits_writeWhen {p : Store → Bool} {locks : List Key} {writes : List Write}
    (h : ∀ w ∈ writes, w.table ∈ ts) :
    (Txn.writeWhen p locks writes : Tx Bool).Emits (Touching ts) := by
  refine ⟨fun _ v => ?_, fun _ => trivial⟩
  cases hp : p v
  · simp [hp, Touching]
  · simpa [hp, Touching] using h

theorem emits_insertRow {taken : Store → Bool} {keys : List Key} {w : Write}
    (h : w.table ∈ ts) : (insertRow taken keys w).Emits (Touching ts) :=
  (emits_writeWhen (by simpa using h)).bind fun _ => .ite trivial trivial

end Emits

/-- A program that only writes `ts`, run alone, leaves the rest as it was. -/
theorem emits_wlp_frame {α : Type} {ts : List Table} {p : Tx α} (h : p.Emits (Touching ts))
    {E : ApiError → Prop} {V : Env → Store → Prop} (hE : p.Throws E) (v : Store) :
    p.wlp E V (fun _ v' => Frame ts v v') v :=
  Txn.Emits.wlp h hE (fun _ hl _ hv => hv.trans (hl.frame _)) (.refl ts v)

theorem Frame.eq {v v' : Store} (h : Frame [] v v') : v' = v := by
  have hsame : ∀ t : Table, t.same v v' := fun t => h t (by simp)
  have h₁ := hsame .tickets
  have h₂ := hsame .environment
  simp only [Table.same] at h₁ h₂
  cases v
  cases v'
  simp only [Store.mk.injEq]
  exact ⟨h₂.1, hsame .tenants, hsame .taxRegistrations, h₂.2, hsame .billNumberCounters,
    hsame .orders, hsame .tableSessions, hsame .orderLines, h₁.1, h₁.2.1, h₁.2.2, hsame .bills,
    hsame .tenders, hsame .paymentIntents, hsame .billShares, hsame .creditNotes, hsame .printJobs,
    hsame .auditEvents⟩

/-- A program that only reads. -/
theorem commits_reads {α : Type} {p : Tx α} (h : p.Emits (Touching [])) {Q : α → Store → Prop}
    {v : Store} (hQ : ∀ a, Q a v) : p.commits Q v :=
  Txn.wlp_mono (emits_wlp_frame h (.all (fun _ => trivial) p) v) fun a _ hframe => hframe.eq ▸ hQ a

end RestiqBackend
