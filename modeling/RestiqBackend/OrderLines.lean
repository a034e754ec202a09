import RestiqBackend.BillCore

/-!
Order lines (`src/pos/orders/order-lines.service.ts`).

A line may be added while the order is not closed, changed or removed until the
kitchen has it, and only voided after that. Whatever makes the bill smaller first
takes the bill's lock and refuses once money has touched the bill. What the menu
answers for an item (that it exists, is available, and what it costs) is an
argument of the operation: the menu's tables are read, never written.
-/

namespace RestiqBackend

open ReadCommitted

/-- The signed-in member of staff. -/
structure PosPrincipal where
  id : ℕ
  role : String
  outletId : ℕ

/-! ### Checks -/

/-- Owner-only: an order nobody has claimed is anyone's. The owner's name in the
message is read from the staff table. -/
def assertOwner (order : Order) (staff : PosPrincipal) (ownerName : String) : Tx Unit :=
  raiseIf (order.ownerId ≠ none ∧ order.ownerId ≠ some staff.id) .forbidden "not_owner"
    ("This order belongs to " ++ ownerName ++ ". Take it over first to make changes.")

def assertOrderNotClosed (order : Order) : Tx Unit :=
  raiseIf (order.status = .closed) .conflict "conflict" "This order is closed"

/-- Loading the order a line operation is about, with the checks they all make. -/
def loadOpenOrder (staff : PosPrincipal) (ownerName : String) : Tx Order := do
  let order ← Txn.query (·.order)
  assertOwner order staff ownerName
  assertOrderNotClosed order
  pure order

def loadOrderLine (lineId : ℕ) : Tx OrderLine := do
  let line ← Txn.query fun v => v.lines.find? (·.id = lineId)
  match line.filter (·.voidedAt.isNone) with
  | some line => pure line
  | none => raise .notFound "not_found" "No such order line"

/-- The line plus, for a combo, its items. -/
def lineAndChildIds (line : OrderLine) : Tx (List ℕ) := do
  let children ← Txn.query fun v =>
    (v.lines.filter (·.parentLineId = some line.id)).map (·.id)
  pure (line.id :: children)

def isSentToKitchen (lineIds : List ℕ) : Tx Bool :=
  Txn.query fun v => v.ticketLines.any fun l => l.orderLineId ∈ lineIds

def assertLineNotSent (line : OrderLine) : Tx Unit := do
  let ids ← lineAndChildIds line
  let sent ← isSentToKitchen ids
  raiseIf (sent = true) .conflict "line_sent"
    "The kitchen already has this item - ask a manager to void it"

inductive ComboAction
  | change
  | remove
  deriving DecidableEq

def ComboAction.text : ComboAction → String
  | .change => "change"
  | .remove => "remove"

def assertNotComboLine (line : OrderLine) (action : ComboAction) : Tx Unit := do
  raiseIf (line.comboId ≠ none ∧ action = .change) .conflict "combo_locked"
    "Remove the combo and add it again to change it"
  raiseIf (line.parentLineId ≠ none) .conflict "combo_locked"
    ("This item is part of a combo - " ++ action.text ++ " the whole combo instead")

/-- How much money has touched the bill: tenders, active intents and paid shares. -/
def Store.paymentCount (v : Store) : ℕ :=
  v.tenders.length + v.activeIntents.length +
    (v.shares.filter fun sh => sh.status = .paid || sh.paidAt.isSome).length

/-- Takes the bill's lock, and refuses once money has touched the bill. Where there
is no bill there is nothing to lock. -/
def assertBillHasNoPayments : Tx Unit := do
  let hasBill ← Txn.query (·.bill.isSome)
  if hasBill then do
    lockBill
    let payments ← Txn.query Store.paymentCount
    raiseIf (0 < payments) .conflict "bill_has_payments"
      "Payment has been taken on this bill. Refund or reverse it before changing lines."
  else pure ()

/-- Only what makes the bill smaller is held to that. -/
def assertReduction (reduces : Bool) : Tx Unit :=
  if reduces then assertBillHasNoPayments else pure ()

/-! ### Adding -/

structure AddOrderLineDto where
  itemId : ℕ
  variantId : Option ℕ
  quantity : ℕ
  seatNumber : Option ℕ
  one_le_quantity : 1 ≤ quantity

/-- What the menu answers for one item: its current price and those of the chosen
modifiers. Prices are not negative on the menu. -/
structure PricedItem where
  priceMinor : ℕ
  modifiers : List (ℕ × ℕ)

def PricedItem.modifierRows (item : PricedItem) : List OrderLineModifier :=
  item.modifiers.map fun m => ⟨m.1, m.2⟩

/-- Inserting a line, then its modifiers one by one. -/
def createLine (line : OrderLine) (modifiers : List OrderLineModifier) : Tx Unit := do
  insertRow (fun v => v.lines.any (·.id = line.id)) [.line line.id] (.createLine line)
  Txn.forEach (fun m => Txn.exec (fun _ => []) fun _ => [.createLineModifier line.id m]) modifiers

def addLine (staff : PosPrincipal) (ownerName : String) (dto : AddOrderLineDto)
    (menu : Except ApiError PricedItem) : Tx Unit := do
  let _ ← loadOpenOrder staff ownerName
  let item ← ofExcept menu
  let id ← Txn.uuid
  createLine
    { id
      itemId := some dto.itemId, variantId := dto.variantId, comboId := none, parentLineId := none
      quantity := dto.quantity, unitPriceMinor := item.priceMinor, modifiers := []
      seatNumber := dto.seatNumber, guestId := none, guestName := none, voidedAt := none }
    item.modifierRows

structure AddComboLineDto where
  comboId : ℕ
  quantity : ℕ
  seatNumber : Option ℕ
  one_le_quantity : 1 ≤ quantity

/-- One chosen item of a combo, as `resolveComboSelection` answers it. -/
structure ComboChild where
  itemId : ℕ
  variantId : Option ℕ
  quantity : ℕ
  item : PricedItem

structure ComboSelection where
  priceMinor : ℕ
  children : List ComboChild

def addCombo (staff : PosPrincipal) (ownerName : String) (dto : AddComboLineDto)
    (menu : Except ApiError ComboSelection) : Tx Unit := do
  let _ ← loadOpenOrder staff ownerName
  let selection ← ofExcept menu
  let parentId ← Txn.uuid
  createLine
    { id := parentId
      itemId := none, variantId := none, comboId := some dto.comboId, parentLineId := none
      quantity := dto.quantity, unitPriceMinor := selection.priceMinor, modifiers := []
      seatNumber := dto.seatNumber, guestId := none, guestName := none, voidedAt := none } []
  Txn.forEach (fun child : ComboChild => do
    let id ← Txn.uuid
    createLine
      { id
        itemId := some child.itemId, variantId := child.variantId, comboId := none
        parentLineId := some parentId
        quantity := child.quantity * dto.quantity, unitPriceMinor := child.item.priceMinor
        modifiers := []
        seatNumber := dto.seatNumber, guestId := none, guestName := none, voidedAt := none }
      child.item.modifierRows) selection.children

/-! ### Changing, removing, voiding -/

structure UpdateOrderLineDto where
  quantity : Option ℕ
  seatNumber : Option ℕ
  /-- The modifiers to select instead, as the menu answers for them. -/
  modifiers : Option (Except ApiError (List OrderLineModifier))
  one_le_quantity : ∀ q ∈ quantity, 1 ≤ q
  modifiers_nonneg : ∀ x ∈ modifiers, ∀ ms, x = .ok ms → ∀ m ∈ ms, 0 ≤ m.priceMinor

def updateLineQuantity (lineId : ℕ) (quantity : ℕ) : Tx Unit := do
  let updated ← Txn.writeWhen (fun v => v.lines.any (·.id = lineId)) [.line lineId]
    [.updateLineQuantity lineId quantity]
  if updated then pure () else Txn.throw internalError

def updateLineSeat (lineId : ℕ) (seatNumber : ℕ) : Tx Unit := do
  let updated ← Txn.writeWhen (fun v => v.lines.any (·.id = lineId)) [.line lineId]
    [.updateLineSeat lineId seatNumber]
  if updated then pure () else Txn.throw internalError

def modifiersMinor (modifiers : List OrderLineModifier) : ℤ :=
  (modifiers.map (·.priceMinor)).sum

/-- Replacing a line's modifiers; a cheaper selection is a reduction. -/
def replaceModifiers (lineId : ℕ) (modifiers : List OrderLineModifier) : Tx Unit := do
  let previous ← Txn.query fun v =>
    ((v.lines.find? (·.id = lineId)).map (·.modifiers)).getD []
  assertReduction (modifiersMinor modifiers < modifiersMinor previous)
  Txn.exec (fun _ => []) fun _ => [.deleteLineModifiers lineId]
  Txn.forEach (fun m => Txn.exec (fun _ => []) fun _ => [.createLineModifier lineId m]) modifiers

def updateLine (staff : PosPrincipal) (ownerName : String) (lineId : ℕ)
    (dto : UpdateOrderLineDto) : Tx Unit := do
  let _ ← loadOpenOrder staff ownerName
  let line ← loadOrderLine lineId
  assertNotComboLine line .change
  assertLineNotSent line
  assertReduction (dto.quantity.any (· < line.quantity))
  whenGiven dto.quantity (updateLineQuantity lineId)
  whenGiven dto.seatNumber (updateLineSeat lineId)
  whenGiven dto.modifiers fun menu => do
    let modifiers ← ofExcept menu
    replaceModifiers lineId modifiers

def removeLine (staff : PosPrincipal) (ownerName : String) (lineId : ℕ) : Tx Unit := do
  let _ ← loadOpenOrder staff ownerName
  let line ← loadOrderLine lineId
  assertNotComboLine line .remove
  assertLineNotSent line
  assertBillHasNoPayments
  let deleted ← Txn.writeWhen (fun v => v.lines.any (·.id = lineId)) [.line lineId]
    [.deleteLine lineId]
  if deleted then pure () else Txn.throw internalError

/-- What `ManagerAuthService.authorize` answers: the approver, and the reason it
was given. -/
structure ManagerApproval where
  approverId : ℕ
  reason : String

/-- The audit row of a gated action, written in the caller's own transaction. -/
def recordApproval (approval : ManagerApproval) (action : String) (actorId : ℕ) : Tx Unit :=
  Txn.exec (fun _ => []) fun _ =>
    [.createAuditEvent ⟨action, some actorId, some approval.approverId, .text approval.reason⟩]

/-- `updateMany` over the ticket lines that are there. -/
def voidTicketLines (ids : List ℕ) : Tx Unit :=
  let found (v : Store) : List (ℕ × ℕ) :=
    (v.ticketLines.filter fun l => l.orderLineId ∈ ids).map (·.key)
  Txn.exec (fun v => (found v).map fun k => .ticketLine k.1 k.2)
    fun v => [.voidTicketLines (found v)]

/-- Takes back a line the kitchen already has; a combo is voided whole. -/
def voidLine (staff : PosPrincipal) (ownerName : String) (lineId : ℕ)
    (authorize : Except ApiError ManagerApproval) : Tx Unit := do
  let _ ← loadOpenOrder staff ownerName
  let line ← loadOrderLine lineId
  raiseIf (line.parentLineId ≠ none) .conflict "combo_locked"
    "This item is part of a combo - void the whole combo instead"
  let ids ← lineAndChildIds line
  let sent ← isSentToKitchen ids
  raiseIf (sent = false) .conflict "line_not_sent"
    "The kitchen does not have this item yet - just remove it"
  assertBillHasNoPayments
  let approval ← ofExcept authorize
  let voidedAt ← Txn.clock
  Txn.exec (fun v => (ids.filter fun id => v.lines.any (·.id = id)).map .line)
    fun _ => [.voidLines ids voidedAt]
  voidTicketLines ids
  recordApproval approval "void_after_fire" staff.id

end RestiqBackend
