import RestiqBackend.BillNumbers

/-!
What staff do to an order besides its lines (`src/pos/orders/orders.service.ts`).

Sending it is `updateStatus`. An order nobody ordered anything on is discarded: its row
is deleted with its empty bill, or closed where the kitchen had some of it. Handing it
over changes its owner. What a deleted order's row still says means nothing, and what other
requests do to it is left open.
-/

namespace RestiqBackend

open ReadCommitted

def loadOrder : Tx Order := do
  let order ← Txn.query (·.order)
  raiseIf (order.deleted = true) .notFound "not_found" "No such order"
  pure order

/-- A delete that a foreign key still refers to, or an update of a row that is gone, fails. -/
def changeRow (allowed : Store → Bool) (keys : List Key) (writes : List Write) : Tx Unit := do
  let changed ← Txn.writeWhen allowed keys writes
  if changed then pure () else Txn.throw internalError

/-- Whether the rows that refer to a bill by a foreign key are all gone. -/
def Store.billUnreferenced (v : Store) : Bool :=
  v.tenders.isEmpty && v.intents.isEmpty && v.shares.isEmpty && v.creditNotes.isEmpty

/-- Print jobs go with the bill (`ON DELETE CASCADE`). -/
def deleteBill (billId : ℕ) : Tx Unit :=
  changeRow (fun v => v.bill.any (·.id = billId) && v.billUnreferenced) [.bill]
    [.deleteBill, .deletePrintJobs]

def deleteOrder : Tx Unit :=
  changeRow
    (fun v => !v.order.deleted && v.lines.isEmpty && v.tickets.isEmpty && v.bill.isNone) [.order]
    [.deleteOrder]

def updateOrder (w : Write) : Tx Unit := changeRow (fun v => !v.order.deleted) [.order] [w]

/-- The bill of an order that is to be discarded, with how much refers to it. -/
def Store.billWithCounts (v : Store) : Option (Bill × ℕ) :=
  v.bill.map fun b => (b, v.tenders.length + v.intents.length + v.shares.length)

/-- An order that never had a line goes; one whose lines were all voided is only closed, so
that the kitchen and the audit keep it. -/
def removeOrder (lines : List OrderLine) : Tx Unit :=
  if lines = [] then deleteOrder else updateOrder (.updateOrderStatus .closed)

/-- Throwing away an order that has nothing on it. What the audit row names it by comes
from its token and its table. -/
def discard (staff : PosPrincipal) (ownerName what : String) : Tx Unit := do
  let order ← loadOrder
  assertOwner order staff ownerName
  raiseIf (order.status = .closed) .conflict "conflict" "This order is already closed"
  let lines ← Txn.query (·.lines)
  raiseIf (lines.any (·.voidedAt.isNone) = true) .conflict "order_not_empty"
    "Remove every item before discarding this order"
  let bill ← Txn.query Store.billWithCounts
  raiseIf (bill.any (fun b => b.1.status ≠ .open || decide (0 < b.2)) = true) .conflict
    "has_payments" "A payment was already started on this order, so it cannot be discarded"
  whenGiven bill fun b => deleteBill b.1.id
  removeOrder lines
  Txn.exec (fun _ => []) fun _ =>
    [.createAuditEvent ⟨"order.discarded", some staff.id, none, .text ("Discarded empty " ++ what)⟩]

/-- Handing the order to another member of staff, whom the tenant must have. -/
def transfer (staff : PosPrincipal) (newOwnerStaffId : ℕ) (newOwnerFound : Bool)
    (reason : String) : Tx Unit := do
  let order ← loadOrder
  raiseIf (order.status = .closed) .conflict "conflict"
    "This order is closed and has no owner to transfer"
  raiseIf (newOwnerFound = false) .badRequest "validation_failed"
    "No such staff member for this tenant"
  updateOrder (.transferOrder newOwnerStaffId)
  Txn.exec (fun _ => []) fun _ =>
    [.createAuditEvent ⟨"order.ownership_transferred", some staff.id, none, .text reason⟩]

inductive OrderOp
  | request (op : Op)
  | discard (staff : PosPrincipal) (ownerName what : String)
  | transfer (staff : PosPrincipal) (newOwnerStaffId : ℕ) (newOwnerFound : Bool) (reason : String)

def OrderOp.prog : OrderOp → Tx Unit
  | .request op => op.prog
  | .discard staff ownerName what => RestiqBackend.discard staff ownerName what
  | .transfer staff newOwner found reason => RestiqBackend.transfer staff newOwner found reason

end RestiqBackend
