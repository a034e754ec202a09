import RestiqBackend.Repayment

/-!
The kitchen's own actions (`src/kitchen/tickets.service.ts`).

A ticket is bumped when its food is ready, recalled when it was not, and refired to
send it once more. None of this looks at the order: the ticket's row is read and then
written by its identifier. A kitchen request is one of these or any other request.
-/

namespace RestiqBackend

open ReadCommitted

/-- How long after it was bumped a ticket can still be reopened. -/
def bumpedWindowMs : ℤ := 12 * 60 * 60 * 1000

def loadTicket (ticketId : ℕ) : Tx Ticket := do
  let ticket ← Txn.query fun v => v.tickets.find? (·.id = ticketId)
  match ticket with
  | some ticket => pure ticket
  | none => raise .notFound "not_found" "No such ticket"

/-- `tx.ticket.update` by identifier alone; a time that is not given is left as it is. -/
def updateTicket (ticketId : ℕ) (status : TicketStatus) (bumpedAt : Option (Option ℤ)) :
    Tx Unit := do
  let updated ← Txn.writeWhen (fun v => v.tickets.any (·.id = ticketId)) [.ticket ticketId]
    [.updateTicket ticketId status bumpedAt]
  if updated then pure () else Txn.throw internalError

def bump (ticketId : ℕ) : Tx Unit := do
  let ticket ← loadTicket ticketId
  raiseIf (ticket.status = .bumped) .conflict "conflict" "This ticket is already bumped"
  let now ← Txn.clock
  updateTicket ticketId .bumped (some (some now))

/-- Returning a bumped ticket to its station's queue, unless that was too long ago. -/
def recallTicket (ticketId : ℕ) : Tx Unit := do
  let ticket ← loadTicket ticketId
  raiseIf (ticket.status ≠ .bumped) .conflict "conflict" "Only a bumped ticket can be recalled"
  let now ← Txn.clock
  raiseIf (ticket.bumpedAt.any fun bumpedAt => bumpedWindowMs < now - bumpedAt) .conflict
    "conflict" "This ticket is too old to reopen"
  updateTicket ticketId .queued none

/-- Sending a ticket to its station once more, whatever its status. -/
def refire (ticketId : ℕ) : Tx Unit := do
  let _ ← loadTicket ticketId
  updateTicket ticketId .queued (some none)

inductive KitchenOp
  | request (op : Op)
  | bump (ticketId : ℕ)
  | recallTicket (ticketId : ℕ)
  | refire (ticketId : ℕ)

def KitchenOp.prog : KitchenOp → Tx Unit
  | .request op => op.prog
  | .bump ticketId => RestiqBackend.bump ticketId
  | .recallTicket ticketId => RestiqBackend.recallTicket ticketId
  | .refire ticketId => RestiqBackend.refire ticketId

end RestiqBackend
