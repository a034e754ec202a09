import RestiqBackend.GuestBills

/-!
What else moves under a bill: the tenant's mode, its tax registration, the server's
simulator switch and the sending of the order.

`setMode` (`src/ops/tenants/directory.service.ts`) switches a tenant between Test
and Live, `updateTaxRegistration` (`src/admin/tax/tax-registration.service.ts`)
changes what its prices are taxed at, and `updateStatus`
(`src/pos/orders/orders.service.ts`) is what puts lines on kitchen tickets.
-/

namespace RestiqBackend

open ReadCommitted

inductive Mode
  | test
  | live
  deriving DecidableEq

def Mode.action : Mode → String
  | .test => "tenant.switched_to_test"
  | .live => "tenant.switched_to_live"

def Mode.text : Mode → String
  | .test => "Test"
  | .live => "Live"

/-- When the tenant's bills were finalized, this one's included. -/
def Store.finalizedTimes (v : Store) : List ℤ :=
  (v.bill.bind (·.finalizedAt)).toList ++ v.around.otherFinalizedAt

/-- Going back to Test is refused once there are sales made while Live. -/
def nextLiveSince (current : Option ℤ) : Mode → Tx (Option ℤ)
  | .test => do
      let liveSale ← Txn.query fun v => v.finalizedTimes.any fun t => current.any (· ≤ t)
      raiseIf (liveSale = true) .conflict "tenant_has_live_sales"
        "This tenant has real sales since it went Live, so it cannot go back to Test mode"
      pure none
  | .live => do
      let now ← Txn.clock
      pure (some now)

def setMode (operatorId : ℕ) (mode : Mode) (reason : String) : Tx (Option ℤ) := do
  let current ← Txn.query (·.tenant.liveSince)
  raiseIf (current.isNone = decide (mode = .test)) .conflict "conflict"
    ("This tenant is already in " ++ mode.text ++ " mode")
  let liveSince ← nextLiveSince current mode
  Txn.exec (fun _ => [.tenant]) fun _ => [.setLiveSince liveSince]
  Txn.exec (fun _ => []) fun _ =>
    [.createAuditEvent ⟨mode.action, some operatorId, none, .text reason⟩]
  pure liveSince

structure UpdateTaxRegistrationDto where
  taxProfile : Option String
  compositionScheme : Option Bool
  gstRegistered : Option Bool
  gstRatePercent : Option ℕ
  gstSplitRounding : Option GstSplitRounding

/-- The columns an update leaves: the ones given, over the ones there, over the defaults. -/
def UpdateTaxRegistrationDto.over (dto : UpdateTaxRegistrationDto)
    (existing : Option TenantTaxRegistration) : TenantTaxRegistration where
  taxProfile := (dto.taxProfile.or (existing.map (·.taxProfile))).getD ""
  compositionScheme := (dto.compositionScheme.or (existing.map (·.compositionScheme))).getD false
  gstRegistered := (dto.gstRegistered.or (existing.map (·.gstRegistered))).getD true
  gstRatePercent := dto.gstRatePercent.or (existing.bind (·.gstRatePercent))
  gstSplitRounding :=
    (dto.gstSplitRounding.or (existing.map (·.gstSplitRounding))).getD .exactTotal

def updateTaxRegistration (dto : UpdateTaxRegistrationDto) : Tx TenantTaxRegistration := do
  let country ← Txn.query (·.tenant.country)
  let existing ← Txn.query (·.taxRegistration)
  raiseIf (country = .IN ∧ dto.gstRegistered = some false) .badRequest "validation_failed"
    "IN tenants cannot set gstRegistered to false"
  let updated := dto.over existing
  raiseIf (dto.gstRatePercent ≠ none ∧ updated.gstRegistered = false) .badRequest
    "validation_failed" "gstRatePercent is only allowed when gstRegistered is not false"
  Txn.exec (fun _ => [.taxRegistration]) fun _ => [.setTaxRegistration updated]
  pure updated

/-- Restarting the server with the other setting of its switch. -/
def setPaymentsSimulator (on : Bool) : Tx Unit :=
  Txn.exec (fun _ => []) fun _ => [.setPaymentsSimulator on]

/-- Shifts, devices, stations and the tenant's other bills going their own way. -/
def changeSurroundings (around : Surroundings) : Tx Unit :=
  Txn.exec (fun _ => []) fun _ => [.setSurroundings around]

def OrderStatus.text : OrderStatus → String
  | .open => "open"
  | .sent => "sent"
  | .closed => "closed"

/-- The moves staff may make by hand. -/
def forwardTransitions : OrderStatus → List OrderStatus
  | .open => [.sent]
  | .sent => []
  | .closed => []

/-- Sending an order, or what was added since, to the kitchen. -/
def updateStatus (staff : PosPrincipal) (ownerName : String) (status : OrderStatus) : Tx Unit := do
  let order ← Txn.query (·.order)
  assertOwner order staff ownerName
  if order.status = .sent ∧ status = .sent then do
    let fired ← fireOnSend order.outletId
    raiseIf (fired = 0) .conflict "invalid_transition"
      "Everything on this order is already with the kitchen"
  else do
    raiseIf (status ∉ forwardTransitions order.status) .conflict "invalid_transition"
      ("Cannot move an order from \"" ++ order.status.text ++ "\" to \"" ++ status.text ++ "\"")
    Txn.exec (fun _ => [.order]) fun _ => [.updateOrderStatus status]
    if status = .sent then do
      let _ ← fireOnSend order.outletId
    else pure ()

end RestiqBackend
