import RestiqBackend.OrderLines

/-!
Payment intents (`src/pos/payments/intent-core.ts`, `intents.service.ts`).

An intent asks the card terminal for an amount. It is created `pending`, and
becomes `succeeded`, `failed`, `cancelled` or `expired` by one guarded `UPDATE`
each; a capture is let in after `expired` too, since the money moved. Only
`confirmIntent` writes the tender of an intent, and on a bill that was settled
meanwhile it writes none and flags the intent for a refund.
-/

namespace RestiqBackend

open ReadCommitted

/-- The failure reason of a capture that landed on a settled bill. -/
def lateCaptureRefundDue : String := "late_capture_refund_due"

/-- An intent loaded with its tender's identifier. -/
structure IntentRow where
  intent : PaymentIntent
  tender : Option ℕ
  deriving DecidableEq

def Store.intentRow (v : Store) (id : ℕ) : Option IntentRow :=
  (v.intents.find? (·.id = id)).map fun i =>
    ⟨i, (v.tenders.find? (·.paymentIntentId = some id)).map (·.id)⟩

/-! ### The core -/

def findIntent (id : ℕ) : Tx IntentRow := do
  let row ← Txn.query (·.intentRow id)
  match row with
  | some row => pure row
  | none => Txn.throw internalError

/-- An `UPDATE` of one intent that is guarded by its status; the row is locked, and
written, only where the guard holds. -/
def updateIntentWhere (id : ℕ) (guard : PaymentIntentStatus → Bool) (status : PaymentIntentStatus)
    (failureReason : Option String) (succeededAt : Option ℤ) : Tx Bool :=
  Txn.writeWhen (fun v => v.intents.any fun i => i.id = id && guard i.status) [.intent id]
    [.updateIntent id status failureReason succeededAt]

/-- The statuses a capture may still come out of. -/
def PaymentIntentStatus.capturable : PaymentIntentStatus → Bool
  | .created | .pending | .expired => true
  | _ => false

/-- The audit row of a capture that has to be given back. -/
def lateCaptureEvent (intent : PaymentIntent) (billId : ℕ) : AuditEvent :=
  ⟨"payment.late_capture_refund_due", none, none,
    .lateCapture intent.id intent.amountMinor intent.currency billId⟩

/-- Money moved: the intent succeeds, and its tender is written in the same
transaction, unless the bill was settled meanwhile. -/
def confirmIntent (id : ℕ) : Tx IntentRow := do
  let target ← findIntent id
  lockBill
  let simulator ← paymentsSimulatorFor
  raiseIf (target.intent.provider = .simulated ∧ simulator = false) .conflict "simulator_disabled"
    "Simulated card payments are turned off"
  let succeededAt ← Txn.clock
  let flipped ← updateIntentWhere id (·.capturable) .succeeded none (some succeededAt)
  let row ← findIntent id
  if flipped = false ∨ row.tender.isSome then pure row
  else do
    let bill ← loadBill
    if bill.bill.status = .finalized then do
      Txn.exec (fun _ => [.intent id]) fun _ => [.flagIntent id lateCaptureRefundDue]
      Txn.exec (fun _ => []) fun _ => [.createAuditEvent (lateCaptureEvent row.intent bill.bill.id)]
      findIntent id
    else do
      let _ ← createTenderRecord
        { method := row.intent.rail.toTenderMethod
          amountMinor := row.intent.amountMinor
          paymentIntentId := some id }
      findIntent id

def failIntent (id : ℕ) (reason : String) : Tx IntentRow := do
  let _ ← updateIntentWhere id (·.isActive) .failed (some reason) none
  findIntent id

/-- Lazy expiry: an active intent past its time is expired before it is returned. -/
def expireIfDue (row : IntentRow) : Tx IntentRow := do
  let now ← Txn.clock
  if ¬ row.intent.isActive ∨ now < row.intent.expiresAt then pure row
  else do
    let _ ← updateIntentWhere row.intent.id (·.isActive) .expired (some "timed_out") none
    findIntent row.intent.id

/-! ### The service -/

def intentTtlMs : ℤ := 5 * 60000

def loadIntent (id : ℕ) : Tx IntentRow := do
  let row ← Txn.query (·.intentRow id)
  match row with
  | some row => pure row
  | none => raise .notFound "not_found" "No such payment intent"

/-- Where work sent from this POS goes: its active linked peripheral, or outlet-wide. -/
def linkedPeripheral (sourcePosId : Option ℕ) (type : DeviceType) : Tx (Option ℕ) :=
  match sourcePosId with
  | none => pure none
  | some pos => Txn.query fun v =>
      (v.around.devices.find? fun d => d.type = type && d.active && d.pairedPosId = some pos &&
        v.around.devices.any fun p => p.id = pos && p.active && p.type = .pos).map (·.id)

/-- Which queue a polling peripheral drains: its own while it is linked. -/
def queueFor (deviceId : Option ℕ) (type : DeviceType) : Tx (Option ℕ) :=
  match deviceId with
  | none => pure none
  | some id => Txn.query fun v =>
      (v.around.devices.find? fun d => d.id = id && d.type = type && d.active &&
        d.pairedPosId.isSome).map (·.id)

def Surroundings.outletTerminals (around : Surroundings) (outletId : ℕ) : List Device :=
  around.devices.filter fun d =>
    d.outletId = outletId && d.type = .terminal && d.active && d.pairedPosId.isNone

structure CreatePaymentIntentDto where
  rail : PaymentRail
  amountMinor : ℤ
  clientKey : String
  deviceId : Option ℕ
  one_le_amountMinor : 1 ≤ amountMinor

/-- Whether a new intent would repeat a key that must be unique, the bill's slot for
an active intent included. -/
def Store.intentTaken (v : Store) (i : PaymentIntent) : Bool :=
  v.intents.any (fun i' => i'.id = i.id || i'.clientKey = i.clientKey) ||
    v.around.otherClientKeys.contains i.clientKey || (i.isActive && !v.activeIntents.isEmpty)

/-- The keys a new active intent claims. -/
def PaymentIntent.keys (i : PaymentIntent) : List Key :=
  [.intent i.id, .clientKey i.clientKey, .activeIntent]

def currencyOf (country : TaxCountry) : String :=
  if country = .AU then "AUD" else "INR"

/-- Refusing an amount that is more than what is still due on the bill. -/
def assertStillDue (bill : BillWithTenders) (amountMinor : ℤ) : Tx Unit :=
  let remainingMinor := bill.bill.totalMinor - (bill.tenders.map (·.amountMinor)).sum
  raiseIf (remainingMinor < amountMinor) .badRequest "amount_exceeds_remaining"
    s!"Only {remainingMinor} is still due on this bill"

def intentActiveMessage : String :=
  "A card payment for this bill is already waiting on the terminal - cancel it there or wait " ++
    "for it to finish"

/-- A stale active intent is expired first; one that still runs refuses the new one. -/
def assertNoActiveIntent : Tx Unit := do
  let active ← Txn.query fun v =>
    (v.activeIntents.head?).bind fun i => v.intentRow i.id
  match active with
  | some row => do
      let row ← expireIfDue row
      raiseIf (row.intent.isActive = true) .conflict "intent_active" intentActiveMessage
  | none => pure ()

/-- The till's linked terminal, else the outlet-wide queue if anything drains it. -/
def routeToTerminal (outletId : ℕ) (deviceId : Option ℕ) : Tx (Option ℕ) := do
  let target ← linkedPeripheral deviceId .terminal
  match target with
  | some target => pure (some target)
  | none => do
      let terminals ← Txn.query fun v => (v.around.outletTerminals outletId).length
      raiseIf (terminals = 0) .conflict "no_terminal"
        ("No card terminal is set up for this till. Take the card on your own machine and " ++
          "record it as External, or choose Cash or UPI.")
      pure none

/-- Inserting the intent that was asked for, once everything allows it. -/
def insertIntent (dto : CreatePaymentIntentDto) (targetDeviceId : Option ℕ) :
    Tx (IntentRow × Bool) := do
  let country ← Txn.query (·.tenant.country)
  let id ← Txn.uuid
  let now ← Txn.clock
  let intent : PaymentIntent :=
    { id
      rail := dto.rail, provider := .simulated
      amountMinor := dto.amountMinor, currency := currencyOf country
      status := .pending, clientKey := dto.clientKey
      failureReason := none, expiresAt := now + intentTtlMs, succeededAt := none
      targetDeviceId }
  let inserted ← Txn.writeWhen (fun v => !v.intentTaken intent) intent.keys [.createIntent intent]
  if inserted then pure (⟨intent, none⟩, true)
  else raise .conflict "intent_active" intentActiveMessage

/-- Idempotent per client key; one active intent on the bill; never more than is due. -/
def createIntent (dto : CreatePaymentIntentDto) : Tx (IntentRow × Bool) := do
  let simulator ← paymentsSimulatorFor
  raiseIf (simulator = false) .conflict "provider_unavailable"
    ("Card terminal payments are not connected yet - take the card on your own terminal and " ++
      "record it as an external payment")
  lockBill
  let loaded ← loadBill
  let bill ← refreshOpenBillTotals loaded
  raiseIf (bill.bill.status = .finalized) .conflict "already_finalized"
    "This bill has already been finalised"
  let onOther ← Txn.query (·.around.otherClientKeys.contains dto.clientKey)
  raiseIf (onOther = true) .conflict "client_key_reused"
    "This clientKey was already used for a different bill"
  let existing ← Txn.query fun v =>
    (v.intents.find? (·.clientKey = dto.clientKey)).bind fun i => v.intentRow i.id
  match existing with
  | some existing => do
      let row ← expireIfDue existing
      pure (row, false)
  | none => do
      assertStillDue bill dto.amountMinor
      assertNoActiveIntent
      let targetDeviceId ← routeToTerminal bill.bill.outletId dto.deviceId
      insertIntent dto targetDeviceId

/-- The settle screen's poll. -/
def getIntent (id : ℕ) : Tx IntentRow := do
  let row ← loadIntent id
  expireIfDue row

/-- Refuses to cancel money that moved; an intent that is over is returned as it is. -/
def cancelIntent (id : ℕ) : Tx IntentRow := do
  let loaded ← loadIntent id
  let row ← expireIfDue loaded
  raiseIf (row.intent.status = .succeeded) .conflict "already_succeeded"
    "This payment already went through - refund it instead"
  if ¬ row.intent.isActive then pure row
  else do
    let _ ← updateIntentWhere id (·.isActive) .cancelled (some "cancelled_by_staff") none
    findIntent id

/-- One `UPDATE` over the outlet: the rows it finds due are locked and written one
by one, each checked again when its turn comes. -/
def sweepDueIntents : Tx Unit := do
  let now ← Txn.clock
  let due ← Txn.query fun v =>
    (v.activeIntents.filter fun i => i.expiresAt ≤ now).map (·.id)
  Txn.forEach (fun id => do
    let _ ← updateIntentWhere id (·.isActive) .expired (some "timed_out") none) due

/-- An order of another outlet is not in its sweep. -/
def sweepOwn (own : Bool) : Tx Unit := if own then sweepDueIntents else pure ()

/-- The terminal's poll: its queue's open requests, oldest first. -/
def listPendingForOutlet (staff : PosPrincipal) (outletId : ℕ) (deviceId : Option ℕ) :
    Tx (List IntentRow) := do
  raiseIf (outletId ≠ staff.outletId) .forbidden "outlet_mismatch" "Not your outlet"
  let own ← Txn.query fun v => decide (v.order.outletId = outletId)
  sweepOwn own
  let target ← queueFor deviceId .terminal
  Txn.query fun v =>
    if own then (v.activeIntents.filter (·.targetDeviceId = target)).filterMap (v.intentRow ·.id)
    else []

inductive SimulatedOutcome
  | success
  | failure
  deriving DecidableEq

def PaymentIntentStatus.text : PaymentIntentStatus → String
  | .created => "created"
  | .pending => "pending"
  | .succeeded => "succeeded"
  | .failed => "failed"
  | .expired => "expired"
  | .cancelled => "cancelled"

def raiseAlreadyTerminal {α : Type} (status : PaymentIntentStatus) : Tx α :=
  raise .conflict "already_terminal" ("This payment is already " ++ status.text)

/-- The simulated provider's answer, idempotent on a repeat of the same outcome. -/
def simulate (id : ℕ) (outcome : SimulatedOutcome) : Tx IntentRow := do
  let row ← loadIntent id
  let simulator ← paymentsSimulatorFor
  raiseIf (row.intent.provider ≠ .simulated ∨ simulator = false) .notFound "not_found"
    "No such payment intent"
  match outcome with
  | .success =>
      if row.intent.status = .succeeded then pure row
      else if row.intent.status = .failed ∨ row.intent.status = .cancelled then
        raiseAlreadyTerminal row.intent.status
      else confirmIntent id
  | .failure => do
      let current ← expireIfDue row
      if current.intent.status = .failed then pure current
      else if ¬ current.intent.isActive then raiseAlreadyTerminal current.intent.status
      else failIntent id "declined"

end RestiqBackend
