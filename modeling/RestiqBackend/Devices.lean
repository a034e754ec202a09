import Mathlib.Data.List.Nodup
import RestiqBackend.Serial
import RestiqBackend.Store

/-!
The devices of an outlet and the work that waits for them (`src/pos/device-routing.ts`).

A printer or card terminal that is linked to a till serves that till alone, and drains the queue
of its own id; one that is not drains the outlet's. Print jobs and card payments are queued for
the device that was linked when they were sent, so every operation that changes a link or a
device has to look after the queue. Devices are enrolled and revoked by the operators
(`src/ops/devices/devices.service.ts`), linked and revoked by the owner
(`src/admin/devices/devices.service.ts`); work comes from `src/pos/bills/bills.service.ts` and
`src/pos/payments/intents.service.ts`. Each operation is one transaction, alone.
-/

namespace RestiqBackend.Devices

open Serial (check orElseThrow)

/-! ### Rows -/

inductive DeviceType
  | pos
  | kds
  | kiosk
  | cds
  | printer
  | terminal
  deriving DecidableEq

inductive DeviceStatus
  | active
  | revoked
  deriving DecidableEq

structure Device where
  id : ℕ
  tenantId : ℕ
  outletId : Option ℕ
  label : String
  type : DeviceType
  status : DeviceStatus
  enrolledAt : ℤ
  revokedAt : Option ℤ
  pairedPosId : Option ℕ
  deriving DecidableEq

structure EnrolmentCode where
  id : ℕ
  tenantId : ℕ
  outletId : ℕ
  codeHash : String
  deviceType : DeviceType
  usedAt : Option ℤ
  expiresAt : ℤ
  deriving DecidableEq

structure PrintJob where
  id : ℕ
  tenantId : ℕ
  outletId : ℕ
  billId : ℕ
  targetDeviceId : Option ℕ
  printedAt : Option ℤ
  deriving DecidableEq

structure PaymentIntent where
  id : ℕ
  tenantId : ℕ
  outletId : ℕ
  billId : ℕ
  shareId : Option ℕ
  clientKey : String
  amountMinor : ℤ
  status : PaymentIntentStatus
  expiresAt : ℤ
  targetDeviceId : Option ℕ
  deriving DecidableEq

/-- A bill, with what is still due on it. -/
structure Bill where
  id : ℕ
  tenantId : ℕ
  outletId : ℕ
  status : BillStatus
  dueMinor : ℤ
  deriving DecidableEq

/-- The tables, oldest rows first, and the tenants whose card payments are simulated. -/
structure World where
  devices : List Device
  enrolmentCodes : List EnrolmentCode
  printJobs : List PrintJob
  paymentIntents : List PaymentIntent
  bills : List Bill
  simulated : List ℕ
  deriving DecidableEq

inductive Failure
  | badRequest (code message : String)
  | notFound (message : String)
  | forbidden (code message : String)
  | conflict (code message : String)
  | uniqueViolation
  deriving DecidableEq

/-! ### Routing -/

inductive PeripheralType
  | printer
  | terminal
  deriving DecidableEq

def PeripheralType.toDeviceType : PeripheralType → DeviceType
  | .printer => .printer
  | .terminal => .terminal

/-- Where work sent from a till goes: its active linked printer or terminal, if it has one. -/
def linkedPeripheral (w : World) (tenantId : ℕ) (sourcePosId : Option ℕ) (type : PeripheralType) :
    Option ℕ :=
  sourcePosId.bind fun source =>
    (w.devices.find? fun d => d.tenantId = tenantId ∧ d.type = type.toDeviceType ∧
      d.status = .active ∧ d.pairedPosId = some source ∧
      w.devices.any (fun pos => pos.id = source ∧ pos.status = .active ∧ pos.type = .pos) = true).map
      (·.id)

/-- Which queue a polling device drains: its own while it is linked, otherwise the outlet's. -/
def queueFor (w : World) (tenantId : ℕ) (deviceId : Option ℕ) (type : PeripheralType) : Option ℕ :=
  deviceId.bind fun id =>
    (w.devices.find? fun d => d.id = id ∧ d.tenantId = tenantId ∧ d.type = type.toDeviceType ∧
      d.status = .active ∧ d.pairedPosId.isSome = true).map (·.id)

/-! ### What the operations change -/

def World.updateDevice (w : World) (id : ℕ) (f : Device → Device) : World :=
  { w with devices := w.devices.map fun d => if d.id = id then f d else d }

/-- Every device that is linked to a till goes back to its outlet. -/
def World.unlinkFrom (w : World) (tenantId posId : ℕ) : World :=
  { w with devices := w.devices.map fun d =>
      if d.tenantId = tenantId ∧ d.pairedPosId = some posId then { d with pairedPosId := none }
      else d }

def PaymentIntent.active (intent : PaymentIntent) : Bool :=
  intent.status = .created || intent.status = .pending

/-- Work that waits for a device falls back to the outlet's queue. -/
def World.releaseWork (w : World) (tenantId deviceId : ℕ) : World :=
  { w with
    printJobs := w.printJobs.map fun job =>
      if job.tenantId = tenantId ∧ job.targetDeviceId = some deviceId ∧ job.printedAt = none then
        { job with targetDeviceId := none }
      else job
    paymentIntents := w.paymentIntents.map fun intent =>
      if intent.tenantId = tenantId ∧ intent.targetDeviceId = some deviceId ∧
          intent.active = true then
        { intent with targetDeviceId := none }
      else intent }

/-- An active intent is over once its time is up. -/
def PaymentIntent.expire (now : ℤ) (intent : PaymentIntent) : PaymentIntent :=
  if intent.active = true ∧ intent.expiresAt ≤ now then { intent with status := .expired }
  else intent

def World.expireIfDue (w : World) (id : ℕ) (now : ℤ) : World :=
  { w with paymentIntents := w.paymentIntents.map fun intent =>
      if intent.id = id then intent.expire now else intent }

/-! ### Enrolling and revoking -/

def deviceTypeName : DeviceType → String
  | .pos => "Till"
  | .kds => "Kitchen screen"
  | .kiosk => "Kiosk"
  | .cds => "Customer display"
  | .printer => "Printer"
  | .terminal => "Card terminal"

def defaultLabel (type : DeviceType) (sameTypeCount : ℕ) : String :=
  let name := deviceTypeName type
  let number := sameTypeCount + 1
  s!"{name} {number}"

/-- The label is what is left of the one given without the blanks around it. -/
structure EnrollDeviceDto where
  codeHash : String
  label : String
  deriving DecidableEq

def enroll (w : World) (dto : EnrollDeviceDto) (id : ℕ) (now : ℤ) :
    Except Failure (World × Device) := do
  let record ← orElseThrow (.badRequest "code_invalid" "This enrolment code is not valid")
    (w.enrolmentCodes.find? (·.codeHash = dto.codeHash))
  check (record.usedAt = none)
    (.conflict "code_already_used" "This enrolment code has already been used")
  check (now < record.expiresAt) (.badRequest "code_expired" "This enrolment code has expired")
  check (w.devices.any (·.id = id) = false) .uniqueViolation
  let sameType := w.devices.filter fun d => d.tenantId = record.tenantId ∧
    d.outletId = some record.outletId ∧ d.type = record.deviceType
  let device : Device :=
    { id
      tenantId := record.tenantId
      outletId := some record.outletId
      label := if dto.label = "" then defaultLabel record.deviceType sameType.length else dto.label
      type := record.deviceType
      status := .active
      enrolledAt := now
      revokedAt := none
      pairedPosId := none }
  let enrolmentCodes := w.enrolmentCodes.map fun code =>
    if code.id = record.id then { code with usedAt := some now } else code
  pure ({ w with devices := w.devices ++ [device], enrolmentCodes }, device)

/-- The operators' revocation. -/
def opsRevoke (w : World) (deviceId : ℕ) (now : ℤ) : Except Failure (World × ℕ) := do
  let device ← orElseThrow (.notFound "No such device") (w.devices.find? (·.id = deviceId))
  check (device.status ≠ .revoked) (.conflict "conflict" "This device is already revoked")
  pure (w.updateDevice deviceId fun d => { d with status := .revoked, revokedAt := some now },
    deviceId)

/-- The owner's revocation, of a device at an outlet of theirs. -/
def adminRevoke (w : World) (tenantId outletId deviceId : ℕ) (now : ℤ) :
    Except Failure (World × ℕ) := do
  let device ← orElseThrow (.notFound "No such device at this outlet")
    (w.devices.find? fun d => d.id = deviceId ∧ d.tenantId = tenantId ∧ d.outletId = some outletId)
  check (device.status ≠ .revoked) (.conflict "conflict" "This device is already revoked")
  let w := (w.unlinkFrom tenantId deviceId).releaseWork tenantId deviceId
  pure (w.updateDevice deviceId fun d =>
    { d with status := .revoked, revokedAt := some now, pairedPosId := none }, deviceId)

def kindOf (type : DeviceType) : String :=
  if type = .printer then "printer" else "card terminal"

/-- The till is there, and no other device of the same kind is linked to it. -/
def checkPos (w : World) (tenantId outletId : ℕ) (device : Device) (posDeviceId : ℕ) :
    Except Failure Unit := do
  let pos ← orElseThrow (.notFound "No such active POS at this outlet")
    (w.devices.find? fun d => d.id = posDeviceId ∧ d.tenantId = tenantId ∧
      d.outletId = some outletId ∧ d.status = .active ∧ d.type = .pos)
  match w.devices.find? fun d => d.tenantId = tenantId ∧ d.type = device.type ∧
      d.status = .active ∧ d.pairedPosId = some posDeviceId ∧ d.id ≠ device.id with
  | none => pure ()
  | some taken =>
      let label := pos.label
      let kind := kindOf device.type
      let takenLabel := taken.label
      .error (.conflict "pos_already_linked"
        s!"{label} already has a {kind} linked ({takenLabel}). Unlink it first.")

def checkPosIfAny (w : World) (tenantId outletId : ℕ) (device : Device) :
    Option ℕ → Except Failure Unit
  | none => .ok ()
  | some posDeviceId => checkPos w tenantId outletId device posDeviceId

def setPairing (w : World) (tenantId outletId deviceId : ℕ) (posDeviceId : Option ℕ) :
    Except Failure (World × ℕ × Option ℕ) := do
  let device ← orElseThrow (.notFound "No such active device at this outlet")
    (w.devices.find? fun d => d.id = deviceId ∧ d.tenantId = tenantId ∧
      d.outletId = some outletId ∧ d.status = .active)
  check (device.type = .printer ∨ device.type = .terminal) (.badRequest "validation_failed"
    "Only a printer or card terminal can be linked to a POS")
  checkPosIfAny w tenantId outletId device posDeviceId
  let w := w.releaseWork tenantId deviceId
  pure (w.updateDevice deviceId fun d => { d with pairedPosId := posDeviceId },
    (deviceId, posDeviceId))

/-! ### Sending work -/

structure PosPrincipal where
  tenantId : ℕ
  outletId : ℕ
  deriving DecidableEq

def loadBill (w : World) (tenantId billId : ℕ) : Except Failure Bill :=
  orElseThrow (.notFound "No such bill")
    (w.bills.find? fun b => b.id = billId ∧ b.tenantId = tenantId)

/-- Whether a device of a type drains the queue of an outlet. -/
def drainsOutlet (w : World) (tenantId outletId : ℕ) (type : DeviceType) : Bool :=
  w.devices.any fun d => d.tenantId = tenantId ∧ d.outletId = some outletId ∧ d.type = type ∧
    d.status = .active ∧ d.pairedPosId = none

/-- The spooled job, and whether any printer will pick it up. -/
def printBill (w : World) (staff : PosPrincipal) (billId : ℕ) (sourceDeviceId : Option ℕ)
    (id : ℕ) : Except Failure (World × PrintJob × Bool) := do
  let bill ← loadBill w staff.tenantId billId
  let targetDeviceId := linkedPeripheral w staff.tenantId sourceDeviceId .printer
  check (w.printJobs.any (·.id = id) = false) .uniqueViolation
  let job : PrintJob := ⟨id, staff.tenantId, bill.outletId, billId, targetDeviceId, none⟩
  let printerAvailable := targetDeviceId.isSome ||
    drainsOutlet w staff.tenantId bill.outletId .printer
  pure ({ w with printJobs := w.printJobs ++ [job] }, (job, printerAvailable))

/-- A printer's poll. -/
def listPendingPrintJobs (w : World) (staff : PosPrincipal) (outletId : ℕ)
    (deviceId : Option ℕ) : Except Failure (World × List PrintJob) := do
  check (outletId = staff.outletId) (.forbidden "outlet_mismatch" "Not your outlet")
  let targetDeviceId := queueFor w staff.tenantId deviceId .printer
  pure (w, w.printJobs.filter fun job => job.tenantId = staff.tenantId ∧
    job.outletId = outletId ∧ job.printedAt = none ∧ job.targetDeviceId = targetDeviceId)

def markPrinted (w : World) (tenantId jobId : ℕ) (now : ℤ) :
    Except Failure (World × PrintJob) := do
  let printJobs := w.printJobs.map fun job =>
    if job.id = jobId ∧ job.tenantId = tenantId ∧ job.printedAt = none then
      { job with printedAt := some now }
    else job
  let job ← orElseThrow (.notFound "No such print job")
    (printJobs.find? fun job => job.id = jobId ∧ job.tenantId = tenantId)
  pure ({ w with printJobs }, job)

structure CreatePaymentIntentDto where
  clientKey : String
  amountMinor : ℤ
  deviceId : Option ℕ
  deriving DecidableEq

def intentTtlMs : ℤ := 5 * 60000

/-- What an intent that was sent before is answered with. -/
def answerExisting (w : World) (billId : ℕ) (existing : PaymentIntent) (now : ℤ) :
    Except Failure (World × PaymentIntent × Bool) := do
  check (existing.billId = billId)
    (.conflict "client_key_reused" "This clientKey was already used for a different bill")
  pure (w.expireIfDue existing.id now, (existing.expire now, false))

def activeMessage : String :=
  "A card payment for this bill is already waiting on the terminal - cancel it there or wait for " ++
    "it to finish"

def isActiveOf (billId : ℕ) (intent : PaymentIntent) : Bool :=
  intent.billId = billId ∧ intent.shareId = none ∧ intent.active = true

/-- The intent that is active on the bill, if any, is expired first, so that a stale one does not
block. -/
def expireActive (w : World) (billId : ℕ) (now : ℤ) : Except Failure World :=
  match w.paymentIntents.find? (isActiveOf billId) with
  | none => .ok w
  | some active =>
      if (active.expire now).active then .error (.conflict "intent_active" activeMessage)
      else .ok (w.expireIfDue active.id now)

/-- Queues a payment for the terminal of the till it is sent from, or for the outlet's. -/
def sendIntent (w : World) (staff : PosPrincipal) (bill : Bill) (dto : CreatePaymentIntentDto)
    (id : ℕ) (now : ℤ) : Except Failure (World × PaymentIntent × Bool) := do
  let targetDeviceId := linkedPeripheral w staff.tenantId dto.deviceId .terminal
  check (targetDeviceId.isSome = true ∨ drainsOutlet w staff.tenantId bill.outletId .terminal = true)
    (.conflict "no_terminal"
      ("No card terminal is set up for this till. Take the card on your own machine and record it " ++
        "as External, or choose Cash or UPI."))
  check (w.paymentIntents.any (isActiveOf bill.id) = false)
    (.conflict "intent_active" activeMessage)
  check (w.paymentIntents.any (·.id = id) = false) .uniqueViolation
  let intent : PaymentIntent := ⟨id, staff.tenantId, bill.outletId, bill.id, none, dto.clientKey,
    dto.amountMinor, .pending, now + intentTtlMs, targetDeviceId⟩
  pure ({ w with paymentIntents := w.paymentIntents ++ [intent] }, (intent, true))

def createIntent (w : World) (staff : PosPrincipal) (billId : ℕ) (dto : CreatePaymentIntentDto)
    (id : ℕ) (now : ℤ) : Except Failure (World × PaymentIntent × Bool) := do
  check (staff.tenantId ∈ w.simulated) (.conflict "provider_unavailable"
    ("Card terminal payments are not connected yet - take the card on your own terminal and " ++
      "record it as an external payment"))
  let bill ← loadBill w staff.tenantId billId
  check (bill.status ≠ .finalized)
    (.conflict "already_finalized" "This bill has already been finalised")
  match w.paymentIntents.find? fun i => i.tenantId = staff.tenantId ∧ i.clientKey = dto.clientKey with
  | some existing => answerExisting w billId existing now
  | none => do
      let remainingMinor := bill.dueMinor
      check (dto.amountMinor ≤ remainingMinor) (.badRequest "amount_exceeds_remaining"
        s!"Only {remainingMinor} is still due on this bill")
      let w ← expireActive w billId now
      sendIntent w staff bill dto id now

/-- The settle screen's poll of one intent. -/
def getIntent (w : World) (tenantId intentId : ℕ) (now : ℤ) :
    Except Failure (World × PaymentIntent) := do
  let intent ← orElseThrow (.notFound "No such payment intent")
    (w.paymentIntents.find? fun i => i.id = intentId ∧ i.tenantId = tenantId)
  pure (w.expireIfDue intentId now, intent.expire now)

/-- A terminal's poll, which expires what is due at its outlet first. -/
def listPendingForOutlet (w : World) (staff : PosPrincipal) (outletId : ℕ)
    (deviceId : Option ℕ) (now : ℤ) : Except Failure (World × List PaymentIntent) := do
  check (outletId = staff.outletId) (.forbidden "outlet_mismatch" "Not your outlet")
  let paymentIntents := w.paymentIntents.map fun i =>
    if i.tenantId = staff.tenantId ∧ i.outletId = outletId then i.expire now else i
  let targetDeviceId := queueFor w staff.tenantId deviceId .terminal
  pure ({ w with paymentIntents }, paymentIntents.filter fun i => i.tenantId = staff.tenantId ∧
    i.outletId = outletId ∧ i.active = true ∧ i.targetDeviceId = targetDeviceId)

/-! ### Operations -/

inductive Op
  | enroll (dto : EnrollDeviceDto) (id : ℕ) (now : ℤ)
  | setPairing (tenantId outletId deviceId : ℕ) (posDeviceId : Option ℕ)
  | adminRevoke (tenantId outletId deviceId : ℕ) (now : ℤ)
  | opsRevoke (deviceId : ℕ) (now : ℤ)
  | printBill (staff : PosPrincipal) (billId : ℕ) (sourceDeviceId : Option ℕ) (id : ℕ)
  | listPendingPrintJobs (staff : PosPrincipal) (outletId : ℕ) (deviceId : Option ℕ)
  | markPrinted (tenantId jobId : ℕ) (now : ℤ)
  | createIntent (staff : PosPrincipal) (billId : ℕ) (dto : CreatePaymentIntentDto) (id : ℕ)
      (now : ℤ)
  | getIntent (tenantId intentId : ℕ) (now : ℤ)
  | listPendingForOutlet (staff : PosPrincipal) (outletId : ℕ) (deviceId : Option ℕ) (now : ℤ)
  /-- What other requests make of the codes, the bills and the simulator's switch. -/
  | others (enrolmentCodes : List EnrolmentCode) (bills : List Bill) (simulated : List ℕ)
  deriving DecidableEq

/-- A request, whose transaction is rolled back when it fails. -/
def World.handle (w : World) : Op → World
  | .enroll dto id now => Serial.after w (Devices.enroll w dto id now)
  | .setPairing tenantId outletId deviceId posDeviceId =>
      Serial.after w (Devices.setPairing w tenantId outletId deviceId posDeviceId)
  | .adminRevoke tenantId outletId deviceId now =>
      Serial.after w (Devices.adminRevoke w tenantId outletId deviceId now)
  | .opsRevoke deviceId now => Serial.after w (Devices.opsRevoke w deviceId now)
  | .printBill staff billId sourceDeviceId id =>
      Serial.after w (Devices.printBill w staff billId sourceDeviceId id)
  | .listPendingPrintJobs staff outletId deviceId =>
      Serial.after w (Devices.listPendingPrintJobs w staff outletId deviceId)
  | .markPrinted tenantId jobId now => Serial.after w (Devices.markPrinted w tenantId jobId now)
  | .createIntent staff billId dto id now =>
      Serial.after w (Devices.createIntent w staff billId dto id now)
  | .getIntent tenantId intentId now => Serial.after w (Devices.getIntent w tenantId intentId now)
  | .listPendingForOutlet staff outletId deviceId now =>
      Serial.after w (Devices.listPendingForOutlet w staff outletId deviceId now)
  | .others enrolmentCodes bills simulated => { w with enrolmentCodes, bills, simulated }

end RestiqBackend.Devices
