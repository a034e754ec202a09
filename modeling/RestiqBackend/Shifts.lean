import RestiqBackend.Outlet

/-!
The cash drawer of an outlet (`src/pos/shifts/shifts.service.ts`).

A shift is opened on a float, has cash paid out of its drawer or dropped at the bank, and
is closed on a count: what the drawer should hold is summed up in the transaction that
closes it. Nothing links a tender or a credit note to a shift. Closing counts the cash
tenders of the bills that were finalized, and the credit notes that were written, since
the shift was opened, so the outlet's orders stand beside its shifts here and the
requests about them run as they do anywhere.

The outlet's open shift is the entry of the unique index on open shifts: it is what a
settlement with cash looks up, and what keeps a second shift from being opened.
-/

namespace RestiqBackend

open ReadCommitted

/-! ### Rows -/

inductive CashMovementType
  | paidOut
  | bankDrop
  deriving DecidableEq, Repr

structure CashMovement where
  id : ℕ
  shiftId : ℕ
  type : CashMovementType
  amountMinor : ℤ
  reason : String
  createdByStaffId : ℕ
  deriving DecidableEq

inductive CashKind
  | sale
  | refund
  deriving DecidableEq, Repr

/-- A row that a closing counts: a cash tender at the time its bill was finalized, or what a
credit note took out of the drawer at the time it was written. -/
structure CashRow where
  kind : CashKind
  order : ℕ
  id : ℕ
  time : ℤ
  amountMinor : ℤ
  deriving DecidableEq, Repr

/-- The columns that closing sets together, and the rows they were summed from (which no
column keeps). -/
structure ShiftClose where
  closedByStaffId : ℕ
  closedAt : ℤ
  countedMinor : ℤ
  expectedMinor : ℤ
  overShortMinor : ℤ
  rows : List CashRow
  movements : List CashMovement
  deriving DecidableEq

structure Shift where
  id : ℕ
  openedByStaffId : ℕ
  floatMinor : ℤ
  openedAt : ℤ
  close : Option ShiftClose
  deriving DecidableEq

/-- An outlet with its orders, its shifts and what moved in its drawer. -/
structure Drawer where
  outlet : Outlet
  orderIds : List ℕ
  staffIds : List ℕ
  shifts : List Shift
  movements : List CashMovement

/-- The outlet's open shift, if it has one. -/
def Drawer.openShift (d : Drawer) : Option ℕ := d.outlet.shared.around.openShift

def Drawer.setOpenShift (d : Drawer) (openShift : Option ℕ) : Drawer :=
  let around : Surroundings := { d.outlet.shared.around with openShift }
  { d with outlet := { d.outlet with shared := { d.outlet.shared with around } } }

inductive DrawerWrite
  | order (w : OutletWrite)
  | createShift (shift : Shift)
  | createCashMovement (movement : CashMovement)
  | closeShift (id : ℕ) (close : ShiftClose)

inductive DrawerKey
  | order (k : OutletKey)
  | shift (id : ℕ)
  /-- The outlet's slot in `shifts_one_open_per_outlet`. -/
  | openShift
  | cashMovement (id : ℕ)
  deriving DecidableEq

/-- What a closing remembers of what it read. -/
inductive DrawerRead
  | order (r : OutletRead)
  /-- These movements were on the shift. -/
  | cashMovements (shiftId : ℕ) (found : List CashMovement)
  /-- These cash sales were made since the time. -/
  | cashSales (since : ℤ) (found : List CashRow)
  /-- These orders had a credit note written since the time. -/
  | refundedOrders (since : ℤ) (found : List ℕ)
  /-- These were the credit notes of the orders since the time. -/
  | cashRefunds (since : ℤ) (orders : List ℕ) (found : List CashRow)

def Drawer.apply (w : DrawerWrite) (d : Drawer) : Drawer :=
  match w with
  | .order w => { d with outlet := d.outlet.apply w }
  | .createShift shift => { d.setOpenShift (some shift.id) with shifts := d.shifts ++ [shift] }
  | .createCashMovement movement => { d with movements := d.movements ++ [movement] }
  | .closeShift id close =>
      let row (sh : Shift) : Shift := { sh with close := some close }
      { d.setOpenShift (if d.openShift = some id then none else d.openShift) with
        shifts := updateRows Shift.id id row d.shifts }

instance : WriteTo DrawerWrite Drawer := ⟨Drawer.apply⟩

/-- A transaction at the outlet and its drawer. -/
abbrev DrawerTx (α : Type) := Txn Drawer DrawerKey DrawerRead DrawerWrite ApiError α

/-- The outlet's orders, among its shifts. -/
def outletZoom : Zoom Outlet OutletKey OutletRead OutletWrite Drawer DrawerKey DrawerRead
    DrawerWrite where
  view := Drawer.outlet
  lock := .order
  read := .order
  write := .order
  view_apply _ _ := rfl

/-- A request about one of the outlet's orders. -/
def Op.atDrawer (op : Op) (i : ℕ) : DrawerTx Unit := (op.atOrder i).zoom outletZoom

/-! ### Reading the cash -/

def Bill.finalizedTime (b : Bill) : Option ℤ := if b.status = .finalized then b.finalizedAt else none

/-- The cash tenders of an order whose bill is finalized. -/
def Store.cashSales (s : Store) (i : ℕ) : List CashRow :=
  match s.bill.bind Bill.finalizedTime with
  | some time => (s.tenders.filter (·.method = .cash)).map fun t =>
      ⟨.sale, i, t.id, time, t.amountMinor⟩
  | none => []

/-- The order of `orderBy: [createdAt, id]`. -/
def CreditNote.before (a b : CreditNote) : Bool :=
  a.createdAt < b.createdAt || (a.createdAt = b.createdAt && a.id ≤ b.id)

/-- What a note took out of the drawer: all of it when it was paid in cash, and no more than
the cash that is left of its bill's when nobody recorded how. -/
def CreditNote.cashMinor (note : CreditNote) (pricesIncludeTax : Bool) (left : ℤ) : ℤ :=
  match note.method with
  | some .cash => note.totalMinor pricesIncludeTax
  | some _ => 0
  | none => min (note.totalMinor pricesIncludeTax) left

/-- The notes of a bill that took cash out of the drawer, in turn; the others took nothing. -/
def drawerRefunds (pricesIncludeTax : Bool) (i : ℕ) : ℤ → List CreditNote → List CashRow
  | _, [] => []
  | left, note :: notes =>
      let cash := note.cashMinor pricesIncludeTax left
      let rest := drawerRefunds pricesIncludeTax i (if cash < left then left - cash else 0) notes
      if note.method.all (· = .cash) then ⟨.refund, i, note.id, note.createdAt, cash⟩ :: rest
      else rest

def Store.pricesIncludeTax (s : Store) : Bool := s.bill.any (·.pricesIncludeTax)

def Store.cashRefunds (s : Store) (i : ℕ) : List CashRow :=
  drawerRefunds s.pricesIncludeTax i (cashMinorOf s.tenders) (s.creditNotes.mergeSort CreditNote.before)

def since (time : ℤ) (rows : List CashRow) : List CashRow := rows.filter (time ≤ ·.time)

def Drawer.cashSales (d : Drawer) (time : ℤ) : List CashRow :=
  since time (d.orderIds.flatMap fun i => (d.outlet.orders i).cashSales i)

/-- The orders with a credit note written since the time. -/
def Drawer.refundedOrders (d : Drawer) (time : ℤ) : List ℕ :=
  d.orderIds.filter fun i => (d.outlet.orders i).creditNotes.any (time ≤ ·.createdAt)

def Drawer.cashRefunds (d : Drawer) (time : ℤ) (orders : List ℕ) : List CashRow :=
  since time (orders.flatMap fun i => (d.outlet.orders i).cashRefunds i)

def Drawer.movementsOf (d : Drawer) (shiftId : ℕ) : List CashMovement :=
  d.movements.filter (·.shiftId = shiftId)

def Drawer.findShift (d : Drawer) (id : ℕ) : Option Shift := d.shifts.find? (·.id = id)

/-! ### Requests -/

def assertStaffInTenant (staffId : ℕ) : DrawerTx Unit := do
  let known ← Txn.query fun d => d.staffIds.contains staffId
  Txn.throwIf (known = false)
    ⟨.unauthorized, "unauthorized", "This session does not match a known staff member"⟩

/-- Reading the movements of a shift, remembered by whoever goes on to sum them up. -/
def readCashMovements (id : ℕ) (summed : Bool) : DrawerTx (List CashMovement) :=
  .stmt (fun _ d =>
    { reads := if summed then [.cashMovements id (d.movementsOf id)] else []
      ret := d.movementsOf id }) .done

def loadShift (id : ℕ) (summed : Bool) : DrawerTx (Shift × List CashMovement) := do
  let found ← Txn.query fun d => d.findShift id
  match found with
  | some shift => do
      let movements ← readCashMovements id summed
      pure (shift, movements)
  | none => Txn.throw ⟨.notFound, "not_found", "No such shift"⟩

def loadOpenShift (id : ℕ) (summed : Bool) : DrawerTx (Shift × List CashMovement) := do
  let loaded ← loadShift id summed
  Txn.throwIf (loaded.1.close.isSome = true)
    ⟨.conflict, "shift_already_closed", "This shift is already closed"⟩
  pure loaded

structure OpenShiftDto where
  floatMinor : ℕ

def shiftAlreadyOpen : ApiError :=
  ⟨.conflict, "shift_already_open", "This outlet already has an open shift"⟩

/-- Opening a shift: the check, then the index, which is what a race is stopped by. -/
def openShift (staffId : ℕ) (dto : OpenShiftDto) : DrawerTx Unit := do
  assertStaffInTenant staffId
  let alreadyOpen ← Txn.query Drawer.openShift
  Txn.throwIf (alreadyOpen.isSome = true) shiftAlreadyOpen
  let id ← Txn.uuid
  let openedAt ← Txn.clock
  let created ← Txn.writeWhen (fun d => d.openShift.isNone && (d.findShift id).isNone)
    [.openShift, .shift id] [.createShift ⟨id, staffId, dto.floatMinor, openedAt, none⟩]
  Txn.throwIf (created = false) shiftAlreadyOpen

structure LogCashMovementDto where
  type : CashMovementType
  amountMinor : ℤ
  reason : String
  one_le_amountMinor : 1 ≤ amountMinor

def logCashMovement (staffId shiftId : ℕ) (dto : LogCashMovementDto) : DrawerTx Unit := do
  assertStaffInTenant staffId
  let _ ← loadOpenShift shiftId false
  let id ← Txn.uuid
  let created ← Txn.writeWhen (fun d => d.movements.all (·.id ≠ id)) [.cashMovement id]
    [.createCashMovement ⟨id, shiftId, dto.type, dto.amountMinor, dto.reason, staffId⟩]
  Txn.throwIf (created = false) uniqueViolation
  let _ ← loadShift shiftId false
  pure ()

def computeCashSalesMinor (time : ℤ) : DrawerTx (List CashRow) :=
  .stmt (fun _ d => { reads := [.cashSales time (d.cashSales time)], ret := d.cashSales time }) .done

/-- The credit notes of the orders that had one written since the time. -/
def computeCashRefundsMinor (time : ℤ) : DrawerTx (List CashRow) := do
  let orders ← .stmt (fun _ d =>
    { reads := [.refundedOrders time (d.refundedOrders time)], ret := d.refundedOrders time }) .done
  if orders = [] then pure []
  else .stmt (fun _ d =>
    { reads := [.cashRefunds time orders (d.cashRefunds time orders)]
      ret := d.cashRefunds time orders }) .done

def rowsMinor (rows : List CashRow) : ℤ := (rows.map (·.amountMinor)).sum

def movementsMinor (type : CashMovementType) (movements : List CashMovement) : ℤ :=
  ((movements.filter (·.type = type)).map (·.amountMinor)).sum

/-- What the drawer should hold, of everything it was summed from. -/
def expectedMinor (floatMinor : ℤ) (rows : List CashRow) (movements : List CashMovement) : ℤ :=
  floatMinor + rowsMinor (rows.filter (·.kind = .sale)) -
    rowsMinor (rows.filter (·.kind = .refund)) - movementsMinor .paidOut movements -
      movementsMinor .bankDrop movements

structure CloseShiftDto where
  countedMinor : ℕ

def closeShift (staffId shiftId : ℕ) (dto : CloseShiftDto) : DrawerTx Unit := do
  assertStaffInTenant staffId
  let (shift, movements) ← loadOpenShift shiftId true
  let sales ← computeCashSalesMinor shift.openedAt
  let refunds ← computeCashRefundsMinor shift.openedAt
  let expected := expectedMinor shift.floatMinor (sales ++ refunds) movements
  let closedAt ← Txn.clock
  let updated ← Txn.writeWhen (fun d => (d.findShift shiftId).isSome) [.shift shiftId]
    [.closeShift shiftId
      ⟨staffId, closedAt, dto.countedMinor, expected, dto.countedMinor - expected,
        sales ++ refunds, movements⟩]
  Txn.throwIf (updated = false) internalError

inductive DrawerOp
  | request (order : ℕ) (op : Op)
  | openShift (staffId : ℕ) (dto : OpenShiftDto)
  | logCashMovement (staffId shiftId : ℕ) (dto : LogCashMovementDto)
  | closeShift (staffId shiftId : ℕ) (dto : CloseShiftDto)

def DrawerOp.prog : DrawerOp → DrawerTx Unit
  | .request order op => op.atDrawer order
  | .openShift staffId dto => RestiqBackend.openShift staffId dto
  | .logCashMovement staffId shiftId dto => RestiqBackend.logCashMovement staffId shiftId dto
  | .closeShift staffId shiftId dto => RestiqBackend.closeShift staffId shiftId dto

end RestiqBackend
