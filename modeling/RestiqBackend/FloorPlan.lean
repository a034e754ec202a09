import Mathlib.Data.Real.Basic
import Mathlib.Order.Interval.Set.Disjoint
import RestiqBackend.Store
import RestiqBackend.Serial

/-!
Floors and tables (`src/admin/floor-plan/floor-plan.service.ts`).

A table is a rectangle on its floor. Creating or moving one reads the other tables of the
floor and is refused where it would lie over any of them; tables may share an edge. A
partial update mixes the coordinates it is given with the stored ones before it looks. Each
request is one transaction, alone.
-/

namespace RestiqBackend.FloorPlan

open Serial (check orElseThrow)

/-! ### Rows -/

/-- A rectangle of whole grid units; the columns and the requests have no empty ones. -/
@[ext] structure Bounds where
  x : ℕ
  y : ℕ
  width : ℕ
  height : ℕ
  one_le_width : 1 ≤ width
  one_le_height : 1 ≤ height

instance : DecidableEq Bounds := fun _ _ => decidable_of_iff _ Bounds.ext_iff.symm

inductive TableShape
  | circle
  | square
  | rectangle
  deriving DecidableEq

structure Floor where
  id : ℕ
  tenantId : ℕ
  outletId : ℕ
  name : String
  sortOrder : ℕ
  deriving DecidableEq

structure DiningTable extends Bounds where
  id : ℕ
  tenantId : ℕ
  floorId : ℕ
  label : String
  shape : TableShape
  seatCapacity : ℕ
  deriving DecidableEq

structure Outlet where
  id : ℕ
  tenantId : ℕ
  deriving DecidableEq

/-- The outlets, the floors and tables on them, and the tenants that have ticked the floor
plan off their checklist. -/
structure World where
  outlets : List Outlet
  floors : List Floor
  tables : List DiningTable
  floorPlanSteps : List ℕ
  deriving DecidableEq

/-! ### Requests -/

structure CreateFloorDto where
  name : String
  sortOrder : Option ℕ
  deriving DecidableEq

structure UpdateFloorDto where
  name : Option String
  sortOrder : Option ℕ
  deriving DecidableEq

structure CreateTableDto extends Bounds where
  floorId : ℕ
  label : String
  shape : TableShape
  seatCapacity : ℕ
  deriving DecidableEq

structure UpdateTableDto where
  label : Option String
  x : Option ℕ
  y : Option ℕ
  width : Option ℕ
  height : Option ℕ
  shape : Option TableShape
  seatCapacity : Option ℕ
  one_le_width : ∀ w ∈ width, 1 ≤ w
  one_le_height : ∀ h ∈ height, 1 ≤ h
  deriving DecidableEq

theorem one_le_getD {given : Option ℕ} {stored : ℕ} (hgiven : ∀ n ∈ given, 1 ≤ n)
    (hstored : 1 ≤ stored) : 1 ≤ given.getD stored := by
  cases given with
  | none => exact hstored
  | some n => exact hgiven n rfl

/-- The rectangle after an update: what it gives, over what is stored. -/
def UpdateTableDto.bounds (dto : UpdateTableDto) (existing : Bounds) : Bounds where
  x := dto.x.getD existing.x
  y := dto.y.getD existing.y
  width := dto.width.getD existing.width
  height := dto.height.getD existing.height
  one_le_width := one_le_getD dto.one_le_width existing.one_le_width
  one_le_height := one_le_getD dto.one_le_height existing.one_le_height

/-! ### Guards -/

def noSuch (what : String) : ApiError := ⟨.notFound, "not_found", "No such " ++ what⟩

def tableOverlap : ApiError :=
  ⟨.conflict, "table_overlap", "This table overlaps another table on the same floor"⟩

def floorHasTables : ApiError :=
  ⟨.conflict, "floor_has_tables", "This floor still has tables. Remove them first."⟩

def boundsOverlap (a b : Bounds) : Bool :=
  a.x < b.x + b.width && a.x + a.width > b.x && a.y < b.y + b.height && a.y + a.height > b.y

def loadOutlet (w : World) (tenantId outletId : ℕ) : Except ApiError Outlet := do
  let outlet ← orElseThrow (noSuch "outlet") (w.outlets.find? (·.id = outletId))
  check (outlet.tenantId = tenantId) (noSuch "outlet")
  pure outlet

def loadFloor (w : World) (tenantId outletId floorId : ℕ) : Except ApiError Floor := do
  let floor ← orElseThrow (noSuch "floor") (w.floors.find? (·.id = floorId))
  check (floor.tenantId = tenantId ∧ floor.outletId = outletId) (noSuch "floor")
  pure floor

def loadTable (w : World) (tenantId outletId tableId : ℕ) : Except ApiError DiningTable := do
  let table ← orElseThrow (noSuch "table") (w.tables.find? (·.id = tableId))
  check (table.tenantId = tenantId) (noSuch "table")
  let _ ← loadFloor w tenantId outletId table.floorId
  pure table

/-- The tables that a rectangle is compared with. -/
def others (w : World) (tenantId floorId : ℕ) (excludeTableId : Option ℕ) : List DiningTable :=
  w.tables.filter fun t => t.tenantId = tenantId ∧ t.floorId = floorId ∧ excludeTableId ≠ some t.id

def assertNoOverlap (w : World) (tenantId floorId : ℕ) (bounds : Bounds)
    (excludeTableId : Option ℕ) : Except ApiError Unit :=
  check ((others w tenantId floorId excludeTableId).any (boundsOverlap bounds ·.toBounds) = false)
    tableOverlap

/-- What an integer column takes. -/
def int4 (n : ℕ) : Prop := n < 2 ^ 31

instance (n : ℕ) : Decidable (int4 n) := inferInstanceAs (Decidable (n < 2 ^ 31))

def assertColumns (bounds : Bounds) (seatCapacity : ℕ) : Except ApiError Unit :=
  check (int4 bounds.x ∧ int4 bounds.y ∧ int4 bounds.width ∧ int4 bounds.height ∧ int4 seatCapacity)
    internalError

/-! ### Floors -/

def createFloor (w : World) (tenantId outletId : ℕ) (dto : CreateFloorDto) (id : ℕ) :
    Except ApiError (World × Floor) := do
  let _ ← loadOutlet w tenantId outletId
  check (int4 (dto.sortOrder.getD 0)) internalError
  check (w.floors.all (·.id ≠ id) = true) uniqueViolation
  let floor : Floor := { id, tenantId, outletId, name := dto.name, sortOrder := dto.sortOrder.getD 0 }
  pure ({ w with floors := w.floors ++ [floor] }, floor)

def updateFloor (w : World) (tenantId outletId floorId : ℕ) (dto : UpdateFloorDto) :
    Except ApiError (World × Floor × List DiningTable) := do
  let existing ← loadFloor w tenantId outletId floorId
  let floor := { existing with
    name := dto.name.getD existing.name, sortOrder := dto.sortOrder.getD existing.sortOrder }
  check (int4 floor.sortOrder) internalError
  pure ({ w with floors := w.floors.map fun f => if f.id = floorId then floor else f },
    floor, w.tables.filter (·.floorId = floorId))

def deleteFloor (w : World) (tenantId outletId floorId : ℕ) : Except ApiError (World × Unit) := do
  let _ ← loadFloor w tenantId outletId floorId
  check ((w.tables.filter (·.floorId = floorId)).length = 0) floorHasTables
  pure ({ w with floors := w.floors.filter (·.id ≠ floorId) }, ())

/-! ### Tables -/

/-- Whether the outlet has no table on any floor yet. -/
def isFirstTableForOutlet (w : World) (tenantId outletId : ℕ) : Bool :=
  w.tables.all fun t =>
    !(t.tenantId = tenantId && w.floors.any fun f => f.id = t.floorId && f.outletId = outletId)

def createTable (w : World) (tenantId outletId : ℕ) (dto : CreateTableDto) (id : ℕ) :
    Except ApiError (World × DiningTable) := do
  let _ ← loadFloor w tenantId outletId dto.floorId
  assertNoOverlap w tenantId dto.floorId dto.toBounds none
  assertColumns dto.toBounds dto.seatCapacity
  check (w.tables.all (·.id ≠ id) = true) uniqueViolation
  let table : DiningTable := { dto.toBounds with
    id, tenantId, floorId := dto.floorId, label := dto.label, shape := dto.shape
    seatCapacity := dto.seatCapacity }
  -- The step is ticked after the transaction, by its own.
  let floorPlanSteps := if isFirstTableForOutlet w tenantId outletId then
    tenantId :: w.floorPlanSteps else w.floorPlanSteps
  pure ({ w with tables := w.tables ++ [table], floorPlanSteps }, table)

/-- The row that an update writes. -/
def UpdateTableDto.over (dto : UpdateTableDto) (existing : DiningTable) : DiningTable :=
  { dto.bounds existing.toBounds with
    id := existing.id, tenantId := existing.tenantId, floorId := existing.floorId
    label := dto.label.getD existing.label
    shape := dto.shape.getD existing.shape
    seatCapacity := dto.seatCapacity.getD existing.seatCapacity }

def updateTable (w : World) (tenantId outletId tableId : ℕ) (dto : UpdateTableDto) :
    Except ApiError (World × DiningTable) := do
  let existing ← loadTable w tenantId outletId tableId
  let bounds := dto.bounds existing.toBounds
  assertNoOverlap w tenantId existing.floorId bounds (some tableId)
  let table := dto.over existing
  assertColumns bounds table.seatCapacity
  pure ({ w with tables := w.tables.map fun t => if t.id = tableId then table else t }, table)

/-- `hasSessions`: whether guest sessions refer to the table, which keeps its row in place. -/
def deleteTable (w : World) (tenantId outletId tableId : ℕ) (hasSessions : Bool) :
    Except ApiError (World × Unit) := do
  let _ ← loadTable w tenantId outletId tableId
  check (hasSessions = false) internalError
  pure ({ w with tables := w.tables.filter (·.id ≠ tableId) }, ())

/-! ### The service -/

inductive Op
  | createFloor (tenantId outletId : ℕ) (dto : CreateFloorDto) (id : ℕ)
  | updateFloor (tenantId outletId floorId : ℕ) (dto : UpdateFloorDto)
  | deleteFloor (tenantId outletId floorId : ℕ)
  | createTable (tenantId outletId : ℕ) (dto : CreateTableDto) (id : ℕ)
  | updateTable (tenantId outletId tableId : ℕ) (dto : UpdateTableDto)
  | deleteTable (tenantId outletId tableId : ℕ) (hasSessions : Bool)
  deriving DecidableEq

/-- What an operation makes of the plan, or why it is refused. -/
def Op.outcome (w : World) : Op → Except ApiError World
  | .createFloor tenantId outletId dto id => (FloorPlan.createFloor w tenantId outletId dto id).map (·.1)
  | .updateFloor tenantId outletId floorId dto =>
      (FloorPlan.updateFloor w tenantId outletId floorId dto).map (·.1)
  | .deleteFloor tenantId outletId floorId =>
      (FloorPlan.deleteFloor w tenantId outletId floorId).map (·.1)
  | .createTable tenantId outletId dto id =>
      (FloorPlan.createTable w tenantId outletId dto id).map (·.1)
  | .updateTable tenantId outletId tableId dto =>
      (FloorPlan.updateTable w tenantId outletId tableId dto).map (·.1)
  | .deleteTable tenantId outletId tableId hasSessions =>
      (FloorPlan.deleteTable w tenantId outletId tableId hasSessions).map (·.1)

/-- A request, whose transaction is rolled back when it fails. -/
def World.handle (w : World) (op : Op) : World :=
  match op.outcome w with
  | .ok w' => w'
  | .error _ => w

end RestiqBackend.FloorPlan
