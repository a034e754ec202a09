import Mathlib.Data.List.Sort
import RestiqBackend.Store
import RestiqBackend.Serial

/-!
Clocking in and out, and who is listed as in (`src/pos/clock`).

Signing in at an outlet clocks a staff member in unless their latest event, at whatever
outlet, is a clock-in of the same day; clocking out ends what their latest event began and is
recorded at the outlet they are signed in at. An outlet's attendance reads the events
of that outlet alone. Calendar days are asked of the platform's `localDateKey`, the order of
names of its `localeCompare`. The rows are those of one tenant.
-/

namespace RestiqBackend.Attendance

open Serial (check orElseThrow)

inductive ClockEventType
  | clockIn
  | clockOut
  deriving DecidableEq

structure ClockEvent where
  id : ℕ
  staffId : ℕ
  outletId : ℕ
  type : ClockEventType
  occurredAt : ℤ
  deriving DecidableEq

structure Outlet where
  id : ℕ
  name : String
  timezone : String
  deletedAt : Option ℤ
  deriving DecidableEq

/-- `outletIds`: where a staff member works, anywhere when empty. -/
structure StaffUser where
  id : ℕ
  name : String
  outletIds : List ℕ
  deriving DecidableEq

structure World where
  outlets : List Outlet
  staff : List StaffUser
  clockEvents : List ClockEvent
  deriving DecidableEq

/-- Whom a session token names, and where they signed in. -/
structure PosPrincipal where
  id : ℕ
  outletId : ℕ
  deriving DecidableEq

def notClockedIn : ApiError := ⟨.conflict, "not_clocked_in", "You are not currently clocked in"⟩

/-- `ORDER BY occurred_at DESC`. -/
def newestFirst (events : List ClockEvent) : List ClockEvent :=
  events.insertionSort fun a b => b.occurredAt ≤ a.occurredAt

/-- A staff member's latest event, at any outlet. -/
def latest (w : World) (staffId : ℕ) : Option ClockEvent :=
  (newestFirst (w.clockEvents.filter (·.staffId = staffId))).head?

section Platform

variable (localDateKey : ℤ → String → String) (localeCompare : String → String → ℤ)

/-- A clock-in, unless one is open that began on the day it now is at this outlet. -/
def recordClockInIfNeeded (w : World) (staffId : ℕ) (outlet : Outlet) (id : ℕ) (now : ℤ) : World :=
  if (latest w staffId).any (fun e => e.type = .clockIn &&
      localDateKey e.occurredAt outlet.timezone = localDateKey now outlet.timezone) then w
  else { w with clockEvents := w.clockEvents ++ [⟨id, staffId, outlet.id, .clockIn, now⟩] }

/-- A sign-in that got as far as its outlet. -/
def login (w : World) (staffId outletId : ℕ) (id : ℕ) (now : ℤ) :
    Except ApiError (World × PosPrincipal) := do
  let staff ← orElseThrow
    ⟨.unauthorized, "unauthorized", "This selection has expired - log in again"⟩
    (w.staff.find? (·.id = staffId))
  let outlet ← orElseThrow ⟨.badRequest, "invalid_outlet", "Select one of this tenant's outlets"⟩
    (w.outlets.find? fun o => o.id = outletId ∧ o.deletedAt = none)
  check (staff.outletIds = [] ∨ outlet.id ∈ staff.outletIds)
    ⟨.forbidden, "outlet_not_assigned", staff.name ++ " isn't set up to work at " ++ outlet.name⟩
  pure (recordClockInIfNeeded localDateKey w staffId outlet id now, ⟨staffId, outlet.id⟩)

def clockOut (w : World) (staff : PosPrincipal) (id : ℕ) (now : ℤ) :
    Except ApiError (World × ClockEvent) := do
  let open_ ← orElseThrow notClockedIn (latest w staff.id)
  check (open_.type = .clockIn) notClockedIn
  let created : ClockEvent := ⟨id, staff.id, staff.outletId, .clockOut, now⟩
  pure ({ w with clockEvents := w.clockEvents ++ [created] }, created)

/-! ### The attendance of an outlet -/

structure AttendanceStaffEntry where
  staffId : ℕ
  name : String
  clockedInAt : ℤ
  deriving DecidableEq

structure AttendanceView where
  outletId : ℕ
  asOf : ℤ
  staff : List AttendanceStaffEntry
  deriving DecidableEq

/-- How far back an event can be and still be of today somewhere. -/
def lookbackMs : ℤ := 48 * 60 * 60 * 1000

def staffName (w : World) (staffId : ℕ) : String :=
  ((w.staff.find? (·.id = staffId)).map (·.name)).getD ""

/-- The loop over an outlet's events, newest first: the first of each staff member counts. -/
def clockedIn (w : World) (timezone todayKey : String) :
    List ClockEvent → List ℕ → List AttendanceStaffEntry
  | [], _ => []
  | event :: rest, seenStaff =>
      if event.staffId ∈ seenStaff then clockedIn w timezone todayKey rest seenStaff
      else if event.type ≠ .clockIn then
        clockedIn w timezone todayKey rest (event.staffId :: seenStaff)
      else if localDateKey event.occurredAt timezone ≠ todayKey then
        clockedIn w timezone todayKey rest (event.staffId :: seenStaff)
      else ⟨event.staffId, staffName w event.staffId, event.occurredAt⟩ ::
        clockedIn w timezone todayKey rest (event.staffId :: seenStaff)

def getAttendance (w : World) (outletId : ℕ) (now : ℤ) : Except ApiError AttendanceView := do
  let outlet ← orElseThrow ⟨.notFound, "not_found", "No such outlet"⟩
    (w.outlets.find? (·.id = outletId))
  let events := newestFirst
    (w.clockEvents.filter fun e => e.outletId = outletId ∧ now - lookbackMs ≤ e.occurredAt)
  let staff := clockedIn localDateKey w outlet.timezone (localDateKey now outlet.timezone) events []
  pure ⟨outletId, now, staff.insertionSort fun a b => localeCompare a.name b.name ≤ 0⟩

end Platform

/-! ### The service -/

inductive Op
  | login (staffId outletId : ℕ) (id : ℕ) (now : ℤ)
  | clockOut (staff : PosPrincipal) (id : ℕ) (now : ℤ)
  deriving DecidableEq

def Op.now : Op → ℤ
  | .login _ _ _ now => now
  | .clockOut _ _ now => now

/-- What an operation makes of the log, or why it is refused. -/
def Op.outcome (localDateKey : ℤ → String → String) (w : World) : Op → Except ApiError World
  | .login staffId outletId id now =>
      (Attendance.login localDateKey w staffId outletId id now).map (·.1)
  | .clockOut staff id now => (Attendance.clockOut w staff id now).map (·.1)

end RestiqBackend.Attendance
