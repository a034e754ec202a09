import Mathlib.Data.List.Sort
import Mathlib.Logic.Function.Basic
import RestiqBackend.Serial

/-!
The silent-device sweep (`src/ops/sync-health`).

One server process remembers in memory when it last alerted for a device. A call of `list`
waits for its query, then looks at the devices one by one, and waits again for each alert
it sends; in between other calls run, and heartbeats arrive. The machine has one event for
every stretch of a call that nothing of the process can come between, and the loop is taken
one device at a time with the call marked as running. Of the alerts a ghost column keeps
which went out.
-/

namespace RestiqBackend.SyncHealth

/-! ### Severity -/

inductive Severity
  | healthy
  | lagging
  | silent
  deriving DecidableEq

def laggingThresholdSeconds : ℤ := 60 * 60

def silentThresholdSeconds : ℤ := 48 * 60 * 60

def classifySeverity (lagSeconds : ℤ) : Severity :=
  if lagSeconds > silentThresholdSeconds then .silent
  else if lagSeconds > laggingThresholdSeconds then .lagging
  else .healthy

def Severity.rank : Severity → ℤ
  | .silent => 0
  | .lagging => 1
  | .healthy => 2

/-- Silent before lagging before healthy. -/
def compareSeverity (a b : Severity) : ℤ := a.rank - b.rank

/-! ### Devices and calls -/

/-- Times are in milliseconds. -/
structure Device where
  id : ℕ
  tenantId : ℕ
  outletId : Option ℕ
  active : Bool
  enrolledAt : ℤ
  lastContactAt : Option ℤ
  deriving DecidableEq

/-- Silence of a device that was never heard of is measured from its enrolment. -/
def Device.effectiveLastContact (d : Device) : ℤ := d.lastContactAt.getD d.enrolledAt

def Device.lagSeconds (d : Device) (now : ℤ) : ℤ := max 0 ((now - d.effectiveLastContact) / 1000)

def Device.severity (d : Device) (now : ℤ) : Severity := classifySeverity (d.lagSeconds now)

/-- A well-formed query. -/
structure Query where
  tenantId : Option ℕ
  severity : Option Severity
  deriving DecidableEq

structure SyncHealthRow where
  deviceId : ℕ
  tenantId : ℕ
  outletId : Option ℕ
  lastContactAt : Option ℤ
  lagSeconds : ℤ
  severity : Severity
  deriving DecidableEq

def Device.row (d : Device) (now : ℤ) : SyncHealthRow where
  deviceId := d.id
  tenantId := d.tenantId
  outletId := d.outletId
  lastContactAt := d.lastContactAt
  lagSeconds := d.lagSeconds now
  severity := d.severity now

structure SyncHealthResult where
  devices : List SyncHealthRow
  summary : Severity → ℕ
  generatedAt : ℤ

/-- Worst first, and the longest silent first among equals. -/
def rowBefore (a b : SyncHealthRow) : Prop :=
  compareSeverity a.severity b.severity < 0 ∨
    (compareSeverity a.severity b.severity = 0 ∧ b.lagSeconds - a.lagSeconds ≤ 0)

instance (a b : SyncHealthRow) : Decidable (rowBefore a b) := inferInstanceAs (Decidable (_ ∨ _))

/-- The answer to a query, of the rows of all its devices. -/
def result (query : Query) (rows : List SyncHealthRow) (now : ℤ) : SyncHealthResult where
  devices := (rows.insertionSort rowBefore).filter fun row =>
    query.severity.all (row.severity = ·)
  summary severity := rows.countP (·.severity = severity)
  generatedAt := now

/-- Where a call is. -/
inductive Stage
  /-- Waiting for its query. -/
  | reading
  /-- The query has been answered, and the call has not gone on yet. -/
  | answered (devices : List Device)
  /-- In its loop, before the next of the devices that are left. -/
  | looping (rest : List Device)
  /-- Waiting for the delivery of the alert for a device. -/
  | delivering (device : Device) (rest : List Device)
  | returned
  | threw
  deriving DecidableEq

structure Call where
  query : Query
  /-- Whether the timer made it, which makes no other while it runs. -/
  bySweep : Bool
  stage : Stage
  /-- Its one reading of the clock. -/
  now : ℤ
  /-- The devices it was given. -/
  seen : List Device
  rows : List SyncHealthRow
  deriving DecidableEq

structure SilentDeviceAlert where
  deviceId : ℕ
  tenantId : ℕ
  outletId : Option ℕ
  lastContactAt : Option ℤ
  lagSeconds : ℤ
  deriving DecidableEq

/-- An alert that was handed to the channel and did not fail. -/
structure AlertRecord where
  call : ℕ
  device : Device
  now : ℤ
  delivered : Bool
  deriving DecidableEq

def AlertRecord.alert (r : AlertRecord) : SilentDeviceAlert where
  deviceId := r.device.id
  tenantId := r.device.tenantId
  outletId := r.device.outletId
  lastContactAt := r.device.lastContactAt
  lagSeconds := r.device.lagSeconds r.now

/-! ### The process -/

structure Process where
  clock : ℤ
  devices : List Device
  lastAlertedAt : ℕ → Option ℤ
  sweeping : Bool
  calls : List Call
  /-- The call whose code is running. -/
  running : Option ℕ
  alerts : List AlertRecord

inductive Event
  | tick (elapsed : ℕ)
  | heartbeat (deviceId : ℕ)
  | list (query : Query)
  | sweep
  /-- The database answers a call's query, or fails it. -/
  | read (call : ℕ)
  | readFails (call : ℕ)
  /-- A call goes on with the answer, or with the next device. -/
  | resume (call : ℕ)
  | step (call : ℕ)
  | delivered (call : ℕ)
  | failed (call : ℕ)
  deriving DecidableEq

def Process.setMark (p : Process) (deviceId : ℕ) (mark : Option ℤ) : Process :=
  { p with lastAlertedAt := Function.update p.lastAlertedAt deviceId mark }

def Process.setCall (p : Process) (i : ℕ) (call : Call) : Process :=
  { p with calls := p.calls.set i call }

def Process.begin (p : Process) (query : Query) (bySweep : Bool) : Process :=
  { p with calls := p.calls ++ [⟨query, bySweep, .reading, 0, [], []⟩] }

/-- A call that ended lets the timer make its next one. -/
def Process.release (p : Process) (call : Call) : Process :=
  { p with sweeping := p.sweeping && !call.bySweep, running := none }

/-- What the query finds. -/
def Process.find (p : Process) (query : Query) : List Device :=
  p.devices.filter fun d => d.active && query.tenantId.all (d.tenantId = ·)

/-- A list of every tenant's devices forgets those that are gone. -/
def Process.purge (p : Process) (query : Query) (devices : List Device) : Process :=
  match query.tenantId with
  | some _ => p
  | none =>
      { p with lastAlertedAt := fun id =>
          if id ∈ devices.map (·.id) then p.lastAlertedAt id else none }

/-- Whether silence that began at `contact` has not been alerted for. -/
def alertDue (contact : ℤ) (lastAlerted : Option ℤ) : Bool :=
  lastAlerted.all fun mark => contact > mark

/-- One device of the loop. -/
def Process.look (p : Process) (i : ℕ) (call : Call) (d : Device) (rest : List Device) : Process :=
  let lastAlerted := p.lastAlertedAt d.id
  if d.severity call.now ≠ .silent then
    (p.setMark d.id none).setCall i
      { call with stage := .looping rest, rows := call.rows ++ [d.row call.now] }
  else if alertDue d.effectiveLastContact lastAlerted then
    -- The mark is set before the alert is waited for.
    { (p.setMark d.id (some call.now)).setCall i { call with stage := .delivering d rest } with
      running := none
      alerts := p.alerts ++ [⟨i, d, call.now, false⟩] }
  else p.setCall i { call with stage := .looping rest, rows := call.rows ++ [d.row call.now] }

def Process.act (p : Process) : Event → Process
  | .tick elapsed => { p with clock := p.clock + elapsed }
  | .heartbeat deviceId =>
      { p with devices := p.devices.map fun d =>
          if d.id = deviceId ∧ d.active then { d with lastContactAt := some p.clock } else d }
  | .list query => p.begin query false
  | .sweep => if p.sweeping then p else { p with sweeping := true }.begin ⟨none, none⟩ true
  | .read i =>
      match p.calls[i]? with
      | some call =>
          if call.stage = .reading then p.setCall i { call with stage := .answered (p.find call.query) }
          else p
      | none => p
  | .readFails i =>
      match p.calls[i]? with
      | some call =>
          if call.stage = .reading then (p.setCall i { call with stage := .threw }).release call
          else p
      | none => p
  | .resume i =>
      match p.calls[i]? with
      | some call =>
          match call.stage with
          | .answered devices =>
              { (p.purge call.query devices).setCall i
                  { call with stage := .looping devices, now := p.clock, seen := devices } with
                running := some i }
          | _ => p
      | none => p
  | .step i =>
      match p.calls[i]? with
      | some call =>
          match call.stage with
          | .looping [] => (p.setCall i { call with stage := .returned }).release call
          | .looping (d :: rest) => p.look i call d rest
          | _ => p
      | none => p
  | .delivered i =>
      match p.calls[i]? with
      | some call =>
          match call.stage with
          | .delivering d rest =>
              { p.setCall i
                  { call with stage := .looping rest, rows := call.rows ++ [d.row call.now] } with
                running := some i
                alerts := p.alerts.map fun r => if r.call = i then { r with delivered := true } else r }
          | _ => p
      | none => p
  | .failed i =>
      match p.calls[i]? with
      | some call =>
          match call.stage with
          | .delivering d _ =>
              { ((p.setMark d.id none).setCall i { call with stage := .threw }).release call with
                alerts := p.alerts.filter fun r => r.call ≠ i ∨ r.delivered = true }
          | _ => p
      | none => p

/-- The database and the clock go on at any time, a call only while no other one runs. -/
def Process.enabled (p : Process) : Event → Bool
  | .tick _ | .heartbeat _ | .read _ => true
  | .list _ | .sweep | .readFails _ | .resume _ | .delivered _ | .failed _ => p.running = none
  | .step i => p.running = some i

def Process.handle (p : Process) (e : Event) : Process :=
  if p.enabled e then p.act e else p

end RestiqBackend.SyncHealth
