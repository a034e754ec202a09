import RestiqBackend.Store

/-!
How a tenant goes live, and what becomes of its status.

The owner's `goLive` (`src/admin/checklist/checklist.service.ts`), the operator's `activate`,
`deactivate` and `reactivate` (`src/ops/tenants/directory.service.ts`) and the first finalized
bill (`src/pos/bills/bill-core.ts`) all write the one status column. Only the bill's update asks
for the status it changes; the others read it first and update the tenant by its id. A
transaction remembers each status it read, the guard's included, and the history of the column
is kept beside it, with what each change was made by.
-/

namespace RestiqBackend.GoLive

open ReadCommitted

/-! ### Rows -/

inductive ChecklistStep
  | outletDetails
  | floorPlan
  | menuImport
  | devices
  | staff
  deriving DecidableEq

def checklistSteps : List ChecklistStep :=
  [.outletDetails, .floorPlan, .menuImport, .devices, .staff]

def ChecklistStep.text : ChecklistStep → String
  | .outletDetails => "outlet_details"
  | .floorPlan => "floor_plan"
  | .menuImport => "menu_import"
  | .devices => "devices"
  | .staff => "staff"

/-- When each completed step was completed. -/
abbrev ChecklistProgress := List (ChecklistStep × ℤ)

def missingSteps (progress : ChecklistProgress) : List ChecklistStep :=
  checklistSteps.filter fun step => (progress.lookup step).isNone

def ChecklistProgress.set (progress : ChecklistProgress) (step : ChecklistStep)
    (at_ : Option ℤ) : ChecklistProgress :=
  at_.toList.map (step, ·) ++ progress.filter (·.1 ≠ step)

/-- What changes the status of a tenant. -/
inductive Cause
  | goLive
  | firstSale
  | activate
  | deactivate
  | reactivate
  deriving DecidableEq

structure Change where
  was : TenantStatus
  becomes : TenantStatus
  cause : Cause
  deriving DecidableEq

structure AuditEvent where
  actorId : Option ℕ
  actorEmail : String
  action : String
  reason : String
  occurredAt : ℤ
  deriving DecidableEq

structure Store where
  status : TenantStatus
  deleted : Bool
  checklistProgress : Option ChecklistProgress
  auditEvents : List AuditEvent
  /-- What the status column has been through, which no column keeps. -/
  history : List Change
  deriving DecidableEq

inductive Key
  | tenant
  | checklistProgress
  deriving DecidableEq

inductive Write
  | setStatus (cause : Cause) (status : TenantStatus)
  | setChecklist (progress : ChecklistProgress)
  | createAuditEvent (event : AuditEvent)
  deriving DecidableEq

def Store.apply (s : Store) : Write → Store
  | .setStatus cause status =>
      { s with status, history := s.history ++ [⟨s.status, status, cause⟩] }
  | .setChecklist progress => { s with checklistProgress := some progress }
  | .createAuditEvent event => { s with auditEvents := s.auditEvents ++ [event] }

instance : WriteTo Write Store := ⟨fun w s => s.apply w⟩

/-- The status that a transaction found the tenant in. -/
inductive Read
  | status (status : TenantStatus)
  deriving DecidableEq

def Store.statusRead (s : Store) : List Read := [.status s.status]

abbrev Tx := Txn Store Key Read Write ApiError

abbrev TxFootprint := Footprint Key Read Write

/-! ### The owner's side -/

structure AdminPrincipal where
  id : ℕ
  email : String
  deriving DecidableEq

/-- The guard of every owner request, which looks at the tenant in a transaction of its own. -/
def assertTenantServed : Tx Unit := do
  let blocked ← Txn.read (fun v : Store => decide (v.status = .inactive) || v.deleted)
    Store.statusRead
  Txn.throwIf (blocked = true) ⟨.forbidden, "tenant_inactive", "This tenant is no longer active"⟩

/-- `upsert`: the row is changed, or created as it would be changed from an empty one. -/
def upsertChecklist (f : ChecklistProgress → ChecklistProgress) : Tx ChecklistProgress :=
  .stmt (fun _ v =>
    let progress := f (v.checklistProgress.getD [])
    { locks := [.checklistProgress], writes := [.setChecklist progress], ret := progress }) .done

def updateStep (step : ChecklistStep) (completed : Bool) : Tx ChecklistProgress := do
  assertTenantServed
  let now ← Txn.clock
  upsertChecklist (·.set step (if completed then some now else none))

def checklistIncomplete (missing : List ChecklistStep) : ApiError :=
  ⟨.conflict, "checklist_incomplete",
    "Complete the required steps before going live: " ++ ", ".intercalate (missing.map (·.text))⟩

/-- `tx.tenant.update` by the tenant's id. -/
def updateStatus (cause : Cause) (status : TenantStatus) : Tx Unit :=
  Txn.exec (fun _ => [.tenant]) fun _ => [.setStatus cause status]

def audit (actorId : Option ℕ) (actorEmail action reason : String) : Tx Unit := do
  let occurredAt ← Txn.clock
  Txn.exec (fun _ => []) fun _ =>
    [.createAuditEvent ⟨actorId, actorEmail, action, reason, occurredAt⟩]

def goLive (owner : AdminPrincipal) : Tx TenantStatus := do
  assertTenantServed
  let status ← Txn.read (·.status) Store.statusRead
  let progress ← upsertChecklist id
  Txn.throwIf (missingSteps progress ≠ []) (checklistIncomplete (missingSteps progress))
  if status = .active then pure .active
  else do
    updateStatus .goLive .active
    audit (some owner.id) owner.email "tenant.went_live" "Owner completed the go-live checklist"
    pure .active

/-! ### The operator's side -/

structure OpsPrincipal where
  id : ℕ
  email : String
  deriving DecidableEq

/-- What every change by an operator runs in. -/
def mutate (operator : OpsPrincipal) (action reason : String) (work : Tx TenantStatus) :
    Tx TenantStatus := do
  let deleted ← Txn.query fun v : Store => v.deleted
  Txn.throwIf (deleted = true) ⟨.notFound, "not_found", "No such tenant"⟩
  let status ← work
  audit (some operator.id) operator.email action reason
  pure status

/-- A move of the status by an operator: from one that is allowed, to another. -/
def move (operator : OpsPrincipal) (action reason : String) (cause : Cause)
    (allowed : TenantStatus → Bool) (message : String) (status : TenantStatus) :
    Tx TenantStatus :=
  mutate operator action reason do
    let current ← Txn.read (·.status) Store.statusRead
    Txn.throwIf (allowed current = false) ⟨.conflict, "conflict", message⟩
    updateStatus cause status
    pure status

def activate (operator : OpsPrincipal) (reason : String) : Tx TenantStatus :=
  move operator "tenant.activated" reason .activate (· = .provisioning)
    "Only a provisioning tenant can be activated" .active

def deactivate (operator : OpsPrincipal) (reason : String) : Tx TenantStatus :=
  move operator "tenant.deactivated" reason .deactivate
    (fun s => !(s = .inactive || s = .provisioning)) "Only an active tenant can be deactivated"
    .inactive

def reactivate (operator : OpsPrincipal) (reason : String) : Tx TenantStatus :=
  move operator "tenant.reactivated" reason .reactivate (· = .inactive)
    "Only an inactive tenant can be reactivated" .active

/-! ### The first sale -/

/-- The end of `commitFinalize`, where the rest of it let the bill be finalized. -/
def finalizeFirstSale (settled : Except ApiError Unit) : Tx Unit :=
  match settled with
  | .error e => Txn.throw e
  | .ok () => do
      let wentLive ← Txn.writeWhen (fun v : Store => v.status = .provisioning) [.tenant]
        [.setStatus .firstSale .active]
      if wentLive then audit none "system:first-sale" "tenant.went_live" "First sale" else pure ()

inductive Call
  | updateStep (step : ChecklistStep) (completed : Bool)
  | goLive (owner : AdminPrincipal)
  | activate (operator : OpsPrincipal) (reason : String)
  | deactivate (operator : OpsPrincipal) (reason : String)
  | reactivate (operator : OpsPrincipal) (reason : String)
  | finalize (settled : Except ApiError Unit)

def Call.prog : Call → Tx Unit
  | .updateStep step completed => (GoLive.updateStep step completed).void
  | .goLive owner => (GoLive.goLive owner).void
  | .activate operator reason => (GoLive.activate operator reason).void
  | .deactivate operator reason => (GoLive.deactivate operator reason).void
  | .reactivate operator reason => (GoLive.reactivate operator reason).void
  | .finalize settled => finalizeFirstSale settled

def IsCall (p : Tx Unit) : Prop := ∃ call : Call, p = call.prog

/-- The events that say the tenant went live. -/
def Store.wentLive (s : Store) : List AuditEvent :=
  s.auditEvents.filter (·.action = "tenant.went_live")

/-! ### What is promised -/

/-- The tenant leaves provisioning once, is brought back by a reactivation only, and is said to
have gone live once. -/
structure GoesLiveOnce (s : Store) : Prop where
  left_once :
    (s.history.filter fun c => c.was = .provisioning && c.becomes ≠ .provisioning).length ≤ 1
  reactivated : ∀ c ∈ s.history, c.was = .inactive → c.becomes = .active → c.cause = .reactivate
  went_live_once : s.wentLive.length ≤ 1

/-- The changes of the status that go by what was read of it, and by nothing at the update. -/
def Write.goesByRead : Write → Bool
  | .setStatus .goLive _ => true
  | .setStatus .activate _ => true
  | _ => false

/-- A goLive or an activation that changes the status commits while every status it read is
still the committed one. -/
def upToDate (S : System Store Key Read Write ApiError) : Event Store Key Read Write ApiError → Bool
  | .commit t => (S.session t).all fun x =>
      !x.done.writes.any Write.goesByRead || x.done.reads.all (· ∈ S.store.statusRead)
  | _ => true

end RestiqBackend.GoLive
