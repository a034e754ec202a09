import RestiqBackend.ReadCommitted.Txn
import RestiqBackend.Store

/-!
Secrets that are used once.

An enrolment code makes a device (`enrollWithActor`, `src/ops/devices/devices.service.ts`), an
invite token makes an owner's account and a reset link changes its password (`acceptInvite` and
`resetPassword`, `src/admin/auth.service.ts`). `regenerateOwnerInvite`
(`src/ops/tenants/directory.service.ts`) replaces a tenant's invite and `forgotPassword` an
owner's links. Secrets are random and only their hashes are stored; here each is named by the
number of its row, given out as rows are committed, so that none is ever drawn twice. A statement
that changes every row of a kind finds them first and then changes those that still qualify; the
two that are to leave none of the rows open remember that they have looked for them.
-/

namespace RestiqBackend.Secrets

open ReadCommitted

/-! ### Rows -/

inductive Secret
  | code (id : ℕ)
  | invite (id : ℕ)
  | link (id : ℕ)
  deriving DecidableEq

inductive DeviceType
  | pos
  | kds
  | kiosk
  | cds
  | printer
  | terminal
  deriving DecidableEq

structure EnrolmentCode where
  id : ℕ
  tenantId : ℕ
  outletId : ℕ
  deviceType : DeviceType
  expiresAt : ℤ
  usedAt : Option ℤ
  deriving DecidableEq

structure Device where
  id : ℕ
  tenantId : ℕ
  outletId : ℕ
  label : String
  type : DeviceType
  hardwareKeyFingerprint : String
  enrolledAt : ℤ
  deriving DecidableEq

structure OwnerInvite where
  id : ℕ
  tenantId : ℕ
  email : String
  firstName : String
  lastName : String
  expiresAt : ℤ
  usedAt : Option ℤ
  deriving DecidableEq

structure OwnerUser where
  id : ℕ
  tenantId : ℕ
  email : String
  firstName : String
  lastName : String
  passwordHash : String
  sessionVersion : ℕ
  deriving DecidableEq

structure OwnerPasswordReset where
  id : ℕ
  tenantId : ℕ
  ownerId : ℕ
  expiresAt : ℤ
  usedAt : Option ℤ
  deriving DecidableEq

structure AuditEvent where
  tenantId : ℕ
  actorId : Option ℕ
  actorEmail : String
  action : String
  reason : String
  occurredAt : ℤ
  deriving DecidableEq

/-- What a transaction was let in by: the secret, what the clock said and when the secret was to
expire, and whether it had been replaced when it was read. No column keeps it. -/
structure Use where
  secret : Secret
  now : ℤ
  expiresAt : ℤ
  replaced : Bool
  deriving DecidableEq

structure Store where
  /-- The tenants that are not deleted. -/
  tenants : List ℕ
  enrolmentCodes : List EnrolmentCode
  devices : List Device
  /-- A tenant's invites, oldest first. -/
  ownerInvites : List OwnerInvite
  ownerUsers : List OwnerUser
  passwordResets : List OwnerPasswordReset
  /-- The tenants with a checklist, and when its devices step was completed. -/
  checklistProgress : List (ℕ × Option ℤ)
  auditEvents : List AuditEvent
  nextInvite : ℕ
  nextLink : ℕ
  /-- The devices, accounts and passwords that were committed, by what let them in. -/
  uses : List Use
  /-- The invites that were there when one of their tenant was regenerated, and the links that
  were there when another one of their owner was used. -/
  replaced : List Secret
  deriving DecidableEq

inductive Key
  | secret (x : Secret)
  | ownerEmail (tenantId : ℕ) (email : String)
  | owner (id : ℕ)
  | checklistProgress (tenantId : ℕ)
  deriving DecidableEq

inductive Write
  /-- Sets `used_at`. -/
  | close (x : Secret) (usedAt : ℤ)
  | deleteInvite (id : ℕ)
  | createInvite (tenantId : ℕ) (email firstName lastName : String) (expiresAt : ℤ)
  | createLink (tenantId ownerId : ℕ) (expiresAt : ℤ)
  | createDevice (device : Device) (letIn : Use)
  | upsertOwner (owner : OwnerUser) (letIn : Use)
  | setPassword (ownerId : ℕ) (passwordHash : String) (letIn : Use)
  | upsertChecklist (tenantId : ℕ) (devicesAt : Option ℤ)
  | createAuditEvent (event : AuditEvent)
  deriving DecidableEq

/-- Having looked for what is to be replaced: the invites of a tenant, the links of an owner. -/
inductive Read
  | invitesOf (tenantId : ℕ)
  | linksOf (ownerId : ℕ)
  deriving DecidableEq

abbrev Tx := Txn Store Key Read Write ApiError

abbrev TxFootprint := Footprint Key Read Write

/-- Whether the row of a secret is there and not used. -/
def Store.isOpen (s : Store) : Secret → Bool
  | .code id => s.enrolmentCodes.any fun r => r.id = id && r.usedAt = none
  | .invite id => s.ownerInvites.any fun r => r.id = id && r.usedAt = none
  | .link id => s.passwordResets.any fun r => r.id = id && r.usedAt = none

/-- The row of `id` used at `usedAt`. -/
def Store.close (s : Store) (usedAt : ℤ) : Secret → Store
  | .code id => { s with enrolmentCodes := s.enrolmentCodes.map fun r =>
      if r.id = id then { r with usedAt := some usedAt } else r }
  | .invite id => { s with ownerInvites := s.ownerInvites.map fun r =>
      if r.id = id then { r with usedAt := some usedAt } else r }
  | .link id => { s with passwordResets := s.passwordResets.map fun r =>
      if r.id = id then { r with usedAt := some usedAt } else r }

def Store.invitesOf (s : Store) (tenantId : ℕ) : List OwnerInvite :=
  s.ownerInvites.filter (·.tenantId = tenantId)

def Store.linksOf (s : Store) (ownerId : ℕ) : List OwnerPasswordReset :=
  s.passwordResets.filter (·.ownerId = ownerId)

/-- An account by its tenant and email, as it was or with the new columns. -/
def upsertRow (owner : OwnerUser) (owners : List OwnerUser) : List OwnerUser :=
  if owners.any (·.id = owner.id) then owners.map fun o => if o.id = owner.id then owner else o
  else owners ++ [owner]

def Store.apply (s : Store) : Write → Store
  | .close x usedAt => s.close usedAt x
  | .deleteInvite id =>
      { s with
        ownerInvites := s.ownerInvites.filter (·.id ≠ id)
        replaced := s.replaced ++ (s.ownerInvites.filter (·.id = id)).map (.invite ·.id) }
  | .createInvite tenantId email firstName lastName expiresAt =>
      { s with
        ownerInvites := s.ownerInvites ++
          [⟨s.nextInvite, tenantId, email, firstName, lastName, expiresAt, none⟩]
        nextInvite := s.nextInvite + 1
        replaced := s.replaced ++ (s.invitesOf tenantId).map (.invite ·.id) }
  | .createLink tenantId ownerId expiresAt =>
      { s with
        passwordResets := s.passwordResets ++ [⟨s.nextLink, tenantId, ownerId, expiresAt, none⟩]
        nextLink := s.nextLink + 1 }
  | .createDevice device letIn =>
      { s with devices := s.devices ++ [device], uses := s.uses ++ [letIn] }
  | .upsertOwner owner letIn =>
      { s with ownerUsers := upsertRow owner s.ownerUsers, uses := s.uses ++ [letIn] }
  | .setPassword ownerId passwordHash letIn =>
      { s with
        ownerUsers := s.ownerUsers.map fun o =>
          if o.id = ownerId then { o with passwordHash, sessionVersion := o.sessionVersion + 1 }
          else o
        uses := s.uses ++ [letIn]
        replaced := s.replaced ++ ((s.linksOf ownerId).map (Secret.link ·.id)).filter
          (· ≠ letIn.secret) }
  | .upsertChecklist tenantId devicesAt =>
      { s with checklistProgress :=
          if s.checklistProgress.any (·.1 = tenantId) then s.checklistProgress.map fun row =>
            if row.1 = tenantId then (tenantId, devicesAt.or row.2) else row
          else s.checklistProgress ++ [(tenantId, devicesAt)] }
  | .createAuditEvent event => { s with auditEvents := s.auditEvents ++ [event] }

instance : WriteTo Write Store := ⟨fun w s => s.apply w⟩

/-! ### Presenting a secret -/

/-- What a secret is refused with: unknown, used, expired. -/
structure Refusals where
  invalid : ApiError
  used : ApiError
  expired : ApiError

/-- Finds the row a secret leads to, looks at it, and uses it up: an update of the row where it
is still not used, whose count decides. -/
def present {α : Type} (x : Secret) (refusals : Refusals) (find : Store → Option α)
    (usedAt : α → Option ℤ) (expiresAt : α → ℤ) : Tx (α × Use) := do
  let found ← Txn.query fun v => (find v, decide (x ∈ v.replaced))
  match found with
  | (none, _) => Txn.throw refusals.invalid
  | (some row, replaced) => do
      Txn.throwIf (usedAt row ≠ none) refusals.used
      let now ← Txn.clock
      Txn.throwIf (expiresAt row ≤ now) refusals.expired
      let at_ ← Txn.clock
      let consumed ← Txn.writeWhen (fun v : Store => v.isOpen x) [.secret x] [.close x at_]
      Txn.throwIf (consumed = false) refusals.used
      pure (row, ⟨x, now, expiresAt row, replaced⟩)

def audit (tenantId : ℕ) (actorId : Option ℕ) (actorEmail action reason : String) : Tx Unit := do
  let occurredAt ← Txn.clock
  Txn.exec (fun _ => []) fun _ =>
    [.createAuditEvent ⟨tenantId, actorId, actorEmail, action, reason, occurredAt⟩]

def upsertChecklist (tenantId : ℕ) (devicesAt : Option ℤ) : Tx Unit :=
  Txn.exec (fun _ => [.checklistProgress tenantId]) fun _ => [.upsertChecklist tenantId devicesAt]

/-! ### Enrolling a device -/

def DeviceType.name : DeviceType → String
  | .pos => "Till"
  | .kds => "Kitchen screen"
  | .kiosk => "Kiosk"
  | .cds => "Customer display"
  | .printer => "Printer"
  | .terminal => "Card terminal"

def defaultLabel (type : DeviceType) (sameTypeCount : ℕ) : String :=
  s!"{type.name} {sameTypeCount + 1}"

structure EnrollActor where
  actorId : Option ℕ
  actorEmail : String
  reason : Option String

structure EnrollDeviceDto where
  code : ℕ
  hardwareKeyFingerprint : String
  /-- Trimmed. -/
  label : Option String

def codeRefusals : Refusals where
  invalid := ⟨.badRequest, "code_invalid", "This enrolment code is not valid"⟩
  used := ⟨.conflict, "code_already_used", "This enrolment code has already been used"⟩
  expired := ⟨.badRequest, "code_expired", "This enrolment code has expired"⟩

def enrollWithActor (actor : EnrollActor) (dto : EnrollDeviceDto) : Tx Device := do
  let (record, letIn) ← present (.code dto.code) codeRefusals
    (fun v => v.enrolmentCodes.find? (·.id = dto.code)) (·.usedAt) (·.expiresAt)
  let devices ← Txn.query fun v : Store => v.devices.filter (·.tenantId = record.tenantId)
  let id ← Txn.uuid
  let now ← Txn.clock
  let sameTypeCount ← Txn.query fun v : Store => (v.devices.filter fun d =>
    d.tenantId = record.tenantId && d.outletId = record.outletId &&
      d.type = record.deviceType).length
  let device : Device :=
    { id, tenantId := record.tenantId, outletId := record.outletId
      label := (dto.label.filter (· ≠ "")).getD (defaultLabel record.deviceType sameTypeCount)
      type := record.deviceType, hardwareKeyFingerprint := dto.hardwareKeyFingerprint
      enrolledAt := now }
  Txn.exec (fun _ => []) fun _ => [.createDevice device letIn]
  audit record.tenantId actor.actorId actor.actorEmail "device.enrolled"
    (actor.reason.getD "Device enrolled via one-time enrolment code")
  if devices = [] then upsertChecklist record.tenantId (some now) else pure ()
  pure device

/-! ### Accepting an invite -/

def inviteRefusals : Refusals where
  invalid := ⟨.badRequest, "invite_invalid", "This invite link is not valid"⟩
  used := ⟨.conflict, "invite_already_used", "This invite has already been used"⟩
  expired := ⟨.badRequest, "invite_expired", "This invite has expired"⟩

/-- `upsert` by the tenant and the email: a new account is numbered `id`. -/
def upsertOwner (invite : OwnerInvite) (passwordHash : String) (id : ℕ) (letIn : Use) :
    Tx OwnerUser :=
  .stmt (fun _ v =>
    let existing := v.ownerUsers.find? fun o =>
      o.tenantId = invite.tenantId && o.email = invite.email
    let owner := { (existing.getD ⟨id, invite.tenantId, invite.email, "", "", "", 0⟩) with
      passwordHash, firstName := invite.firstName, lastName := invite.lastName }
    { locks := [.ownerEmail invite.tenantId invite.email, .owner owner.id]
      writes := [.upsertOwner owner letIn]
      ret := owner }) .done

def acceptInvite (token : ℕ) (passwordHash : String) : Tx OwnerUser := do
  let (invite, letIn) ← present (.invite token) inviteRefusals
    (fun v => v.ownerInvites.find? (·.id = token)) (·.usedAt) (·.expiresAt)
  let id ← Txn.uuid
  let owner ← upsertOwner invite passwordHash id letIn
  upsertChecklist invite.tenantId none
  audit invite.tenantId (some owner.id) owner.email "owner.invite_accepted"
    "Owner accepted invite and set account credentials"
  pure owner

structure OpsPrincipal where
  id : ℕ
  email : String

def ownerInviteTtl : ℤ := 7 * 24 * 3600000

/-- Deletes the invites of a tenant that are there when the statement begins and still there when
it gets to them. -/
def deleteInvites (tenantId : ℕ) : Tx Unit := do
  let ids ← Txn.read (fun v : Store => (v.invitesOf tenantId).map (·.id))
    fun _ => [.invitesOf tenantId]
  Txn.exec
    (fun v => ((v.invitesOf tenantId).filter (·.id ∈ ids)).map fun i => .secret (.invite i.id))
    fun v => ((v.invitesOf tenantId).filter (·.id ∈ ids)).map fun i => .deleteInvite i.id

def regenerateOwnerInvite (operator : OpsPrincipal) (tenantId : ℕ) (reason : String) :
    Tx OwnerInvite := do
  let now ← Txn.clock
  let expiresAt := now + ownerInviteTtl
  let found ← Txn.query fun v : Store => decide (tenantId ∈ v.tenants)
  Txn.throwIf (found = false) ⟨.notFound, "not_found", "No such tenant"⟩
  let existing ← Txn.query fun v : Store => (v.invitesOf tenantId).getLast?
  match existing with
  | none => Txn.throw ⟨.notFound, "not_found", "This tenant has no owner invite to regenerate"⟩
  | some existing => do
      deleteInvites tenantId
      let token ← .stmt (fun _ v =>
        { writes := [.createInvite tenantId existing.email existing.firstName existing.lastName
            expiresAt]
          ret := v.nextInvite }) .done
      audit tenantId (some operator.id) operator.email "tenant.owner_invite_regenerated" reason
      pure { existing with id := token, tenantId, expiresAt, usedAt := none }

/-! ### Resetting a password -/

def resetRefusals : Refusals where
  invalid := ⟨.badRequest, "reset_invalid", "This reset link is not valid"⟩
  used := ⟨.badRequest, "reset_invalid", "This reset link is not valid"⟩
  expired := ⟨.badRequest, "reset_expired", "This reset link has expired"⟩

/-- Marks the links of an owner that are open when the statement begins and still open when it
gets to them; `remembered` is what is kept of having looked. -/
def closeLinks (ownerId : ℕ) (remembered : List Read) : Tx Unit := do
  let now ← Txn.clock
  let ids ← Txn.read (fun v : Store => ((v.linksOf ownerId).filter (·.usedAt = none)).map (·.id))
    fun _ => remembered
  Txn.exec (fun v => (ids.filter fun id => v.isOpen (.link id)).map fun id => .secret (.link id))
    fun v => (ids.filter fun id => v.isOpen (.link id)).map fun id => .close (.link id) now

def resetTokenTtl : ℤ := 60 * 60 * 1000

/-- For every account of the email: its open links end and a new one begins. -/
def forgotPassword (email : String) : Tx Unit := do
  let owners ← Txn.query fun v : Store => v.ownerUsers.filter (·.email = email)
  Txn.forEach (fun owner => do
    closeLinks owner.id []
    let now ← Txn.clock
    Txn.exec (fun _ => []) fun _ => [.createLink owner.tenantId owner.id (now + resetTokenTtl)])
    owners

def recordNotFound : ApiError := ⟨.notFound, "not_found", "No such record"⟩

/-- `tx.ownerUser.update` by its id, answering with the email of the row. -/
def setPassword (ownerId : ℕ) (passwordHash : String) (letIn : Use) : Tx String := do
  let email ← .stmt (fun _ v => match v.ownerUsers.find? (·.id = ownerId) with
    | some owner =>
        { locks := [.owner ownerId], writes := [.setPassword ownerId passwordHash letIn]
          ret := some owner.email }
    | none => { ret := none }) .done
  match email with
  | some email => pure email
  | none => Txn.throw recordNotFound

def resetPassword (token : ℕ) (passwordHash : String) : Tx Unit := do
  let (reset, letIn) ← present (.link token) resetRefusals
    (fun v => v.passwordResets.find? (·.id = token)) (·.usedAt) (·.expiresAt)
  closeLinks reset.ownerId [.linksOf reset.ownerId]
  let email ← setPassword reset.ownerId passwordHash letIn
  audit reset.tenantId (some reset.ownerId) email "owner.password_reset"
    "Owner reset their password from an emailed link; every earlier session was ended"

inductive Call
  | enroll (actor : EnrollActor) (dto : EnrollDeviceDto)
  | acceptInvite (token : ℕ) (passwordHash : String)
  | regenerateOwnerInvite (operator : OpsPrincipal) (tenantId : ℕ) (reason : String)
  | forgotPassword (email : String)
  | resetPassword (token : ℕ) (passwordHash : String)

def Call.prog : Call → Tx Unit
  | .enroll actor dto => (enrollWithActor actor dto).void
  | .acceptInvite token passwordHash => (Secrets.acceptInvite token passwordHash).void
  | .regenerateOwnerInvite operator tenantId reason =>
      (Secrets.regenerateOwnerInvite operator tenantId reason).void
  | .forgotPassword email => Secrets.forgotPassword email
  | .resetPassword token passwordHash => Secrets.resetPassword token passwordHash

def IsCall (p : Tx Unit) : Prop := ∃ call : Call, p = call.prog

/-- The secret that a write ends. -/
def Write.shuts : Write → Option Secret
  | .close x _ => some x
  | .deleteInvite id => some (.invite id)
  | _ => none

/-- Whether a write adds to what was looked for. -/
def Write.adds (r : Read) : Write → Bool
  | .createInvite tenantId .. => r = .invitesOf tenantId
  | .createLink _ ownerId _ => r = .linksOf ownerId
  | _ => false

/-- No commit adds an invite of a tenant, or a link of an owner, while another transaction in
flight has looked for those that it is to replace. -/
def replacesAlone (S : System Store Key Read Write ApiError) :
    Event Store Key Read Write ApiError → Bool
  | .commit t => (S.session t).all fun x => S.readsBeside t fun r =>
      x.done.writes.all fun w => !w.adds r
  | _ => true

end RestiqBackend.Secrets
