import RestiqBackend.Serial
import RestiqBackend.Store

/-!
Signing in at the tills.

`login` and `selectOutlet` (`src/pos/auth/auth.service.ts`) answer a PIN with a session
token, `issuePin`, `revokePin` and `update` (`src/admin/staff/staff.service.ts`) change
whose PIN it is, and `canActivate` (`src/platform/pos-auth.guard.ts`) decides what a token
still opens. The hash of a PIN is argon2's, so whether a PIN matches a hash is a parameter.

A sign-in is several transactions, so one that is under way is a `Login` of its own and
anything may happen between its stages; everything else is one transaction. What was
signed is kept, since only what was signed can be presented, with the PIN it was signed
for and the till that PIN was typed on.
-/

namespace RestiqBackend.SignIn

/-! ### Rows -/

structure Tenant where
  id : ℕ
  status : TenantStatus
  deletedAt : Option ℤ
  deriving DecidableEq

structure Role where
  id : ℕ
  tenantId : ℕ
  name : String
  isSystem : Bool
  deriving DecidableEq

structure Outlet where
  id : ℕ
  tenantId : ℕ
  name : String
  deletedAt : Option ℤ
  deriving DecidableEq

inductive DeviceStatus
  | active
  | revoked
  deriving DecidableEq

structure Device where
  id : ℕ
  tenantId : ℕ
  outletId : Option ℕ
  status : DeviceStatus
  revokedAt : Option ℤ
  deriving DecidableEq

structure RevokedPosToken where
  jti : ℕ
  tenantId : ℕ
  expiresAt : ℤ
  deriving DecidableEq

structure StaffUser (Hash : Type) where
  id : ℕ
  tenantId : ℕ
  roleId : ℕ
  name : String
  pinHash : Option Hash
  pinRevokedAt : Option ℤ
  outletIds : List ℕ
  sessionVersion : ℕ

/-- The staff table: an identifier has one row. -/
structure StaffTable (Hash : Type) where
  rows : List (StaffUser Hash)
  nodup : (rows.map (·.id)).Nodup

/-! ### Tokens -/

/-- How long a session and an outlet selection last, in seconds. -/
def sessionTtl : ℤ := 12 * 60 * 60
def pendingTtl : ℤ := 5 * 60

/-- The payload of a session token. -/
structure PosToken where
  sub : ℕ
  tenantId : ℕ
  outletId : ℕ
  name : String
  sv : ℕ
  did : Option ℕ
  jti : Option ℕ
  exp : ℤ
  deriving DecidableEq

/-- The payload of an outlet-selection token. -/
structure PosPendingToken where
  sub : ℕ
  tenantId : ℕ
  exp : ℤ
  deriving DecidableEq

/-- What was typed at a login, and the active till it was typed on. -/
structure PinEntry where
  pin : String
  till : Option ℕ
  deriving DecidableEq

structure Signed where
  token : PosToken
  entry : PinEntry
  deriving DecidableEq

structure SignedPending where
  token : PosPendingToken
  entry : PinEntry
  deriving DecidableEq

structure PosLoginDto where
  tenantId : ℕ
  pin : String
  deviceId : Option ℕ

/-- A sign-in under way: the till was looked up, the PIN was matched, or the outlet is
known and the session is about to be signed. The staff row is the one that was read. -/
inductive Login (Hash : Type)
  | deviceRead (dto : PosLoginDto) (active : Option Device)
  | pinMatched (entry : PinEntry) (staff : StaffUser Hash) (active : Option Device)
  | outletChosen (entry : PinEntry) (staff : StaffUser Hash) (outlet : Outlet)
      (deviceId : Option ℕ)

/-- The rows, the sign-ins under way, and what was ever signed and signed out. -/
structure World (Hash : Type) where
  tenants : List Tenant
  roles : List Role
  outlets : List Outlet
  devices : List Device
  staff : StaffTable Hash
  revokedTokens : List RevokedPosToken
  logins : List (Login Hash)
  pending : List SignedPending
  signed : List Signed
  loggedOut : List PosToken

variable {Hash : Type}

namespace StaffTable

def find (t : StaffTable Hash) (id : ℕ) : Option (StaffUser Hash) := t.rows.find? (·.id = id)

/-- Changing a row, its identifier apart. -/
def update (t : StaffTable Hash) (id : ℕ) (f : StaffUser Hash → StaffUser Hash)
    (hf : ∀ row, (f row).id = row.id) : StaffTable Hash where
  rows := updateRows StaffUser.id id f t.rows
  nodup := by
    have hids : (updateRows StaffUser.id id f t.rows).map (·.id) = t.rows.map (·.id) := by
      rw [updateRows, List.map_map]
      refine List.map_congr_left fun row _ => ?_
      simp only [Function.comp_apply]
      split
      · exact hf row
      · rfl
    exact hids ▸ t.nodup

end StaffTable

/-! ### Checks -/

def refuseIf (c : Prop) [Decidable c] (kind : ErrorKind) (code message : String) :
    Except ApiError Unit :=
  if c then .error ⟨kind, code, message⟩ else .ok ()

def refuse {α : Type} (kind : ErrorKind) (code message : String) : Except ApiError α :=
  .error ⟨kind, code, message⟩

inductive PinStatus
  | none
  | active
  | revoked
  deriving DecidableEq

def pinStatus (row : StaffUser Hash) : PinStatus :=
  if row.pinHash.isNone then .none
  else if row.pinRevokedAt.isSome then .revoked else .active

inductive RoutePolicy
  | permission (permission : Permission)
  | anyStaff

/-- A request as the guard sees it: the token in its header, the tenant whose address it
came to where the proxy vouches for one, the outlets it reaches and the route's policy. -/
structure Request where
  posPath : Bool
  isPublic : Bool
  token : Option PosToken
  address : Option (Option ℕ)
  outletsReached : List ℕ
  policy : Option RoutePolicy

structure TokenId where
  jti : ℕ
  expiresAt : ℤ

structure PosTokenClaims where
  id : ℕ
  tenantId : ℕ
  outletId : ℕ
  name : String
  sessionVersion : ℕ
  token : Option TokenId
  deviceId : Option ℕ

structure PosPrincipal where
  id : ℕ
  tenantId : ℕ
  outletId : ℕ
  name : String
  role : String
  token : Option TokenId

/-- Times are kept in milliseconds and signed in seconds. -/
def seconds (now : ℤ) : ℤ := now / 1000

/-- The claims of a token that was signed and has not expired. -/
def World.verifyPosToken (w : World Hash) (now : ℤ) (t : PosToken) : Option PosTokenClaims :=
  if t ∈ w.signed.map (·.token) ∧ seconds now < t.exp then
    some
      { id := t.sub, tenantId := t.tenantId, outletId := t.outletId, name := t.name
        sessionVersion := t.sv, token := t.jti.map fun jti => ⟨jti, t.exp⟩, deviceId := t.did }
  else none

def World.isTenantBlocked (w : World Hash) (tenantId : ℕ) : Bool :=
  match w.tenants.find? (·.id = tenantId) with
  | some tenant => tenant.status = .inactive || tenant.deletedAt.isSome
  | none => true

def Device.isActive (d : Device) : Bool := d.status = .active && d.revokedAt.isNone

/-- The staff row behind the claims, where the session is still open. -/
def World.sessionStaff (w : World Hash) (claims : PosTokenClaims) :
    Except ApiError (StaffUser Hash) :=
  let tokenRevoked := claims.token.any fun t => w.revokedTokens.any (·.jti = t.jti)
  match (w.staff.find claims.id).filter fun row =>
      !tokenRevoked && row.tenantId = claims.tenantId && row.pinRevokedAt.isNone &&
        row.sessionVersion = claims.sessionVersion with
  | some staff => .ok staff
  | none => refuse .unauthorized "session_revoked" "This session has ended - log in again"

/-- Whether the till of the session, if it has one, is still enrolled. -/
def World.deviceActive (w : World Hash) (claims : PosTokenClaims) : Bool :=
  claims.deviceId.all fun d =>
    w.devices.any fun row => row.id = d && row.tenantId = claims.tenantId && row.isActive

/-- Whether the request reaches an outlet that the staff member does not work at. -/
def outsideOutlets (staff : StaffUser Hash) (r : Request) : Bool :=
  !staff.outletIds.isEmpty &&
    r.outletsReached.any fun outletId => !staff.outletIds.contains outletId

def World.roleName (w : World Hash) (staff : StaffUser Hash) : String :=
  ((w.roles.find? (·.id = staff.roleId)).map (·.name)).getD ""

def checkPolicy (role : String) : Option RoutePolicy → Except ApiError Unit
  | none => refuse .forbidden "forbidden" "This action has no permission policy"
  | some .anyStaff => .ok ()
  | some (.permission p) =>
      refuseIf (p ∉ permissionsFor role) .forbidden "forbidden" "Your role cannot do this"

/-- `PosAuthGuard.canActivate`, `none` where the route is not its business. -/
def World.canActivate (w : World Hash) (now : ℤ) (r : Request) :
    Except ApiError (Option PosPrincipal) :=
  if r.posPath = false ∨ r.isPublic = true then .ok none
  else
    match r.token.bind (w.verifyPosToken now) with
    | none => refuse .unauthorized "unauthorized" "A valid POS session is required"
    | some claims => do
        refuseIf (w.isTenantBlocked claims.tenantId = true) .forbidden "tenant_inactive"
          "This tenant is no longer active"
        refuseIf (r.address.any (· ≠ some claims.tenantId) = true) .forbidden "tenant_mismatch"
          "This session belongs to a different restaurant"
        let staff ← w.sessionStaff claims
        refuseIf (w.deviceActive claims = false) .unauthorized "device_revoked"
          "This device was removed by the owner - set it up again with a new code"
        refuseIf (outsideOutlets staff r = true) .forbidden "outlet_mismatch"
          (staff.name ++ " isn't set up to work at this outlet")
        checkPolicy (w.roleName staff) r.policy
        pure (some ⟨claims.id, claims.tenantId, claims.outletId, staff.name, w.roleName staff,
          claims.token⟩)

/-! ### Signing in -/

section Steps

variable (argon2Verify : Hash → String → Bool)

/-- The tenant's device with this identifier, in any status. -/
def World.findDevice (w : World Hash) (dto : PosLoginDto) : Option Device :=
  dto.deviceId.bind fun id => w.devices.find? fun d => d.id = id && d.tenantId = dto.tenantId

def World.activeDevice (w : World Hash) (dto : PosLoginDto) : Option Device :=
  (w.findDevice dto).filter (·.isActive)

/-- Whether the row is one that the PIN belongs to. -/
def pinMatches (row : StaffUser Hash) (pin : String) : Bool := row.pinHash.any (argon2Verify · pin)

def World.findStaffByPin (w : World Hash) (tenantId : ℕ) (pin : String) :
    Option (StaffUser Hash) :=
  w.staff.rows.find? fun row =>
    row.tenantId = tenantId && pinStatus row = .active && pinMatches argon2Verify row pin

/-- The tenant's live outlets, narrowed to the staff member's own when they have any. -/
def World.listOutlets (w : World Hash) (tenantId : ℕ) (staffOutletIds : List ℕ) : List Outlet :=
  w.outlets.filter fun o => o.tenantId = tenantId && o.deletedAt.isNone &&
    (staffOutletIds.isEmpty || staffOutletIds.contains o.id)

/-- `login` up to the till: a revoked one signs nobody in. -/
def World.readDevice (w : World Hash) (dto : PosLoginDto) : Except ApiError (Login Hash) := do
  refuseIf ((w.findDevice dto).isSome ∧ (w.activeDevice dto).isNone) .forbidden "device_revoked"
    "This device was removed by the owner - set it up again with a new code"
  pure (.deviceRead dto (w.activeDevice dto))

def World.matchPin (w : World Hash) (dto : PosLoginDto) (active : Option Device) :
    Except ApiError (Login Hash) :=
  match w.findStaffByPin argon2Verify dto.tenantId dto.pin with
  | some staff => pure (.pinMatched ⟨dto.pin, active.map (·.id)⟩ staff active)
  | none => refuse .unauthorized "invalid_pin" "Incorrect tenant or PIN"

/-- The outlet to sign in at, or a token to select one with. -/
def World.chooseOutlet (w : World Hash) (now : ℤ) (entry : PinEntry) (staff : StaffUser Hash)
    (active : Option Device) : Except ApiError (Login Hash ⊕ SignedPending) :=
  let outlets := w.listOutlets staff.tenantId staff.outletIds
  match active.bind fun d => d.outletId.map fun outletId => (d.id, outletId) with
  | some (deviceId, outletId) =>
      match outlets.find? (·.id = outletId) with
      | some outlet => pure (.inl (.outletChosen entry staff outlet (some deviceId)))
      | none => refuse .forbidden "outlet_not_assigned"
          (staff.name ++ " isn't set up to work at this outlet")
  | none =>
      match outlets with
      | [] => refuse .conflict "no_outlets"
          (if staff.outletIds.isEmpty then "This tenant has no outlets configured yet"
          else "None of " ++ staff.name ++
            "'s outlets are open - ask the owner to update their outlets")
      | [outlet] => pure (.inl (.outletChosen entry staff outlet none))
      | _ => pure (.inr ⟨⟨staff.id, staff.tenantId, seconds now + pendingTtl⟩, entry⟩)

/-- `signPosToken`, on the staff row that was read for this sign-in. -/
def signPosToken (now : ℤ) (jti : ℕ) (entry : PinEntry) (staff : StaffUser Hash) (outlet : Outlet)
    (deviceId : Option ℕ) : Signed where
  token :=
    { sub := staff.id, tenantId := staff.tenantId, outletId := outlet.id, name := staff.name
      sv := staff.sessionVersion, did := deviceId, jti := some jti
      exp := seconds now + sessionTtl }
  entry := entry

/-- `selectOutlet`: the staff row is read afresh, by the identifier in the token. -/
def World.selectOutlet (w : World Hash) (now : ℤ) (x : SignedPending) (outletId : ℕ) :
    Except ApiError (Login Hash) :=
  if x ∈ w.pending ∧ seconds now < x.token.exp then
    match (w.staff.find x.token.sub).filter (·.tenantId = x.token.tenantId) with
    | none => refuse .unauthorized "unauthorized" "This selection has expired - log in again"
    | some staff =>
        match (w.outlets.find? (·.id = outletId)).filter fun o =>
            o.tenantId = x.token.tenantId && o.deletedAt.isNone with
        | none => refuse .badRequest "invalid_outlet" "Select one of this tenant's outlets"
        | some outlet => do
            refuseIf (staff.outletIds ≠ [] ∧ outlet.id ∉ staff.outletIds) .forbidden
              "outlet_not_assigned" (staff.name ++ " isn't set up to work at " ++ outlet.name)
            pure (.outletChosen x.entry staff outlet none)
  else refuse .unauthorized "unauthorized" "This selection has expired - log in again"

/-! ### The owner's side -/

def World.findOwnedStaff (w : World Hash) (tenantId staffId : ℕ) :
    Except ApiError (StaffUser Hash) :=
  match (w.staff.find staffId).filter (·.tenantId = tenantId) with
  | some staff => pure staff
  | none => refuse .notFound "not_found" "No such staff member"

def StaffUser.issuePin (row : StaffUser Hash) (pinHash : Hash) : StaffUser Hash :=
  { row with
    pinHash := some pinHash, pinRevokedAt := none, sessionVersion := row.sessionVersion + 1 }

def StaffUser.revokePin (row : StaffUser Hash) (now : ℤ) : StaffUser Hash :=
  { row with pinRevokedAt := some now, sessionVersion := row.sessionVersion + 1 }

def StaffUser.endSessions (row : StaffUser Hash) : StaffUser Hash :=
  { row with sessionVersion := row.sessionVersion + 1 }

def World.issuePin (w : World Hash) (tenantId staffId : ℕ) (pinHash : Hash) :
    Except ApiError (World Hash) := do
  let _ ← w.findOwnedStaff tenantId staffId
  pure { w with staff := w.staff.update staffId (·.issuePin pinHash) fun _ => rfl }

def World.revokePin (w : World Hash) (tenantId staffId : ℕ) (now : ℤ) :
    Except ApiError (World Hash) := do
  let staff ← w.findOwnedStaff tenantId staffId
  refuseIf (staff.pinHash.isNone = true) .conflict "conflict"
    "This staff member has no PIN to revoke"
  refuseIf (staff.pinRevokedAt.isSome = true) .conflict "conflict" "This PIN is already revoked"
  pure { w with staff := w.staff.update staffId (·.revokePin now) fun _ => rfl }

structure UpdateStaffDto where
  name : Option String
  roleId : Option ℕ
  outletIds : Option (List ℕ)
  reason : Option String

def World.assertSeededRole (w : World Hash) (tenantId roleId : ℕ) : Except ApiError Unit :=
  refuseIf (((w.roles.find? (·.id = roleId)).any fun r => r.tenantId = tenantId && r.isSystem)
      = false) .badRequest "validation_failed"
    "roleId must be one of this tenant's seeded system roles"

def World.assertOwnOutlets (w : World Hash) (tenantId : ℕ) (outletIds : List ℕ) :
    Except ApiError (List ℕ) := do
  let ids := outletIds.dedup
  let found := w.outlets.filter fun o =>
    ids.contains o.id && o.tenantId = tenantId && o.deletedAt.isNone
  refuseIf (found.length ≠ ids.length) .badRequest "validation_failed"
    "outletIds must be this tenant's outlets"
  pure ids

def World.assertRoleChange (w : World Hash) (tenantId : ℕ) (dto : UpdateStaffDto)
    (roleChanging : Bool) : Except ApiError Unit :=
  if roleChanging then do
    w.assertSeededRole tenantId (dto.roleId.getD 0)
    refuseIf (dto.reason.all (· = "") = true) .badRequest "validation_failed"
      "reason is required when changing a role"
  else pure ()

def World.newOutlets (w : World Hash) (tenantId : ℕ) (dto : UpdateStaffDto) :
    Except ApiError (Option (List ℕ)) :=
  match dto.outletIds with
  | some ids => some <$> w.assertOwnOutlets tenantId ids
  | none => pure none

/-- What the language counts as white space at the ends of a string. -/
def isSpace (c : Char) : Bool :=
  c.val ∈ [0x9, 0xa, 0xb, 0xc, 0xd, 0x20, 0xa0, 0x1680, 0x2028, 0x2029, 0x202f, 0x205f, 0x3000,
    0xfeff] || (0x2000 ≤ c.val && c.val ≤ 0x200a)

def trim (s : String) : String :=
  String.ofList ((s.toList.dropWhile isSpace).reverse.dropWhile isSpace).reverse

/-- The columns an update leaves; a new role or other outlets end the open sessions. -/
def StaffUser.edit (row : StaffUser Hash) (dto : UpdateStaffDto) (outletIds : Option (List ℕ))
    (ends : Bool) : StaffUser Hash :=
  { row with
    name := (dto.name.map trim).getD row.name
    roleId := dto.roleId.getD row.roleId, outletIds := outletIds.getD row.outletIds
    sessionVersion := if ends then row.sessionVersion + 1 else row.sessionVersion }

def World.updateStaff (w : World Hash) (tenantId staffId : ℕ) (dto : UpdateStaffDto) :
    Except ApiError (World Hash) := do
  let existing ← w.findOwnedStaff tenantId staffId
  let roleChanging := dto.roleId.any (· ≠ existing.roleId)
  w.assertRoleChange tenantId dto roleChanging
  let outletIds ← w.newOutlets tenantId dto
  let outletsChanging := outletIds.any fun ids => !ids.isPerm existing.outletIds
  pure
    { w with
      staff := w.staff.update staffId (·.edit dto outletIds (roleChanging || outletsChanging))
        fun _ => rfl }

/-- Removing a device: by an owner, within a tenant and an outlet, or by an operator. -/
def World.revokeDevice (w : World Hash) (owner : Option (ℕ × ℕ)) (deviceId : ℕ) (now : ℤ) :
    Except ApiError (World Hash) :=
  match w.devices.find? fun d => d.id = deviceId &&
      owner.all fun o => d.tenantId = o.1 && d.outletId = some o.2 with
  | none => refuse .notFound "not_found"
      (if owner.isSome then "No such device at this outlet" else "No such device")
  | some device => do
      refuseIf (device.status = .revoked) .conflict "conflict" "This device is already revoked"
      let revoke (d : Device) : Device := { d with status := .revoked, revokedAt := some now }
      pure { w with devices := updateRows Device.id deviceId revoke w.devices }

/-- Signing out ends the presented session only, or all of them for a token without an
identifier of its own. -/
def World.logout (w : World Hash) (staff : PosPrincipal) (token : PosToken) : World Hash :=
  match staff.token with
  | some t =>
      { w with
        loggedOut := token :: w.loggedOut
        revokedTokens := if w.revokedTokens.any (·.jti = t.jti) then w.revokedTokens
          else w.revokedTokens ++ [⟨t.jti, staff.tenantId, t.expiresAt * 1000⟩] }
  | none =>
      { w with
        loggedOut := token :: w.loggedOut
        staff := w.staff.update staff.id (·.endSessions) fun _ => rfl }

/-! ### What can happen -/

inductive Event (Hash : Type)
  | login (dto : PosLoginDto)
  | matchPin (login : ℕ)
  | chooseOutlet (login : ℕ) (now : ℤ)
  | finalize (login : ℕ) (now : ℤ) (jti : ℕ)
  | selectOutlet (x : SignedPending) (outletId : ℕ) (now : ℤ)
  | request (r : Request) (now : ℤ)
  | logout (r : Request) (now : ℤ)
  | issuePin (tenantId staffId : ℕ) (pinHash : Hash)
  | revokePin (tenantId staffId : ℕ) (now : ℤ)
  | updateStaff (tenantId staffId : ℕ) (dto : UpdateStaffDto)
  | revokeDevice (owner : Option (ℕ × ℕ)) (deviceId : ℕ) (now : ℤ)
  | configure (tenants : List Tenant) (roles : List Role) (outlets : List Outlet)
  | enrolDevice (device : Device)

/-- A sign-in that gets further, or is over because it threw. -/
def World.advance (w : World Hash) (i : ℕ) (next : Except ApiError (Login Hash)) : World Hash :=
  match next with
  | .ok l => { w with logins := w.logins.set i l }
  | .error _ => { w with logins := w.logins.eraseIdx i }

def World.enter (w : World Hash) (next : Except ApiError (Login Hash)) : World Hash :=
  match next with
  | .ok l => { w with logins := w.logins ++ [l] }
  | .error _ => w

/-- A transaction that throws changes nothing. -/
def World.orElse (w : World Hash) (next : Except ApiError (World Hash)) : World Hash :=
  match next with
  | .ok w' => w'
  | .error _ => w

/-- What an event does; one that cannot happen now does nothing. -/
def World.step (w : World Hash) : Event Hash → World Hash
  | .login dto => w.enter (w.readDevice dto)
  | .matchPin i =>
      match w.logins[i]? with
      | some (.deviceRead dto active) => w.advance i (w.matchPin argon2Verify dto active)
      | _ => w
  | .chooseOutlet i now =>
      match w.logins[i]? with
      | some (.pinMatched entry staff active) =>
          match w.chooseOutlet now entry staff active with
          | .ok (.inl l) => w.advance i (.ok l)
          | .ok (.inr x) => { w with logins := w.logins.eraseIdx i, pending := x :: w.pending }
          | .error e => w.advance i (.error e)
      | _ => w
  | .finalize i now jti =>
      match w.logins[i]? with
      | some (.outletChosen entry staff outlet deviceId) =>
          { w with
            logins := w.logins.eraseIdx i
            signed := signPosToken now jti entry staff outlet deviceId :: w.signed }
      | _ => w
  | .selectOutlet x outletId now => w.enter (w.selectOutlet now x outletId)
  | .request _ _ => w
  | .logout r now =>
      match w.canActivate now r, r.token with
      | .ok (some staff), some token => w.logout staff token
      | _, _ => w
  | .issuePin tenantId staffId pinHash => w.orElse (w.issuePin tenantId staffId pinHash)
  | .revokePin tenantId staffId now => w.orElse (w.revokePin tenantId staffId now)
  | .updateStaff tenantId staffId dto => w.orElse (w.updateStaff tenantId staffId dto)
  | .revokeDevice owner deviceId now => w.orElse (w.revokeDevice owner deviceId now)
  | .configure tenants roles outlets => { w with tenants, roles, outlets }
  | .enrolDevice device => { w with devices := w.devices ++ [device] }

end Steps

end RestiqBackend.SignIn
