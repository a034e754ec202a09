import RestiqBackend.ReadCommitted.PartialIndex
import RestiqBackend.ReadCommitted.Rely
import RestiqBackend.Tenants

/-!
The tables of a restaurant: the sessions of their guests and the orders on them
(`src/guest/sessions/sessions.service.ts`, `src/pos/orders/orders.service.ts`,
`src/guest/orders/orders.service.ts`, `src/platform/live-window.ts`,
`src/platform/guest-auth.guard.ts`).

Everything is of one tenant. A table has one open session and one order that is not closed: two
partial unique indexes see to that, and the programs look before they write only to refuse more
kindly. What an order has on it and what its bill allows is not here; where a request depends on
them the answer is an argument. Two things that no column keeps are kept beside the rows: the PIN a
guest was let in for, and the tokens that were signed.
-/

namespace RestiqBackend.GuestTables

open ReadCommitted

/-! ### Rows -/

inductive SessionStatus
  | open
  | settled
  | closed
  deriving DecidableEq

/-- An outlet, with the two capabilities that are asked for here. -/
structure Outlet where
  id : ℕ
  deleted : Bool
  qrOrdering : Bool
  kiosk : Bool
  deriving DecidableEq

/-- A table, with the outlet of its floor. -/
structure DiningTable where
  id : ℕ
  outletId : ℕ
  label : String
  deriving DecidableEq

structure Device where
  id : ℕ
  outletId : ℕ
  label : String
  isKiosk : Bool
  isActive : Bool
  deriving DecidableEq

structure TableSession where
  id : ℕ
  outletId : ℕ
  tableId : Option ℕ
  status : SessionStatus
  sessionPin : ℕ
  startedByGuestName : String
  startedByGuestPhone : String
  createdAt : ℤ
  closedAt : Option ℤ
  expiresAt : ℤ
  deriving DecidableEq

structure Guest where
  id : ℕ
  sessionId : ℕ
  name : String
  phone : Option String
  joinedAt : ℤ
  /-- The PIN that was asked of it, if one was. -/
  shown : Option ℕ
  deriving DecidableEq

structure CartLine where
  id : ℕ
  sessionId : ℕ
  guestId : ℕ
  createdAt : ℤ
  deriving DecidableEq

structure Order where
  id : ℕ
  outletId : ℕ
  tableId : Option ℕ
  ownerId : Option ℕ
  status : OrderStatus
  sessionId : Option ℕ
  createdAt : ℤ
  deriving DecidableEq

/-- What a guest's token says. -/
structure GuestPrincipal where
  id : ℕ
  sessionId : ℕ
  outletId : ℕ
  tableId : Option ℕ
  name : String
  deriving DecidableEq

/-- A request of a guest, as it comes to the guard. -/
structure GuestRequest where
  guest : GuestPrincipal
  /-- The four hours of the token have passed. -/
  expired : Bool
  /-- It was sent to the address of another restaurant. -/
  misaddressed : Bool
  deriving DecidableEq

structure Store where
  tenantActive : Bool
  outlets : List Outlet
  tables : List DiningTable
  devices : List Device
  staff : List ℕ
  sessions : List TableSession
  guests : List Guest
  cartLines : List CartLine
  orders : List Order
  /-- The tokens that were signed, which no column keeps. -/
  tokens : List GuestPrincipal

inductive Key
  | session (id : ℕ)
  | openSession (tableId : ℕ)
  | order (id : ℕ)
  | activeOrder (tableId : ℕ)
  deriving DecidableEq

inductive Write
  | createSession (session : TableSession)
  | endSession (id : ℕ) (settled : Bool) (closedAt : ℤ)
  | createGuest (guest : Guest)
  | createCartLine (line : CartLine)
  | deleteCartLine (id : ℕ)
  | deleteCartLines (sessionId : ℕ)
  | createOrder (order : Order)
  | updateOrderStatus (id : ℕ) (status : OrderStatus)
  | updateOrderOwner (id ownerId : ℕ)
  | detachTable (id : ℕ)
  | deleteOrder (id : ℕ)
  | createAuditEvent (action : String)
  | updateOutlet (outlet : Outlet)
  | setTenantActive (active : Bool)
  | signGuestToken (guest : GuestPrincipal)

inductive Failure
  | http (status : ℕ) (code message : String)
  | database
  deriving DecidableEq

abbrev Tx := Txn Store Key Empty Write Failure

abbrev TxFootprint := Footprint Key Empty Write

def TableSession.ended (settled : Bool) (closedAt : ℤ) (x : TableSession) : TableSession :=
  { x with status := if settled then .settled else .closed, closedAt := some closedAt }

def Store.apply (s : Store) : Write → Store
  | .createSession session => { s with sessions := s.sessions ++ [session] }
  | .endSession id settled closedAt =>
      { s with
        sessions := s.sessions.map fun x => if x.id = id then x.ended settled closedAt else x }
  | .createGuest guest => { s with guests := s.guests ++ [guest] }
  | .createCartLine line => { s with cartLines := s.cartLines ++ [line] }
  | .deleteCartLine id => { s with cartLines := s.cartLines.filter (·.id ≠ id) }
  | .deleteCartLines sessionId =>
      { s with cartLines := s.cartLines.filter (·.sessionId ≠ sessionId) }
  | .createOrder order => { s with orders := s.orders ++ [order] }
  | .updateOrderStatus id status =>
      { s with orders := s.orders.map fun o => if o.id = id then { o with status } else o }
  | .updateOrderOwner id ownerId =>
      { s with
        orders := s.orders.map fun o =>
          if o.id = id then { o with ownerId := some ownerId } else o }
  | .detachTable id =>
      { s with orders := s.orders.map fun o => if o.id = id then { o with tableId := none } else o }
  | .deleteOrder id => { s with orders := s.orders.filter (·.id ≠ id) }
  | .createAuditEvent _ => s
  | .updateOutlet outlet =>
      { s with outlets := s.outlets.map fun o => if o.id = outlet.id then outlet else o }
  | .setTenantActive active => { s with tenantActive := active }
  | .signGuestToken guest => { s with tokens := s.tokens ++ [guest] }

instance : WriteTo Write Store := ⟨fun w s => s.apply w⟩

@[simp] theorem writeTo_apply (w : Write) (s : Store) : WriteTo.apply w s = s.apply w := rfl

def raise {α : Type} (status : ℕ) (code message : String) : Tx α :=
  Txn.throw (.http status code message)

def raiseIf (c : Prop) [Decidable c] (status : ℕ) (code message : String) : Tx Unit :=
  Txn.throwIf c (.http status code message)

/-- The row that was asked for, or an error. -/
def orThrow {α : Type} (e : Failure) : Option α → Tx α
  | some a => .done a
  | none => .fail e

/-- The answer of a check that is made elsewhere. -/
def refuse : Option Failure → Tx Unit
  | some e => .fail e
  | none => .done ()

/-- A write that the database refuses unless the rows allow it. -/
def guarded (allowed : Store → Bool) (keys : List Key) (writes : List Write) (e : Failure) :
    Tx Unit := do
  let changed ← Txn.writeWhen allowed keys writes
  Txn.throwIf (changed = false) e

/-! ### Looking up -/

def noSuchTable : Failure := .http 404 "not_found" "No such outlet or table"

def unavailableMessage : String :=
  "QR ordering is not available for this table right now - please ask a staff member for help"

def tableBusyMessage : String :=
  "This table already has an order with our staff - please ask your server to add to it"

def alreadyOpen : Failure :=
  .http 409 "session_already_open"
    "This table already has an open session - join it with its PIN instead"

def findOutlet (outletId : ℕ) : Tx (Option Outlet) :=
  Txn.query fun v => v.outlets.find? (·.id = outletId)

def findTable (outletId tableId : ℕ) : Tx (Option DiningTable) :=
  Txn.query fun v => (v.tables.find? (·.id = tableId)).filter (·.outletId = outletId)

def resolveOutletAndTable (outletId tableId : ℕ) : Tx DiningTable := do
  let outlet ← findOutlet outletId
  let _ ← orThrow noSuchTable (outlet.filter (!·.deleted))
  let table ← findTable outletId tableId
  orThrow noSuchTable table

def Store.hasCapability (v : Store) (capability : Outlet → Bool) (outletId : ℕ) : Bool :=
  v.outlets.any fun o => o.id = outletId && capability o

def assertQrOrderingEnabled (outletId : ℕ) : Tx Unit := do
  let enabled ← Txn.query fun v => v.hasCapability (·.qrOrdering) outletId
  raiseIf (enabled = false) 403 "qr_ordering_disabled" unavailableMessage

/-- Four digits. -/
def generatePin : Tx ℕ := .stmt (fun env _ => { ret := env.uuid % 10000 }) .done

def sessionIdleTtl : ℤ := 4 * 60 * 60 * 1000

def abandonedAfter : ℤ := 30 * 60 * 1000

def liveWindow : ℤ := 12 * 60 * 60 * 1000

def TableSession.isInactive (session : TableSession) (now : ℤ) : Bool :=
  session.status ≠ .open || decide (session.expiresAt ≤ now)

/-- Nobody has ordered from the session, and nobody has touched it for a while. -/
def isAbandoned (session : TableSession) : Tx Bool := do
  let orders ← Txn.query fun v => (v.orders.filter (·.sessionId = some session.id)).length
  let lastGuest ← Txn.query fun v =>
    ((v.guests.filter (·.sessionId = session.id)).map (·.joinedAt)).max?
  let lastLine ← Txn.query fun v =>
    ((v.cartLines.filter (·.sessionId = session.id)).map (·.createdAt)).max?
  if 0 < orders then pure false
  else do
    let now ← Txn.clock
    let lastActivity := max (max session.createdAt (lastGuest.getD 0)) (lastLine.getD 0)
    pure (decide (abandonedAfter < now - lastActivity))

def Order.isActiveAt (o : Order) (tableId : ℕ) : Bool :=
  o.tableId = some tableId && o.status ≠ .closed

def TableSession.isOpenAt (x : TableSession) (tableId : ℕ) : Bool :=
  x.tableId = some tableId && x.status = .open

/-- Whether the order of a table is one that its guests cannot add to. -/
def isForeign (tableId : ℕ) : Option Order → Tx Bool
  | none => pure false
  | some live =>
      match live.sessionId with
      | none => pure true
      | some sessionId => do
          let session ← Txn.query fun v => v.sessions.find? (·.id = sessionId)
          let now ← Txn.clock
          pure (session.all fun x => x.tableId ≠ some tableId || x.isInactive now)

def isTableBusy (tableId : ℕ) : Tx Bool := do
  let now ← Txn.clock
  let live ← Txn.query fun v => v.orders.find? fun o =>
    o.isActiveAt tableId && decide (now - liveWindow ≤ o.createdAt)
  isForeign tableId live

/-! ### Sessions -/

structure TableSessionView where
  session : TableSession
  table : Option DiningTable
  guests : List Guest
  deriving DecidableEq

/-- What a guest is let in with. -/
structure Entered where
  principal : GuestPrincipal
  view : TableSessionView

def Store.takesSession (v : Store) (session : TableSession) : Bool :=
  v.sessions.all fun x => x.id ≠ session.id && !session.tableId.any fun t => x.isOpenAt t

def createSession (session : TableSession) (e : Failure) : Tx Unit :=
  guarded (·.takesSession session)
    (.session session.id :: session.tableId.toList.map .openSession) [.createSession session] e

def endSession (id : ℕ) (settled : Bool) : Tx Unit := do
  let closedAt ← Txn.clock
  Txn.exec (fun _ => []) fun _ => [.endSession id settled closedAt]

def createGuest (sessionId : ℕ) (name : String) (phone : Option String) (shown : Option ℕ) :
    Tx Guest := do
  let id ← Txn.uuid
  let joinedAt ← Txn.clock
  let guest : Guest := ⟨id, sessionId, name, phone, joinedAt, shown⟩
  guarded (fun v => v.sessions.any (·.id = sessionId)) [] [.createGuest guest] .database
  pure guest

/-- A new open session, of a table or of a kiosk. -/
def openSession (outletId : ℕ) (tableId : Option ℕ) (name phone : String) (e : Failure) :
    Tx TableSession := do
  let pin ← generatePin
  let id ← Txn.uuid
  let now ← Txn.clock
  let createdAt ← Txn.clock
  let session : TableSession :=
    ⟨id, outletId, tableId, .open, pin, name, phone, createdAt, none, now + sessionIdleTtl⟩
  createSession session e
  pure session

def principal (session : TableSession) (guest : Guest) : GuestPrincipal :=
  ⟨guest.id, session.id, session.outletId, session.tableId, guest.name⟩

def signGuestToken (session : TableSession) (guest : Guest) : Tx GuestPrincipal := do
  Txn.exec (fun _ => []) fun _ => [.signGuestToken (principal session guest)]
  pure (principal session guest)

/-- Whether the next guests need not mind the session. -/
def isOver (existing : TableSession) : Tx Bool := do
  let now ← Txn.clock
  if existing.isInactive now then pure true else isAbandoned existing

/-- A session that has run out or was abandoned makes room for the next. -/
def endExisting : Option TableSession → Tx Unit
  | none => pure ()
  | some existing => do
      let isOver ← isOver existing
      Txn.throwIf (isOver = false) alreadyOpen
      endSession existing.id false

structure StartSessionDto where
  outletId : ℕ
  tableId : ℕ
  name : String
  phone : String

def startSession (dto : StartSessionDto) : Tx Entered := do
  let table ← resolveOutletAndTable dto.outletId dto.tableId
  assertQrOrderingEnabled dto.outletId
  let existing ← Txn.query fun v => v.sessions.find? (·.isOpenAt dto.tableId)
  endExisting existing
  let busy ← isTableBusy dto.tableId
  raiseIf (busy = true) 409 "table_has_active_order" tableBusyMessage
  let session ← openSession dto.outletId (some dto.tableId) dto.name dto.phone alreadyOpen
  let guest ← createGuest session.id dto.name (some dto.phone) none
  let token ← signGuestToken session guest
  pure ⟨token, session, some table, [guest]⟩

def noSuchKiosk : Failure := .http 404 "not_found" "No such outlet or kiosk"

/-- A session without a table, for an enrolled kiosk of the outlet. -/
def startKioskSession (outletId deviceId : ℕ) : Tx Entered := do
  let outlet ← findOutlet outletId
  let _ ← orThrow noSuchKiosk (outlet.filter (!·.deleted))
  let active ← Txn.query (·.tenantActive)
  Txn.throwIf (active = false) noSuchKiosk
  let device ← Txn.query fun v => v.devices.find? fun d =>
    d.id = deviceId && d.outletId = outletId && d.isKiosk && d.isActive
  let device ← orThrow noSuchKiosk device
  let enabled ← Txn.query fun v => v.hasCapability (·.kiosk) outletId
  raiseIf (enabled = false) 403 "kiosk_disabled"
    "Kiosk ordering is not available at this outlet right now - please order at the counter"
  let session ← openSession outletId none "Kiosk" "" .database
  let guest ← createGuest session.id device.label none none
  let token ← signGuestToken session guest
  pure ⟨token, session, none, [guest]⟩

def Store.guestsOf (v : Store) (sessionId : ℕ) : List Guest :=
  (v.guests.filter (·.sessionId = sessionId)).mergeSort (·.joinedAt ≤ ·.joinedAt)

structure JoinSessionDto where
  outletId : ℕ
  tableId : ℕ
  name : String
  pin : ℕ

/-- Joining with the PIN; what the attempt limiter says is an argument. -/
def joinSession (dto : JoinSessionDto) (lockedOut : Option Failure) : Tx Entered := do
  let table ← resolveOutletAndTable dto.outletId dto.tableId
  assertQrOrderingEnabled dto.outletId
  let session ← Txn.query fun v => v.sessions.find? (·.isOpenAt dto.tableId)
  let now ← Txn.clock
  let session ← orThrow (.http 404 "no_open_session"
    "This table has no open session to join - start one instead")
    (session.filter fun x => !x.isInactive now)
  refuse lockedOut
  raiseIf (session.sessionPin ≠ dto.pin) 403 "invalid_pin" "Incorrect PIN"
  let guest ← createGuest session.id dto.name none (some dto.pin)
  let guests ← Txn.query (·.guestsOf session.id)
  let token ← signGuestToken session guest
  pure ⟨token, session, some table, guests⟩

def unauthorized : Failure := .http 401 "unauthorized" "A valid guest session is required"

def tenantInactive : Failure := .http 403 "tenant_inactive" "This tenant is no longer active"

def tenantMismatch : Failure :=
  .http 403 "tenant_mismatch" "This session belongs to a different restaurant"

/-- The guard of the guests' requests: nobody but the server can sign a token. -/
def canActivate (request : GuestRequest) : Tx Unit := do
  let signed ← Txn.query fun v => v.tokens.contains request.guest
  Txn.throwIf (signed = false ∨ request.expired = true) unauthorized
  let active ← Txn.query (·.tenantActive)
  Txn.throwIf (active = false) tenantInactive
  Txn.throwIf (request.misaddressed = true) tenantMismatch

def noSuchSession : Failure := .http 404 "not_found" "No such session"

def sessionClosed : Failure := .http 410 "session_closed" "This table session has ended"

def loadActiveSession (guest : GuestPrincipal) : Tx TableSession := do
  let session ← Txn.query fun v => v.sessions.find? (·.id = guest.sessionId)
  let session ← orThrow noSuchSession session
  let now ← Txn.clock
  Txn.throwIf (session.isInactive now = true) sessionClosed
  pure session

def getCurrentSession (guest : GuestPrincipal) : Tx TableSessionView := do
  let session ← loadActiveSession guest
  let table ← Txn.query fun v => v.tables.find? fun t => session.tableId = some t.id
  Txn.throwIf (session.tableId.isSome = true ∧ table = none) (.http 404 "not_found" "No such table")
  let guests ← Txn.query (·.guestsOf session.id)
  pure ⟨session, table, guests⟩

def noSuchTableHere : Failure := .http 404 "not_found" "No such table for this outlet"

def closeSessionForStaff (outletId tableId : ℕ) : Tx Unit := do
  let table ← findTable outletId tableId
  let _ ← orThrow noSuchTableHere table
  let session ← Txn.query fun v => v.sessions.find? (·.isOpenAt tableId)
  let session ← orThrow
    (.http 404 "no_open_session" "This table has no open session to close") session
  endSession session.id false

/-! ### Carts -/

/-- A line for the cart; what the menu says of the item, its variant and its modifiers is an
argument. -/
def addCartLine (guest : GuestPrincipal) (refused : Option Failure) : Tx Unit := do
  let session ← loadActiveSession guest
  refuse refused
  let id ← Txn.uuid
  let createdAt ← Txn.clock
  Txn.exec (fun _ => []) fun _ => [.createCartLine ⟨id, session.id, guest.id, createdAt⟩]

/-- Only a line by itself can be removed; whether it is part of a combo is an argument. -/
def removeCartLine (guest : GuestPrincipal) (lineId : ℕ) (refused : Option Failure) :
    Tx Unit := do
  let session ← loadActiveSession guest
  let line ← Txn.query fun v => v.cartLines.find? (·.id = lineId)
  let line ← orThrow (.http 404 "not_found" "No such cart line")
    (line.filter (·.sessionId = session.id))
  raiseIf (line.guestId ≠ guest.id) 403 "forbidden"
    "Only the guest who added this line may change it"
  refuse refused
  Txn.exec (fun _ => []) fun _ => [.deleteCartLine lineId]

/-! ### Orders -/

def Store.takesOrder (v : Store) (order : Order) : Bool :=
  v.orders.all fun o => o.id ≠ order.id && !order.tableId.any fun t => o.isActiveAt t

def orderKeys (order : Order) : List Key :=
  .order order.id :: order.tableId.toList.map .activeOrder

def createOrder (order : Order) : Tx Unit :=
  guarded (·.takesOrder order) (orderKeys order) [.createOrder order] .database

/-- Whether the index of the tables lets the order have the status. -/
def Store.takesStatus (v : Store) (id : ℕ) (status : OrderStatus) : Bool :=
  v.orders.any (·.id = id) && (status = .closed || v.orders.all fun o => o.id ≠ id ||
    v.orders.all fun o' => o'.id = id || !o.tableId.any fun t => o'.isActiveAt t)

/-- The keys of a change of the status: the row, and where the order comes to count, its table. -/
def Store.statusKeys (v : Store) (id : ℕ) (status : OrderStatus) : List Key :=
  .order id :: if status = .closed then []
    else (v.orders.filter (·.id = id)).filterMap fun o => o.tableId.map .activeOrder

def updateOrderStatus (id : ℕ) (status : OrderStatus) : Tx Unit :=
  .stmt (fun _ v =>
    if v.takesStatus id status then
      { locks := v.statusKeys id status, writes := [.updateOrderStatus id status], ret := true }
    else { ret := false }) fun changed => Txn.throwIf (changed = false) .database

def detachOrder : Option Order → Tx Unit
  | none => pure ()
  | some stale => do
      Txn.exec (fun _ => [.order stale.id]) fun _ => [.detachTable stale.id]
      Txn.exec (fun _ => []) fun _ => [.createAuditEvent "order.detached_stale_table"]

/-- An order left on the table from before the live window is moved off it. -/
def detachStaleTableOrder (tableId : ℕ) : Tx Unit := do
  let now ← Txn.clock
  let stale ← Txn.query fun v => v.orders.find? fun o =>
    o.isActiveAt tableId && decide (o.createdAt < now - liveWindow)
  detachOrder stale

/-- The order of the table, or a new one; whoever loses the race for it reads the winner's. -/
def claim (staffId outletId tableId : ℕ) : Option Order → Tx Order
  | some existing => pure existing
  | none => do
      let id ← Txn.uuid
      let createdAt ← Txn.clock
      let order : Order := ⟨id, outletId, some tableId, some staffId, .open, none, createdAt⟩
      let created ← Txn.writeWhen (·.takesOrder order) (orderKeys order) [.createOrder order]
      if created then pure order
      else do
        let raced ← Txn.query fun v => v.orders.find? (·.isActiveAt tableId)
        orThrow .database raced

def openOrClaimTable (staffId outletId tableId : ℕ) : Tx Order := do
  let table ← findTable outletId tableId
  let _ ← orThrow noSuchTableHere table
  detachStaleTableOrder tableId
  let existing ← Txn.query fun v => v.orders.find? (·.isActiveAt tableId)
  claim staffId outletId tableId existing

def noSuchOutlet : Failure := .http 404 "not_found" "No such outlet"

def createCounterOrder (staffId outletId : ℕ) : Tx Unit := do
  let outlet ← findOutlet outletId
  let _ ← orThrow noSuchOutlet outlet
  let id ← Txn.uuid
  let createdAt ← Txn.clock
  createOrder ⟨id, outletId, none, some staffId, .open, none, createdAt⟩

/-- A table takes one live order. -/
def clearTable : Option ℕ → Tx Unit
  | none => pure ()
  | some tableId => do
      detachStaleTableOrder tableId
      let live ← Txn.query fun v => v.orders.find? (·.isActiveAt tableId)
      raiseIf (live.isSome = true) 409 "table_has_active_order"
        "This table already has an order in progress - ask your server to add to it"

/-- The cart becomes an order; whether its items have prices and its combos are still to be had is
an argument. -/
def placeOrder (guest : GuestPrincipal) (refused : Option Failure) : Tx Unit := do
  let session ← loadActiveSession guest
  let cartLines ← Txn.query fun v => v.cartLines.filter (·.sessionId = session.id)
  raiseIf (cartLines = []) 400 "empty_cart"
    "Add at least one item to the cart before placing the order"
  clearTable session.tableId
  let id ← Txn.uuid
  let createdAt ← Txn.clock
  createOrder ⟨id, guest.outletId, session.tableId, none, .open, some session.id, createdAt⟩
  refuse refused
  updateOrderStatus id .sent
  Txn.exec (fun _ => []) fun _ => [.deleteCartLines session.id]

def loadOrder (orderId : ℕ) : Tx Order := do
  let order ← Txn.query fun v => v.orders.find? (·.id = orderId)
  orThrow (.http 404 "not_found" "No such order") order

def assertOwner (order : Order) (staffId : ℕ) (ownerName : String) : Tx Unit :=
  raiseIf (order.ownerId.any (· ≠ staffId) = true) 403 "not_owner"
    (s!"This order belongs to {ownerName}. Take it over first to make changes.")

/-- Sending an order, or what was added since; whether a line still waits is an argument. -/
def updateStatus (staffId orderId : ℕ) (ownerName : String) (status : OrderStatus)
    (waiting : Bool) : Tx Unit := do
  let order ← loadOrder orderId
  assertOwner order staffId ownerName
  if order.status = .sent ∧ status = .sent then
    raiseIf (waiting = false) 409 "invalid_transition"
      "Everything on this order is already with the kitchen"
  else do
    raiseIf (status ∉ forwardTransitions order.status) 409 "invalid_transition"
      ("Cannot move an order from \"" ++ order.status.text ++ "\" to \"" ++ status.text ++ "\"")
    updateOrderStatus orderId status

def transfer (orderId newOwnerStaffId : ℕ) : Tx Unit := do
  let order ← loadOrder orderId
  raiseIf (order.status = .closed) 409 "conflict"
    "This order is closed and has no owner to transfer"
  let known ← Txn.query fun v => v.staff.contains newOwnerStaffId
  raiseIf (known = false) 400 "validation_failed" "No such staff member for this tenant"
  Txn.exec (fun _ => [.order orderId]) fun _ => [.updateOrderOwner orderId newOwnerStaffId]

/-- An order that never had a line goes; one whose lines were all voided is only closed. -/
def removeOrder (orderId : ℕ) : Bool → Tx Unit
  | true => updateOrderStatus orderId .closed
  | false => Txn.exec (fun _ => [.order orderId]) fun _ => [.deleteOrder orderId]

/-- Throwing away an order with nothing on it; what its lines and its bill say is an argument. -/
def discard (staffId orderId : ℕ) (ownerName : String) (refused : Option Failure)
    (hadLines : Bool) : Tx Unit := do
  let order ← loadOrder orderId
  assertOwner order staffId ownerName
  raiseIf (order.status = .closed) 409 "conflict" "This order is already closed"
  refuse refused
  removeOrder orderId hadLines
  Txn.exec (fun _ => []) fun _ => [.createAuditEvent "order.discarded"]

/-- What the end of a bill does to its order; what the bill and its tenders say is an argument. -/
def commitFinalize (order : Order) (refused : Option Failure) : Tx Unit := do
  refuse refused
  updateOrderStatus order.id .closed

/-- The end of a settled bill, by staff. -/
def finalize (orderId : ℕ) (refused : Option Failure) : Tx Unit := do
  let order ← loadOrder orderId
  commitFinalize order refused

def settleSession : Option ℕ → Tx Unit
  | none => pure ()
  | some sessionId => endSession sessionId true

/-- The end of a bill that its guests paid: their session is settled with it. -/
def completeBill (orderId : ℕ) (refused : Option Failure) : Tx Unit := do
  let order ← loadOrder orderId
  commitFinalize order refused
  settleSession order.sessionId

/-! ### Requests -/

inductive Request
  | startSession (dto : StartSessionDto)
  | startKioskSession (outletId deviceId : ℕ)
  | joinSession (dto : JoinSessionDto) (lockedOut : Option Failure)
  | closeSessionForStaff (outletId tableId : ℕ)
  | addCartLine (request : GuestRequest) (refused : Option Failure)
  | removeCartLine (request : GuestRequest) (lineId : ℕ) (refused : Option Failure)
  | openOrClaimTable (staffId outletId tableId : ℕ)
  | createCounterOrder (staffId outletId : ℕ)
  | placeOrder (request : GuestRequest) (refused : Option Failure)
  | updateStatus (staffId orderId : ℕ) (ownerName : String) (status : OrderStatus) (waiting : Bool)
  | transfer (orderId newOwnerStaffId : ℕ)
  | discard (staffId orderId : ℕ) (ownerName : String) (refused : Option Failure) (hadLines : Bool)
  | finalize (orderId : ℕ) (refused : Option Failure)
  | completeBill (orderId : ℕ) (refused : Option Failure)
  | updateOutlet (outlet : Outlet)
  | setTenantActive (active : Bool)

def Request.prog : Request → Tx Unit
  | .startSession dto => (GuestTables.startSession dto).void
  | .startKioskSession outletId deviceId => (GuestTables.startKioskSession outletId deviceId).void
  | .joinSession dto lockedOut => (GuestTables.joinSession dto lockedOut).void
  | .closeSessionForStaff outletId tableId => GuestTables.closeSessionForStaff outletId tableId
  | .addCartLine request refused => do
      canActivate request
      GuestTables.addCartLine request.guest refused
  | .removeCartLine request lineId refused => do
      canActivate request
      GuestTables.removeCartLine request.guest lineId refused
  | .openOrClaimTable staffId outletId tableId =>
      (GuestTables.openOrClaimTable staffId outletId tableId).void
  | .createCounterOrder staffId outletId => GuestTables.createCounterOrder staffId outletId
  | .placeOrder request refused => do
      canActivate request
      GuestTables.placeOrder request.guest refused
  | .updateStatus staffId orderId ownerName status waiting =>
      GuestTables.updateStatus staffId orderId ownerName status waiting
  | .transfer orderId newOwnerStaffId => GuestTables.transfer orderId newOwnerStaffId
  | .discard staffId orderId ownerName refused hadLines =>
      GuestTables.discard staffId orderId ownerName refused hadLines
  | .finalize orderId refused => GuestTables.finalize orderId refused
  | .completeBill orderId refused => GuestTables.completeBill orderId refused
  | .updateOutlet outlet => Txn.exec (fun _ => []) fun _ => [.updateOutlet outlet]
  | .setTenantActive active => Txn.exec (fun _ => []) fun _ => [.setTenantActive active]

def IsRequest (p : Tx Unit) : Prop := ∃ r : Request, p = r.prog

end RestiqBackend.GuestTables
