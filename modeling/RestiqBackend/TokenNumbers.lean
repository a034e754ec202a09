import RestiqBackend.ReadCommitted.Rely
import RestiqBackend.Store

/-!
The token numbers of an outlet (`src/platform/token-number.ts`).

An order that no table identifies is called by a number. `reserveTokenNumber` draws it in one
upsert, from the outlet's counter and from the highest number that an order carries. The counter
row is the one the statement has waited for; what the subquery saw of the orders is as old as
the statement, so the two are read at different moments here.

Everything is of one outlet: its orders with the lines and bills that `discard` looks at, the
sessions and carts that `placeOrder` does. A ghost column keeps the numbers that were reserved, in
the order of the commits.
-/

namespace RestiqBackend.TokenNumbers

open ReadCommitted

/-! ### Rows -/

inductive OrderSource
  | pos
  | qr
  | kiosk
  deriving DecidableEq

structure Order where
  id : ℕ
  tableId : Option ℕ
  ownerId : Option ℕ
  status : OrderStatus
  source : OrderSource
  tokenNumber : Option ℕ
  sessionId : Option ℕ
  createdAt : ℤ
  deriving DecidableEq

structure OrderLine where
  orderId : ℕ
  voidedAt : Option ℤ
  deriving DecidableEq

/-- A bill with how many tenders, intents and shares refer to it. -/
structure Bill where
  id : ℕ
  orderId : ℕ
  status : BillStatus
  references : ℕ
  deriving DecidableEq

structure TableSession where
  id : ℕ
  tableId : Option ℕ
  isOpen : Bool
  expiresAt : ℤ
  deriving DecidableEq

/-- The lines of carts are only counted here: each becomes a line of the order. -/
structure CartLine where
  sessionId : ℕ
  deriving DecidableEq

structure Store where
  orders : List Order
  lines : List OrderLine
  bills : List Bill
  sessions : List TableSession
  cartLines : List CartLine
  /-- The counter row, which may not be there yet. -/
  lastNumber : Option ℕ
  /-- The numbers that were reserved, which no column keeps. -/
  reserved : List ℕ

inductive Key
  | counter
  | order (id : ℕ)
  | token (number : ℕ)
  | table (id : ℕ)
  | bill (id : ℕ)
  deriving DecidableEq

inductive Write
  | upsertCounter (number : ℕ)
  | createOrder (order : Order)
  | updateOrderStatus (id : ℕ) (status : OrderStatus)
  | detachTable (id : ℕ)
  | deleteOrder (id : ℕ)
  | createOrderLine (line : OrderLine)
  | deleteBill (id : ℕ)
  | deleteCartLines (sessionId : ℕ)
  | createAuditEvent (action : String)

inductive Failure
  | http (status : ℕ) (code message : String)
  | database
  deriving DecidableEq

abbrev Tx := Txn Store Key Empty Write Failure

abbrev TxFootprint := Footprint Key Empty Write

def updateOrder (id : ℕ) (f : Order → Order) (orders : List Order) : List Order :=
  orders.map fun o => if o.id = id then f o else o

def Store.apply (s : Store) : Write → Store
  | .upsertCounter number =>
      { s with lastNumber := some number, reserved := s.reserved ++ [number] }
  | .createOrder order => { s with orders := s.orders ++ [order] }
  | .updateOrderStatus id status =>
      { s with orders := updateOrder id (fun o => { o with status }) s.orders }
  | .detachTable id =>
      { s with orders := updateOrder id (fun o => { o with tableId := none }) s.orders }
  | .deleteOrder id => { s with orders := s.orders.filter (·.id ≠ id) }
  | .createOrderLine line => { s with lines := s.lines ++ [line] }
  | .deleteBill id => { s with bills := s.bills.filter (·.id ≠ id) }
  | .deleteCartLines sessionId => { s with cartLines := s.cartLines.filter (·.sessionId ≠ sessionId) }
  | .createAuditEvent _ => s

instance : WriteTo Write Store := ⟨fun w s => s.apply w⟩

def raise {α : Type} (status : ℕ) (code message : String) : Tx α :=
  Txn.throw (.http status code message)

def raiseIf (c : Prop) [Decidable c] (status : ℕ) (code message : String) : Tx Unit :=
  Txn.throwIf c (.http status code message)

/-- A write that the database refuses unless the rows allow it. -/
def guarded (allowed : Store → Bool) (keys : List Key) (writes : List Write) : Tx Unit := do
  let changed ← Txn.writeWhen allowed keys writes
  Txn.throwIf (changed = false) .database

/-! ### Reserving a number -/

/-- `SELECT COALESCE(MAX(token_number), 0) FROM orders`. -/
def Store.maxToken (v : Store) : ℕ := (v.orders.filterMap (·.tokenNumber)).foldl Nat.max 0

/-- One more than the highest number in use, or than the counter where that is ahead. -/
def nextNumber (inUse : ℕ) : Option ℕ → ℕ
  | none => 1 + inUse
  | some lastNumber => Nat.max lastNumber inUse + 1

def reserveTokenNumber : Tx ℕ := do
  let inUse ← Txn.query Store.maxToken
  .stmt (fun _ v =>
    { locks := [.counter], writes := [.upsertCounter (nextNumber inUse v.lastNumber)]
      ret := nextNumber inUse v.lastNumber }) .done

/-- Whether the two unique indexes of the table take the row: a number has one order, a table
one that is not closed. -/
def Store.takes (v : Store) (order : Order) : Bool :=
  v.orders.all fun o => !(o.tokenNumber.isSome && o.tokenNumber == order.tokenNumber) &&
    !(o.tableId.isSome && o.tableId == order.tableId && o.status != .closed)

def createOrder (order : Order) : Tx Unit :=
  guarded (·.takes order)
    (order.tokenNumber.toList.map .token ++ order.tableId.toList.map .table) [.createOrder order]

/-! ### The orders -/

/-- A new order of the counter, with the outlet's next number. -/
def createCounterOrder (staffId : ℕ) : Tx Unit := do
  let tokenNumber ← reserveTokenNumber
  let id ← Txn.uuid
  let now ← Txn.clock
  createOrder ⟨id, none, some staffId, .open, .pos, some tokenNumber, none, now⟩

def liveWindow : ℤ := 12 * 60 * 60 * 1000

def TableSession.isInactive (session : TableSession) (now : ℤ) : Bool :=
  !session.isOpen || decide (session.expiresAt ≤ now)

def loadActiveSession (sessionId : ℕ) : Tx TableSession := do
  let session ← Txn.query fun v => v.sessions.find? (·.id = sessionId)
  match session with
  | none => raise 404 "not_found" "No such session"
  | some session => do
      let now ← Txn.clock
      raiseIf (session.isInactive now = true) 410 "session_closed" "This table session has ended"
      pure session

def detachOrder : Option Order → Tx Unit
  | none => pure ()
  | some stale => do
      Txn.exec (fun _ => [.order stale.id]) fun _ => [.detachTable stale.id]
      Txn.exec (fun _ => []) fun _ => [.createAuditEvent "order.detached_stale_table"]

/-- An order left on the table from before the live window is moved off it. -/
def detachStaleTableOrder (tableId : ℕ) : Tx Unit := do
  let now ← Txn.clock
  let stale ← Txn.query fun v => v.orders.find? fun o =>
    o.tableId = some tableId && o.status != .closed && decide (o.createdAt < now - liveWindow)
  detachOrder stale

/-- A table takes one live order. -/
def clearTable (tableId : ℕ) : Tx Unit := do
  detachStaleTableOrder tableId
  let live ← Txn.query fun v => v.orders.any fun o =>
    o.tableId = some tableId && o.status != .closed
  raiseIf (live = true) 409 "table_has_active_order"
    "This table already has an order in progress - ask your server to add to it"

/-- What an order that is placed has of its own: a number where no table identifies it. -/
def identify : Option ℕ → Tx (Option ℕ)
  | none => do
      let tokenNumber ← reserveTokenNumber
      pure (some tokenNumber)
  | some tableId => do
      clearTable tableId
      pure none

/-- Placing what is in a session's cart, of a table or of a kiosk. -/
def placeOrder (sessionId : ℕ) : Tx Unit := do
  let session ← loadActiveSession sessionId
  let cartLines ← Txn.query fun v => v.cartLines.filter (·.sessionId = session.id)
  raiseIf (cartLines = []) 400 "empty_cart" "Add at least one item to the cart before placing the order"
  let tokenNumber ← identify session.tableId
  let id ← Txn.uuid
  let now ← Txn.clock
  createOrder ⟨id, session.tableId, none, .open, if session.tableId.isNone then .kiosk else .qr,
    tokenNumber, some session.id, now⟩
  Txn.forEach (fun _ => Txn.exec (fun _ => []) fun _ => [.createOrderLine ⟨id, none⟩]) cartLines
  Txn.exec (fun _ => [.order id]) fun _ => [.updateOrderStatus id .sent]
  Txn.exec (fun _ => []) fun _ => [.deleteCartLines session.id]

def loadOrder (orderId : ℕ) : Tx Order := do
  let order ← Txn.query fun v => v.orders.find? (·.id = orderId)
  match order with
  | none => raise 404 "not_found" "No such order"
  | some order => pure order

def discardBill : Option Bill → Tx Unit
  | none => pure ()
  | some bill => guarded (fun v => v.bills.any fun b => b.id = bill.id && b.references = 0)
      [.bill bill.id] [.deleteBill bill.id]

/-- An order that never had a line goes; one whose lines were all voided is only closed. -/
def removeOrder (orderId : ℕ) (lines : List OrderLine) : Tx Unit :=
  if lines = [] then
    guarded (fun v => v.lines.all (·.orderId ≠ orderId) && v.bills.all (·.orderId ≠ orderId))
      [.order orderId] [.deleteOrder orderId]
  else Txn.exec (fun _ => [.order orderId]) fun _ => [.updateOrderStatus orderId .closed]

/-- Throwing away an order that has nothing on it. -/
def discard (staffId orderId : ℕ) (ownerName : String) : Tx Unit := do
  let order ← loadOrder orderId
  raiseIf (order.ownerId.any (· ≠ staffId) = true) 403 "not_owner"
    (s!"This order belongs to {ownerName}. Take it over first to make changes.")
  raiseIf (order.status = .closed) 409 "conflict" "This order is already closed"
  let lines ← Txn.query fun v => v.lines.filter (·.orderId = orderId)
  raiseIf (lines.any (·.voidedAt.isNone) = true) 409 "order_not_empty"
    "Remove every item before discarding this order"
  let bill ← Txn.query fun v => v.bills.find? (·.orderId = orderId)
  raiseIf (bill.any (fun b => b.status ≠ .open || decide (0 < b.references)) = true) 409
    "has_payments" "A payment was already started on this order, so it cannot be discarded"
  discardBill bill
  removeOrder orderId lines
  Txn.exec (fun _ => []) fun _ => [.createAuditEvent "order.discarded"]

inductive Request
  | createCounterOrder (staffId : ℕ)
  | placeOrder (sessionId : ℕ)
  | discard (staffId orderId : ℕ) (ownerName : String)

def Request.prog : Request → Tx Unit
  | .createCounterOrder staffId => RestiqBackend.TokenNumbers.createCounterOrder staffId
  | .placeOrder sessionId => RestiqBackend.TokenNumbers.placeOrder sessionId
  | .discard staffId orderId ownerName => RestiqBackend.TokenNumbers.discard staffId orderId ownerName

/-! ### What is said of the numbers -/

/-- The same order, whatever became of it. -/
def Same (o o' : Order) : Prop :=
  o'.id = o.id ∧ o'.tokenNumber = o.tokenNumber ∧ o'.source = o.source

/-- Higher than the counter, than every number an order carries and than all that were
reserved. -/
structure Above (n : ℕ) (s : Store) : Prop where
  counter : ∀ c ∈ s.lastNumber, c < n
  orders : ∀ o ∈ s.orders, ∀ t ∈ o.tokenNumber, t < n
  reserved : ∀ t ∈ s.reserved, t < n

/-- What a commit does to the numbers: it reserves a new one or none, and an order it adds has
the number it reserved or was placed at a table. -/
structure Numbers (s s' : Store) (new : Option ℕ) : Prop where
  reserved : s'.reserved = s.reserved ++ new.toList
  above : ∀ n ∈ new, Above n s
  lastNumber : s'.lastNumber = new.or s.lastNumber
  orders : ∀ o ∈ s'.orders, (∃ o' ∈ s.orders, Same o' o) ∨
    (o.source = .qr ∧ o.tokenNumber = none) ∨ (new.isSome = true ∧ o.tokenNumber = new)

/-- What any number of commits does. -/
structure Later (s s' : Store) : Prop where
  reserved : ∃ ns, s'.reserved = s.reserved ++ ns ∧ ∀ n ∈ ns, ∀ c ∈ s.lastNumber, c < n
  lastNumber : ∀ c ∈ s.lastNumber, ∃ c' ∈ s'.lastNumber, c ≤ c'
  tokens : ∀ o ∈ s'.orders, ∀ t ∈ o.tokenNumber,
    (∃ o' ∈ s.orders, o'.tokenNumber = some t) ∨ t ∈ s'.reserved

/-- The numbers were reserved in increasing order, and the counter is at the last of them. -/
structure Ordered (s : Store) : Prop where
  increasing : s.reserved.Pairwise (· < ·)
  counted : ∀ t ∈ s.reserved, ∃ c ∈ s.lastNumber, t ≤ c

variable {s s' s'' : Store} {l : TxFootprint} {n : ℕ}

theorem Later.refl (s : Store) : Later s s where
  reserved := ⟨[], (List.append_nil _).symm, fun _ h => absurd h List.not_mem_nil⟩
  lastNumber c hc := ⟨c, hc, Nat.le_refl c⟩
  tokens o ho _ ht := .inl ⟨o, ho, ht⟩

theorem Later.trans (h : Later s s') (h' : Later s' s'') : Later s s'' := by
  obtain ⟨ns, hns, habove⟩ := h.reserved
  obtain ⟨ns', hns', habove'⟩ := h'.reserved
  refine ⟨⟨ns ++ ns', ?_, fun n hn c hc => ?_⟩, fun c hc => ?_, fun o ho t ht => ?_⟩
  · rw [hns', hns, List.append_assoc]
  · rcases List.mem_append.mp hn with hn | hn
    · exact habove n hn c hc
    · obtain ⟨c', hc', hle⟩ := h.lastNumber c hc
      exact Nat.lt_of_le_of_lt hle (habove' n hn c' hc')
  · obtain ⟨c', hc', hle⟩ := h.lastNumber c hc
    obtain ⟨c'', hc'', hle'⟩ := h'.lastNumber c' hc'
    exact ⟨c'', hc'', hle.trans hle'⟩
  · rcases h'.tokens o ho t ht with ⟨o', ho', ht'⟩ | hmem
    · rcases h.tokens o' ho' t ht' with hold | hmem
      · exact .inl hold
      · rw [hns']
        exact .inr (List.mem_append_left _ hmem)
    · exact .inr hmem

theorem Numbers.later {new : Option ℕ} (h : Numbers s s' new) : Later s s' where
  reserved := ⟨new.toList, h.reserved, fun n hn c hc =>
    (h.above n (Option.mem_toList.mp hn)).counter c hc⟩
  lastNumber c hc := by
    rw [h.lastNumber]
    cases hnew : new with
    | none => exact ⟨c, by simpa using hc, Nat.le_refl c⟩
    | some n => exact ⟨n, by simp, ((h.above n hnew).counter c hc).le⟩
  tokens o ho t ht := by
    rcases h.orders o ho with ⟨o', ho', -, htoken, -⟩ | ⟨-, hnone⟩ | ⟨-, hsome⟩
    · exact .inl ⟨o', ho', htoken ▸ ht⟩
    · rw [hnone] at ht
      cases ht
    · rw [h.reserved]
      refine .inr (List.mem_append_right _ (Option.mem_toList.mpr ?_))
      rw [← hsome]
      exact ht

theorem Numbers.ordered {new : Option ℕ} (h : Numbers s s' new) (hs : Ordered s) : Ordered s' := by
  cases hnew : new with
  | none =>
      subst hnew
      have hreserved : s'.reserved = s.reserved := by simpa using h.reserved
      have hlast : s'.lastNumber = s.lastNumber := by simpa using h.lastNumber
      exact ⟨hreserved ▸ hs.increasing, by rw [hreserved, hlast]; exact hs.counted⟩
  | some n =>
      subst hnew
      have habove := h.above n rfl
      have hreserved : s'.reserved = s.reserved ++ [n] := h.reserved
      have hlast : s'.lastNumber = some n := by simpa using h.lastNumber
      refine ⟨?_, fun t ht => ⟨n, hlast, ?_⟩⟩
      · rw [hreserved, List.pairwise_append]
        refine ⟨hs.increasing, List.pairwise_singleton _ _, fun t ht n' hn' => ?_⟩
        rw [List.mem_singleton.mp hn']
        exact habove.reserved t ht
      · rw [hreserved] at ht
        rcases List.mem_append.mp ht with ht | ht
        · exact (habove.reserved t ht).le
        · exact (List.mem_singleton.mp ht).le

/-- Under the counter's lock, the commits of others bring no number as high. -/
theorem Above.later (h : Above n s) (hlater : Later s s') (hlast : s'.lastNumber = s.lastNumber)
    (hreserved : s'.reserved = s.reserved) : Above n s' where
  counter c hc := h.counter c (hlast ▸ hc)
  orders o ho t ht := by
    rcases hlater.tokens o ho t ht with ⟨o', ho', ht'⟩ | hmem
    · exact h.orders o' ho' t ht'
    · exact h.reserved t (hreserved ▸ hmem)
  reserved t ht := h.reserved t (hreserved ▸ ht)

theorem le_foldl_max {ts : List ℕ} {t m : ℕ} (h : t ∈ ts ∨ t ≤ m) : t ≤ ts.foldl Nat.max m := by
  induction ts generalizing m with
  | nil => exact h.resolve_left List.not_mem_nil
  | cons t' ts ih =>
      refine ih ?_
      rcases h with hmem | hle
      · rcases List.mem_cons.mp hmem with rfl | hmem
        · exact .inr (Nat.le_max_right _ _)
        · exact .inl hmem
      · exact .inr (hle.trans (Nat.le_max_left _ _))

/-! ### The discipline -/

def discipline : Discipline Store Key Empty Write where
  inv := Ordered
  guar := Later
  keeps k s s' := match k with
    | .counter => s'.lastNumber = s.lastNumber ∧ s'.reserved = s.reserved
    | _ => True
  heeds _ _ _ := True
  admits _ _ _ := True
  lands _ _ := True
  ends l s := ∃ new, Numbers s (applyAll l.writes s) new
  guar_refl := .refl
  guar_trans _ _ _ := .trans
  keeps_refl k s := by cases k <;> simp
  keeps_trans k s s' s'' h h' := by
    cases k with
    | counter => exact ⟨h'.1.trans h.1, h'.2.trans h.2⟩
    | _ => trivial
  heeds_refl _ _ := trivial
  heeds_trans _ _ _ _ _ _ := trivial

/-- A write that reserves nothing, and adds no order but at a table. -/
def Write.quiet : Write → Bool
  | .upsertCounter _ => false
  | .createOrder order => order.source = .qr && order.tokenNumber.isNone
  | _ => true

def Quiet (l : TxFootprint) : Prop := ∀ w ∈ l.writes, w.quiet = true

def Reads (l : TxFootprint) : Prop := l = .empty

/-- Nothing done so far, and numbers in order. -/
def Begun (l : TxFootprint) (s : Store) : Prop := l = .empty ∧ Ordered s

/-- What the subquery saw bounds every number that is not reserved meanwhile. -/
def Seen (inUse : ℕ) (l : TxFootprint) (s : Store) : Prop :=
  Begun l s ∧ ∀ o ∈ s.orders, ∀ t ∈ o.tokenNumber, t ≤ inUse ∨ t ∈ s.reserved

/-- The counter is locked and the number is in it, and the writes after that are these. -/
def Drawn (n : ℕ) (ws : List Write) (l : TxFootprint) (s : Store) : Prop :=
  .counter ∈ l.locks ∧ l.writes = .upsertCounter n :: ws ∧ Above n s

/-- The order with the number is there, and nothing after it was about numbers. -/
def Numbered (n : ℕ) (l : TxFootprint) (s : Store) : Prop :=
  ∃ order ws, order.tokenNumber = some n ∧ (∀ w ∈ ws, w.quiet = true) ∧
    Drawn n (.createOrder order :: ws) l s

theorem begun_stable : discipline.Stable Begun :=
  fun _ _ _ hrely h => ⟨h.1, hrely.inv h.2⟩

theorem seen_stable (inUse : ℕ) : discipline.Stable (Seen inUse) := by
  intro l s s' hrely h
  have hlater : Later s s' := hrely.guar
  refine ⟨begun_stable l s s' hrely h.1, fun o ho t ht => ?_⟩
  obtain ⟨ns, hns, -⟩ := hlater.reserved
  rcases hlater.tokens o ho t ht with ⟨o', ho', ht'⟩ | hmem
  · rcases h.2 o' ho' t ht' with hle | hmem
    · exact .inl hle
    · rw [hns]
      exact .inr (List.mem_append_left _ hmem)
  · exact .inr hmem

theorem drawn_stable (n : ℕ) (ws : List Write) : discipline.Stable (Drawn n ws) := by
  intro l s s' hrely h
  have hkeeps : s'.lastNumber = s.lastNumber ∧ s'.reserved = s.reserved := hrely.keeps _ h.1
  exact ⟨h.1, h.2.1, h.2.2.later hrely.guar hkeeps.1 hkeeps.2⟩

theorem numbered_stable (n : ℕ) : discipline.Stable (Numbered n) :=
  .exists fun _ => .exists fun _ => (Discipline.Stable.const _).and
    ((Discipline.Stable.const _).and (drawn_stable n _))

theorem quiet_stable : discipline.Stable fun l _ => Quiet l := fun _ _ _ _ h => h

theorem Drawn.add {ws : List Write} (h : Drawn n ws l s) (l' : TxFootprint) :
    Drawn n (ws ++ l'.writes) (l.add l') s :=
  ⟨List.mem_append_left _ h.1, by rw [Footprint.add_writes, h.2.1, List.cons_append], h.2.2⟩

theorem Numbered.add (h : Numbered n l s) {l' : TxFootprint} (hl' : Quiet l') :
    Numbered n (l.add l') s := by
  obtain ⟨order, ws, htoken, hws, hdrawn⟩ := h
  refine ⟨order, ws ++ l'.writes, htoken, fun w hw => ?_, hdrawn.add l'⟩
  rcases List.mem_append.mp hw with hw | hw
  · exact hws w hw
  · exact hl' w hw

theorem Quiet.add {l' : TxFootprint} (h : Quiet l) (hl' : Quiet l') : Quiet (l.add l') := by
  intro w hw
  rcases List.mem_append.mp hw with hw | hw
  · exact h w hw
  · exact hl' w hw

/-! ### What quiet writes do -/

theorem Same.refl (o : Order) : Same o o := ⟨rfl, rfl, rfl⟩

theorem Same.trans {o o' o'' : Order} (h : Same o o') (h' : Same o' o'') : Same o o'' :=
  ⟨h'.1.trans h.1, h'.2.1.trans h.2.1, h'.2.2.trans h.2.2⟩

/-- Every order is an old one or satisfies `P`. -/
def OrdersFrom (P : Order → Prop) (s s' : Store) : Prop :=
  ∀ o ∈ s'.orders, (∃ o' ∈ s.orders, Same o' o) ∨ P o

theorem ordersFrom_update (P : Order → Prop) (id : ℕ) {f : Order → Order}
    (hf : ∀ o, Same o (f o)) {o : Order} (h : o ∈ updateOrder id f s.orders) :
    (∃ o' ∈ s.orders, Same o' o) ∨ P o := by
  obtain ⟨o', ho', rfl⟩ := List.mem_map.mp h
  refine .inl ⟨o', ho', ?_⟩
  split
  · exact hf o'
  · exact .refl o'

/-- An order at a table, which has no number. -/
def AtTable (o : Order) : Prop := o.source = .qr ∧ o.tokenNumber = none

theorem quiet_apply {w : Write} (hw : w.quiet = true) (s : Store) :
    (s.apply w).lastNumber = s.lastNumber ∧ (s.apply w).reserved = s.reserved ∧
      OrdersFrom AtTable s (s.apply w) := by
  cases w with
  | upsertCounter number => cases hw
  | createOrder order =>
      refine ⟨rfl, rfl, fun o ho => ?_⟩
      rcases List.mem_append.mp ho with ho | ho
      · exact .inl ⟨o, ho, .refl o⟩
      · rw [List.mem_singleton.mp ho]
        simp only [Write.quiet, Bool.and_eq_true, decide_eq_true_eq, Option.isNone_iff_eq_none] at hw
        exact .inr hw
  | updateOrderStatus id status =>
      exact ⟨rfl, rfl, fun o ho => ordersFrom_update AtTable id
        (f := fun o => { o with status }) (fun o => ⟨rfl, rfl, rfl⟩) ho⟩
  | detachTable id =>
      exact ⟨rfl, rfl, fun o ho => ordersFrom_update AtTable id
        (f := fun o => { o with tableId := none }) (fun o => ⟨rfl, rfl, rfl⟩) ho⟩
  | deleteOrder id =>
      exact ⟨rfl, rfl, fun o ho => .inl ⟨o, (List.mem_filter.mp ho).1, .refl o⟩⟩
  | _ => exact ⟨rfl, rfl, fun o ho => .inl ⟨o, ho, .refl o⟩⟩

theorem quiet_applyAll {ws : List Write} (hws : ∀ w ∈ ws, w.quiet = true) (s : Store) :
    (applyAll ws s).lastNumber = s.lastNumber ∧ (applyAll ws s).reserved = s.reserved ∧
      OrdersFrom AtTable s (applyAll ws s) := by
  induction ws generalizing s with
  | nil => exact ⟨rfl, rfl, fun o ho => .inl ⟨o, ho, .refl o⟩⟩
  | cons w ws ih =>
      obtain ⟨hlast, hreserved, horders⟩ := quiet_apply (hws w List.mem_cons_self) s
      obtain ⟨hlast', hreserved', horders'⟩ :=
        ih (fun w' hw' => hws w' (List.mem_cons_of_mem _ hw')) (s.apply w)
      refine ⟨hlast'.trans hlast, hreserved'.trans hreserved, fun o ho => ?_⟩
      rcases horders' o ho with ⟨o', ho', hsame⟩ | hat
      · rcases horders o' ho' with ⟨o'', ho'', hsame'⟩ | hat
        · exact .inl ⟨o'', ho'', hsame'.trans hsame⟩
        · exact .inr ⟨hsame.2.2.trans hat.1, hsame.2.1.trans hat.2⟩
      · exact .inr hat

/-- A commit that was about no number. -/
theorem quiet_commits (hs : Ordered s) (h : Quiet l) : discipline.Commits l s := by
  intro _
  obtain ⟨hlast, hreserved, horders⟩ := quiet_applyAll h s
  have hnumbers : Numbers s (applyAll l.writes s) none := by
    refine ⟨by simpa using hreserved, (fun _ hn => by cases hn), by simpa using hlast,
      fun o ho => ?_⟩
    exact (horders o ho).imp id .inl
  refine ⟨hnumbers.ordered hs, hnumbers.later, fun k _ => ?_, none, hnumbers⟩
  cases k with
  | counter => exact ⟨hlast, hreserved⟩
  | _ => trivial

/-- The commit of an order with a number. -/
theorem Numbered.commits (hs : Ordered s) (h : Numbered n l s) : discipline.Commits l s := by
  intro _
  obtain ⟨order, ws, htoken, hws, hlock, hwrites, habove⟩ := h
  obtain ⟨hlast, hreserved, horders⟩ :=
    quiet_applyAll hws ((s.apply (.upsertCounter n)).apply (.createOrder order))
  have heq : applyAll l.writes s =
      applyAll ws ((s.apply (.upsertCounter n)).apply (.createOrder order)) := by
    rw [hwrites]
    rfl
  have hnumbers : Numbers s (applyAll l.writes s) (some n) := by
    rw [heq]
    refine ⟨hreserved, fun n' hn' => ?_, hlast, fun o ho => ?_⟩
    · rw [← Option.mem_some_iff.mp hn']
      exact habove
    · rcases horders o ho with ⟨o', ho', hsame⟩ | hat
      · rcases List.mem_append.mp ho' with ho' | ho'
        · exact .inl ⟨o', ho', hsame⟩
        · rw [List.mem_singleton.mp ho'] at hsame
          exact .inr (.inr ⟨rfl, hsame.2.1.trans htoken⟩)
      · exact .inr (.inl hat)
  refine ⟨hnumbers.ordered hs, hnumbers.later, fun k hk => ?_, some n, hnumbers⟩
  cases k with
  | counter => exact absurd hlock hk
  | _ => trivial

/-! ### The programs keep it -/

section Programs

variable {α β : Type}

theorem query_reads (f : Store → β) : (Txn.query f : Tx β).Emits Reads :=
  ⟨fun _ _ => rfl, fun _ => trivial⟩

theorem clock_reads : (Txn.clock : Tx ℤ).Emits Reads := ⟨fun _ _ => rfl, fun _ => trivial⟩

theorem uuid_reads : (Txn.uuid : Tx ℕ).Emits Reads := ⟨fun _ _ => rfl, fun _ => trivial⟩

theorem raiseIf_emits {N : TxFootprint → Prop} (c : Prop) [Decidable c] (status : ℕ)
    (code message : String) : (raiseIf c status code message).Emits N := by
  unfold raiseIf Txn.throwIf
  split <;> trivial

theorem Reads.quiet (h : Reads l) : Quiet l := by
  rw [h]
  exact fun w hw => absurd hw List.not_mem_nil

theorem quiet_of_reads {p : Tx α} (h : p.Emits Reads) : p.Emits Quiet :=
  h.mono fun _ => Reads.quiet

theorem exec_quiet (locks : Store → List Key) {w : Write} (hw : w.quiet = true) :
    (Txn.exec locks fun _ => [w] : Tx Unit).Emits Quiet := by
  refine ⟨fun _ _ w' hw' => ?_, fun _ => trivial⟩
  rw [List.mem_singleton.mp hw']
  exact hw

theorem guarded_quiet (allowed : Store → Bool) (keys : List Key) {w : Write}
    (hw : w.quiet = true) : (guarded allowed keys [w]).Emits Quiet := by
  refine ⟨fun _ v w' hw' => ?_, fun changed => ?_⟩
  · dsimp only at hw'
    split at hw'
    · rw [List.mem_singleton.mp hw']
      exact hw
    · cases hw'
  · cases changed <;> trivial

/-- Reading keeps what a transaction that has done nothing else knows. -/
theorem reads_wp {p : Tx α} (hp : p.Emits Reads) {P : TxFootprint → Store → Prop}
    (hP : discipline.Stable P) (h : P l s) : p.wp discipline (fun _ => P) l s := by
  refine hp.wp hP (fun l l' s hl' h => ?_) h
  rw [hl', Footprint.add_empty]
  exact h

theorem reserveTokenNumber_wp (h : Begun l s) :
    reserveTokenNumber.wp discipline (fun n => Drawn n []) l s := by
  refine Txn.wp_stmt begun_stable h fun _ s h _ => ?_
  obtain ⟨rfl, hs⟩ := h
  -- What the subquery saw.
  have hseen : Seen s.maxToken .empty s := by
    refine ⟨⟨rfl, hs⟩, fun o ho t ht => .inl ?_⟩
    have hmem : t ∈ s.orders.filterMap (·.tokenNumber) := List.mem_filterMap.mpr ⟨o, ho, ht⟩
    exact le_foldl_max (.inl hmem)
  refine Txn.wp_stmt (seen_stable s.maxToken) hseen fun _ s' h _ => ?_
  obtain ⟨⟨-, hs'⟩, hbound⟩ := h
  refine Txn.wp_done (drawn_stable _ []) ⟨List.mem_singleton.mpr rfl, rfl, ?_⟩
  change Above (nextNumber s.maxToken s'.lastNumber) s'
  cases hlast : s'.lastNumber with
  | none =>
      -- Nothing was ever reserved, so the subquery saw every number there is.
      have hnone : ∀ t, t ∉ s'.reserved := by
        intro t ht
        obtain ⟨c, hc, -⟩ := hs'.counted t ht
        rw [hlast] at hc
        cases hc
      refine ⟨fun c hc => ?_, fun o ho t ht => ?_, fun t ht => absurd ht (hnone t)⟩
      · rw [hlast] at hc
        cases hc
      · have hle := (hbound o ho t ht).resolve_right (hnone t)
        simp only [nextNumber]
        omega
  | some c =>
      have hreserved : ∀ t ∈ s'.reserved, t ≤ c := by
        intro t ht
        obtain ⟨c', hc', hle⟩ := hs'.counted t ht
        rw [hlast] at hc'
        rw [Option.mem_some_iff.mp hc']
        exact hle
      have hmax : c ≤ Nat.max c s.maxToken ∧ s.maxToken ≤ Nat.max c s.maxToken :=
        ⟨Nat.le_max_left _ _, Nat.le_max_right _ _⟩
      simp only [nextNumber]
      refine ⟨fun c' hc' => ?_, fun o ho t ht => ?_, fun t ht => ?_⟩
      · rw [hlast] at hc'
        rw [← Option.mem_some_iff.mp hc']
        omega
      · rcases hbound o ho t ht with hle | hmem
        · omega
        · have hle := hreserved t hmem
          omega
      · have hle := hreserved t ht
        omega

/-- The new order takes the number that was drawn. -/
theorem createOrder_wp {order : Order} (htoken : order.tokenNumber = some n) (h : Drawn n [] l s) :
    (createOrder order).wp discipline (fun _ => Numbered n) l s := by
  refine Txn.wp_seq (R := fun changed l s => changed = true → Numbered n l s) ?_
    fun changed l s h => ?_
  · refine Txn.wp_writeWhen (drawn_stable n []) (fun _ => .imp _ (numbered_stable n)) h
      (fun s h _ _ _ => ?_) fun _ _ _ hfalse => absurd hfalse (by simp)
    exact ⟨order, [], htoken, fun _ hw => absurd hw List.not_mem_nil, h.add _⟩
  · cases changed with
    | false => trivial
    | true => exact Txn.wp_done (numbered_stable n) (h rfl)

theorem createCounterOrder_wp (staffId : ℕ) (h : Begun l s) :
    (createCounterOrder staffId).wp discipline (fun _ l s => ∃ n, Numbered n l s) l s := by
  refine Txn.wp_seq (reserveTokenNumber_wp h) fun n l s h => ?_
  refine Txn.wp_uuid (drawn_stable n []) h fun id s h => ?_
  refine Txn.wp_clock (drawn_stable n []) h fun now s h => ?_
  exact Txn.wp_mono (createOrder_wp rfl h) fun _ _ _ h => ⟨n, h⟩

theorem loadActiveSession_reads (sessionId : ℕ) : (loadActiveSession sessionId).Emits Reads := by
  refine (query_reads _).bind fun session => ?_
  cases session with
  | none => trivial
  | some session => exact clock_reads.bind fun _ => (raiseIf_emits _ _ _ _).bind fun _ => trivial

theorem clearTable_quiet (tableId : ℕ) : (clearTable tableId).Emits Quiet := by
  have hdetach : (detachStaleTableOrder tableId).Emits Quiet := by
    refine (quiet_of_reads clock_reads).bind fun now => (quiet_of_reads (query_reads _)).bind
      fun stale => ?_
    cases stale with
    | none => trivial
    | some stale => exact (exec_quiet _ rfl).bind fun _ => exec_quiet _ rfl
  exact hdetach.bind fun _ => (quiet_of_reads (query_reads _)).bind fun _ => raiseIf_emits _ _ _ _

/-- What follows the new order. -/
theorem fill_quiet (id sessionId : ℕ) (cartLines : List CartLine) :
    (do Txn.forEach (fun _ => Txn.exec (fun _ => []) fun _ => [.createOrderLine ⟨id, none⟩]) cartLines
        Txn.exec (fun _ => [.order id]) fun _ => [.updateOrderStatus id .sent]
        Txn.exec (fun _ => []) fun _ => [.deleteCartLines sessionId] : Tx Unit).Emits Quiet :=
  (Txn.Emits.forEach fun _ _ => exec_quiet _ rfl).bind fun _ =>
    (exec_quiet _ rfl).bind fun _ => exec_quiet _ rfl

theorem placeOrder_wp (sessionId : ℕ) (h : Begun l s) :
    (placeOrder sessionId).wp discipline (fun _ l s => (∃ n, Numbered n l s) ∨ Quiet l) l s := by
  refine Txn.wp_seq (reads_wp (loadActiveSession_reads sessionId) begun_stable h)
    fun session l s h => ?_
  refine Txn.wp_query begun_stable h fun s h => ?_
  refine Txn.wp_throwIf fun _ => ?_
  cases htable : session.tableId with
  | none =>
      refine Txn.wp_seq (R := fun token l s => ∃ n, token = some n ∧ Drawn n [] l s) ?_
        fun token l s ⟨n, htoken, h⟩ => ?_
      · refine Txn.wp_seq (reserveTokenNumber_wp h) fun n l s h => ?_
        exact Txn.wp_done (.exists fun n => (Discipline.Stable.const _).and (drawn_stable n []))
          ⟨n, rfl, h⟩
      · subst htoken
        refine Txn.wp_uuid (drawn_stable n []) h fun id s h => ?_
        refine Txn.wp_clock (drawn_stable n []) h fun now s h => ?_
        refine Txn.wp_seq (createOrder_wp rfl h) fun _ l s h => ?_
        refine Txn.wp_mono ((fill_quiet id session.id _).wp (numbered_stable n)
          (fun _ _ _ hl' h => h.add hl') h) fun _ _ _ h => .inl ⟨n, h⟩
  | some tableId =>
      have hquiet : Quiet l := Reads.quiet h.1
      refine Txn.wp_mono (Q := fun _ l _ => Quiet l) ?_ fun _ _ _ h => .inr h
      refine Txn.wp_seq (R := fun token l _ => token = none ∧ Quiet l) ?_
        fun token l s ⟨htoken, h⟩ => ?_
      · refine Txn.wp_seq ((clearTable_quiet tableId).wp quiet_stable
          (fun _ _ _ hl' h => h.add hl') hquiet) fun _ l s h => ?_
        exact Txn.wp_done ((Discipline.Stable.const _).and quiet_stable) ⟨rfl, h⟩
      · subst htoken
        refine Txn.Emits.wp (N := Quiet) ?_ quiet_stable (fun _ _ _ hl' h => h.add hl') h
        refine (quiet_of_reads uuid_reads).bind fun id => ?_
        refine (quiet_of_reads clock_reads).bind fun now => ?_
        exact (guarded_quiet _ _ rfl).bind fun _ => fill_quiet id session.id _

theorem discard_quiet (staffId orderId : ℕ) (ownerName : String) :
    (discard staffId orderId ownerName).Emits Quiet := by
  have hload : (loadOrder orderId).Emits Quiet := by
    refine (quiet_of_reads (query_reads _)).bind fun order => ?_
    cases order <;> trivial
  have hbill : ∀ bill, (discardBill bill).Emits Quiet := by
    intro bill
    cases bill with
    | none => trivial
    | some bill => exact guarded_quiet _ _ rfl
  have hremove : ∀ lines, (removeOrder orderId lines).Emits Quiet := fun lines =>
    .ite (guarded_quiet _ _ rfl) (exec_quiet _ rfl)
  refine hload.bind fun order => (raiseIf_emits _ _ _ _).bind fun _ =>
    (raiseIf_emits _ _ _ _).bind fun _ => ?_
  refine (quiet_of_reads (query_reads _)).bind fun lines => (raiseIf_emits _ _ _ _).bind fun _ => ?_
  refine (quiet_of_reads (query_reads _)).bind fun bill => (raiseIf_emits _ _ _ _).bind fun _ => ?_
  exact (hbill bill).bind fun _ => (hremove lines).bind fun _ => exec_quiet _ rfl

/-- Every request keeps the discipline, whatever the others commit in the meantime. -/
theorem Request.wp (r : Request) (hs : Ordered s) :
    r.prog.wp discipline (fun _ => discipline.Commits) .empty s := by
  have hbegun : Begun .empty s := ⟨rfl, hs⟩
  cases r with
  | createCounterOrder staffId =>
      refine Txn.wp_mono (Txn.wp_inv hs (createCounterOrder_wp staffId hbegun)) ?_
      exact fun _ _ _ ⟨hs, _, h⟩ => h.commits hs
  | placeOrder sessionId =>
      refine Txn.wp_mono (Txn.wp_inv hs (placeOrder_wp sessionId hbegun)) fun _ _ _ ⟨hs, h⟩ => ?_
      rcases h with ⟨n, h⟩ | h
      · exact h.commits hs
      · exact quiet_commits hs h
  | discard staffId orderId ownerName =>
      refine Txn.wp_mono (Txn.wp_inv hs ((discard_quiet staffId orderId ownerName).wp quiet_stable
        (fun _ _ _ hl' h => h.add hl') (Reads.quiet hbegun.1))) ?_
      exact fun _ _ _ ⟨hs, h⟩ => quiet_commits hs h

end Programs

/-! ### Unique numbers -/

def IsRequest (p : Tx Unit) : Prop := ∃ r : Request, p = r.prog

/-- However the requests of an outlet interleave: a commit that adds an order outside the tables
reserves a number higher than the counter, than every number an order carries and than every
number reserved before, and that order gets it. -/
theorem token_numbers_unique (hs : s.reserved = []) {S : System Store Key Empty Write Failure}
    {es : List (Event Store Key Empty Write Failure)}
    (h : Run IsRequest (fun _ _ => True) (System.start s) es S) :
    S.store.reserved.Pairwise (· < ·) ∧
    (∀ n ∈ S.store.reserved, ∀ c ∈ s.lastNumber, c < n) ∧
    ∀ t S', S.step (.commit t) = some S' → ∃ new, Numbers S.store S'.store new := by
  have hP : ∀ p, IsRequest p → ∀ s, discipline.inv s →
      p.wp discipline (fun _ => discipline.Commits) .empty s := by
    rintro p ⟨r, rfl⟩ s hs
    exact r.wp hs
  have hrespects : ∀ (S : System Store Key Empty Write Failure) e, True →
      discipline.Respects S e := by
    intro S e _
    cases e with
    | commit t => exact fun _ _ => ⟨trivial, fun _ _ _ _ _ _ => trivial⟩
    | stmt t env => exact fun _ _ _ _ _ => trivial
    | _ => trivial
  have hordered : Ordered s := by
    refine ⟨hs ▸ List.Pairwise.nil, fun t ht => ?_⟩
    rw [hs] at ht
    cases ht
  obtain ⟨hS, hlater⟩ := discipline.sound hP hrespects (.start hordered) h
  refine ⟨hS.inv.increasing, fun n hn => ?_, fun t S' hstep => ?_⟩
  · obtain ⟨ns, hns, habove⟩ := hlater.reserved
    have heq : S.store.reserved = ns := by
      rw [hns, System.start_store, hs, List.nil_append]
    exact habove n (heq ▸ hn)
  · simp only [System.step] at hstep
    split at hstep
    next u l hx =>
      obtain rfl := Option.some.inj hstep
      exact (hS.commits hx trivial).ends
    next => cases hstep

/-- A kiosk session with a cart, an order that was imported with a number, and no counter yet. -/
def sampleStore : Store where
  orders := [⟨7, none, none, .open, .pos, some 4, none, 0⟩]
  lines := []
  bills := []
  sessions := [⟨1, none, true, 1000000⟩]
  cartLines := [⟨1⟩]
  lastNumber := none
  reserved := []

/-- Two counter orders of which the second waits for the first, a discard of the first, and a
kiosk order that rolls back and is tried again. -/
def counterOrders : List (Event Store Key Empty Write Failure) := List.flatten
  [[.begin (Request.createCounterOrder 3).prog, .begin (Request.createCounterOrder 3).prog],
    turns 0 2 100, turns 1 1 110, turns 0 3 120, [.commit 0], turns 1 4 130,
    [.commit 1, .begin (Request.placeOrder 1).prog], turns 2 6 140,
    [.rollback 2, .begin (Request.discard 3 120 "Owner").prog], turns 3 5 150,
    [.commit 3, .begin (Request.placeOrder 1).prog], turns 4 11 160, [.commit 4]]

theorem token_numbers_unique_sample : ∃ S,
    Run IsRequest (fun _ _ => True) (System.start sampleStore) counterOrders S ∧
    S.store.reserved = [5, 6, 7] ∧ S.store.orders.map (·.tokenNumber) = [some 4, some 6, some 7] ∧
    S.store.reserved.Pairwise (· < ·) := by
  have hplayed : ((System.start sampleStore).play counterOrders).map
      (fun S => (S.store.reserved, S.store.orders.map (·.tokenNumber))) =
      some ([5, 6, 7], [some 4, some 6, some 7]) := by rfl
  obtain ⟨S, -, hrun, hstore⟩ := Run.of_play_map (P := IsRequest) hplayed fun p hp => by
    simp only [counterOrders, List.flatten_cons, List.flatten_nil, List.mem_append, List.mem_cons,
      begin_notMem_turns, Event.begin.injEq, reduceCtorEq, List.not_mem_nil, or_false,
      false_or] at hp
    rcases hp with (rfl | rfl) | rfl | rfl | rfl <;> exact ⟨_, rfl⟩
  obtain ⟨hreserved, htokens⟩ := Prod.mk.inj hstore
  exact ⟨S, hrun, hreserved, htokens, (token_numbers_unique rfl hrun).1⟩

end RestiqBackend.TokenNumbers
