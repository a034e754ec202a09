import Mathlib.Algebra.BigOperators.Group.List.Basic
import RestiqBackend.Catalogue
import RestiqBackend.GuestBills

/-!
The cart of a table session and the order it becomes (`src/guest/cart`, `src/guest/orders`).

Every guest of a session adds lines to one cart. A combo is a parent line with a child line for
each of its picks; what is stored of a pick is how many of it all the combos of the line take
together, and how many one combo takes is divided out again wherever it is needed. Placement
turns the lines into an order's and empties the cart. A combo that its owner changes or deletes
leaves every cart. Each request is one transaction, alone.
-/

namespace RestiqBackend.TableCart

open Catalogue
open Serial (check orElseThrow)

/-! ### Rows -/

structure CartLine where
  id : ℕ
  sessionId : ℕ
  guestId : ℕ
  guestName : String
  itemId : Option ℕ
  variantId : Option ℕ
  comboId : Option ℕ
  parentLineId : Option ℕ
  comboOptionId : Option ℕ
  quantity : ℕ
  note : Option String
  modifierIds : List ℕ
  deriving DecidableEq

structure PlacedOrder where
  id : ℕ
  sessionId : ℕ
  outletId : ℕ
  tableId : Option ℕ
  tokenNumber : Option ℕ
  lines : List OrderLine
  deriving DecidableEq

/-- The menu, the carts and the orders placed from them, oldest rows first. -/
structure World where
  menu : Menu
  cartLines : List CartLine
  orders : List PlacedOrder
  deriving DecidableEq

structure GuestPrincipal where
  id : ℕ
  name : String
  sessionId : ℕ
  outletId : ℕ
  deriving DecidableEq

/-! ### Guards -/

/-- The guest's session, of the row that the request finds. -/
def loadActiveSession (guest : GuestPrincipal) (found : Option TableSession) (now : ℤ) :
    Except ApiError TableSession := do
  let session ← orElseThrow ⟨.notFound, "not_found", "No such session"⟩
    (found.filter (·.id = guest.sessionId))
  check (isSessionInactive session now = false)
    ⟨.gone, "session_closed", "This table session has ended"⟩
  pure session

def loadCartLine (w : World) (sessionId lineId : ℕ) : Except ApiError CartLine := do
  let line ← orElseThrow ⟨.notFound, "not_found", "No such cart line"⟩
    (w.cartLines.find? (·.id = lineId))
  check (line.sessionId = sessionId) ⟨.notFound, "not_found", "No such cart line"⟩
  pure line

def assertOwnedByGuest (line : CartLine) (guest : GuestPrincipal) : Except ApiError Unit :=
  check (line.guestId = guest.id)
    ⟨.forbidden, "forbidden", "Only the guest who added this line may change it"⟩

def assertNotComboPick (line : CartLine) : Except ApiError Unit :=
  check (line.parentLineId = none) ⟨.conflict, "combo_locked",
    "This item is part of a combo - change or remove the whole combo"⟩

/-- What an integer column takes of a computed number. -/
def wholeUnits (quantity : ℚ) : Except ApiError ℕ :=
  if quantity.den = 1 ∧ 0 ≤ quantity then .ok quantity.num.toNat else .error internalError

def insertCartLine (line : CartLine) (lines : List CartLine) : Except ApiError (List CartLine) := do
  check (lines.any (·.id = line.id) = false) uniqueViolation
  pure (lines ++ [line])

/-! ### The cart as it is shown -/

structure CartLineView where
  id : ℕ
  guestId : ℕ
  guestName : String
  itemId : Option ℕ
  comboId : Option ℕ
  /-- The items of a combo, with how many of each there are in one combo. -/
  components : List (ℚ × Option ℕ)
  variantId : Option ℕ
  quantity : ℕ
  unitPriceMinor : ℚ
  modifiers : List (ℕ × ℕ)
  lineTotalMinor : ℚ
  deriving DecidableEq

structure GuestCartView where
  guestId : ℕ
  guestName : String
  lines : List CartLineView
  subtotalMinor : ℚ
  deriving DecidableEq

structure TableCartView where
  sessionId : ℕ
  guests : List GuestCartView
  totalMinor : ℚ
  currency : String
  deriving DecidableEq

def childLines (lines : List CartLine) (line : CartLine) : List CartLine :=
  lines.filter (·.parentLineId = some line.id)

/-- How many of a pick one combo takes. -/
def perCombo (line child : CartLine) : ℚ := child.quantity / line.quantity

/-- The extra charge of an option, of any combo. -/
def upchargeOf (m : Menu) (optionId : Option ℕ) : ℕ :=
  (((m.combos.flatMap (·.options)).find? fun o => optionId = some o.2.id).map
    (·.2.upchargeMinor)).getD 0

def modifiersTotal (m : Menu) (modifierIds : List ℕ) : ℕ := (modifierIds.map m.modifierPrice).sum

/-- A combo shows as one line: its price and the extra charges of its picks, per combo. -/
def toComboCartLineView (m : Menu) (lines : List CartLine) (line : CartLine) (comboId : ℕ) :
    Except ApiError (CartLineView × Option String) := do
  let combo ← orElseThrow internalError (m.combo comboId)
  let children := childLines lines line
  let perComboMinor : ℚ := combo.priceMinor + (children.map fun c =>
    perCombo line c * (upchargeOf m c.comboOptionId + modifiersTotal m c.modifierIds)).sum
  pure
    ({ id := line.id, guestId := line.guestId, guestName := line.guestName
       itemId := none, comboId := some combo.id
       components := children.map fun c => (perCombo line c, c.itemId)
       variantId := none, quantity := line.quantity
       unitPriceMinor := perComboMinor
       modifiers := []
       lineTotalMinor := perComboMinor * line.quantity }, some combo.currency)

def unitPrice (m : Menu) (outletId : ℕ) (now : ℤ) (line : CartLine) : Option ItemPrice :=
  line.itemId.bind fun itemId => resolveCurrentPrice m itemId line.variantId .qr outletId now

def toCartLineView (m : Menu) (outletId : ℕ) (now : ℤ) (lines : List CartLine) (line : CartLine) :
    Except ApiError (CartLineView × Option String) :=
  match line.comboId with
  | some comboId => toComboCartLineView m lines line comboId
  | none =>
      let resolved := unitPrice m outletId now line
      let unitPriceMinor := (resolved.map (·.priceMinor)).getD 0
      .ok
        ({ id := line.id, guestId := line.guestId, guestName := line.guestName
           itemId := line.itemId, comboId := none, components := []
           variantId := line.variantId, quantity := line.quantity
           unitPriceMinor
           modifiers := line.modifierIds.map fun id => (id, m.modifierPrice id)
           lineTotalMinor := (unitPriceMinor + modifiersTotal m line.modifierIds) * line.quantity },
          resolved.map (·.currency))

def GuestCartView.add (cart : GuestCartView) (view : CartLineView) : GuestCartView :=
  { cart with lines := cart.lines ++ [view], subtotalMinor := cart.subtotalMinor + view.lineTotalMinor }

/-- Each guest's lines, the guests in the order of their first lines. -/
def addToGuest (carts : List GuestCartView) (view : CartLineView) : List GuestCartView :=
  if carts.any (·.guestId = view.guestId) then
    carts.map fun cart => if cart.guestId = view.guestId then cart.add view else cart
  else carts ++ [(⟨view.guestId, view.guestName, [], 0⟩ : GuestCartView).add view]

def fallbackCurrency : String := "INR"

/-- The lines of a session's cart. The picks of a combo are shown inside its line. -/
def sessionLines (lines : List CartLine) (sessionId : ℕ) : List CartLine :=
  lines.filter fun l => l.sessionId = sessionId ∧ l.parentLineId = none

def buildCartView (w : World) (outletId : ℕ) (now : ℤ) (sessionId : ℕ) :
    Except ApiError TableCartView := do
  let views ← (sessionLines w.cartLines sessionId).mapM
    (toCartLineView w.menu outletId now w.cartLines)
  let guests := (views.map (·.1)).foldl addToGuest []
  let currency := (views.filterMap (·.2)).getLast?.getD fallbackCurrency
  pure ⟨sessionId, guests, (guests.map (·.subtotalMinor)).sum, currency⟩

def getCart (w : World) (guest : GuestPrincipal) (found : Option TableSession) (now : ℤ) :
    Except ApiError (World × TableCartView) := do
  let session ← loadActiveSession guest found now
  let view ← buildCartView w guest.outletId now session.id
  pure (w, view)

/-! ### Changing the cart -/

structure AddCartLineDto where
  itemId : ℕ
  variantId : Option ℕ
  quantity : ℕ
  note : Option String
  modifierIds : Option (List ℕ)
  one_le_quantity : 1 ≤ quantity
  nodup_modifierIds : ∀ ids ∈ modifierIds, ids.Nodup

def addLine (w : World) (guest : GuestPrincipal) (found : Option TableSession) (now : ℤ)
    (dto : AddCartLineDto) (id : ℕ) : Except ApiError (World × TableCartView) := do
  let session ← loadActiveSession guest found now
  let item ← loadItemForCartLine w.menu dto.itemId
  assertVariantBelongsToItem item dto.variantId
  assertItemAvailable w.menu guest.outletId item
  let modifierIds := dto.modifierIds.getD []
  assertModifierSelectionValid item modifierIds
  let line : CartLine :=
    { id, sessionId := session.id, guestId := guest.id, guestName := guest.name
      itemId := some dto.itemId, variantId := dto.variantId, comboId := none, parentLineId := none
      comboOptionId := none, quantity := dto.quantity, note := dto.note, modifierIds }
  let cartLines ← insertCartLine line w.cartLines
  let w := { w with cartLines }
  let view ← buildCartView w guest.outletId now session.id
  pure (w, view)

structure ComboSelectionDto where
  optionId : ℕ
  quantity : Option ℕ
  modifierIds : Option (List ℕ)
  one_le_quantity : ∀ q ∈ quantity, 1 ≤ q
  nodup_modifierIds : ∀ ids ∈ modifierIds, ids.Nodup

def ComboSelectionDto.input (dto : ComboSelectionDto) : ComboSelectionInput :=
  ⟨dto.optionId, dto.quantity.map (↑), dto.modifierIds⟩

structure AddCartComboDto where
  comboId : ℕ
  quantity : ℕ
  selections : List ComboSelectionDto
  one_le_quantity : 1 ≤ quantity

/-- The child line of a pick, behind its parent. -/
def insertPick (parent : CartLine) (lines : List CartLine) (pick : ResolvedComboChild × ℕ) :
    Except ApiError (List CartLine) := do
  let child := pick.1
  let quantity ← wholeUnits (child.quantity * parent.quantity)
  insertCartLine
    { parent with
      id := pick.2
      itemId := some child.itemId, variantId := child.variantId, comboId := none
      parentLineId := some parent.id, comboOptionId := some child.optionId
      quantity, modifierIds := child.modifierIds } lines

/-- The lines get the identifiers `ids`, in turn. -/
def addCombo (w : World) (guest : GuestPrincipal) (found : Option TableSession) (now : ℤ)
    (dto : AddCartComboDto) (ids : ℕ → ℕ) : Except ApiError (World × TableCartView) := do
  let session ← loadActiveSession guest found now
  let (combo, children) ← resolveComboSelection w.menu guest.outletId dto.comboId
    (dto.selections.map (·.input))
  let parent : CartLine :=
    { id := ids 0, sessionId := session.id, guestId := guest.id, guestName := guest.name
      itemId := none, variantId := none, comboId := some combo.id, parentLineId := none
      comboOptionId := none, quantity := dto.quantity, note := none, modifierIds := [] }
  let cartLines ← insertCartLine parent w.cartLines
  let cartLines ← (children.zip ((List.range' 1 children.length).map ids)).foldlM
    (insertPick parent) cartLines
  let w := { w with cartLines }
  let view ← buildCartView w guest.outletId now session.id
  pure (w, view)

/-- What is left out stays as it is; a note may be taken off. -/
structure UpdateCartLineDto where
  note : Option (Option String)
  quantity : Option ℕ
  modifierIds : Option (List ℕ)
  one_le_quantity : ∀ q ∈ quantity, 1 ≤ q
  nodup_modifierIds : ∀ ids ∈ modifierIds, ids.Nodup

def updateCartLine (lineId : ℕ) (f : CartLine → CartLine) (lines : List CartLine) : List CartLine :=
  lines.map fun l => if l.id = lineId then f l else l

/-- The picks of a combo scale with it: their quantity is per combo, times combos. -/
def rescalePick (line : CartLine) (quantity : ℕ) (l : CartLine) : Except ApiError CartLine :=
  if l.parentLineId = some line.id then do
    let scaled ← wholeUnits (perCombo line l * quantity)
    pure { l with quantity := scaled }
  else .ok l

def updateQuantity (line : CartLine) (quantity : ℕ) (lines : List CartLine) :
    Except ApiError (List CartLine) :=
  let lines := updateCartLine line.id (fun l => { l with quantity }) lines
  if line.comboId.isSome then lines.mapM (rescalePick line quantity) else .ok lines

def updateModifiers (m : Menu) (line : CartLine) (modifierIds : List ℕ) (lines : List CartLine) :
    Except ApiError (List CartLine) := do
  let itemId ← orElseThrow internalError line.itemId
  let item ← loadItemForCartLine m itemId
  assertModifierSelectionValid item modifierIds
  pure (updateCartLine line.id (fun l => { l with modifierIds }) lines)

/-- A change that is only made where it is asked for. -/
def applyIf {α β : Type} (change : α → β → Except ApiError β) : Option α → β → Except ApiError β
  | some a, b => change a b
  | none, b => .ok b

def updateLine (w : World) (guest : GuestPrincipal) (found : Option TableSession) (now : ℤ)
    (lineId : ℕ) (dto : UpdateCartLineDto) : Except ApiError (World × TableCartView) := do
  let session ← loadActiveSession guest found now
  let line ← loadCartLine w session.id lineId
  assertOwnedByGuest line guest
  assertNotComboPick line
  check (¬ (line.comboId.isSome = true ∧ dto.modifierIds.isSome = true)) ⟨.conflict, "combo_locked",
    "Remove the combo and add it again to change it"⟩
  let cartLines ← applyIf (fun note lines =>
    .ok (updateCartLine lineId (fun l => { l with note }) lines)) dto.note w.cartLines
  let cartLines ← applyIf (updateQuantity line) dto.quantity cartLines
  let cartLines ← applyIf (updateModifiers w.menu line) dto.modifierIds cartLines
  let w := { w with cartLines }
  let view ← buildCartView w guest.outletId now session.id
  pure (w, view)

/-- A line goes with its picks (`ON DELETE CASCADE`). -/
def deleteLine (lineId : ℕ) (lines : List CartLine) : List CartLine :=
  lines.filter fun l => l.id ≠ lineId ∧ l.parentLineId ≠ some lineId

def removeLine (w : World) (guest : GuestPrincipal) (found : Option TableSession) (now : ℤ)
    (lineId : ℕ) : Except ApiError (World × TableCartView) := do
  let session ← loadActiveSession guest found now
  let line ← loadCartLine w session.id lineId
  assertOwnedByGuest line guest
  assertNotComboPick line
  let w := { w with cartLines := deleteLine lineId w.cartLines }
  let view ← buildCartView w guest.outletId now session.id
  pure (w, view)

/-! ### Placement -/

def insertOrderLine (taken : List ℕ) (line : OrderLine) (lines : List OrderLine) :
    Except ApiError (List OrderLine) := do
  check (line.id ∉ taken ∧ lines.any (·.id = line.id) = false) uniqueViolation
  pure (lines ++ [line])

/-- What the lines of one order share: its outlet, the time, the guests' seats, the
identifiers that other orders' lines have and those that its own lines get. -/
structure Placing where
  menu : Menu
  outletId : ℕ
  now : ℤ
  cartLines : List CartLine
  guests : List ℕ
  taken : List ℕ
  ids : ℕ → ℕ

/-- Guests are seated in the order they joined. -/
def Placing.seat (p : Placing) (guestId : ℕ) : Option ℕ := (p.guests.idxOf? guestId).map (· + 1)

def toModifierRow (modifier : Modifier) : OrderLineModifier := ⟨modifier.id, modifier.priceMinor⟩

/-- What an order line takes from its cart line. -/
def Placing.orderLine (p : Placing) (line : CartLine) (created : List OrderLine) : OrderLine :=
  { id := p.ids created.length
    itemId := line.itemId, variantId := line.variantId, comboId := line.comboId
    parentLineId := none, quantity := line.quantity, unitPriceMinor := 0, modifiers := []
    seatNumber := p.seat line.guestId
    guestId := some line.guestId, guestName := some line.guestName, voidedAt := none }

def Placing.placePick (p : Placing) (line : CartLine) (parentId : ℕ) (created : List OrderLine)
    (child : ResolvedComboChild) : Except ApiError (List OrderLine) := do
  let quantity ← wholeUnits (child.quantity * line.quantity)
  insertOrderLine p.taken
    { p.orderLine line created with
      itemId := some child.itemId, variantId := child.variantId, comboId := none
      parentLineId := some parentId, quantity, unitPriceMinor := child.upchargeMinor
      modifiers := (p.menu.modifiersIn child.modifierIds).map toModifierRow } created

/-- How a combo in the cart is asked for again. -/
def Placing.selections (p : Placing) (line : CartLine) : List ComboSelectionInput :=
  (childLines p.cartLines line).map fun c =>
    ⟨c.comboOptionId.getD 0, some (perCombo line c), some c.modifierIds⟩

/-- A combo is checked again against its slots and what is available. -/
def Placing.placeCombo (p : Placing) (line : CartLine) (comboId : ℕ) (created : List OrderLine) :
    Except ApiError (List OrderLine) := do
  let (combo, children) ← resolveComboSelection p.menu p.outletId comboId (p.selections line)
  let parent : OrderLine :=
    { p.orderLine line created with
      itemId := none, variantId := none, comboId := some combo.id, unitPriceMinor := combo.priceMinor }
  let created ← insertOrderLine p.taken parent created
  children.foldlM (p.placePick line parent.id) created

/-- An item's price is resolved again. -/
def Placing.placeItem (p : Placing) (line : CartLine) (created : List OrderLine) :
    Except ApiError (List OrderLine) := do
  let price ← orElseThrow
    ⟨.badRequest, "no_price", "No current price is configured for one of the items in this cart"⟩
    (unitPrice p.menu p.outletId p.now line)
  insertOrderLine p.taken
    { p.orderLine line created with
      unitPriceMinor := price.priceMinor
      modifiers := line.modifierIds.map fun id => ⟨id, p.menu.modifierPrice id⟩ } created

def Placing.placeLine (p : Placing) (created : List OrderLine) (line : CartLine) :
    Except ApiError (List OrderLine) :=
  match line.comboId with
  | some comboId => p.placeCombo line comboId created
  | none => p.placeItem line created

/-- What a placement finds besides the cart: the guests of the session in the order they
joined, whether the table has a live order, and the token that is next at the counter. -/
structure PlacementContext where
  guests : List ℕ
  tableHasOrder : Bool
  token : ℕ
  deriving DecidableEq

def World.placing (w : World) (outletId : ℕ) (now : ℤ) (ctx : PlacementContext) (ids : ℕ → ℕ) :
    Placing :=
  { menu := w.menu, outletId, now, cartLines := w.cartLines, guests := ctx.guests
    taken := w.orders.flatMap fun o => o.lines.map (·.id)
    ids := fun n => ids (n + 1) }

/-- Placement consumes the cart. A kiosk's session has no table, and its order a token. -/
def placeOrder (w : World) (guest : GuestPrincipal) (found : Option TableSession) (now : ℤ)
    (ctx : PlacementContext) (ids : ℕ → ℕ) : Except ApiError (World × PlacedOrder) := do
  let session ← loadActiveSession guest found now
  let cartLines := sessionLines w.cartLines session.id
  check (cartLines ≠ []) ⟨.badRequest, "empty_cart",
    "Add at least one item to the cart before placing the order"⟩
  check (¬ (session.tableId.isSome = true ∧ ctx.tableHasOrder = true))
    ⟨.conflict, "table_has_active_order",
      "This table already has an order in progress - ask your server to add to it"⟩
  check (w.orders.any (·.id = ids 0) = false) uniqueViolation
  let lines ← cartLines.foldlM (w.placing guest.outletId now ctx ids).placeLine []
  let order : PlacedOrder :=
    { id := ids 0, sessionId := session.id, outletId := guest.outletId, tableId := session.tableId
      tokenNumber := if session.tableId.isNone then some ctx.token else none
      lines }
  pure ({ w with
    cartLines := w.cartLines.filter (·.sessionId ≠ session.id)
    orders := w.orders ++ [order] }, order)

/-! ### The owner's combos -/

/-- A combo to save; its slots and options have the identifiers that are drawn for them. -/
structure SaveComboDto where
  name : String
  priceMinor : ℕ
  currency : String
  available : Option Bool
  slots : List ComboSlot

def SaveComboDto.options (dto : SaveComboDto) : List ComboSlotOption :=
  dto.slots.flatMap (·.options)

def assertOptionRef (m : Menu) (option : ComboSlotOption) : Except ApiError Unit := do
  let itemId := option.itemId
  let noSuchItem : ApiError := ⟨.badRequest, "validation_failed", s!"No such item: {itemId}"⟩
  let item ← orElseThrow noSuchItem (m.item itemId)
  check (item.archivedAt = none) noSuchItem
  check (∀ v ∈ option.variantId, item.variants.any (·.id = v) = true)
    ⟨.badRequest, "validation_failed", "That size does not belong to " ++ item.name⟩

/-- Unique names of live combos, and identifiers that no other combo has. -/
def assertComboUnique (m : Menu) (comboId : ℕ) (dto : SaveComboDto) : Except ApiError Unit := do
  let others := m.combos.filter (·.id ≠ comboId)
  check (others.any (fun c => c.archivedAt = none ∧ c.name = dto.name) = false)
    ⟨.conflict, "conflict", "A combo with this name already exists"⟩
  check ((others.flatMap fun c => c.slots.map (·.id)) ++ dto.slots.map (·.id)).Nodup uniqueViolation
  check ((others.flatMap fun c => c.options.map (·.2.id)) ++ dto.options.map (·.id)).Nodup
    uniqueViolation

def SaveComboDto.combo (dto : SaveComboDto) (id : ℕ) : Combo :=
  { id, name := dto.name, priceMinor := dto.priceMinor, currency := dto.currency
    available := dto.available.getD true, archivedAt := none, slots := dto.slots }

def createCombo (w : World) (dto : SaveComboDto) (id : ℕ) : Except ApiError (World × Combo) := do
  let _ ← dto.options.mapM (assertOptionRef w.menu)
  check (w.menu.combos.any (·.id = id) = false) uniqueViolation
  assertComboUnique w.menu id dto
  let combo := dto.combo id
  pure ({ w with menu := { w.menu with combos := w.menu.combos ++ [combo] } }, combo)

def loadLiveCombo (m : Menu) (comboId : ℕ) : Except ApiError Combo := do
  let combo ← orElseThrow ⟨.notFound, "not_found", "No such combo"⟩ (m.combo comboId)
  check (combo.archivedAt = none) ⟨.notFound, "not_found", "No such combo"⟩
  pure combo

/-- The lines of a combo leave every cart, with their picks. -/
def dropCombo (comboId : ℕ) (lines : List CartLine) : List CartLine :=
  lines.filter fun l => l.comboId ≠ some comboId ∧
    ∀ parent ∈ lines, parent.comboId = some comboId → l.parentLineId ≠ some parent.id

def World.replaceCombo (w : World) (comboId : ℕ) (f : Combo → Combo) : World :=
  { w with
    menu := { w.menu with combos := w.menu.combos.map fun c => if c.id = comboId then f c else c }
    cartLines := dropCombo comboId w.cartLines }

def updateCombo (w : World) (comboId : ℕ) (dto : SaveComboDto) :
    Except ApiError (World × Combo) := do
  let _ ← loadLiveCombo w.menu comboId
  let _ ← dto.options.mapM (assertOptionRef w.menu)
  assertComboUnique w.menu comboId dto
  let combo := dto.combo comboId
  pure (w.replaceCombo comboId fun _ => combo, combo)

def archiveCombo (w : World) (comboId : ℕ) (now : ℤ) : Except ApiError (World × Combo) := do
  let combo ← loadLiveCombo w.menu comboId
  pure (w.replaceCombo comboId fun c => { c with archivedAt := some now }, combo)

/-! ### Requests -/

/-- `menu` is whatever else is done to the menu: items, prices, modifiers and marks. -/
inductive Op
  | getCart (guest : GuestPrincipal) (found : Option TableSession) (now : ℤ)
  | addLine (guest : GuestPrincipal) (found : Option TableSession) (now : ℤ) (dto : AddCartLineDto)
      (id : ℕ)
  | addCombo (guest : GuestPrincipal) (found : Option TableSession) (now : ℤ)
      (dto : AddCartComboDto) (ids : ℕ → ℕ)
  | updateLine (guest : GuestPrincipal) (found : Option TableSession) (now : ℤ) (lineId : ℕ)
      (dto : UpdateCartLineDto)
  | removeLine (guest : GuestPrincipal) (found : Option TableSession) (now : ℤ) (lineId : ℕ)
  | placeOrder (guest : GuestPrincipal) (found : Option TableSession) (now : ℤ)
      (ctx : PlacementContext) (ids : ℕ → ℕ)
  | createCombo (dto : SaveComboDto) (id : ℕ)
  | updateCombo (comboId : ℕ) (dto : SaveComboDto)
  | archiveCombo (comboId : ℕ) (now : ℤ)
  | menu (outletIds : List ℕ) (items : List MenuItem) (modifiers : List Modifier)
      (itemPrices : List ItemPrice) (itemOutletOverrides : List ItemOutletOverride)

/-- A request that is refused changes nothing. -/
def World.handle (w : World) : Op → World
  | .getCart guest found now => Serial.after w (getCart w guest found now)
  | .addLine guest found now dto id => Serial.after w (addLine w guest found now dto id)
  | .addCombo guest found now dto ids => Serial.after w (addCombo w guest found now dto ids)
  | .updateLine guest found now lineId dto =>
      Serial.after w (updateLine w guest found now lineId dto)
  | .removeLine guest found now lineId => Serial.after w (removeLine w guest found now lineId)
  | .placeOrder guest found now ctx ids => Serial.after w (placeOrder w guest found now ctx ids)
  | .createCombo dto id => Serial.after w (createCombo w dto id)
  | .updateCombo comboId dto => Serial.after w (updateCombo w comboId dto)
  | .archiveCombo comboId now => Serial.after w (archiveCombo w comboId now)
  | .menu outletIds items modifiers itemPrices itemOutletOverrides =>
      { w with menu :=
        { w.menu with outletIds, items, modifiers, itemPrices, itemOutletOverrides } }

end RestiqBackend.TableCart
