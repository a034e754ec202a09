import Mathlib.Data.Rat.Defs
import RestiqBackend.Store
import RestiqBackend.Serial

/-!
The menu and what it answers (`src/admin/menu`, `src/guest/menu/menu.service.ts`).

An item carries its variants and its modifier groups, a combo its slots and their options, as
the code loads them. Prices are rows that are never changed: the current one is picked anew on
every read. Whether an item can be had at an outlet follows from three marks: the item's own
`available`, the outlet's override and `archivedAt`. The guest's menu, the cart, the till and
the combos each read them with an expression of their own, and here each keeps its own. The
rows are those of one tenant.
-/

namespace RestiqBackend.Catalogue

open Serial (check orElseThrow)

/-! ### Rows -/

inductive PriceChannel
  | dineIn
  | takeaway
  | delivery
  | qr
  | aggregator
  deriving DecidableEq

structure Modifier where
  id : ℕ
  name : String
  priceMinor : ℕ
  deriving DecidableEq

structure ModifierGroup where
  id : ℕ
  name : String
  minSelections : ℕ
  maxSelections : ℕ
  modifierIds : List ℕ
  deriving DecidableEq

structure ItemVariant where
  id : ℕ
  name : String
  deriving DecidableEq

structure MenuItem where
  id : ℕ
  name : String
  available : Bool
  archivedAt : Option ℤ
  variants : List ItemVariant
  modifierGroups : List ModifierGroup
  deriving DecidableEq

structure ItemOutletOverride where
  itemId : ℕ
  outletId : ℕ
  available : Bool
  deriving DecidableEq

structure ItemPrice where
  itemId : ℕ
  variantId : Option ℕ
  outletId : Option ℕ
  channel : Option PriceChannel
  priceMinor : ℕ
  currency : String
  effectiveAt : ℤ
  createdAt : ℤ
  deriving DecidableEq

structure ComboSlotOption where
  id : ℕ
  itemId : ℕ
  variantId : Option ℕ
  upchargeMinor : ℕ
  deriving DecidableEq

structure ComboSlot where
  id : ℕ
  name : String
  pickCount : ℕ
  options : List ComboSlotOption
  one_le_pickCount : 1 ≤ pickCount
  deriving DecidableEq

structure Combo where
  id : ℕ
  name : String
  priceMinor : ℕ
  currency : String
  available : Bool
  archivedAt : Option ℤ
  slots : List ComboSlot
  deriving DecidableEq

/-- The menu of a tenant, and its outlets. -/
structure Menu where
  outletIds : List ℕ
  items : List MenuItem
  modifiers : List Modifier
  itemPrices : List ItemPrice
  itemOutletOverrides : List ItemOutletOverride
  combos : List Combo
  deriving DecidableEq

def Menu.item (m : Menu) (itemId : ℕ) : Option MenuItem := m.items.find? (·.id = itemId)

def Menu.combo (m : Menu) (comboId : ℕ) : Option Combo := m.combos.find? (·.id = comboId)

/-! ### Current prices -/

/-- How specific a price is: an outlet's own beats a channel's own. -/
def ItemPrice.score (row : ItemPrice) : ℕ :=
  (if row.outletId.isSome then 2 else 0) + if row.channel.isSome then 1 else 0

def ItemPrice.eligible (row : ItemPrice) (channel : PriceChannel) (outletId : Option ℕ) (asOf : ℤ) :
    Bool :=
  row.effectiveAt ≤ asOf && (row.outletId = none || row.outletId = outletId) &&
    (row.channel = none || row.channel = some channel)

/-- On a tie the more recently effective row wins, then the more recently created one. -/
def ItemPrice.beats (row best : ItemPrice) : Bool :=
  best.score < row.score || row.score = best.score &&
    (best.effectiveAt < row.effectiveAt ||
      row.effectiveAt = best.effectiveAt && best.createdAt < row.createdAt)

def better (best : Option ItemPrice) (row : ItemPrice) : Option ItemPrice :=
  match best with
  | none => some row
  | some b => if row.beats b then some row else some b

def pickCurrentPrice (candidates : List ItemPrice) (channel : PriceChannel) (outletId : Option ℕ)
    (asOf : ℤ) : Option ItemPrice :=
  (candidates.filter (·.eligible channel outletId asOf)).foldl better none

/-- The current price of an item or one of its variants, at an outlet or at none in particular. -/
def resolveCurrentPrice (m : Menu) (itemId : ℕ) (variantId : Option ℕ) (channel : PriceChannel)
    (outletId : Option ℕ) (asOf : ℤ) : Option ItemPrice :=
  pickCurrentPrice
    (m.itemPrices.filter fun row =>
      row.itemId = itemId ∧ row.variantId = variantId ∧ row.effectiveAt ≤ asOf)
    channel outletId asOf

/-! ### Whether an item can be had -/

/-- The outlet's override of an item, if it has a row. -/
def Menu.override (m : Menu) (outletId itemId : ℕ) : Option Bool :=
  (m.itemOutletOverrides.find? fun o => o.outletId = outletId ∧ o.itemId = itemId).map (·.available)

/-- The guest's menu: an outlet's override row, when present, is authoritative. -/
def resolveAvailability (m : Menu) (outletId : ℕ) (item : MenuItem) : Bool :=
  match m.override outletId item.id with
  | some available => available
  | none => item.available

def itemUnavailable : ApiError :=
  ⟨.badRequest, "item_unavailable", "This item is currently unavailable"⟩

/-- The cart and the till: the tenant's toggle and the outlet's override. -/
def assertItemAvailable (m : Menu) (outletId : ℕ) (item : MenuItem) : Except ApiError Unit := do
  check (item.available = true) itemUnavailable
  check (m.override outletId item.id ≠ some false) itemUnavailable

/-- The combos: the override wins over the tenant's toggle. -/
def itemAvailability (m : Menu) (outletId : ℕ) (item : MenuItem) : Bool :=
  (m.override outletId item.id).getD item.available

/-- An option is as available as its item. -/
def optionAvailable (m : Menu) (outletId : ℕ) (option : ComboSlotOption) : Bool :=
  (m.item option.itemId).any (itemAvailability m outletId)

def noSuchItem : ApiError := ⟨.badRequest, "validation_failed", "No such menu item"⟩

/-- What `loadItemForCartLine` and `loadItemForOrderLine` both do. -/
def loadItemForLine (m : Menu) (itemId : ℕ) : Except ApiError MenuItem := do
  let item ← orElseThrow noSuchItem (m.item itemId)
  check (item.archivedAt = none) noSuchItem
  pure item

def loadItemForCartLine : Menu → ℕ → Except ApiError MenuItem := loadItemForLine

def loadItemForOrderLine : Menu → ℕ → Except ApiError MenuItem := loadItemForLine

def assertVariantBelongsToItem (item : MenuItem) (variantId : Option ℕ) : Except ApiError Unit :=
  check (∀ v ∈ variantId, item.variants.any (·.id = v) = true)
    ⟨.badRequest, "validation_failed", "That variant does not belong to this item"⟩

/-! ### Modifiers -/

def ModifierGroup.selected (group : ModifierGroup) (modifierIds : List ℕ) : ℕ :=
  (group.modifierIds.filter (· ∈ modifierIds)).length

/-- Every group is held to its bounds, not only those that something was selected of. -/
def assertGroups (where' : String) (modifierIds : List ℕ) :
    List ModifierGroup → Except ApiError Unit
  | [] => .ok ()
  | group :: groups => do
      let selected := group.selected modifierIds
      let name := group.name
      let minimum := group.minSelections
      let maximum := group.maxSelections
      check (minimum ≤ selected ∧ selected ≤ maximum)
        ⟨.badRequest, "modifier_selection_invalid", "\"" ++ name ++ "\"" ++ where' ++
          s!" requires between {minimum} and {maximum} selection(s), got {selected}"⟩
      assertGroups where' modifierIds groups

def assertSelection (foreign where' : String) (item : MenuItem) (modifierIds : List ℕ) :
    Except ApiError Unit := do
  let valid := item.modifierGroups.flatMap (·.modifierIds)
  check (∀ id ∈ modifierIds, id ∈ valid) ⟨.badRequest, "validation_failed", foreign⟩
  assertGroups where' modifierIds item.modifierGroups

def assertModifierSelectionValid (item : MenuItem) (modifierIds : List ℕ) : Except ApiError Unit :=
  assertSelection "One or more modifiers do not belong to this item" "" item modifierIds

def assertComboModifiersValid (item : MenuItem) (modifierIds : List ℕ) : Except ApiError Unit :=
  assertSelection ("One or more modifiers do not belong to " ++ item.name) (" on " ++ item.name) item
    modifierIds

/-- The rows of the modifiers with the given ids, in the order of the table. -/
def Menu.modifiersIn (m : Menu) (modifierIds : List ℕ) : List Modifier :=
  m.modifiers.filter (·.id ∈ modifierIds)

def Menu.modifierPrice (m : Menu) (modifierId : ℕ) : ℕ :=
  ((m.modifiers.find? (·.id = modifierId)).map (·.priceMinor)).getD 0

/-! ### Combos -/

structure ComboOptionView where
  id : ℕ
  itemId : ℕ
  variantId : Option ℕ
  upchargeMinor : ℕ
  available : Bool
  deriving DecidableEq

structure ComboSlotView where
  id : ℕ
  name : String
  pickCount : ℕ
  options : List ComboOptionView
  deriving DecidableEq

structure ComboMenuView where
  id : ℕ
  name : String
  priceMinor : ℕ
  currency : String
  available : Bool
  slots : List ComboSlotView
  deriving DecidableEq

/-- A combo is off where its owner switched it off, or a slot has no available option left. -/
def toComboMenuView (combo : Combo) (isAvailable : ComboSlotOption → Bool) : ComboMenuView :=
  let slots : List ComboSlotView := combo.slots.map fun slot =>
    { id := slot.id, name := slot.name, pickCount := slot.pickCount
      options := slot.options.map fun o =>
        ⟨o.id, o.itemId, o.variantId, o.upchargeMinor, isAvailable o⟩ }
  { id := combo.id, name := combo.name, priceMinor := combo.priceMinor, currency := combo.currency
    available := combo.available && !slots.isEmpty && slots.all fun s => s.options.any (·.available)
    slots }

def listMenuCombos (m : Menu) (outletId : ℕ) : List ComboMenuView :=
  (m.combos.filter (·.archivedAt.isNone)).map (toComboMenuView · (optionAvailable m outletId))

/-- A pick as it is asked for. At placement its quantity is the outcome of a division. -/
structure ComboSelectionInput where
  optionId : ℕ
  quantity : Option ℚ
  modifierIds : Option (List ℕ)
  deriving DecidableEq

structure ComboPick where
  slot : ComboSlot
  option : ComboSlotOption
  quantity : ℚ
  modifierIds : List ℕ
  deriving DecidableEq

/-- One item of a combo, per one combo. -/
structure ResolvedComboChild where
  optionId : ℕ
  itemId : ℕ
  variantId : Option ℕ
  quantity : ℚ
  upchargeMinor : ℕ
  modifierIds : List ℕ
  deriving DecidableEq

def Combo.options (combo : Combo) : List (ComboSlot × ComboSlotOption) :=
  combo.slots.flatMap fun slot => slot.options.map fun option => (slot, option)

def toPick (combo : Combo) (s : ComboSelectionInput) : Except ApiError ComboPick := do
  let found ← orElseThrow
    ⟨.badRequest, "validation_failed", "That choice is not part of " ++ combo.name⟩
    (combo.options.find? (·.2.id = s.optionId))
  pure ⟨found.1, found.2, s.quantity.getD 1, s.modifierIds.getD []⟩

/-- A fixed slot that nothing was picked for is filled in. -/
def fillSlot (slot : ComboSlot) (picks : List ComboPick) : List ComboPick :=
  match slot.options with
  | [option] =>
      if picks.any (·.slot.id = slot.id) then picks else picks ++ [⟨slot, option, slot.pickCount, []⟩]
  | _ => picks

def slotCount (slot : ComboSlot) (picks : List ComboPick) : ℚ :=
  ((picks.filter (·.slot.id = slot.id)).map (·.quantity)).sum

/-- Every slot must add up to its count. -/
def fillSlots : List ComboSlot → List ComboPick → Except ApiError (List ComboPick)
  | [], picks => .ok picks
  | slot :: slots, picks => do
      let picks := fillSlot slot picks
      let count := slotCount slot picks
      let pickCount := slot.pickCount
      check (count = pickCount) ⟨.badRequest, "combo_selection_invalid",
        "\"" ++ slot.name ++ s!"\" needs {pickCount} choice(s), got {count}"⟩
      fillSlots slots picks

def nowUnavailable (name : String) : ApiError :=
  ⟨.badRequest, "item_unavailable", name ++ " is currently unavailable"⟩

def resolvePick (m : Menu) (outletId : ℕ) (pick : ComboPick) : Except ApiError ResolvedComboChild := do
  let item ← orElseThrow internalError (m.item pick.option.itemId)
  check (itemAvailability m outletId item = true) (nowUnavailable item.name)
  assertComboModifiersValid item pick.modifierIds
  pure ⟨pick.option.id, pick.option.itemId, pick.option.variantId, pick.quantity,
    pick.option.upchargeMinor, pick.modifierIds⟩

/-- Checks a combo pick against its slots and answers the child lines to write. -/
def resolveComboSelection (m : Menu) (outletId comboId : ℕ) (selections : List ComboSelectionInput) :
    Except ApiError (Combo × List ResolvedComboChild) := do
  let noSuchCombo : ApiError := ⟨.badRequest, "validation_failed", "No such combo"⟩
  let combo ← orElseThrow noSuchCombo (m.combo comboId)
  check (combo.archivedAt = none) noSuchCombo
  check ((toComboMenuView combo (optionAvailable m outletId)).available = true)
    (nowUnavailable combo.name)
  let picks ← selections.mapM (toPick combo)
  let picks ← fillSlots combo.slots picks
  let children ← picks.mapM (resolvePick m outletId)
  pure (combo, children)

/-! ### The guest's menu -/

structure MenuVariantView where
  id : ℕ
  name : String
  priceMinor : ℕ
  currency : String
  deriving DecidableEq

structure MenuItemView where
  id : ℕ
  name : String
  available : Bool
  price : Option (ℕ × String)
  variants : List MenuVariantView
  modifierGroups : List ModifierGroup
  deriving DecidableEq

/-- An unpriced variant is not offered at all. -/
def toVariantView (m : Menu) (outletId itemId : ℕ) (now : ℤ) (variant : ItemVariant) :
    Option MenuVariantView :=
  (resolveCurrentPrice m itemId (some variant.id) .qr outletId now).map fun price =>
    ⟨variant.id, variant.name, price.priceMinor, price.currency⟩

def toItemView (m : Menu) (outletId : ℕ) (now : ℤ) (item : MenuItem) : MenuItemView :=
  { id := item.id
    name := item.name
    available := resolveAvailability m outletId item
    price := if item.variants.isEmpty then
        (resolveCurrentPrice m item.id none .qr outletId now).map fun p => (p.priceMinor, p.currency)
      else none
    variants := item.variants.filterMap (toVariantView m outletId item.id now)
    modifierGroups := item.modifierGroups }

def isPurchasable (item : MenuItemView) : Bool := !item.variants.isEmpty || item.price.isSome

/-- The items on a guest's menu, and its combos. -/
def getMenu (m : Menu) (outletId : ℕ) (now : ℤ) : List MenuItemView × List ComboMenuView :=
  (((m.items.filter (·.archivedAt.isNone)).map (toItemView m outletId now)).filter isPurchasable,
    listMenuCombos m outletId)

/-! ### The owner's marks -/

def loadItem (m : Menu) (itemId : ℕ) : Except ApiError MenuItem := do
  let item ← orElseThrow ⟨.notFound, "not_found", "No such menu item"⟩ (m.item itemId)
  check (item.archivedAt = none) ⟨.notFound, "not_found", "No such menu item"⟩
  pure item

def Menu.updateItem (m : Menu) (itemId : ℕ) (f : MenuItem → MenuItem) : Menu :=
  { m with items := m.items.map fun item => if item.id = itemId then f item else item }

def setAvailability (m : Menu) (itemId : ℕ) (available : Bool) : Except ApiError (Menu × Unit) := do
  let _ ← loadItem m itemId
  pure (m.updateItem itemId fun item => { item with available }, ())

/-- An upsert on the item and the outlet. -/
def Menu.upsertOverride (m : Menu) (itemId outletId : ℕ) (available : Bool) : Menu :=
  if (m.override outletId itemId).isSome then
    { m with itemOutletOverrides := m.itemOutletOverrides.map fun o =>
        if o.itemId = itemId ∧ o.outletId = outletId then { o with available } else o }
  else { m with itemOutletOverrides := m.itemOutletOverrides ++ [⟨itemId, outletId, available⟩] }

def setOutletAvailability (m : Menu) (itemId outletId : ℕ) (available : Bool) :
    Except ApiError (Menu × Unit) := do
  let _ ← loadItem m itemId
  check (outletId ∈ m.outletIds) ⟨.badRequest, "validation_failed", "No such outlet"⟩
  pure (m.upsertOverride itemId outletId available, ())

def clearOutletAvailability (m : Menu) (itemId outletId : ℕ) : Except ApiError (Menu × Unit) := do
  let _ ← loadItem m itemId
  pure ({ m with itemOutletOverrides := m.itemOutletOverrides.filter fun o =>
    ¬ (o.itemId = itemId ∧ o.outletId = outletId) }, ())

/-- Deleting an item archives it: the row stays. -/
def archive (m : Menu) (itemId : ℕ) (now : ℤ) : Except ApiError (Menu × Unit) := do
  let _ ← loadItem m itemId
  pure (m.updateItem itemId fun item => { item with archivedAt := some now }, ())

end RestiqBackend.Catalogue
