import RestiqBackend.OrderLines
import RestiqBackend.TableCart

/-!
What the menu answers the till (`src/pos/orders/order-lines.service.ts`).

`addLine` and `addCombo` of an order read the menu in the middle of their transaction, which is
theirs to refuse or to price. This is that part of the two, on the rows of the menu.
-/

namespace RestiqBackend.TillMenu

open Catalogue TableCart
open Serial (orElseThrow)

/-- A counter order is priced for takeaway first. -/
def orderPriceChannels (tableId : Option ℕ) : List PriceChannel :=
  if tableId.isNone then [.takeaway, .dineIn] else [.dineIn]

/-- The selected modifiers, each at its current price. -/
def resolveModifierPrices (m : Menu) (modifierIds : List ℕ) : List (ℕ × ℕ) :=
  modifierIds.map fun id => (id, m.modifierPrice id)

/-- What `addLine` asks of the menu for an order's outlet and table. -/
def orderLine (m : Menu) (outletId : ℕ) (tableId : Option ℕ) (now : ℤ) (dto : AddOrderLineDto)
    (modifierIds : List ℕ) : Except ApiError PricedItem := do
  let item ← loadItemForOrderLine m dto.itemId
  assertItemAvailable m outletId item
  assertVariantBelongsToItem item dto.variantId
  assertModifierSelectionValid item modifierIds
  let price ← orElseThrow
    ⟨.badRequest, "no_price", "No current price is configured for this item"⟩
    ((orderPriceChannels tableId).findSome? fun channel =>
      resolveCurrentPrice m dto.itemId dto.variantId channel outletId now)
  pure ⟨price.priceMinor, resolveModifierPrices m modifierIds⟩

def comboChild (m : Menu) (child : ResolvedComboChild) : Except ApiError ComboChild := do
  let quantity ← wholeUnits child.quantity
  pure ⟨child.itemId, child.variantId, quantity,
    child.upchargeMinor, resolveModifierPrices m child.modifierIds⟩

/-- What `addCombo` asks of the menu. -/
def comboLine (m : Menu) (outletId comboId : ℕ) (selections : List ComboSelectionDto) :
    Except ApiError ComboSelection := do
  let (combo, children) ← resolveComboSelection m outletId comboId (selections.map (·.input))
  let children ← children.mapM (comboChild m)
  pure ⟨combo.priceMinor, children⟩

end RestiqBackend.TillMenu
