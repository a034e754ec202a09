import RestiqBackend.Availability
import RestiqBackend.LineEdits

/-!
The price that a menu shows and the price that is charged (`src/pos/menu/menu.service.ts`).

The till's menu shows the dine-in price, the guest's menu the one of the QR channel, and an item
with variants is sold as one of them. A line of the till's takes the price of the kind of its
order: a counter order asks for the takeaway price first. A line from a cart takes the QR price
of what the line names, also where an item that has variants is named without one.
-/

namespace RestiqBackend.PosMenu

open Catalogue
open Serial (check_of)

/-! ### The till's menu -/

def menuPriceChannel : PriceChannel := .dineIn

def defaultCurrency : String := "INR"

structure MenuVariantView where
  id : ℕ
  name : String
  priceMinor : ℕ
  deriving DecidableEq

structure MenuItemView where
  id : ℕ
  name : String
  available : Bool
  priceMinor : Option ℕ
  variants : List MenuVariantView
  modifierGroups : List ModifierGroup
  deriving DecidableEq

structure MenuView where
  items : List MenuItemView
  combos : List ComboMenuView
  currency : String
  deriving DecidableEq

structure Pricing where
  priceMinor : Option ℕ
  variants : List MenuVariantView
  currency : Option String
  deriving DecidableEq

def priceOf (m : Menu) (outletId : ℕ) (now : ℤ) (itemId : ℕ) (variantId : Option ℕ) :
    Option ItemPrice :=
  resolveCurrentPrice m itemId variantId menuPriceChannel outletId now

def toVariantView (m : Menu) (outletId : ℕ) (now : ℤ) (itemId : ℕ) (variant : ItemVariant) :
    Option (MenuVariantView × String) :=
  (priceOf m outletId now itemId (some variant.id)).map fun price =>
    (⟨variant.id, variant.name, price.priceMinor⟩, price.currency)

/-- A variant without a current price is left out. -/
def resolvePricing (m : Menu) (outletId : ℕ) (now : ℤ) (item : MenuItem) : Pricing :=
  if item.variants.isEmpty then
    let price := priceOf m outletId now item.id none
    ⟨price.map (·.priceMinor), [], price.map (·.currency)⟩
  else
    let variants := item.variants.filterMap (toVariantView m outletId now item.id)
    ⟨none, variants.map (·.1), variants.getLast?.map (·.2)⟩

def hasPurchasablePrice (m : Menu) (outletId : ℕ) (now : ℤ) (item : MenuItem) : Bool :=
  let pricing := resolvePricing m outletId now item
  if item.variants.isEmpty then pricing.priceMinor.isSome else !pricing.variants.isEmpty

def toItemView (m : Menu) (outletId : ℕ) (now : ℤ) (item : MenuItem) : MenuItemView :=
  let pricing := resolvePricing m outletId now item
  { id := item.id
    name := item.name
    available := (m.override outletId item.id).getD item.available
    priceMinor := pricing.priceMinor
    variants := pricing.variants
    modifierGroups := item.modifierGroups }

/-- An item that has nothing to sell is left out. The currency is that of the last item that has
a price. -/
def getMenu (m : Menu) (outletId : ℕ) (now : ℤ) : MenuView :=
  let items := m.items.filter (·.archivedAt.isNone)
  { items := (items.filter (hasPurchasablePrice m outletId now)).map (toItemView m outletId now)
    combos := listMenuCombos m outletId
    currency := (items.filterMap fun item =>
      (resolvePricing m outletId now item).currency).getLast?.getD defaultCurrency }

/-! ### What a menu offers -/

/-- The till's menu has the item at a price, or one of its variants. -/
def TillOffers (m : Menu) (outletId : ℕ) (now : ℤ) (itemId : ℕ) (variantId : Option ℕ)
    (priceMinor : ℕ) : Prop :=
  ∃ view ∈ (getMenu m outletId now).items, view.id = itemId ∧
    match variantId with
    | none => view.priceMinor = some priceMinor
    | some v => ∃ variant ∈ view.variants, variant.id = v ∧ variant.priceMinor = priceMinor

/-- So does the guest's. -/
def GuestOffers (m : Menu) (outletId : ℕ) (now : ℤ) (itemId : ℕ) (variantId : Option ℕ)
    (priceMinor : ℕ) : Prop :=
  ∃ view ∈ (Catalogue.getMenu m outletId now).1, view.id = itemId ∧
    match variantId with
    | none => ∃ currency, view.price = some (priceMinor, currency)
    | some v => ∃ variant ∈ view.variants, variant.id = v ∧ variant.priceMinor = priceMinor

variable {m : Menu} {outletId : ℕ} {now : ℤ} {item : MenuItem} {variantId : Option ℕ}
  {priceMinor : ℕ}

/-- What can be asked for of an item: the item, or one of its variants. -/
def Asked (item : MenuItem) (variantId : Option ℕ) : Prop :=
  ∀ v ∈ variantId, ∃ variant ∈ item.variants, variant.id = v

/-- An item that has variants is not asked for without one. -/
def Whole (item : MenuItem) (variantId : Option ℕ) : Prop :=
  variantId = none → item.variants = []

/-- Of an item a menu has one view, where it has any. -/
theorem exists_view_iff {β : Type} (ok : MenuItem → Bool) (view : MenuItem → β) (idOf : β → ℕ)
    (hpkey : (m.items.map (·.id)).Nodup) (hitem : item ∈ m.items) (hlive : item.archivedAt = none)
    (hid : ∀ x, idOf (view x) = x.id) (P : β → Prop) :
    (∃ y ∈ ((m.items.filter (·.archivedAt.isNone)).filter ok).map view, idOf y = item.id ∧ P y) ↔
      ok item = true ∧ P (view item) := by
  constructor
  · rintro ⟨y, hy, hyid, hP⟩
    obtain ⟨x, hx, rfl⟩ := List.mem_map.mp hy
    obtain ⟨hx, hok⟩ := List.mem_filter.mp hx
    have hsame : x = item :=
      List.inj_on_of_nodup_map hpkey (List.mem_filter.mp hx).1 hitem ((hid x).symm.trans hyid)
    subst hsame
    exact ⟨hok, hP⟩
  · rintro ⟨hok, hP⟩
    have hmem : item ∈ m.items.filter (·.archivedAt.isNone) :=
      List.mem_filter.mpr ⟨hitem, by rw [hlive]; rfl⟩
    exact ⟨view item, List.mem_map_of_mem (List.mem_filter.mpr ⟨hmem, hok⟩), hid item, hP⟩

/-! ### The till's menu offers what has a dine-in price -/

theorem resolvePricing_of_none (h : item.variants = []) :
    resolvePricing m outletId now item = ⟨(priceOf m outletId now item.id none).map (·.priceMinor),
      [], (priceOf m outletId now item.id none).map (·.currency)⟩ := by
  rw [resolvePricing, if_pos (List.isEmpty_iff.mpr h)]

theorem resolvePricing_of_some (h : item.variants ≠ []) :
    (resolvePricing m outletId now item).priceMinor = none ∧
      (resolvePricing m outletId now item).variants =
        (item.variants.filterMap (toVariantView m outletId now item.id)).map (·.1) := by
  rw [resolvePricing, if_neg fun hempty => h (List.isEmpty_iff.mp hempty)]
  exact ⟨rfl, rfl⟩

theorem priceMinor_eq_some : (resolvePricing m outletId now item).priceMinor = some priceMinor ↔
    item.variants = [] ∧ ∃ price, priceOf m outletId now item.id none = some price ∧
      price.priceMinor = priceMinor := by
  by_cases h : item.variants = []
  · rw [resolvePricing_of_none h, Option.map_eq_some_iff]
    exact (and_iff_right h).symm
  · rw [(resolvePricing_of_some h).1]
    exact iff_of_false (fun hnone => nomatch hnone) fun hitem => h hitem.1

theorem mem_variants {v : ℕ} : (∃ variant ∈ (resolvePricing m outletId now item).variants,
      variant.id = v ∧ variant.priceMinor = priceMinor) ↔
    (∃ variant ∈ item.variants, variant.id = v) ∧
      ∃ price, priceOf m outletId now item.id (some v) = some price ∧
        price.priceMinor = priceMinor := by
  by_cases h : item.variants = []
  · rw [resolvePricing_of_none h, h]
    simp
  · rw [(resolvePricing_of_some h).2]
    constructor
    · rintro ⟨view, hview, hid, hminor⟩
      obtain ⟨pair, hpair, rfl⟩ := List.mem_map.mp hview
      obtain ⟨variant, hvariant, hpriced⟩ := List.mem_filterMap.mp hpair
      obtain ⟨price, hprice, rfl⟩ := Option.map_eq_some_iff.mp hpriced
      cases hid
      exact ⟨⟨variant, hvariant, rfl⟩, price, hprice, hminor⟩
    · rintro ⟨⟨variant, hvariant, rfl⟩, price, hprice, rfl⟩
      refine ⟨⟨variant.id, variant.name, price.priceMinor⟩, ?_, rfl, rfl⟩
      refine List.mem_map.mpr ⟨(_, price.currency), List.mem_filterMap.mpr ⟨variant, hvariant, ?_⟩,
        rfl⟩
      rw [toVariantView, hprice]
      rfl

theorem hasPurchasablePrice_iff : hasPurchasablePrice m outletId now item = true ↔
    (∃ p, (resolvePricing m outletId now item).priceMinor = some p) ∨
      ∃ variant, variant ∈ (resolvePricing m outletId now item).variants := by
  rw [hasPurchasablePrice]
  by_cases h : item.variants = []
  · rw [if_pos (List.isEmpty_iff.mpr h), resolvePricing_of_none h, Option.isSome_iff_exists]
    exact (or_iff_left_of_imp fun ⟨_, hmem⟩ => absurd hmem List.not_mem_nil).symm
  · rw [if_neg fun hempty => h (List.isEmpty_iff.mp hempty), (resolvePricing_of_some h).1,
      Bool.not_eq_true', List.isEmpty_eq_false_iff_exists_mem]
    exact (or_iff_right_of_imp fun ⟨_, hnone⟩ => nomatch hnone).symm

theorem tillOffers_iff (hpkey : (m.items.map (·.id)).Nodup) (hitem : item ∈ m.items)
    (hlive : item.archivedAt = none) (hasked : Asked item variantId) :
    TillOffers m outletId now item.id variantId priceMinor ↔ Whole item variantId ∧
      ∃ price, priceOf m outletId now item.id variantId = some price ∧
        price.priceMinor = priceMinor := by
  refine (exists_view_iff (hasPurchasablePrice m outletId now) (toItemView m outletId now)
    (·.id) hpkey hitem hlive (fun _ => rfl) _).trans ?_
  cases variantId with
  | none =>
      refine (and_iff_right_of_imp fun h => hasPurchasablePrice_iff.mpr (.inl ⟨_, h⟩)).trans ?_
      refine priceMinor_eq_some.trans (and_congr_left' ?_)
      exact ⟨fun h _ => h, fun h => h rfl⟩
  | some v =>
      refine (and_iff_right_of_imp ?_).trans ?_
      · rintro ⟨variant, hvariant, -⟩
        exact hasPurchasablePrice_iff.mpr (.inr ⟨variant, hvariant⟩)
      · refine mem_variants.trans (and_congr_left' ?_)
        exact iff_of_true (hasked v rfl) fun h => nomatch h

/-! ### The guest's menu offers what has a price for the QR channel -/

theorem guest_price_eq_some : (∃ currency,
      (Catalogue.toItemView m outletId now item).price = some (priceMinor, currency)) ↔
    item.variants = [] ∧ ∃ price, resolveCurrentPrice m item.id none .qr outletId now = some price ∧
      price.priceMinor = priceMinor := by
  by_cases h : item.variants = []
  · simp only [Catalogue.toItemView, h, List.isEmpty_nil, if_true, Option.map_eq_some_iff,
      Prod.mk.injEq, true_and]
    constructor
    · rintro ⟨_, price, hprice, hminor, -⟩
      exact ⟨price, hprice, hminor⟩
    · rintro ⟨price, hprice, hminor⟩
      exact ⟨_, price, hprice, hminor, rfl⟩
  · refine iff_of_false ?_ fun hitem => h hitem.1
    rintro ⟨currency, hprice⟩
    rw [Catalogue.toItemView, if_neg fun hempty => h (List.isEmpty_iff.mp hempty)] at hprice
    cases hprice

theorem mem_guest_variants {v : ℕ} :
    (∃ variant ∈ (Catalogue.toItemView m outletId now item).variants,
      variant.id = v ∧ variant.priceMinor = priceMinor) ↔
    (∃ variant ∈ item.variants, variant.id = v) ∧
      ∃ price, resolveCurrentPrice m item.id (some v) .qr outletId now = some price ∧
        price.priceMinor = priceMinor := by
  constructor
  · rintro ⟨view, hview, hid, hminor⟩
    obtain ⟨variant, hvariant, hpriced⟩ := List.mem_filterMap.mp hview
    obtain ⟨price, hprice, rfl⟩ := Option.map_eq_some_iff.mp hpriced
    cases hid
    exact ⟨⟨variant, hvariant, rfl⟩, price, hprice, hminor⟩
  · rintro ⟨⟨variant, hvariant, rfl⟩, price, hprice, hminor⟩
    refine ⟨⟨variant.id, variant.name, price.priceMinor, price.currency⟩,
      List.mem_filterMap.mpr ⟨variant, hvariant, ?_⟩, rfl, hminor⟩
    rw [Catalogue.toVariantView, hprice]
    rfl

theorem guestOffers_iff (hpkey : (m.items.map (·.id)).Nodup) (hitem : item ∈ m.items)
    (hlive : item.archivedAt = none) (hasked : Asked item variantId) :
    GuestOffers m outletId now item.id variantId priceMinor ↔ Whole item variantId ∧
      ∃ price, resolveCurrentPrice m item.id variantId .qr outletId now = some price ∧
        price.priceMinor = priceMinor := by
  unfold GuestOffers Catalogue.getMenu
  rw [List.filter_map]
  refine (exists_view_iff _ (Catalogue.toItemView m outletId now) (·.id) hpkey hitem hlive
    (fun _ => rfl) _).trans ?_
  cases variantId with
  | none =>
      refine (and_iff_right_of_imp ?_).trans ?_
      · rintro ⟨currency, hprice⟩
        simp [isPurchasable, hprice]
      · refine guest_price_eq_some.trans (and_congr_left' ?_)
        exact ⟨fun h _ => h, fun h => h rfl⟩
  | some v =>
      refine (and_iff_right_of_imp ?_).trans ?_
      · rintro ⟨variant, hvariant, -⟩
        have hne := List.isEmpty_eq_false_iff_exists_mem.mpr ⟨variant, hvariant⟩
        simp [isPurchasable, hne]
      · refine mem_guest_variants.trans (and_congr_left' ?_)
        exact iff_of_true (hasked v rfl) fun h => nomatch h

/-! ### What is charged -/

open TableCart Availability

variable {tableId : Option ℕ} {dto : AddOrderLineDto} {modifierIds : List ℕ} {line : CartLine}

/-- The current price for an order at a table, or at the counter. -/
def tillPrice (m : Menu) (outletId : ℕ) (tableId : Option ℕ) (now : ℤ) (itemId : ℕ)
    (variantId : Option ℕ) : Option ItemPrice :=
  (TillMenu.orderPriceChannels tableId).findSome? fun channel =>
    resolveCurrentPrice m itemId variantId channel outletId now

theorem tillPrice_table (table : ℕ) : tillPrice m outletId (some table) now item.id variantId =
    priceOf m outletId now item.id variantId := by
  rw [tillPrice, priceOf, TillMenu.orderPriceChannels, menuPriceChannel]
  simp only [Option.isNone_some, Bool.false_eq_true, if_false, List.findSome?_cons,
    List.findSome?_nil]
  cases resolveCurrentPrice m item.id variantId .dineIn outletId now <;> rfl

theorem tillPrice_counter : tillPrice m outletId none now item.id variantId =
    (resolveCurrentPrice m item.id variantId .takeaway outletId now).or
      (priceOf m outletId now item.id variantId) := by
  rw [tillPrice, priceOf, TillMenu.orderPriceChannels, menuPriceChannel]
  simp only [Option.isNone_none, if_true, List.findSome?_cons, List.findSome?_nil]
  cases resolveCurrentPrice m item.id variantId .takeaway outletId now <;>
    cases resolveCurrentPrice m item.id variantId .dineIn outletId now <;> rfl

/-- A request that is refused nowhere else gets the current price. -/
theorem orderLine_iff (hitem : m.item dto.itemId = some item) (hlive : item.archivedAt = none)
    (havailable : assertItemAvailable m outletId item = .ok ())
    (hasked : Asked item dto.variantId)
    (hmodifiers : assertModifierSelectionValid item modifierIds = .ok ()) :
    (∃ priced, TillMenu.orderLine m outletId tableId now dto modifierIds = .ok priced ∧
      priced.priceMinor = priceMinor) ↔
    ∃ price, tillPrice m outletId tableId now item.id dto.variantId = some price ∧
      price.priceMinor = priceMinor := by
  have hid := (item_mem hitem).2
  have hvariant : assertVariantBelongsToItem item dto.variantId = .ok () := by
    refine check_of fun v hv => List.any_eq_true.mpr ?_
    obtain ⟨variant, hmem, hvid⟩ := hasked v hv
    exact ⟨variant, hmem, decide_eq_true hvid⟩
  have hload : loadItemForOrderLine m dto.itemId = .ok item := loadItemForLine_ok.mpr ⟨hitem, hlive⟩
  unfold TillMenu.orderLine
  rw [Serial.bind_of_ok hload, Serial.bind_of_ok havailable, Serial.bind_of_ok hvariant,
    Serial.bind_of_ok hmodifiers, hid, ← tillPrice]
  cases tillPrice m outletId tableId now dto.itemId dto.variantId with
  | none =>
      refine iff_of_false ?_ fun ⟨_, hnone, _⟩ => nomatch hnone
      rintro ⟨priced, herror, -⟩
      cases herror
  | some price =>
      constructor
      · rintro ⟨priced, hok, hminor⟩
        cases hok
        exact ⟨price, rfl, hminor⟩
      · rintro ⟨price', hprice, hminor⟩
        cases hprice
        exact ⟨_, rfl, hminor⟩

/-- A row of the store that a line's modifiers do not tell apart. -/
theorem commits_createLine_has {v : Store} {x : OrderLine} {modifiers : List OrderLineModifier}
    {P : OrderLine → Prop} (hmodifiers : ∀ y rows, P y → P { y with modifiers := rows })
    (hx : v.lines.any (·.id = x.id) = false → P x) :
    (createLine x modifiers).commits (fun _ v' => ∃ y ∈ v'.lines, P y) v := by
  simp only [createLine, ReadCommitted.Txn.commits, ReadCommitted.Txn.wlp_bind]
  refine commits_insertRow fun hfree => ?_
  refine ReadCommitted.Txn.wlp_forEach (fun modifier _ v₁ hv₁ => ?_)
    ⟨x, List.mem_append_right _ (List.mem_singleton_self x), hx hfree⟩
  simp only [ReadCommitted.Txn.wlp_exec, ReadCommitted.applyAll_cons, ReadCommitted.applyAll_nil,
    writeTo_apply]
  intro _ _
  obtain ⟨y, hy, hPy⟩ := hv₁
  by_cases hid : y.id = x.id
  · exact ⟨{ y with modifiers := y.modifiers ++ [modifier] },
      mem_updateRows.mpr (.inr ⟨y, hy, hid, rfl⟩), hmodifiers y _ hPy⟩
  · exact ⟨y, mem_updateRows.mpr (.inl ⟨hy, hid⟩), hPy⟩

/-- The line that is added has the price that the menu answers. -/
theorem addLine_snapshots {v : Store} (staff : PosPrincipal) (name : String)
    (menu : Except ApiError PricedItem) :
    (RestiqBackend.addLine staff name dto menu).commits (fun _ v' => ∃ priced, menu = .ok priced ∧
      ∃ x ∈ v'.lines, x.id ∉ v.lines.map (·.id) ∧ x.itemId = some dto.itemId ∧
        x.variantId = dto.variantId ∧ x.unitPriceMinor = priced.priceMinor) v := by
  simp only [RestiqBackend.addLine, ReadCommitted.Txn.commits, ReadCommitted.Txn.wlp_bind,
    ReadCommitted.Txn.wlp_uuid]
  refine commits_loadOpenOrder fun _ => commits_ofExcept fun priced hpriced env _ => ?_
  refine ReadCommitted.Txn.wlp_mono (commits_createLine_has (P := fun x =>
    x.id ∉ v.lines.map OrderLine.id ∧ x.itemId = some dto.itemId ∧ x.variantId = dto.variantId ∧
      x.unitPriceMinor = priced.priceMinor) (fun _ _ hx => hx) fun hfree => ?_)
    fun _ v' hx => ⟨priced, hpriced, hx⟩
  refine ⟨fun hmem => ?_, rfl, rfl, rfl⟩
  obtain ⟨y, hy, hid⟩ := List.mem_map.mp hmem
  exact absurd (decide_eq_true hid) (by simpa using List.any_eq_false.mp hfree y hy)

/-- The line that an order gets for a line of the cart has the price of that. -/
theorem placeOrder_snapshots {w w' : World} {guest : TableCart.GuestPrincipal}
    {found : Option TableSession} {ctx : PlacementContext} {ids : ℕ → ℕ} {order : PlacedOrder}
    (h : TableCart.placeOrder w guest found now ctx ids = .ok (w', order))
    (hline : line ∈ sessionLines w.cartLines guest.sessionId) (hcombo : line.comboId = none) :
    ∃ x ∈ order.lines, PlacedLine line x ∧ x.itemId = line.itemId ∧
      x.variantId = line.variantId ∧
      ∃ price, unitPrice w.menu guest.outletId now line = some price ∧
        x.unitPriceMinor = price.priceMinor := by
  obtain ⟨blocks, hlines, hblocks⟩ := (placeOrder_ok h).blocks
  obtain ⟨block, hblock, hplaced⟩ := Serial.exists_right hblocks hline
  cases hplaced with
  | item _ hx hitem hvariant hprice hunit _ =>
      refine ⟨_, ?_, hx, hitem, hvariant, _, hprice, hunit⟩
      rw [hlines]
      exact List.mem_flatten.mpr ⟨_, hblock, List.mem_singleton_self _⟩
  | combo hcombo' =>
      rw [hcombo] at hcombo'
      cases hcombo'

/-! ### Where the two agree -/

/-- A request of the till's for an item or a variant gets the price that the till's menu shows,
and a line of the cart the one that the guest's menu shows; what a menu does not show has no
price. -/
structure AsShown (m : Menu) (outletId : ℕ) (tableId : Option ℕ) (now : ℤ) (item : MenuItem)
    (dto : AddOrderLineDto) (modifierIds : List ℕ) (line : CartLine) : Prop where
  till : Whole item dto.variantId → ∀ priceMinor,
    TillOffers m outletId now item.id dto.variantId priceMinor ↔
      ∃ priced, TillMenu.orderLine m outletId tableId now dto modifierIds = .ok priced ∧
        priced.priceMinor = priceMinor
  tillLine : ∀ (v : Store) (staff : PosPrincipal) (name : String),
    (RestiqBackend.addLine staff name dto
      (TillMenu.orderLine m outletId tableId now dto modifierIds)).commits (fun _ v' =>
        ∃ priced, TillMenu.orderLine m outletId tableId now dto modifierIds = .ok priced ∧
          ∃ x ∈ v'.lines, x.id ∉ v.lines.map (·.id) ∧ x.itemId = some dto.itemId ∧
            x.variantId = dto.variantId ∧ x.unitPriceMinor = priced.priceMinor) v
  guest : ∀ priceMinor, GuestOffers m outletId now item.id dto.variantId priceMinor ↔
    ∃ price, unitPrice m outletId now line = some price ∧ price.priceMinor = priceMinor
  guestLine : ∀ (w w' : World) (guest : TableCart.GuestPrincipal) (found : Option TableSession)
    (ctx : PlacementContext) (ids : ℕ → ℕ) (order : PlacedOrder),
    w.menu = m → guest.outletId = outletId → line ∈ sessionLines w.cartLines guest.sessionId →
    TableCart.placeOrder w guest found now ctx ids = .ok (w', order) →
    ∃ x ∈ order.lines, PlacedLine line x ∧ x.itemId = line.itemId ∧
      x.variantId = line.variantId ∧
      ∃ price, unitPrice m outletId now line = some price ∧ x.unitPriceMinor = price.priceMinor

/-- At the counter a takeaway price is not another one than for dine-in, and an item that has
variants has no price of its own for the QR channel where it is asked for without one. -/
structure OnePrice (m : Menu) (outletId : ℕ) (tableId : Option ℕ) (now : ℤ) (item : MenuItem)
    (variantId : Option ℕ) : Prop where
  counter : tableId = none → Whole item variantId → ∀ takeaway,
    resolveCurrentPrice m item.id variantId .takeaway outletId now = some takeaway →
    ∃ dineIn, resolveCurrentPrice m item.id variantId .dineIn outletId now = some dineIn ∧
      dineIn.priceMinor = takeaway.priceMinor
  base : ¬ Whole item variantId →
    resolveCurrentPrice m item.id variantId .qr outletId now = none

/-- The menus show the price that is charged exactly where `OnePrice` holds. -/
theorem menu_shows_charged_price_iff (hpkey : (m.items.map (·.id)).Nodup)
    (hitem : m.item dto.itemId = some item) (hlive : item.archivedAt = none)
    (havailable : assertItemAvailable m outletId item = .ok ())
    (hasked : Asked item dto.variantId)
    (hmodifiers : assertModifierSelectionValid item modifierIds = .ok ())
    (hcombo : line.comboId = none) (hlineItem : line.itemId = some item.id)
    (hlineVariant : line.variantId = dto.variantId) :
    AsShown m outletId tableId now item dto modifierIds line ↔
      OnePrice m outletId tableId now item dto.variantId := by
  have hmem := (item_mem hitem).1
  have htill : ∀ priceMinor, TillOffers m outletId now item.id dto.variantId priceMinor ↔
      Whole item dto.variantId ∧ ∃ price, priceOf m outletId now item.id dto.variantId = some price ∧
        price.priceMinor = priceMinor := fun _ => tillOffers_iff hpkey hmem hlive hasked
  have hguest : ∀ priceMinor, GuestOffers m outletId now item.id dto.variantId priceMinor ↔
      Whole item dto.variantId ∧ ∃ price,
        resolveCurrentPrice m item.id dto.variantId .qr outletId now = some price ∧
        price.priceMinor = priceMinor := fun _ => guestOffers_iff hpkey hmem hlive hasked
  have hunit : unitPrice m outletId now line =
      resolveCurrentPrice m item.id dto.variantId .qr outletId now := by
    rw [unitPrice, hlineItem, hlineVariant]
    rfl
  have horder : ∀ priceMinor,
      (∃ priced, TillMenu.orderLine m outletId tableId now dto modifierIds = .ok priced ∧
        priced.priceMinor = priceMinor) ↔
      ∃ price, tillPrice m outletId tableId now item.id dto.variantId = some price ∧
        price.priceMinor = priceMinor :=
    fun _ => orderLine_iff hitem hlive havailable hasked hmodifiers
  constructor
  · intro h
    constructor
    · rintro rfl hwhole takeaway htakeaway
      have hprice : ∃ price, tillPrice m outletId none now item.id dto.variantId = some price ∧
          price.priceMinor = takeaway.priceMinor :=
        ⟨takeaway, by rw [tillPrice_counter, htakeaway]; rfl, rfl⟩
      exact ((htill _).mp ((h.till hwhole _).mpr ((horder _).mpr hprice))).2
    · intro hnot
      rw [Option.eq_none_iff_forall_ne_some]
      intro price hprice
      have hoffers := (h.guest price.priceMinor).mpr ⟨price, hunit.trans hprice, rfl⟩
      exact hnot ((hguest _).mp hoffers).1
  · intro h
    refine ⟨fun hwhole priceMinor => ?_, fun v staff name => addLine_snapshots staff name _,
      fun priceMinor => ?_, ?_⟩
    · rw [htill, horder, and_iff_right hwhole]
      cases htable : tableId with
      | some table => rw [tillPrice_table]
      | none =>
          rw [tillPrice_counter]
          cases htakeaway : resolveCurrentPrice m item.id dto.variantId .takeaway outletId now with
          | none => rw [Option.none_or]
          | some takeaway =>
              obtain ⟨dineIn, hdineIn, hsame⟩ := h.counter htable hwhole takeaway htakeaway
              rw [priceOf, menuPriceChannel, hdineIn]
              simp [hsame]
    · rw [hguest, hunit]
      refine and_iff_right_of_imp fun ⟨price, hprice, _⟩ => ?_
      by_contra hnot
      rw [h.base hnot] at hprice
      cases hprice
    · rintro w w' guest found ctx ids order rfl rfl hline hplaced
      exact placeOrder_snapshots hplaced hline hcombo

/-- An item with a takeaway price, and one that has a variant without a price. -/
def counterMenu : Menu :=
  { outletIds := [1]
    items := [⟨1, "Dosa", true, none, [], []⟩, ⟨2, "Idli", true, none, [⟨3, "Plate"⟩], []⟩]
    modifiers := []
    itemPrices := [⟨1, none, none, none, 80, "INR", 0, 0⟩,
      ⟨1, none, none, some .takeaway, 70, "INR", 0, 0⟩, ⟨2, none, none, none, 40, "INR", 0, 0⟩]
    itemOutletOverrides := [], combos := [] }

def asked (itemId : ℕ) : AddOrderLineDto := ⟨itemId, none, 1, none, Nat.one_pos⟩

def inCart (itemId : ℕ) : CartLine :=
  ⟨1, 1, 1, "Asha", some itemId, none, none, none, none, 1, none, []⟩

/-- At the counter the dosa is shown at 80 and charged at 70. -/
theorem menu_shows_another_price :
    (∃ priced, TillMenu.orderLine counterMenu 1 none 10 (asked 1) [] = .ok priced ∧
      priced.priceMinor = 70) ∧
    TillOffers counterMenu 1 10 1 none 80 ∧
    ¬ AsShown counterMenu 1 none 10 ⟨1, "Dosa", true, none, [], []⟩ (asked 1) [] (inCart 1) := by
  have hcharged : ∃ priced, TillMenu.orderLine counterMenu 1 none 10 (asked 1) [] = .ok priced ∧
      priced.priceMinor = 70 := ⟨⟨70, []⟩, rfl, rfl⟩
  have hdosa : ⟨1, "Dosa", true, none, [], []⟩ ∈ counterMenu.items := by decide
  have hoffers : ∀ priceMinor, TillOffers counterMenu 1 10 1 none priceMinor ↔ _ := fun priceMinor =>
    tillOffers_iff (by decide) hdosa rfl fun _ h => nomatch h
  refine ⟨hcharged, (hoffers 80).mpr ⟨fun _ => rfl, ?_⟩, fun h => ?_⟩
  · exact ⟨⟨1, none, none, none, 80, "INR", 0, 0⟩, by decide, rfl⟩
  · have hshown : TillOffers counterMenu 1 10 1 none 70 := (h.till (fun _ => rfl) 70).mpr hcharged
    obtain ⟨-, price, hprice, hminor⟩ := (hoffers 70).mp hshown
    have heq : priceOf counterMenu 1 10 1 none = some ⟨1, none, none, none, 80, "INR", 0, 0⟩ := by
      decide
    rw [heq, Option.some_inj] at hprice
    subst hprice
    cases hminor

theorem menu_shows_charged_price_iff_sample :
    AsShown counterMenu 1 (some 5) 10 ⟨1, "Dosa", true, none, [], []⟩ (asked 1) [] (inCart 1) := by
  refine (menu_shows_charged_price_iff (by decide) (by decide) rfl (by decide) ?_ (by decide) rfl
    rfl rfl).mpr ⟨?_, ?_⟩
  · exact fun _ h => nomatch h
  · exact fun h => nomatch h
  · exact fun h => absurd (fun _ => rfl) h

end RestiqBackend.PosMenu
