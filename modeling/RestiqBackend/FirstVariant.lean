import RestiqBackend.Encoding.Text
import RestiqBackend.Repricing

/-!
The first variant of an item (`src/admin/menu/items.service.ts`, `prices.service.ts`).

An item with variants is sold by them alone. Its first variant would take what was sold before off
the menu, so that becomes a variant too, the base portion, and gets a copy of every base price with
the times it had. A copy is eligible where its row is and is ranked as its row is, so the base
portion has the price at every instant that the item had.
-/

namespace RestiqBackend.FirstVariant

open Catalogue Prices Repricing
open Serial (check check_ok orElseThrow_ok)

structure CreateVariantDto where
  name : String
  priceMinor : Option ℕ
  currency : Option String
  basePortionName : Option String

def defaultBasePortionName : String := "Regular"

/-- The name of the base portion; one that is blank is none. -/
def CreateVariantDto.baseName (dto : CreateVariantDto) : String :=
  let trimmed := String.ofList (Text.trim ((dto.basePortionName.map (·.toList)).getD []))
  if trimmed = "" then defaultBasePortionName else trimmed

/-- A variant's name is unique on its item, and its identifier everywhere. -/
def createItemVariant (m : Menu) (itemId : ℕ) (variant : ItemVariant) : Except ApiError Menu := do
  check ((∀ item ∈ m.items, ∀ v ∈ item.variants, v.id ≠ variant.id) ∧
      ∀ item ∈ m.items, item.id = itemId → ∀ v ∈ item.variants, v.name ≠ variant.name)
    ⟨.conflict, "conflict", "A variant with this name already exists on this item"⟩
  pure (m.updateItem itemId fun item => { item with variants := item.variants ++ [variant] })

/-- A row as the base portion's own. -/
def copied (variantId : ℕ) (row : ItemPrice) : ItemPrice := { row with variantId := some variantId }

def copyBasePricesToVariant (m : Menu) (itemId variantId : ℕ) : Menu :=
  { m with itemPrices := m.itemPrices ++ (rowsOf m itemId none).map (copied variantId) }

/-- A variant is created with its price, where one is given. -/
def createVariant (m : Menu) (itemId : ℕ) (dto : CreateVariantDto) (id : ℕ) (now : ℤ) :
    Except ApiError Menu := do
  let m ← createItemVariant m itemId ⟨id, dto.name⟩
  match dto.priceMinor, dto.currency with
  | some priceMinor, some currency =>
      if currency = "" then pure m
      else pure (insertPrice m itemId ⟨some id, none, none, priceMinor, currency, none⟩ now).1
  | _, _ => pure m

/-- What an item was sold at before its first variant is kept as its base portion. -/
def keepBasePortion (m : Menu) (item : MenuItem) (dto : CreateVariantDto) (baseId : ℕ) :
    Except ApiError Menu :=
  if item.variants = [] ∧ rowsOf m item.id none ≠ [] then do
    let m ← createItemVariant m item.id ⟨baseId, dto.baseName⟩
    pure (copyBasePricesToVariant m item.id baseId)
  else .ok m

/-- `baseId` and `id` are the identifiers that are drawn for the two variants. -/
def addVariant (m : Menu) (itemId : ℕ) (dto : CreateVariantDto) (baseId id : ℕ) (now : ℤ) :
    Except ApiError Menu := do
  let existing ← loadItem m itemId
  let m ← keepBasePortion m existing dto baseId
  createVariant m itemId dto id now

/-! ### A copy is picked where its row is -/

variable {m m' : Menu} {itemId baseId id : ℕ} {dto : CreateVariantDto} {now : ℤ} {item : MenuItem}
  {channel : PriceChannel} {outletId : Option ℕ} {asOf : ℤ}

theorem copied_better (best : Option ItemPrice) (row : ItemPrice) :
    better (best.map (copied baseId)) (copied baseId row) =
      (better best row).map (copied baseId) := by
  cases best with
  | none => rfl
  | some b =>
      have hbeats : (copied baseId row).beats (copied baseId b) = row.beats b := rfl
      rw [Option.map_some, better, better, hbeats]
      split <;> rfl

theorem pickCurrentPrice_copied (rows : List ItemPrice) :
    pickCurrentPrice (rows.map (copied baseId)) channel outletId asOf =
      (pickCurrentPrice rows channel outletId asOf).map (copied baseId) := by
  have hfold : ∀ (rows : List ItemPrice) (best : Option ItemPrice),
      (rows.map (copied baseId)).foldl better (best.map (copied baseId)) =
        (rows.foldl better best).map (copied baseId) := by
    intro rows
    induction rows with
    | nil => exact fun _ => rfl
    | cons row rows ih =>
        intro best
        rw [List.map_cons, List.foldl_cons, copied_better, ih, List.foldl_cons]
  have hfilter : (rows.map (copied baseId)).filter (·.eligible channel outletId asOf) =
      (rows.filter (·.eligible channel outletId asOf)).map (copied baseId) := by
    rw [List.filter_map]
    rfl
  rw [pickCurrentPrice, hfilter, pickCurrentPrice]
  exact hfold _ none

theorem untied_copied {rows : List ItemPrice} (h : Untied rows channel outletId asOf) :
    Untied (rows.map (copied baseId)) channel outletId asOf := by
  have hranks : ((rows.map (copied baseId)).filter (·.eligible channel outletId asOf)).map rank =
      (rows.filter (·.eligible channel outletId asOf)).map rank := by
    rw [List.filter_map, List.map_map]
    rfl
  rw [Untied, hranks]
  exact h

/-! ### What the two variants add -/

theorem createItemVariant_ok {variant : ItemVariant}
    (h : createItemVariant m itemId variant = .ok m') :
    (∀ item ∈ m.items, ∀ v ∈ item.variants, v.id ≠ variant.id) ∧
      m' = m.updateItem itemId fun item => { item with variants := item.variants ++ [variant] } := by
  obtain ⟨_, hfree, h⟩ := Serial.bind_ok h
  cases h
  exact ⟨(check_ok hfree).1, rfl⟩

theorem item_updateItem {f : MenuItem → MenuItem} (hf : ∀ item, (f item).id = item.id)
    (h : m.item itemId = some item) : (m.updateItem itemId f).item itemId = some (f item) := by
  have hid : item.id = itemId := by simpa using List.find?_some h
  rw [Menu.item, Menu.updateItem, List.find?_map]
  have hsame : ((fun item : MenuItem => decide (item.id = itemId)) ∘ fun item : MenuItem =>
      if item.id = itemId then f item else item) = fun item => decide (item.id = itemId) := by
    funext item
    rw [Function.comp_apply]
    split
    · rw [hf]
    · rfl
  rw [Menu.item] at h
  rw [hsame, h, Option.map_some, if_pos hid]

/-- What the copies add to the rows of an item and variant: all of them or none. -/
theorem rowsOf_copyBasePrices (i : ℕ) (v : Option ℕ) :
    rowsOf (copyBasePricesToVariant m itemId baseId) i v = rowsOf m i v ++
      if i = itemId ∧ v = some baseId then (rowsOf m itemId none).map (copied baseId) else [] := by
  have hcopies : ((rowsOf m itemId none).map (copied baseId)).filter
      (fun row => row.itemId = i ∧ row.variantId = v) =
      if i = itemId ∧ v = some baseId then (rowsOf m itemId none).map (copied baseId) else [] := by
    split
    next h =>
      obtain ⟨rfl, rfl⟩ := h
      refine List.filter_eq_self.mpr fun row hrow => ?_
      obtain ⟨base, hbase, rfl⟩ := List.mem_map.mp hrow
      exact decide_eq_true ⟨(mem_rowsOf.mp hbase).2.1, rfl⟩
    next h =>
      refine List.filter_eq_nil_iff.mpr fun row hrow => ?_
      obtain ⟨base, hbase, rfl⟩ := List.mem_map.mp hrow
      rw [decide_eq_true_eq]
      rintro ⟨hi, hv⟩
      exact h ⟨hi.symm.trans (mem_rowsOf.mp hbase).2.1, hv.symm⟩
  rw [rowsOf, copyBasePricesToVariant, List.filter_append, hcopies, ← rowsOf]

/-- A variant brings its own price, and none to any other. -/
theorem createVariant_ok (h : createVariant m itemId dto id now = .ok m')
    (hitem : m.item itemId = some item) :
    (∀ item ∈ m.items, ∀ v ∈ item.variants, v.id ≠ id) ∧
      m'.item itemId = some { item with variants := item.variants ++ [⟨id, dto.name⟩] } ∧
      ∀ i v, v ≠ some id → rowsOf m' i v = rowsOf m i v := by
  obtain ⟨m₁, hcreated, h⟩ := Serial.bind_ok h
  obtain ⟨hfree, rfl⟩ := createItemVariant_ok hcreated
  refine ⟨hfree, ?_⟩
  have hfound := item_updateItem (f := fun item : MenuItem =>
    { item with variants := item.variants ++ [⟨id, dto.name⟩] }) (fun _ => rfl) hitem
  split at h
  · split at h
    · cases h
      exact ⟨hfound, fun _ _ _ => rfl⟩
    · cases h
      refine ⟨hfound, fun i v hv => ?_⟩
      rw [rowsOf_insertPrice, if_neg fun hscope => hv hscope.2, List.append_nil]
      rfl
  · cases h
    exact ⟨hfound, fun _ _ _ => rfl⟩

/-- **The first variant keeps every price.** The item has its base portion beside the variant that
was asked for; the base rows are what they were, and the base portion has at every instant, for
every channel and outlet, the price that the item had. Unless two rows tie, that is so in whatever
order the copies are found. -/
theorem first_variant_keeps_prices
    (hlinked : ∀ row ∈ m.itemPrices, ∀ v ∈ row.variantId,
      ∃ item ∈ m.items, ∃ x ∈ item.variants, x.id = v)
    (hitem : m.item itemId = some item) (hfirst : item.variants = [])
    (hpriced : rowsOf m itemId none ≠ []) (hadd : addVariant m itemId dto baseId id now = .ok m') :
    m'.item itemId = some { item with variants := [⟨baseId, dto.baseName⟩, ⟨id, dto.name⟩] } ∧
      rowsOf m' itemId none = rowsOf m itemId none ∧
      (∀ channel outletId asOf, resolveCurrentPrice m' itemId (some baseId) channel outletId asOf =
        (resolveCurrentPrice m itemId none channel outletId asOf).map (copied baseId)) ∧
      ∀ rows channel outletId asOf, rows.Perm (rowsOf m' itemId (some baseId)) →
        Untied (rowsOf m itemId none) channel outletId asOf →
        pickCurrentPrice rows channel outletId asOf =
          (resolveCurrentPrice m itemId none channel outletId asOf).map (copied baseId) := by
  have hid : item.id = itemId := by simpa using List.find?_some hitem
  subst hid
  obtain ⟨existing, hload, h⟩ := Serial.bind_ok hadd
  obtain ⟨found, hfound, hload⟩ := Serial.bind_ok hload
  obtain ⟨_, -, hload⟩ := Serial.bind_ok hload
  cases hload
  obtain rfl : item = existing := Option.some.inj (hitem.symm.trans (orElseThrow_ok hfound))
  obtain ⟨m₁, hkept, h⟩ := Serial.bind_ok h
  rw [keepBasePortion, if_pos ⟨hfirst, hpriced⟩] at hkept
  obtain ⟨m₀, hbase, hkept⟩ := Serial.bind_ok hkept
  cases hkept
  obtain ⟨hfree, rfl⟩ := createItemVariant_ok hbase
  have hbased := item_updateItem (f := fun item : MenuItem =>
    { item with variants := item.variants ++ [⟨baseId, dto.baseName⟩] }) (fun _ => rfl) hitem
  obtain ⟨hother, hnamed, hrows⟩ := createVariant_ok h hbased
  -- The two variants have their own identifiers, and no row has those yet.
  have hne : baseId ≠ id := by
    refine hother _ (List.mem_of_find?_eq_some hbased) ⟨baseId, dto.baseName⟩ ?_
    exact List.mem_append_right _ (List.mem_singleton_self _)
  have hunpriced : rowsOf m item.id (some baseId) = [] := by
    refine List.filter_eq_nil_iff.mpr fun row hrow hmine => ?_
    obtain ⟨-, hvariant⟩ := of_decide_eq_true hmine
    obtain ⟨x, hx, v, hv, heq⟩ := hlinked row hrow baseId hvariant
    exact hfree x hx v hv heq
  have hcopies : rowsOf m' item.id (some baseId) =
      (rowsOf m item.id none).map (copied baseId) := by
    rw [hrows _ _ fun h => hne (Option.some.inj h), rowsOf_copyBasePrices, if_pos ⟨rfl, rfl⟩]
    exact congrArg (· ++ _) hunpriced
  refine ⟨?_, ?_, fun channel outletId asOf => ?_, fun rows channel outletId asOf hperm huntied => ?_⟩
  · rw [hnamed, hfirst]
    rfl
  · rw [hrows _ _ fun h => (by cases h), rowsOf_copyBasePrices, if_neg fun h => (by cases h.2),
      List.append_nil]
    rfl
  · rw [resolveCurrentPrice_eq, hcopies, pickCurrentPrice_copied, resolveCurrentPrice_eq]
  · rw [hcopies] at hperm
    rw [← pickCurrentPrice_perm hperm.symm (untied_copied huntied), pickCurrentPrice_copied,
      resolveCurrentPrice_eq]

/-- The dosa gets a half portion. At outlet 1 the whole one has from 50 on the price that was
scheduled for it. -/
theorem first_variant_keeps_prices_sample :
    ∃ m', addVariant pricedMenu 1 ⟨"Half", some 40, some "INR", some " Full "⟩ 11 12 20 = .ok m' ∧
      m'.item 1 = some ⟨1, "Dosa", true, none, [⟨11, "Full"⟩, ⟨12, "Half"⟩], []⟩ ∧
      resolveCurrentPrice m' 1 (some 11) .dineIn (some 1) 60 =
        some ⟨1, some 11, some 1, some .dineIn, 100, "INR", 50, 9⟩ := by
  obtain ⟨m', hadd⟩ : ∃ m',
      addVariant pricedMenu 1 ⟨"Half", some 40, some "INR", some " Full "⟩ 11 12 20 = .ok m' :=
    ⟨_, rfl⟩
  have hlinked : ∀ row ∈ pricedMenu.itemPrices, ∀ v ∈ row.variantId,
      ∃ item ∈ pricedMenu.items, ∃ x ∈ item.variants, x.id = v := by decide
  obtain ⟨hitem, -, hprices, -⟩ := first_variant_keeps_prices hlinked
    (show pricedMenu.item 1 = some _ from rfl) rfl (by decide) hadd
  refine ⟨m', hadd, hitem, ?_⟩
  rw [hprices]
  rfl

end RestiqBackend.FirstVariant
