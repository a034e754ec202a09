import Mathlib.Data.Int.ConditionallyCompleteOrder
import Mathlib.Data.Prod.Lex
import RestiqBackend.Catalogue
import RestiqBackend.Selection

/-!
The current price (`src/admin/menu/pricing.ts`) and the owner's list (`items.service.ts`).

`rank` orders price rows by what the current one is picked by, and `pickCurrentPrice` is the
`argmax` of it on the rows that are eligible. A query may leave rows out before the pick, as long
as it leaves out none that is eligible. The owner's list asks once for the rows of all its items
and groups them by item and variant.
-/

namespace RestiqBackend.Prices

open Catalogue

/-! ### The greatest of the eligible rows -/

/-- What a row is picked by: an outlet's own, then a channel's own, then the more recent one. -/
def rank (row : ItemPrice) : Bool ×ₗ Bool ×ₗ ℤ ×ₗ ℤ :=
  toLex (row.outletId.isSome, toLex (row.channel.isSome, toLex (row.effectiveAt, row.createdAt)))

theorem beats_iff (row best : ItemPrice) : row.beats best = true ↔ rank best < rank row := by
  obtain ⟨_, _, outletId, channel, _, _, _, _⟩ := row
  obtain ⟨_, _, outletId', channel', _, _, _, _⟩ := best
  simp only [ItemPrice.beats, ItemPrice.score, rank, Prod.Lex.toLex_lt_toLex, Bool.or_eq_true,
    Bool.and_eq_true, decide_eq_true_eq]
  cases outletId <;> cases outletId' <;> cases channel <;> cases channel' <;> simp [eq_comm]

theorem better_eq : better = List.argAux fun b c => rank c < rank b := by
  funext best row
  cases best with
  | none => rfl
  | some b =>
      by_cases h : rank b < rank row
      · simp only [better, List.argAux, if_pos h, if_pos ((beats_iff row b).mpr h)]
      · simp only [better, List.argAux, if_neg h, if_neg fun hb => h ((beats_iff row b).mp hb)]

theorem pickCurrentPrice_eq_argmax (candidates : List ItemPrice) (channel : PriceChannel)
    (outletId : Option ℕ) (asOf : ℤ) :
    pickCurrentPrice candidates channel outletId asOf =
      (candidates.filter (·.eligible channel outletId asOf)).argmax rank := by
  rw [pickCurrentPrice, better_eq, List.argmax]

/-- The lexicographically greatest of the eligible rows. -/
structure Greatest (candidates : List ItemPrice) (channel : PriceChannel) (outletId : Option ℕ)
    (asOf : ℤ) (row : ItemPrice) : Prop where
  mem : row ∈ candidates
  eligible : row.eligible channel outletId asOf = true
  greatest : ∀ other ∈ candidates, other.eligible channel outletId asOf = true →
    rank other ≤ rank row

/-- No two of the eligible rows are equal in all that a row is picked by. -/
def Untied (candidates : List ItemPrice) (channel : PriceChannel) (outletId : Option ℕ)
    (asOf : ℤ) : Prop :=
  ((candidates.filter (·.eligible channel outletId asOf)).map rank).Nodup

instance (candidates : List ItemPrice) (channel : PriceChannel) (outletId : Option ℕ) (asOf : ℤ) :
    Decidable (Untied candidates channel outletId asOf) :=
  inferInstanceAs (Decidable (List.Nodup _))

variable {candidates candidates' : List ItemPrice} {channel : PriceChannel} {outletId : Option ℕ}
  {asOf : ℤ} {row : ItemPrice}

theorem eligible_iff : row.eligible channel outletId asOf = true ↔
    row.effectiveAt ≤ asOf ∧ (row.outletId = none ∨ row.outletId = outletId) ∧
      (row.channel = none ∨ row.channel = some channel) := by
  simp [ItemPrice.eligible, and_assoc]

theorem pickCurrentPrice_greatest
    (h : pickCurrentPrice candidates channel outletId asOf = some row) :
    Greatest candidates channel outletId asOf row := by
  rw [pickCurrentPrice_eq_argmax] at h
  obtain ⟨hmem, heligible⟩ := List.mem_filter.mp (List.argmax_mem (Option.mem_def.mpr h))
  refine ⟨hmem, heligible, fun other hother he => ?_⟩
  exact List.le_of_mem_argmax (List.mem_filter.mpr ⟨hother, he⟩) (Option.mem_def.mpr h)

theorem pickCurrentPrice_eq_none : pickCurrentPrice candidates channel outletId asOf = none ↔
    ∀ row ∈ candidates, row.eligible channel outletId asOf = false := by
  rw [pickCurrentPrice_eq_argmax, List.argmax_eq_none, List.filter_eq_nil_iff]
  simp only [Bool.not_eq_true]

/-- A row that outranks every other eligible one is the one that is picked. -/
theorem pickCurrentPrice_of_dominant (hmem : row ∈ candidates)
    (heligible : row.eligible channel outletId asOf = true)
    (hdominant : ∀ other ∈ candidates, other.eligible channel outletId asOf = true →
      other = row ∨ rank other < rank row) :
    pickCurrentPrice candidates channel outletId asOf = some row := by
  cases hpick : pickCurrentPrice candidates channel outletId asOf with
  | none =>
      have hnot := pickCurrentPrice_eq_none.mp hpick row hmem
      rw [heligible] at hnot
      cases hnot
  | some other =>
      have hother := pickCurrentPrice_greatest hpick
      rcases hdominant other hother.mem hother.eligible with rfl | hlt
      · rfl
      · exact absurd hlt (not_lt_of_ge (hother.greatest row hmem heligible))

/-- Rows that are not eligible may be added. -/
theorem pickCurrentPrice_append
    (h : ∀ row ∈ candidates', row.eligible channel outletId asOf = false) :
    pickCurrentPrice (candidates ++ candidates') channel outletId asOf =
      pickCurrentPrice candidates channel outletId asOf := by
  have hnone : candidates'.filter (·.eligible channel outletId asOf) = [] :=
    List.filter_eq_nil_iff.mpr fun row hrow => by simp [h row hrow]
  rw [pickCurrentPrice, pickCurrentPrice, List.filter_append, hnone, List.append_nil]

theorem pickCurrentPrice_perm (hperm : candidates.Perm candidates')
    (h : Untied candidates channel outletId asOf) :
    pickCurrentPrice candidates channel outletId asOf =
      pickCurrentPrice candidates' channel outletId asOf := by
  rw [pickCurrentPrice_eq_argmax, pickCurrentPrice_eq_argmax]
  exact Selection.argmax_perm (hperm.filter _) h

/-- A query may leave out rows that are not eligible. -/
theorem pickCurrentPrice_filter {p : ItemPrice → Bool}
    (h : ∀ row ∈ candidates, row.eligible channel outletId asOf = true → p row = true) :
    pickCurrentPrice (candidates.filter p) channel outletId asOf =
      pickCurrentPrice candidates channel outletId asOf := by
  rw [pickCurrentPrice, pickCurrentPrice, List.filter_filter]
  congr 1
  refine List.filter_congr fun row hrow => ?_
  cases he : row.eligible channel outletId asOf with
  | false => rfl
  | true => rw [h row hrow he, Bool.true_and]

/-! ### The rows of one item and variant -/

def rowsOf (m : Menu) (itemId : ℕ) (variantId : Option ℕ) : List ItemPrice :=
  m.itemPrices.filter fun row => row.itemId = itemId ∧ row.variantId = variantId

variable {m m' : Menu} {itemId : ℕ} {variantId : Option ℕ}

theorem mem_rowsOf :
    row ∈ rowsOf m itemId variantId ↔
      row ∈ m.itemPrices ∧ row.itemId = itemId ∧ row.variantId = variantId := by
  rw [rowsOf, List.mem_filter, decide_eq_true_eq]

/-- The query leaves out only rows that are not yet effective. -/
theorem resolveCurrentPrice_eq : resolveCurrentPrice m itemId variantId channel outletId asOf =
    pickCurrentPrice (rowsOf m itemId variantId) channel outletId asOf := by
  have hquery : (m.itemPrices.filter fun row =>
      row.itemId = itemId ∧ row.variantId = variantId ∧ row.effectiveAt ≤ asOf) =
      (rowsOf m itemId variantId).filter fun row => row.effectiveAt ≤ asOf := by
    rw [rowsOf, List.filter_filter]
    refine List.filter_congr fun row _ => ?_
    rw [← Bool.decide_and, decide_eq_decide]
    tauto
  rw [resolveCurrentPrice, hquery]
  refine pickCurrentPrice_filter fun row _ heligible => ?_
  exact decide_eq_true (eligible_iff.mp heligible).1

/-! ### The owner's list -/

abbrev PriceKey := ℕ × Option ℕ

def priceKey (itemId : ℕ) (variantId : Option ℕ) : PriceKey := (itemId, variantId)

abbrev PriceMap := Selection.Map PriceKey ItemPrice

def listPriceChannel : PriceChannel := .dineIn

/-- The current prices of a list of items and their variants, found with one query. -/
def currentPrices (m : Menu) (itemIds : List ℕ) (now : ℤ) : PriceMap :=
  let rows := m.itemPrices.filter fun row =>
    row.itemId ∈ itemIds ∧ row.outletId = none ∧ row.effectiveAt ≤ now
  let groups := Selection.groupBy (fun row => priceKey row.itemId row.variantId) rows
  Selection.pickEach (fun candidates => pickCurrentPrice candidates listPriceChannel none now) groups

structure VariantView where
  id : ℕ
  name : String
  priceMinor : Option ℕ
  deriving DecidableEq

structure ItemView where
  id : ℕ
  name : String
  available : Bool
  priceMinor : Option ℕ
  currency : Option String
  variants : List VariantView
  modifierGroups : List ModifierGroup
  deriving DecidableEq

def toView (item : MenuItem) (prices : PriceMap) : ItemView :=
  let base := prices.lookup (priceKey item.id none)
  { id := item.id
    name := item.name
    available := item.available
    priceMinor := base.map (·.priceMinor)
    currency := base.map (·.currency)
    variants := item.variants.map fun v =>
      ⟨v.id, v.name, (prices.lookup (priceKey item.id (some v.id))).map (·.priceMinor)⟩
    modifierGroups := item.modifierGroups }

def toViews (m : Menu) (now : ℤ) (items : List MenuItem) : List ItemView :=
  let prices := currentPrices m (items.map (·.id)) now
  items.map (toView · prices)

def list (m : Menu) (now : ℤ) : List ItemView :=
  toViews m now (m.items.filter (·.archivedAt.isNone))

/-- The query of the list leaves out the other items' rows, those of an outlet and those that
are not yet effective, and of what is left each key has its own. -/
theorem lookup_currentPrices {itemIds : List ℕ} (hitem : itemId ∈ itemIds) :
    (currentPrices m itemIds asOf).lookup (priceKey itemId variantId) =
      pickCurrentPrice (rowsOf m itemId variantId) .dineIn none asOf := by
  have hgroup : ((m.itemPrices.filter fun row =>
      row.itemId ∈ itemIds ∧ row.outletId = none ∧ row.effectiveAt ≤ asOf).filter
        fun row => priceKey row.itemId row.variantId = priceKey itemId variantId) =
      (rowsOf m itemId variantId).filter fun row =>
        row.outletId = none ∧ row.effectiveAt ≤ asOf := by
    rw [rowsOf, List.filter_filter, List.filter_filter]
    refine List.filter_congr fun row _ => ?_
    rw [← Bool.decide_and, ← Bool.decide_and, decide_eq_decide, priceKey, priceKey, Prod.mk.injEq]
    constructor
    · rintro ⟨⟨hid, hvariant⟩, -, houtlet, hat⟩
      exact ⟨⟨houtlet, hat⟩, hid, hvariant⟩
    · rintro ⟨⟨houtlet, hat⟩, hid, hvariant⟩
      exact ⟨⟨hid, hvariant⟩, hid ▸ hitem, houtlet, hat⟩
  rw [currentPrices, Selection.lookup_pickEach_groupBy rfl, hgroup, listPriceChannel]
  refine pickCurrentPrice_filter fun row _ heligible => decide_eq_true ?_
  obtain ⟨hat, houtlet, -⟩ := eligible_iff.mp heligible
  exact ⟨houtlet.elim id id, hat⟩

/-! ### One rule, three readers -/

theorem rowsOf_perm (h : m.itemPrices.Perm m'.itemPrices) :
    (rowsOf m itemId variantId).Perm (rowsOf m' itemId variantId) := h.filter _

/-- The pick is the greatest of the eligible rows, and there is none only where no row is
eligible. The two queries pick what all the rows of the item and variant would. Unless two rows
tie, that is so in whatever order the rows are found. -/
theorem current_price_is_greatest (m : Menu) (itemId : ℕ) (variantId : Option ℕ)
    (channel : PriceChannel) (outletId : Option ℕ) (asOf : ℤ) :
    (∀ row, pickCurrentPrice (rowsOf m itemId variantId) channel outletId asOf = some row →
      Greatest (rowsOf m itemId variantId) channel outletId asOf row) ∧
    (pickCurrentPrice (rowsOf m itemId variantId) channel outletId asOf = none ↔
      ∀ row ∈ rowsOf m itemId variantId, row.eligible channel outletId asOf = false) ∧
    resolveCurrentPrice m itemId variantId channel outletId asOf =
      pickCurrentPrice (rowsOf m itemId variantId) channel outletId asOf ∧
    (∀ itemIds, itemId ∈ itemIds →
      (currentPrices m itemIds asOf).lookup (priceKey itemId variantId) =
        pickCurrentPrice (rowsOf m itemId variantId) .dineIn none asOf) ∧
    (∀ candidates, (rowsOf m itemId variantId).Perm candidates →
      Untied (rowsOf m itemId variantId) channel outletId asOf →
      pickCurrentPrice candidates channel outletId asOf =
        pickCurrentPrice (rowsOf m itemId variantId) channel outletId asOf) ∧
    ∀ m' : Menu, m.itemPrices.Perm m'.itemPrices →
      (Untied (rowsOf m itemId variantId) channel outletId asOf →
        resolveCurrentPrice m' itemId variantId channel outletId asOf =
          pickCurrentPrice (rowsOf m itemId variantId) channel outletId asOf) ∧
      (Untied (rowsOf m itemId variantId) .dineIn none asOf → ∀ itemIds, itemId ∈ itemIds →
        (currentPrices m' itemIds asOf).lookup (priceKey itemId variantId) =
          pickCurrentPrice (rowsOf m itemId variantId) .dineIn none asOf) := by
  refine ⟨fun row h => pickCurrentPrice_greatest h, pickCurrentPrice_eq_none,
    resolveCurrentPrice_eq, fun itemIds hitem => lookup_currentPrices hitem, ?_, ?_⟩
  · intro candidates hperm huntied
    exact (pickCurrentPrice_perm hperm huntied).symm
  · intro m' hperm
    have hrows : (rowsOf m itemId variantId).Perm (rowsOf m' itemId variantId) :=
      rowsOf_perm hperm
    refine ⟨fun huntied => ?_, fun huntied itemIds hitem => ?_⟩
    · rw [resolveCurrentPrice_eq]
      exact (pickCurrentPrice_perm hrows huntied).symm
    · rw [lookup_currentPrices hitem]
      exact (pickCurrentPrice_perm hrows huntied).symm

/-- Rows of one item: an old one of an outlet, one for the channel and a newer one for neither,
and the next, which is not effective yet. -/
def pricedMenu : Menu :=
  { outletIds := [1, 2], items := [⟨1, "Dosa", true, none, [], []⟩], modifiers := []
    itemPrices := [⟨1, none, some 1, none, 90, "INR", 0, 0⟩,
      ⟨1, none, none, some .dineIn, 80, "INR", 5, 5⟩, ⟨1, none, none, none, 70, "INR", 8, 8⟩,
      ⟨1, none, some 1, some .dineIn, 100, "INR", 50, 9⟩]
    itemOutletOverrides := [], combos := [] }

theorem current_price_is_greatest_sample :
    Greatest (rowsOf pricedMenu 1 none) .dineIn (some 1) 10
      ⟨1, none, some 1, none, 90, "INR", 0, 0⟩ ∧
    resolveCurrentPrice { pricedMenu with itemPrices := pricedMenu.itemPrices.reverse } 1 none
      .dineIn (some 1) 10 = some ⟨1, none, some 1, none, 90, "INR", 0, 0⟩ ∧
    (currentPrices pricedMenu [1] 10).lookup (priceKey 1 none) =
      some ⟨1, none, none, some .dineIn, 80, "INR", 5, 5⟩ := by
  obtain ⟨hgreatest, -, -, hlist, -, hany⟩ :=
    current_price_is_greatest pricedMenu 1 none .dineIn (some 1) 10
  refine ⟨hgreatest _ (by decide), ?_, ?_⟩
  · rw [((hany _ (List.reverse_perm _).symm).1 (by decide))]
    decide
  · rw [hlist [1] (by decide)]
    decide

end RestiqBackend.Prices
