import Mathlib.Data.List.Dedup
import RestiqBackend.Prices

/-!
Changing a price (`src/admin/menu/prices.service.ts`).

A price row is never changed: a new price is a new row. A channel's own row would keep winning
over a new row for all channels, so such a price is written once more for every channel that has
a row of its own in its scope, whenever that row takes effect.
-/

namespace RestiqBackend.Repricing

open Catalogue Prices

structure InsertPriceInput where
  variantId : Option ℕ
  outletId : Option ℕ
  channel : Option PriceChannel
  priceMinor : ℕ
  currency : String
  effectiveAt : Option ℤ
  deriving DecidableEq

/-- The rows of an item, with the variant and the outlet of the new price. -/
def InsertPriceInput.scope (input : InsertPriceInput) (m : Menu) (itemId : ℕ) : List ItemPrice :=
  (rowsOf m itemId input.variantId).filter fun row => row.outletId = input.outletId

/-- From when on the price holds: at once, where nothing else is asked for. -/
def InsertPriceInput.effectiveFrom (input : InsertPriceInput) (now : ℤ) : ℤ := input.effectiveAt.getD now

/-- The channels that already have a price of their own. -/
def existing (m : Menu) (itemId : ℕ) (input : InsertPriceInput) : List PriceChannel :=
  ((input.scope m itemId).filterMap (·.channel)).dedup

def channels (m : Menu) (itemId : ℕ) (input : InsertPriceInput) : List (Option PriceChannel) :=
  match input.channel with
  | some channel => [some channel]
  | none => none :: (existing m itemId input).map some

def newRow (itemId : ℕ) (input : InsertPriceInput) (now : ℤ) (channel : Option PriceChannel) :
    ItemPrice :=
  { itemId, variantId := input.variantId, outletId := input.outletId, channel
    priceMinor := input.priceMinor, currency := input.currency
    effectiveAt := input.effectiveFrom now, createdAt := now }

/-- Answers the first of the rows. -/
def insertPrice (m : Menu) (itemId : ℕ) (input : InsertPriceInput) (now : ℤ) :
    Menu × Option ItemPrice :=
  let rows := (channels m itemId input).map (newRow itemId input now)
  ({ m with itemPrices := m.itemPrices ++ rows }, rows.head?)

variable {m : Menu} {itemId : ℕ} {input : InsertPriceInput} {now : ℤ} {channel : PriceChannel}
  {outletId : Option ℕ} {asOf : ℤ}

theorem mem_existing : channel ∈ existing m itemId input ↔
    ∃ row ∈ rowsOf m itemId input.variantId,
      row.outletId = input.outletId ∧ row.channel = some channel := by
  rw [existing, List.mem_dedup, List.mem_filterMap]
  constructor
  · rintro ⟨row, hrow, hchannel⟩
    obtain ⟨hmem, houtlet⟩ := List.mem_filter.mp hrow
    exact ⟨row, hmem, of_decide_eq_true houtlet, hchannel⟩
  · rintro ⟨row, hmem, houtlet, hchannel⟩
    exact ⟨row, List.mem_filter.mpr ⟨hmem, decide_eq_true houtlet⟩, hchannel⟩

/-- What a new price adds to the rows of an item and variant: all its rows or none. -/
theorem rowsOf_insertPrice (i : ℕ) (v : Option ℕ) :
    rowsOf (insertPrice m itemId input now).1 i v = rowsOf m i v ++
      if i = itemId ∧ v = input.variantId then
        (channels m itemId input).map (newRow itemId input now) else [] := by
  have hnew : ((channels m itemId input).map (newRow itemId input now)).filter
      (fun row => row.itemId = i ∧ row.variantId = v) =
      if i = itemId ∧ v = input.variantId then
        (channels m itemId input).map (newRow itemId input now) else [] := by
    split
    next h =>
      obtain ⟨rfl, rfl⟩ := h
      refine List.filter_eq_self.mpr fun row hrow => ?_
      obtain ⟨channel, -, rfl⟩ := List.mem_map.mp hrow
      simp [newRow]
    next h =>
      refine List.filter_eq_nil_iff.mpr fun row hrow => ?_
      obtain ⟨channel, -, rfl⟩ := List.mem_map.mp hrow
      rw [decide_eq_true_eq]
      rintro ⟨hi, hv⟩
      exact h ⟨hi.symm, hv.symm⟩
  rw [rowsOf, insertPrice, List.filter_append, hnew, ← rowsOf]

/-- A new row holds from its time on, at the outlet it is for. -/
theorem newRow_eligible {c : Option PriceChannel} :
    (newRow itemId input now c).eligible channel outletId asOf = true ↔
      input.effectiveFrom now ≤ asOf ∧ (input.outletId = none ∨ input.outletId = outletId) ∧
        (c = none ∨ c = some channel) := eligible_iff

/-! ### A price for all channels -/

theorem channels_of_all (hall : input.channel = none) :
    channels m itemId input = none :: (existing m itemId input).map some := by
  rw [channels, hall]

/-- The new row that is the current price for a channel. -/
def winner (m : Menu) (itemId : ℕ) (input : InsertPriceInput) (now : ℤ) (channel : PriceChannel) :
    ItemPrice :=
  newRow itemId input now
    (if channel ∈ existing m itemId input then some channel else none)

theorem winner_mem (hall : input.channel = none) :
    winner m itemId input now channel ∈
      (channels m itemId input).map (newRow itemId input now) := by
  refine List.mem_map_of_mem ?_
  rw [channels_of_all hall]
  split
  next h => exact List.mem_cons_of_mem _ (List.mem_map_of_mem h)
  next => exact List.mem_cons_self

/-- The rows for an outlet outrank a price for the tenant. -/
def Overridden (m : Menu) (itemId : ℕ) (input : InsertPriceInput) (channel : PriceChannel)
    (outletId : Option ℕ) (asOf : ℤ) : Prop :=
  input.outletId = none ∧ ∃ row ∈ rowsOf m itemId input.variantId,
    row.outletId ≠ none ∧ row.eligible channel outletId asOf = true

/-- Until the next row of its scope takes effect. -/
def Latest (m : Menu) (itemId : ℕ) (input : InsertPriceInput) (now asOf : ℤ) : Prop :=
  ∀ row ∈ input.scope m itemId, input.effectiveFrom now < row.effectiveAt → asOf < row.effectiveAt

theorem rank_lt_iff {row row' : ItemPrice} : rank row < rank row' ↔
    row.outletId.isSome < row'.outletId.isSome ∨ row.outletId.isSome = row'.outletId.isSome ∧
      (row.channel.isSome < row'.channel.isSome ∨ row.channel.isSome = row'.channel.isSome ∧
        (row.effectiveAt < row'.effectiveAt ∨ row.effectiveAt = row'.effectiveAt ∧
          row.createdAt < row'.createdAt)) := by
  simp only [rank, Prod.Lex.toLex_lt_toLex]

/-- A row of before is outranked: one of the channel's own has a new row of its own against it. -/
theorem old_lt_winner {row : ItemPrice} (hnew : ∀ row ∈ m.itemPrices, row.createdAt < now)
    (houtlet : input.outletId = none ∨ input.outletId = outletId)
    (hover : ¬ Overridden m itemId input channel outletId asOf)
    (hlatest : Latest m itemId input now asOf) (hrow : row ∈ rowsOf m itemId input.variantId)
    (heligible : row.eligible channel outletId asOf = true) :
    rank row < rank (winner m itemId input now channel) := by
  obtain ⟨hat, houtlet', hchannel⟩ := eligible_iff.mp heligible
  rw [rank_lt_iff]
  by_cases hscope : row.outletId = input.outletId
  · refine .inr ⟨congrArg Option.isSome hscope, ?_⟩
    have hfrom : row.effectiveAt ≤ input.effectiveFrom now := by
      by_contra hlt
      have hmem : row ∈ input.scope m itemId :=
        List.mem_filter.mpr ⟨hrow, decide_eq_true hscope⟩
      exact absurd hat (not_le_of_gt (hlatest row hmem (lt_of_not_ge hlt)))
    have hlater : row.effectiveAt < input.effectiveFrom now ∨
        row.effectiveAt = input.effectiveFrom now ∧ row.createdAt < now :=
      hfrom.lt_or_eq.imp_right fun heq => ⟨heq, hnew row (mem_rowsOf.mp hrow).1⟩
    rcases hchannel with hchannel | hchannel
    · rw [hchannel, winner]
      split
      next => exact .inl Bool.false_lt_true
      next => exact .inr ⟨rfl, hlater⟩
    · have hexisting : channel ∈ existing m itemId input :=
        mem_existing.mpr ⟨row, hrow, hscope, hchannel⟩
      rw [hchannel, winner, if_pos hexisting]
      exact .inr ⟨rfl, hlater⟩
  · left
    rcases houtlet' with hnone | hsome
    · -- the new price is for the outlet, and the row for the tenant
      rw [hnone]
      obtain ⟨outlet, hsome⟩ := Option.ne_none_iff_exists'.mp fun h => hscope (hnone.trans h.symm)
      rw [winner, newRow, hsome]
      exact Bool.false_lt_true
    · have hall : input.outletId = none :=
        houtlet.resolve_right fun h => hscope (hsome.trans h.symm)
      refine absurd ⟨hall, row, hrow, fun hnone => ?_, heligible⟩ hover
      exact hscope (hnone.trans hall.symm)

theorem new_le_winner {c : Option PriceChannel} (hall : input.channel = none)
    (hc : c ∈ channels m itemId input) (hchannel : c = none ∨ c = some channel) :
    newRow itemId input now c = winner m itemId input now channel ∨
      rank (newRow itemId input now c) < rank (winner m itemId input now channel) := by
  rw [winner]
  split
  next hexisting =>
    rcases hchannel with rfl | rfl
    · exact .inr (rank_lt_iff.mpr (.inr ⟨rfl, .inl Bool.false_lt_true⟩))
    · exact .inl rfl
  next hnot =>
    rcases hchannel with rfl | rfl
    · exact .inl rfl
    · rw [channels_of_all hall] at hc
      obtain ⟨c, hc, heq⟩ := List.mem_map.mp (List.mem_of_ne_of_mem (by simp) hc)
      exact absurd (Option.some.inj heq ▸ hc) hnot

/-- A price for all channels is the current one from its time on until the next of its scope, for
every channel and at every outlet that has no price of its own, and it changes no other. -/
theorem all_channel_price_takes_effect (m : Menu) (itemId : ℕ) (input : InsertPriceInput)
    (now : ℤ) (hall : input.channel = none)
    (hnew : ∀ row ∈ m.itemPrices, row.createdAt < now) :
    (∀ (channel : PriceChannel) (outletId : Option ℕ) (asOf : ℤ),
      (input.outletId = none ∨ input.outletId = outletId) →
      ¬ Overridden m itemId input channel outletId asOf →
      input.effectiveFrom now ≤ asOf → Latest m itemId input now asOf →
      ∃ row, resolveCurrentPrice (insertPrice m itemId input now).1 itemId input.variantId channel
          outletId asOf = some row ∧
        row.priceMinor = input.priceMinor ∧ row.currency = input.currency ∧
        row.effectiveAt = input.effectiveFrom now ∧ row.createdAt = now) ∧
    ∀ (i : ℕ) (v : Option ℕ) (channel : PriceChannel) (outletId : Option ℕ) (asOf : ℤ),
      asOf < input.effectiveFrom now ∨ i ≠ itemId ∨ v ≠ input.variantId ∨
        (input.outletId ≠ none ∧ input.outletId ≠ outletId) →
      resolveCurrentPrice (insertPrice m itemId input now).1 i v channel outletId asOf =
        resolveCurrentPrice m i v channel outletId asOf := by
  constructor
  · intro channel outletId asOf houtlet hover hfrom hlatest
    refine ⟨winner m itemId input now channel, ?_, rfl, rfl, rfl, rfl⟩
    rw [resolveCurrentPrice_eq, rowsOf_insertPrice, if_pos ⟨rfl, rfl⟩]
    refine pickCurrentPrice_of_dominant (List.mem_append_right _ (winner_mem hall)) ?_ ?_
    · refine newRow_eligible.mpr ⟨hfrom, houtlet, ?_⟩
      split
      next => exact .inr rfl
      next => exact .inl rfl
    · intro other hother heligible
      rcases List.mem_append.mp hother with hold | hnewRow
      · exact .inr (old_lt_winner hnew houtlet hover hlatest hold heligible)
      · obtain ⟨c, hc, rfl⟩ := List.mem_map.mp hnewRow
        exact new_le_winner hall hc (newRow_eligible.mp heligible).2.2
  · intro i v channel outletId asOf houtside
    rw [resolveCurrentPrice_eq, resolveCurrentPrice_eq, rowsOf_insertPrice]
    refine pickCurrentPrice_append fun row hrow => ?_
    split at hrow
    next hscope =>
      obtain ⟨c, -, rfl⟩ := List.mem_map.mp hrow
      rw [← Bool.not_eq_true, newRow_eligible]
      rintro ⟨hat, houtlet, -⟩
      rcases houtside with hbefore | hitem | hvariant | ⟨hsome, houtside⟩
      · exact absurd hat (not_le_of_gt hbefore)
      · exact hitem hscope.1
      · exact hvariant hscope.2
      · exact houtlet.elim hsome houtside
    next => exact absurd hrow List.not_mem_nil

/-- A new price for the tenant, on the menu where an outlet and the dine-in channel have theirs. -/
theorem all_channel_price_takes_effect_sample :
    (∃ row, resolveCurrentPrice (insertPrice pricedMenu 1 ⟨none, none, none, 110, "INR", none⟩ 20).1 1
        none .dineIn (some 2) 30 = some row ∧ row.priceMinor = 110) ∧
    resolveCurrentPrice (insertPrice pricedMenu 1 ⟨none, none, none, 110, "INR", none⟩ 20).1 1 none
      .dineIn (some 2) 10 = some ⟨1, none, none, some .dineIn, 80, "INR", 5, 5⟩ := by
  obtain ⟨hnow, hbefore⟩ := all_channel_price_takes_effect pricedMenu 1
    ⟨none, none, none, 110, "INR", none⟩ 20 rfl (by decide)
  constructor
  · obtain ⟨row, hrow, hprice, -⟩ := hnow .dineIn (some 2) 30 (.inl rfl)
      (by simp [Overridden, pricedMenu, rowsOf, ItemPrice.eligible]) (by decide)
      (by unfold Latest; decide)
    exact ⟨row, hrow, hprice⟩
  · rw [hbefore 1 none .dineIn (some 2) 10 (.inl (by decide))]
    decide

end RestiqBackend.Repricing
