import RestiqBackend.TableCart

/-!
What placing a cart writes.

Every line of the cart becomes a block of the order's lines: an item the one line at its current
price, a combo its parent line and a line for each of the picks it resolves to again. `Placed`
says what is in a block, and `placeOrder_ok` what a placement that goes through has done.
-/

namespace RestiqBackend.TableCart

open Catalogue
open Serial (check_ok check_of orElseThrow_ok orElseThrow_of_some)

theorem wholeUnits_ok {q : ℚ} {n : ℕ} (h : wholeUnits q = .ok n) : (n : ℚ) = q := by
  unfold wholeUnits at h
  split at h
  next hq =>
    cases h
    have hnum : 0 ≤ q.num := Rat.num_nonneg.mpr hq.2
    rw [← Rat.coe_int_num_of_den_eq_one hq.1, ← Int.cast_natCast, Rat.num_intCast,
      Int.toNat_of_nonneg hnum]
  next => cases h

theorem insertOrderLine_ok {taken : List ℕ} {line : OrderLine} {lines lines' : List OrderLine}
    (h : insertOrderLine taken line lines = .ok lines') :
    lines' = lines ++ [line] ∧ line.id ∉ taken ∧ line.id ∉ lines.map (·.id) := by
  obtain ⟨_, hcheck, h⟩ := Serial.bind_ok h
  obtain ⟨htaken, hnew⟩ := check_ok hcheck
  cases h
  exact ⟨rfl, htaken, by simpa using hnew⟩

/-! ### Selections -/

theorem Menu.combo_id {m : Menu} {comboId : ℕ} {combo : Combo} (h : m.combo comboId = some combo) :
    combo.id = comboId := by
  simpa using List.find?_some h

theorem toPick_ok {combo : Combo} {selection : ComboSelectionInput} {pick : ComboPick}
    (h : toPick combo selection = .ok pick) :
    (pick.slot, pick.option) ∈ combo.options ∧ pick.option.id = selection.optionId ∧
      pick.quantity = selection.quantity.getD 1 ∧ pick.modifierIds = selection.modifierIds.getD [] := by
  obtain ⟨found, hfound, h⟩ := Serial.bind_ok h
  cases h
  have hfound := orElseThrow_ok hfound
  exact ⟨List.mem_of_find?_eq_some hfound, by simpa using List.find?_some hfound, rfl, rfl⟩

theorem fillSlot_mem {slot : ComboSlot} {picks : List ComboPick} {pick : ComboPick}
    (h : pick ∈ fillSlot slot picks) :
    pick ∈ picks ∨ ∃ option, slot.options = [option] ∧ pick = ⟨slot, option, slot.pickCount, []⟩ := by
  unfold fillSlot at h
  split at h
  next option hoptions =>
    split at h
    · exact .inl h
    · exact (List.mem_append.mp h).imp_right fun h => ⟨option, hoptions, List.mem_singleton.mp h⟩
  next => exact .inl h

/-- What is picked is what was picked, and the options of fixed slots. -/
theorem fillSlots_mem {slots : List ComboSlot} {picks picks' : List ComboPick} {pick : ComboPick}
    (h : fillSlots slots picks = .ok picks') (hpick : pick ∈ picks') :
    pick ∈ picks ∨ ∃ slot ∈ slots, ∃ option, slot.options = [option] ∧
      pick = ⟨slot, option, slot.pickCount, []⟩ := by
  induction slots generalizing picks with
  | nil =>
      cases h
      exact .inl hpick
  | cons slot slots ih =>
      obtain ⟨_, -, h⟩ := Serial.bind_ok h
      rcases ih h with hpick | ⟨slot', hslot', hpick⟩
      · exact (fillSlot_mem hpick).imp_right fun hfixed => ⟨slot, List.mem_cons_self, hfixed⟩
      · exact .inr ⟨slot', List.mem_cons_of_mem _ hslot', hpick⟩

/-- What an answered selection was picked from. -/
structure Resolved (m : Menu) (outletId comboId : ℕ) (selections : List ComboSelectionInput)
    (combo : Combo) (children : List ResolvedComboChild) (picks : List ComboPick) : Prop where
  found : m.combo comboId = some combo
  live : combo.archivedAt = none
  available : (toComboMenuView combo (optionAvailable m outletId)).available = true
  picked : (selections.mapM (toPick combo) >>= fillSlots combo.slots) = .ok picks
  resolved : picks.mapM (resolvePick m outletId) = .ok children

theorem resolveComboSelection_ok {m : Menu} {outletId comboId : ℕ}
    {selections : List ComboSelectionInput} {combo : Combo} {children : List ResolvedComboChild} :
    resolveComboSelection m outletId comboId selections = .ok (combo, children) ↔
      ∃ picks, Resolved m outletId comboId selections combo children picks := by
  constructor
  · intro h
    obtain ⟨combo', hcombo, h⟩ := Serial.bind_ok h
    obtain ⟨_, hlive, h⟩ := Serial.bind_ok h
    obtain ⟨_, havailable, h⟩ := Serial.bind_ok h
    obtain ⟨asked, hasked, h⟩ := Serial.bind_ok h
    obtain ⟨picks, hpicks, h⟩ := Serial.bind_ok h
    obtain ⟨children', hchildren, h⟩ := Serial.bind_ok h
    cases h
    exact ⟨picks, orElseThrow_ok hcombo, check_ok hlive, check_ok havailable,
      by rw [hasked]; exact hpicks, hchildren⟩
  · rintro ⟨picks, h⟩
    obtain ⟨asked, hasked, hpicks⟩ := Serial.bind_ok h.picked
    unfold resolveComboSelection
    rw [Serial.bind_of_ok (orElseThrow_of_some h.found), Serial.bind_of_ok (check_of h.live),
      Serial.bind_of_ok (check_of h.available), Serial.bind_of_ok hasked,
      Serial.bind_of_ok hpicks, Serial.bind_of_ok h.resolved]
    rfl

section Resolved

variable {m : Menu} {outletId comboId : ℕ} {selections : List ComboSelectionInput} {combo : Combo}
  {children : List ResolvedComboChild} {picks : List ComboPick}

theorem Resolved.mem_options (h : Resolved m outletId comboId selections combo children picks)
    {pick : ComboPick} (hpick : pick ∈ picks) : (pick.slot, pick.option) ∈ combo.options := by
  obtain ⟨asked, hasked, hfill⟩ := Serial.bind_ok h.picked
  rcases fillSlots_mem hfill hpick with hpick | ⟨slot, hslot, option, hoptions, rfl⟩
  · obtain ⟨selection, -, hselection⟩ := Serial.mapM_mem hasked hpick
    exact (toPick_ok hselection).1
  · refine List.mem_flatMap.mpr ⟨slot, hslot, List.mem_map.mpr ⟨option, ?_, rfl⟩⟩
    rw [hoptions]
    exact List.mem_singleton_self option

end Resolved

/-- The child line to write for a pick. -/
structure ResolvedPick (m : Menu) (outletId : ℕ) (pick : ComboPick) (child : ResolvedComboChild) :
    Prop where
  optionId : child.optionId = pick.option.id
  itemId : child.itemId = pick.option.itemId
  variantId : child.variantId = pick.option.variantId
  quantity : child.quantity = pick.quantity
  upchargeMinor : child.upchargeMinor = pick.option.upchargeMinor
  modifierIds : child.modifierIds = pick.modifierIds
  item : ∃ item, m.item child.itemId = some item ∧ itemAvailability m outletId item = true ∧
    assertComboModifiersValid item pick.modifierIds = .ok ()

theorem resolvePick_ok {m : Menu} {outletId : ℕ} {pick : ComboPick} {child : ResolvedComboChild}
    (h : resolvePick m outletId pick = .ok child) : ResolvedPick m outletId pick child := by
  obtain ⟨item, hitem, h⟩ := Serial.bind_ok h
  obtain ⟨_, havailable, h⟩ := Serial.bind_ok h
  obtain ⟨⟨⟩, hmodifiers, h⟩ := Serial.bind_ok h
  cases h
  exact ⟨rfl, rfl, rfl, rfl, rfl, rfl, item, orElseThrow_ok hitem, check_ok havailable, hmodifiers⟩

theorem resolvePick_of {m : Menu} {outletId : ℕ} {pick : ComboPick} {item : MenuItem}
    (hitem : m.item pick.option.itemId = some item)
    (havailable : itemAvailability m outletId item = true)
    (hmodifiers : assertComboModifiersValid item pick.modifierIds = .ok ()) :
    resolvePick m outletId pick = .ok ⟨pick.option.id, pick.option.itemId, pick.option.variantId,
      pick.quantity, pick.option.upchargeMinor, pick.modifierIds⟩ := by
  unfold resolvePick
  rw [Serial.bind_of_ok (orElseThrow_of_some hitem), Serial.bind_of_ok (check_of havailable),
    Serial.bind_of_ok hmodifiers]
  rfl

/-! ### Blocks -/

/-- The order line of an item of a combo. -/
structure PlacedPick (p : Placing) (line : CartLine) (parentId : ℕ) (child : ResolvedComboChild)
    (x : OrderLine) : Prop where
  itemId : x.itemId = some child.itemId
  variantId : x.variantId = child.variantId
  comboId : x.comboId = none
  parentLineId : x.parentLineId = some parentId
  quantity : (x.quantity : ℚ) = child.quantity * line.quantity
  unitPriceMinor : x.unitPriceMinor = child.upchargeMinor
  modifiers : x.modifiers = (p.menu.modifiersIn child.modifierIds).map toModifierRow
  guestId : x.guestId = some line.guestId
  voidedAt : x.voidedAt = none

/-- The order line that a cart line becomes itself. -/
structure PlacedLine (line : CartLine) (x : OrderLine) : Prop where
  parentLineId : x.parentLineId = none
  comboId : x.comboId = line.comboId
  quantity : x.quantity = line.quantity
  guestId : x.guestId = some line.guestId
  voidedAt : x.voidedAt = none

/-- The order lines of a cart line. -/
inductive Placed (p : Placing) (line : CartLine) : List OrderLine → Prop
  | item {x : OrderLine} {price : ItemPrice} (hcombo : line.comboId = none)
      (hline : PlacedLine line x) (hitem : x.itemId = line.itemId)
      (hvariant : x.variantId = line.variantId)
      (hprice : unitPrice p.menu p.outletId p.now line = some price)
      (hunit : x.unitPriceMinor = price.priceMinor)
      (hmodifiers : x.modifiers =
        line.modifierIds.map fun id => ⟨id, p.menu.modifierPrice id⟩) : Placed p line [x]
  | combo {x : OrderLine} {xs : List OrderLine} {comboId : ℕ} {combo : Combo}
      {children : List ResolvedComboChild} (hcombo : line.comboId = some comboId)
      (hline : PlacedLine line x) (hitem : x.itemId = none) (hvariant : x.variantId = none)
      (hresolve : resolveComboSelection p.menu p.outletId comboId (p.selections line) =
        .ok (combo, children))
      (hunit : x.unitPriceMinor = combo.priceMinor) (hmodifiers : x.modifiers = [])
      (hpicks : List.Forall₂ (PlacedPick p line x.id) children xs) : Placed p line (x :: xs)

variable {p : Placing} {line : CartLine} {created created' : List OrderLine}

theorem placePick_ok {parentId : ℕ} {child : ResolvedComboChild}
    (h : p.placePick line parentId created child = .ok created') :
    ∃ x, created' = created ++ [x] ∧ PlacedPick p line parentId child x := by
  obtain ⟨quantity, hquantity, h⟩ := Serial.bind_ok h
  obtain ⟨rfl, -⟩ := insertOrderLine_ok h
  exact ⟨_, rfl, ⟨rfl, rfl, rfl, rfl, wholeUnits_ok hquantity, rfl, rfl, rfl, rfl⟩⟩

theorem placePicks_ok {parentId : ℕ} {children : List ResolvedComboChild}
    (h : children.foldlM (p.placePick line parentId) created = .ok created') :
    ∃ xs, created' = created ++ xs ∧ List.Forall₂ (PlacedPick p line parentId) children xs := by
  let Picks : ResolvedComboChild → List OrderLine → Prop := fun child block =>
    ∃ x, block = [x] ∧ PlacedPick p line parentId child x
  have hstep : ∀ done child done', p.placePick line parentId done child = .ok done' →
      ∃ block, done' = done ++ block ∧ Picks child block := by
    intro done child done' hstep
    obtain ⟨x, rfl, hx⟩ := placePick_ok hstep
    exact ⟨[x], rfl, x, rfl, hx⟩
  obtain ⟨blocks, hblocks, rfl⟩ := Serial.foldlM_blocks hstep h
  refine ⟨blocks.flatten, rfl, ?_⟩
  clear h
  induction hblocks with
  | nil => exact .nil
  | cons hblock _ ih =>
      obtain ⟨x, rfl, hx⟩ := hblock
      exact .cons hx ih

theorem placeLine_ok (h : p.placeLine created line = .ok created') :
    ∃ block, created' = created ++ block ∧ Placed p line block := by
  unfold Placing.placeLine at h
  split at h
  next comboId hcombo =>
    obtain ⟨⟨combo, children⟩, hresolve, h⟩ := Serial.bind_ok h
    obtain ⟨created₁, hparent, h⟩ := Serial.bind_ok h
    obtain ⟨rfl, -⟩ := insertOrderLine_ok hparent
    obtain ⟨xs, rfl, hpicks⟩ := placePicks_ok h
    obtain ⟨picks, hresolved⟩ := resolveComboSelection_ok.mp hresolve
    have hid := Menu.combo_id hresolved.found
    refine ⟨_ :: xs, by rw [List.append_assoc]; rfl,
      .combo hcombo ⟨rfl, ?_, rfl, rfl, rfl⟩ rfl rfl hresolve rfl rfl hpicks⟩
    exact (congrArg some hid).trans hcombo.symm
  next hcombo =>
    obtain ⟨price, hprice, h⟩ := Serial.bind_ok h
    obtain ⟨rfl, -⟩ := insertOrderLine_ok h
    exact ⟨_, rfl, .item hcombo ⟨rfl, rfl, rfl, rfl, rfl⟩ rfl rfl (orElseThrow_ok hprice) rfl rfl⟩

/-! ### The order's identifiers -/

/-- The lines made so far are told apart by their identifiers, which no other order's lines
have. -/
def Fresh (taken : List ℕ) (created : List OrderLine) : Prop :=
  (created.map (·.id)).Nodup ∧ ∀ x ∈ created, x.id ∉ taken

theorem insertOrderLine_fresh {taken : List ℕ} {x : OrderLine}
    (h : insertOrderLine taken x created = .ok created') (hfresh : Fresh taken created) :
    Fresh taken created' := by
  obtain ⟨rfl, htaken, hnew⟩ := insertOrderLine_ok h
  constructor
  · rw [List.map_append, List.map_singleton, ← List.concat_eq_append]
    exact hfresh.1.concat hnew
  · intro y hy
    rcases List.mem_append.mp hy with hy | hy
    · exact hfresh.2 y hy
    · rw [List.mem_singleton.mp hy]
      exact htaken

theorem placeLine_fresh (h : p.placeLine created line = .ok created')
    (hfresh : Fresh p.taken created) : Fresh p.taken created' := by
  unfold Placing.placeLine at h
  split at h
  · obtain ⟨⟨combo, children⟩, -, h⟩ := Serial.bind_ok h
    obtain ⟨created₁, hparent, h⟩ := Serial.bind_ok h
    refine Serial.foldlM_keeps (fun done child _ done' hstep hdone => ?_) h
      (insertOrderLine_fresh hparent hfresh)
    obtain ⟨quantity, -, hstep⟩ := Serial.bind_ok hstep
    exact insertOrderLine_fresh hstep hdone
  · obtain ⟨price, -, h⟩ := Serial.bind_ok h
    exact insertOrderLine_fresh h hfresh

/-! ### The order -/

theorem loadActiveSession_id {guest : GuestPrincipal} {found : Option TableSession} {now : ℤ}
    {session : TableSession} (h : loadActiveSession guest found now = .ok session) :
    session.id = guest.sessionId := by
  obtain ⟨session', hfound, h⟩ := Serial.bind_ok h
  obtain ⟨_, -, h⟩ := Serial.bind_ok h
  cases h
  exact decide_eq_true_eq.mp (Option.filter_eq_some_iff.mp (orElseThrow_ok hfound)).2

/-- A placement that goes through: the blocks of the cart's lines are the order's, and the cart
of the session is gone. -/
structure PlacedBy (w : World) (guest : GuestPrincipal) (now : ℤ) (ctx : PlacementContext)
    (ids : ℕ → ℕ) (w' : World) (order : PlacedOrder) : Prop where
  menu : w'.menu = w.menu
  cartLines : w'.cartLines = w.cartLines.filter (·.sessionId ≠ guest.sessionId)
  orders : w'.orders = w.orders ++ [order]
  blocks : ∃ blocks, order.lines = blocks.flatten ∧
    List.Forall₂ (Placed (w.placing guest.outletId now ctx ids))
      (sessionLines w.cartLines guest.sessionId) blocks
  fresh : Fresh (w.orders.flatMap fun o => o.lines.map (·.id)) order.lines
  orderId : w.orders.any (·.id = order.id) = false

theorem placeOrder_ok {w w' : World} {guest : GuestPrincipal} {found : Option TableSession}
    {now : ℤ} {ctx : PlacementContext} {ids : ℕ → ℕ} {order : PlacedOrder}
    (h : placeOrder w guest found now ctx ids = .ok (w', order)) :
    PlacedBy w guest now ctx ids w' order := by
  obtain ⟨session, hsession, h⟩ := Serial.bind_ok h
  obtain ⟨_, -, h⟩ := Serial.bind_ok h
  obtain ⟨_, -, h⟩ := Serial.bind_ok h
  obtain ⟨_, hid, h⟩ := Serial.bind_ok h
  obtain ⟨lines, hlines, h⟩ := Serial.bind_ok h
  have hsid := loadActiveSession_id hsession
  cases h
  have hstep : ∀ done line done',
      (w.placing guest.outletId now ctx ids).placeLine done line = .ok done' →
      ∃ block, done' = done ++ block ∧ Placed (w.placing guest.outletId now ctx ids) line block :=
    fun _ _ _ hstep => placeLine_ok hstep
  obtain ⟨blocks, hblocks, hflat⟩ := Serial.foldlM_blocks hstep hlines
  have hfresh := Serial.foldlM_keeps (I := Fresh (w.placing guest.outletId now ctx ids).taken)
    (fun _ _ _ _ hstep hdone => placeLine_fresh hstep hdone) hlines
    ⟨List.nodup_nil, fun _ hx => absurd hx List.not_mem_nil⟩
  exact
    { menu := rfl, cartLines := by rw [hsid], orders := rfl
      blocks := ⟨blocks, by simpa using hflat, hsid ▸ hblocks⟩
      fresh := hfresh, orderId := check_ok hid }

end RestiqBackend.TableCart
