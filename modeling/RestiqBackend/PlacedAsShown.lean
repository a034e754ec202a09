import Mathlib.Algebra.BigOperators.Ring.Finset
import Mathlib.Tactic.FieldSimp
import RestiqBackend.CartCombos

/-!
What a cart shows and what its order charges (`src/guest/orders/orders.service.ts`).

The cart prices a combo per combo and multiplies; the order has a row for each pick, with the
pick's own quantity. Both come to the same line by line (`Agrees`), so the order's subtotal is the
cart's total and each guest pays what the cart showed as theirs.
-/

namespace RestiqBackend.PlacedAsShown

open Catalogue TableCart CartCombos
open Serial (orElseThrow_ok)

/-! ### Modifiers -/

/-- Modifiers are rows of their own table, and those of a group are there. -/
structure ModifiersKeyed (m : Menu) : Prop where
  ids : (m.modifiers.map (·.id)).Nodup
  rows : ∀ item ∈ m.items, ∀ group ∈ item.modifierGroups, ∀ id ∈ group.modifierIds,
    ∃ modifier ∈ m.modifiers, modifier.id = id

variable {m : Menu} {w w' : World} {ids : List ℕ}

theorem ModifiersKeyed.modifiersIn (h : ModifiersKeyed m) (hids : ids.Nodup)
    (hrows : ∀ id ∈ ids, ∃ modifier ∈ m.modifiers, modifier.id = id) :
    ((m.modifiersIn ids).map (·.id)).Perm ids := by
  have hnodup : ((m.modifiersIn ids).map (·.id)).Nodup :=
    (List.filter_sublist.map _).nodup h.ids
  refine (List.perm_ext_iff_of_nodup hnodup hids).mpr fun id => ?_
  constructor
  · intro hid
    obtain ⟨modifier, hmem, rfl⟩ := List.mem_map.mp hid
    exact of_decide_eq_true (List.mem_filter.mp hmem).2
  · intro hid
    obtain ⟨modifier, hmem, rfl⟩ := hrows id hid
    exact List.mem_map_of_mem (List.mem_filter.mpr ⟨hmem, decide_eq_true hid⟩)

/-- The rows cost what is shown of their identifiers. -/
theorem ModifiersKeyed.prices (h : ModifiersKeyed m) (hids : ids.Nodup)
    (hrows : ∀ id ∈ ids, ∃ modifier ∈ m.modifiers, modifier.id = id) :
    ((m.modifiersIn ids).map (·.priceMinor)).sum = modifiersTotal m ids := by
  rw [modifiersTotal, ← ((h.modifiersIn hids hrows).map m.modifierPrice).sum_eq, List.map_map]
  congr 1
  refine List.map_congr_left fun modifier hmem => ?_
  have hfind := find?_key h.ids (List.mem_of_mem_filter hmem)
  rw [Function.comp_apply, Menu.modifierPrice, hfind]
  rfl

/-! ### One line -/

/-- The row of a pick in the order, and the pick in the cart. -/
structure PickAsChosen (m : Menu) (c : CartLine) (x : OrderLine) : Prop where
  itemId : x.itemId = c.itemId
  variantId : x.variantId = c.variantId
  quantity : x.quantity = c.quantity
  modifiers : (x.modifiers.map (·.modifierId)).Perm c.modifierIds
  unitMinor : x.unitMinor = upchargeOf m c.comboOptionId + modifiersTotal m c.modifierIds
  guestId : x.guestId = some c.guestId
  voidedAt : x.voidedAt = none

/-- The rows of a line of the cart in the order: the line's own, and one for each of its picks. -/
inductive LineAsChosen (m : Menu) (cartLines : List CartLine) (line : CartLine) :
    List OrderLine → Prop
  | item {x : OrderLine} (hcombo : line.comboId = none) (hline : PlacedLine line x)
      (hitem : x.itemId = line.itemId) (hvariant : x.variantId = line.variantId)
      (hmodifiers : x.modifiers.map (·.modifierId) = line.modifierIds) :
      LineAsChosen m cartLines line [x]
  | combo {x : OrderLine} {xs : List OrderLine} (hcombo : line.comboId ≠ none)
      (hline : PlacedLine line x)
      (hpicks : List.Forall₂ (PickAsChosen m) (childLines cartLines line) xs) :
      LineAsChosen m cartLines line (x :: xs)

/-- The rows cost what the view of the line shows, and are of its guest. -/
structure Agrees (block : List OrderLine) (view : CartLineView) : Prop where
  total : ((block.map OrderLine.totalMinor).sum : ℚ) = view.lineTotalMinor
  rows : ∀ x ∈ block, x.guestId = some view.guestId ∧ x.voidedAt = none

variable {line : CartLine} {p : Placing} {block : List OrderLine} {currency : Option String}
  {view : CartLineView} {now : ℤ}

/-- Two lists that are matched with a third. -/
theorem forall₂_trans {α β γ : Type} {R : α → β → Prop} {S : β → γ → Prop} {T : α → γ → Prop}
    {as : List α} {bs : List β} {cs : List γ} (hR : List.Forall₂ R as bs)
    (hS : List.Forall₂ S bs cs) (hT : ∀ a ∈ as, ∀ b ∈ bs, ∀ c, R a b → S b c → T a c) :
    List.Forall₂ T as cs := by
  induction hR generalizing cs with
  | nil =>
      cases hS
      exact .nil
  | cons hab _ ih =>
      cases hS with
      | cons hbc hS =>
          refine .cons (hT _ List.mem_cons_self _ List.mem_cons_self _ hab hbc) (ih hS ?_)
          exact fun a ha b hb => hT a (List.mem_cons_of_mem _ ha) b (List.mem_cons_of_mem _ hb)

/-- A pick that is placed again is the pick that was chosen. -/
theorem pickAsChosen {c : CartLine} {child : ResolvedComboChild} {x : OrderLine} {parentId : ℕ}
    (hmodifiers : ModifiersKeyed p.menu) (hpick : PickOf line c) (hone : 1 ≤ line.quantity)
    (hnodup : c.modifierIds.Nodup) (hagain : Again p.menu line c child)
    (hrows : ∀ id ∈ child.modifierIds, ∃ modifier ∈ p.menu.modifiers, modifier.id = id)
    (hplaced : PlacedPick p line parentId child x) : PickAsChosen p.menu c x := by
  have hids := hagain.modifierIds ▸ hnodup
  have hne : (line.quantity : ℚ) ≠ 0 := Nat.cast_ne_zero.mpr (Nat.one_le_iff_ne_zero.mp hone)
  refine ⟨hplaced.itemId.trans hagain.itemId.symm, hplaced.variantId.trans hagain.variantId.symm,
    ?_, ?_, ?_, hplaced.guestId.trans (congrArg some hpick.guestId.symm), hplaced.voidedAt⟩
  · have hquantity := hplaced.quantity
    rw [hagain.quantity, perCombo, div_mul_cancel₀ _ hne] at hquantity
    exact_mod_cast hquantity
  · rw [hplaced.modifiers, List.map_map, ← hagain.modifierIds]
    exact hmodifiers.modifiersIn hids hrows
  · have hprices := hmodifiers.prices hids hrows
    rw [OrderLine.unitMinor, hplaced.unitPriceMinor, hplaced.modifiers, List.map_map,
      hagain.upchargeMinor, ← hagain.modifierIds, ← hprices, Nat.cast_list_sum, List.map_map]
    rfl

theorem total_item {x : OrderLine} {price : ItemPrice} (hcombo : line.comboId = none)
    (hline : PlacedLine line x) (hunit : x.unitPriceMinor = price.priceMinor)
    (hmodifiers : x.modifiers = line.modifierIds.map fun id => ⟨id, p.menu.modifierPrice id⟩)
    (hprice : unitPrice p.menu p.outletId now line = some price) {cartLines : List CartLine}
    (hview : toCartLineView p.menu p.outletId now cartLines line = .ok (view, currency)) :
    Agrees [x] view := by
  unfold toCartLineView at hview
  rw [hcombo] at hview
  simp only [hprice, Option.map_some, Option.getD_some, Except.ok.injEq, Prod.mk.injEq] at hview
  obtain ⟨rfl, -⟩ := hview
  refine ⟨?_, fun y hy => ?_⟩
  · have hunitMinor : x.unitMinor = price.priceMinor + modifiersTotal p.menu line.modifierIds := by
      rw [OrderLine.unitMinor, hunit, hmodifiers, List.map_map, modifiersTotal, Nat.cast_list_sum,
        List.map_map]
      rfl
    rw [List.map_singleton, List.sum_singleton, OrderLine.totalMinor, hunitMinor, hline.quantity]
    push_cast
    ring
  · rw [List.mem_singleton.mp hy]
    exact ⟨hline.guestId, hline.voidedAt⟩

/-- The rows of the picks cost what the cart shows of them, combo by combo. -/
theorem total_picks {cs : List CartLine} {xs : List OrderLine} (hone : 1 ≤ line.quantity)
    (h : List.Forall₂ (PickAsChosen m) cs xs) :
    ((xs.map OrderLine.totalMinor).sum : ℚ) = (cs.map fun c =>
      perCombo line c * (upchargeOf m c.comboOptionId + modifiersTotal m c.modifierIds : ℚ)).sum *
        line.quantity := by
  have hne : (line.quantity : ℚ) ≠ 0 := Nat.cast_ne_zero.mpr (Nat.one_le_iff_ne_zero.mp hone)
  induction h with
  | nil => simp
  | @cons c x cs xs hpick _ ih =>
      rw [List.map_cons, List.map_cons, List.sum_cons, List.sum_cons, Int.cast_add, ih, add_mul,
        OrderLine.totalMinor, hpick.unitMinor, hpick.quantity, perCombo]
      push_cast
      field_simp

theorem total_combo {x : OrderLine} {xs : List OrderLine} {combo : Combo} {comboId : ℕ}
    {cartLines : List CartLine} (hcombo : line.comboId = some comboId)
    (hfound : m.combo comboId = some combo) (hone : 1 ≤ line.quantity)
    (hline : PlacedLine line x) (hunit : x.unitPriceMinor = combo.priceMinor)
    (hmodifiers : x.modifiers = [])
    (hpickOf : ∀ c ∈ childLines cartLines line, PickOf line c)
    (hpicks : List.Forall₂ (PickAsChosen m) (childLines cartLines line) xs) {outletId : ℕ}
    (hview : toCartLineView m outletId now cartLines line = .ok (view, currency)) :
    Agrees (x :: xs) view := by
  unfold toCartLineView at hview
  rw [hcombo] at hview
  obtain ⟨combo', hcombo', hview⟩ := Serial.bind_ok hview
  obtain rfl : combo = combo' := Option.some.inj (hfound.symm.trans (orElseThrow_ok hcombo'))
  cases hview
  refine ⟨?_, fun y hy => ?_⟩
  · have hunitMinor : x.unitMinor = combo.priceMinor := by
      rw [OrderLine.unitMinor, hunit, hmodifiers, List.map_nil, List.sum_nil, add_zero]
    rw [List.map_cons, List.sum_cons, Int.cast_add, total_picks hone hpicks, OrderLine.totalMinor,
      hunitMinor, hline.quantity, add_mul]
    push_cast
    ring
  · rcases List.mem_cons.mp hy with rfl | hy
    · exact ⟨hline.guestId, hline.voidedAt⟩
    · obtain ⟨c, hc, hpick⟩ := Serial.exists_right hpicks.flip hy
      exact ⟨hpick.guestId.trans (congrArg some (hpickOf c hc).guestId), hpick.voidedAt⟩

/-- **Each line** is placed as it was chosen and costs what was shown. -/
theorem line_agrees (hsound : Sound w) (hmodifiers : ModifiersKeyed w.menu)
    (hline : line ∈ w.cartLines) (htop : line.parentLineId = none)
    {guest : TableCart.GuestPrincipal} {now' : ℤ} {ctx : PlacementContext} {ids : ℕ → ℕ}
    (hprice : unitPrice w.menu guest.outletId now' line = unitPrice w.menu guest.outletId now line)
    (hview : toCartLineView w.menu guest.outletId now w.cartLines line = .ok (view, currency))
    (hplaced : Placed (w.placing guest.outletId now' ctx ids) line block) :
    LineAsChosen w.menu w.cartLines line block ∧ Agrees block view := by
  have hone := hsound.carts.quantities line hline htop
  cases hplaced with
  | item hcombo hrow hitem hvariant hunitPrice hunit hmods =>
      refine ⟨.item hcombo hrow hitem hvariant ?_,
        total_item (p := w.placing guest.outletId now' ctx ids) hcombo hrow hunit hmods
          (hprice.symm.trans hunitPrice) hview⟩
      rw [hmods, List.map_map]
      exact List.map_id _
  | @combo x xs comboId combo children hcombo hrow _ _ hresolve hunit hmods hpicks =>
      have hagain := hsound.carts.again hsound.combos hline hcombo hresolve
      obtain ⟨picks, hresolved⟩ := resolveComboSelection_ok.mp hresolve
      have hpickOf : ∀ c ∈ childLines w.cartLines line, PickOf line c := fun c hc =>
        hsound.carts.pickOf hline (mem_childLines.mp hc).1 (mem_childLines.mp hc).2
      have hrows : ∀ child ∈ children, ∀ id ∈ child.modifierIds,
          ∃ modifier ∈ w.menu.modifiers, modifier.id = id := by
        intro child hchild id hid
        obtain ⟨pick, -, hpick⟩ := Serial.mapM_mem hresolved.resolved hchild
        have hpick := resolvePick_ok hpick
        obtain ⟨item, hitem, -, hvalid⟩ := hpick.item
        rw [hpick.modifierIds] at hid
        obtain ⟨group, hgroup, hid⟩ := List.mem_flatMap.mp
          ((ComboPicks.assertComboModifiersValid_ok.mp hvalid).1 id hid)
        exact hmodifiers.rows item (List.mem_of_find?_eq_some hitem) group hgroup id hid
      have hchosen : List.Forall₂ (PickAsChosen w.menu) (childLines w.cartLines line) xs :=
        forall₂_trans hagain hpicks fun c hc child hchild x hchosen hplaced =>
          pickAsChosen (p := w.placing guest.outletId now' ctx ids) hmodifiers (hpickOf c hc) hone
            (hsound.carts.modifiers c (mem_childLines.mp hc).1) hchosen (hrows child hchild) hplaced
      exact ⟨.combo (by rw [hcombo]; nofun) hrow hchosen,
        total_combo hcombo hresolved.found hone hrow hunit hmods hpickOf hchosen hview⟩

/-! ### The guests -/

/-- Each guest once, with what their lines come to. -/
structure Grouped (views : List CartLineView) (guests : List GuestCartView) : Prop where
  ids : (guests.map (·.guestId)).Nodup
  total : (guests.map (·.subtotalMinor)).sum = (views.map (·.lineTotalMinor)).sum
  subtotals : ∀ cart ∈ guests, cart.subtotalMinor =
    ((views.filter (·.guestId = cart.guestId)).map (·.lineTotalMinor)).sum
  all : ∀ view ∈ views, ∃ cart ∈ guests, cart.guestId = view.guestId

/-- What a guest has grows by what is added to it, and nothing else does. -/
theorem sum_add {guests : List GuestCartView} {view : CartLineView} {cart : GuestCartView}
    (hids : (guests.map (·.guestId)).Nodup) (hcart : cart ∈ guests)
    (hguest : cart.guestId = view.guestId) :
    ((guests.map fun c => if c.guestId = view.guestId then c.add view else c).map
      (·.subtotalMinor)).sum = (guests.map (·.subtotalMinor)).sum + view.lineTotalMinor := by
  induction guests with
  | nil => cases hcart
  | cons c guests ih =>
      obtain ⟨hc, hids⟩ := List.nodup_cons.mp hids
      simp only [List.map_cons, List.sum_cons]
      by_cases heq : c.guestId = view.guestId
      · have hrest : (guests.map fun c => if c.guestId = view.guestId then c.add view else c) =
            guests := by
          refine (List.map_congr_left fun d hd => if_neg fun hd' => hc ?_).trans (List.map_id _)
          exact List.mem_map.mpr ⟨d, hd, hd'.trans heq.symm⟩
        have hadd : (c.add view).subtotalMinor = c.subtotalMinor + view.lineTotalMinor := rfl
        rw [if_pos heq, hrest, hadd]
        ring
      · have hcart : cart ∈ guests :=
          (List.mem_cons.mp hcart).resolve_left fun h => heq (h ▸ hguest)
        rw [if_neg heq, ih hids hcart]
        ring

theorem guestSubtotal_append (views : List CartLineView) (view : CartLineView) (guestId : ℕ) :
    (((views ++ [view]).filter (·.guestId = guestId)).map (·.lineTotalMinor)).sum =
      ((views.filter (·.guestId = guestId)).map (·.lineTotalMinor)).sum +
        if view.guestId = guestId then view.lineTotalMinor else 0 := by
  rw [List.filter_append, List.map_append, List.sum_append]
  by_cases heq : view.guestId = guestId
  · simp [heq]
  · simp [heq]

theorem Grouped.add {views : List CartLineView} {guests : List GuestCartView}
    (h : Grouped views guests) (view : CartLineView) :
    Grouped (views ++ [view]) (addToGuest guests view) := by
  have hsum : ((views ++ [view]).map (·.lineTotalMinor)).sum =
      (guests.map (·.subtotalMinor)).sum + view.lineTotalMinor := by
    rw [List.map_append, List.sum_append, h.total, List.map_singleton, List.sum_singleton]
  unfold addToGuest
  split
  next hany =>
      obtain ⟨cart, hcart, hguest⟩ := List.any_eq_true.mp hany
      have hguest := of_decide_eq_true hguest
      have hkeeps : ∀ c : GuestCartView,
          (if c.guestId = view.guestId then c.add view else c).guestId = c.guestId := by
        intro c
        split <;> rfl
      refine ⟨?_, (sum_add h.ids hcart hguest).trans hsum.symm, ?_, ?_⟩
      · rw [List.map_map]
        exact (List.map_congr_left fun c _ => hkeeps c) ▸ h.ids
      · intro c' hc'
        obtain ⟨c, hc, rfl⟩ := List.mem_map.mp hc'
        rw [hkeeps, guestSubtotal_append, ← h.subtotals c hc]
        by_cases heq : c.guestId = view.guestId
        · rw [if_pos heq, if_pos heq.symm]
          rfl
        · rw [if_neg heq, if_neg (Ne.symm heq), add_zero]
      · intro v hv
        have hthere : ∃ c ∈ guests, c.guestId = v.guestId := by
          rcases List.mem_append.mp hv with hv | hv
          · exact h.all v hv
          · exact ⟨cart, hcart, List.mem_singleton.mp hv ▸ hguest⟩
        obtain ⟨c, hc, hguest⟩ := hthere
        exact ⟨_, List.mem_map_of_mem hc, (hkeeps c).trans hguest⟩
  next hany =>
      have hnone : ∀ c ∈ guests, c.guestId ≠ view.guestId := fun c hc heq =>
        hany (List.any_eq_true.mpr ⟨c, hc, decide_eq_true heq⟩)
      have hnew : (⟨view.guestId, view.guestName, [], 0⟩ : GuestCartView).add view =
          ⟨view.guestId, view.guestName, [view], view.lineTotalMinor⟩ := by
        rw [GuestCartView.add, List.nil_append, zero_add]
      rw [hnew]
      refine ⟨?_, ?_, ?_, ?_⟩
      · rw [List.map_append]
        refine List.nodup_append.mpr ⟨h.ids, List.nodup_singleton _, ?_⟩
        intro a ha b hb
        obtain ⟨c, hc, rfl⟩ := List.mem_map.mp ha
        rw [List.mem_singleton.mp hb]
        exact hnone c hc
      · rw [List.map_append, List.sum_append, hsum]
        simp
      · intro c hc
        rw [guestSubtotal_append]
        rcases List.mem_append.mp hc with hc | hc
        · rw [if_neg (hnone c hc).symm, add_zero]
          exact h.subtotals c hc
        · rw [List.mem_singleton.mp hc, if_pos rfl]
          have hbefore : views.filter (·.guestId = view.guestId) = [] := by
            refine List.filter_eq_nil_iff.mpr fun v hv heq => ?_
            obtain ⟨c, hc, hguest⟩ := h.all v hv
            exact hnone c hc (hguest.trans (of_decide_eq_true heq))
          simp [hbefore]
      · intro v hv
        rcases List.mem_append.mp hv with hv | hv
        · obtain ⟨c, hc, hguest⟩ := h.all v hv
          exact ⟨c, List.mem_append_left _ hc, hguest⟩
        · exact ⟨_, List.mem_append_right _ List.mem_cons_self, List.mem_singleton.mp hv ▸ rfl⟩

theorem grouped (views : List CartLineView) : Grouped views (views.foldl addToGuest []) := by
  have hall : ∀ (done todo : List CartLineView) (guests : List GuestCartView),
      Grouped done guests → Grouped (done ++ todo) (todo.foldl addToGuest guests) := by
    intro done todo
    induction todo generalizing done with
    | nil =>
        intro guests h
        rwa [List.append_nil]
    | cons view todo ih =>
        intro guests h
        rw [List.append_cons]
        exact ih _ _ (h.add view)
  have hempty : Grouped [] [] := ⟨List.nodup_nil, rfl, nofun, nofun⟩
  exact hall [] views [] hempty

/-! ### The order -/

/-- `computeSubtotal` of an order's lines. -/
def subtotal (lines : List OrderLine) : ℤ :=
  ((lines.filter fun l => l.voidedAt.isNone).map OrderLine.totalMinor).sum

/-- What a guest's lines of an order come to. -/
def guestTotal (lines : List OrderLine) (guestId : ℕ) : ℤ :=
  subtotal (lines.filter (·.guestId = some guestId))

theorem subtotal_append (lines lines' : List OrderLine) :
    subtotal (lines ++ lines') = subtotal lines + subtotal lines' := by
  rw [subtotal, List.filter_append, List.map_append, List.sum_append]
  rfl

variable {blocks : List (List OrderLine)} {views : List CartLineView}

theorem subtotal_flatten (h : List.Forall₂ Agrees blocks views) :
    (subtotal blocks.flatten : ℚ) = (views.map (·.lineTotalMinor)).sum := by
  induction h with
  | nil => rfl
  | @cons block view blocks views hagrees _ ih =>
      have hlive : block.filter (fun l => l.voidedAt.isNone) = block :=
        List.filter_eq_self.mpr fun x hx => by rw [(hagrees.rows x hx).2]; rfl
      rw [List.flatten_cons, subtotal_append, Int.cast_add, ih, List.map_cons, List.sum_cons,
        ← hagrees.total, subtotal, hlive]

theorem guestTotal_flatten (guestId : ℕ) (h : List.Forall₂ Agrees blocks views) :
    (guestTotal blocks.flatten guestId : ℚ) =
      ((views.filter (·.guestId = guestId)).map (·.lineTotalMinor)).sum := by
  induction h with
  | nil => rfl
  | @cons block view blocks views hagrees _ ih =>
      have hall : (subtotal block : ℚ) = view.lineTotalMinor := by
        simpa using subtotal_flatten (.cons hagrees .nil)
      rw [List.flatten_cons, guestTotal, List.filter_append, subtotal_append, Int.cast_add]
      change (subtotal (block.filter _) : ℚ) + (guestTotal blocks.flatten guestId : ℚ) = _
      rw [ih]
      by_cases heq : view.guestId = guestId
      · have hown : block.filter (·.guestId = some guestId) = block :=
          List.filter_eq_self.mpr fun x hx => decide_eq_true (heq ▸ (hagrees.rows x hx).1)
        have hcons : (view :: views).filter (·.guestId = guestId) =
            view :: views.filter (·.guestId = guestId) :=
          List.filter_cons_of_pos (decide_eq_true heq)
        rw [hown, hall, hcons, List.map_cons, List.sum_cons]
      · have hother : block.filter (·.guestId = some guestId) = [] := by
          refine List.filter_eq_nil_iff.mpr fun x hx hguest => heq ?_
          have hguest := of_decide_eq_true hguest
          rw [(hagrees.rows x hx).1] at hguest
          exact Option.some.inj hguest
        have hzero : (subtotal [] : ℚ) = 0 := rfl
        have hcons : (view :: views).filter (·.guestId = guestId) =
            views.filter (·.guestId = guestId) :=
          List.filter_cons_of_neg fun h => heq (of_decide_eq_true h)
        rw [hother, hzero, zero_add, hcons]

/-- Each line of a session is placed once: by itself, or with the one line that it is a pick of. -/
theorem placed_once (h : Sound w) {sessionId : ℕ} {l : CartLine} (hl : l ∈ w.cartLines)
    (hsession : l.sessionId = sessionId) :
    ∃! t, t ∈ sessionLines w.cartLines sessionId ∧ (l = t ∨ l ∈ childLines w.cartLines t) := by
  cases hparent : l.parentLineId with
  | none =>
      refine ⟨l, ⟨List.mem_filter.mpr ⟨hl, decide_eq_true ⟨hsession, hparent⟩⟩, .inl rfl⟩, ?_⟩
      rintro t ⟨-, heq | hchild⟩
      · exact heq.symm
      · rw [(mem_childLines.mp hchild).2] at hparent
        cases hparent
  | some parentId =>
      obtain ⟨t, ht, rfl, htop, -⟩ := h.carts.parents l hl parentId hparent
      have hsame : t.sessionId = sessionId := (h.carts.pickOf ht hl hparent).sessionId ▸ hsession
      refine ⟨t, ⟨List.mem_filter.mpr ⟨ht, decide_eq_true ⟨hsame, htop⟩⟩,
        .inr (mem_childLines.mpr ⟨hl, hparent⟩)⟩, ?_⟩
      rintro t' ⟨ht', heq | hchild⟩
      · rw [heq, (of_decide_eq_true (List.mem_filter.mp ht').2).2] at hparent
        cases hparent
      · have hid := (mem_childLines.mp hchild).2
        rw [hparent] at hid
        exact h.carts.eq_of_id (List.mem_of_mem_filter ht') ht (Option.some.inj hid).symm

/-- **A cart is charged as it is shown.** Of a cart that any requests have left behind, the order
costs what the view of the cart says, in all and guest by guest, every line is placed as it was
chosen, and nothing stays behind. -/
theorem placement_charges_as_shown {w₀ : World} (hcombos : CombosKeyed w₀.menu)
    (hempty : w₀.cartLines = []) {ops : List TableCart.Op}
    (hrun : Serial.Run (fun w op w' => w' = w.handle op) (fun _ _ => True) w₀ ops w)
    (hmodifiers : ModifiersKeyed w.menu) {guest : TableCart.GuestPrincipal} {view : TableCartView}
    (hview : buildCartView w guest.outletId now guest.sessionId = .ok view)
    {found : Option TableSession} {now' : ℤ} {ctx : PlacementContext} {ids : ℕ → ℕ}
    {order : PlacedOrder} (hplace : placeOrder w guest found now' ctx ids = .ok (w', order))
    (hprices : ∀ line ∈ sessionLines w.cartLines guest.sessionId,
      unitPrice w.menu guest.outletId now' line = unitPrice w.menu guest.outletId now line) :
    (subtotal order.lines : ℚ) = view.totalMinor ∧
    (∀ cart ∈ view.guests, (guestTotal order.lines cart.guestId : ℚ) = cart.subtotalMinor) ∧
    (∀ x ∈ order.lines, ∃ cart ∈ view.guests, x.guestId = some cart.guestId) ∧
    (∃ blocks, order.lines = blocks.flatten ∧ List.Forall₂ (LineAsChosen w.menu w.cartLines)
      (sessionLines w.cartLines guest.sessionId) blocks) ∧
    (∀ l ∈ w.cartLines, l.sessionId = guest.sessionId →
      ∃! t, t ∈ sessionLines w.cartLines guest.sessionId ∧ (l = t ∨ l ∈ childLines w.cartLines t)) ∧
    (order.lines.map (·.id)).Nodup ∧ ∀ l ∈ w'.cartLines, l.sessionId ≠ guest.sessionId := by
  have hsound := (Sound.of_empty hcombos hempty).run hrun
  have hplaced := placeOrder_ok hplace
  obtain ⟨blocks, hlines, hblocks⟩ := hplaced.blocks
  obtain ⟨views, hviews, hview⟩ := Serial.bind_ok hview
  cases hview
  have hboth : ∀ line ∈ sessionLines w.cartLines guest.sessionId, ∀ block view,
      Placed (w.placing guest.outletId now' ctx ids) line block →
      toCartLineView w.menu guest.outletId now w.cartLines line = .ok view →
      LineAsChosen w.menu w.cartLines line block ∧ Agrees block view.1 := by
    intro line hline block view hplaced hview
    obtain ⟨hmem, hthis⟩ := List.mem_filter.mp hline
    exact line_agrees hsound hmodifiers hmem (of_decide_eq_true hthis).2 (hprices line hline) hview
      hplaced
  have hchosen : List.Forall₂ (LineAsChosen w.menu w.cartLines)
      (sessionLines w.cartLines guest.sessionId) blocks := by
    refine ((List.forall₂_and_left _ _).mpr ⟨fun line hline => hline, hblocks⟩).imp ?_
    rintro line block ⟨hline, hplaced⟩
    obtain ⟨view, -, hview⟩ := Serial.exists_right (Serial.mapM_ok hviews) hline
    exact (hboth line hline block view hplaced hview).1
  have hagrees : List.Forall₂ Agrees blocks (views.map (·.1)) := by
    rw [List.forall₂_map_right_iff]
    exact forall₂_trans hblocks.flip (Serial.mapM_ok hviews) fun block _ line hline view hplaced
      hview => (hboth line hline block view hplaced hview).2
  have hgrouped := grouped (views.map (·.1))
  refine ⟨?_, fun cart hcart => ?_, fun x hx => ?_, ⟨blocks, hlines, hchosen⟩,
    fun l hl hsession => placed_once hsound hl hsession, hplaced.fresh.1, fun l hl => ?_⟩
  · rw [hlines, subtotal_flatten hagrees]
    exact hgrouped.total.symm
  · rw [hlines, guestTotal_flatten cart.guestId hagrees]
    exact (hgrouped.subtotals cart hcart).symm
  · rw [hlines] at hx
    obtain ⟨block, hblock, hx⟩ := List.mem_flatten.mp hx
    obtain ⟨shown, hshown, hagree⟩ := Serial.exists_right hagrees hblock
    obtain ⟨cart, hcart, hguest⟩ := hgrouped.all shown hshown
    exact ⟨cart, hcart, (hagree.rows x hx).1.trans (congrArg some hguest.symm)⟩
  · rw [hplaced.cartLines] at hl
    exact of_decide_eq_true (List.mem_filter.mp hl).2

/-! Two guests at a table: a dosa, hot, twice; and a meal, of which two are then made three. -/

def mealTable : World :=
  { menu :=
      { ComboPicks.mealMenu with
        modifiers := [⟨7, "Mild", 0⟩, ⟨8, "Hot", 5⟩]
        itemPrices := [⟨1, none, none, none, 90, "INR", 0, 0⟩] }
    cartLines := [], orders := [] }

def asha : TableCart.GuestPrincipal := ⟨5, "Asha", 1, 1⟩

def ravi : TableCart.GuestPrincipal := ⟨6, "Ravi", 1, 1⟩

def tableOpen : Option TableSession := some ⟨1, .open, some 1, 1000⟩

theorem hotDosa_pos : 1 ≤ 2 := by decide

theorem hotDosa_nodup : ∀ ids ∈ some [8], ids.Nodup := by decide

def hotDosa : AddCartLineDto := ⟨1, none, 2, none, some [8], hotDosa_pos, hotDosa_nodup⟩

theorem noQuantity_pos : ∀ q ∈ (none : Option ℕ), 1 ≤ q := by decide

theorem noModifiers_nodup : ∀ ids ∈ (none : Option (List ℕ)), ids.Nodup := by decide

/-- A hot dosa, and a vada and an idli with it; the coffee goes without saying. -/
def meal : AddCartComboDto :=
  ⟨1, 2, [⟨1, none, some [8], noQuantity_pos, hotDosa_nodup⟩,
    ⟨2, none, none, noQuantity_pos, noModifiers_nodup⟩,
    ⟨3, none, none, noQuantity_pos, noModifiers_nodup⟩], hotDosa_pos⟩

theorem threeMeals_pos : ∀ q ∈ some 3, 1 ≤ q := by decide

def threeMeals : UpdateCartLineDto := ⟨none, some 3, none, threeMeals_pos, noModifiers_nodup⟩

def tableRequests : List TableCart.Op :=
  [.addLine asha tableOpen 0 hotDosa 1, .addCombo ravi tableOpen 0 meal (· + 2),
    .updateLine ravi tableOpen 0 2 threeMeals]

def mealTableThen : World := tableRequests.foldl World.handle mealTable

theorem placement_charges_as_shown_sample : ∃ view w' order,
    buildCartView mealTableThen asha.outletId 0 asha.sessionId = .ok view ∧
    placeOrder mealTableThen asha tableOpen 0 ⟨[5, 6], false, 1⟩ id = .ok (w', order) ∧
    order.lines.map (·.quantity) = [2, 3, 3, 3, 3, 3] ∧ view.totalMinor = 685 ∧
    (subtotal order.lines : ℚ) = view.totalMinor := by
  have htotal : (buildCartView mealTableThen asha.outletId 0 asha.sessionId).toOption.map
      (·.totalMinor) = some 685 := by decide +kernel
  have hquantities : (placeOrder mealTableThen asha tableOpen 0 ⟨[5, 6], false, 1⟩ id).toOption.map
      (fun placed => placed.2.lines.map (·.quantity)) = some [2, 3, 3, 3, 3, 3] := by decide +kernel
  have hcombos : CombosKeyed mealTable.menu := by constructor <;> decide
  have hmodifiers : ModifiersKeyed mealTableThen.menu := by constructor <;> decide +kernel
  have hrun : Serial.Run (fun w op w' => w' = World.handle w op) (fun _ _ => True) mealTable
      tableRequests mealTableThen := .of_events World.handle mealTable tableRequests
  cases hview : buildCartView mealTableThen asha.outletId 0 asha.sessionId with
  | error e =>
      rw [hview] at htotal
      cases htotal
  | ok view =>
      cases hplace : placeOrder mealTableThen asha tableOpen 0 ⟨[5, 6], false, 1⟩ id with
      | error e =>
          rw [hplace] at hquantities
          cases hquantities
      | ok placed =>
          obtain ⟨w', order⟩ := placed
          rw [hview] at htotal
          rw [hplace] at hquantities
          have hcharged := placement_charges_as_shown hcombos rfl hrun hmodifiers hview hplace
            fun _ _ => rfl
          exact ⟨view, w', order, rfl, rfl, Option.some.inj hquantities, Option.some.inj htotal,
            hcharged.1⟩

end RestiqBackend.PlacedAsShown
