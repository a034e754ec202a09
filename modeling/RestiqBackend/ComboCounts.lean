import RestiqBackend.Invoices
import RestiqBackend.PlacedAsShown
import RestiqBackend.Refunds
import RestiqBackend.TillMenu

/-!
How many of each item one combo takes.

The count is stored nowhere: there is only the quantity of the combo's line and that of each item
under it. An order gets its combos from the till or from a cart, and then nobody changes how many
there are, so what is divided out of the two quantities is a whole number, the same one for as
long as the combo is on the order.
-/

namespace RestiqBackend.ComboCounts

open ReadCommitted

/-! ### Lines -/

/-- The items under a line, with how many there are of each. -/
def itemsOf (lines : List OrderLine) (id : ℕ) : List (ℕ × ℕ) :=
  (lines.filter (·.parentLineId = some id)).map fun c => (c.id, c.quantity)

/-- The combo is still there, as often and with as many of each item. -/
def KeptIn (lines lines' : List OrderLine) (t : OrderLine) : Prop :=
  ∃ t' ∈ lines', t'.id = t.id ∧ t'.comboId = t.comboId ∧ t'.quantity = t.quantity ∧
    itemsOf lines' t.id = itemsOf lines t.id

/-- Each combo is gone with its items, or still there. -/
def KeepsCombos (lines lines' : List OrderLine) : Prop :=
  ∀ t ∈ lines, t.comboId ≠ none →
    (∀ l ∈ lines', l.id ≠ t.id ∧ l.parentLineId ≠ some t.id) ∨ KeptIn lines lines' t

/-- Lines that are counted, where those that were there have their combos still. -/
structure CountsFrom (lines lines' : List OrderLine) : Prop where
  positive : ∀ l ∈ lines', 1 ≤ l.quantity
  combos : ∀ t ∈ lines, t.comboId ≠ none → KeptIn lines lines' t

/-- The lines of an order: each item has its combo, voided or not with it, and one combo takes a
whole number of it. -/
structure WholeLines (lines : List OrderLine) : Prop where
  items : ∀ c ∈ lines, c.parentLineId ≠ none →
    ∃ t ∈ lines, c.ItemOf t ∧ ∃ n, 1 ≤ n ∧ c.quantity = n * t.quantity
  counts : ∀ t ∈ lines, t.parentLineId = none → 1 ≤ t.quantity

section Lines

variable {lines lines' : List OrderLine} {f : OrderLine → OrderLine} {x : OrderLine}

theorem CountsFrom.refl (hpositive : ∀ l ∈ lines, 1 ≤ l.quantity) : CountsFrom lines lines :=
  ⟨hpositive, fun t ht _ => ⟨t, ht, rfl, rfl, rfl, rfl⟩⟩

theorem CountsFrom.keepsCombos (h : CountsFrom lines lines') : KeepsCombos lines lines' :=
  fun t ht hcombo => .inr (h.combos t ht hcombo)

/-- A line that is no item of a combo that was there. -/
theorem CountsFrom.insert (h : CountsFrom lines lines') (hx : 1 ≤ x.quantity)
    (hparent : ∀ t ∈ lines, x.parentLineId ≠ some t.id) : CountsFrom lines (lines' ++ [x]) where
  positive l hl := by
    rcases List.mem_append.mp hl with hl | hl
    · exact h.positive l hl
    · exact List.mem_singleton.mp hl ▸ hx
  combos t ht hcombo := by
    obtain ⟨t', ht', hid, hcombo', hquantity, hitems⟩ := h.combos t ht hcombo
    refine ⟨t', List.mem_append_left _ ht', hid, hcombo', hquantity, ?_⟩
    have hnone : [x].filter (·.parentLineId = some t.id) = [] :=
      List.filter_eq_nil_iff.mpr fun l hl heq =>
        hparent t ht (List.mem_singleton.mp hl ▸ of_decide_eq_true heq)
    rw [itemsOf, List.filter_append, hnone, List.append_nil]
    exact hitems

/-- What a change of rows leaves of the columns that matter here. -/
structure Recounts (lines : List OrderLine) (f : OrderLine → OrderLine) : Prop where
  id : ∀ l, (f l).id = l.id
  parentLineId : ∀ l, (f l).parentLineId = l.parentLineId
  comboId : ∀ l, (f l).comboId = l.comboId
  quantity : ∀ l ∈ lines, l.comboId ≠ none ∨ l.parentLineId ≠ none → (f l).quantity = l.quantity
  positive : ∀ l ∈ lines, 1 ≤ l.quantity → 1 ≤ (f l).quantity

theorem Recounts.itemsOf_eq (h : Recounts lines' f) (id : ℕ) :
    itemsOf (lines'.map f) id = itemsOf lines' id := by
  rw [itemsOf, List.filter_map, List.map_map, itemsOf]
  have hsame : ((fun l : OrderLine => decide (l.parentLineId = some id)) ∘ f) =
      fun l => decide (l.parentLineId = some id) := by
    funext l
    rw [Function.comp_apply, h.parentLineId]
  rw [hsame]
  refine List.map_congr_left fun c hc => ?_
  obtain ⟨hmem, hparent⟩ := List.mem_filter.mp hc
  have hchild : c.parentLineId ≠ none := by
    rw [of_decide_eq_true hparent]
    nofun
  rw [Function.comp_apply, h.id, h.quantity c hmem (.inr hchild)]

theorem CountsFrom.map (h : CountsFrom lines lines') (hf : Recounts lines' f) :
    CountsFrom lines (lines'.map f) where
  positive l hl := by
    obtain ⟨l, hmem, rfl⟩ := List.mem_map.mp hl
    exact hf.positive l hmem (h.positive l hmem)
  combos t ht hcombo := by
    obtain ⟨t', ht', hid, hcombo', hquantity, hitems⟩ := h.combos t ht hcombo
    refine ⟨f t', List.mem_map_of_mem ht', (hf.id t').trans hid, (hf.comboId t').trans hcombo',
      (hf.quantity t' ht' (.inl (hcombo'.symm ▸ hcombo))).trans hquantity, ?_⟩
    rw [hf.itemsOf_eq, hitems]

/-- A change of one row. -/
theorem Recounts.update {id : ℕ} {g : OrderLine → OrderLine} (hid : ∀ l, (g l).id = l.id)
    (hparent : ∀ l, (g l).parentLineId = l.parentLineId)
    (hcombo : ∀ l, (g l).comboId = l.comboId)
    (hquantity : ∀ l ∈ lines, l.id = id → l.comboId ≠ none ∨ l.parentLineId ≠ none →
      (g l).quantity = l.quantity)
    (hpositive : ∀ l ∈ lines, 1 ≤ l.quantity → 1 ≤ (g l).quantity) :
    Recounts lines fun l => if l.id = id then g l else l where
  id l := by
    split
    · exact hid l
    · rfl
  parentLineId l := by
    split
    · exact hparent l
    · rfl
  comboId l := by
    split
    · exact hcombo l
    · rfl
  quantity l hl h := by
    split
    next heq => exact hquantity l hl heq h
    next => rfl
  positive l hl h := by
    split
    · exact hpositive l hl h
    · exact h

/-- A line goes with its items. One that is an item itself would leave its combo short. -/
theorem keepsCombos_delete (hids : (lines.map (·.id)).Nodup)
    (hitems : ∀ c ∈ lines, c.parentLineId ≠ none → ∃ t ∈ lines, c.ItemOf t) (hx : x ∈ lines)
    (htop : x.parentLineId = none) :
    KeepsCombos lines (lines.filter fun l => !(l.id = x.id || l.parentLineId = some x.id)) := by
  have hgone : ∀ l : OrderLine, (!(decide (l.id = x.id) || decide (l.parentLineId = some x.id))) =
      true ↔ l.id ≠ x.id ∧ l.parentLineId ≠ some x.id := fun l => by
    rw [Bool.not_eq_true', Bool.or_eq_false_iff, decide_eq_false_iff_not, decide_eq_false_iff_not]
  intro t ht _
  by_cases hid : t.id = x.id
  · refine .inl fun l hl => ?_
    rw [hid]
    exact (hgone l).mp (List.mem_filter.mp hl).2
  by_cases hparent : t.parentLineId = some x.id
  · -- What is under a line has nothing under itself.
    refine .inl fun l hl => ⟨fun heq => ?_, fun heq => ?_⟩
    · obtain ⟨hl, hkept⟩ := List.mem_filter.mp hl
      rw [eq_of_key_eq hids hl ht heq] at hkept
      exact ((hgone t).mp hkept).2 hparent
    · obtain ⟨t', ht', hitem⟩ := hitems l (List.mem_of_mem_filter hl) (by rw [heq]; nofun)
      have hsame := eq_of_key_eq hids ht' ht (Option.some.inj (hitem.parent.symm.trans heq))
      rw [← hsame, hitem.top] at hparent
      cases hparent
  refine .inr ⟨t, List.mem_filter.mpr ⟨ht, (hgone t).mpr ⟨hid, hparent⟩⟩, rfl, rfl, rfl, ?_⟩
  rw [itemsOf, List.filter_filter, itemsOf]
  congr 1
  refine List.filter_congr fun c hc => ?_
  by_cases hchild : c.parentLineId = some t.id
  · have hkept : c.id ≠ x.id ∧ c.parentLineId ≠ some x.id := by
      refine ⟨fun heq => ?_, fun heq => hid (Option.some.inj (hchild.symm.trans heq))⟩
      rw [eq_of_key_eq hids hc hx heq, htop] at hchild
      cases hchild
    rw [(hgone c).mpr hkept, Bool.and_true]
  · rw [decide_eq_false hchild, Bool.false_and]

end Lines

/-! ### The requests of the till -/

/-- A combo that is added is one that the menu answers for. -/
def answered : Op → Prop
  | .addCombo _ _ dto menu => ∃ m outletId selections, CartCombos.CombosKeyed m ∧
      menu = TillMenu.comboLine m outletId dto.comboId selections
  | _ => True

section Requests

variable {v₀ v : Store}

theorem commits_createModifier_counts (h : CountsFrom v₀.lines v.lines) (id : ℕ)
    (m : OrderLineModifier) :
    (Txn.exec (fun _ => []) fun _ => [.createLineModifier id m] : Tx Unit).commits
      (fun _ v' => CountsFrom v₀.lines v'.lines) v := by
  simp only [Txn.commits, Txn.wlp_exec, applyAll_cons, applyAll_nil, writeTo_apply]
  intro _ _
  exact h.map (.update (g := fun l => { l with modifiers := l.modifiers ++ [m] }) (fun _ => rfl)
    (fun _ => rfl) (fun _ => rfl) (fun _ _ _ _ => rfl) fun _ _ h => h)

theorem commits_createLine_counts (h : CountsFrom v₀.lines v.lines) {line : OrderLine}
    {modifiers : List OrderLineModifier} (hline : 1 ≤ line.quantity)
    (hparent : ∀ t ∈ v₀.lines, line.parentLineId ≠ some t.id) :
    (createLine line modifiers).commits (fun _ v' => CountsFrom v₀.lines v'.lines) v := by
  simp only [createLine, Txn.commits, Txn.wlp_bind]
  refine commits_insertRow fun _ => ?_
  exact Txn.wlp_forEach (I := fun v' : Store => CountsFrom v₀.lines v'.lines)
    (fun m _ _ hv => commits_createModifier_counts hv line.id m) (h.insert hline hparent)

theorem addLine_counts (hpositive : ∀ l ∈ v.lines, 1 ≤ l.quantity) (staff : PosPrincipal)
    (name : String) (dto : AddOrderLineDto) (menu : Except ApiError PricedItem) :
    (addLine staff name dto menu).commits (fun _ v' => CountsFrom v.lines v'.lines) v := by
  simp only [addLine, Txn.commits, Txn.wlp_bind, Txn.wlp_uuid]
  refine commits_loadOpenOrder fun _ => commits_ofExcept fun item _ _ _ => ?_
  exact commits_createLine_counts (.refl hpositive) dto.one_le_quantity fun _ _ =>
    (Option.some_ne_none _).symm

/-- The menu answers with whole numbers of each item. -/
theorem comboLine_counted {m : Catalogue.Menu} {outletId comboId : ℕ}
    {selections : List TableCart.ComboSelectionDto} {selection : ComboSelection}
    (hkeyed : CartCombos.CombosKeyed m)
    (h : TillMenu.comboLine m outletId comboId selections = .ok selection) :
    ∀ child ∈ selection.children, 1 ≤ child.quantity := by
  obtain ⟨⟨combo, children⟩, hresolve, h⟩ := Serial.bind_ok h
  obtain ⟨rows, hrows, h⟩ := Serial.bind_ok h
  cases h
  obtain ⟨picks, hresolved⟩ := TableCart.resolveComboSelection_ok.mp hresolve
  have hcounted := CartCombos.answers_counted ((hkeyed.keyed hresolved.found).answers hresolved)
  intro row hrow
  obtain ⟨child, hchild, hrow⟩ := Serial.mapM_mem hrows hrow
  obtain ⟨quantity, hquantity, hrow⟩ := Serial.bind_ok hrow
  cases hrow
  obtain ⟨n, hn, hcount⟩ := (hcounted child hchild).count
  have hwhole := TableCart.wholeUnits_ok hquantity
  rw [hcount] at hwhole
  exact (Nat.cast_injective hwhole : quantity = n) ▸ hn

theorem addCombo_counts (hpositive : ∀ l ∈ v.lines, 1 ≤ l.quantity) (staff : PosPrincipal)
    (name : String) (dto : AddComboLineDto) (menu : Except ApiError ComboSelection)
    (hmenu : ∀ selection, menu = .ok selection → ∀ child ∈ selection.children, 1 ≤ child.quantity) :
    (addCombo staff name dto menu).commits (fun _ v' => CountsFrom v.lines v'.lines) v := by
  simp only [addCombo, Txn.commits, Txn.wlp_bind, Txn.wlp_uuid]
  refine commits_loadOpenOrder fun _ => commits_ofExcept fun selection hselection env _ => ?_
  have hparent : (createLine
      { id := env.uuid
        itemId := none, variantId := none, comboId := some dto.comboId, parentLineId := none
        quantity := dto.quantity, unitPriceMinor := selection.priceMinor, modifiers := []
        seatNumber := dto.seatNumber, guestId := none, guestName := none, voidedAt := none }
      []).commits (fun _ v' => CountsFrom v.lines v'.lines ∧ ∀ t ∈ v.lines, t.id ≠ env.uuid) v := by
    simp only [createLine, Txn.commits, Txn.wlp_bind, Txn.forEach_nil, Txn.wlp_done]
    refine commits_insertRow fun hfree =>
      ⟨(CountsFrom.refl hpositive).insert dto.one_le_quantity fun _ _ =>
        (Option.some_ne_none _).symm, fun t ht hid => ?_⟩
    exact List.any_eq_false.mp hfree t ht (decide_eq_true hid)
  refine Txn.wlp_mono hparent fun _ v₁ hv₁ => ?_
  obtain ⟨hcounts, hfresh⟩ := hv₁
  refine Txn.wlp_forEach (I := fun v' : Store => CountsFrom v.lines v'.lines)
    (fun child hchild v₂ hv₂ => ?_) hcounts
  simp only [Txn.wlp_bind, Txn.wlp_uuid]
  intro env' _
  exact commits_createLine_counts hv₂
    (Nat.mul_pos (hmenu selection hselection child hchild) dto.one_le_quantity)
    fun t ht heq => hfresh t ht (Option.some.inj heq).symm

theorem updateLine_counts (hpriced : v.Priced) (hpositive : ∀ l ∈ v.lines, 1 ≤ l.quantity)
    (staff : PosPrincipal) (name : String) (lineId : ℕ) (dto : UpdateOrderLineDto) :
    (updateLine staff name lineId dto).commits (fun _ v' => CountsFrom v.lines v'.lines) v := by
  simp only [updateLine, assertNotComboLine, Txn.commits, Txn.wlp_bind]
  refine commits_loadOpenOrder fun _ => commits_loadOrderLine fun line hline hid _ => ?_
  refine commits_raiseIf fun hcombo => commits_raiseIf fun hchild => commits_assertLineNotSent ?_
  refine commits_reads (assertReduction_emits _) fun _ => ?_
  have hmodifiers : ∀ v₁ : Store, CountsFrom v.lines v₁.lines → (whenGiven dto.modifiers fun menu => do
      let modifiers ← ofExcept menu
      replaceModifiers lineId modifiers).commits (fun _ v' => CountsFrom v.lines v'.lines) v₁ := by
    refine fun v₁ h => commits_whenGiven (fun menu _ => ?_) fun _ => h
    simp only [replaceModifiers, Txn.commits, Txn.wlp_bind, Txn.wlp_query, Txn.wlp_exec,
      applyAll_cons, applyAll_nil, writeTo_apply]
    refine commits_ofExcept fun modifiers _ _ _ => ?_
    refine commits_reads (assertReduction_emits _) fun _ _ _ => ?_
    exact Txn.wlp_forEach (I := fun v' : Store => CountsFrom v.lines v'.lines)
      (fun m _ _ hv => commits_createModifier_counts hv lineId m)
      (h.map (.update (g := fun l => { l with modifiers := [] }) (fun _ => rfl) (fun _ => rfl)
        (fun _ => rfl) (fun _ _ _ _ => rfl) fun _ _ h => h))
  have hseat : ∀ v₁ : Store, CountsFrom v.lines v₁.lines →
      (whenGiven dto.seatNumber (updateLineSeat lineId)).commits
        (fun _ v' => CountsFrom v.lines v'.lines) v₁ := by
    refine fun v₁ h => commits_whenGiven (fun seat _ => ?_) fun _ => h
    simp only [updateLineSeat, Txn.commits, Txn.wlp_bind]
    refine Txn.commits_writeWhen (fun _ => ?_) fun _ => trivial
    exact h.map (.update (g := fun l => { l with seatNumber := some seat }) (fun _ => rfl)
      (fun _ => rfl) (fun _ => rfl) (fun _ _ _ _ => rfl) fun _ _ h => h)
  have hquantity : (whenGiven dto.quantity (updateLineQuantity lineId)).commits
      (fun _ v' => CountsFrom v.lines v'.lines) v := by
    refine commits_whenGiven (fun quantity hquantity => ?_) fun _ => .refl hpositive
    simp only [updateLineQuantity, Txn.commits, Txn.wlp_bind]
    refine Txn.commits_writeWhen (fun _ => ?_) fun _ => trivial
    refine (CountsFrom.refl hpositive).map (.update (g := fun l => { l with quantity })
      (fun _ => rfl) (fun _ => rfl) (fun _ => rfl) (fun l hl hlid h => ?_)
      fun _ _ _ => dto.one_le_quantity _ hquantity)
    -- The row is the line that was read, which is neither a combo nor in one.
    obtain rfl := eq_of_key_eq hpriced.ids hl hline (hlid.trans hid.symm)
    simp only [and_true, not_not] at hcombo hchild
    exact h.elim (absurd hcombo) (absurd hchild)
  exact Txn.wlp_mono hquantity fun _ v h => Txn.wlp_mono (hseat v h) fun _ v h => hmodifiers v h

theorem voidLine_counts (hpositive : ∀ l ∈ v.lines, 1 ≤ l.quantity) (staff : PosPrincipal)
    (name : String) (lineId : ℕ) (authorize : Except ApiError ManagerApproval) :
    (voidLine staff name lineId authorize).commits (fun _ v' => CountsFrom v.lines v'.lines) v := by
  simp only [voidLine, lineAndChildIds, isSentToKitchen, voidTicketLines, recordApproval,
    Txn.commits, Txn.wlp_bind, Txn.wlp_query, Txn.wlp_pure, Txn.wlp_clock, Txn.wlp_exec,
    applyAll_cons, applyAll_nil, writeTo_apply]
  refine commits_loadOpenOrder fun _ => commits_loadOrderLine fun line _ _ _ => ?_
  refine commits_raiseIf fun _ => fun _ _ _ _ => commits_raiseIf fun _ => ?_
  refine commits_reads assertBillHasNoPayments_emits fun _ => commits_ofExcept fun approval _ => ?_
  intro env _ _ _ _ _ _ _
  refine (CountsFrom.refl hpositive).map (f := fun l =>
    if l.id ∈ line.id :: (v.lines.filter (·.parentLineId = some line.id)).map (·.id) then
      { l with voidedAt := some env.now } else l) ⟨fun l => ?_, fun l => ?_, fun l => ?_,
        fun l _ _ => ?_, fun l _ h => ?_⟩
  all_goals
    split
    · first | rfl | exact h
    · first | rfl | exact h

/-- A line that is removed takes its items along; an item is not removed by itself. -/
theorem removeLine_counts (hpriced : v.Priced) (hwhole : v.Whole)
    (hpositive : ∀ l ∈ v.lines, 1 ≤ l.quantity) (staff : PosPrincipal) (name : String) (lineId : ℕ) :
    (removeLine staff name lineId).commits (fun _ v' =>
      (∀ l ∈ v'.lines, 1 ≤ l.quantity) ∧ KeepsCombos v.lines v'.lines) v := by
  simp only [removeLine, assertNotComboLine, Txn.commits, Txn.wlp_bind]
  refine commits_loadOpenOrder fun _ => commits_loadOrderLine fun line hline hid _ => ?_
  refine commits_raiseIf fun _ => commits_raiseIf fun hchild => commits_assertLineNotSent ?_
  refine commits_reads assertBillHasNoPayments_emits fun _ => ?_
  refine Txn.commits_writeWhen (fun _ => ?_) fun _ => trivial
  simp only [not_not] at hchild
  refine ⟨fun l hl => hpositive l (List.mem_of_mem_filter hl), ?_⟩
  exact hid ▸ keepsCombos_delete hpriced.ids hwhole.items hline hchild

/-- **One request** leaves every line counted, and each combo gone with its items or as it was. -/
theorem step_keepsCombos {op : Op} {v v' : Store} (h : op.Step v v') (hop : answered op)
    (hpriced : v.Priced) (hwhole : v.Whole) (hpositive : ∀ l ∈ v.lines, 1 ≤ l.quantity) :
    (∀ l ∈ v'.lines, 1 ≤ l.quantity) ∧ KeepsCombos v.lines v'.lines := by
  have hkept {p : Tx Unit} (hp : p.commits (fun _ v' => CountsFrom v.lines v'.lines) v) :
      p.commits (fun _ v' => (∀ l ∈ v'.lines, 1 ≤ l.quantity) ∧ KeepsCombos v.lines v'.lines) v :=
    Txn.wlp_mono hp fun _ _ h => ⟨h.positive, h.keepsCombos⟩
  refine h.post (Q := fun v' => (∀ l ∈ v'.lines, 1 ≤ l.quantity) ∧ KeepsCombos v.lines v'.lines)
    ⟨hpositive, (CountsFrom.refl hpositive).keepsCombos⟩ ?_
  cases op with
  | addLine staff name dto menu => exact hkept (addLine_counts hpositive staff name dto menu)
  | addCombo staff name dto menu =>
      obtain ⟨m, outletId, selections, hkeyed, rfl⟩ := hop
      exact hkept (addCombo_counts hpositive staff name dto _ fun _ => comboLine_counted hkeyed)
  | updateLine staff name lineId dto =>
      exact hkept (updateLine_counts hpriced hpositive staff name lineId dto)
  | removeLine staff name lineId =>
      exact removeLine_counts hpriced hwhole hpositive staff name lineId
  | voidLine staff name lineId authorize =>
      exact hkept (voidLine_counts hpositive staff name lineId authorize)
  | _ =>
      -- The requests that do not touch the order's lines.
      refine Txn.wlp_mono (emits_wlp_frame (Op.emits _) (.all (fun _ => trivial) _) v)
        fun _ v' hframe => ?_
      have hlines : v'.lines = v.lines := hframe .orderLines (by simp [Op.tables, settlementTables,
        guestPaymentTables])
      rw [hlines]
      exact ⟨hpositive, (CountsFrom.refl hpositive).keepsCombos⟩

end Requests

/-! ### The invoice and the refund -/

/-- How many of the item one combo takes. -/
def perCombo (t c : OrderLine) : ℕ := c.quantity / t.quantity

section Whole

variable {lines : List OrderLine} {t c : OrderLine} {v v' : Store}

theorem wholeLines (h : v.Whole) (hpositive : ∀ l ∈ v.lines, 1 ≤ l.quantity) :
    WholeLines v.lines where
  items c hc hchild := by
    obtain ⟨t, ht, hitem⟩ := h.items c hc hchild
    obtain ⟨n, hn⟩ := hitem.times
    have hcount : 1 ≤ t.quantity * n := hn ▸ hpositive c hc
    exact ⟨t, ht, hitem, n, Nat.pos_of_mul_pos_left hcount, hn.trans (Nat.mul_comm _ _)⟩
  counts := h.counts

theorem WholeLines.whole (h : WholeLines v.lines) : v.Whole where
  items c hc hchild := by
    obtain ⟨t, ht, hitem, -⟩ := h.items c hc hchild
    exact ⟨t, ht, hitem⟩
  counts := h.counts

theorem WholeLines.positive (h : WholeLines lines) : ∀ l ∈ lines, 1 ≤ l.quantity := by
  intro l hl
  cases hparent : l.parentLineId with
  | none => exact h.counts l hl hparent
  | some id =>
      obtain ⟨t, ht, hitem, n, hn, hquantity⟩ := h.items l hl (by rw [hparent]; nofun)
      rw [hquantity]
      exact Nat.mul_pos hn (h.counts t ht hitem.top)

/-- The division comes out even. -/
theorem WholeLines.perCombo_eq (h : WholeLines lines) (hids : (lines.map (·.id)).Nodup)
    (ht : t ∈ lines) (hc : c ∈ lines) (hparent : c.parentLineId = some t.id) :
    c.ItemOf t ∧ 1 ≤ t.quantity ∧ 1 ≤ perCombo t c ∧ c.quantity = perCombo t c * t.quantity := by
  obtain ⟨t', ht', hitem, n, hn, hquantity⟩ := h.items c hc (by rw [hparent]; nofun)
  obtain rfl : t' = t :=
    eq_of_key_eq hids ht' ht (Option.some.inj (hitem.parent.symm.trans hparent))
  have hone := h.counts t' ht hitem.top
  have hcount : perCombo t' c = n := by
    rw [perCombo, hquantity, Nat.mul_div_cancel _ hone]
  rw [hcount]
  exact ⟨hitem, hone, hn, hquantity⟩

/-- What is printed of a line is whole. -/
theorem invoice_exact (h : v.Whole) (hpositive : ∀ l ∈ v.lines, 1 ≤ l.quantity)
    (hpriced : v.Priced) : ∀ line ∈ invoiceLines v.liveLines,
      line.unitPriceMinor * line.quantity = line.lineTotalMinor ∧
      ∀ component ∈ line.components, ∃ n : ℕ, 1 ≤ n ∧ component.1 = n := by
  intro line hline
  rw [invoiceLines_eq] at hline
  obtain ⟨g, hg, rfl⟩ := List.mem_map.mp hline
  refine ⟨Int.tdiv_mul_cancel (h.divides hpriced hg).2, fun component hcomponent => ?_⟩
  obtain ⟨c, hc, rfl⟩ := List.mem_map.mp hcomponent
  obtain ⟨t, ht, rfl⟩ := List.mem_map.mp hg
  obtain ⟨ht, -⟩ := mem_tops.mp ht
  obtain ⟨hc, hparent⟩ := mem_under.mp hc
  obtain ⟨-, hone, hn, hquantity⟩ := (wholeLines h hpositive).perCombo_eq hpriced.ids
    (List.mem_of_mem_filter ht) (List.mem_of_mem_filter hc) hparent
  have hne : (t.quantity : ℚ) ≠ 0 := Nat.cast_ne_zero.mpr (Nat.one_le_iff_ne_zero.mp hone)
  refine ⟨perCombo t c, hn, ?_⟩
  change (c.quantity : ℚ) / t.quantity = perCombo t c
  rw [hquantity, Nat.cast_mul, mul_div_cancel_right₀ _ hne]

/-- The items that units of a line take along: as many as so many combos have. -/
def itemsTaken (lines : List OrderLine) (named : RefundLineDto) : List (ℕ × ℕ) :=
  match lines.find? (·.id = named.orderLineId) with
  | none => []
  | some t => (lines.filter (·.parentLineId = some t.id)).map fun c =>
      (c.id, named.quantity * perCombo t c)

/-- What a refund of named lines takes back. -/
def unitsTaken (lines : List OrderLine) (named : List RefundLineDto) : List (ℕ × ℕ) :=
  (named.map fun r => (r.orderLineId, r.quantity)) ++ named.flatMap (itemsTaken lines)

def toTarget (units : ℕ × ℕ) : RefundTarget := ⟨units.1, units.2⟩

theorem toTarget_injective : Function.Injective toTarget := by
  rintro ⟨id, quantity⟩ ⟨id', quantity'⟩ h
  obtain ⟨hid, hquantity⟩ := RefundTarget.mk.inj h
  exact Prod.ext hid (Nat.cast_injective hquantity)

theorem comboTargets_eq (h : WholeLines lines) (hids : (lines.map (·.id)).Nodup)
    {named : List RefundLineDto} {children : List RefundTarget}
    (hok : comboTargets lines (named.map fun r => ⟨r.orderLineId, r.quantity⟩) = .ok children) :
    children = (named.flatMap (itemsTaken lines)).map toTarget := by
  induction named generalizing children with
  | nil =>
      cases hok
      rfl
  | cons r named ih =>
      rw [List.map_cons, comboTargets] at hok
      rw [List.flatMap_cons, List.map_append]
      split at hok
      next hfind =>
        rw [itemsTaken, hfind]
        exact ih hok
      next t hfind =>
        have ht : t ∈ lines := List.mem_of_find?_eq_some hfind
        split at hok
        next => cases hok
        next =>
          obtain ⟨rest, hrest, hok⟩ := Serial.bind_ok hok
          cases hok
          rw [ih hrest, itemsTaken, hfind, List.map_map]
          congr 1
          split
          next =>
            refine List.map_congr_left fun c hc => ?_
            obtain ⟨hc, hparent⟩ := List.mem_filter.mp hc
            obtain ⟨-, hone, -, hquantity⟩ :=
              h.perCombo_eq hids ht hc (of_decide_eq_true hparent)
            have hne : (t.quantity : ℚ) ≠ 0 :=
              Nat.cast_ne_zero.mpr (Nat.one_le_iff_ne_zero.mp hone)
            rw [Function.comp_apply, toTarget]
            congr 1
            rw [hquantity, Nat.cast_mul, Nat.cast_mul, ← mul_assoc, mul_div_cancel_right₀ _ hne]
          next hcombo =>
            -- Only a combo has items.
            have hnone : lines.filter (·.parentLineId = some t.id) = [] := by
              refine List.filter_eq_nil_iff.mpr fun c hc hparent => hcombo ?_
              have hitem := (h.perCombo_eq hids ht hc (of_decide_eq_true hparent)).1
              exact Option.isSome_iff_ne_none.mpr hitem.combo
            rw [hnone]
            rfl

theorem priceTargets_units {refunded : ℕ → ℚ} {targets : List RefundTarget}
    {noteLines : List CreditNoteLine} (hok : priceTargets lines refunded targets = .ok noteLines)
    (hpositive : ∀ target ∈ targets, 0 ≤ target.quantity) :
    (noteLines.map fun l => (l.orderLineId, l.quantity)).map toTarget = targets := by
  induction targets generalizing refunded noteLines with
  | nil =>
      cases hok
      rfl
  | cons target targets ih =>
      rw [priceTargets] at hok
      obtain ⟨l, hl, hok⟩ := Serial.bind_ok hok
      obtain ⟨rest, hrest, hok⟩ := Serial.bind_ok hok
      cases hok
      obtain ⟨-, hid, hquantity, -⟩ := priceTarget_ok hl (hpositive target List.mem_cons_self)
      rw [List.map_cons, List.map_cons, ih hrest fun t ht => hpositive t (List.mem_cons_of_mem _ ht)]
      congr 1
      rw [toTarget, hid, hquantity]

theorem WholeLines.live (h : WholeLines v.lines) : WholeLines v.liveLines where
  items c hc hchild := by
    obtain ⟨hc, hlive⟩ := List.mem_filter.mp hc
    obtain ⟨t, ht, hitem, hcount⟩ := h.items c hc hchild
    exact ⟨t, List.mem_filter.mpr ⟨ht, hitem.voided ▸ hlive⟩, hitem, hcount⟩
  counts t ht := h.counts t (List.mem_of_mem_filter ht)

/-- **A refund of lines** takes of each item what so many combos have of it. -/
theorem refund_units (h : WholeLines v.lines) (hids : (v.lines.map (·.id)).Nodup)
    {dto : RefundBillDto} {b : Bill} {noteLines : List CreditNoteLine} {note : CreditNote}
    (hrefunded : Refunded dto v v' b noteLines note) {named : List RefundLineDto}
    (hnamed : dto.lines = some named) :
    v'.creditNotes = v.creditNotes ++ [note] ∧
      note.lines.map (fun l => (l.orderLineId, l.quantity)) = unitsTaken v.liveLines named := by
  refine ⟨hrefunded.notes, ?_⟩
  obtain ⟨targets, htargets, hlines⟩ := hrefunded.priced
  have hpositive := (refundTargets_nonneg htargets).2
  have hunits : note.lines.map (fun l => (l.orderLineId, l.quantity)) =
      noteLines.map fun l => (l.orderLineId, l.quantity) := by
    have hsame := congrArg (List.map fun u : ℕ × ℕ × ℤ => (u.1, u.2.1))
      (allocateLines_units note.subtotalMinor noteLines)
    rw [← hrefunded.lines, List.map_map, List.map_map] at hsame
    exact hsame
  rw [hunits]
  refine List.map_injective_iff.mpr toTarget_injective ?_
  rw [priceTargets_units hlines hpositive]
  rw [hnamed] at htargets
  simp only [refundTargets] at htargets
  split at htargets
  next => cases htargets
  next =>
    obtain ⟨children, hchildren, htargets⟩ := Serial.bind_ok htargets
    cases htargets
    have hlive : (v.liveLines.map (·.id)).Nodup := hids.sublist (List.filter_sublist.map _)
    rw [comboTargets_eq h.live hlive hchildren, unitsTaken, List.map_append, List.map_map]
    rfl

end Whole

/-! ### From the cart to the order -/

section Placement

open Catalogue TableCart CartCombos

variable {w w' : World} {line : CartLine} {guest : TableCart.GuestPrincipal}
  {found : Option TableSession} {now : ℤ} {ctx : PlacementContext} {ids : ℕ → ℕ}

/-- The rows of a line of the cart: its own, as often, and one for each of its picks, as many. -/
structure RowsOf (cartLines : List CartLine) (line : CartLine) (x : OrderLine)
    (xs : List OrderLine) : Prop where
  row : PlacedLine line x
  picks : List.Forall₂ (fun c y => y.parentLineId = some x.id ∧ y.voidedAt = none ∧
    y.itemId = c.itemId ∧ y.variantId = c.variantId ∧ y.quantity = c.quantity)
    (childLines cartLines line) xs

theorem placed_rows (hsound : Sound w) (hline : line ∈ w.cartLines)
    (htop : line.parentLineId = none) {block : List OrderLine}
    (hplaced : Placed (w.placing guest.outletId now ctx ids) line block) :
    ∃ x xs, block = x :: xs ∧ RowsOf w.cartLines line x xs := by
  cases hplaced with
  | @item x _ hcombo hrow =>
      refine ⟨x, [], rfl, hrow, ?_⟩
      have hnone : childLines w.cartLines line = [] := by
        refine List.eq_nil_iff_forall_not_mem.mpr fun c hc => ?_
        obtain ⟨hc, hparent⟩ := mem_childLines.mp hc
        exact (hsound.carts.top hline hc hparent).2 hcombo
      rw [hnone]
      exact .nil
  | @combo x xs comboId combo children hcombo hrow _ _ hresolve _ _ hpicks =>
      refine ⟨x, xs, rfl, hrow, ?_⟩
      have hagain := hsound.carts.again hsound.combos hline hcombo hresolve
      refine PlacedAsShown.forall₂_trans hagain hpicks fun c hc child _ y hagain hplaced => ?_
      have hone := hsound.carts.quantities line hline htop
      have hne : (line.quantity : ℚ) ≠ 0 := Nat.cast_ne_zero.mpr (Nat.one_le_iff_ne_zero.mp hone)
      have hquantity := hplaced.quantity
      rw [hagain.quantity, TableCart.perCombo, div_mul_cancel₀ _ hne] at hquantity
      exact ⟨hplaced.parentLineId, hplaced.voidedAt, hplaced.itemId.trans hagain.itemId.symm,
        hplaced.variantId.trans hagain.variantId.symm, by exact_mod_cast hquantity⟩

/-- **A placed order is whole**, with as many of each item as the cart had. -/
theorem placement_whole (hsound : Sound w) {order : PlacedOrder}
    (hplace : placeOrder w guest found now ctx ids = .ok (w', order)) :
    WholeLines order.lines ∧
      ∃ rows : List (OrderLine × List OrderLine),
        order.lines = rows.flatMap (fun r => r.1 :: r.2) ∧
        List.Forall₂ (fun line r => RowsOf w.cartLines line r.1 r.2)
          (sessionLines w.cartLines guest.sessionId) rows := by
  obtain ⟨blocks, hlines, hblocks⟩ := (placeOrder_ok hplace).blocks
  have hmem : ∀ line ∈ sessionLines w.cartLines guest.sessionId,
      line ∈ w.cartLines ∧ line.parentLineId = none := fun line hline =>
    ⟨List.mem_of_mem_filter hline, (of_decide_eq_true (List.mem_filter.mp hline).2).2⟩
  have hrows : ∃ rows : List (OrderLine × List OrderLine),
      blocks.flatten = rows.flatMap (fun r => r.1 :: r.2) ∧
      List.Forall₂ (fun line r => RowsOf w.cartLines line r.1 r.2)
        (sessionLines w.cartLines guest.sessionId) rows := by
    clear hlines
    generalize sessionLines w.cartLines guest.sessionId = lines at hblocks hmem
    induction hblocks with
    | nil => exact ⟨[], rfl, .nil⟩
    | @cons line block lines blocks hplaced _ ih =>
        obtain ⟨hline, htop⟩ := hmem line List.mem_cons_self
        obtain ⟨x, xs, rfl, hrow⟩ := placed_rows hsound hline htop hplaced
        obtain ⟨rows, hflat, hrows⟩ := ih fun line hline => hmem line (List.mem_cons_of_mem _ hline)
        refine ⟨(x, xs) :: rows, ?_, .cons hrow hrows⟩
        rw [List.flatten_cons, hflat]
        rfl
  obtain ⟨rows, hflat, hrows⟩ := hrows
  rw [hlines, hflat]
  have hfind : ∀ y ∈ rows.flatMap (fun r => r.1 :: r.2), ∃ line ∈ w.cartLines,
      line.parentLineId = none ∧ ∃ r ∈ rows, RowsOf w.cartLines line r.1 r.2 ∧ y ∈ r.1 :: r.2 := by
    intro y hy
    obtain ⟨r, hr, hy⟩ := List.mem_flatMap.mp hy
    obtain ⟨line, hline, hrow⟩ := Serial.exists_right hrows.flip hr
    exact ⟨line, (hmem line hline).1, (hmem line hline).2, r, hr, hrow, hy⟩
  refine ⟨⟨fun y hy hchild => ?_, fun y hy htop => ?_⟩, rows, rfl, hrows⟩
  · obtain ⟨line, hline, htop, r, hr, hrow, hy⟩ := hfind y hy
    rcases List.mem_cons.mp hy with rfl | hy
    · exact absurd hrow.row.parentLineId hchild
    · obtain ⟨c, hc, hparent, hvoided, -, -, hquantity⟩ := Serial.exists_right hrow.picks.flip hy
      obtain ⟨hc, hpick⟩ := mem_childLines.mp hc
      obtain ⟨n, hn, hcount⟩ := (hsound.carts.pickOf hline hc hpick).times
      refine ⟨r.1, List.mem_flatMap.mpr ⟨r, hr, List.mem_cons_self⟩, ⟨hparent,
        hrow.row.parentLineId, ?_, hvoided.trans hrow.row.voidedAt.symm, ?_⟩, n, hn, ?_⟩
      · rw [hrow.row.comboId]
        exact (hsound.carts.top hline hc hpick).2
      · rw [hquantity, hcount, hrow.row.quantity]
        exact Nat.dvd_mul_left _ _
      · rw [hquantity, hcount, hrow.row.quantity]
  · obtain ⟨line, hline, hnone, r, hr, hrow, hy⟩ := hfind y hy
    rcases List.mem_cons.mp hy with rfl | hy
    · rw [hrow.row.quantity]
      exact hsound.carts.quantities line hline hnone
    · obtain ⟨c, -, hparent, -⟩ := Serial.exists_right hrow.picks.flip hy
      rw [hparent] at htop
      cases htop

end Placement

/-! ### Runs -/

/-- What holds of the carts: each pick has its line, of which one combo takes a whole number of it;
whatever is asked leaves each combo with its numbers, or drops it with its picks; and what is
placed is whole, row by row as the cart had it. -/
structure CartKeeps (w : TableCart.World) : Prop where
  picks : ∀ c ∈ w.cartLines, ∀ id, c.parentLineId = some id →
    ∃ t ∈ w.cartLines, t.id = id ∧ t.comboId ≠ none ∧ CartCombos.PickOf t c ∧
      ∃ n : ℕ, 1 ≤ n ∧ c.quantity = n * t.quantity ∧ TableCart.perCombo t c = n
  steps : ∀ op, CartCombos.KeepsCounts w.cartLines (w.handle op).cartLines
  placed : ∀ guest found now ctx ids w' order,
    TableCart.placeOrder w guest found now ctx ids = .ok (w', order) → WholeLines order.lines ∧
      ∃ rows : List (OrderLine × List OrderLine),
        order.lines = rows.flatMap (fun r => r.1 :: r.2) ∧
        List.Forall₂ (fun line r => RowsOf w.cartLines line r.1 r.2)
          (TableCart.sessionLines w.cartLines guest.sessionId) rows

/-- What holds of an order: it is whole; whatever is asked leaves each combo with its numbers, or
drops it with its items; the invoice divides evenly, and so does a refund. -/
structure OrderKeeps (v : Store) : Prop where
  whole : WholeLines v.lines
  steps : ∀ op v', answered op → op.Step v v' → KeepsCombos v.lines v'.lines
  invoice : ∀ line ∈ invoiceLines v.liveLines,
    line.unitPriceMinor * line.quantity = line.lineTotalMinor ∧
      ∀ component ∈ line.components, ∃ n : ℕ, 1 ≤ n ∧ component.1 = n
  refund : ∀ staff dto authorize named v', dto.lines = some named →
    Op.Commits (.refund staff dto authorize) v v' →
      ∃ note, v'.creditNotes = v.creditNotes ++ [note] ∧
        note.lines.map (fun l => (l.orderLineId, l.quantity)) = unitsTaken v.liveLines named
  even : ∀ t ∈ v.lines, ∀ c ∈ v.lines, c.parentLineId = some t.id →
    1 ≤ perCombo t c ∧ c.quantity = perCombo t c * t.quantity

theorem cartKeeps {w : TableCart.World} (h : CartCombos.Sound w) : CartKeeps w where
  picks c hc id hparent := by
    obtain ⟨t, ht, rfl, htop, hcombo⟩ := h.carts.parents c hc id hparent
    have hpick := h.carts.pickOf ht hc hparent
    exact ⟨t, ht, rfl, hcombo, hpick, hpick.perCombo_eq (h.carts.quantities t ht htop)⟩
  steps op := (h.handle op).2
  placed _ _ _ _ _ _ _ hplace := placement_whole h hplace

theorem orderKeeps {v : Store} (h : v.Whole) (hpositive : ∀ l ∈ v.lines, 1 ≤ l.quantity)
    (hpriced : v.Priced) : OrderKeeps v where
  whole := wholeLines h hpositive
  steps _ _ hop hstep := (step_keepsCombos hstep hop hpriced h hpositive).2
  invoice := invoice_exact h hpositive hpriced
  refund staff dto authorize named v' hnamed hcommits := by
    refine hcommits.post (Q := fun v' => ∃ note, v'.creditNotes = v.creditNotes ++ [note] ∧
      note.lines.map (fun l => (l.orderLineId, l.quantity)) = unitsTaken v.liveLines named) ?_
    simp only [Op.prog, Txn.commits, Txn.wlp_void]
    refine Txn.wlp_mono (commits_refund staff dto authorize) fun note v' hrefunded => ?_
    obtain ⟨b, noteLines, hrefunded⟩ := hrefunded
    exact ⟨note, refund_units (wholeLines h hpositive) hpriced.ids hrefunded hnamed⟩
  even _ ht _ hc hparent := ((wholeLines h hpositive).perCombo_eq hpriced.ids ht hc hparent).2.2

theorem runs_counted {v₀ v : Store} (hplaced : v₀.Placed) (hwhole : v₀.Whole)
    (hpositive : ∀ l ∈ v₀.lines, 1 ≤ l.quantity) (hruns : Runs answered v₀ v) :
    (v.Priced ∧ v.ledger.Wf) ∧ v.Whole ∧ ∀ l ∈ v.lines, 1 ≤ l.quantity := by
  refine hruns.preserves (I := fun v => (v.Priced ∧ v.ledger.Wf) ∧ v.Whole ∧
    ∀ l ∈ v.lines, 1 ≤ l.quantity) ?_ ⟨⟨hplaced.priced, hplaced.wf⟩, hwhole, hpositive⟩
  rintro op v v' hop ⟨⟨hpriced, hwf⟩, hv, hpositive⟩ hstep
  have hposts := hstep.posts hpriced hwf
  exact ⟨⟨hposts.1, hposts.wf hwf⟩, hstep.whole hpriced hv,
    (step_keepsCombos hstep hop hpriced hv hpositive).1⟩

/-- **Combos divide evenly**, in every cart that requests leave behind and in every order that
requests then make of what was placed from it, or of nothing. -/
theorem combos_divide_evenly {w₀ w : TableCart.World} (hcombos : CartCombos.CombosKeyed w₀.menu)
    (hempty : w₀.cartLines = []) {ops : List TableCart.Op}
    (hrun : Serial.Run (fun w op w' => w' = w.handle op) (fun _ _ => True) w₀ ops w)
    {v₀ v : Store} (hplaced : v₀.Placed)
    (hlines : v₀.lines = [] ∨ ∃ guest found now ctx ids w' order,
      TableCart.placeOrder w guest found now ctx ids = .ok (w', order) ∧ v₀.lines = order.lines)
    (hruns : Runs answered v₀ v) : CartKeeps w ∧ OrderKeeps v := by
  have hsound : CartCombos.Sound w := (CartCombos.Sound.of_empty hcombos hempty).run hrun
  have hwhole : WholeLines v₀.lines := by
    rcases hlines with hlines | ⟨guest, found, now, ctx, ids, w', order, hplace, hlines⟩
    · rw [hlines]
      exact ⟨nofun, nofun⟩
    · rw [hlines]
      exact (placement_whole hsound hplace).1
  obtain ⟨⟨hpriced, -⟩, hv, hpositive⟩ := runs_counted hplaced hwhole.whole hwhole.positive hruns
  exact ⟨cartKeeps hsound, orderKeeps hv hpositive hpriced⟩

/-! The table's three meals are placed, and the till adds one more. -/

open PlacedAsShown in
/-- The lines of the order that the table places. -/
def tableOrder : List OrderLine :=
  match TableCart.placeOrder mealTableThen asha tableOpen 0 ⟨[5, 6], false, 1⟩ id with
  | .ok (_, order) => order.lines
  | .error _ => []

def placedTable : Store := { sampleOrder with lines := tableOrder }

theorem oneMeal_pos : 1 ≤ 1 := by decide

def oneMoreMeal : List (Op × (ℕ → Env)) :=
  [(.addCombo sampleStaff "" ⟨1, 1, none, oneMeal_pos⟩
    (TillMenu.comboLine PlacedAsShown.mealTableThen.menu 1 1 PlacedAsShown.meal.selections),
    ticking 100)]

theorem placedTable_placed : placedTable.Placed where
  priced := ⟨by decide +kernel, by decide +kernel⟩
  bill := rfl
  tenders := rfl
  intents := rfl
  shares := rfl
  creditNotes := rfl

theorem combos_divide_evenly_sample :
    (placedTable.after oneMoreMeal).lines.map (·.quantity) = [2, 3, 3, 3, 3, 3, 1, 1, 1, 1, 1] ∧
    CartKeeps PlacedAsShown.mealTableThen ∧ OrderKeeps (placedTable.after oneMoreMeal) := by
  have hquantities : (placedTable.after oneMoreMeal).lines.map (·.quantity) =
      [2, 3, 3, 3, 3, 3, 1, 1, 1, 1, 1] := by decide +kernel
  have hcombos : CartCombos.CombosKeyed PlacedAsShown.mealTable.menu := by constructor <;> decide
  have hthen : CartCombos.CombosKeyed PlacedAsShown.mealTableThen.menu := by
    constructor <;> decide +kernel
  have hruns : Runs answered placedTable (placedTable.after oneMoreMeal) := by
    refine .of_after (by decide +kernel) fun r hr => ?_
    rw [List.mem_singleton.mp hr]
    exact ⟨_, _, _, hthen, rfl⟩
  have hplaced : ∃ guest found now ctx ids w' order,
      TableCart.placeOrder PlacedAsShown.mealTableThen guest found now ctx ids = .ok (w', order) ∧
        placedTable.lines = order.lines := by
    cases hplace : TableCart.placeOrder PlacedAsShown.mealTableThen PlacedAsShown.asha
        PlacedAsShown.tableOpen 0 ⟨[5, 6], false, 1⟩ id with
    | error e =>
        have hsome : tableOrder ≠ [] := by decide +kernel
        unfold tableOrder at hsome
        rw [hplace] at hsome
        exact absurd rfl hsome
    | ok placed =>
        refine ⟨_, _, _, _, _, _, _, hplace, ?_⟩
        change tableOrder = placed.2.lines
        unfold tableOrder
        rw [hplace]
  exact ⟨hquantities, combos_divide_evenly hcombos rfl
    (.of_events TableCart.World.handle PlacedAsShown.mealTable PlacedAsShown.tableRequests)
    placedTable_placed (.inr hplaced) hruns⟩

end RestiqBackend.ComboCounts
