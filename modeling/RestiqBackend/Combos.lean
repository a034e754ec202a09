import RestiqBackend.Settlement
import RestiqBackend.ClosedOrder

/-!
The items of a combo, and the line they belong to.

A combo is one line, with its chosen items as lines under it. They are inserted with it, deleted
by the cascade and voided with it, and nobody may change them: so every item finds the line of its
combo, voided or not with it, and there are as many of it as the combo's count or a multiple of it.
-/

namespace RestiqBackend

open ReadCommitted

/-- `c` is an item of the combo line `t`. -/
structure OrderLine.ItemOf (c t : OrderLine) : Prop where
  parent : c.parentLineId = some t.id
  top : t.parentLineId = none
  combo : t.comboId ≠ none
  voided : c.voidedAt = t.voidedAt
  times : t.quantity ∣ c.quantity

/-- Every item has its combo, and every other line counts at least one. -/
structure Store.Whole (v : Store) : Prop where
  items : ∀ c ∈ v.lines, c.parentLineId ≠ none → ∃ t ∈ v.lines, c.ItemOf t
  counts : ∀ t ∈ v.lines, t.parentLineId = none → 1 ≤ t.quantity

/-- A write that leaves the combos whole. -/
def Write.keepsWhole (v : Store) : Write → Prop
  | .createLine l => (l.parentLineId = none → 1 ≤ l.quantity) ∧
      (l.parentLineId ≠ none → ∃ t ∈ v.lines, l.ItemOf t)
  | .updateLineQuantity id quantity => 1 ≤ quantity ∧
      ∀ l ∈ v.lines, l.id = id → l.comboId = none ∧ l.parentLineId = none
  | .voidLines ids _ => ∀ c ∈ v.lines, ∀ t ∈ v.lines, c.ItemOf t → (c.id ∈ ids ↔ t.id ∈ ids)
  | _ => True

/-! ### Writes -/

section Writes

variable {v v' : Store}

theorem Store.Whole.of_lines (h : v.Whole) (hlines : v'.lines = v.lines) : v'.Whole :=
  ⟨hlines ▸ h.items, hlines ▸ h.counts⟩

/-- Rows changed in place, in columns that do not matter here. -/
theorem Store.Whole.map (h : v.Whole) {f : OrderLine → OrderLine} (hid : ∀ l, (f l).id = l.id)
    (hparent : ∀ l, (f l).parentLineId = l.parentLineId) (hcombo : ∀ l, (f l).comboId = l.comboId)
    (hvoided : ∀ l, (f l).voidedAt = l.voidedAt) (hquantity : ∀ l, (f l).quantity = l.quantity)
    (hlines : v'.lines = v.lines.map f) : v'.Whole where
  items c hc hchild := by
    rw [hlines] at hc ⊢
    obtain ⟨c, hmem, rfl⟩ := List.mem_map.mp hc
    rw [hparent] at hchild
    obtain ⟨t, ht, hitem⟩ := h.items c hmem hchild
    refine ⟨f t, List.mem_map_of_mem ht, ?_, ?_, ?_, ?_, ?_⟩
    · rw [hparent, hid, hitem.parent]
    · rw [hparent, hitem.top]
    · rw [hcombo]
      exact hitem.combo
    · rw [hvoided, hvoided, hitem.voided]
    · rw [hquantity, hquantity]
      exact hitem.times
  counts t ht htop := by
    rw [hlines] at ht
    obtain ⟨t, hmem, rfl⟩ := List.mem_map.mp ht
    rw [hquantity]
    exact h.counts t hmem (hparent t ▸ htop)

theorem Store.Whole.insert (h : v.Whole) {l : OrderLine} (hl : Write.keepsWhole v (.createLine l)) :
    (v.apply (.createLine l)).Whole where
  items c hc hchild := by
    have hold : ∀ {t}, t ∈ v.lines → t ∈ (v.apply (.createLine l)).lines := fun ht =>
      List.mem_append_left _ ht
    rcases List.mem_append.mp hc with hc | hc
    · obtain ⟨t, ht, hitem⟩ := h.items c hc hchild
      exact ⟨t, hold ht, hitem⟩
    · obtain rfl := List.mem_singleton.mp hc
      obtain ⟨t, ht, hitem⟩ := hl.2 hchild
      exact ⟨t, hold ht, hitem⟩
  counts t ht htop := by
    rcases List.mem_append.mp ht with ht | ht
    · exact h.counts t ht htop
    · obtain rfl := List.mem_singleton.mp ht
      exact hl.1 htop

theorem Store.Whole.delete (h : v.Whole) (id : ℕ) : (v.apply (.deleteLine id)).Whole where
  items c hc hchild := by
    obtain ⟨hc, hkept⟩ := List.mem_filter.mp hc
    obtain ⟨t, ht, hitem⟩ := h.items c hc hchild
    refine ⟨t, List.mem_filter.mpr ⟨ht, ?_⟩, hitem⟩
    have htop := hitem.top
    have hparent := hitem.parent
    by_contra hgone
    simp_all
  counts t ht htop := h.counts t (List.mem_of_mem_filter ht) htop

theorem Store.Whole.recount (h : v.Whole) {id quantity : ℕ}
    (hw : Write.keepsWhole v (.updateLineQuantity id quantity)) :
    (v.apply (.updateLineQuantity id quantity)).Whole where
  items c hc hchild := by
    have hkept : ∀ l ∈ v.lines, (l.comboId ≠ none ∨ l.parentLineId ≠ none) →
        l ∈ (v.apply (.updateLineQuantity id quantity)).lines := fun l hl hcombo =>
      mem_updateRows.mpr (.inl ⟨hl, fun hid => by
        obtain ⟨hnone, hnone'⟩ := hw.2 l hl hid
        exact hcombo.elim (· hnone) (· hnone')⟩)
    rcases mem_updateRows.mp hc with ⟨hc, _⟩ | ⟨c₀, hc₀, hid, rfl⟩
    · obtain ⟨t, ht, hitem⟩ := h.items c hc hchild
      exact ⟨t, hkept t ht (.inl hitem.combo), hitem⟩
    · exact absurd (hw.2 c₀ hc₀ hid).2 hchild
  counts t ht htop := by
    rcases mem_updateRows.mp ht with ⟨ht, _⟩ | ⟨t₀, _, _, rfl⟩
    · exact h.counts t ht htop
    · exact hw.1

theorem Store.Whole.void (h : v.Whole) {ids : List ℕ} {voidedAt : ℤ}
    (hw : Write.keepsWhole v (.voidLines ids voidedAt)) :
    (v.apply (.voidLines ids voidedAt)).Whole := by
  let f (l : OrderLine) : OrderLine :=
    if l.id ∈ ids then { l with voidedAt := some voidedAt } else l
  have hf : ∀ l, (f l).id = l.id ∧ (f l).parentLineId = l.parentLineId ∧
      (f l).comboId = l.comboId ∧ (f l).quantity = l.quantity := fun l => by
    simp only [f]
    split <;> exact ⟨rfl, rfl, rfl, rfl⟩
  have hlines : (v.apply (.voidLines ids voidedAt)).lines = v.lines.map f := rfl
  refine ⟨fun c hc hchild => ?_, fun t ht htop => ?_⟩
  · rw [hlines] at hc ⊢
    obtain ⟨c, hmem, rfl⟩ := List.mem_map.mp hc
    rw [(hf c).2.1] at hchild
    obtain ⟨t, ht, hitem⟩ := h.items c hmem hchild
    refine ⟨f t, List.mem_map_of_mem ht, ?_, ?_, ?_, ?_, ?_⟩
    · rw [(hf c).2.1, (hf t).1, hitem.parent]
    · rw [(hf t).2.1, hitem.top]
    · rw [(hf t).2.2.1]
      exact hitem.combo
    · -- Both are voided now, or both are as they were.
      have hboth := hw c hmem t ht hitem
      simp only [f]
      by_cases hc' : c.id ∈ ids
      · rw [if_pos hc', if_pos (hboth.mp hc')]
      · rw [if_neg hc', if_neg fun ht' => hc' (hboth.mpr ht'), hitem.voided]
    · rw [(hf c).2.2.2, (hf t).2.2.2]
      exact hitem.times
  · rw [hlines] at ht
    obtain ⟨t, hmem, rfl⟩ := List.mem_map.mp ht
    rw [(hf t).2.2.2]
    exact h.counts t hmem ((hf t).2.1 ▸ htop)

/-- A change of one row, in columns that do not matter here. -/
theorem Store.Whole.update (h : v.Whole) (id : ℕ) {f : OrderLine → OrderLine}
    (hf : ∀ l, (f l).id = l.id ∧ (f l).parentLineId = l.parentLineId ∧
      (f l).comboId = l.comboId ∧ (f l).voidedAt = l.voidedAt ∧ (f l).quantity = l.quantity)
    (hlines : v'.lines = updateRows OrderLine.id id f v.lines) : v'.Whole := by
  refine h.map (f := fun l => if l.id = id then f l else l) ?_ ?_ ?_ ?_ ?_ hlines
  all_goals
    intro l
    split
    · simp only [hf l]
    · rfl

/-- **Whole combos stay whole**, write by write. -/
theorem Store.Whole.apply (h : v.Whole) {w : Write} (hw : w.keepsWhole v) : (v.apply w).Whole := by
  by_cases htable : w.table = .orderLines
  · cases w <;> simp only [Write.table, reduceCtorEq] at htable
    case createLine l => exact h.insert hw
    case deleteLine id => exact h.delete id
    case updateLineQuantity id quantity => exact h.recount hw
    case voidLines ids voidedAt => exact h.void hw
    case updateLineSeat id seat =>
      exact h.update id (f := fun l => { l with seatNumber := some seat })
        (fun _ => ⟨rfl, rfl, rfl, rfl, rfl⟩) rfl
    case deleteLineModifiers id =>
      exact h.update id (f := fun l => { l with modifiers := [] })
        (fun _ => ⟨rfl, rfl, rfl, rfl, rfl⟩) rfl
    case createLineModifier id m =>
      exact h.update id (f := fun l => { l with modifiers := l.modifiers ++ [m] })
        (fun _ => ⟨rfl, rfl, rfl, rfl, rfl⟩) rfl
  · exact h.of_lines (w.frame v .orderLines (by simpa using Ne.symm htable))

end Writes

/-! ### The operations on lines -/

/-- What every write of a program keeps, the program keeps. -/
theorem commits_of_writing {α : Type} {p : Tx α} {A : Write → Prop} {I : Store → Prop}
    (hp : p.Emits (Writing A)) (hI : ∀ w v, A w → I v → I (v.apply w)) {v : Store} (h : I v) :
    p.commits (fun _ => I) v :=
  hp.wlp (.all (fun _ => trivial) p) (fun l hl v hv => by
    have hall : ∀ w ∈ l.writes, A w := hl
    generalize l.writes = ws at hall
    induction ws generalizing v with
    | nil => exact hv
    | cons w ws ih =>
        exact ih _ (hI w v (hall w List.mem_cons_self) hv)
          fun w' hw' => hall w' (List.mem_cons_of_mem _ hw')) h

section Operations

variable {v : Store}

theorem commits_createModifier_whole (h : v.Whole) (id : ℕ) (m : OrderLineModifier) :
    (Txn.exec (fun _ => []) fun _ => [.createLineModifier id m] : Tx Unit).commits
      (fun _ v' => v'.Whole) v := by
  simp only [Txn.commits, Txn.wlp_exec, applyAll_cons, applyAll_nil, writeTo_apply]
  exact fun _ _ => h.apply trivial

theorem commits_createLine_whole (h : v.Whole) {line : OrderLine}
    {modifiers : List OrderLineModifier} (hline : Write.keepsWhole v (.createLine line)) :
    (createLine line modifiers).commits (fun _ v' => v'.Whole) v := by
  simp only [createLine, Txn.commits, Txn.wlp_bind]
  refine commits_insertRow fun _ => ?_
  exact Txn.wlp_forEach (I := Store.Whole)
    (fun m _ v₁ hv₁ => commits_createModifier_whole hv₁ line.id m) (h.apply hline)

theorem addLine_whole (h : v.Whole) (staff : PosPrincipal) (name : String)
    (dto : AddOrderLineDto) (menu : Except ApiError PricedItem) :
    (addLine staff name dto menu).commits (fun _ v' => v'.Whole) v := by
  simp only [addLine, Txn.commits, Txn.wlp_bind, Txn.wlp_uuid]
  refine commits_loadOpenOrder fun _ => commits_ofExcept fun item _ _ _ => ?_
  exact commits_createLine_whole h ⟨fun _ => dto.one_le_quantity, fun hchild => absurd rfl hchild⟩

/-- The line of a combo that is being added. -/
def HasCombo (parentId quantity : ℕ) (v : Store) : Prop :=
  ∃ t ∈ v.lines, t.id = parentId ∧ t.parentLineId = none ∧ t.comboId ≠ none ∧
    t.voidedAt = none ∧ t.quantity = quantity

theorem HasCombo.createLine {parentId quantity : ℕ} (h : HasCombo parentId quantity v)
    (l : OrderLine) : HasCombo parentId quantity (v.apply (.createLine l)) := by
  obtain ⟨t, ht, hcombo⟩ := h
  exact ⟨t, List.mem_append_left _ ht, hcombo⟩

theorem HasCombo.createLineModifier {parentId quantity : ℕ} (h : HasCombo parentId quantity v)
    (id : ℕ) (m : OrderLineModifier) :
    HasCombo parentId quantity (v.apply (.createLineModifier id m)) := by
  obtain ⟨t, ht, hcombo⟩ := h
  by_cases hid : t.id = id
  · exact ⟨{ t with modifiers := t.modifiers ++ [m] }, mem_updateRows.mpr (.inr ⟨t, ht, hid, rfl⟩),
      hcombo⟩
  · exact ⟨t, mem_updateRows.mpr (.inl ⟨ht, hid⟩), hcombo⟩

theorem commits_createLine_hasCombo {parentId quantity : ℕ} (h : HasCombo parentId quantity v)
    {line : OrderLine} {modifiers : List OrderLineModifier} :
    (createLine line modifiers).commits (fun _ => HasCombo parentId quantity) v := by
  simp only [createLine, Txn.commits, Txn.wlp_bind]
  refine commits_insertRow fun _ => Txn.wlp_forEach (fun m _ v₁ hv₁ => ?_) (h.createLine line)
  simp only [Txn.wlp_exec, applyAll_cons, applyAll_nil, writeTo_apply]
  exact fun _ _ => hv₁.createLineModifier _ m

theorem addCombo_whole (h : v.Whole) (staff : PosPrincipal) (name : String)
    (dto : AddComboLineDto) (menu : Except ApiError ComboSelection) :
    (addCombo staff name dto menu).commits (fun _ v' => v'.Whole) v := by
  simp only [addCombo, Txn.commits, Txn.wlp_bind, Txn.wlp_uuid]
  refine commits_loadOpenOrder fun _ => commits_ofExcept fun selection _ env _ => ?_
  have hparent : (createLine
      { id := env.uuid
        itemId := none, variantId := none, comboId := some dto.comboId, parentLineId := none
        quantity := dto.quantity, unitPriceMinor := selection.priceMinor, modifiers := []
        seatNumber := dto.seatNumber, guestId := none, guestName := none, voidedAt := none }
      []).commits (fun _ v' => v'.Whole ∧ HasCombo env.uuid dto.quantity v') v := by
    simp only [createLine, Txn.commits, Txn.wlp_bind, Txn.forEach_nil, Txn.wlp_done]
    refine commits_insertRow fun _ => ⟨h.apply ⟨fun _ => dto.one_le_quantity, fun hchild =>
      absurd rfl hchild⟩, ?_⟩
    exact ⟨_, List.mem_append_right _ (List.mem_singleton_self _), rfl, rfl, by simp, rfl, rfl⟩
  refine Txn.wlp_mono hparent fun _ v₁ hv₁ => ?_
  refine Txn.wlp_mono (Txn.wlp_forEach (I := fun v => v.Whole ∧ HasCombo env.uuid dto.quantity v)
    (fun child _ v₂ hv₂ => ?_) hv₁) fun _ _ h => h.1
  simp only [Txn.wlp_bind, Txn.wlp_uuid]
  intro env' _
  refine Txn.wlp_and (commits_createLine_whole hv₂.1 ⟨?_, fun _ => ?_⟩)
    (commits_createLine_hasCombo hv₂.2)
  · exact fun hnone => absurd hnone (by simp)
  · obtain ⟨t, ht, hid, htop, hcombo, hlive, hquantity⟩ := hv₂.2
    exact ⟨t, ht, by rw [hid], htop, hcombo, hlive.symm, by
      rw [hquantity]
      exact Nat.dvd_mul_left _ _⟩

theorem removeLine_whole (h : v.Whole) (staff : PosPrincipal) (name : String) (lineId : ℕ) :
    (removeLine staff name lineId).commits (fun _ v' => v'.Whole) v := by
  simp only [removeLine, Txn.commits, Txn.wlp_bind]
  refine commits_loadOpenOrder fun _ => commits_loadOrderLine fun line _ _ _ => ?_
  refine commits_assertNotComboLine (commits_assertLineNotSent ?_)
  refine commits_reads assertBillHasNoPayments_emits fun _ => ?_
  exact Txn.commits_writeWhen (fun _ => h.delete lineId) fun _ => trivial

theorem voidLine_whole (h : v.Whole) (hpriced : v.Priced)
    (staff : PosPrincipal) (name : String) (lineId : ℕ)
    (authorize : Except ApiError ManagerApproval) :
    (voidLine staff name lineId authorize).commits (fun _ v' => v'.Whole) v := by
  simp only [voidLine, lineAndChildIds, isSentToKitchen, voidTicketLines, recordApproval,
    Txn.commits, Txn.wlp_bind, Txn.wlp_query, Txn.wlp_pure, Txn.wlp_clock, Txn.wlp_exec,
    applyAll_cons, applyAll_nil, writeTo_apply]
  refine commits_loadOpenOrder fun _ => commits_loadOrderLine fun line hline _ _ => ?_
  refine commits_raiseIf fun htop => fun _ _ _ _ => commits_raiseIf fun _ => ?_
  refine commits_reads assertBillHasNoPayments_emits fun _ => commits_ofExcept fun approval _ => ?_
  intro env _ _ _ _ _ _ _
  have htop : line.parentLineId = none := not_not.mp htop
  -- The tickets' lines and the audit row are not the order's lines.
  refine Store.Whole.of_lines (@Store.Whole.void _ h _ env.now fun c hc t ht hitem => ?_) rfl
  have heq : ∀ {l l' : OrderLine}, l ∈ v.lines → l' ∈ v.lines → l.id = l'.id → l = l' :=
    fun hl hl' => eq_of_key_eq hpriced.ids hl hl'
  simp only [List.mem_cons, List.mem_map, List.mem_filter, decide_eq_true_eq]
  constructor
  · rintro (hid | ⟨c', ⟨hc', hparent⟩, hid⟩)
    · obtain rfl := heq hc hline hid
      rw [hitem.parent] at htop
      cases htop
    · obtain rfl := heq hc' hc hid
      exact .inl (Option.some.inj (hitem.parent.symm.trans hparent))
  · rintro (hid | ⟨c', ⟨hc', hparent⟩, hid⟩)
    · exact .inr ⟨c, ⟨hc, hid ▸ hitem.parent⟩, rfl⟩
    · obtain rfl := heq hc' ht hid
      rw [hitem.top] at hparent
      cases hparent

theorem updateLine_whole (h : v.Whole) (hpriced : v.Priced)
    (staff : PosPrincipal) (name : String) (lineId : ℕ) (dto : UpdateOrderLineDto) :
    (updateLine staff name lineId dto).commits (fun _ v' => v'.Whole) v := by
  simp only [updateLine, assertNotComboLine, Txn.commits, Txn.wlp_bind]
  refine commits_loadOpenOrder fun _ => commits_loadOrderLine fun line hline hid _ => ?_
  refine commits_raiseIf fun hcombo => commits_raiseIf fun hchild => commits_assertLineNotSent ?_
  refine commits_reads (assertReduction_emits _) fun _ => ?_
  have hmodifiers : ∀ v : Store, v.Whole → (whenGiven dto.modifiers fun menu => do
      let modifiers ← ofExcept menu
      replaceModifiers lineId modifiers).commits (fun _ v' => v'.Whole) v := by
    refine fun v h => commits_whenGiven (fun menu _ => ?_) fun _ => h
    simp only [replaceModifiers, Txn.commits, Txn.wlp_bind, Txn.wlp_query, Txn.wlp_exec,
      applyAll_cons, applyAll_nil, writeTo_apply]
    refine commits_ofExcept fun modifiers _ _ _ => ?_
    refine commits_reads (assertReduction_emits _) fun _ _ _ => ?_
    exact Txn.wlp_forEach (fun m _ v hv => commits_createModifier_whole hv lineId m)
      (h.apply (w := .deleteLineModifiers lineId) trivial)
  have hseat : ∀ v : Store, v.Whole → (whenGiven dto.seatNumber (updateLineSeat lineId)).commits
      (fun _ v' => v'.Whole) v := by
    refine fun v h => commits_whenGiven (fun seat _ => ?_) fun _ => h
    simp only [updateLineSeat, Txn.commits, Txn.wlp_bind]
    exact Txn.commits_writeWhen (fun _ => h.apply (w := .updateLineSeat lineId seat) trivial)
      fun _ => trivial
  have hquantity : (whenGiven dto.quantity (updateLineQuantity lineId)).commits
      (fun _ v' => v'.Whole) v := by
    refine commits_whenGiven (fun quantity hquantity => ?_) fun _ => h
    simp only [updateLineQuantity, Txn.commits, Txn.wlp_bind]
    refine Txn.commits_writeWhen (fun _ => h.recount ⟨dto.one_le_quantity _ hquantity, ?_⟩)
      fun _ => trivial
    -- The row is the line that was read, which is neither a combo nor in one.
    intro l hl hlid
    obtain rfl := eq_of_key_eq hpriced.ids hl hline (hlid.trans hid.symm)
    simp only [and_true, not_not] at hcombo hchild
    exact ⟨hcombo, hchild⟩
  exact Txn.wlp_mono hquantity fun _ v h => Txn.wlp_mono (hseat v h) fun _ v h => hmodifiers v h

end Operations

/-! ### Runs -/

theorem Op.Step.whole {op : Op} {v v' : Store} (h : op.Step v v') (hpriced : v.Priced)
    (hv : v.Whole) : v'.Whole := by
  refine h.post hv ?_
  cases op with
  | addLine staff name dto menu => exact addLine_whole hv staff name dto menu
  | addCombo staff name dto menu => exact addCombo_whole hv staff name dto menu
  | updateLine staff name lineId dto => exact updateLine_whole hv hpriced staff name lineId dto
  | removeLine staff name lineId => exact removeLine_whole hv staff name lineId
  | voidLine staff name lineId authorize =>
      exact voidLine_whole hv hpriced staff name lineId authorize
  | _ =>
      -- The requests that do not touch the order's lines.
      exact Txn.wlp_mono (emits_wlp_frame (Op.emits _) (.all (fun _ => trivial) _) v)
        fun _ _ hframe => hv.of_lines (hframe .orderLines (by simp [Op.tables, settlementTables,
          guestPaymentTables]))

/-- **Combos stay whole in every run.** -/
theorem Runs.whole {P : Op → Prop} {v v' : Store} (h : Runs P v v') (hpriced : v.Priced)
    (hwf : v.ledger.Wf) (hv : v.Whole) : v'.Whole := by
  refine (h.preserves (I := fun v => (v.Priced ∧ v.ledger.Wf) ∧ v.Whole) ?_
    ⟨⟨hpriced, hwf⟩, hv⟩).2
  rintro op v v' _ ⟨⟨hpriced, hwf⟩, hv⟩ hstep
  have hposts := hstep.posts hpriced hwf
  exact ⟨⟨hposts.1, hposts.wf hwf⟩, hstep.whole hpriced hv⟩

end RestiqBackend
