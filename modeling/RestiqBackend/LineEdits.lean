import RestiqBackend.Bookkeeping

/-!
What the line operations do to the books.

Each of them is one `edit`: the lines are worth at least what they were, or no
money was near the bill when they were made cheaper. A changed modifier selection
is written as a deletion and some inserts, so it is only an edit as a whole.
-/

namespace RestiqBackend

open ReadCommitted

/-- Only the lines changed, and what hangs on them in the kitchen; the order got
smaller only if no money is near its bill. -/
structure Edited (v v' : Store) : Prop where
  frame : Frame [.orderLines, .tickets, .auditEvents] v v'
  priced : v'.Priced
  worth : v.subtotal ≤ v'.subtotal ∨ (v.tenders = [] ∧ v.activeIntents = [])

/-- What `assertBillHasNoPayments` relies on where there is no bill to lock. -/
def Store.NoBillNoMoney (v : Store) : Prop := v.bill = none → v.tenders = [] ∧ v.activeIntents = []

theorem Ledger.Wf.noBillNoMoney {v : Store} (h : v.ledger.Wf) : v.NoBillNoMoney := by
  intro hb
  obtain ⟨htenders, hintents, _⟩ := h.no_bill hb
  exact ⟨htenders, congrArg (List.filter _) hintents⟩

namespace Edited

variable {v v' v'' : Store}

theorem refl (h : v.Priced) : Edited v v := ⟨.refl _ v, h, Or.inl le_rfl⟩

theorem tenders (h : Edited v v') : v'.tenders = v.tenders := h.frame .tenders (by decide)

theorem activeIntents (h : Edited v v') : v'.activeIntents = v.activeIntents :=
  congrArg (List.filter _) (h.frame .paymentIntents (by decide))

theorem trans (h : Edited v v') (h' : Edited v' v'') : Edited v v'' where
  frame := h.frame.trans h'.frame
  priced := h'.priced
  worth := by
    rcases h.worth with hle | hnone
    · rcases h'.worth with hle' | hnone'
      · exact Or.inl (hle.trans hle')
      · rw [h.tenders, h.activeIntents] at hnone'
        exact Or.inr hnone'
    · exact Or.inr hnone

theorem noBillNoMoney (h : Edited v v') (hv : v.NoBillNoMoney) : v'.NoBillNoMoney := by
  intro hb
  rw [h.tenders, h.activeIntents]
  exact hv ((h.frame .bills (by decide)).symm.trans hb)

/-- Without money near the bill, anything may be done to the lines. -/
theorem of_unpaid (hframe : Frame [.orderLines, .tickets, .auditEvents] v v')
    (hpriced : v'.Priced) (h : v.tenders = [] ∧ v.activeIntents = []) : Edited v v' :=
  ⟨hframe, hpriced, Or.inr h⟩

/-- The whole of it is one entry. -/
theorem posts {P : Entry → Prop} (hplain : P .plain) (h : Edited v v') : Posts P v v' := by
  have hledger : v'.ledger = { v.ledger with subtotal := v'.subtotal } := by
    have htenant := h.frame .tenants (by decide)
    have htax := h.frame .taxRegistrations (by decide)
    have henv := h.frame .environment (by decide)
    simp only [Table.same] at htenant htax henv
    simp [Store.ledger, Store.profile, Store.simulatorOn, Store.testMode, htenant, htax, henv,
      h.tenders, show v'.bill = v.bill from h.frame .bills (by decide),
      show v'.intents = v.intents from h.frame .paymentIntents (by decide),
      show v'.shares = v.shares from h.frame .billShares (by decide)]
  refine ⟨h.priced, [.plain], Ledger.Move.page ?_, by simpa using hplain⟩
  rw [hledger]
  exact .edit v.ledger _ h.priced.subtotal_nonneg h.worth

end Edited

/-! ### What a line is worth -/

/-- Changing lines one by one, none of them to a smaller worth. -/
theorem subtotal_map_le {f : OrderLine → OrderLine} {lines : List OrderLine}
    (hvoid : ∀ l, (f l).voidedAt = l.voidedAt)
    (h : ∀ l ∈ lines, l.totalMinor ≤ (f l).totalMinor) :
    ((lines.filter (·.voidedAt.isNone)).map OrderLine.totalMinor).sum ≤
      (((lines.map f).filter (·.voidedAt.isNone)).map OrderLine.totalMinor).sum := by
  induction lines with
  | nil => simp
  | cons l ls ih =>
      have ih := ih fun l' hl' => h l' (List.mem_cons_of_mem _ hl')
      have hl := h l List.mem_cons_self
      rw [List.map_cons, List.filter_cons, List.filter_cons, hvoid]
      split
      · simp only [List.map_cons, List.sum_cons]
        exact add_le_add hl ih
      · exact ih

/-- More of the same, or the same at a higher price. -/
theorem OrderLine.totalMinor_le {l l' : OrderLine} (hquantity : l.quantity ≤ l'.quantity)
    (hunit : l.unitMinor ≤ l'.unitMinor) (h0 : 0 ≤ l.unitMinor) : l.totalMinor ≤ l'.totalMinor :=
  mul_le_mul (by exact_mod_cast hquantity) hunit h0 (Int.natCast_nonneg _)

/-- Prices of a line and of its modifiers. -/
def OrderLine.Priced (l : OrderLine) : Prop :=
  0 ≤ l.unitPriceMinor ∧ ∀ m ∈ l.modifiers, 0 ≤ m.priceMinor

section Writes

variable {v v' : Store} {id : ℕ}

/-- Rows changed in place keep their keys. -/
theorem priced_updateRows {f : OrderLine → OrderLine} (h : v.Priced) (hid : ∀ l, (f l).id = l.id)
    (hf : ∀ l, l.Priced → (f l).Priced)
    (hlines : v'.lines = updateRows OrderLine.id id f v.lines) : v'.Priced where
  prices l hl := by
    rw [hlines] at hl
    rcases mem_updateRows.mp hl with ⟨hl, _⟩ | ⟨l₀, hl₀, _, rfl⟩
    · exact h.prices l hl
    · exact hf l₀ (h.prices l₀ hl₀)
  ids := by
    rw [hlines]
    exact nodup_updateRows hid h.ids

/-- A change of the rows with one key, to nothing that is worth less. -/
theorem Edited.update {f : OrderLine → OrderLine} (h : v.Priced) (hid : ∀ l, (f l).id = l.id)
    (hf : ∀ l, l.Priced → (f l).Priced) (hvoid : ∀ l, (f l).voidedAt = l.voidedAt)
    (hframe : Frame [.orderLines] v v')
    (hlines : v'.lines = updateRows OrderLine.id id f v.lines)
    (hworth : (∀ l ∈ v.lines, l.id = id → l.totalMinor ≤ (f l).totalMinor) ∨
      (v.tenders = [] ∧ v.activeIntents = [])) : Edited v v' := by
  refine ⟨hframe.mono (by simp), priced_updateRows h hid hf hlines, hworth.imp_left fun hle => ?_⟩
  rw [Store.subtotal, Store.subtotal, Store.liveLines, Store.liveLines, hlines, updateRows]
  refine subtotal_map_le (fun l => ?_) fun l hl => ?_
  · split
    · exact hvoid l
    · rfl
  · split
    · exact hle l hl (by assumption)
    · exact le_rfl

/-- A new line is worth something or nothing, never less. -/
theorem Edited.insert {l : OrderLine} (h : v.Priced) (hl : l.Priced)
    (hfree : v.lines.any (·.id = l.id) = false) : Edited v (v.apply (.createLine l)) := by
  have hlines : (v.apply (.createLine l)).lines = v.lines ++ [l] := rfl
  refine ⟨frame_apply (by simp [Write.table]) v, ⟨fun x hx => ?_, ?_⟩, Or.inl ?_⟩
  · rcases List.mem_append.mp (hlines ▸ hx) with hx | hx
    · exact h.prices x hx
    · rw [List.mem_singleton] at hx
      exact hx ▸ hl
  · rw [hlines, List.map_append, List.map_cons, List.map_nil]
    refine List.Nodup.append h.ids (List.nodup_singleton _) ?_
    intro x hx hxl
    obtain ⟨y, hy, rfl⟩ := List.mem_map.mp hx
    simp only [List.any_eq_false, decide_eq_true_eq] at hfree
    exact hfree y hy (by simpa using hxl)
  · rw [Store.subtotal, Store.subtotal, Store.liveLines, Store.liveLines, hlines,
      List.filter_append, List.map_append, List.sum_append]
    refine le_add_of_nonneg_right (List.sum_nonneg fun x hx => ?_)
    obtain ⟨y, hy, rfl⟩ := List.mem_map.mp hx
    rw [List.mem_singleton.mp (List.mem_of_mem_filter hy)]
    exact OrderLine.totalMinor_nonneg hl

/-- One more modifier, at a price that is not negative. -/
theorem Edited.modifier {m : OrderLineModifier} (h : v.Priced) (hm : 0 ≤ m.priceMinor) :
    Edited v (v.apply (.createLineModifier id m)) := by
  refine .update h (f := fun l => { l with modifiers := l.modifiers ++ [m] }) (fun _ => rfl) ?_
    (fun _ => rfl) (frame_apply (by simp [Write.table]) v) rfl (Or.inl fun l hl _ => ?_)
  · intro l hl
    refine ⟨hl.1, fun m' hm' => ?_⟩
    rcases List.mem_append.mp hm' with hm' | hm'
    · exact hl.2 m' hm'
    · rw [List.mem_singleton] at hm'
      exact hm' ▸ hm
  · refine OrderLine.totalMinor_le le_rfl ?_ (OrderLine.unitMinor_nonneg (h.prices l hl))
    simpa [OrderLine.unitMinor] using hm

end Writes

/-! ### The shared steps -/

section Steps

variable {v : Store}

theorem commits_assertBillHasNoPayments {Q : Unit → Store → Prop} (hv : v.NoBillNoMoney)
    (hQ : v.tenders = [] ∧ v.activeIntents = [] → Q () v) :
    assertBillHasNoPayments.commits Q v := by
  simp only [assertBillHasNoPayments, Txn.commits, Txn.wlp_bind, Txn.wlp_query]
  intro _ _
  split
  · simp only [lockBill, Txn.wlp_bind, Txn.wlp_exec, Txn.wlp_query, applyAll_nil]
    intro _ _ _ _
    refine commits_raiseIf fun hcount => hQ ?_
    simp only [Store.paymentCount] at hcount
    exact ⟨List.eq_nil_of_length_eq_zero (by omega), List.eq_nil_of_length_eq_zero (by omega)⟩
  · rename_i hnone
    exact hQ (hv (by simpa using hnone))

theorem commits_assertReduction {Q : Unit → Store → Prop} {reduces : Bool} (hv : v.NoBillNoMoney)
    (hQ : reduces = false ∨ (v.tenders = [] ∧ v.activeIntents = []) → Q () v) :
    (assertReduction reduces).commits Q v := by
  cases reduces with
  | false => exact hQ (Or.inl rfl)
  | true => exact commits_assertBillHasNoPayments hv fun h => hQ (Or.inr h)

theorem commits_loadOpenOrder {Q : Order → Store → Prop} {staff : PosPrincipal} {name : String}
    (hQ : v.order.status ≠ .closed → Q v.order v) : (loadOpenOrder staff name).commits Q v := by
  simp only [loadOpenOrder, assertOwner, assertOrderNotClosed, Txn.commits, Txn.wlp_bind,
    Txn.wlp_query, Txn.wlp_pure]
  exact fun _ _ => commits_raiseIf fun _ => commits_raiseIf fun hstatus => hQ hstatus

theorem commits_loadOrderLine {Q : OrderLine → Store → Prop} {lineId : ℕ}
    (hQ : ∀ l ∈ v.lines, l.id = lineId → v.lines.find? (·.id = lineId) = some l → Q l v) :
    (loadOrderLine lineId).commits Q v := by
  simp only [loadOrderLine, Txn.commits, Txn.wlp_bind, Txn.wlp_query]
  intro _ _
  cases hfind : v.lines.find? (·.id = lineId) with
  | none => trivial
  | some l =>
      cases hlive : l.voidedAt.isNone with
      | false => simp [Option.filter, hlive]
      | true =>
          simp only [Option.filter, hlive, if_true]
          exact hQ l (List.mem_of_find?_eq_some hfind) (by simpa using List.find?_some hfind) hfind

theorem commits_loadLiveLine {Q : OrderLine → Store → Prop} {lineId : ℕ}
    (hQ : ∀ l ∈ v.lines, l.id = lineId → l.voidedAt = none → Q l v) :
    (loadOrderLine lineId).commits Q v := by
  simp only [loadOrderLine, Txn.commits, Txn.wlp_bind, Txn.wlp_query]
  intro _ _
  cases hfind : (v.lines.find? (·.id = lineId)).filter (·.voidedAt.isNone) with
  | none => trivial
  | some l =>
      obtain ⟨hfound, hlive⟩ := Option.filter_eq_some_iff.mp hfind
      exact hQ l (List.mem_of_find?_eq_some hfound) (by simpa using List.find?_some hfound)
        (by simpa using hlive)

theorem commits_assertNotComboLine {Q : Unit → Store → Prop} {line : OrderLine}
    {action : ComboAction} (hQ : Q () v) : (assertNotComboLine line action).commits Q v := by
  simp only [assertNotComboLine, Txn.commits, Txn.wlp_bind]
  exact commits_raiseIf fun _ => commits_raiseIf fun _ => hQ

theorem commits_assertLineNotSent {Q : Unit → Store → Prop} {line : OrderLine} (hQ : Q () v) :
    (assertLineNotSent line).commits Q v := by
  simp only [assertLineNotSent, lineAndChildIds, isSentToKitchen, Txn.commits, Txn.wlp_bind,
    Txn.wlp_query, Txn.wlp_pure]
  exact fun _ _ _ _ => commits_raiseIf fun _ => hQ

/-- A line with its modifiers, each row its own insert. -/
theorem commits_createLine {line : OrderLine} {modifiers : List OrderLineModifier}
    (h : v.Priced) (hline : line.Priced) (hmodifiers : ∀ m ∈ modifiers, 0 ≤ m.priceMinor) :
    (createLine line modifiers).commits (fun _ v' => Edited v v') v := by
  simp only [createLine, Txn.commits, Txn.wlp_bind]
  refine commits_insertRow fun hfree => ?_
  refine Txn.wlp_forEach (I := Edited v) (fun m hm v₁ hv₁ => ?_) (.insert h hline hfree)
  simp only [Txn.wlp_exec, applyAll_cons, applyAll_nil, writeTo_apply]
  exact fun _ _ => hv₁.trans (.modifier hv₁.priced (hmodifiers m hm))

end Steps

/-! ### The operations -/

section Operations

variable {v : Store}

theorem PricedItem.modifierRows_nonneg (item : PricedItem) :
    ∀ m ∈ item.modifierRows, 0 ≤ m.priceMinor := by
  intro m hm
  obtain ⟨x, _, rfl⟩ := List.mem_map.mp hm
  exact Int.natCast_nonneg _

theorem addLine_edits (hpriced : v.Priced) (staff : PosPrincipal) (name : String)
    (dto : AddOrderLineDto) (menu : Except ApiError PricedItem) :
    (addLine staff name dto menu).commits (fun _ v' => Edited v v') v := by
  simp only [addLine, Txn.commits, Txn.wlp_bind, Txn.wlp_uuid]
  refine commits_loadOpenOrder fun _ => commits_ofExcept fun item _ => ?_
  intro _ _
  exact commits_createLine hpriced ⟨Int.natCast_nonneg _, by simp⟩ item.modifierRows_nonneg

theorem addCombo_edits (hpriced : v.Priced) (staff : PosPrincipal) (name : String)
    (dto : AddComboLineDto) (menu : Except ApiError ComboSelection) :
    (addCombo staff name dto menu).commits (fun _ v' => Edited v v') v := by
  simp only [addCombo, Txn.commits, Txn.wlp_bind, Txn.wlp_uuid]
  refine commits_loadOpenOrder fun _ => commits_ofExcept fun selection _ => ?_
  intro _ _
  refine Txn.wlp_mono (commits_createLine hpriced ⟨Int.natCast_nonneg _, by simp⟩ (by simp)) ?_
  intro _ v₁ hparent
  refine Txn.wlp_forEach (I := Edited v) (fun child _ v₂ hv₂ => ?_) hparent
  simp only [Txn.wlp_bind, Txn.wlp_uuid]
  intro _ _
  refine Txn.wlp_mono (commits_createLine hv₂.priced ⟨Int.natCast_nonneg _, by simp⟩
    child.item.modifierRows_nonneg) fun _ _ h => hv₂.trans h

/-- A quantity that is not smaller, or that may be. -/
theorem updateLineQuantity_edits (hpriced : v.Priced) {lineId quantity : ℕ}
    (h : (∀ l ∈ v.lines, l.id = lineId → l.quantity ≤ quantity) ∨
      (v.tenders = [] ∧ v.activeIntents = [])) :
    (updateLineQuantity lineId quantity).commits (fun _ v' => Edited v v') v := by
  simp only [updateLineQuantity, Txn.commits, Txn.wlp_bind]
  refine Txn.commits_writeWhen (fun _ => ?_) fun _ => trivial
  show Edited v (v.apply (.updateLineQuantity lineId quantity))
  refine .update hpriced (f := fun l => { l with quantity }) (fun _ => rfl) (fun _ hl => hl)
    (fun _ => rfl) (frame_apply (by simp [Write.table]) v) rfl (h.imp_left fun hle l hl hid => ?_)
  exact OrderLine.totalMinor_le (hle l hl hid) le_rfl
    (OrderLine.unitMinor_nonneg (hpriced.prices l hl))

theorem updateLineSeat_edits (hpriced : v.Priced) (lineId seat : ℕ) :
    (updateLineSeat lineId seat).commits (fun _ v' => Edited v v') v := by
  simp only [updateLineSeat, Txn.commits, Txn.wlp_bind]
  refine Txn.commits_writeWhen (fun _ => ?_) fun _ => trivial
  show Edited v (v.apply (.updateLineSeat lineId seat))
  exact .update hpriced (f := fun l => { l with seatNumber := some seat }) (fun _ => rfl)
    (fun _ hl => hl) (fun _ => rfl) (frame_apply (by simp [Write.table]) v) rfl
    (Or.inl fun _ _ _ => le_rfl)

/-- The inserts of a selection, one after the other. -/
theorem commits_createModifiers (lineId : ℕ) (modifiers done : List OrderLineModifier)
    {v₀ : Store} (hframe : Frame [.orderLines] v₀ v)
    (hlines : v.lines = updateRows OrderLine.id lineId ({ · with modifiers := done }) v₀.lines) :
    (Txn.forEach (fun m => Txn.exec (fun _ => []) fun _ => [.createLineModifier lineId m])
      modifiers : Tx Unit).commits (fun _ v' => Frame [.orderLines] v₀ v' ∧
        v'.lines = updateRows OrderLine.id lineId
          ({ · with modifiers := done ++ modifiers }) v₀.lines) v := by
  induction modifiers generalizing v done with
  | nil => simpa using ⟨hframe, hlines⟩
  | cons m modifiers ih =>
      simp only [Txn.forEach_cons, Txn.commits, Txn.wlp_bind, Txn.wlp_exec, applyAll_cons,
        applyAll_nil, writeTo_apply]
      intro _ _
      have := ih (v := v.apply (.createLineModifier lineId m)) (done ++ [m]) ?_ ?_
      · simpa using this
      · exact hframe.trans (frame_apply (by simp [Write.table]) v)
      · have happly : (v.apply (.createLineModifier lineId m)).lines = updateRows OrderLine.id
            lineId (fun l => { l with modifiers := l.modifiers ++ [m] }) v.lines := rfl
        rw [happly, hlines, updateRows, updateRows, updateRows, List.map_map]
        refine List.map_congr_left fun l _ => ?_
        by_cases hl : l.id = lineId
        · simp [hl]
        · simp [hl]

theorem replaceModifiers_edits (hpriced : v.Priced) (hv : v.NoBillNoMoney) (lineId : ℕ)
    {modifiers : List OrderLineModifier} (hmodifiers : ∀ m ∈ modifiers, 0 ≤ m.priceMinor) :
    (replaceModifiers lineId modifiers).commits (fun _ v' => Edited v v') v := by
  simp only [replaceModifiers, Txn.commits, Txn.wlp_bind, Txn.wlp_query, Txn.wlp_exec,
    applyAll_cons, applyAll_nil, writeTo_apply]
  intro _ _
  refine commits_assertReduction hv fun hcheaper => ?_
  intro _ _
  have hdeleted : Frame [.orderLines] v (v.apply (.deleteLineModifiers lineId)) :=
    frame_apply (by simp [Write.table]) v
  refine Txn.wlp_mono (commits_createModifiers lineId modifiers [] hdeleted rfl) ?_
  rintro _ v' ⟨hframe, hlines⟩
  refine .update hpriced (f := fun l => { l with modifiers }) (fun _ => rfl)
    (fun l hl => ⟨hl.1, hmodifiers⟩) (fun _ => rfl) hframe
    hlines (hcheaper.imp_left fun hle l hl hid => ?_)
  -- The modifiers that were read are those of the one line with this key.
  have hfind : v.lines.find? (·.id = lineId) = some l := hid ▸ find?_key hpriced.ids hl
  simp only [hfind, Option.map_some, Option.getD_some, decide_eq_false_iff_not, not_lt] at hle
  refine OrderLine.totalMinor_le le_rfl ?_ (OrderLine.unitMinor_nonneg (hpriced.prices l hl))
  exact add_le_add le_rfl hle

theorem updateLine_edits (hpriced : v.Priced) (hv : v.NoBillNoMoney) (staff : PosPrincipal)
    (name : String) (lineId : ℕ) (dto : UpdateOrderLineDto) :
    (updateLine staff name lineId dto).commits (fun _ v' => Edited v v') v := by
  simp only [updateLine, Txn.commits, Txn.wlp_bind]
  refine commits_loadOpenOrder fun _ => commits_loadOrderLine fun line hline hid hfind => ?_
  refine commits_assertNotComboLine (commits_assertLineNotSent ?_)
  refine commits_assertReduction hv fun hreduces => ?_
  -- The three parts of the change, each an edit after the last.
  have hseat : ∀ v₁, Edited v v₁ →
      (whenGiven dto.seatNumber (updateLineSeat lineId)).commits (fun _ v₂ =>
        (whenGiven dto.modifiers fun menu => do
          let modifiers ← ofExcept menu
          replaceModifiers lineId modifiers).commits (fun _ v' => Edited v v') v₂) v₁ := by
    have hselect : ∀ v₁, Edited v v₁ →
        (whenGiven dto.modifiers fun menu => do
          let modifiers ← ofExcept menu
          replaceModifiers lineId modifiers).commits (fun _ v' => Edited v v') v₁ := by
      intro v₁ hv₁
      refine commits_whenGiven (fun menu hmenu => ?_) fun _ => hv₁
      simp only [Txn.commits, Txn.wlp_bind]
      refine commits_ofExcept fun modifiers hok => ?_
      exact Txn.wlp_mono (replaceModifiers_edits hv₁.priced (hv₁.noBillNoMoney hv) lineId
        (dto.modifiers_nonneg menu hmenu modifiers hok)) fun _ _ h => hv₁.trans h
    intro v₁ hv₁
    refine commits_whenGiven (fun seat _ => ?_) fun _ => hselect v₁ hv₁
    exact Txn.wlp_mono (updateLineSeat_edits hv₁.priced lineId seat) fun _ v₂ h =>
      hselect v₂ (hv₁.trans h)
  refine commits_whenGiven (fun quantity hquantity => ?_) fun _ => hseat v (.refl hpriced)
  refine Txn.wlp_mono (updateLineQuantity_edits hpriced (hreduces.imp_left fun hle l hl hlid => ?_))
    fun _ v₁ h => hseat v₁ h
  have : l = line := eq_of_key_eq hpriced.ids hl hline (hlid.trans hid.symm)
  simpa [this, hquantity] using hle

theorem removeLine_edits (hpriced : v.Priced) (hv : v.NoBillNoMoney) (staff : PosPrincipal)
    (name : String) (lineId : ℕ) :
    (removeLine staff name lineId).commits (fun _ v' => Edited v v') v := by
  simp only [removeLine, Txn.commits, Txn.wlp_bind]
  refine commits_loadOpenOrder fun _ => commits_loadOrderLine fun line _ _ _ => ?_
  refine commits_assertNotComboLine (commits_assertLineNotSent ?_)
  refine commits_assertBillHasNoPayments hv fun hnone => ?_
  refine Txn.commits_writeWhen (fun _ => ?_) fun _ => trivial
  show Edited v (v.apply (.deleteLine lineId))
  refine .of_unpaid (frame_apply (by simp [Write.table]) v) ⟨fun l hl => ?_, ?_⟩ hnone
  · exact hpriced.prices l (List.mem_of_mem_filter hl)
  · exact hpriced.ids.sublist (List.filter_sublist.map _)

theorem voidLine_edits (hpriced : v.Priced) (hv : v.NoBillNoMoney) (staff : PosPrincipal)
    (name : String) (lineId : ℕ) (authorize : Except ApiError ManagerApproval) :
    (voidLine staff name lineId authorize).commits (fun _ v' => Edited v v') v := by
  simp only [voidLine, lineAndChildIds, isSentToKitchen, voidTicketLines, recordApproval,
    Txn.commits, Txn.wlp_bind,
    Txn.wlp_query, Txn.wlp_pure, Txn.wlp_clock, Txn.wlp_exec, applyAll_cons, applyAll_nil,
    writeTo_apply]
  refine commits_loadOpenOrder fun _ => commits_loadOrderLine fun line _ _ _ => ?_
  refine commits_raiseIf fun _ => fun _ _ _ _ => commits_raiseIf fun _ => ?_
  refine commits_assertBillHasNoPayments hv fun hnone => commits_ofExcept fun approval _ => ?_
  intro env _ _ _ _ _ _ _
  set ids := line.id :: (v.lines.filter (·.parentLineId = some line.id)).map (·.id)
  refine .of_unpaid ?_ ⟨fun l hl => ?_, ?_⟩ hnone
  · exact (frame_apply (by simp [Write.table]) v).trans
      ((frame_apply (by simp [Write.table]) _).trans (frame_apply (by simp [Write.table]) _))
  · obtain ⟨l₀, hl₀, rfl⟩ := List.mem_map.mp hl
    have := hpriced.prices l₀ hl₀
    split
    · exact this
    · exact this
  · have hkeys : ∀ l : OrderLine, (if l.id ∈ ids then { l with voidedAt := some env.now }
        else l).id = l.id := fun l => by split <;> rfl
    show ((v.lines.map _).map _).Nodup
    rw [List.map_map]
    exact (List.map_congr_left fun l _ => hkeys l) ▸ hpriced.ids

end Operations

end RestiqBackend
