import RestiqBackend.CartEdits
import RestiqBackend.ComboPicks

/-!
The combos of a cart (`src/guest/cart/cart.service.ts`).

How many of a pick one combo takes is nowhere stored: it is divided out of the quantities of the
pick and of its line. `Kept` says of the lines of all carts that the division comes out even, that
every pick finds its line, and that the picks of a line are a selection of its combo. Whatever is
asked of the carts either drops whole combos, or changes lines in place so that the counts stay
(`Moves`), or adds a line or a combo.
-/

namespace RestiqBackend.CartCombos

open Catalogue TableCart CartEdits
open ComboPicks (Keyed Answers childrenOf)
open Serial (check_ok orElseThrow_ok)

/-! ### Lines -/

/-- What a line is, whatever it is changed to. -/
def identity (l : CartLine) : CartLine := { l with quantity := 0, note := none, modifierIds := [] }

/-- `c` is a pick of the line `t`, of which one combo takes some. -/
structure PickOf (t c : CartLine) : Prop where
  parent : c.parentLineId = some t.id
  comboId : c.comboId = none
  sessionId : c.sessionId = t.sessionId
  guestId : c.guestId = t.guestId
  times : ∃ n, 1 ≤ n ∧ c.quantity = n * t.quantity

/-- The pick is of an option of the slot. -/
def ofSlot (slot : ComboSlot) (c : CartLine) : Bool :=
  slot.options.any fun option => c.comboOptionId = some option.id

/-- The picks of a line are a selection of its combo. -/
structure Chosen (combo : Combo) (t : CartLine) (picks : List CartLine) : Prop where
  pickOf : ∀ c ∈ picks, PickOf t c
  options : ∀ c ∈ picks, ∃ slot ∈ combo.slots, ∃ option ∈ slot.options,
    c.comboOptionId = some option.id ∧ c.itemId = some option.itemId ∧
      c.variantId = option.variantId
  counts : ∀ slot ∈ combo.slots, ((picks.filter (ofSlot slot)).map (perCombo t)).sum = slot.pickCount

/-- The lines of the carts, against the combos that the menu has. -/
structure Kept (m : Menu) (lines : List CartLine) : Prop where
  ids : (lines.map (·.id)).Nodup
  parents : ∀ c ∈ lines, ∀ p, c.parentLineId = some p →
    ∃ t ∈ lines, t.id = p ∧ t.parentLineId = none ∧ t.comboId ≠ none
  quantities : ∀ t ∈ lines, t.parentLineId = none → 1 ≤ t.quantity
  modifiers : ∀ l ∈ lines, l.modifierIds.Nodup
  combos : ∀ t ∈ lines, ∀ comboId, t.comboId = some comboId → t.parentLineId = none ∧
    ∃ combo, m.combo comboId = some combo ∧ Chosen combo t (childLines lines t)

/-- Lines changed in place, with the counts of their combos. -/
structure Moves (lines : List CartLine) (f : CartLine → CartLine) : Prop where
  same : ∀ l, identity (f l) = identity l
  modifiers : ∀ l ∈ lines, l.comboId ≠ none ∨ l.parentLineId ≠ none →
    (f l).modifierIds = l.modifierIds
  nodup : ∀ l ∈ lines, l.modifierIds.Nodup → (f l).modifierIds.Nodup
  tops : ∀ t ∈ lines, t.parentLineId = none → 1 ≤ t.quantity → 1 ≤ (f t).quantity
  counts : ∀ t ∈ lines, ∀ c ∈ lines, c.parentLineId = some t.id → ∀ n, c.quantity = n * t.quantity →
    (f c).quantity = n * (f t).quantity

/-- Each combo of the carts is gone with its picks, or there with as many of each. -/
def KeepsCounts (lines lines' : List CartLine) : Prop :=
  ∀ t ∈ lines, t.comboId ≠ none →
    (∀ l ∈ lines', l.id ≠ t.id ∧ l.parentLineId ≠ some t.id) ∨
      ∃ t' ∈ lines', fixed t' = fixed t ∧ picks lines' t' = picks lines t

variable {m m' : Menu} {lines lines' : List CartLine} {t c : CartLine} {combo : Combo}
  {f : CartLine → CartLine}

theorem PickOf.perCombo_eq (h : PickOf t c) (ht : 1 ≤ t.quantity) :
    ∃ n : ℕ, 1 ≤ n ∧ c.quantity = n * t.quantity ∧ perCombo t c = n := by
  obtain ⟨n, hn, hquantity⟩ := h.times
  have hne : (t.quantity : ℚ) ≠ 0 := Nat.cast_ne_zero.mpr (Nat.one_le_iff_ne_zero.mp ht)
  refine ⟨n, hn, hquantity, ?_⟩
  rw [perCombo, hquantity, Nat.cast_mul, mul_div_cancel_right₀ _ hne]

theorem mem_childLines : c ∈ childLines lines t ↔ c ∈ lines ∧ c.parentLineId = some t.id := by
  rw [childLines, List.mem_filter, decide_eq_true_iff]

theorem Kept.eq_of_id (h : Kept m lines) {l l' : CartLine} (hl : l ∈ lines) (hl' : l' ∈ lines)
    (hid : l.id = l'.id) : l = l' :=
  List.inj_on_of_nodup_map h.ids hl hl' hid

/-- The line of a pick is a combo's. -/
theorem Kept.top (h : Kept m lines) (ht : t ∈ lines) (hc : c ∈ lines)
    (hparent : c.parentLineId = some t.id) : t.parentLineId = none ∧ t.comboId ≠ none := by
  obtain ⟨t', ht', hid, htop⟩ := h.parents c hc t.id hparent
  rwa [h.eq_of_id ht' ht hid] at htop

theorem Kept.pickOf (h : Kept m lines) (ht : t ∈ lines) (hc : c ∈ lines)
    (hparent : c.parentLineId = some t.id) : PickOf t c := by
  obtain ⟨comboId, hcombo⟩ := Option.ne_none_iff_exists'.mp (h.top ht hc hparent).2
  obtain ⟨-, combo, -, hchosen⟩ := h.combos t ht comboId hcombo
  exact hchosen.pickOf c (mem_childLines.mpr ⟨hc, hparent⟩)

theorem Kept.of_menu (h : Kept m lines) (hm : ∀ id combo, m.combo id = some combo →
    (∃ t ∈ lines, t.comboId = some id) → m'.combo id = some combo) : Kept m' lines where
  ids := h.ids
  parents := h.parents
  quantities := h.quantities
  modifiers := h.modifiers
  combos t ht comboId hcombo := by
    obtain ⟨htop, combo, hfound, hchosen⟩ := h.combos t ht comboId hcombo
    exact ⟨htop, combo, hm comboId combo hfound ⟨t, ht, hcombo⟩, hchosen⟩

/-! ### Lines changed in place -/

namespace Moves

/-- A column that is not changed. -/
theorem column_eq {β : Type} (h : Moves lines f) (column : CartLine → β)
    (hcolumn : ∀ l, column (identity l) = column l) (l : CartLine) : column (f l) = column l := by
  rw [← hcolumn, h.same, hcolumn]

theorem id_eq (h : Moves lines f) (l : CartLine) : (f l).id = l.id :=
  h.column_eq CartLine.id (fun _ => rfl) l

theorem parentLineId_eq (h : Moves lines f) (l : CartLine) :
    (f l).parentLineId = l.parentLineId :=
  h.column_eq CartLine.parentLineId (fun _ => rfl) l

theorem comboId_eq (h : Moves lines f) (l : CartLine) : (f l).comboId = l.comboId :=
  h.column_eq CartLine.comboId (fun _ => rfl) l

theorem comboOptionId_eq (h : Moves lines f) (l : CartLine) :
    (f l).comboOptionId = l.comboOptionId :=
  h.column_eq CartLine.comboOptionId (fun _ => rfl) l

theorem childLines_eq (h : Moves lines f) (t : CartLine) :
    childLines (lines.map f) (f t) = (childLines lines t).map f := by
  rw [childLines, List.filter_map, childLines, h.id_eq t]
  congr 1
  refine List.filter_congr fun l _ => ?_
  rw [Function.comp_apply, h.parentLineId_eq l]

theorem fixed_eq (h : Moves lines f) {l : CartLine} (hl : l ∈ lines)
    (hcombo : l.comboId ≠ none ∨ l.parentLineId ≠ none) : fixed (f l) = fixed l := by
  have hsame := h.same l
  have hmodifiers := h.modifiers l hl hcombo
  simp only [identity, fixed, CartLine.mk.injEq] at hsame ⊢
  tauto

theorem pickOf (h : Moves lines f) (hkept : Kept m lines) (ht : t ∈ lines) (hc : c ∈ lines)
    (hpick : PickOf t c) : PickOf (f t) (f c) ∧ perCombo (f t) (f c) = perCombo t c := by
  obtain ⟨htop, -⟩ := hkept.top ht hc hpick.parent
  have hone := hkept.quantities t ht htop
  have hone' := h.tops t ht htop hone
  obtain ⟨n, hn, hquantity, hcount⟩ := hpick.perCombo_eq hone
  have hmoved := h.counts t ht c hc hpick.parent n hquantity
  have hpick' : PickOf (f t) (f c) :=
    { parent := by rw [h.parentLineId_eq, h.id_eq, hpick.parent]
      comboId := by rw [h.comboId_eq, hpick.comboId]
      sessionId := by
        have hcolumn := h.column_eq CartLine.sessionId fun _ => rfl
        rw [hcolumn, hcolumn, hpick.sessionId]
      guestId := by
        have hcolumn := h.column_eq CartLine.guestId fun _ => rfl
        rw [hcolumn, hcolumn, hpick.guestId]
      times := ⟨n, hn, hmoved⟩ }
  refine ⟨hpick', ?_⟩
  have hne : ((f t).quantity : ℚ) ≠ 0 := Nat.cast_ne_zero.mpr (Nat.one_le_iff_ne_zero.mp hone')
  rw [hcount, perCombo, hmoved, Nat.cast_mul, mul_div_cancel_right₀ _ hne]

theorem chosen (h : Moves lines f) (hkept : Kept m lines) (ht : t ∈ lines)
    (hchosen : Chosen combo t (childLines lines t)) :
    Chosen combo (f t) ((childLines lines t).map f) where
  pickOf c hc := by
    obtain ⟨c, hmem, rfl⟩ := List.mem_map.mp hc
    exact (h.pickOf hkept ht (mem_childLines.mp hmem).1 (hchosen.pickOf c hmem)).1
  options c hc := by
    obtain ⟨c, hmem, rfl⟩ := List.mem_map.mp hc
    obtain ⟨slot, hslot, option, hoption, hid, hitem, hvariant⟩ := hchosen.options c hmem
    exact ⟨slot, hslot, option, hoption, (h.comboOptionId_eq c).trans hid,
      (h.column_eq CartLine.itemId (fun _ => rfl) c).trans hitem,
      (h.column_eq CartLine.variantId (fun _ => rfl) c).trans hvariant⟩
  counts slot hslot := by
    rw [← hchosen.counts slot hslot, List.filter_map, List.map_map]
    have hof : ofSlot slot ∘ f = ofSlot slot := by
      funext c
      rw [Function.comp_apply, ofSlot, ofSlot, h.comboOptionId_eq c]
    rw [hof]
    congr 1
    refine List.map_congr_left fun c hc => ?_
    have hmem := List.mem_of_mem_filter hc
    exact (h.pickOf hkept ht (mem_childLines.mp hmem).1 (hchosen.pickOf c hmem)).2

theorem kept (h : Moves lines f) (hkept : Kept m lines) : Kept m (lines.map f) where
  ids := by
    rw [List.map_map]
    have hid : (fun l : CartLine => l.id) ∘ f = (·.id) := funext h.id_eq
    rw [hid]
    exact hkept.ids
  parents c hc p hparent := by
    obtain ⟨c, hmem, rfl⟩ := List.mem_map.mp hc
    rw [h.parentLineId_eq] at hparent
    obtain ⟨t, ht, hid, htop, hcombo⟩ := hkept.parents c hmem p hparent
    exact ⟨f t, List.mem_map_of_mem ht, (h.id_eq t).trans hid, (h.parentLineId_eq t).trans htop,
      (h.comboId_eq t).symm ▸ hcombo⟩
  quantities t ht htop := by
    obtain ⟨t, hmem, rfl⟩ := List.mem_map.mp ht
    rw [h.parentLineId_eq] at htop
    exact h.tops t hmem htop (hkept.quantities t hmem htop)
  modifiers l hl := by
    obtain ⟨l, hmem, rfl⟩ := List.mem_map.mp hl
    exact h.nodup l hmem (hkept.modifiers l hmem)
  combos t ht comboId hcombo := by
    obtain ⟨t, hmem, rfl⟩ := List.mem_map.mp ht
    rw [h.comboId_eq] at hcombo
    obtain ⟨htop, combo, hfound, hchosen⟩ := hkept.combos t hmem comboId hcombo
    refine ⟨(h.parentLineId_eq t).trans htop, combo, hfound, ?_⟩
    rw [h.childLines_eq]
    exact h.chosen hkept hmem hchosen

theorem keepsCounts (h : Moves lines f) (hkept : Kept m lines) :
    KeepsCounts lines (lines.map f) := by
  intro t ht hcombo
  refine .inr ⟨f t, List.mem_map_of_mem ht, h.fixed_eq ht (.inl hcombo), ?_⟩
  rw [picks, h.childLines_eq, List.map_map, picks]
  refine List.map_congr_left fun c hc => ?_
  obtain ⟨hmem, hparent⟩ := mem_childLines.mp hc
  have hchild : c.parentLineId ≠ none := hparent ▸ Option.some_ne_none _
  rw [Function.comp_apply, (h.pickOf hkept ht hmem (hkept.pickOf ht hmem hparent)).2,
    h.fixed_eq hmem (.inr hchild)]

end Moves

/-! ### Lines that leave -/

section Leaving

variable {keep : CartLine → Bool}

theorem childLines_filter (hclosed : ∀ c ∈ lines, ∀ t ∈ lines,
    c.parentLineId = some t.id → keep c = keep t) (ht : t ∈ lines) (hkeep : keep t = true) :
    childLines (lines.filter keep) t = childLines lines t := by
  rw [childLines, childLines, List.filter_filter]
  refine List.filter_congr fun c hc => ?_
  by_cases hparent : c.parentLineId = some t.id
  · rw [hclosed c hc t ht hparent, hkeep, Bool.and_true]
  · rw [decide_eq_false hparent, Bool.false_and]

/-- Combos are dropped with their picks. -/
theorem Kept.filter (h : Kept m lines) (hclosed : ∀ c ∈ lines, ∀ t ∈ lines,
    c.parentLineId = some t.id → keep c = keep t) : Kept m (lines.filter keep) where
  ids := (List.filter_sublist.map _).nodup h.ids
  parents c hc p hparent := by
    obtain ⟨hmem, hkeep⟩ := List.mem_filter.mp hc
    obtain ⟨t, ht, rfl, htop⟩ := h.parents c hmem p hparent
    exact ⟨t, List.mem_filter.mpr ⟨ht, hclosed c hmem t ht hparent ▸ hkeep⟩, rfl, htop⟩
  quantities t ht := h.quantities t (List.mem_of_mem_filter ht)
  modifiers l hl := h.modifiers l (List.mem_of_mem_filter hl)
  combos t ht comboId hcombo := by
    obtain ⟨hmem, hkeep⟩ := List.mem_filter.mp ht
    rw [childLines_filter hclosed hmem hkeep]
    exact h.combos t hmem comboId hcombo

theorem Kept.filter_keepsCounts (h : Kept m lines) (hclosed : ∀ c ∈ lines, ∀ t ∈ lines,
    c.parentLineId = some t.id → keep c = keep t) : KeepsCounts lines (lines.filter keep) := by
  intro t ht _
  cases hkeep : keep t with
  | true =>
      refine .inr ⟨t, List.mem_filter.mpr ⟨ht, hkeep⟩, rfl, ?_⟩
      rw [picks, childLines_filter hclosed ht hkeep, picks]
  | false =>
      refine .inl fun l hl => ?_
      obtain ⟨hmem, hkept⟩ := List.mem_filter.mp hl
      constructor
      · intro hid
        rw [h.eq_of_id hmem ht hid, hkeep] at hkept
        cases hkept
      · intro hparent
        rw [hclosed l hmem t ht hparent, hkeep] at hkept
        cases hkept

end Leaving

/-! ### Lines that are added -/

/-- A line that is added, with its picks where it is a combo. -/
structure Adds (m : Menu) (lines : List CartLine) (x : CartLine) (xs : List CartLine) : Prop where
  ids : ((lines ++ x :: xs).map (·.id)).Nodup
  top : x.parentLineId = none
  quantity : 1 ≤ x.quantity
  modifiers : ∀ l ∈ x :: xs, l.modifierIds.Nodup
  item : x.comboId = none → xs = []
  combo : ∀ comboId, x.comboId = some comboId →
    ∃ combo, m.combo comboId = some combo ∧ Chosen combo x xs

section Adding

variable {x : CartLine} {xs : List CartLine}

theorem Adds.pick (h : Adds m lines x xs) (hc : c ∈ xs) : x.comboId ≠ none ∧ PickOf x c := by
  cases hcombo : x.comboId with
  | none =>
      rw [h.item hcombo] at hc
      cases hc
  | some comboId =>
      obtain ⟨combo, -, hchosen⟩ := h.combo comboId hcombo
      exact ⟨nofun, hchosen.pickOf c hc⟩

theorem Adds.fresh (h : Adds m lines x xs) {l : CartLine} (hl : l ∈ lines) : l.id ≠ x.id := by
  have hids := h.ids
  rw [List.map_append, List.nodup_append] at hids
  exact hids.2.2 _ (List.mem_map_of_mem hl) _ List.mem_cons_self

/-- What is added is no pick of a line that was there. -/
theorem Adds.childLines_old (h : Adds m lines x xs) (ht : t ∈ lines) :
    childLines (lines ++ x :: xs) t = childLines lines t := by
  have hnone : childLines (x :: xs) t = [] := by
    refine List.filter_eq_nil_iff.mpr fun l hl hparent => ?_
    have hparent := of_decide_eq_true hparent
    rcases List.mem_cons.mp hl with rfl | hl
    · rw [h.top] at hparent
      cases hparent
    · rw [(h.pick hl).2.parent] at hparent
      exact h.fresh ht (Option.some.inj hparent).symm
  rw [childLines, List.filter_append]
  exact (congrArg (childLines lines t ++ ·) hnone).trans (List.append_nil _)

theorem Adds.childLines_new (h : Adds m lines x xs) (hkept : Kept m lines) :
    childLines (lines ++ x :: xs) x = xs := by
  have hold : childLines lines x = [] := by
    refine List.filter_eq_nil_iff.mpr fun l hl hparent => ?_
    obtain ⟨t, ht, hid, -⟩ := hkept.parents l hl x.id (of_decide_eq_true hparent)
    exact h.fresh ht hid
  have hnew : childLines (x :: xs) x = xs := by
    rw [childLines, List.filter_cons_of_neg (by simp [h.top])]
    exact List.filter_eq_self.mpr fun c hc => decide_eq_true (h.pick hc).2.parent
  have happend : childLines (lines ++ x :: xs) x = childLines lines x ++ childLines (x :: xs) x :=
    List.filter_append lines (x :: xs)
  rw [happend, hold, hnew, List.nil_append]

theorem Adds.kept (h : Adds m lines x xs) (hkept : Kept m lines) : Kept m (lines ++ x :: xs) where
  ids := h.ids
  parents c hc p hparent := by
    rcases List.mem_append.mp hc with hc | hc
    · obtain ⟨t, ht, htop⟩ := hkept.parents c hc p hparent
      exact ⟨t, List.mem_append_left _ ht, htop⟩
    · refine ⟨x, List.mem_append_right _ List.mem_cons_self, ?_, h.top, ?_⟩
      all_goals
        rcases List.mem_cons.mp hc with rfl | hc
        · rw [h.top] at hparent
          cases hparent
      · exact Option.some.inj ((h.pick hc).2.parent.symm.trans hparent)
      · exact (h.pick hc).1
  quantities t ht htop := by
    rcases List.mem_append.mp ht with ht | ht
    · exact hkept.quantities t ht htop
    · rcases List.mem_cons.mp ht with rfl | ht
      · exact h.quantity
      · rw [(h.pick ht).2.parent] at htop
        cases htop
  modifiers l hl := (List.mem_append.mp hl).elim (hkept.modifiers l) (h.modifiers l)
  combos t ht comboId hcombo := by
    rcases List.mem_append.mp ht with ht | ht
    · rw [h.childLines_old ht]
      exact hkept.combos t ht comboId hcombo
    · rcases List.mem_cons.mp ht with rfl | ht
      · rw [h.childLines_new hkept]
        exact ⟨h.top, h.combo comboId hcombo⟩
      · rw [(h.pick ht).2.comboId] at hcombo
        cases hcombo

theorem Adds.keepsCounts (h : Adds m lines x xs) : KeepsCounts lines (lines ++ x :: xs) := by
  intro t ht _
  refine .inr ⟨t, List.mem_append_left _ ht, rfl, ?_⟩
  rw [picks, h.childLines_old ht, picks]

end Adding

/-! ### What a combo is added as -/

/-- Identifiers that tell the combos apart, and the slots and options of all of them. -/
structure CombosKeyed (m : Menu) : Prop where
  ids : (m.combos.map (·.id)).Nodup
  slots : (m.combos.flatMap fun c => c.slots.map (·.id)).Nodup
  options : (m.combos.flatMap fun c => c.options.map (·.2.id)).Nodup

theorem CombosKeyed.keyed (h : CombosKeyed m) {comboId : ℕ} (hfound : m.combo comboId = some combo) :
    Keyed combo := by
  have hmem : combo ∈ m.combos := List.mem_of_find?_eq_some hfound
  exact ⟨(List.nodup_flatMap.mp h.slots).1 combo hmem, (List.nodup_flatMap.mp h.options).1 combo hmem⟩

/-- A child of which one combo takes some. -/
structure Counted (child : ResolvedComboChild) : Prop where
  count : ∃ n : ℕ, 1 ≤ n ∧ child.quantity = n
  nodup : child.modifierIds.Nodup

/-- What a guest may ask for comes as whole numbers. -/
theorem answers_counted {selections : List ComboSelectionDto} {children : List ResolvedComboChild}
    (h : Answers combo (selections.map (·.input)) children) : ∀ child ∈ children, Counted child := by
  obtain ⟨asked, filled, rfl, hasked, hfilled⟩ := h.lines
  intro child hchild
  rcases List.mem_append.mp hchild with hchild | hchild
  · obtain ⟨s, hs, slot, -, option, -, -, rfl⟩ := Serial.exists_right hasked.flip hchild
    obtain ⟨dto, -, rfl⟩ := List.mem_map.mp hs
    refine ⟨⟨dto.quantity.getD 1, ?_, ?_⟩, ?_⟩
    · cases hquantity : dto.quantity with
      | none => exact le_rfl
      | some q => exact dto.one_le_quantity q hquantity
    · cases hquantity : dto.quantity <;> simp [ComboSelectionDto.input, hquantity]
    · cases hids : dto.modifierIds with
      | none => simp [ComboSelectionDto.input, hids]
      | some ids => simpa [ComboSelectionDto.input, hids] using dto.nodup_modifierIds ids hids
  · obtain ⟨slot, -, option, -, rfl⟩ := Serial.exists_right hfilled.flip hchild
    exact ⟨⟨slot.pickCount, slot.one_le_pickCount, rfl⟩, List.nodup_nil⟩

/-- The row of a pick. -/
structure PickRow (parent : CartLine) (child : ResolvedComboChild) (x : CartLine) : Prop where
  row : ∃ id quantity, x = { parent with
    id, itemId := some child.itemId, variantId := child.variantId, comboId := none
    parentLineId := some parent.id, comboOptionId := some child.optionId
    quantity, modifierIds := child.modifierIds }
  quantity : (x.quantity : ℚ) = child.quantity * parent.quantity

theorem insertCartLine_ok {x : CartLine} (h : insertCartLine x lines = .ok lines') :
    lines' = lines ++ [x] ∧ ((lines.map (·.id)).Nodup → (lines'.map (·.id)).Nodup) := by
  obtain ⟨_, hnew, h⟩ := Serial.bind_ok h
  cases h
  refine ⟨rfl, fun hids => ?_⟩
  rw [List.map_append, List.map_singleton, ← List.concat_eq_append]
  refine hids.concat fun hmem => ?_
  obtain ⟨l, hl, hid⟩ := List.mem_map.mp hmem
  exact List.any_eq_false.mp (check_ok hnew) l hl (decide_eq_true hid)

theorem insertPicks_ok {parent : CartLine} {picked : List (ResolvedComboChild × ℕ)}
    (h : picked.foldlM (insertPick parent) lines = .ok lines') :
    (∃ xs, lines' = lines ++ xs ∧ List.Forall₂ (PickRow parent) (picked.map (·.1)) xs) ∧
      ((lines.map (·.id)).Nodup → (lines'.map (·.id)).Nodup) := by
  induction picked generalizing lines with
  | nil =>
      cases h
      exact ⟨⟨[], (List.append_nil _).symm, .nil⟩, id⟩
  | cons pick picked ih =>
      rw [List.foldlM_cons] at h
      obtain ⟨lines₁, hfirst, hrest⟩ := Serial.bind_ok h
      obtain ⟨quantity, hquantity, hinsert⟩ := Serial.bind_ok hfirst
      obtain ⟨rfl, hids⟩ := insertCartLine_ok hinsert
      obtain ⟨⟨xs, rfl, hrows⟩, hids'⟩ := ih hrest
      refine ⟨⟨_ :: xs, List.append_assoc _ _ _, .cons ⟨⟨_, _, rfl⟩, wholeUnits_ok hquantity⟩ hrows⟩,
        fun h => hids' (hids h)⟩

theorem PickRow.pickOf {x : CartLine} {child : ResolvedComboChild} (h : PickRow t child x)
    (hcounted : Counted child) : PickOf t x := by
  obtain ⟨n, hn, hcount⟩ := hcounted.count
  have hquantity := h.quantity
  obtain ⟨id, quantity, rfl⟩ := h.row
  refine ⟨rfl, rfl, rfl, rfl, n, hn, ?_⟩
  rw [hcount] at hquantity
  exact_mod_cast hquantity

theorem PickRow.perCombo_eq {x : CartLine} {child : ResolvedComboChild} (h : PickRow t child x)
    (ht : 1 ≤ t.quantity) : perCombo t x = child.quantity := by
  have hne : (t.quantity : ℚ) ≠ 0 := Nat.cast_ne_zero.mpr (Nat.one_le_iff_ne_zero.mp ht)
  rw [perCombo, h.quantity, mul_div_cancel_right₀ _ hne]

/-- The rows of a selection's children are a selection. -/
theorem chosen_of_rows {comboId outletId : ℕ} {selections : List ComboSelectionDto}
    {children : List ResolvedComboChild} {xs : List CartLine} (hkeyed : CombosKeyed m)
    (hresolve : resolveComboSelection m outletId comboId (selections.map (·.input)) =
      .ok (combo, children))
    (ht : 1 ≤ t.quantity) (hrows : List.Forall₂ (PickRow t) children xs) :
    Chosen combo t xs ∧ ∀ l ∈ xs, l.modifierIds.Nodup := by
  obtain ⟨picks, hresolved⟩ := resolveComboSelection_ok.mp hresolve
  have hanswers := (hkeyed.keyed hresolved.found).answers hresolved
  have hcounted := answers_counted hanswers
  have hrow : ∀ x ∈ xs, ∃ child ∈ children, PickRow t child x := fun x hx => by
    obtain ⟨child, hchild, hrow⟩ := Serial.exists_right hrows.flip hx
    exact ⟨child, hchild, hrow⟩
  refine ⟨⟨fun x hx => ?_, fun x hx => ?_, fun slot hslot => ?_⟩, fun x hx => ?_⟩
  · obtain ⟨child, hchild, hrow⟩ := hrow x hx
    exact hrow.pickOf (hcounted child hchild)
  · obtain ⟨child, hchild, hrow⟩ := hrow x hx
    obtain ⟨pick, hpick, hpicked⟩ := Serial.mapM_mem hresolved.resolved hchild
    have hpicked := resolvePick_ok hpicked
    obtain ⟨hslot, hoption⟩ := ComboPicks.mem_options.mp (hresolved.mem_options hpick)
    obtain ⟨id, quantity, rfl⟩ := hrow.row
    exact ⟨pick.slot, hslot, pick.option, hoption, congrArg some hpicked.optionId,
      congrArg some hpicked.itemId, hpicked.variantId⟩
  · rw [← hanswers.counts slot hslot, childrenOf]
    refine congrArg List.sum (ComboPicks.filter_map_eq hrows fun child x hrow => ?_).symm
    refine ⟨?_, (hrow.perCombo_eq ht).symm⟩
    obtain ⟨id, quantity, rfl⟩ := hrow.row
    unfold ofSlot
    refine List.any_congr rfl fun option => decide_eq_decide.mpr ?_
    rw [Option.some_inj]
    exact eq_comm
  · obtain ⟨child, hchild, hrow⟩ := hrow x hx
    obtain ⟨id, quantity, rfl⟩ := hrow.row
    exact (hcounted child hchild).nodup

/-! ### Requests of guests -/

variable {w w' : World} {guest : TableCart.GuestPrincipal} {found : Option TableSession} {now : ℤ}

/-- What a request leaves of the carts. -/
structure Leaves (w w' : World) : Prop where
  kept : Kept w'.menu w'.cartLines
  counts : KeepsCounts w.cartLines w'.cartLines

theorem addLine_leaves {dto : AddCartLineDto} {id : ℕ} {view : TableCartView}
    (h : TableCart.addLine w guest found now dto id = .ok (w', view)) (hkept : Kept w.menu w.cartLines) :
    w'.menu = w.menu ∧ Leaves w w' := by
  obtain ⟨session, -, h⟩ := Serial.bind_ok h
  obtain ⟨item, -, h⟩ := Serial.bind_ok h
  obtain ⟨_, -, h⟩ := Serial.bind_ok h
  obtain ⟨_, -, h⟩ := Serial.bind_ok h
  obtain ⟨_, -, h⟩ := Serial.bind_ok h
  obtain ⟨cartLines, hinsert, h⟩ := Serial.bind_ok h
  obtain ⟨_, -, h⟩ := Serial.bind_ok h
  cases h
  obtain ⟨rfl, hids⟩ := insertCartLine_ok hinsert
  have hadds : Adds w.menu w.cartLines
      { id, sessionId := session.id, guestId := guest.id, guestName := guest.name
        itemId := some dto.itemId, variantId := dto.variantId, comboId := none
        parentLineId := none, comboOptionId := none, quantity := dto.quantity, note := dto.note
        modifierIds := dto.modifierIds.getD [] } [] :=
    { ids := hids hkept.ids
      top := rfl
      quantity := dto.one_le_quantity
      modifiers := fun l hl => by
        rw [List.mem_singleton.mp hl]
        cases hm : dto.modifierIds with
        | none => exact List.nodup_nil
        | some ids => exact dto.nodup_modifierIds ids hm
      item := fun _ => rfl
      combo := nofun }
  exact ⟨rfl, hadds.kept hkept, hadds.keepsCounts⟩

theorem addCombo_leaves {dto : AddCartComboDto} {ids : ℕ → ℕ} {view : TableCartView}
    (h : TableCart.addCombo w guest found now dto ids = .ok (w', view))
    (hkeyed : CombosKeyed w.menu) (hkept : Kept w.menu w.cartLines) :
    w'.menu = w.menu ∧ Leaves w w' := by
  obtain ⟨session, -, h⟩ := Serial.bind_ok h
  obtain ⟨⟨combo, children⟩, hresolve, h⟩ := Serial.bind_ok h
  obtain ⟨lines₁, hparent, h⟩ := Serial.bind_ok h
  obtain ⟨lines₂, hpicks, h⟩ := Serial.bind_ok h
  obtain ⟨_, -, h⟩ := Serial.bind_ok h
  cases h
  obtain ⟨rfl, hids⟩ := insertCartLine_ok hparent
  obtain ⟨⟨xs, rfl, hrows⟩, hids'⟩ := insertPicks_ok hpicks
  obtain ⟨picks, hresolved⟩ := resolveComboSelection_ok.mp hresolve
  have hzip : (children.zip ((List.range' 1 children.length).map ids)).map (·.1) = children := by
    refine List.map_fst_zip ?_
    rw [List.length_map, List.length_range']
  rw [hzip] at hrows
  obtain ⟨hchosen, hnodup⟩ := chosen_of_rows hkeyed hresolve dto.one_le_quantity hrows
  have hadds : Adds w.menu w.cartLines
      { id := ids 0, sessionId := session.id, guestId := guest.id, guestName := guest.name
        itemId := none, variantId := none, comboId := some combo.id, parentLineId := none
        comboOptionId := none, quantity := dto.quantity, note := none, modifierIds := [] } xs :=
    { ids := by
        rw [List.append_cons]
        exact hids' (hids hkept.ids)
      top := rfl
      quantity := dto.one_le_quantity
      modifiers := List.forall_mem_cons.mpr ⟨List.nodup_nil, hnodup⟩
      item := nofun
      combo := fun comboId hcombo => by
        have hid := Menu.combo_id hresolved.found
        obtain rfl : comboId = dto.comboId := by rw [← hid, Option.some.inj hcombo]
        exact ⟨combo, hresolved.found, hchosen⟩ }
  have hkept' := hadds.kept hkept
  have hcounts := hadds.keepsCounts
  rw [List.append_cons] at hkept' hcounts
  exact ⟨rfl, hkept', hcounts⟩

theorem removeLine_leaves {lineId : ℕ} {view : TableCartView}
    (h : TableCart.removeLine w guest found now lineId = .ok (w', view))
    (hkept : Kept w.menu w.cartLines) : w'.menu = w.menu ∧ Leaves w w' := by
  obtain ⟨session, -, h⟩ := Serial.bind_ok h
  obtain ⟨line, hload, h⟩ := Serial.bind_ok h
  obtain ⟨_, -, h⟩ := Serial.bind_ok h
  obtain ⟨_, hpick, h⟩ := Serial.bind_ok h
  obtain ⟨_, -, h⟩ := Serial.bind_ok h
  cases h
  obtain ⟨hfind, -⟩ := loadCartLine_ok_iff.mp hload
  have hid : line.id = lineId := by simpa using List.find?_some hfind
  have hline := List.mem_of_find?_eq_some hfind
  have htop : line.parentLineId = none := check_ok hpick
  have hclosed : ∀ c ∈ w.cartLines, ∀ t ∈ w.cartLines, c.parentLineId = some t.id →
      decide (c.id ≠ lineId ∧ c.parentLineId ≠ some lineId) =
        decide (t.id ≠ lineId ∧ t.parentLineId ≠ some lineId) := by
    intro c hc t ht hparent
    have hchild : c.id ≠ lineId := by
      intro heq
      rw [hkept.eq_of_id hc hline (heq.trans hid.symm), htop] at hparent
      cases hparent
    rw [decide_eq_decide, hparent, (hkept.top ht hc hparent).1, ne_eq, ne_eq, ne_eq, ne_eq,
      Option.some_inj]
    exact ⟨fun h => ⟨h.2, nofun⟩, fun h => ⟨hchild, h.1⟩⟩
  exact ⟨rfl, hkept.filter hclosed, hkept.filter_keepsCounts hclosed⟩

theorem placeOrder_leaves {ctx : PlacementContext} {ids : ℕ → ℕ} {order : PlacedOrder}
    (h : placeOrder w guest found now ctx ids = .ok (w', order))
    (hkept : Kept w.menu w.cartLines) : w'.menu = w.menu ∧ Leaves w w' := by
  have hplaced := placeOrder_ok h
  have hclosed : ∀ c ∈ w.cartLines, ∀ t ∈ w.cartLines, c.parentLineId = some t.id →
      decide (c.sessionId ≠ guest.sessionId) = decide (t.sessionId ≠ guest.sessionId) := by
    intro c hc t ht hparent
    rw [(hkept.pickOf ht hc hparent).sessionId]
  refine ⟨hplaced.menu, ?_, ?_⟩
  · rw [hplaced.menu, hplaced.cartLines]
    exact hkept.filter hclosed
  · rw [hplaced.cartLines]
    exact hkept.filter_keepsCounts hclosed

/-! ### Changing a line -/

theorem Moves.comp {g : CartLine → CartLine} (hf : Moves lines f) (hg : Moves (lines.map f) g) :
    Moves lines (g ∘ f) where
  same l := (hg.same (f l)).trans (hf.same l)
  modifiers l hl hcombo := by
    rw [Function.comp_apply, hg.modifiers (f l) (List.mem_map_of_mem hl),
      hf.modifiers l hl hcombo]
    rwa [hf.comboId_eq, hf.parentLineId_eq]
  nodup l hl h := hg.nodup (f l) (List.mem_map_of_mem hl) (hf.nodup l hl h)
  tops t ht htop h := hg.tops (f t) (List.mem_map_of_mem ht) ((hf.parentLineId_eq t).trans htop)
    (hf.tops t ht htop h)
  counts t ht c hc hparent n hn := by
    refine hg.counts (f t) (List.mem_map_of_mem ht) (f c) (List.mem_map_of_mem hc) ?_ n
      (hf.counts t ht c hc hparent n hn)
    rw [hf.parentLineId_eq, hf.id_eq, hparent]

theorem Moves.refl (lines : List CartLine) : Moves lines id :=
  ⟨fun _ => rfl, fun _ _ _ => rfl, fun _ _ h => h, fun _ _ _ h => h, fun _ _ _ _ _ _ h => h⟩

/-- A row of the line that was read. -/
structure RowOf (lines : List CartLine) (line row : CartLine) : Prop where
  mem : row ∈ lines
  id : row.id = line.id
  comboId : row.comboId = line.comboId
  top : row.parentLineId = none

theorem note_moves (lineId : ℕ) (note : Option String) (lines : List CartLine) :
    Moves lines fun l => if l.id = lineId then { l with note } else l where
  same l := by split <;> rfl
  modifiers l _ _ := by split <;> rfl
  nodup l _ h := by split <;> exact h
  tops t _ _ h := by split <;> exact h
  counts t _ c _ _ n h := by split <;> split <;> exact h

theorem modifiers_moves {line row : CartLine} (hkept : Kept m lines) (hrow : RowOf lines line row)
    (hcombo : line.comboId = none) {modifierIds : List ℕ} (hnodup : modifierIds.Nodup) :
    Moves lines fun l => if l.id = line.id then { l with modifierIds } else l where
  same l := by split <;> rfl
  modifiers l hl h := by
    have hne : l.id ≠ line.id := by
      intro hid
      obtain rfl := hkept.eq_of_id hl hrow.mem (hid.trans hrow.id.symm)
      rw [hrow.comboId, hcombo, hrow.top] at h
      exact h.elim (fun h => h rfl) fun h => h rfl
    rw [if_neg hne]
  nodup l _ h := by
    split
    · exact hnodup
    · exact h
  tops t _ _ h := by split <;> exact h
  counts t _ c _ _ n h := by split <;> split <;> exact h

/-- The new quantity, and the picks scaled with it. -/
theorem quantity_moves {line row : CartLine} {quantity : ℕ} (hkept : Kept m lines)
    (hrow : RowOf lines line row) (hsame : row.quantity = line.quantity) (hone : 1 ≤ quantity)
    (h : TableCart.updateQuantity line quantity lines = .ok lines') :
    ∃ f, lines' = lines.map f ∧ Moves lines f := by
  have hset : ∀ l : CartLine, identity (if l.id = line.id then { l with quantity } else l) =
      identity l := fun l => by split <;> rfl
  have hquantity : 1 ≤ line.quantity := hsame ▸ hkept.quantities row hrow.mem hrow.top
  have hisRow : ∀ {l}, l ∈ lines → l.id = line.id → l = row := fun hl hid =>
    hkept.eq_of_id hl hrow.mem (hid.trans hrow.id.symm)
  -- A pick is not the line, and its line is not a pick.
  have hpick : ∀ {c}, c ∈ lines → c.parentLineId ≠ none → c.id ≠ line.id := fun hc hparent hid =>
    hparent (hisRow hc hid ▸ hrow.top)
  unfold TableCart.updateQuantity at h
  dsimp only at h
  split at h
  next hcombo =>
    obtain rfl := mapM_rescalePick_ok h
    have hscales := mapM_rescalePick.mp h
    refine ⟨fun l => rescaled line quantity (if l.id = line.id then { l with quantity } else l),
      ?_, ?_⟩
    · rw [updateCartLine, List.map_map]
      rfl
    have hscaled : ∀ c ∈ lines, c.parentLineId = some line.id →
        (scaled line quantity c : ℚ) = perCombo line c * quantity := by
      intro c hc hparent
      refine wholeUnits_ok (hscales c (mem_childLines.mpr ⟨?_, hparent⟩))
      refine List.mem_map.mpr ⟨c, hc, ?_⟩
      rw [if_neg (hpick hc (hparent ▸ Option.some_ne_none _))]
    have hmodifiers : ∀ l : CartLine, (rescaled line quantity
        (if l.id = line.id then { l with quantity } else l)).modifierIds = l.modifierIds :=
      fun l => by
        unfold rescaled
        split_ifs <;> rfl
    have htop : ∀ t ∈ lines, t.parentLineId = none → (rescaled line quantity
        (if t.id = line.id then { t with quantity } else t)).quantity =
          if t.id = line.id then quantity else t.quantity := fun t _ htop => by
      unfold rescaled
      split_ifs <;> simp_all
    refine ⟨fun l => ?_, fun l _ _ => hmodifiers l, fun l _ hl => (hmodifiers l).symm ▸ hl,
      fun t ht htop' h => ?_, fun t ht c hc hparent n hn => ?_⟩
    · unfold rescaled
      split_ifs <;> rfl
    · rw [htop t ht htop']
      split
      · exact hone
      · exact h
    · have htop' := (hkept.top ht hc hparent).1
      rw [htop t ht htop', if_neg (hpick hc (hparent ▸ Option.some_ne_none _)), rescaled, hparent]
      split
      next hid =>
        have hid := Option.some.inj hid
        rw [if_pos hid]
        obtain rfl := hisRow ht hid
        have hparent' : c.parentLineId = some line.id := by rw [hparent, hid]
        have hne : (line.quantity : ℚ) ≠ 0 :=
          Nat.cast_ne_zero.mpr (Nat.one_le_iff_ne_zero.mp hquantity)
        have hcount := hscaled c hc hparent'
        rw [perCombo, hn, hsame, Nat.cast_mul, mul_div_cancel_right₀ _ hne] at hcount
        exact_mod_cast hcount
      next hid =>
        rw [if_neg fun heq => hid (congrArg some heq)]
        exact hn
  next hcombo =>
    cases h
    refine ⟨_, rfl, hset, fun l _ _ => by split <;> rfl, fun l _ h => by split <;> exact h,
      fun t _ _ h => ?_, fun t ht c hc hparent n hn => ?_⟩
    · split
      · exact hone
      · exact h
    · have hnot : t.id ≠ line.id := by
        intro hid
        have hcombo' := (hkept.top ht hc hparent).2
        rw [hisRow ht hid, hrow.comboId] at hcombo'
        exact hcombo (Option.isSome_iff_ne_none.mpr hcombo')
      rw [if_neg hnot, if_neg (hpick hc (hparent ▸ Option.some_ne_none _))]
      exact hn

theorem RowOf.map {line row : CartLine} (h : RowOf lines line row) (hf : Moves lines f) :
    RowOf (lines.map f) line (f row) :=
  ⟨List.mem_map_of_mem h.mem, (hf.id_eq row).trans h.id, (hf.comboId_eq row).trans h.comboId,
    (hf.parentLineId_eq row).trans h.top⟩

theorem updateLine_leaves {lineId : ℕ} {dto : UpdateCartLineDto} {view : TableCartView}
    (h : TableCart.updateLine w guest found now lineId dto = .ok (w', view))
    (hkept : Kept w.menu w.cartLines) : w'.menu = w.menu ∧ Leaves w w' := by
  obtain ⟨session, -, h⟩ := Serial.bind_ok h
  obtain ⟨line, hload, h⟩ := Serial.bind_ok h
  obtain ⟨_, -, h⟩ := Serial.bind_ok h
  obtain ⟨_, hpick, h⟩ := Serial.bind_ok h
  obtain ⟨_, hlocked, h⟩ := Serial.bind_ok h
  obtain ⟨noted, hnoted, h⟩ := Serial.bind_ok h
  obtain ⟨updated, hupdated, h⟩ := Serial.bind_ok h
  obtain ⟨modified, hmodified, h⟩ := Serial.bind_ok h
  obtain ⟨_, -, h⟩ := Serial.bind_ok h
  cases h
  obtain ⟨hfind, -⟩ := loadCartLine_ok_iff.mp hload
  have hid : line.id = lineId := by simpa using List.find?_some hfind
  have hrow : RowOf w.cartLines line line :=
    ⟨List.mem_of_find?_eq_some hfind, rfl, rfl, check_ok hpick⟩
  -- the note
  obtain ⟨f, rfl, hf, hquantity⟩ : ∃ f, noted = w.cartLines.map f ∧ Moves w.cartLines f ∧
      (f line).quantity = line.quantity := by
    cases hnote : dto.note with
    | none =>
        rw [hnote] at hnoted
        cases hnoted
        exact ⟨id, (List.map_id _).symm, .refl _, rfl⟩
    | some note =>
        rw [hnote] at hnoted
        cases hnoted
        refine ⟨_, rfl, note_moves lineId note _, ?_⟩
        dsimp only
        split <;> rfl
  have hkept₁ := hf.kept hkept
  have hrow₁ := hrow.map hf
  -- the quantity
  obtain ⟨g, rfl, hg⟩ : ∃ g, updated = (w.cartLines.map f).map g ∧ Moves (w.cartLines.map f) g := by
    cases hasked : dto.quantity with
    | none =>
        rw [hasked] at hupdated
        cases hupdated
        exact ⟨id, (List.map_id _).symm, .refl _⟩
    | some quantity =>
        rw [hasked] at hupdated
        exact quantity_moves hkept₁ hrow₁ hquantity (dto.one_le_quantity quantity hasked) hupdated
  have hkept₂ := hg.kept hkept₁
  -- the modifiers
  obtain ⟨k, rfl, hk⟩ : ∃ k, modified = ((w.cartLines.map f).map g).map k ∧
      Moves ((w.cartLines.map f).map g) k := by
    cases hasked : dto.modifierIds with
    | none =>
        rw [hasked] at hmodified
        cases hmodified
        exact ⟨id, (List.map_id _).symm, .refl _⟩
    | some ids =>
        rw [hasked] at hmodified
        obtain ⟨itemId, -, hmodified⟩ := Serial.bind_ok hmodified
        obtain ⟨item, -, hmodified⟩ := Serial.bind_ok hmodified
        obtain ⟨_, -, hmodified⟩ := Serial.bind_ok hmodified
        cases hmodified
        have hcombo : line.comboId = none := by
          cases hcombo : line.comboId with
          | none => rfl
          | some comboId => exact absurd ⟨by rw [hcombo]; rfl, by rw [hasked]; rfl⟩ (check_ok hlocked)
        exact ⟨_, rfl, modifiers_moves hkept₂ (hrow₁.map hg) hcombo (dto.nodup_modifierIds ids hasked)⟩
  have hk' : Moves (w.cartLines.map (g ∘ f)) k := by
    rw [← List.map_map]
    exact hk
  refine ⟨rfl, hk.kept hkept₂, ?_⟩
  change KeepsCounts w.cartLines (((w.cartLines.map f).map g).map k)
  rw [List.map_map, List.map_map]
  exact ((hf.comp hg).comp hk').keepsCounts hkept

/-! ### The owner's requests -/

/-- A row that is replaced, and the others. -/
theorem replace_perm {combos : List Combo} {id : ℕ} (new : Combo)
    (hids : (combos.map (·.id)).Nodup) (hmem : ∃ c ∈ combos, c.id = id) :
    (combos.map fun c => if c.id = id then new else c).Perm (new :: combos.filter (·.id ≠ id)) := by
  induction combos with
  | nil =>
      obtain ⟨c, hc, -⟩ := hmem
      cases hc
  | cons c combos ih =>
      obtain ⟨hnot, hids⟩ := List.nodup_cons.mp hids
      rw [List.map_cons]
      by_cases hid : c.id = id
      · have hothers : ∀ c' ∈ combos, c'.id ≠ id := fun c' hc' heq =>
          hnot (List.mem_map.mpr ⟨c', hc', heq.trans hid.symm⟩)
        have hmap : (combos.map fun c => if c.id = id then new else c) = combos := by
          conv_rhs => rw [← List.map_id combos]
          exact List.map_congr_left fun c' hc' => if_neg (hothers c' hc')
        have hfilter : combos.filter (·.id ≠ id) = combos :=
          List.filter_eq_self.mpr fun c' hc' => decide_eq_true (hothers c' hc')
        rw [if_pos hid, hmap, List.filter_cons_of_neg (by simpa using hid), hfilter]
      · obtain ⟨c', hc', heq⟩ := hmem
        have hrest : ∃ c ∈ combos, c.id = id := by
          rcases List.mem_cons.mp hc' with rfl | hc'
          · exact absurd heq hid
          · exact ⟨c', hc', heq⟩
        rw [if_neg hid, List.filter_cons_of_pos (by simpa using hid)]
        exact ((ih hids hrest).cons c).trans (List.Perm.swap new c _)

theorem assertComboUnique_ok {comboId : ℕ} {dto : SaveComboDto} {u : Unit}
    (h : assertComboUnique m comboId dto = .ok u) :
    (((m.combos.filter (·.id ≠ comboId)).flatMap fun c => c.slots.map (·.id)) ++
        dto.slots.map (·.id)).Nodup ∧
      (((m.combos.filter (·.id ≠ comboId)).flatMap fun c => c.options.map (·.2.id)) ++
        dto.options.map (·.id)).Nodup := by
  obtain ⟨_, -, h⟩ := Serial.bind_ok h
  obtain ⟨_, hslots, h⟩ := Serial.bind_ok h
  exact ⟨check_ok hslots, check_ok h⟩

theorem SaveComboDto.options_combo (dto : SaveComboDto) (id : ℕ) :
    (dto.combo id).options.map (·.2.id) = dto.options.map (·.id) := by
  rw [Combo.options, SaveComboDto.options, List.map_flatMap, List.map_flatMap]
  refine List.flatMap_congr fun slot _ => ?_
  rw [List.map_map]
  rfl

theorem createCombo_keyed {dto : SaveComboDto} {id : ℕ}
    (h : createCombo w dto id = .ok (w', combo)) (hkeyed : CombosKeyed w.menu) :
    CombosKeyed w'.menu ∧ w'.cartLines = w.cartLines ∧
      ∀ comboId combo, w.menu.combo comboId = some combo → w'.menu.combo comboId = some combo := by
  obtain ⟨_, -, h⟩ := Serial.bind_ok h
  obtain ⟨_, hnew, h⟩ := Serial.bind_ok h
  obtain ⟨_, hunique, h⟩ := Serial.bind_ok h
  cases h
  have hnot : ∀ c ∈ w.menu.combos, c.id ≠ id := fun c hc hid =>
    List.any_eq_false.mp (check_ok hnew) c hc (decide_eq_true hid)
  have hothers : w.menu.combos.filter (·.id ≠ id) = w.menu.combos :=
    List.filter_eq_self.mpr fun c hc => decide_eq_true (hnot c hc)
  obtain ⟨hslots, hoptions⟩ := assertComboUnique_ok hunique
  rw [hothers] at hslots hoptions
  refine ⟨⟨?_, ?_, ?_⟩, rfl, fun comboId combo hfound => ?_⟩
  · rw [List.map_append, List.map_singleton, ← List.concat_eq_append]
    refine hkeyed.ids.concat fun hmem => ?_
    obtain ⟨c, hc, hid⟩ := List.mem_map.mp hmem
    exact hnot c hc hid
  · rw [List.flatMap_append, List.flatMap_singleton]
    exact hslots
  · rw [List.flatMap_append, List.flatMap_singleton, SaveComboDto.options_combo]
    exact hoptions
  · unfold Menu.combo at hfound ⊢
    rw [List.find?_append, hfound]
    rfl

section Replacing

variable {comboId : ℕ} {g : Combo → Combo}

theorem combo_replaced (hg : ∀ c, c.id = comboId → (g c).id = comboId) {id : ℕ}
    (hid : id ≠ comboId) : (w.replaceCombo comboId g).menu.combo id = w.menu.combo id := by
  change ((w.menu.combos.map fun c => if c.id = comboId then g c else c).find? (·.id = id)) =
    w.menu.combos.find? (·.id = id)
  induction w.menu.combos with
  | nil => rfl
  | cons c combos ih =>
      rw [List.map_cons, List.find?_cons, List.find?_cons, ih]
      by_cases hc : c.id = comboId
      · rw [if_pos hc, decide_eq_false (fun heq => hid (heq.symm.trans (hg c hc))),
          decide_eq_false (fun heq => hid (heq.symm.trans hc))]
      · rw [if_neg hc]

/-- Whoever has the combo in the cart loses it. -/
theorem replaceCombo_leaves (hg : ∀ c, c.id = comboId → (g c).id = comboId)
    (hkept : Kept w.menu w.cartLines) : Leaves w (w.replaceCombo comboId g) := by
  have hclosed : ∀ c ∈ w.cartLines, ∀ t ∈ w.cartLines, c.parentLineId = some t.id →
      decide (c.comboId ≠ some comboId ∧ ∀ parent ∈ w.cartLines, parent.comboId = some comboId →
        c.parentLineId ≠ some parent.id) =
      decide (t.comboId ≠ some comboId ∧ ∀ parent ∈ w.cartLines, parent.comboId = some comboId →
        t.parentLineId ≠ some parent.id) := by
    intro c hc t ht hparent
    have hnone := (hkept.pickOf ht hc hparent).comboId
    have htop := (hkept.top ht hc hparent).1
    rw [decide_eq_decide, hnone, hparent, htop]
    constructor
    · rintro ⟨-, hparents⟩
      exact ⟨fun hcombo => hparents t ht hcombo rfl, nofun⟩
    · rintro ⟨hcombo, -⟩
      refine ⟨nofun, fun parent hmem hdropped heq => hcombo ?_⟩
      rw [hkept.eq_of_id ht hmem (Option.some.inj heq), hdropped]
  refine ⟨(hkept.filter hclosed).of_menu ?_, hkept.filter_keepsCounts hclosed⟩
  rintro id combo hfound ⟨t, ht, hcombo⟩
  have hne : id ≠ comboId := by
    rintro rfl
    exact (of_decide_eq_true (List.mem_filter.mp ht).2).1 hcombo
  rwa [combo_replaced hg hne]

end Replacing

theorem loadLiveCombo_ok {comboId : ℕ} (h : loadLiveCombo m comboId = .ok combo) :
    combo ∈ m.combos ∧ combo.id = comboId := by
  obtain ⟨combo', hfound, h⟩ := Serial.bind_ok h
  obtain ⟨_, -, h⟩ := Serial.bind_ok h
  cases h
  have hfound := orElseThrow_ok hfound
  exact ⟨List.mem_of_find?_eq_some hfound, Menu.combo_id hfound⟩

theorem updateCombo_keyed {comboId : ℕ} {dto : SaveComboDto}
    (h : updateCombo w comboId dto = .ok (w', combo)) (hkeyed : CombosKeyed w.menu) :
    CombosKeyed w'.menu ∧ w' = w.replaceCombo comboId fun _ => dto.combo comboId := by
  obtain ⟨live, hlive, h⟩ := Serial.bind_ok h
  obtain ⟨_, -, h⟩ := Serial.bind_ok h
  obtain ⟨_, hunique, h⟩ := Serial.bind_ok h
  cases h
  obtain ⟨hmem, hid⟩ := loadLiveCombo_ok hlive
  obtain ⟨hslots, hoptions⟩ := assertComboUnique_ok hunique
  have hperm := replace_perm (dto.combo comboId) hkeyed.ids ⟨live, hmem, hid⟩
  refine ⟨⟨?_, ?_, ?_⟩, rfl⟩
  · have hids : (fun c : Combo => c.id) ∘ (fun c => if c.id = comboId then dto.combo comboId else c) =
        (·.id) := by
      funext c
      rw [Function.comp_apply]
      split
      next heq => exact heq.symm
      next => rfl
    change ((w.menu.combos.map _).map _).Nodup
    rw [List.map_map, hids]
    exact hkeyed.ids
  · refine (hperm.flatMap_right _).nodup_iff.mpr ?_
    rw [List.flatMap_cons]
    exact List.perm_append_comm.nodup_iff.mpr hslots
  · refine (hperm.flatMap_right _).nodup_iff.mpr ?_
    rw [List.flatMap_cons, SaveComboDto.options_combo]
    exact List.perm_append_comm.nodup_iff.mpr hoptions

theorem archiveCombo_keyed {comboId : ℕ}
    (h : archiveCombo w comboId now = .ok (w', combo)) (hkeyed : CombosKeyed w.menu) :
    CombosKeyed w'.menu ∧ w' = w.replaceCombo comboId fun c => { c with archivedAt := some now } := by
  obtain ⟨live, -, h⟩ := Serial.bind_ok h
  cases h
  refine ⟨⟨?_, ?_, ?_⟩, rfl⟩
  · change ((w.menu.combos.map _).map _).Nodup
    rw [List.map_map]
    have hids : (fun c : Combo => c.id) ∘
        (fun c => if c.id = comboId then { c with archivedAt := some now } else c) = (·.id) := by
      funext c
      rw [Function.comp_apply]
      split <;> rfl
    rw [hids]
    exact hkeyed.ids
  · change ((w.menu.combos.map _).flatMap _).Nodup
    rw [List.flatMap_map]
    refine (List.flatMap_congr fun c _ => ?_) ▸ hkeyed.slots
    split <;> rfl
  · change ((w.menu.combos.map _).flatMap _).Nodup
    rw [List.flatMap_map]
    refine (List.flatMap_congr fun c _ => ?_) ▸ hkeyed.options
    split <;> rfl

/-! ### Asking for a combo again -/

/-- The child that a pick is answered with again. -/
structure Again (m : Menu) (t c : CartLine) (child : ResolvedComboChild) : Prop where
  itemId : c.itemId = some child.itemId
  variantId : c.variantId = child.variantId
  quantity : child.quantity = perCombo t c
  modifierIds : child.modifierIds = c.modifierIds
  upchargeMinor : upchargeOf m c.comboOptionId = child.upchargeMinor

/-- An option's extra charge is found by its identifier. -/
theorem CombosKeyed.upchargeOf_eq (h : CombosKeyed m) (hcombo : combo ∈ m.combos)
    {slot : ComboSlot} {option : ComboSlotOption} (hslot : slot ∈ combo.slots)
    (hoption : option ∈ slot.options) : upchargeOf m (some option.id) = option.upchargeMinor := by
  have hids : ((m.combos.flatMap (·.options)).map (·.2.id)).Nodup := by
    rw [List.map_flatMap]
    exact h.options
  have hmem : (slot, option) ∈ m.combos.flatMap (·.options) :=
    List.mem_flatMap.mpr ⟨combo, hcombo, ComboPicks.mem_options.mpr ⟨hslot, hoption⟩⟩
  have hfind : (m.combos.flatMap (·.options)).find? (fun o => some option.id = some o.2.id) =
      some (slot, option) := by
    have hsame : (fun o : ComboSlot × ComboSlotOption => decide (some option.id = some o.2.id)) =
        fun o => decide (o.2.id = option.id) := by
      funext o
      rw [decide_eq_decide, Option.some_inj]
      exact eq_comm
    rw [hsame]
    exact find?_key hids hmem
  rw [upchargeOf, hfind]
  rfl

/-- Every slot of the combo has a pick in the cart, so nothing is filled in: the combo is answered
with the picks that the cart has, in turn. -/
theorem Kept.again (h : Kept m lines) (hkeyed : CombosKeyed m) (ht : t ∈ lines) {comboId : ℕ}
    (hcombo : t.comboId = some comboId) {outletId : ℕ} {combo' : Combo}
    {children : List ResolvedComboChild}
    (hresolve : resolveComboSelection m outletId comboId ((childLines lines t).map fun c =>
      ⟨c.comboOptionId.getD 0, some (perCombo t c), some c.modifierIds⟩) = .ok (combo', children)) :
    List.Forall₂ (Again m t) (childLines lines t) children := by
  obtain ⟨picks, hresolved⟩ := resolveComboSelection_ok.mp hresolve
  have hcombo' := hkeyed.keyed hresolved.found
  obtain ⟨-, combo, hfound, hchosen⟩ := h.combos t ht comboId hcombo
  obtain rfl : combo = combo' := Option.some.inj (hfound.symm.trans hresolved.found)
  obtain ⟨asked, filled, rfl, hasked, hfilled⟩ := (hcombo'.answers hresolved).lines
  have hnone : combo.slots.filter (ComboPicks.leftOut · ((childLines lines t).map fun c =>
      (⟨c.comboOptionId.getD 0, some (perCombo t c), some c.modifierIds⟩ : ComboSelectionInput))) =
      [] := by
    refine List.filter_eq_nil_iff.mpr fun slot hslot hleft => ?_
    have hcount := hchosen.counts slot hslot
    have hno : (childLines lines t).filter (ofSlot slot) = [] := by
      refine List.filter_eq_nil_iff.mpr fun c hc hof => ?_
      rw [ComboPicks.leftOut, Bool.not_eq_true', List.any_eq_false] at hleft
      refine hleft _ (List.mem_map_of_mem hc) ?_
      obtain ⟨option, hoption, hid⟩ := List.any_eq_true.mp hof
      refine List.any_eq_true.mpr ⟨option, hoption, decide_eq_true ?_⟩
      rw [of_decide_eq_true hid, Option.getD_some]
    rw [hno] at hcount
    have hpos : (slot.pickCount : ℚ) ≠ 0 :=
      Nat.cast_ne_zero.mpr (Nat.one_le_iff_ne_zero.mp slot.one_le_pickCount)
    exact hpos hcount.symm
  rw [hnone, List.forall₂_nil_left_iff] at hfilled
  rw [hfilled, List.append_nil]
  refine ((List.forall₂_and_left _ _).mpr
    ⟨hchosen.options, List.forall₂_map_left_iff.mp hasked⟩).imp ?_
  rintro c child ⟨⟨slot, hslot, option, hoption, hid, hitem, hvariant⟩,
    slot', hslot', option', hoption', hid', rfl⟩
  have hsame : option.id = option'.id := by
    rw [hid']
    change option.id = c.comboOptionId.getD 0
    rw [hid, Option.getD_some]
  obtain ⟨-, rfl⟩ := hcombo'.unique hslot hoption hslot' hoption' hsame
  have hmem : combo ∈ m.combos := List.mem_of_find?_eq_some hfound
  exact ⟨hitem, hvariant, rfl, rfl, hid ▸ hkeyed.upchargeOf_eq hmem hslot hoption⟩

/-! ### Runs -/

/-- The carts of a tenant, and its combos. -/
structure Sound (w : World) : Prop where
  combos : CombosKeyed w.menu
  carts : Kept w.menu w.cartLines

theorem Sound.of_empty (hcombos : CombosKeyed w.menu) (hempty : w.cartLines = []) : Sound w := by
  refine ⟨hcombos, ?_⟩
  rw [hempty]
  exact ⟨List.nodup_nil, nofun, nofun, nofun, nofun⟩

theorem KeepsCounts.refl (lines : List CartLine) : KeepsCounts lines lines :=
  fun t ht _ => .inr ⟨t, ht, rfl, rfl⟩

/-- **One request** leaves the carts sound, and every combo gone or with its counts. -/
theorem Sound.handle (h : Sound w) (op : TableCart.Op) :
    Sound (w.handle op) ∧ KeepsCounts w.cartLines (w.handle op).cartLines := by
  have hstay : Sound w ∧ KeepsCounts w.cartLines w.cartLines := ⟨h, .refl _⟩
  have hafter {β : Type} {x : Except ApiError (World × β)}
      (hx : ∀ w' b, x = .ok (w', b) → Sound w' ∧ KeepsCounts w.cartLines w'.cartLines) :
      Sound (Serial.after w x) ∧ KeepsCounts w.cartLines (Serial.after w x).cartLines :=
    Serial.after_keeps (I := fun w' => Sound w' ∧ KeepsCounts w.cartLines w'.cartLines) hstay hx
  have hguest {w' : World} (hleaves : w'.menu = w.menu ∧ Leaves w w') :
      Sound w' ∧ KeepsCounts w.cartLines w'.cartLines :=
    ⟨⟨hleaves.1 ▸ h.combos, hleaves.2.kept⟩, hleaves.2.counts⟩
  cases op with
  | getCart guest found now =>
      refine hafter fun w' view hok => ?_
      obtain ⟨_, -, hok⟩ := Serial.bind_ok hok
      obtain ⟨_, -, hok⟩ := Serial.bind_ok hok
      cases hok
      exact hstay
  | addLine guest found now dto id =>
      exact hafter fun w' view hok => hguest (addLine_leaves hok h.carts)
  | addCombo guest found now dto ids =>
      exact hafter fun w' view hok => hguest (addCombo_leaves hok h.combos h.carts)
  | updateLine guest found now lineId dto =>
      exact hafter fun w' view hok => hguest (updateLine_leaves hok h.carts)
  | removeLine guest found now lineId =>
      exact hafter fun w' view hok => hguest (removeLine_leaves hok h.carts)
  | placeOrder guest found now ctx ids =>
      exact hafter fun w' order hok => hguest (placeOrder_leaves hok h.carts)
  | createCombo dto id =>
      refine hafter fun w' combo hok => ?_
      obtain ⟨hkeyed, hlines, hfound⟩ := createCombo_keyed hok h.combos
      rw [hlines]
      exact ⟨⟨hkeyed, hlines ▸ h.carts.of_menu fun id combo hc _ => hfound id combo hc⟩, .refl _⟩
  | updateCombo comboId dto =>
      refine hafter fun w' combo hok => ?_
      obtain ⟨hkeyed, rfl⟩ := updateCombo_keyed hok h.combos
      have hleaves := replaceCombo_leaves (g := fun _ => dto.combo comboId) (fun _ _ => rfl) h.carts
      exact ⟨⟨hkeyed, hleaves.kept⟩, hleaves.counts⟩
  | archiveCombo comboId now =>
      refine hafter fun w' combo hok => ?_
      obtain ⟨hkeyed, rfl⟩ := archiveCombo_keyed hok h.combos
      have hleaves := replaceCombo_leaves (g := fun c => { c with archivedAt := some now })
        (fun c (hid : c.id = comboId) => hid) h.carts
      exact ⟨⟨hkeyed, hleaves.kept⟩, hleaves.counts⟩
  | menu outletIds items modifiers itemPrices itemOutletOverrides =>
      exact ⟨⟨⟨h.combos.ids, h.combos.slots, h.combos.options⟩,
        h.carts.of_menu fun _ _ hc _ => hc⟩, .refl _⟩

/-- **Every run of requests** leaves the carts sound. -/
theorem Sound.run {ops : List TableCart.Op} {C : World → TableCart.Op → Prop} (h : Sound w)
    (hrun : Serial.Run (fun w op w' => w' = w.handle op) C w ops w') : Sound w' :=
  hrun.preserves (fun _ op _ h _ hstep => hstep ▸ (h.handle op).1) h

end RestiqBackend.CartCombos
