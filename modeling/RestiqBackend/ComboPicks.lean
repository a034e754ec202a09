import Mathlib.Algebra.BigOperators.Group.List.Basic
import RestiqBackend.Placement

/-!
Which picks a combo takes (`src/admin/menu/combo-menu.ts`).

`ValidPicks` says it of the selections: each is of an option of the combo, the selections of a
slot add up to its count, only a slot with a single option is left out, and every item that is
chosen can be had with the modifiers it is chosen with. The children are those of the selections,
in turn, and behind them those of the slots that were left out. The identifiers of the slots and
of the options are keys, so that a selection is of one option of one slot.
-/

namespace RestiqBackend.ComboPicks

open Catalogue TableCart
open Serial (check_ok check_of orElseThrow_ok orElseThrow_of_some)

/-! ### What is asked for -/

/-- Identifiers that tell the slots of a combo apart, and the options of all of them. -/
structure Keyed (combo : Combo) : Prop where
  slots : (combo.slots.map (·.id)).Nodup
  options : (combo.options.map (·.2.id)).Nodup

/-- A selection of the slot. -/
def Selects (slot : ComboSlot) (s : ComboSelectionInput) : Bool :=
  slot.options.any (·.id = s.optionId)

def selectedOf (slot : ComboSlot) (selections : List ComboSelectionInput) : ℚ :=
  ((selections.filter (Selects slot)).map fun s => s.quantity.getD 1).sum

def leftOut (slot : ComboSlot) (selections : List ComboSelectionInput) : Bool :=
  !selections.any (Selects slot)

/-- An option's item can be had with the modifiers: they are the item's, and every group of the
item has as many of them as it asks for. -/
def CanHave (m : Menu) (outletId : ℕ) (option : ComboSlotOption) (modifierIds : List ℕ) : Prop :=
  ∃ item, m.item option.itemId = some item ∧ itemAvailability m outletId item = true ∧
    (∀ id ∈ modifierIds, id ∈ item.modifierGroups.flatMap (·.modifierIds)) ∧
    ∀ group ∈ item.modifierGroups,
      group.minSelections ≤ group.selected modifierIds ∧
        group.selected modifierIds ≤ group.maxSelections

/-- A combo that can be had at an outlet. One without slots cannot be saved. -/
structure Available (m : Menu) (outletId : ℕ) (combo : Combo) : Prop where
  live : combo.archivedAt = none
  switchedOn : combo.available = true
  slots : combo.slots ≠ []
  options : ∀ slot ∈ combo.slots, ∃ option ∈ slot.options, optionAvailable m outletId option = true

structure ValidPicks (m : Menu) (outletId : ℕ) (combo : Combo)
    (selections : List ComboSelectionInput) : Prop where
  belongs : ∀ s ∈ selections, ∃ slot ∈ combo.slots, ∃ option ∈ slot.options, option.id = s.optionId
  counts : ∀ slot ∈ combo.slots, leftOut slot selections = false →
    selectedOf slot selections = slot.pickCount
  fixed : ∀ slot ∈ combo.slots, leftOut slot selections = true →
    ∃ option, slot.options = [option] ∧ CanHave m outletId option []
  chosen : ∀ s ∈ selections, ∀ slot ∈ combo.slots, ∀ option ∈ slot.options,
    option.id = s.optionId → CanHave m outletId option (s.modifierIds.getD [])

/-! ### What is answered -/

/-- The child of a selection: the option's, as often as it is selected. -/
def ChildOf (combo : Combo) (s : ComboSelectionInput) (child : ResolvedComboChild) : Prop :=
  ∃ slot ∈ combo.slots, ∃ option ∈ slot.options, option.id = s.optionId ∧
    child = ⟨option.id, option.itemId, option.variantId, s.quantity.getD 1, option.upchargeMinor,
      s.modifierIds.getD []⟩

/-- The child of a slot that was left out. -/
def FilledBy (slot : ComboSlot) (child : ResolvedComboChild) : Prop :=
  ∃ option, slot.options = [option] ∧
    child = ⟨option.id, option.itemId, option.variantId, slot.pickCount, option.upchargeMinor, []⟩

/-- How many items of a slot the children are. -/
def childrenOf (slot : ComboSlot) (children : List ResolvedComboChild) : ℚ :=
  ((children.filter fun c => slot.options.any (·.id = c.optionId)).map (·.quantity)).sum

/-- No selection is lost, merged or doubled, and each slot has its count. -/
structure Answers (combo : Combo) (selections : List ComboSelectionInput)
    (children : List ResolvedComboChild) : Prop where
  lines : ∃ asked filled, children = asked ++ filled ∧
    List.Forall₂ (ChildOf combo) selections asked ∧
    List.Forall₂ FilledBy (combo.slots.filter (leftOut · selections)) filled
  counts : ∀ slot ∈ combo.slots, childrenOf slot children = slot.pickCount

/-! ### Options -/

variable {m : Menu} {outletId : ℕ} {combo : Combo} {slot : ComboSlot} {option : ComboSlotOption}

theorem mem_options : (slot, option) ∈ combo.options ↔ slot ∈ combo.slots ∧ option ∈ slot.options := by
  rw [Combo.options, List.mem_flatMap]
  constructor
  · rintro ⟨slot', hslot, hmem⟩
    obtain ⟨option', hoption, heq⟩ := List.mem_map.mp hmem
    cases heq
    exact ⟨hslot, hoption⟩
  · rintro ⟨hslot, hoption⟩
    exact ⟨slot, hslot, List.mem_map_of_mem hoption⟩

/-- An option has one identifier and is in one slot. -/
theorem Keyed.unique (h : Keyed combo) {slot' : ComboSlot} {option' : ComboSlotOption}
    (hslot : slot ∈ combo.slots) (hoption : option ∈ slot.options) (hslot' : slot' ∈ combo.slots)
    (hoption' : option' ∈ slot'.options) (hid : option.id = option'.id) :
    slot = slot' ∧ option = option' :=
  Prod.mk.inj (List.inj_on_of_nodup_map h.options (mem_options.mpr ⟨hslot, hoption⟩)
    (mem_options.mpr ⟨hslot', hoption'⟩) hid)

/-- An option of a slot is an option of that slot alone. -/
theorem Keyed.selects (h : Keyed combo) {slot' : ComboSlot} (hslot : slot ∈ combo.slots)
    (hoption : option ∈ slot.options) (hslot' : slot' ∈ combo.slots) :
    slot'.options.any (·.id = option.id) = decide (slot.id = slot'.id) := by
  by_cases hid : slot.id = slot'.id
  · have hsame : slot = slot' := List.inj_on_of_nodup_map h.slots hslot hslot' hid
    subst hsame
    rw [decide_eq_true rfl]
    exact List.any_eq_true.mpr ⟨option, hoption, decide_eq_true rfl⟩
  · rw [decide_eq_false hid, List.any_eq_false]
    intro option' hoption' heq
    exact hid (congrArg ComboSlot.id
      (h.unique hslot hoption hslot' hoption' (of_decide_eq_true heq).symm).1)

/-- A selection is picked where its option is found. -/
theorem Keyed.toPick_ok_iff (h : Keyed combo) {s : ComboSelectionInput} {pick : ComboPick} :
    toPick combo s = .ok pick ↔ ∃ slot ∈ combo.slots, ∃ option ∈ slot.options,
      option.id = s.optionId ∧ pick = ⟨slot, option, s.quantity.getD 1, s.modifierIds.getD []⟩ := by
  constructor
  · intro hpick
    obtain ⟨hmem, hid, hquantity, hmodifiers⟩ := toPick_ok hpick
    obtain ⟨hslot, hoption⟩ := mem_options.mp hmem
    refine ⟨pick.slot, hslot, pick.option, hoption, hid, ?_⟩
    rw [← hquantity, ← hmodifiers]
  · rintro ⟨slot, hslot, option, hoption, hid, rfl⟩
    have hfound : combo.options.find? (·.2.id = s.optionId) = some (slot, option) := by
      cases hfind : combo.options.find? (·.2.id = s.optionId) with
      | none =>
          have hnone := List.find?_eq_none.mp hfind _ (mem_options.mpr ⟨hslot, hoption⟩)
          exact absurd (decide_eq_true hid) hnone
      | some found =>
          have hfoundId : found.2.id = s.optionId := by simpa using List.find?_some hfind
          exact congrArg some (List.inj_on_of_nodup_map h.options
            (List.mem_of_find?_eq_some hfind) (mem_options.mpr ⟨hslot, hoption⟩)
            (hfoundId.trans hid.symm))
    unfold toPick
    rw [Serial.bind_of_ok (orElseThrow_of_some hfound)]
    rfl

/-! ### Filling the slots -/

/-- What is filled in for a slot. -/
def fill (slot : ComboSlot) (picks : List ComboPick) : List ComboPick :=
  match slot.options with
  | [option] =>
      if picks.any (·.slot.id = slot.id) then [] else [⟨slot, option, slot.pickCount, []⟩]
  | _ => []

variable {picks picks' : List ComboPick} {slots : List ComboSlot}

theorem fillSlot_eq : fillSlot slot picks = picks ++ fill slot picks := by
  rcases hoptions : slot.options with _ | ⟨option, _ | ⟨other, options⟩⟩
  · simp [fillSlot, fill, hoptions]
  · simp only [fillSlot, fill, hoptions]
    split <;> simp
  · simp [fillSlot, fill, hoptions]

theorem fill_slot {pick : ComboPick} (h : pick ∈ fill slot picks) : pick.slot = slot := by
  unfold fill at h
  split at h
  · split at h
    · cases h
    · rw [List.mem_singleton.mp h]
  · cases h

/-- Picks of other slots are not looked at. -/
theorem fill_append {others : List ComboPick} (h : ∀ pick ∈ others, pick.slot.id ≠ slot.id) :
    fill slot (picks ++ others) = fill slot picks := by
  have hnone : others.any (·.slot.id = slot.id) = false :=
    List.any_eq_false.mpr fun pick hpick => by simpa using h pick hpick
  rw [fill, fill, List.any_append, hnone, Bool.or_false]

theorem slotCount_append {others : List ComboPick} :
    slotCount slot (picks ++ others) = slotCount slot picks + slotCount slot others := by
  rw [slotCount, slotCount, slotCount, List.filter_append, List.map_append, List.sum_append]

theorem slotCount_others {others : List ComboPick} (h : ∀ pick ∈ others, pick.slot.id ≠ slot.id) :
    slotCount slot others = 0 := by
  have hnil : others.filter (·.slot.id = slot.id) = [] :=
    List.filter_eq_nil_iff.mpr fun pick hpick => by simpa using h pick hpick
  rw [slotCount, hnil]
  rfl

/-- Each slot is filled and counted on its own. -/
theorem fillSlots_ok_iff (hkeys : (slots.map (·.id)).Nodup) :
    fillSlots slots picks = .ok picks' ↔
      (∀ slot ∈ slots, slotCount slot (picks ++ fill slot picks) = slot.pickCount) ∧
        picks' = picks ++ slots.flatMap (fill · picks) := by
  induction slots generalizing picks with
  | nil =>
      simp only [fillSlots, Except.ok.injEq, List.not_mem_nil, false_implies, implies_true,
        List.flatMap_nil, List.append_nil, true_and]
      exact eq_comm
  | cons slot slots ih =>
      obtain ⟨hnot, hkeys⟩ := List.nodup_cons.mp hkeys
      -- what is filled in for the first slot is of no other
      have hother : ∀ slot' ∈ slots, ∀ pick ∈ fill slot picks, pick.slot.id ≠ slot'.id := by
        intro slot' hslot' pick hpick hid
        rw [fill_slot hpick] at hid
        exact hnot (List.mem_map.mpr ⟨slot', hslot', hid.symm⟩)
      have hcount : ∀ slot' ∈ slots,
          slotCount slot' ((picks ++ fill slot picks) ++ fill slot' (picks ++ fill slot picks)) =
            slotCount slot' (picks ++ fill slot' picks) := by
        intro slot' hslot'
        rw [fill_append (hother slot' hslot'), slotCount_append, slotCount_append,
          slotCount_append, slotCount_others (hother slot' hslot'), add_zero]
      have hfill : slots.flatMap (fill · (picks ++ fill slot picks)) =
          slots.flatMap (fill · picks) :=
        List.flatMap_congr fun slot' hslot' => fill_append (hother slot' hslot')
      rw [List.forall_mem_cons, List.flatMap_cons, ← List.append_assoc, and_assoc]
      constructor
      · intro h
        obtain ⟨_, hcheck, h⟩ := Serial.bind_ok h
        rw [fillSlot_eq] at hcheck h
        obtain ⟨hcounts, rfl⟩ := (ih hkeys).mp h
        exact ⟨check_ok hcheck, fun slot' hslot' =>
          (hcount slot' hslot').symm.trans (hcounts slot' hslot'), by rw [hfill]⟩
      · rintro ⟨hfirst, hcounts, rfl⟩
        unfold fillSlots
        rw [fillSlot_eq]
        refine (Serial.bind_of_ok (check_of hfirst) _).trans ((ih hkeys).mpr ⟨?_, by rw [hfill]⟩)
        exact fun slot' hslot' => (hcount slot' hslot').trans (hcounts slot' hslot')

/-- Of all that is filled in, a slot counts its own. -/
theorem slotCount_fills (hkeys : (slots.map (·.id)).Nodup) (hslot : slot ∈ slots) :
    slotCount slot (slots.flatMap (fill · picks)) = slotCount slot (fill slot picks) := by
  induction slots with
  | nil => cases hslot
  | cons head slots ih =>
      obtain ⟨hnot, hkeys⟩ := List.nodup_cons.mp hkeys
      rw [List.flatMap_cons, slotCount_append]
      rcases List.mem_cons.mp hslot with rfl | hslot
      · have hothers : slotCount slot (slots.flatMap (fill · picks)) = 0 := by
          refine slotCount_others fun pick hpick hid => ?_
          obtain ⟨slot', hslot', hpick⟩ := List.mem_flatMap.mp hpick
          rw [fill_slot hpick] at hid
          exact hnot (List.mem_map.mpr ⟨slot', hslot', hid⟩)
        rw [hothers, add_zero]
      · have hhead : slotCount slot (fill head picks) = 0 := by
          refine slotCount_others fun pick hpick hid => ?_
          rw [fill_slot hpick] at hid
          exact hnot (List.mem_map.mpr ⟨slot, hslot, hid.symm⟩)
        rw [ih hkeys hslot, hhead, zero_add]

/-! ### The picks of the selections -/

theorem filter_map_eq {α β γ : Type} {R : α → β → Prop} {p : α → Bool} {q : β → Bool} {f : α → γ}
    {g : β → γ} {as : List α} {bs : List β} (h : List.Forall₂ R as bs)
    (hR : ∀ a b, R a b → p a = q b ∧ f a = g b) :
    (as.filter p).map f = (bs.filter q).map g := by
  induction h with
  | nil => rfl
  | cons hab _ ih =>
      obtain ⟨hp, hf⟩ := hR _ _ hab
      rw [List.filter_cons, List.filter_cons, hp]
      split
      · rw [List.map_cons, List.map_cons, hf, ih]
      · exact ih

theorem any_eq {α β : Type} {R : α → β → Prop} {p : α → Bool} {q : β → Bool} {as : List α}
    {bs : List β} (h : List.Forall₂ R as bs) (hR : ∀ a b, R a b → p a = q b) :
    as.any p = bs.any q := by
  induction h with
  | nil => rfl
  | cons hab _ ih => rw [List.any_cons, List.any_cons, hR _ _ hab, ih]

variable {selections : List ComboSelectionInput} {asked : List ComboPick}

/-- A pick is of the slot that its selection is of. -/
theorem Keyed.toPick_slot (h : Keyed combo) (hslot : slot ∈ combo.slots) {s : ComboSelectionInput}
    {pick : ComboPick} (hpick : toPick combo s = .ok pick) :
    decide (pick.slot.id = slot.id) = Selects slot s ∧ pick.quantity = s.quantity.getD 1 := by
  obtain ⟨slot', hslot', option, hoption, hid, rfl⟩ := h.toPick_ok_iff.mp hpick
  refine ⟨?_, rfl⟩
  rw [Selects, ← hid]
  exact (h.selects hslot' hoption hslot).symm

theorem Keyed.slotCount_asked (h : Keyed combo) (hslot : slot ∈ combo.slots)
    (hasked : List.Forall₂ (fun s pick => toPick combo s = .ok pick) selections asked) :
    slotCount slot asked = selectedOf slot selections := by
  rw [slotCount, selectedOf]
  congr 1
  refine (filter_map_eq hasked fun s pick hpick => ?_).symm
  obtain ⟨hof, hquantity⟩ := h.toPick_slot hslot hpick
  exact ⟨hof.symm, hquantity.symm⟩

theorem Keyed.any_asked (h : Keyed combo) (hslot : slot ∈ combo.slots)
    (hasked : List.Forall₂ (fun s pick => toPick combo s = .ok pick) selections asked) :
    asked.any (·.slot.id = slot.id) = !leftOut slot selections := by
  rw [leftOut, Bool.not_not]
  exact (any_eq hasked fun s pick hpick => (h.toPick_slot hslot hpick).1.symm).symm

/-- What is filled in for a slot that has a single option and is left out. -/
theorem fill_of_leftOut (hoptions : slot.options = [option])
    (hleft : asked.any (·.slot.id = slot.id) = false) :
    fill slot asked = [⟨slot, option, slot.pickCount, []⟩] := by
  simp only [fill, hoptions, hleft, Bool.false_eq_true, if_false]

theorem fill_of_selected (hsome : asked.any (·.slot.id = slot.id) = true) :
    fill slot asked = [] := by
  unfold fill
  split
  · rw [if_pos hsome]
  · rfl

theorem mem_fill {pick : ComboPick} (h : pick ∈ fill slot asked) :
    asked.any (·.slot.id = slot.id) = false ∧ ∃ option, slot.options = [option] ∧
      pick = ⟨slot, option, slot.pickCount, []⟩ := by
  unfold fill at h
  split at h
  next option hoptions =>
    split at h
    · cases h
    next hnone => exact ⟨Bool.eq_false_of_not_eq_true hnone, option, hoptions, List.mem_singleton.mp h⟩
  · cases h

/-- A slot has its count: from its selections, or as a single option that is filled in. -/
theorem Keyed.slot_ok_iff (h : Keyed combo) (hslot : slot ∈ combo.slots)
    (hasked : List.Forall₂ (fun s pick => toPick combo s = .ok pick) selections asked) :
    slotCount slot (asked ++ fill slot asked) = slot.pickCount ↔
      (leftOut slot selections = false → selectedOf slot selections = slot.pickCount) ∧
        (leftOut slot selections = true → ∃ option, slot.options = [option]) := by
  have hany := h.any_asked hslot hasked
  rw [slotCount_append, h.slotCount_asked hslot hasked]
  cases hleft : leftOut slot selections with
  | false =>
      rw [hleft] at hany
      rw [fill_of_selected hany, slotCount_others fun _ hmem => absurd hmem List.not_mem_nil,
        add_zero]
      simp
  | true =>
      rw [hleft] at hany
      have hzero : selectedOf slot selections = 0 := by
        rw [← h.slotCount_asked hslot hasked]
        refine slotCount_others fun pick hpick hid => ?_
        exact List.any_eq_false.mp hany pick hpick (decide_eq_true hid)
      rw [hzero, zero_add]
      simp only [Bool.true_eq_false, false_implies, true_implies, true_and]
      constructor
      · intro hcount
        by_contra hnot
        have hnil : fill slot asked = [] := by
          refine List.eq_nil_iff_forall_not_mem.mpr fun pick hpick => ?_
          obtain ⟨-, option, hoptions, -⟩ := mem_fill hpick
          exact hnot ⟨option, hoptions⟩
        have hpos : (slot.pickCount : ℚ) ≠ 0 :=
          Nat.cast_ne_zero.mpr (Nat.one_le_iff_ne_zero.mp slot.one_le_pickCount)
        rw [hnil] at hcount
        exact hpos hcount.symm
      · rintro ⟨option, hoptions⟩
        rw [fill_of_leftOut hoptions hany]
        simp [slotCount]

/-! ### Availability and modifiers -/

theorem assertGroups_ok {where' : String} {modifierIds : List ℕ} {groups : List ModifierGroup} :
    assertGroups where' modifierIds groups = .ok () ↔ ∀ group ∈ groups,
      group.minSelections ≤ group.selected modifierIds ∧
        group.selected modifierIds ≤ group.maxSelections := by
  induction groups with
  | nil => exact iff_of_true rfl fun _ hmem => absurd hmem List.not_mem_nil
  | cons group groups ih =>
      rw [List.forall_mem_cons, ← ih]
      constructor
      · intro h
        obtain ⟨_, hcheck, h⟩ := Serial.bind_ok h
        exact ⟨check_ok hcheck, h⟩
      · rintro ⟨hbounds, h⟩
        unfold assertGroups
        exact (Serial.bind_of_ok (check_of hbounds) _).trans h

theorem assertComboModifiersValid_ok {item : MenuItem} {modifierIds : List ℕ} :
    assertComboModifiersValid item modifierIds = .ok () ↔
      (∀ id ∈ modifierIds, id ∈ item.modifierGroups.flatMap (·.modifierIds)) ∧
        ∀ group ∈ item.modifierGroups, group.minSelections ≤ group.selected modifierIds ∧
          group.selected modifierIds ≤ group.maxSelections := by
  unfold assertComboModifiersValid assertSelection
  constructor
  · intro h
    obtain ⟨_, hcheck, h⟩ := Serial.bind_ok h
    exact ⟨check_ok hcheck, assertGroups_ok.mp h⟩
  · rintro ⟨hvalid, hgroups⟩
    exact (Serial.bind_of_ok (check_of hvalid) _).trans (assertGroups_ok.mpr hgroups)

/-- The child of a pick. -/
def toChild (pick : ComboPick) : ResolvedComboChild :=
  ⟨pick.option.id, pick.option.itemId, pick.option.variantId, pick.quantity,
    pick.option.upchargeMinor, pick.modifierIds⟩

theorem resolvePick_ok_iff {pick : ComboPick} {child : ResolvedComboChild} :
    resolvePick m outletId pick = .ok child ↔
      CanHave m outletId pick.option pick.modifierIds ∧ child = toChild pick := by
  constructor
  · intro h
    obtain ⟨item, hitem, h⟩ := Serial.bind_ok h
    obtain ⟨_, havailable, h⟩ := Serial.bind_ok h
    obtain ⟨⟨⟩, hmodifiers, h⟩ := Serial.bind_ok h
    cases h
    exact ⟨⟨item, orElseThrow_ok hitem, check_ok havailable,
      assertComboModifiersValid_ok.mp hmodifiers⟩, rfl⟩
  · rintro ⟨⟨item, hitem, havailable, hmodifiers⟩, rfl⟩
    exact resolvePick_of hitem havailable (assertComboModifiersValid_ok.mpr hmodifiers)

theorem available_iff : (combo.archivedAt = none ∧
      (toComboMenuView combo (optionAvailable m outletId)).available = true) ↔
    Available m outletId combo := by
  simp only [toComboMenuView, Bool.and_eq_true, Bool.not_eq_true', List.isEmpty_eq_false_iff,
    ne_eq, List.map_eq_nil_iff, List.all_map, List.all_eq_true, Function.comp_apply, List.any_map,
    List.any_eq_true]
  constructor
  · rintro ⟨hlive, ⟨hon, hslots⟩, hoptions⟩
    exact ⟨hlive, hon, hslots, hoptions⟩
  · rintro ⟨hlive, hon, hslots, hoptions⟩
    exact ⟨hlive, ⟨hon, hslots⟩, hoptions⟩

/-! ### What is accepted and what is answered -/

variable {comboId : ℕ} {children : List ResolvedComboChild}

theorem exists_mapM {α β δ : Type} {f : α → Except δ β} {as : List α}
    (h : ∀ a ∈ as, ∃ b, f a = .ok b) : ∃ bs, as.mapM f = .ok bs := by
  induction as with
  | nil => exact ⟨[], rfl⟩
  | cons a as ih =>
      obtain ⟨b, hb⟩ := h a List.mem_cons_self
      obtain ⟨bs, hbs⟩ := ih fun a ha => h a (List.mem_cons_of_mem _ ha)
      exact ⟨b :: bs, Serial.mapM_of_forall₂ (.cons hb (Serial.mapM_ok hbs))⟩

/-- What an answered selection was picked from: the picks of the selections, and what was filled
in. -/
theorem Keyed.resolved (hkeys : Keyed combo)
    (h : Resolved m outletId comboId selections combo children picks) :
    ∃ asked, List.Forall₂ (fun s pick => toPick combo s = .ok pick) selections asked ∧
      (∀ slot ∈ combo.slots, slotCount slot (asked ++ fill slot asked) = slot.pickCount) ∧
      picks = asked ++ combo.slots.flatMap (fill · asked) := by
  obtain ⟨asked, hasked, hfill⟩ := Serial.bind_ok h.picked
  obtain ⟨hcounts, hpicks⟩ := (fillSlots_ok_iff hkeys.slots).mp hfill
  exact ⟨asked, Serial.mapM_ok hasked, hcounts, hpicks⟩

/-- Only valid picks are accepted. -/
theorem Keyed.valid (hkeys : Keyed combo)
    (h : Resolved m outletId comboId selections combo children picks) :
    ValidPicks m outletId combo selections := by
  obtain ⟨asked, hasked, hcounts, rfl⟩ := hkeys.resolved h
  have hcanHave : ∀ pick ∈ asked ++ combo.slots.flatMap (fill · asked),
      CanHave m outletId pick.option pick.modifierIds := by
    intro pick hpick
    obtain ⟨child, -, hchild⟩ := Serial.mapM_answer h.resolved hpick
    exact (resolvePick_ok_iff.mp hchild).1
  refine ⟨fun s hs => ?_, fun slot hslot => ?_, fun slot hslot hleft => ?_, ?_⟩
  · obtain ⟨pick, -, hpick⟩ := Serial.exists_right hasked hs
    obtain ⟨slot, hslot, option, hoption, hid, -⟩ := hkeys.toPick_ok_iff.mp hpick
    exact ⟨slot, hslot, option, hoption, hid⟩
  · exact ((hkeys.slot_ok_iff hslot hasked).mp (hcounts slot hslot)).1
  · obtain ⟨option, hoptions⟩ := ((hkeys.slot_ok_iff hslot hasked).mp (hcounts slot hslot)).2 hleft
    have hany := hkeys.any_asked hslot hasked
    rw [hleft] at hany
    refine ⟨option, hoptions, hcanHave ⟨slot, option, slot.pickCount, []⟩ ?_⟩
    refine List.mem_append_right _ (List.mem_flatMap.mpr ⟨slot, hslot, ?_⟩)
    rw [fill_of_leftOut hoptions hany]
    exact List.mem_singleton_self _
  · intro s hs slot hslot option hoption hid
    obtain ⟨pick, hmem, hpick⟩ := Serial.exists_right hasked hs
    obtain ⟨slot', hslot', option', hoption', hid', rfl⟩ := hkeys.toPick_ok_iff.mp hpick
    obtain ⟨-, rfl⟩ := hkeys.unique hslot hoption hslot' hoption' (hid.trans hid'.symm)
    exact hcanHave _ (List.mem_append_left _ hmem)

/-- All valid picks are. -/
theorem Keyed.accepts (hkeys : Keyed combo) (hfound : m.combo comboId = some combo)
    (havailable : Available m outletId combo) (hvalid : ValidPicks m outletId combo selections) :
    ∃ r, resolveComboSelection m outletId comboId selections = .ok r := by
  have hpick : ∀ s ∈ selections, ∃ pick, toPick combo s = .ok pick := by
    intro s hs
    obtain ⟨slot, hslot, option, hoption, hid⟩ := hvalid.belongs s hs
    exact ⟨_, hkeys.toPick_ok_iff.mpr ⟨slot, hslot, option, hoption, hid, rfl⟩⟩
  obtain ⟨asked, hasked⟩ := exists_mapM hpick
  have hpicks := Serial.mapM_ok hasked
  have hfill : fillSlots combo.slots asked = .ok (asked ++ combo.slots.flatMap (fill · asked)) := by
    refine (fillSlots_ok_iff hkeys.slots).mpr ⟨fun slot hslot => ?_, rfl⟩
    refine (hkeys.slot_ok_iff hslot hpicks).mpr ⟨hvalid.counts slot hslot, fun hleft => ?_⟩
    obtain ⟨option, hoptions, -⟩ := hvalid.fixed slot hslot hleft
    exact ⟨option, hoptions⟩
  have hresolve : ∀ pick ∈ asked ++ combo.slots.flatMap (fill · asked),
      ∃ child, resolvePick m outletId pick = .ok child := by
    intro pick hmem
    refine ⟨toChild pick, resolvePick_ok_iff.mpr ⟨?_, rfl⟩⟩
    rcases List.mem_append.mp hmem with hmem | hmem
    · obtain ⟨s, hs, hpick⟩ := Serial.mapM_mem hasked hmem
      obtain ⟨slot, hslot, option, hoption, hid, rfl⟩ := hkeys.toPick_ok_iff.mp hpick
      exact hvalid.chosen s hs slot hslot option hoption hid
    · obtain ⟨slot, hslot, hmem⟩ := List.mem_flatMap.mp hmem
      obtain ⟨hnone, option, hoptions, rfl⟩ := mem_fill hmem
      have hany := hkeys.any_asked hslot hpicks
      rw [hnone] at hany
      have hleft : leftOut slot selections = true := by simpa using hany.symm
      obtain ⟨option', hoptions', hcan⟩ := hvalid.fixed slot hslot hleft
      rw [hoptions] at hoptions'
      cases hoptions'
      exact hcan
  obtain ⟨children, hchildren⟩ := exists_mapM hresolve
  obtain ⟨hlive, hview⟩ := available_iff.mpr havailable
  exact ⟨(combo, children), resolveComboSelection_ok.mpr ⟨_, hfound, hlive, hview,
    by rw [hasked]; exact hfill, hchildren⟩⟩

/-- The children of what was filled in are those of the slots that were left out. -/
theorem Keyed.filled (hkeys : Keyed combo)
    (hasked : List.Forall₂ (fun s pick => toPick combo s = .ok pick) selections asked)
    (hcounts : ∀ slot ∈ combo.slots, slotCount slot (asked ++ fill slot asked) = slot.pickCount)
    (hslots : slots ⊆ combo.slots) :
    List.Forall₂ FilledBy (slots.filter (leftOut · selections))
      ((slots.flatMap (fill · asked)).map toChild) := by
  induction slots with
  | nil => exact .nil
  | cons slot slots ih =>
      obtain ⟨hslot, hslots⟩ := List.cons_subset.mp hslots
      have hany := hkeys.any_asked hslot hasked
      rw [List.filter_cons, List.flatMap_cons, List.map_append]
      cases hleft : leftOut slot selections with
      | false =>
          rw [hleft] at hany
          rw [fill_of_selected hany]
          exact ih hslots
      | true =>
          rw [hleft] at hany
          obtain ⟨option, hoptions⟩ :=
            ((hkeys.slot_ok_iff hslot hasked).mp (hcounts slot hslot)).2 hleft
          rw [fill_of_leftOut hoptions hany]
          exact .cons ⟨option, hoptions, rfl⟩ (ih hslots)

theorem Keyed.answers (hkeys : Keyed combo)
    (h : Resolved m outletId comboId selections combo children picks) :
    Answers combo selections children := by
  obtain ⟨asked, hasked, hcounts, rfl⟩ := hkeys.resolved h
  have hchildren := Serial.mapM_ok h.resolved
  have hmap : children = (asked ++ combo.slots.flatMap (fill · asked)).map toChild := by
    have heq : List.Forall₂ (· = ·)
        ((asked ++ combo.slots.flatMap (fill · asked)).map toChild) children :=
      List.forall₂_map_left_iff.mpr
        (hchildren.imp fun _ _ hchild => (resolvePick_ok_iff.mp hchild).2.symm)
    rw [List.forall₂_eq_eq_eq] at heq
    exact heq.symm
  refine ⟨⟨asked.map toChild, (combo.slots.flatMap (fill · asked)).map toChild, ?_, ?_, ?_⟩, ?_⟩
  · rw [hmap, List.map_append]
  · refine List.forall₂_map_right_iff.mpr (hasked.imp fun s pick hpick => ?_)
    obtain ⟨slot, hslot, option, hoption, hid, rfl⟩ := hkeys.toPick_ok_iff.mp hpick
    exact ⟨slot, hslot, option, hoption, hid, rfl⟩
  · exact hkeys.filled hasked hcounts fun _ h => h
  · intro slot hslot
    rw [hmap, childrenOf, List.filter_map, List.map_map, ← hcounts slot hslot, slotCount_append,
      ← slotCount_fills hkeys.slots hslot, ← slotCount_append, slotCount]
    congr 2
    refine List.filter_congr fun pick hpick => ?_
    obtain ⟨hslot', hoption⟩ := mem_options.mp (h.mem_options hpick)
    exact hkeys.selects hslot' hoption hslot

/-- A selection is accepted exactly where the combo can be had and the picks are valid, and the
children that are answered are those of its picks. -/
theorem resolveComboSelection_iff (m : Menu) (outletId comboId : ℕ)
    (selections : List ComboSelectionInput)
    (hkeys : ∀ combo, m.combo comboId = some combo → Keyed combo) :
    ((∃ r, resolveComboSelection m outletId comboId selections = .ok r) ↔
      ∃ combo, m.combo comboId = some combo ∧ Available m outletId combo ∧
        ValidPicks m outletId combo selections) ∧
    ∀ combo children,
      resolveComboSelection m outletId comboId selections = .ok (combo, children) →
      m.combo comboId = some combo ∧ Answers combo selections children := by
  refine ⟨⟨?_, ?_⟩, fun combo children h => ?_⟩
  · rintro ⟨⟨combo, children⟩, h⟩
    obtain ⟨picks, h⟩ := resolveComboSelection_ok.mp h
    exact ⟨combo, h.found, available_iff.mp ⟨h.live, h.available⟩, (hkeys combo h.found).valid h⟩
  · rintro ⟨combo, hfound, havailable, hvalid⟩
    exact (hkeys combo hfound).accepts hfound havailable hvalid
  · obtain ⟨picks, h⟩ := resolveComboSelection_ok.mp h
    exact ⟨h.found, (hkeys combo h.found).answers h⟩

/-- A meal of a main, two sides of the guest's choice and a drink that is always the same. -/
def mealMenu : Menu :=
  { outletIds := [1]
    items := [⟨1, "Dosa", true, none, [], [⟨1, "Spice", 1, 1, [7, 8]⟩]⟩,
      ⟨2, "Vada", true, none, [], []⟩, ⟨3, "Idli", true, none, [], []⟩,
      ⟨4, "Coffee", true, none, [], []⟩]
    modifiers := [⟨7, "Mild", 0⟩, ⟨8, "Hot", 0⟩], itemPrices := [], itemOutletOverrides := []
    combos := [⟨1, "Meal", 150, "INR", true, none,
      [⟨1, "Main", 1, [⟨1, 1, none, 0⟩], by decide⟩,
        ⟨2, "Sides", 2, [⟨2, 2, none, 0⟩, ⟨3, 3, none, 10⟩], by decide⟩,
        ⟨3, "Drink", 1, [⟨4, 4, none, 0⟩], by decide⟩]⟩] }

def mealPicks : List ComboSelectionInput :=
  [⟨2, none, none⟩, ⟨1, some 1, some [8]⟩, ⟨2, some 1, none⟩]

theorem resolveComboSelection_iff_sample :
    (∃ combo, mealMenu.combo 1 = some combo ∧ Available mealMenu 1 combo ∧
      ValidPicks mealMenu 1 combo mealPicks) ∧
    ∃ combo children, resolveComboSelection mealMenu 1 1 mealPicks = .ok (combo, children) ∧
      Answers combo mealPicks children := by
  have hkeys : ∀ combo, mealMenu.combo 1 = some combo → Keyed combo := by
    intro combo h
    cases h
    exact ⟨by decide, by decide⟩
  obtain ⟨hiff, hanswers⟩ := resolveComboSelection_iff mealMenu 1 1 mealPicks hkeys
  have hok : (resolveComboSelection mealMenu 1 1 mealPicks).isOk = true := by decide +kernel
  cases hr : resolveComboSelection mealMenu 1 1 mealPicks with
  | error e =>
      rw [hr] at hok
      cases hok
  | ok r => exact ⟨hiff.mp ⟨r, hr⟩, r.1, r.2, rfl, (hanswers r.1 r.2 hr).2⟩

end RestiqBackend.ComboPicks
