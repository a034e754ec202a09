import RestiqBackend.Routing
import RestiqBackend.Approvals

/-!
The kitchen's copy of the order.

A ticket line repeats its order line's count and whether it was voided, and nothing else keeps
the two alike: the till changes the order's lines, the kitchen's service writes the tickets.
`Store.Kitchen` is what holds of the two together and `Store.Kept` what of the earlier rows is
still there; every request of the till and of the kitchen keeps the one and extends the other.
-/

namespace RestiqBackend

open ReadCommitted

/-! ### The two copies -/

/-- The ticket line says of its order line what the order says. -/
structure TicketLine.Copies (tl : TicketLine) (l : OrderLine) : Prop where
  id : tl.orderLineId = l.id
  item : l.itemId ≠ none
  quantity : tl.quantity = l.quantity
  voided : tl.voided = l.voidedAt.isSome

/-- Every ticket line copies a line of the order, and no two copy the same one. -/
structure Store.Kitchen (v : Store) : Prop extends v.TicketKeys where
  lineIds : v.lineIds.Nodup
  once : v.firedLines.Nodup
  copies : ∀ tl ∈ v.ticketLines, ∃ l ∈ v.lines, tl.Copies l

/-- The line as it was, or voided since. -/
def OrderLine.Since (l l' : OrderLine) : Prop :=
  l' = l ∨ l.voidedAt = none ∧ ∃ voidedAt, l' = { l with voidedAt := some voidedAt }

/-- What the kitchen had of the order it still has, and so does the till. -/
structure Store.Kept (v v' : Store) : Prop where
  lines : ∀ l ∈ v.lines, l.id ∈ v.firedLines → ∃ l' ∈ v'.lines, l.Since l'
  ticketLines : ∀ tl ∈ v.ticketLines, ∃ tl' ∈ v'.ticketLines,
    tl' = tl ∨ tl' = { tl with voided := true }

section Copies

variable {v v' v'' : Store}

theorem OrderLine.Since.id_eq {l l' : OrderLine} (h : l.Since l') : l'.id = l.id := by
  rcases h with rfl | ⟨_, _, rfl⟩ <;> rfl

theorem OrderLine.Since.trans {l l' l'' : OrderLine} (h : l.Since l') (h' : l'.Since l'') :
    l.Since l'' := by
  rcases h' with rfl | ⟨hlive, voidedAt, rfl⟩
  · exact h
  · rcases h with rfl | ⟨_, _, rfl⟩
    · exact .inr ⟨hlive, voidedAt, rfl⟩
    · exact absurd hlive (by simp)

theorem Store.Kept.refl (v : Store) : v.Kept v :=
  ⟨fun l hl _ => ⟨l, hl, .inl rfl⟩, fun tl htl => ⟨tl, htl, .inl rfl⟩⟩

theorem Store.Kept.fired (h : v.Kept v') {id : ℕ} (hid : id ∈ v.firedLines) :
    id ∈ v'.firedLines := by
  obtain ⟨tl, htl, rfl⟩ := List.mem_map.mp hid
  obtain ⟨tl', htl', rfl | rfl⟩ := h.ticketLines tl htl
  · exact List.mem_map_of_mem htl'
  · exact List.mem_map.mpr ⟨_, htl', rfl⟩

theorem Store.Kept.trans (h : v.Kept v') (h' : v'.Kept v'') : v.Kept v'' where
  lines l hl hfired := by
    obtain ⟨l', hl', hsince⟩ := h.lines l hl hfired
    obtain ⟨l'', hl'', hsince'⟩ := h'.lines l' hl' (hsince.id_eq ▸ h.fired hfired)
    exact ⟨l'', hl'', hsince.trans hsince'⟩
  ticketLines tl htl := by
    obtain ⟨tl', htl', hsame⟩ := h.ticketLines tl htl
    obtain ⟨tl'', htl'', hsame'⟩ := h'.ticketLines tl' htl'
    refine ⟨tl'', htl'', ?_⟩
    rcases hsame with rfl | rfl
    · exact hsame'
    · exact .inr (hsame'.elim id fun hvoided => hvoided)

theorem Store.Kitchen.fired_mem (h : v.Kitchen) {id : ℕ} (hid : id ∈ v.firedLines) :
    id ∈ v.lineIds := by
  obtain ⟨tl, htl, rfl⟩ := List.mem_map.mp hid
  obtain ⟨l, hl, hcopy⟩ := h.copies tl htl
  exact hcopy.id ▸ List.mem_map_of_mem hl

theorem Store.Kitchen.eq_of_id (h : v.Kitchen) {l l' : OrderLine} (hl : l ∈ v.lines)
    (hl' : l' ∈ v.lines) (hid : l.id = l'.id) : l = l' :=
  eq_of_key_eq h.lineIds hl hl' hid

/-! ### Changes that spare what the kitchen has -/

/-- A change of the order's lines that leaves the ticketed ones as they are. -/
structure Store.Spares (v v' : Store) : Prop where
  tickets : v'.tickets = v.tickets
  ticketLines : v'.ticketLines = v.ticketLines
  lines : ∀ l ∈ v.lines, l.id ∈ v.firedLines → l ∈ v'.lines
  lineIds : v.lineIds.Nodup → v'.lineIds.Nodup

theorem Store.Spares.refl (v : Store) : v.Spares v := ⟨rfl, rfl, fun _ hl _ => hl, id⟩

theorem Store.Spares.firedLines (h : v.Spares v') : v'.firedLines = v.firedLines := by
  rw [Store.firedLines, h.ticketLines, Store.firedLines]

theorem Store.Spares.trans (h : v.Spares v') (h' : v'.Spares v'') : v.Spares v'' where
  tickets := h'.tickets.trans h.tickets
  ticketLines := h'.ticketLines.trans h.ticketLines
  lines l hl hfired := h'.lines l (h.lines l hl hfired) (by rwa [h.firedLines])
  lineIds hids := h'.lineIds (h.lineIds hids)

theorem Store.Spares.kitchen (h : v.Spares v') (hv : v.Kitchen) : v'.Kitchen where
  ids := by
    rw [h.tickets]
    exact hv.ids
  placed := by
    rw [h.tickets, h.ticketLines]
    exact hv.placed
  lineIds := h.lineIds hv.lineIds
  once := by
    rw [h.firedLines]
    exact hv.once
  copies tl htl := by
    rw [h.ticketLines] at htl
    obtain ⟨l, hl, hcopy⟩ := hv.copies tl htl
    exact ⟨l, h.lines l hl (hcopy.id ▸ List.mem_map_of_mem htl), hcopy⟩

theorem Store.Spares.kept (h : v.Spares v') : v.Kept v' where
  lines l hl hfired := ⟨l, h.lines l hl hfired, .inl rfl⟩
  ticketLines tl htl := ⟨tl, by rwa [h.ticketLines], .inl rfl⟩

theorem Store.Spares.of_frame {ts : List Table} (h : Frame ts v v') (hlines : .orderLines ∉ ts)
    (htickets : .tickets ∉ ts) : v.Spares v' where
  tickets := (h .tickets htickets).1
  ticketLines := (h .tickets htickets).2.1
  lines l hl _ := (show v'.lines = v.lines from h .orderLines hlines) ▸ hl
  lineIds hids := by
    rw [Store.lineIds, show v'.lines = v.lines from h .orderLines hlines]
    exact hids

/-- A change of one row that the kitchen does not have. -/
theorem Store.Spares.update {id : ℕ} (hid : id ∉ v.firedLines) {f : OrderLine → OrderLine}
    (hf : ∀ l, (f l).id = l.id) :
    v.Spares { v with lines := updateRows OrderLine.id id f v.lines } where
  tickets := rfl
  ticketLines := rfl
  lines _ hl hfired := mem_updateRows.mpr (.inl ⟨hl, fun heq => hid (heq ▸ hfired)⟩)
  lineIds hids := nodup_updateRows hf hids

theorem Store.Spares.insert {l : OrderLine} (hl : l.id ∉ v.lineIds) :
    v.Spares (v.apply (.createLine l)) where
  tickets := rfl
  ticketLines := rfl
  lines _ hl' _ := List.mem_append_left _ hl'
  lineIds hids := by
    rw [lineIds_apply rfl]
    exact hids.append (List.nodup_singleton _) fun id hid hnew =>
      hl (List.mem_singleton.mp hnew ▸ hid)

theorem Store.Spares.delete {id : ℕ}
    (h : ∀ l ∈ v.lines, l.id = id ∨ l.parentLineId = some id → l.id ∉ v.firedLines) :
    v.Spares (v.apply (.deleteLine id)) where
  tickets := rfl
  ticketLines := rfl
  lines l hl hfired := by
    refine List.mem_filter.mpr ⟨hl, ?_⟩
    by_contra hgone
    simp only [Bool.not_eq_true', Bool.or_eq_false_iff, decide_eq_false_iff_not, not_and_or,
      not_not] at hgone
    exact h l hl hgone hfired
  lineIds hids := (List.filter_sublist.map _).nodup hids

/-! ### Firing -/

theorem Fired.kept {outletId : ℕ} {new : List TicketLine} (h : Fired outletId v v' new) :
    v.Kept v' where
  lines l hl _ := ⟨l, by rwa [show v'.lines = v.lines from h.frame .orderLines (by decide)],
    .inl rfl⟩
  ticketLines tl htl := ⟨tl, by
    rw [h.ticketLines]
    exact List.mem_append_left _ htl, .inl rfl⟩

theorem mem_unfired {l : OrderLine} : l ∈ v.unfired ↔
    l ∈ v.lines ∧ l.voidedAt = none ∧ l.itemId ≠ none ∧ l.id ∉ v.firedLines := by
  simp only [Store.unfired, List.mem_filter, Bool.and_eq_true, Option.isNone_iff_eq_none,
    Option.isSome_iff_ne_none, List.all_eq_true, decide_eq_true_eq, Store.firedLines, List.mem_map,
    not_exists, not_and, and_assoc]

theorem Fired.kitchen {outletId : ℕ} {new : List TicketLine} (h : Fired outletId v v' new)
    (hv : v.Kitchen) : v'.Kitchen := by
  have hlines : v'.lines = v.lines := h.frame .orderLines (by decide)
  refine { h.keys hv.toTicketKeys with lineIds := ?_, once := ?_, copies := fun tl htl => ?_ }
  · rw [Store.lineIds, hlines]
    exact hv.lineIds
  · rw [Store.firedLines, h.ticketLines, List.map_append]
    have hnew : (v.unfired.map (·.id)).Nodup := (List.filter_sublist.map _).nodup hv.lineIds
    refine hv.once.append (h.lines.nodup_iff.mpr hnew) fun id hid hid' => ?_
    obtain ⟨l, hl, rfl⟩ := List.mem_map.mp (h.lines.subset hid')
    exact (mem_unfired.mp hl).2.2.2 hid
  · rw [hlines]
    rw [h.ticketLines] at htl
    rcases List.mem_append.mp htl with htl | htl
    · exact hv.copies tl htl
    · obtain ⟨l, hl, hid, hquantity, hvoided, -⟩ := h.copies tl htl
      obtain ⟨hmem, hlive, hitem, -⟩ := mem_unfired.mp hl
      exact ⟨l, hmem, hid, hitem, hquantity, by rw [hvoided, hlive]; rfl⟩

end Copies

/-! ### The operations on lines -/

section Lines

variable {v : Store}

theorem commits_createLine_spares (h : v.Kitchen) {line : OrderLine}
    {modifiers : List OrderLineModifier} :
    (createLine line modifiers).commits (fun _ v' => v.Spares v') v := by
  simp only [createLine, Txn.commits, Txn.wlp_bind]
  refine commits_insertRow fun hfree => ?_
  have hnew : line.id ∉ v.lineIds := by simpa [Store.lineIds] using hfree
  refine Txn.wlp_forEach (fun m _ v₁ hv₁ => ?_) (Store.Spares.insert hnew)
  simp only [Txn.wlp_exec, applyAll_cons, applyAll_nil, writeTo_apply]
  refine fun _ _ => hv₁.trans (.update (fun hid => hnew (h.fired_mem ?_)) fun _ => rfl)
  rwa [hv₁.firedLines] at hid

theorem addLine_sparesKitchen (h : v.Kitchen) (staff : PosPrincipal) (name : String)
    (dto : AddOrderLineDto) (menu : Except ApiError PricedItem) :
    (addLine staff name dto menu).commits (fun _ v' => v.Spares v') v := by
  simp only [addLine, Txn.commits, Txn.wlp_bind, Txn.wlp_uuid]
  exact commits_loadOpenOrder fun _ => commits_ofExcept fun item _ _ _ =>
    commits_createLine_spares h

theorem addCombo_sparesKitchen (h : v.Kitchen) (staff : PosPrincipal) (name : String)
    (dto : AddComboLineDto) (menu : Except ApiError ComboSelection) :
    (addCombo staff name dto menu).commits (fun _ v' => v.Spares v') v := by
  simp only [addCombo, Txn.commits, Txn.wlp_bind, Txn.wlp_uuid]
  refine commits_loadOpenOrder fun _ => commits_ofExcept fun selection _ _ _ => ?_
  refine Txn.wlp_mono (commits_createLine_spares h) fun _ v₁ hv₁ => ?_
  refine Txn.wlp_forEach (fun child _ v₂ hv₂ => ?_) hv₁
  simp only [Txn.wlp_bind, Txn.wlp_uuid]
  exact fun _ _ => Txn.wlp_mono (commits_createLine_spares (hv₂.kitchen h)) fun _ _ => hv₂.trans

/-- What the check that a line was not sent lets through. -/
theorem commits_lineNotSent {line : OrderLine} {Q : Unit → Store → Prop}
    (hQ : line.id ∉ v.firedLines →
      (∀ l ∈ v.lines, l.parentLineId = some line.id → l.id ∉ v.firedLines) → Q () v) :
    (assertLineNotSent line).commits Q v := by
  simp only [assertLineNotSent, lineAndChildIds, isSentToKitchen, Txn.commits, Txn.wlp_bind,
    Txn.wlp_query, Txn.wlp_pure]
  intro _ _ _ _
  refine commits_raiseIf fun hunsent => ?_
  have hnone : ∀ id ∈ line.id :: (v.lines.filter (·.parentLineId = some line.id)).map (·.id),
      id ∉ v.firedLines := by
    intro id hid hfired
    obtain ⟨tl, htl, rfl⟩ := List.mem_map.mp hfired
    exact hunsent (List.any_eq_true.mpr ⟨tl, htl, decide_eq_true hid⟩)
  refine hQ (hnone _ List.mem_cons_self) fun l hl hparent => hnone _ (List.mem_cons_of_mem _ ?_)
  exact List.mem_map_of_mem (List.mem_filter.mpr ⟨hl, decide_eq_true hparent⟩)

theorem updateLine_sparesKitchen (staff : PosPrincipal) (name : String) (lineId : ℕ)
    (dto : UpdateOrderLineDto) :
    (updateLine staff name lineId dto).commits (fun _ v' => v.Spares v') v := by
  simp only [updateLine, Txn.commits, Txn.wlp_bind]
  refine commits_loadOpenOrder fun _ => commits_loadLiveLine fun line _ hid _ => ?_
  refine commits_assertNotComboLine (commits_lineNotSent fun hunsent _ => ?_)
  rw [hid] at hunsent
  refine commits_reads (assertReduction_emits _) fun _ => ?_
  have hupdate : ∀ {v' : Store}, v.Spares v' → ∀ {f : OrderLine → OrderLine},
      (∀ l, (f l).id = l.id) →
      v.Spares { v' with lines := updateRows OrderLine.id lineId f v'.lines } :=
    fun hv' _ hf => hv'.trans (.update (hv'.firedLines ▸ hunsent) hf)
  have hmodifiers : ∀ v' : Store, v.Spares v' → (whenGiven dto.modifiers fun menu => do
      let modifiers ← ofExcept menu
      replaceModifiers lineId modifiers).commits (fun _ v' => v.Spares v') v' := by
    refine fun v' hv' => commits_whenGiven (fun menu _ => ?_) fun _ => hv'
    simp only [replaceModifiers, Txn.commits, Txn.wlp_bind, Txn.wlp_query, Txn.wlp_exec,
      applyAll_cons, applyAll_nil, writeTo_apply]
    refine commits_ofExcept fun modifiers _ _ _ => ?_
    refine commits_reads (assertReduction_emits _) fun _ _ _ => ?_
    refine Txn.wlp_forEach (fun m _ v₁ hv₁ => ?_) (hupdate hv' fun _ => rfl)
    simp only [Txn.wlp_exec, applyAll_cons, applyAll_nil, writeTo_apply]
    exact fun _ _ => hupdate hv₁ fun _ => rfl
  have hseat : ∀ v' : Store, v.Spares v' →
      (whenGiven dto.seatNumber (updateLineSeat lineId)).commits (fun _ v' => v.Spares v') v' := by
    refine fun v' hv' => commits_whenGiven (fun seat _ => ?_) fun _ => hv'
    simp only [updateLineSeat, Txn.commits, Txn.wlp_bind]
    exact Txn.commits_writeWhen (fun _ => hupdate hv' fun _ => rfl) fun _ => trivial
  have hquantity : (whenGiven dto.quantity (updateLineQuantity lineId)).commits
      (fun _ v' => v.Spares v') v := by
    refine commits_whenGiven (fun quantity _ => ?_) fun _ => .refl v
    simp only [updateLineQuantity, Txn.commits, Txn.wlp_bind]
    exact Txn.commits_writeWhen (fun _ => hupdate (.refl v) fun _ => rfl) fun _ => trivial
  exact Txn.wlp_mono hquantity fun _ v h => Txn.wlp_mono (hseat v h) fun _ v h => hmodifiers v h

theorem removeLine_sparesKitchen (staff : PosPrincipal) (name : String) (lineId : ℕ) :
    (removeLine staff name lineId).commits (fun _ v' => v.Spares v') v := by
  simp only [removeLine, Txn.commits, Txn.wlp_bind]
  refine commits_loadOpenOrder fun _ => commits_loadLiveLine fun line _ hid _ => ?_
  refine commits_assertNotComboLine (commits_lineNotSent fun hunsent hchildren => ?_)
  refine commits_reads assertBillHasNoPayments_emits fun _ => ?_
  refine Txn.commits_writeWhen (fun _ => .delete fun l hl hgone => ?_) fun _ => trivial
  rw [hid] at hunsent hchildren
  rcases hgone with rfl | hparent
  · exact hunsent
  · exact hchildren l hl hparent

/-- The lines and ticket lines of `ids` voided together. -/
structure Voided (v v' : Store) (ids : List ℕ) (voidedAt : ℤ) : Prop where
  tickets : v'.tickets = v.tickets
  lines : v'.lines = v.lines.map fun l =>
    if l.id ∈ ids then { l with voidedAt := some voidedAt } else l
  ticketLines : v'.ticketLines = v.ticketLines.map fun tl =>
    if tl.orderLineId ∈ ids then { tl with voided := true } else tl

theorem Voided.kept {v' : Store} {ids : List ℕ} {voidedAt : ℤ} (h : Voided v v' ids voidedAt)
    (hlive : ∀ l ∈ v.lines, l.id ∈ ids → l.voidedAt = none) : v.Kept v' where
  lines l hl _ := by
    rw [h.lines]
    refine ⟨_, List.mem_map_of_mem hl, ?_⟩
    split
    · rename_i hid
      exact .inr ⟨hlive l hl hid, voidedAt, rfl⟩
    · exact .inl rfl
  ticketLines tl htl := by
    rw [h.ticketLines]
    refine ⟨_, List.mem_map_of_mem htl, ?_⟩
    split
    · exact .inr rfl
    · exact .inl rfl

theorem Voided.kitchen {v' : Store} {ids : List ℕ} {voidedAt : ℤ} (h : Voided v v' ids voidedAt)
    (hv : v.Kitchen) : v'.Kitchen := by
  have hids : v'.lineIds = v.lineIds := by
    rw [Store.lineIds, h.lines, List.map_map]
    refine List.map_congr_left fun l _ => ?_
    rw [Function.comp_apply]
    split <;> rfl
  have hfired : v'.firedLines = v.firedLines := by
    rw [Store.firedLines, h.ticketLines, List.map_map]
    refine List.map_congr_left fun tl _ => ?_
    rw [Function.comp_apply]
    split <;> rfl
  refine ⟨⟨by rw [h.tickets]; exact hv.ids, fun tl' htl' => ?_⟩, hids ▸ hv.lineIds,
    hfired ▸ hv.once, fun tl' htl' => ?_⟩
  all_goals
    rw [h.ticketLines] at htl'
    obtain ⟨tl, htl, rfl⟩ := List.mem_map.mp htl'
  · obtain ⟨t, ht, hid⟩ := hv.placed tl htl
    refine ⟨t, h.tickets ▸ ht, hid.trans ?_⟩
    split <;> rfl
  · obtain ⟨l, hl, hcopy⟩ := hv.copies tl htl
    refine ⟨_, h.lines ▸ List.mem_map_of_mem hl, ?_⟩
    -- Both are of `ids` or neither is.
    by_cases hid : tl.orderLineId ∈ ids
    · rw [if_pos hid, if_pos (hcopy.id ▸ hid)]
      exact ⟨hcopy.id, hcopy.item, hcopy.quantity, rfl⟩
    · rw [if_neg hid, if_neg (hcopy.id ▸ hid)]
      exact hcopy

/-- Voiding takes back a line with its items, all of them live, and tells the kitchen. -/
theorem voidLine_voids (h : v.Kitchen) (hwhole : v.Whole) (staff : PosPrincipal) (name : String)
    (lineId : ℕ) (authorize : Except ApiError ManagerApproval) :
    (voidLine staff name lineId authorize).commits (fun _ v' => ∃ ids voidedAt,
      Voided v v' ids voidedAt ∧ ∀ l ∈ v.lines, l.id ∈ ids → l.voidedAt = none) v := by
  simp only [voidLine, lineAndChildIds, isSentToKitchen, voidTicketLines, recordApproval,
    Txn.commits, Txn.wlp_bind, Txn.wlp_query, Txn.wlp_pure, Txn.wlp_clock, Txn.wlp_exec,
    applyAll_cons, applyAll_nil, writeTo_apply]
  refine commits_loadOpenOrder fun _ => commits_loadLiveLine fun line hline _ hlive => ?_
  refine commits_raiseIf fun htop => fun _ _ _ _ => commits_raiseIf fun _ => ?_
  refine commits_reads assertBillHasNoPayments_emits fun _ => commits_ofExcept fun approval _ => ?_
  intro env _ _ _ _ _ _ _
  refine ⟨_, env.now, ⟨rfl, rfl, ?_⟩, fun l hl hid => ?_⟩
  · refine List.map_congr_left fun tl htl => ?_
    refine ite_congr (propext ⟨fun hkey => ?_, fun hid => ?_⟩) (fun _ => rfl) fun _ => rfl
    · obtain ⟨tl', htl', heq⟩ := List.mem_map.mp hkey
      have hid := (List.mem_filter.mp htl').2
      rw [show tl'.orderLineId = tl.orderLineId from congrArg Prod.snd heq] at hid
      exact of_decide_eq_true hid
    · exact List.mem_map_of_mem (List.mem_filter.mpr ⟨htl, decide_eq_true hid⟩)
  · rcases List.mem_cons.mp hid with hid | hid
    · rw [h.eq_of_id hl hline hid]
      exact hlive
    · obtain ⟨c, hc, hid⟩ := List.mem_map.mp hid
      obtain ⟨hc, hparent⟩ := List.mem_filter.mp hc
      have hparent : c.parentLineId = some line.id := of_decide_eq_true hparent
      obtain rfl := h.eq_of_id hc hl hid
      obtain ⟨t, ht, hitem⟩ := hwhole.items c hc (by simp [hparent])
      rw [hitem.voided, h.eq_of_id ht hline (Option.some.inj (hitem.parent.symm.trans hparent))]
      exact hlive

end Lines

/-! ### Requests -/

section Requests

variable {v v' : Store}

/-- Run alone, the program keeps the copies alike and what the kitchen had. -/
def KeepsKitchen {α : Type} (p : Tx α) : Prop :=
  ∀ v : Store, v.Kitchen → p.commits (fun _ v' => v'.Kitchen ∧ v.Kept v') v

theorem keepsKitchen_closed : Txn.Closed fun {α} (p : Tx α) => KeepsKitchen p where
  done _ v h := ⟨h, .refl v⟩
  fail _ _ _ := trivial
  bind hp hg v h := by
    simp only [Txn.commits, Txn.wlp_bind]
    refine Txn.wlp_mono (hp v h) fun a v₁ h₁ => ?_
    exact Txn.wlp_mono (hg a v₁ h₁.1) fun _ _ h₂ => ⟨h₂.1, h₁.2.trans h₂.2⟩

theorem keepsKitchen_of_spares {p : Tx Unit}
    (h : ∀ v : Store, v.Kitchen → p.commits (fun _ v' => v.Spares v') v) : KeepsKitchen p :=
  fun v hv => Txn.wlp_mono (h v hv) fun _ _ hspares => ⟨hspares.kitchen hv, hspares.kept⟩

theorem keepsKitchen_of_touching {α : Type} {p : Tx α} {ts : List Table}
    (h : p.Emits (Touching ts)) (hlines : .orderLines ∉ ts) (htickets : .tickets ∉ ts) :
    KeepsKitchen p := fun v hv =>
  Txn.wlp_mono (emits_wlp_frame h (.all (fun _ => trivial) _) v) fun _ _ hframe =>
    have hspares := Store.Spares.of_frame hframe hlines htickets
    ⟨hspares.kitchen hv, hspares.kept⟩

theorem fireOnSend_keepsKitchen (outletId : ℕ) : KeepsKitchen (fireOnSend outletId) :=
  fun _ hv => commits_fireOnSend fun _ _ hfired => ⟨hfired.kitchen hv, hfired.kept⟩

def Op.isVoid : Op → Bool
  | .voidLine .. => true
  | _ => false

/-- Every request but the void keeps the kitchen, whatever the combos. -/
theorem Op.keepsKitchen (op : Op) (h : op.isVoid = false) : KeepsKitchen op.prog := by
  have hΦ := keepsKitchen_closed
  have hquiet : ∀ {t : List Table}, .orderLines ∉ t → .tickets ∉ t → ∀ {α : Type} {p : Tx α},
      p.Emits (Touching t) → KeepsKitchen p := fun hlines htickets _ _ hp =>
    keepsKitchen_of_touching hp hlines htickets
  have hrefresh : ∀ bill, KeepsKitchen (refreshOpenBillTotals bill) := fun bill =>
    hquiet (by decide) (by decide) (refreshOpenBillTotals_emits bill)
  have hstatus : ∀ status, KeepsKitchen (Txn.exec (fun _ => [.order]) fun _ =>
      [.updateOrderStatus status] : Tx Unit) := fun status =>
    hquiet (t := [.orders]) (by decide) (by decide) (emits_exec (by simp [Write.table]))
  have hsettle := commitFinalize_parts hΦ (hquiet (by decide) (by decide)) (writeSettlement_parts hΦ
    { counter := hquiet (t := [.billNumberCounters]) (by decide) (by decide)
        ⟨fun _ _ => by simp [Touching, Write.table], fun _ => trivial⟩
      bill := fun _ _ _ _ _ _ _ => hquiet (t := [.bills]) (by decide) (by decide)
        (emits_writeWhen (by simp [Write.table]))
      fire := fireOnSend_keepsKitchen
      close := hstatus .closed
      quiet := hquiet (by decide) (by decide) })
  have hcomplete := completeBill_parts hΦ (hquiet (by decide) (by decide)) hsettle
  have hprepare := preparePayment_parts hΦ hrefresh (hquiet (by decide) (by decide))
  cases op with
  | finalize staff dto authorize =>
      exact hΦ.void (finalize_parts hΦ hrefresh (hquiet (by decide) (by decide)) hsettle staff dto
        authorize)
  | payShare guest guestId dto =>
      exact hΦ.void (payShare_parts hΦ hprepare (hquiet (by decide) (by decide)) hcomplete guest
        guestId dto)
  | payAll guest dto =>
      exact hΦ.void (payAll_parts hΦ hprepare (hquiet (by decide) (by decide)) hcomplete guest dto)
  | updateStatus staff name status =>
      exact updateStatus_parts hΦ (hquiet (by decide) (by decide)) (hstatus .sent)
        fireOnSend_keepsKitchen staff name status
  | addLine staff name dto menu =>
      exact keepsKitchen_of_spares fun v hv => addLine_sparesKitchen hv staff name dto menu
  | addCombo staff name dto menu =>
      exact keepsKitchen_of_spares fun v hv => addCombo_sparesKitchen hv staff name dto menu
  | updateLine staff name id dto =>
      exact keepsKitchen_of_spares fun v _ => updateLine_sparesKitchen staff name id dto
  | removeLine staff name id =>
      exact keepsKitchen_of_spares fun v _ => removeLine_sparesKitchen staff name id
  | voidLine staff name id authorize => simp [Op.isVoid] at h
  | _ =>
      -- The requests that touch neither lines nor tickets.
      exact keepsKitchen_of_touching (Op.emits _)
        (by simp [Op.tables]) (by simp [Op.tables])

theorem voidLine_kitchen (h : v.Kitchen) (hwhole : v.Whole) (staff : PosPrincipal) (name : String)
    (lineId : ℕ) (authorize : Except ApiError ManagerApproval) :
    (voidLine staff name lineId authorize).commits (fun _ v' => v'.Kitchen ∧ v.Kept v') v :=
  Txn.wlp_mono (voidLine_voids h hwhole staff name lineId authorize)
    fun _ _ ⟨_, _, hvoided, hlive⟩ => ⟨hvoided.kitchen h, hvoided.kept hlive⟩

theorem Op.Step.kitchen {op : Op} (h : op.Step v v') (hv : v.Kitchen) (hwhole : v.Whole) :
    v'.Kitchen ∧ v.Kept v' := by
  refine h.post (Q := fun v' => v'.Kitchen ∧ v.Kept v') ⟨hv, .refl v⟩ ?_
  cases hvoid : op.isVoid with
  | false => exact op.keepsKitchen hvoid v hv
  | true =>
      cases op with
      | voidLine staff name lineId authorize =>
          exact voidLine_kitchen hv hwhole staff name lineId authorize
      | _ => cases hvoid

end Requests

/-! ### What is billed was sent -/

section Sent

variable {v v' : Store}

/-- Once the bill is finalized the order is closed and the kitchen has every item of it. -/
def Store.AllSent (v : Store) : Prop :=
  v.billIs .finalized = true → v.order.status = .closed ∧ v.unfired = []

theorem unfired_of_same (hlines : v'.lines = v.lines) (htickets : v'.ticketLines = v.ticketLines) :
    v'.unfired = v.unfired := by
  rw [Store.unfired, hlines, htickets, Store.unfired]

theorem Store.AllSent.of_frame {ts : List Table} (h : v.AllSent) (hframe : Frame ts v v')
    (hlines : .orderLines ∉ ts) (htickets : .tickets ∉ ts) (horders : .orders ∉ ts)
    (hbill : v'.billIs .finalized = true → v.billIs .finalized = true) : v'.AllSent := by
  intro hfinal
  obtain ⟨hclosed, hnone⟩ := h (hbill hfinal)
  refine ⟨by rw [show v'.order = v.order from hframe .orders horders, hclosed], ?_⟩
  rw [unfired_of_same (hframe .orderLines hlines) (hframe .tickets htickets).2.1, hnone]

/-- A write that finalizes no bill. -/
def Write.Unsettling (w : Write) : Prop :=
  w.marks = true → w.opensBill = true ∨ w.deletesBill = true

theorem Write.Unsettling.finalized {w : Write} (hw : w.Unsettling) (v : Store)
    (h : (v.apply w).billIs .finalized = true) : v.billIs .finalized = true := by
  cases w with
  | createBill bill =>
      have hopen : bill.status = .open := by
        simpa [Write.Unsettling, Write.marks, Write.opensBill, Write.deletesBill] using hw
      simp [Store.apply, Store.billIs, hopen] at h
  | deleteBill => simp [Store.apply, Store.billIs] at h
  | finalizeBill =>
      simp [Write.Unsettling, Write.marks, Write.opensBill, Write.deletesBill] at hw
  | updateBillTotals =>
      rw [Store.billIs] at h ⊢
      cases hb : v.bill with
      | none => simp [Store.apply, hb] at h
      | some b => simpa [Store.apply, hb, Bill.withTotals] using h
  | _ => exact h

theorem commits_unsettling {α : Type} {p : Tx α} (hp : p.Emits (Writing Write.Unsettling)) :
    p.commits (fun _ v' => v'.billIs .finalized = true → v.billIs .finalized = true) v :=
  commits_of_writing (I := fun v' => v'.billIs .finalized = true → v.billIs .finalized = true)
    hp (fun _ v₁ hw hv₁ h => hv₁ (hw.finalized v₁ h)) id

theorem Op.unsettling (op : Op) (h : op.role ≠ .settles) :
    op.prog.Emits (Writing Write.Unsettling) := by
  have hconfined : op.prog.Emits (Writing (Confined Write.opensBill (some .sent))) :=
    op.confined (fun _ _ => id) (fun hsettles => absurd hsettles h) fun _ => rfl
  exact hconfined.mono fun _ hl w hw hmarks => .inl ((hl w hw).1 hmarks)

def KeepsSent {α : Type} (p : Tx α) : Prop :=
  ∀ v : Store, v.AllSent → p.commits (fun _ v' => v'.AllSent) v

theorem keepsSent_closed : Txn.Closed fun {α} (p : Tx α) => KeepsSent p where
  done _ _ h := h
  fail _ _ _ := trivial
  bind hp hg v h := by
    simp only [Txn.commits, Txn.wlp_bind]
    exact Txn.wlp_mono (hp v h) fun a v₁ h₁ => hg a v₁ h₁

theorem keepsSent_of_touching {α : Type} {p : Tx α} {ts : List Table} (h : p.Emits (Touching ts))
    (hbills : .bills ∉ ts) (hlines : .orderLines ∉ ts) (htickets : .tickets ∉ ts)
    (horders : .orders ∉ ts) : KeepsSent p := fun v hv =>
  Txn.wlp_mono (emits_wlp_frame h (.all (fun _ => trivial) _) v) fun _ v' hframe =>
    hv.of_frame hframe hlines htickets horders fun hfinal => by
      rwa [Store.billIs, show v'.bill = v.bill from hframe .bills hbills] at hfinal

/-- The settlement sends what still waits, and closes the order. -/
theorem writeSettlement_sends (params : CommitFinalizeParams) (roundOff : Option ℤ)
    (tax : Option TaxResult) :
    (writeSettlement params roundOff tax).commits
      (fun _ v' => v'.order.status = .closed ∧ v'.unfired = []) v := by
  simp only [writeSettlement, upsertBillNumberCounter, Txn.commits, Txn.wlp_bind, Txn.wlp_stmt,
    Txn.wlp_done, Txn.wlp_clock]
  refine fun _ _ env _ => Txn.commits_writeWhen (fun _ => commits_raiseIf fun _ => ?_)
    fun _ => commits_raiseIf fun hfalse => absurd rfl hfalse
  refine commits_fireOnSend fun v₁ new hfired => ?_
  simp only [Txn.wlp_exec, applyAll_cons, applyAll_nil, writeTo_apply]
  intro _ _
  have hafter : ∀ v₂, Frame [.tenants, .auditEvents] (v₁.apply (.updateOrderStatus .closed)) v₂ →
      v₂.order.status = .closed ∧ v₂.unfired = [] := by
    intro v₂ hframe
    refine ⟨by rw [show v₂.order = _ from hframe .orders (by decide)]; rfl, ?_⟩
    rw [unfired_of_same (hframe .orderLines (by decide)) (hframe .tickets (by decide)).2.1]
    exact hfired.unfired
  refine Txn.wlp_mono (emits_wlp_frame goLiveOnFirstSale_emits (.all (fun _ => trivial) _) _) ?_
  exact fun _ v₂ hframe => commits_reads loadBill_emits fun _ => hafter v₂ hframe

theorem refresh_keepsSent (bill : BillWithTenders) : KeepsSent (refreshOpenBillTotals bill) := by
  have hwrites : (refreshOpenBillTotals bill).Emits (Writing Write.Unsettling) := by
    have hΦ := writing_closed Write.Unsettling
    have hreads : ∀ {α : Type} {p : Tx α}, p.Emits (Touching []) →
        p.Emits (Writing Write.Unsettling) := fun hp => writing_of_touching (by simp) hp
    refine hΦ.ite trivial (hΦ.bind (hreads computeBillTotals_emits) fun totals =>
      hΦ.ite trivial (hΦ.bind ⟨fun _ _ w hw => ?_, fun _ => trivial⟩ fun updated => ?_))
    · obtain rfl := List.mem_singleton.mp hw
      exact fun h => by simp [Write.marks] at h
    · cases updated <;> trivial
  intro v hv
  refine Txn.wlp_mono (Txn.wlp_and (commits_unsettling (v := v) hwrites) (emits_wlp_frame
    (refreshOpenBillTotals_emits bill) (.all (fun _ => trivial) _) v)) fun _ v' h => ?_
  exact hv.of_frame h.2 (by decide) (by decide) (by decide) h.1

/-- A settling request leaves nothing behind that the kitchen does not have. -/
theorem Op.keepsSent (op : Op) (h : op.role = .settles) : KeepsSent op.prog := by
  have hΦ := keepsSent_closed
  have hquiet : ∀ {t : List Table}, .bills ∉ t → .orderLines ∉ t → .tickets ∉ t → .orders ∉ t →
      ∀ {α : Type} {p : Tx α}, p.Emits (Touching t) → KeepsSent p :=
    fun hbills hlines htickets horders _ _ hp =>
      keepsSent_of_touching hp hbills hlines htickets horders
  have hsettle := commitFinalize_parts hΦ (hquiet (by decide) (by decide) (by decide) (by decide))
    fun params roundOff tax v _ => Txn.wlp_mono (writeSettlement_sends params roundOff tax)
      fun _ _ hsent _ => hsent
  have hcomplete := completeBill_parts hΦ
    (hquiet (by decide) (by decide) (by decide) (by decide)) hsettle
  have hprepare := preparePayment_parts hΦ refresh_keepsSent
    (hquiet (by decide) (by decide) (by decide) (by decide))
  cases op with
  | finalize staff dto authorize =>
      exact hΦ.void (finalize_parts hΦ refresh_keepsSent
        (hquiet (by decide) (by decide) (by decide) (by decide)) hsettle staff dto authorize)
  | payShare guest guestId dto =>
      exact hΦ.void (payShare_parts hΦ hprepare
        (hquiet (by decide) (by decide) (by decide) (by decide)) hcomplete guest guestId dto)
  | payAll guest dto =>
      exact hΦ.void (payAll_parts hΦ hprepare
        (hquiet (by decide) (by decide) (by decide) (by decide)) hcomplete guest dto)
  | _ => cases h

def Op.edits : Op → Bool
  | .addLine .. | .addCombo .. | .updateLine .. | .removeLine .. | .voidLine ..
  | .updateStatus .. => true
  | _ => false

/-- A closed order is neither changed nor sent. -/
theorem Op.edits_refused (op : Op) (hop : op.edits = true) (hclosed : v.order.status = .closed) :
    op.prog.commits (fun _ _ => False) v := by
  have hload : ∀ {staff name} {g : Order → Tx Unit},
      (loadOpenOrder staff name >>= g).commits (fun _ _ => False) v := by
    intro staff name g
    simp only [Txn.commits, Txn.wlp_bind]
    exact commits_loadOpenOrder fun hopen => absurd hclosed hopen
  cases op with
  | updateStatus staff name status =>
      change (RestiqBackend.updateStatus staff name status).commits (fun _ _ => False) v
      simp only [RestiqBackend.updateStatus, assertOwner, Txn.commits, Txn.wlp_bind, Txn.wlp_query]
      refine fun _ _ => commits_raiseIf fun _ => ?_
      rw [if_neg (by simp [hclosed]), Txn.wlp_bind]
      exact commits_raiseIf fun hforward =>
        absurd (by simp [hclosed, forwardTransitions]) hforward
  | addLine | addCombo | updateLine | removeLine | voidLine => exact hload
  | _ => cases hop

theorem Op.tables_of_not_edits (op : Op) (hrole : op.role ≠ .settles) (hop : op.edits = false) :
    .orderLines ∉ op.tables ∧ .tickets ∉ op.tables ∧ .orders ∉ op.tables := by
  cases op <;> simp_all [Op.edits, Op.role, Op.tables]

theorem Op.Step.allSent {op : Op} (h : op.Step v v') (hv : v.AllSent) : v'.AllSent := by
  by_cases hsettles : op.role = .settles
  · exact h.post hv (op.keepsSent hsettles v hv)
  · have hfinal : v'.billIs .finalized = true → v.billIs .finalized = true :=
      h.post (Q := fun v' => v'.billIs .finalized = true → v.billIs .finalized = true) id
        (commits_unsettling (op.unsettling hsettles))
    cases hedits : op.edits with
    | true =>
        by_cases hclosed : v.order.status = .closed
        · have hsame : v' = v := h.post (Q := (· = v)) rfl
            (Txn.wlp_mono (op.edits_refused hedits hclosed) fun _ _ hfalse => hfalse.elim)
          exact hsame ▸ hv
        · exact fun h => absurd (hv (hfinal h)).1 hclosed
    | false =>
        obtain ⟨hlines, htickets, horders⟩ := op.tables_of_not_edits hsettles hedits
        exact hv.of_frame h.frame hlines htickets horders hfinal

end Sent

end RestiqBackend
