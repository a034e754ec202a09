import RestiqBackend.Refunds

/-!
What was paid and what is paid back.

The notes of a bill hold what the bill charged, and no more. What was paid differs
from that by the cash round-off, which no note knows of. So what is paid back stays
within what was paid, and reaches it, exactly where the tenders were the total.
-/

namespace RestiqBackend

open ReadCommitted

/-! ### Taking everything back -/

section Everything

variable {orderLines : List OrderLine}

/-- A line that nothing was taken back of can be taken back whole. -/
theorem priceTarget_whole (hnd : (orderLines.map (·.id)).Nodup) {line : OrderLine}
    (hline : line ∈ orderLines) {refunded : ℕ → ℚ} (hzero : refunded line.id = 0) :
    priceTarget orderLines refunded ⟨line.id, line.quantity⟩ =
      .ok ⟨line.id, line.quantity, line.unitMinor, line.unitMinor * line.quantity⟩ := by
  simp [priceTarget, find?_key hnd hline, hzero]

/-- The lines taken back whole, each once. -/
def wholeLines (lines : List OrderLine) : List CreditNoteLine :=
  lines.map fun line => ⟨line.id, line.quantity, line.unitMinor, line.unitMinor * line.quantity⟩

theorem priceTargets_whole (hnd : (orderLines.map (·.id)).Nodup) {lines : List OrderLine}
    (hsub : ∀ line ∈ lines, line ∈ orderLines) (hlines : (lines.map (·.id)).Nodup)
    (refunded : ℕ → ℚ) (hzero : ∀ line ∈ lines, refunded line.id = 0) :
    priceTargets orderLines refunded (lines.map fun line => ⟨line.id, line.quantity⟩) =
      .ok (wholeLines lines) := by
  induction lines generalizing refunded with
  | nil => rfl
  | cons line lines ih =>
      rw [List.map_cons, List.nodup_cons] at hlines
      have hline := priceTarget_whole hnd (hsub line List.mem_cons_self)
        (hzero line List.mem_cons_self)
      have hrest := ih (fun l hl => hsub l (List.mem_cons_of_mem _ hl)) hlines.2
        (Function.update refunded line.id (refunded line.id + line.quantity))
        fun l hl => by
          have hne : l.id ≠ line.id := fun heq => hlines.1 (heq ▸ List.mem_map_of_mem hl)
          rw [Function.update_of_ne hne]
          exact hzero l (List.mem_cons_of_mem _ hl)
      rw [List.map_cons, priceTargets, hline]
      simp only [bind, Except.bind, hrest]
      rfl

theorem takenBack_wholeLines {lines : List OrderLine} (hnd : (lines.map (·.id)).Nodup)
    {line : OrderLine} (hline : line ∈ lines) :
    takenBack (wholeLines lines) line.id = line.quantity := by
  induction lines with
  | nil => simp at hline
  | cons l lines ih =>
      rw [List.map_cons, List.nodup_cons] at hnd
      rw [wholeLines, List.map_cons, takenBack_cons]
      change (if l.id = line.id then l.quantity else 0) + takenBack (wholeLines lines) line.id = _
      rcases List.mem_cons.mp hline with rfl | hline
      · have hzero : takenBack (wholeLines lines) line.id = 0 :=
          takenBack_eq_zero fun x hx heq => hnd.1 (by
            obtain ⟨l', hl', rfl⟩ := List.mem_map.mp hx
            exact heq ▸ List.mem_map_of_mem hl')
        rw [if_pos rfl, hzero, add_zero]
      · have hne : l.id ≠ line.id := fun heq => hnd.1 (heq ▸ List.mem_map_of_mem hline)
        rw [if_neg hne, zero_add, ih hnd.2 hline]

/-- The lines of an order that have units to take back. -/
def unitLines (orderLines : List OrderLine) : List OrderLine :=
  orderLines.filter fun line => 0 < line.quantity

theorem refundTargets_whole (h : unitLines orderLines ≠ []) :
    refundTargets orderLines (refundedSoFar []) none =
      .ok ((unitLines orderLines).map fun line => ⟨line.id, line.quantity⟩) := by
  have htargets : (orderLines.map fun l =>
      (⟨l.id, l.quantity - refundedSoFar [] l.id⟩ : RefundTarget)).filter (0 < ·.quantity) =
        (unitLines orderLines).map fun line => ⟨line.id, line.quantity⟩ := by
    simp [refundedSoFar, List.filter_map, Function.comp_def, unitLines]
  simp only [refundTargets, htargets]
  rw [if_neg (by simpa using h)]

end Everything

section Full

variable {v v' : Store} {b : Bill}

/-- A refund of everything, with a manager's PIN, is not refused. -/
theorem wlp_refund_all (h : Refundable v b) (hnone : v.creditNotes = [])
    (hunits : unitLines v.liveLines ≠ []) (staff : PosPrincipal) (dto : RefundBillDto)
    (hpin : dto.managerPin.isSome) (hall : dto.lines = none) (approval : ManagerApproval) :
    (refund staff dto (.ok approval)).wlp (fun _ => False) (fun _ _ => True)
      (fun _ v' => ∃ amount, v'.noteLines = allocateLines amount (wholeLines (unitLines v.liveLines)))
      v := by
  have htargets := refundTargets_whole hunits
  have hunit : ∀ line ∈ unitLines v.liveLines, line ∈ v.liveLines := fun _ hl =>
    List.mem_of_mem_filter hl
  have hlines := priceTargets_whole h.live_nodup hunit
    (h.live_nodup.sublist (List.filter_sublist.map _)) (refundedSoFar []) fun _ _ => rfl
  simp only [refund, assertPinGiven, hpin, if_true, lockBill, Txn.wlp_bind, Txn.wlp_pure,
    Txn.wlp_exec, applyAll_nil]
  intro _ _
  refine wlp_loadBill h.bill (wlp_refresh h.bill ?_)
  rw [Bill.refreshed_of_finalized h.finalized, Store.refreshed_eq_self h.bill h.finalized]
  simp only [wlp_raiseIf, h.finalized, ne_eq, not_true_eq_false, if_false, Txn.wlp_query, hnone,
    List.flatMap_nil, hall]
  intro _ _ _ _
  rw [htargets, wlp_ofExcept_ok, hlines, wlp_ofExcept_ok]
  simp only [wlp_ofExcept_ok, Txn.wlp_uuid, Txn.wlp_clock, wlp_insertRow, hnone, List.any_nil,
    Bool.false_eq_true, if_false, recordApproval, Txn.wlp_exec, applyAll_cons, applyAll_nil,
    writeTo_apply]
  intro _ _ _ _ _ _ _ _ _ _
  exact ⟨(noteAmounts b [] [] (wholeLines (unitLines v.liveLines))).1, by
    simp [Store.noteLines, Store.apply, hnone]⟩

/-- A settled bill can always be refunded to its last unit. -/
theorem exists_full_refund (h : Refundable v b) (hnone : v.creditNotes = []) :
    ∃ v', Runs Op.IsRefund v v' ∧
      ∀ line ∈ v.liveLines, takenBack v'.noteLines line.id = line.quantity := by
  by_cases hunits : unitLines v.liveLines = []
  · -- Nothing on the bill has a unit to take back.
    refine ⟨v, .nil, fun line hline => ?_⟩
    have hzero := List.filter_eq_nil_iff.mp hunits line hline
    simp only [decide_eq_true_eq, not_lt, nonpos_iff_eq_zero] at hzero
    simp [Store.noteLines, hnone, hzero]
  · let staff : PosPrincipal := ⟨0, "Owner", 0⟩
    let dto : RefundBillDto := ⟨some "0000", "everything", none, none, by simp⟩
    have hwlp := wlp_refund_all h hnone hunits staff dto rfl rfl ⟨0, "everything"⟩
    have hprog : (Op.prog (.refund staff dto (.ok ⟨0, "everything"⟩))).wlp (fun _ => False)
        (fun _ _ => True) (fun _ v' => ∃ amount, v'.noteLines =
          allocateLines amount (wholeLines (unitLines v.liveLines))) v := by
      rw [Op.prog, Txn.wlp_void]
      exact hwlp
    have hrun := Txn.wlp_run hprog (ticking 0) (fun _ _ => trivial) 0
    cases hresult : (Op.prog (.refund staff dto (.ok ⟨0, "everything"⟩))).run (ticking 0) 0 v with
    | error e =>
        rw [hresult] at hrun
        exact hrun.elim
    | ok r =>
        obtain ⟨⟨⟩, v'⟩ := r
        rw [hresult] at hrun
        obtain ⟨amount, hnotes⟩ := hrun
        refine ⟨v', .snoc _ .nil ⟨_, _, _, rfl⟩ (.commits ⟨_, hresult⟩), fun line hline => ?_⟩
        rw [hnotes, takenBack_congr (allocateLines_units _ _)]
        have hnd : ((unitLines v.liveLines).map (·.id)).Nodup :=
          h.live_nodup.sublist (List.filter_sublist.map _)
        by_cases hpos : 0 < line.quantity
        · exact takenBack_wholeLines hnd (List.mem_filter.mpr ⟨hline, decide_eq_true hpos⟩)
        · rw [takenBack_eq_zero fun x hx heq => hpos ?_]
          · omega
          · obtain ⟨l, hl, rfl⟩ := List.mem_map.mp hx
            obtain ⟨hl, hlpos⟩ := List.mem_filter.mp hl
            have hsame : l = line := eq_of_key_eq h.live_nodup hl hline heq
            exact hsame ▸ of_decide_eq_true hlpos

end Full

/-! ### Paid and paid back -/

/-- A bill that is not settled has no credit note. -/
theorem Store.Reachable.unrefunded {v : Store} (h : v.Reachable) :
    (∃ b, v.bill = some b ∧ b.status = .finalized) ∨ v.creditNotes = [] := by
  obtain ⟨v₀, hplaced, hruns⟩ := h
  suffices H : (v.Priced ∧ v.ledger.Wf) ∧
      ((∃ b, v.bill = some b ∧ b.status = .finalized) ∨ v.creditNotes = []) from H.2
  refine hruns.preserves (I := fun v => (v.Priced ∧ v.ledger.Wf) ∧
    ((∃ b, v.bill = some b ∧ b.status = .finalized) ∨ v.creditNotes = [])) ?_
    ⟨⟨hplaced.priced, hplaced.wf⟩, Or.inr hplaced.creditNotes⟩
  rintro op v₁ v₂ _ ⟨⟨hpriced, hwf⟩, hnotes⟩ hstep
  have hposts := hstep.posts hpriced hwf
  refine ⟨⟨hposts.1, hposts.wf hwf⟩, ?_⟩
  rcases hnotes with ⟨b, hb, hfin⟩ | hnone
  · exact Or.inl ⟨b, (hstep.finalized_keeps hpriced hwf hb hfin).1, hfin⟩
  · by_cases hrefund : op.IsRefund
    · obtain ⟨staff, dto, authorize, rfl⟩ := hrefund
      refine hstep.post (Q := fun v => (∃ b, v.bill = some b ∧ b.status = .finalized) ∨
        v.creditNotes = []) (Or.inr hnone) ?_
      rw [Op.prog, Txn.commits, Txn.wlp_void]
      refine Txn.wlp_mono (commits_refund staff dto authorize) fun _ v₂ hrefunded => Or.inl ?_
      obtain ⟨b, _, hr⟩ := hrefunded
      exact ⟨b, (hr.frame .bills (by decide)).trans hr.bill, hr.finalized⟩
    · have htable : Table.creditNotes ∉ op.tables := by
        cases op with
        | refund staff dto authorize => exact absurd ⟨staff, dto, authorize, rfl⟩ hrefund
        | _ => simp [Op.tables, settlementTables, guestPaymentTables]
      exact Or.inr ((hstep.frame .creditNotes htable).trans hnone)

/-- What the notes of a bill pay back, as each credit note shows it. -/
def Store.repaidMinor (v : Store) (b : Bill) : ℤ :=
  (v.creditNotes.map (·.totalMinor b.pricesIncludeTax)).sum

/-- What a staff settlement charges for the order as it stands. -/
def FinalizeBillDto.chargedMinor (dto : FinalizeBillDto) (v : Store) (b : Bill) : ℤ :=
  let discountMinor := dto.discountMinor.getD 0
  computeTotalMinor v.subtotal (v.profile.taxOn (v.subtotal - discountMinor)).taxMinor discountMinor
    (b.refreshed v.subtotal v.profile).pricesIncludeTax

section Paid

variable {v v' : Store} {b b' : Bill}

theorem FinalizedBy.totalMinor_eq {dto : FinalizeBillDto} {ts : List Tender}
    (h : FinalizedBy dto v v' b b' ts) : b'.totalMinor = dto.chargedMinor v b := by
  obtain ⟨number, staff, roundOff, at_, rfl⟩ := h.row
  have hsub := Bill.refreshed_subtotalMinor h.wasOpen v.subtotal v.profile
  have htax := Bill.refreshed_taxMinor h.wasOpen v.subtotal v.profile
  have hdiscount := dto.discount_nonneg
  by_cases hpos : 0 < dto.discountMinor.getD 0
  · simp [Bill.totalMinor, Bill.finalize, FinalizeBillDto.chargedMinor, hpos, hsub]
  · have hzero : dto.discountMinor.getD 0 = 0 := by omega
    simp [Bill.totalMinor, Bill.finalize, FinalizeBillDto.chargedMinor, hzero, hsub, htax]

theorem FinalizedBy.subtotalMinor_eq {dto : FinalizeBillDto} {ts : List Tender}
    (h : FinalizedBy dto v v' b b' ts) : b'.status = .finalized ∧ b'.subtotalMinor = v'.subtotal := by
  have hlines : v'.lines = v.lines := h.frame .orderLines (by decide)
  obtain ⟨number, staff, roundOff, at_, rfl⟩ := h.row
  refine ⟨rfl, (Bill.refreshed_subtotalMinor h.wasOpen _ _).trans ?_⟩
  rw [Store.subtotal, Store.subtotal, Store.liveLines, Store.liveLines, hlines]

/-- What notes show as paid back is their subtotals, and their taxes where prices leave
them out. -/
theorem repaidMinor_eq (v : Store) (b : Bill) :
    v.repaidMinor b = (v.creditNotes.map (·.subtotalMinor)).sum +
      if b.pricesIncludeTax then 0 else (v.creditNotes.map (·.taxMinor)).sum := by
  unfold Store.repaidMinor
  cases hincl : b.pricesIncludeTax with
  | true => simp [CreditNote.totalMinor]
  | false => simp [CreditNote.totalMinor, List.sum_map_add]

/-- What is paid back stays within what was charged, and reaches it with the last unit. -/
theorem Conserved.repaid_le (h : Refundable v b) (hc : Conserved b v.liveLines v'.creditNotes) :
    v'.repaidMinor b ≤ b.totalMinor ∧
      ((∀ line ∈ v.liveLines, takenBack v'.noteLines line.id = line.quantity) →
        v'.repaidMinor b = b.totalMinor) := by
  rw [repaidMinor_eq, Bill.totalMinor, computeTotalMinor]
  obtain ⟨hsub, htax⟩ := hc.sums_le h
  rw [Bill.netMinor] at hsub
  refine ⟨?_, fun hall => ?_⟩
  · split <;> omega
  · obtain ⟨hsub, htax⟩ := hc.sums_eq h hall
    rw [Bill.netMinor] at hsub
    split <;> omega

end Paid

/-- **Refunded money and money taken.** After a staff settlement, no sequence of refunds
pays back more than the tenders, and taking every unit back pays back exactly them, if
and only if the tenders were the total itself, without a cash round-off. -/
theorem repaid_within_paid_iff {v v' : Store} (h : v.Reachable) {staff : PosPrincipal}
    {dto : FinalizeBillDto} {authorize : Except ApiError ManagerApproval}
    (hfinalize : Op.Commits (.finalize staff dto authorize) v v') {b b' : Bill}
    (hb : v.bill = some b) (hb' : v'.bill = some b') :
    (∀ v'', Runs Op.IsRefund v' v'' → v''.repaidMinor b' ≤ v'.tenderTotal ∧
      ((∀ line ∈ v'.liveLines, takenBack v''.noteLines line.id = line.quantity) →
        v''.repaidMinor b' = v'.tenderTotal)) ↔
    v.tenderTotal + (dto.tenders.map (·.amountMinor)).sum = dto.chargedMinor v b := by
  have hprog : (Op.prog (.finalize staff dto authorize)).commits (fun _ v' => (∃ b b' ts,
      FinalizedBy dto v v' b b' ts) ∧ Posts (fun e => e = .plain ∨ e = .settle) v v') v := by
    rw [Op.prog, Txn.commits, Txn.wlp_void]
    exact commits_finalize h.books.1 staff dto authorize
  obtain ⟨⟨b₀, b₁, ts, hby⟩, _⟩ := hfinalize.post hprog
  have hsame : b₀ = b := Option.some.inj (hby.wasBill.symm.trans hb)
  have hsame' : b₁ = b' := Option.some.inj (hby.bill.symm.trans hb')
  rw [hsame, hsame'] at hby
  have hreachable : v'.Reachable := by
    obtain ⟨v₀, hplaced, hruns⟩ := h
    exact ⟨v₀, hplaced, .snoc _ hruns trivial (.commits hfinalize)⟩
  obtain ⟨hfin, hsub⟩ := hby.subtotalMinor_eq
  have hrefundable := hreachable.refundable hb' hfin hsub
  have hnone : v'.creditNotes = [] := by
    refine (hby.frame .creditNotes (by decide)).trans (h.unrefunded.resolve_left ?_)
    rintro ⟨b₂, hb₂, hfin₂⟩
    have hopen := hby.wasOpen
    rw [Option.some.inj (hb.symm.trans hb₂), hfin₂] at hopen
    cases hopen
  have htenders : v'.tenderTotal = v.tenderTotal + (dto.tenders.map (·.amountMinor)).sum := by
    rw [Store.tenderTotal, hby.tenders, List.map_append, List.sum_append, hby.amounts]
    rfl
  rw [← htenders, ← hby.totalMinor_eq]
  constructor
  · intro hclaim
    -- A full refund pays back the total, whatever was paid.
    obtain ⟨v'', hruns, hall⟩ := exists_full_refund hrefundable hnone
    have hback := ((hrefundable.runs hnone hruns).conserved.repaid_le hrefundable).2 hall
    exact ((hclaim v'' hruns).2 hall).symm.trans hback
  · intro hexact v'' hruns
    rw [hexact]
    exact (hrefundable.runs hnone hruns).conserved.repaid_le hrefundable

/-- The sample order with its bill open. -/
def sampleOpen : Store := sampleOrder.after [(.createBill sampleStaff "", ticking 100)]

/-- The same bill settled with its total in cash. -/
def sampleExact : Store :=
  sampleOpen.after [(settleWith [cashTender 24046 one_le_sampleTotal], ticking 200)]

theorem repaid_within_paid_iff_sample :
    ∃ b', sampleExact.bill = some b' ∧ ∀ v'', Runs Op.IsRefund sampleExact v'' →
      v''.repaidMinor b' ≤ sampleExact.tenderTotal := by
  have hreachable : sampleOpen.Reachable :=
    ⟨sampleOrder, sampleOrder_placed, .of_after rfl fun _ _ => trivial⟩
  have hfinalize : Op.Commits (.finalize sampleStaff
      (settleDto [cashTender 24046 one_le_sampleTotal]) (.error internalError))
      sampleOpen sampleExact := ⟨ticking 200, rfl⟩
  obtain ⟨b, hb⟩ : ∃ b, sampleOpen.bill = some b := ⟨_, rfl⟩
  obtain ⟨b', hb'⟩ : ∃ b', sampleExact.bill = some b' := ⟨_, rfl⟩
  have hexact : sampleOpen.tenderTotal + ((settleDto
      [cashTender 24046 one_le_sampleTotal]).tenders.map (·.amountMinor)).sum =
        (settleDto [cashTender 24046 one_le_sampleTotal]).chargedMinor sampleOpen b := by
    cases hb
    decide
  refine ⟨b', hb', fun v'' hruns => ?_⟩
  exact ((repaid_within_paid_iff hreachable hfinalize hb hb').mpr hexact v'' hruns).1

/-- A bill of 240.46 is settled with 240.00 in cash and paid back in full: 240.46. -/
theorem repaid_more_than_paid :
    ∃ b v'', sampleSettled.Reachable ∧
      Op.Commits (settleWith [cashTender 24000 (by decide)]) sampleOpen
        sampleSettled ∧
      sampleSettled.bill = some b ∧ Runs Op.IsRefund sampleSettled v'' ∧
      sampleSettled.tenderTotal = 24000 ∧ v''.repaidMinor b = 24046 :=
  ⟨_, sampleSettled.after sampleRefunds, sampleSettled_reachable, ⟨ticking 200, rfl⟩, rfl,
    .of_after (by decide +kernel) (by simp [sampleRefunds, Op.IsRefund]), rfl, by decide +kernel⟩

end RestiqBackend
