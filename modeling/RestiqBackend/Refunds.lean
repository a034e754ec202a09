import RestiqBackend.OpenBill

/-!
Refunds of a settled bill.

A credit note takes units of lines back and pays their part of what the bill
charged. The units are counted line by line; the money is counted cumulatively:
after every note the notes together hold the share of the bill that all the units
taken back so far are worth. So no order or grouping of refunds pays more than the
bill charged, and taking everything back pays all of it.
-/

namespace RestiqBackend

open ReadCommitted

/-! ### Units -/

/-- How many units of an order line the lines of credit notes have taken back. -/
def takenBack (noteLines : List CreditNoteLine) (orderLineId : ℕ) : ℕ :=
  ((noteLines.filter (·.orderLineId = orderLineId)).map (·.quantity)).sum

def Store.noteLines (v : Store) : List CreditNoteLine := v.creditNotes.flatMap (·.lines)

@[simp] theorem takenBack_nil (id : ℕ) : takenBack [] id = 0 := rfl

theorem takenBack_cons (l : CreditNoteLine) (ls : List CreditNoteLine) (id : ℕ) :
    takenBack (l :: ls) id = (if l.orderLineId = id then l.quantity else 0) + takenBack ls id := by
  by_cases h : l.orderLineId = id <;> simp [takenBack, h]

theorem takenBack_append (ls ls' : List CreditNoteLine) (id : ℕ) :
    takenBack (ls ++ ls') id = takenBack ls id + takenBack ls' id := by
  simp [takenBack]

theorem takenBack_eq_zero {noteLines : List CreditNoteLine} {id : ℕ}
    (h : ∀ l ∈ noteLines, l.orderLineId ≠ id) : takenBack noteLines id = 0 := by
  have hnone : noteLines.filter (·.orderLineId = id) = [] :=
    List.filter_eq_nil_iff.mpr fun l hl heq => h l hl (of_decide_eq_true heq)
  rw [takenBack, hnone]
  rfl

/-- The map the code keeps holds these counts. -/
theorem refundedSoFar_eq (noteLines : List CreditNoteLine) (id : ℕ) :
    refundedSoFar noteLines id = (takenBack noteLines id : ℚ) := by
  induction noteLines with
  | nil => simp [refundedSoFar]
  | cons l ls ih =>
      rw [takenBack_cons, Nat.cast_add, ← ih]
      by_cases h : l.orderLineId = id <;> simp [refundedSoFar, h]

/-- Every note line takes back units of a line of the order, at that line's price. -/
def Drawn (orderLines : List OrderLine) (noteLines : List CreditNoteLine) : Prop :=
  ∀ l ∈ noteLines, ∃ line ∈ orderLines, line.id = l.orderLineId ∧
    l.unitPriceMinor = line.unitMinor

section Gross

variable {orderLines : List OrderLine} {noteLines : List CreditNoteLine}

/-- A sum that only counts the row with one key. -/
theorem sum_map_key {α : Type} {idOf : α → ℕ} {rows : List α} (hnd : (rows.map idOf).Nodup) {r : α}
    (hr : r ∈ rows) (f : α → ℤ) :
    (rows.map fun x => if idOf r = idOf x then f x else 0).sum = f r := by
  induction rows with
  | nil => simp at hr
  | cons x rows ih =>
      rw [List.map_cons, List.nodup_cons] at hnd
      rw [List.map_cons, List.sum_cons]
      rcases List.mem_cons.mp hr with rfl | hr
      · have hzero : (rows.map fun x => if idOf r = idOf x then f x else 0).sum = 0 := by
          refine List.sum_eq_zero fun a ha => ?_
          obtain ⟨x, hx, rfl⟩ := List.mem_map.mp ha
          exact if_neg fun heq : idOf r = idOf x => hnd.1 (heq ▸ List.mem_map_of_mem hx)
        rw [hzero, if_pos rfl, add_zero]
      · have hne : idOf r ≠ idOf x := fun heq => hnd.1 (heq ▸ List.mem_map_of_mem hr)
        rw [ih hnd.2 hr, if_neg hne, zero_add]

/-- What note lines are worth gross, line by line of the order. -/
theorem gross_eq (hnd : (orderLines.map (·.id)).Nodup) (h : Drawn orderLines noteLines) :
    (noteLines.map (·.grossMinor)).sum =
      (orderLines.map fun line => line.unitMinor * (takenBack noteLines line.id : ℤ)).sum := by
  induction noteLines with
  | nil => simp
  | cons l ls ih =>
      obtain ⟨line, hline, hid, hprice⟩ := h l List.mem_cons_self
      have hrest := ih fun l' hl' => h l' (List.mem_cons_of_mem _ hl')
      have hone := sum_map_key hnd hline fun x => x.unitMinor * (l.quantity : ℤ)
      have hsplit : ∀ x : OrderLine, x.unitMinor * (takenBack (l :: ls) x.id : ℤ) =
          (if line.id = x.id then x.unitMinor * (l.quantity : ℤ) else 0) +
            x.unitMinor * (takenBack ls x.id : ℤ) := by
        intro x
        rw [takenBack_cons, ← hid]
        split <;> push_cast <;> ring
      rw [List.map_cons, List.sum_cons, hrest, List.map_congr_left fun x _ => hsplit x,
        List.sum_map_add, hone, CreditNoteLine.grossMinor, hprice]

/-- Units within the lines are worth no more than the lines. -/
theorem gross_le (hnd : (orderLines.map (·.id)).Nodup) (h : Drawn orderLines noteLines)
    (hprices : ∀ line ∈ orderLines, 0 ≤ line.unitMinor)
    (hunits : ∀ line ∈ orderLines, takenBack noteLines line.id ≤ line.quantity) :
    (noteLines.map (·.grossMinor)).sum ≤ (orderLines.map (·.totalMinor)).sum := by
  rw [gross_eq hnd h]
  refine List.sum_le_sum fun line hline => ?_
  rw [OrderLine.totalMinor, mul_comm]
  exact mul_le_mul_of_nonneg_right (by exact_mod_cast hunits line hline) (hprices line hline)

/-- All the units are worth all the lines. -/
theorem gross_eq_of_all (hnd : (orderLines.map (·.id)).Nodup) (h : Drawn orderLines noteLines)
    (hall : ∀ line ∈ orderLines, takenBack noteLines line.id = line.quantity) :
    (noteLines.map (·.grossMinor)).sum = (orderLines.map (·.totalMinor)).sum := by
  rw [gross_eq hnd h]
  refine congrArg List.sum (List.map_congr_left fun line hline => ?_)
  rw [OrderLine.totalMinor, hall line hline, mul_comm]

theorem gross_nonneg (h : Drawn orderLines noteLines)
    (hprices : ∀ line ∈ orderLines, 0 ≤ line.unitMinor) :
    ∀ l ∈ noteLines, 0 ≤ l.grossMinor := by
  intro l hl
  obtain ⟨line, hline, _, hprice⟩ := h l hl
  rw [CreditNoteLine.grossMinor, hprice]
  exact mul_nonneg (hprices line hline) (Int.natCast_nonneg _)

end Gross

/-! ### Pricing the targets -/

/-- The items of a combo come in no negative number. -/
theorem comboTargets_nonneg {orderLines : List OrderLine} {targets children : List RefundTarget}
    (h : comboTargets orderLines targets = .ok children) (hpos : ∀ t ∈ targets, 0 ≤ t.quantity) :
    ∀ t ∈ children, 0 ≤ t.quantity := by
  induction targets generalizing children with
  | nil =>
      cases h
      simp
  | cons target targets ih =>
      have hrest := fun t ht => hpos t (List.mem_cons_of_mem _ ht)
      rw [comboTargets] at h
      split at h
      · exact ih h hrest
      · rename_i line hline
        split at h
        · cases h
        · cases hr : comboTargets orderLines targets with
          | error e => simp [hr, bind, Except.bind] at h
          | ok rest =>
              simp only [hr, bind, Except.bind] at h
              cases h
              intro t ht
              rcases List.mem_append.mp ht with ht | ht
              · split at ht
                · obtain ⟨child, _, rfl⟩ := List.mem_map.mp ht
                  have := hpos target List.mem_cons_self
                  positivity
                · simp at ht
              · exact ih hr hrest t ht

/-- A refund takes something back, and no negative number of anything. -/
theorem refundTargets_nonneg {orderLines : List OrderLine} {refunded : ℕ → ℚ}
    {dtoLines : Option (List RefundLineDto)} {targets : List RefundTarget}
    (h : refundTargets orderLines refunded dtoLines = .ok targets) :
    targets ≠ [] ∧ ∀ t ∈ targets, 0 ≤ t.quantity := by
  cases dtoLines with
  | none =>
      simp only [refundTargets] at h
      split at h
      · cases h
      · rename_i hne
        cases h
        exact ⟨hne, fun t ht => (of_decide_eq_true (List.mem_filter.mp ht).2).le⟩
  | some dtoLines =>
      have hnamed : ∀ t ∈ dtoLines.map fun l => (⟨l.orderLineId, l.quantity⟩ : RefundTarget),
          0 ≤ t.quantity := by
        intro t ht
        obtain ⟨l, _, rfl⟩ := List.mem_map.mp ht
        exact Nat.cast_nonneg _
      simp only [refundTargets] at h
      split at h
      · cases h
      · rename_i hne
        cases hc : comboTargets orderLines
            (dtoLines.map fun l => (⟨l.orderLineId, l.quantity⟩ : RefundTarget)) with
        | error e => simp [hc, bind, Except.bind] at h
        | ok children =>
            simp only [hc, bind, Except.bind] at h
            cases h
            refine ⟨fun hnil => hne (List.append_eq_nil_iff.mp hnil).1, fun t ht => ?_⟩
            rcases List.mem_append.mp ht with ht | ht
            · exact hnamed t ht
            · exact comboTargets_nonneg hc hnamed t ht

/-- A target that was priced: a line of the bill with that many whole units left. -/
theorem priceTarget_ok {orderLines : List OrderLine} {refunded : ℕ → ℚ} {target : RefundTarget}
    {l : CreditNoteLine} (h : priceTarget orderLines refunded target = .ok l)
    (hpos : 0 ≤ target.quantity) :
    (∃ line ∈ orderLines, line.id = l.orderLineId ∧ l.unitPriceMinor = line.unitMinor ∧
      refunded line.id + l.quantity ≤ line.quantity) ∧
    l.orderLineId = target.orderLineId ∧ (l.quantity : ℚ) = target.quantity ∧
    l.amountMinor = l.grossMinor := by
  rw [priceTarget] at h
  split at h
  · cases h
  · rename_i line hline
    have hid : line.id = target.orderLineId := by simpa using List.find?_some hline
    dsimp only at h
    split at h
    · cases h
    · rename_i hremain
      split at h
      · cases h
      · rename_i hwhole
        cases h
        have hnum : (target.quantity.num : ℚ) = target.quantity :=
          Rat.coe_int_num_of_den_eq_one (not_not.mp hwhole)
        have hnat : ((target.quantity.num.toNat : ℕ) : ℤ) = target.quantity.num :=
          Int.toNat_of_nonneg (Rat.num_nonneg.mpr hpos)
        have hq : ((target.quantity.num.toNat : ℕ) : ℚ) = target.quantity := by
          rw [← Int.cast_natCast, hnat, hnum]
        refine ⟨⟨line, List.mem_of_find?_eq_some hline, hid, rfl, ?_⟩, rfl, hq, ?_⟩
        · rw [hq, hid]
          linarith
        · rw [CreditNoteLine.grossMinor, hnat]

/-- Priced targets stay within the lines, counting every one before the next. -/
theorem priceTargets_ok {orderLines : List OrderLine} (hnd : (orderLines.map (·.id)).Nodup)
    {targets : List RefundTarget} {refunded : ℕ → ℚ} {lines : List CreditNoteLine}
    (h : priceTargets orderLines refunded targets = .ok lines)
    (hpos : ∀ t ∈ targets, 0 ≤ t.quantity) :
    lines.length = targets.length ∧ Drawn orderLines lines ∧
    (∀ l ∈ lines, l.amountMinor = l.grossMinor) ∧
    ∀ line ∈ orderLines, refunded line.id ≤ line.quantity →
      refunded line.id + takenBack lines line.id ≤ line.quantity := by
  induction targets generalizing refunded lines with
  | nil =>
      cases h
      exact ⟨rfl, by simp [Drawn], by simp, fun _ _ hle => by simpa using hle⟩
  | cons target targets ih =>
      rw [priceTargets] at h
      cases hl : priceTarget orderLines refunded target with
      | error e => simp [hl, bind, Except.bind] at h
      | ok l =>
          cases hls : priceTargets orderLines (Function.update refunded target.orderLineId
              (refunded target.orderLineId + target.quantity)) targets with
          | error e => simp [hl, hls, bind, Except.bind] at h
          | ok ls =>
              simp only [hl, hls, bind, Except.bind] at h
              cases h
              obtain ⟨⟨line₀, hline₀, hid₀, hprice, hroom⟩, htarget, hq, hamount⟩ :=
                priceTarget_ok hl (hpos _ List.mem_cons_self)
              obtain ⟨hlength, hdrawn, hamounts, hunits⟩ :=
                ih hls fun t ht => hpos t (List.mem_cons_of_mem _ ht)
              refine ⟨by simp [hlength], ?_, ?_, fun line hline hle => ?_⟩
              · intro l' hl'
                rcases List.mem_cons.mp hl' with rfl | hl'
                · exact ⟨line₀, hline₀, hid₀, hprice⟩
                · exact hdrawn l' hl'
              · intro l' hl'
                rcases List.mem_cons.mp hl' with rfl | hl'
                · exact hamount
                · exact hamounts l' hl'
              · have hrest := hunits line hline
                rw [← htarget, ← hq] at hrest
                rw [takenBack_cons]
                by_cases heq : l.orderLineId = line.id
                · have hsame : line = line₀ :=
                    eq_of_key_eq hnd hline hline₀ (heq.symm.trans hid₀.symm)
                  rw [heq, Function.update_self, hsame] at hrest
                  rw [if_pos heq, Nat.cast_add, ← add_assoc, hsame]
                  exact hrest hroom
                · rw [Function.update_of_ne (Ne.symm heq)] at hrest
                  rw [if_neg heq, zero_add]
                  exact hrest hle

/-! ### Spreading a note over its lines -/

/-- What is left of a note line when its amount is looked away from. -/
def CreditNoteLine.units (l : CreditNoteLine) : ℕ × ℕ × ℤ :=
  (l.orderLineId, l.quantity, l.unitPriceMinor)

section Spreading

variable {subtotalMinor : ℤ} {lines : List CreditNoteLine}

theorem allocateLines_units (subtotalMinor : ℤ) (lines : List CreditNoteLine) :
    (allocateLines subtotalMinor lines).map (·.units) = lines.map (·.units) := by
  have hlength := Proration.apportion_length subtotalMinor (lines.map (·.amountMinor)).sum 0
    (lines.map (·.amountMinor))
  rw [List.length_map] at hlength
  refine List.ext_getElem (by simp [allocateLines, hlength]) fun i _ _ => ?_
  simp [allocateLines, CreditNoteLine.units]

theorem allocateLines_amounts (subtotalMinor : ℤ) (lines : List CreditNoteLine) :
    (allocateLines subtotalMinor lines).map (·.amountMinor) =
      Proration.apportion subtotalMinor (lines.map (·.amountMinor)).sum 0
        (lines.map (·.amountMinor)) := by
  have hlength := Proration.apportion_length subtotalMinor (lines.map (·.amountMinor)).sum 0
    (lines.map (·.amountMinor))
  rw [List.length_map] at hlength
  refine List.ext_getElem (by simp [allocateLines, hlength]) fun i _ _ => ?_
  simp [allocateLines]

theorem takenBack_congr {ls ls' : List CreditNoteLine} (h : ls.map (·.units) = ls'.map (·.units))
    (id : ℕ) : takenBack ls id = takenBack ls' id := by
  have hunits : ∀ ls : List CreditNoteLine, takenBack ls id =
      (((ls.map (·.units)).filter (·.1 = id)).map (·.2.1)).sum := by
    intro ls
    simp [takenBack, List.filter_map, Function.comp_def, CreditNoteLine.units]
  rw [hunits, hunits, h]

theorem gross_congr {ls ls' : List CreditNoteLine} (h : ls.map (·.units) = ls'.map (·.units)) :
    ls.map (·.grossMinor) = ls'.map (·.grossMinor) := by
  have hunits : ∀ ls : List CreditNoteLine, ls.map (·.grossMinor) =
      (ls.map (·.units)).map fun u => u.2.2 * (u.2.1 : ℤ) := by
    intro ls
    simp [Function.comp_def, CreditNoteLine.units, CreditNoteLine.grossMinor]
  rw [hunits, hunits, h]

theorem drawn_congr {orderLines : List OrderLine} {ls ls' : List CreditNoteLine}
    (h : ls.map (·.units) = ls'.map (·.units)) (hdrawn : Drawn orderLines ls) :
    Drawn orderLines ls' := by
  intro l hl
  obtain ⟨l₀, hl₀, heq⟩ : ∃ l₀ ∈ ls, l₀.units = l.units := by
    rw [← List.mem_map, h]
    exact List.mem_map_of_mem hl
  obtain ⟨line, hline, hid, hprice⟩ := hdrawn l₀ hl₀
  simp only [CreditNoteLine.units, Prod.mk.injEq] at heq
  exact ⟨line, hline, hid.trans heq.1, heq.2.2.symm.trans hprice⟩

/-- The lines of a note add up to its subtotal, none of them negative. -/
theorem allocateLines_sum (hne : lines ≠ []) :
    ((allocateLines subtotalMinor lines).map (·.amountMinor)).sum = subtotalMinor := by
  rw [allocateLines_amounts, Proration.apportion_sum _ _ _ (by simpa using hne), sub_zero]

theorem allocateLines_nonneg (hsub : 0 ≤ subtotalMinor) (hamounts : ∀ l ∈ lines, 0 ≤ l.amountMinor) :
    ∀ l ∈ allocateLines subtotalMinor lines, 0 ≤ l.amountMinor := by
  intro l hl
  have hmem := List.mem_map_of_mem (f := (·.amountMinor)) hl
  rw [allocateLines_amounts] at hmem
  refine Proration.apportion_nonneg hsub (fun a ha => ?_) ?_ le_rfl _ hmem
  · obtain ⟨l, hl, rfl⟩ := List.mem_map.mp ha
    exact hamounts l hl
  · rw [sub_self, Proration.share_zero]

end Spreading

/-! ### What the notes hold -/

/-- What the customer is charged for the lines before tax. -/
def Bill.netMinor (b : Bill) : ℤ := b.subtotalMinor - b.discountMinor.getD 0

/-- A settled bill that still says what its lines do. -/
structure Refundable (v : Store) (b : Bill) : Prop where
  bill : v.bill = some b
  finalized : b.status = .finalized
  subtotal : b.subtotalMinor = v.subtotal
  priced : v.Priced
  sound : b.Sound

/-- A note whose lines add up to it. -/
structure CreditNote.Balanced (note : CreditNote) : Prop where
  subtotal_nonneg : 0 ≤ note.subtotalMinor
  tax_nonneg : 0 ≤ note.taxMinor
  lines_nonneg : ∀ l ∈ note.lines, 0 ≤ l.amountMinor
  sum : (note.lines.map (·.amountMinor)).sum = note.subtotalMinor

/-- The notes of a bill, in proportion: no line over its quantity, and the money of
all the notes the share of the bill that their units are worth. -/
structure Conserved (b : Bill) (orderLines : List OrderLine) (notes : List CreditNote) : Prop where
  drawn : Drawn orderLines (notes.flatMap (·.lines))
  units : ∀ line ∈ orderLines, takenBack (notes.flatMap (·.lines)) line.id ≤ line.quantity
  subtotal : (notes.map (·.subtotalMinor)).sum = Proration.share b.netMinor
    ((notes.flatMap (·.lines)).map (·.grossMinor)).sum b.subtotalMinor
  tax : (notes.map (·.taxMinor)).sum = Proration.share b.taxMinor
    ((notes.flatMap (·.lines)).map (·.grossMinor)).sum b.subtotalMinor
  balanced : ∀ note ∈ notes, note.Balanced

theorem Conserved.nil (b : Bill) (orderLines : List OrderLine) : Conserved b orderLines [] where
  drawn := by simp [Drawn]
  units := by simp
  subtotal := by simp
  tax := by simp
  balanced := by simp

section Step

variable {v v' : Store} {b : Bill}

theorem Refundable.live_nodup (h : Refundable v b) : (v.liveLines.map (·.id)).Nodup :=
  h.priced.ids.sublist (List.filter_sublist.map _)

theorem Refundable.unitMinor_nonneg (h : Refundable v b) : ∀ line ∈ v.liveLines, 0 ≤ line.unitMinor :=
  fun line hline => OrderLine.unitMinor_nonneg (h.priced.prices line (List.mem_of_mem_filter hline))

theorem Bill.Sound.net_nonneg (h : b.Sound) : 0 ≤ b.netMinor := sub_nonneg.mpr h.discount_le

theorem Bill.Sound.subtotal_nonneg (h : b.Sound) : 0 ≤ b.subtotalMinor :=
  h.discount_nonneg.trans h.discount_le

/-- What a new note takes brings the notes to the share of all that was taken back:
the cut at zero never cuts. -/
theorem due_eq {total gross gross' subtotal : ℤ} (htotal : 0 ≤ total) (hgross : 0 ≤ gross)
    (hmono : gross ≤ gross') (hsub : 0 ≤ subtotal) :
    max 0 (Proration.share total gross' subtotal - Proration.share total gross subtotal) =
      Proration.share total gross' subtotal - Proration.share total gross subtotal :=
  max_eq_right (sub_nonneg.mpr (Proration.share_mono htotal hgross hmono hsub))

/-- **One refund** keeps the notes in proportion. -/
theorem Conserved.refunded (h : Refundable v b) (hc : Conserved b v.liveLines v.creditNotes)
    {dto : RefundBillDto} {lines : List CreditNoteLine} {note : CreditNote}
    (hr : Refunded dto v v' b lines note) : Conserved b v.liveLines v'.creditNotes := by
  obtain ⟨targets, htargets, hlines⟩ := hr.priced
  obtain ⟨hsome, hpos⟩ := refundTargets_nonneg htargets
  obtain ⟨hlength, hdrawn, hamounts, hunits⟩ := priceTargets_ok h.live_nodup hlines hpos
  have hne : lines ≠ [] := by
    rintro rfl
    exact hsome (List.eq_nil_of_length_eq_zero hlength.symm)
  -- The note's lines take back what the priced ones do.
  have hsame : note.lines.map (·.units) = lines.map (·.units) := by
    rw [hr.lines, allocateLines_units]
  have hgross : (note.lines.map (·.grossMinor)).sum = (lines.map (·.amountMinor)).sum := by
    rw [gross_congr hsame]
    exact congrArg List.sum (List.map_congr_left fun l hl => (hamounts l hl).symm)
  have hgross_nonneg := gross_nonneg hdrawn h.unitMinor_nonneg
  have hprior : 0 ≤ ((v.creditNotes.flatMap (·.lines)).map (·.grossMinor)).sum :=
    List.sum_nonneg fun a ha => by
      obtain ⟨l, hl, rfl⟩ := List.mem_map.mp ha
      exact gross_nonneg hc.drawn h.unitMinor_nonneg l hl
  have hnew : 0 ≤ (lines.map (·.amountMinor)).sum :=
    List.sum_nonneg fun a ha => by
      obtain ⟨l, hl, rfl⟩ := List.mem_map.mp ha
      exact (hamounts l hl).symm ▸ hgross_nonneg l hl
  have hamount := hr.amounts
  simp only [noteAmounts, Prod.mk.injEq, hc.subtotal, hc.tax] at hamount
  rw [← Bill.netMinor, due_eq h.sound.net_nonneg hprior (by omega) h.sound.subtotal_nonneg,
    due_eq h.sound.tax_nonneg hprior (by omega) h.sound.subtotal_nonneg] at hamount
  have hflat : v'.creditNotes.flatMap (·.lines) = v.creditNotes.flatMap (·.lines) ++ note.lines := by
    rw [hr.notes, List.flatMap_append, List.flatMap_singleton]
  have hsub_nonneg : 0 ≤ note.subtotalMinor := by
    rw [hamount.1]
    exact sub_nonneg.mpr (Proration.share_mono h.sound.net_nonneg hprior (by omega)
      h.sound.subtotal_nonneg)
  refine ⟨?_, fun line hline => ?_, ?_, ?_, fun n hn => ?_⟩
  · rw [hflat]
    intro l hl
    rcases List.mem_append.mp hl with hl | hl
    · exact hc.drawn l hl
    · exact drawn_congr hsame.symm hdrawn l hl
  · rw [hflat, takenBack_append, takenBack_congr hsame]
    have hroom := hunits line hline
    rw [refundedSoFar_eq] at hroom
    exact_mod_cast hroom (by exact_mod_cast hc.units line hline)
  · rw [hr.notes, List.map_append, List.sum_append, hc.subtotal, List.map_singleton,
      List.sum_singleton, hamount.1, ← hr.notes, hflat, List.map_append, List.sum_append, hgross]
    omega
  · rw [hr.notes, List.map_append, List.sum_append, hc.tax, List.map_singleton,
      List.sum_singleton, hamount.2, ← hr.notes, hflat, List.map_append, List.sum_append, hgross]
    omega
  · rw [hr.notes] at hn
    rcases List.mem_append.mp hn with hn | hn
    · exact hc.balanced n hn
    · rw [List.mem_singleton.mp hn]
      refine ⟨hsub_nonneg, ?_, ?_, ?_⟩
      · rw [hamount.2]
        exact sub_nonneg.mpr (Proration.share_mono h.sound.tax_nonneg hprior (by omega)
          h.sound.subtotal_nonneg)
      · rw [hr.lines]
        exact allocateLines_nonneg hsub_nonneg fun l hl =>
          (hamounts l hl).symm ▸ hgross_nonneg l hl
      · rw [hr.lines, allocateLines_sum hne]

end Step

/-! ### Sequences of refunds -/

def Op.IsRefund (op : Op) : Prop := ∃ staff dto authorize, op = .refund staff dto authorize

/-- What a sequence of refunds leaves of the store, and what its notes hold. -/
structure RefundedTo (b : Bill) (v v' : Store) : Prop where
  frame : Frame [.creditNotes, .auditEvents] v v'
  conserved : Conserved b v.liveLines v'.creditNotes

theorem Refundable.frame {v v' : Store} {b : Bill} (h : Refundable v b)
    (hframe : Frame [.creditNotes, .auditEvents] v v') :
    Refundable v' b ∧ v'.liveLines = v.liveLines := by
  obtain ⟨hledger, hlines⟩ := hframe.ledger (by decide)
  refine ⟨⟨(congrArg Ledger.bill hledger).trans h.bill, h.finalized, ?_,
    ⟨hlines ▸ h.priced.prices, hlines ▸ h.priced.ids⟩, h.sound⟩, ?_⟩
  · exact h.subtotal.trans (congrArg Ledger.subtotal hledger).symm
  · rw [Store.liveLines, hlines, Store.liveLines]

theorem Refundable.runs {v v' : Store} {b : Bill} (h : Refundable v b) (hnone : v.creditNotes = [])
    (hruns : Runs Op.IsRefund v v') : RefundedTo b v v' := by
  refine hruns.preserves (I := RefundedTo b v) ?_
    ⟨.refl _ v, by rw [hnone]; exact .nil b v.liveLines⟩
  rintro _ v₁ v₂ ⟨staff, dto, authorize, rfl⟩ ⟨hframe, hconserved⟩ hstep
  obtain ⟨h₁, hlive⟩ := h.frame hframe
  have hprog : (Op.prog (.refund staff dto authorize)).commits (fun _ v₂ => RefundedTo b v v₂) v₁ := by
    simp only [Op.prog, Txn.commits, Txn.wlp_void]
    refine Txn.wlp_mono (commits_refund staff dto authorize) fun note v₂ hrefunded => ?_
    obtain ⟨b₁, lines, hr⟩ := hrefunded
    have hsame : b₁ = b := Option.some.inj (hr.bill.symm.trans h₁.bill)
    rw [hsame] at hr
    rw [← hlive] at hconserved
    exact ⟨hframe.trans hr.frame, hlive ▸ hconserved.refunded h₁ hr⟩
  exact hstep.post ⟨hframe, hconserved⟩ hprog

section Totals

variable {v : Store} {b : Bill} {notes : List CreditNote}

theorem Conserved.gross_nonneg (h : Refundable v b) (hc : Conserved b v.liveLines notes) :
    0 ≤ ((notes.flatMap (·.lines)).map (·.grossMinor)).sum :=
  List.sum_nonneg fun a ha => by
    obtain ⟨l, hl, rfl⟩ := List.mem_map.mp ha
    exact RestiqBackend.gross_nonneg hc.drawn h.unitMinor_nonneg l hl

theorem Conserved.gross_le (h : Refundable v b) (hc : Conserved b v.liveLines notes) :
    ((notes.flatMap (·.lines)).map (·.grossMinor)).sum ≤ b.subtotalMinor := by
  rw [h.subtotal]
  exact RestiqBackend.gross_le h.live_nodup hc.drawn h.unitMinor_nonneg hc.units

/-- The notes together never hold more than the bill charged. -/
theorem Conserved.sums_le (h : Refundable v b) (hc : Conserved b v.liveLines notes) :
    (notes.map (·.subtotalMinor)).sum ≤ b.netMinor ∧
      (notes.map (·.taxMinor)).sum ≤ b.taxMinor := by
  rw [hc.subtotal, hc.tax]
  exact ⟨Proration.share_le h.sound.net_nonneg (hc.gross_nonneg h) (hc.gross_le h),
    Proration.share_le h.sound.tax_nonneg (hc.gross_nonneg h) (hc.gross_le h)⟩

/-- With every unit taken back, the notes hold exactly what the bill charged. -/
theorem Conserved.sums_eq (h : Refundable v b) (hc : Conserved b v.liveLines notes)
    (hall : ∀ line ∈ v.liveLines, takenBack (notes.flatMap (·.lines)) line.id = line.quantity) :
    (notes.map (·.subtotalMinor)).sum = b.netMinor ∧
      (notes.map (·.taxMinor)).sum = b.taxMinor := by
  have hgross := gross_eq_of_all h.live_nodup hc.drawn hall
  rw [hc.subtotal, hc.tax, hgross, show (v.liveLines.map OrderLine.totalMinor).sum = b.subtotalMinor
    from h.subtotal.symm]
  by_cases hzero : b.subtotalMinor = 0
  · have hle := h.sound.discount_le
    have hnonneg := h.sound.discount_nonneg
    rw [hzero, Proration.share_zero_whole, Proration.share_zero_whole, h.sound.untaxed hzero,
      Bill.netMinor]
    omega
  · exact ⟨Proration.share_self hzero, Proration.share_self hzero⟩

end Totals

/-- A line that is not on the bill is never taken back. -/
theorem Conserved.units_le {v : Store} {b : Bill} {notes : List CreditNote} (h : Refundable v b)
    (hc : Conserved b v.liveLines notes) :
    ∀ line ∈ v.lines, takenBack (notes.flatMap (·.lines)) line.id ≤ line.quantity := by
  intro line hline
  by_cases hlive : line ∈ v.liveLines
  · exact hc.units line hlive
  · rw [takenBack_eq_zero fun l hl hid => hlive ?_]
    · exact Nat.zero_le _
    · obtain ⟨line', hline', hid', _⟩ := hc.drawn l hl
      have hsame : line' = line := eq_of_key_eq h.priced.ids (List.mem_of_mem_filter hline') hline
        (hid'.trans hid)
      exact hsame ▸ hline'

/-- **Refund conservation.** However a settled bill is refunded: no line is taken back
beyond its quantity, the notes never hold more than was charged before tax and as tax,
every note is the sum of its lines with nothing negative, and when every unit has been
taken back the notes hold exactly what was charged. -/
theorem refunds_conserve {v v' : Store} {b : Bill} (h : Refundable v b)
    (hnone : v.creditNotes = []) (hruns : Runs Op.IsRefund v v') :
    (∀ line ∈ v.lines, takenBack v'.noteLines line.id ≤ line.quantity) ∧
    (v'.creditNotes.map (·.subtotalMinor)).sum ≤ b.subtotalMinor - b.discountMinor.getD 0 ∧
    (v'.creditNotes.map (·.taxMinor)).sum ≤ b.taxMinor ∧
    (∀ note ∈ v'.creditNotes, 0 ≤ note.subtotalMinor ∧ 0 ≤ note.taxMinor ∧
      (∀ l ∈ note.lines, 0 ≤ l.amountMinor) ∧
      (note.lines.map (·.amountMinor)).sum = note.subtotalMinor) ∧
    ((∀ line ∈ v.liveLines, takenBack v'.noteLines line.id = line.quantity) →
      (v'.creditNotes.map (·.subtotalMinor)).sum = b.subtotalMinor - b.discountMinor.getD 0 ∧
      (v'.creditNotes.map (·.taxMinor)).sum = b.taxMinor) := by
  have hc := (h.runs hnone hruns).conserved
  obtain ⟨hsub, htax⟩ := hc.sums_le h
  refine ⟨hc.units_le h, hsub, htax, fun note hnote => ?_, hc.sums_eq h⟩
  obtain ⟨hsub, htax, hlines, hsum⟩ := hc.balanced note hnote
  exact ⟨hsub, htax, hlines, hsum⟩

/-! ### Bills that were settled -/

namespace Ledger

/-- The bill's columns were computed, and while it is open it is not discounted. -/
def Computed (L : Ledger) : Prop :=
  ∀ b, L.bill = some b → b.Sound ∧ (b.status = .open → b.discountMinor = none)

theorem Move.computed {e : Entry} {L L' : Ledger} (h : L.Move e L') (hwf : L.Wf)
    (hL : L.Computed) : L'.Computed := by
  intro b' hb'
  cases h with
  | create _ b hnone hopen hdisc hincl hsound =>
      rw [← Option.some.inj hb']
      exact ⟨hsound hwf.subtotal_nonneg, fun _ => hdisc⟩
  | refresh _ b hb =>
      obtain ⟨hsound, hnone⟩ := hL b hb
      rw [← Option.some.inj hb', Bill.refreshed_status, Bill.refreshed_discountMinor]
      refine ⟨?_, hnone⟩
      by_cases hself : b.status ≠ .open ∨ b.InTune L.subtotal L.profile
      · rw [Bill.refreshed_eq_self hself]
        exact hsound
      · obtain ⟨hopen, htune⟩ := not_or.mp hself
        rw [Bill.refreshed_eq_withTotals (not_not.mp hopen) htune]
        exact .of_priced L.profile hwf.subtotal_nonneg rfl (hnone (not_not.mp hopen))
  | settle _ b b'' tenders intents shares hb hsettles =>
      rw [← Option.some.inj hb']
      refine ⟨hsettles.sound (hL b hb).1, fun hopen => ?_⟩
      rw [hsettles.finalized] at hopen
      cases hopen
  | _ => exact hL b' hb'

end Ledger

/-- Whatever a bill went through, its columns are sound: so what the notes are held to
is what its finalizing computed. -/
theorem Store.Reachable.sound {v : Store} (h : v.Reachable) {b : Bill} (hb : v.bill = some b) :
    b.Sound := by
  obtain ⟨v₀, hplaced, hruns⟩ := h
  refine ((hruns.ledger_preserves (I := Ledger.Computed)
    (fun _ _ _ _ _ _ hwf h hm => hm.computed hwf h) hplaced.priced hplaced.wf ?_).2.2 b hb).1
  intro b hb
  simp [Store.ledger, hplaced.bill] at hb

theorem Store.Reachable.refundable {v : Store} (h : v.Reachable) {b : Bill} (hb : v.bill = some b)
    (hfin : b.status = .finalized) (hsub : b.subtotalMinor = v.subtotal) : Refundable v b :=
  ⟨hb, hfin, hsub, h.books.1, h.sound hb⟩

/-- One unit of the first line, and then all that is left. -/
def sampleRefunds : List (Op × (ℕ → Env)) :=
  let refund (lines : Option (List RefundLineDto)) (h : lines ≠ some []) : Op :=
    .refund sampleStaff ⟨some "1234", "cold", lines, none, h⟩ (.ok ⟨1, "cold"⟩)
  [(refund (some [⟨1, 1, le_rfl⟩]) (by simp), ticking 300), (refund none (by simp), ticking 400)]

/-- The sample order taxed at five per cent; it is settled in cash with ten rupees off. -/
def sampleTaxed : Store :=
  { sampleOrder with taxRegistration := some ⟨"", false, true, some 500, .exactTotal⟩ }

theorem one_le_sampleDiscount : ∀ d ∈ some (1000 : ℤ), 1 ≤ d := by simp

def sampleDiscount : FinalizeBillDto :=
  { settleDto [cashTender 24200 (by decide)] with
    discountMinor := some 1000, discountReason := some "regular"
    one_le_discountMinor := one_le_sampleDiscount }

def sampleDiscounted : Store :=
  sampleTaxed.after [(.createBill sampleStaff "", ticking 100),
    (.finalize sampleStaff sampleDiscount (.error internalError), ticking 200)]

theorem sampleDiscounted_reachable : sampleDiscounted.Reachable :=
  ⟨sampleTaxed, ⟨⟨by decide, by decide⟩, rfl, rfl, rfl, rfl, rfl⟩, .of_after rfl fun _ _ => trivial⟩

/-- What does not divide evenly is made up for by the second note. -/
theorem refunds_conserve_sample :
    ∃ b v', sampleDiscounted.bill = some b ∧ Runs Op.IsRefund sampleDiscounted v' ∧
      v'.creditNotes.map (fun note => (note.subtotalMinor, note.taxMinor)) =
        [(13417, 670), (9629, 482)] ∧
      (v'.creditNotes.map (·.subtotalMinor)).sum = b.subtotalMinor - b.discountMinor.getD 0 ∧
      (v'.creditNotes.map (·.taxMinor)).sum = b.taxMinor := by
  have hruns : Runs Op.IsRefund sampleDiscounted (sampleDiscounted.after sampleRefunds) :=
    .of_after (by decide +kernel) (by simp [sampleRefunds, Op.IsRefund])
  have h := refunds_conserve (sampleDiscounted_reachable.refundable rfl rfl rfl) rfl hruns
  exact ⟨_, _, rfl, hruns, by decide +kernel, h.2.2.2.2 (by decide +kernel)⟩

end RestiqBackend
