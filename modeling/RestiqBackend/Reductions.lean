import RestiqBackend.IntentExclusion
import RestiqBackend.ReadCommitted.Follow

/-!
Line changes against payments.

A change that makes the order cheaper looks for money on its bill under the bill's lock, and
whoever takes money holds that lock too: from the look to the commit nothing is paid. What the
guard is not asked for, or finds no bill to lock for, is only as good as what was read of the
line and of the bill. So a line operation that never held the lock is followed here through the
runs in which the others leave both alone while it runs.
-/

namespace RestiqBackend

open ReadCommitted

/-! ### Writes that pay -/

/-- A write that adds a tender, an intent or a paid share, or makes an intent active. -/
def Write.pays : Write → Bool
  | .createTender _ | .createIntent _ | .payShare .. => true
  | .updateIntent _ status _ _ => status.isActive
  | .createShare share => share.status = .paid || share.paidAt.isSome
  | _ => false

theorem pays_of_table {w : Write} (htenders : w.table ≠ .tenders)
    (hintents : w.table ≠ .paymentIntents) (hshares : w.table ≠ .billShares) : w.pays = false := by
  cases w <;> first | rfl | exact absurd rfl htenders | exact absurd rfl hintents |
    exact absurd rfl hshares

/-- A share that money was taken for. -/
def BillShare.isPaid (s : BillShare) : Bool := s.status = .paid || s.paidAt.isSome

theorem paymentCount_eq_zero {s : Store} : s.paymentCount = 0 ↔
    s.tenders = [] ∧ (∀ i ∈ s.intents, i.isActive = false) ∧ ∀ x ∈ s.shares, x.isPaid = false := by
  have hactive : s.activeIntents.length = 0 ↔ ∀ i ∈ s.intents, i.isActive = false := by
    rw [Store.activeIntents, List.length_eq_zero_iff, List.filter_eq_nil_iff]
    simp only [Bool.not_eq_true]
  have hpaid : (s.shares.filter fun sh => sh.status = .paid || sh.paidAt.isSome).length = 0 ↔
      ∀ x ∈ s.shares, x.isPaid = false := by
    rw [List.length_eq_zero_iff, List.filter_eq_nil_iff]
    simp only [Bool.not_eq_true]
    rfl
  rw [Store.paymentCount, ← hactive, ← hpaid, ← List.length_eq_zero_iff]
  omega

/-- Without such a write nothing is paid that was not. -/
theorem unpaid_apply {w : Write} (h : w.pays = false) {s : Store} (hs : s.paymentCount = 0) :
    (s.apply w).paymentCount = 0 := by
  rw [paymentCount_eq_zero] at hs ⊢
  obtain ⟨htenders, hintents, hshares⟩ := hs
  cases w
  case createTender => cases h
  case createIntent => cases h
  case payShare => cases h
  case updateIntent id status reason at_ =>
    refine ⟨htenders, fun i hi => ?_, hshares⟩
    rcases mem_updateRows.mp hi with ⟨hi, _⟩ | ⟨i₀, _, _, rfl⟩
    · exact hintents i hi
    · exact h
  case flagIntent id reason =>
    refine ⟨htenders, fun i hi => ?_, hshares⟩
    rcases mem_updateRows.mp hi with ⟨hi, _⟩ | ⟨i₀, hi₀, _, rfl⟩
    · exact hintents i hi
    · exact hintents i₀ hi₀
  case createShare share =>
    refine ⟨htenders, hintents, fun x hx => ?_⟩
    rcases List.mem_append.mp hx with hx | hx
    · exact hshares x hx
    · exact List.mem_singleton.mp hx ▸ h
  case updateShareAmount id amountMinor =>
    refine ⟨htenders, hintents, fun x hx => ?_⟩
    rcases mem_updateRows.mp hx with ⟨hx, _⟩ | ⟨x₀, hx₀, _, rfl⟩
    · exact hshares x hx
    · exact hshares x₀ hx₀
  all_goals exact ⟨htenders, hintents, hshares⟩

theorem unpaid_applyAll {ws : List Write} (h : ∀ w ∈ ws, w.pays = false) {s : Store}
    (hs : s.paymentCount = 0) : (applyAll ws s).paymentCount = 0 := by
  induction ws generalizing s with
  | nil => exact hs
  | cons w ws ih =>
      exact ih (fun w hw => h w (List.mem_cons_of_mem _ hw))
        (unpaid_apply (h w List.mem_cons_self) hs)

/-! ### Writes that keep prices -/

/-- A write that puts no negative price on a line. -/
def Write.priced : Write → Prop
  | .createLine line => line.Priced
  | .createLineModifier _ m => 0 ≤ m.priceMinor
  | _ => True

theorem priced_of_table {w : Write} (h : w.table ≠ .orderLines) : w.priced := by
  cases w <;> trivial

/-- No line has a negative price. -/
def Store.LinesPriced (s : Store) : Prop := ∀ l ∈ s.lines, l.Priced

theorem priced_apply {w : Write} (h : w.priced) {s : Store} (hs : s.LinesPriced) :
    (s.apply w).LinesPriced := by
  intro l hl
  cases w
  case createLine line =>
    rcases List.mem_append.mp hl with hl | hl
    · exact hs l hl
    · exact List.mem_singleton.mp hl ▸ h
  case updateLineQuantity id quantity =>
    rcases mem_updateRows.mp hl with ⟨hl, _⟩ | ⟨l₀, hl₀, _, rfl⟩
    · exact hs l hl
    · exact hs l₀ hl₀
  case updateLineSeat id seat =>
    rcases mem_updateRows.mp hl with ⟨hl, _⟩ | ⟨l₀, hl₀, _, rfl⟩
    · exact hs l hl
    · exact hs l₀ hl₀
  case deleteLineModifiers id =>
    rcases mem_updateRows.mp hl with ⟨hl, _⟩ | ⟨l₀, hl₀, _, rfl⟩
    · exact hs l hl
    · exact ⟨(hs l₀ hl₀).1, fun m hm => absurd hm List.not_mem_nil⟩
  case createLineModifier id m =>
    rcases mem_updateRows.mp hl with ⟨hl, _⟩ | ⟨l₀, hl₀, _, rfl⟩
    · exact hs l hl
    · refine ⟨(hs l₀ hl₀).1, fun m' hm' => ?_⟩
      rcases List.mem_append.mp hm' with hm' | hm'
      · exact (hs l₀ hl₀).2 m' hm'
      · exact List.mem_singleton.mp hm' ▸ h
  case deleteLine id => exact hs l (List.mem_of_mem_filter hl)
  case voidLines ids at_ =>
    obtain ⟨l₀, hl₀, rfl⟩ := List.mem_map.mp hl
    split
    · exact hs l₀ hl₀
    · exact hs l₀ hl₀
  all_goals exact hs l hl

theorem priced_applyAll {ws : List Write} (h : ∀ w ∈ ws, w.priced) {s : Store}
    (hs : s.LinesPriced) : (applyAll ws s).LinesPriced := by
  induction ws generalizing s with
  | nil => exact hs
  | cons w ws ih =>
      exact ih (fun w hw => h w (List.mem_cons_of_mem _ hw))
        (priced_apply (h w List.mem_cons_self) hs)

/-! ### What every request writes -/

/-- No request deletes the bill. -/
theorem Op.undeleted (op : Op) : op.prog.Emits (Writing fun w => w.deletesBill = false) := by
  let status : Option OrderStatus := match op.role with
    | .settles => some .closed
    | .sends => some .sent
    | _ => none
  have hconfined : op.prog.Emits (Writing (Confined (fun w => !w.deletesBill) status)) := by
    refine op.confined (fun _ w hw => ?_) (fun hrole => ⟨?_, fun w hw => ?_⟩) fun hrole => ?_
    · cases w <;> first | rfl | simp [Write.opensBill] at hw
    · simp only [status, hrole]
    · cases w <;> first | rfl | simp [Write.settles] at hw
    · simp only [status, hrole]
  refine hconfined.mono fun l hl w hw => ?_
  have hw := (hl w hw).1
  cases w <;> first | rfl | exact absurd (hw rfl) (by decide)

theorem createModifiers_priced {lineId : ℕ} {modifiers : List OrderLineModifier}
    (h : ∀ m ∈ modifiers, 0 ≤ m.priceMinor) :
    (Txn.forEach (fun m => Txn.exec (fun _ => []) fun _ => [.createLineModifier lineId m])
      modifiers : Tx Unit).Emits (Writing Write.priced) :=
  .forEach fun m hm => writing_exec fun _ => List.forall_mem_singleton.mpr (h m hm)

theorem createLine_priced {line : OrderLine} {modifiers : List OrderLineModifier}
    (hline : line.Priced) (hmodifiers : ∀ m ∈ modifiers, 0 ≤ m.priceMinor) :
    (createLine line modifiers).Emits (Writing Write.priced) :=
  (writing_closed _).bind (writing_insertRow hline) fun _ => createModifiers_priced hmodifiers

theorem writing_whenGiven {A : Write → Prop} {β : Type} {x : Option β} {f : β → Tx Unit}
    (h : ∀ b ∈ x, (f b).Emits (Writing A)) : (whenGiven x f).Emits (Writing A) := by
  cases x with
  | some b => exact h b rfl
  | none => trivial

/-- Changing the row of a line: no price is written. -/
theorem changeLine_priced {lineId : ℕ} {w : Write} (h : w.priced) :
    (do
      let updated ← Txn.writeWhen (fun v => v.lines.any (·.id = lineId)) [.line lineId] [w]
      if updated then pure () else Txn.throw internalError : Tx Unit).Emits
        (Writing Write.priced) :=
  (writing_closed _).bind (writing_writeWhen (List.forall_mem_singleton.mpr h)) fun _ =>
    .ite trivial trivial

/-- No request puts a negative price on a line. -/
theorem Op.pricing (op : Op) : op.prog.Emits (Writing Write.priced) := by
  have hΦ := writing_closed Write.priced
  have htables : ∀ {ts : List Table}, .orderLines ∉ ts → ∀ {α : Type} {p : Tx α},
      p.Emits (Touching ts) → p.Emits (Writing Write.priced) := fun hts _ _ hp =>
    writing_of_touching (fun w hw => priced_of_table fun htable => hts (htable ▸ hw)) hp
  have hreads : ∀ {α : Type} {p : Tx α}, p.Emits (Touching []) → p.Emits (Writing Write.priced) :=
    htables List.not_mem_nil
  cases op with
  | addLine staff name dto menu =>
      exact hΦ.bind (hreads (loadOpenOrder_emits ..)) fun _ => hΦ.bind (hreads (emits_ofExcept _))
        fun item => hΦ.bind (hreads emits_uuid) fun _ =>
        createLine_priced ⟨Int.natCast_nonneg _, by simp⟩ item.modifierRows_nonneg
  | addCombo staff name dto menu =>
      refine hΦ.bind (hreads (loadOpenOrder_emits ..)) fun _ => hΦ.bind (hreads (emits_ofExcept _))
        fun selection => hΦ.bind (hreads emits_uuid) fun _ =>
        hΦ.bind (createLine_priced ⟨Int.natCast_nonneg _, by simp⟩ (by simp)) fun _ => ?_
      exact hΦ.forEach fun child _ => hΦ.bind (hreads emits_uuid) fun _ =>
        createLine_priced ⟨Int.natCast_nonneg _, by simp⟩ child.item.modifierRows_nonneg
  | updateLine staff name lineId dto =>
      refine hΦ.bind (hreads (loadOpenOrder_emits ..)) fun _ =>
        hΦ.bind (hreads (loadOrderLine_emits lineId)) fun line =>
        hΦ.bind (hreads (assertNotComboLine_emits ..)) fun _ =>
        hΦ.bind (hreads (assertLineNotSent_emits line)) fun _ =>
        hΦ.bind (hreads (assertReduction_emits _)) fun _ =>
        hΦ.bind (writing_whenGiven fun _ _ => changeLine_priced trivial) fun _ =>
        hΦ.bind (writing_whenGiven fun _ _ => changeLine_priced trivial) fun _ =>
        writing_whenGiven fun menu hmenu => ?_
      cases menu with
      | error e => exact hΦ.fail e
      | ok modifiers =>
          show (replaceModifiers lineId modifiers).Emits _
          refine hΦ.bind (hreads (emits_query _)) fun _ =>
            hΦ.bind (hreads (assertReduction_emits _)) fun _ =>
            hΦ.bind (writing_exec fun _ => List.forall_mem_singleton.mpr trivial) fun _ => ?_
          exact createModifiers_priced (dto.modifiers_nonneg _ hmenu modifiers rfl)
  | removeLine staff name lineId =>
      exact hΦ.bind (hreads (loadOpenOrder_emits ..)) fun _ =>
        hΦ.bind (hreads (loadOrderLine_emits lineId)) fun line =>
        hΦ.bind (hreads (assertNotComboLine_emits ..)) fun _ =>
        hΦ.bind (hreads (assertLineNotSent_emits line)) fun _ =>
        hΦ.bind (hreads assertBillHasNoPayments_emits) fun _ => changeLine_priced trivial
  | voidLine staff name lineId authorize =>
      exact hΦ.bind (hreads (loadOpenOrder_emits ..)) fun _ =>
        hΦ.bind (hreads (loadOrderLine_emits lineId)) fun line =>
        hΦ.bind (hreads (emits_raiseIf ..)) fun _ =>
        hΦ.bind (hreads (lineAndChildIds_emits line)) fun _ =>
        hΦ.bind (hreads (emits_query _)) fun _ => hΦ.bind (hreads (emits_raiseIf ..)) fun _ =>
        hΦ.bind (hreads assertBillHasNoPayments_emits) fun _ =>
        hΦ.bind (hreads (emits_ofExcept _)) fun _ => hΦ.bind (hreads emits_clock) fun _ =>
        hΦ.bind (writing_exec fun _ => List.forall_mem_singleton.mpr trivial) fun _ =>
        hΦ.bind (writing_exec fun _ => List.forall_mem_singleton.mpr trivial) fun _ =>
        htables (by decide) (recordApproval_emits ..)
  | _ => exact htables (by simp [Op.tables, settlementTables, guestPaymentTables]) (Op.emits _)

/-- The requests that take money on a bill. They name it, or an intent on it. -/
def Op.takesMoney : Op → Bool
  | .finalize .. | .createIntent _ | .simulate .. | .payShare .. | .payAll .. => true
  | _ => false

theorem updateIntentWhere_unpaying (id : ℕ) (guard : PaymentIntentStatus → Bool)
    {status : PaymentIntentStatus} (hstatus : status.isActive = false) (reason : Option String)
    (at_ : Option ℤ) :
    (updateIntentWhere id guard status reason at_).Emits (Writing fun w => w.pays = false) :=
  writing_writeWhen (List.forall_mem_singleton.mpr hstatus)

theorem unpaying_of_reads {α : Type} {p : Tx α} (hp : p.Emits (Touching [])) :
    p.Emits (Writing fun w => w.pays = false) :=
  writing_of_touching (fun _ hw => absurd hw List.not_mem_nil) hp

theorem expireIfDue_unpaying (row : IntentRow) :
    (expireIfDue row).Emits (Writing fun w => w.pays = false) :=
  have hΦ := writing_closed fun w => w.pays = false
  hΦ.bind (unpaying_of_reads emits_clock) fun _ => hΦ.ite (hΦ.done _)
    (hΦ.bind (updateIntentWhere_unpaying _ _ rfl _ _) fun _ =>
      unpaying_of_reads (findIntent_emits _))

theorem syncShares_unpaying (bill : BillWithTenders) :
    (syncShares bill).Emits (Writing fun w => w.pays = false) := by
  have hΦ := writing_closed fun w => w.pays = false
  have hcreate : ∀ weights shares,
      (createMissingShares weights shares).Emits (Writing fun w => w.pays = false) := by
    intro weights
    induction weights with
    | nil => exact fun _ => hΦ.done _
    | cons weight weights ih =>
        exact fun shares => hΦ.ite (ih shares) (hΦ.bind (unpaying_of_reads emits_uuid) fun _ =>
          hΦ.bind (unpaying_of_reads emits_clock) fun _ => hΦ.bind (writing_insertRow rfl)
          fun _ => ih _)
  refine hΦ.ite (hΦ.done ()) (hΦ.bind (unpaying_of_reads (emits_query _)) fun _ =>
    hΦ.bind (unpaying_of_reads (emits_query _)) fun _ => hΦ.bind (hcreate _ _) fun _ =>
    hΦ.bind (unpaying_of_reads (emits_raiseIf ..)) fun _ => hΦ.forEach fun s _ => ?_)
  exact hΦ.ite (hΦ.done ()) (hΦ.bind (writing_writeWhen (List.forall_mem_singleton.mpr rfl))
    fun _ => hΦ.ite (hΦ.done ()) (hΦ.fail _))

/-- The other requests add no money. -/
theorem Op.unpaying (op : Op) (h : op.takesMoney = false) :
    op.prog.Emits (Writing fun w => w.pays = false) := by
  have hΦ := writing_closed fun w => w.pays = false
  have htables : ∀ {ts : List Table}, (∀ t ∈ ts, t ≠ .tenders ∧ t ≠ .paymentIntents ∧
      t ≠ .billShares) → ∀ {α : Type} {p : Tx α}, p.Emits (Touching ts) →
      p.Emits (Writing fun w => w.pays = false) := fun hts _ _ hp =>
    writing_of_touching (fun w hw => pays_of_table (hts _ hw).1 (hts _ hw).2.1 (hts _ hw).2.2) hp
  have hreads : ∀ {α : Type} {p : Tx α}, p.Emits (Touching []) →
      p.Emits (Writing fun w => w.pays = false) := unpaying_of_reads
  have hbills : ∀ {α : Type} {p : Tx α}, p.Emits (Touching [.bills]) →
      p.Emits (Writing fun w => w.pays = false) := htables (by decide)
  cases op with
  | finalize => cases h
  | createIntent => cases h
  | simulate => cases h
  | payShare => cases h
  | payAll => cases h
  | getIntent id =>
      exact hΦ.void (hΦ.bind (hreads (loadIntent_emits id)) fun row => expireIfDue_unpaying row)
  | cancelIntent id =>
      exact hΦ.void (hΦ.bind (hreads (loadIntent_emits id)) fun row =>
        hΦ.bind (expireIfDue_unpaying row) fun row => hΦ.bind (hreads (emits_raiseIf ..)) fun _ =>
        hΦ.ite (hΦ.done _) (hΦ.bind (updateIntentWhere_unpaying _ _ rfl _ _) fun _ =>
          hreads (findIntent_emits id)))
  | listPending staff outletId deviceId =>
      have hsweep : sweepDueIntents.Emits (Writing fun w => w.pays = false) :=
        hΦ.bind (hreads emits_clock) fun _ => hΦ.bind (hreads (emits_query _)) fun due =>
          hΦ.forEach fun id _ => hΦ.bind (updateIntentWhere_unpaying _ _ rfl _ _) fun _ =>
            hΦ.done ()
      exact hΦ.void (hΦ.bind (hreads (emits_raiseIf ..)) fun _ =>
        hΦ.bind (hreads (emits_query _)) fun own => hΦ.bind (hΦ.ite hsweep (hΦ.done ())) fun _ =>
        hΦ.bind (hreads (queueFor_emits ..)) fun _ => hreads (emits_query _))
  | guestCreateBill guest =>
      exact hΦ.void (hΦ.bind (hreads (assertSessionActive_emits guest)) fun _ =>
        hΦ.bind (hreads (loadOrderForSession_emits guest)) fun _ =>
        hΦ.bind (hbills (createOrGetBillRecord_emits _)) fun _ =>
        hΦ.bind (syncShares_unpaying _) fun _ => hΦ.bind (hreads (guestView_emits _)) fun _ =>
        hΦ.done _)
  | guestGetBill guest =>
      exact hΦ.void (hΦ.bind (hreads (loadOrderForSession_emits guest)) fun _ =>
        hΦ.bind (hreads (emits_query _)) fun _ => hΦ.bind (hreads (emits_raiseIf ..)) fun _ =>
        hΦ.bind (hreads loadBill_emits) fun _ =>
        hΦ.bind (hbills (refreshOpenBillTotals_emits _)) fun _ =>
        hΦ.bind (syncShares_unpaying _) fun _ => hreads (guestView_emits _))
  | _ => exact htables (by simp [Op.tables]) (Op.emits _)

/-! ### The discipline -/

/-- No price is negative, and where there is no bill nothing is paid. -/
structure Store.InOrder (s : Store) : Prop where
  priced : s.LinesPriced
  unbilled : s.bill = none → s.paymentCount = 0

/-- A bill stays, and who does not hold its lock pays nothing on a bill that is unpaid. -/
def reductionDiscipline : Discipline Store Key Read Write where
  inv s := s.InOrder
  guar s s' := s.bill.isSome = true → s'.bill.isSome = true
  keeps k s s' := k = .bill → s.paymentCount = 0 → s'.paymentCount = 0
  heeds _ _ _ := True
  admits _ _ _ := True
  lands _ _ := True
  ends _ _ := True
  guar_refl _ h := h
  guar_trans _ _ _ h h' hs := h' (h hs)
  keeps_refl _ _ _ h := h
  keeps_trans _ _ _ _ h h' hk hs := h' hk (h hk hs)
  heeds_refl _ _ := trivial
  heeds_trans _ _ _ _ _ _ := trivial

/-- Nothing is written yet about a bill that is there. -/
structure Untouched (l : TxFootprint) (s : Store) : Prop where
  bill : s.bill.isSome = true
  writes : l.writes = []

/-- The lock is held on a bill that is there. -/
structure HoldsBill (l : TxFootprint) (s : Store) : Prop where
  bill : s.bill.isSome = true
  lock : Key.bill ∈ l.locks

/-- Whoever pays holds the lock of a bill that is there. -/
def PaysLocked (l : TxFootprint) (s : Store) : Prop :=
  (∃ w ∈ l.writes, w.pays = true) → HoldsBill l s

section Discipline

variable {l : TxFootprint} {s : Store} {α : Type} {p : Tx α}

theorem untouched_stable : reductionDiscipline.Stable Untouched :=
  fun _ _ _ hrely h => ⟨hrely.guar h.bill, h.writes⟩

theorem holdsBill_stable : reductionDiscipline.Stable HoldsBill :=
  fun _ _ _ hrely h => ⟨hrely.guar h.bill, h.lock⟩

theorem paysLocked_stable : reductionDiscipline.Stable PaysLocked :=
  fun l s s' hrely h hpays => holdsBill_stable l s s' hrely (h hpays)

/-- From the lock on, anything may be written. -/
theorem carries_holdsBill (p : Tx α) : p.Carries reductionDiscipline HoldsBill :=
  (emits_any p).carries holdsBill_stable fun _ _ _ _ h =>
    ⟨h.bill, List.mem_append_left _ h.lock⟩

theorem carries_untouched (hp : p.Emits (Touching [])) :
    p.Carries reductionDiscipline Untouched :=
  hp.carries untouched_stable fun l l' s hreads h => by
    have hnone : l'.writes = [] :=
      List.eq_nil_iff_forall_not_mem.mpr fun w hw => List.not_mem_nil (hreads w hw)
    exact ⟨h.bill, by rw [Footprint.add_writes, h.writes, hnone, List.append_nil]⟩

theorem lockBill_holds (h : Untouched l s) :
    lockBill.wp reductionDiscipline (fun _ => HoldsBill) l s := by
  refine Txn.wp_stmt untouched_stable h fun env s h _ => Txn.wp_done holdsBill_stable ?_
  refine ⟨h.bill, List.mem_append_right _ ?_⟩
  rw [h.writes]
  simp only [applyAll_nil, h.bill, if_true]
  exact List.mem_singleton_self _

/-- A request that takes the lock before anything else. -/
theorem locks_first {β : Type} {q : Tx α} {g : α → Unit → Tx β} (hq : q.Emits (Touching []))
    (h : Untouched l s) :
    (q >>= fun a => lockBill >>= g a).wp reductionDiscipline (fun _ => HoldsBill) l s :=
  Txn.wp_seq (carries_untouched hq l s h) fun _ _ _ h =>
    Txn.wp_seq (lockBill_holds h) fun _ _ _ h => carries_holdsBill _ _ _ h

theorem preparePayment_holds (guest : GuestPrincipal) (h : Untouched l s) :
    (preparePayment guest).wp reductionDiscipline (fun _ => HoldsBill) l s :=
  locks_first ((emits_query _).bind fun _ => emits_raiseIf ..) h

theorem paysLocked_of_holds (h : p.wp reductionDiscipline (fun _ => HoldsBill) l s) :
    p.wp reductionDiscipline (fun _ => PaysLocked) l s :=
  Txn.wp_mono h fun _ _ _ h _ => h

theorem void_paysLocked (h : p.wp reductionDiscipline (fun _ => PaysLocked) l s) :
    p.void.wp reductionDiscipline (fun _ => PaysLocked) l s :=
  Txn.wp_seq h fun _ _ _ h => Txn.wp_done paysLocked_stable h

/-- What pays nothing has nothing to lock for. -/
theorem paysLocked_of_unpaying (hp : p.Emits (Writing fun w => w.pays = false)) :
    p.wp reductionDiscipline (fun _ => PaysLocked) .empty s := by
  have hwp := (leaves_writing hp).wp
    ((emits_any p).wp (Discipline.Stable.const (D := reductionDiscipline) True)
      (fun _ _ _ _ h => h) (s := s) trivial)
  refine Txn.wp_mono hwp fun _ l s h hpays => ?_
  obtain ⟨w, hw, hpays⟩ := hpays
  exact absurd ((h.2 w hw).symm.trans hpays) Bool.false_ne_true

theorem confirmIntent_paysLocked (id : ℕ) (h : Untouched l s) :
    (confirmIntent id).wp reductionDiscipline (fun _ => PaysLocked) l s :=
  paysLocked_of_holds (locks_first (findIntent_emits id) h)

theorem simulate_paysLocked (id : ℕ) (outcome : SimulatedOutcome) (h : Untouched .empty s) :
    (simulate id outcome).wp reductionDiscipline (fun _ => PaysLocked) .empty s := by
  have hΦ := writing_closed fun w => w.pays = false
  cases outcome with
  | success =>
      refine Txn.wp_seq (carries_untouched (loadIntent_emits id) _ s h) fun row l s h => ?_
      refine Txn.wp_seq (carries_untouched (emits_query _) l s h) fun simulator l s h => ?_
      refine wp_raiseIf fun _ => ?_
      have hdone : PaysLocked l s := fun ⟨w, hw, _⟩ => by
        rw [h.writes] at hw
        exact absurd hw List.not_mem_nil
      dsimp only
      split
      · exact Txn.wp_done paysLocked_stable hdone
      · split
        · trivial
        · exact confirmIntent_paysLocked id h
  | failure =>
      refine paysLocked_of_unpaying (hΦ.bind (unpaying_of_reads (loadIntent_emits id)) fun row =>
        hΦ.bind (unpaying_of_reads (emits_query _)) fun _ =>
        hΦ.bind (unpaying_of_reads (emits_raiseIf ..)) fun _ =>
        hΦ.bind (expireIfDue_unpaying row) fun current => ?_)
      exact hΦ.ite (hΦ.done _) (hΦ.ite (hΦ.fail _) (hΦ.bind (updateIntentWhere_unpaying _ _ rfl _ _)
        fun _ => unpaying_of_reads (findIntent_emits id)))

/-- Every request that is begun on a bill that is there locks it before it pays. -/
theorem Op.paysLocked (op : Op) (hbill : op.takesMoney = true → s.bill.isSome = true) :
    op.prog.wp reductionDiscipline (fun _ => PaysLocked) .empty s := by
  cases hmoney : op.takesMoney with
  | false => exact paysLocked_of_unpaying (op.unpaying hmoney)
  | true =>
      have h : Untouched .empty s := ⟨hbill hmoney, rfl⟩
      cases op with
      | finalize staff dto authorize =>
          exact void_paysLocked (paysLocked_of_holds (locks_first (emits_raiseIf ..) h))
      | createIntent dto =>
          refine void_paysLocked (paysLocked_of_holds ?_)
          exact Txn.wp_seq (carries_untouched (emits_query _) _ s h) fun _ _ _ h =>
            locks_first (emits_raiseIf ..) h
      | simulate id outcome => exact void_paysLocked (simulate_paysLocked id outcome h)
      | payShare guest guestId dto =>
          exact void_paysLocked (paysLocked_of_holds (Txn.wp_seq (preparePayment_holds guest h)
            fun _ _ _ h => carries_holdsBill _ _ _ h))
      | payAll guest dto =>
          exact void_paysLocked (paysLocked_of_holds (Txn.wp_seq (preparePayment_holds guest h)
            fun _ _ _ h => carries_holdsBill _ _ _ h))
      | _ => cases hmoney

/-- What a request may commit. -/
theorem paysLocked_keeps (hs : s.InOrder) (hpays : PaysLocked l s)
    (hundeleted : Writing (fun w => w.deletesBill = false) l) (hpriced : Writing Write.priced l) :
    reductionDiscipline.Keeps l s := by
  have hbill := fun hsome => bill_isSome_applyAll (s := s) hundeleted hsome
  refine ⟨⟨priced_applyAll hpriced hs.priced, fun hnone => ?_⟩, hbill, fun k hk hbill => ?_, trivial⟩
  · -- There was no bill before, so nothing was paid and nothing is.
    have hnone₀ : s.bill = none := by
      by_contra hsome
      have := hbill (Option.isSome_iff_ne_none.mpr hsome)
      rw [hnone] at this
      cases this
    refine unpaid_applyAll (fun w hw => ?_) (hs.unbilled hnone₀)
    by_contra hpay
    have := (hpays ⟨w, hw, Bool.eq_true_of_not_eq_false hpay⟩).bill
    rw [hnone₀] at this
    cases this
  · refine unpaid_applyAll fun w hw => ?_
    by_contra hpay
    exact hk (hbill ▸ (hpays ⟨w, hw, Bool.eq_true_of_not_eq_false hpay⟩).lock)

/-- Every request keeps the discipline. -/
theorem Op.keepsReductions (op : Op) (hs : s.InOrder)
    (hbill : op.takesMoney = true → s.bill.isSome = true) :
    op.prog.wp reductionDiscipline (fun _ => reductionDiscipline.Commits) .empty s := by
  have hleaves := (leaves_writing op.undeleted).and (leaves_writing op.pricing)
  refine Txn.wp_mono (hleaves.wp (Txn.wp_inv hs (op.paysLocked hbill))) fun _ l s h _ => ?_
  exact paysLocked_keeps h.1.1 h.1.2 h.2.1 h.2.2

end Discipline

/-! ### Following a line operation -/

/-- The operations that can make the order cheaper. -/
def Op.changesLine : Op → Bool
  | .updateLine .. | .removeLine .. | .voidLine .. => true
  | _ => false

/-- The line that an operation changes by what it read of it. -/
def Op.rereads : Op → Option ℕ
  | .updateLine _ _ lineId _ => some lineId
  | _ => none

def Store.rowsOf (s : Store) (lineId : ℕ) : List OrderLine := s.lines.filter (·.id = lineId)

/-- No bill appears, and the line stays as it was. -/
structure Undisturbed (target : Option ℕ) (s s' : Store) : Prop where
  bill : s.bill = none → s'.bill = none
  row : ∀ id ∈ target, s'.rowsOf id = s.rowsOf id

theorem Undisturbed.refl (target : Option ℕ) (s : Store) : Undisturbed target s s :=
  ⟨id, fun _ _ => rfl⟩

theorem Undisturbed.trans {target : Option ℕ} {s s' s'' : Store} (h : Undisturbed target s s')
    (h' : Undisturbed target s' s'') : Undisturbed target s s'' :=
  ⟨fun hs => h'.bill (h.bill hs), fun id hid => (h'.row id hid).trans (h.row id hid)⟩

section Followed

variable (known : Prop) (target : Option ℕ)

/-- What a line operation relies on; that the others leave its line and the missing bill alone
only where that is known. -/
abbrev followedDiscipline : Discipline Store Key Read Write :=
  reductionDiscipline.knowing (R := fun s s' => known → Undisturbed target s s')
    (fun s _ => .refl target s) fun _ _ _ h h' hknown => (h hknown).trans (h' hknown)

/-- Under the bill's lock nothing is paid; where it is not held there is no bill, or `c`. -/
structure Watching (c : Prop) (l : TxFootprint) (s : Store) : Prop where
  inOrder : s.InOrder
  lock : Key.bill ∈ l.locks → s.paymentCount = 0
  safe : known → c ∨ Key.bill ∈ l.locks ∨ s.bill = none

/-- What the operation ends in. -/
structure Spares (l : TxFootprint) (s : Store) : Prop where
  lock : Key.bill ∈ l.locks → s.paymentCount = 0
  worth : known → 0 < s.paymentCount → s.subtotal ≤ (applyAll l.writes s).subtotal

variable {known target} {c c' : Prop} {l : TxFootprint} {s : Store} {α : Type} {p : Tx α}

theorem watching_stable : (followedDiscipline known target).Stable (Watching known c) :=
  fun _ _ _ hrely h =>
    { inOrder := hrely.inv h.inOrder
      lock := fun hlock => hrely.keeps _ hlock rfl (h.lock hlock)
      safe := fun hknown => (h.safe hknown).imp_right (Or.imp_right (hrely.guar.2 hknown).bill) }

theorem Watching.mono (h : Watching known c l s) (hc : known → c → c') : Watching known c' l s :=
  ⟨h.inOrder, h.lock, fun hknown => (h.safe hknown).imp_left (hc hknown)⟩

/-- Where nothing but the guard stands, nothing is paid. -/
theorem Watching.unpaid (h : Watching known False l s) (hknown : known) : s.paymentCount = 0 := by
  rcases h.safe hknown with hfalse | hlock | hnone
  · exact hfalse.elim
  · exact h.lock hlock
  · exact h.inOrder.unbilled hnone

theorem Watching.spares (h : Watching known False l s) : Spares known l s :=
  ⟨h.lock, fun hknown hpaid => absurd (h.unpaid hknown) hpaid.ne'⟩

theorem Watching.add {l' : TxFootprint} (h : Watching known c l s) (hl : Key.bill ∉ l'.locks) :
    Watching known c (l.add l') s where
  inOrder := h.inOrder
  lock hlock := h.lock ((List.mem_append.mp hlock).resolve_right hl)
  safe hknown := (h.safe hknown).imp_right (Or.imp_left (List.mem_append_left _))

theorem carries_watching (hp : p.Emits fun l => Key.bill ∉ l.locks) :
    p.Carries (followedDiscipline known target) (Watching known c) :=
  hp.carries watching_stable fun _ _ _ hl h => h.add hl

/-- What leaves no trace carries what the others cannot falsify. -/
theorem carries_traceless {D : Discipline Store Key Read Write} {P : TxFootprint → Store → Prop}
    (hp : p.Emits (· = .empty)) (hP : D.Stable P) : p.Carries D P :=
  hp.carries hP fun l l' s hl h => by rwa [hl, Footprint.add_empty]

/-! #### The guard -/

/-- Writes to lines change nothing that the guard looks at. -/
theorem paymentCount_of_lines {ws : List Write} (h : ∀ w ∈ ws, w.table = .orderLines) (s : Store) :
    (applyAll ws s).paymentCount = s.paymentCount :=
  applyAll_frame Store.paymentCount (fun w hw v => by
    have hw := h w hw
    cases w <;> first | rfl | cases hw) s

theorem bill_of_lines {ws : List Write} (h : ∀ w ∈ ws, w.table = .orderLines) (s : Store) :
    (applyAll ws s).bill = s.bill :=
  applyAll_frame Store.bill (fun w hw v => by
    have hw := h w hw
    cases w <;> first | rfl | cases hw) s

section Guard

variable {P : TxFootprint → Store → Prop} (hP : (followedDiscipline known target).Stable P)
  (hlock : ∀ l s, P l s → P (l.add ⟨[.bill], [], []⟩) s)
  (hlines : ∀ l s, P l s → ∀ w ∈ l.writes, w.table = .orderLines)

include hP hlock hlines

/-- Where the guard lets it pass, nothing is paid, or there is no bill. -/
theorem assertBillHasNoPayments_wp (hw : Watching known c l s) (h : P l s) :
    assertBillHasNoPayments.wp (followedDiscipline known target)
      (fun _ l s => Watching known False l s ∧ P l s) l s := by
  have hfound : (followedDiscipline known target).Stable fun l s =>
      (Watching known c l s ∧ P l s) ∧ s.bill.isSome = true :=
    (watching_stable.and hP).and fun _ _ _ hrely hbill => hrely.guar.1 hbill
  have hlocked : (followedDiscipline known target).Stable fun l s =>
      s.InOrder ∧ Key.bill ∈ l.locks ∧ P l s :=
    fun l s s' hrely h => ⟨hrely.inv h.1, h.2.1, hP l s s' hrely h.2.2⟩
  have hdone : (followedDiscipline known target).Stable fun l s =>
      Watching known False l s ∧ P l s := watching_stable.and hP
  refine Txn.wp_query (watching_stable.and hP) ⟨hw, h⟩ fun s h => ?_
  rw [bill_of_lines (hlines l s h.2)]
  cases hbill : s.bill with
  | none =>
      refine Txn.wp_done hdone ⟨⟨h.1.inOrder, h.1.lock, fun _ => .inr (.inr hbill)⟩, h.2⟩
  | some b =>
      refine Txn.wp_stmt hfound ⟨h, by rw [hbill]; rfl⟩ fun env s h _ => ?_
      have hview : (applyAll l.writes s).bill.isSome = true := by
        rw [bill_of_lines (hlines l s h.1.2)]
        exact h.2
      simp only [hview, if_true]
      have hl : s.InOrder ∧ Key.bill ∈ (l.add ⟨[.bill], [], []⟩ : TxFootprint).locks ∧
          P (l.add ⟨[.bill], [], []⟩) s :=
        ⟨h.1.1.inOrder, List.mem_append_right _ List.mem_cons_self, hlock l s h.1.2⟩
      refine Txn.wp_query hlocked hl fun s h => ?_
      rw [paymentCount_of_lines (hlines _ s h.2.2)]
      unfold raiseIf
      split
      · trivial
      · rename_i hnone
        have hcount : s.paymentCount = 0 := Nat.eq_zero_of_not_pos hnone
        exact Txn.wp_done hdone ⟨⟨h.1, fun _ => hcount, fun _ => .inr (.inl h.2.1)⟩, h.2.2⟩

/-- Where the guard is not asked, what was compared says why. -/
theorem assertReduction_wp {reduces : Bool} (hc : reduces = false → known → c')
    (hw : Watching known c l s) (h : P l s) :
    (assertReduction reduces).wp (followedDiscipline known target)
      (fun _ l s => Watching known (c ∧ c') l s ∧ P l s) l s := by
  cases reduces with
  | true =>
      exact Txn.wp_mono (assertBillHasNoPayments_wp hP hlock hlines hw h) fun _ _ _ h =>
        ⟨h.1.mono fun _ => False.elim, h.2⟩
  | false =>
      exact Txn.wp_done (watching_stable.and hP)
        ⟨hw.mono fun hknown hc₀ => ⟨hc₀, hc rfl hknown⟩, h⟩

end Guard

/-! #### What is read before it -/

theorem query_traceless {β : Type} (f : Store → β) : (Txn.query f : Tx β).Emits (· = .empty) :=
  ⟨fun _ _ => rfl, fun _ => trivial⟩

theorem clock_traceless : (Txn.clock : Tx ℤ).Emits (· = .empty) :=
  ⟨fun _ _ => rfl, fun _ => trivial⟩

theorem raiseIf_traceless (c : Prop) [Decidable c] (kind : ErrorKind) (code message : String) :
    (raiseIf c kind code message).Emits (· = .empty) := .ite trivial trivial

theorem ofExcept_traceless (x : Except ApiError α) : (ofExcept x).Emits (· = .empty) := by
  cases x <;> trivial

theorem loadOpenOrder_traceless (staff : PosPrincipal) (name : String) :
    (loadOpenOrder staff name).Emits (· = .empty) :=
  (query_traceless _).bind fun _ => (raiseIf_traceless ..).bind fun _ =>
    (raiseIf_traceless ..).bind fun _ => trivial

theorem loadOrderLine_traceless (lineId : ℕ) : (loadOrderLine lineId).Emits (· = .empty) := by
  refine (query_traceless _).bind fun line => ?_
  split <;> trivial

theorem lineAndChildIds_traceless (line : OrderLine) :
    (lineAndChildIds line).Emits (· = .empty) := (query_traceless _).bind fun _ => trivial

theorem assertLineNotSent_traceless (line : OrderLine) :
    (assertLineNotSent line).Emits (· = .empty) :=
  (lineAndChildIds_traceless line).bind fun _ => (query_traceless _).bind fun _ =>
    raiseIf_traceless ..

theorem assertNotComboLine_traceless (line : OrderLine) (action : ComboAction) :
    (assertNotComboLine line action).Emits (· = .empty) :=
  (raiseIf_traceless ..).bind fun _ => raiseIf_traceless ..

/-! #### Removing and voiding -/

/-- Nothing is written yet. -/
structure Unwritten (known c : Prop) (l : TxFootprint) (s : Store) : Prop where
  watching : Watching known c l s
  writes : l.writes = []

theorem unwritten_stable : (followedDiscipline known target).Stable (Unwritten known c) :=
  fun l s s' hrely h => ⟨watching_stable l s s' hrely h.watching, h.writes⟩

theorem carries_unwritten (hp : p.Emits (· = .empty)) :
    p.Carries (followedDiscipline known target) (Unwritten known c) :=
  carries_traceless hp unwritten_stable

theorem Unwritten.start (hs : s.InOrder) : Unwritten known True .empty s :=
  ⟨⟨hs, fun h => absurd h List.not_mem_nil, fun _ => .inl trivial⟩, rfl⟩

/-- The guard, where nothing is written yet. -/
theorem Unwritten.guard (h : Unwritten known c l s) :
    assertBillHasNoPayments.wp (followedDiscipline known target)
      (fun _ => Watching known False) l s := by
  refine Txn.wp_mono (assertBillHasNoPayments_wp (P := fun l _ => l.writes = [])
    (fun _ _ _ _ h => h) (fun l s h => ?_) (fun l s h w hw => ?_) h.watching h.writes)
    fun _ _ _ h => h.1
  · rw [Footprint.add_writes, h, List.append_nil]
  · rw [h] at hw
    exact absurd hw List.not_mem_nil

theorem spares_of_watching (h : p.wp (followedDiscipline known target)
    (fun _ => Watching known False) l s) :
    p.wp (followedDiscipline known target) (fun _ => Spares known) l s :=
  Txn.wp_mono h fun _ _ _ h => h.spares

theorem unlocked_writeWhen {allowed : Store → Bool} {keys : List Key} {writes : List Write}
    (h : Key.bill ∉ keys) :
    (Txn.writeWhen allowed keys writes : Tx Bool).Emits fun l => Key.bill ∉ l.locks := by
  refine ⟨fun _ v => ?_, fun _ => trivial⟩
  cases hv : allowed v with
  | true => simpa [hv] using h
  | false => simp [hv]

theorem removeLine_spares (staff : PosPrincipal) (name : String) (lineId : ℕ) (hs : s.InOrder) :
    (removeLine staff name lineId).wp (followedDiscipline known target)
      (fun _ => Spares known) .empty s := by
  have hdelete : (do
      let deleted ← Txn.writeWhen (fun v => v.lines.any (·.id = lineId)) [.line lineId]
        [.deleteLine lineId]
      if deleted then pure () else Txn.throw internalError : Tx Unit).Emits
        fun l => Key.bill ∉ l.locks := by
    exact Txn.Emits.bind (unlocked_writeWhen (by simp)) fun _ => .ite trivial trivial
  refine spares_of_watching ?_
  refine Txn.wp_seq (carries_unwritten (loadOpenOrder_traceless ..) _ s (.start hs)) fun _ l s h => ?_
  refine Txn.wp_seq (carries_unwritten (loadOrderLine_traceless _) l s h) fun line l s h => ?_
  refine Txn.wp_seq (carries_unwritten (assertNotComboLine_traceless ..) l s h) fun _ l s h => ?_
  refine Txn.wp_seq (carries_unwritten (assertLineNotSent_traceless _) l s h) fun _ l s h => ?_
  exact Txn.wp_seq h.guard fun _ l s h => carries_watching hdelete l s h

theorem voidLine_spares (staff : PosPrincipal) (name : String) (lineId : ℕ)
    (authorize : Except ApiError ManagerApproval) (hs : s.InOrder) :
    (voidLine staff name lineId authorize).wp (followedDiscipline known target)
      (fun _ => Spares known) .empty s := by
  have hexec : ∀ {locks : Store → List Key} {writes : Store → List Write},
      (∀ v, Key.bill ∉ locks v) → (Txn.exec locks writes : Tx Unit).Emits
        fun l => Key.bill ∉ l.locks := fun hlocks => ⟨fun _ v => hlocks v, fun _ => trivial⟩
  have hidle : ∀ {α : Type} {p : Tx α}, p.Emits (· = .empty) → p.Emits fun l => Key.bill ∉ l.locks :=
    fun hp => hp.mono fun l hl => by simp [hl]
  refine spares_of_watching ?_
  refine Txn.wp_seq (carries_unwritten (loadOpenOrder_traceless ..) _ s (.start hs)) fun _ l s h => ?_
  refine Txn.wp_seq (carries_unwritten (loadOrderLine_traceless _) l s h) fun line l s h => ?_
  refine wp_raiseIf fun _ => ?_
  refine Txn.wp_seq (carries_unwritten (lineAndChildIds_traceless _) l s h) fun ids l s h => ?_
  refine Txn.wp_seq (carries_unwritten (query_traceless _) l s h) fun sent l s h => ?_
  refine wp_raiseIf fun _ => Txn.wp_seq h.guard fun _ l s h => ?_
  refine carries_watching ?_ l s h
  refine (hidle (ofExcept_traceless authorize)).bind fun approval =>
    (hidle clock_traceless).bind fun at_ =>
    (hexec fun v => by simp).bind fun _ => (hexec fun v => by simp).bind fun _ =>
    hexec fun v => by simp

/-! #### Changing a line -/

/-- At least as much of it, at no lower price. -/
def OrderLine.Within (a b : OrderLine) : Prop :=
  a.quantity ≤ b.quantity ∧ a.unitMinor ≤ b.unitMinor

/-- What was written so far does `f` to the row of the line, and the row is the one that was
read. -/
structure Edit (known : Prop) (line : OrderLine) (f : OrderLine → OrderLine) (l : TxFootprint)
    (s : Store) : Prop where
  writes : ∀ w ∈ l.writes, w.table = .orderLines
  effect : ∀ s : Store, (applyAll l.writes s).lines = updateRows OrderLine.id line.id f s.lines
  keeps : ∀ r, (f r).id = r.id ∧ (f r).voidedAt = r.voidedAt
  row : known → s.rowsOf line.id = [line]

variable {line : OrderLine} {f g : OrderLine → OrderLine}

theorem edit_stable : (followedDiscipline known (some line.id)).Stable (Edit known line f) :=
  fun _ _ _ hrely h =>
    ⟨h.writes, h.effect, h.keeps, fun hknown =>
      ((hrely.guar.2 hknown).row _ rfl).trans (h.row hknown)⟩

theorem updateRows_comp {id : ℕ} (hf : ∀ r, (f r).id = r.id) (rows : List OrderLine) :
    updateRows OrderLine.id id g (updateRows OrderLine.id id f rows) =
      updateRows OrderLine.id id (g ∘ f) rows := by
  rw [updateRows, updateRows, updateRows, List.map_map]
  refine List.map_congr_left fun r _ => ?_
  by_cases hr : r.id = id
  · simp [hr, hf]
  · simp [hr]

theorem Edit.add {w : Write} {locks : List Key} (h : Edit known line f l s)
    (hw : w.table = .orderLines)
    (heffect : ∀ s : Store, (s.apply w).lines = updateRows OrderLine.id line.id g s.lines)
    (hg : ∀ r, (g r).id = r.id ∧ (g r).voidedAt = r.voidedAt) :
    Edit known line (g ∘ f) (l.add ⟨locks, [], [w]⟩) s where
  writes w' hw' := (List.mem_append.mp hw').elim (h.writes w') fun hw' =>
    List.mem_singleton.mp hw' ▸ hw
  effect s := by
    rw [Footprint.add_writes, applyAll_append]
    exact (heffect _).trans (by rw [h.effect, updateRows_comp fun r => (h.keeps r).1])
  keeps r := ⟨(hg _).1.trans (h.keeps r).1, (hg _).2.trans (h.keeps r).2⟩
  row := h.row

theorem Edit.lock (h : Edit known line f l s) : Edit known line f (l.add ⟨[.bill], [], []⟩) s :=
  ⟨by simpa using h.writes, by simpa using h.effect, h.keeps, h.row⟩

/-- The row that the operation sees is the one that was read, as changed so far. -/
theorem Edit.find (h : Edit known line f l s) (hknown : known) :
    (applyAll l.writes s).lines.find? (·.id = line.id) = some (f line) := by
  have hfound : s.lines.find? (·.id = line.id) = some line := by
    rw [← List.head?_filter]
    exact congrArg List.head? (h.row hknown)
  rw [h.effect, updateRows, List.find?_map]
  have hsame : ((fun r : OrderLine => decide (r.id = line.id)) ∘ fun r =>
      if r.id = line.id then f r else r) = fun r => decide (r.id = line.id) := by
    funext r
    rw [Function.comp_apply]
    split
    · rw [(h.keeps r).1]
    · rfl
  rw [hsame, hfound, Option.map_some, if_pos rfl]

/-- A row that is worth no less makes the order worth no less. -/
theorem Edit.spares (h : Edit known line f l s) (hw : Watching known (line.Within (f line)) l s) :
    Spares known l s := by
  refine ⟨hw.lock, fun hknown hpaid => ?_⟩
  rcases hw.safe hknown with hwithin | hlock | hnone
  · have hrows := h.row hknown
    rw [Store.subtotal, Store.subtotal, Store.liveLines, Store.liveLines, h.effect, updateRows]
    refine subtotal_map_le (fun r => ?_) fun r hr => ?_
    · split
      · exact (h.keeps r).2
      · rfl
    · split
      · rename_i hid
        have hmem : r ∈ s.rowsOf line.id := List.mem_filter.mpr ⟨hr, decide_eq_true hid⟩
        rw [hrows] at hmem
        obtain rfl := List.mem_singleton.mp hmem
        exact OrderLine.totalMinor_le hwithin.1 hwithin.2
          (OrderLine.unitMinor_nonneg (hw.inOrder.priced r hr))
      · exact le_rfl
  · exact absurd (hw.lock hlock) hpaid.ne'
  · exact absurd (hw.inOrder.unbilled hnone) hpaid.ne'

/-- A write to the row of the line, if the row is there; it ends, or the request fails. -/
theorem changeLine_wp {w : Write} {Q : Unit → TxFootprint → Store → Prop}
    (hQ : (followedDiscipline known (some line.id)).Stable (Q ()))
    (hw : w.table = .orderLines)
    (heffect : ∀ s : Store, (s.apply w).lines = updateRows OrderLine.id line.id g s.lines)
    (hg : ∀ r, (g r).id = r.id ∧ (g r).voidedAt = r.voidedAt)
    (hdone : ∀ l s, Edit known line (g ∘ f) l s → Watching known c l s → Q () l s)
    (h : Edit known line f l s) (hwatch : Watching known c l s) :
    (do
      let updated ← Txn.writeWhen (fun v => v.lines.any (·.id = line.id)) [.line line.id] [w]
      if updated then pure () else Txn.throw internalError : Tx Unit).wp
        (followedDiscipline known (some line.id)) Q l s := by
  have hstable : ∀ f : OrderLine → OrderLine, (followedDiscipline known (some line.id)).Stable
      fun l s => Edit known line f l s ∧ Watching known c l s :=
    fun f => edit_stable.and watching_stable
  refine Txn.wp_seq (Txn.wp_writeWhen
    (Q := fun updated l s => updated = true →
      Edit known line (g ∘ f) l s ∧ Watching known c l s)
    (hstable f) (fun updated => (hstable (g ∘ f)).imp _) ⟨h, hwatch⟩
    (fun s h _ _ _ => ⟨h.1.add hw heffect hg, h.2.add (by simp)⟩)
    fun s h _ hupdated => absurd hupdated Bool.false_ne_true) fun updated l s h => ?_
  cases updated with
  | true => exact Txn.wp_done hQ (hdone l s (h rfl).1 (h rfl).2)
  | false => trivial

/-- The row as written so far: what the line was, with at least its quantity, at its price. -/
structure Resized (known : Prop) (line : OrderLine) (l : TxFootprint) (s : Store) : Prop where
  edit : ∃ f, Edit known line f l s ∧ (f line).unitPriceMinor = line.unitPriceMinor ∧
    (f line).modifiers = line.modifiers ∧ Watching known (line.quantity ≤ (f line).quantity) l s

theorem resized_stable : (followedDiscipline known (some line.id)).Stable (Resized known line) := by
  rintro l s s' hrely ⟨f, h, hprice, hmodifiers, hwatch⟩
  exact ⟨f, edit_stable l s s' hrely h, hprice, hmodifiers, watching_stable l s s' hrely hwatch⟩

theorem updateLineQuantity_wp {quantity : ℕ} (h : Edit known line id l s)
    (hwatch : Watching known (line.quantity ≤ quantity) l s) :
    (updateLineQuantity line.id quantity).wp (followedDiscipline known (some line.id))
      (fun _ => Resized known line) l s := by
  refine changeLine_wp (g := fun r => { r with quantity }) resized_stable rfl (fun _ => rfl)
    (fun _ => ⟨rfl, rfl⟩) (fun l s h hwatch => ?_) h hwatch
  exact ⟨_, h, rfl, rfl, hwatch⟩

theorem updateLineSeat_wp {seat : ℕ} (h : Resized known line l s) :
    (updateLineSeat line.id seat).wp (followedDiscipline known (some line.id))
      (fun _ => Resized known line) l s := by
  obtain ⟨f, h, hprice, hmodifiers, hwatch⟩ := h
  refine changeLine_wp (g := fun r => { r with seatNumber := some seat }) resized_stable rfl
    (fun _ => rfl) (fun _ => ⟨rfl, rfl⟩) (fun l s h hwatch => ?_) h hwatch
  exact ⟨_, h, hprice, hmodifiers, hwatch⟩

/-- The modifiers one by one: the row has all of them in the end. -/
theorem createModifiers_wp {ms : List OrderLineModifier} (h : Edit known line f l s)
    (hwatch : Watching known c l s) :
    (Txn.forEach (fun m => Txn.exec (fun _ => []) fun _ => [.createLineModifier line.id m])
      ms : Tx Unit).wp (followedDiscipline known (some line.id))
        (fun _ l s => ∃ g, Edit known line g l s ∧
          g line = { f line with modifiers := (f line).modifiers ++ ms } ∧ Watching known c l s)
        l s := by
  have hstable : ∀ {p : (OrderLine → OrderLine) → Prop},
      (followedDiscipline known (some line.id)).Stable
        fun l s => ∃ g, Edit known line g l s ∧ p g ∧ Watching known c l s :=
    Discipline.Stable.exists fun g =>
      edit_stable.and ((Discipline.Stable.const _).and watching_stable)
  induction ms generalizing f l s with
  | nil => exact Txn.wp_done hstable ⟨f, h, by simp, hwatch⟩
  | cons m ms ih =>
      rw [Txn.forEach_cons]
      refine Txn.wp_stmt (edit_stable.and watching_stable) ⟨h, hwatch⟩ fun _ s h _ => ?_
      refine Txn.wp_mono (ih (f := (fun r => { r with modifiers := r.modifiers ++ [m] }) ∘ f)
        (h.1.add rfl (fun _ => rfl) fun _ => ⟨rfl, rfl⟩) (h.2.add (by simp))) ?_
      rintro _ l s ⟨g, h, hg, hwatch⟩
      exact ⟨g, h, by simp [hg], hwatch⟩

/-- Replacing the modifiers, under the guard where they become cheaper. -/
theorem replaceModifiers_wp {ms : List OrderLineModifier} (h : Resized known line l s) :
    (replaceModifiers line.id ms).wp (followedDiscipline known (some line.id))
      (fun _ => Spares known) l s := by
  obtain ⟨f, h, hprice, hmodifiers, hwatch⟩ := h
  have hstable : (followedDiscipline known (some line.id)).Stable fun l s =>
      Edit known line f l s ∧ Watching known (line.quantity ≤ (f line).quantity) l s :=
    edit_stable.and watching_stable
  refine Txn.wp_query hstable ⟨h, hwatch⟩ fun s h => ?_
  have hprevious : known → (((applyAll l.writes s).lines.find? (·.id = line.id)).map
      (·.modifiers)).getD [] = line.modifiers := fun hknown => by
    rw [h.1.find hknown, Option.map_some, Option.getD_some, hmodifiers]
  have hcheaper : ∀ {m : List OrderLineModifier},
      decide (modifiersMinor ms < modifiersMinor m) = false → known → m = line.modifiers →
        modifiersMinor line.modifiers ≤ modifiersMinor ms := by
    intro m hreduces _ hm
    rw [hm, decide_eq_false_iff_not, not_lt] at hreduces
    exact hreduces
  refine Txn.wp_seq (assertReduction_wp (P := Edit known line f) edit_stable
    (fun _ _ h => h.lock) (fun _ _ h => h.writes)
    (fun hreduces hknown => hcheaper hreduces hknown (hprevious hknown)) h.2 h.1)
    fun _ l s h => ?_
  have hdeleted : (followedDiscipline known (some line.id)).Stable fun l s =>
      Edit known line f l s ∧ Watching known (line.quantity ≤ (f line).quantity ∧
        modifiersMinor line.modifiers ≤ modifiersMinor ms) l s :=
    edit_stable.and watching_stable
  refine Txn.wp_stmt hdeleted ⟨h.2, h.1⟩ fun _ s h _ => ?_
  refine Txn.wp_mono (createModifiers_wp (f := (fun r => { r with modifiers := [] }) ∘ f)
    (h.1.add rfl (fun _ => rfl) fun _ => ⟨rfl, rfl⟩) (h.2.add (by simp))) ?_
  rintro _ l s ⟨g, h, hg, hwatch⟩
  refine h.spares (hwatch.mono fun _ hc => ?_)
  rw [hg]
  refine ⟨hc.1, ?_⟩
  simp only [OrderLine.unitMinor, Function.comp_apply, List.nil_append, hprice]
  exact add_le_add le_rfl hc.2

/-- The line as it was read, and its row the only one of its id. -/
theorem edit_of_found {lineId : ℕ} (hl : l.writes = []) (hid : line.id = lineId)
    (hfind : s.lines.find? (·.id = lineId) = some line)
    (hone : known → (s.rowsOf lineId).length ≤ 1) : Edit known line id l s where
  writes _ hw := by simp [hl] at hw
  effect s := by simp [hl, updateRows]
  keeps _ := ⟨rfl, rfl⟩
  row hknown := by
    have hhead : (s.rowsOf lineId).head? = some line := by
      rw [Store.rowsOf, List.head?_filter]
      exact hfind
    have hone := hone hknown
    rw [hid]
    generalize s.rowsOf lineId = rows at hhead hone
    match rows with
    | [] => cases hhead
    | [r] => exact congrArg (fun x => [x]) (Option.some.inj hhead)
    | _ :: _ :: _ => simp at hone

/-- What remains of `updateLine` once the line is read. -/
theorem changeLine_spares {dto : UpdateOrderLineDto} (h : Edit known line id l s)
    (hwatch : Watching known True l s) :
    (do
      assertReduction (dto.quantity.any (· < line.quantity))
      whenGiven dto.quantity (updateLineQuantity line.id)
      whenGiven dto.seatNumber (updateLineSeat line.id)
      whenGiven dto.modifiers fun menu => do
        let modifiers ← ofExcept menu
        replaceModifiers line.id modifiers : Tx Unit).wp
          (followedDiscipline known (some line.id)) (fun _ => Spares known) l s := by
  have hmore : dto.quantity.any (· < line.quantity) = false → known →
      ∀ q ∈ dto.quantity, line.quantity ≤ q := by
    intro hreduces _ q hq
    rw [Option.mem_def.mp hq] at hreduces
    simpa using hreduces
  refine Txn.wp_seq (assertReduction_wp (P := Edit known line id) edit_stable (fun _ _ h => h.lock)
    (fun _ _ h => h.writes) hmore hwatch h) fun _ l s h => ?_
  have hwritten : (whenGiven dto.quantity (updateLineQuantity line.id)).wp
      (followedDiscipline known (some line.id)) (fun _ => Resized known line) l s := by
    cases hquantity : dto.quantity with
    | none =>
        exact Txn.wp_done resized_stable ⟨id, h.2, rfl, rfl, h.1.mono fun _ _ => le_rfl⟩
    | some q => exact updateLineQuantity_wp h.2 (h.1.mono fun _ hc => hc.2 q hquantity)
  refine Txn.wp_seq hwritten fun _ l s h => ?_
  have hseated : (whenGiven dto.seatNumber (updateLineSeat line.id)).wp
      (followedDiscipline known (some line.id)) (fun _ => Resized known line) l s := by
    cases dto.seatNumber with
    | none => exact Txn.wp_done resized_stable h
    | some seat => exact updateLineSeat_wp h
  refine Txn.wp_seq hseated fun _ l s h => ?_
  have hspares : ∀ l s, Resized known line l s → Spares known l s := by
    rintro l s ⟨f, h, hprice, hmodifiers, hwatch⟩
    refine h.spares (hwatch.mono fun _ hc => ⟨hc, ?_⟩)
    rw [OrderLine.unitMinor, OrderLine.unitMinor, hprice, hmodifiers]
  cases dto.modifiers with
  | none => exact Txn.wp_mono (Txn.wp_done resized_stable h) fun _ l s h => hspares l s h
  | some menu =>
      cases menu with
      | error e => trivial
      | ok modifiers => exact replaceModifiers_wp h

/-- A change of a line, where it is known that nobody else changes the line meanwhile, or opens
a bill that was not there. -/
theorem updateLine_spares (staff : PosPrincipal) (name : String) (lineId : ℕ)
    (dto : UpdateOrderLineDto) (hs : s.InOrder) (hone : known → (s.rowsOf lineId).length ≤ 1) :
    (updateLine staff name lineId dto).wp (followedDiscipline known (some lineId))
      (fun _ => Spares known) .empty s := by
  have hunwritten : (followedDiscipline known (some lineId)).Stable fun l s =>
      Unwritten known True l s ∧ (known → (s.rowsOf lineId).length ≤ 1) :=
    unwritten_stable.and fun _ _ _ hrely hone hknown => by
      rw [(hrely.guar.2 hknown).row _ rfl]
      exact hone hknown
  have hfound : ∀ line : OrderLine, (followedDiscipline known (some lineId)).Stable fun l s =>
      line.id = lineId ∧ Edit known line id l s ∧ Watching known True l s := by
    rintro line l s s' hrely ⟨rfl, h⟩
    exact ⟨rfl, edit_stable.and watching_stable l s s' hrely h⟩
  refine Txn.wp_seq (carries_traceless (loadOpenOrder_traceless ..) hunwritten _ s
    ⟨.start hs, hone⟩) fun _ l s h => ?_
  refine Txn.wp_seq (R := fun line l s => line.id = lineId ∧ Edit known line id l s ∧
    Watching known True l s) (Txn.wp_query hunwritten h fun s h => ?_) fun line l s hline => ?_
  · rw [h.1.writes, applyAll_nil]
    cases hfind : s.lines.find? (·.id = lineId) with
    | none => trivial
    | some line =>
        have hid : line.id = lineId := by simpa using List.find?_some hfind
        cases hlive : line.voidedAt.isNone with
        | true =>
            simp only [Option.filter_some, hlive, if_true]
            exact Txn.wp_done (hfound line)
              ⟨hid, edit_of_found h.1.writes hid hfind h.2, h.1.watching⟩
        | false =>
            simp only [Option.filter_some, hlive, Bool.false_eq_true, if_false]
            trivial
  obtain ⟨rfl, hline⟩ := hline
  have hedit : (followedDiscipline known (some line.id)).Stable fun l s =>
      Edit known line id l s ∧ Watching known True l s := edit_stable.and watching_stable
  refine Txn.wp_seq (carries_traceless (assertNotComboLine_traceless ..) hedit l s hline)
    fun _ l s h => ?_
  refine Txn.wp_seq (carries_traceless (assertLineNotSent_traceless _) hedit l s h)
    fun _ l s h => ?_
  exact changeLine_spares h.1 h.2

end Followed

/-! ### Identifiers -/

theorem keepsLineId_trans (k : Key) (s s' s'' : Store)
    (h : ∀ id, k = .line id → id ∈ s'.lineIds → id ∈ s.lineIds)
    (h' : ∀ id, k = .line id → id ∈ s''.lineIds → id ∈ s'.lineIds) :
    ∀ id, k = .line id → id ∈ s''.lineIds → id ∈ s.lineIds :=
  fun id hk hid => h id hk (h' id hk hid)

/-- A line's identifier belongs to who adds it. -/
def lineIdDiscipline : Discipline Store Key Read Write where
  inv s := s.lineIds.Nodup
  guar _ _ := True
  keeps k s s' := ∀ id, k = .line id → id ∈ s'.lineIds → id ∈ s.lineIds
  heeds _ _ _ := True
  admits _ _ _ := True
  lands _ _ := True
  ends _ _ := True
  guar_refl _ := trivial
  guar_trans _ _ _ _ _ := trivial
  keeps_refl _ _ _ _ h := h
  keeps_trans := keepsLineId_trans
  heeds_refl _ _ := trivial
  heeds_trans _ _ _ _ _ _ := trivial

/-- Lines were only added, each under the lock of an identifier that was free. -/
structure Opening (l : TxFootprint) (s : Store) : Prop where
  inv : s.lineIds.Nodup
  keeps : ∀ w ∈ l.writes, w.deletesLine = false
  nodup : (l.writes.filterMap Write.opensLine).Nodup
  free : ∀ id ∈ l.writes.filterMap Write.opensLine, Key.line id ∈ l.locks ∧ id ∉ s.lineIds

theorem opening_stable : lineIdDiscipline.Stable Opening := fun _ _ _ hrely h =>
  ⟨hrely.inv h.inv, h.keeps, h.nodup, fun id hid => (h.free id hid).imp_right
    fun hfree hin => hfree (hrely.keeps _ (h.free id hid).1 id rfl hin)⟩

theorem Opening.add {l l' : TxFootprint} {s : Store} (h : Opening l s)
    (hl' : FiresNothing (applyAll l.writes s) l') : Opening (l.add l') s := by
  obtain ⟨hwrites, hnodup, hfree⟩ := hl'
  rw [lineIds_applyAll h.keeps] at hfree
  refine ⟨h.inv, fun w hw => ?_, ?_, fun id hid => ?_⟩
  · exact (List.mem_append.mp hw).elim (h.keeps w) fun hw => (hwrites w hw).2
  · rw [Footprint.add_writes, List.filterMap_append]
    exact h.nodup.append hnodup fun id hid hid' =>
      (hfree id hid').2 (List.mem_append_right _ hid)
  · rw [Footprint.add_writes, List.filterMap_append] at hid
    rcases List.mem_append.mp hid with hid | hid
    · exact (h.free id hid).imp_left (List.mem_append_left _)
    · exact ⟨List.mem_append_right _ (hfree id hid).1,
        fun hs => (hfree id hid).2 (List.mem_append_left _ hs)⟩

theorem Opening.commits {l : TxFootprint} {s : Store} (h : Opening l s) :
    lineIdDiscipline.Commits l s := by
  have hids := lineIds_applyAll h.keeps s
  refine fun _ => ⟨?_, trivial, fun k hk id hid hin => ?_, trivial⟩
  · show (applyAll l.writes s).lineIds.Nodup
    rw [hids]
    exact h.inv.append h.nodup fun id hs hid => (h.free id hid).2 hs
  · rw [hids] at hin
    rcases List.mem_append.mp hin with hs | hopened
    · exact hs
    · exact absurd (hid ▸ (h.free id hopened).1) hk

theorem keepsLineIds_of_sends {p : Tx Unit} (hp : p.Sends FiresNothing) {s : Store}
    (h : s.lineIds.Nodup) :
    p.wp lineIdDiscipline (fun _ => lineIdDiscipline.Commits) .empty s :=
  Txn.wp_mono (hp.carries opening_stable (fun _ _ _ hl' _ h => h.add hl') _ _
    ⟨h, by simp, by simp, by simp⟩) fun _ _ _ h => h.commits

/-- Who adds no line keeps the identifiers apart. -/
theorem keepsLineIds_of_writing {p : Tx Unit}
    (hp : p.Emits (Writing fun w => w.opensLine = none)) {s : Store} (h : s.lineIds.Nodup) :
    p.wp lineIdDiscipline (fun _ => lineIdDiscipline.Commits) .empty s := by
  have hinv : p.wp lineIdDiscipline (fun _ _ s => lineIdDiscipline.inv s ∧ True) .empty s :=
    Txn.wp_inv h ((emits_any p).wp (Discipline.Stable.const True) (fun _ _ _ _ h => h) trivial)
  refine Txn.wp_mono ((leaves_writing hp).wp hinv) fun _ l s h _ => ?_
  have hsub := lineIds_applyAll_sublist h.2 s
  exact ⟨hsub.nodup h.1.1, trivial, fun _ _ _ _ hin => hsub.subset hin, trivial⟩

theorem Op.keepsLineIds (op : Op) {s : Store} (h : s.lineIds.Nodup) :
    op.prog.wp lineIdDiscipline (fun _ => lineIdDiscipline.Commits) .empty s := by
  have hleaves : ∀ {p : Tx Unit}, p.Emits LeavesLines →
      p.Emits (Writing fun w => w.opensLine = none) := fun hp =>
    hp.mono fun _ hl w hw => (hl w hw).2
  have htables : ∀ {ts : List Table}, .orderLines ∉ ts → ∀ {p : Tx Unit}, p.Emits (Touching ts) →
      p.Emits (Writing fun w => w.opensLine = none) := fun hts _ hp =>
    writing_of_touching (fun w hw => by
      have htable : w.table ≠ .orderLines := fun htable => hts (htable ▸ hw)
      cases w <;> first | rfl | exact absurd rfl htable) hp
  cases op with
  | addLine staff name dto menu =>
      exact keepsLineIds_of_sends (addLine_firesNothing staff name dto menu) h
  | addCombo staff name dto menu =>
      exact keepsLineIds_of_sends (addCombo_firesNothing staff name dto menu) h
  | updateLine staff name id dto =>
      exact keepsLineIds_of_writing (hleaves (updateLine_leavesLines staff name id dto)) h
  | removeLine staff name id =>
      exact keepsLineIds_of_writing (hleaves (removeLine_leavesLines staff name id)) h
  | voidLine staff name id authorize =>
      exact keepsLineIds_of_writing (hleaves (voidLine_leavesLines staff name id authorize)) h
  | _ =>
      exact keepsLineIds_of_writing (htables (by simp [Op.tables, settlementTables,
        guestPaymentTables]) (Op.emits _)) h

/-! ### Runs -/

/-- A request that takes money names a bill, or an intent on a bill, that is there. -/
def NamesBill (S : System Store Key Read Write ApiError) :
    Event Store Key Read Write ApiError → Prop
  | .begin p => ∃ op : Op, p = op.prog ∧ (op.takesMoney = true → S.store.bill.isSome = true)
  | _ => True

/-- Until the transaction `t` holds the bill's lock, the others leave its line, and the bill that
is not there, alone. -/
def LeavesAlone (target : Option ℕ) (t : ℕ) (S : System Store Key Read Write ApiError)
    (e : Event Store Key Read Write ApiError) : Prop :=
  (∀ x, S.session t = some x → Key.bill ∉ x.done.locks) → OthersDo (Undisturbed target) t S e

theorem reductions_respected {S : System Store Key Read Write ApiError}
    {e : Event Store Key Read Write ApiError} : reductionDiscipline.Respects S e := by
  cases e with
  | stmt t env => exact fun _ _ _ _ _ => trivial
  | commit t => exact fun _ _ => ⟨trivial, fun _ _ _ _ _ _ => trivial⟩
  | begin p => trivial
  | rollback t => trivial

theorem keepsReductions_of_namesBill {S : System Store Key Read Write ApiError}
    {e : Event Store Key Read Write ApiError} (hS : S.store.InOrder) (h : NamesBill S e) :
    ∀ p, e = .begin p →
      p.wp reductionDiscipline (fun _ => reductionDiscipline.Commits) .empty S.store := by
  rintro p rfl
  obtain ⟨op, rfl, hbill⟩ := h
  exact op.keepsReductions hS hbill

theorem Op.spares (op : Op) (hchanges : op.changesLine = true) {known : Prop} {s : Store}
    (hs : s.InOrder) (hids : s.lineIds.Nodup) :
    op.prog.wp (followedDiscipline known op.rereads) (fun _ => Spares known) .empty s := by
  cases op with
  | updateLine staff name lineId dto =>
      refine updateLine_spares staff name lineId dto hs fun _ => ?_
      have hcount := List.nodup_iff_count_le_one.mp hids lineId
      rw [Store.lineIds, List.count_eq_countP, List.countP_map, List.countP_eq_length_filter] at hcount
      simpa [Store.rowsOf, Function.comp_def, beq_eq_decide] using hcount
  | removeLine staff name lineId => exact removeLine_spares staff name lineId hs
  | voidLine staff name lineId authorize => exact voidLine_spares staff name lineId authorize hs
  | _ => cases hchanges

theorem Store.Placed.inOrder {s : Store} (h : s.Placed) : s.InOrder where
  priced l hl := h.priced.prices l hl
  unbilled _ := by simp [Store.paymentCount, Store.activeIntents, h.tenders, h.intents, h.shares]

/-- **Money keeps the lines up, where nobody comes between.** Take any run of an order's
requests, a change, removal or void of a line begun in it, and any run from there in which the
others, until that operation holds the bill's lock, neither open the bill that was not there nor
change the line whose quantity and modifiers it compares with. Where the operation is about to
commit and money has touched the bill, its commit does not make the order cheaper. -/
theorem paid_order_not_lowered {s : Store} (hs : s.Placed)
    {S S' : System Store Key Read Write ApiError}
    {es es' : List (Event Store Key Read Write ApiError)}
    (h : Run IsRequest NamesBill (.start s) es S) {op : Op} (hchanges : op.changesLine = true)
    (h' : Run IsRequest
      (fun S' e => NamesBill S' e ∧ LeavesAlone op.rereads S.sessions.length S' e)
      (S.enter op.prog) es' S') {l : TxFootprint}
    (hcommit : S'.session S.sessions.length = some ⟨.done (), l⟩)
    (hpaid : 0 < S'.store.paymentCount) :
    S'.store.subtotal ≤ (applyAll l.writes S'.store).subtotal := by
  have hids : S.store.lineIds.Nodup := by
    have hP : ∀ p, IsRequest p → ∀ s, lineIdDiscipline.inv s →
        p.wp lineIdDiscipline (fun _ => lineIdDiscipline.Commits) .empty s := by
      rintro p ⟨op, rfl⟩ s hs
      exact op.keepsLineIds hs
    refine (Discipline.sound hP (fun S e _ => ?_) (.start hs.priced.ids) h).1.inv
    cases e with
    | stmt t env => exact fun _ _ _ _ _ => trivial
    | commit t => exact fun _ _ => ⟨trivial, fun _ _ _ _ _ _ => trivial⟩
    | begin p => trivial
    | rollback t => trivial
  have hholds : reductionDiscipline.Holds S := by
    refine h.preserves (I := reductionDiscipline.Holds) (fun S e S' hS _ hC hstep => ?_)
      (.start hs.inOrder)
    exact hS.next (keepsReductions_of_namesBill hS.inv hC) reductions_respected hstep
  have hbegun : ∀ known : Prop, Follows reductionDiscipline _ _ (Spares known) S.sessions.length
      (S.enter op.prog) := fun known =>
    .of_begin hholds (op.keepsReductions hholds.inv fun hmoney => by
      cases op <;> first | cases hmoney; done | cases hchanges)
      (op.spares hchanges hholds.inv hids)
  have hothers : ∀ (S' : System Store Key Read Write ApiError) e {known : Prop},
      (known → OthersDo (Undisturbed op.rereads) S.sessions.length S' e) →
      OthersDo (fun s s' => known → Undisturbed op.rereads s s') S.sessions.length S' e := by
    intro S' e known hdo
    cases e with
    | commit t => exact fun ht x hx hknown => hdo hknown ht x hx
    | _ => trivial
  by_cases hlock : Key.bill ∈ l.locks
  · -- Under the lock nothing is paid, whatever the others did.
    have hfollowed := (hbegun False).run h' fun S' e hS' _ hC =>
      ⟨keepsReductions_of_namesBill hS'.inv hC.1, reductions_respected,
        hothers S' e False.elim⟩
    exact absurd ((hfollowed.done hcommit).lock hlock) hpaid.ne'
  · -- The lock was never held: the others left the line and the missing bill alone throughout.
    have hunheld := h'.unheld (by simp [System.enter]) hcommit hlock
    have hfollowed := (hbegun True).run hunheld fun S' e hS' _ hC =>
      ⟨keepsReductions_of_namesBill hS'.inv hC.1.1, reductions_respected,
        hothers S' e fun _ => hC.1.2 hC.2⟩
    exact (hfollowed.done hcommit).worth trivial hpaid

/-! ### On the sample order -/

def openSample : Op := .createBill sampleStaff "Owner"

/-- Requests that take no money may come at any time. -/
theorem namesBill_of_moneyless {S S' : System Store Key Read Write ApiError}
    {es : List (Event Store Key Read Write ApiError)}
    (h : Run (fun p => ∃ op : Op, p = op.prog ∧ op.takesMoney = false) (fun _ _ => True) S es S') :
    Run IsRequest NamesBill S es S' := by
  induction h with
  | nil => exact .nil
  | snoc e _ hP _ hstep ih =>
      refine .snoc e ih (fun p hp => ?_) ?_ hstep
      · obtain ⟨op, hop, _⟩ := hP p hp
        exact ⟨op, hop⟩
      · cases e with
        | begin p =>
            obtain ⟨op, hop, hfree⟩ := hP p rfl
            exact ⟨op, hop, fun hmoney => absurd (hfree.symm.trans hmoney) Bool.false_ne_true⟩
        | _ => trivial

/-- Every request may, while the bill is there. -/
theorem namesBill_of_billed {S S' : System Store Key Read Write ApiError}
    {es : List (Event Store Key Read Write ApiError)}
    (h : Run IsRequest (fun S _ => S.store.bill.isSome = true) S es S') :
    Run IsRequest NamesBill S es S' := by
  induction h with
  | nil => exact .nil
  | snoc e _ hP hbill hstep ih =>
      refine .snoc e ih hP ?_ hstep
      cases e with
      | begin p =>
          obtain ⟨op, hop⟩ := hP p rfl
          exact ⟨op, hop, fun _ => hbill⟩
      | _ => trivial

/-- The bill is opened, by a transaction of the number `t`. -/
def opening (t : ℕ) : List (Event Store Key Read Write ApiError) :=
  .begin openSample.prog :: turns t 7 100 ++ [.commit t]

/-- A payment intent is raised on it. -/
def charging (t : ℕ) : List (Event Store Key Read Write ApiError) :=
  .begin chargeSample.prog :: turns t 14 200 ++ [.commit t]

/-- One more of the first line. -/
def oneMore : Op :=
  .updateLine sampleStaff "Owner" 1
    { quantity := some 2, seatNumber := none, modifiers := none
      one_le_quantity := by simp
      modifiers_nonneg := by simp }

/-- The first line taken off the order. -/
def takeOff : Op := .removeLine sampleStaff "Owner" 1

/-- While only `t` sends statements, nobody disturbs it. -/
theorem run_turns {S S' : System Store Key Read Write ApiError} {target : Option ℕ} {t n start : ℕ}
    (h : S.play (turns t n start) = some S') :
    Run IsRequest (fun S e => NamesBill S e ∧ LeavesAlone target t S e) S (turns t n start) S' := by
  have hstmts : ∀ e ∈ (turns t n start : List (Event Store Key Read Write ApiError)),
      ∃ env, e = .stmt t env := fun e he => by
    obtain ⟨i, -, rfl⟩ := List.mem_map.mp he
    exact ⟨_, rfl⟩
  generalize turns t n start = es at h hstmts
  have hrun : Run (fun _ => False) (fun _ _ => True) S es S' :=
    (Run.of_playWhen h fun p hp => by
      obtain ⟨env, he⟩ := hstmts _ hp
      cases he).mono fun _ _ _ => trivial
  clear h
  induction hrun with
  | nil => exact .nil
  | snoc e _ hP _ hstep ih =>
      refine .snoc e (ih fun e he => hstmts e (List.mem_append_left _ he)) (fun p hp => (hP p hp).elim)
        ?_ hstep
      obtain ⟨env, rfl⟩ := hstmts e (List.mem_append_right _ List.mem_cons_self)
      exact ⟨trivial, fun _ => trivial⟩

/-- Whether the bill is there, before each of the events. -/
def billed (S : System Store Key Read Write ApiError) :
    Event Store Key Read Write ApiError → Bool :=
  fun _ => S.store.bill.isSome

theorem run_opening {S S' : System Store Key Read Write ApiError} {t : ℕ}
    (h : S.play (opening t) = some S') : Run IsRequest NamesBill S (opening t) S' :=
  namesBill_of_moneyless ((Run.of_playWhen h fun p hp => by
    simp only [opening, List.cons_append, List.mem_cons, List.mem_append, begin_notMem_turns,
      Event.begin.injEq, reduceCtorEq, List.not_mem_nil, or_false] at hp
    exact ⟨openSample, hp, rfl⟩).mono fun _ _ _ => trivial)

theorem run_charging {S S' : System Store Key Read Write ApiError} {t : ℕ}
    (h : S.playWhen billed (charging t) = some S') : Run IsRequest NamesBill S (charging t) S' :=
  namesBill_of_billed (Run.of_playWhen h fun p hp => by
    simp only [charging, List.cons_append, List.mem_cons, List.mem_append, begin_notMem_turns,
      Event.begin.injEq, reduceCtorEq, List.not_mem_nil, or_false] at hp
    exact ⟨chargeSample, hp⟩)

theorem paid_order_not_lowered_sample : ∃ S S' l,
    Run IsRequest NamesBill (.start sampleOrder) (opening 0 ++ charging 1) S ∧
    Run IsRequest (fun S' e => NamesBill S' e ∧ LeavesAlone oneMore.rereads 2 S' e)
      (S.enter oneMore.prog) (turns 2 5 300) S' ∧
    S'.session 2 = some ⟨.done (), l⟩ ∧ 0 < S'.store.paymentCount ∧
    S'.store.subtotal ≤ (applyAll l.writes S'.store).subtotal := by
  have hopen : ((System.start sampleOrder).play (opening 0)).isSome = true := by rfl
  have hcharge : (((System.start sampleOrder).play (opening 0)).bind
      fun S => S.playWhen billed (charging 1)).map (·.sessions.length) = some 2 := by rfl
  have hupdate : ((((System.start sampleOrder).play (opening 0)).bind
      fun S => S.playWhen billed (charging 1)).bind
      fun S => (S.enter oneMore.prog).play (turns 2 5 300)).map
      (fun S => ((S.ended 2).isSome, S.store.paymentCount)) = some (true, 1) := by rfl
  obtain ⟨S₀, hS₀⟩ := Option.isSome_iff_exists.mp hopen
  rw [hS₀, Option.bind_some] at hcharge hupdate
  obtain ⟨S, hS, hlength⟩ := Option.map_eq_some_iff.mp hcharge
  rw [hS, Option.bind_some] at hupdate
  obtain ⟨S', hS', hend⟩ := Option.map_eq_some_iff.mp hupdate
  obtain ⟨hended, hpaid⟩ := Prod.mk.inj hend
  obtain ⟨l, hl⟩ := Option.isSome_iff_exists.mp hended
  have hcommit := System.session_of_ended hl
  have hrun := (run_opening hS₀).trans (run_charging hS)
  have hrun' : Run IsRequest (fun S e => NamesBill S e ∧ LeavesAlone oneMore.rereads 2 S e)
      (S.enter oneMore.prog) _ S' := run_turns hS'
  refine ⟨S, S', l, hrun, hrun', hcommit, by rw [hpaid]; exact Nat.one_pos, ?_⟩
  rw [← hlength] at hcommit hrun'
  exact paid_order_not_lowered sampleOrder_placed hrun rfl hrun' hcommit
    (by rw [hpaid]; exact Nat.one_pos)

/-- **A bill opened behind the check.** The removal of a line finds no bill, so it locks nothing
and looks for no payment; the bill is opened and an intent for all of it raised; the removal
commits, and the order is worth less than what the guest is asked to pay. -/
theorem paid_order_lowered : ∃ S S' l,
    Run IsRequest NamesBill (.start sampleOrder)
      (.begin takeOff.prog :: turns 0 5 0 ++ opening 1 ++ charging 2 ++ turns 0 1 300) S ∧
    S.session 0 = some ⟨.done (), l⟩ ∧ Key.bill ∉ l.locks ∧ 0 < S.store.paymentCount ∧
    S.step (.commit 0) = some S' ∧ S'.store.subtotal < S.store.subtotal := by
  have hlook : ((System.start sampleOrder).play (.begin takeOff.prog :: turns 0 5 0)).isSome =
      true := by rfl
  have hopen : (((System.start sampleOrder).play (.begin takeOff.prog :: turns 0 5 0)).bind
      fun S => S.play (opening 1)).isSome = true := by rfl
  have hcharge : ((((System.start sampleOrder).play (.begin takeOff.prog :: turns 0 5 0)).bind
      fun S => S.play (opening 1)).bind fun S => S.playWhen billed (charging 2)).isSome =
      true := by rfl
  have hdelete : (((((System.start sampleOrder).play (.begin takeOff.prog :: turns 0 5 0)).bind
      fun S => S.play (opening 1)).bind fun S => S.playWhen billed (charging 2)).bind
      fun S => S.play (turns 0 1 300)).map (fun S => ((S.ended 0).map (·.locks), S.store.subtotal,
        S.store.paymentCount, (S.step (.commit 0)).map (·.store.subtotal))) =
      some (some [.line 1], 24046, 1, some 10046) := by rfl
  obtain ⟨S₀, hS₀⟩ := Option.isSome_iff_exists.mp hlook
  rw [hS₀, Option.bind_some] at hopen hcharge hdelete
  obtain ⟨S₁, hS₁⟩ := Option.isSome_iff_exists.mp hopen
  rw [hS₁, Option.bind_some] at hcharge hdelete
  obtain ⟨S₂, hS₂⟩ := Option.isSome_iff_exists.mp hcharge
  rw [hS₂, Option.bind_some] at hdelete
  obtain ⟨S, hS, hend⟩ := Option.map_eq_some_iff.mp hdelete
  simp only [Prod.mk.injEq, Option.map_eq_some_iff] at hend
  obtain ⟨⟨l, hl, hlocks⟩, hsubtotal, hpaid, S', hS', hlowered⟩ := hend
  have hrun : Run IsRequest NamesBill (.start sampleOrder) (.begin takeOff.prog :: turns 0 5 0) S₀ :=
    namesBill_of_moneyless ((Run.of_playWhen hS₀ fun p hp => by
      simp only [List.mem_cons, begin_notMem_turns, Event.begin.injEq, or_false] at hp
      exact ⟨takeOff, hp, rfl⟩).mono fun _ _ _ => trivial)
  have hturns : Run IsRequest (fun S e => NamesBill S e ∧ LeavesAlone none 0 S e) S₂ _ S :=
    run_turns hS
  have hrun' := hturns.mono fun _ _ h => h.1
  refine ⟨S, S', l, ((hrun.trans (run_opening hS₁)).trans (run_charging hS₂)).trans hrun',
    System.session_of_ended hl, by simp [hlocks], by rw [hpaid]; exact Nat.one_pos, hS', ?_⟩
  rw [hsubtotal, hlowered]
  decide

end RestiqBackend
