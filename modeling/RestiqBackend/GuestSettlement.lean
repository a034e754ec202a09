import RestiqBackend.Settlement

/-!
Guest shares and tenders.

Two ledgers are kept of what was paid on an open bill: the paid shares, and the
tenders. A guest's payment is entered in both, a card capture in the tenders only.
So the shares that are left settle the bill exactly when no card was captured on
it, and that is what this file shows, of one split and of paying all that it left.
-/

namespace RestiqBackend

open ReadCommitted

/-! ### The two ledgers -/

namespace Ledger

/-- The bill is still open, or there is none yet. -/
def Unsettled (L : Ledger) : Prop := ∀ b, L.bill = some b → b.status = .open

/-- The tenders that no intent backs. -/
def manualTenders (L : Ledger) : List Tender := L.tenders.filter isManual

def paidShares (L : Ledger) : List BillShare := L.shares.filter (·.status = .paid)

/-- Before a settlement, a bill's manual tenders are its guests' payments, and nobody
was asked by card for less than something. -/
structure Matched (L : Ledger) : Prop where
  payments : (L.manualTenders.map (·.amountMinor)).Perm (L.paidShares.map (·.amountMinor))
  cards : ∀ t ∈ L.tenders, isManual t = false → 1 ≤ t.amountMinor
  intents : ∀ i ∈ L.intents, 1 ≤ i.amountMinor
  undiscounted : ∀ b, L.bill = some b → b.discountMinor = none

theorem Move.unsettled_of {e : Entry} {L L' : Ledger} (h : L.Move e L') (h' : L'.Unsettled) :
    L.Unsettled := by
  intro b hb
  cases hstatus : b.status with
  | «open» => rfl
  | finalized =>
      have := h' b (h.finalized_keeps hb hstatus).1
      rw [hstatus] at this
      cases this

/-- A row changed by its key keeps a column's bound, if the change keeps the column. -/
theorem updateRows_forall {α : Type} {idOf : α → ℕ} {id : ℕ} {f : α → α} {rows : List α}
    {P : α → Prop} (hf : ∀ r, P r → P (f r)) (h : ∀ r ∈ rows, P r) :
    ∀ r ∈ updateRows idOf id f rows, P r := by
  intro r hr
  rcases mem_updateRows.mp hr with ⟨hr, _⟩ | ⟨r₀, hr₀, _, rfl⟩
  · exact h r hr
  · exact hf r₀ (h r₀ hr₀)

theorem Move.matched {e : Entry} {L L' : Ledger} (hwf : L.Wf) (hL : L.Unsettled → L.Matched)
    (h : L.Move e L') : L'.Unsettled → L'.Matched := by
  intro hopen'
  have hM := hL (h.unsettled_of hopen')
  cases h with
  | edit _ subtotal h0 h => exact ⟨hM.payments, hM.cards, hM.intents, hM.undiscounted⟩
  | switch _ profile simulator => exact ⟨hM.payments, hM.cards, hM.intents, hM.undiscounted⟩
  | create _ b hnone hopen hdisc =>
      refine ⟨hM.payments, hM.cards, hM.intents, fun b' hb' => ?_⟩
      rw [← Option.some.inj hb']
      exact hdisc
  | refresh _ b hb =>
      refine ⟨hM.payments, hM.cards, hM.intents, fun b' hb' => ?_⟩
      rw [← Option.some.inj hb', Bill.refreshed_discountMinor]
      exact hM.undiscounted b hb
  | raise _ b i hb hopen hfresh hid hpending hnone hpos hdue =>
      refine ⟨hM.payments, hM.cards, fun j hj => ?_, hM.undiscounted⟩
      rcases List.mem_append.mp hj with hj | hj
      · exact hM.intents j hj
      · rw [List.mem_singleton.mp hj]
        exact hpos
  | close _ id status reason h i hi hid hactive =>
      exact ⟨hM.payments, hM.cards, updateRows_forall (fun _ h => h) hM.intents, hM.undiscounted⟩
  | capture _ b i t at_ hb hopen hi hcap ht hamount =>
      have hcard : isManual t = false := by simp [isManual, ht]
      refine ⟨?_, fun t' ht' hmanual => ?_, updateRows_forall (fun _ h => h) hM.intents,
        hM.undiscounted⟩
      · show ((List.filter isManual (L.tenders ++ [t])).map _).Perm _
        rw [List.filter_append, List.filter_cons_of_neg (by simp [hcard]), List.filter_nil,
          List.append_nil]
        exact hM.payments
      · rcases List.mem_append.mp ht' with ht' | ht'
        · exact hM.cards t' ht' hmanual
        · rw [List.mem_singleton.mp ht', hamount]
          exact hM.intents i hi
  | flag _ b intents hb hfin hwf' =>
      have hstatus := hopen' b hb
      rw [hfin] at hstatus
      cases hstatus
  | sync _ b shares hb hopen hstep hsplit =>
      refine ⟨?_, hM.cards, hM.intents, hM.undiscounted⟩
      show (L.manualTenders.map _).Perm ((shares.filter _).map _)
      rw [hsplit.paid]
      exact hM.payments
  | pay _ b s t phone at_ hb hopen hfresh hstep hs hout ht hamount =>
      have hmanual : isManual t = true := by simp [isManual, ht]
      obtain ⟨before, after, hsplit, hupdated⟩ :=
        updateRows_split (f := (·.pay phone t.id at_)) hwf.share_ids hs
      refine ⟨?_, fun t' ht' hcard => ?_, hM.intents, hM.undiscounted⟩
      · show ((List.filter isManual (L.tenders ++ [t])).map _).Perm
          ((List.filter _ (updateRows BillShare.id s.id _ L.shares)).map _)
        have hpayments := hM.payments
        simp only [paidShares, hsplit, List.filter_append, List.filter_cons, hout,
          reduceCtorEq, decide_false, Bool.false_eq_true, if_false] at hpayments
        rw [hupdated]
        simp only [List.filter_append, List.filter_cons, hmanual, if_true, List.filter_nil,
          BillShare.pay, decide_true, List.map_append, List.map_cons, List.map_nil, hamount]
        rw [List.map_append] at hpayments
        exact (hpayments.append_right _).trans
          ((List.perm_append_singleton _ _).trans List.perm_middle.symm)
      · rcases List.mem_append.mp ht' with ht' | ht'
        · exact hM.cards t' ht' hcard
        · rw [List.mem_singleton.mp ht', hmanual] at hcard
          cases hcard
  | settle _ b b' tenders intents shares hb hsettles =>
      have hstatus := hopen' b' rfl
      rw [hsettles.finalized] at hstatus
      cases hstatus

/-- The tenders are the manual ones and the cards. -/
theorem tenderTotal_split (tenders : List Tender) :
    (tenders.map (·.amountMinor)).sum = ((tenders.filter isManual).map (·.amountMinor)).sum +
      ((tenders.filter fun t => !isManual t).map (·.amountMinor)).sum := by
  induction tenders with
  | nil => rfl
  | cons t ts ih =>
      cases hmanual : isManual t with
      | true =>
          simp only [List.filter_cons, hmanual, Bool.not_true, Bool.false_eq_true, if_true, if_false,
            List.map_cons, List.sum_cons, ih]
          omega
      | false =>
          simp only [List.filter_cons, hmanual, Bool.not_false, Bool.false_eq_true, if_true,
            if_false, List.map_cons, List.sum_cons, ih]
          omega

/-- The money taken is more than the paid shares by exactly the cards. -/
theorem Matched.tenderTotal {L : Ledger} (h : L.Matched) :
    L.tenderTotal = paidMinorOf L.shares +
      ((L.tenders.filter fun t => !isManual t).map (·.amountMinor)).sum := by
  rw [Ledger.tenderTotal, tenderTotal_split, paidMinorOf]
  exact congrArg (· + _) h.payments.sum_eq

theorem Matched.card_sum_eq_zero {L : Ledger} (h : L.Matched) :
    ((L.tenders.filter fun t => !isManual t).map (·.amountMinor)).sum = 0 ↔
      ∀ t ∈ L.tenders, t.paymentIntentId = none := by
  constructor
  · intro hsum t ht
    cases hid : t.paymentIntentId with
    | none => rfl
    | some id =>
        have hmem : t ∈ L.tenders.filter fun t => !isManual t :=
          List.mem_filter.mpr ⟨ht, by simp [isManual, hid]⟩
        have hpos : ∀ a ∈ (L.tenders.filter fun t => !isManual t).map (·.amountMinor), 0 ≤ a := by
          intro a ha
          obtain ⟨t', ht', rfl⟩ := List.mem_map.mp ha
          have := h.cards t' (List.mem_of_mem_filter ht') (by simpa using (List.mem_filter.mp ht').2)
          omega
        have hle := List.single_le_sum hpos _ (List.mem_map_of_mem hmem)
        have hone := h.cards t ht (by simp [isManual, hid])
        omega
  · intro hnone
    have : (L.tenders.filter fun t => !isManual t) = [] := by
      refine List.filter_eq_nil_iff.mpr fun t ht => ?_
      simp [isManual, hnone t ht]
    rw [this]
    rfl

end Ledger

theorem Store.Reachable.matched {v : Store} (h : v.Reachable) (hopen : v.ledger.Unsettled) :
    v.ledger.Matched := by
  obtain ⟨v₀, hplaced, hruns⟩ := h
  refine (hruns.ledger_preserves (fun _ _ _ _ _ _ hwf h hm => hm.matched hwf h) hplaced.priced
    hplaced.wf fun _ => ?_).2.2 hopen
  refine ⟨?_, ?_, ?_, ?_⟩
  · simp [Ledger.manualTenders, Ledger.paidShares, Store.ledger, hplaced.tenders, hplaced.shares]
  · simp [Store.ledger, hplaced.tenders]
  · simp [Store.ledger, hplaced.intents]
  · simp [Store.ledger, hplaced.bill]

/-! ### One split -/

/-- A split leaves the shares short of, or over, what is still owed by the cards that
were captured on the bill. -/
theorem outstanding_add_tenderTotal {L : Ledger} (h : L.Matched) {b : Bill}
    {shares : List BillShare} (hstep : InStep b shares)
    (hpaid : shares.filter (·.status = .paid) = L.paidShares) :
    outstandingMinorOf shares + L.tenderTotal =
      b.totalMinor + ((L.tenders.filter fun t => !Ledger.isManual t).map (·.amountMinor)).sum := by
  have hsame : paidMinorOf shares = paidMinorOf L.shares := by
    rw [paidMinorOf, hpaid, paidMinorOf, Ledger.paidShares]
  rw [hstep.sum, h.tenderTotal, hsame]
  omega

/-- The shares and the tenders of an open bill add up to its total exactly when no
card was captured on it. -/
theorem outstanding_add_tenderTotal_iff {L : Ledger} (h : L.Matched) {b : Bill}
    {shares : List BillShare} (hstep : InStep b shares)
    (hpaid : shares.filter (·.status = .paid) = L.paidShares) :
    outstandingMinorOf shares + L.tenderTotal = b.totalMinor ↔
      ∀ t ∈ L.tenders, t.paymentIntentId = none := by
  rw [outstanding_add_tenderTotal h hstep hpaid, ← h.card_sum_eq_zero]
  omega

/-! ### Paying what a split left -/

/-- What a table session that is over is answered with. -/
def sessionEnded : ApiError := ⟨.gone, "session_closed", "This table session has ended"⟩

/-- A bill that its guests can pay to the end: in step, with no card money on it. -/
structure Payable (guest : GuestPrincipal) (v : Store) (b : Bill) : Prop where
  bill : v.bill = some b
  isOpen : b.status = .open
  fresh : b = b.refreshed v.subtotal v.profile
  priced : v.Priced
  wf : v.ledger.Wf
  matched : v.ledger.Matched
  manual : ∀ t ∈ v.tenders, t.paymentIntentId = none
  simulator : v.simulatorOn = true
  inactive : v.activeIntents = []
  order : v.order.sessionId = some guest.sessionId
  session : ∃ x, v.session = some x ∧ x.id = guest.sessionId ∧ x.status = .open
  inStep : InStep b v.shares
  shared : v.SharedBy (guestWeights v.liveLines)

/-- The guests whose shares are still to be paid. -/
def Store.outstandingGuests (v : Store) : List ℕ :=
  (v.shares.filter (·.status = .outstanding)).map (·.guestId)

section Paying

variable {E : ApiError → Prop} {V : Env → Store → Prop} {v v' : Store} {b : Bill}

/-- A settlement's checks pass where the tenders are the total and nothing is pending. -/
theorem wlp_checkSettlement {params : CommitFinalizeParams}
    (hopen : params.bill.bill.status = .open) (hdiscount : params.discountMinor = none)
    (hsubtotal : 0 ≤ params.bill.bill.subtotalMinor) (hinactive : v.activeIntents = [])
    (hon : v.simulatorOn = true) (hcovered : v.tenderTotal = params.totalMinor none)
    {Q : Option ℤ × Option TaxResult → Store → Prop} (hQ : Q (none, none) v) :
    (checkSettlement params).wlp E V Q v := by
  have hpending : ∀ now, v.pendingIntents now = [] := fun now => by
    rw [Store.pendingIntents, hinactive]
    rfl
  have hsum : (v.tenders.map (·.amountMinor)).sum = params.totalMinor none := hcovered
  simp only [checkSettlement, assertNothingPending, countPendingIntents, assertNotSimulated,
    paymentsSimulatorFor, assertCovered, Txn.wlp_bind, Txn.wlp_clock, Txn.wlp_stmt, Txn.wlp_done,
    Txn.wlp_query, Txn.wlp_pure, wlp_raiseIf, applyAll_nil]
  rw [if_neg (by simp [hopen])]
  intro env _ _ _
  rw [if_neg (by simp [hpending])]
  intro _ _
  rw [if_pos hon, Txn.wlp_pure, if_neg (by simpa [hdiscount] using hsubtotal)]
  simp only [hdiscount, Option.getD_none, discountedTax, lt_self_iff_false, if_false, Txn.wlp_pure]
  intro _ _
  rw [if_pos hsum, hsum, Txn.wlp_bind, Txn.wlp_pure, settleRoundOff_exact]
  exact hQ

/-- Once the checks have passed, only a taken identifier can undo a settlement. -/
theorem wlp_writeSettlement (hE : E uniqueViolation) {params : CommitFinalizeParams}
    (hb : v.bill = some b) (hopen : b.status = .open) {Q : BillWithTenders → Store → Prop}
    (hQ : ∀ bill v', v'.billIs .finalized = true → Q bill v') :
    (writeSettlement params none none).wlp E V Q v := by
  simp only [writeSettlement, upsertBillNumberCounter, Txn.wlp_bind, Txn.wlp_stmt, Txn.wlp_done,
    Txn.wlp_clock, Txn.wlp_writeWhen, wlp_raiseIf, applyAll_cons, applyAll_nil, writeTo_apply]
  intro _ _ env _ _ _
  have hstill : (v.apply (.upsertBillNumberCounter (v.billNumberCounter.getD 0 + 1))).billIs .open =
      true := by
    simp [Store.billIs, Store.apply, hb, hopen]
  rw [if_pos hstill, if_neg (by simp)]
  refine Txn.wlp_mono (emits_wlp_frame (fireOnSend_emits _)
    ((fireOnSend_throws _).mono fun e he => he ▸ hE) _) fun _ v₁ hframe => ?_
  simp only [Txn.wlp_exec, applyAll_cons, applyAll_nil, writeTo_apply]
  intro _ _
  have hbill₁ : v₁.bill = some (b.finalize (v.billNumberCounter.getD 0 + 1) params.discountMinor
      params.discountReason none none params.finalizedByStaffId env.now) := by
    rw [show v₁.bill = _ from hframe .bills (by decide)]
    simp [Store.apply, hb]
  refine Txn.wlp_mono (emits_wlp_frame goLiveOnFirstSale_emits
    (goLiveOnFirstSale_throws.mono fun _ h => h.elim) _) fun _ v₂ hlive => ?_
  have hbill₂ := (show v₂.bill = v₁.bill from hlive .bills (by decide)).trans hbill₁
  refine wlp_loadBill hbill₂ (hQ _ v₂ ?_)
  simp [Store.billIs, hbill₂, Bill.finalize]

theorem wlp_completeBill (hE : E uniqueViolation) (hb : v.bill = some b) (hopen : b.status = .open)
    (hdiscount : b.discountMinor = none) (hsubtotal : 0 ≤ b.subtotalMinor)
    (hinactive : v.activeIntents = []) (hon : v.simulatorOn = true)
    (hcovered : v.tenderTotal = b.totalMinor) (order : Order) {Q : Unit → Store → Prop}
    (hQ : ∀ v', v'.billIs .finalized = true → Q () v') : (completeBill order).wlp E V Q v := by
  simp only [completeBill, commitFinalize, Txn.wlp_bind]
  refine wlp_loadBill hb (wlp_checkSettlement hopen rfl hsubtotal hinactive hon ?_ ?_)
  · rw [hcovered, Bill.totalMinor, hdiscount]
    rfl
  · refine wlp_writeSettlement hE hb hopen fun _ v' hfin => ?_
    split
    · simp only [Txn.wlp_exec, applyAll_cons, applyAll_nil, writeTo_apply]
      exact fun _ _ => hQ _ hfin
    · exact hQ v' hfin

theorem Store.refreshed_of_fresh (hb : v.bill = some b) (hfresh : b = b.refreshed v.subtotal v.profile) :
    v.refreshed = v := by
  have hself : { v with bill := some b } = v := by rw [← hb]
  rw [Store.refreshed, hb, Option.map_some, ← hfresh, hself]

/-- The first half of a guest's payment on a bill that can be paid. -/
theorem wlp_preparePayment {guest : GuestPrincipal} (hE : E uniqueViolation ∧ E sessionEnded)
    (h : Payable guest v b) {Q : BillWithTenders × Order × TableSession → Store → Prop}
    (hQ : ∀ bill session v', Synced b v v' → Q (bill, v.order, session) v') :
    (preparePayment guest).wlp E V Q v := by
  obtain ⟨x, hx, hxid, hxopen⟩ := h.session
  simp only [preparePayment, assertGuestPaymentsAvailable, paymentsSimulatorFor, lockBill,
    loadOrderForSession, assertSessionActive, Txn.wlp_bind, Txn.wlp_query, Txn.wlp_exec,
    Txn.wlp_pure, wlp_raiseIf, applyAll_nil]
  intro _ _
  rw [if_neg (by simp [h.simulator])]
  intro _ _
  refine wlp_loadBill h.bill (wlp_refresh h.bill ?_)
  rw [← h.fresh, Store.refreshed_of_fresh h.bill h.fresh]
  intro _ _
  rw [if_neg (by simp [h.order]), if_neg (by simp [h.isOpen])]
  intro _ _
  simp only [hx, Option.filter_some, hxid, decide_true, if_true, Txn.wlp_bind, Txn.wlp_clock,
    wlp_raiseIf]
  intro env _
  split
  · exact hE.2
  · have hnonneg : 0 ≤ outstandingMinorOf v.shares := by
      refine List.sum_nonneg fun a ha => ?_
      obtain ⟨s, hs, rfl⟩ := List.mem_map.mp ha
      obtain ⟨hs, hout⟩ := List.mem_filter.mp hs
      exact h.inStep.nonneg s hs (by simpa using hout)
    have hdue := h.inStep.sum
    rw [Txn.wlp_pure]
    refine Txn.wlp_mono (wlp_syncShares h.isOpen (fun l hl => ?_) h.wf.share_ids h.wf.share_guests
      (Or.inl hE.1) (Or.inr ⟨hdue ▸ hnonneg, fun hpos => ?_⟩)) fun _ v' hsynced => ?_
    · exact OrderLine.totalMinor_nonneg (h.priced.prices l (List.mem_of_mem_filter hl))
    · by_contra hnone
      have hnil : v.shares.filter (·.status = .outstanding) = [] :=
        List.filter_eq_nil_iff.mpr fun s hs hout => hnone ⟨s, hs, by simpa using hout⟩
      rw [← hdue, outstandingMinorOf, hnil] at hpos
      exact lt_irrefl 0 hpos
    · exact hQ _ x v' hsynced

/-- Paying a share moves its amount from one side of the split to the other. -/
theorem InStep.pay {shares : List BillShare} {s : BillShare} (h : InStep b shares)
    (hids : (shares.map (·.id)).Nodup) (hs : s ∈ shares) (hout : s.status = .outstanding)
    (phone : Option String) (tenderId : ℕ) (at_ : ℤ) :
    InStep b (updateRows BillShare.id s.id (·.pay phone tenderId at_) shares) := by
  obtain ⟨before, after, hsplit, hupdated⟩ :=
    updateRows_split (f := (·.pay phone tenderId at_)) hids hs
  refine ⟨?_, fun x hx hxout => ?_⟩
  · have hsum := h.sum
    rw [hupdated]
    rw [hsplit] at hsum
    simp only [outstandingMinorOf, paidMinorOf, List.filter_append, List.filter_cons, hout,
      BillShare.pay, reduceCtorEq, decide_true, decide_false, Bool.false_eq_true, if_true, if_false,
      List.map_append, List.map_cons, List.sum_append, List.sum_cons] at hsum ⊢
    omega
  · rcases mem_updateRows.mp hx with ⟨hx, _⟩ | ⟨y, _, _, rfl⟩
    · exact h.nonneg x hx hxout
    · cases hxout

theorem outstandingGuests_pay {s : BillShare} (hids : (v.shares.map (·.id)).Nodup)
    (hs : s ∈ v.shares) (hout : s.status = .outstanding) {phone : Option String} {tenderId : ℕ}
    {at_ : ℤ} (hshares : v'.shares = updateRows BillShare.id s.id (·.pay phone tenderId at_) v.shares) :
    v.outstandingGuests.Perm (s.guestId :: v'.outstandingGuests) := by
  obtain ⟨before, after, hsplit, hupdated⟩ :=
    updateRows_split (f := (·.pay phone tenderId at_)) hids hs
  rw [Store.outstandingGuests, Store.outstandingGuests, hshares, hupdated, hsplit]
  simp only [List.filter_append, List.filter_cons, hout, BillShare.pay, reduceCtorEq, decide_true,
    decide_false, Bool.false_eq_true, if_true, if_false, List.map_append, List.map_cons]
  exact List.perm_middle

/-- A bill that can be paid still can after its shares were split again. -/
theorem Payable.synced {guest : GuestPrincipal} (h : Payable guest v b) (hsynced : Synced b v v') :
    Payable guest v' b := by
  have hframe := hsynced.frame
  obtain ⟨hledger, hlines⟩ := hframe.ledger_rows (by decide)
  have htenders : v'.tenders = v.tenders := hframe .tenders (by decide)
  have hintents : v'.intents = v.intents := hframe .paymentIntents (by decide)
  have hbill : v'.bill = v.bill := hframe .bills (by decide)
  have hsession : v'.session = v.session := hframe .tableSessions (by decide)
  have horder : v'.order = v.order := hframe .orders (by decide)
  have hsub : v'.subtotal = v.subtotal := congrArg Ledger.subtotal hledger
  have hprofile : v'.profile = v.profile := congrArg Ledger.profile hledger
  have hon : v'.simulatorOn = v.simulatorOn := congrArg Ledger.simulator hledger
  rw [hbill, htenders, hintents] at hledger
  have hmove : v.ledger.Move .plain v'.ledger := by
    rw [hledger]
    exact .sync v.ledger b _ h.bill h.isOpen hsynced.inStep hsynced.resplit
  have hunsettled : v'.ledger.Unsettled := by
    intro b' hb'
    rw [hledger] at hb'
    rw [← Option.some.inj (h.bill.symm.trans hb')]
    exact h.isOpen
  exact
    { bill := hbill.trans h.bill
      isOpen := h.isOpen
      fresh := by rw [hsub, hprofile]; exact h.fresh
      priced := ⟨by simpa [hlines] using h.priced.prices, by simpa [hlines] using h.priced.ids⟩
      wf := hmove.wf h.wf
      matched := hmove.matched h.wf (fun _ => h.matched) hunsettled
      manual := htenders ▸ h.manual
      simulator := hon.trans h.simulator
      inactive := by
        rw [Store.activeIntents, hintents]
        exact h.inactive
      order := by rw [horder]; exact h.order
      session := by rw [hsession]; exact h.session
      inStep := hsynced.inStep
      shared := by
        rw [Store.liveLines, hlines]
        exact hsynced.shared }

/-- One payment more, on a bill that can still be paid. -/
theorem Payable.paid {guest : GuestPrincipal} (h : Payable guest v b) {s : BillShare}
    (hs : s ∈ v.shares) (hout : s.status = .outstanding) {t : Tender}
    (ht : t.paymentIntentId = none) (hamount : t.amountMinor = s.amountMinor)
    (phone : Option String) (at_ : ℤ) :
    Payable guest ((v.apply (.createTender t)).apply (.payShare s.id phone t.id at_)) b := by
  have hmove : v.ledger.Move (.share t.id)
      ((v.apply (.createTender t)).apply (.payShare s.id phone t.id at_)).ledger :=
    .pay v.ledger b s t phone at_ h.bill h.isOpen h.fresh h.inStep hs hout ht hamount
  have hunsettled : ((v.apply (.createTender t)).apply
      (.payShare s.id phone t.id at_)).ledger.Unsettled := by
    intro b' hb'
    rw [← Option.some.inj (h.bill.symm.trans hb')]
    exact h.isOpen
  refine
    { bill := h.bill, isOpen := h.isOpen, fresh := h.fresh, priced := ⟨h.priced.1, h.priced.2⟩
      wf := hmove.wf h.wf
      matched := hmove.matched h.wf (fun _ => h.matched) hunsettled
      manual := fun t' ht' => ?_
      simulator := h.simulator, inactive := h.inactive, order := h.order, session := h.session
      inStep := h.inStep.pay h.wf.share_ids hs hout phone t.id at_
      shared := fun w hw => ?_ }
  · rcases List.mem_append.mp ht' with ht' | ht'
    · exact h.manual t' ht'
    · rw [List.mem_singleton.mp ht']
      exact ht
  · obtain ⟨x, hx, hguest⟩ := h.shared w hw
    by_cases hid : x.id = s.id
    · exact ⟨_, mem_updateRows.mpr (Or.inr ⟨x, hx, hid, rfl⟩), hguest⟩
    · exact ⟨x, mem_updateRows.mpr (Or.inl ⟨hx, hid⟩), hguest⟩

/-- Where nothing is outstanding, the tenders of a payable bill are its total. -/
theorem Payable.covered {guest : GuestPrincipal} (h : Payable guest v b)
    (hnone : v.outstandingGuests = []) : v.tenderTotal = b.totalMinor := by
  have hcards := (h.matched.card_sum_eq_zero).mpr h.manual
  have htotal : v.tenderTotal = paidMinorOf v.shares + _ := h.matched.tenderTotal
  have hnil : v.shares.filter (·.status = .outstanding) = [] := List.map_eq_nil_iff.mp hnone
  have hsum := h.inStep.sum
  rw [outstandingMinorOf, hnil, List.map_nil, List.sum_nil] at hsum
  rw [htotal, hcards]
  omega

theorem Payable.subtotal_nonneg {guest : GuestPrincipal} (h : Payable guest v b) :
    0 ≤ b.subtotalMinor := by
  rw [h.fresh, Bill.refreshed_subtotalMinor h.isOpen]
  exact h.priced.subtotal_nonneg

theorem wlp_buildView {Q : GuestBillView → Store → Prop} (hb : v.bill.isSome = true)
    (hQ : ∀ view, Q view v) : buildView.wlp E V Q v := by
  obtain ⟨b, hb⟩ := Option.isSome_iff_exists.mp hb
  simp only [buildView, guestView, loadShareViews, paymentsSimulatorFor, Txn.wlp_bind]
  refine wlp_loadBill hb ?_
  simp only [Txn.wlp_query, Txn.wlp_pure]
  exact fun _ _ _ _ => hQ _

/-- What a payment by `guestId` leaves: either it was the last and the bill is settled,
or the bill can still be paid, with one guest fewer to pay. -/
def PaidBy (guest : GuestPrincipal) (b : Bill) (guestId : ℕ) (v v' : Store) : Prop :=
  (v'.billIs .finalized = true ∧ v.outstandingGuests = [guestId]) ∨
    (Payable guest v' b ∧ v'.outstandingGuests ≠ [] ∧
      v.outstandingGuests.Perm (guestId :: v'.outstandingGuests))

theorem PaidBy.isSome {guest : GuestPrincipal} {guestId : ℕ} (h : PaidBy guest b guestId v v') :
    v'.bill.isSome = true := by
  rcases h with ⟨hfin, _⟩ | ⟨hpay, _⟩
  · cases hb : v'.bill with
    | none => simp [Store.billIs, hb] at hfin
    | some b => rfl
  · rw [hpay.bill]
    rfl

theorem wlp_takeShare {guest : GuestPrincipal} (hE : E uniqueViolation) (h : Payable guest v b)
    {s : BillShare} (hs : s ∈ v.shares) (hout : s.status = .outstanding) (order : Order)
    (phone : Option String) :
    (takeShare order s phone).wlp E V (fun _ v' => PaidBy guest b s.guestId v v') v := by
  simp only [takeShare, createTenderRecord, markSharePaid, Txn.wlp_bind, Txn.wlp_uuid,
    Txn.wlp_clock, Txn.wlp_writeWhen, Txn.wlp_query]
  intro env _
  set t : Tender := ({ method := .upiManual, amountMinor := s.amountMinor } : TenderParams).row
    env.uuid with ht
  rw [if_pos (by simp [ht, TenderParams.row, Tender.checks])]
  simp only [Txn.wlp_bind, wlp_insertRow, Txn.wlp_pure]
  intro _ _
  split
  · exact hE
  · intro env' _ _ _
    have hany : ((v.apply (.createTender t)).shares.any fun x => decide (x.id = s.id)) = true :=
      List.any_eq_true.mpr ⟨s, hs, decide_eq_true rfl⟩
    have hpaid := h.paid hs hout (t := t) rfl rfl phone env'.now
    have hperm : v.outstandingGuests.Perm (s.guestId :: ((v.apply (.createTender t)).apply
        (.payShare s.id phone t.id env'.now)).outstandingGuests) :=
      outstandingGuests_pay h.wf.share_ids hs hout rfl
    rw [if_pos hany]
    simp only [if_true, Txn.wlp_pure, applyAll_cons, applyAll_nil, writeTo_apply]
    intro _ _
    by_cases hlast : ((v.apply (.createTender t)).apply
        (.payShare s.id phone t.id env'.now)).shares.countP (·.status = .outstanding) = 0
    · rw [if_pos hlast]
      have hnone : ((v.apply (.createTender t)).apply
          (.payShare s.id phone t.id env'.now)).outstandingGuests = [] := by
        rw [List.countP_eq_length_filter] at hlast
        rw [Store.outstandingGuests, List.eq_nil_of_length_eq_zero hlast, List.map_nil]
      refine wlp_completeBill hE hpaid.bill hpaid.isOpen (hpaid.matched.undiscounted b hpaid.bill)
        hpaid.subtotal_nonneg hpaid.inactive hpaid.simulator (hpaid.covered hnone) _ fun v₂ hfin => ?_
      rw [hnone] at hperm
      exact Or.inl ⟨hfin, List.perm_singleton.mp hperm⟩
    · rw [if_neg hlast]
      refine Or.inr ⟨hpaid, fun hnil => hlast ?_, hperm⟩
      rw [List.countP_eq_length_filter, List.map_eq_nil_iff.mp hnil, List.length_nil]

/-- **One payment.** With success, a guest with an outstanding share pays it. -/
theorem wlp_payShare {guest : GuestPrincipal} (hE : E uniqueViolation ∧ E sessionEnded)
    (h : Payable guest v b) {guestId : ℕ} (hguest : guestId ∈ v.outstandingGuests)
    (phone : Option String) :
    (payShare guest guestId ⟨.success, phone⟩).wlp E V (fun _ v' => PaidBy guest b guestId v v')
      v := by
  simp only [payShare, Txn.wlp_bind, Txn.wlp_query]
  refine wlp_preparePayment hE h fun _ session v₁ hsynced => ?_
  intro _ _
  have h₁ := h.synced hsynced
  -- The same guests have the same shares to pay, at the amounts of the new split.
  have hsame : v₁.outstandingGuests = v.outstandingGuests := by
    have hkeys := congrArg (fun keys => (keys.filter fun k : ℕ × ℕ × BillShareStatus =>
      decide (k.2.2 = .outstanding)).map (·.2.1)) (hsynced.keys h.shared)
    simpa [List.filter_map, Function.comp_def, BillShare.key, Store.outstandingGuests] using hkeys
  rw [← hsame] at hguest
  obtain ⟨s, hs, rfl⟩ := List.mem_map.mp hguest
  obtain ⟨hs, hout⟩ := List.mem_filter.mp hs
  have hout : s.status = .outstanding := by simpa using hout
  have hfind : v₁.shares.find? (·.guestId = s.guestId) = some s :=
    find?_key h₁.wf.share_guests hs
  simp only [hfind, Txn.wlp_bind, wlp_raiseIf, hout, reduceCtorEq, if_false, onSuccess]
  refine Txn.wlp_mono (wlp_takeShare hE.1 h₁ hs hout _ phone) fun _ v₂ hpaid => ?_
  refine wlp_buildView hpaid.isSome fun _ => ?_
  rw [PaidBy, hsame] at hpaid
  exact hpaid

end Paying

/-! ### Paying every share, in any order -/

/-- A request to pay each guest's share with success, in the order given. -/
def payEach (guest : GuestPrincipal) (phone : Option String) (payers : List (ℕ × (ℕ → Env))) :
    List (Op × (ℕ → Env)) :=
  payers.map fun p => (.payShare guest p.1 ⟨.success, phone⟩, p.2)

/-- How a sequence of payments ends that only the outside world can stop. -/
def SettlesUnlessStopped : Except ApiError Store → Prop
  | .ok v => v.billIs .finalized = true
  | .error e => e = uniqueViolation ∨ e = sessionEnded

theorem payEach_settles {guest : GuestPrincipal} {phone : Option String}
    {payers : List (ℕ × (ℕ → Env))} {v : Store} {b : Bill} (h : Payable guest v b)
    (hne : payers ≠ []) (hperm : v.outstandingGuests.Perm (payers.map (·.1))) :
    SettlesUnlessStopped (v.handle (payEach guest phone payers)) := by
  induction payers generalizing v with
  | nil => exact absurd rfl hne
  | cons p payers ih =>
      obtain ⟨guestId, envs⟩ := p
      have hguest : guestId ∈ v.outstandingGuests := hperm.mem_iff.mpr List.mem_cons_self
      have hpay : (Op.payShare guest guestId ⟨.success, phone⟩).prog.wlp
          (fun e => e = uniqueViolation ∨ e = sessionEnded) (fun _ _ => True)
          (fun _ v' => PaidBy guest b guestId v v') v := by
        rw [Op.prog, Txn.wlp_void]
        exact wlp_payShare ⟨Or.inl rfl, Or.inr rfl⟩ h hguest phone
      have hrun := Txn.wlp_run hpay envs (fun _ _ => trivial) 0
      rw [payEach, List.map_cons]
      cases hresult : (Op.payShare guest guestId ⟨.success, phone⟩).prog.run envs 0 v with
      | error e =>
          rw [hresult] at hrun
          rw [Store.handle_error hresult]
          exact hrun
      | ok r =>
          obtain ⟨⟨⟩, v'⟩ := r
          rw [hresult] at hrun
          rw [Store.handle_ok hresult]
          rcases hrun with ⟨hfin, hlast⟩ | ⟨hpay, hmore, hrest⟩
          · -- The last guest paid: nobody is left in the list.
            have hnil : payers.map (·.1) = [] := by
              have := hperm.length_eq
              simp only [hlast, List.map_cons, List.length_cons, List.length_nil] at this
              exact List.eq_nil_of_length_eq_zero (by omega)
            rw [List.map_eq_nil_iff.mp hnil]
            exact hfin
          · have hperm' : v'.outstandingGuests.Perm (payers.map (·.1)) :=
              List.Perm.cons_inv (hrest.symm.trans hperm)
            refine ih hpay (fun hnil => hmore ?_) hperm'
            rw [hnil, List.map_nil] at hperm'
            exact hperm'.eq_nil

/-- The order is of a table session that is still open. -/
def Store.InSession (v : Store) (guest : GuestPrincipal) : Prop :=
  v.order.sessionId = some guest.sessionId ∧
    ∃ x, v.session = some x ∧ x.id = guest.sessionId ∧ x.status = .open

/-- **Guest shares settle the bill exactly where no card was captured on it.** After a
split of a reachable bill's current total, the outstanding shares and all the tenders
add up to it, and paying every outstanding share in any order settles it, if and only
if no tender of the bill is backed by a payment intent. -/
theorem shares_settle_iff {v : Store} (h : v.Reachable) {b : Bill} (hb : v.bill = some b)
    (hopen : b.status = .open) (hfresh : b = b.refreshed v.subtotal v.profile)
    {tenders : List Tender} {envs : ℕ → Env} {n : ℕ} {v' : Store}
    (hsync : (syncShares ⟨b, tenders⟩).run envs n v = .ok ((), v')) :
    (outstandingMinorOf v'.shares + v'.tenderTotal = b.totalMinor ∧
      ∀ guest phone payers, v'.simulatorOn = true → v'.activeIntents = [] → v'.InSession guest →
        payers ≠ [] → v'.outstandingGuests.Perm (payers.map (·.1)) →
        SettlesUnlessStopped (v'.handle (payEach guest phone payers))) ↔
      ∀ t ∈ v.tenders, t.paymentIntentId = none := by
  obtain ⟨hpriced, hwf⟩ := h.books
  have hunsettled : v.ledger.Unsettled := fun b' hb' => by
    rw [← Option.some.inj (hb.symm.trans hb')]
    exact hopen
  have hmatched := h.matched hunsettled
  have hcommits : (syncShares ⟨b, tenders⟩).commits (fun _ v' => Synced b v v') v :=
    wlp_syncShares hopen
      (fun l hl => OrderLine.totalMinor_nonneg (hpriced.prices l (List.mem_of_mem_filter hl)))
      hwf.share_ids hwf.share_guests (Or.inl trivial) (Or.inl fun _ => trivial)
  have hsynced := Txn.commits_run hcommits hsync
  have htenders : v'.tenders = v.tenders := hsynced.frame .tenders (by decide)
  have hsum := outstanding_add_tenderTotal_iff hmatched hsynced.inStep hsynced.resplit.paid
  rw [Store.tenderTotal, htenders]
  constructor
  · exact fun hclaim => hsum.mp hclaim.1
  · intro hmanual
    refine ⟨hsum.mpr hmanual, fun guest phone payers hon hinactive hsession hne hperm => ?_⟩
    obtain ⟨hledger, hlines⟩ := hsynced.frame.ledger_rows (by decide)
    have hposts : Posts (· = .plain) v v' := hsynced.posts (P := (· = .plain)) rfl hpriced hb hopen
    have hbill : v'.bill = some b := (hsynced.frame .bills (by decide)).trans hb
    have hsub : v'.subtotal = v.subtotal := congrArg Ledger.subtotal hledger
    have hprofile : v'.profile = v.profile := congrArg Ledger.profile hledger
    have hunsettled' : v'.ledger.Unsettled := fun b' hb' => by
      rw [← Option.some.inj (hbill.symm.trans hb')]
      exact hopen
    obtain ⟨_, es, hes, _⟩ := id hposts
    have hmatched' := hes.preserves_of (I := fun L => L.Unsettled → L.Matched)
      (fun e L L' _ hwf h hm => hm.matched hwf h) hwf (fun _ => hmatched) hunsettled'
    refine payEach_settles (b := b) ?_ hne hperm
    exact
      { bill := hbill, isOpen := hopen
        fresh := by rw [hsub, hprofile]; exact hfresh
        priced := hposts.1
        wf := hposts.wf hwf
        matched := hmatched'
        manual := htenders ▸ hmanual
        simulator := hon, inactive := hinactive, order := hsession.1, session := hsession.2
        inStep := hsynced.inStep
        shared := by
          rw [Store.liveLines, hlines]
          exact hsynced.shared }

/-- The sample order with its bill split between its two guests. -/
def sampleSplit : Store := sampleOrder.after [(.guestCreateBill sampleGuest, ticking 100)]

/-- The same bill after a part of it was paid by card at the till. -/
def sampleSplitCard : Store :=
  sampleSplit.after [(.createIntent ⟨.cardTerminal, 10000, "till", none, by decide⟩, ticking 200),
    (.simulate 211 .success, ticking 300)]

theorem sampleSplit_reachable : sampleSplit.Reachable :=
  ⟨sampleOrder, sampleOrder_placed, .of_after rfl fun _ _ => trivial⟩

theorem sampleSplitCard_reachable : sampleSplitCard.Reachable :=
  ⟨sampleOrder, sampleOrder_placed,
    (Runs.of_after rfl fun _ _ => trivial).trans (.of_after rfl fun _ _ => trivial)⟩

theorem shares_settle_iff_sample :
    ∃ b v', sampleSplit.bill = some b ∧
      (syncShares ⟨b, []⟩).run (ticking 200) 0 sampleSplit = .ok ((), v') ∧
      outstandingMinorOf v'.shares + v'.tenderTotal = b.totalMinor ∧
      SettlesUnlessStopped
        (v'.handle (payEach sampleGuest none [(2, ticking 300), (1, ticking 400)])) := by
  have hsync : (syncShares ⟨sampleSplit.bill.get rfl, []⟩).run (ticking 200) 0 sampleSplit =
      .ok ((), _) := rfl
  have h := (shares_settle_iff sampleSplit_reachable rfl rfl rfl hsync).mpr fun t ht => nomatch ht
  exact ⟨_, _, rfl, rfl, h.1, h.2 sampleGuest none _ rfl rfl ⟨rfl, _, rfl, rfl, rfl⟩ (by simp)
    (by decide)⟩

/-- The card money is counted among the tenders and not among the shares: together
they are over the total by it, and the guest who pays last is refused. -/
theorem card_leaves_shares_over :
    sampleSplitCard.Reachable ∧ ∃ b v', sampleSplitCard.bill = some b ∧ b.status = .open ∧
      b = b.refreshed sampleSplitCard.subtotal sampleSplitCard.profile ∧
      (syncShares ⟨b, sampleSplitCard.tenders⟩).run (ticking 400) 0 sampleSplitCard = .ok ((), v') ∧
      outstandingMinorOf v'.shares + v'.tenderTotal = b.totalMinor + 10000 ∧
      v'.simulatorOn = true ∧ v'.activeIntents = [] ∧ v'.InSession sampleGuest ∧
      v'.outstandingGuests = [1, 2] ∧
      ∃ e, v'.handle (payEach sampleGuest none [(1, ticking 500), (2, ticking 600)]) = .error e ∧
        e.code = "tender_mismatch" :=
  ⟨sampleSplitCard_reachable, _, _, rfl, rfl, rfl, rfl, by decide, rfl, rfl,
    ⟨rfl, _, rfl, rfl, rfl⟩, rfl, _, rfl, rfl⟩

end RestiqBackend
