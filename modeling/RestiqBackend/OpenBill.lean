import RestiqBackend.GuestSettlement

/-!
Money on an open bill.

What was taken and what is promised on an open bill is no more than the bill comes
to, with one deliberate exception: an intent that expired may still be captured, and
its money is recorded whatever the bill comes to by then. So the tenders of an open
bill are at most its total and the late captures.

A guest's payment counts here while the bill has no card money and nothing pending:
what it does to a bill that has is the subject of `GuestSettlement`.
-/

namespace RestiqBackend

open ReadCommitted

/-- What an entry brings in late. -/
def Entry.lateMinor : Entry → ℤ
  | .capture amountMinor true => amountMinor
  | _ => 0

/-! ### What a bill comes to -/

theorem TenantTaxProfile.taxOn_pricesIncludeTax (profile : TenantTaxProfile) (s s' : ℤ) :
    (profile.taxOn s).pricesIncludeTax = (profile.taxOn s').pricesIncludeTax :=
  computeTax_pricesIncludeTax ⟨profile.country, profile.taxProfile, profile.compositionScheme,
    profile.gstRegistered, s', profile.gstRatePercent, profile.gstSplitRounding⟩ s

namespace Ledger

/-- What is promised by the intents that are still open. -/
def promised (L : Ledger) : ℤ := (L.activeIntents.map (·.amountMinor)).sum

/-- The bill's prices include its tax just where the registration says so. -/
def Inclusive (L : Ledger) : Prop :=
  ∀ b, L.bill = some b → b.pricesIncludeTax = (L.profile.taxOn L.subtotal).pricesIncludeTax

/-- No tender is backed by an intent, and no intent is open. -/
def CardFree (L : Ledger) : Prop :=
  (∀ t ∈ L.tenders, t.paymentIntentId = none) ∧ L.activeIntents = []

theorem due_nonneg {L : Ledger} (h : 0 ≤ L.subtotal) : 0 ≤ L.due := by
  have := L.profile.taxOn_nonneg h
  unfold due computeTotalMinor
  split <;> omega

/-- A bill of more comes to no less. -/
theorem due_mono {L : Ledger} {subtotal : ℤ} (h : 0 ≤ L.subtotal) (hle : L.subtotal ≤ subtotal) :
    L.due ≤ due { L with subtotal } := by
  have hincl := L.profile.taxOn_pricesIncludeTax subtotal L.subtotal
  unfold due computeTotalMinor
  dsimp only
  rw [hincl]
  split
  · omega
  · rename_i hexcl
    have hmono : (L.profile.taxOn L.subtotal).taxMinor ≤ (L.profile.taxOn subtotal).taxMinor :=
      computeTax_mono _ _ h hle rfl (Bool.eq_false_of_not_eq_true hexcl)
    omega

/-- A bill that is in step with its lines, and not discounted, says what is due. -/
theorem due_eq {L : Ledger} {b : Bill} (hb : L.bill = some b) (hopen : b.status = .open)
    (hfresh : b = b.refreshed L.subtotal L.profile) (hincl : L.Inclusive)
    (hdisc : b.discountMinor = none) : b.totalMinor = L.due := by
  have hsub : b.subtotalMinor = L.subtotal := by
    rw [hfresh, Bill.refreshed_subtotalMinor hopen]
  have htax : b.taxMinor = (L.profile.taxOn L.subtotal).taxMinor := by
    rw [hfresh, Bill.refreshed_taxMinor hopen]
  rw [Bill.totalMinor, due, hsub, htax, hincl b hb, hdisc, Option.getD_none]

/-- Closing or capturing an intent takes its promise back. -/
theorem promised_update {L : Ledger} (hnd : (L.intents.map (·.id)).Nodup) {i : PaymentIntent}
    (hi : i ∈ L.intents) (status : PaymentIntentStatus) (reason : Option String) (at_ : Option ℤ)
    (hstatus : status.isActive = false) :
    promised { L with
        intents := updateRows PaymentIntent.id i.id (·.update status reason at_) L.intents } +
      (if i.isActive then i.amountMinor else 0) = L.promised := by
  obtain ⟨before, after, hsplit, hupdated⟩ :=
    updateRows_split (f := (·.update status reason at_)) hnd hi
  have hinactive : (i.update status reason at_).isActive = false := hstatus
  unfold promised activeIntents
  dsimp only
  rw [hupdated, hsplit]
  simp only [List.filter_append, List.filter_cons, hinactive, Bool.false_eq_true, if_false,
    List.map_append, List.sum_append]
  split
  · simp only [List.map_cons, List.sum_cons]
    omega
  · omega

/-! ### One entry -/

/-- The books of an open bill, with no more taken and promised than is due and was
captured late. -/
structure Bounded (L : Ledger) (late : ℤ) : Prop where
  matched : L.Matched
  inclusive : L.Inclusive
  bound : L.tenderTotal + L.promised ≤ L.due + late

theorem Move.inclusive {e : Entry} {L L' : Ledger} (h : L.Move e L') (he : e ≠ .outside)
    (hL : L.Inclusive) : L'.Inclusive := by
  intro b' hb'
  cases h with
  | edit _ subtotal h0 h => exact (hL b' hb').trans (L.profile.taxOn_pricesIncludeTax _ _)
  | switch _ profile simulator => exact absurd rfl he
  | create _ b hnone hopen hdisc hincl hsound =>
      rw [← Option.some.inj hb']
      exact hincl
  | refresh _ b hb =>
      rw [← Option.some.inj hb']
      by_cases hself : b.status ≠ .open ∨ b.InTune L.subtotal L.profile
      · rw [Bill.refreshed_eq_self hself]
        exact hL b hb
      · obtain ⟨hopen, htune⟩ := not_or.mp hself
        rw [Bill.refreshed_eq_withTotals (not_not.mp hopen) htune]
        rfl
  | settle _ b b'' tenders intents shares hb hsettles =>
      rw [← Option.some.inj hb', hsettles.pricesIncludeTax]
      exact hL b hb
  | _ => exact hL b' hb'

/-- A card-free bill stays so while nothing is raised and nothing captured. -/
theorem Move.cardFree {e : Entry} {L L' : Ledger} (h : L.Move e L') (hopen' : L'.Unsettled)
    (he : e = .plain ∨ (∃ id, e = .share id) ∨ e = .settle) (hL : L.CardFree) : L'.CardFree := by
  cases h with
  | switch _ profile simulator => simp at he
  | raise _ b i hb => simp at he
  | capture _ b i t at_ hb hopen hi hcap ht hamount => simp at he
  | settle _ b b'' tenders intents shares hb hsettles =>
      have hstatus := hopen' b'' rfl
      rw [hsettles.finalized] at hstatus
      cases hstatus
  | close _ id status reason h i hi hid hactive =>
      have : i ∈ L.activeIntents := List.mem_filter.mpr ⟨hi, hactive⟩
      rw [hL.2] at this
      simp at this
  | flag _ b intents hb hfin hwf =>
      have hopen := hopen' b hb
      rw [hfin] at hopen
      cases hopen
  | pay _ b s t phone at_ hb hopen hfresh hstep hs hout ht hamount =>
      refine ⟨fun t' ht' => ?_, hL.2⟩
      rcases List.mem_append.mp ht' with ht' | ht'
      · exact hL.1 t' ht'
      · rw [List.mem_singleton.mp ht']
        exact ht
  | _ => exact hL

theorem tenderTotal_append (L : Ledger) (t : Tender) :
    ((L.tenders ++ [t]).map (·.amountMinor)).sum = L.tenderTotal + t.amountMinor := by
  simp [tenderTotal]

/-- **One entry.** What is taken and promised on an open bill stays within what is due
and was captured late. -/
theorem Move.bounded {e : Entry} {L L' : Ledger} {late : ℤ} (h : L.Move e L') (hwf : L.Wf)
    (he : e ≠ .outside) (hfree : ∀ id, e = .share id → L.CardFree) (hlate : 0 ≤ late)
    (hL : L.Unsettled → L.Bounded late) : L'.Unsettled → L'.Bounded (late + e.lateMinor) := by
  intro hopen'
  have hB := hL (h.unsettled_of hopen')
  refine ⟨h.matched hwf (fun hopen => (hL hopen).matched) hopen', h.inclusive he hB.inclusive, ?_⟩
  have hbound := hB.bound
  cases h with
  | edit _ subtotal h0 h =>
      change L.tenderTotal + L.promised ≤ due { L with subtotal } + (late + 0)
      rcases h with hle | ⟨htenders, hactive⟩
      · have := due_mono hwf.subtotal_nonneg hle
        omega
      · -- Nothing was taken and nothing is promised.
        have hdue : 0 ≤ due { L with subtotal } := due_nonneg h0
        have htaken : L.tenderTotal = 0 := by rw [tenderTotal, htenders]; rfl
        have hpromised : L.promised = 0 := by rw [promised, hactive]; rfl
        omega
  | switch _ profile simulator => exact absurd rfl he
  | create _ b hnone hopen => exact (add_zero late).symm ▸ hbound
  | refresh _ b hb => exact (add_zero late).symm ▸ hbound
  | raise _ b i hb hopen hfresh hid hpending hnone hpos hdue =>
      have htotal := due_eq hb hopen hfresh hB.inclusive (hB.matched.undiscounted b hb)
      have hpromised : promised { L with intents := L.intents ++ [i] } = i.amountMinor := by
        have hactive : i.isActive = true := by
          simp [PaymentIntent.isActive, PaymentIntentStatus.isActive, hpending]
        unfold promised activeIntents
        dsimp only
        rw [List.filter_append, show L.intents.filter (·.isActive) = [] from hnone]
        simp [hactive]
      change L.tenderTotal + promised { L with intents := L.intents ++ [i] } ≤ L.due + (late + 0)
      rw [hpromised]
      omega
  | close _ id status reason h i hi hid hactive =>
      subst hid
      have hstatus : status.isActive = false := by
        rcases h with rfl | rfl | rfl <;> rfl
      have hback := promised_update hwf.intent_ids hi status reason none hstatus
      rw [if_pos hactive] at hback
      have hpos := hB.matched.intents i hi
      change L.tenderTotal + promised _ ≤ L.due + (late + 0)
      omega
  | capture _ b i t at_ hb hopen hi hcap ht hamount =>
      have hback := promised_update hwf.intent_ids hi .succeeded none (some at_) rfl
      change ((L.tenders ++ [t]).map (·.amountMinor)).sum + promised { L with
        intents := updateRows PaymentIntent.id i.id (·.update .succeeded none (some at_)) L.intents } ≤
          L.due + (late + _)
      rw [tenderTotal_append, hamount]
      by_cases hexpired : i.status = .expired
      · have hactive : i.isActive = false := by
          simp [PaymentIntent.isActive, PaymentIntentStatus.isActive, hexpired]
        rw [if_neg (by simp [hactive])] at hback
        simp only [hexpired, decide_true, Entry.lateMinor]
        omega
      · -- What was promised is now taken.
        have hactive : i.isActive = true := by
          cases hstatus : i.status <;>
            simp_all [PaymentIntent.isActive, PaymentIntentStatus.isActive,
              PaymentIntentStatus.capturable]
        rw [if_pos hactive] at hback
        simp only [hexpired, decide_false, Entry.lateMinor]
        omega
  | flag _ b intents hb hfin hwf' =>
      have hopen := hopen' b hb
      rw [hfin] at hopen
      cases hopen
  | sync _ b shares hb hopen hstep hsplit => exact (add_zero late).symm ▸ hbound
  | pay _ b s t phone at_ hb hopen hfresh hstep hs hout ht hamount =>
      obtain ⟨hcards, hnone⟩ := hfree t.id rfl
      have htotal := due_eq hb hopen hfresh hB.inclusive (hB.matched.undiscounted b hb)
      have hpaid := hB.matched.tenderTotal
      rw [hB.matched.card_sum_eq_zero.mpr hcards] at hpaid
      have hshare : s.amountMinor ≤ outstandingMinorOf L.shares := by
        refine List.single_le_sum (fun a ha => ?_) _ (List.mem_map_of_mem (f := (·.amountMinor))
          (List.mem_filter.mpr ⟨hs, decide_eq_true hout⟩))
        obtain ⟨s', hs', rfl⟩ := List.mem_map.mp ha
        obtain ⟨hs', hout'⟩ := List.mem_filter.mp hs'
        exact hstep.nonneg s' hs' (of_decide_eq_true hout')
      have hsum := hstep.sum
      change ((L.tenders ++ [t]).map (·.amountMinor)).sum + L.promised ≤ L.due + (late + 0)
      rw [tenderTotal_append, hamount, promised, hnone]
      simp only [List.map_nil, List.sum_nil]
      omega
  | settle _ b b'' tenders intents shares hb hsettles =>
      have hstatus := hopen' b'' rfl
      rw [hsettles.finalized] at hstatus
      cases hstatus

theorem Bounded.mono {L : Ledger} {late late' : ℤ} (h : L.Bounded late) (hle : late ≤ late') :
    L.Bounded late' :=
  ⟨h.matched, h.inclusive, h.bound.trans (by omega)⟩

/-- **A page** without captures: guests pay on it only while the bill is card-free. -/
theorem Moves.bounded {es : List Entry} {L L' : Ledger} {late : ℤ} (h : L.Moves es L')
    (hwf : L.Wf) (hlate : 0 ≤ late)
    (he : (∀ e ∈ es, e = .plain ∨ e = .raise ∨ e = .settle) ∨
      (∀ e ∈ es, e = .plain ∨ (∃ id, e = .share id) ∨ e = .settle) ∧ L.CardFree)
    (hL : L.Unsettled → L.Bounded late) : L'.Unsettled → L'.Bounded late := by
  rcases he with he | ⟨he, hfree⟩
  · refine h.preserves_of (I := fun L => L.Unsettled → L.Bounded late) ?_ hwf hL
    intro e L L' hmem hwf hL hm hopen'
    have := hm.bounded hwf (by rcases he e hmem with rfl | rfl | rfl <;> simp)
      (fun id hid => by rcases he e hmem with rfl | rfl | rfl <;> cases hid) hlate hL hopen'
    refine this.mono ?_
    rcases he e hmem with rfl | rfl | rfl <;> exact (add_zero late).le
  · refine fun hopen' => (h.preserves_of
      (I := fun L => L.Unsettled → L.Bounded late ∧ L.CardFree) ?_ hwf
      (fun hopen => ⟨hL hopen, hfree⟩) hopen').1
    intro e L L' hmem hwf hL hm hopen'
    have hbefore := hL (hm.unsettled_of hopen')
    refine ⟨(hm.bounded hwf ?_ (fun _ _ => hbefore.2) hlate (fun h => (hL h).1) hopen').mono ?_,
      hm.cardFree hopen' (he e hmem) hbefore.2⟩
    · rcases he e hmem with rfl | ⟨id, rfl⟩ | rfl <;> simp
    · rcases he e hmem with rfl | ⟨id, rfl⟩ | rfl <;> exact (add_zero late).le

end Ledger

/-! ### Runs -/

/-- The intents that had expired and were captured between the two stores. -/
def Store.lateCaptures (v v' : Store) : List PaymentIntent :=
  v.intents.filter fun i => i.status = .expired &&
    v'.intents.any fun j => j.id = i.id && j.status = .succeeded

/-- The requests of a bill under one tax registration, with guests paying their shares
only while no card money is on it and nothing is pending. -/
def Op.WithinBounds : Op → Store → Prop
  | .updateTaxRegistration _, _ => False
  | .payShare _ _ dto, v => dto.simulatedOutcome = .success →
      (∀ t ∈ v.tenders, t.paymentIntentId = none) ∧ v.activeIntents = []
  | _, _ => True

/-- The country of a tenant is never written. -/
theorem Op.Step.country {op : Op} {v v' : Store} (h : op.Step v v') :
    v'.tenant.country = v.tenant.country := by
  have hemits : op.prog.Emits fun _ => True := op.emits.mono fun _ _ => trivial
  refine h.post (Q := fun v' => v'.tenant.country = v.tenant.country) rfl
    (hemits.wlp (P := fun v' => v'.tenant.country = v.tenant.country) (.all (fun _ => trivial) _)
      (fun l _ v₁ h₁ => ?_) rfl)
  refine (applyAll_frame (fun v : Store => v.tenant.country) (fun w _ s => ?_) v₁).trans h₁
  cases w <;> rfl

/-- Only a new registration changes what the tenant is taxed at. -/
theorem Op.Step.profile {op : Op} {v v' : Store} (h : op.Step v v')
    (hop : Table.taxRegistrations ∉ op.tables) : v'.profile = v.profile := by
  rw [Store.profile, Store.profile, h.country, show v'.taxRegistration = v.taxRegistration from
    h.frame .taxRegistrations hop]

section Bound

variable {v v' : Store} {late : ℤ}

theorem amounts_nonneg {intents : List PaymentIntent} (h : ∀ i ∈ intents, 1 ≤ i.amountMinor) :
    ∀ a ∈ intents.map (·.amountMinor), 0 ≤ a := by
  intro a ha
  obtain ⟨i, hi, rfl⟩ := List.mem_map.mp ha
  have := h i hi
  omega

theorem lateCaptures_nonneg (v' : Store) (h : ∀ i ∈ v.intents, 1 ≤ i.amountMinor) :
    0 ≤ ((v.lateCaptures v').map (·.amountMinor)).sum :=
  List.sum_nonneg (amounts_nonneg fun i hi => h i (List.mem_of_mem_filter hi))

/-- A confirmation of an expired intent is one of the late captures. -/
theorem Confirmed.bounded {id : ℕ} (h : Confirmed v id v') (hwf : v.ledger.Wf) (hlate : 0 ≤ late)
    (hL : v.ledger.Unsettled → v.ledger.Bounded late) (hopen' : v'.ledger.Unsettled) :
    v'.ledger.Bounded (late + ((v.lateCaptures v').map (·.amountMinor)).sum) := by
  cases h with
  | same =>
      have hB := hL hopen'
      have := lateCaptures_nonneg v hB.matched.intents
      exact hB.mono (by omega)
  | flagged b hb hfin at_ reason event =>
      have hstatus := hopen' b hb
      rw [hfin] at hstatus
      cases hstatus
  | captured b hb hopen i hi hid hcap t at_ ht hamount =>
      subst hid
      have hmove : v.ledger.Move (.capture i.amountMinor (i.status = .expired))
          ((v.apply (.updateIntent i.id .succeeded none (some at_))).apply (.createTender t)).ledger :=
        .capture v.ledger b i t at_ hb hopen hi hcap ht hamount
      have hB := hL (hmove.unsettled_of hopen')
      refine (hmove.bounded hwf (by simp) (by simp) hlate hL hopen').mono ?_
      have hnonneg := amounts_nonneg fun j hj => hB.matched.intents j (List.mem_of_mem_filter
        (p := fun j => decide (j.status = .expired) &&
          ((v.apply (.updateIntent i.id .succeeded none (some at_))).apply
            (.createTender t)).intents.any fun k => k.id = j.id && k.status = .succeeded) hj)
      by_cases hexpired : i.status = .expired
      · have hmem : i ∈ v.lateCaptures
            ((v.apply (.updateIntent i.id .succeeded none (some at_))).apply (.createTender t)) := by
          refine List.mem_filter.mpr ⟨hi, ?_⟩
          simp only [hexpired, decide_true, Bool.true_and, List.any_eq_true, Bool.and_eq_true,
            decide_eq_true_eq]
          exact ⟨_, mem_updateRows.mpr (Or.inr ⟨i, hi, rfl, rfl⟩), rfl, rfl⟩
        have hle := List.single_le_sum hnonneg _ (List.mem_map_of_mem hmem)
        simp only [hexpired, decide_true, Entry.lateMinor]
        exact Int.add_le_add_left hle late
      · have hsum := List.sum_nonneg hnonneg
        simp only [hexpired, decide_false, Entry.lateMinor]
        exact Int.add_le_add_left hsum late

theorem Op.Step.unsettled_of {op : Op} (h : op.Step v v') (hpriced : v.Priced)
    (hwf : v.ledger.Wf) (hopen' : v'.ledger.Unsettled) : v.ledger.Unsettled := by
  intro b hb
  by_contra hstatus
  have hfin : b.status = .finalized := by cases hs : b.status <;> simp_all
  exact hstatus (hopen' b (h.finalized_keeps hpriced hwf hb hfin).1)

/-- **One request** keeps an open bill within its total and the late captures. -/
theorem Op.Step.bounded {op : Op} (h : op.Step v v') (hop : op.WithinBounds v)
    (hpriced : v.Priced) (hwf : v.ledger.Wf) (hlate : 0 ≤ late)
    (hL : v.ledger.Unsettled → v.ledger.Bounded late) :
    v'.ledger.Unsettled →
      v'.ledger.Bounded (late + ((v.lateCaptures v').map (·.amountMinor)).sum) := by
  intro hopen'
  -- Where nothing is captured, what is counted as late can only grow.
  have hgrow : (v'.ledger.Unsettled → v'.ledger.Bounded late) → v.ledger.Unsettled →
      v'.ledger.Bounded (late + ((v.lateCaptures v').map (·.amountMinor)).sum) := by
    intro hB hopen
    have := lateCaptures_nonneg v' (hL hopen).matched.intents
    exact (hB hopen').mono (by omega)
  have hposts := h.posts hpriced hwf
  have hopen := h.unsettled_of hpriced hwf hopen'
  -- What only touches the tenant's mode and the surroundings leaves the bill's books alone.
  have houtside : (∀ t ∈ op.tables, t ∈ [Table.tenants, .auditEvents, .environment]) →
      v'.ledger.Bounded late := by
    intro htables
    have hframe := h.frame.mono htables
    have hlines : v'.lines = v.lines := hframe .orderLines (by decide)
    have hledger : v'.ledger = { v.ledger with simulator := v'.simulatorOn } := by
      simp [Store.ledger, Store.subtotal, Store.liveLines, hlines,
        h.profile fun hmem => by simpa using htables _ hmem,
        show v'.bill = v.bill from hframe .bills (by decide),
        show v'.tenders = v.tenders from hframe .tenders (by decide),
        show v'.intents = v.intents from hframe .paymentIntents (by decide),
        show v'.shares = v.shares from hframe .billShares (by decide)]
    obtain ⟨hmatched, hincl, hbound⟩ := hL hopen
    rw [hledger]
    exact ⟨⟨hmatched.payments, hmatched.cards, hmatched.intents, hmatched.undiscounted⟩, hincl,
      hbound⟩
  have hpage : (∀ e, op.mayPost e → e = .plain ∨ e = .raise ∨ e = .settle) →
      v'.ledger.Bounded (late + ((v.lateCaptures v').map (·.amountMinor)).sum) := by
    intro hmay
    obtain ⟨_, es, hes, hP⟩ := hposts
    exact hgrow (hes.bounded hwf hlate (Or.inl fun e he => hmay e (hP e he)) hL) hopen
  cases op with
  | updateTaxRegistration dto => exact hop.elim
  | simulate id outcome =>
      have hprog : (Op.prog (.simulate id outcome)).commits
          (fun _ v' => Posts (· = .plain) v v' ∨ Confirmed v id v') v := by
        rw [Op.prog, Txn.commits, Txn.wlp_void]
        exact commits_simulate hpriced hwf id outcome
      rcases h.post (Or.inr .same) hprog with ⟨_, es, hes, hP⟩ | hconfirmed
      · exact hgrow (hes.bounded hwf hlate (Or.inl fun e he => Or.inl (hP e he)) hL) hopen
      · exact hconfirmed.bounded hwf hlate hL hopen'
  | payShare guest guestId dto =>
      obtain ⟨_, es, hes, hP⟩ := hposts
      cases houtcome : dto.simulatedOutcome with
      | failure =>
          refine hgrow (hes.bounded hwf hlate (Or.inl fun e he => Or.inl ?_) hL) hopen
          simpa [Op.mayPost, houtcome] using hP e he
      | success =>
          refine hgrow (hes.bounded hwf hlate (Or.inr ⟨fun e he => ?_, hop houtcome⟩) hL) hopen
          simpa [Op.mayPost, houtcome] using hP e he
  | setMode operatorId mode reason => exact hgrow (fun _ => houtside (by simp [Op.tables])) hopen
  | setPaymentsSimulator on => exact hgrow (fun _ => houtside (by simp [Op.tables])) hopen
  | changeSurroundings around => exact hgrow (fun _ => houtside (by simp [Op.tables])) hopen
  | _ => exact hpage (by simp +contextual [Op.mayPost, or_imp])

end Bound

/-- **Money on an open bill.** In every run under one tax registration, in which guests
pay their shares only while no card money is on the bill and nothing is pending: while
the bill is open, its tenders are at most its current total and the amounts of the
intents that were captured after they had expired. -/
theorem open_bill_within_total_and_late {v₀ v : Store} {late : List PaymentIntent}
    (h : v₀.Placed) (hruns : Logged Op.WithinBounds (fun _ => Store.lateCaptures) v₀ late v)
    {b : Bill} (hb : v.bill = some b) (hopen : b.status = .open) :
    v.tenderTotal ≤ computeTotalMinor v.subtotal (v.profile.taxOn v.subtotal).taxMinor 0
      (v.profile.taxOn v.subtotal).pricesIncludeTax + (late.map (·.amountMinor)).sum := by
  suffices H : (v.Priced ∧ v.ledger.Wf) ∧ (v.ledger.Unsettled →
      v.ledger.Bounded (late.map (·.amountMinor)).sum ∧ 0 ≤ (late.map (·.amountMinor)).sum) by
    have hunsettled : v.ledger.Unsettled := fun b' hb' => by
      rw [← Option.some.inj (hb.symm.trans hb')]
      exact hopen
    obtain ⟨hB, _⟩ := H.2 hunsettled
    have hpromised : 0 ≤ v.ledger.promised :=
      List.sum_nonneg (amounts_nonneg fun i hi => hB.matched.intents i (List.mem_of_mem_filter hi))
    have hbound : v.tenderTotal + v.ledger.promised ≤ v.ledger.due + _ := hB.bound
    change v.tenderTotal ≤ v.ledger.due + _
    omega
  refine hruns.preserves (I := fun late v => (v.Priced ∧ v.ledger.Wf) ∧ (v.ledger.Unsettled →
    v.ledger.Bounded (late.map (·.amountMinor)).sum ∧ 0 ≤ (late.map (·.amountMinor)).sum)) ?_ ?_
  · rintro op late v₁ v₂ hop ⟨⟨hpriced, hwf⟩, hL⟩ hstep
    have hposts := hstep.posts hpriced hwf
    refine ⟨⟨hposts.1, hposts.wf hwf⟩, fun hopen' => ?_⟩
    obtain ⟨hB, hlate⟩ := hL (hstep.unsettled_of hpriced hwf hopen')
    have hgrown := lateCaptures_nonneg v₂ hB.matched.intents
    rw [List.map_append, List.sum_append]
    exact ⟨hstep.bounded hop hpriced hwf hlate (fun _ => hB) hopen', by omega⟩
  · refine ⟨⟨h.priced, h.wf⟩, fun _ => ⟨⟨⟨?_, ?_, ?_, ?_⟩, ?_, ?_⟩, le_rfl⟩⟩
    · simp [Ledger.manualTenders, Ledger.paidShares, Store.ledger, h.tenders, h.shares]
    · simp [Store.ledger, h.tenders]
    · simp [Store.ledger, h.intents]
    · simp [Store.ledger, h.bill]
    · intro b hb
      simp [Store.ledger, h.bill] at hb
    · have hdue := Ledger.due_nonneg h.wf.subtotal_nonneg
      simpa [Ledger.tenderTotal, Ledger.promised, Ledger.activeIntents, Store.ledger, h.tenders,
        h.intents] using hdue

/-- The sample order's bill is asked of the terminal twice, the second time after the
first had expired, and then both are captured. -/
def sampleLate : List (Op × (ℕ → Env)) :=
  [(.createBill sampleStaff "", ticking 100),
    (.createIntent ⟨.cardTerminal, 24046, "first", none, one_le_sampleTotal⟩, ticking 200),
    (.getIntent 211, ticking 400000),
    (.createIntent ⟨.cardTerminal, 24046, "second", none, one_le_sampleTotal⟩, ticking 400100),
    (.simulate 400111 .success, ticking 400200), (.simulate 211 .success, ticking 400300)]

/-- What was captured late is exactly what the tenders are over the total by. -/
theorem open_bill_within_total_and_late_sample :
    ∃ late : List PaymentIntent, late.map (·.amountMinor) = [24046] ∧
      (sampleOrder.after sampleLate).tenderTotal ≤
        computeTotalMinor (sampleOrder.after sampleLate).subtotal
          ((sampleOrder.after sampleLate).profile.taxOn (sampleOrder.after sampleLate).subtotal).taxMinor
          0 ((sampleOrder.after sampleLate).profile.taxOn
            (sampleOrder.after sampleLate).subtotal).pricesIncludeTax +
        (late.map (·.amountMinor)).sum := by
  let LoggedTo (late : List PaymentIntent) (n : ℕ) : Prop :=
    Logged Op.WithinBounds (fun _ => Store.lateCaptures) sampleOrder late
      (sampleOrder.after (sampleLate.take n))
  have h₁ : LoggedTo _ 1 :=
    .snoc (.createBill sampleStaff "") .nil trivial (.commits ⟨ticking 100, rfl⟩)
  have h₂ : LoggedTo _ 2 :=
    .snoc (.createIntent ⟨.cardTerminal, 24046, "first", none, one_le_sampleTotal⟩) h₁ trivial
      (.commits ⟨ticking 200, rfl⟩)
  have h₃ : LoggedTo _ 3 :=
    .snoc (.getIntent 211) h₂ trivial (.commits ⟨ticking 400000, rfl⟩)
  have h₄ : LoggedTo _ 4 :=
    .snoc (.createIntent ⟨.cardTerminal, 24046, "second", none, one_le_sampleTotal⟩) h₃ trivial
      (.commits ⟨ticking 400100, rfl⟩)
  have h₅ : LoggedTo _ 5 :=
    .snoc (.simulate 400111 .success) h₄ trivial (.commits ⟨ticking 400200, rfl⟩)
  have hruns : LoggedTo _ 6 :=
    .snoc (.simulate 211 .success) h₅ trivial (.commits ⟨ticking 400300, rfl⟩)
  exact ⟨_, rfl, open_bill_within_total_and_late sampleOrder_placed hruns rfl rfl⟩

/-- A bill of 240.46 that stays open with 480.92 on it. -/
theorem late_capture_overpays :
    ∃ b, sampleOrder.Placed ∧ (sampleOrder.handle sampleLate).isOk = true ∧
      (sampleOrder.after sampleLate).bill = some b ∧ b.status = .open ∧
      computeTotalMinor (sampleOrder.after sampleLate).subtotal
        ((sampleOrder.after sampleLate).profile.taxOn (sampleOrder.after sampleLate).subtotal).taxMinor
        0 ((sampleOrder.after sampleLate).profile.taxOn
          (sampleOrder.after sampleLate).subtotal).pricesIncludeTax = 24046 ∧
      (sampleOrder.after sampleLate).tenderTotal = 48092 :=
  ⟨_, sampleOrder_placed, rfl, rfl, rfl, rfl, rfl⟩

end RestiqBackend
