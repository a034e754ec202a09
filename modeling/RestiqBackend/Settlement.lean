import RestiqBackend.Requests

/-!
Settled bills.

A finalized bill is covered: its tenders add up to its total and its round-off, on
whichever of the paths it was settled. And it is finished: no request of any kind
changes its row or its tenders again, when every request is handled on its own.
-/

namespace RestiqBackend

open ReadCommitted

namespace Ledger

/-- Where the bill is finalized, its tenders cover its total with the round-off. -/
def Covered (L : Ledger) : Prop :=
  ∀ b, L.bill = some b → b.status = .finalized →
    L.tenderTotal = b.totalMinor + b.roundOffMinor.getD 0

/-- A finalized bill and its tenders are out of reach of every move. -/
theorem Move.finalized_keeps {e : Entry} {L L' : Ledger} (h : L.Move e L') {b : Bill}
    (hb : L.bill = some b) (hfin : b.status = .finalized) :
    L'.bill = some b ∧ L'.tenders = L.tenders := by
  -- What is only done to an open bill is not done to this one.
  have hnot : ∀ b', L.bill = some b' → b'.status ≠ .open := by
    intro b' hb' hopen
    rw [Option.some.inj (hb'.symm.trans hb), hfin] at hopen
    cases hopen
  cases h with
  | edit _ subtotal h0 h => exact ⟨hb, rfl⟩
  | switch _ profile simulator => exact ⟨hb, rfl⟩
  | create _ b' hnone => exact absurd (hb.symm.trans hnone) (by simp)
  | refresh _ b' hb' =>
      refine ⟨?_, rfl⟩
      rw [Option.some.inj (hb'.symm.trans hb), Bill.refreshed_of_finalized hfin]
  | raise _ b' i hb' hopen => exact absurd hopen (hnot b' hb')
  | close _ id status reason h i hi hid hactive => exact ⟨hb, rfl⟩
  | capture _ b' i t at_ hb' hopen => exact absurd hopen (hnot b' hb')
  | flag _ b' intents hb' hfin' hwf => exact ⟨hb, rfl⟩
  | sync _ b' shares hb' hopen => exact absurd hopen (hnot b' hb')
  | pay _ b' s t phone at_ hb' hopen => exact absurd hopen (hnot b' hb')
  | settle _ b' b'' tenders intents shares hb' hsettles => exact absurd hsettles.isOpen (hnot b' hb')

theorem Move.covered {e : Entry} {L L' : Ledger} (h : L.Move e L') (hL : L.Covered) :
    L'.Covered := by
  intro b' hb' hfin'
  by_cases hbefore : ∃ b, L.bill = some b ∧ b.status = .finalized
  · obtain ⟨b, hb, hfin⟩ := hbefore
    obtain ⟨hbill, htenders⟩ := h.finalized_keeps hb hfin
    have hsame : b' = b := Option.some.inj (hb'.symm.trans hbill)
    rw [tenderTotal, htenders, hsame]
    exact hL b hb hfin
  · -- Only a settlement finalizes a bill, and it has checked the sum.
    have hnot : ∀ b, L.bill = some b → b.status ≠ .finalized := fun b hb hfin =>
      hbefore ⟨b, hb, hfin⟩
    cases h with
    | create _ b hnone hopen =>
        rw [← Option.some.inj hb', hopen] at hfin'
        cases hfin'
    | refresh _ b hb =>
        rw [← Option.some.inj hb', Bill.refreshed_status] at hfin'
        exact absurd hfin' (hnot b hb)
    | settle _ b b'' tenders intents shares hb hsettles =>
        rw [← Option.some.inj hb']
        exact hsettles.covered
    | _ => exact absurd hfin' (hnot b' hb')

theorem Moves.finalized_keeps {es : List Entry} {L L' : Ledger} (h : L.Moves es L') {b : Bill}
    (hb : L.bill = some b) (hfin : b.status = .finalized) :
    L'.bill = some b ∧ L'.tenders = L.tenders :=
  h.preserves (I := fun L' => L'.bill = some b ∧ L'.tenders = L.tenders)
    (fun _ L₁ _ h₁ hm => by
      obtain ⟨hbill, htenders⟩ := hm.finalized_keeps h₁.1 hfin
      exact ⟨hbill, htenders.trans h₁.2⟩) ⟨hb, rfl⟩

/-- Only a settlement settles a bill. -/
theorem Move.unsettled {e : Entry} {L L' : Ledger} (h : L.Move e L') (he : e ≠ .settle)
    (hL : L.bill.any (·.status = .finalized) = false) :
    L'.bill.any (·.status = .finalized) = false := by
  cases h with
  | create _ b _ hopen =>
      rw [Option.any_some, hopen]
      rfl
  | refresh _ b hb =>
      rw [hb, Option.any_some] at hL
      rw [Option.any_some, Bill.refreshed_status]
      exact hL
  | settle => exact absurd rfl he
  | _ => exact hL

theorem Moves.unsettled {es : List Entry} {L L' : Ledger} (h : L.Moves es L')
    (hes : ∀ e ∈ es, e ≠ .settle) (hL : L.bill.any (·.status = .finalized) = false) :
    L'.bill.any (·.status = .finalized) = false := by
  induction h with
  | nil => exact hL
  | cons hm _ ih =>
      exact ih (fun e he => hes e (List.mem_cons_of_mem _ he))
        (hm.unsettled (hes _ List.mem_cons_self) hL)

end Ledger

/-- A reachable store is one that an order before its bill can get to. -/
def Store.Reachable (v : Store) : Prop := ∃ v₀ : Store, v₀.Placed ∧ Runs (fun _ => True) v₀ v

theorem Store.Reachable.books {v : Store} (h : v.Reachable) : v.Priced ∧ v.ledger.Wf := by
  obtain ⟨v₀, hplaced, hruns⟩ := h
  have := hruns.ledger_preserves (I := fun _ => True) (fun _ _ _ _ _ _ _ _ _ => trivial)
    hplaced.priced hplaced.wf trivial
  exact ⟨this.1, this.2.1⟩

theorem Store.Reachable.covered {v : Store} (h : v.Reachable) : v.ledger.Covered := by
  obtain ⟨v₀, hplaced, hruns⟩ := h
  refine (hruns.ledger_preserves (fun _ _ _ _ _ _ _ h hm => hm.covered h) hplaced.priced
    hplaced.wf ?_).2.2
  intro b hb
  simp [Store.ledger, hplaced.bill] at hb

/-- What a step does to a finalized bill and its tenders: nothing. -/
theorem Op.Step.finalized_keeps {op : Op} {v v' : Store} (h : op.Step v v') (hpriced : v.Priced)
    (hwf : v.ledger.Wf) {b : Bill} (hb : v.bill = some b) (hfin : b.status = .finalized) :
    v'.bill = some b ∧ v'.tenders = v.tenders := by
  obtain ⟨_, es, hes, _⟩ := h.posts hpriced hwf
  exact hes.finalized_keeps hb hfin

/-- **The settled-bill equation.** In every reachable store whose bill is finalized the
tenders add up to the total of the stored columns plus the stored round-off, and
nothing that happens later changes a tender or the row. -/
theorem settled_bill_equation {v : Store} (h : v.Reachable) {b : Bill} (hb : v.bill = some b)
    (hfin : b.status = .finalized) :
    (v.tenders.map (·.amountMinor)).sum =
        computeTotalMinor b.subtotalMinor b.taxMinor (b.discountMinor.getD 0) b.pricesIncludeTax +
          b.roundOffMinor.getD 0 ∧
      ∀ v', Runs (fun _ => True) v v' → v'.tenders = v.tenders ∧ v'.bill = some b := by
  refine ⟨h.covered b hb hfin, fun v' hruns => ?_⟩
  obtain ⟨hpriced, hwf⟩ := h.books
  suffices H : (v'.Priced ∧ v'.ledger.Wf) ∧ v'.tenders = v.tenders ∧ v'.bill = some b from H.2
  refine hruns.preserves (I := fun v' => (v'.Priced ∧ v'.ledger.Wf) ∧ v'.tenders = v.tenders ∧
    v'.bill = some b) ?_ ⟨⟨hpriced, hwf⟩, rfl, hb⟩
  rintro op v₁ v₂ _ ⟨⟨hpriced₁, hwf₁⟩, htenders₁, hb₁⟩ hstep
  have hposts := hstep.posts hpriced₁ hwf₁
  obtain ⟨hb₂, htenders₂⟩ := hstep.finalized_keeps hpriced₁ hwf₁ hb₁ hfin
  exact ⟨⟨hposts.1, hposts.wf hwf₁⟩, htenders₂.trans htenders₁, hb₂⟩

/-- The sample order settled in cash, its total rounded down. -/
def sampleSettled : Store :=
  sampleOrder.after [(.createBill sampleStaff "", ticking 100),
    (settleWith [cashTender 24000 (by decide)], ticking 200)]

theorem sampleSettled_reachable : sampleSettled.Reachable :=
  ⟨sampleOrder, sampleOrder_placed, .of_after rfl fun _ _ => trivial⟩

theorem settled_bill_equation_sample :
    ∃ b, sampleSettled.bill = some b ∧ b.roundOffMinor = some (-46) ∧
      (sampleSettled.tenders.map (·.amountMinor)).sum =
        computeTotalMinor b.subtotalMinor b.taxMinor (b.discountMinor.getD 0) b.pricesIncludeTax +
          b.roundOffMinor.getD 0 ∧
      ∀ v', Runs (fun _ => True) sampleSettled v' →
        v'.tenders = sampleSettled.tenders ∧ v'.bill = some b :=
  ⟨_, rfl, rfl, settled_bill_equation sampleSettled_reachable rfl rfl⟩

end RestiqBackend
