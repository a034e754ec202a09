import RestiqBackend.Requests

/-!
Whether a refreshed bill says what its lines and its tenant's registration say today.

`refreshOpenBillTotals` (`src/pos/bills/bill-core.ts`) leaves the row alone when subtotal, tax
and split rounding are the stored ones. Those three do not tell at which kind of tax and at
which rate they were computed, and the stored breakdown does: a `TaxBasis` is what the three
leave open.
-/

namespace RestiqBackend

/-- Everything a bill stores of its totals is what is computed for them. -/
structure Bill.Fresh (b : Bill) (subtotal : ℤ) (profile : TenantTaxProfile) : Prop where
  subtotalMinor : b.subtotalMinor = subtotal
  taxMinor : b.taxMinor = (profile.taxOn subtotal).taxMinor
  lines : (readStoredTaxBreakdown b.taxBreakdown).lines = (profile.taxOn subtotal).breakdown
  notes : (readStoredTaxBreakdown b.taxBreakdown).notes = (profile.taxOn subtotal).notes
  gstSplitRounding : (readStoredTaxBreakdown b.taxBreakdown).gstSplitRounding =
    (profile.taxOn subtotal).gstSplitRounding
  pricesIncludeTax : b.pricesIncludeTax = (profile.taxOn subtotal).pricesIncludeTax

/-- The kind of tax a tenant charges, and the rate its bills show. -/
inductive TaxBasis
  | composition
  | igst (ratePercent : ℚ)
  | cgstSgst (halfPercent : ℚ)
  | notRegistered
  | gst (ratePercent : ℚ)
  deriving DecidableEq

def TenantTaxProfile.basis (profile : TenantTaxProfile) : TaxBasis :=
  match profile.country with
  | .IN =>
      if profile.compositionScheme then .composition
      else if isIgstProfile profile.taxProfile then
        .igst (rateBasisPoints profile.gstRatePercent 5 / 100)
      else .cgstSgst (rateBasisPoints profile.gstRatePercent 5 / 200)
  | .AU =>
      if profile.gstRegistered then .gst (rateBasisPoints profile.gstRatePercent 10 / 100)
      else .notRegistered

/-! ### What the basis decides -/

section Basis

variable {profile profile' : TenantTaxProfile} {b : Bill} {subtotal : ℤ}

/-- The five shapes of a computed tax. -/
inductive TaxShape (profile : TenantTaxProfile) (subtotal : ℤ) : TaxBasis → TaxResult → Prop
  | composition : TaxShape profile subtotal .composition ⟨0, false, [], [compositionNote], none⟩
  | igst (rate : ℤ) : TaxShape profile subtotal (.igst (rate / 100))
      ⟨roundHalfUp (subtotal * rate) 10000, false,
        [⟨"IGST", rate / 100, roundHalfUp (subtotal * rate) 10000⟩], [], none⟩
  | cgstSgst (rate : ℤ) : TaxShape profile subtotal (.cgstSgst (rate / 200))
      ⟨(splitCgstSgst profile.gstSplitRounding subtotal rate).1 +
          (splitCgstSgst profile.gstSplitRounding subtotal rate).2, false,
        [⟨"CGST", rate / 200, (splitCgstSgst profile.gstSplitRounding subtotal rate).1⟩,
          ⟨"SGST", rate / 200, (splitCgstSgst profile.gstSplitRounding subtotal rate).2⟩],
        [], some profile.gstSplitRounding⟩
  | notRegistered : TaxShape profile subtotal .notRegistered
      ⟨0, false, [], [notRegisteredNote], none⟩
  | gst (rate : ℤ) : TaxShape profile subtotal (.gst (rate / 100))
      ⟨subtotal - roundHalfUp (subtotal * 10000) (10000 + rate), true,
        [⟨"GST", rate / 100, subtotal - roundHalfUp (subtotal * 10000) (10000 + rate)⟩], [],
        none⟩

theorem taxOn_shape (profile : TenantTaxProfile) (subtotal : ℤ) :
    TaxShape profile subtotal profile.basis (profile.taxOn subtotal) := by
  obtain ⟨country, taxProfile, compositionScheme, gstRegistered, rate, rounding⟩ := profile
  simp only [TenantTaxProfile.basis, TenantTaxProfile.taxOn, computeTax]
  cases country with
  | IN =>
      cases compositionScheme with
      | true => exact .composition
      | false =>
          simp only [Bool.false_eq_true, if_false]
          split
          · exact .igst _
          · exact .cgstSgst _
  | AU =>
      cases gstRegistered with
      | true => exact .gst _
      | false => exact .notRegistered

theorem rate_inj {rate rate' : ℤ} {d : ℚ} (hd : d ≠ 0) (h : (rate : ℚ) / d = rate' / d) :
    rate = rate' := by
  exact_mod_cast (div_left_inj' hd).mp h

/-- On one subtotal, the basis and the rule of the split decide the whole tax. -/
theorem TaxShape.eq_of_basis {k k' : TaxBasis} {t t' : TaxResult} (h : TaxShape profile subtotal k t)
    (h' : TaxShape profile' subtotal k' t') (hk : k = k')
    (hsplit : t.gstSplitRounding = t'.gstSplitRounding) : t = t' := by
  cases h with
  | composition =>
      cases h' with
      | composition => rfl
      | _ => cases hk
  | igst rate =>
      cases h' with
      | igst rate' =>
          obtain rfl := rate_inj (by norm_num) (TaxBasis.igst.inj hk)
          rfl
      | _ => cases hk
  | cgstSgst rate =>
      cases h' with
      | cgstSgst rate' =>
          obtain rfl := rate_inj (by norm_num) (TaxBasis.cgstSgst.inj hk)
          rw [Option.some.inj hsplit]
      | _ => cases hk
  | notRegistered =>
      cases h' with
      | notRegistered => rfl
      | _ => cases hk
  | gst rate =>
      cases h' with
      | gst rate' =>
          obtain rfl := rate_inj (by norm_num) (TaxBasis.gst.inj hk)
          rfl
      | _ => cases hk

/-- The lines and the notes tell the basis. -/
theorem TaxShape.basis_eq {k k' : TaxBasis} {t t' : TaxResult} (h : TaxShape profile subtotal k t)
    (h' : TaxShape profile' subtotal k' t') (hlines : t.breakdown = t'.breakdown)
    (hnotes : t.notes = t'.notes) : k = k' := by
  cases h with
  | composition =>
      cases h' with
      | composition => rfl
      | notRegistered => exact absurd hnotes (by decide)
      | _ => cases hlines
  | notRegistered =>
      cases h' with
      | notRegistered => rfl
      | composition => exact absurd hnotes (by decide)
      | _ => cases hlines
  | igst rate =>
      cases h' with
      | igst rate' => exact congrArg _ (TaxBreakdownLine.mk.inj (List.cons.inj hlines).1).2.1
      | gst rate' =>
          exact absurd (TaxBreakdownLine.mk.inj (List.cons.inj hlines).1).1 (by decide)
      | cgstSgst rate' => exact nomatch (List.cons.inj hlines).2
      | _ => cases hlines
  | cgstSgst rate =>
      cases h' with
      | cgstSgst rate' => exact congrArg _ (TaxBreakdownLine.mk.inj (List.cons.inj hlines).1).2.1
      | igst rate' | gst rate' => exact nomatch (List.cons.inj hlines).2
      | _ => cases hlines
  | gst rate =>
      cases h' with
      | gst rate' => exact congrArg _ (TaxBreakdownLine.mk.inj (List.cons.inj hlines).1).2.1
      | igst rate' =>
          exact absurd (TaxBreakdownLine.mk.inj (List.cons.inj hlines).1).1 (by decide)
      | cgstSgst rate' => exact nomatch (List.cons.inj hlines).2
      | _ => cases hlines

/-- A bill that agrees with the registration in the three facts compared, and whose totals were
computed at some registration, is fresh just where the two have the same basis. -/
theorem Bill.Fresh.iff_basis (h : b.Fresh b.subtotalMinor profile)
    (htune : b.InTune subtotal profile') :
    b.Fresh subtotal profile' ↔ profile.basis = profile'.basis := by
  obtain ⟨rfl, htax, hsplit⟩ := htune
  have hshape := taxOn_shape profile b.subtotalMinor
  have hshape' := taxOn_shape profile' b.subtotalMinor
  constructor
  · intro hfresh
    exact hshape.basis_eq hshape' (h.lines.symm.trans hfresh.lines)
      (h.notes.symm.trans hfresh.notes)
  · intro hbasis
    have heq := hshape.eq_of_basis hshape' hbasis (h.gstSplitRounding.symm.trans hsplit.symm)
    obtain ⟨-, htax, hlines, hnotes, hround, hincl⟩ := h
    rw [heq] at htax hlines hnotes hround hincl
    exact ⟨rfl, htax, hlines, hnotes, hround, hincl⟩

theorem Bill.fresh_withTotals (b : Bill) (subtotal : ℤ) (profile : TenantTaxProfile) :
    (b.withTotals subtotal (profile.taxOn subtotal).taxMinor
      (toStoredTaxBreakdown (profile.taxOn subtotal))
      (profile.taxOn subtotal).pricesIncludeTax).Fresh subtotal profile :=
  ⟨rfl, rfl, rfl, rfl, rfl, rfl⟩

/-- Refreshing leaves the row fresh, or as it was. -/
theorem Bill.fresh_iff_sameSplit (h : b.Fresh b.subtotalMinor profile) (hopen : b.status = .open) :
    (b.refreshed subtotal profile').Fresh subtotal profile' ↔
      (b.InTune subtotal profile' → profile.basis = profile'.basis) := by
  by_cases htune : b.InTune subtotal profile'
  · rw [Bill.refreshed_eq_self (.inr htune), h.iff_basis htune]
    exact ⟨fun hb _ => hb, fun hb => hb htune⟩
  · rw [Bill.refreshed_eq_withTotals hopen htune]
    exact ⟨fun _ h => absurd h htune, fun _ => b.fresh_withTotals _ _⟩

end Basis

/-! ### Over runs -/

/-- While a bill is open, what it stores was computed from its subtotal at some registration. -/
def Ledger.Priced (L : Ledger) : Prop :=
  ∃ b, L.bill = some b ∧ (b.status = .open → ∃ profile, b.Fresh b.subtotalMinor profile)

theorem Bill.refreshed_priced {b : Bill} (subtotal : ℤ) (profile : TenantTaxProfile)
    (h : b.status = .open → ∃ profile, b.Fresh b.subtotalMinor profile)
    (hopen : (b.refreshed subtotal profile).status = .open) :
    ∃ p, (b.refreshed subtotal profile).Fresh (b.refreshed subtotal profile).subtotalMinor p := by
  rw [Bill.refreshed_status] at hopen
  by_cases htune : b.InTune subtotal profile
  · rw [Bill.refreshed_eq_self (.inr htune)]
    exact h hopen
  · rw [Bill.refreshed_eq_withTotals hopen htune]
    exact ⟨profile, b.fresh_withTotals _ _⟩

theorem Ledger.Move.priced {e : Entry} {L L' : Ledger} (hmove : L.Move e L') (h : L.Priced) :
    L'.Priced := by
  obtain ⟨b, hb, hfresh⟩ := h
  cases hmove with
  | create _ b' hnone => exact nomatch hnone.symm.trans hb
  | refresh _ b' hb' =>
      obtain rfl := Option.some.inj (hb.symm.trans hb')
      exact ⟨_, rfl, b.refreshed_priced _ _ hfresh⟩
  | settle _ b' b'' _ _ _ _ hsettles =>
      exact ⟨b'', rfl, fun hopen => nomatch hsettles.finalized.symm.trans hopen⟩
  | _ => exact ⟨b, hb, hfresh⟩

/-- An order with its bill open, as creating or refreshing the bill leaves it. -/
structure Store.Billed (v : Store) : Prop where
  priced : v.Priced
  wf : v.ledger.Wf
  bill : ∃ b, v.bill = some b ∧ b.status = .open ∧ b.Fresh v.subtotal v.profile

/-- The bill right after refreshing says what a fresh computation does. -/
def RefreshedFresh (v : Store) (b : Bill) : Prop :=
  ∀ envs n, ∃ refreshed v', (refreshOpenBillTotals ⟨b, v.tenders⟩).run envs n v =
      .ok (refreshed, v') ∧ v'.bill = some refreshed.bill ∧
    refreshed.bill.Fresh v'.subtotal v'.profile

theorem refresh_run {v : Store} {b : Bill} (hb : v.bill = some b) (envs : ℕ → ReadCommitted.Env)
    (n : ℕ) : (refreshOpenBillTotals ⟨b, v.tenders⟩).run envs n v =
      .ok (⟨b.refreshed v.subtotal v.profile, v.tenders⟩, v.refreshed) := by
  have hwlp : (refreshOpenBillTotals ⟨b, v.tenders⟩).wlp (fun _ => False) (fun _ _ => True)
      (fun r v' => r = ⟨b.refreshed v.subtotal v.profile, v.tenders⟩ ∧ v' = v.refreshed) v :=
    wlp_refresh hb ⟨rfl, rfl⟩
  have hrun := ReadCommitted.Txn.wlp_run hwlp envs (fun _ _ => trivial) n
  cases h : (refreshOpenBillTotals ⟨b, v.tenders⟩).run envs n v with
  | error e =>
      rw [h] at hrun
      exact hrun.elim
  | ok r =>
      rw [h] at hrun
      obtain ⟨r, v'⟩ := r
      obtain ⟨rfl, rfl⟩ := hrun
      rfl

/-- In every run from an open bill, the totals were computed at some registration; and refreshing
leaves nothing stale exactly where the three facts that are compared changed, or the kind of tax
and its rate did not. -/
theorem refreshed_fresh_iff {v₀ v : Store} {b : Bill} (hstart : v₀.Billed)
    (h : Runs (fun _ => True) v₀ v) (hb : v.bill = some b) (hopen : b.status = .open) :
    (∃ profile, b.Fresh b.subtotalMinor profile) ∧
      ∀ profile, b.Fresh b.subtotalMinor profile →
        (RefreshedFresh v b ↔
          (b.InTune v.subtotal v.profile → profile.basis = v.profile.basis)) := by
  obtain ⟨b₀, hb₀, -, hfresh₀⟩ := hstart.bill
  have hpriced₀ : v₀.ledger.Priced :=
    ⟨b₀, hb₀, fun _ => ⟨_, hfresh₀.subtotalMinor ▸ hfresh₀⟩⟩
  obtain ⟨-, -, b', hb', hpriced⟩ :=
    h.ledger_preserves (fun _ _ _ _ _ _ _ hL hmove => hmove.priced hL) hstart.priced hstart.wf
      hpriced₀
  obtain rfl := Option.some.inj (hb.symm.trans hb')
  refine ⟨hpriced hopen, fun profile hprofile => ?_⟩
  rw [← Bill.fresh_iff_sameSplit hprofile hopen]
  constructor
  · intro hall
    obtain ⟨r, v', hrun, -, hfresh⟩ := hall (ticking 0) 0
    rw [refresh_run hb] at hrun
    cases hrun
    exact hfresh
  · intro hfresh envs n
    exact ⟨_, _, refresh_run hb envs n, Store.refreshed_bill hb, hfresh⟩

/-! The sample order under the composition scheme, with its bill open; then the owner leaves the
scheme for an inter-state registration. -/

def compositionBill : Bill where
  id := 1
  outletId := 1
  billNumber := none
  subtotalMinor := 24046
  taxMinor := 0
  taxBreakdown := some ⟨[], [compositionNote], none⟩
  pricesIncludeTax := false
  discountMinor := none
  discountReason := none
  roundOffMinor := none
  status := .open
  createdByStaffId := some 1
  finalizedByStaffId := none
  finalizedAt := none

def compositionOrder : Store := { sampleOrder with bill := some compositionBill }

theorem compositionOrder_billed : compositionOrder.Billed where
  priced := ⟨by decide, by decide⟩
  wf :=
    { subtotal_nonneg := by decide
      no_bill := fun h => nomatch h
      intent_ids := .nil
      share_ids := .nil
      share_guests := .nil
      captured := fun _ ht => nomatch ht }
  bill := ⟨compositionBill, rfl, rfl, rfl, rfl, rfl, rfl, rfl, rfl⟩

/-- Leaving the composition scheme, at the given rate. -/
def leaveScheme (gstRatePercent : ℕ) : UpdateTaxRegistrationDto where
  taxProfile := some "IGST"
  compositionScheme := some false
  gstRegistered := none
  gstRatePercent := some gstRatePercent
  gstSplitRounding := none

def leftScheme (gstRatePercent : ℕ) : Store :=
  compositionOrder.after [(.updateTaxRegistration (leaveScheme gstRatePercent), ticking 0)]

/-- The requests that change the order's lines or the tenant's registration. -/
def Op.editsOrTaxes : Op → Prop
  | .addLine .. | .addCombo .. | .updateLine .. | .removeLine .. | .voidLine ..
  | .updateTaxRegistration _ => True
  | _ => False

theorem leftScheme_run (gstRatePercent : ℕ) :
    Runs Op.editsOrTaxes compositionOrder (leftScheme gstRatePercent) := by
  refine .of_after rfl fun r hr => ?_
  obtain rfl := List.mem_singleton.mp hr
  trivial

theorem refreshed_fresh_iff_leftScheme :
    (∃ profile, compositionBill.Fresh compositionBill.subtotalMinor profile) ∧
      ∀ profile, compositionBill.Fresh compositionBill.subtotalMinor profile →
        (RefreshedFresh (leftScheme 500) compositionBill ↔
          (compositionBill.InTune (leftScheme 500).subtotal (leftScheme 500).profile →
            profile.basis = (leftScheme 500).profile.basis)) :=
  refreshed_fresh_iff compositionOrder_billed ((leftScheme_run 500).mono fun _ _ => trivial) rfl rfl

/-- At a rate of nought nothing that is compared changes, and the refreshed bill still carries
the note of the composition scheme. -/
theorem stale_after_leaving_scheme :
    ¬ ∀ (v₀ v : Store) (b : Bill), v₀.Billed → Runs Op.editsOrTaxes v₀ v → v.bill = some b →
      b.status = .open → RefreshedFresh v b := by
  intro h
  obtain ⟨r, v', hrun, -, hfresh⟩ := h compositionOrder (leftScheme 0) compositionBill
    compositionOrder_billed (leftScheme_run 0) rfl rfl (ticking 0) 0
  have hrefresh := refresh_run (v := leftScheme 0) rfl (ticking 0) 0
  rw [hrefresh] at hrun
  cases hrun
  exact absurd hfresh.notes (by decide)

end RestiqBackend
