import Mathlib.Algebra.BigOperators.Ring.List
import RestiqBackend.Combos
import RestiqBackend.Families
import RestiqBackend.TaxLaws

/-!
The printed invoice adds up.

An invoice puts next to each other what was computed at different times: the bill's own columns,
the tax breakdown they were billed with, and the order's lines, regrouped with each combo as one
line and divided back into unit prices. That the parts agree rests on combos being whole and on
every stored breakdown being one that adds up.
-/

namespace RestiqBackend

open ReadCommitted

/-! ### Stored breakdowns -/

def StoredTaxBreakdown.amountMinor (breakdown : StoredTaxBreakdown) : ℤ :=
  (breakdown.lines.map (·.amountMinor)).sum

/-- The stored breakdown adds up to the stored tax. -/
def Bill.Balanced (b : Bill) : Prop :=
  (readStoredTaxBreakdown b.taxBreakdown).amountMinor = b.taxMinor

def Store.Balanced (v : Store) : Prop := ∀ b ∈ v.bill, b.Balanced

/-- A write that stores no breakdown but one that adds up. -/
def Write.balanced : Write → Prop
  | .createBill b => b.Balanced
  | .updateBillTotals _ taxMinor breakdown _ => breakdown.amountMinor = taxMinor
  | .finalizeBill _ _ _ _ tax _ _ => ∀ t ∈ tax, t.2.amountMinor = t.1
  | _ => True

def TaxResult.Balanced (tax : TaxResult) : Prop :=
  (toStoredTaxBreakdown tax).amountMinor = tax.taxMinor

theorem TenantTaxProfile.taxOn_balanced (profile : TenantTaxProfile) (taxableMinor : ℤ) :
    (profile.taxOn taxableMinor).Balanced := by
  obtain ⟨_, h⟩ := exists_charging _
  exact h.sum_breakdown

theorem Store.Balanced.apply {v : Store} (hv : v.Balanced) {w : Write} (h : w.balanced) :
    (v.apply w).Balanced := by
  intro b hb
  cases w
  case createBill => exact Option.some.inj hb ▸ h
  case deleteBill => cases hb
  case updateBillTotals subtotal tax breakdown inclusive =>
    obtain ⟨b₀, _, rfl⟩ := Option.mem_map.mp hb
    exact h
  case finalizeBill number discount reason roundOff tax staff at_ =>
    obtain ⟨b₀, hb₀, rfl⟩ := Option.mem_map.mp hb
    cases tax with
    | none => exact hv b₀ hb₀
    | some t => exact h t rfl
  all_goals exact hv b hb

/-! ### What every request stores -/

theorem computeTaxOn_returns (taxableMinor : ℤ) :
    (computeTaxOn taxableMinor).Returns TaxResult.Balanced :=
  (Txn.Returns.of_forall (R := fun _ => True) (fun _ => trivial) _).bind fun profile _ =>
    profile.taxOn_balanced taxableMinor

theorem computeBillTotals_returns :
    computeBillTotals.Returns fun totals => totals.2.Balanced :=
  (Txn.Returns.of_forall (R := fun _ => True) (fun _ => trivial) _).bind fun _ _ =>
    (computeTaxOn_returns _).bind fun _ h => h

theorem checkSettlement_returns (params : CommitFinalizeParams) :
    (checkSettlement params).Returns fun checked => ∀ tax ∈ checked.2, tax.Balanced := by
  have hany : ∀ {α : Type} (p : Tx α), p.Returns fun _ => True := fun p =>
    .of_forall (fun _ => trivial) p
  refine (hany _).bind fun _ _ => (hany _).bind fun _ _ => (hany _).bind fun _ _ =>
    (hany _).bind fun _ _ => Txn.Returns.bind (R := fun tax => ∀ t ∈ tax, TaxResult.Balanced t) ?_
      fun tax htax => (hany _).bind fun _ _ => htax
  unfold discountedTax
  split
  · exact (computeTaxOn_returns _).bind fun tax htax t ht => Option.some.inj ht ▸ htax
  · exact fun t ht => by cases ht

section Balanced

/-- Every table but the bills. -/
def unbilledTables : List Table := .billNumberCounters :: tablesBesideBills

theorem balanced_of_table {w : Write} (h : w.table ∈ unbilledTables) : w.balanced := by
  cases w <;> trivial

theorem emits_reads_balanced {α : Type} {p : Tx α} (hp : p.Emits (Touching [])) :
    p.Emits (Writing Write.balanced) :=
  writing_of_touching (fun _ hw => absurd hw List.not_mem_nil) hp

theorem refreshOpenBillTotals_balanced (bill : BillWithTenders) :
    (refreshOpenBillTotals bill).Emits (Writing Write.balanced) := by
  refine .ite trivial ((emits_reads_balanced computeBillTotals_emits).bind_returns
    computeBillTotals_returns fun totals htotals => .ite trivial ?_)
  exact Txn.Emits.bind ⟨fun _ _ w hw => List.mem_singleton.mp hw ▸ htotals, fun _ => trivial⟩
    fun updated => by cases updated <;> trivial

theorem createOrGetBillRecord_balanced (params : CreateBillParams) :
    (createOrGetBillRecord params).Emits (Writing Write.balanced) := by
  refine (emits_reads_balanced (emits_query _)).bind fun existing => ?_
  cases existing with
  | some existing => exact (refreshOpenBillTotals_balanced _).bind fun _ => trivial
  | none =>
      refine (emits_reads_balanced (emits_raiseIf ..)).bind fun _ => ?_
      refine (emits_reads_balanced computeBillTotals_emits).bind_returns
        computeBillTotals_returns fun totals htotals => ?_
      refine (emits_reads_balanced emits_uuid).bind fun id => ?_
      refine (writing_writeWhen (List.forall_mem_singleton.mpr htotals)).bind fun _ =>
        .ite trivial ?_
      refine (emits_reads_balanced (emits_query _)).bind fun raced => ?_
      cases raced <;> trivial

theorem commitFinalize_balanced (params : CommitFinalizeParams) :
    (commitFinalize params).Emits (Writing Write.balanced) := by
  have hquiet : ∀ {ts : List Table}, (∀ t ∈ ts, t ∈ unbilledTables) → ∀ {α : Type} {p : Tx α},
      p.Emits (Touching ts) → p.Emits (Writing Write.balanced) := fun hts _ _ hp =>
    writing_of_touching (fun _ => balanced_of_table) (emits_within hp hts)
  refine (emits_reads_balanced (checkSettlement_emits params)).bind_returns
    (checkSettlement_returns params) fun checked htax => ?_
  refine Txn.Emits.bind ⟨fun _ _ w hw => List.mem_singleton.mp hw ▸ trivial, fun _ => trivial⟩
    fun number => (emits_reads_balanced emits_clock).bind fun _ => ?_
  refine (writing_writeWhen (List.forall_mem_singleton.mpr fun t ht => ?_)).bind fun _ =>
    (emits_reads_balanced (emits_raiseIf ..)).bind fun _ => ?_
  · obtain ⟨tax, htax', rfl⟩ := Option.mem_map.mp ht
    exact htax tax htax'
  refine (hquiet (by decide) (fireOnSend_emits _)).bind fun _ => ?_
  have horders : ∀ t ∈ [Table.orders], t ∈ unbilledTables := by decide
  refine (hquiet horders (emits_exec (by simp [Write.table]))).bind fun _ => ?_
  exact (hquiet (by decide) goLiveOnFirstSale_emits).bind fun _ =>
    emits_reads_balanced loadBill_emits

/-- No request stores a breakdown that does not add up. -/
theorem Op.balanced (op : Op) : op.prog.Emits (Writing Write.balanced) := by
  have hquiet : ∀ {α : Type} {p : Tx α}, p.Emits (Touching unbilledTables) →
      p.Emits (Writing Write.balanced) := writing_of_touching fun _ => balanced_of_table
  exact op.request_parts (writing_closed _)
    { refresh := refreshOpenBillTotals_balanced
      opening := fun _ => createOrGetBillRecord_balanced
      settling := fun _ => commitFinalize_balanced
      send := fun _ _ _ _ => hquiet (emits_within (updateStatus_emits ..) (by decide))
      quiet := fun hp => hquiet (emits_within hp (by decide)) }

theorem Runs.balanced {P : Op → Prop} {v v' : Store} (h : Runs P v v') (hv : v.Balanced) :
    v'.Balanced :=
  h.preserves (fun op _ _ _ hv hstep =>
    hstep.post hv (commits_of_writing op.balanced (fun _ _ hw hv => hv.apply hw) hv)) hv

end Balanced

/-! ### The invoice -/

/-- The line prints the family: a combo's line with its items, or a line of its own. -/
structure InvoiceLineView.Prints (view : InvoiceLineView) (family : OrderLine × List OrderLine) :
    Prop where
  comboId : view.comboId = family.1.comboId
  itemId : view.itemId = family.1.itemId
  variantId : view.variantId = family.1.variantId
  quantity : view.quantity = family.1.quantity
  components : view.components =
    family.2.map fun c => ((c.quantity : ℚ) / family.1.quantity, c.itemId)
  lineTotalMinor : view.lineTotalMinor = ((family.1 :: family.2).map OrderLine.totalMinor).sum

/-- The document agrees with itself and shows every one of the order's lines once. -/
structure InvoiceView.AddsUp (view : InvoiceView) (orderLines : List OrderLine) : Prop where
  subtotal : (view.lines.map (·.lineTotalMinor)).sum = view.subtotalMinor
  unit : ∀ line ∈ view.lines, line.unitPriceMinor * line.quantity = line.lineTotalMinor
  whole : ∃ groups : List (OrderLine × List OrderLine),
    (groups.flatMap fun g => g.1 :: g.2).Perm orderLines ∧
      List.Forall₂ InvoiceLineView.Prints view.lines groups
  tax : (view.taxBreakdown.map (·.amountMinor)).sum = view.taxMinor
  total : view.totalMinor = computeTotalMinor view.subtotalMinor view.taxMinor
    (view.discountMinor.getD 0) view.pricesIncludeTax
  tenders : (view.tenders.map (·.amountMinor)).sum =
    view.totalMinor + view.roundOffMinor.getD 0

/-- The invoice of a bill that is finalized. -/
def Store.invoiceOf (v : Store) (b : Bill) : InvoiceView :=
  let profile := taxProfileOf v.tenant.country v.taxRegistration
  { status := b.status
    invoiceNumber := b.billNumber
    testMode := isTestSale v.tenant.liveSince b.finalizedAt
    title := invoiceTitle profile b.status
    issuedAt := b.finalizedAt
    currency := currencyForCountry profile.country
    lines := invoiceLines v.liveLines
    subtotalMinor := b.subtotalMinor
    discountMinor := b.discountMinor
    discountReason := b.discountReason
    taxBreakdown := (readStoredTaxBreakdown b.taxBreakdown).lines
    taxMinor := b.taxMinor
    totalMinor := b.totalMinor
    roundOffMinor := b.roundOffMinor
    pricesIncludeTax := b.pricesIncludeTax
    tenders := v.tenders
    creditNotes := v.creditNotes.map fun n => (n.totalMinor b.pricesIncludeTax, n.method)
    notes := (readStoredTaxBreakdown b.taxBreakdown).notes }

section Invoice

variable {v : Store} {b : Bill}

/-- It is built without a write. -/
theorem buildInvoiceView_run (hb : v.bill = some b) (hfin : b.status = .finalized)
    (envs : ℕ → Env) (n : ℕ) : buildInvoiceView.run envs n v = .ok (v.invoiceOf b, v) := by
  simp [buildInvoiceView, loadBill, refreshOpenBillTotals, loadTenantTaxProfile, Txn.run,
    Txn.query, Store.loadedBill, hb, hfin, Store.invoiceOf]

/-- Of the lines that are not voided, an item's combo is one too. -/
theorem Store.Whole.nested (h : v.Whole) (hpriced : v.Priced) :
    Nested OrderLine.id OrderLine.parentLineId v.liveLines where
  keys := hpriced.ids.sublist (List.filter_sublist.map _)
  parents c hc p hp := by
    obtain ⟨hc, hlive⟩ := List.mem_filter.mp hc
    obtain ⟨t, ht, hitem⟩ := h.items c hc (by simp [hp])
    refine ⟨t, List.mem_filter.mpr ⟨ht, hitem.voided ▸ hlive⟩, ?_, hitem.top⟩
    exact Option.some.inj (hitem.parent.symm.trans hp)

/-- How a family is printed. -/
def invoiceLine (g : OrderLine × List OrderLine) : InvoiceLineView :=
  let lineTotal := g.1.totalMinor + (g.2.map (·.totalMinor)).sum
  { comboId := g.1.comboId, itemId := g.1.itemId, variantId := g.1.variantId
    quantity := g.1.quantity
    unitPriceMinor := lineTotal.tdiv g.1.quantity
    lineTotalMinor := lineTotal
    components := g.2.map fun c => ((c.quantity : ℚ) / g.1.quantity, c.itemId) }

theorem invoiceLines_eq (lines : List OrderLine) :
    invoiceLines lines =
      (families OrderLine.id OrderLine.parentLineId lines).map invoiceLine := by
  rw [families, List.map_map]
  rfl

theorem invoiceLine_prints (g : OrderLine × List OrderLine) : (invoiceLine g).Prints g where
  comboId := rfl
  itemId := rfl
  variantId := rfl
  quantity := rfl
  components := rfl
  lineTotalMinor := by simp [invoiceLine]

/-- A family's total is a multiple of how many there are of it. -/
theorem Store.Whole.divides (h : v.Whole) (hpriced : v.Priced) {g : OrderLine × List OrderLine}
    (hg : g ∈ families OrderLine.id OrderLine.parentLineId v.liveLines) :
    1 ≤ g.1.quantity ∧ (g.1.quantity : ℤ) ∣ g.1.totalMinor + (g.2.map (·.totalMinor)).sum := by
  obtain ⟨t, ht, rfl⟩ := List.mem_map.mp hg
  obtain ⟨ht, htop⟩ := mem_tops.mp ht
  have hline := List.mem_of_mem_filter ht
  refine ⟨h.counts t hline htop, dvd_add (Dvd.intro _ rfl) (List.dvd_sum fun x hx => ?_)⟩
  obtain ⟨c, hc, rfl⟩ := List.mem_map.mp hx
  obtain ⟨hc, hparent⟩ := mem_under.mp hc
  obtain ⟨t', ht', hitem⟩ := h.items c (List.mem_of_mem_filter hc) (by simp [hparent])
  obtain rfl : t' = t := eq_of_key_eq hpriced.ids ht' hline
    (Option.some.inj (hitem.parent.symm.trans hparent))
  exact Dvd.dvd.mul_right (by exact_mod_cast hitem.times) _

/-- The invoice of a whole order, where the bill's columns agree with the lines and the tenders. -/
theorem Store.Whole.addsUp (h : v.Whole) (hpriced : v.Priced) (hbalanced : b.Balanced)
    (hsub : b.subtotalMinor = v.subtotal)
    (hsettled : v.tenderTotal = b.totalMinor + b.roundOffMinor.getD 0) :
    (v.invoiceOf b).AddsUp v.liveLines := by
  have hlines : (v.invoiceOf b).lines =
      (families OrderLine.id OrderLine.parentLineId v.liveLines).map invoiceLine :=
    invoiceLines_eq v.liveLines
  have hnested := h.nested hpriced
  refine ⟨?_, fun line hline => ?_, ⟨_, hnested.perm, ?_⟩, hbalanced, rfl, hsettled⟩
  · rw [hlines, List.map_map]
    exact (hnested.sum_families OrderLine.totalMinor).trans hsub.symm
  · rw [hlines] at hline
    obtain ⟨g, hg, rfl⟩ := List.mem_map.mp hline
    exact Int.tdiv_mul_cancel (h.divides hpriced hg).2
  · rw [hlines]
    exact List.forall₂_map_left_iff.mpr (List.forall₂_same.mpr fun g _ => invoiceLine_prints g)

end Invoice

/-- **The printed invoice adds up.** Take any run of requests from an order with whole combos, and
let the bill be finalized, its tenders cover its total and round-off, and its stored subtotal be
that of the order's lines. The invoice is built, and its lines add up to the subtotal, each is its
unit price times its quantity, together they are the order's lines with none left out or shown
twice, the breakdown adds up to the tax, the total is that of the figures printed with it, and the
tenders pay it with the round-off. -/
theorem invoice_adds_up {v₀ v : Store} (hplaced : v₀.Placed) (hwhole : v₀.Whole)
    (hruns : Runs (fun _ => True) v₀ v) {b : Bill} (hb : v.bill = some b)
    (hfin : b.status = .finalized)
    (hsettled : v.tenderTotal = b.totalMinor + b.roundOffMinor.getD 0)
    (hsub : b.subtotalMinor = v.subtotal) :
    ∃ view, (∀ envs n, buildInvoiceView.run envs n v = .ok (view, v)) ∧
      view.subtotalMinor = b.subtotalMinor ∧ view.AddsUp v.liveLines := by
  have hbooks : v.Priced := Store.Reachable.books ⟨v₀, hplaced, hruns⟩ |>.1
  have hbalanced := hruns.balanced (fun b hb => by simp [hplaced.bill] at hb) b hb
  exact ⟨v.invoiceOf b, buildInvoiceView_run hb hfin, rfl,
    (hruns.whole hplaced.priced hplaced.wf hwhole).addsUp hbooks hbalanced hsub hsettled⟩

/-- The sample order with a combo besides, twice, with four of an item at an extra charge; five
per cent of tax. -/
def comboOrder : Store :=
  let line (id : ℕ) (comboId parentLineId : Option ℕ) (quantity : ℕ) (unitPriceMinor : ℤ) :
      OrderLine :=
    { id, comboId, parentLineId, quantity, unitPriceMinor
      itemId := some id, variantId := none, modifiers := [], seatNumber := none
      guestId := none, guestName := none, voidedAt := none }
  { sampleOrder with
    taxRegistration := some ⟨"", false, true, none, .exactTotal⟩
    lines := line 3 (some 1) none 2 10000 :: line 4 none (some 3) 4 500 :: sampleOrder.lines }

theorem comboOrder_placed : comboOrder.Placed where
  priced := ⟨by decide, by decide⟩
  bill := rfl
  tenders := rfl
  intents := rfl
  shares := rfl
  creditNotes := rfl

theorem comboOrder_whole : comboOrder.Whole where
  items c hc hchild := by
    simp only [comboOrder, sampleOrder, List.mem_cons, List.not_mem_nil, or_false] at hc
    rcases hc with rfl | rfl | rfl | rfl
    · exact absurd rfl hchild
    · exact ⟨_, List.mem_cons_self, rfl, rfl, by decide, rfl, by decide⟩
    · exact absurd rfl hchild
    · exact absurd rfl hchild
  counts := by decide

/-- It is billed and settled in cash. -/
def comboRequests : List (Op × (ℕ → Env)) :=
  [(.createBill sampleStaff "", ticking 100),
    (settleWith [cashTender 48300 (by decide)], ticking 200)]

theorem invoice_adds_up_sample : ∃ (b : Bill) (view : InvoiceView),
    (comboOrder.after comboRequests).bill = some b ∧ b.roundOffMinor = some (-48) ∧
    view.subtotalMinor = 46046 ∧
    view.AddsUp (comboOrder.after comboRequests).liveLines := by
  have hruns : Runs (fun _ => True) comboOrder (comboOrder.after comboRequests) :=
    .of_after (by rfl) fun _ _ => trivial
  obtain ⟨b, hb⟩ : ∃ b, (comboOrder.after comboRequests).bill = some b := ⟨_, rfl⟩
  have hcolumns : (comboOrder.after comboRequests).bill.map (fun b => (b.status, b.subtotalMinor,
      b.roundOffMinor, b.totalMinor)) = some (.finalized, 46046, some (-48), 48348) := by decide +kernel
  rw [hb, Option.map_some, Option.some.injEq, Prod.mk.injEq, Prod.mk.injEq, Prod.mk.injEq] at hcolumns
  obtain ⟨hfin, hsub, hround, htotal⟩ := hcolumns
  obtain ⟨view, hrun, hview, hadds⟩ := invoice_adds_up comboOrder_placed comboOrder_whole hruns hb
    hfin (by rw [htotal, hround]; rfl) (by rw [hsub]; rfl)
  exact ⟨b, view, hb, hround, hview.trans hsub, hadds⟩

end RestiqBackend

