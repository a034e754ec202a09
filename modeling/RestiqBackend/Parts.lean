import RestiqBackend.Tickets

/-!
What the requests about a bill are made of.

Opening, reading, printing, paying and refunding a bill all begin by refreshing it;
settling it and sending its order end in the same writes. Most results have nothing to
say about the statements around these. A property of programs that sequencing keeps
holds of a request as soon as it holds of the named parts, and of whatever touches no
more than the tables named with them.
-/

namespace RestiqBackend

open ReadCommitted

/-- An `INSERT`, among other transactions: the keys were free in the rows it saw. -/
theorem wp_insertRow {D : Discipline Store Key Read Write} {taken : Store → Bool}
    {keys : List Key} {w : Write} {P Q : TxFootprint → Store → Prop} {l : TxFootprint} {s : Store}
    (hP : D.Stable P) (hQ : D.Stable Q) (h : P l s)
    (hnew : ∀ s, P l s → taken (applyAll l.writes s) = false → D.admits l s ⟨keys, [], [w]⟩ →
      Q (l.add ⟨keys, [], [w]⟩) s) :
    (insertRow taken keys w).wp D (fun _ => Q) l s := by
  refine Txn.wp_bind (Txn.wp_mono (Txn.wp_writeWhen (Q := fun b l s => b = true → Q l s) hP
    (fun b l s s' hrely hQ' hb => hQ l s s' hrely (hQ' hb)) h ?_ ?_) fun inserted l s h => ?_)
  · exact fun s hs htaken hadm _ => hnew s hs (by simpa using htaken) hadm
  · exact fun _ _ _ hb => absurd hb (by simp)
  · cases inserted with
    | true => exact Txn.wp_done hQ (h rfl)
    | false => trivial

section Parts

variable {Φ : ∀ {α : Type}, Tx α → Prop} (hΦ : Txn.Closed Φ)

include hΦ

/-- What follows a check is only sent where the check lets it. -/
theorem raiseIf_parts {α : Type} {c : Prop} [Decidable c] {kind : ErrorKind} {code message : String}
    {g : Unit → Tx α} (h : ¬ c → Φ (g ())) : Φ (raiseIf c kind code message >>= g) := by
  unfold raiseIf
  split
  · exact hΦ.fail _
  · rename_i hc
    exact h hc

/-! ### Settling -/

/-- The statements that a settlement writes its bill, its number and its order with. -/
structure SettlementParts (Φ : ∀ {α : Type}, Tx α → Prop) : Prop where
  counter : Φ upsertBillNumberCounter
  bill : ∀ number discount reason roundOff tax staff at_, Φ (Txn.writeWhen (·.billIs .open) [.bill]
    [.finalizeBill number discount reason roundOff tax staff at_] : Tx Bool)
  fire : ∀ outletId, Φ (fireOnSend outletId)
  close : Φ (Txn.exec (fun _ => [.order]) fun _ => [.updateOrderStatus .closed] : Tx Unit)
  quiet : ∀ {α : Type} {p : Tx α}, p.Emits (Touching [.tenants, .auditEvents]) → Φ p

theorem writeSettlement_parts (h : SettlementParts Φ) (params : CommitFinalizeParams)
    (roundOff : Option ℤ) (tax : Option TaxResult) :
    Φ (writeSettlement params roundOff tax) := by
  refine hΦ.bind h.counter fun _ => hΦ.bind (h.quiet emits_clock) fun _ => ?_
  refine hΦ.bind (h.bill ..) fun _ => hΦ.bind (h.quiet (emits_raiseIf ..)) fun _ => ?_
  refine hΦ.bind (h.fire _) fun _ => hΦ.bind h.close fun _ => ?_
  exact hΦ.bind (h.quiet goLiveOnFirstSale_emits) fun _ => h.quiet (emits_reads loadBill_emits)

theorem commitFinalize_parts (hreads : ∀ {α : Type} {p : Tx α}, p.Emits (Touching []) → Φ p)
    (hwrite : ∀ params roundOff tax, Φ (writeSettlement params roundOff tax))
    (params : CommitFinalizeParams) : Φ (commitFinalize params) :=
  hΦ.bind (hreads (checkSettlement_emits params)) fun _ => hwrite ..

theorem completeBill_parts
    (hquiet : ∀ {α : Type} {p : Tx α}, p.Emits (Touching [.tableSessions]) → Φ p)
    (hsettle : ∀ params, Φ (commitFinalize params)) (order : Order) : Φ (completeBill order) := by
  refine hΦ.bind (hquiet (emits_reads loadBill_emits)) fun _ => hΦ.bind (hsettle _) fun _ => ?_
  exact hΦ.ite (hquiet (emits_exec (by simp [Write.table]))) (hΦ.done ())

theorem finalize_parts (hrefresh : ∀ bill, Φ (refreshOpenBillTotals bill))
    (hquiet : ∀ {α : Type} {p : Tx α}, p.Emits (Touching [.tenders, .auditEvents]) → Φ p)
    (hsettle : ∀ params, Φ (commitFinalize params)) (staff : PosPrincipal) (dto : FinalizeBillDto)
    (authorize : Except ApiError ManagerApproval) : Φ (finalize staff dto authorize) := by
  have hreads : ∀ {α : Type} {p : Tx α}, p.Emits (Touching []) → Φ p := fun h =>
    hquiet (emits_reads h)
  refine hΦ.bind (hreads (emits_raiseIf ..)) fun _ => hΦ.bind (hreads lockBill_emits) fun _ => ?_
  refine hΦ.bind (hreads loadBill_emits) fun _ => ?_
  refine hΦ.bind (hrefresh _) fun _ => hΦ.bind (hreads (emits_raiseIf ..)) fun _ => ?_
  refine hΦ.bind (hreads (approveDiscount_emits ..)) fun _ => ?_
  refine hΦ.bind (hreads (assertShiftForCash_emits _)) fun _ => ?_
  refine hΦ.bind (hΦ.forEach fun t _ => hquiet (emits_within (takeTender_emits t) (by decide))) ?_
  refine fun _ => hΦ.bind (hsettle _) fun _ => hΦ.bind (hquiet ?_) fun _ => hΦ.done _
  exact emits_whenGiven fun _ => emits_within (recordApproval_emits ..) (by decide)

theorem preparePayment_parts (hrefresh : ∀ bill, Φ (refreshOpenBillTotals bill))
    (hquiet : ∀ {α : Type} {p : Tx α}, p.Emits (Touching [.billShares]) → Φ p)
    (guest : GuestPrincipal) : Φ (preparePayment guest) := by
  have hreads : ∀ {α : Type} {p : Tx α}, p.Emits (Touching []) → Φ p := fun h =>
    hquiet (emits_reads h)
  refine hΦ.bind (hΦ.bind (hreads (emits_query _)) fun _ => hreads (emits_raiseIf ..)) fun _ => ?_
  refine hΦ.bind (hreads lockBill_emits) fun _ => hΦ.bind (hreads loadBill_emits) fun _ => ?_
  refine hΦ.bind (hrefresh _) fun _ => hΦ.bind (hreads (loadOrderForSession_emits guest)) fun _ => ?_
  refine hΦ.bind (hreads (emits_raiseIf ..)) fun _ => ?_
  refine hΦ.bind (hreads (assertSessionActive_emits guest)) fun _ => ?_
  exact hΦ.bind (hquiet (syncShares_emits _)) fun _ => hΦ.done _

theorem payShare_parts (hprepare : ∀ guest, Φ (preparePayment guest))
    (hquiet : ∀ {α : Type} {p : Tx α}, p.Emits (Touching [.billShares, .tenders]) → Φ p)
    (hcomplete : ∀ order, Φ (completeBill order)) (guest : GuestPrincipal) (guestId : ℕ)
    (dto : SimulatedPaymentDto) : Φ (payShare guest guestId dto) := by
  refine hΦ.bind (hprepare guest) fun prepared => hΦ.bind (hquiet (emits_query _)) fun share => ?_
  cases share with
  | none => exact hΦ.fail _
  | some share =>
      refine hΦ.bind (hquiet (emits_raiseIf ..)) fun _ => hΦ.bind ?_ fun _ =>
        hquiet (emits_reads buildView_emits)
      unfold onSuccess
      cases dto.simulatedOutcome with
      | failure => exact hΦ.done ()
      | success =>
          refine hΦ.bind (hquiet (emits_within (createTenderRecord_emits _) (by decide))) fun _ => ?_
          refine hΦ.bind (hquiet (emits_within (markSharePaid_emits ..) (by decide))) fun _ => ?_
          exact hΦ.bind (hquiet (emits_query _)) fun _ => hΦ.ite (hcomplete _) (hΦ.done ())

theorem payAll_parts (hprepare : ∀ guest, Φ (preparePayment guest))
    (hquiet : ∀ {α : Type} {p : Tx α},
      p.Emits (Touching [.billShares, .tenders, .paymentIntents, .auditEvents]) → Φ p)
    (hcomplete : ∀ order, Φ (completeBill order)) (guest : GuestPrincipal)
    (dto : SimulatedPaymentDto) : Φ (payAll guest dto) := by
  refine hΦ.bind (hprepare guest) fun prepared => hΦ.bind (hquiet (emits_query _)) fun _ => ?_
  refine hΦ.bind (hquiet (emits_raiseIf ..)) fun _ => hΦ.bind ?_ fun _ =>
    hquiet (emits_reads buildView_emits)
  unfold onSuccess
  cases dto.simulatedOutcome with
  | failure => exact hΦ.done ()
  | success =>
      refine hΦ.bind (hquiet (emits_within (takeWhole_emits ..) (by decide))) fun _ => ?_
      exact hΦ.bind (hquiet (emits_within (payAllShares_emits ..) (by decide))) fun _ => hcomplete _

theorem updateStatus_parts (hreads : ∀ {α : Type} {p : Tx α}, p.Emits (Touching []) → Φ p)
    (hwrite : Φ (Txn.exec (fun _ => [.order]) fun _ => [.updateOrderStatus .sent] : Tx Unit))
    (hfire : ∀ outletId, Φ (fireOnSend outletId)) (staff : PosPrincipal) (name : String)
    (status : OrderStatus) : Φ (updateStatus staff name status) := by
  refine hΦ.bind (hreads (emits_query _)) fun order => ?_
  refine hΦ.bind (hreads (emits_raiseIf ..)) fun _ => hΦ.ite ?_ ?_
  · exact hΦ.bind (hfire _) fun _ => hreads (emits_raiseIf ..)
  · refine raiseIf_parts hΦ fun hforward => ?_
    -- Sending is the only move there is.
    obtain rfl : status = .sent := by
      cases hstatus : order.status <;> simp_all [forwardTransitions]
    refine hΦ.bind hwrite fun _ => ?_
    exact hΦ.ite (hΦ.bind (hfire _) fun _ => hΦ.done ()) (hΦ.done ())

/-! ### Opening and reading -/

theorem createOrGetBillRecord_parts (hrefresh : ∀ bill, Φ (refreshOpenBillTotals bill))
    (hreads : ∀ {α : Type} {p : Tx α}, p.Emits (Touching []) → Φ p)
    (hinsert : ∀ bill : Bill, bill.status = .open → bill.billNumber = none →
      Φ (Txn.writeWhen (fun v => v.bill.isNone) [.bill] [.createBill bill] : Tx Bool))
    (params : CreateBillParams) : Φ (createOrGetBillRecord params) := by
  refine hΦ.bind (hreads (emits_query _)) fun existing => ?_
  cases existing with
  | some existing => exact hΦ.bind (hrefresh _) fun _ => hΦ.done _
  | none =>
      refine hΦ.bind (hreads (emits_raiseIf ..)) fun _ => ?_
      refine hΦ.bind (hreads computeBillTotals_emits) fun _ => hΦ.bind (hreads emits_uuid) fun _ => ?_
      refine hΦ.bind (hinsert _ rfl rfl) fun _ => hΦ.ite (hΦ.done _) ?_
      refine hΦ.bind (hreads (emits_query _)) fun raced => ?_
      cases raced with
      | some raced => exact hΦ.done _
      | none => exact hΦ.fail _

theorem buildInvoiceView_parts (hrefresh : ∀ bill, Φ (refreshOpenBillTotals bill))
    (hreads : ∀ {α : Type} {p : Tx α}, p.Emits (Touching []) → Φ p) : Φ buildInvoiceView := by
  refine hΦ.bind (hreads loadBill_emits) fun _ => hΦ.bind (hrefresh _) fun _ => ?_
  refine hΦ.bind (hreads (emits_query _)) fun _ => ?_
  refine hΦ.bind (hreads loadTenantTaxProfile_emits) fun _ => ?_
  refine hΦ.bind (hreads (emits_query _)) fun _ => hΦ.bind (hreads (emits_query _)) fun _ => ?_
  exact hΦ.done _

theorem printBill_parts (hinvoice : Φ buildInvoiceView)
    (hquiet : ∀ {α : Type} {p : Tx α}, p.Emits (Touching [.printJobs]) → Φ p)
    (source : Option ℕ) : Φ (printBill source) := by
  refine hΦ.bind (hquiet (emits_reads loadBill_emits)) fun _ => hΦ.bind hinvoice fun _ => ?_
  refine hΦ.bind (hquiet (emits_reads (linkedPeripheral_emits ..))) fun target => ?_
  refine hΦ.bind (hquiet (emits_exec (by simp [Write.table]))) fun _ => ?_
  cases target with
  | some target => exact hΦ.done _
  | none => exact hquiet (emits_query _)

theorem refund_parts (hrefresh : ∀ bill, Φ (refreshOpenBillTotals bill))
    (hquiet : ∀ {α : Type} {p : Tx α}, p.Emits (Touching [.creditNotes, .auditEvents]) → Φ p)
    (staff : PosPrincipal) (dto : RefundBillDto) (authorize : Except ApiError ManagerApproval) :
    Φ (refund staff dto authorize) := by
  refine hΦ.bind (hquiet (emits_reads (assertPinGiven_emits ..))) fun _ => ?_
  refine hΦ.bind (hquiet (emits_reads lockBill_emits)) fun _ => ?_
  refine hΦ.bind (hquiet (emits_reads loadBill_emits)) fun _ => hΦ.bind (hrefresh _) fun _ => ?_
  refine hΦ.bind (hquiet (emits_raiseIf ..)) fun _ => hΦ.bind (hquiet (emits_query _)) fun _ => ?_
  refine hΦ.bind (hquiet (emits_query _)) fun _ => hΦ.bind (hquiet (emits_ofExcept _)) fun _ => ?_
  refine hΦ.bind (hquiet (emits_ofExcept _)) fun _ => hΦ.bind (hquiet (emits_query _)) fun _ => ?_
  refine hΦ.bind (hquiet (emits_ofExcept _)) fun _ => hΦ.bind (hquiet emits_uuid) fun _ => ?_
  refine hΦ.bind (hquiet emits_clock) fun _ => ?_
  refine hΦ.bind (hquiet (emits_insertRow (by simp [Write.table]))) fun _ => ?_
  exact hΦ.bind (hquiet (emits_within (recordApproval_emits ..) (by decide))) fun _ => hΦ.done _

theorem createIntent_parts (hrefresh : ∀ bill, Φ (refreshOpenBillTotals bill))
    (hquiet : ∀ {α : Type} {p : Tx α}, p.Emits (Touching [.paymentIntents]) → Φ p)
    (dto : CreatePaymentIntentDto) : Φ (createIntent dto) := by
  refine hΦ.bind (hquiet (emits_query _)) fun _ => hΦ.bind (hquiet (emits_raiseIf ..)) fun _ => ?_
  refine hΦ.bind (hquiet (emits_reads lockBill_emits)) fun _ => ?_
  refine hΦ.bind (hquiet (emits_reads loadBill_emits)) fun _ => hΦ.bind (hrefresh _) fun _ => ?_
  refine hΦ.bind (hquiet (emits_raiseIf ..)) fun _ => hΦ.bind (hquiet (emits_query _)) fun _ => ?_
  refine hΦ.bind (hquiet (emits_raiseIf ..)) fun _ => ?_
  refine hΦ.bind (hquiet (emits_query _)) fun existing => ?_
  cases existing with
  | some row => exact hΦ.bind (hquiet (expireIfDue_emits row)) fun _ => hΦ.done _
  | none =>
      refine hΦ.bind (hquiet (emits_raiseIf ..)) fun _ => ?_
      refine hΦ.bind (hquiet assertNoActiveIntent_emits) fun _ => ?_
      refine hΦ.bind (hquiet (emits_reads (routeToTerminal_emits ..))) fun _ => ?_
      exact hquiet (insertIntent_emits ..)

theorem guestCreateBill_parts (hopen : ∀ params, Φ (createOrGetBillRecord params))
    (hquiet : ∀ {α : Type} {p : Tx α}, p.Emits (Touching [.billShares]) → Φ p)
    (guest : GuestPrincipal) : Φ (guestCreateBill guest) := by
  refine hΦ.bind (hquiet (emits_reads (assertSessionActive_emits guest))) fun _ => ?_
  refine hΦ.bind (hquiet (emits_reads (loadOrderForSession_emits guest))) fun _ => ?_
  refine hΦ.bind (hopen _) fun _ => hΦ.bind (hquiet (syncShares_emits _)) fun _ => ?_
  exact hΦ.bind (hquiet (emits_reads (guestView_emits _))) fun _ => hΦ.done _

theorem guestGetBill_parts (hrefresh : ∀ bill, Φ (refreshOpenBillTotals bill))
    (hquiet : ∀ {α : Type} {p : Tx α}, p.Emits (Touching [.billShares]) → Φ p)
    (guest : GuestPrincipal) : Φ (guestGetBill guest) := by
  refine hΦ.bind (hquiet (emits_reads (loadOrderForSession_emits guest))) fun _ => ?_
  refine hΦ.bind (hquiet (emits_query _)) fun _ => hΦ.bind (hquiet (emits_raiseIf ..)) fun _ => ?_
  refine hΦ.bind (hquiet (emits_reads loadBill_emits)) fun _ => hΦ.bind (hrefresh _) fun _ => ?_
  exact hΦ.bind (hquiet (syncShares_emits _)) fun _ => hquiet (emits_reads (guestView_emits _))

theorem guestGetInvoice_parts (hinvoice : Φ buildInvoiceView)
    (hreads : ∀ {α : Type} {p : Tx α}, p.Emits (Touching []) → Φ p) (guest : GuestPrincipal) :
    Φ (guestGetInvoice guest) := by
  refine hΦ.bind (hreads loadBill_emits) fun _ => ?_
  refine hΦ.bind (hreads (loadOrderForSession_emits guest)) fun _ => ?_
  exact hΦ.bind (hreads (emits_raiseIf ..)) fun _ => hinvoice

/-! ### The operations on lines -/

/-- A line as it is first written. -/
structure OrderLine.IsNew (line : OrderLine) : Prop where
  live : line.voidedAt = none
  plain : line.modifiers = []
  price_nonneg : 0 ≤ line.unitPriceMinor

/-- The statements that an order's lines are added and changed with. -/
structure LineParts (Φ : ∀ {α : Type}, Tx α → Prop) : Prop where
  insert : ∀ line : OrderLine, line.IsNew →
    Φ (insertRow (fun v => v.lines.any (·.id = line.id)) [.line line.id] (.createLine line))
  modifier : ∀ id m, 0 ≤ m.priceMinor →
    Φ (Txn.exec (fun _ => []) fun _ => [.createLineModifier id m] : Tx Unit)
  change : ∀ id w, (∃ quantity, w = .updateLineQuantity id quantity) ∨
    (∃ seat, w = .updateLineSeat id seat) →
    Φ (Txn.writeWhen (fun v => v.lines.any (·.id = id)) [.line id] [w] : Tx Bool)
  clear : ∀ id, Φ (Txn.exec (fun _ => []) fun _ => [.deleteLineModifiers id] : Tx Unit)
  reads : ∀ {α : Type} {p : Tx α}, p.Emits (Touching []) → Φ p

theorem createLine_parts (h : LineParts Φ) {line : OrderLine} (hline : line.IsNew)
    {modifiers : List OrderLineModifier} (hmodifiers : ∀ m ∈ modifiers, 0 ≤ m.priceMinor) :
    Φ (createLine line modifiers) :=
  hΦ.bind (h.insert line hline) fun _ =>
    hΦ.forEach fun m hm => h.modifier line.id m (hmodifiers m hm)

theorem addLine_parts (h : LineParts Φ) (staff : PosPrincipal) (name : String)
    (dto : AddOrderLineDto) (menu : Except ApiError PricedItem) :
    Φ (addLine staff name dto menu) := by
  refine hΦ.bind (h.reads (loadOpenOrder_emits ..)) fun _ => ?_
  refine hΦ.bind (h.reads (emits_ofExcept _)) fun item => hΦ.bind (h.reads emits_uuid) fun _ => ?_
  exact createLine_parts hΦ h ⟨rfl, rfl, Int.natCast_nonneg _⟩ item.modifierRows_nonneg

theorem addCombo_parts (h : LineParts Φ) (staff : PosPrincipal) (name : String)
    (dto : AddComboLineDto) (menu : Except ApiError ComboSelection) :
    Φ (addCombo staff name dto menu) := by
  refine hΦ.bind (h.reads (loadOpenOrder_emits ..)) fun _ => ?_
  refine hΦ.bind (h.reads (emits_ofExcept _)) fun _ => hΦ.bind (h.reads emits_uuid) fun _ => ?_
  refine hΦ.bind (createLine_parts hΦ h ⟨rfl, rfl, Int.natCast_nonneg _⟩ (by simp)) fun _ => ?_
  exact hΦ.forEach fun child _ => hΦ.bind (h.reads emits_uuid) fun _ =>
    createLine_parts hΦ h ⟨rfl, rfl, Int.natCast_nonneg _⟩ child.item.modifierRows_nonneg

theorem updateLine_parts (h : LineParts Φ) (staff : PosPrincipal) (name : String) (lineId : ℕ)
    (dto : UpdateOrderLineDto) : Φ (updateLine staff name lineId dto) := by
  have hgiven : ∀ {β : Type} (x : Option β) {f : β → Tx Unit}, (∀ b ∈ x, Φ (f b)) →
      Φ (whenGiven x f) := fun x _ hf => by
    cases x with
    | some b => exact hf b rfl
    | none => exact hΦ.done ()
  have hchange : ∀ w, (∃ quantity, w = .updateLineQuantity lineId quantity) ∨
      (∃ seat, w = .updateLineSeat lineId seat) →
      Φ (Txn.writeWhen (fun v => v.lines.any (·.id = lineId)) [.line lineId] [w] >>= fun updated =>
        if updated then pure () else Txn.throw internalError) := fun w hw =>
    hΦ.bind (h.change lineId w hw) fun _ => hΦ.ite (hΦ.done ()) (hΦ.fail _)
  refine hΦ.bind (h.reads (loadOpenOrder_emits ..)) fun _ => ?_
  refine hΦ.bind (h.reads (loadOrderLine_emits _)) fun line => ?_
  refine hΦ.bind (h.reads (assertNotComboLine_emits ..)) fun _ => ?_
  refine hΦ.bind (h.reads (assertLineNotSent_emits _)) fun _ => ?_
  refine hΦ.bind (h.reads (assertReduction_emits _)) fun _ => ?_
  refine hΦ.bind (hgiven _ fun quantity _ => hchange _ (.inl ⟨quantity, rfl⟩)) fun _ => ?_
  refine hΦ.bind (hgiven _ fun seat _ => hchange _ (.inr ⟨seat, rfl⟩)) fun _ => ?_
  refine hgiven _ fun menu hmenu => ?_
  cases menu with
  | error e => exact hΦ.fail e
  | ok modifiers =>
      change Φ (replaceModifiers lineId modifiers)
      refine hΦ.bind (h.reads (emits_query _)) fun _ => ?_
      refine hΦ.bind (h.reads (assertReduction_emits _)) fun _ => ?_
      refine hΦ.bind (h.clear lineId) fun _ => hΦ.forEach fun m hm => ?_
      exact h.modifier lineId m (dto.modifiers_nonneg _ hmenu modifiers rfl m hm)

/-! ### Requests -/

/-- What a request can do to an order and its bill: open the bill, settle it, send the
order to the kitchen, or none of these. -/
inductive OrderRole
  | opens
  | settles
  | sends
  | other
  deriving DecidableEq

def Op.role : Op → OrderRole
  | .createBill .. | .guestCreateBill _ => .opens
  | .finalize .. | .payShare .. | .payAll .. => .settles
  | .updateStatus .. => .sends
  | _ => .other

/-- Every table but the bills, the counter their numbers come from and the orders. -/
def tablesBesideOrders : List Table :=
  [.tenders, .paymentIntents, .billShares, .creditNotes, .orderLines, .tickets, .tableSessions,
    .tenants, .taxRegistrations, .printJobs, .auditEvents, .environment]

/-- The parts that write a bill, the counter or the order, each asked for where the role has
it, and everything else. -/
structure RequestParts (role : OrderRole) (Φ : ∀ {α : Type}, Tx α → Prop) : Prop where
  refresh : ∀ bill, Φ (refreshOpenBillTotals bill)
  opening : role = .opens → ∀ params, Φ (createOrGetBillRecord params)
  settling : role = .settles → ∀ params, Φ (commitFinalize params)
  send : role = .sends → ∀ staff name status, Φ (updateStatus staff name status)
  quiet : ∀ {α : Type} {p : Tx α}, p.Emits (Touching tablesBesideOrders) → Φ p

theorem Op.request_parts (op : Op) (h : RequestParts op.role Φ) : Φ op.prog := by
  have hwithin : ∀ {ts : List Table}, (∀ t ∈ ts, t ∈ tablesBesideOrders) → ∀ {α : Type} {p : Tx α},
      p.Emits (Touching ts) → Φ p := fun hts _ _ hp => h.quiet (emits_within hp hts)
  have hreads : ∀ {α : Type} {p : Tx α}, p.Emits (Touching []) → Φ p := hwithin (by decide)
  have hinvoice := buildInvoiceView_parts hΦ h.refresh hreads
  have hcomplete := fun hrole => completeBill_parts hΦ (hwithin (by decide)) (h.settling hrole)
  have hprepare := preparePayment_parts hΦ h.refresh (hwithin (by decide))
  cases op with
  | createBill staff name =>
      exact hΦ.void (hΦ.bind (hreads (emits_query _)) fun _ =>
        hΦ.bind (hreads (assertMayOpen_emits ..)) fun _ => h.opening rfl _)
  | getBill => exact hΦ.void (hΦ.bind (hreads loadBill_emits) fun _ => h.refresh _)
  | getInvoice => exact hΦ.void hinvoice
  | printBill source => exact hΦ.void (printBill_parts hΦ hinvoice (hwithin (by decide)) source)
  | finalize staff dto authorize =>
      exact hΦ.void
        (finalize_parts hΦ h.refresh (hwithin (by decide)) (h.settling rfl) staff dto authorize)
  | refund staff dto authorize =>
      exact hΦ.void (refund_parts hΦ h.refresh (hwithin (by decide)) staff dto authorize)
  | createIntent dto => exact hΦ.void (createIntent_parts hΦ h.refresh (hwithin (by decide)) dto)
  | updateStatus staff name status => exact h.send rfl staff name status
  | guestCreateBill guest =>
      exact hΦ.void (guestCreateBill_parts hΦ (h.opening rfl) (hwithin (by decide)) guest)
  | guestGetBill guest =>
      exact hΦ.void (guestGetBill_parts hΦ h.refresh (hwithin (by decide)) guest)
  | guestGetInvoice guest => exact hΦ.void (guestGetInvoice_parts hΦ hinvoice hreads guest)
  | payShare guest guestId dto =>
      exact hΦ.void
        (payShare_parts hΦ hprepare (hwithin (by decide)) (hcomplete rfl) guest guestId dto)
  | payAll guest dto =>
      exact hΦ.void (payAll_parts hΦ hprepare (hwithin (by decide)) (hcomplete rfl) guest dto)
  | _ =>
      -- The requests that do not touch a bill.
      exact h.quiet (emits_within (Op.emits _) (by simp [Op.tables, tablesBesideOrders]))

/-- The same, down to the statements that insert a bill and settle one. -/
structure OrderParts (role : OrderRole) (Φ : ∀ {α : Type}, Tx α → Prop) : Prop where
  refresh : ∀ bill, Φ (refreshOpenBillTotals bill)
  insert : role = .opens → ∀ bill : Bill, bill.status = .open → bill.billNumber = none →
    Φ (Txn.writeWhen (fun v => v.bill.isNone) [.bill] [.createBill bill] : Tx Bool)
  write : role = .settles → ∀ params roundOff tax, Φ (writeSettlement params roundOff tax)
  send : role = .sends → ∀ staff name status, Φ (updateStatus staff name status)
  quiet : ∀ {α : Type} {p : Tx α}, p.Emits (Touching tablesBesideOrders) → Φ p

theorem Op.order_parts (op : Op) (h : OrderParts op.role Φ) : Φ op.prog := by
  have hreads : ∀ {α : Type} {p : Tx α}, p.Emits (Touching []) → Φ p := fun hp =>
    h.quiet (emits_reads hp)
  exact op.request_parts hΦ
    { refresh := h.refresh
      opening := fun hrole => createOrGetBillRecord_parts hΦ h.refresh hreads (h.insert hrole)
      settling := fun hrole => commitFinalize_parts hΦ hreads (h.write hrole)
      send := h.send
      quiet := h.quiet }

/-- Every table but the bills and the counter their numbers come from. -/
def tablesBesideBills : List Table := .orders :: tablesBesideOrders

/-- The parts that write a bill or the counter, and everything else. -/
structure BillParts (Φ : ∀ {α : Type}, Tx α → Prop) : Prop where
  refresh : ∀ bill, Φ (refreshOpenBillTotals bill)
  insert : ∀ bill : Bill, bill.status = .open → bill.billNumber = none →
    Φ (Txn.writeWhen (fun v => v.bill.isNone) [.bill] [.createBill bill] : Tx Bool)
  write : ∀ params roundOff tax, Φ (writeSettlement params roundOff tax)
  quiet : ∀ {α : Type} {p : Tx α}, p.Emits (Touching tablesBesideBills) → Φ p

theorem Op.bill_parts (h : BillParts Φ) (op : Op) : Φ op.prog :=
  Op.order_parts hΦ op
    { refresh := h.refresh
      insert := fun _ => h.insert
      write := fun _ => h.write
      send := fun _ _ _ _ => h.quiet (emits_within (updateStatus_emits ..) (by decide))
      quiet := fun hp => h.quiet (emits_within hp (by decide)) }

end Parts

end RestiqBackend
