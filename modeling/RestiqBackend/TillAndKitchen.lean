import RestiqBackend.KitchenCopy

/-!
Runs of the till and the kitchen on one order (`src/pos/orders/orders.service.ts`,
`src/kitchen/tickets.service.ts`).

Every request of an order, of its bill and of its tickets, one at a time in any order. The order's
view says which lines the kitchen has, and the requests that remove and void a line each ask once
more: three readings of the same rows, which the invariant of the runs makes one.
-/

namespace RestiqBackend

open ReadCommitted

/-! ### Requests -/

inductive ServiceOp
  | order (op : OrderOp)
  | kitchen (op : KitchenOp)

def ServiceOp.prog : ServiceOp → Tx Unit
  | .order op => op.prog
  | .kitchen op => op.prog

/-- A program run on its own: it commits, or it throws and changes nothing. -/
inductive Handled (p : Tx Unit) (v : Store) : Store → Prop
  | commits {envs : ℕ → Env} {v' : Store} (h : p.run envs 0 v = .ok ((), v')) : Handled p v v'
  | throws {envs : ℕ → Env} {e : ApiError} (h : p.run envs 0 v = .error e) : Handled p v v

abbrev ServiceRun (v : Store) (ops : List ServiceOp) (v' : Store) : Prop :=
  Serial.Run (fun v op v' => Handled op.prog v v') (fun _ _ => True) v ops v'

section Steps

variable {v v' : Store}

theorem Handled.post {p : Tx Unit} (h : Handled p v v') {Q : Store → Prop} (hv : Q v)
    (hQ : p.commits (fun _ => Q) v) : Q v' := by
  cases h with
  | commits h => exact Txn.commits_run hQ h
  | throws => exact hv

theorem Handled.step {op : Op} (h : Handled op.prog v v') : op.Step v v' := by
  cases h with
  | commits h => exact .commits ⟨_, h⟩
  | throws h => exact .throws h

/-! ### The kitchen's requests -/

/-- Tickets moved between the queue and the shelf: their rows change, their lines do not. -/
structure TicketsMoved (v v' : Store) : Prop where
  frame : Frame [.tickets] v v'
  ticketLines : v'.ticketLines = v.ticketLines
  ids : v'.tickets.map (·.id) = v.tickets.map (·.id)

theorem TicketsMoved.refl (v : Store) : TicketsMoved v v := ⟨.refl _ v, rfl, rfl⟩

theorem commits_updateTicket {ticketId : ℕ} {status : TicketStatus} {at_ : Option (Option ℤ)} :
    (updateTicket ticketId status at_).commits (fun _ v' => TicketsMoved v v') v := by
  simp only [updateTicket, Txn.commits, Txn.wlp_bind]
  refine Txn.commits_writeWhen (fun _ => ?_) fun _ => trivial
  exact ⟨frame_applyAll (by simp [Write.table]) v, rfl,
    map_updateRows (g := Ticket.id) (by intro t; rfl) _ _⟩

theorem commits_loadTicket {ticketId : ℕ} {Q : Ticket → Store → Prop} (hQ : ∀ t, Q t v) :
    (loadTicket ticketId).commits Q v := by
  simp only [loadTicket, Txn.commits, Txn.wlp_bind, Txn.wlp_query]
  intro _ _
  cases v.tickets.find? (·.id = ticketId) with
  | some t => exact hQ t
  | none => trivial

theorem bump_moves (ticketId : ℕ) :
    (bump ticketId).commits (fun _ v' => TicketsMoved v v') v := by
  simp only [bump, Txn.commits, Txn.wlp_bind, Txn.wlp_clock]
  exact commits_loadTicket fun _ => commits_raiseIf fun _ _ _ => commits_updateTicket

theorem recallTicket_moves (ticketId : ℕ) :
    (recallTicket ticketId).commits (fun _ v' => TicketsMoved v v') v := by
  simp only [recallTicket, Txn.commits, Txn.wlp_bind, Txn.wlp_clock]
  exact commits_loadTicket fun _ => commits_raiseIf fun _ _ _ => commits_raiseIf fun _ =>
    commits_updateTicket

theorem refire_moves (ticketId : ℕ) :
    (refire ticketId).commits (fun _ v' => TicketsMoved v v') v := by
  simp only [refire, Txn.commits, Txn.wlp_bind]
  exact commits_loadTicket fun _ => commits_updateTicket

/-! ### Discarding and handing over -/

/-- What discarding leaves of an order that is not closed: the lines and the tickets, and
no bill, on which nothing was. -/
structure Discarded (v v' : Store) : Prop where
  frame : Frame [.bills, .printJobs, .orders, .auditEvents] v v'
  wasOpen : v.order.status ≠ .closed
  bill : v'.bill = none
  unpaid : v.bill ≠ none → v.tenders = [] ∧ v.intents = [] ∧ v.shares = []

theorem commits_changeRow {allowed : Store → Bool} {keys : List Key} {writes : List Write}
    {Q : Unit → Store → Prop} (hQ : Q () (applyAll writes v)) :
    (changeRow allowed keys writes).commits Q v := by
  simp only [changeRow, Txn.commits, Txn.wlp_bind]
  exact Txn.commits_writeWhen (fun _ => hQ) fun _ => trivial

theorem commits_loadOrder {Q : Order → Store → Prop} (hQ : Q v.order v) :
    loadOrder.commits Q v := by
  simp only [loadOrder, Txn.commits, Txn.wlp_bind, Txn.wlp_query]
  exact fun _ _ => commits_raiseIf fun _ => hQ

theorem discard_discards (staff : PosPrincipal) (name what : String) :
    (discard staff name what).commits (fun _ v' => Discarded v v') v := by
  simp only [discard, assertOwner, Txn.commits, Txn.wlp_bind, Txn.wlp_query]
  refine commits_loadOrder (commits_raiseIf fun _ => commits_raiseIf fun hopen _ _ => ?_)
  refine commits_raiseIf fun _ _ _ => commits_raiseIf fun hunpaid => ?_
  have hremove : ∀ v₁ : Store, Frame [.bills, .printJobs] v v₁ → v₁.bill = none →
      (v.bill ≠ none → v.tenders = [] ∧ v.intents = [] ∧ v.shares = []) →
      (removeOrder v.lines).commits (fun _ v₂ => (Txn.exec (fun _ => []) fun _ =>
        [.createAuditEvent ⟨"order.discarded", some staff.id, none,
          .text ("Discarded empty " ++ what)⟩] : Tx Unit).commits
        (fun _ v' => Discarded v v') v₂) v₁ := by
    intro v₁ hframe hbill hnothing
    have hend : ∀ v₂ : Store, Frame [.orders] v₁ v₂ → (Txn.exec (fun _ => []) fun _ =>
        [.createAuditEvent ⟨"order.discarded", some staff.id, none,
          .text ("Discarded empty " ++ what)⟩] : Tx Unit).commits
        (fun _ v' => Discarded v v') v₂ := by
      intro v₂ hframe₂
      simp only [Txn.commits, Txn.wlp_exec, applyAll_cons, applyAll_nil, writeTo_apply]
      refine fun _ _ => ⟨?_, hopen, ?_, hnothing⟩
      · exact (hframe.mono (by simp)).trans ((hframe₂.mono (by simp)).trans
          (frame_apply (by simp [Write.table]) v₂))
      · exact (show v₂.bill = v₁.bill from hframe₂ .bills (by decide)).trans hbill
    unfold removeOrder
    split
    · exact commits_changeRow (hend _ (frame_applyAll (by simp [Write.table]) v₁))
    · exact commits_changeRow (hend _ (frame_applyAll (by simp [Write.table]) v₁))
  cases hb : v.bill with
  | none =>
      simp only [Store.billWithCounts, hb, Option.map_none]
      exact hremove v (.refl _ v) hb fun h => absurd hb h
  | some b =>
      obtain ⟨-, ⟨htenders, hintents⟩, hshares⟩ : b.status = .open ∧
          (v.tenders = [] ∧ v.intents = []) ∧ v.shares = [] := by
        simpa [Store.billWithCounts, hb] using hunpaid
      simp only [Store.billWithCounts, hb, Option.map_some, whenGiven, deleteBill]
      exact commits_changeRow (hremove _ (frame_applyAll (by simp [Write.table]) v) rfl
        fun _ => ⟨htenders, hintents, hshares⟩)

theorem transfer_transfers (staff : PosPrincipal) (newOwner : ℕ) (found : Bool) (reason : String) :
    (transfer staff newOwner found reason).commits
      (fun _ v' => Frame [.orders, .auditEvents] v v' ∧ v.order.status ≠ .closed) v := by
  simp only [transfer, updateOrder, Txn.commits, Txn.wlp_bind, Txn.wlp_exec]
  refine commits_loadOrder (commits_raiseIf fun hopen => commits_raiseIf fun _ => ?_)
  refine commits_changeRow fun _ _ => ⟨?_, hopen⟩
  exact (frame_applyAll (by simp [Write.table]) v).trans (frame_applyAll (by simp [Write.table]) _)

/-! ### The invariant -/

/-- What holds of an order, its bill and its tickets at every moment of their service. -/
structure Store.InService (v : Store) : Prop where
  priced : v.Priced
  wf : v.ledger.Wf
  whole : v.Whole
  kitchen : v.Kitchen
  sent : v.AllSent

/-- A change that leaves the lines and the money as they are. -/
theorem Store.InService.of_frame {ts : List Table} (h : v.InService) (hframe : Frame ts v v')
    (hts : ∀ t ∈ ts, t ∈ quietTables) (hkitchen : v'.Kitchen) (hsent : v'.AllSent) :
    v'.InService := by
  obtain ⟨hledger, hlines⟩ := hframe.ledger hts
  exact ⟨⟨hlines ▸ h.priced.prices, hlines ▸ h.priced.ids⟩, hledger ▸ h.wf,
    h.whole.of_lines hlines, hkitchen, hsent⟩

theorem Store.InService.request (h : v.InService) {op : Op} (hstep : op.Step v v') :
    v'.InService ∧ v.Kept v' := by
  have hposts := hstep.posts h.priced h.wf
  obtain ⟨hkitchen, hkept⟩ := hstep.kitchen h.kitchen h.whole
  exact ⟨⟨hposts.1, hposts.wf h.wf, hstep.whole h.priced h.whole, hkitchen,
    hstep.allSent h.sent⟩, hkept⟩

theorem Store.InService.discard (h : v.InService) (hgone : Discarded v v') :
    v'.InService ∧ v.Kept v' := by
  have hspares := Store.Spares.of_frame hgone.frame (by decide) (by decide)
  have hlines : v'.lines = v.lines := hgone.frame .orderLines (by decide)
  have hrows : v'.tenders = [] ∧ v'.intents = [] ∧ v'.shares = [] := by
    rw [show v'.tenders = v.tenders from hgone.frame .tenders (by decide),
      show v'.intents = v.intents from hgone.frame .paymentIntents (by decide),
      show v'.shares = v.shares from hgone.frame .billShares (by decide)]
    cases hb : v.bill with
    | none => exact h.wf.no_bill hb
    | some b => exact hgone.unpaid (by simp [hb])
  have hpriced : v'.Priced := ⟨hlines ▸ h.priced.prices, hlines ▸ h.priced.ids⟩
  refine ⟨⟨hpriced, ?_, h.whole.of_lines hlines, hspares.kitchen h.kitchen, fun hfinal => ?_⟩,
    hspares.kept⟩
  · exact {
      subtotal_nonneg := hpriced.subtotal_nonneg
      no_bill := fun _ => hrows
      intent_ids := by simp [Store.ledger, hrows.2.1]
      share_ids := by simp [Store.ledger, hrows.2.2]
      share_guests := by simp [Store.ledger, hrows.2.2]
      captured := by simp [Store.ledger, hrows.1] }
  · simp [Store.billIs, hgone.bill] at hfinal

theorem Store.InService.transfer (h : v.InService) (hframe : Frame [.orders, .auditEvents] v v')
    (hopen : v.order.status ≠ .closed) : v'.InService ∧ v.Kept v' := by
  have hspares := Store.Spares.of_frame hframe (by decide) (by decide)
  refine ⟨h.of_frame hframe (by decide) (hspares.kitchen h.kitchen) fun hfinal => ?_, hspares.kept⟩
  rw [Store.billIs, show v'.bill = v.bill from hframe .bills (by decide)] at hfinal
  exact absurd (h.sent hfinal).1 hopen

theorem Store.InService.move (h : v.InService) (hmoved : TicketsMoved v v') :
    v'.InService ∧ v.Kept v' := by
  have hlines : v'.lines = v.lines := hmoved.frame .orderLines (by decide)
  have hfired : v'.firedLines = v.firedLines := by
    rw [Store.firedLines, hmoved.ticketLines, Store.firedLines]
  refine ⟨h.of_frame hmoved.frame (by decide) ⟨⟨?_, fun tl htl => ?_⟩, ?_, ?_, ?_⟩
    fun hfinal => ?_, ?_⟩
  · rw [hmoved.ids]
    exact h.kitchen.ids
  · rw [hmoved.ticketLines] at htl
    obtain ⟨t, ht, hid⟩ := h.kitchen.placed tl htl
    have hmem : t.id ∈ v'.tickets.map (·.id) := hmoved.ids ▸ List.mem_map_of_mem ht
    obtain ⟨t', ht', hid'⟩ := List.mem_map.mp hmem
    exact ⟨t', ht', hid'.trans hid⟩
  · rw [Store.lineIds, hlines]
    exact h.kitchen.lineIds
  · rw [hfired]
    exact h.kitchen.once
  · rw [hmoved.ticketLines, hlines]
    exact h.kitchen.copies
  · rw [Store.billIs, show v'.bill = v.bill from hmoved.frame .bills (by decide)] at hfinal
    rw [show v'.order = v.order from hmoved.frame .orders (by decide),
      unfired_of_same hlines hmoved.ticketLines]
    exact h.sent hfinal
  · exact ⟨fun l hl _ => ⟨l, by rwa [hlines], .inl rfl⟩, fun tl htl =>
      ⟨tl, by rwa [hmoved.ticketLines], .inl rfl⟩⟩

/-- Every request keeps the order in service, and what the kitchen had of it. -/
theorem Store.InService.handle (h : v.InService) {op : ServiceOp} (hstep : Handled op.prog v v') :
    v'.InService ∧ v.Kept v' := by
  have hstay : v.InService ∧ v.Kept v := ⟨h, .refl v⟩
  have hmove : ∀ {p : Tx Unit}, Handled p v v' → p.commits (fun _ v' => TicketsMoved v v') v →
      v'.InService ∧ v.Kept v' := fun hstep hp =>
    h.move (hstep.post (Q := TicketsMoved v) (.refl v) hp)
  cases op with
  | order op =>
      cases op with
      | request op => exact h.request hstep.step
      | discard staff name what =>
          exact hstep.post (Q := fun v' => v'.InService ∧ v.Kept v') hstay
            (Txn.wlp_mono (discard_discards staff name what) fun _ _ hgone => h.discard hgone)
      | transfer staff newOwner found reason =>
          exact hstep.post (Q := fun v' => v'.InService ∧ v.Kept v') hstay
            (Txn.wlp_mono (transfer_transfers staff newOwner found reason)
              fun _ _ hgiven => h.transfer hgiven.1 hgiven.2)
  | kitchen op =>
      cases op with
      | request op => exact h.request hstep.step
      | bump ticketId => exact hmove hstep (bump_moves ticketId)
      | recallTicket ticketId => exact hmove hstep (recallTicket_moves ticketId)
      | refire ticketId => exact hmove hstep (refire_moves ticketId)

theorem ServiceRun.inService {ops : List ServiceOp} (h : ServiceRun v ops v')
    (hv : v.InService) : v'.InService ∧ v.Kept v' :=
  h.preserves (I := fun v' => v'.InService ∧ v.Kept v') (fun _ _ _ hi _ hstep =>
    (hi.1.handle hstep).imp_right hi.2.trans) ⟨hv, .refl v⟩

/-- An order as it is placed: lines, and nothing on tickets or on a bill. -/
structure Store.Untouched (v : Store) : Prop extends v.Placed where
  whole : v.Whole
  tickets : v.tickets = []
  ticketLines : v.ticketLines = []

theorem Store.Untouched.inService (h : v.Untouched) : v.InService := by
  refine ⟨h.priced, h.wf, h.whole, ⟨⟨by simp [h.tickets], by simp [h.ticketLines]⟩, h.priced.ids,
    ?_, by simp [h.ticketLines]⟩, fun hfinal => ?_⟩
  · simp [Store.firedLines, h.ticketLines]
  · simp [Store.billIs, h.bill] at hfinal

end Steps

/-! ### The order's view -/

structure OrderLineView where
  id : ℕ
  itemId : Option ℕ
  variantId : Option ℕ
  comboId : Option ℕ
  parentLineId : Option ℕ
  quantity : ℕ
  unitPriceMinor : ℤ
  seatNumber : Option ℕ
  sentToKitchen : Bool
  guestId : Option ℕ
  guestName : Option String
  modifiers : List OrderLineModifier

structure OrderView where
  outletId : ℕ
  tableId : Option ℕ
  ownerId : Option ℕ
  status : OrderStatus
  sessionId : Option ℕ
  lines : List OrderLineView

def toOrderLineView (line : OrderLine) (sentToKitchen : Bool) : OrderLineView :=
  { line with sentToKitchen }

/-- A line as the view loads it, with whether it has a ticket line. -/
def Store.orderRows (v : Store) : List (OrderLine × Bool) :=
  v.liveLines.map fun l => (l, v.ticketLines.any (·.orderLineId = l.id))

/-- A combo's own line is never ticketed: it is sent when one of its items is. -/
def buildOrderView (order : Order) : Tx OrderView := do
  let rows ← Txn.query Store.orderRows
  let firedParents := (rows.filter fun r => r.1.parentLineId.isSome && r.2).map (·.1.parentLineId)
  pure
    { order with
      lines := rows.map fun r =>
        toOrderLineView r.1 (r.2 || firedParents.contains (some r.1.id)) }

def getOrder : Tx OrderView := do
  let order ← loadOrder
  buildOrderView order

/-! ### Three readings of one fact -/

section Gates

variable {v : Store}

/-- Whether the kitchen has the line, or an item of it. -/
def Store.hasSent (v : Store) (line : OrderLine) : Bool :=
  v.ticketLines.any fun tl =>
    tl.orderLineId ∈ line.id :: (v.lines.filter (·.parentLineId = some line.id)).map (·.id)

theorem hasSent_iff (line : OrderLine) : v.hasSent line = true ↔ line.id ∈ v.firedLines ∨
    ∃ c ∈ v.lines, c.parentLineId = some line.id ∧ c.id ∈ v.firedLines := by
  simp only [Store.hasSent, List.any_eq_true, decide_eq_true_eq, List.mem_cons, List.mem_map,
    List.mem_filter, Store.firedLines]
  constructor
  · rintro ⟨tl, htl, hid | ⟨c, ⟨hc, hparent⟩, hid⟩⟩
    · exact .inl ⟨tl, htl, hid⟩
    · exact .inr ⟨c, hc, hparent, tl, htl, hid.symm⟩
  · rintro (⟨tl, htl, hid⟩ | ⟨c, hc, hparent, tl, htl, hid⟩)
    · exact ⟨tl, htl, .inl hid⟩
    · exact ⟨tl, htl, .inr ⟨c, ⟨hc, hparent⟩, hid.symm⟩⟩

/-- What the view says of a line: a voided item of a live combo would be left out of it. -/
theorem shown_iff (h : v.InService) {line : OrderLine} (hline : line ∈ v.lines)
    (hlive : line.voidedAt = none) {order : Order} {envs : ℕ → Env} {n : ℕ} {view : OrderView}
    {v' : Store} (hview : (buildOrderView order).run envs n v = .ok (view, v')) :
    ∃ lv ∈ view.lines, lv.id = line.id ∧ lv.sentToKitchen = v.hasSent line := by
  obtain ⟨rfl, rfl⟩ := Prod.mk.inj (Except.ok.inj hview)
  have hrow : (line, v.ticketLines.any (·.orderLineId = line.id)) ∈ v.orderRows :=
    List.mem_map.mpr ⟨line, List.mem_filter.mpr ⟨hline, by simp [hlive]⟩, rfl⟩
  refine ⟨_, List.mem_map_of_mem hrow, rfl, ?_⟩
  rw [Bool.eq_iff_iff, hasSent_iff]
  simp only [toOrderLineView, Bool.or_eq_true, List.any_eq_true, decide_eq_true_eq,
    List.contains_iff_mem, List.mem_map, List.mem_filter, Store.orderRows, Store.liveLines,
    Bool.and_eq_true, Option.isNone_iff_eq_none, Store.firedLines]
  refine or_congr Iff.rfl ⟨?_, ?_⟩
  · rintro ⟨r, ⟨⟨c, ⟨hc, -⟩, rfl⟩, -, hticketed⟩, hparent⟩
    obtain ⟨tl, htl, hid⟩ := List.any_eq_true.mp hticketed
    exact ⟨c, hc, hparent, tl, htl, of_decide_eq_true hid⟩
  · rintro ⟨c, hc, hparent, tl, htl, hid⟩
    -- The item of a live line is live.
    obtain ⟨t, ht, hitem⟩ := h.whole.items c hc (by simp [hparent])
    have hcombo : t.id = line.id := Option.some.inj (hitem.parent.symm.trans hparent)
    have ht : t = line := h.kitchen.eq_of_id ht hline hcombo
    have hticketed : v.ticketLines.any (·.orderLineId = c.id) = true :=
      List.any_eq_true.mpr ⟨tl, htl, decide_eq_true hid⟩
    refine ⟨_, ⟨⟨c, ⟨hc, ?_⟩, rfl⟩, by simp [hparent], hticketed⟩, hparent⟩
    rw [hitem.voided, ht, hlive]

section Loading

variable {E : ApiError → Prop} {V : Env → Store → Prop} {staff : PosPrincipal} {name : String}

/-- Loading a live line of an order that the staff may change. -/
theorem wlp_loadLine (h : v.Kitchen) {line : OrderLine} (hline : line ∈ v.lines)
    (hlive : line.voidedAt = none) (hopen : v.order.status ≠ .closed)
    (howner : v.order.ownerId = none ∨ v.order.ownerId = some staff.id) {g : OrderLine → Tx Unit}
    {Q : Unit → Store → Prop} (hg : (g line).wlp E V Q v) :
    (loadOpenOrder staff name >>= fun _ => loadOrderLine line.id >>= g).wlp E V Q v := by
  have hfind : v.lines.find? (·.id = line.id) = some line := find?_key h.lineIds hline
  simp only [loadOpenOrder, assertOwner, assertOrderNotClosed, loadOrderLine, Txn.wlp_bind,
    Txn.wlp_query, Txn.wlp_pure, wlp_raiseIf]
  intro _ _
  rw [if_neg (by tauto), if_neg hopen]
  intro _ _
  simp only [hfind, Option.filter, hlive, Option.isNone_none, if_true, Txn.wlp_pure]
  exact hg

end Loading

theorem assertBillHasNoPayments_throws :
    assertBillHasNoPayments.Throws (·.code = "bill_has_payments") := by
  refine Txn.Throws.bind (fun _ => trivial) fun _ => .ite ?_ trivial
  refine Txn.Throws.bind (fun _ => trivial) fun _ => Txn.Throws.bind (fun _ => trivial) fun _ => ?_
  exact .ite rfl trivial

/-- A program that throws none of the errors in question does not refuse with one. -/
theorem wlp_of_throws {α : Type} {p : Tx α} {E : ApiError → Prop} (h : p.Throws E) :
    p.wlp E (fun _ _ => True) (fun _ _ => True) v := by
  induction p generalizing v with
  | done a => trivial
  | fail e => exact h
  | stmt f k ih => exact fun _ _ => ih _ (h _)

/-- Whether a request was refused with an error of the given code. -/
def RefusedWith (code : String) (x : Except ApiError (Unit × Store)) : Prop :=
  ∃ e, x = .error e ∧ e.code = code

theorem refusedWith_of_wlp {p : Tx Unit} {code : String}
    (h : p.wlp (·.code = code) (fun _ _ => True) (fun _ _ => False) v) (envs : ℕ → Env) (n : ℕ) :
    RefusedWith code (p.run envs n v) := by
  have hrun := Txn.wlp_run h envs (fun _ _ => trivial) n
  cases hp : p.run envs n v with
  | ok r => simp only [hp] at hrun
  | error e => exact ⟨e, rfl, by simpa only [hp] using hrun⟩

theorem not_refusedWith_of_wlp {p : Tx Unit} {code : String}
    (h : p.wlp (·.code ≠ code) (fun _ _ => True) (fun _ _ => True) v) (envs : ℕ → Env) (n : ℕ) :
    ¬ RefusedWith code (p.run envs n v) := by
  rintro ⟨e, he, hcode⟩
  have hrun := Txn.wlp_run h envs (fun _ _ => trivial) n
  simp only [he] at hrun
  exact hrun hcode

section Refusals

variable {line : OrderLine} {staff : PosPrincipal} {name : String}

theorem removeLine_refused_iff (h : v.Kitchen) (hline : line ∈ v.lines)
    (hlive : line.voidedAt = none) (htop : line.parentLineId = none)
    (hopen : v.order.status ≠ .closed)
    (howner : v.order.ownerId = none ∨ v.order.ownerId = some staff.id) (envs : ℕ → Env) (n : ℕ) :
    RefusedWith "line_sent" ((removeLine staff name line.id).run envs n v) ↔
      v.hasSent line = true := by
  have hgate : ∀ {E : ApiError → Prop} {Q : Unit → Store → Prop} {g : Unit → Tx Unit},
      (if v.hasSent line = true then E ⟨.conflict, "line_sent",
        "The kitchen already has this item - ask a manager to void it"⟩
      else (g ()).wlp E (fun _ _ => True) Q v) →
      (assertNotComboLine line .remove >>= fun _ => assertLineNotSent line >>= g).wlp E
        (fun _ _ => True) Q v := by
    intro E Q g hg
    simp only [assertNotComboLine, assertLineNotSent, lineAndChildIds, isSentToKitchen,
      Txn.wlp_bind, Txn.wlp_query, Txn.wlp_pure, wlp_raiseIf]
    rw [if_neg (by simp), if_neg (by simpa using htop)]
    exact fun _ _ _ _ => hg
  constructor
  · intro hrefused
    by_contra hunsent
    refine not_refusedWith_of_wlp (wlp_loadLine h hline hlive hopen howner (hgate ?_)) envs n
      hrefused
    rw [if_neg hunsent]
    refine wlp_of_throws (Txn.Throws.bind (assertBillHasNoPayments_throws.mono ?_) fun _ =>
      Txn.Throws.bind (p := Txn.writeWhen ..) ?_ fun _ => .ite trivial ?_)
    · rintro e hcode
      simp [hcode]
    · exact fun b => trivial
    · simp [Txn.throw, Txn.Throws, internalError]
  · intro hsent
    refine refusedWith_of_wlp (wlp_loadLine h hline hlive hopen howner (hgate ?_)) envs n
    rw [if_pos hsent]

/-- A manager's PIN is refused for its own reasons. -/
theorem authorize_error {Hash : Type} {verify : Hash → String → Bool}
    {limited : Option Attempts.LockedOut} {staffUsers : List (Approvals.StaffUser Hash)}
    {r : Approvals.ApprovalRequest} {e : ApiError}
    (h : Approvals.authorize verify limited staffUsers r = .error e) :
    e.code ∈ ["validation_failed", "locked_out", "invalid_credentials"] := by
  rcases Serial.bind_error h with hreason | ⟨_, -, h⟩
  · rw [(Serial.check_error hreason).2]
    simp
  · cases limited with
    | some answer =>
        obtain rfl := Except.error.inj h
        simp
    | none =>
        cases hu : Approvals.approver verify staffUsers r with
        | some u => simp only [hu, reduceCtorEq] at h
        | none =>
            simp only [hu, Except.error.injEq] at h
            subst h
            simp

theorem voidLine_refused_iff (h : v.Kitchen) (hline : line ∈ v.lines)
    (hlive : line.voidedAt = none) (htop : line.parentLineId = none)
    (hopen : v.order.status ≠ .closed)
    (howner : v.order.ownerId = none ∨ v.order.ownerId = some staff.id)
    {authorize : Except ApiError ManagerApproval}
    (hauthorize : ∀ e, authorize = .error e → e.code ≠ "line_not_sent") (envs : ℕ → Env) (n : ℕ) :
    RefusedWith "line_not_sent" ((voidLine staff name line.id authorize).run envs n v) ↔
      v.hasSent line = false := by
  constructor
  · intro hrefused
    by_contra hsent
    refine not_refusedWith_of_wlp (wlp_loadLine h hline hlive hopen howner ?_) envs n hrefused
    simp only [lineAndChildIds, isSentToKitchen, Txn.wlp_bind, Txn.wlp_query, Txn.wlp_pure,
      wlp_raiseIf]
    rw [if_neg (by simpa using htop)]
    refine fun _ _ _ _ => ?_
    rw [Store.hasSent] at hsent
    rw [if_neg hsent]
    refine Txn.wlp_mono (wlp_of_throws (assertBillHasNoPayments_throws.mono ?_)) fun _ v₁ _ => ?_
    · rintro e hcode
      simp [hcode]
    · cases authorize with
      | error e => exact hauthorize e rfl
      | ok approval =>
          simp only [wlp_ofExcept_ok, voidTicketLines, recordApproval, Txn.wlp_clock, Txn.wlp_exec,
            implies_true]
  · intro hsent
    refine refusedWith_of_wlp (wlp_loadLine h hline hlive hopen howner ?_) envs n
    simp only [lineAndChildIds, isSentToKitchen, Txn.wlp_bind, Txn.wlp_query, Txn.wlp_pure,
      wlp_raiseIf]
    rw [if_neg (by simpa using htop)]
    refine fun _ _ _ _ => ?_
    rw [Store.hasSent] at hsent
    rw [if_pos hsent]
    trivial

end Refusals

end Gates

/-! ### Runs -/

section Runs

variable {v₀ v v' : Store} {ops ops' : List ServiceOp}

/-- **The till and the kitchen agree.** Whatever was asked of the order and of its tickets, every
ticket line counts what its order line counts and is voided when that is, no line is on two, and
what the kitchen had at any moment is still on the order as it was, or voided. -/
theorem till_and_kitchen_agree (hnew : v₀.Untouched) (h : ServiceRun v₀ ops v)
    (h' : ServiceRun v ops' v') :
    (∀ tl ∈ v'.ticketLines, ∃ l ∈ v'.lines, tl.Copies l) ∧ v'.firedLines.Nodup ∧ v.Kept v' := by
  obtain ⟨hservice, -⟩ := h.inService hnew.inService
  obtain ⟨hservice', hkept⟩ := h'.inService hservice
  exact ⟨hservice'.kitchen.copies, hservice'.kitchen.once, hkept⟩

/-- Two lines to send, one of them cooked at the outlet's bar. -/
def barOrder : Store :=
  { sampleOrder with
    around := { sampleOrder.around with
      stations := [⟨1, 1, "Kitchen", none⟩, ⟨2, 1, "Bar", none⟩], menuItemStations := [(2, 2)] } }

theorem barOrder_untouched : barOrder.Untouched where
  toPlaced := ⟨⟨by decide, by decide⟩, rfl, rfl, rfl, rfl, rfl⟩
  whole := by
    have htop : ∀ c ∈ barOrder.lines, c.parentLineId = none := by decide
    exact ⟨fun c hc hchild => absurd (htop c hc) hchild, by decide⟩
  tickets := rfl
  ticketLines := rfl

/-- A request served, at the time and with the identifiers that the clock has ticked to. -/
def Store.serve (v : Store) (r : ServiceOp × ℕ) : Store :=
  match r.1.prog.run (ticking r.2) 0 v with
  | .ok (_, v') => v'
  | .error _ => v

theorem ServiceRun.of_serve (v : Store) (rs : List (ServiceOp × ℕ)) :
    ServiceRun v (rs.map (·.1)) (rs.foldl Store.serve v) := by
  induction rs generalizing v with
  | nil => exact .nil
  | cons r rs ih =>
      refine .cons trivial ?_ (ih (v.serve r))
      unfold Store.serve
      cases hrun : r.1.prog.run (ticking r.2) 0 v with
      | ok _ => exact .commits hrun
      | error e => exact .throws hrun

def sendOrder : ServiceOp := .order (.request (.updateStatus sampleStaff "Owner" .sent))

/-- Taking the first line back with a manager's approval. -/
def voidFirst : ServiceOp :=
  .order (.request (.voidLine sampleStaff "Owner" 1 (.ok ⟨2, "Guest left"⟩)))

theorem till_and_kitchen_agree_sample :
    let v := [(sendOrder, 0)].foldl Store.serve barOrder
    let v' := [(voidFirst, 100)].foldl Store.serve v
    v'.ticketLines.map (·.voided) = [true, false] ∧
      (∀ tl ∈ v'.ticketLines, ∃ l ∈ v'.lines, tl.Copies l) ∧ v'.firedLines.Nodup ∧ v.Kept v' :=
  ⟨by decide +kernel, till_and_kitchen_agree barOrder_untouched (.of_serve _ _) (.of_serve _ _)⟩

/-- **Sent means one thing.** What the view shows of a line outside combos is what decides whether
the owner may remove it, and what decides whether it has to be voided. -/
theorem sent_means_one_thing {Hash : Type} {verify : Hash → String → Bool}
    {limited : Option Attempts.LockedOut} {staffUsers : List (Approvals.StaffUser Hash)}
    {r : Approvals.ApprovalRequest} (hnew : v₀.Untouched) (h : ServiceRun v₀ ops v)
    (hopen : v.order.status ≠ .closed) {line : OrderLine} (hline : line ∈ v.lines)
    (hlive : line.voidedAt = none) (htop : line.parentLineId = none) {staff : PosPrincipal}
    (howner : v.order.ownerId = none ∨ v.order.ownerId = some staff.id) (name : String)
    (envs : ℕ → Env) {view : OrderView} (hview : getOrder.run envs 0 v = .ok (view, v')) :
    ∃ lv ∈ view.lines, lv.id = line.id ∧
      (lv.sentToKitchen = true ↔
        RefusedWith "line_sent" ((removeLine staff name line.id).run envs 0 v)) ∧
      (lv.sentToKitchen = true ↔
        ¬ RefusedWith "line_not_sent" ((voidLine staff name line.id
          ((Approvals.authorize verify limited staffUsers r).map (·.toManagerApproval))).run
            envs 0 v)) := by
  obtain ⟨hservice, -⟩ := h.inService hnew.inService
  have hbuilt : ∃ n, (buildOrderView v.order).run envs n v = .ok (view, v') := by
    by_cases hdeleted : v.order.deleted = true
    · simp [getOrder, loadOrder, raiseIf, raise, hdeleted, Txn.query, Txn.run] at hview
    · refine ⟨1, ?_⟩
      rw [← hview]
      simp [getOrder, loadOrder, raiseIf, hdeleted, Txn.query, Txn.run]
  obtain ⟨n, hbuilt⟩ := hbuilt
  obtain ⟨lv, hlv, hid, hshown⟩ := shown_iff hservice hline hlive hbuilt
  refine ⟨lv, hlv, hid, ?_, ?_⟩
  · rw [hshown, removeLine_refused_iff hservice.kitchen hline hlive htop hopen howner]
  · have hauthorize : ∀ e, (Approvals.authorize verify limited staffUsers r).map
        (·.toManagerApproval) = .error e → e.code ≠ "line_not_sent" := by
      intro e he hcode
      have hcodes := authorize_error (Serial.map_error he)
      rw [hcode] at hcodes
      exact absurd hcodes (by decide)
    rw [hshown, voidLine_refused_iff hservice.kitchen hline hlive htop hopen howner hauthorize,
      Bool.not_eq_false]

theorem sent_means_one_thing_sample :
    let v := [(sendOrder, 0)].foldl Store.serve barOrder
    ∃ line ∈ v.lines, line.id = 1 ∧ ∃ view v', getOrder.run (ticking 100) 0 v = .ok (view, v') ∧
      ∃ lv ∈ view.lines, lv.id = line.id ∧
        (lv.sentToKitchen = true ↔ RefusedWith "line_sent"
          ((removeLine sampleStaff "Owner" line.id).run (ticking 100) 0 v)) ∧
        (lv.sentToKitchen = true ↔
          ¬ RefusedWith "line_not_sent" ((voidLine sampleStaff "Owner" line.id
            ((Approvals.authorize ((· == ·) : String → String → Bool) none []
              ⟨.voidAfterFire, 1, 1, "1234", "Guest left"⟩).map (·.toManagerApproval))).run
              (ticking 100) 0 v)) := by
  intro v
  refine ⟨barOrder.lines.head (by decide), by decide +kernel, rfl, ?_⟩
  obtain ⟨view, v', hview⟩ : ∃ view v', getOrder.run (ticking 100) 0 v = .ok (view, v') :=
    ⟨_, _, rfl⟩
  have hrun := ServiceRun.of_serve barOrder [(sendOrder, 0)]
  exact ⟨view, v', hview, sent_means_one_thing barOrder_untouched hrun (by decide +kernel)
    (by decide +kernel) rfl rfl (.inl (by decide +kernel)) "Owner" (ticking 100) hview⟩

/-- **What is billed is with the kitchen.** In every run, an order whose bill is finalized is closed
and each item on it that was not voided has exactly one ticket line, which counts as much of it. -/
theorem billed_is_with_the_kitchen (hnew : v₀.Untouched) (h : ServiceRun v₀ ops v)
    (hbill : v.billIs .finalized = true) :
    v.order.status = .closed ∧ ∀ l ∈ v.lines, l.voidedAt = none → l.itemId ≠ none →
      ∃ tl ∈ v.ticketLines, tl.orderLineId = l.id ∧ tl.quantity = l.quantity ∧ tl.voided = false ∧
        ∀ tl' ∈ v.ticketLines, tl'.orderLineId = l.id → tl' = tl := by
  obtain ⟨hservice, -⟩ := h.inService hnew.inService
  obtain ⟨hclosed, hnone⟩ := hservice.sent hbill
  refine ⟨hclosed, fun l hl hlive hitem => ?_⟩
  have hfired : l.id ∈ v.firedLines := by
    by_contra hunfired
    have hwaits : l ∈ v.unfired := mem_unfired.mpr ⟨hl, hlive, hitem, hunfired⟩
    rw [hnone] at hwaits
    cases hwaits
  obtain ⟨tl, htl, hid⟩ := List.mem_map.mp hfired
  obtain ⟨l', hl', hcopy⟩ := hservice.kitchen.copies tl htl
  obtain rfl := hservice.kitchen.eq_of_id hl hl' (hid.symm.trans hcopy.id)
  refine ⟨tl, htl, hid, hcopy.quantity, by rw [hcopy.voided, hlive]; rfl, fun tl' htl' hid' => ?_⟩
  exact List.inj_on_of_nodup_map hservice.kitchen.once htl' htl (hid'.trans hid.symm)

theorem barTotal_pos : (1 : ℤ) ≤ 24000 := by decide

/-- An order settled before it was sent: the settlement sends it. -/
def settleUnsent : List (ServiceOp × ℕ) :=
  [(.order (.request (.createBill sampleStaff "Owner")), 0),
    (.order (.request (settleWith [cashTender 24000 barTotal_pos])), 100)]

theorem billed_is_with_the_kitchen_sample :
    let v := settleUnsent.foldl Store.serve barOrder
    v.billIs .finalized = true ∧ v.order.status = .closed ∧
      ∀ l ∈ v.lines, l.voidedAt = none → l.itemId ≠ none →
        ∃ tl ∈ v.ticketLines, tl.orderLineId = l.id ∧ tl.quantity = l.quantity ∧ tl.voided = false ∧
          ∀ tl' ∈ v.ticketLines, tl'.orderLineId = l.id → tl' = tl := by
  have hbill : (settleUnsent.foldl Store.serve barOrder).billIs .finalized = true := by
    decide +kernel
  exact ⟨hbill, billed_is_with_the_kitchen barOrder_untouched (.of_serve _ _) hbill⟩

/-- **A firing is complete.** At any moment of the service, also within a request that has not yet
touched the lines, firing puts every waiting item on one new ticket line and counts them; it goes
to a station of the outlet, or to none where there is none, as a later batch than what its ticket
had; and to fire once more does nothing. -/
theorem firing_is_complete (hnew : v₀.Untouched) (h : ServiceRun v₀ ops v)
    (hsame : Frame tablesBesideLines v v') {outletId : ℕ} {envs : ℕ → Env} {n fired : ℕ}
    {v'' : Store} (hfire : (fireOnSend outletId).run envs n v' = .ok (fired, v'')) :
    ∃ new, Fired outletId v' v'' new ∧ fired = new.length ∧ v''.Kitchen ∧
      (∀ l ∈ v''.lines, l.voidedAt = none → l.itemId ≠ none →
        (v''.ticketLines.filter (·.orderLineId = l.id)).length = 1) ∧
      (∀ tl ∈ new, ∀ old ∈ v'.ticketLines, old.ticketId = tl.ticketId →
        old.addOnBatch < tl.addOnBatch) ∧
      ∀ envs' n', (fireOnSend outletId).run envs' n' v'' = .ok (0, v'') := by
  obtain ⟨hservice, -⟩ := h.inService hnew.inService
  have hspares : v.Spares v' := .of_frame hsame (by decide) (by decide)
  have hkitchen := hspares.kitchen hservice.kitchen
  obtain ⟨new, hfired, hcount⟩ : ∃ new, Fired outletId v' v'' new ∧ fired = new.length :=
    Txn.commits_run (Q := fun fired v'' => ∃ new, Fired outletId v' v'' new ∧ fired = new.length)
      (commits_fireOnSend fun _ new hfired => ⟨new, hfired, rfl⟩) hfire
  have hafter := hfired.kitchen hkitchen
  refine ⟨new, hfired, hcount, hafter, fun l hl hlive hitem => ?_,
    hfired.batch hkitchen.toTicketKeys, fun envs' n' => ?_⟩
  · have hmem : l.id ∈ v''.firedLines := by
      by_contra hunfired
      have hwaits : l ∈ v''.unfired := mem_unfired.mpr ⟨hl, hlive, hitem, hunfired⟩
      rw [hfired.unfired] at hwaits
      cases hwaits
    have hone := List.count_eq_one_of_mem hafter.once hmem
    rw [Store.firedLines, List.count_eq_countP, List.countP_map,
      List.countP_eq_length_filter] at hone
    simpa [Function.comp_def, beq_eq_decide] using hone
  · simp [fireOnSend, findUnfired, hfired.unfired, Txn.run]

theorem firing_is_complete_sample :
    ∃ v'' new, (fireOnSend 1).run (ticking 0) 0 barOrder = .ok (2, v'') ∧
      v''.tickets.map (·.stationId) = [some 1, some 2] ∧
      Fired 1 barOrder v'' new ∧ 2 = new.length ∧ v''.Kitchen ∧
      (∀ l ∈ v''.lines, l.voidedAt = none → l.itemId ≠ none →
        (v''.ticketLines.filter (·.orderLineId = l.id)).length = 1) ∧
      (∀ tl ∈ new, ∀ old ∈ barOrder.ticketLines, old.ticketId = tl.ticketId →
        old.addOnBatch < tl.addOnBatch) ∧
      ∀ envs' n', (fireOnSend 1).run envs' n' v'' = .ok (0, v'') := by
  obtain ⟨v'', hfire, hstations⟩ : ∃ v'', (fireOnSend 1).run (ticking 0) 0 barOrder = .ok (2, v'') ∧
      v''.tickets.map (·.stationId) = [some 1, some 2] := ⟨_, rfl, by decide +kernel⟩
  obtain ⟨new, hfired⟩ :=
    firing_is_complete barOrder_untouched (.of_serve barOrder []) (.refl _ _) hfire
  exact ⟨v'', new, hfire, hstations, hfired⟩

end Runs

end RestiqBackend
