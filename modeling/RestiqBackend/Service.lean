import RestiqBackend.Tenants

/-!
The requests, and what a run of them is.

An `Op` is a request with everything the server is handed with it; `Op.prog` is the
transaction it starts. The same programs are run in two ways. One request at a time,
each committing whole or undone whole, is `Op.Step` and its runs `Runs`; any number
of them interleaved statement by statement is `ReadCommitted.Run`.
-/

namespace RestiqBackend

open ReadCommitted

inductive Op
  | createBill (staff : PosPrincipal) (ownerName : String)
  | getBill
  | getInvoice
  | printBill (sourceDeviceId : Option ℕ)
  | finalize (staff : PosPrincipal) (dto : FinalizeBillDto)
      (authorize : Except ApiError ManagerApproval)
  | refund (staff : PosPrincipal) (dto : RefundBillDto)
      (authorize : Except ApiError ManagerApproval)
  | addLine (staff : PosPrincipal) (ownerName : String) (dto : AddOrderLineDto)
      (menu : Except ApiError PricedItem)
  | addCombo (staff : PosPrincipal) (ownerName : String) (dto : AddComboLineDto)
      (menu : Except ApiError ComboSelection)
  | updateLine (staff : PosPrincipal) (ownerName : String) (lineId : ℕ) (dto : UpdateOrderLineDto)
  | removeLine (staff : PosPrincipal) (ownerName : String) (lineId : ℕ)
  | voidLine (staff : PosPrincipal) (ownerName : String) (lineId : ℕ)
      (authorize : Except ApiError ManagerApproval)
  | updateStatus (staff : PosPrincipal) (ownerName : String) (status : OrderStatus)
  | createIntent (dto : CreatePaymentIntentDto)
  | getIntent (id : ℕ)
  | cancelIntent (id : ℕ)
  | listPending (staff : PosPrincipal) (outletId : ℕ) (deviceId : Option ℕ)
  | simulate (id : ℕ) (outcome : SimulatedOutcome)
  | guestCreateBill (guest : GuestPrincipal)
  | guestGetBill (guest : GuestPrincipal)
  | guestGetInvoice (guest : GuestPrincipal)
  | payShare (guest : GuestPrincipal) (guestId : ℕ) (dto : SimulatedPaymentDto)
  | payAll (guest : GuestPrincipal) (dto : SimulatedPaymentDto)
  | setMode (operatorId : ℕ) (mode : Mode) (reason : String)
  | updateTaxRegistration (dto : UpdateTaxRegistrationDto)
  | setPaymentsSimulator (on : Bool)
  | changeSurroundings (around : Surroundings)

def Op.prog : Op → Tx Unit
  | .createBill staff ownerName => (RestiqBackend.createBill staff ownerName).void
  | .getBill => RestiqBackend.getBill.void
  | .getInvoice => RestiqBackend.getInvoice.void
  | .printBill source => (RestiqBackend.printBill source).void
  | .finalize staff dto authorize => (RestiqBackend.finalize staff dto authorize).void
  | .refund staff dto authorize => (RestiqBackend.refund staff dto authorize).void
  | .addLine staff ownerName dto menu => RestiqBackend.addLine staff ownerName dto menu
  | .addCombo staff ownerName dto menu => RestiqBackend.addCombo staff ownerName dto menu
  | .updateLine staff ownerName lineId dto => RestiqBackend.updateLine staff ownerName lineId dto
  | .removeLine staff ownerName lineId => RestiqBackend.removeLine staff ownerName lineId
  | .voidLine staff ownerName lineId authorize =>
      RestiqBackend.voidLine staff ownerName lineId authorize
  | .updateStatus staff ownerName status => RestiqBackend.updateStatus staff ownerName status
  | .createIntent dto => (RestiqBackend.createIntent dto).void
  | .getIntent id => (RestiqBackend.getIntent id).void
  | .cancelIntent id => (RestiqBackend.cancelIntent id).void
  | .listPending staff outletId deviceId => (listPendingForOutlet staff outletId deviceId).void
  | .simulate id outcome => (RestiqBackend.simulate id outcome).void
  | .guestCreateBill guest => (RestiqBackend.guestCreateBill guest).void
  | .guestGetBill guest => (RestiqBackend.guestGetBill guest).void
  | .guestGetInvoice guest => (RestiqBackend.guestGetInvoice guest).void
  | .payShare guest guestId dto => (RestiqBackend.payShare guest guestId dto).void
  | .payAll guest dto => (RestiqBackend.payAll guest dto).void
  | .setMode operatorId mode reason => (RestiqBackend.setMode operatorId mode reason).void
  | .updateTaxRegistration dto => (RestiqBackend.updateTaxRegistration dto).void
  | .setPaymentsSimulator on => RestiqBackend.setPaymentsSimulator on
  | .changeSurroundings around => RestiqBackend.changeSurroundings around

/-- A request that the transaction commits, from one store to the next. -/
def Op.Commits (op : Op) (v v' : Store) : Prop := ∃ envs, op.prog.run envs 0 v = .ok ((), v')

/-- A request handled on its own: it commits, or it throws and changes nothing. -/
inductive Op.Step (op : Op) (v : Store) : Store → Prop
  | commits {v' : Store} (h : op.Commits v v') : op.Step v v'
  | throws {envs : ℕ → Env} {e : ApiError} (h : op.prog.run envs 0 v = .error e) : op.Step v v

/-- The runs of requests that satisfy `P`, one at a time. -/
inductive Runs (P : Op → Prop) (v : Store) : Store → Prop
  | nil : Runs P v v
  | snoc {v' v'' : Store} (op : Op) : Runs P v v' → P op → op.Step v' v'' → Runs P v v''

/-- What a request's program ends in, its commits and its steps end in. -/
theorem Op.Commits.post {op : Op} {v v' : Store} (h : op.Commits v v') {Q : Store → Prop}
    (hQ : op.prog.commits (fun _ => Q) v) : Q v' := by
  obtain ⟨envs, hrun⟩ := h
  exact Txn.commits_run hQ hrun

theorem Op.Step.post {op : Op} {v v' : Store} (h : op.Step v v') {Q : Store → Prop}
    (hv : Q v) (hQ : op.prog.commits (fun _ => Q) v) : Q v' := by
  cases h with
  | commits h => exact h.post hQ
  | throws => exact hv

theorem Runs.preserves {P : Op → Prop} {I : Store → Prop} {v v' : Store} (h : Runs P v v')
    (hI : ∀ op v v', P op → I v → op.Step v v' → I v') (hv : I v) : I v' := by
  induction h with
  | nil => exact hv
  | snoc op _ hop hstep ih => exact hI op _ _ hop ih hstep

theorem Runs.trans {P : Op → Prop} {v v' v'' : Store} (h : Runs P v v') (h' : Runs P v' v'') :
    Runs P v v'' := by
  induction h' with
  | nil => exact h
  | snoc op _ hop hstep ih => exact .snoc op ih hop hstep

theorem Runs.mono {P P' : Op → Prop} (hP : ∀ op, P op → P' op) {v v' : Store}
    (h : Runs P v v') : Runs P' v v' := by
  induction h with
  | nil => exact .nil
  | snoc op _ hop hstep ih => exact .snoc op ih (hP op hop) hstep

/-- Runs that keep a log: each step adds to it what `note` reads off the request and the
stores before and after, and is only taken where `P` allows the request. -/
inductive Logged {γ : Type} (P : Op → Store → Prop) (note : Op → Store → Store → List γ)
    (v : Store) : List γ → Store → Prop
  | nil : Logged P note v [] v
  | snoc {log : List γ} {v' v'' : Store} (op : Op) : Logged P note v log v' → P op v' →
      op.Step v' v'' → Logged P note v (log ++ note op v' v'') v''

section Logged

variable {γ : Type} {P : Op → Store → Prop} {note : Op → Store → Store → List γ} {v v' : Store}
  {log : List γ}

theorem Logged.preserves {I : List γ → Store → Prop} (h : Logged P note v log v')
    (hI : ∀ op log v v', P op v → I log v → op.Step v v' → I (log ++ note op v v') v')
    (hv : I [] v) : I log v' := by
  induction h with
  | nil => exact hv
  | snoc op _ hop hstep ih => exact hI op _ _ _ hop ih hstep

end Logged

/-! ### Handling requests -/

/-- The requests in turn, each with what the outside world answers it, as far as they
all commit. -/
def Store.handle (v : Store) : List (Op × (ℕ → Env)) → Except ApiError Store
  | [] => .ok v
  | (op, envs) :: rest =>
      match op.prog.run envs 0 v with
      | .ok (_, v') => v'.handle rest
      | .error e => .error e

/-- The store that handled requests leave, where they all commit. -/
def Store.after (v : Store) (requests : List (Op × (ℕ → Env))) : Store :=
  match v.handle requests with
  | .ok v' => v'
  | .error _ => v

theorem Store.handle_ok {op : Op} {envs : ℕ → Env} {v v' : Store}
    (h : op.prog.run envs 0 v = .ok ((), v')) (rest : List (Op × (ℕ → Env))) :
    v.handle ((op, envs) :: rest) = v'.handle rest := by
  rw [Store.handle, h]

theorem Store.handle_error {op : Op} {envs : ℕ → Env} {v : Store} {e : ApiError}
    (h : op.prog.run envs 0 v = .error e) (rest : List (Op × (ℕ → Env))) :
    v.handle ((op, envs) :: rest) = .error e := by
  rw [Store.handle, h]

theorem Runs.cons {P : Op → Prop} {op : Op} {v v' v'' : Store} (hop : P op) (h : op.Step v v')
    (h' : Runs P v' v'') : Runs P v v'' :=
  (Runs.snoc op .nil hop h).trans h'

/-- Requests that were all handled make a run. -/
theorem Runs.of_handle {P : Op → Prop} {requests : List (Op × (ℕ → Env))} {v v' : Store}
    (h : v.handle requests = .ok v') (hP : ∀ r ∈ requests, P r.1) : Runs P v v' := by
  induction requests generalizing v with
  | nil =>
      cases h
      exact .nil
  | cons r rest ih =>
      obtain ⟨op, envs⟩ := r
      cases hrun : op.prog.run envs 0 v with
      | error e => simp [Store.handle_error hrun] at h
      | ok r =>
          obtain ⟨⟨⟩, v₁⟩ := r
          rw [Store.handle_ok hrun] at h
          exact .cons (hP _ List.mem_cons_self) (.commits ⟨envs, hrun⟩)
            (ih h fun r hr => hP r (List.mem_cons_of_mem _ hr))

theorem Runs.of_after {P : Op → Prop} {requests : List (Op × (ℕ → Env))} {v : Store}
    (h : (v.handle requests).isOk = true) (hP : ∀ r ∈ requests, P r.1) :
    Runs P v (v.after requests) := by
  refine .of_handle ?_ hP
  unfold Store.after
  cases hrun : v.handle requests with
  | error e => simp [hrun, Except.isOk, Except.toBool] at h
  | ok v' => rfl

/-- A clock that ticks with every statement, and identifiers drawn off it. -/
def ticking (start : ℕ) : ℕ → Env := fun n => ⟨start + n, start + n⟩

/-- A table's order with a line of each of two guests, in Test mode. -/
def sampleOrder : Store :=
  let line (id guestId : ℕ) (unitPriceMinor : ℤ) : OrderLine :=
    { id, unitPriceMinor
      itemId := some id, variantId := none, comboId := none, parentLineId := none, quantity := 1
      modifiers := [], seatNumber := none, guestId := some guestId, guestName := none
      voidedAt := none }
  { paymentsSimulator := false
    tenant := ⟨.IN, .active, none⟩
    taxRegistration := some ⟨"", true, true, none, .exactTotal⟩
    around :=
      { otherFinalizedAt := [], otherClientKeys := [], openShift := some 1
        devices := [⟨1, .terminal, 1, true, none⟩], stations := [], menuItemStations := [] }
    billNumberCounter := none
    order := ⟨.open, none, some 1, some 1, 1, false⟩
    session := some ⟨1, .open, some 1, 1000000⟩
    lines := [line 1 1 14000, line 2 2 10046]
    tickets := [], ticketLines := [], addOnEvents := []
    bill := none, tenders := [], intents := [], shares := [], creditNotes := []
    printJobs := [], auditEvents := [] }

/-- The staff of the sample order: an owner, who may do anything. -/
def sampleStaff : PosPrincipal := ⟨1, "Owner", 1⟩

def sampleGuest : GuestPrincipal := ⟨1⟩

/-- A cash tender of the given amount. -/
def cashTender (amountMinor : ℤ) (h : 1 ≤ amountMinor) : TenderDto where
  method := .cash
  amountMinor := amountMinor
  riskAcknowledged := none
  reference := none
  tenderedMinor := none
  method_mem := by decide
  one_le_amountMinor := h

/-- What the lines of the sample order come to. -/
theorem one_le_sampleTotal : (1 : ℤ) ≤ 24046 := by decide

/-- Settling with a list of tenders and no discount. -/
def settleDto (tenders : List TenderDto) : FinalizeBillDto where
  discountMinor := none
  discountReason := none
  managerPin := none
  tenders := tenders
  one_le_discountMinor := by simp

def settleWith (tenders : List TenderDto) : Op :=
  .finalize sampleStaff (settleDto tenders) (.error internalError)

end RestiqBackend
