import RestiqBackend.Serial
import RestiqBackend.Settlement

/-!
Simulated money on a bill (`src/platform/payments-simulator.ts`).

While payments are simulated, a guest who says that the payment went through is believed, and what
is written is a tender like any other: of a table's phone it is a manual one, with no intent behind
it. Settling a bill with the simulator off only looks at intents. A `Book` keeps beside the store
which of the bill's tenders a guest's own word wrote.
-/

namespace RestiqBackend.SimulatedMoney

open ReadCommitted

/-! ### Books -/

/-- The store, and of each of the bill's tenders, in turn, whether a guest's word wrote it. -/
structure Book where
  store : Store
  simulated : List Bool

/-- A guest says that the payment went through. -/
def simulates : Op → Bool
  | .payShare _ _ dto => dto.simulatedOutcome = .success
  | .payAll _ dto => dto.simulatedOutcome = .success
  | _ => false

/-- The tenders that a request adds are noted with it. -/
structure Book.Step (B : Book) (op : Op) (B' : Book) : Prop where
  step : op.Step B.store B'.store
  simulated : B'.simulated = B.simulated ++
    List.replicate (B'.store.tenders.length - B.store.tenders.length) (simulates op)

/-- The bill is settled while payments are not simulated. -/
structure SettlesLive (v v' : Store) : Prop where
  before : v.billIs .finalized = false
  after : v'.billIs .finalized = true
  simulatorOff : v'.simulatorOn = false

/-- No tender of the bill is by a guest's word or of a simulated provider's intent. -/
structure Book.Collected (B : Book) : Prop where
  guests : true ∉ B.simulated
  intents : B.store.simulatedTenders = []

/-- The request turns simulated payments off. -/
def turnsOff (v : Store) : Op → Bool
  | .setMode _ .live _ => v.testMode && !v.paymentsSimulator
  | .setPaymentsSimulator false => v.paymentsSimulator && !v.testMode
  | _ => false

/-- Simulated payments are not turned off over an open bill that a guest has paid on. -/
def Spares (B : Book) (op : Op) : Prop :=
  turnsOff B.store op = true → B.store.billIs .open = true → true ∉ B.simulated

/-! ### What a page of entries does -/

section Ledger

variable {e : Entry} {L L' : Ledger} {es : List Entry}

theorem move_simulator (h : L.Move e L') (he : e ≠ .outside) : L'.simulator = L.simulator := by
  cases h with
  | switch => exact absurd rfl he
  | _ => rfl

theorem move_tenders (h : L.Move e L') : L.tenders <+: L'.tenders := by
  cases h with
  | capture => exact List.prefix_append _ _
  | pay => exact List.prefix_append _ _
  | settle => exact List.prefix_append _ _
  | _ => exact List.prefix_rfl

theorem moves_tenders (h : L.Moves es L') : L.tenders <+: L'.tenders := by
  induction h with
  | nil => exact List.prefix_rfl
  | cons hm _ ih => exact (move_tenders hm).trans ih

theorem moves_simulator (h : L.Moves es L') (hes : ∀ e ∈ es, e ≠ .outside) :
    L'.simulator = L.simulator := by
  induction h with
  | nil => rfl
  | cons hm _ ih =>
      exact (ih fun e he => hes e (List.mem_cons_of_mem _ he)).trans
        (move_simulator hm (hes _ List.mem_cons_self))

/-- A settled bill stays settled. -/
theorem move_finalized (h : L.Move e L') (hfin : L.bill.any (·.status = .finalized) = true) :
    L'.bill.any (·.status = .finalized) = true := by
  cases h with
  | create _ b hnone =>
      rw [hnone] at hfin
      cases hfin
  | refresh _ b hb =>
      rw [hb, Option.any_some] at hfin
      rw [Option.any_some, Bill.refreshed_status]
      exact hfin
  | settle _ b b' _ _ _ _ hsettles =>
      rw [Option.any_some]
      exact decide_eq_true hsettles.finalized
  | _ => exact hfin

theorem moves_finalized (h : L.Moves es L') (hfin : L.bill.any (·.status = .finalized) = true) :
    L'.bill.any (·.status = .finalized) = true :=
  h.preserves (I := fun L => L.bill.any (·.status = .finalized) = true)
    (fun _ _ _ hL hm => move_finalized hm hL) hfin

end Ledger

/-! ### What a request does -/

section Requests

variable {v v' : Store} {op : Op}

/-- What holds already holds of every run. -/
theorem commits_of {α : Type} {c : Prop} (hc : c) (p : Tx α) (v : Store) :
    p.commits (fun _ _ => c) v := by
  induction p generalizing v with
  | done a => exact hc
  | fail e => trivial
  | stmt f k ih => exact fun _ _ => ih _ _

/-- A guest's word is only taken while payments are simulated. -/
theorem simulates_on (hop : simulates op = true) (h : op.Commits v v') : v.simulatorOn = true := by
  have havailable : assertGuestPaymentsAvailable.commits (fun _ _ => v.simulatorOn = true) v := by
    simp only [assertGuestPaymentsAvailable, paymentsSimulatorFor, Txn.commits, Txn.wlp_bind,
      Txn.wlp_query]
    exact fun _ _ => commits_raiseIf fun hon => eq_true_of_ne_false hon
  have hprepared {α : Type} {f : BillWithTenders × Order × TableSession → Tx α}
      {guest : GuestPrincipal} :
      (preparePayment guest >>= f).commits (fun _ _ => v.simulatorOn = true) v := by
    rw [Txn.commits, Txn.wlp_bind]
    unfold preparePayment
    rw [Txn.wlp_bind]
    exact Txn.wlp_mono havailable fun _ v₁ hon =>
      Txn.wlp_mono (commits_of hon _ v₁) fun a v₂ hon => commits_of hon (f a) v₂
  refine h.post (Q := fun _ => v.simulatorOn = true) ?_
  cases op with
  | payShare guest guestId dto => exact (Txn.wlp_void ..).mpr hprepared
  | payAll guest dto => exact (Txn.wlp_void ..).mpr hprepared
  | _ => cases hop

/-- Going back to Test is no turning off. -/
theorem setMode_test {operatorId : ℕ} {reason : String}
    (h : Op.Step (.setMode operatorId .test reason) v v') :
    v'.testMode = v.testMode ∨ v'.testMode = true := by
  refine h.post (Q := fun v' => v'.testMode = v.testMode ∨ v'.testMode = true) (.inl rfl) ?_
  simp only [Op.prog, setMode, nextLiveSince, Txn.commits, Txn.wlp_void, Txn.wlp_bind,
    Txn.wlp_query, Txn.wlp_exec, Txn.wlp_pure, applyAll_cons, applyAll_nil, writeTo_apply]
  exact fun _ _ => commits_raiseIf fun _ => fun _ _ => commits_raiseIf fun _ =>
    fun _ _ _ _ => .inr rfl

theorem setPaymentsSimulator_switch {on : Bool} (h : Op.Step (.setPaymentsSimulator on) v v') :
    v'.paymentsSimulator = v.paymentsSimulator ∨ v'.paymentsSimulator = on := by
  refine h.post (Q := fun v' => v'.paymentsSimulator = v.paymentsSimulator ∨
    v'.paymentsSimulator = on) (.inl rfl) ?_
  exact fun _ _ => .inr rfl

theorem changeSurroundings_switch {around : Surroundings}
    (h : Op.Step (.changeSurroundings around) v v') :
    v'.paymentsSimulator = v.paymentsSimulator :=
  h.post (Q := fun v' => v'.paymentsSimulator = v.paymentsSimulator) rfl fun _ _ => rfl

/-- Only two requests turn simulated payments off, and they leave the bill alone. -/
theorem step_simulator (h : op.Step v v') (hpriced : v.Priced) (hwf : v.ledger.Wf) :
    v'.simulatorOn = v.simulatorOn ∨
      v'.bill = v.bill ∧ v'.tenders = v.tenders ∧
        (v.simulatorOn = true → v'.simulatorOn = false → turnsOff v op = true) := by
  obtain ⟨-, es, hmoves, hes⟩ := h.posts hpriced hwf
  have hframe := h.frame
  have hplain : (∀ e, op.mayPost e → e ≠ .outside) → v'.simulatorOn = v.simulatorOn := fun hop =>
    moves_simulator hmoves fun e he => hop e (hes e he)
  have hmode : Table.tenants ∉ op.tables → v'.testMode = v.testMode := fun ht => by
    rw [Store.testMode, hframe .tenants ht, Store.testMode]
  cases op with
  | setMode operatorId mode reason =>
      refine .inr ⟨hframe .bills (by simp [Op.tables]), hframe .tenders (by simp [Op.tables]),
        fun hon hoff => ?_⟩
      obtain ⟨hswitch, -⟩ := hframe .environment (by simp [Op.tables])
      obtain ⟨hoff, hlive⟩ := Bool.or_eq_false_iff.mp hoff
      rw [hswitch] at hoff
      rw [Store.simulatorOn, hoff, Bool.false_or] at hon
      cases mode with
      | live =>
          rw [turnsOff, hon, hoff]
          rfl
      | test =>
          rcases setMode_test h with hsame | htrue
          · rw [hsame, hon] at hlive
            cases hlive
          · rw [htrue] at hlive
            cases hlive
  | setPaymentsSimulator on =>
      refine .inr ⟨hframe .bills (by simp [Op.tables]), hframe .tenders (by simp [Op.tables]),
        fun hon hoff => ?_⟩
      obtain ⟨hoff, hlive⟩ := Bool.or_eq_false_iff.mp hoff
      rw [hmode (by simp [Op.tables])] at hlive
      rw [Store.simulatorOn, hlive, Bool.or_false] at hon
      rcases setPaymentsSimulator_switch h with hsame | hset
      · rw [hsame, hon] at hoff
        cases hoff
      · obtain rfl : on = false := hset.symm.trans hoff
        rw [turnsOff, hon, hlive]
        rfl
  | updateTaxRegistration dto =>
      refine .inl ?_
      rw [Store.simulatorOn, hmode (by simp [Op.tables]),
        (hframe .environment (by simp [Op.tables])).1, Store.simulatorOn]
  | changeSurroundings around =>
      refine .inl ?_
      rw [Store.simulatorOn, hmode (by simp [Op.tables]), changeSurroundings_switch h,
        Store.simulatorOn]
  | _ => exact .inl (hplain (by simp +contextual [Op.mayPost, or_imp]))

end Requests

/-! ### Runs -/

/-- What holds of a book in every run that spares open bills. -/
structure Book.Sound (B : Book) : Prop where
  priced : B.store.Priced
  wf : B.store.ledger.Wf
  noted : B.simulated.length = B.store.tenders.length
  off : B.store.simulatorOn = false → B.store.billIs .open = true → true ∉ B.simulated

section Runs

variable {B B' : Book} {op : Op}

theorem not_open_of_finalized {v : Store} (h : v.billIs .finalized = true) :
    v.billIs .open = false := by
  unfold Store.billIs at h ⊢
  cases hb : v.bill with
  | none => rfl
  | some b =>
      rw [hb, Option.any_some] at h
      rw [Option.any_some, of_decide_eq_true h]
      rfl

/-- A bill that is open was open, or nothing was on it. -/
theorem open_before (h : B.Step op B') (hB : B.Sound) (hopen : B'.store.billIs .open = true) :
    B.store.billIs .open = true ∨ B.simulated = [] := by
  obtain ⟨-, es, hmoves, -⟩ := h.step.posts hB.priced hB.wf
  cases hb : B.store.bill with
  | none =>
      obtain ⟨htenders, -⟩ := hB.wf.no_bill hb
      refine .inr (List.eq_nil_of_length_eq_zero (hB.noted.trans ?_))
      exact congrArg List.length htenders
  | some b =>
      cases hstatus : b.status with
      | «open» =>
          refine .inl ?_
          rw [Store.billIs, hb, Option.any_some, hstatus]
          rfl
      | finalized =>
          have hbefore : B.store.ledger.bill.any (·.status = .finalized) = true := by
            rw [Store.ledger, hb, Option.any_some, hstatus]
            rfl
          exact absurd hopen (by
            rw [not_open_of_finalized (moves_finalized hmoves hbefore)]
            exact Bool.false_ne_true)

/-- What a guest's word may have written, it writes while payments are simulated. -/
theorem simulated_off (h : B.Step op B') (hpriced : B.store.Priced) (hwf : B.store.ledger.Wf)
    (hoff : B'.store.simulatorOn = false) (hmem : true ∈ B'.simulated) : true ∈ B.simulated := by
  rw [h.simulated] at hmem
  rcases List.mem_append.mp hmem with hmem | hmem
  · exact hmem
  · obtain ⟨hcount, hop⟩ := List.mem_replicate.mp hmem
    have hstep := h.step
    generalize B'.store = v' at hstep hoff hcount
    cases hstep with
    | throws => exact absurd (Nat.sub_self _) hcount
    | commits hcommits =>
        have hon := simulates_on hop.symm hcommits
        rcases step_simulator (.commits hcommits) hpriced hwf with hsame | ⟨-, -, hturns⟩
        · rw [hsame, hon] at hoff
          cases hoff
        · have hturns := hturns hon hoff
          cases op <;> first | cases hop | cases hturns

theorem Book.Sound.step (hB : B.Sound) (h : B.Step op B') (hspares : Spares B op) : B'.Sound := by
  have hposts := h.step.posts hB.priced hB.wf
  refine ⟨hposts.1, hposts.wf hB.wf, ?_, fun hoff hopen hmem => ?_⟩
  · obtain ⟨-, es, hmoves, -⟩ := hposts
    have hle := (moves_tenders hmoves).length_le
    rw [h.simulated, List.length_append, List.length_replicate, hB.noted]
    exact Nat.add_sub_cancel' hle
  · have hmem := simulated_off h hB.priced hB.wf hoff hmem
    have hbefore : B.store.billIs .open = true := (open_before h hB hopen).resolve_right fun hnil => by
      rw [hnil] at hmem
      cases hmem
    cases hon : B.store.simulatorOn with
    | false => exact hB.off hon hbefore hmem
    | true =>
        rcases step_simulator h.step hB.priced hB.wf with hsame | ⟨-, -, hturns⟩
        · rw [hsame, hon] at hoff
          cases hoff
        · exact hspares (hturns hon hoff) hbefore hmem

/-- A settlement by the staff that went through. -/
theorem finalized_by {v v' : Store} {staff : PosPrincipal} {dto : FinalizeBillDto}
    {authorize : Except ApiError ManagerApproval}
    (h : Op.Step (.finalize staff dto authorize) v v') (hpriced : v.Priced)
    (hsettles : SettlesLive v v') : ∃ b b' ts, FinalizedBy dto v v' b b' ts := by
  cases h with
  | throws => exact Bool.noConfusion (hsettles.after.symm.trans hsettles.before)
  | commits h =>
      refine h.post (Q := fun v' => ∃ b b' ts, FinalizedBy dto v v' b b' ts) ?_
      exact (Txn.wlp_void ..).mpr
        (Txn.wlp_mono (commits_finalize hpriced staff dto authorize) fun _ _ hdone => hdone.1)

theorem Book.Sound.collected (hB : B.Sound) (h : B.Step op B')
    (hsettles : SettlesLive B.store B'.store) : B'.Collected := by
  have hposts := h.step.posts hB.priced hB.wf
  have hoff : B.store.simulatorOn = false := by
    rcases step_simulator h.step hB.priced hB.wf with hsame | ⟨hbill, -, -⟩
    · exact hsame ▸ hsettles.simulatorOff
    · have hafter := hsettles.after
      rw [Store.billIs, hbill] at hafter
      exact Bool.noConfusion (hafter.symm.trans hsettles.before)
  -- A guest's payment was refused, and the other requests settle nothing.
  have hrefused (hop : simulates op = true) : False := by
    obtain ⟨hstep, -⟩ := h
    generalize B'.store = v' at hstep hsettles
    cases hstep with
    | commits hcommits =>
        rw [simulates_on hop hcommits] at hoff
        cases hoff
    | throws => exact Bool.noConfusion (hsettles.after.symm.trans hsettles.before)
  have hnothing (hplain : ∀ e, op.mayPost e → e ≠ .settle) : False := by
    obtain ⟨-, es, hmoves, hes⟩ := hposts
    have hunsettled := hmoves.unsettled (fun e he => hplain e (hes e he)) hsettles.before
    exact Bool.noConfusion (hsettles.after.symm.trans hunsettled)
  cases op with
  | finalize staff dto authorize =>
      obtain ⟨b, b', ts, hdone⟩ := finalized_by h.step hB.priced hsettles
      refine ⟨fun hmem => ?_, ?_⟩
      · refine hB.off hoff ?_ (simulated_off h hB.priced hB.wf hsettles.simulatorOff hmem)
        rw [Store.billIs, hdone.wasBill, Option.any_some, hdone.wasOpen]
        rfl
      · have hintents : B'.store.intents = B.store.intents :=
          hdone.frame .paymentIntents (by decide)
        have hnone : ts.filter (fun t => B.store.intents.any fun i =>
            some i.id = t.paymentIntentId && i.provider = .simulated) = [] := by
          refine List.filter_eq_nil_iff.mpr fun t ht => ?_
          simp [hdone.manual t ht]
        rw [Store.simulatedTenders, hdone.tenders, hintents, List.filter_append, hnone,
          List.append_nil]
        exact hdone.unsimulated hoff
  | payShare guest guestId dto =>
      by_cases hsuccess : dto.simulatedOutcome = .success
      · exact (hrefused (decide_eq_true hsuccess)).elim
      · exact (hnothing (by simp [Op.mayPost, hsuccess])).elim
  | payAll guest dto =>
      by_cases hsuccess : dto.simulatedOutcome = .success
      · exact (hrefused (decide_eq_true hsuccess)).elim
      · exact (hnothing (by simp [Op.mayPost, hsuccess])).elim
  | _ => exact (hnothing (by simp +contextual [Op.mayPost, or_imp])).elim

end Runs

/-- **No simulated money settles a live bill**, in every run that turns simulated payments off
only where no guest has paid on an open bill. -/
theorem live_bills_are_collected {B₀ B B' : Book} (hplaced : B₀.store.Placed)
    (hnone : B₀.simulated = []) {ops : List Op} {op : Op}
    (hrun : Serial.Run (fun B op B' => B.Step op B') Spares B₀ ops B) (hstep : B.Step op B')
    (hsettles : SettlesLive B.store B'.store) : B'.Collected := by
  have hstart : B₀.Sound :=
    { priced := hplaced.priced, wf := hplaced.wf
      noted := by rw [hnone, hplaced.tenders]; rfl
      off := fun _ _ hmem => by rw [hnone] at hmem; cases hmem }
  have hsound : B.Sound := hrun.preserves (fun B op B' hB hspares hstep => hB.step hstep hspares)
    hstart
  exact hsound.collected hstep hsettles

/-- The book that a list of requests leads to, one after another, each allowed where it comes. -/
def Book.after (ok : Book → Op → Bool) (B : Book) : List (Op × (ℕ → Env)) → Option Book
  | [] => some B
  | (op, envs) :: requests =>
      match ok B op, op.prog.run envs 0 B.store with
      | true, .ok ((), v') =>
          Book.after ok ⟨v', B.simulated ++
            List.replicate (v'.tenders.length - B.store.tenders.length) (simulates op)⟩ requests
      | _, _ => none

theorem Book.run_of_after {ok : Book → Op → Bool} {B B' : Book}
    {requests : List (Op × (ℕ → Env))} (h : B.after ok requests = some B') :
    Serial.Run (fun B op B' => B.Step op B') (fun B op => ok B op = true) B
      (requests.map (·.1)) B' := by
  induction requests generalizing B with
  | nil =>
      cases h
      exact .nil
  | cons r requests ih =>
      obtain ⟨op, envs⟩ := r
      unfold Book.after at h
      split at h
      next v' hok hrun => exact .cons hok ⟨.commits ⟨envs, hrun⟩, rfl⟩ (ih h)
      next => cases h

theorem Book.step_of_after {ok : Book → Op → Bool} {B B' : Book} {op : Op} {envs : ℕ → Env}
    (h : B.after ok [(op, envs)] = some B') : B.Step op B' := by
  unfold Book.after at h
  split at h
  next v' _ hrun =>
    cases h
    exact ⟨.commits ⟨envs, hrun⟩, rfl⟩
  next => cases h

/-! A guest pays a share by their own word while the tenant tries things out; the tenant goes live,
and the staff settle the rest. -/

def emptyBook : Book := ⟨sampleOrder, []⟩

def sharePaid : Op := .payShare sampleGuest 1 ⟨.success, none⟩

def goesLive : Op := .setMode 1 .live "Opening"

theorem restOfBill_pos : (1 : ℤ) ≤ 10046 := by decide

/-- The other guest's share, in cash. -/
def restSettled : Op := settleWith [cashTender 10046 restOfBill_pos]

def paidOnTest : List (Op × (ℕ → Env)) :=
  [(.guestCreateBill sampleGuest, ticking 100), (sharePaid, ticking 200), (goesLive, ticking 300)]

instance (B : Book) (op : Op) : Decidable (Spares B op) :=
  inferInstanceAs (Decidable (_ → _ → _))

/-- The first guest's tender collected no money, and the cash of the rest settles the live bill
with it. -/
theorem simulated_money_settles_live :
    ¬ ∀ (B₀ B B' : Book) (ops : List Op) (op : Op), B₀.store.Placed → B₀.simulated = [] →
      Serial.Run (fun B op B' => B.Step op B') (fun _ _ => True) B₀ ops B → B.Step op B' →
      SettlesLive B.store B'.store → B'.Collected := by
  intro h
  have hbefore : (emptyBook.after (fun _ _ => true) paidOnTest).map
      (fun B => B.store.billIs .finalized) = some false := by decide +kernel
  obtain ⟨B, hB, hopen⟩ := Option.map_eq_some_iff.mp hbefore
  have hafter : ((emptyBook.after (fun _ _ => true) paidOnTest).bind
      (·.after (fun _ _ => true) [(restSettled, ticking 400)])).map
        (fun B => (B.store.billIs .finalized, B.store.simulatorOn, B.simulated)) =
      some (true, false, [true, false]) := by decide +kernel
  rw [hB, Option.bind_some] at hafter
  obtain ⟨B', hB', hcolumns⟩ := Option.map_eq_some_iff.mp hafter
  obtain ⟨hfin, hcolumns⟩ := Prod.mk.inj hcolumns
  obtain ⟨hoff, hmarks⟩ := Prod.mk.inj hcolumns
  have hcollected := h emptyBook B B' _ restSettled sampleOrder_placed rfl
    ((Book.run_of_after hB).mono fun _ _ _ => trivial) (Book.step_of_after hB')
    ⟨hopen, hfin, hoff⟩
  exact hcollected.guests (hmarks ▸ List.mem_cons_self)

/-- A bill that is raised before the tenant goes live, and settled in cash after it. -/
def raisedOnTest : List (Op × (ℕ → Env)) :=
  [(.guestCreateBill sampleGuest, ticking 100), (goesLive, ticking 300)]

def cashSettled : Op := settleWith [cashTender 24046 one_le_sampleTotal]

theorem live_bills_are_collected_sample : ∃ B B' : Book, B.Step cashSettled B' ∧
    SettlesLive B.store B'.store ∧ B'.store.tenders.length = 1 ∧ B'.Collected := by
  have hbefore : (emptyBook.after (fun B op => decide (Spares B op)) raisedOnTest).map
      (fun B => B.store.billIs .finalized) = some false := by decide +kernel
  obtain ⟨B, hB, hopen⟩ := Option.map_eq_some_iff.mp hbefore
  have hafter : ((emptyBook.after (fun B op => decide (Spares B op)) raisedOnTest).bind
      (·.after (fun _ _ => true) [(cashSettled, ticking 400)])).map
        (fun B => (B.store.billIs .finalized, B.store.simulatorOn, B.store.tenders.length)) =
      some (true, false, 1) := by decide +kernel
  rw [hB, Option.bind_some] at hafter
  obtain ⟨B', hB', hcolumns⟩ := Option.map_eq_some_iff.mp hafter
  obtain ⟨hfin, hcolumns⟩ := Prod.mk.inj hcolumns
  obtain ⟨hoff, htenders⟩ := Prod.mk.inj hcolumns
  have hrun := (Book.run_of_after hB).mono fun _ _ hspares => of_decide_eq_true hspares
  have hstep := Book.step_of_after hB'
  exact ⟨B, B', hstep, ⟨hopen, hfin, hoff⟩, htenders,
    live_bills_are_collected sampleOrder_placed rfl hrun hstep ⟨hopen, hfin, hoff⟩⟩

end RestiqBackend.SimulatedMoney
