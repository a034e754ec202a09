import RestiqBackend.AttemptLimiter
import RestiqBackend.Combos
import RestiqBackend.Encoding.Text
import RestiqBackend.Refunds

/-!
What a manager approves (`src/platform/manager-auth.service.ts`).

A refund, a discount above the threshold and a void are made on a manager's PIN. The PIN is
checked in a transaction of its own, and the audit row is written in that of the change: a change
that fails afterwards leaves a check behind and no row. A `Tenant` is its staff and its orders,
each handled one request at a time. Whether a PIN is the one that was hashed is a parameter, and
so is whether the throttle lets a check through.
-/

namespace RestiqBackend.Approvals

open ReadCommitted
open Serial (check)

/-! ### The manager's PIN -/

inductive ManagerGatedAction
  | voidAfterFire
  | comp
  | discountAboveThreshold
  | priceOverride
  | refund
  | noSaleDrawerOpen
  deriving DecidableEq

def ManagerGatedAction.text : ManagerGatedAction → String
  | .voidAfterFire => "void_after_fire"
  | .comp => "comp"
  | .discountAboveThreshold => "discount_above_threshold"
  | .priceOverride => "price_override"
  | .refund => "refund"
  | .noSaleDrawerOpen => "no_sale_drawer_open"

structure Role where
  id : ℕ
  name : String
  isManager : Bool
  deriving DecidableEq

structure StaffUser (Hash : Type) where
  id : ℕ
  tenantId : ℕ
  name : String
  role : Role
  pinHash : Option Hash
  pinRevokedAt : Option ℤ
  outletIds : List ℕ

/-- What a check of the PIN answers with. -/
structure Approval extends ManagerApproval where
  approverName : String
  roleId : ℕ
  roleName : String
  tenantId : ℕ
  actionType : ManagerGatedAction

structure ApprovalRequest where
  actionType : ManagerGatedAction
  tenantId : ℕ
  outletId : ℕ
  enteredPin : String
  reason : String

section Authorize

variable {Hash : Type} (verify : Hash → String → Bool)

def candidates (staffUsers : List (StaffUser Hash)) (r : ApprovalRequest) : List (StaffUser Hash) :=
  staffUsers.filter fun u => u.tenantId = r.tenantId && u.pinHash.isSome && u.pinRevokedAt.isNone &&
    (r.actionType = .refund || u.role.isManager)

/-- A refund is approved with the refunds permission and access to the bill's outlet. -/
def eligibleCandidates (staffUsers : List (StaffUser Hash)) (r : ApprovalRequest) :
    List (StaffUser Hash) :=
  if r.actionType = .refund then
    (candidates staffUsers r).filter fun c => roleHasPermission c.role.name .refunds &&
      (c.outletIds = [] || c.outletIds.contains r.outletId)
  else candidates staffUsers r

def approver (staffUsers : List (StaffUser Hash)) (r : ApprovalRequest) : Option (StaffUser Hash) :=
  (eligibleCandidates staffUsers r).find? fun c => c.pinHash.any (verify · r.enteredPin)

def authorize (limited : Option Attempts.LockedOut) (staffUsers : List (StaffUser Hash))
    (r : ApprovalRequest) : Except ApiError Approval := do
  check (Text.trim r.reason.toList ≠ [])
    ⟨.badRequest, "validation_failed", "A reason is required for manager authorisation"⟩
  match limited with
  | some answer => Except.error ⟨.tooManyRequests, "locked_out", answer.message⟩
  | none =>
      match approver verify staffUsers r with
      | some u =>
          .ok { approverId := u.id, approverName := u.name, roleId := u.role.id
                roleName := u.role.name, tenantId := r.tenantId, actionType := r.actionType
                reason := r.reason }
      | none => .error ⟨.unauthorized, "invalid_credentials", "Incorrect manager PIN"⟩

/-- Someone whose PIN, not revoked, was verified for a request, and who may approve it. -/
structure Verified (u : StaffUser Hash) (r : ApprovalRequest) : Prop where
  tenant : u.tenantId = r.tenantId
  unrevoked : u.pinRevokedAt = none
  pin : ∃ hash, u.pinHash = some hash ∧ verify hash r.enteredPin = true
  manager : r.actionType ≠ .refund → u.role.isManager = true
  refunds : r.actionType = .refund → roleHasPermission u.role.name .refunds = true ∧
    (u.outletIds = [] ∨ r.outletId ∈ u.outletIds)

variable {verify}

theorem mem_candidates {staffUsers : List (StaffUser Hash)} {r : ApprovalRequest}
    {u : StaffUser Hash} (h : u ∈ candidates staffUsers r) :
    u ∈ staffUsers ∧ u.tenantId = r.tenantId ∧ u.pinRevokedAt = none ∧
      (r.actionType ≠ .refund → u.role.isManager = true) := by
  obtain ⟨hmem, hu⟩ := List.mem_filter.mp h
  simp only [Bool.and_eq_true, decide_eq_true_eq, Option.isNone_iff_eq_none, Bool.or_eq_true] at hu
  obtain ⟨⟨⟨htenant, -⟩, hunrevoked⟩, hmanager⟩ := hu
  exact ⟨hmem, htenant, hunrevoked, fun hr => hmanager.resolve_left hr⟩

/-- An approval names someone of the staff whose PIN was verified. -/
theorem authorize_ok {limited : Option Attempts.LockedOut} {staffUsers : List (StaffUser Hash)}
    {r : ApprovalRequest} {approval : Approval}
    (h : authorize verify limited staffUsers r = .ok approval) :
    ∃ u ∈ staffUsers, Verified verify u r ∧ approval.approverId = u.id := by
  obtain ⟨-, -, h⟩ := Serial.bind_ok h
  cases limited with
  | some answer => cases h
  | none =>
      cases hu : approver verify staffUsers r with
      | none => simp only [hu, reduceCtorEq] at h
      | some u =>
          simp only [hu, Except.ok.injEq] at h
          obtain ⟨hash, hhash, hverify⟩ := (Option.any_eq_true ..).mp
            (List.find?_some (p := fun c : StaffUser Hash => c.pinHash.any (verify · r.enteredPin)) hu)
          have hmem := List.mem_of_find?_eq_some hu
          unfold eligibleCandidates at hmem
          split at hmem
          · rename_i hrefund
            obtain ⟨hmem, hmay⟩ := List.mem_filter.mp hmem
            obtain ⟨hstaff, htenant, hunrevoked, hmanager⟩ := mem_candidates hmem
            simp only [Bool.and_eq_true, Bool.or_eq_true, decide_eq_true_eq,
              List.contains_iff_mem] at hmay
            exact ⟨u, hstaff, ⟨htenant, hunrevoked, ⟨hash, hhash, hverify⟩, hmanager,
              fun _ => hmay⟩, h ▸ rfl⟩
          · rename_i hother
            obtain ⟨hstaff, htenant, hunrevoked, hmanager⟩ := mem_candidates hmem
            exact ⟨u, hstaff, ⟨htenant, hunrevoked, ⟨hash, hhash, hverify⟩, hmanager,
              fun hrefund => absurd hrefund hother⟩, h ▸ rfl⟩

end Authorize

/-! ### What is counted -/

def managerGatedActions : List String :=
  [ManagerGatedAction.voidAfterFire, .comp, .discountAboveThreshold, .priceOverride, .refund,
    .noSaleDrawerOpen].map (·.text)

def isGated (e : AuditEvent) : Bool := e.action ∈ managerGatedActions

/-- The audit events of actions that take a manager's PIN. -/
def gated (v : Store) : List AuditEvent := v.auditEvents.filter isGated

def countOf (action : ManagerGatedAction) (es : List AuditEvent) : ℕ :=
  es.countP (·.action = action.text)

/-- The bill was settled with a discount of more than a fifth of its subtotal, rounded down. -/
def isOverDiscounted (b : Bill) : Bool :=
  b.status = .finalized && b.subtotalMinor * 20 / 100 < b.discountMinor.getD 0

def overDiscounts (v : Store) : ℕ := v.bill.toList.countP isOverDiscounted

/-- The line was voided, and is not an item of a combo. -/
def isVoidedWhole (l : OrderLine) : Bool := l.voidedAt.isSome && l.parentLineId.isNone

def voidedLines (v : Store) : ℕ := v.lines.countP isVoidedWhole

/-- What a request adds to the audit trail, and what it has done for it. -/
structure Accounts (v v' : Store) (new : List AuditEvent) : Prop where
  gated : gated v' = gated v ++ new
  notes : v'.creditNotes.length = v.creditNotes.length + countOf .refund new
  discounts : overDiscounts v' = overDiscounts v + countOf .discountAboveThreshold new
  voids : voidedLines v' = voidedLines v + countOf .voidAfterFire new

theorem Accounts.refl (v : Store) : Accounts v v [] :=
  ⟨(List.append_nil _).symm, rfl, rfl, rfl⟩

/-- As many events as there are notes, discounts above the threshold and voids. -/
structure Accounted (v : Store) : Prop where
  notes : countOf .refund v.auditEvents = v.creditNotes.length
  discounts : countOf .discountAboveThreshold v.auditEvents = overDiscounts v
  voids : countOf .voidAfterFire v.auditEvents = voidedLines v

theorem text_mem (action : ManagerGatedAction) : action.text ∈ managerGatedActions :=
  List.mem_map_of_mem (by cases action <;> simp)

theorem countOf_gated (action : ManagerGatedAction) (v : Store) :
    countOf action (gated v) = countOf action v.auditEvents := by
  refine (List.countP_filter ..).trans (List.countP_congr fun e _ => ?_)
  simp only [isGated, Bool.and_eq_true, decide_eq_true_eq, and_iff_left_iff_imp]
  rintro he
  rw [he]
  exact text_mem action

theorem Accounted.step {v v' : Store} {new : List AuditEvent} (hv : Accounted v)
    (h : Accounts v v' new) : Accounted v' := by
  have hcount : ∀ action, countOf action v'.auditEvents =
      countOf action v.auditEvents + countOf action new := fun action => by
    rw [← countOf_gated, h.gated, countOf, List.countP_append]
    exact congrArg (· + _) (countOf_gated action v)
  refine ⟨?_, ?_, ?_⟩
  · rw [hcount, hv.notes, h.notes]
  · rw [hcount, hv.discounts, h.discounts]
  · rw [hcount, hv.voids, h.voids]

/-! ### What the other writes leave -/

/-- A write that records nothing of a manager's, and gives a bill no other discount. -/
def Plain (discountMinor : Option ℤ) : Write → Prop
  | .createAuditEvent e => isGated e = false
  | .createBill b => b.discountMinor = none
  | .finalizeBill _ discount .. => discount = discountMinor
  | _ => True

variable {d : Option ℤ}

theorem plain_of_table {w : Write} (hbills : w.table ≠ .bills) (hevents : w.table ≠ .auditEvents) :
    Plain d w := by
  cases w
  case createAuditEvent e => exact absurd rfl hevents
  case createBill => exact absurd rfl hbills
  case finalizeBill => exact absurd rfl hbills
  all_goals trivial

theorem plain_of_touching {ts : List Table} (hts : .bills ∉ ts ∧ .auditEvents ∉ ts) {α : Type}
    {p : Tx α} (hp : p.Emits (Touching ts)) : p.Emits (Writing (Plain d)) :=
  writing_of_touching (fun _ hw => plain_of_table (fun h => hts.1 (h ▸ hw))
    fun h => hts.2 (h ▸ hw)) hp

theorem plain_of_reads {α : Type} {p : Tx α} (hp : p.Emits (Touching [])) :
    p.Emits (Writing (Plain d)) :=
  plain_of_touching ⟨List.not_mem_nil, List.not_mem_nil⟩ hp

theorem gated_apply {w : Write} (hw : Plain d w) (v : Store) : gated (v.apply w) = gated v := by
  by_cases htable : w.table = .auditEvents
  · cases w <;> simp only [Write.table, reduceCtorEq] at htable
    case createAuditEvent e =>
      simp only [gated, Store.apply, List.filter_append, List.filter_cons, List.filter_nil]
      rw [if_neg (by rw [show isGated e = false from hw]; simp), List.append_nil]
  · exact congrArg (List.filter _) (w.frame v .auditEvents (by simpa using Ne.symm htable))

theorem commits_gated {α : Type} {p : Tx α} (hp : p.Emits (Writing (Plain d))) (v : Store) :
    p.commits (fun _ v' => gated v' = gated v) v :=
  commits_of_writing hp (fun _ v₁ hw h => (gated_apply hw v₁).trans h) rfl

/-! ### Requests that take no PIN -/

theorem refresh_plain (bill : BillWithTenders) : (refreshOpenBillTotals bill).Emits (Writing (Plain d)) := by
  have hΦ := writing_closed (Plain d)
  refine hΦ.ite (hΦ.done _) (hΦ.bind (plain_of_reads computeBillTotals_emits) fun totals => ?_)
  refine hΦ.ite (hΦ.done _) (hΦ.bind (p := .stmt _ .done) ⟨fun _ _ w hw => ?_, fun _ => trivial⟩
    fun updated => ?_)
  · obtain rfl := List.mem_singleton.mp hw
    trivial
  · cases updated <;> trivial

theorem commitFinalize_plain {params : CommitFinalizeParams} (h : params.discountMinor = d) :
    (commitFinalize params).Emits (Writing (Plain d)) := by
  have hΦ := writing_closed (Plain d)
  have hlive : "tenant.went_live" ∉ managerGatedActions := by decide
  refine hΦ.bind (plain_of_reads (checkSettlement_emits params)) fun checked => ?_
  refine hΦ.bind (p := .stmt _ .done) ⟨fun _ _ w hw => ?_, fun _ => trivial⟩ fun number => ?_
  · obtain rfl := List.mem_singleton.mp hw
    trivial
  refine hΦ.bind (plain_of_reads emits_clock) fun at_ => ?_
  refine hΦ.bind (writing_writeWhen (List.forall_mem_singleton.mpr h)) fun _ => ?_
  refine hΦ.bind (plain_of_reads (emits_raiseIf ..)) fun _ => ?_
  refine hΦ.bind (plain_of_touching (by decide) (fireOnSend_emits _)) fun _ => ?_
  refine hΦ.bind (writing_exec fun _ => List.forall_mem_singleton.mpr trivial) fun _ => ?_
  refine hΦ.bind ?_ fun _ => plain_of_reads loadBill_emits
  refine hΦ.bind (writing_writeWhen (List.forall_mem_singleton.mpr trivial)) fun _ => ?_
  exact hΦ.ite (writing_exec fun _ => List.forall_mem_singleton.mpr (decide_eq_false hlive)) (hΦ.done ())

theorem completeBill_plain (order : Order) : (completeBill order).Emits (Writing (Plain none)) := by
  have hΦ := writing_closed (Plain none)
  refine hΦ.bind (plain_of_reads loadBill_emits) fun _ => ?_
  refine hΦ.bind (commitFinalize_plain rfl) fun _ => ?_
  exact hΦ.ite (writing_exec fun _ => List.forall_mem_singleton.mpr trivial) (hΦ.done ())

theorem preparePayment_plain (guest : GuestPrincipal) :
    (preparePayment guest).Emits (Writing (Plain d)) :=
  preparePayment_parts (writing_closed (Plain d)) refresh_plain (plain_of_touching (by decide)) guest

/-- A late capture is recorded too, but as nobody's. -/
theorem confirmIntent_plain (id : ℕ) : (confirmIntent id).Emits (Writing (Plain d)) := by
  have hΦ := writing_closed (Plain d)
  refine hΦ.bind (plain_of_reads (findIntent_emits id)) fun target => ?_
  refine hΦ.bind (plain_of_reads lockBill_emits) fun _ => ?_
  refine hΦ.bind (plain_of_reads (emits_query _)) fun _ => ?_
  refine hΦ.bind (plain_of_reads (emits_raiseIf ..)) fun _ => ?_
  refine hΦ.bind (plain_of_reads emits_clock) fun _ => ?_
  refine hΦ.bind (plain_of_touching (by decide) (updateIntentWhere_emits ..)) fun _ => ?_
  refine hΦ.bind (plain_of_reads (findIntent_emits id)) fun row => hΦ.ite (hΦ.done _) ?_
  refine hΦ.bind (plain_of_reads loadBill_emits) fun bill => hΦ.ite ?_ ?_
  · refine hΦ.bind (writing_exec fun _ => List.forall_mem_singleton.mpr trivial) fun _ => ?_
    refine hΦ.bind (writing_exec fun _ => List.forall_mem_singleton.mpr ?_) fun _ =>
      plain_of_reads (findIntent_emits id)
    have hlate : "payment.late_capture_refund_due" ∉ managerGatedActions := by decide
    exact decide_eq_false hlate
  · refine hΦ.bind (plain_of_touching (by decide) (createTenderRecord_emits _)) fun _ => ?_
    exact plain_of_reads (findIntent_emits id)

theorem payShare_plain (guest : GuestPrincipal) (guestId : ℕ) (dto : SimulatedPaymentDto) :
    (payShare guest guestId dto).Emits (Writing (Plain none)) :=
  payShare_parts (writing_closed (Plain none)) preparePayment_plain (plain_of_touching (by decide))
    completeBill_plain guest guestId dto

theorem payByKioskCard_plain (bill : Bill) (amountMinor : ℤ) :
    (payByKioskCard bill amountMinor).Emits (Writing (Plain d)) := by
  have hΦ := writing_closed (Plain d)
  refine hΦ.bind (plain_of_reads (emits_query _)) fun _ => ?_
  refine hΦ.bind (plain_of_reads emits_uuid) fun _ => hΦ.bind (plain_of_reads emits_clock) fun _ => ?_
  refine hΦ.bind (writing_insertRow trivial) fun _ => ?_
  refine hΦ.bind (confirmIntent_plain _) fun confirmed => ?_
  cases confirmed.tender <;> trivial

theorem takeAll_plain (bill : Bill) (order : Order) (session : TableSession)
    (phone : Option String) : (takeAll bill order session phone).Emits (Writing (Plain none)) := by
  have hΦ := writing_closed (Plain none)
  refine hΦ.bind ?_ fun tenderId => ?_
  · unfold takeWhole
    cases session.tableId with
    | none => exact payByKioskCard_plain bill _
    | some _ =>
        exact hΦ.bind (plain_of_touching (by decide) (createTenderRecord_emits _)) fun _ => trivial
  · exact hΦ.bind (plain_of_touching (by decide) (payAllShares_emits ..)) fun _ =>
      completeBill_plain order

theorem payAll_plain (guest : GuestPrincipal) (dto : SimulatedPaymentDto) :
    (payAll guest dto).Emits (Writing (Plain none)) := by
  have hΦ := writing_closed (Plain none)
  refine hΦ.bind (preparePayment_plain guest) fun prepared => ?_
  refine hΦ.bind (plain_of_reads (emits_query _)) fun _ => ?_
  refine hΦ.bind (plain_of_reads (emits_raiseIf ..)) fun _ => hΦ.bind ?_ fun _ =>
    plain_of_reads buildView_emits
  unfold onSuccess
  cases dto.simulatedOutcome with
  | success => exact takeAll_plain ..
  | failure => exact hΦ.done ()

theorem simulate_plain (id : ℕ) (outcome : SimulatedOutcome) :
    (simulate id outcome).Emits (Writing (Plain d)) := by
  have hΦ := writing_closed (Plain d)
  refine hΦ.bind (plain_of_reads (loadIntent_emits id)) fun row => ?_
  refine hΦ.bind (plain_of_reads (emits_query _)) fun _ => ?_
  refine hΦ.bind (plain_of_reads (emits_raiseIf ..)) fun _ => ?_
  cases outcome with
  | success => exact hΦ.ite (hΦ.done _) (hΦ.ite (hΦ.fail _) (confirmIntent_plain id))
  | failure =>
      refine hΦ.bind (plain_of_touching (by decide) (expireIfDue_emits row)) fun _ => ?_
      refine hΦ.ite (hΦ.done _) (hΦ.ite (hΦ.fail _) ?_)
      refine hΦ.bind (plain_of_touching (by decide) (updateIntentWhere_emits ..)) fun _ => ?_
      exact plain_of_reads (findIntent_emits id)

theorem setMode_plain (operatorId : ℕ) (mode : Mode) (reason : String) :
    (setMode operatorId mode reason).Emits (Writing (Plain d)) := by
  have hΦ := writing_closed (Plain d)
  refine hΦ.bind (plain_of_reads (emits_query _)) fun _ => ?_
  refine hΦ.bind (plain_of_reads (emits_raiseIf ..)) fun _ => hΦ.bind ?_ fun liveSince => ?_
  · cases mode with
    | test =>
        exact hΦ.bind (plain_of_reads (emits_query _)) fun _ =>
          hΦ.bind (plain_of_reads (emits_raiseIf ..)) fun _ => hΦ.done _
    | live => exact hΦ.bind (plain_of_reads emits_clock) fun _ => hΦ.done _
  · refine hΦ.bind (writing_exec fun _ => List.forall_mem_singleton.mpr trivial) fun _ => ?_
    refine hΦ.bind (writing_exec fun _ => List.forall_mem_singleton.mpr ?_) fun _ => hΦ.done _
    have hmode : mode.action ∉ managerGatedActions := by cases mode <;> decide
    exact decide_eq_false hmode

/-- What a manager has to approve, with what the check of the PIN answered. -/
def gate : Op → Option (ManagerGatedAction × Except ApiError ManagerApproval)
  | .finalize _ _ authorize => some (.discountAboveThreshold, authorize)
  | .refund _ _ authorize => some (.refund, authorize)
  | .voidLine _ _ _ authorize => some (.voidAfterFire, authorize)
  | _ => none

section Requests

variable {op : Op} {v v' : Store}

/-- Every other request records nothing of a manager's. -/
theorem gated_eq (hop : gate op = none) (h : op.Step v v') : gated v' = gated v := by
  have hplain : op.prog.Emits (Writing (Plain none)) → gated v' = gated v := fun hp =>
    h.post (Q := fun v' => gated v' = gated v) rfl (commits_gated hp v)
  have hframe : .auditEvents ∉ op.tables → gated v' = gated v := fun ht =>
    congrArg (List.filter _) (h.frame .auditEvents ht)
  cases op with
  | finalize => cases hop
  | refund => cases hop
  | voidLine => cases hop
  | payShare guest guestId dto => exact hplain ((payShare_plain guest guestId dto).bind fun _ => trivial)
  | payAll guest dto => exact hplain ((payAll_plain guest dto).bind fun _ => trivial)
  | simulate id outcome => exact hplain ((simulate_plain id outcome).bind fun _ => trivial)
  | setMode operatorId mode reason =>
      exact hplain ((setMode_plain operatorId mode reason).bind fun _ => trivial)
  | _ => exact hframe (by simp [Op.tables])

/-! ### Discounts -/

/-- What the books keep of an order and its bill. -/
structure Kept (v : Store) : Prop where
  priced : v.Priced
  wf : v.ledger.Wf
  computed : v.ledger.Computed

theorem Kept.step (hv : Kept v) (h : op.Step v v') : Kept v' := by
  have hposts := h.posts hv.priced hv.wf
  have hwf := hposts.wf hv.wf
  obtain ⟨hpriced, es, hes, -⟩ := hposts
  exact ⟨hpriced, hwf, hes.preserves_of (fun _ _ _ _ hwf hL hm => hm.computed hwf hL) hv.wf
    hv.computed⟩

theorem overDiscounts_of_unsettled (h : ∀ b, v.bill = some b → b.status ≠ .finalized) :
    overDiscounts v = 0 := by
  cases hb : v.bill with
  | none => simp [overDiscounts, hb]
  | some b => simp [overDiscounts, hb, isOverDiscounted, h b hb]

def Undiscounted (v : Store) : Prop := ∀ b, v.bill = some b → b.discountMinor = none

theorem undiscounted_apply {w : Write} (hw : Plain none w) (h : Undiscounted v) :
    Undiscounted (v.apply w) := by
  by_cases htable : w.table = .bills
  · cases w <;> simp only [Write.table, reduceCtorEq] at htable
    case createBill b =>
      rintro _ ⟨⟩
      exact hw
    case deleteBill =>
      rintro _ ⟨⟩
    case updateBillTotals subtotal tax breakdown incl =>
      intro b' hb'
      obtain ⟨b, hb, rfl⟩ := Option.map_eq_some_iff.mp hb'
      exact h b hb
    case finalizeBill number discount reason roundOff tax staff at_ =>
      intro b' hb'
      obtain ⟨b, hb, rfl⟩ := Option.map_eq_some_iff.mp hb'
      exact hw
  · have hbill : (v.apply w).bill = v.bill := w.frame v .bills (by simpa using Ne.symm htable)
    exact fun b hb => h b (hbill ▸ hb)

/-- A bill that a guest settles has no discount. -/
theorem Kept.undiscounted (hv : Kept v) (hunsettled : ∀ b, v.bill = some b → b.status ≠ .finalized)
    (h : op.Step v v') (hp : op.prog.Emits (Writing (Plain none))) : Undiscounted v' := by
  have hbefore : Undiscounted v := fun b hb => (hv.computed b hb).2 (by
    cases hstatus : b.status with
    | «open» => rfl
    | finalized => exact absurd hstatus (hunsettled b hb))
  exact h.post hbefore (commits_of_writing hp (fun _ _ hw h => undiscounted_apply hw h) hbefore)

theorem overDiscounts_eq (hop : gate op = none) (hv : Kept v) (h : op.Step v v') :
    overDiscounts v' = overDiscounts v := by
  by_cases hfin : ∃ b, v.bill = some b ∧ b.status = .finalized
  · obtain ⟨b, hb, hfin⟩ := hfin
    rw [overDiscounts, (h.finalized_keeps hv.priced hv.wf hb hfin).1, overDiscounts, hb]
  have hunsettled : ∀ b, v.bill = some b → b.status ≠ .finalized := fun b hb hb' =>
    hfin ⟨b, hb, hb'⟩
  rw [overDiscounts_of_unsettled hunsettled]
  have hnone : Undiscounted v' → overDiscounts v' = 0 := fun hnone => by
    cases hb : v'.bill with
    | none => simp [overDiscounts, hb]
    | some b =>
        have hsub := ((hv.step h).computed b hb).1.subtotal_nonneg
        have hover : isOverDiscounted b = false := by
          simp only [isOverDiscounted, hnone b hb, Option.getD_none, Bool.and_eq_false_imp,
            decide_eq_false_iff_not, not_lt]
          exact fun _ => by omega
        simp [overDiscounts, hb, hover]
  have hplain : (∀ e, op.mayPost e → e ≠ .settle) → overDiscounts v' = 0 := fun hop => by
    obtain ⟨-, es, hes, hmay⟩ := h.posts hv.priced hv.wf
    have hbefore : v.ledger.bill.any (·.status = .finalized) = false := by
      exact (Option.any_eq_false ..).mpr fun b hb => by simpa using hunsettled b hb
    have hafter := (Option.any_eq_false ..).mp
      (hes.unsettled (fun e he => hop e (hmay e he)) hbefore)
    exact overDiscounts_of_unsettled fun b hb => by simpa using hafter b hb
  cases op with
  | finalize => cases hop
  | refund => cases hop
  | voidLine => cases hop
  | payShare guest guestId dto =>
      exact hnone (hv.undiscounted hunsettled h ((payShare_plain guest guestId dto).bind
        fun _ => trivial))
  | payAll guest dto =>
      exact hnone (hv.undiscounted hunsettled h ((payAll_plain guest dto).bind fun _ => trivial))
  | _ => exact hplain (by simp +contextual [Op.mayPost, or_imp])

/-! ### Voided lines -/

/-- A write that voids no line and takes no line away. -/
def KeepsVoids : Write → Prop
  | .createLine l => l.voidedAt = none
  | .deleteLine _ | .voidLines .. => False
  | _ => True

theorem voidedLines_update {f : OrderLine → OrderLine} (id : ℕ)
    (hf : ∀ l, isVoidedWhole (f l) = isVoidedWhole l)
    (hlines : v'.lines = updateRows OrderLine.id id f v.lines) : voidedLines v' = voidedLines v := by
  rw [voidedLines, hlines, updateRows, List.countP_map]
  refine List.countP_congr fun l _ => ?_
  rw [Function.comp_apply]
  split
  · rw [hf]
  · rfl

theorem voidedLines_apply {w : Write} (hw : KeepsVoids w) (v : Store) :
    voidedLines (v.apply w) = voidedLines v := by
  by_cases htable : w.table = .orderLines
  · cases w <;> simp only [Write.table, reduceCtorEq] at htable
    case createLine l =>
      have hlive : l.voidedAt = none := hw
      simp [voidedLines, Store.apply, isVoidedWhole, hlive]
    case deleteLine id => exact hw.elim
    case voidLines ids voidedAt => exact hw.elim
    case updateLineQuantity id quantity =>
      exact voidedLines_update id (f := fun l => { l with quantity }) (fun _ => rfl) rfl
    case updateLineSeat id seat =>
      exact voidedLines_update id (f := fun l => { l with seatNumber := some seat }) (fun _ => rfl) rfl
    case deleteLineModifiers id =>
      exact voidedLines_update id (f := fun l => { l with modifiers := [] }) (fun _ => rfl) rfl
    case createLineModifier id m =>
      exact voidedLines_update id (f := fun l => { l with modifiers := l.modifiers ++ [m] })
        (fun _ => rfl) rfl
  · exact congrArg (List.countP _) (w.frame v .orderLines (by simpa using Ne.symm htable))

theorem keepsVoids_parts : LineParts fun {α} (p : Tx α) => p.Emits (Writing KeepsVoids) where
  insert _ h := writing_insertRow h.live
  modifier _ _ _ := writing_exec fun _ => List.forall_mem_singleton.mpr trivial
  change id w hw := by
    refine writing_writeWhen (List.forall_mem_singleton.mpr ?_)
    rcases hw with ⟨_, rfl⟩ | ⟨_, rfl⟩ <;> trivial
  clear _ := writing_exec fun _ => List.forall_mem_singleton.mpr trivial
  reads hp := writing_of_touching (fun _ hw => absurd hw List.not_mem_nil) hp

theorem removeLine_voids (hids : (v.lines.map (·.id)).Nodup) (staff : PosPrincipal) (name : String)
    (lineId : ℕ) :
    (removeLine staff name lineId).commits (fun _ v' => voidedLines v' = voidedLines v) v := by
  simp only [removeLine, Txn.commits, Txn.wlp_bind]
  refine commits_loadOpenOrder fun _ => commits_loadLiveLine fun line hline hid hlive => ?_
  refine commits_assertNotComboLine (commits_assertLineNotSent ?_)
  refine commits_reads assertBillHasNoPayments_emits fun _ => ?_
  refine Txn.commits_writeWhen (fun _ => ?_) fun _ => trivial
  refine (List.countP_filter ..).trans (List.countP_congr fun l hl => ?_)
  simp only [Bool.and_eq_true, and_iff_left_iff_imp]
  intro hvoided
  obtain ⟨hgone, htop⟩ := Bool.and_eq_true_iff.mp hvoided
  have htop : l.parentLineId = none := Option.isNone_iff_eq_none.mp htop
  -- The line that goes is not voided, and what goes with it is in a combo.
  have hne : l.id ≠ lineId := by
    rintro rfl
    obtain rfl := eq_of_key_eq hids hl hline hid.symm
    rw [hlive] at hgone
    cases hgone
  simp [htop, hne]

theorem voidedLines_eq (hop : gate op = none) (hids : (v.lines.map (·.id)).Nodup)
    (h : op.Step v v') : voidedLines v' = voidedLines v := by
  have hwriting : op.prog.Emits (Writing KeepsVoids) → voidedLines v' = voidedLines v := fun hp =>
    h.post (Q := fun v' => voidedLines v' = voidedLines v) rfl (commits_of_writing hp
      (fun _ v₁ hw h => (voidedLines_apply hw v₁).trans h) rfl)
  have hframe : .orderLines ∉ op.tables → voidedLines v' = voidedLines v := fun ht =>
    congrArg (List.countP _) (h.frame .orderLines ht)
  have hΦ := writing_closed KeepsVoids
  cases op with
  | finalize => cases hop
  | refund => cases hop
  | voidLine => cases hop
  | addLine staff name dto menu => exact hwriting (addLine_parts hΦ keepsVoids_parts staff name dto menu)
  | addCombo staff name dto menu =>
      exact hwriting (addCombo_parts hΦ keepsVoids_parts staff name dto menu)
  | updateLine staff name lineId dto =>
      exact hwriting (updateLine_parts hΦ keepsVoids_parts staff name lineId dto)
  | removeLine staff name lineId => 
      exact h.post (Q := fun v' => voidedLines v' = voidedLines v) rfl
        (removeLine_voids hids staff name lineId)
  | _ => exact hframe (by simp [Op.tables, settlementTables, guestPaymentTables])

/-! ### Requests that take a PIN -/

/-- The row of an approved action. -/
def recorded (approval : ManagerApproval) (action : ManagerGatedAction) (actorId : ℕ) : AuditEvent :=
  ⟨action.text, some actorId, some approval.approverId, .text approval.reason⟩

theorem isGated_recorded (approval : ManagerApproval) (action : ManagerGatedAction) (actorId : ℕ) :
    isGated (recorded approval action actorId) = true :=
  decide_eq_true (text_mem action)

theorem countOf_recorded (approval : ManagerApproval) (action action' : ManagerGatedAction)
    (actorId : ℕ) :
    countOf action' [recorded approval action actorId] = if action = action' then 1 else 0 := by
  cases action <;> cases action' <;> simp [countOf, recorded, ManagerGatedAction.text]

theorem gated_append {e : AuditEvent} (he : isGated e = true)
    (h : v'.auditEvents = v.auditEvents ++ [e]) : gated v' = gated v ++ [e] := by
  rw [gated, h, List.filter_append, List.filter_cons, if_pos he, List.filter_nil, gated]

/-- Voiding a line and what is in it is one void. -/
theorem countP_voided {lines : List OrderLine} (hids : (lines.map (·.id)).Nodup) {line : OrderLine}
    (hline : line ∈ lines) (hlive : line.voidedAt = none) (htop : line.parentLineId = none)
    {ids : List ℕ} (hmem : ∀ l ∈ lines, l.parentLineId = none → (l.id ∈ ids ↔ l = line))
    (voidedAt : ℤ) :
    (lines.map fun l => if l.id ∈ ids then { l with voidedAt := some voidedAt } else l).countP
      isVoidedWhole = lines.countP isVoidedWhole + 1 := by
  have hsame : ∀ ls : List OrderLine, (∀ l ∈ ls, l ∈ lines) → line ∉ ls →
      (ls.map fun l => if l.id ∈ ids then { l with voidedAt := some voidedAt } else l).countP
        isVoidedWhole = ls.countP isVoidedWhole := by
    intro ls hls hnot
    rw [List.countP_map]
    refine List.countP_congr fun l hl => ?_
    rw [Function.comp_apply]
    split
    · rename_i hid
      -- It is in a combo, so it does not count before or after.
      have hchild : l.parentLineId ≠ none := fun hnone => hnot (((hmem l (hls l hl) hnone).mp hid) ▸ hl)
      obtain ⟨parentId, hparent⟩ := Option.ne_none_iff_exists'.mp hchild
      simp [isVoidedWhole, hparent]
    · rfl
  obtain ⟨before, after, rfl⟩ := List.append_of_mem hline
  have hnodup := List.Nodup.of_map _ hids
  have hnot : line ∉ before ∧ line ∉ after := by
    obtain ⟨-, htail, hdisjoint⟩ := List.nodup_append.mp hnodup
    exact ⟨fun h => hdisjoint _ h _ List.mem_cons_self rfl, (List.nodup_cons.mp htail).1⟩
  have hself : line.id ∈ ids := (hmem line hline htop).mpr rfl
  simp only [List.map_append, List.map_cons, List.countP_append, List.countP_cons, if_pos hself,
    hsame before (fun l hl => List.mem_append_left _ hl) hnot.1,
    hsame after (fun l hl => List.mem_append_right _ (List.mem_cons_of_mem _ hl)) hnot.2]
  simp [isVoidedWhole, hlive, htop]
  omega

theorem voidLine_accounts (hids : (v.lines.map (·.id)).Nodup) (staff : PosPrincipal) (name : String)
    (lineId : ℕ) (authorize : Except ApiError ManagerApproval) :
    (voidLine staff name lineId authorize).commits (fun _ v' => ∃ approval,
      authorize = .ok approval ∧ Accounts v v' [recorded approval .voidAfterFire staff.id]) v := by
  simp only [voidLine, lineAndChildIds, isSentToKitchen, voidTicketLines, recordApproval,
    Txn.commits, Txn.wlp_bind, Txn.wlp_query, Txn.wlp_pure, Txn.wlp_clock, Txn.wlp_exec,
    applyAll_cons, applyAll_nil, writeTo_apply]
  refine commits_loadOpenOrder fun _ => commits_loadLiveLine fun line hline hid hlive => ?_
  refine commits_raiseIf fun htop => fun _ _ _ _ => commits_raiseIf fun _ => ?_
  refine commits_reads assertBillHasNoPayments_emits fun _ => commits_ofExcept fun approval happroved => ?_
  intro env _ _ _ _ _ _ _
  have htop : line.parentLineId = none := not_not.mp htop
  refine ⟨approval, happroved, gated_append (isGated_recorded ..) rfl, ?_, ?_, ?_⟩
  · rw [countOf_recorded]
    rfl
  · rw [countOf_recorded]
    rfl
  · rw [countOf_recorded, if_pos rfl]
    refine countP_voided hids hline hlive htop (fun l hl hnone => ?_) env.now
    simp only [List.mem_cons, List.mem_map, List.mem_filter, decide_eq_true_eq]
    constructor
    · rintro (hid' | ⟨c, ⟨hc, hparent⟩, hcid⟩)
      · exact eq_of_key_eq hids hl hline hid'
      · obtain rfl := eq_of_key_eq hids hc hl hcid
        rw [hnone] at hparent
        cases hparent
    · rintro rfl
      exact .inl rfl

theorem refund_accounts (staff : PosPrincipal) (dto : RefundBillDto)
    (authorize : Except ApiError ManagerApproval) :
    (refund staff dto authorize).commits (fun _ v' => ∃ approval,
      authorize = .ok approval ∧ Accounts v v' [recorded approval .refund staff.id]) v := by
  simp only [refund, lockBill, recordApproval, Txn.commits, Txn.wlp_bind, Txn.wlp_exec,
    Txn.wlp_query, Txn.wlp_uuid, Txn.wlp_clock, Txn.wlp_pure, applyAll_nil]
  refine commits_reads (assertPinGiven_emits ..) fun _ _ _ => commits_loadBill_refresh fun b hb => ?_
  refine commits_raiseIf fun hstatus => ?_
  rw [Bill.refreshed_status, not_not] at hstatus
  rw [Store.refreshed_eq_self hb hstatus, Bill.refreshed_of_finalized hstatus]
  intro _ _ _ _
  refine commits_ofExcept fun targets htargets => commits_ofExcept fun lines hlines => ?_
  intro _ _
  refine commits_ofExcept fun approval happroved env _ env' _ => commits_insertRow fun _ => ?_
  simp only [applyAll_cons, applyAll_nil, writeTo_apply]
  intro _ _
  refine ⟨approval, happroved, gated_append (isGated_recorded ..) rfl, ?_, ?_, ?_⟩
  · rw [countOf_recorded, if_pos rfl]
    exact List.length_append
  · rw [countOf_recorded]
    rfl
  · rw [countOf_recorded]
    rfl

theorem commits_approveDiscount {subtotalMinor : ℤ} {dto : FinalizeBillDto}
    {authorize : Except ApiError ManagerApproval} {Q : Option ManagerApproval → Store → Prop}
    (hsub : 0 ≤ subtotalMinor)
    (hnone : dto.discountMinor.getD 0 ≤ subtotalMinor * 20 / 100 → Q none v)
    (hsome : ∀ approval, authorize = .ok approval →
      subtotalMinor * 20 / 100 < dto.discountMinor.getD 0 → Q (some approval) v) :
    (approveDiscount subtotalMinor dto authorize).commits Q v := by
  have hfloor : (subtotalMinor * discountThresholdPercent).tdiv 100 = subtotalMinor * 20 / 100 :=
    Int.tdiv_eq_ediv_of_nonneg (mul_nonneg hsub (by decide))
  unfold approveDiscount
  cases hd : dto.discountMinor with
  | none =>
      refine hnone ?_
      rw [hd, Option.getD_none]
      omega
  | some discount =>
      rw [hd] at hnone hsome
      rw [hfloor]
      dsimp only
      split
      · exact hnone ‹_›
      · simp only [Txn.commits, Txn.wlp_bind, Txn.wlp_pure]
        refine commits_raiseIf fun _ => commits_ofExcept fun approval happroved => ?_
        exact hsome approval happroved (not_le.mp ‹_›)

/-- What a settlement by staff records. -/
theorem finalize_gated (hpriced : v.Priced) (staff : PosPrincipal) (dto : FinalizeBillDto)
    (authorize : Except ApiError ManagerApproval) :
    (finalize staff dto authorize).commits (fun _ v' =>
      (dto.discountMinor.getD 0 ≤ v.subtotal * 20 / 100 ∧ gated v' = gated v) ∨
      (v.subtotal * 20 / 100 < dto.discountMinor.getD 0 ∧ ∃ approval, authorize = .ok approval ∧
        gated v' = gated v ++ [recorded approval .discountAboveThreshold staff.id])) v := by
  simp only [finalize, lockBill, Txn.commits, Txn.wlp_bind, Txn.wlp_exec, Txn.wlp_pure,
    applyAll_nil]
  refine commits_raiseIf fun _ _ _ => commits_loadBill_refresh fun b hb => ?_
  refine commits_raiseIf fun hstatus => ?_
  have hopen : b.status = .open := by
    rw [Bill.refreshed_status] at hstatus
    cases h : b.status <;> simp_all
  rw [Bill.refreshed_subtotalMinor hopen]
  -- From here on only the approval is a manager's.
  have hrest : Txn.commits (do
      assertShiftForCash dto.tenders
      Txn.forEach takeTender dto.tenders
      commitFinalize
        { bill := ⟨b.refreshed v.subtotal v.profile, v.tenders⟩
          discountMinor := dto.discountMinor
          discountReason := dto.discountReason
          finalizedByStaffId := some staff.id })
      (fun _ v' => gated v' = gated v) v.refreshed := by
    have hΦ := writing_closed (Plain dto.discountMinor)
    refine commits_gated (d := dto.discountMinor) ?_ v.refreshed
    refine hΦ.bind (plain_of_reads (assertShiftForCash_emits _)) fun _ => ?_
    refine hΦ.bind (hΦ.forEach fun t _ => plain_of_touching (by decide) (takeTender_emits t)) fun _ => ?_
    exact commitFinalize_plain rfl
  simp only [Txn.commits, Txn.wlp_bind] at hrest
  refine commits_approveDiscount hpriced.subtotal_nonneg (fun hle => ?_) fun approval happroved hlt => ?_
  · exact Txn.wlp_mono hrest fun _ _ h => Txn.wlp_mono h fun _ _ h =>
      Txn.wlp_mono h fun _ _ h => .inl ⟨hle, h⟩
  · refine Txn.wlp_mono hrest fun _ _ h => Txn.wlp_mono h fun _ _ h =>
      Txn.wlp_mono h fun _ v₂ h => ?_
    simp only [whenGiven, recordApproval, Txn.wlp_exec, applyAll_cons, applyAll_nil, writeTo_apply]
    intro _ _
    refine .inr ⟨hlt, approval, happroved, ?_⟩
    rw [← h]
    exact gated_append (isGated_recorded approval .discountAboveThreshold staff.id) rfl

theorem finalize_accounts (hv : Kept v) (staff : PosPrincipal) (dto : FinalizeBillDto)
    (authorize : Except ApiError ManagerApproval)
    (h : Op.Step (.finalize staff dto authorize) v v') :
    Accounts v v' [] ∨ ∃ approval, authorize = .ok approval ∧
      Accounts v v' [recorded approval .discountAboveThreshold staff.id] := by
  have hframe := h.frame
  have hnotes : v'.creditNotes = v.creditNotes := hframe .creditNotes (by simp [Op.tables, settlementTables])
  have hvoids : voidedLines v' = voidedLines v :=
    congrArg (List.countP _) (hframe .orderLines (by simp [Op.tables, settlementTables]))
  cases h with
  | throws => exact .inl (.refl v)
  | commits h =>
      obtain ⟨⟨b, b', ts, hfinal⟩, -⟩ := h.post (Q := fun v' => _) ((Txn.wlp_void ..).mpr
        (commits_finalize hv.priced staff dto authorize))
      have hgated := h.post (Q := fun v' => _) ((Txn.wlp_void ..).mpr
        (finalize_gated hv.priced staff dto authorize))
      obtain ⟨number, by_, roundOff, at_, hrow⟩ := hfinal.row
      have hsub := Bill.refreshed_subtotalMinor hfinal.wasOpen v.subtotal v.profile
      have hbefore : overDiscounts v = 0 := overDiscounts_of_unsettled fun b₀ hb₀ hfin => by
        rw [← Option.some.inj (hfinal.wasBill.symm.trans hb₀), hfinal.wasOpen] at hfin
        cases hfin
      have hafter : overDiscounts v' =
          if v.subtotal * 20 / 100 < dto.discountMinor.getD 0 then 1 else 0 := by
        rw [overDiscounts, hfinal.bill, hrow]
        simp [isOverDiscounted, Bill.finalize, hsub]
      rcases hgated with ⟨hle, hgated⟩ | ⟨hlt, approval, happroved, hgated⟩
      · refine .inl ⟨by rw [hgated, List.append_nil], by rw [hnotes]; rfl, ?_, hvoids⟩
        rw [hafter, if_neg (not_lt.mpr hle), hbefore]
        rfl
      · refine .inr ⟨approval, happroved, hgated, ?_, ?_, ?_⟩
        · rw [hnotes, countOf_recorded]
          rfl
        · rw [hafter, if_pos hlt, hbefore, countOf_recorded, if_pos rfl]
        · rw [hvoids, countOf_recorded]
          rfl

/-- The event was recorded on an approval that the request was given. -/
def ApprovedBy (op : Op) (a : AuditEvent) : Prop :=
  ∃ action approval, gate op = some (action, .ok approval) ∧ a.action = action.text ∧
    a.approverId = some approval.approverId

theorem ApprovedBy.recorded {action : ManagerGatedAction} {approval : ManagerApproval}
    (h : gate op = some (action, .ok approval)) (actorId : ℕ) :
    ∀ a ∈ [recorded approval action actorId], ApprovedBy op a := by
  intro a ha
  obtain rfl := List.mem_singleton.mp ha
  exact ⟨action, approval, h, rfl, rfl⟩

/-- **Whatever a request does that takes a PIN, it records.** -/
theorem step_accounts (hv : Kept v) (h : op.Step v v') :
    ∃ new, Accounts v v' new ∧ ∀ a ∈ new, ApprovedBy op a := by
  by_cases hop : gate op = none
  · have hnotes : v'.creditNotes = v.creditNotes := by
      refine h.frame .creditNotes ?_
      cases op with
      | refund => cases hop
      | _ => simp [Op.tables, settlementTables, guestPaymentTables]
    exact ⟨[], ⟨by rw [gated_eq hop h, List.append_nil], congrArg List.length hnotes,
      overDiscounts_eq hop hv h, voidedLines_eq hop hv.priced.ids h⟩, by simp⟩
  · cases op with
    | finalize staff dto authorize =>
        rcases finalize_accounts hv staff dto authorize h with hnone | ⟨approval, rfl, hone⟩
        · exact ⟨[], hnone, by simp⟩
        · exact ⟨_, hone, .recorded rfl staff.id⟩
    | refund staff dto authorize =>
        cases h with
        | throws => exact ⟨[], .refl v, by simp⟩
        | commits h =>
            obtain ⟨approval, rfl, hone⟩ := h.post (Q := fun v' => _) ((Txn.wlp_void ..).mpr
              (refund_accounts staff dto authorize))
            exact ⟨_, hone, .recorded rfl staff.id⟩
    | voidLine staff name lineId authorize =>
        cases h with
        | throws => exact ⟨[], .refl v, by simp⟩
        | commits h =>
            obtain ⟨approval, rfl, hone⟩ := h.post (Q := fun v' => _)
              (voidLine_accounts hv.priced.ids staff name lineId authorize)
            exact ⟨_, hone, .recorded rfl staff.id⟩
    | _ => exact absurd rfl hop

/-- No request moves an order to another outlet. -/
theorem outletId_eq (h : op.Step v v') : v'.order.outletId = v.order.outletId :=
  h.post (Q := fun v' => v'.order.outletId = v.order.outletId) rfl
    (commits_of_writing (A := fun _ => True) ((emits_any op.prog).mono fun _ _ _ _ => trivial)
      (fun w v₁ _ h => by cases w <;> exact h) rfl)

end Requests

/-! ### Tenants -/

structure Tenant (Hash : Type) where
  id : ℕ
  staffUsers : List (StaffUser Hash)
  /-- Each order with its bill and the audit events of the requests on it. -/
  orders : List Store

/-- A request on an order. What takes a PIN comes with it and not with its approval. -/
inductive Request
  | finalize (staff : PosPrincipal) (dto : FinalizeBillDto)
  | refund (staff : PosPrincipal) (dto : RefundBillDto)
  | voidLine (staff : PosPrincipal) (ownerName : String) (lineId : ℕ) (managerPin reason : String)
  | other (op : Op)

/-- The check that the request would have made, at the outlet of its order. -/
def Request.approval (tenantId outletId : ℕ) : Request → Option ApprovalRequest
  | .finalize _ dto => some ⟨.discountAboveThreshold, tenantId, outletId, dto.managerPin.getD "",
      dto.discountReason.getD ""⟩
  | .refund _ dto => some ⟨.refund, tenantId, outletId, dto.managerPin.getD "", dto.reason⟩
  | .voidLine _ _ _ managerPin reason => some ⟨.voidAfterFire, tenantId, outletId, managerPin,
      String.ofList (Text.trim reason.toList)⟩
  | .other _ => none

def Request.op (answer : Except ApiError ManagerApproval) : Request → Op
  | .finalize staff dto => .finalize staff dto answer
  | .refund staff dto => .refund staff dto answer
  | .voidLine staff ownerName lineId _ _ => .voidLine staff ownerName lineId answer
  | .other op => op

inductive Event (Hash : Type)
  /-- An order is placed. -/
  | order (v : Store)
  | request (i : ℕ) (r : Request) (limited : Option Attempts.LockedOut)
  /-- Staff come and go, and PINs are issued and revoked. -/
  | staff (staffUsers : List (StaffUser Hash))

section Tenants

variable {Hash : Type} (verify : Hash → String → Bool)

/-- What the check of a manager's PIN answers on an order. -/
def Tenant.answer (T : Tenant Hash) (v : Store) (r : Request) (limited : Option Attempts.LockedOut) :
    Except ApiError ManagerApproval :=
  match r.approval T.id v.order.outletId with
  | some request => (authorize verify limited T.staffUsers request).map (·.toManagerApproval)
  | none => .error internalError

inductive Tenant.Step (T : Tenant Hash) : Event Hash → Tenant Hash → Prop
  | order (v : Store) : T.Step (.order v) { T with orders := T.orders ++ [v] }
  | request {i : ℕ} {r : Request} {limited : Option Attempts.LockedOut} {v v' : Store}
      (hv : T.orders[i]? = some v) (h : (r.op (T.answer verify v r limited)).Step v v') :
      T.Step (.request i r limited) { T with orders := T.orders.set i v' }
  | staff (staffUsers : List (StaffUser Hash)) : T.Step (.staff staffUsers) { T with staffUsers }

/-- An order nobody has done anything about yet. -/
structure Fresh (v : Store) : Prop where
  placed : v.Placed
  live : ∀ l ∈ v.lines, l.voidedAt = none
  events : v.auditEvents = []

/-- Orders are placed fresh, and what takes a PIN is asked for with one. -/
def Possible : Event Hash → Prop
  | .order v => Fresh v
  | .request _ (.other op) _ => gate op = none
  | _ => True

abbrev TenantRun (T₀ : Tenant Hash) (es : List (Event Hash)) (T : Tenant Hash) : Prop :=
  Serial.Run (Tenant.Step verify) (fun _ e => Possible e) T₀ es T

/-- The request that recorded the event, as number `k` of its order, came with a PIN, and the check
that it made, of that PIN and for that action, found whom the event names. -/
inductive Backed (T₀ : Tenant Hash) (es : List (Event Hash)) (i outletId k : ℕ) (a : AuditEvent) :
    Prop
  | intro {es₁ : List (Event Hash)} {q : Request} {limited : Option Attempts.LockedOut}
      {T₁ T₂ : Tenant Hash} {v₁ v₂ : Store} {r : ApprovalRequest} {u : StaffUser Hash}
      (hes : es₁ ++ [.request i q limited] <+: es) (hrun : TenantRun verify T₀ es₁ T₁)
      (hstep : T₁.Step verify (.request i q limited) T₂)
      (hbefore : T₁.orders[i]? = some v₁) (hafter : T₂.orders[i]? = some v₂)
      (hnew : (gated v₁).length ≤ k) (hrecorded : (gated v₂)[k]? = some a)
      (hasked : q.approval T₀.id outletId = some r) (hstaff : u ∈ T₁.staffUsers)
      (hverified : Verified verify u r) (haction : r.actionType.text = a.action)
      (htenant : r.tenantId = T₀.id) (houtlet : r.outletId = outletId)
      (happrover : a.approverId = some u.id) : Backed T₀ es i outletId k a

variable {verify} {T₀ T T' : Tenant Hash} {es : List (Event Hash)} {e : Event Hash}

theorem Backed.mono {i outletId k : ℕ} {a : AuditEvent}
    (h : Backed verify T₀ es i outletId k a) (e : Event Hash) :
    Backed verify T₀ (es ++ [e]) i outletId k a := by
  cases h with
  | intro hes hrun hstep hbefore hafter hnew hrecorded hasked hstaff hverified haction htenant
      houtlet happrover =>
      exact .intro (hes.trans (List.prefix_append es [e])) hrun hstep hbefore hafter hnew hrecorded
        hasked hstaff hverified haction htenant houtlet happrover

/-- What holds of a tenant that began without orders. -/
structure Sound (verify : Hash → String → Bool) (T₀ : Tenant Hash) (es : List (Event Hash))
    (T : Tenant Hash) : Prop where
  id : T.id = T₀.id
  kept : ∀ v ∈ T.orders, Kept v
  accounted : ∀ v ∈ T.orders, Accounted v
  backed : ∀ i v, T.orders[i]? = some v → ∀ k a, (gated v)[k]? = some a →
    Backed verify T₀ es i v.order.outletId k a

theorem Fresh.kept {v : Store} (h : Fresh v) : Kept v :=
  ⟨h.placed.priced, h.placed.wf, fun b hb => by simp [Store.ledger, h.placed.bill] at hb⟩

theorem Fresh.accounted {v : Store} (h : Fresh v) : Accounted v := by
  have hvoids : voidedLines v = 0 :=
    List.countP_eq_zero.mpr fun l hl => by simp [isVoidedWhole, h.live l hl]
  refine ⟨?_, ?_, ?_⟩
  · rw [h.events, h.placed.creditNotes]
    rfl
  · rw [h.events, overDiscounts, h.placed.bill]
    rfl
  · rw [h.events, hvoids]
    rfl

/-- What a request records on an approval names whom its own check found. -/
theorem checked_of_approved {v : Store} {q : Request} {limited : Option Attempts.LockedOut}
    {a : AuditEvent} (hq : Possible (.request 0 q limited : Event Hash))
    (ha : ApprovedBy (q.op (T.answer verify v q limited)) a) :
    ∃ r, q.approval T.id v.order.outletId = some r ∧ ∃ u ∈ T.staffUsers, Verified verify u r ∧
      r.actionType.text = a.action ∧ r.tenantId = T.id ∧ r.outletId = v.order.outletId ∧
      a.approverId = some u.id := by
  have hchecked : ∀ {r : ApprovalRequest} {approval : ManagerApproval},
      q.approval T.id v.order.outletId = some r → r.tenantId = T.id →
      r.outletId = v.order.outletId → T.answer verify v q limited = .ok approval →
      r.actionType.text = a.action → a.approverId = some approval.approverId →
      ∃ r, q.approval T.id v.order.outletId = some r ∧ ∃ u ∈ T.staffUsers, Verified verify u r ∧
        r.actionType.text = a.action ∧ r.tenantId = T.id ∧ r.outletId = v.order.outletId ∧
        a.approverId = some u.id := by
    intro r approval hasked htenant houtlet hanswer haction happrover
    rw [Tenant.answer, hasked] at hanswer
    obtain ⟨full, hfull, rfl⟩ := Serial.map_ok hanswer
    obtain ⟨u, hu, hverified, hname⟩ := authorize_ok hfull
    exact ⟨r, hasked, u, hu, hverified, haction, htenant, houtlet,
      happrover.trans (congrArg some hname)⟩
  obtain ⟨action, approval, hgate, haction, happrover⟩ := ha
  cases q with
  | finalize staff dto =>
      obtain ⟨rfl, hanswer⟩ := Prod.mk.inj (Option.some.inj hgate)
      exact hchecked rfl rfl rfl hanswer haction.symm happrover
  | refund staff dto =>
      obtain ⟨rfl, hanswer⟩ := Prod.mk.inj (Option.some.inj hgate)
      exact hchecked rfl rfl rfl hanswer haction.symm happrover
  | voidLine staff name lineId pin reason =>
      obtain ⟨rfl, hanswer⟩ := Prod.mk.inj (Option.some.inj hgate)
      exact hchecked rfl rfl rfl hanswer haction.symm happrover
  | other op => exact absurd hgate (by rw [Request.op, show gate op = none from hq]; simp)

/-- A request keeps what backs the events of its order, and its own are backed by its check. -/
theorem Sound.backed_request (h : Sound verify T₀ es T) (hrun : TenantRun verify T₀ es T) {i : ℕ}
    {q : Request} {limited : Option Attempts.LockedOut} {v v' : Store} {new : List AuditEvent}
    (hq : Possible (.request i q limited : Event Hash)) (hv : T.orders[i]? = some v)
    (hop : (q.op (T.answer verify v q limited)).Step v v') (hgated : gated v' = gated v ++ new)
    (hnew : ∀ a ∈ new, ApprovedBy (q.op (T.answer verify v q limited)) a) {k : ℕ}
    {a : AuditEvent} (ha : (gated v')[k]? = some a) :
    Backed verify T₀ (es ++ [.request i q limited]) i v'.order.outletId k a := by
  have hstep : T.Step verify (.request i q limited) { T with orders := T.orders.set i v' } :=
    .request hv hop
  rw [outletId_eq hop]
  by_cases hk : k < (gated v).length
  · rw [hgated, List.getElem?_append_left hk] at ha
    exact (h.backed i v hv k a ha).mono _
  · have hmem : a ∈ new := by
      rw [hgated, List.getElem?_append_right (not_lt.mp hk)] at ha
      exact List.mem_of_getElem? ha
    obtain ⟨r, hasked, u, hu, hverified, haction, htenant, houtlet, happrover⟩ :=
      checked_of_approved (by cases q <;> exact hq) (hnew a hmem)
    have hafter : (T.orders.set i v')[i]? = some v' := by
      rw [List.getElem?_set_self (List.getElem?_eq_some_iff.mp hv).1]
    exact .intro List.prefix_rfl hrun hstep hv hafter (not_lt.mp hk) ha (h.id ▸ hasked) hu
      hverified haction (htenant.trans h.id) houtlet happrover

theorem Sound.step (h : Sound verify T₀ es T) (hrun : TenantRun verify T₀ es T)
    (he : Possible e) (hstep : T.Step verify e T') : Sound verify T₀ (es ++ [e]) T' := by
  cases hstep with
  | order v =>
      have hfresh : Fresh v := he
      refine ⟨h.id, fun v' hv' => ?_, fun v' hv' => ?_, fun i v' hv' k a ha => ?_⟩
      · rcases List.mem_append.mp hv' with hv' | hv'
        · exact h.kept v' hv'
        · obtain rfl := List.mem_singleton.mp hv'
          exact hfresh.kept
      · rcases List.mem_append.mp hv' with hv' | hv'
        · exact h.accounted v' hv'
        · obtain rfl := List.mem_singleton.mp hv'
          exact hfresh.accounted
      · by_cases hi : i < T.orders.length
        · rw [List.getElem?_append_left hi] at hv'
          exact (h.backed i v' hv' k a ha).mono _
        · rw [List.getElem?_append_right (not_lt.mp hi)] at hv'
          obtain rfl := List.mem_singleton.mp (List.mem_of_getElem? hv')
          simp [gated, hfresh.events] at ha
  | @request i q limited v v' hv hop =>
      have hmem := List.mem_of_getElem? hv
      have hkept := h.kept v hmem
      obtain ⟨new, haccounts, hnew⟩ := step_accounts hkept hop
      refine ⟨h.id, fun w hw => ?_, fun w hw => ?_, fun j w hw k a ha => ?_⟩
      · rcases List.mem_or_eq_of_mem_set hw with hw | rfl
        · exact h.kept w hw
        · exact hkept.step hop
      · rcases List.mem_or_eq_of_mem_set hw with hw | rfl
        · exact h.accounted w hw
        · exact (h.accounted v hmem).step haccounts
      · by_cases hj : i = j
        · subst hj
          rw [List.getElem?_set_self (List.getElem?_eq_some_iff.mp hv).1] at hw
          obtain rfl := Option.some.inj hw
          exact h.backed_request hrun he hv hop haccounts.gated hnew ha
        · rw [List.getElem?_set_ne hj] at hw
          exact (h.backed j w hw k a ha).mono _
  | staff staffUsers =>
      exact ⟨h.id, h.kept, h.accounted, fun i v hv k a ha => (h.backed i v hv k a ha).mono _⟩

theorem TenantRun.sound (hnew : T₀.orders = []) (h : TenantRun verify T₀ es T) :
    Sound verify T₀ es T := by
  induction h with
  | nil => exact ⟨rfl, by simp [hnew], by simp [hnew], by simp [hnew]⟩
  | snoc e hrun he hstep ih => exact ih.step hrun he hstep

/-- A number summed over the tenant's orders. -/
def Tenant.total (T : Tenant Hash) (f : Store → ℕ) : ℕ := (T.orders.map f).sum

/-- **What takes a manager's PIN carries its approval.** There are as many events of refunds as
credit notes, of discounts as bills settled with one above the threshold, and of voids as voided
lines and combos; and each names someone whose PIN was verified for it, by the very request that
recorded it and came with that PIN. -/
theorem approvals_accompany (hnew : T₀.orders = []) (h : TenantRun verify T₀ es T) :
    T.total (fun v => countOf .refund v.auditEvents) = T.total (·.creditNotes.length) ∧
    T.total (fun v => countOf .discountAboveThreshold v.auditEvents) = T.total overDiscounts ∧
    T.total (fun v => countOf .voidAfterFire v.auditEvents) = T.total voidedLines ∧
    ∀ i v, T.orders[i]? = some v → ∀ k a, (gated v)[k]? = some a →
      Backed verify T₀ es i v.order.outletId k a := by
  have hsound := TenantRun.sound hnew h
  refine ⟨?_, ?_, ?_, hsound.backed⟩
  · exact congrArg List.sum (List.map_congr_left fun v hv => (hsound.accounted v hv).notes)
  · exact congrArg List.sum (List.map_congr_left fun v hv => (hsound.accounted v hv).discounts)
  · exact congrArg List.sum (List.map_congr_left fun v hv => (hsound.accounted v hv).voids)

/-! A bill settled with a discount of more than a fifth, on the PIN of a manager. -/

def manager : StaffUser String where
  id := 7
  tenantId := 1
  name := "Meera"
  role := ⟨2, "Manager", true⟩
  pinHash := some "4321"
  pinRevokedAt := none
  outletIds := []

/-- Hashes that are the PINs themselves. -/
def samePin (hash pin : String) : Bool := hash = pin

def sampleTenant : Tenant String := ⟨1, [manager], []⟩

def discountDto : FinalizeBillDto where
  discountMinor := some 5046
  discountReason := some "spilt on the guest"
  managerPin := some "4321"
  tenders := [cashTender 19000 (by decide)]
  one_le_discountMinor := by simp

def openBill : Request := .other (.createBill sampleStaff "")

def settleDiscounted : Request := .finalize sampleStaff discountDto

/-- The order after a request that commits. -/
def afterRequest (v : Store) (r : Request) : Store :=
  v.after [(r.op (sampleTenant.answer samePin v r none), ticking 100)]

theorem afterRequest_step {v : Store} {r : Request}
    (h : (v.handle [(r.op (sampleTenant.answer samePin v r none), ticking 100)]).isOk = true) :
    (r.op (sampleTenant.answer samePin v r none)).Step v (afterRequest v r) := by
  unfold afterRequest Store.after
  unfold Store.handle at h ⊢
  cases hrun : (r.op (sampleTenant.answer samePin v r none)).prog.run (ticking 100) 0 v with
  | error e => simp [hrun, Except.isOk, Except.toBool] at h
  | ok result => exact .commits ⟨ticking 100, hrun⟩

theorem approvals_accompany_sample :
    ∃ es T, TenantRun samePin sampleTenant es T ∧
      T.total overDiscounts = 1 ∧
      T.total (fun v => countOf .discountAboveThreshold v.auditEvents) = 1 ∧
      ∀ i v, T.orders[i]? = some v → ∀ k a, (gated v)[k]? = some a →
        Backed samePin sampleTenant es i v.order.outletId k a := by
  have hfresh : Fresh sampleOrder := ⟨sampleOrder_placed, by decide, rfl⟩
  let billed := afterRequest sampleOrder openBill
  have hopened : TenantRun samePin sampleTenant [.order sampleOrder]
      { sampleTenant with orders := [sampleOrder] } := .snoc _ .nil hfresh (.order sampleOrder)
  have hbilled : TenantRun samePin sampleTenant
      [.order sampleOrder, .request 0 openBill none] { sampleTenant with orders := [billed] } :=
    .snoc _ hopened rfl (.request (v := sampleOrder) rfl
      (afterRequest_step (v := sampleOrder) (r := openBill) (by decide +kernel)))
  have hsettled : TenantRun samePin sampleTenant
      [.order sampleOrder, .request 0 openBill none, .request 0 settleDiscounted none]
      { sampleTenant with orders := [afterRequest billed settleDiscounted] } :=
    .snoc _ hbilled trivial
      (.request (v := billed) rfl
        (afterRequest_step (v := billed) (r := settleDiscounted) (by decide +kernel)))
  have h := approvals_accompany rfl hsettled
  exact ⟨_, _, hsettled, by decide +kernel, by decide +kernel, h.2.2.2⟩

end Tenants

end RestiqBackend.Approvals
