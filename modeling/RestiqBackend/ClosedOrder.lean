import RestiqBackend.Orders

/-!
What closes an order, and what opens one again.

Settling closes the order with its bill, in one commit. Sending, opening a bill and
discarding look at the order or at the bill when they begin and write later, by
identifier. So a closed order is closed for good, with no open bill, exactly as long as
what they looked at is still true when they commit.
-/

namespace RestiqBackend

open ReadCommitted

/-! ### What a transaction makes of the order and its bill -/

/-- The status that a write gives the order. -/
def Write.orderStatus : Write → Option OrderStatus
  | .updateOrderStatus status => some status
  | _ => none

def Write.settles : Write → Bool
  | .finalizeBill .. => true
  | _ => false

def Write.opensBill : Write → Bool
  | .createBill bill => bill.status = .open
  | _ => false

def Write.deletesBill : Write → Bool
  | .deleteBill => true
  | _ => false

theorem Write.orderStatus_eq {w : Write} {status : OrderStatus} (h : w.orderStatus = some status) :
    w = .updateOrderStatus status := by
  cases w <;> simp [Write.orderStatus] at h
  rw [h]

theorem Write.setMark_settles {w : Write} (h : w.settles = true)
    (mark : Option (BillStatus × Option ℕ)) : (w.setMark mark).any (·.1 = .open) = false := by
  cases w <;> simp [Write.settles] at h
  cases mark <;> simp [Write.setMark]

theorem Write.setMark_opensBill {w : Write} (h : w.opensBill = true)
    (mark : Option (BillStatus × Option ℕ)) :
    (w.setMark mark).any (·.1 = .finalized) = false ∧ ∃ bill, w = .createBill bill := by
  cases w <;> simp [Write.opensBill] at h
  exact ⟨by simp [Write.setMark, h], _, rfl⟩

theorem Write.setMark_deletesBill {w : Write} (h : w.deletesBill = true)
    (mark : Option (BillStatus × Option ℕ)) : w.setMark mark = none := by
  cases w <;> simp [Write.deletesBill] at h
  rfl

/-- Every write of the footprint satisfies `A`. -/
def Writing (A : Write → Prop) (l : TxFootprint) : Prop := ∀ w ∈ l.writes, A w

/-- The writes of a transaction that does at most one kind of thing to the bill and gives
the order at most one status. -/
def Confined (bill : Write → Bool) (status : Option OrderStatus) (w : Write) : Prop :=
  (w.marks = true → bill w = true) ∧ (w.orderStatus = none ∨ w.orderStatus = status)

/-- A settlement that wrote the bill closed the order too. -/
def ClosesToo (l : TxFootprint) : Prop :=
  (∃ w ∈ l.writes, w.settles = true) → ∃ w ∈ l.writes, w.orderStatus = some .closed

/-- What a transaction has done to the order and its bill when it commits. -/
inductive OrderOutcome (l : TxFootprint) : Prop
  | sends (h : Writing (Confined (fun _ => false) (some .sent)) l)
  | opens (h : Writing (Confined Write.opensBill none) l)
  | settles (h : Writing (Confined Write.settles (some .closed)) l) (hcloses : ClosesToo l)
  | discards (h : Writing (Confined Write.deletesBill (some .closed)) l)

theorem writing_closed (A : Write → Prop) :
    Txn.Closed fun {α} (p : Tx α) => p.Emits (Writing A) := Txn.Emits.closed _

theorem writing_of_touching {A : Write → Prop} {ts : List Table} (hA : ∀ w, w.table ∈ ts → A w)
    {α : Type} {p : Tx α} (h : p.Emits (Touching ts)) : p.Emits (Writing A) :=
  h.mono fun _ hl w hw => hA w (hl w hw)

theorem writing_writeWhen {A : Write → Prop} {allowed : Store → Bool} {keys : List Key}
    {writes : List Write} (h : ∀ w ∈ writes, A w) :
    (Txn.writeWhen allowed keys writes : Tx Bool).Emits (Writing A) := by
  refine ⟨fun _ v => ?_, fun _ => trivial⟩
  cases hv : allowed v with
  | true => simpa [hv, Writing] using h
  | false => simp [hv, Writing]

theorem writing_changeRow {A : Write → Prop} {allowed : Store → Bool} {keys : List Key}
    {writes : List Write} (h : ∀ w ∈ writes, A w) :
    (changeRow allowed keys writes).Emits (Writing A) :=
  (writing_writeWhen h).bind fun _ => .ite trivial trivial

theorem writing_insertRow {A : Write → Prop} {taken : Store → Bool} {keys : List Key} {w : Write}
    (h : A w) : (insertRow taken keys w).Emits (Writing A) :=
  (writing_closed A).bind (writing_writeWhen (List.forall_mem_singleton.mpr h)) fun _ =>
    .ite trivial trivial

theorem writing_exec {A : Write → Prop} {locks : Store → List Key} {writes : Store → List Write}
    (h : ∀ v, ∀ w ∈ writes v, A w) : (Txn.exec locks writes : Tx Unit).Emits (Writing A) :=
  ⟨fun _ v => h v, fun _ => trivial⟩

/-- All the footprint of a program whose statements write in `A`. -/
theorem leaves_writing {A : Write → Prop} {α : Type} {p : Tx α} (hp : p.Emits (Writing A)) :
    p.Leaves (fun _ l => Writing A l) .empty := by
  refine hp.leaves (fun l l' hl' hl w hw => ?_) (by simp [Writing])
  rcases List.mem_append.mp hw with hw | hw
  · exact hl w hw
  · exact hl' w hw

theorem confined_of_table {bill : Write → Bool} {status : Option OrderStatus} {w : Write}
    (h : w.table ∈ tablesBesideOrders) : Confined bill status w := by
  cases w
  case updateOrderStatus => exact absurd h (by simp [Write.table, tablesBesideOrders])
  case createBill => exact absurd h (by simp [Write.table, tablesBesideOrders])
  case deleteBill => exact absurd h (by simp [Write.table, tablesBesideOrders])
  case finalizeBill => exact absurd h (by simp [Write.table, tablesBesideOrders])
  all_goals exact ⟨fun h => by simp [Write.marks] at h, .inl rfl⟩

/-- A request keeps to what its role allows. -/
theorem Op.confined (op : Op) {bill : Write → Bool} {status : Option OrderStatus}
    (hopens : op.role = .opens → ∀ w, w.opensBill = true → bill w = true)
    (hsettles : op.role = .settles → status = some .closed ∧ ∀ w, w.settles = true → bill w = true)
    (hsends : op.role = .sends → status = some .sent) :
    op.prog.Emits (Writing (Confined bill status)) := by
  have hΦ := writing_closed (Confined bill status)
  have hquiet : ∀ {α : Type} {p : Tx α}, p.Emits (Touching tablesBesideOrders) →
      p.Emits (Writing (Confined bill status)) := writing_of_touching fun _ => confined_of_table
  have hreads : ∀ {α : Type} {p : Tx α}, p.Emits (Touching []) →
      p.Emits (Writing (Confined bill status)) := fun hp => hquiet (emits_reads hp)
  have hstatus : ∀ st, status = some st → (Txn.exec (fun _ => [.order]) fun _ =>
      [.updateOrderStatus st] : Tx Unit).Emits (Writing (Confined bill status)) := by
    rintro st rfl
    refine ⟨fun _ _ w hw => ?_, fun _ => trivial⟩
    obtain rfl := List.mem_singleton.mp hw
    exact ⟨fun h => by simp [Write.marks] at h, .inr rfl⟩
  have hfire : ∀ outletId, (fireOnSend outletId).Emits (Writing (Confined bill status)) :=
    fun outletId => hquiet (emits_within (fireOnSend_emits outletId) (by decide))
  refine Op.order_parts hΦ op { refresh := fun b => ?_, insert := fun hrole b hopen _ => ?_
                                write := fun hrole => ?_, send := fun hrole => ?_, quiet := hquiet }
  · refine hΦ.ite trivial (hΦ.bind (hreads computeBillTotals_emits) fun totals =>
      hΦ.ite trivial (hΦ.bind ⟨fun _ _ w hw => ?_, fun _ => trivial⟩ fun updated => ?_))
    · obtain rfl := List.mem_singleton.mp hw
      exact ⟨fun h => by simp [Write.marks] at h, .inl rfl⟩
    · cases updated <;> trivial
  · refine writing_writeWhen fun w hw => ?_
    obtain rfl := List.mem_singleton.mp hw
    exact ⟨fun _ => hopens hrole _ (by simpa [Write.opensBill] using hopen), .inl rfl⟩
  · obtain ⟨hclosed, hbill⟩ := hsettles hrole
    refine writeSettlement_parts hΦ { counter := ?_, bill := fun _ _ _ _ _ _ _ => ?_, fire := hfire
                                      close := hstatus _ hclosed
                                      quiet := fun hp => hquiet (emits_within hp (by decide)) }
    · refine ⟨fun _ _ w hw => ?_, fun _ => trivial⟩
      obtain rfl := List.mem_singleton.mp hw
      exact ⟨fun h => by simp [Write.marks] at h, .inl rfl⟩
    · refine writing_writeWhen fun w hw => ?_
      obtain rfl := List.mem_singleton.mp hw
      exact ⟨fun _ => hbill _ rfl, .inl rfl⟩
  · exact updateStatus_parts hΦ hreads (hstatus _ (hsends hrole)) hfire

/-- A settlement that gets to its end has closed the order. -/
theorem writeSettlement_closesToo (params : CommitFinalizeParams) (roundOff : Option ℤ)
    (tax : Option TaxResult) (l : TxFootprint) :
    (writeSettlement params roundOff tax).Leaves (fun _ l => ClosesToo l) l := by
  have hany : ∀ {α : Type} (p : Tx α) (l : TxFootprint), p.Leaves (fun _ _ => True) l :=
    fun p l => .of_forall (fun _ _ => trivial) p l
  -- From the status on, the order stays closed whatever follows.
  have hkeep : ∀ {α : Type} {p : Tx α} {ts : List Table}, p.Emits (Touching ts) →
      ∀ l : TxFootprint, (∃ w ∈ l.writes, w.orderStatus = some .closed) →
      p.Leaves (fun _ l => ∃ w ∈ l.writes, w.orderStatus = some .closed) l := fun hp l h =>
    hp.leaves (fun _ _ _ ⟨w, hw, hst⟩ => ⟨w, List.mem_append_left _ hw, hst⟩) h
  refine .seq (hany _ l) fun _ l _ => .seq (hany _ l) fun _ l _ => .seq (hany _ l) fun _ l _ => ?_
  refine .seq (hany _ l) fun _ l _ => .seq (hany _ l) fun _ l _ => ?_
  have hclose : (Txn.exec (fun _ => [.order]) fun _ => [.updateOrderStatus .closed] : Tx Unit).Leaves
      (fun _ l => ∃ w ∈ l.writes, w.orderStatus = some .closed) l :=
    fun _ _ => ⟨_, List.mem_append_right _ (List.mem_singleton_self _), rfl⟩
  refine hclose.seq fun _ l h => (hkeep goLiveOnFirstSale_emits l h).seq fun _ l h => ?_
  exact (hkeep loadBill_emits l h).mono fun _ l h _ => h

/-- So has every request that settles. -/
theorem Op.closesToo (op : Op) : op.prog.Leaves (fun _ l => ClosesToo l) .empty := by
  have hΦ : Txn.Closed fun {α} (p : Tx α) =>
      ∀ l, ClosesToo l → p.Leaves (fun _ l => ClosesToo l) l :=
    { done := fun _ _ h => h, fail := fun _ _ _ => trivial
      bind := fun hp hg l h => (hp l h).seq fun a l h => hg a l h }
  have hcalm : ∀ {α : Type} {p : Tx α}, p.Emits (Writing fun w => w.settles = false) →
      ∀ l, ClosesToo l → p.Leaves (fun _ l => ClosesToo l) l := by
    intro α p hp l h
    refine hp.leaves (fun l l' hl' h hsettle => ?_) h
    obtain ⟨w, hw, hw'⟩ := hsettle
    rcases List.mem_append.mp hw with hw | hw
    · obtain ⟨w, hw, hst⟩ := h ⟨w, hw, hw'⟩
      exact ⟨w, List.mem_append_left _ hw, hst⟩
    · rw [hl' w hw] at hw'
      exact absurd hw' (by simp)
  have hquiet : ∀ {α : Type} {p : Tx α}, p.Emits (Touching tablesBesideBills) →
      ∀ l, ClosesToo l → p.Leaves (fun _ l => ClosesToo l) l := fun hp => by
    refine hcalm (writing_of_touching (fun w hw => ?_) hp)
    cases w
    case finalizeBill => exact absurd hw (by simp [Write.table, tablesBesideBills, tablesBesideOrders])
    all_goals rfl
  have hreads : ∀ {α : Type} {p : Tx α}, p.Emits (Touching []) →
      ∀ l, ClosesToo l → p.Leaves (fun _ l => ClosesToo l) l := fun hp => hquiet (emits_reads hp)
  refine Op.bill_parts hΦ { refresh := fun bill => ?_, insert := fun bill _ _ => ?_, quiet := hquiet
                            write := fun _ _ _ l _ => writeSettlement_closesToo _ _ _ l } op
    .empty (by simp [ClosesToo])
  · refine hΦ.ite (hΦ.done _) (hΦ.bind (hreads computeBillTotals_emits) fun totals =>
      hΦ.ite (hΦ.done _) (hΦ.bind (hcalm ⟨fun _ _ w hw => ?_, fun _ => trivial⟩) fun updated => ?_))
    · obtain rfl := List.mem_singleton.mp hw
      rfl
    · cases updated with
      | none => exact hΦ.fail _
      | some bill => exact hΦ.done _
  · refine hcalm (writing_writeWhen fun w hw => ?_)
    obtain rfl := List.mem_singleton.mp hw
    rfl

theorem Op.outcome (op : Op) : op.prog.Leaves (fun _ l => OrderOutcome l) .empty := by
  have hwriting : ∀ {bill status}, (op.role = .opens → ∀ w, w.opensBill = true → bill w = true) →
      (op.role = .settles → status = some .closed ∧ ∀ w, w.settles = true → bill w = true) →
      (op.role = .sends → status = some .sent) →
      op.prog.Leaves (fun _ l => Writing (Confined bill status) l) .empty :=
    fun h₁ h₂ h₃ => leaves_writing (op.confined h₁ h₂ h₃)
  cases hrole : op.role with
  | opens =>
      exact (hwriting (fun _ _ h => h) (by simp [hrole]) (by simp [hrole])).mono fun _ _ => .opens
  | sends =>
      exact (hwriting (by simp [hrole]) (by simp [hrole]) fun _ => rfl).mono fun _ _ => .sends
  | settles =>
      have hconfined := hwriting (by simp [hrole]) (fun _ => ⟨rfl, fun _ h => h⟩) (by simp [hrole])
      exact (hconfined.and op.closesToo).mono fun _ _ h => .settles h.1 h.2
  | other =>
      exact (hwriting (by simp [hrole]) (by simp [hrole]) (by simp [hrole])).mono fun _ _ => .sends

/-- Discarding deletes the bill, closes the order or deletes it, and does nothing else. -/
theorem discard_confined (staff : PosPrincipal) (name what : String) :
    (discard staff name what).Emits (Writing (Confined Write.deletesBill (some .closed))) := by
  have hΦ := writing_closed (Confined Write.deletesBill (some .closed))
  have hquiet : ∀ {α : Type} {p : Tx α}, p.Emits (Touching tablesBesideOrders) →
      p.Emits (Writing (Confined Write.deletesBill (some .closed))) :=
    writing_of_touching fun _ => confined_of_table
  have hreads : ∀ {α : Type} {p : Tx α}, p.Emits (Touching []) →
      p.Emits (Writing (Confined Write.deletesBill (some .closed))) := fun hp => hquiet (emits_reads hp)
  refine hΦ.bind (hΦ.bind (hreads (emits_query _)) fun _ => hΦ.bind (hreads (emits_raiseIf ..))
    fun _ => hΦ.done _) fun order => ?_
  refine hΦ.bind (hreads (emits_raiseIf ..)) fun _ => hΦ.bind (hreads (emits_raiseIf ..)) fun _ => ?_
  refine hΦ.bind (hreads (emits_query _)) fun lines => hΦ.bind (hreads (emits_raiseIf ..)) fun _ => ?_
  refine hΦ.bind (hreads (emits_query _)) fun bill => hΦ.bind (hreads (emits_raiseIf ..)) fun _ => ?_
  refine hΦ.bind ?_ fun _ => hΦ.bind (hΦ.ite ?_ ?_) fun _ => hquiet (emits_exec ?_)
  · cases bill with
    | none => exact hΦ.done _
    | some b => exact writing_changeRow (by simp [Confined, Write.marks, Write.deletesBill,
        Write.orderStatus])
  · exact writing_changeRow (by simp [Confined, Write.marks, Write.orderStatus])
  · exact writing_changeRow (by simp [Confined, Write.marks, Write.orderStatus])
  · simp [Write.table, tablesBesideOrders]

theorem transfer_confined (staff : PosPrincipal) (newOwner : ℕ) (found : Bool) (reason : String) :
    (transfer staff newOwner found reason).Emits (Writing (Confined (fun _ => false) (some .sent))) := by
  have hΦ := writing_closed (Confined (fun _ => false) (some .sent))
  have hquiet : ∀ {α : Type} {p : Tx α}, p.Emits (Touching tablesBesideOrders) →
      p.Emits (Writing (Confined (fun _ => false) (some .sent))) :=
    writing_of_touching fun _ => confined_of_table
  refine hΦ.bind (hΦ.bind (hquiet (emits_query _)) fun _ => hΦ.bind (hquiet (emits_raiseIf ..))
    fun _ => hΦ.done _) fun order => ?_
  refine hΦ.bind (hquiet (emits_raiseIf ..)) fun _ => hΦ.bind (hquiet (emits_raiseIf ..)) fun _ => ?_
  refine hΦ.bind (writing_changeRow (by simp [Confined, Write.marks, Write.orderStatus])) fun _ => ?_
  exact hquiet (emits_exec (by simp [Write.table, tablesBesideOrders]))

theorem OrderOp.outcome (op : OrderOp) : op.prog.Leaves (fun _ l => OrderOutcome l) .empty := by
  cases op with
  | request op => exact op.outcome
  | discard staff name what =>
      exact (leaves_writing (discard_confined staff name what)).mono fun _ _ => .discards
  | transfer staff newOwner found reason =>
      exact (leaves_writing (transfer_confined staff newOwner found reason)).mono fun _ _ => .sends

/-! ### What a commit makes of the order and its bill -/

theorem orderStatus_applyAll (ws : List Write) (s : Store) :
    (applyAll ws s).order.status =
      (ws.filterMap Write.orderStatus).foldl (fun _ status => status) s.order.status := by
  induction ws generalizing s with
  | nil => rfl
  | cons w ws ih =>
      rw [applyAll_cons, ih]
      cases w <;> rfl

/-- Of statuses that are all the same, the last is that one. -/
theorem foldl_status {statuses : List OrderStatus} {status : OrderStatus}
    (h : ∀ st ∈ statuses, st = status) (st : OrderStatus) :
    statuses.foldl (fun _ st => st) st = if statuses = [] then st else status := by
  induction statuses generalizing st with
  | nil => rfl
  | cons x xs ih =>
      rw [List.foldl_cons, ih fun st hst => h st (List.mem_cons_of_mem _ hst)]
      rw [h x List.mem_cons_self, ite_self]
      rfl

/-- The order's status after a commit that gives it at most one. -/
theorem Confined.status {bill : Write → Bool} {status : OrderStatus} {l : TxFootprint}
    (h : Writing (Confined bill (some status)) l) (s : Store) :
    (applyAll l.writes s).order.status =
      if l.writes.any (·.orderStatus.isSome) then status else s.order.status := by
  have hall : ∀ st ∈ l.writes.filterMap Write.orderStatus, st = status := by
    intro st hst
    obtain ⟨w, hw, hst⟩ := List.mem_filterMap.mp hst
    rcases (h w hw).2 with hnone | hsome
    · rw [hnone] at hst
      cases hst
    · rw [hsome] at hst
      exact (Option.some.inj hst).symm
  rw [orderStatus_applyAll, foldl_status hall]
  by_cases hany : l.writes.filterMap Write.orderStatus = []
  · have : l.writes.any (·.orderStatus.isSome) = false := by
      rw [List.any_eq_false]
      intro w hw
      simp [List.filterMap_eq_nil_iff.mp hany w hw]
    rw [if_pos hany, this]
    rfl
  · obtain ⟨st, hst⟩ := List.exists_mem_of_ne_nil _ hany
    obtain ⟨w, hw, hst⟩ := List.mem_filterMap.mp hst
    have : l.writes.any (·.orderStatus.isSome) = true :=
      List.any_eq_true.mpr ⟨w, hw, by simp [hst]⟩
    rw [if_neg hany, this]
    rfl

theorem billIs_mark (s : Store) (status : BillStatus) :
    s.billIs status = s.mark.any (·.1 = status) := by
  unfold Store.billIs Store.mark
  cases s.bill <;> simp

/-- What the writes to the bill's mark leave it in, when each of them leaves it in `P`. -/
theorem mark_of_writes {P : Option (BillStatus × Option ℕ) → Prop} {l : TxFootprint} {s : Store}
    (h : ∀ w ∈ l.writes, w.marks = true → ∀ mark, P (w.setMark mark))
    (hany : l.writes.any Write.marks = true) : P (applyAll l.writes s).mark := by
  rw [mark_applyAll]
  obtain ⟨w, hw, hmarks⟩ := List.any_eq_true.mp hany
  have hmem : ∀ w ∈ l.writes.filter Write.marks, ∀ mark, P (w.setMark mark) := fun w hw mark =>
    h w (List.mem_filter.mp hw).1 (List.mem_filter.mp hw).2 mark
  have hne : l.writes.filter Write.marks ≠ [] :=
    List.ne_nil_of_mem (List.mem_filter.mpr ⟨hw, hmarks⟩)
  obtain ⟨ws, w, hws⟩ := (List.eq_nil_or_concat' _).resolve_left hne
  rw [hws] at hmem ⊢
  rw [List.foldl_append, List.foldl_cons, List.foldl_nil]
  exact hmem w (by simp) _

/-! ### The discipline -/

/-- A write that only makes sense while the order is not closed. -/
def Write.needsOpenOrder : Write → Bool
  | .createBill _ | .updateOrderStatus .sent => true
  | _ => false

def Write.closesOrder : Write → Bool
  | .updateOrderStatus .closed => true
  | _ => false

/-- What a transaction looked at is still so: the order that it sends, or opens a bill for, is
not closed, and the order it closes without touching a bill has no open one. -/
def inTime (l : TxFootprint) (s : Store) : Bool :=
  (!l.writes.any Write.needsOpenOrder || s.order.status ≠ .closed) &&
    (!l.writes.any Write.closesOrder || l.writes.any Write.marks || !s.billIs .open)

/-- Closed means settled: a settled bill's order is closed, and no closed order has an open
bill. -/
structure ClosedSettled (s : Store) : Prop where
  closed : s.billIs .finalized = true → s.order.status = .closed
  settled : s.order.status = .closed → s.billIs .open = false

/-- A closed order stays closed, where commits are in time. -/
def closingDiscipline : Discipline Store Key Read Write where
  inv := ClosedSettled
  guar s s' := s.order.status = .closed → s'.order.status = .closed
  keeps _ _ _ := True
  heeds _ _ _ := True
  admits _ _ _ := True
  lands l s := inTime l s = true
  ends _ _ := True
  guar_refl _ := id
  guar_trans _ _ _ h h' hs := h' (h hs)
  keeps_refl _ _ := trivial
  keeps_trans _ _ _ _ _ _ := trivial
  heeds_refl _ _ := trivial
  heeds_trans _ _ _ _ _ _ := trivial

theorem billIs_of_unmarked {l : TxFootprint} (h : l.writes.any Write.marks = false) (s : Store)
    (status : BillStatus) : (applyAll l.writes s).billIs status = s.billIs status := by
  rw [billIs_mark, billIs_mark, mark_applyAll_of_unmarked]
  exact List.filter_eq_nil_iff.mpr fun w hw => by simp [List.any_eq_false.mp h w hw]

theorem status_of_silent {l : TxFootprint} (h : ∀ w ∈ l.writes, w.orderStatus = none)
    (s : Store) : (applyAll l.writes s).order.status = s.order.status := by
  rw [orderStatus_applyAll, List.filterMap_eq_nil_iff.mpr h, List.foldl_nil]

theorem marks_of_confined {bill : Write → Bool} {status : Option OrderStatus} {l : TxFootprint}
    (h : Writing (Confined bill status) l) {P : Option (BillStatus × Option ℕ) → Prop} {s : Store}
    (hP : ∀ w, bill w = true → ∀ mark, P (w.setMark mark))
    (hany : l.writes.any Write.marks = true) : P (applyAll l.writes s).mark :=
  mark_of_writes (fun w hw hmarks => hP w ((h w hw).1 hmarks)) hany

/-- What a commit in time is held to. -/
theorem inTime_needs {l : TxFootprint} {s : Store} (h : inTime l s = true) {w : Write}
    (hw : w ∈ l.writes) (hneeds : w.needsOpenOrder = true) : s.order.status ≠ .closed := by
  simp only [inTime, Bool.and_eq_true, Bool.or_eq_true, Bool.not_eq_true', decide_eq_true_eq] at h
  exact h.1.resolve_left (by simpa using ⟨w, hw, hneeds⟩)

theorem inTime_closes {l : TxFootprint} {s : Store} (h : inTime l s = true) {w : Write}
    (hw : w ∈ l.writes) (hcloses : w.closesOrder = true) (hmarks : l.writes.any Write.marks = false) :
    s.billIs .open = false := by
  simp only [inTime, Bool.and_eq_true, Bool.or_eq_true, Bool.not_eq_true', hmarks,
    Bool.false_eq_true, or_false] at h
  exact h.2.resolve_left (by simpa using ⟨w, hw, hcloses⟩)

/-- A commit that gives the order no status but closed keeps closed orders settled: where it
writes no bill, it lands with no open one. -/
theorem ClosedSettled.close {bill : Write → Bool} {l : TxFootprint} {s : Store} (hs : ClosedSettled s)
    (h : Writing (Confined bill (some .closed)) l) (htime : inTime l s = true)
    (hmarks : l.writes.any Write.marks = true →
      ClosedSettled (applyAll l.writes s)) :
    ClosedSettled (applyAll l.writes s) ∧
      (s.order.status = .closed → (applyAll l.writes s).order.status = .closed) := by
  have hstatus := Confined.status h s
  have hguar : s.order.status = .closed → (applyAll l.writes s).order.status = .closed := by
    intro hclosed
    rw [hstatus, hclosed, ite_self]
  refine ⟨?_, hguar⟩
  cases hany : l.writes.any Write.marks with
  | true => exact hmarks hany
  | false =>
      refine ⟨fun hfin => ?_, fun hclosed => ?_⟩
      · rw [billIs_of_unmarked hany] at hfin
        exact hguar (hs.closed hfin)
      · rw [billIs_of_unmarked hany]
        cases hst : l.writes.any (·.orderStatus.isSome) with
        | true =>
            obtain ⟨w, hw, hsome⟩ := List.any_eq_true.mp hst
            have hw' : w.orderStatus = some .closed :=
              (h w hw).2.resolve_left (by simpa [Option.isSome_iff_ne_none] using hsome)
            rw [Write.orderStatus_eq hw'] at hw
            exact inTime_closes htime hw rfl hany
        | false =>
            rw [hstatus, hst] at hclosed
            exact hs.settled hclosed

/-- Whatever a transaction did, its commit in time keeps closed orders settled. -/
theorem OrderOutcome.commits {l : TxFootprint} {s : Store} (h : OrderOutcome l)
    (hs : ClosedSettled s) : closingDiscipline.Commits l s := by
  intro hlands
  have htime : inTime l s = true := hlands
  suffices hmain : ClosedSettled (applyAll l.writes s) ∧
      (s.order.status = .closed → (applyAll l.writes s).order.status = .closed) from
    ⟨hmain.1, hmain.2, fun _ _ => trivial, trivial⟩
  cases h with
  | sends h =>
      have hany : l.writes.any Write.marks = false := by
        rw [List.any_eq_false]
        intro w hw hmarks
        exact Bool.false_ne_true ((h w hw).1 hmarks)
      have hstatus := Confined.status h s
      cases hst : l.writes.any (·.orderStatus.isSome) with
      | true =>
          obtain ⟨w, hw, hsome⟩ := List.any_eq_true.mp hst
          have hw' : w.orderStatus = some .sent :=
            (h w hw).2.resolve_left (by simpa [Option.isSome_iff_ne_none] using hsome)
          rw [Write.orderStatus_eq hw'] at hw
          have hnot : s.order.status ≠ .closed := inTime_needs htime hw rfl
          rw [hst] at hstatus
          refine ⟨⟨fun hfin => ?_, fun hclosed => ?_⟩, fun hclosed => absurd hclosed hnot⟩
          · rw [billIs_of_unmarked hany] at hfin
            exact absurd (hs.closed hfin) hnot
          · rw [hstatus] at hclosed
            cases hclosed
      | false =>
          simp only [hst, Bool.false_eq_true, if_false] at hstatus
          refine ⟨⟨fun hfin => ?_, fun hclosed => ?_⟩, fun hclosed => hstatus.trans hclosed⟩
          · rw [billIs_of_unmarked hany] at hfin
            exact hstatus.trans (hs.closed hfin)
          · rw [billIs_of_unmarked hany]
            exact hs.settled (hstatus ▸ hclosed)
  | opens h =>
      have hstatus := status_of_silent (fun w hw => (h w hw).2.elim id id) s
      cases hany : l.writes.any Write.marks with
      | true =>
          obtain ⟨w, hw, hmarks⟩ := List.any_eq_true.mp hany
          obtain ⟨-, bill, rfl⟩ := Write.setMark_opensBill ((h w hw).1 hmarks) none
          have hnot : s.order.status ≠ .closed := inTime_needs htime hw rfl
          refine ⟨⟨fun hfin => ?_, fun hclosed => absurd (hstatus ▸ hclosed) hnot⟩,
            fun hclosed => absurd hclosed hnot⟩
          rw [billIs_mark] at hfin
          rw [marks_of_confined h (P := fun mark => mark.any (·.1 = .finalized) = false)
            (fun w hw mark => (Write.setMark_opensBill hw mark).1) hany] at hfin
          cases hfin
      | false =>
          refine ⟨⟨fun hfin => ?_, fun hclosed => ?_⟩, fun hclosed => hstatus.trans hclosed⟩
          · rw [billIs_of_unmarked hany] at hfin
            exact hstatus.trans (hs.closed hfin)
          · rw [billIs_of_unmarked hany]
            exact hs.settled (hstatus ▸ hclosed)
  | settles h hcloses =>
      refine hs.close h htime fun hany => ?_
      -- A settlement that wrote the bill closed the order.
      obtain ⟨w, hw, hmarks⟩ := List.any_eq_true.mp hany
      obtain ⟨w', hw', hclosed⟩ := hcloses ⟨w, hw, (h w hw).1 hmarks⟩
      have hstatus : (applyAll l.writes s).order.status = .closed := by
        have hsome : l.writes.any (·.orderStatus.isSome) = true :=
          List.any_eq_true.mpr ⟨w', hw', by simp [hclosed]⟩
        rw [Confined.status h, hsome]
        rfl
      refine ⟨fun _ => hstatus, fun _ => ?_⟩
      rw [billIs_mark]
      exact marks_of_confined h (P := fun mark => mark.any (·.1 = .open) = false)
        (fun _ hw => Write.setMark_settles hw) hany
  | discards h =>
      refine hs.close h htime fun hany => ?_
      have hmark : (applyAll l.writes s).mark = none :=
        marks_of_confined h (P := (· = none)) (fun _ hw => Write.setMark_deletesBill hw) hany
      refine ⟨fun hfin => ?_, fun _ => ?_⟩
      · rw [billIs_mark, hmark] at hfin
        cases hfin
      · rw [billIs_mark, hmark]
        rfl

/-! ### Runs -/

end RestiqBackend
