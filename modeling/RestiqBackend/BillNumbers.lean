import RestiqBackend.Outlet

/-!
The numbers of an outlet's bills.

A settlement first draws a number from the outlet's counter, whose row it keeps locked
from then on, and puts it on the bill if that is still open. So a footprint that drew a number
and did not use it cannot be committed, two drawn numbers cannot be in flight at once, and
whatever is undone is undone together.
-/

namespace RestiqBackend

open ReadCommitted

/-! ### What a transaction drew and what it used -/

/-- The number that a write leaves in the counter. -/
def Write.drawn : Write → Option ℕ
  | .upsertBillNumberCounter n => some n
  | _ => none

/-- The number that a write puts on a bill. -/
def Write.numbered : Write → Option ℕ
  | .finalizeBill number .. => some number
  | _ => none

/-- A footprint that put on bills just the numbers it drew. -/
def DrawsEvenly (l : TxFootprint) : Prop :=
  l.writes.filterMap Write.drawn = l.writes.filterMap Write.numbered

/-- A statement that neither draws a number nor uses one. -/
def LeavesNumbers (l : TxFootprint) : Prop :=
  ∀ w ∈ l.writes, w.drawn = none ∧ w.numbered = none

theorem leavesNumbers_of_touching {ts : List Table} (hbills : .bills ∉ ts)
    (hcounter : .billNumberCounters ∉ ts) {l : TxFootprint} (h : Touching ts l) :
    LeavesNumbers l := by
  intro w hw
  have htable := h w hw
  cases w
  case finalizeBill => exact absurd htable hbills
  case upsertBillNumberCounter => exact absurd htable hcounter
  all_goals exact ⟨rfl, rfl⟩

theorem LeavesNumbers.drawn {l : TxFootprint} (h : LeavesNumbers l) :
    l.writes.filterMap Write.drawn = [] :=
  List.filterMap_eq_nil_iff.mpr fun w hw => (h w hw).1

theorem LeavesNumbers.numbered {l : TxFootprint} (h : LeavesNumbers l) :
    l.writes.filterMap Write.numbered = [] :=
  List.filterMap_eq_nil_iff.mpr fun w hw => (h w hw).2

/-- A program that begins even ends even. -/
def StaysEven {α : Type} (p : Tx α) : Prop :=
  ∀ l, DrawsEvenly l → p.Leaves (fun _ l => DrawsEvenly l) l

theorem staysEven_closed : Txn.Closed fun {α} (p : Tx α) => StaysEven p where
  done _ := fun _ h => h
  fail _ := fun _ _ => trivial
  bind hp hg := fun l h => (hp l h).seq fun a l' h' => hg a l' h'

/-- With the numbers `pending` drawn and not used yet. -/
def DrawsAhead (pending : List ℕ) (l : TxFootprint) : Prop :=
  l.writes.filterMap Write.drawn = l.writes.filterMap Write.numbered ++ pending

theorem leaves_drawsAhead {α : Type} {p : Tx α} (hp : p.Emits LeavesNumbers) {pending : List ℕ}
    {l : TxFootprint} (h : DrawsAhead pending l) :
    p.Leaves (fun _ l => DrawsAhead pending l) l := by
  refine hp.leaves (fun l l' hl' h => ?_) h
  unfold DrawsAhead
  rw [Footprint.add_writes, List.filterMap_append, List.filterMap_append, hl'.drawn, hl'.numbered,
    List.append_nil, List.append_nil]
  exact h

theorem staysEven_of_emits {α : Type} {p : Tx α} (hp : p.Emits LeavesNumbers) : StaysEven p := by
  intro l h
  have hahead : DrawsAhead [] l := by rwa [DrawsAhead, List.append_nil]
  exact (leaves_drawsAhead hp hahead).mono fun _ l h => by rwa [DrawsAhead, List.append_nil] at h

theorem staysEven_of_touching {α : Type} {p : Tx α} {ts : List Table} (hp : p.Emits (Touching ts))
    (hbills : .bills ∉ ts) (hcounter : .billNumberCounters ∉ ts) : StaysEven p :=
  staysEven_of_emits (hp.mono fun _ => leavesNumbers_of_touching hbills hcounter)

/-- A settlement that gets to its end has used the number it drew. -/
theorem writeSettlement_staysEven (params : CommitFinalizeParams) (roundOff : Option ℤ)
    (tax : Option TaxResult) : StaysEven (writeSettlement params roundOff tax) := by
  intro l h
  have hclock : (Txn.clock : Tx ℤ).Emits LeavesNumbers :=
    Txn.Emits.mono emits_clock fun _ => leavesNumbers_of_touching List.not_mem_nil List.not_mem_nil
  have hclose : (Txn.exec (fun _ => [.order]) fun _ => [.updateOrderStatus .closed] : Tx Unit).Emits
      (Touching [.orders]) := emits_exec (by simp [Write.table])
  refine .seq (R := fun n l => DrawsAhead [n] l) (fun env v => ?_) fun number l h => ?_
  · simp only [Txn.Leaves, DrawsAhead, Footprint.add_writes, List.filterMap_append]
    rw [show l.writes.filterMap Write.drawn = l.writes.filterMap Write.numbered from h]
    simp [Write.drawn, Write.numbered]
  · refine .seq (leaves_drawsAhead hclock h)
      fun finalizedAt l h => ?_
    refine .seq (R := fun updated l => updated = true → DrawsEvenly l) (fun env v => ?_)
      fun updated l h => ?_
    · cases hopen : v.billIs .open with
      | true =>
          simp only [hopen, if_true]
          intro _
          simp only [DrawsEvenly, Footprint.add_writes, List.filterMap_append]
          rw [show l.writes.filterMap Write.drawn = _ from h]
          simp [Write.drawn, Write.numbered]
      | false =>
          simp only [hopen, Bool.false_eq_true, if_false]
          exact fun hfalse => absurd hfalse (by simp)
    · cases updated with
      | false => trivial
      | true =>
          have hrest := staysEven_closed.bind
            (staysEven_of_touching (fireOnSend_emits params.bill.bill.outletId) (by decide) (by decide)) fun _ =>
            staysEven_closed.bind (staysEven_of_touching hclose (by decide) (by decide)) fun _ =>
            staysEven_closed.bind (staysEven_of_touching goLiveOnFirstSale_emits (by decide) (by decide)) fun _ =>
            staysEven_of_touching loadBill_emits List.not_mem_nil List.not_mem_nil
          exact hrest l (h rfl)

/-- A request that gets to its end has used every number it drew. -/
theorem Op.staysEven (op : Op) : StaysEven op.prog := by
  have hreads : ∀ {α : Type} {p : Tx α}, p.Emits (Touching []) → StaysEven p := fun h =>
    staysEven_of_touching h List.not_mem_nil List.not_mem_nil
  refine Op.bill_parts staysEven_closed ?_ op
  refine { refresh := fun bill => ?_, insert := fun bill _ _ => ?_, write := writeSettlement_staysEven,
           quiet := fun h => staysEven_of_touching h (by decide) (by decide) }
  · refine staysEven_closed.ite (fun _ h => h) (staysEven_closed.bind (hreads computeBillTotals_emits)
      fun totals => staysEven_closed.ite (fun _ h => h) ?_)
    refine staysEven_closed.bind (staysEven_of_emits ⟨fun _ _ w hw => ?_, fun _ => trivial⟩)
      fun updated => ?_
    · obtain rfl := List.mem_singleton.mp hw
      exact ⟨rfl, rfl⟩
    · cases updated with
      | none => exact fun _ _ => trivial
      | some bill => exact fun _ h => h
  · refine staysEven_of_emits ⟨fun _ v => ?_, fun _ => trivial⟩
    cases hv : v.bill.isNone <;> simp [hv, LeavesNumbers, Write.drawn, Write.numbered]

/-! ### What a statement does to numbers -/

/-- What there is to know of a bill here: its status and its number. -/
def Store.mark (s : Store) : Option (BillStatus × Option ℕ) :=
  s.bill.map fun b => (b.status, b.billNumber)

/-- The counter's last number; without a row it has given none. -/
def Store.lastNumber (s : Store) : ℕ := s.billNumberCounter.getD 0

/-- What a write makes of the mark. -/
def Write.setMark : Write → Option (BillStatus × Option ℕ) → Option (BillStatus × Option ℕ)
  | .createBill bill, _ => some (bill.status, bill.billNumber)
  | .deleteBill, _ => none
  | .finalizeBill number .., mark => mark.map fun _ => (.finalized, some number)
  | _, mark => mark

/-- Whether a write can change the mark. -/
def Write.marks : Write → Bool
  | .createBill _ | .deleteBill | .finalizeBill .. => true
  | _ => false

theorem mark_applyAll (ws : List Write) (s : Store) :
    (applyAll ws s).mark = (ws.filter Write.marks).foldl (fun mark w => w.setMark mark) s.mark := by
  refine applyAll_abstract Store.mark Write.setMark Write.marks (fun w s => ?_) (fun w hw => ?_) ws s
  · cases w <;> simp [Store.mark, Store.apply, Write.setMark, Bill.withTotals, Bill.finalize,
      Function.comp_def]
  · cases w <;> simp_all [Write.marks, Write.setMark]

theorem mark_applyAll_of_unmarked {ws : List Write} (h : ws.filter Write.marks = []) (s : Store) :
    (applyAll ws s).mark = s.mark := by
  rw [mark_applyAll, h, List.foldl_nil]

theorem lastNumber_applyAll (ws : List Write) (s : Store) :
    (applyAll ws s).lastNumber = (ws.filterMap Write.drawn).foldl (fun _ n => n) s.lastNumber := by
  induction ws generalizing s with
  | nil => rfl
  | cons w ws ih =>
      rw [applyAll_cons, ih]
      cases w <;> rfl

/-- What one statement does to numbers, on the rows `v` it was sent on. -/
inductive NumberStatement (v : Store) (l : TxFootprint) : Prop
  | quiet (h : ∀ w ∈ l.writes, w.drawn = none ∧ w.marks = false)
  | draws (hlock : Key.billNumberCounter ∈ l.locks)
      (h : l.writes = [.upsertBillNumberCounter (v.lastNumber + 1)])
  | opens (bill : Bill) (hopen : bill.status = .open) (hnumber : bill.billNumber = none)
      (hlock : Key.bill ∈ l.locks) (hnone : v.bill = none) (h : l.writes = [.createBill bill])
  | settles (w : Write) (number : ℕ) (hw : ∀ mark, w.setMark mark = mark.map fun _ => (.finalized, some number))
      (hmarks : w.marks = true) (hdrawn : w.drawn = none) (hnumbered : w.numbered = some number)
      (hlock : Key.bill ∈ l.locks) (hopen : v.billIs .open = true) (h : l.writes = [w])

theorem numberStatement_of_touching {ts : List Table} (hbills : .bills ∉ ts)
    (hcounter : .billNumberCounters ∉ ts) (v : Store) {l : TxFootprint} (h : Touching ts l) :
    NumberStatement v l := by
  refine .quiet fun w hw => ?_
  have htable := h w hw
  cases w
  case createBill => exact absurd htable hbills
  case deleteBill => exact absurd htable hbills
  case finalizeBill => exact absurd htable hbills
  case upsertBillNumberCounter => exact absurd htable hcounter
  all_goals exact ⟨rfl, rfl⟩

/-- Every statement of every request is one of these. -/
theorem Op.numberStatements (op : Op) : op.prog.Sends NumberStatement := by
  have hreads : ∀ {α : Type} {p : Tx α}, p.Emits (Touching []) → p.Sends NumberStatement := fun h =>
    h.sends fun v _ => numberStatement_of_touching List.not_mem_nil List.not_mem_nil v
  have hquiet : ∀ {α : Type} {p : Tx α}, p.Emits (Touching tablesBesideBills) →
      p.Sends NumberStatement := fun h =>
    h.sends fun v _ => numberStatement_of_touching (by decide) (by decide) v
  have hempty : ∀ v, NumberStatement v .empty := fun v => .quiet (by simp)
  have hclosed : Txn.Closed fun {α} (p : Tx α) => p.Sends NumberStatement := Txn.Sends.closed _
  refine Op.bill_parts hclosed ?_ op
  refine { refresh := fun bill => ?_, insert := fun bill hopen hnumber => ?_, quiet := hquiet,
           write := writeSettlement_parts hclosed ?_ }
  · refine hclosed.ite trivial ((hreads computeBillTotals_emits).bind fun totals =>
      hclosed.ite trivial (Txn.Sends.bind ⟨fun _ v => .quiet fun w hw => ?_, fun _ => trivial⟩
        fun updated => ?_))
    · obtain rfl := List.mem_singleton.mp hw
      exact ⟨rfl, rfl⟩
    · cases updated <;> trivial
  · exact .writeWhen (fun v hv => .opens bill hopen hnumber (List.mem_singleton_self _)
      (Option.isNone_iff_eq_none.mp hv) rfl) hempty
  · exact {
      counter := ⟨fun _ _ => .draws (List.mem_singleton_self _) rfl, fun _ => trivial⟩
      bill := fun number _ _ _ _ _ _ => .writeWhen (fun v hv => .settles _ number (fun _ => rfl) rfl
        rfl rfl (List.mem_singleton_self _) hv rfl) hempty
      fire := fun outletId => hquiet (emits_within (fireOnSend_emits outletId) (by decide))
      close := hquiet (emits_exec (by simp [Write.table, tablesBesideBills]))
      quiet := fun h => hquiet (emits_within h (by decide)) }

/-! ### An outlet's numbers -/

/-- The mark of an order's bill. -/
def Outlet.mark (o : Outlet) (i : ℕ) : Option (BillStatus × Option ℕ) := (o.orders i).mark

/-- The last number the outlet has given. -/
def Outlet.lastNumber (o : Outlet) : ℕ := o.shared.lastNumber

/-- The finalized bills are numbered from one to the last number without a gap, no two
alike, and no open bill has a number. -/
structure Outlet.Numbered (o : Outlet) : Prop where
  range : ∀ n, (∃ i, o.mark i = some (.finalized, some n)) ↔ 1 ≤ n ∧ n ≤ o.lastNumber
  distinct : ∀ i j n, o.mark i = some (.finalized, some n) → o.mark j = some (.finalized, some n) →
    i = j
  finalized : ∀ i number, o.mark i = some (.finalized, number) → number.isSome = true
  opened : ∀ i number, o.mark i = some (.open, number) → number = none

/-- The counter and every bill belong to who holds their locks, and a bill's number is
for good. -/
def numberDiscipline : Discipline Outlet OutletKey OutletRead OutletWrite where
  inv := Outlet.Numbered
  guar o o' := ∀ i number, o.mark i = some (.finalized, number) →
    o'.mark i = some (.finalized, number)
  keeps k o o' := (k = (none, .billNumberCounter) → o'.lastNumber = o.lastNumber) ∧
    ∀ i, k = (some i, .bill) → o'.mark i = o.mark i
  heeds _ _ _ := True
  admits _ _ _ := True
  lands _ _ := True
  ends _ _ := True
  guar_refl _ _ _ h := h
  guar_trans _ _ _ h h' i number hi := h' i number (h i number hi)
  keeps_refl _ _ := ⟨fun _ => rfl, fun _ _ => rfl⟩
  keeps_trans _ _ _ _ h h' :=
    ⟨fun hk => (h'.1 hk).trans (h.1 hk), fun i hk => (h'.2 i hk).trans (h.2 i hk)⟩
  heeds_refl _ _ := trivial
  heeds_trans _ _ _ _ _ _ := trivial

/-- How far a request has come with the bill of its order: it has left it alone, it has
opened it, or it has settled it. -/
inductive MarkStage (o : Outlet) (i : ℕ) (l : TxFootprint) : Prop
  | alone (hunmarked : l.writes.filter Write.marks = [])
      (hnone : l.writes.filterMap Write.numbered = [])
  | opened (hlock : Key.bill ∈ l.locks) (hbill : o.mark i = none)
      (hnone : l.writes.filterMap Write.numbered = [])
      (hmark : (applyAll l.writes (o.view i)).mark = some (.open, none))
  | settled (number : ℕ) (hlock : Key.bill ∈ l.locks)
      (hbill : ∀ number, o.mark i ≠ some (.finalized, number))
      (hnumber : l.writes.filterMap Write.numbered = [number])
      (hmark : (applyAll l.writes (o.view i)).mark = some (.finalized, some number))

/-- What is known of a request's footprint: the numbers it drew are the next ones, under
the counter's lock, and how far it is with its bill. -/
structure Numbering (i : ℕ) (l : TxFootprint) (o : Outlet) : Prop where
  drawn : l.writes.filterMap Write.drawn =
    List.range' (o.lastNumber + 1) (l.writes.filterMap Write.drawn).length
  locked : l.writes.filterMap Write.drawn ≠ [] → Key.billNumberCounter ∈ l.locks
  stage : MarkStage o i l

theorem mark_view_congr {o o' : Outlet} {i : ℕ} (h : o'.mark i = o.mark i) (ws : List Write) :
    (applyAll ws (o'.view i)).mark = (applyAll ws (o.view i)).mark := by
  have hview : (o'.view i).mark = (o.view i).mark := h
  rw [mark_applyAll, mark_applyAll, hview]

theorem lock_mem {k : Key} {i : ℕ} {l : TxFootprint} (h : k ∈ l.locks) :
    (if k.isShared then none else some i, k) ∈ ((orderZoom i).footprint l).locks :=
  List.mem_map.mpr ⟨k, h, rfl⟩

theorem numbering_stable (i : ℕ) (l : TxFootprint) (o o' : Outlet)
    (hrely : numberDiscipline.Rely ((orderZoom i).footprint l) o o') (h : Numbering i l o) :
    Numbering i l o' := by
  have hbill : Key.bill ∈ l.locks → o'.mark i = o.mark i := fun hlock =>
    (hrely.keeps _ (lock_mem hlock)).2 i rfl
  refine ⟨?_, h.locked, ?_⟩
  · by_cases hnone : l.writes.filterMap Write.drawn = []
    · rw [hnone]
      rfl
    · rw [show o'.lastNumber = o.lastNumber from
        (hrely.keeps _ (lock_mem (h.locked hnone))).1 rfl]
      exact h.drawn
  · cases h.stage with
    | alone hunmarked hnone => exact .alone hunmarked hnone
    | opened hlock hnot hnone hmark =>
        exact .opened hlock ((hbill hlock).trans hnot) hnone
          ((mark_view_congr (hbill hlock) _).trans hmark)
    | settled number hlock hnot hnumber hmark =>
        refine .settled number hlock (fun n => ?_) hnumber
          ((mark_view_congr (hbill hlock) _).trans hmark)
        rw [hbill hlock]
        exact hnot n

/-- The last of the numbers that follow `c`. -/
theorem foldl_range' (c k : ℕ) : (List.range' (c + 1) k).foldl (fun _ n => n) c = c + k := by
  cases k with
  | zero => rfl
  | succ k =>
      rw [List.range'_concat, List.foldl_append, List.foldl_cons, List.foldl_nil]
      omega

theorem Numbering.lastNumber_view {i : ℕ} {l : TxFootprint} {o : Outlet} (h : Numbering i l o) :
    (applyAll l.writes (o.view i)).lastNumber =
      o.lastNumber + (l.writes.filterMap Write.drawn).length := by
  have hview : (o.view i).lastNumber = o.lastNumber := rfl
  rw [lastNumber_applyAll, h.drawn, hview, foldl_range', List.length_range']

/-- A further statement keeps the stage when it does not change the mark. -/
theorem MarkStage.quiet {o : Outlet} {i : ℕ} {l l' : TxFootprint} (h : MarkStage o i l)
    (hmarks : l'.writes.filter Write.marks = []) (hnumbered : l'.writes.filterMap Write.numbered = []) :
    MarkStage o i (l.add l') := by
  have hview : (applyAll (l.add l').writes (o.view i)).mark =
      (applyAll l.writes (o.view i)).mark := by
    rw [Footprint.add_writes, applyAll_append]
    exact mark_applyAll_of_unmarked hmarks _
  have happend : (l.add l').writes.filterMap Write.numbered =
      l.writes.filterMap Write.numbered := by
    rw [Footprint.add_writes, List.filterMap_append, hnumbered, List.append_nil]
  cases h with
  | alone hunmarked hnone =>
      refine .alone ?_ (happend.trans hnone)
      rw [Footprint.add_writes, List.filter_append, hunmarked, hmarks, List.append_nil]
  | opened hlock hnot hnone hmark =>
      exact .opened (List.mem_append_left _ hlock) hnot (happend.trans hnone) (hview.trans hmark)
  | settled number hlock hnot hnumber hmark =>
      exact .settled number (List.mem_append_left _ hlock) hnot (happend.trans hnumber)
        (hview.trans hmark)

/-- The mark that a statement of the request sees. -/
theorem MarkStage.seen {o : Outlet} {i : ℕ} {l : TxFootprint} (h : MarkStage o i l) :
    (l.writes.filterMap Write.numbered = [] ∧
      ((applyAll l.writes (o.view i)).mark = o.mark i ∨ o.mark i = none)) ∨
    ∃ number, (applyAll l.writes (o.view i)).mark = some (.finalized, some number) := by
  cases h with
  | alone hunmarked hnone => exact .inl ⟨hnone, .inl (mark_applyAll_of_unmarked hunmarked _)⟩
  | opened _ hnot hnone _ => exact .inl ⟨hnone, .inr hnot⟩
  | settled number _ _ _ hmark => exact .inr ⟨number, hmark⟩

theorem Numbering.add {i : ℕ} {l l' : TxFootprint} {o : Outlet} (h : Numbering i l o)
    (hstmt : NumberStatement (applyAll l.writes (o.view i)) l') : Numbering i (l.add l') o := by
  have hlocked : ∀ k ∈ l.locks, k ∈ (l.add l').locks := fun k hk => List.mem_append_left _ hk
  have hlast := h.lastNumber_view
  have hview : applyAll (l.add l').writes (o.view i) =
      applyAll l'.writes (applyAll l.writes (o.view i)) := by
    rw [Footprint.add_writes, applyAll_append]
  -- Only a draw adds to the numbers drawn.
  have hsame : l'.writes.filterMap Write.drawn = [] →
      (l.add l').writes.filterMap Write.drawn = l.writes.filterMap Write.drawn := fun hnone => by
    rw [Footprint.add_writes, List.filterMap_append, hnone, List.append_nil]
  have hkeep : l'.writes.filterMap Write.drawn = [] → MarkStage o i (l.add l') →
      Numbering i (l.add l') o := fun hnone hstage =>
    ⟨by rw [hsame hnone]; exact h.drawn, fun hne => hlocked _ (h.locked (hsame hnone ▸ hne)), hstage⟩
  cases hstmt with
  | quiet hquiet =>
      refine hkeep (List.filterMap_eq_nil_iff.mpr fun w hw => (hquiet w hw).1) (h.stage.quiet ?_ ?_)
      · exact List.filter_eq_nil_iff.mpr fun w hw => by simp [(hquiet w hw).2]
      · refine List.filterMap_eq_nil_iff.mpr fun w hw => ?_
        have hw := (hquiet w hw).2
        cases w <;> first | rfl | simp [Write.marks] at hw
  | draws hlock hdraw =>
      have hdrawn : (l.add l').writes.filterMap Write.drawn = l.writes.filterMap Write.drawn ++
          [o.lastNumber + (l.writes.filterMap Write.drawn).length + 1] := by
        rw [Footprint.add_writes, List.filterMap_append, hdraw, hlast]
        rfl
      refine ⟨?_, fun _ => List.mem_append_right _ hlock, h.stage.quiet ?_ ?_⟩
      · rw [hdrawn, List.length_append, List.length_singleton, List.range'_concat, ← h.drawn]
        congr 2
        omega
      · rw [hdraw]
        rfl
      · rw [hdraw]
        rfl
  | opens bill hopen hnumber hlock hnone hcreate =>
      refine hkeep (by rw [hcreate]; rfl) ?_
      have hseen : (applyAll l.writes (o.view i)).mark = none := by rw [Store.mark, hnone]; rfl
      obtain ⟨hnumbered, hbill⟩ | ⟨number, hmark⟩ := h.stage.seen
      · refine .opened (List.mem_append_right _ hlock) ?_ ?_ ?_
        · rcases hbill with hbill | hbill
          · rw [← hbill, hseen]
          · exact hbill
        · rw [Footprint.add_writes, List.filterMap_append, hnumbered, hcreate]
          rfl
        · rw [hview, hcreate, mark_applyAll, ← hopen, ← hnumber]
          rfl
      · rw [hseen] at hmark
        cases hmark
  | settles w number hset hmarks hdrawn hnumber hlock hopen hwrite =>
      refine hkeep (by rw [hwrite, List.filterMap_cons, hdrawn]; rfl) ?_
      obtain ⟨number₀, hseen⟩ : ∃ number,
          (applyAll l.writes (o.view i)).mark = some (.open, number) := by
        unfold Store.billIs at hopen
        unfold Store.mark
        cases hb : (applyAll l.writes (o.view i)).bill with
        | none => simp [hb] at hopen
        | some b => exact ⟨b.billNumber, by simpa [hb] using hopen⟩
      obtain ⟨hnumbered, hbill⟩ | ⟨number', hmark⟩ := h.stage.seen
      · refine .settled number (List.mem_append_right _ hlock) (fun n hn => ?_) ?_ ?_
        · rcases hbill with hbill | hbill
          · rw [hseen, hn] at hbill
            cases hbill
          · rw [hn] at hbill
            cases hbill
        · rw [Footprint.add_writes, List.filterMap_append, hnumbered, hwrite, List.filterMap_cons,
            hnumber]
          rfl
        · rw [hview, hwrite, mark_applyAll, List.filter_cons_of_pos hmarks, List.foldl_cons, hset,
            hseen]
          rfl
      · rw [hseen] at hmark
        cases hmark

/-- What a request's commit makes of the marks and of the counter. -/
theorem mark_commit (i : ℕ) (l : TxFootprint) (o : Outlet) (j : ℕ) :
    (applyAll ((orderZoom i).footprint l).writes o).mark j =
      if j = i then (applyAll l.writes (o.view i)).mark else o.mark j := by
  split
  · rename_i hij
    subst hij
    have hview := (orderZoom j).view_applyAll l.writes o
    have hmark := congrArg Store.mark hview
    exact hmark
  · rename_i hij
    exact congrArg Store.mark (orders_applyAll_of_ne hij l.writes o)

theorem lastNumber_commit (i : ℕ) (l : TxFootprint) (o : Outlet) :
    (applyAll ((orderZoom i).footprint l).writes o).lastNumber =
      (applyAll l.writes (o.view i)).lastNumber := by
  have hview := (orderZoom i).view_applyAll l.writes o
  have hlast := congrArg Store.lastNumber hview
  exact hlast

/-- The numbers stay in order when no bill is settled and none gets a number while open. -/
theorem Outlet.Numbered.unchanged {o o' : Outlet} (h : o.Numbered)
    (hfinalized : ∀ i number, o'.mark i = some (.finalized, number) ↔
      o.mark i = some (.finalized, number))
    (hopened : ∀ i number, o'.mark i = some (.open, number) → number = none)
    (hlast : o'.lastNumber = o.lastNumber) : o'.Numbered where
  range n := by
    rw [hlast, ← h.range n]
    exact exists_congr fun i => hfinalized i _
  distinct i j n hi hj := h.distinct i j n ((hfinalized i _).mp hi) ((hfinalized j _).mp hj)
  finalized i number hi := h.finalized i number ((hfinalized i number).mp hi)
  opened := hopened

/-- They stay in order when one more bill gets the next number. -/
theorem Outlet.Numbered.settled {o o' : Outlet} (h : o.Numbered) {i : ℕ}
    (hnot : ∀ number, o.mark i ≠ some (.finalized, number))
    (hmark : o'.mark i = some (.finalized, some (o.lastNumber + 1)))
    (hothers : ∀ j, j ≠ i → o'.mark j = o.mark j)
    (hlast : o'.lastNumber = o.lastNumber + 1) : o'.Numbered := by
  have hnumbers : ∀ j n, o'.mark j = some (.finalized, some n) →
      j = i ∧ n = o.lastNumber + 1 ∨ j ≠ i ∧ o.mark j = some (.finalized, some n) := by
    intro j n hj
    by_cases hji : j = i
    · subst hji
      rw [hmark] at hj
      cases hj
      exact .inl ⟨rfl, rfl⟩
    · exact .inr ⟨hji, hothers j hji ▸ hj⟩
  have hbound : ∀ j n, o.mark j = some (.finalized, some n) → 1 ≤ n ∧ n ≤ o.lastNumber :=
    fun j n hj => (h.range n).mp ⟨j, hj⟩
  refine ⟨fun n => ⟨?_, fun hn => ?_⟩, fun j k n hj hk => ?_, fun j number hj => ?_,
    fun j number hj => ?_⟩
  · rintro ⟨j, hj⟩
    rcases hnumbers j n hj with ⟨-, rfl⟩ | ⟨-, hj⟩
    · omega
    · have := hbound j n hj
      omega
  · by_cases hlt : n ≤ o.lastNumber
    · obtain ⟨j, hj⟩ := (h.range n).mpr ⟨hn.1, hlt⟩
      exact ⟨j, (hothers j (fun hji => hnot _ (hji ▸ hj))).trans hj⟩
    · have : n = o.lastNumber + 1 := by omega
      exact ⟨i, this ▸ hmark⟩
  · rcases hnumbers j n hj with ⟨rfl, rfl⟩ | ⟨-, hj'⟩ <;>
      rcases hnumbers k _ hk with ⟨rfl, hn⟩ | ⟨-, hk'⟩
    · rfl
    · have := hbound k _ hk'
      omega
    · have := hbound j n hj'
      omega
    · exact h.distinct j k n hj' hk'
  · by_cases hji : j = i
    · subst hji
      rw [hmark] at hj
      cases hj
      rfl
    · exact h.finalized j number (hothers j hji ▸ hj)
  · by_cases hji : j = i
    · subst hji
      rw [hmark] at hj
      cases hj
    · exact h.opened j number (hothers j hji ▸ hj)

/-- A request that used what it drew keeps the outlet's numbers in order. -/
theorem Numbering.commits {i : ℕ} {l : TxFootprint} {o : Outlet} (h : Numbering i l o)
    (heven : DrawsEvenly l) (ho : o.Numbered) :
    numberDiscipline.Keeps ((orderZoom i).footprint l) o := by
  have hself : (applyAll ((orderZoom i).footprint l).writes o).mark i =
      (applyAll l.writes (o.view i)).mark := by rw [mark_commit, if_pos rfl]
  have hothers : ∀ j, j ≠ i → (applyAll ((orderZoom i).footprint l).writes o).mark j = o.mark j :=
    fun j hj => by rw [mark_commit, if_neg hj]
  have hlast := (lastNumber_commit i l o).trans h.lastNumber_view
  rw [heven] at hlast
  have hnotFree : ∀ {k : Key}, k ∈ l.locks → ∀ {k' : OutletKey},
      k' ∉ ((orderZoom i).footprint l).locks → k' ≠ (if k.isShared then none else some i, k) :=
    fun hk _ hk' heq => hk' (heq ▸ lock_mem hk)
  cases h.stage with
  | alone hunmarked hnone =>
      have hsame : ∀ j, (applyAll ((orderZoom i).footprint l).writes o).mark j = o.mark j := by
        intro j
        by_cases hj : j = i
        · rw [hj, hself]
          exact mark_applyAll_of_unmarked hunmarked _
        · exact hothers j hj
      rw [hnone] at hlast
      exact ⟨ho.unchanged (fun j _ => by rw [hsame j]) (fun j n hj => ho.opened j n (hsame j ▸ hj))
        hlast, fun j n hj => (hsame j).trans hj, fun k _ => ⟨fun _ => hlast, fun j _ => hsame j⟩,
        trivial⟩
  | opened hlock hnot hnone hmark =>
      rw [hmark] at hself
      rw [hnone] at hlast
      have hfinalized : ∀ j number, (applyAll ((orderZoom i).footprint l).writes o).mark j =
          some (.finalized, number) ↔ o.mark j = some (.finalized, number) := by
        intro j number
        by_cases hj : j = i
        · rw [hj, hself, hnot]
          simp
        · rw [hothers j hj]
      refine ⟨ho.unchanged hfinalized (fun j n hj => ?_) hlast,
        fun j n hj => (hfinalized j n).mpr hj, fun k hk => ⟨fun _ => hlast, fun j hkj => ?_⟩, trivial⟩
      · by_cases hji : j = i
        · rw [hji, hself] at hj
          cases hj
          rfl
        · exact ho.opened j n (hothers j hji ▸ hj)
      · refine hothers j fun hji => hnotFree hlock hk ?_
        rw [hkj, hji]
        rfl
  | settled number hlock hnot hnumber hmark =>
      rw [hmark] at hself
      have hdrawn := h.drawn
      rw [heven, hnumber] at hdrawn
      have hnext : number = o.lastNumber + 1 := by simpa using hdrawn
      rw [hnumber] at hlast
      rw [hnext] at hself
      refine ⟨ho.settled hnot hself hothers hlast, fun j n hj => ?_, fun k hk =>
        ⟨fun hkc => ?_, fun j hkj => hothers j fun hji => hnotFree hlock hk ?_⟩, trivial⟩
      · exact (hothers j fun hji => hnot n (hji ▸ hj)).trans hj
      · have hcounter := h.locked (by rw [heven, hnumber]; simp)
        exact absurd hkc (hnotFree hcounter hk)
      · rw [hkj, hji]
        rfl

theorem Op.keepsNumbers (op : Op) (i : ℕ) (o : Outlet) (ho : o.Numbered) :
    (op.atOrder i).wp numberDiscipline (fun _ => numberDiscipline.Commits) .empty o := by
  have hempty : Numbering i .empty o := ⟨rfl, fun h => absurd rfl h, .alone rfl rfl⟩
  have hwp := Txn.zoom_wp (orderZoom i) (D := numberDiscipline)
    (P := fun l o => Numbering i l o ∧ o.Numbered) op.numberStatements
    (fun l o o' hrely h => ⟨numbering_stable i l o o' hrely h.1, hrely.inv h.2⟩)
    (fun _ _ _ hstmt _ h => ⟨h.1.add hstmt, h.2⟩) (op.staysEven .empty rfl) ⟨hempty, ho⟩
  refine Txn.wp_mono hwp fun _ l o h _ => ?_
  obtain ⟨l, rfl, ⟨hnumbering, ho⟩, heven⟩ := h
  exact hnumbering.commits heven ho

/-! ### Runs -/

/-- A transaction that some request about an order of the outlet starts. -/
def IsOutletRequest (p : OutletTx Unit) : Prop := ∃ (op : Op) (i : ℕ), p = op.atOrder i

/-- The number of an order's bill. -/
def Outlet.billNumber (o : Outlet) (i : ℕ) : Option ℕ := (o.orders i).bill.bind (·.billNumber)

/-- **An outlet's bill numbers have no gaps.** Whatever requests about its orders interleave,
and wherever they are rolled back, in every committed state the finalized bills are numbered
from one to the counter's last number, each number once, no open bill has one, and a bill that
has one keeps it. -/
theorem bill_numbers_gapless {o : Outlet}
    {S S' : System Outlet OutletKey OutletRead OutletWrite ApiError}
    {es es' : List (Event Outlet OutletKey OutletRead OutletWrite ApiError)} (ho : o.Numbered)
    (h : Run IsOutletRequest (fun _ _ => True) (.start o) es S)
    (h' : Run IsOutletRequest (fun _ _ => True) S es' S') :
    S'.store.Numbered ∧ ∀ i n, S.store.billNumber i = some n → S'.store.billNumber i = some n := by
  have hP : ∀ p, IsOutletRequest p → ∀ o, numberDiscipline.inv o →
      p.wp numberDiscipline (fun _ => numberDiscipline.Commits) .empty o := by
    rintro p ⟨op, i, rfl⟩ o ho
    exact op.keepsNumbers i o ho
  have hC : ∀ (S : System Outlet OutletKey OutletRead OutletWrite ApiError) e, True →
      numberDiscipline.Respects S e := by
    intro S e _
    cases e with
    | stmt t env => exact fun _ _ _ _ _ => trivial
    | commit t => exact fun _ _ => ⟨trivial, fun _ _ _ _ _ _ => trivial⟩
    | begin p => trivial
    | rollback t => trivial
  have hS := Discipline.sound hP hC (.start ho) h
  have hS' := Discipline.sound hP hC hS.1 h'
  refine ⟨hS'.1.inv, fun i n hn => ?_⟩
  have hnumber : ∀ o : Outlet, o.billNumber i = (o.mark i).bind (·.2) := fun o => by
    rw [Outlet.billNumber, Outlet.mark, Store.mark, Option.bind_map]
    rfl
  rw [hnumber] at hn ⊢
  obtain ⟨⟨status, number⟩, hmark, rfl⟩ := Option.bind_eq_some_iff.mp hn
  cases status with
  | «open» => exact absurd (hS.1.inv.opened i _ hmark) (by simp)
  | finalized => exact congrArg (·.bind (·.2)) (hS'.2 i _ hmark)

/-- The sample order with its bill open, row by row. -/
def billedOrder : Store :=
  let note := "Composition taxable person, not eligible to collect tax on supplies"
  { sampleOrder with
    bill := some
      { id := 105, outletId := 1, billNumber := none
        subtotalMinor := 24046, taxMinor := 0, taxBreakdown := some ⟨[], [note], none⟩
        pricesIncludeTax := false
        discountMinor := none, discountReason := none, roundOffMinor := none
        status := .open
        createdByStaffId := some 1, finalizedByStaffId := none, finalizedAt := none } }

/-- An outlet of which every order is this one. -/
def sampleOutlet : Outlet := ⟨sampleOrder, fun _ => billedOrder⟩

/-- Two of its orders are settled; the second waits for the counter until the first commits. -/
def settleFirst : List (Event Outlet OutletKey OutletRead OutletWrite ApiError) :=
  .begin (settleSample.atOrder 0) :: .begin (settleSample.atOrder 1) :: turns 0 28 0 ++
    turns 1 12 100 ++ [.commit 0]

def settleSecond : List (Event Outlet OutletKey OutletRead OutletWrite ApiError) :=
  turns 1 16 200 ++ [.commit 1]

theorem sampleOutlet_numbered : sampleOutlet.Numbered := by
  have hmark : ∀ i, sampleOutlet.mark i = some (.open, none) := fun _ => by rfl
  refine ⟨fun n => ⟨?_, fun hn => ?_⟩, fun i j n hi => ?_, fun i n hi => ?_, fun i n hi => ?_⟩
  · rintro ⟨i, hi⟩
    rw [hmark] at hi
    cases hi
  · have hlast : sampleOutlet.lastNumber = 0 := by rfl
    omega
  all_goals
    rw [hmark] at hi
    cases hi
  rfl

theorem bill_numbers_gapless_sample : ∃ S S',
    Run IsOutletRequest (fun _ _ => True) (.start sampleOutlet) settleFirst S ∧
    Run IsOutletRequest (fun _ _ => True) S settleSecond S' ∧
    S.store.billNumber 0 = some 1 ∧ S'.store.billNumber 0 = some 1 ∧
    S'.store.billNumber 1 = some 2 := by
  have hfirst : ((System.start sampleOutlet).play settleFirst).map (·.store.billNumber 0) =
      some (some 1) := by rfl
  have hsecond : (((System.start sampleOutlet).play settleFirst).bind
      fun S => S.play settleSecond).map (·.store.billNumber 1) = some (some 2) := by rfl
  obtain ⟨S, hplay, hrun, hnumber⟩ := Run.of_play_map (P := IsOutletRequest) hfirst fun p hp => by
    simp only [settleFirst, List.cons_append, List.mem_cons, List.mem_append, begin_notMem_turns,
      Event.begin.injEq, reduceCtorEq, List.not_mem_nil, or_false] at hp
    rcases hp with rfl | rfl
    · exact ⟨_, _, rfl⟩
    · exact ⟨_, _, rfl⟩
  rw [hplay, Option.bind_some] at hsecond
  obtain ⟨S', _, hrun', hnumber'⟩ := Run.of_play_map (P := IsOutletRequest) hsecond fun p hp => by
    simp [settleSecond, begin_notMem_turns] at hp
  have h := bill_numbers_gapless sampleOutlet_numbered hrun hrun'
  exact ⟨S, S', hrun, hrun', hnumber, h.2 0 1 hnumber, hnumber'⟩

end RestiqBackend
