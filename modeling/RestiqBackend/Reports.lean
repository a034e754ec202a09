import Mathlib.Algebra.BigOperators.Group.List.Basic
import Mathlib.Algebra.Group.Int.Defs
import Mathlib.Algebra.Order.Ring.Int
import Mathlib.Tactic.Ring
import RestiqBackend.Paging

/-!
Payments history (`src/admin/reports/reports.service.ts`) and the day at a glance
(`src/admin/dashboard/dashboard.service.ts`).

Three readers count the same money: the totals of the report over all bills that its filter
leaves, the rows of its pages, and the dashboard, which adds up the bills of an outlet's own
calendar day. None of them stores a total; each has the formula of a bill's total and of a
note's amount in a copy of its own. Money is counted in whole minor units, without a bound.
-/

namespace RestiqBackend.Reports

open Keyset
open Paging (Date Platform Failure OutletRow PaymentsQuery showPage given encodeDate
  paymentsWhere newest)

/-! ### Rows -/

structure Bill extends Paging.Bill where
  billNumber : ℕ
  orderId : String
  subtotalMinor : ℤ
  discountMinor : Option ℤ
  discountReason : Option String
  taxMinor : ℤ
  pricesIncludeTax : Bool
  roundOffMinor : Option ℤ

structure Tender where
  billId : String
  method : TenderMethod
  amountMinor : ℤ
  deriving DecidableEq

structure CreditNote where
  id : String
  originalBillId : String
  method : Option TenderMethod
  reason : String
  subtotalMinor : ℤ
  taxMinor : ℤ
  deriving DecidableEq

structure Outlet extends OutletRow where
  name : String
  timezone : String
  deletedAt : Option Date
  deriving DecidableEq

structure Order where
  outletId : String
  tenantId : String
  status : OrderStatus
  deriving DecidableEq

/-- The tables that the readers share. -/
structure Books where
  bills : List Bill
  tenders : List Tender
  creditNotes : List CreditNote
  outlets : List Outlet
  orders : List Order

/-- `bill.tenders`, as a relation is read. -/
def Books.tendersOf (books : Books) (bill : Bill) : List Tender :=
  books.tenders.filter (·.billId = bill.id)

def Books.creditNotesOf (books : Books) (bill : Bill) : List CreditNote :=
  books.creditNotes.filter (·.originalBillId = bill.id)

/-! ### The report -/

def computeTotalMinor (subtotalMinor taxMinor discountMinor : ℤ) (pricesIncludeTax : Bool) : ℤ :=
  if pricesIncludeTax then subtotalMinor - discountMinor
  else subtotalMinor + taxMinor - discountMinor

structure PaymentCreditNoteRow where
  id : String
  amountMinor : ℤ
  method : Option TenderMethod
  reason : String
  deriving DecidableEq

structure PaymentRow where
  billId : String
  billNumber : ℕ
  finalizedAt : Option Date
  outletId : String
  orderId : String
  subtotalMinor : ℤ
  discountMinor : Option ℤ
  discountReason : Option String
  taxMinor : ℤ
  totalMinor : ℤ
  roundOffMinor : Option ℤ
  tenders : List (TenderMethod × ℤ)
  creditNotes : List PaymentCreditNoteRow
  deriving DecidableEq

structure PaymentsTotals where
  netMinor : ℤ
  count : ℕ
  subtotalMinor : ℤ
  discountMinor : ℤ
  taxMinor : ℤ
  totalMinor : ℤ
  roundOffMinor : ℤ
  tenderedMinor : ℤ
  refundedMinor : ℤ
  deriving DecidableEq

def toCreditNoteRow (pricesIncludeTax : Bool) (note : CreditNote) : PaymentCreditNoteRow where
  id := note.id
  amountMinor := if pricesIncludeTax then note.subtotalMinor else note.subtotalMinor + note.taxMinor
  method := note.method
  reason := note.reason

def toPaymentRow (books : Books) (bill : Bill) : PaymentRow where
  billId := bill.id
  billNumber := bill.billNumber
  finalizedAt := bill.finalizedAt
  outletId := bill.outletId
  orderId := bill.orderId
  subtotalMinor := bill.subtotalMinor
  discountMinor := bill.discountMinor
  discountReason := bill.discountReason
  taxMinor := bill.taxMinor
  totalMinor := computeTotalMinor bill.subtotalMinor bill.taxMinor (bill.discountMinor.getD 0)
    bill.pricesIncludeTax
  roundOffMinor := bill.roundOffMinor
  tenders := (books.tendersOf bill).map fun t => (t.method, t.amountMinor)
  creditNotes := (books.creditNotesOf bill).map (toCreditNoteRow bill.pricesIncludeTax)

/-- `pricesIncludeTaxByBillId`: of a bill that is not there, prices do not include tax. -/
def pricesIncludeTaxOf (bills : List Bill) (billId : String) : Bool :=
  ((bills.reverse.find? (·.id = billId)).map (·.pricesIncludeTax)).getD false

/-- The totals of all bills that a filter leaves, whatever page of them is shown. -/
def totalsFor (books : Books) (bills : List Bill) : PaymentsTotals :=
  let billIds := bills.map (·.id)
  let tenders := books.tenders.filter fun t => billIds.contains t.billId
  let creditNotes := books.creditNotes.filter fun note => billIds.contains note.originalBillId
  let totalMinor := (bills.map fun bill => computeTotalMinor bill.subtotalMinor bill.taxMinor
    (bill.discountMinor.getD 0) bill.pricesIncludeTax).sum
  let refundedMinor := (creditNotes.map fun note =>
    if pricesIncludeTaxOf bills note.originalBillId then note.subtotalMinor
    else note.subtotalMinor + note.taxMinor).sum
  { netMinor := totalMinor - refundedMinor
    count := bills.length
    subtotalMinor := (bills.map (·.subtotalMinor)).sum
    discountMinor := (bills.map (·.discountMinor.getD 0)).sum
    taxMinor := (bills.map (·.taxMinor)).sum
    totalMinor
    roundOffMinor := (bills.map (·.roundOffMinor.getD 0)).sum
    tenderedMinor := (tenders.map (·.amountMinor)).sum
    refundedMinor }

structure PaymentsListResult where
  currency : String
  items : List PaymentRow
  nextCursor : Option String
  totals : PaymentsTotals
  deriving DecidableEq

def currencyForCountry (country : TaxCountry) : String :=
  if country = .IN then "INR" else "AUD"

structure Tenant where
  id : String
  country : TaxCountry

def listPayments (p : Platform) (books : Books) (tenant : Tenant) (query : PaymentsQuery) :
    Except Failure PaymentsListResult := do
  let limit ← p.parseLimit 50 200 query.limit
  let cursor ← Paging.position (p.decodeCursor "finalizedAt") (given query.cursor)
  Paging.raiseIf ((given query.outletId).any (fun o =>
    !(books.outlets.map (·.toOutletRow)).contains ⟨o, tenant.id⟩) = true)
    (.notFound "No such outlet")
  let from_ ← p.filterDate query.fromDate
  let to_ ← p.filterDate query.toDate
  let after ← Paging.position p.cursorDate cursor
  let bills := books.bills.filter fun b =>
    paymentsWhere tenant.id query.outletId from_ to_ b.toBill
  let page := showPage newest (·.position) (encodeDate "finalizedAt") bills limit after
  pure ⟨currencyForCountry tenant.country, page.rows.map (toPaymentRow books), page.nextCursor,
    totalsFor books bills⟩

/-! ### The dashboard -/

structure Day where
  billCount : ℕ
  grossMinor : ℤ
  refundedMinor : ℤ
  byMethod : List (TenderMethod × ℤ)
  deriving DecidableEq

def Day.none : Day := ⟨0, 0, 0, []⟩

/-- Adds to the amount of a method, which keeps its place, or begins one at the end. -/
def addMethod (byMethod : List (TenderMethod × ℤ)) (tender : Tender) : List (TenderMethod × ℤ) :=
  if byMethod.any (·.1 = tender.method) then byMethod.map fun entry =>
    if entry.1 = tender.method then (entry.1, entry.2 + tender.amountMinor) else entry
  else byMethod ++ [(tender.method, tender.amountMinor)]

def Day.add (books : Books) (day : Day) (bill : Bill) : Day where
  billCount := day.billCount + 1
  grossMinor := day.grossMinor + if bill.pricesIncludeTax
    then bill.subtotalMinor - bill.discountMinor.getD 0
    else bill.subtotalMinor + bill.taxMinor - bill.discountMinor.getD 0
  refundedMinor := (books.creditNotesOf bill).foldl (fun refunded note => refunded +
    if bill.pricesIncludeTax then note.subtotalMinor else note.subtotalMinor + note.taxMinor)
    day.refundedMinor
  byMethod := (books.tendersOf bill).foldl addMethod day.byMethod

structure OutletTodayView where
  billCount : ℕ
  grossMinor : ℤ
  refundedMinor : ℤ
  netMinor : ℤ
  averageBillMinor : ℤ
  openOrderCount : ℕ
  byMethod : List (TenderMethod × ℤ)
  deriving DecidableEq

/-- How far back the dashboard looks: any timezone's today began since. -/
def recentMs : ℤ := 48 * 60 * 60 * 1000

section Dashboard

variable (localDateKey : Date → String → String)

/-- The outlets of a tenant that the dashboard shows. -/
def Books.shown (books : Books) (tenant : Tenant) : List Outlet :=
  books.outlets.filter fun o => o.tenantId = tenant.id ∧ o.deletedAt = none

def recentBills (books : Books) (tenant : Tenant) (now : Date) : List Bill :=
  books.bills.filter fun b => b.tenantId = tenant.id ∧ b.status = .finalized ∧
    b.finalizedAt.any (fun at_ => now.val - recentMs ≤ at_.val) = true

/-- A bill that was finalised on the calendar day it now is at its outlet. -/
def isToday (outlets : List Outlet) (now : Date) (bill : Bill) : Bool :=
  match (outlets.reverse.find? (·.id = bill.outletId)).map (·.timezone) with
  | none => false
  | some timezone => timezone ≠ "" && bill.finalizedAt.any fun at_ =>
      localDateKey at_ timezone = localDateKey now timezone

def todayByOutlet (books : Books) (outlets : List Outlet) (now : Date) (bills : List Bill) :
    String → Option Day :=
  bills.foldl (fun days bill =>
    if isToday localDateKey outlets now bill then
      Function.update days bill.outletId
        (some (((days bill.outletId).getD Day.none).add books bill))
    else days) fun _ => Option.none

/-- `Math.round` of a quotient: the nearest integer, upwards in the middle. -/
def roundedQuotient (n : ℤ) (d : ℕ) : ℤ := (2 * n + d) / (2 * d)

def todayFor (day : Option Day) (openOrderCount : ℕ) : OutletTodayView :=
  let day := day.getD Day.none
  { billCount := day.billCount
    grossMinor := day.grossMinor
    refundedMinor := day.refundedMinor
    netMinor := day.grossMinor - day.refundedMinor
    averageBillMinor :=
      if 0 < day.billCount then roundedQuotient day.grossMinor day.billCount else 0
    openOrderCount
    byMethod := day.byMethod.mergeSort fun a b => decide (b.2 ≤ a.2) }

structure OutletDashboardView where
  outletId : String
  outletName : String
  today : OutletTodayView
  deriving DecidableEq

def openOrdersOf (books : Books) (tenant : Tenant) (outletId : String) : ℕ :=
  (books.orders.filter fun o => o.tenantId = tenant.id ∧ o.outletId = outletId ∧
    (o.status = .open ∨ o.status = .sent)).length

/-- `DashboardService.get`, as far as the day at a glance. -/
def dashboard (books : Books) (tenant : Tenant) (now : Date) : List OutletDashboardView :=
  let outlets := books.shown tenant
  let days := todayByOutlet localDateKey books outlets now (recentBills books tenant now)
  outlets.map fun outlet =>
    ⟨outlet.id, outlet.name, todayFor (days outlet.id) (openOrdersOf books tenant outlet.id)⟩

/-- The bills of an outlet that the dashboard counts. -/
def counts (books : Books) (tenant : Tenant) (now : Date) (outletId : String) (bill : Bill) :
    Bool :=
  bill.tenantId = tenant.id && bill.status = .finalized &&
    bill.finalizedAt.any (fun at_ => now.val - recentMs ≤ at_.val) &&
    isToday localDateKey (books.shown tenant) now bill && bill.outletId = outletId

end Dashboard

/-! ### Sums -/

/-- What the rows of the report add up to. -/
def addUp (rows : List PaymentRow) : PaymentsTotals :=
  let totalMinor := (rows.map (·.totalMinor)).sum
  let refundedMinor := (rows.map fun row => (row.creditNotes.map (·.amountMinor)).sum).sum
  { netMinor := totalMinor - refundedMinor
    count := rows.length
    subtotalMinor := (rows.map (·.subtotalMinor)).sum
    discountMinor := (rows.map (·.discountMinor.getD 0)).sum
    taxMinor := (rows.map (·.taxMinor)).sum
    totalMinor
    roundOffMinor := (rows.map (·.roundOffMinor.getD 0)).sum
    tenderedMinor := (rows.map fun row => (row.tenders.map (·.2)).sum).sum
    refundedMinor }

/-- It does not matter in which order they are shown. -/
theorem addUp_perm {rows rows' : List PaymentRow} (h : rows.Perm rows') :
    addUp rows = addUp rows' := by
  simp only [addUp, h.length_eq, (h.map _).sum_eq]

/-- Summing what belongs to each of the keys in turn is summing what belongs to any of them. -/
theorem sum_by_key {κ α : Type} [DecidableEq κ] (key : α → κ) (rows : List α) (f : α → ℤ)
    {keys : List κ} (h : keys.Nodup) :
    (keys.map fun k => ((rows.filter (key · = k)).map f).sum).sum =
      ((rows.filter fun row => keys.contains (key row)).map f).sum := by
  induction rows with
  | nil => simp
  | cons row rows ih =>
      -- The row is counted under its own key, which is there once or not at all.
      have hrow : (keys.map fun k => if key row = k then f row else 0).sum =
          if keys.contains (key row) then f row else 0 := by
        clear ih
        induction keys with
        | nil => rfl
        | cons k keys ih =>
            obtain ⟨hk, hkeys⟩ := List.nodup_cons.mp h
            rw [List.map_cons, List.sum_cons, ih hkeys, List.contains_cons]
            by_cases heq : key row = k
            · simp [heq, hk]
            · simp [heq]
      have hsplit : ∀ k, (((row :: rows).filter (key · = k)).map f).sum =
          (if key row = k then f row else 0) + ((rows.filter (key · = k)).map f).sum := by
        intro k
        rw [List.filter_cons]
        by_cases heq : key row = k <;> simp [heq]
      rw [List.map_congr_left fun k _ => hsplit k, List.sum_map_add, ih, hrow, List.filter_cons]
      split <;> simp

variable {books : Books} {bills : List Bill}

theorem pricesIncludeTaxOf_eq (hids : (bills.map (·.id)).Nodup) {bill : Bill}
    (hbill : bill ∈ bills) : pricesIncludeTaxOf bills bill.id = bill.pricesIncludeTax := by
  have hfound : bills.reverse.find? (·.id = bill.id) = some bill := by
    cases hfind : bills.reverse.find? (·.id = bill.id) with
    | none =>
        have hnone := List.find?_eq_none.mp hfind bill (List.mem_reverse.mpr hbill)
        exact absurd (decide_eq_true rfl) hnone
    | some other =>
        have hid : other.id = bill.id := by simpa using List.find?_some hfind
        have hother := List.mem_reverse.mp (List.mem_of_find?_eq_some hfind)
        rw [List.inj_on_of_nodup_map hids hother hbill hid]
  rw [pricesIncludeTaxOf, hfound]
  rfl

/-- The rows of all bills add up to the totals of the report. -/
theorem addUp_rows (hids : (bills.map (·.id)).Nodup) :
    addUp (bills.map (toPaymentRow books)) = totalsFor books bills := by
  have htenders : (bills.map fun b => ((books.tendersOf b).map (·.amountMinor)).sum).sum =
      ((books.tenders.filter fun t => (bills.map (·.id)).contains t.billId).map
        (·.amountMinor)).sum := by
    rw [← sum_by_key (·.billId) books.tenders (·.amountMinor) hids, List.map_map]
    rfl
  have hnotes : (bills.map fun b => ((books.creditNotesOf b).map fun note =>
        (toCreditNoteRow b.pricesIncludeTax note).amountMinor).sum).sum =
      ((books.creditNotes.filter fun note =>
        (bills.map (·.id)).contains note.originalBillId).map fun note =>
          (toCreditNoteRow (pricesIncludeTaxOf bills note.originalBillId) note).amountMinor).sum := by
    rw [← sum_by_key (·.originalBillId) books.creditNotes _ hids, List.map_map]
    refine congrArg List.sum (List.map_congr_left fun b hb => ?_)
    refine congrArg List.sum (List.map_congr_left fun note hnote => ?_)
    have hof : note.originalBillId = b.id := of_decide_eq_true (List.mem_filter.mp hnote).2
    rw [hof, pricesIncludeTaxOf_eq hids hb]
  have hrefunded : ((bills.map (toPaymentRow books)).map fun row =>
      (row.creditNotes.map (·.amountMinor)).sum).sum = (totalsFor books bills).refundedMinor := by
    rw [List.map_map]
    refine Eq.trans (congrArg List.sum (List.map_congr_left fun b _ => ?_)) hnotes
    rw [Function.comp_apply, toPaymentRow, List.map_map]
    rfl
  have htendered : ((bills.map (toPaymentRow books)).map fun row =>
      (row.tenders.map (·.2)).sum).sum = (totalsFor books bills).tenderedMinor := by
    rw [List.map_map]
    refine Eq.trans (congrArg List.sum (List.map_congr_left fun b _ => ?_)) htenders
    rw [Function.comp_apply, toPaymentRow, List.map_map]
    rfl
  dsimp only [addUp]
  rw [hrefunded, htendered]
  simp only [List.map_map, List.length_map]
  rfl

/-! ### The report tells one story -/

theorem listPayments_ok {p : Platform} {tenant : Tenant} {query : PaymentsQuery}
    {result : PaymentsListResult} (h : listPayments p books tenant query = .ok result) :
    ∃ from_ to_, p.filterDate query.fromDate = .ok from_ ∧ p.filterDate query.toDate = .ok to_ ∧
      result.totals = totalsFor books (books.bills.filter fun b =>
        paymentsWhere tenant.id query.outletId from_ to_ b.toBill) := by
  obtain ⟨limit, -, h⟩ := Serial.bind_ok h
  obtain ⟨cursor, -, h⟩ := Serial.bind_ok h
  obtain ⟨_, -, h⟩ := Serial.bind_ok h
  obtain ⟨from_, hfrom, h⟩ := Serial.bind_ok h
  obtain ⟨to_, hto, h⟩ := Serial.bind_ok h
  obtain ⟨after, -, h⟩ := Serial.bind_ok h
  cases h
  exact ⟨from_, to_, hfrom, hto, rfl⟩

/-- The rows of a page and the cursor of the next one. -/
def rowPages (p : Platform) (books : Books) (tenant : Tenant) (query : PaymentsQuery)
    (cursor : Option String) : Except Failure (List PaymentRow × Option String) :=
  (listPayments p books tenant { query with cursor }).map fun x => (x.items, x.nextCursor)

/-- The bills that the rows of a page are of. -/
def billPages (p : Platform) (books : Books) (tenant : Tenant) (query : PaymentsQuery)
    (cursor : Option String) : Except Failure (List Bill × Option String) := do
  let limit ← p.parseLimit 50 200 query.limit
  let cursor ← Paging.position (p.decodeCursor "finalizedAt") (given cursor)
  Paging.raiseIf ((given query.outletId).any (fun o =>
    !(books.outlets.map (·.toOutletRow)).contains ⟨o, tenant.id⟩) = true)
    (.notFound "No such outlet")
  let from_ ← p.filterDate query.fromDate
  let to_ ← p.filterDate query.toDate
  let after ← Paging.position p.cursorDate cursor
  let bills := books.bills.filter fun b =>
    paymentsWhere tenant.id query.outletId from_ to_ b.toBill
  let page := showPage newest (·.position) (encodeDate "finalizedAt") bills limit after
  pure (page.rows, page.nextCursor)

theorem map_bind {ε α β γ : Type} (f : β → γ) (x : Except ε α) (g : α → Except ε β) :
    (x >>= g).map f = x >>= fun a => (g a).map f := by
  cases x <;> rfl

theorem rowPages_eq (p : Platform) (books : Books) (tenant : Tenant) (query : PaymentsQuery)
    (cursor : Option String) : rowPages p books tenant query cursor =
      (billPages p books tenant query cursor).map fun shown =>
        (shown.1.map (toPaymentRow books), shown.2) := by
  unfold rowPages listPayments billPages
  simp only [map_bind]
  rfl

/-- Whoever follows the cursors has seen the row of every bill that the filter leaves, once. -/
theorem rowPages_walked (p : Platform) (hids : (books.bills.map (·.id)).Nodup) (tenant : Tenant)
    (query : PaymentsQuery) {first : PaymentsListResult}
    (hfirst : listPayments p books tenant { query with cursor := none } = .ok first)
    {from_ to_ : Option Date} (hfrom : p.filterDate query.fromDate = .ok from_)
    (hto : p.filterDate query.toDate = .ok to_) :
    ∃ n rows, walk (rowPages p books tenant query) n none = some rows ∧
      rows.Perm ((books.bills.filter fun b =>
        paymentsWhere tenant.id query.outletId from_ to_ b.toBill).map (toPaymentRow books)) := by
  obtain ⟨limit, hlimit, hfirst⟩ := Serial.bind_ok hfirst
  obtain ⟨_, _, hfirst⟩ := Serial.bind_ok hfirst
  obtain ⟨_, houtlet, _⟩ := Serial.bind_ok hfirst
  have hpages : ∀ after, billPages p books tenant query (after.map (encodeDate "finalizedAt")) =
      .ok ((page newest (fun b : Bill => b.position) (books.bills.filter fun b =>
          paymentsWhere tenant.id query.outletId from_ to_ b.toBill) limit after).1,
        (page newest (fun b : Bill => b.position) (books.bills.filter fun b =>
          paymentsWhere tenant.id query.outletId from_ to_ b.toBill) limit after).2.map
          (encodeDate "finalizedAt")) := by
    intro after
    obtain ⟨cursor, hcursor, hafter⟩ := Paging.position_cursor p Paging.finalizedAt_ne_id after
    simp only [billPages, bind, Except.bind, hlimit, hcursor, houtlet, hfrom, hto, hafter]
    rfl
  obtain ⟨n, found, hwalk, hperm, -⟩ := walksOnce_of_pages Paging.newest_order
    (Paging.keys_nodup (fun _ => rfl) hids _) (Paging.parseLimit_pos (by decide) hlimit) hpages
  refine ⟨n, found.map (toPaymentRow books), ?_, hperm.map _⟩
  have hrows : rowPages p books tenant query = fun c => (billPages p books tenant query c).map
      fun shown => (shown.1.map (toPaymentRow books), shown.2) :=
    funext (rowPages_eq p books tenant query)
  rw [hrows, walk_map, hwalk, Option.map_some]

/-! ### The dashboard tells it too -/

/-- Adding to the entry of one key, which is there. -/
theorem sum_map_at {κ : Type} [DecidableEq κ] (key : κ) (amount : ℤ) {entries : List (κ × ℤ)}
    (hkeys : (entries.map (·.1)).Nodup) (hkey : key ∈ entries.map (·.1)) :
    ((entries.map fun entry => if entry.1 = key then (entry.1, entry.2 + amount) else entry).map
      (·.2)).sum = (entries.map (·.2)).sum + amount := by
  induction entries with
  | nil => exact absurd hkey List.not_mem_nil
  | cons entry entries ih =>
      obtain ⟨hnew, hrest⟩ := List.nodup_cons.mp hkeys
      simp only [List.map_cons, List.sum_cons]
      by_cases heq : entry.1 = key
      · -- The key is not among the rest, which stays as it is.
        have hsame : ∀ other ∈ entries,
            (if other.1 = key then (other.1, other.2 + amount) else other) = other :=
          fun other hother => if_neg fun hother' =>
            hnew (List.mem_map.mpr ⟨other, hother, hother'.trans heq.symm⟩)
        rw [List.map_congr_left hsame, List.map_id', if_pos heq]
        ring
      · have hkey : key ∈ entries.map (·.1) :=
          (List.mem_cons.mp hkey).resolve_left fun h => heq h.symm
        rw [ih hrest hkey, if_neg heq, add_assoc]

theorem addMethod_sum (byMethod : List (TenderMethod × ℤ)) (tender : Tender)
    (hkeys : (byMethod.map (·.1)).Nodup) :
    ((addMethod byMethod tender).map (·.2)).sum =
        (byMethod.map (·.2)).sum + tender.amountMinor ∧
      ((addMethod byMethod tender).map (·.1)).Nodup := by
  unfold addMethod
  split
  next hany =>
    obtain ⟨entry, hentry, hmethod⟩ := List.any_eq_true.mp hany
    refine ⟨sum_map_at tender.method tender.amountMinor hkeys
      (List.mem_map.mpr ⟨entry, hentry, of_decide_eq_true hmethod⟩), ?_⟩
    have hsame : (byMethod.map fun entry => if entry.1 = tender.method
        then (entry.1, entry.2 + tender.amountMinor) else entry).map (·.1) =
        byMethod.map (·.1) := by
      rw [List.map_map]
      refine List.map_congr_left fun entry _ => ?_
      simp only [Function.comp_apply]
      split <;> rfl
    rw [hsame]
    exact hkeys
  next hnew =>
    refine ⟨by simp, ?_⟩
    rw [List.map_append, List.nodup_append]
    refine ⟨hkeys, List.nodup_singleton _, fun method hmethod method' hmethod' heq => hnew ?_⟩
    obtain ⟨entry, hentry, rfl⟩ := List.mem_map.mp hmethod
    rw [List.map_singleton, List.mem_singleton] at hmethod'
    exact List.any_eq_true.mpr ⟨entry, hentry, decide_eq_true (heq.trans hmethod')⟩

theorem addMethods_sum (tenders : List Tender) (byMethod : List (TenderMethod × ℤ))
    (hkeys : (byMethod.map (·.1)).Nodup) :
    ((tenders.foldl addMethod byMethod).map (·.2)).sum =
        (byMethod.map (·.2)).sum + (tenders.map (·.amountMinor)).sum ∧
      ((tenders.foldl addMethod byMethod).map (·.1)).Nodup := by
  induction tenders generalizing byMethod with
  | nil => exact ⟨(add_zero _).symm, hkeys⟩
  | cons tender tenders ih =>
      obtain ⟨hsum, hkeys⟩ := addMethod_sum byMethod tender hkeys
      obtain ⟨hrest, hkeys⟩ := ih (addMethod byMethod tender) hkeys
      rw [List.foldl_cons, hrest, hsum, List.map_cons, List.sum_cons, add_assoc]
      exact ⟨rfl, hkeys⟩

theorem refunded_foldl (notes : List CreditNote) (pricesIncludeTax : Bool) (refunded : ℤ) :
    notes.foldl (fun refunded note => refunded +
      if pricesIncludeTax then note.subtotalMinor else note.subtotalMinor + note.taxMinor) refunded =
      refunded + ((notes.map (toCreditNoteRow pricesIncludeTax)).map (·.amountMinor)).sum := by
  induction notes generalizing refunded with
  | nil => exact (add_zero _).symm
  | cons note notes ih =>
      rw [List.foldl_cons, ih, List.map_cons, List.map_cons, List.sum_cons, add_assoc]
      rfl

/-- A day has counted what these rows add up to. -/
structure Day.Counts (day : Day) (rows : List PaymentRow) : Prop where
  billCount : day.billCount = (addUp rows).count
  gross : day.grossMinor = (addUp rows).totalMinor
  refunded : day.refundedMinor = (addUp rows).refundedMinor
  tendered : (day.byMethod.map (·.2)).sum = (addUp rows).tenderedMinor
  methods : (day.byMethod.map (·.1)).Nodup

theorem Day.none_counts : Day.none.Counts [] := ⟨rfl, rfl, rfl, rfl, List.nodup_nil⟩

theorem Day.Counts.add {day : Day} {rows : List PaymentRow} (h : day.Counts rows) (bill : Bill) :
    (day.add books bill).Counts (rows ++ [toPaymentRow books bill]) := by
  obtain ⟨hsum, hkeys⟩ := addMethods_sum (books.tendersOf bill) day.byMethod h.methods
  refine ⟨?_, ?_, ?_, ?_, hkeys⟩
  · simp [Day.add, addUp, h.billCount]
  · simp [Day.add, addUp, h.gross, toPaymentRow, computeTotalMinor]
  · change (books.creditNotesOf bill).foldl _ day.refundedMinor = _
    rw [refunded_foldl, h.refunded]
    simp [addUp, toPaymentRow]
  · change (((books.tendersOf bill).foldl addMethod day.byMethod).map (·.2)).sum = _
    rw [hsum, h.tendered]
    simp [addUp, toPaymentRow, Function.comp_def]

theorem days_count (bills : List Bill) {day : Day} {rows : List PaymentRow} (h : day.Counts rows) :
    (bills.foldl (Day.add books) day).Counts (rows ++ bills.map (toPaymentRow books)) := by
  induction bills generalizing day rows with
  | nil =>
      rw [List.map_nil, List.append_nil]
      exact h
  | cons bill bills ih =>
      rw [List.map_cons, List.append_cons]
      exact ih (h.add bill)

variable (localDateKey : Date → String → String)

/-- What a pass over the bills leaves of an outlet's day: its own bills of today, in turn. -/
theorem todayByOutlet_eq (outlets : List Outlet) (now : Date) (bills : List Bill)
    (outletId : String) :
    (todayByOutlet localDateKey books outlets now bills outletId).getD Day.none =
      (bills.filter fun b => isToday localDateKey outlets now b && b.outletId = outletId).foldl
        (Day.add books) Day.none := by
  unfold todayByOutlet
  suffices hdays : ∀ days : String → Option Day,
      ((bills.foldl (fun days bill => if isToday localDateKey outlets now bill then
          Function.update days bill.outletId
            (some (((days bill.outletId).getD Day.none).add books bill))
        else days) days) outletId).getD Day.none =
      (bills.filter fun b => isToday localDateKey outlets now b && b.outletId = outletId).foldl
        (Day.add books) ((days outletId).getD Day.none) from hdays fun _ => Option.none
  induction bills with
  | nil => exact fun _ => rfl
  | cons bill bills ih =>
      intro days
      rw [List.foldl_cons, ih, List.filter_cons]
      by_cases htoday : isToday localDateKey outlets now bill = true
      · by_cases hof : bill.outletId = outletId
        · subst hof
          simp [htoday]
        · simp [htoday, hof, Function.update_of_ne (Ne.symm hof)]
      · simp [htoday]

/-- A bill's tenders are its total with its round-off. -/
def Balanced (books : Books) (bill : Bill) : Prop :=
  ((books.tendersOf bill).map (·.amountMinor)).sum =
    computeTotalMinor bill.subtotalMinor bill.taxMinor (bill.discountMinor.getD 0)
      bill.pricesIncludeTax + bill.roundOffMinor.getD 0

instance (books : Books) (bill : Bill) : Decidable (Balanced books bill) :=
  inferInstanceAs (Decidable (_ = _))

/-- Where every bill balances, so do their totals. -/
theorem totalsFor_balanced (hids : (bills.map (·.id)).Nodup)
    (h : ∀ bill ∈ bills, Balanced books bill) :
    (totalsFor books bills).tenderedMinor =
      (totalsFor books bills).totalMinor + (totalsFor books bills).roundOffMinor := by
  rw [← addUp_rows hids]
  simp only [addUp, List.map_map, ← List.sum_map_add]
  refine congrArg List.sum (List.map_congr_left fun bill hbill => ?_)
  have hbalanced := h bill hbill
  simp only [Function.comp_apply, toPaymentRow, List.map_map] at hbalanced ⊢
  exact hbalanced

/-- What the dashboard says of an outlet's day is what the report says of its bills. -/
theorem today_eq_totals (hids : (books.bills.map (·.id)).Nodup) (tenant : Tenant) (now : Date)
    {view : OutletDashboardView} (hview : view ∈ dashboard localDateKey books tenant now) :
    view.today.billCount = (totalsFor books (books.bills.filter
        (counts localDateKey books tenant now view.outletId))).count ∧
      view.today.grossMinor = (totalsFor books (books.bills.filter
        (counts localDateKey books tenant now view.outletId))).totalMinor ∧
      view.today.refundedMinor = (totalsFor books (books.bills.filter
        (counts localDateKey books tenant now view.outletId))).refundedMinor ∧
      view.today.netMinor = (totalsFor books (books.bills.filter
        (counts localDateKey books tenant now view.outletId))).netMinor ∧
      (view.today.byMethod.map (·.2)).sum = (totalsFor books (books.bills.filter
        (counts localDateKey books tenant now view.outletId))).tenderedMinor := by
  obtain ⟨outlet, -, rfl⟩ := List.mem_map.mp hview
  have hbills : (recentBills books tenant now).filter (fun b =>
      isToday localDateKey (books.shown tenant) now b && b.outletId = outlet.id) =
      books.bills.filter (counts localDateKey books tenant now outlet.id) := by
    rw [recentBills, List.filter_filter]
    refine List.filter_congr fun b _ => ?_
    rw [counts, Bool.eq_iff_iff]
    simp only [Bool.and_eq_true, decide_eq_true_eq]
    tauto
  have hcounts : (((todayByOutlet localDateKey books (books.shown tenant) now
      (recentBills books tenant now)) outlet.id).getD Day.none).Counts ((books.bills.filter
        (counts localDateKey books tenant now outlet.id)).map (toPaymentRow books)) := by
    rw [todayByOutlet_eq, hbills]
    exact days_count _ Day.none_counts
  have hrows : addUp ((books.bills.filter (counts localDateKey books tenant now outlet.id)).map
        (toPaymentRow books)) =
      totalsFor books (books.bills.filter (counts localDateKey books tenant now outlet.id)) :=
    addUp_rows ((List.filter_sublist.map _).nodup hids)
  obtain ⟨hcount, hgross, hrefunded, htendered, -⟩ := hcounts
  rw [hrows] at hcount hgross hrefunded htendered
  refine ⟨hcount, hgross, hrefunded, ?_, ?_⟩
  · change _ - _ = _ - _
    exact congrArg₂ (· - ·) hgross hrefunded
  · rw [← htendered]
    exact ((List.mergeSort_perm _ _).map _).sum_eq

/-- The dashboard and the payments report tell one story: of the bills that both select, the day
at a glance is what the report's totals say, the tenders are the totals with the round-offs where
they are on every bill, and the rows of all pages add up to the totals that each page shows. -/
theorem one_story (p : Platform) (hids : (books.bills.map (·.id)).Nodup) (tenant : Tenant)
    (query : PaymentsQuery) {first : PaymentsListResult}
    (hfirst : listPayments p books tenant { query with cursor := none } = .ok first) :
    ∃ from_ to_, p.filterDate query.fromDate = .ok from_ ∧ p.filterDate query.toDate = .ok to_ ∧
      (∀ now, ∀ view ∈ dashboard localDateKey books tenant now,
        (∀ b ∈ books.bills, counts localDateKey books tenant now view.outletId b =
          paymentsWhere tenant.id query.outletId from_ to_ b.toBill) →
        view.today.grossMinor = first.totals.totalMinor ∧
        view.today.refundedMinor = first.totals.refundedMinor ∧
        view.today.netMinor = first.totals.netMinor ∧
        (view.today.byMethod.map (·.2)).sum = first.totals.tenderedMinor) ∧
      ((∀ b ∈ books.bills, paymentsWhere tenant.id query.outletId from_ to_ b.toBill = true →
          Balanced books b) →
        first.totals.tenderedMinor = first.totals.totalMinor + first.totals.roundOffMinor) ∧
      (∀ cursor page, listPayments p books tenant { query with cursor } = .ok page →
        page.totals = first.totals) ∧
      ∃ n rows, walk (rowPages p books tenant query) n none = some rows ∧
        addUp rows = first.totals := by
  obtain ⟨from_, to_, hfrom, hto, htotals⟩ := listPayments_ok hfirst
  have hids' : ((books.bills.filter fun b =>
      paymentsWhere tenant.id query.outletId from_ to_ b.toBill).map (·.id)).Nodup :=
    (List.filter_sublist.map _).nodup hids
  refine ⟨from_, to_, hfrom, hto, fun now view hview hsame => ?_, fun hbalanced => ?_,
    fun cursor page hpage => ?_, ?_⟩
  · obtain ⟨-, htoday⟩ := today_eq_totals localDateKey hids tenant now hview
    rw [List.filter_congr hsame] at htoday
    rw [htotals]
    exact htoday
  · rw [htotals]
    refine totalsFor_balanced hids' fun bill hbill => ?_
    obtain ⟨hbill, hselected⟩ := List.mem_filter.mp hbill
    exact hbalanced bill hbill hselected
  · obtain ⟨from', to', hfrom', hto', htotals'⟩ := listPayments_ok hpage
    have heq : from' = from_ := Except.ok.inj (hfrom'.symm.trans hfrom)
    have heq' : to' = to_ := Except.ok.inj (hto'.symm.trans hto)
    rw [htotals', htotals, heq, heq']
  · obtain ⟨n, rows, hwalk, hperm⟩ := rowPages_walked p hids tenant query hfirst hfrom hto
    exact ⟨n, rows, hwalk, by rw [addUp_perm hperm, addUp_rows hids', htotals]⟩

/-- A bill whose prices include tax, with a discount and a refund, and one whose prices do not,
rounded up and paid in two ways. -/
def sampleBooks : Books where
  bills :=
    [{ id := "a", tenantId := "t", outletId := "o", status := .finalized,
       finalizedAt := some Paging.sampleDate,
       finalizedAt_of_finalized := fun _ => Option.isSome_some, billNumber := 1, orderId := "x",
       subtotalMinor := 2200, discountMinor := some 200, discountReason := some "regular",
       taxMinor := 182, pricesIncludeTax := true, roundOffMinor := none },
     { id := "b", tenantId := "t", outletId := "o", status := .finalized,
       finalizedAt := some Paging.sampleDate,
       finalizedAt_of_finalized := fun _ => Option.isSome_some, billNumber := 2, orderId := "y",
       subtotalMinor := 1000, discountMinor := none, discountReason := none,
       taxMinor := 48, pricesIncludeTax := false, roundOffMinor := some 2 }]
  tenders := [⟨"a", .cash, 2000⟩, ⟨"b", .cash, 500⟩, ⟨"b", .upiManual, 550⟩]
  creditNotes := [⟨"n", "a", some .cash, "cold", 1100, 100⟩]
  outlets := [⟨⟨"o", "t"⟩, "Corner", "Asia/Kolkata", none⟩]
  orders := []

/-- Pages of one row, and a calendar of one day. -/
theorem one_story_sample : ∃ first : PaymentsListResult,
    listPayments Paging.samplePlatform sampleBooks ⟨"t", .AU⟩
      ⟨some "o", none, none, some "1", none⟩ = .ok first ∧
    first.totals = ⟨1948, 2, 3200, 200, 230, 3048, 2, 3050, 1100⟩ ∧
    (∀ view ∈ dashboard (fun _ _ => "today") sampleBooks ⟨"t", .AU⟩ Paging.sampleDate,
      view.today.grossMinor = 3048 ∧ view.today.refundedMinor = 1100 ∧
        view.today.netMinor = 1948 ∧ (view.today.byMethod.map (·.2)).sum = 3050) ∧
    first.totals.tenderedMinor = first.totals.totalMinor + first.totals.roundOffMinor ∧
    ∃ n rows, walk (rowPages Paging.samplePlatform sampleBooks ⟨"t", .AU⟩
        ⟨some "o", none, none, some "1", none⟩) n none = some rows ∧
      addUp rows = first.totals := by
  obtain ⟨from_, to_, hfrom, hto, htoday, hbalanced, -, hpages⟩ := one_story
    (fun _ _ => "today") Paging.samplePlatform
    (show (sampleBooks.bills.map (·.id)).Nodup by decide) ⟨"t", .AU⟩
    ⟨some "o", none, none, some "1", none⟩ rfl
  obtain rfl : from_ = none := (Except.ok.inj hfrom).symm
  obtain rfl : to_ = none := (Except.ok.inj hto).symm
  refine ⟨_, rfl, by decide +kernel, fun view hview => ?_, hbalanced ?_, hpages⟩
  · have hshown : sampleBooks.shown ⟨"t", .AU⟩ =
        [⟨⟨"o", "t"⟩, "Corner", "Asia/Kolkata", none⟩] := by decide +kernel
    have hid : view.outletId = "o" := by
      obtain ⟨outlet, houtlet, rfl⟩ := List.mem_map.mp hview
      rw [hshown] at houtlet
      rw [List.mem_singleton.mp houtlet]
    refine htoday Paging.sampleDate view hview ?_
    rw [hid]
    decide +kernel
  · intro b hb _
    rcases List.mem_cons.mp hb with rfl | hb
    · decide
    · obtain rfl := List.mem_singleton.mp hb
      decide

end RestiqBackend.Reports
