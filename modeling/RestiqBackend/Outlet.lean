import RestiqBackend.FiredOnce

/-!
The orders of an outlet side by side.

An order's own rows are its own; the tenant, the tax registration, the server's switch,
the surroundings and the counter of bill numbers are one for all of them. A request about one
order runs here through the zoom onto it: it sees the order with the shared rows beside it,
and what it writes goes to the order or to the shared rows.
-/

namespace RestiqBackend

open ReadCommitted

/-- Whether the table's rows are shared by the orders of an outlet. -/
def Table.isShared : Table → Bool
  | .billNumberCounters | .tenants | .taxRegistrations | .environment => true
  | _ => false

/-- Whether the key is of a row that the orders of an outlet share. -/
def Key.isShared : Key → Bool
  | .tenant | .taxRegistration | .billNumberCounter | .clientKey _ => true
  | _ => false

/-- The orders of an outlet, and the rows they share (the rest of `shared` is not used). -/
structure Outlet where
  shared : Store
  orders : ℕ → Store

/-- A write of a request about the order `order`. -/
structure OutletWrite where
  order : ℕ
  write : Write

/-- A lock of a request: on a row of one order, or on a shared one. -/
abbrev OutletKey := Option ℕ × Key

/-- A remembered read of a request about an order. -/
abbrev OutletRead := ℕ × Read

def Outlet.apply (w : OutletWrite) (o : Outlet) : Outlet :=
  if w.write.table.isShared then { o with shared := o.shared.apply w.write }
  else { o with orders := Function.update o.orders w.order ((o.orders w.order).apply w.write) }

instance : WriteTo OutletWrite Outlet := ⟨Outlet.apply⟩

/-- An order with the shared rows beside it. -/
def Outlet.view (o : Outlet) (i : ℕ) : Store :=
  { o.orders i with
    paymentsSimulator := o.shared.paymentsSimulator
    tenant := o.shared.tenant
    taxRegistration := o.shared.taxRegistration
    around := o.shared.around
    billNumberCounter := o.shared.billNumberCounter }

@[simp] theorem view_bill (o : Outlet) (i : ℕ) : (o.view i).bill = (o.orders i).bill := rfl

@[simp] theorem view_billNumberCounter (o : Outlet) (i : ℕ) :
    (o.view i).billNumberCounter = o.shared.billNumberCounter := rfl

theorem view_apply (w : Write) (i : ℕ) (o : Outlet) :
    (o.apply ⟨i, w⟩).view i = (o.view i).apply w := by
  cases w <;> simp [Outlet.apply, Outlet.view, Write.table, Table.isShared, Store.apply]

/-- A request about one order leaves what is not shared of the others alone. -/
theorem orders_apply_of_ne {i j : ℕ} (h : j ≠ i) (w : Write) (o : Outlet) :
    (o.apply ⟨i, w⟩).orders j = o.orders j := by
  unfold Outlet.apply
  split
  · rfl
  · exact Function.update_of_ne h _ _

theorem orders_applyAll_of_ne {i j : ℕ} (h : j ≠ i) (ws : List Write) (o : Outlet) :
    (applyAll (ws.map (OutletWrite.mk i)) o).orders j = o.orders j := by
  induction ws generalizing o with
  | nil => rfl
  | cons w ws ih =>
      rw [List.map_cons, applyAll_cons, ih]
      exact orders_apply_of_ne h w o

/-- A request about the order `i`, among the requests about the others. -/
def orderZoom (i : ℕ) :
    Zoom Store Key Read Write Outlet OutletKey OutletRead OutletWrite where
  view o := o.view i
  lock k := (if k.isShared then none else some i, k)
  read r := (i, r)
  write w := ⟨i, w⟩
  view_apply w o := view_apply w i o

/-- A transaction at the outlet. -/
abbrev OutletTx (α : Type) := Txn Outlet OutletKey OutletRead OutletWrite ApiError α

def Op.atOrder (op : Op) (i : ℕ) : OutletTx Unit := op.prog.zoom (orderZoom i)

end RestiqBackend
