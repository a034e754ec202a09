import Mathlib.Data.List.Find
import RestiqBackend.OneParty
import RestiqBackend.ReadCommitted.Alone

/-!
What staff are shown of the tables (`src/pos/orders/orders.service.ts`), and what follows when they
act on it.

The map is read off the orders of an outlet in one query, with the later order of a table taking the
earlier one's place, and off the open sessions of its tables. Tapping a table looks at the orders of
that table alone, whatever their outlet, after moving a leftover out of the way. In a state that the
requests reach the two agree: there is one order a table, and it is of the table's outlet.
-/

namespace RestiqBackend.GuestTables

open ReadCommitted

/-! ### The map -/

inductive TableStatus
  | empty
  | occupied
  deriving DecidableEq

structure TableMapEntry where
  tableId : ℕ
  label : String
  status : TableStatus
  orderId : Option ℕ
  ownerId : Option ℕ
  guestSessionOpen : Bool
  deriving DecidableEq

/-- The orders by table: the last one of a table counts. -/
def byTable (activeOrders : List Order) (tableId : ℕ) : Option Order :=
  activeOrders.reverse.find? (·.tableId = some tableId)

def toTableMapEntry (order : Option Order) (guestSessionOpen : Bool) (t : DiningTable) :
    TableMapEntry where
  tableId := t.id
  label := t.label
  status := if order.isSome then .occupied else .empty
  orderId := order.map (·.id)
  ownerId := order.bind (·.ownerId)
  guestSessionOpen := guestSessionOpen

def Order.isLive (now : ℤ) (o : Order) : Bool := decide (now - liveWindow ≤ o.createdAt)

def getTableMap (outletId : ℕ) : Tx (List TableMapEntry) := do
  let outlet ← findOutlet outletId
  let _ ← orThrow noSuchOutlet outlet
  let tables ← Txn.query fun v => v.tables.filter (·.outletId = outletId)
  let now ← Txn.clock
  let activeOrders ← Txn.query fun v => v.orders.filter fun o =>
    o.outletId = outletId && o.status ≠ .closed && o.tableId.isSome && o.isLive now
  let openSessions ← Txn.query fun v => v.sessions.filter fun x =>
    x.status = .open && tables.any fun t => x.tableId = some t.id
  pure (tables.map fun t =>
    toTableMapEntry (byTable activeOrders t.id) (openSessions.any (·.tableId = some t.id)) t)

/-! ### What there is to see -/

/-- The outside world at the time `now`: an identifier that is drawn is new. -/
structure Moment (now : ℤ) (env : Env) (s : Store) : Prop where
  now : env.now = now
  session : ∀ x ∈ s.sessions, x.id ≠ env.uuid
  order : ∀ o ∈ s.orders, o.id ≠ env.uuid

/-- The order of a table that is not closed. -/
def Store.activeOrder (s : Store) (tableId : ℕ) : Option Order :=
  s.orders.find? (·.isActiveAt tableId)

/-- The same, unless it was left over from before the live window. -/
def Store.liveOrder (s : Store) (now : ℤ) (tableId : ℕ) : Option Order :=
  (s.activeOrder tableId).filter (·.isLive now)

def Store.tableMap (s : Store) (now : ℤ) (outletId : ℕ) : List TableMapEntry :=
  (s.tables.filter (·.outletId = outletId)).map fun t =>
    toTableMapEntry (s.liveOrder now t.id) (s.sessions.any (·.isOpenAt t.id)) t

section Lookup

variable {s : Store} {o : Order} {t : DiningTable} {x : TableSession} {tableId outletId : ℕ}
  {now : ℤ}

theorem find?_of_one {α : Type} {as : List α} {p : α → Bool} (h : (as.filter p).length ≤ 1)
    {a : α} (ha : a ∈ as) (hp : p a = true) : as.find? p = some a := by
  obtain ⟨b, hb⟩ := Option.isSome_iff_exists.mp (List.find?_isSome.mpr ⟨a, ha, hp⟩)
  rw [hb, eq_of_one h (List.mem_of_find?_eq_some hb) ha (List.find?_some hb) hp]

/-- Where one row at most is looked for, what else is asked of it can be asked afterwards. -/
theorem find?_and_of_one {α : Type} {as : List α} {p q : α → Bool}
    (h : (as.filter p).length ≤ 1) : as.find? (fun a => p a && q a) = (as.find? p).filter q := by
  cases hfound : as.find? (fun a => p a && q a) with
  | some a =>
      have hsome := List.find?_some hfound
      obtain ⟨hp, hq⟩ := Bool.and_eq_true_iff.mp hsome
      rw [find?_of_one h (List.mem_of_find?_eq_some hfound) hp, Option.filter_some, if_pos hq]
  | none =>
      symm
      rw [Option.eq_none_iff_forall_ne_some]
      intro a ha
      obtain ⟨ha, hq⟩ := Option.filter_eq_some_iff.mp ha
      exact List.find?_eq_none.mp hfound a (List.mem_of_find?_eq_some ha)
        (Bool.and_eq_true_iff.mpr ⟨List.find?_some ha, hq⟩)

theorem Order.isActiveAt_iff :
    o.isActiveAt tableId = true ↔ o.tableId = some tableId ∧ o.status ≠ .closed := by
  simp [Order.isActiveAt]

theorem TableSession.isOpenAt_iff :
    x.isOpenAt tableId = true ↔ x.tableId = some tableId ∧ x.status = .open := by
  simp [TableSession.isOpenAt]

theorem Store.activeOrder_some (h : s.activeOrder tableId = some o) :
    o ∈ s.orders ∧ o.isActiveAt tableId = true := by
  have hactive := List.find?_some h
  exact ⟨List.mem_of_find?_eq_some h, hactive⟩

theorem Sound.activeOrder (hs : Sound s) (ho : o ∈ s.orders) (h : o.isActiveAt tableId = true) :
    s.activeOrder tableId = some o :=
  find?_of_one (hs.oneOrder tableId) ho h

theorem Store.liveOrder_some (h : s.liveOrder now tableId = some o) :
    s.activeOrder tableId = some o ∧ o.isLive now = true :=
  Option.filter_eq_some_iff.mp h

/-- An order is of the outlet of its table. -/
theorem Sound.outlet_eq (hs : Sound s) (ho : o ∈ s.orders) (ht : t ∈ s.tables)
    (h : o.tableId = some t.id) : o.outletId = t.outletId := by
  obtain ⟨t', ht', hid, houtlet⟩ := hs.orders o ho t.id h
  rw [← houtlet, List.inj_on_of_nodup_map hs.tableIds ht' ht hid]

/-- The query of the map finds the order that the tap finds. -/
theorem byTable_eq (hs : Sound s) (ht : t ∈ s.tables) :
    byTable (s.orders.filter fun o => o.outletId = t.outletId && o.status ≠ .closed &&
      o.tableId.isSome && o.isLive now) t.id = s.liveOrder now t.id := by
  cases hfound : byTable (s.orders.filter fun o => o.outletId = t.outletId && o.status ≠ .closed &&
      o.tableId.isSome && o.isLive now) t.id with
  | some o =>
      have hmem := List.mem_reverse.mp (List.mem_of_find?_eq_some hfound)
      have htable : o.tableId = some t.id := by simpa using List.find?_some hfound
      simp only [List.mem_filter, Bool.and_eq_true, decide_eq_true_eq] at hmem
      obtain ⟨ho, ⟨⟨-, hstatus⟩, -⟩, hlive⟩ := hmem
      have hactive := hs.activeOrder ho (Order.isActiveAt_iff.mpr ⟨htable, by simpa using hstatus⟩)
      rw [Store.liveOrder, hactive, Option.filter_some, if_pos hlive]
  | none =>
      symm
      rw [Option.eq_none_iff_forall_ne_some]
      intro o h
      obtain ⟨hactive, hlive⟩ := Store.liveOrder_some h
      obtain ⟨ho, hactive⟩ := Store.activeOrder_some hactive
      obtain ⟨htable, hstatus⟩ := Order.isActiveAt_iff.mp hactive
      refine List.find?_eq_none.mp hfound o (List.mem_reverse.mpr ?_) (decide_eq_true htable)
      simp [ho, hs.outlet_eq ho ht htable, hstatus, htable, hlive]

theorem openSessions_any (ht : t ∈ s.tables) (houtlet : t.outletId = outletId) :
    (s.sessions.filter fun x => x.status = .open &&
      (s.tables.filter (·.outletId = outletId)).any fun t => x.tableId = some t.id).any
        (·.tableId = some t.id) = s.sessions.any (·.isOpenAt t.id) := by
  have hmem : t ∈ s.tables.filter (·.outletId = outletId) :=
    List.mem_filter.mpr ⟨ht, decide_eq_true houtlet⟩
  rw [Bool.eq_iff_iff, List.any_eq_true, List.any_eq_true]
  constructor
  · rintro ⟨x, hx, htable⟩
    obtain ⟨hx, hopen⟩ := List.mem_filter.mp hx
    have hopen := of_decide_eq_true (Bool.and_eq_true_iff.mp hopen).1
    exact ⟨x, hx, TableSession.isOpenAt_iff.mpr ⟨of_decide_eq_true htable, hopen⟩⟩
  · rintro ⟨x, hx, hopen⟩
    obtain ⟨htable, hopen⟩ := TableSession.isOpenAt_iff.mp hopen
    refine ⟨x, List.mem_filter.mpr ⟨hx, ?_⟩, decide_eq_true htable⟩
    exact Bool.and_eq_true_iff.mpr ⟨decide_eq_true hopen,
      List.any_eq_true.mpr ⟨t, hmem, decide_eq_true htable⟩⟩

end Lookup

/-! ### The programs, alone -/

/-- What a request keeps among others it keeps alone. -/
theorem Fits.alone {α : Type} {p : Tx α} {s : Store} {V : Env → Store → Prop}
    (h : p.wp discipline (fun _ => Fits) .empty s) :
    p.wlp (fun _ => True) V (fun _ v => Sound v) s := by
  refine Txn.wlp_mono (Txn.wp.alone (fun _ _ _ => trivial) h) fun _ v hv => ?_
  obtain ⟨l, hfits, rfl⟩ := hv
  exact (hfits.commits trivial).inv

section Alone

variable {s : Store} {E : Failure → Prop} {V : Env → Store → Prop} {now : ℤ}
  {outletId tableId staffId : ℕ} {o : Order}

theorem orThrow_bind {α β : Type} {e : Failure} {a : α} {g : α → Tx β} {R : β → Store → Prop}
    (h : (g a).wlp E V R s) : (orThrow e (some a) >>= g).wlp E V R s := h

theorem find?_some_of_exists {α : Type} {as : List α} {p : α → Bool} (h : ∃ a ∈ as, p a = true) :
    ∃ a, as.find? p = some a :=
  Option.isSome_iff_exists.mp (List.find?_isSome.mpr h)

theorem getTableMap_returns {R : List TableMapEntry → Store → Prop} (hs : Sound s)
    (houtlet : ∃ o ∈ s.outlets, o.id = outletId) (h : R (s.tableMap now outletId) s) :
    (getTableMap outletId).wlp E (Moment now) R s := by
  refine Txn.query_bind ?_
  obtain ⟨o, ho, hid⟩ := houtlet
  obtain ⟨outlet, hfound⟩ := find?_some_of_exists
    (p := fun o : Outlet => decide (o.id = outletId)) ⟨o, ho, decide_eq_true hid⟩
  rw [hfound]
  refine orThrow_bind (Txn.query_bind (Txn.clock_bind fun env henv =>
    Txn.query_bind (Txn.query_bind ?_)))
  rw [henv.now]
  refine (congrArg (fun m => R m s) (List.map_congr_left fun t ht => ?_)).mpr h
  obtain ⟨ht, houtlet⟩ := List.mem_filter.mp ht
  have houtlet : t.outletId = outletId := of_decide_eq_true houtlet
  rw [openSessions_any ht houtlet, ← houtlet, byTable_eq hs ht]

/-- A leftover that stands in the way of the next order of the table. -/
def Store.staleOrder (s : Store) (now : ℤ) (tableId : ℕ) : Option Order :=
  s.orders.find? fun o => o.isActiveAt tableId && decide (o.createdAt < now - liveWindow)

def Store.detached (s : Store) (now : ℤ) (tableId : ℕ) : Store :=
  (s.staleOrder now tableId).elim s fun stale => s.apply (.detachTable stale.id)

theorem detachStaleTableOrder_returns {R : Unit → Store → Prop}
    (h : R () (s.detached now tableId)) :
    (detachStaleTableOrder tableId).wlp E (Moment now) R s := by
  refine Txn.clock_bind fun env henv => Txn.query_bind ?_
  rw [henv.now]
  unfold Store.detached Store.staleOrder at h
  generalize s.orders.find? _ = stale at h ⊢
  cases stale with
  | none => exact h
  | some stale => exact Txn.exec_bind fun _ _ => h

/-- Nothing else is touched. -/
theorem Store.detached_rows (s : Store) (now : ℤ) (tableId : ℕ) :
    (s.detached now tableId).tables = s.tables ∧ (s.detached now tableId).sessions = s.sessions ∧
      (s.detached now tableId).outlets = s.outlets ∧
      (s.detached now tableId).tokens = s.tokens ∧
      (s.detached now tableId).tenantActive = s.tenantActive := by
  unfold Store.detached
  cases s.staleOrder now tableId <;> exact ⟨rfl, rfl, rfl, rfl, rfl⟩

/-- An order at most loses its table. -/
theorem mem_detached (ho : o ∈ s.orders) : o ∈ (s.detached now tableId).orders ∨
    { o with tableId := none } ∈ (s.detached now tableId).orders := by
  unfold Store.detached
  cases s.staleOrder now tableId with
  | none => exact .inl ho
  | some stale =>
      have hmem := List.mem_map_of_mem (f := fun o : Order =>
        if o.id = stale.id then { o with tableId := none } else o) ho
      by_cases hid : o.id = stale.id
      · rw [if_pos hid] at hmem
        exact .inr hmem
      · rw [if_neg hid] at hmem
        exact .inl hmem

theorem Sound.staleOrder (hs : Sound s) :
    s.staleOrder now tableId = (s.activeOrder tableId).filter fun o => !o.isLive now := by
  have hstale : ∀ o : Order, decide (o.createdAt < now - liveWindow) = !o.isLive now := by
    intro o
    simp only [Order.isLive, ← decide_not, not_le]
  simp only [Store.staleOrder, hstale]
  exact find?_and_of_one (hs.oneOrder tableId)

/-- A live order stays where it is. -/
theorem Sound.detached_of_live (hs : Sound s) (h : s.liveOrder now tableId = some o) :
    s.detached now tableId = s := by
  obtain ⟨hactive, hlive⟩ := Store.liveOrder_some h
  rw [Store.detached, hs.staleOrder, hactive, Option.filter_some, hlive]
  rfl

/-- What is left on the table is live. -/
theorem Sound.activeOrder_detached (hs : Sound s) :
    (s.detached now tableId).activeOrder tableId = s.liveOrder now tableId := by
  cases hactive : s.activeOrder tableId with
  | none =>
      rw [Store.liveOrder, Store.detached, hs.staleOrder, hactive]
      exact hactive
  | some o =>
      by_cases hlive : o.isLive now = true
      · have h : s.liveOrder now tableId = some o := by
          rw [Store.liveOrder, hactive, Option.filter_some, if_pos hlive]
        rw [hs.detached_of_live h, hactive, h]
      · rw [Store.liveOrder, Store.detached, hs.staleOrder, hactive, Option.filter_some,
          Option.filter_some, if_neg hlive, if_pos (by simpa using hlive)]
        refine List.find?_eq_none.mpr fun o' ho' hactive' => ?_
        obtain ⟨o'', ho'', rfl⟩ := List.mem_map.mp ho'
        split at hactive'
        · exact Option.some_ne_none _ (Order.isActiveAt_iff.mp hactive').1.symm
        · rename_i hid
          have heq := hs.activeOrder ho'' hactive'
          rw [hactive] at heq
          exact hid (congrArg Order.id (Option.some.inj heq).symm)

/-- A change that leaves the rows looked for as they are is not noticed. -/
theorem find?_map_same {α : Type} {as : List α} {p : α → Bool} {f : α → α}
    (hp : ∀ a ∈ as, p (f a) = p a) (hf : ∀ a ∈ as, p a = true → f a = a) :
    (as.map f).find? p = as.find? p := by
  have hcongr : as.find? (p ∘ f) = as.find? p := List.find?_congr hp
  rw [List.find?_map, hcongr]
  cases hfound : as.find? p with
  | none => rfl
  | some a => exact congrArg some (hf a (List.mem_of_find?_eq_some hfound) (List.find?_some hfound))

/-- The other tables keep their orders. -/
theorem Sound.activeOrder_detached_of_ne (hs : Sound s) {t : ℕ} (ht : t ≠ tableId) :
    (s.detached now tableId).activeOrder t = s.activeOrder t := by
  unfold Store.detached
  cases hstale : s.staleOrder now tableId with
  | none => rfl
  | some stale =>
      have hfound := hs.staleOrder.symm.trans hstale
      obtain ⟨hstale, hactive⟩ := Store.activeOrder_some (Option.filter_eq_some_iff.mp hfound).1
      have htable := (Order.isActiveAt_iff.mp hactive).1
      have haway : ∀ o ∈ s.orders, o.id = stale.id → o.isActiveAt t ≠ true := by
        intro o ho hid hactive
        have heq : o = stale := eq_of_one (hs.orderIds stale.id) ho hstale (decide_eq_true hid)
          (decide_eq_true rfl)
        rw [Order.isActiveAt_iff, heq, htable] at hactive
        exact ht (Option.some.inj hactive.1).symm
      refine find?_map_same (fun o ho => ?_) fun o ho hactive => ?_
      · split
        · rename_i hid
          rw [Bool.not_eq_true _ |>.mp (haway o ho hid)]
          exact Bool.and_eq_false_imp.mpr fun h => absurd (of_decide_eq_true h) (by simp)
        · rfl
      · exact if_neg fun hid => haway o ho hid hactive

/-- The orders that count once a table has been given a new one. -/
theorem Sound.liveOrder_created (hs : Sound s) (htable : o.tableId = some tableId)
    (hstatus : o.status ≠ .closed) (hlive : o.isLive now = true)
    (hnone : s.liveOrder now tableId = none) (t : ℕ) :
    ((s.detached now tableId).apply (.createOrder o)).liveOrder now t =
      if t = tableId then some o else s.liveOrder now t := by
  have hactive : ((s.detached now tableId).apply (.createOrder o)).activeOrder t =
      ((s.detached now tableId).activeOrder t).or
        (if o.isActiveAt t then some o else none) := by
    rw [Store.activeOrder, Store.apply, List.find?_append, List.find?_singleton]
    rfl
  rw [Store.liveOrder, hactive]
  by_cases ht : t = tableId
  · subst ht
    have hactive := Order.isActiveAt_iff.mpr ⟨htable, hstatus⟩
    rw [if_pos rfl, hs.activeOrder_detached, hnone, if_pos hactive, Option.none_or,
      Option.filter_some, if_pos hlive]
  · have hother : ¬o.isActiveAt t = true := by
      rw [Order.isActiveAt_iff, htable]
      exact fun h => ht (Option.some.inj h.1).symm
    rw [if_neg ht, hs.activeOrder_detached_of_ne ht, if_neg hother, Option.or_none,
      Store.liveOrder]

theorem Sound.findTable_eq (hs : Sound s) (h : s.Has tableId outletId) :
    ∃ t, (s.tables.find? (·.id = tableId)).filter (·.outletId = outletId) = some t := by
  obtain ⟨t, ht, hid, houtlet⟩ := h
  obtain ⟨t', hfound⟩ := find?_some_of_exists
    (p := fun t : DiningTable => decide (t.id = tableId)) ⟨t, ht, decide_eq_true hid⟩
  have hid' : t'.id = tableId := by simpa using List.find?_some hfound
  have heq : t' = t := List.inj_on_of_nodup_map hs.tableIds (List.mem_of_find?_eq_some hfound) ht
    (hid'.trans hid.symm)
  rw [hfound, Option.filter_some, heq, if_pos (decide_eq_true houtlet)]
  exact ⟨t, rfl⟩

/-- The order that a member of staff opens. -/
def Order.opened (staffId outletId tableId id : ℕ) (now : ℤ) : Order :=
  ⟨id, outletId, some tableId, some staffId, .open, none, now⟩

/-- A tap gives the live order, or a new one in the place of a leftover. -/
theorem openOrClaimTable_returns {R : Order → Store → Prop} (hs : Sound s)
    (htable : s.Has tableId outletId) (hlive : ∀ o, s.liveOrder now tableId = some o → R o s)
    (hnew : s.liveOrder now tableId = none → ∀ id, (∀ o ∈ s.orders, o.id ≠ id) →
      R (.opened staffId outletId tableId id now)
        ((s.detached now tableId).apply
          (.createOrder (.opened staffId outletId tableId id now)))) :
    (openOrClaimTable staffId outletId tableId).wlp E (Moment now) R s := by
  obtain ⟨t, ht⟩ := hs.findTable_eq htable
  refine Txn.query_bind ?_
  rw [ht]
  refine orThrow_bind ((Txn.wlp_bind _ _ _ _).mpr (detachStaleTableOrder_returns
    (Txn.query_bind ?_)))
  change (claim staffId outletId tableId ((s.detached now tableId).activeOrder tableId)).wlp E
    (Moment now) R (s.detached now tableId)
  rw [hs.activeOrder_detached]
  cases hactive : s.liveOrder now tableId with
  | some o =>
      rw [hs.detached_of_live hactive]
      exact hlive o hactive
  | none =>
      refine Txn.uuid_bind fun env hnew' => Txn.clock_bind fun env' hnow => ?_
      rw [hnow.now]
      refine Txn.writeWhen_bind ?_ (hnew hactive env.uuid fun o ho => ?_)
      · rw [takesOrder_iff]
        intro o ho
        refine ⟨hnew'.order o ho, fun t ht => ?_⟩
        obtain rfl : tableId = t := Option.some.inj ht
        have hnone := hs.activeOrder_detached.trans hactive
        simpa using List.find?_eq_none.mp hnone o ho
      · -- The rows have the identifiers that they had.
        unfold Store.detached at hnew'
        cases hstale : s.staleOrder now tableId with
        | none =>
            rw [hstale] at hnew'
            exact hnew'.order o ho
        | some stale =>
            rw [hstale] at hnew'
            have hid := hnew'.order _ (List.mem_map_of_mem ho)
            split at hid <;> exact hid

def noSessionToClose : Failure :=
  .http 404 "no_open_session" "This table has no open session to close"

/-- The open session of a table. -/
def Store.openSession (s : Store) (tableId : ℕ) : Option TableSession :=
  s.sessions.find? (·.isOpenAt tableId)

theorem Store.openSession_isSome :
    (s.openSession tableId).isSome = s.sessions.any (·.isOpenAt tableId) :=
  List.isSome_find? ..

theorem Store.openSession_some {x : TableSession} (h : s.openSession tableId = some x) :
    x ∈ s.sessions ∧ x.isOpenAt tableId = true := by
  have hopen := List.find?_some h
  exact ⟨List.mem_of_find?_eq_some h, hopen⟩

theorem Sound.openSession (hs : Sound s) {x : TableSession} (hx : x ∈ s.sessions)
    (h : x.isOpenAt tableId = true) : s.openSession tableId = some x :=
  find?_of_one (hs.oneSession tableId) hx h

theorem closeSessionForStaff_returns {R : Unit → Store → Prop} {x : TableSession} (hs : Sound s)
    (htable : s.Has tableId outletId) (hx : s.openSession tableId = some x)
    (h : R () (s.apply (.endSession x.id false now))) :
    (closeSessionForStaff outletId tableId).wlp E (Moment now) R s := by
  obtain ⟨t, ht⟩ := hs.findTable_eq htable
  refine Txn.query_bind ?_
  rw [ht]
  refine orThrow_bind (Txn.query_bind ?_)
  change (orThrow _ (s.openSession tableId) >>= _).wlp E (Moment now) R s
  rw [hx]
  refine orThrow_bind (Txn.clock_bind fun env henv _ _ => ?_)
  rw [henv.now]
  exact h

theorem closeSessionForStaff_refuses (hs : Sound s) (htable : s.Has tableId outletId)
    (hx : s.openSession tableId = none) :
    (closeSessionForStaff outletId tableId).refuses (Moment now) noSessionToClose s := by
  obtain ⟨t, ht⟩ := hs.findTable_eq htable
  refine Txn.query_bind ?_
  rw [ht]
  refine orThrow_bind (Txn.query_bind ?_)
  change (orThrow _ (s.openSession tableId) >>= _).wlp _ (Moment now) _ s
  rw [hx]
  rfl

theorem any_congr_of_mem {α : Type} {as : List α} {p q : α → Bool} (h : ∀ a ∈ as, p a = q a) :
    as.any p = as.any q := by
  rw [Bool.eq_iff_iff, List.any_eq_true, List.any_eq_true]
  exact exists_congr fun a => and_congr_right fun ha => by rw [h a ha]

/-- Ending the session of a table leaves the open sessions of the others. -/
theorem Sound.any_isOpenAt_ended (hs : Sound s) {x : TableSession}
    (hx : s.openSession tableId = some x) (settled : Bool) (now : ℤ) (t : ℕ) :
    (s.apply (.endSession x.id settled now)).sessions.any (·.isOpenAt t) =
      if t = tableId then false else s.sessions.any (·.isOpenAt t) := by
  obtain ⟨hmem, hopen⟩ := Store.openSession_some hx
  have hended : ∀ y ∈ s.sessions,
      (if y.id = x.id then y.ended settled now else y).isOpenAt t =
        if t = tableId then false else y.isOpenAt t := by
    intro y hy
    by_cases hid : y.id = x.id
    · obtain rfl : y = x := eq_of_one (hs.sessionIds x.id) hy hmem (decide_eq_true hid)
        (decide_eq_true rfl)
      have hclosed : (y.ended settled now).isOpenAt t = false := by
        cases settled <;> simp [TableSession.isOpenAt, TableSession.ended]
      rw [if_pos rfl, hclosed]
      split
      · rfl
      · rename_i ht
        symm
        rw [← Bool.not_eq_true, TableSession.isOpenAt_iff, (TableSession.isOpenAt_iff.mp hopen).1]
        exact fun h => ht (Option.some.inj h.1).symm
    · rw [if_neg hid]
      split
      · rename_i ht
        subst ht
        rw [← Bool.not_eq_true]
        intro hy'
        exact hid (congrArg TableSession.id (eq_of_one (hs.oneSession t) hy hmem hy' hopen))
      · rfl
  have hany : (s.apply (.endSession x.id settled now)).sessions.any (·.isOpenAt t) =
      s.sessions.any fun y => if t = tableId then false else y.isOpenAt t := by
    rw [Store.apply, List.any_map]
    exact any_congr_of_mem hended
  rw [hany]
  split <;> simp

end Alone

/-! ### The map keeps its word -/

/-- The entry of a table after an order was opened on it. -/
def TableMapEntry.taken (tableId : ℕ) (order : Order) (e : TableMapEntry) : TableMapEntry :=
  if e.tableId = tableId then
    { e with status := .occupied, orderId := some order.id, ownerId := order.ownerId }
  else e

/-- The entry of a table after its session was closed. -/
def TableMapEntry.freed (tableId : ℕ) (e : TableMapEntry) : TableMapEntry :=
  if e.tableId = tableId then { e with guestSessionOpen := false } else e

/-- What the map says at a moment is what staff find when they act on it. -/
structure Told (s : Store) (now : ℤ) (outletId staffId : ℕ) (map : List TableMapEntry) : Prop where
  shown : (getTableMap outletId).returns (Moment now) (fun m v => m = map ∧ v = s) s
  tables : map.map (·.tableId) = (s.tables.filter (·.outletId = outletId)).map (·.id)
  status : ∀ e ∈ map, e.status = .occupied ↔ e.orderId.isSome = true
  /-- A tap on an occupied table gives the order that was shown, and changes nothing. -/
  occupied : ∀ e ∈ map, ∀ id, e.orderId = some id →
    (openOrClaimTable staffId outletId e.tableId).returns (Moment now)
      (fun o v => o ∈ s.orders ∧ o.id = id ∧ o.ownerId = e.ownerId ∧ v = s) s
  /-- A tap on an empty one gives a new order of the member of staff, which the map then shows; an
  order that was left over at most loses its table. -/
  empty : ∀ e ∈ map, e.orderId = none →
    (openOrClaimTable staffId outletId e.tableId).returns (Moment now)
      (fun o v => (∀ o' ∈ s.orders, o'.id ≠ o.id) ∧ o.ownerId = some staffId ∧ o ∈ v.orders ∧
        (∀ o' ∈ s.orders, o' ∈ v.orders ∨ { o' with tableId := none } ∈ v.orders) ∧
        (getTableMap outletId).returns (Moment now)
          (fun m v' => m = map.map (.taken e.tableId o) ∧ v' = v) v) s
  /-- Where a session is shown it can be closed, and is then not shown any more. -/
  reset : ∀ e ∈ map, e.guestSessionOpen = true →
    (closeSessionForStaff outletId e.tableId).returns (Moment now)
      (fun _ v => (getTableMap outletId).returns (Moment now)
        (fun m v' => m = map.map (.freed e.tableId) ∧ v' = v) v) s
  none : ∀ e ∈ map, e.guestSessionOpen = false →
    (closeSessionForStaff outletId e.tableId).refuses (Moment now) noSessionToClose s

section Told

variable {s : Store} {now : ℤ} {outletId tableId staffId : ℕ} {o : Order}

theorem mem_tableMap {e : TableMapEntry} (he : e ∈ s.tableMap now outletId) :
    s.Has e.tableId outletId ∧ e.orderId = (s.liveOrder now e.tableId).map (·.id) ∧
      e.ownerId = (s.liveOrder now e.tableId).bind (·.ownerId) ∧
      e.guestSessionOpen = (s.openSession e.tableId).isSome := by
  obtain ⟨t, ht, rfl⟩ := List.mem_map.mp he
  obtain ⟨ht, houtlet⟩ := List.mem_filter.mp ht
  exact ⟨⟨t, ht, rfl, of_decide_eq_true houtlet⟩, rfl, rfl, Store.openSession_isSome.symm⟩

/-- Two stores with the same tables show the same but for what `f` does to an entry. -/
theorem tableMap_map {v : Store} {f : TableMapEntry → TableMapEntry} (htables : v.tables = s.tables)
    (hf : ∀ t : DiningTable, toTableMapEntry (v.liveOrder now t.id)
      (v.sessions.any (·.isOpenAt t.id)) t = f (toTableMapEntry (s.liveOrder now t.id)
        (s.sessions.any (·.isOpenAt t.id)) t)) :
    v.tableMap now outletId = (s.tableMap now outletId).map f := by
  rw [Store.tableMap, Store.tableMap, List.map_map, htables]
  exact List.map_congr_left fun t _ => hf t

theorem Sound.tableMap_taken (hs : Sound s) (htable : o.tableId = some tableId)
    (hstatus : o.status ≠ .closed) (hlive : o.isLive now = true)
    (hnone : s.liveOrder now tableId = none) :
    ((s.detached now tableId).apply (.createOrder o)).tableMap now outletId =
      (s.tableMap now outletId).map (.taken tableId o) := by
  refine tableMap_map ?_ fun t => ?_
  · exact (Store.detached_rows ..).1
  · have hsessions : ((s.detached now tableId).apply (.createOrder o)).sessions = s.sessions :=
      (Store.detached_rows ..).2.1
    rw [hs.liveOrder_created htable hstatus hlive hnone, hsessions, TableMapEntry.taken]
    by_cases ht : t.id = tableId
    · simp [toTableMapEntry, ht]
    · simp [toTableMapEntry, ht]

theorem Sound.tableMap_freed (hs : Sound s) {x : TableSession}
    (hx : s.openSession tableId = some x) :
    (s.apply (.endSession x.id false now)).tableMap now outletId =
      (s.tableMap now outletId).map (.freed tableId) := by
  refine tableMap_map rfl fun t => ?_
  rw [hs.any_isOpenAt_ended hx, TableMapEntry.freed]
  by_cases ht : t.id = tableId
  · simp [toTableMapEntry, ht, Store.liveOrder, Store.activeOrder, Store.apply]
  · simp [toTableMapEntry, ht, Store.liveOrder, Store.activeOrder, Store.apply]

theorem Sound.told (hs : Sound s) (houtlet : ∃ o ∈ s.outlets, o.id = outletId) :
    Told s now outletId staffId (s.tableMap now outletId) where
  shown := getTableMap_returns hs houtlet ⟨rfl, rfl⟩
  tables := by
    rw [Store.tableMap, List.map_map]
    rfl
  status e he := by
    obtain ⟨t, ht, rfl⟩ := List.mem_map.mp he
    cases h : s.liveOrder now t.id <;> simp [toTableMapEntry]
  occupied e he id hid := by
    obtain ⟨htable, horder, howner, -⟩ := mem_tableMap he
    rw [horder] at hid
    obtain ⟨o, hlive, rfl⟩ := Option.map_eq_some_iff.mp hid
    refine openOrClaimTable_returns hs htable (fun o' hlive' => ?_) fun hnone => ?_
    · obtain rfl : o = o' := Option.some.inj (hlive.symm.trans hlive')
      rw [howner, hlive]
      exact ⟨(Store.activeOrder_some (Store.liveOrder_some hlive).1).1, rfl, rfl, rfl⟩
    · exact absurd (hnone.symm.trans hlive) (Option.some_ne_none o).symm
  empty e he hid := by
    obtain ⟨htable, horder, -, -⟩ := mem_tableMap he
    rw [horder, Option.map_eq_none_iff] at hid
    have hnew : (openOrClaimTable staffId outletId e.tableId).returns (Moment now)
        (fun o v => (∃ id, (∀ o' ∈ s.orders, o'.id ≠ id) ∧
          o = .opened staffId outletId e.tableId id now) ∧
          v = (s.detached now e.tableId).apply (.createOrder o)) s :=
      openOrClaimTable_returns hs htable
        (fun o hlive => absurd (hid.symm.trans hlive) (Option.some_ne_none o).symm)
        fun _ id hfresh => ⟨⟨id, hfresh, rfl⟩, rfl⟩
    refine Txn.wlp_mono (Txn.wlp_and_weak hnew
      (Fits.alone (openOrClaimTable_wp _ _ _ (fits_empty hs)))) fun o v h => ?_
    obtain ⟨⟨⟨id, hfresh, rfl⟩, rfl⟩, hsound⟩ := h
    refine ⟨hfresh, rfl, List.mem_append_right _ (List.mem_singleton_self _), fun o' ho' => ?_, ?_⟩
    · exact (mem_detached ho').imp (List.mem_append_left _) (List.mem_append_left _)
    · refine getTableMap_returns hsound ?_ ⟨?_, rfl⟩
      · rw [Store.apply, (s.detached_rows now e.tableId).2.2.1]
        exact houtlet
      · exact hs.tableMap_taken rfl OrderStatus.noConfusion
          (decide_eq_true (sub_le_self now (by decide))) hid
  reset e he hopen := by
    obtain ⟨htable, -, -, hsession⟩ := mem_tableMap he
    obtain ⟨x, hx⟩ := Option.isSome_iff_exists.mp (hsession.symm.trans hopen)
    have hclosed : (closeSessionForStaff outletId e.tableId).returns (Moment now)
        (fun _ v => v = s.apply (.endSession x.id false now)) s :=
      closeSessionForStaff_returns hs htable hx rfl
    refine Txn.wlp_mono (Txn.wlp_and_weak hclosed
      (Fits.alone ((Request.closeSessionForStaff outletId e.tableId).fits hs))) fun _ v h => ?_
    obtain ⟨rfl, hsound⟩ := h
    exact getTableMap_returns hsound houtlet ⟨hs.tableMap_freed hx, rfl⟩
  none e he hopen := by
    obtain ⟨htable, -, -, hsession⟩ := mem_tableMap he
    rw [hopen] at hsession
    refine closeSessionForStaff_refuses hs htable (Option.not_isSome_iff_eq_none.mp ?_)
    rw [← hsession]
    exact Bool.false_ne_true

end Told

/-- **The map and the tap.** In every state that the requests reach, whatever the interleaving, the
map that staff are shown says what they will find: tapping an occupied table gives the order shown
and changes nothing, tapping an empty one gives a new order that the map then shows and nothing
else, and a session is shown exactly where there is one to close. -/
theorem map_and_tap {s : Store} (hs : Sound s) {S : System Store Key Empty Write Failure}
    {es : List (Event Store Key Empty Write Failure)}
    (h : Run IsRequest (fun _ _ => True) (System.start s) es S) {outletId : ℕ}
    (houtlet : ∃ o ∈ S.store.outlets, o.id = outletId) (now : ℤ) (staffId : ℕ) :
    ∃ map, Told S.store now outletId staffId map :=
  ⟨_, (holds_of_run hs h).1.inv.told houtlet⟩

theorem map_and_tap_sample : ∃ S,
    Run IsRequest (fun _ _ => True) (System.start cafe) raceForTable S ∧
    S.store.tableMap 700 1 = [⟨5, "T5", .occupied, some 504, some 3, false⟩] ∧
    ∃ map, Told S.store 700 1 3 map := by
  have hplay : ((System.start cafe).play raceForTable).map (fun S =>
      (S.store.outlets, S.store.tableMap 700 1)) =
      some (cafe.outlets, [⟨5, "T5", .occupied, some 504, some 3, false⟩]) := by decide +kernel
  obtain ⟨S, -, hrun, hstore⟩ := Run.of_play_map hplay fun p hp => begin_raceForTable hp
  obtain ⟨houtlets, hmap⟩ := Prod.mk.inj hstore
  refine ⟨S, hrun, hmap, map_and_tap cafe_sound hrun ?_ 700 3⟩
  rw [houtlets]
  exact ⟨_, List.mem_cons_self, rfl⟩

end RestiqBackend.GuestTables
