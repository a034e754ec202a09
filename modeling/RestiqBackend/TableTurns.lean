import RestiqBackend.SessionEnds

/-!
What a guest is told who scans the code of a table (`src/guest/sessions/sessions.service.ts`), and
what the table is good for then.

`checkAvailability` and `startSession` look at the same rows in a different order, and the second
ends a session that is over between its checks: what the first answers is what the second does. A
table that nobody has can be taken, joined, ordered from and paid for, and is then free again.
-/

namespace RestiqBackend.GuestTables

open ReadCommitted

/-! ### Whether a table can be ordered from -/

inductive UnavailableReason
  | notFound
  | qrOrderingDisabled
  | tableBusy
  deriving DecidableEq

structure OutletAvailability where
  available : Bool
  reason : Option UnavailableReason
  deriving DecidableEq

def available : OutletAvailability := ⟨true, none⟩

def unavailable (reason : UnavailableReason) : OutletAvailability := ⟨false, some reason⟩

def checkTable (outletId : ℕ) : Option ℕ → Tx OutletAvailability
  | none => pure available
  | some tableId => do
      let table ← findTable outletId tableId
      if table = none then pure (unavailable .notFound)
      else do
        let busy ← isTableBusy tableId
        if busy then pure (unavailable .tableBusy) else pure available

/-- What somebody is told who scanned the code of an outlet or of one of its tables. A tenant that
is not active is told of as an outlet that is not there. -/
def checkAvailability (outletId : ℕ) (tableId : Option ℕ) : Tx OutletAvailability := do
  let outlet ← findOutlet outletId
  if outlet.filter (!·.deleted) = none then pure (unavailable .notFound)
  else do
    let active ← Txn.query (·.tenantActive)
    if active = false then pure (unavailable .notFound)
    else do
      let enabled ← Txn.query fun v => v.hasCapability (·.qrOrdering) outletId
      if enabled = false then pure (unavailable .qrOrderingDisabled)
      else checkTable outletId tableId

/-! ### What the rows say -/

/-- Whether the guests at a table cannot add to an order. -/
def Store.isForeign (s : Store) (now : ℤ) (tableId : ℕ) (live : Order) : Bool :=
  match live.sessionId with
  | none => true
  | some sessionId =>
      (s.sessions.find? (·.id = sessionId)).all fun x =>
        x.tableId ≠ some tableId || x.isInactive now

def Store.isBusy (s : Store) (now : ℤ) (tableId : ℕ) : Bool :=
  (s.liveOrder now tableId).any (s.isForeign now tableId)

def Store.lastActivity (s : Store) (x : TableSession) : ℤ :=
  max (max x.createdAt (((s.guests.filter (·.sessionId = x.id)).map (·.joinedAt)).max?.getD 0))
    (((s.cartLines.filter (·.sessionId = x.id)).map (·.createdAt)).max?.getD 0)

def Store.isAbandoned (s : Store) (now : ℤ) (x : TableSession) : Bool :=
  decide (s.orders.filter (·.sessionId = some x.id) = []) &&
    decide (abandonedAfter < now - s.lastActivity x)

/-- A party has the table: its session is open, has not run out and was not abandoned. -/
def Store.isTaken (s : Store) (now : ℤ) (tableId : ℕ) : Bool :=
  (s.openSession tableId).any fun x => !(x.isInactive now || s.isAbandoned now x)

/-- The store once a session that is over has made room. -/
def Store.cleared (s : Store) (now : ℤ) (tableId : ℕ) : Store :=
  (s.openSession tableId).elim s fun x => s.apply (.endSession x.id false now)

/-- Whether the outlet is there for those who are not logged in. -/
def Store.outletIn (s : Store) (outletId : ℕ) : Option Outlet :=
  (s.outlets.find? (·.id = outletId)).filter (!·.deleted)

def Store.tableIn (s : Store) (outletId tableId : ℕ) : Option DiningTable :=
  (s.tables.find? (·.id = tableId)).filter (·.outletId = outletId)

/-- The outlet is there and takes orders from its tables. -/
structure Store.Offers (s : Store) (outletId : ℕ) : Prop where
  outlet : ∃ o, s.outletIn outletId = some o
  qrOrdering : s.hasCapability (·.qrOrdering) outletId = true

section Alone

variable {s : Store} {E : Failure → Prop} {V : Env → Store → Prop} {now : ℤ}
  {outletId tableId : ℕ} {x : TableSession} {o : Order}

theorem isForeign_returns {R : Bool → Store → Prop}
    (h : R ((s.liveOrder now tableId).any (s.isForeign now tableId)) s) :
    (isForeign tableId (s.liveOrder now tableId)).wlp E (Moment now) R s := by
  cases hlive : s.liveOrder now tableId with
  | none =>
      rw [hlive] at h
      exact h
  | some live =>
      rw [hlive, Option.any_some, Store.isForeign] at h
      obtain ⟨id, outletId, table, owner, status, sessionId, createdAt⟩ := live
      cases sessionId with
      | none => exact h
      | some sessionId =>
          unfold isForeign
          refine Txn.query_bind (Txn.clock_bind fun env henv => ?_)
          rw [henv.now]
          exact h

theorem isTableBusy_returns {R : Bool → Store → Prop} (hs : Sound s)
    (h : R (s.isBusy now tableId) s) : (isTableBusy tableId).wlp E (Moment now) R s := by
  refine Txn.clock_bind fun env henv => Txn.query_bind ?_
  rw [henv.now]
  have hlive : (s.orders.find? fun o => o.isActiveAt tableId &&
      decide (now - liveWindow ≤ o.createdAt)) = s.liveOrder now tableId :=
    find?_and_of_one (hs.oneOrder tableId)
  rw [hlive]
  exact isForeign_returns h

theorem isAbandoned_returns {R : Bool → Store → Prop} (h : R (s.isAbandoned now x) s) :
    (isAbandoned x).wlp E (Moment now) R s := by
  refine Txn.query_bind (Txn.query_bind (Txn.query_bind ?_))
  unfold Store.isAbandoned at h
  split
  · rename_i horders
    rw [decide_eq_false (List.length_pos_iff.mp horders), Bool.false_and] at h
    exact h
  · rename_i horders
    have hnone := List.eq_nil_of_length_eq_zero (Nat.eq_zero_of_not_pos horders)
    refine Txn.clock_bind fun env henv => ?_
    rw [decide_eq_true hnone, Bool.true_and] at h
    rw [henv.now]
    exact h

theorem isOver_returns {R : Bool → Store → Prop}
    (h : R (x.isInactive now || s.isAbandoned now x) s) :
    (isOver x).wlp E (Moment now) R s := by
  refine Txn.clock_bind fun env henv => ?_
  rw [henv.now]
  split
  · rename_i hinactive
    rw [hinactive, Bool.true_or] at h
    exact h
  · rename_i hinactive
    rw [Bool.not_eq_true _ |>.mp hinactive, Bool.false_or] at h
    exact isAbandoned_returns h

/-- Room is made for the next party unless one has the table. -/
theorem endExisting_returns {R : Unit → Store → Prop} (htaken : s.isTaken now tableId = false)
    (h : R () (s.cleared now tableId)) :
    (endExisting (s.openSession tableId)).wlp E (Moment now) R s := by
  unfold Store.isTaken at htaken
  unfold Store.cleared at h
  cases hopen : s.openSession tableId with
  | none =>
      rw [hopen] at h
      exact h
  | some x =>
      rw [hopen] at h htaken
      have hover := Bool.not_eq_false' .. |>.mp htaken
      refine (Txn.wlp_bind _ _ _ _).mpr (isOver_returns (Txn.throwIf_bind ?_ ?_))
      · rw [hover]
        exact fun h => Bool.false_ne_true h.symm
      · refine Txn.clock_bind fun env henv _ _ => ?_
        rw [henv.now]
        exact h

theorem endExisting_refuses (htaken : s.isTaken now tableId = true) :
    (endExisting (s.openSession tableId)).refuses (Moment now) alreadyOpen s := by
  unfold Store.isTaken at htaken
  cases hopen : s.openSession tableId with
  | none =>
      rw [hopen] at htaken
      cases htaken
  | some x =>
      rw [hopen] at htaken
      have hover := Bool.not_eq_true' .. |>.mp htaken
      exact (Txn.wlp_bind _ _ _ _).mpr (isOver_returns (Txn.throwIf_fails hover rfl))

theorem refuse_bind {β : Type} {refused : Option Failure} {g : Unit → Tx β} {R : β → Store → Prop}
    (he : ∀ e, refused = some e → E e) (h : refused = none → (g ()).wlp E V R s) :
    (refuse refused >>= g).wlp E V R s := by
  cases refused with
  | none => exact h rfl
  | some e => exact he e rfl

theorem guarded_bind {β : Type} {allowed : Store → Bool} {keys : List Key} {writes : List Write}
    {e : Failure} {g : Unit → Tx β} {R : β → Store → Prop} (hallowed : allowed s = true)
    (h : (g ()).wlp E V R (applyAll writes s)) :
    (guarded allowed keys writes e >>= g).wlp E V R s := by
  refine (Txn.wlp_bind _ _ _ _).mpr (Txn.writeWhen_bind hallowed ?_)
  exact h

/-! ### Making room -/

/-- What only takes rows away leaves a store sound. -/
theorem Sound.plain {w : Write} (hs : Sound s) (keys : List Key) (hw : w.Plain keys) :
    Sound (s.apply w) :=
  (((fits_empty hs).plain hw).commits trivial).inv

theorem Sound.cleared (hs : Sound s) : Sound (s.cleared now tableId) := by
  unfold Store.cleared
  cases s.openSession tableId with
  | none => exact hs
  | some x => exact hs.plain [] (w := .endSession x.id false now) trivial

theorem Sound.openSession_cleared (hs : Sound s) (now : ℤ) (tableId : ℕ) :
    (s.cleared now tableId).openSession tableId = none := by
  unfold Store.cleared
  cases hopen : s.openSession tableId with
  | none => exact hopen
  | some x =>
      have hnone := hs.any_isOpenAt_ended hopen false now tableId
      rw [if_pos rfl, ← Store.openSession_isSome] at hnone
      rwa [Option.isSome_eq_false_iff, Option.isNone_iff_eq_none] at hnone

/-- Nothing but the session is touched, and that keeps its identifier. -/
theorem cleared_rows (s : Store) (now : ℤ) (tableId : ℕ) :
    (s.cleared now tableId).orders = s.orders ∧
      ∀ id, (∀ x ∈ (s.cleared now tableId).sessions, x.id ≠ id) ↔ ∀ x ∈ s.sessions, x.id ≠ id := by
  unfold Store.cleared
  cases s.openSession tableId with
  | none => exact ⟨rfl, fun _ => Iff.rfl⟩
  | some x =>
      refine ⟨rfl, fun id => List.forall_mem_map.trans (forall_congr' fun y => ?_)⟩
      split <;> exact Iff.rfl

/-- A session that something was ordered from is not abandoned. -/
theorem isAbandoned_of_order (ho : o ∈ s.orders) (h : o.sessionId = some x.id) :
    s.isAbandoned now x = false := by
  have hmem : o ∈ s.orders.filter (·.sessionId = some x.id) :=
    List.mem_filter.mpr ⟨ho, decide_eq_true h⟩
  rw [Store.isAbandoned, decide_eq_false (List.ne_nil_of_mem hmem), Bool.false_and]

/-- An order that a session was making is not foreign because the session is over: it was before. -/
theorem Sound.isBusy_cleared (hs : Sound s) (htaken : s.isTaken now tableId = false) :
    (s.cleared now tableId).isBusy now tableId = s.isBusy now tableId := by
  unfold Store.cleared
  cases hopen : s.openSession tableId with
  | none => rfl
  | some x =>
      unfold Store.isTaken at htaken
      rw [hopen] at htaken
      have hover := Bool.not_eq_false' .. |>.mp htaken
      obtain ⟨hx, hopen⟩ := Store.openSession_some hopen
      have htable := (TableSession.isOpenAt_iff.mp hopen).1
      change (s.liveOrder now tableId).any _ = _
      unfold Store.isBusy
      cases hlive : s.liveOrder now tableId with
      | none => rfl
      | some o =>
          obtain ⟨ho, -⟩ := Store.activeOrder_some (Store.liveOrder_some hlive).1
          rw [Option.elim_some, Option.any_some, Option.any_some, Store.isForeign, Store.isForeign]
          cases hsession : o.sessionId with
          | none => rfl
          | some sessionId =>
              have hfind : (s.apply (.endSession x.id false now)).sessions.find?
                  (·.id = sessionId) = (s.sessions.find? (·.id = sessionId)).map fun y =>
                    if y.id = x.id then y.ended false now else y := by
                rw [Store.apply, List.find?_map]
                refine congrArg _ (List.find?_congr fun y _ => ?_)
                dsimp only [Function.comp]
                split <;> rfl
              dsimp only
              rw [hfind]
              cases hfound : s.sessions.find? (·.id = sessionId) with
              | none => rfl
              | some y =>
                  rw [Option.map_some, Option.all_some, Option.all_some]
                  split
                  · -- The session of the order is the one that is over.
                    rename_i hid
                    have hy := List.mem_of_find?_eq_some hfound
                    obtain rfl : y = x := eq_of_one (hs.sessionIds x.id) hy hx (decide_eq_true hid)
                      (decide_eq_true rfl)
                    have hid : y.id = sessionId := by simpa using List.find?_some hfound
                    rw [isAbandoned_of_order ho (hid ▸ hsession), Bool.or_false] at hover
                    have hended : (y.ended false now).isInactive now = true := rfl
                    rw [hover, hended, Bool.or_true, Bool.or_true]
                  · rfl

/-- A table that nobody has and that is not busy has no order but perhaps a leftover. -/
theorem Sound.liveOrder_free (hs : Sound s) (htaken : s.isTaken now tableId = false)
    (hbusy : s.isBusy now tableId = false) : s.liveOrder now tableId = none := by
  cases hlive : s.liveOrder now tableId with
  | none => rfl
  | some o =>
      exfalso
      obtain ⟨ho, -⟩ := Store.activeOrder_some (Store.liveOrder_some hlive).1
      rw [Store.isBusy, hlive, Option.any_some, Store.isForeign] at hbusy
      cases hsession : o.sessionId with
      | none =>
          rw [hsession] at hbusy
          cases hbusy
      | some sessionId =>
          rw [hsession] at hbusy
          dsimp only at hbusy
          cases hfound : s.sessions.find? (·.id = sessionId) with
          | none =>
              rw [hfound] at hbusy
              cases hbusy
          | some x =>
              rw [hfound, Option.all_some, Bool.or_eq_false_iff] at hbusy
              obtain ⟨htable, hactive⟩ := hbusy
              have htable : x.tableId = some tableId := by simpa using htable
              have hstatus : x.status = .open := by
                simp only [TableSession.isInactive, Bool.or_eq_false_iff] at hactive
                simpa using hactive.1
              have hopen := hs.openSession (List.mem_of_find?_eq_some hfound)
                (TableSession.isOpenAt_iff.mpr ⟨htable, hstatus⟩)
              have hid : x.id = sessionId := by simpa using List.find?_some hfound
              rw [Store.isTaken, hopen, Option.any_some, hactive,
                isAbandoned_of_order ho (hid ▸ hsession)] at htaken
              cases htaken

/-! ### Starting a session -/

variable {dto : StartSessionDto} {t : DiningTable}

def StartSessionDto.session (dto : StartSessionDto) (id pin : ℕ) (now : ℤ) : TableSession :=
  ⟨id, dto.outletId, some dto.tableId, .open, pin, dto.name, dto.phone, now, none,
    now + sessionIdleTtl⟩

def StartSessionDto.guest (dto : StartSessionDto) (sessionId id : ℕ) (now : ℤ) : Guest :=
  ⟨id, sessionId, dto.name, some dto.phone, now, none⟩

/-- The store once a party has the table. -/
def Store.started (s : Store) (now : ℤ) (tableId : ℕ) (x : TableSession) (g : Guest) : Store :=
  (((s.cleared now tableId).apply (.createSession x)).apply (.createGuest g)).apply
    (.signGuestToken (principal x g))

theorem Store.Offers.of_outlets {v : Store} (h : s.Offers outletId)
    (houtlets : v.outlets = s.outlets) : v.Offers outletId := by
  refine ⟨?_, ?_⟩
  · rw [Store.outletIn, houtlets]
    exact h.outlet
  · rw [Store.hasCapability, houtlets]
    exact h.qrOrdering

/-- What both ways into a session begin with. -/
theorem entry_bind {β : Type} {g : DiningTable → Unit → Tx β} {R : β → Store → Prop}
    (hoffers : s.Offers outletId) (ht : s.tableIn outletId tableId = some t)
    (h : (g t ()).wlp E V R s) :
    ((do
      let table ← resolveOutletAndTable outletId tableId
      let enabled ← assertQrOrderingEnabled outletId
      g table enabled) : Tx β).wlp E V R s := by
  obtain ⟨o, ho⟩ := hoffers.outlet
  refine (Txn.wlp_bind _ _ _ _).mpr (Txn.query_bind ?_)
  change (orThrow noSuchTable (s.outletIn outletId) >>= _).wlp E V _ s
  rw [ho]
  refine orThrow_bind (Txn.query_bind ?_)
  change (orThrow noSuchTable (s.tableIn outletId tableId)).wlp E V _ s
  rw [ht]
  refine (Txn.wlp_bind _ _ _ _).mpr (Txn.query_bind ?_)
  rw [hoffers.qrOrdering]
  exact h

theorem startSession_returns {R : Entered → Store → Prop} (hs : Sound s)
    (hoffers : s.Offers dto.outletId) (ht : s.tableIn dto.outletId dto.tableId = some t)
    (htaken : s.isTaken now dto.tableId = false) (hbusy : s.isBusy now dto.tableId = false)
    (h : ∀ id pin guestId, (∀ x ∈ s.sessions, x.id ≠ id) →
      R ⟨principal (dto.session id pin now) (dto.guest id guestId now),
          dto.session id pin now, some t, [dto.guest id guestId now]⟩
        (s.started now dto.tableId (dto.session id pin now) (dto.guest id guestId now))) :
    (startSession dto).wlp E (Moment now) R s := by
  refine entry_bind hoffers ht (Txn.query_bind ((Txn.wlp_bind _ _ _ _).mpr
    (endExisting_returns htaken ((Txn.wlp_bind _ _ _ _).mpr
      (isTableBusy_returns hs.cleared (Txn.throwIf_bind ?_ ?_))))))
  · rw [hs.isBusy_cleared htaken, hbusy]
    exact Bool.false_ne_true
  refine (Txn.wlp_bind _ _ _ _).mpr fun env _ => Txn.uuid_bind fun env₁ hfresh =>
    Txn.clock_bind fun env₂ hnow => Txn.clock_bind fun env₃ hnow' => ?_
  rw [hnow.now, hnow'.now]
  refine guarded_bind (takesSession_iff.mpr fun y hy => ⟨hfresh.session y hy, fun t' ht' => ?_⟩) ?_
  · obtain rfl : dto.tableId = t' := Option.some.inj ht'
    simpa using List.find?_eq_none.mp (hs.openSession_cleared now _) y hy
  refine (Txn.wlp_bind _ _ _ _).mpr (Txn.uuid_bind fun env₄ _ => Txn.clock_bind fun env₅ hnow => ?_)
  rw [hnow.now]
  refine guarded_bind ?_ fun _ _ => ?_
  · exact List.any_eq_true.mpr
      ⟨_, List.mem_append_right _ (List.mem_singleton_self _), decide_eq_true rfl⟩
  · exact h env₁.uuid (env.uuid % 10000) env₄.uuid
      ((cleared_rows s now _).2 _ |>.mp hfresh.session)

def noOrderHere : Failure := .http 409 "table_has_active_order" tableBusyMessage

def qrOrderingDisabled : Failure := .http 403 "qr_ordering_disabled" unavailableMessage

theorem startSession_refuses_taken (dto : StartSessionDto) (hoffers : s.Offers dto.outletId)
    (ht : s.tableIn dto.outletId dto.tableId = some t)
    (htaken : s.isTaken now dto.tableId = true) :
    (startSession dto).refuses (Moment now) alreadyOpen s :=
  entry_bind hoffers ht (Txn.query_bind (endExisting_refuses htaken).bind)

theorem startSession_refuses_busy (hs : Sound s) (hoffers : s.Offers dto.outletId)
    (ht : s.tableIn dto.outletId dto.tableId = some t)
    (htaken : s.isTaken now dto.tableId = false) (hbusy : s.isBusy now dto.tableId = true) :
    (startSession dto).refuses (Moment now) noOrderHere s := by
  refine entry_bind hoffers ht (Txn.query_bind ((Txn.wlp_bind _ _ _ _).mpr
    (endExisting_returns htaken ((Txn.wlp_bind _ _ _ _).mpr
      (isTableBusy_returns hs.cleared (Txn.throwIf_fails ?_ rfl))))))
  rw [hs.isBusy_cleared htaken, hbusy]


theorem startSession_refuses_unknown
    (h : s.outletIn dto.outletId = none ∨ s.tableIn dto.outletId dto.tableId = none) :
    (startSession dto).refuses V noSuchTable s := by
  refine (Txn.wlp_bind _ _ _ _).mpr (Txn.query_bind ?_)
  change (orThrow noSuchTable (s.outletIn dto.outletId) >>= _).wlp _ V _ s
  cases houtlet : s.outletIn dto.outletId with
  | none => rfl
  | some o =>
      have ht := h.resolve_left fun hnone => Option.some_ne_none o (houtlet.symm.trans hnone)
      refine orThrow_bind (Txn.query_bind ?_)
      change (orThrow noSuchTable (s.tableIn dto.outletId dto.tableId)).wlp _ V _ s
      rw [ht]
      rfl

theorem startSession_refuses_disabled {outlet : Outlet}
    (houtlet : s.outletIn dto.outletId = some outlet)
    (ht : s.tableIn dto.outletId dto.tableId = some t)
    (hqr : s.hasCapability (·.qrOrdering) dto.outletId = false) :
    (startSession dto).refuses V qrOrderingDisabled s := by
  refine (Txn.wlp_bind _ _ _ _).mpr (Txn.query_bind ?_)
  change (orThrow noSuchTable (s.outletIn dto.outletId) >>= _).wlp _ V _ s
  rw [houtlet]
  refine orThrow_bind (Txn.query_bind ?_)
  change (orThrow noSuchTable (s.tableIn dto.outletId dto.tableId)).wlp _ V _ s
  rw [ht]
  exact (Txn.wlp_bind _ _ _ _).mpr (Txn.query_bind
    ((Txn.wlp_bind (Txn.throwIf _ _) _ _ _).mp (Txn.throwIf_fails hqr rfl)))

/-! ### Joining -/

def invalidPin : Failure := .http 403 "invalid_pin" "Incorrect PIN"

variable {lockedOut : Option Failure}

/-- What the join comes to once the session is found, with what the attempt limiter says. -/
theorem joinSession_found {dto : JoinSessionDto} {R : Entered → Store → Prop}
    (hoffers : s.Offers dto.outletId) (ht : s.tableIn dto.outletId dto.tableId = some t)
    (hopen : s.openSession dto.tableId = some x) (hactive : x.isInactive now = false)
    (hlocked : ∀ e, lockedOut = some e → E e)
    (hwrong : lockedOut = none → x.sessionPin ≠ dto.pin → E invalidPin)
    (h : lockedOut = none → x.sessionPin = dto.pin →
      ∀ token guests v, R ⟨token, x, some t, guests⟩ v) :
    (joinSession dto lockedOut).wlp E (Moment now) R s := by
  refine entry_bind hoffers ht (Txn.query_bind (Txn.clock_bind fun env henv => ?_))
  change (orThrow _ ((s.openSession dto.tableId).filter _) >>= _).wlp _ (Moment now) _ s
  rw [hopen, henv.now, Option.filter_some, if_pos (by rw [hactive]; rfl)]
  refine orThrow_bind (refuse_bind hlocked fun hnone => (Txn.wlp_bind _ _ _ _).mpr
    (Txn.throwIf_or (hwrong hnone) fun hpin => ?_))
  refine (Txn.wlp_bind _ _ _ _).mpr (Txn.uuid_bind fun env₁ _ => Txn.clock_bind fun env₂ _ =>
    guarded_bind ?_ fun _ _ _ _ => h hnone (not_not.mp hpin) _ _ _)
  exact List.any_eq_true.mpr ⟨x, (Store.openSession_some hopen).1, decide_eq_true rfl⟩

/-! ### A party at the table -/

variable {g : Guest}

theorem started_rows (s : Store) (now : ℤ) (tableId : ℕ) (x : TableSession) (g : Guest) :
    (s.started now tableId x g).outlets = s.outlets ∧
      (s.started now tableId x g).tables = s.tables ∧
      (s.started now tableId x g).orders = s.orders ∧
      (s.started now tableId x g).tenantActive = s.tenantActive := by
  unfold Store.started Store.cleared
  cases s.openSession tableId <;> exact ⟨rfl, rfl, rfl, rfl⟩

theorem started_sessions (s : Store) (now : ℤ) (tableId : ℕ) (x : TableSession) (g : Guest) :
    (s.started now tableId x g).sessions = (s.cleared now tableId).sessions ++ [x] := rfl

theorem Sound.openSession_started (hs : Sound s) (now : ℤ) (g : Guest)
    (hx : x.isOpenAt tableId = true) :
    (s.started now tableId x g).openSession tableId = some x := by
  have hnone := hs.openSession_cleared now tableId
  unfold Store.openSession at hnone ⊢
  rw [started_sessions, List.find?_append, hnone, List.find?_singleton, if_pos hx, Option.none_or]

/-- Who had the table before has it no longer. -/
theorem Sound.closed_cleared (hs : Sound s) (now : ℤ) (hx : x ∈ s.sessions)
    (hopen : x.isOpenAt tableId = true) :
    ∃ x' ∈ (s.cleared now tableId).sessions, x'.id = x.id ∧ x'.status = .closed := by
  rw [Store.cleared, hs.openSession hx hopen]
  refine ⟨x.ended false now, ?_, rfl, rfl⟩
  have hmem := List.mem_map_of_mem
    (f := fun y : TableSession => if y.id = x.id then y.ended false now else y) hx
  rwa [if_pos rfl] at hmem

theorem started_isTaken (hs : Sound s) {id guestId : ℕ} {at_ : ℤ}
    (hat : at_ ≤ now + abandonedAfter) :
    (s.started now dto.tableId (dto.session id pin now) (dto.guest id guestId now)).isTaken at_
      dto.tableId = true := by
  have hopen : (dto.session id pin now).isOpenAt dto.tableId = true :=
    TableSession.isOpenAt_iff.mpr ⟨rfl, rfl⟩
  rw [Store.isTaken, hs.openSession_started now _ hopen, Option.any_some, Bool.not_eq_true',
    Bool.or_eq_false_iff]
  constructor
  · have hlater : ¬now + sessionIdleTtl ≤ at_ := by
      simp only [sessionIdleTtl, abandonedAfter] at hat ⊢
      omega
    exact (Bool.false_or _).trans (decide_eq_false hlater)
  · refine Bool.and_eq_false_imp.mpr fun _ => decide_eq_false ?_
    have hactivity : now ≤ (s.started now dto.tableId (dto.session id pin now)
        (dto.guest id guestId now)).lastActivity (dto.session id pin now) :=
      (le_max_left _ _).trans (le_max_left _ _)
    omega

end Alone

/-! ### The answer and what follows -/

/-- A party has just started at the table. -/
structure Started (s v : Store) (now : ℤ) (dto : StartSessionDto) (entered : Entered) : Prop where
  session : v.openSession dto.tableId = some entered.view.session
  fresh : ∀ x ∈ s.sessions, x.id ≠ entered.view.session.id
  before : ∀ x ∈ s.sessions, x.isOpenAt dto.tableId = true →
    ∃ x' ∈ v.sessions, x'.id = x.id ∧ x'.status = .closed
  starter : ∃ g ∈ v.guests, entered.view.guests = [g] ∧ g.name = dto.name ∧
    g.phone = some dto.phone ∧ entered.principal = principal entered.view.session g ∧
    entered.principal ∈ v.tokens
  /-- Whoever knows the PIN is let in as long as the session runs, and nobody else; who was locked
  out is told so. -/
  join : ∀ at_ < now + sessionIdleTtl, ∀ name lockedOut,
    (joinSession ⟨dto.outletId, dto.tableId, name, entered.view.session.sessionPin⟩
      lockedOut).answers (Moment at_) lockedOut
        (fun joined _ => joined.view.session = entered.view.session) v
  wrongPin : ∀ at_ < now + sessionIdleTtl, ∀ name pin lockedOut,
    pin ≠ entered.view.session.sessionPin →
    (joinSession ⟨dto.outletId, dto.tableId, name, pin⟩ lockedOut).refuses (Moment at_)
      (lockedOut.getD invalidPin) v
  /-- For half an hour the table cannot be started again. -/
  again : ∀ at_ ≤ now + abandonedAfter, ∀ name phone,
    (startSession ⟨dto.outletId, dto.tableId, name, phone⟩).refuses (Moment at_) alreadyOpen v

/-- What becomes of somebody who starts a session having been told `answer`. -/
def OutletAvailability.Means (answer : OutletAvailability) (s : Store) (now : ℤ)
    (dto : StartSessionDto) : Prop :=
  match answer.reason with
  | none =>
      if s.isTaken now dto.tableId then (startSession dto).refuses (Moment now) alreadyOpen s
      else (startSession dto).returns (Moment now) (fun entered v => Started s v now dto entered) s
  | some .tableBusy =>
      (startSession dto).refuses (Moment now)
        (if s.isTaken now dto.tableId then alreadyOpen else noOrderHere) s
  | some .qrOrderingDisabled =>
      (startSession dto).refuses (Moment now)
        (if (s.tableIn dto.outletId dto.tableId).isSome then qrOrderingDisabled else noSuchTable) s
  | some .notFound =>
      s.tenantActive = true → (startSession dto).refuses (Moment now) noSuchTable s

section Answer

variable {s : Store} {now : ℤ} {dto : StartSessionDto} {t : DiningTable}

theorem Sound.started (hs : Sound s) (dto : StartSessionDto) (hoffers : s.Offers dto.outletId)
    (ht : s.tableIn dto.outletId dto.tableId = some t) {id pin guestId : ℕ}
    (hfresh : ∀ x ∈ s.sessions, x.id ≠ id) :
    Started s (s.started now dto.tableId (dto.session id pin now) (dto.guest id guestId now)) now
      dto ⟨principal (dto.session id pin now) (dto.guest id guestId now),
        dto.session id pin now, some t, [dto.guest id guestId now]⟩ := by
  obtain ⟨houtlets, htables, -, -⟩ := started_rows s now dto.tableId (dto.session id pin now)
    (dto.guest id guestId now)
  have hoffers' : (s.started now dto.tableId (dto.session id pin now)
      (dto.guest id guestId now)).Offers dto.outletId := hoffers.of_outlets houtlets
  have ht' : (s.started now dto.tableId (dto.session id pin now)
      (dto.guest id guestId now)).tableIn dto.outletId dto.tableId = some t := by
    rw [Store.tableIn, htables]
    exact ht
  have hopen : (dto.session id pin now).isOpenAt dto.tableId = true :=
    TableSession.isOpenAt_iff.mpr ⟨rfl, rfl⟩
  replace hopen := hs.openSession_started now (dto.guest id guestId now) hopen
  have hactive : ∀ at_ < now + sessionIdleTtl, (dto.session id pin now).isInactive at_ = false :=
    fun at_ hat => (Bool.false_or _).trans (decide_eq_false (not_le.mpr hat))
  refine ⟨hopen, hfresh, fun x hx hx' => ?_, ⟨dto.guest id guestId now, ?_, rfl, rfl, rfl, rfl, ?_⟩,
    fun at_ hat name lockedOut => ?_, fun at_ hat name pin' lockedOut hpin => ?_,
    fun at_ hat name phone => ?_⟩
  · obtain ⟨x', hmem, hx'⟩ := hs.closed_cleared now hx hx'
    exact ⟨x', List.mem_append_left _ hmem, hx'⟩
  · exact List.mem_append_right _ (List.mem_singleton_self _)
  · exact List.mem_append_right _ (List.mem_singleton_self _)
  · refine Txn.answers_iff.mpr (joinSession_found hoffers' ht' hopen (hactive at_ hat)
      (fun _ he => he) (fun _ hne => absurd rfl hne) fun hnone _ _ _ _ => ⟨hnone, rfl⟩)
  · refine joinSession_found hoffers' ht' hopen (hactive at_ hat) (fun e he => ?_) (fun hnone _ => ?_)
      fun _ heq => absurd heq.symm hpin
    · rw [he, Option.getD_some]
    · rw [hnone, Option.getD_none]
  · exact startSession_refuses_taken ⟨dto.outletId, dto.tableId, name, phone⟩ hoffers' ht'
      (started_isTaken hs hat)

/-- The answer, and what it means for whoever starts a session. -/
structure Answered (s : Store) (now : ℤ) (outletId tableId : ℕ) (answer : OutletAvailability) :
    Prop where
  told : (checkAvailability outletId (some tableId)).returns (Moment now)
    (fun a v => a = answer ∧ v = s) s
  reason : answer.available = answer.reason.isNone
  means : ∀ name phone, answer.Means s now ⟨outletId, tableId, name, phone⟩

variable {outletId tableId : ℕ}

def Store.availability (s : Store) (now : ℤ) (outletId tableId : ℕ) : OutletAvailability :=
  if s.outletIn outletId = none ∨ s.tenantActive = false then unavailable .notFound
  else if s.hasCapability (·.qrOrdering) outletId = false then unavailable .qrOrderingDisabled
  else if s.tableIn outletId tableId = none then unavailable .notFound
  else if s.isBusy now tableId then unavailable .tableBusy
  else available

theorem checkAvailability_returns {E : Failure → Prop} {R : OutletAvailability → Store → Prop}
    (hs : Sound s) (h : R (s.availability now outletId tableId) s) :
    (checkAvailability outletId (some tableId)).wlp E (Moment now) R s := by
  unfold Store.availability at h
  refine Txn.query_bind ?_
  change (if s.outletIn outletId = none then _ else _ : Tx _).wlp E (Moment now) R s
  by_cases houtlet : s.outletIn outletId = none
  · rw [if_pos (.inl houtlet)] at h
    rw [if_pos houtlet]
    exact h
  rw [if_neg houtlet]
  refine Txn.query_bind ?_
  by_cases hactive : s.tenantActive = false
  · rw [if_pos (.inr hactive)] at h
    rw [if_pos hactive]
    exact h
  rw [if_neg (not_or.mpr ⟨houtlet, hactive⟩)] at h
  rw [if_neg hactive]
  refine Txn.query_bind ?_
  by_cases hqr : s.hasCapability (·.qrOrdering) outletId = false
  · rw [if_pos hqr] at h ⊢
    exact h
  rw [if_neg hqr] at h ⊢
  refine Txn.query_bind ?_
  change (if s.tableIn outletId tableId = none then _ else _ : Tx _).wlp E (Moment now) R s
  by_cases ht : s.tableIn outletId tableId = none
  · rw [if_pos ht] at h ⊢
    exact h
  rw [if_neg ht] at h ⊢
  refine (Txn.wlp_bind _ _ _ _).mpr (isTableBusy_returns hs ?_)
  by_cases hbusy : s.isBusy now tableId = true
  · rw [if_pos hbusy] at h ⊢
    exact h
  · rw [if_neg hbusy] at h ⊢
    exact h

theorem Sound.availability_means (hs : Sound s) (now : ℤ) (dto : StartSessionDto) :
    (s.availability now dto.outletId dto.tableId).Means s now dto := by
  unfold Store.availability
  by_cases hthere : s.outletIn dto.outletId = none ∨ s.tenantActive = false
  · rw [if_pos hthere]
    intro hactive
    have houtlet := hthere.resolve_right fun h => Bool.false_ne_true (h.symm.trans hactive)
    exact startSession_refuses_unknown (.inl houtlet)
  rw [if_neg hthere]
  obtain ⟨outlet, houtlet⟩ := Option.ne_none_iff_exists'.mp (not_or.mp hthere).1
  by_cases hqr : s.hasCapability (·.qrOrdering) dto.outletId = false
  · rw [if_pos hqr]
    change (startSession dto).refuses (Moment now) (if _ then _ else _) s
    cases ht : s.tableIn dto.outletId dto.tableId with
    | none => exact startSession_refuses_unknown (.inr ht)
    | some t => exact startSession_refuses_disabled houtlet ht hqr
  rw [if_neg hqr]
  have hoffers : s.Offers dto.outletId := ⟨⟨outlet, houtlet⟩, Bool.not_eq_false _ |>.mp hqr⟩
  cases ht : s.tableIn dto.outletId dto.tableId with
  | none =>
      rw [if_pos rfl]
      exact fun _ => startSession_refuses_unknown (.inr ht)
  | some t =>
      rw [if_neg (Option.some_ne_none t)]
      have hrefuses : s.isTaken now dto.tableId = true → _ :=
        startSession_refuses_taken dto hoffers ht
      cases hbusy : s.isBusy now dto.tableId with
      | true =>
          rw [if_pos rfl]
          change (startSession dto).refuses (Moment now) (if _ then _ else _) s
          split
          · exact hrefuses ‹_›
          · exact startSession_refuses_busy hs hoffers ht (Bool.not_eq_true _ |>.mp ‹_›) hbusy
      | false =>
          rw [if_neg Bool.false_ne_true]
          change if _ then _ else _
          split
          · exact hrefuses ‹_›
          · exact startSession_returns hs hoffers ht (Bool.not_eq_true _ |>.mp ‹_›) hbusy
              fun id pin guestId hfresh => hs.started dto hoffers ht hfresh

theorem availability_reason : (s.availability now outletId tableId).available =
    (s.availability now outletId tableId).reason.isNone := by
  unfold Store.availability
  repeat' split
  all_goals rfl

end Answer

/-- **The answer and what follows.** In every state that the requests reach, whatever the
interleaving, a guest who is told that a table can be ordered from can start a session there, unless
a party has the table and lets the guest in with its PIN, and one who is told why not is refused for
that reason. -/
theorem availability_keeps_its_word {s : Store} (hs : Sound s)
    {S : System Store Key Empty Write Failure} {es : List (Event Store Key Empty Write Failure)}
    (h : Run IsRequest (fun _ _ => True) (System.start s) es S) (now : ℤ) (outletId tableId : ℕ) :
    ∃ answer, Answered S.store now outletId tableId answer := by
  have hsound := (holds_of_run hs h).1.inv
  exact ⟨_, checkAvailability_returns hsound ⟨rfl, rfl⟩, availability_reason,
    fun name phone => hsound.availability_means now ⟨outletId, tableId, name, phone⟩⟩

/-- The waiter's order keeps the table busy, though the session that was there before is closed. -/
theorem availability_keeps_its_word_sample : ∃ S,
    Run IsRequest (fun _ _ => True) (System.start cafe) raceForTable S ∧
    S.store.availability 700 1 5 = unavailable .tableBusy ∧
    ∃ answer, Answered S.store 700 1 5 answer := by
  have hplay : ((System.start cafe).play raceForTable).map (fun S =>
      S.store.availability 700 1 5) = some (unavailable .tableBusy) := by decide +kernel
  obtain ⟨S, -, hrun, hstore⟩ := Run.of_play_map hplay fun p hp => begin_raceForTable hp
  exact ⟨S, hrun, hstore, availability_keeps_its_word cafe_sound hrun 700 1 5⟩

/-! ### From start to settlement -/

/-- What the guard has against a signed token of a tenant that is active. -/
def GuestRequest.refused (request : GuestRequest) : Option Failure :=
  if request.expired = true then some unauthorized
  else if request.misaddressed = true then some tenantMismatch
  else none

/-- A guest of the table's session, whose token the guard lets through. -/
structure Seated (v : Store) (tableId : ℕ) (p : GuestPrincipal) (x : TableSession) : Prop where
  sound : Sound v
  active : v.tenantActive = true
  token : p ∈ v.tokens
  session : v.openSession tableId = some x
  own : p.sessionId = x.id
  tables : v.Has tableId p.outletId

section Seated

variable {s v : Store} {E : Failure → Prop} {now : ℤ} {tableId : ℕ} {p : GuestPrincipal}
  {x : TableSession} {o : Order} {request : GuestRequest} {refused : Option Failure}

theorem Sound.findSession (hs : Sound s) (hx : x ∈ s.sessions) :
    s.sessions.find? (·.id = x.id) = some x :=
  find?_of_one (hs.sessionIds x.id) hx (decide_eq_true rfl)

theorem Sound.findOrder (hs : Sound s) (ho : o ∈ s.orders) :
    s.orders.find? (·.id = o.id) = some o :=
  find?_of_one (hs.orderIds o.id) ho (decide_eq_true rfl)

/-- The guard lets a signed token pass that has not run out and comes to the right address. -/
theorem canActivate_bind {β : Type} {V : Env → Store → Prop} {g : Unit → Tx β}
    {R : β → Store → Prop} (htoken : request.guest ∈ v.tokens) (hactive : v.tenantActive = true)
    (he : ∀ e, request.refused = some e → E e)
    (h : request.refused = none → (g ()).wlp E V R v) : (canActivate request >>= g).wlp E V R v := by
  have hsigned : ¬v.tokens.contains request.guest = false := by
    rw [List.contains_iff_mem.mpr htoken]
    exact fun h => Bool.false_ne_true h.symm
  unfold GuestRequest.refused at he h
  refine (Txn.wlp_bind _ _ _ _).mpr (Txn.query_bind ((Txn.wlp_bind _ _ _ _).mpr
    (Txn.throwIf_or (fun hexpired => ?_) fun hvalid => Txn.query_bind (Txn.throwIf_bind ?_
      (Txn.throwIf_or (fun hmisaddressed => ?_) fun haddress => ?_)))))
  · rw [if_pos (hexpired.resolve_left hsigned)] at he
    exact he _ rfl
  · rw [hactive]
    exact fun h => Bool.false_ne_true h.symm
  · rw [if_neg (not_or.mp hvalid).2, if_pos hmisaddressed] at he
    exact he _ rfl
  · rw [if_neg (not_or.mp hvalid).2, if_neg haddress] at h
    exact h rfl

theorem loadActiveSession_bind {β : Type} {g : TableSession → Tx β} {R : β → Store → Prop}
    (hs : Sound v) (hx : x ∈ v.sessions) (hown : p.sessionId = x.id)
    (hactive : x.isInactive now = false) (h : (g x).wlp E (Moment now) R v) :
    (loadActiveSession p >>= g).wlp E (Moment now) R v := by
  refine (Txn.wlp_bind _ _ _ _).mpr (Txn.query_bind ?_)
  rw [hown, hs.findSession hx]
  refine orThrow_bind (Txn.clock_bind fun env henv => Txn.throwIf_bind ?_ h)
  rw [henv.now, hactive]
  exact Bool.false_ne_true

theorem Sound.ended (hs : Sound s) (hx : x ∈ s.sessions) (h : x.status ≠ .open) :
    Ended x.id s := by
  refine ⟨⟨x, hx, rfl⟩, fun y hy hid => ?_⟩
  obtain rfl : y = x := eq_of_one (hs.sessionIds x.id) hy hx (decide_eq_true hid)
    (decide_eq_true rfl)
  exact h

theorem addCartLine_answers {R : Unit → Store → Prop} (hv : Seated v tableId request.guest x)
    (hactive : x.isInactive now = false)
    (h : ∀ line : CartLine, line.sessionId = x.id → R () (v.apply (.createCartLine line))) :
    (Request.addCartLine request refused).prog.answers (Moment now) (request.refused.or refused)
      R v := by
  refine Txn.answers_iff.mpr (canActivate_bind hv.token hv.active (fun e he => ?_) fun hnone =>
    loadActiveSession_bind hv.sound (Store.openSession_some hv.session).1 hv.own hactive
      (refuse_bind (fun e he => ?_) fun hallowed => ?_))
  · rw [he, Option.some_or]
  · rw [hnone, Option.none_or, he]
  · exact fun env _ env' _ _ _ => ⟨by rw [hnone, Option.none_or, hallowed],
      h ⟨env.uuid, x.id, request.guest.id, env'.now⟩ rfl⟩

theorem updateOrderStatus_bind {β : Type} {id : ℕ} {status : OrderStatus} {V : Env → Store → Prop}
    {g : Unit → Tx β} {R : β → Store → Prop} (htakes : v.takesStatus id status = true)
    (h : (g ()).wlp E V R (v.apply (.updateOrderStatus id status))) :
    (updateOrderStatus id status >>= g).wlp E V R v := by
  intro env _
  simp only [htakes, if_true]
  exact h

/-- The order that the guests of a table place. -/
def Order.placed (outletId tableId sessionId id : ℕ) (now : ℤ) : Order :=
  ⟨id, outletId, some tableId, none, .open, some sessionId, now⟩

/-- An order may be sent on that is the only one of its table. -/
theorem takesStatus_created (hfresh : ∀ o' ∈ s.orders, o'.id ≠ o.id)
    (htable : o.tableId = some tableId) (hnone : s.activeOrder tableId = none)
    (status : OrderStatus) : (s.apply (.createOrder o)).takesStatus o.id status = true := by
  have hmem : ∀ o' ∈ (s.apply (.createOrder o)).orders, o'.id = o.id → o' = o := by
    intro o' ho' hid
    rcases List.mem_append.mp ho' with ho' | ho'
    · exact absurd hid (hfresh o' ho')
    · exact List.mem_singleton.mp ho'
  rw [Store.takesStatus, Bool.and_eq_true]
  refine ⟨List.any_eq_true.mpr ⟨o, List.mem_append_right _ (List.mem_singleton_self o),
    decide_eq_true rfl⟩, Bool.or_eq_true_iff.mpr (.inr (List.all_eq_true.mpr fun o' ho' => ?_))⟩
  by_cases hid : o'.id = o.id
  · refine Bool.or_eq_true_iff.mpr (.inr (List.all_eq_true.mpr fun o'' ho'' => ?_))
    rw [hmem o' ho' hid, htable, Option.any_some]
    by_cases hid' : o''.id = o.id
    · rw [decide_eq_true hid', Bool.true_or]
    · rcases List.mem_append.mp ho'' with ho'' | ho''
      · have hinactive := List.find?_eq_none.mp hnone o'' ho''
        rw [Bool.not_eq_true _ |>.mp hinactive, Bool.not_false, Bool.or_true]
      · exact absurd (congrArg Order.id (List.mem_singleton.mp ho'')) hid'
  · rw [decide_eq_true hid, Bool.true_or]

theorem placeOrder_answers {R : Unit → Store → Prop} (hv : Seated v tableId request.guest x)
    (hactive : x.isInactive now = false) (hline : ∃ line ∈ v.cartLines, line.sessionId = x.id)
    (hnone : v.liveOrder now tableId = none)
    (h : ∀ id, R () ((((v.detached now tableId).apply
      (.createOrder (.placed request.guest.outletId tableId x.id id now))).apply
        (.updateOrderStatus id .sent)).apply (.deleteCartLines x.id))) :
    (Request.placeOrder request refused).prog.answers (Moment now) (request.refused.or refused)
      R v := by
  obtain ⟨hx, hopen⟩ := Store.openSession_some hv.session
  have htable := (TableSession.isOpenAt_iff.mp hopen).1
  have hnone' := hv.sound.activeOrder_detached.trans hnone
  refine Txn.answers_iff.mpr (canActivate_bind hv.token hv.active (fun e he => ?_) fun hlet =>
    loadActiveSession_bind hv.sound hx hv.own hactive (Txn.query_bind (Txn.throwIf_bind ?_ ?_)))
  · rw [he, Option.some_or]
  · obtain ⟨line, hline, hsession⟩ := hline
    exact List.ne_nil_of_mem (List.mem_filter.mpr ⟨hline, decide_eq_true hsession⟩)
  rw [htable]
  refine (Txn.wlp_bind _ _ _ _).mpr ((Txn.wlp_bind _ _ _ _).mpr
    (detachStaleTableOrder_returns (Txn.query_bind ?_)))
  change (raiseIf (((v.detached now tableId).activeOrder tableId).isSome = true) _ _ _).wlp _
    (Moment now) _ _
  rw [hnone']
  refine Txn.uuid_bind fun env hfresh => Txn.clock_bind fun env' hnow => ?_
  rw [hnow.now]
  have hcreated : ∀ e, refused = some e → request.refused.or refused = some e := fun e he => by
    rw [hlet, Option.none_or, he]
  refine guarded_bind (takesOrder_iff.mpr fun o' ho' => ⟨hfresh.order o' ho', fun t ht => ?_⟩)
    (refuse_bind hcreated fun hallowed => updateOrderStatus_bind (takesStatus_created
      (o := .placed request.guest.outletId tableId x.id env.uuid now) hfresh.order rfl hnone' .sent)
        fun _ _ => ⟨by rw [hlet, Option.none_or, hallowed], h env.uuid⟩)
  obtain rfl : tableId = t := Option.some.inj ht
  simpa using List.find?_eq_none.mp hnone' o' ho'

/-- The end of the bill closes the order and settles the session. -/
theorem completeBill_answers {R : Unit → Store → Prop} (hs : Sound v) (ho : o ∈ v.orders)
    (hsession : o.sessionId = some x.id)
    (h : R () ((v.apply (.updateOrderStatus o.id .closed)).apply (.endSession x.id true now))) :
    (Request.completeBill o.id refused).prog.answers (Moment now) refused R v := by
  refine Txn.answers_iff.mpr ((Txn.wlp_bind _ _ _ _).mpr (Txn.query_bind ?_))
  rw [hs.findOrder ho]
  refine (Txn.wlp_bind _ _ _ _).mpr (refuse_bind (fun e he => he) fun hallowed =>
    (Txn.wlp_bind (updateOrderStatus _ _) _ _ _).mp (updateOrderStatus_bind ?_ ?_))
  · exact Bool.and_eq_true_iff.mpr
      ⟨List.any_eq_true.mpr ⟨o, ho, decide_eq_true rfl⟩, Bool.true_or _⟩
  · rw [hsession]
    refine Txn.clock_bind fun env henv _ _ => ?_
    rw [henv.now]
    exact ⟨hallowed, h⟩

/-- Nothing is left on the table whose order was closed. -/
theorem Sound.activeOrder_closed (hs : Sound s) (ho : s.activeOrder tableId = some o) :
    (s.apply (.updateOrderStatus o.id .closed)).activeOrder tableId = none := by
  refine List.find?_eq_none.mpr fun o' ho' hactive => ?_
  obtain ⟨o'', ho'', rfl⟩ := List.mem_map.mp ho'
  split at hactive
  · exact (Order.isActiveAt_iff.mp hactive).2 rfl
  · rename_i hid
    have heq := hs.activeOrder ho'' hactive
    rw [ho] at heq
    exact hid (congrArg Order.id (Option.some.inj heq).symm)

/-- The party has paid: its tokens are dead, and the table is as good as before. -/
structure Turned (v : Store) (tableId : ℕ) (p : GuestPrincipal) : Prop where
  token : ∀ at_, ∀ request : GuestRequest, request.guest = p → (do
    canActivate request
    getCurrentSession request.guest).refuses (Moment at_) (request.refused.getD sessionClosed) v
  available : ∀ at_, (checkAvailability p.outletId (some tableId)).returns (Moment at_)
    (fun a v' => a = GuestTables.available ∧ v' = v) v
  next : ∀ at_ name phone, (startSession ⟨p.outletId, tableId, name, phone⟩).returns (Moment at_)
    (fun entered v' => Started v v' at_ ⟨p.outletId, tableId, name, phone⟩ entered) v

/-- Settled, the party has the table no longer. -/
theorem Seated.openSession_settled (hv : Seated v tableId p x) (orderId : ℕ) :
    ((v.apply (.updateOrderStatus orderId .closed)).apply
      (.endSession x.id true now)).openSession tableId = none := by
  have hclosed : Sound (v.apply (.updateOrderStatus orderId .closed)) :=
    hv.sound.plain [.order orderId] ⟨rfl, List.mem_singleton_self _⟩
  have hany := hclosed.any_isOpenAt_ended hv.session true now tableId
  rw [if_pos rfl, ← Store.openSession_isSome] at hany
  rwa [Option.isSome_eq_false_iff, Option.isNone_iff_eq_none] at hany

/-- Closed, its order keeps nobody from the table. -/
theorem Seated.isBusy_settled (hv : Seated v tableId p x) (ho : v.activeOrder tableId = some o)
    (at_ : ℤ) : ((v.apply (.updateOrderStatus o.id .closed)).apply
      (.endSession x.id true now)).isBusy at_ tableId = false := by
  have hlive : ((v.apply (.updateOrderStatus o.id .closed)).apply
      (.endSession x.id true now)).liveOrder at_ tableId = none := by
    rw [Store.liveOrder]
    exact congrArg _ (hv.sound.activeOrder_closed ho)
  rw [Store.isBusy, hlive, Option.any_none]

theorem Seated.turned (hv : Seated v tableId p x) (hoffers : v.Offers p.outletId)
    (ho : v.activeOrder tableId = some o)
    (hsound : Sound ((v.apply (.updateOrderStatus o.id .closed)).apply
      (.endSession x.id true now))) :
    Turned ((v.apply (.updateOrderStatus o.id .closed)).apply (.endSession x.id true now))
      tableId p := by
  obtain ⟨t, ht⟩ := hv.sound.findTable_eq hv.tables
  refine ⟨fun at_ request hown => ?_, fun at_ => checkAvailability_returns hsound ⟨?_, rfl⟩,
    fun at_ name phone => ?_⟩
  · subst hown
    refine canActivate_bind hv.token hv.active (fun e he => ?_) fun hnone => ?_
    · rw [he, Option.getD_some]
    rw [hnone, Option.getD_none]
    refine (loadActiveSession_refuses ?_).bind
    have hmem := List.mem_map_of_mem (f := fun y : TableSession =>
      if y.id = x.id then y.ended true now else y) (Store.openSession_some hv.session).1
    rw [if_pos rfl] at hmem
    have hended := hsound.ended hmem SessionStatus.noConfusion
    rw [hv.own]
    exact hended
  · obtain ⟨outlet, houtlet⟩ := hoffers.outlet
    have hthere : ¬(v.outletIn p.outletId = none ∨ v.tenantActive = false) := by
      rw [houtlet, hv.active]
      simp
    have hqr : ¬v.hasCapability (·.qrOrdering) p.outletId = false := by
      rw [hoffers.qrOrdering]
      exact fun h => Bool.false_ne_true h.symm
    have htable : ¬v.tableIn p.outletId tableId = none := fun h =>
      Option.some_ne_none t (ht.symm.trans h)
    refine (if_neg hthere).trans ((if_neg hqr).trans ((if_neg htable).trans (if_neg ?_)))
    rw [hv.isBusy_settled ho at_]
    exact Bool.false_ne_true
  · have hoffers' : ((v.apply (.updateOrderStatus o.id .closed)).apply
        (.endSession x.id true now)).Offers p.outletId := ⟨hoffers.outlet, hoffers.qrOrdering⟩
    refine startSession_returns hsound hoffers' ht ?_ (hv.isBusy_settled ho at_)
      fun id pin guestId hfresh =>
        hsound.started ⟨p.outletId, tableId, name, phone⟩ hoffers' ht hfresh
    rw [Store.isTaken, hv.openSession_settled, Option.any_none]

theorem availability_available {outletId : ℕ}
    (h : s.availability now outletId tableId = available) :
    s.Offers outletId ∧ s.tenantActive = true ∧ (∃ t, s.tableIn outletId tableId = some t) ∧
      s.isBusy now tableId = false := by
  unfold Store.availability at h
  by_cases hthere : s.outletIn outletId = none ∨ s.tenantActive = false
  · rw [if_pos hthere] at h
    cases h
  rw [if_neg hthere] at h
  obtain ⟨houtlet, hactive⟩ := not_or.mp hthere
  by_cases hqr : s.hasCapability (·.qrOrdering) outletId = false
  · rw [if_pos hqr] at h
    cases h
  rw [if_neg hqr] at h
  by_cases ht : s.tableIn outletId tableId = none
  · rw [if_pos ht] at h
    cases h
  rw [if_neg ht] at h
  by_cases hbusy : s.isBusy now tableId = true
  · rw [if_pos hbusy] at h
    cases h
  · exact ⟨⟨Option.ne_none_iff_exists'.mp houtlet, Bool.not_eq_false _ |>.mp hqr⟩,
      Bool.not_eq_false _ |>.mp hactive, Option.ne_none_iff_exists'.mp ht,
      Bool.not_eq_true _ |>.mp hbusy⟩

theorem has_of_tableIn {outletId : ℕ} {t : DiningTable}
    (h : s.tableIn outletId tableId = some t) : s.Has tableId outletId := by
  obtain ⟨hfound, houtlet⟩ := Option.filter_eq_some_iff.mp h
  have hid := List.find?_some hfound
  exact ⟨t, List.mem_of_find?_eq_some hfound, of_decide_eq_true hid, of_decide_eq_true houtlet⟩

/-- What the placed order looks like once it was sent to the kitchen. -/
theorem Sound.activeOrder_placed {id outletId sessionId : ℕ}
    (hs : Sound ((((v.detached now tableId).apply
      (.createOrder (.placed outletId tableId sessionId id now))).apply
        (.updateOrderStatus id .sent)).apply (.deleteCartLines sessionId))) :
    ((((v.detached now tableId).apply
      (.createOrder (.placed outletId tableId sessionId id now))).apply
        (.updateOrderStatus id .sent)).apply (.deleteCartLines sessionId)).activeOrder tableId =
      some { Order.placed outletId tableId sessionId id now with status := .sent } := by
  refine hs.activeOrder ?_ (Order.isActiveAt_iff.mpr ⟨rfl, OrderStatus.noConfusion⟩)
  have hmem : Order.placed outletId tableId sessionId id now ∈
      ((v.detached now tableId).apply
        (.createOrder (.placed outletId tableId sessionId id now))).orders :=
    List.mem_append_right _ (List.mem_singleton_self _)
  have hid : (Order.placed outletId tableId sessionId id now).id = id := rfl
  have hsent := List.mem_map_of_mem (f := fun o : Order =>
    if o.id = id then { o with status := .sent } else o) hmem
  rwa [if_pos hid] at hsent

/-- A party keeps its table where sessions, tables and tokens stay. -/
theorem Seated.kept {v' : Store} (hv : Seated v tableId p x) (hsound : Sound v')
    (htables : v'.tables = v.tables) (hsessions : v'.sessions = v.sessions)
    (htokens : v'.tokens = v.tokens) (htenant : v'.tenantActive = v.tenantActive) :
    Seated v' tableId p x := by
  refine ⟨hsound, htenant.trans hv.active, htokens ▸ hv.token, ?_, hv.own, ?_⟩
  · rw [Store.openSession, hsessions]
    exact hv.session
  · rw [Store.Has, htables]
    exact hv.tables

/-- A party orders and pays, as far as it is not refused. -/
theorem Seated.orders {until_ : ℤ} (hv : Seated v tableId p x) (hoffers : v.Offers p.outletId)
    (hrunning : ∀ at_ < until_, x.isInactive at_ = false)
    (hnone : ∀ at_ ≥ now, v.liveOrder at_ tableId = none) :
    ∀ at₁ < until_, ∀ request₁ : GuestRequest, request₁.guest = p → ∀ refused₁,
      (Request.addCartLine request₁ refused₁).prog.answers (Moment at₁)
        (request₁.refused.or refused₁) (fun _ v =>
      ∀ at₂, now ≤ at₂ → at₂ < until_ → ∀ request₂ : GuestRequest, request₂.guest = p →
      ∀ refused₂, (Request.placeOrder request₂ refused₂).prog.answers (Moment at₂)
        (request₂.refused.or refused₂) (fun _ v =>
        ∃ o, v.liveOrder at₂ tableId = some o ∧ o.status = .sent ∧ o.ownerId = none ∧
          o.sessionId = some p.sessionId ∧
          ∀ at₃ refused₃, (Request.completeBill o.id refused₃).prog.answers (Moment at₃) refused₃
            (fun _ v => Turned v tableId p) v) v) v := by
  intro at₁ hat₁ request₁ hown₁ refused₁
  have hadd : (Request.addCartLine request₁ refused₁).prog.answers (Moment at₁)
      (request₁.refused.or refused₁)
      (fun _ v₁ => ∃ line, line.sessionId = x.id ∧ v₁ = v.apply (.createCartLine line)) v :=
    addCartLine_answers (hown₁ ▸ hv) (hrunning at₁ hat₁) fun line hline => ⟨line, hline, rfl⟩
  refine hadd.imp (Fits.alone ((Request.addCartLine request₁ refused₁).fits hv.sound))
    fun _ v₁ h hsound at₂ hnow hat₂ request₂ hown₂ refused₂ => ?_
  obtain ⟨line, hline, rfl⟩ := h
  have hv₁ : Seated (v.apply (.createCartLine line)) tableId p x :=
    hv.kept hsound rfl rfl rfl rfl
  have hplace : (Request.placeOrder request₂ refused₂).prog.answers (Moment at₂)
      (request₂.refused.or refused₂) (fun _ v₂ => ∃ id, v₂ =
        ((((v.apply (.createCartLine line)).detached at₂ tableId).apply
          (.createOrder (.placed p.outletId tableId x.id id at₂))).apply
            (.updateOrderStatus id .sent)).apply (.deleteCartLines x.id))
      (v.apply (.createCartLine line)) :=
    placeOrder_answers (hown₂ ▸ hv₁) (hrunning at₂ hat₂)
      ⟨line, List.mem_append_right _ (List.mem_singleton_self _), hline⟩ (hnone at₂ hnow)
      fun id => ⟨id, by rw [hown₂]⟩
  refine hplace.imp (Fits.alone ((Request.placeOrder request₂ refused₂).fits hv₁.sound))
    fun _ v₂ h hsound => ?_
  obtain ⟨id, hv₂⟩ := h
  have hactive : v₂.activeOrder tableId =
      some { Order.placed p.outletId tableId x.id id at₂ with status := .sent } := by
    rw [hv₂] at hsound ⊢
    exact hsound.activeOrder_placed
  obtain ⟨htables, hsessions, houtlets, htokens, htenant⟩ :=
    (v.apply (.createCartLine line)).detached_rows at₂ tableId
  have hseated : Seated v₂ tableId p x :=
    hv.kept hsound (hv₂ ▸ htables) (hv₂ ▸ hsessions) (hv₂ ▸ htokens) (hv₂ ▸ htenant)
  replace houtlets : v₂.outlets = v.outlets := hv₂ ▸ houtlets
  refine ⟨{ Order.placed p.outletId tableId x.id id at₂ with status := .sent }, ?_, rfl, rfl,
    congrArg some hv.own.symm, fun at₃ refused₃ => ?_⟩
  · rw [Store.liveOrder, hactive, Option.filter_some]
    exact if_pos (decide_eq_true (sub_le_self at₂ (by decide)))
  have hcomplete : (Request.completeBill id refused₃).prog.answers (Moment at₃) refused₃
      (fun _ v₃ => v₃ =
        (v₂.apply (.updateOrderStatus id .closed)).apply (.endSession x.id true at₃)) v₂ :=
    completeBill_answers hsound (Store.activeOrder_some hactive).1 rfl rfl
  refine hcomplete.imp (Fits.alone ((Request.completeBill id refused₃).fits hsound))
    fun _ v₃ h hsound₃ => ?_
  obtain rfl := h
  exact hseated.turned (hoffers.of_outlets houtlets) hactive hsound₃

end Seated

/-- **A table turns over.** In every state that the requests reach, whatever the interleaving: a
table that is said to be free and that nobody has can be taken by a party, and as long as its session
runs nothing keeps the party from ordering and paying but what the guard has against a request, what
the menu says of the items and what the bill says of the payment; each of these is then the answer.
The order is the one that the table shows, nobody's and sent, and once the bill is settled the tokens
of the party are dead and the next party can start. -/
theorem table_turns_over {s : Store} (hs : Sound s) {S : System Store Key Empty Write Failure}
    {es : List (Event Store Key Empty Write Failure)}
    (h : Run IsRequest (fun _ _ => True) (System.start s) es S) (now : ℤ) (dto : StartSessionDto) :
    (checkAvailability dto.outletId (some dto.tableId)).returns (Moment now) (fun answer s =>
      answer = available → s.isTaken now dto.tableId = false →
      (startSession dto).returns (Moment now) (fun entered v =>
        ∀ at₁ < now + sessionIdleTtl, ∀ request₁ : GuestRequest,
        request₁.guest = entered.principal → ∀ refused₁,
        (Request.addCartLine request₁ refused₁).prog.answers (Moment at₁)
          (request₁.refused.or refused₁) (fun _ v =>
          ∀ at₂, now ≤ at₂ → at₂ < now + sessionIdleTtl → ∀ request₂ : GuestRequest,
          request₂.guest = entered.principal → ∀ refused₂,
          (Request.placeOrder request₂ refused₂).prog.answers (Moment at₂)
            (request₂.refused.or refused₂) (fun _ v =>
            ∃ o, v.liveOrder at₂ dto.tableId = some o ∧ o.status = .sent ∧ o.ownerId = none ∧
              o.sessionId = some entered.principal.sessionId ∧
              ∀ at₃ refused₃, (Request.completeBill o.id refused₃).prog.answers (Moment at₃)
                refused₃ (fun _ v => Turned v dto.tableId entered.principal) v) v) v) s)
      S.store := by
  have hsound := (holds_of_run hs h).1.inv
  refine checkAvailability_returns hsound fun havailable htaken => ?_
  obtain ⟨hoffers, hactive, ⟨t, ht⟩, hbusy⟩ := availability_available havailable
  -- The table is taken.
  have hstart : (startSession dto).returns (Moment now) (fun entered v =>
      ∃ id pin guestId, entered.principal =
        principal (dto.session id pin now) (dto.guest id guestId now) ∧
        v = S.store.started now dto.tableId (dto.session id pin now) (dto.guest id guestId now))
      S.store :=
    startSession_returns hsound hoffers ht htaken hbusy
      fun id pin guestId _ => ⟨id, pin, guestId, rfl, rfl⟩
  refine Txn.wlp_mono (Txn.wlp_and_weak hstart
    (Fits.alone (startSession_wp dto (fits_empty hsound)))) fun entered v₁ h₁ => ?_
  obtain ⟨⟨id, pin, guestId, hprincipal, hv₁⟩, hsound₁⟩ := h₁
  obtain ⟨houtlets, htables, horders, htenant⟩ := started_rows S.store now dto.tableId
    (dto.session id pin now) (dto.guest id guestId now)
  rw [← hv₁] at houtlets htables horders htenant
  have hseated : Seated v₁ dto.tableId entered.principal (dto.session id pin now) := by
    refine ⟨hsound₁, htenant.trans hactive, ?_, ?_, ?_, ?_⟩
    · rw [hv₁, hprincipal]
      exact List.mem_append_right _ (List.mem_singleton_self _)
    · rw [hv₁]
      exact hsound.openSession_started now _ (TableSession.isOpenAt_iff.mpr ⟨rfl, rfl⟩)
    · rw [hprincipal]
      rfl
    · rw [hprincipal, Store.Has, htables]
      exact has_of_tableIn ht
  have hoffers₁ : v₁.Offers entered.principal.outletId := by
    rw [hprincipal]
    exact hoffers.of_outlets houtlets
  refine hseated.orders hoffers₁
    (fun at_ hat => (Bool.false_or _).trans (decide_eq_false (not_le.mpr hat))) fun at_ hat => ?_
  -- No order came to the table, and what was no longer live is not now.
  have hnone := hsound.liveOrder_free htaken hbusy
  rw [Store.liveOrder, Store.activeOrder, horders]
  refine Option.filter_eq_none_iff.mpr fun o ho hlive => ?_
  have hlive' : o.isLive now = true := decide_eq_true
    ((Int.sub_le_sub_right hat liveWindow).trans (of_decide_eq_true hlive))
  exact Option.filter_eq_none_iff.mp hnone o ho hlive'

/-- The waiter's order is paid for. -/
def raceSettled : List (Event Store Key Empty Write Failure) :=
  raceForTable ++ .begin (Request.completeBill 504 none).prog :: turns 6 2 700 ++ [.commit 6]

theorem table_turns_over_sample : ∃ S,
    Run IsRequest (fun _ _ => True) (System.start cafe) raceSettled S ∧
    S.store.availability 800 1 5 = available ∧ S.store.isTaken 800 5 = false ∧
    (checkAvailability 1 (some 5)).returns (Moment 800) (fun answer s =>
      answer = available → s.isTaken 800 5 = false →
      (startSession ⟨1, 5, "Esha", "96"⟩).returns (Moment 800) (fun entered v =>
        ∀ at₁ < 800 + sessionIdleTtl, ∀ request₁ : GuestRequest,
        request₁.guest = entered.principal → ∀ refused₁,
        (Request.addCartLine request₁ refused₁).prog.answers (Moment at₁)
          (request₁.refused.or refused₁) (fun _ v =>
          ∀ at₂, 800 ≤ at₂ → at₂ < 800 + sessionIdleTtl → ∀ request₂ : GuestRequest,
          request₂.guest = entered.principal → ∀ refused₂,
          (Request.placeOrder request₂ refused₂).prog.answers (Moment at₂)
            (request₂.refused.or refused₂) (fun _ v =>
            ∃ o, v.liveOrder at₂ 5 = some o ∧ o.status = .sent ∧ o.ownerId = none ∧
              o.sessionId = some entered.principal.sessionId ∧
              ∀ at₃ refused₃, (Request.completeBill o.id refused₃).prog.answers (Moment at₃)
                refused₃ (fun _ v => Turned v 5 entered.principal) v) v) v) s)
      S.store := by
  have hplay : ((System.start cafe).play raceSettled).map (fun S =>
      (S.store.availability 800 1 5, S.store.isTaken 800 5)) = some (available, false) := by
    decide +kernel
  obtain ⟨S, -, hrun, hstore⟩ := Run.of_play_map (P := IsRequest) hplay fun p hp => by
    rcases List.mem_append.mp hp with hp | hp
    · rcases List.mem_append.mp hp with hp | hp
      · exact begin_raceForTable hp
      · rcases List.mem_cons.mp hp with hp | hp
        · exact ⟨_, Event.begin.inj hp⟩
        · exact absurd hp (begin_notMem_turns _ _ _ _)
    · cases List.mem_singleton.mp hp
  obtain ⟨havailable, hfree⟩ := Prod.mk.inj hstore
  exact ⟨S, hrun, havailable, hfree, table_turns_over cafe_sound hrun 800 ⟨1, 5, "Esha", "96"⟩⟩

end RestiqBackend.GuestTables
