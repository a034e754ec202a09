import RestiqBackend.TableMap

/-!
A session that has ended.

Staff close a session, the next party closes one that is over, and the last payment settles it. From
then on nothing more comes of it: whatever requests follow, in whatever order their statements fall,
nobody joins it, no line goes into its cart, no order is placed from it and no token is signed for
it, and the tokens that were signed are refused. What a request reads of a session may be old when
it commits, so this is about the requests that begin when the session has ended.
-/

namespace RestiqBackend.GuestTables

open ReadCommitted

/-- The session was there and is no longer open. -/
structure Ended (sid : ℕ) (s : Store) : Prop where
  known : ∃ x ∈ s.sessions, x.id = sid
  ended : ∀ x ∈ s.sessions, x.id = sid → x.status ≠ .open

/-- Nothing comes of the session: what it has stays or goes. -/
structure Frozen (sid : ℕ) (s s' : Store) : Prop where
  guests : s'.guests.filter (·.sessionId = sid) = s.guests.filter (·.sessionId = sid)
  tokens : s'.tokens.filter (·.sessionId = sid) = s.tokens.filter (·.sessionId = sid)
  cartLines : (s'.cartLines.filter (·.sessionId = sid)).Sublist
    (s.cartLines.filter (·.sessionId = sid))
  orders : ((s'.orders.filter (·.sessionId = some sid)).map (·.id)).Sublist
    ((s.orders.filter (·.sessionId = some sid)).map (·.id))

/-- A write that adds nothing to the session. -/
def Write.Spares (sid : ℕ) : Write → Prop
  | .createSession x => x.id ≠ sid
  | .createGuest g => g.sessionId ≠ sid
  | .createCartLine line => line.sessionId ≠ sid
  | .createOrder o => o.sessionId ≠ some sid
  | .signGuestToken p => p.sessionId ≠ sid
  | _ => True

def Spare (sid : ℕ) (l : TxFootprint) : Prop := ∀ w ∈ l.writes, w.Spares sid

section Writes

variable {sid : ℕ} {s s' s'' : Store} {w : Write} {ws : List Write} {l l' : TxFootprint}

theorem Frozen.refl (s : Store) : Frozen sid s s :=
  ⟨rfl, rfl, List.Sublist.refl _, List.Sublist.refl _⟩

theorem Frozen.trans (h : Frozen sid s s') (h' : Frozen sid s' s'') : Frozen sid s s'' :=
  ⟨h'.guests.trans h.guests, h'.tokens.trans h.tokens, h'.cartLines.trans h.cartLines,
    h'.orders.trans h.orders⟩

/-- One row more, of something else. -/
theorem filter_append_ne {α : Type} {p : α → Bool} {as : List α} {a : α} (h : p a = false) :
    (as ++ [a]).filter p = as.filter p := by
  rw [List.filter_append, List.filter_singleton, h]
  exact List.append_nil _

/-- A change that leaves the identifier and the session of every order. -/
theorem orders_map_sublist {f : Order → Order} (hsession : ∀ o, (f o).sessionId = o.sessionId)
    (hid : ∀ o, (f o).id = o.id) (os : List Order) :
    (((os.map f).filter (·.sessionId = some sid)).map (·.id)).Sublist
      ((os.filter (·.sessionId = some sid)).map (·.id)) := by
  have hcomp : ((fun o : Order => decide (o.sessionId = some sid)) ∘ f) =
      fun o => decide (o.sessionId = some sid) := funext fun o => by
    rw [Function.comp_apply, hsession]
  have hids : (fun o : Order => o.id) ∘ f = fun o => o.id := funext hid
  rw [List.filter_map, List.map_map, hcomp, hids]

theorem Write.Spares.frozen (h : w.Spares sid) (s : Store) : Frozen sid s (s.apply w) := by
  have hsame : Frozen sid s s := .refl s
  cases w with
  | createGuest g => exact { hsame with guests := filter_append_ne (decide_eq_false h) }
  | signGuestToken p => exact { hsame with tokens := filter_append_ne (decide_eq_false h) }
  | createCartLine line =>
      have heq : (s.cartLines ++ [line]).filter (·.sessionId = sid) =
        s.cartLines.filter (·.sessionId = sid) := filter_append_ne (decide_eq_false h)
      exact { hsame with cartLines := heq ▸ List.Sublist.refl _ }
  | deleteCartLine id =>
      exact { hsame with cartLines := (List.filter_sublist).filter _ }
  | deleteCartLines id =>
      exact { hsame with cartLines := (List.filter_sublist).filter _ }
  | createOrder o =>
      have heq : (s.orders ++ [o]).filter (·.sessionId = some sid) =
        s.orders.filter (·.sessionId = some sid) := filter_append_ne (decide_eq_false h)
      exact { hsame with orders := heq ▸ List.Sublist.refl _ }
  | updateOrderStatus id status =>
      refine { hsame with orders := orders_map_sublist (fun o => ?_) (fun o => ?_) s.orders } <;>
        split <;> rfl
  | updateOrderOwner id ownerId =>
      refine { hsame with orders := orders_map_sublist (fun o => ?_) (fun o => ?_) s.orders } <;>
        split <;> rfl
  | detachTable id =>
      refine { hsame with orders := orders_map_sublist (fun o => ?_) (fun o => ?_) s.orders } <;>
        split <;> rfl
  | deleteOrder id => exact { hsame with orders := ((List.filter_sublist).filter _).map _ }
  | _ => exact ⟨hsame.guests, hsame.tokens, hsame.cartLines, hsame.orders⟩

/-- No write opens a session again. -/
theorem Ended.apply (h : Ended sid s) (hw : w.Spares sid) : Ended sid (s.apply w) := by
  cases w with
  | createSession x =>
      obtain ⟨y, hy, hid⟩ := h.known
      refine ⟨⟨y, List.mem_append_left _ hy, hid⟩, fun z hz hid => ?_⟩
      rcases List.mem_append.mp hz with hz | hz
      · exact h.ended z hz hid
      · rw [List.mem_singleton.mp hz] at hid
        exact absurd hid hw
  | endSession id settled closedAt =>
      obtain ⟨y, hy, hid⟩ := h.known
      refine ⟨⟨_, List.mem_map_of_mem hy, ?_⟩, fun z hz hid => ?_⟩
      · split
        · exact hid
        · exact hid
      · obtain ⟨x, hx, rfl⟩ := List.mem_map.mp hz
        by_cases hne : x.id = id
        · rw [if_pos hne]
          cases settled <;> exact SessionStatus.noConfusion
        · rw [if_neg hne] at hid ⊢
          exact h.ended x hx hid
  | _ => exact ⟨h.known, h.ended⟩

theorem spare_applyAll (h : ∀ w ∈ ws, w.Spares sid) (hs : Ended sid s) :
    Ended sid (applyAll ws s) ∧ Frozen sid s (applyAll ws s) := by
  induction ws generalizing s with
  | nil => exact ⟨hs, .refl s⟩
  | cons w ws ih =>
      have hw := h w List.mem_cons_self
      obtain ⟨hended, hfrozen⟩ := ih (fun w' hw' => h w' (List.mem_cons_of_mem _ hw')) (hs.apply hw)
      exact ⟨hended, (hw.frozen s).trans hfrozen⟩

theorem Spare.add (h : Spare sid l) (h' : Spare sid l') : Spare sid (l.add l') :=
  fun w hw => (List.mem_append.mp hw).elim (h w) (h' w)

theorem Spare.write {keys : List Key} (h : w.Spares sid) : Spare sid ⟨keys, [], [w]⟩ :=
  fun _ hw' => List.mem_singleton.mp hw' ▸ h

theorem Spare.empty : Spare sid .empty := fun _ hw => absurd hw List.not_mem_nil

end Writes

/-- What the commits have in common once the session has ended. -/
def afterwards (sid : ℕ) : Discipline Store Key Empty Write where
  inv := Ended sid
  guar := Frozen sid
  keeps _ _ _ := True
  heeds _ _ _ := True
  admits _ _ _ := True
  lands _ _ := True
  ends _ _ := True
  guar_refl := .refl
  guar_trans _ _ _ := .trans
  keeps_refl _ _ := trivial
  keeps_trans _ _ _ _ _ _ := trivial
  heeds_refl _ _ := trivial
  heeds_trans _ _ _ _ _ _ := trivial

/-- A transaction that began when the session had ended. -/
structure Calm (sid : ℕ) (l : TxFootprint) (s : Store) : Prop where
  ended : Ended sid s
  spare : Spare sid l

section Programs

variable {α β : Type} {sid : ℕ} {l : TxFootprint} {s : Store} {x : TableSession}

theorem calm_stable : (afterwards sid).Stable (Calm sid) :=
  fun _ _ _ hrely h => ⟨hrely.inv h.ended, h.spare⟩

/-- The rows that the transaction sees. -/
theorem Calm.view (h : Calm sid l s) : Ended sid (applyAll l.writes s) :=
  (spare_applyAll h.spare h.ended).1

theorem Calm.commits (h : Calm sid l s) : (afterwards sid).Commits l s := by
  obtain ⟨hended, hfrozen⟩ := spare_applyAll h.spare h.ended
  exact fun _ => ⟨hended, hfrozen, fun _ _ => trivial, trivial⟩

/-- Nothing in the program adds anything to the session. -/
theorem spare_wp {p : Tx α} (hp : p.Emits (Spare sid)) (h : Calm sid l s) :
    p.wp (afterwards sid) (fun _ => Calm sid) l s :=
  hp.wp calm_stable (fun _ _ _ hl' h => ⟨h.ended, h.spare.add hl'⟩) h

theorem spare_of_reads {p : Tx α} (h : p.Emits Reads) : p.Emits (Spare sid) :=
  h.mono fun l hl => by
    rw [hl]
    exact .empty

theorem exec_spare {locks : Store → List Key} {w : Write} (h : w.Spares sid) :
    (Txn.exec locks fun _ => [w] : Tx Unit).Emits (Spare sid) :=
  ⟨fun _ _ => .write h, fun _ => trivial⟩

theorem writeWhen_spare {allowed : Store → Bool} {keys : List Key} {w : Write}
    (h : w.Spares sid) : (Txn.writeWhen allowed keys [w] : Tx Bool).Emits (Spare sid) := by
  refine ⟨fun _ v => ?_, fun _ => trivial⟩
  dsimp only
  split
  · exact .write h
  · exact .empty

theorem guarded_spare {allowed : Store → Bool} {keys : List Key} {w : Write} {e : Failure}
    (h : w.Spares sid) : (guarded allowed keys [w] e).Emits (Spare sid) :=
  (writeWhen_spare h).bind fun _ => spare_of_reads (throwIf_reads _ _)

theorem endSession_spare (id : ℕ) (settled : Bool) : (endSession id settled).Emits (Spare sid) :=
  (spare_of_reads clock_reads).bind fun _ => exec_spare (w := .endSession _ _ _) trivial

theorem updateOrderStatus_spare (id : ℕ) (status : OrderStatus) :
    (updateOrderStatus id status).Emits (Spare sid) := by
  refine ⟨fun _ v => ?_, fun _ => spare_of_reads (throwIf_reads _ _)⟩
  dsimp only
  split
  · exact .write (w := .updateOrderStatus _ _) trivial
  · exact .empty

theorem commitFinalize_spare (order : Order) (refused : Option Failure) :
    (commitFinalize order refused).Emits (Spare sid) :=
  (spare_of_reads (refuse_reads refused)).bind fun _ => updateOrderStatus_spare order.id .closed

theorem detachStaleTableOrder_spare (tableId : ℕ) :
    (detachStaleTableOrder tableId).Emits (Spare sid) := by
  refine (spare_of_reads clock_reads).bind fun _ => (spare_of_reads (query_reads _)).bind
    fun stale => ?_
  cases stale with
  | none => trivial
  | some stale =>
      exact (exec_spare (w := .detachTable _) trivial).bind fun _ =>
        exec_spare (w := .createAuditEvent _) trivial

/-- A session that is found open is another. -/
theorem Ended.ne_of_open (h : Ended sid s) (hx : x ∈ s.sessions) (hopen : x.status = .open) :
    x.id ≠ sid := fun hid => h.ended x hx hid hopen

/-- So is one that is created. -/
theorem openSession_spare (outletId : ℕ) (tableId : Option ℕ) (name phone : String) (e : Failure)
    (h : Calm sid l s) : (openSession outletId tableId name phone e).wp (afterwards sid)
      (fun x l s => Calm sid l s ∧ x.id ≠ sid) l s := by
  refine Txn.wp_seq (spare_wp (spare_of_reads generatePin_reads) h) fun pin l s h => ?_
  refine Txn.wp_uuid calm_stable h fun id s h => ?_
  refine Txn.wp_clock calm_stable h fun now s h => ?_
  refine Txn.wp_clock calm_stable h fun createdAt s h => ?_
  refine Txn.wp_seq (guarded_wp calm_stable (calm_stable.and (.const (id ≠ sid))) h
    fun s h htakes => ?_) fun _ l s h => Txn.wp_done (calm_stable.and (.const _)) h
  obtain ⟨y, hy, hid⟩ := h.view.known
  have hne : id ≠ sid := fun heq =>
    (takesSession_iff.mp htakes y hy).1 (hid.trans heq.symm)
  exact ⟨⟨h.ended, h.spare.add (.write hne)⟩, hne⟩

theorem createGuest_spare {sessionId : ℕ} (name : String) (phone : Option String)
    (shown : Option ℕ) (h : sessionId ≠ sid) :
    (createGuest sessionId name phone shown).Emits (Spare sid) :=
  (spare_of_reads uuid_reads).bind fun id => (spare_of_reads clock_reads).bind fun joinedAt =>
    (guarded_spare (w := .createGuest ⟨id, sessionId, name, phone, joinedAt, shown⟩) h).bind
      fun _ => trivial

theorem signGuestToken_spare (g : Guest) (h : x.id ≠ sid) :
    (signGuestToken x g).Emits (Spare sid) :=
  (exec_spare (w := .signGuestToken (principal x g)) h).bind fun _ => trivial

theorem startSession_spare (dto : StartSessionDto) (h : Calm sid l s) :
    (startSession dto).wp (afterwards sid) (fun _ => Calm sid) l s := by
  refine Txn.wp_seq (spare_wp (spare_of_reads (resolveOutletAndTable_reads _ _)) h)
    fun table l s h => ?_
  refine Txn.wp_seq (spare_wp (spare_of_reads (assertQrOrderingEnabled_reads _)) h)
    fun _ l s h => ?_
  refine Txn.wp_query calm_stable h fun s h => ?_
  refine Txn.wp_seq (spare_wp ?_ h) fun _ l s h => ?_
  · cases List.find? _ _ with
    | none => trivial
    | some existing =>
        exact (spare_of_reads (isOver_reads existing)).bind fun _ =>
          (spare_of_reads (throwIf_reads _ _)).bind fun _ => endSession_spare existing.id false
  refine Txn.wp_seq (spare_wp (spare_of_reads (isTableBusy_reads _)) h) fun busy l s h =>
    Txn.wp_throwIf fun _ => ?_
  refine Txn.wp_seq (openSession_spare _ _ _ _ _ h) fun x l s h => ?_
  refine spare_wp ?_ h.1
  exact (createGuest_spare dto.name (some dto.phone) none h.2).bind fun g =>
    (signGuestToken_spare g h.2).bind fun _ => trivial

theorem startKioskSession_spare (outletId deviceId : ℕ) (h : Calm sid l s) :
    (startKioskSession outletId deviceId).wp (afterwards sid) (fun _ => Calm sid) l s := by
  refine Txn.wp_query calm_stable h fun s h => ?_
  refine Txn.wp_seq (spare_wp (spare_of_reads (orThrow_reads _ _)) h) fun _ l s h => ?_
  refine Txn.wp_query calm_stable h fun s h => Txn.wp_throwIf fun _ => ?_
  refine Txn.wp_query calm_stable h fun s h => ?_
  refine Txn.wp_seq (spare_wp (spare_of_reads (orThrow_reads _ _)) h) fun device l s h => ?_
  refine Txn.wp_query calm_stable h fun s h => Txn.wp_throwIf fun _ => ?_
  refine Txn.wp_seq (openSession_spare _ _ _ _ _ h) fun x l s h => ?_
  refine spare_wp ?_ h.1
  exact (createGuest_spare device.label none none h.2).bind fun g =>
    (signGuestToken_spare g h.2).bind fun _ => trivial

theorem joinSession_spare (dto : JoinSessionDto) (lockedOut : Option Failure)
    (h : Calm sid l s) :
    (joinSession dto lockedOut).wp (afterwards sid) (fun _ => Calm sid) l s := by
  refine Txn.wp_seq (spare_wp (spare_of_reads (resolveOutletAndTable_reads _ _)) h)
    fun table l s h => ?_
  refine Txn.wp_seq (spare_wp (spare_of_reads (assertQrOrderingEnabled_reads _)) h)
    fun _ l s h => ?_
  refine Txn.wp_query calm_stable h fun s h => ?_
  have hne : ∀ x, (applyAll l.writes s).sessions.find? (·.isOpenAt dto.tableId) = some x →
      x.id ≠ sid := by
    intro x hx
    have hopen := List.find?_some hx
    have hstatus : x.status = .open := by simpa using (Bool.and_eq_true_iff.mp hopen).2
    exact h.view.ne_of_open (List.mem_of_find?_eq_some hx) hstatus
  refine Txn.wp_clock calm_stable h fun now s h => ?_
  refine Txn.wp_seq (orThrow_wp (P := fun x l s => Calm sid l s ∧ x.id ≠ sid)
    (fun _ => calm_stable.and (.const _)) fun x hx => ⟨h, hne x ?_⟩) fun x l s h => ?_
  · exact (Option.filter_eq_some_iff.mp hx).1
  refine spare_wp ?_ h.1
  exact (spare_of_reads (refuse_reads _)).bind fun _ => (spare_of_reads (throwIf_reads _ _)).bind
    fun _ => (createGuest_spare dto.name none (some dto.pin) h.2).bind fun g =>
      (spare_of_reads (query_reads _)).bind fun _ => (signGuestToken_spare g h.2).bind
        fun _ => trivial

/-- Whoever gets past the check has another session. -/
theorem loadActiveSession_spare (guest : GuestPrincipal) (h : Calm sid l s) :
    (loadActiveSession guest).wp (afterwards sid) (fun x l s => Calm sid l s ∧ x.id ≠ sid) l s := by
  have hstable : ∀ x : TableSession, (afterwards sid).Stable fun l s =>
      Calm sid l s ∧ (x.status = .open → x.id ≠ sid) := fun x => calm_stable.and (.const _)
  refine Txn.wp_query calm_stable h fun s h => ?_
  refine Txn.wp_seq (orThrow_wp hstable fun x hx =>
    ⟨h, h.view.ne_of_open (List.mem_of_find?_eq_some hx)⟩) fun x l s h => ?_
  refine Txn.wp_clock (hstable x) h fun now s h => Txn.wp_throwIf fun hactive => ?_
  refine Txn.wp_done (calm_stable.and (.const _)) ⟨h.1, h.2 ?_⟩
  rw [Bool.not_eq_true, TableSession.isInactive, Bool.or_eq_false_iff] at hactive
  simpa using hactive.1

/-- The requests whose every statement leaves sessions alone, and that look up none. -/
def Request.sessionless : Request → Bool
  | .startSession _ | .startKioskSession _ _ | .joinSession _ _ | .addCartLine _ _
  | .removeCartLine _ _ _ | .placeOrder _ _ => false
  | _ => true

theorem Request.spare (r : Request) (h : r.sessionless = true) : r.prog.Emits (Spare sid) := by
  have hquery : ∀ {γ : Type} (f : Store → γ), (Txn.query f : Tx γ).Emits (Spare sid) :=
    fun f => spare_of_reads (query_reads f)
  have hthrow : ∀ (c : Prop) [Decidable c] (e : Failure),
      (Txn.throwIf c e : Tx Unit).Emits (Spare sid) := fun c _ e =>
    spare_of_reads (throwIf_reads c e)
  have hload : ∀ orderId, (loadOrder orderId).Emits (Spare sid) := fun orderId =>
    spare_of_reads (loadOrder_reads orderId)
  cases r with
  | closeSessionForStaff outletId tableId =>
      exact (hquery _).bind fun _ => (spare_of_reads (orThrow_reads _ _)).bind fun _ =>
        (hquery _).bind fun _ => (spare_of_reads (orThrow_reads _ _)).bind fun _ =>
          endSession_spare _ _
  | openOrClaimTable staffId outletId tableId =>
      refine ((hquery _).bind fun _ => (spare_of_reads (orThrow_reads _ _)).bind fun _ =>
        (detachStaleTableOrder_spare tableId).bind fun _ => (hquery _).bind fun existing => ?_).bind
          fun _ => trivial
      cases existing with
      | some existing => trivial
      | none =>
          refine (spare_of_reads uuid_reads).bind fun id => (spare_of_reads clock_reads).bind
            fun createdAt => (writeWhen_spare (w := .createOrder (⟨id, outletId, some tableId,
              some staffId, .open, none, createdAt⟩)) (Option.some_ne_none sid).symm).bind
                fun created => ?_
          split
          · trivial
          · exact (hquery _).bind fun _ => spare_of_reads (orThrow_reads _ _)
  | createCounterOrder staffId outletId =>
      exact (hquery _).bind fun _ => (spare_of_reads (orThrow_reads _ _)).bind fun _ =>
        (spare_of_reads uuid_reads).bind fun id => (spare_of_reads clock_reads).bind
          fun createdAt => guarded_spare (w := .createOrder (⟨id, outletId, none, some staffId,
            .open, none, createdAt⟩)) (Option.some_ne_none sid).symm
  | updateStatus staffId orderId ownerName status waiting =>
      refine (hload orderId).bind fun order => (hthrow _ _).bind fun _ => ?_
      split
      · exact hthrow _ _
      · exact (hthrow _ _).bind fun _ => updateOrderStatus_spare orderId status
  | transfer orderId newOwnerStaffId =>
      exact (hload orderId).bind fun _ => (hthrow _ _).bind fun _ => (hquery _).bind fun _ =>
        (hthrow _ _).bind fun _ => exec_spare (w := .updateOrderOwner _ _) trivial
  | discard staffId orderId ownerName refused hadLines =>
      refine (hload orderId).bind fun _ => (hthrow _ _).bind fun _ => (hthrow _ _).bind fun _ =>
        (spare_of_reads (refuse_reads refused)).bind fun _ => Txn.Emits.bind ?_ fun _ =>
          exec_spare (w := .createAuditEvent _) trivial
      cases hadLines with
      | true => exact updateOrderStatus_spare orderId .closed
      | false => exact exec_spare (w := .deleteOrder orderId) trivial
  | finalize orderId refused => exact (hload orderId).bind fun _ => commitFinalize_spare _ refused
  | completeBill orderId refused =>
      refine (hload orderId).bind fun order => (commitFinalize_spare order refused).bind fun _ => ?_
      unfold settleSession
      split
      · trivial
      · exact endSession_spare _ true
  | updateOutlet outlet => exact exec_spare (w := .updateOutlet outlet) trivial
  | setTenantActive active => exact exec_spare (w := .setTenantActive active) trivial
  | _ => cases h

theorem Request.calm (r : Request) (hs : Ended sid s) :
    r.prog.wp (afterwards sid) (fun _ => Calm sid) .empty s := by
  have hcalm : Calm sid .empty s := ⟨hs, .empty⟩
  have hvoid : ∀ {γ : Type} {p : Tx γ}, p.wp (afterwards sid) (fun _ => Calm sid) .empty s →
      p.void.wp (afterwards sid) (fun _ => Calm sid) .empty s := fun h =>
    Txn.wp_seq h fun _ _ _ h => Txn.wp_done calm_stable h
  have hguest : ∀ {request : GuestRequest} {g : TableSession → Tx Unit},
      (∀ x : TableSession, x.id ≠ sid → (g x).Emits (Spare sid)) →
      ((canActivate request >>= fun _ => loadActiveSession request.guest >>= g) : Tx Unit).wp
        (afterwards sid) (fun _ => Calm sid) .empty s := fun hg =>
    Txn.wp_seq (spare_wp (spare_of_reads (canActivate_reads _)) hcalm) fun _ l s h =>
      Txn.wp_seq (loadActiveSession_spare _ h) fun x l s h => spare_wp (hg x h.2) h.1
  by_cases hless : r.sessionless = true
  · exact spare_wp (r.spare hless) hcalm
  · cases r with
    | startSession dto => exact hvoid (startSession_spare dto hcalm)
    | startKioskSession outletId deviceId =>
        exact hvoid (startKioskSession_spare outletId deviceId hcalm)
    | joinSession dto lockedOut => exact hvoid (joinSession_spare dto lockedOut hcalm)
    | addCartLine request refused =>
        refine hguest fun x hx => (spare_of_reads (refuse_reads refused)).bind fun _ =>
          (spare_of_reads uuid_reads).bind fun id => (spare_of_reads clock_reads).bind
            fun createdAt =>
              exec_spare (w := .createCartLine ⟨id, x.id, request.guest.id, createdAt⟩) hx
    | removeCartLine request lineId refused =>
        exact hguest fun x hx => (spare_of_reads (query_reads _)).bind fun _ =>
          (spare_of_reads (orThrow_reads _ _)).bind fun _ =>
            (spare_of_reads (throwIf_reads _ _)).bind fun _ =>
              (spare_of_reads (refuse_reads refused)).bind fun _ =>
                exec_spare (w := .deleteCartLine lineId) trivial
    | placeOrder request refused =>
        refine hguest fun x hx => (spare_of_reads (query_reads _)).bind fun _ =>
          (spare_of_reads (throwIf_reads _ _)).bind fun _ => Txn.Emits.bind ?_ fun _ =>
            (spare_of_reads uuid_reads).bind fun id => (spare_of_reads clock_reads).bind
              fun createdAt => (guarded_spare (w := .createOrder ⟨id, request.guest.outletId,
                x.tableId, none, .open, some x.id, createdAt⟩) fun heq =>
                  hx (Option.some.inj heq)).bind fun _ => (spare_of_reads (refuse_reads refused)).bind
                    fun _ => (updateOrderStatus_spare _ _).bind fun _ =>
                      exec_spare (w := .deleteCartLines x.id) trivial
        cases x.tableId with
        | none => trivial
        | some tableId =>
            exact (detachStaleTableOrder_spare tableId).bind fun _ =>
              (spare_of_reads (query_reads _)).bind fun _ => spare_of_reads (throwIf_reads _ _)
    | _ => exact absurd rfl hless

end Programs

/-! ### Its tokens -/

/-- The token of a request that asks for the session. -/
def Request.guest : Request → Option GuestPrincipal
  | .addCartLine request _ | .removeCartLine request _ _ | .placeOrder request _ =>
      some request.guest
  | _ => none

/-- How a guest is turned away whose session has ended. -/
def turnedAway : List Failure := [unauthorized, tenantInactive, tenantMismatch, sessionClosed]

section Tokens

variable {β : Type} {s : Store} {V : Env → Store → Prop} {p : GuestPrincipal}

theorem loadActiveSession_refuses (hs : Ended p.sessionId s) :
    (loadActiveSession p).refuses V sessionClosed s := by
  obtain ⟨y, hy, hid⟩ := hs.known
  obtain ⟨x, hx⟩ := find?_some_of_exists (p := fun x : TableSession => decide (x.id = p.sessionId))
    ⟨y, hy, decide_eq_true hid⟩
  have hown := List.find?_some hx
  have hended := hs.ended x (List.mem_of_find?_eq_some hx) (of_decide_eq_true hown)
  refine Txn.query_bind ?_
  rw [hx]
  refine orThrow_bind (Txn.clock_bind fun env _ => Txn.throwIf_fails ?_ rfl)
  rw [TableSession.isInactive, decide_eq_true hended, Bool.true_or]

/-- Neither a forged token nor a signed one is good for anything. -/
theorem guest_refused {request : GuestRequest} (hs : Ended request.guest.sessionId s)
    (g : TableSession → Tx β) :
    ((canActivate request >>= fun _ => loadActiveSession request.guest >>= g) : Tx β).wlp
      (· ∈ turnedAway) V (fun _ _ => False) s := by
  have hsession : sessionClosed ∈ turnedAway :=
    List.mem_cons_of_mem _ (List.mem_cons_of_mem _ (List.mem_cons_of_mem _ List.mem_cons_self))
  have hload : (loadActiveSession request.guest >>= g).wlp (· ∈ turnedAway) V
      (fun _ _ => False) s :=
    Txn.wlp_weaken (loadActiveSession_refuses hs).bind (fun _ he => he ▸ hsession) fun _ _ h => h
  refine (Txn.wlp_bind _ _ _ _).mpr (Txn.query_bind ((Txn.wlp_bind _ _ _ _).mpr
    (Txn.throwIf_or ?_ fun _ => Txn.query_bind ((Txn.wlp_bind _ _ _ _).mpr
      (Txn.throwIf_or ?_ fun _ => Txn.throwIf_or ?_ fun _ => hload)))))
  · exact fun _ => List.mem_cons_self
  · exact fun _ => List.mem_cons_of_mem _ List.mem_cons_self
  · exact fun _ => List.mem_cons_of_mem _ (List.mem_cons_of_mem _ List.mem_cons_self)

end Tokens

/-- **Over is over.** Once a session has ended, and whatever requests then begin and interleave, it
stays ended: nobody joins it, nothing is added to its cart, no order is placed from it and no token
is signed for it; what it had is still there or was taken away, and whoever asks for it with one of
its tokens, to see it, to change its cart or to order from it, is turned away. -/
theorem over_is_over {s : Store} {sid : ℕ} (hs : Ended sid s)
    {S : System Store Key Empty Write Failure} {es : List (Event Store Key Empty Write Failure)}
    (h : Run IsRequest (fun _ _ => True) (System.start s) es S) :
    Ended sid S.store ∧ Frozen sid s S.store ∧
      ∀ request : GuestRequest, request.guest.sessionId = sid → ∀ V : Env → Store → Prop,
        ((canActivate request >>= fun _ => getCurrentSession request.guest) :
          Tx TableSessionView).wlp (· ∈ turnedAway) V (fun _ _ => False) S.store ∧
        ∀ r : Request, r.guest = some request.guest →
          r.prog.wlp (· ∈ turnedAway) V (fun _ _ => False) S.store := by
  have hP : ∀ p, IsRequest p → ∀ s, Ended sid s →
      p.wp (afterwards sid) (fun _ => (afterwards sid).Commits) .empty s := by
    rintro p ⟨r, rfl⟩ s hs
    exact Txn.wp_mono (r.calm hs) fun _ _ _ h => h.commits
  obtain ⟨hholds, hfrozen⟩ := (afterwards sid).sound hP
    (fun S e _ => respects_any (fun _ _ _ => trivial) (fun _ _ => trivial) S e) (.start hs) h
  refine ⟨hholds.inv, hfrozen, fun request hown V => ⟨?_, fun r hr => ?_⟩⟩
  · exact guest_refused (hown ▸ hholds.inv) _
  cases r with
  | addCartLine request' refused =>
      have heq : request'.guest = request.guest := Option.some.inj hr
      exact guest_refused (heq ▸ hown ▸ hholds.inv) _
  | removeCartLine request' lineId refused =>
      have heq : request'.guest = request.guest := Option.some.inj hr
      exact guest_refused (heq ▸ hown ▸ hholds.inv) _
  | placeOrder request' refused =>
      have heq : request'.guest = request.guest := Option.some.inj hr
      exact guest_refused (heq ▸ hown ▸ hholds.inv) _
  | _ => cases hr

/-- The party that had the table has left, and still has its token. -/
def cafeAfter : Store :=
  { cafe with
    sessions := [⟨7, 1, some 5, .closed, 4321, "Asha", "98", 0, some 50, sessionIdleTtl⟩]
    guests := [⟨8, 7, "Asha", some "98", 0, none⟩]
    cartLines := [⟨6, 7, 8, 10⟩]
    tokens := [⟨8, 7, 1, some 5, "Asha"⟩] }

/-- It tries to order while the next party starts. -/
def lateOrder : List (Event Store Key Empty Write Failure) := List.flatten
  [[.begin (Request.placeOrder ⟨⟨8, 7, 1, some 5, "Asha"⟩, false, false⟩ none).prog,
      .begin (Request.startSession ⟨1, 5, "Ben", "97"⟩).prog],
    turns 0 2 100, turns 1 15 200, turns 0 2 110, [.commit 1, .rollback 0]]

theorem over_is_over_sample : ∃ S,
    Run IsRequest (fun _ _ => True) (System.start cafeAfter) lateOrder S ∧
    S.store.guests.map (·.name) = ["Asha", "Ben"] ∧ Ended 7 S.store ∧
    Frozen 7 cafeAfter S.store := by
  have hplay : ((System.start cafeAfter).play lateOrder).map (fun S =>
      S.store.guests.map (·.name)) = some ["Asha", "Ben"] := by decide +kernel
  obtain ⟨S, -, hrun, hstore⟩ := Run.of_play_map (P := IsRequest) hplay fun p hp => by
    simp only [lateOrder, List.flatten_cons, List.flatten_nil, List.mem_append, List.mem_cons,
      begin_notMem_turns, Event.begin.injEq, reduceCtorEq, List.not_mem_nil, or_false] at hp
    rcases hp with rfl | rfl <;> exact ⟨_, rfl⟩
  have hended : Ended 7 cafeAfter := by
    refine ⟨⟨_, List.mem_cons_self, rfl⟩, fun x hx _ => ?_⟩
    rw [List.mem_singleton.mp hx]
    exact SessionStatus.noConfusion
  obtain ⟨hended', hfrozen, -⟩ := over_is_over hended hrun
  exact ⟨S, hrun, hstore, hended', hfrozen⟩

end RestiqBackend.GuestTables
