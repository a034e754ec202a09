import Mathlib.Data.List.Count
import Mathlib.Data.List.Induction
import Mathlib.Data.List.Nodup
import RestiqBackend.ReadCommitted.Alone
import RestiqBackend.Serial
import RestiqBackend.Tickets

/-!
Whether a ticket is shown as recalled (`buildTicketView`, `src/kitchen/tickets.service.ts`).

A ticket counts its recalls and keeps no note of how it came back; the log of its events
does. The log is replayed here for the way a ticket last came back to its queue, and the
view, which reads the status and the count alone, is compared with it over all runs. The
board's operations do to its tickets what the kitchen's requests do to the rows.
-/

namespace RestiqBackend.Recalls

open ReadCommitted
open Serial (check orElseThrow)

/-! ### Tickets and their log -/

structure Ticket extends RestiqBackend.Ticket where
  orderId : ℕ
  recallCount : ℕ
  recalledAt : Option ℤ
  deriving DecidableEq

inductive TicketEventType
  | bumped
  | recalled
  | refired
  | addOnFired
  deriving DecidableEq

structure TicketEvent where
  ticketId : ℕ
  type : TicketEventType
  occurredAt : ℤ
  deriving DecidableEq

structure Board where
  clock : ℤ
  tickets : List Ticket
  lines : List TicketLine
  events : List TicketEvent
  deriving DecidableEq

structure TicketView where
  id : ℕ
  orderId : ℕ
  stationId : Option ℕ
  status : TicketStatus
  firedAt : ℤ
  bumpedAt : Option ℤ
  recallCount : ℕ
  recalled : Bool
  lines : List TicketLine
  deriving DecidableEq

def Board.buildTicketView (b : Board) (ticket : Ticket) : TicketView where
  id := ticket.id
  orderId := ticket.orderId
  stationId := ticket.stationId
  status := ticket.status
  firedAt := ticket.firedAt
  bumpedAt := ticket.bumpedAt
  recallCount := ticket.recallCount
  recalled := ticket.status = .queued && 0 < ticket.recallCount
  lines := b.lines.filter (·.ticketId = ticket.id)

/-! ### What the kitchen does -/

def Board.loadTicket (b : Board) (ticketId : ℕ) : Except ApiError Ticket :=
  orElseThrow ⟨.notFound, "not_found", "No such ticket"⟩ (b.tickets.find? (·.id = ticketId))

def Board.record (b : Board) (ticketId : ℕ) (type : TicketEventType) : Board :=
  { b with events := b.events ++ [⟨ticketId, type, b.clock⟩] }

def Board.write (b : Board) (updated : Ticket) : Board :=
  { b with tickets := b.tickets.map fun t => if t.id = updated.id then updated else t }

/-- The row of a ticket is updated and the event logged. -/
def Board.update (b : Board) (updated : Ticket) (type : TicketEventType) : Board :=
  (b.write updated).record updated.id type

def Ticket.bump (t : Ticket) (now : ℤ) : Ticket := { t with status := .bumped, bumpedAt := some now }

def Ticket.recall (t : Ticket) (now : ℤ) : Ticket :=
  { t with status := .queued, recallCount := t.recallCount + 1, recalledAt := some now }

def Ticket.refire (t : Ticket) : Ticket := { t with status := .queued, bumpedAt := none }

def Board.bump (b : Board) (ticketId : ℕ) : Except ApiError (Board × TicketView) := do
  let ticket ← b.loadTicket ticketId
  check (ticket.status ≠ .bumped) ⟨.conflict, "conflict", "This ticket is already bumped"⟩
  let updated := ticket.bump b.clock
  pure (b.update updated .bumped, b.buildTicketView updated)

def Board.recall (b : Board) (ticketId : ℕ) : Except ApiError (Board × TicketView) := do
  let ticket ← b.loadTicket ticketId
  check (ticket.status = .bumped) ⟨.conflict, "conflict", "Only a bumped ticket can be recalled"⟩
  check (ticket.bumpedAt.all fun bumpedAt => b.clock - bumpedAt ≤ bumpedWindowMs)
    ⟨.conflict, "conflict", "This ticket is too old to reopen"⟩
  let updated := ticket.recall b.clock
  pure (b.update updated .recalled, b.buildTicketView updated)

/-- A queued ticket can be refired too. -/
def Board.refire (b : Board) (ticketId : ℕ) : Except ApiError (Board × TicketView) := do
  let ticket ← b.loadTicket ticketId
  let updated := ticket.refire
  pure (b.update updated .refired, b.buildTicketView updated)

/-- The ticket of an order's station that was fired last. -/
def Board.existing (b : Board) (orderId : ℕ) (stationId : Option ℕ) : Option RestiqBackend.Ticket :=
  latestTicket ((b.tickets.filter fun t => t.orderId = orderId ∧ t.stationId = stationId).map
    (·.toTicket))

def Board.addTicket (b : Board) (ticket : Ticket) : Board := { b with tickets := b.tickets ++ [ticket] }

def Board.addLines (b : Board) (ticketId addOnBatch : ℕ) (group : List (ℕ × ℕ)) : Board :=
  { b with lines := b.lines ++ group.map fun line =>
      ⟨ticketId, line.1, line.2, addOnBatch, false⟩ }

/-- The lines of an order that go to one station, with their quantities: as add-ons of its queued
ticket, or on a new ticket. -/
def Board.fireGroup (b : Board) (orderId : ℕ) (stationId : Option ℕ) (newId : ℕ)
    (group : List (ℕ × ℕ)) : Except ApiError Board :=
  match (b.existing orderId stationId).filter (·.status = .queued) with
  | some existing =>
      let maxBatch := ((b.lines.filter (·.ticketId = existing.id)).map (·.addOnBatch)).max?
      .ok ((b.record existing.id .addOnFired).addLines existing.id (maxBatch.getD 0 + 1) group)
  | none => do
      check (∀ t ∈ b.tickets, t.id ≠ newId) internalError
      let created : Ticket := ⟨⟨newId, stationId, .queued, b.clock, none⟩, orderId, 0, none⟩
      pure ((b.addTicket created).addLines newId 0 group)

inductive Op
  | tick (elapsed : ℕ)
  | fire (orderId : ℕ) (stationId : Option ℕ) (newId : ℕ) (group : List (ℕ × ℕ))
  | bump (ticketId : ℕ)
  | recall (ticketId : ℕ)
  | refire (ticketId : ℕ)
  deriving DecidableEq

def Board.handle (b : Board) : Op → Board
  | .tick elapsed => { b with clock := b.clock + elapsed }
  | .fire orderId stationId newId group =>
      Serial.after b ((b.fireGroup orderId stationId newId group).map (·, ()))
  | .bump ticketId => Serial.after b (b.bump ticketId)
  | .recall ticketId => Serial.after b (b.recall ticketId)
  | .refire ticketId => Serial.after b (b.refire ticketId)

/-! ### The rows behind the board -/

/-- The board has the tickets of the store. -/
def Board.Shows (b : Board) (v : Store) : Prop := v.tickets = b.tickets.map (·.toTicket)

/-- A request does to the rows, at the board's time, what the operation does to the board. -/
def Board.Agrees (b : Board) (p : Tx Unit) (r : Except ApiError (Board × TicketView)) (v : Store) :
    Prop :=
  match r with
  | .ok (b', _) => p.returns (fun env _ => env.now = b.clock) (fun _ v' => b'.Shows v') v
  | .error e => p.refuses (fun env _ => env.now = b.clock) e v

section Rows

variable {b : Board} {v : Store} {ticketId : ℕ}

theorem Board.Agrees.clock {g : ℤ → Tx Unit} {r : Except ApiError (Board × TicketView)}
    (h : b.Agrees (g b.clock) r v) : b.Agrees (Txn.clock >>= g) r v := by
  unfold Board.Agrees at h ⊢
  cases r with
  | ok r =>
      refine Txn.clock_bind fun env henv => ?_
      rw [henv]
      exact h
  | error e =>
      refine Txn.clock_bind fun env henv => ?_
      rw [henv]
      exact h

theorem Board.Agrees.check {c c' : Prop} [Decidable c] [Decidable c'] {kind : ErrorKind}
    {code message : String} {g : Unit → Tx Unit} {f : Unit → Except ApiError (Board × TicketView)}
    (hc : c' ↔ ¬c) (h : c → b.Agrees (g ()) (f ()) v) :
    b.Agrees (raiseIf c' kind code message >>= g) (check c ⟨kind, code, message⟩ >>= f) v := by
  by_cases hholds : c
  · rw [Serial.bind_of_ok (Serial.check_of hholds), raiseIf, if_neg fun h => hc.mp h hholds]
    exact h hholds
  · rw [Serial.check, if_neg hholds, raiseIf, if_pos (hc.mpr hholds)]
    exact rfl

theorem Board.Shows.load (h : b.Shows v) {g : RestiqBackend.Ticket → Tx Unit}
    {f : Ticket → Except ApiError (Board × TicketView)}
    (hg : ∀ t ∈ b.tickets, t.id = ticketId → b.Agrees (g t.toTicket) (f t) v) :
    b.Agrees (RestiqBackend.loadTicket ticketId >>= g) (b.loadTicket ticketId >>= f) v := by
  have hfind : v.tickets.find? (·.id = ticketId) =
      (b.tickets.find? (·.id = ticketId)).map (·.toTicket) := by
    rw [h, List.find?_map]
    rfl
  unfold Board.loadTicket
  cases hrow : b.tickets.find? (·.id = ticketId) with
  | none =>
      refine (Txn.wlp_bind _ _ _ _).mpr (Txn.query_bind ?_)
      rw [hfind, hrow]
      rfl
  | some t =>
      have hid : t.id = ticketId := by simpa using List.find?_some hrow
      have hrest := hg t (List.mem_of_find?_eq_some hrow) hid
      change b.Agrees _ (f t) v
      unfold Board.Agrees at hrest ⊢
      split at hrest
      all_goals
        refine (Txn.wlp_bind _ _ _ _).mpr (Txn.query_bind ?_)
        rw [hfind, hrow]
        exact hrest

theorem Board.Shows.update (h : b.Shows v) (hids : (b.tickets.map (·.id)).Nodup) {t updated : Ticket}
    (ht : t ∈ b.tickets) {type : TicketEventType} {status : TicketStatus}
    {bumpedAt : Option (Option ℤ)} {view : TicketView}
    (hrow : updated.toTicket =
      { t.toTicket with status, bumpedAt := bumpedAt.getD t.bumpedAt }) :
    b.Agrees (updateTicket t.id status bumpedAt) (.ok (b.update updated type, view)) v := by
  have hid : updated.id = t.id := congrArg (·.id) hrow
  refine (Txn.wlp_bind _ _ _ _).mpr (Txn.writeWhen_bind (List.any_eq_true.mpr ⟨t.toTicket, ?_, ?_⟩) ?_)
  · rw [h]
    exact List.mem_map_of_mem ht
  · exact decide_eq_true rfl
  · change updateRows _ t.id _ v.tickets = (b.write updated).tickets.map (·.toTicket)
    rw [h, updateRows, Board.write, List.map_map, List.map_map]
    refine List.map_congr_left fun u hu => ?_
    by_cases heq : u.id = t.id
    · obtain rfl : u = t := List.inj_on_of_nodup_map hids hu ht heq
      rw [Function.comp_apply, Function.comp_apply, if_pos rfl, if_pos hid.symm, hrow]
    · rw [Function.comp_apply, Function.comp_apply, if_neg heq, if_neg (hid ▸ heq)]

theorem bump_agrees (h : b.Shows v) (hids : (b.tickets.map (·.id)).Nodup) :
    b.Agrees (RestiqBackend.bump ticketId) (b.bump ticketId) v := by
  refine h.load fun t ht hid => ?_
  subst hid
  exact .check not_not.symm fun _ => .clock (h.update hids ht rfl)

theorem recall_agrees (h : b.Shows v) (hids : (b.tickets.map (·.id)).Nodup) :
    b.Agrees (recallTicket ticketId) (b.recall ticketId) v := by
  refine h.load fun t ht hid => ?_
  subst hid
  refine .check Iff.rfl fun _ => .clock (.check ?_ fun _ => h.update hids ht rfl)
  cases t.bumpedAt with
  | none => simp
  | some bumpedAt =>
      simp only [Option.any_some, Option.all_some, decide_eq_true_eq, not_le]

theorem refire_agrees (h : b.Shows v) (hids : (b.tickets.map (·.id)).Nodup) :
    b.Agrees (RestiqBackend.refire ticketId) (b.refire ticketId) v := by
  refine h.load fun t ht hid => ?_
  subst hid
  exact h.update hids ht rfl

end Rows

/-! ### The log replayed -/

/-- Where a log leaves a ticket, and the event by which it last came back from being bumped. -/
structure Standing where
  status : TicketStatus
  lastReturn : Option TicketEventType
  deriving DecidableEq

def Standing.next (s : Standing) : TicketEventType → Standing
  | .bumped => { s with status := .bumped }
  | .recalled => ⟨.queued, if s.status = .bumped then some .recalled else s.lastReturn⟩
  | .refired => ⟨.queued, if s.status = .bumped then some .refired else s.lastReturn⟩
  | .addOnFired => s

def standing (log : List TicketEventType) : Standing := log.foldl Standing.next ⟨.queued, none⟩

def Board.log (b : Board) (ticketId : ℕ) : List TicketEventType :=
  (b.events.filter (·.ticketId = ticketId)).map (·.type)

theorem standing_snoc (log : List TicketEventType) (e : TicketEventType) :
    standing (log ++ [e]) = (standing log).next e := by
  rw [standing, List.foldl_append]
  rfl

/-- A ticket comes back by a recall or by a refire. -/
theorem standing_lastReturn (log : List TicketEventType) :
    (standing log).lastReturn = none ∨ (standing log).lastReturn = some .recalled ∨
      (standing log).lastReturn = some .refired := by
  induction log using List.reverseRecOn with
  | nil => exact .inl rfl
  | append_singleton log e ih =>
      rw [standing_snoc]
      cases e with
      | bumped => exact ih
      | recalled =>
          rw [Standing.next]
          split
          · exact .inr (.inl rfl)
          · exact ih
      | refired =>
          rw [Standing.next]
          split
          · exact .inr (.inr rfl)
          · exact ih
      | addOnFired => exact ih

/-! ### Boards that agree with their logs -/

/-- What holds of every ticket and its log. -/
structure Kept (P : Ticket → List TicketEventType → Prop) (b : Board) : Prop where
  ids : (b.tickets.map (·.id)).Nodup
  known : ∀ e ∈ b.events, ∃ t ∈ b.tickets, t.id = e.ticketId
  tickets : ∀ t ∈ b.tickets, P t (b.log t.id)

variable {P : Ticket → List TicketEventType → Prop} {b b' : Board} {t : Ticket}

theorem log_record (ticketId : ℕ) (type : TicketEventType) (id : ℕ) :
    (b.record ticketId type).log id =
      if id = ticketId then b.log id ++ [type] else b.log id := by
  by_cases hid : id = ticketId
  · subst hid
    simp [Board.log, Board.record]
  · simp [Board.log, Board.record, hid, Ne.symm hid]

theorem Kept.ext (h : Kept P b) {u : Ticket} (ht : t ∈ b.tickets) (hu : u ∈ b.tickets)
    (hid : t.id = u.id) : t = u :=
  List.inj_on_of_nodup_map h.ids ht hu hid

/-- One ticket is changed, and the event logged. -/
theorem Kept.update (h : Kept P b) (ht : t ∈ b.tickets) {updated : Ticket} (hid : updated.id = t.id)
    {type : TicketEventType} (hP : P updated (b.log t.id ++ [type])) : Kept P (b.update updated type) := by
  have hids : (b.tickets.map fun t => if t.id = updated.id then updated else t).map (·.id) =
      b.tickets.map (·.id) := by
    rw [List.map_map]
    refine List.map_congr_left fun u _ => ?_
    rw [Function.comp_apply]
    split
    · exact (‹u.id = updated.id›).symm
    · rfl
  have hstays : ∀ id, (∃ u ∈ b.tickets, u.id = id) → ∃ u ∈ (b.update updated type).tickets, u.id = id := by
    intro id hu
    obtain ⟨u, hu, hid⟩ := List.mem_map.mp (hids ▸ List.mem_map.mpr hu)
    exact ⟨u, hu, hid⟩
  refine ⟨hids ▸ h.ids, fun e he => hstays _ ?_, fun u hu => ?_⟩
  · rcases List.mem_append.mp he with he | he
    · exact h.known e he
    · rw [List.mem_singleton.mp he]
      exact ⟨t, ht, hid.symm⟩
  · rw [Board.update, log_record]
    have hlog : ∀ id, (b.write updated).log id = b.log id := fun _ => rfl
    rw [hlog]
    obtain ⟨v, hv, rfl⟩ := List.mem_map.mp hu
    by_cases hv' : v.id = updated.id
    · rw [if_pos hv', if_pos rfl, hid]
      exact hP
    · rw [if_neg hv', if_neg hv']
      exact h.tickets v hv

theorem Kept.record (h : Kept P b) (ht : t ∈ b.tickets) {type : TicketEventType}
    (hP : P t (b.log t.id ++ [type])) : Kept P (b.record t.id type) := by
  refine ⟨h.ids, fun e he => ?_, fun u hu => ?_⟩
  · rcases List.mem_append.mp he with he | he
    · exact h.known e he
    · rw [List.mem_singleton.mp he]
      exact ⟨t, ht, rfl⟩
  · rw [log_record]
    split
    · rw [h.ext hu ht ‹_›]
      exact hP
    · exact h.tickets u hu

/-- A new ticket has no log. -/
theorem Kept.add (h : Kept P b) (hnew : ∀ u ∈ b.tickets, u.id ≠ t.id) (hP : P t []) :
    Kept P (b.addTicket t) := by
  have hnone : b.log t.id = [] := by
    rw [Board.log, List.filter_eq_nil_iff.mpr]
    · rfl
    · intro e he hid
      obtain ⟨u, hu, hue⟩ := h.known e he
      exact hnew u hu (hue.trans (of_decide_eq_true hid))
  refine ⟨?_, fun e he => ?_, fun u hu => ?_⟩
  · rw [Board.addTicket, List.map_append, List.nodup_append]
    refine ⟨h.ids, List.nodup_singleton _, ?_⟩
    intro id hid id' hid' heq
    obtain ⟨u, hu, rfl⟩ := List.mem_map.mp hid
    exact hnew u hu (heq.trans (List.mem_singleton.mp hid'))
  · obtain ⟨u, hu, hue⟩ := h.known e he
    exact ⟨u, List.mem_append_left _ hu, hue⟩
  · rcases List.mem_append.mp hu with hu | hu
    · exact h.tickets u hu
    · rw [List.mem_singleton.mp hu]
      exact hnone ▸ hP

theorem loadTicket_ok {ticketId : ℕ} (h : b.loadTicket ticketId = .ok t) :
    t ∈ b.tickets ∧ t.id = ticketId := by
  have hfind := Serial.orElseThrow_ok h
  have hid := List.find?_some hfind
  exact ⟨List.mem_of_find?_eq_some hfind, of_decide_eq_true hid⟩

/-- What is kept by every kind of event is kept by every step. -/
theorem Kept.handle (h : Kept P b) (op : Op)
    (hfire : ∀ id stationId firedAt orderId,
      P ⟨⟨id, stationId, .queued, firedAt, none⟩, orderId, 0, none⟩ [])
    (haddOn : ∀ t log, P t log → P t (log ++ [.addOnFired]))
    (hbump : ∀ t log now, P t log → P (t.bump now) (log ++ [.bumped]))
    (hrecall : ∀ t log now, P t log → t.status = .bumped → P (t.recall now) (log ++ [.recalled]))
    (hrefire : ∀ t ∈ b.tickets, op = .refire t.id → ∀ log, P t log →
      P t.refire (log ++ [.refired])) : Kept P (b.handle op) := by
  cases op with
  | tick elapsed => exact ⟨h.ids, h.known, h.tickets⟩
  | bump ticketId =>
      refine Serial.after_keeps h fun b' view hok => ?_
      obtain ⟨t, hload, hok⟩ := Serial.bind_ok hok
      obtain ⟨-, -, hok⟩ := Serial.bind_ok hok
      cases hok
      have ht := (loadTicket_ok hload).1
      exact h.update ht (rfl : (t.bump b.clock).id = t.id) (hbump t _ _ (h.tickets t ht))
  | «recall» ticketId =>
      refine Serial.after_keeps h fun b' view hok => ?_
      obtain ⟨t, hload, hok⟩ := Serial.bind_ok hok
      obtain ⟨_, hstatus, hok⟩ := Serial.bind_ok hok
      obtain ⟨-, -, hok⟩ := Serial.bind_ok hok
      cases hok
      have ht := (loadTicket_ok hload).1
      exact h.update ht (rfl : (t.recall b.clock).id = t.id)
        (hrecall t _ _ (h.tickets t ht) (Serial.check_ok hstatus))
  | refire ticketId =>
      refine Serial.after_keeps h fun b' view hok => ?_
      obtain ⟨t, hload, hok⟩ := Serial.bind_ok hok
      cases hok
      obtain ⟨ht, rfl⟩ := loadTicket_ok hload
      exact h.update ht (rfl : t.refire.id = t.id) (hrefire t ht rfl _ (h.tickets t ht))
  | fire orderId stationId newId group =>
      refine Serial.after_keeps h fun b' view hok => ?_
      obtain ⟨b₁, hdone, heq⟩ := Serial.map_ok hok
      cases heq
      unfold Board.fireGroup at hdone
      split at hdone
      · rename_i existing hexisting
        cases hdone
        obtain ⟨t, ht, rfl⟩ := List.mem_map.mp
          (mem_of_latestTicket (Option.filter_eq_some_iff.mp hexisting).1)
        have ht := List.mem_of_mem_filter ht
        have hkept := h.record ht (haddOn t _ (h.tickets t ht))
        exact ⟨hkept.ids, hkept.known, hkept.tickets⟩
      · obtain ⟨_, hnew, hdone⟩ := Serial.bind_ok hdone
        cases hdone
        have hkept := h.add (Serial.check_ok hnew) (hfire newId stationId b.clock orderId)
        exact ⟨hkept.ids, hkept.known, hkept.tickets⟩

/-! ### The view and the log -/

/-- A ticket's row against its log. -/
structure Ticket.Follows (t : Ticket) (log : List TicketEventType) : Prop where
  status : (standing log).status = t.status
  count : t.recallCount = log.count .recalled
  unreturned : (standing log).lastReturn = none → t.recallCount = 0
  recalled : (standing log).lastReturn = some .recalled → 0 < t.recallCount

/-- A ticket that last came back by a refire was never recalled. -/
def Ticket.Unmixed (t : Ticket) (log : List TicketEventType) : Prop :=
  (standing log).lastReturn = some .refired → t.recallCount = 0

/-- The view says that a ticket was recalled just when it is queued because it was. -/
def ShownAsIs (b : Board) (t : Ticket) : Prop :=
  (b.buildTicketView t).recalled = true ↔
    t.status = .queued ∧ (standing (b.log t.id)).lastReturn = some .recalled

variable {log : List TicketEventType}

theorem Ticket.Follows.start (id : ℕ) (stationId : Option ℕ) (firedAt : ℤ) (orderId : ℕ) :
    Ticket.Follows ⟨⟨id, stationId, .queued, firedAt, none⟩, orderId, 0, none⟩ [] :=
  ⟨rfl, rfl, fun _ => rfl, nofun⟩

theorem Ticket.Follows.addOn (h : t.Follows log) : t.Follows (log ++ [.addOnFired]) := by
  refine ⟨?_, ?_, ?_, ?_⟩ <;> try rw [standing_snoc]
  · exact h.status
  · rw [List.count_append]
    exact h.count
  · exact h.unreturned
  · exact h.recalled

theorem Ticket.Follows.bump (h : t.Follows log) (now : ℤ) :
    (t.bump now).Follows (log ++ [.bumped]) := by
  refine ⟨?_, ?_, ?_, ?_⟩ <;> try rw [standing_snoc]
  · rfl
  · rw [List.count_append]
    exact h.count
  · exact h.unreturned
  · exact h.recalled

theorem Ticket.Follows.recall (h : t.Follows log) (hbumped : t.status = .bumped) (now : ℤ) :
    (t.recall now).Follows (log ++ [.recalled]) := by
  have hreturn : (standing (log ++ [.recalled])).lastReturn = some .recalled := by
    rw [standing_snoc, Standing.next, h.status, if_pos hbumped]
  refine ⟨?_, ?_, ?_, fun _ => Nat.succ_pos _⟩
  · rw [standing_snoc]
    rfl
  · rw [List.count_append]
    exact congrArg (· + 1) h.count
  · rw [hreturn]
    nofun

theorem Ticket.Follows.refire (h : t.Follows log) : t.refire.Follows (log ++ [.refired]) := by
  refine ⟨?_, ?_, ?_, ?_⟩
  · rw [standing_snoc]
    rfl
  · rw [List.count_append]
    exact h.count
  all_goals
    rw [standing_snoc, Standing.next]
    split
  · nofun
  · exact h.unreturned
  · nofun
  · exact h.recalled

/-- The view goes wrong for a queued ticket that was recalled once and refired last. -/
theorem Ticket.Follows.shownAsIs_iff (h : t.Follows (b.log t.id)) : ShownAsIs b t ↔
    ¬(t.status = .queued ∧ (standing (b.log t.id)).lastReturn = some .refired ∧
      .recalled ∈ b.log t.id) := by
  have hview : (b.buildTicketView t).recalled = true ↔ t.status = .queued ∧ 0 < t.recallCount := by
    rw [Board.buildTicketView, Bool.and_eq_true, decide_eq_true_eq, decide_eq_true_eq]
  rw [ShownAsIs, hview, ← List.count_pos_iff, ← h.count]
  rcases standing_lastReturn (b.log t.id) with hlast | hlast | hlast
  · rw [hlast, h.unreturned hlast]
    simp
  · have := h.recalled hlast
    rw [hlast]
    simp [this]
  · rw [hlast]
    simp

/-- No ticket that is bumped and was recalled before is refired. -/
def refiresUnrecalled (b : Board) : Op → Bool
  | .refire ticketId => b.tickets.all fun t =>
      t.id ≠ ticketId || t.status ≠ .bumped || t.recallCount = 0
  | _ => true

theorem Kept.follows (h : Kept Ticket.Follows b) (op : Op) : Kept Ticket.Follows (b.handle op) :=
  h.handle op .start (fun _ _ h => h.addOn) (fun _ _ now h => h.bump now)
    (fun _ _ now h hbumped => h.recall hbumped now) fun _ _ _ _ h => h.refire

theorem Kept.unmixed (h : Kept (fun t log => t.Follows log ∧ t.Unmixed log) b) (op : Op)
    (hop : refiresUnrecalled b op = true) :
    Kept (fun t log => t.Follows log ∧ t.Unmixed log) (b.handle op) := by
  refine h.handle op (fun _ _ _ _ => ⟨.start .., nofun⟩) ?_ ?_ ?_ ?_
  · refine fun t log ht => ⟨ht.1.addOn, ?_⟩
    rw [Ticket.Unmixed, standing_snoc]
    exact ht.2
  · refine fun t log now ht => ⟨ht.1.bump now, ?_⟩
    rw [Ticket.Unmixed, standing_snoc]
    exact ht.2
  · refine fun t log now ht hbumped => ⟨ht.1.recall hbumped now, ?_⟩
    rw [Ticket.Unmixed, standing_snoc, Standing.next, ht.1.status, if_pos hbumped]
    nofun
  · intro t hmem hrefire log ht
    refine ⟨ht.1.refire, ?_⟩
    rw [Ticket.Unmixed, standing_snoc, Standing.next, ht.1.status]
    split
    · rename_i hbumped
      subst hrefire
      have hnone := List.all_eq_true.mp hop t hmem
      simp only [ne_eq, not_true_eq_false, decide_false, hbumped, Bool.false_or,
        decide_eq_true_eq] at hnone
      exact fun _ => hnone
    · exact ht.2

/-- A ticket's count is that of its recalls, and it is shown as recalled just when it is, unless
it was recalled before and refired last; which no ticket is where none that is bumped and was
recalled before is refired. -/
theorem recalled_as_logged {es : List Op} {b b' : Board} (htickets : b.tickets = [])
    (hevents : b.events = []) :
    (Serial.Run (fun b op b' => b' = b.handle op) (fun _ _ => True) b es b' →
      ∀ t ∈ b'.tickets, (b'.buildTicketView t).recallCount = (b'.log t.id).count .recalled ∧
        (ShownAsIs b' t ↔ ¬(t.status = .queued ∧
          (standing (b'.log t.id)).lastReturn = some .refired ∧ .recalled ∈ b'.log t.id))) ∧
    (Serial.Run (fun b op b' => b' = b.handle op) (fun b op => refiresUnrecalled b op = true) b es b' →
      ∀ t ∈ b'.tickets, ShownAsIs b' t) := by
  have hstart : ∀ P, Kept P b := fun P => by
    refine ⟨?_, ?_, ?_⟩ <;> simp [htickets, hevents]
  constructor
  · intro hrun t ht
    have hkept := hrun.preserves (I := Kept Ticket.Follows)
      (fun _ op _ h _ hstep => hstep ▸ h.follows op) (hstart _)
    have hfollows := hkept.tickets t ht
    exact ⟨hfollows.count, hfollows.shownAsIs_iff⟩
  · intro hrun t ht
    have hkept := hrun.preserves (I := Kept fun t log => t.Follows log ∧ t.Unmixed log)
      (fun _ op _ h hop hstep => hstep ▸ h.unmixed op hop) (hstart _)
    obtain ⟨hfollows, hunmixed⟩ := hkept.tickets t ht
    refine hfollows.shownAsIs_iff.mpr fun ⟨_, hlast, hrecalled⟩ => ?_
    have hpos := List.count_pos_iff.mpr hrecalled
    rw [← hfollows.count, hunmixed hlast] at hpos
    exact absurd hpos (lt_irrefl 0)

def emptyBoard : Board := ⟨0, [], [], []⟩

/-- A ticket that is bumped, refired, given an add-on, bumped and recalled. -/
def recalledAfterRefire : List Op :=
  [.fire 1 none 7 [(1, 2)], .bump 7, .refire 7, .fire 1 none 8 [(2, 1)], .bump 7, .recall 7]

theorem recalled_as_logged_sample :
    ∃ t ∈ (recalledAfterRefire.foldl Board.handle emptyBoard).tickets,
      ShownAsIs (recalledAfterRefire.foldl Board.handle emptyBoard) t := by
  have hshown := (recalled_as_logged (b := emptyBoard) rfl rfl).2
    (Serial.Run.of_foldl (by decide : Serial.allowed Board.handle refiresUnrecalled emptyBoard
      recalledAfterRefire = true))
  have hsome : (recalledAfterRefire.foldl Board.handle emptyBoard).tickets ≠ [] := by decide
  obtain ⟨t, ht⟩ := List.exists_mem_of_ne_nil _ hsome
  exact ⟨t, ht, hshown t ht⟩

/-- Bumped, recalled, bumped again and refired: the ticket came back by the refire. -/
def refiredAfterRecall : List Op :=
  [.fire 1 none 7 [(1, 2)], .bump 7, .recall 7, .bump 7, .refire 7]

theorem refired_ticket_shown_as_recalled :
    Serial.Run (fun b op b' => b' = b.handle op) (fun _ _ => True) emptyBoard refiredAfterRecall
        (refiredAfterRecall.foldl Board.handle emptyBoard) ∧
      ∃ t ∈ (refiredAfterRecall.foldl Board.handle emptyBoard).tickets,
        ((refiredAfterRecall.foldl Board.handle emptyBoard).buildTicketView t).recalled = true ∧
          (standing ((refiredAfterRecall.foldl Board.handle emptyBoard).log t.id)).lastReturn =
            some .refired :=
  ⟨Serial.Run.of_events _ _ _, ⟨⟨7, none, .queued, 0, none⟩, 1, 1, some 0⟩, by decide⟩

end RestiqBackend.Recalls
