import Mathlib.Data.List.Induction
import RestiqBackend.Store

/-!
Firing to the kitchen (`src/kitchen/tickets.service.ts`).

Sending an order, and finalizing its bill, puts every live item line that has no
ticket line yet on a ticket of the station it is routed to. Nothing of it touches
money: `fireOnSend_emits` is all the money path needs to know.
-/

namespace RestiqBackend

open ReadCommitted

/-- The outlet's oldest station that was not deleted. -/
def resolveDefaultStationId (outletId : ℕ) : Tx (Option ℕ) :=
  Txn.query fun v =>
    (v.around.stations.find? fun st => st.outletId = outletId && st.deletedAt.isNone).map (·.id)

/-- The station a line goes to: its item's own, one of the same name, or the default. -/
def routeStationId (outletId : ℕ) (itemStationId defaultStationId : Option ℕ) :
    Tx (Option ℕ) := do
  match itemStationId with
  | none => pure defaultStationId
  | some id =>
      let station ← Txn.query fun v => v.around.stations.find? (·.id = id)
      match station with
      | none => pure defaultStationId
      | some station =>
          if station.outletId = outletId ∧ station.deletedAt = none then
            pure (some station.id)
          else
            let sameName ← Txn.query fun v => v.around.stations.find? fun st =>
              st.outletId = outletId && st.name = station.name && st.deletedAt.isNone
            pure ((sameName.map (·.id)).or defaultStationId)

/-- A `Map` from station to lines, in insertion order. -/
abbrev StationGroups := List (Option ℕ × List OrderLine)

def StationGroups.push (groups : StationGroups) (stationId : Option ℕ) (line : OrderLine) :
    StationGroups :=
  if groups.any (·.1 = stationId) then
    groups.map fun g => if g.1 = stationId then (g.1, g.2 ++ [line]) else g
  else groups ++ [(stationId, [line])]

/-- Grouping the lines by the station they are routed to. -/
def groupByStation (outletId : ℕ) (defaultStationId : Option ℕ) :
    List OrderLine → StationGroups → Tx StationGroups
  | [], groups => pure groups
  | line :: lines, groups => do
      let itemStation ← Txn.query fun v =>
        (v.around.menuItemStations.find? (some ·.1 = line.itemId)).map (·.2)
      let stationId ← routeStationId outletId itemStation defaultStationId
      groupByStation outletId defaultStationId lines (groups.push stationId line)

/-- The ticket that was fired last. -/
def latestTicket (tickets : List Ticket) : Option Ticket :=
  tickets.foldl (fun latest t =>
    match latest with
    | none => some t
    | some l => if l.firedAt ≤ t.firedAt then some t else some l) none

theorem mem_of_latestTicket {tickets : List Ticket} {t : Ticket}
    (h : latestTicket tickets = some t) : t ∈ tickets := by
  induction tickets using List.reverseRecOn generalizing t with
  | nil => cases h
  | append_singleton tickets t' ih =>
      rw [latestTicket, List.foldl_append, List.foldl_cons, List.foldl_nil, ← latestTicket] at h
      cases hlatest : latestTicket tickets with
      | none =>
          rw [hlatest] at h
          exact Option.some.inj h ▸ List.mem_append_right _ (List.mem_singleton_self t')
      | some l =>
          rw [hlatest] at h
          dsimp only at h
          split at h
          · exact Option.some.inj h ▸ List.mem_append_right _ (List.mem_singleton_self t')
          · exact List.mem_append_left _ (ih (Option.some.inj h ▸ hlatest))

/-- The ticket a station's lines go on, and their add-on batch. -/
def openTicket (stationId : Option ℕ) : Tx (ℕ × ℕ) := do
  let existing ← Txn.query fun v => latestTicket (v.tickets.filter (·.stationId = stationId))
  match existing.filter (·.status = .queued) with
  | some ticket =>
      let maxBatch ← Txn.query fun v =>
        ((v.ticketLines.filter (·.ticketId = ticket.id)).map (·.addOnBatch)).max?
      Txn.exec (fun _ => []) (fun _ => [.createAddOnEvent ticket.id])
      pure (ticket.id, maxBatch.getD 0 + 1)
  | none =>
      let id ← Txn.uuid
      let firedAt ← Txn.clock
      insertRow (fun v => v.tickets.any (·.id = id)) [.ticket id]
        (.createTicket ⟨id, stationId, .queued, firedAt, none⟩)
      pure (id, 0)

def fireGroup (group : Option ℕ × List OrderLine) : Tx Unit := do
  let (ticketId, addOnBatch) ← openTicket group.1
  Txn.forEach (fun line : OrderLine =>
    insertRow
      (fun v => v.ticketLines.any fun l => l.ticketId = ticketId && l.orderLineId = line.id)
      [.ticketLine ticketId line.id]
      (.createTicketLine ⟨ticketId, line.id, line.quantity, addOnBatch, false⟩)) group.2

/-- The lines the kitchen does not have yet. A combo's own line has no item and
nothing to cook. -/
def Store.unfired (v : Store) : List OrderLine :=
  v.lines.filter fun l => l.voidedAt.isNone && l.itemId.isSome &&
    v.ticketLines.all (·.orderLineId ≠ l.id)

def findUnfired : Tx (List OrderLine) :=
  .stmt (fun _ v => { reads := [.unfiredLines (v.unfired.map (·.id))], ret := v.unfired }) .done

/-- Fires every line the kitchen does not have yet and returns how many they were. -/
def fireOnSend (outletId : ℕ) : Tx ℕ := do
  let lines ← findUnfired
  if lines = [] then pure 0
  else do
    let defaultStationId ← resolveDefaultStationId outletId
    let groups ← groupByStation outletId defaultStationId lines []
    Txn.forEach fireGroup groups
    pure lines.length

/-! ### What firing writes -/

theorem routeStationId_emits (outletId : ℕ) (item default : Option ℕ) {ts : List Table} :
    (routeStationId outletId item default).Emits (Touching ts) := by
  cases item with
  | none => trivial
  | some id =>
      refine (emits_query _).bind fun station => ?_
      cases station with
      | none => trivial
      | some station => exact .ite trivial ((emits_query _).bind fun _ => trivial)

theorem groupByStation_emits (outletId : ℕ) (default : Option ℕ) (lines : List OrderLine)
    (groups : StationGroups) {ts : List Table} :
    (groupByStation outletId default lines groups).Emits (Touching ts) := by
  induction lines generalizing groups with
  | nil => trivial
  | cons line lines ih =>
      exact (emits_query _).bind fun _ => (routeStationId_emits ..).bind fun _ => ih _

theorem openTicket_emits (stationId : Option ℕ) :
    (openTicket stationId).Emits (Touching [.tickets]) := by
  refine (emits_query _).bind fun existing => ?_
  cases existing.filter (·.status = .queued) with
  | some ticket =>
      exact (emits_query _).bind fun _ => (emits_exec (by simp [Write.table])).bind fun _ => trivial
  | none =>
      exact emits_uuid.bind fun _ => emits_clock.bind fun _ =>
        (emits_insertRow (by simp [Write.table])).bind fun _ => trivial

theorem fireGroup_emits (group : Option ℕ × List OrderLine) :
    (fireGroup group).Emits (Touching [.tickets]) :=
  (openTicket_emits _).bind fun _ => .forEach fun _ _ => emits_insertRow (by simp [Write.table])

/-- Firing writes nothing but tickets. -/
theorem fireOnSend_emits (outletId : ℕ) : (fireOnSend outletId).Emits (Touching [.tickets]) := by
  have hfind : findUnfired.Emits (Touching [.tickets]) :=
    ⟨fun _ _ => by simp [Touching], fun _ => trivial⟩
  refine hfind.bind fun lines => .ite trivial ?_
  refine (emits_query _).bind fun _ => (groupByStation_emits ..).bind fun groups => ?_
  exact (Txn.Emits.forEach fun g _ => fireGroup_emits g).bind fun _ => trivial

/-! ### What firing throws -/

/-- A drawn identifier that is taken is all that can go wrong. -/
theorem fireOnSend_throws (outletId : ℕ) : (fireOnSend outletId).Throws (· = uniqueViolation) := by
  have hinsert : ∀ taken keys w, (insertRow taken keys w).Throws (· = uniqueViolation) :=
    fun taken keys w => fun b => by cases b <;> first | exact rfl | trivial
  have hroute : ∀ item default, (routeStationId outletId item default).Throws
      (· = uniqueViolation) := by
    intro item default
    cases item with
    | none => trivial
    | some id =>
        intro station
        cases station with
        | none => trivial
        | some station => exact .ite trivial fun _ => trivial
  have hgroup : ∀ default lines groups, (groupByStation outletId default lines groups).Throws
      (· = uniqueViolation) := by
    intro default lines
    induction lines with
    | nil => exact fun _ => trivial
    | cons line lines ih => exact fun groups _ => (hroute _ _).bind fun _ => ih _
  have hticket : ∀ stationId, (openTicket stationId).Throws (· = uniqueViolation) := by
    intro stationId
    refine Txn.Throws.bind (fun _ => trivial) fun existing => ?_
    split
    · exact fun _ _ => trivial
    · exact fun _ _ => (hinsert _ _ _).bind fun _ => trivial
  intro lines
  refine .ite trivial fun _ => (hgroup _ _ _).bind fun groups => ?_
  refine (Txn.Throws.forEach fun group _ => ?_).bind fun _ => trivial
  exact (hticket _).bind fun _ => .forEach fun _ _ => hinsert _ _ _

end RestiqBackend
