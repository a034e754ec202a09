import Mathlib.Data.List.Induction
import RestiqBackend.FiredOnce

/-!
Where a line is cooked, and what one firing leaves.

A line goes to the station of its item, where that station serves the outlet; else to the one
of the same name there, else to the outlet's oldest, and to none only where the outlet has none.
Lines of one station share a ticket: the station's last one while it is still queued, as a later
batch than any already on it, or a new one. `Fired` says this of a whole firing.
-/

namespace RestiqBackend

open ReadCommitted

/-! ### Routing -/

/-- The station is one of the outlet's and is still there. -/
def Station.Serves (st : Station) (outletId : ℕ) : Prop :=
  st.outletId = outletId ∧ st.deletedAt = none

/-- A station of the outlet, or none where the outlet has none. -/
structure Surroundings.Staffed (around : Surroundings) (outletId : ℕ) (stationId : Option ℕ) :
    Prop where
  serves : ∀ id, stationId = some id → ∃ st ∈ around.stations, st.id = id ∧ st.Serves outletId
  unrouted : stationId = none → ∀ st ∈ around.stations, ¬ st.Serves outletId

/-- The station that an item is routed to, whatever became of it. -/
def Surroundings.stationOf (around : Surroundings) (itemId : Option ℕ) : Option Station :=
  ((around.menuItemStations.find? (some ·.1 = itemId)).map (·.2)).bind fun id =>
    around.stations.find? (·.id = id)

/-- Where an item is cooked that is ordered at the outlet. -/
structure Surroundings.Routed (around : Surroundings) (outletId : ℕ) (itemId stationId : Option ℕ) :
    Prop extends around.Staffed outletId stationId where
  own : ∀ st, around.stationOf itemId = some st → st.Serves outletId → stationId = some st.id
  namesake : ∀ st, around.stationOf itemId = some st → ¬ st.Serves outletId →
    (∃ st' ∈ around.stations, st'.name = st.name ∧ st'.Serves outletId) →
    ∃ st' ∈ around.stations, st'.name = st.name ∧ st'.Serves outletId ∧ stationId = some st'.id

section Programs

variable {v : Store} {outletId : ℕ}

theorem staffed_of_mem {around : Surroundings} {st : Station} (hst : st ∈ around.stations)
    (h : st.Serves outletId) : around.Staffed outletId (some st.id) where
  serves _ hid := ⟨st, hst, Option.some.inj hid, h⟩
  unrouted hnone := nomatch hnone

theorem commits_resolveDefaultStationId {Q : Option ℕ → Store → Prop}
    (hQ : ∀ stationId, v.around.Staffed outletId stationId → Q stationId v) :
    (resolveDefaultStationId outletId).commits Q v := by
  simp only [resolveDefaultStationId, Txn.commits, Txn.wlp_query]
  intro _ _
  apply hQ
  have hp : ∀ st : Station, (decide (st.outletId = outletId) && st.deletedAt.isNone) = true ↔
      st.Serves outletId := by simp [Station.Serves]
  cases hfind : v.around.stations.find?
      fun st => decide (st.outletId = outletId) && st.deletedAt.isNone with
  | some st =>
      exact staffed_of_mem (List.mem_of_find?_eq_some hfind)
        (by simpa [Station.Serves] using List.find?_some hfind)
  | none =>
      refine ⟨by simp, fun _ st hst hserves => ?_⟩
      exact List.find?_eq_none.mp hfind st hst ((hp st).mpr hserves)

theorem commits_routeStationId {itemId : Option ℕ} {defaultStationId : Option ℕ}
    (hdefault : v.around.Staffed outletId defaultStationId) {Q : Option ℕ → Store → Prop}
    (hQ : ∀ stationId, v.around.Routed outletId itemId stationId → Q stationId v) :
    (routeStationId outletId
      ((v.around.menuItemStations.find? (some ·.1 = itemId)).map (·.2)) defaultStationId).commits
      Q v := by
  have hnowhere : v.around.stationOf itemId = none → Q defaultStationId v := fun hnone =>
    hQ _ ⟨hdefault, fun st hst => by simp [hnone] at hst, fun st hst => by simp [hnone] at hst⟩
  unfold routeStationId
  cases hitem : (v.around.menuItemStations.find? (some ·.1 = itemId)).map (·.2) with
  | none => exact hnowhere (by rw [Surroundings.stationOf, hitem]; rfl)
  | some id =>
      simp only [Txn.commits, Txn.wlp_bind, Txn.wlp_query]
      intro _ _
      have hof : v.around.stationOf itemId = v.around.stations.find? (·.id = id) := by
        rw [Surroundings.stationOf, hitem]
        rfl
      cases hfind : v.around.stations.find? (·.id = id) with
      | none => exact hnowhere (hof.trans hfind)
      | some station =>
          have hone : ∀ st, v.around.stationOf itemId = some st → st = station := fun st hst =>
            Option.some.inj (hst.symm.trans (hof.trans hfind))
          have hmem : station ∈ v.around.stations := List.mem_of_find?_eq_some hfind
          dsimp only
          split
          · rename_i hserves
            refine hQ _ ⟨staffed_of_mem hmem hserves, fun st hst _ => ?_, fun st hst hnot => ?_⟩
            · rw [hone st hst]
            · exact absurd (hone st hst ▸ hserves) hnot
          · rename_i hserves
            have helse : ∀ stationId, v.around.Staffed outletId stationId →
                ((∃ st' ∈ v.around.stations, st'.name = station.name ∧ st'.Serves outletId) →
                  ∃ st' ∈ v.around.stations, st'.name = station.name ∧ st'.Serves outletId ∧
                    stationId = some st'.id) → Q stationId v := by
              refine fun stationId hstaffed hname => hQ _ ⟨hstaffed, fun st hst hs => ?_, ?_⟩
              · exact absurd (hone st hst ▸ hs) hserves
              · rintro st hst -
                rw [hone st hst]
                exact hname
            simp only [Txn.wlp_bind, Txn.wlp_query, Txn.wlp_pure]
            intro _ _
            have hp : ∀ st : Station, (decide (st.outletId = outletId) &&
                decide (st.name = station.name) && st.deletedAt.isNone) = true ↔
                st.name = station.name ∧ st.Serves outletId := fun st => by
              simp only [Bool.and_eq_true, decide_eq_true_eq, Option.isNone_iff_eq_none,
                Station.Serves]
              tauto
            cases hsame : v.around.stations.find? fun st => decide (st.outletId = outletId) &&
                decide (st.name = station.name) && st.deletedAt.isNone with
            | some st =>
                have hst := List.mem_of_find?_eq_some hsame
                have hfound := List.find?_some hsame
                obtain ⟨hname, hst'⟩ := (hp st).mp hfound
                exact helse _ (staffed_of_mem hst hst') fun _ => ⟨st, hst, hname, hst', rfl⟩
            | none =>
                refine helse _ hdefault fun hnamed => ?_
                obtain ⟨st, hst, hst'⟩ := hnamed
                exact absurd ((hp st).mpr hst') (List.find?_eq_none.mp hsame st hst)

/-! ### Grouping -/

/-- The lines in groups by the station they go to. -/
structure Grouped (around : Surroundings) (outletId : ℕ) (groups : StationGroups)
    (lines : List OrderLine) : Prop where
  keys : (groups.map (·.1)).Nodup
  lines : (groups.flatMap (·.2)).Perm lines
  routed : ∀ g ∈ groups, ∀ line ∈ g.2, around.Routed outletId line.itemId g.1

theorem mem_push {groups : StationGroups} {stationId : Option ℕ} {line : OrderLine}
    {g : Option ℕ × List OrderLine} (hg : g ∈ groups.push stationId line) :
    ∀ l ∈ g.2, (∃ g' ∈ groups, g'.1 = g.1 ∧ l ∈ g'.2) ∨ g.1 = stationId ∧ l = line := by
  intro l hl
  unfold StationGroups.push at hg
  split at hg
  · obtain ⟨g', hg', rfl⟩ := List.mem_map.mp hg
    by_cases hkey : g'.1 = stationId
    · rw [if_pos hkey] at hl ⊢
      rcases List.mem_append.mp hl with hl | hl
      · exact .inl ⟨g', hg', rfl, hl⟩
      · exact .inr ⟨hkey, List.mem_singleton.mp hl⟩
    · rw [if_neg hkey] at hl ⊢
      exact .inl ⟨g', hg', rfl, hl⟩
  · rcases List.mem_append.mp hg with hg | hg
    · exact .inl ⟨g, hg, rfl, hl⟩
    · obtain rfl := List.mem_singleton.mp hg
      exact .inr ⟨rfl, List.mem_singleton.mp hl⟩

theorem Grouped.push {around : Surroundings} {groups : StationGroups} {lines : List OrderLine}
    (h : Grouped around outletId groups lines) {stationId : Option ℕ} {line : OrderLine}
    (hline : around.Routed outletId line.itemId stationId) :
    Grouped around outletId (groups.push stationId line) (lines ++ [line]) where
  keys := push_keys groups stationId line h.keys
  lines := (push_lines groups stationId line h.keys).trans (h.lines.append_right [line])
  routed g hg l hl := by
    rcases mem_push hg l hl with ⟨g', hg', hkey, hl⟩ | ⟨hkey, rfl⟩
    · rw [← hkey]
      exact h.routed g' hg' l hl
    · rw [hkey]
      exact hline

theorem commits_groupByStation {defaultStationId : Option ℕ}
    (hdefault : v.around.Staffed outletId defaultStationId) (lines : List OrderLine)
    {groups : StationGroups} {done : List OrderLine} (h : Grouped v.around outletId groups done)
    {Q : StationGroups → Store → Prop}
    (hQ : ∀ groups, Grouped v.around outletId groups (done ++ lines) → Q groups v) :
    (groupByStation outletId defaultStationId lines groups).commits Q v := by
  induction lines generalizing groups done with
  | nil => exact hQ groups (by simpa using h)
  | cons line lines ih =>
      simp only [groupByStation, Txn.commits, Txn.wlp_bind, Txn.wlp_query]
      intro _ _
      refine commits_routeStationId hdefault fun stationId hrouted => ?_
      exact ih (h.push hrouted) fun groups' hgroups' => hQ groups' (by simpa using hgroups')

/-! ### Tickets -/

/-- Tickets are told apart by their key, and every ticket line is on one. -/
structure Store.TicketKeys (v : Store) : Prop where
  ids : (v.tickets.map (·.id)).Nodup
  placed : ∀ tl ∈ v.ticketLines, ∃ t ∈ v.tickets, t.id = tl.ticketId

/-- The ticket that a station's lines go on, and their batch, from `v` to `v'`. -/
structure TicketOpened (v v' : Store) (stationId : Option ℕ) (ticketId addOnBatch : ℕ) : Prop where
  frame : Frame [.tickets] v v'
  ticketLines : v'.ticketLines = v.ticketLines
  tickets : v.tickets <+: v'.tickets
  keys : v.TicketKeys → v'.TicketKeys
  ticket : ∃ t ∈ v'.tickets, t.id = ticketId ∧ t.stationId = stationId ∧ t.status = .queued
  batch : v.TicketKeys → ∀ tl ∈ v.ticketLines, tl.ticketId = ticketId → tl.addOnBatch < addOnBatch

theorem commits_openTicket {stationId : Option ℕ} {Q : ℕ × ℕ → Store → Prop}
    (hQ : ∀ v' ticketId addOnBatch, TicketOpened v v' stationId ticketId addOnBatch →
      Q (ticketId, addOnBatch) v') :
    (openTicket stationId).commits Q v := by
  simp only [openTicket, Txn.commits, Txn.wlp_bind, Txn.wlp_query]
  intro _ _
  cases hlatest : (latestTicket (v.tickets.filter (·.stationId = stationId))).filter
      (·.status = .queued) with
  | some ticket =>
      obtain ⟨hticket, hqueued⟩ := Option.filter_eq_some_iff.mp hlatest
      have hmem := mem_of_latestTicket hticket
      rw [List.mem_filter, decide_eq_true_eq] at hmem
      simp only [Txn.wlp_bind, Txn.wlp_query, Txn.wlp_exec, Txn.wlp_pure, applyAll_cons,
        applyAll_nil, writeTo_apply]
      intro _ _ _ _
      refine hQ _ _ _ ⟨frame_apply (by simp [Write.table]) v, rfl, List.prefix_rfl, ?_, ?_, ?_⟩
      · exact fun h => ⟨h.ids, h.placed⟩
      · exact ⟨ticket, hmem.1, rfl, hmem.2, by simpa using hqueued⟩
      · refine fun _ tl htl hid => Nat.lt_succ_of_le (List.le_max?_getD_of_mem ?_)
        exact List.mem_map_of_mem (List.mem_filter.mpr ⟨htl, decide_eq_true hid⟩)
  | none =>
      simp only [Txn.wlp_bind, Txn.wlp_uuid, Txn.wlp_clock, Txn.wlp_pure]
      intro env _ env' _
      refine commits_insertRow fun hfree => ?_
      have hfresh : ∀ t ∈ v.tickets, t.id ≠ env.uuid := by simpa using hfree
      refine hQ _ _ _
        ⟨frame_apply (by simp [Write.table]) v, rfl, List.prefix_append _ _, ?_, ?_, ?_⟩
      · refine fun h => ⟨?_, fun tl htl => ?_⟩
        · rw [Store.apply, List.map_append]
          refine h.ids.append (List.nodup_singleton _) fun id hid hnew => ?_
          obtain ⟨t, ht, rfl⟩ := List.mem_map.mp hid
          exact hfresh t ht (List.mem_singleton.mp hnew)
        · obtain ⟨t, ht, hid⟩ := h.placed tl htl
          exact ⟨t, List.mem_append_left _ ht, hid⟩
      · exact ⟨_, List.mem_append_right _ (List.mem_singleton_self _), rfl, rfl, rfl⟩
      · intro h tl htl hid
        obtain ⟨t, ht, hid'⟩ := h.placed tl htl
        exact absurd (hid'.trans hid) (hfresh t ht)

/-! ### Firing -/

/-- What firing the groups one after the other leaves: a ticket line for each of their lines. -/
structure FiredGroups (v v' : Store) (groups : StationGroups) (new : List TicketLine) : Prop where
  frame : Frame [.tickets] v v'
  ticketLines : v'.ticketLines = v.ticketLines ++ new
  lines : new.map (·.orderLineId) = (groups.flatMap (·.2)).map (·.id)
  copies : ∀ tl ∈ new, ∃ g ∈ groups, ∃ line ∈ g.2, tl.orderLineId = line.id ∧
    tl.quantity = line.quantity ∧ tl.voided = false ∧
    ∃ t ∈ v'.tickets, t.id = tl.ticketId ∧ t.stationId = g.1 ∧ t.status = .queued
  tickets : v.tickets <+: v'.tickets
  keys : v.TicketKeys → v'.TicketKeys
  batch : v.TicketKeys → ∀ tl ∈ new, ∀ old ∈ v.ticketLines, old.ticketId = tl.ticketId →
    old.addOnBatch < tl.addOnBatch

theorem FiredGroups.nil (v : Store) : FiredGroups v v [] [] :=
  ⟨.refl _ v, by simp, rfl, by simp, List.prefix_rfl, id, by simp⟩

theorem FiredGroups.append {v v₁ v₂ : Store} {groups groups' : StationGroups}
    {new new' : List TicketLine} (h : FiredGroups v v₁ groups new)
    (h' : FiredGroups v₁ v₂ groups' new') :
    FiredGroups v v₂ (groups ++ groups') (new ++ new') where
  frame := h.frame.trans h'.frame
  ticketLines := by rw [h'.ticketLines, h.ticketLines, List.append_assoc]
  lines := by rw [List.map_append, h.lines, h'.lines, List.flatMap_append, List.map_append]
  copies tl htl := by
    rcases List.mem_append.mp htl with htl | htl
    · obtain ⟨g, hg, line, hline, hid, hquantity, hvoided, t, ht, hticket⟩ := h.copies tl htl
      exact ⟨g, List.mem_append_left _ hg, line, hline, hid, hquantity, hvoided, t,
        h'.tickets.subset ht, hticket⟩
    · obtain ⟨g, hg, hcopy⟩ := h'.copies tl htl
      exact ⟨g, List.mem_append_right _ hg, hcopy⟩
  tickets := h.tickets.trans h'.tickets
  keys hkeys := h'.keys (h.keys hkeys)
  batch hkeys tl htl old hold hid := by
    rcases List.mem_append.mp htl with htl | htl
    · exact h.batch hkeys tl htl old hold hid
    · refine h'.batch (h.keys hkeys) tl htl old ?_ hid
      rw [h.ticketLines]
      exact List.mem_append_left _ hold

/-- Writing a group's lines on their ticket, one by one. -/
theorem commits_fireLines (ticketId addOnBatch : ℕ) (lines : List OrderLine)
    {Q : Unit → Store → Prop}
    (hQ : Q () { v with
      ticketLines := v.ticketLines ++
        lines.map (fun line => ⟨ticketId, line.id, line.quantity, addOnBatch, false⟩) }) :
    (Txn.forEach (fun line : OrderLine =>
      insertRow
        (fun v => v.ticketLines.any fun l => l.ticketId = ticketId && l.orderLineId = line.id)
        [.ticketLine ticketId line.id]
        (.createTicketLine ⟨ticketId, line.id, line.quantity, addOnBatch, false⟩))
      lines).commits Q v := by
  induction lines generalizing v with
  | nil => simpa using hQ
  | cons line lines ih =>
      simp only [Txn.forEach_cons, Txn.commits, Txn.wlp_bind]
      refine commits_insertRow fun _ => ih ?_
      simpa [Store.apply] using hQ

theorem commits_fireGroup (group : Option ℕ × List OrderLine) {Q : Unit → Store → Prop}
    (hQ : ∀ v' new, FiredGroups v v' [group] new → Q () v') : (fireGroup group).commits Q v := by
  simp only [fireGroup, Txn.commits, Txn.wlp_bind]
  refine commits_openTicket fun v₁ ticketId addOnBatch hopened => commits_fireLines _ _ _ ?_
  refine hQ _ (group.2.map fun line => ⟨ticketId, line.id, line.quantity, addOnBatch, false⟩)
    ⟨hopened.frame.trans ?_, ?_, ?_, ?_, hopened.tickets, ?_, ?_⟩
  · intro t ht
    cases t <;> first | rfl | exact ⟨rfl, rfl⟩ | exact absurd (List.mem_singleton_self _) ht
  · rw [hopened.ticketLines]
  · simp
  · intro tl htl
    obtain ⟨line, hline, rfl⟩ := List.mem_map.mp htl
    exact ⟨group, List.mem_singleton_self _, line, hline, rfl, rfl, rfl, hopened.ticket⟩
  · intro hkeys
    refine ⟨(hopened.keys hkeys).ids, fun tl htl => ?_⟩
    rcases List.mem_append.mp htl with htl | htl
    · exact (hopened.keys hkeys).placed tl htl
    · obtain ⟨line, _, rfl⟩ := List.mem_map.mp htl
      obtain ⟨t, ht, hid, _⟩ := hopened.ticket
      exact ⟨t, ht, hid⟩
  · intro hkeys tl htl old hold hid
    obtain ⟨line, _, rfl⟩ := List.mem_map.mp htl
    exact hopened.batch hkeys old hold hid

theorem commits_fireGroups (groups : StationGroups) {Q : Unit → Store → Prop}
    (hQ : ∀ v' new, FiredGroups v v' groups new → Q () v') :
    (Txn.forEach fireGroup groups).commits Q v := by
  induction groups generalizing v with
  | nil => exact hQ v [] (.nil v)
  | cons group groups ih =>
      simp only [Txn.forEach_cons, Txn.commits, Txn.wlp_bind]
      refine commits_fireGroup group fun v₁ new h => ih fun v₂ new' h' => ?_
      exact hQ v₂ _ (h.append h')

/-- What one firing leaves: every line the kitchen did not have is on one new ticket line, on a
queued ticket of the station it is routed to. -/
structure Fired (outletId : ℕ) (v v' : Store) (new : List TicketLine) : Prop where
  frame : Frame [.tickets] v v'
  ticketLines : v'.ticketLines = v.ticketLines ++ new
  lines : (new.map (·.orderLineId)).Perm (v.unfired.map (·.id))
  copies : ∀ tl ∈ new, ∃ line ∈ v.unfired, tl.orderLineId = line.id ∧
    tl.quantity = line.quantity ∧ tl.voided = false ∧
    ∃ t ∈ v'.tickets, t.id = tl.ticketId ∧ t.status = .queued ∧
      v.around.Routed outletId line.itemId t.stationId
  tickets : v.tickets <+: v'.tickets
  keys : v.TicketKeys → v'.TicketKeys
  batch : v.TicketKeys → ∀ tl ∈ new, ∀ old ∈ v.ticketLines, old.ticketId = tl.ticketId →
    old.addOnBatch < tl.addOnBatch

/-- **A firing tickets every waiting line once, where it is cooked.** -/
theorem commits_fireOnSend {Q : ℕ → Store → Prop}
    (hQ : ∀ v' new, Fired outletId v v' new → Q new.length v') :
    (fireOnSend outletId).commits Q v := by
  simp only [fireOnSend, findUnfired, Txn.commits, Txn.wlp_bind, Txn.wlp_stmt, Txn.wlp_done,
    applyAll_nil]
  intro _ _
  split
  · rename_i hnone
    exact hQ v [] ⟨.refl _ v, by simp, by simp [hnone], by simp, List.prefix_rfl, id, by simp⟩
  · simp only [Txn.wlp_bind, Txn.wlp_pure]
    refine commits_resolveDefaultStationId fun defaultStationId hdefault => ?_
    have hnil : Grouped v.around outletId [] [] := ⟨List.nodup_nil, .refl _, by simp⟩
    refine commits_groupByStation hdefault v.unfired hnil fun groups hgroups => ?_
    refine commits_fireGroups groups fun v' new h => ?_
    have hlines : (groups.flatMap (·.2)).Perm v.unfired := hgroups.lines
    have hlength : v.unfired.length = new.length := by
      rw [← hlines.length_eq, ← List.length_map (f := OrderLine.id), ← h.lines, List.length_map]
    rw [hlength]
    refine hQ v' new ⟨h.frame, h.ticketLines, h.lines ▸ hlines.map _, fun tl htl => ?_, h.tickets,
      h.keys, h.batch⟩
    obtain ⟨g, hg, line, hline, hid, hquantity, hvoided, t, ht, hticket, hstation, hqueued⟩ :=
      h.copies tl htl
    refine ⟨line, hlines.subset (List.mem_flatMap.mpr ⟨g, hg, hline⟩), hid, hquantity, hvoided, t,
      ht, hticket, hqueued, ?_⟩
    rw [hstation]
    exact hgroups.routed g hg line hline

/-- After a firing nothing waits. -/
theorem Fired.unfired {new : List TicketLine} {v' : Store} (h : Fired outletId v v' new) :
    v'.unfired = [] := by
  have hlines : v'.lines = v.lines := h.frame .orderLines (by decide)
  refine List.filter_eq_nil_iff.mpr fun l hl hwaits => ?_
  simp only [Bool.and_eq_true, List.all_eq_true, decide_eq_true_eq] at hwaits
  obtain ⟨⟨hlive, hitem⟩, hnone⟩ := hwaits
  rw [h.ticketLines] at hnone
  have hwaiting : l ∈ v.unfired := by
    refine List.mem_filter.mpr ⟨hlines ▸ hl, ?_⟩
    simp only [Bool.and_eq_true, List.all_eq_true, decide_eq_true_eq]
    exact ⟨⟨hlive, hitem⟩, fun tl htl => hnone tl (List.mem_append_left _ htl)⟩
  obtain ⟨tl, htl, hid⟩ := List.mem_map.mp (h.lines.symm.subset (List.mem_map_of_mem hwaiting))
  exact hnone tl (List.mem_append_right _ htl) hid

end Programs

end RestiqBackend
