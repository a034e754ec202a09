import RestiqBackend.BillRow

/-!
How often the kitchen gets a line when requests interleave.

A send reads the lines that have no ticket line and then writes one for each. Nothing
locks what it read: the only uniqueness is per ticket, and two sends may well write two
tickets. What a transaction in flight read as unfired is remembered in its footprint,
and in a run that commits no ticket line for such a line behind its back every order line
is ticketed at most once.
-/

namespace RestiqBackend

open ReadCommitted

/-! ### What writes do to lines and tickets -/

/-- The order line that a write puts on a ticket. -/
def Write.fires : Write → Option ℕ
  | .createTicketLine l => some l.orderLineId
  | _ => none

/-- The order line that a write adds to the order. -/
def Write.opensLine : Write → Option ℕ
  | .createLine l => some l.id
  | _ => none

def Write.deletesLine : Write → Bool
  | .deleteLine .. => true
  | _ => false

/-- The order lines on tickets, once for every ticket line. -/
def Store.firedLines (s : Store) : List ℕ := s.ticketLines.map (·.orderLineId)

def Store.lineIds (s : Store) : List ℕ := s.lines.map (·.id)

theorem map_updateRows {α β : Type} {idOf : α → ℕ} {f : α → α} {g : α → β}
    (h : ∀ a, g (f a) = g a) (id : ℕ) (rows : List α) :
    (updateRows idOf id f rows).map g = rows.map g := by
  rw [updateRows, List.map_map]
  refine List.map_congr_left fun a _ => ?_
  rw [Function.comp_apply]
  split
  · exact h a
  · rfl

theorem firedLines_apply (w : Write) (s : Store) :
    (s.apply w).firedLines = s.firedLines ++ w.fires.toList := by
  by_cases hfires : w.fires = none ∧ w.table = .tickets
  · obtain ⟨hnone, htable⟩ := hfires
    rw [hnone, Option.toList_none, List.append_nil]
    cases w <;> simp only [Write.table, reduceCtorEq] at htable
    case voidTicketLines keys =>
      simp only [Store.apply, Store.firedLines, List.map_map]
      refine List.map_congr_left fun l _ => ?_
      rw [Function.comp_apply]
      split <;> rfl
    case createTicketLine l => simp [Write.fires] at hnone
    all_goals rfl
  · by_cases htable : w.table = .tickets
    · cases w <;> simp only [Write.table, reduceCtorEq] at htable
      case createTicketLine l => simp [Store.apply, Store.firedLines, Write.fires]
      all_goals exact absurd ⟨rfl, rfl⟩ hfires
    · have hnone : w.fires = none := by
        cases w <;> first | rfl | exact absurd rfl htable
      have hsame : (s.apply w).ticketLines = s.ticketLines :=
        (w.frame s .tickets (by simpa using Ne.symm htable)).2.1
      rw [hnone, Option.toList_none, List.append_nil, Store.firedLines, hsame, Store.firedLines]

theorem firedLines_applyAll (ws : List Write) (s : Store) :
    (applyAll ws s).firedLines = s.firedLines ++ ws.filterMap Write.fires := by
  induction ws generalizing s with
  | nil => simp
  | cons w ws ih =>
      rw [applyAll_cons, ih, writeTo_apply, firedLines_apply, List.append_assoc]
      cases hw : w.fires <;> simp [hw]

/-- Lines come in by being added, and only `deleteLine` takes one away. -/
theorem lineIds_apply {w : Write} (h : w.deletesLine = false) (s : Store) :
    (s.apply w).lineIds = s.lineIds ++ w.opensLine.toList := by
  by_cases htable : w.table = .orderLines
  · cases w <;> simp only [Write.table, reduceCtorEq] at htable
    case createLine l => simp [Store.apply, Store.lineIds, Write.opensLine]
    case deleteLine id => simp [Write.deletesLine] at h
    case voidLines ids voidedAt =>
      simp only [Store.apply, Store.lineIds, Write.opensLine, Option.toList_none, List.append_nil,
        List.map_map]
      refine List.map_congr_left fun l _ => ?_
      rw [Function.comp_apply]
      split <;> rfl
    all_goals
      simp only [Store.apply, Store.lineIds, Write.opensLine, Option.toList_none, List.append_nil]
      exact map_updateRows (g := OrderLine.id) (by intro l; rfl) _ _
  · have hsame : (s.apply w).lines = s.lines :=
      w.frame s .orderLines (by simpa using Ne.symm htable)
    have hnone : w.opensLine = none := by
      cases w <;> first | rfl | exact absurd rfl htable
    simp [Store.lineIds, hsame, hnone]

theorem lineIds_applyAll {ws : List Write} (h : ∀ w ∈ ws, w.deletesLine = false) (s : Store) :
    (applyAll ws s).lineIds = s.lineIds ++ ws.filterMap Write.opensLine := by
  induction ws generalizing s with
  | nil => simp
  | cons w ws ih =>
      rw [applyAll_cons, ih (fun w' hw' => h w' (List.mem_cons_of_mem _ hw')), writeTo_apply,
        lineIds_apply (h w List.mem_cons_self), List.append_assoc]
      cases hw : w.opensLine <;> simp [hw]

theorem lineIds_applyAll_sublist {ws : List Write} (h : ∀ w ∈ ws, w.opensLine = none) (s : Store) :
    ((applyAll ws s).lineIds).Sublist s.lineIds := by
  induction ws generalizing s with
  | nil => exact .refl _
  | cons w ws ih =>
      rw [applyAll_cons]
      refine (ih (fun w' hw' => h w' (List.mem_cons_of_mem _ hw')) _).trans ?_
      cases hdel : w.deletesLine with
      | false => simp [lineIds_apply hdel, h w List.mem_cons_self]
      | true =>
          cases w <;> simp only [Write.deletesLine, reduceCtorEq] at hdel
          exact List.filter_sublist.map OrderLine.id

/-! ### The discipline -/

/-- A line's identifier belongs to who adds it, and nobody tickets a line that another
transaction remembers as unfired. -/
def firingDiscipline : Discipline Store Key Read Write where
  inv s := s.lineIds.Nodup ∧ s.firedLines.Nodup
  guar _ _ := True
  keeps k s s' := ∀ id, k = .line id → id ∈ s'.lineIds → id ∈ s.lineIds
  heeds r s s' := ∀ ids, r = .unfiredLines ids → ∀ id ∈ ids, id ∉ s.firedLines → id ∉ s'.firedLines
  admits _ _ _ := True
  lands _ _ := True
  ends _ _ := True
  guar_refl _ := trivial
  guar_trans _ _ _ _ _ := trivial
  keeps_refl _ _ _ _ h := h
  keeps_trans _ _ _ _ h h' id hk hid := h id hk (h' id hk hid)
  heeds_refl _ _ _ _ _ _ h := h
  heeds_trans _ _ _ _ h h' ids hr id hid hs := h' ids hr id hid (h ids hr id hid hs)

/-- What a transaction knows while it still has to ticket the lines `pending`. -/
structure Firing (pending : List ℕ) (l : TxFootprint) (s : Store) : Prop where
  inv : firingDiscipline.inv s
  keeps : ∀ w ∈ l.writes, w.deletesLine = false
  opened_nodup : (l.writes.filterMap Write.opensLine).Nodup
  opened : ∀ id ∈ l.writes.filterMap Write.opensLine, Key.line id ∈ l.locks ∧ id ∉ s.lineIds
  fired_nodup : (l.writes.filterMap Write.fires ++ pending).Nodup
  fired : ∀ id ∈ l.writes.filterMap Write.fires ++ pending, id ∉ s.firedLines ∧
    ∃ ids, Read.unfiredLines ids ∈ l.reads ∧ id ∈ ids

theorem firing_stable (pending : List ℕ) : firingDiscipline.Stable (Firing pending) := by
  intro l s s' hrely h
  refine ⟨hrely.inv h.inv, h.keeps, h.opened_nodup, fun id hid => ?_, h.fired_nodup,
    fun id hid => ?_⟩
  · obtain ⟨hlock, hfresh⟩ := h.opened id hid
    exact ⟨hlock, fun hin => hfresh (hrely.keeps _ hlock id rfl hin)⟩
  · obtain ⟨hunfired, ids, hread, hids⟩ := h.fired id hid
    exact ⟨hrely.heeds _ hread ids rfl id hids hunfired, ids, hread, hids⟩

theorem Firing.view_lineIds {pending : List ℕ} {l : TxFootprint} {s : Store}
    (h : Firing pending l s) :
    (applyAll l.writes s).lineIds = s.lineIds ++ l.writes.filterMap Write.opensLine :=
  lineIds_applyAll h.keeps s

theorem Firing.view_nodup {pending : List ℕ} {l : TxFootprint} {s : Store}
    (h : Firing pending l s) : (applyAll l.writes s).lineIds.Nodup := by
  rw [h.view_lineIds]
  exact h.inv.1.append h.opened_nodup fun id hs hid => (h.opened id hid).2 hs

theorem Firing.commits {l : TxFootprint} {s : Store} (h : Firing [] l s) :
    firingDiscipline.Commits l s := by
  intro _
  have hfired := h.fired_nodup
  rw [List.append_nil] at hfired
  refine ⟨⟨h.view_nodup, ?_⟩, trivial, fun k hk id hid hin => ?_, trivial⟩
  · rw [firedLines_applyAll]
    exact h.inv.2.append hfired fun id hs hid =>
      (h.fired id (List.mem_append_left _ hid)).1 hs
  · rw [h.view_lineIds] at hin
    rcases List.mem_append.mp hin with hs | hopened
    · exact hs
    · exact absurd (hid ▸ (h.opened id hopened).1) hk

/-! ### Statements -/

/-- A statement that tickets nothing and deletes nothing, and adds a line only under its own
lock where its identifier is free. -/
def FiresNothing (v : Store) (l : TxFootprint) : Prop :=
  (∀ w ∈ l.writes, w.fires = none ∧ w.deletesLine = false) ∧
    (l.writes.filterMap Write.opensLine).Nodup ∧
    ∀ id ∈ l.writes.filterMap Write.opensLine, Key.line id ∈ l.locks ∧ id ∉ v.lineIds

theorem Firing.add {pending : List ℕ} {l l' : TxFootprint} {s : Store} (h : Firing pending l s)
    (hl' : FiresNothing (applyAll l.writes s) l') : Firing pending (l.add l') s := by
  obtain ⟨hwrites, hnodup, hfree⟩ := hl'
  have hfires : (l.writes ++ l'.writes).filterMap Write.fires = l.writes.filterMap Write.fires := by
    rw [List.filterMap_append, List.filterMap_eq_nil_iff.mpr fun w hw => (hwrites w hw).1,
      List.append_nil]
  rw [h.view_lineIds] at hfree
  refine ⟨h.inv, fun w hw => ?_, ?_, fun id hid => ?_, ?_, fun id hid => ?_⟩
  · rcases List.mem_append.mp hw with hw | hw
    · exact h.keeps w hw
    · exact (hwrites w hw).2
  · rw [Footprint.add_writes, List.filterMap_append]
    exact h.opened_nodup.append hnodup fun id hid hid' =>
      (hfree id hid').2 (List.mem_append_right _ hid)
  · rw [Footprint.add_writes, List.filterMap_append] at hid
    rcases List.mem_append.mp hid with hid | hid
    · exact (h.opened id hid).imp_left (List.mem_append_left _)
    · exact ⟨List.mem_append_right _ (hfree id hid).1,
        fun hs => (hfree id hid).2 (List.mem_append_left _ hs)⟩
  · rw [Footprint.add_writes, hfires]
    exact h.fired_nodup
  · rw [Footprint.add_writes, hfires] at hid
    obtain ⟨hunfired, ids, hread, hids⟩ := h.fired id hid
    exact ⟨hunfired, ids, List.mem_append_left _ hread, hids⟩

/-- A statement that tickets nothing and adds no line. -/
def LeavesLines (l : TxFootprint) : Prop :=
  ∀ w ∈ l.writes, w.fires = none ∧ w.opensLine = none

/-- A statement that besides deletes none. -/
def LeavesAll (l : TxFootprint) : Prop :=
  ∀ w ∈ l.writes, w.fires = none ∧ w.opensLine = none ∧ w.deletesLine = false

theorem LeavesAll.firesNothing {v : Store} {l : TxFootprint} (h : LeavesAll l) :
    FiresNothing v l := by
  have hnone : l.writes.filterMap Write.opensLine = [] :=
    List.filterMap_eq_nil_iff.mpr fun w hw => (h w hw).2.1
  exact ⟨fun w hw => ⟨(h w hw).1, (h w hw).2.2⟩, by simp [hnone], by simp [hnone]⟩

/-- Every table but the order's lines and the tickets. -/
def tablesBesideLines : List Table :=
  [.bills, .billNumberCounters, .tenders, .paymentIntents, .billShares, .creditNotes, .orders,
    .tableSessions, .tenants, .taxRegistrations, .printJobs, .auditEvents, .environment]

theorem leavesAll_of_touching {l : TxFootprint} (h : Touching tablesBesideLines l) :
    LeavesAll l := by
  intro w hw
  have htable := h w hw
  cases w <;> first | exact ⟨rfl, rfl, rfl⟩ | simp [Write.table, tablesBesideLines] at htable

section Programs

variable {α : Type} {p : Tx α} {pending : List ℕ}

theorem carries_of_leavesAll (h : p.Emits LeavesAll) :
    p.Carries firingDiscipline (Firing pending) :=
  h.carries (firing_stable pending) fun _ _ _ hl' h => h.add hl'.firesNothing

theorem carries_of_touching (h : p.Emits (Touching tablesBesideLines)) :
    p.Carries firingDiscipline (Firing pending) :=
  carries_of_leavesAll (h.mono fun _ => leavesAll_of_touching)

end Programs

theorem emits_writeWhen_leavesAll {p : Store → Bool} {locks : List Key} {w : Write}
    (h : w.fires = none ∧ w.opensLine = none ∧ w.deletesLine = false) :
    (Txn.writeWhen p locks [w] : Tx Bool).Emits LeavesAll := by
  refine ⟨fun _ v => ?_, fun _ => trivial⟩
  cases hp : p v
  · simp [hp, LeavesAll]
  · simpa [hp, LeavesAll] using h

theorem emits_insertRow_leavesAll {taken : Store → Bool} {keys : List Key} {w : Write}
    (h : w.fires = none ∧ w.opensLine = none ∧ w.deletesLine = false) :
    (insertRow taken keys w).Emits LeavesAll :=
  Txn.Emits.bind (emits_writeWhen_leavesAll h) fun _ => .ite trivial trivial

/-! ### Firing -/

theorem findUnfired_wp {l : TxFootprint} {s : Store} (h : Firing [] l s) :
    findUnfired.wp firingDiscipline (fun lines => Firing (lines.map (·.id))) l s := by
  refine Txn.wp_stmt (firing_stable []) h fun env s h _ => ?_
  set view := applyAll l.writes s with hview
  have hsub : ((view.unfired.map (·.id)).Sublist view.lineIds) := List.filter_sublist.map _
  have hunfired : ∀ id ∈ view.unfired.map (·.id), id ∉ view.firedLines := by
    intro id hid
    obtain ⟨line, hline, rfl⟩ := List.mem_map.mp hid
    have := (List.mem_filter.mp hline).2
    simp only [Bool.and_eq_true, List.all_eq_true, decide_eq_true_eq] at this
    intro hfired
    obtain ⟨tl, htl, hkey⟩ := List.mem_map.mp hfired
    exact this.2 tl htl hkey
  rw [hview, firedLines_applyAll] at hunfired
  have hfired := h.fired_nodup
  have hold := h.fired
  rw [List.append_nil] at hfired hold
  refine Txn.wp_done (firing_stable _) ⟨h.inv, ?_, ?_, ?_, ?_, ?_⟩
  · simpa using h.keeps
  · simpa using h.opened_nodup
  · simpa using h.opened
  · rw [Footprint.add_writes, List.append_nil]
    refine hfired.append (hsub.nodup h.view_nodup) fun id hid hid' => ?_
    exact hunfired id hid' (List.mem_append_right _ hid)
  · intro id hid
    rw [Footprint.add_writes, List.append_nil] at hid
    rcases List.mem_append.mp hid with hid | hid
    · obtain ⟨hnot, ids, hread, hids⟩ := hold id hid
      exact ⟨hnot, ids, List.mem_append_left _ hread, hids⟩
    · exact ⟨fun hs => hunfired id hid (List.mem_append_left _ hs), _,
        List.mem_append_right _ (List.mem_singleton_self _), hid⟩

theorem push_keys (groups : StationGroups) (stationId : Option ℕ) (line : OrderLine)
    (h : (groups.map (·.1)).Nodup) : ((groups.push stationId line).map (·.1)).Nodup := by
  unfold StationGroups.push
  split
  · have hkeys : ∀ g : Option ℕ × List OrderLine,
        (if g.1 = stationId then (g.1, g.2 ++ [line]) else g).1 = g.1 := by
      intro g
      split <;> rfl
    rw [List.map_map]
    exact (List.map_congr_left fun g _ => hkeys g) ▸ h
  · rename_i hany
    rw [List.map_append]
    refine h.append (List.nodup_singleton _) fun key hkey hnew => hany ?_
    obtain ⟨g, hg, rfl⟩ := List.mem_map.mp hkey
    exact List.any_eq_true.mpr ⟨g, hg, by simpa using List.mem_singleton.mp hnew⟩

theorem push_lines (groups : StationGroups) (stationId : Option ℕ) (line : OrderLine)
    (h : (groups.map (·.1)).Nodup) :
    ((groups.push stationId line).flatMap (·.2)).Perm (groups.flatMap (·.2) ++ [line]) := by
  unfold StationGroups.push
  split
  · rename_i hany
    induction groups with
    | nil => simp at hany
    | cons g gs ih =>
        obtain ⟨hg, hgs⟩ := List.nodup_cons.mp h
        by_cases hkey : g.1 = stationId
        · -- No later group is of the same station.
          have hrest : gs.map (fun g => if g.1 = stationId then (g.1, g.2 ++ [line]) else g) = gs := by
            refine (List.map_congr_left fun g' hg' => if_neg fun hkey' => hg ?_).trans (List.map_id' gs)
            exact List.mem_map.mpr ⟨g', hg', hkey'.trans hkey.symm⟩
          simp only [List.map_cons, hkey, if_true, hrest, List.flatMap_cons, List.append_assoc]
          exact List.perm_append_comm.append_left _
        · have hany' : gs.any (·.1 = stationId) = true := by simpa [hkey] using hany
          simp only [List.map_cons, hkey, if_false, List.flatMap_cons, List.append_assoc]
          exact (ih hgs hany').append_left _
  · simp

theorem groupByStation_leaves (outletId : ℕ) (default : Option ℕ) (lines : List OrderLine)
    (groups : StationGroups) (h : (groups.map (·.1)).Nodup) (l : TxFootprint) :
    (groupByStation outletId default lines groups).Leaves
      (fun groups' _ => (groups'.flatMap (·.2)).Perm (groups.flatMap (·.2) ++ lines)) l := by
  induction lines generalizing groups l with
  | nil => simp [groupByStation, Txn.Leaves]
  | cons line lines ih =>
      refine .seq (R := fun _ _ => True) (.of_forall (fun _ _ => trivial) _ _) fun station l₁ _ => ?_
      refine .seq (R := fun _ _ => True) (.of_forall (fun _ _ => trivial) _ _) fun routed l₂ _ => ?_
      refine (ih _ (push_keys groups routed line h) l₂).mono fun groups' _ hperm => ?_
      refine hperm.trans (((push_lines groups routed line h).append_right lines).trans ?_)
      rw [List.append_assoc]
      rfl

theorem openTicket_leavesAll (stationId : Option ℕ) : (openTicket stationId).Emits LeavesAll := by
  have hreads : ∀ {α : Type} {p : Tx α}, p.Emits (Touching []) → p.Emits LeavesAll := fun h =>
    h.mono fun _ h => leavesAll_of_touching fun w hw => absurd (h w hw) (by simp)
  refine (hreads (emits_query _)).bind fun existing => ?_
  split
  · exact (hreads (emits_query _)).bind fun _ =>
      Txn.Emits.bind ⟨fun _ _ w hw => by
        obtain rfl := List.mem_singleton.mp hw
        exact ⟨rfl, rfl, rfl⟩, fun _ => trivial⟩ fun _ => trivial
  · refine (hreads emits_uuid).bind fun _ => (hreads emits_clock).bind fun _ =>
      Txn.Emits.bind ?_ fun _ => trivial
    exact emits_insertRow_leavesAll ⟨rfl, rfl, rfl⟩

/-- Writing the ticket line of a line that was pending. -/
theorem Firing.fire {id : ℕ} {pending : List ℕ} {l : TxFootprint} {s : Store}
    (h : Firing (id :: pending) l s) (keys : List Key) {line : TicketLine}
    (hline : line.orderLineId = id) :
    Firing pending (l.add ⟨keys, [], [.createTicketLine line]⟩) s := by
  have hfires : (l.writes ++ [Write.createTicketLine line]).filterMap Write.fires ++ pending =
      l.writes.filterMap Write.fires ++ id :: pending := by
    simp [List.filterMap_append, Write.fires, hline]
  refine ⟨h.inv, fun w hw => ?_, ?_, fun id hid => ?_, ?_, fun id' hid => ?_⟩
  · rcases List.mem_append.mp hw with hw | hw
    · exact h.keeps w hw
    · obtain rfl := List.mem_singleton.mp hw
      rfl
  · rw [Footprint.add_writes, List.filterMap_append]
    simpa [List.filterMap_cons, Write.opensLine] using h.opened_nodup
  · have : id ∈ l.writes.filterMap Write.opensLine := by
      simpa [List.filterMap_append, Write.opensLine] using hid
    exact (h.opened id this).imp_left (List.mem_append_left _)
  · rw [Footprint.add_writes, hfires]
    exact h.fired_nodup
  · rw [Footprint.add_writes, hfires] at hid
    obtain ⟨hnot, ids, hread, hids⟩ := h.fired id' hid
    exact ⟨hnot, ids, List.mem_append_left _ hread, hids⟩

theorem fireLines_wp (ticketId batch : ℕ) (pending : List ℕ) (lines : List OrderLine)
    {l : TxFootprint} {s : Store} (h : Firing (lines.map (·.id) ++ pending) l s) :
    (Txn.forEach (fun line : OrderLine =>
      insertRow (fun v => v.ticketLines.any fun l => l.ticketId = ticketId && l.orderLineId = line.id)
        [.ticketLine ticketId line.id]
        (.createTicketLine ⟨ticketId, line.id, line.quantity, batch, false⟩)) lines).wp
      firingDiscipline (fun _ => Firing pending) l s := by
  induction lines generalizing l s with
  | nil => exact Txn.wp_done (firing_stable _) h
  | cons line lines ih =>
      rw [Txn.forEach_cons]
      refine Txn.wp_seq (wp_insertRow (firing_stable _) (firing_stable _) h fun s h _ _ => ?_)
        fun _ _ _ h => ih h
      exact h.fire [.ticketLine ticketId line.id] rfl

theorem fireGroups_wp (groups : StationGroups) {l : TxFootprint} {s : Store}
    (h : Firing ((groups.flatMap (·.2)).map (·.id)) l s) :
    (Txn.forEach fireGroup groups).wp firingDiscipline (fun _ => Firing []) l s := by
  induction groups generalizing l s with
  | nil => exact Txn.wp_done (firing_stable _) h
  | cons group groups ih =>
      rw [List.flatMap_cons, List.map_append] at h
      rw [Txn.forEach_cons]
      refine Txn.wp_seq (Txn.wp_seq (carries_of_leavesAll (openTicket_leavesAll _) l s h) ?_)
        fun _ _ _ h => ih h
      exact fun ticket l s h => fireLines_wp ticket.1 ticket.2 _ group.2 h

theorem Firing.perm {pending pending' : List ℕ} {l : TxFootprint} {s : Store}
    (h : Firing pending l s) (hperm : pending'.Perm pending) : Firing pending' l s := by
  refine ⟨h.inv, h.keeps, h.opened_nodup, h.opened, ?_, fun id hid => h.fired id ?_⟩
  · exact (hperm.append_left _).nodup_iff.mpr h.fired_nodup
  · exact (hperm.append_left _).mem_iff.mp hid

theorem fireOnSend_carries (outletId : ℕ) :
    (fireOnSend outletId).Carries firingDiscipline (Firing []) := by
  intro l s h
  refine Txn.wp_seq (findUnfired_wp h) fun lines l s h => ?_
  by_cases hnone : lines = []
  · rw [if_pos hnone]
    rw [hnone] at h
    exact Txn.wp_done (firing_stable _) h
  · rw [if_neg hnone]
    refine Txn.wp_seq (carries_of_touching (emits_query _) l s h) fun default l s h => ?_
    have hgroup := (groupByStation_leaves outletId default lines [] (by simp) l).wp
      (carries_of_touching (groupByStation_emits outletId default lines []) l s h)
    refine Txn.wp_seq hgroup fun groups l s h => ?_
    obtain ⟨h, hperm⟩ := h
    refine Txn.wp_seq (fireGroups_wp groups (h.perm (hperm.map _))) fun _ _ _ h => ?_
    exact Txn.wp_done (firing_stable _) h

/-! ### Requests -/

theorem createLine_firesNothing (line : OrderLine) (modifiers : List OrderLineModifier) :
    (createLine line modifiers).Sends FiresNothing := by
  have hclosed : Txn.Closed fun {α} (p : Tx α) => p.Sends FiresNothing := Txn.Sends.closed _
  refine hclosed.bind (hclosed.bind (.writeWhen (fun v hv => ?_) fun v => ?_) fun _ =>
    hclosed.ite trivial trivial) fun _ => hclosed.forEach fun m _ => ?_
  · have hfree : line.id ∉ v.lineIds := by
      intro hid
      obtain ⟨l, hl, hkey⟩ := List.mem_map.mp hid
      simp only [Bool.not_eq_true', List.any_eq_false, decide_eq_true_eq] at hv
      exact hv l hl hkey
    refine ⟨fun w hw => ?_, by simp [Write.opensLine], fun id hid => ?_⟩
    · obtain rfl := List.mem_singleton.mp hw
      exact ⟨rfl, rfl⟩
    · obtain rfl : id = line.id := by simpa [Write.opensLine] using hid
      exact ⟨List.mem_singleton_self _, hfree⟩
  · exact LeavesAll.firesNothing (by simp [LeavesAll])
  · refine ⟨fun _ v => LeavesAll.firesNothing fun w hw => ?_, fun _ => trivial⟩
    obtain rfl := List.mem_singleton.mp hw
    exact ⟨rfl, rfl, rfl⟩

theorem sends_of_reads {α : Type} {p : Tx α} (h : p.Emits (Touching [])) :
    p.Sends FiresNothing :=
  h.sends fun _ _ h => (leavesAll_of_touching fun w hw => absurd (h w hw) (by simp)).firesNothing

theorem addLine_firesNothing (staff : PosPrincipal) (name : String) (dto : AddOrderLineDto)
    (menu : Except ApiError PricedItem) :
    (addLine staff name dto menu).Sends FiresNothing :=
  (sends_of_reads (loadOpenOrder_emits ..)).bind fun _ => (sends_of_reads (emits_ofExcept _)).bind
    fun _ => (sends_of_reads emits_uuid).bind fun _ => createLine_firesNothing _ _

theorem addCombo_firesNothing (staff : PosPrincipal) (name : String) (dto : AddComboLineDto)
    (menu : Except ApiError ComboSelection) :
    (addCombo staff name dto menu).Sends FiresNothing := by
  refine (sends_of_reads (loadOpenOrder_emits ..)).bind fun _ => ?_
  refine (sends_of_reads (emits_ofExcept _)).bind fun selection => ?_
  refine (sends_of_reads emits_uuid).bind fun _ => (createLine_firesNothing _ _).bind fun _ => ?_
  exact (Txn.Sends.closed _).forEach fun _ _ =>
    (sends_of_reads emits_uuid).bind fun _ => createLine_firesNothing _ _

/-- A request that neither adds a line nor tickets one: it may take lines away. -/
def Idle (l : TxFootprint) (s : Store) : Prop := firingDiscipline.inv s ∧ LeavesLines l

theorem idle_stable : firingDiscipline.Stable Idle :=
  fun _ _ _ hrely h => ⟨hrely.inv h.1, h.2⟩

theorem Idle.commits {l : TxFootprint} {s : Store} (h : Idle l s) :
    firingDiscipline.Commits l s := by
  intro _
  have hsub := lineIds_applyAll_sublist (fun w hw => (h.2 w hw).2) s
  refine ⟨⟨hsub.nodup h.1.1, ?_⟩, trivial, fun _ _ _ _ hin => hsub.subset hin, trivial⟩
  rw [firedLines_applyAll, List.filterMap_eq_nil_iff.mpr fun w hw => (h.2 w hw).1,
    List.append_nil]
  exact h.1.2

theorem carries_idle {α : Type} {p : Tx α} (h : p.Emits LeavesLines) :
    p.Carries firingDiscipline Idle := by
  refine h.carries idle_stable fun l l' s hl' hidle => ⟨hidle.1, fun w hw => ?_⟩
  rcases List.mem_append.mp hw with hw | hw
  · exact hidle.2 w hw
  · exact hl' w hw

section Lines

/-- Most statements of a request that changes lines only read. -/
theorem leavesLines_of_reads {α : Type} {p : Tx α} (h : p.Emits (Touching [])) :
    p.Emits LeavesLines :=
  h.mono fun _ h w hw => absurd (h w hw) (by simp)

theorem emits_exec_leavesLines {locks : Store → List Key} {writes : Store → List Write}
    (h : ∀ v, ∀ w ∈ writes v, w.fires = none ∧ w.opensLine = none) :
    (Txn.exec locks writes : Tx Unit).Emits LeavesLines :=
  ⟨fun _ v => h v, fun _ => trivial⟩

theorem emits_writeWhen_leavesLines {p : Store → Bool} {locks : List Key} {w : Write}
    (h : w.fires = none ∧ w.opensLine = none) :
    (Txn.writeWhen p locks [w] : Tx Bool).Emits LeavesLines := by
  refine ⟨fun _ v => ?_, fun _ => trivial⟩
  cases hp : p v
  · simp [hp, LeavesLines]
  · simpa [hp, LeavesLines] using h

theorem updateLine_leavesLines (staff : PosPrincipal) (name : String) (id : ℕ)
    (dto : UpdateOrderLineDto) : (updateLine staff name id dto).Emits LeavesLines := by
  have hgiven : ∀ {β : Type} (x : Option β) (f : β → Tx Unit), (∀ b, (f b).Emits LeavesLines) →
      (whenGiven x f).Emits LeavesLines := by
    intro β x f hf
    cases x with
    | some b => exact hf b
    | none => trivial
  refine (leavesLines_of_reads (loadOpenOrder_emits ..)).bind fun _ => ?_
  refine (leavesLines_of_reads (loadOrderLine_emits id)).bind fun line => ?_
  refine (leavesLines_of_reads (assertNotComboLine_emits ..)).bind fun _ => ?_
  refine (leavesLines_of_reads (assertLineNotSent_emits line)).bind fun _ => ?_
  refine (leavesLines_of_reads (assertReduction_emits _)).bind fun _ => ?_
  refine (hgiven _ _ fun _ => ?_).bind fun _ => (hgiven _ _ fun _ => ?_).bind fun _ =>
    hgiven _ _ fun menu => ?_
  · exact (emits_writeWhen_leavesLines ⟨rfl, rfl⟩).bind fun _ => .ite trivial trivial
  · exact (emits_writeWhen_leavesLines ⟨rfl, rfl⟩).bind fun _ => .ite trivial trivial
  · refine (leavesLines_of_reads (emits_ofExcept _)).bind fun modifiers => ?_
    refine (leavesLines_of_reads (emits_query _)).bind fun _ => ?_
    refine (leavesLines_of_reads (assertReduction_emits _)).bind fun _ => ?_
    refine (emits_exec_leavesLines fun _ w hw => ?_).bind fun _ => .forEach fun _ _ =>
      emits_exec_leavesLines fun _ w hw => ?_
    · obtain rfl := List.mem_singleton.mp hw
      exact ⟨rfl, rfl⟩
    · obtain rfl := List.mem_singleton.mp hw
      exact ⟨rfl, rfl⟩

theorem removeLine_leavesLines (staff : PosPrincipal) (name : String) (id : ℕ) :
    (removeLine staff name id).Emits LeavesLines := by
  refine (leavesLines_of_reads (loadOpenOrder_emits ..)).bind fun _ => ?_
  refine (leavesLines_of_reads (loadOrderLine_emits id)).bind fun line => ?_
  refine (leavesLines_of_reads (assertNotComboLine_emits ..)).bind fun _ => ?_
  refine (leavesLines_of_reads (assertLineNotSent_emits line)).bind fun _ => ?_
  refine (leavesLines_of_reads assertBillHasNoPayments_emits).bind fun _ => ?_
  exact (emits_writeWhen_leavesLines ⟨rfl, rfl⟩).bind fun _ => .ite trivial trivial

theorem voidLine_leavesLines (staff : PosPrincipal) (name : String) (id : ℕ)
    (authorize : Except ApiError ManagerApproval) :
    (voidLine staff name id authorize).Emits LeavesLines := by
  have hsingle : ∀ {w₀ : Write}, w₀.fires = none ∧ w₀.opensLine = none → ∀ w ∈ [w₀],
      w.fires = none ∧ w.opensLine = none := fun h w hw => List.mem_singleton.mp hw ▸ h
  refine (leavesLines_of_reads (loadOpenOrder_emits ..)).bind fun _ => ?_
  refine (leavesLines_of_reads (loadOrderLine_emits id)).bind fun line => ?_
  refine (leavesLines_of_reads (emits_raiseIf ..)).bind fun _ => ?_
  refine (leavesLines_of_reads (lineAndChildIds_emits line)).bind fun ids => ?_
  refine (leavesLines_of_reads (emits_query _)).bind fun _ => ?_
  refine (leavesLines_of_reads (emits_raiseIf ..)).bind fun _ => ?_
  refine (leavesLines_of_reads assertBillHasNoPayments_emits).bind fun _ => ?_
  refine (leavesLines_of_reads (emits_ofExcept _)).bind fun _ => ?_
  refine (leavesLines_of_reads emits_clock).bind fun _ => ?_
  exact (emits_exec_leavesLines fun _ => hsingle ⟨rfl, rfl⟩).bind fun _ =>
    (emits_exec_leavesLines fun _ => hsingle ⟨rfl, rfl⟩).bind fun _ =>
    emits_exec_leavesLines fun _ => hsingle ⟨rfl, rfl⟩

end Lines

theorem updateTicket_leavesAll (id : ℕ) (status : TicketStatus) (at_ : Option (Option ℤ)) :
    (updateTicket id status at_).Emits LeavesAll := by
  exact Txn.Emits.bind (emits_writeWhen_leavesAll ⟨rfl, rfl, rfl⟩) fun _ => .ite trivial trivial

theorem keeps_of_firing {p : Tx Unit} (hp : p.Carries firingDiscipline (Firing [])) {s : Store}
    (h : firingDiscipline.inv s) :
    p.wp firingDiscipline (fun _ => firingDiscipline.Commits) .empty s :=
  Txn.wp_mono (hp _ _ ⟨h, by simp, by simp, by simp, by simp, by simp⟩) fun _ _ _ h => h.commits

theorem keeps_of_idle {p : Tx Unit} (hp : p.Emits LeavesLines) {s : Store}
    (h : firingDiscipline.inv s) :
    p.wp firingDiscipline (fun _ => firingDiscipline.Commits) .empty s :=
  Txn.wp_mono (carries_idle hp _ _ ⟨h, by simp [LeavesLines]⟩) fun _ _ _ h => h.commits

theorem keeps_of_sends {p : Tx Unit} (hp : p.Sends FiresNothing) {s : Store}
    (h : firingDiscipline.inv s) :
    p.wp firingDiscipline (fun _ => firingDiscipline.Commits) .empty s :=
  keeps_of_firing (hp.carries (firing_stable []) fun _ _ _ hl' _ h => h.add hl') h

theorem carries_within {α : Type} {p : Tx α} {ts : List Table} (hp : p.Emits (Touching ts))
    (hts : ∀ t ∈ ts, t ∈ tablesBesideLines) : p.Carries firingDiscipline (Firing []) :=
  carries_of_touching (emits_within hp hts)

/-- Every request of the till keeps the discipline. -/
theorem Op.keepsFiring (op : Op) {s : Store} (h : firingDiscipline.inv s) :
    op.prog.wp firingDiscipline (fun _ => firingDiscipline.Commits) .empty s := by
  have hΦ : Txn.Closed fun {α} (p : Tx α) => p.Carries firingDiscipline (Firing []) :=
    Txn.Carries.closed (firing_stable [])
  have hrefresh : ∀ bill, (refreshOpenBillTotals bill).Carries firingDiscipline (Firing []) :=
    fun bill => carries_within (refreshOpenBillTotals_emits bill) (by decide)
  have hquiet : ∀ {α : Type} {p : Tx α}, p.Emits (Touching tablesBesideLines) →
      p.Carries firingDiscipline (Firing []) := fun hp => carries_within hp fun _ ht => ht
  have hstatus : ∀ status, (Txn.exec (fun _ => [.order]) fun _ => [.updateOrderStatus status] :
      Tx Unit).Carries firingDiscipline (Firing []) := fun status =>
    hquiet (emits_exec (by simp [Write.table, tablesBesideLines]))
  have hsettle := commitFinalize_parts hΦ (carries_within · (by decide)) (writeSettlement_parts hΦ
    { counter := hquiet
        ⟨fun _ _ => by simp [Touching, Write.table, tablesBesideLines], fun _ => trivial⟩
      bill := fun _ _ _ _ _ _ _ => hquiet (emits_writeWhen (by simp [Write.table, tablesBesideLines]))
      fire := fireOnSend_carries
      close := hstatus .closed
      quiet := (carries_within · (by decide)) })
  have hcomplete := completeBill_parts hΦ (carries_within · (by decide)) hsettle
  have hprepare := preparePayment_parts hΦ hrefresh (carries_within · (by decide))
  cases op with
  | finalize staff dto authorize =>
      exact keeps_of_firing (hΦ.void (finalize_parts hΦ hrefresh (carries_within · (by decide))
        hsettle staff dto authorize)) h
  | payShare guest guestId dto =>
      exact keeps_of_firing (hΦ.void (payShare_parts hΦ hprepare (carries_within · (by decide))
        hcomplete guest guestId dto)) h
  | payAll guest dto =>
      exact keeps_of_firing (hΦ.void (payAll_parts hΦ hprepare (carries_within · (by decide))
        hcomplete guest dto)) h
  | updateStatus staff name status =>
      exact keeps_of_firing (updateStatus_parts hΦ (carries_within · (by decide)) (hstatus .sent)
        fireOnSend_carries staff name status) h
  | addLine staff name dto menu => exact keeps_of_sends (addLine_firesNothing staff name dto menu) h
  | addCombo staff name dto menu =>
      exact keeps_of_sends (addCombo_firesNothing staff name dto menu) h
  | updateLine staff name id dto => exact keeps_of_idle (updateLine_leavesLines staff name id dto) h
  | removeLine staff name id => exact keeps_of_idle (removeLine_leavesLines staff name id) h
  | voidLine staff name id authorize =>
      exact keeps_of_idle (voidLine_leavesLines staff name id authorize) h
  | _ =>
      -- The requests that touch neither lines nor tickets.
      exact keeps_of_firing (carries_of_touching
        (emits_within (Op.emits _) (by simp [Op.tables, tablesBesideLines]))) h

/-- So does every request of the kitchen. -/
theorem KitchenOp.keepsFiring (op : KitchenOp) {s : Store} (h : firingDiscipline.inv s) :
    op.prog.wp firingDiscipline (fun _ => firingDiscipline.Commits) .empty s := by
  have hΦ : Txn.Closed fun {α} (p : Tx α) => p.Carries firingDiscipline (Firing []) :=
    Txn.Carries.closed (firing_stable [])
  have hticket : ∀ id status at_, (updateTicket id status at_).Carries firingDiscipline (Firing []) :=
    fun id status at_ => carries_of_leavesAll (updateTicket_leavesAll id status at_)
  have hreads : ∀ {α : Type} {p : Tx α}, p.Emits (Touching []) →
      p.Carries firingDiscipline (Firing []) := (carries_within · (by decide))
  have hload : ∀ id, (loadTicket id).Carries firingDiscipline (Firing []) := by
    refine fun id => hΦ.bind (hreads (emits_query _)) fun ticket => ?_
    cases ticket with
    | some ticket => exact hΦ.done _
    | none => exact hΦ.fail _
  cases op with
  | request op => exact op.keepsFiring h
  | bump id =>
      exact keeps_of_firing (hΦ.bind (hload id) fun _ => hΦ.bind (hreads (emits_raiseIf ..)) fun _ =>
        hΦ.bind (hreads emits_clock) fun _ => hticket _ _ _) h
  | recallTicket id =>
      exact keeps_of_firing (hΦ.bind (hload id) fun _ => hΦ.bind (hreads (emits_raiseIf ..)) fun _ =>
        hΦ.bind (hreads emits_clock) fun _ => hΦ.bind (hreads (emits_raiseIf ..)) fun _ =>
        hticket _ _ _) h
  | refire id => exact keeps_of_firing (hΦ.bind (hload id) fun _ => hticket _ _ _) h

/-! ### Runs -/

def IsKitchenRequest (p : Tx Unit) : Prop := ∃ op : KitchenOp, p = op.prog

/-- No commit tickets a line that another transaction in flight has read as unfired. -/
def firesAlone (S : System Store Key Read Write ApiError) :
    Event Store Key Read Write ApiError → Bool
  | .commit t => (S.session t).all fun x => (List.range S.sessions.length).all fun t' =>
      t' == t || (S.session t').all fun x' => x'.done.reads.all fun
        | .unfiredLines ids => ids.all fun id => !(x.done.writes.filterMap Write.fires).contains id
        | _ => true
  | _ => true

theorem respects_of_firesAlone {S : System Store Key Read Write ApiError}
    {e : Event Store Key Read Write ApiError} (h : firesAlone S e = true) :
    firingDiscipline.Respects S e := by
  cases e with
  | begin p => trivial
  | rollback t => trivial
  | stmt t env => exact fun _ _ _ _ _ => trivial
  | commit t =>
      refine fun x hx => ⟨trivial, fun t' x' ht' hx' r hr ids hids id hid hnot hin => ?_⟩
      simp only [firesAlone, hx, Option.all_some, List.all_eq_true, List.mem_range,
        Bool.or_eq_true, beq_iff_eq] at h
      have h := (h t' (System.session_lt hx')).resolve_left ht'
      rw [hx', Option.all_some, List.all_eq_true] at h
      have h := h r hr
      rw [hids] at h
      simp only [List.all_eq_true, Bool.not_eq_true', List.contains_eq_mem,
        decide_eq_false_iff_not] at h
      rw [firedLines_applyAll] at hin
      rcases List.mem_append.mp hin with hin | hin
      · exact hnot hin
      · exact h id hid hin

/-- **The kitchen gets each line once, where no two sends read the same line.** -/
theorem ticketed_at_most_once {s : Store} {S : System Store Key Read Write ApiError}
    {es : List (Event Store Key Read Write ApiError)} (hids : s.lineIds.Nodup)
    (hfired : s.firedLines.Nodup)
    (h : Run IsKitchenRequest (fun S e => firesAlone S e = true) (.start s) es S) (id : ℕ) :
    (S.store.ticketLines.filter (·.orderLineId = id)).length ≤ 1 := by
  have hP : ∀ p, IsKitchenRequest p → ∀ s, firingDiscipline.inv s →
      p.wp firingDiscipline (fun _ => firingDiscipline.Commits) .empty s := by
    rintro p ⟨op, rfl⟩ s hs
    exact op.keepsFiring hs
  have hS := Discipline.sound hP (fun _ _ => respects_of_firesAlone) (.start ⟨hids, hfired⟩) h
  have hnodup : S.store.firedLines.Nodup := hS.1.inv.2
  have hcount := List.nodup_iff_count_le_one.mp hnodup id
  rw [Store.firedLines, List.count_eq_countP, List.countP_map, List.countP_eq_length_filter] at hcount
  simpa [Function.comp_def, beq_eq_decide] using hcount

/-! ### On the sample order -/

/-- The sample order, sent before its two lines were added. -/
def sampleResent : Store :=
  { sampleOrder with order := { sampleOrder.order with status := .sent } }

def resend : KitchenOp := .request (.updateStatus sampleStaff "Owner" .sent)

/-- One send after the other: the second finds nothing to send. -/
def sendTwice : List (Event Store Key Read Write ApiError) :=
  .begin resend.prog :: turns 0 11 0 ++ .commit 0 :: .begin resend.prog :: turns 1 2 100 ++
    [.rollback 1]

theorem ticketed_at_most_once_sample : ∃ S,
    Run IsKitchenRequest (fun S e => firesAlone S e = true) (.start sampleResent) sendTwice S ∧
    S.store.ticketLines.length = 2 ∧
    (S.store.ticketLines.filter (·.orderLineId = 1)).length ≤ 1 := by
  have hplay : ((System.start sampleResent).playWhen firesAlone sendTwice).map
      (·.store.ticketLines.length) = some 2 := by rfl
  obtain ⟨S, hS, hlength⟩ := Option.map_eq_some_iff.mp hplay
  have hrun : Run IsKitchenRequest (fun S e => firesAlone S e = true) (.start sampleResent)
      sendTwice S := .of_playWhen hS fun p hp => by
    simp only [sendTwice, List.cons_append, List.mem_cons, List.mem_append, begin_notMem_turns,
      false_or, Event.begin.injEq, reduceCtorEq, List.not_mem_nil, or_false] at hp
    exact ⟨resend, hp.elim id id⟩
  exact ⟨S, hrun, hlength, ticketed_at_most_once (by decide) (by decide) hrun 1⟩

/-- Both taps read the two lines as unfired, and then both write a ticket. -/
def doubleTap : List (Event Store Key Read Write ApiError) :=
  .begin resend.prog :: .begin resend.prog :: turns 0 2 0 ++ turns 1 2 0 ++ turns 0 9 100 ++
    turns 1 9 200 ++ [.commit 0, .commit 1]

/-- **A double tap sends the food twice.** Every line of the order ends up on two tickets. -/
theorem double_tap_tickets_twice : ∃ es S,
    Run IsKitchenRequest (fun _ _ => True) (.start sampleResent) es S ∧
    (S.store.ticketLines.filter (·.orderLineId = 1)).length = 2 ∧
    (S.store.ticketLines.filter (·.orderLineId = 2)).length = 2 := by
  let tickets (S : System Store Key Read Write ApiError) : List ℕ :=
    [1, 2].map fun id => (S.store.ticketLines.filter (·.orderLineId = id)).length
  have hplay : ((System.start sampleResent).play doubleTap).map tickets = some [2, 2] := by rfl
  obtain ⟨S, _, hrun, hS⟩ := Run.of_play_map (P := IsKitchenRequest) hplay fun p hp => by
    simp only [doubleTap, List.cons_append, List.append_assoc, List.mem_cons, List.mem_append,
      begin_notMem_turns, Event.begin.injEq, reduceCtorEq, List.not_mem_nil,
      or_false] at hp
    exact ⟨resend, hp.elim id id⟩
  have h₁ := (List.cons.inj hS).1
  have h₂ := (List.cons.inj (List.cons.inj hS).2).1
  exact ⟨_, S, hrun, h₁, h₂⟩

end RestiqBackend
