import RestiqBackend.ShiftClosing
import RestiqBackend.BillNumbers

/-!
Every cash row is counted by one shift, where it is committed on an open one.

A cash tender and a credit note are counted by the window they fall into: a closing sums up
what has happened since its shift was opened. What is committed while no shift is open falls
into no window, what is committed while a closing is summing up may be missed by it, and what
happened before a shift was opened must not be counted by that shift again. In the runs in
which none of this occurs, the shifts divide the cash rows among themselves.
-/

namespace RestiqBackend

open ReadCommitted

/-! ### What there is to count -/

/-- The credit notes of an order that were paid back in cash. -/
def Store.cashNotes (s : Store) (i : ℕ) : List CashRow :=
  (s.creditNotes.filter (·.method = some .cash)).map fun note =>
    ⟨.refund, i, note.id, note.createdAt, note.totalMinor s.pricesIncludeTax⟩

/-- Every cash tender of a finalized bill, and every credit note paid back in cash. -/
def Drawer.cashRows (d : Drawer) : List CashRow :=
  (d.orderIds.flatMap fun i => (d.outlet.orders i).cashSales i) ++
    d.orderIds.flatMap fun i => (d.outlet.orders i).cashNotes i

/-- What a closing would find since the time. -/
def Drawer.rowsSince (d : Drawer) (time : ℤ) : List CashRow :=
  d.cashSales time ++ d.cashRefunds time (d.refundedOrders time)

/-- What is counted in a shift: what it was closed on, or what it would be closed on now. -/
def Drawer.counted (d : Drawer) (sh : Shift) : List CashRow :=
  match sh.close with
  | some close => close.rows
  | none => d.rowsSince sh.openedAt

/-- The expected cash of a shift: as it was stored, or as it would be if it were closed now. -/
def Drawer.expected (d : Drawer) (sh : Shift) : ℤ :=
  match sh.close with
  | some close => close.expectedMinor
  | none => expectedMinor sh.floatMinor (d.rowsSince sh.openedAt) (d.movementsOf sh.id)

/-- Whether the row belongs to the shift: it was counted when the shift was closed, or it falls
into the window of the open shift. -/
def Shift.covers (sh : Shift) (c : CashRow) : Prop :=
  match sh.close with
  | some close => c ∈ close.rows
  | none => sh.openedAt ≤ c.time

theorem covers_of_open {sh : Shift} (h : sh.close = none) (c : CashRow) :
    sh.covers c ↔ sh.openedAt ≤ c.time := by
  rw [Shift.covers, h]

theorem covers_of_closed {sh : Shift} {close : ShiftClose} (h : sh.close = some close) (c : CashRow) :
    sh.covers c ↔ c ∈ close.rows := by
  rw [Shift.covers, h]

theorem cash_mem_drawerRefunds {incl : Bool} {i : ℕ} {left : ℤ} {notes : List CreditNote}
    {note : CreditNote} (h : note ∈ notes) (hcash : note.method = some .cash) :
    (⟨.refund, i, note.id, note.createdAt, note.totalMinor incl⟩ : CashRow) ∈
      drawerRefunds incl i left notes := by
  induction notes generalizing left with
  | nil => cases h
  | cons head notes ih =>
      rw [drawerRefunds]
      rcases List.mem_cons.mp h with rfl | h
      · simp [hcash, CreditNote.cashMinor]
      · split
        · exact List.mem_cons_of_mem _ (ih h)
        · exact ih h

theorem mem_cashNotes {s : Store} {i : ℕ} {c : CashRow} (h : c ∈ s.cashNotes i) :
    ∃ note ∈ s.creditNotes, note.method = some .cash ∧
      c = ⟨.refund, i, note.id, note.createdAt, note.totalMinor s.pricesIncludeTax⟩ := by
  obtain ⟨note, hnote, rfl⟩ := List.mem_map.mp h
  obtain ⟨hnote, hcash⟩ := List.mem_filter.mp hnote
  exact ⟨note, hnote, by simpa using hcash, rfl⟩

variable {d d' : Drawer}

/-- A closing that finds what is there finds every cash row since its shift was opened. -/
theorem mem_found {time : ℤ} {orders : List ℕ} {c : CashRow} (hc : c ∈ d.cashRows)
    (htime : time ≤ c.time)
    (horders : ∀ c ∈ d.cashRefunds time d.orderIds, c.order ∈ orders) :
    c ∈ d.cashSales time ++ d.cashRefunds time orders := by
  rw [List.mem_append]
  rcases List.mem_append.mp hc with hc | hc
  · exact .inl (List.mem_filter.mpr ⟨hc, decide_eq_true htime⟩)
  · right
    obtain ⟨i, hi, hc⟩ := List.mem_flatMap.mp hc
    obtain ⟨note, hnote, hcash, rfl⟩ := mem_cashNotes hc
    have hrefund : (⟨.refund, i, note.id, note.createdAt,
        note.totalMinor (d.outlet.orders i).pricesIncludeTax⟩ : CashRow) ∈
          (d.outlet.orders i).cashRefunds i :=
      cash_mem_drawerRefunds (List.mem_mergeSort.mpr hnote) hcash
    have hsince : ∀ {orders : List ℕ}, i ∈ orders → _ ∈ d.cashRefunds time orders := fun hi =>
      List.mem_filter.mpr ⟨List.mem_flatMap.mpr ⟨i, hi, hrefund⟩, decide_eq_true htime⟩
    exact hsince (horders _ (hsince hi))

/-- The shifts divide the cash rows among themselves. -/
structure CashedUp (d : Drawer) : Prop where
  ids : (d.shifts.map (·.id)).Nodup
  /-- An open shift is the outlet's open shift, so there is no other. -/
  slot : ∀ sh ∈ d.shifts, sh.close = none → d.openShift = some sh.id
  /-- What was counted in a closed shift happened before the open one was opened. -/
  earlier : ∀ sh ∈ d.shifts, sh.close = none → ∀ sh' ∈ d.shifts, ∀ close ∈ sh'.close,
    ∀ c ∈ close.rows, c.time < sh.openedAt
  once : ∀ c ∈ d.cashRows, ∃! sh, sh ∈ d.shifts ∧ sh.covers c
  figures : ∀ sh ∈ d.shifts, ∀ close ∈ sh.close,
    close.expectedMinor = expectedMinor sh.floatMinor close.rows close.movements

/-- The times of everything that was counted or is there to count. -/
def Drawer.cashTimes (d : Drawer) : List ℤ :=
  (d.cashRows ++ d.shifts.flatMap fun sh => (sh.close.map (·.rows)).getD []).map (·.time)

/-- Whether the row falls into the window of an open shift. -/
def Drawer.taken (d : Drawer) (c : CashRow) : Bool :=
  d.shifts.any fun sh => sh.close.isNone && decide (sh.openedAt ≤ c.time)

/-- Whether the write, if it closes a shift, finds it open, and if it opens one, opens it later
than everything that was ever counted. -/
def DrawerWrite.inTime (d : Drawer) : DrawerWrite → Bool
  | .closeShift id _ => d.shiftOpen id
  | .createShift shift => d.cashTimes.all (· < shift.openedAt)
  | _ => true

/-- Whether a commit's cash rows fall into the window of an open shift. -/
def cashLands (ws : List DrawerWrite) (d : Drawer) : Bool :=
  ws.all (·.inTime d) && (applyAll ws d).cashRows.all fun c => d.cashRows.contains c || d.taken c

def DrawerRead.isCash : DrawerRead → Bool
  | .cashSales _ _ | .refundedOrders _ _ | .cashRefunds _ _ _ => true
  | _ => false

/-- The discipline of cashing up: the cash that a closing has summed up is all there is. -/
def cashDiscipline : DrawerDiscipline where
  inv := CashedUp
  guar := Persist
  keeps k d d' := match k with
    | .shift id => d.findShift id = none → d'.findShift id = none
    | .openShift => d.openShift = none → d'.openShift = none
    | _ => True
  heeds r d d' := r.isCash = true → r.holds d = true → r.holds d' = true
  admits _ _ _ := True
  lands l d := cashLands l.writes d = true
  ends _ _ := True
  guar_refl _ _ h := h
  guar_trans _ _ _ h h' shift hk := h' shift (h shift hk)
  keeps_refl k d := by cases k <;> simp
  keeps_trans k d d' d'' h h' := by
    cases k with
    | shift id => exact fun hnone => h' (h hnone)
    | openShift => exact fun hnone => h' (h hnone)
    | order k => trivial
    | cashMovement id => trivial
  heeds_refl _ _ _ h := h
  heeds_trans _ _ _ _ h h' hw hd := h' hw (h hw hd)

/-- Whether the write leaves the outlet's shifts as they are. -/
def DrawerWrite.isQuiet : DrawerWrite → Bool
  | .order ⟨_, .setSurroundings _⟩ => false
  | .order _ | .createCashMovement _ => true
  | _ => false

theorem quiet_apply {w : DrawerWrite} (h : w.isQuiet = true) (d : Drawer) :
    (d.apply w).shifts = d.shifts ∧ (d.apply w).openShift = d.openShift := by
  cases w with
  | order w =>
      obtain ⟨i, w⟩ := w
      cases w <;> first | exact ⟨rfl, rfl⟩ | cases h
  | createShift shift => cases h
  | createCashMovement m => exact ⟨rfl, rfl⟩
  | closeShift id close => cases h

theorem quiet_applyAll {ws : List DrawerWrite} (h : ∀ w ∈ ws, w.isQuiet = true) (d : Drawer) :
    (applyAll ws d).shifts = d.shifts ∧ (applyAll ws d).openShift = d.openShift :=
  ⟨applyAll_frame Drawer.shifts (fun w hw d => (quiet_apply (h w hw) d).1) d,
    applyAll_frame Drawer.openShift (fun w hw d => (quiet_apply (h w hw) d).2) d⟩

namespace CashedUp

/-- A row in the window of the open shift belongs to that shift and to no other. -/
theorem once_of_taken (h : CashedUp d) {c : CashRow} (hc : d.taken c = true) :
    ∃! sh, sh ∈ d.shifts ∧ sh.covers c := by
  obtain ⟨sh, hsh, hwindow⟩ := List.any_eq_true.mp hc
  obtain ⟨hopen, htime⟩ := Bool.and_eq_true_iff.mp hwindow
  rw [Option.isNone_iff_eq_none] at hopen
  have htime := of_decide_eq_true htime
  refine ⟨sh, ⟨hsh, (covers_of_open hopen c).mpr htime⟩, fun sh' ⟨hsh', hcovers⟩ => ?_⟩
  cases hclose : sh'.close with
  | none =>
      have hslot := (h.slot sh' hsh' hclose).symm.trans (h.slot sh hsh hopen)
      exact eq_of_key_eq h.ids hsh' hsh (Option.some.inj hslot)
  | some close =>
      have hcounted := (covers_of_closed hclose c).mp hcovers
      have hearlier := h.earlier sh hsh hopen sh' hsh' close hclose c hcounted
      omega

/-- Requests that leave the shifts alone, and whose cash falls into an open window. -/
theorem quiet (h : CashedUp d) (hshifts : d'.shifts = d.shifts) (hopen : d'.openShift = d.openShift)
    (hrows : ∀ c ∈ d'.cashRows, c ∈ d.cashRows ∨ d.taken c = true) : CashedUp d' where
  ids := hshifts ▸ h.ids
  slot := by
    rw [hshifts, hopen]
    exact h.slot
  earlier := by
    rw [hshifts]
    exact h.earlier
  once c hc := by
    rw [hshifts]
    exact (hrows c hc).elim (h.once c) h.once_of_taken
  figures := by
    rw [hshifts]
    exact h.figures

/-- A shift that is opened later than everything that was counted takes nothing of it. -/
theorem opened (h : CashedUp d) {shift : Shift} (hopen : shift.close = none)
    (hslot : d.openShift = none) (hfresh : d.findShift shift.id = none)
    (htimes : ∀ t ∈ d.cashTimes, t < shift.openedAt) : CashedUp (d.apply (.createShift shift)) := by
  have hclosed : ∀ sh ∈ d.shifts, sh.close ≠ none := fun sh hsh hnone =>
    absurd ((h.slot sh hsh hnone).symm.trans hslot) (by simp)
  have hnew : ∀ sh ∈ d.shifts, sh.id ≠ shift.id := fun sh hsh heq =>
    absurd (List.find?_eq_none.mp hfresh sh hsh) (by simp [heq])
  have hmem : ∀ sh, sh ∈ (d.apply (.createShift shift)).shifts ↔ sh ∈ d.shifts ∨ sh = shift := by
    intro sh
    change sh ∈ d.shifts ++ [shift] ↔ _
    rw [List.mem_append, List.mem_singleton]
  have hrow : ∀ c ∈ d.cashRows, c.time < shift.openedAt := fun c hc =>
    htimes _ (List.mem_map.mpr ⟨c, List.mem_append_left _ hc, rfl⟩)
  refine ⟨?_, fun sh hsh hnone => ?_, fun sh hsh hnone sh' hsh' close hclose c hc => ?_,
    fun c hc => ?_, fun sh hsh close hclose => ?_⟩
  · change ((d.shifts ++ [shift]).map (·.id)).Nodup
    rw [List.map_append, List.map_singleton, List.nodup_append]
    refine ⟨h.ids, List.nodup_singleton _, fun x hx y hy => ?_⟩
    obtain ⟨sh, hsh, rfl⟩ := List.mem_map.mp hx
    rw [List.mem_singleton.mp hy]
    exact hnew sh hsh
  · rcases (hmem sh).mp hsh with hsh | rfl
    · exact absurd hnone (hclosed sh hsh)
    · rfl
  · rcases (hmem sh).mp hsh with hsh | rfl
    · exact absurd hnone (hclosed sh hsh)
    rcases (hmem sh').mp hsh' with hsh' | rfl
    · refine htimes _ (List.mem_map.mpr ⟨c, List.mem_append_right _ ?_, rfl⟩)
      rw [Option.mem_def] at hclose
      exact List.mem_flatMap.mpr ⟨sh', hsh', by rw [hclose]; exact hc⟩
    · simp [hopen] at hclose
  · obtain ⟨sh, ⟨hsh, hcovers⟩, hunique⟩ := h.once c hc
    refine ⟨sh, ⟨(hmem sh).mpr (.inl hsh), hcovers⟩, fun sh' ⟨hsh', hcovers'⟩ => ?_⟩
    rcases (hmem sh').mp hsh' with hsh' | rfl
    · exact hunique sh' ⟨hsh', hcovers'⟩
    · have hlate := (covers_of_open hopen c).mp hcovers'
      have hearly := hrow c hc
      omega
  · rcases (hmem sh).mp hsh with hsh | rfl
    · exact h.figures sh hsh close hclose
    · simp [hopen] at hclose

/-- Closing a shift on all the cash in its window turns the window into a count. -/
theorem closed (h : CashedUp d) {shift : Shift} {close : ShiftClose} (hknown : Known shift d)
    (hopen : d.shiftOpen shift.id = true)
    (hall : ∀ c ∈ d.cashRows, shift.openedAt ≤ c.time → c ∈ close.rows)
    (hsince : ∀ c ∈ close.rows, shift.openedAt ≤ c.time)
    (hexpected : close.expectedMinor = expectedMinor shift.floatMinor close.rows close.movements) :
    CashedUp (d.apply (.closeShift shift.id close)) := by
  obtain ⟨sh₀, hsh₀, hid, hfloat, hat⟩ := hknown
  let row (sh : Shift) : Shift := { sh with close := some close }
  have hunset : sh₀.close = none := by
    simpa [Drawer.shiftOpen, ← hid, findShift_of_mem h.ids hsh₀] using hopen
  have hmem : ∀ sh, sh ∈ (d.apply (.closeShift shift.id close)).shifts ↔
      (sh ∈ d.shifts ∧ sh.id ≠ shift.id) ∨ sh = row sh₀ := by
    intro sh
    change sh ∈ updateRows Shift.id shift.id row d.shifts ↔ _
    rw [mem_updateRows]
    refine or_congr_right ⟨?_, fun h => ⟨sh₀, hsh₀, hid, h.symm⟩⟩
    rintro ⟨sh₁, hsh₁, hid₁, rfl⟩
    rw [eq_of_key_eq h.ids hsh₁ hsh₀ (hid₁.trans hid.symm)]
  -- The open shift was the only one, so now there is none.
  have hnone : ∀ sh ∈ (d.apply (.closeShift shift.id close)).shifts, sh.close ≠ none := by
    intro sh hsh hnone
    rcases (hmem sh).mp hsh with ⟨hsh, hne⟩ | rfl
    · have hslot := (h.slot sh hsh hnone).symm.trans (h.slot sh₀ hsh₀ hunset)
      exact hne ((Option.some.inj hslot).trans hid)
    · cases hnone
  have hcount : ∀ c ∈ d.cashRows, (sh₀.covers c ↔ c ∈ close.rows) := fun c hc => by
    rw [covers_of_open hunset, hat]
    exact ⟨hall c hc, hsince c⟩
  refine ⟨nodup_updateRows (f := row) (fun _ => rfl) h.ids, fun sh hsh hopen => absurd hopen (hnone sh hsh),
    fun sh hsh hopen => absurd hopen (hnone sh hsh), fun c hc => ?_, fun sh hsh close' hclose => ?_⟩
  · obtain ⟨u, ⟨hu, hcovers⟩, hunique⟩ := h.once c hc
    by_cases huid : u.id = shift.id
    · obtain rfl := eq_of_key_eq h.ids hu hsh₀ (huid.trans hid.symm)
      refine ⟨row u, ⟨(hmem _).mpr (.inr rfl), (covers_of_closed rfl c).mpr ((hcount c hc).mp hcovers)⟩,
        fun sh hother => ?_⟩
      obtain ⟨hsh, hcovers'⟩ := hother
      rcases (hmem sh).mp hsh with ⟨hsh, hne⟩ | rfl
      · exact absurd (hunique sh ⟨hsh, hcovers'⟩ ▸ huid) hne
      · rfl
    · refine ⟨u, ⟨(hmem u).mpr (.inl ⟨hu, huid⟩), hcovers⟩, fun sh hother => ?_⟩
      obtain ⟨hsh, hcovers'⟩ := hother
      rcases (hmem sh).mp hsh with ⟨hsh, -⟩ | rfl
      · exact hunique sh ⟨hsh, hcovers'⟩
      · have hcovers₀ := (hcount c hc).mpr ((covers_of_closed rfl c).mp hcovers')
        exact absurd (hunique sh₀ ⟨hsh₀, hcovers₀⟩ ▸ hid) huid
  · rcases (hmem sh).mp hsh with ⟨hsh, -⟩ | rfl
    · exact h.figures sh hsh close' hclose
    · obtain rfl : close = close' := Option.some.inj hclose
      rw [hexpected, ← hfloat]

end CashedUp

/-- What a request about to commit has made sure of. -/
inductive CashStage (l : DrawerFootprint) (d : Drawer) : Prop
  | quiet (writes : ∀ w ∈ l.writes, w.isQuiet = true)
  | opening (shift : Shift) (writes : l.writes = [.createShift shift]) (isOpen : shift.close = none)
      (slotLock : .openShift ∈ l.locks) (slot : d.openShift = none)
      (lock : .shift shift.id ∈ l.locks) (fresh : d.findShift shift.id = none)
  | closing (shift : Shift) (close : ShiftClose) (h : Closing DrawerRead.isCash shift close l d)

variable {l : DrawerFootprint}

/-- A closing that still holds what it read is closed on all the cash since its shift was opened. -/
theorem Closing.found {shift : Shift} {close : ShiftClose}
    (h : Closing DrawerRead.isCash shift close l d) :
    (∀ c ∈ d.cashRows, shift.openedAt ≤ c.time → c ∈ close.rows) ∧
      ∀ c ∈ close.rows, shift.openedAt ≤ c.time := by
  obtain ⟨sales, orders, refunds, hrows, hsales, horders, hrefunds⟩ := h.rows
  have hsales : d.cashSales shift.openedAt = sales := by
    simpa [DrawerRead.holds] using h.holds _ hsales rfl
  have horders : ∀ c ∈ d.cashRefunds shift.openedAt d.orderIds, c.order ∈ orders := fun c hc =>
    List.contains_iff_mem.mp (List.all_eq_true.mp (h.holds _ horders rfl) c hc)
  have hrefunds : d.cashRefunds shift.openedAt orders = refunds := by
    rcases hrefunds with ⟨rfl, rfl⟩ | hrefunds
    · rfl
    · simpa [DrawerRead.holds] using h.holds _ hrefunds rfl
  rw [hrows, ← hsales, ← hrefunds]
  refine ⟨fun c hc htime => mem_found hc htime horders, fun c hc => ?_⟩
  exact (List.mem_append.mp hc).elim (fun hc => of_decide_eq_true (List.mem_filter.mp hc).2)
    fun hc => of_decide_eq_true (List.mem_filter.mp hc).2

theorem CashStage.commits (hd : CashedUp d) (h : CashStage l d) : cashDiscipline.Commits l d := by
  intro hlands
  obtain ⟨hinTime, hrows⟩ := Bool.and_eq_true_iff.mp hlands
  have hinTime := List.all_eq_true.mp hinTime
  cases h with
  | quiet writes =>
      obtain ⟨hshifts, hopen⟩ := quiet_applyAll writes d
      have hrows : ∀ c ∈ (applyAll l.writes d).cashRows, c ∈ d.cashRows ∨ d.taken c = true := by
        intro c hc
        simpa using List.all_eq_true.mp hrows c hc
      refine ⟨hd.quiet hshifts hopen hrows, fun shift ⟨sh, hsh, hsame⟩ => ⟨sh, hshifts ▸ hsh, hsame⟩,
        fun k _ => ?_, trivial⟩
      cases k with
      | shift id => exact fun hnone => (findShift_congr hshifts id).trans hnone
      | openShift => exact fun hnone => hopen.trans hnone
      | order k => trivial
      | cashMovement id => trivial
  | opening shift writes isOpen slotLock slot lock fresh =>
      have hstore : applyAll l.writes d = d.apply (.createShift shift) := by
        rw [writes]
        rfl
      rw [writes] at hinTime
      have htimes : ∀ t ∈ d.cashTimes, t < shift.openedAt := fun t ht =>
        of_decide_eq_true
          (List.all_eq_true.mp (hinTime (.createShift shift) (List.mem_singleton_self _)) t ht)
      refine ⟨hstore ▸ hd.opened isOpen slot fresh htimes, fun known ⟨sh, hsh, hsame⟩ => ?_,
        fun k hk => ?_, trivial⟩
      · rw [hstore]
        exact ⟨sh, List.mem_append_left _ hsh, hsame⟩
      rw [hstore]
      cases k with
      | shift id =>
          intro hnone
          change (d.shifts ++ [shift]).find? _ = none
          rw [List.find?_append, Option.or_eq_none_iff]
          refine ⟨hnone, ?_⟩
          have hne : shift.id ≠ id := fun heq => hk (heq ▸ lock)
          simp [hne]
      | openShift => exact absurd slotLock hk
      | order k => trivial
      | cashMovement id => trivial
  | closing shift close h =>
      have hstore : applyAll l.writes d = d.apply (.closeShift shift.id close) := by
        rw [h.writes]
        rfl
      rw [h.writes] at hinTime
      have hopen : d.shiftOpen shift.id = true :=
        hinTime (.closeShift shift.id close) (List.mem_singleton_self _)
      have hkeyed : ∀ sh ∈ d.shifts, ∃ sh' ∈ (d.apply (.closeShift shift.id close)).shifts,
          sh'.id = sh.id ∧ sh'.floatMinor = sh.floatMinor ∧ sh'.openedAt = sh.openedAt := by
        intro sh hsh
        refine ⟨_, List.mem_map.mpr ⟨sh, hsh, rfl⟩, ?_⟩
        split <;> exact ⟨rfl, rfl, rfl⟩
      refine ⟨hstore ▸ hd.closed h.known hopen h.found.1 h.found.2 h.expected,
        fun known ⟨sh, hsh, hsame⟩ => ?_, fun k _ => ?_, trivial⟩
      · rw [hstore]
        obtain ⟨sh', hsh', hid, hfloat, hat⟩ := hkeyed sh hsh
        exact ⟨sh', hsh', hid.trans hsame.1, hfloat.trans hsame.2.1, hat.trans hsame.2.2⟩
      · rw [hstore]
        cases k with
        | shift id =>
            intro hnone
            rw [Drawer.findShift, List.find?_eq_none] at hnone ⊢
            intro sh hsh
            rcases mem_updateRows.mp hsh with ⟨hsh, -⟩ | ⟨sh₀, hsh₀, -, rfl⟩
            · exact hnone sh hsh
            · exact hnone sh₀ hsh₀
        | openShift =>
            intro hnone
            change (if d.openShift = some shift.id then none else d.openShift) = none
            rw [hnone]
            rfl
        | order k => trivial
        | cashMovement id => trivial

end RestiqBackend
