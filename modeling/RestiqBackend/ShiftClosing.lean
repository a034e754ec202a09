import RestiqBackend.Shifts

/-!
A shift closes once, with everything in it, where no other commit gets in between.

Closing reads the shift, sums up what it finds and writes by the shift's identifier; nothing
looks at the shift again when the write is made. So a second closing that read the shift
while it was open overwrites the first one's figures, and a movement that was logged
meanwhile is in no figure. The first part of the file says what a closing knows when it
commits, under any discipline that keeps the shifts' rows; the second is the discipline of
the runs in which closings and movements land on an open shift.
-/

namespace RestiqBackend

open ReadCommitted

abbrev DrawerFootprint := Footprint DrawerKey DrawerRead DrawerWrite

abbrev DrawerDiscipline := Discipline Drawer DrawerKey DrawerRead DrawerWrite

@[simp] theorem drawerWriteTo_apply (w : DrawerWrite) (d : Drawer) :
    (WriteTo.apply w d : Drawer) = d.apply w := rfl

/-! ### What the writes leave alone -/

def DrawerWrite.isOrder : DrawerWrite → Bool
  | .order _ => true
  | _ => false

/-- Requests about orders touch neither shifts nor movements. -/
theorem order_applyAll {ws : List DrawerWrite} (h : ∀ w ∈ ws, w.isOrder = true) (d : Drawer) :
    (applyAll ws d).shifts = d.shifts ∧ (applyAll ws d).movements = d.movements := by
  refine ⟨applyAll_frame Drawer.shifts (fun w hw d => ?_) d,
    applyAll_frame Drawer.movements (fun w hw d => ?_) d⟩
  all_goals
    have hw := h w hw
    cases w with
    | order w => rfl
    | createShift shift => cases hw
    | createCashMovement m => cases hw
    | closeShift id close => cases hw

theorem findShift_of_mem {d : Drawer} (hids : (d.shifts.map (·.id)).Nodup) {sh : Shift}
    (h : sh ∈ d.shifts) : d.findShift sh.id = some sh :=
  find?_key hids h

/-- Whether what a closing found is still what is there; of the orders it found notes on, that
no other order had cash paid back. -/
def DrawerRead.holds : DrawerRead → Drawer → Bool
  | .order _, _ => true
  | .cashMovements id found, d => d.movementsOf id = found
  | .cashSales time found, d => d.cashSales time = found
  | .refundedOrders time found, d =>
      (d.cashRefunds time d.orderIds).all fun c => found.contains c.order
  | .cashRefunds time orders found, d => d.cashRefunds time orders = found

/-- The shift, as it was when it was opened. -/
def Known (shift : Shift) (d : Drawer) : Prop :=
  ∃ sh ∈ d.shifts, sh.id = shift.id ∧ sh.floatMinor = shift.floatMinor ∧ sh.openedAt = shift.openedAt

/-- Shifts are never deleted, and what they were opened with never changes. -/
def Persist (d d' : Drawer) : Prop := ∀ shift, Known shift d → Known shift d'

/-- A closing that has read `rs` of the shift, of which what is `watched` still holds. -/
structure Reading (watched : DrawerRead → Bool) (shift : Shift) (rs : List DrawerRead)
    (l : DrawerFootprint) (d : Drawer) : Prop where
  writes : l.writes = []
  known : Known shift d
  reads : ∀ r ∈ rs, r ∈ l.reads
  holds : ∀ r ∈ l.reads, watched r = true → r.holds d = true

/-- A closing that is about to commit: it writes the sum of what it has read. -/
structure Closing (watched : DrawerRead → Bool) (shift : Shift) (close : ShiftClose)
    (l : DrawerFootprint) (d : Drawer) : Prop where
  writes : l.writes = [.closeShift shift.id close]
  known : Known shift d
  holds : ∀ r ∈ l.reads, watched r = true → r.holds d = true
  movements : .cashMovements shift.id close.movements ∈ l.reads
  rows : ∃ sales orders refunds, close.rows = sales ++ refunds ∧
    .cashSales shift.openedAt sales ∈ l.reads ∧ .refundedOrders shift.openedAt orders ∈ l.reads ∧
    (orders = [] ∧ refunds = [] ∨ .cashRefunds shift.openedAt orders refunds ∈ l.reads)
  expected : close.expectedMinor = expectedMinor shift.floatMinor close.rows close.movements
  overShort : close.overShortMinor = close.countedMinor - close.expectedMinor

section Closing

variable {D : DrawerDiscipline} {watched : DrawerRead → Bool} {shift : Shift} {rs : List DrawerRead}
  {l : DrawerFootprint} {d : Drawer}

/-- Nothing was written or remembered yet. -/
def Begun (l : DrawerFootprint) (_ : Drawer) : Prop := l.writes = [] ∧ l.reads = []

theorem begun_stable : D.Stable Begun := fun _ _ _ _ h => h

variable (hguar : ∀ d d', D.guar d d' → Persist d d')
  (hheeds : ∀ r d d', D.heeds r d d' → watched r = true → r.holds d = true → r.holds d' = true)

include hguar hheeds

end Closing

section Others

variable {D : DrawerDiscipline} {l : DrawerFootprint} {d : Drawer}

def DrawerWrite.isMovement : DrawerWrite → Bool
  | .createCashMovement _ => true
  | _ => false

end Others

/-! ### The runs in which closings and movements land on an open shift -/

/-- What a closed shift's figures are: they account for every movement on the shift. -/
structure Reconciled (d : Drawer) : Prop where
  ids : (d.shifts.map (·.id)).Nodup
  figures : ∀ sh ∈ d.shifts, ∀ close ∈ sh.close,
    close.expectedMinor = expectedMinor sh.floatMinor close.rows (d.movementsOf sh.id) ∧
      close.overShortMinor = close.countedMinor - close.expectedMinor

/-- Shifts stay, and a closed one stays as it was closed. -/
def ShiftsStay (d d' : Drawer) : Prop :=
  ∀ sh ∈ d.shifts, ∃ sh' ∈ d'.shifts, sh'.id = sh.id ∧ sh'.floatMinor = sh.floatMinor ∧
    sh'.openedAt = sh.openedAt ∧ (sh.close.isSome = true → sh' = sh)

def Drawer.shiftOpen (d : Drawer) (id : ℕ) : Bool := (d.findShift id).any (·.close.isNone)

/-- Whether the write, if it closes a shift or logs a movement on one, finds it open. -/
def DrawerWrite.onOpenShift (d : Drawer) : DrawerWrite → Bool
  | .closeShift id _ => d.shiftOpen id
  | .createCashMovement m => d.shiftOpen m.shiftId
  | _ => true

def DrawerRead.isMovements : DrawerRead → Bool
  | .cashMovements _ _ => true
  | _ => false

/-- The discipline of closing: a shift's figures are written once, and the movements a closing
has summed up are those that are on the shift. -/
def shiftDiscipline : DrawerDiscipline where
  inv := Reconciled
  guar := ShiftsStay
  keeps k d d' := match k with
    | .shift id => d.findShift id = none → d'.findShift id = none
    | _ => True
  heeds r d d' := r.isMovements = true → r.holds d = true → r.holds d' = true
  admits _ _ _ := True
  lands l d := ∀ w ∈ l.writes, w.onOpenShift d = true
  ends _ _ := True
  guar_refl _ sh h := ⟨sh, h, rfl, rfl, rfl, fun _ => rfl⟩
  guar_trans d d' d'' h h' sh hsh := by
    obtain ⟨sh₁, hsh₁, hid, hfloat, hat, hsame⟩ := h sh hsh
    obtain ⟨sh₂, hsh₂, hid', hfloat', hat', hsame'⟩ := h' sh₁ hsh₁
    refine ⟨sh₂, hsh₂, hid'.trans hid, hfloat'.trans hfloat, hat'.trans hat, fun hclosed => ?_⟩
    rw [hsame' (by rw [hsame hclosed]; exact hclosed), hsame hclosed]
  keeps_refl k d := by cases k <;> simp
  keeps_trans k d d' d'' h h' := by
    cases k with
    | shift id => exact fun hnone => h' (h hnone)
    | order k => trivial
    | openShift => trivial
    | cashMovement id => trivial
  heeds_refl _ _ _ h := h
  heeds_trans _ _ _ _ h h' hw hd := h' hw (h hw hd)

/-- What a request about to commit has made sure of. -/
inductive ShiftStage (l : DrawerFootprint) (d : Drawer) : Prop
  | order (writes : ∀ w ∈ l.writes, w.isOrder = true)
  | movements (writes : ∀ w ∈ l.writes, w.isMovement = true)
  | opening (shift : Shift) (writes : l.writes = [.createShift shift]) (isOpen : shift.close = none)
      (lock : .shift shift.id ∈ l.locks) (fresh : d.findShift shift.id = none)
  | closing (shift : Shift) (close : ShiftClose)
      (h : Closing DrawerRead.isMovements shift close l d)

variable {l : DrawerFootprint} {d d' : Drawer}

theorem Reconciled.congr (h : Reconciled d) (hshifts : d'.shifts = d.shifts)
    (hmovements : ∀ sh ∈ d.shifts, sh.close.isSome = true → d'.movementsOf sh.id = d.movementsOf sh.id) :
    Reconciled d' where
  ids := hshifts ▸ h.ids
  figures sh hsh close hclose := by
    rw [hshifts] at hsh
    rw [hmovements sh hsh (by rw [Option.mem_def.mp hclose]; rfl)]
    exact h.figures sh hsh close hclose

theorem shiftsStay_of_eq (h : d'.shifts = d.shifts) : ShiftsStay d d' :=
  fun sh hsh => ⟨sh, h ▸ hsh, rfl, rfl, rfl, fun _ => rfl⟩

theorem findShift_congr (h : d'.shifts = d.shifts) (id : ℕ) : d'.findShift id = d.findShift id := by
  rw [Drawer.findShift, Drawer.findShift, h]

theorem keeps_of_shifts (h : d'.shifts = d.shifts) (k : DrawerKey) : shiftDiscipline.keeps k d d' := by
  cases k with
  | shift id => exact fun hnone => (findShift_congr h id).trans hnone
  | order k => trivial
  | openShift => trivial
  | cashMovement id => trivial

/-- A movement that lands on an open shift is on no closed one. -/
theorem movementsOf_applyAll (hd : Reconciled d) (hmove : ∀ w ∈ l.writes, w.isMovement = true)
    (hlands : ∀ w ∈ l.writes, w.onOpenShift d = true) {sh : Shift} (hsh : sh ∈ d.shifts)
    (hclosed : sh.close.isSome = true) :
    (applyAll l.writes d).movementsOf sh.id = d.movementsOf sh.id := by
  have hframe : ∀ w ∈ l.writes, ∀ d₁ : Drawer,
      (WriteTo.apply w d₁ : Drawer).movementsOf sh.id = d₁.movementsOf sh.id := by
    intro w hw d₁
    have hopen := hlands w hw
    cases w with
    | order w => cases hmove _ hw
    | createShift shift => cases hmove _ hw
    | closeShift id close => cases hmove _ hw
    | createCashMovement m =>
        have hne : m.shiftId ≠ sh.id := by
          intro heq
          simp only [DrawerWrite.onOpenShift, Drawer.shiftOpen, heq, findShift_of_mem hd.ids hsh,
            Option.any_some, Option.isNone_iff_eq_none] at hopen
          simp [hopen] at hclosed
        simp [Drawer.apply, Drawer.movementsOf, List.filter_append, hne]
  exact applyAll_frame (fun d : Drawer => d.movementsOf sh.id) hframe d

theorem ShiftStage.commits (hd : Reconciled d) (h : ShiftStage l d) : shiftDiscipline.Commits l d := by
  intro hlands
  cases h with
  | order writes =>
      obtain ⟨hshifts, hmovements⟩ := order_applyAll writes d
      exact ⟨hd.congr hshifts fun sh _ _ => by rw [Drawer.movementsOf, hmovements]; rfl,
        shiftsStay_of_eq hshifts, fun k _ => keeps_of_shifts hshifts k, trivial⟩
  | movements writes =>
      have hshifts : (applyAll l.writes d).shifts = d.shifts :=
        applyAll_frame Drawer.shifts (fun w hw d => by
          cases w with
          | createCashMovement m => rfl
          | order w => cases writes _ hw
          | createShift shift => cases writes _ hw
          | closeShift id close => cases writes _ hw) d
      exact ⟨hd.congr hshifts fun sh hsh => movementsOf_applyAll hd writes hlands hsh,
        shiftsStay_of_eq hshifts, fun k _ => keeps_of_shifts hshifts k, trivial⟩
  | opening shift writes isOpen lock fresh =>
      have hnew : ∀ sh ∈ d.shifts, sh.id ≠ shift.id := fun sh hsh heq =>
        absurd (List.find?_eq_none.mp fresh sh hsh) (by simp [heq])
      have hstore : applyAll l.writes d = d.apply (.createShift shift) := by
        rw [writes]
        rfl
      have hshifts : (applyAll l.writes d).shifts = d.shifts ++ [shift] := by
        rw [hstore]
        rfl
      have hmovements : (applyAll l.writes d).movements = d.movements := by
        rw [hstore]
        rfl
      refine ⟨⟨?_, fun sh hsh close hclose => ?_⟩, fun sh hsh => ?_, fun k hk => ?_, trivial⟩
      · rw [hshifts, List.map_append, List.map_singleton, List.nodup_append]
        refine ⟨hd.ids, List.nodup_singleton _, fun x hx y hy => ?_⟩
        obtain ⟨sh, hsh, rfl⟩ := List.mem_map.mp hx
        rw [List.mem_singleton.mp hy]
        exact hnew sh hsh
      · rw [hshifts, List.mem_append, List.mem_singleton] at hsh
        rw [Drawer.movementsOf, hmovements]
        rcases hsh with hsh | rfl
        · exact hd.figures sh hsh close hclose
        · simp [isOpen] at hclose
      · exact ⟨sh, by rw [hshifts]; exact List.mem_append_left _ hsh, rfl, rfl, rfl, fun _ => rfl⟩
      · cases k with
        | shift id =>
            intro hnone
            rw [Drawer.findShift, hshifts, List.find?_append, Option.or_eq_none_iff]
            refine ⟨hnone, ?_⟩
            have hne : shift.id ≠ id := fun heq => hk (heq ▸ lock)
            simp [hne]
        | order k => trivial
        | openShift => trivial
        | cashMovement id => trivial
  | closing shift close h =>
      have hstore : applyAll l.writes d = d.apply (.closeShift shift.id close) := by
        rw [h.writes]
        rfl
      let row (sh : Shift) : Shift := { sh with close := some close }
      have hshifts : (applyAll l.writes d).shifts = updateRows Shift.id shift.id row d.shifts := by
        rw [hstore]
        rfl
      have hmovements : (applyAll l.writes d).movements = d.movements := by
        rw [hstore]
        rfl
      have hopen : d.shiftOpen shift.id = true :=
        hlands (.closeShift shift.id close) (by rw [h.writes]; exact List.mem_singleton_self _)
      have hunset : ∀ sh ∈ d.shifts, sh.id = shift.id → sh.close = none := by
        intro sh hsh hid
        simpa [Drawer.shiftOpen, ← hid, findShift_of_mem hd.ids hsh] using hopen
      refine ⟨⟨?_, fun sh hsh close' hclose => ?_⟩, fun sh hsh => ?_, fun k _ => ?_, trivial⟩
      · rw [hshifts]
        exact nodup_updateRows (fun _ => rfl) hd.ids
      · rw [hshifts] at hsh
        rw [Drawer.movementsOf, hmovements]
        rcases mem_updateRows.mp hsh with ⟨hsh, -⟩ | ⟨sh₀, hsh₀, hid, rfl⟩
        · exact hd.figures sh hsh close' hclose
        · obtain rfl : close = close' := Option.some.inj hclose
          obtain ⟨sh₁, hsh₁, hid₁, hfloat, -⟩ := h.known
          obtain rfl := eq_of_key_eq hd.ids hsh₀ hsh₁ (hid.trans hid₁.symm)
          have hfound : d.movementsOf shift.id = close.movements := by
            simpa [DrawerRead.holds] using h.holds _ h.movements rfl
          refine ⟨?_, h.overShort⟩
          rw [h.expected, ← hfound, ← hfloat, ← hid]
          rfl
      · by_cases hid : sh.id = shift.id
        · refine ⟨row sh, ?_, rfl, rfl, rfl, fun hclosed => ?_⟩
          · rw [hshifts]
            exact mem_updateRows.mpr (.inr ⟨sh, hsh, hid, rfl⟩)
          · simp [hunset sh hsh hid] at hclosed
        · refine ⟨sh, ?_, rfl, rfl, rfl, fun _ => rfl⟩
          rw [hshifts]
          exact mem_updateRows.mpr (.inl ⟨hsh, hid⟩)
      · cases k with
        | shift id =>
            intro hnone
            rw [Drawer.findShift, List.find?_eq_none] at hnone ⊢
            intro sh hsh
            rw [hshifts] at hsh
            rcases mem_updateRows.mp hsh with ⟨hsh, -⟩ | ⟨sh₀, hsh₀, -, rfl⟩
            · exact hnone sh hsh
            · exact hnone sh₀ hsh₀
        | order k => trivial
        | openShift => trivial
        | cashMovement id => trivial

end RestiqBackend
