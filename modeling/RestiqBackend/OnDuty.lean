import Mathlib.Data.List.Induction
import Mathlib.Data.List.Nodup
import RestiqBackend.Attendance

/-!
Who is in, and where it says so.

What the clock means is a set of people who are in: signing in adds one, clocking out takes
one out. `Roster` runs that next to the log of events, over the operations of one calendar day.
The log tells it as long as nobody clocks out at another outlet than the one they are in at:
such a clock-out ends their day for the clock, and not for the outlet where it began.
-/

namespace RestiqBackend.Attendance

open Serial (bind_ok map_ok check_ok orElseThrow_ok)

/-! ### The last of a list -/

/-- The last element that satisfies `p`. -/
def lastOf (p : ClockEvent → Bool) (events : List ClockEvent) : Option ClockEvent :=
  events.reverse.find? p

section LastOf

variable {p q : ClockEvent → Bool} {events : List ClockEvent} {e e' : ClockEvent}

theorem lastOf_append : lastOf p (events ++ [e]) = if p e then some e else lastOf p events := by
  unfold lastOf
  rw [List.reverse_append, List.reverse_singleton, List.singleton_append, List.find?_cons]
  cases p e <;> rfl

theorem lastOf_mem (h : lastOf p events = some e) : e ∈ events :=
  List.mem_reverse.mp (List.mem_of_find?_eq_some h)

theorem lastOf_sat (h : lastOf p events = some e) : p e = true := List.find?_some h

/-- The last of some is the last of those of them that are also something else, if it is. -/
theorem lastOf_and (h : lastOf p events = some e) (hq : q e = true) :
    lastOf (fun x => p x && q x) events = some e := by
  induction events using List.reverseRecOn with
  | nil => cases h
  | append_singleton events x ih =>
      rw [lastOf_append] at h ⊢
      cases hp : p x with
      | false =>
          rw [hp, if_neg Bool.false_ne_true] at h
          rw [Bool.false_and, if_neg Bool.false_ne_true]
          exact ih h
      | true =>
          rw [hp, if_pos rfl] at h
          cases h
          rw [hq, Bool.true_and, if_pos rfl]

variable (hasc : events.Pairwise (·.occurredAt < ·.occurredAt))

include hasc

theorem newestFirst_eq_reverse : newestFirst events = events.reverse := by
  let newer : ClockEvent → ClockEvent → Prop := fun a b => b.occurredAt ≤ a.occurredAt
  have htotal : Std.Total newer := ⟨fun a b => le_total b.occurredAt a.occurredAt⟩
  have htrans : IsTrans ClockEvent newer := ⟨fun a b c hab hbc => le_trans hbc hab⟩
  have hperm : (newestFirst events).Perm events.reverse :=
    (List.perm_insertionSort newer events).trans (List.reverse_perm events).symm
  refine hperm.eq_of_pairwise (fun a b ha hb hab hba => ?_)
    (List.pairwise_insertionSort newer events) ?_
  · -- No two events of the log happened at the same time.
    have htimes : (events.map (·.occurredAt)).Nodup :=
      List.pairwise_map.mpr (hasc.imp fun h => h.ne)
    exact List.inj_on_of_nodup_map htimes ((List.mem_insertionSort newer).mp ha)
      (List.mem_reverse.mp hb) (le_antisymm hba hab)
  · exact List.pairwise_reverse.mpr (hasc.imp fun h => h.le)

/-- Only later events keep an event from being the last, so looking back no further than some
time loses the last event only where it was before. -/
theorem lastOf_since (since : ℤ) :
    lastOf (fun e => p e && decide (since ≤ e.occurredAt)) events =
      (lastOf p events).filter fun e => since ≤ e.occurredAt := by
  induction events using List.reverseRecOn with
  | nil => rfl
  | append_singleton events x ih =>
      obtain ⟨hinit, -, hlast⟩ := List.pairwise_append.mp hasc
      rw [lastOf_append, lastOf_append, ih hinit]
      cases hp : p x with
      | false => simp
      | true =>
          by_cases hx : since ≤ x.occurredAt
          · simp [hx, Option.filter_some]
          · have hnone : (lastOf p events).filter (fun e => since ≤ e.occurredAt) = none := by
              rw [Option.filter_eq_none_iff]
              intro e he
              have := hlast e (lastOf_mem he) x (List.mem_singleton.mpr rfl)
              simp only [decide_eq_true_eq]
              omega
            simp [hx, hnone, Option.filter_some]

theorem head?_newestFirst_filter : (newestFirst (events.filter p)).head? = lastOf p events := by
  rw [newestFirst_eq_reverse (hasc.filter p), ← List.filter_reverse, List.head?_filter, lastOf]

end LastOf

def ofStaff (staffId : ℕ) (e : ClockEvent) : Bool := e.staffId = staffId

def atOutlet (outletId : ℕ) (e : ClockEvent) : Bool := e.outletId = outletId

theorem latest_eq {w : World} (hasc : w.clockEvents.Pairwise (·.occurredAt < ·.occurredAt))
    (staffId : ℕ) : latest w staffId = lastOf (ofStaff staffId) w.clockEvents :=
  head?_newestFirst_filter hasc

/-- A staff member's latest event at one outlet. -/
def latestAt (w : World) (outletId staffId : ℕ) : Option ClockEvent :=
  lastOf (fun e => ofStaff staffId e && atOutlet outletId e) w.clockEvents

/-! ### The day -/

section Day

variable (localDateKey : ℤ → String → String) (localeCompare : String → String → ℤ)
  (day : String → String)

/-- It is the day at every outlet. -/
def Today (outlets : List Outlet) (t : ℤ) : Prop :=
  ∀ o ∈ outlets, localDateKey t o.timezone = day o.timezone

instance (outlets : List Outlet) (t : ℤ) : Decidable (Today localDateKey day outlets t) :=
  inferInstanceAs (Decidable (∀ o ∈ outlets, localDateKey t o.timezone = day o.timezone))

/-- A calendar day is shorter than what the attendance looks back over. -/
def DayFits : Prop :=
  ∀ t t' timezone, localDateKey t timezone = day timezone → localDateKey t' timezone = day timezone →
    t - lookbackMs ≤ t'

/-! ### The roster -/

/-- The log, with who is in and the time of the last operation. -/
structure Roster where
  world : World
  onDuty : ℕ → Bool
  clock : ℤ

/-- What an operation makes of who is in. -/
def Op.duty : Op → (ℕ → Bool) → ℕ → Bool
  | .login staffId _ _ _, onDuty => Function.update onDuty staffId true
  | .clockOut staff _ _, onDuty => Function.update onDuty staff.id false

def Roster.handle (r : Roster) (op : Op) : Roster :=
  match op.outcome localDateKey r.world with
  | .ok world => ⟨world, op.duty r.onDuty, op.now⟩
  | .error _ => { r with clock := op.now }

/-- An outlet's attendance, asked at `t`, lists a staff member. -/
def Lists (w : World) (t : ℤ) (staffId outletId : ℕ) : Prop :=
  ∃ view, getAttendance localDateKey localeCompare w outletId t = .ok view ∧
    ∃ entry ∈ view.staff, entry.staffId = staffId

/-- An event that the attendance of its own outlet takes for the beginning of today. -/
def BeginsToday (outlets : List Outlet) (e : ClockEvent) : Prop :=
  e.type = .clockIn ∧ ∃ o, outlets.find? (·.id = e.outletId) = some o ∧
    localDateKey e.occurredAt o.timezone = day o.timezone

/-! ### What the attendance lists -/

variable {localDateKey localeCompare day} {w : World} {t : ℤ} {staffId outletId : ℕ}

/-- The loop lists whom it had not seen and whose first event begins today. -/
theorem mem_clockedIn {timezone todayKey : String} {events : List ClockEvent} {seen : List ℕ} :
    (∃ entry ∈ clockedIn localDateKey w timezone todayKey events seen, entry.staffId = staffId) ↔
      staffId ∉ seen ∧ ∃ e, events.find? (ofStaff staffId) = some e ∧ e.type = .clockIn ∧
        localDateKey e.occurredAt timezone = todayKey := by
  induction events generalizing seen with
  | nil => simp [clockedIn]
  | cons e rest ih =>
      rw [clockedIn, List.find?_cons, ofStaff]
      by_cases hseen : e.staffId ∈ seen
      · rw [if_pos hseen, ih]
        by_cases hself : e.staffId = staffId
        · simp [← hself, hseen]
        · simp [hself]
      rw [if_neg hseen]
      by_cases hself : e.staffId = staffId
      · -- Their first event: the rest of the loop has seen them.
        have hnone : ∀ entry ∈ clockedIn localDateKey w timezone todayKey rest
            (e.staffId :: seen), entry.staffId ≠ staffId := fun entry hmem heq =>
          (ih.mp ⟨entry, hmem, heq⟩).1 (hself ▸ List.mem_cons_self)
        have hnot : staffId ∉ seen := hself ▸ hseen
        split
        · simp [*]
        split
        · simp [*]
        · simp_all
      · -- Somebody else's event leaves them to the rest of the loop.
        have hrest : (∃ entry ∈ clockedIn localDateKey w timezone todayKey rest
            (e.staffId :: seen), entry.staffId = staffId) ↔ staffId ∉ seen ∧
            ∃ e, rest.find? (ofStaff staffId) = some e ∧ e.type = .clockIn ∧
              localDateKey e.occurredAt timezone = todayKey := by
          rw [ih]
          simp [Ne.symm hself]
        split
        · simpa [hself] using hrest
        split
        · simpa [hself] using hrest
        · simpa [hself] using hrest

theorem getAttendance_eq {o : Outlet} (ho : w.outlets.find? (·.id = outletId) = some o) :
    getAttendance localDateKey localeCompare w outletId t = .ok ⟨outletId, t,
      (clockedIn localDateKey w o.timezone (localDateKey t o.timezone) (newestFirst
        (w.clockEvents.filter fun e => e.outletId = outletId ∧ t - lookbackMs ≤ e.occurredAt))
        []).insertionSort fun a b => localeCompare a.name b.name ≤ 0⟩ := by
  unfold getAttendance
  rw [ho]
  rfl

theorem latestAt_outletId {e : ClockEvent} (h : latestAt w outletId staffId = some e) :
    e.outletId = outletId := by
  simpa [atOutlet] using (Bool.and_eq_true_iff.mp (lastOf_sat h)).2

section Lists

variable (hasc : w.clockEvents.Pairwise (·.occurredAt < ·.occurredAt))
  (hfits : DayFits localDateKey day) (htoday : Today localDateKey day w.outlets t)

include hasc

/-- What the loop finds first of a staff member in what the attendance reads. -/
theorem find?_newestFirst (since : ℤ) :
    (newestFirst (w.clockEvents.filter fun e => e.outletId = outletId ∧ since ≤ e.occurredAt)).find?
      (ofStaff staffId) = (latestAt w outletId staffId).filter fun e => since ≤ e.occurredAt := by
  rw [newestFirst_eq_reverse (hasc.filter _), ← List.filter_reverse, List.find?_filter, latestAt,
    ← lastOf_since hasc, lastOf]
  congr 1
  funext e
  simp only [ofStaff, atOutlet]
  by_cases hs : e.staffId = staffId <;> by_cases ho : e.outletId = outletId <;> simp [hs, ho]

include hfits htoday

/-- An outlet lists whose latest event there begins today. -/
theorem lists_iff : Lists localDateKey localeCompare w t staffId outletId ↔
    ∃ e, latestAt w outletId staffId = some e ∧ BeginsToday localDateKey day w.outlets e := by
  constructor
  · rintro ⟨view, hview, entry, hentry, hid⟩
    obtain ⟨o, ho, hview⟩ := bind_ok hview
    cases hview
    have ho := orElseThrow_ok ho
    have hentry := (List.mem_insertionSort _).mp hentry
    obtain ⟨-, e, he, htype, hkey⟩ := mem_clockedIn.mp ⟨entry, hentry, hid⟩
    rw [find?_newestFirst hasc] at he
    have he := (Option.filter_eq_some_iff.mp he).1
    refine ⟨e, he, htype, o, latestAt_outletId he ▸ ho, ?_⟩
    rw [hkey]
    exact htoday o (List.mem_of_find?_eq_some ho)
  · rintro ⟨e, he, htype, o, ho, hkey⟩
    rw [latestAt_outletId he] at ho
    have hnow := htoday o (List.mem_of_find?_eq_some ho)
    have hsince := hfits t e.occurredAt o.timezone hnow hkey
    have hfind : (newestFirst (w.clockEvents.filter fun e => e.outletId = outletId ∧
        t - lookbackMs ≤ e.occurredAt)).find? (ofStaff staffId) = some e := by
      rw [find?_newestFirst hasc, he, Option.filter_some, if_pos (decide_eq_true hsince)]
    obtain ⟨entry, hentry, hid⟩ := mem_clockedIn.mpr
      ⟨List.not_mem_nil, e, hfind, htype, hkey.trans hnow.symm⟩
    exact ⟨_, getAttendance_eq ho, entry, (List.mem_insertionSort _).mpr hentry, hid⟩

end Lists

/-! ### The invariant -/

variable (localDateKey day) in
/-- Those who are in have their latest event today, and it began it; nobody else's did, and
the events of no other outlet say otherwise. -/
structure Sound (r : Roster) : Prop where
  ascending : r.world.clockEvents.Pairwise (·.occurredAt < ·.occurredAt)
  past : ∀ e ∈ r.world.clockEvents, e.occurredAt ≤ r.clock
  today : ∀ e ∈ r.world.clockEvents, BeginsToday localDateKey day r.world.outlets e →
    Today localDateKey day r.world.outlets e.occurredAt
  onDuty : ∀ s, r.onDuty s = true → ∃ e, lastOf (ofStaff s) r.world.clockEvents = some e ∧
    BeginsToday localDateKey day r.world.outlets e
  offDuty : ∀ s, r.onDuty s = false → ∀ e, lastOf (ofStaff s) r.world.clockEvents = some e →
    e.type = .clockOut
  elsewhere : ∀ s o e, latestAt r.world o s = some e →
    BeginsToday localDateKey day r.world.outlets e →
    lastOf (ofStaff s) r.world.clockEvents = some e

variable {r : Roster} {id : ℕ} {now : ℤ}

theorem lastOf_ofStaff_append {events : List ClockEvent} {e : ClockEvent} (s : ℕ) :
    lastOf (ofStaff s) (events ++ [e]) =
      if e.staffId = s then some e else lastOf (ofStaff s) events := by
  rw [lastOf_append]
  simp [ofStaff]

theorem latestAt_append {events : List ClockEvent} {e : ClockEvent} (o s : ℕ) :
    latestAt { w with clockEvents := events ++ [e] } o s =
      if e.staffId = s ∧ e.outletId = o then some e
      else latestAt { w with clockEvents := events } o s := by
  simp only [latestAt]
  rw [lastOf_append]
  simp [ofStaff, atOutlet]

/-- What a new event at the end of the log leaves of the invariant, for what it says of its own
staff member. -/
theorem Sound.append {e : ClockEvent} (hs : Sound localDateKey day r)
    (hlater : r.clock < e.occurredAt) (htoday : Today localDateKey day r.world.outlets e.occurredAt)
    (hself : (e.type = .clockIn ∧ (∃ o, r.world.outlets.find? (·.id = e.outletId) = some o)) ∨
      e.type = .clockOut)
    (hothers : ∀ o e', o ≠ e.outletId → latestAt r.world o e.staffId = some e' →
      ¬BeginsToday localDateKey day r.world.outlets e') :
    Sound localDateKey day
      { world := { r.world with clockEvents := r.world.clockEvents ++ [e] }
        onDuty := Function.update r.onDuty e.staffId (e.type = .clockIn)
        clock := e.occurredAt } := by
  have hbegins : e.type = .clockIn → BeginsToday localDateKey day r.world.outlets e := by
    intro hin
    rcases hself with ⟨-, o, ho⟩ | hout
    · exact ⟨hin, o, ho, htoday o (List.mem_of_find?_eq_some ho)⟩
    · rw [hin] at hout
      cases hout
  refine ⟨?_, ?_, ?_, ?_, ?_, ?_⟩
  · refine List.pairwise_append.mpr ⟨hs.ascending, List.pairwise_singleton _ _, ?_⟩
    intro a ha b hb
    rw [List.mem_singleton.mp hb]
    exact (hs.past a ha).trans_lt hlater
  · intro a ha
    rcases List.mem_append.mp ha with ha | ha
    · exact (hs.past a ha).trans hlater.le
    · rw [List.mem_singleton.mp ha]
  · intro a ha hbeg
    rcases List.mem_append.mp ha with ha | ha
    · exact hs.today a ha hbeg
    · rw [List.mem_singleton.mp ha]
      exact htoday
  · intro s hon
    dsimp only at hon ⊢
    rw [lastOf_ofStaff_append]
    by_cases hse : e.staffId = s
    · subst hse
      rw [Function.update_self, decide_eq_true_eq] at hon
      exact ⟨e, if_pos rfl, hbegins hon⟩
    · rw [Function.update_of_ne (Ne.symm hse)] at hon
      rw [if_neg hse]
      exact hs.onDuty s hon
  · intro s hoff a ha
    dsimp only at hoff ha
    rw [lastOf_ofStaff_append] at ha
    by_cases hse : e.staffId = s
    · subst hse
      rw [Function.update_self, decide_eq_false_iff_not] at hoff
      rw [if_pos rfl] at ha
      cases ha
      exact (hself.resolve_left fun h => hoff h.1)
    · rw [Function.update_of_ne (Ne.symm hse)] at hoff
      rw [if_neg hse] at ha
      exact hs.offDuty s hoff a ha
  · intro s o a ha hbeg
    dsimp only at ha ⊢
    rw [latestAt_append] at ha
    rw [lastOf_ofStaff_append]
    by_cases hse : e.staffId = s
    · subst hse
      rw [if_pos rfl]
      by_cases ho : e.outletId = o
      · rwa [if_pos ⟨rfl, ho⟩] at ha
      · rw [if_neg fun h => ho h.2] at ha
        exact absurd hbeg (hothers o a (Ne.symm ho) ha)
    · rw [if_neg fun h => hse h.1] at ha
      rw [if_neg hse]
      exact hs.elsewhere s o a ha hbeg

/-! ### The operations -/

/-- A clock-out comes from where the staff member is in. -/
def clocksOutWhereIn (w : World) : Op → Bool
  | .login _ _ _ _ => true
  | .clockOut staff _ _ => (latest w staff.id).all fun e =>
      !(e.type = .clockIn) || e.outletId = staff.outletId

theorem Sound.tick (hs : Sound localDateKey day r) (hlater : r.clock < now) :
    Sound localDateKey day { r with clock := now } :=
  ⟨hs.ascending, fun e he => (hs.past e he).trans hlater.le, hs.today, hs.onDuty, hs.offDuty,
    hs.elsewhere⟩

theorem login_sound {w' : World} {staff : PosPrincipal} (hs : Sound localDateKey day r)
    (hlater : r.clock < now) (htoday : Today localDateKey day r.world.outlets now)
    (h : login localDateKey r.world staffId outletId id now = .ok (w', staff)) :
    Sound localDateKey day ⟨w', Function.update r.onDuty staffId true, now⟩ := by
  obtain ⟨member, -, h⟩ := bind_ok h
  obtain ⟨o, ho, h⟩ := bind_ok h
  obtain ⟨⟨⟩, -, h⟩ := bind_ok h
  cases h
  have ho := orElseThrow_ok ho
  have hmem := List.mem_of_find?_eq_some ho
  have hlatest := latest_eq hs.ascending staffId
  unfold recordClockInIfNeeded
  split
  case isTrue hopen =>
      -- Their clock-in of today is still open, so they were in already.
      rw [hlatest, Option.any_eq_true] at hopen
      obtain ⟨e, he, hin⟩ := hopen
      have hon : r.onDuty staffId = true := by
        by_contra hoff
        have hout := hs.offDuty staffId (Bool.eq_false_iff.mpr hoff) e he
        simp [hout] at hin
      have hsame : Function.update r.onDuty staffId true = r.onDuty := by
        rw [Function.update_eq_self_iff, hon]
      rw [hsame]
      exact hs.tick hlater
  case isFalse hnew =>
      have hexists : ∃ o', r.world.outlets.find? (·.id = o.id) = some o' := by
        rw [← Option.isSome_iff_exists, List.find?_isSome]
        exact ⟨o, hmem, decide_eq_true rfl⟩
      have happend := hs.append (e := ⟨id, staffId, o.id, .clockIn, now⟩) hlater htoday
        (.inl ⟨rfl, hexists⟩) ?_
      · simpa using happend
      · -- An open clock-in of today, at whatever outlet, would have been enough.
        intro o' e' _ he' hbeg
        have hlast := hs.elsewhere _ o' e' he' hbeg
        have hday := hs.today e' (lastOf_mem hlast) hbeg o hmem
        refine hnew ?_
        rw [hlatest, hlast, Option.any_some, Bool.and_eq_true, decide_eq_true_eq,
          decide_eq_true_eq, hday, htoday o hmem]
        exact ⟨hbeg.1, rfl⟩

theorem clockOut_sound {w' : World} {staff : PosPrincipal} {created : ClockEvent}
    (hs : Sound localDateKey day r) (hlater : r.clock < now)
    (htoday : Today localDateKey day r.world.outlets now)
    (hwhere : clocksOutWhereIn r.world (.clockOut staff id now) = true)
    (h : clockOut r.world staff id now = .ok (w', created)) :
    Sound localDateKey day ⟨w', Function.update r.onDuty staff.id false, now⟩ := by
  obtain ⟨e, he, h⟩ := bind_ok h
  obtain ⟨⟨⟩, htype, h⟩ := bind_ok h
  cases h
  have he := orElseThrow_ok he
  have hin := check_ok htype
  have houtlet : e.outletId = staff.outletId := by simpa [clocksOutWhereIn, he, hin] using hwhere
  rw [latest_eq hs.ascending] at he
  have happend := hs.append (e := ⟨id, staff.id, staff.outletId, .clockOut, now⟩) hlater htoday
    (.inr rfl) ?_
  · simpa using happend
  · intro o' e' hne he' hbeg
    have hlast := hs.elsewhere _ o' e' he' hbeg
    rw [he] at hlast
    cases hlast
    exact hne ((latestAt_outletId he').symm.trans houtlet)

theorem handle_sound {op : Op} (hs : Sound localDateKey day r) (hlater : r.clock < op.now)
    (htoday : Today localDateKey day r.world.outlets op.now)
    (hwhere : clocksOutWhereIn r.world op = true) :
    Sound localDateKey day (r.handle localDateKey op) := by
  unfold Roster.handle
  cases hout : op.outcome localDateKey r.world with
  | error e => exact hs.tick hlater
  | ok w' =>
      cases op with
      | login staffId outletId id now =>
          obtain ⟨⟨_, staff⟩, hlogin, rfl⟩ := map_ok hout
          exact login_sound hs hlater htoday hlogin
      | clockOut staff id now =>
          obtain ⟨⟨_, created⟩, hclock, rfl⟩ := map_ok hout
          exact clockOut_sound hs hlater htoday hwhere hclock

theorem clockOut_isOk {w : World} {staff : PosPrincipal} :
    (clockOut w staff id now).isOk = true ↔ ∃ e, latest w staff.id = some e ∧ e.type = .clockIn := by
  constructor
  · intro h
    obtain ⟨e, he, h⟩ := Serial.isOk_bind.mp h
    obtain ⟨⟨⟩, hin, -⟩ := Serial.isOk_bind.mp h
    exact ⟨e, orElseThrow_ok he, check_ok hin⟩
  · rintro ⟨e, he, hin⟩
    unfold clockOut
    rw [he]
    refine Serial.isOk_bind.mpr ⟨e, rfl, Serial.isOk_bind.mpr ⟨(), Serial.check_of hin, rfl⟩⟩

variable (localDateKey day) in
/-- A log before the day's first operation: nothing of it is of today, and nobody's clock-in
was left open. -/
structure NewDay (w : World) (clock : ℤ) : Prop where
  ascending : w.clockEvents.Pairwise (·.occurredAt < ·.occurredAt)
  past : ∀ e ∈ w.clockEvents, e.occurredAt ≤ clock
  earlier : ∀ e ∈ w.clockEvents, ¬BeginsToday localDateKey day w.outlets e
  closed : ∀ s e, latest w s = some e → e.type = .clockOut

theorem NewDay.sound {clock : ℤ} (h : NewDay localDateKey day w clock) :
    Sound localDateKey day ⟨w, fun _ => false, clock⟩ where
  ascending := h.ascending
  past := h.past
  today e he hbeg := absurd hbeg (h.earlier e he)
  onDuty s hon := absurd hon Bool.false_ne_true
  offDuty s _ e he := h.closed s e (by rwa [latest_eq h.ascending])
  elsewhere s o e he hbeg := absurd hbeg (h.earlier e (lastOf_mem he))

/-- Who is in is listed at one outlet, and who is not at none. -/
theorem Sound.lists (hs : Sound localDateKey day r) (hfits : DayFits localDateKey day)
    (htoday : Today localDateKey day r.world.outlets t) (s : ℕ) :
    (r.onDuty s = true → ∃! o, Lists localDateKey localeCompare r.world t s o) ∧
      (r.onDuty s = false → ∀ o, ¬Lists localDateKey localeCompare r.world t s o) := by
  have hiff : ∀ o, Lists localDateKey localeCompare r.world t s o ↔ _ := fun o =>
    lists_iff hs.ascending hfits htoday
  constructor
  · intro hon
    obtain ⟨e, he, hbeg⟩ := hs.onDuty s hon
    refine ⟨e.outletId, (hiff _).mpr ⟨e, ?_, hbeg⟩, fun o ho => ?_⟩
    · exact lastOf_and he (decide_eq_true rfl)
    · obtain ⟨e', he', hbeg'⟩ := (hiff o).mp ho
      have hsame := hs.elsewhere s o e' he' hbeg'
      rw [he] at hsame
      cases hsame
      exact (latestAt_outletId he').symm
  · intro hoff o ho
    obtain ⟨e, he, hbeg⟩ := (hiff o).mp ho
    have hout := hs.offDuty s hoff e (hs.elsewhere s o e he hbeg)
    rw [hbeg.1] at hout
    cases hout

theorem Sound.clockOut_isOk (hs : Sound localDateKey day r) {staff : PosPrincipal} :
    (clockOut r.world staff id now).isOk = true ↔ r.onDuty staff.id = true := by
  rw [Attendance.clockOut_isOk, latest_eq hs.ascending]
  constructor
  · rintro ⟨e, he, hin⟩
    by_contra hoff
    have hout := hs.offDuty staff.id (Bool.eq_false_iff.mpr hoff) e he
    rw [hin] at hout
    cases hout
  · intro hon
    obtain ⟨e, he, hbeg⟩ := hs.onDuty staff.id hon
    exact ⟨e, he, hbeg.1⟩

end Day

/-- An operation of the day, later than the one before it. -/
def OfDay (localDateKey : ℤ → String → String) (day : String → String) (r : Roster) (op : Op) :
    Prop :=
  r.clock < op.now ∧ Today localDateKey day r.world.outlets op.now

instance (localDateKey : ℤ → String → String) (day : String → String) (r : Roster) (op : Op) :
    Decidable (OfDay localDateKey day r op) :=
  inferInstanceAs (Decidable (_ ∧ _))

/-- As long as everybody clocks out where they are in, signing in puts a person on one outlet's
list and clocking out takes them off every list, and it is accepted from those who are on one. -/
theorem attendance_agrees {localDateKey : ℤ → String → String}
    {localeCompare : String → String → ℤ} {day : String → String} {w : World} {clock : ℤ}
    {ops : List Op} {r : Roster} (hfits : DayFits localDateKey day)
    (hnew : NewDay localDateKey day w clock)
    (h : Serial.Run (fun r op r' => r' = r.handle localDateKey op)
      (fun r op => OfDay localDateKey day r op ∧ clocksOutWhereIn r.world op = true)
      ⟨w, fun _ => false, clock⟩ ops r) {t : ℤ} (ht : Today localDateKey day r.world.outlets t)
    (s : ℕ) :
    (r.onDuty s = true → ∃! o, Lists localDateKey localeCompare r.world t s o) ∧
      (r.onDuty s = false → ∀ o, ¬Lists localDateKey localeCompare r.world t s o) ∧
      ∀ outletId id now, (clockOut r.world ⟨s, outletId⟩ id now).isOk = true ↔
        ∃ o, Lists localDateKey localeCompare r.world t s o := by
  have hs : Sound localDateKey day r := by
    refine h.preserves (fun r op r' hs hC hstep => ?_) hnew.sound
    subst hstep
    exact handle_sound hs hC.1.1 hC.1.2 hC.2
  obtain ⟨hon, hoff⟩ : _ ∧ (_ → ∀ o, ¬Lists localDateKey localeCompare r.world t s o) :=
    hs.lists hfits ht s
  refine ⟨hon, hoff, fun outletId id now => ?_⟩
  rw [hs.clockOut_isOk]
  constructor
  · exact fun h => (hon h).exists
  · rintro ⟨o, ho⟩
    by_contra h
    exact hoff (Bool.eq_false_iff.mpr h) o ho

/-! ### A clock-out at another outlet -/

/-- A platform on which the first day is one day in every timezone. -/
def firstDayKey (t : ℤ) (_ : String) : String :=
  if 0 ≤ t ∧ t < 24 * 60 * 60 * 1000 then "1970-01-01" else "another day"

def compareNames (a b : String) : ℤ := if a ≤ b then 0 else 1

def firstDay (_ : String) : String := "1970-01-01"

theorem dayFits_firstDay : DayFits firstDayKey firstDay := by
  have key : ∀ t timezone, firstDayKey t timezone = firstDay timezone →
      0 ≤ t ∧ t < 24 * 60 * 60 * 1000 := by
    intro t timezone h
    by_contra hout
    rw [firstDayKey, if_neg hout] at h
    exact absurd h (show "another day" ≠ "1970-01-01" by decide)
  intro t t' timezone ht ht'
  have := key t timezone ht
  have := key t' timezone ht'
  unfold lookbackMs
  omega

/-- Two outlets and somebody who works at both. -/
def twoOutlets : World where
  outlets := [⟨1, "Harbour", "Asia/Kolkata", none⟩, ⟨2, "Station", "Asia/Kolkata", none⟩]
  staff := [⟨7, "Asha", []⟩]
  clockEvents := []

theorem newDay_twoOutlets : NewDay firstDayKey firstDay twoOutlets 0 := by
  constructor <;> simp [twoOutlets, latest, newestFirst]

/-- In and out at the first outlet, then in at the second. -/
def movedOn : List Op :=
  [.login 7 1 1 1000, .clockOut ⟨7, 1⟩ 2 2000, .login 7 2 3 3000]

theorem attendance_agrees_movedOn : ∃! o, Lists firstDayKey compareNames
    (movedOn.foldl (Roster.handle firstDayKey) ⟨twoOutlets, fun _ => false, 0⟩).world 4000 7 o :=
  have hrun := Serial.Run.of_foldl (show Serial.allowed (Roster.handle firstDayKey)
    (fun r op => decide (OfDay firstDayKey firstDay r op ∧ clocksOutWhereIn r.world op = true))
    ⟨twoOutlets, fun _ => false, 0⟩ movedOn = true by decide)
  (attendance_agrees dayFits_firstDay newDay_twoOutlets
    (hrun.mono fun _ _ h => of_decide_eq_true h) (t := 4000) (by decide) 7).1 rfl

/-- In at the first outlet, signed in at the second as well, and out from there. -/
def outElsewhere : List Op :=
  [.login 7 1 1 1000, .login 7 2 2 2000, .clockOut ⟨7, 2⟩ 3 3000]

def afterOutElsewhere : Roster :=
  outElsewhere.foldl (Roster.handle firstDayKey) ⟨twoOutlets, fun _ => false, 0⟩

/-- Clocked out, and still listed where the day began; a second clock-out is refused. -/
theorem listed_after_clockOut : DayFits firstDayKey firstDay ∧
    NewDay firstDayKey firstDay twoOutlets 0 ∧
    Serial.Run (fun r op r' => r' = r.handle firstDayKey op) (OfDay firstDayKey firstDay)
      ⟨twoOutlets, fun _ => false, 0⟩ outElsewhere afterOutElsewhere ∧
    afterOutElsewhere.onDuty 7 = false ∧
    Lists firstDayKey compareNames afterOutElsewhere.world 4000 7 1 ∧
    (clockOut afterOutElsewhere.world ⟨7, 1⟩ 4 4000).isOk = false := by
  have hrun := Serial.Run.of_foldl (show Serial.allowed (Roster.handle firstDayKey)
    (fun r op => decide (OfDay firstDayKey firstDay r op)) ⟨twoOutlets, fun _ => false, 0⟩
    outElsewhere = true by decide)
  refine ⟨dayFits_firstDay, newDay_twoOutlets, hrun.mono fun _ _ h => of_decide_eq_true h, rfl,
    ⟨_, rfl, ⟨7, "Asha", 1000⟩, ?_, rfl⟩, by decide⟩
  decide

end RestiqBackend.Attendance
