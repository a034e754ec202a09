import Mathlib.Data.List.Nodup
import Mathlib.Data.List.Pairwise
import RestiqBackend.SyncHealth

/-!
One alert for each silence of a device.

A silence is told by the contact it began with. `Took` says what each event does; the records
of alerts are tied to the calls that wait for them, and, as long as calls look at devices as
they are, every record of the silence a device is in is protected by a mark later than its
contact, so that nobody alerts for it again.
-/

namespace RestiqBackend.SyncHealth

/-! ### What an event does -/

/-- The devices a call has still to look at, the one it waits for included. -/
def Stage.devices : Stage → List Device
  | .answered devices => devices
  | .looping rest => rest
  | .delivering d rest => d :: rest
  | .reading | .returned | .threw => []

/-- What an event that happens makes of a process. -/
inductive Took (p : Process) : Event → Process → Prop
  | tick (elapsed : ℕ) : Took p (.tick elapsed) { p with clock := p.clock + elapsed }
  | heartbeat (deviceId : ℕ) : Took p (.heartbeat deviceId) (p.act (.heartbeat deviceId))
  | begin {e : Event} {sweeping : Bool} {call : Call} (h : call.stage = .reading)
      (hseen : call.seen = []) (he : e = .list call.query ∨ e = .sweep) :
      Took p e { p with sweeping, calls := p.calls ++ [call] }
  | read {i : ℕ} {call : Call} (h : p.calls[i]? = some call) (hstage : call.stage = .reading) :
      Took p (.read i) (p.setCall i { call with stage := .answered (p.find call.query) })
  | readFails {i : ℕ} {call : Call} (h : p.calls[i]? = some call)
      (hstage : call.stage = .reading) :
      Took p (.readFails i) ((p.setCall i { call with stage := .threw }).release call)
  | resume {i : ℕ} {call : Call} {devices : List Device} (h : p.calls[i]? = some call)
      (hstage : call.stage = .answered devices) :
      Took p (.resume i) { (p.purge call.query devices).setCall i
        { call with stage := .looping devices, now := p.clock, seen := devices } with
          running := some i }
  | finish {i : ℕ} {call : Call} (h : p.calls[i]? = some call) (hstage : call.stage = .looping []) :
      Took p (.step i) ((p.setCall i { call with stage := .returned }).release call)
  | clear {i : ℕ} {call : Call} {d : Device} {rest : List Device} (h : p.calls[i]? = some call)
      (hstage : call.stage = .looping (d :: rest)) (hsev : d.severity call.now ≠ .silent) :
      Took p (.step i) ((p.setMark d.id none).setCall i
        { call with stage := .looping rest, rows := call.rows ++ [d.row call.now] })
  | alert {i : ℕ} {call : Call} {d : Device} {rest : List Device} (h : p.calls[i]? = some call)
      (hstage : call.stage = .looping (d :: rest)) (hsev : d.severity call.now = .silent)
      (hdue : alertDue d.effectiveLastContact (p.lastAlertedAt d.id) = true) :
      Took p (.step i) { (p.setMark d.id (some call.now)).setCall i
        { call with stage := .delivering d rest } with
          running := none
          alerts := p.alerts ++ [⟨i, d, call.now, false⟩] }
  | pass {i : ℕ} {call : Call} {d : Device} {rest : List Device} (h : p.calls[i]? = some call)
      (hstage : call.stage = .looping (d :: rest)) (hsev : d.severity call.now = .silent)
      (hdue : alertDue d.effectiveLastContact (p.lastAlertedAt d.id) = false) :
      Took p (.step i) (p.setCall i
        { call with stage := .looping rest, rows := call.rows ++ [d.row call.now] })
  | delivered {i : ℕ} {call : Call} {d : Device} {rest : List Device}
      (h : p.calls[i]? = some call) (hstage : call.stage = .delivering d rest) :
      Took p (.delivered i) { p.setCall i
        { call with stage := .looping rest, rows := call.rows ++ [d.row call.now] } with
          running := some i
          alerts := p.alerts.map fun r => if r.call = i then { r with delivered := true } else r }
  | failed {i : ℕ} {call : Call} {d : Device} {rest : List Device}
      (h : p.calls[i]? = some call) (hstage : call.stage = .delivering d rest) :
      Took p (.failed i)
        { ((p.setMark d.id none).setCall i { call with stage := .threw }).release call with
          alerts := p.alerts.filter fun r => r.call ≠ i ∨ r.delivered = true }

theorem act_took (p : Process) (e : Event) : p.act e = p ∨ Took p e (p.act e) := by
  cases e with
  | tick elapsed => exact .inr (.tick elapsed)
  | heartbeat deviceId => exact .inr (.heartbeat deviceId)
  | list query => exact .inr (.begin rfl rfl (.inl rfl))
  | sweep =>
      simp only [Process.act]
      split
      · exact .inl rfl
      · exact .inr (.begin rfl rfl (.inr rfl))
  | read i =>
      simp only [Process.act]
      split
      · rename_i call h
        split
        · exact .inr (.read h ‹_›)
        · exact .inl rfl
      · exact .inl rfl
  | readFails i =>
      simp only [Process.act]
      split
      · rename_i call h
        split
        · exact .inr (.readFails h ‹_›)
        · exact .inl rfl
      · exact .inl rfl
  | resume i =>
      simp only [Process.act]
      split
      · rename_i call h
        split
        · exact .inr (.resume h ‹_›)
        · exact .inl rfl
      · exact .inl rfl
  | step i =>
      simp only [Process.act]
      split
      · rename_i call h
        split
        · exact .inr (.finish h ‹_›)
        · rename_i d rest hstage
          refine .inr ?_
          unfold Process.look
          split
          · exact .clear h hstage ‹_›
          · rename_i hsev
            dsimp only
            split
            · exact .alert h hstage (not_not.mp hsev) ‹_›
            · exact .pass h hstage (not_not.mp hsev) (Bool.eq_false_iff.mpr ‹_›)
        · exact .inl rfl
      · exact .inl rfl
  | delivered i =>
      simp only [Process.act]
      split
      · rename_i call h
        split
        · exact .inr (.delivered h ‹_›)
        · exact .inl rfl
      · exact .inl rfl
  | failed i =>
      simp only [Process.act]
      split
      · rename_i call h
        split
        · exact .inr (.failed h ‹_›)
        · exact .inl rfl
      · exact .inl rfl

theorem handle_took (p : Process) (e : Event) : p.handle e = p ∨ Took p e (p.handle e) := by
  unfold Process.handle
  split
  · exact act_took p e
  · exact .inl rfl

/-! ### Calls, copies and records -/

/-- What a call was given of a device: the device as it is, or as it was before heartbeats. -/
def IsCopy (devices : List Device) (d : Device) : Prop :=
  ∃ cur ∈ devices, cur.active = true ∧ cur.id = d.id ∧ cur.enrolledAt = d.enrolledAt ∧
    d.effectiveLastContact ≤ cur.effectiveLastContact

def Stage.Started : Stage → Prop
  | .looping _ | .delivering _ _ => True
  | .reading | .answered _ | .returned | .threw => False

@[simp] def Stage.Delivering : Stage → Prop
  | .delivering _ _ => True
  | .reading | .answered _ | .looping _ | .returned | .threw => False

structure Call.Fine (devices : List Device) (clock : ℤ) (call : Call) : Prop where
  copies : ∀ d ∈ call.stage.devices, IsCopy devices d
  once : (call.stage.devices.map (·.id)).Nodup
  complete : call.query.tenantId = none → ∀ answer, call.stage = .answered answer →
    ∀ cur ∈ devices, cur.active = true → cur.id ∈ answer.map (·.id)
  now : call.stage.Started → call.now ≤ clock

/-- The records of undelivered alerts are those that calls wait for. -/
structure Linked (p : Process) : Prop where
  pkey : (p.devices.map (·.id)).Nodup
  past : ∀ d ∈ p.devices, d.effectiveLastContact ≤ p.clock
  calls : ∀ call ∈ p.calls, call.Fine p.devices p.clock
  records : ∀ r ∈ p.alerts, IsCopy p.devices r.device ∧
    r.device.effectiveLastContact < r.now ∧ r.now ≤ p.clock
  pending : ∀ r ∈ p.alerts, r.delivered = false → ∃ call rest, p.calls[r.call]? = some call ∧
    call.stage = .delivering r.device rest ∧ call.now = r.now
  awaited : ∀ i call d rest, p.calls[i]? = some call → call.stage = .delivering d rest →
    ⟨i, d, call.now, false⟩ ∈ p.alerts

variable {p p' : Process} {e : Event} {i : ℕ} {call call' : Call} {d : Device}

theorem getElem?_set (h : p.calls[i]? = some call) (j : ℕ) :
    (p.calls.set i call')[j]? = if i = j then some call' else p.calls[j]? := by
  obtain ⟨hlt, -⟩ := List.getElem?_eq_some_iff.mp h
  rw [List.getElem?_set, if_pos hlt]

theorem getElem?_concat_of {c : Call} {j : ℕ} (h : p.calls[j]? = some c) :
    (p.calls ++ [call])[j]? = some c := by
  obtain ⟨hlt, -⟩ := List.getElem?_eq_some_iff.mp h
  rw [List.getElem?_append_left hlt, h]

theorem getElem?_concat {c : Call} {j : ℕ} (h : (p.calls ++ [call])[j]? = some c) :
    p.calls[j]? = some c ∨ c = call := by
  rw [List.getElem?_append] at h
  split at h
  · exact .inl h
  · exact .inr (List.mem_singleton.mp (List.mem_of_getElem? h))

theorem lt_of_silent {now : ℤ} (h : d.severity now = .silent) : d.effectiveLastContact < now := by
  unfold Device.severity classifySeverity at h
  split at h
  · rename_i hlag
    unfold Device.lagSeconds silentThresholdSeconds at hlag
    omega
  · split at h <;> cases h

theorem Linked.device_ext (h : Linked p) {a b : Device} (ha : a ∈ p.devices) (hb : b ∈ p.devices)
    (hid : a.id = b.id) : a = b :=
  List.inj_on_of_nodup_map h.pkey ha hb hid

/-- A call that goes on and waits for no alert, before or after. -/
theorem Linked.goesOn (h : Linked p) (hi : p.calls[i]? = some call) (call' : Call)
    (hstage : ¬call.stage.Delivering) (hstage' : ¬call'.stage.Delivering)
    (hcall : call'.Fine p.devices p.clock) (hcalls : p'.calls = p.calls.set i call')
    (hdevices : p'.devices = p.devices) (hclock : p'.clock = p.clock)
    (halerts : p'.alerts = p.alerts) : Linked p' := by
  refine ⟨hdevices ▸ h.pkey, ?_, ?_, ?_, ?_, ?_⟩
  · rw [hdevices, hclock]
    exact h.past
  · rw [hdevices, hclock, hcalls]
    intro c hc
    rcases List.mem_or_eq_of_mem_set hc with hc | rfl
    · exact h.calls c hc
    · exact hcall
  · rw [hdevices, hclock, halerts]
    exact h.records
  · rw [halerts, hcalls]
    intro r hr hpend
    obtain ⟨c, rest, hc, hdel, hnow⟩ := h.pending r hr hpend
    refine ⟨c, rest, ?_, hdel, hnow⟩
    rw [getElem?_set hi, if_neg]
    · exact hc
    · rintro rfl
      rw [hi] at hc
      cases hc
      exact hstage (hdel ▸ trivial)
  · rw [halerts, hcalls]
    intro j c d rest hj hdel
    rw [getElem?_set hi] at hj
    split at hj
    · cases hj
      exact hstage'.elim (hdel ▸ trivial)
    · exact h.awaited j c d rest hj hdel

theorem Call.Fine.of_devices {devices : List Device} {clock : ℤ} (h : call.Fine devices clock)
    (hmem : ∀ d ∈ call'.stage.devices, d ∈ call.stage.devices)
    (honce : (call'.stage.devices.map (·.id)).Nodup)
    (hanswer : ∀ answer, call'.stage ≠ .answered answer)
    (hnow : call'.stage.Started → call'.now ≤ clock) : call'.Fine devices clock :=
  ⟨fun d hd => h.copies d (hmem d hd), honce, fun _ answer ha => absurd ha (hanswer answer), hnow⟩

/-- A call that ended has nothing more to look at. -/
theorem Call.Fine.ended {devices : List Device} {clock : ℤ}
    (hstage : call'.stage = .returned ∨ call'.stage = .threw) : call'.Fine devices clock := by
  rcases hstage with hstage | hstage <;>
    constructor <;> simp [hstage, Stage.devices, Stage.Started]

theorem mem_find {query : Query} : d ∈ p.find query ↔
    d ∈ p.devices ∧ d.active = true ∧ ∀ t ∈ query.tenantId, d.tenantId = t := by
  simp [Process.find, Option.all_eq_true]

/-! ### Heartbeats -/

/-- A device after a heartbeat of the given one. -/
def Device.beat (d : Device) (deviceId : ℕ) (clock : ℤ) : Device :=
  if d.id = deviceId ∧ d.active then { d with lastContactAt := some clock } else d

theorem act_heartbeat (deviceId : ℕ) : p.act (.heartbeat deviceId) =
    { p with devices := p.devices.map (·.beat deviceId p.clock) } := rfl

section Beat

variable {deviceId : ℕ} {clock : ℤ}

@[simp] theorem beat_id : (d.beat deviceId clock).id = d.id := by
  unfold Device.beat
  split <;> rfl

@[simp] theorem beat_active : (d.beat deviceId clock).active = d.active := by
  unfold Device.beat
  split <;> rfl

@[simp] theorem beat_enrolledAt : (d.beat deviceId clock).enrolledAt = d.enrolledAt := by
  unfold Device.beat
  split <;> rfl

/-- A heartbeat leaves the contact of a device, or sets it to the time it is. -/
theorem beat_contact (d : Device) (deviceId : ℕ) (clock : ℤ) :
    (d.beat deviceId clock).effectiveLastContact = d.effectiveLastContact ∨
      (d.id = deviceId ∧ (d.beat deviceId clock).effectiveLastContact = clock) := by
  unfold Device.beat
  split
  · exact .inr ⟨(‹_ ∧ _› : d.id = deviceId ∧ _).1, rfl⟩
  · exact .inl rfl

theorem le_beat_contact (h : d.effectiveLastContact ≤ clock) :
    d.effectiveLastContact ≤ (d.beat deviceId clock).effectiveLastContact := by
  rcases beat_contact d deviceId clock with heq | ⟨-, heq⟩
  · exact heq.ge
  · rw [heq]
    exact h

theorem IsCopy.beat (h : IsCopy p.devices d) (hpast : ∀ d ∈ p.devices, d.effectiveLastContact ≤ clock) :
    IsCopy (p.devices.map (·.beat deviceId clock)) d := by
  obtain ⟨cur, hcur, hactive, hid, henrolled, hle⟩ := h
  refine ⟨cur.beat deviceId clock, List.mem_map_of_mem hcur, ?_, ?_, ?_, ?_⟩
  · rw [beat_active, hactive]
  · rw [beat_id, hid]
  · rw [beat_enrolledAt, henrolled]
  · exact hle.trans (le_beat_contact (hpast cur hcur))

end Beat

theorem Linked.heartbeat (h : Linked p) (deviceId : ℕ) : Linked (p.act (.heartbeat deviceId)) := by
  rw [act_heartbeat]
  refine ⟨?_, ?_, ?_, ?_, h.pending, h.awaited⟩
  · have hids : (p.devices.map (·.beat deviceId p.clock)).map (·.id) = p.devices.map (·.id) := by
      simp [List.map_map, Function.comp_def]
    exact hids ▸ h.pkey
  · intro d hd
    obtain ⟨cur, hcur, rfl⟩ := List.mem_map.mp hd
    rcases beat_contact cur deviceId p.clock with heq | ⟨-, heq⟩
    · rw [heq]
      exact h.past cur hcur
    · exact heq.le
  · intro c hc
    have hfine := h.calls c hc
    refine ⟨fun d hd => (hfine.copies d hd).beat h.past, hfine.once, ?_, hfine.now⟩
    intro hall answer hanswer cur' hcur' hactive
    obtain ⟨cur, hcur, rfl⟩ := List.mem_map.mp hcur'
    rw [beat_active] at hactive
    rw [beat_id]
    exact hfine.complete hall answer hanswer cur hcur hactive
  · intro r hr
    obtain ⟨hcopy, hrest⟩ := h.records r hr
    exact ⟨hcopy.beat h.past, hrest⟩

theorem Linked.tick (h : Linked p) (elapsed : ℕ) :
    Linked { p with clock := p.clock + elapsed } := by
  have hle : p.clock ≤ p.clock + elapsed := by omega
  refine ⟨h.pkey, fun d hd => (h.past d hd).trans hle, fun c hc => ?_, fun r hr => ?_, h.pending,
    h.awaited⟩
  · have hfine := h.calls c hc
    exact ⟨hfine.copies, hfine.once, hfine.complete, fun hs => (hfine.now hs).trans hle⟩
  · obtain ⟨hcopy, hlt, hnow⟩ := h.records r hr
    exact ⟨hcopy, hlt, hnow.trans hle⟩

/-- Starting a call is adding one that has nothing to look at yet. -/
theorem Linked.begin (h : Linked p) {sweeping : Bool} (hstage : call.stage = .reading) :
    Linked { p with sweeping, calls := p.calls ++ [call] } := by
  refine ⟨h.pkey, h.past, ?_, h.records, ?_, ?_⟩
  · intro c hc
    rcases List.mem_append.mp hc with hc | hc
    · exact h.calls c hc
    · rw [List.mem_singleton.mp hc]
      constructor <;> simp [hstage, Stage.devices, Stage.Started]
  · intro r hr hpend
    obtain ⟨c, rest, hc, hdel, hnow⟩ := h.pending r hr hpend
    exact ⟨c, rest, getElem?_concat_of hc, hdel, hnow⟩
  · intro j c d rest hj hdel
    rcases getElem?_concat hj with hj | rfl
    · exact h.awaited j c d rest hj hdel
    · rw [hstage] at hdel
      cases hdel

/-! ### Alerts -/

theorem Linked.alert (h : Linked p) {rest : List Device} (hi : p.calls[i]? = some call)
    (hstage : call.stage = .looping (d :: rest)) (hsev : d.severity call.now = .silent) :
    Linked { (p.setMark d.id (some call.now)).setCall i { call with stage := .delivering d rest } with
      running := none
      alerts := p.alerts ++ [⟨i, d, call.now, false⟩] } := by
  have hfine := h.calls call (List.mem_of_getElem? hi)
  have hnow : call.now ≤ p.clock := hfine.now (by rw [hstage]; trivial)
  have hdev : call.stage.devices = d :: rest := by rw [hstage]; rfl
  refine ⟨h.pkey, h.past, ?_, ?_, ?_, ?_⟩
  · intro c hc
    rcases List.mem_or_eq_of_mem_set hc with hc | rfl
    · exact h.calls c hc
    · have honce := hfine.once
      rw [hdev] at honce
      exact hfine.of_devices (fun x hx => hdev ▸ hx) honce nofun fun _ => hnow
  · intro r hr
    rcases List.mem_append.mp hr with hr | hr
    · exact h.records r hr
    · rw [List.mem_singleton.mp hr]
      exact ⟨hfine.copies d (hdev ▸ List.mem_cons_self), lt_of_silent hsev, hnow⟩
  · intro r hr hpend
    rcases List.mem_append.mp hr with hr | hr
    · obtain ⟨c, rest', hc, hdel, hcnow⟩ := h.pending r hr hpend
      refine ⟨c, rest', (getElem?_set hi _).trans ((if_neg ?_).trans hc), hdel, hcnow⟩
      rintro rfl
      rw [hi] at hc
      cases hc
      rw [hstage] at hdel
      cases hdel
    · rw [List.mem_singleton.mp hr]
      exact ⟨_, rest, (getElem?_set hi _).trans (if_pos rfl), rfl, rfl⟩
  · intro j c d' rest' hj hdel
    rw [show ((p.setMark d.id (some call.now)).setCall i _).calls = p.calls.set i _ from rfl,
      getElem?_set hi] at hj
    split at hj
    · cases hj
      cases hdel
      subst i
      exact List.mem_append_right _ (List.mem_singleton.mpr rfl)
    · exact List.mem_append_left _ (h.awaited j c d' rest' hj hdel)

theorem Linked.delivered (h : Linked p) {rest : List Device} (hi : p.calls[i]? = some call)
    (hstage : call.stage = .delivering d rest) :
    Linked { p.setCall i
        { call with stage := .looping rest, rows := call.rows ++ [d.row call.now] } with
      running := some i
      alerts := p.alerts.map fun r => if r.call = i then { r with delivered := true } else r } := by
  have hfine := h.calls call (List.mem_of_getElem? hi)
  have hdev : call.stage.devices = d :: rest := by rw [hstage]; rfl
  refine ⟨h.pkey, h.past, ?_, ?_, ?_, ?_⟩
  · intro c hc
    rcases List.mem_or_eq_of_mem_set hc with hc | rfl
    · exact h.calls c hc
    · refine hfine.of_devices (fun x hx => hdev ▸ List.mem_cons_of_mem d hx) ?_ nofun
        fun _ => hfine.now (by rw [hstage]; trivial)
      have honce := hfine.once
      rw [hdev, List.map_cons, List.nodup_cons] at honce
      exact honce.2
  · intro r' hr'
    obtain ⟨r, hr, rfl⟩ := List.mem_map.mp hr'
    split
    · exact h.records r hr
    · exact h.records r hr
  · intro r' hr' hpend
    obtain ⟨r, hr, rfl⟩ := List.mem_map.mp hr'
    split at hpend
    · cases hpend
    · rename_i hne
      rw [if_neg hne]
      obtain ⟨c, rest', hc, hdel, hcnow⟩ := h.pending r hr hpend
      exact ⟨c, rest', (getElem?_set hi _).trans ((if_neg (Ne.symm hne)).trans hc), hdel, hcnow⟩
  · intro j c d' rest' hj hdel
    rw [show (p.setCall i _).calls = p.calls.set i _ from rfl, getElem?_set hi] at hj
    split at hj
    · cases hj
      cases hdel
    · rename_i hne
      refine List.mem_map.mpr ⟨_, h.awaited j c d' rest' hj hdel, ?_⟩
      exact if_neg (Ne.symm hne)

theorem Linked.failed (h : Linked p) (hi : p.calls[i]? = some call) :
    Linked { ((p.setMark d.id none).setCall i { call with stage := .threw }).release call with
      alerts := p.alerts.filter fun r => r.call ≠ i ∨ r.delivered = true } := by
  refine ⟨h.pkey, h.past, ?_, ?_, ?_, ?_⟩
  · intro c hc
    rcases List.mem_or_eq_of_mem_set hc with hc | rfl
    · exact h.calls c hc
    · exact .ended (.inr rfl)
  · intro r hr
    exact h.records r (List.mem_of_mem_filter hr)
  · intro r hr hpend
    obtain ⟨hr, hkept⟩ := List.mem_filter.mp hr
    have hne : r.call ≠ i := by simpa [hpend] using hkept
    obtain ⟨c, rest', hc, hdel, hcnow⟩ := h.pending r hr hpend
    exact ⟨c, rest', (getElem?_set hi _).trans ((if_neg (Ne.symm hne)).trans hc), hdel, hcnow⟩
  · intro j c d' rest' hj hdel
    rw [show (((p.setMark d.id none).setCall i _).release call).calls = p.calls.set i _ from rfl,
      getElem?_set hi] at hj
    split at hj
    · cases hj
      cases hdel
    · rename_i hne
      refine List.mem_filter.mpr ⟨h.awaited j c d' rest' hj hdel, ?_⟩
      simpa using Ne.symm hne

theorem Linked.took (h : Linked p) (ht : Took p e p') : Linked p' := by
  cases ht with
  | tick elapsed => exact h.tick elapsed
  | heartbeat deviceId => exact h.heartbeat deviceId
  | begin hstage => exact h.begin hstage
  | @read i call hi hstage =>
      refine h.goesOn hi { call with stage := .answered (p.find call.query) } (by simp [hstage])
        (by simp) ⟨fun d hd => ?_, ?_, ?_, nofun⟩ rfl rfl rfl rfl
      · obtain ⟨hmem, hactive, -⟩ := mem_find.mp hd
        exact ⟨d, hmem, hactive, rfl, rfl, le_rfl⟩
      · exact (List.filter_sublist.map _).nodup h.pkey
      · intro hall answer hanswer cur hcur hactive
        cases hanswer
        refine List.mem_map_of_mem (mem_find.mpr ⟨hcur, hactive, fun t ht => ?_⟩)
        rw [show call.query.tenantId = none from hall] at ht
        cases ht
  | @readFails i call hi hstage =>
      exact h.goesOn hi { call with stage := .threw } (by simp [hstage]) (by simp)
        (.ended (.inr rfl)) rfl rfl rfl rfl
  | @resume i call devices hi hstage =>
      have hfine := h.calls call (List.mem_of_getElem? hi)
      have hdev : call.stage.devices = devices := by rw [hstage]; rfl
      have honce := hfine.once
      rw [hdev] at honce
      refine h.goesOn hi { call with stage := .looping devices, now := p.clock, seen := devices }
        (by simp [hstage]) (by simp)
        (hfine.of_devices (fun x hx => hdev ▸ hx) honce nofun fun _ => le_rfl) ?_ ?_ ?_ ?_ <;>
        (unfold Process.purge; split <;> rfl)
  | @finish i call hi hstage =>
      exact h.goesOn hi { call with stage := .returned } (by simp [hstage]) (by simp)
        (.ended (.inl rfl)) rfl rfl rfl rfl
  | @clear i call d rest hi hstage hsev | @pass i call d rest hi hstage =>
      have hfine := h.calls call (List.mem_of_getElem? hi)
      have hdev : call.stage.devices = d :: rest := by rw [hstage]; rfl
      have honce := hfine.once
      rw [hdev, List.map_cons, List.nodup_cons] at honce
      exact h.goesOn hi { call with stage := .looping rest, rows := call.rows ++ [d.row call.now] }
        (by simp [hstage]) (by simp)
        (hfine.of_devices (fun x hx => hdev ▸ List.mem_cons_of_mem d hx) honce.2 nofun
          fun _ => hfine.now (by rw [hstage]; trivial))
        rfl rfl rfl rfl
  | alert hi hstage hsev => exact h.alert hi hstage hsev
  | delivered hi hstage => exact h.delivered hi hstage
  | failed hi hstage => exact h.failed hi

theorem Linked.handle (h : Linked p) (e : Event) : Linked (p.handle e) := by
  rcases handle_took p e with heq | ht
  · rw [heq]
    exact h
  · exact h.took ht

/-! ### What the memory relies on -/

/-- The device that a call's loop comes to next. -/
def Process.next (p : Process) (i : ℕ) : Option (Call × Device) :=
  p.calls[i]?.bind fun call =>
    match call.stage with
    | .looping (d :: _) => some (call, d)
    | _ => none

/-- The device whose alert a call waits for. -/
def Process.awaited (p : Process) (i : ℕ) : Option (Call × Device) :=
  p.calls[i]?.bind fun call =>
    match call.stage with
    | .delivering d _ => some (call, d)
    | _ => none

/-- An alert goes out for a device whose last contact is still the one the call read. -/
def alertsAsIs (p : Process) : Event → Bool
  | .step i => (p.next i).all fun (call, d) =>
      d.severity call.now ≠ .silent || !alertDue d.effectiveLastContact (p.lastAlertedAt d.id) ||
        p.devices.all fun cur =>
          cur.id ≠ d.id || cur.effectiveLastContact = d.effectiveLastContact
  | _ => true

/-- A call that finds a device not silent forgets no mark that is later than what it read. -/
def clearsOlder (p : Process) : Event → Bool
  | .step i => (p.next i).all fun (call, d) => d.severity call.now = .silent ||
      (p.lastAlertedAt d.id).all fun mark => mark ≤ d.effectiveLastContact
  | _ => true

/-- A delivery that fails takes back its own mark. -/
def failsOwn (p : Process) : Event → Bool
  | .failed i => (p.awaited i).all fun (call, d) =>
      (p.lastAlertedAt d.id).all fun mark => mark = call.now
  | _ => true

/-- A heartbeat comes later than the mark of its device. -/
def beatsLater (p : Process) : Event → Bool
  | .heartbeat deviceId => (p.lastAlertedAt deviceId).all fun mark => mark < p.clock
  | _ => true

/-! ### No second alert -/

/-- Every record of the silence that a device is in is protected by a mark. -/
structure Once (p : Process) : Prop where
  since : ∀ r ∈ p.alerts, r.delivered = false → ∀ cur ∈ p.devices, cur.id = r.device.id →
    cur.effectiveLastContact = r.device.effectiveLastContact ∨ r.now ≤ cur.effectiveLastContact
  guarded : ∀ r ∈ p.alerts, ∀ cur ∈ p.devices, cur.id = r.device.id →
    cur.effectiveLastContact = r.device.effectiveLastContact →
    ∃ mark, p.lastAlertedAt cur.id = some mark ∧ cur.effectiveLastContact < mark
  distinct : p.alerts.Pairwise fun a b => a.device.id = b.device.id →
    a.device.effectiveLastContact ≠ b.device.effectiveLastContact

theorem Once.apart (h : Once p) {a b : AlertRecord} (ha : a ∈ p.alerts) (hb : b ∈ p.alerts)
    (hne : a ≠ b) (hid : a.device.id = b.device.id) :
    a.device.effectiveLastContact ≠ b.device.effectiveLastContact := by
  have hsymm : Std.Symm fun a b : AlertRecord => a.device.id = b.device.id →
      a.device.effectiveLastContact ≠ b.device.effectiveLastContact :=
    ⟨fun _ _ hab hba => (hab hba.symm).symm⟩
  exact h.distinct.forall ha hb hne hid

/-- What leaves devices, marks and records alone leaves it all. -/
theorem Once.congr (h : Once p) (hdevices : p'.devices = p.devices)
    (hmarks : p'.lastAlertedAt = p.lastAlertedAt) (halerts : p'.alerts = p.alerts) : Once p' := by
  refine ⟨?_, ?_, ?_⟩
  · rw [halerts, hdevices]
    exact h.since
  · rw [halerts, hdevices, hmarks]
    exact h.guarded
  · rw [halerts]
    exact h.distinct

theorem Once.heartbeat (h : Once p) (hl : Linked p) (deviceId : ℕ) :
    Once (p.act (.heartbeat deviceId)) := by
  rw [act_heartbeat]
  refine ⟨?_, ?_, h.distinct⟩
  · intro r hr hpend cur' hcur' hid
    obtain ⟨cur, hcur, rfl⟩ := List.mem_map.mp hcur'
    rw [beat_id] at hid
    rcases beat_contact cur deviceId p.clock with heq | ⟨-, heq⟩
    · rw [heq]
      exact h.since r hr hpend cur hcur hid
    · rw [heq]
      exact .inr (hl.records r hr).2.2
  · intro r hr cur' hcur' hid hsame
    obtain ⟨cur, hcur, rfl⟩ := List.mem_map.mp hcur'
    rw [beat_id] at hid ⊢
    rcases beat_contact cur deviceId p.clock with heq | ⟨-, heq⟩
    · rw [heq] at hsame ⊢
      exact h.guarded r hr cur hcur hid hsame
    · -- The alert was for a contact before now.
      obtain ⟨-, hlt, hnow⟩ := hl.records r hr
      rw [heq] at hsame
      omega

/-- Forgetting a mark that protects nothing. -/
theorem Once.unmark (h : Once p) (hfree : ∀ r ∈ p.alerts, ∀ cur ∈ p.devices,
    cur.id = r.device.id → cur.effectiveLastContact = r.device.effectiveLastContact →
      p'.lastAlertedAt cur.id = p.lastAlertedAt cur.id) (hdevices : p'.devices = p.devices)
    (halerts : p'.alerts = p.alerts) : Once p' := by
  refine ⟨?_, ?_, ?_⟩
  · rw [halerts, hdevices]
    exact h.since
  · rw [halerts, hdevices]
    intro r hr cur hcur hid hsame
    rw [hfree r hr cur hcur hid hsame]
    exact h.guarded r hr cur hcur hid hsame
  · rw [halerts]
    exact h.distinct

theorem next_eq {rest : List Device} (hi : p.calls[i]? = some call)
    (hstage : call.stage = .looping (d :: rest)) : p.next i = some (call, d) := by
  rw [Process.next, hi, Option.bind_some, hstage]

theorem awaited_eq {rest : List Device} (hi : p.calls[i]? = some call)
    (hstage : call.stage = .delivering d rest) : p.awaited i = some (call, d) := by
  rw [Process.awaited, hi, Option.bind_some, hstage]

/-- What a call has read of a device is no later than its last contact. -/
theorem Linked.le_contact (h : Linked p) (hi : p.calls[i]? = some call)
    (hd : d ∈ call.stage.devices) {cur : Device} (hcur : cur ∈ p.devices) (hid : cur.id = d.id) :
    d.effectiveLastContact ≤ cur.effectiveLastContact := by
  obtain ⟨cur₀, hcur₀, -, hid₀, -, hle⟩ := (h.calls call (List.mem_of_getElem? hi)).copies d hd
  rwa [h.device_ext hcur hcur₀ (hid.trans hid₀.symm)]

theorem Once.alert (h : Once p) {rest : List Device} (hsev : d.severity call.now = .silent)
    (hdue : alertDue d.effectiveLastContact (p.lastAlertedAt d.id) = true)
    (hasis : ∀ cur ∈ p.devices, cur.id = d.id →
      cur.effectiveLastContact = d.effectiveLastContact) (hcopy : IsCopy p.devices d) :
    Once { (p.setMark d.id (some call.now)).setCall i { call with stage := .delivering d rest } with
      running := none
      alerts := p.alerts ++ [⟨i, d, call.now, false⟩] } := by
  have hlt := lt_of_silent hsev
  refine ⟨?_, ?_, ?_⟩
  · intro r hr hpend cur hcur hid
    rcases List.mem_append.mp hr with hr | hr
    · exact h.since r hr hpend cur hcur hid
    · rw [List.mem_singleton.mp hr] at hid ⊢
      exact .inl (hasis cur hcur hid)
  · intro r hr cur hcur hid hsame
    by_cases hself : cur.id = d.id
    · exact ⟨call.now, hself ▸ Function.update_self .., hasis cur hcur hself ▸ hlt⟩
    · rcases List.mem_append.mp hr with hr | hr
      · obtain ⟨mark, hmark, hle⟩ := h.guarded r hr cur hcur hid hsame
        exact ⟨mark, (Function.update_of_ne hself ..).trans hmark, hle⟩
      · rw [List.mem_singleton.mp hr] at hid
        exact absurd hid hself
  · refine List.pairwise_append.mpr ⟨h.distinct, List.pairwise_singleton _ _, ?_⟩
    intro r hr r' hr' hid hsame
    rw [List.mem_singleton.mp hr'] at hid hsame
    -- A record of this silence would have left a mark, and no alert would be due.
    obtain ⟨cur, hcur, -, hcid, -⟩ := hcopy
    have hcontact := hasis cur hcur hcid
    obtain ⟨mark, hmark, hgt⟩ := h.guarded r hr cur hcur (hcid.trans hid.symm)
      (hcontact.trans hsame.symm)
    rw [hcid] at hmark
    simp only [alertDue, hmark, Option.all_some, decide_eq_true_eq] at hdue
    omega

theorem Once.delivered (h : Once p) {rest : List Device} :
    Once { p.setCall i
        { call with stage := .looping rest, rows := call.rows ++ [d.row call.now] } with
      running := some i
      alerts := p.alerts.map fun r => if r.call = i then { r with delivered := true } else r } := by
  have hsame : ∀ r : AlertRecord, (if r.call = i then { r with delivered := true } else r).device =
      r.device := fun r => by split <;> rfl
  refine ⟨?_, ?_, ?_⟩
  · intro r' hr' hpend cur hcur hid
    obtain ⟨r, hr, rfl⟩ := List.mem_map.mp hr'
    split at hpend
    · cases hpend
    · rename_i hne
      rw [if_neg hne] at hid ⊢
      exact h.since r hr hpend cur hcur hid
  · intro r' hr' cur hcur hid hcontact
    obtain ⟨r, hr, rfl⟩ := List.mem_map.mp hr'
    rw [hsame] at hid hcontact
    exact h.guarded r hr cur hcur hid hcontact
  · refine List.pairwise_map.mpr (h.distinct.imp fun {a b} hab => ?_)
    rw [hsame, hsame]
    exact hab

theorem Once.failed (h : Once p) (hl : Linked p) {rest : List Device}
    (hi : p.calls[i]? = some call) (hstage : call.stage = .delivering d rest)
    (hown : ∀ mark ∈ p.lastAlertedAt d.id, mark = call.now) :
    Once { ((p.setMark d.id none).setCall i { call with stage := .threw }).release call with
      alerts := p.alerts.filter fun r => r.call ≠ i ∨ r.delivered = true } := by
  have hfailing := hl.awaited i call d rest hi hstage
  refine ⟨?_, ?_, h.distinct.filter _⟩
  · intro r hr
    exact h.since r (List.mem_of_mem_filter hr)
  · intro r hr cur hcur hid hsame
    obtain ⟨hr, hkept⟩ := List.mem_filter.mp hr
    obtain ⟨mark, hmark, hgt⟩ := h.guarded r hr cur hcur hid hsame
    by_cases hself : cur.id = d.id
    · -- The record is not the failing one, so it is of a later silence, whose mark is not
      -- the failing alert's.
      exfalso
      have hne : r ≠ ⟨i, d, call.now, false⟩ := by
        rintro rfl
        simp at hkept
      have hapart := h.apart hr hfailing hne (hid.symm.trans hself)
      have hlater := (h.since _ hfailing rfl cur hcur hself).resolve_left
        fun hsame' => hapart (hsame.symm.trans hsame')
      have hmine := hown mark (hself ▸ hmark)
      dsimp only at hlater
      omega
    · exact ⟨mark, (Function.update_of_ne hself ..).trans hmark, hgt⟩

theorem Once.took (h : Once p) (hl : Linked p) (ht : Took p e p') (hasis : alertsAsIs p e = true)
    (hclears : clearsOlder p e = true) (hfails : failsOwn p e = true) : Once p' := by
  cases ht with
  | tick elapsed => exact h.congr rfl rfl rfl
  | heartbeat deviceId => exact h.heartbeat hl deviceId
  | begin => exact h.congr rfl rfl rfl
  | read => exact h.congr rfl rfl rfl
  | readFails => exact h.congr rfl rfl rfl
  | @resume i call devices hi hstage =>
      have hfine := hl.calls call (List.mem_of_getElem? hi)
      refine h.unmark (fun r hr cur hcur hid _ => ?_) ?_ ?_
      · unfold Process.purge
        split
        · rfl
        · -- A device that was alerted for is in every answer about all tenants.
          rename_i hall
          obtain ⟨⟨cur₀, hcur₀, hactive, hid₀, -⟩, -⟩ := hl.records r hr
          have hmem := hfine.complete hall devices hstage cur₀ hcur₀ hactive
          rw [hid₀, ← hid] at hmem
          exact if_pos hmem
      · unfold Process.purge
        split <;> rfl
      · unfold Process.purge
        split <;> rfl
  | finish => exact h.congr rfl rfl rfl
  | @clear i call d rest hi hstage hsev =>
      rw [clearsOlder, next_eq hi hstage] at hclears
      have hclears : ∀ mark, p.lastAlertedAt d.id = some mark → mark ≤ d.effectiveLastContact := by
        simpa [hsev, Option.all_eq_true] using hclears
      refine h.unmark (fun r hr cur hcur hid hsame => ?_) rfl rfl
      refine Function.update_of_ne (fun hself => ?_) ..
      obtain ⟨mark, hmark, hgt⟩ := h.guarded r hr cur hcur hid hsame
      have hle := hclears mark (hself ▸ hmark)
      have hread := hl.le_contact hi (by rw [hstage]; exact List.mem_cons_self) hcur hself
      omega
  | @alert i call d rest hi hstage hsev hdue =>
      rw [alertsAsIs, next_eq hi hstage] at hasis
      have hmem : d ∈ call.stage.devices := by rw [hstage]; exact List.mem_cons_self
      refine h.alert hsev hdue ?_ ((hl.calls call (List.mem_of_getElem? hi)).copies d hmem)
      simpa [hsev, hdue, or_iff_not_imp_left] using hasis
  | pass => exact h.congr rfl rfl rfl
  | delivered => exact h.delivered
  | @failed i call d rest hi hstage =>
      rw [failsOwn, awaited_eq hi hstage] at hfails
      exact h.failed hl hi hstage (by simpa [Option.all_eq_true] using hfails)

end RestiqBackend.SyncHealth
