import RestiqBackend.OneAlert

/-!
No silence is passed over, when calls do not overlap.

A mark keeps a call from alerting; so each has to be of an alert that went out, for the silence
the device is still in or for one that ended after the mark was set. The alerts of earlier
calls then answer for every silent device that a call comes past without alerting.
-/

namespace RestiqBackend.SyncHealth

/-- The devices a call has not come to. -/
def Stage.ahead : Stage → List Device
  | .answered devices => devices
  | .looping rest | .delivering _ rest => rest
  | .reading | .returned | .threw => []

def Stage.finished : Stage → Bool
  | .returned | .threw => true
  | .reading | .answered _ | .looping _ | .delivering _ _ => false

/-- A call starts only when all others have ended. -/
def startsAlone (p : Process) : Event → Bool
  | .list _ | .sweep => p.calls.all (·.stage.finished)
  | _ => true

/-- An alert that went out for a silence that began with the contact. -/
def AlertedFor (p : Process) (deviceId : ℕ) (contact : ℤ) : Prop :=
  ∃ r ∈ p.alerts, r.delivered = true ∧ r.device.id = deviceId ∧
    r.device.effectiveLastContact = contact

instance (p : Process) (deviceId : ℕ) (contact : ℤ) : Decidable (AlertedFor p deviceId contact) :=
  inferInstanceAs (Decidable (∃ r ∈ p.alerts, _))

/-- A mark is of an alert, after which the device was not heard of, or was heard of later
than the mark. -/
def Explained (alerts : List AlertRecord) (mark : ℤ) (deviceId : ℕ) (contact : ℤ) : Prop :=
  ∃ r ∈ alerts, r.device.id = deviceId ∧
    (contact = r.device.effectiveLastContact ∨ mark < contact)

/-- With one call at a time, every mark is explained, and every silence that a call has come
past has been alerted for. -/
structure Told (p : Process) : Prop where
  alone : ∀ (i j : ℕ) (c c' : Call), p.calls[i]? = some c → p.calls[j]? = some c' →
    c.stage.finished = false → c'.stage.finished = false → i = j
  marks : ∀ cur ∈ p.devices, ∀ mark, p.lastAlertedAt cur.id = some mark →
    Explained p.alerts mark cur.id cur.effectiveLastContact
  ahead : ∀ (i : ℕ) (call : Call), p.calls[i]? = some call → ∀ d ∈ call.stage.ahead, ∀ mark,
    p.lastAlertedAt d.id = some mark → Explained p.alerts mark d.id d.effectiveLastContact
  told : ∀ (i : ℕ) (call : Call), p.calls[i]? = some call → ∀ d ∈ call.seen, d.severity call.now = .silent →
    d ∈ call.stage.devices ∨ call.stage = .threw ∨ AlertedFor p d.id d.effectiveLastContact

variable {p p' : Process} {e : Event} {i : ℕ} {call : Call} {d : Device}

theorem Explained.mono {alerts alerts' : List AlertRecord} {mark contact : ℤ} {deviceId : ℕ}
    (h : Explained alerts mark deviceId contact)
    (hkept : ∀ r ∈ alerts, r.device.id = deviceId → ∃ r' ∈ alerts', r'.device = r.device) :
    Explained alerts' mark deviceId contact := by
  obtain ⟨r, hr, hid, hcontact⟩ := h
  obtain ⟨r', hr', hsame⟩ := hkept r hr hid
  exact ⟨r', hr', hsame ▸ hid, hsame ▸ hcontact⟩

theorem ahead_finished {s : Stage} (h : s.finished = true) : s.ahead = [] := by
  cases s with
  | returned | threw => rfl
  | reading | answered | looping | delivering => cases h

/-- What holds of the calls when one of them has gone on. -/
theorem forall_set {P : ℕ → Call → Prop} (hi : p.calls[i]? = some call) {call' : Call}
    (hself : P i call') (hothers : ∀ j c, p.calls[j]? = some c → j ≠ i → P j c) (j : ℕ) (c : Call)
    (hj : (p.calls.set i call')[j]? = some c) : P j c := by
  rw [getElem?_set hi] at hj
  split at hj
  · cases hj
    subst i
    exact hself
  · exact hothers j c hj (Ne.symm ‹_›)

theorem Told.alone_set (h : Told p) (hi : p.calls[i]? = some call)
    (hopen : call.stage.finished = false) (call' : Call) (j k : ℕ) (c c' : Call)
    (hj : (p.calls.set i call')[j]? = some c) (hk : (p.calls.set i call')[k]? = some c')
    (hc : c.stage.finished = false) (hc' : c'.stage.finished = false) : j = k := by
  have hback : ∀ (j : ℕ) (c : Call), (p.calls.set i call')[j]? = some c →
      c.stage.finished = false → j = i :=
    forall_set hi (fun _ => rfl) fun j c hj _ hc => h.alone j i c call hj hi hc hopen
  rw [hback j c hj hc, hback k c' hk hc']

/-- Every other call has ended. -/
theorem Told.others (h : Told p) (hi : p.calls[i]? = some call)
    (hopen : call.stage.finished = false) {j : ℕ} {c : Call} (hj : p.calls[j]? = some c)
    (hne : j ≠ i) : c.stage.finished = true := by
  by_contra hc
  exact hne (h.alone j i c call hj hi (Bool.eq_false_iff.mpr hc) hopen)

/-- A call that goes on, with the marks as they were or fewer. -/
theorem Told.goesOn (h : Told p) (hi : p.calls[i]? = some call) (call' : Call)
    (hopen : call.stage.finished = false)
    (hahead : ∀ d ∈ call'.stage.ahead, ∀ mark, p.lastAlertedAt d.id = some mark →
      Explained p.alerts mark d.id d.effectiveLastContact)
    (htold : ∀ d ∈ call'.seen, d.severity call'.now = .silent → d ∈ call'.stage.devices ∨
      call'.stage = .threw ∨ AlertedFor p d.id d.effectiveLastContact)
    (hcalls : p'.calls = p.calls.set i call') (hdevices : p'.devices = p.devices)
    (halerts : p'.alerts = p.alerts)
    (hmarks : ∀ id mark, p'.lastAlertedAt id = some mark → p.lastAlertedAt id = some mark) :
    Told p' := by
  refine ⟨?_, ?_, ?_, ?_⟩
  · rw [hcalls]
    exact h.alone_set hi hopen call'
  · rw [hdevices, halerts]
    exact fun cur hcur mark hmark => h.marks cur hcur mark (hmarks _ _ hmark)
  · rw [hcalls, halerts]
    exact forall_set hi (fun d hd mark hmark => hahead d hd mark (hmarks _ _ hmark))
      fun j c hj _ d hd mark hmark => h.ahead j c hj d hd mark (hmarks _ _ hmark)
  · rw [hcalls]
    unfold AlertedFor
    rw [halerts]
    exact forall_set hi htold fun j c hj _ => h.told j c hj

theorem Told.heartbeat (h : Told p) (deviceId : ℕ)
    (hlater : ∀ mark ∈ p.lastAlertedAt deviceId, mark < p.clock) :
    Told (p.act (.heartbeat deviceId)) := by
  rw [act_heartbeat]
  refine ⟨h.alone, ?_, h.ahead, h.told⟩
  intro cur' hcur' mark hmark
  obtain ⟨cur, hcur, rfl⟩ := List.mem_map.mp hcur'
  rw [beat_id] at hmark ⊢
  have hold := h.marks cur hcur mark hmark
  rcases beat_contact cur deviceId p.clock with heq | ⟨hid, heq⟩
  · rwa [heq]
  · obtain ⟨r, hr, hrid, -⟩ := hold
    rw [heq]
    exact ⟨r, hr, hrid, .inr (hlater mark (hid ▸ hmark))⟩

theorem Told.begin (h : Told p) {sweeping : Bool} (hstage : call.stage = .reading)
    (hseen : call.seen = []) (halone : p.calls.all (·.stage.finished) = true) :
    Told { p with sweeping, calls := p.calls ++ [call] } := by
  have hended : ∀ (j : ℕ) (c : Call), p.calls[j]? = some c → c.stage.finished = true := fun j c hj =>
    List.all_eq_true.mp halone c (List.mem_of_getElem? hj)
  have hnew : ∀ (j : ℕ) (c : Call), (p.calls ++ [call])[j]? = some c → c.stage.finished = false →
      j = p.calls.length := by
    intro j c hj hc
    rw [List.getElem?_append] at hj
    split at hj
    · rw [hended j c hj] at hc
      cases hc
    · obtain ⟨hlt, -⟩ := List.getElem?_eq_some_iff.mp hj
      simp only [List.length_singleton] at hlt
      omega
  refine ⟨?_, h.marks, ?_, ?_⟩
  · intro j k c c' hj hk hc hc'
    rw [hnew j c hj hc, hnew k c' hk hc']
  · intro j c hj
    rcases getElem?_concat hj with hj | rfl
    · exact h.ahead j c hj
    · rw [hstage]
      nofun
  · intro j c hj
    rcases getElem?_concat hj with hj | rfl
    · exact h.told j c hj
    · rw [hseen]
      nofun

/-- In a run of one call at a time the records that are not delivered are of the call that
waits for one. -/
theorem Told.delivered_of_looping (h : Told p) (hl : Linked p) (hi : p.calls[i]? = some call)
    {rest : List Device} (hstage : call.stage = .looping rest) {r : AlertRecord}
    (hr : r ∈ p.alerts) : r.delivered = true := by
  by_contra hpend
  obtain ⟨c, rest', hc, hdel, -⟩ := hl.pending r hr (Bool.eq_false_iff.mpr hpend)
  have hsame := h.alone i r.call call c hi hc (by rw [hstage]; rfl) (by rw [hdel]; rfl)
  rw [← hsame, hi] at hc
  cases hc
  rw [hstage] at hdel
  cases hdel

theorem Told.alert (h : Told p) (hl : Linked p) {rest : List Device} (hi : p.calls[i]? = some call)
    (hstage : call.stage = .looping (d :: rest))
    (hasis : ∀ cur ∈ p.devices, cur.id = d.id →
      cur.effectiveLastContact = d.effectiveLastContact) :
    Told { (p.setMark d.id (some call.now)).setCall i { call with stage := .delivering d rest } with
      running := none
      alerts := p.alerts ++ [⟨i, d, call.now, false⟩] } := by
  have hopen : call.stage.finished = false := by rw [hstage]; rfl
  have honce := (hl.calls call (List.mem_of_getElem? hi)).once
  rw [show call.stage.devices = d :: rest by rw [hstage]; rfl, List.map_cons, List.nodup_cons]
    at honce
  have hkept : ∀ {mark contact : ℤ} {id : ℕ}, Explained p.alerts mark id contact →
      Explained (p.alerts ++ [⟨i, d, call.now, false⟩]) mark id contact := fun hex =>
    hex.mono fun r hr _ => ⟨r, List.mem_append_left _ hr, rfl⟩
  refine ⟨h.alone_set hi hopen _, ?_, ?_, ?_⟩
  · intro cur hcur mark hmark
    by_cases hid : cur.id = d.id
    · refine ⟨_, List.mem_append_right _ (List.mem_singleton.mpr rfl), hid.symm, .inl ?_⟩
      exact hasis cur hcur hid
    · exact hkept (h.marks cur hcur mark ((Function.update_of_ne hid ..).symm.trans hmark))
  · refine forall_set hi (fun x hx mark hmark => ?_) fun j c hj hne x hx => ?_
    · -- No device comes twice, so none of those left has the new mark.
      have hid : x.id ≠ d.id := fun hid => honce.1 (hid ▸ List.mem_map_of_mem hx)
      refine hkept (h.ahead i call hi x ?_ mark ((Function.update_of_ne hid ..).symm.trans hmark))
      rw [hstage]
      exact List.mem_cons_of_mem d hx
    · rw [ahead_finished (h.others hi hopen hj hne)] at hx
      cases hx
  · have halerted : ∀ {id : ℕ} {contact : ℤ}, AlertedFor p id contact →
        ∃ r ∈ p.alerts ++ [⟨i, d, call.now, false⟩], r.delivered = true ∧ r.device.id = id ∧
          r.device.effectiveLastContact = contact := fun ⟨r, hr, hrest⟩ =>
      ⟨r, List.mem_append_left _ hr, hrest⟩
    refine forall_set hi (fun x hx hsev => ?_) fun j c hj _ x hx hsev => ?_
    · rcases h.told i call hi x hx hsev with hmem | hthrew | hdone
      · rw [hstage] at hmem
        exact .inl hmem
      · rw [hstage] at hthrew
        cases hthrew
      · exact .inr (.inr (halerted hdone))
    · exact (h.told j c hj x hx hsev).imp id (Or.imp id halerted)

theorem Told.delivered (h : Told p) (hl : Linked p) {rest : List Device}
    (hi : p.calls[i]? = some call) (hstage : call.stage = .delivering d rest) :
    Told { p.setCall i
        { call with stage := .looping rest, rows := call.rows ++ [d.row call.now] } with
      running := some i
      alerts := p.alerts.map fun r => if r.call = i then { r with delivered := true } else r } := by
  have hopen : call.stage.finished = false := by rw [hstage]; rfl
  have hkept : ∀ {mark contact : ℤ} {id : ℕ}, Explained p.alerts mark id contact →
      Explained (p.alerts.map fun r => if r.call = i then { r with delivered := true } else r)
        mark id contact := fun hex =>
    hex.mono fun r hr _ => ⟨_, List.mem_map_of_mem hr, by split <;> rfl⟩
  refine ⟨h.alone_set hi hopen _, fun cur hcur mark hmark => hkept (h.marks cur hcur mark hmark),
    ?_, ?_⟩
  · refine forall_set hi (fun x hx mark hmark => ?_) fun j c hj _ x hx mark hmark =>
      hkept (h.ahead j c hj x hx mark hmark)
    refine hkept (h.ahead i call hi x ?_ mark hmark)
    rw [hstage]
    exact hx
  · have halerted : ∀ {id : ℕ} {contact : ℤ}, AlertedFor p id contact →
        ∃ r ∈ p.alerts.map (fun r => if r.call = i then { r with delivered := true } else r),
          r.delivered = true ∧ r.device.id = id ∧ r.device.effectiveLastContact = contact := by
      rintro id contact ⟨r, hr, hdone, hrest⟩
      refine ⟨_, List.mem_map_of_mem hr, ?_⟩
      split
      · exact ⟨rfl, hrest⟩
      · exact ⟨hdone, hrest⟩
    refine forall_set hi (fun x hx hsev => ?_) fun j c hj _ x hx hsev =>
      (h.told j c hj x hx hsev).imp id (Or.imp id halerted)
    rcases h.told i call hi x hx hsev with hmem | hthrew | hdone
    · rw [hstage] at hmem
      rcases List.mem_cons.mp hmem with rfl | hmem
      · -- The device whose alert has just gone out.
        refine .inr (.inr ⟨_, List.mem_map_of_mem (hl.awaited i call x rest hi hstage), ?_⟩)
        rw [if_pos rfl]
        exact ⟨rfl, rfl, rfl⟩
      · exact .inl hmem
    · rw [hstage] at hthrew
      cases hthrew
    · exact .inr (.inr (halerted hdone))

theorem Told.failed (h : Told p) (hl : Linked p) {rest : List Device}
    (hi : p.calls[i]? = some call) (hstage : call.stage = .delivering d rest) :
    Told { ((p.setMark d.id none).setCall i { call with stage := .threw }).release call with
      alerts := p.alerts.filter fun r => r.call ≠ i ∨ r.delivered = true } := by
  have hopen : call.stage.finished = false := by rw [hstage]; rfl
  refine ⟨h.alone_set hi hopen _, ?_, ?_, ?_⟩
  · intro cur hcur mark hmark
    have hmark : Function.update p.lastAlertedAt d.id none cur.id = some mark := hmark
    by_cases hid : cur.id = d.id
    · rw [hid, Function.update_self] at hmark
      cases hmark
    · rw [Function.update_of_ne hid] at hmark
      -- The record that goes is of the device whose mark went with it.
      refine (h.marks cur hcur mark hmark).mono fun r hr hrid => ⟨r, List.mem_filter.mpr ⟨hr, ?_⟩, rfl⟩
      rw [decide_eq_true_eq]
      by_contra hgone
      obtain ⟨hcall, hpend⟩ := not_or.mp hgone
      obtain ⟨c, rest', hc, hdel, -⟩ := hl.pending r hr (Bool.eq_false_iff.mpr hpend)
      rw [not_not.mp hcall, hi] at hc
      cases hc
      rw [hstage] at hdel
      cases hdel
      exact hid hrid.symm
  · refine forall_set hi nofun fun j c hj hne x hx => ?_
    rw [ahead_finished (h.others hi hopen hj hne)] at hx
    cases hx
  · refine forall_set hi (fun x hx hsev => .inr (.inl rfl)) fun j c hj _ x hx hsev =>
      (h.told j c hj x hx hsev).imp id (Or.imp id ?_)
    rintro ⟨r, hr, hdone, hrest⟩
    exact ⟨r, List.mem_filter.mpr ⟨hr, by simp [hdone]⟩, hdone, hrest⟩

theorem purge_mark {query : Query} {devices : List Device} {id : ℕ} {mark : ℤ}
    (h : (p.purge query devices).lastAlertedAt id = some mark) : p.lastAlertedAt id = some mark := by
  unfold Process.purge at h
  split at h
  · exact h
  · dsimp only at h
    split at h
    · exact h
    · cases h

/-- A call comes past a device that is not silent, or was alerted for. -/
theorem Told.past (h : Told p) {rest : List Device} (hi : p.calls[i]? = some call)
    (hstage : call.stage = .looping (d :: rest))
    (hd : d.severity call.now = .silent → AlertedFor p d.id d.effectiveLastContact)
    (hcalls : p'.calls = p.calls.set i
      { call with stage := .looping rest, rows := call.rows ++ [d.row call.now] })
    (hdevices : p'.devices = p.devices) (halerts : p'.alerts = p.alerts)
    (hmarks : ∀ id mark, p'.lastAlertedAt id = some mark → p.lastAlertedAt id = some mark) :
    Told p' := by
  refine h.goesOn hi _ (by rw [hstage]; rfl) (fun x hx => ?_) (fun x hx hsilent => ?_) hcalls
    hdevices halerts hmarks
  · refine h.ahead i call hi x ?_
    rw [hstage]
    exact List.mem_cons_of_mem d hx
  · have htold := h.told i call hi x hx hsilent
    rw [hstage] at htold
    rcases htold with hmem | hthrew | hdone
    · rcases List.mem_cons.mp hmem with rfl | hmem
      · exact .inr (.inr (hd hsilent))
      · exact .inl hmem
    · cases hthrew
    · exact .inr (.inr hdone)

/-- The mark that keeps a call from alerting is of an alert for the silence it sees. -/
theorem Told.alertedFor (h : Told p) (hl : Linked p) {rest : List Device}
    (hi : p.calls[i]? = some call) (hstage : call.stage = .looping (d :: rest))
    (hdue : alertDue d.effectiveLastContact (p.lastAlertedAt d.id) = false) :
    AlertedFor p d.id d.effectiveLastContact := by
  cases hmark : p.lastAlertedAt d.id with
  | none => simp [alertDue, hmark] at hdue
  | some mark =>
      have hle : d.effectiveLastContact ≤ mark := by simpa [alertDue, hmark] using hdue
      obtain ⟨r, hr, hid, hcontact⟩ := h.ahead i call hi d
        (by rw [hstage]; exact List.mem_cons_self) mark hmark
      refine ⟨r, hr, h.delivered_of_looping hl hi hstage hr, hid, ?_⟩
      rcases hcontact with hsame | hlt
      · exact hsame.symm
      · omega

theorem setMark_none {deviceId id : ℕ} {mark : ℤ}
    (h : (p.setMark deviceId none).lastAlertedAt id = some mark) :
    p.lastAlertedAt id = some mark := by
  have h : Function.update p.lastAlertedAt deviceId none id = some mark := h
  by_cases hid : id = deviceId
  · rw [hid, Function.update_self] at h
    cases h
  · rwa [Function.update_of_ne hid] at h

theorem Told.took (h : Told p) (hl : Linked p) (ht : Took p e p') (halone : startsAlone p e = true)
    (hasis : alertsAsIs p e = true) (hlater : beatsLater p e = true) : Told p' := by
  cases ht with
  | tick elapsed => exact ⟨h.alone, h.marks, h.ahead, h.told⟩
  | heartbeat deviceId =>
      exact h.heartbeat deviceId (by simpa [beatsLater, Option.all_eq_true] using hlater)
  | begin hstage hseen he =>
      refine h.begin hstage hseen ?_
      rcases he with rfl | rfl <;> exact halone
  | @read i call hi hstage =>
      refine h.goesOn hi { call with stage := .answered (p.find call.query) } (by rw [hstage]; rfl)
        (fun d hd mark hmark => h.marks d (mem_find.mp hd).1 mark hmark) (fun d hd hsev => ?_)
        rfl rfl rfl fun _ _ hmark => hmark
      rcases h.told i call hi d hd hsev with hmem | hthrew | hdone
      · rw [hstage] at hmem
        cases hmem
      · rw [hstage] at hthrew
        cases hthrew
      · exact .inr (.inr hdone)
  | @readFails i call hi hstage =>
      exact h.goesOn hi { call with stage := .threw } (by rw [hstage]; rfl) nofun
        (fun _ _ _ => .inr (.inl rfl)) rfl rfl rfl fun _ _ hmark => hmark
  | @resume i call devices hi hstage =>
      refine h.goesOn hi { call with stage := .looping devices, now := p.clock, seen := devices }
        (by rw [hstage]; rfl) (fun d hd => ?_) (fun d hd _ => .inl hd) ?_ ?_ ?_
        fun _ _ hmark => purge_mark hmark
      · refine h.ahead i call hi d ?_
        rw [hstage]
        exact hd
      all_goals unfold Process.purge; split <;> rfl
  | @finish i call hi hstage =>
      refine h.goesOn hi { call with stage := .returned } (by rw [hstage]; rfl) nofun
        (fun d hd hsev => ?_) rfl rfl rfl fun _ _ hmark => hmark
      have htold := h.told i call hi d hd hsev
      rw [hstage] at htold
      simpa [Stage.devices] using htold
  | @clear i call d rest hi hstage hsev =>
      exact h.past hi hstage (fun hsilent => absurd hsilent hsev) rfl rfl rfl
        fun _ _ hmark => setMark_none hmark
  | @alert i call d rest hi hstage hsev hdue =>
      refine h.alert hl hi hstage ?_
      rw [alertsAsIs, next_eq hi hstage] at hasis
      simpa [hsev, hdue, or_iff_not_imp_left] using hasis
  | @pass i call d rest hi hstage hsev hdue =>
      exact h.past hi hstage (fun _ => h.alertedFor hl hi hstage hdue) rfl rfl rfl
        fun _ _ hmark => hmark
  | delivered hi hstage => exact h.delivered hl hi hstage
  | failed hi hstage => exact h.failed hl hi hstage

/-! ### Runs -/

/-- A process that has just started, with devices last heard of before now. -/
structure Started (p : Process) : Prop where
  pkey : (p.devices.map (·.id)).Nodup
  past : ∀ d ∈ p.devices, d.effectiveLastContact ≤ p.clock
  calls : p.calls = []
  alerts : p.alerts = []
  marks : p.lastAlertedAt = fun _ => none

theorem Started.linked (h : Started p) : Linked p := by
  refine ⟨h.pkey, h.past, ?_, ?_, ?_, ?_⟩ <;> simp [h.calls, h.alerts]

theorem Started.once (h : Started p) : Once p := by
  refine ⟨?_, ?_, ?_⟩ <;> simp [h.alerts]

theorem Started.told (h : Started p) : Told p := by
  refine ⟨?_, ?_, ?_, ?_⟩ <;> simp [h.calls, h.marks]

/-- The alerts that went out. -/
def Process.sent (p : Process) : List SilentDeviceAlert :=
  (p.alerts.filter (·.delivered)).map (·.alert)

/-- Different silences of a device are told by different times of the last contact. -/
theorem Once.sent_distinct (h : Once p) (hl : Linked p) :
    p.sent.Pairwise fun a b => a.deviceId = b.deviceId → a.lastContactAt ≠ b.lastContactAt := by
  refine List.pairwise_map.mpr ((h.distinct.filter _).imp_of_mem fun {a b} ha hb hab hid hsame => ?_)
  obtain ⟨⟨cur, hcur, -, hcid, henrolled, -⟩, -⟩ := hl.records a (List.mem_of_mem_filter ha)
  obtain ⟨⟨cur', hcur', -, hcid', henrolled', -⟩, -⟩ := hl.records b (List.mem_of_mem_filter hb)
  have hid : a.device.id = b.device.id := hid
  have hsame : a.device.lastContactAt = b.device.lastContactAt := hsame
  have heq := hl.device_ext hcur hcur' (hcid.trans (hid.trans hcid'.symm))
  refine hab hid ?_
  rw [Device.effectiveLastContact, Device.effectiveLastContact, hsame, ← henrolled, ← henrolled',
    heq]

/-- Where calls look at devices as they are, no two alerts for a device are of one silence; and
where, besides, calls do not overlap and heartbeats come after the marks, a call that returns has
every device it found silent alerted for. -/
theorem one_alert_per_silence {p p' : Process} {events : List Event} (hstart : Started p) :
    (Serial.Run (fun p e p' => p' = p.handle e)
        (fun p e => alertsAsIs p e = true ∧ clearsOlder p e = true ∧ failsOwn p e = true)
        p events p' →
      p'.sent.Pairwise fun a b => a.deviceId = b.deviceId → a.lastContactAt ≠ b.lastContactAt) ∧
    (Serial.Run (fun p e p' => p' = p.handle e)
        (fun p e => startsAlone p e = true ∧ alertsAsIs p e = true ∧ beatsLater p e = true)
        p events p' →
      ∀ call ∈ p'.calls, call.stage = .returned → ∀ d ∈ call.seen,
        d.severity call.now = .silent → AlertedFor p' d.id d.effectiveLastContact) := by
  constructor
  · intro hrun
    have hboth : Linked p' ∧ Once p' := by
      refine hrun.preserves (I := fun p => Linked p ∧ Once p) (fun p e p' h hC hstep => ?_)
        ⟨hstart.linked, hstart.once⟩
      subst hstep
      refine ⟨h.1.handle e, ?_⟩
      rcases handle_took p e with heq | ht
      · rw [heq]
        exact h.2
      · exact h.2.took h.1 ht hC.1 hC.2.1 hC.2.2
    exact hboth.2.sent_distinct hboth.1
  · intro hrun call hcall hstage d hd hsilent
    have hboth : Linked p' ∧ Told p' := by
      refine hrun.preserves (I := fun p => Linked p ∧ Told p) (fun p e p' h hC hstep => ?_)
        ⟨hstart.linked, hstart.told⟩
      subst hstep
      refine ⟨h.1.handle e, ?_⟩
      rcases handle_took p e with heq | ht
      · rw [heq]
        exact h.2
      · exact h.2.took h.1 ht hC.1 hC.2.1 hC.2.2
    obtain ⟨i, hi⟩ := List.mem_iff_getElem?.mp hcall
    have htold := hboth.2.told i call hi d hd hsilent
    rw [hstage] at htold
    simpa [Stage.devices] using htold

/-- The shortest time after which a device is silent. -/
def silentAfter : ℤ := 48 * 60 * 60 * 1000 + 1000

/-- A till that has just become silent. -/
def silentTill : Process where
  clock := silentAfter
  devices := [⟨1, 1, some 1, true, 0, some 0⟩]
  lastAlertedAt := fun _ => none
  sweeping := false
  calls := []
  running := none
  alerts := []

theorem started_silentTill : Started silentTill := by
  constructor <;> simp [silentTill, silentAfter, Device.effectiveLastContact]

/-- Everything of call `i` after its query was answered, up to the alert for the one device. -/
def untilAlert (i : ℕ) : List Event := [.resume i, .step i]

/-- A call that alerts for the one device and returns. -/
def alerting (i : ℕ) : List Event := .read i :: untilAlert i ++ [.delivered i, .step i]

/-- A call that finds nothing to do and returns. -/
def passing (i : ℕ) : List Event := [.read i, .resume i, .step i, .step i]

/-- The first alert fails, the timer's next goes out, and after a heartbeat that no call saw
another does. -/
def recovering : List Event :=
  List.flatten [[.list ⟨none, none⟩, .read 0], untilAlert 0, [.failed 0, .sweep], alerting 1,
    [.tick 1, .heartbeat 1, .tick 172801000, .sweep], alerting 2]

theorem one_alert_recovering :
    ((recovering.foldl Process.handle silentTill).sent.Pairwise fun a b =>
      a.deviceId = b.deviceId → a.lastContactAt ≠ b.lastContactAt) ∧
    ∀ call ∈ (recovering.foldl Process.handle silentTill).calls, call.stage = .returned →
      ∀ d ∈ call.seen, d.severity call.now = .silent →
        AlertedFor (recovering.foldl Process.handle silentTill) d.id d.effectiveLastContact := by
  have hall := Serial.Run.of_foldl (f := Process.handle) (s := silentTill)
    (show Serial.allowed Process.handle (fun p e => alertsAsIs p e && clearsOlder p e &&
      failsOwn p e && startsAlone p e && beatsLater p e) silentTill recovering = true by decide)
  have hrules := @one_alert_per_silence silentTill (recovering.foldl Process.handle silentTill)
    recovering started_silentTill
  refine ⟨hrules.1 (hall.mono fun p e h => ?_), hrules.2 (hall.mono fun p e h => ?_)⟩
  · simp only [Bool.and_eq_true] at h
    exact ⟨h.1.1.1.1, h.1.1.1.2, h.1.1.2⟩
  · simp only [Bool.and_eq_true] at h
    exact ⟨h.1.2, h.1.1.1.1, h.2⟩

/-- A second call reads its list before a heartbeat and goes on after a third has seen it. -/
def outOfDate : List Event :=
  List.flatten [[.list ⟨none, none⟩], alerting 0, [.list ⟨none, none⟩, .read 1, .tick 1,
    .heartbeat 1, .list ⟨none, none⟩], passing 2, untilAlert 1, [.delivered 1]]

/-- A heartbeat comes in the millisecond of the alert. -/
def sameInstant : List Event :=
  List.flatten [[.list ⟨none, none⟩], alerting 0, [.heartbeat 1, .tick 172801000,
    .list ⟨none, none⟩], passing 1]

/-- Two alerts go out for one silence; and, calls not overlapping, one returns that found a
silent device for which none did. -/
theorem alerted_twice_and_not_at_all :
    (Serial.Run (fun p e p' => p' = p.handle e) (fun _ _ => True) silentTill outOfDate
        (outOfDate.foldl Process.handle silentTill) ∧
      (outOfDate.foldl Process.handle silentTill).sent.map (fun a => (a.deviceId, a.lastContactAt)) =
        [(1, some 0), (1, some 0)]) ∧
    (Serial.Run (fun p e p' => p' = p.handle e) (fun p e => startsAlone p e = true) silentTill
        sameInstant (sameInstant.foldl Process.handle silentTill) ∧
      ∃ call ∈ (sameInstant.foldl Process.handle silentTill).calls, call.stage = .returned ∧
        ∃ d ∈ call.seen, d.severity call.now = .silent ∧
          ¬AlertedFor (sameInstant.foldl Process.handle silentTill) d.id d.effectiveLastContact) := by
  refine ⟨⟨Serial.Run.of_events _ _ _, by decide⟩, Serial.Run.of_foldl (by decide), ?_⟩
  refine ⟨_, List.mem_of_getElem? (i := 1) rfl, rfl, ⟨1, 1, some 1, true, 0, some silentAfter⟩, ?_⟩
  decide

end RestiqBackend.SyncHealth
