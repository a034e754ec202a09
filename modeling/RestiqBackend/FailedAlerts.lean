import RestiqBackend.OneAlert

/-!
A failed alert and the devices after it.

A call of `list`, or of the sweep, is followed by itself from its query to its end, with the
devices given whose delivery fails. The error of a delivery leaves the loop, so the alerts
that were due after it are not handed to the channel.
-/

namespace RestiqBackend.SyncHealth

/-! ### One call -/

/-- What a call comes to, and the devices whose alerts it handed to the channel. -/
structure Outcome where
  process : Process
  attempts : List ℕ

/-- The loop of a call over the devices that are left; it waits where an alert was due. -/
def Process.loop (p : Process) (i : ℕ) (fails : ℕ → Bool) : List Device → Outcome
  | [] => ⟨p.handle (.step i), []⟩
  | d :: rest =>
      let looked := p.handle (.step i)
      if looked.running = some i then looked.loop i fails rest
      else if fails d.id then ⟨looked.handle (.failed i), [d.id]⟩
      else
        let o := (looked.handle (.delivered i)).loop i fails rest
        ⟨o.process, d.id :: o.attempts⟩

/-- A call that has been made, from the database's answer on. -/
def Process.serve (p : Process) (i : ℕ) (query : Query) (fails : ℕ → Bool) : Outcome :=
  ((p.handle (.read i)).handle (.resume i)).loop i fails (p.find query)

def Process.listAlone (p : Process) (query : Query) (fails : ℕ → Bool) : Outcome :=
  (p.handle (.list query)).serve p.calls.length query fails

def Process.sweepAlone (p : Process) (fails : ℕ → Bool) : Outcome :=
  (p.handle .sweep).serve p.calls.length ⟨none, none⟩ fails

/-! ### The loop -/

/-- A device is silent, and this silence has not been alerted for. -/
def Process.due (p : Process) (now : ℤ) (d : Device) : Bool :=
  d.severity now = .silent && alertDue d.effectiveLastContact (p.lastAlertedAt d.id)

/-- The devices up to the first whose delivery fails, with that one. -/
def upToFailure (fails : ℕ → Bool) : List Device → List Device
  | [] => []
  | d :: rest => if fails d.id then [d] else d :: upToFailure fails rest

variable {p p' : Process} {i : ℕ} {call : Call} {d : Device} {rest : List Device}
  {fails : ℕ → Bool}

theorem mem_of_mem_upToFailure {ds : List Device} (h : d ∈ upToFailure fails ds) : d ∈ ds := by
  induction ds with
  | nil => exact h
  | cons e ds ih =>
      rw [upToFailure] at h
      split at h
      · rw [List.mem_singleton.mp h]
        exact List.mem_cons_self
      · rcases List.mem_cons.mp h with rfl | h
        · exact List.mem_cons_self
        · exact List.mem_cons_of_mem e (ih h)

/-- All are reached where at most the last of them fails. -/
theorem upToFailure_all_iff {ds : List Device} (hnodup : (ds.map (·.id)).Nodup) :
    (∀ d ∈ ds, d ∈ upToFailure fails ds) ↔ ∀ d ∈ ds.dropLast, fails d.id = false := by
  induction ds with
  | nil => simp
  | cons e ds ih =>
      obtain ⟨hnew, hnodup⟩ := List.nodup_cons.mp hnodup
      cases ds with
      | nil => simp [upToFailure]
      | cons f ds =>
          rw [upToFailure, List.dropLast_cons_cons, List.forall_mem_cons (l := (f :: ds).dropLast)]
          cases he : fails e.id with
          | true =>
              refine iff_of_false (fun hall => ?_) fun h => nomatch h.1
              have hf := hall f (List.mem_cons_of_mem e List.mem_cons_self)
              rw [if_pos rfl, List.mem_singleton] at hf
              exact hnew (hf ▸ List.mem_map_of_mem List.mem_cons_self)
          | false =>
              rw [if_neg Bool.false_ne_true, List.forall_mem_cons, ← ih hnodup]
              constructor
              · rintro ⟨-, hall⟩
                refine ⟨rfl, fun d hd => (List.mem_cons.mp (hall d hd)).resolve_left ?_⟩
                rintro rfl
                exact hnew (List.mem_map_of_mem hd)
              · rintro ⟨-, hall⟩
                exact ⟨List.mem_cons_self, fun d hd => List.mem_cons_of_mem e (hall d hd)⟩

/-- Where a call stands before the devices that are left. -/
structure AtLoop (p : Process) (i : ℕ) (now : ℤ) (rest : List Device) : Prop where
  running : p.running = some i
  call : ∃ call, p.calls[i]? = some call ∧ call.stage = .looping rest ∧ call.now = now

variable {now : ℤ}

/-- A device that is not due is passed by, and only its own mark may change. -/
theorem AtLoop.pass (h : AtLoop p i now (d :: rest)) (hdue : p.due now d = false) :
    AtLoop (p.handle (.step i)) i now rest ∧
      ∀ id ≠ d.id, (p.handle (.step i)).lastAlertedAt id = p.lastAlertedAt id := by
  obtain ⟨hrun, call, hi, hstage, rfl⟩ := h
  have hlook : p.handle (.step i) = p.look i call d rest := by
    simp only [Process.handle, Process.enabled, hrun, decide_true, if_true, Process.act, hi, hstage]
  rw [hlook, Process.look]
  have hset : ∀ call' : Call, (p.calls.set i call')[i]? = some call' := fun call' =>
    (getElem?_set hi i).trans (if_pos rfl)
  by_cases hsilent : d.severity call.now = .silent
  · rw [Process.due, decide_eq_true hsilent, Bool.true_and] at hdue
    simp only [hsilent, ne_eq, not_true_eq_false, if_false, hdue, Bool.false_eq_true]
    exact ⟨⟨hrun, _, hset _, rfl, rfl⟩, fun _ _ => rfl⟩
  · rw [if_pos hsilent]
    exact ⟨⟨hrun, _, hset _, rfl, rfl⟩, fun id hid => Function.update_of_ne hid ..⟩

/-- A device that is due is marked before its alert is waited for. -/
theorem AtLoop.alert (h : AtLoop p i now (d :: rest)) (hdue : p.due now d = true) :
    (p.handle (.step i)).running = none ∧
      (p.handle (.step i)).lastAlertedAt = Function.update p.lastAlertedAt d.id (some now) ∧
      ∃ call, (p.handle (.step i)).calls[i]? = some call ∧ call.stage = .delivering d rest ∧
        call.now = now := by
  obtain ⟨hrun, call, hi, hstage, rfl⟩ := h
  obtain ⟨hsilent, hdue⟩ := Bool.and_eq_true_iff.mp hdue
  have hlook : p.handle (.step i) = p.look i call d rest := by
    simp only [Process.handle, Process.enabled, hrun, decide_true, if_true, Process.act, hi, hstage]
  rw [hlook, Process.look, if_neg (not_not.mpr (of_decide_eq_true hsilent)), if_pos hdue]
  exact ⟨rfl, rfl, _, (getElem?_set hi i).trans (if_pos rfl), rfl, rfl⟩

theorem handle_failed (hrun : p.running = none) (hi : p.calls[i]? = some call)
    (hstage : call.stage = .delivering d rest) :
    (p.handle (.failed i)).lastAlertedAt = Function.update p.lastAlertedAt d.id none := by
  simp only [Process.handle, Process.enabled, hrun, decide_true, if_true, Process.act, hi, hstage]
  rfl

theorem handle_delivered (hrun : p.running = none) (hi : p.calls[i]? = some call)
    (hstage : call.stage = .delivering d rest) :
    (p.handle (.delivered i)).lastAlertedAt = p.lastAlertedAt ∧
      AtLoop (p.handle (.delivered i)) i call.now rest := by
  simp only [Process.handle, Process.enabled, hrun, decide_true, if_true, Process.act, hi, hstage]
  exact ⟨rfl, rfl, _, (getElem?_set hi i).trans (if_pos rfl), rfl, rfl⟩

/-- The end of a call leaves the marks. -/
theorem AtLoop.finish (h : AtLoop p i now []) :
    (p.handle (.step i)).lastAlertedAt = p.lastAlertedAt := by
  obtain ⟨hrun, call, hi, hstage, rfl⟩ := h
  simp only [Process.handle, Process.enabled, hrun, decide_true, if_true, Process.act, hi, hstage]
  rfl

theorem filter_due_congr
    (h : ∀ d ∈ rest, p'.lastAlertedAt d.id = p.lastAlertedAt d.id) :
    rest.filter (p'.due now) = rest.filter (p.due now) :=
  List.filter_congr fun d hd => by rw [Process.due, Process.due, h d hd]

/-- The alerts of the devices that are due are handed to the channel up to the first failure; a
delivery leaves its mark, the failure none, and the marks of the others are as they were. -/
theorem loop_spec (fails : ℕ → Bool) (h : AtLoop p i now rest) (hnodup : (rest.map (·.id)).Nodup) :
    (p.loop i fails rest).attempts =
        (upToFailure fails (rest.filter (p.due now))).map (·.id) ∧
      (∀ id, (∀ d ∈ rest, d.id ≠ id) →
        (p.loop i fails rest).process.lastAlertedAt id = p.lastAlertedAt id) ∧
      ∀ d ∈ rest.filter (p.due now), (p.loop i fails rest).process.lastAlertedAt d.id =
        if d ∈ upToFailure fails (rest.filter (p.due now)) then
          if fails d.id then none else some now
        else p.lastAlertedAt d.id := by
  induction rest generalizing p with
  | nil => exact ⟨rfl, fun id _ => congrFun h.finish id, nofun⟩
  | cons d rest ih =>
      obtain ⟨hnew, hnodup⟩ := List.nodup_cons.mp hnodup
      have hother : ∀ x ∈ rest, x.id ≠ d.id := fun x hx hid =>
        hnew (List.mem_map.mpr ⟨x, hx, hid⟩)
      cases hdue : p.due now d with
      | false =>
          obtain ⟨hnext, hmarks⟩ := h.pass hdue
          have hsame : ∀ x ∈ rest, (p.handle (.step i)).lastAlertedAt x.id = p.lastAlertedAt x.id :=
            fun x hx => hmarks x.id (hother x hx)
          obtain ⟨hattempts, hframe, hdone⟩ := ih hnext hnodup
          rw [filter_due_congr hsame] at hattempts hdone
          rw [Process.loop, if_pos hnext.running, List.filter_cons_of_neg (Bool.eq_false_iff.mp hdue)]
          refine ⟨hattempts, fun id hid => ?_, fun x hx => ?_⟩
          · rw [hframe id fun x hx => hid x (List.mem_cons_of_mem d hx),
              hmarks id (hid d List.mem_cons_self).symm]
          · rw [hdone x hx, hsame x (List.mem_of_mem_filter hx)]
      | true =>
          obtain ⟨hidle, hmarked, call, hi, hstage, hnow⟩ := h.alert hdue
          rw [Process.loop, if_neg (by rw [hidle]; exact nofun), List.filter_cons_of_pos hdue,
            upToFailure]
          cases hfails : fails d.id with
          | true =>
              have hmarks := handle_failed hidle hi hstage
              rw [if_pos rfl, if_pos rfl]
              refine ⟨rfl, fun id hid => ?_, fun x hx => ?_⟩
              · have hne := (hid d List.mem_cons_self).symm
                rw [hmarks, Function.update_of_ne hne, hmarked, Function.update_of_ne hne]
              · rcases List.mem_cons.mp hx with rfl | hx
                · rw [hmarks, Function.update_self, if_pos (List.mem_singleton.mpr rfl), hfails,
                    if_pos rfl]
                · have hne := hother x (List.mem_of_mem_filter hx)
                  rw [if_neg fun hx => hne (congrArg Device.id (List.mem_singleton.mp hx)), hmarks,
                    Function.update_of_ne hne, hmarked, Function.update_of_ne hne]
          | false =>
              obtain ⟨hmarks, hnext⟩ := handle_delivered hidle hi hstage
              rw [hnow] at hnext
              rw [hmarked] at hmarks
              have hsame : ∀ x ∈ rest,
                  ((p.handle (.step i)).handle (.delivered i)).lastAlertedAt x.id =
                    p.lastAlertedAt x.id := fun x hx => by
                rw [hmarks, Function.update_of_ne (hother x hx)]
              obtain ⟨hattempts, hframe, hdone⟩ := ih hnext hnodup
              rw [filter_due_congr hsame] at hattempts hdone
              simp only [if_neg Bool.false_ne_true]
              refine ⟨congrArg (d.id :: ·) hattempts, fun id hid => ?_, fun x hx => ?_⟩
              · rw [hframe id fun x hx => hid x (List.mem_cons_of_mem d hx), hmarks,
                  Function.update_of_ne (hid d List.mem_cons_self).symm]
              · rcases List.mem_cons.mp hx with rfl | hx
                · rw [hframe x.id hother, hmarks, Function.update_self, if_pos List.mem_cons_self,
                    hfails, if_neg Bool.false_ne_true]
                · have hne := hother x (List.mem_of_mem_filter hx)
                  rw [hdone x hx, hsame x (List.mem_of_mem_filter hx)]
                  refine if_congr ?_ rfl rfl
                  rw [List.mem_cons, or_iff_right fun hx => hne (congrArg Device.id hx)]

/-! ### The call -/

theorem purge_mark_of_mem {query : Query} {devices : List Device} (hd : d ∈ devices) :
    (p.purge query devices).lastAlertedAt d.id = p.lastAlertedAt d.id := by
  unfold Process.purge
  split
  · rfl
  · exact if_pos (List.mem_map_of_mem hd)

/-- The devices whose alerts a call finds due. -/
def Process.dueIn (p : Process) (query : Query) : List Device :=
  (p.find query).filter (p.due p.clock)

/-- Every alert that is due is attempted, and the devices it went out for are marked. -/
def AttemptsAll (due : List Device) (fails : ℕ → Bool) (o : Outcome) : Prop :=
  (∀ d ∈ due, d.id ∈ o.attempts) ∧
    ∀ d ∈ due, alertDue d.effectiveLastContact (o.process.lastAlertedAt d.id) = fails d.id

/-- What a call does that has just been made. -/
theorem serve_attempts_all_iff {query : Query} (fails : ℕ → Bool) (hkey : (p.devices.map (·.id)).Nodup)
    (hidle : p.running = none) (hi : p.calls[i]? = some call) (hquery : call.query = query)
    (hstage : call.stage = .reading) :
    AttemptsAll (p.dueIn query) fails (p.serve i query fails) ↔
      ∀ d ∈ (p.dueIn query).dropLast, fails d.id = false := by
  subst hquery
  let answered := p.setCall i { call with stage := .answered (p.find call.query) }
  have hread : p.handle (.read i) = answered := by
    simp only [Process.handle, Process.enabled, if_true, Process.act, hi, hstage]
    rfl
  have hanswered : answered.calls[i]? = some { call with stage := .answered (p.find call.query) } :=
    (getElem?_set hi i).trans (if_pos rfl)
  let looping : Call :=
    { call with stage := .looping (p.find call.query), now := p.clock, seen := p.find call.query }
  have hresume : answered.handle (.resume i) =
      { (answered.purge call.query (p.find call.query)).setCall i looping with
        running := some i } := by
    have hidle : answered.running = none := hidle
    simp only [Process.handle, Process.enabled, hidle, decide_true, if_true, Process.act, hanswered]
    rfl
  have hcalls : (answered.purge call.query (p.find call.query)).calls = answered.calls := by
    unfold Process.purge
    split <;> rfl
  have hloop : AtLoop (answered.handle (.resume i)) i p.clock (p.find call.query) := by
    rw [hresume]
    refine ⟨rfl, looping, ?_, rfl, rfl⟩
    exact (congrArg (fun calls => (calls.set i looping)[i]?) hcalls).trans
      ((getElem?_set hanswered i).trans (if_pos rfl))
  have hmarks : ∀ d ∈ p.find call.query,
      (answered.handle (.resume i)).lastAlertedAt d.id = p.lastAlertedAt d.id := by
    intro d hd
    rw [hresume]
    exact purge_mark_of_mem (p := answered) hd
  have hfound : ((p.find call.query).map (·.id)).Nodup :=
    hkey.sublist ((List.filter_sublist).map _)
  obtain ⟨hattempts, -, hdone⟩ := loop_spec fails hloop hfound
  rw [filter_due_congr hmarks] at hattempts hdone
  change _ = (upToFailure fails (p.dueIn call.query)).map (·.id) at hattempts
  change ∀ d ∈ p.dueIn call.query, _ = if d ∈ upToFailure fails (p.dueIn call.query) then _ else _
    at hdone
  have hdue : ((p.dueIn call.query).map (·.id)).Nodup := hfound.sublist ((List.filter_sublist).map _)
  have hserve : p.serve i call.query fails =
      (answered.handle (.resume i)).loop i fails (p.find call.query) := by
    rw [Process.serve, hread]
  rw [← upToFailure_all_iff hdue, hserve]
  constructor
  · rintro ⟨hall, -⟩ d hd
    obtain ⟨x, hx, hid⟩ := List.mem_map.mp (hattempts ▸ hall d hd)
    rwa [← List.inj_on_of_nodup_map hdue (mem_of_mem_upToFailure hx) hd hid]
  · intro hall
    refine ⟨fun d hd => hattempts ▸ List.mem_map_of_mem (hall d hd), fun d hd => ?_⟩
    rw [hdone d hd, if_pos (hall d hd)]
    cases hfails : fails d.id with
    | true => rfl
    | false =>
        have hsilent := of_decide_eq_true (Bool.and_eq_true_iff.mp (List.mem_filter.mp hd).2).1
        have hlt := lt_of_silent hsilent
        rw [if_neg Bool.false_ne_true, alertDue, Option.all_some, decide_eq_false_iff_not]
        omega

/-- A call gives every device whose alert is due an attempt, and marks those it went out for, if
and only if no delivery fails but that of the last of them. -/
theorem failed_alert_keeps_others_iff (p : Process) (query : Query) (fails : ℕ → Bool)
    (hkey : (p.devices.map (·.id)).Nodup) (hidle : p.running = none) :
    (AttemptsAll (p.dueIn query) fails (p.listAlone query fails) ↔
      ∀ d ∈ (p.dueIn query).dropLast, fails d.id = false) ∧
    (p.sweeping = false →
      (AttemptsAll (p.dueIn ⟨none, none⟩) fails (p.sweepAlone fails) ↔
        ∀ d ∈ (p.dueIn ⟨none, none⟩).dropLast, fails d.id = false)) := by
  have hlast : ∀ call : Call, (p.calls ++ [call])[p.calls.length]? = some call := fun call =>
    List.getElem?_concat_length
  constructor
  · have hbegin : p.handle (.list query) = p.begin query false := by
      simp only [Process.handle, Process.enabled, hidle, decide_true, if_true, Process.act]
    rw [Process.listAlone, hbegin]
    have hdue : (p.begin query false).dueIn query = p.dueIn query := rfl
    rw [← hdue]
    exact serve_attempts_all_iff fails hkey hidle (hlast _) rfl rfl
  · intro hsweeping
    have hbegin : p.handle .sweep = { p with sweeping := true }.begin ⟨none, none⟩ true := by
      simp only [Process.handle, Process.enabled, hidle, decide_true, if_true, Process.act,
        hsweeping, Bool.false_eq_true, if_false]
    rw [Process.sweepAlone, hbegin]
    have hdue : ({ p with sweeping := true }.begin ⟨none, none⟩ true).dueIn ⟨none, none⟩ =
        p.dueIn ⟨none, none⟩ := rfl
    rw [← hdue]
    exact serve_attempts_all_iff fails hkey hidle (hlast _) rfl rfl

/-- Two tills that became silent at the same time. -/
def silentTills : Process where
  clock := 48 * 60 * 60 * 1000 + 1000
  devices := [⟨1, 1, some 1, true, 0, some 0⟩, ⟨2, 1, some 1, true, 0, none⟩]
  lastAlertedAt := fun _ => none
  sweeping := false
  calls := []
  running := none
  alerts := []

/-- With the second delivery failing, both are attempted. -/
theorem failed_alert_keeps_others_sample :
    AttemptsAll (silentTills.dueIn ⟨none, none⟩) (· = 2) (silentTills.listAlone ⟨none, none⟩ (· = 2)) ∧
      AttemptsAll (silentTills.dueIn ⟨none, none⟩) (· = 2) (silentTills.sweepAlone (· = 2)) := by
  obtain ⟨hlist, hsweep⟩ := failed_alert_keeps_others_iff silentTills ⟨none, none⟩ (· = 2)
    (by decide) rfl
  exact ⟨hlist.mpr (by decide), (hsweep rfl).mpr (by decide)⟩

/-- With the first failing, the second is silent too and nobody is told. -/
theorem second_till_passed_over :
    (silentTills.dueIn ⟨none, none⟩).map (·.id) = [1, 2] ∧
      (silentTills.listAlone ⟨none, none⟩ (· = 1)).attempts = [1] ∧
      (silentTills.sweepAlone (· = 1)).attempts = [1] ∧
      ¬AttemptsAll (silentTills.dueIn ⟨none, none⟩) (· = 1)
        (silentTills.listAlone ⟨none, none⟩ (· = 1)) := by
  refine ⟨by decide, by decide, by decide, fun h => ?_⟩
  have hsecond := h.1 ⟨2, 1, some 1, true, 0, none⟩ (by decide)
  revert hsecond
  decide

end RestiqBackend.SyncHealth
