import RestiqBackend.Devices

/-!
What becomes of the work that waits for a device (`src/pos/device-routing.ts`).

Work is safe while the device it was queued for drains its own queue, while it is active and
linked, and is at the outlet of the work, the only one that its screen polls. The owner's
operations release the work of the device they change, but the operators' revocation releases
nothing, and the owner's revocation of a till unlinks the devices of the till without releasing
theirs. And a bill can be sent to a device from a till of another outlet: nothing looks at the
outlet of the device. Where no revocation leaves work behind and none is sent across outlets,
nothing is ever stranded.
-/

namespace RestiqBackend.Devices

open Serial (check check_ok orElseThrow_ok)

/-! ### What is promised -/

/-- A device of an outlet that drains the queue of its own. -/
def Serves (w : World) (tenantId outletId : ℕ) (type : PeripheralType) (deviceId : ℕ) : Prop :=
  ∃ d ∈ w.devices, d.id = deviceId ∧ d.outletId = some outletId ∧ d.tenantId = tenantId ∧
    d.type = type.toDeviceType ∧ d.status = .active ∧ d.pairedPosId.isSome = true

/-- No work is stranded: links lead to active tills, one printer and one terminal to each, and
what is queued for a device is what that device, at the outlet where it is, polls. -/
structure StrandsNothing (w : World) : Prop where
  linked : ∀ d ∈ w.devices, d.status = .active → ∀ posId, d.pairedPosId = some posId →
    ∃ pos ∈ w.devices, pos.id = posId ∧ pos.type = .pos ∧ pos.status = .active
  one_each : ∀ d ∈ w.devices, ∀ d' ∈ w.devices, d.status = .active → d'.status = .active →
    d.type = d'.type → ∀ posId, d.pairedPosId = some posId → d'.pairedPosId = some posId → d = d'
  jobs : ∀ job ∈ w.printJobs, job.printedAt = none → ∀ target, job.targetDeviceId = some target →
    ∃ outletId, Serves w job.tenantId outletId .printer target ∧
      queueFor w job.tenantId (some target) .printer = some target ∧
      ∃ jobs, listPendingPrintJobs w ⟨job.tenantId, outletId⟩ outletId (some target) =
        .ok (w, jobs) ∧ job ∈ jobs
  intents : ∀ intent ∈ w.paymentIntents, intent.active = true → ∀ target,
    intent.targetDeviceId = some target → ∃ outletId,
      Serves w intent.tenantId outletId .terminal target ∧
      queueFor w intent.tenantId (some target) .terminal = some target ∧
      ∀ now, now < intent.expiresAt → ∃ w' intents, listPendingForOutlet w
        ⟨intent.tenantId, outletId⟩ outletId (some target) now = .ok (w', intents) ∧
        intent ∈ intents

/-- Work that waits for a device. -/
structure Work where
  type : PeripheralType
  tenantId : ℕ
  outletId : ℕ
  deviceId : ℕ
  deriving DecidableEq

def PrintJob.work (job : PrintJob) : Option Work :=
  if job.printedAt = none then
    job.targetDeviceId.map fun id => ⟨.printer, job.tenantId, job.outletId, id⟩
  else none

def PaymentIntent.work (intent : PaymentIntent) : Option Work :=
  if intent.active then
    intent.targetDeviceId.map fun id => ⟨.terminal, intent.tenantId, intent.outletId, id⟩
  else none

def World.waiting (w : World) : List Work :=
  w.printJobs.filterMap PrintJob.work ++ w.paymentIntents.filterMap PaymentIntent.work

/-- Whether the device that work for a bill goes to, if it goes to one, is at the bill's outlet. -/
def staysAtOutlet (w : World) (tenantId billId : ℕ) (sourceDeviceId : Option ℕ)
    (type : PeripheralType) : Bool :=
  (w.bills.find? fun b => b.id = billId ∧ b.tenantId = tenantId).all fun bill =>
    (linkedPeripheral w tenantId sourceDeviceId type).all fun target =>
      w.devices.any fun d => d.id = target && d.outletId = some bill.outletId

/-- The condition on an operation. The operators' revocation finds no active device linked to the
one they revoke and no work waiting for it, the owner's no work waiting for a device linked to it;
what is printed or charged is of a bill of the outlet where the device is that it goes to. -/
def leavesNothing (w : World) : Op → Bool
  | .opsRevoke deviceId _ =>
      w.devices.all (fun d => !(d.status = .active && d.pairedPosId = some deviceId)) &&
        w.waiting.all (·.deviceId ≠ deviceId)
  | .adminRevoke _ _ deviceId _ => w.waiting.all fun work => w.devices.all fun d =>
      !(d.id = work.deviceId && d.pairedPosId = some deviceId)
  | .printBill staff billId sourceDeviceId _ =>
      staysAtOutlet w staff.tenantId billId sourceDeviceId .printer
  | .createIntent staff billId dto _ _ =>
      w.paymentIntents.any (fun i => i.tenantId = staff.tenantId && i.clientKey = dto.clientKey) ||
        staysAtOutlet w staff.tenantId billId dto.deviceId .terminal
  | _ => true

/-! ### The invariant -/

structure Sound (w : World) : Prop where
  pkey : (w.devices.map (·.id)).Nodup
  linked : ∀ d ∈ w.devices, d.status = .active → ∀ posId, d.pairedPosId = some posId →
    ∃ pos ∈ w.devices, pos.id = posId ∧ pos.tenantId = d.tenantId ∧ pos.type = .pos ∧
      pos.status = .active
  peripheral : ∀ d ∈ w.devices, d.pairedPosId.isSome = true → d.type ≠ .pos
  one_each : ∀ d ∈ w.devices, ∀ d' ∈ w.devices, d.status = .active → d'.status = .active →
    d.type = d'.type → ∀ posId, d.pairedPosId = some posId → d'.pairedPosId = some posId → d = d'
  served : ∀ work ∈ w.waiting, Serves w work.tenantId work.outletId work.type work.deviceId

variable {w w' : World} {tenantId outletId deviceId : ℕ} {type : PeripheralType}

theorem device_ext (hkey : (w.devices.map (·.id)).Nodup) {d d' : Device} (hd : d ∈ w.devices)
    (hd' : d' ∈ w.devices) (hid : d.id = d'.id) : d = d' :=
  List.inj_on_of_nodup_map hkey hd hd' hid

/-- A linked device is not the till it is linked to. -/
theorem Sound.ne_till (h : Sound w) {d : Device} (hd : d ∈ w.devices) (hactive : d.status = .active)
    {posId : ℕ} (hpaired : d.pairedPosId = some posId) : d.id ≠ posId := by
  intro heq
  obtain ⟨pos, hpos, hpid, -, htype, -⟩ := h.linked d hd hactive posId hpaired
  have hsame := device_ext h.pkey hd hpos (heq.trans hpid.symm)
  exact h.peripheral d hd (by rw [hpaired]; rfl) (hsame ▸ htype)

/-- The queue of a device is its own where it is an active linked one, wherever that is. -/
theorem queueFor_eq_some {target : ℕ} :
    queueFor w tenantId (some target) type = some target ↔ ∃ d ∈ w.devices, d.id = target ∧
      d.tenantId = tenantId ∧ d.type = type.toDeviceType ∧ d.status = .active ∧
      d.pairedPosId.isSome = true := by
  unfold queueFor
  rw [Option.bind_some, Option.map_eq_some_iff]
  constructor
  · rintro ⟨d, hfind, -⟩
    have hd := List.find?_some hfind
    rw [decide_eq_true_eq] at hd
    exact ⟨d, List.mem_of_find?_eq_some hfind, hd⟩
  · rintro ⟨d, hd, hdrains⟩
    cases hfind : w.devices.find? fun d => d.id = target ∧ d.tenantId = tenantId ∧
        d.type = type.toDeviceType ∧ d.status = .active ∧ d.pairedPosId.isSome = true with
    | none => exact absurd (decide_eq_true hdrains) (List.find?_eq_none.mp hfind d hd)
    | some d' =>
        have hd' := List.find?_some hfind
        rw [decide_eq_true_eq] at hd'
        exact ⟨d', rfl, hd'.1⟩

theorem Serves.queueFor {target : ℕ} (h : Serves w tenantId outletId type target) :
    queueFor w tenantId (some target) type = some target := by
  obtain ⟨d, hd, hid, -, hdrains⟩ := h
  exact queueFor_eq_some.mpr ⟨d, hd, hid, hdrains⟩

theorem linkedPeripheral_drains {source : Option ℕ} {target : ℕ}
    (h : linkedPeripheral w tenantId source type = some target) :
    ∃ d ∈ w.devices, d.id = target ∧ d.tenantId = tenantId ∧ d.type = type.toDeviceType ∧
      d.status = .active ∧ d.pairedPosId.isSome = true := by
  unfold linkedPeripheral at h
  obtain ⟨posId, -, h⟩ := Option.bind_eq_some_iff.mp h
  obtain ⟨d, hfind, rfl⟩ := Option.map_eq_some_iff.mp h
  have hd := List.find?_some hfind
  rw [decide_eq_true_eq] at hd
  obtain ⟨htenant, htype, hactive, hpaired, -⟩ := hd
  exact ⟨d, List.mem_of_find?_eq_some hfind, rfl, htenant, htype, hactive, by rw [hpaired]; rfl⟩

/-- Work that stays at its outlet is served there. -/
theorem linkedPeripheral_serves (hkey : (w.devices.map (·.id)).Nodup) {billId : ℕ} {bill : Bill}
    {source : Option ℕ} {target : ℕ} (hbill : loadBill w tenantId billId = .ok bill)
    (hstays : staysAtOutlet w tenantId billId source type = true)
    (htarget : linkedPeripheral w tenantId source type = some target) :
    Serves w tenantId bill.outletId type target := by
  rw [staysAtOutlet, orElseThrow_ok hbill, Option.all_some, htarget, Option.all_some] at hstays
  obtain ⟨d', hd', hat⟩ := List.any_eq_true.mp hstays
  rw [Bool.and_eq_true, decide_eq_true_eq, decide_eq_true_eq] at hat
  obtain ⟨d, hd, hid, hdrains⟩ := linkedPeripheral_drains htarget
  have hsame := device_ext hkey hd' hd (hat.1.trans hid.symm)
  exact ⟨d, hd, hid, hsame ▸ hat.2, hdrains⟩

/-- Work that leaves its outlet waits for a device that is not there. -/
theorem exists_target_of_leaves {billId : ℕ} {bill : Bill} {source : Option ℕ}
    (hbill : loadBill w tenantId billId = .ok bill)
    (hleaves : staysAtOutlet w tenantId billId source type = false) :
    ∃ target, linkedPeripheral w tenantId source type = some target ∧
      ¬ Serves w tenantId bill.outletId type target := by
  rw [staysAtOutlet, orElseThrow_ok hbill, Option.all_some] at hleaves
  cases htarget : linkedPeripheral w tenantId source type with
  | none => simp [htarget] at hleaves
  | some target =>
      rw [htarget, Option.all_some] at hleaves
      refine ⟨target, rfl, fun ⟨d, hd, hid, houtlet, _⟩ => ?_⟩
      have hnone := List.any_eq_false.mp hleaves d hd
      simp [hid, houtlet] at hnone

theorem PrintJob.work_eq_some {job : PrintJob} {work : Work} : job.work = some work ↔
    job.printedAt = none ∧ ∃ target, job.targetDeviceId = some target ∧
      ⟨.printer, job.tenantId, job.outletId, target⟩ = work := by
  unfold PrintJob.work
  split
  next hprinted => rw [Option.map_eq_some_iff, and_iff_right hprinted]
  next hprinted => exact ⟨fun h => (Option.some_ne_none _ h.symm).elim, fun h => (hprinted h.1).elim⟩

theorem PaymentIntent.work_eq_some {intent : PaymentIntent} {work : Work} :
    intent.work = some work ↔ intent.active = true ∧ ∃ target,
      intent.targetDeviceId = some target ∧
        ⟨.terminal, intent.tenantId, intent.outletId, target⟩ = work := by
  unfold PaymentIntent.work
  split
  next hactive => rw [Option.map_eq_some_iff, and_iff_right hactive]
  next hactive => exact ⟨fun h => (Option.some_ne_none _ h.symm).elim, fun h => (hactive h.1).elim⟩

theorem mem_waiting {work : Work} : work ∈ w.waiting ↔
    (∃ job ∈ w.printJobs, job.work = some work) ∨
      ∃ intent ∈ w.paymentIntents, intent.work = some work := by
  simp [World.waiting]

theorem listPendingPrintJobs_own (w : World) (tenantId outletId : ℕ) (deviceId : Option ℕ) :
    listPendingPrintJobs w ⟨tenantId, outletId⟩ outletId deviceId =
      .ok (w, w.printJobs.filter fun job => job.tenantId = tenantId ∧ job.outletId = outletId ∧
        job.printedAt = none ∧ job.targetDeviceId = queueFor w tenantId deviceId .printer) := by
  unfold listPendingPrintJobs check
  rw [if_pos rfl]
  rfl

theorem listPendingForOutlet_own (w : World) (tenantId outletId : ℕ) (deviceId : Option ℕ)
    (now : ℤ) : ∃ w', listPendingForOutlet w ⟨tenantId, outletId⟩ outletId deviceId now =
      .ok (w', (w.paymentIntents.map fun i =>
          if i.tenantId = tenantId ∧ i.outletId = outletId then i.expire now else i).filter
        fun i => i.tenantId = tenantId ∧ i.outletId = outletId ∧ i.active = true ∧
          i.targetDeviceId = queueFor w tenantId deviceId .terminal) := by
  unfold listPendingForOutlet check
  rw [if_pos rfl]
  exact ⟨_, rfl⟩

/-- What the invariant says of the queues is what is promised of them. -/
theorem Sound.strandsNothing (h : Sound w) : StrandsNothing w where
  linked d hd hactive posId hpaired := by
    obtain ⟨pos, hpos, hid, -, htype, hstatus⟩ := h.linked d hd hactive posId hpaired
    exact ⟨pos, hpos, hid, htype, hstatus⟩
  one_each := h.one_each
  jobs job hjob hprinted target htarget := by
    have hserves : Serves w job.tenantId job.outletId .printer target :=
      h.served _ (mem_waiting.mpr (.inl ⟨job, hjob,
        PrintJob.work_eq_some.mpr ⟨hprinted, target, htarget, rfl⟩⟩))
    have hqueue := hserves.queueFor
    refine ⟨job.outletId, hserves, hqueue, _, listPendingPrintJobs_own w _ _ _,
      List.mem_filter.mpr ⟨hjob, ?_⟩⟩
    simp [hprinted, htarget, hqueue]
  intents intent hintent hactive target htarget := by
    have hserves : Serves w intent.tenantId intent.outletId .terminal target :=
      h.served _ (mem_waiting.mpr (.inr ⟨intent, hintent,
        PaymentIntent.work_eq_some.mpr ⟨hactive, target, htarget, rfl⟩⟩))
    have hqueue := hserves.queueFor
    refine ⟨intent.outletId, hserves, hqueue, fun now hnow => ?_⟩
    obtain ⟨w', hpoll⟩ := listPendingForOutlet_own w intent.tenantId intent.outletId
      (some target) now
    refine ⟨w', _, hpoll, List.mem_filter.mpr ⟨?_, ?_⟩⟩
    · refine List.mem_map.mpr ⟨intent, hintent, ?_⟩
      have hdue : ¬ (intent.active = true ∧ intent.expiresAt ≤ now) := fun h => by omega
      rw [if_pos ⟨rfl, rfl⟩, PaymentIntent.expire, if_neg hdue]
    · simp [hactive, htarget, hqueue]

/-! ### Queues -/

theorem Serves.congr (hdevices : w'.devices = w.devices) {target : ℕ} :
    Serves w' tenantId outletId type target ↔ Serves w tenantId outletId type target := by
  unfold Serves
  rw [hdevices]

/-- Where the devices stay, so does the invariant, if all new work is served. -/
theorem Sound.queues (h : Sound w) (hdevices : w'.devices = w.devices)
    (hwork : ∀ work ∈ w'.waiting, work ∈ w.waiting ∨
      Serves w work.tenantId work.outletId work.type work.deviceId) : Sound w' := by
  refine ⟨hdevices ▸ h.pkey, hdevices ▸ h.linked, hdevices ▸ h.peripheral, hdevices ▸ h.one_each,
    fun work hin => (Serves.congr hdevices).mpr ((hwork work hin).elim (h.served work) id)⟩

/-- Rows that are changed such that they wait for what they waited for, or for nothing. -/
theorem waiting_map {f : PrintJob → PrintJob} {g : PaymentIntent → PaymentIntent} {work : Work}
    (h : work ∈ w'.waiting)
    (hf : ∀ job ∈ w.printJobs, ∀ x, (f job).work = some x → job.work = some x)
    (hg : ∀ intent ∈ w.paymentIntents, ∀ x, (g intent).work = some x → intent.work = some x)
    (hjobs : w'.printJobs = w.printJobs.map f)
    (hintents : w'.paymentIntents = w.paymentIntents.map g) : work ∈ w.waiting := by
  rw [mem_waiting, hjobs, hintents] at h
  rcases h with ⟨_, hmem, hwork⟩ | ⟨_, hmem, hwork⟩
  · obtain ⟨job, hjob, rfl⟩ := List.mem_map.mp hmem
    exact mem_waiting.mpr (.inl ⟨job, hjob, hf job hjob work hwork⟩)
  · obtain ⟨intent, hintent, rfl⟩ := List.mem_map.mp hmem
    exact mem_waiting.mpr (.inr ⟨intent, hintent, hg intent hintent work hwork⟩)

theorem expire_work {intent : PaymentIntent} {now : ℤ} {work : Work}
    (h : (intent.expire now).work = some work) : intent.work = some work := by
  unfold PaymentIntent.expire at h
  split at h
  · cases h
  · exact h

/-- Expiring some intents. -/
theorem waiting_expire {p : PaymentIntent → Prop} [DecidablePred p] {now : ℤ} {work : Work}
    (h : work ∈ w'.waiting) (hjobs : w'.printJobs = w.printJobs)
    (hintents : w'.paymentIntents = w.paymentIntents.map fun i => if p i then i.expire now else i) :
    work ∈ w.waiting := by
  refine waiting_map (f := id) h (fun _ _ _ hwork => hwork) (fun intent _ x hwork => ?_)
    (by rw [hjobs, List.map_id]) hintents
  split at hwork
  · exact expire_work hwork
  · exact hwork

/-- Released work no longer waits for the device; the rest is as it was. -/
theorem waiting_release {work : Work} (h : work ∈ (w.releaseWork tenantId deviceId).waiting) :
    work ∈ w.waiting ∧ ¬ (work.tenantId = tenantId ∧ work.deviceId = deviceId) := by
  rcases mem_waiting.mp h with ⟨_, hmem, hwork⟩ | ⟨_, hmem, hwork⟩
  · obtain ⟨job, hjob, rfl⟩ := List.mem_map.mp hmem
    split at hwork
    next => simp [PrintJob.work] at hwork
    next hkept =>
      refine ⟨mem_waiting.mpr (.inl ⟨job, hjob, hwork⟩), fun ⟨htenant, hdevice⟩ => hkept ?_⟩
      obtain ⟨hprinted, target, htarget, rfl⟩ := PrintJob.work_eq_some.mp hwork
      exact ⟨htenant, htarget.trans (congrArg some hdevice), hprinted⟩
  · obtain ⟨intent, hintent, rfl⟩ := List.mem_map.mp hmem
    split at hwork
    next => simp [PaymentIntent.work] at hwork
    next hkept =>
      refine ⟨mem_waiting.mpr (.inr ⟨intent, hintent, hwork⟩), fun ⟨htenant, hdevice⟩ => hkept ?_⟩
      obtain ⟨hactive, target, htarget, rfl⟩ := PaymentIntent.work_eq_some.mp hwork
      exact ⟨htenant, htarget.trans (congrArg some hdevice), hactive⟩

theorem waiting_release_of {work : Work} (h : work ∈ w.waiting) (hne : work.deviceId ≠ deviceId) :
    work ∈ (w.releaseWork tenantId deviceId).waiting := by
  rcases mem_waiting.mp h with ⟨job, hjob, hwork⟩ | ⟨intent, hintent, hwork⟩
  · refine mem_waiting.mpr (.inl ⟨_, List.mem_map_of_mem hjob, ?_⟩)
    rw [if_neg]
    · exact hwork
    · rintro ⟨-, htarget, -⟩
      obtain ⟨-, target, htarget', rfl⟩ := PrintJob.work_eq_some.mp hwork
      exact hne (Option.some.inj (htarget'.symm.trans htarget))
  · refine mem_waiting.mpr (.inr ⟨_, List.mem_map_of_mem hintent, ?_⟩)
    rw [if_neg]
    · exact hwork
    · rintro ⟨-, htarget, -⟩
      obtain ⟨-, target, htarget', rfl⟩ := PaymentIntent.work_eq_some.mp hwork
      exact hne (Option.some.inj (htarget'.symm.trans htarget))

theorem markPrinted_sound (h : Sound w) {jobId : ℕ} {now : ℤ} {job : PrintJob}
    (hrun : markPrinted w tenantId jobId now = .ok (w', job)) : Sound w' := by
  obtain ⟨_, -, hrun⟩ := Serial.bind_ok hrun
  cases hrun
  refine h.queues rfl fun work hwork => .inl ?_
  refine waiting_map (g := id) hwork (fun job _ x hjob => ?_) (fun _ _ _ hwork => hwork) rfl
    (List.map_id _).symm
  split at hjob
  · cases hjob
  · exact hjob

theorem getIntent_sound (h : Sound w) {intentId : ℕ} {now : ℤ} {intent : PaymentIntent}
    (hrun : getIntent w tenantId intentId now = .ok (w', intent)) : Sound w' := by
  obtain ⟨_, -, hrun⟩ := Serial.bind_ok hrun
  cases hrun
  exact h.queues rfl fun work hwork => .inl (waiting_expire hwork rfl rfl)

theorem listPendingForOutlet_sound (h : Sound w) {staff : PosPrincipal} {device : Option ℕ}
    {now : ℤ} {intents : List PaymentIntent}
    (hrun : listPendingForOutlet w staff outletId device now = .ok (w', intents)) : Sound w' := by
  obtain ⟨_, -, hrun⟩ := Serial.bind_ok hrun
  cases hrun
  exact h.queues rfl fun work hwork => .inl (waiting_expire hwork rfl rfl)

theorem printBill_sound (h : Sound w) {staff : PosPrincipal} {billId id : ℕ} {source : Option ℕ}
    (hstays : leavesNothing w (.printBill staff billId source id) = true)
    {r : PrintJob × Bool} (hrun : printBill w staff billId source id = .ok (w', r)) :
    Sound w' := by
  obtain ⟨bill, hbill, hrun⟩ := Serial.bind_ok hrun
  obtain ⟨_, -, hrun⟩ := Serial.bind_ok hrun
  cases hrun
  refine h.queues rfl fun work hwork => ?_
  rcases mem_waiting.mp hwork with ⟨job, hjob, hwork⟩ | hintent
  · rcases List.mem_append.mp hjob with hjob | hjob
    · exact .inl (mem_waiting.mpr (.inl ⟨job, hjob, hwork⟩))
    · rw [List.mem_singleton.mp hjob] at hwork
      obtain ⟨-, target, htarget, rfl⟩ := PrintJob.work_eq_some.mp hwork
      exact .inr (linkedPeripheral_serves h.pkey hbill hstays htarget)
  · exact .inl (mem_waiting.mpr (.inr hintent))

theorem sendIntent_sound (h : Sound w) {staff : PosPrincipal} {bill : Bill}
    {dto : CreatePaymentIntentDto} {id : ℕ} {now : ℤ} {r : PaymentIntent × Bool}
    (hserves : ∀ target, linkedPeripheral w staff.tenantId dto.deviceId .terminal = some target →
      Serves w staff.tenantId bill.outletId .terminal target)
    (hrun : sendIntent w staff bill dto id now = .ok (w', r)) : Sound w' := by
  obtain ⟨_, -, hrun⟩ := Serial.bind_ok hrun
  obtain ⟨_, -, hrun⟩ := Serial.bind_ok hrun
  obtain ⟨_, -, hrun⟩ := Serial.bind_ok hrun
  cases hrun
  refine h.queues rfl fun work hwork => ?_
  rcases mem_waiting.mp hwork with hjob | ⟨intent, hintent, hwork⟩
  · exact .inl (mem_waiting.mpr (.inl hjob))
  · rcases List.mem_append.mp hintent with hintent | hintent
    · exact .inl (mem_waiting.mpr (.inr ⟨intent, hintent, hwork⟩))
    · rw [List.mem_singleton.mp hintent] at hwork
      obtain ⟨-, target, htarget, rfl⟩ := PaymentIntent.work_eq_some.mp hwork
      exact .inr (hserves target htarget)

theorem expireActive_sound (h : Sound w) {billId : ℕ} {now : ℤ}
    (hrun : expireActive w billId now = .ok w') : Sound w' := by
  unfold expireActive at hrun
  split at hrun
  · cases hrun
    exact h
  · split at hrun
    · cases hrun
    · cases hrun
      exact h.queues rfl fun work hwork => .inl (waiting_expire hwork rfl rfl)

theorem expireActive_devices {billId : ℕ} {now : ℤ} (hrun : expireActive w billId now = .ok w') :
    w'.devices = w.devices := by
  unfold expireActive at hrun
  split at hrun
  · cases hrun
    rfl
  · split at hrun
    · cases hrun
    · cases hrun
      rfl

theorem linkedPeripheral_congr (hdevices : w'.devices = w.devices) (source : Option ℕ) :
    linkedPeripheral w' tenantId source type = linkedPeripheral w tenantId source type := by
  unfold linkedPeripheral
  rw [hdevices]

/-- An intent is answered from one that was sent before, or sent. -/
theorem createIntent_ok {staff : PosPrincipal} {billId : ℕ} {dto : CreatePaymentIntentDto}
    {id : ℕ} {now : ℤ} {r : PaymentIntent × Bool}
    (hrun : createIntent w staff billId dto id now = .ok (w', r)) :
    (∃ existing ∈ w.paymentIntents, existing.tenantId = staff.tenantId ∧
      existing.clientKey = dto.clientKey ∧ w' = w.expireIfDue existing.id now) ∨
    ∃ bill w₁, loadBill w staff.tenantId billId = .ok bill ∧ expireActive w billId now = .ok w₁ ∧
      sendIntent w₁ staff bill dto id now = .ok (w', r) ∧
      w.paymentIntents.any (fun i => i.tenantId = staff.tenantId && i.clientKey = dto.clientKey) =
        false := by
  obtain ⟨_, -, hrun⟩ := Serial.bind_ok hrun
  obtain ⟨bill, hbill, hrun⟩ := Serial.bind_ok hrun
  obtain ⟨_, -, hrun⟩ := Serial.bind_ok hrun
  split at hrun
  next existing hfind =>
    obtain ⟨_, -, hrun⟩ := Serial.bind_ok hrun
    cases hrun
    have hexisting := List.find?_some hfind
    rw [decide_eq_true_eq] at hexisting
    exact .inl ⟨existing, List.mem_of_find?_eq_some hfind, hexisting.1, hexisting.2, rfl⟩
  next hnone =>
    obtain ⟨_, -, hrun⟩ := Serial.bind_ok hrun
    obtain ⟨w₁, hexpire, hrun⟩ := Serial.bind_ok hrun
    refine .inr ⟨bill, w₁, hbill, hexpire, hrun, List.any_eq_false.mpr fun i hi => ?_⟩
    simpa using List.find?_eq_none.mp hnone i hi

theorem createIntent_sound (h : Sound w) {staff : PosPrincipal} {billId : ℕ}
    {dto : CreatePaymentIntentDto} {id : ℕ} {now : ℤ} {r : PaymentIntent × Bool}
    (hstays : leavesNothing w (.createIntent staff billId dto id now) = true)
    (hrun : createIntent w staff billId dto id now = .ok (w', r)) : Sound w' := by
  obtain ⟨existing, -, -, -, rfl⟩ | ⟨bill, w₁, hbill, hexpire, hrun, hnew⟩ := createIntent_ok hrun
  · exact h.queues rfl fun work hwork => .inl (waiting_expire hwork rfl rfl)
  · have hdevices := expireActive_devices hexpire
    refine sendIntent_sound (expireActive_sound h hexpire) (fun target htarget => ?_) hrun
    rw [leavesNothing, hnew, Bool.false_or] at hstays
    rw [linkedPeripheral_congr hdevices] at htarget
    exact (Serves.congr hdevices).mpr (linkedPeripheral_serves h.pkey hbill hstays htarget)

/-! ### Devices -/

theorem ids_map {f : Device → Device} (hf : ∀ d, (f d).id = d.id) (devices : List Device) :
    (devices.map f).map (·.id) = devices.map (·.id) := by
  rw [List.map_map]
  exact List.map_congr_left fun d _ => hf d

/-- A device after a change of one: another one as it was, or that one changed. -/
theorem mem_updateDevice {f : Device → Device} {x : Device} :
    x ∈ (w.updateDevice deviceId f).devices ↔
      x ∈ w.devices ∧ x.id ≠ deviceId ∨ ∃ d ∈ w.devices, d.id = deviceId ∧ f d = x := by
  constructor
  · intro hx
    obtain ⟨d, hd, rfl⟩ := List.mem_map.mp hx
    by_cases hid : d.id = deviceId
    · rw [if_pos hid]
      exact .inr ⟨d, hd, hid, rfl⟩
    · rw [if_neg hid]
      exact .inl ⟨hd, hid⟩
  · rintro (⟨hx, hne⟩ | ⟨d, hd, hid, rfl⟩)
    · exact List.mem_map.mpr ⟨x, hx, if_neg hne⟩
    · exact List.mem_map.mpr ⟨d, hd, if_pos hid⟩

theorem enroll_sound (h : Sound w) {dto : EnrollDeviceDto} {id : ℕ} {now : ℤ} {device : Device}
    (hrun : enroll w dto id now = .ok (w', device)) : Sound w' := by
  obtain ⟨record, -, hrun⟩ := Serial.bind_ok hrun
  obtain ⟨_, -, hrun⟩ := Serial.bind_ok hrun
  obtain ⟨_, -, hrun⟩ := Serial.bind_ok hrun
  obtain ⟨_, hnew, hrun⟩ := Serial.bind_ok hrun
  have hnew := check_ok hnew
  cases hrun
  have hkey := h.pkey
  refine ⟨?_, fun d hd hactive posId hpaired => ?_, fun d hd hpaired => ?_,
    fun d hd d' hd' ha ha' htype posId hp hp' => ?_, fun work hwork => ?_⟩
  · rw [List.map_append, List.nodup_append]
    refine ⟨hkey, List.nodup_singleton _, fun x hx x' hx' heq => ?_⟩
    obtain ⟨d, hd, rfl⟩ := List.mem_map.mp hx
    rw [List.map_singleton, List.mem_singleton] at hx'
    exact absurd (decide_eq_true (heq.trans hx')) (List.any_eq_false.mp hnew d hd)
  · rcases List.mem_append.mp hd with hd | hd
    · obtain ⟨pos, hpos, hrest⟩ := h.linked d hd hactive posId hpaired
      exact ⟨pos, List.mem_append_left _ hpos, hrest⟩
    · rw [List.mem_singleton.mp hd] at hpaired
      cases hpaired
  · rcases List.mem_append.mp hd with hd | hd
    · exact h.peripheral d hd hpaired
    · rw [List.mem_singleton.mp hd] at hpaired
      cases hpaired
  · -- The new device is not linked yet.
    rcases List.mem_append.mp hd with hd | hd
    · rcases List.mem_append.mp hd' with hd' | hd'
      · exact h.one_each d hd d' hd' ha ha' htype posId hp hp'
      · rw [List.mem_singleton.mp hd'] at hp'
        cases hp'
    · rw [List.mem_singleton.mp hd] at hp
      cases hp
  · obtain ⟨d, hd, hserves⟩ := h.served work hwork
    exact ⟨d, List.mem_append_left _ hd, hserves⟩

theorem opsRevoke_ok {now : ℤ} {r : ℕ} (hrun : opsRevoke w deviceId now = .ok (w', r)) :
    w' = w.updateDevice deviceId (fun d => { d with status := .revoked, revokedAt := some now }) ∧
      ∃ device ∈ w.devices, device.id = deviceId := by
  obtain ⟨device, hfind, hrun⟩ := Serial.bind_ok hrun
  obtain ⟨_, -, hrun⟩ := Serial.bind_ok hrun
  have hfind := orElseThrow_ok hfind
  cases hrun
  exact ⟨rfl, device, List.mem_of_find?_eq_some hfind, by simpa using List.find?_some hfind⟩

theorem opsRevoke_sound (h : Sound w) {now : ℤ} {r : ℕ}
    (hleaves : leavesNothing w (.opsRevoke deviceId now) = true)
    (hrun : opsRevoke w deviceId now = .ok (w', r)) : Sound w' := by
  obtain ⟨rfl, -⟩ := opsRevoke_ok hrun
  obtain ⟨hnolink, hnowork⟩ := Bool.and_eq_true_iff.mp hleaves
  -- What is active afterwards is another device, as it was.
  have hother : ∀ x ∈ (w.updateDevice deviceId fun d =>
      { d with status := .revoked, revokedAt := some now }).devices, x.status = .active →
      x ∈ w.devices ∧ x.id ≠ deviceId := by
    intro x hx hactive
    rcases mem_updateDevice.mp hx with hx | ⟨d, -, -, rfl⟩
    · exact hx
    · cases hactive
  refine ⟨?_, fun x hx hactive posId hpaired => ?_, fun x hx hpaired => ?_,
    fun x hx x' hx' ha ha' htype posId hp hp' => ?_, fun work hwork => ?_⟩
  · rw [World.updateDevice, ids_map fun d => by split <;> rfl]
    exact h.pkey
  · obtain ⟨hx, -⟩ := hother x hx hactive
    obtain ⟨pos, hpos, hid, hrest⟩ := h.linked x hx hactive posId hpaired
    refine ⟨pos, mem_updateDevice.mpr (.inl ⟨hpos, fun heq => ?_⟩), hid, hrest⟩
    have hnone := List.all_eq_true.mp hnolink x hx
    rw [← heq, hid] at hnone
    simp [hactive, hpaired] at hnone
  · rcases mem_updateDevice.mp hx with ⟨hx, -⟩ | ⟨d, hd, -, rfl⟩
    · exact h.peripheral x hx hpaired
    · exact h.peripheral d hd hpaired
  · exact h.one_each x (hother x hx ha).1 x' (hother x' hx' ha').1 ha ha' htype posId hp hp'
  · obtain ⟨d, hd, hid, hserves⟩ := h.served work hwork
    have hne := List.all_eq_true.mp hnowork work hwork
    refine ⟨d, mem_updateDevice.mpr (.inl ⟨hd, fun heq => ?_⟩), hid, hserves⟩
    rw [← hid, heq] at hne
    simp at hne

/-- What the owner's revocation makes of a device. -/
def afterAdminRevoke (tenantId deviceId : ℕ) (now : ℤ) (d : Device) : Device :=
  if d.id = deviceId then { d with status := .revoked, revokedAt := some now, pairedPosId := none }
  else if d.tenantId = tenantId ∧ d.pairedPosId = some deviceId then { d with pairedPosId := none }
  else d

theorem adminRevoke_ok {now : ℤ} {r : ℕ}
    (hrun : adminRevoke w tenantId outletId deviceId now = .ok (w', r)) :
    w'.devices = w.devices.map (afterAdminRevoke tenantId deviceId now) ∧
      (∀ work, work ∈ w'.waiting ↔ work ∈ (w.releaseWork tenantId deviceId).waiting) ∧
      ∃ device ∈ w.devices, device.id = deviceId ∧ device.tenantId = tenantId := by
  obtain ⟨device, hfind, hrun⟩ := Serial.bind_ok hrun
  obtain ⟨_, -, hrun⟩ := Serial.bind_ok hrun
  have hfind := orElseThrow_ok hfind
  have hdevice := List.find?_some hfind
  rw [decide_eq_true_eq] at hdevice
  cases hrun
  refine ⟨?_, fun _ => Iff.rfl, device, List.mem_of_find?_eq_some hfind, hdevice.1, hdevice.2.1⟩
  change (w.devices.map _).map _ = _
  rw [List.map_map]
  refine List.map_congr_left fun d _ => ?_
  simp only [Function.comp_apply, afterAdminRevoke]
  by_cases hid : d.id = deviceId
  · by_cases hlink : d.tenantId = tenantId ∧ d.pairedPosId = some deviceId <;> simp [hid, hlink]
  · by_cases hlink : d.tenantId = tenantId ∧ d.pairedPosId = some deviceId <;> simp [hid, hlink]

/-- What is active and linked afterwards is another device, linked to another till, as it was. -/
theorem afterAdminRevoke_linked {now : ℤ} {d : Device} {posId : ℕ}
    (hpaired : (afterAdminRevoke tenantId deviceId now d).pairedPosId = some posId) :
    afterAdminRevoke tenantId deviceId now d = d ∧ d.id ≠ deviceId ∧
      ¬ (d.tenantId = tenantId ∧ d.pairedPosId = some deviceId) := by
  unfold afterAdminRevoke at hpaired ⊢
  split at hpaired
  next => cases hpaired
  next hid =>
    split at hpaired
    next => cases hpaired
    next hlink => exact ⟨by rw [if_neg hid, if_neg hlink], hid, hlink⟩

theorem adminRevoke_sound (h : Sound w) {now : ℤ} {r : ℕ}
    (hleaves : leavesNothing w (.adminRevoke tenantId outletId deviceId now) = true)
    (hrun : adminRevoke w tenantId outletId deviceId now = .ok (w', r)) : Sound w' := by
  obtain ⟨hdevices, hwaiting, device, hdevice, hid, htenant⟩ := adminRevoke_ok hrun
  have hlinked : ∀ x ∈ w'.devices, ∀ posId, x.pairedPosId = some posId → x ∈ w.devices ∧
      x.id ≠ deviceId ∧ ¬ (x.tenantId = tenantId ∧ x.pairedPosId = some deviceId) := by
    intro x hx posId hpaired
    rw [hdevices] at hx
    obtain ⟨d, hd, rfl⟩ := List.mem_map.mp hx
    obtain ⟨heq, hne⟩ := afterAdminRevoke_linked hpaired
    rw [heq]
    exact ⟨hd, hne⟩
  refine ⟨?_, fun x hx hactive posId hpaired => ?_, fun x hx hpaired => ?_,
    fun x hx x' hx' ha ha' htype posId hp hp' => ?_, fun work hwork => ?_⟩
  · rw [hdevices, ids_map fun d => by unfold afterAdminRevoke; split <;> [rfl; split <;> rfl]]
    exact h.pkey
  · obtain ⟨hx, -, hlink⟩ := hlinked x hx posId hpaired
    obtain ⟨pos, hpos, hpid, hptenant, hptype, hpactive⟩ := h.linked x hx hactive posId hpaired
    -- The till it is linked to is not the one revoked: it would have been unlinked from that.
    have hne : pos.id ≠ deviceId := by
      intro heq
      have hsame := device_ext h.pkey hpos hdevice (heq.trans hid.symm)
      refine hlink ⟨hptenant.symm.trans (hsame ▸ htenant), ?_⟩
      rw [hpaired, ← hpid, heq]
    refine ⟨afterAdminRevoke tenantId deviceId now pos, ?_, ?_⟩
    · rw [hdevices]
      exact List.mem_map_of_mem hpos
    · unfold afterAdminRevoke
      rw [if_neg hne]
      split
      · exact ⟨hpid, hptenant, hptype, hpactive⟩
      · exact ⟨hpid, hptenant, hptype, hpactive⟩
  · obtain ⟨posId, hposId⟩ := Option.isSome_iff_exists.mp hpaired
    exact h.peripheral x (hlinked x hx posId hposId).1 hpaired
  · exact h.one_each x (hlinked x hx posId hp).1 x' (hlinked x' hx' posId hp').1 ha ha' htype posId
      hp hp'
  · obtain ⟨hwork, hkept⟩ := waiting_release ((hwaiting work).mp hwork)
    obtain ⟨d, hd, hdid, hdoutlet, hdtenant, hdtype, hdactive, hdpaired⟩ := h.served work hwork
    have hne : d.id ≠ deviceId := by
      intro heq
      have hsame := device_ext h.pkey hd hdevice (heq.trans hid.symm)
      exact hkept ⟨hdtenant.symm.trans (hsame ▸ htenant), hdid.symm.trans heq⟩
    have hlink : ¬ (d.tenantId = tenantId ∧ d.pairedPosId = some deviceId) := by
      rintro ⟨-, hpaired⟩
      have hnone := List.all_eq_true.mp (List.all_eq_true.mp hleaves work hwork) d hd
      simp [hdid, hpaired] at hnone
    refine ⟨d, ?_, hdid, hdoutlet, hdtenant, hdtype, hdactive, hdpaired⟩
    rw [hdevices]
    exact List.mem_map.mpr ⟨d, hd, by rw [afterAdminRevoke, if_neg hne, if_neg hlink]⟩

theorem checkPos_ok {device : Device} {posId : ℕ} {u : Unit}
    (hrun : checkPos w tenantId outletId device posId = .ok u) :
    (∃ pos ∈ w.devices, pos.id = posId ∧ pos.tenantId = tenantId ∧ pos.type = .pos ∧
      pos.status = .active) ∧
    ∀ d ∈ w.devices, d.tenantId = tenantId → d.type = device.type → d.status = .active →
      d.pairedPosId = some posId → d.id = device.id := by
  obtain ⟨pos, hfind, hrun⟩ := Serial.bind_ok hrun
  have hfind := orElseThrow_ok hfind
  have hpos := List.find?_some hfind
  rw [decide_eq_true_eq] at hpos
  obtain ⟨hid, htenant, -, hactive, htype⟩ := hpos
  refine ⟨⟨pos, List.mem_of_find?_eq_some hfind, hid, htenant, htype, hactive⟩, ?_⟩
  split at hrun
  next htaken =>
    intro d hd htenant htype hactive hpaired
    by_contra hne
    exact absurd (decide_eq_true ⟨htenant, htype, hactive, hpaired, hne⟩)
      (List.find?_eq_none.mp htaken d hd)
  next => cases hrun

/-- Only a peripheral is linked, and only to a till that the check let pass. -/
theorem setPairing_ok {posDeviceId : Option ℕ} {r : ℕ × Option ℕ}
    (hrun : setPairing w tenantId outletId deviceId posDeviceId = .ok (w', r)) :
    w' = (w.releaseWork tenantId deviceId).updateDevice deviceId
      (fun d => { d with pairedPosId := posDeviceId }) ∧
    ∃ device ∈ w.devices, device.id = deviceId ∧ device.tenantId = tenantId ∧
      device.type ≠ .pos ∧ ∀ posId, posDeviceId = some posId →
        checkPos w tenantId outletId device posId = .ok () := by
  obtain ⟨device, hfind, hrun⟩ := Serial.bind_ok hrun
  obtain ⟨_, htype, hrun⟩ := Serial.bind_ok hrun
  obtain ⟨_, hcheck, hrun⟩ := Serial.bind_ok hrun
  have hfind := orElseThrow_ok hfind
  have hdevice := List.find?_some hfind
  rw [decide_eq_true_eq] at hdevice
  cases hrun
  refine ⟨rfl, device, List.mem_of_find?_eq_some hfind, hdevice.1, hdevice.2.1,
    fun heq => ?_, fun posId heq => ?_⟩
  · rcases check_ok htype with htype | htype
    · cases heq.symm.trans htype
    · cases heq.symm.trans htype
  · subst heq
    exact hcheck

/-- A till that the check lets pass is linked to no other device of the kind. -/
theorem Sound.unlinked_of_checkPos (h : Sound w) {device d : Device} {posId : ℕ}
    (hcheck : checkPos w tenantId outletId device posId = .ok ()) (hd : d ∈ w.devices)
    (hactive : d.status = .active) (htype : d.type = device.type)
    (hpaired : d.pairedPosId = some posId) : d.id = device.id := by
  obtain ⟨⟨pos, hpos, hpid, hptenant, -⟩, hfree⟩ := checkPos_ok hcheck
  obtain ⟨pos', hpos', hpid', hptenant', -⟩ := h.linked d hd hactive posId hpaired
  rw [device_ext h.pkey hpos' hpos (hpid'.trans hpid.symm), hptenant] at hptenant'
  exact hfree d hd hptenant'.symm htype hactive hpaired

theorem setPairing_sound (h : Sound w) {posDeviceId : Option ℕ} {r : ℕ × Option ℕ}
    (hrun : setPairing w tenantId outletId deviceId posDeviceId = .ok (w', r)) : Sound w' := by
  obtain ⟨rfl, device, hdevice, hid, htenant, htype, hchecked⟩ := setPairing_ok hrun
  -- Tills are not changed.
  have hpos : ∀ pos ∈ w.devices, pos.type = .pos → pos.id ≠ deviceId := by
    intro pos hpos hpostype heq
    exact htype (device_ext h.pkey hpos hdevice (heq.trans hid.symm) ▸ hpostype)
  have hkeeps : ∀ d ∈ w.devices, d.id ≠ deviceId →
      d ∈ ((w.releaseWork tenantId deviceId).updateDevice deviceId fun d =>
        { d with pairedPosId := posDeviceId }).devices :=
    fun d hd hne => mem_updateDevice.mpr (.inl ⟨hd, hne⟩)
  have hcases : ∀ x ∈ ((w.releaseWork tenantId deviceId).updateDevice deviceId fun d =>
      { d with pairedPosId := posDeviceId }).devices,
      (x ∈ w.devices ∧ x.id ≠ deviceId) ∨ x = { device with pairedPosId := posDeviceId } := by
    intro x hx
    rcases mem_updateDevice.mp hx with hx | ⟨d, hd, hdid, rfl⟩
    · exact .inl hx
    · rw [device_ext h.pkey hd hdevice (hdid.trans hid.symm)]
      exact .inr rfl
  refine ⟨?_, fun x hx hxactive posId hpaired => ?_, fun x hx hpaired => ?_,
    fun x hx x' hx' ha ha' hxtype posId hp hp' => ?_, fun work hwork => ?_⟩
  · rw [World.updateDevice, ids_map fun d => by split <;> rfl]
    exact h.pkey
  · rcases hcases x hx with ⟨hx, -⟩ | rfl
    · obtain ⟨pos, hmem, hpid, hptenant, hptype, hpactive⟩ :=
        h.linked x hx hxactive posId hpaired
      exact ⟨pos, hkeeps pos hmem (hpos pos hmem hptype), hpid, hptenant, hptype, hpactive⟩
    · obtain ⟨⟨pos, hmem, hpid, hptenant, hptype, hpactive⟩, -⟩ :=
        checkPos_ok (hchecked posId hpaired)
      exact ⟨pos, hkeeps pos hmem (hpos pos hmem hptype), hpid, hptenant.trans htenant.symm,
        hptype, hpactive⟩
  · rcases hcases x hx with ⟨hx, -⟩ | rfl
    · exact h.peripheral x hx hpaired
    · exact htype
  · -- Two that are linked to one till were so before, or the check found one of them.
    rcases hcases x hx with ⟨hx, hne⟩ | rfl <;> rcases hcases x' hx' with ⟨hx', hne'⟩ | rfl
    · exact h.one_each x hx x' hx' ha ha' hxtype posId hp hp'
    · have hsame := h.unlinked_of_checkPos (hchecked posId hp') hx ha hxtype hp
      exact absurd (hsame.trans hid) hne
    · have hsame := h.unlinked_of_checkPos (hchecked posId hp) hx' ha' hxtype.symm hp'
      exact absurd (hsame.trans hid) hne'
    · rfl
  · obtain ⟨hwork, hkept⟩ := waiting_release hwork
    obtain ⟨d, hd, hdid, hdoutlet, hdtenant, hserves⟩ := h.served work hwork
    refine ⟨d, hkeeps d hd fun heq => hkept ⟨?_, hdid.symm.trans heq⟩, hdid, hdoutlet, hdtenant,
      hserves⟩
    rw [← hdtenant, device_ext h.pkey hd hdevice (heq.trans hid.symm), htenant]

/-! ### Runs -/

/-- Every operation that leaves nothing behind keeps the invariant. -/
theorem handle_sound (h : Sound w) (op : Op) (hleaves : leavesNothing w op = true) :
    Sound (w.handle op) := by
  cases op with
  | enroll dto id now => exact Serial.after_keeps h fun _ _ => enroll_sound h
  | setPairing tenantId outletId deviceId posDeviceId =>
      exact Serial.after_keeps h fun _ _ => setPairing_sound h
  | adminRevoke tenantId outletId deviceId now =>
      exact Serial.after_keeps h fun _ _ => adminRevoke_sound h hleaves
  | opsRevoke deviceId now => exact Serial.after_keeps h fun _ _ => opsRevoke_sound h hleaves
  | printBill staff billId sourceDeviceId id =>
      exact Serial.after_keeps h fun _ _ => printBill_sound h hleaves
  | listPendingPrintJobs staff outletId deviceId =>
      refine Serial.after_keeps h fun _ _ hrun => ?_
      obtain ⟨_, -, hrun⟩ := Serial.bind_ok hrun
      cases hrun
      exact h
  | markPrinted tenantId jobId now => exact Serial.after_keeps h fun _ _ => markPrinted_sound h
  | createIntent staff billId dto id now =>
      exact Serial.after_keeps h fun _ _ => createIntent_sound h hleaves
  | getIntent tenantId intentId now => exact Serial.after_keeps h fun _ _ => getIntent_sound h
  | listPendingForOutlet staff outletId deviceId now =>
      exact Serial.after_keeps h fun _ _ => listPendingForOutlet_sound h
  | others enrolmentCodes bills simulated => exact h.queues rfl fun _ hwork => .inl hwork

/-- The device that polls the work is at its outlet. -/
theorem StrandsNothing.serves (h : StrandsNothing w) (work : Work) (hwork : work ∈ w.waiting) :
    Serves w work.tenantId work.outletId work.type work.deviceId := by
  rcases mem_waiting.mp hwork with ⟨job, hjob, hwork⟩ | ⟨intent, hintent, hwork⟩
  · obtain ⟨hprinted, target, htarget, rfl⟩ := PrintJob.work_eq_some.mp hwork
    obtain ⟨outletId, hserves, -, jobs, hpoll, hin⟩ := h.jobs job hjob hprinted target htarget
    rw [listPendingPrintJobs_own] at hpoll
    cases hpoll
    have hin := of_decide_eq_true (List.mem_filter.mp hin).2
    exact hin.2.1 ▸ hserves
  · obtain ⟨hactive, target, htarget, rfl⟩ := PaymentIntent.work_eq_some.mp hwork
    obtain ⟨outletId, hserves, -, hpolls⟩ := h.intents intent hintent hactive target htarget
    -- It is polled for while it is not due.
    obtain ⟨w', intents, hpoll, hin⟩ := hpolls (intent.expiresAt - 1) (by omega)
    obtain ⟨w'', hown⟩ := listPendingForOutlet_own w intent.tenantId outletId (some target)
      (intent.expiresAt - 1)
    rw [hown] at hpoll
    cases hpoll
    have hin := of_decide_eq_true (List.mem_filter.mp hin).2
    exact hin.2.1 ▸ hserves

/-- A print that leaves the outlet of its bill is stranded. -/
theorem printBill_strands {staff : PosPrincipal} {billId id : ℕ} {source : Option ℕ}
    {r : PrintJob × Bool} (hleaves : leavesNothing w (.printBill staff billId source id) = false)
    (hrun : printBill w staff billId source id = .ok (w', r)) : ¬ StrandsNothing w' := by
  intro hstrands
  obtain ⟨bill, hbill, hrun⟩ := Serial.bind_ok hrun
  obtain ⟨_, -, hrun⟩ := Serial.bind_ok hrun
  cases hrun
  obtain ⟨target, htarget, hnot⟩ := exists_target_of_leaves hbill hleaves
  refine hnot ((Serves.congr rfl).mp (hstrands.serves
    ⟨.printer, staff.tenantId, bill.outletId, target⟩ ?_))
  exact mem_waiting.mpr (.inl ⟨_, List.mem_append_right _ (List.mem_singleton_self _),
    PrintJob.work_eq_some.mpr ⟨rfl, target, htarget, rfl⟩⟩)

/-- So is a payment. -/
theorem createIntent_strands {staff : PosPrincipal} {billId : ℕ} {dto : CreatePaymentIntentDto}
    {id : ℕ} {now : ℤ} {r : PaymentIntent × Bool}
    (hleaves : leavesNothing w (.createIntent staff billId dto id now) = false)
    (hrun : createIntent w staff billId dto id now = .ok (w', r)) : ¬ StrandsNothing w' := by
  intro hstrands
  obtain ⟨hnew, hleaves⟩ := Bool.or_eq_false_iff.mp hleaves
  obtain ⟨existing, hmem, htenant, hkey, -⟩ | ⟨bill, w₁, hbill, hexpire, hrun, -⟩ :=
    createIntent_ok hrun
  · exact absurd (by simp [htenant, hkey]) (List.any_eq_false.mp hnew existing hmem)
  · have hdevices := expireActive_devices hexpire
    obtain ⟨target, htarget, hnot⟩ := exists_target_of_leaves hbill hleaves
    obtain ⟨_, -, hrun⟩ := Serial.bind_ok hrun
    obtain ⟨_, -, hrun⟩ := Serial.bind_ok hrun
    obtain ⟨_, -, hrun⟩ := Serial.bind_ok hrun
    cases hrun
    refine hnot ((Serves.congr hdevices).mp ((Serves.congr rfl).mp (hstrands.serves
      ⟨.terminal, staff.tenantId, bill.outletId, target⟩ ?_)))
    exact mem_waiting.mpr (.inr ⟨_, List.mem_append_right _ (List.mem_singleton_self _),
      PaymentIntent.work_eq_some.mpr
        ⟨rfl, target, (linkedPeripheral_congr hdevices dto.deviceId).trans htarget, rfl⟩⟩)

/-- The operators' revocation strands what it finds. -/
theorem opsRevoke_strands (h : Sound w) {now : ℤ} {r : ℕ}
    (hleaves : leavesNothing w (.opsRevoke deviceId now) = false)
    (hrun : opsRevoke w deviceId now = .ok (w', r)) : ¬ StrandsNothing w' := by
  intro hstrands
  obtain ⟨rfl, device, hdevice, hid⟩ := opsRevoke_ok hrun
  have hrevoked : ∀ x ∈ (w.updateDevice deviceId fun d =>
      { d with status := .revoked, revokedAt := some now }).devices, x.id = deviceId →
      x.status ≠ .active := by
    intro x hx hxid hactive
    rcases mem_updateDevice.mp hx with ⟨-, hne⟩ | ⟨d, -, -, rfl⟩
    · exact hne hxid
    · cases hactive
  rcases Bool.and_eq_false_iff.mp hleaves with hlink | hwork
  · obtain ⟨d, hd, hactive, hpaired⟩ : ∃ d ∈ w.devices, d.status = .active ∧
        d.pairedPosId = some deviceId := by simpa using hlink
    have hne := h.ne_till hd hactive hpaired
    obtain ⟨pos, hpos, hpid, -, hactive'⟩ :=
      hstrands.linked d (mem_updateDevice.mpr (.inl ⟨hd, hne⟩)) hactive deviceId hpaired
    exact hrevoked pos hpos hpid hactive'
  · obtain ⟨work, hin, heq⟩ : ∃ work ∈ w.waiting, work.deviceId = deviceId := by
      simpa using hwork
    obtain ⟨d, hd, hdid, -, -, -, hactive, -⟩ := hstrands.serves _ hin
    exact hrevoked d hd (hdid.trans heq) hactive

/-- So does the owner's revocation of a till. -/
theorem adminRevoke_strands (h : Sound w) {now : ℤ} {r : ℕ}
    (hleaves : leavesNothing w (.adminRevoke tenantId outletId deviceId now) = false)
    (hrun : adminRevoke w tenantId outletId deviceId now = .ok (w', r)) : ¬ StrandsNothing w' := by
  intro hstrands
  obtain ⟨hdevices, hwaiting, device, hdevice, hid, htenant⟩ := adminRevoke_ok hrun
  obtain ⟨work, hin, d, hd, hdid, hpaired⟩ : ∃ work ∈ w.waiting, ∃ d ∈ w.devices,
      d.id = work.deviceId ∧ d.pairedPosId = some deviceId := by
    simpa [leavesNothing] using hleaves
  obtain ⟨d', hd', hdid', -, -, -, hactive, -⟩ := h.served work hin
  rw [device_ext h.pkey hd' hd (hdid'.trans hdid.symm)] at hactive
  obtain ⟨pos, hpos, hpid, hptenant, -⟩ := h.linked d hd hactive deviceId hpaired
  have hsame := device_ext h.pkey hpos hdevice (hpid.trans hid.symm)
  have hne := h.ne_till hd hactive hpaired
  have hlink : d.tenantId = tenantId ∧ d.pairedPosId = some deviceId :=
    ⟨hptenant.symm.trans (hsame ▸ htenant), hpaired⟩
  -- The work still waits for the device, which is unlinked now.
  have hkept : work ∈ w'.waiting :=
    (hwaiting work).mpr (waiting_release_of hin fun heq => hne (hdid.trans heq))
  obtain ⟨x, hx, hxid, -, -, -, -, hxpaired⟩ := hstrands.serves _ hkept
  rw [hdevices] at hx
  obtain ⟨y, hy, rfl⟩ := List.mem_map.mp hx
  obtain ⟨posId, hposId⟩ := Option.isSome_iff_exists.mp hxpaired
  obtain ⟨heq, -, hnot⟩ := afterAdminRevoke_linked hposId
  rw [heq] at hxid
  rw [device_ext h.pkey hy hd (hxid.trans hdid.symm)] at hnot
  exact hnot hlink

/-- Nothing is enrolled, queued or charged yet. -/
def World.fresh (enrolmentCodes : List EnrolmentCode) (bills : List Bill) (simulated : List ℕ) :
    World :=
  ⟨[], enrolmentCodes, [], [], bills, simulated⟩

theorem fresh_sound (enrolmentCodes : List EnrolmentCode) (bills : List Bill)
    (simulated : List ℕ) : Sound (World.fresh enrolmentCodes bills simulated) where
  pkey := List.nodup_nil
  linked _ h := absurd h List.not_mem_nil
  peripheral _ h := absurd h List.not_mem_nil
  one_each _ h := absurd h List.not_mem_nil
  served _ h := absurd h List.not_mem_nil

/-- The topology strands no work in any run whose revocations leave nothing behind and whose work
stays at its outlet; and a revocation, a print or a payment that does not, strands it. -/
theorem strands_what_is_left {enrolmentCodes : List EnrolmentCode} {bills : List Bill}
    {simulated : List ℕ} {ops : List Op}
    (h : Serial.Run (fun w op w' => w' = w.handle op) (fun w op => leavesNothing w op = true)
      (World.fresh enrolmentCodes bills simulated) ops w) :
    StrandsNothing w ∧
    (∀ deviceId now w' r, opsRevoke w deviceId now = .ok (w', r) →
      (StrandsNothing w' ↔ leavesNothing w (.opsRevoke deviceId now) = true)) ∧
    (∀ tenantId outletId deviceId now w' r,
      adminRevoke w tenantId outletId deviceId now = .ok (w', r) →
      (StrandsNothing w' ↔ leavesNothing w (.adminRevoke tenantId outletId deviceId now) = true)) ∧
    (∀ staff billId source id w' r, printBill w staff billId source id = .ok (w', r) →
      (StrandsNothing w' ↔ leavesNothing w (.printBill staff billId source id) = true)) ∧
    ∀ staff billId dto id now w' r, createIntent w staff billId dto id now = .ok (w', r) →
      (StrandsNothing w' ↔ leavesNothing w (.createIntent staff billId dto id now) = true) := by
  have hsound : Sound w := by
    refine h.preserves (fun w op w' hw hleaves hstep => ?_) (fresh_sound _ _ _)
    rw [hstep]
    exact handle_sound hw op hleaves
  have hiff : ∀ {w' : World} {op : Op}, (leavesNothing w op = true → Sound w') →
      (leavesNothing w op = false → ¬ StrandsNothing w') →
      (StrandsNothing w' ↔ leavesNothing w op = true) := fun hkeeps hstrands =>
    ⟨fun h => by_contra fun hleaves => hstrands (Bool.of_not_eq_true hleaves) h,
      fun hleaves => (hkeeps hleaves).strandsNothing⟩
  refine ⟨hsound.strandsNothing, fun _ _ _ _ hrun => ?_, fun _ _ _ _ _ _ hrun => ?_,
    fun _ _ _ _ _ _ hrun => ?_, fun _ _ _ _ _ _ _ hrun => ?_⟩
  · exact hiff (opsRevoke_sound hsound · hrun) (opsRevoke_strands hsound · hrun)
  · exact hiff (adminRevoke_sound hsound · hrun) (adminRevoke_strands hsound · hrun)
  · exact hiff (printBill_sound hsound · hrun) (printBill_strands · hrun)
  · exact hiff (createIntent_sound hsound · hrun) (createIntent_strands · hrun)

/-- A till with a printer, and a card terminal of the outlet; a bill there and one elsewhere. -/
def sampleCodes : List EnrolmentCode :=
  [⟨1, 1, 1, "a", .pos, none, 1000⟩, ⟨2, 1, 1, "b", .printer, none, 1000⟩,
    ⟨3, 1, 1, "c", .terminal, none, 1000⟩]

def sampleBills : List Bill := [⟨7, 1, 1, .open, 5000⟩, ⟨8, 1, 2, .open, 3000⟩]

def sampleStaff : PosPrincipal := ⟨1, 1⟩

/-- The three devices are enrolled, and the printer is linked to the till. -/
def linked : List Op :=
  [.enroll ⟨"a", "Till"⟩ 11 0, .enroll ⟨"b", ""⟩ 12 0, .enroll ⟨"c", ""⟩ 13 0,
    .setPairing 1 1 12 (some 11)]

def printed : List Op := linked ++ [.printBill sampleStaff 7 (some 11) 21]

/-- The job is printed before the till is revoked. -/
def revokedAfterwards : List Op :=
  printed ++ [.createIntent sampleStaff 7 ⟨"k", 5000, some 11⟩ 31 0, .markPrinted 1 21 1,
    .adminRevoke 1 1 11 2]

theorem strands_what_is_left_sample :
    StrandsNothing (revokedAfterwards.foldl World.handle (.fresh sampleCodes sampleBills [1])) ∧
    (revokedAfterwards.foldl World.handle (.fresh sampleCodes sampleBills [1])).devices.map
      (fun d => (d.label, d.status, d.pairedPosId)) =
      [("Till", .revoked, none), ("Printer 1", .active, none), ("Card terminal 1", .active, none)] :=
  ⟨(strands_what_is_left (Serial.Run.of_foldl (by decide))).1, by decide⟩

/-- The printer is revoked by the operators, or its till by the owner, before it has printed; and
a bill of another outlet is printed from the till. -/
theorem jobs_are_stranded :
    ¬ StrandsNothing ((printed ++ [Op.opsRevoke 12 1]).foldl World.handle
      (.fresh sampleCodes sampleBills [1])) ∧
    ¬ StrandsNothing ((printed ++ [Op.adminRevoke 1 1 11 1]).foldl World.handle
      (.fresh sampleCodes sampleBills [1])) ∧
    ¬ StrandsNothing ((linked ++ [Op.printBill sampleStaff 8 (some 11) 22]).foldl World.handle
      (.fresh sampleCodes sampleBills [1])) := by
  refine ⟨fun hstrands => ?_, fun hstrands => ?_, fun hstrands => ?_⟩
  · obtain ⟨-, -, hqueue, -⟩ := hstrands.jobs ⟨21, 1, 1, 7, some 12, none⟩ (by decide) rfl 12 rfl
    exact absurd hqueue (by decide)
  · obtain ⟨-, -, hqueue, -⟩ := hstrands.jobs ⟨21, 1, 1, 7, some 12, none⟩ (by decide) rfl 12 rfl
    exact absurd hqueue (by decide)
  · -- The printer is at outlet 1, and the job at outlet 2.
    have hserves := hstrands.serves ⟨.printer, 1, 2, 12⟩ (by decide)
    obtain ⟨d, hd, -, houtlet, -⟩ := hserves
    have hone : ∀ d ∈ ((linked ++ [Op.printBill sampleStaff 8 (some 11) 22]).foldl World.handle
        (.fresh sampleCodes sampleBills [1])).devices, d.outletId ≠ some 2 := by decide
    exact hone d hd houtlet

end RestiqBackend.Devices
