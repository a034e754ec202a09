import Mathlib.Data.List.Nodup
import RestiqBackend.ReadCommitted.Rely
import RestiqBackend.Store

/-!
The hub of an outlet (`designateHub` and `revoke` of `src/ops/devices/devices.service.ts`).

A hub is never elected: an operator designates a device, which displaces the hub that the outlet
had. Finding that hub, demoting it and promoting the device are three statements, and no row
common to the outlet is held while they run, so a designation can miss the hub that another one
is about to make. A designation that goes on to promote its device remembers that it has looked;
as long as nobody makes another hub of the outlet behind its back, the hubs there are at its
commit are the one it found, which it demotes, and its own device.
-/

namespace RestiqBackend.Hubs

open ReadCommitted

/-! ### Rows -/

inductive DeviceRole
  | terminal
  | hub
  deriving DecidableEq

inductive DeviceStatus
  | active
  | revoked
  deriving DecidableEq

structure Device where
  id : ℕ
  tenantId : ℕ
  outletId : Option ℕ
  role : DeviceRole
  status : DeviceStatus
  revokedAt : Option ℤ
  deriving DecidableEq

structure AuditEvent where
  tenantId : ℕ
  actorId : ℕ
  actorEmail : String
  action : String
  reason : String
  occurredAt : ℤ
  deriving DecidableEq

structure Store where
  devices : List Device
  auditEvents : List AuditEvent
  deriving DecidableEq

inductive Key
  | device (id : ℕ)
  deriving DecidableEq

inductive Write
  | setRole (id : ℕ) (role : DeviceRole)
  | setRevoked (id : ℕ) (revokedAt : ℤ)
  | createAuditEvent (event : AuditEvent)
  deriving DecidableEq

/-- What a write makes of a device. -/
def Write.onDevice (d : Device) : Write → Device
  | .setRole id role => if d.id = id then { d with role } else d
  | .setRevoked id at_ =>
      if d.id = id then { d with status := .revoked, revokedAt := some at_ } else d
  | .createAuditEvent _ => d

def Write.onAudit : Write → List AuditEvent
  | .createAuditEvent event => [event]
  | _ => []

def Store.apply (s : Store) (w : Write) : Store :=
  ⟨s.devices.map w.onDevice, s.auditEvents ++ w.onAudit⟩

instance : WriteTo Write Store := ⟨fun w s => s.apply w⟩

/-- Having looked for the hub of an outlet, other than a device that is about to become it. -/
inductive Read
  | searched (outletId deviceId : ℕ)
  deriving DecidableEq

abbrev Tx := Txn Store Key Read Write ApiError

abbrev TxFootprint := Footprint Key Read Write

def Store.device (s : Store) (id : ℕ) : Option Device := s.devices.find? (·.id = id)

/-- An active hub of the outlet. -/
def Device.isHubOf (d : Device) (outletId : ℕ) : Bool :=
  d.outletId = some outletId && d.role = .hub && d.status = .active

/-! ### The calls -/

structure OpsPrincipal where
  id : ℕ
  email : String
  deriving DecidableEq

def notFound : ApiError := ⟨.notFound, "not_found", "No such device"⟩

/-- `tx.device.update` by the id, answering with the row it leaves; one that finds no row is
answered as a device that is not there. -/
def updateDevice (id : ℕ) (write : Write) : Tx Device := do
  let updated ← .stmt (fun _ v => match v.device id with
    | some device =>
        { locks := [.device id], writes := [write], ret := some (write.onDevice device) }
    | none => { ret := none }) .done
  match updated with
  | some device => pure device
  | none => Txn.throw notFound

def audit (operator : OpsPrincipal) (tenantId : ℕ) (action reason : String) : Tx Unit := do
  let occurredAt ← Txn.clock
  Txn.exec (fun _ => []) fun _ =>
    [.createAuditEvent ⟨tenantId, operator.id, operator.email, action, reason, occurredAt⟩]

def findDevice (id : ℕ) : Tx Device := do
  let device ← Txn.query fun v : Store => v.device id
  match device with
  | some device => pure device
  | none => Txn.throw notFound

def outletOf (device : Device) : Tx ℕ :=
  match device.outletId with
  | some outletId => pure outletId
  | none => Txn.throw
      ⟨.badRequest, "validation_failed", "Device must belong to an outlet to be designated hub"⟩

/-- The search for the hub to displace, remembered where the device is to be promoted. -/
def findPriorHub (device : Device) (outletId : ℕ) : Tx (Option Device) :=
  Txn.read (fun v : Store => v.devices.find? fun d => d.isHubOf outletId && d.id ≠ device.id)
    fun _ => if device.role = .hub then [] else [.searched outletId device.id]

/-- Demotes the hub that the outlet had, if it had another one. -/
def displace (priorHub : Option Device) : Tx Unit :=
  match priorHub with
  | some priorHub => (updateDevice priorHub.id (.setRole priorHub.id .terminal)).void
  | none => pure ()

/-- The device as it was read, where it is a hub already. -/
def promote (device : Device) : Tx Device :=
  if device.role = .hub then pure device else updateDevice device.id (.setRole device.id .hub)

/-- The device designated, and the one it displaces. -/
def designateHub (operator : OpsPrincipal) (deviceId : ℕ) (reason : String) :
    Tx (Device × Option ℕ) := do
  let device ← findDevice deviceId
  Txn.throwIf (device.status ≠ .active)
    ⟨.conflict, "conflict", "A revoked device cannot be designated hub"⟩
  let outletId ← outletOf device
  let priorHub ← findPriorHub device outletId
  displace priorHub
  let updated ← promote device
  audit operator device.tenantId "device.hub_designated" reason
  pure (updated, priorHub.map (·.id))

def revoke (operator : OpsPrincipal) (deviceId : ℕ) (reason : String) : Tx Device := do
  let device ← findDevice deviceId
  Txn.throwIf (device.status = .revoked)
    ⟨.conflict, "conflict", "This device is already revoked"⟩
  let now ← Txn.clock
  let updated ← updateDevice deviceId (.setRevoked deviceId now)
  audit operator device.tenantId "device.revoked" reason
  pure updated

inductive Call
  | designateHub (operator : OpsPrincipal) (deviceId : ℕ) (reason : String)
  | revoke (operator : OpsPrincipal) (deviceId : ℕ) (reason : String)

def Call.prog : Call → Tx Unit
  | .designateHub operator deviceId reason => (Hubs.designateHub operator deviceId reason).void
  | .revoke operator deviceId reason => (Hubs.revoke operator deviceId reason).void

def IsCall (p : Tx Unit) : Prop := ∃ call : Call, p = call.prog

/-! ### What is promised -/

/-- No outlet has two active hubs. -/
def HubExclusive (s : Store) : Prop :=
  ∀ outletId, (s.devices.filter (·.isHubOf outletId)).length ≤ 1

/-- Whether the writes make an active device other than `deviceId` a hub of the outlet. -/
def Store.makesHub (s : Store) (writes : List Write) (outletId deviceId : ℕ) : Bool :=
  s.devices.any fun d => d.id ≠ deviceId && d.outletId = some outletId && d.status = .active &&
    writes.contains (.setRole d.id .hub)

/-- No commit makes a hub of an outlet while a designation in flight of another device of the
outlet, one it is to promote, has looked for the hub already. -/
def designatesAlone (S : System Store Key Read Write ApiError) :
    Event Store Key Read Write ApiError → Bool
  | .commit t => (S.session t).all fun x => S.readsBeside t fun
      | .searched outletId deviceId => !S.store.makesHub x.done.writes outletId deviceId
  | _ => true

/-! ### What writes do to a device -/

section Writes

variable {ws : List Write} {d : Device} {s : Store} {outletId : ℕ}

@[simp] theorem onDevice_id (w : Write) (d : Device) : (w.onDevice d).id = d.id := by
  cases w with
  | setRole id role => exact (apply_ite Device.id _ _ _).trans (ite_self _)
  | setRevoked id at_ => exact (apply_ite Device.id _ _ _).trans (ite_self _)
  | createAuditEvent event => rfl

@[simp] theorem onDevice_outletId (w : Write) (d : Device) :
    (w.onDevice d).outletId = d.outletId := by
  cases w with
  | setRole id role => exact (apply_ite Device.outletId _ _ _).trans (ite_self _)
  | setRevoked id at_ => exact (apply_ite Device.outletId _ _ _).trans (ite_self _)
  | createAuditEvent event => rfl

/-- A device after a list of writes, oldest first. -/
def Device.after (ws : List Write) (d : Device) : Device := ws.foldl Write.onDevice d

@[simp] theorem after_id (ws : List Write) (d : Device) : (d.after ws).id = d.id := by
  induction ws generalizing d with
  | nil => rfl
  | cons w ws ih => exact (ih _).trans (onDevice_id w d)

@[simp] theorem after_outletId (ws : List Write) (d : Device) :
    (d.after ws).outletId = d.outletId := by
  induction ws generalizing d with
  | nil => rfl
  | cons w ws ih => exact (ih _).trans (onDevice_outletId w d)

theorem applyAll_devices (ws : List Write) (s : Store) :
    (applyAll ws s).devices = s.devices.map (·.after ws) := by
  induction ws generalizing s with
  | nil => exact (List.map_id _).symm
  | cons w ws ih =>
      rw [applyAll_cons, ih]
      exact List.map_map

theorem active_of_onDevice {w : Write} (h : (w.onDevice d).status = .active) :
    d.status = .active := by
  cases w with
  | setRole id role =>
      simp only [Write.onDevice] at h
      split at h <;> exact h
  | setRevoked id at_ =>
      simp only [Write.onDevice] at h
      split at h
      · cases h
      · exact h
  | createAuditEvent event => exact h

/-- No writes make a revoked device active again. -/
theorem active_of_after (h : (d.after ws).status = .active) : d.status = .active := by
  induction ws generalizing d with
  | nil => exact h
  | cons w ws ih => exact active_of_onDevice (ih h)

/-- A hub after a write was promoted by it, or was one before and not demoted by it. -/
theorem hub_of_onDevice {w : Write} (h : (w.onDevice d).role = .hub) :
    w = .setRole d.id .hub ∨ d.role = .hub ∧ w ≠ .setRole d.id .terminal := by
  cases w with
  | setRole id role =>
      simp only [Write.onDevice] at h
      split at h
      · rename_i hid
        obtain rfl := hid
        exact .inl (congrArg (Write.setRole d.id) h)
      · rename_i hid
        exact .inr ⟨h, fun heq => hid (Write.setRole.inj heq).1.symm⟩
  | setRevoked id at_ =>
      simp only [Write.onDevice] at h
      split at h <;> exact .inr ⟨h, fun heq => nomatch heq⟩
  | createAuditEvent event => exact .inr ⟨h, fun heq => nomatch heq⟩

/-- A device that the writes do not promote is a hub after them only if it was one before and
they did not demote it. -/
theorem hub_of_after (hpromote : .setRole d.id .hub ∉ ws) (h : (d.after ws).role = .hub) :
    d.role = .hub ∧ .setRole d.id .terminal ∉ ws := by
  induction ws generalizing d with
  | nil => exact ⟨h, List.not_mem_nil⟩
  | cons w ws ih =>
      obtain ⟨hhead, htail⟩ := not_or.mp (List.mem_cons.not.mp hpromote)
      rw [← onDevice_id w d] at htail
      obtain ⟨hrole, hdemote⟩ := ih htail h
      rw [onDevice_id] at hdemote
      obtain ⟨hrole, hne⟩ := (hub_of_onDevice hrole).resolve_left (Ne.symm hhead)
      exact ⟨hrole, List.mem_cons.not.mpr (not_or.mpr ⟨Ne.symm hne, hdemote⟩)⟩

theorem isHubOf_iff : d.isHubOf outletId = true ↔
    d.outletId = some outletId ∧ d.role = .hub ∧ d.status = .active := by
  simp [Device.isHubOf, and_assoc]

/-- Devices are told apart by their ids, and no two of them are active hubs of one outlet. -/
structure Sound (s : Store) : Prop where
  ids : (s.devices.map (·.id)).Nodup
  alone : ∀ outletId, ∀ d ∈ s.devices, ∀ d' ∈ s.devices, d.isHubOf outletId = true →
    d'.isHubOf outletId = true → d.id = d'.id

theorem Sound.hubExclusive (h : Sound s) : HubExclusive s := by
  intro outletId
  by_contra hmore
  obtain ⟨d, d', hsub⟩ : ∃ d d', [d, d'].Sublist (s.devices.filter (·.isHubOf outletId)) := by
    match hhubs : s.devices.filter (·.isHubOf outletId) with
    | [] | [_] => simp [hhubs] at hmore
    | d :: d' :: rest =>
        refine ⟨d, d', ?_⟩
        rw [hhubs]
        exact ((List.nil_sublist rest).cons_cons d').cons_cons d
  obtain ⟨hd, hhub⟩ := List.mem_filter.mp (hsub.subset List.mem_cons_self)
  obtain ⟨hd', hhub'⟩ :=
    List.mem_filter.mp (hsub.subset (List.mem_cons_of_mem _ List.mem_cons_self))
  have hpair := ((hsub.trans List.filter_sublist).map Device.id).nodup h.ids
  exact (List.nodup_cons.mp hpair).1
    (List.mem_singleton.mpr (h.alone outletId d hd d' hd' hhub hhub'))

theorem HubExclusive.sound (h : HubExclusive s) (hids : (s.devices.map (·.id)).Nodup) :
    Sound s where
  ids := hids
  alone outletId d hd d' hd' hhub hhub' := by
    have hd : d ∈ s.devices.filter (·.isHubOf outletId) := List.mem_filter.mpr ⟨hd, hhub⟩
    have hd' : d' ∈ s.devices.filter (·.isHubOf outletId) := List.mem_filter.mpr ⟨hd', hhub'⟩
    have hone := h outletId
    match hhubs : s.devices.filter (·.isHubOf outletId) with
    | [] => exact absurd (hhubs ▸ hd) List.not_mem_nil
    | [x] =>
        rw [hhubs] at hd hd'
        rw [List.mem_singleton.mp hd, List.mem_singleton.mp hd']
    | x :: y :: rest =>
        rw [hhubs] at hone
        simp at hone

/-- Every hub of the outlet is the device, the one that is still to be demoted, or demoted by
the writes. -/
def Displaced (outletId deviceId : ℕ) (prior : Option ℕ) (ws : List Write) (s : Store) : Prop :=
  ∀ d ∈ s.devices, d.isHubOf outletId = true →
    d.id = deviceId ∨ prior = some d.id ∨ .setRole d.id .terminal ∈ ws

/-- Writes that promote one device at most, and demote the other hub of its outlet. -/
theorem Sound.applyAll (h : Sound s)
    (hone : ∀ id id', .setRole id .hub ∈ ws → .setRole id' .hub ∈ ws → id = id')
    (hothers : ∀ d ∈ s.devices, .setRole d.id .hub ∈ ws → ∀ outletId,
      d.outletId = some outletId → Displaced outletId d.id none ws s) :
    Sound (applyAll ws s) := by
  refine ⟨?_, fun o e he e' he' hhub hhub' => ?_⟩
  · rw [applyAll_devices, List.map_map]
    exact (List.map_congr_left fun d _ => after_id ws d) ▸ h.ids
  · rw [applyAll_devices] at he he'
    obtain ⟨d, hd, rfl⟩ := List.mem_map.mp he
    obtain ⟨d', hd', rfl⟩ := List.mem_map.mp he'
    rw [after_id, after_id]
    obtain ⟨ho, hrole, hactive⟩ := isHubOf_iff.mp hhub
    obtain ⟨ho', hrole', hactive'⟩ := isHubOf_iff.mp hhub'
    rw [after_outletId] at ho ho'
    -- A device that the writes promote is the only hub they leave in its outlet.
    have hpromoted : ∀ x ∈ s.devices, ∀ y ∈ s.devices, .setRole x.id .hub ∈ ws →
        x.outletId = some o → y.outletId = some o → (y.after ws).role = .hub →
        (y.after ws).status = .active → x.id = y.id := by
      intro x hx y hy hw hox hoy hyrole hyactive
      by_contra hne
      have hyw : .setRole y.id .hub ∉ ws := fun hyw => hne (hone _ _ hw hyw)
      obtain ⟨hyhub, hdemote⟩ := hub_of_after hyw hyrole
      have hyhub : y.isHubOf o = true :=
        isHubOf_iff.mpr ⟨hoy, hyhub, active_of_after hyactive⟩
      rcases hothers x hx hw o hox y hy hyhub with hid | hprior | hterminal
      · exact hne hid.symm
      · cases hprior
      · exact hdemote hterminal
    by_cases hw : .setRole d.id .hub ∈ ws
    · exact hpromoted d hd d' hd' hw ho ho' hrole' hactive'
    · by_cases hw' : .setRole d'.id .hub ∈ ws
      · exact (hpromoted d' hd' d hd hw' ho' ho hrole hactive).symm
      · exact h.alone o d hd d' hd'
          (isHubOf_iff.mpr ⟨ho, (hub_of_after hw hrole).1, active_of_after hactive⟩)
          (isHubOf_iff.mpr ⟨ho', (hub_of_after hw' hrole').1, active_of_after hactive'⟩)

end Writes

/-! ### The programs -/

/-- The devices and their outlets stay, and no other hub appears in an outlet whose hub is being
looked for. -/
def discipline : Discipline Store Key Read Write where
  inv := Sound
  guar s s' := ∀ d' ∈ s'.devices, ∃ d ∈ s.devices, d.id = d'.id ∧ d.outletId = d'.outletId
  keeps _ _ _ := True
  heeds r s s' := ∀ outletId deviceId, r = .searched outletId deviceId → ∀ d' ∈ s'.devices,
    d'.isHubOf outletId = true → d'.id ≠ deviceId →
      ∃ d ∈ s.devices, d.id = d'.id ∧ d.isHubOf outletId = true
  admits _ _ _ := True
  lands _ _ := True
  ends _ _ := True
  guar_refl _ d hd := ⟨d, hd, rfl, rfl⟩
  guar_trans _ _ _ h h' d'' hd'' := by
    obtain ⟨d', hd', hid', ho'⟩ := h' d'' hd''
    obtain ⟨d, hd, hid, ho⟩ := h d' hd'
    exact ⟨d, hd, hid.trans hid', ho.trans ho'⟩
  keeps_refl _ _ := trivial
  keeps_trans _ _ _ _ _ _ := trivial
  heeds_refl _ _ _ _ _ d hd hhub _ := ⟨d, hd, rfl, hhub⟩
  heeds_trans _ _ _ _ h h' outletId deviceId hr d'' hd'' hhub hne := by
    obtain ⟨d', hd', hid', hhub'⟩ := h' outletId deviceId hr d'' hd'' hhub hne
    obtain ⟨d, hd, hid, hhub⟩ := h outletId deviceId hr d' hd' hhub' (hid'.symm ▸ hne)
    exact ⟨d, hd, hid.trans hid', hhub⟩

/-- A footprint that promotes nothing. -/
def PromotesNone (l : TxFootprint) : Prop := ∀ id, .setRole id .hub ∉ l.writes

/-- A device that was read, before anything is written: it keeps its outlet. -/
def Begun (device : Device) (l : TxFootprint) (s : Store) : Prop :=
  l.writes = [] ∧ ∀ d ∈ s.devices, d.id = device.id → d.outletId = device.outletId

/-- A designation that has looked for the hub of the outlet, and has `prior` still to demote. -/
structure Designating (outletId deviceId : ℕ) (prior : Option ℕ) (l : TxFootprint) (s : Store) :
    Prop where
  read : .searched outletId deviceId ∈ l.reads
  promotes : ∀ id, .setRole id .hub ∈ l.writes → id = deviceId
  outlet : ∀ d ∈ s.devices, d.id = deviceId → d.outletId = some outletId
  others : Displaced outletId deviceId prior l.writes s

/-- What a transaction has written when it commits. -/
def Ended (l : TxFootprint) (s : Store) : Prop :=
  PromotesNone l ∨ ∃ outletId deviceId, Designating outletId deviceId none l s

section Programs

variable {l : TxFootprint} {s : Store} {device : Device} {outletId deviceId : ℕ} {prior : Option ℕ}

theorem outlet_stable {id : ℕ} {o : Option ℕ} :
    discipline.Stable fun _ s => ∀ d ∈ s.devices, d.id = id → d.outletId = o := by
  intro l s s' hrely h d' hd' hid
  obtain ⟨d, hd, hid', ho⟩ := hrely.guar d' hd'
  exact ho.symm.trans (h d hd (hid'.trans hid))

theorem begun_stable (device : Device) : discipline.Stable (Begun device) :=
  .and (fun _ _ _ _ h => h) outlet_stable

theorem designating_stable (outletId deviceId : ℕ) (prior : Option ℕ) :
    discipline.Stable (Designating outletId deviceId prior) := by
  intro l s s' hrely h
  refine { h with outlet := outlet_stable l s s' hrely h.outlet, others := fun d' hd' hhub => ?_ }
  by_cases hid : d'.id = deviceId
  · exact .inl hid
  · obtain ⟨d, hd, hsame, hhub⟩ := hrely.heeds _ h.read outletId deviceId rfl d' hd' hhub hid
    exact hsame ▸ h.others d hd hhub

/-- What writes more than was written, and promotes nothing else. -/
theorem Designating.add (h : Designating outletId deviceId prior l s) {l' : TxFootprint}
    (hpromotes : ∀ id, .setRole id .hub ∈ l'.writes → id = deviceId) :
    Designating outletId deviceId prior (l.add l') s where
  read := List.mem_append_left _ h.read
  promotes id hid := (List.mem_append.mp hid).elim (h.promotes id) (hpromotes id)
  outlet := h.outlet
  others d hd hhub := (h.others d hd hhub).imp_right (·.imp_right (List.mem_append_left _))

theorem ended_stable : discipline.Stable Ended := by
  intro l s s' hrely h
  rcases h with h | ⟨outletId, deviceId, h⟩
  · exact .inl h
  · exact .inr ⟨outletId, deviceId, designating_stable _ _ _ l s s' hrely h⟩

theorem Ended.commits (hinv : Sound s) (h : Ended l s) : discipline.Commits l s := by
  intro _
  have hguar : discipline.guar s (ReadCommitted.applyAll l.writes s) := by
    intro d' hd'
    rw [applyAll_devices] at hd'
    obtain ⟨d, hd, rfl⟩ := List.mem_map.mp hd'
    exact ⟨d, hd, (after_id _ d).symm, (after_outletId _ d).symm⟩
  refine ⟨?_, hguar, fun _ _ => trivial, trivial⟩
  rcases h with hnone | ⟨outletId, deviceId, h⟩
  · exact hinv.applyAll (fun id _ hid => absurd hid (hnone id))
      fun d _ hd => absurd hd (hnone d.id)
  · refine hinv.applyAll (fun id id' hid hid' => ?_) fun d hd hpromoted o ho => ?_
    · exact (h.promotes id hid).trans (h.promotes id' hid').symm
    · have hid := h.promotes _ hpromoted
      obtain rfl : o = outletId := Option.some.inj (ho.symm.trans (h.outlet d hd hid))
      exact hid ▸ h.others

/-! #### What promotes nothing -/

theorem promotesNone_empty : PromotesNone .empty := fun _ => List.not_mem_nil

theorem updateDevice_emits {id : ℕ} {write : Write} (h : ∀ x, write ≠ .setRole x .hub) :
    (updateDevice id write).Emits PromotesNone := by
  refine Txn.Emits.bind ⟨fun env v => ?_, fun _ => trivial⟩ fun row => ?_
  · dsimp only
    split
    · exact fun x hx => h x (List.mem_singleton.mp hx).symm
    · exact promotesNone_empty
  · cases row <;> trivial

theorem audit_emits {operator : OpsPrincipal} {tenantId : ℕ} {action reason : String} :
    (audit operator tenantId action reason).Emits PromotesNone := by
  refine Txn.Emits.bind ⟨fun _ _ => promotesNone_empty, fun _ => trivial⟩ fun now => ?_
  refine ⟨fun _ _ x hx => ?_, fun _ => trivial⟩
  cases List.mem_singleton.mp hx

theorem displace_emits (priorHub : Option Device) : (displace priorHub).Emits PromotesNone := by
  cases priorHub with
  | none => trivial
  | some prior => exact (updateDevice_emits fun _ h => by cases h).bind fun _ => trivial

theorem findDevice_emits (id : ℕ) : (findDevice id).Emits PromotesNone := by
  refine Txn.Emits.bind ⟨fun _ _ => promotesNone_empty, fun _ => trivial⟩ fun device => ?_
  cases device <;> trivial

theorem revoke_emits (operator : OpsPrincipal) (id : ℕ) (reason : String) :
    (revoke operator id reason).Emits PromotesNone := by
  refine (findDevice_emits id).bind fun device => ?_
  refine Txn.Emits.bind (.ite trivial trivial) fun _ => ?_
  refine Txn.Emits.bind ⟨fun _ _ => promotesNone_empty, fun _ => trivial⟩ fun now => ?_
  refine (updateDevice_emits fun _ h => by cases h).bind fun updated => ?_
  exact audit_emits.bind fun _ => trivial

theorem PromotesNone.wp {α : Type} {p : Tx α} (hp : p.Emits PromotesNone) (h : PromotesNone l) :
    p.wp discipline (fun _ => Ended) l s := by
  refine Txn.wp_mono (hp.wp (P := fun l _ => PromotesNone l) (fun _ _ _ _ h => h)
    (fun l l' s h' h id hid => ?_) h) fun _ _ _ h => .inl h
  exact (List.mem_append.mp hid).elim (h id) (h' id)

/-! #### A designation -/

theorem findDevice_wp {id : ℕ} (hs : Sound s) :
    (findDevice id).wp discipline Begun .empty s := by
  refine Txn.wp_query (P := fun l s => l.writes = [] ∧ Sound s)
    (fun _ _ _ hrely h => ⟨h.1, hrely.inv h.2⟩) ⟨rfl, hs⟩ fun s h => ?_
  rw [Footprint.empty_writes, applyAll_nil]
  cases hfound : s.device id with
  | none => trivial
  | some device =>
      refine Txn.wp_done (begun_stable device) ⟨h.1, fun d hd hid => ?_⟩
      rw [List.inj_on_of_nodup_map h.2.ids hd (List.mem_of_find?_eq_some hfound) hid]

/-- The hub that is found is the only one beside the device. -/
theorem findPriorHub_wp (hrole : device.role ≠ .hub) (ho : device.outletId = some outletId)
    (hs : Sound s) (h : Begun device l s) :
    (findPriorHub device outletId).wp discipline
      (fun prior => Designating outletId device.id (prior.map (·.id))) l s := by
  refine Txn.wp_stmt (P := fun l s => Begun device l s ∧ Sound s)
    ((begun_stable device).and fun _ _ _ hrely h => hrely.inv h) ⟨h, hs⟩ fun env s ⟨h, hs⟩ _ => ?_
  refine Txn.wp_done (designating_stable _ _ _) ?_
  obtain ⟨hwrites, houtlet⟩ := h
  rw [hwrites, applyAll_nil]
  change Designating _ _ (Option.map _ (s.devices.find? fun d =>
    d.isHubOf outletId && d.id ≠ device.id)) _ s
  refine ⟨?_, fun id hid => ?_, fun d hd hid => (houtlet d hd hid).trans ho, fun d hd hhub => ?_⟩
  · rw [if_neg hrole]
    exact List.mem_append_right _ List.mem_cons_self
  · rw [Footprint.add_writes, hwrites] at hid
    exact absurd hid List.not_mem_nil
  · by_cases hid : d.id = device.id
    · exact .inl hid
    · refine .inr (.inl ?_)
      cases hfound : s.devices.find? fun d => d.isHubOf outletId && d.id ≠ device.id with
      | none =>
          have hnone := List.find?_eq_none.mp hfound d hd
          simp [hhub, hid] at hnone
      | some prior =>
          have hprior := List.find?_some hfound
          rw [Bool.and_eq_true] at hprior
          exact congrArg some
            (hs.alone outletId prior (List.mem_of_find?_eq_some hfound) d hd hprior.1 hhub)

/-- A write to one device, by a transaction that knows something and then something else. -/
theorem updateDevice_wp {P P' : TxFootprint → Store → Prop} (hP : discipline.Stable P)
    (hP' : discipline.Stable P') {id : ℕ} {write : Write} (h : P l s)
    (hwrite : ∀ l s, P l s → P' (l.add ⟨[.device id], [], [write]⟩) s) :
    (updateDevice id write).wp discipline (fun _ => P') l s := by
  refine Txn.wp_stmt hP h fun env s h _ => ?_
  cases (ReadCommitted.applyAll l.writes s).device id with
  | none => trivial
  | some device => exact Txn.wp_done hP' (hwrite l s h)

theorem displace_wp {priorHub : Option Device}
    (h : Designating outletId deviceId (priorHub.map (·.id)) l s) :
    (displace priorHub).wp discipline (fun _ => Designating outletId deviceId none) l s := by
  cases priorHub with
  | none => exact Txn.wp_done (designating_stable _ _ _) h
  | some prior =>
      refine Txn.wp_seq (updateDevice_wp (designating_stable _ _ _)
        (designating_stable outletId deviceId none) h fun l s h => ?_) fun _ l s h =>
          Txn.wp_done (designating_stable _ _ _) h
      have hadd : Designating outletId deviceId (some prior.id)
          (l.add ⟨[.device prior.id], [], [.setRole prior.id .terminal]⟩) s :=
        h.add fun _ hid => nomatch List.mem_singleton.mp hid
      refine { hadd with others := fun d hd hhub => (h.others d hd hhub).imp_right fun hd => ?_ }
      rcases hd with hprior | hdemoted
      · have hid : prior.id = d.id := Option.some.inj hprior
        exact .inr (List.mem_append_right _ (hid ▸ List.mem_cons_self))
      · exact .inr (List.mem_append_left _ hdemoted)

theorem promote_wp (h : Designating outletId device.id none l s) :
    (promote device).wp discipline (fun _ => Designating outletId device.id none) l s := by
  unfold promote
  split
  · exact Txn.wp_done (designating_stable _ _ _) h
  · refine updateDevice_wp (designating_stable _ _ _) (designating_stable _ _ _) h fun l s h => ?_
    exact h.add fun id hid => (Write.setRole.inj (List.mem_singleton.mp hid)).1

theorem designateHub_wp (operator : OpsPrincipal) (deviceId : ℕ) (reason : String)
    (hs : Sound s) :
    (designateHub operator deviceId reason).wp discipline (fun _ => Ended) .empty s := by
  refine Txn.wp_seq (Txn.wp_inv hs (findDevice_wp hs)) fun device l s ⟨hs, h⟩ => ?_
  refine Txn.wp_throwIf fun _ => ?_
  cases ho : device.outletId with
  | none => simp [outletOf, ho]
  | some outletId =>
      have houtlet : outletOf device = .done outletId := by
        rw [outletOf, ho]
        rfl
      rw [houtlet]
      change (findPriorHub device outletId >>= _).wp _ _ _ _
      by_cases hrole : device.role = .hub
      · -- A device that is a hub already is not promoted.
        refine PromotesNone.wp ?_ fun id hid => absurd (h.1 ▸ hid) List.not_mem_nil
        refine Txn.Emits.bind ⟨fun _ _ => promotesNone_empty, fun _ => trivial⟩ fun prior => ?_
        refine (displace_emits prior).bind fun _ => Txn.Emits.bind ?_ fun updated =>
          audit_emits.bind fun _ => trivial
        rw [promote, if_pos hrole]
        trivial
      · refine Txn.wp_seq (findPriorHub_wp hrole ho hs h) fun prior l s h => ?_
        refine Txn.wp_seq (displace_wp h) fun _ l s h => Txn.wp_seq (promote_wp h) fun _ l s h => ?_
        have haudit : (audit operator device.tenantId "device.hub_designated" reason).Emits
            PromotesNone := audit_emits
        refine Txn.wp_seq (haudit.wp (designating_stable _ _ _) (fun l l' s hnone h => ?_) h)
          fun _ l s h => Txn.wp_done ended_stable (.inr ⟨_, _, h⟩)
        exact h.add fun id hid => absurd hid (hnone id)

theorem Call.wp (call : Call) {s : Store} (hs : Sound s) :
    call.prog.wp discipline (fun _ => discipline.Commits) .empty s := by
  have hended : call.prog.wp discipline (fun _ => Ended) .empty s := by
    cases call with
    | designateHub operator deviceId reason =>
        exact Txn.wp_seq (designateHub_wp operator deviceId reason hs) fun _ _ _ h =>
          Txn.wp_done ended_stable h
    | revoke operator deviceId reason =>
        exact PromotesNone.wp ((revoke_emits operator deviceId reason).bind fun _ => trivial)
          promotesNone_empty
  exact Txn.wp_mono (Txn.wp_inv hs hended) fun _ _ _ h => h.2.commits h.1

end Programs

/-- Writes that make no other device a hub of the outlet leave it no hub it did not have. -/
theorem heeds_of_makesHub {s : Store} {ws : List Write} {outletId deviceId : ℕ}
    (h : s.makesHub ws outletId deviceId = false) : ∀ d' ∈ (applyAll ws s).devices,
      d'.isHubOf outletId = true → d'.id ≠ deviceId →
        ∃ d ∈ s.devices, d.id = d'.id ∧ d.isHubOf outletId = true := by
  intro d' hd' hhub hne
  rw [applyAll_devices] at hd'
  obtain ⟨d, hd, rfl⟩ := List.mem_map.mp hd'
  obtain ⟨ho, hrole, hactive⟩ := isHubOf_iff.mp hhub
  rw [after_id] at hne
  rw [after_outletId] at ho
  have hactive := active_of_after hactive
  have hkept : .setRole d.id .hub ∉ ws := by
    intro hw
    have hd := List.any_eq_false.mp h d hd
    simp [hne, ho, hactive, hw] at hd
  exact ⟨d, hd, (after_id ws d).symm, isHubOf_iff.mpr ⟨ho, (hub_of_after hkept hrole).1, hactive⟩⟩

/-! ### Runs -/

/-- In every run in which no designation makes a hub of an outlet behind the back of another one
that has already looked for the outlet's hub, an outlet has at most one. -/
theorem hub_exclusive {s₀ : Store} (hids : (s₀.devices.map (·.id)).Nodup) (h₀ : HubExclusive s₀)
    {S : System Store Key Read Write ApiError} {es : List (Event Store Key Read Write ApiError)}
    (h : Run IsCall (fun S e => designatesAlone S e = true) (System.start s₀) es S) :
    HubExclusive S.store := by
  have hP : ∀ p, IsCall p → ∀ s, discipline.inv s →
      p.wp discipline (fun _ => discipline.Commits) .empty s := by
    rintro p ⟨call, rfl⟩ s hs
    exact call.wp hs
  have hrespects : ∀ (S : System Store Key Read Write ApiError) e, designatesAlone S e = true →
      discipline.Respects S e := by
    intro S e halone
    cases e with
    | commit t =>
        refine fun x hx => ⟨trivial, fun t' x' ht' hx' r hr outletId deviceId hread => ?_⟩
        rw [designatesAlone, hx, Option.all_some] at halone
        have hnone := System.readsBeside_iff.mp halone t' x' ht' hx' r hr
        rw [hread, Bool.not_eq_true'] at hnone
        exact heeds_of_makesHub hnone
    | stmt t env => exact fun _ _ _ _ _ => trivial
    | _ => trivial
  exact (Discipline.sound hP hrespects (.start (h₀.sound hids)) h).1.inv.hubExclusive

/-! Two terminals of one outlet. -/

def sampleOutlet : Store :=
  ⟨[⟨1, 7, some 5, .terminal, .active, none⟩, ⟨2, 7, some 5, .terminal, .active, none⟩], []⟩

theorem sampleOutlet_exclusive : HubExclusive sampleOutlet := by
  intro outletId
  simp [sampleOutlet, Device.isHubOf]

def designate (deviceId : ℕ) : Tx Unit :=
  (Call.designateHub ⟨1, "ops@restiq"⟩ deviceId "Counter moved").prog

def oneAfterTheOther : List (Event Store Key Read Write ApiError) := List.flatten
  [[.begin (designate 1)], turns 0 5 0, [.commit 0, .begin (designate 2)], turns 1 6 5, [.commit 1]]

theorem hub_exclusive_sample : ∃ S,
    Run IsCall (fun S e => designatesAlone S e = true) (System.start sampleOutlet)
      oneAfterTheOther S ∧
    S.store.devices.map (·.role) = [.terminal, .hub] ∧ HubExclusive S.store := by
  have hplay : ((System.start sampleOutlet).playWhen designatesAlone oneAfterTheOther).map
      (·.store.devices.map (·.role)) = some [.terminal, .hub] := by decide
  obtain ⟨S, hS, hroles⟩ := Option.map_eq_some_iff.mp hplay
  have hrun : Run IsCall (fun S e => designatesAlone S e = true) (System.start sampleOutlet)
      oneAfterTheOther S := .of_playWhen hS fun p hp => by
    simp only [oneAfterTheOther, List.flatten_cons, List.flatten_nil, List.mem_append,
      List.mem_cons, begin_notMem_turns, Event.begin.injEq, reduceCtorEq, List.not_mem_nil,
      or_false, false_or] at hp
    rcases hp with rfl | rfl <;> exact ⟨_, rfl⟩
  exact ⟨S, hrun, hroles, hub_exclusive (by decide) sampleOutlet_exclusive hrun⟩

/-- Two designations that have both looked for a hub before either has made one. -/
def atOnce : List (Event Store Key Read Write ApiError) := List.flatten
  [[.begin (designate 1), .begin (designate 2)], turns 0 2 0, turns 1 2 2, turns 0 3 4, [.commit 0],
    turns 1 3 7, [.commit 1]]

/-- The outlet has two active hubs. -/
theorem two_hubs_at_once : HubExclusive sampleOutlet ∧ ∃ S,
    Run IsCall (fun _ _ => True) (System.start sampleOutlet) atOnce S ∧
    ¬ HubExclusive S.store := by
  refine ⟨sampleOutlet_exclusive, ?_⟩
  have hplay : ((System.start sampleOutlet).play atOnce).map
      (fun S => (S.store.devices.filter (·.isHubOf 5)).length) = some 2 := by decide
  obtain ⟨S, -, hrun, hlength⟩ := Run.of_play_map (P := IsCall) hplay fun p hp => by
    simp only [atOnce, List.flatten_cons, List.flatten_nil, List.mem_append, List.mem_cons,
      begin_notMem_turns, Event.begin.injEq, reduceCtorEq, List.not_mem_nil, or_false] at hp
    rcases hp with rfl | rfl <;> exact ⟨_, rfl⟩
  refine ⟨S, hrun, fun h => ?_⟩
  have hone := h 5
  rw [hlength] at hone
  exact absurd hone (by decide)

end RestiqBackend.Hubs
