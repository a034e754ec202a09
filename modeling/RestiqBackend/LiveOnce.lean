import RestiqBackend.GoLive
import RestiqBackend.ReadCommitted.Rely

/-!
A tenant goes live once.

Every transaction ends in writes that leave the status alone, or in one change of the status
and the event that says so (`Ended`), and it holds the tenant's row from that change on. The first
sale finds the tenant provisioning in the statement that takes the row. The owner's goLive knows
it from two reads, the guard's and its own, and an activation from one (`Found`); where what they
read is still the committed status, the tenant they change is provisioning too.
-/

namespace RestiqBackend.GoLive

open ReadCommitted

/-- The changes by which the tenant left provisioning. -/
def Store.leaving (s : Store) : List Change :=
  s.history.filter fun c => c.was = .provisioning && c.becomes ≠ .provisioning

/-- What is promised, and that none of it has begun while the tenant is provisioning. -/
structure Sound (s : Store) : Prop extends GoesLiveOnce s where
  not_left : s.status = .provisioning → s.leaving = []
  not_live : s.status = .provisioning → s.wentLive = []

/-- A tenant that was just created. -/
structure Provisioned (s : Store) : Prop where
  status : s.status = .provisioning
  history : s.history = []
  wentLive : s.wentLive = []

theorem Provisioned.sound {s : Store} (h : Provisioned s) : Sound s where
  left_once := by simp [h.history]
  reactivated := by simp [h.history]
  went_live_once := by simp [h.wentLive]
  not_left _ := by simp [Store.leaving, h.history]
  not_live _ := h.wentLive

/-! ### What a transaction leaves behind -/

/-- A write that changes neither the status nor who went live. -/
def Write.quiet : Write → Bool
  | .setStatus _ _ => false
  | .setChecklist _ => true
  | .createAuditEvent event => event.action ≠ "tenant.went_live"

/-- The changes that are made of a provisioning tenant only. -/
def Cause.opens : Cause → Bool
  | .goLive | .firstSale | .activate => true
  | .deactivate | .reactivate => false

/-- The event that goes with a change of the status. -/
inductive Makes (event : AuditEvent) : Cause → TenantStatus → Prop
  | goLive (h : event.action = "tenant.went_live") : Makes event .goLive .active
  | firstSale (h : event.action = "tenant.went_live") : Makes event .firstSale .active
  | activate (h : event.action ≠ "tenant.went_live") : Makes event .activate .active
  | deactivate (h : event.action ≠ "tenant.went_live") : Makes event .deactivate .inactive
  | reactivate (h : event.action ≠ "tenant.went_live") : Makes event .reactivate .active

/-- What the checks before a change were passed with. -/
inductive Found (reads : List Read) : Cause → Prop
  | goLive {served found : TenantStatus} (hserved : .status served ∈ reads)
      (hfound : .status found ∈ reads) (hs : served ≠ .inactive) (hf : found ≠ .active) :
      Found reads .goLive
  | firstSale : Found reads .firstSale
  | activate (hfound : .status .provisioning ∈ reads) : Found reads .activate
  | deactivate : Found reads .deactivate
  | reactivate : Found reads .reactivate

/-- Nothing is written yet that matters, and these reads were made. -/
def Begun (reads : List Read) (l : TxFootprint) (_ : Store) : Prop :=
  (∀ w ∈ l.writes, w.quiet = true) ∧ reads ⊆ l.reads

/-- What a transaction that changes the status knows of the tenant: a first sale found it
provisioning when it took the row. -/
structure Knows (cause : Cause) (l : TxFootprint) (s : Store) : Prop where
  lock : Key.tenant ∈ l.locks
  found : Found l.reads cause
  first : cause = .firstSale → s.status = .provisioning

/-- The status is changed, and the row held. -/
def Moved (cause : Cause) (status : TenantStatus) (l : TxFootprint) (s : Store) : Prop :=
  Knows cause l s ∧
    ∃ before, l.writes = before ++ [.setStatus cause status] ∧ ∀ w ∈ before, w.quiet = true

/-- What a transaction has written when it commits. -/
def Ended (l : TxFootprint) (s : Store) : Prop :=
  Begun [] l s ∨ ∃ before cause status event, Knows cause l s ∧
    l.writes = before ++ [.setStatus cause status, .createAuditEvent event] ∧
      (∀ w ∈ before, w.quiet = true) ∧ Makes event cause status

/-- The tenant's row is what a transaction that holds it keeps. -/
def discipline : Discipline Store Key Read Write where
  inv := Sound
  guar _ _ := True
  keeps k s s' := k = .tenant → s'.status = s.status
  heeds _ _ _ := True
  admits _ _ _ := True
  lands l s := l.writes.any Write.goesByRead = true → ∀ r ∈ l.reads, r ∈ s.statusRead
  ends _ _ := True
  guar_refl _ := trivial
  guar_trans _ _ _ _ _ := trivial
  keeps_refl _ _ _ := rfl
  keeps_trans _ _ _ _ h h' hk := (h' hk).trans (h hk)
  heeds_refl _ _ := trivial
  heeds_trans _ _ _ _ _ _ := trivial

/-! ### What the reads say -/

theorem Found.mono {reads reads' : List Read} {cause : Cause} (h : Found reads cause)
    (hsub : reads ⊆ reads') : Found reads' cause := by
  cases h with
  | goLive hserved hfound hs hf => exact .goLive (hsub hserved) (hsub hfound) hs hf
  | activate hfound => exact .activate (hsub hfound)
  | firstSale => exact .firstSale
  | deactivate => exact .deactivate
  | reactivate => exact .reactivate

/-- Two reads of one status that is neither inactive nor active. -/
theorem Found.provisioning {reads : List Read} {cause : Cause} (h : Found reads cause)
    {s : Store} (hreads : ∀ r ∈ reads, r ∈ s.statusRead) (hcause : cause.opens = true)
    (hfirst : cause = .firstSale → s.status = .provisioning) : s.status = .provisioning := by
  have hstatus : ∀ {status : TenantStatus}, .status status ∈ reads → status = s.status :=
    fun hmem => Read.status.inj (List.mem_singleton.mp (hreads _ hmem))
  cases h with
  | goLive hserved hfound hs hf =>
      rw [hstatus hserved] at hs
      rw [hstatus hfound] at hf
      cases h : s.status with
      | provisioning => rfl
      | active => exact absurd h hf
      | inactive => exact absurd h hs
  | activate hfound => exact (hstatus hfound).symm
  | firstSale => exact hfirst rfl
  | deactivate | reactivate => cases hcause

section Ending

variable {l : TxFootprint} {s s' : Store} {before : List Write} {cause : Cause}
  {status : TenantStatus} {event : AuditEvent}

theorem Write.quiet_apply {w : Write} (h : w.quiet = true) (s : Store) :
    (s.apply w).status = s.status ∧ (s.apply w).history = s.history ∧
      (s.apply w).wentLive = s.wentLive := by
  cases w with
  | setStatus cause status => cases h
  | setChecklist progress => exact ⟨rfl, rfl, rfl⟩
  | createAuditEvent event =>
      refine ⟨rfl, rfl, ?_⟩
      have h : event.action ≠ "tenant.went_live" := of_decide_eq_true h
      simp [Store.wentLive, Store.apply, h]

theorem quiet_applyAll {ws : List Write} (h : ∀ w ∈ ws, w.quiet = true) (s : Store) :
    (applyAll ws s).status = s.status ∧ (applyAll ws s).history = s.history ∧
      (applyAll ws s).wentLive = s.wentLive := by
  have hframe := applyAll_frame (fun s : Store => (s.status, s.history, s.wentLive))
    (fun w hw s => by
      obtain ⟨hstatus, hhistory, hlive⟩ := Write.quiet_apply (h w hw) s
      exact Prod.ext hstatus (Prod.ext hhistory hlive)) s
  simpa only [Prod.mk.injEq] using hframe

/-- What is promised looks at three things only. -/
theorem Sound.of_eq (h : Sound s) (hstatus : s'.status = s.status)
    (hhistory : s'.history = s.history) (hlive : s'.wentLive = s.wentLive) : Sound s' where
  left_once := hhistory ▸ h.left_once
  reactivated := hhistory ▸ h.reactivated
  went_live_once := hlive ▸ h.went_live_once
  not_left hs := by
    rw [Store.leaving, hhistory]
    exact h.not_left (hstatus ▸ hs)
  not_live hs := hlive ▸ h.not_live (hstatus ▸ hs)

theorem Sound.leaving_move (h : Sound s)
    (hs' : s'.history = s.history ++ [⟨s.status, status, cause⟩]) : s'.leaving.length ≤ 1 := by
  rw [Store.leaving, hs', List.filter_append, List.length_append]
  by_cases hwas : s.status = .provisioning
  · rw [← Store.leaving, h.not_left hwas]
    exact (Nat.zero_add _).le.trans (List.length_filter_le _ _)
  · have hnone : List.filter (fun c : Change => c.was = .provisioning && c.becomes ≠ .provisioning)
        [⟨s.status, status, cause⟩] = [] := by simp [hwas]
    rw [hnone]
    exact h.left_once

/-- A change that is made of the tenant it was meant for keeps the promise. -/
theorem Sound.move (h : Sound s) (hmakes : Makes event cause status)
    (hopens : cause.opens = true → s.status = .provisioning)
    (hstatus : s'.status = status)
    (hhistory : s'.history = s.history ++ [⟨s.status, status, cause⟩])
    (hlive : s'.wentLive = s.wentLive ++ [event].filter (·.action = "tenant.went_live")) :
    Sound s' := by
  have hleft : status ≠ .provisioning := by cases hmakes <;> exact fun h => nomatch h
  refine ⟨⟨h.leaving_move hhistory, ?_, ?_⟩, fun hs => absurd (hstatus ▸ hs) hleft,
    fun hs => absurd (hstatus ▸ hs) hleft⟩
  · intro c hc hwas hbecomes
    rw [hhistory, List.mem_append, List.mem_singleton] at hc
    rcases hc with hc | rfl
    · exact h.reactivated c hc hwas hbecomes
    · have hclosed : cause.opens = true → False := fun hc => nomatch (hopens hc).symm.trans hwas
      cases hmakes with
      | goLive _ | firstSale _ | activate _ => exact (hclosed rfl).elim
      | deactivate _ => cases hbecomes
      | reactivate _ => rfl
  · rw [hlive, List.length_append]
    have hone : ([event].filter (·.action = "tenant.went_live")).length ≤ 1 :=
      List.length_filter_le _ _
    have hquiet : event.action ≠ "tenant.went_live" →
        [event].filter (·.action = "tenant.went_live") = [] := fun hne => by simp [hne]
    cases hmakes with
    | goLive _ | firstSale _ =>
        -- nothing says so of a provisioning tenant yet
        rw [h.not_live (hopens rfl)]
        exact (Nat.zero_add _).le.trans hone
    | activate hne | deactivate hne | reactivate hne =>
        rw [hquiet hne]
        exact h.went_live_once

theorem Makes.goesByRead {written : Write} (hmakes : Makes event cause status)
    (hcause : cause.opens = true) (hfirst : cause ≠ .firstSale)
    (hw : written = .setStatus cause status) : written.goesByRead = true := by
  subst hw
  cases hmakes with
  | goLive _ | activate _ => rfl
  | firstSale _ => exact absurd rfl hfirst
  | deactivate _ | reactivate _ => cases hcause

theorem ended_commits (hinv : Sound s) (h : Ended l s) : discipline.Commits l s := by
  intro hlands
  rcases h with ⟨hquiet, -⟩ | ⟨before, cause, status, event, hknows, hwrites, hquiet, hmakes⟩
  · obtain ⟨hstatus, hhistory, hlive⟩ := quiet_applyAll hquiet s
    exact ⟨hinv.of_eq hstatus hhistory hlive, trivial, fun _ _ _ => hstatus, trivial⟩
  · obtain ⟨hstatus, hhistory, hlive⟩ := quiet_applyAll hquiet s
    have hopens : cause.opens = true → s.status = .provisioning := by
      intro hcause
      by_cases hfirst : cause = .firstSale
      · exact hknows.first hfirst
      · have hany : l.writes.any Write.goesByRead = true := List.any_eq_true.mpr
          ⟨_, by simp [hwrites], hmakes.goesByRead hcause hfirst rfl⟩
        exact hknows.found.provisioning (hlands hany) hcause hknows.first
    refine ⟨?_, trivial, fun k hk hkey => absurd hknows.lock (hkey ▸ hk), trivial⟩
    refine hinv.move hmakes hopens ?_ ?_ ?_
    · rw [hwrites, applyAll_append]
      rfl
    · rw [hwrites, applyAll_append, ← hhistory, ← hstatus]
      rfl
    · rw [hwrites, applyAll_append, ← hlive]
      exact List.filter_append _ _

end Ending

/-! ### Along a transaction -/

section Along

variable {l : TxFootprint} {s : Store} {cause : Cause} {status : TenantStatus} {reads : List Read}

theorem begun_stable (reads : List Read) : discipline.Stable (Begun reads) := fun _ _ _ _ h => h

theorem knows_stable (cause : Cause) : discipline.Stable (Knows cause) := fun _ _ _ hrely h =>
  { h with first := fun hfirst => (hrely.keeps _ h.lock rfl).trans (h.first hfirst) }

theorem moved_stable (cause : Cause) (status : TenantStatus) :
    discipline.Stable (Moved cause status) :=
  (knows_stable cause).and fun _ _ _ _ h => h

theorem ended_stable : discipline.Stable Ended := by
  intro l s s' hrely h
  rcases h with h | ⟨before, cause, status, event, hknows, hwrites, hquiet, hmakes⟩
  · exact .inl h
  · exact .inr ⟨before, cause, status, event, knows_stable cause l s s' hrely hknows, hwrites,
      hquiet, hmakes⟩

theorem begun_empty (s : Store) : Begun [] .empty s :=
  ⟨fun _ h => absurd h List.not_mem_nil, List.nil_subset _⟩

theorem Begun.add (h : Begun reads l s) {l' : TxFootprint}
    (h' : ∀ w ∈ l'.writes, w.quiet = true) : Begun reads (l.add l') s := by
  refine ⟨fun w hw => ?_, List.Subset.trans h.2 (List.subset_append_left _ _)⟩
  rcases List.mem_append.mp hw with hw | hw
  · exact h.1 w hw
  · exact h' w hw

theorem Begun.ended (h : Begun reads l s) : Ended l s := .inl ⟨h.1, List.nil_subset _⟩

/-- A read of the status joins those that were made. -/
theorem Begun.read (h : Begun reads l s) (v : Store) :
    Begun (.status v.status :: reads) (l.add ⟨[], v.statusRead, []⟩) s := by
  refine ⟨(h.add fun _ hw => absurd hw List.not_mem_nil).1, List.cons_subset.mpr ⟨?_, ?_⟩⟩
  · exact List.mem_append_right _ List.mem_cons_self
  · exact List.Subset.trans h.2 (List.subset_append_left _ _)

theorem assertTenantServed_wp {α : Type} {g : Unit → Tx α} {Q : α → TxFootprint → Store → Prop}
    (h : Begun reads l s) (hg : ∀ served l s, served ≠ .inactive →
      Begun (.status served :: reads) l s → (g ()).wp discipline Q l s) :
    (assertTenantServed >>= g).wp discipline Q l s := by
  refine Txn.wp_seq (R := fun _ l s => ∃ served, served ≠ .inactive ∧
      Begun (.status served :: reads) l s) ?_ fun _ l s ⟨served, hs, h⟩ => hg served l s hs h
  refine Txn.wp_read (begun_stable reads) h fun s h => ?_
  unfold Txn.throwIf
  split
  · trivial
  · rename_i hserved
    rw [Bool.or_eq_true, decide_eq_true_eq, not_or] at hserved
    exact Txn.wp_done (.exists fun served => (Discipline.Stable.const _).and (begun_stable _))
      ⟨_, hserved.1, h.read _⟩

theorem upsertChecklist_wp (f : ChecklistProgress → ChecklistProgress) (h : Begun reads l s) :
    (upsertChecklist f).wp discipline (fun _ => Begun reads) l s := by
  refine Txn.wp_stmt (begun_stable reads) h fun env s h _ => ?_
  refine Txn.wp_done (begun_stable reads) (h.add fun w hw => ?_)
  obtain rfl := List.mem_singleton.mp hw
  rfl

/-- From here on the transaction holds the tenant's row. -/
theorem updateStatus_wp (hcause : cause ≠ .firstSale) (hfound : Found reads cause)
    (h : Begun reads l s) :
    (updateStatus cause status).wp discipline (fun _ => Moved cause status) l s := by
  refine Txn.wp_stmt (begun_stable reads) h fun env s h _ => ?_
  refine Txn.wp_done (moved_stable cause status)
    ⟨⟨?_, hfound.mono ?_, fun heq => absurd heq hcause⟩, l.writes, rfl, h.1⟩
  · exact List.mem_append_right _ List.mem_cons_self
  · exact List.Subset.trans h.2 (List.subset_append_left _ _)

theorem Knows.add (h : Knows cause l s) (l' : TxFootprint) : Knows cause (l.add l') s :=
  ⟨List.mem_append_left _ h.lock, h.found.mono (List.subset_append_left _ _), h.first⟩

theorem audit_wp {actorId : Option ℕ} {actorEmail action reason : String}
    (hmakes : ∀ event : AuditEvent, event.action = action → Makes event cause status)
    (h : Moved cause status l s) :
    (audit actorId actorEmail action reason).wp discipline (fun _ => Ended) l s := by
  refine Txn.wp_clock (moved_stable cause status) h fun now s h => ?_
  refine Txn.wp_stmt (moved_stable cause status) h fun env s h _ => ?_
  obtain ⟨hknows, before, hwrites, hquiet⟩ := h
  refine Txn.wp_done ended_stable (.inr ⟨before, cause, status,
    ⟨actorId, actorEmail, action, reason, now⟩, hknows.add _, ?_, hquiet, hmakes _ rfl⟩)
  rw [Footprint.add_writes, hwrites, List.append_assoc]
  rfl

theorem updateStep_wp (step : ChecklistStep) (completed : Bool) (s : Store) :
    (updateStep step completed).wp discipline (fun _ => Ended) .empty s := by
  refine assertTenantServed_wp (begun_empty s) fun served l s _ h => ?_
  refine Txn.wp_clock (begun_stable _) h fun now s h => ?_
  exact Txn.wp_mono (upsertChecklist_wp _ h) fun _ _ _ h => h.ended

/-- The guard let the owner pass, and the owner's own read did not find the tenant active. -/
theorem goLive_wp (owner : AdminPrincipal) (s : Store) :
    (goLive owner).wp discipline (fun _ => Ended) .empty s := by
  refine assertTenantServed_wp (begun_empty s) fun served l s hserved h => ?_
  refine Txn.wp_read (begun_stable _) h fun s h => ?_
  refine Txn.wp_seq (upsertChecklist_wp id (h.read _)) fun progress l s h => ?_
  refine Txn.wp_throwIf fun _ => ?_
  split
  · exact Txn.wp_done ended_stable h.ended
  · rename_i hactive
    refine Txn.wp_seq (updateStatus_wp (fun h => nomatch h) ?_ h) fun _ l s h => ?_
    · exact .goLive (List.mem_cons_of_mem _ List.mem_cons_self) List.mem_cons_self hserved hactive
    refine Txn.wp_seq (audit_wp (fun _ => .goLive) h) fun _ l s h => ?_
    exact Txn.wp_done ended_stable h

/-- Every move by an operator, whatever it asks of the status it finds. -/
theorem move_wp {operator : OpsPrincipal} {action reason message : String}
    {allowed : TenantStatus → Bool} (hcause : cause ≠ .firstSale)
    (hfound : ∀ found, allowed found = true → Found [.status found] cause)
    (hmakes : ∀ event : AuditEvent, event.action = action → Makes event cause status) (s : Store) :
    (move operator action reason cause allowed message status).wp discipline (fun _ => Ended)
      .empty s := by
  refine Txn.wp_query (begun_stable _) (begun_empty s) fun s h => ?_
  refine Txn.wp_throwIf fun _ => ?_
  refine Txn.wp_seq (R := fun _ => Moved cause status) ?_ fun _ l s h => ?_
  · refine Txn.wp_read (begun_stable _) h fun s h => ?_
    refine Txn.wp_throwIf fun hallowed => ?_
    have hfound := hfound _ (Bool.eq_true_of_not_eq_false hallowed)
    refine Txn.wp_seq (updateStatus_wp hcause hfound (h.read _)) fun _ l s h => ?_
    exact Txn.wp_done (moved_stable cause status) h
  · refine Txn.wp_seq (audit_wp hmakes h) fun _ l s h => ?_
    exact Txn.wp_done ended_stable h

/-- The first sale holds the row in the same statement that finds the tenant provisioning. -/
theorem finalizeFirstSale_wp (settled : Except ApiError Unit) (s : Store) :
    (finalizeFirstSale settled).wp discipline (fun _ => Ended) .empty s := by
  cases settled with
  | error e => trivial
  | ok u =>
      have hwrite : (Txn.writeWhen (fun v : Store => v.status = .provisioning) [.tenant]
          [.setStatus .firstSale .active] : Tx Bool).wp discipline
          (fun wentLive l s => if wentLive then Moved .firstSale .active l s else Begun [] l s)
          .empty s := by
        refine Txn.wp_writeWhen (.const True) (fun wentLive => ?_) trivial ?_ ?_
        · cases wentLive with
          | true => exact moved_stable .firstSale .active
          | false => exact begun_stable []
        · intro s _ hs _
          exact ⟨⟨List.mem_singleton_self _, .firstSale, fun _ => of_decide_eq_true hs⟩, [], rfl,
            fun w hw => absurd hw List.not_mem_nil⟩
        · exact fun s _ _ => begun_empty s
      refine Txn.wp_seq hwrite fun wentLive l s h => ?_
      cases wentLive with
      | true => exact audit_wp (fun _ => .firstSale) h
      | false => exact Txn.wp_done ended_stable h.ended

theorem Call.wp (call : Call) (s : Store) :
    call.prog.wp discipline (fun _ => Ended) .empty s := by
  have hvoid : ∀ {α : Type} {p : Tx α}, p.wp discipline (fun _ => Ended) .empty s →
      p.void.wp discipline (fun _ => Ended) .empty s := fun h =>
    Txn.wp_seq h fun _ _ _ h => Txn.wp_done ended_stable h
  have hne : ∀ {event : AuditEvent} {action : String}, event.action = action →
      action ≠ "tenant.went_live" → event.action ≠ "tenant.went_live" := fun h hne heq =>
    hne (h.symm.trans heq)
  cases call with
  | updateStep step completed => exact hvoid (updateStep_wp step completed s)
  | goLive owner => exact hvoid (goLive_wp owner s)
  | activate operator reason =>
      refine hvoid ?_
      unfold GoLive.activate
      refine move_wp (by decide) (fun found h => ?_) (fun _ h => .activate (hne h (by decide))) s
      obtain rfl := of_decide_eq_true h
      exact .activate List.mem_cons_self
  | deactivate operator reason =>
      refine hvoid ?_
      unfold GoLive.deactivate
      exact move_wp (by decide) (fun _ _ => .deactivate)
        (fun _ h => .deactivate (hne h (by decide))) s
  | reactivate operator reason =>
      refine hvoid ?_
      unfold GoLive.reactivate
      exact move_wp (by decide) (fun _ _ => .reactivate)
        (fun _ h => .reactivate (hne h (by decide))) s
  | finalize settled => exact finalizeFirstSale_wp settled s

end Along

/-! ### Runs -/

/-- In every run in which a goLive or an activation that changes the status commits while the
status it read, its guard's included, is still the committed one, the tenant goes live once. -/
theorem goes_live_once {s₀ : Store} (h₀ : Provisioned s₀) {S : System Store Key Read Write ApiError}
    {es : List (Event Store Key Read Write ApiError)}
    (h : Run IsCall (fun S e => upToDate S e = true) (System.start s₀) es S) :
    GoesLiveOnce S.store := by
  have hP : ∀ p, IsCall p → ∀ s, discipline.inv s →
      p.wp discipline (fun _ => discipline.Commits) .empty s := by
    rintro p ⟨call, rfl⟩ s hs
    exact Txn.wp_mono (Txn.wp_inv hs (call.wp s)) fun _ _ _ h => ended_commits h.1 h.2
  have hrespects : ∀ (S : System Store Key Read Write ApiError) e, upToDate S e = true →
      discipline.Respects S e := by
    intro S e horder
    cases e with
    | commit t =>
        refine fun x hx => ⟨fun hany r hr => ?_, fun _ _ _ _ _ _ => trivial⟩
        rw [upToDate, hx, Option.all_some, hany, Bool.not_true, Bool.false_or,
          List.all_eq_true] at horder
        exact of_decide_eq_true (horder r hr)
    | stmt t env => exact fun _ _ _ _ _ => trivial
    | _ => trivial
  exact (Discipline.sound hP hrespects (.start h₀.sound) h).1.inv.toGoesLiveOnce

/-! A tenant whose checklist is complete. -/

def readyTenant : Store :=
  ⟨.provisioning, false, some (checklistSteps.map (·, 0)), [], []⟩

theorem readyTenant_provisioned : Provisioned readyTenant := ⟨rfl, rfl, rfl⟩

def ownerGoLive : Tx Unit := (Call.goLive ⟨1, "owner@restiq"⟩).prog

def operator : OpsPrincipal := ⟨2, "ops@restiq"⟩

/-- The owner going live, and the first sale after it. -/
def goLiveThenSale : List (Event Store Key Read Write ApiError) := List.flatten
  [[.begin ownerGoLive], turns 0 6 0, [.commit 0, .begin (Call.finalize (.ok ())).prog],
    turns 1 1 6, [.commit 1]]

theorem goes_live_once_sale : ∃ S,
    Run IsCall (fun S e => upToDate S e = true) (System.start readyTenant) goLiveThenSale S ∧
    S.store.wentLive.length = 1 ∧ GoesLiveOnce S.store := by
  have hplay : ((System.start readyTenant).playWhen upToDate goLiveThenSale).map
      (·.store.wentLive.length) = some 1 := by decide
  obtain ⟨S, hS, hlive⟩ := Option.map_eq_some_iff.mp hplay
  have hrun : Run IsCall (fun S e => upToDate S e = true) (System.start readyTenant)
      goLiveThenSale S := .of_playWhen hS fun p hp => by
    simp only [goLiveThenSale, List.flatten_cons, List.flatten_nil, List.mem_append, List.mem_cons,
      begin_notMem_turns, Event.begin.injEq, reduceCtorEq, List.not_mem_nil, or_false,
      false_or] at hp
    rcases hp with rfl | rfl <;> exact ⟨_, rfl⟩
  exact ⟨S, hrun, hlive, goes_live_once readyTenant_provisioned hrun⟩

/-- Two of the owner's calls that have both found the tenant provisioning. -/
def goLiveTwice : List (Event Store Key Read Write ApiError) := List.flatten
  [[.begin ownerGoLive, .begin ownerGoLive], turns 0 2 0, turns 1 2 2, turns 0 4 4, [.commit 0],
    turns 1 4 8, [.commit 1]]

/-- An activation that is overtaken by the owner going live and by a deactivation. -/
def activateLate : List (Event Store Key Read Write ApiError) := List.flatten
  [[.begin (Call.activate operator "Trial over").prog, .begin ownerGoLive,
      .begin (Call.deactivate operator "Unpaid").prog],
    turns 0 2 0, turns 1 6 2, [.commit 1], turns 2 5 8, [.commit 2], turns 0 3 13, [.commit 0]]

/-- The tenant is said to have gone live twice; a deactivated tenant is active again and nobody
reactivated it. -/
theorem goes_live_again :
    (∃ S, Run IsCall (fun _ _ => True) (System.start readyTenant) goLiveTwice S ∧
      S.store.wentLive.length = 2) ∧
    ∃ S, Run IsCall (fun _ _ => True) (System.start readyTenant) activateLate S ∧
      S.store.status = .active ∧ ⟨.inactive, .active, .activate⟩ ∈ S.store.history := by
  constructor
  · have hplay : ((System.start readyTenant).play goLiveTwice).map
        (·.store.wentLive.length) = some 2 := by decide
    obtain ⟨S, -, hrun, hresult⟩ := Run.of_play_map (P := IsCall) hplay fun p hp => by
      simp only [goLiveTwice, List.flatten_cons, List.flatten_nil, List.mem_append, List.mem_cons,
        begin_notMem_turns, Event.begin.injEq, reduceCtorEq, List.not_mem_nil, or_false,
        or_self] at hp
      exact ⟨_, hp⟩
    exact ⟨S, hrun, hresult⟩
  · have hplay : ((System.start readyTenant).play activateLate).map
        (fun S => (S.store.status, S.store.history)) = some (.active,
          [⟨.provisioning, .active, .goLive⟩, ⟨.active, .inactive, .deactivate⟩,
            ⟨.inactive, .active, .activate⟩]) := by decide
    obtain ⟨S, -, hrun, hresult⟩ := Run.of_play_map (P := IsCall) hplay fun p hp => by
      simp only [activateLate, List.flatten_cons, List.flatten_nil, List.mem_append, List.mem_cons,
        begin_notMem_turns, Event.begin.injEq, reduceCtorEq, List.not_mem_nil,
        or_false] at hp
      rcases hp with rfl | rfl | rfl <;> exact ⟨_, rfl⟩
    simp only [Prod.mk.injEq] at hresult
    exact ⟨S, hrun, hresult.1, by simp [hresult.2]⟩

end RestiqBackend.GoLive
