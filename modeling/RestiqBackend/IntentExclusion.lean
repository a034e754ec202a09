import RestiqBackend.ClosedOrder

/-!
Payment intents and settlement keep out of each other's way.

Whoever writes a tender, raises an intent or settles first takes the lock of the bill's row
and then looks at its status. What a transaction that has not done so can still write is
calm: it neither adds a row nor makes an intent active again. So from the lock on, a bill that
was found open stays open for everybody else, and the intents that were counted can only
become fewer.
-/

namespace RestiqBackend

open ReadCommitted

/-! ### Calm writes -/

/-- A write that touches neither the bill's status nor adds a tender or an intent, nor makes
an intent active. -/
def Write.calm : Write → Bool
  | .createBill _ | .deleteBill | .finalizeBill .. | .createTender _ | .createIntent _ => false
  | .updateIntent _ status _ _ => !status.isActive
  | _ => true

theorem calm_of_table {w : Write} (hbills : w.table ≠ .bills) (htenders : w.table ≠ .tenders)
    (hintents : w.table ≠ .paymentIntents) : w.calm = true := by
  cases w <;> first | rfl | exact absurd rfl hbills | exact absurd rfl htenders |
    exact absurd rfl hintents

theorem calm_not_marks {w : Write} (h : w.calm = true) : w.marks = false := by
  cases w <;> simp_all [Write.calm, Write.marks]

/-- The same intents, of which none has become active or got another time to expire. -/
def CalmerIntents : List PaymentIntent → List PaymentIntent → Prop :=
  List.Forall₂ fun i i' => i'.id = i.id ∧ i'.expiresAt = i.expiresAt ∧
    (i'.isActive = true → i.isActive = true)

theorem CalmerIntents.refl (intents : List PaymentIntent) : CalmerIntents intents intents :=
  List.forall₂_same.mpr fun _ _ => ⟨rfl, rfl, id⟩

theorem CalmerIntents.trans {is is' is'' : List PaymentIntent} (h : CalmerIntents is is')
    (h' : CalmerIntents is' is'') : CalmerIntents is is'' := by
  induction h generalizing is'' with
  | nil => exact h'
  | cons hi _ ih =>
      cases h' with
      | cons hi' h' =>
          exact .cons ⟨hi'.1.trans hi.1, hi'.2.1.trans hi.2.1, fun h => hi.2.2 (hi'.2.2 h)⟩ (ih h')

theorem CalmerIntents.ids {is is' : List PaymentIntent} (h : CalmerIntents is is') :
    is'.map (·.id) = is.map (·.id) := by
  induction h with
  | nil => rfl
  | cons hi _ ih => rw [List.map_cons, List.map_cons, hi.1, ih]

theorem calmer_updateRows {is is' : List PaymentIntent} (h : CalmerIntents is is') (id : ℕ)
    {f : PaymentIntent → PaymentIntent} (hid : ∀ i, (f i).id = i.id)
    (hexpires : ∀ i, (f i).expiresAt = i.expiresAt)
    (hactive : ∀ i i', (i'.isActive = true → i.isActive = true) →
      ((f i').isActive = true → (f i).isActive = true)) :
    CalmerIntents (updateRows PaymentIntent.id id f is) (updateRows PaymentIntent.id id f is') := by
  induction h with
  | nil => exact .nil
  | cons hi _ ih =>
      refine .cons ?_ ih
      simp only [hi.1]
      split
      · exact ⟨by rw [hid, hid, hi.1], by rw [hexpires, hexpires, hi.2.1], hactive _ _ hi.2.2⟩
      · exact hi

/-- Any write keeps calmer intents calmer. -/
theorem calmer_apply (w : Write) {s s' : Store} (h : CalmerIntents s.intents s'.intents) :
    CalmerIntents (s.apply w).intents (s'.apply w).intents := by
  cases w
  case createIntent i => exact List.rel_append h (CalmerIntents.refl [i])
  case updateIntent id status reason at_ =>
    exact calmer_updateRows h id (fun _ => rfl) (fun _ => rfl) fun _ _ _ hactive => hactive
  case flagIntent id reason =>
    exact calmer_updateRows h id (fun _ => rfl) (fun _ => rfl) fun _ _ h => h
  all_goals exact h

theorem calmer_applyAll (ws : List Write) {s s' : Store}
    (h : CalmerIntents s.intents s'.intents) :
    CalmerIntents (applyAll ws s).intents (applyAll ws s').intents := by
  induction ws generalizing s s' with
  | nil => exact h
  | cons w ws ih => exact ih (calmer_apply w h)

/-- Calm writes leave the intents calmer. -/
theorem calmer_of_calm {ws : List Write} (h : ∀ w ∈ ws, w.calm = true) (s : Store) :
    CalmerIntents s.intents (applyAll ws s).intents := by
  induction ws generalizing s with
  | nil => exact .refl _
  | cons w ws ih =>
      have hw := h w List.mem_cons_self
      refine CalmerIntents.trans ?_ (ih (fun w hw => h w (List.mem_cons_of_mem _ hw)) _)
      cases w
      case updateIntent intentId status reason at_ =>
        have hstatus : status.isActive = false := by simpa [Write.calm] using hw
        refine List.forall₂_map_right_iff.mpr (List.forall₂_same.mpr fun i _ => ?_)
        split
        · exact ⟨rfl, rfl, fun hactive => absurd (hactive.symm.trans hstatus) (by simp)⟩
        · exact ⟨rfl, rfl, id⟩
      case flagIntent intentId reason =>
        refine List.forall₂_map_right_iff.mpr (List.forall₂_same.mpr fun i _ => ?_)
        split
        · exact ⟨rfl, rfl, id⟩
        · exact ⟨rfl, rfl, id⟩
      case createIntent => simp [Write.calm] at hw
      all_goals exact .refl _

theorem calmer_pending {s s' : Store} (h : CalmerIntents s.intents s'.intents) {now : ℤ}
    (hnone : s.pendingIntents now = []) : s'.pendingIntents now = [] := by
  unfold Store.pendingIntents Store.activeIntents at *
  rw [List.filter_filter, List.filter_eq_nil_iff] at *
  intro i' hi' hpending
  obtain ⟨i, hi, -, hexpires, hactive⟩ : ∃ i ∈ s.intents, i'.id = i.id ∧
      i'.expiresAt = i.expiresAt ∧ (i'.isActive = true → i.isActive = true) := by
    clear hnone hpending
    generalize s.intents = is, s'.intents = is' at *
    induction h with
    | nil => cases hi'
    | cons hrel _ ih =>
        rcases List.mem_cons.mp hi' with rfl | hi'
        · exact ⟨_, List.mem_cons_self, hrel⟩
        · obtain ⟨i, hi, h⟩ := ih hi'
          exact ⟨i, List.mem_cons_of_mem _ hi, h⟩
  simp only [Bool.and_eq_true, decide_eq_true_eq] at hpending
  exact hnone i hi (by simp [hactive hpending.2, ← hexpires, hpending.1])

/-- Calm writes leave the tenders and the bill's status alone. -/
theorem tenders_of_calm {ws : List Write} (h : ∀ w ∈ ws, w.calm = true) (s : Store) :
    (applyAll ws s).tenders = s.tenders := by
  refine applyAll_frame Store.tenders (fun w hw v => ?_) s
  have hw := h w hw
  cases w <;> first | rfl | simp [Write.calm] at hw

theorem mark_of_unmarked {ws : List Write} (h : ∀ w ∈ ws, w.marks = false) (s : Store) :
    (applyAll ws s).mark = s.mark :=
  mark_applyAll_of_unmarked (List.filter_eq_nil_iff.mpr fun w hw => by simp [h w hw]) s

theorem mark_of_calm {ws : List Write} (h : ∀ w ∈ ws, w.calm = true) (s : Store) :
    (applyAll ws s).mark = s.mark :=
  mark_of_unmarked (fun w hw => calm_not_marks (h w hw)) s

/-! ### The discipline -/

/-- A finalized bill gets no tender and no intent; the bill's lock protects its status and
keeps the intents from growing; a settlement has seen no intent that still runs, and nobody
raised one since. -/
def exclusionDiscipline : Discipline Store Key Read Write where
  inv s := s.bill.isSome = true
  guar s s' := s.billIs .finalized = true → s'.billIs .finalized = true ∧
    s'.tenders = s.tenders ∧ s'.intents.map (·.id) = s.intents.map (·.id)
  keeps k s s' := k = .bill → s'.mark = s.mark ∧ CalmerIntents s.intents s'.intents
  heeds _ _ _ := True
  admits _ _ _ := True
  lands _ _ := True
  ends l s := (applyAll l.writes s).billIs .finalized = true → s.billIs .finalized = true ∨
    ∃ now, Read.pendingIntents now ∈ l.reads ∧ (applyAll l.writes s).pendingIntents now = []
  guar_refl _ h := ⟨h, rfl, rfl⟩
  guar_trans _ _ _ h h' hs := by
    obtain ⟨hfin, htenders, hids⟩ := h hs
    obtain ⟨hfin', htenders', hids'⟩ := h' hfin
    exact ⟨hfin', htenders'.trans htenders, hids'.trans hids⟩
  keeps_refl _ _ _ := ⟨rfl, .refl _⟩
  keeps_trans _ _ _ _ h h' hk :=
    ⟨(h' hk).1.trans (h hk).1, (h hk).2.trans (h' hk).2⟩
  heeds_refl _ _ := trivial
  heeds_trans _ _ _ _ _ _ := trivial

/-- Nothing but calm writes so far. -/
structure Calm (l : TxFootprint) (s : Store) : Prop where
  bill : s.bill.isSome = true
  calm : ∀ w ∈ l.writes, w.calm = true

/-- The bill's lock is taken. -/
structure Locked (l : TxFootprint) (s : Store) : Prop extends Calm l s where
  lock : Key.bill ∈ l.locks

/-- The bill's status is the one that was loaded. -/
structure Loaded (status : BillStatus) (l : TxFootprint) (s : Store) : Prop extends Locked l s where
  status : s.billIs status = true

/-- The lock is held on a bill that is not finalized: the transaction may write tenders and
intents. -/
structure HoldsOpen (l : TxFootprint) (s : Store) : Prop where
  bill : s.bill.isSome = true
  lock : Key.bill ∈ l.locks
  isOpen : s.billIs .finalized = false
  unmarked : ∀ w ∈ l.writes, w.marks = false

/-- Besides, no intent was pending at the time `now`. -/
structure Checked (now : ℤ) (l : TxFootprint) (s : Store) : Prop extends HoldsOpen l s where
  read : Read.pendingIntents now ∈ l.reads
  pending : (applyAll l.writes s).pendingIntents now = []

/-- The bill is settled, but for the commit. -/
structure SettledAt (now : ℤ) (l : TxFootprint) (s : Store) : Prop where
  bill : s.bill.isSome = true
  lock : Key.bill ∈ l.locks
  wasOpen : s.billIs .finalized = false
  undeleted : ∀ w ∈ l.writes, w.deletesBill = false
  read : Read.pendingIntents now ∈ l.reads
  pending : (applyAll l.writes s).pendingIntents now = []

/-- How far a transaction has come. -/
inductive BillStage (l : TxFootprint) (s : Store) : Prop
  | calm (h : Calm l s)
  | holdsOpen (h : HoldsOpen l s)
  | settled (now : ℤ) (h : SettledAt now l s)

section Stable

variable {l : TxFootprint} {s s' : Store}

theorem billIs_congr (h : s'.mark = s.mark) (status : BillStatus) :
    s'.billIs status = s.billIs status := by
  rw [billIs_mark, billIs_mark, h]

theorem calm_stable : exclusionDiscipline.Stable Calm := fun _ _ _ hrely h =>
  ⟨hrely.inv h.bill, h.calm⟩

theorem locked_stable : exclusionDiscipline.Stable Locked := fun _ _ _ hrely h =>
  ⟨calm_stable _ _ _ hrely h.toCalm, h.lock⟩

theorem loaded_stable (status : BillStatus) : exclusionDiscipline.Stable (Loaded status) :=
  fun _ _ _ hrely h => ⟨locked_stable _ _ _ hrely h.toLocked, by
    rw [billIs_congr (hrely.keeps _ h.lock rfl).1]
    exact h.status⟩

theorem holdsOpen_stable : exclusionDiscipline.Stable HoldsOpen := fun _ _ _ hrely h =>
  ⟨hrely.inv h.bill, h.lock, by
    rw [billIs_congr (hrely.keeps _ h.lock rfl).1]
    exact h.isOpen, h.unmarked⟩

theorem checked_stable (now : ℤ) : exclusionDiscipline.Stable (Checked now) :=
  fun _ _ _ hrely h => ⟨holdsOpen_stable _ _ _ hrely h.toHoldsOpen, h.read,
    calmer_pending (calmer_applyAll _ (hrely.keeps _ h.lock rfl).2) h.pending⟩

theorem settledAt_stable (now : ℤ) : exclusionDiscipline.Stable (SettledAt now) :=
  fun _ _ _ hrely h => ⟨hrely.inv h.bill, h.lock, by
    rw [billIs_congr (hrely.keeps _ h.lock rfl).1]
    exact h.wasOpen, h.undeleted, h.read,
    calmer_pending (calmer_applyAll _ (hrely.keeps _ h.lock rfl).2) h.pending⟩

theorem billStage_stable : exclusionDiscipline.Stable BillStage := by
  intro l s s' hrely h
  cases h with
  | calm h => exact .calm (calm_stable _ _ _ hrely h)
  | holdsOpen h => exact .holdsOpen (holdsOpen_stable _ _ _ hrely h)
  | settled now h => exact .settled now (settledAt_stable now _ _ _ hrely h)

end Stable

/-! ### What the parts of a request carry -/

section Carry

variable {α : Type} {p : Tx α}

/-- Tables that the writes of are always calm. -/
def calmTables : List Table :=
  [.billNumberCounters, .billShares, .creditNotes, .orderLines, .tickets, .orders, .tableSessions,
    .tenants, .taxRegistrations, .printJobs, .auditEvents, .environment]

theorem calm_of_calmTables {w : Write} (h : w.table ∈ calmTables) : w.calm = true := by
  refine calm_of_table ?_ ?_ ?_ <;> rintro htable <;> rw [htable] at h <;> exact absurd h (by decide)

theorem unmarked_of_table {w : Write} (h : w.table ≠ .bills) : w.marks = false := by
  cases w <;> first | rfl | exact absurd rfl h

theorem Calm.add {l l' : TxFootprint} {s : Store} (h : Calm l s)
    (hcalm : ∀ w ∈ l'.writes, w.calm = true) : Calm (l.add l') s :=
  ⟨h.bill, fun w hw => (List.mem_append.mp hw).elim (h.calm w) (hcalm w)⟩

theorem HoldsOpen.add {l l' : TxFootprint} {s : Store} (h : HoldsOpen l s)
    (hmarks : ∀ w ∈ l'.writes, w.marks = false) : HoldsOpen (l.add l') s :=
  ⟨h.bill, List.mem_append_left _ h.lock, h.isOpen,
    fun w hw => (List.mem_append.mp hw).elim (h.unmarked w) (hmarks w)⟩

/-- What touches neither bills nor intents keeps the intents that were seen. -/
theorem pending_add {l l' : TxFootprint} {s : Store} {now : ℤ}
    (h : (applyAll l.writes s).pendingIntents now = [])
    (hintents : ∀ w ∈ l'.writes, w.table ≠ .paymentIntents) :
    (applyAll (l.add l').writes s).pendingIntents now = [] := by
  have hsame : (applyAll l'.writes (applyAll l.writes s)).intents = (applyAll l.writes s).intents :=
    applyAll_frame Store.intents (fun w hw v => w.frame v .paymentIntents
      (by simpa using (hintents w hw).symm)) _
  rw [Footprint.add_writes, applyAll_append]
  unfold Store.pendingIntents Store.activeIntents at *
  rw [hsame]
  exact h

theorem carries_calm (hp : p.Emits fun l => ∀ w ∈ l.writes, w.calm = true) :
    p.Carries exclusionDiscipline Calm :=
  hp.carries calm_stable fun _ _ _ hcalm h => h.add hcalm

theorem carries_locked (hp : p.Emits fun l => ∀ w ∈ l.writes, w.calm = true) :
    p.Carries exclusionDiscipline Locked :=
  hp.carries locked_stable fun _ _ _ hcalm h => ⟨h.toCalm.add hcalm, List.mem_append_left _ h.lock⟩

theorem carries_loaded (status : BillStatus)
    (hp : p.Emits fun l => ∀ w ∈ l.writes, w.calm = true) :
    p.Carries exclusionDiscipline (Loaded status) :=
  hp.carries (loaded_stable status) fun _ _ _ hcalm h =>
    ⟨⟨h.toCalm.add hcalm, List.mem_append_left _ h.lock⟩, h.status⟩

theorem carries_holdsOpen (hp : p.Emits fun l => ∀ w ∈ l.writes, w.marks = false) :
    p.Carries exclusionDiscipline HoldsOpen :=
  hp.carries holdsOpen_stable fun _ _ _ hmarks h => h.add hmarks

theorem carries_checked (now : ℤ) {ts : List Table} (hp : p.Emits (Touching ts))
    (hbills : .bills ∉ ts) (hintents : .paymentIntents ∉ ts) :
    p.Carries exclusionDiscipline (Checked now) :=
  hp.carries (checked_stable now) fun _ _ _ hts h =>
    ⟨h.toHoldsOpen.add fun w hw => unmarked_of_table fun htable => hbills (htable ▸ hts w hw),
      List.mem_append_left _ h.read,
      pending_add h.pending fun w hw htable => hintents (htable ▸ hts w hw)⟩

theorem carries_settledAt (now : ℤ) {ts : List Table} (hp : p.Emits (Touching ts))
    (hbills : .bills ∉ ts) (hintents : .paymentIntents ∉ ts) :
    p.Carries exclusionDiscipline (SettledAt now) := by
  refine hp.carries (settledAt_stable now) fun _ _ _ hts h =>
    ⟨h.bill, List.mem_append_left _ h.lock, h.wasOpen, fun w hw => ?_, List.mem_append_left _ h.read,
      pending_add h.pending fun w hw htable => hintents (htable ▸ hts w hw)⟩
  rcases List.mem_append.mp hw with hw | hw
  · exact h.undeleted w hw
  · have htable := hts w hw
    cases w
    case deleteBill => exact absurd htable hbills
    all_goals rfl

theorem emits_calm {ts : List Table} (hts : ∀ t ∈ ts, t ∈ calmTables) (hp : p.Emits (Touching ts)) :
    p.Emits fun l => ∀ w ∈ l.writes, w.calm = true :=
  hp.mono fun _ h w hw => calm_of_calmTables (hts _ (h w hw))

theorem emits_unmarked {ts : List Table} (hbills : .bills ∉ ts) (hp : p.Emits (Touching ts)) :
    p.Emits fun l => ∀ w ∈ l.writes, w.marks = false :=
  hp.mono fun _ h w hw => unmarked_of_table fun htable => hbills (htable ▸ h w hw)

/-- Reads carry every stage. -/
theorem carries_stage (hp : p.Emits (Touching [])) : p.Carries exclusionDiscipline BillStage :=
  hp.carries billStage_stable fun l l' s hreads h => by
    have hnone : ∀ w ∈ l'.writes, False := fun w hw => List.not_mem_nil (hreads w hw)
    cases h with
    | calm h => exact .calm (h.add fun w hw => (hnone w hw).elim)
    | holdsOpen h => exact .holdsOpen (h.add fun w hw => (hnone w hw).elim)
    | settled now h =>
        refine .settled now ⟨h.bill, List.mem_append_left _ h.lock, h.wasOpen, fun w hw => ?_,
          List.mem_append_left _ h.read, pending_add h.pending fun w hw => (hnone w hw).elim⟩
        exact (List.mem_append.mp hw).elim (h.undeleted w) fun hw => (hnone w hw).elim

end Carry

/-! ### From the lock to an open bill -/

section Flow

variable {l : TxFootprint} {s : Store}

theorem wp_raiseIf {D : Discipline Store Key Read Write} {α : Type} {c : Prop} [Decidable c]
    {kind : ErrorKind} {code message : String} {g : Unit → Tx α}
    {Q : α → TxFootprint → Store → Prop} (h : ¬ c → (g ()).wp D Q l s) :
    (raiseIf c kind code message >>= g).wp D Q l s := by
  unfold raiseIf
  split
  · trivial
  · rename_i hc
    exact h hc

theorem lockBill_wp (h : Calm l s) :
    lockBill.wp exclusionDiscipline (fun _ => Locked) l s := by
  refine Txn.wp_stmt calm_stable h fun env s h _ => Txn.wp_done locked_stable ?_
  refine ⟨h.add (by simp), List.mem_append_right _ ?_⟩
  have hbill : (applyAll l.writes s).bill.isSome = true := by
    have := congrArg Option.isSome (mark_of_calm h.calm s)
    simpa [Store.mark, h.bill] using this
  simp only [hbill, if_true]
  exact List.mem_singleton_self _

/-- What a transaction that is still calm sees of the bill is what is committed. -/
theorem Calm.billIs (h : Calm l s) (status : BillStatus) :
    (applyAll l.writes s).billIs status = s.billIs status :=
  billIs_congr (mark_of_calm h.calm s) status

theorem loadBill_wp (h : Locked l s) :
    loadBill.wp exclusionDiscipline (fun b => Loaded b.bill.status) l s := by
  refine Txn.wp_stmt locked_stable h fun env s h _ => ?_
  cases hb : (applyAll l.writes s).bill with
  | none =>
      simp only [Store.loadedBill, hb, Option.map_none]
      trivial
  | some b =>
      simp only [Store.loadedBill, hb, Option.map_some]
      refine Txn.wp_done (loaded_stable b.status) ⟨⟨h.toCalm.add (by simp),
        List.mem_append_left _ h.lock⟩, ?_⟩
      rw [← h.toCalm.billIs, Store.billIs, hb]
      simp

theorem updateBillTotals_wp {status : BillStatus} (h : Loaded status l s) (subtotalMinor : ℤ)
    (tax : TaxResult) : (updateBillTotals subtotalMinor tax).wp exclusionDiscipline
      (fun b => Loaded b.bill.status) l s := by
  refine Txn.wp_stmt (loaded_stable status) h fun env s h _ => ?_
  cases hb : (applyAll l.writes s).bill with
  | none =>
      simp only [Store.loadedBill, Store.apply, hb, Option.map_none]
      trivial
  | some b =>
      simp only [Store.loadedBill, Store.apply, hb, Option.map_some]
      have hstatus : s.billIs b.status = true := by
        rw [← h.toCalm.billIs, Store.billIs, hb]
        simp
      exact Txn.wp_done (loaded_stable b.status) ⟨⟨h.toCalm.add (by simp [Write.calm]),
        List.mem_append_left _ h.lock⟩, hstatus⟩

theorem refreshOpenBillTotals_wp {b : BillWithTenders} (h : Loaded b.bill.status l s) :
    (refreshOpenBillTotals b).wp exclusionDiscipline (fun b => Loaded b.bill.status) l s := by
  unfold refreshOpenBillTotals
  split
  · exact Txn.wp_done (loaded_stable _) h
  · refine Txn.wp_seq (carries_loaded _ (emits_calm (by simp) computeBillTotals_emits) l s h) ?_
    rintro ⟨subtotalMinor, tax⟩ l s h
    dsimp only
    split
    · exact Txn.wp_done (loaded_stable b.bill.status) h
    · exact updateBillTotals_wp h _ _

/-- A bill that was found not to be finalized, under its lock. -/
theorem Loaded.holdsOpen {status : BillStatus} (h : Loaded status l s) (hne : status ≠ .finalized) :
    HoldsOpen l s := by
  refine ⟨h.bill, h.lock, ?_, fun w hw => calm_not_marks (h.calm w hw)⟩
  have hstatus := h.status
  rw [billIs_mark] at hstatus ⊢
  cases hmark : s.mark with
  | none => rfl
  | some mark =>
      rw [hmark] at hstatus
      simp only [Option.any_some, decide_eq_true_eq] at hstatus ⊢
      rw [hstatus]
      exact decide_eq_false hne

end Flow

/-! ### Settling -/

section Settling

variable {l : TxFootprint} {s : Store}

theorem assertNothingPending_wp (h : HoldsOpen l s) :
    assertNothingPending.wp exclusionDiscipline (fun _ l s => ∃ now, Checked now l s) l s := by
  have hstable : exclusionDiscipline.Stable fun l s => ∃ now, Checked now l s :=
    fun l s s' hrely ⟨now, h⟩ => ⟨now, checked_stable now l s s' hrely h⟩
  refine Txn.wp_seq (carries_holdsOpen (emits_unmarked List.not_mem_nil emits_clock) l s h) ?_
  intro now l s h
  -- The count is of what is there when it is made; the check is made on its answer.
  refine Txn.wp_stmt holdsOpen_stable h fun env s h _ => ?_
  refine Txn.wp_bind (Txn.wp_done (fun l s s' hrely hwp => Txn.wp_rely hwp hrely) ?_)
  unfold raiseIf
  split
  · trivial
  · rename_i hnone
    refine Txn.wp_done hstable ⟨now, ⟨h.add (by simp), List.mem_append_right _ ?_, ?_⟩⟩
    · exact List.mem_singleton_self _
    · rw [Footprint.add_writes, List.append_nil]
      simpa using hnone

theorem checkSettlement_wp (params : CommitFinalizeParams) (h : HoldsOpen l s) :
    (checkSettlement params).wp exclusionDiscipline (fun _ l s => ∃ now, Checked now l s) l s := by
  refine wp_raiseIf fun _ => Txn.wp_seq (assertNothingPending_wp h) fun _ l s hchecked => ?_
  obtain ⟨now, h⟩ := hchecked
  refine Txn.wp_mono (carries_checked now ?_ List.not_mem_nil List.not_mem_nil l s h)
    fun _ _ _ h => ⟨now, h⟩
  exact assertNotSimulated_emits.bind fun _ => (emits_raiseIf ..).bind fun _ =>
    (discountedTax_emits _ _).bind fun _ => (assertCovered_emits _).bind fun _ => trivial

theorem writeSettlement_wp (params : CommitFinalizeParams) (roundOff : Option ℤ)
    (tax : Option TaxResult) {now : ℤ} (h : Checked now l s) :
    (writeSettlement params roundOff tax).wp exclusionDiscipline (fun _ => SettledAt now) l s := by
  have hcounter : upsertBillNumberCounter.Emits (Touching [.billNumberCounters]) :=
    ⟨fun _ _ => by simp [Touching, Write.table], fun _ => trivial⟩
  have hrest : ∀ outletId, (do
      let _ ← fireOnSend outletId
      Txn.exec (fun _ => [.order]) fun _ => [.updateOrderStatus .closed]
      goLiveOnFirstSale
      loadBill : Tx BillWithTenders).Emits
        (Touching [.tickets, .orders, .tenants, .auditEvents]) := fun outletId =>
    (emits_within (fireOnSend_emits outletId) (by decide)).bind fun _ =>
      (emits_exec (by simp [Write.table])).bind fun _ =>
      (emits_within goLiveOnFirstSale_emits (by decide)).bind fun _ => emits_reads loadBill_emits
  refine Txn.wp_seq (carries_checked now hcounter (by decide) (by decide) l s h) fun number l s h => ?_
  refine Txn.wp_seq (carries_checked now emits_clock List.not_mem_nil List.not_mem_nil l s h) ?_
  intro finalizedAt l s h
  refine Txn.wp_seq (Txn.wp_writeWhen (Q := fun updated l s => updated = true → SettledAt now l s)
    (checked_stable now) (fun updated l s s' hrely h hupdated =>
      settledAt_stable now l s s' hrely (h hupdated)) h (fun s h _ _ _ => ?_) fun _ _ _ hfalse => ?_) ?_
  · refine ⟨h.bill, List.mem_append_left _ h.lock, h.isOpen, fun w hw => ?_,
      List.mem_append_left _ h.read, pending_add h.pending fun w hw => ?_⟩
    · rcases List.mem_append.mp hw with hw | hw
      · have hunmarked := h.unmarked w hw
        cases w <;> first | rfl | simp [Write.marks] at hunmarked
      · obtain rfl := List.mem_singleton.mp hw
        rfl
    · obtain rfl := List.mem_singleton.mp hw
      simp [Write.table]
  · exact absurd hfalse (by simp)
  · intro updated l s h
    refine wp_raiseIf fun hupdated => ?_
    exact carries_settledAt now (hrest _) (by decide) (by decide) l s (h (by simpa using hupdated))

theorem commitFinalize_wp (params : CommitFinalizeParams) (h : HoldsOpen l s) :
    (commitFinalize params).wp exclusionDiscipline (fun _ l s => ∃ now, SettledAt now l s) l s := by
  refine Txn.wp_seq (checkSettlement_wp params h) fun checked l s hchecked => ?_
  obtain ⟨now, h⟩ := hchecked
  exact Txn.wp_mono (writeSettlement_wp params _ _ h) fun _ _ _ h => ⟨now, h⟩

theorem settled_stable : exclusionDiscipline.Stable fun l s => ∃ now, SettledAt now l s :=
  fun l s s' hrely ⟨now, h⟩ => ⟨now, settledAt_stable now l s s' hrely h⟩

theorem completeBill_wp (order : Order) (h : HoldsOpen l s) :
    (completeBill order).wp exclusionDiscipline (fun _ l s => ∃ now, SettledAt now l s) l s := by
  have hload := carries_holdsOpen (emits_unmarked List.not_mem_nil loadBill_emits)
  refine Txn.wp_seq (hload l s h) fun bill l s h => ?_
  refine Txn.wp_seq (commitFinalize_wp _ h) fun _ l s hsettled => ?_
  split
  · obtain ⟨now, h⟩ := hsettled
    have hsession : (Txn.exec (fun _ => [.session]) fun _ => [.settleSession] : Tx Unit).Emits
        (Touching [.tableSessions]) := emits_exec (by simp [Write.table])
    exact Txn.wp_mono (carries_settledAt now hsession (by decide) (by decide) l s h)
      fun _ _ _ h => ⟨now, h⟩
  · exact Txn.wp_done settled_stable hsettled

end Settling

/-! ### Requests -/

section Requests

variable {l : TxFootprint} {s : Store}

theorem holdsOpen_stage {α : Type} {p : Tx α}
    (h : p.wp exclusionDiscipline (fun _ => HoldsOpen) l s) :
    p.wp exclusionDiscipline (fun _ => BillStage) l s :=
  Txn.wp_mono h fun _ _ _ => .holdsOpen

theorem settled_stage {α : Type} {p : Tx α}
    (h : p.wp exclusionDiscipline (fun _ l s => ∃ now, SettledAt now l s) l s) :
    p.wp exclusionDiscipline (fun _ => BillStage) l s :=
  Txn.wp_mono h fun _ _ _ ⟨now, h⟩ => .settled now h

theorem carries_open {α : Type} {p : Tx α} {ts : List Table} (hp : p.Emits (Touching ts))
    (hts : .bills ∉ ts) : p.Carries exclusionDiscipline HoldsOpen :=
  carries_holdsOpen (emits_unmarked hts hp)

theorem finalize_stage (staff : PosPrincipal) (dto : FinalizeBillDto)
    (authorize : Except ApiError ManagerApproval) (h : Calm l s) :
    (finalize staff dto authorize).wp exclusionDiscipline (fun _ => BillStage) l s := by
  refine wp_raiseIf fun _ => Txn.wp_seq (lockBill_wp h) fun _ l s h => ?_
  refine Txn.wp_seq (loadBill_wp h) fun loaded l s h => ?_
  refine Txn.wp_seq (refreshOpenBillTotals_wp h) fun bill l s h => wp_raiseIf fun hne => ?_
  refine Txn.wp_seq (carries_open (approveDiscount_emits ..) List.not_mem_nil l s
    (h.holdsOpen hne)) fun approval l s h => ?_
  refine Txn.wp_seq (carries_open (assertShiftForCash_emits _) List.not_mem_nil l s h) ?_
  intro _ l s h
  have htenders : (Txn.forEach takeTender dto.tenders).Emits (Touching [.tenders]) :=
    .forEach fun tender _ => takeTender_emits tender
  refine Txn.wp_seq (carries_open htenders (by decide) l s h) fun _ l s h => ?_
  refine settled_stage (Txn.wp_seq (commitFinalize_wp _ h) fun final l s hsettled => ?_)
  obtain ⟨now, h⟩ := hsettled
  have hrecord : (whenGiven approval (recordApproval · "discount_above_threshold" staff.id)).Emits
      (Touching [.auditEvents]) := emits_whenGiven fun _ => recordApproval_emits ..
  refine Txn.wp_seq (carries_settledAt now hrecord (by decide) (by decide) l s h) fun _ l s h => ?_
  exact Txn.wp_done settled_stable ⟨now, h⟩

theorem preparePayment_wp (guest : GuestPrincipal) (h : Calm l s) :
    (preparePayment guest).wp exclusionDiscipline (fun _ => HoldsOpen) l s := by
  have hcalm : ∀ {α : Type} {p : Tx α}, p.Emits (Touching []) →
      p.Emits fun l => ∀ w ∈ l.writes, w.calm = true := emits_calm (by simp)
  have havailable : assertGuestPaymentsAvailable.Emits (Touching []) :=
    (emits_query _).bind fun _ => emits_raiseIf ..
  refine Txn.wp_seq (carries_calm (hcalm havailable) l s h) fun _ l s h => ?_
  refine Txn.wp_seq (lockBill_wp h) fun _ l s h => ?_
  refine Txn.wp_seq (loadBill_wp h) fun loaded l s h => ?_
  refine Txn.wp_seq (refreshOpenBillTotals_wp h) fun bill l s h => ?_
  refine Txn.wp_seq (carries_loaded _ (hcalm (loadOrderForSession_emits guest)) l s h) ?_
  intro order l s h
  refine wp_raiseIf fun hne => ?_
  refine Txn.wp_seq (carries_open (assertSessionActive_emits guest) List.not_mem_nil l s
    (h.holdsOpen hne)) fun session l s h => ?_
  refine Txn.wp_seq (carries_open (syncShares_emits _) (by decide) l s h) fun _ l s h => ?_
  exact Txn.wp_done holdsOpen_stable h

/-- What a payment that succeeds does, and one that does not leaves out. -/
theorem onSuccess_stage {outcome : SimulatedOutcome} {p : Tx Unit} (h : HoldsOpen l s)
    (hp : p.wp exclusionDiscipline (fun _ => BillStage) l s) :
    (onSuccess outcome p).wp exclusionDiscipline (fun _ => BillStage) l s := by
  cases outcome with
  | success => exact hp
  | failure => exact Txn.wp_done billStage_stable (.holdsOpen h)

theorem payShare_stage (guest : GuestPrincipal) (guestId : ℕ) (dto : SimulatedPaymentDto)
    (h : Calm l s) :
    (payShare guest guestId dto).wp exclusionDiscipline (fun _ => BillStage) l s := by
  refine Txn.wp_seq (preparePayment_wp guest h) fun prepared l s h => ?_
  refine Txn.wp_seq (carries_open (emits_query _) List.not_mem_nil l s h) fun share l s h => ?_
  cases share with
  | none => trivial
  | some share =>
      refine wp_raiseIf fun _ => Txn.wp_seq (onSuccess_stage h ?_) fun _ l s h =>
        carries_stage buildView_emits l s h
      refine Txn.wp_seq (carries_open (createTenderRecord_emits _) (by decide) l s h) ?_
      intro tender l s h
      refine Txn.wp_seq (carries_open (markSharePaid_emits ..) (by decide) l s h) fun _ l s h => ?_
      refine Txn.wp_seq (carries_open (emits_query _) List.not_mem_nil l s h) fun left l s h => ?_
      split
      · exact settled_stage (completeBill_wp _ h)
      · exact Txn.wp_done billStage_stable (.holdsOpen h)

theorem payAll_stage (guest : GuestPrincipal) (dto : SimulatedPaymentDto) (h : Calm l s) :
    (payAll guest dto).wp exclusionDiscipline (fun _ => BillStage) l s := by
  refine Txn.wp_seq (preparePayment_wp guest h) fun prepared l s h => ?_
  refine Txn.wp_seq (carries_open (emits_query _) List.not_mem_nil l s h) fun anyPaid l s h => ?_
  refine wp_raiseIf fun _ => Txn.wp_seq (onSuccess_stage h ?_) fun _ l s h =>
    carries_stage buildView_emits l s h
  refine Txn.wp_seq (carries_open (takeWhole_emits ..) (by decide) l s h) fun tender l s h => ?_
  refine Txn.wp_seq (carries_open (payAllShares_emits ..) (by decide) l s h) fun _ l s h => ?_
  exact settled_stage (completeBill_wp _ h)

theorem createIntent_stage (dto : CreatePaymentIntentDto) (h : Calm l s) :
    (createIntent dto).wp exclusionDiscipline (fun _ => BillStage) l s := by
  have hcalm : ∀ {α : Type} {p : Tx α}, p.Emits (Touching []) →
      p.Emits fun l => ∀ w ∈ l.writes, w.calm = true := emits_calm (by simp)
  refine Txn.wp_seq (carries_calm (hcalm (emits_query _)) l s h) fun simulator l s h => ?_
  refine wp_raiseIf fun _ => Txn.wp_seq (lockBill_wp h) fun _ l s h => ?_
  refine Txn.wp_seq (loadBill_wp h) fun loaded l s h => ?_
  refine Txn.wp_seq (refreshOpenBillTotals_wp h) fun bill l s h => wp_raiseIf fun hne => ?_
  have h := h.holdsOpen hne
  refine holdsOpen_stage (Txn.wp_seq (carries_open (emits_query _) List.not_mem_nil l s h) ?_)
  refine fun onOther l s h => wp_raiseIf fun _ => ?_
  refine Txn.wp_seq (carries_open (emits_query _) List.not_mem_nil l s h) fun existing l s h => ?_
  cases existing with
  | some existing =>
      refine Txn.wp_seq (carries_open (expireIfDue_emits existing) (by decide) l s h) ?_
      exact fun row l s h => Txn.wp_done holdsOpen_stable h
  | none =>
      refine wp_raiseIf fun _ => ?_
      refine Txn.wp_seq (carries_open assertNoActiveIntent_emits (by decide) l s h) fun _ l s h => ?_
      refine Txn.wp_seq (carries_open (routeToTerminal_emits ..) List.not_mem_nil l s h) ?_
      exact fun target l s h => carries_open (insertIntent_emits ..) (by decide) l s h

theorem emits_reads_calm {α : Type} {p : Tx α} (hp : p.Emits (Touching [])) :
    p.Emits fun l => ∀ w ∈ l.writes, w.calm = true :=
  emits_calm (by simp) hp

theorem calm_closed :
    Txn.Closed fun {α} (p : Tx α) => p.Emits fun l => ∀ w ∈ l.writes, w.calm = true :=
  Txn.Emits.closed _

/-- An intent is only ever updated out of being active. -/
theorem updateIntentWhere_calm (id : ℕ) (guard : PaymentIntentStatus → Bool)
    {status : PaymentIntentStatus} (hstatus : status.isActive = false) (reason : Option String)
    (at_ : Option ℤ) :
    (updateIntentWhere id guard status reason at_).Emits fun l =>
      ∀ w ∈ l.writes, w.calm = true := by
  refine ⟨fun _ v => ?_, fun _ => trivial⟩
  cases hv : v.intents.any fun i => i.id = id && guard i.status with
  | true => simp [hv, Write.calm, hstatus]
  | false => simp [hv]

theorem expireIfDue_calm (row : IntentRow) :
    (expireIfDue row).Emits fun l => ∀ w ∈ l.writes, w.calm = true :=
  calm_closed.bind (emits_reads_calm emits_clock) fun _ => calm_closed.ite trivial
    (calm_closed.bind (updateIntentWhere_calm _ _ rfl _ _) fun _ =>
      emits_reads_calm (findIntent_emits _))

theorem confirmIntent_stage (id : ℕ) (h : Calm l s) :
    (confirmIntent id).wp exclusionDiscipline (fun _ => BillStage) l s := by
  have hfind := emits_reads_calm (findIntent_emits id)
  refine Txn.wp_seq (carries_calm hfind l s h) fun target l s h => ?_
  refine Txn.wp_seq (lockBill_wp h) fun _ l s h => ?_
  refine Txn.wp_seq (carries_locked (emits_reads_calm (emits_query _)) l s h) ?_
  refine fun simulator l s h => wp_raiseIf fun _ => ?_
  refine Txn.wp_seq (carries_locked (emits_reads_calm emits_clock) l s h) fun at_ l s h => ?_
  refine Txn.wp_seq (carries_locked (updateIntentWhere_calm _ _ rfl _ _) l s h) fun flipped l s h => ?_
  refine Txn.wp_seq (carries_locked hfind l s h) fun row l s h => ?_
  split
  · exact Txn.wp_done billStage_stable (.calm h.toCalm)
  · refine Txn.wp_seq (loadBill_wp h) fun bill l s h => ?_
    split
    · -- A late capture is flagged, and gets no tender.
      refine Txn.wp_mono (carries_calm ?_ l s h.toCalm) fun _ _ _ => .calm
      refine calm_closed.bind ⟨fun _ _ => by simp [Write.calm], fun _ => trivial⟩ fun _ => ?_
      exact calm_closed.bind ⟨fun _ _ => by simp [Write.calm], fun _ => trivial⟩ fun _ => hfind
    · rename_i hne
      refine holdsOpen_stage (Txn.wp_seq (carries_open (createTenderRecord_emits _) (by decide) l s
        (h.holdsOpen hne)) fun _ l s h => ?_)
      exact carries_open (findIntent_emits id) List.not_mem_nil l s h

theorem simulate_stage (id : ℕ) (outcome : SimulatedOutcome) (h : Calm l s) :
    (simulate id outcome).wp exclusionDiscipline (fun _ => BillStage) l s := by
  have hstage : ∀ {l s}, Calm l s → BillStage l s := .calm
  refine Txn.wp_seq (carries_calm (emits_reads_calm (loadIntent_emits id)) l s h) fun row l s h => ?_
  refine Txn.wp_seq (carries_calm (emits_reads_calm (emits_query _)) l s h) fun simulator l s h => ?_
  refine wp_raiseIf fun _ => ?_
  cases outcome with
  | success =>
      dsimp only
      split
      · exact Txn.wp_done billStage_stable (.calm h)
      · split
        · trivial
        · exact confirmIntent_stage id h
  | failure =>
      refine Txn.wp_mono (Txn.wp_seq (carries_calm (expireIfDue_calm row) l s h) ?_)
        fun _ _ _ => .calm
      refine fun current l s h => carries_calm ?_ l s h
      refine calm_closed.ite trivial (calm_closed.ite trivial ?_)
      exact calm_closed.bind (updateIntentWhere_calm _ _ rfl _ _) fun _ =>
        emits_reads_calm (findIntent_emits id)

/-- A bill is only created where there is none. -/
theorem createBill_carries (bill : Bill) :
    (Txn.writeWhen (fun v => v.bill.isNone) [.bill] [.createBill bill] : Tx Bool).Carries
      exclusionDiscipline Calm := by
  intro l s h
  refine Txn.wp_writeWhen calm_stable (fun _ => calm_stable) h (fun s h hnone _ => ?_)
    fun s h _ => h.add (by simp)
  have hsome := congrArg Option.isSome (mark_of_calm h.calm s)
  rw [Store.mark, Option.isNone_iff_eq_none.mp hnone] at hsome
  simp [Store.mark, h.bill] at hsome

theorem stage_void {α : Type} {p : Tx α} (h : p.wp exclusionDiscipline (fun _ => BillStage) l s) :
    p.void.wp exclusionDiscipline (fun _ => BillStage) l s :=
  Txn.wp_seq h fun _ _ _ h => Txn.wp_done billStage_stable h

/-- Every request keeps to the stages. -/
theorem Op.stage (op : Op) (h : Calm l s) :
    op.prog.wp exclusionDiscipline (fun _ => BillStage) l s := by
  have hΦ : Txn.Closed fun {α} (p : Tx α) => p.Carries exclusionDiscipline Calm :=
    Txn.Carries.closed calm_stable
  have hquiet : ∀ {α : Type} {p : Tx α}, p.Emits (Touching calmTables) →
      p.Carries exclusionDiscipline Calm := fun hp => carries_calm (emits_calm (fun _ ht => ht) hp)
  have hwithin : ∀ {ts : List Table}, (∀ t ∈ ts, t ∈ calmTables) → ∀ {α : Type} {p : Tx α},
      p.Emits (Touching ts) → p.Carries exclusionDiscipline Calm :=
    fun hts _ _ hp => hquiet (emits_within hp hts)
  have hreads : ∀ {α : Type} {p : Tx α}, p.Emits (Touching []) →
      p.Carries exclusionDiscipline Calm := hwithin (by simp)
  have hrefresh : ∀ bill, (refreshOpenBillTotals bill).Carries exclusionDiscipline Calm := by
    refine fun bill => carries_calm (calm_closed.ite trivial (calm_closed.bind
      (emits_reads_calm computeBillTotals_emits) fun totals => calm_closed.ite trivial
      (calm_closed.bind ⟨fun _ _ => by simp [Write.calm], fun _ => trivial⟩ fun updated => ?_)))
    cases updated <;> trivial
  have hinvoice := buildInvoiceView_parts hΦ hrefresh hreads
  have hopen := createOrGetBillRecord_parts hΦ hrefresh hreads fun bill _ _ => createBill_carries bill
  have hcalm : ∀ {p : Tx Unit}, p.Carries exclusionDiscipline Calm →
      p.wp exclusionDiscipline (fun _ => BillStage) l s := fun hp =>
    Txn.wp_mono (hp l s h) fun _ _ _ => .calm
  cases op with
  | createBill staff name =>
      exact hcalm (hΦ.void (hΦ.bind (hreads (emits_query _)) fun _ =>
        hΦ.bind (hreads (assertMayOpen_emits ..)) fun _ => hopen _))
  | getBill => exact hcalm (hΦ.void (hΦ.bind (hreads loadBill_emits) fun _ => hrefresh _))
  | getInvoice => exact hcalm (hΦ.void hinvoice)
  | printBill source =>
      exact hcalm (hΦ.void (printBill_parts hΦ hinvoice (hwithin (by decide)) source))
  | finalize staff dto authorize => exact stage_void (finalize_stage staff dto authorize h)
  | refund staff dto authorize =>
      exact hcalm (hΦ.void (refund_parts hΦ hrefresh (hwithin (by decide)) staff dto authorize))
  | createIntent dto => exact stage_void (createIntent_stage dto h)
  | getIntent id =>
      exact hcalm (hΦ.void (hΦ.bind (hreads (loadIntent_emits id)) fun row =>
        carries_calm (expireIfDue_calm row)))
  | cancelIntent id =>
      refine hcalm (hΦ.void (hΦ.bind (hreads (loadIntent_emits id)) fun row => hΦ.bind
        (carries_calm (expireIfDue_calm row)) fun row => hΦ.bind (hreads (emits_raiseIf ..))
        fun _ => hΦ.ite (hΦ.done _) (carries_calm ?_)))
      exact calm_closed.bind (updateIntentWhere_calm _ _ rfl _ _) fun _ =>
        emits_reads_calm (findIntent_emits id)
  | listPending staff outletId deviceId =>
      have hsweep : sweepDueIntents.Carries exclusionDiscipline Calm :=
        hΦ.bind (hreads emits_clock) fun _ => hΦ.bind (hreads (emits_query _)) fun due =>
          hΦ.forEach fun id _ => hΦ.bind (carries_calm (updateIntentWhere_calm _ _ rfl _ _))
            fun _ => hΦ.done ()
      exact hcalm (hΦ.void (hΦ.bind (hreads (emits_raiseIf ..)) fun _ =>
        hΦ.bind (hreads (emits_query _)) fun own => hΦ.bind (hΦ.ite hsweep (hΦ.done ())) fun _ =>
        hΦ.bind (hreads (queueFor_emits ..)) fun _ => hreads (emits_query _)))
  | simulate id outcome => exact stage_void (simulate_stage id outcome h)
  | guestCreateBill guest =>
      exact hcalm (hΦ.void (guestCreateBill_parts hΦ hopen (hwithin (by decide)) guest))
  | guestGetBill guest =>
      exact hcalm (hΦ.void (guestGetBill_parts hΦ hrefresh (hwithin (by decide)) guest))
  | guestGetInvoice guest =>
      exact hcalm (hΦ.void (guestGetInvoice_parts hΦ hinvoice hreads guest))
  | payShare guest guestId dto => exact stage_void (payShare_stage guest guestId dto h)
  | payAll guest dto => exact stage_void (payAll_stage guest dto h)
  | _ =>
      -- The requests that touch neither a bill nor money.
      exact hcalm (hquiet (emits_within (Op.emits _) (by simp [Op.tables, calmTables])))

end Requests

/-! ### Commits and runs -/

theorem bill_isSome_applyAll {ws : List Write} (h : ∀ w ∈ ws, w.deletesBill = false) {s : Store}
    (hs : s.bill.isSome = true) : (applyAll ws s).bill.isSome = true := by
  induction ws generalizing s with
  | nil => exact hs
  | cons w ws ih =>
      refine ih (fun w hw => h w (List.mem_cons_of_mem _ hw)) ?_
      have hw := h w List.mem_cons_self
      cases w <;> first | exact hs | cases hw; done | simp [Store.apply, hs]

theorem undeleted_of_unmarked {w : Write} (h : w.marks = false) : w.deletesBill = false := by
  cases w <;> first | rfl | simp [Write.marks] at h

/-- Every stage may be committed. -/
theorem BillStage.commits {l : TxFootprint} {s : Store} (h : BillStage l s) :
    exclusionDiscipline.Keeps l s := by
  cases h with
  | calm h =>
      have hcalmer := calmer_of_calm h.calm s
      refine ⟨bill_isSome_applyAll (fun w hw => undeleted_of_unmarked (calm_not_marks (h.calm w hw)))
        h.bill, fun hfin => ⟨?_, tenders_of_calm h.calm s, hcalmer.ids⟩,
        fun _ _ _ => ⟨mark_of_calm h.calm s, hcalmer⟩, fun hfin => .inl ?_⟩
      · rw [h.billIs]
        exact hfin
      · rwa [h.billIs] at hfin
  | holdsOpen h =>
      have hmark := mark_of_unmarked h.unmarked s
      refine ⟨bill_isSome_applyAll (fun w hw => undeleted_of_unmarked (h.unmarked w hw)) h.bill,
        fun hfin => absurd (hfin.symm.trans h.isOpen) (by simp),
        fun k hk hbill => absurd (hbill ▸ h.lock) hk, fun hfin => .inl ?_⟩
      rwa [billIs_congr hmark] at hfin
  | settled now h =>
      exact ⟨bill_isSome_applyAll h.undeleted h.bill,
        fun hfin => absurd (hfin.symm.trans h.wasOpen) (by simp),
        fun k hk hbill => absurd (hbill ▸ h.lock) hk, fun _ => .inr ⟨now, h.read, h.pending⟩⟩

theorem Op.keepsExclusion (op : Op) {s : Store} (hs : s.bill.isSome = true) :
    op.prog.wp exclusionDiscipline (fun _ => exclusionDiscipline.Commits) .empty s :=
  Txn.wp_mono (op.stage ⟨hs, by simp⟩) fun _ _ _ h _ => h.commits

/-- **Intents and settlement exclude each other.** Whatever requests interleave on a bill: once
it is committed as finalized, no tender and no intent is committed for it any more; and where
the transaction `t` is about to commit it as finalized, that leaves no active intent that
expires after the time `t` read when it counted them. -/
theorem settlement_excludes_intents {s : Store} {S S' : System Store Key Read Write ApiError}
    {es es' : List (Event Store Key Read Write ApiError)} (hbill : s.bill.isSome = true)
    (h : Run IsRequest (fun _ _ => True) (.start s) es S)
    (h' : Run IsRequest (fun _ _ => True) S es' S') :
    (S.store.billIs .finalized = true → S'.store.tenders = S.store.tenders ∧
      S'.store.intents.map (·.id) = S.store.intents.map (·.id)) ∧
    ∀ t l, S'.session t = some ⟨.done (), l⟩ → S'.store.billIs .finalized = false →
      (applyAll l.writes S'.store).billIs .finalized = true →
      ∃ now, Read.pendingIntents now ∈ l.reads ∧
        (applyAll l.writes S'.store).pendingIntents now = [] := by
  have hP : ∀ p, IsRequest p → ∀ s, exclusionDiscipline.inv s →
      p.wp exclusionDiscipline (fun _ => exclusionDiscipline.Commits) .empty s := by
    rintro p ⟨op, rfl⟩ s hs
    exact op.keepsExclusion hs
  have hC : ∀ (S : System Store Key Read Write ApiError) e, True →
      exclusionDiscipline.Respects S e := by
    intro S e _
    cases e with
    | stmt t env => exact fun _ _ _ _ _ => trivial
    | commit t => exact fun _ _ => ⟨trivial, fun _ _ _ _ _ _ => trivial⟩
    | begin p => trivial
    | rollback t => trivial
  have hS := Discipline.sound hP hC (.start hbill) h
  have hS' := Discipline.sound hP hC hS.1 h'
  refine ⟨fun hfin => (hS'.2 hfin).2, fun t l ht hopen hfin => ?_⟩
  have hends := (hS'.1.commits ht trivial).ends hfin
  exact hends.resolve_left (by simp [hopen])

/-- The sample bill is settled up to its commit. -/
def settleUncommitted : List (Event Store Key Read Write ApiError) :=
  .begin settleSample.prog :: turns 0 28 0

/-- Raising a payment intent on the bill. -/
def chargeSample : Op :=
  .createIntent { rail := .cardTerminal, amountMinor := 24046, clientKey := "k1", deviceId := none
                  one_le_amountMinor := by decide }

/-- An intent is asked for after that. -/
def chargeAfter : List (Event Store Key Read Write ApiError) :=
  .begin chargeSample.prog :: turns 1 3 100

/-- Whether the first transaction has only its commit left, and settles the bill with it. -/
def aboutToSettle (S : System Store Key Read Write ApiError) : Bool :=
  match S.session 0 with
  | some ⟨.done _, l⟩ => (applyAll l.writes S.store).billIs .finalized && !S.store.billIs .finalized
  | _ => false

theorem settlement_excludes_intents_sample : ∃ S S' S'' l,
    Run IsRequest (fun _ _ => True) (.start billedOrder) settleUncommitted S ∧
    S.session 0 = some ⟨.done (), l⟩ ∧
    (∃ now, Read.pendingIntents now ∈ l.reads ∧
      (applyAll l.writes S.store).pendingIntents now = []) ∧
    Run IsRequest (fun _ _ => True) S [.commit 0] S' ∧
    Run IsRequest (fun _ _ => True) S' chargeAfter S'' ∧
    S''.store.tenders = S'.store.tenders := by
  have hsettle : ((System.start billedOrder).play settleUncommitted).map aboutToSettle =
      some true := by rfl
  have hcommit : (((System.start billedOrder).play settleUncommitted).bind
      fun S => S.play [.commit 0]).map (·.store.billIs .finalized) = some true := by rfl
  have hcharge : ((((System.start billedOrder).play settleUncommitted).bind
      fun S => S.play [.commit 0]).bind fun S => S.play chargeAfter).map
      (·.store.billIs .finalized) = some true := by rfl
  obtain ⟨S, hplay, hrun, habout⟩ := Run.of_play_map (P := IsRequest) hsettle fun p hp => by
    simp only [settleUncommitted, List.mem_cons, begin_notMem_turns, Event.begin.injEq,
      or_false] at hp
    exact ⟨settleSample, hp⟩
  rw [hplay, Option.bind_some] at hcommit hcharge
  obtain ⟨S', hplay', hrun', hfin⟩ := Run.of_play_map (P := IsRequest) hcommit fun p hp => by
    simp at hp
  rw [hplay', Option.bind_some] at hcharge
  obtain ⟨S'', _, hrun'', _⟩ := Run.of_play_map (P := IsRequest) hcharge fun p hp => by
    simp only [chargeAfter, List.mem_cons, begin_notMem_turns, Event.begin.injEq,
      or_false] at hp
    exact ⟨chargeSample, hp⟩
  unfold aboutToSettle at habout
  split at habout
  · rename_i u l hx
    rw [Bool.and_eq_true, Bool.not_eq_true'] at habout
    have hsettled := settlement_excludes_intents (s := billedOrder) rfl hrun .nil
    have hafter := settlement_excludes_intents (s := billedOrder) rfl (hrun.trans hrun') hrun''
    exact ⟨S, S', S'', l, hrun, hx, hsettled.2 0 l hx habout.2 habout.1, hrun', hrun'',
      (hafter.1 hfin).1⟩
  · cases habout

end RestiqBackend
