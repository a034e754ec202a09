import RestiqBackend.Footprints

/-!
One bill per order.

`createOrGetBillRecord` looks for the order's bill and inserts one where there is none. Of those
who find none at once only one can insert: the unique key of the order is held until its
transaction ends. The others wait for it; if it commits they read the bill it made, and if it
rolls back the next of them inserts.
-/

namespace RestiqBackend

open ReadCommitted

/-! ### What a caller is answered -/

structure BillAnswer where
  billId : ℕ
  created : Bool
  deriving DecidableEq

/-- The rows of the order, every bill that was inserted for it, and what the calls that committed
answered. No column keeps the last two. -/
structure BillDesk where
  rows : Store
  inserted : List ℕ
  answers : List BillAnswer

inductive BillDesk.Write
  | row (w : RestiqBackend.Write)
  | answer (a : BillAnswer)

/-- The bill that a write inserts. -/
def Write.inserts : Write → Option ℕ
  | .createBill bill => some bill.id
  | _ => none

def BillDesk.apply (s : BillDesk) : BillDesk.Write → BillDesk
  | .row w => { s with rows := s.rows.apply w, inserted := s.inserted ++ w.inserts.toList }
  | .answer a => { s with answers := s.answers ++ [a] }

instance : WriteTo BillDesk.Write BillDesk := ⟨fun w s => s.apply w⟩

abbrev BillDesk.Tx := Txn BillDesk Key Read BillDesk.Write ApiError

def deskZoom : Zoom Store Key Read Write BillDesk Key Read BillDesk.Write where
  view := BillDesk.rows
  lock := id
  read := id
  write := .row
  view_apply _ _ := rfl

inductive CreateBillCall
  | staff (principal : PosPrincipal) (ownerName : String)
  | guest (principal : GuestPrincipal)

def CreateBillCall.prog : CreateBillCall → Tx BillAnswer
  | .staff principal ownerName => do
      let (bill, created) ← createBill principal ownerName
      pure ⟨bill.bill.id, created⟩
  | .guest principal => do
      let (view, created) ← guestCreateBill principal
      pure ⟨view.bill.bill.id, created⟩

/-- A call, and its answer noted as it commits. -/
def CreateBillCall.answered (call : CreateBillCall) : BillDesk.Tx Unit := do
  let answer ← call.prog.zoom deskZoom
  Txn.exec (fun _ => []) fun _ => [.answer answer]

def IsCreateBill (p : BillDesk.Tx Unit) : Prop := ∃ call : CreateBillCall, p = call.answered

/-! ### The bill of the order -/

def Store.billId (s : Store) : Option ℕ := s.bill.map (·.id)

/-- The bills that writes insert. -/
def insertedBy (ws : List Write) : List ℕ := ws.filterMap Write.inserts

section BillId

variable {s : Store} {w : Write} {ws : List Write}

theorem billId_apply (hw : w ≠ .deleteBill) (s : Store) :
    (s.apply w).billId = w.inserts.or s.billId := by
  cases w with
  | deleteBill => exact absurd rfl hw
  | createBill bill => rfl
  | updateBillTotals | finalizeBill => exact Option.map_map _ _ s.bill
  | _ => rfl

/-- The order has the bill that was inserted last, or the one it had. -/
theorem billId_applyAll (hws : .deleteBill ∉ ws) (s : Store) :
    (applyAll ws s).billId = (insertedBy ws).getLast?.or s.billId := by
  induction ws generalizing s with
  | nil => rfl
  | cons w ws ih =>
      have hw : w ≠ .deleteBill := fun heq => hws (heq ▸ List.mem_cons_self)
      rw [applyAll_cons, ih fun h => hws (List.mem_cons_of_mem _ h), writeTo_apply,
        billId_apply hw, ← Option.or_assoc]
      cases hinserts : w.inserts with
      | none => rw [Option.or_none, insertedBy, insertedBy, List.filterMap_cons_none hinserts]
      | some id =>
          rw [insertedBy, insertedBy, List.filterMap_cons_some hinserts, List.getLast?_cons]
          cases (ws.filterMap Write.inserts).getLast? <;> rfl

/-- A footprint that leaves the order with the bill it has. -/
def KeepsBill (l : TxFootprint) : Prop :=
  .deleteBill ∉ l.writes ∧ insertedBy l.writes = []

theorem KeepsBill.billId_eq {l : TxFootprint} (h : KeepsBill l) (s : Store) :
    (applyAll l.writes s).billId = s.billId := by
  rw [billId_applyAll h.1, h.2]
  rfl

theorem KeepsBill.add {l l' : TxFootprint} (h : KeepsBill l) (h' : KeepsBill l') :
    KeepsBill (l.add l') := by
  constructor
  · intro hmem
    exact (List.mem_append.mp hmem).elim h.1 h'.1
  · rw [Footprint.add_writes, insertedBy, List.filterMap_append]
    exact List.append_eq_nil_iff.mpr ⟨h.2, h'.2⟩

theorem keepsBill_of_touching {ts : List Table} (hts : .bills ∉ ts) {l : TxFootprint}
    (h : Touching ts l) : KeepsBill l := by
  constructor
  · exact fun hmem => hts (h _ hmem)
  · refine List.filterMap_eq_nil_iff.mpr fun w hw => ?_
    cases w with
    | createBill bill => exact absurd (h _ hw) hts
    | _ => rfl

theorem keepsBill_empty : KeepsBill .empty := ⟨List.not_mem_nil, rfl⟩

end BillId

/-! ### Along a call -/

/-- The order keeps the bill it has, and gets one only from who holds its key. -/
def oneBill : Discipline Store Key Read Write where
  inv _ := True
  guar s s' := s.billId ≠ none → s'.billId = s.billId
  keeps k s s' := k = .bill → s.billId = none → s'.billId = none
  heeds _ _ _ := True
  admits _ _ _ := True
  lands _ _ := True
  ends _ _ := True
  guar_refl _ _ := rfl
  guar_trans _ _ _ h h' hs := (h' (h hs ▸ hs)).trans (h hs)
  keeps_refl _ _ _ h := h
  keeps_trans _ _ _ _ h h' hk hs := h' hk (h hk hs)
  heeds_refl _ _ := trivial
  heeds_trans _ _ _ _ _ _ := trivial

/-- The bill of `id` is the order's. -/
def Found (id : ℕ) (l : TxFootprint) (s : Store) : Prop := KeepsBill l ∧ s.billId = some id

/-- The transaction inserted the bill of `id`, and nobody else can insert one. -/
def Inserted (id : ℕ) (l : TxFootprint) (s : Store) : Prop :=
  .deleteBill ∉ l.writes ∧ insertedBy l.writes = [id] ∧ Key.bill ∈ l.locks ∧ s.billId = none

/-- What stands behind an answer. -/
def Answered (a : BillAnswer) : TxFootprint → Store → Prop :=
  if a.created then Inserted a.billId else Found a.billId

section Along

variable {l l' : TxFootprint} {s : Store} {id : ℕ}

theorem found_stable (id : ℕ) : oneBill.Stable (Found id) := by
  refine fun l s s' hrely h => ⟨h.1, ?_⟩
  rw [hrely.guar (h.2 ▸ Option.some_ne_none id), h.2]

theorem inserted_stable (id : ℕ) : oneBill.Stable (Inserted id) :=
  fun _ _ _ hrely h => ⟨h.1, h.2.1, h.2.2.1, hrely.keeps _ h.2.2.1 rfl h.2.2.2⟩

theorem answered_stable (a : BillAnswer) : oneBill.Stable (Answered a) := by
  unfold Answered
  split
  · exact inserted_stable a.billId
  · exact found_stable a.billId

theorem keepsBill_stable : oneBill.Stable fun l _ => KeepsBill l := fun _ _ _ _ h => h

theorem Found.add (h : Found id l s) (h' : KeepsBill l') : Found id (l.add l') s :=
  ⟨h.1.add h', h.2⟩

theorem Inserted.add (h : Inserted id l s) (h' : KeepsBill l') : Inserted id (l.add l') s := by
  refine ⟨fun hmem => (List.mem_append.mp hmem).elim h.1 h'.1, ?_,
    List.mem_append_left _ h.2.2.1, h.2.2.2⟩
  rw [Footprint.add_writes, insertedBy, List.filterMap_append]
  exact congrArg₂ (· ++ ·) h.2.1 h'.2

theorem Answered.add {a : BillAnswer} (h : Answered a l s) (h' : KeepsBill l') :
    Answered a (l.add l') s := by
  unfold Answered at h ⊢
  split
  · rename_i hcreated
    rw [if_pos hcreated] at h
    exact h.add h'
  · rename_i hcreated
    rw [if_neg hcreated] at h
    exact h.add h'

/-- What is left to do on other tables keeps the answer. -/
theorem Answered.carry {α : Type} {a : BillAnswer} {p : Tx α} {ts : List Table}
    (hp : p.Emits (Touching ts)) (hts : .bills ∉ ts) (h : Answered a l s) :
    p.wp oneBill (fun _ => Answered a) l s :=
  hp.wp (answered_stable a) (fun _ _ _ hl h => h.add (keepsBill_of_touching hts hl)) h

theorem loadedBill_id {v : Store} {bill : BillWithTenders} (h : v.loadedBill = some bill) :
    v.billId = some bill.bill.id := by
  obtain ⟨row, hrow, rfl⟩ := Option.map_eq_some_iff.mp h
  rw [Store.billId, hrow]
  rfl

/-- A refresh answers with the bill it was handed. -/
theorem refreshOpenBillTotals_found {bill : BillWithTenders} (h : Found bill.bill.id l s) :
    (refreshOpenBillTotals bill).wp oneBill (fun b => Found b.bill.id) l s := by
  unfold refreshOpenBillTotals
  split
  · exact Txn.wp_done (found_stable _) h
  · have hpriced : computeBillTotals.wp oneBill (fun _ => Found bill.bill.id) l s :=
      computeBillTotals_emits.wp (found_stable _)
        (fun _ _ _ hl h => h.add (keepsBill_of_touching List.not_mem_nil hl)) h
    refine Txn.wp_seq hpriced fun totals l s h => ?_
    dsimp only
    split
    · exact Txn.wp_done (found_stable _) h
    · refine Txn.wp_seq (R := fun b l s => ∀ bill, b = some bill → Found bill.bill.id l s)
        (Txn.wp_stmt (found_stable _) h fun _ s h _ => ?_) fun b l s h => ?_
      · refine Txn.wp_done (fun l s s' hrely h bill hbill => ?_) fun b hb => ?_
        · exact found_stable _ l s s' hrely (h bill hbill)
        · -- The row is read back from the statement that wrote it.
          have hid := loadedBill_id hb
          rw [billId_apply (by simp), h.1.billId_eq, h.2] at hid
          exact Option.some.inj hid ▸ h.add ⟨by simp, rfl⟩
      · cases b with
        | some b => exact Txn.wp_done (found_stable _) (h b rfl)
        | none => trivial

/-- Whoever finds no bill and cannot insert one reads the one that was inserted. -/
theorem createOrGetBillRecord_wp (params : CreateBillParams) (h : KeepsBill l) :
    (createOrGetBillRecord params).wp oneBill (fun r => Answered ⟨r.1.bill.id, r.2⟩) l s := by
  refine Txn.wp_query keepsBill_stable h fun s h => ?_
  cases hexisting : (applyAll l.writes s).loadedBill with
  | some existing =>
      have hid : s.billId = some existing.bill.id := h.billId_eq s ▸ loadedBill_id hexisting
      refine Txn.wp_seq (refreshOpenBillTotals_found ⟨h, hid⟩) fun bill l s h => ?_
      exact Txn.wp_done (answered_stable ⟨bill.bill.id, false⟩) h
  | none =>
      refine Txn.wp_seq (R := fun _ l _ => KeepsBill l) ?_ fun _ l s h => ?_
      · exact (emits_raiseIf ..).wp keepsBill_stable
          (fun _ _ _ hl h => h.add (keepsBill_of_touching List.not_mem_nil hl)) h
      · refine Txn.wp_seq (R := fun _ l _ => KeepsBill l) ?_ fun totals l s h => ?_
        · exact computeBillTotals_emits.wp keepsBill_stable
            (fun _ _ _ hl h => h.add (keepsBill_of_touching List.not_mem_nil hl)) h
        · refine Txn.wp_uuid keepsBill_stable h fun id s h => ?_
          refine Txn.wp_seq (R := fun inserted l s =>
            if inserted then Inserted id l s else KeepsBill l) ?_ fun inserted l s h => ?_
          · refine Txn.wp_writeWhen keepsBill_stable (fun inserted => ?_) h ?_ ?_
            · cases inserted with
              | true => exact inserted_stable id
              | false => exact keepsBill_stable
            · intro s h hnone _
              have hid : s.billId = none := by
                rw [← h.billId_eq s, Store.billId, Option.isNone_iff_eq_none.mp hnone]
                rfl
              refine ⟨fun hmem => ?_, ?_, List.mem_append_right _ (List.mem_singleton_self _), hid⟩
              · exact (List.mem_append.mp hmem).elim h.1 fun h => nomatch List.mem_singleton.mp h
              · rw [Footprint.add_writes, insertedBy, List.filterMap_append]
                exact congrArg₂ (· ++ ·) h.2 rfl
            · exact fun s h _ => h.add keepsBill_empty
          · cases inserted with
            | true => exact Txn.wp_done (answered_stable ⟨id, true⟩) h
            | false =>
                refine Txn.wp_query keepsBill_stable h fun s h => ?_
                cases hraced : (applyAll l.writes s).loadedBill with
                | some raced =>
                    have hid : s.billId = some raced.bill.id :=
                      KeepsBill.billId_eq h s ▸ loadedBill_id hraced
                    exact Txn.wp_done (answered_stable ⟨raced.bill.id, false⟩) ⟨h, hid⟩
                | none => trivial

theorem createBill_wp (staff : PosPrincipal) (ownerName : String) (s : Store) :
    (createBill staff ownerName).wp oneBill (fun r => Answered ⟨r.1.bill.id, r.2⟩) .empty s := by
  refine Txn.wp_query keepsBill_stable keepsBill_empty fun s h => ?_
  refine Txn.wp_seq (R := fun _ l _ => KeepsBill l) ?_ fun _ l s h => createOrGetBillRecord_wp _ h
  exact (assertMayOpen_emits ..).wp keepsBill_stable
    (fun _ _ _ hl h => h.add (keepsBill_of_touching List.not_mem_nil hl)) h

theorem guestCreateBill_wp (guest : GuestPrincipal) (s : Store) :
    (guestCreateBill guest).wp oneBill (fun r => Answered ⟨r.1.bill.bill.id, r.2⟩) .empty s := by
  have hreads : ∀ {α : Type} {p : Tx α} {l : TxFootprint} {s : Store}, p.Emits (Touching []) →
      KeepsBill l → p.wp oneBill (fun _ l _ => KeepsBill l) l s := fun hp h =>
    hp.wp keepsBill_stable (fun _ _ _ hl h => h.add (keepsBill_of_touching List.not_mem_nil hl)) h
  refine Txn.wp_seq (hreads (assertSessionActive_emits guest) keepsBill_empty) fun _ l s h => ?_
  refine Txn.wp_seq (hreads (loadOrderForSession_emits guest) h) fun order l s h => ?_
  refine Txn.wp_seq (createOrGetBillRecord_wp _ h) fun r l s h => ?_
  obtain ⟨bill, created⟩ := r
  refine Txn.wp_seq (h.carry (syncShares_emits bill) (by decide)) fun _ l s h => ?_
  refine Txn.wp_query (answered_stable _) h fun s h => ?_
  refine Txn.wp_query (answered_stable _) h fun s h => ?_
  exact Txn.wp_done (answered_stable ⟨bill.bill.id, created⟩) h

theorem CreateBillCall.wp (call : CreateBillCall) (s : Store) :
    call.prog.wp oneBill Answered .empty s := by
  cases call with
  | staff principal ownerName =>
      refine Txn.wp_seq (createBill_wp principal ownerName s) fun r l s h => ?_
      exact Txn.wp_done (answered_stable ⟨r.1.bill.id, r.2⟩) h
  | guest principal =>
      refine Txn.wp_seq (guestCreateBill_wp principal s) fun r l s h => ?_
      exact Txn.wp_done (answered_stable ⟨r.1.bill.bill.id, r.2⟩) h

end Along

/-! ### At the desk -/

/-- What the desk knows, of an order that had the bill `first` to begin with. -/
structure BillDesk.Sound (first : Option ℕ) (s : BillDesk) : Prop where
  rows : first.toList ++ s.inserted = s.rows.billId.toList
  created : (s.answers.filter (·.created)).length = s.inserted.length
  ids : ∀ a ∈ s.answers, s.rows.billId = some a.billId

def deskDiscipline (first : Option ℕ) : Discipline BillDesk Key Read BillDesk.Write where
  inv := BillDesk.Sound first
  guar s s' := oneBill.guar s.rows s'.rows
  keeps k s s' := oneBill.keeps k s.rows s'.rows
  heeds _ _ _ := True
  admits _ _ _ := True
  lands _ _ := True
  ends _ _ := True
  guar_refl s := oneBill.guar_refl s.rows
  guar_trans s s' s'' := oneBill.guar_trans s.rows s'.rows s''.rows
  keeps_refl k s := oneBill.keeps_refl k s.rows
  keeps_trans k s s' s'' := oneBill.keeps_trans k s.rows s'.rows s''.rows
  heeds_refl _ _ := trivial
  heeds_trans _ _ _ _ _ _ := trivial

section Desk

variable {first : Option ℕ} {a : BillAnswer} {l : TxFootprint} {s s' : BillDesk}

theorem deskRely {l' : Footprint Key Read BillDesk.Write}
    (hrely : (deskDiscipline first).Rely ((deskZoom.footprint l).add l') s s') :
    oneBill.Rely l s.rows s'.rows where
  inv _ := trivial
  guar := hrely.guar
  keeps k hk := hrely.keeps k (List.mem_append_left _ (List.mem_map.mpr ⟨k, hk, rfl⟩))
  heeds _ _ := trivial

/-- What a call is about to commit: what its program wrote, and the answer. -/
def Noted (l : Footprint Key Read BillDesk.Write) (s : BillDesk) : Prop :=
  ∃ a l₀, l = (deskZoom.footprint l₀).add ⟨[], [], [.answer a]⟩ ∧ Answered a l₀ s.rows

theorem inserted_applyAll (ws : List Write) (s : BillDesk) :
    (applyAll (ws.map BillDesk.Write.row) s).inserted = s.inserted ++ insertedBy ws := by
  induction ws generalizing s with
  | nil => exact (List.append_nil _).symm
  | cons w ws ih =>
      rw [List.map_cons, applyAll_cons, ih]
      change s.inserted ++ w.inserts.toList ++ _ = _
      rw [List.append_assoc, insertedBy, insertedBy]
      cases hinserts : w.inserts with
      | none => rw [List.filterMap_cons_none hinserts]; rfl
      | some id => rw [List.filterMap_cons_some hinserts]; rfl

theorem answers_applyAll (ws : List Write) (s : BillDesk) :
    (applyAll (ws.map BillDesk.Write.row) s).answers = s.answers := by
  refine applyAll_frame BillDesk.answers (fun w hw s => ?_) s
  obtain ⟨w, -, rfl⟩ := List.mem_map.mp hw
  rfl

/-- The order has the bill that was answered, and the bill it had if it had one. -/
theorem Answered.billId {r : Store} (h : Answered a l r) :
    (applyAll l.writes r).billId = some a.billId ∧
      r.billId.toList ++ insertedBy l.writes = [a.billId] ∧
      insertedBy l.writes = if a.created then [a.billId] else [] := by
  unfold Answered at h
  split at h
  · rename_i hcreated
    obtain ⟨hdelete, hinserted, -, hnone⟩ := h
    rw [billId_applyAll hdelete, hinserted, hnone, if_pos hcreated]
    exact ⟨rfl, rfl, rfl⟩
  · rename_i hcreated
    obtain ⟨hkeeps, hid⟩ := h
    rw [hkeeps.billId_eq, hkeeps.2, hid, if_neg hcreated]
    exact ⟨rfl, rfl, rfl⟩

/-- Who does not hold the key of the order, or finds a bill, answers with the bill there is. -/
theorem Answered.found {r : Store} (h : Answered a l r)
    (hbill : Key.bill ∉ l.locks ∨ r.billId ≠ none) : r.billId = some a.billId := by
  unfold Answered at h
  split at h
  · exact absurd hbill (not_or.mpr ⟨not_not.mpr h.2.2.1, not_not.mpr h.2.2.2⟩)
  · exact h.2

theorem BillDesk.Sound.commit (h : s.Sound first) (ha : Answered a l s.rows) :
    (applyAll ((deskZoom.footprint l).add ⟨[], [], [.answer a]⟩).writes s).Sound first := by
  obtain ⟨hid, hbills, hinserts⟩ := ha.billId
  rw [Footprint.add_writes, applyAll_append]
  have hrows : (applyAll (deskZoom.footprint l).writes s).rows = applyAll l.writes s.rows :=
    deskZoom.view_applyAll l.writes s
  have hinserted : (applyAll (deskZoom.footprint l).writes s).inserted =
      s.inserted ++ insertedBy l.writes := inserted_applyAll l.writes s
  have hanswers : (applyAll (deskZoom.footprint l).writes s).answers = s.answers :=
    answers_applyAll l.writes s
  generalize applyAll (deskZoom.footprint l).writes s = t at hrows hinserted hanswers ⊢
  change BillDesk.Sound first { t with answers := t.answers ++ [a] }
  refine ⟨?_, ?_, fun a' ha' => ?_⟩
  · show first.toList ++ t.inserted = t.rows.billId.toList
    rw [hinserted, ← List.append_assoc, h.rows, hbills, hrows, hid]
    rfl
  · show ((t.answers ++ [a]).filter (·.created)).length = t.inserted.length
    rw [hanswers, hinserted, hinserts, List.filter_append, List.length_append, List.length_append,
      h.created]
    cases hcreated : a.created <;> simp [hcreated]
  · show t.rows.billId = some a'.billId
    rw [hrows, hid]
    rcases List.mem_append.mp (hanswers ▸ ha') with ha' | ha'
    · -- Answers were given only once there was a bill, and then nobody inserts another.
      rw [h.ids a' ha'] at hbills
      exact congrArg some (List.cons.inj hbills).1.symm
    · rw [List.mem_singleton.mp ha']

theorem Noted.commits {l : Footprint Key Read BillDesk.Write} (hs : s.Sound first)
    (h : Noted l s) : (deskDiscipline first).Commits l s := by
  obtain ⟨a, l, rfl, ha⟩ := h
  have hrows : (applyAll ((deskZoom.footprint l).add ⟨[], [], [.answer a]⟩).writes s).rows =
      applyAll l.writes s.rows := by
    rw [Footprint.add_writes, applyAll_append]
    exact deskZoom.view_applyAll l.writes s
  refine fun _ => ⟨hs.commit ha, fun hsome => ?_, fun k hk hbill hnone => ?_, trivial⟩
  · show Store.billId _ = _
    rw [hrows, ha.billId.1, ha.found (.inr hsome)]
  · subst hbill
    have hfound : s.rows.billId = some a.billId := ha.found <| .inl fun hmem =>
      hk (List.mem_append_left _ (List.mem_map.mpr ⟨.bill, hmem, rfl⟩))
    exact nomatch hnone.symm.trans hfound

theorem CreateBillCall.noted (call : CreateBillCall) (s : BillDesk) :
    call.answered.wp (deskDiscipline first) (fun _ => Noted) .empty s := by
  have hrely : ∀ l s s', (deskDiscipline first).Rely (deskZoom.footprint l) s s' →
      oneBill.Rely l s.rows s'.rows := by
    intro l s s' hrely
    rw [← Footprint.add_empty (deskZoom.footprint l)] at hrely
    exact deskRely hrely
  refine Txn.wp_seq (Txn.zoom_wp_view deskZoom hrely (fun _ _ _ _ => trivial) (call.wp s.rows))
    fun a l s h => ?_
  obtain ⟨l, rfl, ha⟩ := h
  have hstable : (deskDiscipline first).Stable fun l' s =>
      l' = deskZoom.footprint l ∧ Answered a l s.rows := by
    rintro _ s s' h ⟨rfl, ha⟩
    exact ⟨rfl, answered_stable a l s.rows s'.rows (hrely l s s' h) ha⟩
  refine Txn.wp_stmt hstable ⟨rfl, ha⟩ fun env s ⟨_, ha⟩ _ s' hrely => ?_
  exact ⟨a, l, rfl, answered_stable a l s.rows s'.rows (deskRely hrely) ha⟩

end Desk

/-! ### Runs -/

/-- Of all that come to open the bill of an order, one makes it and everyone is answered with it. -/
theorem one_bill_per_order {s₀ : Store} {S : System BillDesk Key Read BillDesk.Write ApiError}
    {es : List (Event BillDesk Key Read BillDesk.Write ApiError)}
    (h : Run IsCreateBill (fun _ _ => True) (System.start ⟨s₀, [], []⟩) es S) :
    s₀.billId.toList.length + S.store.inserted.length ≤ 1 ∧
      (S.store.answers.filter (·.created)).length ≤ 1 ∧
      (s₀.bill = none → S.store.answers ≠ [] →
        (S.store.answers.filter (·.created)).length = 1) ∧
      ∀ a ∈ S.store.answers, S.store.rows.bill.map (·.id) = some a.billId := by
  have hP : ∀ p, IsCreateBill p → ∀ s, (deskDiscipline s₀.billId).inv s →
      p.wp (deskDiscipline s₀.billId) (fun _ => (deskDiscipline s₀.billId).Commits) .empty s := by
    rintro p ⟨call, rfl⟩ s hs
    exact Txn.wp_mono (Txn.wp_inv hs (call.noted s)) fun _ _ _ h => h.2.commits h.1
  have hrespects : ∀ (S : System BillDesk Key Read BillDesk.Write ApiError) e, True →
      (deskDiscipline s₀.billId).Respects S e := by
    intro S e _
    cases e with
    | commit t => exact fun _ _ => ⟨trivial, fun _ _ _ _ _ _ => trivial⟩
    | stmt t env => exact fun _ _ _ _ _ => trivial
    | _ => trivial
  have hstart : BillDesk.Sound s₀.billId ⟨s₀, [], []⟩ :=
    ⟨List.append_nil _, rfl, fun _ ha => absurd ha List.not_mem_nil⟩
  have hsound := (Discipline.sound hP hrespects (.start hstart) h).1.inv
  have hlength : s₀.billId.toList.length + S.store.inserted.length =
      S.store.rows.billId.toList.length := by
    rw [← hsound.rows, List.length_append]
  have hone : S.store.rows.billId.toList.length ≤ 1 := by
    cases S.store.rows.billId <;> simp
  refine ⟨hlength ▸ hone, ?_, fun hnone hanswers => ?_, hsound.ids⟩
  · have hcreated := hsound.created
    omega
  · obtain ⟨a, ha⟩ := List.exists_mem_of_ne_nil _ hanswers
    have hsome := hsound.ids a ha
    have hfirst : s₀.billId = none := by
      rw [Store.billId, hnone]
      rfl
    rw [hfirst, hsome] at hlength
    have hcreated := hsound.created
    simp only [Option.toList_none, Option.toList_some, List.length_nil, List.length_singleton,
      zero_add] at hlength
    omega

/-- Three come at once: the first inserts and rolls back, the second then inserts, and the guest,
who had found no bill either, is answered with the second's. -/
def threeAtOnce : List (Event BillDesk Key Read BillDesk.Write ApiError) := List.flatten
  [[.begin (CreateBillCall.staff sampleStaff "Owner").answered,
      .begin (CreateBillCall.staff sampleStaff "Owner").answered,
      .begin (CreateBillCall.guest sampleGuest).answered],
    turns 0 7 0, turns 1 6 7, turns 2 8 13, [.rollback 0], turns 1 2 21, [.commit 1],
    turns 2 15 23, [.commit 2]]

theorem one_bill_per_order_sample : ∃ S,
    Run IsCreateBill (fun _ _ => True) (System.start ⟨sampleOrder, [], []⟩) threeAtOnce S ∧
    S.store.answers = [⟨12, true⟩, ⟨12, false⟩] ∧
    (S.store.answers.filter (·.created)).length ≤ 1 := by
  have hplay : ((System.start ⟨sampleOrder, [], []⟩ :
      System BillDesk Key Read BillDesk.Write ApiError).play threeAtOnce).map
      (·.store.answers) = some [⟨12, true⟩, ⟨12, false⟩] := by rfl
  obtain ⟨S, -, hrun, hanswers⟩ := Run.of_play_map (P := IsCreateBill) hplay fun p hp => by
    simp only [threeAtOnce, List.flatten_cons, List.flatten_nil, List.mem_append, List.mem_cons,
      begin_notMem_turns, Event.begin.injEq, reduceCtorEq, List.not_mem_nil, or_false] at hp
    rcases hp with rfl | rfl | rfl <;> exact ⟨_, rfl⟩
  exact ⟨S, hrun, hanswers, (one_bill_per_order hrun).2.1⟩

end RestiqBackend
