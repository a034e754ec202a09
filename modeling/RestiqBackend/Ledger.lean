import RestiqBackend.Footprints
import Mathlib.Data.List.Nodup

/-!
The ledger of a bill.

What a bill is about, with everything else left out: what the lines on the order
are worth and at which tax, the bill row, the tenders and the promises of money
(intents and shares). A `Move` is one entry in the books, with the condition under
which it may be made; `Moves` is a page of them. Requests are shown to make only
such moves (`Bookkeeping`), so what holds along every page holds of every run.
-/

namespace RestiqBackend

/-- The totals of an open bill brought in step with its lines, as
`refreshOpenBillTotals` leaves the row. -/
def Bill.refreshed (b : Bill) (subtotal : ℤ) (profile : TenantTaxProfile) : Bill :=
  let tax := profile.taxOn subtotal
  if b.status ≠ .open ∨ (subtotal = b.subtotalMinor ∧ tax.taxMinor = b.taxMinor ∧
      tax.gstSplitRounding = (readStoredTaxBreakdown b.taxBreakdown).gstSplitRounding) then b
  else b.withTotals subtotal tax.taxMinor (toStoredTaxBreakdown tax) tax.pricesIncludeTax

/-- The columns of a bill as they were computed: nothing negative, a discount within
the subtotal, and no tax on nothing. -/
structure Bill.Sound (b : Bill) : Prop where
  discount_nonneg : 0 ≤ b.discountMinor.getD 0
  discount_le : b.discountMinor.getD 0 ≤ b.subtotalMinor
  tax_nonneg : 0 ≤ b.taxMinor
  untaxed : b.subtotalMinor = 0 → b.taxMinor = 0

theorem TenantTaxProfile.taxOn_nonneg (profile : TenantTaxProfile) {taxable : ℤ} (h : 0 ≤ taxable) :
    0 ≤ (profile.taxOn taxable).taxMinor :=
  computeTax_nonneg _ h

theorem TenantTaxProfile.taxOn_zero (profile : TenantTaxProfile) :
    (profile.taxOn 0).taxMinor = 0 :=
  computeTax_zero _ rfl

/-- A bill that was priced and not discounted. -/
theorem Bill.Sound.of_priced {b : Bill} (profile : TenantTaxProfile) (hsub : 0 ≤ b.subtotalMinor)
    (htax : b.taxMinor = (profile.taxOn b.subtotalMinor).taxMinor) (hnone : b.discountMinor = none) :
    b.Sound := by
  refine ⟨by simp [hnone], by simpa [hnone] using hsub, ?_, fun hzero => ?_⟩
  · rw [htax]
    exact profile.taxOn_nonneg hsub
  · rw [htax, hzero, profile.taxOn_zero]

structure Ledger where
  /-- What the order's lines add up to. -/
  subtotal : ℤ
  /-- What the tenant is taxed at. -/
  profile : TenantTaxProfile
  /-- Whether simulated payments are on. -/
  simulator : Bool
  bill : Option Bill
  tenders : List Tender
  intents : List PaymentIntent
  shares : List BillShare

namespace Ledger

def tenderTotal (L : Ledger) : ℤ := (L.tenders.map (·.amountMinor)).sum

def activeIntents (L : Ledger) : List PaymentIntent := L.intents.filter (·.isActive)

/-- What an undiscounted bill of the lines comes to today. -/
def due (L : Ledger) : ℤ :=
  computeTotalMinor L.subtotal (L.profile.taxOn L.subtotal).taxMinor 0
    (L.profile.taxOn L.subtotal).pricesIncludeTax

def outstanding (L : Ledger) : List BillShare := L.shares.filter (·.status = .outstanding)

/-- A tender that no intent backs. -/
def isManual (t : Tender) : Bool := t.paymentIntentId.isNone

/-- Tenders backed by an intent of a simulated provider. -/
def simulatedTenders (L : Ledger) : List Tender :=
  L.tenders.filter fun t => L.intents.any fun i =>
    some i.id = t.paymentIntentId && i.provider = .simulated

/-- What keeps the books readable: rows are told apart by their keys, nothing hangs
on a bill that is not there, and a tender's intent succeeded. -/
structure Wf (L : Ledger) : Prop where
  subtotal_nonneg : 0 ≤ L.subtotal
  no_bill : L.bill = none → L.tenders = [] ∧ L.intents = [] ∧ L.shares = []
  intent_ids : (L.intents.map (·.id)).Nodup
  share_ids : (L.shares.map (·.id)).Nodup
  share_guests : (L.shares.map (·.guestId)).Nodup
  captured : ∀ t ∈ L.tenders, ∀ id, t.paymentIntentId = some id →
    ∃ i ∈ L.intents, i.id = id ∧ i.status = .succeeded

end Ledger

def outstandingMinorOf (shares : List BillShare) : ℤ :=
  ((shares.filter (·.status = .outstanding)).map (·.amountMinor)).sum

/-- Shares in step with a bill's total: the outstanding ones add up to what the paid
ones leave of it, and none is negative. -/
structure InStep (b : Bill) (shares : List BillShare) : Prop where
  sum : outstandingMinorOf shares = b.totalMinor - paidMinorOf shares
  nonneg : ∀ s ∈ shares, s.status = .outstanding → 0 ≤ s.amountMinor

/-- The part of a share that a split never changes. -/
def BillShare.key (s : BillShare) : ℕ × ℕ × BillShareStatus := (s.id, s.guestId, s.status)

/-- Bringing shares in step leaves the paid ones and the order of all of them, and
adds new ones at the end. -/
structure Resplit (shares shares' : List BillShare) : Prop where
  paid : shares'.filter (·.status = .paid) = shares.filter (·.status = .paid)
  rows : shares.map (·.key) <+: shares'.map (·.key)
  ids : (shares'.map (·.id)).Nodup
  guests : (shares'.map (·.guestId)).Nodup

/-- What kind of entry a move is. -/
inductive Entry
  | plain
  /-- The tax registration or the simulator changed: nothing on the bill. -/
  | outside
  | raise
  /-- A guest paid a share by this tender. -/
  | share (tenderId : ℕ)
  /-- An intent was captured on the open bill, late where it had expired. -/
  | capture (amountMinor : ℤ) (late : Bool)
  | settle
  deriving DecidableEq

/-- The settled row of a bill, as `commitFinalize` leaves it, with what it checked. -/
structure Settles (b b' : Bill) (tenders : List Tender) : Prop where
  isOpen : b.status = .open
  finalized : b'.status = .finalized
  subtotal : b'.subtotalMinor = b.subtotalMinor
  pricesIncludeTax : b'.pricesIncludeTax = b.pricesIncludeTax
  sound : b.Sound → b'.Sound
  covered : (tenders.map (·.amountMinor)).sum = b'.totalMinor + b'.roundOffMinor.getD 0

/-- One entry in the books. -/
inductive Ledger.Move : Entry → Ledger → Ledger → Prop
  /-- Lines are added freely, and taken back only while no money is near the bill. -/
  | edit (L : Ledger) (subtotal : ℤ) (h0 : 0 ≤ subtotal)
      (h : L.subtotal ≤ subtotal ∨ (L.tenders = [] ∧ L.activeIntents = [])) :
      Move .plain L { L with subtotal }
  | switch (L : Ledger) (profile : TenantTaxProfile) (simulator : Bool) :
      Move .outside L { L with profile, simulator }
  | create (L : Ledger) (b : Bill) (h : L.bill = none) (hopen : b.status = .open)
      (hdisc : b.discountMinor = none)
      (hincl : b.pricesIncludeTax = (L.profile.taxOn L.subtotal).pricesIncludeTax)
      (hsound : 0 ≤ L.subtotal → b.Sound) : Move .plain L { L with bill := some b }
  | refresh (L : Ledger) (b : Bill) (h : L.bill = some b) :
      Move .plain L { L with bill := some (b.refreshed L.subtotal L.profile) }
  /-- A new intent asks for no more than is due, and is the only active one. -/
  | raise (L : Ledger) (b : Bill) (i : PaymentIntent) (hb : L.bill = some b)
      (hopen : b.status = .open) (hfresh : b = b.refreshed L.subtotal L.profile)
      (hid : i.id ∉ L.intents.map (·.id)) (hpending : i.status = .pending)
      (hnone : L.activeIntents = []) (hpos : 1 ≤ i.amountMinor)
      (hdue : i.amountMinor ≤ b.totalMinor - L.tenderTotal) :
      Move .raise L { L with intents := L.intents ++ [i] }
  /-- An active intent is declined, cancelled or timed out. -/
  | close (L : Ledger) (id : ℕ) (status : PaymentIntentStatus) (reason : Option String)
      (h : status = .failed ∨ status = .expired ∨ status = .cancelled) (i : PaymentIntent)
      (hi : i ∈ L.intents) (hid : i.id = id) (hactive : i.isActive) :
      Move .plain L
        { L with intents := updateRows PaymentIntent.id id (·.update status reason none) L.intents }
  /-- An intent is captured and its tender written; late, if it had expired. -/
  | capture (L : Ledger) (b : Bill) (i : PaymentIntent) (t : Tender) (at_ : ℤ)
      (hb : L.bill = some b) (hopen : b.status = .open) (hi : i ∈ L.intents)
      (hcap : i.status.capturable) (ht : t.paymentIntentId = some i.id)
      (hamount : t.amountMinor = i.amountMinor) :
      Move (.capture i.amountMinor (i.status = .expired)) L
        { L with
          intents := updateRows PaymentIntent.id i.id
            (·.update .succeeded none (some at_)) L.intents
          tenders := L.tenders ++ [t] }
  /-- A capture that found the bill settled: no tender. -/
  | flag (L : Ledger) (b : Bill) (intents : List PaymentIntent) (hb : L.bill = some b)
      (hfin : b.status = .finalized) (hwf : L.Wf → Ledger.Wf { L with intents }) :
      Move .plain L { L with intents }
  | sync (L : Ledger) (b : Bill) (shares : List BillShare) (hb : L.bill = some b)
      (hopen : b.status = .open) (hstep : InStep b shares) (hsplit : Resplit L.shares shares) :
      Move .plain L { L with shares }
  /-- A guest pays a share, whose amount was in step with the bill. -/
  | pay (L : Ledger) (b : Bill) (s : BillShare) (t : Tender) (phone : Option String) (at_ : ℤ)
      (hb : L.bill = some b) (hopen : b.status = .open)
      (hfresh : b = b.refreshed L.subtotal L.profile) (hstep : InStep b L.shares)
      (hs : s ∈ L.shares) (hout : s.status = .outstanding) (ht : t.paymentIntentId = none)
      (hamount : t.amountMinor = s.amountMinor) :
      Move (.share t.id) L
        { L with
          shares := updateRows BillShare.id s.id (·.pay phone t.id at_) L.shares
          tenders := L.tenders ++ [t] }
  /-- The bill is settled, with the tenders that go with it. -/
  | settle (L : Ledger) (b b' : Bill) (tenders : List Tender) (intents : List PaymentIntent)
      (shares : List BillShare) (hb : L.bill = some b)
      (hsettles : Settles b b' (L.tenders ++ tenders))
      (hoff : L.simulator = false → (∀ t ∈ tenders, t.paymentIntentId = none) ∧
        intents = L.intents ∧ shares = L.shares ∧ L.simulatedTenders = [])
      (hwf : L.Wf → Ledger.Wf
        { L with bill := some b', tenders := L.tenders ++ tenders, intents, shares }) :
      Move .settle L { L with bill := some b', tenders := L.tenders ++ tenders, intents, shares }

/-- A page of entries, in the order they were made. -/
inductive Ledger.Moves : Ledger → List Entry → Ledger → Prop
  | nil (L : Ledger) : Moves L [] L
  | cons {L L' L'' : Ledger} {e : Entry} {es : List Entry} (h : L.Move e L')
      (hs : Moves L' es L'') : Moves L (e :: es) L''

namespace Ledger

theorem Moves.append {L L' L'' : Ledger} {es es' : List Entry} (h : L.Moves es L')
    (h' : L'.Moves es' L'') : L.Moves (es ++ es') L'' := by
  induction h with
  | nil => exact h'
  | cons hm _ ih => exact .cons hm (ih h')

theorem Move.page {L L' : Ledger} {e : Entry} (h : L.Move e L') : L.Moves [e] L' :=
  .cons h (.nil L')

/-- A property that every move keeps holds at the end of every page. -/
theorem Moves.preserves {I : Ledger → Prop} (hI : ∀ e L L', I L → L.Move e L' → I L')
    {L L' : Ledger} {es : List Entry} (h : L.Moves es L') (hL : I L) : I L' := by
  induction h with
  | nil => exact hL
  | cons hm _ ih => exact ih (hI _ _ _ hL hm)

end Ledger

/-! ### Rows changed by their key -/

section Rows

variable {α β : Type} {idOf : α → ℕ} {id : ℕ} {f : α → α} {rows : List α}

/-- A column that the change keeps. -/
theorem updateRows_map (g : α → β) (hf : ∀ r, g (f r) = g r) :
    (updateRows idOf id f rows).map g = rows.map g := by
  rw [updateRows, List.map_map]
  refine List.map_congr_left fun r _ => ?_
  simp only [Function.comp_apply]
  split <;> simp [hf]

theorem nodup_updateRows {g : α → β} (hf : ∀ r, g (f r) = g r) (h : (rows.map g).Nodup) :
    ((updateRows idOf id f rows).map g).Nodup := by
  rwa [updateRows_map g hf]

theorem mem_updateRows {r : α} :
    r ∈ updateRows idOf id f rows ↔
      (r ∈ rows ∧ idOf r ≠ id) ∨ ∃ r₀ ∈ rows, idOf r₀ = id ∧ f r₀ = r := by
  simp only [updateRows, List.mem_map]
  constructor
  · rintro ⟨r₀, hr₀, rfl⟩
    split
    · exact Or.inr ⟨r₀, hr₀, by assumption, rfl⟩
    · exact Or.inl ⟨hr₀, by assumption⟩
  · rintro (⟨hr, hid⟩ | ⟨r₀, hr₀, hid, rfl⟩)
    · exact ⟨r, hr, if_neg hid⟩
    · exact ⟨r₀, hr₀, if_pos hid⟩

theorem eq_of_key_eq (hnd : (rows.map idOf).Nodup) {r r' : α} (hr : r ∈ rows) (hr' : r' ∈ rows)
    (h : idOf r = idOf r') : r = r' :=
  List.inj_on_of_nodup_map hnd hr hr' h

/-- With unique keys, looking a row up by its key finds it. -/
theorem find?_key {r : α} (hnd : (rows.map idOf).Nodup) (hr : r ∈ rows) :
    rows.find? (fun x => decide (idOf x = idOf r)) = some r := by
  cases hfound : rows.find? (fun x => decide (idOf x = idOf r)) with
  | none => simpa using List.find?_eq_none.mp hfound r hr
  | some r' =>
      exact congrArg some (eq_of_key_eq hnd (List.mem_of_find?_eq_some hfound) hr
        (by simpa using List.find?_some hfound))

/-- With unique keys, changing one row splits the list around it. -/
theorem updateRows_split {r : α} (hnd : (rows.map idOf).Nodup) (hr : r ∈ rows) :
    ∃ before after, rows = before ++ r :: after ∧
      updateRows idOf (idOf r) f rows = before ++ f r :: after := by
  obtain ⟨before, after, rfl⟩ := List.append_of_mem hr
  refine ⟨before, after, rfl, ?_⟩
  have hne : ∀ x ∈ before ++ after, idOf x ≠ idOf r := by
    rw [List.map_append, List.map_cons, List.nodup_middle, List.nodup_cons] at hnd
    intro x hx heq
    exact hnd.1 (by rw [← List.map_append, ← heq]; exact List.mem_map_of_mem hx)
  have hid : ∀ l : List α, (∀ x ∈ l, x ∈ before ++ after) →
      l.map (fun x => if idOf x = idOf r then f x else x) = l := by
    intro l hl
    refine (List.map_congr_left fun x hx => if_neg (hne x (hl x hx))).trans (List.map_id' l)
  rw [updateRows, List.map_append, List.map_cons, if_pos rfl,
    hid before fun x hx => List.mem_append_left _ hx,
    hid after fun x hx => List.mem_append_right _ hx]

end Rows

/-! ### Every move keeps the books readable -/

namespace Ledger

/-- Updating intents by key keeps every captured tender's intent succeeded, if the
update leaves alone, or makes succeeded, whatever had succeeded. -/
theorem captured_update {L : Ledger} (hwf : L.Wf) (id : ℕ) (status : PaymentIntentStatus)
    (reason : Option String) (at_ : Option ℤ)
    (h : status = .succeeded ∨ ∀ i ∈ L.intents, i.id = id → i.status ≠ .succeeded) :
    ∀ t ∈ L.tenders, ∀ tid, t.paymentIntentId = some tid →
      ∃ i ∈ updateRows PaymentIntent.id id (·.update status reason at_) L.intents,
        i.id = tid ∧ i.status = .succeeded := by
  intro t ht tid htid
  obtain ⟨i, hi, hid, hsucc⟩ := hwf.captured t ht tid htid
  by_cases heq : i.id = id
  · rcases h with rfl | h
    · exact ⟨i.update .succeeded reason at_, mem_updateRows.mpr (Or.inr ⟨i, hi, heq, rfl⟩), hid, rfl⟩
    · exact absurd hsucc (h i hi heq)
  · exact ⟨i, mem_updateRows.mpr (Or.inl ⟨hi, heq⟩), hid, hsucc⟩

/-- A new intent on a bill that is there. -/
theorem Wf.add_intent {L : Ledger} (h : L.Wf) {b : Bill} (hb : L.bill = some b) {i : PaymentIntent}
    (hid : i.id ∉ L.intents.map (·.id)) : Wf { L with intents := L.intents ++ [i] } := by
  refine { h with no_bill := by simp [hb], intent_ids := ?_, captured := ?_ }
  · simp only [List.map_append, List.map_cons, List.map_nil, List.nodup_append,
      List.nodup_cons, List.not_mem_nil, not_false_eq_true, List.nodup_nil, and_true,
      List.mem_singleton, true_and]
    refine ⟨h.intent_ids, fun a ha b hb' hab => hid ?_⟩
    rwa [← hb', ← hab]
  · intro t ht tid htid
    obtain ⟨j, hj, hjid, hsucc⟩ := h.captured t ht tid htid
    exact ⟨j, List.mem_append_left _ hj, hjid, hsucc⟩

theorem Move.wf {e : Entry} {L L' : Ledger} (h : L.Move e L') (hwf : L.Wf) : L'.Wf := by
  cases h with
  | edit _ subtotal h0 _ => exact { hwf with subtotal_nonneg := h0 }
  | switch _ profile simulator => exact { hwf with }
  | create _ b hb => exact { hwf with no_bill := by simp }
  | refresh _ b hb => exact { hwf with no_bill := by simp }
  | raise _ b i hb _ _ hid _ _ _ _ => exact hwf.add_intent hb hid
  | close _ id status reason h i hi hid hactive =>
      have hne : ∀ j ∈ L.intents, j.id = id → j.status ≠ .succeeded := by
        intro j hj hjid hsucc
        have : j = i := eq_of_key_eq hwf.intent_ids hj hi (hjid.trans hid.symm)
        subst this
        simp [PaymentIntent.isActive, hsucc, PaymentIntentStatus.isActive] at hactive
      refine { hwf with no_bill := fun hb => ?_, intent_ids := ?_, captured := ?_ }
      · obtain ⟨ht, hi', hs⟩ := hwf.no_bill hb
        simp [hi'] at hi
      · exact nodup_updateRows (fun _ => rfl) hwf.intent_ids
      · exact captured_update hwf id status reason none (Or.inr hne)
  | capture _ b i t at_ hb hopen hi hcap ht hamount =>
      refine { hwf with no_bill := by simp [hb], intent_ids := ?_, captured := ?_ }
      · exact nodup_updateRows (fun _ => rfl) hwf.intent_ids
      · intro t' ht' tid htid
        rcases List.mem_append.mp ht' with ht' | ht'
        · exact captured_update hwf i.id .succeeded none (some at_) (Or.inl rfl) t' ht' tid htid
        · rw [List.mem_singleton] at ht'
          subst ht'
          rw [ht, Option.some.injEq] at htid
          subst htid
          exact ⟨_, mem_updateRows.mpr (Or.inr ⟨i, hi, rfl, rfl⟩), rfl, rfl⟩
  | flag _ b intents hb hfin hwf' => exact hwf' hwf
  | sync _ b shares hb hopen hstep hsplit =>
      exact { hwf with no_bill := by simp [hb], share_ids := hsplit.ids,
                       share_guests := hsplit.guests }
  | pay _ b s t phone at_ hb hopen hfresh hstep hs hout ht hamount =>
      refine { hwf with no_bill := by simp [hb], share_ids := ?_, share_guests := ?_, captured := ?_ }
      · exact nodup_updateRows (fun _ => rfl) hwf.share_ids
      · exact nodup_updateRows (fun _ => rfl) hwf.share_guests
      · intro t' ht' tid htid
        rcases List.mem_append.mp ht' with ht' | ht'
        · exact hwf.captured t' ht' tid htid
        · rw [List.mem_singleton] at ht'
          rw [ht', ht] at htid
          cases htid
  | settle _ b b' tenders intents shares hb hsettles hoff hwf' => exact hwf' hwf

theorem Moves.wf {L L' : Ledger} {es : List Entry} (h : L.Moves es L') (hwf : L.Wf) : L'.Wf :=
  h.preserves (fun _ _ _ hwf hm => hm.wf hwf) hwf

/-- What the moves of a page's entries keep, on readable books, the page keeps. -/
theorem Moves.preserves_of {I : Ledger → Prop} {L L' : Ledger} {es : List Entry}
    (h : L.Moves es L')
    (hI : ∀ e L L', e ∈ es → L.Wf → I L → L.Move e L' → I L') (hwf : L.Wf) (hL : I L) : I L' := by
  induction h with
  | nil => exact hL
  | cons hm _ ih =>
      exact ih (fun e L L' he => hI e L L' (List.mem_cons_of_mem _ he)) (hm.wf hwf)
        (hI _ _ _ List.mem_cons_self hwf hL hm)

end Ledger

end RestiqBackend
