import Mathlib.Algebra.Order.BigOperators.Group.List
import Mathlib.Data.List.Dedup
import Mathlib.Data.List.Induction
import Mathlib.Tactic.Linarith
import RestiqBackend.Shifts

/-!
Which refunds left the drawer (`src/pos/shifts/shifts.service.ts`).

A credit note says how its money went back, except for the oldest, which are taken to have gone
back in cash as far as their bill had been paid in cash. Closing a shift replays all the notes of
the bills that were refunded in it, with what is left of each bill's cash, and counts those that
were written in the shift. Each note has a share of its own, told by the notes of its bill before
it, and a closing counts the shares of its notes.
-/

namespace RestiqBackend.CashShares

/-! ### Counting the refunds of a shift -/

/-- A bill, as it is loaded with a note of it. -/
structure OriginalBill where
  outletId : ℕ
  pricesIncludeTax : Bool
  tenders : List Tender

/-- A credit note with the bill that it is for. -/
structure NoteRow where
  originalBillId : ℕ
  note : CreditNote
  deriving DecidableEq

/-- The bills by their identifiers, and the credit notes. -/
structure Books where
  bill : ℕ → OriginalBill
  creditNotes : List NoteRow

def Books.cash (b : Books) (billId : ℕ) : ℤ := cashMinorOf (b.bill billId).tenders

def Books.noteTotal (b : Books) (n : NoteRow) : ℤ :=
  n.note.totalMinor (b.bill n.originalBillId).pricesIncludeTax

/-- By time, and by identifier at one time. -/
def NoteRow.before (m n : NoteRow) : Bool := m.note.before n.note

/-- What a replay keeps: the cash that is left of the bills it has come to, and the sum. -/
structure Replay where
  cashLeft : ℕ → Option ℤ
  refundedMinor : ℤ

def Books.cashOf (b : Books) (n : NoteRow) (left : ℤ) : ℤ :=
  match n.note.method with
  | some .cash => b.noteTotal n
  | none => if b.noteTotal n < left then b.noteTotal n else left
  | some _ => 0

def Books.replay (b : Books) (since : ℤ) (r : Replay) (n : NoteRow) : Replay :=
  let left := (r.cashLeft n.originalBillId).getD (b.cash n.originalBillId)
  let cash := b.cashOf n left
  { cashLeft := Function.update r.cashLeft n.originalBillId
      (some (if cash < left then left - cash else 0))
    refundedMinor :=
      if since ≤ n.note.createdAt then r.refundedMinor + cash else r.refundedMinor }

/-- The notes of an outlet's bills that were written since a time. -/
def Books.inShift (b : Books) (outletId : ℕ) (since : ℤ) : List NoteRow :=
  b.creditNotes.filter fun n =>
    since ≤ n.note.createdAt ∧ (b.bill n.originalBillId).outletId = outletId

def computeCashRefundsMinor (b : Books) (outletId : ℕ) (since : ℤ) : ℤ :=
  let inShift := b.inShift outletId since
  if inShift = [] then 0
  else
    let billIds := (inShift.map (·.originalBillId)).dedup
    let notes := (b.creditNotes.filter (·.originalBillId ∈ billIds)).mergeSort NoteRow.before
    (notes.foldl (b.replay since) ⟨fun _ => none, 0⟩).refundedMinor

/-! ### The share of a note -/

def NoteRow.strictlyBefore (m n : NoteRow) : Bool := m.before n && !n.before m

/-- The notes of the same bill that came before, in turn. -/
def Books.earlier (b : Books) (n : NoteRow) : List NoteRow :=
  (b.creditNotes.mergeSort NoteRow.before).filter fun m =>
    m.originalBillId = n.originalBillId ∧ m.strictlyBefore n = true

/-- What a note takes of a bill's cash that `taken` has been taken of. -/
def Books.shareAfter (b : Books) (taken : ℤ) (n : NoteRow) : ℤ :=
  match n.note.method with
  | some .cash => b.noteTotal n
  | some _ => 0
  | none => min (b.noteTotal n) (max 0 (b.cash n.originalBillId - taken))

/-- What the notes of a bill take, one after another. -/
def Books.taken (b : Books) (notes : List NoteRow) : ℤ :=
  notes.foldl (fun taken n => taken + b.shareAfter taken n) 0

def Books.share (b : Books) (n : NoteRow) : ℤ := b.shareAfter (b.taken (b.earlier n)) n

/-- The rows as the code writes them: a note has an identifier of its own, and no amount is
negative. -/
structure Books.Sound (b : Books) : Prop where
  ids : (b.creditNotes.map (·.note.id)).Nodup
  totals : ∀ n ∈ b.creditNotes, 0 ≤ b.noteTotal n
  tenders : ∀ billId, ∀ t ∈ (b.bill billId).tenders, 0 ≤ t.amountMinor

/-! ### The notes in order -/

theorem before_trans (m n k : NoteRow) (h : m.before n = true) (h' : n.before k = true) :
    m.before k = true := by
  simp only [NoteRow.before, CreditNote.before, Bool.or_eq_true, Bool.and_eq_true,
    decide_eq_true_eq] at h h' ⊢
  omega

theorem before_total (m n : NoteRow) : (m.before n || n.before m) = true := by
  simp only [NoteRow.before, CreditNote.before, Bool.or_eq_true, Bool.and_eq_true,
    decide_eq_true_eq]
  omega

theorem id_eq_of_before {m n : NoteRow} (h : m.before n = true) (h' : n.before m = true) :
    m.note.id = n.note.id := by
  simp only [NoteRow.before, CreditNote.before, Bool.or_eq_true, Bool.and_eq_true,
    decide_eq_true_eq] at h h'
  omega

theorem strictlyBefore_iff {m n : NoteRow} :
    m.strictlyBefore n = true ↔ m.before n = true ∧ n.before m = false := by
  simp [NoteRow.strictlyBefore]

theorem sorted_before (rows : List NoteRow) :
    (rows.mergeSort NoteRow.before).Pairwise fun m n => m.before n = true :=
  List.pairwise_mergeSort before_trans before_total rows

def Books.inOrder (b : Books) : List NoteRow := b.creditNotes.mergeSort NoteRow.before

variable {b : Books} {n : NoteRow}

theorem mem_inOrder : n ∈ b.inOrder ↔ n ∈ b.creditNotes := List.mem_mergeSort

theorem inOrder_before : b.inOrder.Pairwise fun m n => m.before n = true := sorted_before _

theorem Books.Sound.eq_of_before (h : b.Sound) {m : NoteRow} (hm : m ∈ b.creditNotes)
    (hn : n ∈ b.creditNotes) (hmn : m.before n = true) (hnm : n.before m = true) : m = n :=
  List.inj_on_of_nodup_map h.ids hm hn (id_eq_of_before hmn hnm)

/-- No two notes are equal in the order. -/
theorem Books.Sound.strictly (h : b.Sound) :
    b.inOrder.Pairwise fun m n => m.strictlyBefore n = true := by
  have hnodup : b.inOrder.Nodup :=
    (List.mergeSort_perm _ _).nodup_iff.mpr (List.Nodup.of_map _ h.ids)
  refine (inOrder_before.and hnodup).imp_of_mem fun hm hn hmn => ?_
  refine strictlyBefore_iff.mpr ⟨hmn.1, Bool.not_eq_true _ ▸ fun hnm => hmn.2 ?_⟩
  exact h.eq_of_before (mem_inOrder.mp hm) (mem_inOrder.mp hn) hmn.1 hnm

/-- The notes of some of the bills, put in order, are those of the order. -/
theorem Books.Sound.filter_inOrder (h : b.Sound) (p : NoteRow → Bool) :
    (b.creditNotes.filter p).mergeSort NoteRow.before = b.inOrder.filter p := by
  have hperm : ((b.creditNotes.filter p).mergeSort NoteRow.before).Perm (b.inOrder.filter p) :=
    (List.mergeSort_perm _ _).trans ((List.mergeSort_perm b.creditNotes _).symm.filter p)
  refine List.Perm.eq_of_pairwise ?_ (sorted_before _) (inOrder_before.filter p) hperm
  intro m n hm hn
  have hm := (List.mem_filter.mp (List.mem_mergeSort.mp hm)).1
  exact h.eq_of_before hm (mem_inOrder.mp (List.mem_filter.mp hn).1)

/-- What stands before a note in the order of its bill is what came before it. -/
theorem Books.Sound.earlier_eq (h : b.Sound) {p : NoteRow → Bool} {done rest : List NoteRow}
    (hp : ∀ m, m.originalBillId = n.originalBillId → p m = true)
    (hsplit : b.inOrder.filter p = done ++ n :: rest) :
    b.earlier n = done.filter (·.originalBillId = n.originalBillId) := by
  have hstrict : (done ++ n :: rest).Pairwise fun m n => m.strictlyBefore n = true :=
    hsplit ▸ h.strictly.filter p
  obtain ⟨-, hrest, hdone⟩ := List.pairwise_append.mp hstrict
  have hearlier : b.earlier n = (b.inOrder.filter p).filter fun m =>
      m.originalBillId = n.originalBillId ∧ m.strictlyBefore n = true := by
    rw [Books.earlier, ← Books.inOrder, List.filter_filter]
    refine List.filter_congr fun m _ => ?_
    by_cases hm : m.originalBillId = n.originalBillId
    · simp [hm, hp m hm]
    · simp [hm]
  have hself : n.strictlyBefore n = false := by
    cases hn : n.before n <;> simp [NoteRow.strictlyBefore, hn]
  have hlater : rest.filter (fun m => m.originalBillId = n.originalBillId ∧
      m.strictlyBefore n = true) = [] := by
    refine List.filter_eq_nil_iff.mpr fun m hm => ?_
    have hnm := (strictlyBefore_iff.mp ((List.pairwise_cons.mp hrest).1 m hm)).1
    simp [NoteRow.strictlyBefore, hnm]
  rw [hearlier, hsplit, List.filter_append, List.filter_cons_of_neg (by simp [hself]), hlater,
    List.append_nil]
  refine List.filter_congr fun m hm => ?_
  rw [hdone m hm n List.mem_cons_self]
  simp

/-! ### What the notes of a bill take -/

theorem taken_snoc (notes : List NoteRow) (n : NoteRow) :
    b.taken (notes ++ [n]) = b.taken notes + b.shareAfter (b.taken notes) n := by
  rw [Books.taken, List.foldl_append]
  rfl

theorem shareAfter_nonneg {taken : ℤ} (h : 0 ≤ b.noteTotal n) : 0 ≤ b.shareAfter taken n := by
  unfold Books.shareAfter
  split
  · exact h
  · exact le_rfl
  · exact le_min h (le_max_left 0 _)

theorem Books.Sound.share_nonneg (h : b.Sound) (hn : n ∈ b.creditNotes) : 0 ≤ b.share n :=
  shareAfter_nonneg (h.totals n hn)

theorem Books.Sound.cash_nonneg (h : b.Sound) (billId : ℕ) : 0 ≤ b.cash billId := by
  refine List.sum_nonneg fun x hx => ?_
  obtain ⟨t, ht, rfl⟩ := List.mem_map.mp hx
  exact h.tenders billId t (List.mem_filter.mp ht).1

/-- The notes of one bill, in order. -/
def Books.notesOf (b : Books) (billId : ℕ) : List NoteRow :=
  b.inOrder.filter (·.originalBillId = billId)

theorem mem_notesOf {billId : ℕ} :
    n ∈ b.notesOf billId ↔ n ∈ b.creditNotes ∧ n.originalBillId = billId := by
  rw [Books.notesOf, List.mem_filter, mem_inOrder, decide_eq_true_eq]

theorem Books.Sound.earlier_prefix (h : b.Sound) {billId : ℕ} {done rest : List NoteRow}
    (hsplit : b.notesOf billId = done ++ n :: rest) : b.earlier n = done := by
  have hall : ∀ m ∈ done ++ n :: rest, m.originalBillId = billId := fun m hm =>
    (mem_notesOf.mp (hsplit ▸ hm)).2
  have hn := hall n (List.mem_append_right _ List.mem_cons_self)
  rw [h.earlier_eq (fun m hm => decide_eq_true (hm.trans hn)) hsplit, List.filter_eq_self]
  exact fun m hm => decide_eq_true ((hall m (List.mem_append_left _ hm)).trans hn.symm)

/-- What the first notes of a bill take is what their shares add up to. -/
theorem Books.Sound.taken_prefix (h : b.Sound) {billId : ℕ} {done rest : List NoteRow}
    (hsplit : b.notesOf billId = done ++ rest) : b.taken done = (done.map b.share).sum := by
  induction done using List.reverseRecOn generalizing rest with
  | nil => rfl
  | append_singleton done n ih =>
      rw [List.append_assoc, List.singleton_append] at hsplit
      have hshare : b.share n = b.shareAfter (b.taken done) n := by
        rw [Books.share, h.earlier_prefix hsplit]
      rw [taken_snoc, ih hsplit, List.map_append, List.sum_append, List.map_singleton,
        List.sum_singleton, hshare, ih hsplit]

theorem Books.Sound.taken_earlier (h : b.Sound) (hn : n ∈ b.creditNotes) :
    b.taken (b.earlier n) = ((b.earlier n).map b.share).sum := by
  obtain ⟨done, rest, hsplit⟩ := List.append_of_mem (mem_notesOf.mpr ⟨hn, rfl⟩)
  rw [h.earlier_prefix hsplit]
  exact h.taken_prefix hsplit

/-- Nobody recorded how: the notes without a method take no more than the cash there was. -/
theorem Books.Sound.unrecorded_le (h : b.Sound) {billId : ℕ} {done rest : List NoteRow}
    (hsplit : b.notesOf billId = done ++ rest) :
    ((done.filter (·.note.method = none)).map b.share).sum ≤ b.cash billId ∧
      ((done.filter (·.note.method = none)).map b.share).sum ≤ b.taken done := by
  induction done using List.reverseRecOn generalizing rest with
  | nil => exact ⟨h.cash_nonneg billId, le_rfl⟩
  | append_singleton done n ih =>
      rw [List.append_assoc, List.singleton_append] at hsplit
      obtain ⟨hcash, htaken⟩ := ih hsplit
      have hn : n ∈ b.creditNotes ∧ n.originalBillId = billId :=
        mem_notesOf.mp (hsplit ▸ List.mem_append_right _ List.mem_cons_self)
      have hshare : b.share n = b.shareAfter (b.taken done) n := by
        rw [Books.share, h.earlier_prefix hsplit]
      have hnonneg := h.share_nonneg hn.1
      rw [taken_snoc, ← hshare, List.filter_append, List.map_append, List.sum_append]
      by_cases hmethod : n.note.method = none
      · have hle : b.share n ≤ max 0 (b.cash billId - b.taken done) := by
          rw [hshare, Books.shareAfter, hmethod, hn.2]
          exact min_le_right _ _
        rw [List.filter_singleton, decide_eq_true hmethod]
        simp only [cond_true, List.map_singleton, List.sum_singleton]
        refine ⟨?_, by linarith⟩
        rcases le_max_iff.mp hle with hle | hle <;> linarith
      · rw [List.filter_singleton, decide_eq_false hmethod]
        simp only [cond_false, List.map_nil, List.sum_nil]
        exact ⟨by linarith, by linarith⟩

/-! ### The replay -/

/-- What is left of the bills after the first of the notes. -/
def Books.Left (b : Books) (r : Replay) (done : List NoteRow) : Prop :=
  ∀ billId, (r.cashLeft billId).getD (b.cash billId) =
    max 0 (b.cash billId - b.taken (done.filter (·.originalBillId = billId)))

theorem Books.Sound.left_nil (h : b.Sound) : b.Left ⟨fun _ => none, 0⟩ [] := fun billId => by
  rw [Option.getD_none, List.filter_nil]
  change b.cash billId = max 0 (b.cash billId - 0)
  rw [sub_zero, max_eq_right (h.cash_nonneg billId)]

theorem cashOf_eq (taken : ℤ) :
    b.cashOf n (max 0 (b.cash n.originalBillId - taken)) = b.shareAfter taken n := by
  unfold Books.cashOf Books.shareAfter
  cases n.note.method with
  | none =>
      simp only [min_def]
      split_ifs <;> omega
  | some method => cases method <;> rfl

/-- One note: it takes its share, and leaves the rest. -/
theorem Books.Left.replay {r : Replay} {done : List NoteRow} {since : ℤ} (h : b.Left r done)
    (hearlier : b.earlier n = done.filter (·.originalBillId = n.originalBillId))
    (hnonneg : 0 ≤ b.share n) :
    b.Left (b.replay since r n) (done ++ [n]) ∧
      (b.replay since r n).refundedMinor =
        r.refundedMinor + if since ≤ n.note.createdAt then b.share n else 0 := by
  have hcash : b.cashOf n ((r.cashLeft n.originalBillId).getD (b.cash n.originalBillId)) =
      b.share n := by
    rw [h n.originalBillId, cashOf_eq, Books.share, hearlier]
  have hleft : (b.replay since r n).cashLeft = Function.update r.cashLeft n.originalBillId
      (some (if b.share n < (r.cashLeft n.originalBillId).getD (b.cash n.originalBillId) then
        (r.cashLeft n.originalBillId).getD (b.cash n.originalBillId) - b.share n else 0)) := by
    rw [← hcash]
    rfl
  constructor
  · intro billId
    rw [hleft, List.filter_append, List.filter_singleton]
    by_cases hbill : n.originalBillId = billId
    · subst hbill
      rw [Function.update_self, Option.getD_some, h n.originalBillId, decide_eq_true rfl,
        cond_true, taken_snoc, ← hearlier, ← Books.share]
      split_ifs <;> omega
    · rw [Function.update_of_ne (Ne.symm hbill), h billId, decide_eq_false hbill, cond_false,
        List.append_nil]
  · have hrefunded : (b.replay since r n).refundedMinor =
        if since ≤ n.note.createdAt then r.refundedMinor + b.share n else r.refundedMinor := by
      rw [← hcash]
      rfl
    rw [hrefunded]
    split_ifs
    · rfl
    · exact (add_zero _).symm

/-- All of them: the replay sums up the shares of those that count. -/
theorem Books.Sound.replay_eq (h : b.Sound) {p : NoteRow → Bool} {since : ℤ}
    (hp : ∀ m n, m.originalBillId = n.originalBillId → p m = p n) (rest : List NoteRow) :
    ∀ (done : List NoteRow) (r : Replay), b.inOrder.filter p = done ++ rest → b.Left r done →
      (rest.foldl (b.replay since) r).refundedMinor = r.refundedMinor +
        ((rest.filter (since ≤ ·.note.createdAt)).map b.share).sum := by
  induction rest with
  | nil => exact fun _ r _ _ => (add_zero r.refundedMinor).symm
  | cons n rest ih =>
      intro done r hsplit hleft
      have hmem : n ∈ b.inOrder.filter p := hsplit ▸ List.mem_append_right _ List.mem_cons_self
      obtain ⟨hn, hpn⟩ := List.mem_filter.mp hmem
      have hearlier := h.earlier_eq (fun m hm => (hp m n hm).trans hpn) hsplit
      have hstep : b.Left (b.replay since r n) (done ++ [n]) ∧ _ :=
        hleft.replay hearlier (h.share_nonneg (mem_inOrder.mp hn))
      obtain ⟨hleft', hrefunded⟩ := hstep
      rw [List.foldl_cons, ih (done ++ [n]) _ (by rw [hsplit, List.append_assoc]; rfl) hleft',
        hrefunded, add_assoc, List.filter_cons]
      by_cases hsince : since ≤ n.note.createdAt <;> simp [hsince]

/-! ### What a closing counts -/

/-- A closing counts the shares of the notes that were written in its shift. -/
theorem Books.Sound.compute_eq (h : b.Sound) (outletId : ℕ) (since : ℤ) :
    computeCashRefundsMinor b outletId since = ((b.inShift outletId since).map b.share).sum := by
  unfold computeCashRefundsMinor
  dsimp only
  by_cases hnone : b.inShift outletId since = []
  · rw [if_pos hnone, hnone]
    rfl
  · let p (n : NoteRow) : Bool :=
      n.originalBillId ∈ ((b.inShift outletId since).map (·.originalBillId)).dedup
    have hp : ∀ m n, m.originalBillId = n.originalBillId → p m = p n := fun m n hmn => by
      simp only [p, hmn]
    -- A bill that is refunded in the shift is the outlet's, and all its notes are replayed.
    have hcounted : (b.creditNotes.filter p).filter (fun n => since ≤ n.note.createdAt) =
        b.inShift outletId since := by
      rw [List.filter_filter, Books.inShift]
      refine List.filter_congr fun n hn => ?_
      rw [← Bool.decide_and, decide_eq_decide]
      refine and_congr_right fun hsince => ?_
      rw [List.mem_dedup, List.mem_map]
      constructor
      · rintro ⟨m, hm, hbill⟩
        exact hbill ▸ (of_decide_eq_true (List.mem_filter.mp hm).2).2
      · exact fun houtlet => ⟨n, List.mem_filter.mpr ⟨hn, decide_eq_true ⟨hsince, houtlet⟩⟩, rfl⟩
    have hreplay : ((b.inOrder.filter p).foldl (b.replay since) ⟨fun _ => none, 0⟩).refundedMinor =
        0 + _ := h.replay_eq hp (b.inOrder.filter p) [] _ rfl h.left_nil
    rw [if_neg hnone]
    change (((b.creditNotes.filter p).mergeSort NoteRow.before).foldl (b.replay since) _).refundedMinor
      = _
    rw [h.filter_inOrder, hreplay, zero_add, ← hcounted]
    exact ((((List.mergeSort_perm _ _).filter p).filter _).map b.share).sum_eq

/-- Later notes change nothing. -/
theorem share_append {more : List NoteRow} (hnew : ∀ m ∈ more, m.strictlyBefore n = false)
    (h : b.Sound) (h' : Books.Sound { b with creditNotes := b.creditNotes ++ more }) :
    Books.share { b with creditNotes := b.creditNotes ++ more } n = b.share n := by
  let p (m : NoteRow) : Bool := m.originalBillId = n.originalBillId ∧ m.strictlyBefore n = true
  have hnone : more.filter p = [] :=
    List.filter_eq_nil_iff.mpr fun m hm => by simp [p, hnew m hm]
  have hearlier : Books.earlier { b with creditNotes := b.creditNotes ++ more } n =
      b.earlier n := by
    change (Books.inOrder { b with creditNotes := b.creditNotes ++ more }).filter p = _
    rw [← h'.filter_inOrder, List.filter_append, hnone, List.append_nil, h.filter_inOrder]
    rfl
  rw [Books.share, hearlier]
  rfl

/-- **Each note has its share.** It is told by the notes of the bill before it: the whole of a note
that went back in cash, nothing of one that went back otherwise, and of one without a method as
much as is left of the bill's cash. A closing counts the shares of the notes since its shift was
opened, so another opening counts those between as well; and the notes without a method take no
more of a bill than was paid in cash. -/
theorem cash_refunds_are_shares (h : b.Sound) :
    (∀ n ∈ b.creditNotes, b.share n =
      match n.note.method with
      | some .cash => b.noteTotal n
      | some _ => 0
      | none => min (b.noteTotal n)
          (max 0 (b.cash n.originalBillId - ((b.earlier n).map b.share).sum))) ∧
    (∀ n more, (∀ m ∈ more, m.strictlyBefore n = false) →
      Books.Sound { b with creditNotes := b.creditNotes ++ more } →
      Books.share { b with creditNotes := b.creditNotes ++ more } n = b.share n) ∧
    (∀ outletId since, computeCashRefundsMinor b outletId since =
      ((b.inShift outletId since).map b.share).sum) ∧
    (∀ billId, ((b.creditNotes.filter fun n =>
      n.originalBillId = billId ∧ n.note.method = none).map b.share).sum ≤ b.cash billId) ∧
    ∀ outletId since since', since ≤ since' → computeCashRefundsMinor b outletId since =
      computeCashRefundsMinor b outletId since' +
        (((b.inShift outletId since).filter (·.note.createdAt < since')).map b.share).sum := by
  refine ⟨fun n hn => ?_, fun n more hnew h' => share_append hnew h h', h.compute_eq,
    fun billId => ?_, fun outletId since since' hle => ?_⟩
  · rw [← h.taken_earlier hn]
    rfl
  · have hperm : (b.creditNotes.filter fun n =>
        n.originalBillId = billId ∧ n.note.method = none).Perm
          ((b.notesOf billId).filter (·.note.method = none)) := by
      rw [Books.notesOf, List.filter_filter]
      refine ((List.mergeSort_perm b.creditNotes NoteRow.before).symm.filter _).trans ?_
      rw [Books.inOrder]
      refine (List.filter_congr fun n _ => ?_) ▸ List.Perm.refl _
      rw [← Bool.decide_and, decide_eq_decide, and_comm]
    rw [(hperm.map b.share).sum_eq]
    exact (h.unrecorded_le (List.append_nil _).symm).1
  · have hafter : b.inShift outletId since' =
        (b.inShift outletId since).filter fun n => !decide (n.note.createdAt < since') := by
      rw [Books.inShift, Books.inShift, List.filter_filter]
      refine List.filter_congr fun n _ => ?_
      rw [← decide_not, ← Bool.decide_and, decide_eq_decide]
      constructor
      · rintro ⟨hsince, houtlet⟩
        exact ⟨not_lt.mpr hsince, hle.trans hsince, houtlet⟩
      · rintro ⟨hsince, -, houtlet⟩
        exact ⟨not_lt.mp hsince, houtlet⟩
    have hsplit := ((List.filter_append_perm (fun n : NoteRow => decide (n.note.createdAt < since'))
      (b.inShift outletId since)).map b.share).sum_eq
    rw [h.compute_eq, h.compute_eq, hafter, ← hsplit, List.map_append, List.sum_append, add_comm]

/-- Two bills of an outlet, the first paid with 100 in cash. Its first note went back to a card and
its second, of 70, was not recorded; so of the next, of 60, there are 30 left to take. -/
def sampleBooks : Books where
  bill i := ⟨1, true, [⟨i, .cash, if i = 1 then 100 else 40, none, false, none, none⟩,
    ⟨i + 10, .upiManual, 500, none, false, none, none⟩]⟩
  creditNotes :=
    [⟨1, ⟨1, "wrong", 1, 1, 25, 0, some .upiManual, 10, []⟩⟩,
      ⟨1, ⟨2, "burnt", 1, 1, 70, 0, none, 20, []⟩⟩, ⟨2, ⟨3, "cold", 1, 1, 50, 0, none, 20, []⟩⟩,
      ⟨1, ⟨4, "late", 1, 1, 60, 0, none, 30, []⟩⟩]

theorem sampleBooks_sound : sampleBooks.Sound where
  ids := by decide
  totals := by decide
  tenders billId t ht := by
    simp only [sampleBooks, List.mem_cons, List.not_mem_nil, or_false] at ht
    rcases ht with rfl | rfl
    · dsimp only
      split <;> decide
    · exact Int.natCast_nonneg 500

theorem cash_refunds_are_shares_sample :
    computeCashRefundsMinor sampleBooks 1 30 = 30 ∧ computeCashRefundsMinor sampleBooks 1 20 = 140 ∧
      ((sampleBooks.creditNotes.filter fun n =>
        n.originalBillId = 1 ∧ n.note.method = none).map sampleBooks.share).sum ≤ 100 ∧
      computeCashRefundsMinor sampleBooks 1 20 = computeCashRefundsMinor sampleBooks 1 30 +
        (((sampleBooks.inShift 1 20).filter (·.note.createdAt < 30)).map sampleBooks.share).sum := by
  obtain ⟨-, -, -, hbound, hmoved⟩ := cash_refunds_are_shares sampleBooks_sound
  refine ⟨?_, ?_, hbound 1, hmoved 1 20 30 (by decide)⟩
  · unfold computeCashRefundsMinor
    dsimp only
    rw [List.mergeSort_of_pairwise (by decide +kernel)]
    decide +kernel
  · unfold computeCashRefundsMinor
    dsimp only
    rw [List.mergeSort_of_pairwise (by decide +kernel)]
    decide +kernel

/-! ### The drawer counts the same -/

/-- The bills and the notes of the outlet of a drawer. -/
def books (d : Drawer) : Books where
  bill i := ⟨0, (d.outlet.orders i).pricesIncludeTax, (d.outlet.orders i).tenders⟩
  creditNotes := d.orderIds.flatMap fun i => (d.outlet.orders i).creditNotes.map (NoteRow.mk i)

variable {d : Drawer}

theorem notesOf_books (h : (books d).Sound) (hids : d.orderIds.Nodup) {i : ℕ} (hi : i ∈ d.orderIds) :
    (books d).notesOf i =
      ((d.outlet.orders i).creditNotes.mergeSort CreditNote.before).map (NoteRow.mk i) := by
  have hown : ∀ ids : List ℕ, ids.Nodup →
      (ids.flatMap fun j => (d.outlet.orders j).creditNotes.map (NoteRow.mk j)).filter
        (·.originalBillId = i) =
      if i ∈ ids then (d.outlet.orders i).creditNotes.map (NoteRow.mk i) else [] := by
    intro ids hnodup
    induction ids with
    | nil => rfl
    | cons j ids ih =>
        obtain ⟨hnot, hnodup⟩ := List.nodup_cons.mp hnodup
        rw [List.flatMap_cons, List.filter_append, ih hnodup, List.filter_map]
        by_cases hj : i = j
        · subst hj
          rw [if_neg hnot, if_pos List.mem_cons_self, List.append_nil, List.filter_eq_self.mpr]
          exact fun _ _ => decide_eq_true rfl
        · have hnone : (d.outlet.orders j).creditNotes.filter
              ((fun n => decide (n.originalBillId = i)) ∘ NoteRow.mk j) = [] :=
            List.filter_eq_nil_iff.mpr fun _ _ => by simp [Ne.symm hj]
          rw [hnone, List.map_nil, List.nil_append]
          simp only [List.mem_cons, hj, false_or]
  have hsame : ∀ a ∈ (d.outlet.orders i).creditNotes, ∀ b ∈ (d.outlet.orders i).creditNotes,
      a.before b = (NoteRow.mk i a).before (NoteRow.mk i b) := fun _ _ _ _ => rfl
  rw [Books.notesOf, ← h.filter_inOrder, books, hown _ hids, if_pos hi]
  exact (List.map_mergeSort hsame).symm

/-- The replay of one order's notes, as the drawer keeps it. -/
theorem rowsMinor_drawerRefunds (h : b.Sound) (i : ℕ) (time : ℤ) (rest : List CreditNote) :
    ∀ done, b.notesOf i = done ++ rest.map (NoteRow.mk i) →
      rowsMinor (since time (drawerRefunds (b.bill i).pricesIncludeTax i
        (max 0 (b.cash i - b.taken done)) rest)) =
      (((rest.map (NoteRow.mk i)).filter (time ≤ ·.note.createdAt)).map b.share).sum := by
  induction rest with
  | nil => exact fun _ _ => rfl
  | cons note rest ih =>
      intro done hsplit
      rw [List.map_cons] at hsplit
      have hshare : b.share ⟨i, note⟩ = b.shareAfter (b.taken done) ⟨i, note⟩ := by
        rw [Books.share, h.earlier_prefix hsplit]
      have hn : (⟨i, note⟩ : NoteRow) ∈ b.creditNotes :=
        (mem_notesOf.mp (hsplit ▸ List.mem_append_right _ List.mem_cons_self)).1
      have hnonneg := h.share_nonneg hn
      have hcash : note.cashMinor (b.bill i).pricesIncludeTax (max 0 (b.cash i - b.taken done)) =
          b.share ⟨i, note⟩ := by
        rw [hshare, Books.shareAfter, CreditNote.cashMinor]
        cases note.method with
        | none => rfl
        | some method => cases method <;> rfl
      have hleft : (if b.share ⟨i, note⟩ < max 0 (b.cash i - b.taken done) then
          max 0 (b.cash i - b.taken done) - b.share ⟨i, note⟩ else 0) =
          max 0 (b.cash i - b.taken (done ++ [⟨i, note⟩])) := by
        rw [taken_snoc, ← hshare]
        split_ifs <;> omega
      have hrest := ih (done ++ [⟨i, note⟩]) (by rw [hsplit, List.append_assoc]; rfl)
      rw [drawerRefunds, hcash, hleft, List.map_cons, List.filter_cons]
      by_cases hmethod : note.method.all (· = .cash) = true
      · rw [if_pos hmethod, since, List.filter_cons]
        by_cases htime : time ≤ note.createdAt
        · simp only [htime, decide_true, if_true]
          rw [rowsMinor, List.map_cons, List.sum_cons, List.map_cons, List.sum_cons, ← hrest]
          rfl
        · simp only [htime, decide_false, Bool.false_eq_true, if_false]
          exact hrest
      · -- the money went back otherwise
        have hnone : b.share ⟨i, note⟩ = 0 := by
          rw [hshare, Books.shareAfter]
          cases hm : note.method with
          | none => rw [hm] at hmethod; exact absurd rfl hmethod
          | some method =>
              rw [hm] at hmethod
              cases method with
              | cash => exact absurd rfl hmethod
              | _ => rfl
        rw [if_neg hmethod, hrest]
        split_ifs
        · rw [List.map_cons, List.sum_cons, hnone, zero_add]
        · rfl

/-- What the drawer's closing sums up is the shares of the shift's notes. -/
theorem rowsMinor_cashRefunds (h : (books d).Sound) (hids : d.orderIds.Nodup) (time : ℤ) :
    rowsMinor (d.cashRefunds time (d.refundedOrders time)) =
      computeCashRefundsMinor (books d) 0 time := by
  have horder : ∀ i ∈ d.orderIds, rowsMinor (since time ((d.outlet.orders i).cashRefunds i)) =
      ((((d.outlet.orders i).creditNotes.map (NoteRow.mk i)).filter
        (time ≤ ·.note.createdAt)).map (books d).share).sum := by
    intro i hi
    have hnotes := notesOf_books h hids hi
    have hreplay := rowsMinor_drawerRefunds h i time _ [] hnotes
    have hcash : max 0 ((books d).cash i - (books d).taken []) = cashMinorOf (d.outlet.orders i).tenders := by
      change max 0 ((books d).cash i - 0) = _
      rw [sub_zero, max_eq_right (h.cash_nonneg i)]
      rfl
    rw [hcash] at hreplay
    refine hreplay.trans ?_
    exact ((((List.mergeSort_perm _ _).map (NoteRow.mk i)).filter _).map (books d).share).sum_eq
  have hsum : ∀ ids : List ℕ, (∀ i ∈ ids, i ∈ d.orderIds) →
      rowsMinor (since time ((ids.filter fun i =>
        (d.outlet.orders i).creditNotes.any (time ≤ ·.createdAt)).flatMap fun i =>
          (d.outlet.orders i).cashRefunds i)) =
      (((ids.flatMap fun i => (d.outlet.orders i).creditNotes.map (NoteRow.mk i)).filter
        (time ≤ ·.note.createdAt)).map (books d).share).sum := by
    intro ids hmem
    induction ids with
    | nil => rfl
    | cons i ids ih =>
        have hrest := ih fun j hj => hmem j (List.mem_cons_of_mem _ hj)
        rw [List.flatMap_cons, List.filter_append, List.map_append, List.sum_append, ← hrest,
          List.filter_cons, ← horder i (hmem i List.mem_cons_self)]
        split
        · rw [List.flatMap_cons, since, List.filter_append, rowsMinor, List.map_append,
            List.sum_append]
          rfl
        next hnone =>
          have hzero : rowsMinor (since time ((d.outlet.orders i).cashRefunds i)) = 0 := by
            rw [horder i (hmem i List.mem_cons_self), List.filter_eq_nil_iff.mpr]
            · rfl
            · intro n hn hsince
              obtain ⟨note, hnote, rfl⟩ := List.mem_map.mp hn
              exact hnone (List.any_eq_true.mpr ⟨note, hnote, hsince⟩)
          rw [hzero, zero_add]
  rw [h.compute_eq, Drawer.cashRefunds, Drawer.refundedOrders, hsum _ fun _ hi => hi]
  congr 2
  exact List.filter_congr fun n _ => decide_eq_decide.mpr (by simp [books])

end RestiqBackend.CashShares
