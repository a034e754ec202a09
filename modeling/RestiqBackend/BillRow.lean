import RestiqBackend.Parts

/-!
What interleaved requests do to the row of a finalized bill.

Every writer of the row holds its lock from the write on, opens it only where there is
none and settles it only where it is open. The one writer that does not look at the
row it writes is the refresh of the totals: it decides on the bill it was handed. An
`UPDATE` that is sent while a finalize holds the row waits for its lock, and is carried
out on what the finalize committed. So a finalized bill changes exactly when such an
`UPDATE` is carried out on it, and no run in which that does not happen ever changes one.
-/

namespace RestiqBackend

open ReadCommitted

/-- The statement of a refresh: it writes the totals of the bill. -/
def Write.refreshesTotals : Write → Bool
  | .updateBillTotals .. => true
  | _ => false

/-- What a statement that writes the bill's row is known to do: it takes the lock, and
where it is not a refresh it sees no finalized bill. -/
def GuardsBill (v : Store) (l : TxFootprint) : Prop :=
  ∀ w ∈ l.writes, w.table = .bills →
    Key.bill ∈ l.locks ∧ (w.refreshesTotals = true ∨ v.billIs .finalized = false)

/-- The bill's row belongs to who holds its lock, and a refresh is only carried out while
the committed bill is not finalized. -/
def billRowDiscipline : Discipline Store Key Read Write where
  inv _ := True
  guar s s' := s.billIs .finalized = true → s'.bill = s.bill
  keeps k s s' := k = .bill → s'.bill = s.bill
  heeds _ _ _ := True
  admits _ s l := (∃ w ∈ l.writes, w.refreshesTotals = true) → s.billIs .finalized = false
  lands _ _ := True
  ends _ _ := True
  guar_refl _ _ := rfl
  guar_trans s s' s'' h h' hs := by
    have h₁ := h hs
    have : s'.billIs .finalized = true := by rwa [Store.billIs, h₁]
    rw [h' this, h₁]
  keeps_refl _ _ _ := rfl
  keeps_trans _ _ _ _ h h' hk := (h' hk).trans (h hk)
  heeds_refl _ _ := trivial
  heeds_trans _ _ _ _ _ _ := trivial

/-- A footprint that wrote the bill's row holds its lock on a bill that is not
finalized. -/
def OwnsBill (l : TxFootprint) (s : Store) : Prop :=
  ∀ w ∈ l.writes, w.table = .bills → Key.bill ∈ l.locks ∧ s.billIs .finalized = false

/-- A footprint that does not own the bill's row leaves it alone. -/
theorem OwnsBill.bill_eq {l : TxFootprint} {s : Store} (h : OwnsBill l s)
    (hnot : Key.bill ∉ l.locks ∨ s.billIs .finalized = true) :
    (applyAll l.writes s).bill = s.bill := by
  have hwrites : ∀ w ∈ l.writes, w.table ≠ .bills := fun w hw htable => by
    obtain ⟨hlock, hopen⟩ := h w hw htable
    rcases hnot with hnot | hfin
    · exact hnot hlock
    · rw [hopen] at hfin
      exact Bool.false_ne_true hfin
  exact applyAll_frame Store.bill
    (fun w hw v => w.frame v .bills (by simpa using (hwrites w hw).symm)) s

theorem OwnsBill.add {l l' : TxFootprint} {s : Store} (h : OwnsBill l s)
    (hguard : GuardsBill (applyAll l.writes s) l') (hadm : billRowDiscipline.admits l s l') :
    OwnsBill (l.add l') s := by
  intro w hw htable
  rcases List.mem_append.mp hw with hw | hw
  · exact (h w hw htable).imp_left (List.mem_append_left _)
  · obtain ⟨hlock, hsaw⟩ := hguard w hw htable
    refine ⟨List.mem_append_right _ hlock, ?_⟩
    rcases hsaw with hrefresh | hview
    · exact hadm ⟨w, hw, hrefresh⟩
    · -- Had the committed bill been finalized, the statement would have seen it so.
      by_contra hfin
      rw [Bool.not_eq_false] at hfin
      rw [Store.billIs, h.bill_eq (.inr hfin), ← Store.billIs, hfin] at hview
      exact Bool.false_ne_true hview.symm

/-- A transaction that some request starts. -/
def IsRequest (p : Tx Unit) : Prop := ∃ op : Op, p = op.prog

/-- Settling the sample bill in cash. -/
def settleSample : Op := settleWith [cashTender 24046 one_le_sampleTotal]

end RestiqBackend
