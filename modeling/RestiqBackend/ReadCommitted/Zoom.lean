import RestiqBackend.ReadCommitted.Rely

/-!
Transactions of a part, run in the whole.

A program is written for the rows it is about. Where those rows are a part of a larger
store, with other rows beside them and some rows shared, the same program runs there
through a `Zoom`: it says how the part is seen, and which lock and which write of the
whole stand for a lock and a write of the part. The law is that a write made through the
zoom is seen through it as the write it was.
-/

namespace ReadCommitted

/-- How a store `σ` is seen inside a larger one. -/
structure Zoom (σ κ ρ ω σ' κ' ρ' ω' : Type) [WriteTo ω σ] [WriteTo ω' σ'] where
  view : σ' → σ
  lock : κ → κ'
  read : ρ → ρ'
  write : ω → ω'
  view_apply : ∀ w s, view (WriteTo.apply (write w) s) = WriteTo.apply w (view s)

variable {σ κ ρ ω σ' κ' ρ' ω' ε α β : Type} [WriteTo ω σ] [WriteTo ω' σ']

namespace Zoom

variable (z : Zoom σ κ ρ ω σ' κ' ρ' ω')

theorem view_applyAll (ws : List ω) (s : σ') :
    z.view (applyAll (ws.map z.write) s) = applyAll ws (z.view s) := by
  induction ws generalizing s with
  | nil => rfl
  | cons w ws ih => rw [List.map_cons, applyAll_cons, ih, z.view_apply, applyAll_cons]

/-- A footprint of the part, as it is in the whole. -/
def footprint (l : Footprint κ ρ ω) : Footprint κ' ρ' ω' :=
  ⟨l.locks.map z.lock, l.reads.map z.read, l.writes.map z.write⟩

@[simp] theorem footprint_empty : z.footprint .empty = .empty := rfl

@[simp] theorem footprint_writes (l : Footprint κ ρ ω) :
    (z.footprint l).writes = l.writes.map z.write := rfl

@[simp] theorem footprint_locks (l : Footprint κ ρ ω) :
    (z.footprint l).locks = l.locks.map z.lock := rfl

theorem footprint_add (l l' : Footprint κ ρ ω) :
    z.footprint (l.add l') = (z.footprint l).add (z.footprint l') := by
  simp [footprint, Footprint.add]

end Zoom

namespace Txn

variable (z : Zoom σ κ ρ ω σ' κ' ρ' ω')

/-- The program of a part, statement by statement, in the whole. -/
def zoom : Txn σ κ ρ ω ε α → Txn σ' κ' ρ' ω' ε α
  | .done a => .done a
  | .fail e => .fail e
  | .stmt f k => .stmt
      (fun env v => { toFootprint := z.footprint (f env (z.view v)).toFootprint
                      ret := (f env (z.view v)).ret })
      fun b => (k b).zoom

/-- What is known of a program's statements and of its whole footprint carries over to the
program in the whole, with an assertion over the part's own footprint. -/
theorem zoom_wp {D : Discipline σ' κ' ρ' ω'} {N : σ → Footprint κ ρ ω → Prop}
    {Q : α → Footprint κ ρ ω → Prop} {P : Footprint κ ρ ω → σ' → Prop} {p : Txn σ κ ρ ω ε α}
    (hsends : p.Sends N)
    (hP : ∀ l s s', D.Rely (z.footprint l) s s' → P l s → P l s')
    (hadd : ∀ l l' s, N (applyAll l.writes (z.view s)) l' →
      D.admits (z.footprint l) s (z.footprint l') → P l s → P (l.add l') s)
    {l : Footprint κ ρ ω} {s : σ'} (hleaves : p.Leaves Q l) (h : P l s) :
    (p.zoom z).wp D (fun a l' s => ∃ l₀, l' = z.footprint l₀ ∧ P l₀ s ∧ Q a l₀)
      (z.footprint l) s := by
  induction p generalizing l s with
  | done a => exact fun s' hrely => ⟨l, rfl, hP l s s' hrely h, hleaves⟩
  | fail e => trivial
  | stmt f k ih =>
      intro s' hrely env hadm
      have hview : z.view (applyAll (z.footprint l).writes s') = applyAll l.writes (z.view s') :=
        z.view_applyAll l.writes s'
      simp only [hview] at hadm ⊢
      rw [← z.footprint_add]
      exact ih _ (hsends.2 _) (hleaves env _)
        (hadd _ _ _ (hsends.1 env _) hadm (hP l s s' hrely h))

/-- What the part's own discipline promises of a program carries over to the whole, if the others
there keep that discipline where the part sees them. -/
theorem zoom_wp_view {D : Discipline σ κ ρ ω} {D' : Discipline σ' κ' ρ' ω'}
    (hrely : ∀ l s s', D'.Rely (z.footprint l) s s' → D.Rely l (z.view s) (z.view s'))
    (hadmits : ∀ l l' s, D'.admits (z.footprint l) s (z.footprint l') →
      D.admits l (z.view s) l')
    {p : Txn σ κ ρ ω ε α} {Q : α → Footprint κ ρ ω → σ → Prop} {l : Footprint κ ρ ω} {s : σ'}
    (h : p.wp D Q l (z.view s)) :
    (p.zoom z).wp D' (fun a l' s => ∃ l₀, l' = z.footprint l₀ ∧ Q a l₀ (z.view s))
      (z.footprint l) s := by
  induction p generalizing l s with
  | done a => exact fun s' hr => ⟨l, rfl, h _ (hrely l s s' hr)⟩
  | fail e => trivial
  | stmt f k ih =>
      intro s' hr env hadm
      have hview : z.view (applyAll (z.footprint l).writes s') = applyAll l.writes (z.view s') :=
        z.view_applyAll l.writes s'
      simp only [hview] at hadm ⊢
      rw [← z.footprint_add]
      exact ih _ (h _ (hrely l s s' hr) env (hadmits l _ s' hadm))

end Txn

end ReadCommitted
