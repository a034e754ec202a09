import RestiqBackend.ReadCommitted.Rely

/-!
One transaction followed through a run.

`Discipline.sound` says of every transaction what all of them make sure of. A result about one
transaction may know more of its run: that until it ends the others commit only moves of a kind.
`Discipline.knowing` adds that to what the transaction relies on, and `Follows.run` carries its
proof through such a run, while the others are held to the discipline as it was. Programs are
asked to keep the discipline from the store they are begun in, not from every store.
-/

namespace ReadCommitted

variable {σ κ ρ ω ε : Type}

namespace Discipline

variable (D : Discipline σ κ ρ ω) {R : σ → σ → Prop} (hrefl : ∀ s, R s s)
  (htrans : ∀ s s' s'', R s s' → R s' s'' → R s s'')

/-- The discipline, where the commits of others are known to be moves in `R` besides. -/
def knowing : Discipline σ κ ρ ω :=
  { D with
    guar := fun s s' => D.guar s s' ∧ R s s'
    guar_refl := fun s => ⟨D.guar_refl s, hrefl s⟩
    guar_trans := fun s s' s'' h h' =>
      ⟨D.guar_trans s s' s'' h.1 h'.1, htrans s s' s'' h.2 h'.2⟩ }

variable {D hrefl htrans}

theorem Rely.of_knowing {l : Footprint κ ρ ω} {s s' : σ} (h : (D.knowing hrefl htrans).Rely l s s') :
    D.Rely l s s' :=
  ⟨h.inv, h.guar.1, h.keeps, h.heeds⟩

theorem Rely.knowing {l : Footprint κ ρ ω} {s s' : σ} (h : D.Rely l s s') (hR : R s s') :
    (D.knowing hrefl htrans).Rely l s s' :=
  ⟨h.inv, ⟨h.guar, hR⟩, h.keeps, h.heeds⟩

theorem Holds.enter [WriteTo ω σ] {S : System σ κ ρ ω ε} (hS : D.Holds S)
    {p : Txn σ κ ρ ω ε Unit} (hp : p.wp D (fun _ => D.Commits) .empty S.store) :
    D.Holds (S.enter p) := by
  refine ⟨hS.inv, fun t x hx => ?_, fun t t' x x' htt hx hx' k hk => ?_⟩
  · rw [System.session_enter] at hx
    split at hx
    · cases hx
      exact hp
    · exact hS.sessions t x hx
  · rw [System.session_enter] at hx hx'
    split at hx
    · cases hx
      simp at hk
    · split at hx'
      · cases hx'
        simp
      · exact hS.locks t t' x x' htt hx hx' k hk

variable [DecidableEq κ] [WriteTo ω σ]

/-- One event, where a program that is begun keeps the discipline from where it is begun. -/
theorem Holds.next {S S' : System σ κ ρ ω ε} {e : Event σ κ ρ ω ε} (hS : D.Holds S)
    (hbegin : ∀ p, e = .begin p → p.wp D (fun _ => D.Commits) .empty S.store)
    (hresp : D.Respects S e) (hstep : S.step e = some S') : D.Holds S' := by
  cases e with
  | begin p =>
      rw [← Option.some.inj (hstep : some (S.enter p) = some S')]
      exact hS.enter (hbegin p rfl)
  | _ => exact (hS.step (P := fun _ => False) (fun _ h => h.elim) (fun _ hp => by cases hp) hresp hstep).1

end Discipline

/-! ### The one and the others -/

section Follow

variable [DecidableEq κ] [WriteTo ω σ] {D : Discipline σ κ ρ ω} {R : σ → σ → Prop}
  {hrefl : ∀ s, R s s} {htrans : ∀ s s' s'', R s s' → R s' s'' → R s s''}

/-- What the transactions other than `t` commit is a move in `R`. -/
def OthersDo (R : σ → σ → Prop) (t : ℕ) (S : System σ κ ρ ω ε) : Event σ κ ρ ω ε → Prop
  | .commit t' => t' ≠ t → ∀ x, S.session t' = some x →
      R S.store (applyAll x.done.writes S.store)
  | _ => True

/-- The transaction `t` is on its way to `Q`, or has ended, among others that keep the
discipline. -/
structure Follows (D : Discipline σ κ ρ ω) {R : σ → σ → Prop} (hrefl : ∀ s, R s s)
    (htrans : ∀ s s' s'', R s s' → R s' s'' → R s s'') (Q : Footprint κ ρ ω → σ → Prop) (t : ℕ)
    (S : System σ κ ρ ω ε) : Prop where
  holds : D.Holds S
  begun : t < S.sessions.length
  wp : ∀ x, S.session t = some x →
    x.prog.wp (D.knowing hrefl htrans) (fun _ => Q) x.done S.store

variable {Q : Footprint κ ρ ω → σ → Prop} {t : ℕ} {S S' : System σ κ ρ ω ε}

omit [DecidableEq κ] in
theorem Follows.of_begin (hS : D.Holds S) {p : Txn σ κ ρ ω ε Unit}
    (hD : p.wp D (fun _ => D.Commits) .empty S.store)
    (hp : p.wp (D.knowing hrefl htrans) (fun _ => Q) .empty S.store) :
    Follows D hrefl htrans Q S.sessions.length (S.enter p) := by
  refine ⟨hS.enter hD, by simp [System.enter], fun x hx => ?_⟩
  rw [System.session_enter, if_pos rfl] at hx
  cases hx
  exact hp

theorem Follows.step {e : Event σ κ ρ ω ε} (h : Follows D hrefl htrans Q t S)
    (hbegin : ∀ p, e = .begin p → p.wp D (fun _ => D.Commits) .empty S.store)
    (hresp : D.Respects S e) (hothers : OthersDo R t S e) (hstep : S.step e = some S') :
    Follows D hrefl htrans Q t S' := by
  refine ⟨h.holds.next hbegin hresp hstep, ?_, ?_⟩
  · obtain ⟨p, rfl, rfl⟩ | ⟨_, _, _, _, _, _, _, _, _, rfl⟩ | ⟨_, _, _, _, _, rfl⟩ |
      ⟨_, _, _, _, rfl⟩ := System.step_cases hstep
    · have := h.begun
      simp only [System.enter, List.length_append, List.length_singleton]
      omega
    all_goals simpa [System.put] using h.begun
  intro x hx
  obtain ⟨p, rfl, rfl⟩ | ⟨t', env, x', y, l, rfl, hx', hnext, -, rfl⟩ |
    ⟨t', u, l, rfl, hx', rfl⟩ | ⟨t', x', rfl, hx', rfl⟩ := System.step_cases hstep
  · rw [System.session_enter, if_neg (Nat.ne_of_lt h.begun)] at hx
    exact h.wp x hx
  · rw [System.session_put hx'] at hx
    split at hx
    · -- Its own statement.
      rename_i htt
      cases hx
      subst htt
      have hwp := h.wp x' hx'
      have hadm := hresp x' l x hx' hnext
      obtain ⟨prog, done⟩ := x'
      cases prog with
      | done a => simp [System.next, hx'] at hnext
      | fail a => simp [System.next, hx'] at hnext
      | stmt f k =>
          simp only [System.next, hx', Option.some.injEq, Prod.mk.injEq] at hnext
          obtain ⟨rfl, rfl⟩ := hnext
          exact hwp S.store (.refl _ _) env hadm
    · exact h.wp x hx
  · change (S.put t' none).session t = some x at hx
    rw [System.session_put hx'] at hx
    split at hx
    · cases hx
    · -- Another commits: it keeps the discipline, and is known to do no more than `R`.
      rename_i htt
      obtain ⟨hlands, hheeds⟩ := hresp _ hx'
      have hcommit : D.Keeps l S.store := h.holds.sessions t' _ hx' S.store (.refl _ _) hlands
      refine Txn.wp_rely (h.wp x hx) (Discipline.Rely.knowing ⟨fun _ => hcommit.inv,
        hcommit.guar, fun k hk => hcommit.keeps k (h.holds.locks t t' x _ htt hx hx' k hk),
        fun r hr => hheeds t x htt hx r hr⟩ ?_)
      exact hothers (Ne.symm htt) _ hx'
  · change (S.put t' none).session t = some x at hx
    rw [System.session_put hx'] at hx
    split at hx
    · cases hx
    · exact h.wp x hx

/-- **Following.** Through a run in which the others do no more than `R`, the transaction stays
on its way, and where it has returned it is in `Q`. -/
theorem Follows.run {P : Txn σ κ ρ ω ε Unit → Prop}
    {C : System σ κ ρ ω ε → Event σ κ ρ ω ε → Prop} {es : List (Event σ κ ρ ω ε)}
    (h : Follows D hrefl htrans Q t S) (hrun : Run P C S es S')
    (hC : ∀ S e, D.Holds S → (∀ p, e = .begin p → P p) → C S e →
      (∀ p, e = .begin p → p.wp D (fun _ => D.Commits) .empty S.store) ∧ D.Respects S e ∧
        OthersDo R t S e) :
    Follows D hrefl htrans Q t S' := by
  induction hrun with
  | nil => exact h
  | snoc e _ hP hCe hstep ih =>
      obtain ⟨hbegin, hresp, hothers⟩ := hC _ _ ih.holds hP hCe
      exact ih.step hbegin hresp hothers hstep

omit [DecidableEq κ] in
theorem Follows.done {u : Unit} {l : Footprint κ ρ ω} (h : Follows D hrefl htrans Q t S)
    (hx : S.session t = some ⟨.done u, l⟩) : Q l S.store :=
  h.wp _ hx S.store (.refl _ _)

/-- Locks are kept to the end of a transaction. -/
theorem System.locks_grow {S S' : System σ κ ρ ω ε} {e : Event σ κ ρ ω ε}
    (hstep : S.step e = some S') {t : ℕ} (ht : t < S.sessions.length) {y : Session σ κ ρ ω ε}
    (hy : S'.session t = some y) :
    ∃ x, S.session t = some x ∧ ∀ k ∈ x.done.locks, k ∈ y.done.locks := by
  have hsame : S.session t = some y → ∃ x, S.session t = some x ∧
      ∀ k ∈ x.done.locks, k ∈ y.done.locks := fun h => ⟨y, h, fun _ hk => hk⟩
  obtain ⟨p, rfl, rfl⟩ | ⟨t', env, x, y', l, rfl, hx, hnext, -, rfl⟩ |
    ⟨t', u, l, rfl, hx, rfl⟩ | ⟨t', x, rfl, hx, rfl⟩ := System.step_cases hstep
  · rw [System.session_enter, if_neg (Nat.ne_of_lt ht)] at hy
    exact hsame hy
  · rw [System.session_put hx] at hy
    split at hy
    · rename_i htt
      cases hy
      subst htt
      obtain ⟨prog, done⟩ := x
      refine ⟨_, hx, fun k hk => ?_⟩
      cases prog with
      | done a => simp [System.next, hx] at hnext
      | fail a => simp [System.next, hx] at hnext
      | stmt f g =>
          simp only [System.next, hx, Option.some.injEq, Prod.mk.injEq] at hnext
          obtain ⟨rfl, rfl⟩ := hnext
          exact List.mem_append_left _ hk
    · exact hsame hy
  · change (S.put t' none).session t = some y at hy
    rw [System.session_put hx] at hy
    split at hy
    · cases hy
    · exact hsame hy
  · change (S.put t' none).session t = some y at hy
    rw [System.session_put hx] at hy
    split at hy
    · cases hy
    · exact hsame hy

theorem System.step_begun {S S' : System σ κ ρ ω ε} {e : Event σ κ ρ ω ε}
    (hstep : S.step e = some S') : S.sessions.length ≤ S'.sessions.length := by
  obtain ⟨p, rfl, rfl⟩ | ⟨_, _, _, _, _, _, _, _, _, rfl⟩ | ⟨_, _, _, _, _, rfl⟩ |
    ⟨_, _, _, _, rfl⟩ := System.step_cases hstep
  · simp [System.enter]
  all_goals simp [System.put]

theorem Run.begun {P : Txn σ κ ρ ω ε Unit → Prop}
    {C : System σ κ ρ ω ε → Event σ κ ρ ω ε → Prop} {S S' : System σ κ ρ ω ε}
    {es : List (Event σ κ ρ ω ε)} (h : Run P C S es S') :
    S.sessions.length ≤ S'.sessions.length := by
  induction h with
  | nil => exact Nat.le_refl _
  | snoc e _ _ _ hstep ih => exact Nat.le_trans ih (System.step_begun hstep)

/-- A transaction that does not hold a lock in the end never held it. -/
theorem Run.unheld {P : Txn σ κ ρ ω ε Unit → Prop}
    {C : System σ κ ρ ω ε → Event σ κ ρ ω ε → Prop} {S S' : System σ κ ρ ω ε}
    {es : List (Event σ κ ρ ω ε)} (h : Run P C S es S') {t : ℕ} {k : κ}
    (ht : t < S.sessions.length) {y : Session σ κ ρ ω ε} (hy : S'.session t = some y)
    (hk : k ∉ y.done.locks) :
    Run P (fun S e => C S e ∧ ∀ x, S.session t = some x → k ∉ x.done.locks) S es S' := by
  induction h generalizing y with
  | nil => exact .nil
  | snoc e h hP hC hstep ih =>
      obtain ⟨x, hx, hlocks⟩ := System.locks_grow hstep (Nat.lt_of_lt_of_le ht h.begun) hy
      have hunheld : k ∉ x.done.locks := fun hin => hk (hlocks k hin)
      refine .snoc e (ih hx hunheld) hP ⟨hC, fun x' hx' => ?_⟩ hstep
      rw [hx] at hx'
      cases hx'
      exact hunheld

end Follow

/-- The footprint of a transaction that has only its commit left. -/
def System.ended (S : System σ κ ρ ω ε) (t : ℕ) : Option (Footprint κ ρ ω) :=
  match S.session t with
  | some ⟨.done _, l⟩ => some l
  | _ => none

theorem System.session_of_ended {S : System σ κ ρ ω ε} {t : ℕ} {l : Footprint κ ρ ω}
    (h : S.ended t = some l) : S.session t = some ⟨.done (), l⟩ := by
  unfold System.ended at h
  split at h
  · rename_i hx
    rw [hx, Option.some.inj h]
  · cases h

end ReadCommitted
