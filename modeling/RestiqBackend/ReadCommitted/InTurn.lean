import RestiqBackend.ReadCommitted.Follow

/-!
Runs that come to the same as their requests one after another.

Where a program, whatever is committed between its statements, ends in a footprint that does to
the store what its request would do alone at the moment of the commit, a run comes to the same as
the requests that were committed, in the order of their commits. The requests that were rolled
back or are still in flight have done nothing.
-/

namespace ReadCommitted

variable {σ κ ρ ω ε γ : Type}

/-- The requests one after another, each alone. -/
inductive InTurn (act : γ → σ → σ → Prop) (s : σ) : List γ → σ → Prop
  | nil : InTurn act s [] s
  | snoc {cs : List γ} {s' s'' : σ} (c : γ) : InTurn act s cs s' → act c s' s'' →
      InTurn act s (cs ++ [c]) s''

theorem InTurn.preserves {act : γ → σ → σ → Prop} {I : σ → Prop}
    (hI : ∀ c s s', act c s s' → I s → I s') {s s' : σ} {cs : List γ} (h : InTurn act s cs s')
    (hs : I s) : I s' := by
  induction h with
  | nil => exact hs
  | snoc c _ hact ih => exact hI c _ _ hact ih

/-! ### What was begun and what was committed -/

/-- The programs that were begun, in turn: the position of one is its transaction. -/
def begun (es : List (Event σ κ ρ ω ε)) : List (Txn σ κ ρ ω ε Unit) :=
  es.filterMap fun
    | .begin p => some p
    | _ => none

/-- The transactions in the order of their commits. -/
def committed (es : List (Event σ κ ρ ω ε)) : List ℕ :=
  es.filterMap fun
    | .commit t => some t
    | _ => none

@[simp] theorem begun_begin (es : List (Event σ κ ρ ω ε)) (p : Txn σ κ ρ ω ε Unit) :
    begun (es ++ [.begin p]) = begun es ++ [p] := by simp [begun]

@[simp] theorem begun_stmt (es : List (Event σ κ ρ ω ε)) (t : ℕ) (env : Env) :
    begun (es ++ [.stmt t env]) = begun es := by simp [begun]

@[simp] theorem begun_commit (es : List (Event σ κ ρ ω ε)) (t : ℕ) :
    begun (es ++ [.commit t]) = begun es := by simp [begun]

@[simp] theorem begun_rollback (es : List (Event σ κ ρ ω ε)) (t : ℕ) :
    begun (es ++ [.rollback t]) = begun es := by simp [begun]

@[simp] theorem committed_begin (es : List (Event σ κ ρ ω ε)) (p : Txn σ κ ρ ω ε Unit) :
    committed (es ++ [.begin p]) = committed es := by simp [committed]

@[simp] theorem committed_stmt (es : List (Event σ κ ρ ω ε)) (t : ℕ) (env : Env) :
    committed (es ++ [.stmt t env]) = committed es := by simp [committed]

@[simp] theorem committed_commit (es : List (Event σ κ ρ ω ε)) (t : ℕ) :
    committed (es ++ [.commit t]) = committed es ++ [t] := by simp [committed]

@[simp] theorem committed_rollback (es : List (Event σ κ ρ ω ε)) (t : ℕ) :
    committed (es ++ [.rollback t]) = committed es := by simp [committed]

/-- The requests `cs` are those that were committed, in turn. -/
def Committed (prog : γ → Txn σ κ ρ ω ε Unit) (es : List (Event σ κ ρ ω ε)) (cs : List γ) : Prop :=
  cs.map (fun c => some (prog c)) = (committed es).map fun t => (begun es)[t]?

/-! ### A run and its requests -/

variable [WriteTo ω σ] {D : Discipline σ κ ρ ω} {prog : γ → Txn σ κ ρ ω ε Unit}
  {act : γ → σ → σ → Prop}

/-- What a transaction for the request `c` is on its way to: a commit that keeps the discipline
and does what the request does alone. -/
def Does (D : Discipline σ κ ρ ω) (act : γ → σ → σ → Prop) (c : γ) (l : Footprint κ ρ ω) (s : σ) :
    Prop :=
  D.Commits l s ∧ (D.lands l s → act c s (applyAll l.writes s))

def anything : σ → σ → Prop := fun _ _ => True

theorem anything_refl (s : σ) : anything s s := trivial

theorem anything_trans (s s' s'' : σ) (_ : anything s s') (_ : anything s' s'') : anything s s'' :=
  trivial

/-- Who knows more of the others can rely on as much. -/
theorem Txn.wp_knowing {α : Type} {R : σ → σ → Prop} {hrefl : ∀ s, R s s}
    {htrans : ∀ s s' s'', R s s' → R s' s'' → R s s''} {p : Txn σ κ ρ ω ε α}
    {Q : α → Footprint κ ρ ω → σ → Prop} {l : Footprint κ ρ ω} {s : σ} (h : p.wp D Q l s) :
    p.wp (D.knowing hrefl htrans) Q l s := by
  induction p generalizing l s with
  | done a => exact fun s' hr => h s' hr.of_knowing
  | fail e => trivial
  | stmt f k ih => exact fun s' hr env hadm => ih _ (h s' hr.of_knowing env hadm)

/-- The transactions of a run, each with its request. -/
structure Traces (D : Discipline σ κ ρ ω) (prog : γ → Txn σ κ ρ ω ε Unit) (act : γ → σ → σ → Prop)
    (s : σ) (es : List (Event σ κ ρ ω ε)) (S : System σ κ ρ ω ε) : Prop where
  holds : D.Holds S
  length : (begun es).length = S.sessions.length
  ended : ∀ t ∈ committed es, t < S.sessions.length
  follows : ∀ t < S.sessions.length, ∃ c, (begun es)[t]? = some (prog c) ∧
    Follows D anything_refl anything_trans (Does D act c) t S
  serial : ∃ cs, InTurn act s cs S.store ∧ Committed prog es cs

variable [DecidableEq κ] {s : σ} {es : List (Event σ κ ρ ω ε)} {S S' : System σ κ ρ ω ε}

theorem Traces.step {e : Event σ κ ρ ω ε} (h : Traces D prog act s es S)
    (hprog : ∀ c s, D.inv s → (prog c).wp D (fun _ => Does D act c) .empty s)
    (hP : ∀ p, e = .begin p → ∃ c, p = prog c) (hresp : D.Respects S e)
    (hstep : S.step e = some S') : Traces D prog act s (es ++ [e]) S' := by
  have hkeeps : ∀ c s, D.inv s → (prog c).wp D (fun _ => D.Commits) .empty s :=
    fun c s hs => Txn.wp_mono (hprog c s hs) fun _ _ _ hQ => hQ.1
  have hbegin : ∀ p, e = .begin p → p.wp D (fun _ => D.Commits) .empty S.store := by
    intro p hp
    obtain ⟨c, rfl⟩ := hP p hp
    exact hkeeps c _ h.holds.inv
  have hothers : ∀ t, OthersDo anything t S e := by
    intro t
    cases e with
    | commit t' => exact fun _ _ _ => trivial
    | _ => trivial
  have hfollows : ∀ t < S.sessions.length, ∃ c, (begun es)[t]? = some (prog c) ∧
      Follows D anything_refl anything_trans (Does D act c) t S' := by
    intro t ht
    obtain ⟨c, hc, hfollows⟩ := h.follows t ht
    exact ⟨c, hc, hfollows.step hbegin hresp (hothers t) hstep⟩
  have hholds : D.Holds S' := h.holds.next hbegin hresp hstep
  obtain ⟨cs, hserial, hcommitted⟩ := h.serial
  obtain ⟨p, rfl, rfl⟩ | ⟨t, env, x, y, l, rfl, hx, -, -, rfl⟩ | ⟨t, u, l, rfl, hx, rfl⟩ |
    ⟨t, x, rfl, hx, rfl⟩ := System.step_cases hstep
  · -- A program is begun: its request is the last, and it has done nothing yet.
    have hlen : (S.enter p).sessions.length = S.sessions.length + 1 := by simp [System.enter]
    refine ⟨hholds, by simp [h.length, hlen], ?_, ?_, cs, hserial, ?_⟩
    · intro t ht
      rw [committed_begin] at ht
      exact hlen ▸ Nat.lt_succ_of_lt (h.ended t ht)
    · intro t ht
      rw [begun_begin]
      rw [hlen] at ht
      rcases Nat.lt_succ_iff_lt_or_eq.mp ht with ht | rfl
      · rw [List.getElem?_append_left (h.length ▸ ht)]
        exact hfollows t ht
      · obtain ⟨c, hc⟩ := hP p rfl
        refine ⟨c, ?_, .of_begin h.holds (hbegin p rfl) ?_⟩
        · rw [← h.length, List.getElem?_concat_length, hc]
        · rw [hc]
          exact Txn.wp_knowing (hprog c _ h.holds.inv)
    · unfold Committed
      rw [begun_begin, committed_begin, hcommitted]
      refine List.map_congr_left fun t ht => ?_
      rw [List.getElem?_append_left (h.length ▸ h.ended t ht)]
  · have hlen : (S.put t (some y)).sessions.length = S.sessions.length := by simp [System.put]
    refine ⟨hholds, by simp [h.length, hlen], by simpa [hlen] using h.ended,
      by simpa [hlen] using hfollows, cs, hserial, ?_⟩
    simpa [Committed] using hcommitted
  · -- A commit: the store changes as by the request alone.
    have ht := System.session_lt hx
    obtain ⟨c, hc, hfollowed⟩ := h.follows t ht
    have hlen : (S.put t none).sessions.length = S.sessions.length := by simp [System.put]
    refine ⟨hholds, by simp [h.length, hlen], ?_, by simpa [hlen] using hfollows, cs ++ [c],
      .snoc c hserial ((hfollowed.done hx).2 (hresp _ hx).1), ?_⟩
    · intro t' ht'
      rw [committed_commit] at ht'
      rcases List.mem_append.mp ht' with ht' | ht'
      · simpa [hlen] using h.ended t' ht'
      · rw [List.mem_singleton.mp ht']
        simpa [hlen] using ht
    · unfold Committed at hcommitted ⊢
      rw [begun_commit, committed_commit, List.map_append, List.map_append, hcommitted,
        List.map_singleton, List.map_singleton, hc]
  · have hlen : (S.put t none).sessions.length = S.sessions.length := by simp [System.put]
    refine ⟨hholds, by simp [h.length, hlen], by simpa [hlen] using h.ended,
      by simpa [hlen] using hfollows, cs, hserial, ?_⟩
    simpa [Committed] using hcommitted

/-- **In turn.** A run whose programs do what their requests do alone comes to the same as the
committed requests one after another. -/
theorem Run.inTurn (h : Run (fun p => ∃ c, p = prog c) D.Respects (System.start s) es S)
    (hprog : ∀ c s, D.inv s → (prog c).wp D (fun _ => Does D act c) .empty s) (hs : D.inv s) :
    Traces D prog act s es S := by
  induction h with
  | nil =>
      exact ⟨.start hs, rfl, fun _ ht => absurd ht List.not_mem_nil,
        fun _ ht => absurd ht (Nat.not_lt_zero _), [], .nil, rfl⟩
  | snoc e _ hP hresp hstep ih => exact ih.step hprog hP hresp hstep

end ReadCommitted
