import RestiqBackend.ReadCommitted.Txn

/-!
Transactions interleaved under READ COMMITTED.

A system is the committed store and the transactions in flight. Any transaction
in flight may send its next statement, provided no other one holds a lock the
statement needs; the statement sees the latest committed rows with the
transaction's own writes on top of them. A blocked statement is simply not
taken, so when it is taken at last it is evaluated afresh, which is how a blocked
`UPDATE` comes to re-evaluate its `WHERE`. A transaction that has returned may
commit, and any transaction may be rolled back at any point: it threw, it was
chosen as a deadlock victim, its connection was lost. Commit and rollback release
the locks.
-/

namespace ReadCommitted

variable {σ κ ρ ω ε : Type}

/-- A transaction in flight: what is left of it and what it has done. -/
structure Session (σ κ ρ ω ε : Type) where
  prog : Txn σ κ ρ ω ε Unit
  done : Footprint κ ρ ω

/-- The committed store and the transactions begun so far, `none` once ended. -/
structure System (σ κ ρ ω ε : Type) where
  store : σ
  sessions : List (Option (Session σ κ ρ ω ε))

/-- What the scheduler may pick next. -/
inductive Event (σ κ ρ ω ε : Type) : Type 1
  | begin (p : Txn σ κ ρ ω ε Unit)
  | stmt (t : ℕ) (env : Env)
  | commit (t : ℕ)
  | rollback (t : ℕ)

namespace System

/-- The transaction `t`, while it is in flight. -/
def session (S : System σ κ ρ ω ε) (t : ℕ) : Option (Session σ κ ρ ω ε) := (S.sessions[t]?).join

/-- A store at rest: nothing is in flight. -/
def start (s : σ) : System σ κ ρ ω ε := ⟨s, []⟩

/-- Every transaction that was begun has committed or was rolled back. -/
def Quiet (S : System σ κ ρ ω ε) : Prop := ∀ t, S.session t = none

@[simp] theorem start_store (s : σ) : (start s : System σ κ ρ ω ε).store = s := rfl

@[simp] theorem start_session (s : σ) (t : ℕ) :
    (start s : System σ κ ρ ω ε).session t = none := by
  simp [start, session]

/-- Replacing the session of a transaction that was begun. -/
def put (S : System σ κ ρ ω ε) (t : ℕ) (x : Option (Session σ κ ρ ω ε)) : System σ κ ρ ω ε :=
  { S with sessions := S.sessions.set t x }

@[simp] theorem put_store (S : System σ κ ρ ω ε) (t : ℕ) (x : Option (Session σ κ ρ ω ε)) :
    (S.put t x).store = S.store := rfl

theorem session_lt {S : System σ κ ρ ω ε} {t : ℕ} {x : Session σ κ ρ ω ε}
    (h : S.session t = some x) : t < S.sessions.length := by
  by_contra hlt
  simp [session, List.getElem?_eq_none (Nat.le_of_not_lt hlt)] at h

theorem session_put {S : System σ κ ρ ω ε} {t : ℕ} {x : Session σ κ ρ ω ε}
    (h : S.session t = some x) (y : Option (Session σ κ ρ ω ε)) (t' : ℕ) :
    (S.put t y).session t' = if t' = t then y else S.session t' := by
  have hlt := session_lt h
  by_cases ht : t' = t
  · subst ht
    simp [session, put, hlt]
  · simp [session, put, List.getElem?_set_ne (Ne.symm ht), ht]

/-- Beginning a transaction gives it the next free number. -/
def enter (S : System σ κ ρ ω ε) (p : Txn σ κ ρ ω ε Unit) : System σ κ ρ ω ε :=
  { S with sessions := S.sessions ++ [some ⟨p, .empty⟩] }

@[simp] theorem enter_store (S : System σ κ ρ ω ε) (p : Txn σ κ ρ ω ε Unit) :
    (S.enter p).store = S.store := rfl

theorem session_enter (S : System σ κ ρ ω ε) (p : Txn σ κ ρ ω ε Unit) (t : ℕ) :
    (S.enter p).session t = if t = S.sessions.length then some ⟨p, .empty⟩ else S.session t := by
  unfold session System.enter
  rcases Nat.lt_trichotomy t S.sessions.length with h | h | h
  · simp [List.getElem?_append, h, Nat.ne_of_lt h]
  · simp [h]
  · have hend : (S.sessions ++ [some (⟨p, .empty⟩ : Session σ κ ρ ω ε)]).length ≤ t := by
      rw [List.length_append]
      exact h
    rw [List.getElem?_eq_none hend, List.getElem?_eq_none (Nat.le_of_lt h),
      if_neg (Nat.ne_of_gt h)]

section Step

variable [DecidableEq κ]

/-- No transaction other than `t` holds a lock in `ks`. -/
def free (S : System σ κ ρ ω ε) (t : ℕ) (ks : List κ) : Bool :=
  (List.range S.sessions.length).all fun t' =>
    t' == t || match S.session t' with
      | some x => ks.all fun k => !x.done.locks.contains k
      | none => true

theorem free_iff {S : System σ κ ρ ω ε} {t : ℕ} {ks : List κ} :
    S.free t ks = true ↔
      ∀ t' x, t' ≠ t → S.session t' = some x → ∀ k ∈ ks, k ∉ x.done.locks := by
  simp only [free, List.all_eq_true, List.mem_range, Bool.or_eq_true, beq_iff_eq]
  constructor
  · intro h t' x ht' hx k hk
    have := (h t' (session_lt hx)).resolve_left ht'
    simp only [hx, List.all_eq_true, Bool.not_eq_true', List.contains_eq_mem,
      decide_eq_false_iff_not] at this
    exact this k hk
  · intro h t' _
    by_cases ht' : t' = t
    · exact Or.inl ht'
    · right
      cases hx : S.session t' with
      | none => rfl
      | some x =>
          simp only [List.all_eq_true, Bool.not_eq_true', List.contains_eq_mem,
            decide_eq_false_iff_not]
          exact h t' x ht' hx

/-- Whether every read that a transaction other than `t` remembers satisfies `ok`. -/
def readsBeside (S : System σ κ ρ ω ε) (t : ℕ) (ok : ρ → Bool) : Bool :=
  (List.range S.sessions.length).all fun t' =>
    t' == t || (S.session t').all fun x => x.done.reads.all ok

omit [DecidableEq κ] in
theorem readsBeside_iff {S : System σ κ ρ ω ε} {t : ℕ} {ok : ρ → Bool} :
    S.readsBeside t ok = true ↔
      ∀ t' x, t' ≠ t → S.session t' = some x → ∀ r ∈ x.done.reads, ok r = true := by
  simp only [readsBeside, List.all_eq_true, List.mem_range, Bool.or_eq_true, beq_iff_eq]
  constructor
  · intro h t' x ht' hx
    have := (h t' (session_lt hx)).resolve_left ht'
    simpa [hx] using this
  · intro h t' _
    by_cases ht' : t' = t
    · exact Or.inl ht'
    · right
      cases hx : S.session t' with
      | none => rfl
      | some x => simpa using h t' x ht' hx

variable [WriteTo ω σ]

/-- What the statement that transaction `t` is about to send would do. -/
def next (S : System σ κ ρ ω ε) (t : ℕ) (env : Env) :
    Option (Footprint κ ρ ω × Session σ κ ρ ω ε) :=
  match S.session t with
  | some ⟨.stmt f k, l⟩ =>
      let e := f env (applyAll l.writes S.store)
      some (e.toFootprint, ⟨k e.ret, l.add e.toFootprint⟩)
  | _ => none

/-- One event, `none` when it cannot happen now. -/
def step (S : System σ κ ρ ω ε) : Event σ κ ρ ω ε → Option (System σ κ ρ ω ε)
  | .begin p => some (S.enter p)
  | .stmt t env =>
      match S.next t env with
      | some (e, x) => if S.free t e.locks then some (S.put t (some x)) else none
      | none => none
  | .commit t =>
      match S.session t with
      | some ⟨.done _, l⟩ => some { S.put t none with store := applyAll l.writes S.store }
      | _ => none
  | .rollback t =>
      match S.session t with
      | some _ => some (S.put t none)
      | none => none

/-- The events in turn, `none` as soon as one cannot happen or is not allowed. -/
def playWhen (ok : System σ κ ρ ω ε → Event σ κ ρ ω ε → Bool) (S : System σ κ ρ ω ε) :
    List (Event σ κ ρ ω ε) → Option (System σ κ ρ ω ε)
  | [] => some S
  | e :: es => if ok S e then (S.step e).bind fun S' => S'.playWhen ok es else none

/-- The events in turn, `none` as soon as one cannot happen. -/
def play (S : System σ κ ρ ω ε) (es : List (Event σ κ ρ ω ε)) : Option (System σ κ ρ ω ε) :=
  S.playWhen (fun _ _ => true) es

/-- What an event can have been, and what it did. -/
theorem step_cases {S S' : System σ κ ρ ω ε} {e : Event σ κ ρ ω ε} (h : S.step e = some S') :
    (∃ p, e = .begin p ∧ S' = S.enter p) ∨
    (∃ (t : ℕ) (env : Env) (x y : Session σ κ ρ ω ε) (l : Footprint κ ρ ω), e = .stmt t env ∧
      S.session t = some x ∧ S.next t env = some (l, y) ∧ S.free t l.locks = true ∧
      S' = S.put t (some y)) ∨
    (∃ t u l, e = .commit t ∧ S.session t = some ⟨.done u, l⟩ ∧
      S' = { S.put t none with store := applyAll l.writes S.store }) ∨
    (∃ t x, e = .rollback t ∧ S.session t = some x ∧ S' = S.put t none) := by
  cases e with
  | begin p => exact .inl ⟨p, rfl, by simpa [step] using h.symm⟩
  | stmt t env =>
      right; left
      simp only [step] at h
      cases hx : S.session t with
      | none => simp [next, hx] at h
      | some x =>
          cases hn : S.next t env with
          | none => simp [hn] at h
          | some ly =>
              obtain ⟨l, y⟩ := ly
              simp only [hn, Option.ite_none_right_eq_some, Option.some.injEq] at h
              exact ⟨t, env, x, y, l, rfl, hx, hn, h.1, h.2.symm⟩
  | commit t =>
      right; right; left
      simp only [step] at h
      split at h
      · rename_i u l hx
        exact ⟨t, u, l, rfl, hx, by simpa using h.symm⟩
      · simp at h
  | rollback t =>
      right; right; right
      simp only [step] at h
      split at h
      · rename_i x hx
        exact ⟨t, x, rfl, hx, by simpa using h.symm⟩
      · simp at h

end Step

end System

/-! ### Runs -/

section Run

variable [DecidableEq κ] [WriteTo ω σ]

/-- The runs of a system: only programs in `P` are begun, and every event
satisfies `C` in the state it happens in. -/
inductive Run (P : Txn σ κ ρ ω ε Unit → Prop) (C : System σ κ ρ ω ε → Event σ κ ρ ω ε → Prop)
    (S : System σ κ ρ ω ε) : List (Event σ κ ρ ω ε) → System σ κ ρ ω ε → Prop
  | nil : Run P C S [] S
  | snoc {es S' S''} (e : Event σ κ ρ ω ε) : Run P C S es S' →
      (∀ p, e = .begin p → P p) → C S' e → S'.step e = some S'' → Run P C S (es ++ [e]) S''

variable {P : Txn σ κ ρ ω ε Unit → Prop} {C : System σ κ ρ ω ε → Event σ κ ρ ω ε → Prop}

theorem Run.trans {S S' S'' : System σ κ ρ ω ε} {es es' : List (Event σ κ ρ ω ε)}
    (h : Run P C S es S') (h' : Run P C S' es' S'') : Run P C S (es ++ es') S'' := by
  induction h' with
  | nil => simpa using h
  | snoc e _ hP hC hstep ih =>
      rw [← List.append_assoc]
      exact .snoc e ih hP hC hstep

/-- A property that every event preserves holds after every run. -/
theorem Run.preserves {I : System σ κ ρ ω ε → Prop}
    (hI : ∀ S e S', I S → (∀ p, e = .begin p → P p) → C S e → S.step e = some S' → I S')
    {S S' : System σ κ ρ ω ε} {es : List (Event σ κ ρ ω ε)} (h : Run P C S es S') (h0 : I S) :
    I S' := by
  induction h with
  | nil => exact h0
  | snoc e _ hP hC hstep ih => exact hI _ e _ ih hP hC hstep

/-- A schedule that plays through is a run, when its programs are allowed. -/
theorem Run.of_playWhen {ok : System σ κ ρ ω ε → Event σ κ ρ ω ε → Bool}
    {S S' : System σ κ ρ ω ε} {es : List (Event σ κ ρ ω ε)} (h : S.playWhen ok es = some S')
    (hP : ∀ p, .begin p ∈ es → P p) : Run P (fun S e => ok S e = true) S es S' := by
  suffices H : ∀ es₀ S₁, Run P (fun S e => ok S e = true) S es₀ S₁ → S₁.playWhen ok es = some S' →
      Run P (fun S e => ok S e = true) S (es₀ ++ es) S' by
    simpa using H [] S .nil h
  clear h
  induction es with
  | nil =>
      intro es₀ S₁ h₁ h
      cases (Option.some.inj h)
      simpa using h₁
  | cons e es ih =>
      intro es₀ S₁ h₁ h
      obtain ⟨hok, h⟩ := Option.ite_none_right_eq_some.mp h
      obtain ⟨S₂, hstep, hrest⟩ := Option.bind_eq_some_iff.mp h
      have := ih (fun p hp => hP p (List.mem_cons_of_mem _ hp)) (es₀ ++ [e]) S₂
        (.snoc e h₁ (fun p hp => hP p (hp ▸ List.mem_cons_self)) hok hstep) hrest
      simpa using this

theorem Run.mono {C' : System σ κ ρ ω ε → Event σ κ ρ ω ε → Prop} (hC : ∀ S e, C S e → C' S e)
    {S S' : System σ κ ρ ω ε} {es : List (Event σ κ ρ ω ε)} (h : Run P C S es S') :
    Run P C' S es S' := by
  induction h with
  | nil => exact .nil
  | snoc e _ hP hCe hstep ih => exact .snoc e ih hP (hC _ _ hCe) hstep

/-- The same for what can be computed of the system a schedule ends in. -/
theorem Run.of_play_map {γ : Type} {S : System σ κ ρ ω ε} {es : List (Event σ κ ρ ω ε)}
    {f : System σ κ ρ ω ε → γ} {c : γ} (h : (S.play es).map f = some c)
    (hP : ∀ p, .begin p ∈ es → P p) :
    ∃ S', S.play es = some S' ∧ Run P (fun _ _ => True) S es S' ∧ f S' = c := by
  obtain ⟨S', hplay, hc⟩ := Option.map_eq_some_iff.mp h
  exact ⟨S', hplay, (Run.of_playWhen hplay hP).mono fun _ _ _ => trivial, hc⟩

end Run

/-- The next `n` statements of a transaction, on a clock that ticks with each. -/
def turns (t n start : ℕ) : List (Event σ κ ρ ω ε) :=
  (List.range n).map fun (i : ℕ) => .stmt t ⟨start + i, start + i⟩

theorem begin_notMem_turns (p : Txn σ κ ρ ω ε Unit) (t n start : ℕ) :
    .begin p ∉ (turns t n start : List (Event σ κ ρ ω ε)) := by
  simp [turns]

end ReadCommitted
