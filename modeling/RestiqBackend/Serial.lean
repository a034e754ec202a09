import Mathlib.Data.List.Basic
import Mathlib.Data.List.Forall2
import Mathlib.Tactic.Common

/-!
Runs of a machine, one event at a time.

A machine is a relation between a state, an event and the state after it. Nothing here
says what the states are: `Run` is the list of events that happened and where they led,
with a condition every event met when it happened, and `Run.preserves` is the one
induction over it. A machine given by a function is run by folding it.
-/

namespace Serial

variable {σ ε : Type}

/-- The runs from `s`: every event satisfies `C` in the state it happens in. -/
inductive Run (step : σ → ε → σ → Prop) (C : σ → ε → Prop) (s : σ) : List ε → σ → Prop
  | nil : Run step C s [] s
  | snoc {es : List ε} {s' s'' : σ} (e : ε) : Run step C s es s' → C s' e → step s' e s'' →
      Run step C s (es ++ [e]) s''

variable {step : σ → ε → σ → Prop} {C : σ → ε → Prop} {s s' s'' : σ} {es es' : List ε}

/-- What every event preserves holds after every run. -/
theorem Run.preserves {I : σ → Prop} (h : Run step C s es s')
    (hI : ∀ s e s', I s → C s e → step s e s' → I s') (hs : I s) : I s' := by
  induction h with
  | nil => exact hs
  | snoc e _ hC hstep ih => exact hI _ e _ ih hC hstep

theorem Run.trans (h : Run step C s es s') (h' : Run step C s' es' s'') :
    Run step C s (es ++ es') s'' := by
  induction h' with
  | nil => simpa using h
  | snoc e _ hC hstep ih =>
      rw [← List.append_assoc]
      exact .snoc e ih hC hstep

theorem Run.cons {e : ε} (hC : C s e) (hstep : step s e s') (h : Run step C s' es s'') :
    Run step C s (e :: es) s'' :=
  (Run.snoc e .nil hC hstep).trans h

theorem Run.mono {C' : σ → ε → Prop} (h : Run step C s es s') (hC : ∀ s e, C s e → C' s e) :
    Run step C' s es s' := by
  induction h with
  | nil => exact .nil
  | snoc e _ hCe hstep ih => exact .snoc e ih (hC _ _ hCe) hstep

/-! ### Machines given by a function -/

/-- Whether every event of the list is allowed where it happens. -/
def allowed (f : σ → ε → σ) (ok : σ → ε → Bool) : σ → List ε → Bool
  | _, [] => true
  | s, e :: es => ok s e && allowed f ok (f s e) es

theorem Run.of_foldl {f : σ → ε → σ} {ok : σ → ε → Bool} (h : allowed f ok s es = true) :
    Run (fun s e s' => s' = f s e) (fun s e => ok s e = true) s es (es.foldl f s) := by
  induction es generalizing s with
  | nil => exact .nil
  | cons e es ih =>
      obtain ⟨hok, hrest⟩ := Bool.and_eq_true_iff.mp h
      exact .cons hok rfl (ih hrest)

/-- Where nothing is asked of the events, every list of them is a run. -/
theorem Run.of_events (f : σ → ε → σ) (s : σ) (es : List ε) :
    Run (fun s e s' => s' = f s e) (fun _ _ => True) s es (es.foldl f s) := by
  induction es generalizing s with
  | nil => exact .nil
  | cons e es ih => exact .cons trivial rfl (ih (f s e))

/-! ### Operations that may fail -/

/-- The state after an operation: one that fails leaves it as it was. -/
def after {α β : Type} (s : σ) : Except α (σ × β) → σ
  | .ok (s', _) => s'
  | .error _ => s

theorem bind_ok {α β δ : Type} {x : Except δ α} {f : α → Except δ β} {b : β}
    (h : (x >>= f) = .ok b) : ∃ a, x = .ok a ∧ f a = .ok b := by
  cases x with
  | error e => cases h
  | ok a => exact ⟨a, rfl, h⟩

/-- What holds of the state and of every state that the operation can lead to. -/
theorem after_keeps {α β : Type} {I : σ → Prop} {x : Except α (σ × β)} (hs : I s)
    (hx : ∀ s' b, x = .ok (s', b) → I s') : I (after s x) := by
  cases x with
  | error e => exact hs
  | ok r => exact hx r.1 r.2 rfl

theorem bind_of_ok {α β δ : Type} {x : Except δ α} {a : α} (h : x = .ok a) (f : α → Except δ β) :
    (x >>= f) = f a := by
  rw [h]
  rfl

theorem bind_error {α β δ : Type} {x : Except δ α} {f : α → Except δ β} {e : δ}
    (h : (x >>= f) = .error e) : x = .error e ∨ ∃ a, x = .ok a ∧ f a = .error e := by
  cases x with
  | error e' =>
      cases h
      exact .inl rfl
  | ok a => exact .inr ⟨a, rfl, h⟩

theorem map_ok {α β δ : Type} {x : Except δ α} {f : α → β} {b : β} (h : x.map f = .ok b) :
    ∃ a, x = .ok a ∧ f a = b := by
  cases x with
  | error e => cases h
  | ok a => exact ⟨a, rfl, Except.ok.inj h⟩

theorem map_error {α β δ : Type} {x : Except δ α} {f : α → β} {e : δ}
    (h : x.map f = .error e) : x = .error e := by
  cases x with
  | error e' => exact congrArg _ (Except.error.inj h)
  | ok a => cases h

/-- A condition that the operation asks for. -/
def check {δ : Type} (c : Prop) [Decidable c] (e : δ) : Except δ Unit :=
  if c then .ok () else .error e

theorem check_ok {δ : Type} {c : Prop} [Decidable c] {e : δ} {u : Unit} (h : check c e = .ok u) :
    c := by
  unfold check at h
  split at h
  · assumption
  · cases h

theorem check_of {δ : Type} {c : Prop} [Decidable c] {e : δ} (h : c) : check c e = .ok () :=
  if_pos h

theorem check_error {δ : Type} {c : Prop} [Decidable c] {e e' : δ} (h : check c e = .error e') :
    ¬ c ∧ e' = e := by
  unfold check at h
  split at h
  · cases h
  · cases h
    exact ⟨‹_›, rfl⟩

/-- A row that the operation asks for. -/
def orElseThrow {α δ : Type} (e : δ) : Option α → Except δ α
  | some a => .ok a
  | none => .error e

theorem orElseThrow_ok {α δ : Type} {e : δ} {x : Option α} {a : α}
    (h : orElseThrow e x = .ok a) : x = some a := by
  cases x with
  | none => cases h
  | some b =>
      cases h
      rfl

theorem orElseThrow_of_some {α δ : Type} {e : δ} {x : Option α} {a : α} (h : x = some a) :
    orElseThrow e x = .ok a := by
  rw [h]
  rfl

theorem orElseThrow_error {α δ : Type} {e e' : δ} {x : Option α}
    (h : orElseThrow e x = .error e') : x = none ∧ e' = e := by
  cases x with
  | none =>
      cases h
      exact ⟨rfl, rfl⟩
  | some a => cases h

/-! What an operation is never refused for is what none of its steps is. -/

theorem bind_ne_error {α β δ : Type} {x : Except δ α} {f : α → Except δ β} {e : δ}
    (hx : x ≠ .error e) (hf : ∀ a, f a ≠ .error e) : (x >>= f) ≠ .error e := by
  intro h
  rcases bind_error h with h | ⟨a, -, h⟩
  · exact hx h
  · exact hf a h

theorem check_ne_error {δ : Type} {c : Prop} [Decidable c] {e e' : δ} (h : e' ≠ e) :
    check c e' ≠ .error e := fun hc => h (check_error hc).2.symm

theorem orElseThrow_ne_error {α δ : Type} {e e' : δ} {x : Option α} (h : e' ≠ e) :
    orElseThrow e' x ≠ .error e := fun hx => h (orElseThrow_error hx).2.symm

theorem isOk_bind {α β δ : Type} {x : Except δ α} {f : α → Except δ β} :
    (x >>= f).isOk = true ↔ ∃ a, x = .ok a ∧ (f a).isOk = true := by
  cases x with
  | error e => exact ⟨fun h => absurd h Bool.false_ne_true, fun ⟨_, h, _⟩ => nomatch h⟩
  | ok a =>
      refine ⟨fun h => ⟨a, rfl, h⟩, fun ⟨b, hb, h⟩ => ?_⟩
      cases hb
      exact h

/-- What every step of a fold that does not fail keeps, the fold keeps. -/
theorem foldlM_keeps {α β δ : Type} {f : α → β → Except δ α} {I : α → Prop} {bs : List β}
    {a a' : α} (hf : ∀ a, ∀ b ∈ bs, ∀ a', f a b = .ok a' → I a → I a')
    (h : bs.foldlM f a = .ok a') (ha : I a) : I a' := by
  induction bs generalizing a with
  | nil =>
      cases h
      exact ha
  | cons b bs ih =>
      rw [List.foldlM_cons] at h
      obtain ⟨a₁, hb, h⟩ := bind_ok h
      exact ih (fun a b hb => hf a b (List.mem_cons_of_mem _ hb)) h
        (hf a b List.mem_cons_self a₁ hb ha)

/-- A fold whose steps each add a block to a list. -/
theorem foldlM_blocks {α β δ : Type} {f : List β → α → Except δ (List β)}
    {Block : α → List β → Prop}
    (hf : ∀ done a done', f done a = .ok done' → ∃ block, done' = done ++ block ∧ Block a block)
    {as : List α} {done done' : List β} (h : as.foldlM f done = .ok done') :
    ∃ blocks, List.Forall₂ Block as blocks ∧ done' = done ++ blocks.flatten := by
  induction as generalizing done with
  | nil =>
      cases h
      exact ⟨[], .nil, by simp⟩
  | cons a as ih =>
      rw [List.foldlM_cons] at h
      obtain ⟨done₁, ha, h⟩ := bind_ok h
      obtain ⟨block, rfl, hblock⟩ := hf done a done₁ ha
      obtain ⟨blocks, hblocks, rfl⟩ := ih h
      exact ⟨block :: blocks, .cons hblock hblocks, by simp⟩

/-- What a list of answers was answered to. -/
theorem mapM_ok {α β δ : Type} {f : α → Except δ β} {as : List α} {bs : List β}
    (h : as.mapM f = .ok bs) : List.Forall₂ (fun a b => f a = .ok b) as bs := by
  induction as generalizing bs with
  | nil =>
      cases h
      exact .nil
  | cons a as ih =>
      rw [List.mapM_cons] at h
      obtain ⟨b, hb, h⟩ := bind_ok h
      obtain ⟨bs', hbs, h⟩ := bind_ok h
      cases h
      exact .cons hb (ih hbs)

theorem mapM_of_forall₂ {α β δ : Type} {f : α → Except δ β} {as : List α} {bs : List β}
    (h : List.Forall₂ (fun a b => f a = .ok b) as bs) : as.mapM f = .ok bs := by
  induction h with
  | nil => rfl
  | cons hb _ ih =>
      rw [List.mapM_cons, hb, ih]
      rfl

theorem exists_right {α β : Type} {R : α → β → Prop} {as : List α} {bs : List β}
    (h : List.Forall₂ R as bs) {a : α} (ha : a ∈ as) : ∃ b ∈ bs, R a b := by
  induction h with
  | nil => cases ha
  | cons hhead _ ih =>
      rcases List.mem_cons.mp ha with rfl | ha
      · exact ⟨_, List.mem_cons_self, hhead⟩
      · obtain ⟨b, hb, hR⟩ := ih ha
        exact ⟨b, List.mem_cons_of_mem _ hb, hR⟩

theorem mapM_mem {α β δ : Type} {f : α → Except δ β} {as : List α} {bs : List β}
    (h : as.mapM f = .ok bs) {b : β} (hb : b ∈ bs) : ∃ a ∈ as, f a = .ok b := by
  induction mapM_ok h with
  | nil => cases hb
  | cons hhead htail ih =>
      rcases List.mem_cons.mp hb with rfl | hb
      · exact ⟨_, List.mem_cons_self, hhead⟩
      · obtain ⟨a, ha, hf⟩ := ih (mapM_of_forall₂ htail) hb
        exact ⟨a, List.mem_cons_of_mem _ ha, hf⟩

theorem mapM_answer {α β δ : Type} {f : α → Except δ β} {as : List α} {bs : List β}
    (h : as.mapM f = .ok bs) {a : α} (ha : a ∈ as) : ∃ b ∈ bs, f a = .ok b :=
  exists_right (mapM_ok h) ha

end Serial
