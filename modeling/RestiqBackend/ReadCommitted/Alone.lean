import RestiqBackend.ReadCommitted.Rely

/-!
What a transaction that runs alone is sure to do.

`Txn.returns` says that it commits whatever the outside world answers, and how; `Txn.refuses` that
it gives up with the one error; `Txn.answers` that it does the one or the other as it is told. The
rules go through a program forwards, statement by statement. What was proved of the program among
others (`Txn.wp`) holds of it alone as well.
-/

namespace ReadCommitted

namespace Txn

variable {σ κ ρ ω ε α β : Type} [WriteTo ω σ] {E E' : ε → Prop} {V : Env → σ → Prop}
  {p : Txn σ κ ρ ω ε α} {g : α → Txn σ κ ρ ω ε β} {v : σ}

/-- Alone, the program commits, and `Q` holds of what it returns and of the store it leaves. -/
abbrev returns (V : Env → σ → Prop) (p : Txn σ κ ρ ω ε α) (Q : α → σ → Prop) (v : σ) : Prop :=
  p.wlp (fun _ => False) V Q v

/-- Alone, the program gives up with the error `e`. -/
abbrev refuses (V : Env → σ → Prop) (p : Txn σ κ ρ ω ε α) (e : ε) (v : σ) : Prop :=
  p.wlp (· = e) V (fun _ _ => False) v

/-- More errors may be allowed, and less asked. -/
theorem wlp_weaken {Q Q' : α → σ → Prop} (h : p.wlp E V Q v) (hE : ∀ e, E e → E' e)
    (hQ : ∀ a v, Q a v → Q' a v) : p.wlp E' V Q' v := by
  induction p generalizing v with
  | done a => exact hQ a v h
  | fail e => exact hE e h
  | stmt f k ih => exact fun env hV => ih _ (h env hV)

/-- Alone, the program gives up with the error that it is handed, or else commits. -/
def answers (V : Env → σ → Prop) (p : Txn σ κ ρ ω ε α) (refused : Option ε) (Q : α → σ → Prop)
    (v : σ) : Prop :=
  match refused with
  | none => p.returns V Q v
  | some e => p.refuses V e v

theorem answers_iff {refused : Option ε} {Q : α → σ → Prop} :
    p.answers V refused Q v ↔
      p.wlp (fun e => refused = some e) V (fun a v => refused = none ∧ Q a v) v := by
  cases refused with
  | none =>
      exact ⟨fun h => wlp_weaken h (fun _ h => h.elim) fun _ _ h => ⟨rfl, h⟩,
        fun h => wlp_weaken h (fun e he => (Option.some_ne_none e he.symm).elim) fun _ _ h => h.2⟩
  | some e =>
      exact ⟨fun h => wlp_weaken h (fun _ he => congrArg some he.symm) fun _ _ h => h.elim,
        fun h => wlp_weaken h (fun _ he => (Option.some.inj he).symm)
          fun _ _ h => Option.some_ne_none e h.1⟩

/-- Whatever else is known of the stores it leaves. -/
theorem wlp_and_weak {Q Q' : α → σ → Prop} (h : p.wlp E V Q v)
    (h' : p.wlp (fun _ => True) V Q' v) : p.wlp E V (fun a v => Q a v ∧ Q' a v) v := by
  induction p generalizing v with
  | done a => exact ⟨h, h'⟩
  | fail e => exact h
  | stmt f k ih => exact fun env hV => ih _ (h env hV) (h' env hV)

theorem answers.imp {refused : Option ε} {Q Q' R : α → σ → Prop} (h : p.answers V refused Q v)
    (h' : p.wlp (fun _ => True) V Q' v) (hR : ∀ a v, Q a v → Q' a v → R a v) :
    p.answers V refused R v :=
  answers_iff.mpr (wlp_mono (wlp_and_weak (answers_iff.mp h) h') fun a v h =>
    ⟨h.1.1, hR a v h.1.2 h.2⟩)

/-- A program that is refused is refused with whatever comes after it. -/
theorem refuses.bind {e : ε} (h : p.refuses V e v) : (p >>= g).refuses V e v :=
  (wlp_bind p g _ v).mpr (wlp_mono h fun _ _ h => h.elim)

/-! ### Forwards -/

variable {γ : Type} {R : β → σ → Prop}

theorem query_bind {f : σ → γ} {g : γ → Txn σ κ ρ ω ε β} (h : (g (f v)).wlp E V R v) :
    (query f >>= g).wlp E V R v := fun _ _ => h

theorem clock_bind {g : ℤ → Txn σ κ ρ ω ε β} (h : ∀ env, V env v → (g env.now).wlp E V R v) :
    (clock >>= g).wlp E V R v := h

theorem uuid_bind {g : ℕ → Txn σ κ ρ ω ε β} (h : ∀ env, V env v → (g env.uuid).wlp E V R v) :
    (uuid >>= g).wlp E V R v := h

theorem exec_bind {locks : σ → List κ} {writes : σ → List ω} {g : Unit → Txn σ κ ρ ω ε β}
    (h : (g ()).wlp E V R (applyAll (writes v) v)) : (exec locks writes >>= g).wlp E V R v :=
  fun _ _ => h

theorem throwIf_bind {c : Prop} [Decidable c] {e : ε} {g : Unit → Txn σ κ ρ ω ε β} (hc : ¬c)
    (h : (g ()).wlp E V R v) : (throwIf c e >>= g).wlp E V R v := by
  rwa [throwIf, if_neg hc, done_bind]

theorem throwIf_fails {c : Prop} [Decidable c] {e : ε} {g : Unit → Txn σ κ ρ ω ε β} (hc : c)
    (he : E e) : (throwIf c e >>= g).wlp E V R v := by
  rwa [throwIf, if_pos hc]

/-- A check either fails with its error or lets the rest go on. -/
theorem throwIf_or {c : Prop} [Decidable c] {e : ε} {R : Unit → σ → Prop} (he : c → E e)
    (h : ¬c → R () v) : (throwIf c e : Txn σ κ ρ ω ε Unit).wlp E V R v := by
  unfold throwIf
  split
  · exact he ‹_›
  · exact h ‹_›

theorem writeWhen_bind {c : σ → Bool} {locks : List κ} {writes : List ω}
    {g : Bool → Txn σ κ ρ ω ε β} (hc : c v = true) (h : (g true).wlp E V R (applyAll writes v)) :
    (writeWhen c locks writes >>= g).wlp E V R v := by
  intro env _
  simp only [hc, if_true]
  exact h

/-! ### From among others -/

/-- What a program is proved to do whatever is committed between its statements, it does alone. -/
theorem wp.alone {D : Discipline σ κ ρ ω} {Q : α → Footprint κ ρ ω → σ → Prop}
    {l : Footprint κ ρ ω} {s : σ} (hadmits : ∀ l s l', D.admits l s l') (h : p.wp D Q l s) :
    p.wlp (fun _ => True) V (fun a v => ∃ l', Q a l' s ∧ v = applyAll l'.writes s)
      (applyAll l.writes s) := by
  induction p generalizing l with
  | done a => exact ⟨l, h s (.refl l s), rfl⟩
  | fail e => trivial
  | stmt f k ih =>
      intro env _
      have hk := ih _ (h s (.refl l s) env (hadmits _ _ _))
      rwa [Footprint.add_writes, applyAll_append] at hk

end Txn

end ReadCommitted
