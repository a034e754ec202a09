import RestiqBackend.ReadCommitted.System

/-!
The rely–guarantee rule for interleaved transactions.

A transaction cannot see what the others are about to commit, but it can rely on
a discipline they all keep: every commit preserves an invariant and is one of the
allowed moves (`guar`), a commit by a transaction that does not hold the lock `k`
leaves alone what `k` protects (`keeps k`), and, where a run is assumed to respect
the reads of others, what a remembered read returned stays true (`heeds`).

`Txn.wp` says what has to hold of a transaction's footprint and of the committed
store for the transaction to reach its end in `Q` whatever is committed between
its statements. `Discipline.sound` is the reward: if every program reaches its end
in a footprint whose commit keeps the discipline, then every run keeps it, and
every commit of the run ends as its program promised.
-/

namespace ReadCommitted

variable {σ κ ρ ω ε α β : Type}

/-- What the commits of a system have in common. -/
structure Discipline (σ κ ρ ω : Type) where
  /-- What holds of the committed store. -/
  inv : σ → Prop
  /-- What a commit may do to the store. -/
  guar : σ → σ → Prop
  /-- What a commit leaves alone when someone else holds the lock. -/
  keeps : κ → σ → σ → Prop
  /-- What a commit leaves alone when someone else remembers the read. -/
  heeds : ρ → σ → σ → Prop
  /-- What a run is assumed to ask of a statement before it is sent. -/
  admits : Footprint κ ρ ω → σ → Footprint κ ρ ω → Prop
  /-- What a run is assumed to ask of a commit. -/
  lands : Footprint κ ρ ω → σ → Prop
  /-- What a transaction has made sure of when it commits. -/
  ends : Footprint κ ρ ω → σ → Prop
  guar_refl : ∀ s, guar s s
  guar_trans : ∀ s s' s'', guar s s' → guar s' s'' → guar s s''
  keeps_refl : ∀ k s, keeps k s s
  keeps_trans : ∀ k s s' s'', keeps k s s' → keeps k s' s'' → keeps k s s''
  heeds_refl : ∀ r s, heeds r s s
  heeds_trans : ∀ r s s' s'', heeds r s s' → heeds r s' s'' → heeds r s s''

namespace Discipline

variable (D : Discipline σ κ ρ ω)

/-- What a transaction with footprint `l` can rely on of the commits of others. -/
structure Rely (l : Footprint κ ρ ω) (s s' : σ) : Prop where
  inv : D.inv s → D.inv s'
  guar : D.guar s s'
  keeps : ∀ k ∈ l.locks, D.keeps k s s'
  heeds : ∀ r ∈ l.reads, D.heeds r s s'

/-- An assertion that the commits of others cannot falsify. -/
def Stable (P : Footprint κ ρ ω → σ → Prop) : Prop :=
  ∀ l s s', D.Rely l s s' → P l s → P l s'

/-- What a footprint owes the others when it is committed. -/
structure Keeps [WriteTo ω σ] (l : Footprint κ ρ ω) (s : σ) : Prop where
  inv : D.inv (applyAll l.writes s)
  guar : D.guar s (applyAll l.writes s)
  keeps : ∀ k, k ∉ l.locks → D.keeps k s (applyAll l.writes s)
  ends : D.ends l s

/-- A footprint that may be committed as soon as the run lets it. -/
def Commits [WriteTo ω σ] (l : Footprint κ ρ ω) (s : σ) : Prop := D.lands l s → D.Keeps l s

variable {D}

theorem Rely.refl (l : Footprint κ ρ ω) (s : σ) : D.Rely l s s :=
  ⟨id, D.guar_refl s, fun k _ => D.keeps_refl k s, fun r _ => D.heeds_refl r s⟩

theorem Rely.trans {l : Footprint κ ρ ω} {s s' s'' : σ} (h : D.Rely l s s')
    (h' : D.Rely l s' s'') : D.Rely l s s'' where
  inv hs := h'.inv (h.inv hs)
  guar := D.guar_trans _ _ _ h.guar h'.guar
  keeps k hk := D.keeps_trans _ _ _ _ (h.keeps k hk) (h'.keeps k hk)
  heeds r hr := D.heeds_trans _ _ _ _ (h.heeds r hr) (h'.heeds r hr)

theorem Stable.and {P P' : Footprint κ ρ ω → σ → Prop} (h : D.Stable P) (h' : D.Stable P') :
    D.Stable fun l s => P l s ∧ P' l s :=
  fun l s s' hr hP => ⟨h l s s' hr hP.1, h' l s s' hr hP.2⟩

theorem Stable.exists {ι : Sort*} {P : ι → Footprint κ ρ ω → σ → Prop}
    (h : ∀ i, D.Stable (P i)) : D.Stable fun l s => ∃ i, P i l s :=
  fun l s s' hr ⟨i, hi⟩ => ⟨i, h i l s s' hr hi⟩

theorem Stable.imp {P : Footprint κ ρ ω → σ → Prop} (p : Prop) (h : D.Stable P) :
    D.Stable fun l s => p → P l s :=
  fun l s s' hr hP hp => h l s s' hr (hP hp)

theorem Stable.const (p : Prop) : D.Stable fun _ _ => p := fun _ _ _ _ h => h

end Discipline

namespace Txn

variable [WriteTo ω σ] (D : Discipline σ κ ρ ω)

/-- What has to hold for `p` to reach its end in `Q` whatever the others commit
before each of its statements and before its own commit. -/
def wp : Txn σ κ ρ ω ε α → (α → Footprint κ ρ ω → σ → Prop) → Footprint κ ρ ω → σ → Prop
  | .done a, Q, l, s => ∀ s', D.Rely l s s' → Q a l s'
  | .fail _, _, _, _ => True
  | .stmt f k, Q, l, s => ∀ s', D.Rely l s s' → ∀ env,
      D.admits l s' (f env (applyAll l.writes s')).toFootprint →
      wp (k (f env (applyAll l.writes s')).ret) Q
        (l.add (f env (applyAll l.writes s')).toFootprint) s'

variable {D}

@[simp] theorem wp_fail (e : ε) (Q : α → Footprint κ ρ ω → σ → Prop) (l : Footprint κ ρ ω)
    (s : σ) : (Txn.fail e : Txn σ κ ρ ω ε α).wp D Q l s := trivial

@[simp] theorem wp_throw (e : ε) (Q : α → Footprint κ ρ ω → σ → Prop) (l : Footprint κ ρ ω)
    (s : σ) : (throw e : Txn σ κ ρ ω ε α).wp D Q l s := trivial

/-- What is required before a program may be required earlier. -/
theorem wp_rely {p : Txn σ κ ρ ω ε α} {Q : α → Footprint κ ρ ω → σ → Prop}
    {l : Footprint κ ρ ω} {s s' : σ} (h : p.wp D Q l s) (hr : D.Rely l s s') :
    p.wp D Q l s' := by
  cases p with
  | done a => exact fun s'' hr' => h s'' (hr.trans hr')
  | fail e => trivial
  | stmt f k => exact fun s'' hr' => h s'' (hr.trans hr')

/-- The rule of consequence. -/
theorem wp_mono {p : Txn σ κ ρ ω ε α} {Q Q' : α → Footprint κ ρ ω → σ → Prop}
    {l : Footprint κ ρ ω} {s : σ} (h : p.wp D Q l s) (hQ : ∀ a l s, Q a l s → Q' a l s) :
    p.wp D Q' l s := by
  induction p generalizing l s with
  | done a => exact fun s' hr => hQ _ _ _ (h s' hr)
  | fail e => trivial
  | stmt f k ih => exact fun s' hr env hadm => ih _ (h s' hr env hadm)

/-- The invariant holds wherever the program gets to. -/
theorem wp_inv {p : Txn σ κ ρ ω ε α} {Q : α → Footprint κ ρ ω → σ → Prop}
    {l : Footprint κ ρ ω} {s : σ} (hs : D.inv s) (h : p.wp D Q l s) :
    p.wp D (fun a l s => D.inv s ∧ Q a l s) l s := by
  induction p generalizing l s with
  | done a => exact fun s' hr => ⟨hr.inv hs, h s' hr⟩
  | fail e => trivial
  | stmt f k ih => exact fun s' hr env hadm => ih _ (hr.inv hs) (h s' hr env hadm)

/-- Two things that a program makes sure of. -/
theorem wp_and {p : Txn σ κ ρ ω ε α} {Q Q' : α → Footprint κ ρ ω → σ → Prop}
    {l : Footprint κ ρ ω} {s : σ} (h : p.wp D Q l s) (h' : p.wp D Q' l s) :
    p.wp D (fun a l s => Q a l s ∧ Q' a l s) l s := by
  induction p generalizing l s with
  | done a => exact fun s' hr => ⟨h s' hr, h' s' hr⟩
  | fail e => trivial
  | stmt f k ih => exact fun s' hr env hadm => ih _ (h s' hr env hadm) (h' s' hr env hadm)

/-- Returning: the postcondition, if it is stable. -/
theorem wp_done {a : α} {Q : α → Footprint κ ρ ω → σ → Prop} {l : Footprint κ ρ ω} {s : σ}
    (hQ : D.Stable (Q a)) (h : Q a l s) : (Txn.done a : Txn σ κ ρ ω ε α).wp D Q l s :=
  fun s' hr => hQ l s s' hr h

/-- A check: the rest of the program knows that it passed. -/
theorem wp_throwIf {c : Prop} [Decidable c] {e : ε} {g : Unit → Txn σ κ ρ ω ε α}
    {Q : α → Footprint κ ρ ω → σ → Prop} {l : Footprint κ ρ ω} {s : σ}
    (h : ¬ c → (g ()).wp D Q l s) : (throwIf c e >>= g).wp D Q l s := by
  unfold throwIf
  split
  · trivial
  · rename_i hc
    exact h hc

/-- A statement: a stable assertion before it, and the rest after it. -/
theorem wp_stmt {γ : Type} {f : Env → σ → Effect κ ρ ω γ} {k : γ → Txn σ κ ρ ω ε α}
    {Q : α → Footprint κ ρ ω → σ → Prop} {P : Footprint κ ρ ω → σ → Prop}
    {l : Footprint κ ρ ω} {s : σ} (hP : D.Stable P) (h : P l s)
    (hk : ∀ env s', P l s' → D.admits l s' (f env (applyAll l.writes s')).toFootprint →
      (k (f env (applyAll l.writes s')).ret).wp D Q
        (l.add (f env (applyAll l.writes s')).toFootprint) s') :
    (Txn.stmt f k).wp D Q l s :=
  fun s' hr env => hk env s' (hP l s s' hr h)

theorem wp_of_eq {p : Txn σ κ ρ ω ε α} {Q : α → Footprint κ ρ ω → σ → Prop}
    {l l' : Footprint κ ρ ω} {s : σ} (hl : l' = l) (h : p.wp D Q l s) : p.wp D Q l' s := hl ▸ h

/-- A read that leaves nothing behind: the rest of the program has the answer. -/
theorem wp_query {f : σ → β} {g : β → Txn σ κ ρ ω ε α} {Q : α → Footprint κ ρ ω → σ → Prop}
    {P : Footprint κ ρ ω → σ → Prop} {l : Footprint κ ρ ω} {s : σ} (hP : D.Stable P) (h : P l s)
    (hg : ∀ s, P l s → (g (f (applyAll l.writes s))).wp D Q l s) : (query f >>= g).wp D Q l s :=
  wp_stmt hP h fun _ s' h' _ => by
    exact wp_of_eq (Footprint.add_empty l) (hg s' h')

/-- A read that is remembered: the rest of the program has the answer, and the others heed it. -/
theorem wp_read {f : σ → β} {r : σ → List ρ} {g : β → Txn σ κ ρ ω ε α}
    {Q : α → Footprint κ ρ ω → σ → Prop} {P : Footprint κ ρ ω → σ → Prop}
    {l : Footprint κ ρ ω} {s : σ} (hP : D.Stable P) (h : P l s)
    (hg : ∀ s, P l s → (g (f (applyAll l.writes s))).wp D Q
      (l.add ⟨[], r (applyAll l.writes s), []⟩) s) : (read f r >>= g).wp D Q l s :=
  wp_stmt hP h fun _ s' h' _ => hg s' h'

theorem wp_clock {g : ℤ → Txn σ κ ρ ω ε α} {Q : α → Footprint κ ρ ω → σ → Prop}
    {P : Footprint κ ρ ω → σ → Prop} {l : Footprint κ ρ ω} {s : σ} (hP : D.Stable P) (h : P l s)
    (hg : ∀ now s, P l s → (g now).wp D Q l s) : (clock >>= g).wp D Q l s :=
  wp_stmt hP h fun env s' h' _ => by
    exact wp_of_eq (Footprint.add_empty l) (hg env.now s' h')

theorem wp_uuid {g : ℕ → Txn σ κ ρ ω ε α} {Q : α → Footprint κ ρ ω → σ → Prop}
    {P : Footprint κ ρ ω → σ → Prop} {l : Footprint κ ρ ω} {s : σ} (hP : D.Stable P) (h : P l s)
    (hg : ∀ id s, P l s → (g id).wp D Q l s) : (uuid >>= g).wp D Q l s :=
  wp_stmt hP h fun env s' h' _ => by
    exact wp_of_eq (Footprint.add_empty l) (hg env.uuid s' h')

/-- A guarded write: either its guard held where it was sent, or it left nothing. -/
theorem wp_writeWhen {p : σ → Bool} {locks : List κ} {writes : List ω}
    {Q : Bool → Footprint κ ρ ω → σ → Prop} {P : Footprint κ ρ ω → σ → Prop}
    {l : Footprint κ ρ ω} {s : σ} (hP : D.Stable P) (hQ : ∀ b, D.Stable (Q b)) (h : P l s)
    (htrue : ∀ s, P l s → p (applyAll l.writes s) = true → D.admits l s ⟨locks, [], writes⟩ →
      Q true (l.add ⟨locks, [], writes⟩) s)
    (hfalse : ∀ s, P l s → p (applyAll l.writes s) = false → Q false (l.add .empty) s) :
    (writeWhen p locks writes : Txn σ κ ρ ω ε Bool).wp D Q l s := by
  refine wp_stmt hP h fun env s' h' hadm => ?_
  cases hp : p (applyAll l.writes s') with
  | true =>
      simp only [hp, if_true] at hadm ⊢
      exact wp_done (hQ true) (htrue s' h' hp hadm)
  | false =>
      simp only [hp, Bool.false_eq_true, if_false] at hadm ⊢
      exact wp_done (hQ false) (hfalse s' h' hp)

/-- Sequencing. -/
theorem wp_bind {p : Txn σ κ ρ ω ε α} {g : α → Txn σ κ ρ ω ε β}
    {Q : β → Footprint κ ρ ω → σ → Prop} {l : Footprint κ ρ ω} {s : σ}
    (h : p.wp D (fun a l s => (g a).wp D Q l s) l s) : (p >>= g).wp D Q l s := by
  induction p generalizing l s with
  | done a => exact h s (.refl l s)
  | fail e => trivial
  | stmt f k ih => exact fun s' hr env hadm => ih _ (h s' hr env hadm)

/-- Sequencing through an intermediate assertion. -/
theorem wp_seq {p : Txn σ κ ρ ω ε α} {g : α → Txn σ κ ρ ω ε β}
    {R : α → Footprint κ ρ ω → σ → Prop} {Q : β → Footprint κ ρ ω → σ → Prop}
    {l : Footprint κ ρ ω} {s : σ} (hp : p.wp D R l s)
    (hg : ∀ a l s, R a l s → (g a).wp D Q l s) : (p >>= g).wp D Q l s :=
  wp_bind (wp_mono hp hg)

/-- A loop keeps a stable assertion that each of its rounds keeps. -/
theorem wp_forEach {γ : Type} {f : γ → Txn σ κ ρ ω ε Unit} {as : List γ}
    {P : Footprint κ ρ ω → σ → Prop} (hP : D.Stable P)
    (hf : ∀ a ∈ as, ∀ l s, P l s → (f a).wp D (fun _ => P) l s) {l : Footprint κ ρ ω} {s : σ}
    (h : P l s) : (forEach f as).wp D (fun _ => P) l s := by
  induction as generalizing l s with
  | nil => exact wp_done hP h
  | cons a as ih =>
      rw [forEach_cons]
      refine wp_seq (hf a List.mem_cons_self l s h) fun _ l' s' h' => ?_
      exact ih (fun a' ha' => hf a' (List.mem_cons_of_mem _ ha')) h'

/-- A program that only leaves footprints in `N` behind carries every assertion
that is stable and survives those footprints. -/
theorem Emits.wp {N : Footprint κ ρ ω → Prop} {p : Txn σ κ ρ ω ε α} (hp : p.Emits N)
    {P : Footprint κ ρ ω → σ → Prop} (hP : D.Stable P)
    (hadd : ∀ l l' s, N l' → P l s → P (l.add l') s) {l : Footprint κ ρ ω} {s : σ}
    (h : P l s) : p.wp D (fun _ => P) l s := by
  induction p generalizing l s with
  | done a => exact wp_done hP h
  | fail e => trivial
  | stmt f k ih =>
      exact wp_stmt hP h fun env s' hs' _ => ih _ (hp.2 _) (hadd _ _ _ (hp.1 env _) hs')

/-- The same, where what a statement leaves behind depends on the rows it saw. -/
theorem Sends.wp {N : σ → Footprint κ ρ ω → Prop} {p : Txn σ κ ρ ω ε α} (hp : p.Sends N)
    {P : Footprint κ ρ ω → σ → Prop} (hP : D.Stable P)
    (hadd : ∀ l l' s, N (applyAll l.writes s) l' → D.admits l s l' → P l s → P (l.add l') s)
    {l : Footprint κ ρ ω} {s : σ} (h : P l s) : p.wp D (fun _ => P) l s := by
  induction p generalizing l s with
  | done a => exact wp_done hP h
  | fail e => trivial
  | stmt f k ih =>
      exact wp_stmt hP h fun env s' hs' hadm => ih _ (hp.2 _) (hadd _ _ _ (hp.1 env _) hadm hs')

/-- What is known of the footprint alone can be added to what is known of the store. -/
theorem Leaves.wp {Q : α → Footprint κ ρ ω → Prop} {p : Txn σ κ ρ ω ε α}
    {R : α → Footprint κ ρ ω → σ → Prop} {l : Footprint κ ρ ω} {s : σ} (hp : p.Leaves Q l)
    (h : p.wp D R l s) : p.wp D (fun a l s => R a l s ∧ Q a l) l s := by
  induction p generalizing l s with
  | done a => exact fun s' hr => ⟨h s' hr, hp⟩
  | fail e => trivial
  | stmt f k ih => exact fun s' hr env hadm => ih _ (hp env _) (h s' hr env hadm)

/-- The program can start in any state of the assertion and ends in it again. -/
def Carries (D : Discipline σ κ ρ ω) (P : Footprint κ ρ ω → σ → Prop)
    (p : Txn σ κ ρ ω ε α) : Prop :=
  ∀ l s, P l s → p.wp D (fun _ => P) l s

section Carries

variable {P : Footprint κ ρ ω → σ → Prop}

theorem Carries.closed (hP : D.Stable P) :
    Closed (fun {α} (p : Txn σ κ ρ ω ε α) => p.Carries D P) where
  done _ := fun _ _ h => wp_done hP h
  fail _ := fun _ _ _ => trivial
  bind hp hg := fun l s h => wp_seq (hp l s h) fun a l' s' h' => hg a l' s' h'

theorem Emits.carries {N : Footprint κ ρ ω → Prop} {p : Txn σ κ ρ ω ε α} (hp : p.Emits N)
    (hP : D.Stable P) (hadd : ∀ l l' s, N l' → P l s → P (l.add l') s) : p.Carries D P :=
  fun _ _ h => hp.wp hP hadd h

theorem Sends.carries {N : σ → Footprint κ ρ ω → Prop} {p : Txn σ κ ρ ω ε α} (hp : p.Sends N)
    (hP : D.Stable P)
    (hadd : ∀ l l' s, N (applyAll l.writes s) l' → D.admits l s l' → P l s → P (l.add l') s) :
    p.Carries D P :=
  fun _ _ h => hp.wp hP hadd h

end Carries

end Txn

/-! ### Soundness -/

namespace Discipline

variable [WriteTo ω σ] (D : Discipline σ κ ρ ω)

/-- What a discipline says of a whole system: the invariant holds, every
transaction in flight is on its way to a commit that keeps the discipline, and no
two of them hold the same lock. -/
structure Holds (S : System σ κ ρ ω ε) : Prop where
  inv : D.inv S.store
  sessions : ∀ t x, S.session t = some x → x.prog.wp D (fun _ => D.Commits) x.done S.store
  locks : ∀ t t' x x', t ≠ t' → S.session t = some x → S.session t' = some x' →
    ∀ k ∈ x.done.locks, k ∉ x'.done.locks

section Step

variable [DecidableEq κ]

/-- What a run must be known to do at an event: the statements it sends are
admitted, and a commit may land and heeds the reads the others remember. -/
def Respects (S : System σ κ ρ ω ε) : Event σ κ ρ ω ε → Prop
  | .stmt t env => ∀ x l y, S.session t = some x → S.next t env = some (l, y) →
      D.admits x.done S.store l
  | .commit t => ∀ x, S.session t = some x → D.lands x.done S.store ∧
      ∀ t' x', t' ≠ t → S.session t' = some x' →
        ∀ r ∈ x'.done.reads, D.heeds r S.store (applyAll x.done.writes S.store)
  | _ => True

end Step

variable {D}

theorem Holds.start {s : σ} (h : D.inv s) : D.Holds (System.start s : System σ κ ρ ω ε) where
  inv := h
  sessions t x hx := by simp at hx
  locks t t' x x' _ hx := by simp at hx

/-- What a transaction that is about to commit has made sure of. -/
theorem Holds.commits {S : System σ κ ρ ω ε} (hS : D.Holds S) {t : ℕ} {u : Unit}
    {l : Footprint κ ρ ω} (hx : S.session t = some ⟨.done u, l⟩) : D.Commits l S.store :=
  hS.sessions t _ hx S.store (.refl _ _)

variable [DecidableEq κ]

/-- One event keeps the discipline, and changes the store only as it allows. -/
theorem Holds.step {P : Txn σ κ ρ ω ε Unit → Prop}
    (hP : ∀ p, P p → ∀ s, D.inv s → p.wp D (fun _ => D.Commits) .empty s)
    {S S' : System σ κ ρ ω ε} {e : Event σ κ ρ ω ε} (hS : D.Holds S)
    (hbegin : ∀ p, e = .begin p → P p) (hresp : D.Respects S e) (hstep : S.step e = some S') :
    D.Holds S' ∧ D.guar S.store S'.store := by
  obtain ⟨p, rfl, rfl⟩ | ⟨t, env, x, y, l, rfl, hx, hnext, hfree, rfl⟩ |
    ⟨t, u, l, rfl, hx, rfl⟩ | ⟨t, x, rfl, hx, rfl⟩ := System.step_cases hstep
  · refine ⟨⟨hS.inv, fun t x hx => ?_, fun t t' x x' htt hx hx' k hk => ?_⟩, D.guar_refl _⟩
    · rw [System.session_enter] at hx
      split at hx
      · cases hx
        exact hP p (hbegin p rfl) _ hS.inv
      · exact hS.sessions t x hx
    · rw [System.session_enter] at hx hx'
      split at hx
      · cases hx; simp at hk
      · split at hx'
        · cases hx'; simp
        · exact hS.locks t t' x x' htt hx hx' k hk
  · -- A statement: nothing is committed, and the locks it takes were free.
    have hfree := System.free_iff.mp hfree
    obtain ⟨prog, done⟩ := x
    have hl : y.done = done.add l ∧ y.prog.wp D (fun _ => D.Commits) y.done S.store := by
      have hwp := hS.sessions t _ hx
      have hadm := hresp _ l y hx hnext
      cases prog with
      | done a => simp [System.next, hx] at hnext
      | fail a => simp [System.next, hx] at hnext
      | stmt f k =>
          simp only [System.next, hx, Option.some.injEq, Prod.mk.injEq] at hnext
          obtain ⟨rfl, rfl⟩ := hnext
          exact ⟨rfl, hwp S.store (.refl _ _) env hadm⟩
    refine ⟨⟨hS.inv, fun t' x' hx' => ?_, fun t₁ t₂ x₁ x₂ htt hx₁ hx₂ k hk => ?_⟩, D.guar_refl _⟩
    · rw [System.session_put hx] at hx'
      split at hx'
      · cases hx'; exact hl.2
      · exact hS.sessions t' x' hx'
    · rw [System.session_put hx] at hx₁ hx₂
      split at hx₁ <;> split at hx₂
      · exact absurd (by simp_all) htt
      · cases hx₁
        rw [hl.1, Footprint.add_locks, List.mem_append] at hk
        rcases hk with hk | hk
        · exact hS.locks t t₂ _ x₂ (by rintro rfl; contradiction) hx hx₂ k hk
        · exact hfree t₂ x₂ (by assumption) hx₂ k hk
      · cases hx₂
        rw [hl.1, Footprint.add_locks, List.mem_append, not_or]
        exact ⟨hS.locks t₁ t x₁ _ (by assumption) hx₁ hx k hk,
          fun hk' => hfree t₁ x₁ (by assumption) hx₁ k hk' hk⟩
      · exact hS.locks t₁ t₂ x₁ x₂ htt hx₁ hx₂ k hk
  · -- A commit: what it owes the others is what they rely on.
    obtain ⟨hlands, hheeds⟩ := hresp _ hx
    have hcommit : D.Keeps l S.store := hS.sessions t _ hx S.store (.refl _ _) hlands
    refine ⟨⟨hcommit.inv, fun t' x' hx' => ?_, fun t₁ t₂ x₁ x₂ htt hx₁ hx₂ => ?_⟩, hcommit.guar⟩
    · change (S.put t none).session t' = some x' at hx'
      rw [System.session_put hx] at hx'
      split at hx'
      · cases hx'
      · rename_i htt
        refine Txn.wp_rely (hS.sessions t' x' hx') ⟨fun _ => hcommit.inv, hcommit.guar,
          fun k hk => hcommit.keeps k (hS.locks t' t x' _ htt hx' hx k hk),
          fun r hr => hheeds t' x' htt hx' r hr⟩
    · change (S.put t none).session t₁ = some x₁ at hx₁
      change (S.put t none).session t₂ = some x₂ at hx₂
      rw [System.session_put hx] at hx₁ hx₂
      split at hx₁ <;> split at hx₂
      · cases hx₁
      · cases hx₁
      · cases hx₂
      · exact hS.locks t₁ t₂ x₁ x₂ htt hx₁ hx₂
  · refine ⟨⟨hS.inv, fun t' x' hx' => ?_, fun t₁ t₂ x₁ x₂ htt hx₁ hx₂ => ?_⟩, D.guar_refl _⟩
    · rw [System.session_put hx] at hx'
      split at hx'
      · cases hx'
      · exact hS.sessions t' x' hx'
    · rw [System.session_put hx] at hx₁ hx₂
      split at hx₁ <;> split at hx₂
      · cases hx₁
      · cases hx₁
      · cases hx₂
      · exact hS.locks t₁ t₂ x₁ x₂ htt hx₁ hx₂

/-- **Soundness.** If every program keeps the discipline on its own, so does every
run of them that respects it, whatever the interleaving. -/
theorem sound {P : Txn σ κ ρ ω ε Unit → Prop} {C : System σ κ ρ ω ε → Event σ κ ρ ω ε → Prop}
    (hP : ∀ p, P p → ∀ s, D.inv s → p.wp D (fun _ => D.Commits) .empty s)
    (hC : ∀ S e, C S e → D.Respects S e) {S S' : System σ κ ρ ω ε}
    {es : List (Event σ κ ρ ω ε)} (hS : D.Holds S) (h : Run P C S es S') :
    D.Holds S' ∧ D.guar S.store S'.store := by
  induction h with
  | nil => exact ⟨hS, D.guar_refl _⟩
  | snoc e _ hbegin hCe hstep ih =>
      obtain ⟨hS', hguar⟩ := ih
      obtain ⟨hS'', hguar'⟩ := hS'.step hP hbegin (hC _ _ hCe) hstep
      exact ⟨hS'', D.guar_trans _ _ _ hguar hguar'⟩

end Discipline

end ReadCommitted
