import Mathlib.Data.Int.Notation
import Mathlib.Data.List.Basic
import Mathlib.Tactic.Common

/-!
Transactions as sequences of statements.

A transaction is a tree: it has returned, it has thrown, or it is about to send
one statement and continues with the answer. A statement is a function of the
rows it can see; what it leaves behind is a `Footprint`: the row locks it took,
what it wants remembered of its reads, and the writes it made. Nothing here says
which rows there are. The store `σ`, the lockable keys `κ`, the remembered reads
`ρ`, the writes `ω` and the errors `ε` are parameters, and a write is anything
that can be applied to a store.

Programs are written once, with `do`. This file gives them their meaning when
they run alone (`Txn.run`) and the rules for reasoning about that meaning
(`Txn.wlp`); `System` gives the same programs their meaning when they
interleave.
-/

namespace ReadCommitted

/-- A write is something that changes a store. -/
class WriteTo (ω σ : Type) where
  apply : ω → σ → σ

/-- What a statement is answered from outside the database: a clock reading and
a newly drawn identifier. Nothing is assumed of either. -/
structure Env where
  now : ℤ
  uuid : ℕ
  deriving Inhabited

/-- What statements leave behind in the transaction that ran them. -/
structure Footprint (κ ρ ω : Type) where
  locks : List κ := []
  reads : List ρ := []
  writes : List ω := []

/-- A statement's footprint together with its answer. -/
structure Effect (κ ρ ω β : Type) extends Footprint κ ρ ω where
  ret : β

/-- A transaction: returned, thrown, or about to send a statement. -/
inductive Txn (σ κ ρ ω ε α : Type) : Type 1
  | done (a : α)
  | fail (e : ε)
  | stmt {β : Type} (f : Env → σ → Effect κ ρ ω β) (k : β → Txn σ κ ρ ω ε α)

variable {σ κ ρ ω ε α β : Type}

namespace Footprint

/-- The empty footprint of a transaction that has only begun. -/
def empty : Footprint κ ρ ω := {}

/-- What is left behind by one statement more. -/
def add (l l' : Footprint κ ρ ω) : Footprint κ ρ ω :=
  ⟨l.locks ++ l'.locks, l.reads ++ l'.reads, l.writes ++ l'.writes⟩

@[simp] theorem empty_locks : (empty : Footprint κ ρ ω).locks = [] := rfl
@[simp] theorem empty_reads : (empty : Footprint κ ρ ω).reads = [] := rfl
@[simp] theorem empty_writes : (empty : Footprint κ ρ ω).writes = [] := rfl
@[simp] theorem add_locks (l l' : Footprint κ ρ ω) : (l.add l').locks = l.locks ++ l'.locks := rfl
@[simp] theorem add_reads (l l' : Footprint κ ρ ω) : (l.add l').reads = l.reads ++ l'.reads := rfl
@[simp] theorem add_writes (l l' : Footprint κ ρ ω) :
    (l.add l').writes = l.writes ++ l'.writes := rfl

@[simp] theorem add_empty (l : Footprint κ ρ ω) : l.add .empty = l := by
  cases l
  simp [add]

end Footprint

/-! ### Applying writes -/

section Writes

variable [WriteTo ω σ]

/-- The store after a list of writes, oldest first. -/
def applyAll (ws : List ω) (s : σ) : σ := ws.foldl (fun s w => WriteTo.apply w s) s

@[simp] theorem applyAll_nil (s : σ) : applyAll ([] : List ω) s = s := rfl

@[simp] theorem applyAll_cons (w : ω) (ws : List ω) (s : σ) :
    applyAll (w :: ws) s = applyAll ws (WriteTo.apply w s) := rfl

theorem applyAll_append (ws ws' : List ω) (s : σ) :
    applyAll (ws ++ ws') s = applyAll ws' (applyAll ws s) := by
  simp [applyAll]

/-- A part of the store that no write of the list touches. -/
theorem applyAll_frame {τ : Type} (π : σ → τ) {ws : List ω}
    (h : ∀ w ∈ ws, ∀ s, π (WriteTo.apply w s) = π s) (s : σ) : π (applyAll ws s) = π s := by
  induction ws generalizing s with
  | nil => rfl
  | cons w ws ih =>
      rw [applyAll_cons, ih (fun w' hw' => h w' (List.mem_cons_of_mem _ hw'))]
      exact h w List.mem_cons_self s

/-- **Abstraction of writes.** Where a part `π` of the store is changed by every
write as `act` says, and `act` ignores the writes outside `rel`, only the writes
in `rel` count for that part. -/
theorem applyAll_abstract {τ : Type} (π : σ → τ) (act : ω → τ → τ) (rel : ω → Bool)
    (hact : ∀ w s, π (WriteTo.apply w s) = act w (π s))
    (hrel : ∀ w, rel w = false → ∀ x, act w x = x) (ws : List ω) (s : σ) :
    π (applyAll ws s) = (ws.filter rel).foldl (fun x w => act w x) (π s) := by
  induction ws generalizing s with
  | nil => rfl
  | cons w ws ih =>
      rw [applyAll_cons, ih, hact]
      cases hw : rel w with
      | true => simp [hw]
      | false => simp [hw, hrel w hw]

end Writes

namespace Txn

/-! ### Programs -/

/-- Sequencing: the statements of `p`, then those of `g` on its result. -/
def bind (p : Txn σ κ ρ ω ε α) (g : α → Txn σ κ ρ ω ε β) : Txn σ κ ρ ω ε β :=
  match p with
  | .done a => g a
  | .fail e => .fail e
  | .stmt f k => .stmt f fun b => (k b).bind g

instance : Monad (Txn σ κ ρ ω ε) where
  pure := .done
  bind := bind

/-- Giving up: the caller rolls the transaction back. -/
def throw (e : ε) : Txn σ κ ρ ω ε α := .fail e

/-- A check that gives up. -/
def throwIf (c : Prop) [Decidable c] (e : ε) : Txn σ κ ρ ω ε Unit := if c then throw e else .done ()

/-- A read that only returns what it saw. -/
def query (f : σ → β) : Txn σ κ ρ ω ε β := .stmt (fun _ v => { ret := f v }) .done

/-- A read that is remembered. -/
def read (f : σ → β) (r : σ → List ρ) : Txn σ κ ρ ω ε β :=
  .stmt (fun _ v => { reads := r v, ret := f v }) .done

/-- The clock of the process that runs the transaction. -/
def clock : Txn σ κ ρ ω ε ℤ := .stmt (fun env _ => { ret := env.now }) .done

/-- A newly drawn identifier. -/
def uuid : Txn σ κ ρ ω ε ℕ := .stmt (fun env _ => { ret := env.uuid }) .done

/-- A statement that takes locks and writes, both read off the rows it sees. -/
def exec (locks : σ → List κ) (writes : σ → List ω) : Txn σ κ ρ ω ε Unit :=
  .stmt (fun _ v => { locks := locks v, writes := writes v, ret := () }) .done

/-- A statement that locks and writes only where `p` holds of the rows it sees, and
answers whether it did: an `UPDATE` with its `WHERE`, an `INSERT` with the keys
it must find free. -/
def writeWhen (p : σ → Bool) (locks : List κ) (writes : List ω) : Txn σ κ ρ ω ε Bool :=
  .stmt (fun _ v => if p v then { locks, writes, ret := true } else { ret := false }) .done

/-- A program for every element of a list in turn. -/
def forEach (f : α → Txn σ κ ρ ω ε Unit) : List α → Txn σ κ ρ ω ε Unit
  | [] => .done ()
  | a :: as => (f a).bind fun _ => forEach f as

@[simp] theorem forEach_nil (f : α → Txn σ κ ρ ω ε Unit) : forEach f [] = .done () := rfl

@[simp] theorem forEach_cons (f : α → Txn σ κ ρ ω ε Unit) (a : α) (as : List α) :
    forEach f (a :: as) = (f a >>= fun _ => forEach f as) := rfl

/-- A program whose result nobody looks at. -/
def void (p : Txn σ κ ρ ω ε α) : Txn σ κ ρ ω ε Unit := p.bind fun _ => .done ()

@[simp] theorem pure_eq (a : α) : (pure a : Txn σ κ ρ ω ε α) = .done a := rfl

@[simp] theorem done_bind (a : α) (g : α → Txn σ κ ρ ω ε β) : (Txn.done a >>= g) = g a := rfl

@[simp] theorem fail_bind (e : ε) (g : α → Txn σ κ ρ ω ε β) :
    ((Txn.fail e : Txn σ κ ρ ω ε α) >>= g) = .fail e := rfl

@[simp] theorem throw_bind (e : ε) (g : α → Txn σ κ ρ ω ε β) :
    ((throw e : Txn σ κ ρ ω ε α) >>= g) = .fail e := rfl

@[simp] theorem stmt_bind {γ : Type} (f : Env → σ → Effect κ ρ ω γ)
    (k : γ → Txn σ κ ρ ω ε α) (g : α → Txn σ κ ρ ω ε β) :
    (Txn.stmt f k >>= g) = .stmt f fun b => k b >>= g := rfl

theorem bind_assoc {γ : Type} (p : Txn σ κ ρ ω ε α) (g : α → Txn σ κ ρ ω ε β)
    (h : β → Txn σ κ ρ ω ε γ) : (p >>= g) >>= h = p >>= fun a => g a >>= h := by
  induction p with
  | done a => rfl
  | fail e => rfl
  | stmt f k ih =>
      simp only [stmt_bind]
      congr 1
      funext b
      exact ih b

/-! ### Running alone -/

section Alone

variable [WriteTo ω σ]

/-- A transaction that nothing interleaves with: each statement sees the writes
of the ones before it, and `envs` answers for the clock and the identifiers. A
throw undoes everything, so it returns no store. -/
def run (envs : ℕ → Env) : Txn σ κ ρ ω ε α → ℕ → σ → Except ε (α × σ)
  | .done a, _, v => .ok (a, v)
  | .fail e, _, _ => .error e
  | .stmt f k, n, v =>
      run envs (k (f (envs n) v).ret) (n + 1) (applyAll (f (envs n) v).writes v)

/-- What must hold before `p` runs alone for `Q` to hold of its result and the
store it leaves: `E` is what is allowed of an error, and `V` what may be relied
on of the outside world at each statement. -/
def wlp (E : ε → Prop) (V : Env → σ → Prop) :
    Txn σ κ ρ ω ε α → (α → σ → Prop) → σ → Prop
  | .done a, Q, v => Q a v
  | .fail e, _, _ => E e
  | .stmt f k, Q, v =>
      ∀ env, V env v → wlp E V (k (f env v).ret) Q (applyAll (f env v).writes v)

variable {E : ε → Prop} {V : Env → σ → Prop}

@[simp] theorem wlp_done (a : α) (Q : α → σ → Prop) (v : σ) :
    (Txn.done a : Txn σ κ ρ ω ε α).wlp E V Q v ↔ Q a v := Iff.rfl

@[simp] theorem wlp_pure (a : α) (Q : α → σ → Prop) (v : σ) :
    (pure a : Txn σ κ ρ ω ε α).wlp E V Q v ↔ Q a v := Iff.rfl

@[simp] theorem wlp_fail (e : ε) (Q : α → σ → Prop) (v : σ) :
    (Txn.fail e : Txn σ κ ρ ω ε α).wlp E V Q v ↔ E e := Iff.rfl

@[simp] theorem wlp_throw (e : ε) (Q : α → σ → Prop) (v : σ) :
    (throw e : Txn σ κ ρ ω ε α).wlp E V Q v ↔ E e := Iff.rfl

@[simp] theorem wlp_stmt {γ : Type} (f : Env → σ → Effect κ ρ ω γ) (k : γ → Txn σ κ ρ ω ε α)
    (Q : α → σ → Prop) (v : σ) :
    (Txn.stmt f k).wlp E V Q v ↔
      ∀ env, V env v → (k (f env v).ret).wlp E V Q (applyAll (f env v).writes v) := Iff.rfl

@[simp] theorem wlp_bind (p : Txn σ κ ρ ω ε α) (g : α → Txn σ κ ρ ω ε β)
    (Q : β → σ → Prop) (v : σ) :
    (p >>= g).wlp E V Q v ↔ p.wlp E V (fun a v => (g a).wlp E V Q v) v := by
  induction p generalizing v with
  | done a => rfl
  | fail e => rfl
  | stmt f k ih =>
      simp only [stmt_bind, wlp_stmt]
      exact forall_congr' fun env => imp_congr_right fun _ => ih _ _

@[simp] theorem wlp_exec (locks : σ → List κ) (writes : σ → List ω) (Q : Unit → σ → Prop) (v : σ) :
    (exec locks writes : Txn σ κ ρ ω ε Unit).wlp E V Q v ↔
      ∀ env, V env v → Q () (applyAll (writes v) v) := Iff.rfl

@[simp] theorem wlp_query (f : σ → β) (Q : β → σ → Prop) (v : σ) :
    (query f : Txn σ κ ρ ω ε β).wlp E V Q v ↔ ∀ env, V env v → Q (f v) v := Iff.rfl

@[simp] theorem wlp_clock (Q : ℤ → σ → Prop) (v : σ) :
    (clock : Txn σ κ ρ ω ε ℤ).wlp E V Q v ↔ ∀ env, V env v → Q env.now v := Iff.rfl

@[simp] theorem wlp_uuid (Q : ℕ → σ → Prop) (v : σ) :
    (uuid : Txn σ κ ρ ω ε ℕ).wlp E V Q v ↔ ∀ env, V env v → Q env.uuid v := Iff.rfl

@[simp] theorem wlp_writeWhen (p : σ → Bool) (locks : List κ) (writes : List ω)
    (Q : Bool → σ → Prop) (v : σ) :
    (writeWhen p locks writes : Txn σ κ ρ ω ε Bool).wlp E V Q v ↔
      ∀ env, V env v → if p v then Q true (applyAll writes v) else Q false v := by
  simp only [writeWhen, wlp_stmt]
  refine forall_congr' fun env => imp_congr_right fun _ => ?_
  split <;> rfl

@[simp] theorem wlp_void (p : Txn σ κ ρ ω ε α) (Q : Unit → σ → Prop) (v : σ) :
    p.void.wlp E V Q v ↔ p.wlp E V (fun _ => Q ()) v :=
  wlp_bind p (fun _ => .done ()) Q v

/-- The rule of consequence. -/
theorem wlp_mono {p : Txn σ κ ρ ω ε α} {Q Q' : α → σ → Prop} {v : σ}
    (h : p.wlp E V Q v) (hQ : ∀ a v, Q a v → Q' a v) : p.wlp E V Q' v := by
  induction p generalizing v with
  | done a => exact hQ a v h
  | fail e => exact h
  | stmt f k ih => exact fun env henv => ih _ (h env henv)

theorem wlp_and {p : Txn σ κ ρ ω ε α} {Q Q' : α → σ → Prop} {v : σ} (h : p.wlp E V Q v)
    (h' : p.wlp E V Q' v) : p.wlp E V (fun a v => Q a v ∧ Q' a v) v := by
  induction p generalizing v with
  | done a => exact ⟨h, h'⟩
  | fail e => exact h
  | stmt f k ih => exact fun env henv => ih _ (h env henv) (h' env henv)

/-- A loop keeps what each of its rounds keeps. -/
theorem wlp_forEach {f : α → Txn σ κ ρ ω ε Unit} {as : List α} {I : σ → Prop} {v : σ}
    (h : ∀ a ∈ as, ∀ v, I v → (f a).wlp E V (fun _ => I) v) (hv : I v) :
    (forEach f as).wlp E V (fun _ => I) v := by
  induction as generalizing v with
  | nil => exact hv
  | cons a as ih =>
      rw [forEach_cons, wlp_bind]
      refine wlp_mono (h a List.mem_cons_self v hv) fun _ v' hv' => ?_
      exact ih (fun a' ha' => h a' (List.mem_cons_of_mem _ ha')) hv'

/-- The meaning of `wlp`: it bounds every run whose outside world keeps `V`. -/
theorem wlp_run {p : Txn σ κ ρ ω ε α} {Q : α → σ → Prop} {v : σ} (h : p.wlp E V Q v)
    (envs : ℕ → Env) (hV : ∀ n v, V (envs n) v) (n : ℕ) :
    match p.run envs n v with
    | .ok (a, v') => Q a v'
    | .error e => E e := by
  induction p generalizing v n with
  | done a => exact h
  | fail e => exact h
  | stmt f k ih => exact ih _ (h (envs n) (hV n v)) (n + 1)

/-- Whatever the outside world answers, if `p` commits it does so in `Q`. -/
abbrev commits (p : Txn σ κ ρ ω ε α) (Q : α → σ → Prop) (v : σ) : Prop :=
  p.wlp (fun _ => True) (fun _ _ => True) Q v

theorem commits_writeWhen {p : σ → Bool} {locks : List κ} {writes : List ω}
    {Q : Bool → σ → Prop} {v : σ} (htrue : p v = true → Q true (applyAll writes v))
    (hfalse : p v = false → Q false v) :
    (writeWhen p locks writes : Txn σ κ ρ ω ε Bool).commits Q v := by
  rw [commits, wlp_writeWhen]
  intro _ _
  cases hp : p v with
  | true => exact htrue hp
  | false => exact hfalse hp

theorem run_writeWhen {p : σ → Bool} {locks : List κ} {writes : List ω}
    {g : Bool → Txn σ κ ρ ω ε β} (envs : ℕ → Env) (n : ℕ) (v : σ) :
    (writeWhen p locks writes >>= g).run envs n v =
      if p v then (g true).run envs (n + 1) (applyAll writes v)
      else (g false).run envs (n + 1) v := by
  simp only [writeWhen, stmt_bind, done_bind, run]
  split <;> rfl

/-- The part of `wlp_run` that speaks of the runs that commit. -/
theorem commits_run {p : Txn σ κ ρ ω ε α} {Q : α → σ → Prop} {v v' : σ} {a : α}
    (h : p.commits Q v) {envs : ℕ → Env} {n : ℕ}
    (hrun : p.run envs n v = .ok (a, v')) : Q a v' := by
  have := wlp_run h envs (fun _ _ => trivial) n
  rwa [hrun] at this

end Alone

/-! ### What holds of a program because it holds of its parts -/

/-- A property of programs that sequencing keeps. -/
structure Closed (Φ : ∀ {α : Type}, Txn σ κ ρ ω ε α → Prop) : Prop where
  done : ∀ {α : Type} (a : α), Φ (.done a : Txn σ κ ρ ω ε α)
  fail : ∀ {α : Type} (e : ε), Φ (.fail e : Txn σ κ ρ ω ε α)
  bind : ∀ {α β : Type} {p : Txn σ κ ρ ω ε α} {g : α → Txn σ κ ρ ω ε β}, Φ p →
    (∀ a, Φ (g a)) → Φ (p >>= g)

section Closed

variable {Φ : ∀ {α : Type}, Txn σ κ ρ ω ε α → Prop}

theorem Closed.ite (_ : Closed Φ) {c : Prop} [Decidable c] {p q : Txn σ κ ρ ω ε α} (hp : Φ p)
    (hq : Φ q) : Φ (if c then p else q) := by
  split
  · exact hp
  · exact hq

theorem Closed.forEach (h : Closed Φ) {f : α → Txn σ κ ρ ω ε Unit} {as : List α}
    (hf : ∀ a ∈ as, Φ (f a)) : Φ (forEach f as) := by
  induction as with
  | nil => exact h.done ()
  | cons a as ih =>
      rw [forEach_cons]
      exact h.bind (hf a List.mem_cons_self) fun _ =>
        ih fun a' ha' => hf a' (List.mem_cons_of_mem _ ha')

theorem Closed.void (h : Closed Φ) {p : Txn σ κ ρ ω ε α} (hp : Φ p) : Φ p.void :=
  h.bind hp fun _ => h.done ()

end Closed

/-! ### What a program can write

Most of a transaction does not touch the part of the store a result is about.
`Emits` says what a program can leave behind, read off its statements; `Emits.wlp`
carries an assertion over such a program without looking into it, and `Emits.wp`
does the same among other transactions. -/

/-- Every statement of the program leaves a footprint satisfying `N`. -/
def Emits (N : Footprint κ ρ ω → Prop) : Txn σ κ ρ ω ε α → Prop
  | .done _ => True
  | .fail _ => True
  | .stmt f k => (∀ env v, N (f env v).toFootprint) ∧ ∀ b, (k b).Emits N

section Emits

variable {N : Footprint κ ρ ω → Prop}

@[simp] theorem emits_done (a : α) : (Txn.done a : Txn σ κ ρ ω ε α).Emits N := trivial

@[simp] theorem emits_pure (a : α) : (pure a : Txn σ κ ρ ω ε α).Emits N := trivial

@[simp] theorem emits_fail (e : ε) : (Txn.fail e : Txn σ κ ρ ω ε α).Emits N := trivial

@[simp] theorem emits_throw (e : ε) : (throw e : Txn σ κ ρ ω ε α).Emits N := trivial

@[simp] theorem emits_stmt {γ : Type} (f : Env → σ → Effect κ ρ ω γ)
    (k : γ → Txn σ κ ρ ω ε α) :
    (Txn.stmt f k).Emits N ↔ (∀ env v, N (f env v).toFootprint) ∧ ∀ b, (k b).Emits N := Iff.rfl

theorem Emits.bind {p : Txn σ κ ρ ω ε α} {g : α → Txn σ κ ρ ω ε β} (hp : p.Emits N)
    (hg : ∀ a, (g a).Emits N) : (p >>= g).Emits N := by
  induction p with
  | done a => exact hg a
  | fail e => trivial
  | stmt f k ih => exact ⟨hp.1, fun b => ih b (hp.2 b)⟩

theorem Emits.forEach {f : α → Txn σ κ ρ ω ε Unit} {as : List α}
    (h : ∀ a ∈ as, (f a).Emits N) : (forEach f as).Emits N := by
  induction as with
  | nil => trivial
  | cons a as ih =>
      rw [forEach_cons]
      exact (h a List.mem_cons_self).bind fun _ =>
        ih fun a' ha' => h a' (List.mem_cons_of_mem _ ha')

theorem Emits.mono {N' : Footprint κ ρ ω → Prop} {p : Txn σ κ ρ ω ε α} (hp : p.Emits N)
    (h : ∀ l, N l → N' l) : p.Emits N' := by
  induction p with
  | done a => trivial
  | fail e => trivial
  | stmt f k ih => exact ⟨fun env v => h _ (hp.1 env v), fun b => ih b (hp.2 b)⟩

theorem Emits.ite {c : Prop} [Decidable c] {p q : Txn σ κ ρ ω ε α} (hp : p.Emits N)
    (hq : q.Emits N) : (if c then p else q).Emits N := by
  split
  · exact hp
  · exact hq

theorem Emits.closed (N : Footprint κ ρ ω → Prop) :
    Closed (fun {α} (p : Txn σ κ ρ ω ε α) => p.Emits N) where
  done _ := trivial
  fail _ := trivial
  bind := Emits.bind

/-- Every error the program can throw satisfies `E`. -/
def Throws (E : ε → Prop) : Txn σ κ ρ ω ε α → Prop
  | .done _ => True
  | .fail e => E e
  | .stmt _ k => ∀ b, (k b).Throws E

theorem Throws.all {E : ε → Prop} (h : ∀ e, E e) (p : Txn σ κ ρ ω ε α) : p.Throws E := by
  induction p with
  | done a => trivial
  | fail e => exact h e
  | stmt f k ih => exact ih

theorem Throws.bind {E : ε → Prop} {p : Txn σ κ ρ ω ε α} {g : α → Txn σ κ ρ ω ε β}
    (hp : p.Throws E) (hg : ∀ a, (g a).Throws E) : (p >>= g).Throws E := by
  induction p with
  | done a => exact hg a
  | fail e => exact hp
  | stmt f k ih => exact fun b => ih b (hp b)

theorem Throws.forEach {E : ε → Prop} {f : α → Txn σ κ ρ ω ε Unit} {as : List α}
    (h : ∀ a ∈ as, (f a).Throws E) : (forEach f as).Throws E := by
  induction as with
  | nil => trivial
  | cons a as ih =>
      rw [forEach_cons]
      exact (h a List.mem_cons_self).bind fun _ =>
        ih fun a' ha' => h a' (List.mem_cons_of_mem _ ha')

theorem Throws.ite {E : ε → Prop} {c : Prop} [Decidable c] {p q : Txn σ κ ρ ω ε α}
    (hp : p.Throws E) (hq : q.Throws E) : (if c then p else q).Throws E := by
  split
  · exact hp
  · exact hq

theorem Throws.mono {E E' : ε → Prop} {p : Txn σ κ ρ ω ε α} (hp : p.Throws E)
    (h : ∀ e, E e → E' e) : p.Throws E' := by
  induction p with
  | done a => trivial
  | fail e => exact h e hp
  | stmt f k ih => exact fun b => ih b (hp b)

/-- An assertion that every write in `N` keeps, over a program that runs alone. -/
theorem Emits.wlp [WriteTo ω σ] {E : ε → Prop} {V : Env → σ → Prop} {p : Txn σ κ ρ ω ε α}
    (hp : p.Emits N) {P : σ → Prop} (hE : p.Throws E)
    (hP : ∀ l : Footprint κ ρ ω, N l → ∀ v, P v → P (applyAll l.writes v)) {v : σ} (hv : P v) :
    p.wlp E V (fun _ v => P v) v := by
  induction p generalizing v with
  | done a => exact hv
  | fail e => exact hE
  | stmt f k ih => exact fun env _ => ih _ (hp.2 _) (hE _) (hP _ (hp.1 env v) v hv)

/-- Every value that the program can return is in `R`. -/
def Returns (R : α → Prop) : Txn σ κ ρ ω ε α → Prop
  | .done a => R a
  | .fail _ => True
  | .stmt _ k => ∀ b, (k b).Returns R

theorem Returns.bind {R : α → Prop} {R' : β → Prop} {p : Txn σ κ ρ ω ε α}
    {g : α → Txn σ κ ρ ω ε β} (hp : p.Returns R) (hg : ∀ a, R a → (g a).Returns R') :
    (p >>= g).Returns R' := by
  induction p with
  | done a => exact hg a hp
  | fail e => trivial
  | stmt f k ih => exact fun b => ih b (hp b)

theorem Returns.of_forall {R : α → Prop} (h : ∀ a, R a) (p : Txn σ κ ρ ω ε α) : p.Returns R := by
  induction p with
  | done a => exact h a
  | fail e => trivial
  | stmt f k ih => exact fun b => ih b

/-- Sequencing, where the rest only has to cope with what is returned. -/
theorem Emits.bind_returns {R : α → Prop} {p : Txn σ κ ρ ω ε α} {g : α → Txn σ κ ρ ω ε β}
    (hp : p.Emits N) (hr : p.Returns R) (hg : ∀ a, R a → (g a).Emits N) : (p >>= g).Emits N := by
  induction p with
  | done a => exact hg a hr
  | fail e => trivial
  | stmt f k ih => exact ⟨hp.1, fun b => ih b (hp.2 b) (hr b)⟩

end Emits

/-! ### What a program does where it is

`Emits` forgets the rows a statement saw. `Sends` keeps them: it says of every
statement how its footprint depends on the rows it was sent on. `Leaves` says what
the whole footprint of the transaction is in the end, whatever its statements saw. -/

/-- Every statement of the program, sent on the rows `v`, leaves a footprint in `N v`. -/
def Sends (N : σ → Footprint κ ρ ω → Prop) : Txn σ κ ρ ω ε α → Prop
  | .done _ => True
  | .fail _ => True
  | .stmt f k => (∀ env v, N v (f env v).toFootprint) ∧ ∀ b, (k b).Sends N

section Sends

variable {N : σ → Footprint κ ρ ω → Prop}

theorem Emits.sends {N' : Footprint κ ρ ω → Prop} {p : Txn σ κ ρ ω ε α} (hp : p.Emits N')
    (h : ∀ v l, N' l → N v l) : p.Sends N := by
  induction p with
  | done a => trivial
  | fail e => trivial
  | stmt f k ih => exact ⟨fun env v => h _ _ (hp.1 env v), fun b => ih b (hp.2 b)⟩

theorem Sends.bind {p : Txn σ κ ρ ω ε α} {g : α → Txn σ κ ρ ω ε β} (hp : p.Sends N)
    (hg : ∀ a, (g a).Sends N) : (p >>= g).Sends N := by
  induction p with
  | done a => exact hg a
  | fail e => trivial
  | stmt f k ih => exact ⟨hp.1, fun b => ih b (hp.2 b)⟩

theorem Sends.writeWhen {p : σ → Bool} {locks : List κ} {writes : List ω}
    (htrue : ∀ v, p v = true → N v ⟨locks, [], writes⟩) (hfalse : ∀ v, N v .empty) :
    (writeWhen p locks writes : Txn σ κ ρ ω ε Bool).Sends N := by
  refine ⟨fun _ v => ?_, fun _ => trivial⟩
  cases hp : p v with
  | true =>
      simp only [hp, if_true]
      exact htrue v hp
  | false =>
      simp only [hp, Bool.false_eq_true, if_false]
      exact hfalse v

theorem Sends.closed (N : σ → Footprint κ ρ ω → Prop) :
    Closed (fun {α} (p : Txn σ κ ρ ω ε α) => p.Sends N) where
  done _ := trivial
  fail _ := trivial
  bind := Sends.bind

end Sends

/-- Whatever its statements see and are answered, a transaction that began with the
footprint `l` ends in one satisfying `Q`. -/
def Leaves (Q : α → Footprint κ ρ ω → Prop) : Txn σ κ ρ ω ε α → Footprint κ ρ ω → Prop
  | .done a, l => Q a l
  | .fail _, _ => True
  | .stmt f k, l => ∀ env v, (k (f env v).ret).Leaves Q (l.add (f env v).toFootprint)

section Leaves

theorem Leaves.mono {Q Q' : α → Footprint κ ρ ω → Prop} {p : Txn σ κ ρ ω ε α}
    {l : Footprint κ ρ ω} (h : p.Leaves Q l) (hQ : ∀ a l, Q a l → Q' a l) : p.Leaves Q' l := by
  induction p generalizing l with
  | done a => exact hQ _ _ h
  | fail e => trivial
  | stmt f k ih => exact fun env v => ih _ (h env v)

theorem Leaves.and {Q Q' : α → Footprint κ ρ ω → Prop} {p : Txn σ κ ρ ω ε α}
    {l : Footprint κ ρ ω} (h : p.Leaves Q l) (h' : p.Leaves Q' l) :
    p.Leaves (fun a l => Q a l ∧ Q' a l) l := by
  induction p generalizing l with
  | done a => exact ⟨h, h'⟩
  | fail e => trivial
  | stmt f k ih => exact fun env v => ih _ (h env v) (h' env v)

theorem Leaves.bind {p : Txn σ κ ρ ω ε α} {g : α → Txn σ κ ρ ω ε β}
    {Q : β → Footprint κ ρ ω → Prop} {l : Footprint κ ρ ω}
    (h : p.Leaves (fun a l => (g a).Leaves Q l) l) : (p >>= g).Leaves Q l := by
  induction p generalizing l with
  | done a => exact h
  | fail e => trivial
  | stmt f k ih => exact fun env v => ih _ (h env v)

theorem Leaves.of_forall {Q : α → Footprint κ ρ ω → Prop} (h : ∀ a l, Q a l)
    (p : Txn σ κ ρ ω ε α) (l : Footprint κ ρ ω) : p.Leaves Q l := by
  induction p generalizing l with
  | done a => exact h a l
  | fail e => trivial
  | stmt f k ih => exact fun env v => ih _ _

/-- Sequencing through an intermediate assertion. -/
theorem Leaves.seq {p : Txn σ κ ρ ω ε α} {g : α → Txn σ κ ρ ω ε β}
    {R : α → Footprint κ ρ ω → Prop} {Q : β → Footprint κ ρ ω → Prop} {l : Footprint κ ρ ω}
    (hp : p.Leaves R l) (hg : ∀ a l, R a l → (g a).Leaves Q l) : (p >>= g).Leaves Q l :=
  .bind (hp.mono hg)

/-- A program keeps an assertion that the footprints of its statements keep. -/
theorem Emits.leaves {N : Footprint κ ρ ω → Prop} {p : Txn σ κ ρ ω ε α} (hp : p.Emits N)
    {P : Footprint κ ρ ω → Prop} (hadd : ∀ l l', N l' → P l → P (l.add l'))
    {l : Footprint κ ρ ω} (h : P l) : p.Leaves (fun _ => P) l := by
  induction p generalizing l with
  | done a => exact h
  | fail e => trivial
  | stmt f k ih => exact fun env v => ih _ (hp.2 _) (hadd _ _ (hp.1 env v) h)

end Leaves

end Txn

end ReadCommitted
