import Mathlib.Algebra.Order.Group.Int
import Mathlib.Data.Set.Function
import Mathlib.Order.Basic
import Mathlib.Tactic.Common
import RestiqBackend.Serial

/-!
The sign-in throttle (`src/platform/attempt-limiter.ts`).

Every check of a secret is counted before it is made, in one upsert for each of its keys, and
a check that turns out right gives its counts back. A window is fixed: it starts with the
first attempt after the last one was over. What is given back is taken off whatever window
the key is in by then; the count it was for may be in an earlier one. A machine with one step for
each statement says what the requests do to the table, and a ghost column of a request says
which windows it was counted in.
-/

namespace RestiqBackend.Attempts

/-! ### Rules -/

/-- The keys that attempts are counted by, of a till's PIN, of a manager's approval and of an
owner's password. -/
inductive AttemptKey
  | posPinDevice (tenantId deviceId : ℕ)
  | posPinIp (tenantId : ℕ) (ip : String)
  | posPinUntrusted (tenantId : ℕ)
  | managerPin (tenantId requesterId : ℕ)
  | ownerLoginEmail (email : String)
  | ownerLoginIp (ip : String)
  deriving DecidableEq

/-- Attempts allowed per window; the next one is refused. -/
def AttemptKey.max : AttemptKey → ℕ
  | .posPinDevice .. | .posPinIp .. => 10
  | .posPinUntrusted _ => 30
  | .managerPin .. => 5
  | .ownerLoginEmail _ => 5
  | .ownerLoginIp _ => 30

def AttemptKey.windowSeconds : AttemptKey → ℤ
  | .posPinUntrusted _ => 60 * 60
  | _ => 15 * 60

/-- Who asks for a secret to be checked. A till that presents its device's own secret is counted
by device, any other by its address. -/
inductive Caller
  | posLogin (tenantId : ℕ) (ip : String) (trustedDeviceId : Option ℕ)
  | authorize (tenantId requesterId : ℕ)
  | ownerLogin (email ip : String)
  deriving DecidableEq

def Caller.rules : Caller → List AttemptKey
  | .posLogin tenantId _ (some deviceId) => [.posPinDevice tenantId deviceId]
  | .posLogin tenantId ip none => [.posPinIp tenantId ip, .posPinUntrusted tenantId]
  | .authorize tenantId requesterId => [.managerPin tenantId requesterId]
  | .ownerLogin email ip => [.ownerLoginEmail email, .ownerLoginIp ip]

/-! ### The table -/

/-- Times are in microseconds, as the database keeps them. -/
def second : ℤ := 1000000

/-- Rows older than this are dead. -/
def purgeAfter : ℤ := 24 * 60 * 60 * second

structure AttemptRow where
  attempts : ℕ
  windowStartedAt : ℤ
  deriving DecidableEq

def AttemptKey.window (k : AttemptKey) : ℤ := k.windowSeconds * second

/-- The upsert: one attempt more, in the window that runs or in a new one. -/
def AttemptKey.count (k : AttemptKey) (now : ℤ) : Option AttemptRow → AttemptRow
  | none => ⟨1, now⟩
  | some row =>
      if row.windowStartedAt ≤ now - k.window then ⟨1, now⟩
      else ⟨row.attempts + 1, row.windowStartedAt⟩

/-- The seconds that are left of the window, rounded up. -/
def AttemptKey.retryAfter (k : AttemptKey) (now : ℤ) (row : AttemptRow) : ℤ :=
  Max.max 1 ((row.windowStartedAt + k.window - now + (second - 1)) / second)

/-- What a request that is over a limit is answered with, as a 429. -/
structure LockedOut where
  message : String
  retryAfterSeconds : ℤ
  deriving DecidableEq

def lockedOut (retryAfter : ℤ) : LockedOut :=
  let minutes := (retryAfter + 59) / 60
  let unit := if minutes = 1 then "minute" else "minutes"
  ⟨s!"Too many incorrect attempts - try again in {minutes} {unit}", retryAfter⟩

/-! ### Requests -/

/-- What a request comes to once it is admitted: its secret is right or wrong, or it is turned
away before the secret is looked at (a revoked till, an address with two accounts). -/
inductive Outcome
  | right
  | wrong
  | turnedAway
  deriving DecidableEq

inductive Stage
  /-- The keys that are still to be counted. -/
  | consuming (rest : List AttemptKey)
  | refused (answer : LockedOut)
  | admitted
  /-- Its counts were given back, and dead rows are still to be swept. -/
  | refunded
  | done
  deriving DecidableEq

structure Request where
  caller : Caller
  outcome : Outcome
  stage : Stage
  /-- The windows it was counted in, which no column keeps. -/
  counted : List (AttemptKey × ℤ)
  deriving DecidableEq

structure World where
  now : ℤ
  attempts : AttemptKey → Option AttemptRow
  requests : List Request

inductive Event
  | arrive (caller : Caller) (outcome : Outcome)
  | consume (request elapsed : ℕ)
  | refund (request elapsed : ℕ)
  | sweep (request elapsed : ℕ)

def World.tick (s : World) (elapsed : ℕ) : World := { s with now := s.now + elapsed }

/-- What becomes of a request whose key was counted. -/
def Stage.next (k : AttemptKey) (rest : List AttemptKey) (now : ℤ) (row : AttemptRow) : Stage :=
  if k.max < row.attempts then .refused (lockedOut (k.retryAfter now row))
  else if rest = [] then .admitted
  else .consuming rest

/-- Counting one attempt: the upsert of one key. -/
def World.consume (s : World) (i : ℕ) : World :=
  match s.requests[i]? with
  | some r =>
      match r.stage with
      | .consuming (k :: rest) =>
          let row := k.count s.now (s.attempts k)
          { s with
            attempts := Function.update s.attempts k (some row)
            requests := s.requests.set i
              { r with
                stage := .next k rest s.now row
                counted := r.counted ++ [(k, row.windowStartedAt)] } }
      | _ => s
  | none => s

def AttemptRow.giveBack (row : AttemptRow) : AttemptRow := { row with attempts := row.attempts - 1 }

/-- Giving back the counts of a secret that was right: one update of all its keys. -/
def World.refund (s : World) (i : ℕ) : World :=
  match s.requests[i]? with
  | some r =>
      if r.stage = .admitted ∧ r.outcome = .right then
        { s with
          attempts := fun k =>
            if k ∈ r.caller.rules then (s.attempts k).map .giveBack else s.attempts k
          requests := s.requests.set i { r with stage := .refunded } }
      else s
  | none => s

/-- The sweep that a refund ends with. -/
def World.sweep (s : World) (i : ℕ) : World :=
  match s.requests[i]? with
  | some r =>
      if r.stage = .refunded then
        { s with
          attempts := fun k => (s.attempts k).filter fun row =>
            !decide (row.windowStartedAt < s.now - purgeAfter)
          requests := s.requests.set i { r with stage := .done } }
      else s
  | none => s

def World.handle (s : World) : Event → World
  | .arrive caller outcome =>
      { s with requests := s.requests ++ [⟨caller, outcome, .consuming caller.rules, []⟩] }
  | .consume i elapsed => (s.tick elapsed).consume i
  | .refund i elapsed => (s.tick elapsed).refund i
  | .sweep i elapsed => (s.tick elapsed).sweep i

/-! ### What is bounded -/

/-- A check of a wrong secret that was admitted in the window. -/
def Request.wrongIn (r : Request) (w : AttemptKey × ℤ) : Bool :=
  r.stage = .admitted && r.outcome = .wrong && r.counted.contains w

/-- The checks of a wrong secret that were admitted in the window of the key that started at
the given time. -/
def World.wrongChecks (s : World) (k : AttemptKey) (startedAt : ℤ) : ℕ :=
  s.requests.countP (·.wrongIn (k, startedAt))

/-- Whether a refund finds its keys in the windows its request was counted in. -/
def refundsInWindow (s : World) : Event → Bool
  | .refund i _ => (s.requests[i]?).all fun r => r.counted.all fun w =>
      (s.attempts w.1).all fun row => row.windowStartedAt = w.2
  | _ => true

/-! ### The bound -/

/-- A request whose count in the window was not given back. -/
def Request.holds (r : Request) (w : AttemptKey × ℤ) : Bool :=
  r.counted.contains w && r.stage != .refunded && r.stage != .done

def Stage.isConsuming : Stage → Bool
  | .consuming _ => true
  | _ => false

/-- A request with a wrong secret that was counted in the window and not refused so far. -/
def Request.passed (r : Request) (w : AttemptKey × ℤ) : Bool :=
  r.counted.contains w && r.outcome = .wrong && (r.stage.isConsuming || r.stage = .admitted)

/-- The keys a request was counted by are those its stage says. -/
def Request.Keyed (r : Request) : Prop :=
  match r.stage with
  | .consuming rest => r.counted.map (·.1) ++ rest = r.caller.rules
  | .admitted => r.counted.map (·.1) = r.caller.rules
  | .refused _ | .refunded | .done => True

/-- The window was begun no later than the one its key is in now. -/
def World.Begun (s : World) (w : AttemptKey × ℤ) : Prop :=
  match s.attempts w.1 with
  | some row => w.2 ≤ row.windowStartedAt
  | none => w.2 < s.now

/-- The table counts at least what was not given back, and that bounds what has passed. -/
structure Bounded (s : World) : Prop where
  past : ∀ k row, s.attempts k = some row → row.windowStartedAt ≤ s.now
  begun : ∀ r ∈ s.requests, ∀ w ∈ r.counted, s.Begun w
  keyed : ∀ r ∈ s.requests, r.Keyed
  live : ∀ k row, s.attempts k = some row →
    s.requests.countP (·.holds (k, row.windowStartedAt)) ≤ row.attempts
  bound : ∀ w, s.requests.countP (·.passed w) ≤ w.1.max

section Counting

variable {α : Type} {p : α → Bool} {l : List α} {i : ℕ} {a b : α}

theorem countP_set_add (h : l[i]? = some a) :
    (l.set i b).countP p + (if p a then 1 else 0) = l.countP p + (if p b then 1 else 0) := by
  obtain ⟨hlt, ha⟩ := List.getElem?_eq_some_iff.mp h
  have hle := List.boole_getElem_le_countP (p := p) hlt
  rw [List.countP_set hlt]
  rw [ha] at hle ⊢
  omega

theorem countP_set_le (h : l[i]? = some a) (hp : p b = true → p a = true) :
    (l.set i b).countP p ≤ l.countP p := by
  have hadd := countP_set_add (p := p) (b := b) h
  by_cases hb : p b = true
  · rw [if_pos hb, if_pos (hp hb)] at hadd
    omega
  · rw [if_neg hb] at hadd
    omega

end Counting

theorem window_pos (k : AttemptKey) : 0 < k.window := by
  cases k <;> simp [AttemptKey.window, AttemptKey.windowSeconds, second]

variable {s s' : World} {r : Request} {i : ℕ}

theorem mem_of_getElem? (h : s.requests[i]? = some r) : r ∈ s.requests :=
  List.mem_of_getElem? h

theorem Request.passed_holds {w : AttemptKey × ℤ} (h : r.passed w = true) : r.holds w = true := by
  simp only [Request.passed, Request.holds, Bool.and_eq_true, Bool.or_eq_true,
    decide_eq_true_eq] at h ⊢
  obtain ⟨⟨hcounted, -⟩, hstage⟩ := h
  rcases hstage with hstage | hstage
  · cases hs : r.stage <;> simp_all [Stage.isConsuming]
  · simpa [hstage] using hcounted

theorem Bounded.tick (h : Bounded s) (elapsed : ℕ) : Bounded (s.tick elapsed) where
  past k row hrow := (h.past k row hrow).trans (by simp [World.tick])
  begun r hr w hw := by
    have hbegun := h.begun r hr w hw
    unfold World.Begun at hbegun ⊢
    have hnow : s.now ≤ (s.tick elapsed).now := by simp [World.tick]
    have hrows : (s.tick elapsed).attempts = s.attempts := rfl
    rw [hrows]
    cases hrow : s.attempts w.1 with
    | some row => simpa [hrow] using hbegun
    | none =>
        simp only [hrow] at hbegun ⊢
        omega
  keyed := h.keyed
  live := h.live
  bound := h.bound

/-- The upsert leaves room for the attempt it counts. -/
theorem Bounded.room (h : Bounded s) (k : AttemptKey) :
    s.requests.countP (·.holds (k, (k.count s.now (s.attempts k)).windowStartedAt)) + 1 ≤
      (k.count s.now (s.attempts k)).attempts := by
  -- In a window that begins now nothing was counted before.
  have hfresh : (∀ r ∈ s.requests, ∀ t, (k, t) ∈ r.counted → t < s.now) →
      s.requests.countP (·.holds (k, s.now)) + 1 ≤ 1 := by
    intro hbefore
    suffices hzero : s.requests.countP (·.holds (k, s.now)) = 0 by omega
    refine List.countP_eq_zero.mpr fun r hr hholds => ?_
    simp only [Request.holds, Bool.and_eq_true, List.contains_iff_mem] at hholds
    exact absurd (hbefore r hr _ hholds.1.1) (lt_irrefl _)
  cases hrow : s.attempts k with
  | none =>
      refine hfresh fun r hr t ht => ?_
      have hbegun := h.begun r hr _ ht
      simpa [World.Begun, hrow] using hbegun
  | some row =>
      have hcount : k.count s.now (some row) =
          if row.windowStartedAt ≤ s.now - k.window then ⟨1, s.now⟩
          else ⟨row.attempts + 1, row.windowStartedAt⟩ := rfl
      rw [hcount]
      split
      · rename_i hover
        refine hfresh fun r hr t ht => ?_
        have hbegun := h.begun r hr _ ht
        simp only [World.Begun, hrow] at hbegun
        have hpos := window_pos k
        omega
      · exact Nat.succ_le_succ (h.live k row hrow)

theorem AttemptKey.count_start (k : AttemptKey) (now : ℤ) (row : Option AttemptRow)
    (h : ∀ x ∈ row, x.windowStartedAt ≤ now) :
    (k.count now row).windowStartedAt ≤ now ∧
      ∀ x ∈ row, x.windowStartedAt ≤ (k.count now row).windowStartedAt := by
  cases row with
  | none => exact ⟨le_refl _, fun _ hx => by cases hx⟩
  | some row =>
      have hrow := h row rfl
      simp only [AttemptKey.count]
      split
      · refine ⟨le_refl _, fun x hx => ?_⟩
        rw [Option.mem_some_iff.mp hx] at hrow
        exact hrow
      · refine ⟨hrow, fun x hx => ?_⟩
        rw [Option.mem_some_iff.mp hx]

/-- A count raises no window past the clock, and begins none before the one its key was in. -/
theorem Bounded.begun_consume (h : Bounded s) {k : AttemptKey} {w : AttemptKey × ℤ}
    {requests : List Request} (hw : s.Begun w) :
    World.Begun { s with
      attempts := Function.update s.attempts k (some (k.count s.now (s.attempts k)))
      requests := requests } w := by
  unfold World.Begun at hw ⊢
  dsimp only
  by_cases hk : w.1 = k
  · obtain ⟨hnow, hold⟩ := k.count_start s.now (s.attempts k) (h.past k)
    subst hk
    rw [Function.update_self]
    cases hrow : s.attempts w.1 with
    | some row =>
        rw [hrow] at hw hold
        exact hw.trans (hold row rfl)
    | none =>
        rw [hrow] at hw
        exact hw.le
  · rw [Function.update_of_ne hk]
    exact hw

theorem Stage.next_passed {k : AttemptKey} {rest : List AttemptKey} {now : ℤ} {row : AttemptRow}
    (h : ((Stage.next k rest now row).isConsuming || Stage.next k rest now row = .admitted) = true) :
    row.attempts ≤ k.max := by
  unfold Stage.next at h
  split at h
  · simp [Stage.isConsuming] at h
  · omega

theorem Bounded.consume (h : Bounded s) (i : ℕ) : Bounded (s.consume i) := by
  unfold World.consume
  split
  next r hr =>
    split
    next k rest hstage =>
      have hmem := mem_of_getElem? hr
      have hroom := h.room k
      obtain ⟨hnow, hold⟩ := k.count_start s.now (s.attempts k) (h.past k)
      set row := k.count s.now (s.attempts k) with hrow
      -- In a window other than the one that is counted in, the request stands as it did.
      have hother : ∀ w : AttemptKey × ℤ, w ≠ (k, row.windowStartedAt) →
          w ∈ r.counted ++ [(k, row.windowStartedAt)] → w ∈ r.counted := by
        intro w hne hw
        rcases List.mem_append.mp hw with hw | hw
        · exact hw
        · exact absurd (List.mem_singleton.mp hw) hne
      have hheld : ∀ w : AttemptKey × ℤ, w ∈ r.counted → r.holds w = true := by
        intro w hw
        simp [Request.holds, hstage, hw]
      refine ⟨fun k' row' hrow' => ?_, fun r' hr' w hw => ?_, fun r' hr' => ?_,
        fun k' row' hrow' => ?_, fun w => ?_⟩
      case refine_1 =>
        by_cases hk : k' = k
        · subst hk
          simp only [Function.update_self, Option.some.injEq] at hrow'
          rw [← hrow']
          exact hnow
        · simp only [Function.update_of_ne hk] at hrow'
          exact h.past k' row' hrow'
      case refine_2 =>
        rcases List.mem_or_eq_of_mem_set hr' with hr' | rfl
        · exact h.begun_consume (h.begun r' hr' w hw)
        · rcases List.mem_append.mp hw with hw | hw
          · exact h.begun_consume (h.begun r hmem w hw)
          · rw [List.mem_singleton.mp hw]
            simp [World.Begun]
      case refine_3 =>
        rcases List.mem_or_eq_of_mem_set hr' with hr' | rfl
        · exact h.keyed r' hr'
        · have hkeyed := h.keyed r hmem
          simp only [Request.Keyed, hstage] at hkeyed
          simp only [Request.Keyed, Stage.next]
          split_ifs with hover hlast
          · trivial
          · simpa [hlast] using hkeyed
          · simpa using hkeyed
      case refine_4 =>
        by_cases hk : k' = k
        · subst hk
          simp only [Function.update_self, Option.some.injEq] at hrow'
          subst hrow'
          refine le_trans ?_ hroom
          dsimp only
          have hadd := countP_set_add (p := (·.holds (k', row.windowStartedAt)))
            (b := ⟨r.caller, r.outcome, .next k' rest s.now row,
              r.counted ++ [(k', row.windowStartedAt)]⟩) hr
          split_ifs at hadd <;> omega
        · simp only [Function.update_of_ne hk] at hrow'
          refine (countP_set_le hr fun hholds => ?_).trans (h.live k' row' hrow')
          simp only [Request.holds, Bool.and_eq_true, List.contains_iff_mem] at hholds
          exact hheld _ (hother _ (fun heq => hk (congrArg Prod.fst heq)) hholds.1.1)
      case refine_5 =>
        by_cases hpassed : Request.passed ⟨r.caller, r.outcome, .next k rest s.now row,
          r.counted ++ [(k, row.windowStartedAt)]⟩ w = true
        · simp only [Request.passed, Bool.and_eq_true, List.contains_iff_mem] at hpassed
          obtain ⟨⟨hcounted, hwrong⟩, hstage'⟩ := hpassed
          by_cases hw : w = (k, row.windowStartedAt)
          · subst hw
            have hle := List.countP_mono_left (l := s.requests)
              (fun r' _ => Request.passed_holds (r := r') (w := (k, row.windowStartedAt)))
            have hadd := countP_set_add (p := (·.passed (k, row.windowStartedAt)))
              (b := ⟨r.caller, r.outcome, .next k rest s.now row,
                r.counted ++ [(k, row.windowStartedAt)]⟩) hr
            have hmax := Stage.next_passed hstage'
            dsimp only
            split_ifs at hadd <;> omega
          · refine (countP_set_le hr fun _ => ?_).trans (h.bound w)
            have hmemw := hother w hw hcounted
            simp only [Request.passed, Bool.and_eq_true, List.contains_iff_mem, hstage,
              Stage.isConsuming, Bool.true_or, and_true]
            exact ⟨hmemw, hwrong⟩
        · exact (countP_set_le hr fun hp => absurd hp hpassed).trans (h.bound w)
    next => exact h
  next => exact h

/-- What is given back leaves the table counting at least the rest. -/
theorem Bounded.refund (h : Bounded s)
    (hwindow : ∀ r, s.requests[i]? = some r → ∀ w ∈ r.counted, ∀ row, s.attempts w.1 = some row →
      row.windowStartedAt = w.2) : Bounded (s.refund i) := by
  unfold World.refund
  split
  next r hr =>
    split
    next hadm =>
      have hmem := mem_of_getElem? hr
      have hkeyed := h.keyed r hmem
      simp only [Request.Keyed, hadm.1] at hkeyed
      -- A row that is there after it was there before, and began when it did.
      have hrow : ∀ k row', (if k ∈ r.caller.rules then (s.attempts k).map AttemptRow.giveBack
            else s.attempts k) = some row' →
          ∃ row, s.attempts k = some row ∧ row.windowStartedAt = row'.windowStartedAt ∧
            (k ∈ r.caller.rules ∧ row'.attempts = row.attempts - 1 ∨
              k ∉ r.caller.rules ∧ row' = row) := by
        intro k row' heq
        split_ifs at heq with hk
        · obtain ⟨row, hsome, rfl⟩ := Option.map_eq_some_iff.mp heq
          exact ⟨row, hsome, rfl, .inl ⟨hk, rfl⟩⟩
        · exact ⟨row', heq, rfl, .inr ⟨hk, rfl⟩⟩
      refine ⟨fun k row' heq => ?_, fun r' hr' w hw => ?_, fun r' hr' => ?_,
        fun k row' heq => ?_, fun w => ?_⟩
      case refine_1 =>
        obtain ⟨row, hsome, hstart, -⟩ := hrow k row' heq
        rw [← hstart]
        exact h.past k row hsome
      case refine_2 =>
        have hbegun : s.Begun w := by
          rcases List.mem_or_eq_of_mem_set hr' with hr' | rfl
          · exact h.begun r' hr' w hw
          · exact h.begun r hmem w hw
        unfold World.Begun at hbegun ⊢
        cases hsome : s.attempts w.1 with
        | some row =>
            rw [hsome] at hbegun
            simp only [hsome, Option.map_some]
            split_ifs <;> exact hbegun
        | none =>
            rw [hsome] at hbegun
            simpa [hsome] using hbegun
      case refine_3 =>
        rcases List.mem_or_eq_of_mem_set hr' with hr' | rfl
        · exact h.keyed r' hr'
        · trivial
      case refine_4 =>
        obtain ⟨row, hsome, hstart, hcount⟩ := hrow k row' heq
        have hlive := h.live k row hsome
        have hadd := countP_set_add (p := (·.holds (k, row.windowStartedAt)))
          (b := { r with stage := .refunded }) hr
        have hgone : Request.holds { r with stage := .refunded } (k, row.windowStartedAt) = false := by
          simp [Request.holds]
        rw [hgone] at hadd
        rw [← hstart]
        dsimp only
        rcases hcount with ⟨hk, hcount⟩ | ⟨hk, rfl⟩
        · -- The request was counted in this very window.
          have hheld : r.holds (k, row.windowStartedAt) = true := by
            rw [← hkeyed] at hk
            obtain ⟨w, hw, rfl⟩ := List.mem_map.mp hk
            have hin : (w.1, row.windowStartedAt) = w := by
              rw [hwindow r hr w hw row hsome]
            simp [Request.holds, hadm.1, hin, hw]
          rw [if_pos hheld] at hadd
          simp only [Bool.false_eq_true, if_false] at hadd
          omega
        · simp only [Bool.false_eq_true, if_false] at hadd
          omega
      case refine_5 =>
        refine (countP_set_le hr fun hp => ?_).trans (h.bound w)
        simp [Request.passed, Stage.isConsuming] at hp
    next => exact h
  next => exact h

theorem Bounded.sweep (h : Bounded s) (i : ℕ) : Bounded (s.sweep i) := by
  unfold World.sweep
  split
  next r hr =>
    split
    next hstage =>
      have hmem := mem_of_getElem? hr
      have hrow : ∀ k row, ((s.attempts k).filter fun row =>
          !decide (row.windowStartedAt < s.now - purgeAfter)) = some row →
          s.attempts k = some row := by
        intro k row heq
        exact (Option.filter_eq_some_iff.mp heq).1
      refine ⟨fun k row heq => h.past k row (hrow k row heq), fun r' hr' w hw => ?_,
        fun r' hr' => ?_, fun k row heq => ?_, fun w => ?_⟩
      case refine_1 =>
        have hbegun : s.Begun w := by
          rcases List.mem_or_eq_of_mem_set hr' with hr' | rfl
          · exact h.begun r' hr' w hw
          · exact h.begun r hmem w hw
        unfold World.Begun at hbegun ⊢
        cases hsome : s.attempts w.1 with
        | some row =>
            rw [hsome] at hbegun
            have hpurge : 0 < purgeAfter := by decide
            by_cases hdead : row.windowStartedAt < s.now - purgeAfter
            · simp only [hsome, Option.filter_some, hdead, decide_true, Bool.not_true,
                Bool.false_eq_true, if_false]
              omega
            · simpa [hsome, Option.filter_some, hdead] using hbegun
        | none =>
            rw [hsome] at hbegun
            simpa [hsome] using hbegun
      case refine_2 =>
        rcases List.mem_or_eq_of_mem_set hr' with hr' | rfl
        · exact h.keyed r' hr'
        · trivial
      case refine_3 =>
        refine (countP_set_le hr fun hp => ?_).trans (h.live k row (hrow k row heq))
        simp [Request.holds] at hp
      case refine_4 =>
        refine (countP_set_le hr fun hp => ?_).trans (h.bound w)
        simp [Request.passed, Stage.isConsuming] at hp
    next => exact h
  next => exact h

/-- One step: whatever happens, as long as a refund meets the windows it was counted in. -/
theorem Bounded.handle (h : Bounded s) {e : Event} (he : refundsInWindow s e = true) :
    Bounded (s.handle e) := by
  cases e with
  | arrive caller outcome =>
      -- A request that arrives was counted nowhere.
      let r₀ : Request := ⟨caller, outcome, .consuming caller.rules, []⟩
      have hnone : ∀ p : Request → Bool, p r₀ = false →
          (s.requests ++ [r₀]).countP p = s.requests.countP p := by
        intro p hp
        simp [List.countP_append, hp]
      refine ⟨h.past, fun r hr w hw => ?_, fun r hr => ?_, fun k row hrow => ?_, fun w => ?_⟩
      case refine_1 =>
        rcases List.mem_append.mp hr with hr | hr
        · exact h.begun r hr w hw
        · rw [List.mem_singleton.mp hr] at hw
          cases hw
      case refine_2 =>
        rcases List.mem_append.mp hr with hr | hr
        · exact h.keyed r hr
        · rw [List.mem_singleton.mp hr]
          rfl
      case refine_3 =>
        exact (hnone _ rfl).trans_le (h.live k row hrow)
      case refine_4 =>
        exact (hnone _ rfl).trans_le (h.bound w)
  | consume i elapsed => exact (h.tick elapsed).consume i
  | refund i elapsed =>
      refine (h.tick elapsed).refund fun r hr w hw row hrow => ?_
      have hr' : s.requests[i]? = some r := hr
      simp only [refundsInWindow, hr', Option.all_some, List.all_eq_true] at he
      have hw' := he w hw
      rw [show s.attempts w.1 = some row from hrow] at hw'
      simpa using hw'
  | sweep i elapsed => exact (h.tick elapsed).sweep i

/-- No request so far, and no window that begins after now. -/
structure World.Fresh (s : World) : Prop where
  requests : s.requests = []
  past : ∀ k row, s.attempts k = some row → row.windowStartedAt ≤ s.now

theorem World.Fresh.bounded (h : s.Fresh) : Bounded s where
  past := h.past
  begun r hr := by
    rw [h.requests] at hr
    cases hr
  keyed r hr := by
    rw [h.requests] at hr
    cases hr
  live k row _ := by simp [h.requests]
  bound w := by simp [h.requests]

/-- Where every refund finds its keys in the windows it was counted in, a window of a key admits
no more checks of a wrong secret than the key's limit. -/
theorem wrong_checks_le_max {es : List Event} (hs : s.Fresh)
    (h : Serial.Run (fun s e s' => s' = s.handle e) (fun s e => refundsInWindow s e = true) s es s')
    (k : AttemptKey) (startedAt : ℤ) : s'.wrongChecks k startedAt ≤ k.max := by
  have hbounded : Bounded s' :=
    h.preserves (fun _ _ _ hI hC hstep => hstep ▸ hI.handle hC) hs.bounded
  refine le_trans ?_ (hbounded.bound (k, startedAt))
  refine List.countP_mono_left fun r _ hr => ?_
  simp only [Request.wrongIn, Request.passed, Bool.and_eq_true] at hr ⊢
  exact ⟨⟨hr.2, hr.1.2⟩, by simp [hr.1.1]⟩

/-! ### A till's manager -/

/-- The key of one till's requester. -/
def approvals : AttemptKey := .managerPin 1 7

/-- A window that is almost over, with nothing counted in it. -/
def lastMoment : World where
  now := 899950000
  attempts := fun k => if k = approvals then some ⟨0, 0⟩ else none
  requests := []

theorem lastMoment_fresh : lastMoment.Fresh where
  requests := rfl
  past k row h := by
    simp only [lastMoment] at h ⊢
    split_ifs at h
    cases h
    decide

/-- A right PIN that is checked within its window, and a wrong one after it. -/
def checkedInTime : List Event :=
  [.arrive (.authorize 1 7) .right, .consume 0 0, .refund 0 40000, .sweep 0 0,
    .arrive (.authorize 1 7) .wrong, .consume 1 20000]

theorem wrong_checks_in_time :
    ((checkedInTime.foldl World.handle lastMoment).wrongChecks approvals 900010000 = 1) ∧
      (checkedInTime.foldl World.handle lastMoment).wrongChecks approvals 900010000 ≤ 5 :=
  ⟨by decide, wrong_checks_le_max lastMoment_fresh (Serial.Run.of_foldl (by decide)) approvals
    900010000⟩

/-- A right PIN that was counted at a window's end, six wrong ones in the next window, and the
right one's refund after the first of them. -/
def checkedLate : List Event :=
  [.arrive (.authorize 1 7) .right, .consume 0 0,
    .arrive (.authorize 1 7) .wrong, .consume 1 60000, .refund 0 10000,
    .arrive (.authorize 1 7) .wrong, .consume 2 1000000,
    .arrive (.authorize 1 7) .wrong, .consume 3 1000000,
    .arrive (.authorize 1 7) .wrong, .consume 4 1000000,
    .arrive (.authorize 1 7) .wrong, .consume 5 1000000,
    .arrive (.authorize 1 7) .wrong, .consume 6 1000000]

/-- The late refund takes a wrong PIN's count away, and a sixth is checked. -/
theorem late_refund_admits_more :
    ¬ ∀ (s : World) (es : List Event) (k : AttemptKey) (startedAt : ℤ), s.Fresh →
      (es.foldl World.handle s).wrongChecks k startedAt ≤ k.max := by
  intro h
  have hsix : (checkedLate.foldl World.handle lastMoment).wrongChecks approvals 900010000 = 6 := by
    decide
  have hle := h lastMoment checkedLate approvals 900010000 lastMoment_fresh
  rw [hsix] at hle
  exact absurd hle (by decide)

end RestiqBackend.Attempts
