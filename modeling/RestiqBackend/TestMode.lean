import RestiqBackend.Serial
import RestiqBackend.Tenants

/-!
Which sales were test sales.

`setMode` (`src/ops/tenants/directory.service.ts`) keeps one time for a tenant, when it last
went Live, and `isTestSale` (`src/platform/tenant-mode.ts`) tells from that time alone whether
a bill was a test sale, however often the tenant has been switched since `commitFinalize`
(`src/pos/bills/bill-core.ts`) stamped it. What else finalizing asks of a bill is given with the
request. A bill is known by its place among the tenant's bills.
-/

namespace RestiqBackend.TestMode

open Serial (bind_ok check check_ok check_of orElseThrow orElseThrow_ok)

structure TenantBill where
  status : BillStatus
  finalizedAt : Option ℤ
  deriving DecidableEq

structure World where
  deleted : Bool
  liveSince : Option ℤ
  bills : List TenantBill
  auditLog : List AuditEvent
  /-- The last reading of the clock. -/
  clock : ℤ
  deriving DecidableEq

/-- Test mode is having no time of going Live. -/
def isTestMode (liveSince : Option ℤ) : Bool := liveSince.isNone

def notFound : ApiError := ⟨.notFound, "not_found", "No such tenant"⟩

def alreadyIn (mode : Mode) : ApiError :=
  ⟨.conflict, "conflict", "This tenant is already in " ++ mode.text ++ " mode"⟩

def tenantHasLiveSales : ApiError :=
  ⟨.conflict, "tenant_has_live_sales",
    "This tenant has real sales since it went Live, so it cannot go back to Test mode"⟩

def alreadyFinalized : ApiError :=
  ⟨.conflict, "already_finalized", "This bill has already been finalised"⟩

def billNotFound : ApiError := ⟨.notFound, "not_found", "No such bill"⟩

/-- The sales made since a time. -/
def World.saleSince (w : World) (liveSince : ℤ) : Bool :=
  w.bills.any fun b => b.finalizedAt.any fun t => decide (liveSince ≤ t)

/-- What every change of a tenant by an operator runs in: the tenant is there, and the change
is written down with it. -/
def World.mutate (w : World) (operatorId : ℕ) (action reason : String)
    (work : World → Except ApiError World) : Except ApiError World := do
  check (w.deleted = false) notFound
  let w ← work w
  pure { w with auditLog := w.auditLog ++ [⟨action, some operatorId, none, .text reason⟩] }

/-- The switch itself, at `now`. -/
def World.switchMode (w : World) (mode : Mode) (now : ℤ) : Except ApiError World := do
  check (isTestMode w.liveSince ≠ decide (mode = .test)) (alreadyIn mode)
  match mode with
  | .test => do
      check (w.liveSince.any w.saleSince = false) tenantHasLiveSales
      pure { w with liveSince := none }
  | .live => pure { w with liveSince := some now }

def World.setMode (w : World) (operatorId : ℕ) (mode : Mode) (reason : String) (now : ℤ) :
    Except ApiError World :=
  w.mutate operatorId mode.action reason fun w => w.switchMode mode now

def World.createBill (w : World) : Except ApiError World :=
  pure { w with bills := w.bills ++ [⟨.open, none⟩] }

/-- Finalizing a bill at `now`; `checks` is what its payments, its discount and its total say. -/
def World.finalize (w : World) (billId : ℕ) (checks : Except ApiError Unit) (now : ℤ) :
    Except ApiError World := do
  let bill ← orElseThrow billNotFound w.bills[billId]?
  check (bill.status = .open) alreadyFinalized
  checks
  pure { w with bills := w.bills.set billId { bill with
    status := .finalized
    finalizedAt := some now } }

inductive Op
  | setMode (operatorId : ℕ) (mode : Mode) (reason : String)
  | createBill
  | finalize (billId : ℕ) (checks : Except ApiError Unit)

/-- A request, and what the clock says while it is served. -/
structure Event where
  now : ℤ
  op : Op

def World.outcome (w : World) (e : Event) : Except ApiError World :=
  match e.op with
  | .setMode operatorId mode reason => w.setMode operatorId mode reason e.now
  | .createBill => w.createBill
  | .finalize billId checks => w.finalize billId checks e.now

/-- A refused request leaves the tenant as it was, but for the time. -/
def World.handle (w : World) (e : Event) : World :=
  { (match w.outcome e with
      | .ok w' => w'
      | .error _ => w) with clock := e.now }

/-- The clock is strictly increasing. -/
abbrev Runs : World → List Event → World → Prop :=
  Serial.Run (fun w e w' => w' = w.handle e) fun w e => w.clock < e.now

/-! ### What a request does -/

section Requests

variable {w w' : World} {e : Event}

theorem switchMode_ok {mode : Mode} {now : ℤ} (h : w.switchMode mode now = .ok w') :
    (mode = .test ∧ w.liveSince.any w.saleSince = false ∧ w' = { w with liveSince := none }) ∨
      (mode = .live ∧ w.liveSince = none ∧ w' = { w with liveSince := some now }) := by
  unfold World.switchMode at h
  obtain ⟨_, hmode, h⟩ := bind_ok h
  have hmode := check_ok hmode
  cases mode with
  | test =>
      obtain ⟨_, hsale, h⟩ := bind_ok h
      cases h
      exact .inl ⟨rfl, check_ok hsale, rfl⟩
  | live =>
      cases h
      refine .inr ⟨rfl, ?_, rfl⟩
      cases hlive : w.liveSince with
      | none => rfl
      | some t =>
          rw [hlive] at hmode
          exact absurd rfl hmode

/-- What a request may do to the tenant. -/
inductive Took (w : World) (e : Event) : World → Prop
  | refused {err : ApiError} (h : w.outcome e = .error err) : Took w e { w with clock := e.now }
  | toTest (auditLog : List AuditEvent) (h : w.liveSince.any w.saleSince = false) :
      Took w e { w with liveSince := none, auditLog, clock := e.now }
  | toLive (auditLog : List AuditEvent) (h : w.liveSince = none) :
      Took w e { w with liveSince := some e.now, auditLog, clock := e.now }
  | created : Took w e { w with bills := w.bills ++ [⟨.open, none⟩], clock := e.now }
  | finalized {billId : ℕ} {checks : Except ApiError Unit} {bill : TenantBill}
      (hop : e.op = .finalize billId checks) (h : w.bills[billId]? = some bill)
      (hopen : bill.status = .open) : Took w e { w with
        bills := w.bills.set billId ⟨.finalized, some e.now⟩
        clock := e.now }

theorem handle_took (w : World) (e : Event) : Took w e (w.handle e) := by
  unfold World.handle
  cases h : w.outcome e with
  | error err => exact .refused h
  | ok w' =>
      obtain ⟨now, op⟩ := e
      cases op with
      | setMode operatorId mode reason =>
          obtain ⟨_, -, h⟩ := bind_ok h
          obtain ⟨w₁, hswitch, h⟩ := bind_ok h
          cases h
          rcases switchMode_ok hswitch with ⟨-, hsale, rfl⟩ | ⟨-, htest, rfl⟩
          · exact .toTest _ hsale
          · exact .toLive _ htest
      | createBill =>
          cases h
          exact .created
      | finalize billId checks =>
          obtain ⟨bill, hbill, h⟩ := bind_ok h
          obtain ⟨_, hopen, h⟩ := bind_ok h
          obtain ⟨_, -, h⟩ := bind_ok h
          cases h
          exact .finalized rfl (orElseThrow_ok hbill) (check_ok hopen)

end Requests

/-! ### What stays true of a finalized bill -/

/-- A bill that was finalized in the past, in Test mode or Live: the tenant has gone Live after
it, if it was a test sale, and no later than it, if it was a real one. -/
structure Classified (billId : ℕ) (at_ : ℤ) (test : Bool) (w : World) : Prop where
  bill : w.bills[billId]? = some ⟨.finalized, some at_⟩
  past : at_ ≤ w.clock
  testSale : test = true → ∀ live, w.liveSince = some live → at_ < live
  realSale : test = false → ∃ live, w.liveSince = some live ∧ live ≤ at_

section Classified

variable {w w' : World} {e : Event} {billId : ℕ} {at_ : ℤ} {test : Bool}

theorem Classified.isTestSale (h : Classified billId at_ test w) :
    isTestSale w.liveSince (some at_) = test := by
  cases test with
  | true =>
      cases hlive : w.liveSince with
      | none => rfl
      | some live => exact decide_eq_true (h.testSale rfl live hlive)
  | false =>
      obtain ⟨live, hlive, hle⟩ := h.realSale rfl
      rw [hlive]
      exact decide_eq_false (not_lt.mpr hle)

/-- A real sale is what keeps a tenant from going back to Test. -/
theorem Classified.saleSince (h : Classified billId at_ false w) :
    w.liveSince.any w.saleSince = true := by
  obtain ⟨live, hlive, hle⟩ := h.realSale rfl
  rw [hlive]
  exact List.any_eq_true.mpr ⟨_, List.mem_of_getElem? h.bill, decide_eq_true hle⟩

theorem Classified.of_took (h : Classified billId at_ test w) (hclock : w.clock < e.now)
    (htook : Took w e w') : Classified billId at_ test w' := by
  have hpast : at_ < e.now := lt_of_le_of_lt h.past hclock
  cases htook with
  | refused _ => exact { h with past := hpast.le }
  | toTest auditLog hsale =>
      refine ⟨h.bill, hpast.le, ?_, fun htest => ?_⟩
      · intro _ live hlive
        cases hlive
      · subst htest
        exact absurd h.saleSince (Bool.eq_false_iff.mp hsale)
  | toLive auditLog hnone =>
      refine ⟨h.bill, hpast.le, fun _ live hlive => ?_, fun htest => ?_⟩
      · cases hlive
        exact hpast
      · obtain ⟨live, hlive, -⟩ := h.realSale htest
        exact nomatch hnone.symm.trans hlive
  | created =>
      refine ⟨?_, hpast.le, h.testSale, h.realSale⟩
      exact (List.getElem?_append_left (List.getElem?_eq_some_iff.mp h.bill).1).trans h.bill
  | @finalized otherId checks bill hop hbill hopen =>
      refine ⟨?_, hpast.le, h.testSale, h.realSale⟩
      -- A finalized bill is not finalized again.
      have hother : otherId ≠ billId := by
        rintro rfl
        cases hbill.symm.trans h.bill
        cases hopen
      exact (List.getElem?_set_ne hother).trans h.bill

theorem Classified.of_runs {es : List Event} (h : Classified billId at_ test w)
    (hrun : Runs w es w') : Classified billId at_ test w' :=
  hrun.preserves (I := Classified billId at_ test)
    (fun s e _ hs hclock hstep => hstep ▸ hs.of_took hclock (handle_took s e)) h

end Classified

/-! ### The tenant's mode -/

/-- The tenant has gone Live in the past, if it has. -/
def LivePast (w : World) : Prop := ∀ live, w.liveSince = some live → live ≤ w.clock

theorem LivePast.of_took {w w' : World} {e : Event} (h : LivePast w) (hclock : w.clock < e.now)
    (htook : Took w e w') : LivePast w' := by
  intro live hlive
  cases htook with
  | toTest _ _ => cases hlive
  | toLive _ _ => exact (Option.some.inj hlive).symm.le
  | refused _ | created | finalized _ _ _ => exact (h live hlive).trans hclock.le

theorem LivePast.of_runs {w w' : World} {es : List Event} (h : LivePast w)
    (hrun : Runs w es w') : LivePast w' :=
  hrun.preserves (I := LivePast)
    (fun s e _ hs hclock hstep => hstep ▸ hs.of_took hclock (handle_took s e)) h

/-- Finalizing a bill classifies it by the mode the tenant is in. -/
theorem classified_of_finalize {w w' : World} {e : Event} {billId : ℕ}
    {checks : Except ApiError Unit} (hlive : LivePast w) (hclock : w.clock < e.now)
    (hop : e.op = .finalize billId checks) (hok : w.outcome e = .ok w') :
    Classified billId e.now (isTestMode w.liveSince) (w.handle e) := by
  unfold World.handle
  rw [hok]
  unfold World.outcome at hok
  rw [hop] at hok
  obtain ⟨bill, hbill, h⟩ := bind_ok hok
  obtain ⟨_, -, h⟩ := bind_ok h
  obtain ⟨_, -, h⟩ := bind_ok h
  cases h
  have hlt : billId < w.bills.length :=
    (List.getElem?_eq_some_iff.mp (orElseThrow_ok hbill)).1
  refine ⟨List.getElem?_set_self hlt, le_rfl, fun htest live h => ?_, fun htest => ?_⟩
  · exact nomatch (Option.isNone_iff_eq_none.mp htest).symm.trans h
  · obtain ⟨live, h⟩ := Option.isSome_iff_exists.mp (Option.isNone_eq_false_iff.mp htest)
    exact ⟨live, h, (hlive live h).trans hclock.le⟩

/-- However often a tenant that started in Test mode is switched, a bill finalized in Test mode
is a test sale and a bill finalized Live is not, at every later moment. -/
theorem isTestSale_faithful {w₀ w w₁ w' : World} {es es' : List Event} {e : Event} {billId : ℕ}
    {checks : Except ApiError Unit} (hstart : isTestMode w₀.liveSince = true)
    (hbefore : Runs w₀ es w) (hclock : w.clock < e.now) (hop : e.op = .finalize billId checks)
    (hok : w.outcome e = .ok w₁) (hafter : Runs (w.handle e) es' w') :
    ∃ bill, w'.bills[billId]? = some bill ∧ bill.status = .finalized ∧
      isTestSale w'.liveSince bill.finalizedAt = isTestMode w.liveSince := by
  have hlive₀ : LivePast w₀ := fun live h =>
    nomatch (Option.isNone_iff_eq_none.mp hstart).symm.trans h
  have hdone := classified_of_finalize (hlive₀.of_runs hbefore) hclock hop hok
  have hnow := hdone.of_runs hafter
  exact ⟨_, hnow.bill, rfl, hnow.isTestSale⟩

/-! A test sale; then the tenant goes Live, back to Test, and Live again, and makes a real sale,
which keeps it Live. -/

def beforeOpening : World := ⟨false, none, [⟨.open, none⟩], [], 1⟩

def testSale : Event := ⟨2, .finalize 0 (.ok ())⟩

def switchedTwice : List Event :=
  [⟨3, .setMode 1 .live "Opening"⟩, ⟨4, .setMode 1 .test "More training"⟩,
    ⟨5, .setMode 1 .live "Opened"⟩, ⟨6, .createBill⟩, ⟨7, .finalize 1 (.ok ())⟩,
    ⟨8, .setMode 1 .test "One more day"⟩]

def afterOpening : World := switchedTwice.foldl World.handle (beforeOpening.handle testSale)

theorem isTestSale_faithful_switchedTwice :
    ∃ bill, afterOpening.bills[0]? = some bill ∧ bill.status = .finalized ∧
      isTestSale afterOpening.liveSince bill.finalizedAt =
        isTestMode beforeOpening.liveSince := by
  have hallowed : Serial.allowed World.handle (fun w e => decide (w.clock < e.now))
      (beforeOpening.handle testSale) switchedTwice = true := by decide
  have hafter : Runs (beforeOpening.handle testSale) switchedTwice afterOpening :=
    (Serial.Run.of_foldl hallowed).mono fun _ _ h => of_decide_eq_true h
  have hclock : beforeOpening.clock < testSale.now := by decide
  exact isTestSale_faithful (show isTestMode beforeOpening.liveSince = true from rfl) .nil hclock
    rfl rfl hafter

example : afterOpening.liveSince = some 5 := rfl

end RestiqBackend.TestMode
