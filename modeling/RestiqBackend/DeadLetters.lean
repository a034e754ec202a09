import Mathlib.Data.List.Forall2
import Mathlib.Data.List.Nodup
import RestiqBackend.ReadCommitted.Rely

/-!
Replaying dead-lettered operations (`src/ops/dlq/dlq.service.ts`).

An operation that was rejected for good waits in the queue until an operator replays it. What
was applied is in a ledger, whose key is the operation's id: `replayRow` looks it up there, and
only the transaction that inserts it may resolve the row. A bulk replay reads its rows in one
transaction and replays each in one of its own, so the rows it works from are older than the
transactions that use them.
-/

namespace RestiqBackend.DeadLetters

open ReadCommitted

/-! ### Rows -/

structure SyncDeadLetter where
  id : ℕ
  tenantId : ℕ
  deviceId : ℕ
  opId : ℕ
  reasonCode : String
  resolvedAt : Option ℤ
  deriving DecidableEq

structure OpsPrincipal where
  id : ℕ
  email : String
  deriving DecidableEq

structure AuditEvent where
  tenantId : ℕ
  actorId : ℕ
  actorEmail : String
  action : String
  reason : String
  occurredAt : ℤ
  /-- The operation that was replayed, which no column keeps. -/
  opId : ℕ
  deriving DecidableEq

inductive ReplayStatus
  | applied
  | duplicate
  | rejectedAgain
  deriving DecidableEq

structure ReplayResult where
  id : ℕ
  status : ReplayStatus
  deriving DecidableEq

/-- The tables, with what the calls remember beside them: the rows that a bulk replay has read,
and every answer in the order of the commits. -/
structure Store where
  appliedOps : List ℕ
  syncDeadLetters : List SyncDeadLetter
  auditEvents : List AuditEvent
  rows : ℕ → List SyncDeadLetter
  results : List ReplayResult

inductive Key
  | appliedOp (opId : ℕ)
  | deadLetter (id : ℕ)
  deriving DecidableEq

inductive Write
  | createAppliedOp (opId : ℕ)
  | resolve (id : ℕ) (resolvedAt : ℤ)
  | createAuditEvent (event : AuditEvent)
  | keepRows (call : ℕ) (rows : List SyncDeadLetter)
  | answer (result : ReplayResult)

inductive Failure
  | notFound (message : String)
  | uniqueViolation
  | recordNotFound
  deriving DecidableEq

abbrev Tx := Txn Store Key Empty Write Failure

abbrev TxFootprint := Footprint Key Empty Write

def resolveRow (id : ℕ) (resolvedAt : ℤ) (row : SyncDeadLetter) : SyncDeadLetter :=
  if row.id = id then { row with resolvedAt := some resolvedAt } else row

def Store.apply (s : Store) : Write → Store
  | .createAppliedOp opId => { s with appliedOps := s.appliedOps ++ [opId] }
  | .resolve id resolvedAt =>
      { s with syncDeadLetters := s.syncDeadLetters.map (resolveRow id resolvedAt) }
  | .createAuditEvent event => { s with auditEvents := s.auditEvents ++ [event] }
  | .keepRows call rows => { s with rows := Function.update s.rows call rows }
  | .answer result => { s with results := s.results ++ [result] }

instance : WriteTo Write Store := ⟨fun w s => s.apply w⟩

/-! ### Replaying -/

/-- A schema mismatch needs a rollout, not a retry. -/
def nonRecoverableReasonCodes : List String := ["schema_skew"]

def auditReplay (row : SyncDeadLetter) (operator : OpsPrincipal) (action reason : String) :
    Tx Unit := do
  let now ← Txn.clock
  Txn.exec (fun _ => []) fun _ => [.createAuditEvent
    ⟨row.tenantId, operator.id, operator.email, action, reason, now, row.opId⟩]

/-- Puts an operation in the ledger, whose key is its id. -/
def createAppliedOp (opId : ℕ) : Tx Unit := do
  let created ← Txn.writeWhen (fun v : Store => !v.appliedOps.contains opId) [.appliedOp opId]
    [.createAppliedOp opId]
  Txn.throwIf (created = false) .uniqueViolation

def resolve (id : ℕ) : Tx Unit := do
  let now ← Txn.clock
  let updated ← Txn.writeWhen (fun v : Store => v.syncDeadLetters.any (·.id = id))
    [.deadLetter id] [.resolve id now]
  Txn.throwIf (updated = false) .recordNotFound

def replayRow (row : SyncDeadLetter) (operator : OpsPrincipal) (reason : String) :
    Tx ReplayResult := do
  let existing ← Txn.query fun v => v.appliedOps.contains row.opId
  if existing then
    pure ⟨row.id, .duplicate⟩
  else if nonRecoverableReasonCodes.contains row.reasonCode then do
    auditReplay row operator "dlq.replay_rejected" reason
    pure ⟨row.id, .rejectedAgain⟩
  else do
    createAppliedOp row.opId
    resolve row.id
    auditReplay row operator "dlq.replayed" reason
    pure ⟨row.id, .applied⟩

def findUnique (id : ℕ) : Tx SyncDeadLetter := do
  let row ← Txn.query fun v => v.syncDeadLetters.find? (·.id = id)
  match row with
  | none => Txn.throw (.notFound "No such dead-lettered operation")
  | some row => pure row

def replay (operator : OpsPrincipal) (id : ℕ) (reason : String) : Tx ReplayResult := do
  let row ← findUnique id
  replayRow row operator reason

/-- What a bulk replay asks for: the rows of a list of ids, or those a filter leaves. -/
structure BulkReplayDto where
  ids : List ℕ
  tenantId : Option ℕ
  deviceId : Option ℕ
  reasonCode : Option String
  reason : String

def BulkReplayDto.selects (dto : BulkReplayDto) (row : SyncDeadLetter) : Bool :=
  if dto.ids ≠ [] then dto.ids.contains row.id
  else row.resolvedAt.isNone && dto.tenantId.all (· == row.tenantId) &&
    dto.deviceId.all (· == row.deviceId) &&
    dto.reasonCode.all fun code => code == "" || code == row.reasonCode

/-- The transactions of the calls: a replay is one, a bulk replay reads its rows in its first
and replays one of them in each of the others. -/
inductive Call
  | replay (operator : OpsPrincipal) (id : ℕ) (reason : String)
  | replayBulk (call : ℕ) (dto : BulkReplayDto)
  | replayBulkRow (call index : ℕ) (operator : OpsPrincipal) (reason : String)

def answer (result : ReplayResult) : Tx Unit :=
  Txn.exec (fun _ => []) fun _ => [.answer result]

def answerRow (operator : OpsPrincipal) (reason : String) : Option SyncDeadLetter → Tx Unit
  | none => pure ()
  | some row => do
      let result ← replayRow row operator reason
      answer result

def Call.prog : Call → Tx Unit
  | .replay operator id reason => do
      let result ← RestiqBackend.DeadLetters.replay operator id reason
      answer result
  | .replayBulk call dto => do
      let rows ← Txn.query fun v => v.syncDeadLetters.filter dto.selects
      Txn.exec (fun _ => []) fun _ => [.keepRows call rows]
  | .replayBulkRow call index operator reason => do
      let row ← Txn.query fun v => (v.rows call)[index]?
      answerRow operator reason row

/-! ### What is said of the store -/

/-- The operations of the `dlq.replayed` events. -/
def Store.replayed (s : Store) : List ℕ :=
  (s.auditEvents.filter (·.action == "dlq.replayed")).map (·.opId)

/-- A row of the queue is there, however it stands by now. -/
def Stored (row : SyncDeadLetter) (s : Store) : Prop :=
  ∃ row' ∈ s.syncDeadLetters, row'.id = row.id ∧ row'.opId = row.opId

/-- The keys of the two tables, and that the rows a bulk replay has read are rows of the queue. -/
structure Store.Sound (s : Store) : Prop where
  appliedOps_pkey : s.appliedOps.Nodup
  deadLetters_pkey : (s.syncDeadLetters.map (·.id)).Nodup
  rows : ∀ call, ∀ row ∈ s.rows call, Stored row s

/-- A row of the queue before and after the operations `ops` were applied. -/
def RowMoves (ops : List ℕ) (row row' : SyncDeadLetter) : Prop :=
  row'.id = row.id ∧ row'.opId = row.opId ∧ (row' = row ∨ row.opId ∈ ops)

/-- The operations `ops` were applied, each for the first time, and their rows may have been
resolved. -/
structure Gain (ops : List ℕ) (s s' : Store) : Prop where
  fresh : ∀ op ∈ ops, op ∉ s.appliedOps
  ledger : s'.appliedOps = s.appliedOps ++ ops
  replayed : s'.replayed = s.replayed ++ ops
  queue : List.Forall₂ (RowMoves ops) s.syncDeadLetters s'.syncDeadLetters

theorem RowMoves.refl (row : SyncDeadLetter) : RowMoves [] row row := ⟨rfl, rfl, .inl rfl⟩

theorem RowMoves.mono {ops ops' : List ℕ} {row row' : SyncDeadLetter} (h : RowMoves ops row row')
    (hops : ∀ op ∈ ops, op ∈ ops') : RowMoves ops' row row' :=
  ⟨h.1, h.2.1, h.2.2.imp id (hops _)⟩

theorem RowMoves.trans {ops : List ℕ} {row row' row'' : SyncDeadLetter}
    (h : RowMoves ops row row') (h' : RowMoves ops row' row'') : RowMoves ops row row'' := by
  refine ⟨h'.1.trans h.1, h'.2.1.trans h.2.1, ?_⟩
  rcases h'.2.2 with heq | hmem
  · rw [heq]
    exact h.2.2
  · rw [h.2.1] at hmem
    exact .inr hmem

variable {s s' s'' : Store} {ops ops' : List ℕ} {row : SyncDeadLetter} {l : TxFootprint}

theorem Gain.refl (s : Store) : Gain [] s s where
  fresh _ h := absurd h List.not_mem_nil
  ledger := (List.append_nil _).symm
  replayed := (List.append_nil _).symm
  queue := List.forall₂_same.mpr fun row _ => .refl row

/-- Moves of the rows, one after the other. -/
theorem rowMoves_trans {rows rows' rows'' : List SyncDeadLetter}
    (h : List.Forall₂ (RowMoves ops) rows rows') (h' : List.Forall₂ (RowMoves ops') rows' rows'') :
    List.Forall₂ (RowMoves (ops ++ ops')) rows rows'' := by
  induction h generalizing rows'' with
  | nil =>
      cases h'
      exact .nil
  | cons hrow _ ih =>
      cases h' with
      | cons hrow' hrest =>
          refine .cons ?_ (ih hrest)
          exact (hrow.mono fun _ => List.mem_append_left _).trans
            (hrow'.mono fun _ => List.mem_append_right _)

theorem Gain.trans (h : Gain ops s s') (h' : Gain ops' s' s'') : Gain (ops ++ ops') s s'' where
  fresh op hop := by
    rcases List.mem_append.mp hop with hop | hop
    · exact h.fresh op hop
    · have hnot := h'.fresh op hop
      rw [h.ledger, List.mem_append] at hnot
      exact fun hmem => hnot (.inl hmem)
  ledger := by rw [h'.ledger, h.ledger, List.append_assoc]
  replayed := by rw [h'.replayed, h.replayed, List.append_assoc]
  queue := rowMoves_trans h.queue h'.queue

theorem rowMoves_nil_eq {rows rows' : List SyncDeadLetter}
    (h : List.Forall₂ (RowMoves []) rows rows') : rows' = rows := by
  induction h with
  | nil => rfl
  | cons hrow _ ih => rw [ih, hrow.2.2.resolve_right List.not_mem_nil]

theorem Stored.gain (h : Stored row s) (hg : Gain ops s s') : Stored row s' := by
  obtain ⟨stored, hmem, hid, hop⟩ := h
  obtain ⟨stored', hmem', hmoves⟩ : ∃ x ∈ s'.syncDeadLetters, RowMoves ops stored x := by
    have hqueue := hg.queue
    clear hg
    generalize s.syncDeadLetters = rows, s'.syncDeadLetters = rows' at hmem hqueue
    induction hqueue with
    | nil => cases hmem
    | cons hrow _ ih =>
        rcases List.mem_cons.mp hmem with rfl | hmem
        · exact ⟨_, List.mem_cons_self, hrow⟩
        · obtain ⟨x, hx, hmoves⟩ := ih hmem
          exact ⟨x, List.mem_cons_of_mem _ hx, hmoves⟩
  exact ⟨stored', hmem', hmoves.1.trans hid, hmoves.2.1.trans hop⟩

/-! ### The discipline -/

/-- What one commit may do: an answer other than applied comes with nothing applied. -/
def Ends (s s' : Store) : Prop :=
  ∃ ops, Gain ops s s' ∧
    ∀ result, s'.results = s.results ++ [result] → result.status ≠ .applied → ops = []

def discipline : Discipline Store Key Empty Write where
  inv := Store.Sound
  guar s s' := ∃ ops, Gain ops s s'
  keeps k s s' := match k with
    | .appliedOp op => op ∈ s'.appliedOps ↔ op ∈ s.appliedOps
    | .deadLetter _ => True
  heeds _ _ _ := True
  admits _ _ _ := True
  lands _ _ := True
  ends l s := Ends s (applyAll l.writes s)
  guar_refl s := ⟨[], .refl s⟩
  guar_trans _ _ _ := fun ⟨_, h⟩ ⟨_, h'⟩ => ⟨_, h.trans h'⟩
  keeps_refl k s := by cases k <;> simp
  keeps_trans k s s' s'' h h' := by
    cases k with
    | appliedOp op => exact h'.trans h
    | deadLetter id => trivial
  heeds_refl _ _ := trivial
  heeds_trans _ _ _ _ _ _ := trivial

/-- What is written and what is in the queue, whatever the others do. -/
def Wrote (row : SyncDeadLetter) (ws : List Write) (l : TxFootprint) (s : Store) : Prop :=
  l.writes = ws ∧ Stored row s

/-- With the operation's place in the ledger taken and not yet filled for the others. -/
def Holds (row : SyncDeadLetter) (ws : List Write) (l : TxFootprint) (s : Store) : Prop :=
  Wrote row ws l s ∧ .appliedOp row.opId ∈ l.locks ∧ row.opId ∉ s.appliedOps

theorem wrote_stable (row : SyncDeadLetter) (ws : List Write) :
    discipline.Stable (Wrote row ws) := by
  intro l s s' hrely h
  obtain ⟨ops, hgain⟩ := hrely.guar
  exact ⟨h.1, h.2.gain hgain⟩

theorem holds_stable (row : SyncDeadLetter) (ws : List Write) :
    discipline.Stable (Holds row ws) := by
  intro l s s' hrely h
  obtain ⟨hwrote, hlock, hfree⟩ := h
  have hkept : row.opId ∈ s'.appliedOps ↔ row.opId ∈ s.appliedOps := hrely.keeps _ hlock
  exact ⟨wrote_stable row ws l s s' hrely hwrote, hlock, fun hmem => hfree (hkept.mp hmem)⟩

theorem Wrote.add {ws : List Write} (h : Wrote row ws l s) (l' : TxFootprint) :
    Wrote row (ws ++ l'.writes) (l.add l') s :=
  ⟨by rw [Footprint.add_writes, h.1], h.2⟩

theorem Holds.add {ws : List Write} (h : Holds row ws l s) (l' : TxFootprint) :
    Holds row (ws ++ l'.writes) (l.add l') s :=
  ⟨h.1.add l', List.mem_append_left _ h.2.1, h.2.2⟩

/-- What a replay of the row has written by its answer, and after it. -/
def Replayed (row : SyncDeadLetter) (result : ReplayResult) (ws : List Write) (l : TxFootprint)
    (s : Store) : Prop :=
  match result.status with
  | .duplicate => Wrote row ws l s
  | .rejectedAgain => ∃ event, event.action = "dlq.replay_rejected" ∧
      Wrote row ([.createAuditEvent event] ++ ws) l s
  | .applied => ∃ now event, event.action = "dlq.replayed" ∧ event.opId = row.opId ∧
      Holds row
        ([.createAppliedOp row.opId, .resolve row.id now, .createAuditEvent event] ++ ws) l s

theorem replayed_stable (row : SyncDeadLetter) (result : ReplayResult) (ws : List Write) :
    discipline.Stable (Replayed row result ws) := by
  unfold Replayed
  cases result.status with
  | duplicate => exact wrote_stable row ws
  | rejectedAgain =>
      exact .exists fun event => (Discipline.Stable.const _).and (wrote_stable row _)
  | applied =>
      exact .exists fun now => .exists fun event => (Discipline.Stable.const _).and
        ((Discipline.Stable.const _).and (holds_stable row _))

theorem Replayed.add {result : ReplayResult} {ws : List Write} (h : Replayed row result ws l s)
    (l' : TxFootprint) : Replayed row result (ws ++ l'.writes) (l.add l') s := by
  unfold Replayed at h ⊢
  cases hstatus : result.status with
  | duplicate =>
      simp only [hstatus] at h ⊢
      exact h.add l'
  | rejectedAgain =>
      simp only [hstatus] at h ⊢
      obtain ⟨event, haction, h⟩ := h
      exact ⟨event, haction, by simpa using h.add l'⟩
  | applied =>
      simp only [hstatus] at h ⊢
      obtain ⟨now, event, haction, hop, h⟩ := h
      exact ⟨now, event, haction, hop, by simpa using h.add l'⟩

/-! ### The programs keep it -/

theorem auditReplay_wp {P : TxFootprint → Store → Prop} (hP : discipline.Stable P)
    {Q : AuditEvent → TxFootprint → Store → Prop} (hQ : ∀ event, discipline.Stable (Q event))
    {operator : OpsPrincipal} {action reason : String} (h : P l s)
    (hPQ : ∀ event l s, event.action = action → event.opId = row.opId → P l s →
      Q event (l.add ⟨[], [], [.createAuditEvent event]⟩) s) :
    (auditReplay row operator action reason).wp discipline
      (fun _ l s => ∃ event, event.action = action ∧ event.opId = row.opId ∧ Q event l s) l s := by
  refine Txn.wp_clock hP h fun now s h => Txn.wp_stmt hP h fun _ s h _ => ?_
  refine Txn.wp_done (.exists fun event => (Discipline.Stable.const _).and
    ((Discipline.Stable.const _).and (hQ event))) ?_
  exact ⟨_, rfl, rfl, hPQ _ l s rfl rfl h⟩

theorem createAppliedOp_wp (h : Wrote row [] l s) :
    (createAppliedOp row.opId).wp discipline
      (fun _ => Holds row [.createAppliedOp row.opId]) l s := by
  have hstable : ∀ created : Bool, discipline.Stable fun l s =>
      created = true → Holds row [.createAppliedOp row.opId] l s :=
    fun created => .imp _ (holds_stable row _)
  refine Txn.wp_seq (R := fun created l s =>
    created = true → Holds row [.createAppliedOp row.opId] l s) ?_ fun created l s h => ?_
  · refine Txn.wp_writeWhen (wrote_stable row []) hstable h (fun s h hfree _ _ => ?_)
      fun _ _ _ hfalse => absurd hfalse (by simp)
    have hseen : applyAll l.writes s = s := by rw [h.1]; rfl
    rw [hseen] at hfree
    refine ⟨h.add _, ?_, ?_⟩
    · exact List.mem_append_right _ List.mem_cons_self
    · simpa using hfree
  · cases created with
    | false => trivial
    | true => exact Txn.wp_done (holds_stable row _) (h rfl)

theorem resolve_wp {ws : List Write} (h : Holds row ws l s) :
    (resolve row.id).wp discipline
      (fun _ l s => ∃ now, Holds row (ws ++ [.resolve row.id now]) l s) l s := by
  refine Txn.wp_clock (holds_stable row ws) h fun now s h => ?_
  refine Txn.wp_seq (R := fun updated l s => updated = true →
    Holds row (ws ++ [.resolve row.id now]) l s) ?_ fun updated l s h => ?_
  · exact Txn.wp_writeWhen (holds_stable row ws) (fun _ => .imp _ (holds_stable row _)) h
      (fun s h _ _ _ => h.add _) fun _ _ _ hfalse => absurd hfalse (by simp)
  · cases updated with
    | false => trivial
    | true => exact Txn.wp_done (.exists fun _ => holds_stable row _) ⟨now, h rfl⟩

theorem replayRow_wp (operator : OpsPrincipal) (reason : String) (h : Wrote row [] l s) :
    (replayRow row operator reason).wp discipline (fun result => Replayed row result []) l s := by
  refine Txn.wp_query (wrote_stable row []) h fun s h => ?_
  split
  · exact Txn.wp_done (replayed_stable row _ []) h
  · split
    · refine Txn.wp_seq (auditReplay_wp (wrote_stable row [])
        (fun event => wrote_stable row [.createAuditEvent event]) h
        fun event l s _ _ h => h.add _) fun _ l s h => ?_
      obtain ⟨event, haction, -, h⟩ := h
      exact Txn.wp_done (replayed_stable row _ []) ⟨event, haction, h⟩
    · refine Txn.wp_seq (createAppliedOp_wp h) fun _ l s h => ?_
      refine Txn.wp_seq (resolve_wp h) fun _ l s ⟨now, h⟩ => ?_
      refine Txn.wp_seq (auditReplay_wp (holds_stable row _)
        (fun event => holds_stable row _) h fun event l s _ _ h => h.add _) fun _ l s h => ?_
      obtain ⟨event, haction, hop, h⟩ := h
      exact Txn.wp_done (replayed_stable row _ []) ⟨now, event, haction, hop, h⟩

/-! ### What a commit does -/

theorem resolve_moves (hs : s.Sound) (h : Stored row s) (now : ℤ) :
    List.Forall₂ (RowMoves [row.opId]) s.syncDeadLetters
      (s.syncDeadLetters.map (resolveRow row.id now)) := by
  obtain ⟨stored, hstored, hid, hop⟩ := h
  refine List.forall₂_map_right_iff.mpr (List.forall₂_same.mpr fun x hx => ?_)
  unfold resolveRow
  split
  next heq =>
    -- The id is the key of the queue, so this is the row that was replayed.
    have hsame : x = stored :=
      List.inj_on_of_nodup_map hs.deadLetters_pkey hx hstored (heq.trans hid.symm)
    exact ⟨rfl, rfl, .inr (by rw [hsame, hop]; exact List.mem_singleton.mpr rfl)⟩
  next => exact ⟨rfl, rfl, .inl rfl⟩

theorem Store.Sound.gain (hs : s.Sound) (hg : Gain ops s s') (hops : ops.Nodup)
    (hids : s'.syncDeadLetters.map (·.id) = s.syncDeadLetters.map (·.id))
    (hrows : s'.rows = s.rows) : s'.Sound where
  appliedOps_pkey := by
    rw [hg.ledger, List.nodup_append]
    refine ⟨hs.appliedOps_pkey, hops, fun op hop op' hop' heq => ?_⟩
    exact hg.fresh op' hop' (heq ▸ hop)
  deadLetters_pkey := hids ▸ hs.deadLetters_pkey
  rows call row hrow := (hs.rows call row (hrows ▸ hrow)).gain hg

theorem resolve_ids (rows : List SyncDeadLetter) (id : ℕ) (now : ℤ) :
    (rows.map (resolveRow id now)).map (·.id) = rows.map (·.id) := by
  rw [List.map_map]
  refine List.map_congr_left fun x _ => ?_
  simp only [Function.comp_apply, resolveRow]
  split <;> rfl

theorem Replayed.commits {result : ReplayResult} (hs : s.Sound)
    (h : Replayed row result [.answer result] l s) : discipline.Commits l s := by
  intro _
  have hresults : ∀ s' : Store, s'.results = s.results ++ [result] →
      ∀ r, s'.results = s.results ++ [r] → r = result := by
    intro s' h' r hr
    rw [h', List.append_cancel_left_eq, List.singleton_inj] at hr
    exact hr.symm
  unfold Replayed at h
  cases hstatus : result.status with
  | duplicate =>
      simp only [hstatus] at h
      have hgain : Gain [] s (applyAll l.writes s) := by
        rw [h.1]
        exact { Gain.refl s with }
      refine ⟨hs.gain hgain List.nodup_nil (by rw [h.1]; rfl) (by rw [h.1]; rfl), ⟨_, hgain⟩,
        fun k _ => ?_, ⟨_, hgain, fun _ _ _ => rfl⟩⟩
      rw [h.1]
      exact discipline.keeps_refl k s
  | rejectedAgain =>
      simp only [hstatus] at h
      obtain ⟨event, haction, h⟩ := h
      have hgain : Gain [] s (applyAll l.writes s) := by
        rw [h.1]
        refine { Gain.refl s with replayed := ?_ }
        change (List.map _ (List.filter _ (s.auditEvents ++ [event]))) = _
        simp [haction, Store.replayed]
      refine ⟨hs.gain hgain List.nodup_nil (by rw [h.1]; rfl) (by rw [h.1]; rfl), ⟨_, hgain⟩,
        fun k _ => ?_, ⟨_, hgain, fun _ _ _ => rfl⟩⟩
      rw [h.1]
      exact discipline.keeps_refl k s
  | applied =>
      simp only [hstatus] at h
      obtain ⟨now, event, haction, hop, ⟨hwrites, hstored⟩, hlock, hfree⟩ := h
      have hgain : Gain [row.opId] s (applyAll l.writes s) := by
        rw [hwrites]
        refine ⟨fun op hop => ?_, rfl, ?_, resolve_moves hs hstored now⟩
        · rw [List.mem_singleton.mp hop]
          exact hfree
        · change (List.map _ (List.filter _ (s.auditEvents ++ [event]))) = _
          simp [haction, hop, Store.replayed]
      refine ⟨hs.gain hgain (List.nodup_singleton _) ?_ (by rw [hwrites]; rfl), ⟨_, hgain⟩,
        fun k hk => ?_, ⟨_, hgain, fun r hr hr' => ?_⟩⟩
      · rw [hwrites]
        exact resolve_ids s.syncDeadLetters row.id now
      · cases k with
        | deadLetter id => trivial
        | appliedOp op =>
            have hne : op ≠ row.opId := fun heq => hk (heq ▸ hlock)
            change op ∈ (applyAll l.writes s).appliedOps ↔ op ∈ s.appliedOps
            simp [hgain.ledger, hne]
      · -- The answer says that it was applied.
        have hresult := hresults (applyAll l.writes s) (by rw [hwrites]; rfl) r hr
        rw [hresult] at hr'
        exact absurd hstatus hr'

theorem answer_wp {result : ReplayResult} (h : Replayed row result [] l s) :
    (answer result).wp discipline (fun _ => Replayed row result [.answer result]) l s := by
  refine Txn.wp_stmt (replayed_stable row result []) h fun _ s h _ => ?_
  exact Txn.wp_done (replayed_stable row result _) (h.add _)

theorem answerRow_wp (operator : OpsPrincipal) (reason : String) (h : Wrote row [] l s) :
    (do let result ← replayRow row operator reason; answer result).wp discipline
      (fun _ l s => ∃ result, Replayed row result [.answer result] l s) l s :=
  Txn.wp_seq (replayRow_wp operator reason h) fun result _ _ h =>
    Txn.wp_mono (answer_wp h) fun _ _ _ h => ⟨result, h⟩

/-- Reading the rows of a bulk replay. -/
theorem keepRows_commits (hs : s.Sound) {call : ℕ} {rows : List SyncDeadLetter}
    (hrows : ∀ row ∈ rows, Stored row s) (hl : l.writes = [.keepRows call rows]) :
    discipline.Commits l s := by
  intro _
  have hgain : Gain [] s (applyAll l.writes s) := by
    rw [hl]
    exact { Gain.refl s with }
  refine ⟨⟨?_, ?_, fun call' row hrow => ?_⟩, ⟨_, hgain⟩, fun k _ => ?_,
    ⟨_, hgain, fun _ _ _ => rfl⟩⟩
  · rw [hl]
    exact hs.appliedOps_pkey
  · rw [hl]
    exact hs.deadLetters_pkey
  · refine Stored.gain ?_ hgain
    rw [hl] at hrow
    change row ∈ Function.update s.rows call rows call' at hrow
    by_cases hcall : call' = call
    · rw [hcall, Function.update_self] at hrow
      exact hrows row hrow
    · rw [Function.update_of_ne hcall] at hrow
      exact hs.rows call' row hrow
  · rw [hl]
    exact discipline.keeps_refl k s

theorem stored_of_mem (h : row ∈ s.syncDeadLetters) : Stored row s := ⟨row, h, rfl, rfl⟩

/-- Every call keeps the discipline, whatever the others commit in the meantime. -/
theorem Call.wp (call : Call) (hs : s.Sound) :
    call.prog.wp discipline (fun _ => discipline.Commits) .empty s := by
  have hsound : discipline.Stable fun l s => l = .empty ∧ s.Sound :=
    fun _ _ _ hrely h => ⟨h.1, hrely.inv h.2⟩
  -- A row that is in the queue is replayed and answered.
  have hanswered : ∀ {row : SyncDeadLetter} {s : Store} (operator : OpsPrincipal)
      (reason : String), s.Sound → Stored row s →
      (do let result ← replayRow row operator reason; answer result).wp discipline
        (fun _ => discipline.Commits) .empty s := by
    intro row s operator reason hs hstored
    refine Txn.wp_mono (Txn.wp_inv hs (answerRow_wp operator reason ⟨rfl, hstored⟩)) ?_
    exact fun _ _ _ ⟨hs, _, h⟩ => h.commits hs
  cases call with
  | replay operator id reason =>
      change (findUnique id >>= _ >>= _).wp _ _ _ _
      rw [Txn.bind_assoc]
      refine Txn.wp_bind (Txn.wp_query hsound ⟨rfl, hs⟩ fun s ⟨_, hs⟩ => ?_)
      cases hfind : (applyAll (Footprint.empty : TxFootprint).writes s).syncDeadLetters.find?
          (·.id = id) with
      | none => trivial
      | some row =>
          refine Txn.wp_done (Q := fun row => (_ : Tx Unit).wp discipline
            (fun _ => discipline.Commits)) (fun _ _ _ hrely h => Txn.wp_rely h hrely) ?_
          exact hanswered operator reason hs (stored_of_mem (List.mem_of_find?_eq_some hfind))
  | replayBulk call dto =>
      have hread : ∀ rows : List SyncDeadLetter, discipline.Stable fun l s =>
          l = .empty ∧ s.Sound ∧ ∀ row ∈ rows, Stored row s := by
        intro rows l s s' hrely ⟨hl, hs, hrows⟩
        obtain ⟨ops, hgain⟩ := hrely.guar
        exact ⟨hl, hrely.inv hs, fun row hrow => (hrows row hrow).gain hgain⟩
      refine Txn.wp_query hsound ⟨rfl, hs⟩ fun s ⟨_, hs⟩ => ?_
      refine Txn.wp_stmt (hread (s.syncDeadLetters.filter dto.selects)) ⟨rfl, hs, fun row hrow =>
        stored_of_mem (List.mem_filter.mp hrow).1⟩ fun _ s ⟨_, hs, hrows⟩ _ s' hrely => ?_
      obtain ⟨ops, hgain⟩ := hrely.guar
      exact keepRows_commits (hrely.inv hs) (fun row hrow => (hrows row hrow).gain hgain) rfl
  | replayBulkRow call index operator reason =>
      refine Txn.wp_query hsound ⟨rfl, hs⟩ fun s ⟨_, hs⟩ => ?_
      cases hrow : ((applyAll (Footprint.empty : TxFootprint).writes s).rows call)[index]? with
      | none =>
          intro s' hrely _
          have hgain : Gain [] s' s' := .refl s'
          exact ⟨hrely.inv hs, ⟨_, hgain⟩, fun k _ => discipline.keeps_refl k s',
            ⟨_, hgain, fun _ _ _ => rfl⟩⟩
      | some row => exact hanswered operator reason hs (hs.rows call row (List.mem_of_getElem? hrow))

/-! ### Exactly once -/

/-- What a commit does to the queue: a row that it changes is one whose operation it put in the
ledger, and one that answers anything but applied changes neither. -/
structure Resolves (s s' : Store) : Prop where
  resolved : ∀ row ∈ s'.syncDeadLetters, row ∉ s.syncDeadLetters →
    row.opId ∉ s.appliedOps ∧ row.opId ∈ s'.appliedOps
  unchanged : ∀ result, s'.results = s.results ++ [result] → result.status ≠ .applied →
    s'.appliedOps = s.appliedOps ∧ s'.syncDeadLetters = s.syncDeadLetters

theorem Ends.resolves (h : Ends s s') : Resolves s s' := by
  obtain ⟨ops, hgain, hnone⟩ := h
  constructor
  · intro row' hrow' hnew
    obtain ⟨row, hrow, hmoves⟩ : ∃ row ∈ s.syncDeadLetters, RowMoves ops row row' := by
      have hqueue := hgain.queue
      clear hgain hnew
      generalize s.syncDeadLetters = rows, s'.syncDeadLetters = rows' at hrow' hqueue
      induction hqueue with
      | nil => cases hrow'
      | cons hhead _ ih =>
          rcases List.mem_cons.mp hrow' with rfl | hrow'
          · exact ⟨_, List.mem_cons_self, hhead⟩
          · obtain ⟨x, hx, hmoves⟩ := ih hrow'
            exact ⟨x, List.mem_cons_of_mem _ hx, hmoves⟩
    have hop : row'.opId ∈ ops := by
      rcases hmoves.2.2 with heq | hop
      · exact absurd (heq ▸ hrow) hnew
      · rw [hmoves.2.1]
        exact hop
    rw [hgain.ledger]
    exact ⟨hgain.fresh _ hop, List.mem_append_right _ hop⟩
  · intro result hresult hstatus
    obtain rfl := hnone result hresult hstatus
    exact ⟨by rw [hgain.ledger, List.append_nil], rowMoves_nil_eq hgain.queue⟩

/-- The transactions of the calls. -/
def IsCall (p : Tx Unit) : Prop := ∃ call : Call, p = call.prog

/-- However replays and bulk replays interleave: the operations that were applied are new to
the ledger, each is in it once and has one event, and every commit resolves only rows whose
operation it put there. -/
theorem replay_exactly_once (hs : s.Sound) {S : System Store Key Empty Write Failure}
    {es : List (Event Store Key Empty Write Failure)}
    (h : Run IsCall (fun _ _ => True) (System.start s) es S) :
    (∃ ops : List ℕ, ops.Nodup ∧ (∀ op ∈ ops, op ∉ s.appliedOps) ∧
      S.store.appliedOps = s.appliedOps ++ ops ∧ S.store.replayed = s.replayed ++ ops) ∧
    ∀ t S', S.step (.commit t) = some S' → Resolves S.store S'.store := by
  have hP : ∀ p, IsCall p → ∀ s, discipline.inv s →
      p.wp discipline (fun _ => discipline.Commits) .empty s := by
    rintro p ⟨call, rfl⟩ s hs
    exact call.wp hs
  have hrespects : ∀ (S : System Store Key Empty Write Failure) e, True →
      discipline.Respects S e := by
    intro S e _
    cases e with
    | commit t => exact fun _ _ => ⟨trivial, fun _ _ _ _ _ _ => trivial⟩
    | stmt t env => exact fun _ _ _ _ _ => trivial
    | _ => trivial
  obtain ⟨hS, hguar⟩ := discipline.sound hP hrespects (.start hs) h
  refine ⟨?_, fun t S' hstep => ?_⟩
  · obtain ⟨ops, hgain⟩ := hguar
    have hledger : (s.appliedOps ++ ops).Nodup := by
      have heq : S.store.appliedOps = s.appliedOps ++ ops := hgain.ledger
      rw [← heq]
      exact hS.inv.appliedOps_pkey
    exact ⟨ops, (List.nodup_append.mp hledger).2.1, hgain.fresh, hgain.ledger, hgain.replayed⟩
  · simp only [System.step] at hstep
    split at hstep
    next u l hx =>
      obtain rfl := Option.some.inj hstep
      exact (hS.commits hx trivial).ends.resolves
    next => cases hstep

/-- Two rows of one operation in the queue, and one that no retry helps. -/
def sampleStore : Store where
  appliedOps := []
  syncDeadLetters := [⟨1, 1, 5, 10, "rejected", none⟩, ⟨2, 1, 6, 10, "rejected", none⟩,
    ⟨3, 1, 6, 11, "schema_skew", none⟩]
  auditEvents := []
  rows := fun _ => []
  results := []

theorem sampleStore_sound : sampleStore.Sound where
  appliedOps_pkey := by decide
  deadLetters_pkey := by decide
  rows _ _ h := absurd h List.not_mem_nil

def sampleOperator : OpsPrincipal := ⟨4, "ops@restiq"⟩

/-- A bulk replay of the whole queue, and a replay of its first row that gets there before it. -/
def twoOperators : List (Event Store Key Empty Write Failure) := List.flatten
  [[.begin (Call.replayBulk 0 ⟨[], none, none, none, "fixed"⟩).prog], turns 0 2 0,
    [.commit 0, .begin (Call.replay sampleOperator 1 "fixed").prog,
      .begin (Call.replayBulkRow 0 0 sampleOperator "fixed").prog],
    turns 1 2 2, turns 2 2 4, turns 1 6 6, [.commit 1], turns 2 1 12, [.rollback 2],
    [.begin (Call.replayBulkRow 0 1 sampleOperator "fixed").prog], turns 3 3 13, [.commit 3],
    [.begin (Call.replayBulkRow 0 2 sampleOperator "fixed").prog], turns 4 5 16, [.commit 4]]

theorem replay_exactly_once_sample : ∃ S,
    Run IsCall (fun _ _ => True) (System.start sampleStore) twoOperators S ∧
    S.store.results = [⟨1, .applied⟩, ⟨2, .duplicate⟩, ⟨3, .rejectedAgain⟩] ∧
    (∃ ops : List ℕ, ops.Nodup ∧ S.store.appliedOps = ops ∧ S.store.replayed = ops) := by
  have hplayed : ((System.start sampleStore).play twoOperators).map (·.store.results) =
      some [⟨1, .applied⟩, ⟨2, .duplicate⟩, ⟨3, .rejectedAgain⟩] := by rfl
  obtain ⟨S, -, hrun, hresults⟩ := Run.of_play_map (P := IsCall) hplayed fun p hp => by
    simp only [twoOperators, List.flatten_cons, List.flatten_nil, List.mem_append, List.mem_cons,
      begin_notMem_turns, Event.begin.injEq, reduceCtorEq, List.not_mem_nil, or_false,
      false_or] at hp
    rcases hp with rfl | (rfl | rfl) | rfl | rfl <;> exact ⟨_, rfl⟩
  obtain ⟨⟨ops, hnodup, -, hledger, hreplayed⟩, -⟩ := replay_exactly_once sampleStore_sound hrun
  exact ⟨S, hrun, hresults, ops, hnodup, hledger, hreplayed⟩

end RestiqBackend.DeadLetters
