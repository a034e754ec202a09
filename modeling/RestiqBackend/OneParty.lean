import RestiqBackend.GuestTables

/-!
One party at a table.

However the requests interleave, a table never has two open sessions or two orders that are not
closed, a session that has ended stays ended, a guest of a table's session is the one who started it
or was let in for its PIN, and a token is for a guest of the session it names. The two indexes are
followed through `Entry` and `Move`: a transaction that adds an open row holds the table's key until
it ends, and those who do not hold it can only take rows away.
-/

namespace RestiqBackend.GuestTables

open ReadCommitted

/-! ### What is said of the rows -/

/-- The same session later: it may have ended, and then it stays so. -/
structure TableSession.Continues (x x' : TableSession) : Prop where
  same : x' = { x with status := x'.status, closedAt := x'.closedAt }
  ended : x.status ≠ .open → x'.status ≠ .open

/-- A guest of the session: who started it, or somebody who was asked for its PIN. -/
structure Guest.Belongs (g : Guest) (x : TableSession) : Prop where
  session : x.id = g.sessionId
  pin : ∀ pin ∈ g.shown, x.tableId.isSome = true ∧ x.sessionPin = pin
  starter : g.shown = none → x.tableId.isSome = true →
    g.name = x.startedByGuestName ∧ g.phone = some x.startedByGuestPhone

/-- A table of the outlet. -/
def Store.Has (s : Store) (tableId outletId : ℕ) : Prop :=
  ∃ table ∈ s.tables, table.id = tableId ∧ table.outletId = outletId

/-- The session a token is for. -/
structure GuestPrincipal.IsFor (p : GuestPrincipal) (x : TableSession) : Prop where
  session : x.id = p.sessionId
  outlet : x.outletId = p.outletId
  table : x.tableId = p.tableId

/-- The guest a token was signed for. -/
structure GuestPrincipal.IsOf (p : GuestPrincipal) (g : Guest) : Prop where
  guest : g.id = p.id
  session : g.sessionId = p.sessionId
  name : g.name = p.name

/-- What rows say of each other: sessions and orders are at tables of their outlets, a guest is one
of its session, and a token names a guest and the session it is in. -/
structure Grounded (s : Store) : Prop where
  sessions : ∀ x ∈ s.sessions, ∀ t, x.tableId = some t → s.Has t x.outletId
  orders : ∀ o ∈ s.orders, ∀ t, o.tableId = some t → s.Has t o.outletId
  guests : ∀ g ∈ s.guests, ∃ x ∈ s.sessions, g.Belongs x
  tokens : ∀ p ∈ s.tokens, (∃ x ∈ s.sessions, p.IsFor x) ∧ ∃ g ∈ s.guests, p.IsOf g
  tableIds : (s.tables.map (·.id)).Nodup

structure Sound (s : Store) : Prop extends Grounded s where
  sessionIds : ∀ id, (s.sessions.filter (·.id = id)).length ≤ 1
  oneSession : ∀ tableId, (s.sessions.filter (·.isOpenAt tableId)).length ≤ 1
  orderIds : ∀ id, (s.orders.filter (·.id = id)).length ≤ 1
  oneOrder : ∀ tableId, (s.orders.filter (·.isActiveAt tableId)).length ≤ 1

/-- What any number of commits does to sessions, their guests and their tokens. -/
structure Later (s s' : Store) : Prop where
  sessions : ∀ x ∈ s.sessions, ∃ x' ∈ s'.sessions, x.Continues x'
  guests : s.guests <+: s'.guests
  tokens : s.tokens <+: s'.tokens
  tables : s'.tables = s.tables

section Later

variable {s s' s'' : Store} {x x' x'' : TableSession} {g : Guest}

theorem TableSession.Continues.refl (x : TableSession) : x.Continues x :=
  ⟨rfl, fun hx => hx⟩

theorem TableSession.Continues.trans (h : x.Continues x') (h' : x'.Continues x'') :
    x.Continues x'' where
  same := by
    rw [h'.same, h.same]
  ended hx := h'.ended (h.ended hx)

theorem TableSession.Continues.tableId_eq (h : x.Continues x') : x'.tableId = x.tableId := by
  rw [h.same]

theorem TableSession.continues_ended (settled : Bool) (closedAt : ℤ) (x : TableSession) :
    x.Continues (x.ended settled closedAt) := by
  refine ⟨rfl, fun _ => ?_⟩
  cases settled <;> exact SessionStatus.noConfusion

theorem Guest.Belongs.continues (h : g.Belongs x) (hx : x.Continues x') : g.Belongs x' := by
  obtain ⟨hsession, hpin, hstarter⟩ := h
  rw [hx.same]
  exact ⟨hsession, hpin, hstarter⟩

theorem GuestPrincipal.IsFor.continues {p : GuestPrincipal} (h : p.IsFor x)
    (hx : x.Continues x') : p.IsFor x' := by
  rw [hx.same]
  exact ⟨h.session, h.outlet, h.table⟩

theorem Later.refl (s : Store) : Later s s :=
  ⟨fun x hx => ⟨x, hx, .refl x⟩, List.prefix_rfl, List.prefix_rfl, rfl⟩

theorem Later.trans (h : Later s s') (h' : Later s' s'') : Later s s'' := by
  refine ⟨fun x hx => ?_, h.guests.trans h'.guests, h.tokens.trans h'.tokens,
    h'.tables.trans h.tables⟩
  obtain ⟨x', hx', hcontinues⟩ := h.sessions x hx
  obtain ⟨x'', hx'', hcontinues'⟩ := h'.sessions x' hx'
  exact ⟨x'', hx'', hcontinues.trans hcontinues'⟩

theorem Later.has (h : Later s s') {t outletId : ℕ} (hhas : s.Has t outletId) :
    s'.Has t outletId := by
  rw [Store.Has, h.tables]
  exact hhas

theorem later_apply (w : Write) (s : Store) : Later s (s.apply w) := by
  have hsame : ∀ x ∈ s.sessions, ∃ x' ∈ s.sessions, x.Continues x' :=
    fun x hx => ⟨x, hx, .refl x⟩
  cases w with
  | createSession session =>
      exact ⟨fun x hx => ⟨x, List.mem_append_left _ hx, .refl x⟩, List.prefix_rfl,
        List.prefix_rfl, rfl⟩
  | endSession id settled closedAt =>
      refine ⟨fun x hx => ⟨_, List.mem_map_of_mem hx, ?_⟩, List.prefix_rfl, List.prefix_rfl, rfl⟩
      split
      · exact x.continues_ended settled closedAt
      · exact .refl x
  | createGuest guest => exact ⟨hsame, List.prefix_append _ _, List.prefix_rfl, rfl⟩
  | signGuestToken guest => exact ⟨hsame, List.prefix_rfl, List.prefix_append _ _, rfl⟩
  | _ => exact ⟨hsame, List.prefix_rfl, List.prefix_rfl, rfl⟩

theorem later_applyAll (ws : List Write) (s : Store) : Later s (applyAll ws s) := by
  induction ws generalizing s with
  | nil => exact .refl s
  | cons w ws ih => exact (later_apply w s).trans (ih (s.apply w))

end Later

/-! ### The indexes -/

/-- The rows with the value of an index. -/
def Store.entries (s : Store) : Key → List (Entry ℕ)
  | .session id => (s.sessions.filter (·.id = id)).map fun x => ⟨x.id, true⟩
  | .openSession t =>
      (s.sessions.filter (·.tableId = some t)).map fun x => ⟨x.id, x.status = .open⟩
  | .order id => (s.orders.filter (·.id = id)).map fun o => ⟨o.id, true⟩
  | .activeOrder t =>
      (s.orders.filter (·.tableId = some t)).map fun o => ⟨o.id, o.status ≠ .closed⟩

/-- What a write does to them. -/
def Write.moves : Write → Key → List (Move ℕ)
  | .createSession x, .session id => if x.id = id then [.add ⟨x.id, true⟩] else []
  | .createSession x, .openSession t =>
      if x.tableId = some t then [.add ⟨x.id, x.status = .open⟩] else []
  | .endSession id _ _, .openSession _ => [.mark id false]
  | .createOrder o, .order id => if o.id = id then [.add ⟨o.id, true⟩] else []
  | .createOrder o, .activeOrder t =>
      if o.tableId = some t then [.add ⟨o.id, o.status ≠ .closed⟩] else []
  | .updateOrderStatus id status, .activeOrder _ => [.mark id (status ≠ .closed)]
  | .detachTable id, .activeOrder _ => [.drop id]
  | .deleteOrder id, .activeOrder _ => [.drop id]
  | .deleteOrder id, .order _ => [.drop id]
  | _, _ => []

section Entries

variable {α : Type} {p : α → Bool} {g : α → Entry ℕ} {f : α → α}

/-- Rows are changed, and none comes to the value or leaves it. -/
theorem entries_map {m : Entry ℕ → Entry ℕ} (hp : ∀ a, p (f a) = p a) (hg : ∀ a, g (f a) = m (g a))
    (as : List α) : ((as.map f).filter p).map g = ((as.filter p).map g).map m := by
  have hcomp : p ∘ f = p := funext hp
  rw [List.filter_map, List.map_map, List.map_map, hcomp]
  exact List.map_congr_left fun a _ => hg a

/-- Rows are changed as the index does not see. -/
theorem entries_map_same (hp : ∀ a, p (f a) = p a) (hg : ∀ a, g (f a) = g a) (as : List α) :
    ((as.map f).filter p).map g = (as.filter p).map g := by
  rw [entries_map (m := fun e => e) hp hg, List.map_id']

/-- Rows leave the value: those that `q` drops. -/
theorem entries_drop {q : Entry ℕ → Bool} (hp : ∀ a, p (f a) = (p a && q (g a)))
    (hg : ∀ a, q (g a) = true → f a = a) (as : List α) :
    ((as.map f).filter p).map g = ((as.filter p).map g).filter q := by
  rw [List.filter_map, List.map_map, List.filter_map, List.filter_filter]
  have hcomp : p ∘ f = fun a => p a && q (g a) := funext hp
  have hcomm : (fun a => (q ∘ g) a && p a) = fun a => p a && q (g a) :=
    funext fun a => Bool.and_comm _ _
  rw [hcomp, hcomm]
  refine List.map_congr_left fun a ha => ?_
  have hq := (Bool.and_eq_true_iff.mp (List.mem_filter.mp ha).2).2
  exact congrArg g (hg a hq)

theorem entries_filter {q : Entry ℕ → Bool} (as : List α) :
    ((as.filter fun a => q (g a)).filter p).map g = ((as.filter p).map g).filter q := by
  rw [List.filter_map, List.filter_filter, List.filter_filter]
  exact congrArg _ (List.filter_congr fun a _ => Bool.and_comm _ _)

end Entries

theorem entries_apply (w : Write) (s : Store) (k : Key) :
    (s.apply w).entries k = actAll (w.moves k) (s.entries k) := by
  cases w with
  | createSession x =>
      cases k with
      | session id =>
          by_cases hid : x.id = id <;> simp [Store.apply, Store.entries, Write.moves, Move.act, hid]
      | openSession t =>
          by_cases ht : x.tableId = some t <;>
            simp [Store.apply, Store.entries, Write.moves, Move.act, ht]
      | _ => rfl
  | endSession id settled closedAt =>
      cases k with
      | session id' =>
          refine entries_map_same (fun x => ?_) (fun x => ?_) s.sessions <;> split <;> rfl
      | openSession t =>
          refine entries_map (fun x => ?_) (fun x => ?_) s.sessions
          · split <;> rfl
          · by_cases hid : x.id = id
            · cases settled <;> simp [hid, TableSession.ended]
            · simp [hid]
      | _ => rfl
  | createOrder o =>
      cases k with
      | order id =>
          by_cases hid : o.id = id <;> simp [Store.apply, Store.entries, Write.moves, Move.act, hid]
      | activeOrder t =>
          by_cases ht : o.tableId = some t <;>
            simp [Store.apply, Store.entries, Write.moves, Move.act, ht]
      | _ => rfl
  | updateOrderStatus id status =>
      cases k with
      | order id' =>
          refine entries_map_same (fun o => ?_) (fun o => ?_) s.orders <;> split <;> rfl
      | activeOrder t =>
          refine entries_map (fun o => ?_) (fun o => ?_) s.orders
          · split <;> rfl
          · by_cases hid : o.id = id <;> simp [hid]
      | _ => rfl
  | updateOrderOwner id ownerId =>
      cases k with
      | order id' =>
          refine entries_map_same (fun o => ?_) (fun o => ?_) s.orders <;> split <;> rfl
      | activeOrder t =>
          refine entries_map_same (fun o => ?_) (fun o => ?_) s.orders <;> split <;> rfl
      | _ => rfl
  | detachTable id =>
      cases k with
      | order id' =>
          refine entries_map_same (fun o => ?_) (fun o => ?_) s.orders <;> split <;> rfl
      | activeOrder t =>
          refine entries_drop (fun o => ?_) (fun o ho => ?_) s.orders
          · by_cases hid : o.id = id <;> simp [hid]
          · exact if_neg (of_decide_eq_true ho)
      | _ => rfl
  | deleteOrder id =>
      cases k with
      | order id' =>
          exact entries_filter (q := (·.id ≠ id)) (g := fun o : Order => ⟨o.id, true⟩) s.orders
      | activeOrder t =>
          exact entries_filter (q := (·.id ≠ id))
            (g := fun o : Order => ⟨o.id, o.status ≠ .closed⟩) s.orders
      | _ => rfl
  | _ => cases k <;> rfl

theorem entries_applyAll (ws : List Write) (s : Store) (k : Key) :
    (applyAll ws s).entries k = actAll (ws.flatMap (·.moves k)) (s.entries k) := by
  induction ws generalizing s with
  | nil => rfl
  | cons w ws ih =>
      rw [applyAll_cons, ih, writeTo_apply, entries_apply, List.flatMap_cons, actAll_append]

/-- An index enforces that one row with the value is live. -/
theorem oneLive_iff {α : Type} {as : List α} {p live : α → Bool} {id : α → ℕ} :
    OneLive ((as.filter p).map fun a => ⟨id a, live a⟩) ↔
      (as.filter fun a => p a && live a).length ≤ 1 := by
  have hfilter : as.filter (fun a => live a && p a) = as.filter fun a => p a && live a :=
    List.filter_congr fun a _ => Bool.and_comm _ _
  rw [OneLive, List.filter_map, List.length_map, List.filter_filter, ← hfilter]
  exact Iff.rfl

theorem oneLive_all_iff {α : Type} {as : List α} {p : α → Bool} {id : α → ℕ} :
    OneLive ((as.filter p).map fun a => ⟨id a, true⟩) ↔ (as.filter p).length ≤ 1 := by
  have h := @oneLive_iff α as p (fun _ => true) id
  simpa only [Bool.and_true] using h

/-- What the database and the programs see to, index by index. -/
theorem sound_iff {s : Store} : Sound s ↔ (∀ k, OneLive (s.entries k)) ∧ Grounded s := by
  constructor
  · refine fun h => ⟨fun k => ?_, h.toGrounded⟩
    cases k with
    | session id => exact oneLive_all_iff.mpr (h.sessionIds id)
    | openSession t => exact oneLive_iff.mpr (h.oneSession t)
    | order id => exact oneLive_all_iff.mpr (h.orderIds id)
    | activeOrder t => exact oneLive_iff.mpr (h.oneOrder t)
  · refine fun h => ⟨h.2, fun id => ?_, fun t => ?_, fun id => ?_, fun t => ?_⟩
    · exact oneLive_all_iff.mp (h.1 (.session id))
    · exact oneLive_iff.mp (h.1 (.openSession t))
    · exact oneLive_all_iff.mp (h.1 (.order id))
    · exact oneLive_iff.mp (h.1 (.activeOrder t))

/-! ### Along a request -/

/-- The rows with an order's identifier. -/
def Store.orderRows (s : Store) (id : ℕ) : List Order := s.orders.filter (·.id = id)

/-- What is left alone by those who do not hold the key: an order's row altogether, and of the
rows with another value only some may go. -/
def LeftAlone (s s' : Store) : Key → Prop
  | .order id => s'.orderRows id = s.orderRows id
  | k => Fewer (s'.entries k) (s.entries k)

theorem LeftAlone.fewer {s s' : Store} {k : Key} (h : LeftAlone s s' k) :
    Fewer (s'.entries k) (s.entries k) := by
  cases k with
  | order id =>
      have heq : s'.entries (.order id) = s.entries (.order id) :=
        congrArg (List.map fun o : Order => (⟨o.id, true⟩ : Entry ℕ)) h
      exact heq ▸ .refl _
  | _ => exact h

def discipline : Discipline Store Key Empty Write where
  inv := Sound
  guar := Later
  keeps k s s' := LeftAlone s s' k
  heeds _ _ _ := True
  admits _ _ _ := True
  lands _ _ := True
  ends _ _ := True
  guar_refl := .refl
  guar_trans _ _ _ := .trans
  keeps_refl k s := by
    cases k with
    | order id => rfl
    | _ => exact .refl _
  keeps_trans k s s' s'' h h' := by
    cases k with
    | order id => exact Eq.trans h' h
    | _ => exact Fewer.trans h' h
  heeds_refl _ _ := trivial
  heeds_trans _ _ _ _ _ _ := trivial

/-- The orders whose rows a write is about. -/
def Write.orderIds : Write → List ℕ
  | .createOrder o => [o.id]
  | .updateOrderStatus id _ | .updateOrderOwner id _ | .detachTable id | .deleteOrder id => [id]
  | _ => []

/-- A session that is there, or that the transaction is about to add. -/
def Known (x : TableSession) (l : TxFootprint) (s : Store) : Prop :=
  .createSession x ∈ l.writes ∨ ∃ x' ∈ s.sessions, x.Continues x'

/-- What a new row says of others is so. -/
def Write.Grounded (l : TxFootprint) (s : Store) : Write → Prop
  | .createSession x => ∀ t, x.tableId = some t → s.Has t x.outletId
  | .createOrder o => ∀ t, o.tableId = some t → s.Has t o.outletId
  | .createGuest g => ∃ x, Known x l s ∧ g.Belongs x
  | .signGuestToken p =>
      (∃ x, Known x l s ∧ p.IsFor x) ∧ ∃ g, (.createGuest g ∈ l.writes ∨ g ∈ s.guests) ∧ p.IsOf g
  | _ => True

/-- The writes fit the rows as they are: made now, they would break no index, and they break none
that the transaction does not hold. -/
structure Fits (l : TxFootprint) (s : Store) : Prop where
  sound : Sound s
  one : ∀ k, OneLive (actAll (l.writes.flatMap (·.moves k)) (s.entries k))
  calm : ∀ k, k ∉ l.locks → ∀ w ∈ l.writes, ∀ m ∈ w.moves k, m.Calm (s.entries k)
  held : ∀ w ∈ l.writes, ∀ id ∈ w.orderIds, .order id ∈ l.locks
  grounded : ∀ w ∈ l.writes, w.Grounded l s

section Along

variable {l l' : TxFootprint} {s s' : Store} {x : TableSession} {w : Write} {k : Key}

theorem Sound.oneLive (h : Sound s) (k : Key) : OneLive (s.entries k) := (sound_iff.mp h).1 k

theorem known_stable (x : TableSession) : discipline.Stable (Known x) := by
  intro l s s' hrely h
  have hlater : Later s s' := hrely.guar
  refine h.imp_right fun hrow => ?_
  obtain ⟨x', hx', hcontinues⟩ := hrow
  obtain ⟨x'', hx'', hcontinues'⟩ := hlater.sessions x' hx'
  exact ⟨x'', hx'', hcontinues.trans hcontinues'⟩

theorem grounded_stable (w : Write) : discipline.Stable fun l s => w.Grounded l s := by
  intro l s s' hrely h
  have hlater : Later s s' := hrely.guar
  cases w with
  | createSession x => exact fun t ht => hlater.has (h t ht)
  | createOrder o => exact fun t ht => hlater.has (h t ht)
  | createGuest g =>
      obtain ⟨x, hknown, hbelongs⟩ := h
      exact ⟨x, known_stable x l s s' hrely hknown, hbelongs⟩
  | signGuestToken p =>
      obtain ⟨⟨x, hknown, hfor⟩, g, hg, hof⟩ := h
      exact ⟨⟨x, known_stable x l s s' hrely hknown, hfor⟩, g,
        hg.imp_right fun hg => hlater.guests.subset hg, hof⟩
  | _ => trivial

theorem Known.add (h : Known x l s) (l' : TxFootprint) : Known x (l.add l') s :=
  h.imp (List.mem_append_left _) id

theorem Write.Grounded.add (h : w.Grounded l s) (l' : TxFootprint) : w.Grounded (l.add l') s := by
  cases w with
  | createGuest g =>
      obtain ⟨x, hknown, hbelongs⟩ := h
      exact ⟨x, hknown.add l', hbelongs⟩
  | signGuestToken p =>
      obtain ⟨⟨x, hknown, hfor⟩, g, hg, hof⟩ := h
      exact ⟨⟨x, hknown.add l', hfor⟩, g, hg.imp_left (List.mem_append_left _), hof⟩
  | _ => exact h

/-- Only a change of an order's status marks a row as live, and it is an order's. -/
theorem calm_or_status {m : Move ℕ} (hm : m ∈ w.moves k) (es : List (Entry ℕ)) :
    (∃ e, m = .add e) ∨ m.Calm es ∨
      ∃ id status t, w = .updateOrderStatus id status ∧ k = .activeOrder t ∧
        m = .mark id (status ≠ .closed) := by
  cases m with
  | add e => exact .inl ⟨e, rfl⟩
  | drop id => exact .inr (.inl trivial)
  | mark id live =>
      cases w with
      | endSession id' settled closedAt =>
          cases k with
          | openSession t =>
              rw [Write.moves, List.mem_singleton, Move.mark.injEq] at hm
              exact .inr (.inl fun hlive => absurd (hm.2.symm.trans hlive) Bool.false_ne_true)
          | _ => exact absurd hm List.not_mem_nil
      | updateOrderStatus id' status =>
          cases k with
          | activeOrder t =>
              rw [Write.moves, List.mem_singleton] at hm
              exact .inr (.inr ⟨id', status, t, rfl, rfl, hm⟩)
          | _ => exact absurd hm List.not_mem_nil
      | createSession x =>
          cases k <;> simp only [Write.moves] at hm <;> first
            | exact absurd hm List.not_mem_nil
            | (split at hm <;> simp at hm)
      | createOrder o =>
          cases k <;> simp only [Write.moves] at hm <;> first
            | exact absurd hm List.not_mem_nil
            | (split at hm <;> simp at hm)
      | detachTable id' => cases k <;> simp [Write.moves] at hm
      | deleteOrder id' => cases k <;> simp [Write.moves] at hm
      | _ => cases k <;> exact absurd hm List.not_mem_nil

theorem fits_stable : discipline.Stable Fits := by
  intro l s s' hrely h
  have hsound : Sound s' := hrely.inv h.sound
  have hcalm : ∀ k, k ∉ l.locks → ∀ w ∈ l.writes, ∀ m ∈ w.moves k, m.Calm (s'.entries k) := by
    intro k hk w hw m hm
    have hbefore := h.calm k hk w hw m hm
    rcases calm_or_status hm (s'.entries k) with ⟨e, rfl⟩ | hcalm | ⟨id, status, t, rfl, rfl, rfl⟩
    · exact hbefore.elim
    · exact hcalm
    · -- The row is held, so it is at the table now only if it was before.
      intro hlive e he hid
      have hrows : s'.orderRows id = s.orderRows id :=
        hrely.keeps _ (h.held _ hw id (List.mem_singleton_self id))
      obtain ⟨o, ho, rfl⟩ := List.mem_map.mp he
      obtain ⟨ho, htable⟩ := List.mem_filter.mp ho
      have hmem : o ∈ s'.orderRows id := List.mem_filter.mpr ⟨ho, decide_eq_true hid⟩
      rw [hrows] at hmem
      have hentry : (⟨o.id, o.status ≠ .closed⟩ : Entry ℕ) ∈ s.entries (.activeOrder t) :=
        List.mem_map.mpr ⟨o, List.mem_filter.mpr ⟨(List.mem_filter.mp hmem).1, htable⟩, rfl⟩
      exact hbefore hlive _ hentry hid
  refine ⟨hsound, fun k => ?_, hcalm, h.held,
    fun w hw => grounded_stable w l s s' hrely (h.grounded w hw)⟩
  · by_cases hk : k ∈ l.locks
    · have hleft : LeftAlone s s' k := hrely.keeps k hk
      exact (hleft.fewer.actAll _).oneLive (h.one k)
    · refine (fewer_of_calm fun m hm => ?_).oneLive (hsound.oneLive k)
      obtain ⟨w, hw, hm⟩ := List.mem_flatMap.mp hm
      exact hcalm k hk w hw m hm

theorem guests_applyAll {g : Guest} {ws : List Write} (hg : g ∈ (applyAll ws s).guests) :
    g ∈ s.guests ∨ .createGuest g ∈ ws := by
  induction ws generalizing s with
  | nil => exact .inl hg
  | cons w ws ih =>
      rcases ih hg with hg | hg
      · cases w with
        | createGuest guest =>
            rcases List.mem_append.mp hg with hg | hg
            · exact .inl hg
            · exact .inr (List.mem_singleton.mp hg ▸ List.mem_cons_self)
        | _ => exact .inl hg
      · exact .inr (List.mem_cons_of_mem _ hg)

theorem tokens_applyAll {p : GuestPrincipal} {ws : List Write}
    (hp : p ∈ (applyAll ws s).tokens) : p ∈ s.tokens ∨ .signGuestToken p ∈ ws := by
  induction ws generalizing s with
  | nil => exact .inl hp
  | cons w ws ih =>
      rcases ih hp with hp | hp
      · cases w with
        | signGuestToken guest =>
            rcases List.mem_append.mp hp with hp | hp
            · exact .inl hp
            · exact .inr (List.mem_singleton.mp hp ▸ List.mem_cons_self)
        | _ => exact .inl hp
      · exact .inr (List.mem_cons_of_mem _ hp)

/-- Where the sessions come from. -/
theorem sessions_applyAll {ws : List Write} (hx : x ∈ (applyAll ws s).sessions) :
    ∃ x₀, (x₀ ∈ s.sessions ∨ .createSession x₀ ∈ ws) ∧ x₀.Continues x := by
  induction ws generalizing s with
  | nil => exact ⟨x, .inl hx, .refl x⟩
  | cons w ws ih =>
      obtain ⟨x₁, hx₁ | hx₁, hcontinues⟩ := ih hx
      · cases w with
        | createSession session =>
            rcases List.mem_append.mp hx₁ with hx₁ | hx₁
            · exact ⟨x₁, .inl hx₁, hcontinues⟩
            · exact ⟨x₁, .inr (List.mem_singleton.mp hx₁ ▸ List.mem_cons_self), hcontinues⟩
        | endSession id settled closedAt =>
            obtain ⟨x₀, hx₀, rfl⟩ := List.mem_map.mp hx₁
            refine ⟨x₀, .inl hx₀, .trans ?_ hcontinues⟩
            split
            · exact x₀.continues_ended settled closedAt
            · exact .refl x₀
        | _ => exact ⟨x₁, .inl hx₁, hcontinues⟩
      · exact ⟨x₁, .inr (List.mem_cons_of_mem _ hx₁), hcontinues⟩

/-- The same order, which may have been moved off its table. -/
def Order.From (o o₀ : Order) : Prop :=
  o.outletId = o₀.outletId ∧ (o.tableId = o₀.tableId ∨ o.tableId = none)

theorem orders_applyAll {o : Order} {ws : List Write} (ho : o ∈ (applyAll ws s).orders) :
    ∃ o₀, (o₀ ∈ s.orders ∨ .createOrder o₀ ∈ ws) ∧ o.From o₀ := by
  induction ws generalizing s with
  | nil => exact ⟨o, .inl ho, rfl, .inl rfl⟩
  | cons w ws ih =>
      obtain ⟨o₁, ho₁ | ho₁, hfrom⟩ := ih ho
      · have hmap : ∀ {f : Order → Order}, (∀ o, (f o).From o) → o₁ ∈ s.orders.map f →
            ∃ o₀, (o₀ ∈ s.orders ∨ .createOrder o₀ ∈ w :: ws) ∧ o.From o₀ := by
          intro f hf ho₁
          obtain ⟨o₀, ho₀, rfl⟩ := List.mem_map.mp ho₁
          refine ⟨o₀, .inl ho₀, hfrom.1.trans (hf o₀).1, ?_⟩
          rcases hfrom.2 with htable | hnone
          · rw [htable]
            exact (hf o₀).2
          · exact .inr hnone
        cases w with
        | createOrder order =>
            rcases List.mem_append.mp ho₁ with ho₁ | ho₁
            · exact ⟨o₁, .inl ho₁, hfrom⟩
            · exact ⟨o₁, .inr (List.mem_singleton.mp ho₁ ▸ List.mem_cons_self), hfrom⟩
        | updateOrderStatus id status =>
            exact hmap (fun o => by split <;> exact ⟨rfl, .inl rfl⟩) ho₁
        | updateOrderOwner id ownerId =>
            exact hmap (fun o => by split <;> exact ⟨rfl, .inl rfl⟩) ho₁
        | detachTable id =>
            refine hmap (fun o => ?_) ho₁
            split
            · exact ⟨rfl, .inr rfl⟩
            · exact ⟨rfl, .inl rfl⟩
        | deleteOrder id => exact ⟨o₁, .inl (List.mem_filter.mp ho₁).1, hfrom⟩
        | _ => exact ⟨o₁, .inl ho₁, hfrom⟩
      · exact ⟨o₁, .inr (List.mem_cons_of_mem _ ho₁), hfrom⟩

theorem created_applyAll {ws : List Write} (hx : .createSession x ∈ ws) (s : Store) :
    ∃ x' ∈ (applyAll ws s).sessions, x.Continues x' := by
  induction ws generalizing s with
  | nil => cases hx
  | cons w ws ih =>
      rcases List.mem_cons.mp hx with rfl | hx
      · exact (later_applyAll ws _).sessions x (List.mem_append_right _ List.mem_cons_self)
      · exact ih hx (s.apply w)

/-- An order's row, where no write is about it. -/
theorem orderRows_applyAll {ws : List Write} {id : ℕ} (h : ∀ w ∈ ws, id ∉ w.orderIds) (s : Store) :
    (applyAll ws s).orderRows id = s.orderRows id := by
  refine applyAll_frame (fun s : Store => s.orderRows id) (fun w hw s => ?_) s
  have hid := h w hw
  have hmap : ∀ {f : Order → Order} {id' : ℕ}, id ≠ id' → (∀ o, (f o).id = o.id) →
      (s.orders.map fun o => if o.id = id' then f o else o).filter (·.id = id) =
        s.orders.filter (·.id = id) := fun {f id'} hne hf => by
    rw [List.filter_map]
    have hcomp : ((fun o : Order => decide (o.id = id)) ∘ fun o => if o.id = id' then f o else o) =
        fun o => decide (o.id = id) := by
      funext o
      rw [Function.comp_apply]
      split
      · rw [hf]
      · rfl
    rw [hcomp]
    refine (List.map_congr_left fun o ho => ?_).trans (List.map_id' _)
    have ho : o.id = id := of_decide_eq_true (List.mem_filter.mp ho).2
    exact if_neg (ho ▸ hne)
  cases w with
  | createOrder o =>
      have hne : o.id ≠ id := fun heq => hid (heq ▸ List.mem_singleton_self _)
      simp [Store.orderRows, Store.apply, hne]
  | updateOrderStatus id' status => exact hmap (List.ne_of_not_mem_cons hid) fun _ => rfl
  | updateOrderOwner id' ownerId => exact hmap (List.ne_of_not_mem_cons hid) fun _ => rfl
  | detachTable id' => exact hmap (List.ne_of_not_mem_cons hid) fun _ => rfl
  | deleteOrder id' =>
      rw [writeTo_apply, Store.orderRows, Store.apply, List.filter_filter]
      refine List.filter_congr fun o _ => ?_
      by_cases ho : o.id = id
      · simp [ho, List.ne_of_not_mem_cons hid]
      · simp [ho]
  | _ => rfl

theorem Known.applyAll (h : Known x l s) :
    ∃ x' ∈ (applyAll l.writes s).sessions, x.Continues x' := by
  rcases h with hx | ⟨x', hx', hcontinues⟩
  · exact created_applyAll hx s
  · obtain ⟨x'', hx'', hcontinues'⟩ := (later_applyAll l.writes s).sessions x' hx'
    exact ⟨x'', hx'', hcontinues.trans hcontinues'⟩

theorem guest_applyAll {g : Guest} {ws : List Write} (h : .createGuest g ∈ ws ∨ g ∈ s.guests) :
    g ∈ (applyAll ws s).guests := by
  induction ws generalizing s with
  | nil => exact h.resolve_left List.not_mem_nil
  | cons w ws ih =>
      refine ih ?_
      rcases h with hmem | hg
      · rcases List.mem_cons.mp hmem with rfl | hmem
        · exact .inr (List.mem_append_right _ (List.mem_singleton_self g))
        · exact .inl hmem
      · exact .inr ((later_apply w s).guests.subset hg)

theorem Fits.groundedAfter (h : Fits l s) : Grounded (applyAll l.writes s) := by
  have hlater := later_applyAll l.writes s
  refine ⟨fun x hx t ht => ?_, fun o ho t ht => ?_, fun g hg => ?_, fun p hp => ?_,
    hlater.tables ▸ h.sound.tableIds⟩
  · obtain ⟨x₀, hx₀, hcontinues⟩ := sessions_applyAll hx
    have houtlet : x.outletId = x₀.outletId := by rw [hcontinues.same]
    rw [hcontinues.tableId_eq] at ht
    rw [houtlet]
    rcases hx₀ with hx₀ | hx₀
    · exact hlater.has (h.sound.sessions x₀ hx₀ t ht)
    · exact hlater.has (h.grounded _ hx₀ t ht)
  · obtain ⟨o₀, ho₀, houtlet, htable⟩ := orders_applyAll ho
    have ht₀ : o₀.tableId = some t := by
      rcases htable with htable | hnone
      · exact htable ▸ ht
      · rw [hnone] at ht
        cases ht
    rw [houtlet]
    rcases ho₀ with ho₀ | ho₀
    · exact hlater.has (h.sound.orders o₀ ho₀ t ht₀)
    · exact hlater.has (h.grounded _ ho₀ t ht₀)
  · rcases guests_applyAll hg with hg | hg
    · obtain ⟨x, hx, hbelongs⟩ := h.sound.guests g hg
      obtain ⟨x', hx', hcontinues⟩ := hlater.sessions x hx
      exact ⟨x', hx', hbelongs.continues hcontinues⟩
    · obtain ⟨x, hknown, hbelongs⟩ := h.grounded _ hg
      obtain ⟨x', hx', hcontinues⟩ := hknown.applyAll
      exact ⟨x', hx', hbelongs.continues hcontinues⟩
  · rcases tokens_applyAll hp with hp | hp
    · obtain ⟨⟨x, hx, hfor⟩, g, hg, hof⟩ := h.sound.tokens p hp
      obtain ⟨x', hx', hcontinues⟩ := hlater.sessions x hx
      exact ⟨⟨x', hx', hfor.continues hcontinues⟩, g, hlater.guests.subset hg, hof⟩
    · obtain ⟨⟨x, hknown, hfor⟩, g, hg, hof⟩ := h.grounded _ hp
      obtain ⟨x', hx', hcontinues⟩ := hknown.applyAll
      exact ⟨⟨x', hx', hfor.continues hcontinues⟩, g, guest_applyAll hg, hof⟩

/-- What fits can be committed. -/
theorem Fits.commits (h : Fits l s) : discipline.Commits l s := by
  intro _
  refine ⟨sound_iff.mpr ⟨fun k => ?_, h.groundedAfter⟩, later_applyAll l.writes s, fun k hk => ?_,
    trivial⟩
  · rw [entries_applyAll]
    exact h.one k
  · cases k with
    | order id =>
        exact orderRows_applyAll (fun w hw hid => hk (h.held w hw id hid)) s
    | _ =>
        change Fewer _ _
        rw [entries_applyAll]
        refine fewer_of_calm fun m hm => ?_
        obtain ⟨w, hw, hm⟩ := List.mem_flatMap.mp hm
        exact h.calm _ hk w hw m hm

/-! ### One write more -/

/-- A write that only takes rows away, with the keys it needs. -/
def Write.Plain (locks : List Key) : Write → Prop
  | .createSession _ | .createGuest _ | .createOrder _ | .signGuestToken _ => False
  | .updateOrderStatus id status => status = .closed ∧ .order id ∈ locks
  | .updateOrderOwner id _ | .detachTable id | .deleteOrder id => .order id ∈ locks
  | _ => True

theorem Write.Plain.calm {locks : List Key} (h : w.Plain locks) {m : Move ℕ} (hm : m ∈ w.moves k)
    (es : List (Entry ℕ)) : m.Calm es := by
  rcases calm_or_status hm es with ⟨e, rfl⟩ | hcalm | ⟨id, status, t, rfl, rfl, rfl⟩
  · cases w with
    | createSession x => exact h
    | createOrder o => exact h
    | _ => cases k <;> simp [Write.moves] at hm
  · exact hcalm
  · intro hlive
    rw [h.1] at hlive
    exact absurd hlive (by simp)

/-- A write is added, of which the rows that the transaction sees tell what it does. -/
theorem Fits.add (h : Fits l s) {keys : List Key}
    (hone : ∀ k, OneLive (actAll (w.moves k) ((applyAll l.writes s).entries k)))
    (hcalm : ∀ k, k ∉ l.locks → k ∉ keys → ∀ m ∈ w.moves k, m.Calm (s.entries k))
    (hheld : ∀ id ∈ w.orderIds, .order id ∈ l.locks ∨ .order id ∈ keys)
    (hgrounded : w.Grounded (l.add ⟨keys, [], [w]⟩) s) : Fits (l.add ⟨keys, [], [w]⟩) s := by
  refine ⟨h.sound, fun k => ?_, fun k hk w' hw' m hm => ?_, fun w' hw' id hid => ?_,
    fun w' hw' => ?_⟩
  · have hview := hone k
    rw [entries_applyAll, ← actAll_append] at hview
    simpa using hview
  · obtain ⟨hk, hkeys⟩ := not_or.mp (List.mem_append.not.mp hk)
    rcases List.mem_append.mp hw' with hw' | hw'
    · exact h.calm k hk w' hw' m hm
    · rw [List.mem_singleton.mp hw'] at hm
      exact hcalm k hk hkeys m hm
  · rcases List.mem_append.mp hw' with hw' | hw'
    · exact List.mem_append_left _ (h.held w' hw' id hid)
    · rw [List.mem_singleton.mp hw'] at hid
      exact List.mem_append.mpr (hheld id hid)
  · rcases List.mem_append.mp hw' with hw' | hw'
    · exact (h.grounded w' hw').add _
    · rw [List.mem_singleton.mp hw']
      exact hgrounded

/-- The rows that the transaction sees. -/
theorem Fits.view (h : Fits l s) : ∀ k, OneLive ((applyAll l.writes s).entries k) := fun k => by
  rw [entries_applyAll]
  exact h.one k

theorem Fits.plain (h : Fits l s) {keys : List Key} (hw : w.Plain keys) :
    Fits (l.add ⟨keys, [], [w]⟩) s := by
  refine h.add (fun k => ?_) (fun k _ _ m hm => hw.calm hm _) (fun id hid => .inr ?_) ?_
  · exact (fewer_of_calm fun m hm => hw.calm hm _).oneLive (h.view k)
  · cases w with
    | updateOrderStatus id' status => exact List.mem_singleton.mp hid ▸ hw.2
    | updateOrderOwner id' ownerId => exact List.mem_singleton.mp hid ▸ hw
    | detachTable id' => exact List.mem_singleton.mp hid ▸ hw
    | deleteOrder id' => exact List.mem_singleton.mp hid ▸ hw
    | createOrder o => exact hw.elim
    | _ => cases hid
  · cases w with
    | createSession x => exact hw.elim
    | createOrder o => exact hw.elim
    | createGuest g => exact hw.elim
    | signGuestToken p => exact hw.elim
    | _ => trivial

theorem Fits.reads (h : Fits l s) : Fits (l.add .empty) s := by
  rw [Footprint.add_empty]
  exact h

/-- An index that the write does not touch. -/
theorem Fits.untouched (h : Fits l s) (hk : w.moves k = []) :
    OneLive (actAll (w.moves k) ((applyAll l.writes s).entries k)) := by
  rw [hk]
  exact h.view k

theorem takesSession_iff : s.takesSession x = true ↔
    ∀ y ∈ s.sessions, y.id ≠ x.id ∧ ∀ t, x.tableId = some t → y.isOpenAt t = false := by
  cases htable : x.tableId <;> simp [Store.takesSession, htable]

theorem takesOrder_iff {o : Order} : s.takesOrder o = true ↔
    ∀ y ∈ s.orders, y.id ≠ o.id ∧ ∀ t, o.tableId = some t → y.isActiveAt t = false := by
  cases htable : o.tableId <;> simp [Store.takesOrder, htable]

theorem Fits.createSession (h : Fits l s) (hhome : ∀ t, x.tableId = some t → s.Has t x.outletId)
    (htakes : (applyAll l.writes s).takesSession x = true) :
    Fits (l.add
      ⟨.session x.id :: x.tableId.toList.map .openSession, [], [.createSession x]⟩) s := by
  have htakes := takesSession_iff.mp htakes
  refine h.add (fun k => ?_) (fun k _ hk m hm => ?_) (fun id hid => by cases hid) hhome
  · cases k with
    | session id =>
        simp only [Write.moves]
        split
        · rename_i hid
          refine oneLive_add (fun e he => ?_) _
          obtain ⟨y, hy, -⟩ := List.mem_map.mp he
          obtain ⟨hy, hyid⟩ := List.mem_filter.mp hy
          exact absurd ((of_decide_eq_true hyid).trans hid.symm) (htakes y hy).1
        · exact h.view (.session id)
    | openSession t =>
        simp only [Write.moves]
        split
        · rename_i ht
          refine oneLive_add (fun e he => ?_) _
          obtain ⟨y, hy, rfl⟩ := List.mem_map.mp he
          obtain ⟨hy, hyt⟩ := List.mem_filter.mp hy
          have hopen := (htakes y hy).2 t ht
          rw [TableSession.isOpenAt, hyt, Bool.true_and] at hopen
          exact hopen
        · exact h.view (.openSession t)
    | _ => exact h.untouched rfl
  · cases k with
    | session id =>
        simp only [Write.moves] at hm
        split at hm
        · rename_i hid
          exact absurd (hid ▸ List.mem_cons_self) hk
        · cases hm
    | openSession t =>
        simp only [Write.moves] at hm
        split at hm
        · rename_i ht
          exact absurd (List.mem_cons_of_mem _ (by simp [ht])) hk
        · cases hm
    | _ => cases hm

theorem Fits.createOrder {o : Order} (h : Fits l s)
    (hhome : ∀ t, o.tableId = some t → s.Has t o.outletId)
    (htakes : (applyAll l.writes s).takesOrder o = true) :
    Fits (l.add ⟨orderKeys o, [], [.createOrder o]⟩) s := by
  have htakes := takesOrder_iff.mp htakes
  refine h.add (fun k => ?_) (fun k _ hk m hm => ?_) (fun id hid => .inr ?_) hhome
  · cases k with
    | order id =>
        simp only [Write.moves]
        split
        · rename_i hid
          refine oneLive_add (fun e he => ?_) _
          obtain ⟨y, hy, -⟩ := List.mem_map.mp he
          obtain ⟨hy, hyid⟩ := List.mem_filter.mp hy
          exact absurd ((of_decide_eq_true hyid).trans hid.symm) (htakes y hy).1
        · exact h.view (.order id)
    | activeOrder t =>
        simp only [Write.moves]
        split
        · rename_i ht
          refine oneLive_add (fun e he => ?_) _
          obtain ⟨y, hy, rfl⟩ := List.mem_map.mp he
          obtain ⟨hy, hyt⟩ := List.mem_filter.mp hy
          have hactive := (htakes y hy).2 t ht
          rw [Order.isActiveAt, hyt, Bool.true_and] at hactive
          exact hactive
        · exact h.view (.activeOrder t)
    | _ => exact h.untouched rfl
  · cases k with
    | order id =>
        simp only [Write.moves] at hm
        split at hm
        · rename_i hid
          exact absurd (hid ▸ List.mem_cons_self) hk
        · cases hm
    | activeOrder t =>
        simp only [Write.moves] at hm
        split at hm
        · rename_i ht
          exact absurd (List.mem_cons_of_mem _ (by simp [ht])) hk
        · cases hm
    | _ => cases hm
  · rw [List.mem_singleton.mp hid]
    exact List.mem_cons_self

/-- A row that no index is about. -/
theorem Fits.insert (h : Fits l s) (hmoves : ∀ k, w.moves k = []) (hids : w.orderIds = [])
    (hgrounded : w.Grounded (l.add ⟨[], [], [w]⟩) s) : Fits (l.add ⟨[], [], [w]⟩) s := by
  refine h.add (fun k => h.untouched (hmoves k)) (fun k _ _ m hm => ?_) (fun id hid => ?_) hgrounded
  · exact absurd (hmoves k ▸ hm) List.not_mem_nil
  · exact absurd (hids ▸ hid) List.not_mem_nil

/-- The order's row, if it is in the store, is in what the transaction sees as it is. -/
def Unmoved (id : ℕ) (l : TxFootprint) (s : Store) : Prop :=
  l.writes = [] ∨ .order id ∈ l.locks ∧ ∀ o ∈ s.orders, o.id ≠ id

theorem unmoved_stable (id : ℕ) : discipline.Stable (Unmoved id) := by
  refine fun l s s' hrely h => h.imp_right fun h => ⟨h.1, fun o ho hid => ?_⟩
  obtain ⟨hlock, hnone⟩ := h
  have hrows : s'.orderRows id = s.orderRows id := hrely.keeps _ hlock
  have hmem : o ∈ s'.orderRows id := List.mem_filter.mpr ⟨ho, decide_eq_true hid⟩
  rw [hrows] at hmem
  exact hnone o (List.mem_filter.mp hmem).1 hid

theorem nodup_of_ids {os : List Order} (h : ∀ id, (os.filter (·.id = id)).length ≤ 1) :
    (os.map (·.id)).Nodup := by
  refine List.nodup_iff_count_le_one.mpr fun id => ?_
  rw [List.count, List.countP_map, List.countP_eq_length_filter]
  exact h id

/-- The order comes to count at its table, whose key the transaction now holds. -/
theorem Fits.updateOrderStatus {id : ℕ} {status : OrderStatus} (h : Fits l s)
    (hunmoved : Unmoved id l s) (htakes : (applyAll l.writes s).takesStatus id status = true) :
    Fits (l.add ⟨(applyAll l.writes s).statusKeys id status, [], [.updateOrderStatus id status]⟩)
      s := by
  by_cases hstatus : status = .closed
  · exact h.plain ⟨hstatus, List.mem_cons_self⟩
  have hothers : ∀ o ∈ (applyAll l.writes s).orders, o.id = id → ∀ t, o.tableId = some t →
      ∀ o' ∈ (applyAll l.writes s).orders, o'.id ≠ id → o'.isActiveAt t = false := by
    simp only [Store.takesStatus, hstatus, decide_false, Bool.false_or, Bool.and_eq_true,
      List.all_eq_true, Bool.or_eq_true, decide_eq_true_eq] at htakes
    intro o ho hid t ht o' ho' hid'
    have hall := (htakes.2 o ho).resolve_left (not_not.mpr hid) o' ho'
    simpa [hid', ht] using hall
  refine h.add (fun k => ?_) (fun k _ hk m hm => ?_) (fun id' hid => .inr ?_) trivial
  · cases k with
    | activeOrder t =>
        by_cases hat : ∃ o ∈ (applyAll l.writes s).orders, o.id = id ∧ o.tableId = some t
        · obtain ⟨o, ho, hid, ht⟩ := hat
          refine oneLive_mark ?_ fun e he hne => ?_
          · have hids := nodup_of_ids fun id => oneLive_all_iff.mp (h.view (.order id))
            rw [Store.entries, List.map_map]
            exact hids.sublist (List.filter_sublist.map _)
          · obtain ⟨o', ho', rfl⟩ := List.mem_map.mp he
            obtain ⟨ho', ht'⟩ := List.mem_filter.mp ho'
            have hactive := hothers o ho hid t ht o' ho' hne
            rw [Order.isActiveAt, ht', Bool.true_and] at hactive
            exact hactive
        · have hcalm : (Move.mark id (status ≠ .closed)).Calm
              ((applyAll l.writes s).entries (.activeOrder t)) := by
            intro _ e he hid
            obtain ⟨o, ho, rfl⟩ := List.mem_map.mp he
            obtain ⟨ho, ht⟩ := List.mem_filter.mp ho
            exact hat ⟨o, ho, hid, of_decide_eq_true ht⟩
          exact hcalm.fewer.oneLive (h.view _)
    | _ => exact h.untouched rfl
  · cases k with
    | activeOrder t =>
        rw [Write.moves, List.mem_singleton] at hm
        subst hm
        intro _ e he hid
        obtain ⟨o, ho, rfl⟩ := List.mem_map.mp he
        obtain ⟨ho, ht⟩ := List.mem_filter.mp ho
        rcases hunmoved with hnil | ⟨-, hnone⟩
        · rw [hnil, applyAll_nil, Store.statusKeys, if_neg hstatus] at hk
          refine hk (List.mem_cons_of_mem _ (List.mem_filterMap.mpr ⟨o, ?_, ?_⟩))
          · exact List.mem_filter.mpr ⟨ho, decide_eq_true hid⟩
          · rw [of_decide_eq_true ht]
            rfl
        · exact hnone o ho hid
    | _ => cases hm
  · rw [List.mem_singleton.mp hid]
    exact List.mem_cons_self

end Along

/-! ### The requests -/

def Reads (l : TxFootprint) : Prop := l = .empty

/-- The tables that a request has found, each with its outlet. -/
abbrev FoundTables := ℕ → ℕ → Prop

def noTables : FoundTables := fun _ _ => False

/-- What a statement may leave behind on the rows it was sent on. -/
inductive Proper (H : FoundTables) (v : Store) : TxFootprint → Prop
  | reads : Proper H v .empty
  | plain {keys : List Key} {w : Write} (h : w.Plain keys) : Proper H v ⟨keys, [], [w]⟩
  | createOrder {o : Order} (hhome : ∀ t, o.tableId = some t → H t o.outletId)
      (h : v.takesOrder o = true) : Proper H v ⟨orderKeys o, [], [.createOrder o]⟩

/-- The writes fit, and the tables that were found are there. -/
def Placed (H : FoundTables) (l : TxFootprint) (s : Store) : Prop :=
  Fits l s ∧ ∀ t outletId, H t outletId → s.Has t outletId

section Programs

variable {α β : Type} {H : FoundTables} {l : TxFootprint} {s : Store} {x : TableSession}

theorem query_reads (f : Store → β) : (Txn.query f : Tx β).Emits Reads :=
  ⟨fun _ _ => rfl, fun _ => trivial⟩

theorem clock_reads : (Txn.clock : Tx ℤ).Emits Reads := ⟨fun _ _ => rfl, fun _ => trivial⟩

theorem uuid_reads : (Txn.uuid : Tx ℕ).Emits Reads := ⟨fun _ _ => rfl, fun _ => trivial⟩

theorem throwIf_reads (c : Prop) [Decidable c] (e : Failure) :
    (Txn.throwIf c e : Tx Unit).Emits Reads := by
  unfold Txn.throwIf
  split <;> trivial

theorem orThrow_reads (e : Failure) (x : Option α) : (orThrow e x).Emits Reads := by
  cases x <;> trivial

theorem refuse_reads (e : Option Failure) : (refuse e).Emits Reads := by
  cases e <;> trivial

theorem resolveOutletAndTable_reads (outletId tableId : ℕ) :
    (resolveOutletAndTable outletId tableId).Emits Reads :=
  (query_reads _).bind fun _ => (orThrow_reads _ _).bind fun _ =>
    (query_reads _).bind fun _ => orThrow_reads _ _

theorem assertQrOrderingEnabled_reads (outletId : ℕ) :
    (assertQrOrderingEnabled outletId).Emits Reads :=
  (query_reads _).bind fun _ => throwIf_reads _ _

theorem isAbandoned_reads (session : TableSession) : (isAbandoned session).Emits Reads := by
  refine (query_reads _).bind fun _ => (query_reads _).bind fun _ =>
    (query_reads _).bind fun _ => ?_
  split
  · trivial
  · exact clock_reads.bind fun _ => trivial

theorem isOver_reads (existing : TableSession) : (isOver existing).Emits Reads := by
  refine clock_reads.bind fun _ => ?_
  split
  · trivial
  · exact isAbandoned_reads existing

theorem generatePin_reads : generatePin.Emits Reads := ⟨fun _ _ => rfl, fun _ => trivial⟩

theorem isTableBusy_reads (tableId : ℕ) : (isTableBusy tableId).Emits Reads := by
  refine clock_reads.bind fun _ => (query_reads _).bind fun live => ?_
  cases live with
  | none => trivial
  | some live =>
      unfold isForeign
      dsimp only
      split
      · trivial
      · exact (query_reads _).bind fun _ => clock_reads.bind fun _ => trivial

theorem loadActiveSession_reads (guest : GuestPrincipal) : (loadActiveSession guest).Emits Reads :=
  (query_reads _).bind fun _ => (orThrow_reads _ _).bind fun _ => clock_reads.bind fun _ =>
    (throwIf_reads _ _).bind fun _ => trivial

theorem loadOrder_reads (orderId : ℕ) : (loadOrder orderId).Emits Reads :=
  (query_reads _).bind fun _ => orThrow_reads _ _

theorem proper_of_reads {p : Tx α} (h : p.Emits Reads) : p.Sends (Proper H) :=
  h.sends fun _ _ hl => hl ▸ .reads

theorem exec_proper {keys : List Key} {w : Write} (h : w.Plain keys) :
    (Txn.exec (fun _ => keys) fun _ => [w] : Tx Unit).Sends (Proper H) :=
  ⟨fun _ _ => .plain h, fun _ => trivial⟩

theorem createOrder_proper (order : Order)
    (hhome : ∀ t, order.tableId = some t → H t order.outletId) :
    (createOrder order).Sends (Proper H) :=
  (Txn.Sends.writeWhen (fun _ => .createOrder hhome) fun _ => .reads).bind fun _ =>
    proper_of_reads (throwIf_reads _ _)

theorem endSession_proper (id : ℕ) (settled : Bool) : (endSession id settled).Sends (Proper H) :=
  (proper_of_reads clock_reads).bind fun _ => exec_proper trivial

theorem endExisting_proper (existing : Option TableSession) :
    (endExisting existing).Sends (Proper H) := by
  cases existing with
  | none => trivial
  | some existing =>
      exact (proper_of_reads (isOver_reads existing)).bind fun _ =>
        (proper_of_reads (throwIf_reads _ _)).bind fun _ => endSession_proper existing.id false

theorem detachStaleTableOrder_proper (tableId : ℕ) :
    (detachStaleTableOrder tableId).Sends (Proper H) := by
  refine (proper_of_reads clock_reads).bind fun _ => (proper_of_reads (query_reads _)).bind
    fun stale => ?_
  cases stale with
  | none => trivial
  | some stale =>
      exact (exec_proper (List.mem_singleton_self _)).bind fun _ => exec_proper trivial

theorem placed_stable (H : FoundTables) : discipline.Stable (Placed H) := by
  intro l s s' hrely h
  have hlater : Later s s' := hrely.guar
  exact ⟨fits_stable l s s' hrely h.1, fun t outletId ht => hlater.has (h.2 t outletId ht)⟩

/-- A request whose every statement is proper. -/
theorem proper_carries {p : Tx α} (h : p.Sends (Proper H)) : p.Carries discipline (Placed H) := by
  refine h.carries (placed_stable H) fun l l' s hl' _ h => ⟨?_, h.2⟩
  cases hl' with
  | reads => exact h.1.reads
  | plain hw => exact h.1.plain hw
  | createOrder hhome htakes => exact h.1.createOrder (fun t ht => h.2 _ _ (hhome t ht)) htakes

theorem Fits.placed (h : Fits l s) : Placed noTables l s := ⟨h, fun _ _ hnone => hnone.elim⟩

/-- Reading keeps what the transaction knows. -/
theorem reads_wp {D : Discipline Store Key Empty Write} {p : Tx α} (hp : p.Emits Reads)
    {P : TxFootprint → Store → Prop} (hP : D.Stable P) (h : P l s) :
    p.wp D (fun _ => P) l s := by
  refine hp.wp hP (fun l l' s hl' h => ?_) h
  rw [hl', Footprint.add_empty]
  exact h

/-- A write that the database allows where it is sent. -/
theorem guarded_wp {D : Discipline Store Key Empty Write} {allowed : Store → Bool}
    {keys : List Key} {writes : List Write} {e : Failure} {P Q : TxFootprint → Store → Prop}
    (hP : D.Stable P) (hQ : D.Stable Q) (h : P l s)
    (hwrite : ∀ s, P l s → allowed (applyAll l.writes s) = true →
      Q (l.add ⟨keys, [], writes⟩) s) :
    (guarded allowed keys writes e).wp D (fun _ => Q) l s := by
  refine Txn.wp_seq (R := fun changed l s => changed = true → Q l s) ?_ fun changed l s h => ?_
  · refine Txn.wp_writeWhen hP (fun _ => .imp _ hQ) h (fun s h hallowed _ _ => ?_)
      fun _ _ _ hfalse => absurd hfalse (by simp)
    exact hwrite s h hallowed
  · cases changed with
    | false => trivial
    | true => exact Txn.wp_done hQ (h rfl)

theorem orThrow_wp {D : Discipline Store Key Empty Write} {e : Failure} {x : Option α}
    {P : α → TxFootprint → Store → Prop} (hP : ∀ a, D.Stable (P a))
    (h : ∀ a, x = some a → P a l s) : (orThrow e x).wp D P l s := by
  cases x with
  | none => trivial
  | some a => exact Txn.wp_done (hP a) (h a rfl)

/-- A table that is found is there. -/
theorem findTable_wp (outletId tableId : ℕ) {P : TxFootprint → Store → Prop}
    (hP : discipline.Stable P) (h : P l s) :
    (findTable outletId tableId).wp discipline (fun table l s =>
      P l s ∧ (table.isSome = true → s.Has tableId outletId)) l s := by
  refine Txn.wp_query hP h fun s h => Txn.wp_done ?_ ⟨h, fun htable => ?_⟩
  · refine hP.and fun l s s' hrely h htable => ?_
    have hlater : Later s s' := hrely.guar
    exact hlater.has (h htable)
  · obtain ⟨table, htable⟩ := Option.isSome_iff_exists.mp htable
    obtain ⟨hfind, houtlet⟩ := Option.filter_eq_some_iff.mp htable
    have hid := List.find?_some hfind
    have hmem := List.mem_of_find?_eq_some hfind
    rw [(later_applyAll l.writes s).tables] at hmem
    exact ⟨table, hmem, of_decide_eq_true hid, of_decide_eq_true houtlet⟩

theorem has_stable (tableId outletId : ℕ) :
    discipline.Stable fun _ s => s.Has tableId outletId := by
  intro l s s' hrely h
  have hlater : Later s s' := hrely.guar
  exact hlater.has h

/-- The same where it is asked for. -/
theorem tableThere_wp {outletId tableId : ℕ} {table : Option DiningTable} {e : Failure}
    {P : TxFootprint → Store → Prop} (hP : discipline.Stable P)
    (h : P l s ∧ (table.isSome = true → s.Has tableId outletId)) :
    (orThrow e table).wp discipline (fun _ l s => P l s ∧ s.Has tableId outletId) l s :=
  orThrow_wp (fun _ => hP.and (has_stable tableId outletId)) fun _ ha => ⟨h.1, h.2 (ha ▸ rfl)⟩

theorem resolveOutletAndTable_wp (outletId tableId : ℕ) {P : TxFootprint → Store → Prop}
    (hP : discipline.Stable P) (h : P l s) :
    (resolveOutletAndTable outletId tableId).wp discipline (fun _ l s =>
      P l s ∧ s.Has tableId outletId) l s := by
  refine Txn.wp_seq (reads_wp (query_reads _) hP h) fun _ l s h => ?_
  refine Txn.wp_seq (reads_wp (orThrow_reads _ _) hP h) fun _ l s h => ?_
  exact Txn.wp_seq (findTable_wp outletId tableId hP h) fun _ l s h => tableThere_wp hP h

theorem openSession_wp (outletId : ℕ) (tableId : Option ℕ) (name phone : String) (e : Failure)
    (h : Placed (fun t o => tableId = some t ∧ o = outletId) l s) :
    (openSession outletId tableId name phone e).wp discipline (fun x l s => (Fits l s ∧
      .createSession x ∈ l.writes) ∧ x.tableId = tableId ∧ x.startedByGuestName = name ∧
        x.startedByGuestPhone = phone) l s := by
  have hplaced := placed_stable fun t o => tableId = some t ∧ o = outletId
  refine Txn.wp_seq (reads_wp generatePin_reads hplaced h) fun pin l s h => ?_
  refine Txn.wp_uuid hplaced h fun id s h => ?_
  refine Txn.wp_clock hplaced h fun now s h => ?_
  refine Txn.wp_clock hplaced h fun createdAt s h => ?_
  have hstable : ∀ x : TableSession, discipline.Stable fun l s => Fits l s ∧
      Write.createSession x ∈ l.writes := fun x => fits_stable.and fun _ _ _ _ h => h
  refine Txn.wp_seq (guarded_wp hplaced (hstable _) h fun s h htakes =>
    ⟨h.1.createSession (fun t ht => h.2 t outletId ⟨ht, rfl⟩) htakes,
      List.mem_append_right _ (List.mem_singleton_self _)⟩) fun _ l s h => ?_
  exact Txn.wp_done ((hstable _).and (.const _)) ⟨h, rfl, rfl, rfl⟩

/-- A guest of a session that is known. -/
def Guested (x : TableSession) (g : Guest) (l : TxFootprint) (s : Store) : Prop :=
  (Fits l s ∧ Known x l s) ∧ .createGuest g ∈ l.writes ∧ g.sessionId = x.id

theorem guested_stable (x : TableSession) (g : Guest) : discipline.Stable (Guested x g) :=
  (fits_stable.and (known_stable x)).and fun _ _ _ _ h => h

theorem createGuest_wp {name : String} {phone : Option String} {shown : Option ℕ}
    (h : Fits l s) (hknown : Known x l s)
    (hbelongs : ∀ id joinedAt, Guest.Belongs ⟨id, x.id, name, phone, joinedAt, shown⟩ x) :
    (createGuest x.id name phone shown).wp discipline (Guested x) l s := by
  have hstable := fits_stable.and (known_stable x)
  refine Txn.wp_uuid hstable ⟨h, hknown⟩ fun id s h => ?_
  refine Txn.wp_clock hstable h fun joinedAt s h => ?_
  refine Txn.wp_seq (guarded_wp hstable (guested_stable x
    ⟨id, x.id, name, phone, joinedAt, shown⟩) h fun s h _ => ?_) fun _ l s h => ?_
  · have hfits := h.1.insert (w := .createGuest ⟨id, x.id, name, phone, joinedAt, shown⟩)
      (fun k => by cases k <;> rfl) rfl ⟨x, h.2.add _, hbelongs id joinedAt⟩
    exact ⟨⟨hfits, h.2.add _⟩, List.mem_append_right _ (List.mem_singleton_self _), rfl⟩
  · exact Txn.wp_done (guested_stable x _) h

theorem signGuestToken_wp {g : Guest} (h : Guested x g l s) :
    (signGuestToken x g).wp discipline (fun _ => Fits) l s := by
  refine Txn.wp_stmt (guested_stable x g) h fun _ s h _ => Txn.wp_done fits_stable ?_
  obtain ⟨⟨hfits, hknown⟩, hcreated, hsession⟩ := h
  refine hfits.insert (w := .signGuestToken (principal x g)) (fun k => by cases k <;> rfl) rfl ?_
  exact ⟨⟨x, hknown.add _, rfl, rfl, rfl⟩, g, .inl (List.mem_append_left _ hcreated),
    rfl, hsession, rfl⟩

theorem startSession_wp (dto : StartSessionDto) (h : Fits l s) :
    (startSession dto).wp discipline (fun _ => Fits) l s := by
  refine Txn.wp_seq (resolveOutletAndTable_wp _ _ fits_stable h) fun _ l s h => ?_
  have hplaced := placed_stable fun t o => some dto.tableId = some t ∧ o = dto.outletId
  replace h : Placed (fun t o => some dto.tableId = some t ∧ o = dto.outletId) l s := by
    refine ⟨h.1, fun t o hfound => ?_⟩
    rw [← Option.some.inj hfound.1, hfound.2]
    exact h.2
  refine Txn.wp_seq (reads_wp (assertQrOrderingEnabled_reads _) hplaced h) fun _ l s h => ?_
  refine Txn.wp_query hplaced h fun s h => ?_
  refine Txn.wp_seq (proper_carries (endExisting_proper _) l s h) fun _ l s h => ?_
  refine Txn.wp_seq (reads_wp (isTableBusy_reads _) hplaced h) fun _ l s h => ?_
  refine Txn.wp_throwIf fun _ => ?_
  refine Txn.wp_seq (openSession_wp _ _ _ _ _ h) fun x l s h => ?_
  obtain ⟨⟨h, hcreated⟩, -, hname, hphone⟩ := h
  refine Txn.wp_seq (createGuest_wp h (.inl hcreated) fun id joinedAt => ?_) fun g l s h => ?_
  · exact ⟨rfl, fun pin hpin => absurd hpin (Option.not_mem_none pin),
      fun _ _ => ⟨hname.symm, congrArg some hphone.symm⟩⟩
  · exact Txn.wp_seq (signGuestToken_wp h) fun _ l s h => Txn.wp_done fits_stable h

theorem startKioskSession_wp (outletId deviceId : ℕ) (h : Fits l s) :
    (startKioskSession outletId deviceId).wp discipline (fun _ => Fits) l s := by
  refine Txn.wp_seq (reads_wp (query_reads _) fits_stable h) fun _ l s h => ?_
  refine Txn.wp_seq (reads_wp (orThrow_reads _ _) fits_stable h) fun _ l s h => ?_
  refine Txn.wp_query fits_stable h fun s h => Txn.wp_throwIf fun _ => ?_
  refine Txn.wp_query fits_stable h fun s h => ?_
  refine Txn.wp_seq (reads_wp (orThrow_reads _ _) fits_stable h) fun _ l s h => ?_
  refine Txn.wp_query fits_stable h fun s h => Txn.wp_throwIf fun _ => ?_
  refine Txn.wp_seq (openSession_wp _ _ _ _ _ ⟨h, fun t o hfound => ?_⟩) fun x l s h => ?_
  · cases hfound.1
  obtain ⟨⟨h, hcreated⟩, htable, -⟩ := h
  refine Txn.wp_seq (createGuest_wp h (.inl hcreated) fun id joinedAt => ?_) fun g l s h => ?_
  · refine ⟨rfl, fun pin hpin => absurd hpin (Option.not_mem_none pin), fun _ hsome => ?_⟩
    rw [htable] at hsome
    cases hsome
  · exact Txn.wp_seq (signGuestToken_wp h) fun _ l s h => Txn.wp_done fits_stable h

/-- Nothing is written yet. -/
def Begun (l : TxFootprint) (s : Store) : Prop := Fits l s ∧ l.writes = []

theorem begun_stable : discipline.Stable Begun := 
  fits_stable.and fun _ _ _ _ h => h

theorem fits_empty (hs : Sound s) : Fits .empty s :=
  ⟨hs, hs.oneLive, fun _ _ _ hw => absurd hw List.not_mem_nil,
    fun _ hw => absurd hw List.not_mem_nil, fun _ hw => absurd hw List.not_mem_nil⟩

theorem begun_wp {p : Tx α} (hp : p.Emits Reads) (h : Begun l s) :
    p.wp discipline (fun _ => Begun) l s := reads_wp hp begun_stable h

/-- A guest is let in with the PIN of a session that is there. -/
theorem joinSession_wp (dto : JoinSessionDto) (lockedOut : Option Failure) (h : Begun l s) :
    (joinSession dto lockedOut).wp discipline (fun _ => Fits) l s := by
  refine Txn.wp_seq (begun_wp (resolveOutletAndTable_reads _ _) h) fun _ l s h => ?_
  refine Txn.wp_seq (begun_wp (assertQrOrderingEnabled_reads _) h) fun _ l s h => ?_
  refine Txn.wp_query begun_stable h fun s h => ?_
  rw [h.2, applyAll_nil]
  have hfound : ∀ x, s.sessions.find? (·.isOpenAt dto.tableId) = some x →
      x.tableId.isSome = true ∧ Known x l s := by
    intro x hx
    have hopen := List.find?_some hx
    simp only [TableSession.isOpenAt, Bool.and_eq_true, decide_eq_true_eq] at hopen
    exact ⟨by rw [hopen.1]; rfl, .inr ⟨x, List.mem_of_find?_eq_some hx, .refl x⟩⟩
  generalize s.sessions.find? (·.isOpenAt dto.tableId) = found at hfound
  have hstable : ∀ x : TableSession, discipline.Stable fun l s =>
      Fits l s ∧ x.tableId.isSome = true ∧ Known x l s := fun x =>
    fits_stable.and ((Discipline.Stable.const _).and (known_stable x))
  refine Txn.wp_clock (P := fun l s => Fits l s ∧ ∀ x, found = some x →
    x.tableId.isSome = true ∧ Known x l s) ?_ ⟨h.1, hfound⟩ fun now s h => ?_
  · refine fits_stable.and fun l s s' hrely h x hx => ⟨(h x hx).1, ?_⟩
    exact known_stable x l s s' hrely (h x hx).2
  refine Txn.wp_seq (orThrow_wp hstable fun x hx =>
    ⟨h.1, h.2 x (Option.filter_eq_some_iff.mp hx).1⟩) fun x l s h => ?_
  refine Txn.wp_seq (reads_wp (refuse_reads lockedOut) (hstable x) h) fun _ l s h => ?_
  refine Txn.wp_throwIf fun hpin => ?_
  refine Txn.wp_seq (createGuest_wp h.1 h.2.2 fun id joinedAt => ?_) fun g l s h => ?_
  · refine ⟨rfl, fun pin hshown => ⟨h.2.1, ?_⟩, fun hshown => absurd hshown (Option.some_ne_none _)⟩
    exact (not_not.mp hpin).trans (Option.some.inj hshown)
  · refine Txn.wp_query (guested_stable x g) h fun s h => ?_
    exact Txn.wp_seq (signGuestToken_wp h) fun _ l s h => Txn.wp_done fits_stable h

theorem updateOrderStatus_wp {id : ℕ} {status : OrderStatus} (h : Fits l s)
    (hunmoved : Unmoved id l s) :
    (updateOrderStatus id status).wp discipline (fun _ => Fits) l s := by
  refine Txn.wp_stmt (fits_stable.and (unmoved_stable id)) ⟨h, hunmoved⟩ fun _ s h _ => ?_
  cases htakes : (applyAll l.writes s).takesStatus id status with
  | true => exact Txn.wp_done fits_stable (h.1.updateOrderStatus h.2 htakes)
  | false => trivial

theorem updateStatus_wp (staffId orderId : ℕ) (ownerName : String) (status : OrderStatus)
    (waiting : Bool) (h : Begun l s) :
    (updateStatus staffId orderId ownerName status waiting).wp discipline (fun _ => Fits) l s := by
  refine Txn.wp_seq (begun_wp (loadOrder_reads orderId) h) fun order l s h => ?_
  refine Txn.wp_throwIf fun _ => ?_
  split
  · exact reads_wp (throwIf_reads _ _) fits_stable h.1
  · exact Txn.wp_throwIf fun _ => updateOrderStatus_wp h.1 (.inl h.2)

/-- No order is deleted. -/
def Undeleted (l : TxFootprint) : Prop := ∀ w ∈ l.writes, ∀ id, w ≠ .deleteOrder id

theorem undeleted_applyAll {ws : List Write} (h : ∀ w ∈ ws, ∀ id, w ≠ .deleteOrder id) {o : Order}
    (ho : o ∈ s.orders) : ∃ o' ∈ (applyAll ws s).orders, o'.id = o.id := by
  induction ws generalizing s o with
  | nil => exact ⟨o, ho, rfl⟩
  | cons w ws ih =>
      have hfirst : ∃ o' ∈ (s.apply w).orders, o'.id = o.id := by
        have hmap : ∀ (f : Order → Order), (∀ o, (f o).id = o.id) →
            ∃ o' ∈ s.orders.map f, o'.id = o.id := fun f hf =>
          ⟨f o, List.mem_map_of_mem ho, hf o⟩
        cases w with
        | createOrder order => exact ⟨o, List.mem_append_left _ ho, rfl⟩
        | updateOrderStatus id status => exact hmap _ fun o => by split <;> rfl
        | updateOrderOwner id ownerId => exact hmap _ fun o => by split <;> rfl
        | detachTable id => exact hmap _ fun o => by split <;> rfl
        | deleteOrder id => exact absurd rfl (h _ List.mem_cons_self id)
        | _ => exact ⟨o, ho, rfl⟩
      obtain ⟨o', ho', hid⟩ := hfirst
      obtain ⟨o'', ho'', hid'⟩ := ih (fun w hw => h w (List.mem_cons_of_mem _ hw)) ho'
      exact ⟨o'', ho'', hid'.trans hid⟩

/-- The table is cleared of what was left on it. -/
theorem clearTable_wp (tableId : Option ℕ) (h : Placed H l s) (hl : l.writes = []) :
    (clearTable tableId).wp discipline (fun _ l s => Placed H l s ∧ Undeleted l) l s := by
  have hstable : discipline.Stable fun l s => Placed H l s ∧ Undeleted l :=
    (placed_stable H).and fun _ _ _ _ h => h
  have hbegun : Placed H l s ∧ Undeleted l :=
    ⟨h, fun w hw => absurd (hl ▸ hw) List.not_mem_nil⟩
  have hexec : ∀ {keys : List Key} {w : Write}, w.Plain keys → (∀ id, w ≠ .deleteOrder id) →
      (Txn.exec (fun _ => keys) fun _ => [w] : Tx Unit).Carries discipline
        fun l s => Placed H l s ∧ Undeleted l := by
    intro keys w hplain hundeleted l s h
    refine Txn.wp_stmt hstable h fun _ s h _ =>
      Txn.wp_done hstable ⟨⟨h.1.1.plain hplain, h.1.2⟩, ?_⟩
    intro w' hw'
    rcases List.mem_append.mp hw' with hw' | hw'
    · exact h.2 w' hw'
    · rw [List.mem_singleton.mp hw']
      exact hundeleted
  have hdetach : ∀ stale : Option Order, (detachOrder stale).Carries discipline
      fun l s => Placed H l s ∧ Undeleted l := by
    intro stale l s h
    cases stale with
    | none => exact Txn.wp_done hstable h
    | some stale =>
        refine Txn.wp_seq (hexec (w := .detachTable stale.id) (List.mem_singleton_self _)
          (fun _ heq => by cases heq) _ _ h) fun _ l s h => ?_
        exact hexec (w := .createAuditEvent _) trivial (fun _ heq => by cases heq) _ _ h
  cases tableId with
  | none => exact Txn.wp_done hstable hbegun
  | some tableId =>
      refine Txn.wp_seq (R := fun _ l s => Placed H l s ∧ Undeleted l) ?_ fun _ l s h => ?_
      · refine Txn.wp_clock hstable hbegun fun now s h => ?_
        exact Txn.wp_query hstable h fun s h => hdetach _ _ _ h
      · refine Txn.wp_query hstable h fun s h => ?_
        exact reads_wp (throwIf_reads _ _) hstable h

/-- The session that a token is for is there. -/
def Lodged (guest : GuestPrincipal) (l : TxFootprint) (s : Store) : Prop :=
  Begun l s ∧ ∃ x ∈ s.sessions, guest.IsFor x

theorem lodged_stable (guest : GuestPrincipal) : discipline.Stable (Lodged guest) := by
  refine begun_stable.and fun l s s' hrely h => ?_
  have hlater : Later s s' := hrely.guar
  obtain ⟨x, hx, hfor⟩ := h
  obtain ⟨x', hx', hcontinues⟩ := hlater.sessions x hx
  exact ⟨x', hx', hfor.continues hcontinues⟩

/-- Whoever passes the guard has a token that was signed. -/
theorem canActivate_wp (request : GuestRequest) (h : Begun l s) :
    (canActivate request).wp discipline (fun _ => Lodged request.guest) l s := by
  refine Txn.wp_query begun_stable h fun s h => Txn.wp_throwIf fun hpassed => ?_
  have hsigned := (not_or.mp hpassed).1
  rw [h.2, applyAll_nil, Bool.not_eq_false, List.contains_iff_mem] at hsigned
  have hlodged : Lodged request.guest l s := ⟨h, (h.1.sound.tokens request.guest hsigned).1⟩
  refine Txn.wp_query (lodged_stable request.guest) hlodged fun s h => Txn.wp_throwIf fun _ => ?_
  exact reads_wp (throwIf_reads _ _) (lodged_stable request.guest) h

theorem eq_of_one {α : Type} {xs : List α} {p : α → Bool} (h : (xs.filter p).length ≤ 1) {x y : α}
    (hx : x ∈ xs) (hy : y ∈ xs) (hpx : p x = true) (hpy : p y = true) : x = y := by
  have hx : x ∈ xs.filter p := List.mem_filter.mpr ⟨hx, hpx⟩
  have hy : y ∈ xs.filter p := List.mem_filter.mpr ⟨hy, hpy⟩
  generalize xs.filter p = found at h hx hy
  cases found with
  | nil => cases hx
  | cons z zs =>
      obtain rfl : zs = [] := List.eq_nil_of_length_eq_zero (by simpa using h)
      rw [List.mem_singleton.mp hx, List.mem_singleton.mp hy]

/-- The session that is loaded is at the table that the token says, if at any. -/
theorem loadActiveSession_wp (guest : GuestPrincipal) (h : Lodged guest l s) :
    (loadActiveSession guest).wp discipline (fun x l s => Begun l s ∧
      ∀ t, x.tableId = some t → s.Has t guest.outletId) l s := by
  have hstable : ∀ x : TableSession, discipline.Stable fun l s => Begun l s ∧
      ∀ t, x.tableId = some t → s.Has t guest.outletId := fun x =>
    begun_stable.and fun l s s' hrely h t ht => has_stable t _ l s s' hrely (h t ht)
  refine Txn.wp_query (lodged_stable guest) h fun s h => ?_
  obtain ⟨hbegun, x₀, hx₀, hfor⟩ := h
  rw [hbegun.2, applyAll_nil]
  refine Txn.wp_seq (orThrow_wp hstable fun x hx => ⟨hbegun, fun t ht => ?_⟩) fun x l s h => ?_
  · have hid : decide (x.id = guest.sessionId) = true := by simpa using List.find?_some hx
    have heq : x = x₀ := eq_of_one (hbegun.1.sound.sessionIds guest.sessionId)
      (List.mem_of_find?_eq_some hx) hx₀ hid (decide_eq_true hfor.session)
    subst heq
    have hhas := hbegun.1.sound.sessions x hx₀ t ht
    rwa [hfor.outlet] at hhas
  · refine Txn.wp_clock (hstable x) h fun now s h => Txn.wp_throwIf fun _ => ?_
    exact Txn.wp_done (hstable x) h

theorem placeOrder_wp (guest : GuestPrincipal) (refused : Option Failure)
    (h : Lodged guest l s) : (placeOrder guest refused).wp discipline (fun _ => Fits) l s := by
  refine Txn.wp_seq (loadActiveSession_wp guest h) fun session l s h => ?_
  have hstable := placed_stable fun t o => session.tableId = some t ∧ o = guest.outletId
  have hplaced : Placed (fun t o => session.tableId = some t ∧ o = guest.outletId) l s := by
    refine ⟨h.1.1, fun t o hfound => ?_⟩
    rw [hfound.2]
    exact h.2 t hfound.1
  have hwrites : discipline.Stable fun l s =>
      Placed (fun t o => session.tableId = some t ∧ o = guest.outletId) l s ∧ l.writes = [] :=
    hstable.and fun _ _ _ _ h => h
  refine Txn.wp_query hwrites ⟨hplaced, h.1.2⟩ fun s h => Txn.wp_throwIf fun _ => ?_
  refine Txn.wp_seq (clearTable_wp session.tableId h.1 h.2) fun _ l s h => ?_
  have hundeleted : discipline.Stable fun l _ => Undeleted l := fun _ _ _ _ h => h
  replace hstable := hstable.and hundeleted
  refine Txn.wp_uuid hstable h fun id s h => Txn.wp_clock hstable h fun createdAt s h => ?_
  refine Txn.wp_seq (guarded_wp hstable (fits_stable.and (unmoved_stable id)) h
    fun s h htakes => ⟨h.1.1.createOrder (fun t ht => h.1.2 t _ ⟨ht, rfl⟩) htakes,
      .inr ⟨?_, fun o ho hid => ?_⟩⟩) fun _ l s h => ?_
  · exact List.mem_append_right _ List.mem_cons_self
  · obtain ⟨o', ho', hid'⟩ := undeleted_applyAll h.2 ho
    exact (takesOrder_iff.mp htakes o' ho').1 (hid'.trans hid)
  refine Txn.wp_seq (reads_wp (refuse_reads refused) (fits_stable.and (unmoved_stable id)) h)
    fun _ l s h => ?_
  refine Txn.wp_seq (updateOrderStatus_wp h.1 h.2) fun _ l s h => ?_
  refine Txn.wp_mono (proper_carries (exec_proper (w := .deleteCartLines session.id) trivial) l s
    h.placed) fun _ _ _ h => h.1

theorem closeOrder_proper (id : ℕ) : (updateOrderStatus id .closed).Sends (Proper H) := by
  refine ⟨fun _ v => ?_, fun changed => proper_of_reads (throwIf_reads _ _)⟩
  dsimp only
  split
  · exact .plain (w := .updateOrderStatus id .closed) ⟨rfl, List.mem_singleton_self _⟩
  · exact .reads

theorem openOrClaimTable_wp (staffId outletId tableId : ℕ) (h : Fits l s) :
    (openOrClaimTable staffId outletId tableId).wp discipline (fun _ => Fits) l s := by
  refine Txn.wp_seq (findTable_wp outletId tableId fits_stable h) fun _ l s h => ?_
  refine Txn.wp_seq (tableThere_wp fits_stable h) fun _ l s h => ?_
  have hplaced : Placed (fun t o => some tableId = some t ∧ o = outletId) l s := by
    refine ⟨h.1, fun t o hfound => ?_⟩
    rw [← Option.some.inj hfound.1, hfound.2]
    exact h.2
  refine Txn.wp_mono (proper_carries ?_ l s hplaced) fun _ _ _ h => h.1
  refine (detachStaleTableOrder_proper tableId).bind fun _ =>
    (proper_of_reads (query_reads _)).bind fun existing => ?_
  cases existing with
  | some existing => trivial
  | none =>
      refine (proper_of_reads uuid_reads).bind fun _ => (proper_of_reads clock_reads).bind
        fun _ => (Txn.Sends.writeWhen (fun _ => .createOrder fun t ht => ⟨ht, rfl⟩)
          fun _ => .reads).bind fun created => ?_
      split
      · trivial
      · exact (proper_of_reads (query_reads _)).bind fun _ => proper_of_reads (orThrow_reads _ _)

/-- The requests whose statements need not be told apart. -/
def Request.plain : Request → Bool
  | .startSession _ | .startKioskSession _ _ | .joinSession _ _ | .openOrClaimTable _ _ _
  | .placeOrder _ _ | .updateStatus _ _ _ _ _ => false
  | _ => true

theorem canActivate_reads (request : GuestRequest) : (canActivate request).Emits Reads :=
  (query_reads _).bind fun _ => (throwIf_reads _ _).bind fun _ => (query_reads _).bind
    fun _ => (throwIf_reads _ _).bind fun _ => throwIf_reads _ _

theorem commitFinalize_proper (order : Order) (refused : Option Failure) :
    (commitFinalize order refused).Sends (Proper H) :=
  (proper_of_reads (refuse_reads refused)).bind fun _ => closeOrder_proper order.id

theorem Request.proper (r : Request) (h : r.plain = true) : r.prog.Sends (Proper noTables) := by
  cases r with
  | closeSessionForStaff outletId tableId =>
      exact (proper_of_reads (query_reads _)).bind fun _ =>
        (proper_of_reads (orThrow_reads _ _)).bind fun _ => (proper_of_reads (query_reads _)).bind
          fun _ => (proper_of_reads (orThrow_reads _ _)).bind fun _ => endSession_proper _ _
  | addCartLine request refused =>
      exact (proper_of_reads (canActivate_reads request)).bind fun _ =>
        (proper_of_reads (loadActiveSession_reads request.guest)).bind fun _ =>
          (proper_of_reads (refuse_reads refused)).bind fun _ =>
            (proper_of_reads uuid_reads).bind fun _ => (proper_of_reads clock_reads).bind fun _ =>
              exec_proper (w := .createCartLine _) trivial
  | removeCartLine request lineId refused =>
      exact (proper_of_reads (canActivate_reads request)).bind fun _ =>
        (proper_of_reads (loadActiveSession_reads request.guest)).bind fun _ =>
          (proper_of_reads (query_reads _)).bind fun _ => (proper_of_reads (orThrow_reads _ _)).bind
            fun _ => (proper_of_reads (throwIf_reads _ _)).bind fun _ =>
              (proper_of_reads (refuse_reads refused)).bind fun _ =>
                exec_proper (w := .deleteCartLine lineId) trivial
  | createCounterOrder staffId outletId =>
      exact (proper_of_reads (query_reads _)).bind fun _ =>
        (proper_of_reads (orThrow_reads _ _)).bind fun _ => (proper_of_reads uuid_reads).bind
          fun _ => (proper_of_reads clock_reads).bind fun _ =>
            createOrder_proper _ fun t ht => by cases ht
  | transfer orderId newOwnerStaffId =>
      exact (proper_of_reads (loadOrder_reads orderId)).bind fun _ =>
        (proper_of_reads (throwIf_reads _ _)).bind fun _ => (proper_of_reads (query_reads _)).bind
          fun _ => (proper_of_reads (throwIf_reads _ _)).bind fun _ =>
            exec_proper (w := .updateOrderOwner orderId newOwnerStaffId) (List.mem_singleton_self _)
  | discard staffId orderId ownerName refused hadLines =>
      refine (proper_of_reads (loadOrder_reads orderId)).bind fun _ =>
        (proper_of_reads (throwIf_reads _ _)).bind fun _ =>
          (proper_of_reads (throwIf_reads _ _)).bind fun _ =>
            (proper_of_reads (refuse_reads refused)).bind fun _ =>
              Txn.Sends.bind ?_ fun _ => exec_proper (w := .createAuditEvent _) trivial
      cases hadLines with
      | true => exact closeOrder_proper orderId
      | false => exact exec_proper (w := .deleteOrder orderId) (List.mem_singleton_self _)
  | finalize orderId refused =>
      exact (proper_of_reads (loadOrder_reads orderId)).bind fun _ => commitFinalize_proper _ refused
  | completeBill orderId refused =>
      refine (proper_of_reads (loadOrder_reads orderId)).bind fun order =>
        (commitFinalize_proper order refused).bind fun _ => ?_
      unfold settleSession
      split
      · trivial
      · exact endSession_proper _ true
  | updateOutlet outlet => exact exec_proper (w := .updateOutlet outlet) trivial
  | setTenantActive active => exact exec_proper (w := .setTenantActive active) trivial
  | _ => cases h

theorem Request.fits (r : Request) (hs : Sound s) :
    r.prog.wp discipline (fun _ => Fits) .empty s := by
  have hbegun : Begun .empty s := ⟨fits_empty hs, rfl⟩
  have hvoid : ∀ {α : Type} {p : Tx α}, p.wp discipline (fun _ => Fits) .empty s →
      p.void.wp discipline (fun _ => Fits) .empty s := fun h =>
    Txn.wp_seq h fun _ _ _ h => Txn.wp_done fits_stable h
  by_cases hplain : r.plain = true
  · exact Txn.wp_mono (proper_carries (r.proper hplain) .empty s hbegun.1.placed)
      fun _ _ _ h => h.1
  · cases r with
    | startSession dto => exact hvoid (startSession_wp dto hbegun.1)
    | startKioskSession outletId deviceId =>
        exact hvoid (startKioskSession_wp outletId deviceId hbegun.1)
    | joinSession dto lockedOut => exact hvoid (joinSession_wp dto lockedOut hbegun)
    | openOrClaimTable staffId outletId tableId =>
        exact hvoid (openOrClaimTable_wp staffId outletId tableId hbegun.1)
    | placeOrder request refused =>
        exact Txn.wp_seq (canActivate_wp request hbegun) fun _ l s h =>
          placeOrder_wp request.guest refused h
    | updateStatus staffId orderId ownerName status waiting =>
        exact updateStatus_wp staffId orderId ownerName status waiting hbegun
    | _ => exact absurd rfl hplain

end Programs

/-- Where nothing is asked of a run, every run will do. -/
theorem respects_any {D : Discipline Store Key Empty Write} (hadmits : ∀ l s l', D.admits l s l')
    (hlands : ∀ l s, D.lands l s) (S : System Store Key Empty Write Failure)
    (e : Event Store Key Empty Write Failure) : D.Respects S e := by
  cases e with
  | stmt t env => exact fun _ _ _ _ _ => hadmits _ _ _
  | commit t => exact fun _ _ => ⟨hlands _ _, fun _ _ _ _ r => r.elim⟩
  | _ => trivial

/-- What the requests keep holds in every state that they reach. -/
theorem holds_of_run {s : Store} (hs : Sound s) {S : System Store Key Empty Write Failure}
    {es : List (Event Store Key Empty Write Failure)}
    (h : Run IsRequest (fun _ _ => True) (System.start s) es S) :
    discipline.Holds S ∧ Later s S.store := by
  have hP : ∀ p, IsRequest p → ∀ s, Sound s →
      p.wp discipline (fun _ => discipline.Commits) .empty s := by
    rintro p ⟨r, rfl⟩ s hs
    exact Txn.wp_mono (r.fits hs) fun _ _ _ h => h.commits
  exact discipline.sound hP
    (fun S e _ => respects_any (fun _ _ _ => trivial) (fun _ _ => trivial) S e) (.start hs) h

/-- **One party at a table.** However the requests of guests, kiosks and staff interleave, no table
has two open sessions or two orders that are not closed; a session keeps its table, its PIN and the
time it runs out, and once it has ended it is never open again; every guest of a table's session
started it or gave its PIN, and every token was signed for a guest of the session that it names. -/
theorem one_party_at_a_table {s : Store} (hs : Sound s) {S : System Store Key Empty Write Failure}
    {es : List (Event Store Key Empty Write Failure)}
    (h : Run IsRequest (fun _ _ => True) (System.start s) es S) :
    Sound S.store ∧ Later s S.store := by
  obtain ⟨hholds, hlater⟩ := holds_of_run hs h
  exact ⟨hholds.inv, hlater⟩

/-- An outlet with one table and one kiosk. -/
def cafe : Store where
  tenantActive := true
  outlets := [⟨1, false, true, true⟩]
  tables := [⟨5, 1, "T5"⟩]
  devices := [⟨9, 1, "Kiosk 1", true, true⟩]
  staff := [3]
  sessions := []
  guests := []
  cartLines := []
  orders := []
  tokens := []

theorem cafe_sound : Sound cafe where
  sessions _ hx := absurd hx List.not_mem_nil
  orders _ ho := absurd ho List.not_mem_nil
  guests _ hg := absurd hg List.not_mem_nil
  tokens _ hp := absurd hp List.not_mem_nil
  tableIds := List.nodup_singleton 5
  sessionIds _ := Nat.zero_le _
  oneSession _ := Nat.zero_le _
  orderIds _ := Nat.zero_le _
  oneOrder _ := Nat.zero_le _

/-- Two guests start at one table at once, and the second is refused; a third joins the first with
the PIN. Staff close the session while the waiter opens an order, and send the order. -/
def raceForTable : List (Event Store Key Empty Write Failure) := List.flatten
  [[.begin (Request.startSession ⟨1, 5, "Asha", "98"⟩).prog,
      .begin (Request.startSession ⟨1, 5, "Ben", "97"⟩).prog],
    turns 0 10 100, turns 1 10 200, turns 0 5 110, [.commit 0], turns 1 1 210, [.rollback 1],
    [.begin (Request.joinSession ⟨1, 5, "Chitra", 106⟩ none).prog], turns 2 10 300, [.commit 2],
    [.begin (Request.closeSessionForStaff 1 5).prog,
      .begin (Request.openOrClaimTable 3 1 5).prog],
    turns 3 3 400, turns 4 7 500, turns 3 1 410, [.commit 4, .commit 3],
    [.begin (Request.updateStatus 3 504 "Dev" .sent true).prog], turns 5 2 600, [.commit 5]]

theorem begin_raceForTable {p : Tx Unit} (hp : .begin p ∈ raceForTable) : IsRequest p := by
  simp only [raceForTable, List.flatten_cons, List.flatten_nil, List.mem_append, List.mem_cons,
    begin_notMem_turns, Event.begin.injEq, reduceCtorEq, List.not_mem_nil, or_false,
    false_or] at hp
  rcases hp with (rfl | rfl) | rfl | (rfl | rfl) | rfl <;> exact ⟨_, rfl⟩

theorem one_party_at_a_table_sample : ∃ S,
    Run IsRequest (fun _ _ => True) (System.start cafe) raceForTable S ∧
    S.store.sessions.map (fun x => (x.id, x.status)) = [(107, .closed)] ∧
    S.store.guests.map (·.name) = ["Asha", "Chitra"] ∧
    S.store.orders.map (fun o => (o.id, o.status)) = [(504, .sent)] ∧ Sound S.store := by
  have hplay : ((System.start cafe).play raceForTable).map (fun S =>
      (S.store.sessions.map (fun x => (x.id, x.status)), S.store.guests.map (·.name),
        S.store.orders.map (fun o => (o.id, o.status)))) =
      some ([(107, .closed)], ["Asha", "Chitra"], [(504, .sent)]) := by decide +kernel
  obtain ⟨S, -, hrun, hstore⟩ := Run.of_play_map hplay fun p hp => begin_raceForTable hp
  obtain ⟨hsessions, hrest⟩ := Prod.mk.inj hstore
  obtain ⟨hguests, horders⟩ := Prod.mk.inj hrest
  exact ⟨S, hrun, hsessions, hguests, horders, (one_party_at_a_table cafe_sound hrun).1⟩

end RestiqBackend.GuestTables
