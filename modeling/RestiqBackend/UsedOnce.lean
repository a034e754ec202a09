import Mathlib.Data.List.Nodup
import RestiqBackend.ReadCommitted.Rely
import RestiqBackend.Secrets

/-!
A secret lets in once, in time, and not once it was replaced.

Whoever is let in holds the row of their secret from the update that used it up, so that no one
else's update of it counts; that much is true of every run. A replacement ends what was open when
it looked (`Cleared`), and what begins after that, while it is under way, is not among the rows
that it found. `orderly` is the assumption that nothing does.
-/

namespace RestiqBackend.Secrets

open ReadCommitted

/-! ### Open and closed -/

/-- Whether the number of a secret has been given out. -/
def Secret.known (s : Store) : Secret → Prop
  | .code _ => True
  | .invite id => id < s.nextInvite
  | .link id => id < s.nextLink

/-- The secret that a write begins. -/
def Write.begins (s : Store) : Write → Option Secret
  | .createInvite .. => some (.invite s.nextInvite)
  | .createLink .. => some (.link s.nextLink)
  | _ => none

section Open

variable {s : Store} {w : Write} {x : Secret} {ws : List Write}

/-- Rows of one number, used: every other row is as it was. -/
theorem any_unused_map {α : Type} (idOf : α → ℕ) (usedAt : α → Option ℤ) (f : α → α)
    (hf : ∀ r, usedAt (f r) ≠ none) (rows : List α) (id id' : ℕ) :
    ((rows.map fun r => if idOf r = id' then f r else r).any fun r =>
        decide (idOf r = id) && decide (usedAt r = none)) = true ↔
      (rows.any fun r => decide (idOf r = id) && decide (usedAt r = none)) = true ∧ id' ≠ id := by
  simp only [List.any_eq_true, Bool.and_eq_true, decide_eq_true_eq, List.mem_map]
  constructor
  · rintro ⟨r', ⟨r, hr, rfl⟩, hid, hunused⟩
    split at hid
    · rename_i heq
      rw [if_pos heq] at hunused
      exact absurd hunused (hf r)
    · rename_i hne
      rw [if_neg hne] at hunused
      exact ⟨⟨r, hr, hid, hunused⟩, fun heq => hne (hid.trans heq.symm)⟩
  · rintro ⟨⟨r, hr, hid, hunused⟩, hne⟩
    exact ⟨r, ⟨r, hr, if_neg fun heq => hne (heq.symm.trans hid)⟩, hid, hunused⟩

theorem isOpen_close (s : Store) (at_ : ℤ) (y x : Secret) :
    (s.close at_ y).isOpen x = true ↔ s.isOpen x = true ∧ y ≠ x := by
  cases y with
  | code id' =>
      cases x with
      | code id =>
          refine (any_unused_map EnrolmentCode.id EnrolmentCode.usedAt
            (fun r => { r with usedAt := some at_ }) (fun r h => nomatch h)
            s.enrolmentCodes id id').trans ?_
          exact and_congr_right fun _ => (not_congr (Iff.of_eq (Secret.code.injEq _ _))).symm
      | invite _ | link _ => simp [Store.close, Store.isOpen]
  | invite id' =>
      cases x with
      | invite id =>
          refine (any_unused_map OwnerInvite.id OwnerInvite.usedAt
            (fun r => { r with usedAt := some at_ }) (fun r h => nomatch h)
            s.ownerInvites id id').trans ?_
          exact and_congr_right fun _ => (not_congr (Iff.of_eq (Secret.invite.injEq _ _))).symm
      | code _ | link _ => simp [Store.close, Store.isOpen]
  | link id' =>
      cases x with
      | link id =>
          refine (any_unused_map OwnerPasswordReset.id OwnerPasswordReset.usedAt
            (fun r => { r with usedAt := some at_ }) (fun r h => nomatch h)
            s.passwordResets id id').trans ?_
          exact and_congr_right fun _ => (not_congr (Iff.of_eq (Secret.link.injEq _ _))).symm
      | code _ | invite _ => simp [Store.close, Store.isOpen]

/-- What is open after a write: what was open and is not ended by it, and what it begins. -/
theorem isOpen_apply (s : Store) (w : Write) (x : Secret) :
    (s.apply w).isOpen x = true ↔
      s.isOpen x = true ∧ w.shuts ≠ some x ∨ w.begins s = some x := by
  cases w with
  | close y at_ => simp [Store.apply, isOpen_close, Write.shuts, Write.begins]
  | deleteInvite id =>
      cases x with
      | invite id' =>
          simp only [Store.apply, Store.isOpen, Write.shuts, Write.begins, List.any_eq_true,
            List.mem_filter, Bool.and_eq_true, decide_eq_true_eq, ne_eq, Option.some.injEq,
            Secret.invite.injEq, reduceCtorEq, or_false]
          constructor
          · rintro ⟨r, ⟨hr, hne⟩, rfl, hunused⟩
            exact ⟨⟨r, hr, rfl, hunused⟩, Ne.symm hne⟩
          · rintro ⟨⟨r, hr, rfl, hunused⟩, hne⟩
            exact ⟨r, ⟨hr, Ne.symm hne⟩, rfl, hunused⟩
      | code _ | link _ => simp [Store.apply, Store.isOpen, Write.shuts, Write.begins]
  | createInvite =>
      cases x with
      | invite id => simp [Store.apply, Store.isOpen, Write.shuts, Write.begins]
      | code _ | link _ => simp [Store.apply, Store.isOpen, Write.shuts, Write.begins]
  | createLink =>
      cases x with
      | link id => simp [Store.apply, Store.isOpen, Write.shuts, Write.begins]
      | code _ | invite _ => simp [Store.apply, Store.isOpen, Write.shuts, Write.begins]
  | createDevice | upsertOwner | setPassword | upsertChecklist | createAuditEvent =>
      cases x <;> simp [Store.apply, Store.isOpen, Write.shuts, Write.begins]

theorem open_of_shut {y : Secret} (hshut : w.shuts = some y) (h : (s.apply w).isOpen x = true) :
    s.isOpen x = true ∧ y ≠ x := by
  have hbegins : w.begins s = none := by cases w <;> first | rfl | cases hshut
  rw [isOpen_apply, hbegins, hshut] at h
  obtain ⟨hopen, hne⟩ := h.resolve_right fun h => nomatch h
  exact ⟨hopen, fun heq => hne (congrArg some heq)⟩

theorem isOpen_applyAll (hopen : s.isOpen x = true) (h : ∀ w ∈ ws, w.shuts ≠ some x) :
    (applyAll ws s).isOpen x = true := by
  induction ws generalizing s with
  | nil => exact hopen
  | cons w ws ih =>
      have hw := (isOpen_apply s w x).mpr (.inl ⟨hopen, h w List.mem_cons_self⟩)
      exact ih hw fun w' hw' => h w' (List.mem_cons_of_mem _ hw')

/-- After writes that only end secrets: what is open was open, and is not one of those. -/
theorem open_of_applyAll (hws : ∀ w ∈ ws, w.shuts ≠ none) (h : (applyAll ws s).isOpen x = true) :
    s.isOpen x = true ∧ ∀ w ∈ ws, w.shuts ≠ some x := by
  induction ws generalizing s with
  | nil => exact ⟨h, fun w hw => absurd hw List.not_mem_nil⟩
  | cons w ws ih =>
      obtain ⟨hopen, hrest⟩ := ih (fun w' hw' => hws w' (List.mem_cons_of_mem _ hw')) h
      obtain ⟨y, hy⟩ := Option.ne_none_iff_exists'.mp (hws w List.mem_cons_self)
      obtain ⟨hopen, hne⟩ := open_of_shut hy hopen
      refine ⟨hopen, fun w' hw' => ?_⟩
      rcases List.mem_cons.mp hw' with rfl | hw'
      · rw [hy]
        exact fun heq => hne (Option.some.inj heq)
      · exact hrest w' hw'

end Open

/-! ### What every write keeps -/

/-- The rows of invites and of links are numbered as they are given out, each link once. -/
structure Numbered (s : Store) : Prop where
  invites : ∀ i ∈ s.ownerInvites, i.id < s.nextInvite
  links : ∀ r ∈ s.passwordResets, r.id < s.nextLink
  link_ids : (s.passwordResets.map (·.id)).Nodup

/-- What is known of the rows in every run; and, where the replacements are orderly, that what
was replaced is closed and let nobody in. -/
structure Sound (orderly : Prop) (s : Store) : Prop extends Numbered s where
  closed : ∀ u ∈ s.uses, s.isOpen u.secret = false
  once : (s.uses.map (·.secret)).Nodup
  in_time : ∀ u ∈ s.uses, u.now < u.expiresAt
  current : orderly → ∀ u ∈ s.uses, u.replaced = false
  dead : orderly → ∀ x ∈ s.replaced, s.isOpen x = false
  used_known : ∀ u ∈ s.uses, u.secret.known s
  replaced_known : ∀ x ∈ s.replaced, x.known s

/-- Somebody whom `u` may let in. -/
structure LetsIn (orderly : Prop) (s : Store) (u : Use) : Prop where
  closed : s.isOpen u.secret = false
  unused : u.secret ∉ s.uses.map (·.secret)
  known : u.secret.known s
  in_time : u.now < u.expiresAt
  current : orderly → u.replaced = false

/-- The use that a write records. -/
def Write.letIn : Write → Option Use
  | .createDevice _ u => some u
  | .upsertOwner _ u => some u
  | .setPassword _ _ u => some u
  | _ => none

/-- The secrets that a write says were replaced. -/
def Write.replaces (s : Store) : Write → List Secret
  | .deleteInvite id => (s.ownerInvites.filter (·.id = id)).map (.invite ·.id)
  | .createInvite tenantId .. => (s.invitesOf tenantId).map (.invite ·.id)
  | .setPassword ownerId _ u =>
      ((s.linksOf ownerId).map (Secret.link ·.id)).filter (· ≠ u.secret)
  | _ => []

section Keeping

variable {orderly : Prop} {s : Store} {w : Write} {x : Secret} {ws : List Write}

theorem apply_uses (s : Store) (w : Write) : (s.apply w).uses = s.uses ++ w.letIn.toList := by
  cases w with
  | close y at_ => cases y <;> exact (List.append_nil _).symm
  | createDevice | upsertOwner | setPassword => rfl
  | _ => exact (List.append_nil _).symm

theorem apply_replaced (s : Store) (w : Write) :
    (s.apply w).replaced = s.replaced ++ w.replaces s := by
  cases w with
  | close y at_ => cases y <;> exact (List.append_nil _).symm
  | deleteInvite | createInvite | setPassword => rfl
  | _ => exact (List.append_nil _).symm

theorem Secret.known.apply (h : x.known s) (w : Write) : x.known (s.apply w) := by
  cases x with
  | code id => trivial
  | invite id =>
      cases w with
      | close y at_ => cases y <;> exact h
      | createInvite => exact Nat.lt_succ_of_lt h
      | _ => exact h
  | link id =>
      cases w with
      | close y at_ => cases y <;> exact h
      | createLink => exact Nat.lt_succ_of_lt h
      | _ => exact h

/-- What is closed stays closed: no write begins a secret whose number was given out. -/
theorem closed_apply (hknown : x.known s) (h : s.isOpen x = false) (w : Write) :
    (s.apply w).isOpen x = false := by
  rw [Bool.eq_false_iff, ne_eq, isOpen_apply, h]
  rintro (⟨hopen, -⟩ | hbegins)
  · cases hopen
  · cases w with
    | createInvite =>
        cases hbegins
        exact absurd hknown (lt_irrefl _)
    | createLink =>
        cases hbegins
        exact absurd hknown (lt_irrefl _)
    | _ => cases hbegins

theorem Sound.known_of_open (h : Sound orderly s) (hopen : s.isOpen x = true) : x.known s := by
  cases x with
  | code id => trivial
  | invite id =>
      obtain ⟨i, hi, hrow⟩ := List.any_eq_true.mp hopen
      exact of_decide_eq_true (Bool.and_eq_true_iff.mp hrow).1 ▸ h.invites i hi
  | link id =>
      obtain ⟨r, hr, hrow⟩ := List.any_eq_true.mp hopen
      exact of_decide_eq_true (Bool.and_eq_true_iff.mp hrow).1 ▸ h.links r hr

theorem replaces_known (h : Numbered s) : ∀ x ∈ w.replaces s, x.known s := by
  intro x hx
  cases w with
  | deleteInvite id | createInvite =>
      obtain ⟨i, hi, rfl⟩ := List.mem_map.mp hx
      exact h.invites i (List.mem_of_mem_filter hi)
  | setPassword ownerId _ u =>
      obtain ⟨r, hr, rfl⟩ := List.mem_map.mp (List.mem_of_mem_filter hx)
      exact h.links r (List.mem_of_mem_filter hr)
  | _ => exact absurd hx List.not_mem_nil

theorem apply_invites (h : Numbered s) (w : Write) :
    ∀ i ∈ (s.apply w).ownerInvites, i.id < (s.apply w).nextInvite := by
  intro i hi
  cases w with
  | close y at_ =>
      cases y with
      | invite id =>
          obtain ⟨i, hi', rfl⟩ := List.mem_map.mp hi
          split
          · exact h.invites i hi'
          · exact h.invites i hi'
      | code _ | link _ => exact h.invites i hi
  | deleteInvite id => exact h.invites i (List.mem_of_mem_filter hi)
  | createInvite =>
      rcases List.mem_append.mp hi with hi | hi
      · exact Nat.lt_succ_of_lt (h.invites i hi)
      · obtain rfl := List.mem_singleton.mp hi
        exact Nat.lt_succ_self _
  | _ => exact h.invites i hi

theorem apply_links (h : Numbered s) (w : Write) :
    ∀ r ∈ (s.apply w).passwordResets, r.id < (s.apply w).nextLink := by
  intro r hr
  cases w with
  | close y at_ =>
      cases y with
      | link id =>
          obtain ⟨r, hr', rfl⟩ := List.mem_map.mp hr
          split
          · exact h.links r hr'
          · exact h.links r hr'
      | code _ | invite _ => exact h.links r hr
  | createLink =>
      rcases List.mem_append.mp hr with hr | hr
      · exact Nat.lt_succ_of_lt (h.links r hr)
      · obtain rfl := List.mem_singleton.mp hr
        exact Nat.lt_succ_self _
  | _ => exact h.links r hr

theorem apply_link_ids (h : Numbered s) (w : Write) :
    ((s.apply w).passwordResets.map (·.id)).Nodup := by
  cases w with
  | close y at_ =>
      cases y with
      | link id =>
          have hids : (s.passwordResets.map fun r => if r.id = id then
              { r with usedAt := some at_ } else r).map (·.id) = s.passwordResets.map (·.id) := by
            rw [List.map_map]
            refine List.map_congr_left fun r _ => ?_
            rw [Function.comp_apply]
            split <;> rfl
          exact hids ▸ h.link_ids
      | code _ | invite _ => exact h.link_ids
  | createLink tenantId ownerId expiresAt =>
      have hids := h.link_ids.append (List.nodup_singleton s.nextLink) fun id hid hid' => by
        obtain ⟨r, hr, rfl⟩ := List.mem_map.mp hid
        exact absurd (List.mem_singleton.mp hid') (h.links r hr).ne
      rw [← List.map_singleton (f := fun r : OwnerPasswordReset => r.id)
        (a := ⟨s.nextLink, tenantId, ownerId, expiresAt, none⟩), ← List.map_append] at hids
      exact hids
  | _ => exact h.link_ids

theorem Numbered.apply (h : Numbered s) (w : Write) : Numbered (s.apply w) :=
  ⟨apply_invites h w, apply_links h w, apply_link_ids h w⟩

theorem Numbered.applyAll (h : Numbered s) (ws : List Write) :
    Numbered (ReadCommitted.applyAll ws s) := by
  induction ws generalizing s with
  | nil => exact h
  | cons w ws ih => exact ih (h.apply w)

/-- A write keeps what is known, if whom it lets in may be let in and what it replaces is closed
by then. -/
theorem Sound.apply (h : Sound orderly s) (hletIn : ∀ u, w.letIn = some u → LetsIn orderly s u)
    (hdead : orderly → ∀ x ∈ w.replaces s, (s.apply w).isOpen x = false) :
    Sound orderly (s.apply w) := by
  have huses : ∀ u ∈ (s.apply w).uses, u ∈ s.uses ∨ LetsIn orderly s u := by
    intro u hu
    rw [apply_uses, List.mem_append, Option.mem_toList] at hu
    exact hu.imp_right (hletIn u)
  refine ⟨h.toNumbered.apply w, fun u hu => ?_, ?_, fun u hu => ?_, fun ho u hu => ?_,
    fun ho x hx => ?_, fun u hu => ?_, fun x hx => ?_⟩
  · rcases huses u hu with hu | hu
    · exact closed_apply (h.used_known u hu) (h.closed u hu) w
    · exact closed_apply hu.known hu.closed w
  · rw [apply_uses, List.map_append]
    cases hw : w.letIn with
    | none => exact (List.append_nil _).symm ▸ h.once
    | some u =>
        refine h.once.append (List.nodup_singleton _) fun x hx hx' => ?_
        obtain rfl := List.mem_singleton.mp hx'
        exact (hletIn u hw).unused hx
  · exact (huses u hu).elim (h.in_time u) (·.in_time)
  · exact (huses u hu).elim (h.current ho u) (·.current ho)
  · rw [apply_replaced] at hx
    rcases List.mem_append.mp hx with hx | hx
    · exact closed_apply (h.replaced_known x hx) (h.dead ho x hx) w
    · exact hdead ho x hx
  · rcases huses u hu with hu | hu
    · exact (h.used_known u hu).apply w
    · exact hu.known.apply w
  · rw [apply_replaced] at hx
    rcases List.mem_append.mp hx with hx | hx
    · exact (h.replaced_known x hx).apply w
    · exact (replaces_known h.toNumbered x hx).apply w

/-- A write that lets nobody in and begins no invite. -/
def Write.mild : Write → Bool
  | .createInvite .. | .createDevice .. | .upsertOwner .. | .setPassword .. => false
  | _ => true

/-- A write that touches no secret. -/
def Write.plain : Write → Bool
  | .upsertChecklist .. | .createAuditEvent _ => true
  | _ => false

theorem mild_of_plain (h : w.plain = true) : w.mild = true := by
  cases w <;> first | rfl | cases h

theorem shuts_of_plain (h : w.plain = true) : w.shuts = none := by
  cases w <;> first | rfl | cases h

theorem mild_of_shuts (h : w.shuts ≠ none) : w.mild = true := by
  cases w <;> first | rfl | exact absurd rfl h

theorem mild_letIn (h : w.mild = true) : w.letIn = none := by
  cases w <;> first | rfl | cases h

theorem closed_of_deleteInvite {id : ℕ} (hx : x ∈ Write.replaces s (.deleteInvite id)) :
    (s.apply (.deleteInvite id)).isOpen x = false := by
  obtain ⟨i, hi, rfl⟩ := List.mem_map.mp hx
  obtain rfl := of_decide_eq_true (List.mem_filter.mp hi).2
  exact Bool.eq_false_iff.mpr fun hopen => (open_of_shut rfl hopen).2 rfl

theorem Sound.mild (h : Sound orderly s) (hw : w.mild = true) : Sound orderly (s.apply w) := by
  refine h.apply (fun u hu => nomatch (mild_letIn hw).symm.trans hu) fun _ x hx => ?_
  cases w with
  | deleteInvite id => exact closed_of_deleteInvite hx
  | createInvite | createDevice | upsertOwner | setPassword => cases hw
  | _ => exact absurd hx List.not_mem_nil

theorem Sound.applyAll_mild (h : Sound orderly s) (hws : ∀ w ∈ ws, w.mild = true) :
    Sound orderly (applyAll ws s) := by
  induction ws generalizing s with
  | nil => exact h
  | cons w ws ih =>
      exact ih (h.mild (hws w List.mem_cons_self)) fun w' hw' => hws w' (List.mem_cons_of_mem _ hw')

theorem applyAll_uses_mild (hws : ∀ w ∈ ws, w.mild = true) (s : Store) :
    (applyAll ws s).uses = s.uses :=
  applyAll_frame Store.uses (fun w hw s =>
    (apply_uses s w).trans (mild_letIn (hws w hw) ▸ List.append_nil _)) s

theorem Secret.known.applyAll (h : x.known s) (ws : List Write) : x.known (applyAll ws s) := by
  induction ws generalizing s with
  | nil => exact h
  | cons w ws ih => exact ih (h.apply w)

/-! ### What a replacement looks for -/

/-- The secrets that a replacement looks for. -/
def Store.secretsOf (s : Store) : Read → List Secret
  | .invitesOf tenantId => (s.invitesOf tenantId).map (.invite ·.id)
  | .linksOf ownerId => (s.linksOf ownerId).map (.link ·.id)

def Store.openOf (s : Store) (r : Read) : List Secret := (s.secretsOf r).filter s.isOpen

/-- What a write that begins an invite, or sets a password, is to have ended. -/
def Write.replacing : Write → Option Read
  | .createInvite tenantId .. => some (.invitesOf tenantId)
  | .setPassword ownerId .. => some (.linksOf ownerId)
  | _ => none

variable {r : Read}

theorem mem_openOf : x ∈ s.openOf r ↔ x ∈ s.secretsOf r ∧ s.isOpen x = true := List.mem_filter

theorem secretsOf_known (h : Numbered s) (hx : x ∈ s.secretsOf r) : x.known s := by
  cases r with
  | invitesOf tenantId =>
      obtain ⟨i, hi, rfl⟩ := List.mem_map.mp hx
      exact h.invites i (List.mem_of_mem_filter hi)
  | linksOf ownerId =>
      obtain ⟨l, hl, rfl⟩ := List.mem_map.mp hx
      exact h.links l (List.mem_of_mem_filter hl)

/-- Rows of one number, used: the others are as they were, and so are the numbers of all. -/
theorem mem_map_used {α : Type} {idOf : α → ℕ} {p : α → Bool} {f : α → α}
    (hid : ∀ a, idOf (f a) = idOf a) (hp : ∀ a, p (f a) = p a) (secret : ℕ → Secret)
    (rows : List α) (id : ℕ) :
    ((rows.map fun a => if idOf a = id then f a else a).filter p).map (fun a => secret (idOf a)) =
      (rows.filter p).map fun a => secret (idOf a) := by
  have hp : ∀ a, p (if idOf a = id then f a else a) = p a := fun a => by split <;> simp [hp]
  rw [List.filter_map, List.map_map]
  have hcomp : (p ∘ fun a => if idOf a = id then f a else a) = p := funext hp
  rw [hcomp]
  refine List.map_congr_left fun a _ => ?_
  rw [Function.comp_apply]
  split
  · rw [hid]
  · rfl

theorem secretsOf_close (s : Store) (at_ : ℤ) (y : Secret) (r : Read) :
    (s.close at_ y).secretsOf r = s.secretsOf r := by
  cases y with
  | code id => cases r <;> rfl
  | invite id =>
      cases r with
      | invitesOf tenantId =>
          exact mem_map_used (f := fun i : OwnerInvite => { i with usedAt := some at_ })
            (fun _ => rfl) (fun _ => rfl) Secret.invite s.ownerInvites id
      | linksOf ownerId => rfl
  | link id =>
      cases r with
      | invitesOf tenantId => rfl
      | linksOf ownerId =>
          exact mem_map_used (f := fun l : OwnerPasswordReset => { l with usedAt := some at_ })
            (fun _ => rfl) (fun _ => rfl) Secret.link s.passwordResets id

/-- A write that adds to none of them begins no row and moves none. -/
theorem secretsOf_of_apply (hadds : w.adds r = false) (hx : x ∈ (s.apply w).secretsOf r) :
    x ∈ s.secretsOf r := by
  cases w with
  | close y at_ => exact secretsOf_close s at_ y r ▸ hx
  | deleteInvite id =>
      cases r with
      | invitesOf tenantId =>
          refine List.map_subset _ (fun i hi => ?_) hx
          obtain ⟨hi, htenant⟩ := List.mem_filter.mp hi
          exact List.mem_filter.mpr ⟨List.mem_of_mem_filter hi, htenant⟩
      | linksOf ownerId => exact hx
  | createInvite tenantId' =>
      cases r with
      | invitesOf tenantId =>
          have hne : tenantId' ≠ tenantId := fun heq => of_decide_eq_false hadds (heq ▸ rfl)
          simpa [Store.secretsOf, Store.invitesOf, Store.apply, hne] using hx
      | linksOf ownerId => exact hx
  | createLink tenantId' ownerId' =>
      cases r with
      | invitesOf tenantId => exact hx
      | linksOf ownerId =>
          have hne : ownerId' ≠ ownerId := fun heq => of_decide_eq_false hadds (heq ▸ rfl)
          simpa [Store.secretsOf, Store.linksOf, Store.apply, hne] using hx
  | _ => cases r <;> exact hx

/-- A row goes only when its secret is ended. -/
theorem secretsOf_apply (hw : w.shuts ≠ some x) (hx : x ∈ s.secretsOf r) :
    x ∈ (s.apply w).secretsOf r := by
  cases w with
  | close y at_ => exact (secretsOf_close s at_ y r).symm ▸ hx
  | deleteInvite id =>
      cases r with
      | invitesOf tenantId =>
          obtain ⟨i, hi, rfl⟩ := List.mem_map.mp hx
          obtain ⟨hi, htenant⟩ := List.mem_filter.mp hi
          refine List.mem_map_of_mem (List.mem_filter.mpr ⟨List.mem_filter.mpr ⟨hi, ?_⟩, htenant⟩)
          exact decide_eq_true fun hid => hw (hid ▸ rfl)
      | linksOf ownerId => exact hx
  | createInvite =>
      cases r with
      | invitesOf tenantId =>
          refine List.map_subset _ (fun i hi => ?_) hx
          obtain ⟨hi, htenant⟩ := List.mem_filter.mp hi
          exact List.mem_filter.mpr ⟨List.mem_append_left _ hi, htenant⟩
      | linksOf ownerId => exact hx
  | createLink =>
      cases r with
      | invitesOf tenantId => exact hx
      | linksOf ownerId =>
          refine List.map_subset _ (fun l hl => ?_) hx
          obtain ⟨hl, howner⟩ := List.mem_filter.mp hl
          exact List.mem_filter.mpr ⟨List.mem_append_left _ hl, howner⟩
  | _ => cases r <;> exact hx

theorem secretsOf_of_applyAll (hadds : ∀ w ∈ ws, w.adds r = false)
    (hx : x ∈ (applyAll ws s).secretsOf r) : x ∈ s.secretsOf r := by
  induction ws generalizing s with
  | nil => exact hx
  | cons w ws ih =>
      exact secretsOf_of_apply (hadds w List.mem_cons_self)
        (ih (fun w' hw' => hadds w' (List.mem_cons_of_mem _ hw')) hx)

theorem closed_applyAll (hknown : x.known s) (h : s.isOpen x = false) (ws : List Write) :
    (applyAll ws s).isOpen x = false := by
  induction ws generalizing s with
  | nil => exact h
  | cons w ws ih => exact ih (hknown.apply w) (closed_apply hknown h w)

/-- What is open after writes that add none of them was open before. -/
theorem openOf_of_applyAll (h : Numbered s) (hadds : ∀ w ∈ ws, w.adds r = false)
    (hx : x ∈ (applyAll ws s).openOf r) : x ∈ s.openOf r := by
  obtain ⟨hrow, hopen⟩ := mem_openOf.mp hx
  have hrow := secretsOf_of_applyAll hadds hrow
  refine mem_openOf.mpr ⟨hrow, Bool.of_not_eq_false fun hclosed => ?_⟩
  exact Bool.eq_false_iff.mp (closed_applyAll (secretsOf_known h hrow) hclosed ws) hopen

theorem openOf_applyAll (hws : ∀ w ∈ ws, w.shuts ≠ some x) (hx : x ∈ s.openOf r) :
    x ∈ (applyAll ws s).openOf r := by
  obtain ⟨hrow, hopen⟩ := mem_openOf.mp hx
  refine mem_openOf.mpr ⟨?_, isOpen_applyAll hopen hws⟩
  clear hx hopen
  induction ws generalizing s with
  | nil => exact hrow
  | cons w ws ih =>
      exact ih (fun w' hw' => hws w' (List.mem_cons_of_mem _ hw'))
        (secretsOf_apply (hws w List.mem_cons_self) hrow)

theorem adds_of_shuts (h : w.shuts ≠ none) (r : Read) : w.adds r = false := by
  cases w <;> first | rfl | exact absurd rfl h

/-- What a write says was replaced is among what it is to have ended. -/
theorem secretsOf_of_replaces (hw : w.shuts = none) (hx : x ∈ w.replaces s) :
    ∃ r, w.replacing = some r ∧ x ∈ s.secretsOf r := by
  cases w with
  | deleteInvite id => cases hw
  | createInvite tenantId => exact ⟨_, rfl, hx⟩
  | setPassword ownerId => exact ⟨_, rfl, List.mem_of_mem_filter hx⟩
  | _ => exact absurd hx List.not_mem_nil

end Keeping

/-! ### What a transaction ends in -/

/-- Every secret that is ended is held. -/
def Locked (l : TxFootprint) : Prop :=
  ∀ w ∈ l.writes, ∀ x, w.shuts = some x → Key.secret x ∈ l.locks

/-- Whom the transaction lets in held a secret that was open, used it up, and was in time. -/
structure Admitted (orderly : Prop) (u : Use) (before : List Write) (l : TxFootprint) (s : Store) :
    Prop where
  held : Key.secret u.secret ∈ l.locks
  isOpen : s.isOpen u.secret = true
  shut : ∃ w ∈ before, w.shuts = some u.secret
  in_time : u.now < u.expiresAt
  current : orderly → u.replaced = false

/-- What is open of what was looked for was found then, and is still to be ended, or it is ended
by the transaction. -/
structure Cleared (orderly : Prop) (r : Read) (found : List Secret) (before : List Write)
    (l : TxFootprint) (s : Store) : Prop where
  read : r ∈ l.reads
  numbered : Numbered s
  shut : orderly → ∀ x ∈ s.openOf r, x ∈ found ∨ ∃ w ∈ before, w.shuts = some x

/-- What is written by the commit: secrets that end and then at most one write that lets somebody
in or begins an invite, having ended what it replaces, and nothing after it that touches a
secret. -/
def Ended (orderly : Prop) (l : TxFootprint) (s : Store) : Prop :=
  Locked l ∧ ((∀ w ∈ l.writes, w.mild = true) ∨ ∃ before w after, l.writes = before ++ w :: after ∧
    (∀ w' ∈ before, w'.shuts ≠ none) ∧ (∀ w' ∈ after, w'.plain = true) ∧ w.shuts = none ∧
    (∀ u, w.letIn = some u → Admitted orderly u before l s) ∧
    ∀ r, w.replacing = some r → Cleared orderly r [] before l s)

/-- An open secret that somebody holds stays open, and none begins of those that somebody has
looked for. -/
def discipline (orderly : Prop) : Discipline Store Key Read Write where
  inv := Sound orderly
  guar s s' := Numbered s → Numbered s'
  keeps k s s' := ∀ x, k = .secret x → s.isOpen x = true → s'.isOpen x = true
  heeds r s s' := orderly → Numbered s → Numbered s' ∧ ∀ x ∈ s'.openOf r, x ∈ s.openOf r
  admits _ _ _ := True
  lands _ _ := True
  ends _ _ := True
  guar_refl _ := id
  guar_trans _ _ _ h h' := h' ∘ h
  keeps_refl _ _ _ _ h := h
  keeps_trans _ _ _ _ h h' x hk hopen := h' x hk (h x hk hopen)
  heeds_refl _ _ _ h := ⟨h, fun _ => id⟩
  heeds_trans _ _ _ _ h h' ho hs :=
    have hs' := h ho hs
    have hs'' := h' ho hs'.1
    ⟨hs''.1, fun x hx => hs'.2 x (hs''.2 x hx)⟩

section Ending

variable {orderly : Prop} {l : TxFootprint} {s : Store} {before after : List Write} {w : Write}

/-- What a replacement says was replaced is closed by then. -/
theorem replaces_closed (h : Numbered (applyAll before s))
    (hbefore : ∀ w' ∈ before, w'.shuts ≠ none) (hw : w.shuts = none)
    (hcleared : ∀ r, w.replacing = some r → ∀ x ∈ s.openOf r, ∃ w' ∈ before, w'.shuts = some x) :
    ∀ x ∈ w.replaces (applyAll before s), ((applyAll before s).apply w).isOpen x = false := by
  intro x hx
  refine closed_apply (replaces_known h x hx) (Bool.eq_false_iff.mpr fun hopen => ?_) w
  obtain ⟨r, hr, hrow⟩ := secretsOf_of_replaces hw hx
  obtain ⟨hopen, hkept⟩ := open_of_applyAll hbefore hopen
  have hrow := secretsOf_of_applyAll (fun w' hw' => adds_of_shuts (hbefore w' hw') r) hrow
  obtain ⟨w', hw', hshut⟩ := hcleared r hr x (mem_openOf.mpr ⟨hrow, hopen⟩)
  exact hkept w' hw' hshut

theorem Admitted.letsIn {u : Use} (h : Admitted orderly u before l s) (hs : Sound orderly s)
    (hbefore : ∀ w' ∈ before, w'.shuts ≠ none) : LetsIn orderly (applyAll before s) u where
  closed := Bool.eq_false_iff.mpr fun hopen => by
    obtain ⟨w, hw, hx⟩ := h.shut
    exact (open_of_applyAll hbefore hopen).2 w hw hx
  unused := by
    rw [applyAll_uses_mild fun w hw => mild_of_shuts (hbefore w hw)]
    intro hmem
    obtain ⟨u', hu', heq⟩ := List.mem_map.mp hmem
    exact Bool.eq_false_iff.mp (hs.closed u' hu') (heq ▸ h.isOpen)
  known := (hs.known_of_open h.isOpen).applyAll before
  in_time := h.in_time
  current := h.current

theorem ended_commits (hs : Sound orderly s) (h : Ended orderly l s) :
    (discipline orderly).Commits l s := by
  intro _
  obtain ⟨hlocked, hwrites⟩ := h
  refine ⟨?_, fun h => h.applyAll l.writes, ?_, trivial⟩
  · rcases hwrites with hmild | ⟨before, w, after, heq, hbefore, hafter, hw, hletIn, hcleared⟩
    · exact hs.applyAll_mild hmild
    · have hs₁ : Sound orderly (applyAll before s) :=
        hs.applyAll_mild fun w' hw' => mild_of_shuts (hbefore w' hw')
      rw [heq, applyAll_append, applyAll_cons]
      refine Sound.applyAll_mild (hs₁.apply (fun u hu => (hletIn u hu).letsIn hs hbefore) ?_)
        fun w' hw' => mild_of_plain (hafter w' hw')
      intro ho
      refine replaces_closed hs₁.toNumbered hbefore hw fun r hr x hx => ?_
      exact ((hcleared r hr).shut ho x hx).resolve_left List.not_mem_nil
  · rintro k hk x rfl hopen
    exact isOpen_applyAll hopen fun w hw hx => hk (hlocked w hw x hx)

end Ending

/-! ### Along a transaction -/

/-- Secrets were ended and held, and nothing else was written. -/
def Shutting (l : TxFootprint) : Prop := Locked l ∧ ∀ w ∈ l.writes, w.shuts ≠ none

/-- Somebody is about to be let in. -/
def Held (orderly : Prop) (u : Use) (l : TxFootprint) (s : Store) : Prop :=
  Shutting l ∧ Admitted orderly u l.writes l s

section Along

variable {orderly : Prop} {l l' : TxFootprint} {s : Store} {u : Use} {w : Write}

theorem Locked.add (h : Locked l) (h' : Locked l') : Locked (l.add l') := by
  intro w hw x hx
  rcases List.mem_append.mp hw with hw | hw
  · exact List.mem_append_left _ (h w hw x hx)
  · exact List.mem_append_right _ (h' w hw x hx)

theorem Shutting.add (h : Shutting l) (h' : Shutting l') : Shutting (l.add l') := by
  refine ⟨h.1.add h'.1, fun w hw => ?_⟩
  rcases List.mem_append.mp hw with hw | hw
  · exact h.2 w hw
  · exact h'.2 w hw

theorem shutting_read (reads : List Read) : Shutting ⟨[], reads, []⟩ :=
  ⟨fun _ h => absurd h List.not_mem_nil, fun _ h => absurd h List.not_mem_nil⟩

theorem shutting_empty : Shutting .empty := shutting_read []

theorem Held.add (h : Held orderly u l s) (h' : Shutting l') : Held orderly u (l.add l') s := by
  obtain ⟨hshut, hadm⟩ := h
  obtain ⟨w, hw, hx⟩ := hadm.shut
  exact ⟨hshut.add h', { hadm with
    held := List.mem_append_left _ hadm.held
    shut := ⟨w, List.mem_append_left _ hw, hx⟩ }⟩

theorem Cleared.add {r : Read} {found : List Secret} {before : List Write}
    (h : Cleared orderly r found before l s) : Cleared orderly r found before (l.add l') s :=
  { h with read := List.mem_append_left _ h.read }

/-- A write that ends no secret, after which the transaction is as good as done. -/
theorem Shutting.end (h : Shutting l) (locks : List Key) (hw : w.shuts = none)
    (hadm : ∀ u, w.letIn = some u → Admitted orderly u l.writes l s)
    (hcleared : ∀ r, w.replacing = some r → Cleared orderly r [] l.writes l s) :
    Ended orderly (l.add ⟨locks, [], [w]⟩) s := by
  refine ⟨h.1.add fun w' hw' x hx => ?_, .inr ⟨l.writes, w, [], rfl, h.2, ?_, hw, fun u hu => ?_,
    fun r hr => (hcleared r hr).add⟩⟩
  · obtain rfl := List.mem_singleton.mp hw'
    exact nomatch hw.symm.trans hx
  · exact fun _ h => absurd h List.not_mem_nil
  · exact { hadm u hu with held := List.mem_append_left _ (hadm u hu).held }

theorem Held.end (h : Held orderly u l s) (locks : List Key) (hw : w.shuts = none)
    (hletIn : w.letIn = some u)
    (hcleared : ∀ r, w.replacing = some r → Cleared orderly r [] l.writes l s) :
    Ended orderly (l.add ⟨locks, [], [w]⟩) s :=
  h.1.end locks hw (fun _ hu => Option.some.inj (hletIn.symm.trans hu) ▸ h.2) hcleared

theorem Ended.plain (h : Ended orderly l s) (locks : List Key) (hw : w.plain = true) :
    Ended orderly (l.add ⟨locks, [], [w]⟩) s := by
  refine ⟨h.1.add fun w' hw' x hx => ?_, ?_⟩
  · obtain rfl := List.mem_singleton.mp hw'
    exact nomatch (shuts_of_plain hw).symm.trans hx
  · rcases h.2 with hmild | ⟨before, w', after, heq, hbefore, hafter, hshuts, hadm, hcleared⟩
    · refine .inl fun w' hw' => ?_
      rcases List.mem_append.mp hw' with hw' | hw'
      · exact hmild w' hw'
      · exact List.mem_singleton.mp hw' ▸ mild_of_plain hw
    · refine .inr ⟨before, w', after ++ [w], ?_, hbefore, fun w'' hw'' => ?_, hshuts,
        fun u hu => ?_, fun r hr => (hcleared r hr).add⟩
      · rw [Footprint.add_writes, heq, List.append_assoc]
        rfl
      · rcases List.mem_append.mp hw'' with hw'' | hw''
        · exact hafter w'' hw''
        · exact List.mem_singleton.mp hw'' ▸ hw
      · exact { hadm u hu with held := List.mem_append_left _ (hadm u hu).held }

theorem Admitted.stable {before : List Write} {s' : Store} (h : Admitted orderly u before l s)
    (hrely : (discipline orderly).Rely l s s') : Admitted orderly u before l s' :=
  { h with isOpen := hrely.keeps _ h.held _ rfl h.isOpen }

theorem Cleared.stable {r : Read} {found : List Secret} {before : List Write} {s' : Store}
    (h : Cleared orderly r found before l s) (hrely : (discipline orderly).Rely l s s') :
    Cleared orderly r found before l s' where
  read := h.read
  numbered := hrely.guar h.numbered
  shut ho x hx := h.shut ho x ((hrely.heeds r h.read ho h.numbered).2 x hx)

theorem held_stable (u : Use) : (discipline orderly).Stable (Held orderly u) :=
  fun _ _ _ hrely h => ⟨h.1, h.2.stable hrely⟩

theorem shutting_stable : (discipline orderly).Stable fun l _ => Shutting l := fun _ _ _ _ h => h

theorem ended_stable : (discipline orderly).Stable (Ended orderly) := by
  intro l s s' hrely ⟨hlocked, h⟩
  refine ⟨hlocked, h.imp_right ?_⟩
  rintro ⟨before, w, after, heq, hbefore, hafter, hw, hadm, hcleared⟩
  exact ⟨before, w, after, heq, hbefore, hafter, hw, fun u hu => (hadm u hu).stable hrely,
    fun r hr => (hcleared r hr).stable hrely⟩

/-- Presenting a secret that leads to its row. -/
theorem present_wp {α : Type} {x : Secret} {refusals : Refusals} {find : Store → Option α}
    {usedAt : α → Option ℤ} {expiresAt : α → ℤ}
    (hfind : ∀ v row, find v = some row → usedAt row = none → v.isOpen x = true)
    (hs : Sound orderly s) :
    (present x refusals find usedAt expiresAt).wp (discipline orderly)
      (fun r => Held orderly r.2) .empty s := by
  have hstable : (discipline orderly).Stable fun l s => Sound orderly s ∧ l = .empty :=
    fun _ _ _ hrely h => ⟨hrely.inv h.1, h.2⟩
  refine Txn.wp_query hstable ⟨hs, rfl⟩ fun v ⟨hs, _⟩ => ?_
  dsimp only [Footprint.empty_writes, applyAll_nil]
  cases hrow : find v with
  | none => trivial
  | some row =>
      refine Txn.wp_throwIf fun hunused => ?_
      have hopen : v.isOpen x = true := hfind v row hrow (not_not.mp hunused)
      have hcurrent : orderly → decide (x ∈ v.replaced) = false := fun ho =>
        decide_eq_false fun hmem => Bool.eq_false_iff.mp (hs.dead ho x hmem) hopen
      have hempty : (discipline orderly).Stable fun l _ => l = .empty := fun _ _ _ _ h => h
      refine Txn.wp_clock hempty rfl fun now s _ => ?_
      refine Txn.wp_throwIf fun htime => ?_
      refine Txn.wp_clock hempty rfl fun at_ s _ => ?_
      refine Txn.wp_seq (R := fun consumed l s => consumed = true →
        Held orderly ⟨x, now, expiresAt row, decide (x ∈ v.replaced)⟩ l s)
        ?_ fun consumed l s h => ?_
      · refine Txn.wp_writeWhen hempty (fun consumed => .imp _ (held_stable _)) rfl ?_ ?_
        · rintro s - hopen -  -
          refine ⟨⟨fun w hw y hy => ?_, fun w hw => ?_⟩, List.mem_singleton_self _, hopen,
            ⟨.close x at_, List.mem_singleton_self _, rfl⟩, not_le.mp htime, hcurrent⟩
          · obtain rfl := List.mem_singleton.mp hw
            obtain rfl := Option.some.inj hy
            exact List.mem_singleton_self _
          · obtain rfl := List.mem_singleton.mp hw
            exact fun h => nomatch h
        · exact fun _ _ _ h => nomatch h
      · refine Txn.wp_throwIf fun hconsumed => ?_
        exact Txn.wp_done (held_stable _) (h (Bool.of_not_eq_false hconsumed))

theorem audit_wp {tenantId : ℕ} {actorId : Option ℕ} {actorEmail action reason : String}
    (h : Ended orderly l s) :
    (audit tenantId actorId actorEmail action reason).wp (discipline orderly)
      (fun _ => Ended orderly) l s := by
  refine Txn.wp_clock ended_stable h fun now s h => ?_
  exact Txn.wp_stmt ended_stable h fun env s h _ => Txn.wp_done ended_stable (h.plain [] rfl)

theorem upsertChecklist_wp {tenantId : ℕ} {devicesAt : Option ℤ} (h : Ended orderly l s) :
    (upsertChecklist tenantId devicesAt).wp (discipline orderly) (fun _ => Ended orderly) l s :=
  Txn.wp_stmt ended_stable h fun _ _ h _ => Txn.wp_done ended_stable (h.plain _ rfl)

theorem enrollWithActor_wp (actor : EnrollActor) (dto : EnrollDeviceDto) (hs : Sound orderly s) :
    (enrollWithActor actor dto).wp (discipline orderly) (fun _ => Ended orderly) .empty s := by
  refine Txn.wp_seq (present_wp (fun v row hrow hunused => ?_) hs) fun r l s h => ?_
  · refine List.any_eq_true.mpr ⟨row, List.mem_of_find?_eq_some hrow, ?_⟩
    have hid : row.id = dto.code := by simpa using List.find?_some hrow
    simp [hid, hunused]
  · obtain ⟨record, u⟩ := r
    have hstable : (discipline orderly).Stable (Held orderly u) := held_stable u
    refine Txn.wp_query hstable h fun s' h => ?_
    refine Txn.wp_uuid hstable h fun id s h => ?_
    refine Txn.wp_clock hstable h fun now s h => ?_
    refine Txn.wp_query hstable h fun s h => ?_
    refine Txn.wp_seq (R := fun _ => Ended orderly) (Txn.wp_stmt hstable h fun _ s h _ =>
      Txn.wp_done ended_stable (h.end [] rfl rfl fun _ hr => nomatch hr)) fun _ l s h => ?_
    refine Txn.wp_seq (audit_wp h) fun _ l s h => ?_
    dsimp only
    split
    · exact Txn.wp_seq (upsertChecklist_wp h) fun _ _ _ h => Txn.wp_done ended_stable h
    · exact Txn.wp_done ended_stable h

theorem acceptInvite_wp (token : ℕ) (passwordHash : String) (hs : Sound orderly s) :
    (acceptInvite token passwordHash).wp (discipline orderly) (fun _ => Ended orderly)
      .empty s := by
  refine Txn.wp_seq (present_wp (fun v row hrow hunused => ?_) hs) fun r l s h => ?_
  · refine List.any_eq_true.mpr ⟨row, List.mem_of_find?_eq_some hrow, ?_⟩
    have hid : row.id = token := by simpa using List.find?_some hrow
    simp [hid, hunused]
  · obtain ⟨invite, u⟩ := r
    have hstable : (discipline orderly).Stable (Held orderly u) := held_stable u
    refine Txn.wp_uuid hstable h fun id s h => ?_
    refine Txn.wp_seq (R := fun _ => Ended orderly) (Txn.wp_stmt hstable h fun _ s h _ =>
      Txn.wp_done ended_stable (h.end _ rfl rfl fun _ hr => nomatch hr)) fun owner l s h => ?_
    refine Txn.wp_seq (upsertChecklist_wp h) fun _ l s h => ?_
    exact Txn.wp_seq (audit_wp h) fun _ l s h => Txn.wp_done ended_stable h

theorem shutting_map {ι : Type} (rows : List ι) {x : ι → Secret} {w : ι → Write}
    (h : ∀ i, (w i).shuts = some (x i)) :
    Shutting ⟨rows.map fun i => .secret (x i), [], rows.map w⟩ := by
  constructor
  · intro w' hw' y hy
    obtain ⟨i, hi, rfl⟩ := List.mem_map.mp hw'
    obtain rfl := Option.some.inj ((h i).symm.trans hy)
    exact List.mem_map_of_mem hi
  · intro w' hw'
    obtain ⟨i, -, rfl⟩ := List.mem_map.mp hw'
    exact fun hnone => nomatch hnone.symm.trans (h i)

theorem closeLinks_emits (ownerId : ℕ) (remembered : List Read) :
    (closeLinks ownerId remembered).Emits Shutting :=
  ⟨fun _ _ => shutting_read [], fun _ => ⟨fun _ _ => shutting_read remembered, fun _ =>
    ⟨fun _ _ => shutting_map _ fun _ => rfl, fun _ => trivial⟩⟩⟩

/-- Secrets are being ended that were `found`. -/
def Clearing (orderly : Prop) (r : Read) (found : List Secret) (l : TxFootprint) (s : Store) :
    Prop :=
  Shutting l ∧ Cleared orderly r found l.writes l s

theorem clearing_stable (r : Read) (found : List Secret) :
    (discipline orderly).Stable (Clearing orderly r found) :=
  fun _ _ _ hrely h => ⟨h.1, h.2.stable hrely⟩

/-- Whoever looks finds all that is open and is not ended by their own transaction. -/
theorem Shutting.find {r : Read} {found : List Secret} (h : Shutting l) (hs : Numbered s)
    (hfound : ∀ x ∈ (applyAll l.writes s).openOf r, x ∈ found) :
    Clearing orderly r found (l.add ⟨[], [r], []⟩) s := by
  refine ⟨h.add (shutting_read [r]), List.mem_append_right _ List.mem_cons_self, hs,
    fun _ x hx => ?_⟩
  rw [Footprint.add_writes, List.append_nil]
  by_cases hown : ∃ w ∈ l.writes, w.shuts = some x
  · exact .inr hown
  · exact .inl (hfound x (openOf_applyAll (fun w hw hshut => hown ⟨w, hw, hshut⟩) hx))

/-- Ending all of what was found that is still open leaves nothing to be ended. -/
theorem Clearing.clear {r : Read} {found : List Secret} (h : Clearing orderly r found l s)
    (h' : Shutting l') (hfound : ∀ x ∈ found, x ∈ (applyAll l.writes s).openOf r →
      ∃ w ∈ l'.writes, w.shuts = some x) : Clearing orderly r [] (l.add l') s := by
  refine ⟨h.1.add h', List.mem_append_left _ h.2.read, h.2.numbered, fun ho x hx => .inr ?_⟩
  have hkept : (∃ w ∈ l.writes, w.shuts = some x) → ∃ w ∈ (l.add l').writes, w.shuts = some x :=
    fun ⟨w, hw, hshut⟩ => ⟨w, List.mem_append_left _ hw, hshut⟩
  by_cases hown : ∃ w ∈ l.writes, w.shuts = some x
  · exact hkept hown
  · have hopen := openOf_applyAll (fun w hw hshut => hown ⟨w, hw, hshut⟩) hx
    obtain ⟨w, hw, hshut⟩ := hfound x ((h.2.shut ho x hx).resolve_right hown) hopen
    exact ⟨w, List.mem_append_right _ hw, hshut⟩

theorem numbered_stable : (discipline orderly).Stable fun _ s => Numbered s :=
  fun _ _ _ hrely h => hrely.guar h

theorem deleteInvites_wp (tenantId : ℕ) (hs : Numbered s) (h : Shutting l) :
    (deleteInvites tenantId).wp (discipline orderly)
      (fun _ => Clearing orderly (.invitesOf tenantId) []) l s := by
  refine Txn.wp_read (shutting_stable.and numbered_stable) ⟨h, hs⟩ fun s ⟨h, hs⟩ => ?_
  refine Txn.wp_stmt (clearing_stable _ _) (h.find hs fun x hx => List.mem_of_mem_filter hx)
    fun _ s' h' _ => ?_
  refine Txn.wp_done (clearing_stable _ _) (h'.clear (shutting_map _ fun _ => rfl) ?_)
  intro x hx hopen
  obtain ⟨i, hi, rfl⟩ := List.mem_map.mp (mem_openOf.mp hopen).1
  refine ⟨.deleteInvite i.id, List.mem_map_of_mem (List.mem_filter.mpr ⟨hi, ?_⟩), rfl⟩
  obtain ⟨i', hi', hid⟩ := List.mem_map.mp hx
  exact decide_eq_true (List.mem_map.mpr ⟨i', hi', Secret.invite.inj hid⟩)

/-- The rows of open links are those that are not used. -/
theorem link_isOpen {s : Store} (hs : Numbered s) {row : OwnerPasswordReset}
    (hrow : row ∈ s.passwordResets) (h : s.isOpen (.link row.id) = true) : row.usedAt = none := by
  obtain ⟨row', hrow', hopen⟩ := List.any_eq_true.mp h
  rw [Bool.and_eq_true, decide_eq_true_eq, decide_eq_true_eq] at hopen
  exact List.inj_on_of_nodup_map hs.link_ids hrow' hrow hopen.1 ▸ hopen.2

theorem closeLinks_wp (ownerId : ℕ) (hs : Numbered s) (h : Shutting l) :
    (closeLinks ownerId [.linksOf ownerId]).wp (discipline orderly)
      (fun _ => Clearing orderly (.linksOf ownerId) []) l s := by
  have hstable : (discipline orderly).Stable fun l s => Shutting l ∧ Numbered s :=
    shutting_stable.and numbered_stable
  refine Txn.wp_clock hstable ⟨h, hs⟩ fun now s h => Txn.wp_read hstable h fun s ⟨h, hs⟩ => ?_
  have hfound : ∀ x ∈ (applyAll l.writes s).openOf (.linksOf ownerId),
      x ∈ ((((applyAll l.writes s).linksOf ownerId).filter (·.usedAt = none)).map (·.id)).map
        Secret.link := by
    intro x hx
    obtain ⟨hx, hopen⟩ := mem_openOf.mp hx
    obtain ⟨row, hrow, rfl⟩ := List.mem_map.mp hx
    have hunused := link_isOpen (hs.applyAll l.writes) (List.mem_of_mem_filter hrow) hopen
    exact List.mem_map_of_mem (List.mem_map_of_mem
      (List.mem_filter.mpr ⟨hrow, decide_eq_true hunused⟩))
  refine Txn.wp_stmt (clearing_stable _ _) (h.find hs hfound) fun _ s' h' _ => ?_
  refine Txn.wp_done (clearing_stable _ _) (h'.clear (shutting_map _ fun _ => rfl) ?_)
  intro x hx hopen
  obtain ⟨id, hid, rfl⟩ := List.mem_map.mp hx
  exact ⟨.close (.link id) now,
    List.mem_map_of_mem (List.mem_filter.mpr ⟨hid, (mem_openOf.mp hopen).2⟩), rfl⟩

theorem regenerateOwnerInvite_wp (operator : OpsPrincipal) (tenantId : ℕ) (reason : String)
    (hs : Numbered s) :
    (regenerateOwnerInvite operator tenantId reason).wp (discipline orderly)
      (fun _ => Ended orderly) .empty s := by
  have hstable : (discipline orderly).Stable fun l s => Shutting l ∧ Numbered s :=
    shutting_stable.and numbered_stable
  refine Txn.wp_clock hstable ⟨shutting_empty, hs⟩ fun now s h => ?_
  refine Txn.wp_query hstable h fun s h => Txn.wp_throwIf fun _ => ?_
  refine Txn.wp_query hstable h fun s h => ?_
  split
  · trivial
  · rename_i existing _
    refine Txn.wp_seq (deleteInvites_wp tenantId h.2 h.1) fun _ l s h => ?_
    refine Txn.wp_stmt (clearing_stable _ _) h fun _ s h _ => ?_
    refine Txn.wp_seq (R := fun _ => Ended orderly)
      (Txn.wp_done ended_stable (h.1.end [] rfl (fun _ hu => nomatch hu) fun r hr => ?_))
      fun token l s h => ?_
    · obtain rfl := Option.some.inj hr
      exact h.2
    · exact Txn.wp_seq (audit_wp h) fun _ l s h => Txn.wp_done ended_stable h

/-- A request for a link ends secrets and begins links, of as many accounts as have the email. -/
theorem forgotPassword_wp (email : String) (s : Store) :
    (forgotPassword email).wp (discipline orderly) (fun _ => Ended orderly) .empty s := by
  have hstable : (discipline orderly).Stable fun l _ =>
      Locked l ∧ ∀ w ∈ l.writes, w.mild = true := fun _ _ _ _ h => h
  have hadd : ∀ (l l' : TxFootprint), (Locked l' ∧ ∀ w ∈ l'.writes, w.mild = true) →
      (Locked l ∧ ∀ w ∈ l.writes, w.mild = true) →
      Locked (l.add l') ∧ ∀ w ∈ (l.add l').writes, w.mild = true := by
    refine fun l l' h' h => ⟨h.1.add h'.1, fun w hw => ?_⟩
    exact (List.mem_append.mp hw).elim (h.2 w) (h'.2 w)
  have hbegun : Locked (.empty : TxFootprint) ∧ ∀ w ∈ (.empty : TxFootprint).writes,
      w.mild = true := ⟨shutting_empty.1, fun w hw => absurd hw List.not_mem_nil⟩
  refine Txn.wp_mono (Q := fun _ l _ => Locked l ∧ ∀ w ∈ l.writes, w.mild = true) ?_
    fun _ _ _ h => ⟨h.1, .inl h.2⟩
  refine Txn.wp_query hstable hbegun fun s h => ?_
  refine Txn.wp_forEach hstable (fun owner _ l s h => ?_) h
  have hclosed : (closeLinks owner.id []).wp (discipline orderly)
      (fun _ l _ => Locked l ∧ ∀ w ∈ l.writes, w.mild = true) l s :=
    (closeLinks_emits owner.id []).wp hstable
      (fun l l' _ h' h => hadd l l' ⟨h'.1, fun w hw => mild_of_shuts (h'.2 w hw)⟩ h) h
  refine Txn.wp_seq hclosed fun _ l s h => ?_
  refine Txn.wp_clock hstable h fun now s h => ?_
  refine Txn.wp_stmt hstable h fun _ s h _ => Txn.wp_done hstable (hadd _ _ ⟨?_, ?_⟩ h)
  · rintro w hw x hx
    obtain rfl := List.mem_singleton.mp hw
    exact nomatch hx
  · rintro w hw
    obtain rfl := List.mem_singleton.mp hw
    rfl

/-- The owner's other links are ended by then. -/
theorem setPassword_wp {ownerId : ℕ} {passwordHash : String} (h : Held orderly u l s)
    (hcleared : Clearing orderly (.linksOf ownerId) [] l s) :
    (setPassword ownerId passwordHash u).wp (discipline orderly) (fun _ => Ended orderly) l s := by
  have hstable : (discipline orderly).Stable fun l s =>
      Held orderly u l s ∧ Clearing orderly (.linksOf ownerId) [] l s :=
    (held_stable u).and (clearing_stable (.linksOf ownerId) [])
  refine Txn.wp_seq (R := fun email => if email.isSome then Ended orderly else fun _ _ => True)
    (Txn.wp_stmt hstable ⟨h, hcleared⟩ fun _ s h _ => ?_) fun email l s h => ?_
  · cases (applyAll l.writes s).ownerUsers.find? (·.id = ownerId) with
    | some owner =>
        refine Txn.wp_done ended_stable (h.1.end _ rfl rfl fun r hr => ?_)
        obtain rfl := Option.some.inj hr
        exact h.2.2
    | none => exact Txn.wp_done (.const True) trivial
  · cases email with
    | some email => exact Txn.wp_done ended_stable h
    | none => trivial

theorem resetPassword_wp (token : ℕ) (passwordHash : String) (hs : Sound orderly s) :
    (resetPassword token passwordHash).wp (discipline orderly) (fun _ => Ended orderly)
      .empty s := by
  refine Txn.wp_seq (Txn.wp_inv hs (present_wp (fun v row hrow hunused => ?_) hs))
    fun r l s ⟨hs, h⟩ => ?_
  · refine List.any_eq_true.mpr ⟨row, List.mem_of_find?_eq_some hrow, ?_⟩
    have hid : row.id = token := by simpa using List.find?_some hrow
    simp [hid, hunused]
  · obtain ⟨reset, u⟩ := r
    have hheld : (closeLinks reset.ownerId [.linksOf reset.ownerId]).wp (discipline orderly)
        (fun _ => Held orderly u) l s :=
      (closeLinks_emits reset.ownerId _).wp (held_stable u) (fun _ _ _ h' h => h.add h') h
    have hcleared : (closeLinks reset.ownerId [.linksOf reset.ownerId]).wp (discipline orderly)
        (fun _ => Clearing orderly (.linksOf reset.ownerId) []) l s :=
      closeLinks_wp reset.ownerId hs.toNumbered h.1
    refine Txn.wp_seq (Txn.wp_and hheld hcleared) fun _ l s ⟨h, hcleared⟩ => ?_
    refine Txn.wp_seq (setPassword_wp h hcleared) fun email l s h => ?_
    exact audit_wp h

theorem Call.wp (call : Call) (hs : Sound orderly s) :
    call.prog.wp (discipline orderly) (fun _ => Ended orderly) .empty s := by
  have hvoid : ∀ {α : Type} {p : Tx α},
      p.wp (discipline orderly) (fun _ => Ended orderly) .empty s →
      p.void.wp (discipline orderly) (fun _ => Ended orderly) .empty s := fun h =>
    Txn.wp_seq h fun _ _ _ h => Txn.wp_done ended_stable h
  cases call with
  | enroll actor dto => exact hvoid (enrollWithActor_wp actor dto hs)
  | acceptInvite token passwordHash => exact hvoid (acceptInvite_wp token passwordHash hs)
  | regenerateOwnerInvite operator tenantId reason =>
      exact hvoid (regenerateOwnerInvite_wp operator tenantId reason hs.toNumbered)
  | forgotPassword email => exact forgotPassword_wp email s
  | resetPassword token passwordHash => exact resetPassword_wp token passwordHash hs

end Along

/-! ### Runs -/

/-- Nobody was let in and nothing was replaced yet, and the rows are numbered. -/
structure Issued (s : Store) : Prop extends Numbered s where
  uses : s.uses = []
  replaced : s.replaced = []

theorem Issued.sound {orderly : Prop} {s : Store} (h : Issued s) : Sound orderly s where
  toNumbered := h.toNumbered
  closed _ hu := absurd (h.uses ▸ hu) List.not_mem_nil
  once := h.uses ▸ List.nodup_nil
  in_time _ hu := absurd (h.uses ▸ hu) List.not_mem_nil
  current _ _ hu := absurd (h.uses ▸ hu) List.not_mem_nil
  dead _ _ hx := absurd (h.replaced ▸ hx) List.not_mem_nil
  used_known _ hu := absurd (h.uses ▸ hu) List.not_mem_nil
  replaced_known _ hx := absurd (h.replaced ▸ hx) List.not_mem_nil

/-- In every run no two commits were let in by one secret, and each was in time; and if no invite
and no link is committed behind the back of a replacement that has already looked for those there
are, nobody was let in by what had been replaced when they read it. -/
theorem secret_used_once {s₀ : Store} (h₀ : Issued s₀)
    {C : System Store Key Read Write ApiError → Event Store Key Read Write ApiError → Prop}
    {S : System Store Key Read Write ApiError} {es : List (Event Store Key Read Write ApiError)}
    (h : Run IsCall C (System.start s₀) es S) :
    (S.store.uses.map (·.secret)).Nodup ∧ (∀ u ∈ S.store.uses, u.now < u.expiresAt) ∧
      ((∀ S e, C S e → replacesAlone S e = true) → ∀ u ∈ S.store.uses, u.replaced = false) := by
  let orderly : Prop := ∀ S e, C S e → replacesAlone S e = true
  have hP : ∀ p, IsCall p → ∀ s, (discipline orderly).inv s →
      p.wp (discipline orderly) (fun _ => (discipline orderly).Commits) .empty s := by
    rintro p ⟨call, rfl⟩ s hs
    exact Txn.wp_mono (Txn.wp_inv hs (call.wp hs)) fun _ _ _ h => ended_commits h.1 h.2
  have hrespects : ∀ (S : System Store Key Read Write ApiError) e, C S e →
      (discipline orderly).Respects S e := by
    intro S e hC
    cases e with
    | commit t =>
        refine fun x hx => ⟨trivial, fun t' x' ht' hx' r hr ho hs => ?_⟩
        have halone := ho S _ hC
        rw [replacesAlone, hx, Option.all_some] at halone
        have hnone := System.readsBeside_iff.mp halone t' x' ht' hx' r hr
        rw [List.all_eq_true] at hnone
        exact ⟨hs.applyAll _, fun y hy => openOf_of_applyAll hs
          (fun w hw => (Bool.not_eq_true' _).mp (hnone w hw)) hy⟩
    | stmt t env => exact fun _ _ _ _ _ => trivial
    | _ => trivial
  have hsound : Sound orderly S.store :=
    (Discipline.sound hP hrespects (.start (Issued.sound h₀)) h).1.inv
  exact ⟨hsound.once, hsound.in_time, hsound.current⟩

/-! A tenant with an invite, and an owner of another who has no link. -/

def sampleTenants : Store where
  tenants := [1, 2]
  enrolmentCodes := []
  devices := []
  ownerInvites := [⟨0, 1, "owner@restiq", "A", "B", 1000000000000, none⟩]
  ownerUsers := [⟨9, 2, "other@restiq", "C", "D", "old", 0⟩]
  passwordResets := []
  checklistProgress := []
  auditEvents := []
  nextInvite := 1
  nextLink := 0
  uses := []
  replaced := []

theorem sampleTenants_issued : Issued sampleTenants where
  uses := rfl
  replaced := rfl
  invites := by decide
  links := by decide
  link_ids := List.nodup_nil

def regenerate : Tx Unit := (Call.regenerateOwnerInvite ⟨1, "ops@restiq"⟩ 1 "Lost mail").prog

def accept (token : ℕ) : Tx Unit := (Call.acceptInvite token "hash").prog

/-- An invite that is replaced after it was read, and two who come with the new one. -/
def acceptNewInvite : List (Event Store Key Read Write ApiError) := List.flatten
  [[.begin (accept 0), .begin regenerate], turns 0 1 0, turns 1 8 1, [.commit 1], turns 0 3 9,
    [.rollback 0, .begin (accept 1), .begin (accept 1)], turns 2 3 12, turns 3 9 15, [.commit 3],
    turns 2 1 24, [.rollback 2]]

theorem secret_used_once_invite : ∃ S,
    Run IsCall (fun S e => replacesAlone S e = true) (System.start sampleTenants)
      acceptNewInvite S ∧
    S.store.uses.map (·.secret) = [.invite 1] ∧ ∀ u ∈ S.store.uses, u.replaced = false := by
  have hplay : ((System.start sampleTenants).playWhen replacesAlone acceptNewInvite).map
      (·.store.uses.map (·.secret)) = some [.invite 1] := by decide
  obtain ⟨S, hS, huses⟩ := Option.map_eq_some_iff.mp hplay
  have hrun : Run IsCall (fun S e => replacesAlone S e = true) (System.start sampleTenants)
      acceptNewInvite S := .of_playWhen hS fun p hp => by
    simp only [acceptNewInvite, List.flatten_cons, List.flatten_nil, List.mem_append,
      List.mem_cons, begin_notMem_turns, Event.begin.injEq, reduceCtorEq, List.not_mem_nil,
      or_false, false_or] at hp
    rcases hp with (rfl | rfl) | rfl | rfl <;> exact ⟨_, rfl⟩
  exact ⟨S, hrun, huses, (secret_used_once sampleTenants_issued hrun).2.2 fun _ _ h => h⟩

/-- Two replacements that have both looked for invites before either has made one. -/
def regenerateTwice : List (Event Store Key Read Write ApiError) := List.flatten
  [[.begin regenerate, .begin regenerate], turns 0 4 0, turns 1 4 4, turns 0 4 8, [.commit 0],
    turns 1 4 12, [.commit 1, .begin (accept 1)], turns 2 9 16, [.commit 2]]

def forgot : Tx Unit := (Call.forgotPassword "other@restiq").prog

def reset (token : ℕ) : Tx Unit := (Call.resetPassword token "new").prog

/-- A link that is committed while a reset by another is on its way, and used after it. -/
def resetAround : List (Event Store Key Read Write ApiError) := List.flatten
  [[.begin forgot, .begin forgot], turns 0 6 0, turns 1 5 6, [.commit 0, .begin (reset 0)],
    turns 2 7 11, turns 1 1 18, [.commit 1], turns 2 3 19, [.commit 2, .begin (reset 1)],
    turns 3 10 22, [.commit 3]]

/-- An owner is let in by an invite that had been replaced, and another by a link that was there
when the password was reset. -/
theorem replaced_yet_used :
    (∃ S, Run IsCall (fun _ _ => True) (System.start sampleTenants) regenerateTwice S ∧
      S.store.uses.map (fun u => (u.secret, u.replaced)) = [(.invite 1, true)]) ∧
    ∃ S, Run IsCall (fun _ _ => True) (System.start sampleTenants) resetAround S ∧
      S.store.uses.map (fun u => (u.secret, u.replaced)) = [(.link 0, false), (.link 1, true)] := by
  constructor
  · have hplay : ((System.start sampleTenants).play regenerateTwice).map
        (·.store.uses.map fun u => (u.secret, u.replaced)) = some [(.invite 1, true)] := by decide
    obtain ⟨S, -, hrun, hresult⟩ := Run.of_play_map (P := IsCall) hplay fun p hp => by
      simp only [regenerateTwice, List.flatten_cons, List.flatten_nil, List.mem_append,
        List.mem_cons, begin_notMem_turns, Event.begin.injEq, reduceCtorEq, List.not_mem_nil,
        or_false, false_or] at hp
      rcases hp with (rfl | rfl) | rfl <;> exact ⟨_, rfl⟩
    exact ⟨S, hrun, hresult⟩
  · have hplay : ((System.start sampleTenants).play resetAround).map
        (·.store.uses.map fun u => (u.secret, u.replaced)) =
          some [(.link 0, false), (.link 1, true)] := by decide
    obtain ⟨S, -, hrun, hresult⟩ := Run.of_play_map (P := IsCall) hplay fun p hp => by
      simp only [resetAround, List.flatten_cons, List.flatten_nil, List.mem_append,
        List.mem_cons, begin_notMem_turns, Event.begin.injEq, reduceCtorEq, List.not_mem_nil,
        or_false, false_or] at hp
      rcases hp with (rfl | rfl) | rfl | rfl <;> exact ⟨_, rfl⟩
    exact ⟨S, hrun, hresult⟩

end RestiqBackend.Secrets
