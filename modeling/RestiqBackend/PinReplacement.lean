import Mathlib.Data.List.Nodup
import RestiqBackend.SignIn

/-!
A replaced or revoked PIN opens nothing, once an outlet selection made with it has run out.

A session token carries the staff member's session version, and whatever replaces or
revokes a PIN advances it, so a token whose version is still the row's was signed for the
PIN the row has. `Vouches` is that fact, and it survives every change of the staff table.
An outlet-selection token carries no version: a selection made after the PIN was replaced
signs the version of the new PIN for whoever typed the old one. A run in which every
selection still finds the PIN it began with does keep the promise.
-/

namespace RestiqBackend.SignIn

open Serial (bind_ok)

variable {Hash : Type} {argon2Verify : Hash → String → Bool} {w w' : World Hash}

/-! ### What an answer tells -/

theorem refuseIf_ok {c : Prop} [Decidable c] {kind : ErrorKind} {code message : String} {u : Unit}
    (h : refuseIf c kind code message = .ok u) : ¬ c := by
  intro hc
  rw [refuseIf, if_pos hc] at h
  cases h

theorem StaffTable.find_mem {t : StaffTable Hash} {id : ℕ} {row : StaffUser Hash}
    (h : t.find id = some row) : row ∈ t.rows ∧ row.id = id :=
  ⟨List.mem_of_find?_eq_some h, by simpa using List.find?_some h⟩

/-- An identifier has one row. -/
theorem StaffTable.eq_of_id {t : StaffTable Hash} {row row' : StaffUser Hash} (h : row ∈ t.rows)
    (h' : row' ∈ t.rows) (hid : row.id = row'.id) : row = row' :=
  List.inj_on_of_nodup_map t.nodup h h' hid

/-- What the guard has made sure of when it lets a request through to a handler. -/
structure LetThrough (w : World Hash) (r : Request) (staff : PosPrincipal) (token : PosToken)
    (row : StaffUser Hash) : Prop where
  presented : r.token = some token
  signed : token ∈ w.signed.map (·.token)
  found : w.staff.find token.sub = some row
  notRevoked : row.pinRevokedAt = none
  version : row.sessionVersion = token.sv
  open_ : ∀ jti ∈ token.jti, ∀ t ∈ w.revokedTokens, t.jti ≠ jti
  till : ∀ d ∈ token.did, ∃ device ∈ w.devices, device.id = d ∧ device.isActive = true
  id : staff.id = token.sub
  token : staff.token = token.jti.map fun jti => ⟨jti, token.exp⟩

theorem sessionStaff_ok {claims : PosTokenClaims} {row : StaffUser Hash}
    (h : w.sessionStaff claims = .ok row) :
    w.staff.find claims.id = some row ∧
      (∀ t ∈ claims.token, ∀ t' ∈ w.revokedTokens, t'.jti ≠ t.jti) ∧
      row.pinRevokedAt = none ∧ row.sessionVersion = claims.sessionVersion := by
  unfold World.sessionStaff at h
  dsimp only at h
  split at h
  · rename_i staff hstaff
    cases h
    obtain ⟨hfound, hrow⟩ := Option.filter_eq_some_iff.mp hstaff
    simp only [Bool.and_eq_true, Bool.not_eq_true', decide_eq_true_eq, Option.isNone_iff_eq_none]
      at hrow
    obtain ⟨⟨⟨hopen, -⟩, hnot⟩, hversion⟩ := hrow
    refine ⟨hfound, fun t ht t' ht' heq => ?_, hnot, hversion⟩
    simp only [Option.mem_def] at ht
    simp only [ht, Option.any_some, List.any_eq_false, decide_eq_true_eq] at hopen
    exact hopen t' ht' heq
  · cases h

theorem canActivate_letThrough {now : ℤ} {r : Request} {staff : PosPrincipal}
    (h : w.canActivate now r = .ok (some staff)) : ∃ token row, LetThrough w r staff token row := by
  unfold World.canActivate at h
  split at h
  · cases h
  split at h
  · cases h
  rename_i claims hclaims
  obtain ⟨token, htoken, hverify⟩ := Option.bind_eq_some_iff.mp hclaims
  simp only [World.verifyPosToken, Option.ite_none_right_eq_some, Option.some.injEq] at hverify
  obtain ⟨⟨hsigned, -⟩, rfl⟩ := hverify
  obtain ⟨_, -, h⟩ := bind_ok h
  obtain ⟨_, -, h⟩ := bind_ok h
  obtain ⟨row, hrow, h⟩ := bind_ok h
  obtain ⟨_, hdevice, h⟩ := bind_ok h
  obtain ⟨_, -, h⟩ := bind_ok h
  obtain ⟨_, -, h⟩ := bind_ok h
  cases h
  obtain ⟨hfound, hopen, hnot, hversion⟩ := sessionStaff_ok hrow
  refine ⟨token, row, htoken, hsigned, hfound, hnot, hversion, fun jti hjti t ht heq => ?_,
    fun d hd => ?_, rfl, rfl⟩
  · obtain rfl := heq
    exact hopen ⟨t.jti, token.exp⟩ (by simpa using hjti) t ht rfl
  · have hdevice := refuseIf_ok hdevice
    simp only [Option.mem_def] at hd
    simp only [World.deviceActive, hd, Option.all_some, Bool.not_eq_false, List.any_eq_true,
      Bool.and_eq_true, decide_eq_true_eq] at hdevice
    obtain ⟨device, hmem, ⟨hid, -⟩, hactive⟩ := hdevice
    exact ⟨device, hmem, hid, hactive⟩

/-! ### Versions -/

/-- A session version of a staff member vouches for a PIN: no row of theirs is behind it,
and one that is still at it has that PIN. -/
def Vouches (argon2Verify : Hash → String → Bool) (w : World Hash) (id sv : ℕ) (pin : String) :
    Prop :=
  ∀ row ∈ w.staff.rows, row.id = id →
    sv ≤ row.sessionVersion ∧ (sv = row.sessionVersion → pinMatches argon2Verify row pin = true)

theorem vouches_of_mem {row : StaffUser Hash} {pin : String} (hrow : row ∈ w.staff.rows)
    (hpin : pinMatches argon2Verify row pin = true) :
    Vouches argon2Verify w row.id row.sessionVersion pin := by
  intro row' hrow' hid
  obtain rfl := StaffTable.eq_of_id hrow' hrow hid
  exact ⟨le_rfl, fun _ => hpin⟩

/-- What a change of the staff table does: a row stays, or its sessions end, or neither its
version nor its PIN changes. -/
def Advances (w w' : World Hash) : Prop :=
  ∀ row' ∈ w'.staff.rows, ∃ row ∈ w.staff.rows, row.id = row'.id ∧
    (row.sessionVersion < row'.sessionVersion ∨
      row.sessionVersion = row'.sessionVersion ∧ row.pinHash = row'.pinHash)

theorem advances_of_eq (h : w'.staff = w.staff) : Advances w w' :=
  fun row hrow => ⟨row, h ▸ hrow, rfl, .inr ⟨rfl, rfl⟩⟩

theorem advances_update {id : ℕ} {f : StaffUser Hash → StaffUser Hash}
    (hf : ∀ row, (f row).id = row.id) (hstaff : w'.staff = w.staff.update id f hf)
    (h : ∀ row, row.sessionVersion < (f row).sessionVersion ∨
      row.sessionVersion = (f row).sessionVersion ∧ row.pinHash = (f row).pinHash) :
    Advances w w' := by
  intro row' hrow'
  rw [hstaff] at hrow'
  obtain ⟨row, hrow, rfl⟩ := List.mem_map.mp hrow'
  refine ⟨row, hrow, ?_, ?_⟩
  · split
    · exact (hf row).symm
    · rfl
  · split
    · exact h row
    · exact .inr ⟨rfl, rfl⟩

theorem Vouches.advance {id sv : ℕ} {pin : String} (h : Vouches argon2Verify w id sv pin)
    (hw : Advances w w') : Vouches argon2Verify w' id sv pin := by
  intro row' hrow' hid
  obtain ⟨row, hrow, hids, hadv⟩ := hw row' hrow'
  obtain ⟨hle, hpin⟩ := h row hrow (hids.trans hid)
  rcases hadv with hlt | ⟨hsv, hhash⟩
  · exact ⟨by omega, fun heq => absurd heq (by omega)⟩
  · refine ⟨by omega, fun heq => ?_⟩
    rw [pinMatches, ← hhash]
    exact hpin (by omega)

/-- A session that was signed out stays out: its identifier is on the list, or every row
has left its version behind. -/
def SignedOut (w : World Hash) (token : PosToken) : Prop :=
  (∃ jti ∈ token.jti, ∃ t ∈ w.revokedTokens, t.jti = jti) ∨
    (token.jti = none ∧
      ∀ row ∈ w.staff.rows, row.id = token.sub → token.sv < row.sessionVersion)

theorem SignedOut.advance {token : PosToken} (h : SignedOut w token) (hw : Advances w w')
    (hrevoked : ∀ t ∈ w.revokedTokens, t ∈ w'.revokedTokens) : SignedOut w' token := by
  rcases h with ⟨jti, hjti, t, ht, heq⟩ | ⟨hnone, hrows⟩
  · exact .inl ⟨jti, hjti, t, hrevoked t ht, heq⟩
  · refine .inr ⟨hnone, fun row' hrow' hid => ?_⟩
    obtain ⟨row, hrow, hids, hadv⟩ := hw row' hrow'
    have := hrows row hrow (hids.trans hid)
    omega

/-! ### The invariant -/

/-- A till that a sign-in is about belongs to an outlet. -/
def Seated (active : Option Device) : Prop := ∀ d ∈ active, d.outletId.isSome = true

/-- What a sign-in under way has made sure of. -/
def Sound (argon2Verify : Hash → String → Bool) (w : World Hash) : Login Hash → Prop
  | .deviceRead _ active => Seated active
  | .pinMatched entry staff active =>
      Seated active ∧ entry.till = active.map (·.id) ∧
        Vouches argon2Verify w staff.id staff.sessionVersion entry.pin
  | .outletChosen entry staff _ deviceId =>
      entry.till = deviceId ∧ Vouches argon2Verify w staff.id staff.sessionVersion entry.pin

structure Kept (argon2Verify : Hash → String → Bool) (w : World Hash) : Prop where
  logins : ∀ l ∈ w.logins, Sound argon2Verify w l
  pending : ∀ x ∈ w.pending, x.entry.till = none
  signed : ∀ x ∈ w.signed, x.token.did = x.entry.till ∧
    Vouches argon2Verify w x.token.sub x.token.sv x.entry.pin
  loggedOut : ∀ t ∈ w.loggedOut, SignedOut w t

theorem Sound.advance {l : Login Hash} (h : Sound argon2Verify w l) (hw : Advances w w') :
    Sound argon2Verify w' l := by
  cases l with
  | deviceRead dto active => exact h
  | pinMatched entry staff active => exact ⟨h.1, h.2.1, h.2.2.advance hw⟩
  | outletChosen entry staff outlet deviceId => exact ⟨h.1, h.2.advance hw⟩

/-- A step that signs nothing and whose new sign-ins are sound. -/
theorem Kept.mono (h : Kept argon2Verify w) (hw : Advances w w')
    (hlogins : ∀ l ∈ w'.logins, l ∈ w.logins ∨ Sound argon2Verify w' l)
    (hpending : ∀ x ∈ w'.pending, x ∈ w.pending ∨ x.entry.till = none)
    (hsigned : w'.signed = w.signed) (hout : ∀ t ∈ w'.loggedOut, t ∈ w.loggedOut ∨ SignedOut w' t)
    (hrevoked : ∀ t ∈ w.revokedTokens, t ∈ w'.revokedTokens) : Kept argon2Verify w' where
  logins l hl := (hlogins l hl).elim (fun hl => (h.logins l hl).advance hw) id
  pending x hx := (hpending x hx).elim (h.pending x) id
  signed x hx := by
    obtain ⟨hdid, hv⟩ := h.signed x (hsigned ▸ hx)
    exact ⟨hdid, hv.advance hw⟩
  loggedOut t ht := (hout t ht).elim (fun ht => (h.loggedOut t ht).advance hw hrevoked) id

/-! ### One event -/

variable (argon2Verify) in
/-- What a run is asked of: an active till that is signed in on belongs to an outlet, and an
outlet is selected while the PIN that was typed is still the staff member's. -/
def inTime (w : World Hash) : Event Hash → Bool
  | .login dto => (w.activeDevice dto).all (·.outletId.isSome)
  | .selectOutlet x _ _ =>
      (w.staff.find x.token.sub).all fun row => pinMatches argon2Verify row x.entry.pin
  | _ => true

theorem matchPin_sound {dto : PosLoginDto} {active : Option Device} {l : Login Hash}
    (h : w.matchPin argon2Verify dto active = .ok l) (hseat : Seated active) :
    Sound argon2Verify w l := by
  unfold World.matchPin at h
  split at h
  · rename_i staff hstaff
    cases h
    have hmem := List.mem_of_find?_eq_some hstaff
    have hpin := List.find?_some hstaff
    simp only [Bool.and_eq_true] at hpin
    exact ⟨hseat, rfl, vouches_of_mem hmem hpin.2⟩
  · cases h

/-- Where an outlet comes from: the till's own, or the only one, without a till. -/
theorem chooseOutlet_sound {now : ℤ} {entry : PinEntry} {staff : StaffUser Hash}
    {active : Option Device} {next : Login Hash ⊕ SignedPending}
    (h : w.chooseOutlet now entry staff active = .ok next)
    (hl : Sound argon2Verify w (.pinMatched entry staff active)) :
    next.elim (Sound argon2Verify w) fun x => x.entry.till = none := by
  obtain ⟨hseat, htill, hv⟩ := hl
  have hnone : (active.bind fun d => d.outletId.map fun outletId => (d.id, outletId)) = none →
      entry.till = none := by
    intro hbind
    cases active with
    | none => exact htill
    | some d =>
        obtain ⟨outletId, hout⟩ := Option.isSome_iff_exists.mp (hseat d rfl)
        simp [hout] at hbind
  unfold World.chooseOutlet at h
  dsimp only at h
  split at h
  · rename_i deviceId outletId hbind
    split at h
    · cases h
      obtain ⟨d, rfl, hd⟩ := Option.bind_eq_some_iff.mp hbind
      obtain ⟨_, -, hd⟩ := Option.map_eq_some_iff.mp hd
      obtain ⟨rfl, -⟩ := Prod.mk.inj hd
      exact ⟨htill, hv⟩
    · cases h
  · rename_i hbind
    split at h
    · cases h
    · cases h
      exact ⟨hnone hbind, hv⟩
    · cases h
      exact hnone hbind

theorem selectOutlet_sound {now : ℤ} {x : SignedPending} {outletId : ℕ} {l : Login Hash}
    (h : w.selectOutlet now x outletId = .ok l) (hpending : ∀ x ∈ w.pending, x.entry.till = none)
    (htime : inTime argon2Verify w (.selectOutlet x outletId now) = true) :
    Sound argon2Verify w l := by
  unfold World.selectOutlet at h
  split at h
  · rename_i hx
    split at h
    · cases h
    · rename_i staff hstaff
      have hfound := (Option.filter_eq_some_iff.mp hstaff).1
      simp only [inTime, hfound, Option.all_some] at htime
      split at h
      · cases h
      · obtain ⟨_, -, h⟩ := bind_ok h
        cases h
        exact ⟨hpending x hx.1, vouches_of_mem (StaffTable.find_mem hfound).1 htime⟩
  · cases h

/-- The owner's changes of a staff member: the rows advance, and nothing else changes. -/
structure StaffChange (w w' : World Hash) : Prop where
  advances : Advances w w'
  logins : w'.logins = w.logins
  pending : w'.pending = w.pending
  signed : w'.signed = w.signed
  revokedTokens : w'.revokedTokens = w.revokedTokens
  loggedOut : w'.loggedOut = w.loggedOut

theorem StaffChange.kept (h : StaffChange w w') (hw : Kept argon2Verify w) :
    Kept argon2Verify w' :=
  hw.mono h.advances (fun _ hl => .inl (h.logins ▸ hl)) (fun _ hx => .inl (h.pending ▸ hx)) h.signed
    (fun _ ht => .inl (h.loggedOut ▸ ht)) fun _ ht => h.revokedTokens ▸ ht

theorem staffChange_update {id : ℕ} {f : StaffUser Hash → StaffUser Hash}
    {hf : ∀ row, (f row).id = row.id}
    (h : ∀ row, row.sessionVersion < (f row).sessionVersion ∨
      row.sessionVersion = (f row).sessionVersion ∧ row.pinHash = (f row).pinHash) :
    StaffChange w { w with staff := w.staff.update id f hf } :=
  ⟨advances_update hf rfl h, rfl, rfl, rfl, rfl, rfl⟩

theorem staffChange_orElse {next : Except ApiError (World Hash)}
    (h : ∀ w', next = .ok w' → StaffChange w w') : StaffChange w (w.orElse next) := by
  cases next with
  | ok w' => exact h w' rfl
  | error e => exact ⟨advances_of_eq rfl, rfl, rfl, rfl, rfl, rfl⟩

theorem issuePin_staffChange {tenantId staffId : ℕ} {pinHash : Hash}
    (h : w.issuePin tenantId staffId pinHash = .ok w') : StaffChange w w' := by
  obtain ⟨_, -, h⟩ := bind_ok h
  cases h
  exact staffChange_update fun row => .inl (Nat.lt_succ_self row.sessionVersion)

theorem revokePin_staffChange {tenantId staffId : ℕ} {now : ℤ}
    (h : w.revokePin tenantId staffId now = .ok w') : StaffChange w w' := by
  obtain ⟨_, -, h⟩ := bind_ok h
  obtain ⟨_, -, h⟩ := bind_ok h
  obtain ⟨_, -, h⟩ := bind_ok h
  cases h
  exact staffChange_update fun row => .inl (Nat.lt_succ_self row.sessionVersion)

theorem updateStaff_staffChange {tenantId staffId : ℕ} {dto : UpdateStaffDto}
    (h : w.updateStaff tenantId staffId dto = .ok w') : StaffChange w w' := by
  obtain ⟨existing, -, h⟩ := bind_ok h
  obtain ⟨_, -, h⟩ := bind_ok h
  obtain ⟨outletIds, -, h⟩ := bind_ok h
  cases h
  refine staffChange_update fun row => ?_
  unfold StaffUser.edit
  dsimp only
  split
  · exact .inl (Nat.lt_succ_self row.sessionVersion)
  · exact .inr ⟨rfl, rfl⟩

/-- Removing a device touches no staff member. -/
theorem revokeDevice_staffChange {owner : Option (ℕ × ℕ)} {deviceId : ℕ} {now : ℤ}
    (h : w.revokeDevice owner deviceId now = .ok w') : StaffChange w w' := by
  unfold World.revokeDevice at h
  split at h
  · cases h
  · obtain ⟨_, -, h⟩ := bind_ok h
    cases h
    exact ⟨advances_of_eq rfl, rfl, rfl, rfl, rfl, rfl⟩

theorem kept_enter {next : Except ApiError (Login Hash)} (hw : Kept argon2Verify w)
    (h : ∀ l, next = .ok l → Sound argon2Verify w l) : Kept argon2Verify (w.enter next) := by
  cases next with
  | error e => exact hw
  | ok l =>
      refine hw.mono (advances_of_eq rfl) (fun l' hl' => ?_) (fun _ hx => .inl hx) rfl
        (fun _ ht => .inl ht) fun _ ht => ht
      rcases List.mem_append.mp hl' with hl' | hl'
      · exact .inl hl'
      · obtain rfl := List.mem_singleton.mp hl'
        exact .inr ((h _ rfl).advance (advances_of_eq rfl))

theorem kept_advance {i : ℕ} {next : Except ApiError (Login Hash)} (hw : Kept argon2Verify w)
    (h : ∀ l, next = .ok l → Sound argon2Verify w l) : Kept argon2Verify (w.advance i next) := by
  cases next with
  | error e =>
      exact hw.mono (advances_of_eq rfl) (fun _ hl => .inl (List.mem_of_mem_eraseIdx hl))
        (fun _ hx => .inl hx) rfl (fun _ ht => .inl ht) fun _ ht => ht
  | ok l =>
      refine hw.mono (advances_of_eq rfl) (fun l' hl' => ?_) (fun _ hx => .inl hx) rfl
        (fun _ ht => .inl ht) fun _ ht => ht
      rcases List.mem_or_eq_of_mem_set hl' with hl' | rfl
      · exact .inl hl'
      · exact .inr ((h _ rfl).advance (advances_of_eq rfl))

/-- Signing out leaves the token signed out, whichever way it is done. -/
theorem kept_logout {r : Request} {staff : PosPrincipal} {token : PosToken}
    {row : StaffUser Hash} (hw : Kept argon2Verify w) (h : LetThrough w r staff token row) :
    Kept argon2Verify (w.logout staff token) := by
  have hid := h.id
  have htoken := h.token
  unfold World.logout
  split
  · rename_i t ht
    obtain ⟨jti, hjti, rfl⟩ := Option.map_eq_some_iff.mp (htoken.symm.trans ht)
    refine hw.mono (advances_of_eq rfl) (fun _ hl => .inl hl) (fun _ hx => .inl hx) rfl
      (fun t ht => ?_) fun t ht => ?_
    · rcases List.mem_cons.mp ht with rfl | ht
      · refine .inr (.inl ⟨jti, hjti, ?_⟩)
        dsimp only
        split
        · rename_i hany
          simpa using hany
        · exact ⟨_, List.mem_append_right _ (List.mem_singleton_self _), rfl⟩
      · exact .inl ht
    · dsimp only
      split
      · exact ht
      · exact List.mem_append_left _ ht
  · rename_i hnone
    have hadv : ∀ row : StaffUser Hash, row.sessionVersion < row.endSessions.sessionVersion :=
      fun row => Nat.lt_succ_self row.sessionVersion
    refine hw.mono (advances_update (f := StaffUser.endSessions) (fun _ => rfl) rfl fun row =>
      .inl (hadv row)) (fun _ hl => .inl hl)
      (fun _ hx => .inl hx) rfl (fun t ht => ?_) fun _ ht => ht
    rcases List.mem_cons.mp ht with rfl | ht
    · refine .inr (.inr ⟨Option.map_eq_none_iff.mp (htoken.symm.trans hnone), fun row' hrow' hid' => ?_⟩)
      obtain ⟨row₀, hrow₀, rfl⟩ := List.mem_map.mp hrow'
      obtain ⟨hrow, hrowId⟩ := StaffTable.find_mem h.found
      by_cases hsame : row₀.id = staff.id
      · rw [if_pos hsame] at hid' ⊢
        obtain rfl := StaffTable.eq_of_id hrow hrow₀ (hrowId.trans (hid.symm.trans hsame.symm))
        exact h.version ▸ hadv row
      · rw [if_neg hsame] at hid'
        exact absurd (hid'.trans hid.symm) hsame
    · exact .inl ht

/-- One event keeps the invariant. -/
theorem Kept.step (hw : Kept argon2Verify w) {e : Event Hash}
    (htime : inTime argon2Verify w e = true) : Kept argon2Verify (w.step argon2Verify e) := by
  cases e with
  | login dto =>
      refine kept_enter hw fun l hl => ?_
      obtain ⟨_, -, hl⟩ := bind_ok hl
      cases hl
      intro d hd
      simp only [Option.mem_def] at hd
      simpa [inTime, hd] using htime
  | matchPin i =>
      dsimp only [World.step]
      split
      · rename_i dto active hi
        exact kept_advance hw fun l hl =>
          matchPin_sound hl (hw.logins _ (List.mem_of_getElem? hi))
      · exact hw
  | chooseOutlet i now =>
      dsimp only [World.step]
      split
      · rename_i entry staff active hi
        have hsound := hw.logins _ (List.mem_of_getElem? hi)
        split
        · rename_i l hnext
          refine kept_advance hw fun l' hl' => ?_
          cases hl'
          exact chooseOutlet_sound hnext hsound
        · rename_i x hnext
          refine hw.mono (advances_of_eq rfl) (fun _ hl => .inl (List.mem_of_mem_eraseIdx hl))
            (fun x' hx' => ?_) rfl (fun _ ht => .inl ht) fun _ ht => ht
          rcases List.mem_cons.mp hx' with rfl | hx'
          · exact .inr (chooseOutlet_sound hnext hsound)
          · exact .inl hx'
        · exact kept_advance hw fun l hl => by cases hl
      · exact hw
  | finalize i now jti =>
      dsimp only [World.step]
      split
      · rename_i entry staff outlet deviceId hi
        obtain ⟨htill, hv⟩ := hw.logins _ (List.mem_of_getElem? hi)
        refine ⟨fun l hl => hw.logins l (List.mem_of_mem_eraseIdx hl), hw.pending, fun x hx => ?_,
          hw.loggedOut⟩
        rcases List.mem_cons.mp hx with rfl | hx
        · exact ⟨htill.symm, hv⟩
        · exact hw.signed x hx
      · exact hw
  | selectOutlet x outletId now =>
      exact kept_enter hw fun l hl => selectOutlet_sound hl hw.pending htime
  | request r now => exact hw
  | logout r now =>
      dsimp only [World.step]
      split
      · rename_i staff token hlet htoken
        obtain ⟨token', row, h⟩ := canActivate_letThrough hlet
        obtain rfl : token = token' := by simpa [htoken] using h.presented
        exact kept_logout hw h
      · exact hw
  | issuePin tenantId staffId pinHash =>
      exact (staffChange_orElse fun _ => issuePin_staffChange).kept hw
  | revokePin tenantId staffId now =>
      exact (staffChange_orElse fun _ => revokePin_staffChange).kept hw
  | updateStaff tenantId staffId dto =>
      exact (staffChange_orElse fun _ => updateStaff_staffChange).kept hw
  | revokeDevice owner deviceId now =>
      exact (staffChange_orElse fun _ => revokeDevice_staffChange).kept hw
  | configure tenants roles outlets =>
      have h : StaffChange w (w.step argon2Verify (.configure tenants roles outlets)) :=
        ⟨advances_of_eq rfl, rfl, rfl, rfl, rfl, rfl⟩
      exact h.kept hw
  | enrolDevice device =>
      have h : StaffChange w (w.step argon2Verify (.enrolDevice device)) :=
        ⟨advances_of_eq rfl, rfl, rfl, rfl, rfl, rfl⟩
      exact h.kept hw

/-! ### What a session opens -/

/-- No sign-in is under way and nothing was signed yet. -/
structure World.AtRest (w : World Hash) : Prop where
  logins : w.logins = []
  pending : w.pending = []
  signed : w.signed = []
  loggedOut : w.loggedOut = []

theorem World.AtRest.kept (h : w.AtRest) : Kept argon2Verify w where
  logins := by simp [h.logins]
  pending := by simp [h.pending]
  signed := by simp [h.signed]
  loggedOut := by simp [h.loggedOut]

variable (argon2Verify) in
/-- What a session must be to open anything: the PIN typed for it is its staff member's
current one, it was not signed out, and the till it was typed on is enrolled. -/
structure Rightful (w : World Hash) (x : Signed) : Prop where
  pin : ∃ row, w.staff.find x.token.sub = some row ∧ pinStatus row = .active ∧
    pinMatches argon2Verify row x.entry.pin = true
  open_ : x.token ∉ w.loggedOut
  till : ∀ d ∈ x.entry.till, ∃ device ∈ w.devices, device.id = d ∧ device.isActive = true

theorem LetThrough.rightful {r : Request} {staff : PosPrincipal} {token : PosToken}
    {row : StaffUser Hash} (h : LetThrough w r staff token row) (hw : Kept argon2Verify w)
    {x : Signed} (hx : x ∈ w.signed) (htoken : x.token = token) : Rightful argon2Verify w x := by
  subst htoken
  obtain ⟨hdid, hv⟩ := hw.signed x hx
  obtain ⟨hrow, hid⟩ := StaffTable.find_mem h.found
  have hpin := (hv row hrow hid).2 h.version.symm
  refine ⟨⟨row, h.found, ?_, hpin⟩, fun hout => ?_, hdid ▸ h.till⟩
  · have hhash : row.pinHash.isNone = false := by
      cases hhash : row.pinHash with
      | none => simp [pinMatches, hhash] at hpin
      | some hash => rfl
    simp [pinStatus, hhash, h.notRevoked]
  · rcases hw.loggedOut _ hout with ⟨jti, hjti, t, ht, heq⟩ | ⟨-, hrows⟩
    · exact h.open_ jti hjti t ht heq
    · exact absurd (hrows row hrow hid) (by rw [h.version]; exact lt_irrefl _)

variable (argon2Verify) in
/-- The sign-in machine. -/
def signIns : World Hash → Event Hash → World Hash → Prop :=
  fun w e w' => w' = w.step argon2Verify e

/-- **A replaced or revoked PIN opens nothing**, in the runs that select outlets in time:
whenever the guard lets a request through, its token was signed for a sign-in, and every
sign-in it was signed for is still a rightful one. -/
theorem replaced_pin_opens_nothing {w₀ w : World Hash} {es : List (Event Hash)}
    (hrest : w₀.AtRest)
    (hrun : Serial.Run (signIns argon2Verify) (fun w e => inTime argon2Verify w e = true) w₀ es w)
    {now : ℤ} {r : Request} {staff : PosPrincipal}
    (hlet : w.canActivate now r = .ok (some staff)) :
    (∃ x ∈ w.signed, r.token = some x.token) ∧
      ∀ x ∈ w.signed, r.token = some x.token → Rightful argon2Verify w x := by
  have hkept : Kept argon2Verify w :=
    hrun.preserves (fun w e w' hw htime hstep => hstep ▸ hw.step htime) hrest.kept
  obtain ⟨token, row, h⟩ := canActivate_letThrough hlet
  refine ⟨?_, fun x hx hpresented => h.rightful hkept hx ?_⟩
  · obtain ⟨x, hx, hxt⟩ := List.mem_map.mp h.signed
    exact ⟨x, hx, hxt ▸ h.presented⟩
  · exact Option.some.inj (hpresented.symm.trans h.presented)

/-- A tenant with two outlets and a manager whose PIN is 1234; a hash is the PIN itself. -/
def sampleWorld : World String where
  tenants := [⟨1, .active, none⟩]
  roles := [⟨1, 1, "Manager", true⟩]
  outlets := [⟨1, 1, "North", none⟩, ⟨2, 1, "South", none⟩]
  devices := [⟨1, 1, some 1, .active, none⟩]
  staff := ⟨[⟨1, 1, 1, "Asha", some "1234", none, [], 0⟩], by simp⟩
  revokedTokens := []
  logins := []
  pending := []
  signed := []
  loggedOut := []

/-- The PIN is typed, and an outlet still has to be selected. -/
def typedPin : List (Event String) := [.login ⟨1, "1234", none⟩, .matchPin 0, .chooseOutlet 0 0]

/-- What the login answers with. -/
def selection : SignedPending := ⟨⟨1, 1, 300⟩, ⟨"1234", none⟩⟩

/-- The outlet is selected a second later. -/
def selected : List (Event String) := [.selectOutlet selection 2 1000, .finalize 0 1000 7]

/-- The session of the staff member with the given version, and a request with it. -/
def session (sv : ℕ) : PosToken := ⟨1, 1, 2, "Asha", sv, none, some 7, 43201⟩

def withToken (token : PosToken) : Request where
  posPath := true
  isPublic := false
  token := some token
  address := none
  outletsReached := []
  policy := some (.permission .refunds)

theorem replaced_pin_opens_nothing_sample :
    let w := (typedPin ++ selected).foldl (World.step (· == ·)) sampleWorld
    (∃ x ∈ w.signed, (withToken (session 0)).token = some x.token) ∧
      ∀ x ∈ w.signed, (withToken (session 0)).token = some x.token → Rightful (· == ·) w x := by
  intro w
  have hlet : w.canActivate 2000 (withToken (session 0)) =
      .ok (some ⟨1, 1, 2, "Asha", "Manager", some ⟨7, 43201⟩⟩) := by rfl
  exact replaced_pin_opens_nothing ⟨rfl, rfl, rfl, rfl⟩ (Serial.Run.of_foldl (by decide)) hlet

/-- The old PIN still opens what the new one should: an outlet is selected after the PIN
was replaced, and the guard lets the session through. -/
theorem replaced_pin_opened :
    ∃ (es : List (Event String)) (w : World String) (x : Signed) (staff : PosPrincipal),
      Serial.Run (signIns (· == ·)) (fun _ _ => True) sampleWorld es w ∧ x ∈ w.signed ∧
        w.canActivate 2000 (withToken x.token) = .ok (some staff) ∧ ¬ Rightful (· == ·) w x := by
  refine ⟨typedPin ++ .issuePin 1 1 "5678" :: selected, _, ⟨session 1, ⟨"1234", none⟩⟩,
    ⟨1, 1, 2, "Asha", "Manager", some ⟨7, 43201⟩⟩, .of_events _ _ _, by decide, by rfl, ?_⟩
  rintro ⟨⟨row, hrow, -, hpin⟩, -, -⟩
  have hnew : row.pinHash = some "5678" := by
    cases hrow
    rfl
  rw [pinMatches, hnew] at hpin
  exact absurd hpin (by decide)

end RestiqBackend.SignIn
