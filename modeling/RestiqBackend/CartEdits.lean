import RestiqBackend.Ledger
import RestiqBackend.Placement
import RestiqBackend.ReadCommitted.InTurn

/-!
Changes to one combo in a cart at the same time (`src/guest/cart/cart.service.ts`).

`updateLine` reads the line, writes the line's new quantity and then scales each pick by the new
quantity over the one it has read. The write takes the lock of the line's row, so that what the
picks are scaled from is read when no other change is under way; the quantity that the line had
is not. Where it is still the committed one when the change is committed, the changes come to the
same as one after another, and a combo keeps how many of each pick it takes.
-/

namespace RestiqBackend.CartEdits

open Catalogue TableCart ReadCommitted
open Serial (check check_ok check_of orElseThrow orElseThrow_ok orElseThrow_of_some)

/-! ### Statements -/

/-- A line that was read, with the quantity it had. -/
structure LineRead where
  lineId : ℕ
  quantity : ℕ
  deriving DecidableEq

inductive CartWrite
  | updateNote (lineId : ℕ) (note : Option String)
  | updateQuantity (lineId quantity : ℕ)
  | deleteModifiers (lineId : ℕ)
  | createModifier (lineId modifierId : ℕ)
  deriving DecidableEq

def CartWrite.onLines : CartWrite → List CartLine → List CartLine
  | .updateNote lineId note => updateCartLine lineId fun l => { l with note }
  | .updateQuantity lineId quantity => updateCartLine lineId fun l => { l with quantity }
  | .deleteModifiers lineId => updateCartLine lineId fun l => { l with modifierIds := [] }
  | .createModifier lineId modifierId =>
      updateCartLine lineId fun l => { l with modifierIds := l.modifierIds ++ [modifierId] }

instance : WriteTo CartWrite World where
  apply x w := { w with cartLines := x.onLines w.cartLines }

abbrev CartTx (α : Type) := Txn World ℕ LineRead CartWrite ApiError α

def answered {α : Type} : Except ApiError α → CartTx α
  | .ok a => pure a
  | .error e => Txn.throw e

def whenAsked {α : Type} (x : Option α) (f : α → CartTx Unit) : CartTx Unit :=
  match x with
  | some a => f a
  | none => pure ()

def lineReads (w : World) (lineId : ℕ) : List LineRead :=
  ((w.cartLines.find? (·.id = lineId)).map fun l => ⟨lineId, l.quantity⟩).toList

/-- Reading a line. What its quantity was is remembered. -/
def readLine (sessionId lineId : ℕ) : CartTx CartLine := do
  let found ← (Txn.stmt (fun _ w =>
    { reads := lineReads w lineId, ret := loadCartLine w sessionId lineId }) .done :
      CartTx (Except ApiError CartLine))
  answered found

/-- An update of a row, which must be there. -/
def updateRow (lineId : ℕ) (x : CartWrite) : CartTx Unit := do
  let found ← Txn.writeWhen (fun w => w.cartLines.any (·.id = lineId)) [lineId] [x]
  if found then pure () else Txn.throw internalError

/-- A pick scales with its combo, by the quantity that the combo's line had when it was read. -/
def rescale (line : CartLine) (quantity : ℕ) (child : CartLine) : CartTx Unit := do
  let scaled ← answered (wholeUnits (perCombo line child * quantity))
  updateRow child.id (.updateQuantity child.id scaled)

def updateQuantity (line : CartLine) (quantity : ℕ) : CartTx Unit := do
  updateRow line.id (.updateQuantity line.id quantity)
  if line.comboId.isSome then do
    let children ← Txn.query fun w => childLines w.cartLines line
    Txn.forEach (rescale line quantity) children
  else pure ()

def updateModifiers (line : CartLine) (modifierIds : List ℕ) : CartTx Unit := do
  let itemId ← answered (orElseThrow internalError line.itemId)
  let item ← Txn.query fun w => loadItemForCartLine w.menu itemId
  let item ← answered item
  answered (assertModifierSelectionValid item modifierIds)
  Txn.exec (fun _ => []) fun _ => [.deleteModifiers line.id]
  Txn.forEach (fun id => Txn.exec (fun _ => []) fun _ => [.createModifier line.id id]) modifierIds

def updateLine (guest : TableCart.GuestPrincipal) (found : Option TableSession) (now : ℤ) (lineId : ℕ)
    (dto : UpdateCartLineDto) : CartTx Unit := do
  let session ← answered (loadActiveSession guest found now)
  let line ← readLine session.id lineId
  answered (assertOwnedByGuest line guest)
  answered (assertNotComboPick line)
  answered (check (¬ (line.comboId.isSome = true ∧ dto.modifierIds.isSome = true))
    ⟨.conflict, "combo_locked", "Remove the combo and add it again to change it"⟩)
  whenAsked dto.note fun note => updateRow lineId (.updateNote lineId note)
  whenAsked dto.quantity (updateQuantity line)
  whenAsked dto.modifierIds (updateModifiers line)
  let view ← Txn.query fun w => buildCartView w guest.outletId now session.id
  let _ ← answered view

/-! ### One change alone -/

/-- A call that sets the quantity of a line. -/
structure Call where
  guest : TableCart.GuestPrincipal
  found : Option TableSession
  now : ℤ
  dto : UpdateCartLineDto
  quantity : ℕ
  asked : dto.quantity = some quantity

def Call.prog (lineId : ℕ) (c : Call) : CartTx Unit :=
  updateLine c.guest c.found c.now lineId c.dto

/-- What the call does to the cart when nothing else happens meanwhile. -/
def Call.Does (lineId : ℕ) (c : Call) (w w' : World) : Prop :=
  ∃ view, TableCart.updateLine w c.guest c.found c.now lineId c.dto = .ok (w', view)

theorem Call.one_le (c : Call) : 1 ≤ c.quantity := c.dto.one_le_quantity c.quantity c.asked

variable {lineId : ℕ} {w w' : World} {line line' : CartLine} {lines : List CartLine}
  {quantity : ℕ}

/-- What a change leaves of a line. -/
def fixed (l : CartLine) : CartLine := { l with quantity := 0, note := none }

def scaled (line : CartLine) (quantity : ℕ) (child : CartLine) : ℕ :=
  (perCombo line child * quantity).num.toNat

theorem wholeUnits_eq {q : ℚ} {n : ℕ} (h : wholeUnits q = .ok n) : n = q.num.toNat := by
  unfold wholeUnits at h
  split at h
  · exact (Except.ok.inj h).symm
  · cases h

/-- A pick as it is scaled. -/
def rescaled (line : CartLine) (quantity : ℕ) (l : CartLine) : CartLine :=
  if l.parentLineId = some line.id then { l with quantity := scaled line quantity l } else l

/-- The picks can all be scaled. -/
def Scales (line : CartLine) (quantity : ℕ) (children : List CartLine) : Prop :=
  ∀ c ∈ children, wholeUnits (perCombo line c * quantity) = .ok (scaled line quantity c)

theorem rescalePick_eq {l : CartLine} (h : Scales line quantity (childLines lines line))
    (hl : l ∈ lines) : rescalePick line quantity l = .ok (rescaled line quantity l) := by
  unfold rescalePick rescaled
  split
  next hparent =>
    have hmem : l ∈ childLines lines line := List.mem_filter.mpr ⟨hl, decide_eq_true hparent⟩
    rw [Serial.bind_of_ok (h l hmem)]
    rfl
  next => rfl

theorem rescalePick_ok {l l' : CartLine} (h : rescalePick line quantity l = .ok l') :
    l' = rescaled line quantity l ∧ (l.parentLineId = some line.id →
      wholeUnits (perCombo line l * quantity) = .ok (scaled line quantity l)) := by
  unfold rescalePick at h
  unfold rescaled
  split at h
  next hparent =>
    obtain ⟨n, hn, h⟩ := Serial.bind_ok h
    cases h
    rw [if_pos hparent, wholeUnits_eq hn]
    exact ⟨rfl, fun _ => hn.trans (congrArg Except.ok (wholeUnits_eq hn))⟩
  next hparent =>
    cases h
    rw [if_neg hparent]
    exact ⟨rfl, fun hp => absurd hp hparent⟩

theorem mapM_rescalePick :
    lines.mapM (rescalePick line quantity) = .ok (lines.map (rescaled line quantity)) ↔
      Scales line quantity (childLines lines line) := by
  constructor
  · intro h c hc
    obtain ⟨hmem, hparent⟩ := List.mem_filter.mp hc
    obtain ⟨c', -, hc'⟩ := Serial.mapM_answer h hmem
    exact (rescalePick_ok hc').2 (of_decide_eq_true hparent)
  · intro h
    refine Serial.mapM_of_forall₂ (List.forall₂_map_right_iff.mpr (List.forall₂_same.mpr ?_))
    exact fun l hl => rescalePick_eq h hl

theorem mapM_rescalePick_ok {lines' : List CartLine}
    (h : lines.mapM (rescalePick line quantity) = .ok lines') :
    lines' = lines.map (rescaled line quantity) := by
  have heq : List.Forall₂ (· = ·) (lines.map (rescaled line quantity)) lines' :=
    List.forall₂_map_left_iff.mpr ((Serial.mapM_ok h).imp fun _ _ hl => (rescalePick_ok hl).1.symm)
  rw [List.forall₂_eq_eq_eq] at heq
  exact heq.symm

/-- The picks one by one come to all of them at once. -/
theorem updates_eq {children : List CartLine} (hkeys : (children.map (·.id)).Nodup)
    (value : CartLine → ℕ) (lines : List CartLine) :
    children.foldl (fun ls c => updateCartLine c.id (fun l => { l with quantity := value c }) ls)
      lines =
    lines.map fun l => match children.find? (·.id = l.id) with
      | some c => { l with quantity := value c }
      | none => l := by
  induction children generalizing lines with
  | nil => simp
  | cons c children ih =>
      obtain ⟨hnot, hkeys⟩ := List.nodup_cons.mp hkeys
      rw [List.foldl_cons, ih hkeys, updateCartLine, List.map_map]
      refine List.map_congr_left fun l _ => ?_
      simp only [Function.comp_apply, List.find?_cons]
      by_cases hid : l.id = c.id
      · have hnone : children.find? (·.id = c.id) = none := by
          refine List.find?_eq_none.mpr fun c' hc' heq => ?_
          exact hnot (List.mem_map.mpr ⟨c', hc', of_decide_eq_true heq⟩)
        rw [if_pos hid, decide_eq_true hid.symm]
        simp only [hid, hnone]
      · rw [if_neg hid, decide_eq_false (Ne.symm hid)]

/-! ### The discipline of the changes -/

/-- The lines are told apart by their identifiers, and the line that is changed is a combo. -/
structure Ready (lineId : ℕ) (w : World) : Prop where
  keys : (w.cartLines.map (·.id)).Nodup
  combo : ∀ l ∈ w.cartLines, l.id = lineId → l.comboId.isSome = true

/-- What was read of a line is still so. -/
def Current (r : LineRead) (w : World) : Prop :=
  (w.cartLines.find? (·.id = r.lineId)).map (·.quantity) = some r.quantity

/-- Nothing but quantities and notes changes, and nothing at all while another holds the lock of
the line. A change is committed while what it has read of the line is still so. -/
def editDiscipline (lineId : ℕ) : Discipline World ℕ LineRead CartWrite where
  inv := Ready lineId
  guar w w' := w'.menu = w.menu ∧ w'.cartLines.map fixed = w.cartLines.map fixed
  keeps k w w' := k = lineId → w' = w
  heeds _ _ _ := True
  admits _ _ _ := True
  lands l w := ∀ r ∈ l.reads, Current r w
  ends _ _ := True
  guar_refl _ := ⟨rfl, rfl⟩
  guar_trans _ _ _ h h' := ⟨h'.1.trans h.1, h'.2.trans h.2⟩
  keeps_refl _ _ _ := rfl
  keeps_trans _ _ _ _ h h' hk := (h' hk).trans (h hk)
  heeds_refl _ _ := trivial
  heeds_trans _ _ _ _ _ _ := trivial

theorem id_of_fixed {l l' : CartLine} (h : fixed l' = fixed l) : l'.id = l.id := by
  have hid := congrArg CartLine.id h
  exact hid

theorem parentLineId_of_fixed {l l' : CartLine} (h : fixed l' = fixed l) :
    l'.parentLineId = l.parentLineId := by
  have hparent := congrArg CartLine.parentLineId h
  exact hparent

theorem map_id_of_fixed {ls ls' : List CartLine} (h : ls'.map fixed = ls.map fixed) :
    ls'.map (·.id) = ls.map (·.id) := by
  have hid : ∀ ls : List CartLine, ls.map (·.id) = (ls.map fixed).map (·.id) := by
    intro ls
    rw [List.map_map]
    rfl
  rw [hid, h, ← hid]

/-- A line and what it has become, by the position they share. -/
theorem find_of_fixed {ls ls' : List CartLine} (h : ls'.map fixed = ls.map fixed) (id : ℕ) :
    (ls'.find? (·.id = id)).map fixed = (ls.find? (·.id = id)).map fixed := by
  have hfind : ∀ ls : List CartLine,
      (ls.find? (·.id = id)).map fixed = (ls.map fixed).find? (·.id = id) := by
    intro ls
    rw [List.find?_map]
    rfl
  rw [hfind, h, ← hfind]

theorem Ready.of_fixed (h : Ready lineId w) (hfixed : w'.cartLines.map fixed = w.cartLines.map fixed) :
    Ready lineId w' := by
  refine ⟨map_id_of_fixed hfixed ▸ h.keys, fun l hl hid => ?_⟩
  have hmem : fixed l ∈ w.cartLines.map fixed := hfixed ▸ List.mem_map_of_mem hl
  obtain ⟨l₀, hl₀, heq⟩ := List.mem_map.mp hmem
  have hid₀ : l₀.id = lineId := (congrArg CartLine.id heq).trans hid
  exact (congrArg (fun l : CartLine => l.comboId.isSome) heq).symm.trans (h.combo l₀ hl₀ hid₀)

/-- The line of an earlier read, as it is now. -/
def Loaded (lineId : ℕ) (line : CartLine) (w : World) : Prop :=
  Ready lineId w ∧ ∃ line', w.cartLines.find? (·.id = lineId) = some line' ∧ fixed line' = fixed line

theorem Loaded.stable (lineId : ℕ) (line : CartLine) :
    (editDiscipline lineId).Stable fun _ w => Loaded lineId line w := by
  rintro l w w' hrely ⟨hready, line', hfind, hfixed⟩
  have hmap := find_of_fixed hrely.guar.2 lineId
  rw [hfind] at hmap
  obtain ⟨line'', hfind', heq⟩ := Option.map_eq_some_iff.mp hmap
  exact ⟨hrely.inv hready, line'', hfind', heq.trans hfixed⟩

/-- Under the lock of the line the cart stands still. -/
theorem stable_locked (lineId : ℕ) (P : Footprint ℕ LineRead CartWrite → World → Prop) :
    (editDiscipline lineId).Stable fun l w => lineId ∈ l.locks ∧ P l w := by
  rintro l w w' hrely ⟨hlock, hP⟩
  rw [hrely.keeps lineId hlock rfl]
  exact ⟨hlock, hP⟩

theorem wp_answered {α β : Type} {x : Except ApiError α} {g : α → CartTx β}
    {Q : β → Footprint ℕ LineRead CartWrite → World → Prop} {l : Footprint ℕ LineRead CartWrite}
    (h : ∀ a, x = .ok a → (g a).wp (editDiscipline lineId) Q l w) :
    (answered x >>= g).wp (editDiscipline lineId) Q l w := by
  cases x with
  | ok a => exact h a rfl
  | error e => trivial

/-- An update of a row: it was there, or the change is given up. -/
theorem wp_updateRow {id : ℕ} {x : CartWrite} {P Q : Footprint ℕ LineRead CartWrite → World → Prop}
    {l : Footprint ℕ LineRead CartWrite} (hP : (editDiscipline lineId).Stable P)
    (hQ : (editDiscipline lineId).Stable Q) (h : P l w)
    (hPQ : ∀ l w, P l w → Q (l.add ⟨[id], [], [x]⟩) w) :
    (updateRow id x).wp (editDiscipline lineId) (fun _ => Q) l w := by
  refine Txn.wp_seq (R := fun found l w => found = true → Q l w)
    (Txn.wp_writeWhen hP (fun _ => .imp _ hQ) h (fun w h _ _ _ => hPQ _ w h)
      fun _ _ _ hfalse => by cases hfalse) ?_
  rintro (_ | _) l w hdone
  · trivial
  · exact Txn.wp_done hQ (hdone rfl)

/-! ### A change among others -/

def noteWrites (lineId : ℕ) (dto : UpdateCartLineDto) : List CartWrite :=
  (dto.note.map fun note => CartWrite.updateNote lineId note).toList

def pickWrites (line : CartLine) (quantity : ℕ) (children : List CartLine) : List CartWrite :=
  children.map fun c => .updateQuantity c.id (scaled line quantity c)

/-- Before the change is written: the line was read, and its note may have been changed. -/
def Noted (lineId : ℕ) (line : CartLine) (ws : List CartWrite)
    (l : Footprint ℕ LineRead CartWrite) (w : World) : Prop :=
  Loaded lineId line w ∧ l.reads = [⟨lineId, line.quantity⟩] ∧ l.writes = ws

theorem Noted.stable (lineId : ℕ) (line : CartLine) (ws : List CartWrite) :
    (editDiscipline lineId).Stable (Noted lineId line ws) :=
  fun l w w' hrely h => ⟨Loaded.stable lineId line l w w' hrely h.1, h.2⟩

/-- After it, with the first of the picks scaled. -/
def Scaled (lineId : ℕ) (line : CartLine) (quantity : ℕ) (ws : List CartWrite)
    (children done : List CartLine) (l : Footprint ℕ LineRead CartWrite) (w : World) : Prop :=
  lineId ∈ l.locks ∧ Noted lineId line (ws ++ pickWrites line quantity done) l w ∧
    children = childLines (applyAll ws w).cartLines line ∧ Scales line quantity done

theorem Scaled.stable (lineId : ℕ) (line : CartLine) (quantity : ℕ) (ws : List CartWrite)
    (children done : List CartLine) :
    (editDiscipline lineId).Stable (Scaled lineId line quantity ws children done) :=
  stable_locked lineId _

/-- Each pick in turn. -/
theorem wp_rescale {ws : List CartWrite} {children : List CartLine} (todo done : List CartLine)
    {l : Footprint ℕ LineRead CartWrite}
    (h : Scaled lineId line quantity ws children done l w) :
    (Txn.forEach (rescale line quantity) todo).wp (editDiscipline lineId)
      (fun _ => Scaled lineId line quantity ws children (done ++ todo)) l w := by
  induction todo generalizing done l w with
  | nil =>
      rw [List.append_nil]
      exact Txn.wp_done (Scaled.stable _ _ _ _ _ _) h
  | cons c todo ih =>
      have hstep : (rescale line quantity c).wp (editDiscipline lineId)
          (fun _ => Scaled lineId line quantity ws children (done ++ [c])) l w := by
        refine wp_answered fun n hn => ?_
        refine wp_updateRow (Scaled.stable _ _ _ _ _ _) (Scaled.stable _ _ _ _ _ _) h ?_
        rintro l w ⟨hlock, ⟨hloaded, hreads, hwrites⟩, hchildren, hscales⟩
        refine ⟨List.mem_append_left _ hlock, ⟨hloaded, ?_, ?_⟩, hchildren, ?_⟩
        · rw [Footprint.add_reads, hreads, List.append_nil]
        · rw [Footprint.add_writes, hwrites, pickWrites, pickWrites, List.map_append,
            List.append_assoc, wholeUnits_eq hn]
          rfl
        · intro c' hc'
          rcases List.mem_append.mp hc' with hc' | hc'
          · exact hscales c' hc'
          · rw [List.mem_singleton.mp hc', hn, wholeUnits_eq hn]
            rfl
      rw [Txn.forEach_cons]
      refine Txn.wp_seq hstep fun _ l w h => ?_
      have hrest := ih (done ++ [c]) h
      rwa [List.append_assoc] at hrest

/-- The quantity of the line and of all its picks. -/
theorem wp_updateQuantity {ws : List CartWrite} {l : Footprint ℕ LineRead CartWrite}
    (hid : line.id = lineId) (hcombo : line.comboId.isSome = true)
    (h : Noted lineId line ws l w) :
    (updateQuantity line quantity).wp (editDiscipline lineId)
      (fun _ l w => ∃ children, Scaled lineId line quantity
        (ws ++ [.updateQuantity lineId quantity]) children children l w) l w := by
  have hwritten : (updateRow line.id (.updateQuantity line.id quantity)).wp (editDiscipline lineId)
      (fun _ l w => lineId ∈ l.locks ∧
        Noted lineId line (ws ++ [.updateQuantity lineId quantity]) l w) l w := by
    rw [hid]
    refine wp_updateRow (Noted.stable _ _ _) (stable_locked _ _) h ?_
    rintro l w ⟨hloaded, hreads, hwrites⟩
    refine ⟨List.mem_append_right _ (List.mem_singleton_self _), hloaded, ?_, ?_⟩
    · rw [Footprint.add_reads, hreads, List.append_nil]
    · rw [Footprint.add_writes, hwrites]
  refine Txn.wp_seq hwritten fun _ l w h => ?_
  rw [if_pos hcombo]
  refine Txn.wp_query (stable_locked lineId _) h fun w h => ?_
  rw [h.2.2.2]
  refine Txn.wp_mono (wp_rescale _ [] ⟨h.1, ?_, rfl, fun _ hc => absurd hc List.not_mem_nil⟩)
    fun _ l w h => ⟨_, h⟩
  simpa [pickWrites] using h.2

/-! ### A change among others does what it does alone -/

theorem eq_of_fixed (hfixed : fixed line' = fixed line) (hquantity : line'.quantity = line.quantity) :
    line' = { line with note := line'.note } := by
  cases line
  cases line'
  simp only [fixed, CartLine.mk.injEq, true_and] at hfixed hquantity ⊢
  tauto

theorem applyAll_menu (ws : List CartWrite) (w : World) : (applyAll ws w).menu = w.menu :=
  applyAll_frame World.menu (fun _ _ _ => rfl) w

theorem applyAll_orders (ws : List CartWrite) (w : World) : (applyAll ws w).orders = w.orders :=
  applyAll_frame World.orders (fun _ _ _ => rfl) w

theorem applyAll_eq (ws : List CartWrite) (w : World) :
    applyAll ws w = { w with cartLines := (applyAll ws w).cartLines } := by
  have hmenu := applyAll_menu ws w
  have horders := applyAll_orders ws w
  cases h : applyAll ws w
  rw [h] at hmenu horders
  cases hmenu
  cases horders
  rfl

/-- The writes of a change to a combo: quantities, and a note. -/
def CartWrite.plain : CartWrite → Bool
  | .updateNote _ _ | .updateQuantity _ _ => true
  | .deleteModifiers _ | .createModifier _ _ => false

theorem map_fixed_update {id : ℕ} {f : CartLine → CartLine} (hf : ∀ l, fixed (f l) = fixed l)
    (ls : List CartLine) : (updateCartLine id f ls).map fixed = ls.map fixed := by
  rw [updateCartLine, List.map_map]
  refine List.map_congr_left fun l _ => ?_
  rw [Function.comp_apply]
  split
  · exact hf l
  · rfl

theorem applyAll_fixed {ws : List CartWrite} (h : ∀ x ∈ ws, x.plain = true) (w : World) :
    (applyAll ws w).cartLines.map fixed = w.cartLines.map fixed := by
  refine applyAll_frame (fun w : World => w.cartLines.map fixed) (fun x hx w => ?_) w
  cases x with
  | updateNote id note =>
      exact map_fixed_update (f := fun l => { l with note }) (fun _ => rfl) w.cartLines
  | updateQuantity id quantity =>
      exact map_fixed_update (f := fun l => { l with quantity }) (fun _ => rfl) w.cartLines
  | deleteModifiers id => cases h _ hx
  | createModifier id modifierId => cases h _ hx

theorem writes_plain (lineId : ℕ) (dto : UpdateCartLineDto) (line : CartLine) (quantity : ℕ)
    (children : List CartLine) :
    ∀ x ∈ (noteWrites lineId dto ++ [.updateQuantity lineId quantity]) ++
      pickWrites line quantity children, x.plain = true := by
  intro x hx
  rcases List.mem_append.mp hx with hx | hx
  · rcases List.mem_append.mp hx with hx | hx
    · obtain ⟨note, -, rfl⟩ := Option.map_eq_some_iff.mp (Option.mem_toList.mp hx)
      rfl
    · rw [List.mem_singleton.mp hx]
      rfl
  · obtain ⟨c, -, rfl⟩ := List.mem_map.mp hx
    rfl

/-- The picks' writes, one by one, scale all of them. -/
theorem pickWrites_cartLines (hkeys : (w.cartLines.map (·.id)).Nodup) :
    (applyAll (pickWrites line quantity (childLines w.cartLines line)) w).cartLines =
      w.cartLines.map (rescaled line quantity) := by
  have hfold : ∀ (children : List CartLine) (w : World),
      (applyAll (pickWrites line quantity children) w).cartLines =
        children.foldl (fun ls c => updateCartLine c.id (fun l =>
          { l with quantity := scaled line quantity c }) ls) w.cartLines := by
    intro children
    induction children with
    | nil => exact fun _ => rfl
    | cons c children ih => exact fun w => ih _
  have hsub : ((childLines w.cartLines line).map (·.id)).Nodup :=
    (List.filter_sublist.map _).nodup hkeys
  rw [hfold, updates_eq hsub]
  refine List.map_congr_left fun l hl => ?_
  unfold rescaled
  by_cases hparent : l.parentLineId = some line.id
  · have hmem : l ∈ childLines w.cartLines line := List.mem_filter.mpr ⟨hl, decide_eq_true hparent⟩
    rw [find?_key hsub hmem, if_pos hparent]
  · have hnone : (childLines w.cartLines line).find? (·.id = l.id) = none := by
      refine List.find?_eq_none.mpr fun c hc heq => hparent ?_
      obtain ⟨hmem, hcparent⟩ := List.mem_filter.mp hc
      rw [← List.inj_on_of_nodup_map hkeys hmem hl (of_decide_eq_true heq)]
      exact of_decide_eq_true hcparent
    rw [hnone, if_neg hparent]

theorem loadCartLine_ok_iff {sessionId : ℕ} : loadCartLine w sessionId lineId = .ok line ↔
    w.cartLines.find? (·.id = lineId) = some line ∧ line.sessionId = sessionId := by
  constructor
  · intro h
    obtain ⟨line', hfind, h⟩ := Serial.bind_ok h
    obtain ⟨_, hsession, h⟩ := Serial.bind_ok h
    cases h
    exact ⟨orElseThrow_ok hfind, check_ok hsession⟩
  · rintro ⟨hfind, hsession⟩
    unfold loadCartLine
    rw [Serial.bind_of_ok (orElseThrow_of_some hfind), Serial.bind_of_ok (check_of hsession)]
    rfl

/-- The change as a whole, on the rows that it was committed to. -/
theorem updateLine_alone {c : Call} {session : TableSession} {view : TableCartView}
    (hready : Ready lineId w) (hsession : loadActiveSession c.guest c.found c.now = .ok session)
    (hfind : w.cartLines.find? (·.id = lineId) = some line') (hfixed : fixed line' = fixed line)
    (hquantity : line'.quantity = line.quantity) (hof : line.sessionId = session.id)
    (howned : assertOwnedByGuest line c.guest = .ok ()) (hpick : assertNotComboPick line = .ok ())
    (hcombo : line.comboId.isSome = true) (hmodifiers : c.dto.modifierIds = none)
    (hid : line.id = lineId) {ws : List CartWrite}
    (hws : ws = noteWrites lineId c.dto ++ [.updateQuantity lineId c.quantity])
    (hscales : Scales line c.quantity (childLines (applyAll ws w).cartLines line))
    {after : World} (hafter : after = applyAll (ws ++ pickWrites line c.quantity
      (childLines (applyAll ws w).cartLines line)) w)
    (hview : buildCartView after c.guest.outletId c.now session.id = .ok view) :
    TableCart.updateLine w c.guest c.found c.now lineId c.dto = .ok (after, view) := by
  -- The line is as it was read, but for its note.
  have hline := eq_of_fixed hfixed hquantity
  have hload : loadCartLine w session.id lineId = .ok line' :=
    loadCartLine_ok_iff.mpr ⟨hfind, by rw [hline]; exact hof⟩
  have howned' : assertOwnedByGuest line' c.guest = .ok () := by rw [hline]; exact howned
  have hpick' : assertNotComboPick line' = .ok () := by rw [hline]; exact hpick
  have hlocked : ¬ (line'.comboId.isSome = true ∧ c.dto.modifierIds.isSome = true) := by
    rw [hmodifiers]
    exact fun h => Bool.false_ne_true h.2
  have hcombo' : line'.comboId.isSome = true := by rw [hline]; exact hcombo
  have hnoted : applyIf (fun note lines =>
      .ok (updateCartLine lineId (fun l => { l with note }) lines)) c.dto.note w.cartLines =
      .ok (applyAll (noteWrites lineId c.dto) w).cartLines := by
    unfold noteWrites
    cases c.dto.note <;> rfl
  have hwritten : (applyAll ws w).cartLines = updateCartLine lineId (fun l =>
      { l with quantity := c.quantity }) (applyAll (noteWrites lineId c.dto) w).cartLines := by
    rw [hws, applyAll_append]
    rfl
  have hkeys : ((applyAll ws w).cartLines.map (·.id)).Nodup := by
    rw [map_id_of_fixed (applyAll_fixed (fun x hx => ?_) w)]
    · exact hready.keys
    · rw [hws] at hx
      exact writes_plain lineId c.dto line c.quantity [] x (List.mem_append_left _ hx)
  have hrescaled : applyIf (TableCart.updateQuantity line') c.dto.quantity
      (applyAll (noteWrites lineId c.dto) w).cartLines = .ok after.cartLines := by
    rw [c.asked, applyIf, TableCart.updateQuantity, if_pos hcombo', hafter, applyAll_append,
      pickWrites_cartLines hkeys]
    have hsame : rescalePick line' c.quantity = rescalePick line c.quantity := by
      rw [hline]
      rfl
    have hid' : line'.id = lineId := by rw [hline]; exact hid
    rw [hsame, hid', ← hwritten]
    exact mapM_rescalePick.mpr hscales
  unfold TableCart.updateLine
  rw [Serial.bind_of_ok hsession, Serial.bind_of_ok hload, Serial.bind_of_ok howned',
    Serial.bind_of_ok hpick', Serial.bind_of_ok (check_of hlocked), Serial.bind_of_ok hnoted,
    Serial.bind_of_ok hrescaled, hmodifiers, applyIf, Serial.bind_of_ok rfl]
  have hworld : ({ w with cartLines := after.cartLines } : World) = after := by
    rw [hafter]
    exact (applyAll_eq _ w).symm
  simp only [hworld]
  rw [Serial.bind_of_ok hview]
  rfl

/-- What a change has made sure of when it is about to be committed. -/
theorem does_of_scaled {c : Call} {session : TableSession} {view : TableCartView}
    {children : List CartLine} {l : Footprint ℕ LineRead CartWrite}
    (hsession : loadActiveSession c.guest c.found c.now = .ok session)
    (hof : line.sessionId = session.id) (howned : assertOwnedByGuest line c.guest = .ok ())
    (hpick : assertNotComboPick line = .ok ()) (hcombo : line.comboId.isSome = true)
    (hmodifiers : c.dto.modifierIds = none) (hid : line.id = lineId)
    (h : Scaled lineId line c.quantity
      (noteWrites lineId c.dto ++ [.updateQuantity lineId c.quantity]) children children l w)
    (hview : buildCartView (applyAll l.writes w) c.guest.outletId c.now session.id = .ok view) :
    Does (editDiscipline lineId) (Call.Does lineId) c l w := by
  obtain ⟨hlock, ⟨⟨hready, line', hfind, hfixed⟩, hreads, hwrites⟩, rfl, hscales⟩ := h
  have hplain : ∀ x ∈ l.writes, x.plain = true := by
    rw [hwrites]
    exact writes_plain _ _ _ _ _
  refine ⟨fun _ => ⟨hready.of_fixed (applyAll_fixed hplain w),
    ⟨applyAll_menu _ w, applyAll_fixed hplain w⟩, fun k hk heq => absurd (heq ▸ hlock) hk,
    trivial⟩, fun hlands => ⟨view, ?_⟩⟩
  have hcurrent : Current ⟨lineId, line.quantity⟩ w :=
    hlands _ (by rw [hreads]; exact List.mem_singleton_self _)
  have hquantity : line'.quantity = line.quantity := by
    unfold Current at hcurrent
    rw [hfind] at hcurrent
    exact Option.some.inj hcurrent
  exact updateLine_alone hready hsession hfind hfixed hquantity hof howned hpick hcombo hmodifiers
    hid rfl hscales (by rw [hwrites]) hview

/-- **One change.** Whatever is committed between its statements, a change that is committed does
what it does alone, where the quantity that it has read is the committed one. -/
theorem Call.wp (c : Call) (h : Ready lineId w) :
    (c.prog lineId).wp (editDiscipline lineId)
      (fun _ => ReadCommitted.Does (editDiscipline lineId) (Call.Does lineId) c) .empty w := by
  unfold Call.prog updateLine
  refine wp_answered fun session hsession => ?_
  -- reading the line
  have hread : (readLine session.id lineId).wp (editDiscipline lineId) (fun line l w =>
      (line.id = lineId ∧ line.sessionId = session.id ∧ line.comboId.isSome = true) ∧
        Noted lineId line [] l w) .empty w := by
    refine Txn.wp_bind (Txn.wp_stmt (P := fun l w => l = .empty ∧ Ready lineId w)
      (fun l w w' hr h => ⟨h.1, hr.inv h.2⟩) ⟨rfl, h⟩ ?_)
    rintro env w ⟨hl, hready⟩ -
    change ∀ w', _ → (answered (loadCartLine w session.id lineId)).wp _ _ _ w'
    intro w' hrely
    cases hload : loadCartLine w session.id lineId with
    | error e => trivial
    | ok line =>
        obtain ⟨hfind, hof⟩ := loadCartLine_ok_iff.mp hload
        have hid : line.id = lineId := by simpa using List.find?_some hfind
        have hnoted : Noted lineId line [] ⟨[], lineReads w lineId, []⟩ w :=
          ⟨⟨hready, line, hfind, rfl⟩, by rw [lineReads, hfind]; rfl, rfl⟩
        refine Txn.wp_done (fun l w w' hr h => ⟨h.1, Noted.stable _ _ _ l w w' hr h.2⟩) ?_
        exact ⟨⟨hid, hof, hready.combo line (List.mem_of_find?_eq_some hfind) hid⟩,
          Noted.stable _ _ _ _ _ _ hrely hnoted⟩
  refine Txn.wp_seq hread ?_
  rintro line l w ⟨⟨hid, hof, hcombo⟩, hnoted⟩
  refine wp_answered fun _ howned => wp_answered fun _ hpick => wp_answered fun _ hlocked => ?_
  have hmodifiers : c.dto.modifierIds = none := by
    have hnot := check_ok hlocked
    cases hm : c.dto.modifierIds with
    | none => rfl
    | some ids => exact absurd ⟨hcombo, by rw [hm]; rfl⟩ hnot
  -- the note
  have hnote : (whenAsked c.dto.note fun note => updateRow lineId (.updateNote lineId note)).wp
      (editDiscipline lineId) (fun _ => Noted lineId line (noteWrites lineId c.dto)) l w := by
    unfold noteWrites
    cases c.dto.note with
    | none => exact Txn.wp_done (Noted.stable _ _ _) hnoted
    | some note =>
        refine wp_updateRow (Noted.stable _ _ _) (Noted.stable _ _ _) hnoted ?_
        rintro l w ⟨hloaded, hreads, hwrites⟩
        refine ⟨hloaded, ?_, ?_⟩
        · rw [Footprint.add_reads, hreads, List.append_nil]
        · rw [Footprint.add_writes, hwrites]
          rfl
  refine Txn.wp_seq hnote fun _ l w hnoted => ?_
  rw [c.asked, hmodifiers]
  refine Txn.wp_seq (wp_updateQuantity hid hcombo hnoted) ?_
  rintro _ l w ⟨children, hscaled⟩
  -- the cart that is answered
  refine Txn.wp_query (Scaled.stable _ _ _ _ _ _) hscaled fun w hscaled => ?_
  refine wp_answered fun view hview => ?_
  intro w' hrely
  rw [hrely.keeps lineId hscaled.1 rfl]
  exact does_of_scaled hsession hof howned hpick hcombo hmodifiers hid hscaled hview

/-! ### What a combo takes of each pick -/

/-- The picks of a line with how many of each one combo takes. -/
def picks (lines : List CartLine) (line : CartLine) : List (ℚ × CartLine) :=
  (childLines lines line).map fun c => (perCombo line c, fixed c)

/-- The line of a combo is the same one, and takes as many of each pick. -/
def KeepsPicks (lineId : ℕ) (w w' : World) : Prop :=
  ∀ line, w.cartLines.find? (·.id = lineId) = some line →
    ∃ line', w'.cartLines.find? (·.id = lineId) = some line' ∧ fixed line' = fixed line ∧
      picks w'.cartLines line' = picks w.cartLines line

theorem KeepsPicks.refl (lineId : ℕ) (w : World) : KeepsPicks lineId w w :=
  fun line hline => ⟨line, hline, rfl, rfl⟩

theorem KeepsPicks.trans {w'' : World} (h : KeepsPicks lineId w w') (h' : KeepsPicks lineId w' w'') :
    KeepsPicks lineId w w'' := by
  intro line hline
  obtain ⟨line', hline', hfixed, hpicks⟩ := h line hline
  obtain ⟨line'', hline'', hfixed', hpicks'⟩ := h' line' hline'
  exact ⟨line'', hline'', hfixed'.trans hfixed, hpicks'.trans hpicks⟩

/-- A line after the change. -/
def changed (line : CartLine) (c : Call) (l : CartLine) : CartLine :=
  let l := if l.id = line.id then { l with note := c.dto.note.getD l.note } else l
  let l := if l.id = line.id then { l with quantity := c.quantity } else l
  rescaled line c.quantity l

theorem changed_fixed (line : CartLine) (c : Call) (l : CartLine) :
    fixed (changed line c l) = fixed l := by
  unfold changed rescaled
  dsimp only
  split_ifs <;> rfl

/-- What a change does alone, line by line. -/
theorem Call.Does.cartLines {c : Call} (hready : Ready lineId w) (h : c.Does lineId w w') :
    ∃ line, w.cartLines.find? (·.id = lineId) = some line ∧ line.id = lineId ∧
      line.parentLineId = none ∧ w'.cartLines = w.cartLines.map (changed line c) ∧
      ∀ l ∈ w.cartLines, l.parentLineId = some lineId →
        wholeUnits (perCombo line l * c.quantity) = .ok (scaled line c.quantity l) := by
  obtain ⟨view, h⟩ := h
  obtain ⟨session, -, h⟩ := Serial.bind_ok h
  obtain ⟨line, hload, h⟩ := Serial.bind_ok h
  obtain ⟨_, -, h⟩ := Serial.bind_ok h
  obtain ⟨_, hpick, h⟩ := Serial.bind_ok h
  obtain ⟨_, hlocked, h⟩ := Serial.bind_ok h
  obtain ⟨noted, hnoted, h⟩ := Serial.bind_ok h
  obtain ⟨updated, hupdated, h⟩ := Serial.bind_ok h
  obtain ⟨modified, hmodified, h⟩ := Serial.bind_ok h
  obtain ⟨_, -, h⟩ := Serial.bind_ok h
  cases h
  obtain ⟨hfind, -⟩ := loadCartLine_ok_iff.mp hload
  have hid : line.id = lineId := by simpa using List.find?_some hfind
  have hmem := List.mem_of_find?_eq_some hfind
  have hparent : line.parentLineId = none := check_ok hpick
  have hcombo := hready.combo line hmem hid
  have hmodifiers : c.dto.modifierIds = none := by
    cases hm : c.dto.modifierIds with
    | none => rfl
    | some ids => exact absurd ⟨hcombo, by rw [hm]; rfl⟩ (check_ok hlocked)
  have hnoted' : noted = w.cartLines.map fun l =>
      if l.id = line.id then { l with note := c.dto.note.getD l.note } else l := by
    rw [hid]
    cases hnote : c.dto.note with
    | none =>
        rw [hnote] at hnoted
        cases hnoted
        simp
    | some note =>
        rw [hnote] at hnoted
        cases hnoted
        rfl
  rw [c.asked, applyIf, TableCart.updateQuantity, if_pos hcombo] at hupdated
  rw [hmodifiers] at hmodified
  cases hmodified
  have hscales := mapM_rescalePick.mp (mapM_rescalePick_ok hupdated ▸ hupdated)
  refine ⟨line, hfind, hid, hparent, ?_, fun l hl hchild => ?_⟩
  · rw [mapM_rescalePick_ok hupdated, updateCartLine, hnoted', List.map_map, List.map_map]
    rfl
  · -- the row of a pick is not the line's own
    have hne : l.id ≠ line.id := by
      intro heq
      rw [List.inj_on_of_nodup_map hready.keys hl hmem heq, hparent] at hchild
      cases hchild
    have hkept : l ∈ updateCartLine line.id (fun l => { l with quantity := c.quantity }) noted := by
      rw [hnoted', updateCartLine, List.map_map]
      refine List.mem_map.mpr ⟨l, hl, ?_⟩
      simp only [Function.comp_apply, if_neg hne]
    refine hscales l (List.mem_filter.mpr ⟨hkept, decide_eq_true ?_⟩)
    rw [hchild, hid]

theorem Call.Does.keepsPicks {c : Call} (hready : Ready lineId w) (h : c.Does lineId w w') :
    KeepsPicks lineId w w' := by
  obtain ⟨line, hfind, hid, hparent, hlines, hscales⟩ := h.cartLines hready
  have hmem := List.mem_of_find?_eq_some hfind
  have hfixed : w'.cartLines.map fixed = w.cartLines.map fixed := by
    rw [hlines, List.map_map]
    exact List.map_congr_left fun l _ => changed_fixed line c l
  intro line₀ hline₀
  rw [hfind, Option.some_inj] at hline₀
  subst hline₀
  have hfind' : w'.cartLines.find? (·.id = lineId) = some (changed line c line) := by
    rw [hlines, List.find?_map]
    have hsame : ((fun l : CartLine => decide (l.id = lineId)) ∘ changed line c) =
        fun l => decide (l.id = lineId) := by
      funext l
      rw [Function.comp_apply, id_of_fixed (changed_fixed line c l)]
    rw [hsame, hfind]
    rfl
  refine ⟨changed line c line, hfind', changed_fixed line c line, ?_⟩
  have hquantity : (changed line c line).quantity = c.quantity := by
    simp [changed, rescaled, hparent]
  have hchildren : childLines w'.cartLines (changed line c line) =
      (childLines w.cartLines line).map (changed line c) := by
    rw [childLines, hlines, List.filter_map, childLines, id_of_fixed (changed_fixed line c line)]
    congr 1
    refine List.filter_congr fun l _ => ?_
    rw [Function.comp_apply, parentLineId_of_fixed (changed_fixed line c l)]
  rw [picks, hchildren, List.map_map, picks]
  refine List.map_congr_left fun l hl => ?_
  obtain ⟨hl, hchild⟩ := List.mem_filter.mp hl
  have hchild := of_decide_eq_true hchild
  have hne : l.id ≠ line.id := by
    intro heq
    rw [List.inj_on_of_nodup_map hready.keys hl hmem heq, hparent] at hchild
    cases hchild
  have hscaled : (changed line c l).quantity = scaled line c.quantity l := by
    simp [changed, rescaled, hne, hchild]
  rw [Function.comp_apply, Prod.mk.injEq]
  refine ⟨?_, changed_fixed line c l⟩
  have hcount := wholeUnits_ok (hscales l hl (hid ▸ hchild))
  have hpos : (c.quantity : ℚ) ≠ 0 := Nat.cast_ne_zero.mpr (Nat.one_le_iff_ne_zero.mp c.one_le)
  rw [perCombo, hquantity, hscaled, hcount, mul_div_cancel_right₀ _ hpos]

theorem Call.Does.fixed_lines {c : Call} (hready : Ready lineId w) (h : c.Does lineId w w') :
    w'.menu = w.menu ∧ w'.cartLines.map fixed = w.cartLines.map fixed := by
  constructor
  · obtain ⟨view, h⟩ := h
    obtain ⟨_, -, h⟩ := Serial.bind_ok h
    obtain ⟨_, -, h⟩ := Serial.bind_ok h
    obtain ⟨_, -, h⟩ := Serial.bind_ok h
    obtain ⟨_, -, h⟩ := Serial.bind_ok h
    obtain ⟨_, -, h⟩ := Serial.bind_ok h
    obtain ⟨_, -, h⟩ := Serial.bind_ok h
    obtain ⟨_, -, h⟩ := Serial.bind_ok h
    obtain ⟨_, -, h⟩ := Serial.bind_ok h
    obtain ⟨_, -, h⟩ := Serial.bind_ok h
    cases h
    rfl
  · obtain ⟨line, -, -, -, hlines, -⟩ := h.cartLines hready
    rw [hlines, List.map_map]
    exact List.map_congr_left fun l _ => changed_fixed line c l

/-- Changes one after another keep what a combo takes. -/
theorem InTurn.keepsPicks {cs : List Call} (hready : Ready lineId w)
    (h : InTurn (Call.Does lineId) w cs w') : w'.menu = w.menu ∧ KeepsPicks lineId w w' := by
  refine (InTurn.preserves (I := fun w' => Ready lineId w' ∧ w'.menu = w.menu ∧
    KeepsPicks lineId w w') ?_ h ⟨hready, rfl, .refl _ _⟩).2
  rintro c w₁ w₂ hdoes ⟨hready, hmenu, hkeeps⟩
  obtain ⟨hmenu', hlines⟩ := hdoes.fixed_lines hready
  exact ⟨hready.of_fixed hlines, hmenu'.trans hmenu, hkeeps.trans (hdoes.keepsPicks hready)⟩

/-- What a combo is asked for again by when it is placed. -/
theorem KeepsPicks.selections (h : KeepsPicks lineId w w')
    (hline : w.cartLines.find? (·.id = lineId) = some line)
    (hline' : w'.cartLines.find? (·.id = lineId) = some line') (outletId : ℕ) (now : ℤ)
    (ctx : PlacementContext) (ids : ℕ → ℕ) :
    (w'.placing outletId now ctx ids).selections line' =
      (w.placing outletId now ctx ids).selections line := by
  have hpicks : ∀ (w : World) (line : CartLine),
      (w.placing outletId now ctx ids).selections line = (picks w.cartLines line).map fun q =>
        ⟨q.2.comboOptionId.getD 0, some q.1, some q.2.modifierIds⟩ := by
    intro w line
    rw [picks, List.map_map]
    rfl
  obtain ⟨line'', hline'', -, heq⟩ := h line hline
  rw [hline', Option.some_inj] at hline''
  subst hline''
  rw [hpicks, hpicks, heq]

/-- What one of a combo is shown to hold and to cost. -/
def shownAs (w : World) (line : CartLine) (comboId : ℕ) :
    Except ApiError (List (ℚ × Option ℕ) × ℚ) :=
  (toComboCartLineView w.menu w.cartLines line comboId).map fun v =>
    (v.1.components, v.1.unitPriceMinor)

theorem KeepsPicks.shownAs (h : KeepsPicks lineId w w') (hmenu : w'.menu = w.menu)
    (hline : w.cartLines.find? (·.id = lineId) = some line)
    (hline' : w'.cartLines.find? (·.id = lineId) = some line') (comboId : ℕ) :
    shownAs w' line' comboId = shownAs w line comboId := by
  have hpicks : ∀ (w : World) (line : CartLine), CartEdits.shownAs w line comboId =
      (orElseThrow internalError (w.menu.combo comboId)).map fun combo =>
        let ps := picks w.cartLines line
        (ps.map fun q => (q.1, q.2.itemId), combo.priceMinor + (ps.map fun q =>
          q.1 * (upchargeOf w.menu q.2.comboOptionId +
            modifiersTotal w.menu q.2.modifierIds : ℚ)).sum) := by
    intro w line
    unfold CartEdits.shownAs toComboCartLineView
    cases w.menu.combo comboId with
    | none => rfl
    | some combo =>
        simp only [picks, List.map_map]
        rfl
  obtain ⟨line'', hline'', -, heq⟩ := h line hline
  rw [hline', Option.some_inj] at hline''
  subst hline''
  rw [hpicks, hpicks, heq, hmenu]

/-! ### Runs -/

instance (r : LineRead) (w : World) : Decidable (Current r w) :=
  inferInstanceAs (Decidable (_ = _))

/-- A change is committed while the quantity that it has read of the line is the committed one. -/
def readsCurrent (S : System World ℕ LineRead CartWrite ApiError) :
    Event World ℕ LineRead CartWrite ApiError → Bool
  | .commit t => (S.session t).all fun x => x.done.reads.all fun r => Current r S.store
  | _ => true

/-- Changes to the quantity of one combo, by any of its guest's devices. -/
def IsChange (lineId : ℕ) (p : CartTx Unit) : Prop := ∃ c : Call, p = c.prog lineId

theorem respects_of_readsCurrent {S : System World ℕ LineRead CartWrite ApiError}
    {e : Event World ℕ LineRead CartWrite ApiError} (h : readsCurrent S e = true) :
    (editDiscipline lineId).Respects S e := by
  cases e with
  | commit t =>
      refine fun x hx => ⟨fun r hr => ?_, fun _ _ _ _ _ _ => trivial⟩
      rw [readsCurrent, hx, Option.all_some, List.all_eq_true] at h
      exact of_decide_eq_true (h r hr)
  | stmt t env => exact fun _ _ _ _ _ => trivial
  | _ => trivial

/-- **The changes to a combo come to the same as one after another**, where each is committed while
the quantity that it has read of the line is the committed one. The combo then takes as many of
each pick as before, and is placed and priced as it was chosen. -/
theorem edits_in_turn (hready : Ready lineId w)
    {S : System World ℕ LineRead CartWrite ApiError}
    {es : List (Event World ℕ LineRead CartWrite ApiError)}
    (h : Run (IsChange lineId) (fun S e => readsCurrent S e = true) (System.start w) es S) :
    (∃ cs, InTurn (Call.Does lineId) w cs S.store ∧ Committed (Call.prog lineId) es cs) ∧
      ∀ line, w.cartLines.find? (·.id = lineId) = some line →
        ∃ line', S.store.cartLines.find? (·.id = lineId) = some line' ∧
          picks S.store.cartLines line' = picks w.cartLines line ∧
          (∀ outletId now ctx ids, (S.store.placing outletId now ctx ids).selections line' =
            (w.placing outletId now ctx ids).selections line) ∧
          ∀ comboId, shownAs S.store line' comboId = shownAs w line comboId := by
  have htraces : Traces (editDiscipline lineId) (Call.prog lineId) (Call.Does lineId) w es S :=
    (h.mono fun _ _ => respects_of_readsCurrent).inTurn (fun c _ hready => c.wp hready) hready
  obtain ⟨cs, hserial, hcommitted⟩ := htraces.serial
  refine ⟨⟨cs, hserial, hcommitted⟩, fun line hline => ?_⟩
  obtain ⟨hmenu, hkeeps⟩ := InTurn.keepsPicks hready hserial
  obtain ⟨line', hline', -, hpicks⟩ := hkeeps line hline
  exact ⟨line', hline', hpicks, hkeeps.selections hline hline', hkeeps.shownAs hmenu hline hline'⟩

/-! A meal of a dosa and a vada, one of each, with a guest who asks for two of it. -/

def tiffinMenu : Menu :=
  { outletIds := [1], items := [], modifiers := [], itemPrices := [], itemOutletOverrides := []
    combos := [⟨1, "Tiffin", 150, "INR", true, none,
      [⟨1, "Main", 1, [⟨1, 1, none, 0⟩], Nat.one_pos⟩, ⟨2, "Side", 1, [⟨2, 2, none, 10⟩], Nat.one_pos⟩]⟩] }

def tiffinCart : World :=
  { menu := tiffinMenu, orders := []
    cartLines := [⟨1, 1, 5, "Asha", none, none, some 1, none, none, 1, none, []⟩,
      ⟨2, 1, 5, "Asha", some 1, none, none, some 1, some 1, 1, none, []⟩,
      ⟨3, 1, 5, "Asha", some 2, none, none, some 1, some 2, 1, none, []⟩] }

theorem tiffinCart_ready : Ready 1 tiffinCart := ⟨by decide, by decide⟩

def askFor (quantity : ℕ) (h : 1 ≤ quantity) : Call where
  guest := ⟨5, "Asha", 1, 1⟩
  found := some ⟨1, .open, some 1, 1000⟩
  now := 0
  dto := ⟨none, some quantity, none, fun _ hq => (Option.some_inj.mp hq) ▸ h,
    fun _ hids => absurd hids (Option.not_mem_none _)⟩
  quantity
  asked := rfl

def askForTwo : Call := askFor 2 Nat.two_pos

theorem askForThree_pos : 1 ≤ 3 := by decide

def askForThree : Call := askFor 3 askForThree_pos

/-- One change and then another, the second of which waits with its reading. -/
def oneThenAnother : List (Event World ℕ LineRead CartWrite ApiError) := List.flatten
  [[.begin (askForTwo.prog 1), .begin (askForThree.prog 1)], turns 0 6 0, [.commit 0],
    turns 1 6 6, [.commit 1]]

theorem edits_in_turn_sample : ∃ S,
    Run (IsChange 1) (fun S e => readsCurrent S e = true) (System.start tiffinCart)
      oneThenAnother S ∧ S.store.cartLines.map (·.quantity) = [3, 3, 3] ∧
    ∃ cs, InTurn (Call.Does 1) tiffinCart cs S.store ∧
      Committed (Call.prog 1) oneThenAnother cs := by
  have hplay : ((System.start tiffinCart).playWhen readsCurrent oneThenAnother).map
      (·.store.cartLines.map (·.quantity)) = some [3, 3, 3] := by decide +kernel
  obtain ⟨S, hS, hquantities⟩ := Option.map_eq_some_iff.mp hplay
  have hrun : Run (IsChange 1) (fun S e => readsCurrent S e = true) (System.start tiffinCart)
      oneThenAnother S := .of_playWhen hS fun p hp => by
    simp only [oneThenAnother, List.flatten_cons, List.flatten_nil, List.mem_append,
      List.mem_cons, begin_notMem_turns, Event.begin.injEq, reduceCtorEq, List.not_mem_nil,
      or_false] at hp
    rcases hp with rfl | rfl <;> exact ⟨_, rfl⟩
  exact ⟨S, hrun, hquantities, (edits_in_turn tiffinCart_ready hrun).1⟩

/-- Two taps that have both read one meal before either has asked for two. -/
def doubleTap : List (Event World ℕ LineRead CartWrite ApiError) := List.flatten
  [[.begin (askForTwo.prog 1), .begin (askForTwo.prog 1)], turns 0 1 0, turns 1 1 1, turns 0 5 2,
    [.commit 0], turns 1 5 7, [.commit 1]]

/-- The second tap scales picks that the first has scaled: two meals have four of each, which no
changes one after another come to. -/
theorem double_tap_doubles_picks : ∃ S,
    Run (IsChange 1) (fun _ _ => True) (System.start tiffinCart) doubleTap S ∧
    S.store.cartLines.map (·.quantity) = [2, 4, 4] ∧
    ∀ cs, ¬ InTurn (Call.Does 1) tiffinCart cs S.store := by
  have hplay : ((System.start tiffinCart).play doubleTap).map (fun S =>
      (S.store.cartLines.map (·.quantity), (S.store.cartLines.find? (·.id = 1)).map fun l =>
        (picks S.store.cartLines l).map (·.1))) = some ([2, 4, 4], some [2, 2]) := by decide +kernel
  obtain ⟨S, -, hrun, hresult⟩ := Run.of_play_map (P := IsChange 1) hplay fun p hp => by
    simp only [doubleTap, List.flatten_cons, List.flatten_nil, List.mem_append,
      List.mem_cons, begin_notMem_turns, Event.begin.injEq, reduceCtorEq, List.not_mem_nil,
      or_false] at hp
    rcases hp with rfl | rfl <;> exact ⟨_, rfl⟩
  obtain ⟨hquantities, htaken⟩ := Prod.mk.inj hresult
  refine ⟨S, hrun, hquantities, fun cs hserial => ?_⟩
  obtain ⟨line, hline, -, hkept⟩ :=
    (InTurn.keepsPicks tiffinCart_ready hserial).2 _ (show _ = some _ from rfl)
  rw [hline, Option.map_some, hkept] at htaken
  exact absurd htaken (by decide +kernel)

end RestiqBackend.CartEdits
