import RestiqBackend.Placement
import RestiqBackend.TillMenu

/-!
Where the menu, the cart, the till and the combos agree on what can be had.

Four operations set the marks of an item: its own toggle, an outlet's override, the override's
removal, and archiving. `Agrees` compares what reads them: a request that goes through while
nothing is marked goes through exactly where the guest's menu shows the item as available. The
readers agree as long as no outlet's override is switched on for an item that is off, and no
item is archived that a combo still offers. Placement looks at the marks of a combo's picks, and
at none of an item that was added to the cart by itself.
-/

namespace RestiqBackend.Availability

open Catalogue TableCart
open Serial (check check_ok orElseThrow_ok)

/-! ### Marks -/

inductive MarkOp
  | setAvailability (itemId : ℕ) (available : Bool)
  | setOutletAvailability (itemId outletId : ℕ) (available : Bool)
  | clearOutletAvailability (itemId outletId : ℕ)
  | archive (itemId : ℕ) (now : ℤ)
  deriving DecidableEq

def mark (m : Menu) : MarkOp → Menu
  | .setAvailability itemId available => Serial.after m (setAvailability m itemId available)
  | .setOutletAvailability itemId outletId available =>
      Serial.after m (setOutletAvailability m itemId outletId available)
  | .clearOutletAvailability itemId outletId =>
      Serial.after m (clearOutletAvailability m itemId outletId)
  | .archive itemId now => Serial.after m (archive m itemId now)

def cleared (itemId : ℕ) (item : MenuItem) : MenuItem :=
  if item.id = itemId then { item with available := true, archivedAt := none } else item

/-- The menu with nothing marked on an item. -/
def unmark (m : Menu) (itemId : ℕ) : Menu :=
  { m with
    items := m.items.map (cleared itemId)
    itemOutletOverrides := m.itemOutletOverrides.filter (·.itemId ≠ itemId) }

/-- The guest's menu shows the item as available. -/
def Shown (m : Menu) (outletId : ℕ) (now : ℤ) (itemId : ℕ) : Prop :=
  ∃ view ∈ (getMenu m outletId now).1, view.id = itemId ∧ view.available = true

/-- The item has something a guest can buy: a price, or a priced variant. -/
def Priced (m : Menu) (outletId : ℕ) (now : ℤ) (itemId : ℕ) : Prop :=
  ∀ item ∈ m.items, item.id = itemId → isPurchasable (toItemView m outletId now item) = true

/-- Each reader takes the item where the guest's menu shows it, of the requests that it takes
while nothing is marked on the item. -/
structure Agrees (m : Menu) (outletId : ℕ) (now : ℤ) (itemId : ℕ) : Prop where
  cart : ∀ (w : World) (guest : TableCart.GuestPrincipal) (found : Option TableSession) (at_ : ℤ)
    (dto : AddCartLineDto) (id : ℕ), guest.outletId = outletId → dto.itemId = itemId →
    (TableCart.addLine { w with menu := unmark m itemId } guest found at_ dto id).isOk = true →
    ((TableCart.addLine { w with menu := m } guest found at_ dto id).isOk = true ↔
      Shown m outletId now itemId)
  till : ∀ (v : Store) (envs : ℕ → ReadCommitted.Env) (staff : PosPrincipal) (ownerName : String)
    (dto : AddOrderLineDto) (tableId : Option ℕ) (at_ : ℤ) (modifierIds : List ℕ),
    dto.itemId = itemId →
    ((RestiqBackend.addLine staff ownerName dto
      (TillMenu.orderLine (unmark m itemId) outletId tableId at_ dto modifierIds)).run
        envs 0 v).isOk = true →
    (((RestiqBackend.addLine staff ownerName dto
      (TillMenu.orderLine m outletId tableId at_ dto modifierIds)).run envs 0 v).isOk = true ↔
      Shown m outletId now itemId)
  combo : ∀ (comboId : ℕ) (selections : List ComboSelectionInput)
    (r : Combo × List ResolvedComboChild),
    resolveComboSelection (unmark m itemId) outletId comboId selections = .ok r →
    (∃ child ∈ r.2, child.itemId = itemId) →
    ((resolveComboSelection m outletId comboId selections).isOk = true ↔
      Shown m outletId now itemId)

/-! ### Marks that say one thing -/

/-- Whether a live combo has an option of the item. -/
def offered (m : Menu) (itemId : ℕ) : Bool :=
  m.combos.any fun c => c.archivedAt.isNone && c.options.any (·.2.itemId = itemId)

/-- An override is on only of an item that is on, and an archived item that a combo offers is
off everywhere. -/
structure InStep (m : Menu) : Prop where
  pkey : (m.items.map (·.id)).Nodup
  overridden : ∀ item ∈ m.items, ∀ o ∈ m.itemOutletOverrides, o.itemId = item.id →
    o.available = true → item.available = true
  archived : ∀ item ∈ m.items, item.archivedAt ≠ none → offered m item.id = true →
    item.available = false ∧ ∀ o ∈ m.itemOutletOverrides, o.itemId = item.id → o.available = false

/-- A new menu: nothing is archived, and no outlet has an override. -/
structure Unmarked (m : Menu) : Prop where
  pkey : (m.items.map (·.id)).Nodup
  overrides : m.itemOutletOverrides = []
  live : ∀ item ∈ m.items, item.archivedAt = none

theorem Unmarked.inStep {m : Menu} (h : Unmarked m) : InStep m where
  pkey := h.pkey
  overridden _ _ o ho := absurd ho (by simp [h.overrides])
  archived item hitem harchived := absurd (h.live item hitem) harchived

/-- Whether an override of the item is on at some outlet. -/
def onSomewhere (m : Menu) (itemId : ℕ) : Bool :=
  m.itemOutletOverrides.any fun o => o.itemId = itemId && o.available

/-- An operation that leaves the marks of its item saying one thing: an override is switched on
only while the item is on, the item is switched off or archived only while no override is on,
and an item that a combo offers is switched off before it is archived. -/
def keepsInStep (m : Menu) : MarkOp → Bool
  | .setAvailability itemId available => available || !onSomewhere m itemId
  | .setOutletAvailability itemId _ available => !available || (m.item itemId).all (·.available)
  | .clearOutletAvailability _ _ => true
  | .archive itemId _ => !offered m itemId ||
      ((m.item itemId).all (fun item => !item.available) && !onSomewhere m itemId)

/-! ### What each reader makes of the marks -/

variable {m m' : Menu} {outletId itemId : ℕ} {now : ℤ} {item : MenuItem}

theorem item_mem (h : m.item itemId = some item) : item ∈ m.items ∧ item.id = itemId :=
  ⟨List.mem_of_find?_eq_some h, by simpa using List.find?_some h⟩

theorem override_mem {available : Bool} (h : m.override outletId itemId = some available) :
    ∃ o ∈ m.itemOutletOverrides, o.itemId = itemId ∧ o.available = available := by
  obtain ⟨o, ho, rfl⟩ := Option.map_eq_some_iff.mp h
  have hkey := List.find?_some ho
  rw [decide_eq_true_eq] at hkey
  exact ⟨o, List.mem_of_find?_eq_some ho, hkey.2, rfl⟩

theorem loadItemForLine_ok :
    loadItemForLine m itemId = .ok item ↔ m.item itemId = some item ∧ item.archivedAt = none := by
  constructor
  · intro h
    obtain ⟨item', hitem, h⟩ := Serial.bind_ok h
    obtain ⟨_, hlive, h⟩ := Serial.bind_ok h
    cases h
    exact ⟨orElseThrow_ok hitem, check_ok hlive⟩
  · rintro ⟨hitem, hlive⟩
    unfold loadItemForLine
    rw [hitem]
    change (check (item.archivedAt = none) noSuchItem >>= fun _ => pure item) = _
    rw [check, if_pos hlive]
    rfl

theorem assertItemAvailable_ok {u : Unit} : assertItemAvailable m outletId item = .ok u ↔
    item.available = true ∧ m.override outletId item.id ≠ some false := by
  constructor
  · intro h
    obtain ⟨_, havailable, h⟩ := Serial.bind_ok h
    exact ⟨check_ok havailable, check_ok h⟩
  · rintro ⟨havailable, hoverride⟩
    unfold assertItemAvailable check
    rw [if_pos havailable, if_pos hoverride]
    rfl

theorem resolveAvailability_eq : resolveAvailability m outletId item = itemAvailability m outletId item := by
  unfold resolveAvailability itemAvailability
  cases m.override outletId item.id <;> rfl

theorem shown_iff (hpkey : (m.items.map (·.id)).Nodup) (hitem : m.item itemId = some item)
    (hpriced : Priced m outletId now itemId) :
    Shown m outletId now itemId ↔
      item.archivedAt = none ∧ itemAvailability m outletId item = true := by
  obtain ⟨hmem, hid⟩ := item_mem hitem
  constructor
  · rintro ⟨view, hview, hvid, havailable⟩
    obtain ⟨hview, -⟩ := List.mem_filter.mp hview
    obtain ⟨x, hx, rfl⟩ := List.mem_map.mp hview
    obtain ⟨hx, hlive⟩ := List.mem_filter.mp hx
    -- The view is the item's own.
    have hsame : x = item :=
      List.inj_on_of_nodup_map hpkey hx hmem ((show x.id = itemId from hvid).trans hid.symm)
    subst hsame
    exact ⟨Option.isNone_iff_eq_none.mp hlive, resolveAvailability_eq ▸ havailable⟩
  · rintro ⟨hlive, hon⟩
    refine ⟨toItemView m outletId now item, List.mem_filter.mpr ⟨List.mem_map.mpr
      ⟨item, List.mem_filter.mpr ⟨hmem, by rw [hlive]; rfl⟩, rfl⟩, hpriced item hmem hid⟩, hid, ?_⟩
    exact resolveAvailability_eq.trans hon

/-- Where the marks say one thing, the toggle and the override say what the override says where
there is one. -/
theorem InStep.available_iff (h : InStep m) (hitem : item ∈ m.items) :
    (item.available = true ∧ m.override outletId item.id ≠ some false) ↔
      itemAvailability m outletId item = true := by
  unfold itemAvailability
  cases hoverride : m.override outletId item.id with
  | none => simp
  | some available =>
      cases available with
      | false => simp
      | true =>
          obtain ⟨o, ho, hoid, hon⟩ := override_mem hoverride
          simpa using h.overridden item hitem o ho hoid hon

theorem InStep.live_of_offered (h : InStep m) (hitem : item ∈ m.items)
    (hoffered : offered m item.id = true) (hon : itemAvailability m outletId item = true) :
    item.archivedAt = none := by
  by_contra harchived
  obtain ⟨hoff, hoverrides⟩ := h.archived item hitem harchived hoffered
  unfold itemAvailability at hon
  cases hoverride : m.override outletId item.id with
  | none =>
      rw [hoverride] at hon
      exact absurd (hoff.symm.trans hon) Bool.false_ne_true
  | some available =>
      rw [hoverride] at hon
      obtain ⟨o, ho, hoid, rfl⟩ := override_mem hoverride
      exact absurd ((hoverrides o ho hoid).symm.trans hon) Bool.false_ne_true

theorem cleared_id : (cleared itemId item).id = item.id := by
  unfold cleared
  split <;> rfl

theorem cleared_self (h : item.id = itemId) :
    cleared itemId item = { item with available := true, archivedAt := none } := if_pos h

theorem unmark_item (id : ℕ) : (unmark m itemId).item id = (m.item id).map (cleared itemId) := by
  unfold Menu.item unmark
  rw [List.find?_map]
  congr 2
  funext x
  simp [cleared_id]

theorem unmark_override_self : (unmark m itemId).override outletId itemId = none := by
  unfold Menu.override unmark
  rw [Option.map_eq_none_iff, List.find?_eq_none]
  intro o ho
  have hne := (List.mem_filter.mp ho).2
  simp_all

theorem unmark_override_of_ne {id : ℕ} (hne : id ≠ itemId) :
    (unmark m itemId).override outletId id = m.override outletId id := by
  unfold Menu.override unmark
  rw [List.find?_filter]
  congr 2
  funext o
  by_cases ho : o.itemId = itemId
  · simp [ho, Ne.symm hne]
  · simp [ho]

/-! ### The readers agree -/

theorem unmark_item_self {item' : MenuItem} (h : (unmark m itemId).item itemId = some item') :
    ∃ item, m.item itemId = some item ∧
      item' = { item with available := true, archivedAt := none } := by
  rw [unmark_item] at h
  obtain ⟨item, hitem, rfl⟩ := Option.map_eq_some_iff.mp h
  exact ⟨item, hitem, cleared_self (item_mem hitem).2⟩

theorem InStep.cart (h : InStep m) (hpriced : Priced m outletId now itemId) {w : World}
    {guest : TableCart.GuestPrincipal} {found : Option TableSession} {at_ : ℤ}
    {dto : AddCartLineDto} {id : ℕ} (houtlet : guest.outletId = outletId)
    (hdto : dto.itemId = itemId)
    (hok : (TableCart.addLine { w with menu := unmark m itemId } guest found at_ dto id).isOk = true) :
    (TableCart.addLine { w with menu := m } guest found at_ dto id).isOk = true ↔
      Shown m outletId now itemId := by
  obtain ⟨session, hsession, hok⟩ := Serial.isOk_bind.mp hok
  obtain ⟨item', hload, hok⟩ := Serial.isOk_bind.mp hok
  obtain ⟨⟨⟩, hvariant, hok⟩ := Serial.isOk_bind.mp hok
  obtain ⟨⟨⟩, -, hok⟩ := Serial.isOk_bind.mp hok
  obtain ⟨⟨⟩, hmodifiers, hok⟩ := Serial.isOk_bind.mp hok
  obtain ⟨cartLines, hinsert, hok⟩ := Serial.isOk_bind.mp hok
  obtain ⟨view, hview, -⟩ := Serial.isOk_bind.mp hok
  obtain ⟨item, hitem, rfl⟩ := unmark_item_self (hdto ▸ (loadItemForLine_ok.mp hload).1)
  obtain ⟨hmem, hid⟩ := item_mem hitem
  rw [shown_iff h.pkey hitem hpriced]
  constructor
  · intro hok
    obtain ⟨_, -, hok⟩ := Serial.isOk_bind.mp hok
    obtain ⟨found', hload, hok⟩ := Serial.isOk_bind.mp hok
    obtain ⟨_, -, hok⟩ := Serial.isOk_bind.mp hok
    obtain ⟨_, havailable, -⟩ := Serial.isOk_bind.mp hok
    obtain ⟨hfound, hlive⟩ := loadItemForLine_ok.mp hload
    rw [hdto, hitem, Option.some_inj] at hfound
    subst hfound
    exact ⟨hlive, (h.available_iff hmem).mp (houtlet ▸ assertItemAvailable_ok.mp havailable)⟩
  · rintro ⟨hlive, hon⟩
    refine Serial.isOk_bind.mpr ⟨session, hsession, Serial.isOk_bind.mpr ⟨item,
      loadItemForLine_ok.mpr ⟨hdto ▸ hitem, hlive⟩, Serial.isOk_bind.mpr ⟨(), hvariant,
        Serial.isOk_bind.mpr ⟨(), assertItemAvailable_ok.mpr ?_, Serial.isOk_bind.mpr ⟨(),
          hmodifiers, Serial.isOk_bind.mpr ⟨cartLines, hinsert,
            Serial.isOk_bind.mpr ⟨view, hview, rfl⟩⟩⟩⟩⟩⟩⟩
    exact houtlet ▸ (h.available_iff hmem).mpr hon

/-- What the menu refuses, the till's `addLine` does. -/
theorem run_refused {σ κ ρ ω ε α β : Type} [ReadCommitted.WriteTo ω σ]
    (p : ReadCommitted.Txn σ κ ρ ω ε α) (e : ε) (envs : ℕ → ReadCommitted.Env) (n : ℕ) (s : σ) :
    ((p >>= fun _ => (ReadCommitted.Txn.fail e : ReadCommitted.Txn σ κ ρ ω ε β)).run
      envs n s).isOk = false := by
  induction p generalizing n s with
  | done a => rfl
  | fail e => rfl
  | stmt f k ih => exact ih _ _ _

theorem InStep.till (h : InStep m) (hpriced : Priced m outletId now itemId) {v : Store}
    {envs : ℕ → ReadCommitted.Env} {staff : PosPrincipal} {ownerName : String}
    {dto : AddOrderLineDto} {tableId : Option ℕ} {at_ : ℤ} {modifierIds : List ℕ}
    (hdto : dto.itemId = itemId)
    (hok : ((RestiqBackend.addLine staff ownerName dto
      (TillMenu.orderLine (unmark m itemId) outletId tableId at_ dto modifierIds)).run
        envs 0 v).isOk = true) :
    ((RestiqBackend.addLine staff ownerName dto
      (TillMenu.orderLine m outletId tableId at_ dto modifierIds)).run envs 0 v).isOk = true ↔
      Shown m outletId now itemId := by
  -- While nothing is marked the menu answers with a price.
  have hrefused : ∀ e, ((RestiqBackend.addLine staff ownerName dto (.error e)).run
      envs 0 v).isOk = false := fun e => run_refused _ e envs 0 v
  cases hanswer : TillMenu.orderLine (unmark m itemId) outletId tableId at_ dto modifierIds with
  | error e =>
      rw [hanswer, hrefused] at hok
      cases hok
  | ok priced =>
      rw [hanswer] at hok
      obtain ⟨item', hload, hrest⟩ := Serial.bind_ok hanswer
      obtain ⟨⟨⟩, -, hrest⟩ := Serial.bind_ok hrest
      obtain ⟨item, hitem, rfl⟩ := unmark_item_self (hdto ▸ (loadItemForLine_ok.mp hload).1)
      obtain ⟨hmem, hid⟩ := item_mem hitem
      rw [shown_iff h.pkey hitem hpriced]
      constructor
      · intro hok
        cases hmarked : TillMenu.orderLine m outletId tableId at_ dto modifierIds with
        | error e =>
            rw [hmarked, hrefused] at hok
            cases hok
        | ok priced' =>
            obtain ⟨found', hload, hmarked⟩ := Serial.bind_ok hmarked
            obtain ⟨_, havailable, -⟩ := Serial.bind_ok hmarked
            obtain ⟨hfound, hlive⟩ := loadItemForLine_ok.mp hload
            rw [hdto, hitem, Option.some_inj] at hfound
            subst hfound
            exact ⟨hlive, (h.available_iff hmem).mp (assertItemAvailable_ok.mp havailable)⟩
      · rintro ⟨hlive, hon⟩
        have hload : loadItemForOrderLine m dto.itemId = .ok item :=
          loadItemForLine_ok.mpr ⟨hdto ▸ hitem, hlive⟩
        have havailable : assertItemAvailable m outletId item = .ok () :=
          assertItemAvailable_ok.mpr ((h.available_iff hmem).mpr hon)
        have hmarked : TillMenu.orderLine m outletId tableId at_ dto modifierIds = .ok priced := by
          unfold TillMenu.orderLine
          rw [hload]
          change (assertItemAvailable m outletId item >>= _) = _
          rw [havailable]
          exact hrest
        rw [hmarked]
        exact hok

theorem itemAvailability_unmark {id : ℕ} (hitem : m.item id = some item) :
    itemAvailability (unmark m itemId) outletId (cleared itemId item) =
      if id = itemId then true else itemAvailability m outletId item := by
  obtain ⟨-, hid⟩ := item_mem hitem
  unfold itemAvailability
  rw [cleared_id, hid]
  split
  next heq =>
    rw [heq, unmark_override_self, cleared_self (hid.trans heq)]
    rfl
  next hne => rw [unmark_override_of_ne hne, cleared, if_neg (hid ▸ hne)]

theorem optionAvailable_unmark (hitem : m.item itemId = some item)
    (hon : itemAvailability m outletId item = true) :
    optionAvailable (unmark m itemId) outletId = optionAvailable m outletId := by
  funext option
  unfold optionAvailable
  rw [unmark_item]
  cases hoption : m.item option.itemId with
  | none => rfl
  | some x =>
      change itemAvailability _ _ (cleared itemId x) = itemAvailability m outletId x
      rw [itemAvailability_unmark hoption]
      split
      next heq =>
        rw [heq, hitem, Option.some_inj] at hoption
        rw [← hoption, hon]
      next => rfl

/-- With the item on, its picks resolve as they do while nothing is marked. -/
theorem resolvePick_marked (hitem : m.item itemId = some item)
    (hon : itemAvailability m outletId item = true) {pick : ComboPick} {child : ResolvedComboChild}
    (h : resolvePick (unmark m itemId) outletId pick = .ok child) :
    resolvePick m outletId pick = .ok child := by
  obtain ⟨item', hitem', h⟩ := Serial.bind_ok h
  obtain ⟨_, havailable, h⟩ := Serial.bind_ok h
  obtain ⟨⟨⟩, hmodifiers, h⟩ := Serial.bind_ok h
  cases h
  have hitem' := orElseThrow_ok hitem'
  rw [unmark_item] at hitem'
  obtain ⟨x, hx, rfl⟩ := Option.map_eq_some_iff.mp hitem'
  refine resolvePick_of hx ?_ ?_
  · have havailable := check_ok havailable
    rw [itemAvailability_unmark hx] at havailable
    split at havailable
    next heq =>
      rw [heq, hitem, Option.some_inj] at hx
      exact hx ▸ hon
    next => exact havailable
  · unfold cleared at hmodifiers
    split at hmodifiers
    · exact hmodifiers
    · exact hmodifiers

theorem InStep.combo (h : InStep m) (hpriced : Priced m outletId now itemId) {comboId : ℕ}
    {selections : List ComboSelectionInput} {r : Combo × List ResolvedComboChild}
    (hok : resolveComboSelection (unmark m itemId) outletId comboId selections = .ok r)
    (hchosen : ∃ child ∈ r.2, child.itemId = itemId) :
    (resolveComboSelection m outletId comboId selections).isOk = true ↔
      Shown m outletId now itemId := by
  obtain ⟨combo, children⟩ := r
  obtain ⟨picks, hresolved⟩ := resolveComboSelection_ok.mp hok
  -- The pick of the item, and the combo that offers it.
  obtain ⟨child, hchild, rfl⟩ := hchosen
  obtain ⟨pick, hpick, hpicked⟩ := Serial.mapM_mem hresolved.resolved hchild
  have hchoice := resolvePick_ok hpicked
  obtain ⟨item', hitem', -⟩ := hchoice.item
  obtain ⟨item, hitem, -⟩ := unmark_item_self hitem'
  obtain ⟨hmem, hid⟩ := item_mem hitem
  have hoffered : offered m item.id = true := by
    refine List.any_eq_true.mpr ⟨combo, List.mem_of_find?_eq_some hresolved.found, ?_⟩
    rw [Bool.and_eq_true, hresolved.live, List.any_eq_true]
    exact ⟨rfl, _, hresolved.mem_options hpick, by simp [hid, hchoice.itemId]⟩
  rw [shown_iff h.pkey hitem hpriced]
  constructor
  · intro hmarked
    cases hanswer : resolveComboSelection m outletId comboId selections with
    | error e =>
        rw [hanswer] at hmarked
        cases hmarked
    | ok r =>
        obtain ⟨combo', children'⟩ := r
        obtain ⟨picks', hresolved'⟩ := resolveComboSelection_ok.mp hanswer
        have hcombo : combo = combo' := Option.some_inj.mp
          ((show m.combo comboId = some combo from hresolved.found).symm.trans hresolved'.found)
        subst hcombo
        have hpicks : picks = picks' := by
          have hsame := hresolved.picked.symm.trans hresolved'.picked
          exact Except.ok.inj hsame
        subst hpicks
        obtain ⟨child', -, hpicked'⟩ := Serial.mapM_answer hresolved'.resolved hpick
        have hchoice' := resolvePick_ok hpicked'
        obtain ⟨x, hx, hon, -⟩ := hchoice'.item
        rw [hchoice'.itemId, ← hchoice.itemId, hitem, Option.some_inj] at hx
        subst hx
        exact ⟨h.live_of_offered hmem hoffered hon, hon⟩
  · rintro ⟨-, hon⟩
    have hmarked : resolveComboSelection m outletId comboId selections = .ok (combo, children) := by
      refine resolveComboSelection_ok.mpr ⟨picks, hresolved.found, hresolved.live, ?_,
        hresolved.picked, ?_⟩
      · rw [← optionAvailable_unmark hitem hon]
        exact hresolved.available
      · exact Serial.mapM_of_forall₂ ((Serial.mapM_ok hresolved.resolved).imp
          fun _ _ => resolvePick_marked hitem hon)
    rw [hmarked]
    rfl

theorem InStep.agrees (h : InStep m) (hpriced : Priced m outletId now itemId) :
    Agrees m outletId now itemId where
  cart _ _ _ _ _ _ houtlet hdto := h.cart hpriced houtlet hdto
  till _ _ _ _ _ _ _ _ hdto := h.till hpriced hdto
  combo _ _ _ := h.combo hpriced

/-! ### Runs of marks -/

theorem loadItem_ok (h : loadItem m itemId = .ok item) :
    m.item itemId = some item ∧ item.archivedAt = none := by
  obtain ⟨item', hitem, h⟩ := Serial.bind_ok h
  obtain ⟨_, hlive, h⟩ := Serial.bind_ok h
  cases h
  exact ⟨orElseThrow_ok hitem, check_ok hlive⟩

/-- The row that an operation has loaded is the one with its identifier, and it is live. -/
theorem InStep.loaded (h : InStep m) (hload : loadItem m itemId = .ok item) {x : MenuItem}
    (hx : x ∈ m.items) (hid : x.id = itemId) : x = item ∧ x.archivedAt = none := by
  obtain ⟨hitem, hlive⟩ := loadItem_ok hload
  obtain ⟨hmem, hitemId⟩ := item_mem hitem
  have hsame := List.inj_on_of_nodup_map h.pkey hx hmem (hid.trans hitemId.symm)
  exact ⟨hsame, hsame ▸ hlive⟩

theorem updateItem_pkey {f : MenuItem → MenuItem} (hf : ∀ x, (f x).id = x.id)
    (hpkey : (m.items.map (·.id)).Nodup) : ((m.updateItem itemId f).items.map (·.id)).Nodup := by
  have hids : (m.updateItem itemId f).items.map (·.id) = m.items.map (·.id) := by
    rw [Menu.updateItem, List.map_map]
    refine List.map_congr_left fun x _ => ?_
    change (if x.id = itemId then f x else x).id = x.id
    split
    · exact hf x
    · rfl
  exact hids ▸ hpkey

theorem mem_updateItem {f : MenuItem → MenuItem} {x : MenuItem}
    (hx : x ∈ (m.updateItem itemId f).items) :
    (x ∈ m.items ∧ x.id ≠ itemId) ∨ ∃ y ∈ m.items, y.id = itemId ∧ x = f y := by
  obtain ⟨y, hy, rfl⟩ := List.mem_map.mp hx
  by_cases hid : y.id = itemId
  · exact .inr ⟨y, hy, hid, if_pos hid⟩
  · rw [if_neg hid]
    exact .inl ⟨hy, hid⟩

theorem not_onSomewhere (h : onSomewhere m itemId = false) {o : ItemOutletOverride}
    (ho : o ∈ m.itemOutletOverrides) (hid : o.itemId = itemId) : o.available = false := by
  have hoff := List.any_eq_false.mp h o ho
  simpa [hid] using hoff

theorem setAvailability_inStep (h : InStep m) {available : Bool} {u : Unit}
    (hkeeps : keepsInStep m (.setAvailability itemId available) = true)
    (hrun : setAvailability m itemId available = .ok (m', u)) : InStep m' := by
  obtain ⟨item, hload, hrun⟩ := Serial.bind_ok hrun
  cases hrun
  refine ⟨updateItem_pkey (fun _ => rfl) h.pkey, fun x hx o ho hoid hon => ?_,
    fun x hx harchived hoffered => ?_⟩
  · rcases mem_updateItem hx with ⟨hx, -⟩ | ⟨y, hy, hid, rfl⟩
    · exact h.overridden x hx o ho hoid hon
    · rcases Bool.or_eq_true_iff.mp hkeeps with havailable | hoff
      · exact havailable
      · rw [not_onSomewhere (m := m) (by simpa using hoff) ho (hoid.trans hid)] at hon
        cases hon
  · rcases mem_updateItem hx with ⟨hx, -⟩ | ⟨y, hy, hid, rfl⟩
    · exact h.archived x hx harchived hoffered
    · exact absurd (h.loaded hload hy hid).2 harchived

theorem mem_upsertOverride {available : Bool} {outletId : ℕ} {o : ItemOutletOverride}
    (ho : o ∈ (m.upsertOverride itemId outletId available).itemOutletOverrides) :
    o ∈ m.itemOutletOverrides ∨ o.itemId = itemId ∧ o.available = available := by
  unfold Menu.upsertOverride at ho
  split at ho
  · obtain ⟨o', ho', rfl⟩ := List.mem_map.mp ho
    split
    next hkey => exact .inr ⟨hkey.1, rfl⟩
    next => exact .inl ho'
  · refine (List.mem_append.mp ho).imp_right fun ho => ?_
    rw [List.mem_singleton.mp ho]
    exact ⟨rfl, rfl⟩

theorem upsertOverride_items {available : Bool} {outletId : ℕ} :
    (m.upsertOverride itemId outletId available).items = m.items ∧
      (m.upsertOverride itemId outletId available).combos = m.combos := by
  unfold Menu.upsertOverride
  split <;> exact ⟨rfl, rfl⟩

theorem setOutletAvailability_inStep (h : InStep m) {available : Bool} {u : Unit}
    (hkeeps : keepsInStep m (.setOutletAvailability itemId outletId available) = true)
    (hrun : setOutletAvailability m itemId outletId available = .ok (m', u)) : InStep m' := by
  obtain ⟨item, hload, hrun⟩ := Serial.bind_ok hrun
  obtain ⟨_, -, hrun⟩ := Serial.bind_ok hrun
  cases hrun
  obtain ⟨hitems, hcombos⟩ : (m.upsertOverride itemId outletId available).items = m.items ∧
      (m.upsertOverride itemId outletId available).combos = m.combos := upsertOverride_items
  refine ⟨by rw [hitems]; exact h.pkey, fun x hx o ho hoid hon => ?_,
    fun x hx harchived hoffered => ?_⟩
  · rw [hitems] at hx
    rcases mem_upsertOverride ho with ho | ⟨hid, rfl⟩
    · exact h.overridden x hx o ho hoid hon
    · have hsame := (h.loaded hload hx (hoid.symm.trans hid)).1
      subst hsame
      rw [keepsInStep, hon, (loadItem_ok hload).1] at hkeeps
      simpa using hkeeps
  · rw [hitems] at hx
    have hoffered' : offered m x.id = true := by
      unfold offered at hoffered ⊢
      rwa [hcombos] at hoffered
    obtain ⟨hoff, hoverrides⟩ := h.archived x hx harchived hoffered'
    refine ⟨hoff, fun o ho hoid => ?_⟩
    rcases mem_upsertOverride ho with ho | ⟨hid, -⟩
    · exact hoverrides o ho hoid
    · exact absurd (h.loaded hload hx (hoid.symm.trans hid)).2 harchived

theorem clearOutletAvailability_inStep (h : InStep m) {u : Unit}
    (hrun : clearOutletAvailability m itemId outletId = .ok (m', u)) : InStep m' := by
  obtain ⟨item, hload, hrun⟩ := Serial.bind_ok hrun
  cases hrun
  refine ⟨h.pkey, fun x hx o ho => h.overridden x hx o (List.mem_filter.mp ho).1,
    fun x hx harchived hoffered => ?_⟩
  obtain ⟨hoff, hoverrides⟩ := h.archived x hx harchived hoffered
  exact ⟨hoff, fun o ho => hoverrides o (List.mem_filter.mp ho).1⟩

theorem archive_inStep (h : InStep m) {u : Unit}
    (hkeeps : keepsInStep m (.archive itemId now) = true)
    (hrun : archive m itemId now = .ok (m', u)) : InStep m' := by
  obtain ⟨item, hload, hrun⟩ := Serial.bind_ok hrun
  cases hrun
  refine ⟨updateItem_pkey (fun _ => rfl) h.pkey, fun x hx o ho hoid hon => ?_,
    fun x hx harchived hoffered => ?_⟩
  · rcases mem_updateItem hx with ⟨hx, -⟩ | ⟨y, hy, -, rfl⟩
    · exact h.overridden x hx o ho hoid hon
    · exact h.overridden y hy o ho hoid hon
  · rcases mem_updateItem hx with ⟨hx, -⟩ | ⟨y, hy, hid, rfl⟩
    · exact h.archived x hx harchived hoffered
    · -- The item that is archived now: a combo offers it, so it is off.
      have hoffered' : offered m itemId = true := by
        rw [← hid]
        exact hoffered
      rw [keepsInStep, hoffered', (loadItem_ok hload).1] at hkeeps
      obtain ⟨hoff, hoverrides⟩ : item.available = false ∧ onSomewhere m itemId = false := by
        simpa using hkeeps
      exact ⟨(h.loaded hload hy hid).1 ▸ hoff,
        fun o ho hoid => not_onSomewhere hoverrides ho (hoid.trans hid)⟩

theorem mark_inStep (h : InStep m) (op : MarkOp) (hkeeps : keepsInStep m op = true) :
    InStep (mark m op) := by
  cases op with
  | setAvailability itemId available =>
      exact Serial.after_keeps h fun _ _ => setAvailability_inStep h hkeeps
  | setOutletAvailability itemId outletId available =>
      exact Serial.after_keeps h fun _ _ => setOutletAvailability_inStep h hkeeps
  | clearOutletAvailability itemId outletId =>
      exact Serial.after_keeps h fun _ _ => clearOutletAvailability_inStep h
  | archive itemId now => exact Serial.after_keeps h fun _ _ => archive_inStep h hkeeps

/-! ### Placement -/

/-- The item is live, and available at the outlet. -/
def Sellable (m : Menu) (outletId itemId : ℕ) : Prop :=
  ∃ item, m.item itemId = some item ∧ item.archivedAt = none ∧
    itemAvailability m outletId item = true

theorem InStep.placed (h : InStep m) {p : Placing} (hmenu : p.menu = m) {line : CartLine}
    {block : List OrderLine} (hplaced : Placed p line block) :
    (∀ x ∈ block, ∀ id ∈ x.itemId, Sellable m p.outletId id) ↔
      (line.comboId = none → ∀ id ∈ line.itemId, Sellable m p.outletId id) := by
  subst hmenu
  cases hplaced with
  | item hcombo hline hitem => simp [hcombo, hitem]
  | @combo x xs comboId combo children hcombo hline hitem hvariant hresolve hunit hmodifiers hpicks =>
      refine ⟨fun _ hnone => absurd (hcombo.symm.trans hnone) (by simp), fun _ y hy => ?_⟩
      rcases List.mem_cons.mp hy with rfl | hy
      · simp [hitem]
      obtain ⟨child, hchild, hy⟩ : ∃ child ∈ children, PlacedPick p line x.id child y := by
        clear hresolve
        induction hpicks with
        | nil => cases hy
        | cons hhead _ ih =>
            rcases List.mem_cons.mp hy with rfl | hy
            · exact ⟨_, List.mem_cons_self, hhead⟩
            · obtain ⟨child, hchild, hpick⟩ := ih (List.mem_cons_of_mem _ hy) hy
              exact ⟨child, List.mem_cons_of_mem _ hchild, hpick⟩
      -- The pick was resolved at this moment, so its item is on.
      obtain ⟨picks, hresolved⟩ := resolveComboSelection_ok.mp hresolve
      obtain ⟨pick, hpick, hpicked⟩ := Serial.mapM_mem hresolved.resolved hchild
      have hchoice := resolvePick_ok hpicked
      obtain ⟨item, hfound, hon, -⟩ := hchoice.item
      obtain ⟨hmem, hid⟩ := item_mem hfound
      intro id hid'
      rw [hy.itemId, Option.mem_some_iff] at hid'
      subst hid'
      refine ⟨item, hfound, h.live_of_offered hmem ?_ hon, hon⟩
      refine List.any_eq_true.mpr ⟨combo, List.mem_of_find?_eq_some hresolved.found, ?_⟩
      rw [Bool.and_eq_true, hresolved.live, List.any_eq_true]
      exact ⟨rfl, _, hresolved.mem_options hpick, by simp [hid, hchoice.itemId]⟩

theorem forall_flatten_iff {α β : Type} {P : β → Prop} {Q : α → Prop} {as : List α}
    {blocks : List (List β)}
    (h : List.Forall₂ (fun a block => (∀ x ∈ block, P x) ↔ Q a) as blocks) :
    (∀ x ∈ blocks.flatten, P x) ↔ ∀ a ∈ as, Q a := by
  induction h with
  | nil => simp
  | cons hhead _ ih =>
      rw [List.flatten_cons, List.forall_mem_append, List.forall_mem_cons, ih, hhead]

theorem InStep.placeOrder (h : InStep m) {w w' : World} {guest : TableCart.GuestPrincipal}
    {found : Option TableSession} {at_ : ℤ} {ctx : PlacementContext} {ids : ℕ → ℕ}
    {order : PlacedOrder} (hmenu : w.menu = m)
    (hrun : TableCart.placeOrder w guest found at_ ctx ids = .ok (w', order)) :
    (∀ x ∈ order.lines, ∀ id ∈ x.itemId, Sellable m guest.outletId id) ↔
      ∀ line ∈ sessionLines w.cartLines guest.sessionId, line.comboId = none →
        ∀ id ∈ line.itemId, Sellable m guest.outletId id := by
  obtain ⟨blocks, hlines, hblocks⟩ := (placeOrder_ok hrun).blocks
  rw [hlines]
  exact forall_flatten_iff (hblocks.imp fun _ _ hplaced => h.placed hmenu hplaced)

/-- In every run whose marks say one thing, the menu, the cart, the till and the combos agree on
every item that is priced, at every outlet; and a placement orders only what can be had exactly
where the lines that were added by themselves can be. -/
theorem marks_agree {m₀ m : Menu} {ops : List MarkOp} (hnew : Unmarked m₀)
    (h : Serial.Run (fun m op m' => m' = mark m op) (fun m op => keepsInStep m op = true) m₀ ops m) :
    (∀ outletId now itemId, Priced m outletId now itemId → Agrees m outletId now itemId) ∧
    ∀ (w : World) (guest : TableCart.GuestPrincipal) (found : Option TableSession) (at_ : ℤ)
      (ctx : PlacementContext) (ids : ℕ → ℕ) (w' : World) (order : PlacedOrder), w.menu = m →
      TableCart.placeOrder w guest found at_ ctx ids = .ok (w', order) →
      ((∀ x ∈ order.lines, ∀ id ∈ x.itemId, Sellable m guest.outletId id) ↔
        ∀ line ∈ sessionLines w.cartLines guest.sessionId, line.comboId = none →
          ∀ id ∈ line.itemId, Sellable m guest.outletId id) := by
  have hstep : InStep m := by
    refine h.preserves (fun m op m' hm hkeeps hmark => ?_) hnew.inStep
    rw [hmark]
    exact mark_inStep hm op hkeeps
  exact ⟨fun _ _ _ hpriced => hstep.agrees hpriced,
    fun _ _ _ _ _ _ _ _ hmenu hrun => hstep.placeOrder hmenu hrun⟩

def sampleMeal : Combo :=
  ⟨1, "Meal", 9000, "INR", true, none,
    [⟨1, "Main", 1, [⟨1, 1, none, 0⟩], Nat.one_pos⟩, ⟨2, "Drink", 1, [⟨2, 2, none, 0⟩], Nat.one_pos⟩]⟩

/-- A dosa, a chai, and a meal of the two. -/
def sampleMenu : Menu :=
  { outletIds := [1]
    items := [⟨1, "Dosa", true, none, [], []⟩, ⟨2, "Chai", true, none, [], []⟩]
    modifiers := []
    itemPrices := [⟨1, none, none, none, 8000, "INR", 0, 0⟩, ⟨2, none, none, none, 2000, "INR", 0, 0⟩]
    itemOutletOverrides := []
    combos := [sampleMeal] }

theorem sampleMenu_unmarked : Unmarked sampleMenu where
  pkey := by decide
  overrides := rfl
  live := by decide

/-- Off at the outlet, then off everywhere, archived, and the chai off and on again. -/
def sampleMarks : List MarkOp :=
  [.setOutletAvailability 1 1 false, .setAvailability 1 false, .archive 1 5,
    .setAvailability 2 false, .setAvailability 2 true]

theorem marks_agree_sample :
    Agrees (sampleMarks.foldl mark sampleMenu) 1 10 1 ∧
    Agrees (sampleMarks.foldl mark sampleMenu) 1 10 2 :=
  have hrun : Serial.Run (fun m op m' => m' = mark m op) (fun m op => keepsInStep m op = true)
      sampleMenu sampleMarks (sampleMarks.foldl mark sampleMenu) := Serial.Run.of_foldl (by decide)
  have h := marks_agree sampleMenu_unmarked hrun
  ⟨h.1 1 10 1 (by unfold Priced; decide), h.1 1 10 2 (by unfold Priced; decide)⟩

def sampleGuest : TableCart.GuestPrincipal := ⟨1, "Asha", 1, 1⟩

def sampleSession : TableSession := ⟨1, .open, some 1, 1000⟩

theorem nodup_of_mem_none : ∀ ids ∈ (none : Option (List ℕ)), ids.Nodup := nofun

def sampleDto : AddCartLineDto := ⟨1, none, 1, none, none, Nat.one_pos, nodup_of_mem_none⟩

/-- The dosa lies in the cart. -/
def sampleCart (m : Menu) : World :=
  ⟨m, [⟨1, 1, 1, "Asha", some 1, none, none, none, none, 1, none, []⟩], []⟩

/-- Switched on at the outlet of an item that is off, archived while a combo offers it, and
switched off after it was put in the cart. -/
theorem marks_disagree :
    ¬ Agrees ([MarkOp.setAvailability 1 false, .setOutletAvailability 1 1 true].foldl mark
      sampleMenu) 1 10 1 ∧
    ¬ Agrees ([MarkOp.archive 1 5].foldl mark sampleMenu) 1 10 1 ∧
    ∃ w' order, TableCart.placeOrder
      (sampleCart ([MarkOp.setAvailability 1 false].foldl mark sampleMenu)) sampleGuest
      (some sampleSession) 10 ⟨[1], false, 1⟩ (fun n => n) = .ok (w', order) ∧
      ∃ x ∈ order.lines, x.itemId = some 1 ∧
        ¬ Sellable ([MarkOp.setAvailability 1 false].foldl mark sampleMenu) 1 1 := by
  refine ⟨fun h => ?_, fun h => ?_, _, _, rfl, _, List.mem_singleton_self _, rfl, ?_⟩
  · have hcart := h.cart ⟨sampleMenu, [], []⟩ sampleGuest (some sampleSession) 10 sampleDto 1 rfl rfl
      (by decide)
    have hshown : Shown ([MarkOp.setAvailability 1 false, .setOutletAvailability 1 1 true].foldl
        mark sampleMenu) 1 10 1 :=
      ⟨⟨1, "Dosa", true, some (8000, "INR"), [], []⟩, by decide, rfl, rfl⟩
    exact absurd (hcart.mpr hshown) (by decide)
  · have hcombo := h.combo 1 [] (sampleMeal, [⟨1, 1, none, 1, 0, []⟩, ⟨2, 2, none, 1, 0, []⟩])
      (by decide +kernel) ⟨_, List.mem_cons_self, rfl⟩
    obtain ⟨view, hview, hid, -⟩ := hcombo.mp (by decide +kernel)
    revert view
    decide
  · rintro ⟨item, hitem, -, hon⟩
    cases hitem
    revert hon
    decide

end RestiqBackend.Availability
