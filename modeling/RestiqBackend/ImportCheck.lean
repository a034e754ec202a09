import RestiqBackend.ImportedOnce

/-!
The check before an import against the import (`findDuplicates`, `commitItems`).

The check compares a draft with the live menu and with itself; the import then finds or creates
categories by keys of its own. Both are run here alone, on one store. A draft that the check
lets through is landed whole and beside nothing of its name. What the check reports of the menu is there;
what it reports of the draft is told by a text of category and name joined, which two
different pairs can have in common.
-/

namespace RestiqBackend.MenuImport

open ReadCommitted

section Check

variable (toLowerCase : String → String)

/-! ### What is reported -/

/-- The text by which the check knows an item of the draft again. -/
def draftKey (item : DraftItem) : String :=
  toLowerCase item.category ++ "|" ++ toLowerCase item.name

/-- The live items of a tenant, as the check compares them. -/
def Catalogue.onMenu (c : Catalogue) (tenantId : ℕ) : List (ℕ × String) :=
  (c.menuItems.filter fun item => item.tenantId = tenantId ∧ item.archivedAt = none).map
    fun item => (item.categoryId, toLowerCase item.name)

def Catalogue.byName (c : Catalogue) (tenantId : ℕ) : List (String × ℕ) :=
  categoriesByName toLowerCase (c.menuCategories.filter (·.tenantId = tenantId))

/-- An item has the name of a live item of its category, or of an earlier item of the draft. -/
def Catalogue.Clashes (c : Catalogue) (tenantId : ℕ) (pre : List DraftItem) (item : DraftItem) :
    Prop :=
  (∃ category ∈ c.menuCategories, category.tenantId = tenantId ∧
    toLowerCase category.name = toLowerCase item.category ∧
    ∃ live ∈ c.menuItems, live.tenantId = tenantId ∧ live.archivedAt = none ∧
      live.categoryId = category.id ∧ toLowerCase live.name = toLowerCase item.name) ∨
  ∃ earlier ∈ pre, toLowerCase earlier.category = toLowerCase item.category ∧
    toLowerCase earlier.name = toLowerCase item.name

variable {toLowerCase} {onMenu : List (ℕ × String)} {byName : List (String × ℕ)}
  {seen : List String} {items : List DraftItem} {item : DraftItem} {c c' : Catalogue}
  {tenantId importId : ℕ}

theorem reasonFor_onMenu_iff : reasonFor toLowerCase onMenu byName seen item = some .onMenu ↔
    ∃ id, byName.lookup (toLowerCase item.category) = some id ∧
      (id, toLowerCase item.name) ∈ onMenu := by
  have hany : (byName.lookup (toLowerCase item.category)).any
      (fun id => onMenu.contains (id, toLowerCase item.name)) = true ↔
      ∃ id, byName.lookup (toLowerCase item.category) = some id ∧
        (id, toLowerCase item.name) ∈ onMenu := by
    simp [Option.any_eq_true]
  rw [← hany, reasonFor]
  split
  · exact iff_of_true rfl ‹_›
  · split <;> exact iff_of_false nofun ‹_›

theorem reasonFor_eq_none_iff : reasonFor toLowerCase onMenu byName seen item = none ↔
    reasonFor toLowerCase onMenu byName seen item ≠ some .onMenu ∧
      draftKey toLowerCase item ∉ seen := by
  rw [draftKey, ← List.contains_iff_mem, reasonFor]
  split
  · exact iff_of_false nofun fun h => h.1 rfl
  · split
    · exact iff_of_false nofun fun h => h.2 ‹_›
    · exact iff_of_true rfl ⟨nofun, ‹_›⟩

/-- An item is reported for what is on the menu and for the items before it. -/
theorem mem_duplicatesAmong {d : DraftDuplicate} :
    d ∈ duplicatesAmong toLowerCase onMenu byName seen items ↔
      ∃ pre item post reason, items = pre ++ item :: post ∧
        reasonFor toLowerCase onMenu byName ((pre.map (draftKey toLowerCase)).reverse ++ seen) item =
          some reason ∧ d = ⟨item.id, item.name, item.category, reason⟩ := by
  induction items generalizing seen with
  | nil =>
      refine iff_of_false List.not_mem_nil ?_
      rintro ⟨pre, item, post, reason, heq, -⟩
      exact List.append_ne_nil_of_right_ne_nil pre (List.cons_ne_nil item post) heq.symm
  | cons item items ih =>
      rw [duplicatesAmong, List.mem_append, Option.mem_toList, Option.map_eq_some_iff, ih]
      constructor
      · rintro (⟨reason, hreason, rfl⟩ | ⟨pre, other, post, reason, rfl, hreason, rfl⟩)
        · exact ⟨[], item, items, reason, rfl, hreason, rfl⟩
        · refine ⟨item :: pre, other, post, reason, rfl, ?_, rfl⟩
          rw [List.map_cons, List.reverse_cons, List.append_assoc]
          exact hreason
      · rintro ⟨pre, other, post, reason, heq, hreason, rfl⟩
        cases pre with
        | nil =>
            obtain ⟨rfl, rfl⟩ := List.cons.inj heq
            exact .inl ⟨reason, hreason, rfl⟩
        | cons first pre =>
            obtain ⟨rfl, rfl⟩ := List.cons.inj heq
            refine .inr ⟨pre, other, post, reason, rfl, ?_, rfl⟩
            rw [List.map_cons, List.reverse_cons, List.append_assoc] at hreason
            exact hreason

/-- What the check finds on the menu clashes. -/
theorem clashes_of_onMenu {pre : List DraftItem}
    (h : reasonFor toLowerCase (c.onMenu toLowerCase tenantId) (c.byName toLowerCase tenantId) seen
      item = some .onMenu) : c.Clashes toLowerCase tenantId pre item := by
  obtain ⟨id, hlookup, hmem⟩ := reasonFor_onMenu_iff.mp h
  obtain ⟨category, hcategory, htenant, rfl, hname⟩ :=
    (indexes_categoriesByName c tenantId).found _ _ hlookup
  obtain ⟨live, hlive, heq⟩ := List.mem_map.mp hmem
  obtain ⟨hlive, hwhere⟩ := List.mem_filter.mp hlive
  obtain ⟨hcategoryId, hlower⟩ := Prod.mk.inj heq
  obtain ⟨hlivetenant, harchived⟩ := of_decide_eq_true hwhere
  exact .inl ⟨category, hcategory, htenant, hname, live, hlive, hlivetenant, harchived, hcategoryId,
    hlower⟩

/-- The check run alone. -/
theorem draftDuplicates_run (envs : ℕ → Env) (n : ℕ) (s : Store) :
    (draftDuplicates toLowerCase tenantId items).run envs n s =
      .ok (duplicatesAmong toLowerCase (s.catalogue.onMenu toLowerCase tenantId)
        (s.catalogue.byName toLowerCase tenantId) [] items, s) := rfl

/-! ### What is landed -/

variable (toLowerCase) in
/-- Two live items of a category that differ at most in letter case. -/
def Twins (a b : MenuItem) : Prop :=
  a.archivedAt = none ∧ b.archivedAt = none ∧ a.tenantId = b.tenantId ∧
    a.categoryId = b.categoryId ∧ toLowerCase a.name = toLowerCase b.name

variable (toLowerCase) in
/-- None of the items that were added has a twin. -/
def NoNewTwins (c c' : Catalogue) : Prop :=
  ∃ created, c'.menuItems = c.menuItems ++ created ∧
    (∀ a ∈ c.menuItems, ∀ b ∈ created, ¬Twins toLowerCase a b) ∧
    created.Pairwise fun a b => ¬Twins toLowerCase a b

/-- The keys of the tables. -/
structure Keyed (c : Catalogue) : Prop where
  ids : (c.menuCategories.map (·.id)).Nodup
  categories : ∀ item ∈ c.menuItems, ∃ category ∈ c.menuCategories, category.id = item.categoryId

/-- The identifiers that are drawn from the `n`-th statement on are new. -/
structure Fresh (envs : ℕ → Env) (n : ℕ) (c : Catalogue) : Prop where
  distinct : ∀ j k, (envs j).uuid = (envs k).uuid → j = k
  new : ∀ k, n ≤ k → ∀ category ∈ c.menuCategories, category.id ≠ (envs k).uuid

variable (toLowerCase) in
/-- The import of `items` between two of them, those of `done` having been landed. -/
structure Underway (importId tenantId : ℕ) (items done : List DraftItem) (landing : Landing)
    (c c' : Catalogue) : Prop where
  ready : Ready toLowerCase importId tenantId done landing c c'
  keyed : Keyed c'
  apart : NoNewTwins toLowerCase c c'
  kept : ∀ key id, (c.byName toLowerCase tenantId).lookup key = some id →
    landing.categoriesByName.lookup key = some id
  added : ∀ key id, (c.byName toLowerCase tenantId).lookup key = none →
    landing.categoriesByName.lookup key = some id → ∀ category ∈ c.menuCategories, category.id ≠ id
  wanted : ∀ category ∈ c'.menuCategories, category ∈ c.menuCategories ∨
    ∃ item ∈ items, toLowerCase item.category = toLowerCase category.name

variable {envs : ℕ → Env} {n : ℕ} {done : List DraftItem} {landing : Landing} {input : DraftItem}
  {s : Store} {β : Type}

theorem Fresh.later (h : Fresh envs n c) {m : ℕ} (hle : n ≤ m) : Fresh envs m c :=
  ⟨h.distinct, fun k hk => h.new k (Nat.le_trans hle hk)⟩

/-- The category of an item is found or created. -/
theorem categoryOf_run (h : Underway toLowerCase importId tenantId items done landing c s.catalogue)
    (hfresh : Fresh envs n s.catalogue) (hinput : input ∈ items) (g : ℕ × Landing → Tx β) :
    ∃ k id landing₁ s₁,
      (categoryOf toLowerCase tenantId landing input >>= g).run envs n s =
        (g (id, landing₁)).run envs (n + k) s₁ ∧
      Underway toLowerCase importId tenantId items done landing₁ c s₁.catalogue ∧
      Fresh envs (n + k) s₁.catalogue ∧
      s₁.catalogue.menuItems = s.catalogue.menuItems ∧
      landing₁.categoriesByName.lookup (toLowerCase input.category) = some id ∧
      Categorized toLowerCase tenantId input id s₁.catalogue := by
  unfold categoryOf
  dsimp only
  cases hlookup : landing.categoriesByName.lookup (toLowerCase input.category) with
  | some id =>
      exact ⟨0, id, landing, s, rfl, h, hfresh, rfl, hlookup,
        h.ready.indexes.found _ _ hlookup⟩
  | none =>
      let id := (envs n).uuid
      let category : MenuCategory := ⟨id, tenantId, input.category, landing.nextSortOrder + 1⟩
      let landing₁ : Landing :=
        { landing with
          categoriesByName := (toLowerCase input.category, id) :: landing.categoriesByName
          nextSortOrder := landing.nextSortOrder + 1
          categories := landing.categories ++ [(id, input.category)] }
      have hnew : ∀ x ∈ s.catalogue.menuCategories, x.id ≠ id := hfresh.new n (Nat.le_refl n)
      have hmissing : (c.byName toLowerCase tenantId).lookup (toLowerCase input.category) = none := by
        cases hfound : (c.byName toLowerCase tenantId).lookup (toLowerCase input.category) with
        | none => rfl
        | some other =>
            rw [h.kept _ _ hfound] at hlookup
            cases hlookup
      have hold : ∀ x ∈ c.menuCategories, x ∈ s.catalogue.menuCategories := by
        obtain ⟨created, hcreated, -⟩ := h.ready.landed.categories
        intro x hx
        rw [hcreated]
        exact List.mem_append_left _ hx
      refine ⟨2, id, landing₁, { s with catalogue := Write.land s.catalogue (.createMenuCategory category) },
        rfl, ⟨⟨?_, ?_⟩, ⟨?_, ?_⟩, h.apart, ?_, ?_, ?_⟩, ⟨hfresh.distinct, ?_⟩, rfl, ?_, ?_⟩
      · exact h.ready.landed.addCategory (x := category) rfl (h.ready.indexes.missing _ hlookup)
      · exact h.ready.indexes.addCategory (x := category) rfl
      · change ((s.catalogue.menuCategories ++ [category]).map (·.id)).Nodup
        rw [List.map_append, List.nodup_append]
        refine ⟨h.keyed.ids, List.nodup_singleton _, fun i hi j hj heq => ?_⟩
        obtain ⟨x, hx, rfl⟩ := List.mem_map.mp hi
        exact hnew x hx (heq.trans (List.mem_singleton.mp hj))
      · intro item hitem
        obtain ⟨x, hx, hid⟩ := h.keyed.categories item hitem
        exact ⟨x, List.mem_append_left _ hx, hid⟩
      · intro key other hfound
        change List.lookup key ((toLowerCase input.category, id) :: landing.categoriesByName) = _
        rw [List.lookup_cons]
        split
        next heq =>
          rw [beq_iff_eq.mp heq, hmissing] at hfound
          cases hfound
        next => exact h.kept key other hfound
      · intro key other hnone hfound x hx
        change List.lookup key ((toLowerCase input.category, id) :: landing.categoriesByName) = _ at hfound
        rw [List.lookup_cons] at hfound
        split at hfound
        next =>
          cases hfound
          exact hnew x (hold x hx)
        next => exact h.added key other hnone hfound x hx
      · intro x hx
        rcases List.mem_append.mp hx with hx | hx
        · exact h.wanted x hx
        · exact .inr ⟨input, hinput, by rw [List.mem_singleton.mp hx]⟩
      · intro k hk x hx
        rcases List.mem_append.mp hx with hx | hx
        · exact hfresh.new k (by omega) x hx
        · rw [List.mem_singleton.mp hx]
          intro heq
          have := hfresh.distinct n k heq
          omega
      · exact List.lookup_cons_self
      · exact ⟨category, List.mem_append_right _ List.mem_cons_self, rfl, rfl, rfl⟩

theorem createMenuItem_run (envs : ℕ → Env) (n : ℕ) (s : Store) (item : MenuItem)
    (hfree : ∀ other ∈ s.catalogue.menuItems, ¬(other.archivedAt = none ∧
      other.tenantId = item.tenantId ∧ other.categoryId = item.categoryId ∧ other.name = item.name))
    (g : Unit → Tx β) :
    (createMenuItem item >>= g).run envs n s =
      (g ()).run envs (n + 1) { s with catalogue := Write.land s.catalogue (.createMenuItem item) } := by
  have hcheck : (!s.catalogue.menuItems.any fun other => other.archivedAt = none ∧
      other.tenantId = item.tenantId ∧ other.categoryId = item.categoryId ∧
        other.name = item.name) = true := by
    rw [Bool.not_eq_true', List.any_eq_false]
    exact fun other hother h => hfree other hother (of_decide_eq_true h)
  rw [createMenuItem, Txn.bind_assoc, Txn.run_writeWhen, if_pos hcheck]
  rfl

/-- What the check lets through has no twin on the menu that the import has made so far. -/
theorem Underway.no_twin (h : Underway toLowerCase importId tenantId items done landing c c')
    (hkeyed : Keyed c) {id itemId : ℕ}
    (hlookup : landing.categoriesByName.lookup (toLowerCase input.category) = some id)
    (hcategory : Categorized toLowerCase tenantId input id c')
    (hmenu : reasonFor toLowerCase (c.onMenu toLowerCase tenantId) (c.byName toLowerCase tenantId) seen
      input ≠ some .onMenu)
    (hseen : ∀ earlier ∈ done, ¬(toLowerCase earlier.category = toLowerCase input.category ∧
      toLowerCase earlier.name = toLowerCase input.name)) :
    ∀ b ∈ c'.menuItems, ¬Twins toLowerCase b (itemRow importId tenantId id itemId input) := by
  rintro b hb ⟨hlive, -, htenant, hwhere, hname⟩
  obtain ⟨created, hcreated, hshows⟩ := h.ready.landed.items
  rw [hcreated] at hb
  rcases List.mem_append.mp hb with hb | hb
  · cases hold : (c.byName toLowerCase tenantId).lookup (toLowerCase input.category) with
    | some old =>
        have hsame := h.kept _ _ hold
        rw [hlookup] at hsame
        refine hmenu (reasonFor_onMenu_iff.mpr ⟨old, hold, List.mem_map.mpr ⟨b, ?_, ?_⟩⟩)
        · exact List.mem_filter.mpr ⟨hb, decide_eq_true ⟨htenant, hlive⟩⟩
        · exact Prod.ext (hwhere.trans (Option.some.inj hsame)) hname
    | none =>
        obtain ⟨category, hmem, hid⟩ := hkeyed.categories b hb
        exact h.added _ _ hold hlookup category hmem (hid.trans hwhere)
  · obtain ⟨earlier, hearlier, hshow⟩ := Serial.exists_right hshows.flip hb
    obtain ⟨x, hx, -, hxid, hxname⟩ := hshow.category
    obtain ⟨y, hy, -, hyid, hyname⟩ := hcategory
    have hxy : x = y := List.inj_on_of_nodup_map h.keyed.ids hx hy (hxid.trans (hwhere.trans hyid.symm))
    refine hseen earlier hearlier ⟨?_, ?_⟩
    · rw [← hxname, ← hyname, hxy]
    · rw [← hshow.name]
      exact hname

/-- One item more is landed. -/
theorem commitItem_run (h : Underway toLowerCase importId tenantId items done landing c s.catalogue)
    (hkeyed : Keyed c) (hfresh : Fresh envs n s.catalogue) (hinput : input ∈ items)
    (hmenu : reasonFor toLowerCase (c.onMenu toLowerCase tenantId) (c.byName toLowerCase tenantId) seen
      input ≠ some .onMenu)
    (hseen : ∀ earlier ∈ done, ¬(toLowerCase earlier.category = toLowerCase input.category ∧
      toLowerCase earlier.name = toLowerCase input.name)) (g : Landing → Tx β) :
    ∃ k landing₁ s₁,
      (commitItem toLowerCase importId tenantId landing input >>= g).run envs n s =
        (g landing₁).run envs (n + k) s₁ ∧
      Underway toLowerCase importId tenantId items (done ++ [input]) landing₁ c s₁.catalogue ∧
      Fresh envs (n + k) s₁.catalogue := by
  rw [commitItem, Txn.bind_assoc]
  obtain ⟨k, id, landing₁, s₁, hrun, h₁, hfresh₁, hsame, hlookup, hcategory⟩ :=
    categoryOf_run h hfresh hinput fun r => (do
      let id ← Txn.uuid
      createMenuItem
        ⟨id, tenantId, r.1, input.name, input.shortName, none, some (importId, input.id)⟩
      let priceId ← Txn.uuid
      let price : ItemPrice := ⟨priceId, tenantId, id, input.priceMinor, input.currency⟩
      Txn.exec (fun _ => []) fun _ => [.createItemPrice price]
      let committed := ⟨id, input.name, input.shortName, r.1, price⟩
      pure { r.2 with items := r.2.items ++ [committed] } : Tx Landing) >>= g
  let itemId := (envs (n + k)).uuid
  let priceId := (envs (n + k + 1 + 1)).uuid
  let row := itemRow importId tenantId id itemId input
  let price : ItemPrice := ⟨priceId, tenantId, itemId, input.priceMinor, input.currency⟩
  have hno : ∀ b ∈ s₁.catalogue.menuItems, ¬Twins toLowerCase b row :=
    h₁.no_twin hkeyed hlookup hcategory hmenu hseen
  have hfree : ∀ other ∈ s₁.catalogue.menuItems, ¬(other.archivedAt = none ∧
      other.tenantId = row.tenantId ∧ other.categoryId = row.categoryId ∧ other.name = row.name) :=
    fun other hother ⟨hlive, htenant, hwhere, hname⟩ =>
      hno other hother ⟨hlive, rfl, htenant, hwhere, congrArg toLowerCase hname⟩
  have hitem := createMenuItem_run envs (n + k + 1) s₁ row hfree fun _ => (do
      let priceId ← Txn.uuid
      let price : ItemPrice := ⟨priceId, tenantId, itemId, input.priceMinor, input.currency⟩
      Txn.exec (fun _ => []) fun _ => [.createItemPrice price]
      let committed := ⟨itemId, input.name, input.shortName, id, price⟩
      pure { landing₁ with items := landing₁.items ++ [committed] } : Tx Landing) >>= g
  rw [← Txn.bind_assoc] at hitem
  let c₂ := Write.land (Write.land s₁.catalogue (.createMenuItem row)) (.createItemPrice price)
  refine ⟨k + 4, { landing₁ with items :=
    landing₁.items ++ [⟨itemId, input.name, input.shortName, id, price⟩] },
    { s₁ with catalogue := c₂ }, hrun.trans hitem, ?_, ?_⟩
  · obtain ⟨created, hcreated, hold, hnew⟩ := h₁.apart
    refine ⟨⟨h₁.ready.landed.addItem hcategory, h₁.ready.indexes.found, h₁.ready.indexes.missing⟩,
      ⟨h₁.keyed.ids, fun item hitem => ?_⟩, ⟨created ++ [row], ?_, fun a ha b hb => ?_, ?_⟩, h₁.kept,
      h₁.added, h₁.wanted⟩
    · rcases List.mem_append.mp hitem with hitem | hitem
      · exact h₁.keyed.categories item hitem
      · obtain ⟨x, hx, -, hxid, -⟩ := hcategory
        rw [List.mem_singleton.mp hitem]
        exact ⟨x, hx, hxid⟩
    · change s₁.catalogue.menuItems ++ [row] = _
      rw [hcreated, List.append_assoc]
    · rcases List.mem_append.mp hb with hb | hb
      · exact hold a ha b hb
      · rw [List.mem_singleton.mp hb]
        exact hno a (hcreated ▸ List.mem_append_left _ ha)
    · rw [List.pairwise_append]
      refine ⟨hnew, List.pairwise_singleton _ _, fun a ha b hb => ?_⟩
      rw [List.mem_singleton.mp hb]
      exact hno a (hcreated ▸ List.mem_append_right _ ha)
  · have hlater := hfresh₁.later (Nat.le_add_right (n + k) 4)
    exact ⟨hlater.distinct, hlater.new⟩

/-- What no report says of an item after those of `pre`. -/
def Unreported (toLowerCase : String → String) (c : Catalogue) (tenantId : ℕ) (pre : List DraftItem)
    (item : DraftItem) : Prop :=
  (∀ seen, reasonFor toLowerCase (c.onMenu toLowerCase tenantId) (c.byName toLowerCase tenantId) seen
    item ≠ some .onMenu) ∧
  ∀ earlier ∈ pre, ¬(toLowerCase earlier.category = toLowerCase item.category ∧
    toLowerCase earlier.name = toLowerCase item.name)

/-- All the items that are left are landed. -/
theorem commitEach_run (hkeyed : Keyed c) {left : List DraftItem}
    (h : Underway toLowerCase importId tenantId items done landing c s.catalogue)
    (hfresh : Fresh envs n s.catalogue) (hleft : ∀ item ∈ left, item ∈ items)
    (hnone : ∀ pre item post, left = pre ++ item :: post →
      Unreported toLowerCase c tenantId (done ++ pre) item) :
    ∃ landing₁ s₁, (commitEach toLowerCase importId tenantId landing left).run envs n s =
        .ok (landing₁, s₁) ∧
      Underway toLowerCase importId tenantId items (done ++ left) landing₁ c s₁.catalogue := by
  induction left generalizing done landing n s with
  | nil => exact ⟨landing, s, rfl, (List.append_nil done).symm ▸ h⟩
  | cons input left ih =>
      obtain ⟨hmenu, hseen⟩ := hnone [] input left rfl
      rw [List.append_nil] at hseen
      obtain ⟨k, landing₁, s₁, hrun, h₁, hfresh₁⟩ := commitItem_run h hkeyed hfresh
        (hleft input List.mem_cons_self) (hmenu []) hseen
        fun landing => commitEach toLowerCase importId tenantId landing left
      obtain ⟨landing₂, s₂, hrest, h₂⟩ := ih h₁ hfresh₁
        (fun item hitem => hleft item (List.mem_cons_of_mem input hitem))
        fun pre item post heq => by
          rw [List.append_assoc]
          exact hnone (input :: pre) item post (congrArg (input :: ·) heq)
      refine ⟨landing₂, s₂, hrun.trans hrest, ?_⟩
      rw [List.append_cons]
      exact h₂

/-- A draft of which nothing is reported has no item that the menu or the draft has before. -/
theorem unreported_of_nil (h : duplicatesAmong toLowerCase (c.onMenu toLowerCase tenantId)
    (c.byName toLowerCase tenantId) [] items = []) (pre : List DraftItem) (item : DraftItem)
    (post : List DraftItem) (heq : items = pre ++ item :: post) :
    Unreported toLowerCase c tenantId pre item := by
  have hnone : reasonFor toLowerCase (c.onMenu toLowerCase tenantId) (c.byName toLowerCase tenantId)
      ((pre.map (draftKey toLowerCase)).reverse ++ []) item = none := by
    cases hreason : reasonFor toLowerCase (c.onMenu toLowerCase tenantId)
        (c.byName toLowerCase tenantId) ((pre.map (draftKey toLowerCase)).reverse ++ []) item with
    | none => rfl
    | some reason =>
        have hmem := mem_duplicatesAmong.mpr ⟨pre, item, post, reason, heq, hreason, rfl⟩
        rw [h] at hmem
        exact absurd hmem List.not_mem_nil
  obtain ⟨hmenu, hkey⟩ := reasonFor_eq_none_iff.mp hnone
  refine ⟨fun seen hseen => hmenu ?_, fun earlier hearlier hsame => hkey ?_⟩
  · exact reasonFor_onMenu_iff.mpr (reasonFor_onMenu_iff.mp hseen)
  · rw [List.append_nil, List.mem_reverse, List.mem_map]
    exact ⟨earlier, hearlier, by rw [draftKey, draftKey, hsame.1, hsame.2]⟩

/-! ### The check and the import -/

variable (toLowerCase) in
/-- What is promised of the check: of what it reports every item clashes, and where it reports nothing the import
goes through, lands every item once, makes the categories that were missing and no other, and
leaves no new twins. -/
structure CheckAgrees (importId tenantId : ℕ) (items : List DraftItem) (s : Store) : Prop where
  clashes : ∀ envs n duplicates s', (draftDuplicates toLowerCase tenantId items).run envs n s =
    .ok (duplicates, s') → ∀ d ∈ duplicates, ∃ pre item post, items = pre ++ item :: post ∧
      d.id = item.id ∧ s.catalogue.Clashes toLowerCase tenantId pre item
  lands : ∀ envs n s', Fresh envs n s.catalogue →
    (draftDuplicates toLowerCase tenantId items).run envs n s = .ok ([], s') →
    ∃ landing s₁, (commitItems toLowerCase importId tenantId items).run envs n s = .ok (landing, s₁) ∧
      Landed toLowerCase importId tenantId items s.catalogue s₁.catalogue ∧
      (∀ category ∈ s₁.catalogue.menuCategories, category ∈ s.catalogue.menuCategories ∨
        ∃ item ∈ items, toLowerCase item.category = toLowerCase category.name) ∧
      NoNewTwins toLowerCase s.catalogue s₁.catalogue

variable (toLowerCase) in
/-- Where two items of a draft are one to the check though they differ in category or name, the later of
them clashes anyhow. -/
def KeysTell (tenantId : ℕ) (items : List DraftItem) (c : Catalogue) : Prop :=
  ∀ pre item post, items = pre ++ item :: post → ∀ earlier ∈ pre,
    draftKey toLowerCase earlier = draftKey toLowerCase item →
    toLowerCase earlier.category ≠ toLowerCase item.category ∨
      toLowerCase earlier.name ≠ toLowerCase item.name →
    c.Clashes toLowerCase tenantId pre item

/-- The check and the import agree on a draft just when the joined texts tell its items apart. -/
theorem check_agrees_iff (hkeyed : Keyed s.catalogue) (hids : (items.map (·.id)).Nodup) :
    CheckAgrees toLowerCase importId tenantId items s ↔
      KeysTell toLowerCase tenantId items s.catalogue := by
  constructor
  · intro h pre item post heq earlier hearlier hkey _
    have hseen : draftKey toLowerCase item ∈ (pre.map (draftKey toLowerCase)).reverse ++ [] := by
      rw [List.append_nil, List.mem_reverse]
      exact hkey ▸ List.mem_map_of_mem hearlier
    have hreported : ∃ reason, reasonFor toLowerCase (s.catalogue.onMenu toLowerCase tenantId)
        (s.catalogue.byName toLowerCase tenantId) ((pre.map (draftKey toLowerCase)).reverse ++ []) item =
          some reason := by
      refine Option.ne_none_iff_exists'.mp fun hnone => ?_
      exact (reasonFor_eq_none_iff.mp hnone).2 hseen
    obtain ⟨reason, hreason⟩ := hreported
    obtain ⟨pre', item', post', heq', hid, hclashes⟩ := h.clashes (fun _ => ⟨0, 0⟩) 0 _ _
      (draftDuplicates_run _ 0 s) _ (mem_duplicatesAmong.mpr ⟨pre, item, post, reason, heq, hreason, rfl⟩)
    -- An identifier stands in one place of the draft.
    have hplace : pre = pre' ∧ item :: post = item' :: post' := by
      have hlength : pre.length = pre'.length := by
        have hget : (items.map (·.id))[pre.length]? = some item.id := by
          rw [heq, List.map_append, List.getElem?_append_right (by simp)]
          simp
        have hget' : (items.map (·.id))[pre'.length]? = some item'.id := by
          rw [heq', List.map_append, List.getElem?_append_right (by simp)]
          simp
        have hlt := (List.getElem?_eq_some_iff.mp hget).1
        exact (List.getElem?_inj hlt hids).mp (hget.trans ((congrArg some hid).trans hget'.symm))
      exact List.append_inj (heq.symm.trans heq') hlength
    obtain ⟨rfl, htail⟩ := hplace
    obtain ⟨rfl, -⟩ := List.cons.inj htail
    exact hclashes
  · intro htell
    constructor
    · intro envs n duplicates s' hrun d hd
      rw [draftDuplicates_run] at hrun
      cases hrun
      obtain ⟨pre, item, post, reason, heq, hreason, rfl⟩ := mem_duplicatesAmong.mp hd
      refine ⟨pre, item, post, heq, rfl, ?_⟩
      cases reason with
      | onMenu => exact clashes_of_onMenu hreason
      | repeated =>
          have hkey : draftKey toLowerCase item ∈ pre.map (draftKey toLowerCase) := by
            by_contra hnot
            have hnone := reasonFor_eq_none_iff.mpr
              ⟨by rw [hreason]; nofun, by rwa [List.append_nil, List.mem_reverse]⟩
            rw [hreason] at hnone
            cases hnone
          obtain ⟨earlier, hearlier, hsame⟩ := List.mem_map.mp hkey
          by_cases hpair : toLowerCase earlier.category = toLowerCase item.category ∧
              toLowerCase earlier.name = toLowerCase item.name
          · exact .inr ⟨earlier, hearlier, hpair⟩
          · exact htell pre item post heq earlier hearlier hsame (not_and_or.mp hpair)
    · intro envs n s' hfresh hrun
      rw [draftDuplicates_run] at hrun
      have hnil := (Prod.mk.inj (Except.ok.inj hrun)).1
      have hstart : Underway toLowerCase importId tenantId items []
          ⟨s.catalogue.byName toLowerCase tenantId,
            (s.catalogue.menuCategories.filter (·.tenantId = tenantId)).length, [], []⟩
          s.catalogue s.catalogue := by
        refine ⟨⟨.nil, indexes_categoriesByName s.catalogue tenantId⟩, hkeyed,
          ⟨[], (List.append_nil _).symm, nofun, .nil⟩, fun _ _ h => h, fun key id hnone hsome => ?_,
          fun _ h => .inl h⟩
        rw [hnone] at hsome
        cases hsome
      obtain ⟨landing, s₁, hcommit, h⟩ := commitEach_run hkeyed hstart
        (hfresh.later (Nat.le_add_right n 1)) (fun _ h => h) fun pre item post heq =>
          unreported_of_nil hnil pre item post heq
      exact ⟨landing, s₁, hcommit, h.ready.landed, h.wanted, h.apart⟩

/-- Different texts tell the items apart. -/
theorem keysTell_of_nodup (h : (items.map (draftKey toLowerCase)).Nodup) :
    KeysTell toLowerCase tenantId items c := by
  rintro pre item post rfl earlier hearlier hkey -
  rw [List.map_append, List.nodup_append] at h
  exact absurd hkey (h.2.2 _ (List.mem_map_of_mem hearlier) _ (List.mem_map_of_mem List.mem_cons_self))

end Check

/-- The lower case of plain letters. -/
def lowered (text : String) : String := String.ofList (text.toList.map Char.toLower)

/-- A menu with one category and an archived dish. -/
def archivedDal : Store :=
  ⟨⟨[⟨5, 7, "Mains", 1⟩], [⟨9, 7, 5, "Dal", "Dal", some 3, none⟩], []⟩, [], [], []⟩

/-- The dish once more, and another with the bar in its name that stands between the two. -/
theorem check_agrees_sample : CheckAgrees lowered 1 7
    [⟨21, "dal", "Dal", "MAINS", 900, "INR"⟩, ⟨22, "Thali|Roti", "Thali", "Mains", 950, "INR"⟩]
    archivedDal := by
  refine (check_agrees_iff ⟨by decide, by decide⟩ (by decide)).mpr (keysTell_of_nodup ?_)
  decide +kernel

/-- A roll of the vegetable starters, and one that has the starters in its name. -/
def twoRolls : List DraftItem :=
  [⟨21, "Roll", "Roll", "Veg|Starters", 900, "INR"⟩, ⟨22, "Starters|Roll", "Roll", "Veg", 950, "INR"⟩]

/-- The second is reported as repeated, on an empty menu. -/
theorem roll_reported_as_repeated :
    (draftDuplicates lowered 7 twoRolls).run (fun _ => ⟨0, 0⟩) 0 ⟨⟨[], [], []⟩, [], [], []⟩ =
        .ok ([⟨22, "Starters|Roll", "Veg", .repeated⟩], ⟨⟨[], [], []⟩, [], [], []⟩) ∧
      ¬CheckAgrees lowered 1 7 twoRolls ⟨⟨[], [], []⟩, [], [], []⟩ := by
  have hrun : (draftDuplicates lowered 7 twoRolls).run (fun _ => ⟨0, 0⟩) 0
      ⟨⟨[], [], []⟩, [], [], []⟩ =
        .ok ([⟨22, "Starters|Roll", "Veg", .repeated⟩], ⟨⟨[], [], []⟩, [], [], []⟩) := by
    rw [draftDuplicates_run]
    decide +kernel
  refine ⟨hrun, fun h => ?_⟩
  obtain ⟨pre, item, post, heq, hid, hclashes⟩ := h.clashes _ _ _ _ hrun _ List.mem_cons_self
  rcases hclashes with ⟨category, hcategory, -⟩ | ⟨earlier, hearlier, hcategory, -⟩
  · exact absurd hcategory List.not_mem_nil
  · have hboth : ∀ x ∈ twoRolls, ∀ y ∈ twoRolls,
        lowered x.category = lowered y.category → x.id = y.id := by decide +kernel
    have hmem : earlier ∈ twoRolls := heq ▸ List.mem_append_left _ hearlier
    have hitem : item ∈ twoRolls := heq ▸ List.mem_append_right _ List.mem_cons_self
    have hsame := hboth earlier hmem item hitem hcategory
    have hids : (twoRolls.map (·.id)).Nodup := by decide
    rw [heq, List.map_append, List.nodup_append] at hids
    exact hids.2.2 _ (List.mem_map_of_mem hearlier) _ (List.mem_map_of_mem List.mem_cons_self) hsame

end RestiqBackend.MenuImport
