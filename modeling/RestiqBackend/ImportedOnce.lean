import RestiqBackend.MenuImport
import RestiqBackend.Serial

/-!
What overlapping commits and patches of one import draft do (`src/admin/menu-import`).

Two commits that have both read the draft and the categories land it twice when it names a
category that is new, since each makes its own; a patch that is answered while a commit is
under way changes a draft that has been landed as it was. As long as every transaction that
commits finds the draft as it read it, an import lands once, as the patches left it.
-/

namespace RestiqBackend.MenuImport

open ReadCommitted

/-! ### What is landed -/

/-- The live items that were made from an item of the draft. -/
def Catalogue.madeFrom (c : Catalogue) (importId itemId : ℕ) : List MenuItem :=
  c.menuItems.filter fun item =>
    item.source = some (importId, itemId) ∧ item.archivedAt = none

/-- The events of the transactions that committed an import. -/
def Store.imports (s : Store) (importId : ℕ) : List AuditEvent :=
  s.auditEvents.filter fun event => event.action = "menu.imported" ∧ event.importId = importId

/-- The draft is there and was not committed. -/
def Store.Open (s : Store) (importId : ℕ) : Prop :=
  ∃ draft, s.draft importId = some draft ∧ draft.status = .draft

/-- The run's condition: a transaction that commits finds the draft as it read it. -/
def undisturbed (S : System Store Key MenuImportDraft Write Failure) :
    Event Store Key MenuImportDraft Write Failure → Bool
  | .commit t => (S.session t).all fun x => x.done.reads.all fun draft =>
      S.store.draft draft.id = some draft
  | _ => true

section Lower

variable (toLowerCase : String → String)

/-- The names of a tenant's categories, as an import compares them. -/
def Catalogue.categoryKeys (c : Catalogue) (tenantId : ℕ) : List String :=
  (c.menuCategories.filter (·.tenantId = tenantId)).map (toLowerCase ·.name)

/-- A row of the menu shows an item of the draft: its names, its category and its price. -/
structure Shows (c : Catalogue) (importId tenantId : ℕ) (input : DraftItem) (item : MenuItem) :
    Prop where
  source : item.source = some (importId, input.id)
  live : item.archivedAt = none
  tenant : item.tenantId = tenantId
  name : item.name = input.name
  shortName : item.shortName = input.shortName
  category : ∃ category ∈ c.menuCategories, category.tenantId = tenantId ∧
    category.id = item.categoryId ∧ toLowerCase category.name = toLowerCase input.category
  price : ∃ price ∈ c.itemPrices, price.itemId = item.id ∧ price.priceMinor = input.priceMinor ∧
    price.currency = input.currency

/-- The catalogue before and after `inputs` were landed in it: every item once, in its order,
and a category for each of the names that it did not have. -/
structure Landed (importId tenantId : ℕ) (inputs : List DraftItem) (c c' : Catalogue) :
    Prop where
  items : ∃ created, c'.menuItems = c.menuItems ++ created ∧
    List.Forall₂ (Shows toLowerCase c' importId tenantId) inputs created
  categories : ∃ created : List MenuCategory, c'.menuCategories = c.menuCategories ++ created ∧
    (∀ category ∈ created, category.tenantId = tenantId ∧
      toLowerCase category.name ∉ c.categoryKeys toLowerCase tenantId) ∧
    (created.map (toLowerCase ·.name)).Nodup

/-- Where an import stands: its draft is what the answered patches made of the one that was
uploaded, and either it waits and nothing has changed, or it was landed as it stands, once. -/
structure Standing (uploaded : MenuImportDraft) (s₀ s : Store) (draft : MenuImportDraft) :
    Prop where
  found : s.draft uploaded.id = some draft
  tenant : draft.tenantId = uploaded.tenantId
  patched : s.patches.foldlM patchItems uploaded.items = .ok draft.items
  nodup : (draft.items.map (·.id)).Nodup
  waiting : draft.status = .draft → s.catalogue = s₀.catalogue ∧ s.imports uploaded.id = []
  landed : draft.status = .committed → (s.imports uploaded.id).length = 1 ∧
    Landed toLowerCase uploaded.id uploaded.tenantId draft.items s₀.catalogue s.catalogue

/-- What is promised of an import: each of its items is on the menu at most once, each new name
of a category has at most one category, at most one transaction committed it, and what it
landed are the items that the answered patches left. -/
structure LandsOnce (uploaded : MenuImportDraft) (s₀ s : Store) : Prop where
  item_once : ∀ itemId, (s.catalogue.madeFrom uploaded.id itemId).length ≤ 1
  category_once : ∀ key, key ∉ s₀.catalogue.categoryKeys toLowerCase uploaded.tenantId →
    (s.catalogue.categoryKeys toLowerCase uploaded.tenantId).count key ≤ 1
  committed_once : (s.imports uploaded.id).length ≤ 1
  landed : s.imports uploaded.id ≠ [] → ∃ items,
    s.patches.foldlM patchItems uploaded.items = .ok items ∧
    Landed toLowerCase uploaded.id uploaded.tenantId items s₀.catalogue s.catalogue

/-- A store into which a draft was just uploaded. -/
structure Uploaded (uploaded : MenuImportDraft) (s : Store) : Prop where
  found : s.draft uploaded.id = some uploaded
  status : uploaded.status = .draft
  /-- The items of a draft are numbered as they are read off the file. -/
  ids : (uploaded.items.map (·.id)).Nodup
  unmade : ∀ item ∈ s.catalogue.menuItems, ∀ itemId, item.source ≠ some (uploaded.id, itemId)
  imports : s.imports uploaded.id = []
  patches : s.patches = []

/-- The transactions of the calls on one draft. -/
def IsCall (importId : ℕ) (p : Tx Unit) : Prop := ∃ call : Call, p = call.prog toLowerCase importId

/-! ### Patches -/

variable {toLowerCase} {uploaded : MenuImportDraft} {s₀ s s' : Store} {l : TxFootprint}
  {c c' : Catalogue} {importId tenantId : ℕ}

theorem setById_nodup {byId : List DraftItem} (h : (byId.map (·.id)).Nodup) (item : DraftItem) :
    ((setById byId item).map (·.id)).Nodup := by
  unfold setById
  split
  next =>
    have hids : (byId.map fun old => if old.id = item.id then item else old).map (·.id) =
        byId.map (·.id) := by
      rw [List.map_map]
      refine List.map_congr_left fun old _ => ?_
      simp only [Function.comp_apply]
      split
      next heq => exact heq.symm
      next => rfl
    rw [hids]
    exact h
  next hnew =>
    rw [List.map_append, List.nodup_append]
    refine ⟨h, List.nodup_singleton _, fun id hid id' hid' heq => ?_⟩
    obtain ⟨old, hold, rfl⟩ := List.mem_map.mp hid
    rw [List.map_singleton, List.mem_singleton] at hid'
    exact hnew (List.any_eq_true.mpr ⟨old, hold, decide_eq_true (heq.trans hid')⟩)

theorem byId_nodup (items : List DraftItem) {byId : List DraftItem}
    (h : (byId.map (·.id)).Nodup) : ((items.foldl setById byId).map (·.id)).Nodup := by
  induction items generalizing byId with
  | nil => exact h
  | cons item items ih => exact ih (setById_nodup h item)

theorem editById_nodup (byId : List DraftItem) (edit : PatchDraftItemDto) (byId' : List DraftItem)
    (hedit : editById byId edit = .ok byId') (h : (byId.map (·.id)).Nodup) :
    (byId'.map (·.id)).Nodup := by
  unfold editById at hedit
  split at hedit
  · cases hedit
    have hids : (byId.map fun item => if item.id = edit.id then applyEdit edit item else item).map
        (·.id) = byId.map (·.id) := by
      rw [List.map_map]
      refine List.map_congr_left fun item _ => ?_
      simp only [Function.comp_apply]
      split <;> rfl
    rw [hids]
    exact h
  · cases hedit

theorem deleteById_nodup (byId : List DraftItem) (id : ℕ) (byId' : List DraftItem)
    (hdelete : deleteById byId id = .ok byId') (h : (byId.map (·.id)).Nodup) :
    (byId'.map (·.id)).Nodup := by
  unfold deleteById at hdelete
  split at hdelete
  · cases hdelete
    exact h.sublist (List.filter_sublist.map _)
  · cases hdelete

/-- A patch leaves every item once, whatever it was given. -/
theorem patchItems_nodup {items items' : List DraftItem} {dto : PatchMenuImportDraftDto}
    (h : patchItems items dto = .ok items') : (items'.map (·.id)).Nodup := by
  have hmap : ((items.foldl setById []).map (·.id)).Nodup := byId_nodup items List.nodup_nil
  unfold patchItems at h
  cases hedits : dto.items.foldlM editById (items.foldl setById []) with
  | error e =>
      rw [hedits] at h
      cases h
  | ok byId =>
      rw [hedits] at h
      have hedited : (byId.map (·.id)).Nodup :=
        Serial.foldlM_keeps (I := fun byId => (byId.map (·.id)).Nodup)
          (fun byId edit _ => editById_nodup byId edit) hedits hmap
      exact Serial.foldlM_keeps (I := fun byId => (byId.map (·.id)).Nodup)
        (fun byId id _ => deleteById_nodup byId id) h hedited

/-! ### Landing an item -/

theorem Shows.mono {input : DraftItem} {item : MenuItem}
    (h : Shows toLowerCase c importId tenantId input item)
    (hcategories : ∀ x ∈ c.menuCategories, x ∈ c'.menuCategories)
    (hprices : ∀ x ∈ c.itemPrices, x ∈ c'.itemPrices) :
    Shows toLowerCase c' importId tenantId input item :=
  { h with
    category := by
      obtain ⟨x, hx, hshows⟩ := h.category
      exact ⟨x, hcategories x hx, hshows⟩
    price := by
      obtain ⟨x, hx, hshows⟩ := h.price
      exact ⟨x, hprices x hx, hshows⟩ }

theorem Landed.nil : Landed toLowerCase importId tenantId [] c c where
  items := ⟨[], (List.append_nil _).symm, .nil⟩
  categories := ⟨[], (List.append_nil _).symm, fun _ h => absurd h List.not_mem_nil,
    List.nodup_nil⟩

theorem mem_categoryKeys {key : String} : key ∈ c.categoryKeys toLowerCase tenantId ↔
    ∃ x ∈ c.menuCategories, x.tenantId = tenantId ∧ toLowerCase x.name = key := by
  simp [Catalogue.categoryKeys, and_assoc]

theorem Landed.addCategory {inputs : List DraftItem} {x : MenuCategory}
    (h : Landed toLowerCase importId tenantId inputs c c') (htenant : x.tenantId = tenantId)
    (hnew : toLowerCase x.name ∉ c'.categoryKeys toLowerCase tenantId) :
    Landed toLowerCase importId tenantId inputs c (Write.land c' (.createMenuCategory x)) := by
  obtain ⟨items, hitems, hshows⟩ := h.items
  obtain ⟨created, hcreated, hkeys, hnodup⟩ := h.categories
  have hnot : ∀ y ∈ c'.menuCategories, y.tenantId = tenantId →
      toLowerCase y.name ≠ toLowerCase x.name :=
    fun y hy hy' heq => hnew (mem_categoryKeys.mpr ⟨y, hy, hy', heq⟩)
  rw [hcreated] at hnot
  refine ⟨⟨items, hitems, hshows.imp fun _ _ h => h.mono
    (fun _ => List.mem_append_left _) fun _ => id⟩, created ++ [x], ?_, fun y hy => ?_, ?_⟩
  · change c'.menuCategories ++ [x] = _
    rw [hcreated, List.append_assoc]
  · rcases List.mem_append.mp hy with hy | hy
    · exact hkeys y hy
    · obtain rfl := List.mem_singleton.mp hy
      refine ⟨htenant, fun hmem => ?_⟩
      obtain ⟨z, hz, htenant', heq⟩ := mem_categoryKeys.mp hmem
      exact hnot z (List.mem_append_left _ hz) htenant' heq
  · rw [List.map_append, List.nodup_append]
    refine ⟨hnodup, List.nodup_singleton _, fun key hkey key' hkey' heq => ?_⟩
    obtain ⟨y, hy, rfl⟩ := List.mem_map.mp hkey
    rw [List.map_singleton, List.mem_singleton] at hkey'
    exact hnot y (List.mem_append_right _ hy) (hkeys y hy).1 (heq.trans hkey')

/-- The row of an item, as `commitItem` creates it. -/
def itemRow (importId tenantId categoryId id : ℕ) (input : DraftItem) : MenuItem :=
  ⟨id, tenantId, categoryId, input.name, input.shortName, none, some (importId, input.id)⟩

theorem Landed.addItem {inputs : List DraftItem} {input : DraftItem} {id categoryId priceId : ℕ}
    (h : Landed toLowerCase importId tenantId inputs c c')
    (hcategory : ∃ x ∈ c'.menuCategories, x.tenantId = tenantId ∧ x.id = categoryId ∧
      toLowerCase x.name = toLowerCase input.category) :
    Landed toLowerCase importId tenantId (inputs ++ [input]) c
      (Write.land (Write.land c' (.createMenuItem (itemRow importId tenantId categoryId id input)))
        (.createItemPrice ⟨priceId, tenantId, id, input.priceMinor, input.currency⟩)) := by
  obtain ⟨items, hitems, hshows⟩ := h.items
  refine ⟨⟨items ++ [itemRow importId tenantId categoryId id input], ?_,
    List.rel_append (hshows.imp fun _ _ h => h.mono (fun _ hx => hx)
      fun _ => List.mem_append_left _) (.cons ?_ .nil)⟩, h.categories⟩
  · change c'.menuItems ++ [_] = _
    rw [hitems, List.append_assoc]
  · exact ⟨rfl, rfl, rfl, rfl, rfl, hcategory,
      ⟨_, List.mem_append_right _ List.mem_cons_self, rfl, rfl, rfl⟩⟩

/-! ### The discipline -/

/-- The writes that land something. -/
def Write.onMenu : Write → Bool
  | .createMenuCategory _ => true
  | .createMenuItem _ => true
  | .createItemPrice _ => true
  | _ => false

theorem apply_catalogue (s : Store) (w : Write) :
    (WriteTo.apply w s : Store).catalogue = w.land s.catalogue := by
  cases w <;> rfl

theorem applyAll_catalogue (ws : List Write) (s : Store) :
    (applyAll ws s).catalogue = ws.foldl Write.land s.catalogue := by
  induction ws generalizing s with
  | nil => rfl
  | cons w ws ih => rw [applyAll_cons, ih, apply_catalogue, List.foldl_cons]

/-- What is landed leaves the drafts, the events and the patches alone. -/
theorem applyAll_onMenu {ws : List Write} (h : ∀ w ∈ ws, w.onMenu = true) (s : Store) :
    applyAll ws s = { s with catalogue := (applyAll ws s).catalogue } := by
  have hframe : (fun s : Store => (s.menuImportDrafts, s.auditEvents, s.patches)) (applyAll ws s) =
      (s.menuImportDrafts, s.auditEvents, s.patches) := by
    refine applyAll_frame (fun s : Store => (s.menuImportDrafts, s.auditEvents, s.patches))
      (fun w hw s => ?_) s
    have hmenu := h w hw
    cases w <;> first | rfl | cases hmenu
  obtain ⟨hdrafts, hevents, hpatches⟩ : (applyAll ws s).menuImportDrafts = s.menuImportDrafts ∧
      (applyAll ws s).auditEvents = s.auditEvents ∧ (applyAll ws s).patches = s.patches := by
    simpa using hframe
  generalize applyAll ws s = s' at hdrafts hevents hpatches
  obtain ⟨catalogue, drafts, events, patches⟩ := s'
  subst hdrafts hevents hpatches
  rfl

variable (toLowerCase uploaded s₀) in
/-- Nothing is landed but by committing the draft, and a committed draft stays committed. -/
def discipline : Discipline Store Key MenuImportDraft Write where
  inv s := ∃ draft, Standing toLowerCase uploaded s₀ s draft
  guar s s' := s'.Open uploaded.id → s.Open uploaded.id ∧ s'.catalogue = s.catalogue
  keeps _ _ _ := True
  heeds _ _ _ := True
  admits _ _ _ := True
  lands l s := ∀ draft ∈ l.reads, s.draft draft.id = some draft
  ends _ _ := True
  guar_refl _ h := ⟨h, rfl⟩
  guar_trans _ _ _ h h' hopen := by
    obtain ⟨hopen', heq⟩ := h' hopen
    obtain ⟨hopen'', heq'⟩ := h hopen'
    exact ⟨hopen'', heq.trans heq'⟩
  keeps_refl _ _ := trivial
  keeps_trans _ _ _ _ _ _ := trivial
  heeds_refl _ _ := trivial
  heeds_trans _ _ _ _ _ _ := trivial

/-- Where a commit has got to: it has read the draft and written to the menu only, and what its
writes make of the catalogue holds for as long as nobody else has committed the draft. -/
def During (draft : MenuImportDraft) (Ψ : Catalogue → Catalogue → Prop) (l : TxFootprint)
    (s : Store) : Prop :=
  l.reads = [draft] ∧ (∀ w ∈ l.writes, w.onMenu = true) ∧
    (s.Open draft.id → Ψ s.catalogue (l.writes.foldl Write.land s.catalogue))

variable {draft : MenuImportDraft} {Ψ Ψ' : Catalogue → Catalogue → Prop}

theorem during_stable (hid : draft.id = uploaded.id) (Ψ : Catalogue → Catalogue → Prop) :
    (discipline toLowerCase uploaded s₀).Stable (During draft Ψ) := by
  intro l s s' hrely ⟨hreads, hmenu, hΨ⟩
  refine ⟨hreads, hmenu, fun hopen => ?_⟩
  obtain ⟨hopen', heq⟩ := hrely.guar (hid ▸ hopen)
  rw [heq]
  exact hΨ (hid ▸ hopen')

theorem During.add (h : During draft Ψ l s) {w : Write} (hw : w.onMenu = true) {locks : List Key}
    (hΨ : ∀ c c', Ψ c c' → Ψ' c (w.land c')) : During draft Ψ' (l.add ⟨locks, [], [w]⟩) s := by
  obtain ⟨hreads, hmenu, h⟩ := h
  refine ⟨by rw [Footprint.add_reads, hreads]; rfl, fun w' hw' => ?_, fun hopen => ?_⟩
  · rcases List.mem_append.mp hw' with hw' | hw'
    · exact hmenu w' hw'
    · rw [List.mem_singleton.mp hw']
      exact hw
  · rw [Footprint.add_writes, List.foldl_append]
    exact hΨ _ _ (h hopen)

theorem During.imp (h : During draft Ψ l s) (hΨ : ∀ c c', Ψ c c' → Ψ' c c') :
    During draft Ψ' l s :=
  ⟨h.1, h.2.1, fun hopen => hΨ _ _ (h.2.2 hopen)⟩

/-- A write to the menu. -/
theorem During.exec (hid : draft.id = uploaded.id) (h : During draft Ψ l s) {w : Write}
    (hw : w.onMenu = true) (hΨ : ∀ c c', Ψ c c' → Ψ' c (w.land c')) :
    (Txn.exec (fun _ => []) fun _ => [w] : Tx Unit).wp (discipline toLowerCase uploaded s₀)
      (fun _ => During draft Ψ') l s := by
  refine Txn.wp_stmt (during_stable hid Ψ) h fun _ s h _ => ?_
  exact Txn.wp_done (during_stable hid Ψ') (h.add hw hΨ)

/-! ### Landing the items -/

/-- The map from the names finds the categories of the catalogue, and all of them. -/
structure Indexes (toLowerCase : String → String) (tenantId : ℕ) (byName : List (String × ℕ))
    (c : Catalogue) : Prop where
  found : ∀ key id, byName.lookup key = some id → ∃ x ∈ c.menuCategories,
    x.tenantId = tenantId ∧ x.id = id ∧ toLowerCase x.name = key
  missing : ∀ key, byName.lookup key = none → key ∉ c.categoryKeys toLowerCase tenantId

theorem indexes_categoriesByName (c : Catalogue) (tenantId : ℕ) :
    Indexes toLowerCase tenantId
      (categoriesByName toLowerCase (c.menuCategories.filter (·.tenantId = tenantId))) c where
  found key id h := by
    obtain ⟨front, back, hsplit, -⟩ := List.lookup_eq_some_iff.mp h
    have hmem : (key, id) ∈ categoriesByName toLowerCase
        (c.menuCategories.filter (·.tenantId = tenantId)) := by
      rw [hsplit]
      exact List.mem_append_right _ List.mem_cons_self
    obtain ⟨x, hx, heq⟩ := List.mem_map.mp (List.mem_reverse.mp hmem)
    obtain ⟨rfl, rfl⟩ := Prod.mk.inj heq
    obtain ⟨hx, htenant⟩ := List.mem_filter.mp hx
    exact ⟨x, hx, of_decide_eq_true htenant, rfl, rfl⟩
  missing key h := by
    intro hmem
    obtain ⟨x, hx, hname⟩ := List.mem_map.mp hmem
    have hpair : (key, x.id) ∈ categoriesByName toLowerCase
        (c.menuCategories.filter (·.tenantId = tenantId)) :=
      List.mem_reverse.mpr (List.mem_map.mpr ⟨x, hx, by rw [← hname]⟩)
    have hne : (key != key) = true := List.lookup_eq_none_iff.mp h _ hpair
    rw [bne_self_eq_false] at hne
    cases hne

/-- Between two items: those before were landed, and the map is up to date. -/
structure Ready (toLowerCase : String → String) (importId tenantId : ℕ) (inputs : List DraftItem)
    (landing : Landing) (c c' : Catalogue) : Prop where
  landed : Landed toLowerCase importId tenantId inputs c c'
  indexes : Indexes toLowerCase tenantId landing.categoriesByName c'

/-- A category that the map finds for an item. -/
def Categorized (toLowerCase : String → String) (tenantId : ℕ) (input : DraftItem) (id : ℕ)
    (c : Catalogue) : Prop :=
  ∃ x ∈ c.menuCategories, x.tenantId = tenantId ∧ x.id = id ∧
    toLowerCase x.name = toLowerCase input.category

theorem Indexes.addCategory {byName : List (String × ℕ)} {x : MenuCategory}
    (h : Indexes toLowerCase tenantId byName c) (htenant : x.tenantId = tenantId) :
    Indexes toLowerCase tenantId ((toLowerCase x.name, x.id) :: byName)
      (Write.land c (.createMenuCategory x)) where
  found key id hfound := by
    rw [List.lookup_cons] at hfound
    split at hfound
    next heq =>
      cases hfound
      exact ⟨x, List.mem_append_right _ List.mem_cons_self, htenant, rfl, (beq_iff_eq.mp heq).symm⟩
    next =>
      obtain ⟨y, hy, hfound⟩ := h.found key id hfound
      exact ⟨y, List.mem_append_left _ hy, hfound⟩
  missing key hmissing := by
    rw [List.lookup_cons] at hmissing
    split at hmissing
    next => cases hmissing
    next hne =>
      intro hmem
      obtain ⟨y, hy, hy', hname⟩ := mem_categoryKeys.mp hmem
      rcases List.mem_append.mp hy with hy | hy
      · exact h.missing key hmissing (mem_categoryKeys.mpr ⟨y, hy, hy', hname⟩)
      · obtain rfl := List.mem_singleton.mp hy
        rw [← hname, beq_self_eq_true] at hne
        cases hne

theorem categoryOf_wp (hid : draft.id = uploaded.id) {inputs : List DraftItem} {landing : Landing}
    (input : DraftItem)
    (h : During draft (Ready toLowerCase importId tenantId inputs landing) l s) :
    (categoryOf toLowerCase tenantId landing input).wp (discipline toLowerCase uploaded s₀)
      (fun r => During draft fun c c' => Ready toLowerCase importId tenantId inputs r.2 c c' ∧
        Categorized toLowerCase tenantId input r.1 c') l s := by
  unfold categoryOf
  dsimp only
  split
  next id hfound =>
    refine Txn.wp_done (during_stable hid _) (h.imp fun c c' hready => ⟨hready, ?_⟩)
    exact hready.indexes.found _ _ hfound
  next hmissing =>
    refine Txn.wp_uuid (during_stable hid _) h fun id s h => ?_
    refine Txn.wp_seq (h.exec hid rfl fun c c' hready => ?_) fun _ l s h =>
      Txn.wp_done (during_stable hid _) h
    have hindexes := hready.indexes.addCategory
      (x := ⟨id, tenantId, input.category, landing.nextSortOrder + 1⟩) rfl
    refine ⟨⟨?_, hindexes⟩, _, List.mem_append_right _ List.mem_cons_self, rfl, rfl, rfl⟩
    exact hready.landed.addCategory rfl (hready.indexes.missing _ hmissing)

theorem createMenuItem_wp (hid : draft.id = uploaded.id) (item : MenuItem)
    (h : During draft Ψ l s) (hΨ : ∀ c c', Ψ c c' → Ψ' c (Write.land c' (.createMenuItem item))) :
    (createMenuItem item).wp (discipline toLowerCase uploaded s₀)
      (fun _ => During draft Ψ') l s := by
  refine Txn.wp_seq (R := fun b l s => b = true → During draft Ψ' l s) ?_ fun b l s h => ?_
  · refine Txn.wp_writeWhen (during_stable hid Ψ) (fun b => .imp _ (during_stable hid Ψ')) h ?_ ?_
    · exact fun s h _ _ _ => h.add rfl hΨ
    · exact fun s h _ hfalse => absurd hfalse Bool.false_ne_true
  · unfold Txn.throwIf
    split
    next => trivial
    next hcreated => exact Txn.wp_done (during_stable hid Ψ') (h (by simpa using hcreated))

/-- One item more is on the menu. -/
theorem commitItem_wp (hid : draft.id = uploaded.id) {inputs : List DraftItem} {landing : Landing}
    (input : DraftItem)
    (h : During draft (Ready toLowerCase importId tenantId inputs landing) l s) :
    (commitItem toLowerCase importId tenantId landing input).wp
      (discipline toLowerCase uploaded s₀)
      (fun landing => During draft
        (Ready toLowerCase importId tenantId (inputs ++ [input]) landing)) l s := by
  refine Txn.wp_seq (categoryOf_wp hid input h) fun r l s h => ?_
  obtain ⟨categoryId, landing⟩ := r
  refine Txn.wp_uuid (during_stable hid _) h fun id s h => ?_
  -- Between the item and its price the catalogue is one price short of the next item.
  let short : Catalogue → Catalogue → Prop := fun c c₁ => ∃ c',
    c₁ = Write.land c' (.createMenuItem (itemRow importId tenantId categoryId id input)) ∧
      Ready toLowerCase importId tenantId inputs landing c c' ∧
      Categorized toLowerCase tenantId input categoryId c'
  have hshort : ∀ c c', (Ready toLowerCase importId tenantId inputs landing c c' ∧
        Categorized toLowerCase tenantId input categoryId c') →
      short c (Write.land c' (.createMenuItem (itemRow importId tenantId categoryId id input))) :=
    fun c c' hready => ⟨c', rfl, hready⟩
  refine Txn.wp_seq (createMenuItem_wp hid _ h hshort) fun _ l s h => ?_
  refine Txn.wp_uuid (during_stable hid _) h fun priceId s h => ?_
  refine Txn.wp_seq (h.exec hid rfl fun c c₁ hshort => ?_) fun _ l s h =>
    Txn.wp_done (during_stable hid _) h
  obtain ⟨c', rfl, hready, hcategory⟩ := hshort
  exact ⟨hready.landed.addItem hcategory, hready.indexes.found, hready.indexes.missing⟩

theorem commitEach_wp (hid : draft.id = uploaded.id) (inputs : List DraftItem)
    {done : List DraftItem} {landing : Landing}
    (h : During draft (Ready toLowerCase importId tenantId done landing) l s) :
    (commitEach toLowerCase importId tenantId landing inputs).wp
      (discipline toLowerCase uploaded s₀)
      (fun _ => During draft (Landed toLowerCase importId tenantId (done ++ inputs))) l s := by
  induction inputs generalizing done landing l s with
  | nil =>
      rw [List.append_nil]
      exact Txn.wp_done (during_stable hid _) (h.imp fun _ _ hready => hready.landed)
  | cons input inputs ih =>
      refine Txn.wp_seq (commitItem_wp hid input h) fun landing l s h => ?_
      rw [List.append_cons]
      exact ih h

theorem commitItems_wp (hid : draft.id = uploaded.id) (inputs : List DraftItem)
    (hreads : l.reads = [draft]) (hwrites : l.writes = []) :
    (commitItems toLowerCase importId tenantId inputs).wp (discipline toLowerCase uploaded s₀)
      (fun _ => During draft (Landed toLowerCase importId tenantId inputs)) l s := by
  have hread : (discipline toLowerCase uploaded s₀).Stable fun l _ =>
      l.reads = [draft] ∧ l.writes = [] := fun _ _ _ _ h => h
  refine Txn.wp_query hread ⟨hreads, hwrites⟩ fun s ⟨hreads, hwrites⟩ => ?_
  rw [← List.nil_append inputs]
  refine commitEach_wp hid inputs ⟨hreads, fun w hw => ?_, fun _ => ⟨?_, ?_⟩⟩
  · rw [hwrites] at hw
    exact absurd hw List.not_mem_nil
  · rw [hwrites]
    exact .nil
  · rw [hwrites]
    exact indexes_categoriesByName s.catalogue tenantId

/-! ### What a commit does -/

theorem draft_map {f : MenuImportDraft → MenuImportDraft} (hf : ∀ draft, (f draft).id = draft.id)
    (drafts : List MenuImportDraft) (id : ℕ) :
    (drafts.map f).find? (·.id = id) = (drafts.find? (·.id = id)).map f := by
  rw [List.find?_map]
  congr 2
  funext draft
  simp [hf]

@[simp] theorem setItems_id (id : ℕ) (items : List DraftItem) (draft : MenuImportDraft) :
    (setItems id items draft).id = draft.id := by
  unfold setItems
  split <;> rfl

@[simp] theorem setCommitted_id (id : ℕ) (at_ : ℤ) (draft : MenuImportDraft) :
    (setCommitted id at_ draft).id = draft.id := by
  unfold setCommitted
  split <;> rfl

/-- A patch of a draft that stands as it was read. -/
theorem Standing.patch (h : Standing toLowerCase uploaded s₀ s draft)
    (hstatus : draft.status = .draft) {dto : PatchMenuImportDraftDto} {items : List DraftItem}
    (hitems : patchItems draft.items dto = .ok items) :
    Standing toLowerCase uploaded s₀
      (applyAll [Write.updatePayload uploaded.id items, .answerPatch dto] s)
      { draft with items } where
  found := by
    change (s.menuImportDrafts.map (setItems uploaded.id items)).find? _ = _
    have hfound : s.menuImportDrafts.find? (·.id = uploaded.id) = some draft := h.found
    have hid : draft.id = uploaded.id := by simpa using List.find?_some hfound
    rw [draft_map (setItems_id _ _), hfound, Option.map_some, setItems, if_pos hid]
  tenant := h.tenant
  patched := by
    change (s.patches ++ [dto]).foldlM _ _ = _
    rw [List.foldlM_append, h.patched]
    change [dto].foldlM patchItems draft.items = _
    rw [List.foldlM_cons, hitems]
    rfl
  nodup := patchItems_nodup hitems
  waiting := h.waiting
  landed hcommitted := by
    rw [hstatus] at hcommitted
    cases hcommitted

/-- A commit of a draft that stands as it was read. -/
theorem Standing.commit (h : Standing toLowerCase uploaded s₀ s draft)
    (hstatus : draft.status = .draft) {ws : List Write} (hmenu : ∀ w ∈ ws, w.onMenu = true)
    (hlanded : Landed toLowerCase uploaded.id uploaded.tenantId draft.items s.catalogue
      (ws.foldl Write.land s.catalogue))
    {event : AuditEvent} (haction : event.action = "menu.imported")
    (himport : event.importId = uploaded.id) (now : ℤ) :
    Standing toLowerCase uploaded s₀
      (applyAll (ws ++ [.createAuditEvent event, .updateStatus uploaded.id now]) s)
      { draft with status := .committed, committedAt := some now } := by
  obtain ⟨hcatalogue, hnone⟩ := h.waiting hstatus
  have hstore : applyAll (ws ++ [.createAuditEvent event, .updateStatus uploaded.id now]) s =
      { s with
        catalogue := ws.foldl Write.land s.catalogue
        auditEvents := s.auditEvents ++ [event]
        menuImportDrafts := s.menuImportDrafts.map (setCommitted uploaded.id now) } := by
    rw [applyAll_append, applyAll_onMenu hmenu, applyAll_catalogue]
    rfl
  rw [hstore]
  refine ⟨?_, h.tenant, h.patched, h.nodup, fun hdraft => ?_, fun _ => ⟨?_, ?_⟩⟩
  · have hfound : s.menuImportDrafts.find? (·.id = uploaded.id) = some draft := h.found
    have hid : draft.id = uploaded.id := by simpa using List.find?_some hfound
    change (s.menuImportDrafts.map (setCommitted uploaded.id now)).find? _ = _
    rw [draft_map (setCommitted_id _ _), hfound, Option.map_some, setCommitted, if_pos hid]
  · cases hdraft
  · change ((s.auditEvents ++ [event]).filter _).length = 1
    have hnone' : s.auditEvents.filter (fun event => event.action = "menu.imported" ∧
        event.importId = uploaded.id) = [] := hnone
    rw [List.filter_append, hnone']
    simp [haction, himport]
  · rw [← hcatalogue]
    exact hlanded

/-- The draft that a transaction has read, and nothing else. -/
def HasRead (owner : AdminPrincipal) (importId : ℕ) (draft : MenuImportDraft) (ws : List Write)
    (l : TxFootprint) : Prop :=
  l.reads = [draft] ∧ l.writes = ws ∧ draft.id = importId ∧ draft.tenantId = owner.tenantId ∧
    draft.status = .draft

theorem hasRead_stable (owner : AdminPrincipal) (importId : ℕ) (draft : MenuImportDraft)
    (ws : List Write) :
    (discipline toLowerCase uploaded s₀).Stable fun l _ => HasRead owner importId draft ws l :=
  fun _ _ _ _ h => h

theorem openDraft_wp (owner : AdminPrincipal) (importId : ℕ) (s : Store) :
    (openDraft owner importId).wp (discipline toLowerCase uploaded s₀)
      (fun draft l _ => HasRead owner importId draft [] l) .empty s := by
  have hfind : (findDraft importId).wp (discipline toLowerCase uploaded s₀)
      (fun found l _ => l = ⟨[], found.toList, []⟩ ∧ ∀ d ∈ found, d.id = importId) .empty s := by
    refine Txn.wp_stmt (P := fun l _ => l = .empty) (fun _ _ _ _ h => h) rfl fun _ s' _ _ => ?_
    refine Txn.wp_done (fun _ _ _ _ h => h) ⟨rfl, fun d hd => ?_⟩
    simpa using List.find?_some hd
  refine Txn.wp_seq hfind fun found l s h => ?_
  obtain ⟨rfl, hid⟩ := h
  cases found with
  | none => trivial
  | some draft =>
      have hid : draft.id = importId := hid draft rfl
      dsimp only
      split
      next => trivial
      next htenant =>
        split
        next => trivial
        next hstatus =>
          refine Txn.wp_done (hasRead_stable owner importId draft []) ?_
          exact ⟨rfl, rfl, hid, not_not.mp htenant, not_not.mp hstatus⟩

theorem updateDraft_wp {id : ℕ} {w : Write}
    {R : TxFootprint → Store → Prop} {Q : TxFootprint → Store → Prop}
    (hR : (discipline toLowerCase uploaded s₀).Stable R)
    (hQ : (discipline toLowerCase uploaded s₀).Stable Q) (h : R l s)
    (hadd : ∀ l s, R l s → Q (l.add ⟨[.menuImportDraft id], [], [w]⟩) s) :
    (updateDraft id w).wp (discipline toLowerCase uploaded s₀) (fun _ => Q) l s := by
  refine Txn.wp_seq (R := fun b l s => b = true → Q l s) ?_ fun b l s h => ?_
  · refine Txn.wp_writeWhen hR (fun b => .imp _ hQ) h ?_ ?_
    · exact fun s h _ _ _ => hadd _ s h
    · exact fun s h _ hfalse => absurd hfalse Bool.false_ne_true
  · unfold Txn.throwIf
    split
    next => trivial
    next hupdated => exact Txn.wp_done hQ (h (by simpa using hupdated))

theorem draftDuplicates_emits (tenantId : ℕ) (items : List DraftItem) :
    (draftDuplicates toLowerCase tenantId items).Emits (· = .empty) := by
  refine Txn.Emits.bind ⟨fun _ _ => rfl, fun _ => trivial⟩ fun categories => ?_
  exact Txn.Emits.bind ⟨fun _ _ => rfl, fun _ => trivial⟩ fun _ => trivial

theorem updatedDraft_emits (id : ℕ) : (updatedDraft id).Emits (· = .empty) := by
  refine Txn.Emits.bind ⟨fun _ _ => rfl, fun _ => trivial⟩ fun draft => ?_
  cases draft <;> trivial

/-- A part that only reads. -/
theorem reading_wp {α : Type} {p : Tx α} (hp : p.Emits (· = .empty))
    {R : TxFootprint → Store → Prop} (hR : (discipline toLowerCase uploaded s₀).Stable R)
    (h : R l s) : p.wp (discipline toLowerCase uploaded s₀) (fun _ => R) l s := by
  refine hp.wp hR (fun l l' s hl' h => ?_) h
  rw [hl', Footprint.add_empty]
  exact h

theorem keeps_of_standing {l : TxFootprint} (hstanding : ∃ draft,
      Standing toLowerCase uploaded s₀ (applyAll l.writes s) draft)
    (hguar : (applyAll l.writes s).Open uploaded.id →
      s.Open uploaded.id ∧ (applyAll l.writes s).catalogue = s.catalogue) :
    (discipline toLowerCase uploaded s₀).Keeps l s :=
  ⟨hstanding, hguar, fun _ _ => trivial, trivial⟩

/-- Where the draft stands as a transaction read it, that is where the import stands. -/
theorem standing_of_lands (hinv : ∃ draft, Standing toLowerCase uploaded s₀ s draft)
    (hid : draft.id = uploaded.id) (hreads : l.reads = [draft])
    (hlands : (discipline toLowerCase uploaded s₀).lands l s) :
    Standing toLowerCase uploaded s₀ s draft := by
  obtain ⟨current, hcurrent⟩ := hinv
  have hfound : s.draft draft.id = some draft :=
    hlands draft (hreads ▸ List.mem_singleton.mpr rfl)
  rw [hid, hcurrent.found] at hfound
  cases hfound
  exact hcurrent

theorem HasRead.add {owner : AdminPrincipal} {ws : List Write} (h : HasRead owner importId draft ws l)
    (locks : List Key) (w : Write) :
    HasRead owner importId draft (ws ++ [w]) (l.add ⟨locks, [], [w]⟩) :=
  ⟨by rw [Footprint.add_reads, h.1]; rfl, by rw [Footprint.add_writes, h.2.1], h.2.2⟩

/-- What a patch leaves behind by its commit. -/
theorem patch_wp (owner : AdminPrincipal) (dto : PatchMenuImportDraftDto) :
    ((Call.patch owner dto).prog toLowerCase uploaded.id).wp
      (discipline toLowerCase uploaded s₀) (fun _ l _ => ∃ draft items,
        HasRead owner uploaded.id draft [.updatePayload uploaded.id items, .answerPatch dto] l ∧
        patchItems draft.items dto = .ok items) .empty s := by
  have hstable : ∀ ws draft, (discipline toLowerCase uploaded s₀).Stable fun l _ =>
      HasRead owner uploaded.id draft ws l := fun ws draft => hasRead_stable _ _ _ _
  refine Txn.wp_seq (R := fun _ l _ => ∃ draft items,
    HasRead owner uploaded.id draft [.updatePayload uploaded.id items] l ∧
      patchItems draft.items dto = .ok items) ?_ ?_
  · refine Txn.wp_seq (openDraft_wp owner uploaded.id s) fun draft l s hread => ?_
    cases hitems : patchItems draft.items dto with
    | error e => trivial
    | ok items =>
        simp only [orThrow, Txn.pure_eq, Txn.done_bind]
        refine Txn.wp_seq (updateDraft_wp (hstable _ draft) (hstable _ draft) hread
          fun l s h => h.add [.menuImportDraft uploaded.id] (.updatePayload uploaded.id items)) ?_
        intro _ l s h
        refine Txn.wp_seq (reading_wp (updatedDraft_emits _) (hstable _ draft) h) fun _ l s h => ?_
        refine Txn.wp_seq (reading_wp (draftDuplicates_emits _ _) (hstable _ draft) h) ?_
        exact fun _ l s h s' _ => ⟨draft, items, h, hitems⟩
  · rintro _ l s ⟨draft, items, h, hitems⟩
    refine Txn.wp_stmt (hstable _ draft) h fun _ s h _ s' _ => ⟨draft, items, ?_, hitems⟩
    exact h.add [] (.answerPatch dto)

/-- The items are landed by the first writes, and `tail` came after them. -/
def HasLanded (toLowerCase : String → String) (owner : AdminPrincipal) (draft : MenuImportDraft)
    (tail : List Write) (l : TxFootprint) (s : Store) : Prop :=
  ∃ ws : List Write, (∀ w ∈ ws, w.onMenu = true) ∧ l.reads = [draft] ∧ l.writes = ws ++ tail ∧
    (s.Open draft.id → Landed toLowerCase draft.id owner.tenantId draft.items s.catalogue
      (ws.foldl Write.land s.catalogue))

theorem hasLanded_stable (hid : draft.id = uploaded.id) (owner : AdminPrincipal)
    (tail : List Write) :
    (discipline toLowerCase uploaded s₀).Stable (HasLanded toLowerCase owner draft tail) := by
  intro l s s' hrely ⟨ws, hmenu, hreads, hwrites, hlanded⟩
  refine ⟨ws, hmenu, hreads, hwrites, fun hopen => ?_⟩
  obtain ⟨hopen', heq⟩ := hrely.guar (hid ▸ hopen)
  rw [heq]
  exact hlanded (hid ▸ hopen')

theorem HasLanded.add {owner : AdminPrincipal} {tail : List Write}
    (h : HasLanded toLowerCase owner draft tail l s) (locks : List Key) (w : Write) :
    HasLanded toLowerCase owner draft (tail ++ [w]) (l.add ⟨locks, [], [w]⟩) s := by
  obtain ⟨ws, hmenu, hreads, hwrites, hlanded⟩ := h
  refine ⟨ws, hmenu, ?_, ?_, hlanded⟩
  · rw [Footprint.add_reads, hreads]
    rfl
  · rw [Footprint.add_writes, hwrites, List.append_assoc]

/-- What a commit leaves behind by its commit. -/
def Ended (toLowerCase : String → String) (uploaded : MenuImportDraft) (owner : AdminPrincipal)
    (l : TxFootprint) (s : Store) : Prop :=
  ∃ draft event now, draft.id = uploaded.id ∧ draft.tenantId = owner.tenantId ∧
    draft.status = .draft ∧ event.action = "menu.imported" ∧ event.importId = uploaded.id ∧
    HasLanded toLowerCase owner draft
      [.createAuditEvent event, .updateStatus uploaded.id now] l s

theorem ended_stable (owner : AdminPrincipal) :
    (discipline toLowerCase uploaded s₀).Stable (Ended toLowerCase uploaded owner) := by
  intro l s s' hrely ⟨draft, event, now, hid, htenant, hstatus, haction, himport, h⟩
  exact ⟨draft, event, now, hid, htenant, hstatus, haction, himport,
    hasLanded_stable hid owner _ l s s' hrely h⟩

theorem commit_wp (owner : AdminPrincipal) :
    ((Call.commit owner).prog toLowerCase uploaded.id).wp (discipline toLowerCase uploaded s₀)
      (fun _ => Ended toLowerCase uploaded owner) .empty s := by
  refine Txn.wp_seq (R := fun _ => Ended toLowerCase uploaded owner) ?_ fun _ l s h =>
    Txn.wp_done (ended_stable owner) h
  refine Txn.wp_seq (openDraft_wp owner uploaded.id s) fun draft l s hread => ?_
  obtain ⟨-, -, hid, htenant, hstatus⟩ := id hread
  have hstable : (discipline toLowerCase uploaded s₀).Stable fun l _ =>
      HasRead owner uploaded.id draft [] l := hasRead_stable owner uploaded.id draft []
  refine Txn.wp_throwIf fun _ => ?_
  refine Txn.wp_seq (reading_wp (draftDuplicates_emits _ _) hstable hread) fun _ l s hread => ?_
  refine Txn.wp_throwIf fun _ => ?_
  have hlanded : (commitItems toLowerCase uploaded.id owner.tenantId draft.items).wp
      (discipline toLowerCase uploaded s₀) (fun _ => HasLanded toLowerCase owner draft []) l s := by
    refine Txn.wp_mono (commitItems_wp hid draft.items hread.1 hread.2.1) fun _ l s h => ?_
    exact ⟨l.writes, h.2.1, h.1, (List.append_nil _).symm, hid ▸ h.2.2⟩
  refine Txn.wp_seq hlanded fun landing l s h => ?_
  have haudit : (auditImport owner draft landing.items.length).wp
      (discipline toLowerCase uploaded s₀) (fun _ l s => ∃ event, event.action = "menu.imported" ∧
        event.importId = uploaded.id ∧
        HasLanded toLowerCase owner draft [.createAuditEvent event] l s) l s := by
    refine Txn.wp_clock (hasLanded_stable hid owner []) h fun now s h => ?_
    refine Txn.wp_stmt (hasLanded_stable hid owner []) h fun _ s h _ => ?_
    refine Txn.wp_done (.exists fun event => .and (.const _) (.and (.const _)
      (hasLanded_stable hid owner _))) ⟨_, rfl, hid, h.add [] _⟩
  refine Txn.wp_seq haudit fun _ l s ⟨event, haction, himport, h⟩ => ?_
  refine Txn.wp_clock (hasLanded_stable hid owner _) h fun now s h => ?_
  refine Txn.wp_seq (updateDraft_wp (hasLanded_stable hid owner _)
    (hasLanded_stable hid owner _) h fun l s h =>
      h.add [.menuImportDraft uploaded.id] (.updateStatus uploaded.id now)) fun _ l s h => ?_
  exact Txn.wp_done (ended_stable owner)
    ⟨draft, event, now, hid, htenant, hstatus, haction, himport, h⟩

/-- Every call keeps the discipline, whatever the others commit in the meantime. -/
theorem Call.wp (call : Call) (hs : (discipline toLowerCase uploaded s₀).inv s) :
    (call.prog toLowerCase uploaded.id).wp (discipline toLowerCase uploaded s₀)
      (fun _ => (discipline toLowerCase uploaded s₀).Commits) .empty s := by
  cases call with
  | patch owner dto =>
      refine Txn.wp_mono (Txn.wp_inv hs (patch_wp owner dto)) ?_
      rintro _ l s ⟨hinv, draft, items, ⟨hreads, hwrites, hid, -, hstatus⟩, hitems⟩ hlands
      have hstanding := standing_of_lands hinv hid hreads hlands
      refine keeps_of_standing ⟨_, hwrites ▸ hstanding.patch hstatus hitems⟩ fun _ => ⟨?_, ?_⟩
      · exact ⟨draft, hstanding.found, hstatus⟩
      · rw [hwrites]
        rfl
  | commit owner =>
      refine Txn.wp_mono (Txn.wp_inv hs (commit_wp owner)) ?_
      rintro _ l s ⟨hinv, draft, event, now, hid, htenant, hstatus, haction, himport, ws, hmenu,
        hreads, hwrites, hlanded⟩ hlands
      have hstanding := standing_of_lands hinv hid hreads hlands
      rw [hid, ← htenant, hstanding.tenant] at hlanded
      have hcommitted := hstanding.commit hstatus hmenu
        (hlanded ⟨draft, hstanding.found, hstatus⟩) haction himport now
      rw [← hwrites] at hcommitted
      refine keeps_of_standing ⟨_, hcommitted⟩ fun hopen => ?_
      -- The draft is committed now, so nobody finds it open.
      obtain ⟨d, hd, hopen⟩ := hopen
      rw [hcommitted.found] at hd
      cases hd
      cases hopen

/-! ### Once -/

theorem shows_sources {inputs : List DraftItem} {items : List MenuItem}
    (h : List.Forall₂ (Shows toLowerCase c importId tenantId) inputs items) :
    items.map (·.source) = inputs.map fun input => some (importId, input.id) := by
  induction h with
  | nil => rfl
  | cons hshows _ ih => rw [List.map_cons, List.map_cons, ih, hshows.source]

theorem Landed.item_once {inputs : List DraftItem}
    (h : Landed toLowerCase importId tenantId inputs c c') (hids : (inputs.map (·.id)).Nodup)
    (hunmade : ∀ item ∈ c.menuItems, ∀ itemId, item.source ≠ some (importId, itemId))
    (itemId : ℕ) : (c'.madeFrom importId itemId).length ≤ 1 := by
  obtain ⟨created, hitems, hshows⟩ := h.items
  have hsources : (created.map (·.source)).Nodup := by
    rw [shows_sources hshows]
    have hpairs : inputs.map (fun input => some (importId, input.id)) =
        (inputs.map (·.id)).map fun id => some (importId, id) := by simp
    rw [hpairs]
    exact hids.map fun id id' heq => by simpa using heq
  calc (c'.madeFrom importId itemId).length
      ≤ (c'.menuItems.filter (·.source = some (importId, itemId))).length := by
        refine (List.Sublist.length_le ?_)
        refine List.monotone_filter_right _ fun item hitem => ?_
        exact decide_eq_true (of_decide_eq_true hitem).1
    _ = (created.filter (·.source = some (importId, itemId))).length := by
        rw [hitems, List.filter_append, List.filter_eq_nil_iff.mpr, List.nil_append]
        exact fun item hitem hsource => hunmade item hitem itemId (of_decide_eq_true hsource)
    _ = (created.map (·.source)).count (some (importId, itemId)) := by
        rw [List.count, List.countP_map, List.countP_eq_length_filter]
        congr 1
        exact List.filter_congr fun item _ => by rw [Function.comp_apply, beq_eq_decide]
    _ ≤ 1 := List.nodup_iff_count_le_one.mp hsources _

theorem Landed.category_once {inputs : List DraftItem}
    (h : Landed toLowerCase importId tenantId inputs c c') {key : String}
    (hnew : key ∉ c.categoryKeys toLowerCase tenantId) :
    (c'.categoryKeys toLowerCase tenantId).count key ≤ 1 := by
  obtain ⟨created, hcategories, htenant, hnodup⟩ := h.categories
  have hall : created.filter (·.tenantId = tenantId) = created :=
    List.filter_eq_self.mpr fun x hx => decide_eq_true (htenant x hx).1
  have hkeys : c'.categoryKeys toLowerCase tenantId =
      c.categoryKeys toLowerCase tenantId ++ created.map (toLowerCase ·.name) := by
    rw [Catalogue.categoryKeys, hcategories, List.filter_append, List.map_append, hall]
    rfl
  rw [hkeys, List.count_append, List.count_eq_zero.mpr hnew, Nat.zero_add]
  exact List.nodup_iff_count_le_one.mp hnodup key

/-- However an import stands, it was landed at most once and as the patches left it. -/
theorem Standing.landsOnce (h₀ : Uploaded uploaded s₀)
    (h : Standing toLowerCase uploaded s₀ s draft) : LandsOnce toLowerCase uploaded s₀ s := by
  cases hstatus : draft.status with
  | draft =>
      obtain ⟨hcatalogue, himports⟩ := h.waiting hstatus
      have hnothing : Landed toLowerCase uploaded.id uploaded.tenantId [] s₀.catalogue
          s.catalogue := hcatalogue ▸ .nil
      exact ⟨hnothing.item_once List.nodup_nil h₀.unmade, fun _ => hnothing.category_once,
        by simp [himports], fun hne => absurd himports hne⟩
  | committed =>
      obtain ⟨honce, hlanded⟩ := h.landed hstatus
      exact ⟨hlanded.item_once h.nodup h₀.unmade, fun _ => hlanded.category_once, Nat.le_of_eq honce,
        fun _ => ⟨draft.items, h.patched, hlanded⟩⟩

theorem Uploaded.standing (h : Uploaded uploaded s₀) :
    Standing toLowerCase uploaded s₀ s₀ uploaded where
  found := h.found
  tenant := rfl
  patched := by
    rw [h.patches]
    rfl
  nodup := h.ids
  waiting _ := ⟨rfl, h.imports⟩
  landed hcommitted := by
    rw [h.status] at hcommitted
    cases hcommitted

/-- In every run of commits and patches of an uploaded draft in which the transactions that
commit find the draft as they read it, the import lands once, as the patches left it. -/
theorem import_lands_once (toLowerCase : String → String) (h₀ : Uploaded uploaded s₀)
    {S : System Store Key MenuImportDraft Write Failure}
    {es : List (Event Store Key MenuImportDraft Write Failure)}
    (h : Run (IsCall toLowerCase uploaded.id) (fun S e => undisturbed S e = true)
      (System.start s₀) es S) :
    LandsOnce toLowerCase uploaded s₀ S.store := by
  have hP : ∀ p, IsCall toLowerCase uploaded.id p →
      ∀ s, (discipline toLowerCase uploaded s₀).inv s →
      p.wp (discipline toLowerCase uploaded s₀)
        (fun _ => (discipline toLowerCase uploaded s₀).Commits) .empty s := by
    rintro p ⟨call, rfl⟩ s hs
    exact call.wp hs
  have hrespects : ∀ (S : System Store Key MenuImportDraft Write Failure) e,
      undisturbed S e = true → (discipline toLowerCase uploaded s₀).Respects S e := by
    intro S e hundisturbed
    cases e with
    | commit t =>
        refine fun x hx => ⟨fun draft hdraft => ?_, fun _ _ _ _ _ _ => trivial⟩
        rw [undisturbed, hx, Option.all_some, List.all_eq_true] at hundisturbed
        exact of_decide_eq_true (hundisturbed draft hdraft)
    | stmt t env => exact fun _ _ _ _ _ => trivial
    | _ => trivial
  obtain ⟨⟨⟨draft, hstanding⟩, -, -⟩, -⟩ :=
    Discipline.sound hP hrespects (.start ⟨uploaded, h₀.standing⟩) h
  exact hstanding.landsOnce h₀

end Lower

/-! ### Runs -/

/-- A menu of one dish, in a category that the catalogue does not have. -/
def sampleDraft : MenuImportDraft :=
  ⟨1, 7, .draft, "menu.csv", [⟨21, "Dal", "Dal", "Mains", 900, "INR"⟩], none⟩

def sampleStore : Store := ⟨⟨[], [], []⟩, [sampleDraft], [], []⟩

theorem sampleStore_uploaded : Uploaded sampleDraft sampleStore where
  found := rfl
  status := rfl
  ids := List.nodup_singleton _
  unmade _ h := absurd h List.not_mem_nil
  imports := rfl
  patches := rfl

def sampleOwner : AdminPrincipal := ⟨3, 7, "owner@restiq"⟩

def sampleCommit : Tx Unit := (Call.commit sampleOwner).prog String.toLower 1

/-- Brings the price down to 500. -/
def sampleDto : PatchMenuImportDraftDto := ⟨[⟨21, none, none, none, some 500, none⟩], []⟩

def samplePatch : Tx Unit := (Call.patch sampleOwner sampleDto).prog String.toLower 1

/-- A patch, and then a commit. -/
def patchThenCommit : List (Event Store Key MenuImportDraft Write Failure) := List.flatten
  [[.begin samplePatch], turns 0 6 0, [.commit 0, .begin sampleCommit], turns 1 14 6, [.commit 1]]

theorem import_lands_once_sample : ∃ S,
    Run (IsCall String.toLower 1) (fun S e => undisturbed S e = true) (System.start sampleStore)
      patchThenCommit S ∧
    S.store.catalogue.itemPrices.map (·.priceMinor) = [500] ∧
    LandsOnce String.toLower sampleDraft sampleStore S.store := by
  have hplay : ((System.start sampleStore).playWhen undisturbed patchThenCommit).map
      (·.store.catalogue.itemPrices.map (·.priceMinor)) = some [500] := by decide +kernel
  obtain ⟨S, hS, hprices⟩ := Option.map_eq_some_iff.mp hplay
  have hrun : Run (IsCall String.toLower 1) (fun S e => undisturbed S e = true)
      (System.start sampleStore) patchThenCommit S := .of_playWhen hS fun p hp => by
    simp only [patchThenCommit, List.flatten_cons, List.flatten_nil, List.mem_append,
      List.mem_cons, begin_notMem_turns, Event.begin.injEq, reduceCtorEq, List.not_mem_nil,
      or_false, false_or] at hp
    rcases hp with rfl | rfl <;> exact ⟨_, rfl⟩
  exact ⟨S, hrun, hprices, import_lands_once String.toLower sampleStore_uploaded hrun⟩

/-- Two commits that have both read the draft and the categories before either of them lands
anything. -/
def commitTwice : List (Event Store Key MenuImportDraft Write Failure) := List.flatten
  [[.begin sampleCommit, .begin sampleCommit], turns 0 4 0, turns 1 14 4, [.commit 1],
    turns 0 10 18, [.commit 0]]

/-- A patch that is answered while a commit is under way. -/
def patchMeanwhile : List (Event Store Key MenuImportDraft Write Failure) := List.flatten
  [[.begin sampleCommit, .begin samplePatch], turns 0 1 0, turns 1 6 1, [.commit 1],
    turns 0 13 7, [.commit 0]]

/-- Overlapping commits land the dish twice, in two categories of one name, and both say that
they committed the draft; a commit lands the price that a patch had changed before. -/
theorem overlapping_calls_land_otherwise :
    (∃ S, Run (IsCall String.toLower 1) (fun _ _ => True) (System.start sampleStore) commitTwice S ∧
      (S.store.catalogue.madeFrom 1 21).length = 2 ∧
      S.store.catalogue.categoryKeys String.toLower 7 = ["mains", "mains"] ∧
      (S.store.imports 1).length = 2) ∧
    ∃ S, Run (IsCall String.toLower 1) (fun _ _ => True) (System.start sampleStore)
        patchMeanwhile S ∧
      S.store.patches = [sampleDto] ∧ (S.store.imports 1).length = 1 ∧
      S.store.catalogue.itemPrices.map (·.priceMinor) = [900] ∧
      (S.store.draft 1).map (·.items.map (·.priceMinor)) = some [500] := by
  constructor
  · have hplay : ((System.start sampleStore).play commitTwice).map (fun S =>
        ((S.store.catalogue.madeFrom 1 21).length, S.store.catalogue.categoryKeys String.toLower 7,
          (S.store.imports 1).length)) = some (2, ["mains", "mains"], 2) := by decide +kernel
    obtain ⟨S, -, hrun, hresults⟩ := Run.of_play_map (P := IsCall String.toLower 1) hplay
      fun p hp => by
        simp only [commitTwice, List.flatten_cons, List.flatten_nil, List.mem_append,
          List.mem_cons, begin_notMem_turns, Event.begin.injEq, reduceCtorEq, List.not_mem_nil,
          or_false, or_self] at hp
        exact ⟨_, hp⟩
    simp only [Prod.mk.injEq] at hresults
    exact ⟨S, hrun, hresults⟩
  · have hplay : ((System.start sampleStore).play patchMeanwhile).map (fun S =>
        (S.store.patches, (S.store.imports 1).length,
          S.store.catalogue.itemPrices.map (·.priceMinor),
          (S.store.draft 1).map (·.items.map (·.priceMinor)))) =
        some ([sampleDto], 1, [900], some [500]) := by decide +kernel
    obtain ⟨S, -, hrun, hresults⟩ := Run.of_play_map (P := IsCall String.toLower 1) hplay
      fun p hp => by
        simp only [patchMeanwhile, List.flatten_cons, List.flatten_nil, List.mem_append,
          List.mem_cons, begin_notMem_turns, Event.begin.injEq, reduceCtorEq, List.not_mem_nil,
          or_false] at hp
        rcases hp with rfl | rfl <;> exact ⟨_, rfl⟩
    simp only [Prod.mk.injEq] at hresults
    exact ⟨S, hrun, hresults⟩

end RestiqBackend.MenuImport
