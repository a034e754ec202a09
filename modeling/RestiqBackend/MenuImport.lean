import Mathlib.Data.List.Forall2
import Mathlib.Data.List.Nodup
import RestiqBackend.ReadCommitted.Rely

/-!
Committing a menu import (`src/admin/menu-import/menu-import.service.ts`,
`src/admin/menu/commit-items.ts`).

An uploaded menu waits as a draft, which patches edit and a commit lands in the catalogue. Both
read the draft first and write it last, and neither statement looks at what the other kind of
transaction did in between: the only net below them is the index on the names of live items,
which goes by category, and a category's name is no key. Lower-casing is a parameter, so what is
proved holds of the language's own.
-/

namespace RestiqBackend.MenuImport

open ReadCommitted

/-! ### Rows -/

inductive MenuImportStatus
  | draft
  | committed
  deriving DecidableEq

structure DraftItem where
  id : ℕ
  name : String
  shortName : String
  category : String
  priceMinor : ℕ
  currency : String
  deriving DecidableEq

structure MenuImportDraft where
  id : ℕ
  tenantId : ℕ
  status : MenuImportStatus
  fileName : String
  items : List DraftItem
  committedAt : Option ℤ
  deriving DecidableEq

structure MenuCategory where
  id : ℕ
  tenantId : ℕ
  name : String
  sortOrder : ℕ
  deriving DecidableEq

structure MenuItem where
  id : ℕ
  tenantId : ℕ
  categoryId : ℕ
  name : String
  shortName : String
  archivedAt : Option ℤ
  /-- The import and the draft item it was made from, which no column keeps. -/
  source : Option (ℕ × ℕ)
  deriving DecidableEq

structure ItemPrice where
  id : ℕ
  tenantId : ℕ
  itemId : ℕ
  priceMinor : ℕ
  currency : String
  deriving DecidableEq

structure AuditEvent where
  tenantId : ℕ
  actorId : ℕ
  actorEmail : String
  action : String
  reason : String
  occurredAt : ℤ
  /-- The import that was committed, which no column keeps. -/
  importId : ℕ
  deriving DecidableEq

structure AdminPrincipal where
  id : ℕ
  tenantId : ℕ
  email : String
  deriving DecidableEq

structure PatchDraftItemDto where
  id : ℕ
  name : Option String
  shortName : Option String
  category : Option String
  priceMinor : Option ℕ
  currency : Option String
  deriving DecidableEq

structure PatchMenuImportDraftDto where
  items : List PatchDraftItemDto
  removeIds : List ℕ
  deriving DecidableEq

inductive DuplicateReason
  | onMenu
  | repeated
  deriving DecidableEq

structure DraftDuplicate where
  id : ℕ
  name : String
  category : String
  reason : DuplicateReason
  deriving DecidableEq

inductive Failure
  | notFound (message : String)
  | badRequest (code message : String)
  | conflict (code message : String) (duplicates : List DraftDuplicate)
  | recordNotFound
  deriving DecidableEq

/-- What the menu shows: the tables that an import lands in. -/
structure Catalogue where
  menuCategories : List MenuCategory
  menuItems : List MenuItem
  itemPrices : List ItemPrice
  deriving DecidableEq

/-- The tables, with the patches that were answered beside them, in the order of their
commits. -/
structure Store where
  catalogue : Catalogue
  menuImportDrafts : List MenuImportDraft
  auditEvents : List AuditEvent
  patches : List PatchMenuImportDraftDto
  deriving DecidableEq

inductive Key
  | menuImportDraft (id : ℕ)
  | liveName (tenantId categoryId : ℕ) (name : String)
  deriving DecidableEq

inductive Write
  | createMenuCategory (category : MenuCategory)
  | createMenuItem (item : MenuItem)
  | createItemPrice (price : ItemPrice)
  | updatePayload (id : ℕ) (items : List DraftItem)
  | updateStatus (id : ℕ) (committedAt : ℤ)
  | createAuditEvent (event : AuditEvent)
  | answerPatch (dto : PatchMenuImportDraftDto)

abbrev Tx := Txn Store Key MenuImportDraft Write Failure

abbrev TxFootprint := Footprint Key MenuImportDraft Write

def Write.land (c : Catalogue) : Write → Catalogue
  | .createMenuCategory category => { c with menuCategories := c.menuCategories ++ [category] }
  | .createMenuItem item => { c with menuItems := c.menuItems ++ [item] }
  | .createItemPrice price => { c with itemPrices := c.itemPrices ++ [price] }
  | _ => c

def setItems (id : ℕ) (items : List DraftItem) (draft : MenuImportDraft) : MenuImportDraft :=
  if draft.id = id then { draft with items } else draft

def setCommitted (id : ℕ) (at_ : ℤ) (draft : MenuImportDraft) : MenuImportDraft :=
  if draft.id = id then { draft with status := .committed, committedAt := some at_ } else draft

def Store.apply (s : Store) (w : Write) : Store :=
  match w with
  | .updatePayload id items =>
      { s with menuImportDrafts := s.menuImportDrafts.map (setItems id items) }
  | .updateStatus id committedAt =>
      { s with menuImportDrafts := s.menuImportDrafts.map (setCommitted id committedAt) }
  | .createAuditEvent event => { s with auditEvents := s.auditEvents ++ [event] }
  | .answerPatch dto => { s with patches := s.patches ++ [dto] }
  | w => { s with catalogue := w.land s.catalogue }

instance : WriteTo Write Store := ⟨fun w s => s.apply w⟩

def Store.draft (s : Store) (id : ℕ) : Option MenuImportDraft :=
  s.menuImportDrafts.find? (·.id = id)

/-! ### Editing a draft -/

def applyEdit (edit : PatchDraftItemDto) (item : DraftItem) : DraftItem :=
  { item with
    name := edit.name.getD item.name
    shortName := edit.shortName.getD item.shortName
    category := edit.category.getD item.category
    priceMinor := edit.priceMinor.getD item.priceMinor
    currency := edit.currency.getD item.currency }

/-- Setting a key of a map: where it is set already it keeps its place. -/
def setById (byId : List DraftItem) (item : DraftItem) : List DraftItem :=
  if byId.any (·.id = item.id) then byId.map fun old => if old.id = item.id then item else old
  else byId ++ [item]

def editById (byId : List DraftItem) (edit : PatchDraftItemDto) :
    Except Failure (List DraftItem) :=
  if byId.any (·.id = edit.id) then
    .ok (byId.map fun item => if item.id = edit.id then applyEdit edit item else item)
  else .error (.badRequest "validation_failed" s!"No draft item with id {edit.id}")

def deleteById (byId : List DraftItem) (id : ℕ) : Except Failure (List DraftItem) :=
  if byId.any (·.id = id) then .ok (byId.filter (·.id ≠ id))
  else .error (.badRequest "validation_failed" s!"No draft item with id {id}")

/-- The items a patch leaves, by way of a map from their ids. -/
def patchItems (items : List DraftItem) (dto : PatchMenuImportDraftDto) :
    Except Failure (List DraftItem) := do
  let byId ← dto.items.foldlM editById (items.foldl setById [])
  dto.removeIds.foldlM deleteById byId

section Lower

variable (toLowerCase : String → String)

/-! ### Duplicates -/

/-- The categories of a tenant by their names in lower case, the one found last first. -/
def categoriesByName (categories : List MenuCategory) : List (String × ℕ) :=
  (categories.map fun category => (toLowerCase category.name, category.id)).reverse

def reasonFor (onMenu : List (ℕ × String)) (byName : List (String × ℕ)) (seen : List String)
    (item : DraftItem) : Option DuplicateReason :=
  let name := toLowerCase item.name
  if (byName.lookup (toLowerCase item.category)).any fun id => onMenu.contains (id, name) then
    some .onMenu
  else if seen.contains (toLowerCase item.category ++ "|" ++ name) then some .repeated
  else none

def duplicatesAmong (onMenu : List (ℕ × String)) (byName : List (String × ℕ)) :
    List String → List DraftItem → List DraftDuplicate
  | _, [] => []
  | seen, item :: items =>
      let inDraft := toLowerCase item.category ++ "|" ++ toLowerCase item.name
      let duplicate := (reasonFor toLowerCase onMenu byName seen item).map fun reason =>
        ⟨item.id, item.name, item.category, reason⟩
      duplicate.toList ++ duplicatesAmong onMenu byName (inDraft :: seen) items

def findDuplicates (tenantId : ℕ) (items : List DraftItem) (byName : List (String × ℕ)) :
    Tx (List DraftDuplicate) := do
  let existing ← Txn.query fun v : Store =>
    v.catalogue.menuItems.filter fun item => item.tenantId = tenantId ∧ item.archivedAt = none
  let onMenu := existing.map fun item => (item.categoryId, toLowerCase item.name)
  pure (duplicatesAmong toLowerCase onMenu byName [] items)

def findCategories (tenantId : ℕ) : Tx (List MenuCategory) :=
  Txn.query fun v => v.catalogue.menuCategories.filter (·.tenantId = tenantId)

def draftDuplicates (tenantId : ℕ) (items : List DraftItem) : Tx (List DraftDuplicate) := do
  let categories ← findCategories tenantId
  findDuplicates toLowerCase tenantId items (categoriesByName toLowerCase categories)

def namesOf (duplicates : List DraftDuplicate) (reason : DuplicateReason) : String :=
  ", ".intercalate ((duplicates.filter (·.reason = reason)).map fun d =>
    d.name ++ " (" ++ d.category ++ ")")

def duplicatesMessage (duplicates : List DraftDuplicate) : String :=
  let onMenu := namesOf duplicates .onMenu
  let repeated := namesOf duplicates .repeated
  let rows := if duplicates.length = 1 then "that row" else "those rows"
  " ".intercalate ((if onMenu = "" then [] else [s!"Already on your menu: {onMenu}."]) ++
    (if repeated = "" then [] else [s!"In this import more than once: {repeated}."]) ++
    [s!"Rename or remove {rows}, then commit again."])

/-! ### Patching and committing -/

/-- The read that a patch and a commit begin with. -/
def findDraft (importId : ℕ) : Tx (Option MenuImportDraft) :=
  .stmt (fun _ v => { reads := (v.draft importId).toList, ret := v.draft importId }) .done

/-- The draft itself, as long as it is the owner's and not committed. -/
def openDraft (owner : AdminPrincipal) (importId : ℕ) : Tx MenuImportDraft := do
  let draft ← findDraft importId
  match draft with
  | none => Txn.throw (.notFound "No such menu import draft")
  | some draft =>
      if draft.tenantId ≠ owner.tenantId then
        Txn.throw (.notFound "No such menu import draft")
      else if draft.status ≠ .draft then
        Txn.throw (.conflict "already_committed" "This import has already been committed" [])
      else pure draft

def orThrow {α : Type} : Except Failure α → Tx α
  | .ok a => pure a
  | .error e => Txn.throw e

/-- The update of a draft by its id, which asks for nothing else. -/
def updateDraft (id : ℕ) (write : Write) : Tx Unit := do
  let updated ← Txn.writeWhen (fun v : Store => v.menuImportDrafts.any (·.id = id))
    [.menuImportDraft id] [write]
  Txn.throwIf (updated = false) .recordNotFound

/-- The row that an update returns. -/
def updatedDraft (id : ℕ) : Tx MenuImportDraft := do
  let draft ← Txn.query fun v : Store => v.draft id
  match draft with
  | none => Txn.throw .recordNotFound
  | some draft => pure draft

structure MenuImportDraftView where
  importId : ℕ
  status : MenuImportStatus
  fileName : String
  items : List (DraftItem × Option DuplicateReason)
  deriving DecidableEq

def toView (draft : MenuImportDraft) (duplicates : List DraftDuplicate) : MenuImportDraftView where
  importId := draft.id
  status := draft.status
  fileName := draft.fileName
  items := draft.items.map fun item =>
    (item, (duplicates.reverse.find? (·.id = item.id)).map (·.reason))

def patch (owner : AdminPrincipal) (importId : ℕ) (dto : PatchMenuImportDraftDto) :
    Tx MenuImportDraftView := do
  let draft ← openDraft owner importId
  let items ← orThrow (patchItems draft.items dto)
  updateDraft importId (.updatePayload importId items)
  let updated ← updatedDraft importId
  let duplicates ← draftDuplicates toLowerCase owner.tenantId items
  pure (toView updated duplicates)

structure CommittedItem where
  id : ℕ
  name : String
  shortName : String
  categoryId : ℕ
  price : ItemPrice
  deriving DecidableEq

/-- What `commitItems` keeps from one item to the next. -/
structure Landing where
  categoriesByName : List (String × ℕ)
  nextSortOrder : ℕ
  categories : List (ℕ × String)
  items : List CommittedItem

/-- Finds the category of an item by its name, or creates it. -/
def categoryOf (tenantId : ℕ) (landing : Landing) (input : DraftItem) : Tx (ℕ × Landing) :=
  let key := toLowerCase input.category
  match landing.categoriesByName.lookup key with
  | some id => pure (id, landing)
  | none => do
      let id ← Txn.uuid
      let sortOrder := landing.nextSortOrder + 1
      Txn.exec (fun _ => []) fun _ => [.createMenuCategory ⟨id, tenantId, input.category, sortOrder⟩]
      pure (id, { landing with
        categoriesByName := (key, id) :: landing.categoriesByName
        nextSortOrder := sortOrder
        categories := landing.categories ++ [(id, input.category)] })

/-- The names of the live items of a category are a key. -/
def createMenuItem (item : MenuItem) : Tx Unit := do
  let created ← Txn.writeWhen
    (fun v : Store => !v.catalogue.menuItems.any fun other =>
      other.archivedAt = none ∧ other.tenantId = item.tenantId ∧
        other.categoryId = item.categoryId ∧ other.name = item.name)
    [.liveName item.tenantId item.categoryId item.name] [.createMenuItem item]
  Txn.throwIf (created = false) (.conflict "conflict"
    "One of these items was just added to your menu - commit again to see which" [])

def commitItem (importId tenantId : ℕ) (landing : Landing) (input : DraftItem) : Tx Landing := do
  let (categoryId, landing) ← categoryOf toLowerCase tenantId landing input
  let id ← Txn.uuid
  createMenuItem
    ⟨id, tenantId, categoryId, input.name, input.shortName, none, some (importId, input.id)⟩
  let priceId ← Txn.uuid
  let price : ItemPrice := ⟨priceId, tenantId, id, input.priceMinor, input.currency⟩
  Txn.exec (fun _ => []) fun _ => [.createItemPrice price]
  let committed := ⟨id, input.name, input.shortName, categoryId, price⟩
  pure { landing with items := landing.items ++ [committed] }

def commitEach (importId tenantId : ℕ) : Landing → List DraftItem → Tx Landing
  | landing, [] => pure landing
  | landing, input :: inputs => do
      let landing ← commitItem toLowerCase importId tenantId landing input
      commitEach importId tenantId landing inputs

def commitItems (importId tenantId : ℕ) (inputs : List DraftItem) : Tx Landing := do
  let existing ← findCategories tenantId
  commitEach toLowerCase importId tenantId
    ⟨categoriesByName toLowerCase existing, existing.length, [], []⟩ inputs

structure MenuImportCommitResult where
  importId : ℕ
  committedAt : ℤ
  categories : List (ℕ × String)
  items : List CommittedItem
  deriving DecidableEq

def auditImport (owner : AdminPrincipal) (draft : MenuImportDraft) (n : ℕ) : Tx Unit := do
  let now ← Txn.clock
  let fileName := draft.fileName
  Txn.exec (fun _ => []) fun _ => [.createAuditEvent ⟨owner.tenantId, owner.id, owner.email,
    "menu.imported", s!"Committed menu import ({n} item(s)) from {fileName}", now, draft.id⟩]

def commit (owner : AdminPrincipal) (importId : ℕ) : Tx MenuImportCommitResult := do
  let draft ← openDraft owner importId
  Txn.throwIf (draft.items = [])
    (.badRequest "validation_failed" "This import has no items to commit")
  let duplicates ← draftDuplicates toLowerCase owner.tenantId draft.items
  Txn.throwIf (duplicates ≠ [])
    (.conflict "duplicate_items" (duplicatesMessage duplicates) duplicates)
  let landing ← commitItems toLowerCase importId owner.tenantId draft.items
  auditImport owner draft landing.items.length
  let committedAt ← Txn.clock
  updateDraft importId (.updateStatus importId committedAt)
  pure ⟨importId, committedAt, landing.categories, landing.items⟩

/-- The transactions of the calls on one draft; the answer of a patch is kept. -/
inductive Call
  | patch (owner : AdminPrincipal) (dto : PatchMenuImportDraftDto)
  | commit (owner : AdminPrincipal)

def Call.prog (importId : ℕ) : Call → Tx Unit
  | .patch owner dto => do
      let _ ← RestiqBackend.MenuImport.patch toLowerCase owner importId dto
      Txn.exec (fun _ => []) fun _ => [.answerPatch dto]
  | .commit owner => (RestiqBackend.MenuImport.commit toLowerCase owner importId).void

end Lower

end RestiqBackend.MenuImport
