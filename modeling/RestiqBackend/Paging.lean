import Mathlib.Data.List.Nodup
import Mathlib.Data.String.Basic
import RestiqBackend.Encoding.Base64Url
import RestiqBackend.Encoding.IsoDate
import RestiqBackend.Encoding.Json
import RestiqBackend.Keyset
import RestiqBackend.Serial
import RestiqBackend.Store

/-!
The lists that are read by cursor.

Payments (`src/admin/reports/reports.service.ts`), dead letters (`src/ops/dlq/dlq.service.ts`),
devices (`src/ops/devices/devices.service.ts`) and the tenant directory
(`src/ops/tenants/directory.service.ts`) each page through their rows by a column and the id. A
cursor is the text of the two, of the last row shown. An id is compared by its canonical text,
which the database orders as the id.
-/

namespace RestiqBackend.Paging

open Keyset
open Serial (bind_ok)

/-! ### Dates and texts -/

instance (ms : ℤ) : Decidable (IsoDate.InRange ms) :=
  inferInstanceAs (Decidable (_ ∧ _))

/-- A date, to the millisecond. -/
abbrev Date := { ms : ℤ // IsoDate.InRange ms }

inductive Failure
  | badRequest (message : String)
  | notFound (message : String)
  | invalidDate
  deriving DecidableEq

/-- What the platform makes of texts that nobody here writes: bytes that are no UTF-8, dates that
are in no standard form, and the integers that texts stand for. -/
structure Platform where
  malformed : List UInt8 → String
  otherDate : String → Option Date
  integer : String → Option ℤ

def toISOString (date : Date) : String := String.ofList (IsoDate.toIso date.val)

def Platform.newDate (p : Platform) (text : String) : Except Failure Date :=
  match (IsoDate.ofIso? text.toList).bind fun ms =>
      if h : IsoDate.InRange ms then some (⟨ms, h⟩ : Date) else none with
  | some date => .ok date
  | none =>
      match p.otherDate text with
      | some date => .ok date
      | none => .error .invalidDate

def toBase64Url (text : String) : String :=
  String.ofList (Base64Url.encode text.toByteArray.data.toList)

def Platform.ofBase64Url (p : Platform) (text : String) : String :=
  let bytes := Base64Url.decode text.toList
  (String.fromUTF8? ⟨bytes.toArray⟩).getD (p.malformed bytes)

/-! ### Cursors -/

/-- A cursor is an object of two texts, whose first has one name or another. -/
def encodeCursor (name : String) (cursor : String × String) : String :=
  toBase64Url (String.ofList
    (Json.stringify [(name.toList, cursor.1.toList), ("id".toList, cursor.2.toList)]))

def cursorFields (name : String) (parsed : Json.Value) : Except Failure (String × String) :=
  match parsed.member? name.toList, parsed.member? "id".toList with
  | some (.string v), some (.string id) => .ok (String.ofList v, String.ofList id)
  | _, _ => .error (.badRequest "cursor is not valid")

def Platform.decodeCursor (p : Platform) (name raw : String) : Except Failure (String × String) :=
  match Json.parse (p.ofBase64Url raw).toList with
  | some parsed => cursorFields name parsed
  | none => .error (.badRequest "cursor is not valid")

/-- A position in a list that is sorted by a date, in texts. -/
def dated (position : Date × String) : String × String := (toISOString position.1, position.2)

def encodeDate (name : String) (position : Date × String) : String :=
  encodeCursor name (dated position)

def Platform.cursorDate (p : Platform) (cursor : String × String) :
    Except Failure (Date × String) := do
  let date ← p.newDate cursor.1
  pure (date, cursor.2)

def Platform.decodeDate (p : Platform) (name raw : String) : Except Failure (Date × String) := do
  let cursor ← p.decodeCursor name raw
  p.cursorDate cursor

/-- The position of a cursor, where there is one. -/
def position {α κ : Type} (decode : α → Except Failure κ) :
    Option α → Except Failure (Option κ)
  | none => .ok none
  | some raw => (decode raw).map some

/-- What is given and not empty. -/
def given (text : Option String) : Option String := text.filter (· ≠ "")

/-! ### What the lists have in common -/

/-- A page of a list and the cursor of the next. -/
structure PageOf (ρ : Type) where
  rows : List ρ
  nextCursor : Option String

def showPage {ρ κ : Type} (before : κ → κ → Bool) (key : ρ → κ) (encode : κ → String)
    (rows : List ρ) (limit : ℕ) (after : Option κ) : PageOf ρ :=
  ⟨(page before key rows limit after).1, (page before key rows limit after).2.map encode⟩

def raiseIf (c : Prop) [Decidable c] (e : Failure) : Except Failure Unit :=
  if c then .error e else .ok ()

/-- The rows of a page: a default, or a number in range. -/
def Platform.parseLimit (p : Platform) (default_ max : ℕ) :
    Option String → Except Failure ℕ
  | none => .ok default_
  | some raw =>
      match p.integer raw with
      | some limit =>
          if 1 ≤ limit ∧ limit ≤ max then .ok limit.toNat
          else .error (.badRequest s!"limit must be an integer between 1 and {max}")
      | none => .error (.badRequest s!"limit must be an integer between 1 and {max}")

/-- The earlier date first. -/
def earlier (a b : Date) : Bool := decide (a.val < b.val)

/-- The newest first, and of the same date the highest id. -/
def newest : Date × String → Date × String → Bool :=
  lex (fun a b => earlier b a) fun a b => decide (b < a)

/-- Text of an id: 36 hexadecimal digits and hyphens. -/
def isUuid (text : String) : Bool :=
  text.length = 36 && text.toList.all fun c => c = '-' || (Json.hexValue? c).isSome

def checkUuid (label : String) (text : Option String) : Except Failure Unit :=
  raiseIf (text.any (!isUuid ·) = true) (.badRequest s!"{label} is not a valid id")

/-- Whether a row has what a filter asks for, where it asks. -/
def asks (wanted : Option String) (actual : String) : Bool := (given wanted).all (· == actual)

def parseChoice (label : String) (allowed : List String) (value : Option String) :
    Except Failure Unit :=
  let choices := ", ".intercalate allowed
  raiseIf (value.any (!allowed.contains ·) = true)
    (.badRequest s!"{label} must be one of: {choices}")

/-! ### Payments -/

/-- A bill that is final says since when. -/
structure Bill where
  id : String
  tenantId : String
  outletId : String
  status : BillStatus
  finalizedAt : Option Date
  finalizedAt_of_finalized : status = .finalized → finalizedAt.isSome

structure OutletRow where
  id : String
  tenantId : String
  deriving DecidableEq

structure PaymentsQuery where
  outletId : Option String
  fromDate : Option String
  toDate : Option String
  limit : Option String
  cursor : Option String

/-- A date that is given in a filter. -/
def Platform.filterDate (p : Platform) (text : Option String) : Except Failure (Option Date) :=
  match given text with
  | none => .ok none
  | some text => (p.newDate text).map some

/-- The final bills of the tenant, of an outlet and of a time where one is asked for. -/
def paymentsWhere (tenantId : String) (outletId : Option String) (from_ to_ : Option Date)
    (b : Bill) : Bool :=
  b.tenantId = tenantId && b.status = .finalized && asks outletId b.outletId &&
    from_.all (fun d => b.finalizedAt.any (d.val ≤ ·.val)) &&
    to_.all fun d => b.finalizedAt.any (·.val ≤ d.val)

def Bill.position (b : Bill) : Date × String := (b.finalizedAt.getD ⟨0, by decide⟩, b.id)

/-- The cursor is taken apart before the outlet is looked up; its date is not read before the
filter's. -/
def Platform.listPayments (p : Platform) (outlets : List OutletRow) (bills : List Bill)
    (tenantId : String) (query : PaymentsQuery) : Except Failure (PageOf Bill) := do
  let limit ← p.parseLimit 50 200 query.limit
  let cursor ← position (p.decodeCursor "finalizedAt") (given query.cursor)
  raiseIf ((given query.outletId).any (fun o => !outlets.contains ⟨o, tenantId⟩) = true)
    (.notFound "No such outlet")
  let from_ ← p.filterDate query.fromDate
  let to_ ← p.filterDate query.toDate
  let after ← position p.cursorDate cursor
  pure (showPage newest Bill.position (encodeDate "finalizedAt")
    (bills.filter (paymentsWhere tenantId query.outletId from_ to_)) limit after)

/-! ### Dead letters -/

structure SyncDeadLetter where
  id : String
  tenantId : String
  deviceId : String
  reasonCode : String
  resolvedAt : Option Date
  createdAt : Date
  deriving DecidableEq

structure DeadLetterQuery where
  tenantId : Option String
  deviceId : Option String
  reasonCode : Option String
  limit : Option String
  cursor : Option String

def deadLettersWhere (query : DeadLetterQuery) (row : SyncDeadLetter) : Bool :=
  row.resolvedAt.isNone && asks query.tenantId row.tenantId && asks query.deviceId row.deviceId &&
    asks query.reasonCode row.reasonCode

def Platform.listDeadLetters (p : Platform) (rows : List SyncDeadLetter)
    (query : DeadLetterQuery) : Except Failure (PageOf SyncDeadLetter) := do
  checkUuid "tenantId" query.tenantId
  checkUuid "deviceId" query.deviceId
  let limit ← p.parseLimit 25 100 query.limit
  let after ← position (p.decodeDate "v") (given query.cursor)
  pure (showPage newest (fun row : SyncDeadLetter => (row.createdAt, row.id)) (encodeDate "v")
    (rows.filter (deadLettersWhere query)) limit after)

/-! ### Devices -/

def deviceTypes : List String := ["pos", "kds", "kiosk", "cds", "printer", "terminal"]
def deviceStatuses : List String := ["active", "revoked"]

structure Device where
  id : String
  tenantId : String
  outletId : Option String
  type : String
  status : String
  enrolledAt : Date
  deriving DecidableEq

structure DeviceQuery where
  tenantId : Option String
  outletId : Option String
  type : Option String
  status : Option String
  limit : Option String
  cursor : Option String

def devicesWhere (query : DeviceQuery) (row : Device) : Bool :=
  asks query.tenantId row.tenantId && (given query.outletId).all (fun o => row.outletId == some o) &&
    asks query.type row.type && asks query.status row.status

def Platform.listDevices (p : Platform) (rows : List Device) (query : DeviceQuery) :
    Except Failure (PageOf Device) := do
  checkUuid "tenantId" query.tenantId
  checkUuid "outletId" query.outletId
  parseChoice "type" deviceTypes query.type
  parseChoice "status" deviceStatuses query.status
  let limit ← p.parseLimit 25 100 query.limit
  let after ← position (p.decodeDate "v") (given query.cursor)
  pure (showPage newest (fun row : Device => (row.enrolledAt, row.id)) (encodeDate "v")
    (rows.filter (devicesWhere query)) limit after)

/-! ### The tenant directory -/

def statuses : List String := ["provisioning", "active", "inactive"]
def countries : List String := ["IN", "AU"]
def plans : List String := ["standard", "enterprise"]
def healths : List String := ["healthy", "lagging", "silent", "unknown"]

structure TenantRow where
  id : String
  name : String
  country : String
  status : String
  plan : String
  createdAt : Date
  deletedAt : Option Date
  deriving DecidableEq

inductive Sort_
  | createdAt
  | name
  deriving DecidableEq

inductive Order_
  | asc
  | desc
  deriving DecidableEq

structure DirectoryQuery where
  status : Option String
  country : Option String
  plan : Option String
  health : Option String
  q : Option String
  sort : Option String
  order : Option String
  limit : Option String
  cursor : Option String

/-- How the database compares names: its order, in which no two names tie, and what it takes a
part of a name to be, in whatever case. -/
structure Collation where
  before : String → String → Bool
  order : StrictOrder before
  contains : String → String → Bool

def Sort_.parse (sort : Option String) : Except Failure Sort_ := do
  parseChoice "sort" ["createdAt", "name"] sort
  pure (if sort = some "name" then .name else .createdAt)

def Order_.parse (sort : Sort_) (order : Option String) : Except Failure Order_ := do
  parseChoice "order" ["asc", "desc"] order
  pure (match order with
    | some order => if order = "desc" then .desc else .asc
    | none => if sort = .createdAt then .desc else .asc)

/-- The tenants of a health: one that no active device speaks for has none. -/
def healthWhere (healthByTenant : String → Option String) (health : Option String)
    (row : TenantRow) : Bool :=
  health.all fun wanted =>
    if wanted = "unknown" then (healthByTenant row.id).isNone
    else healthByTenant row.id == some wanted

def tenantsWhere (c : Collation) (healthByTenant : String → Option String) (query : DirectoryQuery)
    (row : TenantRow) : Bool :=
  healthWhere healthByTenant query.health row && row.deletedAt.isNone &&
    asks query.status row.status && asks query.country row.country && asks query.plan row.plan &&
    (given query.q).all fun q => c.contains row.name q

/-- An order, or the other way round. -/
def Order_.apply {κ : Type} (o : Order_) (before : κ → κ → Bool) (a b : κ) : Bool :=
  match o with
  | .asc => before a b
  | .desc => before b a

/-- The tenants by a column, the id deciding where it is the same. -/
def Order_.rows {α : Type} [DecidableEq α] (o : Order_) (before : α → α → Bool) :
    α × String → α × String → Bool :=
  lex (o.apply before) (o.apply fun a b => decide (a < b))

def Platform.listTenants (p : Platform) (c : Collation)
    (healthByTenant : String → Option String) (rows : List TenantRow) (query : DirectoryQuery) :
    Except Failure (PageOf TenantRow) := do
  parseChoice "status" statuses query.status
  parseChoice "country" countries query.country
  parseChoice "plan" plans query.plan
  parseChoice "health" healths query.health
  let sort ← Sort_.parse query.sort
  let order ← Order_.parse sort query.order
  let limit ← p.parseLimit 25 100 query.limit
  let found := rows.filter (tenantsWhere c healthByTenant query)
  match sort with
  | .createdAt => do
      let after ← position (p.decodeDate "v") query.cursor
      pure (showPage (order.rows earlier) (fun row : TenantRow => (row.createdAt, row.id))
        (encodeDate "v") found limit after)
  | .name => do
      let after ← position (p.decodeCursor "v") query.cursor
      pure (showPage (order.rows c.before) (fun row : TenantRow => (row.name, row.id))
        (encodeCursor "v") found limit after)

/-! ### Cursors are read back -/

theorem ofBase64Url_toBase64Url (p : Platform) (text : String) :
    p.ofBase64Url (toBase64Url text) = text := by
  have hbytes : Base64Url.decode (toBase64Url text).toList = text.toByteArray.data.toList := by
    rw [toBase64Url, String.toList_ofList, Base64Url.decode_encode]
  have htext : String.fromUTF8? ⟨text.toByteArray.data.toList.toArray⟩ = some text := by
    have harray : (⟨text.toByteArray.data.toList.toArray⟩ : ByteArray) = text.toByteArray := by
      rw [Array.toArray_toList]
    rw [harray, String.fromUTF8?, dif_pos text.isValidUTF8]
    rfl
  rw [Platform.ofBase64Url, hbytes]
  simp only [htext, Option.getD_some]

theorem decodeCursor_encodeCursor (p : Platform) {name : String} (hname : name ≠ "id")
    (cursor : String × String) : p.decodeCursor name (encodeCursor name cursor) = .ok cursor := by
  have hparsed := Json.parse_stringify
    [(name.toList, cursor.1.toList), ("id".toList, cursor.2.toList)] (List.cons_ne_nil _ _)
  rewrite [Platform.decodeCursor, encodeCursor, ofBase64Url_toBase64Url, String.toList_ofList, hparsed]
  -- The members are looked up from the last one on.
  have hne : ¬ "id".toList = name.toList := fun h => hname (String.toList_inj.mp h.symm)
  have hfirst : (Json.Value.object [(name.toList, .string cursor.1.toList),
      ("id".toList, .string cursor.2.toList)]).member? name.toList =
      some (.string cursor.1.toList) := by
    simp only [Json.Value.member?, List.reverse_cons, List.reverse_nil, List.nil_append,
      List.cons_append, List.find?_cons, hne, decide_false, decide_true, Option.map_some]
  have hid : (Json.Value.object [(name.toList, .string cursor.1.toList),
      ("id".toList, .string cursor.2.toList)]).member? "id".toList =
      some (.string cursor.2.toList) := rfl
  simp only [List.map_cons, List.map_nil, cursorFields, hfirst, hid, String.ofList_toList]

theorem ofIso?_toISOString (date : Date) :
    IsoDate.ofIso? (toISOString date).toList = some date.val := by
  rw [toISOString, String.toList_ofList]
  exact IsoDate.ofIso?_toIso date.property

theorem newDate_toISOString (p : Platform) (date : Date) :
    p.newDate (toISOString date) = .ok date := by
  unfold Platform.newDate
  rw [ofIso?_toISOString, Option.bind_some, dif_pos date.property]

theorem cursorDate_dated (p : Platform) (position : Date × String) :
    p.cursorDate (dated position) = .ok position := by
  have hdate := newDate_toISOString p position.1
  simp only [Platform.cursorDate, dated, bind, Except.bind, hdate, pure, Except.pure]

theorem decodeDate_encodeDate (p : Platform) {name : String} (hname : name ≠ "id")
    (position : Date × String) : p.decodeDate name (encodeDate name position) = .ok position :=
  (Serial.bind_of_ok (decodeCursor_encodeCursor p hname _) _).trans
    (cursorDate_dated p position)

theorem encodeCursor_ne_empty (name : String) (cursor : String × String) :
    encodeCursor name cursor ≠ "" := by
  intro hempty
  have hread := ofBase64Url_toBase64Url ⟨fun _ => "", fun _ => none, fun _ => none⟩
    (String.ofList (Json.stringify [(name.toList, cursor.1.toList), ("id".toList, cursor.2.toList)]))
  have hnil : (⟨fun _ => "", fun _ => none, fun _ => none⟩ : Platform).ofBase64Url "" = "" := by
    decide +kernel
  rw [show toBase64Url _ = "" from hempty, hnil] at hread
  have hlist := congrArg String.toList hread
  rw [String.toList_ofList] at hlist
  exact absurd hlist (by simp [Json.stringify])

theorem given_encode {κ : Type} (encode : κ → String) (h : ∀ position, encode position ≠ "")
    (after : Option κ) : given (after.map encode) = after.map encode := by
  cases after with
  | none => rfl
  | some position => simp [given, Option.filter, h position]

theorem position_encode {α κ : Type} {encode : κ → α} {decode : α → Except Failure κ}
    (h : ∀ position, decode (encode position) = .ok position) (after : Option κ) :
    position decode (after.map encode) = .ok after := by
  cases after with
  | none => rfl
  | some c =>
      rw [Option.map_some, position, h c]
      rfl

/-! ### The orders -/

theorem earlier_order : StrictOrder earlier where
  irrefl a := by simp [earlier]
  trans a b c hab hbc := by
    simp only [earlier, decide_eq_true_eq] at hab hbc ⊢
    omega
  total a b hne := by
    have hval : a.val ≠ b.val := fun h => hne (Subtype.ext h)
    simp only [earlier, decide_eq_true_eq]
    omega

theorem text_order : StrictOrder fun a b : String => decide (a < b) where
  irrefl a := by simp
  trans a b c hab hbc := by
    simp only [decide_eq_true_eq] at hab hbc ⊢
    exact hab.trans hbc
  total a b hne := by
    simp only [decide_eq_true_eq]
    exact lt_or_gt_of_ne hne

theorem newest_order : StrictOrder newest := earlier_order.flip.lex text_order.flip

theorem Order_.apply_order {κ : Type} (o : Order_) {before : κ → κ → Bool}
    (h : StrictOrder before) : StrictOrder (o.apply before) := by
  cases o with
  | asc => exact h
  | desc => exact h.flip

theorem Order_.rows_order {α : Type} [DecidableEq α] (o : Order_) {before : α → α → Bool}
    (h : StrictOrder before) : StrictOrder (o.rows before) :=
  (o.apply_order h).lex (o.apply_order text_order)

/-! ### Every list is walked once -/

/-- What a walk sees of a list: the rows and the next cursor. -/
def pages {ρ : Type} (list : Option String → Except Failure (PageOf ρ)) (cursor : Option String) :
    Except Failure (List ρ × Option String) :=
  (list cursor).map fun x => (x.rows, x.nextCursor)

/-- Keys that end in the id differ as the ids do. -/
theorem keys_nodup {ρ α : Type} {rows : List ρ} {key : ρ → α × String} {id : ρ → String}
    (hid : ∀ r, (key r).2 = id r) (h : (rows.map id).Nodup) (p : ρ → Bool) :
    ((rows.filter p).map key).Nodup := by
  have hrows : ((rows.filter p).map id).Nodup := (List.filter_sublist.map id).nodup h
  have heq : (rows.filter p).map id = ((rows.filter p).map key).map Prod.snd := by
    rw [List.map_map]
    exact List.map_congr_left fun r _ => (hid r).symm
  rw [heq] at hrows
  exact List.Nodup.of_map Prod.snd hrows

theorem parseLimit_pos {p : Platform} {default_ max limit : ℕ} {raw : Option String}
    (hdefault : 1 ≤ default_) (h : p.parseLimit default_ max raw = .ok limit) : 1 ≤ limit := by
  unfold Platform.parseLimit at h
  split at h
  · cases h
    exact hdefault
  · split at h
    · split at h
      · cases h
        omega
      · cases h
    · cases h

/-- A list that shows the page of whatever position its cursor stands for. -/
theorem walksOnce_of_shown {ρ α : Type} (encode : α × String → String)
    {before : α × String → α × String → Bool}
    (horder : StrictOrder before) {key : ρ → α × String} {rows : List ρ}
    (hkeys : (rows.map key).Nodup) {limit : ℕ} (hlimit : 1 ≤ limit)
    {list : Option String → Except Failure (PageOf ρ)}
    (hlist : ∀ after, list (after.map encode) = .ok (showPage before key encode rows limit after)) :
    WalksOnce (pages list) before key rows :=
  walksOnce_of_pages horder hkeys hlimit fun after => by
    rw [pages, hlist]
    rfl

theorem v_ne_id : "v" ≠ "id" := by decide

theorem finalizedAt_ne_id : "finalizedAt" ≠ "id" := by decide

/-- Where a cursor comes from a date's position, the list reads that position. -/
theorem position_date (p : Platform) {name : String} (hname : name ≠ "id")
    (after : Option (Date × String)) :
    position (p.decodeDate name) (given (after.map (encodeDate name))) = .ok after := by
  have hgiven := given_encode (encodeDate name) (fun _ => encodeCursor_ne_empty _ _) after
  rw [hgiven]
  exact position_encode (decodeDate_encodeDate p hname) after

/-- The same where the cursor is taken apart before its date is read. -/
theorem position_cursor (p : Platform) {name : String} (hname : name ≠ "id")
    (after : Option (Date × String)) : ∃ cursor,
      position (p.decodeCursor name) (given (after.map (encodeDate name))) = .ok cursor ∧
      position p.cursorDate cursor = .ok after := by
  have hcursor := position_encode (decodeCursor_encodeCursor p hname) (after.map dated)
  rw [Option.map_map] at hcursor
  refine ⟨after.map dated, ?_, position_encode (cursorDate_dated p) after⟩
  rw [given_encode (encodeDate name) (fun _ => encodeCursor_ne_empty _ _) after]
  exact hcursor

variable (p : Platform)

theorem payments_walked (outlets : List OutletRow) {bills : List Bill}
    (hids : (bills.map (·.id)).Nodup) (tenantId : String) (query : PaymentsQuery)
    {first : PageOf Bill}
    (hfirst : p.listPayments outlets bills tenantId { query with cursor := none } = .ok first) :
    ∃ from_ to_, p.filterDate query.fromDate = .ok from_ ∧ p.filterDate query.toDate = .ok to_ ∧
      WalksOnce (pages fun cursor => p.listPayments outlets bills tenantId { query with cursor })
        newest Bill.position (bills.filter (paymentsWhere tenantId query.outletId from_ to_)) := by
  obtain ⟨limit, hlimit, hfirst⟩ := bind_ok hfirst
  obtain ⟨_, _, hfirst⟩ := bind_ok hfirst
  obtain ⟨_, houtlet, hfirst⟩ := bind_ok hfirst
  obtain ⟨from_, hfrom, hfirst⟩ := bind_ok hfirst
  obtain ⟨to_, hto, -⟩ := bind_ok hfirst
  refine ⟨from_, to_, hfrom, hto, walksOnce_of_shown (encodeDate "finalizedAt") newest_order
    (keys_nodup (fun _ => rfl) hids _) (parseLimit_pos (by decide) hlimit) fun after => ?_⟩
  obtain ⟨cursor, hcursor, hafter⟩ := position_cursor p finalizedAt_ne_id after
  simp only [Platform.listPayments, bind, Except.bind, hlimit, hcursor, houtlet, hfrom, hto, hafter]
  rfl

theorem deadLetters_walked {rows : List SyncDeadLetter} (hids : (rows.map (·.id)).Nodup)
    (query : DeadLetterQuery) {first : PageOf SyncDeadLetter}
    (hfirst : p.listDeadLetters rows { query with cursor := none } = .ok first) :
    WalksOnce (pages fun cursor => p.listDeadLetters rows { query with cursor }) newest
      (fun row : SyncDeadLetter => (row.createdAt, row.id))
      (rows.filter (deadLettersWhere query)) := by
  obtain ⟨_, htenant, hfirst⟩ := bind_ok hfirst
  obtain ⟨_, hdevice, hfirst⟩ := bind_ok hfirst
  obtain ⟨limit, hlimit, -⟩ := bind_ok hfirst
  refine walksOnce_of_shown (encodeDate "v") newest_order (keys_nodup (fun _ => rfl) hids _)
    (parseLimit_pos (by decide) hlimit) fun after => ?_
  have hafter := position_date p v_ne_id after
  simp only [Platform.listDeadLetters, bind, Except.bind, htenant, hdevice, hlimit, hafter]
  rfl

theorem devices_walked {rows : List Device} (hids : (rows.map (·.id)).Nodup)
    (query : DeviceQuery) {first : PageOf Device}
    (hfirst : p.listDevices rows { query with cursor := none } = .ok first) :
    WalksOnce (pages fun cursor => p.listDevices rows { query with cursor }) newest
      (fun row : Device => (row.enrolledAt, row.id)) (rows.filter (devicesWhere query)) := by
  obtain ⟨_, htenant, hfirst⟩ := bind_ok hfirst
  obtain ⟨_, houtlet, hfirst⟩ := bind_ok hfirst
  obtain ⟨_, htype, hfirst⟩ := bind_ok hfirst
  obtain ⟨_, hstatus, hfirst⟩ := bind_ok hfirst
  obtain ⟨limit, hlimit, -⟩ := bind_ok hfirst
  refine walksOnce_of_shown (encodeDate "v") newest_order (keys_nodup (fun _ => rfl) hids _)
    (parseLimit_pos (by decide) hlimit) fun after => ?_
  have hafter := position_date p v_ne_id after
  simp only [Platform.listDevices, bind, Except.bind, htenant, houtlet, htype, hstatus, hlimit,
    hafter]
  rfl

/-- Whether the directory's walk is whole, in the order of the column asked for. -/
def TenantsWalked (c : Collation) (healthByTenant : String → Option String)
    (rows : List TenantRow) (query : DirectoryQuery) (sort : Sort_) (order : Order_) : Prop :=
  match sort with
  | .createdAt => WalksOnce
      (pages fun cursor => p.listTenants c healthByTenant rows { query with cursor })
      (order.rows earlier) (fun row : TenantRow => (row.createdAt, row.id))
      (rows.filter (tenantsWhere c healthByTenant query))
  | .name => WalksOnce
      (pages fun cursor => p.listTenants c healthByTenant rows { query with cursor })
      (order.rows c.before) (fun row : TenantRow => (row.name, row.id))
      (rows.filter (tenantsWhere c healthByTenant query))

theorem tenants_walked (c : Collation) (healthByTenant : String → Option String)
    {rows : List TenantRow} (hids : (rows.map (·.id)).Nodup) (query : DirectoryQuery)
    {first : PageOf TenantRow}
    (hfirst : p.listTenants c healthByTenant rows { query with cursor := none } = .ok first) :
    ∃ sort order, Sort_.parse query.sort = .ok sort ∧ Order_.parse sort query.order = .ok order ∧
      TenantsWalked p c healthByTenant rows query sort order := by
  obtain ⟨_, hstatus, hfirst⟩ := bind_ok hfirst
  obtain ⟨_, hcountry, hfirst⟩ := bind_ok hfirst
  obtain ⟨_, hplan, hfirst⟩ := bind_ok hfirst
  obtain ⟨_, hhealth, hfirst⟩ := bind_ok hfirst
  obtain ⟨sort, hsort, hfirst⟩ := bind_ok hfirst
  obtain ⟨order, horder, hfirst⟩ := bind_ok hfirst
  obtain ⟨limit, hlimit, -⟩ := bind_ok hfirst
  refine ⟨sort, order, hsort, horder, ?_⟩
  have hpos := parseLimit_pos (by decide) hlimit
  cases sort with
  | createdAt =>
      refine walksOnce_of_shown (encodeDate "v") (order.rows_order earlier_order)
        (keys_nodup (fun _ => rfl) hids _) hpos fun after => ?_
      have hafter := position_encode (decodeDate_encodeDate p v_ne_id) after
      simp only [Platform.listTenants, bind, Except.bind, hstatus, hcountry, hplan, hhealth, hsort,
        horder, hlimit, hafter]
      rfl
  | name =>
      refine walksOnce_of_shown (encodeCursor "v") (order.rows_order c.order)
        (keys_nodup (fun _ => rfl) hids _) hpos fun after => ?_
      have hafter := position_encode (decodeCursor_encodeCursor p v_ne_id) after
      simp only [Platform.listTenants, bind, Except.bind, hstatus, hcountry, hplan, hhealth, hsort,
        horder, hlimit, hafter]
      rfl

/-- Whatever is listed and however it is filtered, following the cursors from the first page to
the last shows every matching row once and in order, and every cursor is read back as the
position it was taken from. -/
theorem cursor_lists_walked (c : Collation) (healthByTenant : String → Option String) :
    (∀ outlets (bills : List Bill) tenantId (query : PaymentsQuery) first, (bills.map (·.id)).Nodup →
      p.listPayments outlets bills tenantId { query with cursor := none } = .ok first →
      ∃ from_ to_, p.filterDate query.fromDate = .ok from_ ∧ p.filterDate query.toDate = .ok to_ ∧
        WalksOnce (pages fun cursor => p.listPayments outlets bills tenantId { query with cursor })
          newest Bill.position (bills.filter (paymentsWhere tenantId query.outletId from_ to_))) ∧
    (∀ (rows : List SyncDeadLetter) (query : DeadLetterQuery) first, (rows.map (·.id)).Nodup →
      p.listDeadLetters rows { query with cursor := none } = .ok first →
      WalksOnce (pages fun cursor => p.listDeadLetters rows { query with cursor }) newest
        (fun row : SyncDeadLetter => (row.createdAt, row.id))
        (rows.filter (deadLettersWhere query))) ∧
    (∀ (rows : List Device) (query : DeviceQuery) first, (rows.map (·.id)).Nodup →
      p.listDevices rows { query with cursor := none } = .ok first →
      WalksOnce (pages fun cursor => p.listDevices rows { query with cursor }) newest
        (fun row : Device => (row.enrolledAt, row.id)) (rows.filter (devicesWhere query))) ∧
    (∀ (rows : List TenantRow) (query : DirectoryQuery) first, (rows.map (·.id)).Nodup →
      p.listTenants c healthByTenant rows { query with cursor := none } = .ok first →
      ∃ sort order, Sort_.parse query.sort = .ok sort ∧ Order_.parse sort query.order = .ok order ∧
        TenantsWalked p c healthByTenant rows query sort order) ∧
    (∀ name ∈ ["finalizedAt", "v"], ∀ position,
      p.decodeDate name (encodeDate name position) = .ok position) ∧
    ∀ cursor, p.decodeCursor "v" (encodeCursor "v" cursor) = .ok cursor := by
  refine ⟨fun outlets bills tenantId query _ hids hfirst => ?_,
    fun rows query _ hids hfirst => deadLetters_walked p hids query hfirst,
    fun rows query _ hids hfirst => devices_walked p hids query hfirst,
    fun rows query _ hids hfirst => tenants_walked p c healthByTenant hids query hfirst,
    fun name hname position => ?_, decodeCursor_encodeCursor p v_ne_id⟩
  · exact payments_walked p outlets hids tenantId query hfirst
  · refine decodeDate_encodeDate p ?_ position
    rcases List.mem_cons.mp hname with rfl | hname
    · exact finalizedAt_ne_id
    · rw [List.mem_singleton.mp hname]
      exact v_ne_id

def samplePlatform : Platform where
  malformed _ := ""
  otherDate _ := none
  integer text := if text = "1" then some 1 else none

/-- Names compared by their characters. -/
def sampleCollation : Collation where
  before a b := decide (a < b)
  order := text_order
  contains name q := name = q

def sampleDate : Date := ⟨1772323200123, by decide⟩

/-- Three tenants of the same second, of which two have one name. -/
def sampleTenants : List TenantRow :=
  [⟨"a", "Anna's", "IN", "active", "standard", sampleDate, none⟩,
    ⟨"b", "Anna's", "IN", "active", "standard", sampleDate, none⟩,
    ⟨"c", "Zoe's", "AU", "active", "standard", sampleDate, none⟩]

def sampleBills : List Bill :=
  [⟨"a", "t", "o", .finalized, some sampleDate, fun _ => rfl⟩,
    ⟨"b", "t", "o", .finalized, some sampleDate, fun _ => rfl⟩]

/-- A page of one row is the least there is. -/
theorem cursor_lists_walked_sample :
    TenantsWalked samplePlatform sampleCollation (fun _ => none) sampleTenants
      ⟨none, none, none, none, none, some "name", none, some "1", none⟩ .name .asc ∧
    ∃ from_ to_, WalksOnce
      (pages fun cursor => samplePlatform.listPayments [⟨"o", "t"⟩] sampleBills "t"
        ⟨some "o", none, none, some "1", cursor⟩)
      newest Bill.position (sampleBills.filter (paymentsWhere "t" (some "o") from_ to_)) := by
  obtain ⟨hpayments, -, -, htenants, -, -⟩ :=
    cursor_lists_walked samplePlatform sampleCollation fun _ => none
  obtain ⟨sort, order, hsort, horder, hwalked⟩ := htenants sampleTenants
    ⟨none, none, none, none, none, some "name", none, some "1", none⟩ _ (by decide) rfl
  obtain ⟨from_, to_, -, -, hbills⟩ := hpayments [⟨"o", "t"⟩] sampleBills "t"
    ⟨some "o", none, none, some "1", none⟩ _ (by decide) rfl
  have hname : sort = .name := (Except.ok.inj hsort).symm
  subst hname
  have hasc : order = .asc := (Except.ok.inj horder).symm
  subst hasc
  exact ⟨hwalked, from_, to_, hbills⟩

end RestiqBackend.Paging
