import Mathlib.Tactic.IntervalCases
import RestiqBackend.Encoding.Binary64
import RestiqBackend.Encoding.IsoDate
import RestiqBackend.Encoding.Text

/-!
Prices read from the cells of an uploaded menu (`parsePriceMinor` and `buildDraftItem` of
`src/admin/menu-import/extraction.ts`).

All but digits and dots is dropped before the number is read, so the dot of a currency word and
the figures of a second number end up in the price. A cell is read again here as a person would:
one numeral, with thousands commas and up to two decimals, between currency words. The price is
that of the numeral unless a dot was dropped in front of it or the number is too long to be
carried.
-/

namespace RestiqBackend.PriceCells

open Binary64 (Number nearest)
open IsoDate (digitValue)
open Text (trim isBlank)

/-! ### The code -/

def value (digits : List Char) : ℕ := digits.foldl (fun n c => n * 10 + digitValue c) 0

/-- The decimals at the start of what follows the digits of a whole number. -/
def decimals : List Char → List Char
  | '.' :: rest => rest.takeWhile Char.isDigit
  | _ => []

/-- `Number.parseFloat` of a text of digits and dots. -/
def parseFloat (cs : List Char) : Number :=
  let whole := cs.takeWhile Char.isDigit
  let fraction := decimals (cs.dropWhile Char.isDigit)
  if whole = [] ∧ fraction = [] then .nan
  else .ofRat (value whole + value fraction / 10 ^ fraction.length)

/-- `.replace(/[^0-9.]/g, '')`. -/
def kept (cs : List Char) : List Char := cs.filter fun c => c.isDigit || c = '.'

structure ParsedPrice where
  priceMinor : Number
  confidence : ℚ
  deriving DecidableEq

def parsePriceMinor (raw : Option (List Char)) : ParsedPrice :=
  match raw.map trim with
  | none | some [] => ⟨.finite 0, 3 / 10⟩
  | some trimmed =>
      match parseFloat (kept trimmed) with
      | .finite major =>
          if major < 0 then ⟨.finite 0, 3 / 10⟩ else ⟨(Number.ofRat (major * 100)).round, 1⟩
      | _ => ⟨.finite 0, 3 / 10⟩

structure Columns where
  name : Option ℕ
  category : Option ℕ
  price : Option ℕ

structure DraftFieldConfidence where
  name : ℚ
  category : ℚ
  price : ℚ
  deriving DecidableEq

structure DraftItem where
  name : List Char
  category : List Char
  priceMinor : Number
  currency : List Char
  confidence : DraftFieldConfidence
  deriving DecidableEq

def cell (row : List (List Char)) (column : Option ℕ) : Option (List Char) :=
  column.bind (row[·]?)

def buildDraftItem (row : List (List Char)) (columns : Columns) (currency : List Char) :
    Option DraftItem :=
  match (cell row columns.name).map trim with
  | none | some [] => none
  | some name =>
      let (category, categoryConfidence) : List Char × ℚ :=
        match (cell row columns.category).map trim with
        | none | some [] => ("Uncategorised".toList, 3 / 10)
        | some rawCategory => (rawCategory, 1)
      let price := parsePriceMinor (cell row columns.price)
      some {
        name, category, priceMinor := price.priceMinor, currency
        confidence := { name := 1, category := categoryConfidence, price := price.confidence } }

variable {cs ds written figures : List Char}

/-- What is read as a number is the price, and an empty cell is none. -/
theorem parsePriceMinor_eq (raw : Option (List Char)) :
    parsePriceMinor raw =
      match parseFloat (kept (trim (raw.getD []))) with
      | .finite major =>
          if major < 0 then ⟨.finite 0, 3 / 10⟩ else ⟨(Number.ofRat (major * 100)).round, 1⟩
      | _ => ⟨.finite 0, 3 / 10⟩ := by
  cases raw with
  | none => rfl
  | some text =>
      rw [parsePriceMinor, Option.map_some, Option.getD_some]
      cases trim text with
      | nil => rfl
      | cons c cs => rfl

theorem buildDraftItem_price {row : List (List Char)} {columns : Columns} {currency : List Char}
    {item : DraftItem} (h : buildDraftItem row columns currency = some item) :
    parsePriceMinor (cell row columns.price) = ⟨item.priceMinor, item.confidence.price⟩ := by
  unfold buildDraftItem at h
  split at h
  · cases h
  · cases h
  · cases h
    rfl

/-! ### Numerals -/

/-- The groups of digits behind the first: three at the end, and two or three before. -/
inductive Groups : List Char → List Char → Prop
  | last (ds : List Char) (hdigits : ∀ c ∈ ds, c.isDigit = true) (hlength : ds.length = 3) :
      Groups (',' :: ds) ds
  | group (ds written figures : List Char) (hdigits : ∀ c ∈ ds, c.isDigit = true)
      (hlength : ds.length = 2 ∨ ds.length = 3) (hrest : Groups written figures) :
      Groups (',' :: (ds ++ written)) (ds ++ figures)

/-- A whole number as it may be written, and its digits. -/
inductive Whole : List Char → List Char → Prop
  | plain (ds : List Char) (hdigits : ∀ c ∈ ds, c.isDigit = true) : Whole ds ds
  | grouped (ds written figures : List Char) (hdigits : ∀ c ∈ ds, c.isDigit = true)
      (hlength : 1 ≤ ds.length ∧ ds.length ≤ 3) (hrest : Groups written figures) :
      Whole (ds ++ written) (ds ++ figures)

/-- A decimal numeral with at most two decimals. -/
structure Numeral where
  written : List Char
  whole : List Char
  fraction : Option (List Char)
  grouping : Whole written whole
  digits : ∀ ds, fraction = some ds → ∀ c ∈ ds, c.isDigit = true
  short : ∀ ds, fraction = some ds → ds.length ≤ 2
  figure : whole ≠ [] ∨ ∃ ds, fraction = some ds ∧ ds ≠ []

def point : Option (List Char) → List Char
  | none => []
  | some ds => '.' :: ds

def Numeral.text (n : Numeral) : List Char := n.written ++ point n.fraction

/-- A hundred times the numeral. -/
def Numeral.minor (n : Numeral) : ℕ :=
  100 * value n.whole + value (n.fraction.getD []) * 10 ^ (2 - (n.fraction.getD []).length)

theorem kept_append (cs ds : List Char) : kept (cs ++ ds) = kept cs ++ kept ds :=
  List.filter_append cs ds

theorem kept_digits (h : ∀ c ∈ ds, c.isDigit = true) : kept ds = ds :=
  List.filter_eq_self.mpr fun c hc => by rw [h c hc, Bool.true_or]

theorem kept_comma (cs : List Char) : kept (',' :: cs) = kept cs := rfl

theorem Groups.kept_eq (h : Groups written figures) :
    kept written = figures ∧ ∀ c ∈ figures, c.isDigit = true := by
  induction h with
  | last ds hdigits => exact ⟨kept_digits hdigits, hdigits⟩
  | group ds written figures hdigits _ _ ih =>
      rw [kept_comma, kept_append, kept_digits hdigits, ih.1]
      exact ⟨rfl, fun c hc => (List.mem_append.mp hc).elim (hdigits c) (ih.2 c)⟩

theorem Whole.kept_eq (h : Whole written figures) :
    kept written = figures ∧ ∀ c ∈ figures, c.isDigit = true := by
  cases h with
  | plain _ hdigits => exact ⟨kept_digits hdigits, hdigits⟩
  | grouped ds written figures hdigits _ hrest =>
      obtain ⟨hkept, hall⟩ := hrest.kept_eq
      rw [kept_append, kept_digits hdigits, hkept]
      exact ⟨rfl, fun c hc => (List.mem_append.mp hc).elim (hdigits c) (hall c)⟩

/-- The digits and the dot of a numeral. -/
theorem Numeral.kept_text (n : Numeral) : kept n.text = n.whole ++ point n.fraction := by
  rw [Numeral.text, kept_append, n.grouping.kept_eq.1]
  congr 1
  cases hfraction : n.fraction with
  | none => rfl
  | some ds => exact congrArg ('.' :: ·) (kept_digits (n.digits ds hfraction))

/-! ### What is read of a numeral -/

/-- Digits are taken up to the first character that is none. -/
theorem takeWhile_digits (hdigits : ∀ c ∈ ds, c.isDigit = true)
    (hrest : ∀ c ∈ cs.head?, c.isDigit = false) :
    (ds ++ cs).takeWhile Char.isDigit = ds ∧ (ds ++ cs).dropWhile Char.isDigit = cs := by
  rw [List.takeWhile_append_of_pos hdigits, List.dropWhile_append_of_pos hdigits]
  cases cs with
  | nil => exact ⟨List.append_nil ds, rfl⟩
  | cons c cs =>
      have hc := hrest c rfl
      rw [List.takeWhile_cons_of_neg (by rw [hc]; decide), List.append_nil,
        List.dropWhile_cons_of_neg (by rw [hc]; decide)]
      exact ⟨rfl, rfl⟩

theorem head_dots {c : Char} (k : ℕ) (h : c ∈ (List.replicate k '.').head?) :
    c.isDigit = false := by
  have hdot := List.eq_of_mem_replicate (List.mem_of_mem_head? h)
  rw [hdot]
  rfl

theorem decimals_dots (k : ℕ) : decimals (List.replicate k '.') = [] := by
  cases k with
  | zero => rfl
  | succ k =>
      exact (takeWhile_digits (List.forall_mem_nil _) fun c hc => head_dots k hc).1

/-- Dots behind a numeral are not read. -/
theorem Numeral.read_dots (n : Numeral) (k : ℕ) :
    (n.whole ++ point n.fraction ++ List.replicate k '.').takeWhile Char.isDigit = n.whole ∧
      decimals ((n.whole ++ point n.fraction ++ List.replicate k '.').dropWhile Char.isDigit) =
        n.fraction.getD [] := by
  have hwhole := n.grouping.kept_eq.2
  rw [List.append_assoc]
  cases hfraction : n.fraction with
  | none =>
      obtain ⟨htake, hdrop⟩ := takeWhile_digits hwhole fun c hc => head_dots k hc
      exact ⟨htake, (congrArg decimals hdrop).trans (decimals_dots k)⟩
  | some ds =>
      have hpoint : ∀ c ∈ ('.' :: (ds ++ List.replicate k '.')).head?, c.isDigit = false :=
        fun c hc => Option.some.inj hc ▸ rfl
      obtain ⟨htake, hdrop⟩ := takeWhile_digits hwhole hpoint
      have hdecimals := (takeWhile_digits (n.digits ds hfraction) fun c hc => head_dots k hc).1
      exact ⟨htake, (congrArg decimals hdrop).trans hdecimals⟩

theorem Numeral.parseFloat_dots (n : Numeral) (k : ℕ) :
    parseFloat (n.whole ++ point n.fraction ++ List.replicate k '.') =
      .ofRat (n.minor / 100) := by
  obtain ⟨hwhole, hdecimals⟩ := n.read_dots k
  have hfigure : ¬(n.whole = [] ∧ n.fraction.getD [] = []) := by
    rintro ⟨hnone, hempty⟩
    obtain ⟨ds, heq, hds⟩ := n.figure.resolve_left (not_not_intro hnone)
    rw [heq] at hempty
    exact hds hempty
  have hshort : (n.fraction.getD []).length ≤ 2 := by
    cases hfraction : n.fraction with
    | none => exact Nat.zero_le 2
    | some ds => exact n.short ds hfraction
  rw [parseFloat, hwhole, hdecimals, if_neg hfigure, Numeral.minor]
  congr 1
  generalize (n.fraction.getD []).length = k at hshort
  interval_cases k <;> push_cast <;> ring

/-! ### Cells read by a person -/

/-- A currency word or symbol. -/
structure CurrencyWord where
  letters : List Char
  plain : ∀ c ∈ letters, c.isDigit = false

def lettersOf (word : Option CurrencyWord) : List Char := (word.map (·.letters)).getD []

/-- A cell as one numeral between words. -/
structure Reading (Currency : Set CurrencyWord) (text : List Char) where
  before : Option CurrencyWord
  gap : List Char
  numeral : Numeral
  gap' : List Char
  after : Option CurrencyWord
  known : ∀ word, before = some word ∨ after = some word → word ∈ Currency
  blank : ∀ c ∈ gap ++ gap', isBlank c = true
  spelt : trim text = lettersOf before ++ gap ++ numeral.text ++ gap' ++ lettersOf after

variable {Currency : Set CurrencyWord} {text : List Char} {minor : ℕ}

/-- The dots in front of the numeral. -/
def Reading.dots (r : Reading Currency text) : ℕ := (lettersOf r.before).count '.'

/-- The cell holds exactly one numeral, of which `minor` is the hundredfold. -/
structure Holds (Currency : Set CurrencyWord) (text : List Char) (minor : ℕ) : Prop where
  reading : Nonempty (Reading Currency text)
  only : ∀ r : Reading Currency text, r.numeral.minor = minor

/-- The hundredfold of a numeral outlives the rounding of the numeral and of its product. -/
def Carried (minor : ℕ) : Prop :=
  (Number.ofRat (nearest (minor / 100) * 100)).round = .finite minor

theorem kept_blank (h : ∀ c ∈ cs, isBlank c = true) : kept cs = [] := by
  refine List.filter_eq_nil_iff.mpr fun c hc => ?_
  have hblank := h c hc
  simp only [isBlank, Bool.or_eq_true, Bool.and_eq_true, decide_eq_true_eq, beq_iff_eq] at hblank
  simp only [Char.isDigit, Bool.or_eq_true, Bool.and_eq_true, decide_eq_true_eq, not_or]
  constructor
  · rintro ⟨hlow, hhigh⟩
    have hlow : 48 ≤ c.toNat := hlow
    have hhigh : c.toNat ≤ 57 := hhigh
    omega
  · rintro rfl
    revert hblank
    decide

theorem kept_letters (word : Option CurrencyWord) :
    kept (lettersOf word) = List.replicate ((lettersOf word).count '.') '.' := by
  cases word with
  | none => rfl
  | some word =>
      rw [← List.filter_eq]
      refine List.filter_congr fun c hc => ?_
      rw [word.plain c hc, Bool.false_or]

theorem Reading.kept_text (r : Reading Currency text) :
    kept (trim text) = List.replicate r.dots '.' ++
      (r.numeral.whole ++ point r.numeral.fraction ++
        List.replicate ((lettersOf r.after).count '.') '.') := by
  have hgap := kept_blank fun c hc => r.blank c (List.mem_append_left r.gap' hc)
  have hgap' := kept_blank fun c hc => r.blank c (List.mem_append_right r.gap hc)
  rw [r.spelt, kept_append, kept_append, kept_append, kept_append, hgap, hgap', kept_letters,
    kept_letters, r.numeral.kept_text, List.append_nil, List.append_nil, List.append_assoc,
    Reading.dots]

/-- With no dot in front of it the numeral itself is read. -/
theorem Reading.parseFloat_plain (r : Reading Currency text) (h : r.dots = 0) :
    parseFloat (kept (trim text)) = .ofRat (r.numeral.minor / 100) := by
  rw [r.kept_text, h, List.replicate_zero, List.nil_append, r.numeral.parseFloat_dots]

/-- A dot in front makes decimals of the whole digits, and two make nothing of them. -/
theorem Reading.parseFloat_dotted (r : Reading Currency text) (h : r.dots ≠ 0) :
    parseFloat (kept (trim text)) = .nan ∨ r.numeral.whole ≠ [] ∧
      parseFloat (kept (trim text)) =
        .ofRat (value r.numeral.whole / 10 ^ r.numeral.whole.length) := by
  obtain ⟨k, hk⟩ := Nat.exists_eq_succ_of_ne_zero h
  rw [r.kept_text, hk, List.replicate_succ, List.append_assoc r.numeral.whole]
  cases k with
  | succ k => exact .inl rfl
  | zero =>
      have hrest : ∀ c ∈ (point r.numeral.fraction ++
          List.replicate ((lettersOf r.after).count '.') '.').head?, c.isDigit = false := by
        cases r.numeral.fraction with
        | none => exact fun c hc => head_dots _ hc
        | some ds => exact fun c hc => Option.some.inj hc ▸ rfl
      have hread := (takeWhile_digits r.numeral.grouping.kept_eq.2 hrest).1
      generalize point r.numeral.fraction ++ _ = rest at hread
      have hfloat : parseFloat ('.' :: (r.numeral.whole ++ rest)) =
          if r.numeral.whole = [] then .nan
          else .ofRat (value r.numeral.whole / 10 ^ r.numeral.whole.length) := by
        have hdecimals : decimals ('.' :: (r.numeral.whole ++ rest)) = r.numeral.whole := hread
        have hnone : ('.' :: (r.numeral.whole ++ rest)).takeWhile Char.isDigit = [] := rfl
        have hall : ('.' :: (r.numeral.whole ++ rest)).dropWhile Char.isDigit =
          '.' :: (r.numeral.whole ++ rest) := rfl
        simp only [parseFloat, hnone, hall, hdecimals, true_and]
        rw [show value [] = 0 from rfl, Nat.cast_zero, zero_add]
      by_cases hwhole : r.numeral.whole = []
      · exact .inl (hfloat.trans (if_pos hwhole))
      · exact .inr ⟨hwhole, hfloat.trans (if_neg hwhole)⟩

/-! ### The price -/

theorem round_le {q : ℚ} {p : ℕ} (hq : 0 ≤ q) (h : (Number.ofRat q).round = .finite p) :
    (p : ℚ) ≤ 2 * q + 1 / 2 := by
  cases hrat : Number.ofRat q with
  | nan => cases hrat ▸ h
  | infinite negative => cases hrat ▸ h
  | finite value =>
      rw [hrat] at h
      have hp : ((⌊value + 1 / 2⌋ : ℤ) : ℚ) = p := Number.finite.inj h
      have hfloor := Int.floor_le (value + 1 / 2)
      have hle := Binary64.nearest_le hq
      rw [← Number.ofRat_finite hrat] at hle
      linarith

theorem carried_zero : Carried 0 := by
  unfold Carried
  rw [Nat.cast_zero, zero_div, Binary64.nearest_zero, zero_mul]
  decide +kernel

/-- Up to 2^51 hundredths nothing is lost. -/
theorem carried_of_lt (h : minor < 2 ^ 51) : Carried minor := by
  have hminor : (minor : ℚ) + 1 ≤ 2 ^ 51 := by exact_mod_cast h
  have htiny : (2 : ℚ) ^ (-1074 : ℤ) ≤ 1 / 2 ^ 80 := by
    rw [one_div, ← zpow_natCast, ← zpow_neg]
    exact zpow_le_zpow_right₀ (by norm_num) (by decide)
  have hmajor : (0 : ℚ) ≤ nearest (minor / 100) := Binary64.nearest_nonneg (by positivity)
  have hfirst := Binary64.nearest_near (minor / 100 : ℚ)
  rw [abs_of_nonneg (by positivity : (0 : ℚ) ≤ minor / 100), abs_le] at hfirst
  obtain ⟨hfirst, hfirst'⟩ := hfirst
  have hsecond := Binary64.nearest_near (nearest (minor / 100 : ℚ) * 100)
  rw [abs_of_nonneg (by positivity : 0 ≤ nearest (minor / 100 : ℚ) * 100), abs_le] at hsecond
  obtain ⟨hsecond, hsecond'⟩ := hsecond
  have hprice := Binary64.nearest_nonneg (by positivity : 0 ≤ nearest (minor / 100 : ℚ) * 100)
  unfold Carried
  generalize nearest (minor / 100 : ℚ) = major at *
  have hfits : |nearest (major * 100)| < 2 ^ 1024 := by
    rw [abs_of_nonneg hprice]
    calc nearest (major * 100) ≤ 2 ^ 60 := by linarith
      _ < 2 ^ 1024 := pow_lt_pow_right₀ (by norm_num) (by decide)
  have hfloor : ⌊nearest (major * 100) + 1 / 2⌋ = (minor : ℤ) := by
    rw [Int.floor_eq_iff, Int.cast_natCast]
    constructor <;> linarith
  rw [Number.ofRat_of_lt hfits, Number.round, hfloor, Int.cast_natCast]

/-- A number read of a cell is not below zero. -/
theorem parseFloat_nonneg {major : ℚ} (h : parseFloat cs = .finite major) : 0 ≤ major := by
  unfold parseFloat at h
  dsimp only at h
  split at h
  · cases h
  · rw [Number.ofRat_finite h]
    exact Binary64.nearest_nonneg (by positivity)

/-- What is read behind a dot is less than the numeral. -/
theorem Reading.price_dotted (r : Reading Currency text) (hdots : r.dots ≠ 0) {major : ℚ}
    (hmajor : parseFloat (kept (trim text)) = .finite major)
    (hprice : (Number.ofRat (major * 100)).round = .finite r.numeral.minor) :
    r.numeral.minor = 0 := by
  rcases r.parseFloat_dotted hdots with hnan | ⟨hwhole, hread⟩
  · cases hnan ▸ hmajor
  · have hnearest := Number.ofRat_finite (hread ▸ hmajor)
    have hle := Binary64.nearest_le (by positivity :
      (0 : ℚ) ≤ value r.numeral.whole / 10 ^ r.numeral.whole.length)
    have hpow : (10 : ℚ) ≤ 10 ^ r.numeral.whole.length :=
      le_self_pow₀ (by norm_num) (fun h => hwhole (List.length_eq_zero_iff.mp h))
    have htenth : (value r.numeral.whole : ℚ) / 10 ^ r.numeral.whole.length ≤
        value r.numeral.whole / 10 :=
      div_le_div_of_nonneg_left (Nat.cast_nonneg _) (by norm_num) hpow
    have hminor := round_le (mul_nonneg (parseFloat_nonneg hmajor) (by norm_num)) hprice
    rw [← hnearest] at hle
    have hhundred : ((100 * value r.numeral.whole : ℕ) : ℚ) ≤ r.numeral.minor :=
      Nat.cast_le.mpr (Nat.le_add_right _ _)
    push_cast at hhundred
    have hnone : (value r.numeral.whole : ℚ) < 1 := by linarith
    have hless : (r.numeral.minor : ℚ) < 1 := by
      rw [Nat.cast_lt_one.mp hnone, Nat.cast_zero, zero_div] at hle
      linarith
    exact Nat.cast_lt_one.mp hless

/-- A numeral of zero is zero behind a dot as well. -/
theorem Reading.major_zero (r : Reading Currency text) (hdots : r.dots ≠ 0) {major : ℚ}
    (hmajor : parseFloat (kept (trim text)) = .finite major) (hzero : r.numeral.minor = 0) :
    major = 0 := by
  rcases r.parseFloat_dotted hdots with hnan | ⟨_, hread⟩
  · cases hnan ▸ hmajor
  · have hwhole : value r.numeral.whole = 0 := by
      rw [Numeral.minor] at hzero
      omega
    have hnearest := Number.ofRat_finite (hread ▸ hmajor)
    rw [hnearest, hwhole, Nat.cast_zero, zero_div, Binary64.nearest_zero]

/-- The price in the cell: confident, it is a hundred times the one numeral there. -/
def PriceInCell (Currency : Set CurrencyWord) (text : List Char) (item : DraftItem) : Prop :=
  item.confidence.price = 1 → ∃ minor, Holds Currency text minor ∧ item.priceMinor = .finite minor

/-- Either nothing is read of the cell as a number, or it holds one numeral, with no dot in front
of it unless it is zero, and of a size that is carried. -/
def ReadAsWritten (Currency : Set CurrencyWord) (text : List Char) : Prop :=
  (∀ major, parseFloat (kept (trim text)) ≠ .finite major) ∨
    ∃ minor, Holds Currency text minor ∧
      ((∃ r : Reading Currency text, r.dots = 0) ∨ minor = 0) ∧ Carried minor

/-- A confident price is the price in the cell just where the cell is read as written. -/
theorem confident_price_iff (Currency : Set CurrencyWord) {row : List (List Char)}
    {columns : Columns} {currency : List Char} {item : DraftItem}
    (hitem : buildDraftItem row columns currency = some item) :
    PriceInCell Currency ((cell row columns.price).getD []) item ↔
      ReadAsWritten Currency ((cell row columns.price).getD []) := by
  have hparsed := buildDraftItem_price hitem
  rw [parsePriceMinor_eq] at hparsed
  generalize (cell row columns.price).getD [] = text at hparsed ⊢
  unfold PriceInCell ReadAsWritten
  by_cases hfinite : ∃ major, parseFloat (kept (trim text)) = .finite major
  · obtain ⟨major, hmajor⟩ := hfinite
    simp only [hmajor, if_neg (not_lt.mpr (parseFloat_nonneg hmajor)), ParsedPrice.mk.injEq]
      at hparsed
    obtain ⟨hprice, hconfidence⟩ := hparsed
    have hfalse : ¬∀ x, parseFloat (kept (trim text)) ≠ .finite x := fun h => h major hmajor
    rw [or_iff_right hfalse, ← hprice, ← hconfidence, forall_prop_of_true rfl]
    refine exists_congr fun minor => and_congr_right fun hholds => ?_
    by_cases hplain : ∃ r : Reading Currency text, r.dots = 0
    · obtain ⟨r, hdots⟩ := hplain
      have hnumeral := r.parseFloat_plain hdots
      rw [hmajor, hholds.only r] at hnumeral
      rw [Carried, ← Number.ofRat_finite hnumeral.symm]
      exact ⟨fun h => ⟨.inl ⟨r, hdots⟩, h⟩, And.right⟩
    · -- Behind a dot only a zero is read right.
      obtain ⟨r⟩ := hholds.reading
      have hdots : r.dots ≠ 0 := fun h => hplain ⟨r, h⟩
      rw [or_iff_right hplain]
      constructor
      · intro h
        have hzero := r.price_dotted hdots hmajor ((hholds.only r).symm ▸ h)
        rw [hholds.only r] at hzero
        exact ⟨hzero, hzero ▸ carried_zero⟩
      · rintro ⟨rfl, hcarried⟩
        rw [Carried, Nat.cast_zero, zero_div, Binary64.nearest_zero] at hcarried
        rwa [r.major_zero hdots hmajor (hholds.only r), Nat.cast_zero]
  · rw [not_exists] at hfinite
    refine iff_of_true (fun hone => ?_) (.inl hfinite)
    have hreduced : item.confidence.price = 3 / 10 := by
      split at hparsed
      · exact absurd ‹_› (hfinite _)
      · exact (congrArg ParsedPrice.confidence hparsed).symm
    rw [hreduced] at hone
    norm_num at hone

/-- Readings without a dot in front are of one numeral. -/
theorem Reading.minor_eq (r r' : Reading Currency text) (h : r.dots = 0) (h' : r'.dots = 0) :
    r.numeral.minor = r'.numeral.minor := by
  have hkept := r.kept_text.symm.trans r'.kept_text
  rw [h, h', List.replicate_zero, List.nil_append, List.nil_append] at hkept
  obtain ⟨hwhole, hdecimals⟩ := r.numeral.read_dots ((lettersOf r.after).count '.')
  rw [hkept, (r'.numeral.read_dots _).1] at hwhole
  rw [hkept, (r'.numeral.read_dots _).2] at hdecimals
  rw [Numeral.minor, Numeral.minor, hwhole, hdecimals]

/-- Where no currency word has a dot, every cell with a numeral is read as written, up to a size
that no price has. -/
theorem readAsWritten_of_plain (hwords : ∀ word ∈ Currency, '.' ∉ word.letters)
    (r : Reading Currency text) (hsmall : r.numeral.minor < 2 ^ 51) :
    ReadAsWritten Currency text := by
  have hplain : ∀ r' : Reading Currency text, r'.dots = 0 := fun r' => by
    refine List.count_eq_zero.mpr fun hdot => ?_
    cases hbefore : r'.before with
    | none =>
        rw [hbefore] at hdot
        cases hdot
    | some word =>
        rw [hbefore] at hdot
        exact hwords word (r'.known word (.inl hbefore)) hdot
  exact .inr ⟨r.numeral.minor, ⟨⟨r⟩, fun r' => r'.minor_eq r (hplain r') (hplain r)⟩,
    .inl ⟨r, hplain r⟩, carried_of_lt hsmall⟩

theorem digits_of_all (h : cs.all Char.isDigit = true) : ∀ c ∈ cs, c.isDigit = true :=
  List.all_eq_true.mp h

theorem plain_of_all (h : cs.all (!·.isDigit) = true) : ∀ c ∈ cs, c.isDigit = false := by
  intro c hc
  have hc := List.all_eq_true.mp h c hc
  rwa [Bool.not_eq_true'] at hc

theorem rs_plain : ∀ c ∈ "Rs".toList, c.isDigit = false := plain_of_all (by decide)

theorem rsDot_plain : ∀ c ∈ "Rs.".toList, c.isDigit = false := plain_of_all (by decide)

theorem inr_plain : ∀ c ∈ "INR".toList, c.isDigit = false := plain_of_all (by decide)

theorem dollar_plain : ∀ c ∈ ['$'], c.isDigit = false := plain_of_all (by decide)

def rs : CurrencyWord := ⟨"Rs".toList, rs_plain⟩

def rsDot : CurrencyWord := ⟨"Rs.".toList, rsDot_plain⟩

def inr : CurrencyWord := ⟨"INR".toList, inr_plain⟩

def dollar : CurrencyWord := ⟨['$'], dollar_plain⟩

def priceList : Columns := ⟨some 0, none, some 1⟩

def dosaAt (price : List Char) : List (List Char) := ["Masala Dosa".toList, price]

def draftDosa (priceMinor : Number) : DraftItem :=
  ⟨"Masala Dosa".toList, "Uncategorised".toList, priceMinor, "INR".toList, 1, 3 / 10, 1⟩

/-- A numeral behind a word and a blank. -/
theorem reading_behind {word : CurrencyWord} (hword : word ∈ Currency) {n : Numeral}
    (h : trim text = word.letters ++ ' ' :: n.text) :
    ∃ r : Reading Currency text, r.numeral = n := by
  refine ⟨⟨some word, [' '], n, [], none, ?_, ?_, ?_⟩, rfl⟩
  · rintro _ (⟨⟨⟩⟩ | ⟨⟨⟩⟩)
    exact hword
  · exact fun c hc => List.mem_singleton.mp hc ▸ rfl
  · rw [h]
    simp [lettersOf]

theorem confident_price_sample :
    PriceInCell {rs} "Rs 1,120.50".toList (draftDosa (.finite 112050)) := by
  have hwhole : Whole "1,120".toList "1120".toList :=
    .grouped ['1'] _ _ (digits_of_all (by decide)) (by decide)
      (.last _ (digits_of_all (by decide)) (by decide))
  obtain ⟨n, htext, hminor⟩ : ∃ n : Numeral, n.text = "1,120.50".toList ∧ n.minor = 112050 := by
    refine ⟨⟨_, _, some "50".toList, hwhole, ?_, ?_, .inl (by decide)⟩, rfl, rfl⟩
    · rintro _ ⟨⟩
      exact digits_of_all (by decide)
    · rintro _ ⟨⟩
      decide
  have hspelt : trim "Rs 1,120.50".toList = rs.letters ++ ' ' :: "1,120.50".toList := by
    decide +kernel
  obtain ⟨r, hr⟩ := reading_behind (Set.mem_singleton rs) (htext.symm ▸ hspelt)
  have hwords : ∀ word ∈ ({rs} : Set CurrencyWord), '.' ∉ word.letters := by
    rintro _ rfl
    decide
  have hitem : buildDraftItem (dosaAt "Rs 1,120.50".toList) priceList "INR".toList =
      some (draftDosa (.finite 112050)) := by decide +kernel
  exact (confident_price_iff {rs} hitem).mpr
    (readAsWritten_of_plain hwords r (by rw [hr, hminor]; decide))

/-- 250 rupees become 25 paise. -/
theorem dot_of_rupees_read :
    buildDraftItem (dosaAt "Rs. 250".toList) priceList "INR".toList =
      some (draftDosa (.finite 25)) ∧
    ¬PriceInCell {rsDot, inr, dollar} "Rs. 250".toList (draftDosa (.finite 25)) := by
  refine ⟨by decide +kernel, fun h => ?_⟩
  obtain ⟨minor, hholds, hprice⟩ := h rfl
  obtain ⟨n, htext, hminor⟩ : ∃ n : Numeral, n.text = "250".toList ∧ n.minor = 25000 :=
    ⟨⟨_, _, none, .plain "250".toList (digits_of_all (by decide)), nofun, nofun,
      .inl (by decide)⟩, rfl, rfl⟩
  have hspelt : trim "Rs. 250".toList = rsDot.letters ++ ' ' :: "250".toList := by
    decide +kernel
  obtain ⟨r, hr⟩ := reading_behind (Set.mem_insert rsDot {inr, dollar}) (htext.symm ▸ hspelt)
  have hread : minor = 25000 := by rw [← hholds.only r, hr, hminor]
  have hpaise : (25 : ℚ) = minor := Number.finite.inj hprice
  rw [hread] at hpaise
  norm_num at hpaise

end RestiqBackend.PriceCells
