import Mathlib.Data.List.Basic
import RestiqBackend.Encoding.Text

/-!
Tables as text (`src/admin/reports/csv.ts`, `parseCsv` of `src/admin/menu-import/extraction.ts`).

Reports are written by one module and menus are read by another. A field is quoted
when it holds a character that the reader would take for itself; the reader is a machine over
the characters, with a look at the one after. What the writer writes is read back field by
field, then line by line.
-/

namespace RestiqBackend.Csv

open Text (trim)

/-! ### The writer -/

def escapeField (field : List Char) : List Char :=
  if field.any fun c => c = '"' ∨ c = ',' ∨ c = '\r' ∨ c = '\n' then
    '"' :: field.flatMap (fun c => if c = '"' then ['"', '"'] else [c]) ++ ['"']
  else field

/-- A row without its line break. -/
def line (row : List (List Char)) : List Char := [','].intercalate (row.map escapeField)

def toCsv (header : List (List Char)) (rows : List (List (List Char))) : List Char :=
  ['\r', '\n'].intercalate ((header :: rows).map line) ++ ['\r', '\n']

/-! ### The reader -/

/-- What the reader has so far: whole rows, the fields of the row it is in, and the field. -/
structure Reader where
  rows : List (List (List Char))
  row : List (List Char)
  field : List Char
  inQuotes : Bool
  deriving DecidableEq

def Reader.put (r : Reader) (char : Char) : Reader := { r with field := r.field ++ [char] }

def Reader.endField (r : Reader) : Reader := { r with row := r.row ++ [r.field], field := [] }

def Reader.endRow (r : Reader) : Reader :=
  { r with rows := r.rows ++ [r.row ++ [r.field]], row := [], field := [] }

/-- The loop over the characters. -/
def Reader.scan (r : Reader) : List Char → Reader
  | [] => r
  | char :: rest =>
      if r.inQuotes then
        if char = '"' then
          match rest with
          | next :: rest' =>
              if next = '"' then (r.put '"').scan rest'
              else { r with inQuotes := false }.scan (next :: rest')
          | [] => { r with inQuotes := false }
        else (r.put char).scan rest
      else if char = '"' then { r with inQuotes := true }.scan rest
      else if char = ',' then r.endField.scan rest
      else if char = '\n' ∨ char = '\r' then
        match rest with
        | next :: rest' =>
            -- `\r\n` is one line break
            if char = '\r' ∧ next = '\n' then r.endRow.scan rest'
            else r.endRow.scan (next :: rest')
        | [] => r.endRow
      else (r.put char).scan rest

/-- The last row need not end with a line break. -/
def Reader.finish (r : Reader) : List (List (List Char)) :=
  if 0 < r.field.length ∨ 0 < r.row.length then r.rows ++ [r.row ++ [r.field]] else r.rows

def isShown (cells : List (List Char)) : Bool := cells.any fun cell => 0 < (trim cell).length

def parseCsv (text : List Char) : List (List (List Char)) :=
  ((⟨[], [], [], false⟩ : Reader).scan text).finish.filter isShown

/-! ### A field read back -/

variable {rows : List (List (List Char))} {row : List (List Char)} {field done rest : List Char}

/-- What stands after a field. -/
def EndsField (rest : List Char) : Prop := ∃ c cs, rest = c :: cs ∧ c ≠ '"'

theorem scan_plain (h : ∀ c ∈ field, ¬(c = '"' ∨ c = ',' ∨ c = '\r' ∨ c = '\n')) :
    Reader.scan ⟨rows, row, done, false⟩ (field ++ rest) =
      Reader.scan ⟨rows, row, done ++ field, false⟩ rest := by
  induction field generalizing done with
  | nil => rw [List.nil_append, List.append_nil]
  | cons c field ih =>
      obtain ⟨hc, hfield⟩ := List.forall_mem_cons.mp h
      rw [not_or, not_or, not_or] at hc
      obtain ⟨hquote, hcomma, hcr, hlf⟩ := hc
      have hbreak : ¬(c = '\n' ∨ c = '\r') := not_or.mpr ⟨hlf, hcr⟩
      rw [List.cons_append, Reader.scan.eq_def]
      simp only [Bool.false_eq_true, if_false, hquote, hcomma, hbreak, Reader.put]
      rw [ih hfield, List.append_assoc]
      rfl

/-- Between the quotes every character is put, and a quote is two. -/
theorem scan_quoted (hrest : EndsField rest) :
    Reader.scan ⟨rows, row, done, true⟩
        (field.flatMap (fun c => if c = '"' then ['"', '"'] else [c]) ++ '"' :: rest) =
      Reader.scan ⟨rows, row, done ++ field, false⟩ rest := by
  induction field generalizing done with
  | nil =>
      obtain ⟨c, cs, rfl, hc⟩ := hrest
      rw [List.flatMap_nil, List.nil_append, List.append_nil, Reader.scan.eq_def]
      simp only [if_true, hc, if_false]
  | cons c field ih =>
      rw [List.flatMap_cons, List.append_assoc]
      by_cases hc : c = '"'
      · subst hc
        rw [if_pos rfl, List.cons_append, Reader.scan.eq_def]
        simp only [if_true, List.cons_append, List.nil_append, Reader.put]
        rw [ih, List.append_assoc]
        rfl
      · rw [if_neg hc, List.cons_append, Reader.scan.eq_def]
        simp only [if_true, hc, if_false, List.nil_append, Reader.put]
        rw [ih, List.append_assoc]
        rfl

theorem scan_escapeField (hrest : EndsField rest) :
    Reader.scan ⟨rows, row, [], false⟩ (escapeField field ++ rest) =
      Reader.scan ⟨rows, row, field, false⟩ rest := by
  unfold escapeField
  split
  · rw [List.cons_append, List.cons_append, Reader.scan.eq_def]
    simp only [Bool.false_eq_true, if_false, if_true]
    rw [List.append_assoc]
    exact scan_quoted hrest
  · rename_i hplain
    refine scan_plain fun c hc hspecial => hplain (List.any_eq_true.mpr ⟨c, hc, ?_⟩)
    exact decide_eq_true hspecial

/-! ### A line read back -/

theorem scan_lineBreak : Reader.scan ⟨rows, row, field, false⟩ ('\r' :: '\n' :: rest) =
    Reader.scan ⟨rows ++ [row ++ [field]], [], [], false⟩ rest := by
  rw [Reader.scan.eq_def]
  simp only [Bool.false_eq_true, if_false, Char.reduceEq, or_true, if_true, and_self]
  rfl

theorem scan_comma : Reader.scan ⟨rows, row, field, false⟩ (',' :: rest) =
    Reader.scan ⟨rows, row ++ [field], [], false⟩ rest := by
  rw [Reader.scan.eq_def]
  simp only [Bool.false_eq_true, if_false, Char.reduceEq, if_true]
  rfl

/-- A line is read as its row, and one without fields as a single empty field. -/
theorem scan_line (cells : List (List Char)) :
    Reader.scan ⟨rows, [], [], false⟩ (line cells ++ '\r' :: '\n' :: rest) =
      Reader.scan ⟨rows ++ [if cells = [] then [[]] else cells], [], [], false⟩ rest := by
  have hbreak : EndsField ('\r' :: '\n' :: rest) := ⟨'\r', _, rfl, by decide⟩
  have hcells : ∀ (before cells : List (List Char)) (cell : List Char),
      Reader.scan ⟨rows, before, [], false⟩ (line (cell :: cells) ++ '\r' :: '\n' :: rest) =
        Reader.scan ⟨rows ++ [before ++ cell :: cells], [], [], false⟩ rest := by
    intro before cells
    induction cells generalizing before with
    | nil =>
        intro cell
        rw [line, List.map_singleton, List.intercalate_singleton, scan_escapeField hbreak,
          scan_lineBreak]
    | cons next cells ih =>
        intro cell
        rw [line, List.map_cons, List.map_cons, List.intercalate_cons_cons, List.append_assoc,
          List.append_assoc, List.singleton_append, scan_escapeField ⟨',', _, rfl, by decide⟩,
          scan_comma, ← List.map_cons]
        change Reader.scan _ (line (next :: cells) ++ _) = _
        rw [ih, List.append_assoc]
        rfl
  cases cells with
  | nil => exact scan_lineBreak
  | cons cell cells =>
      rw [hcells, if_neg (List.cons_ne_nil _ _)]
      rfl

/-! ### The table read back -/

theorem toCsv_eq (header : List (List Char)) (table : List (List (List Char))) :
    toCsv header table = (header :: table).flatMap fun cells => line cells ++ ['\r', '\n'] := by
  rw [toCsv]
  induction table generalizing header with
  | nil => simp
  | cons cells table ih =>
      rw [List.map_cons, List.map_cons, List.intercalate_cons_cons, List.append_assoc,
        List.append_assoc, ← List.map_cons, ih]
      exact (List.append_assoc _ _ _).symm

theorem scan_table (table : List (List (List Char))) :
    Reader.scan ⟨rows, [], [], false⟩ (table.flatMap fun cells => line cells ++ ['\r', '\n']) =
      ⟨rows ++ table.map fun cells => if cells = [] then [[]] else cells, [], [], false⟩ := by
  induction table generalizing rows with
  | nil => rw [List.flatMap_nil, List.map_nil, List.append_nil, Reader.scan.eq_def]
  | cons cells table ih =>
      rw [List.flatMap_cons, List.append_assoc, List.cons_append, List.singleton_append, scan_line,
        ih, List.append_assoc]
      rfl

/-- A table that is written is read as it was, less its blank rows. -/
theorem parseCsv_toCsv (header : List (List Char)) (rows : List (List (List Char))) :
    parseCsv (toCsv header rows) = (header :: rows).filter fun cells =>
      cells.any fun cell => trim cell ≠ [] := by
  have hshown : ∀ cells, isShown (if cells = [] then [[]] else cells) =
      cells.any fun cell => trim cell ≠ [] := by
    intro cells
    cases cells with
    | nil => rfl
    | cons cell cells =>
        rw [if_neg (List.cons_ne_nil _ _), isShown]
        simp only [List.length_pos_iff]
  rw [parseCsv, toCsv_eq, scan_table, Reader.finish]
  simp only [List.length_nil, lt_irrefl, or_self, if_false, List.nil_append]
  rw [List.filter_map]
  refine (List.map_congr_left fun cells hcells => ?_).trans
    ((List.map_id _).trans (List.filter_congr fun cells _ => hshown cells))
  -- A row that is kept has a field.
  refine if_neg fun hnone => ?_
  have hkept := (List.mem_filter.mp hcells).2
  rw [Function.comp_apply, hnone] at hkept
  cases hkept

/-- Quotes, line breaks and blank fields. -/
example : parseCsv (toCsv ["a\"".toList, " ".toList] [["\r\n,".toList, []], [[], " ".toList]]) =
    [["a\"".toList, " ".toList], ["\r\n,".toList, []]] := by decide

end RestiqBackend.Csv
