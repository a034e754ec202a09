import Mathlib.Data.List.Basic
import Mathlib.Tactic.Common

/-!
Values as JSON text.

A text is parsed from the left, by a parser for each production that returns what it read and
what is left; the fuel bounds the nesting and the length of what is read, and the length of the
text is always enough. What is written here are objects whose members are strings, and they are
read back as they were.
-/

namespace Json

inductive Value
  | null
  | bool (b : Bool)
  | number (text : List Char)
  | string (text : List Char)
  | array (items : List Value)
  | object (members : List (List Char × Value))

/-! ### Writing -/

def hexDigit (n : ℕ) : Char := if n < 10 then .ofNat (n + 48) else .ofNat (n - 10 + 97)

/-- A character of a string, escaped where it has to be. -/
def quoteChar (c : Char) : List Char :=
  if c = '"' then ['\\', '"']
  else if c = '\\' then ['\\', '\\']
  else if 32 ≤ c.toNat then [c]
  else if c.toNat = 8 then ['\\', 'b']
  else if c.toNat = 9 then ['\\', 't']
  else if c.toNat = 10 then ['\\', 'n']
  else if c.toNat = 12 then ['\\', 'f']
  else if c.toNat = 13 then ['\\', 'r']
  else ['\\', 'u', '0', '0', hexDigit (c.toNat / 16), hexDigit (c.toNat % 16)]

def quoted (text : List Char) : List Char := text.flatMap quoteChar ++ ['"']

def writeString (text : List Char) : List Char := '"' :: quoted text

/-- The members of an object that are left to write, and its end. -/
def writeMembers : List (List Char × List Char) → List Char
  | [] => ['}']
  | [(key, value)] => writeString key ++ ':' :: (writeString value ++ ['}'])
  | (key, value) :: member :: rest =>
      writeString key ++ ':' :: (writeString value ++ ',' :: writeMembers (member :: rest))

/-- An object whose members are strings. -/
def stringify (members : List (List Char × List Char)) : List Char := '{' :: writeMembers members

/-! ### Parsing -/

def isSpace (c : Char) : Bool := c = ' ' || c = '\t' || c = '\n' || c = '\r'

def skipSpace (cs : List Char) : List Char := cs.dropWhile isSpace

def hexValue? (c : Char) : Option ℕ :=
  if '0' ≤ c ∧ c ≤ '9' then some (c.toNat - 48)
  else if 'a' ≤ c ∧ c ≤ 'f' then some (c.toNat - 97 + 10)
  else if 'A' ≤ c ∧ c ≤ 'F' then some (c.toNat - 65 + 10)
  else none

/-- Four digits of a code unit. -/
def parseUnit : List Char → Option (ℕ × List Char)
  | a :: b :: c :: d :: rest => do
      let a ← hexValue? a
      let b ← hexValue? b
      let c ← hexValue? c
      let d ← hexValue? d
      some (a * 4096 + b * 256 + c * 16 + d, rest)
  | _ => none

/-- The second unit of a pair, where it follows. -/
def parseLow : List Char → Option (ℕ × List Char)
  | '\\' :: 'u' :: rest => do
      let (low, rest) ← parseUnit rest
      if 0xDC00 ≤ low ∧ low < 0xE000 then some (low, rest) else none
  | _ => none

/-- The character of a code unit or of two; half a pair is no character. -/
def parseUnicode (cs : List Char) : Option (Char × List Char) := do
  let (unit, rest) ← parseUnit cs
  if 0xD800 ≤ unit ∧ unit < 0xDC00 then
    match parseLow rest with
    | some (low, rest) => some (.ofNat (0x10000 + (unit - 0xD800) * 0x400 + (low - 0xDC00)), rest)
    | none => some ('\uFFFD', rest)
  else if 0xDC00 ≤ unit ∧ unit < 0xE000 then some ('\uFFFD', rest)
  else some (.ofNat unit, rest)

def parseEscape : List Char → Option (Char × List Char)
  | [] => none
  | e :: rest =>
      if e = '"' ∨ e = '\\' ∨ e = '/' then some (e, rest)
      else if e = 'b' then some (.ofNat 8, rest)
      else if e = 't' then some (.ofNat 9, rest)
      else if e = 'n' then some (.ofNat 10, rest)
      else if e = 'f' then some (.ofNat 12, rest)
      else if e = 'r' then some (.ofNat 13, rest)
      else if e = 'u' then parseUnicode rest
      else none

/-- The next character of a string, none at its end. -/
def parseChar : List Char → Option (Option Char × List Char)
  | [] => none
  | c :: rest =>
      if c = '"' then some (none, rest)
      else if c = '\\' then (parseEscape rest).map fun x => (some x.1, x.2)
      else if c.toNat < 32 then none
      else some (some c, rest)

/-- What is left of a string. -/
def parseChars : ℕ → List Char → Option (List Char × List Char)
  | 0, _ => none
  | n + 1, cs =>
      match parseChar cs with
      | some (some c, rest) => (parseChars n rest).map fun x => (c :: x.1, x.2)
      | some (none, rest) => some ([], rest)
      | none => none

def isDigit (c : Char) : Bool := '0' ≤ c && c ≤ '9'

/-- A sign that may be there. -/
def optional (signs : List Char) : List Char → List Char × List Char
  | [] => ([], [])
  | c :: rest => if signs.contains c then ([c], rest) else ([], c :: rest)

/-- Digits behind one of the given signs, which may all be missing. -/
def parsePart (lead signs : List Char) (cs : List Char) : Option (List Char × List Char) :=
  match optional lead cs with
  | ([], rest) => some ([], rest)
  | (c, rest) =>
      let (sign, rest) := optional signs rest
      let digits := rest.takeWhile isDigit
      if digits = [] then none else some (c ++ sign ++ digits, rest.dropWhile isDigit)

def parseNumber (cs : List Char) : Option (Value × List Char) := do
  let (sign, rest) := optional ['-'] cs
  let digits := rest.takeWhile isDigit
  if digits = [] ∨ (1 < digits.length ∧ digits.head? = some '0') then none
  else do
    let (fraction, rest) ← parsePart ['.'] [] (rest.dropWhile isDigit)
    let (exponent, rest) ← parsePart ['e', 'E'] ['+', '-'] rest
    some (.number (sign ++ digits ++ fraction ++ exponent), rest)

def parseWord (cs : List Char) : Option (Value × List Char) :=
  if "true".toList.isPrefixOf cs then some (.bool true, cs.drop 4)
  else if "false".toList.isPrefixOf cs then some (.bool false, cs.drop 5)
  else if "null".toList.isPrefixOf cs then some (.null, cs.drop 4)
  else parseNumber cs

abbrev Parser := List Char → Option (Value × List Char)

/-- The items of an array from one that must be there to its end. -/
def parseItems (p : Parser) : ℕ → List Char → Option (List Value × List Char)
  | 0, _ => none
  | n + 1, cs => do
      let (value, rest) ← p cs
      match skipSpace rest with
      | ',' :: rest => (parseItems p n rest).map fun x => (value :: x.1, x.2)
      | ']' :: rest => some ([value], rest)
      | _ => none

/-- What stands between a key and the next member. -/
def parseMember (p : Parser) (rest : List Char) : Option (Value × List Char) :=
  match skipSpace rest with
  | ':' :: rest => p rest
  | _ => none

/-- The members of an object from one that must be there to its end. -/
def parseMembers (p : Parser) : ℕ → List Char → Option (List (List Char × Value) × List Char)
  | 0, _ => none
  | n + 1, cs =>
      match skipSpace cs with
      | '"' :: rest => do
          let (key, rest) ← parseChars n rest
          let (value, rest) ← parseMember p rest
          match skipSpace rest with
          | ',' :: rest => (parseMembers p n rest).map fun x => ((key, value) :: x.1, x.2)
          | '}' :: rest => some ([(key, value)], rest)
          | _ => none
      | _ => none

def parseArray (p : Parser) (n : ℕ) (cs : List Char) : Option (Value × List Char) :=
  match skipSpace cs with
  | ']' :: rest => some (.array [], rest)
  | _ => (parseItems p n cs).map fun x => (.array x.1, x.2)

def parseObject (p : Parser) (n : ℕ) (cs : List Char) : Option (Value × List Char) :=
  match skipSpace cs with
  | '}' :: rest => some (.object [], rest)
  | _ => (parseMembers p n cs).map fun x => (.object x.1, x.2)

def parseValue : ℕ → Parser
  | 0, _ => none
  | n + 1, cs =>
      match skipSpace cs with
      | [] => none
      | c :: rest =>
          if c = '{' then parseObject (parseValue n) n rest
          else if c = '[' then parseArray (parseValue n) n rest
          else if c = '"' then (parseChars n rest).map fun x => (.string x.1, x.2)
          else parseWord (c :: rest)

/-- A whole text. -/
def parse (text : List Char) : Option Value := do
  let (value, rest) ← parseValue (text.length + 1) text
  if skipSpace rest = [] then some value else none

/-- The member of a name; of several the last. -/
def Value.member? (name : List Char) : Value → Option Value
  | .object members => (members.reverse.find? (·.1 = name)).map (·.2)
  | _ => none

/-! ### Reading what was written -/

theorem hexValue?_hexDigit (n : ℕ) (h : n < 16) : hexValue? (hexDigit n) = some n := by
  have hall : ∀ i : Fin 16, hexValue? (hexDigit i) = some i.val := by decide +kernel
  exact hall ⟨n, h⟩

theorem ofNat_toNat {c : Char} {n : ℕ} (h : c.toNat = n) : Char.ofNat n = c := by
  rw [← h, Char.ofNat_toNat]

theorem quoteChar_ne_nil (c : Char) : quoteChar c ≠ [] := by
  unfold quoteChar
  split_ifs <;> exact List.cons_ne_nil _ _

theorem parseChar_quoteChar (c : Char) (rest : List Char) :
    parseChar (quoteChar c ++ rest) = some (some c, rest) := by
  unfold quoteChar
  split_ifs with hquote hback hplain hb ht hn hf hr
  · rw [hquote]
    rfl
  · rw [hback]
    rfl
  · have hlow : ¬ c.toNat < 32 := by omega
    simp [parseChar, hquote, hback, hlow]
  · rw [← ofNat_toNat hb]
    rfl
  · rw [← ofNat_toNat ht]
    rfl
  · rw [← ofNat_toNat hn]
    rfl
  · rw [← ofNat_toNat hf]
    rfl
  · rw [← ofNat_toNat hr]
    rfl
  · -- A control character is written with two zeros and two digits.
    have hunit : parseUnit ('0' :: '0' :: hexDigit (c.toNat / 16) :: hexDigit (c.toNat % 16) ::
        rest) = some (c.toNat, rest) := by
      have hhigh := hexValue?_hexDigit (c.toNat / 16) (by omega)
      have hlow := hexValue?_hexDigit (c.toNat % 16) (by omega)
      have hzero : hexValue? '0' = some 0 := by decide
      have hsum : 0 * 4096 + 0 * 256 + c.toNat / 16 * 16 + c.toNat % 16 = c.toNat := by omega
      simp only [parseUnit, hhigh, hlow, hzero, Option.bind_eq_bind, Option.bind_some, hsum]
    have hunicode : parseUnicode ('0' :: '0' :: hexDigit (c.toNat / 16) ::
        hexDigit (c.toNat % 16) :: rest) = some (c, rest) := by
      have hsmall : ¬ (0xD800 ≤ c.toNat ∧ c.toNat < 0xDC00) := by omega
      have hsmall' : ¬ (0xDC00 ≤ c.toNat ∧ c.toNat < 0xE000) := by omega
      simp only [parseUnicode, hunit, Option.bind_eq_bind, Option.bind_some, if_neg hsmall,
        if_neg hsmall', Char.ofNat_toNat]
    have hescape : parseEscape ('u' :: '0' :: '0' :: hexDigit (c.toNat / 16) ::
        hexDigit (c.toNat % 16) :: rest) = some (c, rest) := hunicode
    change (parseEscape ('u' :: '0' :: '0' :: hexDigit (c.toNat / 16) ::
      hexDigit (c.toNat % 16) :: rest)).map _ = _
    rw [hescape]
    rfl

theorem parseChars_quoted {n : ℕ} (text rest : List Char) (h : text.length < n) :
    parseChars n (quoted text ++ rest) = some (text, rest) := by
  induction text generalizing n with
  | nil =>
      obtain ⟨n, rfl⟩ := Nat.exists_eq_succ_of_ne_zero (Nat.ne_of_gt h)
      rfl
  | cons c text ih =>
      obtain ⟨n, rfl⟩ := Nat.exists_eq_succ_of_ne_zero (Nat.ne_of_gt (Nat.zero_lt_of_lt h))
      have hsplit : quoted (c :: text) ++ rest = quoteChar c ++ (quoted text ++ rest) := by
        simp [quoted, List.flatMap_cons, List.append_assoc]
      have hrest := ih (n := n) (by simpa using h)
      rw [hsplit]
      simp only [parseChars, parseChar_quoteChar, hrest, Option.map_some]

theorem length_lt_quoted (text : List Char) : text.length < (quoted text).length := by
  induction text with
  | nil => exact Nat.zero_lt_one
  | cons c text ih =>
      have hpos := List.length_pos_iff.mpr (quoteChar_ne_nil c)
      simp only [quoted, List.flatMap_cons, List.length_append, List.length_cons,
        List.length_nil] at ih ⊢
      omega

theorem parseValue_writeString {n : ℕ} (text rest : List Char) (h : text.length < n) :
    parseValue (n + 1) (writeString text ++ rest) = some (.string text, rest) := by
  have hrest := parseChars_quoted text rest h
  change (parseChars n (quoted text ++ rest)).map _ = _
  rw [hrest]
  rfl

/-- Reading back members that were written, with enough fuel for their length. -/
theorem parseMembers_writeMembers {n m : ℕ} (members : List (List Char × List Char))
    (rest : List Char) (hne : members ≠ []) (hn : (writeMembers members).length ≤ n)
    (hm : (writeMembers members).length ≤ m) :
    parseMembers (parseValue (n + 1)) m (writeMembers members ++ rest) =
      some (members.map fun x => (x.1, .string x.2), rest) := by
  induction members generalizing m with
  | nil => exact absurd rfl hne
  | cons member members ih =>
      obtain ⟨key, value⟩ := member
      have hkey := length_lt_quoted key
      have hvalue := length_lt_quoted value
      -- Whatever follows the first member, the member itself is read back.
      have hfirst : ∀ (m : ℕ) (tail : List Char), key.length < m → value.length < n →
          parseMembers (parseValue (n + 1)) (m + 1)
            (writeString key ++ ':' :: (writeString value ++ tail)) =
          (match skipSpace tail with
            | ',' :: rest => (parseMembers (parseValue (n + 1)) m rest).map
                fun x => ((key, Value.string value) :: x.1, x.2)
            | '}' :: rest => some ([(key, Value.string value)], rest)
            | _ => none) := by
        intro m tail hkeym hvaluen
        have hkeyread := parseChars_quoted key (':' :: (writeString value ++ tail)) hkeym
        have hvalueread := parseValue_writeString value tail hvaluen
        change ((parseChars m (quoted key ++ ':' :: (writeString value ++ tail))).bind _) = _
        rw [hkeyread, Option.bind_some]
        change ((parseValue (n + 1) (writeString value ++ tail)).bind _) = _
        rw [hvalueread]
        rfl
      cases members with
      | nil =>
          simp only [writeMembers, List.length_append, List.length_cons, writeString,
            List.length_nil] at hn hm
          obtain ⟨m, rfl⟩ := Nat.exists_eq_succ_of_ne_zero (show m ≠ 0 by omega)
          have hsplit : writeMembers [(key, value)] ++ rest =
              writeString key ++ ':' :: (writeString value ++ ('}' :: rest)) := by
            simp [writeMembers, List.append_assoc]
          rw [hsplit, hfirst m _ (by omega) (by omega)]
          rfl
      | cons member members =>
          simp only [writeMembers, List.length_append, List.length_cons, writeString] at hn hm
          obtain ⟨m, rfl⟩ := Nat.exists_eq_succ_of_ne_zero (show m ≠ 0 by omega)
          have hrest := ih (m := m) (List.cons_ne_nil _ _) (by omega) (by omega)
          have hsplit : writeMembers ((key, value) :: member :: members) ++ rest =
              writeString key ++ ':' :: (writeString value ++
                (',' :: (writeMembers (member :: members) ++ rest))) := by
            simp [writeMembers, List.append_assoc]
          rw [hsplit, hfirst m _ (by omega) (by omega)]
          change (parseMembers (parseValue (n + 1)) m
            (writeMembers (member :: members) ++ rest)).map _ = _
          rw [hrest]
          rfl

/-- An object whose members are strings is read back as it was written. -/
theorem parse_stringify (members : List (List Char × List Char)) (hne : members ≠ []) :
    parse (stringify members) = some (.object (members.map fun x => (x.1, .string x.2))) := by
  obtain ⟨tail, htail⟩ : ∃ tail, writeMembers members = '"' :: tail := by
    cases members with
    | nil => exact absurd rfl hne
    | cons member members =>
        cases members with
        | nil => exact ⟨_, rfl⟩
        | cons => exact ⟨_, rfl⟩
  have hmembers := parseMembers_writeMembers (n := (writeMembers members).length)
    (m := (writeMembers members).length + 1) members [] hne (by omega) (by omega)
  rw [List.append_nil] at hmembers
  -- The first member begins with its key, so the object is not empty.
  have hobject : parseValue ((stringify members).length + 1) (stringify members) =
      some (.object (members.map fun x => (x.1, .string x.2)), []) := by
    have hopen : parseValue ((stringify members).length + 1) (stringify members) =
        parseObject (parseValue ((writeMembers members).length + 1))
          ((writeMembers members).length + 1) (writeMembers members) := rfl
    have hmore : parseObject (parseValue ((writeMembers members).length + 1))
          ((writeMembers members).length + 1) (writeMembers members) =
        (parseMembers (parseValue ((writeMembers members).length + 1))
          ((writeMembers members).length + 1) (writeMembers members)).map
            fun x => (.object x.1, x.2) := by
      unfold parseObject
      rw [htail]
      rfl
    rw [hopen, hmore, hmembers]
    rfl
  rw [parse, hobject]
  rfl

end Json
