import Mathlib.Data.List.Basic
import Mathlib.Tactic.Common

/-!
Bytes as text that is safe in a URL.

Three bytes are four digits of six bits; a rest of one or two bytes takes two or three digits,
and nothing is padded. Decoding is lenient: it takes the digits of either alphabet, leaves out
whatever is no digit, stops at a padding sign, and drops a digit that no byte is left for.
-/

namespace Base64Url

/-! ### Digits -/

/-- The digit of a value: letters, small letters, numerals and two signs. -/
def digit (n : ℕ) : Char :=
  if n < 26 then .ofNat (n + 65)
  else if n < 52 then .ofNat (n - 26 + 97)
  else if n < 62 then .ofNat (n - 52 + 48)
  else if n = 62 then '-' else '_'

/-- The value of a digit, where the alphabet that is not for URLs has two other signs. -/
def value? (c : Char) : Option ℕ :=
  if 'A' ≤ c ∧ c ≤ 'Z' then some (c.toNat - 65)
  else if 'a' ≤ c ∧ c ≤ 'z' then some (c.toNat - 97 + 26)
  else if '0' ≤ c ∧ c ≤ '9' then some (c.toNat - 48 + 52)
  else if c = '-' ∨ c = '+' then some 62
  else if c = '_' ∨ c = '/' then some 63
  else none

theorem value?_digit (n : ℕ) (h : n < 64) : value? (digit n) = some n := by
  have hall : ∀ i : Fin 64, value? (digit i) = some i.val := by decide +kernel
  exact hall ⟨n, h⟩

theorem digit_ne_pad (n : ℕ) (h : n < 64) : digit n ≠ '=' := by
  have hall : ∀ i : Fin 64, digit i ≠ '=' := by decide +kernel
  exact hall ⟨n, h⟩

/-! ### Encoding -/

/-- The values of the digits. -/
def sextets : List UInt8 → List ℕ
  | [] => []
  | [a] => [a.toNat / 4, a.toNat % 4 * 16]
  | [a, b] => [a.toNat / 4, a.toNat % 4 * 16 + b.toNat / 16, b.toNat % 16 * 4]
  | a :: b :: c :: rest =>
      a.toNat / 4 :: (a.toNat % 4 * 16 + b.toNat / 16) :: (b.toNat % 16 * 4 + c.toNat / 64) ::
        c.toNat % 64 :: sextets rest

def encode (bytes : List UInt8) : List Char := (sextets bytes).map digit

/-- The bytes that the values of digits stand for. -/
def octets : List ℕ → List UInt8
  | [] => []
  | [_] => []
  | [a, b] => [.ofNat (a * 4 + b / 16)]
  | [a, b, c] => [.ofNat (a * 4 + b / 16), .ofNat (b % 16 * 16 + c / 4)]
  | a :: b :: c :: d :: rest =>
      .ofNat (a * 4 + b / 16) :: .ofNat (b % 16 * 16 + c / 4) :: .ofNat (c % 4 * 64 + d) ::
        octets rest

def decode (text : List Char) : List UInt8 :=
  octets ((text.takeWhile (· ≠ '=')).filterMap value?)

/-! ### Decoding what was encoded -/

theorem sextets_lt (bytes : List UInt8) : ∀ n ∈ sextets bytes, n < 64 := by
  induction bytes using sextets.induct with
  | case1 => simp [sextets]
  | case2 a =>
      have ha := a.toNat_lt
      simp only [sextets, List.mem_cons, List.not_mem_nil, or_false, forall_eq_or_imp, forall_eq]
      omega
  | case3 a b =>
      have ha := a.toNat_lt
      have hb := b.toNat_lt
      simp only [sextets, List.mem_cons, List.not_mem_nil, or_false, forall_eq_or_imp, forall_eq]
      omega
  | case4 a b c rest ih =>
      have ha := a.toNat_lt
      have hb := b.toNat_lt
      have hc := c.toNat_lt
      simp only [sextets, List.mem_cons, forall_eq_or_imp]
      exact ⟨by omega, by omega, by omega, by omega, ih⟩

theorem ofNat_eq {n : ℕ} {a : UInt8} (h : n = a.toNat) : UInt8.ofNat n = a := by
  rw [h, UInt8.ofNat_toNat]

theorem octets_sextets (bytes : List UInt8) : octets (sextets bytes) = bytes := by
  induction bytes using sextets.induct with
  | case1 => rfl
  | case2 a =>
      have ha := a.toNat_lt
      simp only [sextets, octets, List.cons.injEq, and_true]
      exact ofNat_eq (by omega)
  | case3 a b =>
      have ha := a.toNat_lt
      have hb := b.toNat_lt
      simp only [sextets, octets, List.cons.injEq, and_true]
      exact ⟨ofNat_eq (by omega), ofNat_eq (by omega)⟩
  | case4 a b c rest ih =>
      have ha := a.toNat_lt
      have hb := b.toNat_lt
      have hc := c.toNat_lt
      simp only [sextets, octets, List.cons.injEq]
      exact ⟨ofNat_eq (by omega), ofNat_eq (by omega), ofNat_eq (by omega), ih⟩

theorem filterMap_digits (ns : List ℕ) (h : ∀ n ∈ ns, n < 64) :
    (ns.map digit).filterMap value? = ns := by
  induction ns with
  | nil => rfl
  | cons n ns ih =>
      rw [List.map_cons, List.filterMap_cons_some (value?_digit n (h n List.mem_cons_self)),
        ih fun m hm => h m (List.mem_cons_of_mem _ hm)]

/-- Decoding gives back the bytes that were encoded. -/
theorem decode_encode (bytes : List UInt8) : decode (encode bytes) = bytes := by
  have hlt := sextets_lt bytes
  have hall : (encode bytes).takeWhile (· ≠ '=') = encode bytes := by
    have hdigits : ∀ ns : List ℕ, (∀ n ∈ ns, n < 64) →
        (ns.map digit).takeWhile (· ≠ '=') = ns.map digit := by
      intro ns hns
      induction ns with
      | nil => rfl
      | cons n ns ih =>
          rw [List.map_cons, List.takeWhile_cons_of_pos
            (by simpa using digit_ne_pad n (hns n List.mem_cons_self)),
            ih fun m hm => hns m (List.mem_cons_of_mem _ hm)]
    exact hdigits _ hlt
  rw [decode, hall, encode, filterMap_digits _ hlt, octets_sextets]

end Base64Url
