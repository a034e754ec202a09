import Mathlib.Algebra.Group.Nat.Defs
import Mathlib.Algebra.Order.Group.Int
import Mathlib.Data.List.Basic
import Mathlib.Tactic.Common

/-!
Instants as text.

An instant is a count of milliseconds, and its text is the date and time of day it falls on,
with as many digits as a year needs. The calendar is counted in cycles of four hundred years
that begin in March, so that the leap day comes last.
-/

namespace IsoDate

/-! ### The calendar -/

structure Civil where
  year : ℤ
  month : ℕ
  day : ℕ
  deriving DecidableEq

/-- The days of a year that begins in March, with the number of that year. -/
structure MarchDay where
  year : ℤ
  dayOfYear : ℤ

/-- The year and its day, of a day counted from the first of March of the year zero. -/
def marchDay (days : ℤ) : MarchDay :=
  let rest := days % 146097
  let century := min 3 (rest / 36524)
  let rest := rest - century * 36524
  let leap := rest / 1461
  let rest := rest % 1461
  let single := min 3 (rest / 365)
  ⟨days / 146097 * 400 + century * 100 + leap * 4 + single, rest - single * 365⟩

def MarchDay.days (m : MarchDay) : ℤ :=
  m.year * 365 + m.year / 4 - m.year / 100 + m.year / 400 + m.dayOfYear

/-- The day of the first of January 1970, counted so. -/
def epoch : ℤ := 719468

/-- The date of a day that is counted from the epoch. -/
def civil (days : ℤ) : Civil :=
  let m := marchDay (days + epoch)
  let month := (5 * m.dayOfYear + 2) / 153
  let day := m.dayOfYear - (153 * month + 2) / 5 + 1
  if month < 10 then ⟨m.year, (month + 3).toNat, day.toNat⟩
  else ⟨m.year + 1, (month - 9).toNat, day.toNat⟩

def Civil.days (c : Civil) : ℤ :=
  if 2 < c.month then
    MarchDay.days ⟨c.year, (153 * ((c.month : ℤ) - 3) + 2) / 5 + c.day - 1⟩ - epoch
  else MarchDay.days ⟨c.year - 1, (153 * ((c.month : ℤ) + 9) + 2) / 5 + c.day - 1⟩ - epoch

theorem marchDay_bounds (days : ℤ) :
    0 ≤ (marchDay days).dayOfYear ∧ (marchDay days).dayOfYear ≤ 365 := by
  simp only [marchDay]
  omega

/-- The leap days before a year, in a cycle of four hundred. -/
theorem cycle_days (cycle century leap single : ℤ) (hcentury : 0 ≤ century ∧ century ≤ 3)
    (hleap : 0 ≤ leap ∧ leap ≤ 24) (hsingle : 0 ≤ single ∧ single ≤ 3) (dayOfYear : ℤ) :
    MarchDay.days ⟨cycle * 400 + century * 100 + leap * 4 + single, dayOfYear⟩ =
      cycle * 146097 + century * 36524 + leap * 1461 + single * 365 + dayOfYear := by
  have hfour : (cycle * 400 + century * 100 + leap * 4 + single) / 4 =
      cycle * 100 + century * 25 + leap := by omega
  have hhundred : (cycle * 400 + century * 100 + leap * 4 + single) / 100 =
      cycle * 4 + century := by omega
  have hcycle : (cycle * 400 + century * 100 + leap * 4 + single) / 400 = cycle := by omega
  simp only [MarchDay.days, hfour, hhundred, hcycle]
  omega

theorem marchDay_days (days : ℤ) : (marchDay days).days = days := by
  simp only [marchDay]
  rw [cycle_days _ _ _ _ (by omega) (by omega) (by omega)]
  omega

theorem civil_bounds (days : ℤ) : 1 ≤ (civil days).month ∧ (civil days).month ≤ 12 ∧
    1 ≤ (civil days).day ∧ (civil days).day ≤ 31 := by
  have hbounds := marchDay_bounds (days + epoch)
  simp only [civil]
  split
  · dsimp only
    omega
  · dsimp only
    omega

/-- The date of a day is a date of that day. -/
theorem civil_days (days : ℤ) : (civil days).days = days := by
  have hbounds := marchDay_bounds (days + epoch)
  have hmarch := marchDay_days (days + epoch)
  simp only [civil]
  generalize marchDay (days + epoch) = m at hbounds hmarch
  obtain ⟨year, dayOfYear⟩ := m
  dsimp only at hbounds ⊢
  -- The month and its day give back the day of the year.
  split
  next hearly =>
    have hmonth : 2 < ((5 * dayOfYear + 2) / 153 + 3).toNat := by omega
    have hday : (153 * ((((5 * dayOfYear + 2) / 153 + 3).toNat : ℤ) - 3) + 2) / 5 +
        ((dayOfYear - (153 * ((5 * dayOfYear + 2) / 153) + 2) / 5 + 1).toNat : ℤ) - 1 =
          dayOfYear := by omega
    simp only [Civil.days, if_pos hmonth, hday, hmarch]
    omega
  next hlate =>
    have hmonth : ¬ 2 < ((5 * dayOfYear + 2) / 153 - 9).toNat := by omega
    have hday : (153 * ((((5 * dayOfYear + 2) / 153 - 9).toNat : ℤ) + 9) + 2) / 5 +
        ((dayOfYear - (153 * ((5 * dayOfYear + 2) / 153) + 2) / 5 + 1).toNat : ℤ) - 1 =
          dayOfYear := by omega
    have hyear : year + 1 - 1 = year := by omega
    simp only [Civil.days, if_neg hmonth, hday, hyear, hmarch]
    omega

/-! ### Digits -/

/-- The last `k` decimal digits. -/
def digits : ℕ → ℕ → List Char
  | 0, _ => []
  | k + 1, n => digits k (n / 10) ++ [.ofNat (n % 10 + 48)]

def digitValue (c : Char) : ℕ := c.toNat - 48

/-- The number that the first `k` characters stand for, and what is left. -/
def readDigits (k : ℕ) (cs : List Char) : ℕ × List Char :=
  ((cs.take k).foldl (fun n c => n * 10 + digitValue c) 0, cs.drop k)

@[simp] theorem digits_length (k n : ℕ) : (digits k n).length = k := by
  induction k generalizing n with
  | zero => rfl
  | succ k ih => simp [digits, ih]

theorem digitValue_ofNat (n : ℕ) (h : n < 10) : digitValue (.ofNat (n + 48)) = n := by
  have hall : ∀ i : Fin 10, digitValue (.ofNat (i + 48)) = i.val := by decide +kernel
  exact hall ⟨n, h⟩

theorem foldl_digits (k n a : ℕ) (h : n < 10 ^ k) :
    (digits k n).foldl (fun n c => n * 10 + digitValue c) a = a * 10 ^ k + n := by
  induction k generalizing n with
  | zero =>
      have hzero : n = 0 := by simpa using h
      simp [digits, hzero]
  | succ k ih =>
      have hpow : 10 ^ (k + 1) = 10 ^ k * 10 := Nat.pow_succ 10 k
      have hdiv : n / 10 < 10 ^ k := by omega
      have hassoc : a * 10 ^ (k + 1) = a * 10 ^ k * 10 := by rw [hpow, Nat.mul_assoc]
      rw [digits, List.foldl_append, ih _ hdiv]
      simp only [List.foldl_cons, List.foldl_nil, digitValue_ofNat _ (Nat.mod_lt n (by decide))]
      omega

theorem readDigits_digits (k n : ℕ) (rest : List Char) (h : n < 10 ^ k) :
    readDigits k (digits k n ++ rest) = (n, rest) := by
  have htake : (digits k n ++ rest).take k = digits k n := by
    rw [List.take_append_of_le_length (by simp)]
    exact List.take_of_length_le (by simp)
  have hdrop : (digits k n ++ rest).drop k = rest := by
    rw [List.drop_append]
    simp
  rw [readDigits, htake, hdrop, foldl_digits k n 0 h, Nat.zero_mul, Nat.zero_add]

/-! ### Instants -/

def dayLength : ℤ := 86400000

/-- A year of four digits, or of six behind a sign. -/
def writeYear (year : ℤ) : List Char :=
  if 0 ≤ year ∧ year ≤ 9999 then digits 4 year.toNat
  else (if year < 0 then '-' else '+') :: digits 6 year.natAbs

/-- The text of an instant, `YYYY-MM-DDTHH:mm:ss.sssZ`. -/
def toIso (ms : ℤ) : List Char :=
  let date := civil (ms / dayLength)
  let time := (ms % dayLength).toNat
  writeYear date.year ++ '-' :: (digits 2 date.month ++ '-' :: (digits 2 date.day ++ 'T' ::
    (digits 2 (time / 3600000) ++ ':' :: (digits 2 (time / 60000 % 60) ++ ':' ::
      (digits 2 (time / 1000 % 60) ++ '.' :: (digits 3 (time % 1000) ++ ['Z']))))))

def readYear : List Char → ℤ × List Char
  | '-' :: rest => (-(readDigits 6 rest).1, (readDigits 6 rest).2)
  | '+' :: rest => ((readDigits 6 rest).1, (readDigits 6 rest).2)
  | cs => ((readDigits 4 cs).1, (readDigits 4 cs).2)

/-- The instant that a text stands for if it is the text of one. -/
def read (text : List Char) : ℤ :=
  let (year, rest) := readYear text
  let (month, rest) := readDigits 2 (rest.drop 1)
  let (day, rest) := readDigits 2 (rest.drop 1)
  let (hours, rest) := readDigits 2 (rest.drop 1)
  let (minutes, rest) := readDigits 2 (rest.drop 1)
  let (seconds, rest) := readDigits 2 (rest.drop 1)
  let (millis, _) := readDigits 3 (rest.drop 1)
  Civil.days ⟨year, month, day⟩ * dayLength +
    (hours * 3600000 + minutes * 60000 + seconds * 1000 + millis : ℕ)

/-- The instant that has the text. -/
def ofIso? (text : List Char) : Option ℤ :=
  if toIso (read text) = text then some (read text) else none

/-- The instants that a date can hold. -/
def InRange (ms : ℤ) : Prop := -8640000000000000 ≤ ms ∧ ms ≤ 8640000000000000

theorem year_bounds {ms : ℤ} (h : InRange ms) :
    -999999 ≤ (civil (ms / dayLength)).year ∧ (civil (ms / dayLength)).year ≤ 999999 := by
  obtain ⟨hlow, hhigh⟩ := h
  have hbounds := marchDay_bounds (ms / dayLength + epoch)
  have hmarch := marchDay_days (ms / dayLength + epoch)
  simp only [civil]
  generalize marchDay (ms / dayLength + epoch) = m at hbounds hmarch
  obtain ⟨year, dayOfYear⟩ := m
  simp only [MarchDay.days, dayLength, epoch] at hbounds hmarch
  split
  · dsimp only
    omega
  · dsimp only
    omega

theorem readYear_writeYear {year : ℤ} (rest : List Char)
    (h : -999999 ≤ year ∧ year ≤ 999999) : readYear (writeYear year ++ rest) = (year, rest) := by
  unfold writeYear
  split_ifs with hfour hneg
  · -- A digit is no sign.
    have hread := readDigits_digits 4 year.toNat rest (by omega)
    have hdigit : ∀ n, Char.ofNat (n % 10 + 48) ≠ '-' ∧ Char.ofNat (n % 10 + 48) ≠ '+' := by
      have hall : ∀ i : Fin 10, Char.ofNat (i + 48) ≠ '-' ∧ Char.ofNat (i + 48) ≠ '+' := by decide
      exact fun n => hall ⟨n % 10, Nat.mod_lt n (by decide)⟩
    obtain ⟨c, cs, hcs, hminus, hplus⟩ : ∃ c cs, digits 4 year.toNat ++ rest = c :: cs ∧
        c ≠ '-' ∧ c ≠ '+' := ⟨_, _, rfl, (hdigit _).1, (hdigit _).2⟩
    have hplain : readYear (digits 4 year.toNat ++ rest) =
        (((readDigits 4 (digits 4 year.toNat ++ rest)).1 : ℤ),
          (readDigits 4 (digits 4 year.toNat ++ rest)).2) := by
      rw [hcs]
      unfold readYear
      split
      next heq => exact absurd (List.cons.inj heq).1 hminus
      next heq => exact absurd (List.cons.inj heq).1 hplus
      next => rfl
    rw [hplain, hread]
    refine Prod.ext ?_ rfl
    dsimp only
    omega
  · have hread := readDigits_digits 6 year.natAbs rest (by omega)
    have hsign : readYear (('-' :: digits 6 year.natAbs) ++ rest) =
        (-((readDigits 6 (digits 6 year.natAbs ++ rest)).1 : ℤ),
          (readDigits 6 (digits 6 year.natAbs ++ rest)).2) := rfl
    rw [hsign, hread]
    refine Prod.ext ?_ rfl
    dsimp only
    omega
  · have hread := readDigits_digits 6 year.natAbs rest (by omega)
    have hsign : readYear (('+' :: digits 6 year.natAbs) ++ rest) =
        (((readDigits 6 (digits 6 year.natAbs ++ rest)).1 : ℤ),
          (readDigits 6 (digits 6 year.natAbs ++ rest)).2) := rfl
    rw [hsign, hread]
    refine Prod.ext ?_ rfl
    dsimp only
    omega

theorem read_toIso {ms : ℤ} (h : InRange ms) : read (toIso ms) = ms := by
  obtain ⟨hmonth, hmonth', hday, hday'⟩ := civil_bounds (ms / dayLength)
  have hdays := civil_days (ms / dayLength)
  have hyear := year_bounds h
  have htime : 0 ≤ ms % dayLength ∧ ms % dayLength < dayLength :=
    ⟨Int.emod_nonneg _ (by decide), Int.emod_lt_of_pos _ (by decide)⟩
  have hsplit : ms / dayLength * dayLength + ms % dayLength = ms := by
    rw [Int.mul_comm]
    exact Int.mul_ediv_add_emod ms dayLength
  have hhours : (ms % dayLength).toNat / 3600000 < 10 ^ 2 := by
    have hdayLength : dayLength = 86400000 := rfl
    rw [hdayLength] at htime ⊢
    omega
  unfold read toIso
  dsimp only
  simp only [readYear_writeYear _ hyear, List.drop_succ_cons, List.drop_zero]
  rw [readDigits_digits 2 _ _ (by omega)]
  simp only [List.drop_succ_cons, List.drop_zero]
  rw [readDigits_digits 2 _ _ (by omega)]
  simp only [List.drop_succ_cons, List.drop_zero]
  rw [readDigits_digits 2 _ _ hhours]
  simp only [List.drop_succ_cons, List.drop_zero]
  rw [readDigits_digits 2 _ _ (by omega)]
  simp only [List.drop_succ_cons, List.drop_zero]
  rw [readDigits_digits 2 _ _ (by omega)]
  simp only [List.drop_succ_cons, List.drop_zero]
  rw [readDigits_digits 3 _ _ (by omega)]
  have hcivil : Civil.days ⟨(civil (ms / dayLength)).year, (civil (ms / dayLength)).month,
      (civil (ms / dayLength)).day⟩ = ms / dayLength := hdays
  simp only [hcivil]
  have hdayLength : dayLength = 86400000 := rfl
  have hparts : ((ms % dayLength).toNat / 3600000 * 3600000 +
      (ms % dayLength).toNat / 60000 % 60 * 60000 + (ms % dayLength).toNat / 1000 % 60 * 1000 +
        (ms % dayLength).toNat % 1000) = (ms % dayLength).toNat := by omega
  rw [hparts]
  omega

/-- The text of an instant stands for it. -/
theorem ofIso?_toIso {ms : ℤ} (h : InRange ms) : ofIso? (toIso ms) = some ms := by
  rw [ofIso?, read_toIso h, if_pos rfl]

example : String.ofList (toIso 1772323200123) = "2026-03-01T00:00:00.123Z" := by decide +kernel

end IsoDate
