import Mathlib.Data.Finset.Card
import Mathlib.Data.List.Chain
import Mathlib.Data.List.Infix
import RestiqBackend.Encoding.Text
import RestiqBackend.Serial
import RestiqBackend.Store

/-!
A tenant's subdomain (`src/platform/tenant-slug.ts`, `chooseSlug` of `src/ops/tenants`).

A slug is made from a company's name when none is asked for: letters and digits with single
hyphens between them, cut to length, without the words for the kind of company. When it is
taken a number is put behind it, for which it is cut once more. Letter case and the
decomposition of accents are asked of the platform.
-/

namespace RestiqBackend.Slugs

open Serial (check orElseThrow)

/-! ### What is a slug -/

def isAlnum (c : Char) : Bool := ('a' ≤ c && c ≤ 'z') || ('0' ≤ c && c ≤ '9')

/-- `/^[a-z0-9][a-z0-9-]{1,30}[a-z0-9]$/` -/
def slugPattern : List Char → Bool
  | [] => false
  | first :: rest =>
      isAlnum first && rest.getLast?.any isAlnum &&
        (1 ≤ rest.dropLast.length && rest.dropLast.length ≤ 30) &&
        rest.dropLast.all fun c => isAlnum c || c = '-'

/-- Names of the service's own surfaces, never given to a tenant. -/
def reservedSlugs : List (List Char) :=
  ["www", "app", "api", "admin", "ops", "pos", "kds", "qr", "guest", "device", "devices", "hub",
    "public", "login", "auth", "mail", "email", "smtp", "support", "help", "docs", "status",
    "billing", "staging", "stage", "dev", "test", "demo", "static", "assets", "cdn", "restiq",
    "idelta", "root", "system", "internal", "sandbox", "portal"].map String.toList

inductive SlugProblem
  | invalid
  | reserved
  deriving DecidableEq

def slugProblem (slug : List Char) : Option SlugProblem :=
  if slugPattern slug = false ∨ ['-', '-'] <:+: slug then some .invalid
  else if slug ∈ reservedSlugs then some .reserved
  else none

/-! ### A slug from a name -/

/-- `.replace(/[^a-z0-9]+/g, '-')`, the hyphen in the place of the last of the characters. -/
def hyphenate : List Char → List Char
  | [] => []
  | c :: cs =>
      if isAlnum c then c :: hyphenate cs
      else if cs.head?.any fun next => !isAlnum next then hyphenate cs
      else '-' :: hyphenate cs

/-- A text without the hyphens at its end. -/
def dropHyphens (s : List Char) : List Char := s.rdropWhile (· = '-')

def companyForms : List (List Char) :=
  ["pvt", "ltd", "llp", "inc", "pty", "limited", "private"].map String.toList

/-- Hyphens and words for the kind of company, by turns. -/
def isForms : List Char → Bool
  | '-' :: rest => (rest.splitOn '-').all (· ∈ companyForms)
  | _ => false

/-- The text up to the first place from which it is such words only. -/
def dropForms : List Char → List Char
  | [] => []
  | c :: cs => if isForms (c :: cs) then [] else c :: dropForms cs

def isCombining (c : Char) : Bool := 0x300 ≤ c.toNat && c.toNat ≤ 0x36F

def dropFirstHyphen : List Char → List Char
  | '-' :: rest => rest
  | s => s

section Platform

variable (toLowerCase normalizeNFKD : List Char → List Char)

/-- "Bay Leaf Kitchens Pvt Ltd" is made "bay-leaf-kitchens". -/
def slugify (name : List Char) : List Char :=
  let plain := (normalizeNFKD (toLowerCase name)).filter fun c => !isCombining c
  let words := dropForms (dropHyphens ((hyphenate plain).dropWhile (· = '-')))
  let trimmed := dropHyphens (words.take 31)
  if 3 ≤ trimmed.length then trimmed
  else (dropFirstHyphen (trimmed ++ "-restaurant".toList)).take 31

structure SubmitTenantDto where
  companyName : List Char
  slug : Option (List Char)

/-- The `n`-th form of a slug. -/
def candidate (base : List Char) (n : ℕ) : List Char :=
  if n = 1 then base else base.take 29 ++ '-' :: Nat.toDigits 10 n

def slugInvalid : ApiError :=
  ⟨.badRequest, "slug_invalid", "A subdomain is 3 to 32 lowercase letters, digits or hyphens, " ++
    "starting and ending with a letter or digit"⟩

/-- The slug that was asked for, or the first form of the name's that can be had. -/
def chooseSlug (taken : Finset (List Char)) (dto : SubmitTenantDto) : Except ApiError (List Char) :=
  match dto.slug.filter (· ≠ []) with
  | some given => do
      let slug := toLowerCase (Text.trim given)
      let problem := slugProblem slug
      check (problem ≠ some .invalid) slugInvalid
      check (problem ≠ some .reserved)
        ⟨.badRequest, "slug_reserved", "That subdomain is reserved - choose another"⟩
      check (slug ∉ taken)
        ⟨.conflict, "slug_taken", "That subdomain is already used by another restaurant"⟩
      pure slug
  | none =>
      let base := slugify toLowerCase normalizeNFKD dto.companyName
      let candidates := (List.range' 1 50).map (candidate base)
      orElseThrow
        ⟨.conflict, "slug_taken", "No subdomain could be made from that company name - choose one"⟩
        (candidates.find? fun slug => slugProblem slug = none ∧ slug ∉ taken)

end Platform

/-! ### Hyphens between words -/

/-- Letters and digits with single hyphens between them. -/
structure Hyphened (s : List Char) : Prop where
  chars : ∀ c ∈ s, isAlnum c = true ∨ c = '-'
  single : s.IsChain fun a b => ¬(a = '-' ∧ b = '-')
  first : s.head? ≠ some '-'
  last : s.getLast? ≠ some '-'

variable {s t : List Char}

theorem isAlnum_ne {c : Char} (h : isAlnum c = true) : c ≠ '-' := by
  rintro rfl
  exact absurd h (by decide)

theorem single_iff : (s.IsChain fun a b => ¬(a = '-' ∧ b = '-')) ↔ ¬['-', '-'] <:+: s := by
  rw [List.isChain_iff_forall_rel_of_append_cons_cons]
  constructor
  · rintro h ⟨l₁, l₂, rfl⟩
    exact h (a := '-') (b := '-') (List.append_assoc l₁ _ l₂) ⟨rfl, rfl⟩
  · rintro h a b l₁ l₂ rfl ⟨rfl, rfl⟩
    exact h ⟨l₁, l₂, by simp⟩

theorem Hyphened.alnum_of_ne (h : Hyphened s) {c : Char} (hc : c ∈ s) (hne : c ≠ '-') :
    isAlnum c = true := (h.chars c hc).resolve_right hne

/-- The pattern and the ban on two hyphens say that a slug is a hyphened text of 3 to 32 characters. -/
theorem slugProblem_ne_invalid_iff :
    slugProblem s ≠ some .invalid ↔ Hyphened s ∧ 3 ≤ s.length ∧ s.length ≤ 32 := by
  have hproblem : slugProblem s ≠ some .invalid ↔ slugPattern s = true ∧ ¬['-', '-'] <:+: s := by
    unfold slugProblem
    by_cases hbad : slugPattern s = false ∨ ['-', '-'] <:+: s
    · rw [if_pos hbad]
      refine iff_of_false (fun h => h rfl) fun h => ?_
      rcases hbad with hbad | hbad
      · rw [h.1] at hbad
        cases hbad
      · exact h.2 hbad
    · rw [if_neg hbad]
      rw [not_or, Bool.not_eq_false] at hbad
      refine iff_of_true ?_ hbad
      split <;> nofun
  rw [hproblem, ← single_iff]
  cases s with
  | nil => simp [slugPattern]
  | cons first rest =>
      cases rest using List.reverseRecOn with
      | nil => simp [slugPattern]
      | append_singleton mid last =>
          simp only [slugPattern, List.getLast?_append_cons, List.getLast?_singleton,
            Option.any_some, List.dropLast_concat, Bool.and_eq_true, decide_eq_true_eq,
            List.all_eq_true, Bool.or_eq_true, List.length_cons, List.length_append,
            List.length_nil]
          constructor
          · rintro ⟨⟨⟨⟨hfirst, hlast⟩, hlo, hhi⟩, hmid⟩, hsingle⟩
            refine ⟨⟨fun c hc => ?_, hsingle, ?_, ?_⟩, by omega, by omega⟩
            · rcases List.mem_cons.mp hc with rfl | hc
              · exact .inl hfirst
              · rcases List.mem_append.mp hc with hc | hc
                · exact hmid c hc
                · exact .inl (List.mem_singleton.mp hc ▸ hlast)
            · exact fun h => isAlnum_ne hfirst (Option.some.inj h)
            · intro h
              rw [← List.cons_append, List.getLast?_append_cons, List.getLast?_singleton] at h
              exact isAlnum_ne hlast (Option.some.inj h)
          · rintro ⟨h, hlo, hhi⟩
            have hfirst := h.alnum_of_ne List.mem_cons_self fun hc => h.first (congrArg some hc)
            have hlast := h.alnum_of_ne (c := last) (by simp) fun hc => h.last (by
              rw [← List.cons_append, List.getLast?_append_cons, List.getLast?_singleton, hc])
            refine ⟨⟨⟨⟨hfirst, hlast⟩, by omega, by omega⟩, fun c hc => h.chars c ?_⟩, h.single⟩
            exact List.mem_cons_of_mem first (List.mem_append_left _ hc)

/-! ### What is made of a name -/

theorem Hyphened.cut (h : Hyphened s) (ht : t <+: s) (hlast : t.getLast? ≠ some '-') :
    Hyphened t := by
  obtain ⟨u, rfl⟩ := ht
  refine ⟨fun c hc => h.chars c (List.mem_append_left u hc), h.single.left_of_append, ?_, hlast⟩
  cases t with
  | nil => nofun
  | cons c cs => exact h.first

theorem hyphened_of_alnum (h : ∀ c ∈ s, isAlnum c = true) : Hyphened s := by
  refine ⟨fun c hc => .inl (h c hc), ?_, fun hfirst => ?_, fun hlast => ?_⟩
  · refine single_iff.mpr fun hin => isAlnum_ne (h '-' (hin.subset List.mem_cons_self)) rfl
  · exact isAlnum_ne (h '-' (List.mem_of_mem_head? hfirst)) rfl
  · exact isAlnum_ne (h '-' (List.mem_of_mem_getLast? hlast)) rfl

/-- Two hyphened texts with a hyphen between them. -/
theorem Hyphened.join (hs : Hyphened s) (ht : Hyphened t) (hs0 : s ≠ []) (ht0 : t ≠ []) :
    Hyphened (s ++ '-' :: t) := by
  obtain ⟨c, cs, rfl⟩ := List.exists_cons_of_ne_nil ht0
  refine ⟨fun x hx => ?_, ?_, ?_, ?_⟩
  · rcases List.mem_append.mp hx with hx | hx
    · exact hs.chars x hx
    · rcases List.mem_cons.mp hx with rfl | hx
      · exact .inr rfl
      · exact ht.chars x hx
  · rw [List.isChain_append]
    refine ⟨hs.single, List.isChain_cons_cons.mpr ⟨?_, ht.single⟩, ?_⟩
    · exact fun h => ht.first (congrArg some h.2)
    · rintro x hx y - ⟨rfl, -⟩
      exact hs.last hx
  · obtain ⟨d, ds, rfl⟩ := List.exists_cons_of_ne_nil hs0
    exact hs.first
  · rw [List.getLast?_append_cons, List.getLast?_cons_cons]
    exact ht.last

theorem mem_hyphenate {cs : List Char} {c : Char} (h : c ∈ hyphenate cs) :
    isAlnum c = true ∨ c = '-' := by
  induction cs with
  | nil => cases h
  | cons d cs ih =>
      rw [hyphenate] at h
      split at h
      · rcases List.mem_cons.mp h with rfl | h
        · exact .inl ‹_›
        · exact ih h
      · split at h
        · exact ih h
        · rcases List.mem_cons.mp h with rfl | h
          · exact .inr rfl
          · exact ih h

/-- A run of other characters leaves one hyphen. -/
theorem hyphenate_single (cs : List Char) :
    (hyphenate cs).IsChain fun a b => ¬(a = '-' ∧ b = '-') := by
  induction cs with
  | nil => exact .nil
  | cons c cs ih =>
      rw [hyphenate]
      split
      · rename_i hc
        exact List.isChain_cons.mpr ⟨fun _ _ h => isAlnum_ne hc h.1, ih⟩
      · split
        · exact ih
        · rename_i hnext
          refine List.isChain_cons.mpr ⟨fun b hb h => hnext ?_, ih⟩
          cases cs with
          | nil => cases hb
          | cons d cs =>
              rw [List.head?_cons, Option.any_some, Bool.not_eq_true']
              by_contra hd
              rw [hyphenate, if_pos (Bool.not_eq_false _ ▸ hd), List.head?_cons] at hb
              exact isAlnum_ne (Bool.not_eq_false _ ▸ hd) (Option.some.inj hb ▸ h.2)

theorem getLast?_dropHyphens (s : List Char) : (dropHyphens s).getLast? ≠ some '-' := by
  by_cases hne : dropHyphens s = []
  · rw [hne]
    nofun
  · rw [List.getLast?_eq_some_getLast hne]
    exact fun h => List.rdropWhile_last_not _ _ hne (decide_eq_true (Option.some.inj h))

theorem dropHyphens_start (s : List Char) : dropHyphens s <+: s := List.rdropWhile_prefix _ s

theorem hyphened_words (cs : List Char) :
    Hyphened (dropHyphens ((hyphenate cs).dropWhile (· = '-'))) := by
  have hsuffix : (hyphenate cs).dropWhile (· = '-') <:+ hyphenate cs := List.dropWhile_suffix _
  obtain ⟨t, ht⟩ := dropHyphens_start ((hyphenate cs).dropWhile (· = '-'))
  have hsingle := (hyphenate_single cs).suffix hsuffix
  rw [← ht] at hsingle
  refine ⟨fun c hc => mem_hyphenate (hsuffix.subset (ht ▸ List.mem_append_left t hc)),
    hsingle.left_of_append, fun h => ?_, getLast?_dropHyphens _⟩
  have hhead : ((hyphenate cs).dropWhile (· = '-')).head? = some '-' := by
    obtain ⟨u, hu⟩ := List.head?_eq_some_iff.mp h
    rw [← ht, hu]
    rfl
  have hnot := List.head?_dropWhile_not (· = '-') (hyphenate cs)
  rw [hhead] at hnot
  exact absurd hnot (by decide)

/-- Words for the kind of company are cut off at a hyphen. -/
theorem dropForms_cut (s : List Char) : ∃ t, s = dropForms s ++ t ∧ t.head?.all (· = '-') = true := by
  induction s with
  | nil => exact ⟨[], rfl, rfl⟩
  | cons c cs ih =>
      rw [dropForms]
      split
      · rename_i hforms
        refine ⟨c :: cs, rfl, ?_⟩
        unfold isForms at hforms
        split at hforms
        · rename_i heq
          rw [heq]
          rfl
        · cases hforms
      · obtain ⟨t, ht, hhead⟩ := ih
        exact ⟨t, congrArg (c :: ·) ht, hhead⟩

theorem Hyphened.dropForms (h : Hyphened s) : Hyphened (dropForms s) := by
  obtain ⟨t, ht, hhead⟩ := dropForms_cut s
  refine h.cut ⟨t, ht.symm⟩ fun hlast => ?_
  cases t with
  | nil =>
      rw [List.append_nil] at ht
      exact h.last (ht ▸ hlast)
  | cons c cs =>
      have hsingle := h.single
      rw [ht, List.isChain_append] at hsingle
      exact hsingle.2.2 _ hlast c rfl ⟨rfl, of_decide_eq_true hhead⟩

/-- What a name is made is a slug of at most 31 characters. -/
theorem slugify_hyphened (toLowerCase normalizeNFKD : List Char → List Char) (name : List Char) :
    Hyphened (slugify toLowerCase normalizeNFKD name) ∧
      3 ≤ (slugify toLowerCase normalizeNFKD name).length ∧
      (slugify toLowerCase normalizeNFKD name).length ≤ 31 := by
  unfold slugify
  dsimp only
  generalize (normalizeNFKD (toLowerCase name)).filter (fun c => !isCombining c) = plain
  have hwords := (hyphened_words plain).dropForms
  generalize Slugs.dropForms (dropHyphens ((hyphenate plain).dropWhile (· = '-'))) = words at hwords ⊢
  have htrimmed := hwords.cut ((dropHyphens_start _).trans (words.take_prefix 31))
    (getLast?_dropHyphens _)
  have hle := ((dropHyphens_start (words.take 31)).length_le).trans (List.length_take_le 31 words)
  generalize dropHyphens (words.take 31) = trimmed at htrimmed hle ⊢
  split
  · exact ⟨htrimmed, ‹_›, hle⟩
  · rename_i hshort
    have hsuffix : "-restaurant".toList = '-' :: "restaurant".toList := by decide
    have halnum : "restaurant".toList.all isAlnum = true := by decide
    have hrestaurant : Hyphened "restaurant".toList :=
      hyphened_of_alnum (List.all_eq_true.mp halnum)
    cases trimmed with
    | nil =>
        rw [hsuffix]
        exact ⟨hrestaurant, by decide, by decide⟩
    | cons c cs =>
        have hfirst : dropFirstHyphen (c :: cs ++ "-restaurant".toList) =
            c :: cs ++ "-restaurant".toList := by
          unfold dropFirstHyphen
          split
          · rename_i heq
            exact absurd (congrArg some (List.cons.inj heq).1) htrimmed.first
          · rfl
        have hlength : (c :: cs ++ "-restaurant".toList).length = (c :: cs).length + 11 := by
          rw [List.length_append]
          rfl
        rw [hfirst, List.take_of_length_le (by omega), hsuffix]
        refine ⟨htrimmed.join hrestaurant (List.cons_ne_nil _ _) (by decide), ?_, ?_⟩ <;>
          rw [← hsuffix] <;> omega

/-! ### The numbered forms -/

theorem digits_numbers : ∀ n ∈ List.range' 2 49, (Nat.toDigits 10 n).all isAlnum = true ∧
    0 < (Nat.toDigits 10 n).length ∧ (Nat.toDigits 10 n).length ≤ 2 := by decide +kernel

theorem digits_inj : ∀ n ∈ List.range' 2 49, ∀ m ∈ List.range' 2 49,
    Nat.toDigits 10 n = Nat.toDigits 10 m → n = m := by decide +kernel

theorem reserved_plain : ∀ r ∈ reservedSlugs, '-' ∉ r := by decide

/-- A slug with a hyphen is nobody's reserved name. -/
theorem slugProblem_of_hyphen (h : Hyphened s) (hlo : 3 ≤ s.length) (hhi : s.length ≤ 32)
    (hmem : '-' ∈ s) : slugProblem s = none := by
  have hvalid := slugProblem_ne_invalid_iff.mpr ⟨h, hlo, hhi⟩
  unfold slugProblem at hvalid ⊢
  split at hvalid
  · exact absurd rfl hvalid
  · rename_i hpattern
    rw [if_neg hpattern, if_neg fun hreserved => reserved_plain s hreserved hmem]

variable {base : List Char}

theorem getLast?_cut (h : Hyphened base) :
    (base.take 29).getLast? = some '-' ↔ base[28]? = some '-' := by
  rw [List.getLast?_take, if_neg (by decide)]
  cases hcut : base[28]? with
  | none => exact iff_of_false (fun hlast => h.last hlast) nofun
  | some c => rfl

/-- The numbered forms of a slug are slugs unless it is cut behind a hyphen, when none is. -/
theorem slugProblem_candidate_iff (h : Hyphened base) (hlo : 3 ≤ base.length) {n : ℕ}
    (hn : n ∈ List.range' 2 49) :
    slugProblem (candidate base n) = none ↔ base[28]? ≠ some '-' := by
  obtain ⟨hdigits, hpos, htwo⟩ := digits_numbers n hn
  have hne : n ≠ 1 := by
    rintro rfl
    revert hn
    decide
  rw [candidate, if_neg hne, ne_eq, ← getLast?_cut h]
  constructor
  · intro hnone hlast
    have hvalid := (slugProblem_ne_invalid_iff.mp (by rw [hnone]; nofun)).1.single
    rw [List.isChain_append] at hvalid
    exact hvalid.2.2 '-' hlast '-' rfl ⟨rfl, rfl⟩
  · intro hlast
    have hlength : (base.take 29).length = min 29 base.length := List.length_take
    have hcut := h.cut (base.take_prefix 29) hlast
    have hnumber := hyphened_of_alnum (List.all_eq_true.mp hdigits)
    refine slugProblem_of_hyphen (hcut.join hnumber ?_ (List.ne_nil_of_length_pos hpos)) ?_ ?_
      (List.mem_append_right _ List.mem_cons_self)
    · exact List.ne_nil_of_length_pos (by omega)
    · rw [List.length_append, List.length_cons]
      omega
    · rw [List.length_append, List.length_cons]
      omega

/-- Of more forms than slugs are taken one is free. -/
theorem exists_free {taken : Finset (List Char)} (hfew : taken.card ≤ 48) :
    ∃ n ∈ List.range' 2 49, candidate base n ∉ taken := by
  by_contra hall
  push Not at hall
  have hinj : Set.InjOn (candidate base) ((List.range' 2 49).toFinset : Set ℕ) := by
    intro n hn m hm heq
    have hn := List.mem_toFinset.mp hn
    have hm := List.mem_toFinset.mp hm
    have hone : ∀ k ∈ List.range' 2 49, k ≠ 1 := by decide
    simp only [candidate, if_neg (hone n hn), if_neg (hone m hm)] at heq
    exact digits_inj n hn m hm (List.cons.inj (List.append_cancel_left heq)).2
  have hcard := Finset.card_le_card_of_injOn (candidate base)
    (fun n hn => hall n (List.mem_toFinset.mp hn)) hinj
  rw [List.toFinset_card_of_nodup List.nodup_range', List.length_range'] at hcard
  omega

/-- A name's slug can be used, and not more than 48 being taken one is found, unless the first
form is taken and the others are cut behind a hyphen. -/
theorem chosen_slug_usable_iff (toLowerCase normalizeNFKD : List Char → List Char)
    (taken : Finset (List Char)) (dto : SubmitTenantDto) (hfew : taken.card ≤ 48)
    (hnone : dto.slug = none ∨ dto.slug = some []) :
    (∃ slug, chooseSlug toLowerCase normalizeNFKD taken dto = .ok slug ∧ slugProblem slug = none ∧
      slug ∉ taken) ↔
    ¬(slugify toLowerCase normalizeNFKD dto.companyName ∈ taken ∧
      (slugify toLowerCase normalizeNFKD dto.companyName)[28]? = some '-') := by
  obtain ⟨hbase, hlo, hhi⟩ := slugify_hyphened toLowerCase normalizeNFKD dto.companyName
  have hgiven : dto.slug.filter (· ≠ []) = none := by
    rcases hnone with hnone | hnone <;> rw [hnone] <;> rfl
  unfold chooseSlug
  rw [hgiven]
  dsimp only
  generalize slugify toLowerCase normalizeNFKD dto.companyName = base at hbase hlo hhi ⊢
  constructor
  · rintro ⟨slug, hok, hproblem, hfree⟩ ⟨htaken, hhyphen⟩
    obtain ⟨n, hn, rfl⟩ := List.mem_map.mp (List.mem_of_find?_eq_some (Serial.orElseThrow_ok hok))
    rcases eq_or_ne n 1 with rfl | hne
    · exact hfree htaken
    · have hn : n ∈ List.range' 2 49 := by
        rw [List.mem_range'_1] at hn ⊢
        omega
      exact (slugProblem_candidate_iff hbase hlo hn).mp hproblem hhyphen
  · intro hcut
    have hsome : ∃ n ∈ List.range' 1 50,
        slugProblem (candidate base n) = none ∧ candidate base n ∉ taken := by
      by_cases hhyphen : base[28]? = some '-'
      · have hgood := slugProblem_of_hyphen hbase hlo (hhi.trans (by decide))
          (List.mem_of_getElem? hhyphen)
        exact ⟨1, by decide, hgood, fun htaken => hcut ⟨htaken, hhyphen⟩⟩
      · obtain ⟨n, hn, hfree⟩ : ∃ n ∈ List.range' 2 49, candidate base n ∉ taken :=
          exists_free hfew
        refine ⟨n, ?_, (slugProblem_candidate_iff hbase hlo hn).mpr hhyphen, hfree⟩
        rw [List.mem_range'_1] at hn ⊢
        omega
    obtain ⟨n, hn, hgood⟩ := hsome
    have hfound : (((List.range' 1 50).map (candidate base)).find? fun slug =>
        slugProblem slug = none ∧ slug ∉ taken).isSome = true :=
      List.find?_isSome.mpr ⟨_, List.mem_map_of_mem hn, decide_eq_true hgood⟩
    obtain ⟨slug, hslug⟩ := Option.isSome_iff_exists.mp hfound
    have hgood := List.find?_some hslug
    refine ⟨slug, ?_, of_decide_eq_true hgood⟩
    rw [hslug]
    rfl

/-- The second of two tenants of one name is given the second form. -/
theorem chosen_slug_usable_sample :
    ∃ slug, chooseSlug (·.map Char.toLower) id {"bay-leaf-kitchens".toList}
      ⟨"Bay Leaf Kitchens Pvt Ltd".toList, none⟩ = .ok slug ∧ slugProblem slug = none ∧
        slug ∉ ({"bay-leaf-kitchens".toList} : Finset (List Char)) :=
  (chosen_slug_usable_iff (·.map Char.toLower) id {"bay-leaf-kitchens".toList}
    ⟨"Bay Leaf Kitchens Pvt Ltd".toList, none⟩ (by decide +kernel) (.inl rfl)).mpr (by decide +kernel)

/-- A name that is cut behind a hyphen cannot be given twice. -/
theorem no_second_riverside :
    slugify (·.map Char.toLower) id "Grand Old Riverside Tea Room Cafe".toList =
        "grand-old-riverside-tea-room-ca".toList ∧
      chooseSlug (·.map Char.toLower) id {"grand-old-riverside-tea-room-ca".toList}
          ⟨"Grand Old Riverside Tea Room Cafe".toList, none⟩ =
        .error ⟨.conflict, "slug_taken",
          "No subdomain could be made from that company name - choose one"⟩ := by
  constructor <;> decide +kernel

end RestiqBackend.Slugs
