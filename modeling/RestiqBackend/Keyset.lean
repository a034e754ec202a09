import Mathlib.Data.List.Basic
import Mathlib.Data.List.Perm.Basic
import Mathlib.Tactic.Common

/-!
Lists that are read a page at a time.

A page is what comes first after a position, in the order of the list. It is fetched with one row
more than it shows, which says whether there is another page; the position of its last row is then
where that page starts. Whoever follows the positions from the first page to the last has
read the whole list.
-/

namespace Keyset

variable {ρ κ α β γ ε : Type}

/-! ### Orders -/

/-- A strict total order, decided. -/
structure StrictOrder (before : κ → κ → Bool) : Prop where
  irrefl : ∀ a, before a a = false
  trans : ∀ a b c, before a b = true → before b c = true → before a c = true
  total : ∀ a b, a ≠ b → before a b = true ∨ before b a = true

theorem StrictOrder.flip {before : κ → κ → Bool} (h : StrictOrder before) :
    StrictOrder fun a b => before b a where
  irrefl := h.irrefl
  trans a b c hab hbc := h.trans c b a hbc hab
  total a b hne := (h.total a b hne).symm

/-- Pairs by their first component, and by their second where that is the same. -/
def lex [DecidableEq α] (lt : α → α → Bool) (lt' : β → β → Bool) (a b : α × β) : Bool :=
  lt a.1 b.1 || (a.1 = b.1 && lt' a.2 b.2)

theorem lex_iff [DecidableEq α] {lt : α → α → Bool} {lt' : β → β → Bool} {a b : α × β} :
    lex lt lt' a b = true ↔ lt a.1 b.1 = true ∨ (a.1 = b.1 ∧ lt' a.2 b.2 = true) := by
  simp [lex]

theorem StrictOrder.lex [DecidableEq α] {lt : α → α → Bool} {lt' : β → β → Bool}
    (h : StrictOrder lt) (h' : StrictOrder lt') : StrictOrder (lex lt lt') where
  irrefl a := by simp [Keyset.lex, h.irrefl, h'.irrefl]
  trans a b c hab hbc := by
    rw [lex_iff] at hab hbc ⊢
    rcases hab with hab | ⟨hab, hab'⟩ <;> rcases hbc with hbc | ⟨hbc, hbc'⟩
    · exact .inl (h.trans _ _ _ hab hbc)
    · exact .inl (hbc ▸ hab)
    · exact .inl (hab ▸ hbc)
    · exact .inr ⟨hab.trans hbc, h'.trans _ _ _ hab' hbc'⟩
  total a b hne := by
    simp only [lex_iff]
    by_cases hfst : a.1 = b.1
    · have hsnd : a.2 ≠ b.2 := fun hsnd => hne (Prod.ext hfst hsnd)
      rcases h'.total _ _ hsnd with hlt | hlt
      · exact .inl (.inr ⟨hfst, hlt⟩)
      · exact .inr (.inr ⟨hfst.symm, hlt⟩)
    · rcases h.total _ _ hfst with hlt | hlt
      · exact .inl (.inl hlt)
      · exact .inr (.inl hlt)

/-! ### Pages -/

section Pages

variable (before : κ → κ → Bool) (key : ρ → κ)

/-- `ORDER BY`: a row stands before every row that is not before it. -/
def sortRows (rows : List ρ) : List ρ := rows.mergeSort fun a b => !before (key b) (key a)

/-- The rows that come after a position; all of them where there is none. -/
def rowsAfter (rows : List ρ) (after : Option κ) : List ρ :=
  rows.filter fun r => after.all fun c => before c (key r)

/-- The first rows after a position, one more than the limit. -/
def fetch (rows : List ρ) (limit : ℕ) (after : Option κ) : List ρ :=
  (sortRows before key (rowsAfter before key rows after)).take (limit + 1)

/-- A page, and the position of its last row where there is more. -/
def page (rows : List ρ) (limit : ℕ) (after : Option κ) : List ρ × Option κ :=
  let found := fetch before key rows limit after
  let shown := found.take limit
  (shown, if limit < found.length then shown.getLast?.map key else none)

end Pages

/-- Following the cursors from one on, for so many pages at most. -/
def walk (list : Option γ → Except ε (List ρ × Option γ)) : ℕ → Option γ → Option (List ρ)
  | 0, _ => none
  | n + 1, cursor =>
      match list cursor with
      | .ok (rows, none) => some rows
      | .ok (rows, some next) => (walk list n (some next)).map (rows ++ ·)
      | .error _ => none

/-- The walk from the first page ends, and has shown each of the rows once and in order. -/
def WalksOnce (list : Option γ → Except ε (List ρ × Option γ)) (before : κ → κ → Bool)
    (key : ρ → κ) (rows : List ρ) : Prop :=
  ∃ n found, walk list n none = some found ∧ found.Perm rows ∧
    found.Pairwise fun a b => before (key a) (key b) = true

/-! ### The whole list -/

variable {before : κ → κ → Bool} {key : ρ → κ} {rows : List ρ}

theorem sortRows_perm (before : κ → κ → Bool) (key : ρ → κ) (rows : List ρ) :
    (sortRows before key rows).Perm rows :=
  List.mergeSort_perm _ _

/-- Rows with different keys stand strictly in order. -/
theorem sortRows_pairwise (h : StrictOrder before) (hkeys : (rows.map key).Nodup) :
    (sortRows before key rows).Pairwise fun a b => before (key a) (key b) = true := by
  have hle : (sortRows before key rows).Pairwise fun a b => !before (key b) (key a) := by
    refine List.pairwise_mergeSort (fun a b c hab hbc => ?_) (fun a b => ?_) rows
    · -- What is not before `b` is not before `c` either, as `c` is not before `b`.
      simp only [Bool.not_eq_true'] at hab hbc ⊢
      by_contra hca
      have hca : before (key c) (key a) = true := by simpa using hca
      by_cases hbc' : key b = key c
      · rw [hbc', hca] at hab
        cases hab
      · rcases h.total _ _ hbc' with hlt | hlt
        · rw [h.trans _ _ _ hlt hca] at hab
          cases hab
        · rw [hlt] at hbc
          cases hbc
    · by_cases hba : before (key b) (key a) = true
      · have hab : before (key a) (key b) = false := by
          by_contra hab
          have hrefl := h.trans _ _ _ hba (by simpa using hab)
          rw [h.irrefl] at hrefl
          cases hrefl
        simp [hab]
      · simp [hba]
  have hnodup : (sortRows before key rows).Pairwise fun a b => key a ≠ key b := by
    have hperm := (sortRows_perm before key rows).map key
    exact List.pairwise_map.mp (hperm.nodup_iff.mpr hkeys)
  refine (hle.and hnodup).imp fun {a b} ⟨hle, hne⟩ => ?_
  rcases h.total _ _ hne with hlt | hlt
  · exact hlt
  · simp [hlt] at hle

/-- Two lists of the same rows in the same strict order are one. -/
theorem eq_of_ordered (h : StrictOrder before) {l l' : List ρ} (hperm : l.Perm l')
    (hl : l.Pairwise fun a b => before (key a) (key b) = true)
    (hl' : l'.Pairwise fun a b => before (key a) (key b) = true) : l = l' := by
  refine hperm.eq_of_pairwise (fun a b _ _ hab hba => ?_) hl hl'
  have hrefl := h.trans _ _ _ hab hba
  rw [h.irrefl] at hrefl
  cases hrefl

/-- What comes after a position is the rest of the ordered list. -/
theorem sortRows_after (h : StrictOrder before) (hkeys : (rows.map key).Nodup)
    {front rest : List ρ} (hsplit : sortRows before key rows = front ++ rest) :
    sortRows before key (rowsAfter before key rows (front.getLast?.map key)) = rest := by
  have hordered := sortRows_pairwise h hkeys
  rw [hsplit, List.pairwise_append] at hordered
  obtain ⟨hfront, hrest, hacross⟩ := hordered
  -- The rows after the last one of the front are those of the rest.
  have hfilter : rowsAfter before key (front ++ rest) (front.getLast?.map key) = rest := by
    cases hlast : front.getLast? with
    | none =>
        rw [List.getLast?_eq_none_iff.mp hlast]
        simp [rowsAfter]
    | some last =>
        obtain ⟨init, hinit⟩ := List.getLast?_eq_some_iff.mp hlast
        simp only [rowsAfter, Option.map_some, Option.all_some, List.filter_append]
        have hnone : front.filter (fun r => before (key last) (key r)) = [] := by
          refine List.filter_eq_nil_iff.mpr fun r hr hlt => ?_
          rw [hinit] at hr hfront
          have hto := (List.pairwise_append.mp hfront).2.2
          rcases List.mem_append.mp hr with hr | hr
          · have hrefl := h.trans _ _ _ hlt (hto r hr last List.mem_cons_self)
            rw [h.irrefl] at hrefl
            cases hrefl
          · rw [List.mem_singleton.mp hr, h.irrefl] at hlt
            cases hlt
        have hall : rest.filter (fun r => before (key last) (key r)) = rest := by
          refine List.filter_eq_self.mpr fun r hr => ?_
          exact hacross last (List.mem_of_getLast? hlast) r hr
        rw [hnone, hall, List.nil_append]
  have hperm : (sortRows before key (rowsAfter before key rows (front.getLast?.map key))).Perm
      rest := by
    refine (sortRows_perm before key _).trans ?_
    have hrows := (sortRows_perm before key rows).symm
    rw [hsplit] at hrows
    exact hfilter ▸ hrows.filter _
  have hkeys' : ((rowsAfter before key rows (front.getLast?.map key)).map key).Nodup :=
    (List.filter_sublist.map key).nodup hkeys
  exact eq_of_ordered h hperm (sortRows_pairwise h hkeys') hrest

/-- A list that answers every position with its page, and says where the next one starts, is
walked to its end. -/
theorem walksOnce_of_pages (h : StrictOrder before) (hkeys : (rows.map key).Nodup) {limit : ℕ}
    (hlimit : 1 ≤ limit) {encode : κ → γ} {list : Option γ → Except ε (List ρ × Option γ)}
    (hlist : ∀ after, list (after.map encode) =
      .ok ((page before key rows limit after).1, (page before key rows limit after).2.map encode)) :
    WalksOnce list before key rows := by
  -- From any position on, the walk shows what is left.
  have hwalk : ∀ n (front rest : List ρ), rest.length < n →
      sortRows before key rows = front ++ rest →
      walk list n ((front.getLast?.map key).map encode) = some rest := by
    intro n
    induction n with
    | zero => exact fun _ _ hn => absurd hn (Nat.not_lt_zero _)
    | succ n ih =>
        intro front rest hn hsplit
        have hfetch : fetch before key rows limit (front.getLast?.map key) =
            rest.take (limit + 1) := by
          rw [fetch, sortRows_after h hkeys hsplit]
        have hshown : (rest.take (limit + 1)).take limit = rest.take limit := by
          rw [List.take_take, Nat.min_eq_left (Nat.le_succ limit)]
        simp only [walk, hlist, page, hfetch, hshown, List.length_take]
        by_cases hmore : limit < rest.length
        · -- The page is full, and its last row is where the next one starts.
          have hlast : (front ++ rest.take limit).getLast? = (rest.take limit).getLast? := by
            have hne : rest.take limit ≠ [] := by
              intro hnil
              have hlength := congrArg List.length hnil
              rw [List.length_take, List.length_nil] at hlength
              omega
            exact List.getLast?_append_of_ne_nil _ hne
          have hsplit' : sortRows before key rows =
              (front ++ rest.take limit) ++ rest.drop limit := by
            rw [List.append_assoc, List.take_append_drop, hsplit]
          have hrest := ih (front ++ rest.take limit) (rest.drop limit)
            (by rw [List.length_drop]; omega) hsplit'
          rw [hlast] at hrest
          obtain ⟨last, hsome⟩ : ∃ last, (rest.take limit).getLast? = some last := by
            refine Option.ne_none_iff_exists'.mp fun hnone => ?_
            have hlength := congrArg List.length (List.getLast?_eq_none_iff.mp hnone)
            rw [List.length_take, List.length_nil] at hlength
            omega
          rw [if_pos (by omega), hsome]
          rw [hsome] at hrest
          simp only [Option.map_some] at hrest ⊢
          rw [hrest, Option.map_some, List.take_append_drop]
        · rw [if_neg (by omega)]
          simp [List.take_of_length_le (Nat.le_of_not_lt hmore)]
  refine ⟨(sortRows before key rows).length + 1, sortRows before key rows, ?_,
    sortRows_perm before key rows, sortRows_pairwise h hkeys⟩
  exact hwalk _ [] _ (Nat.lt_succ_self _) rfl

/-- Showing something of each row changes nothing about the pages. -/
theorem walk_map {ρ' : Type} (show_ : ρ → ρ') (list : Option γ → Except ε (List ρ × Option γ))
    (n : ℕ) (cursor : Option γ) :
    walk (fun c => (list c).map fun shown => (shown.1.map show_, shown.2)) n cursor =
      (walk list n cursor).map (·.map show_) := by
  induction n generalizing cursor with
  | zero => rfl
  | succ n ih =>
      simp only [walk]
      cases list cursor with
      | error e => rfl
      | ok shown =>
          obtain ⟨rows, next⟩ := shown
          cases next with
          | none => rfl
          | some next =>
              have hrest := ih (some next)
              simp only [Except.map] at hrest ⊢
              rw [hrest]
              cases walk list n (some next) with
              | none => rfl
              | some rest => exact congrArg some List.map_append.symm

end Keyset
