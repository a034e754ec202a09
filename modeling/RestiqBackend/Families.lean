import Mathlib.Algebra.BigOperators.Group.List.Basic
import Mathlib.Data.List.Perm.Basic
import Mathlib.Data.List.Nodup

/-!
Rows under other rows.

A table may keep a row under another by naming it. Where that goes one level deep, every row is
either at the top or under exactly one row at the top: taking each top row with the rows under it
lists the table, each row once.
-/

namespace RestiqBackend

variable {α ι : Type} [DecidableEq ι] (key : α → ι) (parent : α → Option ι)

/-- The rows at the top. -/
def tops (rows : List α) : List α := rows.filter fun r => (parent r).isNone

/-- The rows under one. -/
def under (rows : List α) (top : α) : List α :=
  rows.filter fun r => decide (parent r = some (key top))

/-- The top rows, each with the rows under it. -/
def families (rows : List α) : List (α × List α) :=
  (tops parent rows).map fun t => (t, under key parent rows t)

/-- Keys tell the rows apart, and a row is only under one that is at the top. -/
structure Nested (rows : List α) : Prop where
  keys : (rows.map key).Nodup
  parents : ∀ r ∈ rows, ∀ p, parent r = some p → ∃ t ∈ rows, key t = p ∧ parent t = none

variable {key parent} {rows : List α}

omit [DecidableEq ι] in
theorem mem_tops {t : α} : t ∈ tops parent rows ↔ t ∈ rows ∧ parent t = none := by
  rw [tops, List.mem_filter, Option.isNone_iff_eq_none]

theorem mem_under {r t : α} : r ∈ under key parent rows t ↔ r ∈ rows ∧ parent r = some (key t) := by
  rw [under, List.mem_filter, decide_eq_true_eq]

namespace Nested

omit [DecidableEq ι] in
theorem nodup (h : Nested key parent rows) : rows.Nodup := h.keys.of_map

omit [DecidableEq ι] in
theorem eq_of_key (h : Nested key parent rows) {a b : α} (ha : a ∈ rows) (hb : b ∈ rows)
    (hk : key a = key b) : a = b := List.inj_on_of_nodup_map h.keys ha hb hk

/-- Families have no row in common. -/
theorem disjoint (h : Nested key parent rows) {t t' : α} (ht : t ∈ tops parent rows)
    (ht' : t' ∈ tops parent rows) (hne : t ≠ t') :
    (t :: under key parent rows t).Disjoint (t' :: under key parent rows t') := by
  obtain ⟨ht, htop⟩ := mem_tops.mp ht
  obtain ⟨ht', htop'⟩ := mem_tops.mp ht'
  intro r hr hr'
  rcases List.mem_cons.mp hr with rfl | hr <;> rcases List.mem_cons.mp hr' with rfl | hr'
  · exact hne rfl
  · rw [(mem_under.mp hr').2] at htop
    cases htop
  · rw [(mem_under.mp hr).2] at htop'
    cases htop'
  · have hkeys := (mem_under.mp hr).2.symm.trans (mem_under.mp hr').2
    exact hne (h.eq_of_key ht ht' (Option.some.inj hkeys))

/-- **Every row is in one family, once.** -/
theorem perm (h : Nested key parent rows) :
    ((families key parent rows).flatMap fun f => f.1 :: f.2).Perm rows := by
  have hnodup : ((tops parent rows).flatMap fun t => t :: under key parent rows t).Nodup := by
    refine List.nodup_flatMap.mpr ⟨fun t ht => ?_, ?_⟩
    · refine List.nodup_cons.mpr ⟨fun hself => ?_, h.nodup.filter _⟩
      have htop := (mem_tops.mp ht).2
      rw [(mem_under.mp hself).2] at htop
      cases htop
    · exact (h.nodup.filter _).imp_of_mem fun ht ht' hne => h.disjoint ht ht' hne
  rw [families, List.flatMap_map]
  refine (List.perm_ext_iff_of_nodup hnodup h.nodup).mpr fun r => ?_
  rw [List.mem_flatMap]
  constructor
  · rintro ⟨t, ht, hr⟩
    rcases List.mem_cons.mp hr with rfl | hr
    · exact (mem_tops.mp ht).1
    · exact (mem_under.mp hr).1
  · intro hr
    cases hparent : parent r with
    | none => exact ⟨r, mem_tops.mpr ⟨hr, hparent⟩, List.mem_cons_self⟩
    | some p =>
        obtain ⟨t, ht, rfl, htop⟩ := h.parents r hr p hparent
        exact ⟨t, mem_tops.mpr ⟨ht, htop⟩, List.mem_cons_of_mem _ (mem_under.mpr ⟨hr, hparent⟩)⟩

/-- What the families add up to is what the rows do. -/
theorem sum_families {M : Type} [AddCommMonoid M] (h : Nested key parent rows) (f : α → M) :
    ((families key parent rows).map fun g => f g.1 + (g.2.map f).sum).sum = (rows.map f).sum := by
  have hflat : ∀ groups : List (α × List α),
      (groups.map fun g => f g.1 + (g.2.map f).sum).sum =
        ((groups.flatMap fun g => g.1 :: g.2).map f).sum := by
    intro groups
    induction groups with
    | nil => rfl
    | cons g gs ih => simp [ih, add_assoc]
  rw [hflat, (h.perm.map f).sum_eq]

end Nested

end RestiqBackend
