import Mathlib.Data.List.AList
import Mathlib.Data.List.MinMax

/-!
Picking the greatest of a list, and something of each of its groups.

`List.argmax` keeps the first of the greatest elements, so that only a tie lets the order of a
list matter. A list is grouped by a key into a map of lists, and a second map has what is picked
of each. Looking a key up in it is picking among the elements of that key.
-/

namespace Selection

variable {α β κ : Type}

/-! ### The greatest -/

section Greatest

variable [LinearOrder κ] {f : α → κ} {l l' : List α} {m : α}

theorem mem_argmax_iff_of_nodup (h : (l.map f).Nodup) :
    m ∈ l.argmax f ↔ m ∈ l ∧ ∀ a ∈ l, f a ≤ f m := by
  constructor
  · intro hm
    exact ⟨List.argmax_mem hm, fun a ha => List.le_of_mem_argmax ha hm⟩
  · rintro ⟨hm, hgreatest⟩
    cases hn : l.argmax f with
    | none =>
        rw [List.argmax_eq_none] at hn
        subst hn
        exact absurd hm List.not_mem_nil
    | some n =>
        have hmem := List.argmax_mem (Option.mem_def.mpr hn)
        have hle := List.le_of_mem_argmax hm (Option.mem_def.mpr hn)
        have heq : m = n := List.inj_on_of_nodup_map h hm hmem
          (le_antisymm hle (hgreatest n hmem))
        rw [heq]
        exact Option.mem_some_self n

/-- Without a tie the order of the list does not matter. -/
theorem argmax_perm (hperm : l.Perm l') (h : (l.map f).Nodup) : l.argmax f = l'.argmax f := by
  have h' : (l'.map f).Nodup := (hperm.map f).nodup h
  ext m
  rw [← Option.mem_def, ← Option.mem_def, mem_argmax_iff_of_nodup h, mem_argmax_iff_of_nodup h']
  simp only [hperm.mem_iff]

end Greatest

/-! ### Groups -/

section Groups

variable [DecidableEq κ]

abbrev Map (κ β : Type) := AList fun _ : κ => β

def addTo (key : α → κ) (groups : Map κ (List α)) (a : α) : Map κ (List α) :=
  groups.insert (key a) ((groups.lookup (key a)).getD [] ++ [a])

def groupBy (key : α → κ) (l : List α) : Map κ (List α) := l.foldl (addTo key) ∅

def setPicked (pick : List α → Option β) (picked : Map κ β) (group : Σ _ : κ, List α) : Map κ β :=
  match pick group.2 with
  | some b => picked.insert group.1 b
  | none => picked

/-- What is picked of each group, of the groups that something can be picked of. -/
def pickEach (pick : List α → Option β) (groups : Map κ (List α)) : Map κ β :=
  groups.entries.foldl (setPicked pick) ∅

theorem lookup_addTo (key : α → κ) (groups : Map κ (List α)) (a : α) (k : κ) :
    ((addTo key groups a).lookup k).getD [] =
      (groups.lookup k).getD [] ++ [a].filter fun b => key b = k := by
  by_cases h : key a = k
  · subst h
    simp [addTo]
  · rw [addTo, AList.lookup_insert_ne (Ne.symm h)]
    simp [h]

theorem lookup_foldl_addTo (key : α → κ) (l : List α) (groups : Map κ (List α)) (k : κ) :
    ((l.foldl (addTo key) groups).lookup k).getD [] =
      (groups.lookup k).getD [] ++ l.filter fun b => key b = k := by
  induction l generalizing groups with
  | nil => simp
  | cons a l ih =>
      rw [List.foldl_cons, ih, lookup_addTo, List.append_assoc, ← List.filter_append]
      rfl

theorem lookup_groupBy (key : α → κ) (l : List α) (k : κ) :
    ((groupBy key l).lookup k).getD [] = l.filter fun b => key b = k := by
  rw [groupBy, lookup_foldl_addTo, AList.lookup_empty]
  rfl

/-- A key is picked for once: no later entry has it again. -/
theorem lookup_foldl_setPicked (pick : List α → Option β) {entries : List (Σ _ : κ, List α)}
    (h : entries.NodupKeys) (picked : Map κ β) (k : κ) :
    (entries.foldl (setPicked pick) picked).lookup k =
      ((entries.dlookup k).bind pick).or (picked.lookup k) := by
  induction entries generalizing picked with
  | nil => simp
  | cons group entries ih =>
      obtain ⟨key, l⟩ := group
      have hnot : key ∉ entries.keys := List.notMem_keys_of_nodupKeys_cons h
      rw [List.foldl_cons, ih (List.nodupKeys_of_nodupKeys_cons h)]
      by_cases hkey : k = key
      · subst hkey
        rw [List.dlookup_eq_none.mpr hnot, List.dlookup_cons_eq]
        simp only [setPicked, Option.bind_none, Option.none_or, Option.bind_some]
        cases hpick : pick l <;> simp
      · rw [List.dlookup_cons_ne _ _ hkey]
        simp only [setPicked]
        cases pick l with
        | none => rfl
        | some b => simp only [AList.lookup_insert_ne hkey]

theorem lookup_pickEach {pick : List α → Option β} (hnil : pick [] = none)
    (groups : Map κ (List α)) (k : κ) :
    (pickEach pick groups).lookup k = pick ((groups.lookup k).getD []) := by
  rw [pickEach, lookup_foldl_setPicked pick groups.nodupKeys, AList.lookup_empty, Option.or_none,
    ← AList.lookup]
  cases groups.lookup k with
  | none => exact hnil.symm
  | some l => rfl

/-- What a map has for a key is what is picked of the elements of that key. -/
theorem lookup_pickEach_groupBy {pick : List α → Option β} (hnil : pick [] = none) (key : α → κ)
    (l : List α) (k : κ) :
    (pickEach pick (groupBy key l)).lookup k = pick (l.filter fun b => key b = k) := by
  rw [lookup_pickEach hnil, lookup_groupBy]

end Groups

end Selection
