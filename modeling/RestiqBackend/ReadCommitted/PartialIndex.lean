import Mathlib.Data.List.Forall2
import Mathlib.Tactic.Common

/-!
Partial unique indexes.

A partial unique index allows one live row to a value. What a transaction does to the rows that
have the value is a list of moves: it adds a row, drops one, or marks one as live or not. The rest
of this file says which moves can break the index (adding a row, marking one as live) and that
moves which kept it go on keeping it when others have meanwhile dropped or marked rows: `Fewer`
is what those who do not hold the value may do to it.
-/

namespace ReadCommitted

variable {ι : Type}

/-- A row with the value of an index, and whether the index counts it. -/
structure Entry (ι : Type) where
  id : ι
  live : Bool

/-- What a write does to the rows with the value. -/
inductive Move (ι : Type)
  | add (e : Entry ι)
  | drop (id : ι)
  | mark (id : ι) (live : Bool)

def Entry.Fades (e e' : Entry ι) : Prop := e.id = e'.id ∧ (e.live = true → e'.live = true)

/-- Rows have gone, or stopped being live. -/
def Fewer (es es' : List (Entry ι)) : Prop := List.SublistForall₂ Entry.Fades es es'

/-- What the index enforces. -/
def OneLive (es : List (Entry ι)) : Prop := (es.filter (·.live)).length ≤ 1

instance : Std.Refl (Entry.Fades (ι := ι)) := ⟨fun _ => ⟨rfl, id⟩⟩

instance : IsTrans (Entry ι) Entry.Fades :=
  ⟨fun _ _ _ h h' => ⟨h.1.trans h'.1, fun hlive => h'.2 (h.2 hlive)⟩⟩

variable {es es' es'' : List (Entry ι)} {e : Entry ι}

theorem Fewer.refl (es : List (Entry ι)) : Fewer es es := (List.Sublist.refl es).sublistForall₂

theorem Fewer.trans (h : Fewer es es') (h' : Fewer es' es'') : Fewer es es'' :=
  List.SublistForall₂.is_trans.trans _ _ _ h h'

theorem Fewer.of_sublist (h : es.Sublist es') : Fewer es es' := h.sublistForall₂

theorem Fewer.mem (h : Fewer es es') (he : e ∈ es) : ∃ e' ∈ es', e.Fades e' := by
  induction h with
  | nil => cases he
  | cons hfades _ ih =>
      rcases List.mem_cons.mp he with rfl | he
      · exact ⟨_, List.mem_cons_self, hfades⟩
      · obtain ⟨e', he', hfades⟩ := ih he
        exact ⟨e', List.mem_cons_of_mem _ he', hfades⟩
  | cons_right _ ih =>
      obtain ⟨e', he', hfades⟩ := ih he
      exact ⟨e', List.mem_cons_of_mem _ he', hfades⟩

theorem Fewer.live_le (h : Fewer es es') :
    (es.filter (·.live)).length ≤ (es'.filter (·.live)).length := by
  induction h with
  | nil => exact Nat.zero_le _
  | @cons e e' _ _ hfades _ ih =>
      cases he : e.live with
      | false =>
          rw [List.filter_cons_of_neg (by simp [he])]
          exact Nat.le_trans ih ((List.sublist_cons_self e' _).filter _).length_le
      | true =>
          rw [List.filter_cons_of_pos he, List.filter_cons_of_pos (hfades.2 he)]
          exact Nat.succ_le_succ ih
  | @cons_right e' _ _ _ ih =>
      exact Nat.le_trans ih ((List.sublist_cons_self e' _).filter _).length_le

theorem Fewer.oneLive (h : Fewer es es') (hone : OneLive es') : OneLive es :=
  Nat.le_trans h.live_le hone

theorem Fewer.append (h : Fewer es es') (es'' : List (Entry ι)) :
    Fewer (es ++ es'') (es' ++ es'') := by
  induction h with
  | @nil es' => exact .of_sublist (List.sublist_append_right es' es'')
  | cons hfades _ ih => exact .cons hfades ih
  | cons_right _ ih => exact .cons_right ih

/-- A move that cannot break the index: it adds nothing, and marks no row of these as live. -/
def Move.Calm (es : List (Entry ι)) : Move ι → Prop
  | .add _ => False
  | .drop _ => True
  | .mark id live => live = true → ∀ e ∈ es, e.id ≠ id

theorem Move.Calm.of_fewer {m : Move ι} (h : m.Calm es') (hfewer : Fewer es es') : m.Calm es := by
  cases m with
  | add e => exact h
  | drop id => trivial
  | mark id live =>
      intro hlive e he hid
      obtain ⟨e', he', hfades⟩ := hfewer.mem he
      exact h hlive e' he' (hfades.1 ▸ hid)

section Moves

variable [DecidableEq ι] {m : Move ι} {ms : List (Move ι)}

def Move.act : Move ι → List (Entry ι) → List (Entry ι)
  | .add e, es => es ++ [e]
  | .drop id, es => es.filter (·.id ≠ id)
  | .mark id live, es => es.map fun e => if e.id = id then ⟨id, live⟩ else e

def actAll (ms : List (Move ι)) (es : List (Entry ι)) : List (Entry ι) :=
  ms.foldl (fun es m => m.act es) es

@[simp] theorem actAll_nil (es : List (Entry ι)) : actAll ([] : List (Move ι)) es = es := rfl

@[simp] theorem actAll_cons (m : Move ι) (ms : List (Move ι)) (es : List (Entry ι)) :
    actAll (m :: ms) es = actAll ms (m.act es) := rfl

theorem actAll_append (ms ms' : List (Move ι)) (es : List (Entry ι)) :
    actAll (ms ++ ms') es = actAll ms' (actAll ms es) :=
  List.foldl_append

/-- Where there were fewer, there are fewer after the same moves. -/
theorem Fewer.act (h : Fewer es es') (m : Move ι) : Fewer (m.act es) (m.act es') := by
  cases m with
  | add e => exact h.append [e]
  | drop id =>
      induction h with
      | nil => exact .nil
      | @cons e e' _ _ hfades _ ih =>
          simp only [Move.act, List.filter_cons, hfades.1]
          split
          · exact .cons hfades ih
          · exact ih
      | cons_right _ ih =>
          simp only [Move.act, List.filter_cons]
          split
          · exact .cons_right ih
          · exact ih
  | mark id live =>
      induction h with
      | nil => exact .nil
      | @cons e e' _ _ hfades _ ih =>
          simp only [Move.act, List.map_cons, hfades.1]
          refine .cons ?_ ih
          split
          · exact ⟨rfl, fun hlive => hlive⟩
          · exact hfades
      | cons_right _ ih => exact .cons_right ih

theorem Fewer.actAll (h : Fewer es es') (ms : List (Move ι)) :
    Fewer (actAll ms es) (actAll ms es') := by
  induction ms generalizing es es' with
  | nil => exact h
  | cons m ms ih => exact ih (h.act m)

theorem Move.Calm.fewer (h : m.Calm es) : Fewer (m.act es) es := by
  cases m with
  | add e => exact h.elim
  | drop id => exact .of_sublist List.filter_sublist
  | mark id live =>
      refine List.sublistForall₂_map_left_iff.mpr ?_
      refine List.sublistForall₂_iff.mpr ⟨es, List.forall₂_same.mpr fun e he => ?_, .refl es⟩
      split
      · rename_i hid
        exact ⟨hid.symm, fun hlive => absurd hid (h hlive e he)⟩
      · exact ⟨rfl, fun hlive => hlive⟩

/-- Calm moves leave fewer rows. -/
theorem fewer_of_calm (h : ∀ m ∈ ms, m.Calm es) : Fewer (actAll ms es) es := by
  induction ms generalizing es with
  | nil => exact .refl es
  | cons m ms ih =>
      have hfirst : Fewer (m.act es) es := (h m List.mem_cons_self).fewer
      exact (ih fun m' hm' => (h m' (List.mem_cons_of_mem _ hm')).of_fewer hfirst).trans hfirst

/-- A row is added where none is live. -/
theorem oneLive_add (h : ∀ e ∈ es, e.live = false) (e : Entry ι) :
    OneLive ((Move.add e).act es) := by
  have hnone : es.filter (·.live) = [] := List.filter_eq_nil_iff.mpr fun e he => by simp [h e he]
  rw [OneLive, Move.act, List.filter_append, hnone, List.nil_append]
  exact List.length_filter_le _ [e]

/-- A row is marked as live where no other is. -/
theorem oneLive_mark {id : ι} {live : Bool} (hids : (es.map (·.id)).Nodup)
    (h : ∀ e ∈ es, e.id ≠ id → e.live = false) : OneLive ((Move.mark id live).act es) := by
  have hsub : ((Move.mark id live).act es).filter (·.live) =
      ((Move.mark id live).act es).filter fun e => e.live && decide (e.id = id) := by
    refine List.filter_congr fun e he => ?_
    obtain ⟨e₀, he₀, rfl⟩ := List.mem_map.mp he
    split
    · simp
    · rename_i hne
      simp [h e₀ he₀ hne]
  have hids' : (((Move.mark id live).act es).map (·.id)).Nodup := by
    have hsame : ((Move.mark id live).act es).map (·.id) = es.map (·.id) := by
      rw [Move.act, List.map_map]
      refine List.map_congr_left fun e _ => ?_
      by_cases hid : e.id = id <;> simp [hid]
    exact hsame ▸ hids
  rw [OneLive, hsub]
  generalize (Move.mark id live).act es = marked at hids'
  clear hsub
  induction marked with
  | nil => exact Nat.zero_le _
  | cons e rest ih =>
      obtain ⟨hnot, hrest⟩ := List.nodup_cons.mp hids'
      by_cases hid : e.id = id
      · have hnone : (rest.filter fun e => e.live && decide (e.id = id)) = [] := by
          refine List.filter_eq_nil_iff.mpr fun e' he' => ?_
          have hne : e'.id ≠ id := fun heq =>
            hnot (List.mem_map.mpr ⟨e', he', heq.trans hid.symm⟩)
          simp [hne]
        rw [List.filter_cons]
        split
        · rw [hnone]
          exact Nat.le_refl 1
        · rw [hnone]
          exact Nat.zero_le _
      · rw [List.filter_cons_of_neg (by simp [hid])]
        exact ih hrest

end Moves

end ReadCommitted
