import Mathlib.Data.List.Nodup
import Mathlib.Data.Real.Basic
import Mathlib.Data.Set.Prod
import Mathlib.Order.CompletePartialOrder
import Mathlib.Order.Interval.Set.LinearOrder
import Mathlib.Tactic.Linarith
import Mathlib.Tactic.NormNum
import RestiqBackend.FloorPlan

/-!
No two tables of a floor share a point.

A table covers the half-open rectangle of the plane that its columns span, so what it
touches along an edge it does not cover. `boundsOverlap` decides whether two rectangles share
a point, and from there each operation keeps the tables of every floor apart.
-/

namespace RestiqBackend.FloorPlan

open Serial (bind_ok bind_error bind_ne_error map_ok map_error check_ok check_error check_ne_error
  orElseThrow_ok orElseThrow_ne_error)

/-! ### Rectangles of the plane -/

/-- The points that a table covers. -/
def Bounds.region (b : Bounds) : Set (ℝ × ℝ) :=
  Set.Ico (b.x : ℝ) (b.x + b.width) ×ˢ Set.Ico (b.y : ℝ) (b.y + b.height)

/-- Stretches of a line share a point where each begins before the other ends. -/
theorem Ico_inter_nonempty {a b : ℝ} {l m : ℝ} (hl : 0 < l) (hm : 0 < m) :
    (Set.Ico a (a + l) ∩ Set.Ico b (b + m)).Nonempty ↔ a < b + m ∧ b < a + l := by
  rw [Set.Ico_inter_Ico, Set.nonempty_Ico, max_lt_iff, lt_min_iff, lt_min_iff]
  constructor
  · rintro ⟨⟨-, h⟩, h', -⟩
    exact ⟨h, h'⟩
  · rintro ⟨h, h'⟩
    exact ⟨⟨by linarith, h⟩, h', by linarith⟩

theorem boundsOverlap_iff {a b : Bounds} :
    boundsOverlap a b = true ↔ (a.region ∩ b.region).Nonempty := by
  have hpos : ∀ n : ℕ, 1 ≤ n → (0 : ℝ) < n := fun n hn => by exact_mod_cast hn
  rw [Bounds.region, Bounds.region, Set.prod_inter_prod, Set.prod_nonempty_iff,
    Ico_inter_nonempty (hpos _ a.one_le_width) (hpos _ b.one_le_width),
    Ico_inter_nonempty (hpos _ a.one_le_height) (hpos _ b.one_le_height)]
  simp only [boundsOverlap, Bool.and_eq_true, decide_eq_true_eq, gt_iff_lt, and_assoc]
  norm_cast

theorem disjoint_of_not_overlap {a b : Bounds} (h : boundsOverlap a b = false) :
    Disjoint a.region b.region := by
  rw [Set.disjoint_iff_inter_eq_empty, ← Set.not_nonempty_iff_eq_empty, ← boundsOverlap_iff, h]
  exact Bool.false_ne_true

/-! ### The invariant -/

/-- The tenant of the floor with the given id. -/
def floorTenant (w : World) (floorId : ℕ) : Option ℕ :=
  (w.floors.find? (·.id = floorId)).map (·.tenantId)

/-- Tables are told apart by their ids, stand on a floor of their own tenant, and share no
point with another table of that floor. -/
structure Sound (w : World) : Prop where
  pkey : (w.tables.map (·.id)).Nodup
  on_floor : ∀ t ∈ w.tables, floorTenant w t.floorId = some t.tenantId
  apart : ∀ a ∈ w.tables, ∀ b ∈ w.tables, a.id ≠ b.id → a.floorId = b.floorId →
    Disjoint a.region b.region

/-- The tables of each floor share no point. -/
def NoOverlap (w : World) : Prop :=
  w.tables.Pairwise fun a b => a.floorId = b.floorId → Disjoint a.region b.region

variable {w w' : World} {tenantId outletId tableId floorId : ℕ}

theorem Sound.noOverlap (h : Sound w) : NoOverlap w := by
  have hids : w.tables.Pairwise fun a b => a.id ≠ b.id := List.pairwise_map.mp h.pkey
  exact hids.imp_of_mem fun {a b} ha hb hne => h.apart a ha b hb hne

theorem Sound.of_empty (h : w.tables = []) : Sound w := by
  constructor <;> simp [h]

/-! ### What the guards found -/

theorem loadFloor_ok {f : Floor} (h : loadFloor w tenantId outletId floorId = .ok f) :
    w.floors.find? (·.id = floorId) = some f ∧ f.tenantId = tenantId := by
  obtain ⟨floor, hfind, h⟩ := bind_ok h
  obtain ⟨⟨⟩, hown, h⟩ := bind_ok h
  cases h
  exact ⟨orElseThrow_ok hfind, (check_ok hown).1⟩

theorem floorTenant_of_loadFloor {f : Floor} (h : loadFloor w tenantId outletId floorId = .ok f) :
    floorTenant w floorId = some tenantId := by
  obtain ⟨hfind, hown⟩ := loadFloor_ok h
  rw [floorTenant, hfind, Option.map_some, hown]

theorem loadTable_ok {t : DiningTable} (h : loadTable w tenantId outletId tableId = .ok t) :
    t ∈ w.tables ∧ t.id = tableId ∧ t.tenantId = tenantId := by
  obtain ⟨table, hfind, h⟩ := bind_ok h
  obtain ⟨⟨⟩, hown, h⟩ := bind_ok h
  obtain ⟨floor, -, h⟩ := bind_ok h
  cases h
  have hfind := orElseThrow_ok hfind
  exact ⟨List.mem_of_find?_eq_some hfind, by simpa using List.find?_some hfind, check_ok hown⟩

theorem mem_others {t : DiningTable} {self : Option ℕ} : t ∈ others w tenantId floorId self ↔
    t ∈ w.tables ∧ t.tenantId = tenantId ∧ t.floorId = floorId ∧ self ≠ some t.id := by
  simp [others]

/-- Where the guard lets a rectangle pass, no other table of the floor covers a point of it. -/
theorem assertNoOverlap_ok {bounds : Bounds} {self : Option ℕ} {u : Unit} (hs : Sound w)
    (hfloor : floorTenant w floorId = some tenantId)
    (h : assertNoOverlap w tenantId floorId bounds self = .ok u) :
    ∀ t ∈ w.tables, t.floorId = floorId → self ≠ some t.id → Disjoint bounds.region t.region := by
  intro t ht hsame hself
  have htenant : t.tenantId = tenantId := by
    have := hs.on_floor t ht
    rw [hsame, hfloor] at this
    exact (Option.some.inj this).symm
  have hclear := List.any_eq_false.mp (check_ok h) t (mem_others.mpr ⟨ht, htenant, hsame, hself⟩)
  exact disjoint_of_not_overlap (by simpa using hclear)

theorem assertNoOverlap_error {bounds : Bounds} {self : Option ℕ} {e : ApiError}
    (h : assertNoOverlap w tenantId floorId bounds self = .error e) :
    ∃ t ∈ w.tables, self ≠ some t.id ∧ t.floorId = floorId ∧
      (bounds.region ∩ t.region).Nonempty := by
  have hany := (check_error h).1
  rw [Bool.not_eq_false, List.any_eq_true] at hany
  obtain ⟨t, ht, hover⟩ := hany
  obtain ⟨hmem, -, hfloor, hself⟩ := mem_others.mp ht
  exact ⟨t, hmem, hself, hfloor, boundsOverlap_iff.mp hover⟩

/-! ### Floors -/

theorem createFloor_sound {dto : CreateFloorDto} {id : ℕ} {r : World × Floor} (hs : Sound w)
    (h : createFloor w tenantId outletId dto id = .ok r) : Sound r.1 := by
  obtain ⟨-, -, h⟩ := bind_ok h
  obtain ⟨⟨⟩, -, h⟩ := bind_ok h
  obtain ⟨⟨⟩, -, h⟩ := bind_ok h
  cases h
  refine ⟨hs.pkey, fun t ht => ?_, hs.apart⟩
  obtain ⟨f, hf, hown⟩ := Option.map_eq_some_iff.mp (hs.on_floor t ht)
  rw [floorTenant, List.find?_append, hf, Option.some_or, Option.map_some, hown]

/-- Rewriting a floor in its place moves no floor to another tenant. -/
theorem floorTenant_replace {f g : Floor} (hf : w.floors.find? (·.id = floorId) = some f)
    (hid : g.id = floorId) (hown : g.tenantId = f.tenantId) (k : ℕ) :
    floorTenant { w with floors := w.floors.map fun x => if x.id = floorId then g else x } k =
      floorTenant w k := by
  have hkeeps : ((fun x : Floor => decide (x.id = k)) ∘ fun x => if x.id = floorId then g else x) =
      fun x => decide (x.id = k) := by
    funext x
    by_cases hx : x.id = floorId <;> simp [hx, hid]
  rw [floorTenant, floorTenant, List.find?_map, hkeeps]
  cases hfind : w.floors.find? fun x => decide (x.id = k) with
  | none => rfl
  | some x =>
      have hx : x.id = k := by simpa using List.find?_some hfind
      rw [Option.map_some, Option.map_some, Option.map_some]
      by_cases hk : x.id = floorId
      · rw [if_pos hk, hown]
        rw [← hx, hk, hf] at hfind
        cases hfind
        rfl
      · rw [if_neg hk]

theorem updateFloor_sound {dto : UpdateFloorDto} {r : World × Floor × List DiningTable}
    (hs : Sound w) (h : updateFloor w tenantId outletId floorId dto = .ok r) : Sound r.1 := by
  obtain ⟨existing, hload, h⟩ := bind_ok h
  obtain ⟨⟨⟩, -, h⟩ := bind_ok h
  cases h
  have hfind := (loadFloor_ok hload).1
  have hid : existing.id = floorId := by simpa using List.find?_some hfind
  refine ⟨hs.pkey, fun t ht => ?_, hs.apart⟩
  have hsame := floorTenant_replace (g := { existing with
    name := dto.name.getD existing.name
    sortOrder := dto.sortOrder.getD existing.sortOrder }) hfind hid rfl
  exact (hsame _).trans (hs.on_floor t ht)

theorem deleteFloor_sound {r : World × Unit} (hs : Sound w)
    (h : deleteFloor w tenantId outletId floorId = .ok r) : Sound r.1 := by
  obtain ⟨-, -, h⟩ := bind_ok h
  obtain ⟨⟨⟩, hnone, h⟩ := bind_ok h
  cases h
  have hnone := List.eq_nil_of_length_eq_zero (check_ok hnone)
  refine ⟨hs.pkey, fun t ht => ?_, hs.apart⟩
  have hne : t.floorId ≠ floorId := by
    simpa using List.filter_eq_nil_iff.mp hnone t ht
  rw [← hs.on_floor t ht, floorTenant, floorTenant, List.find?_filter]
  congr 2
  funext x
  by_cases hx : x.id = t.floorId <;> simp [hx, hne]

/-! ### Tables -/

theorem createTable_sound {dto : CreateTableDto} {id : ℕ} {r : World × DiningTable} (hs : Sound w)
    (h : createTable w tenantId outletId dto id = .ok r) : Sound r.1 := by
  obtain ⟨floor, hload, h⟩ := bind_ok h
  obtain ⟨⟨⟩, hclear, h⟩ := bind_ok h
  obtain ⟨⟨⟩, -, h⟩ := bind_ok h
  obtain ⟨⟨⟩, hfresh, h⟩ := bind_ok h
  cases h
  have hfloor := floorTenant_of_loadFloor hload
  have hclear := assertNoOverlap_ok hs hfloor hclear
  have hfresh : ∀ t ∈ w.tables, t.id ≠ id := by simpa using check_ok hfresh
  refine ⟨?_, fun t ht => ?_, fun a ha b hb hne hsame => ?_⟩
  · rw [List.map_append, List.map_singleton, ← List.concat_eq_append]
    refine List.Nodup.concat (fun hmem => ?_) hs.pkey
    obtain ⟨t, ht, hid⟩ := List.mem_map.mp hmem
    exact hfresh t ht hid
  · rcases List.mem_append.mp ht with ht | ht
    · exact hs.on_floor t ht
    · cases List.mem_singleton.mp ht
      exact hfloor
  · rcases List.mem_append.mp ha with ha | ha <;> rcases List.mem_append.mp hb with hb | hb
    · exact hs.apart a ha b hb hne hsame
    · cases List.mem_singleton.mp hb
      exact (hclear a ha hsame (by simp)).symm
    · cases List.mem_singleton.mp ha
      exact hclear b hb hsame.symm (by simp)
    · cases List.mem_singleton.mp ha
      cases List.mem_singleton.mp hb
      exact absurd rfl hne

theorem updateTable_sound {dto : UpdateTableDto} {r : World × DiningTable} (hs : Sound w)
    (h : updateTable w tenantId outletId tableId dto = .ok r) : Sound r.1 := by
  obtain ⟨existing, hload, h⟩ := bind_ok h
  obtain ⟨⟨⟩, hclear, h⟩ := bind_ok h
  obtain ⟨⟨⟩, -, h⟩ := bind_ok h
  cases h
  obtain ⟨hmem, rfl, hown⟩ := loadTable_ok hload
  have hclear := assertNoOverlap_ok hs (hown ▸ hs.on_floor existing hmem) hclear
  -- A row after the update is the moved table, or one that was there under another id.
  have hrows : ∀ t ∈ w.tables.map fun t => if t.id = existing.id then dto.over existing else t,
      t = dto.over existing ∨ (t ∈ w.tables ∧ t.id ≠ existing.id) := by
    intro t ht
    obtain ⟨t₀, ht₀, rfl⟩ := List.mem_map.mp ht
    by_cases hid : t₀.id = existing.id
    · exact .inl (if_pos hid)
    · rw [if_neg hid]
      exact .inr ⟨ht₀, hid⟩
  refine ⟨?_, fun t ht => ?_, fun a ha b hb hne hsame => ?_⟩
  · have hids : (w.tables.map fun t => if t.id = existing.id then dto.over existing else t).map
        (·.id) = w.tables.map (·.id) := by
      rw [List.map_map]
      refine List.map_congr_left fun t _ => ?_
      by_cases hid : t.id = existing.id <;> simp [hid, UpdateTableDto.over]
    exact hids ▸ hs.pkey
  · rcases hrows t ht with rfl | ⟨ht, -⟩
    · exact hs.on_floor existing hmem
    · exact hs.on_floor t ht
  · rcases hrows a ha with rfl | ⟨ha, hida⟩ <;> rcases hrows b hb with rfl | ⟨hb, hidb⟩
    · exact absurd rfl hne
    · exact hclear b hb hsame.symm fun h => hidb (Option.some.inj h).symm
    · exact (hclear a ha hsame fun h => hida (Option.some.inj h).symm).symm
    · exact hs.apart a ha b hb hne hsame

theorem deleteTable_sound {hasSessions : Bool} {r : World × Unit} (hs : Sound w)
    (h : deleteTable w tenantId outletId tableId hasSessions = .ok r) : Sound r.1 := by
  obtain ⟨-, -, h⟩ := bind_ok h
  obtain ⟨⟨⟩, -, h⟩ := bind_ok h
  cases h
  have hkept : ∀ t ∈ w.tables.filter (·.id ≠ tableId), t ∈ w.tables := fun t ht =>
    List.mem_of_mem_filter ht
  exact ⟨(List.filter_sublist.map _).nodup hs.pkey, fun t ht => hs.on_floor t (hkept t ht),
    fun a ha b hb => hs.apart a (hkept a ha) b (hkept b hb)⟩

/-! ### Every operation -/

theorem outcome_sound {op : Op} (hs : Sound w) (h : op.outcome w = .ok w') : Sound w' := by
  cases op with
  | createFloor =>
      obtain ⟨r, hr, rfl⟩ := map_ok h
      exact createFloor_sound hs hr
  | updateFloor =>
      obtain ⟨r, hr, rfl⟩ := map_ok h
      exact updateFloor_sound hs hr
  | deleteFloor =>
      obtain ⟨r, hr, rfl⟩ := map_ok h
      exact deleteFloor_sound hs hr
  | createTable =>
      obtain ⟨r, hr, rfl⟩ := map_ok h
      exact createTable_sound hs hr
  | updateTable =>
      obtain ⟨r, hr, rfl⟩ := map_ok h
      exact updateTable_sound hs hr
  | deleteTable =>
      obtain ⟨r, hr, rfl⟩ := map_ok h
      exact deleteTable_sound hs hr

theorem handle_sound (hs : Sound w) (op : Op) : Sound (w.handle op) := by
  unfold World.handle
  split
  · exact outcome_sound hs ‹_›
  · exact hs

/-! ### Refusals -/

/-- Where an operation wants a table, on which floor, and which table is already there to
be moved. -/
def Op.target (w : World) : Op → Option (ℕ × Bounds × Option ℕ)
  | .createTable _ _ dto _ => some (dto.floorId, dto.toBounds, none)
  | .updateTable _ _ tableId dto =>
      (w.tables.find? (·.id = tableId)).map fun t => (t.floorId, dto.bounds t.toBounds, some tableId)
  | _ => none

theorem loadFloor_ne_overlap : loadFloor w tenantId outletId floorId ≠ .error tableOverlap :=
  bind_ne_error (orElseThrow_ne_error (by decide)) fun _ =>
    bind_ne_error (check_ne_error (by decide)) fun _ => nofun

theorem loadTable_ne_overlap : loadTable w tenantId outletId tableId ≠ .error tableOverlap :=
  bind_ne_error (orElseThrow_ne_error (by decide)) fun _ =>
    bind_ne_error (check_ne_error (by decide)) fun _ =>
      bind_ne_error loadFloor_ne_overlap fun _ => nofun

theorem createFloor_ne_overlap {dto : CreateFloorDto} {id : ℕ} :
    createFloor w tenantId outletId dto id ≠ .error tableOverlap := by
  refine bind_ne_error ?_ fun _ => bind_ne_error (check_ne_error (by decide)) fun _ =>
    bind_ne_error (check_ne_error (by decide)) fun _ => nofun
  exact bind_ne_error (orElseThrow_ne_error (by decide)) fun _ =>
    bind_ne_error (check_ne_error (by decide)) fun _ => nofun

theorem updateFloor_ne_overlap {dto : UpdateFloorDto} :
    updateFloor w tenantId outletId floorId dto ≠ .error tableOverlap :=
  bind_ne_error loadFloor_ne_overlap fun _ =>
    bind_ne_error (check_ne_error (by decide)) fun _ => nofun

theorem deleteFloor_ne_overlap : deleteFloor w tenantId outletId floorId ≠ .error tableOverlap :=
  bind_ne_error loadFloor_ne_overlap fun _ =>
    bind_ne_error (check_ne_error (by decide)) fun _ => nofun

theorem deleteTable_ne_overlap {hasSessions : Bool} :
    deleteTable w tenantId outletId tableId hasSessions ≠ .error tableOverlap :=
  bind_ne_error loadTable_ne_overlap fun _ =>
    bind_ne_error (check_ne_error (by decide)) fun _ => nofun

theorem loadTable_find? {t : DiningTable} (h : loadTable w tenantId outletId tableId = .ok t) :
    w.tables.find? (·.id = tableId) = some t := by
  obtain ⟨table, hfind, h⟩ := bind_ok h
  obtain ⟨⟨⟩, -, h⟩ := bind_ok h
  obtain ⟨floor, -, h⟩ := bind_ok h
  cases h
  exact orElseThrow_ok hfind

/-- A point of the rectangle asked for is covered by another table of the floor. -/
def SharesPoint (w : World) (floorId : ℕ) (bounds : Bounds) (self : Option ℕ) : Prop :=
  ∃ t ∈ w.tables, self ≠ some t.id ∧ t.floorId = floorId ∧ (bounds.region ∩ t.region).Nonempty

theorem createTable_overlap {dto : CreateTableDto} {id : ℕ}
    (h : createTable w tenantId outletId dto id = .error tableOverlap) :
    SharesPoint w dto.floorId dto.toBounds none := by
  rcases bind_error h with h | ⟨floor, -, h⟩
  · exact absurd h loadFloor_ne_overlap
  rcases bind_error h with h | ⟨⟨⟩, -, h⟩
  · exact assertNoOverlap_error h
  rcases bind_error h with h | ⟨⟨⟩, -, h⟩
  · exact absurd (check_error h).2 (by decide)
  rcases bind_error h with h | ⟨⟨⟩, -, h⟩
  · exact absurd (check_error h).2 (by decide)
  · cases h

theorem updateTable_overlap {dto : UpdateTableDto}
    (h : updateTable w tenantId outletId tableId dto = .error tableOverlap) :
    ∃ existing, w.tables.find? (·.id = tableId) = some existing ∧
      SharesPoint w existing.floorId (dto.bounds existing.toBounds) (some tableId) := by
  rcases bind_error h with h | ⟨existing, hload, h⟩
  · exact absurd h loadTable_ne_overlap
  refine ⟨existing, loadTable_find? hload, ?_⟩
  rcases bind_error h with h | ⟨⟨⟩, -, h⟩
  · exact assertNoOverlap_error h
  rcases bind_error h with h | ⟨⟨⟩, -, h⟩
  · exact absurd (check_error h).2 (by decide)
  · cases h

/-- What is refused as an overlap wanted a point that another table of the floor covers. -/
theorem outcome_overlap {op : Op} (h : op.outcome w = .error tableOverlap) :
    ∃ floorId bounds self, op.target w = some (floorId, bounds, self) ∧
      SharesPoint w floorId bounds self := by
  cases op with
  | createTable => exact ⟨_, _, _, rfl, createTable_overlap (map_error h)⟩
  | updateTable =>
      obtain ⟨existing, hfind, hshares⟩ := updateTable_overlap (map_error h)
      exact ⟨_, _, _, by rw [Op.target, hfind]; rfl, hshares⟩
  | createFloor => exact absurd (map_error h) createFloor_ne_overlap
  | updateFloor => exact absurd (map_error h) updateFloor_ne_overlap
  | deleteFloor => exact absurd (map_error h) deleteFloor_ne_overlap
  | deleteTable => exact absurd (map_error h) deleteTable_ne_overlap

/-- Whatever is done to an empty floor plan, the tables of each floor share no point, and only
an operation that would make them do so is refused as an overlap. -/
theorem tables_apart {ops : List Op} (hempty : w.tables = [])
    (h : Serial.Run (fun w op w' => w' = w.handle op) (fun _ _ => True) w ops w') :
    NoOverlap w' ∧ ∀ op : Op, op.outcome w' = .error tableOverlap →
      ∃ floorId bounds self, op.target w' = some (floorId, bounds, self) ∧
        SharesPoint w' floorId bounds self := by
  refine ⟨Sound.noOverlap ?_, fun op => outcome_overlap⟩
  exact h.preserves (fun w op w' hs _ hstep => hstep ▸ handle_sound hs op) (.of_empty hempty)

/-- One outlet with a floor on which nothing stands yet. -/
def emptyFloor : World :=
  { outlets := [⟨1, 1⟩]
    floors := [⟨1, 1, 1, "Ground", 0⟩]
    tables := []
    floorPlanSteps := [] }

/-- A square table of the given side in the corner at `x`. -/
def squareTable (x side : ℕ) (hside : 1 ≤ side) : CreateTableDto where
  x := x
  y := 0
  width := side
  height := side
  one_le_width := hside
  one_le_height := hside
  floorId := 1
  label := "T"
  shape := .square
  seatCapacity := 4

/-- Two tables that touch. -/
def touchingTables : List Op :=
  [.createTable 1 1 (squareTable 0 2 (Nat.le_add_left 1 1)) 1,
    .createTable 1 1 (squareTable 2 2 (Nat.le_add_left 1 1)) 2]

theorem tables_apart_touching : NoOverlap (touchingTables.foldl World.handle emptyFloor) :=
  (tables_apart (w := emptyFloor) rfl (Serial.Run.of_events World.handle emptyFloor
    touchingTables)).1

end RestiqBackend.FloorPlan
