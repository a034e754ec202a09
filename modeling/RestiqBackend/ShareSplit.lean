import RestiqBackend.GuestSettlement

/-!
How a bill is split, share by share.

The outstanding shares get their guest's part of what is due, rounded down, and the last of them
what is left over. A share that is created comes last, whatever its row says of when it was
created; read back, the shares come in the order of their rows. The two need not agree, and then
the next split hands the rest to another guest.
-/

namespace RestiqBackend

open ReadCommitted

/-! ### The shares that are created -/

/-- The shares that guests without one are given, by the draws of the outside world. -/
def newShares (envs : ℕ → Env) : List GuestWeight → List BillShare → ℕ → List BillShare
  | [], _, _ => []
  | weight :: weights, shares, n =>
      if shares.any (·.guestId = weight.guestId) then newShares envs weights shares n
      else
        let share : BillShare :=
          { id := (envs n).uuid, createdAt := (envs (n + 1)).now
            guestId := weight.guestId, guestName := weight.guestName
            amountMinor := 0, status := .outstanding
            payerPhone := none, tenderId := none, paidAt := none }
        share :: newShares envs weights (shares ++ [share]) (n + 3)

/-- Whether the new shares take no id and no guest that is taken. -/
def insertable : List BillShare → List BillShare → Bool
  | _, [] => true
  | rows, s :: new =>
      !(rows.any fun r => r.id = s.id || r.guestId = s.guestId) && insertable (rows ++ [s]) new

/-- The rows with new shares at the end. -/
def Store.withNew (v : Store) (new : List BillShare) : Store :=
  { v with shares := v.shares ++ new }

theorem Store.withNew_nil (v : Store) : v.withNew [] = v := by
  simp [Store.withNew]

theorem Store.withNew_cons (v : Store) (s : BillShare) (new : List BillShare) :
    (v.apply (.createShare s)).withNew new = v.withNew (s :: new) := by
  simp [Store.withNew, Store.apply]

section Create

variable {γ : Type} {envs : ℕ → Env}

theorem insertRow_run {taken : Store → Bool} {keys : List Key} {w : Write} {g : Unit → Tx γ}
    (n : ℕ) (v : Store) :
    (insertRow taken keys w >>= g).run envs n v =
      if taken v then .error uniqueViolation else (g ()).run envs (n + 1) (v.apply w) := by
  rw [insertRow, Txn.bind_assoc, Txn.run_writeWhen]
  cases taken v <;> rfl

theorem createMissingShares_run (g : List BillShare → Tx γ) (weights : List GuestWeight)
    (shares : List BillShare) (n : ℕ) (v : Store) :
    (createMissingShares weights shares >>= g).run envs n v =
      if insertable v.shares (newShares envs weights shares n) then
        (g (shares ++ newShares envs weights shares n)).run envs
          (n + 3 * (newShares envs weights shares n).length)
          (v.withNew (newShares envs weights shares n))
      else .error uniqueViolation := by
  induction weights generalizing shares n v with
  | nil => simp [createMissingShares, newShares, insertable, Store.withNew_nil]
  | cons weight weights ih =>
      by_cases hguest : shares.any (·.guestId = weight.guestId) = true
      · rw [createMissingShares, if_pos hguest, newShares, if_pos hguest]
        exact ih shares n v
      · rw [createMissingShares, if_neg hguest, newShares, if_neg hguest]
        let share : BillShare :=
          { id := (envs n).uuid, createdAt := (envs (n + 1)).now
            guestId := weight.guestId, guestName := weight.guestName
            amountMinor := 0, status := .outstanding
            payerPhone := none, tenderId := none, paidAt := none }
        show ((insertRow (fun v => v.shares.any fun s => s.id = share.id ||
            s.guestId = share.guestId) [.share share.id, .guestShare weight.guestId]
            (.createShare share) >>= fun _ => createMissingShares weights (shares ++ [share])) >>=
              g).run envs (n + 2) v =
          if insertable v.shares (share :: newShares envs weights (shares ++ [share]) (n + 3)) then
            (g (shares ++ share :: newShares envs weights (shares ++ [share]) (n + 3))).run envs
              (n + 3 * (share :: newShares envs weights (shares ++ [share]) (n + 3)).length)
              (v.withNew (share :: newShares envs weights (shares ++ [share]) (n + 3)))
          else .error uniqueViolation
        have hcons : ∀ new, shares ++ [share] ++ new = shares ++ share :: new := fun new =>
          (List.append_cons shares share new).symm
        rw [Txn.bind_assoc, insertRow_run, ih, insertable, Store.withNew_cons, hcons]
        generalize newShares envs weights (shares ++ [share]) (n + 3) = new
        have hcount : n + 2 + 1 + 3 * new.length = n + 3 * (share :: new).length := by
          rw [List.length_cons]
          omega
        rw [hcount]
        by_cases htaken : (v.shares.any fun s => s.id = share.id || s.guestId = share.guestId) = true
        · rw [if_pos htaken, htaken]
          rfl
        · rw [if_neg htaken, Bool.eq_false_iff.mpr htaken]
          rfl

end Create

section Create

variable {envs : ℕ → Env} {weights : List GuestWeight} {shares rows new : List BillShare} {n : ℕ}

theorem newShares_outstanding : ∀ s ∈ newShares envs weights shares n, s.status = .outstanding := by
  fun_induction newShares envs weights shares n with
  | case1 => exact fun s hs => absurd hs List.not_mem_nil
  | case2 weight weights shares n hguest ih => exact ih
  | case3 weight weights shares n hguest share ih =>
      intro s hs
      rcases List.mem_cons.mp hs with rfl | hs
      · rfl
      · exact ih s hs

/-- Every guest has a share then. -/
theorem newShares_shared :
    ∀ w ∈ weights, ∃ s ∈ shares ++ newShares envs weights shares n, s.guestId = w.guestId := by
  fun_induction newShares envs weights shares n with
  | case1 => exact fun w hw => absurd hw List.not_mem_nil
  | case2 weight weights shares n hguest ih =>
      intro w hw
      rcases List.mem_cons.mp hw with rfl | hw
      · obtain ⟨s, hs, hsguest⟩ := List.any_eq_true.mp hguest
        exact ⟨s, List.mem_append_left _ hs, of_decide_eq_true hsguest⟩
      · exact ih w hw
  | case3 weight weights shares n hguest share ih =>
      intro w hw
      rcases List.mem_cons.mp hw with rfl | hw
      · exact ⟨share, List.mem_append_right _ List.mem_cons_self, rfl⟩
      · rw [List.append_cons]
        exact ih w hw

theorem newShares_eq_nil :
    newShares envs weights shares n = [] ↔ ∀ w ∈ weights, ∃ s ∈ shares, s.guestId = w.guestId := by
  constructor
  · intro hnil w hw
    have hshared : ∃ s ∈ shares ++ newShares envs weights shares n, s.guestId = w.guestId :=
      newShares_shared w hw
    obtain ⟨s, hs, hguest⟩ := hshared
    rw [hnil, List.append_nil] at hs
    exact ⟨s, hs, hguest⟩
  · intro h
    induction weights generalizing n with
    | nil => rfl
    | cons weight weights ih =>
        obtain ⟨s, hs, hguest⟩ := h weight List.mem_cons_self
        rw [newShares, if_pos (List.any_eq_true.mpr ⟨s, hs, decide_eq_true hguest⟩)]
        exact ih fun w hw => h w (List.mem_cons_of_mem _ hw)

theorem insertable_nodup (h : insertable rows new = true) (hids : (rows.map (·.id)).Nodup)
    (hguests : (rows.map (·.guestId)).Nodup) :
    ((rows ++ new).map (·.id)).Nodup ∧ ((rows ++ new).map (·.guestId)).Nodup := by
  induction new generalizing rows with
  | nil =>
      rw [List.append_nil]
      exact ⟨hids, hguests⟩
  | cons s new ih =>
      rw [insertable, Bool.and_eq_true, Bool.not_eq_true'] at h
      have hfree : ∀ r ∈ rows, r.id ≠ s.id ∧ r.guestId ≠ s.guestId := by
        intro r hr
        have hr := List.any_eq_false.mp h.1 r hr
        simpa [not_or] using hr
      rw [List.append_cons]
      exact ih h.2 (nodup_map_snoc hids fun r hr => (hfree r hr).1)
        (nodup_map_snoc hguests fun r hr => (hfree r hr).2)

end Create

/-! ### The amounts -/

section Amounts

variable (weights : List GuestWeight) (due : ℤ) (outstanding : List BillShare)

/-- The part of what is due that a share gets before the rest is handed out. -/
def partOf (s : BillShare) : ℤ :=
  Proration.share due (weightOf weights s.guestId)
    (outstanding.map fun s => weightOf weights s.guestId).sum

/-- What the parts leave of what is due. -/
def restOf : ℤ := due - (outstanding.map (partOf weights due outstanding)).sum

/-- The amount of a share: its part, and the rest if it is the last. -/
def amountOf (s : BillShare) : ℤ :=
  partOf weights due outstanding s +
    if outstanding.getLast?.map (·.id) = some s.id then restOf weights due outstanding else 0

variable {weights due outstanding}

theorem shareAmounts_snoc (before : List BillShare) (last : BillShare) :
    shareAmounts weights due (before ++ [last]) =
      before.map (partOf weights due (before ++ [last])) ++
        [due - (before.map (partOf weights due (before ++ [last]))).sum] := by
  show Proration.apportion due ((before ++ [last]).map fun s => weightOf weights s.guestId).sum 0
      ((before ++ [last]).map fun s => weightOf weights s.guestId) = _
  unfold partOf
  generalize ((before ++ [last]).map fun s => weightOf weights s.guestId).sum = W
  rw [List.map_append, List.map_singleton, Proration.apportion_snoc, List.map_map, sub_zero]
  rfl

theorem amountOf_last {before : List BillShare} {last : BillShare} :
    amountOf weights due (before ++ [last]) last =
      partOf weights due (before ++ [last]) last + restOf weights due (before ++ [last]) := by
  rw [amountOf, List.getLast?_concat, Option.map_some, if_pos rfl]

theorem amountOf_before {before : List BillShare} {last s : BillShare}
    (hids : ((before ++ [last]).map (·.id)).Nodup) (hs : s ∈ before) :
    amountOf weights due (before ++ [last]) s = partOf weights due (before ++ [last]) s := by
  have hne : ¬ last.id = s.id := by
    rw [List.map_append, List.nodup_append] at hids
    exact fun heq => hids.2.2 s.id (List.mem_map_of_mem hs) last.id
      (List.mem_map_of_mem (List.mem_singleton_self _)) heq.symm
  rw [amountOf, List.getLast?_concat, Option.map_some, if_neg fun h => hne (Option.some.inj h),
    add_zero]

/-- The split gives every share its amount. -/
theorem zip_shareAmounts (hids : (outstanding.map (·.id)).Nodup) :
    ∀ p ∈ outstanding.zip (shareAmounts weights due outstanding),
      p.2 = amountOf weights due outstanding p.1 := by
  rcases List.eq_nil_or_concat outstanding with rfl | ⟨before, last, rfl⟩
  · exact fun p hp => absurd hp List.not_mem_nil
  · rw [List.concat_eq_append] at hids ⊢
    have hamounts : shareAmounts weights due (before ++ [last]) =
        before.map (partOf weights due (before ++ [last])) ++
          [partOf weights due (before ++ [last]) last + restOf weights due (before ++ [last])] := by
      rw [shareAmounts_snoc, restOf, List.map_append, List.sum_append, List.map_singleton,
        List.sum_singleton]
      exact congrArg (fun x => _ ++ [x]) (by ring)
    rw [hamounts, List.zip_append (by rw [List.length_map])]
    intro p hp
    rcases List.mem_append.mp hp with hp | hp
    · rw [← List.map_prod_left_eq_zip, List.mem_map] at hp
      obtain ⟨s, hs, rfl⟩ := hp
      exact (amountOf_before hids hs).symm
    · obtain rfl := List.mem_singleton.mp hp
      exact amountOf_last.symm

end Amounts

/-! ### Writing them -/

/-- A share with its amount, if it is still outstanding. -/
def BillShare.repriced (s : BillShare) (amount : BillShare → ℤ) : BillShare :=
  if s.status = .outstanding then { s with amountMinor := amount s } else s

section Write

variable {amount : BillShare → ℤ}

@[simp] theorem BillShare.repriced_id (s : BillShare) : (s.repriced amount).id = s.id := by
  rw [repriced]
  split <;> rfl

@[simp] theorem BillShare.repriced_guestId (s : BillShare) :
    (s.repriced amount).guestId = s.guestId := by
  rw [repriced]
  split <;> rfl

@[simp] theorem BillShare.repriced_status (s : BillShare) :
    (s.repriced amount).status = s.status := by
  rw [repriced]
  split <;> rfl

@[simp] theorem BillShare.repriced_createdAt (s : BillShare) :
    (s.repriced amount).createdAt = s.createdAt := by
  rw [repriced]
  split <;> rfl

theorem BillShare.repriced_paid {s : BillShare} (h : s.status = .paid) :
    s.repriced amount = s := if_neg (by rw [h]; exact nofun)

theorem BillShare.repriced_outstanding {s : BillShare} (h : s.status = .outstanding) :
    s.repriced amount = { s with amountMinor := amount s } := if_pos h

/-- The rows whose ids are listed get their amounts. -/
def assign (amount : BillShare → ℤ) (ids : List ℕ) (rows : List BillShare) : List BillShare :=
  rows.map fun s => if s.id ∈ ids then { s with amountMinor := amount s } else s

theorem assign_cons (hamount : ∀ s a, amount { s with amountMinor := a } = amount s) (id : ℕ)
    (ids : List ℕ) (rows : List BillShare) :
    assign amount ids (assign amount [id] rows) = assign amount (id :: ids) rows := by
  rw [assign, assign, List.map_map]
  refine List.map_congr_left fun s _ => ?_
  have hcons : s.id ∈ id :: ids ↔ s.id ∈ [id] ∨ s.id ∈ ids := by
    rw [List.mem_cons, List.mem_singleton]
  by_cases hid : s.id ∈ [id]
  · rw [Function.comp_apply, if_pos hid, if_pos (hcons.mpr (.inl hid)), ite_eq_right_iff]
    exact fun _ => congrArg (fun a => { s with amountMinor := a }) (hamount s _)
  · rw [Function.comp_apply, if_neg hid]
    simp only [hcons, hid, false_or]

/-- Writing one share, or finding that it has its amount already. -/
theorem assign_one {rows : List BillShare} {s : BillShare} (hs : s ∈ rows)
    (hids : (rows.map (·.id)).Nodup) :
    assign amount [s.id] rows =
      updateRows BillShare.id s.id (fun r => { r with amountMinor := amount s }) rows := by
  refine List.map_congr_left fun r hr => ?_
  by_cases hid : r.id = s.id
  · have : r = s := eq_of_key_eq hids hr hs hid
    rw [if_pos (List.mem_singleton.mpr hid), if_pos hid, this]
  · rw [if_neg (fun h => hid (List.mem_singleton.mp h)), if_neg hid]

theorem assign_ids (ids : List ℕ) (rows : List BillShare) :
    (assign amount ids rows).map (·.id) = rows.map (·.id) := by
  rw [assign, List.map_map]
  refine List.map_congr_left fun s _ => ?_
  show (if s.id ∈ ids then { s with amountMinor := amount s } else s).id = s.id
  split <;> rfl

theorem setShareAmount_run {γ : Type} {envs : ℕ → Env} {g : Unit → Tx γ} {n : ℕ} {v : Store}
    {s : BillShare} (hs : s ∈ v.shares) (hids : (v.shares.map (·.id)).Nodup) :
    ∃ n', (setShareAmount s (amount s) >>= g).run envs n v =
      (g ()).run envs n' { v with shares := assign amount [s.id] v.shares } := by
  rw [assign_one hs hids]
  by_cases hsame : amount s = s.amountMinor
  · refine ⟨n, ?_⟩
    have hkept : updateRows BillShare.id s.id (fun r => { r with amountMinor := amount s })
        v.shares = v.shares := by
      conv_rhs => rw [← List.map_id v.shares]
      refine List.map_congr_left fun r hr => ?_
      by_cases hid : r.id = s.id
      · rw [if_pos hid, eq_of_key_eq hids hr hs hid, hsame]
        rfl
      · rw [if_neg hid]
        rfl
    rw [setShareAmount, if_pos hsame, hkept]
    rfl
  · refine ⟨n + 1, ?_⟩
    have hany : v.shares.any (·.id = s.id) = true :=
      List.any_eq_true.mpr ⟨s, hs, decide_eq_true rfl⟩
    rw [setShareAmount, if_neg hsame, Txn.bind_assoc, Txn.run_writeWhen, if_pos hany]
    rfl

theorem assignAmounts_run (hamount : ∀ s a, amount { s with amountMinor := a } = amount s)
    {envs : ℕ → Env} {n : ℕ} {v : Store} {pairs : List (BillShare × ℤ)}
    (hmem : ∀ p ∈ pairs, p.1 ∈ v.shares ∧ p.2 = amount p.1)
    (hids : (v.shares.map (·.id)).Nodup) (hnd : (pairs.map (·.1.id)).Nodup) :
    (Txn.forEach (fun p : BillShare × ℤ => setShareAmount p.1 p.2) pairs).run envs n v =
      .ok ((), { v with shares := assign amount (pairs.map (·.1.id)) v.shares }) := by
  induction pairs generalizing n v with
  | nil =>
      have : assign amount [] v.shares = v.shares := by simp [assign]
      rw [List.map_nil, this]
      rfl
  | cons p ps ih =>
      obtain ⟨hp, heq⟩ := hmem p List.mem_cons_self
      rw [List.map_cons, List.nodup_cons] at hnd
      rw [Txn.forEach_cons, heq, List.map_cons]
      obtain ⟨n', hrun⟩ : ∃ n', (setShareAmount p.1 (amount p.1) >>= fun _ =>
          Txn.forEach (fun p : BillShare × ℤ => setShareAmount p.1 p.2) ps).run envs n v =
            (Txn.forEach (fun p : BillShare × ℤ => setShareAmount p.1 p.2) ps).run envs n'
              { v with shares := assign amount [p.1.id] v.shares } := setShareAmount_run hp hids
      rw [hrun, ih (fun q hq => ?_) (by rw [assign_ids]; exact hids) hnd.2]
      · rw [assign_cons hamount]
      · obtain ⟨hqmem, hqeq⟩ := hmem q (List.mem_cons_of_mem _ hq)
        refine ⟨List.mem_map.mpr ⟨q.1, hqmem, if_neg fun h => ?_⟩, hqeq⟩
        exact hnd.1 (List.mem_singleton.mp h ▸ List.mem_map_of_mem hq)

end Write

/-! ### A whole split -/

def billChanged : ApiError :=
  ⟨.conflict, "bill_changed",
    "This bill changed after it was paid - please ask the staff to settle it"⟩

/-- The shares a split creates, its first draw being the `n`th. -/
def Store.createdShares (v : Store) (envs : ℕ → Env) (n : ℕ) : List BillShare :=
  newShares envs (guestWeights v.liveLines) v.sortedShares n

/-- The shares that what is due is split over, in the order of the split: the rows there are in
their own order, then those it creates. -/
def Store.splitOver (v : Store) (new : List BillShare) : List BillShare :=
  (v.sortedShares ++ new).filter (·.status = .outstanding)

/-- What is still due of a bill. -/
def Store.dueMinor (v : Store) (b : Bill) : ℤ := b.totalMinor - paidMinorOf v.shares

/-- The rows after a split. -/
def Store.split (v : Store) (b : Bill) (new : List BillShare) : Store :=
  { v with
    shares := (v.shares ++ new).map
      (·.repriced (amountOf (guestWeights v.liveLines) (v.dueMinor b) (v.splitOver new))) }

section Split

variable {b : Bill} {tenders : List Tender} {envs : ℕ → Env} {n : ℕ} {v : Store}
  {new : List BillShare}

theorem paidMinorOf_append (shares : List BillShare) (hnew : ∀ s ∈ new, s.status = .outstanding) :
    paidMinorOf (shares ++ new) = paidMinorOf shares := by
  have hnone : new.filter (·.status = .paid) = [] :=
    List.filter_eq_nil_iff.mpr fun s hs => by simp [hnew s hs]
  rw [paidMinorOf, List.filter_append, hnone, List.append_nil]
  rfl

theorem mem_splitOver {s : BillShare} :
    s ∈ v.splitOver new ↔ s ∈ v.shares ++ new ∧ s.status = .outstanding := by
  rw [Store.splitOver, List.mem_filter, decide_eq_true_iff, List.mem_append, List.mem_append,
    (sortedShares_perm v).mem_iff]

theorem splitOver_perm :
    (v.splitOver new).Perm ((v.shares ++ new).filter (·.status = .outstanding)) :=
  ((sortedShares_perm v).append_right new).filter _

theorem splitOver_ids (hids : ((v.shares ++ new).map (·.id)).Nodup) :
    ((v.splitOver new).map (·.id)).Nodup :=
  have hperm : (v.splitOver new).Perm _ := splitOver_perm
  (hperm.map (·.id)).nodup_iff.mpr (hids.sublist (List.filter_sublist.map _))

/-- The outstanding rows are those whose amounts are written. -/
theorem split_eq_assign (hids : ((v.shares ++ new).map (·.id)).Nodup) :
    v.split b new = { v.withNew new with
      shares := assign (amountOf (guestWeights v.liveLines) (v.dueMinor b) (v.splitOver new))
        ((v.splitOver new).map (·.id)) (v.withNew new).shares } := by
  refine congrArg (fun rows => { v with shares := rows }) (List.map_congr_left fun s hs => ?_)
  have hlisted : s.id ∈ (v.splitOver new).map (·.id) ↔ s.status = .outstanding := by
    constructor
    · intro h
      obtain ⟨s', hs', hid⟩ := List.mem_map.mp h
      obtain ⟨hmem, hout⟩ := mem_splitOver.mp hs'
      exact eq_of_key_eq hids hmem hs hid ▸ hout
    · exact fun hout => List.mem_map_of_mem (mem_splitOver.mpr ⟨hs, hout⟩)
  rw [BillShare.repriced]
  simp only [hlisted]

/-- All a split can do to an open bill. -/
theorem syncShares_run (hopen : b.status = .open) (hids : (v.shares.map (·.id)).Nodup)
    (hguests : (v.shares.map (·.guestId)).Nodup) :
    (syncShares ⟨b, tenders⟩).run envs n v =
      if insertable v.shares (v.createdShares envs (n + 2)) then
        if v.dueMinor b < 0 ∨
            (0 < v.dueMinor b ∧ v.splitOver (v.createdShares envs (n + 2)) = []) then
          .error billChanged
        else .ok ((), v.split b (v.createdShares envs (n + 2)))
      else .error uniqueViolation := by
  rw [syncShares, if_neg (not_not.mpr hopen)]
  show (createMissingShares (guestWeights v.liveLines) v.sortedShares >>= _).run envs (n + 2) v = _
  rw [createMissingShares_run]
  by_cases hins : insertable v.shares (v.createdShares envs (n + 2)) = true
  swap
  · rw [if_neg hins]
    exact if_neg hins
  rw [if_pos hins]
  refine (if_pos hins).trans ?_
  obtain ⟨hids', _⟩ := insertable_nodup hins hids hguests
  have hout : ∀ s ∈ v.createdShares envs (n + 2), s.status = .outstanding := newShares_outstanding
  have hpaid : paidMinorOf (v.sortedShares ++ v.createdShares envs (n + 2)) =
      paidMinorOf v.shares :=
    (paidMinorOf_append _ hout).trans (paidMinorOf_perm (sortedShares_perm v))
  rw [← Store.createdShares]
  generalize v.createdShares envs (n + 2) = new at *
  rw [hpaid]
  show ((raiseIf (v.dueMinor b < 0 ∨ (0 < v.dueMinor b ∧ v.splitOver new = [])) .conflict
      "bill_changed" _) >>= fun _ => Txn.forEach (fun s : BillShare × ℤ => setShareAmount s.1 s.2)
        ((v.splitOver new).zip (shareAmounts (guestWeights v.liveLines) (v.dueMinor b)
          (v.splitOver new)))).run _ _ _ = _
  by_cases hchanged : v.dueMinor b < 0 ∨ (0 < v.dueMinor b ∧ v.splitOver new = [])
  · rw [if_pos hchanged, raiseIf, if_pos hchanged]
    rfl
  · rw [if_neg hchanged, raiseIf, if_neg hchanged]
    have hpairs : ((v.splitOver new).zip (shareAmounts (guestWeights v.liveLines) (v.dueMinor b)
        (v.splitOver new))).map (·.1.id) = (v.splitOver new).map (·.id) := by
      conv_rhs => rw [← List.map_fst_zip (shareAmounts_length (guestWeights v.liveLines)
        (v.dueMinor b) (v.splitOver new)).ge, List.map_map]
      rfl
    have hmem : ∀ p ∈ (v.splitOver new).zip (shareAmounts (guestWeights v.liveLines)
        (v.dueMinor b) (v.splitOver new)), p.1 ∈ (v.withNew new).shares ∧
          p.2 = amountOf (guestWeights v.liveLines) (v.dueMinor b) (v.splitOver new) p.1 :=
      fun p hp => ⟨(mem_splitOver.mp (List.of_mem_zip hp).1).1,
        zip_shareAmounts (splitOver_ids hids') p hp⟩
    refine (assignAmounts_run (fun _ _ => rfl) hmem hids'
      (hpairs ▸ splitOver_ids hids')).trans ?_
    rw [hpairs, split_eq_assign hids']

theorem syncShares_ok {v' : Store} (hopen : b.status = .open) (hids : (v.shares.map (·.id)).Nodup)
    (hguests : (v.shares.map (·.guestId)).Nodup)
    (hrun : (syncShares ⟨b, tenders⟩).run envs n v = .ok ((), v')) :
    insertable v.shares (v.createdShares envs (n + 2)) = true ∧
      ¬ (v.dueMinor b < 0 ∨
        (0 < v.dueMinor b ∧ v.splitOver (v.createdShares envs (n + 2)) = [])) ∧
      v' = v.split b (v.createdShares envs (n + 2)) := by
  rw [syncShares_run hopen hids hguests] at hrun
  split at hrun
  · rename_i hins
    split at hrun
    · exact absurd hrun nofun
    · rename_i hchanged
      exact ⟨hins, hchanged, (congrArg Prod.snd (Except.ok.inj hrun)).symm⟩
  · exact absurd hrun nofun

end Split

/-! ### Whose lines weigh what -/

/-- What the lines of a guest that are not voided come to. -/
def Store.guestLinesMinor (v : Store) (guestId : ℕ) : ℤ :=
  ((v.liveLines.filter (·.guestId = some guestId)).map (·.totalMinor)).sum

section Weights

variable {weights : List GuestWeight}

theorem weightOf_append (guestId : ℕ) (w : GuestWeight)
    (hnone : weights.any (·.guestId = w.guestId) = false) :
    weightOf (weights ++ [w]) guestId =
      weightOf weights guestId + if w.guestId = guestId then w.lineTotal else 0 := by
  rw [weightOf, weightOf, List.find?_append]
  by_cases hguest : w.guestId = guestId
  · have hfind : weights.find? (·.guestId = guestId) = none := by
      rw [List.find?_eq_none]
      exact hguest ▸ fun x hx => by simpa using List.any_eq_false.mp hnone x hx
    simp [hfind, hguest]
  · cases weights.find? (·.guestId = guestId) <;> simp [hguest]

theorem weightOf_addWeight (guestId guest : ℕ) (guestName : Option String) (lineTotal : ℤ) :
    weightOf (addWeight weights guestId guestName lineTotal) guest =
      weightOf weights guest + if guestId = guest then lineTotal else 0 := by
  rw [addWeight]
  split
  · rename_i hany
    have hsame : ((fun w : GuestWeight => decide (w.guestId = guest)) ∘ fun w =>
        if w.guestId = guestId then { w with lineTotal := w.lineTotal + lineTotal } else w) =
          fun w => decide (w.guestId = guest) := by
      funext w
      rw [Function.comp_apply]
      split <;> rfl
    rw [weightOf, weightOf, List.find?_map, hsame]
    cases hfind : weights.find? (·.guestId = guest) with
    | none =>
        -- The guest that is looked for has no weight, and the one that gets the line has.
        have hne : ¬ guestId = guest := fun heq => by
          obtain ⟨w, hw, hguest⟩ := List.any_eq_true.mp hany
          exact List.find?_eq_none.mp hfind w hw (heq ▸ hguest)
        simp [hne]
    | some w =>
        have hguest : w.guestId = guest := by simpa using List.find?_some hfind
        by_cases heq : guestId = guest
        · simp [hguest, heq]
        · simp [hguest, heq, Ne.symm heq]
  · rename_i hany
    exact weightOf_append guest _ (Bool.eq_false_iff.mpr hany)

theorem weightOf_addLineWeight (line : OrderLine) (guest : ℕ) :
    weightOf (addLineWeight weights line) guest =
      weightOf weights guest + if line.guestId = some guest then line.totalMinor else 0 := by
  rw [addLineWeight]
  cases line.guestId with
  | none => simp
  | some guestId =>
      rw [weightOf_addWeight]
      simp only [Option.some.injEq]

theorem weightOf_foldl (lines : List OrderLine) (guest : ℕ) :
    weightOf (lines.foldl addLineWeight weights) guest =
      weightOf weights guest +
        ((lines.filter (·.guestId = some guest)).map (·.totalMinor)).sum := by
  induction lines generalizing weights with
  | nil => exact (add_zero _).symm
  | cons line lines ih =>
      rw [List.foldl_cons, ih, weightOf_addLineWeight, add_assoc, List.filter_cons]
      by_cases hguest : line.guestId = some guest <;> simp [hguest]

theorem weightOf_guestWeights (v : Store) (guest : ℕ) :
    weightOf (guestWeights v.liveLines) guest = v.guestLinesMinor guest :=
  (weightOf_foldl v.liveLines guest).trans (zero_add _)

theorem mem_addLineWeight (line : OrderLine) (guest : ℕ) :
    (∃ w ∈ addLineWeight weights line, w.guestId = guest) ↔
      (∃ w ∈ weights, w.guestId = guest) ∨ line.guestId = some guest := by
  rw [addLineWeight]
  cases line.guestId with
  | none => simp
  | some guestId =>
      rw [Option.some.injEq]
      show (∃ w ∈ addWeight weights guestId line.guestName line.totalMinor, w.guestId = guest) ↔ _
      unfold addWeight
      split
      · rename_i hany
        obtain ⟨x, hx, hxguest⟩ := List.any_eq_true.mp hany
        have hxguest : x.guestId = guestId := of_decide_eq_true hxguest
        have hkept : ∀ w : GuestWeight, (if w.guestId = guestId then
            { w with lineTotal := w.lineTotal + line.totalMinor } else w).guestId = w.guestId := by
          intro w
          split <;> rfl
        simp only [List.mem_map, exists_exists_and_eq_and, hkept]
        refine ⟨Or.inl, fun h => h.elim id ?_⟩
        rintro rfl
        exact ⟨x, hx, hxguest⟩
      · simp [List.mem_append, or_and_right, exists_or]

/-- The guests with a weight are those with a line that is not voided. -/
theorem mem_guestWeights (lines : List OrderLine) (guest : ℕ) :
    (∃ w ∈ guestWeights lines, w.guestId = guest) ↔ ∃ l ∈ lines, l.guestId = some guest := by
  suffices H : ∀ weights, (∃ w ∈ lines.foldl addLineWeight weights, w.guestId = guest) ↔
      (∃ w ∈ weights, w.guestId = guest) ∨ ∃ l ∈ lines, l.guestId = some guest by
    simpa [guestWeights] using H []
  induction lines with
  | nil => simp
  | cons line lines ih =>
      intro weights
      rw [List.foldl_cons, ih, mem_addLineWeight, or_assoc]
      simp

end Weights

/-! ### What is promised -/

/-- The split of a bill: every guest with lines has one share, the paid ones are as they were,
all of them add up to the total, and of the outstanding ones all but the last, the rows there
were in their order and then the new ones, are the part of what is due that their lines are of
all of theirs, rounded down. -/
structure FairSplit (b : Bill) (v v' : Store) (new outstanding : List BillShare) : Prop where
  rows : v'.shares.map (·.key) = (v.shares ++ new).map (·.key)
  perm : outstanding.Perm (v'.shares.filter (·.status = .outstanding))
  order : outstanding.map (·.id) = (v.splitOver new).map (·.id)
  oneEach : ∀ l ∈ v.liveLines, ∀ guestId, l.guestId = some guestId →
    ∃! s, s ∈ v'.shares ∧ s.guestId = guestId
  paid : v'.shares.filter (·.status = .paid) = v.shares.filter (·.status = .paid)
  sum : (v'.shares.map (·.amountMinor)).sum = b.totalMinor
  nonneg : ∀ s ∈ v'.shares, s.status = .outstanding → 0 ≤ s.amountMinor
  parts : ∀ s ∈ outstanding.dropLast, s.amountMinor =
    if (outstanding.map fun s => v.guestLinesMinor s.guestId).sum = 0 then 0
    else (b.totalMinor - paidMinorOf v'.shares) * v.guestLinesMinor s.guestId /
      (outstanding.map fun s => v.guestLinesMinor s.guestId).sum

section Promise

variable {b : Bill} {tenders : List Tender} {envs : ℕ → Env} {n : ℕ} {v v' : Store}
  {new : List BillShare}

theorem paid_add_outstanding (shares : List BillShare) :
    (shares.map (·.amountMinor)).sum = paidMinorOf shares + outstandingMinorOf shares := by
  induction shares with
  | nil => rfl
  | cons s shares ih =>
      rw [List.map_cons, List.sum_cons, ih]
      cases hstatus : s.status <;>
        simp [paidMinorOf, outstandingMinorOf, hstatus] <;> ring

theorem split_keys : (v.split b new).shares.map (·.key) = (v.shares ++ new).map (·.key) := by
  rw [Store.split, List.map_map]
  refine List.map_congr_left fun s _ => ?_
  simp [BillShare.key]

/-- Which rows are outstanding does not depend on their amounts. -/
theorem filter_repriced (amount : BillShare → ℤ) (status : BillShareStatus)
    (rows : List BillShare) :
    (rows.map (·.repriced amount)).filter (·.status = status) =
      (rows.filter (·.status = status)).map (·.repriced amount) := by
  rw [List.filter_map]
  refine congrArg (List.map _) (List.filter_congr fun s _ => ?_)
  rw [Function.comp_apply, BillShare.repriced_status]

/-- All but the last get their part and no more. -/
theorem amountOf_dropLast {weights : List GuestWeight} {due : ℤ} {outstanding : List BillShare}
    (hids : (outstanding.map (·.id)).Nodup) :
    ∀ s ∈ outstanding.dropLast, amountOf weights due outstanding s =
      partOf weights due outstanding s := by
  rcases List.eq_nil_or_concat outstanding with rfl | ⟨before, last, rfl⟩
  · exact fun s hs => absurd hs List.not_mem_nil
  · rw [List.concat_eq_append] at hids ⊢
    rw [List.dropLast_concat]
    exact fun s hs => amountOf_before hids hs

theorem Store.oneEach_of_shared (hshared : v.SharedBy (guestWeights v.liveLines))
    (hguests : (v.shares.map (·.guestId)).Nodup) :
    ∀ l ∈ v.liveLines, ∀ guestId, l.guestId = some guestId →
      ∃! s, s ∈ v.shares ∧ s.guestId = guestId := by
  intro l hl guestId hguest
  obtain ⟨w, hw, hwguest⟩ := (mem_guestWeights _ guestId).mpr ⟨l, hl, hguest⟩
  obtain ⟨s, hs, hsguest⟩ := hshared w hw
  refine ⟨s, ⟨hs, hsguest.trans hwguest⟩, fun s' hs' => ?_⟩
  exact eq_of_key_eq hguests hs'.1 hs (hs'.2.trans (hsguest.trans hwguest).symm)

theorem fairSplit (hopen : b.status = .open) (hlines : ∀ l ∈ v.liveLines, 0 ≤ l.totalMinor)
    (hids : (v.shares.map (·.id)).Nodup) (hguests : (v.shares.map (·.guestId)).Nodup)
    (hrun : (syncShares ⟨b, tenders⟩).run envs n v = .ok ((), v')) :
    ∃ new outstanding, FairSplit b v v' new outstanding := by
  have hcommits : (syncShares ⟨b, tenders⟩).commits (fun _ v' => Synced b v v') v :=
    wlp_syncShares hopen hlines hids hguests (Or.inl trivial) (Or.inl fun _ => trivial)
  have hsynced := Txn.commits_run hcommits hrun
  obtain ⟨hins, hchanged, rfl⟩ := syncShares_ok hopen hids hguests hrun
  set new := v.createdShares envs (n + 2) with hnew
  have hout : ∀ s ∈ new, s.status = .outstanding := newShares_outstanding
  obtain ⟨hids', hguests'⟩ := insertable_nodup hins hids hguests
  set due := v.dueMinor b with hdue
  set amount := amountOf (guestWeights v.liveLines) due (v.splitOver new) with hamount
  have hlive : (v.split b new).liveLines = v.liveLines := rfl
  refine ⟨new, (v.splitOver new).map (·.repriced amount), split_keys, ?_, ?_, ?_,
    hsynced.resplit.paid, ?_, hsynced.inStep.nonneg, ?_⟩
  · exact (splitOver_perm.map _).trans (.of_eq (filter_repriced amount .outstanding _).symm)
  · rw [List.map_map]
    exact List.map_congr_left fun s _ => s.repriced_id
  · exact Store.oneEach_of_shared hsynced.shared hsynced.resplit.guests
  · rw [paid_add_outstanding, hsynced.inStep.sum]
    exact add_sub_cancel _ _
  · have hpaid : paidMinorOf (v.split b new).shares = paidMinorOf v.shares :=
      congrArg (fun rows => (rows.map (·.amountMinor)).sum) hsynced.resplit.paid
    have hweights : (((v.splitOver new).map (·.repriced amount)).map fun s =>
        v.guestLinesMinor s.guestId) =
          (v.splitOver new).map fun s => weightOf (guestWeights v.liveLines) s.guestId := by
      rw [List.map_map]
      refine List.map_congr_left fun s _ => ?_
      rw [Function.comp_apply, BillShare.repriced_guestId, weightOf_guestWeights]
    have hW : 0 ≤ ((v.splitOver new).map fun s =>
        weightOf (guestWeights v.liveLines) s.guestId).sum :=
      List.sum_nonneg fun w hw => by
        obtain ⟨s, _, rfl⟩ := List.mem_map.mp hw
        exact weightOf_nonneg (guestWeights_nonneg hlines) _
    rw [hpaid, hweights, ← List.map_dropLast]
    intro s' hs'
    obtain ⟨s, hs, rfl⟩ := List.mem_map.mp hs'
    have hsout : s.status = .outstanding := (mem_splitOver.mp (List.dropLast_subset _ hs)).2
    rw [BillShare.repriced_guestId, s.repriced_outstanding hsout, ← weightOf_guestWeights]
    show amountOf _ _ _ s = _
    rw [amountOf_dropLast (splitOver_ids hids') s hs, partOf]
    generalize ((v.splitOver new).map fun s =>
        weightOf (guestWeights v.liveLines) s.guestId).sum = W at hW ⊢
    by_cases hzero : W = 0
    · rw [if_pos hzero, hzero, Proration.share_zero_whole]
    · rw [if_neg hzero]
      exact Proration.share_eq_ediv (hW.lt_of_ne' hzero) (not_lt.mp fun h => hchanged (.inl h))
        (weightOf_nonneg (guestWeights_nonneg hlines) _)

/-- Nothing is outstanding in the end just if everything is paid and nobody is new. -/
theorem splitOver_eq_nil :
    v.splitOver (v.createdShares envs n) = [] ↔
      (∀ s ∈ v.shares, s.status = .paid) ∧
        ∀ l ∈ v.liveLines, ∀ guestId, l.guestId = some guestId →
          ∃ s ∈ v.shares, s.guestId = guestId := by
  have hcreated : v.createdShares envs n = [] ↔ ∀ l ∈ v.liveLines, ∀ guestId,
      l.guestId = some guestId → ∃ s ∈ v.shares, s.guestId = guestId := by
    rw [Store.createdShares, newShares_eq_nil]
    simp only [(sortedShares_perm v).mem_iff]
    constructor
    · intro h l hl guestId hguest
      obtain ⟨w, hw, hwguest⟩ := (mem_guestWeights _ guestId).mpr ⟨l, hl, hguest⟩
      exact hwguest ▸ h w hw
    · intro h w hw
      obtain ⟨l, hl, hguest⟩ := (mem_guestWeights v.liveLines w.guestId).mp ⟨w, hw, rfl⟩
      exact h l hl _ hguest
  rw [← hcreated, Store.splitOver, List.filter_eq_nil_iff]
  constructor
  · intro h
    refine ⟨fun s hs => ?_, List.eq_nil_iff_forall_not_mem.mpr fun s hs => ?_⟩
    · have := h s (List.mem_append_left _ ((sortedShares_perm v).mem_iff.mpr hs))
      cases hstatus : s.status with
      | paid => rfl
      | outstanding => exact absurd (decide_eq_true hstatus) this
    · exact h s (List.mem_append_right _ hs) (decide_eq_true (newShares_outstanding s hs))
  · rintro ⟨hpaid, hnil⟩ s hs
    rw [hnil, List.append_nil, (sortedShares_perm v).mem_iff] at hs
    rw [hpaid s hs]
    exact nofun

/-- **The split of an open bill is exact.** Whatever lines its order has, of guests and of the
staff, and whatever shares it has already, paid and not: a split that commits is a fair one, and
one that draws no taken id is refused just if less than nothing is due, or something is and no
share is outstanding. -/
theorem split_exact (hopen : b.status = .open) (hlines : ∀ l ∈ v.liveLines, 0 ≤ l.totalMinor)
    (hids : (v.shares.map (·.id)).Nodup) (hguests : (v.shares.map (·.guestId)).Nodup)
    (tenders : List Tender) (envs : ℕ → Env) (n : ℕ) :
    (∀ v', (syncShares ⟨b, tenders⟩).run envs n v = .ok ((), v') →
      ∃ new outstanding, FairSplit b v v' new outstanding) ∧
    ((syncShares ⟨b, tenders⟩).run envs n v = .error billChanged ↔
      (syncShares ⟨b, tenders⟩).run envs n v ≠ .error uniqueViolation ∧
        (b.totalMinor - paidMinorOf v.shares < 0 ∨
          (0 < b.totalMinor - paidMinorOf v.shares ∧ (∀ s ∈ v.shares, s.status = .paid) ∧
            ∀ l ∈ v.liveLines, ∀ guestId, l.guestId = some guestId →
              ∃ s ∈ v.shares, s.guestId = guestId))) := by
  refine ⟨fun v' hrun => fairSplit hopen hlines hids hguests hrun, ?_⟩
  have hnil : v.splitOver (v.createdShares envs (n + 2)) = [] ↔ _ := splitOver_eq_nil
  rw [syncShares_run hopen hids hguests, ← hnil, ← Store.dueMinor]
  have hdiffer : billChanged ≠ uniqueViolation := by decide
  split
  · split
    · rename_i hchanged
      simp [hdiffer, hchanged]
    · rename_i hchanged
      simp [hchanged]
  · simp [hdiffer.symm]

end Promise

/-- The sample order with a dish of the staff's that belongs to no guest. -/
def sampleTable : Store :=
  { sampleOrder with
    lines := { id := 3, unitPriceMinor := 1001
               itemId := some 3, variantId := none, comboId := none, parentLineId := none
               quantity := 1, modifiers := [], seatNumber := none, guestId := none
               guestName := none, voidedAt := none } :: sampleOrder.lines }

/-- The same order with the bill the staff raised. -/
def sampleShared : Store := sampleTable.after [(.createBill sampleStaff "Owner", ticking 100)]

theorem sampleShared_reachable : sampleShared.Reachable :=
  ⟨sampleTable,
    { priced := ⟨by decide, by decide⟩
      bill := rfl, tenders := rfl, intents := rfl, shares := rfl, creditNotes := rfl },
    .of_after rfl fun _ _ => trivial⟩

theorem split_exact_sample :
    ∃ b v', sampleShared.bill = some b ∧
      (syncShares ⟨b, []⟩).run (ticking 200) 0 sampleShared = .ok ((), v') ∧
      ∃ new outstanding, FairSplit b sampleShared v' new outstanding :=
  have hrun : (syncShares ⟨sampleShared.bill.get rfl, []⟩).run (ticking 200) 0 sampleShared =
      .ok ((), _) := rfl
  ⟨_, _, rfl, hrun,
    (split_exact rfl (by decide) (by decide) (by decide) [] (ticking 200) 0).1 _ hrun⟩

/-! ### Splitting again -/

section Again

variable {b : Bill} {tenders : List Tender} {envs : ℕ → Env} {n : ℕ} {v v' : Store}
  {new : List BillShare}

/-- What a split leaves over for the last share. -/
def Store.restMinor (v : Store) (b : Bill) (new : List BillShare) : ℤ :=
  restOf (guestWeights v.liveLines) (v.dueMinor b) (v.splitOver new)

theorem sortedShares_split :
    (v.split b new).sortedShares = (v.withNew new).sortedShares.map
      (·.repriced (amountOf (guestWeights v.liveLines) (v.dueMinor b) (v.splitOver new))) := by
  refine (List.map_insertionSort _ _ _ _ fun s _ s' _ => ?_).symm
  simp [BillShare.before]

theorem splitOver_nil : v.splitOver [] = v.sortedShares.filter (·.status = .outstanding) := by
  rw [Store.splitOver, List.append_nil]

theorem split_splitOver :
    (v.split b new).splitOver [] = ((v.withNew new).splitOver []).map
      (·.repriced (amountOf (guestWeights v.liveLines) (v.dueMinor b) (v.splitOver new))) := by
  rw [splitOver_nil, splitOver_nil, sortedShares_split, filter_repriced]

/-- Read back, the outstanding shares are the same ones, maybe in another order. -/
theorem withNew_splitOver_perm : ((v.withNew new).splitOver []).Perm (v.splitOver new) := by
  rw [splitOver_nil]
  exact ((sortedShares_perm _).filter _).trans splitOver_perm.symm

theorem split_map_ids : (v.split b new).shares.map (·.id) = (v.shares ++ new).map (·.id) := by
  rw [Store.split, List.map_map]
  exact List.map_congr_left fun s _ => s.repriced_id

theorem split_map_guests :
    (v.split b new).shares.map (·.guestId) = (v.shares ++ new).map (·.guestId) := by
  rw [Store.split, List.map_map]
  exact List.map_congr_left fun s _ => s.repriced_guestId

theorem split_dueMinor (hnew : ∀ s ∈ new, s.status = .outstanding) :
    (v.split b new).dueMinor b = v.dueMinor b := by
  have hpaid : (v.split b new).shares.filter (·.status = .paid) =
      (v.shares ++ new).filter (·.status = .paid) := by
    rw [Store.split, filter_repriced]
    conv_rhs => rw [← List.map_id ((v.shares ++ new).filter (·.status = .paid))]
    refine List.map_congr_left fun s hs => ?_
    exact s.repriced_paid (of_decide_eq_true (List.mem_filter.mp hs).2)
  rw [Store.dueMinor, paidMinorOf, hpaid, ← paidMinorOf, paidMinorOf_append _ hnew, Store.dueMinor]

/-- The parts do not depend on the order of the shares or on their amounts. -/
theorem partOf_perm {weights : List GuestWeight} {due : ℤ} {outs outs' : List BillShare}
    (h : outs.Perm outs') : partOf weights due outs = partOf weights due outs' := by
  funext s
  rw [partOf, partOf, (h.map fun s => weightOf weights s.guestId).sum_eq]

theorem restOf_perm {weights : List GuestWeight} {due : ℤ} {outs outs' : List BillShare}
    (h : outs.Perm outs') : restOf weights due outs = restOf weights due outs' := by
  rw [restOf, restOf, partOf_perm h, (h.map _).sum_eq]

theorem partOf_repriced {weights : List GuestWeight} {due : ℤ} {amount : BillShare → ℤ}
    (outs : List BillShare) :
    partOf weights due (outs.map (·.repriced amount)) = partOf weights due outs := by
  funext s
  rw [partOf, partOf, List.map_map]
  refine congrArg (fun ws => Proration.share due _ (List.sum ws)) ?_
  exact List.map_congr_left fun s _ => congrArg _ s.repriced_guestId

theorem restOf_repriced {weights : List GuestWeight} {due : ℤ} {amount : BillShare → ℤ}
    (outs : List BillShare) :
    restOf weights due (outs.map (·.repriced amount)) = restOf weights due outs := by
  rw [restOf, restOf, partOf_repriced, List.map_map]
  refine congrArg (fun parts => due - List.sum parts) (List.map_congr_left fun s _ => ?_)
  rw [Function.comp_apply, partOf, partOf, BillShare.repriced_guestId]

/-- What the second of two splits gives a share: the rest goes to the last row. -/
theorem amountOf_again (s : BillShare) :
    amountOf (guestWeights v.liveLines) (v.dueMinor b) ((v.split b new).splitOver []) s =
      partOf (guestWeights v.liveLines) (v.dueMinor b) (v.splitOver new) s +
        if ((v.withNew new).splitOver []).getLast?.map (·.id) = some s.id then v.restMinor b new
        else 0 := by
  rw [split_splitOver, amountOf, partOf_repriced, restOf_repriced,
    partOf_perm withNew_splitOver_perm, restOf_perm withNew_splitOver_perm, List.getLast?_map,
    Store.restMinor]
  cases ((v.withNew new).splitOver []).getLast? <;> simp

theorem BillShare.repriced_again {amount amount' : BillShare → ℤ}
    (hamount : ∀ s a, amount' { s with amountMinor := a } = amount' s) (s : BillShare) :
    (s.repriced amount).repriced amount' = s.repriced amount' := by
  cases hstatus : s.status with
  | paid => rw [repriced_paid hstatus]
  | outstanding =>
      have hstatus' : (s.repriced amount).status = .outstanding := s.repriced_status.trans hstatus
      rw [repriced_outstanding hstatus', repriced_outstanding hstatus, repriced_outstanding hstatus]
      exact congrArg (fun a => { s with amountMinor := a }) (hamount s _)

/-- A second split creates nothing and is not refused. -/
theorem syncShares_again (hopen : b.status = .open)
    (hids : ((v.shares ++ new).map (·.id)).Nodup)
    (hguests : ((v.shares ++ new).map (·.guestId)).Nodup)
    (hnew : ∀ s ∈ new, s.status = .outstanding)
    (hshared : ∀ w ∈ guestWeights v.liveLines, ∃ s ∈ v.sortedShares ++ new, s.guestId = w.guestId)
    (hchanged : ¬ (v.dueMinor b < 0 ∨ (0 < v.dueMinor b ∧ v.splitOver new = []))) :
    (syncShares ⟨b, tenders⟩).run envs n (v.split b new) =
      .ok ((), (v.split b new).split b []) := by
  have hcreated : (v.split b new).createdShares envs (n + 2) = [] :=
    newShares_eq_nil.mpr fun w hw => by
      obtain ⟨s, hs, hguest⟩ := hshared w hw
      refine ⟨s.repriced _, (sortedShares_perm _).mem_iff.mpr (List.mem_map_of_mem ?_),
        s.repriced_guestId.trans hguest⟩
      exact ((sortedShares_perm v).append_right new).mem_iff.mp hs
  have hnil : (v.split b new).splitOver [] = [] ↔ v.splitOver new = [] := by
    rw [split_splitOver, List.map_eq_nil_iff, ← List.length_eq_zero_iff,
      withNew_splitOver_perm.length_eq, List.length_eq_zero_iff]
  have hunchanged : ¬ ((v.split b new).dueMinor b < 0 ∨
      (0 < (v.split b new).dueMinor b ∧ (v.split b new).splitOver [] = [])) := by
    rwa [hnil, split_dueMinor hnew]
  rw [syncShares_run hopen (split_map_ids.symm ▸ hids) (split_map_guests.symm ▸ hguests), hcreated]
  exact (if_pos rfl).trans (if_neg hunchanged)

theorem split_again_amounts (hnew : ∀ s ∈ new, s.status = .outstanding) :
    ((v.split b new).split b []).shares.map (fun s => (s.id, s.amountMinor)) =
        (v.split b new).shares.map (fun s => (s.id, s.amountMinor)) ↔
      ∀ s ∈ v.splitOver new, amountOf (guestWeights v.liveLines) (v.dueMinor b)
        ((v.split b new).splitOver []) s =
          amountOf (guestWeights v.liveLines) (v.dueMinor b) (v.splitOver new) s := by
  have hrows : ((v.split b new).split b []).shares = (v.shares ++ new).map (·.repriced
      (amountOf (guestWeights v.liveLines) (v.dueMinor b) ((v.split b new).splitOver []))) := by
    rw [← split_dueMinor hnew]
    show ((v.split b new).shares ++ []).map _ = _
    rw [List.append_nil, Store.split, List.map_map]
    exact List.map_congr_left fun s _ => s.repriced_again fun _ _ => rfl
  have hsame : ∀ (s : BillShare) (amount amount' : BillShare → ℤ), s.status = .outstanding →
      ((s.repriced amount).amountMinor = (s.repriced amount').amountMinor ↔
        amount s = amount' s) := fun s amount amount' hout => by
    rw [s.repriced_outstanding hout, s.repriced_outstanding hout]
  rw [hrows, Store.split, List.map_map, List.map_map, List.map_inj_left]
  constructor
  · intro h s hs
    obtain ⟨hmem, hout⟩ := mem_splitOver.mp hs
    exact (hsame s _ _ hout).mp (congrArg Prod.snd (h s hmem))
  · intro h s hs
    refine Prod.ext (s.repriced_id.trans s.repriced_id.symm) ?_
    cases hstatus : s.status with
    | paid =>
        show (s.repriced _).amountMinor = (s.repriced _).amountMinor
        rw [s.repriced_paid hstatus, s.repriced_paid hstatus]
    | outstanding => exact (hsame s _ _ hstatus).mpr (h s (mem_splitOver.mpr ⟨hs, hstatus⟩))

theorem rest_stays_iff :
    (∀ s ∈ v.splitOver new, amountOf (guestWeights v.liveLines) (v.dueMinor b)
      ((v.split b new).splitOver []) s =
        amountOf (guestWeights v.liveLines) (v.dueMinor b) (v.splitOver new) s) ↔
      v.restMinor b new = 0 ∨ (v.splitOver new).getLast?.map (·.id) =
        ((v.withNew new).splitOver []).getLast?.map (·.id) := by
  simp only [amountOf_again]
  show (∀ s ∈ v.splitOver new, _ = partOf _ _ _ s +
    if (v.splitOver new).getLast?.map (·.id) = some s.id then v.restMinor b new else 0) ↔ _
  simp only [add_right_inj]
  constructor
  · intro h
    by_cases hrest : v.restMinor b new = 0
    · exact .inl hrest
    · right
      cases hlast : (v.splitOver new).getLast? with
      | none =>
          have hnil : (v.splitOver new).length = 0 := by
            rw [List.getLast?_eq_none_iff.mp hlast, List.length_nil]
          have hnil' : (v.withNew new).splitOver [] = [] := by
            rw [← List.length_eq_zero_iff, withNew_splitOver_perm.length_eq, hnil]
          rw [hnil', List.getLast?_nil]
      | some last =>
          have hmoved := h last (List.mem_of_getLast? hlast)
          rw [hlast, Option.map_some, if_pos rfl, ite_eq_left_iff] at hmoved
          by_contra hne
          exact hrest (hmoved (Ne.symm hne)).symm
  · rintro (hrest | hlast) s _
    · rw [hrest, ite_self, ite_self]
    · rw [hlast]

/-- **A second split leaves the amounts of the first just where the rest goes to the same
share.** The first hands it to the share created last, the second to the last of the rows, by
when they were created and then by their ids. -/
theorem split_again_iff (hopen : b.status = .open) (hids : (v.shares.map (·.id)).Nodup)
    (hguests : (v.shares.map (·.guestId)).Nodup)
    (hrun : (syncShares ⟨b, tenders⟩).run envs n v = .ok ((), v')) (tenders' : List Tender)
    (envs' : ℕ → Env) (n' : ℕ) :
    (∃ v'', (syncShares ⟨b, tenders'⟩).run envs' n' v' = .ok ((), v'') ∧
      v''.shares.map (fun s => (s.id, s.amountMinor)) =
        v'.shares.map (fun s => (s.id, s.amountMinor))) ↔
      v.restMinor b (v.createdShares envs (n + 2)) = 0 ∨
        (v.splitOver (v.createdShares envs (n + 2))).getLast?.map (·.id) =
          ((v.withNew (v.createdShares envs (n + 2))).splitOver []).getLast?.map (·.id) := by
  obtain ⟨hins, hchanged, rfl⟩ := syncShares_ok hopen hids hguests hrun
  have hout : ∀ s ∈ v.createdShares envs (n + 2), s.status = .outstanding := newShares_outstanding
  have hshared : ∀ w ∈ guestWeights v.liveLines,
      ∃ s ∈ v.sortedShares ++ v.createdShares envs (n + 2), s.guestId = w.guestId :=
    newShares_shared
  obtain ⟨hids', hguests'⟩ := insertable_nodup hins hids hguests
  rw [syncShares_again hopen hids' hguests' hout hshared hchanged, ← rest_stays_iff,
    ← split_again_amounts hout]
  constructor
  · rintro ⟨v'', hsplit, hsame⟩
    obtain rfl := congrArg Prod.snd (Except.ok.inj hsplit)
    exact hsame
  · exact fun hsame => ⟨_, rfl, hsame⟩

end Again

theorem split_again_iff_sample :
    ∃ b v' v'', (syncShares ⟨b, []⟩).run (ticking 200) 0 sampleShared = .ok ((), v') ∧
      (syncShares ⟨b, []⟩).run (ticking 300) 0 v' = .ok ((), v'') ∧
      v''.shares.map (fun s => (s.id, s.amountMinor)) =
        v'.shares.map (fun s => (s.id, s.amountMinor)) := by
  obtain ⟨b, hbill⟩ : ∃ b, sampleShared.bill = some b := ⟨_, rfl⟩
  have hopen : b.status = .open := by
    have hstatus : sampleShared.bill.map (·.status) = some .open := rfl
    rw [hbill] at hstatus
    exact Option.some.inj hstatus
  obtain ⟨v', hrun⟩ : ∃ v', (syncShares ⟨b, []⟩).run (ticking 200) 0 sampleShared = .ok ((), v') := by
    obtain rfl : sampleShared.bill.get rfl = b := Option.some.inj hbill
    exact ⟨_, rfl⟩
  have hlast : ((sampleShared.splitOver (sampleShared.createdShares (ticking 200) 2)).getLast?.map
      (·.id)) = ((sampleShared.withNew (sampleShared.createdShares (ticking 200) 2)).splitOver
        []).getLast?.map (·.id) := rfl
  obtain ⟨v'', hagain, hsame⟩ := (split_again_iff hopen (by decide) (by decide) hrun []
    (ticking 300) 0).mpr (.inr hlast)
  exact ⟨b, v', v'', hrun, hagain, hsame⟩

/-- Two ids drawn in one millisecond, the second below the first. -/
def descending : ℕ → Env := fun n => ⟨200, 1000 - n⟩

/-- The two guests' shares are created at one time, the second with the lower id: when the bill is
read again, the penny left over is the other guest's. -/
theorem split_moves_rest :
    sampleShared.Reachable ∧ ∃ b v' v'', sampleShared.bill = some b ∧ b.status = .open ∧
      (syncShares ⟨b, []⟩).run descending 0 sampleShared = .ok ((), v') ∧
      (syncShares ⟨b, []⟩).run (ticking 300) 0 v' = .ok ((), v'') ∧
      v'.shares.map (fun s => (s.id, s.amountMinor)) = [(998, 14582), (995, 10465)] ∧
      v''.shares.map (fun s => (s.id, s.amountMinor)) = [(998, 14583), (995, 10464)] :=
  ⟨sampleShared_reachable, _, _, _, rfl, rfl, rfl, rfl, rfl, rfl⟩

end RestiqBackend
