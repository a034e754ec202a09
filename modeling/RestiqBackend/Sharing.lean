import RestiqBackend.LineEdits

/-!
What `syncShares` does to the shares of a bill.

New guests get an empty share at the end, then every outstanding share is written
the amount the split gives it. The two loops are followed one write at a time:
`Grown` says what the first leaves of the rows, `Assigned` the second, and together
they bring the shares in step with the bill (`syncShares_inStep`).
-/

namespace RestiqBackend

open ReadCommitted

/-! ### Weights -/

theorem addWeight_nonneg {weights : List GuestWeight} (h : ∀ w ∈ weights, 0 ≤ w.lineTotal)
    (guestId : ℕ) (guestName : Option String) {lineTotal : ℤ} (h0 : 0 ≤ lineTotal) :
    ∀ w ∈ addWeight weights guestId guestName lineTotal, 0 ≤ w.lineTotal := by
  intro w hw
  unfold addWeight at hw
  split at hw
  · obtain ⟨w₀, hw₀, rfl⟩ := List.mem_map.mp hw
    have := h w₀ hw₀
    split
    · exact add_nonneg this h0
    · exact this
  · rcases List.mem_append.mp hw with hw | hw
    · exact h w hw
    · rw [List.mem_singleton] at hw
      rw [hw]
      exact h0

theorem addLineWeight_nonneg {weights : List GuestWeight} (h : ∀ w ∈ weights, 0 ≤ w.lineTotal)
    {line : OrderLine} (h0 : 0 ≤ line.totalMinor) :
    ∀ w ∈ addLineWeight weights line, 0 ≤ w.lineTotal := by
  unfold addLineWeight
  cases line.guestId with
  | none => exact h
  | some guestId => exact addWeight_nonneg h _ _ h0

/-- No guest's lines add up to less than nothing. -/
theorem guestWeights_nonneg {lines : List OrderLine} (h : ∀ l ∈ lines, 0 ≤ l.totalMinor) :
    ∀ w ∈ guestWeights lines, 0 ≤ w.lineTotal := by
  suffices H : ∀ ws : List GuestWeight, (∀ w ∈ ws, 0 ≤ w.lineTotal) →
      ∀ w ∈ lines.foldl addLineWeight ws, 0 ≤ w.lineTotal from
    H [] (by simp)
  induction lines with
  | nil => exact fun ws hws => hws
  | cons l ls ih =>
      exact fun ws hws => ih (fun l' hl' => h l' (List.mem_cons_of_mem _ hl')) _
        (addLineWeight_nonneg hws (h l List.mem_cons_self))

theorem weightOf_nonneg {weights : List GuestWeight} (h : ∀ w ∈ weights, 0 ≤ w.lineTotal)
    (guestId : ℕ) : 0 ≤ weightOf weights guestId := by
  unfold weightOf
  cases hfind : weights.find? (·.guestId = guestId) with
  | none => exact le_rfl
  | some w => exact h w (List.mem_of_find?_eq_some hfind)

theorem shareAmounts_length (weights : List GuestWeight) (due : ℤ) (outstanding : List BillShare) :
    (shareAmounts weights due outstanding).length = outstanding.length := by
  simp [shareAmounts, Proration.apportion_length]

theorem shareAmounts_sum (weights : List GuestWeight) (due : ℤ) {outstanding : List BillShare}
    (h : outstanding ≠ []) : (shareAmounts weights due outstanding).sum = due := by
  rw [shareAmounts, Proration.apportion_sum _ _ _ (by simpa using h), sub_zero]

theorem shareAmounts_nonneg {weights : List GuestWeight} (h : ∀ w ∈ weights, 0 ≤ w.lineTotal)
    {due : ℤ} (hdue : 0 ≤ due) (outstanding : List BillShare) :
    ∀ a ∈ shareAmounts weights due outstanding, 0 ≤ a := by
  have hws : ∀ w ∈ outstanding.map fun s => weightOf weights s.guestId, 0 ≤ w := by
    intro w hw
    obtain ⟨s, _, rfl⟩ := List.mem_map.mp hw
    exact weightOf_nonneg h _
  refine Proration.apportion_nonneg hdue hws ?_ le_rfl
  simp

/-! ### Creating the missing shares -/

/-- New empty shares at the end, and nothing else. -/
structure Grown (v v' : Store) (new : List BillShare) : Prop where
  frame : Frame [.billShares] v v'
  shares : v'.shares = v.shares ++ new
  outstanding : ∀ s ∈ new, s.status = .outstanding
  ids : (v.shares.map (·.id)).Nodup → (v'.shares.map (·.id)).Nodup
  guests : (v.shares.map (·.guestId)).Nodup → (v'.shares.map (·.guestId)).Nodup

theorem Grown.refl (v : Store) : Grown v v [] :=
  ⟨.refl _ v, by simp, by simp, id, id⟩

theorem Grown.trans {v v' v'' : Store} {new new' : List BillShare} (h : Grown v v' new)
    (h' : Grown v' v'' new') : Grown v v'' (new ++ new') where
  frame := h.frame.trans h'.frame
  shares := by rw [h'.shares, h.shares, List.append_assoc]
  outstanding s hs := by
    rcases List.mem_append.mp hs with hs | hs
    · exact h.outstanding s hs
    · exact h'.outstanding s hs
  ids hnd := h'.ids (h.ids hnd)
  guests hnd := h'.guests (h.guests hnd)

theorem nodup_map_snoc {α : Type} {f : α → ℕ} {l : List α} {a : α} (hnd : (l.map f).Nodup)
    (ha : ∀ x ∈ l, f x ≠ f a) : ((l ++ [a]).map f).Nodup := by
  rw [List.map_append, List.map_cons, List.map_nil]
  refine List.Nodup.append hnd (List.nodup_singleton _) ?_
  intro x hx hxa
  obtain ⟨y, hy, rfl⟩ := List.mem_map.mp hx
  exact ha y hy (by simpa using hxa)

/-- One new share, whose keys were free. -/
theorem Grown.one {v : Store} {s : BillShare} (hout : s.status = .outstanding)
    (hfree : ∀ x ∈ v.shares, x.id ≠ s.id ∧ x.guestId ≠ s.guestId) :
    Grown v (v.apply (.createShare s)) [s] where
  frame := frame_apply (by simp [Write.table]) v
  shares := rfl
  outstanding := by simpa using hout
  ids hnd := nodup_map_snoc hnd fun x hx => (hfree x hx).1
  guests hnd := nodup_map_snoc hnd fun x hx => (hfree x hx).2

section Sync

variable {E : ApiError → Prop} {V : Env → Store → Prop}

/-- A drawn identifier is new among the shares, or the insert is allowed to fail. -/
def SharesFree (E : ApiError → Prop) (V : Env → Store → Prop) : Prop :=
  E uniqueViolation ∨ ∀ env v, V env v → env.uuid ∉ v.shares.map (·.id)

/-- Every guest of the weights has a share. -/
def Store.SharedBy (v : Store) (weights : List GuestWeight) : Prop :=
  ∀ w ∈ weights, ∃ s ∈ v.shares, s.guestId = w.guestId

theorem wlp_createMissingShares (hfree : SharesFree E V) (weights : List GuestWeight)
    (shares : List BillShare) {v : Store} (hshares : shares.Perm v.shares) :
    (createMissingShares weights shares).wlp E V
      (fun shares' v' => ∃ new, Grown v v' new ∧ shares' = shares ++ new ∧ v'.SharedBy weights ∧
        (v.SharedBy weights → new = [])) v := by
  induction weights generalizing shares v with
  | nil => exact ⟨[], .refl v, by simp, by simp [Store.SharedBy], fun _ => rfl⟩
  | cons weight weights ih =>
      rw [createMissingShares]
      split
      · rename_i hguest
        refine Txn.wlp_mono (ih shares hshares) ?_
        rintro shares' v' ⟨new, hgrown, hshares', hall, hnone⟩
        obtain ⟨s, hs, hguest⟩ := List.any_eq_true.mp hguest
        refine ⟨new, hgrown, hshares', fun w hw => ?_, fun hv =>
          hnone fun w hw => hv w (List.mem_cons_of_mem _ hw)⟩
        rcases List.mem_cons.mp hw with rfl | hw
        · exact ⟨s, hgrown.shares ▸ List.mem_append_left _ (hshares.mem_iff.mp hs),
            by simpa using hguest⟩
        · exact hall w hw
      · rename_i hguest
        simp only [Txn.wlp_bind, Txn.wlp_uuid, Txn.wlp_clock, wlp_insertRow]
        intro env henv env' _ _ _
        split
        · rename_i htaken
          rcases hfree with hE | hfree
          · exact hE
          · -- Neither the identifier nor the guest is taken.
            simp only [List.any_eq_true, Bool.or_eq_true, decide_eq_true_eq] at htaken
            obtain ⟨x, hx, hxid | hxguest⟩ := htaken
            · exact absurd (List.mem_map.mpr ⟨x, hx, hxid⟩) (hfree env v henv)
            · exact absurd (List.any_eq_true.mpr ⟨x, hshares.mem_iff.mpr hx, by simpa using hxguest⟩)
                hguest
        · rename_i htaken
          simp only [List.any_eq_true, Bool.or_eq_true, decide_eq_true_eq, not_exists, not_and,
            not_or] at htaken
          set share : BillShare :=
            { id := env.uuid, createdAt := env'.now, guestId := weight.guestId,
              guestName := weight.guestName, amountMinor := 0, status := .outstanding,
              payerPhone := none, tenderId := none, paidAt := none } with hshare
          have hone : Grown v (v.apply (.createShare share)) [share] := .one rfl htaken
          refine Txn.wlp_mono (ih (shares ++ [share]) (v := v.apply (.createShare share)) ?_) ?_
          · exact hshares.append_right _
          · rintro shares' v' ⟨new, hgrown, rfl, hall, _⟩
            refine ⟨[share] ++ new, hone.trans hgrown, by simp, fun w hw => ?_, fun hv => ?_⟩
            · rcases List.mem_cons.mp hw with rfl | hw
              · exact ⟨share, hgrown.shares ▸ List.mem_append_left _ (hone.shares ▸ by simp), rfl⟩
              · exact hall w hw
            · obtain ⟨s, hs, hsguest⟩ := hv weight List.mem_cons_self
              exact absurd (List.any_eq_true.mpr
                ⟨s, hshares.mem_iff.mpr hs, by simpa using hsguest⟩) hguest

end Sync

/-! ### Writing the amounts -/

/-- The pairs' shares have their amounts, and nothing else changed. -/
structure Assigned (v v' : Store) (pairs : List (BillShare × ℤ)) : Prop where
  frame : Frame [.billShares] v v'
  keys : v'.shares.map (·.key) = v.shares.map (·.key)
  paid : v'.shares.filter (·.status = .paid) = v.shares.filter (·.status = .paid)
  sum : outstandingMinorOf v'.shares =
    outstandingMinorOf v.shares + (pairs.map fun p => p.2 - p.1.amountMinor).sum
  rest : ∀ s ∈ v.shares, s.id ∉ pairs.map (·.1.id) → s ∈ v'.shares
  values : ∀ s ∈ v'.shares, (s ∈ v.shares ∧ s.id ∉ pairs.map (·.1.id)) ∨
    ∃ p ∈ pairs, s.id = p.1.id ∧ s.amountMinor = p.2

theorem Assigned.refl (v : Store) : Assigned v v [] :=
  ⟨.refl _ v, rfl, rfl, by simp, by simp, by simp⟩

theorem Assigned.trans {v v' v'' : Store} {ps ps' : List (BillShare × ℤ)}
    (h : Assigned v v' ps) (h' : Assigned v' v'' ps') : Assigned v v'' (ps ++ ps') where
  frame := h.frame.trans h'.frame
  keys := h'.keys.trans h.keys
  paid := h'.paid.trans h.paid
  sum := by
    rw [h'.sum, h.sum, List.map_append, List.sum_append, add_assoc]
  rest s hs hnot := by
    rw [List.map_append, List.mem_append, not_or] at hnot
    exact h'.rest s (h.rest s hs hnot.1) hnot.2
  values s hs := by
    rcases h'.values s hs with ⟨hs', hnot'⟩ | ⟨p, hp, heq⟩
    · rcases h.values s hs' with ⟨hs₀, hnot⟩ | ⟨p, hp, heq⟩
      · refine Or.inl ⟨hs₀, ?_⟩
        rw [List.map_append, List.mem_append, not_or]
        exact ⟨hnot, hnot'⟩
      · exact Or.inr ⟨p, List.mem_append_left _ hp, heq⟩
    · exact Or.inr ⟨p, List.mem_append_right _ hp, heq⟩

/-- Writing one outstanding share its amount. -/
theorem Assigned.one {v : Store} {s : BillShare} (hs : s ∈ v.shares)
    (hids : (v.shares.map (·.id)).Nodup) (hout : s.status = .outstanding) (a : ℤ) :
    Assigned v (v.apply (.updateShareAmount s.id a)) [(s, a)] := by
  obtain ⟨before, after, hsplit, hupdated⟩ :=
    updateRows_split (f := fun sh => { sh with amountMinor := a }) hids hs
  have hshares : (v.apply (.updateShareAmount s.id a)).shares =
      before ++ { s with amountMinor := a } :: after := hupdated
  refine ⟨frame_apply (by simp [Write.table]) v, ?_, ?_, ?_, ?_, ?_⟩
  · rw [hshares, hsplit]
    simp [BillShare.key]
  · rw [hshares, hsplit]
    simp [hout]
  · rw [hshares, hsplit]
    simp only [outstandingMinorOf, List.filter_append, List.filter_cons, hout, decide_true, if_true,
      List.map_append, List.map_cons, List.sum_append, List.sum_cons, List.map_nil, List.sum_nil]
    omega
  · intro x hx hnot
    have hne : x.id ≠ s.id := by simpa using hnot
    exact mem_updateRows.mpr (Or.inl ⟨hx, hne⟩)
  · intro x hx
    rcases mem_updateRows.mp hx with ⟨hx, hne⟩ | ⟨y, hy, hyid, rfl⟩
    · exact Or.inl ⟨hx, by simpa using hne⟩
    · exact Or.inr ⟨(s, a), by simp, hyid, rfl⟩

/-- A share that already has its amount. -/
theorem Assigned.same {v : Store} {s : BillShare} (hs : s ∈ v.shares)
    (hids : (v.shares.map (·.id)).Nodup) : Assigned v v [(s, s.amountMinor)] := by
  refine ⟨.refl _ v, rfl, rfl, by simp, fun x hx _ => hx, fun x hx => ?_⟩
  by_cases hid : x.id = s.id
  · have : x = s := eq_of_key_eq hids hx hs hid
    exact Or.inr ⟨_, List.mem_singleton_self _, hid, by rw [this]⟩
  · exact Or.inl ⟨hx, by simpa using hid⟩

section Sync

variable {E : ApiError → Prop} {V : Env → Store → Prop}

theorem wlp_setShareAmount {v : Store} {s : BillShare} (hs : s ∈ v.shares)
    (hids : (v.shares.map (·.id)).Nodup) (hout : s.status = .outstanding) (a : ℤ) :
    (setShareAmount s a).wlp E V (fun _ v' => Assigned v v' [(s, a)]) v := by
  unfold setShareAmount
  split
  · rename_i heq
    rw [heq]
    exact .same hs hids
  · simp only [Txn.wlp_bind, Txn.wlp_writeWhen]
    intro _ _
    rw [if_pos (List.any_eq_true.mpr ⟨s, hs, by simp⟩)]
    exact .one hs hids hout a

/-- The second loop: every outstanding share gets the amount it is paired with. -/
theorem wlp_assignAmounts (pairs : List (BillShare × ℤ)) {v : Store}
    (hmem : ∀ p ∈ pairs, p.1 ∈ v.shares ∧ p.1.status = .outstanding)
    (hids : (v.shares.map (·.id)).Nodup) (hnd : (pairs.map (·.1.id)).Nodup) :
    (Txn.forEach (fun p : BillShare × ℤ => setShareAmount p.1 p.2) pairs).wlp E V
      (fun _ v' => Assigned v v' pairs) v := by
  induction pairs generalizing v with
  | nil => exact .refl v
  | cons p ps ih =>
      rw [Txn.forEach_cons, Txn.wlp_bind]
      obtain ⟨hp, hout⟩ := hmem p List.mem_cons_self
      refine Txn.wlp_mono (wlp_setShareAmount hp hids hout p.2) fun _ v₁ hone => ?_
      rw [List.map_cons, List.nodup_cons] at hnd
      have hids₁ : (v₁.shares.map (·.id)).Nodup := by
        have := congrArg (List.map Prod.fst) hone.keys
        simp only [List.map_map] at this
        exact this ▸ hids
      refine Txn.wlp_mono (ih (fun q hq => ?_) hids₁ hnd.2) fun _ v₂ hrest => hone.trans hrest
      obtain ⟨hq₁, hq₂⟩ := hmem q (List.mem_cons_of_mem _ hq)
      refine ⟨hone.rest q.1 hq₁ ?_, hq₂⟩
      intro hmem
      have hqp : q.1.id = p.1.id := by simpa using hmem
      exact hnd.1 (hqp ▸ List.mem_map_of_mem hq)

end Sync

/-! ### The whole of it -/

/-- The shares of a bill, and nothing else, were brought in step with its total. -/
structure Synced (b : Bill) (v v' : Store) : Prop where
  frame : Frame [.billShares] v v'
  inStep : InStep b v'.shares
  resplit : Resplit v.shares v'.shares
  shared : v'.SharedBy (guestWeights v.liveLines)
  keys : v.SharedBy (guestWeights v.liveLines) → v'.shares.map (·.key) = v.shares.map (·.key)

theorem sortedShares_perm (v : Store) : v.sortedShares.Perm v.shares :=
  List.perm_insertionSort _ v.shares

theorem paidMinorOf_perm {shares shares' : List BillShare} (h : shares.Perm shares') :
    paidMinorOf shares = paidMinorOf shares' :=
  ((h.filter _).map _).sum_eq

/-- What a split adds to the outstanding amounts. -/
theorem zip_sum_sub {shares : List BillShare} {amounts : List ℤ}
    (h : amounts.length = shares.length) :
    ((shares.zip amounts).map fun p => p.2 - p.1.amountMinor).sum =
      amounts.sum - (shares.map (·.amountMinor)).sum := by
  induction shares generalizing amounts with
  | nil => simp [List.eq_nil_of_length_eq_zero h]
  | cons s shares ih =>
      obtain ⟨a, amounts, rfl⟩ := List.exists_cons_of_length_eq_add_one h
      simp only [List.zip_cons_cons, List.map_cons, List.sum_cons,
        ih (Nat.succ.inj h)]
      omega

/-- Every share the first loop leaves, each new one at the end. -/
theorem Grown.paid {v v' : Store} {new : List BillShare} (h : Grown v v' new) :
    v'.shares.filter (·.status = .paid) = v.shares.filter (·.status = .paid) := by
  have hnew : new.filter (·.status = .paid) = [] := by
    simp only [List.filter_eq_nil_iff, decide_eq_true_eq]
    intro s hs
    simp [h.outstanding s hs]
  rw [h.shares, List.filter_append, hnew, List.append_nil]

/-- The pairs that the second loop writes put the shares in step with the bill. -/
theorem Assigned.synced {b : Bill} {v v₁ v' : Store} {new outstanding : List BillShare}
    {amounts : List ℤ} (hgrown : Grown v v₁ new) (hassigned : Assigned v₁ v' (outstanding.zip amounts))
    (hids : (v.shares.map (·.id)).Nodup) (hguests : (v.shares.map (·.guestId)).Nodup)
    (hperm : outstanding.Perm (v₁.shares.filter (·.status = .outstanding)))
    (hlength : amounts.length = outstanding.length) (hnonneg : ∀ a ∈ amounts, 0 ≤ a)
    (hsum : amounts.sum = b.totalMinor - paidMinorOf v.shares)
    (hshared : v₁.SharedBy (guestWeights v.liveLines))
    (hnone : v.SharedBy (guestWeights v.liveLines) → new = []) : Synced b v v' where
  frame := hgrown.frame.trans hassigned.frame
  inStep := by
    have hpaid : paidMinorOf v'.shares = paidMinorOf v.shares := by
      rw [paidMinorOf, hassigned.paid, hgrown.paid, paidMinorOf]
    have hbefore : outstandingMinorOf v₁.shares = (outstanding.map (·.amountMinor)).sum :=
      ((hperm.map _).sum_eq).symm
    refine ⟨?_, fun s hs hout => ?_⟩
    · rw [hassigned.sum, hbefore, zip_sum_sub hlength, hsum, hpaid]
      omega
    · rcases hassigned.values s hs with ⟨hs₁, hnot⟩ | ⟨p, hp, _, hamount⟩
      · -- An outstanding share is always among the pairs.
        have hmem : s ∈ outstanding := hperm.mem_iff.mpr (List.mem_filter.mpr ⟨hs₁, by simpa using hout⟩)
        refine absurd ?_ hnot
        rw [← List.map_fst_zip hlength.ge] at hmem
        obtain ⟨p, hp, rfl⟩ := List.mem_map.mp hmem
        exact List.mem_map_of_mem hp
      · rw [hamount]
        exact hnonneg _ (List.of_mem_zip hp).2
  shared w hw := by
    obtain ⟨s, hs, hguest⟩ := hshared w hw
    have hmem : s.key ∈ v'.shares.map (·.key) := hassigned.keys ▸ List.mem_map_of_mem hs
    obtain ⟨s', hs', hkey⟩ := List.mem_map.mp hmem
    exact ⟨s', hs', (congrArg (·.2.1) hkey).trans hguest⟩
  keys hv := by
    rw [hassigned.keys, hgrown.shares, hnone hv, List.append_nil]
  resplit := by
    have hkeys : ∀ {α : Type} (f : ℕ × ℕ × BillShareStatus → α),
        v'.shares.map (fun s => f s.key) = v₁.shares.map (fun s => f s.key) := by
      intro α f
      simpa only [List.map_map, Function.comp_def] using congrArg (List.map f) hassigned.keys
    refine ⟨hassigned.paid.trans hgrown.paid, ?_, ?_, ?_⟩
    · rw [hassigned.keys, hgrown.shares, List.map_append]
      exact List.prefix_append _ _
    · exact (hkeys (·.1)).symm ▸ hgrown.ids hids
    · exact (hkeys (·.2.1)).symm ▸ hgrown.guests hguests

section Sync

variable {E : ApiError → Prop} {V : Env → Store → Prop}

/-- **The split.** Where it answers, `syncShares` leaves the shares of an open bill in
step with its total; it can only refuse where a paid bill got smaller, or where all
that is owed was paid and more is owed now. -/
theorem wlp_syncShares {v : Store} {b : Bill} {tenders : List Tender} (hopen : b.status = .open)
    (hlines : ∀ l ∈ v.liveLines, 0 ≤ l.totalMinor) (hids : (v.shares.map (·.id)).Nodup)
    (hguests : (v.shares.map (·.guestId)).Nodup) (hfree : SharesFree E V)
    (hE : (∀ e, E e) ∨ (0 ≤ b.totalMinor - paidMinorOf v.shares ∧
      (0 < b.totalMinor - paidMinorOf v.shares → ∃ s ∈ v.shares, s.status = .outstanding))) :
    (syncShares ⟨b, tenders⟩).wlp E V (fun _ v' => Synced b v v') v := by
  unfold syncShares
  rw [if_neg (not_not.mpr hopen)]
  simp only [Txn.wlp_bind, Txn.wlp_query, wlp_raiseIf]
  intro _ _ _ _
  refine Txn.wlp_mono (wlp_createMissingShares hfree _ _ (sortedShares_perm v)) ?_
  rintro shares v₁ ⟨new, hgrown, rfl, hshared, hnone⟩
  have hperm : (v.sortedShares ++ new).Perm v₁.shares := by
    rw [hgrown.shares]
    exact (sortedShares_perm v).append_right new
  have hpaid : paidMinorOf (v.sortedShares ++ new) = paidMinorOf v.shares := by
    rw [paidMinorOf_perm hperm, paidMinorOf, hgrown.paid, paidMinorOf]
  rw [hpaid]
  by_cases hbad : b.totalMinor - paidMinorOf v.shares < 0 ∨
      (0 < b.totalMinor - paidMinorOf v.shares ∧
        (v.sortedShares ++ new).filter (·.status = .outstanding) = [])
  · rw [if_pos hbad]
    rcases hE with hE | ⟨hdue, hsome⟩
    · exact hE _
    · rcases hbad with hneg | ⟨hpos, hnil⟩
      · exact absurd hdue (not_le.mpr hneg)
      · obtain ⟨s, hs, hout⟩ := hsome hpos
        have hmem : s ∈ v.sortedShares ++ new :=
          List.mem_append_left _ ((sortedShares_perm v).mem_iff.mpr hs)
        simpa [hout] using List.filter_eq_nil_iff.mp hnil s hmem
  · rw [if_neg hbad]
    rw [not_or, not_and, not_lt] at hbad
    set outstanding := (v.sortedShares ++ new).filter (·.status = .outstanding) with houtstanding
    have houts : outstanding.Perm (v₁.shares.filter (·.status = .outstanding)) := hperm.filter _
    have hlength := shareAmounts_length (guestWeights v.liveLines)
      (b.totalMinor - paidMinorOf v.shares) outstanding
    have hzip : ((outstanding.zip (shareAmounts (guestWeights v.liveLines)
        (b.totalMinor - paidMinorOf v.shares) outstanding)).map (·.1)) = outstanding :=
      List.map_fst_zip hlength.ge
    have hids₁ := hgrown.ids hids
    refine Txn.wlp_mono (wlp_assignAmounts _ (fun p hp => ?_) hids₁ ?_) fun _ v' hassigned => ?_
    · have := List.mem_filter.mp (houts.mem_iff.mp (hzip ▸ List.mem_map_of_mem hp))
      exact ⟨this.1, by simpa using this.2⟩
    · have : ((v₁.shares.filter (·.status = .outstanding)).map (·.id)).Nodup :=
        hids₁.sublist (List.filter_sublist.map _)
      have hmap := (houts.map (·.id)).nodup_iff.mpr this
      rwa [← hzip, List.map_map] at hmap
    · refine hassigned.synced hgrown hids hguests houts hlength ?_ ?_ hshared hnone
      · exact shareAmounts_nonneg (guestWeights_nonneg hlines) hbad.1 _
      · by_cases hnil : outstanding = []
        · have hzero : b.totalMinor - paidMinorOf v.shares = 0 :=
            le_antisymm (not_lt.mp fun hpos => hbad.2 hpos hnil) hbad.1
          rw [hnil, hzero]
          rfl
        · exact shareAmounts_sum _ _ hnil

end Sync

/-- Bringing the shares in step is one entry. -/
theorem Synced.posts {P : Entry → Prop} (hplain : P .plain) {b : Bill} {v v' : Store}
    (h : Synced b v v') (hpriced : v.Priced) (hb : v.bill = some b) (hopen : b.status = .open) :
    Posts P v v' := by
  obtain ⟨hledger, hlines⟩ := h.frame.ledger_rows (by decide)
  rw [show v'.bill = v.bill from h.frame .bills (by decide),
    show v'.tenders = v.tenders from h.frame .tenders (by decide),
    show v'.intents = v.intents from h.frame .paymentIntents (by decide)] at hledger
  refine .of_move hpriced hlines (e := .plain) ?_ hplain
  rw [hledger]
  exact .sync v.ledger b _ hb hopen h.inStep h.resplit

end RestiqBackend
