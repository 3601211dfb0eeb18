import BullsUnicorns.Engine.Convert

/-!
# What the house pays out of its pool

An exact amount is taken whole, unless the wallets, or the first of them, hold just short of it.
-/

namespace BullsUnicorns.Engine

variable {pool : List String} {l : Ledger} {f : Field} {ids : List String} {amount : ℚ} {id : String}

/-- What the wallets hold of a field. -/
def held (l : Ledger) (f : Field) (ids : List String) : ℚ := (ids.map (l.bal · f)).sum

/-- The first wallets never hold just short of an amount, nor do all of them. -/
def Whole (l : Ledger) (f : Field) (ids : List String) (amount : ℚ) : Prop :=
  (∀ n < ids.length, amount - held l f (ids.take n) ≤ 1 / 10 ^ 12 → amount ≤ held l f (ids.take n)) ∧
    (amount - held l f ids ≤ 1 / 10 ^ 9 → amount ≤ held l f ids)

theorem held_nil : held l f [] = 0 := rfl

theorem held_cons : held l f (id :: ids) = l.bal id f + held l f ids := by
  rw [held, List.map_cons, List.sum_cons]
  rfl

theorem held_nonneg (hl : ∀ id ∈ ids, 0 ≤ l.bal id f) : 0 ≤ held l f ids := by
  induction ids with
  | nil => exact le_refl 0
  | cons id ids ih =>
      obtain ⟨hid, hl⟩ := List.forall_mem_cons.mp hl
      rw [held_cons]
      exact add_nonneg hid (ih hl)

theorem held_congr {l' : Ledger} (h : ∀ id ∈ ids, l'.bal id f = l.bal id f) : held l' f ids = held l f ids := by
  rw [held, List.map_congr_left h]
  rfl

theorem whole_congr {l' : Ledger} (h : ∀ id ∈ ids, l'.bal id f = l.bal id f) :
    Whole l' f ids amount ↔ Whole l f ids amount := by
  have hsome (n : ℕ) : held l' f (ids.take n) = held l f (ids.take n) :=
    held_congr fun id hid => h id (List.mem_of_mem_take hid)
  simp only [Whole, hsome, held_congr h]

theorem whole_cons : Whole l f (id :: ids) amount ↔
    (amount ≤ 1 / 10 ^ 12 → amount ≤ 0) ∧ Whole l f ids (amount - l.bal id f) := by
  have hshift (x : ℚ) : amount - (l.bal id f + x) = amount - l.bal id f - x := by ring
  have hle (x : ℚ) : amount ≤ l.bal id f + x ↔ amount - l.bal id f ≤ x := by
    constructor <;> intro h <;> linarith
  constructor
  case mp =>
      rintro ⟨hfirst, hall⟩
      refine ⟨?_, ?_, ?_⟩
      · have hzero := hfirst 0 (Nat.succ_pos _)
        rwa [List.take_zero, held_nil, sub_zero] at hzero
      · intro n hn
        have hnext := hfirst (n + 1) (Nat.succ_lt_succ hn)
        rwa [List.take_succ_cons, held_cons, hshift, hle] at hnext
      · rwa [held_cons, hshift, hle] at hall
  case mpr =>
      rintro ⟨hzero, hfirst, hall⟩
      refine ⟨?_, ?_⟩
      · intro n hn
        cases n with
        | zero => rwa [List.take_zero, held_nil, sub_zero]
        | succ n =>
            rw [List.take_succ_cons, held_cons, hshift, hle]
            exact hfirst n (Nat.lt_of_succ_lt_succ hn)
      · rw [held_cons, hshift, hle]
        exact hall

/-- Nothing to take is whole. -/
theorem whole_of_nonpos (hl : ∀ id ∈ ids, 0 ≤ l.bal id f) (h : amount ≤ 0) : Whole l f ids amount :=
  ⟨fun _ _ _ => h.trans (held_nonneg fun id hid => hl id (List.mem_of_mem_take hid)), fun _ => h.trans (held_nonneg hl)⟩

/-- What is left over when the pool can answer: at most the tolerance, and nothing exactly if no wallets hold
just short of it. -/
theorem takeInOrder_left (hl : ∀ id ∈ ids, 0 ≤ l.bal id f) (hids : ids.Nodup)
    (hacc : ∀ id ∈ ids, (l.get id).isSome) {left : ℚ} (h0 : 0 ≤ left) (hcheck : left ≤ held l f ids + 1 / 10 ^ 9) :
    (takeInOrder f ids left l).2 ≤ 1 / 10 ^ 9 ∧ ((takeInOrder f ids left l).2 = 0 ↔ Whole l f ids left) := by
  induction ids generalizing l left with
  | nil =>
      rw [held_nil, zero_add] at hcheck
      refine ⟨hcheck, ?_⟩
      have hnone : Whole l f [] left ↔ left ≤ 0 := by
        simp only [Whole, held_nil, sub_zero, List.length_nil]
        exact ⟨fun h => h.2 hcheck, fun h => ⟨fun n hn => absurd hn (Nat.not_lt_zero n), fun _ => h⟩⟩
      rw [hnone]
      exact ⟨fun h => (show left = 0 from h).le, fun h => le_antisymm h h0⟩
  | cons id ids ih =>
      obtain ⟨hnot, hids⟩ := List.nodup_cons.mp hids
      obtain ⟨hid, hacc⟩ := List.forall_mem_cons.mp hacc
      obtain ⟨hfirst, hl⟩ := List.forall_mem_cons.mp hl
      rw [held_cons] at hcheck
      rw [takeInOrder, whole_cons]
      split
      · next hsmall =>
          refine ⟨hsmall.trans (by norm_num), ?_, ?_⟩
          · intro hzero
            have hzero : left = 0 := hzero
            exact ⟨fun _ => hzero.le, whole_of_nonpos hl (by linarith)⟩
          · exact fun h => le_antisymm (h.1 hsmall) h0
      next hbig =>
      have hpos : 0 < left := lt_trans (by norm_num) (not_le.mp hbig)
      extract_lets take
      have hvac : (left ≤ 1 / 10 ^ 12 → left ≤ 0) ↔ True := iff_true_intro fun h => absurd h hbig
      rw [hvac, true_and]
      split
      · next hnothing =>
          have hzero : l.bal id f = 0 := by
            rcases min_le_iff.mp hnothing with h | h
            · exact le_antisymm h hfirst
            · exact absurd hpos (not_lt.mpr h)
          rw [hzero, sub_zero]
          rw [hzero, zero_add] at hcheck
          exact ih hl hids hacc h0 hcheck
      · have hle : take ≤ left := min_le_right _ _
        have hbal : take ≤ l.bal id f := min_le_left _ _
        have hsome : (l.get id).isSome := hid
        have hothers : ∀ k ∈ ids, (l.add id f (-take)).bal k f = l.bal k f := by
          intro k hk
          rw [Ledger.bal_add hsome, if_neg (fun h : k = id ∧ f = f => hnot (h.1 ▸ hk)), add_zero]
        have hl' : ∀ k ∈ ids, 0 ≤ (l.add id f (-take)).bal k f := fun k hk => (hothers k hk).symm ▸ hl k hk
        have hacc' : ∀ k ∈ ids, ((l.add id f (-take)).get k).isSome :=
          fun k hk => (Ledger.Same.add.isSome k).trans (hacc k hk)
        have hcheck' : left - take ≤ held (l.add id f (-take)) f ids + 1 / 10 ^ 9 := by
          rw [held_congr hothers]
          rcases min_choice (l.bal id f) left with h | h
          · have htake : take = l.bal id f := h
            linarith
          · have htake : take = left := h
            have hnonneg := held_nonneg hl
            rw [htake, sub_self]
            positivity
        obtain ⟨h1, h2⟩ := ih hl' hids hacc' (sub_nonneg.mpr hle) hcheck'
        refine ⟨h1, h2.trans ((whole_congr hothers).trans ?_)⟩
        rcases min_choice (l.bal id f) left with h | h
        · have htake : take = l.bal id f := h
          rw [htake]
        · have htake : take = left := h
          rw [htake, sub_self]
          exact iff_of_true (whole_of_nonpos hl (le_refl 0)) (whole_of_nonpos hl (sub_nonpos.mpr (htake ▸ hbal)))

/-- What is taken goes from the pool. -/
theorem takeInOrder_shift (f : Field) (hids : ∀ id ∈ ids, id ∈ pool ∧ (l.get id).isSome) (left : ℚ) (h0 : 0 ≤ left) :
    Shift pool f (-(left - (takeInOrder f ids left l).2)) l (takeInOrder f ids left l).1 ∧
      0 ≤ (takeInOrder f ids left l).2 := by
  induction ids generalizing l left with
  | nil =>
      rw [takeInOrder]
      exact ⟨by simpa using Shift.refl pool f l, h0⟩
  | cons id ids ih =>
      obtain ⟨hid, hrest⟩ := List.forall_mem_cons.mp hids
      rw [takeInOrder]
      split
      · exact ⟨by simpa using Shift.refl pool f l, h0⟩
      extract_lets take
      split
      · exact ih hrest left h0
      · have hle : take ≤ left := min_le_right _ _
        have hbal : take ≤ l.bal id f := min_le_left _ _
        have hstep : Shift pool f (-take) l (l.add id f (-take)) :=
          Shift.add hid.1 hid.2 fun _ => by linarith
        have hrest' : ∀ k ∈ ids, k ∈ pool ∧ ((l.add id f (-take)).get k).isSome := by
          intro k hk
          exact ⟨(hrest k hk).1, (hstep.same.isSome k).trans (hrest k hk).2⟩
        obtain ⟨h1, h2⟩ := ih hrest' (left - take) (sub_nonneg.mpr hle)
        refine ⟨?_, h2⟩
        have h3 := hstep.trans h1
        have hsum : -take + -(left - take - (takeInOrder f ids (left - take) (l.add id f (-take))).2) =
            -(left - (takeInOrder f ids (left - take) (l.add id f (-take))).2) := by ring
        rwa [hsum] at h3

/-- An amount that cannot be had is not taken at all. -/
theorem takeExact_refused (hl : ∀ id ∈ pool, 0 ≤ l.bal id f) (hpool : pool.Nodup)
    (h : (takeExact pool l f amount).2 = false) : takeExact pool l f amount = (l, false) := by
  unfold takeExact at h ⊢
  split
  · rfl
  next hpos =>
  split
  · rfl
  next hcheck =>
  rw [if_neg hpos, if_neg hcheck] at h
  have hwallets : ∀ id ∈ poolAccounts pool l, 0 ≤ l.bal id f := fun id hid => hl id (mem_poolAccounts.mp hid).1
  have hleft := (takeInOrder_left hwallets (hpool.filter _) (fun id hid => (mem_poolAccounts.mp hid).2) (not_le.mp hpos).le
    (f := f) (not_lt.mp hcheck)).1
  exact absurd hleft (of_decide_eq_false h)

theorem takeExact_given (h : (takeExact pool l f amount).2 = true) :
    0 < amount ∧ amount ≤ poolBalance pool l f + 1 / 10 ^ 9 ∧
      (takeExact pool l f amount).1 = (takeInOrder f (poolAccounts pool l) amount l).1 := by
  unfold takeExact at h ⊢
  split
  · next hpos =>
      rw [if_pos hpos] at h
      cases h
  next hpos =>
  split
  · next hcheck =>
      rw [if_neg hpos, if_pos hcheck] at h
      cases h
  next hcheck => exact ⟨not_le.mp hpos, not_lt.mp hcheck, rfl⟩

end BullsUnicorns.Engine
