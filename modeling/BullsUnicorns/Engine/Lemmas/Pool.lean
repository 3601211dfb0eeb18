import BullsUnicorns.Engine.Convert
import BullsUnicorns.Engine.Lemmas.Otc
import BullsUnicorns.Lib.OrderedMap

/-!
# What the pool holds

The total of the pool wallets follows every shift of the pool, a draw gets all that it aims at, and no wallet
that held no debt comes into one.
-/

namespace BullsUnicorns.Engine

variable {pool ids : List String} {l l' : Ledger} {f g : Field} {x : ℚ}

/-! ## The total -/

theorem poolBalance_all (pool : List String) (l : Ledger) (f : Field) :
    poolBalance pool l f = (pool.map (l.bal · f)).sum := by
  unfold poolBalance poolAccounts
  induction pool with
  | nil => rfl
  | cons id pool ih =>
      rw [List.filter_cons, List.map_cons, List.sum_cons, ← ih]
      cases hget : l.get id with
      | none => simp [Ledger.bal_of_none hget]
      | some a => simp

/-- The pool is the part of the ledger that its wallets are. -/
theorem poolBalance_total (hpool : pool.Nodup) (l : Ledger) (f : Field) :
    poolBalance pool l f = total (fun id _ => pool.contains id) l f := by
  rw [poolBalance_all, total]
  simp only [List.contains_iff_mem]
  exact (OrderedMap.sum_keys l hpool (·.bal f)).symm

theorem poolBalance_shift (hpool : pool.Nodup) (h : Shift pool f x l l') (g : Field) :
    poolBalance pool l' g = poolBalance pool l g + if g = f then x else 0 := by
  rw [poolBalance_total hpool, poolBalance_total hpool]
  exact h.total _ (fun id hid _ => List.contains_iff_mem.mpr hid) g

theorem poolBalance_nonneg (hl : ∀ id ∈ pool, 0 ≤ l.bal id f) : 0 ≤ poolBalance pool l f :=
  held_nonneg fun id hid => hl id (mem_poolAccounts.mp hid).1

/-! ## No wallet comes into debt -/

/-- A balance that is not negative stays so. -/
def Solvent (l l' : Ledger) : Prop := ∀ id g, 0 ≤ l.bal id g → 0 ≤ l'.bal id g

theorem Solvent.refl (l : Ledger) : Solvent l l := fun _ _ h => h

theorem Solvent.trans {l'' : Ledger} (h : Solvent l l') (h' : Solvent l' l'') : Solvent l l'' :=
  fun id g h0 => h' id g (h id g h0)

theorem Solvent.add {id : String} (hget : (l.get id).isSome) (h0 : 0 ≤ l.bal id f → 0 ≤ l.bal id f + x) :
    Solvent l (l.add id f x) := by
  intro k g hk
  rw [Ledger.bal_add hget]
  split
  · next h =>
      obtain ⟨rfl, rfl⟩ := h
      exact h0 hk
  · rwa [add_zero]

theorem takeFromPool_solvent (hids : ∀ id ∈ ids, (l.get id).isSome) (left : ℚ) :
    Solvent l (takeFromPool f ids left l).1 := by
  induction ids generalizing l left with
  | nil => exact .refl l
  | cons id ids ih =>
      obtain ⟨hid, hids⟩ := List.forall_mem_cons.mp hids
      rw [takeFromPool]
      split
      · exact .refl l
      extract_lets take
      split
      · exact ih hids left
      · have hle : take ≤ l.bal id f := min_le_left _ _
        refine (Solvent.add hid fun _ => by linarith).trans (ih ?_ _)
        exact fun k hk => (Ledger.Same.add.isSome k).trans (hids k hk)

theorem takeInOrder_solvent (hids : ∀ id ∈ ids, (l.get id).isSome) (left : ℚ) :
    Solvent l (takeInOrder f ids left l).1 := by
  induction ids generalizing l left with
  | nil => exact .refl l
  | cons id ids ih =>
      obtain ⟨hid, hids⟩ := List.forall_mem_cons.mp hids
      rw [takeInOrder]
      split
      · exact .refl l
      extract_lets take
      split
      · exact ih hids left
      · have hle : take ≤ l.bal id f := min_le_left _ _
        refine (Solvent.add hid fun _ => by linarith).trans (ih ?_ _)
        exact fun k hk => (Ledger.Same.add.isSome k).trans (hids k hk)

/-! ## What a call moves -/

/-- What the loop of a draw leaves over: nothing where the wallets hold enough. -/
theorem takeFromPool_left (hids : ids.Nodup) (hacc : ∀ id ∈ ids, (l.get id).isSome)
    (hl : ∀ id ∈ ids, 0 ≤ l.bal id f) {left : ℚ} (h0 : 0 ≤ left) (henough : left ≤ held l f ids) :
    (takeFromPool f ids left l).2 = 0 := by
  induction ids generalizing l left with
  | nil => exact le_antisymm henough h0
  | cons id ids ih =>
      obtain ⟨hnot, hids⟩ := List.nodup_cons.mp hids
      obtain ⟨hid, hacc⟩ := List.forall_mem_cons.mp hacc
      obtain ⟨hfirst, hl⟩ := List.forall_mem_cons.mp hl
      rw [held_cons] at henough
      rw [takeFromPool]
      split
      · next hdone => exact le_antisymm hdone h0
      next hmore =>
      extract_lets take
      split
      · next hnothing =>
          have hzero : l.bal id f = 0 := by
            rcases min_le_iff.mp hnothing with h | h
            · exact le_antisymm h hfirst
            · exact absurd h hmore
          exact ih hids hacc hl h0 (by linarith)
      · have hothers : ∀ k ∈ ids, (l.add id f (-take)).bal k f = l.bal k f := by
          intro k hk
          rw [Ledger.bal_add hid, if_neg (fun h : k = id ∧ f = f => hnot (h.1 ▸ hk)), add_zero]
        refine ih hids (fun k hk => (Ledger.Same.add.isSome k).trans (hacc k hk)) ?_ ?_ ?_
        · exact fun k hk => (hothers k hk).symm ▸ hl k hk
        · exact sub_nonneg.mpr (min_le_right _ _)
        · rw [held_congr hothers]
          rcases min_choice (l.bal id f) left with h | h
          · have htake : take = l.bal id f := h
            linarith
          · have htake : take = left := h
            rw [htake, sub_self]
            exact held_nonneg hl

/-- A draw gets what it asks for, or its share where that is less. -/
theorem drawBank_granted (hpool : pool.Nodup) (hl : ∀ id ∈ pool, 0 ≤ l.bal id f) (want spread : ℚ) :
    (drawBank pool l f want spread).2 = max 0 (min want (poolBalance pool l f / max 1 spread)) := by
  unfold drawBank
  split
  · next hwant => exact (max_eq_left ((min_le_left _ _).trans hwant)).symm
  extract_lets share target
  split
  · next htarget => exact (max_eq_left htarget).symm
  next htarget =>
  have hpos : 0 < target := not_le.mp htarget
  have hfair : share ≤ poolBalance pool l f := div_le_self (poolBalance_nonneg hl) (le_max_left 1 spread)
  have hwallets : ∀ id ∈ poolAccounts pool l, 0 ≤ l.bal id f := fun id hid => hl id (mem_poolAccounts.mp hid).1
  have hleft : (takeFromPool f (poolAccounts pool l) target l).2 = 0 :=
    takeFromPool_left (hpool.filter _) (fun id hid => (mem_poolAccounts.mp hid).2) hwallets hpos.le
      ((min_le_right want share).trans hfair)
  rcases htaken : takeFromPool f (poolAccounts pool l) target l with ⟨l', left⟩
  rw [htaken] at hleft
  dsimp only at hleft ⊢
  rw [hleft, sub_zero]
  exact (max_eq_right hpos.le).symm

theorem drawBank_solvent (pool : List String) (l : Ledger) (f : Field) (want spread : ℚ) :
    Solvent l (drawBank pool l f want spread).1 := by
  unfold drawBank
  split
  · exact .refl l
  extract_lets share target
  split
  · exact .refl l
  · exact takeFromPool_solvent (fun id hid => (mem_poolAccounts.mp hid).2) target

theorem takeExact_solvent (pool : List String) (l : Ledger) (f : Field) (amount : ℚ) :
    Solvent l (takeExact pool l f amount).1 := by
  unfold takeExact
  split
  · exact .refl l
  split
  · exact .refl l
  · exact takeInOrder_solvent (fun id hid => (mem_poolAccounts.mp hid).2) amount

theorem returnBank_solvent (pool : List String) (l : Ledger) (f : Field) (amount : ℚ) :
    Solvent l (returnBank pool l f amount) := by
  unfold returnBank
  split
  · exact .refl l
  next hpos =>
  split
  · exact .refl l
  · next target htarget =>
      have hget := (mem_poolAccounts.mp (poorest_mem htarget)).2
      exact .add hget fun h0 => add_nonneg h0 (not_le.mp hpos).le

/-- An amount that is given is taken but for the tolerance, and what is refused not at all. -/
theorem takeExact_shift (hpool : pool.Nodup) (hl : ∀ id ∈ pool, 0 ≤ l.bal id f) (amount : ℚ) :
    ∃ taken, Shift pool f (-taken) l (takeExact pool l f amount).1 ∧
      if (takeExact pool l f amount).2 then amount - 1 / 10 ^ 9 ≤ taken ∧ taken ≤ amount
      else taken = 0 ∧ (takeExact pool l f amount).1 = l := by
  cases hgiven : (takeExact pool l f amount).2 with
  | false =>
      rw [takeExact_refused hl hpool hgiven]
      exact ⟨0, by simpa using Shift.refl pool f l, by simp⟩
  | true =>
      obtain ⟨hpos, hhad, htaken⟩ := takeExact_given hgiven
      have hids : ∀ id ∈ poolAccounts pool l, id ∈ pool ∧ (l.get id).isSome := fun id hid => mem_poolAccounts.mp hid
      obtain ⟨hshift, h0⟩ := takeInOrder_shift f hids amount hpos.le
      have hleft := (takeInOrder_left (fun id hid => hl id (hids id hid).1) (hpool.filter _)
        (fun id hid => (hids id hid).2) hpos.le hhad).1
      rw [htaken]
      refine ⟨_, hshift, ?_⟩
      rw [if_pos rfl]
      exact ⟨by linarith, by linarith⟩

/-- What is returned arrives where somebody is there to get it. -/
theorem returnBank_shift_max (pool : List String) (l : Ledger) (f : Field) (amount : ℚ) :
    ∃ x, Shift pool f x l (returnBank pool l f amount) ∧ (PoolReady pool l → x = max 0 amount) := by
  rcases le_or_gt amount 0 with hle | hpos
  · have hnone : returnBank pool l f amount = l := if_pos hle
    rw [hnone]
    exact ⟨0, Shift.refl pool f l, fun _ => (max_eq_left hle).symm⟩
  · obtain ⟨x, hshift, hready⟩ := returnBank_shift pool f hpos.le l
    exact ⟨x, hshift, fun h => (hready h).trans (max_eq_right hpos.le).symm⟩

end BullsUnicorns.Engine
