import Mathlib.Tactic

/-!
# Sums below a cursor

Marks on the integers, each with a weight, and the sum of the weights at or below a cursor that moves up.
-/

namespace BullsUnicorns.Cursor

variable {M : Type*} [AddCommMonoid M]

/-- The weights of the marks at or below `c`. -/
def sumThrough (weight : ℤ → M) (marks : List ℤ) (c : ℤ) : M := ((marks.filter (· ≤ c)).map weight).sum

variable {weight weight' : ℤ → M} {marks : List ℤ} {c : ℤ}

@[simp]
theorem sumThrough_nil (weight : ℤ → M) (c : ℤ) : sumThrough weight [] c = 0 := rfl

theorem sumThrough_cons (weight : ℤ → M) (r : ℤ) (marks : List ℤ) (c : ℤ) :
    sumThrough weight (r :: marks) c = (if r ≤ c then weight r else 0) + sumThrough weight marks c := by
  by_cases hr : r ≤ c <;> simp [sumThrough, hr]

theorem sumThrough_congr (h : ∀ r ∈ marks, r ≤ c → weight r = weight' r) :
    sumThrough weight marks c = sumThrough weight' marks c := by
  unfold sumThrough
  congr 1
  refine List.map_congr_left fun r hr => ?_
  obtain ⟨hmem, hle⟩ := List.mem_filter.mp hr
  exact h r hmem (of_decide_eq_true hle)

/-- A mark above the cursor does not count yet. -/
theorem sumThrough_snoc {r : ℤ} (h : c < r) : sumThrough weight (marks ++ [r]) c = sumThrough weight marks c := by
  simp [sumThrough, List.filter_append, h]

/-- The cursor may jump where it passes no mark. -/
theorem sumThrough_jump {d : ℤ} (hle : c ≤ d) (h : ∀ r ∈ marks, r ≤ d → r ≤ c) :
    sumThrough weight marks d = sumThrough weight marks c := by
  unfold sumThrough
  congr 2
  refine List.filter_congr fun r hr => ?_
  simp only [decide_eq_decide]
  exact ⟨h r hr, fun hrc => hrc.trans hle⟩

/-- One step up, over a mark or over a place that weighs nothing. -/
theorem sumThrough_next (hnodup : marks.Nodup) (h : c + 1 ∉ marks → weight (c + 1) = 0) :
    sumThrough weight marks (c + 1) = sumThrough weight marks c + weight (c + 1) := by
  induction marks with
  | nil => simpa using (h List.not_mem_nil).symm
  | cons r marks ih =>
      obtain ⟨hr, hnodup⟩ := List.nodup_cons.mp hnodup
      rw [sumThrough_cons, sumThrough_cons]
      rcases lt_trichotomy r (c + 1) with hlt | rfl | hgt
      · rw [ih hnodup fun hnot => h (by simp [hnot, hlt.ne']), if_pos hlt.le, if_pos (Int.lt_add_one_iff.mp hlt),
          add_assoc]
      · -- the mark itself: no other one is passed
        have hrest : sumThrough weight marks (c + 1) = sumThrough weight marks c := by
          refine sumThrough_jump (by omega) fun q hq hle => ?_
          rcases hle.lt_or_eq with hlt | rfl
          · omega
          · exact absurd hq hr
        rw [hrest, if_pos le_rfl, if_neg (by omega), zero_add, add_comm]
      · rw [ih hnodup fun hnot => h (by simp [hnot, hgt.ne]), if_neg hgt.not_ge, if_neg (by omega), zero_add, zero_add]

/-- One weight for the marks at or below the cursor, another for those above. -/
theorem sum_split (f g : ℤ → M) (marks : List ℤ) (c : ℤ) :
    (marks.map fun r => if r ≤ c then f r else g r).sum =
      sumThrough f marks c + ((marks.filter (c < ·)).map g).sum := by
  induction marks with
  | nil => simp
  | cons r marks ih =>
      rw [List.map_cons, List.sum_cons, ih, sumThrough_cons]
      rcases le_or_gt r c with hle | hgt
      · simp [hle, add_assoc]
      · simp [hgt, hgt.not_ge, add_left_comm]

/-- One mark, if it is one, weighs more. -/
theorem sum_raise (f : ℤ → M) {marks : List ℤ} (hnodup : marks.Nodup) (k : ℤ) (u : M) :
    (marks.map fun r => f r + if r = k then u else 0).sum = (marks.map f).sum + if k ∈ marks then u else 0 := by
  induction marks with
  | nil => simp
  | cons r marks ih =>
      obtain ⟨hr, hnodup⟩ := List.nodup_cons.mp hnodup
      rw [List.map_cons, List.map_cons, List.sum_cons, List.sum_cons, ih hnodup]
      rcases eq_or_ne r k with rfl | hne
      · simp [hr, add_right_comm]
      · simp [hne, hne.symm, add_assoc]

end BullsUnicorns.Cursor
