import Mathlib.Tactic
import Mathlib.Data.List.DropRight

/-!
# Rows counted in fixed windows

One row for each subject, dated with the window that it counts: a touch in that window adds one, a touch in
any other begins again at one.
-/

namespace BullsUnicorns.FixedWindow

variable {ω : Type*} [DecidableEq ω]

/-- A row after one more touch. -/
def touch (row : Option (ω × ℕ)) (window : ω) : ω × ℕ :=
  match row with
  | none => (window, 1)
  | some (dated, hits) => if dated = window then (window, hits + 1) else (window, 1)

def rowAfter (touches : List ω) : Option (ω × ℕ) := touches.foldl (fun row window => some (touch row window)) none

/-- The touches of a window since the last touch of another. -/
def unbroken (touches : List ω) (window : ω) : ℕ := (touches.rtakeWhile fun other => other = window).length

@[simp]
theorem unbroken_nil (window : ω) : unbroken [] window = 0 := rfl

theorem unbroken_snoc (touches : List ω) (window other : ω) :
    unbroken (touches ++ [other]) window = if other = window then unbroken touches window + 1 else 0 := by
  by_cases h : other = window
  · simp [unbroken, h]
  · simp [unbroken, h]

@[simp]
theorem rowAfter_nil : rowAfter ([] : List ω) = none := rfl

theorem rowAfter_snoc (touches : List ω) (window : ω) :
    rowAfter (touches ++ [window]) = some (touch (rowAfter touches) window) := by
  simp [rowAfter]

/-- What a touch answers is the unbroken touches of its window, itself included. -/
theorem touch_rowAfter (touches : List ω) (window : ω) :
    touch (rowAfter touches) window = (window, unbroken touches window + 1) := by
  induction touches using List.reverseRecOn generalizing window with
  | nil => rfl
  | append_singleton touches last ih =>
      rw [rowAfter_snoc, ih last, unbroken_snoc, touch]
      by_cases h : last = window
      · simp [h]
      · simp [h]

theorem unbroken_le_count (touches : List ω) (window : ω) : unbroken touches window ≤ touches.count window := by
  induction touches using List.reverseRecOn with
  | nil => simp
  | append_singleton touches last ih =>
      rw [unbroken_snoc, List.count_append, List.count_singleton]
      by_cases h : last = window
      · simp [h, ih]
      · simp [h]

/-- No window comes back once another was touched. -/
def NoReturn (touches : List ω) : Prop := ∀ window other, [window, other, window].Sublist touches → other = window

omit [DecidableEq ω] in
theorem NoReturn.sublist {touches touches' : List ω} (h : NoReturn touches) (hsub : touches'.Sublist touches) :
    NoReturn touches' :=
  fun window other hthree => h window other (hthree.trans hsub)

/-- Then no touch of a window is forgotten while the window is touched. -/
theorem NoReturn.unbroken_eq {touches : List ω} {window : ω} (h : NoReturn (touches ++ [window])) :
    unbroken touches window = touches.count window := by
  induction touches using List.reverseRecOn with
  | nil => simp
  | append_singleton touches last ih =>
      rw [unbroken_snoc, List.count_append, List.count_singleton]
      by_cases hlast : last = window
      · have hshorter : NoReturn (touches ++ [window]) := h.sublist (by simp)
        simp [hlast, ih hshorter]
      · have habsent : window ∉ touches := by
          intro hmem
          refine hlast (h window last ?_)
          have hone : [window].Sublist touches := List.singleton_sublist.mpr hmem
          exact (hone.append (List.Sublist.refl [last])).append (List.Sublist.refl [window])
        simp [hlast, List.count_eq_zero_of_not_mem habsent]

end BullsUnicorns.FixedWindow

namespace BullsUnicorns

/-- Of the entries with `p`, those that are let through while fewer than `limit` of them came before are at
most `limit`. -/
theorem countP_le_limit {α : Type*} (p through : α → Bool) (limit : ℕ) {entries : List α}
    (h : ∀ before entry after, entries = before ++ entry :: after → p entry = true → through entry = true →
      before.countP p < limit) : entries.countP (fun entry => p entry && through entry) ≤ limit := by
  induction entries using List.reverseRecOn with
  | nil => simp
  | append_singleton entries last ih =>
      have hearlier := ih fun before entry after heq hp hthrough =>
        h before entry (after ++ [last]) (by simp [heq]) hp hthrough
      rw [List.countP_append, List.countP_singleton]
      split
      · rename_i hlast
        rw [Bool.and_eq_true] at hlast
        have hfew := h entries last [] rfl hlast.1 hlast.2
        have hle : entries.countP (fun entry => p entry && through entry) ≤ entries.countP p :=
          List.countP_mono_left fun entry _ hboth => (Bool.and_eq_true _ _ ▸ hboth).1
        omega
      · exact hearlier

end BullsUnicorns
