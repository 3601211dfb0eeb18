import BullsUnicorns.Keeper.Reclamation
import Mathlib.Algebra.Order.BigOperators.Group.List
import Mathlib.Data.List.DropRight

/-!
# The brake and its ring

The ring keeps as many samples as the brake waits for, and the brake averages fewer of them: what it says
of the ring it says of the whole history.
-/

namespace BullsUnicorns.Keeper

variable {samples history : List ℤ} {threshold : ℚ} {armAfter windowSamples : ℕ}

/-! ## The ring -/

theorem recordBurnSample_rtake (hcap : 0 < armAfter) (lamports : ℤ) :
    recordBurnSample (history.rtake armAfter) lamports armAfter = (history ++ [lamports]).rtake armAfter := by
  obtain ⟨cap, rfl⟩ : ∃ cap, armAfter = cap + 1 := ⟨armAfter - 1, by omega⟩
  rw [recordBurnSample, if_neg (by omega)]
  change (history.rtake (cap + 1) ++ [lamports]).rtake (cap + 1) = _
  rw [List.rtake_concat_succ, List.rtake_concat_succ]
  congr 1
  simp only [List.rtake, List.drop_drop, List.length_drop]
  congr 1
  omega

/-- The ring holds the newest samples. -/
theorem burnRing_eq (hcap : 0 < armAfter) (history : List ℤ) : burnRing armAfter history = history.rtake armAfter := by
  induction history using List.reverseRecOn with
  | nil => simp [burnRing]
  | append_singleton history lamports ih =>
      have hstep : burnRing armAfter (history ++ [lamports]) =
          recordBurnSample (burnRing armAfter history) lamports armAfter := List.foldl_append
      rw [hstep, ih, recordBurnSample_rtake hcap]

theorem length_rtake (l : List ℤ) (n : ℕ) : (l.rtake n).length = min n l.length := by
  simp only [List.rtake, List.length_drop]
  omega

theorem rtake_rtake (l : List ℤ) {n m : ℕ} (h : n ≤ m) : (l.rtake m).rtake n = l.rtake n := by
  simp only [List.rtake, List.drop_drop, List.length_drop]
  congr 1
  omega

/-! ## The verdict -/

/-- The mean that the brake compares, of a window that is not empty. -/
def meanOf (window : List ℤ) : ℚ := window.sum / window.length

theorem burnBrake_tripped (hw : 0 < windowSamples) :
    (burnBrake samples threshold armAfter windowSamples).tripped = true ↔
      0 < armAfter ∧ armAfter ≤ samples.length ∧ threshold < meanOf (samples.rtake windowSamples) := by
  unfold burnBrake
  rw [if_neg (by omega)]
  dsimp only
  change (if (samples.rtake windowSamples).length = 0 then _ else _ : BurnVerdict).tripped = true ↔ _
  split
  · rename_i hempty
    rw [length_rtake] at hempty
    simp only [Bool.false_eq_true, false_iff]
    omega
  · simp [meanOf, List.rtake, and_assoc]

theorem burnBrake_ring (harm : 0 < armAfter) (hle : windowSamples ≤ armAfter) (history : List ℤ) :
    burnBrake (burnRing armAfter history) threshold armAfter windowSamples =
      burnBrake history threshold armAfter windowSamples := by
  have hwindow : (history.rtake armAfter).drop ((history.rtake armAfter).length - windowSamples) =
      history.drop (history.length - windowSamples) := rtake_rtake history hle
  have hseen : armAfter ≤ (history.rtake armAfter).length ↔ armAfter ≤ history.length := by
    rw [length_rtake]
    omega
  rw [burnRing_eq harm]
  simp only [burnBrake, hwindow, hseen]

/-! ## Means -/

theorem sum_le_of_forall {window : List ℤ} (h : ∀ x ∈ window, (x : ℚ) ≤ threshold) :
    (window.sum : ℚ) ≤ window.length * threshold := by
  induction window with
  | nil => simp
  | cons x window ih =>
      rw [List.forall_mem_cons] at h
      have hrest := ih h.2
      simp only [List.sum_cons, List.length_cons, Int.cast_add, Nat.cast_add, Nat.cast_one]
      linarith [h.1]

theorem meanOf_le {window : List ℤ} (hne : window ≠ []) (h : ∀ x ∈ window, (x : ℚ) ≤ threshold) :
    meanOf window ≤ threshold := by
  have hpos : (0 : ℚ) < window.length := by exact_mod_cast List.length_pos_of_ne_nil hne
  rw [meanOf, div_le_iff₀ hpos, mul_comm]
  exact sum_le_of_forall h

theorem lt_sum_of_forall {window : List ℤ} (hne : window ≠ []) (h : ∀ x ∈ window, threshold < x) :
    window.length * threshold < (window.sum : ℚ) := by
  induction window with
  | nil => exact absurd rfl hne
  | cons x window ih =>
      rw [List.forall_mem_cons] at h
      simp only [List.sum_cons, List.length_cons, Int.cast_add, Nat.cast_add, Nat.cast_one]
      rcases eq_or_ne window [] with rfl | hwindow
      · simpa using h.1
      · linarith [h.1, ih hwindow h.2]

theorem lt_meanOf {window : List ℤ} (hne : window ≠ []) (h : ∀ x ∈ window, threshold < x) :
    threshold < meanOf window := by
  have hpos : (0 : ℚ) < window.length := by exact_mod_cast List.length_pos_of_ne_nil hne
  rw [meanOf, lt_div_iff₀ hpos, mul_comm]
  exact lt_sum_of_forall hne h

/-- Samples that are nowhere higher have a mean that is not higher. -/
theorem meanOf_mono {window window' : List ℤ} (h : List.Forall₂ (· ≤ ·) window window') :
    meanOf window ≤ meanOf window' := by
  have hsum : (window.sum : ℚ) ≤ window'.sum := by
    exact_mod_cast h.sum_le_sum
  rw [meanOf, meanOf, h.length_eq]
  exact div_le_div_of_nonneg_right hsum (Nat.cast_nonneg _)

/-! ## The law of the brake -/

/-- The bounded ring decides like the whole history, and neither early, nor for the rounds before the
turnover, nor because of a top-up. -/
theorem ring_decides_like_the_history (threshold : ℚ) (armAfter windowSamples : ℕ) (hw : 0 < windowSamples)
    (hle : windowSamples ≤ armAfter) :
    (∀ history, burnBrake (burnRing armAfter history) threshold armAfter windowSamples =
      burnBrake history threshold armAfter windowSamples) ∧
    (∀ history, history.length < armAfter →
      (burnBrake (burnRing armAfter history) threshold armAfter windowSamples).tripped = false) ∧
    (∀ (R : ℕ) (history : List ℤ), (R : ℤ) ≤ (armAfter : ℤ) - windowSamples →
      (∀ x ∈ history.drop R, (x : ℚ) ≤ threshold) → ∀ seen, seen <+: history →
        (burnBrake (burnRing armAfter seen) threshold armAfter windowSamples).tripped = false) ∧
    (∀ history : List ℤ, armAfter ≤ history.length →
      (∀ x ∈ history.drop (history.length - windowSamples), threshold < x) →
        (burnBrake (burnRing armAfter history) threshold armAfter windowSamples).tripped = true) ∧
    (∀ history lowered : List ℤ, List.Forall₂ (· ≤ ·) lowered history →
      (burnBrake (burnRing armAfter history) threshold armAfter windowSamples).tripped = false →
        (burnBrake (burnRing armAfter lowered) threshold armAfter windowSamples).tripped = false) := by
  have harm : 0 < armAfter := by omega
  have hring (history : List ℤ) : burnBrake (burnRing armAfter history) threshold armAfter windowSamples =
      burnBrake history threshold armAfter windowSamples := burnBrake_ring harm hle history
  have htrips (history : List ℤ) : (burnBrake (burnRing armAfter history) threshold armAfter windowSamples).tripped = true ↔
      armAfter ≤ history.length ∧ threshold < meanOf (history.rtake windowSamples) := by
    rw [hring, burnBrake_tripped hw, and_iff_right harm]
  have hstays (history : List ℤ) : (burnBrake (burnRing armAfter history) threshold armAfter windowSamples).tripped = false ↔
      (armAfter ≤ history.length → meanOf (history.rtake windowSamples) ≤ threshold) := by
    rw [← Bool.not_eq_true, htrips, not_and, not_lt]
  have hwindow {history : List ℤ} (hseen : armAfter ≤ history.length) : history.rtake windowSamples ≠ [] := by
    intro hnil
    have hlen := length_rtake history windowSamples
    rw [hnil, List.length_nil] at hlen
    omega
  refine ⟨hring, ?_, ?_, ?_, ?_⟩
  · intro history hshort
    exact (hstays history).mpr fun hseen => absurd hseen (by omega)
  · intro R history hR hhealthy seen hprefix
    refine (hstays seen).mpr fun hseen => meanOf_le (hwindow hseen) fun x hx => ?_
    -- the window begins past the first `R` samples
    obtain ⟨rest, rfl⟩ := hprefix
    have hdeep : seen.rtake windowSamples = (seen.drop R).drop (seen.length - windowSamples - R) := by
      rw [List.rtake, List.drop_drop]
      congr 1
      omega
    rw [hdeep] at hx
    have hx' : x ∈ seen.drop R := List.mem_of_mem_drop hx
    refine hhealthy x ?_
    rw [List.drop_append]
    exact List.mem_append_left _ hx'
  · intro history hseen hfault
    exact (htrips history).mpr ⟨hseen, lt_meanOf (hwindow hseen) hfault⟩
  · intro history lowered hlower hopen
    rw [hstays] at hopen ⊢
    intro hseen
    have hlen := hlower.length_eq
    refine le_trans (meanOf_mono ?_) (hopen (by omega))
    rw [List.rtake, List.rtake, hlen]
    exact List.forall₂_drop _ hlower

theorem ring_decides_like_the_history_witness :
    burnBrake (burnRing 3 [9, 1, 2, 1]) 4 3 2 = ⟨true, 2, some (3 / 2), false⟩ :=
  ((ring_decides_like_the_history 4 3 2 (by decide) (by decide)).1 [9, 1, 2, 1]).trans (by decide +kernel)

end BullsUnicorns.Keeper
