import Mathlib.Tactic

/-!
# While loops

A loop that steps a state until a flag stands, cut off after some number of turns. What it answers does
not depend on the bound, an invariant of the step holds at its end, and a variant makes it end.
-/

namespace BullsUnicorns.Loop

variable {σ : Type*} (done : σ → Bool) (step : σ → σ)

/-- `while (!done(s)) s = step(s)`, at most `n` turns. -/
def whileNot : ℕ → σ → Option σ
  | 0, s => if done s then some s else none
  | n + 1, s => if done s then some s else whileNot n (step s)

variable {done step}

theorem whileNot_done {s : σ} (h : done s = true) (n : ℕ) : whileNot done step n s = some s := by
  cases n <;> simp [whileNot, h]

theorem whileNot_step {s : σ} (h : done s = false) (n : ℕ) :
    whileNot done step (n + 1) s = whileNot done step n (step s) := by
  simp [whileNot, h]

/-- An invariant of the step holds where the loop ends, and the flag stands there. -/
theorem whileNot_invariant {I : σ → Prop} (hstep : ∀ s, I s → done s = false → I (step s)) {n : ℕ}
    {s s' : σ} (h0 : I s) (h : whileNot done step n s = some s') : I s' ∧ done s' = true := by
  induction n generalizing s with
  | zero =>
      cases hd : done s with
      | true =>
          rw [whileNot_done hd] at h
          cases h
          exact ⟨h0, hd⟩
      | false => simp [whileNot, hd] at h
  | succ n ih =>
      cases hd : done s with
      | true =>
          rw [whileNot_done hd] at h
          cases h
          exact ⟨h0, hd⟩
      | false =>
          rw [whileNot_step hd] at h
          exact ih (hstep s h0 hd) h

/-- A number that each turn makes smaller bounds the turns. -/
theorem whileNot_ends {I : σ → Prop} (v : σ → ℕ)
    (hstep : ∀ s, I s → done s = false → I (step s) ∧ (done (step s) = true ∨ v (step s) < v s)) {n : ℕ}
    {s : σ} (h0 : I s) (hn : v s < n) : ∃ s', whileNot done step n s = some s' := by
  induction n generalizing s with
  | zero => exact absurd hn (Nat.not_lt_zero _)
  | succ n ih =>
      cases hd : done s with
      | true => exact ⟨s, whileNot_done hd _⟩
      | false =>
          rw [whileNot_step hd]
          obtain ⟨hI, hdone | hv⟩ := hstep s h0 hd
          · exact ⟨step s, whileNot_done hdone n⟩
          · exact ih hI (by omega)

/-- More turns than needed change nothing. -/
theorem whileNot_mono {n n' : ℕ} {s s' : σ} (h : whileNot done step n s = some s') (hn : n ≤ n') :
    whileNot done step n' s = some s' := by
  induction n generalizing s n' with
  | zero =>
      cases hd : done s with
      | true => simpa [whileNot, hd, whileNot_done hd] using h
      | false => simp [whileNot, hd] at h
  | succ n ih =>
      cases hd : done s with
      | true => simpa [whileNot_done hd] using h
      | false =>
          obtain ⟨k, rfl⟩ := Nat.exists_eq_add_of_le' hn
          rw [whileNot_step hd] at h
          rw [← Nat.add_assoc, whileNot_step hd]
          exact ih h (by omega)

end BullsUnicorns.Loop
