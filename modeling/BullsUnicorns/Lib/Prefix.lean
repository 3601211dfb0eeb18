import Mathlib.Tactic

/-!
# Sums and properties over the first slots of an array

An array of fixed size with a count holds its live entries in the slots below the count.
-/

namespace BullsUnicorns.Prefix

variable {α : Type*} {k : ℕ}

def sum (f : α → ℕ) (v : Vector α k) (n : ℕ) : ℕ := ((v.toList.take n).map f).sum

def All (P : α → Prop) (v : Vector α k) (n : ℕ) : Prop := ∀ i, (h : i < k) → i < n → P v[i]

instance (P : α → Prop) [DecidablePred P] (v : Vector α k) (n : ℕ) : Decidable (All P v n) :=
  decidable_of_iff (∀ i : Fin k, (i : ℕ) < n → P v[i])
    ⟨fun h i hi => h ⟨i, hi⟩, fun h i => h i i.isLt⟩

/-- The first of the first `n` slots that satisfies `p`. -/
def find (p : α → Bool) (v : Vector α k) (n : ℕ) : Option (Fin k) :=
  match (v.toList.take n).findIdx? p with
  | some i => if h : i < k then some ⟨i, h⟩ else none
  | none => none

section
variable {p : α → Bool} {v : Vector α k} {n : ℕ}

theorem find_eq_some {i : Fin k} (h : find p v n = some i) :
    i < n ∧ p v[i] ∧ ∀ j : Fin k, j < i → ¬ p v[j] := by
  unfold find at h
  split at h
  · rename_i j hj
    obtain ⟨hlt, hp, hfirst⟩ := List.findIdx?_eq_some_iff_getElem.mp hj
    simp only [List.length_take, Vector.length_toList] at hlt
    rw [dif_pos (by omega)] at h
    obtain rfl := Option.some.inj h
    simp only [List.getElem_take, Vector.getElem_toList] at hp hfirst
    exact ⟨by simp only; omega, hp, fun l hl => hfirst l hl⟩
  · cases h

theorem find_eq_none (hn : n ≤ k) (h : find p v n = none) : All (fun x => ¬ p x) v n := by
  intro i hi hin hp
  unfold find at h
  split at h
  · rename_i j hj
    have hlt := (List.findIdx?_eq_some_iff_getElem.mp hj).1
    simp only [List.length_take, Vector.length_toList] at hlt
    rw [dif_pos (by omega)] at h
    cases h
  · rename_i hnone
    rw [List.findIdx?_eq_none_iff] at hnone
    have hmem : v[i] ∈ v.toList.take n := by
      rw [List.mem_take_iff_getElem]
      exact ⟨i, by simp; omega, by simp⟩
    exact absurd hp (by simp [hnone _ hmem])

end

section
variable {f g : α → ℕ} {v w : Vector α k} {n : ℕ}

@[simp]
theorem sum_zero : sum f v 0 = 0 := by simp [sum]

theorem sum_succ (h : n < k) : sum f v (n + 1) = sum f v n + f v[n] := by
  have hn : n < v.toList.length := by simpa using h
  simp [sum, List.take_add_one, List.getElem?_eq_getElem hn]

theorem take_congr (h : ∀ i, (hi : i < k) → i < n → v[i] = w[i]) :
    v.toList.take n = w.toList.take n := by
  apply List.ext_getElem
  · simp
  · intro i h₁ h₂
    simp only [List.length_take, Vector.length_toList] at h₁
    simpa using h i (by omega) (by omega)

theorem sum_congr (hn : n ≤ k) (h : ∀ i, (hi : i < k) → i < n → f v[i] = g w[i]) :
    sum f v n = sum g w n := by
  induction n with
  | zero => simp
  | succ n ih =>
      rw [sum_succ hn, sum_succ hn, ih (by omega) (fun i hi hlt => h i hi (by omega)),
        h n hn (by omega)]

theorem le_sum (hn : n ≤ k) {i : ℕ} (hi : i < n) : f v[i] ≤ sum f v n := by
  induction n with
  | zero => omega
  | succ n ih =>
      rw [sum_succ hn]
      by_cases h : i = n
      · subst h; omega
      · have := ih (by omega) (by omega); omega

theorem sum_mono {m : ℕ} (hn : n ≤ k) (h : m ≤ n) : sum f v m ≤ sum f v n := by
  induction n with
  | zero => simp [Nat.le_zero.mp h]
  | succ n ih =>
      rw [sum_succ hn]
      by_cases he : m = n + 1
      · subst he; rw [sum_succ hn]
      · have := ih (by omega) (by omega); omega

theorem add_le_sum (hn : n ≤ k) {i j : ℕ} (hi : i < n) (hj : j < n) (hij : i ≠ j) :
    f v[i] + f v[j] ≤ sum f v n := by
  wlog hlt : i < j generalizing i j
  · have := this hj hi (Ne.symm hij) (by omega); omega
  have h1 : f v[i] ≤ sum f v j := le_sum (by omega) hlt
  have h2 : sum f v (j + 1) ≤ sum f v n := sum_mono hn hj
  rw [sum_succ (by omega)] at h2
  omega

theorem sum_set_of_le {i : ℕ} (hi : i < k) (hni : n ≤ i) (x : α) :
    sum f (v.set i x) n = sum f v n := by
  refine sum_congr (by omega) fun j hj hjn => ?_
  rw [Vector.getElem_set_ne _ _ (by omega)]

theorem sum_set (hn : n ≤ k) {i : ℕ} (hi : i < n) (x : α) :
    sum f (v.set i x) n + f v[i] = sum f v n + f x := by
  induction n with
  | zero => omega
  | succ n ih =>
      rw [sum_succ hn, sum_succ hn]
      by_cases h : i = n
      · subst h
        rw [sum_set_of_le _ (Nat.le_refl _), Vector.getElem_set_self]
        omega
      · have := ih (by omega) (by omega)
        rw [Vector.getElem_set_ne _ _ h]
        omega

end

/-! ## Properties of every live slot -/

/-- No two of the first `n` slots have the same key. -/
def InjOn {κ : Type*} (key : α → κ) (v : Vector α k) (n : ℕ) : Prop :=
  ∀ i j, (hi : i < k) → (hj : j < k) → i < n → j < n → key v[i] = key v[j] → i = j

section
variable {P : α → Prop} {κ : Type*} {key : α → κ} {v w : Vector α k} {n : ℕ} {x : α}

theorem All.imp {Q : α → Prop} (h : All P v n) (hpq : ∀ y, P y → Q y) : All Q v n :=
  fun i hi hin => hpq _ (h i hi hin)

theorem All.congr (h : All P v n) (he : ∀ i, (hi : i < k) → i < n → P v[i] → P w[i]) :
    All P w n :=
  fun i hi hin => he i hi hin (h i hi hin)

theorem All.set (h : All P v n) {i : ℕ} (hi : i < k) (hx : P x) : All P (v.set i x) n := by
  intro j hj hjn
  by_cases he : i = j
  · subst he; simpa using hx
  · rw [Vector.getElem_set_ne _ _ he]; exact h j hj hjn

theorem All.push (h : All P v n) (hn : n < k) (hx : P x) : All P (v.set n x) (n + 1) := by
  intro j hj hjn
  by_cases he : n = j
  · subst he; simpa using hx
  · rw [Vector.getElem_set_ne _ _ he]; exact h j hj (by omega)

theorem InjOn.congr (h : InjOn key v n) (he : ∀ i, (hi : i < k) → i < n → key w[i] = key v[i]) :
    InjOn key w n := by
  intro i j hi hj hin hjn hk
  rw [he i hi hin, he j hj hjn] at hk
  exact h i j hi hj hin hjn hk

theorem InjOn.push (h : InjOn key v n) (hn : n < k) (hx : All (fun y => key y ≠ key x) v n) :
    InjOn key (v.set n x) (n + 1) := by
  intro i j hi hj hin hjn hk
  by_cases hni : n = i
  · subst hni
    by_cases hnj : n = j
    · exact hnj
    · rw [Vector.getElem_set_self, Vector.getElem_set_ne _ _ hnj] at hk
      exact absurd hk.symm (hx j hj (by omega))
  · rw [Vector.getElem_set_ne _ _ hni] at hk
    by_cases hnj : n = j
    · subst hnj
      rw [Vector.getElem_set_self] at hk
      exact absurd hk (hx i hi (by omega))
    · rw [Vector.getElem_set_ne _ _ hnj] at hk
      exact h i j hi hj (by omega) (by omega) hk

theorem key_set {i j : ℕ} (hi : i < k) (hj : j < k) (hx : key x = key v[i]) :
    key (v.set i x)[j] = key v[j] := by
  by_cases he : i = j
  · subst he; rw [Vector.getElem_set_self, hx]
  · rw [Vector.getElem_set_ne _ _ he]

end

end BullsUnicorns.Prefix
