import Mathlib.Tactic

/-!
# Replaying an indexed process, eagerly and lazily

`iterFrom body i k a` runs the steps `i, …, i + k - 1` of a process. A lazy process keeps a cursor and
the value at it, and is brought up to date only when somebody asks; an action is taken on a value that
is up to date. The value at a cursor is then a function of the actions alone, and no choice of when to
advance shows in it.
-/

namespace BullsUnicorns.Replay

/-- Costs that every step pays from a potential sum to no more than the potential at the start. -/
theorem sum_cost_le (φ cost : ℕ → ℕ) (h : ∀ j, cost j + φ (j + 1) ≤ φ j) (k : ℕ) :
    ((List.range k).map cost).sum + φ k ≤ φ 0 := by
  induction k with
  | zero => simp
  | succ k ih =>
      have hk := h k
      rw [List.range_succ, List.map_append, List.sum_append, List.map_singleton, List.sum_singleton]
      omega

variable {α β τ : Type*}

def iterFrom (body : ℕ → α → α) (i : ℕ) : ℕ → α → α
  | 0, a => a
  | k + 1, a => iterFrom body (i + 1) k (body i a)

section
variable {body : ℕ → α → α}

@[simp]
theorem iterFrom_zero (i : ℕ) (a : α) : iterFrom body i 0 a = a := rfl

theorem iterFrom_succ (i k : ℕ) (a : α) :
    iterFrom body i (k + 1) a = iterFrom body (i + 1) k (body i a) := rfl

theorem iterFrom_add (i k l : ℕ) (a : α) :
    iterFrom body i (k + l) a = iterFrom body (i + k) l (iterFrom body i k a) := by
  induction k generalizing i a with
  | zero => simp
  | succ k ih =>
      rw [show k + 1 + l = k + l + 1 by omega, iterFrom_succ, ih, iterFrom_succ,
        show i + (k + 1) = i + 1 + k by omega]

theorem iterFrom_invariant {P : α → Prop} (hbody : ∀ j a, P a → P (body j a)) (i k : ℕ) {a : α}
    (ha : P a) : P (iterFrom body i k a) := by
  induction k generalizing i a with
  | zero => exact ha
  | succ k ih => exact ih (i + 1) (hbody i a ha)

theorem iterFrom_fixed {a : α} (h : ∀ j, body j a = a) (i k : ℕ) : iterFrom body i k a = a :=
  iterFrom_invariant (P := fun b => b = a) (fun j b hb => by rw [hb, h j]) i k rfl

theorem iterFrom_snoc (i k : ℕ) (a : α) : iterFrom body i (k + 1) a = body (i + k) (iterFrom body i k a) := by
  rw [iterFrom_add]
  rfl

/-- A process whose measure falls, from wherever it stands, as long as it is not done gets done. -/
theorem iterFrom_done {I Done : α → Prop} {μ : α → ℕ} (hbody : ∀ j a, I a → I (body j a))
    (hfalls : ∀ i a, I a → ¬Done a → ∃ k, μ (iterFrom body i k a) < μ a) (i : ℕ) {a : α} (ha : I a) :
    ∃ k, Done (iterFrom body i k a) := by
  induction hμ : μ a using Nat.strong_induction_on generalizing i a with
  | h n ih =>
      by_cases hdone : Done a
      · exact ⟨0, hdone⟩
      · obtain ⟨k, hk⟩ := hfalls i a ha hdone
        obtain ⟨l, hl⟩ := ih _ (hμ ▸ hk) (i + k) (iterFrom_invariant hbody i k ha) rfl
        exact ⟨k + l, by rwa [iterFrom_add]⟩

/-- Two processes that keep a relation between their values step by step keep it over runs. -/
theorem iterFrom_simulation {body' : ℕ → β → β} {R : α → β → Prop} {i k : ℕ}
    (hbody : ∀ j a b, i ≤ j → j < i + k → R a b → R (body j a) (body' j b)) {a : α} {b : β}
    (h : R a b) : R (iterFrom body i k a) (iterFrom body' i k b) := by
  induction k generalizing i a b with
  | zero => exact h
  | succ k ih =>
      exact ih (fun j a b h1 h2 hr => hbody j a b (by omega) (by omega) hr)
        (hbody i a b (Nat.le_refl i) (by omega) h)

end

/-! ## Lazy processes -/

/-- The value of a lazily run process, and the cursor it stands at. -/
structure Lazy (α : Type*) where
  cursor : ℕ
  value : α

section
variable (body : ℕ → α → α) (act : β → ℕ → α → Option α) (target : τ → ℕ)

/-- Bring the process up to `c`; a cursor that is already past `c` stays. -/
def Lazy.upTo (s : Lazy α) (c : ℕ) : Lazy α :=
  ⟨max s.cursor c, iterFrom body s.cursor (c - s.cursor) s.value⟩

/-- Take timed actions, each on the process brought up to the target of its time. -/
def Lazy.eager (s : Lazy α) : List (τ × β) → Option (Lazy α)
  | [] => some s
  | (t, b) :: rest =>
      let u := s.upTo body (target t)
      match act b u.cursor u.value with
      | some v => Lazy.eager ⟨u.cursor, v⟩ rest
      | none => none

/-- `s'` is a state that a lazy run from `s` with these actions can be in, its cursor not past
`bound` unless it started there. -/
def Lazy.Tracks (s : Lazy α) (acts : List (τ × β)) (bound : ℕ) (s' : Lazy α) : Prop :=
  ∃ k, s.eager body act target acts = some k ∧ s.cursor ≤ k.cursor ∧ k.cursor ≤ s'.cursor ∧
    s'.value = iterFrom body k.cursor (s'.cursor - k.cursor) k.value ∧
    s'.cursor ≤ max s.cursor bound
end

section
variable {body : ℕ → α → α} {act : β → ℕ → α → Option α} {target : τ → ℕ}

theorem Lazy.eager_append (s : Lazy α) (as bs : List (τ × β)) :
    s.eager body act target (as ++ bs) =
      (s.eager body act target as).bind fun k => k.eager body act target bs := by
  induction as generalizing s with
  | nil => rfl
  | cons a as ih =>
      simp only [List.cons_append, Lazy.eager]
      split
      · exact ih _
      · rfl

theorem Lazy.Tracks.refl (s : Lazy α) (bound : ℕ) : s.Tracks body act target [] bound s :=
  ⟨s, rfl, Nat.le_refl _, Nat.le_refl _, by simp, Nat.le_max_left _ _⟩

theorem Lazy.Tracks.mono {s s' : Lazy α} {acts : List (τ × β)} {b b' : ℕ} (hb : b ≤ b')
    (h : s.Tracks body act target acts b s') : s.Tracks body act target acts b' s' := by
  obtain ⟨k, he, h1, h2, hv, h3⟩ := h
  exact ⟨k, he, h1, h2, hv, by omega⟩

theorem Lazy.Tracks.advance {s s' : Lazy α} {acts : List (τ × β)} {bound n : ℕ}
    (h : s.Tracks body act target acts bound s') (hn : s'.cursor + n ≤ max s.cursor bound) :
    s.Tracks body act target acts bound ⟨s'.cursor + n, iterFrom body s'.cursor n s'.value⟩ := by
  obtain ⟨k, he, h1, h2, hv, h3⟩ := h
  refine ⟨k, he, h1, by simp only; omega, ?_, hn⟩
  have hk : s'.cursor + n - k.cursor = s'.cursor - k.cursor + n := by omega
  simp only [hk, iterFrom_add, ← hv]
  rw [show k.cursor + (s'.cursor - k.cursor) = s'.cursor by omega]

theorem Lazy.Tracks.takeAction {s s' : Lazy α} {acts : List (τ × β)} {t : τ} {b : β} {v : α}
    (h : s.Tracks body act target acts (target t) s') (hup : target t ≤ s'.cursor)
    (hact : act b s'.cursor s'.value = some v) :
    s.Tracks body act target (acts ++ [(t, b)]) (target t) ⟨s'.cursor, v⟩ := by
  obtain ⟨k, he, h1, h2, hv, h3⟩ := h
  -- bounded by its own target, the eager run stops exactly at the lazy cursor
  have hcur : max k.cursor (target t) = s'.cursor := by omega
  have hsub : iterFrom body k.cursor (target t - k.cursor) k.value = s'.value := by
    rw [hv, show target t - k.cursor = s'.cursor - k.cursor by omega]
  refine ⟨⟨s'.cursor, v⟩, ?_, by simp only; omega, Nat.le_refl _, by simp, h3⟩
  rw [Lazy.eager_append, he]
  simp [Lazy.eager, Lazy.upTo, hcur, hsub, hact]

/-- Two lazy runs with the same actions are in the same state whenever both are up to date. -/
theorem Lazy.Tracks.agree {s s₁ s₂ : Lazy α} {acts : List (τ × β)} {bound : ℕ}
    (h₁ : s.Tracks body act target acts bound s₁) (h₂ : s.Tracks body act target acts bound s₂)
    (hup₁ : bound ≤ s₁.cursor) (hup₂ : bound ≤ s₂.cursor) :
    s₁.cursor = max s.cursor bound ∧ s₁ = s₂ := by
  obtain ⟨k, he, h1, h2, hv, h3⟩ := h₁
  obtain ⟨k', he', h1', h2', hv', h3'⟩ := h₂
  obtain rfl : k = k' := by rw [he] at he'; exact Option.some.inj he'
  have hc : s₁.cursor = s₂.cursor := by omega
  refine ⟨by omega, ?_⟩
  cases s₁; cases s₂
  simp_all

/-- A value that no step changes any more is the value of every later lazy state. -/
theorem Lazy.Tracks.agree_of_fixed {s s₁ s₂ : Lazy α} {acts : List (τ × β)} {b₁ b₂ : ℕ}
    (h₁ : s.Tracks body act target acts b₁ s₁) (h₂ : s.Tracks body act target acts b₂ s₂)
    (hle : s₁.cursor ≤ s₂.cursor) (hfix : ∀ j, body j s₁.value = s₁.value) :
    s₂.value = s₁.value := by
  obtain ⟨k, he, h1, h2, hv, h3⟩ := h₁
  obtain ⟨k', he', h1', h2', hv', h3'⟩ := h₂
  obtain rfl : k = k' := by rw [he] at he'; exact Option.some.inj he'
  have hk : s₂.cursor - k.cursor = (s₁.cursor - k.cursor) + (s₂.cursor - s₁.cursor) := by omega
  rw [hv', hk, iterFrom_add, ← hv]
  exact iterFrom_fixed hfix _ _

end

end BullsUnicorns.Replay
