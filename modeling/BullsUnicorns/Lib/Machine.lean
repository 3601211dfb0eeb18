import Mathlib.Tactic

/-!
# State machines with steps that may be refused

A step answers a new state and an output, or an error; a refused input leaves the state as it was.
A run feeds a list of inputs, and its log keeps the inputs that were accepted, each with its output.
The rules carry an invariant, a relation between states, or a property of log and state together
from one step to every run.
-/

namespace BullsUnicorns

structure Machine (σ ι ω ε : Type*) where
  step : σ → ι → Except ε (σ × ω)

namespace Machine

variable {σ ι ω ε : Type*} (m : Machine σ ι ω ε)

/-- One input: the new state when it is accepted, the old one when it is refused. -/
def attempt (s : σ) (i : ι) : σ :=
  match m.step s i with
  | .ok (s', _) => s'
  | .error _ => s

def run (s : σ) : List ι → σ
  | [] => s
  | i :: is => run (m.attempt s i) is

/-- The accepted inputs of a run with their outputs, in order. -/
def accepted (s : σ) : List ι → List (ι × ω)
  | [] => []
  | i :: is =>
      match m.step s i with
      | .ok (s', o) => (i, o) :: accepted s' is
      | .error _ => accepted s is

/-- Every input of a run meets a condition in the state that it finds. -/
def Each (P : σ → ι → Prop) (s : σ) : List ι → Prop
  | [] => True
  | i :: is => P s i ∧ Each P (m.attempt s i) is

instance decidableEach (P : σ → ι → Prop) [∀ s i, Decidable (P s i)] (s : σ) : (is : List ι) → Decidable (m.Each P s is)
  | [] => isTrue trivial
  | i :: is =>
      have := decidableEach P (m.attempt s i) is
      inferInstanceAs (Decidable (P s i ∧ m.Each P (m.attempt s i) is))

def Reach (s s' : σ) : Prop := ∃ is, m.run s is = s'

variable {m}

theorem attempt_ok {s s' i o} (h : m.step s i = .ok (s', o)) : m.attempt s i = s' := by
  simp [attempt, h]

theorem attempt_error {s i e} (h : m.step s i = .error e) : m.attempt s i = s := by
  simp [attempt, h]

@[simp]
theorem run_nil (s : σ) : m.run s [] = s := rfl

@[simp]
theorem run_cons (s : σ) (i : ι) (is : List ι) : m.run s (i :: is) = m.run (m.attempt s i) is := rfl

theorem run_append (s : σ) (is js : List ι) : m.run s (is ++ js) = m.run (m.run s is) js := by
  induction is generalizing s with
  | nil => rfl
  | cons i is ih => exact ih _

theorem each_append (P : σ → ι → Prop) (s : σ) (is js : List ι) :
    m.Each P s (is ++ js) ↔ m.Each P s is ∧ m.Each P (m.run s is) js := by
  induction is generalizing s with
  | nil => simp [Each]
  | cons i is ih => simp [Each, ih, and_assoc]

theorem each_snoc (P : σ → ι → Prop) (s : σ) (is : List ι) (i : ι) :
    m.Each P s (is ++ [i]) ↔ m.Each P s is ∧ P (m.run s is) i := by
  simp [each_append, Each]

@[simp]
theorem accepted_nil (s : σ) : m.accepted s [] = [] := rfl

theorem accepted_cons (s : σ) (i : ι) (is : List ι) :
    m.accepted s (i :: is) = m.accepted s [i] ++ m.accepted (m.attempt s i) is := by
  cases h : m.step s i with
  | ok r => simp [accepted, attempt, h]
  | error e => simp [accepted, attempt, h]

theorem fst_mem_of_mem_accepted {s : σ} {is : List ι} {entry : ι × ω} (h : entry ∈ m.accepted s is) : entry.1 ∈ is := by
  induction is generalizing s with
  | nil => cases h
  | cons i is ih =>
      rw [accepted] at h
      split at h
      · rcases List.mem_cons.mp h with rfl | h
        · exact List.mem_cons_self
        · exact List.mem_cons_of_mem _ (ih h)
      · exact List.mem_cons_of_mem _ (ih h)

/-- What every step says of its input and output holds of each entry of the log. -/
theorem forall_mem_accepted {P : ι → ω → Prop} (hstep : ∀ s i s' o, m.step s i = .ok (s', o) → P i o)
    {s : σ} {is : List ι} {entry : ι × ω} (h : entry ∈ m.accepted s is) : P entry.1 entry.2 := by
  induction is generalizing s with
  | nil => cases h
  | cons i is ih =>
      rw [accepted] at h
      split at h
      · rename_i s' o hi
        rcases List.mem_cons.mp h with rfl | h
        · exact hstep s i s' o hi
        · exact ih h
      · exact ih h

theorem accepted_append (s : σ) (is js : List ι) :
    m.accepted s (is ++ js) = m.accepted s is ++ m.accepted (m.run s is) js := by
  induction is generalizing s with
  | nil => rfl
  | cons i is ih =>
      rw [List.cons_append, accepted_cons, ih, accepted_cons s i is, List.append_assoc]
      rfl

theorem filterMap_snoc {α β : Type*} (f : α → Option β) (l : List α) (x : α) :
    (l ++ [x]).filterMap f = l.filterMap f ++ (f x).toList := by
  rw [List.filterMap_append, List.filterMap_cons, List.filterMap_nil]
  cases f x <;> rfl

/-! ## Rules for runs -/

/-- What an accepted step does to log and state together holds of every run. -/
theorem run_history {H : List (ι × ω) → σ → Prop}
    (hstep : ∀ h s i s' o, H h s → m.step s i = .ok (s', o) → H (h ++ [(i, o)]) s')
    {h : List (ι × ω)} {s : σ} (h0 : H h s) (is : List ι) :
    H (h ++ m.accepted s is) (m.run s is) := by
  induction is generalizing h s with
  | nil => simpa using h0
  | cons i is ih =>
      cases hi : m.step s i with
      | ok r =>
          have h1 := ih (hstep h s i r.1 r.2 h0 hi)
          simpa [accepted, attempt, hi] using h1
      | error e => simpa [accepted, attempt, hi] using ih h0

/-- The same for a run whose steps all meet a condition. -/
theorem run_history_when {P : σ → ι → Prop} {H : List (ι × ω) → σ → Prop}
    (hstep : ∀ h s i s' o, P s i → H h s → m.step s i = .ok (s', o) → H (h ++ [(i, o)]) s')
    {h : List (ι × ω)} {s : σ} (h0 : H h s) (is : List ι) (hwhen : m.Each P s is) :
    H (h ++ m.accepted s is) (m.run s is) := by
  induction is generalizing h s with
  | nil => simpa using h0
  | cons i is ih =>
      obtain ⟨hi, hwhen⟩ := hwhen
      cases hs : m.step s i with
      | ok r =>
          rw [attempt_ok hs] at hwhen
          have h1 := ih (hstep h s i r.1 r.2 hi h0 hs) hwhen
          simpa [accepted, attempt, hs] using h1
      | error e =>
          rw [attempt_error hs] at hwhen
          simpa [accepted, attempt, hs] using ih h0 hwhen

/-- Two conditions that agree in the states with `I`, where the first keeps `I`, hold in the same runs. -/
theorem each_congr {I : σ → Prop} {P Q : σ → ι → Prop} (hiff : ∀ s i, I s → (P s i ↔ Q s i))
    (hstep : ∀ s i s' o, I s → P s i → m.step s i = .ok (s', o) → I s') {s : σ} (h0 : I s) (is : List ι) :
    m.Each P s is ↔ m.Each Q s is := by
  induction is generalizing s with
  | nil => exact Iff.rfl
  | cons i is ih =>
      have hnext (hi : P s i) : m.Each P (m.attempt s i) is ↔ m.Each Q (m.attempt s i) is := by
        apply ih
        cases hs : m.step s i with
        | ok r =>
            rw [attempt_ok hs]
            exact hstep s i r.1 r.2 h0 hi hs
        | error e =>
            rw [attempt_error hs]
            exact h0
      rw [Each, Each, ← hiff s i h0]
      exact and_congr_right hnext

/-- A condition that keeps `I`, and under `I` gives another, gives it in every run. -/
theorem each_imp {I : σ → Prop} {P Q : σ → ι → Prop} (himp : ∀ s i, I s → P s i → Q s i)
    (hstep : ∀ s i s' o, I s → P s i → m.step s i = .ok (s', o) → I s') {s : σ} (h0 : I s) {is : List ι}
    (h : m.Each P s is) : m.Each Q s is := by
  induction is generalizing s with
  | nil => trivial
  | cons i is ih =>
      obtain ⟨hi, h⟩ := h
      refine ⟨himp s i h0 hi, ih ?_ h⟩
      cases hs : m.step s i with
      | ok r =>
          rw [attempt_ok hs]
          exact hstep s i r.1 r.2 h0 hi hs
      | error e =>
          rw [attempt_error hs]
          exact h0

theorem run_invariant {I : σ → Prop}
    (hstep : ∀ s i s' o, I s → m.step s i = .ok (s', o) → I s') {s : σ} (h0 : I s) (is : List ι) :
    I (m.run s is) :=
  run_history (H := fun _ s => I s) (fun _ s i s' o h hs => hstep s i s' o h hs) (h := []) h0 is

/-- A reflexive and transitive relation kept by accepted steps from states with `I` relates the ends
of every run. -/
theorem run_relation {I : σ → Prop} {R : σ → σ → Prop}
    (hI : ∀ s i s' o, I s → m.step s i = .ok (s', o) → I s')
    (hR : ∀ s i s' o, I s → m.step s i = .ok (s', o) → R s s')
    (refl : ∀ s, R s s) (trans : ∀ a b c, R a b → R b c → R a c) {s : σ} (h0 : I s) (is : List ι) :
    R s (m.run s is) := by
  refine (run_invariant (m := m) (I := fun s' => I s' ∧ R s s') ?_ ⟨h0, refl s⟩ is).2
  intro s1 i s2 o ⟨h1, hr⟩ hs
  exact ⟨hI s1 i s2 o h1 hs, trans s s1 s2 hr (hR s1 i s2 o h1 hs)⟩

/-- What accepted steps do to time, log and state together, over a run that begins at `t0` and whose
clock readings do not decrease and are not past `now`. -/
theorem run_timed_from {τ : Type*} [Preorder τ] (time : ι → Option τ) {H : τ → List (ι × ω) → σ → Prop}
    (htime : ∀ t t' h s, t ≤ t' → H t h s → H t' h s)
    (hstep : ∀ t h s i s' o, (∀ u, time i = some u → u = t) → H t h s → m.step s i = .ok (s', o) →
      H t (h ++ [(i, o)]) s')
    {t0 : τ} {s : σ} (h0 : H t0 [] s) (is : List ι) (now : τ)
    (hclock : (t0 :: is.filterMap time ++ [now]).Pairwise (· ≤ ·)) :
    H now (m.accepted s is) (m.run s is) := by
  induction is using List.reverseRecOn generalizing now with
  | nil => exact htime t0 now [] s (List.rel_of_pairwise_cons hclock (by simp)) h0
  | append_singleton is i ih =>
      rw [accepted_append, run_append, run_cons, run_nil]
      -- the state before the last input, at that input's own time
      have hlast : ∃ t, (∀ u, time i = some u → u = t) ∧ t ≤ now ∧ H t (m.accepted s is) (m.run s is) := by
        cases hi : time i with
        | none => exact ⟨now, by simp, le_refl now, ih now (by simpa [hi] using hclock)⟩
        | some u =>
            have hc : ((t0 :: is.filterMap time) ++ ([u] ++ [now])).Pairwise (· ≤ ·) := by
              simpa [hi] using hclock
            refine ⟨u, by simp [eq_comm], ?_, ih u ?_⟩
            · exact List.rel_of_pairwise_cons (List.pairwise_append.mp hc).2.1 (by simp)
            · exact hc.sublist (by simp)
      obtain ⟨t, hi, hle, ht⟩ := hlast
      refine htime t now _ _ hle ?_
      cases hs : m.step (m.run s is) i with
      | ok r => simpa [accepted, attempt, hs] using hstep t _ _ i r.1 r.2 hi ht hs
      | error e => simpa [accepted, attempt, hs] using ht

/-- The same where the start has no time of its own. -/
theorem run_timed {τ : Type*} [Preorder τ] (time : ι → Option τ) {H : τ → List (ι × ω) → σ → Prop}
    (htime : ∀ t t' h s, t ≤ t' → H t h s → H t' h s)
    (hstep : ∀ t h s i s' o, (∀ u, time i = some u → u = t) → H t h s → m.step s i = .ok (s', o) →
      H t (h ++ [(i, o)]) s')
    {s : σ} (h0 : ∀ t, H t [] s) (is : List ι) (now : τ)
    (hclock : (is.filterMap time ++ [now]).Pairwise (· ≤ ·)) :
    H now (m.accepted s is) (m.run s is) := by
  cases hreadings : is.filterMap time with
  | nil => exact run_timed_from time htime hstep (h0 now) is now (by simp [hreadings])
  | cons t ts =>
      refine run_timed_from time htime hstep (h0 t) is now ?_
      rw [hreadings, List.cons_append] at hclock
      rw [hreadings, List.cons_append, List.cons_append, List.pairwise_cons]
      refine ⟨fun u hu => ?_, hclock⟩
      rcases List.mem_cons.mp hu with rfl | hu
      · exact le_refl u
      · exact List.rel_of_pairwise_cons hclock hu

theorem Reach.refl (s : σ) : m.Reach s s := ⟨[], rfl⟩

theorem Reach.step {s s1 s2 : σ} {i : ι} {o : ω} (h : m.Reach s s1) (hs : m.step s1 i = .ok (s2, o)) :
    m.Reach s s2 := by
  obtain ⟨is, rfl⟩ := h
  exact ⟨is ++ [i], by rw [run_append, run_cons, run_nil, attempt_ok hs]⟩

end Machine

end BullsUnicorns
