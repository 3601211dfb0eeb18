import Mathlib.Tactic

/-!
# Words, and computations that may fail
-/

/-!
## Guarded computations that may fail

A handler checks its guards one after another and stops at the first that fails. The lemmas read off
what a handler that succeeded has checked and computed.
-/

namespace BullsUnicorns

universe u v

variable {ε : Type u} {α β : Type v}

/-- Stop with `e` unless `c` holds. -/
def require (c : Prop) [Decidable c] (e : ε) : Except ε Unit := if c then .ok () else .error e

/-- The value of an option, or the error `e`. -/
def okOr (o : Option α) (e : ε) : Except ε α :=
  match o with
  | some a => .ok a
  | none => .error e

theorem bind_eq_ok {x : Except ε α} {f : α → Except ε β} {b : β} :
    (x >>= f) = .ok b ↔ ∃ a, x = .ok a ∧ f a = .ok b := by
  cases x with
  | ok a => simp [bind, Except.bind]
  | error e => simp [bind, Except.bind]

theorem bind_eq_error {x : Except ε α} {f : α → Except ε β} {e : ε} :
    (x >>= f) = .error e ↔ x = .error e ∨ ∃ a, x = .ok a ∧ f a = .error e := by
  cases x with
  | ok a => simp [bind, Except.bind]
  | error e => simp [bind, Except.bind]

@[simp]
theorem ok_bind (a : α) (f : α → Except ε β) : (Except.ok a >>= f) = f a := rfl

@[simp]
theorem require_eq_ok {c : Prop} [Decidable c] {e : ε} {u : Unit} : require c e = .ok u ↔ c := by
  simp [require]

@[simp]
theorem require_eq_error {c : Prop} [Decidable c] {e e' : ε} :
    require c e = .error e' ↔ ¬ c ∧ e = e' := by
  by_cases hc : c <;> simp [require, hc]

@[simp]
theorem okOr_eq_ok {o : Option α} {e : ε} {a : α} : okOr o e = .ok a ↔ o = some a := by
  cases o <;> simp [okOr]

@[simp]
theorem okOr_eq_error {o : Option α} {e e' : ε} : okOr o e = .error e' ↔ o = none ∧ e = e' := by
  cases o <;> simp [okOr]

@[simp]
theorem okOr_some (a : α) (e : ε) : okOr (some a) e = .ok a := rfl

theorem isOk_iff {x : Except ε α} : x.isOk = true ↔ ∃ a, x = .ok a := by
  cases x <;> simp [Except.isOk, Except.toBool]

end BullsUnicorns

/-!
## Fixed-width integer arithmetic over the naturals

A word of `w` bits is a natural number below `2 ^ w`. The checked operations answer `none` when the
exact result does not fit; the saturating ones clip it. Signed words are integers, clipped at both
ends.
-/

namespace BullsUnicorns.Word

def maxVal (w : ℕ) : ℕ := 2 ^ w - 1

/-- `checked_add`: `none` when the sum does not fit. -/
def checkedAdd (w a b : ℕ) : Option ℕ := if a + b < 2 ^ w then some (a + b) else none

def checkedSub (a b : ℕ) : Option ℕ := if b ≤ a then some (a - b) else none

def satAdd (w a b : ℕ) : ℕ := min (a + b) (maxVal w)

def satSub (a b : ℕ) : ℕ := a - b

def satMul (w a b : ℕ) : ℕ := min (a * b) (maxVal w)

/-- A narrowing cast to `w` bits: the low bits are kept. -/
def narrow (w a : ℕ) : ℕ := a % 2 ^ w

/-- The signed value nearest to `a` among the words of `w` bits. -/
def clampSigned (w : ℕ) (a : ℤ) : ℤ := max (-(2 ^ (w - 1))) (min a (2 ^ (w - 1) - 1))

def satAddSigned (w : ℕ) (a b : ℤ) : ℤ := clampSigned w (a + b)

def satSubSigned (w : ℕ) (a b : ℤ) : ℤ := clampSigned w (a - b)

/-! ## Checked operations -/

@[simp]
theorem checkedAdd_eq_some {w a b c : ℕ} : checkedAdd w a b = some c ↔ a + b < 2 ^ w ∧ a + b = c := by
  simp [checkedAdd]

theorem checkedAdd_eq_none {w a b : ℕ} : checkedAdd w a b = none ↔ 2 ^ w ≤ a + b := by
  simp [checkedAdd]

theorem checkedAdd_of_lt {w a b : ℕ} (h : a + b < 2 ^ w) : checkedAdd w a b = some (a + b) := by
  simp [h]

theorem checkedSub_of_le {a b : ℕ} (h : b ≤ a) : checkedSub a b = some (a - b) := by
  simp [checkedSub, h]

/-! ## Saturating operations are exact on results that fit -/

theorem satAdd_of_lt {w a b : ℕ} (h : a + b < 2 ^ w) : satAdd w a b = a + b := by
  simp only [satAdd, maxVal]; omega

theorem satMul_of_lt {w a b : ℕ} (h : a * b < 2 ^ w) : satMul w a b = a * b := by
  simp only [satMul, maxVal]; omega

theorem satMul_le (w a b : ℕ) : satMul w a b ≤ a * b := Nat.min_le_left _ _

theorem narrow_of_lt {w a : ℕ} (h : a < 2 ^ w) : narrow w a = a := Nat.mod_eq_of_lt h

theorem clampSigned_mono {w : ℕ} {a b : ℤ} (h : a ≤ b) : clampSigned w a ≤ clampSigned w b := by
  simp only [clampSigned]; omega

end BullsUnicorns.Word
