import BullsUnicorns.Lib.Stringify
import BullsUnicorns.Lib.Whole

/-!
# Numbers of six decimals

`+x.toFixed(6)`, and how the number that comes out is printed.
-/

namespace BullsUnicorns.Number

/-- `+x.toFixed(6)`, in millionths: the nearest one, of two the one further from zero. A double from `10 ^ 21` on
is whole, so there is nothing to round. -/
def millionths (x : ℚ) : ℤ := if x < 0 then -⌊-x * 10 ^ 6 + 1 / 2⌋ else ⌊x * 10 ^ 6 + 1 / 2⌋

/-- Six digits after the point, without the zeros at their end. -/
def fraction (r : ℕ) : List Char :=
  if r = 0 then [] else '.' :: ((Nat.toDigits 10 r).leftpad 6 '0').rdropWhile (· == '0')

/-- A number of millionths as it is printed: from `10 ^ 21` on with an exponent. -/
def printAbs (m : ℕ) : List Char :=
  let digits := Nat.toDigits 10 m
  if m < 10 ^ 27 then Nat.toDigits 10 (m / 10 ^ 6) ++ fraction (m % 10 ^ 6)
  else mantissa (digits.rdropWhile (· == '0')) ++ 'e' :: '+' :: Nat.toDigits 10 (digits.length - 7)

def printMillionths (n : ℤ) : List Char := if n < 0 then '-' :: printAbs n.natAbs else printAbs n.natAbs

example : printMillionths (millionths (-201 / 40)) = "-5.025".toList := by decide +kernel

theorem isDigit_toDigits {m : ℕ} {c : Char} (h : c ∈ Nat.toDigits 10 m) : c.isDigit = true :=
  Nat.isDigit_of_mem_toDigits (by decide) (by decide) h

theorem length_toDigits_le {m k : ℕ} (hk : 0 < k) (h : m < 10 ^ k) : (Nat.toDigits 10 m).length ≤ k :=
  Nat.toDigits_length 10 m k hk h

theorem isDigit_fraction {r : ℕ} {c : Char} (h : c ∈ fraction r) : c.isDigit = true ∨ c = '.' := by
  rw [fraction] at h
  split at h
  · cases h
  · rcases List.mem_cons.mp h with rfl | h
    · exact Or.inr rfl
    · have h := (List.rdropWhile_prefix _ _).subset h
      rw [List.leftpad, List.mem_append] at h
      rcases h with h | h
      · rw [List.eq_of_mem_replicate h]
        exact Or.inl rfl
      · exact Or.inl (isDigit_toDigits h)

theorem fraction_inj {r r' : ℕ} (hr : r < 10 ^ 6) (hr' : r' < 10 ^ 6) (h : fraction r = fraction r') : r = r' := by
  have hlength : ∀ {r : ℕ}, r < 10 ^ 6 → ((Nat.toDigits 10 r).leftpad 6 '0').length = 6 := by
    intro r hr
    rw [List.length_leftpad, max_eq_left (length_toDigits_le (by norm_num) hr)]
  rw [fraction, fraction] at h
  split at h <;> split at h
  · omega
  · cases h
  · cases h
  · have hpad := rdropWhile_zeros_inj ((hlength hr).trans (hlength hr').symm) (List.cons.inj h).2
    exact Text.padded_inj (by rw [Text.padded, Text.padded, hpad])

theorem mem_printAbs {m : ℕ} {c : Char} (h : c ∈ printAbs m) : c.isDigit = true ∨ c ∈ ['.', 'e', '+'] := by
  simp only [printAbs] at h
  split at h
  · rcases List.mem_append.mp h with h | h
    · exact Or.inl (isDigit_toDigits h)
    · exact (isDigit_fraction h).imp_right fun heq => by simp [heq]
  · simp only [List.mem_append, List.mem_cons, List.not_mem_nil, or_false] at h ⊢
    rcases h with h | rfl | rfl | h
    · rcases mem_mantissa h with h | rfl
      · exact Or.inl (isDigit_toDigits ((List.rdropWhile_prefix _ _).subset h))
      · exact Or.inr (Or.inl rfl)
    · exact Or.inr (Or.inr (Or.inl rfl))
    · exact Or.inr (Or.inr (Or.inr rfl))
    · exact Or.inl (isDigit_toDigits h)

theorem e_notMem_plain (m : ℕ) : 'e' ∉ Nat.toDigits 10 (m / 10 ^ 6) ++ fraction (m % 10 ^ 6) := by
  intro h
  rcases List.mem_append.mp h with h | h
  · exact e_notMem_toDigits _ h
  · rcases isDigit_fraction h with h | h <;> cases h

/-- Whole part and fraction meet at the point. -/
theorem plain_inj {m m' : ℕ} (h : Nat.toDigits 10 (m / 10 ^ 6) ++ fraction (m % 10 ^ 6) =
    Nat.toDigits 10 (m' / 10 ^ 6) ++ fraction (m' % 10 ^ 6)) : m = m' := by
  have hpoint : ∀ k : ℕ, '.' ∉ Nat.toDigits 10 k := fun k hk => absurd (isDigit_toDigits hk) (by decide)
  have hcases : ∀ r : ℕ, r = 0 ∧ fraction r = [] ∨ ∃ digits, fraction r = '.' :: digits := by
    intro r
    by_cases hr : r = 0
    · exact Or.inl ⟨hr, by rw [fraction, if_pos hr]⟩
    · exact Or.inr ⟨_, by rw [fraction, if_neg hr]⟩
  have hparts : m / 10 ^ 6 = m' / 10 ^ 6 ∧ fraction (m % 10 ^ 6) = fraction (m' % 10 ^ 6) := by
    rcases hcases (m % 10 ^ 6) with ⟨-, hr⟩ | ⟨digits, hr⟩ <;>
      rcases hcases (m' % 10 ^ 6) with ⟨-, hr'⟩ | ⟨digits', hr'⟩ <;> rw [hr, hr'] at h ⊢
    case inl.inl => exact ⟨toDigits_injective (by simpa using h), rfl⟩
    case inl.inr => exact absurd (by simpa using congrArg ('.' ∈ ·) h) (hpoint (m / 10 ^ 6))
    case inr.inl => exact absurd (by simpa using congrArg ('.' ∈ ·) h) (hpoint (m' / 10 ^ 6))
    case inr.inr =>
      obtain ⟨hwhole, hdigits⟩ := Delimit.before_sep_inj (hpoint _) (hpoint _) h
      exact ⟨toDigits_injective hwhole, by rw [hdigits]⟩
  have hrest := fraction_inj (Nat.mod_lt m (by norm_num)) (Nat.mod_lt m' (by norm_num)) hparts.2
  omega

theorem printAbs_injective : Function.Injective printAbs := by
  intro m m' h
  simp only [printAbs] at h
  split at h <;> split at h
  · exact plain_inj h
  · exact absurd (h ▸ List.mem_append_right _ List.mem_cons_self) (e_notMem_plain m)
  · exact absurd (h.symm ▸ List.mem_append_right _ List.mem_cons_self) (e_notMem_plain m')
  · rename_i hm hm'
    have hlong : ∀ k : ℕ, ¬k < 10 ^ 27 → 27 < (Nat.toDigits 10 k).length := fun k hk =>
      not_le.mp fun hle => hk ((Nat.length_toDigits_le_iff (by norm_num) (by norm_num)).mp hle)
    have hm := hlong m hm
    have hm' := hlong m' hm'
    obtain ⟨hmantissa, hexponent⟩ := Delimit.before_sep_inj (e_notMem_mantissa m) (e_notMem_mantissa m') h
    have hlength := toDigits_injective (List.tail_eq_of_cons_eq hexponent)
    exact toDigits_injective (rdropWhile_zeros_inj (by omega) (mantissa_injective hmantissa))

theorem mem_printMillionths {n : ℤ} {c : Char} (h : c ∈ printMillionths n) :
    c.isDigit = true ∨ c ∈ ['.', 'e', '+', '-'] := by
  have habs : c ∈ printAbs n.natAbs → c.isDigit = true ∨ c ∈ ['.', 'e', '+', '-'] := fun h =>
    (mem_printAbs h).imp_right fun h => List.mem_append_left ['-'] h
  rw [printMillionths] at h
  split at h
  · rcases List.mem_cons.mp h with rfl | h
    · exact Or.inr (by decide)
    · exact habs h
  · exact habs h

theorem printMillionths_injective : Function.Injective printMillionths := by
  intro n n' h
  have hsign : ∀ m : ℕ, '-' ∉ printAbs m := by
    intro m hm
    rcases mem_printAbs hm with h | h
    · cases h
    · revert h
      decide
  rw [printMillionths, printMillionths] at h
  split at h <;> split at h
  · have habs := printAbs_injective (List.cons.inj h).2
    omega
  · exact absurd (h ▸ List.mem_cons_self) (hsign n'.natAbs)
  · exact absurd (h.symm ▸ List.mem_cons_self) (hsign n.natAbs)
  · have habs := printAbs_injective h
    omega

theorem printAbs_ne_nil (m : ℕ) : printAbs m ≠ [] := by
  simp only [printAbs]
  split
  · have hpos : 0 < (Nat.toDigits 10 (m / 10 ^ 6)).length := Nat.length_toDigits_pos
    exact List.append_ne_nil_of_left_ne_nil (List.ne_nil_of_length_pos hpos) _
  · simp

theorem printMillionths_ne_nil (n : ℤ) : printMillionths n ≠ [] := by
  rw [printMillionths]
  split
  · exact List.cons_ne_nil _ _
  · exact printAbs_ne_nil _

/-- Numbers of six decimals inside a value. -/
def decimals : Printer ℤ where
  print := printMillionths
  injective := printMillionths_injective
  nonempty := printMillionths_ne_nil
  clean := by
    intro n c hc hmark
    rcases mem_printMillionths hc with h | h
    · revert h
      fin_cases hmark <;> decide
    · revert h
      fin_cases hmark <;> decide

/-! ## Exact numbers -/

def printInt (n : ℤ) : List Char := if n < 0 then '-' :: Nat.toDigits 10 n.natAbs else Nat.toDigits 10 n.natAbs

/-- A whole number as it is, any other as a quotient. -/
def printQuotient (x : ℚ) : List Char := printInt x.num ++ if x.den = 1 then [] else '/' :: Nat.toDigits 10 x.den

theorem mem_printInt {n : ℤ} {c : Char} (h : c ∈ printInt n) : c.isDigit = true ∨ c = '-' := by
  rw [printInt] at h
  split at h
  · rcases List.mem_cons.mp h with rfl | h
    · exact Or.inr rfl
    · exact Or.inl (isDigit_toDigits h)
  · exact Or.inl (isDigit_toDigits h)

theorem printInt_injective : Function.Injective printInt := by
  intro n n' h
  have hsign : ∀ m : ℕ, '-' ∉ Nat.toDigits 10 m := fun m hm => absurd (isDigit_toDigits hm) (by decide)
  rw [printInt, printInt] at h
  split at h <;> split at h
  · have habs := toDigits_injective (List.cons.inj h).2
    omega
  · exact absurd (h ▸ List.mem_cons_self) (hsign n'.natAbs)
  · exact absurd (h.symm ▸ List.mem_cons_self) (hsign n.natAbs)
  · have habs := toDigits_injective h
    omega

theorem printQuotient_injective : Function.Injective printQuotient := by
  intro x y h
  have hbar : ∀ n : ℤ, '/' ∉ printInt n := by
    intro n hn
    rcases mem_printInt hn with h | h <;> cases h
  rw [printQuotient, printQuotient] at h
  split at h <;> split at h
  case isTrue.isTrue hx hy =>
    rw [List.append_nil, List.append_nil] at h
    exact Rat.ext (printInt_injective h) (hx.trans hy.symm)
  case isTrue.isFalse =>
    rw [List.append_nil] at h
    exact absurd (h ▸ List.mem_append_right _ List.mem_cons_self) (hbar x.num)
  case isFalse.isTrue =>
    rw [List.append_nil] at h
    exact absurd (h.symm ▸ List.mem_append_right _ List.mem_cons_self) (hbar y.num)
  case isFalse.isFalse =>
    obtain ⟨hnum, hden⟩ := Delimit.before_sep_inj (hbar x.num) (hbar y.num) h
    exact Rat.ext (printInt_injective hnum) (toDigits_injective hden)

/-- Exact numbers inside a value. -/
def quotients : Printer ℚ where
  print := printQuotient
  injective := printQuotient_injective
  nonempty := by
    intro x
    have hpos : ∀ m : ℕ, Nat.toDigits 10 m ≠ [] := fun m =>
      List.ne_nil_of_length_pos (Nat.length_toDigits_pos : 0 < (Nat.toDigits 10 m).length)
    refine List.append_ne_nil_of_left_ne_nil ?_ _
    rw [printInt]
    split
    · exact List.cons_ne_nil _ _
    · exact hpos _
  clean := by
    intro x c hc hmark
    rw [printQuotient] at hc
    have hkind : c.isDigit = true ∨ c = '-' ∨ c = '/' := by
      rcases List.mem_append.mp hc with h | h
      · exact (mem_printInt h).imp_right Or.inl
      · split at h
        · cases h
        · rcases List.mem_cons.mp h with rfl | h
          · exact Or.inr (Or.inr rfl)
          · exact Or.inl (isDigit_toDigits h)
    revert hkind
    fin_cases hmark <;> decide

end BullsUnicorns.Number
