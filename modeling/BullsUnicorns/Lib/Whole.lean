import BullsUnicorns.Lib.Text
import Mathlib.Data.List.DropRight

/-!
# Whole doubles and their texts

A whole number that is a double, and what `String` writes for it: the fewest digits that round to the
number, plain up to 21 digits and with an exponent beyond. The text is read back to the number.
A double has 53 significant bits. A whole number is stored as the nearest one that fits, and of two
equally near ones as the one whose last kept bit is 0. Below `2 ^ 53` everything fits, and counting up
by one gets no further than there.
-/

namespace BullsUnicorns

namespace Number

/-! ## The nearest double -/

/-- The multiple of `u` nearest to `x`, on a tie the even one. -/
def roundHalfEven (x u : ℕ) : ℕ :=
  if u < 2 * (x % u) ∨ 2 * (x % u) = u ∧ x / u % 2 = 1 then (x / u + 1) * u else x / u * u

/-- The double nearest to `x`. -/
def ofNat (x : ℕ) : ℕ := roundHalfEven x (2 ^ (Nat.log2 x - 52))

/-- The double nearest to a signed whole number. -/
def ofInt (x : ℤ) : ℤ := x.sign * ofNat x.natAbs

@[simp]
theorem roundHalfEven_one (x : ℕ) : roundHalfEven x 1 = x := by
  simp [roundHalfEven, Nat.mod_one]

theorem ofNat_of_lt {x : ℕ} (h : x < 2 ^ 53) : ofNat x = x := by
  have hlog : Nat.log2 x ≤ 52 := by
    rcases Nat.eq_zero_or_pos x with rfl | hx
    · decide
    · have := (Nat.log2_lt hx.ne').mpr h
      omega
  rw [ofNat, Nat.sub_eq_zero_of_le hlog, Nat.pow_zero, roundHalfEven_one]

theorem ofNat_limit : ofNat (2 ^ 53) = 2 ^ 53 := by decide +kernel

theorem ofNat_of_le {x : ℕ} (h : x ≤ 2 ^ 53) : ofNat x = x := by
  rcases Nat.lt_or_eq_of_le h with hlt | rfl
  · exact ofNat_of_lt hlt
  · exact ofNat_limit

theorem ofNat_limit_succ : ofNat (2 ^ 53 + 1) = 2 ^ 53 := by decide +kernel

/-- Counting up never passes `2 ^ 53`. -/
theorem ofNat_succ_le {x : ℕ} (h : x ≤ 2 ^ 53) : ofNat (x + 1) ≤ 2 ^ 53 := by
  rcases Nat.lt_or_eq_of_le h with hlt | rfl
  · rw [ofNat_of_le hlt]; exact hlt
  · exact ofNat_limit_succ.le

/-! ## Rounding once is enough -/

theorem roundHalfEven_of_dvd {x u : ℕ} (hu : 0 < u) (h : u ∣ x) : roundHalfEven x u = x := by
  rw [roundHalfEven, Nat.mod_eq_zero_of_dvd h, if_neg (by omega), Nat.div_mul_cancel h]

/-- A rounded number is a multiple of the unit between the two nearest. -/
theorem roundHalfEven_eq (x u : ℕ) : roundHalfEven x u = x / u * u ∨ roundHalfEven x u = (x / u + 1) * u := by
  rw [roundHalfEven]
  split
  · exact Or.inr rfl
  · exact Or.inl rfl

theorem log2_le_of_lt {x n : ℕ} (h : x < 2 ^ (n + 1)) : Nat.log2 x ≤ n := by
  rcases Nat.eq_zero_or_pos x with rfl | hx
  · simp
  · have := (Nat.log2_lt hx.ne').mpr h
    omega

/-- What has at most 53 significant bits is a double. -/
theorem ofNat_mul_pow {k e : ℕ} (h : k ≤ 2 ^ 53) : ofNat (k * 2 ^ e) = k * 2 ^ e := by
  apply roundHalfEven_of_dvd (Nat.two_pow_pos _)
  rcases Nat.lt_or_eq_of_le h with hlt | rfl
  · have hlog : Nat.log2 (k * 2 ^ e) ≤ 52 + e := by
      apply log2_le_of_lt
      rw [show 52 + e + 1 = 53 + e by omega, pow_add]
      exact Nat.mul_lt_mul_of_pos_right hlt (Nat.two_pow_pos e)
    exact Dvd.dvd.mul_left (Nat.pow_dvd_pow 2 (by omega)) k
  · rw [← pow_add]
    apply Nat.pow_dvd_pow
    rw [Nat.log2_two_pow]
    omega

theorem ofNat_significant (x : ℕ) : ∃ k e : ℕ, k ≤ 2 ^ 53 ∧ ofNat x = k * 2 ^ e := by
  have hlt : x / 2 ^ (Nat.log2 x - 52) < 2 ^ 53 := by
    rw [Nat.div_lt_iff_lt_mul (Nat.two_pow_pos _), ← pow_add]
    exact lt_of_lt_of_le Nat.lt_log2_self (Nat.pow_le_pow_right (by decide) (by omega))
  rcases roundHalfEven_eq x (2 ^ (Nat.log2 x - 52)) with h | h
  · exact ⟨_, _, hlt.le, h⟩
  · exact ⟨_, _, hlt, h⟩

@[simp]
theorem ofNat_ofNat (x : ℕ) : ofNat (ofNat x) = ofNat x := by
  obtain ⟨k, e, hk, h⟩ := ofNat_significant x
  rw [h, ofNat_mul_pow hk]

/-- Rounding does not pass `2 ^ 53` from above. -/
theorem le_ofNat {x : ℕ} (h : 2 ^ 53 ≤ x) : 2 ^ 53 ≤ ofNat x := by
  have hx : x ≠ 0 := by
    have := Nat.two_pow_pos 53
    omega
  have hlog : 53 ≤ Nat.log2 x := (Nat.le_log2 hx).mpr h
  have hquotient : 2 ^ 52 ≤ x / 2 ^ (Nat.log2 x - 52) := by
    rw [Nat.le_div_iff_mul_le (Nat.two_pow_pos _), ← pow_add, show 52 + (Nat.log2 x - 52) = Nat.log2 x by omega]
    exact Nat.log2_self_le hx
  have hfloor : 2 ^ 53 ≤ x / 2 ^ (Nat.log2 x - 52) * 2 ^ (Nat.log2 x - 52) := by
    calc 2 ^ 53 = 2 ^ 52 * 2 ^ 1 := by norm_num
      _ ≤ x / 2 ^ (Nat.log2 x - 52) * 2 ^ (Nat.log2 x - 52) :=
        Nat.mul_le_mul hquotient (Nat.pow_le_pow_right (by decide) (by omega))
  rcases roundHalfEven_eq x (2 ^ (Nat.log2 x - 52)) with h | h
  · rw [ofNat, h]
    exact hfloor
  · rw [ofNat, h]
    exact hfloor.trans (Nat.mul_le_mul_right _ (Nat.le_succ _))

theorem ofInt_natCast (x : ℕ) : ofInt x = ofNat x := by
  rcases Nat.eq_zero_or_pos x with rfl | hx
  · rfl
  · rw [ofInt, Int.sign_eq_one_of_pos (by exact_mod_cast hx), one_mul, Int.natAbs_natCast]

theorem ofInt_neg (x : ℤ) : ofInt (-x) = -ofInt x := by
  rw [ofInt, ofInt, Int.sign_neg, Int.natAbs_neg, neg_mul]

@[simp]
theorem ofInt_ofInt (x : ℤ) : ofInt (ofInt x) = ofInt x := by
  obtain ⟨n, rfl | rfl⟩ := Int.eq_nat_or_neg x
  · rw [ofInt_natCast, ofInt_natCast, ofNat_ofNat]
  · rw [ofInt_neg, ofInt_natCast, ofInt_neg, ofInt_natCast, ofNat_ofNat]

theorem ofInt_of_natAbs_le {x : ℤ} (h : x.natAbs ≤ 2 ^ 53) : ofInt x = x := by
  obtain ⟨n, rfl | rfl⟩ := Int.eq_nat_or_neg x
  · rw [ofInt_natCast, ofNat_of_le (by simpa using h)]
  · rw [ofInt_neg, ofInt_natCast, ofNat_of_le (by simpa using h)]

/-- A sum that was rounded compares with an exact number as the sum itself. -/
theorem ofInt_lt_iff {x a : ℤ} (h : a.natAbs < 2 ^ 53) : ofInt x < a ↔ x < a := by
  by_cases hx : x.natAbs ≤ 2 ^ 53
  · rw [ofInt_of_natAbs_le hx]
  · obtain ⟨n, rfl | rfl⟩ := Int.eq_nat_or_neg x
    · have hle := le_ofNat (x := n) (by simpa using (not_le.mp hx).le)
      rw [ofInt_natCast]
      rw [Int.natAbs_natCast] at hx
      omega
    · have hle := le_ofNat (x := n) (by simpa using (not_le.mp hx).le)
      rw [ofInt_neg, ofInt_natCast]
      rw [Int.natAbs_neg, Int.natAbs_natCast] at hx
      omega

end Number

/-! ## Digits -/

namespace Number

/-- The multiples of `u` next to `x`, a nearest one first. -/
def around (x u : ℕ) : List ℕ := [roundHalfEven x u, x / u * u, (x / u + 1) * u]

/-- Of the numbers that round to the double `x`, one with the fewest digits before its zeros. -/
def shortest (x : ℕ) : ℕ :=
  ((List.range ((Nat.toDigits 10 x).length + 1)).reverse.findSome? fun zeros =>
    (around x (10 ^ zeros)).find? fun m => ofNat m == x).getD x

/-- The leading digit, and after a point the others. -/
def mantissa : List Char → List Char
  | d :: f :: rest => d :: '.' :: f :: rest
  | digits => digits

/-- Digits as they are printed: from `10 ^ 21` on with an exponent. -/
def print (m : ℕ) : List Char :=
  let digits := Nat.toDigits 10 m
  if digits.length ≤ 21 then digits
  else mantissa (digits.rdropWhile (· == '0')) ++ 'e' :: '+' :: Nat.toDigits 10 (digits.length - 1)

example : print (shortest 99999999999999991611392) = ['1', 'e', '+', '2', '3'] := by decide +kernel

theorem ofNat_shortest {x : ℕ} (h : ofNat x = x) : ofNat (shortest x) = x := by
  rw [shortest]
  cases hfound : (List.range ((Nat.toDigits 10 x).length + 1)).reverse.findSome? fun zeros =>
      (around x (10 ^ zeros)).find? fun m => ofNat m == x with
  | none => exact h
  | some m =>
      obtain ⟨zeros, -, hm⟩ := List.exists_of_findSome?_eq_some hfound
      simpa using List.find?_some hm

theorem mantissa_injective : Function.Injective mantissa := by
  intro l l' h
  match l, l' with
  | [], [] => rfl
  | [], [_] => simp [mantissa] at h
  | [], _ :: _ :: _ => simp [mantissa] at h
  | [_], [] => simp [mantissa] at h
  | [_], [_] => exact h
  | [_], _ :: _ :: _ => simp [mantissa] at h
  | _ :: _ :: _, [] => simp [mantissa] at h
  | _ :: _ :: _, [_] => simp [mantissa] at h
  | _ :: _ :: _, _ :: _ :: _ => simpa [mantissa] using h

theorem mem_mantissa {l : List Char} {c : Char} (h : c ∈ mantissa l) : c ∈ l ∨ c = '.' := by
  match l with
  | [] => exact Or.inl h
  | [_] => exact Or.inl h
  | _ :: _ :: _ =>
      simp only [mantissa, List.mem_cons] at h ⊢
      tauto

theorem toDigits_injective : Function.Injective (Nat.toDigits 10) := by
  intro m m' h
  have h := congrArg (fun l => Nat.ofDigitChars 10 l 0) h
  simpa using h

theorem e_notMem_toDigits (m : ℕ) : 'e' ∉ Nat.toDigits 10 m := fun h =>
  absurd (Nat.isDigit_of_mem_toDigits (by decide) (by decide) h) (by decide)

theorem e_notMem_mantissa (m : ℕ) : 'e' ∉ mantissa ((Nat.toDigits 10 m).rdropWhile (· == '0')) := by
  intro h
  rcases mem_mantissa h with h | h
  · exact e_notMem_toDigits m ((List.rdropWhile_prefix _ _).subset h)
  · cases h

/-- Digits that end in zeros are known from the rest and their number. -/
theorem rdropWhile_zeros_inj {l l' : List Char} (hlength : l.length = l'.length)
    (h : l.rdropWhile (· == '0') = l'.rdropWhile (· == '0')) : l = l' := by
  have hzeros : ∀ l : List Char,
      l = l.rdropWhile (· == '0') ++ List.replicate (l.length - (l.rdropWhile (· == '0')).length) '0' := by
    intro l
    have hsplit := List.rdropWhile_append_rtakeWhile (p := (· == '0')) (l := l)
    have hlen := congrArg List.length hsplit
    rw [List.length_append] at hlen
    have htail : l.rtakeWhile (· == '0') = List.replicate (l.rtakeWhile (· == '0')).length '0' := by
      rw [List.eq_replicate_iff]
      exact ⟨rfl, fun c hc => by simpa using List.mem_rtakeWhile_imp hc⟩
    rw [show l.length - (l.rdropWhile (· == '0')).length = (l.rtakeWhile (· == '0')).length by omega, ← htail,
      hsplit]
  rw [hzeros l, hzeros l', hlength, h]

theorem mem_print {m : ℕ} {c : Char} (h : c ∈ print m) : c.isDigit = true ∨ c ∈ ['.', 'e', '+'] := by
  have hdigit : ∀ m : ℕ, c ∈ Nat.toDigits 10 m → c.isDigit = true := fun m hc =>
    Nat.isDigit_of_mem_toDigits (by decide) (by decide) hc
  simp only [print] at h
  split at h
  · exact Or.inl (hdigit m h)
  · simp only [List.mem_append, List.mem_cons, List.not_mem_nil, or_false] at h ⊢
    rcases h with h | rfl | rfl | h
    · rcases mem_mantissa h with h | rfl
      · exact Or.inl (hdigit m ((List.rdropWhile_prefix _ _).subset h))
      · exact Or.inr (Or.inl rfl)
    · exact Or.inr (Or.inr (Or.inl rfl))
    · exact Or.inr (Or.inr (Or.inr rfl))
    · exact Or.inl (hdigit _ h)

theorem print_injective : Function.Injective print := by
  intro m m' h
  have hpos : ∀ m : ℕ, 0 < (Nat.toDigits 10 m).length := fun m => Nat.length_toDigits_pos
  have hm := hpos m
  have hm' := hpos m'
  simp only [print] at h
  split at h <;> split at h
  · exact toDigits_injective h
  · exact absurd (h ▸ List.mem_append_right _ List.mem_cons_self) (e_notMem_toDigits m)
  · exact absurd (h.symm ▸ List.mem_append_right _ List.mem_cons_self) (e_notMem_toDigits m')
  · obtain ⟨hmantissa, hexponent⟩ := Delimit.before_sep_inj (e_notMem_mantissa m) (e_notMem_mantissa m') h
    have hlength := toDigits_injective (List.tail_eq_of_cons_eq hexponent)
    exact toDigits_injective (rdropWhile_zeros_inj (by omega) (mantissa_injective hmantissa))

end Number

/-! ## Whole doubles -/

/-- A whole number that a double holds. -/
structure Whole where
  val : ℤ
  stored : Number.ofInt val = val
deriving DecidableEq

namespace Whole

/-- The double nearest to a whole number. -/
def nearest (x : ℤ) : Whole := ⟨Number.ofInt x, Number.ofInt_ofInt x⟩

/-- `String(n)`. -/
def toText (n : Whole) : String :=
  String.ofList ((if n.val < 0 then ['-'] else []) ++ Number.print (Number.shortest n.val.natAbs))

@[ext]
theorem ext {m n : Whole} (h : m.val = n.val) : m = n := by
  cases m
  cases n
  cases h
  rfl

theorem nearest_val {x : ℤ} (h : x.natAbs ≤ 2 ^ 53) : (nearest x).val = x := Number.ofInt_of_natAbs_le h

theorem stored_natAbs (n : Whole) : Number.ofNat n.val.natAbs = n.val.natAbs := by
  obtain ⟨x, h⟩ := n
  obtain ⟨k, rfl | rfl⟩ := Int.eq_nat_or_neg x
  · rw [Number.ofInt_natCast] at h
    rw [Int.natAbs_natCast]
    exact_mod_cast h
  · rw [Number.ofInt_neg, Number.ofInt_natCast] at h
    rw [Int.natAbs_neg, Int.natAbs_natCast]
    exact_mod_cast neg_inj.mp h

/-- The text of a number is read back to it. -/
theorem toText_injective : Function.Injective toText := by
  intro m n h
  have hminus : ∀ k : ℕ, '-' ∉ Number.print k := by
    intro k hmem
    rcases Number.mem_print hmem with h | h
    · exact absurd h (by decide)
    · exact absurd h (by decide)
  have habs : ∀ m n : Whole, Number.print (Number.shortest m.val.natAbs) =
      Number.print (Number.shortest n.val.natAbs) → m.val.natAbs = n.val.natAbs := by
    intro m n h
    rw [← Number.ofNat_shortest m.stored_natAbs, Number.print_injective h, Number.ofNat_shortest n.stored_natAbs]
  have h := String.ofList_injective h
  apply ext
  split at h <;> split at h
  · have := habs m n (List.append_cancel_left h)
    omega
  · exact absurd (h ▸ List.mem_append_left _ List.mem_cons_self) (hminus _)
  · exact absurd (h.symm ▸ List.mem_append_left _ List.mem_cons_self) (hminus _)
  · have := habs m n h
    omega

end Whole

end BullsUnicorns
