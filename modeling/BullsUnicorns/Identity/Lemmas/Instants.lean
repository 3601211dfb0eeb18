import BullsUnicorns.Lib.Text
import BullsUnicorns.Identity.Challenge

/-!
# Instants are read back from their texts
-/

namespace BullsUnicorns.Identity

/-! ## Days -/

/-- The day of a date. -/
def daysFromCivil (date : ℤ × ℤ × ℤ) : ℤ :=
  let (year, month, day) := date
  let marchYear := if 2 < month then year else year - 1
  let marchMonth := if 2 < month then month - 3 else month + 9
  let yearOfEra := marchYear % 400
  let dayOfYear := (153 * marchMonth + 2) / 5 + day - 1
  146097 * (marchYear / 400) + (365 * yearOfEra + yearOfEra / 4 - yearOfEra / 100 + dayOfYear) - 719468

section
variable {dayOfEra yearOfEra : ℤ}

theorem yearOfEra_bounds (h : 0 ≤ dayOfEra) (h' : dayOfEra ≤ 146096)
    (hyear : yearOfEra = (dayOfEra - dayOfEra / 1460 + dayOfEra / 36524 - dayOfEra / 146096) / 365) :
    0 ≤ yearOfEra ∧ yearOfEra ≤ 399 := by omega

/-- The days before a year of the era are at most those before the day, which is in that year. -/
theorem dayOfYear_bounds (h : 0 ≤ dayOfEra) (h' : dayOfEra ≤ 146096)
    (hyear : yearOfEra = (dayOfEra - dayOfEra / 1460 + dayOfEra / 36524 - dayOfEra / 146096) / 365) :
    0 ≤ dayOfEra - (365 * yearOfEra + yearOfEra / 4 - yearOfEra / 100) ∧
      dayOfEra - (365 * yearOfEra + yearOfEra / 4 - yearOfEra / 100) ≤ 366 := by
  constructor
  · -- by the century that the day falls in, and that of its year
    have hday : dayOfEra / 36524 = 0 ∨ dayOfEra / 36524 = 1 ∨ dayOfEra / 36524 = 2 ∨ dayOfEra / 36524 = 3 ∨
        dayOfEra / 36524 = 4 := by omega
    have hcentury : yearOfEra / 100 = 0 ∨ yearOfEra / 100 = 1 ∨ yearOfEra / 100 = 2 ∨ yearOfEra / 100 = 3 := by omega
    rcases hday with hday | hday | hday | hday | hday <;> rw [hday] at hyear <;>
      rcases hcentury with hcentury | hcentury | hcentury | hcentury <;> rw [hcentury] <;> omega
  · omega

end

/-- What the parts of a date are, and that the day is read back from them. -/
theorem civilFromDays_spec (days : ℤ) :
    1 ≤ (civilFromDays days).2.1 ∧ (civilFromDays days).2.1 ≤ 12 ∧ 1 ≤ (civilFromDays days).2.2 ∧
      daysFromCivil (civilFromDays days) = days := by
  have hera := Int.emod_nonneg (days + 719468) (show (146097 : ℤ) ≠ 0 by omega)
  have hera' := Int.emod_lt_of_pos (days + 719468) (show (0 : ℤ) < 146097 by omega)
  have hdays := Int.mul_ediv_add_emod (days + 719468) 146097
  simp only [civilFromDays]
  generalize (days + 719468) / 146097 = era at hdays ⊢
  generalize (days + 719468) % 146097 = dayOfEra at hera hera' hdays ⊢
  have hyear := @yearOfEra_bounds dayOfEra _ hera (by omega) rfl
  have hday := @dayOfYear_bounds dayOfEra _ hera (by omega) rfl
  generalize (dayOfEra - dayOfEra / 1460 + dayOfEra / 36524 - dayOfEra / 146096) / 365 = yearOfEra at hyear hday ⊢
  generalize hdayOfYear : dayOfEra - (365 * yearOfEra + yearOfEra / 4 - yearOfEra / 100) = dayOfYear at hday ⊢
  generalize hmonth : (5 * dayOfYear + 2) / 153 = month
  have hbounds : 0 ≤ month ∧ month ≤ 11 := by omega
  have hfirst : (153 * month + 2) / 5 ≤ dayOfYear := by omega
  have hmod : (yearOfEra + 400 * era) % 400 = yearOfEra := by omega
  have hdiv : (yearOfEra + 400 * era) / 400 = era := by omega
  split
  · rename_i hmarch
    refine ⟨by simp only; omega, by simp only; omega, by simp only; omega, ?_⟩
    have hmonth : month + 3 - 3 = month := by omega
    simp only [daysFromCivil, if_pos (show 2 < month + 3 by omega), hmod, hdiv, hmonth]
    omega
  · rename_i hmarch
    refine ⟨by simp only; omega, by simp only; omega, by simp only; omega, ?_⟩
    have hmonth : month - 9 + 9 = month := by omega
    have hyear : yearOfEra + 400 * era + 1 - 1 = yearOfEra + 400 * era := by omega
    simp only [daysFromCivil, if_neg (show ¬ 2 < month - 9 by omega), hmod, hdiv, hmonth, hyear]
    omega

/-! ## Instants -/

/-- From the first second of the year 0 to the last of the year 9999. -/
def FourDigitYear (unixSec : ℤ) : Prop := -62167219200 ≤ unixSec ∧ unixSec ≤ 253402300799

instance (unixSec : ℤ) : Decidable (FourDigitYear unixSec) := inferInstanceAs (Decidable (_ ∧ _))

theorem year_of_fourDigitYear {unixSec : ℤ} (h : FourDigitYear unixSec) :
    0 ≤ (civilFromDays (unixSec / 86400)).1 ∧ (civilFromDays (unixSec / 86400)).1 ≤ 9999 := by
  obtain ⟨hfrom, hto⟩ := h
  have hdays : -719528 ≤ unixSec / 86400 ∧ unixSec / 86400 ≤ 2932896 := by omega
  generalize unixSec / 86400 = days at hdays ⊢
  have hera := Int.emod_nonneg (days + 719468) (show (146097 : ℤ) ≠ 0 by omega)
  have hera' := Int.emod_lt_of_pos (days + 719468) (show (0 : ℤ) < 146097 by omega)
  have hday := Int.mul_ediv_add_emod (days + 719468) 146097
  simp only [civilFromDays]
  generalize (days + 719468) / 146097 = era at hday ⊢
  generalize (days + 719468) % 146097 = dayOfEra at hera hera' hday ⊢
  have hyear := @yearOfEra_bounds dayOfEra _ hera (by omega) rfl
  generalize hyearOfEra : (dayOfEra - dayOfEra / 1460 + dayOfEra / 36524 - dayOfEra / 146096) / 365 = yearOfEra
    at hyear ⊢
  generalize hdayOfYear : dayOfEra - (365 * yearOfEra + yearOfEra / 4 - yearOfEra / 100) = dayOfYear
  split
  · rename_i hmarch
    simp only
    constructor
    · by_contra hneg
      -- only January and February of the year 0 are in an earlier era
      have hearlier : era ≤ -1 := by omega
      have hlate : 146037 ≤ dayOfEra := by omega
      have hlast : yearOfEra = 399 := by omega
      rw [hlast] at hdayOfYear
      omega
    · omega
  · rename_i hmarch
    simp only
    constructor
    · omega
    · omega

/-- The text of an instant whose year has four digits. -/
def isoText (unixSec : ℤ) : String :=
  let date := civilFromDays (unixSec / 86400)
  let second := (unixSec % 86400).toNat
  Text.padded 10 4 date.1.toNat ++ "-" ++ Text.padded 10 2 date.2.1.toNat ++ "-" ++ Text.padded 10 2 date.2.2.toNat ++
    "T" ++ Text.padded 10 2 (second / 3600) ++ ":" ++ Text.padded 10 2 (second / 60 % 60) ++ ":" ++
    Text.padded 10 2 (second % 60) ++ "Z"

theorem isoSecond_eq {unixSec : ℤ} (h : FourDigitYear unixSec) : isoSecond unixSec = .ok (isoText unixSec) := by
  have hyear := year_of_fourDigitYear h
  obtain ⟨hfrom, hto⟩ := h
  rw [isoSecond, if_neg (by omega)]
  simp only [isoText, isoYear, if_pos hyear]

/-- As a list of characters. -/
theorem toList_isoText (unixSec : ℤ) : ∃ y m d hours minutes seconds : ℕ,
    (isoText unixSec).toList = (Text.padded 10 4 y).toList ++ '-' :: ((Text.padded 10 2 m).toList ++ '-' ::
      ((Text.padded 10 2 d).toList ++ 'T' :: ((Text.padded 10 2 hours).toList ++ ':' ::
        ((Text.padded 10 2 minutes).toList ++ ':' :: ((Text.padded 10 2 seconds).toList ++ ['Z']))))) ∧
    (y, m, d) = ((civilFromDays (unixSec / 86400)).1.toNat, (civilFromDays (unixSec / 86400)).2.1.toNat,
      (civilFromDays (unixSec / 86400)).2.2.toNat) ∧
    (hours, minutes, seconds) = ((unixSec % 86400).toNat / 3600, (unixSec % 86400).toNat / 60 % 60,
      (unixSec % 86400).toNat % 60) := by
  refine ⟨_, _, _, _, _, _, ?_, rfl, rfl⟩
  have hdash : "-".toList = ['-'] := rfl
  have htee : "T".toList = ['T'] := rfl
  have hcolon : ":".toList = [':'] := rfl
  have hzed : "Z".toList = ['Z'] := rfl
  simp only [isoText, String.toList_append, hdash, htee, hcolon, hzed, List.append_assoc, List.cons_append,
    List.nil_append]

theorem digits_clean {c : Char} (hc : c.isDigit = false) (width n : ℕ) : c ∉ (Text.padded 10 width n).toList := by
  intro h
  rw [Text.isDigit_padded h] at hc
  cases hc

/-- Digits, and the separators between them. -/
theorem isoText_char {unixSec : ℤ} {c : Char} (h : c ∈ (isoText unixSec).toList) :
    c.isDigit = true ∨ c = '-' ∨ c = 'T' ∨ c = ':' ∨ c = 'Z' := by
  obtain ⟨y, m, d, hours, minutes, seconds, hlist, -⟩ := toList_isoText unixSec
  rw [hlist] at h
  simp only [List.mem_append, List.mem_cons, List.not_mem_nil, or_false] at h
  rcases h with h | h | h | h | h | h | h | h | h | h | h | h
  all_goals first
    | exact .inl (Text.isDigit_padded h)
    | simp [h]

theorem isoText_inj {unixSec unixSec' : ℤ} (h : FourDigitYear unixSec) (h' : FourDigitYear unixSec')
    (heq : isoText unixSec = isoText unixSec') : unixSec = unixSec' := by
  have hyear := year_of_fourDigitYear h
  have hyear' := year_of_fourDigitYear h'
  obtain ⟨hmonth, -, hday, hback⟩ := civilFromDays_spec (unixSec / 86400)
  obtain ⟨hmonth', -, hday', hback'⟩ := civilFromDays_spec (unixSec' / 86400)
  have hlist := congrArg String.toList heq
  obtain ⟨y, m, d, hours, minutes, seconds, htext, hcivil, hclock⟩ := toList_isoText unixSec
  obtain ⟨y', m', d', hours', minutes', seconds', htext', hcivil', hclock'⟩ := toList_isoText unixSec'
  rw [htext, htext'] at hlist
  obtain ⟨hy, hlist⟩ := Delimit.before_sep_inj (digits_clean rfl _ _) (digits_clean rfl _ _) hlist
  obtain ⟨hm, hlist⟩ := Delimit.before_sep_inj (digits_clean rfl _ _) (digits_clean rfl _ _) hlist
  obtain ⟨hd, hlist⟩ := Delimit.before_sep_inj (digits_clean rfl _ _) (digits_clean rfl _ _) hlist
  obtain ⟨hhours, hlist⟩ := Delimit.before_sep_inj (digits_clean rfl _ _) (digits_clean rfl _ _) hlist
  obtain ⟨hminutes, hlist⟩ := Delimit.before_sep_inj (digits_clean rfl _ _) (digits_clean rfl _ _) hlist
  obtain ⟨hseconds, -⟩ := Delimit.before_sep_inj (digits_clean rfl _ _) (digits_clean rfl _ _) hlist
  have hread {width n m : ℕ} (hparts : (Text.padded 10 width n).toList = (Text.padded 10 width m).toList) : n = m :=
    Text.padded_inj (String.toList_inj.mp hparts)
  rw [hread hy, hread hm, hread hd, hcivil'] at hcivil
  rw [hread hhours, hread hminutes, hread hseconds, hclock'] at hclock
  simp only [Prod.mk.injEq] at hcivil hclock
  have hdate : civilFromDays (unixSec' / 86400) = civilFromDays (unixSec / 86400) :=
    Prod.ext (by omega) (Prod.ext (by omega) (by omega))
  have hdays : unixSec / 86400 = unixSec' / 86400 := by rw [← hback, ← hback', hdate]
  omega

end BullsUnicorns.Identity
