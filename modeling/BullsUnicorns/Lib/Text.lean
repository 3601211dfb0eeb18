import Mathlib.Tactic

/-!
# Texts and separators
-/

/-!
## Separators

What stands before the first separator or after the last one is read back from the whole.
-/

namespace BullsUnicorns.Delimit

variable {α : Type*} {sep : α} {before before' after after' : List α}

theorem after_sep_inj (h : sep ∉ after) (h' : sep ∉ after') (heq : before ++ sep :: after = before' ++ sep :: after') :
    before = before' ∧ after = after' := by
  rcases List.append_eq_append_iff.mp heq with ⟨rest, hbefore, hrest⟩ | ⟨rest, hbefore, hrest⟩
  · cases rest with
    | nil => exact ⟨by simpa using hbefore.symm, List.tail_eq_of_cons_eq hrest⟩
    | cons c rest =>
        have hafter := List.tail_eq_of_cons_eq hrest
        exact absurd (hafter ▸ List.mem_append_right rest List.mem_cons_self) h
  · cases rest with
    | nil => exact ⟨by simpa using hbefore, (List.tail_eq_of_cons_eq hrest).symm⟩
    | cons c rest =>
        have hafter := List.tail_eq_of_cons_eq hrest
        exact absurd (hafter ▸ List.mem_append_right rest List.mem_cons_self) h'

theorem before_sep_inj (h : sep ∉ before) (h' : sep ∉ before')
    (heq : before ++ sep :: after = before' ++ sep :: after') : before = before' ∧ after = after' := by
  induction before generalizing before' with
  | nil =>
      cases before' with
      | nil => exact ⟨rfl, List.tail_eq_of_cons_eq heq⟩
      | cons c before' => exact absurd (List.head_eq_of_cons_eq heq ▸ List.mem_cons_self) h'
  | cons c before ih =>
      cases before' with
      | nil => exact absurd (List.head_eq_of_cons_eq heq ▸ List.mem_cons_self) h
      | cons c' before' =>
          obtain ⟨rfl, hrest⟩ := List.cons.inj heq
          obtain ⟨rfl, hafter⟩ := ih (fun hmem => h (List.mem_cons_of_mem _ hmem))
            (fun hmem => h' (List.mem_cons_of_mem _ hmem)) hrest
          exact ⟨rfl, hafter⟩

end BullsUnicorns.Delimit

/-!
## Texts as JavaScript reads and writes them
-/

namespace BullsUnicorns.Text

/-- White space and line terminators, as `trim` removes them. -/
def isWhite (c : Char) : Bool :=
  let n := c.toNat
  (9 ≤ n && n ≤ 13) || n = 0x20 || n = 0xa0 || n = 0x1680 || (0x2000 ≤ n && n ≤ 0x200a) || n = 0x2028 ||
    n = 0x2029 || n = 0x202f || n = 0x205f || n = 0x3000 || n = 0xfeff

def trim (s : String) : String :=
  String.ofList ((s.toList.dropWhile isWhite).reverse.dropWhile isWhite).reverse

/-- `toLowerCase`, as far as a comparison with an ASCII text can tell: the Kelvin sign is the one character
beyond ASCII whose lower case is an ASCII letter. -/
def lowerChar (c : Char) : Char := if c.toNat = 0x212a then 'k' else c.toLower

def toLowerCase (s : String) : String := String.ofList (s.toList.map lowerChar)

def startsWith (s t : String) : Bool := t.toList.isPrefixOf s.toList

/-- `s.split(sep)[0]` for a separator of one character. -/
def firstPart (sep : Char) (s : String) : String := String.ofList (s.toList.takeWhile (· ≠ sep))

/-- `s.includes(t)`. -/
def includes (t s : String) : Bool := s.toList.tails.any fun rest => t.toList.isPrefixOf rest

/-- `toString(base).padStart(width, "0")` of a natural number. -/
def padded (base width n : ℕ) : String := String.ofList ((Nat.toDigits base n).leftpad width '0')

example : padded 16 2 7 = "07" := by decide +kernel

/-! ## Sorting -/

/-- The code units that comparisons read. -/
def codeUnits (s : String) : List ℕ :=
  s.toList.flatMap fun c =>
    if c.toNat < 0x10000 then [c.toNat]
    else [0xd800 + (c.toNat - 0x10000) / 0x400, 0xdc00 + (c.toNat - 0x10000) % 0x400]

def le (s t : String) : Bool := decide (codeUnits s ≤ codeUnits t)

/-- `sort()` of an array of texts. -/
def sort (l : List String) : List String := l.mergeSort le

/-- A character is a surrogate pair or, outside the surrogates, itself. -/
theorem toNat_not_surrogate (c : Char) : ¬(0xd800 ≤ c.toNat ∧ c.toNat ≤ 0xdfff) := by
  have h := c.valid
  simp only [UInt32.isValidChar, Nat.isValidChar] at h
  change ¬(0xd800 ≤ c.val.toNat ∧ c.val.toNat ≤ 0xdfff)
  omega

theorem toNat_lt (c : Char) : c.toNat < 0x110000 := by
  have h := c.valid
  simp only [UInt32.isValidChar, Nat.isValidChar] at h
  change c.val.toNat < 0x110000
  omega

theorem codeUnits_injective : Function.Injective codeUnits := by
  suffices h : ∀ l l' : List Char, codeUnits (String.ofList l) = codeUnits (String.ofList l') → l = l' by
    intro s t hst
    rw [← String.ofList_toList (s := s), ← String.ofList_toList (s := t)] at hst
    exact String.toList_injective (h s.toList t.toList hst)
  intro l
  simp only [codeUnits, String.toList_ofList]
  induction l with
  | nil =>
      intro l' h
      cases l' with
      | nil => rfl
      | cons c' l' =>
          simp only [List.flatMap_nil, List.flatMap_cons] at h
          split at h <;> simp at h
  | cons c l ih =>
      intro l' h
      cases l' with
      | nil =>
          simp only [List.flatMap_nil, List.flatMap_cons] at h
          split at h <;> simp at h
      | cons c' l' =>
          have hc := toNat_not_surrogate c
          have hc' := toNat_not_surrogate c'
          have hlt := toNat_lt c
          have hlt' := toNat_lt c'
          simp only [List.flatMap_cons] at h
          split at h <;> split at h <;> simp only [List.cons_append, List.nil_append, List.cons.injEq] at h
          · rw [Char.toNat_inj.mp h.1, ih l' h.2]
          · omega
          · omega
          · rw [Char.toNat_inj.mp (by omega : c.toNat = c'.toNat), ih l' h.2.2]

theorem sort_perm (l : List String) : (sort l).Perm l := List.mergeSort_perm l le

/-- What is sorted depends on the texts only, not on their order. -/
theorem sort_eq_iff {l l' : List String} : sort l = sort l' ↔ l.Perm l' := by
  constructor
  · intro h
    exact ((sort_perm l).symm.trans (List.Perm.of_eq h)).trans (sort_perm l')
  · intro h
    have htrans : ∀ a b c, le a b = true → le b c = true → le a c = true := by
      intro a b c hab hbc
      simp only [le, decide_eq_true_eq] at hab hbc ⊢
      exact le_trans hab hbc
    have htotal : ∀ a b, (le a b || le b a) = true := by
      intro a b
      simp only [le, Bool.or_eq_true, decide_eq_true_eq]
      exact le_total _ _
    have hsorted := List.pairwise_mergeSort htrans htotal l
    have hsorted' := List.pairwise_mergeSort htrans htotal l'
    refine List.Perm.eq_of_pairwise ?_ hsorted hsorted' (((sort_perm l).trans h).trans (sort_perm l').symm)
    intro a b _ _ hab hba
    simp only [le, decide_eq_true_eq] at hab hba
    exact codeUnits_injective (le_antisymm hab hba)

/-! ## Bytes -/

/-- `Buffer.from(s)`. -/
def utf8 (s : String) : List UInt8 := s.toByteArray.data.toList

/-- `toString()` of well-formed bytes. -/
def ofUtf8 (bytes : List UInt8) : Option String := String.fromUTF8? ⟨bytes.toArray⟩

@[simp]
theorem ofUtf8_utf8 (s : String) : ofUtf8 (utf8 s) = some s := by
  have h : (⟨(utf8 s).toArray⟩ : ByteArray) = s.toByteArray := by simp [utf8]
  rw [ofUtf8, h, String.fromUTF8?, dif_pos s.isValidUTF8]
  rfl

theorem utf8_injective : Function.Injective utf8 := fun s t h =>
  Option.some.inj (by rw [← ofUtf8_utf8 s, ← ofUtf8_utf8 t, h])

theorem utf8_eq_flatMap (s : String) : utf8 s = s.toList.flatMap String.utf8EncodeChar := by
  rw [utf8, ← String.utf8Encode_toList, List.utf8Encode]
  simp

theorem utf8_append (s t : String) : utf8 (s ++ t) = utf8 s ++ utf8 t := by
  simp [utf8_eq_flatMap]

/-! ## Joining -/

/-- `join(sep)` for a separator of one character. -/
def join (sep : Char) (l : List String) : String := (String.singleton sep).intercalate l

theorem join_injective {sep : Char} {l l' : List String} (hl : ∀ s ∈ l, sep ∉ s.toList)
    (hl' : ∀ s ∈ l', sep ∉ s.toList) (hne : l ≠ []) (hne' : l' ≠ []) (h : join sep l = join sep l') : l = l' := by
  have h := congrArg String.toList h
  rw [join, join, String.toList_intercalate, String.toList_intercalate, String.toList_singleton] at h
  have h := congrArg (List.splitOn sep) h
  rw [List.splitOn_intercalate _ (by simpa using hl) (by simpa using hne),
    List.splitOn_intercalate _ (by simpa using hl') (by simpa using hne')] at h
  exact List.map_injective_iff.mpr (fun _ _ hst => String.toList_injective hst) h

/-- `split(sep)` for a separator of one character. -/
def split (sep : Char) (s : String) : List String := (s.toList.splitOn sep).map String.ofList

theorem join_split (sep : Char) (s : String) : join sep (split sep s) = s := by
  apply String.toList_injective
  rw [join, String.toList_intercalate, String.toList_singleton, split, List.map_map]
  simp [Function.comp_def, List.intercalate_splitOn]

theorem split_join {sep : Char} {l : List String} (hl : ∀ s ∈ l, sep ∉ s.toList) (hne : l ≠ []) :
    split sep (join sep l) = l := by
  rw [split, join, String.toList_intercalate, String.toList_singleton,
    List.splitOn_intercalate _ (by simpa using hl) (by simpa using hne), List.map_map]
  simp [Function.comp_def]

theorem notMem_of_mem_splitOn {α : Type} [DecidableEq α] {sep : α} {l part : List α} (h : part ∈ l.splitOn sep) :
    sep ∉ part := by
  induction l generalizing part with
  | nil =>
      rw [List.splitOn_nil, List.mem_singleton] at h
      simp [h]
  | cons a l ih =>
      rw [List.splitOn, List.splitOnP_cons_eq_if_modifyHead] at h
      split at h
      · rcases List.mem_cons.mp h with rfl | h
        · simp
        · exact ih h
      · rename_i hsep
        cases hl : l.splitOnP (· == sep) with
        | nil => exact absurd hl (List.splitOnP_ne_nil _ _)
        | cons first rest =>
            rw [hl, List.modifyHead_cons] at h
            have hparts : ∀ part ∈ first :: rest, sep ∉ part := fun part hpart => ih (by rwa [List.splitOn, hl])
            rcases List.mem_cons.mp h with rfl | h
            · have hfirst := hparts first List.mem_cons_self
              intro hmem
              rcases List.mem_cons.mp hmem with rfl | hmem
              · exact hsep (beq_self_eq_true _)
              · exact hfirst hmem
            · exact hparts part (List.mem_cons_of_mem _ h)

theorem sep_notMem_split {sep : Char} {s t : String} (h : t ∈ split sep s) : sep ∉ t.toList := by
  obtain ⟨l, hl, rfl⟩ := List.mem_map.mp h
  rw [String.toList_ofList]
  exact notMem_of_mem_splitOn hl

/-! ## Decimal numbers -/

/-- The whole number that `toFixed(8)` writes: the nearest of the hundred-millionths, the larger of two. -/
def rounded (x : ℚ) : ℕ := ⌊x * 10 ^ 8 + 1 / 2⌋.toNat

/-- `toFixed(8)`; from `10 ^ 21` on a number is written as `toString` writes it. -/
def toFixed8 (toText : ℚ → String) (x : ℚ) : String :=
  (if x < 0 then "-" else "") ++
    if 10 ^ 21 ≤ |x| then toText |x|
    else toString (rounded |x| / 10 ^ 8) ++ "." ++ padded 10 8 (rounded |x| % 10 ^ 8)

theorem toList_toString (n : ℕ) : (toString n).toList = Nat.toDigits 10 n := Nat.toList_repr

theorem toList_padded (width n : ℕ) :
    (padded 10 width n).toList = List.replicate (width - (Nat.toDigits 10 n).length) '0' ++ Nat.toDigits 10 n := by
  rw [padded, String.toList_ofList, List.leftpad]

theorem isDigit_toString {n : ℕ} {c : Char} (h : c ∈ (toString n).toList) : c.isDigit = true := by
  rw [toList_toString] at h
  exact Nat.isDigit_of_mem_toDigits (by decide) (by decide) h

theorem isDigit_padded {width n : ℕ} {c : Char} (h : c ∈ (padded 10 width n).toList) : c.isDigit = true := by
  rw [toList_padded, List.mem_append] at h
  rcases h with h | h
  · rw [List.eq_of_mem_replicate h]
    rfl
  · exact Nat.isDigit_of_mem_toDigits (by decide) (by decide) h

theorem toString_inj {n m : ℕ} (h : toString n = toString m) : n = m := by
  have h := congrArg (fun s : String => Nat.ofDigitChars 10 s.toList 0) h
  simpa [toList_toString] using h

theorem padded_inj {width n m : ℕ} (h : padded 10 width n = padded 10 width m) : n = m := by
  have h := congrArg (fun s : String => Nat.ofDigitChars 10 s.toList 0) h
  simpa [toList_padded, Nat.ofDigitChars_append] using h

/-- The plain form of a number below `10 ^ 21`. -/
theorem toFixed8_eq {toText : ℚ → String} {x : ℚ} (hx : 0 ≤ x) (hx' : x < 10 ^ 21) :
    toFixed8 toText x = join '.' [toString (rounded x / 10 ^ 8), padded 10 8 (rounded x % 10 ^ 8)] := by
  rw [toFixed8, if_neg (not_lt.mpr hx), abs_of_nonneg hx, if_neg (not_le.mpr hx'), String.empty_append]
  apply String.toList_injective
  simp [join]

/-- Plain decimals are equal when the numbers round to the same. -/
theorem toFixed8_inj {toText : ℚ → String} {x y : ℚ} (hx : 0 ≤ x) (hx' : x < 10 ^ 21) (hy : 0 ≤ y)
    (hy' : y < 10 ^ 21) : toFixed8 toText x = toFixed8 toText y ↔ rounded x = rounded y := by
  rw [toFixed8_eq hx hx', toFixed8_eq hy hy']
  constructor
  · intro h
    have hclean : ∀ z : ℚ, ∀ s ∈ [toString (rounded z / 10 ^ 8), padded 10 8 (rounded z % 10 ^ 8)], '.' ∉ s.toList := by
      intro z s hs hdot
      simp only [List.mem_cons, List.not_mem_nil, or_false] at hs
      rcases hs with rfl | rfl
      · exact absurd (isDigit_toString hdot) (by decide)
      · exact absurd (isDigit_padded hdot) (by decide)
    have hparts := join_injective (hclean x) (hclean y) (List.cons_ne_nil _ _) (List.cons_ne_nil _ _) h
    simp only [List.cons.injEq, and_true] at hparts
    have hwhole := toString_inj hparts.1
    have hrest := padded_inj hparts.2
    omega
  · intro h
    rw [h]

theorem toFixed8_clean {toText : ℚ → String} {x : ℚ} (hx : 0 ≤ x) (hx' : x < 10 ^ 21) {c : Char}
    (hc : c.isDigit = false) (hdot : c ≠ '.') : c ∉ (toFixed8 toText x).toList := by
  intro h
  rw [toFixed8_eq hx hx'] at h
  simp only [join, String.toList_intercalate, List.map_cons, List.map_nil, List.intercalate_cons_cons,
    List.intercalate_singleton, String.toList_singleton, List.mem_append, List.mem_singleton] at h
  rcases h with (h | h) | h
  · exact absurd (isDigit_toString h) (by rw [hc]; decide)
  · exact hdot h
  · exact absurd (isDigit_padded h) (by rw [hc]; decide)

end BullsUnicorns.Text
