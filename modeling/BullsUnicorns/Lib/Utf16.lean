import BullsUnicorns.Lib.Text

/-!
# Texts of code units

A JavaScript text is any list of 16-bit code units. Written as UTF-8, a pair of surrogates becomes its
character, and a surrogate without a partner becomes U+FFFD.
-/

namespace BullsUnicorns

abbrev JsString := List UInt16

namespace JsString

def isHigh (u : UInt16) : Bool := decide (0xd800 ≤ u.toNat) && decide (u.toNat < 0xdc00)

def isLow (u : UInt16) : Bool := decide (0xdc00 ≤ u.toNat) && decide (u.toNat < 0xe000)

/-- The character of a pair. -/
def pair (high low : UInt16) : Char :=
  Char.ofNat (0x10000 + (high.toNat - 0xd800) * 0x400 + (low.toNat - 0xdc00))

/-- The character of a code unit on its own. -/
def single (u : UInt16) : Char :=
  if isHigh u || isLow u then Char.ofNat 0xfffd else Char.ofNat u.toNat

def scalars : JsString → List Char
  | u :: v :: rest =>
      if isHigh u && isLow v then pair u v :: scalars rest else single u :: scalars (v :: rest)
  | [u] => [single u]
  | [] => []

/-- `new TextEncoder().encode(v)`. -/
def encode (v : JsString) : List UInt8 := Text.utf8 (String.ofList (scalars v))

/-- The code units of a text without lone surrogates. -/
def ofString (s : String) : JsString := (Text.codeUnits s).map UInt16.ofNat

/-- The text of code units that are all ASCII. -/
def ascii? (v : JsString) : Option String :=
  if v.all (fun u => decide (u.toNat < 128)) then some (String.ofList (v.map fun u => Char.ofNat u.toNat)) else none

/-- A regular expression that only ASCII texts meet. -/
def test (re : String → Bool) (v : JsString) : Bool := (ascii? v).any re

def startsWith (v w : JsString) : Bool := w.isPrefixOf v

example : encode [0xd83e, 0xdd84] = [0xf0, 0x9f, 0xa6, 0x84] := by decide +kernel

theorem length_encode (v : JsString) : (encode v).length = ((scalars v).flatMap String.utf8EncodeChar).length := by
  rw [encode, Text.utf8_eq_flatMap, String.toList_ofList]

/-! ## Well-formed texts -/

/-- The code units of one character. -/
def units (c : Char) : JsString :=
  if c.toNat < 0x10000 then [UInt16.ofNat c.toNat]
  else [UInt16.ofNat (0xd800 + (c.toNat - 0x10000) / 0x400), UInt16.ofNat (0xdc00 + (c.toNat - 0x10000) % 0x400)]

theorem ofString_eq_flatMap (s : String) : ofString s = s.toList.flatMap units := by
  rw [ofString, Text.codeUnits, List.map_flatMap]
  congr 1
  funext c
  unfold units
  split <;> rfl

theorem toNat_ofNat {n : ℕ} (h : n < 0x10000) : (UInt16.ofNat n).toNat = n := by
  rw [UInt16.toNat_ofNat', Nat.mod_eq_of_lt (by simpa using h)]

theorem scalars_cons_single {u : UInt16} (h : isHigh u = false) (rest : JsString) :
    scalars (u :: rest) = single u :: scalars rest := by
  cases rest with
  | nil => rfl
  | cons v rest => simp [scalars, h]

theorem scalars_units (c : Char) (rest : JsString) : scalars (units c ++ rest) = c :: scalars rest := by
  have hsurrogate := Text.toNat_not_surrogate c
  have hlt := Text.toNat_lt c
  unfold units
  split
  · rename_i hbasic
    have hnat := toNat_ofNat hbasic
    have hhigh : isHigh (UInt16.ofNat c.toNat) = false := by
      simp only [isHigh, hnat, Bool.and_eq_false_iff, decide_eq_false_iff_not]
      omega
    have hlow : isLow (UInt16.ofNat c.toNat) = false := by
      simp only [isLow, hnat, Bool.and_eq_false_iff, decide_eq_false_iff_not]
      omega
    rw [List.singleton_append, scalars_cons_single hhigh, single, hhigh, hlow, hnat]
    simp
  · rename_i hbasic
    have hhigh := toNat_ofNat (show 0xd800 + (c.toNat - 0x10000) / 0x400 < 0x10000 by omega)
    have hlow := toNat_ofNat (show 0xdc00 + (c.toNat - 0x10000) % 0x400 < 0x10000 by omega)
    have hpair : isHigh (UInt16.ofNat (0xd800 + (c.toNat - 0x10000) / 0x400)) &&
        isLow (UInt16.ofNat (0xdc00 + (c.toNat - 0x10000) % 0x400)) := by
      simp only [isHigh, isLow, hhigh, hlow, Bool.and_eq_true, decide_eq_true_eq]
      omega
    have hchar : pair (UInt16.ofNat (0xd800 + (c.toNat - 0x10000) / 0x400))
        (UInt16.ofNat (0xdc00 + (c.toNat - 0x10000) % 0x400)) = c := by
      rw [pair, hhigh, hlow, show 0x10000 + (0xd800 + (c.toNat - 0x10000) / 0x400 - 0xd800) * 0x400 +
        (0xdc00 + (c.toNat - 0x10000) % 0x400 - 0xdc00) = c.toNat by omega, Char.ofNat_toNat]
    rw [List.cons_append, List.singleton_append, scalars, if_pos hpair, hchar]

@[simp]
theorem scalars_ofString (s : String) : scalars (ofString s) = s.toList := by
  rw [ofString_eq_flatMap]
  induction s.toList with
  | nil => rfl
  | cons c l ih => rw [List.flatMap_cons, scalars_units, ih]

@[simp]
theorem encode_ofString (s : String) : encode (ofString s) = Text.utf8 s := by
  rw [encode, scalars_ofString, String.ofList_toList]

theorem ofString_injective : Function.Injective ofString := fun s t h =>
  Text.utf8_injective (by rw [← encode_ofString, ← encode_ofString, h])

@[simp]
theorem ofString_append (s t : String) : ofString (s ++ t) = ofString s ++ ofString t := by
  simp [ofString_eq_flatMap]

@[simp]
theorem ofString_eq_nil {s : String} : ofString s = [] ↔ s = "" := by
  constructor
  · intro h
    exact ofString_injective (h.trans rfl)
  · rintro rfl
    rfl

/-- No surrogate of the text is without its partner. -/
def WellFormed (v : JsString) : Prop := ∃ s, v = ofString s

/-- Well-formed texts are told apart by their bytes. -/
theorem WellFormed.encode_inj {v w : JsString} (hv : WellFormed v) (hw : WellFormed w) (h : encode v = encode w) :
    v = w := by
  obtain ⟨s, rfl⟩ := hv
  obtain ⟨t, rfl⟩ := hw
  rw [encode_ofString, encode_ofString] at h
  rw [Text.utf8_injective h]

/-! ## ASCII texts -/

theorem toNat_char {n : ℕ} (h : n < 128) : (Char.ofNat n).toNat = n := by
  have hvalid : n.isValidChar := Or.inl (by omega)
  rw [Char.ofNat, dif_pos hvalid]
  rfl

theorem flatMap_units {l : List Char} (h : ∀ c ∈ l, c.toNat < 128) :
    l.flatMap units = l.map fun c => UInt16.ofNat c.toNat := by
  induction l with
  | nil => rfl
  | cons c l ih =>
      rw [List.forall_mem_cons] at h
      rw [List.flatMap_cons, ih h.2, units, if_pos (by omega), List.map_cons, List.singleton_append]

theorem ascii?_eq_some {v : JsString} {s : String} :
    ascii? v = some s ↔ v = ofString s ∧ ∀ c ∈ s.toList, c.toNat < 128 := by
  rw [ofString_eq_flatMap]
  constructor
  · intro h
    rw [ascii?] at h
    split at h
    · rename_i hall
      simp only [List.all_eq_true, decide_eq_true_eq] at hall
      obtain rfl := Option.some.inj h
      have hascii : ∀ c ∈ v.map (fun u => Char.ofNat u.toNat), c.toNat < 128 := by
        intro c hc
        obtain ⟨u, hu, rfl⟩ := List.mem_map.mp hc
        rw [toNat_char (hall u hu)]
        exact hall u hu
      rw [String.toList_ofList]
      refine ⟨?_, hascii⟩
      rw [flatMap_units hascii, List.map_map]
      conv_lhs => rw [← List.map_id v]
      apply List.map_congr_left
      intro u hu
      rw [Function.comp_apply, toNat_char (hall u hu), UInt16.ofNat_toNat, id]
    · cases h
  · rintro ⟨rfl, hascii⟩
    rw [flatMap_units hascii, ascii?, if_pos, List.map_map]
    · congr 1
      conv_rhs => rw [← String.ofList_toList (s := s), ← List.map_id s.toList]
      congr 1
      apply List.map_congr_left
      intro c hc
      rw [Function.comp_apply, toNat_ofNat (by have := hascii c hc; omega), Char.ofNat_toNat, id]
    · simp only [List.all_map, List.all_eq_true, Function.comp_apply, decide_eq_true_eq]
      intro c hc
      rw [toNat_ofNat (by have := hascii c hc; omega)]
      exact hascii c hc

/-- What a test accepts is a text that meets the expression. -/
theorem test_eq_true {re : String → Bool} {v : JsString} :
    test re v = true ↔ ∃ s, v = ofString s ∧ (∀ c ∈ s.toList, c.toNat < 128) ∧ re s = true := by
  rw [test, Option.any_eq_true]
  simp only [ascii?_eq_some, and_assoc]

theorem test_ofString {re : String → Bool} {s : String} (hascii : ∀ c ∈ s.toList, c.toNat < 128)
    (h : re s = true) : test re (ofString s) = true :=
  test_eq_true.mpr ⟨s, rfl, hascii, h⟩

theorem WellFormed.of_test {re : String → Bool} {v : JsString} (h : test re v = true) : WellFormed v := by
  obtain ⟨s, hv, -⟩ := test_eq_true.mp h
  exact ⟨s, hv⟩

end JsString

end BullsUnicorns
