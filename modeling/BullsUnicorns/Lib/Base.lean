import Mathlib.Data.Nat.Digits.Lemmas
import Mathlib.Tactic

/-!
# Bytes as digits
-/

/-!
## Base 58

Bytes read as one big-endian number and written with 58 characters, one `1` more for each leading zero
byte. Byte strings of one length never share a text.
-/

namespace BullsUnicorns.Base58

def alphabet : List Char := "123456789ABCDEFGHJKLMNPQRSTUVWXYZabcdefghijkmnopqrstuvwxyz".toList

def char (digit : ℕ) : Char := alphabet.getD digit '1'

/-- The number the bytes write, most significant first. -/
def value (bytes : List UInt8) : ℕ := Nat.ofDigits 256 (bytes.reverse.map UInt8.toNat)

/-- The digits of a text, least significant first. -/
def digits (bytes : List UInt8) : List ℕ :=
  Nat.digits 58 (value bytes) ++ List.replicate (bytes.takeWhile (· = 0)).length 0

def encode (bytes : List UInt8) : String := String.ofList ((digits bytes).reverse.map char)

theorem digits_lt {bytes : List UInt8} {d : ℕ} (h : d ∈ digits bytes) : d < 58 := by
  rcases List.mem_append.mp h with h | h
  · exact Nat.digits_lt_base (by norm_num) h
  · rw [List.eq_of_mem_replicate h]
    norm_num

theorem ofDigits_digits (bytes : List UInt8) : Nat.ofDigits 58 (digits bytes) = value bytes := by
  rw [digits, Nat.ofDigits_append_replicate_zero, Nat.ofDigits_digits]

theorem alphabet_spec : alphabet.length = 58 ∧ alphabet.Nodup := by
  delta alphabet
  rw [String.toList_ofList]
  decide +kernel

theorem char_inj {i j : ℕ} (hi : i < 58) (hj : j < 58) (h : char i = char j) : i = j := by
  obtain ⟨hlength, hnodup⟩ := alphabet_spec
  rw [← hlength] at hi hj
  rw [char, char, List.getD_eq_getElem?_getD, List.getD_eq_getElem?_getD, List.getElem?_eq_getElem hi,
    List.getElem?_eq_getElem hj] at h
  exact hnodup.getElem_inj_iff.mp h

theorem map_char_inj {as bs : List ℕ} (ha : ∀ d ∈ as, d < 58) (hb : ∀ d ∈ bs, d < 58)
    (h : as.map char = bs.map char) : as = bs := by
  induction as generalizing bs with
  | nil => cases bs with
    | nil => rfl
    | cons b bs => cases h
  | cons a as ih => cases bs with
    | nil => cases h
    | cons b bs =>
        simp only [List.map_cons, List.cons.injEq] at h
        rw [char_inj (ha a (by simp)) (hb b (by simp)) h.1,
          ih (fun d hd => ha d (by simp [hd])) (fun d hd => hb d (by simp [hd])) h.2]

theorem value_inj {as bs : List UInt8} (hlen : as.length = bs.length) (h : value as = value bs) :
    as = bs := by
  have hlt : ∀ cs : List UInt8, ∀ d ∈ cs.reverse.map UInt8.toNat, d < 256 := by
    intro cs d hd
    obtain ⟨c, -, rfl⟩ := List.mem_map.mp hd
    exact c.toNat_lt
  have hmap := Nat.ofDigits_inj_of_len_eq (by norm_num) (by simp [hlen]) (hlt as) (hlt bs) h
  exact List.reverse_injective (List.map_injective_iff.mpr (fun _ _ => UInt8.toNat_inj.mp) hmap)

theorem encode_inj {as bs : List UInt8} (hlen : as.length = bs.length) (h : encode as = encode bs) :
    as = bs := by
  apply value_inj hlen
  have hchars : (digits as).reverse.map char = (digits bs).reverse.map char := String.ofList_injective h
  have hrev := map_char_inj (fun d hd => digits_lt (List.mem_reverse.mp hd))
    (fun d hd => digits_lt (List.mem_reverse.mp hd)) hchars
  rw [← ofDigits_digits as, ← ofDigits_digits bs, List.reverse_injective hrev]

theorem encode_injective (n : ℕ) : Function.Injective fun bytes : Vector UInt8 n => encode bytes.toList :=
  fun _ _ h => Vector.toList_inj.mp (encode_inj (by simp) h)

end BullsUnicorns.Base58

/-!
## Base 64

Three bytes are four digits; a last group of one or two bytes is two or three digits, and nothing fills
it up. A reader takes either of the two alphabets and passes over what is in neither.
-/

namespace BullsUnicorns.Base64

def alphabet : List Char := "ABCDEFGHIJKLMNOPQRSTUVWXYZabcdefghijklmnopqrstuvwxyz0123456789-_".toList

def char (digit : ℕ) : Char := alphabet.getD digit 'A'

def digit? (c : Char) : Option ℕ :=
  let c := if c = '+' then '-' else if c = '/' then '_' else c
  alphabet.idxOf? c

def digits : List ℕ → List ℕ
  | a :: b :: c :: bytes => a / 4 :: (a % 4 * 16 + b / 16) :: (b % 16 * 4 + c / 64) :: c % 64 :: digits bytes
  | [a, b] => [a / 4, a % 4 * 16 + b / 16, b % 16 * 4]
  | [a] => [a / 4, a % 4 * 16]
  | [] => []

/-- A single digit at the end holds no byte. -/
def bytes : List ℕ → List ℕ
  | p :: q :: r :: s :: digits =>
      (p * 4 + q / 16) % 256 :: (q * 16 + r / 4) % 256 :: (r * 64 + s) % 256 :: bytes digits
  | [p, q, r] => [(p * 4 + q / 16) % 256, (q * 16 + r / 4) % 256]
  | [p, q] => [(p * 4 + q / 16) % 256]
  | _ => []

def encode (data : List UInt8) : String :=
  String.ofList ((digits (data.map UInt8.toNat)).map char)

def decode (text : String) : List UInt8 :=
  (bytes (text.toList.filterMap digit?)).map UInt8.ofNat

example : encode [98, 117, 108, 108] = "YnVsbA" := congrArg String.ofList (by decide +kernel)

theorem digits_lt {l : List ℕ} (h : ∀ a ∈ l, a < 256) : ∀ d ∈ digits l, d < 64 := by
  fun_induction digits l with
  | case1 a b c l ih =>
      simp only [List.forall_mem_cons] at h ⊢
      exact ⟨by omega, by omega, by omega, by omega, ih h.2.2.2⟩
  | case2 a b =>
      simp only [List.forall_mem_cons] at h ⊢
      exact ⟨by omega, by omega, by omega, by simp⟩
  | case3 a =>
      simp only [List.forall_mem_cons] at h ⊢
      exact ⟨by omega, by omega, by simp⟩
  | case4 => simp

theorem bytes_digits {l : List ℕ} (h : ∀ a ∈ l, a < 256) : bytes (digits l) = l := by
  fun_induction digits l with
  | case1 a b c l ih =>
      simp only [List.forall_mem_cons] at h
      rw [bytes, ih h.2.2.2, show (a / 4 * 4 + (a % 4 * 16 + b / 16) / 16) % 256 = a by omega,
        show ((a % 4 * 16 + b / 16) * 16 + (b % 16 * 4 + c / 64) / 4) % 256 = b by omega,
        show ((b % 16 * 4 + c / 64) * 64 + c % 64) % 256 = c by omega]
  | case2 a b =>
      simp only [List.forall_mem_cons] at h
      rw [bytes, show (a / 4 * 4 + (a % 4 * 16 + b / 16) / 16) % 256 = a by omega,
        show ((a % 4 * 16 + b / 16) * 16 + b % 16 * 4 / 4) % 256 = b by omega]
  | case3 a =>
      simp only [List.forall_mem_cons] at h
      rw [bytes, show (a / 4 * 4 + a % 4 * 16 / 16) % 256 = a by omega]
  | case4 => rfl

/-- The two digits of the other alphabet are not in this one, and neither is what fills a text up. -/
theorem alphabet_spec : alphabet.length = 64 ∧ alphabet.Nodup ∧ '+' ∉ alphabet ∧ '/' ∉ alphabet ∧ '=' ∉ alphabet := by
  delta alphabet
  rw [String.toList_ofList]
  decide +kernel

theorem digit?_char {d : ℕ} (h : d < 64) : digit? (char d) = some d := by
  obtain ⟨hlength, hnodup, hplus, hslash, -⟩ := alphabet_spec
  have hlt : d < alphabet.length := hlength ▸ h
  have hmem := List.getElem_mem hlt
  rw [char, ← List.getElem_eq_getD (h := hlt), digit?, if_neg (ne_of_mem_of_not_mem hmem hplus),
    if_neg (ne_of_mem_of_not_mem hmem hslash), List.idxOf?_eq_some_iff]
  exact ⟨hlt, rfl, fun j hj heq => hj.ne (hnodup.getElem_inj_iff.mp heq)⟩

theorem filterMap_digit?_char {l : List ℕ} (h : ∀ d ∈ l, d < 64) : (l.map char).filterMap digit? = l := by
  induction l with
  | nil => rfl
  | cons d l ih =>
      rw [List.forall_mem_cons] at h
      rw [List.map_cons, List.filterMap_cons_some (digit?_char h.1), ih h.2]

theorem map_toNat_lt (data : List UInt8) : ∀ a ∈ data.map UInt8.toNat, a < 256 := by
  intro a ha
  obtain ⟨b, -, rfl⟩ := List.mem_map.mp ha
  exact b.toNat_lt

/-- What was written is read back. -/
@[simp]
theorem decode_encode (data : List UInt8) : decode (encode data) = data := by
  have hdata := map_toNat_lt data
  rw [decode, encode, String.toList_ofList, filterMap_digit?_char (digits_lt hdata), bytes_digits hdata,
    List.map_map]
  simp [Function.comp_def]

theorem mem_encode {data : List UInt8} {c : Char} (h : c ∈ (encode data).toList) : c ∈ alphabet := by
  rw [encode, String.toList_ofList] at h
  obtain ⟨d, hd, rfl⟩ := List.mem_map.mp h
  have hlt : d < alphabet.length := alphabet_spec.1 ▸ digits_lt (map_toNat_lt data) d hd
  rw [char, ← List.getElem_eq_getD (h := hlt)]
  exact List.getElem_mem hlt

theorem encode_clean {sep : Char} (h : sep ∉ alphabet) (data : List UInt8) : sep ∉ (encode data).toList :=
  fun hmem => h (mem_encode hmem)

/-! ## The standard alphabet -/

def toStandard (c : Char) : Char := if c = '-' then '+' else if c = '_' then '/' else c

/-- `btoa`: the other alphabet, and filled up to a multiple of four digits. -/
def btoa (data : List UInt8) : String :=
  let body := (encode data).toList.map toStandard
  String.ofList (body ++ List.replicate ((4 - body.length % 4) % 4) '=')

theorem digit?_toStandard (c : Char) : digit? (toStandard c) = digit? c := by
  unfold toStandard
  split
  · subst_vars
    rfl
  · split
    · subst_vars
      rfl
    · rfl

@[simp]
theorem decode_btoa (data : List UInt8) : decode (btoa data) = data := by
  have hfill : ∀ n : ℕ, (List.replicate n '=').filterMap digit? = [] := by
    intro n
    exact List.filterMap_replicate_of_none (List.idxOf?_eq_none_iff.mpr alphabet_spec.2.2.2.2)
  have hbody : ((encode data).toList.map toStandard).filterMap digit? = (encode data).toList.filterMap digit? := by
    rw [List.filterMap_map]
    congr 1
    funext c
    exact digit?_toStandard c
  have hdecode := decode_encode data
  rw [decode] at hdecode ⊢
  rw [btoa, String.toList_ofList, List.filterMap_append, hfill, hbody, List.append_nil, hdecode]

theorem length_digits (l : List ℕ) : (digits l).length = (4 * l.length + 2) / 3 := by
  fun_induction digits l with
  | case1 a b c l ih =>
      simp only [List.length_cons, ih]
      omega
  | case2 a b => simp
  | case3 a => simp
  | case4 => rfl

theorem length_encode (data : List UInt8) : (encode data).toList.length = (4 * data.length + 2) / 3 := by
  rw [encode, String.toList_ofList, List.length_map, length_digits, List.length_map]

end BullsUnicorns.Base64
