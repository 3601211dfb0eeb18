import BullsUnicorns.Lib.Utf16
import BullsUnicorns.Lib.Whole
import Mathlib.Tactic

/-!
# Values that travel as text

What `JSON.parse` makes of a text that `JSON.stringify` wrote: the value itself, as long as its numbers
are finite. A reader takes it apart field by field; an absent field and an explicit null are different
answers.
-/

namespace BullsUnicorns

inductive Json where
  | null
  | bool (b : Bool)
  | num (n : ℚ)
  | str (s : String)
  | arr (items : List Json)
  | obj (fields : List (String × Json))

namespace Json

def isRecord : Json → Option (List (String × Json))
  | .obj fields => some fields
  | _ => none

def isNumber : Json → Option ℚ
  | .num n => some n
  | _ => none

def isString : Json → Option String
  | .str s => some s
  | _ => none

def isBoolean : Json → Option Bool
  | .bool b => some b
  | _ => none

def isNumberArray : Json → Option (List ℚ)
  | .arr items => items.mapM isNumber
  | _ => none

/-- A field that has to be there and to pass. -/
def field {α : Type} (fields : List (String × Json)) (key : String) (read : Json → Option α) : Option α :=
  (fields.lookup key).bind read

/-- A field of any value; only a record has one. -/
def get? (v : Json) (key : String) : Option Json := v.isRecord.bind fun fields => fields.lookup key

/-- A reading that accepts an explicit null too. -/
def orNull {α : Type} (read : Json → Option α) : Json → Option (Option α)
  | .null => some none
  | v => (read v).map some

/-- A value, or null. -/
def ofOption {α : Type} (write : α → Json) : Option α → Json
  | none => .null
  | some a => write a

section
variable {α : Type} {fields : List (String × Json)} {key : String} {v : Json} {read : Json → Option α}

/-- One step of a reader. -/
theorem reads {β : Type} {x : Option α} {a : α} {rest : α → Option β} {r : Option β} (h : x = some a)
    (hrest : rest a = r) : (x >>= rest) = r := by
  rw [h]
  exact hrest

theorem field_eq {r : Option α} (hkey : fields.lookup key = some v) (hread : read v = r) :
    field fields key read = r := by
  rw [field, hkey]
  exact hread

@[simp]
theorem isNumberArray_nums (ns : List ℚ) : isNumberArray (.arr (ns.map .num)) = some ns := by
  have h : (ns.map Json.num).mapM isNumber = some ns := by
    induction ns with
    | nil => rfl
    | cons n ns ih => simp [isNumber, ih]
  exact h

/-- What was written from an option is read back as it. -/
theorem orNull_ofOption {write : α → Json} (hread : ∀ a, read (write a) = some a)
    (hnull : ∀ a, write a ≠ .null) (o : Option α) : orNull read (ofOption write o) = some o := by
  cases o with
  | none => rfl
  | some a =>
      have hsome : orNull read (write a) = (read (write a)).map some := by
        cases h : write a with
        | null => exact absurd h (hnull a)
        | _ => rfl
      simp [ofOption, hsome, hread]

end

end Json

/-! ## Decimal strings -/

/-- `/^\d{1,20}$/` and at most the largest 64-bit word. -/
def isU64String (s : String) : Bool :=
  1 ≤ s.length && s.length ≤ 20 && s.toList.all Char.isDigit &&
    decide (Nat.ofDigitChars 10 s.toList 0 ≤ 18446744073709551615)

theorem isU64String_toString (n : UInt64) : isU64String (toString n.toNat) = true := by
  have hlt : n.toNat < 18446744073709551616 := n.toNat_lt
  have hlist : (toString n.toNat).toList = Nat.toDigits 10 n.toNat := Nat.toList_repr
  have hlen : (toString n.toNat).length ≤ 20 :=
    Nat.repr_length n.toNat 20 (by decide) (lt_trans hlt (by norm_num))
  have hpos : 1 ≤ (toString n.toNat).length := Nat.length_repr_pos
  have hdigits : ∀ c ∈ Nat.toDigits 10 n.toNat, c.isDigit = true := fun c hc =>
    Nat.isDigit_of_mem_toDigits (by decide) (by decide) hc
  simp only [isU64String, hlist, hlen, hpos, Nat.ofDigitChars_ten_toDigits, decide_true, Bool.and_self,
    Bool.true_and, Bool.and_eq_true, List.all_eq_true, decide_eq_true_eq]
  exact ⟨hdigits, by omega⟩

/-!
## Values of an unknown type

What a response body may hold once it is parsed: texts are code units, and a number is a double that need
not be finite.
-/

inductive JsValue where
  | null
  | bool (b : Bool)
  /-- No value for a number that is not finite. -/
  | num (n : Option ℚ)
  | str (s : JsString)
  | arr (items : List JsValue)
  | obj (fields : List (JsString × JsValue))

namespace JsValue

/-- `typeof v === "object"`, and neither null nor an array. -/
def isRecord : JsValue → Option (List (JsString × JsValue))
  | .obj fields => some fields
  | _ => none

def isString : JsValue → Option JsString
  | .str s => some s
  | _ => none

/-- `typeof v === "number" && Number.isInteger(v)`. -/
def isFiniteInt : JsValue → Option Whole
  | .num (some x) =>
      if h : x.den = 1 ∧ Number.ofInt x.num = x.num then some ⟨x.num, h.2⟩ else none
  | _ => none

def get? (fields : List (JsString × JsValue)) (key : String) : Option JsValue :=
  fields.lookup (JsString.ofString key)

def ofWhole (n : Whole) : JsValue := .num (some n.val)

@[simp]
theorem get?_cons (fields : List (JsString × JsValue)) (k key : String) (v : JsValue) :
    get? ((JsString.ofString k, v) :: fields) key = if key = k then some v else get? fields key := by
  rw [get?, List.lookup_cons]
  by_cases h : key = k
  · simp [h]
  · have hne : (JsString.ofString key == JsString.ofString k) = false :=
      beq_eq_false_iff_ne.mpr fun heq => h (JsString.ofString_injective heq)
    simp [h, hne, get?]

@[simp]
theorem isFiniteInt_ofWhole (n : Whole) : isFiniteInt (ofWhole n) = some n := by
  simp [isFiniteInt, ofWhole, n.stored]

end JsValue

end BullsUnicorns
