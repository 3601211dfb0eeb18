import BullsUnicorns.Lib.Text

/-!
# Netstrings

A run of bytes written as its length, a colon, the bytes and a comma. The length is read before the
content is looked at, so no content can move a boundary.
-/

namespace BullsUnicorns.Netstring

/-- `<length>:<body>,` -/
def frame (body : List UInt8) : List UInt8 := Text.utf8 (toString body.length ++ ":") ++ body ++ [0x2c]

example : frame [0x68, 0x69] = [0x32, 0x3a, 0x68, 0x69, 0x2c] := by decide +kernel

/-- No digit is a colon. -/
theorem colon_notMem_utf8 (n : ℕ) : (0x3a : UInt8) ∉ Text.utf8 (toString n) := by
  intro h
  rw [Text.utf8_eq_flatMap, List.mem_flatMap] at h
  obtain ⟨c, hc, hbyte⟩ := h
  have hdigit := Text.isDigit_toString hc
  simp only [Char.isDigit, Bool.and_eq_true, decide_eq_true_eq, ge_iff_le, UInt32.le_iff_toNat_le] at hdigit
  change 48 ≤ c.val.toNat ∧ c.val.toNat ≤ 57 at hdigit
  have hsize : c.utf8Size = 1 := by
    rw [Char.utf8Size_eq_one_iff, UInt32.le_iff_toNat_le]
    change c.val.toNat ≤ 127
    omega
  rw [String.utf8EncodeChar_eq_singleton hsize, List.mem_singleton] at hbyte
  have hnat := congrArg UInt8.toNat hbyte
  rw [UInt32.toNat_toUInt8] at hnat
  change 58 = c.val.toNat % 256 at hnat
  omega

theorem frame_append_inj {a b rest rest' : List UInt8} (h : frame a ++ rest = frame b ++ rest') :
    a = b ∧ rest = rest' := by
  simp only [frame, Text.utf8_append, List.append_assoc] at h
  rw [show Text.utf8 ":" = [0x3a] from by decide +kernel] at h
  rw [List.singleton_append, List.singleton_append, List.singleton_append] at h
  obtain ⟨hlength, hbody⟩ := Delimit.before_sep_inj (colon_notMem_utf8 _) (colon_notMem_utf8 _) h
  have hlength : a.length = b.length :=
    Text.toString_inj (Text.utf8_injective hlength)
  obtain ⟨rfl, hrest⟩ := List.append_inj hbody hlength
  exact ⟨rfl, List.tail_eq_of_cons_eq hrest⟩

theorem frame_ne_nil (body : List UInt8) : frame body ≠ [] := by
  simp [frame]

/-- A sequence of netstrings is read back from its bytes. -/
theorem flatMap_frame_injective : Function.Injective (List.flatMap frame) := by
  intro as
  induction as with
  | nil =>
      intro bs h
      cases bs with
      | nil => rfl
      | cons b bs =>
          rw [List.flatMap_nil, List.flatMap_cons] at h
          exact absurd (List.append_eq_nil_iff.mp h.symm).1 (frame_ne_nil b)
  | cons a as ih =>
      intro bs h
      cases bs with
      | nil =>
          rw [List.flatMap_nil, List.flatMap_cons] at h
          exact absurd (List.append_eq_nil_iff.mp h).1 (frame_ne_nil a)
      | cons b bs =>
          rw [List.flatMap_cons, List.flatMap_cons] at h
          obtain ⟨rfl, hrest⟩ := frame_append_inj h
          rw [ih hrest]

end BullsUnicorns.Netstring
