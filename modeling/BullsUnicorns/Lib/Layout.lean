import Mathlib.Data.Nat.Digits.Lemmas
import Mathlib.Tactic

/-!
# Two readings of the same bytes

A record read in place, each field at the offset that its alignment gives it, and the same record read from
front to back, each field right after the last. The two agree exactly where alignment leaves no hole.
-/

namespace BullsUnicorns.Layout

/-! ## Scalars -/

/-- The number whose digits to the base 256 the bytes are, the lowest first. -/
def leNat (bs : List UInt8) : ℕ := Nat.ofDigits 256 (bs.map UInt8.toNat)

def leBytes : ℕ → ℕ → List UInt8
  | 0, _ => []
  | k + 1, n => UInt8.ofNat n :: leBytes k (n / 256)

@[simp]
theorem length_leBytes (k n : ℕ) : (leBytes k n).length = k := by
  induction k generalizing n with
  | zero => rfl
  | succ k ih => simp [leBytes, ih]

theorem leNat_cons (b : UInt8) (bs : List UInt8) : leNat (b :: bs) = b.toNat + 256 * leNat bs := by
  simp [leNat, Nat.ofDigits_cons]

theorem leNat_lt (bs : List UInt8) : leNat bs < 256 ^ bs.length := by
  have hlt := Nat.ofDigits_lt_base_pow_length (b := 256) (l := bs.map UInt8.toNat) (by norm_num) ?_
  · simpa [leNat] using hlt
  · intro d hd
    obtain ⟨b, -, rfl⟩ := List.mem_map.mp hd
    exact b.toNat_lt

theorem leNat_leBytes (k : ℕ) {n : ℕ} (h : n < 256 ^ k) : leNat (leBytes k n) = n := by
  induction k generalizing n with
  | zero => simp_all [leBytes, leNat]
  | succ k ih =>
      have hdiv : n / 256 < 256 ^ k := Nat.div_lt_of_lt_mul (by rwa [pow_succ, Nat.mul_comm] at h)
      rw [leBytes, leNat_cons, ih hdiv, UInt8.toNat_ofNat']
      omega

theorem leBytes_leNat (bs : List UInt8) : leBytes bs.length (leNat bs) = bs := by
  induction bs with
  | nil => rfl
  | cons b bs ih =>
      have hb := b.toNat_lt
      have hlow : UInt8.ofNat (leNat (b :: bs)) = b := by
        apply UInt8.toNat_inj.mp
        rw [UInt8.toNat_ofNat', leNat_cons]
        omega
      have hhigh : leNat (b :: bs) / 256 = leNat bs := by
        rw [leNat_cons]
        omega
      rw [List.length_cons, leBytes, hlow, hhigh, ih]

/-- A number of a fixed width, the low byte first. -/
structure Scalar where
  Val : Type
  size : ℕ
  size_pos : 0 < size
  ofNat : ℕ → Val
  toNat : Val → ℕ
  toNat_lt : ∀ v, toNat v < 256 ^ size
  ofNat_toNat : ∀ v, ofNat (toNat v) = v
  toNat_ofNat : ∀ n < 256 ^ size, toNat (ofNat n) = n

namespace Scalar

def read (p : Scalar) (bs : List UInt8) : p.Val := p.ofNat (leNat (bs.take p.size))

def write (p : Scalar) (v : p.Val) : List UInt8 := leBytes p.size (p.toNat v)

def u8 : Scalar where
  Val := UInt8
  size := 1
  size_pos := by norm_num
  ofNat := UInt8.ofNat
  toNat := UInt8.toNat
  toNat_lt v := v.toNat_lt
  ofNat_toNat _ := UInt8.ofNat_toNat
  toNat_ofNat n h := by rw [UInt8.toNat_ofNat']; omega

def u16 : Scalar where
  Val := UInt16
  size := 2
  size_pos := by norm_num
  ofNat := UInt16.ofNat
  toNat := UInt16.toNat
  toNat_lt v := v.toNat_lt
  ofNat_toNat _ := UInt16.ofNat_toNat
  toNat_ofNat n h := by rw [UInt16.toNat_ofNat']; omega

def u64 : Scalar where
  Val := UInt64
  size := 8
  size_pos := by norm_num
  ofNat := UInt64.ofNat
  toNat := UInt64.toNat
  toNat_lt v := v.toNat_lt
  ofNat_toNat _ := UInt64.ofNat_toNat
  toNat_ofNat n h := by rw [UInt64.toNat_ofNat']; omega

/-- Two's complement. -/
def i64 : Scalar where
  Val := Int64
  size := 8
  size_pos := by norm_num
  ofNat n := (UInt64.ofNat n).toInt64
  toNat v := v.toUInt64.toNat
  toNat_lt v := v.toUInt64.toNat_lt
  ofNat_toNat v := by simp
  toNat_ofNat n h := by rw [UInt64.toUInt64_toInt64, UInt64.toNat_ofNat']; omega

@[simp]
theorem u8_size : u8.size = 1 := rfl

@[simp]
theorem u16_size : u16.size = 2 := rfl

@[simp]
theorem u64_size : u64.size = 8 := rfl

@[simp]
theorem i64_size : i64.size = 8 := rfl

end Scalar

/-! ## Types -/

mutual

inductive Ty : Type 1 where
  | scalar (p : Scalar)
  | array (n : ℕ) (t : Ty)
  | struct (fs : Fields)

inductive Fields : Type 1 where
  | nil
  | cons (name : String) (t : Ty) (fs : Fields)

end

abbrev Ty.u8 : Ty := .scalar .u8

abbrev Ty.u16 : Ty := .scalar .u16

abbrev Ty.u64 : Ty := .scalar .u64

abbrev Ty.i64 : Ty := .scalar .i64

def Fields.ofList : List (String × Ty) → Fields
  | [] => .nil
  | (name, t) :: fs => .cons name t (ofList fs)

mutual

def Ty.Val : Ty → Type
  | .scalar p => p.Val
  | .array n t => Vector t.Val n
  | .struct fs => fs.Val

def Fields.Val : Fields → Type
  | .nil => Unit
  | .cons _ t fs => t.Val × fs.Val

end

/-- The first multiple of `align` from `offset` on. -/
def roundUp (offset align : ℕ) : ℕ := (offset + (align - 1)) / align * align

mutual

def Ty.align : Ty → ℕ
  | .scalar p => p.size
  | .array _ t => t.align
  | .struct fs => fs.align

def Fields.align : Fields → ℕ
  | .nil => 1
  | .cons _ t fs => max t.align fs.align

end

mutual

/-- The bytes that a value takes in place, with the padding behind the last field. -/
def Ty.size : Ty → ℕ
  | .scalar p => p.size
  | .array n t => n * t.size
  | .struct fs => roundUp (fs.ends 0) fs.align

/-- Where the last field ends, if the first starts at `offset` or at the next place that is aligned. -/
def Fields.ends : Fields → ℕ → ℕ
  | .nil, offset => offset
  | .cons _ t fs, offset => fs.ends (roundUp offset t.align + t.size)

end

mutual

/-- The bytes of the scalars alone. -/
def Ty.flatSize : Ty → ℕ
  | .scalar p => p.size
  | .array n t => n * t.flatSize
  | .struct fs => fs.flatSize

def Fields.flatSize : Fields → ℕ
  | .nil => 0
  | .cons _ t fs => t.flatSize + fs.flatSize

end

/-! ## The two readers, and the writer -/

mutual

/-- The value in place, as `repr(C)` puts it. -/
def Ty.view : (t : Ty) → List UInt8 → t.Val
  | .scalar p, bs => p.read bs
  | .array n t, bs => Vector.ofFn fun i : Fin n => t.view (bs.drop (i * t.size))
  | .struct fs, bs => fs.view 0 bs

def Fields.view : (fs : Fields) → ℕ → List UInt8 → fs.Val
  | .nil, _, _ => ()
  | .cons _ t fs, offset, bs =>
      (t.view (bs.drop (roundUp offset t.align)), fs.view (roundUp offset t.align + t.size) bs)

end

variable {α β : Type}

def readMany (read : List UInt8 → Option (α × List UInt8)) : (n : ℕ) → List UInt8 → Option (Vector α n × List UInt8)
  | 0, bs => some (#v[], bs)
  | n + 1, bs => do
      let (vs, bs) ← readMany read n bs
      let (v, bs) ← read bs
      pure (vs.push v, bs)

mutual

/-- Borsh: the value at the front, and the bytes behind it. -/
def Ty.decode : (t : Ty) → List UInt8 → Option (t.Val × List UInt8)
  | .scalar p, bs => if p.size ≤ bs.length then some (p.read bs, bs.drop p.size) else none
  | .array n t, bs => readMany t.decode n bs
  | .struct fs, bs => fs.decode bs

def Fields.decode : (fs : Fields) → List UInt8 → Option (fs.Val × List UInt8)
  | .nil, bs => some ((), bs)
  | .cons _ t fs, bs => do
      let (v, bs) ← t.decode bs
      let (vs, bs) ← fs.decode bs
      pure ((v, vs), bs)

end

mutual

def Ty.encode : (t : Ty) → t.Val → List UInt8
  | .scalar p, v => p.write v
  | .array _ t, vs => vs.toList.flatMap t.encode
  | .struct fs, vs => fs.encode vs

def Fields.encode : (fs : Fields) → fs.Val → List UInt8
  | .nil, _ => []
  | .cons _ t fs, (v, vs) => t.encode v ++ fs.encode vs

end

/-! ## Decoding inverts encoding -/

/-- What `write` puts down takes `size` bytes, `read` takes it up again, and every `size` bytes are such. -/
structure Reads (read : List UInt8 → Option (α × List UInt8)) (write : α → List UInt8) (size : ℕ) : Prop where
  length_write : ∀ v, (write v).length = size
  read_write : ∀ v rest, read (write v ++ rest) = some (v, rest)
  written : ∀ bs : List UInt8, size ≤ bs.length → ∃ v, write v = bs.take size
  short : ∀ bs : List UInt8, bs.length < size → read bs = none

namespace Reads

variable {read : List UInt8 → Option (α × List UInt8)} {write : α → List UInt8} {size : ℕ}
  {read' : List UInt8 → Option (β × List UInt8)} {write' : β → List UInt8} {size' : ℕ}

theorem of_le (h : Reads read write size) {bs : List UInt8} (hbs : size ≤ bs.length) :
    ∃ v, write v = bs.take size ∧ read bs = some (v, bs.drop size) := by
  obtain ⟨v, hv⟩ := h.written bs hbs
  have hread := h.read_write v (bs.drop size)
  rw [hv, List.take_append_drop] at hread
  exact ⟨v, hv, hread⟩

theorem read_eq_some (h : Reads read write size) {bs rest : List UInt8} {v : α} :
    read bs = some (v, rest) ↔ bs = write v ++ rest := by
  constructor
  · intro hread
    rcases Nat.lt_or_ge bs.length size with hlt | hle
    · rw [h.short bs hlt] at hread
      cases hread
    · obtain ⟨v', hv', hread'⟩ := h.of_le hle
      rw [hread'] at hread
      cases hread
      rw [hv', List.take_append_drop]
  · rintro rfl
    exact h.read_write v rest

theorem scalar (p : Scalar) :
    Reads (fun bs => if p.size ≤ bs.length then some (p.read bs, bs.drop p.size) else none) p.write p.size where
  length_write v := length_leBytes _ _
  read_write v rest := by
    have hlen : (p.write v).length = p.size := length_leBytes _ _
    have hread : p.read (p.write v ++ rest) = v := by
      rw [Scalar.read, ← hlen, List.take_left, Scalar.write, leNat_leBytes _ (p.toNat_lt v), p.ofNat_toNat]
    rw [if_pos (by rw [List.length_append, hlen]; omega), hread, ← hlen, List.drop_left]
  written bs hbs := by
    have hlen : (bs.take p.size).length = p.size := List.length_take_of_le hbs
    have hlt := leNat_lt (bs.take p.size)
    rw [hlen] at hlt
    refine ⟨p.read bs, ?_⟩
    rw [Scalar.write, Scalar.read, p.toNat_ofNat _ hlt]
    calc leBytes p.size (leNat (bs.take p.size))
        = leBytes (bs.take p.size).length (leNat (bs.take p.size)) := by rw [hlen]
      _ = bs.take p.size := leBytes_leNat _
  short bs hbs := if_neg (by omega)

theorem pair (h : Reads read write size) (h' : Reads read' write' size') :
    Reads (fun bs => do
      let (v, bs) ← read bs
      let (vs, bs) ← read' bs
      pure ((v, vs), bs)) (fun v => write v.1 ++ write' v.2) (size + size') where
  length_write v := by rw [List.length_append, h.length_write, h'.length_write]
  read_write v rest := by
    rw [List.append_assoc, h.read_write]
    simp [h'.read_write]
  written bs hbs := by
    obtain ⟨v, hv⟩ := h.written bs (by omega)
    obtain ⟨v', hv'⟩ := h'.written (bs.drop size) (by rw [List.length_drop]; omega)
    exact ⟨(v, v'), by rw [hv, hv', List.take_add]⟩
  short bs hbs := by
    rcases Nat.lt_or_ge bs.length size with hlt | hle
    · rw [h.short bs hlt]
      rfl
    · obtain ⟨v, -, hread⟩ := h.of_le hle
      have hshort := h'.short (bs.drop size) (by rw [List.length_drop]; omega)
      simp [hread, hshort]

theorem many (h : Reads read write size) (n : ℕ) :
    Reads (readMany read n) (fun vs : Vector α n => vs.toList.flatMap write) (n * size) := by
  induction n with
  | zero =>
      refine ⟨fun v => ?_, fun v rest => ?_, fun bs _ => ⟨#v[], by simp⟩, fun bs hbs => by simp at hbs⟩
      · rw [show v = #v[] from Vector.eq_empty]
        simp
      · rw [show v = #v[] from Vector.eq_empty]
        rfl
  | succ n ih =>
      have hmore : (n + 1) * size = n * size + size := Nat.succ_mul n size
      refine ⟨fun vs => ?_, fun vs rest => ?_, fun bs hbs => ?_, fun bs hbs => ?_⟩
      · simp [List.length_flatMap, h.length_write]
      · rw [← Vector.push_pop_back vs, Vector.toList_push, List.flatMap_append, List.append_assoc]
        simp [readMany, ih.read_write, h.read_write]
      · rw [hmore] at hbs ⊢
        obtain ⟨vs, hvs⟩ := ih.written bs (by omega)
        obtain ⟨v, hv⟩ := h.written (bs.drop (n * size)) (by rw [List.length_drop]; omega)
        exact ⟨vs.push v, by simp [Vector.toList_push, hvs, hv, List.take_add]⟩
      · rcases Nat.lt_or_ge bs.length (n * size) with hlt | hle
        · simp [readMany, ih.short bs hlt]
        · obtain ⟨vs, -, hread⟩ := ih.of_le hle
          have hshort := h.short (bs.drop (n * size)) (by rw [List.length_drop]; omega)
          simp [readMany, hread, hshort]

end Reads

mutual

theorem Ty.reads : (t : Ty) → Reads t.decode t.encode t.flatSize
  | .scalar p => Reads.scalar p
  | .array n t => t.reads.many n
  | .struct fs => fs.reads

theorem Fields.reads : (fs : Fields) → Reads fs.decode fs.encode fs.flatSize
  | .nil => ⟨fun _ => rfl, fun _ _ => rfl, fun _ _ => ⟨(), rfl⟩, fun _ h => absurd h (Nat.not_lt_zero _)⟩
  | .cons _ t fs => t.reads.pair fs.reads

end

/-! ## Where alignment leaves no hole -/

theorem le_roundUp (offset : ℕ) {align : ℕ} (h : 0 < align) : offset ≤ roundUp offset align := by
  have hdiv := Nat.div_add_mod (offset + (align - 1)) align
  have hmod := Nat.mod_lt (offset + (align - 1)) h
  rw [Nat.mul_comm] at hdiv
  unfold roundUp
  omega

mutual

theorem Ty.align_pos : (t : Ty) → 0 < t.align
  | .scalar p => p.size_pos
  | .array _ t => t.align_pos
  | .struct fs => fs.align_pos

theorem Fields.align_pos : (fs : Fields) → 0 < fs.align
  | .nil => Nat.one_pos
  | .cons _ t _ => lt_max_of_lt_left t.align_pos

end

mutual

theorem Ty.flatSize_le : (t : Ty) → t.flatSize ≤ t.size
  | .scalar _ => le_rfl
  | .array n t => Nat.mul_le_mul_left n t.flatSize_le
  | .struct fs => by
      have hends := fs.flatSize_le 0
      have hround := le_roundUp (fs.ends 0) fs.align_pos
      simp only [Ty.flatSize, Ty.size]
      omega

theorem Fields.flatSize_le : (fs : Fields) → (offset : ℕ) → offset + fs.flatSize ≤ fs.ends offset
  | .nil, _ => le_rfl
  | .cons _ t fs, offset => by
      have hround := le_roundUp offset t.align_pos
      have hsize := t.flatSize_le
      have hends := fs.flatSize_le (roundUp offset t.align + t.size)
      simp only [Fields.flatSize, Fields.ends]
      omega

end

theorem readMany_eq (read : List UInt8 → Option (α × List UInt8)) (bs : List UInt8) (size n : ℕ) (f : Fin n → α)
    (h : ∀ i : Fin n, read (bs.drop (i * size)) = some (f i, bs.drop (i * size + size))) :
    readMany read n bs = some (Vector.ofFn f, bs.drop (n * size)) := by
  induction n with
  | zero => simp [readMany]
  | succ n ih =>
      have hlast := h (Fin.last n)
      rw [Fin.val_last] at hlast
      rw [readMany, ih (fun i => f i.castSucc) fun i => h i.castSucc, Vector.ofFn_succ, Nat.succ_mul]
      simp [hlast, Fin.last]

mutual

/-- A type whose padding takes no byte is read alike from front to back and in place. -/
theorem Ty.decode_eq_view : (t : Ty) → t.flatSize = t.size → ∀ {bs : List UInt8}, t.size ≤ bs.length →
    t.decode bs = some (t.view bs, bs.drop t.size)
  | .scalar p, _, bs, hbs => if_pos hbs
  | .array 0 t, _, bs, _ => by
      simp only [Ty.decode, Ty.view, Ty.size, readMany, Nat.zero_mul, List.drop_zero]
      congr 2
  | .array (n + 1) t, h, bs, hbs => by
      have hflat : t.flatSize = t.size := Nat.eq_of_mul_eq_mul_left n.succ_pos h
      refine readMany_eq t.decode bs t.size (n + 1) _ fun i => ?_
      have hi : (i + 1) * t.size ≤ (n + 1) * t.size := Nat.mul_le_mul_right _ i.isLt
      have hle : t.size ≤ (bs.drop (i * t.size)).length := by
        rw [Nat.succ_mul] at hi
        rw [List.length_drop]
        simp only [Ty.size] at hbs
        omega
      rw [t.decode_eq_view hflat hle, List.drop_drop]
  | .struct fs, h, bs, hbs => by
      have hle := fs.flatSize_le 0
      have hround := le_roundUp (fs.ends 0) fs.align_pos
      simp only [Ty.flatSize, Ty.size] at h hbs
      have hfields : fs.decode (bs.drop 0) = some (fs.view 0 bs, bs.drop (0 + fs.flatSize)) :=
        fs.decode_eq_view (by omega) (by omega)
      rw [List.drop_zero, Nat.zero_add] at hfields
      simp only [Ty.decode, Ty.view, Ty.size, ← h]
      exact hfields

theorem Fields.decode_eq_view : (fs : Fields) → ∀ {offset : ℕ} {bs : List UInt8},
    fs.ends offset = offset + fs.flatSize → offset + fs.flatSize ≤ bs.length →
    fs.decode (bs.drop offset) = some (fs.view offset bs, bs.drop (offset + fs.flatSize))
  | .nil, _, _, _, _ => rfl
  | .cons _ t fs, offset, bs, h, hbs => by
      -- the field and all behind it end where they would without padding, so there is none
      have hround := le_roundUp offset t.align_pos
      have hsize := t.flatSize_le
      have hle := fs.flatSize_le (roundUp offset t.align + t.size)
      simp only [Fields.ends, Fields.flatSize] at h hbs
      have hoffset : roundUp offset t.align = offset := by omega
      have hflat : t.flatSize = t.size := by omega
      rw [hoffset, hflat, ← Nat.add_assoc] at h
      rw [hflat, ← Nat.add_assoc] at hbs
      have hfield : t.decode (bs.drop offset) = some (t.view (bs.drop offset), (bs.drop offset).drop t.size) :=
        t.decode_eq_view hflat (by rw [List.length_drop]; omega)
      rw [List.drop_drop] at hfield
      have hfields := fs.decode_eq_view h hbs
      simp only [Fields.decode, Fields.view, Fields.flatSize, hoffset, hflat, ← Nat.add_assoc, hfield]
      simp [hfields]

end

section
variable {t : Ty} (h : t.flatSize = t.size)
include h

theorem Ty.length_encode (v : t.Val) : (t.encode v).length = t.size := h ▸ t.reads.length_write v

theorem Ty.view_encode (v : t.Val) (rest : List UInt8) : t.view (t.encode v ++ rest) = v := by
  have hle : t.size ≤ (t.encode v ++ rest).length := by rw [List.length_append, t.length_encode h]; omega
  have hview := t.decode_eq_view h hle
  rw [t.reads.read_write] at hview
  exact (congrArg Prod.fst (Option.some.inj hview)).symm

theorem Ty.encode_view {bs : List UInt8} (hbs : t.size ≤ bs.length) : t.encode (t.view bs) ++ bs.drop t.size = bs :=
  (t.reads.read_eq_some.mp (t.decode_eq_view h hbs)).symm

end

end BullsUnicorns.Layout
