import Mathlib.Tactic

/-!
# Sorting by a key

A stable sort keeps the order of what has one key. So the sorted list depends on the order of the input exactly
where different items share a key. `localeCompare` is such a key for plain words.
-/

namespace BullsUnicorns

/-! ## Stable sorting -/

namespace Stable

variable {α κ : Type} [DecidableEq κ] {key : α → κ} {le : α → α → Bool} {l l' : List α}

section
variable (htrans : ∀ a b c, le a b = true → le b c = true → le a c = true)
variable (htotal : ∀ a b, (le a b || le b a) = true) (hkey : ∀ a b, key a = key b → le a b = true)

include htrans htotal hkey in
/-- What has one key keeps its order. -/
theorem filter_mergeSort (l : List α) (k : κ) :
    (l.mergeSort le).filter (key · = k) = l.filter (key · = k) := by
  have hpairwise : (l.filter (key · = k)).Pairwise fun a b => le a b = true := by
    apply List.pairwise_of_forall_mem_list
    intro a ha b hb
    have ha : key a = k := by simpa using (List.mem_filter.mp ha).2
    have hb : key b = k := by simpa using (List.mem_filter.mp hb).2
    exact hkey a b (ha.trans hb.symm)
  have hsub := (List.sublist_mergeSort htrans htotal hpairwise List.filter_sublist).filter (key · = k)
  rw [List.filter_filter] at hsub
  have hlength := ((List.mergeSort_perm l le).filter (key · = k)).length_eq
  exact (hsub.eq_of_length (by simpa using hlength.symm)).symm.trans (by simp)

end

/-- Sorted lists that agree key by key are equal. -/
theorem eq_of_filter_eq (hanti : ∀ a ∈ l, ∀ b ∈ l', le a b = true → le b a = true → key a = key b)
    (hl : l.Pairwise fun a b => le a b = true) (hl' : l'.Pairwise fun a b => le a b = true)
    (h : ∀ k, l.filter (key · = k) = l'.filter (key · = k)) : l = l' := by
  have hmem : ∀ {a : α} {l l' : List α}, (∀ k, l.filter (key · = k) = l'.filter (key · = k)) → a ∈ l → a ∈ l' := by
    intro a l l' h ha
    have ha : a ∈ l.filter (key · = key a) := List.mem_filter.mpr ⟨ha, by simp⟩
    rw [h] at ha
    exact (List.mem_filter.mp ha).1
  induction l generalizing l' with
  | nil =>
      cases l' with
      | nil => rfl
      | cons b l' => exact absurd (hmem (fun k => (h k).symm) List.mem_cons_self) List.not_mem_nil
  | cons a l ih =>
      cases l' with
      | nil => exact absurd (hmem h List.mem_cons_self) List.not_mem_nil
      | cons b l' =>
          rw [List.pairwise_cons] at hl hl'
          have hkeys : key a = key b := by
            rcases List.mem_cons.mp (hmem h List.mem_cons_self) with rfl | ha
            · rfl
            · rcases List.mem_cons.mp (hmem (fun k => (h k).symm) List.mem_cons_self) with rfl | hb
              · rfl
              · exact hanti a List.mem_cons_self b List.mem_cons_self (hl.1 b hb) (hl'.1 a ha)
          have hab : a = b := by
            have hhead := h (key a)
            rw [List.filter_cons_of_pos (by simp), List.filter_cons_of_pos (by simp [hkeys])] at hhead
            exact (List.cons.inj hhead).1
          subst hab
          have htails : ∀ k, l.filter (key · = k) = l'.filter (key · = k) := by
            intro k
            have hk := h k
            by_cases heq : key a = k
            · rw [List.filter_cons_of_pos (by simpa using heq), List.filter_cons_of_pos (by simpa using heq)] at hk
              exact (List.cons.inj hk).2
            · rwa [List.filter_cons_of_neg (by simpa using heq), List.filter_cons_of_neg (by simpa using heq)] at hk
          have hanti' : ∀ b ∈ l, ∀ c ∈ l', le b c = true → le c b = true → key b = key c := fun b hb c hc =>
            hanti b (List.mem_cons_of_mem a hb) c (List.mem_cons_of_mem a hc)
          rw [ih hanti' hl.2 hl'.2 htails]

/-- Two inputs are sorted alike exactly when each key has its items in one order. -/
theorem mergeSort_eq_iff (htrans : ∀ a b c, le a b = true → le b c = true → le a c = true)
    (htotal : ∀ a b, (le a b || le b a) = true) (hkey : ∀ a b, key a = key b → le a b = true)
    (hanti : ∀ a ∈ l, ∀ b ∈ l', le a b = true → le b a = true → key a = key b) :
    l.mergeSort le = l'.mergeSort le ↔ ∀ k, l.filter (key · = k) = l'.filter (key · = k) := by
  constructor
  · intro h k
    rw [← filter_mergeSort htrans htotal hkey l k, h, filter_mergeSort htrans htotal hkey l' k]
  · intro h
    have hsorted : ∀ k, (l.mergeSort le).filter (key · = k) = (l'.mergeSort le).filter (key · = k) := by
      intro k
      rw [filter_mergeSort htrans htotal hkey, filter_mergeSort htrans htotal hkey, h]
    have hanti' : ∀ a ∈ l.mergeSort le, ∀ b ∈ l'.mergeSort le, le a b = true → le b a = true → key a = key b :=
      fun a ha b hb => hanti a (List.mem_mergeSort.mp ha) b (List.mem_mergeSort.mp hb)
    exact eq_of_filter_eq hanti' (List.pairwise_mergeSort htrans htotal l) (List.pairwise_mergeSort htrans htotal l')
      hsorted

/-- Lists that agree key by key hold the same items. -/
theorem perm_of_filter_eq [DecidableEq α] (h : ∀ k, l.filter (key · = k) = l'.filter (key · = k)) : l.Perm l' := by
  rw [List.perm_iff_count]
  intro a
  have hcount : ∀ l : List α, List.count a (l.filter (key · = key a)) = List.count a l := fun l =>
    List.count_filter (by simp)
  rw [← hcount l, h, hcount l']

/-- Where equal keys mean equal items, the order of the items does not matter. -/
theorem filter_eq_of_perm (hl : ∀ a ∈ l, ∀ b ∈ l, key a = key b → a = b) (h : l.Perm l') (k : κ) :
    l.filter (key · = k) = l'.filter (key · = k) := by
  have hperm := h.filter (key · = k)
  cases hfirst : l.filter (key · = k) with
  | nil =>
      rw [hfirst] at hperm
      exact hperm.nil_eq
  | cons a rest =>
      have ha : a ∈ l.filter (key · = k) := hfirst ▸ List.mem_cons_self
      have hall : ∀ b ∈ l.filter (key · = k), b = a := by
        intro b hb
        have hb' := List.mem_filter.mp hb
        have ha' := List.mem_filter.mp ha
        simp only [decide_eq_true_eq] at hb' ha'
        exact hl b hb'.1 a ha'.1 (hb'.2.trans ha'.2.symm)
      rw [← hfirst, List.eq_replicate_of_mem hall]
      rw [List.eq_replicate_of_mem hall] at hperm
      exact List.replicate_perm.mp hperm

end Stable

/-! ## Words -/

namespace Collate

/-- A letter, a digit, a hyphen or a colon. -/
def isPlain (c : Char) : Bool := c.isAlphanum || c == '-' || c == ':'

/-- A word of such characters; only between these does the collation below tell. -/
def IsWord (s : String) : Prop := s.toList.all isPlain = true

instance (s : String) : Decidable (IsWord s) := inferInstanceAs (Decidable (_ = true))

/-- The place of a character in the root collation: marks, digits, then letters of either case. -/
def primary (c : Char) : ℕ :=
  if c = '-' then 0 else if c = ':' then 1
  else if c.toNat < 65 then c.toNat - 46
  else if c.toNat < 97 then c.toNat - 53
  else c.toNat - 85

/-- Capitals come second. -/
def tertiary (c : Char) : ℕ := if c.isUpper then 1 else 0

def primaries (s : String) : List ℕ := s.toList.map primary

def tertiaries (s : String) : List ℕ := s.toList.map tertiary

/-- `localeCompare`: case matters only between words that differ in nothing else. -/
def localeCompare : String → String → Ordering := compareLex (compareOn primaries) (compareOn tertiaries)

def le (s t : String) : Bool := (localeCompare s t).isLE

/-- A character of a word by its code. -/
theorem isPlain_cases {c : Char} (h : isPlain c = true) : c = '-' ∨ c = ':' ∨ 48 ≤ c.toNat ∧ c.toNat ≤ 57 ∨
    65 ≤ c.toNat ∧ c.toNat ≤ 90 ∨ 97 ≤ c.toNat ∧ c.toNat ≤ 122 := by
  delta isPlain Char.isAlphanum Char.isAlpha Char.isUpper Char.isLower Char.isDigit at h
  simp only [Bool.or_eq_true, Bool.and_eq_true, decide_eq_true_eq, beq_iff_eq, ge_iff_le, UInt32.le_iff_toNat_le] at h
  simp only [Char.toNat]
  rcases h with (((h | h) | h) | h) | h
  · exact Or.inr (Or.inr (Or.inr (Or.inl h)))
  · exact Or.inr (Or.inr (Or.inr (Or.inr h)))
  · exact Or.inr (Or.inr (Or.inl h))
  · exact Or.inl h
  · exact Or.inr (Or.inl h)

theorem tertiary_eq {c : Char} : tertiary c = if 65 ≤ c.toNat ∧ c.toNat ≤ 90 then 1 else 0 := by
  delta tertiary Char.isUpper
  simp only [decide_eq_true_eq, ge_iff_le, UInt32.le_iff_toNat_le, Char.toNat]
  rfl

/-- Both weights together give the character. -/
theorem weights_inj {c c' : Char} (hc : isPlain c = true) (hc' : isPlain c' = true) (hp : primary c = primary c')
    (ht : tertiary c = tertiary c') : c = c' := by
  have hdash : ∀ c : Char, c = '-' ↔ c.toNat = 45 := fun c => Char.toNat_inj.symm
  have hcolon : ∀ c : Char, c = ':' ↔ c.toNat = 58 := fun c => Char.toNat_inj.symm
  have hc := isPlain_cases hc
  have hc' := isPlain_cases hc'
  rw [tertiary_eq, tertiary_eq] at ht
  simp only [primary, hdash, hcolon] at hp hc hc'
  apply Char.toNat_inj.mp
  split_ifs at hp ht <;> omega

instance : Std.TransCmp localeCompare := inferInstanceAs (Std.TransCmp (compareLex _ _))

theorem le_trans (s t u : String) (h : le s t = true) (h' : le t u = true) : le s u = true :=
  Std.TransCmp.isLE_trans h h'

theorem le_total (s t : String) : (le s t || le t s) = true := by
  rw [Bool.or_eq_true, or_iff_not_imp_left]
  intro h
  have hlt : localeCompare t s = .lt := Std.OrientedCmp.lt_of_not_isLE h
  rw [le, hlt]
  rfl

theorem le_refl (s : String) : le s s = true :=
  (Std.ReflCmp.isLE_rfl : (localeCompare s s).isLE = true)

theorem words_inj {l l' : List Char} (hl : l.all isPlain = true) (hl' : l'.all isPlain = true)
    (hp : l.map primary = l'.map primary) (ht : l.map tertiary = l'.map tertiary) : l = l' := by
  induction l generalizing l' with
  | nil => exact (List.map_eq_nil_iff.mp hp.symm).symm
  | cons c l ih =>
      cases l' with
      | nil => cases hp
      | cons c' l' =>
          simp only [List.all_cons, Bool.and_eq_true] at hl hl'
          simp only [List.map_cons, List.cons.injEq] at hp ht
          rw [weights_inj hl.1 hl'.1 hp.1 ht.1, ih hl.2 hl'.2 hp.2 ht.2]

/-- No two words are taken for one. -/
theorem eq_of_le {s t : String} (hs : IsWord s) (ht : IsWord t) (h : le s t = true) (h' : le t s = true) : s = t := by
  have heq : localeCompare s t = .eq := Std.OrientedCmp.isLE_antisymm h h'
  obtain ⟨hp, hcase⟩ := compareLex_eq_eq.mp heq
  have hp : primaries s = primaries t := Std.LawfulEqOrd.eq_of_compare hp
  have hcase : tertiaries s = tertiaries t := Std.LawfulEqOrd.eq_of_compare hcase
  exact String.toList_injective (words_inj hs ht hp hcase)

end Collate

end BullsUnicorns
