import Mathlib.Tactic

/-!
# Values written as text

`JSON.stringify` without spaces, over any way to write a number. A value is read back from the beginning of a
text, so different values are written differently.
-/

namespace BullsUnicorns

/-! ## Strings -/

namespace Quoted

/-- The characters with an escape of two characters, and its second one. -/
def escapes : List (Char × Char) :=
  [('"', '"'), ('\\', '\\'), ('\x08', 'b'), ('\t', 't'), ('\n', 'n'), ('\x0c', 'f'), ('\r', 'r')]

/-- A character inside quotes: other control characters are written in hexadecimal. -/
def escape (c : Char) : List Char :=
  match escapes.lookup c with
  | some e => ['\\', e]
  | none =>
    if c.toNat < 32 then ['\\', 'u', '0', '0', Nat.digitChar (c.toNat / 16), Nat.digitChar (c.toNat % 16)]
    else [c]

def chars : List Char → List Char
  | [] => ['"']
  | c :: cs => escape c ++ chars cs

/-- The text of a string. -/
def quote (s : String) : List Char := '"' :: chars s.toList

theorem lookup_escapes_inj {c c' e : Char} (h : escapes.lookup c = some e) (h' : escapes.lookup c' = some e) :
    c = c' := by
  have hmem : ∀ {c : Char}, escapes.lookup c = some e → (c, e) ∈ escapes := fun h => by
    obtain ⟨l₁, l₂, heq, -⟩ := List.lookup_eq_some_iff.mp h
    rw [heq]
    simp
  have hc := hmem h
  have hc' := hmem h'
  simp only [escapes, List.mem_cons, Prod.mk.injEq, List.not_mem_nil, or_false] at hc hc'
  rcases hc with ⟨rfl, rfl⟩ | ⟨rfl, rfl⟩ | ⟨rfl, rfl⟩ | ⟨rfl, rfl⟩ | ⟨rfl, rfl⟩ | ⟨rfl, rfl⟩ | ⟨rfl, rfl⟩ <;>
    simpa [eq_comm] using hc'

theorem lookup_escapes_ne {c e : Char} (h : escapes.lookup c = some e) : e ≠ 'u' := by
  obtain ⟨l₁, l₂, heq, -⟩ := List.lookup_eq_some_iff.mp h
  have hmem : (c, e) ∈ escapes := by
    rw [heq]
    simp
  rintro rfl
  simp [escapes] at hmem

theorem digitChar_inj {m n : ℕ} (hm : m < 16) (hn : n < 16) (h : Nat.digitChar m = Nat.digitChar n) : m = n := by
  interval_cases m <;> interval_cases n <;> first | rfl | cases h

/-- How a character is written: plainly, or after a backslash. -/
theorem escape_cases (c : Char) :
    (∃ e, escapes.lookup c = some e ∧ escape c = ['\\', e]) ∨
    (c.toNat < 32 ∧ escape c = ['\\', 'u', '0', '0', Nat.digitChar (c.toNat / 16), Nat.digitChar (c.toNat % 16)]) ∨
    (c ≠ '"' ∧ c ≠ '\\' ∧ escape c = [c]) := by
  cases h : escapes.lookup c with
  | some e => exact Or.inl ⟨e, rfl, by rw [escape, h]⟩
  | none =>
      refine Or.inr ?_
      by_cases hlt : c.toNat < 32
      · exact Or.inl ⟨hlt, by rw [escape, h]; exact if_pos hlt⟩
      · refine Or.inr ⟨?_, ?_, by rw [escape, h]; exact if_neg hlt⟩
        · rintro rfl
          cases h
        · rintro rfl
          cases h

/-- No character is written as a beginning of another. -/
theorem escape_inj {c c' : Char} {rest rest' : List Char} (h : escape c ++ rest = escape c' ++ rest') :
    c = c' ∧ rest = rest' := by
  rcases escape_cases c with ⟨e, he, hc⟩ | ⟨hlt, hc⟩ | ⟨-, hback, hc⟩ <;>
    rcases escape_cases c' with ⟨e', he', hc'⟩ | ⟨hlt', hc'⟩ | ⟨-, hback', hc'⟩ <;>
    rw [hc, hc'] at h <;>
    simp only [List.cons_append, List.nil_append, List.cons.injEq, true_and] at h
  case inl.inl =>
    obtain ⟨rfl, hrest⟩ := h
    exact ⟨lookup_escapes_inj he he', hrest⟩
  case inl.inr.inl => exact absurd h.1 (lookup_escapes_ne he)
  case inl.inr.inr => exact absurd h.1.symm hback'
  case inr.inl.inl => exact absurd h.1.symm (lookup_escapes_ne he')
  case inr.inl.inr.inl =>
    obtain ⟨hdiv, hmod, hrest⟩ := h
    have hdiv := digitChar_inj (by omega) (by omega) hdiv
    have hmod := digitChar_inj (Nat.mod_lt _ (by norm_num)) (Nat.mod_lt _ (by norm_num)) hmod
    exact ⟨Char.toNat_inj.mp (by omega), hrest⟩
  case inr.inl.inr.inr => exact absurd h.1.symm hback'
  case inr.inr.inl => exact absurd h.1 hback
  case inr.inr.inr.inl => exact absurd h.1 hback
  case inr.inr.inr.inr => exact h

/-- A character is never written like the closing quote. -/
theorem escape_ne_quote (c : Char) (rest rest' : List Char) : escape c ++ rest ≠ '"' :: rest' := by
  intro h
  rcases escape_cases c with ⟨e, -, hc⟩ | ⟨-, hc⟩ | ⟨hquote, -, hc⟩ <;> rw [hc] at h
  case inl => cases h
  case inr.inl => cases h
  case inr.inr => exact hquote (List.cons.inj h).1

theorem chars_inj {l l' rest rest' : List Char} (h : chars l ++ rest = chars l' ++ rest') : l = l' ∧ rest = rest' := by
  induction l generalizing l' with
  | nil =>
      cases l' with
      | nil => exact ⟨rfl, (List.cons.inj h).2⟩
      | cons c' l' =>
          rw [chars, chars, List.append_assoc] at h
          exact absurd h.symm (escape_ne_quote c' _ _)
  | cons c l ih =>
      cases l' with
      | nil =>
          rw [chars, chars, List.append_assoc] at h
          exact absurd h (escape_ne_quote c _ _)
      | cons c' l' =>
          rw [chars, chars, List.append_assoc, List.append_assoc] at h
          obtain ⟨hc, htail⟩ := escape_inj h
          obtain ⟨hl, hrest⟩ := ih htail
          exact ⟨by rw [hc, hl], hrest⟩

theorem quote_inj {s t : String} {rest rest' : List Char} (h : quote s ++ rest = quote t ++ rest') :
    s = t ∧ rest = rest' := by
  obtain ⟨hchars, hrest⟩ := chars_inj (List.cons.inj h).2
  exact ⟨String.toList_injective hchars, hrest⟩

end Quoted

/-! ## Values -/

/-- A way to write numbers that tells them apart and takes no mark of the notation. -/
structure Printer (ν : Type) where
  print : ν → List Char
  injective : Function.Injective print
  nonempty : ∀ n, print n ≠ []
  clean : ∀ n, ∀ c ∈ print n, c ∉ ['"', '[', '{', ',', ']', '}']

/-- What a text may stand for; the fields of a record are in the order they are written. -/
inductive Doc (ν : Type) where
  | num (n : ν)
  | str (s : String)
  | arr (items : List (Doc ν))
  | obj (fields : List (String × Doc ν))

namespace Doc

variable {ν : Type} (p : Printer ν)

mutual
def stringify : Doc ν → List Char
  | .num n => p.print n
  | .str s => Quoted.quote s
  | .arr [] => ['[', ']']
  | .arr (v :: vs) => '[' :: stringify v ++ stringifyItems vs
  | .obj [] => ['{', '}']
  | .obj ((k, v) :: fs) => '{' :: Quoted.quote k ++ ':' :: stringify v ++ stringifyFields fs

/-- The items after the first one. -/
def stringifyItems : List (Doc ν) → List Char
  | [] => [']']
  | v :: vs => ',' :: stringify v ++ stringifyItems vs

/-- The fields after the first one. -/
def stringifyFields : List (String × Doc ν) → List Char
  | [] => ['}']
  | (k, v) :: fs => ',' :: Quoted.quote k ++ ':' :: stringify v ++ stringifyFields fs
end

/-! ## Reading back -/

/-- A text after which a value is over. -/
def Stops (rest : List Char) : Prop := ∀ c ∈ rest.head?, c ∈ [',', ']', '}']

theorem stops_items (vs : List (Doc ν)) (rest : List Char) : Stops (stringifyItems p vs ++ rest) := by
  cases vs with
  | nil => simp [Stops, stringifyItems]
  | cons v vs => simp [Stops, stringifyItems]

theorem stops_fields (fs : List (String × Doc ν)) (rest : List Char) : Stops (stringifyFields p fs ++ rest) := by
  cases fs with
  | nil => simp [Stops, stringifyFields]
  | cons f fs => simp [Stops, stringifyFields]

/-- A number ends where no character of a number follows. -/
theorem print_inj {n m : ν} {rest rest' : List Char} (hrest : Stops rest) (hrest' : Stops rest')
    (h : p.print n ++ rest = p.print m ++ rest') : n = m ∧ rest = rest' := by
  have hcut : ∀ (n : ν) {rest : List Char}, Stops rest →
      (p.print n ++ rest).takeWhile (· ∉ [',', ']', '}']) = p.print n := by
    intro n rest hstops
    have hall : ∀ c ∈ p.print n, decide (c ∉ [',', ']', '}']) = true := by
      intro c hc
      have hclean := p.clean n c hc
      simp only [List.mem_cons, List.not_mem_nil, or_false, not_or] at hclean
      simp [hclean]
    rw [List.takeWhile_append_of_pos hall]
    cases rest with
    | nil => simp
    | cons c rest =>
        have hc := hstops c rfl
        rw [List.takeWhile_cons_of_neg (by simpa only [decide_eq_true_eq, not_not] using hc), List.append_nil]
  have hprint : p.print n = p.print m := by rw [← hcut n hrest, ← hcut m hrest', h]
  rw [hprint] at h
  exact ⟨p.injective hprint, List.append_cancel_left h⟩

/-- Each kind of value begins with its own mark, and a number with none of them. -/
def opens : Doc ν → Option Char
  | .num _ => none
  | .str _ => some '"'
  | .arr _ => some '['
  | .obj _ => some '{'

theorem stringify_cons (v : Doc ν) : ∃ c cs, stringify p v = c :: cs ∧ c ∉ [',', ']', '}'] ∧
    opens v = if c ∈ ['"', '[', '{'] then some c else none := by
  match v with
  | .num n =>
      obtain ⟨c, cs, hcs⟩ := List.exists_cons_of_ne_nil (p.nonempty n)
      have hclean := p.clean n c (hcs ▸ List.mem_cons_self)
      simp only [List.mem_cons, List.not_mem_nil, or_false, not_or] at hclean
      exact ⟨c, cs, by rw [stringify, hcs], by simp [hclean], by simp [opens, hclean]⟩
  | .str s => exact ⟨'"', _, rfl, by decide, rfl⟩
  | .arr [] => exact ⟨'[', _, rfl, by decide, rfl⟩
  | .arr (v :: vs) => exact ⟨'[', _, rfl, by decide, rfl⟩
  | .obj [] => exact ⟨'{', _, rfl, by decide, rfl⟩
  | .obj ((k, v) :: fs) => exact ⟨'{', _, rfl, by decide, rfl⟩

/-- Values that begin texts of one beginning are of one kind. -/
theorem opens_eq {v w : Doc ν} {rest rest' : List Char} (h : stringify p v ++ rest = stringify p w ++ rest') :
    opens v = opens w := by
  obtain ⟨c, cs, hv, -, hopens⟩ := stringify_cons p v
  obtain ⟨c', cs', hw, -, hopens'⟩ := stringify_cons p w
  rw [hv, hw] at h
  rw [hopens, hopens', (List.cons.inj h).1]

theorem not_stops (v : Doc ν) {rest tail : List Char} (hstops : Stops rest) : rest ≠ stringify p v ++ tail := by
  rintro rfl
  obtain ⟨c, cs, hv, hc, -⟩ := stringify_cons p v
  rw [hv] at hstops
  exact hc (hstops c rfl)

mutual
/-- A value is known from a text that begins with it. -/
theorem stringify_inj : ∀ {v w : Doc ν} {rest rest' : List Char}, Stops rest → Stops rest' →
    stringify p v ++ rest = stringify p w ++ rest' → v = w ∧ rest = rest' := by
  intro v w rest rest' hrest hrest' h
  have hopens := opens_eq p h
  match v, w with
  | .num n, .num m =>
      obtain ⟨rfl, hrests⟩ := print_inj p hrest hrest' h
      exact ⟨rfl, hrests⟩
  | .str s, .str t =>
      obtain ⟨rfl, hrests⟩ := Quoted.quote_inj h
      exact ⟨rfl, hrests⟩
  | .arr [], .arr [] => exact ⟨rfl, by simpa [stringify] using h⟩
  | .arr [], .arr (w :: ws) =>
      simp only [stringify, List.cons_append, List.nil_append, List.append_assoc, List.cons.injEq, true_and] at h
      exact absurd h (not_stops p w (by simp [Stops]))
  | .arr (v :: vs), .arr [] =>
      simp only [stringify, List.cons_append, List.nil_append, List.append_assoc, List.cons.injEq, true_and] at h
      exact absurd h.symm (not_stops p v (by simp [Stops]))
  | .arr (v :: vs), .arr (w :: ws) =>
      simp only [stringify, List.cons_append, List.append_assoc, List.cons.injEq, true_and] at h
      obtain ⟨rfl, hitems⟩ := stringify_inj (stops_items p _ _) (stops_items p _ _) h
      obtain ⟨rfl, hrests⟩ := stringifyItems_inj hitems
      exact ⟨rfl, hrests⟩
  | .obj [], .obj [] => exact ⟨rfl, by simpa [stringify] using h⟩
  | .obj [], .obj ((l, w) :: gs) => simp [stringify, Quoted.quote] at h
  | .obj ((k, v) :: fs), .obj [] => simp [stringify, Quoted.quote] at h
  | .obj ((k, v) :: fs), .obj ((l, w) :: gs) =>
      simp only [stringify, List.cons_append, List.append_assoc, List.cons.injEq, true_and] at h
      obtain ⟨rfl, hvalue⟩ := Quoted.quote_inj h
      obtain ⟨rfl, hfields⟩ := stringify_inj (stops_fields p _ _) (stops_fields p _ _) (List.cons.inj hvalue).2
      obtain ⟨rfl, hrests⟩ := stringifyFields_inj hfields
      exact ⟨rfl, hrests⟩

theorem stringifyItems_inj : ∀ {vs ws : List (Doc ν)} {rest rest' : List Char},
    stringifyItems p vs ++ rest = stringifyItems p ws ++ rest' → vs = ws ∧ rest = rest' := by
  intro vs ws rest rest' h
  match vs, ws with
  | [], [] => exact ⟨rfl, by simpa [stringifyItems] using h⟩
  | [], w :: ws => simp [stringifyItems] at h
  | v :: vs, [] => simp [stringifyItems] at h
  | v :: vs, w :: ws =>
      simp only [stringifyItems, List.cons_append, List.append_assoc, List.cons.injEq, true_and] at h
      obtain ⟨rfl, hitems⟩ := stringify_inj (stops_items p _ _) (stops_items p _ _) h
      obtain ⟨rfl, hrests⟩ := stringifyItems_inj hitems
      exact ⟨rfl, hrests⟩

theorem stringifyFields_inj : ∀ {fs gs : List (String × Doc ν)} {rest rest' : List Char},
    stringifyFields p fs ++ rest = stringifyFields p gs ++ rest' → fs = gs ∧ rest = rest' := by
  intro fs gs rest rest' h
  match fs, gs with
  | [], [] => exact ⟨rfl, by simpa [stringifyFields] using h⟩
  | [], (l, w) :: gs => simp [stringifyFields] at h
  | (k, v) :: fs, [] => simp [stringifyFields] at h
  | (k, v) :: fs, (l, w) :: gs =>
      simp only [stringifyFields, List.cons_append, List.append_assoc, List.cons.injEq, true_and] at h
      obtain ⟨rfl, hvalue⟩ := Quoted.quote_inj h
      obtain ⟨rfl, hfields⟩ := stringify_inj (stops_fields p _ _) (stops_fields p _ _) (List.cons.inj hvalue).2
      obtain ⟨rfl, hrests⟩ := stringifyFields_inj hfields
      exact ⟨rfl, hrests⟩
end

theorem stringify_injective : Function.Injective (stringify p) := by
  intro v w h
  have hnil : Stops [] := by simp [Stops]
  exact (stringify_inj p hnil hnil (by rw [h])).1

end Doc

end BullsUnicorns
