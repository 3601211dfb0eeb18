import BullsUnicorns.Battle.Round

/-!
# The canonical text of an entry list

A verifier who knows the entries, in any order, writes the same text, and from the text the entries can be
read back to 8 decimals.
-/

namespace BullsUnicorns.Battle

/-! ## What the server enters -/

/-- The text of a whole team number. -/
def teamText (team : ℚ) : Option String := if team.den = 1 then some (toString team.num) else none

section
variable {E R S : Type} (c : RunnerClass E R S) (slotText : S → Option String)

def RunnerClass.id (e : E) : String := (c.parts e).1

def RunnerClass.slot (e : E) : S := (c.parts e).2.1

def RunnerClass.stake (e : E) : ℚ := (c.parts e).2.2

/-- An entry that the server makes: its id is the owner, a bar, and the side or team, and its stake is a
plain decimal. Owners are base58 wallets or arena bots. -/
structure ServerMade (e : E) : Prop where
  id : ∃ owner slot, slotText (c.slot e) = some slot ∧ c.id e = owner ++ "|" ++ slot ∧
    ('|' ∉ owner.toList ∧ ';' ∉ owner.toList) ∧ '|' ∉ slot.toList ∧ ';' ∉ slot.toList
  nonneg : 0 ≤ c.stake e
  small : c.stake e < 10 ^ 21

/-- What two lists have to agree on: ids, sides and stakes to 8 decimals. -/
def RunnerClass.facts (e : E) : String × Option String × ℕ := (c.id e, slotText (c.slot e), Text.rounded (c.stake e))

def SameEntries (es es' : List E) : Prop := (es.map (c.facts slotText)).Perm (es'.map (c.facts slotText))

end

/-! ## The text of one entry -/

variable {p : Platform} {env : RoundEnv} {mode : Mode}

def entryText (env : RoundEnv) (e : Entry) : String :=
  e.id ++ "|" ++ e.side.key ++ "|" ++ Text.toFixed8 env.toText e.stake

/-- How the server makes an entry of a two-team round. -/
abbrev Made (p : Platform) (env : RoundEnv) (mode : Mode) (e : Entry) : Prop :=
  ServerMade (RoundRunner p env mode) (fun side => some side.key) e

theorem Made.owner {e : Entry} (h : Made p env mode e) :
    ∃ owner : String, e.id = owner ++ "|" ++ e.side.key ∧ ('|' ∉ owner.toList ∧ ';' ∉ owner.toList) ∧
      '|' ∉ e.side.key.toList ∧ ';' ∉ e.side.key.toList := by
  obtain ⟨owner, slot, hslot, hid, howner, hclean⟩ := h.id
  obtain rfl := Option.some.inj hslot
  exact ⟨owner, hid, howner, hclean⟩

theorem Made.fixed {e : Entry} (h : Made p env mode e) :
    '|' ∉ (Text.toFixed8 env.toText e.stake).toList ∧ ';' ∉ (Text.toFixed8 env.toText e.stake).toList :=
  ⟨Text.toFixed8_clean h.nonneg h.small (by decide) (by decide),
    Text.toFixed8_clean h.nonneg h.small (by decide) (by decide)⟩

/-- An entry's text is four parts with bars between them. -/
theorem entryText_join {e : Entry} {owner : String} (hid : e.id = owner ++ "|" ++ e.side.key) :
    entryText env e = Text.join '|' [owner, e.side.key, e.side.key, Text.toFixed8 env.toText e.stake] := by
  apply String.toList_injective
  simp [entryText, hid, Text.join]

theorem entryText_bar (e : Entry) : '|' ∈ (entryText env e).toList := by
  simp [entryText]

theorem Made.entryText_semi {e : Entry} (h : Made p env mode e) : ';' ∉ (entryText env e).toList := by
  obtain ⟨owner, hid, howner, hside⟩ := h.owner
  have hfixed := h.fixed
  simp only [entryText, hid, String.toList_append, List.mem_append, not_or]
  refine ⟨⟨⟨⟨⟨⟨howner.2, ?_⟩, hside.2⟩, ?_⟩, hside.2⟩, ?_⟩, hfixed.2⟩ <;> decide

theorem entryText_inj {e e' : Entry} (h : Made p env mode e) (h' : Made p env mode e')
    (htext : entryText env e = entryText env e') :
    (RoundRunner p env mode).facts (fun side => some side.key) e =
      (RoundRunner p env mode).facts (fun side => some side.key) e' := by
  obtain ⟨owner, hid, howner, hside⟩ := h.owner
  obtain ⟨owner', hid', howner', hside'⟩ := h'.owner
  have hfixed := h.fixed
  have hfixed' := h'.fixed
  rw [entryText_join hid, entryText_join hid'] at htext
  have hparts := Text.join_injective
    (by simp [howner.1, hside.1, hfixed.1]) (by simp [howner'.1, hside'.1, hfixed'.1])
    (List.cons_ne_nil _ _) (List.cons_ne_nil _ _) htext
  simp only [List.cons.injEq, and_true] at hparts
  obtain ⟨rfl, hkey, -, hstake⟩ := hparts
  have hrounded := (Text.toFixed8_inj h.nonneg h.small h'.nonneg h'.small).mp hstake
  have hids : e.id = e'.id := by rw [hid, hid', hkey]
  simp only [RunnerClass.facts, RunnerClass.id, RunnerClass.slot, RunnerClass.stake, RoundRunner, Equiv.coe_fn_mk] at hrounded ⊢
  rw [hids, hkey, hrounded]

theorem entryText_congr {e e' : Entry} (h : Made p env mode e) (h' : Made p env mode e')
    (hfacts : (RoundRunner p env mode).facts (fun side => some side.key) e =
      (RoundRunner p env mode).facts (fun side => some side.key) e') : entryText env e = entryText env e' := by
  simp only [RunnerClass.facts, RunnerClass.id, RunnerClass.slot, RunnerClass.stake, RoundRunner, Equiv.coe_fn_mk,
    Prod.mk.injEq, Option.some.injEq] at hfacts
  obtain ⟨hid, hkey, hrounded⟩ := hfacts
  have hstake : Text.toFixed8 env.toText e.stake = Text.toFixed8 env.toText e'.stake :=
    (Text.toFixed8_inj h.nonneg h.small h'.nonneg h'.small).mpr hrounded
  exact congrArg₂ (· ++ "|" ++ ·) (congrArg₂ (· ++ "|" ++ ·) hid hkey) hstake

/-! ## The text of a list -/

/-- Lists whose images under functions that separate the same elements are permuted are permuted. -/
theorem perm_map_of_inj {α β γ : Type} [Nonempty β] {f : α → β} {g : α → γ} {P : α → Prop} {l l' : List α}
    (hinj : ∀ a a', P a → P a' → g a = g a' → f a = f a') (hl : ∀ a ∈ l, P a) (hl' : ∀ a ∈ l', P a)
    (h : (l.map g).Perm (l'.map g)) : (l.map f).Perm (l'.map f) := by
  classical
  -- what an image of an element stands for
  let read : γ → β := fun b => if hb : ∃ a, P a ∧ g a = b then f hb.choose else Classical.arbitrary β
  have hread : ∀ a, P a → read (g a) = f a := by
    intro a ha
    have hb : ∃ a', P a' ∧ g a' = g a := ⟨a, ha, rfl⟩
    simp only [read, dif_pos hb]
    exact hinj _ _ hb.choose_spec.1 ha hb.choose_spec.2
  have hmap : ∀ l : List α, (∀ a ∈ l, P a) → (l.map g).map read = l.map f := by
    intro l hl
    rw [List.map_map]
    exact List.map_congr_left fun a ha => hread a (hl a ha)
  rw [← hmap l hl, ← hmap l' hl']
  exact h.map read

theorem join_ne_empty {l : List String} (hne : l ≠ []) (hbar : ∀ s ∈ l, '|' ∈ s.toList) : Text.join ';' l ≠ "" := by
  obtain ⟨s, l, rfl⟩ := List.exists_cons_of_ne_nil hne
  intro h
  have h := congrArg String.toList h
  have hs := hbar s List.mem_cons_self
  cases l with
  | nil =>
      rw [Text.join, String.toList_intercalate, List.map_cons, List.map_nil, List.intercalate_singleton] at h
      rw [h] at hs
      cases hs
  | cons t l =>
      rw [Text.join, String.toList_intercalate, List.map_cons, List.map_cons, List.intercalate_cons_cons] at h
      simp at h

/-- The canonical text determines the entries of the server to 8 decimals, and no more. -/
theorem canon_eq_iff {es es' : List Entry} (hes : ∀ e ∈ es, Made p env mode e) (hes' : ∀ e ∈ es', Made p env mode e) :
    canon env es = canon env es' ↔ SameEntries (RoundRunner p env mode) (fun side => some side.key) es es' := by
  have hcanon : ∀ l : List Entry, canon env l = Text.join ';' (Text.sort (l.map (entryText env))) := fun _ => rfl
  have hmem : ∀ l : List Entry, ∀ s ∈ Text.sort (l.map (entryText env)), ∃ e ∈ l, entryText env e = s := by
    intro l s hs
    exact List.mem_map.mp ((Text.sort_perm _).mem_iff.mp hs)
  have hbar : ∀ l : List Entry, ∀ s ∈ Text.sort (l.map (entryText env)), '|' ∈ s.toList := by
    intro l s hs
    obtain ⟨e, -, rfl⟩ := hmem l s hs
    exact entryText_bar e
  have hsemi : ∀ l : List Entry, (∀ e ∈ l, Made p env mode e) →
      ∀ s ∈ Text.sort (l.map (entryText env)), ';' ∉ s.toList := by
    intro l hl s hs
    obtain ⟨e, he, rfl⟩ := hmem l s hs
    exact (hl e he).entryText_semi
  rw [hcanon, hcanon]
  constructor
  · intro h
    have hsort : Text.sort (es.map (entryText env)) = Text.sort (es'.map (entryText env)) := by
      by_cases hnil : Text.sort (es.map (entryText env)) = []
      · by_contra hne
        refine join_ne_empty (fun hnil' => hne (hnil.trans hnil'.symm)) (hbar es') ?_
        rw [← h, hnil]
        rfl
      · by_cases hnil' : Text.sort (es'.map (entryText env)) = []
        · refine absurd ?_ (join_ne_empty hnil (hbar es))
          rw [h, hnil']
          rfl
        · exact Text.join_injective (hsemi es hes) (hsemi es' hes') hnil hnil' h
    exact perm_map_of_inj (P := Made p env mode) (fun _ _ => entryText_inj) hes hes' (Text.sort_eq_iff.mp hsort)
  · intro h
    have hperm : (es.map (entryText env)).Perm (es'.map (entryText env)) :=
      perm_map_of_inj (P := Made p env mode) (fun _ _ => entryText_congr) hes hes' h
    rw [Text.sort_eq_iff.mpr hperm]

theorem seedText_inj {secret : String} {es es' : List Entry} :
    seedText env secret es = seedText env secret es' ↔ canon env es = canon env es' := by
  simp [seedText]

end BullsUnicorns.Battle
