import Mathlib.Tactic
import Mathlib.Data.List.DropRight

/-!
# Histories

A history is a list, oldest first. A property of each of its entries with those before it, and the entries
since the last mark, both extended by one entry at the end.
-/

namespace BullsUnicorns.History

variable {α : Type*}

/-- Each entry, with the entries before it. -/
def EachAfter (P : List α → α → Prop) (history : List α) : Prop :=
  ∀ before a after, history = before ++ a :: after → P before a

theorem eachAfter_nil (P : List α → α → Prop) : EachAfter P [] := by
  intro before a after h
  simp at h

theorem EachAfter.snoc {P : List α → α → Prop} {history : List α} {a : α} (h : EachAfter P history)
    (ha : P history a) : EachAfter P (history ++ [a]) := by
  intro before b after heq
  rcases List.eq_nil_or_concat after with rfl | ⟨later, last, rfl⟩
  · obtain ⟨rfl, hlast⟩ := List.append_inj' heq rfl
    cases hlast
    exact ha
  · rw [List.concat_eq_append, ← List.cons_append, ← List.append_assoc] at heq
    exact h before b later (List.append_inj' heq rfl).1

theorem EachAfter.of_snoc {P : List α → α → Prop} {history : List α} {a : α} (h : EachAfter P (history ++ [a])) :
    EachAfter P history ∧ P history a :=
  ⟨fun before b after heq => h before b (after ++ [a]) (by simp [heq]), h history a [] rfl⟩

theorem EachAfter.imp {P Q : List α → α → Prop} {history : List α} (h : EachAfter P history)
    (himp : ∀ before a, P before a → Q before a) : EachAfter Q history :=
  fun before a after heq => himp before a (h before a after heq)

/-- The entries since the last mark, without it. -/
def since (mark : α → Bool) (history : List α) : List α := history.rtakeWhile fun a => !mark a

variable {mark : α → Bool} {history : List α} {a : α}

@[simp]
theorem since_nil : since mark ([] : List α) = [] := rfl

theorem since_mark (h : mark a = true) : since mark (history ++ [a]) = [] :=
  List.rtakeWhile_concat_neg _ _ _ (by simp [h])

theorem since_other (h : mark a = false) : since mark (history ++ [a]) = since mark history ++ [a] :=
  List.rtakeWhile_concat_pos _ _ _ (by simp [h])

/-- The entries since the last mark, where it and they are known. -/
theorem since_append {later : List α} (hbefore : ∀ b ∈ history.getLast?, mark b = true)
    (hlater : ∀ b ∈ later, mark b = false) : since mark (history ++ later) = later := by
  induction later using List.reverseRecOn with
  | nil =>
      rw [List.append_nil]
      rcases List.eq_nil_or_concat history with rfl | ⟨earlier, last, rfl⟩
      · rfl
      · rw [List.concat_eq_append]
        exact since_mark (hbefore last (by simp))
  | append_singleton later last ih =>
      rw [← List.append_assoc, since_other (hlater last (by simp)), ih fun b hb => hlater b (by simp [hb])]

theorem split_since (mark : α → Bool) (history : List α) :
    ∃ before, history = before ++ since mark history ∧ (∀ b ∈ before.getLast?, mark b = true) ∧
      ∀ b ∈ since mark history, mark b = false := by
  refine ⟨history.rdropWhile fun b => !mark b, List.rdropWhile_append_rtakeWhile.symm, ?_, ?_⟩
  · intro b hb
    obtain ⟨hne, rfl⟩ := List.mem_getLast?_eq_getLast hb
    simpa using List.rdropWhile_last_not (fun b => !mark b) history hne
  · intro b hb
    simpa using List.mem_rtakeWhile_imp hb

/-- Where a list has `c` entries with a property, the `c`-th of them splits it. -/
theorem exists_countP_prefix {p : α → Bool} {c : ℕ} (hc : 0 < c) (h : c ≤ history.countP p) :
    ∃ before a after, history = before ++ a :: after ∧ p a = true ∧ (before ++ [a]).countP p = c := by
  induction history using List.reverseRecOn with
  | nil =>
      rw [List.countP_nil] at h
      exact absurd hc (not_lt.mpr h)
  | append_singleton history a ih =>
      by_cases hearlier : c ≤ history.countP p
      · obtain ⟨before, b, after, rfl, hb, hcount⟩ := ih hearlier
        exact ⟨before, b, after ++ [a], by simp, hb, hcount⟩
      · rw [List.countP_append, List.countP_singleton] at h
        have ha : p a = true := by
          by_contra hno
          rw [if_neg hno] at h
          exact hearlier h
        refine ⟨history, a, [], rfl, ha, ?_⟩
        rw [if_pos ha] at h
        rw [List.countP_append, List.countP_singleton, if_pos ha]
        omega

/-- Some entry has the property, with the entries before it, and nothing after it ends it. -/
def Holds (P : List α → α → Prop) (ends : α → Prop) (history : List α) : Prop :=
  ∃ before a after, history = before ++ a :: after ∧ P before a ∧ ∀ later ∈ after, ¬ ends later

variable {P : List α → α → Prop} {ends : α → Prop}

@[simp]
theorem not_holds_nil : ¬ Holds P ends ([] : List α) := by
  rintro ⟨before, a, after, h, -⟩
  simp at h

theorem holds_snoc : Holds P ends (history ++ [a]) ↔ P history a ∨ Holds P ends history ∧ ¬ ends a := by
  constructor
  · rintro ⟨before, b, after, heq, hb, hafter⟩
    rcases List.eq_nil_or_concat after with rfl | ⟨later, last, rfl⟩
    · obtain ⟨rfl, hlast⟩ := List.append_inj' heq rfl
      cases hlast
      exact .inl hb
    · rw [List.concat_eq_append, ← List.cons_append, ← List.append_assoc] at heq
      obtain ⟨rfl, hlast⟩ := List.append_inj' heq rfl
      cases hlast
      exact .inr ⟨⟨before, b, later, rfl, hb, fun c hc => hafter c (by simp [hc])⟩, hafter a (by simp)⟩
  · rintro (ha | ⟨⟨before, b, after, rfl, hb, hafter⟩, ha⟩)
    · exact ⟨history, a, [], rfl, ha, by simp⟩
    · refine ⟨before, b, after ++ [a], by simp, hb, fun c hc => ?_⟩
      rcases List.mem_append.mp hc with hc | hc
      · exact hafter c hc
      · cases List.mem_singleton.mp hc
        exact ha

end BullsUnicorns.History
