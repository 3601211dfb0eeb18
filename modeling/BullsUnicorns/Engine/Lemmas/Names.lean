import BullsUnicorns.Engine.Process
import Mathlib.Data.List.TakeWhile

/-!
# Names

Who an id belongs to: the text of a key has no colon, the id of a bot begins with its arena, and the id of an
entry begins with its owner.
-/

namespace BullsUnicorns.Engine

open Battle

/-! ## Parts of a text -/

section
variable {α : Type} [DecidableEq α] {x : α}

/-- What stands before the first `x`. -/
theorem takeWhile_before {l : List α} (h : x ∉ l) (rest : List α) : (l ++ x :: rest).takeWhile (· ≠ x) = l := by
  induction l with
  | nil => simp
  | cons y l ih =>
      have hy : x ≠ y := fun he => h (he ▸ List.mem_cons_self)
      have hl : x ∉ l := fun hmem => h (List.mem_cons_of_mem y hmem)
      rw [List.cons_append, List.takeWhile_cons, if_pos (by simpa using fun he => hy he.symm), ih hl]

theorem dropWhile_before {l : List α} (h : x ∉ l) (rest : List α) : (l ++ x :: rest).dropWhile (· ≠ x) = x :: rest := by
  induction l with
  | nil => simp
  | cons y l ih =>
      have hy : x ≠ y := fun he => h (he ▸ List.mem_cons_self)
      have hl : x ∉ l := fun hmem => h (List.mem_cons_of_mem y hmem)
      rw [List.cons_append, List.dropWhile_cons, if_pos (by simpa using fun he => hy he.symm), ih hl]

/-- Two texts that agree, with one sign after a part without it, agree in both parts. -/
theorem append_cons_inj {l l' rest rest' : List α} (h : x ∉ l) (h' : x ∉ l') (heq : l ++ x :: rest = l' ++ x :: rest') :
    l = l' ∧ rest = rest' := by
  have hl : l = l' := by
    have hl := takeWhile_before h rest
    rw [heq, takeWhile_before h' rest'] at hl
    exact hl.symm
  subst hl
  simpa using heq

end

/-! ## Arenas and their bots -/

theorem Arena.text_clean (arena : Arena) : ':' ∉ arena.text.toList ∧ '|' ∉ arena.text.toList := by
  rcases arena with ⟨⟨pairing, eco⟩⟩ | ⟨eco | eco⟩
  · cases pairing <;> cases eco <;> decide +kernel
  · cases eco <;> decide +kernel
  · cases eco <;> decide +kernel

theorem Arena.text_inj {a b : Arena} (h : a.text = b.text) : a = b := by
  rcases a with ⟨⟨p, x⟩⟩ | ⟨x | x⟩ <;> rcases b with ⟨⟨p', y⟩⟩ | ⟨y | y⟩
  all_goals
    cases x <;> cases y
    all_goals first
      | (cases p <;> cases p' <;> first | rfl | exact absurd h (by decide +kernel))
      | (cases p <;> exact absurd h (by decide +kernel))
      | (cases p' <;> exact absurd h (by decide +kernel))
      | rfl
      | exact absurd h (by decide +kernel)

theorem toList_botId (arena : Arena) (n : ℕ) :
    (botId arena.text n).toList = arena.text.toList ++ ':' :: ("bot:".toList ++ (toString n).toList) := by
  simp [botId, String.toList_append]

theorem botId_inj {a b : Arena} {n m : ℕ} (h : botId a.text n = botId b.text m) : a = b ∧ n = m := by
  have hlist := congrArg String.toList h
  rw [toList_botId, toList_botId] at hlist
  obtain ⟨htext, hrest⟩ := append_cons_inj a.text_clean.1 b.text_clean.1 hlist
  exact ⟨Arena.text_inj (String.toList_injective htext), Text.toString_inj (String.toList_injective (List.append_cancel_left hrest))⟩

theorem colon_mem_botId (arena : Arena) (n : ℕ) : ':' ∈ (botId arena.text n).toList := by
  simp [toList_botId]

theorem bar_notMem_botId (arena : Arena) (n : ℕ) : '|' ∉ (botId arena.text n).toList := by
  rw [toList_botId]
  intro h
  rcases List.mem_append.mp h with h | h
  · exact arena.text_clean.2 h
  rcases List.mem_cons.mp h with h | h
  · exact absurd h (by decide)
  rcases List.mem_append.mp h with h | h
  · exact absurd h (by decide)
  · exact absurd (Text.isDigit_toString h) (by decide)

/-- The arena that the id of a bot begins with is the one it was made for. -/
theorem arena_of_botId {a b : Arena} {n : ℕ} (h : Text.startsWith (botId b.text n) (a.text ++ ":") = true) : b = a := by
  obtain ⟨rest, hrest⟩ := List.isPrefixOf_iff_prefix.mp h
  rw [toList_botId, String.toList_append] at hrest
  have hcut : a.text.toList ++ ':' :: rest = b.text.toList ++ ':' :: ("bot:".toList ++ (toString n).toList) := by
    rw [← hrest, List.append_assoc]
    rfl
  exact (Arena.text_inj (String.toList_injective (append_cons_inj a.text_clean.1 b.text_clean.1 hcut).1)).symm

theorem firstPart_botId (arena : Arena) (n : ℕ) : Text.firstPart ':' (botId arena.text n) = arena.text := by
  rw [Text.firstPart, toList_botId, takeWhile_before arena.text_clean.1, String.ofList_toList]

theorem colon_of_startsWith {id : String} {arena : Arena} (h : Text.startsWith id (arena.text ++ ":") = true) :
    ':' ∈ id.toList := by
  obtain ⟨rest, hrest⟩ := List.isPrefixOf_iff_prefix.mp h
  rw [← hrest, String.toList_append]
  simp

theorem IsKey.ne_of_colon {id key : String} (hkey : IsKey key) (h : ':' ∈ id.toList) : id ≠ key := by
  rintro rfl
  exact hkey.1 h

theorem treasury_ne {id : String} (h : ':' ∈ id.toList) : id ≠ TREASURY_ID := by
  rintro rfl
  exact absurd h (by decide +kernel)

/-! ## Owners of entries -/

/-- Who may own an entry of an arena: a player, or a bot of the arena. -/
def Owner (arena : Arena) (owner : String) : Prop := IsKey owner ∨ ∃ n, owner = botId arena.text n

theorem Owner.clean {arena : Arena} {owner : String} (h : Owner arena owner) : '|' ∉ owner.toList := by
  rcases h with hkey | ⟨n, rfl⟩
  · exact hkey.2.1
  · exact bar_notMem_botId arena n

theorem walletOf_append {owner rest : String} (h : '|' ∉ owner.toList) : walletOf (owner ++ "|" ++ rest) = owner := by
  have hlist : (owner ++ "|" ++ rest).toList = owner.toList ++ '|' :: rest.toList := by
    simp [String.toList_append]
  rw [walletOf, Text.firstPart, hlist, takeWhile_before h, String.ofList_toList]

theorem walletOf_entryId {owner : String} (side : Side) (h : '|' ∉ owner.toList) : walletOf (entryId owner side) = owner :=
  walletOf_append h

theorem walletOf_entryIdN (s : Settings) {owner : String} (team : ℚ) (h : '|' ∉ owner.toList) :
    walletOf (entryIdN s owner team) = owner := walletOf_append h

theorem teamOfEntry_entryIdN (s : Settings) {owner : String} (team : ℚ) (h : '|' ∉ owner.toList) :
    teamOfEntry s (entryIdN s owner team) = team := by
  have hlist : (entryIdN s owner team).toList = owner.toList ++ '|' :: (s.numText team).toList := by
    simp [entryIdN, String.toList_append]
  have htail : (s.numText team).toList.takeWhile (· ≠ '|') = (s.numText team).toList := by
    rw [List.takeWhile_eq_self_iff]
    intro c hc
    simpa using fun he : c = '|' => s.text_clean team (he ▸ hc)
  rw [teamOfEntry, hlist, dropWhile_before h, Text.firstPart]
  simp only [List.drop_succ_cons, List.drop_zero, htail, String.ofList_toList, s.read_text]

/-- An entry names its owner and its side. -/
theorem entryId_inj {o o' : String} {side side' : Side} (h : '|' ∉ o.toList) (h' : '|' ∉ o'.toList)
    (heq : entryId o side = entryId o' side') : o = o' ∧ side.key = side'.key := by
  have hlist : o.toList ++ '|' :: side.key.toList = o'.toList ++ '|' :: side'.key.toList := by
    have := congrArg String.toList heq
    simpa [entryId, String.toList_append] using this
  obtain ⟨ho, hk⟩ := append_cons_inj h h' hlist
  exact ⟨String.toList_injective ho, String.toList_injective hk⟩

end BullsUnicorns.Engine
