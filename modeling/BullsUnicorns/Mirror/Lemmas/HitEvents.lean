import BullsUnicorns.Mirror.HitEvents
import BullsUnicorns.Mirror.Lemmas.Parity

/-!
# What one entry of the list does to the fighters

Each turn of the loop is followed by the same turn on a copy, and a play is a `Tale`: the entries, with
the cursor going up.
-/

namespace BullsUnicorns.Mirror

open Chain (Bytes32)

variable {sha256 : List UInt8 → Bytes32}

/-! ## The observer sees what the loop reports -/

def NonNeg (fighters : List ERFighter) : Prop := ∀ f ∈ fighters, 0 ≤ f.hp

def Down (fighters : List ERFighter) (i : ℕ) : Prop := ∃ f, fighters[i]? = some f ∧ f.dead = 1

/-- An exchange between two that stand, for no more than the defender has. -/
structure Fair (fighters : List ERFighter) (event : HitEvent) (A D : ERFighter) : Prop where
  attacker : fighters[event.attackerId]? = some A
  defender : fighters[event.defenderId]? = some D
  apart : event.attackerId ≠ event.defenderId
  attackerUp : A.dead ≠ 1
  defenderUp : D.dead ≠ 1
  most : event.amount ≤ D.hp
  least : 0 ≤ A.hp → 0 ≤ D.hp → 0 < event.amount

theorem blow_le {A D : ERFighter} {roll : ℤ} (h0 : 0 ≤ roll) (h1 : roll ≤ 100) : blow A D roll ≤ D.hp := by
  have hbasis : (if A.hp < D.hp then A.hp else D.hp) ≤ D.hp := by
    split
    · omega
    · exact le_rfl
  rw [blow]
  generalize (if A.hp < D.hp then A.hp else D.hp) = basis at *
  by_cases hdust : D.hp ≤ dust
  · rw [if_pos hdust]
  · rw [if_neg hdust]
    have hD : 0 < D.hp := by
      simp only [dust] at hdust
      omega
    rcases le_total 0 basis with hb | hb
    · have hmul : basis * roll ≤ D.hp * 100 := mul_le_mul hbasis h1 h0 hD.le
      rw [Int.tdiv_eq_ediv_of_nonneg (mul_nonneg hb h0)]
      exact Int.ediv_le_of_le_mul (by norm_num) hmul
    · have hprod : basis * roll ≤ 0 := mul_nonpos_of_nonpos_of_nonneg hb h0
      have hneg : 0 ≤ (-(basis * roll)).tdiv 100 := Int.tdiv_nonneg (by omega) (by norm_num)
      rw [Int.neg_tdiv] at hneg
      omega

/-- Subtracting plainly is subtracting with saturation, up to all there is. -/
theorem hit_of_le {D : ERFighter} {dmg : ℤ} (h : dmg ≤ D.hp) :
    D.hit dmg = { D with hp := D.hp - dmg, dead := if D.hp - dmg = 0 then 1 else D.dead } := by
  have hsat : sat D.hp dmg = D.hp - dmg := by
    unfold sat
    split
    · rfl
    · omega
  rw [ERFighter.hit, hsat]

theorem slot_ok {fighters : List ERFighter} {i : ℕ} {f : ERFighter} :
    slot fighters i = .ok f ↔ fighters[i]? = some f := by
  rw [slot]
  cases fighters[i]? with
  | none => simp
  | some g => simp

theorem Fair.applied {fighters : List ERFighter} {event : HitEvent} {A D : ERFighter}
    (h : Fair fighters event A D) :
    applyHitEvent fighters event =
      .ok ((fighters.set event.defenderId (D.hit event.amount)).set event.attackerId
        (A.gains event.amount)) := by
  obtain ⟨hA, hD, hne, -, -, hle, -⟩ := h
  have hd : event.defenderId < fighters.length := (List.getElem?_eq_some_iff.mp hD).1
  have hA' : slot (fighters.set event.defenderId { D with hp := D.hp - event.amount }) event.attackerId =
      .ok A := slot_ok.mpr (by rwa [List.getElem?_set_ne hne.symm])
  have hD' : slot ((fighters.set event.defenderId { D with hp := D.hp - event.amount }).set
      event.attackerId (A.gains event.amount)) event.defenderId =
        .ok { D with hp := D.hp - event.amount } :=
    slot_ok.mpr (by rw [List.getElem?_set_ne hne, List.getElem?_set_self hd])
  rw [hit_of_le hle]
  simp only [applyHitEvent, slot_ok.mpr hD, ok_bind, hA']
  rw [show ({ A with banked := A.banked + event.amount } : ERFighter) = A.gains event.amount from rfl,
    hD', ok_bind]
  by_cases hz : D.hp - event.amount = 0
  · rw [if_pos hz, if_pos hz, List.set_comm _ _ hne, List.set_set, List.set_comm _ _ hne.symm]
    rfl
  · rw [if_neg hz, if_neg hz]
    rfl

theorem Fair.nonNeg {fighters : List ERFighter} {event : HitEvent} {A D : ERFighter}
    (h : Fair fighters event A D) (h0 : NonNeg fighters) :
    NonNeg ((fighters.set event.defenderId (D.hit event.amount)).set event.attackerId
      (A.gains event.amount)) := by
  intro f hf
  rcases List.mem_or_eq_of_mem_set hf with hf | rfl
  · rcases List.mem_or_eq_of_mem_set hf with hf | rfl
    · exact h0 f hf
    · rw [hit_of_le h.most]
      exact sub_nonneg.mpr h.most
  · exact h0 A (List.mem_of_getElem? h.attacker)

theorem Fair.down {fighters : List ERFighter} {event : HitEvent} {A D : ERFighter}
    (h : Fair fighters event A D) {i : ℕ} (hi : Down fighters i) :
    i ≠ event.attackerId ∧ i ≠ event.defenderId ∧
      Down ((fighters.set event.defenderId (D.hit event.amount)).set event.attackerId
        (A.gains event.amount)) i := by
  obtain ⟨f, hf, hdead⟩ := hi
  have hA : i ≠ event.attackerId := by
    rintro rfl
    rw [h.attacker] at hf
    cases hf
    exact h.attackerUp hdead
  have hD : i ≠ event.defenderId := by
    rintro rfl
    rw [h.defender] at hf
    cases hf
    exact h.defenderUp hdead
  exact ⟨hA, hD, f, by rwa [List.getElem?_set_ne hA.symm, List.getElem?_set_ne hD.symm], hdead⟩

/-! ## Leaving, on a copy -/

theorem leaver_lt {fighters : List ERFighter} {wallet : String} {i : ℕ}
    (h : leaver fighters wallet = some i) :
    ∃ f, fighters[i]? = some f ∧ f.wallet = wallet ∧ f.dead = 0 ∧ f.hp > 0 := by
  obtain ⟨hi, hp, -⟩ := List.findIdx?_eq_some_iff_getElem.mp h
  exact ⟨fighters[i], List.getElem?_eq_getElem hi, by simpa using hp⟩

/-- The one who leaves is down with nothing in the ring; the others are as they were. -/
theorem leaveCopy_cases (fighters : List ERFighter) (wallet : String) (cursor : ℤ) :
    leaver fighters wallet = none ∧ leaveCopy fighters wallet cursor = fighters ∨
      ∃ i f kept, leaver fighters wallet = some i ∧ fighters[i]? = some f ∧
        leaveCopy fighters wallet cursor = fighters.set i (f.leaves kept) := by
  cases hl : leaver fighters wallet with
  | none =>
      refine .inl ⟨rfl, ?_⟩
      simp only [leaveCopy, afterExtract, extract, hl]
  | some i =>
      obtain ⟨f, hf, -⟩ := leaver_lt hl
      refine .inr ⟨i, f, (splitExtraction f.hp fighters.length cursor).1, rfl, hf, ?_⟩
      simp only [leaveCopy, afterExtract, extract, hl, slot_ok.mpr hf, ok_bind]
      rfl

theorem leaveCopy_nonNeg {fighters : List ERFighter} (h : NonNeg fighters) (wallet : String) (cursor : ℤ) :
    NonNeg (leaveCopy fighters wallet cursor) := by
  rcases leaveCopy_cases fighters wallet cursor with ⟨-, heq⟩ | ⟨i, f, kept, -, -, heq⟩
  · rwa [heq]
  · rw [heq]
    intro g hg
    rcases List.mem_or_eq_of_mem_set hg with hg | rfl
    · exact h g hg
    · exact le_rfl

theorem leaveCopy_down {fighters : List ERFighter} {i : ℕ} (h : Down fighters i) (wallet : String)
    (cursor : ℤ) : Down (leaveCopy fighters wallet cursor) i := by
  rcases leaveCopy_cases fighters wallet cursor with ⟨-, heq⟩ | ⟨j, f, kept, -, hf, heq⟩
  · rwa [heq]
  · rw [heq]
    obtain ⟨g, hg, hdead⟩ := h
    have hj : j < fighters.length := (List.getElem?_eq_some_iff.mp hf).1
    by_cases hij : j = i
    · subst hij
      exact ⟨_, List.getElem?_set_self hj, rfl⟩
    · exact ⟨g, by rwa [List.getElem?_set_ne hij], hdead⟩

theorem leaver_down {fighters : List ERFighter} {wallet : String} {i : ℕ}
    (h : leaver fighters wallet = some i) (cursor : ℤ) : Down (leaveCopy fighters wallet cursor) i := by
  rcases leaveCopy_cases fighters wallet cursor with ⟨hn, -⟩ | ⟨j, f, kept, hj, hf, heq⟩
  · rw [h] at hn
    cases hn
  · rw [heq]
    obtain rfl : i = j := Option.some.inj (h.symm.trans hj)
    exact ⟨_, List.getElem?_set_self (List.getElem?_eq_some_iff.mp hf).1, rfl⟩

/-! ## A tale -/

/-- The entries between two states of the copy, at cursors that go up. -/
inductive Tale : ℤ → List ERFighter → List Told → List ERFighter → ℤ → Prop where
  | done {c c' : ℤ} {fs : List ERFighter} (hc : c ≤ c') : Tale c fs [] fs c'
  | hit {c c' : ℤ} {fs gs hs : List ERFighter} {event : HitEvent} {A D : ERFighter} {told : List Told}
      (hc : c ≤ event.step) (hfair : Fair fs event A D) (hgs : applyHitEvent fs event = .ok gs)
      (rest : Tale (event.step + 1) gs told hs c') : Tale c fs (.hit event :: told) hs c'
  | left {c c' cursor : ℤ} {fs hs : List ERFighter} {wallet : String} {told : List Told}
      (hc : c ≤ cursor) (rest : Tale cursor (leaveCopy fs wallet cursor) told hs c') :
      Tale c fs (.left wallet cursor :: told) hs c'

namespace Tale

variable {c c' c'' : ℤ} {fs gs hs : List ERFighter} {told told' : List Told}

theorem weaken (h : Tale c' fs told gs c'') (hc : c ≤ c') : Tale c fs told gs c'' := by
  cases h with
  | done hle => exact .done (hc.trans hle)
  | hit hle hfair hgs rest => exact .hit (hc.trans hle) hfair hgs rest
  | left hle rest => exact .left (hc.trans hle) rest

theorem append (h : Tale c fs told gs c') (h' : Tale c' gs told' hs c'') :
    Tale c fs (told ++ told') hs c'' := by
  induction h with
  | done hc => exact h'.weaken hc
  | hit hc hfair hgs _ ih => exact .hit hc hfair hgs (ih h')
  | left hc _ ih => exact .left hc (ih h')

/-- What is played back is what was there. -/
theorem playedBack (h : Tale c fs told gs c') : playBack fs told = .ok gs := by
  induction h with
  | done => rfl
  | hit _ _ hgs _ ih =>
      rw [playBack, List.foldlM_cons, Told.apply, hgs, ok_bind]
      exact ih
  | left _ _ ih =>
      rw [playBack, List.foldlM_cons, Told.apply, ok_bind]
      exact ih

/-- A tale can be cut at every place. -/
theorem cut (h : Tale c fs told gs c') {before after : List Told} (ht : told = before ++ after) :
    ∃ m ms, Tale c fs before ms m ∧ Tale m ms after gs c' := by
  induction before generalizing c fs told with
  | nil =>
      subst ht
      exact ⟨c, fs, .done le_rfl, h⟩
  | cons entry before ih =>
      subst ht
      cases h with
      | hit hc hfair hgs rest =>
          obtain ⟨m, ms, h₁, h₂⟩ := ih rest rfl
          exact ⟨m, ms, .hit hc hfair hgs h₁, h₂⟩
      | left hc rest =>
          obtain ⟨m, ms, h₁, h₂⟩ := ih rest rfl
          exact ⟨m, ms, .left hc h₁, h₂⟩

theorem nonNeg (h : Tale c fs told gs c') (h0 : NonNeg fs) : NonNeg gs := by
  induction h with
  | done => exact h0
  | hit _ hfair hgs _ ih =>
      rw [hfair.applied] at hgs
      cases hgs
      exact ih (hfair.nonNeg h0)
  | left _ _ ih => exact ih (leaveCopy_nonNeg h0 _ _)

theorem down (h : Tale c fs told gs c') {i : ℕ} (hi : Down fs i) : Down gs i := by
  induction h with
  | done => exact hi
  | hit _ hfair hgs _ ih =>
      rw [hfair.applied] at hgs
      cases hgs
      exact ih (hfair.down hi).2.2
  | left _ _ ih => exact ih (leaveCopy_down hi _ _)

theorem le (h : Tale c fs told gs c') : c ≤ c' := by
  induction h with
  | done hc => exact hc
  | hit hc _ _ _ ih => omega
  | left hc _ ih => omega

end Tale

end BullsUnicorns.Mirror
