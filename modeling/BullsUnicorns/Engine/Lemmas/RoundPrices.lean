import BullsUnicorns.Engine.RoundPrices

/-!
# One call for a price

What a call returns it keeps under its own key. Under another key it changes nothing but what it forgets, and that
only when it opens a round.
-/

namespace BullsUnicorns.Engine

variable {s : RoundPrices} {k k' : RoundKey} {f : Field} {feed : Feed}

theorem get_remember_self {ν : Type} {m : OrderedMap RoundKey ν} {v : ν} (hnew : m.get k = none) :
    (remember m k v).get k = some v := OrderedMap.get_setBounded_self hnew (by decide)

namespace RoundPrices

theorem usdPerUnitSafe_sol (feed : Feed) (s : RoundPrices) : (s.usdPerUnitSafe feed .sol).1 = 1 := by
  simp [usdPerUnitSafe, usdPerUnit]

theorem usdPerUnitSafe_feed (hf : f ≠ .sol) (hpos : 0 < feed f) : (s.usdPerUnitSafe feed f).1 = feed f := by
  simp [usdPerUnitSafe, usdPerUnit, hf, hpos]

theorem usdPerUnitSafe_maps (feed : Feed) (f : Field) (s : RoundPrices) :
    (s.usdPerUnitSafe feed f).2.roundPx = s.roundPx ∧ (s.usdPerUnitSafe feed f).2.roundFlow = s.roundFlow := by
  unfold usdPerUnitSafe
  dsimp only
  split
  · exact ⟨rfl, rfl⟩
  · exact ⟨rfl, rfl⟩

/-- The record that a call works on is the one of its round. -/
theorem openPx_get (k : RoundKey) (s : RoundPrices) :
    (s.openPx k).2.roundPx.get k = some (s.openPx k).1 ∧ (s.openPx k).2.roundFlow = s.roundFlow := by
  unfold openPx
  cases hget : s.roundPx.get k with
  | some m => exact ⟨hget, rfl⟩
  | none => exact ⟨get_remember_self hget, rfl⟩

theorem openPx_found {m : Field → ℚ} (h : s.roundPx.get k = some m) : s.openPx k = (m, s) := by
  rw [openPx, h]

/-- A price that is there is returned, and nothing changes. -/
theorem pxForRound_found {m : Field → ℚ} (h : s.roundPx.get k = some m) (hpos : 0 < m f) :
    s.pxForRound feed k f = (m f, s) := by
  rw [pxForRound, openPx_found h]
  exact if_pos hpos

/-- Else the feed is asked, and the answer kept. -/
theorem pxForRound_asked (h : ¬ 0 < (s.openPx k).1 f) :
    (s.pxForRound feed k f).1 = ((s.openPx k).2.usdPerUnitSafe feed f).1 ∧
      (s.pxForRound feed k f).2.roundPx =
        (s.openPx k).2.roundPx.set k (Function.update (s.openPx k).1 f ((s.openPx k).2.usdPerUnitSafe feed f).1) ∧
      (s.pxForRound feed k f).2.roundFlow = s.roundFlow := by
  have hmaps := usdPerUnitSafe_maps feed f (s.openPx k).2
  have hflow := (openPx_get k s).2
  rw [pxForRound]
  rcases hopen : s.openPx k with ⟨m, s₁⟩
  rw [hopen] at h hmaps hflow
  dsimp only at h hmaps hflow ⊢
  rw [if_neg h]
  exact ⟨rfl, by rw [hmaps.1], hmaps.2.trans hflow⟩

theorem pxForRound_flow (feed : Feed) (k : RoundKey) (f : Field) (s : RoundPrices) :
    (s.pxForRound feed k f).2.roundFlow = s.roundFlow := by
  by_cases h : 0 < (s.openPx k).1 f
  · have hflow := (openPx_get k s).2
    rw [pxForRound]
    rcases hopen : s.openPx k with ⟨m, s₁⟩
    rw [hopen] at h hflow
    dsimp only
    rw [if_pos h]
    exact hflow
  · exact (pxForRound_asked h).2.2

/-- What a call leaves under its own key holds the price that it returned. -/
theorem pxForRound_kept (feed : Feed) (k : RoundKey) (f : Field) (s : RoundPrices) :
    (s.pxForRound feed k f).2.roundPx.get k = some (Function.update (s.openPx k).1 f (s.pxForRound feed k f).1) := by
  by_cases h : 0 < (s.openPx k).1 f
  · have hget := (openPx_get k s).1
    rw [pxForRound]
    rcases hopen : s.openPx k with ⟨m, s₁⟩
    rw [hopen] at h hget
    dsimp only
    rw [if_pos h, Function.update_eq_self]
    exact hget
  · rw [(pxForRound_asked h).2.1, OrderedMap.get_set, if_pos rfl, (pxForRound_asked h).1]

/-- Under another key a call changes nothing but what it forgets. -/
theorem pxForRound_other (feed : Feed) (f : Field) (hne : k' ≠ k) :
    (s.pxForRound feed k f).2.roundPx.get k' = (s.openPx k).2.roundPx.get k' := by
  by_cases h : 0 < (s.openPx k).1 f
  · rw [pxForRound]
    rcases hopen : s.openPx k with ⟨m, s₁⟩
    rw [hopen] at h
    dsimp only
    rw [if_pos h]
  · rw [(pxForRound_asked h).2.1, OrderedMap.get_set, if_neg hne]

theorem openPx_new (hnew : s.roundPx.get k = none) :
    s.openPx k = (fun _ => 0, { s with roundPx := remember s.roundPx k fun _ => 0 }) := by
  rw [openPx, hnew]

theorem of_openPx {m : Field → ℚ} (hne : k' ≠ k) (h : (s.openPx k).2.roundPx.get k' = some m) :
    s.roundPx.get k' = some m := by
  cases hget : s.roundPx.get k with
  | some m₀ => rwa [openPx_found hget] at h
  | none =>
      rw [openPx_new hget] at h
      exact OrderedMap.of_get_setBounded hget (by decide) hne h

/-- A round is found again after another one's record is opened, if that does not forget it. -/
theorem openPx_spared {m : Field → ℚ} (h : s.roundPx.get k' = some m)
    (hspared : s.roundPx.get k = none → KEPT_ROUNDS ≤ s.roundPx.entries.length →
      (k', m) ∉ s.roundPx.entries.take FORGOTTEN_ROUNDS) : (s.openPx k).2.roundPx.get k' = some m := by
  cases hget : s.roundPx.get k with
  | some m₀ => rwa [openPx_found hget]
  | none =>
      rw [openPx_new hget]
      exact OrderedMap.get_setBounded_of_kept hget (by decide) h (hspared hget)

theorem openPx_forgets {m : Field → ℚ} (hnew : s.roundPx.get k = none)
    (hfull : KEPT_ROUNDS ≤ s.roundPx.entries.length) (h : (k', m) ∈ s.roundPx.entries.take FORGOTTEN_ROUNDS) :
    (s.openPx k).2.roundPx.get k' = none := by
  rw [openPx_new hnew]
  exact OrderedMap.get_setBounded_of_dropped hnew (by decide) hfull h

/-- A price stays as long as the record of its round is there. -/
theorem pxForRound_keeps {f' : Field} {m m' : Field → ℚ} (hm : s.roundPx.get k' = some m) (hpos : 0 < m f')
    (h : (s.pxForRound feed k f).2.roundPx.get k' = some m') : m' f' = m f' := by
  by_cases hk : k' = k
  · subst hk
    rw [pxForRound_kept, Option.some_inj] at h
    rw [← h, openPx_found hm]
    by_cases hf : f' = f
    · subst hf
      rw [Function.update_self, pxForRound_found hm hpos]
    · rw [Function.update_of_ne hf]
  · rw [pxForRound_other feed f hk] at h
    have hsame := of_openPx hk h
    rw [hm, Option.some_inj] at hsame
    rw [hsame]

end RoundPrices

end BullsUnicorns.Engine
