import BullsUnicorns.Chain.Buffers

/-!
# The books on hostile bytes

Whatever a buffer holds, the check of the code is the identity over the integers, and a sweep that is refused on the
round's state has written nothing.
-/

namespace BullsUnicorns.Chain

open Word

theorem RoundBuffer.playersHold_eq_some (r : RoundBuffer) (s : UInt64) :
    r.playersHold = some s ↔ r.fighterCount.toNat ≤ maxFighters ∧ r.held = s.toNat := by
  have hround := (RoundState.playersHold_eq_some (r := r.round .lobby) (s := s.toNat))
  rw [← r.playersHold_round .lobby, r.held_round .lobby] at hround
  have hlt := s.toNat_lt
  constructor
  · intro h
    obtain ⟨hcount, -, hsum⟩ := hround.mp (by rw [h]; rfl)
    exact ⟨hcount, hsum⟩
  · rintro ⟨hcount, hsum⟩
    obtain ⟨s', hs', he⟩ := Option.map_eq_some_iff.mp (hround.mpr ⟨hcount, hsum ▸ hlt, hsum⟩)
    rw [hs', UInt64.toNat_inj.mp he]

theorem RoundBuffer.playersHold_eq_none (r : RoundBuffer) :
    r.playersHold = none ↔ maxFighters < r.fighterCount.toNat ∨ 2 ^ 64 - 1 < r.held := by
  constructor
  · intro hnone
    by_contra hnot
    push Not at hnot
    have hfits : r.held < 2 ^ 64 := by omega
    have hsome := (r.playersHold_eq_some (UInt64.ofNatLT r.held hfits)).mpr ⟨hnot.1, by simp⟩
    rw [hnone] at hsome
    cases hsome
  · intro h
    cases hs : r.playersHold with
    | none => rfl
    | some s =>
        obtain ⟨hcount, hsum⟩ := (r.playersHold_eq_some s).mp hs
        have hlt := s.toNat_lt
        omega

/-- The errors of a sweep that say the round is not one to sweep. -/
def SweepRefusal (e : ArenaError) : Prop := e = .roundNotTerminal ∨ e = .alreadySwept ∨ e = .conservationBroken

/-- The books decide the identity over the integers on every buffer, and a sweep that the round's state refuses leaves
round and treasury as they were, byte for byte. -/
theorem books_decide_the_identity :
    (∀ r : RoundBuffer, r.playersHold = none ↔ maxFighters < r.fighterCount.toNat ∨ 2 ^ 64 - 1 < r.held) ∧
    (∀ r : RoundBuffer, r.conserves = true ↔
      r.fighterCount.toNat ≤ maxFighters ∧ r.held + r.penaltiesCollected.toNat = r.pot.toNat) ∧
    ∀ (r r' : RoundBuffer) (t t' : TreasuryBuffer) (e : ArenaError), SweepRefusal e →
      applySweepInPlace r t = (.error e, r', t') → r' = r ∧ t' = t := by
  refine ⟨fun r => r.playersHold_eq_none, fun r => ?_, ?_⟩
  · have hiff := RoundState.conserves_iff (r := r.round .lobby) r.pot.toNat_lt
    rw [← r.conserves_round .lobby, r.held_round .lobby] at hiff
    exact hiff
  · intro r r' t t' e he h
    unfold applySweepInPlace at h
    split at h
    · cases h
      exact ⟨rfl, rfl⟩
    split at h
    · cases h
      exact ⟨rfl, rfl⟩
    split at h
    · cases h
      exact ⟨rfl, rfl⟩
    -- past the guards only a sum that does not fit is an error
    have hoverflow : e = .mathOverflow ∨ ∃ took, (Except.error e : Except ArenaError (UInt64 × UInt64)) = .ok took := by
      extract_lets r₁ at h
      split at h
      · exact Or.inl (Except.error.inj (Prod.mk.inj h).1).symm
      extract_lets t₁ at h
      split at h
      · exact Or.inl (Except.error.inj (Prod.mk.inj h).1).symm
      extract_lets t₂ at h
      split at h
      · exact Or.inl (Except.error.inj (Prod.mk.inj h).1).symm
      · exact Or.inr ⟨_, (Prod.mk.inj h).1.symm⟩
    rcases hoverflow with rfl | ⟨took, htook⟩
    · rcases he with he | he | he <;> cases he
    · cases htook

end BullsUnicorns.Chain
