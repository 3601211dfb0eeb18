import BullsUnicorns.Chain.Books

/-!
# A round as its buffer reads

The account of a round with every field at its own width: what a validator writes is any of these, and no byte
of it is to be trusted. The books are read off the buffer, and a sweep writes into it in place.
-/

namespace BullsUnicorns.Chain

open Word

structure FighterBuffer where
  wallet : Pubkey
  stake : UInt64
  hp : UInt64
  banked : UInt64
  side : UInt8
  dead : UInt8
  padding : Vector UInt8 6
deriving DecidableEq

structure RoundBuffer where
  arena : Pubkey
  roundNo : UInt64
  phase : UInt8
  winner : UInt8
  fighterCount : UInt16
  bump : UInt8
  houseSwept : UInt8
  padding : Vector UInt8 2
  tickCount : UInt64
  pot : UInt64
  penaltiesCollected : UInt64
  feesCollected : UInt64
  seedCommit : Bytes32
  seed : Bytes32
  lobbyOpenedAt : Int64
  lobbyClosesAt : Int64
  fightStartedAt : Int64
  fighters : Vector FighterBuffer maxFighters
deriving DecidableEq

structure TreasuryBuffer where
  arena : Pubkey
  feesAccrued : UInt64
  penaltiesAccrued : UInt64
  roundsSwept : UInt64
  bump : UInt8
deriving DecidableEq

/-- `checked_add` on machine words. -/
def checkedAdd64 (a b : UInt64) : Option UInt64 := if a.toNat + b.toNat < 2 ^ 64 then some (a + b) else none

namespace RoundBuffer

def isSwept (r : RoundBuffer) : Bool := r.houseSwept != 0

def playersHold (r : RoundBuffer) : Option UInt64 :=
  if r.fighterCount.toNat > maxFighters then none
  else
    (r.fighters.toList.take r.fighterCount.toNat).foldlM
      (fun acc f => (checkedAdd64 acc f.hp).bind fun a => checkedAdd64 a f.banked) 0

def conserves (r : RoundBuffer) : Bool :=
  match r.playersHold with
  | none => false
  | some held =>
      match checkedAdd64 held r.penaltiesCollected with
      | none => false
      | some ring => ring == r.pot

/-- `sum(hp + banked)` over the live prefix, as integers. -/
def held (r : RoundBuffer) : ℕ := ((r.fighters.toList.take r.fighterCount.toNat).map fun f => f.hp.toNat + f.banked.toNat).sum

end RoundBuffer

/-- `apply_sweep`: the answer, and both buffers as it leaves them. -/
def applySweepInPlace (r : RoundBuffer) (t : TreasuryBuffer) :
    Except ArenaError (UInt64 × UInt64) × RoundBuffer × TreasuryBuffer :=
  if ¬(r.phase = 3 ∨ r.phase = 4) then (.error .roundNotTerminal, r, t)
  else if r.isSwept then (.error .alreadySwept, r, t)
  else if !r.conserves then (.error .conservationBroken, r, t)
  else
    let r := { r with houseSwept := 1 }
    match checkedAdd64 t.feesAccrued r.feesCollected with
    | none => (.error .mathOverflow, r, t)
    | some feesAccrued =>
        let t := { t with feesAccrued }
        match checkedAdd64 t.penaltiesAccrued r.penaltiesCollected with
        | none => (.error .mathOverflow, r, t)
        | some penaltiesAccrued =>
            let t := { t with penaltiesAccrued }
            match checkedAdd64 t.roundsSwept 1 with
            | none => (.error .mathOverflow, r, t)
            | some roundsSwept => (.ok (r.feesCollected, r.penaltiesCollected), r, { t with roundsSwept })

/-! ## The round that a buffer holds -/

def FighterBuffer.fighter (f : FighterBuffer) : Fighter := ⟨f.wallet, f.stake.toNat, f.hp.toNat, f.banked.toNat, f.side, f.dead⟩

/-- A byte that is no phase stands for none. -/
def phaseOf (b : UInt8) : Option Phase :=
  if b = 0 then some .lobby else if b = 1 then some .drawing else if b = 2 then some .fight
  else if b = 3 then some .settled else if b = 4 then some .abandoned else none

/-- The round in a buffer, under a phase. -/
def RoundBuffer.round (r : RoundBuffer) (phase : Phase) : RoundState where
  roundNo := r.roundNo.toNat
  phase := phase
  winner := r.winner
  fighterCount := r.fighterCount.toNat
  houseSwept := r.houseSwept
  tickCount := r.tickCount.toNat
  pot := r.pot.toNat
  penaltiesCollected := r.penaltiesCollected.toNat
  feesCollected := r.feesCollected.toNat
  seedCommit := r.seedCommit
  seed := r.seed
  lobbyOpenedAt := r.lobbyOpenedAt.toInt
  lobbyClosesAt := r.lobbyClosesAt.toInt
  fightStartedAt := r.fightStartedAt.toInt
  fighters := r.fighters.map FighterBuffer.fighter

def TreasuryBuffer.treasury (t : TreasuryBuffer) : Treasury :=
  ⟨t.feesAccrued.toNat, t.penaltiesAccrued.toNat, t.roundsSwept.toNat⟩

theorem checkedAdd64_toNat (a b : UInt64) : (checkedAdd64 a b).map UInt64.toNat = checkedAdd 64 a.toNat b.toNat := by
  unfold checkedAdd64 checkedAdd
  split
  · next h => rw [Option.map_some, UInt64.toNat_add, Nat.mod_eq_of_lt h]
  · rfl

theorem foldlM_checkedAdd64 (fs : List FighterBuffer) (acc : UInt64) :
    (fs.foldlM (fun acc f => (checkedAdd64 acc f.hp).bind fun a => checkedAdd64 a f.banked) acc).map UInt64.toNat =
      (fs.map FighterBuffer.fighter).foldlM
        (fun acc f => (checkedAdd 64 acc f.hp).bind fun a => checkedAdd 64 a f.banked) acc.toNat := by
  induction fs generalizing acc with
  | nil => rfl
  | cons f fs ih =>
      have hp := checkedAdd64_toNat acc f.hp
      simp only [List.foldlM_cons, List.map_cons, FighterBuffer.fighter]
      cases h₁ : checkedAdd64 acc f.hp with
      | none =>
          rw [h₁] at hp
          rw [← hp]
          rfl
      | some a =>
          have hbanked := checkedAdd64_toNat a f.banked
          rw [h₁, Option.map_some] at hp
          rw [← hp]
          cases h₂ : checkedAdd64 a f.banked with
          | none =>
              rw [h₂] at hbanked
              simp [← hbanked, h₂]
          | some b =>
              rw [h₂, Option.map_some] at hbanked
              simpa [← hbanked, h₂] using ih b

namespace RoundBuffer

variable (r : RoundBuffer) (phase : Phase)

/-- The books of a buffer are the books of the round in it. -/
theorem playersHold_round : r.playersHold.map UInt64.toNat = (r.round phase).playersHold := by
  unfold playersHold RoundState.playersHold
  split
  · next h => rw [if_pos (show (r.round phase).fighterCount > maxFighters from h)]; rfl
  · next h =>
      rw [if_neg (show ¬(r.round phase).fighterCount > maxFighters from h), foldlM_checkedAdd64]
      simp [round, Vector.toList_map, List.map_take]

theorem conserves_round : r.conserves = (r.round phase).conserves := by
  have hheld := playersHold_round r phase
  unfold conserves RoundState.conserves
  cases h : r.playersHold with
  | none =>
      rw [h] at hheld
      rw [← hheld]
      rfl
  | some held =>
      rw [h, Option.map_some] at hheld
      rw [← hheld]
      have hring := checkedAdd64_toNat held r.penaltiesCollected
      cases h' : checkedAdd64 held r.penaltiesCollected with
      | none =>
          rw [h'] at hring
          simp only [round, ← hring, Option.map_none, h']
      | some ring =>
          rw [h', Option.map_some] at hring
          simp only [round, ← hring, h']
          exact Bool.eq_iff_iff.mpr (by simp only [beq_iff_eq, UInt64.toNat_inj])

theorem held_round : (r.round phase).held = r.held := by
  simp [RoundState.held, Prefix.sum, held, round, Vector.toList_map, ← List.map_take, List.map_map, Function.comp_def,
    FighterBuffer.fighter, Fighter.holds]

end RoundBuffer

theorem checkedAdd64_cases (a b : UInt64) :
    checkedAdd64 a b = none ∧ checkedAdd 64 a.toNat b.toNat = none ∨
      ∃ c, checkedAdd64 a b = some c ∧ checkedAdd 64 a.toNat b.toNat = some c.toNat := by
  have h := checkedAdd64_toNat a b
  cases hab : checkedAdd64 a b with
  | none => exact Or.inl ⟨rfl, by rw [← h, hab]; rfl⟩
  | some c => exact Or.inr ⟨c, rfl, by rw [← h, hab]; rfl⟩

/-- On a buffer whose phase byte is a phase the sweep answers and writes what the rule on rounds says. -/
theorem applySweep_round (r : RoundBuffer) (t : TreasuryBuffer) {phase : Phase} (hphase : phaseOf r.phase = some phase) :
    applySweep (r.round phase) t.treasury =
      match applySweepInPlace r t with
      | (.ok (fees, penalties), r', t') => .ok (r'.round phase, t'.treasury, fees.toNat, penalties.toNat)
      | (.error e, _, _) => .error e := by
  have hterminal : (r.phase = 3 ∨ r.phase = 4) ↔ (r.round phase).phase.terminal := by
    change _ ↔ phase.terminal
    unfold phaseOf at hphase
    by_cases h₀ : r.phase = 0
    · rw [if_pos h₀, Option.some_inj] at hphase
      simp [h₀, ← hphase, Phase.terminal]
    by_cases h₁ : r.phase = 1
    · rw [if_neg h₀, if_pos h₁, Option.some_inj] at hphase
      simp [h₁, ← hphase, Phase.terminal]
    by_cases h₂ : r.phase = 2
    · rw [if_neg h₀, if_neg h₁, if_pos h₂, Option.some_inj] at hphase
      simp [h₂, ← hphase, Phase.terminal]
    by_cases h₃ : r.phase = 3
    · rw [if_neg h₀, if_neg h₁, if_neg h₂, if_pos h₃, Option.some_inj] at hphase
      simp [h₃, ← hphase, Phase.terminal]
    · rw [if_neg h₀, if_neg h₁, if_neg h₂, if_neg h₃] at hphase
      split at hphase
      · next h₄ =>
          rw [Option.some_inj] at hphase
          simp [h₄, ← hphase, Phase.terminal]
      · cases hphase
  have hswept : (r.round phase).isSwept = r.isSwept := rfl
  have hconserves := (r.conserves_round phase).symm
  unfold applySweepInPlace applySweep
  by_cases h₁ : r.phase = 3 ∨ r.phase = 4
  swap
  · simp only [require, if_neg (mt hterminal.mpr h₁), if_pos h₁]
    rfl
  by_cases h₂ : r.isSwept = true
  · simp only [require, if_pos (hterminal.mp h₁), hswept, h₂, not_not.mpr h₁]
    rfl
  by_cases h₃ : r.conserves = true
  swap
  · simp only [require, if_pos (hterminal.mp h₁), hswept, hconserves, h₂, h₃, not_not.mpr h₁]
    rfl
  simp only [require, if_pos (hterminal.mp h₁), hswept, hconserves, h₂, h₃, not_not.mpr h₁, ok_bind, if_true,
    Bool.not_true, Bool.false_eq_true, if_false]
  rcases checkedAdd64_cases t.feesAccrued r.feesCollected with ⟨h, h'⟩ | ⟨fees, h, h'⟩
  · simp only [RoundBuffer.round, TreasuryBuffer.treasury, h, h', okOr]
    rfl
  rcases checkedAdd64_cases t.penaltiesAccrued r.penaltiesCollected with ⟨g, g'⟩ | ⟨penalties, g, g'⟩
  · simp only [RoundBuffer.round, TreasuryBuffer.treasury, h, h', g, g', okOr, ok_bind]
    rfl
  have hone : (1 : UInt64).toNat = 1 := rfl
  rcases checkedAdd64_cases t.roundsSwept 1 with ⟨k, k'⟩ | ⟨rounds, k, k'⟩
  · rw [hone] at k'
    simp only [RoundBuffer.round, TreasuryBuffer.treasury, h, h', g, g', k, k', okOr, ok_bind]
    rfl
  · rw [hone] at k'
    simp only [RoundBuffer.round, TreasuryBuffer.treasury, h, h', g, g', k, k', okOr, ok_bind]
    rfl

end BullsUnicorns.Chain
