import BullsUnicorns.Lib.Prefix
import BullsUnicorns.Lib.Word

/-!
# The round account and its books

The layout crate `arena-state`: a fighter, the phases, the round, and the arithmetic that says a
round adds up. Alignment bytes, the PDA bump and the arena key are not kept: no rule reads them.
-/

namespace BullsUnicorns.Chain

open Word

/-- A hash, a seed or the bytes of an address. -/
abbrev Bytes32 := Vector UInt8 32

abbrev Pubkey := Bytes32

/-- The all-zero address, and an account's seed before it is written. -/
def zeroBytes : Bytes32 := Vector.replicate 32 0

def maxFighters : ℕ := 48

structure Fighter where
  wallet : Pubkey
  /-- Net of the fee: what they put in. -/
  stake : ℕ
  hp : ℕ
  banked : ℕ
  side : UInt8
  dead : UInt8
deriving DecidableEq

def Fighter.blank : Fighter := ⟨zeroBytes, 0, 0, 0, 0, 0⟩

def Fighter.holds (f : Fighter) : ℕ := f.hp + f.banked

inductive Phase where
  | lobby
  | drawing
  | fight
  | settled
  | abandoned
deriving DecidableEq

/-- The phases in which nothing about a round moves any more. -/
def Phase.terminal (p : Phase) : Prop := p = .settled ∨ p = .abandoned

instance (p : Phase) : Decidable p.terminal := by unfold Phase.terminal; infer_instance

structure RoundState where
  roundNo : ℕ
  phase : Phase
  winner : UInt8
  fighterCount : ℕ
  houseSwept : UInt8
  tickCount : ℕ
  pot : ℕ
  penaltiesCollected : ℕ
  feesCollected : ℕ
  seedCommit : Bytes32
  seed : Bytes32
  lobbyOpenedAt : ℤ
  lobbyClosesAt : ℤ
  fightStartedAt : ℤ
  fighters : Vector Fighter maxFighters
deriving DecidableEq

namespace RoundState

def isSwept (r : RoundState) : Bool := r.houseSwept != 0

/-- What the fighters are still owed: `hp + banked` over the live prefix, or nothing when the count
is past the array or the sum does not fit. -/
def playersHold (r : RoundState) : Option ℕ :=
  if r.fighterCount > maxFighters then none
  else
    (r.fighters.toList.take r.fighterCount).foldlM
      (fun acc f => (checkedAdd 64 acc f.hp).bind fun a => checkedAdd 64 a f.banked) 0

def houseTook (r : RoundState) : Option ℕ := checkedAdd 64 r.penaltiesCollected r.feesCollected

def grossDeposits (r : RoundState) : Option ℕ := checkedAdd 64 r.pot r.feesCollected

/-- `sum(hp + banked) + penalties_collected == pot`, from the account alone. -/
def conserves (r : RoundState) : Bool :=
  match r.playersHold with
  | none => false
  | some held =>
      match checkedAdd 64 held r.penaltiesCollected with
      | none => false
      | some ring => ring == r.pot

/-! ## The books over the integers -/

def held (r : RoundState) : ℕ := Prefix.sum Fighter.holds r.fighters r.fighterCount

def staked (r : RoundState) : ℕ := Prefix.sum Fighter.stake r.fighters r.fighterCount

end RoundState

theorem foldlM_checkedAdd (fs : List Fighter) (acc s : ℕ) (hacc : acc < 2 ^ 64) :
    fs.foldlM (fun acc f => (checkedAdd 64 acc f.hp).bind fun a => checkedAdd 64 a f.banked) acc =
        some s ↔
      acc + (fs.map Fighter.holds).sum < 2 ^ 64 ∧ acc + (fs.map Fighter.holds).sum = s := by
  induction fs generalizing acc with
  | nil => simpa using fun h => h ▸ hacc
  | cons f fs ih =>
      simp only [List.foldlM_cons, List.map_cons, List.sum_cons, Fighter.holds]
      by_cases hf : acc + f.hp + f.banked < 2 ^ 64
      · rw [checkedAdd_of_lt (by omega), Option.bind_some, checkedAdd_of_lt hf, Option.bind_eq_bind,
          Option.bind_some, ih _ hf]
        simp only [← Nat.add_assoc]
      · constructor
        · intro h
          rw [Option.bind_eq_bind, Option.bind_eq_some_iff] at h
          obtain ⟨b, hb, _⟩ := h
          rw [Option.bind_eq_some_iff] at hb
          obtain ⟨a, ha, hb⟩ := hb
          simp only [checkedAdd_eq_some] at ha hb
          omega
        · intro h; omega

theorem RoundState.playersHold_eq_some {r : RoundState} {s : ℕ} :
    r.playersHold = some s ↔ r.fighterCount ≤ maxFighters ∧ r.held < 2 ^ 64 ∧ r.held = s := by
  unfold playersHold held Prefix.sum
  split
  · simp; omega
  · rw [foldlM_checkedAdd _ _ _ (by norm_num)]
    simp only [Nat.zero_add]
    constructor
    · intro h; exact ⟨by omega, h⟩
    · intro h; exact h.2

/-- The check of the code is the exact equation, on a live prefix inside the array and a pot that
fits. -/
theorem RoundState.conserves_iff {r : RoundState} (hpot : r.pot < 2 ^ 64) :
    r.conserves = true ↔
      r.fighterCount ≤ maxFighters ∧ r.held + r.penaltiesCollected = r.pot := by
  unfold conserves
  cases hh : r.playersHold with
  | none =>
      simp only [Bool.false_eq_true, false_iff, not_and]
      intro hn he
      have := (playersHold_eq_some (r := r) (s := r.held)).mpr ⟨hn, by omega, rfl⟩
      simp [hh] at this
  | some s =>
      obtain ⟨hn, hlt, rfl⟩ := playersHold_eq_some.mp hh
      by_cases hs : r.held + r.penaltiesCollected < 2 ^ 64
      · simp [checkedAdd_of_lt hs, hn]
      · simp only [checkedAdd_eq_none.mpr (Nat.le_of_not_lt hs), Bool.false_eq_true, false_iff, not_and]
        intro _ he; omega

end BullsUnicorns.Chain
