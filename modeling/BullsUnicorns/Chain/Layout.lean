import BullsUnicorns.Chain.Buffers
import BullsUnicorns.Lib.Layout

/-!
# The account of a round, byte for byte

`arena-state` lays the account out by alignment, the browser decodes it with the IDL from front to back, and
`verify-session-extract.mjs` takes each field at an offset of its own table.
-/

namespace BullsUnicorns.Chain

open Layout

def pubkey : Ty := .array 32 .u8

/-! ## The layout of the program -/

def Fighter.layout : Ty := .struct <| .ofList [
  ("wallet", pubkey), ("stake", .u64), ("hp", .u64), ("banked", .u64), ("side", .u8), ("dead", .u8),
  ("padding", .array 6 .u8)]

def RoundState.layout : Ty := .struct <| .ofList [
  ("arena", pubkey), ("round_no", .u64), ("phase", .u8), ("winner", .u8), ("fighter_count", .u16), ("bump", .u8),
  ("house_swept", .u8), ("padding", .array 2 .u8), ("tick_count", .u64), ("pot", .u64),
  ("penalties_collected", .u64), ("fees_collected", .u64), ("seed_commit", .array 32 .u8), ("seed", .array 32 .u8),
  ("lobby_opened_at", .i64), ("lobby_closes_at", .i64), ("fight_started_at", .i64),
  ("fighters", .array maxFighters Fighter.layout)]

/-- The account of the program: the state, and nothing beside it. -/
def Round.layout : Ty := .struct <| .ofList [("state", RoundState.layout)]

def Round.DISCRIMINATOR : List UInt8 := [87, 127, 165, 51, 73, 78, 116, 174]

def RoundState.SIZE : ℕ :=
  8 + 32 + 8 + 1 + 1 + 2 + 1 + 1 + 2 + 8 + 8 + 8 + 8 + 32 + 32 + 8 + 8 + 8 + Fighter.layout.size * maxFighters

/-! ## The layout of the IDL -/

namespace Idl

def Fighter : Ty := .struct <| .ofList [
  ("wallet", pubkey), ("stake", .u64), ("hp", .u64), ("banked", .u64), ("side", .u8), ("dead", .u8),
  ("padding", .array 6 .u8)]

def Round : Ty := .struct <| .ofList [
  ("arena", pubkey), ("round_no", .u64), ("phase", .u8), ("winner", .u8), ("fighter_count", .u16), ("bump", .u8),
  ("house_swept", .u8), ("padding", .array 2 .u8), ("tick_count", .u64), ("pot", .u64),
  ("penalties_collected", .u64), ("fees_collected", .u64), ("seed_commit", .array 32 .u8), ("seed", .array 32 .u8),
  ("lobby_opened_at", .i64), ("lobby_closes_at", .i64), ("fight_started_at", .i64), ("fighters", .array 48 Fighter)]

def discriminator : List UInt8 := [87, 127, 165, 51, 73, 78, 116, 174]

end Idl

/-! ## Buffers as values of the layout -/

namespace FighterBuffer

def ofVal : Fighter.layout.Val → FighterBuffer
  | (wallet, stake, hp, banked, side, dead, padding, _) => ⟨wallet, stake, hp, banked, side, dead, padding⟩

def toVal (f : FighterBuffer) : Fighter.layout.Val :=
  (f.wallet, f.stake, f.hp, f.banked, f.side, f.dead, f.padding, ())

end FighterBuffer

namespace RoundBuffer

def ofVal : RoundState.layout.Val → RoundBuffer
  | (arena, roundNo, phase, winner, fighterCount, bump, houseSwept, padding, tickCount, pot, penaltiesCollected,
      feesCollected, seedCommit, seed, lobbyOpenedAt, lobbyClosesAt, fightStartedAt, fighters, _) =>
      ⟨arena, roundNo, phase, winner, fighterCount, bump, houseSwept, padding, tickCount, pot, penaltiesCollected,
        feesCollected, seedCommit, seed, lobbyOpenedAt, lobbyClosesAt, fightStartedAt,
        Vector.map FighterBuffer.ofVal fighters⟩

def toVal (r : RoundBuffer) : RoundState.layout.Val :=
  (r.arena, r.roundNo, r.phase, r.winner, r.fighterCount, r.bump, r.houseSwept, r.padding, r.tickCount, r.pot,
    r.penaltiesCollected, r.feesCollected, r.seedCommit, r.seed, r.lobbyOpenedAt, r.lobbyClosesAt, r.fightStartedAt,
    r.fighters.map FighterBuffer.toVal, ())

/-- The bytes of the state. -/
def bytes (r : RoundBuffer) : List UInt8 := RoundState.layout.encode r.toVal

def account (r : RoundBuffer) : List UInt8 := Round.DISCRIMINATOR ++ r.bytes

end RoundBuffer

/-! ## The fields of a round -/

def Phase.byte : Phase → UInt8
  | .lobby => 0
  | .drawing => 1
  | .fight => 2
  | .settled => 3
  | .abandoned => 4

def Fighter.buffer (f : Fighter) : FighterBuffer where
  wallet := f.wallet
  stake := .ofNat f.stake
  hp := .ofNat f.hp
  banked := .ofNat f.banked
  side := f.side
  dead := f.dead
  padding := Vector.replicate 6 0

/-- The fields that the program writes for a round, each cut to its width. -/
def RoundState.buffer (r : RoundState) (arena : Pubkey) (bump : UInt8) : RoundBuffer where
  arena := arena
  roundNo := .ofNat r.roundNo
  phase := r.phase.byte
  winner := r.winner
  fighterCount := .ofNat r.fighterCount
  bump := bump
  houseSwept := r.houseSwept
  padding := Vector.replicate 2 0
  tickCount := .ofNat r.tickCount
  pot := .ofNat r.pot
  penaltiesCollected := .ofNat r.penaltiesCollected
  feesCollected := .ofNat r.feesCollected
  seedCommit := r.seedCommit
  seed := r.seed
  lobbyOpenedAt := .ofInt r.lobbyOpenedAt
  lobbyClosesAt := .ofInt r.lobbyClosesAt
  fightStartedAt := .ofInt r.fightStartedAt
  fighters := r.fighters.map Fighter.buffer

/-! ## Reading an account -/

/-- What the program loads: the account in place, behind its discriminator. -/
def loadRound (data : List UInt8) : Option RoundBuffer :=
  if data.take 8 = Round.DISCRIMINATOR ∧ Round.layout.size ≤ (data.drop 8).length then
    some (RoundBuffer.ofVal (Round.layout.view (data.drop 8)).1)
  else none

/-- `decodeRound` of `roundAccount.mjs`, and a fetch of the browser: Borsh by the IDL, whatever stands behind. -/
def decodeRound (data : List UInt8) : Option RoundBuffer :=
  if data.take 8 = Idl.discriminator then (Idl.Round.decode (data.drop 8)).map fun v => RoundBuffer.ofVal v.1 else none

/-! ## The reader with a table -/

def readUInt8 (d : List UInt8) (offset : ℕ) : UInt8 := Scalar.u8.read (d.drop offset)

def readUInt16LE (d : List UInt8) (offset : ℕ) : UInt16 := Scalar.u16.read (d.drop offset)

def readBigUInt64LE (d : List UInt8) (offset : ℕ) : UInt64 := Scalar.u64.read (d.drop offset)

def readBigInt64LE (d : List UInt8) (offset : ℕ) : Int64 := Scalar.i64.read (d.drop offset)

/-- The address in the 32 bytes from an offset on. -/
def subarray32 (d : List UInt8) (offset : ℕ) : Pubkey := Vector.ofFn fun i : Fin 32 => readUInt8 d (offset + i)

structure RoundOffsets where
  arena : ℕ
  roundNo : ℕ
  phase : ℕ
  winner : ℕ
  fighterCount : ℕ
  bump : ℕ
  houseSwept : ℕ
  padding : ℕ
  tickCount : ℕ
  pot : ℕ
  penaltiesCollected : ℕ
  feesCollected : ℕ
  seedCommit : ℕ
  seed : ℕ
  lobbyOpenedAt : ℕ
  lobbyClosesAt : ℕ
  fightStartedAt : ℕ
  fighters : ℕ

/-- From the start of the account, the discriminator included. -/
def ROUND : RoundOffsets where
  arena := 8
  roundNo := 40
  phase := 48
  winner := 49
  fighterCount := 50
  bump := 52
  houseSwept := 53
  padding := 54
  tickCount := 56
  pot := 64
  penaltiesCollected := 72
  feesCollected := 80
  seedCommit := 88
  seed := 120
  lobbyOpenedAt := 152
  lobbyClosesAt := 160
  fightStartedAt := 168
  fighters := 176

structure FighterOffsets where
  wallet : ℕ
  stake : ℕ
  hp : ℕ
  banked : ℕ
  side : ℕ
  dead : ℕ

def FIGHTER : FighterOffsets := ⟨0, 32, 40, 48, 56, 57⟩

def FIGHTER_SIZE : ℕ := 64

def ROUND_SIZE : ℕ := ROUND.fighters + maxFighters * FIGHTER_SIZE

structure FighterReading where
  wallet : Pubkey
  side : UInt8
  dead : UInt8
  stake : UInt64
  hp : UInt64
  banked : UInt64
deriving DecidableEq

structure RoundReading where
  phase : UInt8
  fighterCount : UInt16
  pot : UInt64
  penaltiesCollected : UInt64
  feesCollected : UInt64
  houseSwept : UInt8
  lobbyOpenedAt : Int64
  lobbyClosesAt : Int64
  fighters : List FighterReading
deriving DecidableEq

/-- Why the script gives up on an account; the last three take the offsets to be off. -/
inductive ReadError where
  | notFound
  | shorter (length : ℕ)
  | longer (length : ℕ)
  | houseSwept (value : UInt8)
  | padding
  | fighterCount (value : UInt16)
deriving DecidableEq

def readFighter (d : List UInt8) (i : ℕ) : FighterReading :=
  let b := ROUND.fighters + i * FIGHTER_SIZE
  { wallet := subarray32 d (b + FIGHTER.wallet)
    side := readUInt8 d (b + FIGHTER.side)
    dead := readUInt8 d (b + FIGHTER.dead)
    stake := readBigUInt64LE d (b + FIGHTER.stake)
    hp := readBigUInt64LE d (b + FIGHTER.hp)
    banked := readBigUInt64LE d (b + FIGHTER.banked) }

/-- `readRound`, of what the connection answers for the account. -/
def readRound (acc : Option (List UInt8)) : Except ReadError RoundReading := do
  let d ← okOr acc .notFound
  require (¬d.length < ROUND_SIZE) (.shorter d.length)
  require (¬ROUND_SIZE < d.length) (.longer d.length)
  let houseSwept := readUInt8 d ROUND.houseSwept
  require (houseSwept = 0 ∨ houseSwept = 1) (.houseSwept houseSwept)
  require (readUInt8 d ROUND.padding = 0 ∧ readUInt8 d (ROUND.padding + 1) = 0) .padding
  let fighterCount := readUInt16LE d ROUND.fighterCount
  require (fighterCount.toNat ≤ maxFighters) (.fighterCount fighterCount)
  pure {
    phase := readUInt8 d ROUND.phase
    fighterCount
    pot := readBigUInt64LE d ROUND.pot
    penaltiesCollected := readBigUInt64LE d ROUND.penaltiesCollected
    feesCollected := readBigUInt64LE d ROUND.feesCollected
    houseSwept
    lobbyOpenedAt := readBigInt64LE d ROUND.lobbyOpenedAt
    lobbyClosesAt := readBigInt64LE d ROUND.lobbyClosesAt
    fighters := (List.range fighterCount.toNat).map (readFighter d) }

end BullsUnicorns.Chain
