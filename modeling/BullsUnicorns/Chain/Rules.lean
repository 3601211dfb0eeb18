import BullsUnicorns.Chain.State
import BullsUnicorns.Lib.Replay

/-!
# The rules of a round

The pure functions of the program: the lobby's clock, the two fees, the fight and its cursor. SHA-256
is a parameter throughout.
-/

namespace BullsUnicorns.Chain

open Word

def minRetainedRounds : ℕ := 20
def bps : ℕ := 10000
def maxFeeBps : ℕ := 1000
def dust : ℕ := 1000
def stepsPerFighterPerSecond : ℕ := 2
def maxStepsPerCall : ℕ := 3000
def fightTimeoutSeconds : ℕ := 180
def minLobbySeconds : ℕ := 20
def maxLobbySeconds : ℕ := 604800
def extractPenaltyStartBps : ℕ := 2000

def critOneIn : ℕ := 32
def critRoll : ℕ := 90
def rollBodyLo : ℕ := 1
def rollBodySpan : ℕ := 22

/-! ## The lobby -/

def clampLobbySeconds (requested : UInt32) : ℕ :=
  max minLobbySeconds (min requested.toNat maxLobbySeconds)

def lobbyWindow (now : ℤ) (requested : UInt32) : ℤ × ℤ :=
  (now, satAddSigned 64 now (clampLobbySeconds requested))

def enoughToFight (fighterCount : ℕ) : Bool := fighterCount ≥ 2

def lobbyIsOpen (lobbyClosesAt now : ℤ) : Bool := now < lobbyClosesAt

def lobbyMayClose (fighterCount : ℕ) (lobbyClosesAt now : ℤ) : Bool :=
  !lobbyIsOpen lobbyClosesAt now || decide (fighterCount ≥ maxFighters)

def drawIsPermitted (fighterCount : ℕ) (lobbyClosesAt now : ℤ) (byAuthority : Bool) : Bool :=
  byAuthority || lobbyMayClose fighterCount lobbyClosesAt now

def lobbyIsDead (fighterCount : ℕ) (lobbyClosesAt now : ℤ) : Bool :=
  !lobbyIsOpen lobbyClosesAt now && !enoughToFight fighterCount

/-! ## The two fees -/

/-- The lineups 2 to 48, and the cursor at which extracting is free in each. -/
def penaltyHorizonTable : Vector ℕ 47 :=
  #v[71, 130, 200, 280, 367, 463, 566, 675, 791, 912, 1039, 1172, 1310, 1452, 1600, 1752,
    1909, 2070, 2236, 2406, 2580, 2758, 2939, 3125, 3314, 3507, 3704, 3904, 4108, 4315, 4525, 4739,
    4956, 5177, 5400, 5627, 5856, 6089, 6325, 6563, 6805, 7049, 7297, 7547, 7800, 8055, 8314]

/-- The row of a lineup in the table, clamped to the lineups that can fight. -/
def horizonRow (fighterCount : ℕ) : Fin 47 :=
  ⟨max 2 (min fighterCount maxFighters) - 2, by simp only [maxFighters]; omega⟩

def penaltyHorizonSteps (fighterCount : ℕ) : ℕ := penaltyHorizonTable.get (horizonRow fighterCount)

def extractPenaltyBps (fighterCount cursor : ℕ) : ℕ :=
  let horizon := penaltyHorizonSteps fighterCount
  let remaining := satSub horizon cursor
  satMul 64 extractPenaltyStartBps remaining / horizon

/-- What a fighter keeps of what they pull out of the ring, and what the house takes. -/
def splitExtraction (taken fighterCount cursor : ℕ) : ℕ × ℕ :=
  let rate := extractPenaltyBps fighterCount cursor
  let penalty := narrow 64 (taken * rate / bps)
  (taken - penalty, penalty)

/-- What of a gross stake reaches the ring, and what the house takes at the door. -/
def splitEntry (stake feeBps : ℕ) : ℕ × ℕ :=
  let fee := narrow 64 (stake * feeBps / bps)
  (stake - fee, fee)

/-! ## The cursor -/

def stepsPerSecond (fighterCount : ℕ) : ℕ := satMul 64 fighterCount stepsPerFighterPerSecond

/-- Whole seconds since the fight began, none before it did. -/
def elapsed (fightStartedAt now : ℤ) : ℕ := (satSubSigned 64 now fightStartedAt).toNat

def canonicalCursor (fightStartedAt : ℤ) (fighterCount : ℕ) (now : ℤ) : ℕ :=
  satMul 64 (min (elapsed fightStartedAt now) fightTimeoutSeconds) (stepsPerSecond fighterCount)

def finalCursor (fighterCount : ℕ) : ℕ := satMul 64 fightTimeoutSeconds (stepsPerSecond fighterCount)

def isCaughtUp (r : RoundState) (now : ℤ) : Bool :=
  r.tickCount ≥ canonicalCursor r.fightStartedAt r.fighterCount now

/-! ## The fight -/

section
variable (sha256 : List UInt8 → Bytes32)

/-- SHA-256 of slices laid end to end. -/
def hashv (vals : List (List UInt8)) : Bytes32 := sha256 vals.flatten

def u64ToLeBytes (x : ℕ) : List UInt8 := (List.range 8).map fun i => UInt8.ofNat (x / 256 ^ i)

def u32FromLeBytes (b₀ b₁ b₂ b₃ : UInt8) : ℕ :=
  b₀.toNat + 256 * b₁.toNat + 65536 * b₂.toNat + 16777216 * b₃.toNat

/-- Who swings at whom: an attacker, and a rank among the others shifted past the attacker. -/
def drawPair (h : Bytes32) (n : ℕ) : ℕ × ℕ :=
  let a := u32FromLeBytes h[0] h[1] h[2] h[3] % n
  let d := u32FromLeBytes h[4] h[5] h[6] h[7] % (n - 1)
  (a, if d ≥ a then d + 1 else d)

def rollOf (h : Bytes32) : ℕ :=
  if u32FromLeBytes h[24] h[25] h[26] h[27] % critOneIn = 0 then critRoll
  else rollBodyLo + u32FromLeBytes h[20] h[21] h[22] h[23] % rollBodySpan

def mayStrike (att dfd : Fighter) : Bool :=
  !(att.side == dfd.side) && !(att.wallet == dfd.wallet) && !(att.dead == 1 || dfd.dead == 1)

/-- The damage of a blow: a share of the smaller ring, or all of a defender down to dust. -/
def blow (att dfd : Fighter) (roll : ℕ) : ℕ :=
  let basis := min att.hp dfd.hp
  let dmg := satMul 64 basis roll / 100
  if dfd.hp ≤ dust then dfd.hp else dmg

def Fighter.struck (dfd : Fighter) (dmg : ℕ) : Fighter :=
  let hp := satSub dfd.hp dmg
  { dfd with hp, dead := if hp = 0 then 1 else dfd.dead }

def Fighter.raids (att : Fighter) (dmg : ℕ) : Fighter :=
  { att with banked := satAdd 64 att.banked dmg }

def trade {m : ℕ} (h : Bytes32) (n : ℕ) (fighters : Vector Fighter m) : Vector Fighter m :=
  let a := (drawPair h n).1
  let d := (drawPair h n).2
  -- the array index is checked at run time; a lineup inside the array never fails it
  if hk : a < m ∧ d < m then
    let att := fighters[a]
    let dfd := fighters[d]
    if mayStrike att dfd then
      let dmg := blow att dfd (rollOf h)
      if dmg = 0 then fighters else (fighters.set d (dfd.struck dmg)).set a (att.raids dmg)
    else fighters
  else fighters

def exchange {m : ℕ} (seed : Bytes32) (n step : ℕ) (fighters : Vector Fighter m) : Vector Fighter m :=
  trade (hashv sha256 [seed.toList, u64ToLeBytes step]) n fighters

/-- `for step in cursor..cursor.saturating_add(steps)`. -/
def advanceFight {m : ℕ} (fighters : Vector Fighter m) (n : ℕ) (seed : Bytes32) (cursor steps : ℕ) :
    Vector Fighter m :=
  if n < 2 then fighters
  else Replay.iterFrom (exchange sha256 seed n) cursor (satAdd 64 cursor steps - cursor) fighters

def tally (v : ℕ × ℕ) (f : Fighter) : ℕ × ℕ :=
  let x := satAdd 64 f.hp f.banked
  if f.side = 0 then (satAdd 64 v.1 x, v.2) else (v.1, satAdd 64 v.2 x)

/-- The winning side: the larger total, and side 0 on a tie. -/
def settleSides (fighters : Vector Fighter maxFighters) (n : ℕ) : UInt8 :=
  let v := (fighters.toList.take n).foldl tally (0, 0)
  if v.1 ≥ v.2 then 0 else 1

def fightIsOver (fighters : Vector Fighter maxFighters) (n : ℕ) : Bool :=
  let standing := (fighters.toList.take n).filter fun f => f.dead == 0
  standing.countP (fun f => f.side == 0) == 0 || standing.countP (fun f => f.side != 0) == 0

/-- Bring the stored fight up to `now`, by at most `limit` steps; answers how many ran. -/
def catchUp (r : RoundState) (now : ℤ) (limit : ℕ) : RoundState × ℕ :=
  let n := r.fighterCount
  if n < 2 then (r, 0)
  else
    let target := canonicalCursor r.fightStartedAt n now
    if target ≤ r.tickCount then (r, 0)
    else
      let steps := min (target - r.tickCount) limit
      ({ r with
          fighters := advanceFight sha256 r.fighters n r.seed r.tickCount steps
          tickCount := r.tickCount + steps }, steps)

end

end BullsUnicorns.Chain
