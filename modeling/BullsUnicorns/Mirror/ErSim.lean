import BullsUnicorns.Chain.State
import BullsUnicorns.Lib.Word
import BullsUnicorns.Lib.Whole

/-!
# The TypeScript mirrors of the fight

`engine/src/er-sim.ts` and its copy `er-demo/src/sim/erSim.ts`. A `bigint` is an integer and `/` on it
truncates; a `number` here is a whole double. The two files differ in `tick` alone: the copy reports
each exchange to an observer.
-/

namespace BullsUnicorns.Mirror

open Chain (Bytes32)

structure ERFighter where
  wallet : String
  side : ℕ
  dead : ℕ
  stake : ℤ
  hp : ℤ
  banked : ℤ
deriving DecidableEq

structure ERRound where
  seed : List UInt8
  fighters : List ERFighter
  tickCount : ℤ
  pot : ℤ
  penaltiesCollected : ℤ
  feesCollected : ℤ
  winner : Option ℕ
deriving DecidableEq

structure HitEvent where
  step : ℤ
  attackerId : ℕ
  defenderId : ℕ
  amount : ℤ
deriving DecidableEq

inductive JsError where
  | error (message : String)
  | rangeError
  | typeError
deriving DecidableEq

def bps : ℤ := 10000
def maxFighters : ℕ := 48
def dust : ℤ := 1000
def extractPenaltyStartBps : ℤ := 2000

def critOneIn : ℕ := 32
def critRoll : ℤ := 90
def rollBodyLo : ℤ := 1
def rollBodySpan : ℕ := 22

/-! ## What leaving costs -/

/-- The cursor at which extracting is free, for the lineups 2 to 48. -/
def penaltyHorizonTable : List ℕ :=
  [71, 130, 200, 280, 367,
    463, 566, 675, 791, 912,
    1039, 1172, 1310, 1452, 1600,
    1752, 1909, 2070, 2236, 2406,
    2580, 2758, 2939, 3125, 3314,
    3507, 3704, 3904, 4108, 4315,
    4525, 4739, 4956, 5177, 5400,
    5627, 5856, 6089, 6325, 6563,
    6805, 7049, 7297, 7547, 7800,
    8055, 8314]

def clamp (n lo hi : ℕ) : ℕ := min (max n lo) hi

/-- The clamp leaves no index past the table. -/
def penaltyHorizonSteps (fighterCount : ℕ) : ℤ :=
  penaltyHorizonTable.getD (clamp fighterCount 2 maxFighters - 2) 0

def extractPenaltyBps (fighterCount : ℕ) (cursor : ℤ) : ℤ :=
  let horizon := penaltyHorizonSteps fighterCount
  let remaining := if cursor ≥ horizon then 0 else horizon - cursor
  (extractPenaltyStartBps * remaining).tdiv horizon

def splitExtraction (taken : ℤ) (fighterCount : ℕ) (cursor : ℤ) : ℤ × ℤ :=
  let penalty := (taken * extractPenaltyBps fighterCount cursor).tdiv bps
  (taken - penalty, penalty)

/-! ## One draw -/

def sat (a b : ℤ) : ℤ := if a > b then a - b else 0

/-- `Buffer.readUInt32LE`, at an offset that leaves four bytes. -/
def readUInt32LE (h : Bytes32) (offset : Fin 29) : ℕ :=
  let byte (k : Fin 4) : ℕ := (h.get ⟨offset + k, by omega⟩).toNat
  byte 0 + byte 1 * 2 ^ 8 + byte 2 * 2 ^ 16 + byte 3 * 2 ^ 24

def drawPair (h : Bytes32) (n : ℕ) : Except JsError (ℕ × ℕ) :=
  if n < 2 then .error (.error s!"drawPair requires n >= 2, got {n}")
  else
    let a := readUInt32LE h 0 % n
    let d := readUInt32LE h 4 % (n - 1)
    .ok (a, if d ≥ a then d + 1 else d)

def rollOf (h : Bytes32) : ℤ :=
  if readUInt32LE h 24 % critOneIn = 0 then critRoll
  else rollBodyLo + ((readUInt32LE h 20 % rollBodySpan : ℕ) : ℤ)

def blow (A D : ERFighter) (roll : ℤ) : ℤ :=
  let basis := if A.hp < D.hp then A.hp else D.hp
  let dmg := (basis * roll).tdiv 100
  if D.hp ≤ dust then D.hp else dmg

/-- What `D` loses to `A`; none where the loop goes on to the next draw. -/
def damage (A D : ERFighter) (h : Bytes32) : Option ℤ :=
  if A.side = D.side then none
  else if A.wallet = D.wallet then none
  else if A.dead = 1 ∨ D.dead = 1 then none
  else
    let dmg := blow A D (rollOf h)
    if dmg = 0 then none else some dmg

def ERFighter.hit (D : ERFighter) (dmg : ℤ) : ERFighter :=
  let hp := sat D.hp dmg
  { D with hp, dead := if hp = 0 then 1 else D.dead }

def ERFighter.gains (A : ERFighter) (dmg : ℤ) : ERFighter := { A with banked := A.banked + dmg }

/-- Reading a slot; past the end it is `undefined`, and reading a field of that throws. -/
def slot (fighters : List ERFighter) (i : ℕ) : Except JsError ERFighter :=
  match fighters[i]? with
  | some f => .ok f
  | none => .error .typeError

/-! ## The fight -/

section
variable (sha256 : List UInt8 → Bytes32)

/-- `sha256(seed ++ le_u64(cursor))`; a cursor that is not a u64 cannot be written. -/
def tickHash (seed : List UInt8) (cursor : ℤ) : Except JsError Bytes32 :=
  if 0 ≤ cursor ∧ cursor < 2 ^ 64 then
    let head := seed.take 32 ++ List.replicate (32 - seed.length) 0
    let tail := (List.range 8).map fun i => UInt8.ofNat (cursor.toNat / 256 ^ i)
    .ok (sha256 (head ++ tail))
  else .error .rangeError

/-- The body of the loop in `tick`. -/
def tickStep (round : ERRound) : Except JsError (ERRound × Option HitEvent) := do
  let n := round.fighters.length
  let cursor := round.tickCount
  let h ← tickHash sha256 round.seed cursor
  let (a, d) ← drawPair h n
  let A ← slot round.fighters a
  let D ← slot round.fighters d
  match damage A D h with
  | none => pure ({ round with tickCount := cursor + 1 }, none)
  | some dmg =>
      pure ({ round with
        tickCount := cursor + 1
        fighters := (round.fighters.set d (D.hit dmg)).set a (A.gains dmg) }, some ⟨cursor, a, d, dmg⟩)

theorem tickStep_cursor {sha256 : List UInt8 → Bytes32} {round : ERRound} {r}
    (h : tickStep sha256 round = .ok r) :
    round.tickCount < 2 ^ 64 ∧ r.1.tickCount = round.tickCount + 1 ∧
      r.1.fighters.length = round.fighters.length := by
  simp only [tickStep, bind_eq_ok] at h
  obtain ⟨_, hh, p, _, A, _, D, _, h⟩ := h
  have hlt : round.tickCount < 2 ^ 64 := by
    unfold tickHash at hh
    split at hh
    · rename_i hc; exact hc.2
    · cases hh
  cases hd : damage A D _ with
  | none =>
      rw [hd] at h
      cases h
      exact ⟨hlt, rfl, rfl⟩
  | some dmg =>
      rw [hd] at h
      cases h
      exact ⟨hlt, rfl, by simp⟩

/-- The loop in `tick` from the counter `s` on, with the exchanges it reports. It ends: a cursor past
the last u64 throws. -/
def tickFrom (round : ERRound) (s steps : ℕ) : Except JsError (ERRound × List HitEvent) :=
  if s < steps then
    if round.fighters.length < 2 then .ok (round, [])
    else
      match _hstep : tickStep sha256 round with
      | .error e => .error e
      | .ok r =>
          -- `s++` is addition of doubles
          match tickFrom r.1 (Number.ofNat (s + 1)) steps with
          | .error e => .error e
          | .ok (round, hits) => .ok (round, r.2.toList ++ hits)
  else .ok (round, [])
termination_by (2 ^ 64 - round.tickCount).toNat
decreasing_by
  obtain ⟨hlt, hnext, -⟩ := tickStep_cursor _hstep
  omega

/-- `tick` of `engine/src/er-sim.ts`. -/
def Engine.tick (round : ERRound) (steps : ℕ) : Except JsError ERRound :=
  match tickFrom sha256 round 0 steps with
  | .error e => .error e
  | .ok (round, _) => .ok round

/-- `tick` of `er-demo/src/sim/erSim.ts`, with what `onHit` is called with, in order. -/
def ErDemo.tick (round : ERRound) (steps : ℕ) : Except JsError (ERRound × List HitEvent) :=
  tickFrom sha256 round 0 steps

end

def sideValue (v : ℤ × ℤ) (f : ERFighter) : ℤ × ℤ :=
  let x := f.hp + f.banked
  if f.side = 0 then (v.1 + x, v.2) else (v.1, v.2 + x)

/-- The winner, which the round also keeps; ties go to side 0. -/
def settle (round : ERRound) : ERRound × ℕ :=
  let v := round.fighters.foldl sideValue (0, 0)
  let winner := if v.1 ≥ v.2 then 0 else 1
  ({ round with winner := some winner }, winner)

def newRound (seed : List UInt8) : ERRound := ⟨seed, [], 0, 0, 0, 0, none⟩

end BullsUnicorns.Mirror
