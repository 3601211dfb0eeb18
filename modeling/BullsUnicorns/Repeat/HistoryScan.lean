import BullsUnicorns.Repeat.AutoPolicy

/-!
# Which rounds the log reads

`historyScan.ts`: the walk from the newest round down, a batch of reads at a time, and where it stops.
A round account is read at most once, so what is read is a function of the round.
-/

namespace BullsUnicorns.Repeat

def MAX_ROUNDS : ℤ := 250
def BATCH : ℕ := 8
def STOP_AFTER_CONSECUTIVE_MISSES : ℕ := 3

/-- How a read of a round account ends: with a summary, with nothing, or rejected. -/
inductive RoundRead (σ : Type) where
  | summary (s : σ)
  | null
  | rejected (message : String)
deriving DecidableEq

structure RoundLogScan (σ : Type) where
  summaries : List σ
  succeeded : ℕ
  firstError : Option String

/-- The loop between two batches, with the rounds it has asked for and the batches it has done. -/
structure RoundLogWalk (σ : Type) extends RoundLogScan σ where
  misses : ℕ
  asked : List ℤ
  batches : ℕ

variable {σ : Type}

def oldestRound (newest : ℤ) : ℤ := if MAX_ROUNDS < newest then newest - MAX_ROUNDS + 1 else 1

/-- `for (let n = newest; n >= oldest; n -= 1n) numbers.push(n)` -/
def roundNumbers (newest : ℤ) : List ℤ :=
  (List.range (newest + 1 - oldestRound newest).toNat).map fun i : ℕ => newest - (i : ℤ)

/-- One result of a batch. A read that threw breaks the run of misses, an absence inside the guaranteed
window is no part of it. -/
def foldRead (read : ℤ → RoundRead σ) (guaranteed : ℤ) (w : RoundLogWalk σ) (roundNo : ℤ) : RoundLogWalk σ :=
  let w := { w with asked := w.asked ++ [roundNo] }
  match read roundNo with
  | .rejected message => { w with firstError := some (w.firstError.getD message), misses := 0 }
  | .summary s => { w with succeeded := w.succeeded + 1, summaries := w.summaries ++ [s], misses := 0 }
  | .null =>
    { w with succeeded := w.succeeded + 1, misses := if roundNo < guaranteed then w.misses + 1 else w.misses }

/-- The loop over batches, with `fuel` batches to go at most; it may be cancelled at a boundary. -/
def walkRounds (read : ℤ → RoundRead σ) (cancelled : ℕ → Bool) (guaranteed : ℤ) :
    ℕ → List ℤ → RoundLogWalk σ → RoundLogWalk σ
  | 0, _, w => w
  | fuel + 1, numbers, w =>
    if numbers = [] ∨ cancelled w.batches then w
    else
      let w := (numbers.take BATCH).foldl (foldRead read guaranteed) { w with batches := w.batches + 1 }
      if STOP_AFTER_CONSECUTIVE_MISSES ≤ w.misses then w
      else walkRounds read cancelled guaranteed fuel (numbers.drop BATCH) w

/-- The scan, with the rounds it asked for. -/
def scanRoundLog (newest : ℤ) (read : ℤ → RoundRead σ) (cancelled : ℕ → Bool) : RoundLogWalk σ :=
  walkRounds read cancelled (guaranteedFrom newest) (roundNumbers newest).length (roundNumbers newest)
    ⟨⟨[], 0, none⟩, 0, [], 0⟩

end BullsUnicorns.Repeat
