import BullsUnicorns.Battle.Round

/-!
# The arena registry

`arenas.ts`: which tokens play in an arena, which balance field a token lives in, and the constants of the
economy.
-/

namespace BullsUnicorns.Engine

open Battle

inductive Field where
  | bull
  | uwu
  | sol
deriving DecidableEq, Inhabited

inductive Tok where
  | ansem
  | uwu
  | sol
deriving DecidableEq, Inhabited

def FIELD : Tok → Field
  | .ansem => .bull
  | .uwu => .uwu
  | .sol => .sol

inductive Pairing where
  | au
  | as'
  | us
deriving DecidableEq, Inhabited

def PAIRINGS : Pairing → Tok × Tok
  | .au => (.ansem, .uwu)
  | .as' => (.ansem, .sol)
  | .us => (.uwu, .sol)

/-- A two-team arena: a pairing and an economy. -/
structure ArenaId where
  pairing : Pairing
  eco : Mode
deriving DecidableEq, Inhabited

def ecoText : Mode → String
  | .normal => "normal"
  | .extraction => "extraction"

def ArenaId.text (aid : ArenaId) : String :=
  (match aid.pairing with | .au => "au" | .as' => "as" | .us => "us") ++ "-" ++ ecoText aid.eco

def arenaTokens (aid : ArenaId) : Tok × Tok := PAIRINGS aid.pairing

/-- The token of a slot: A for the bull side, B for any other. -/
def slotTok (aid : ArenaId) (side : Side) : Tok := if side = .bull then (arenaTokens aid).1 else (arenaTokens aid).2

def slotField (aid : ArenaId) (side : Side) : Field := FIELD (slotTok aid side)

/-- An arena of many teams. -/
inductive NArena where
  | threeWay (eco : Mode)
  | ffa (eco : Mode)
deriving DecidableEq, Inhabited

def NArena.text : NArena → String
  | .threeWay eco => "3w-" ++ ecoText eco
  | .ffa eco => "ffa-" ++ ecoText eco

def NArena.teams : NArena → ℕ
  | .threeWay _ => 3
  | .ffa _ => 0

def NArena.toks : NArena → List Tok
  | .threeWay _ => [.ansem, .uwu, .sol]
  | .ffa _ => [.ansem]

def NArena.eco : NArena → Mode
  | .threeWay eco => eco
  | .ffa eco => eco

/-- `def.toks[i] || def.toks[0]`: a number that is no index finds nothing. -/
def NArena.tokAt (aid : NArena) (i : ℚ) : Tok :=
  ((N.slot aid.toks.length i).bind fun k => aid.toks[k]?).getD (aid.toks.headD .ansem)

/-- Any arena, as the keys `<arena>:<round>` name it. -/
inductive Arena where
  | two (aid : ArenaId)
  | many (aid : NArena)
deriving DecidableEq, Inhabited

def Arena.text : Arena → String
  | .two aid => aid.text
  | .many aid => aid.text

def allArenas : List Arena :=
  ([Pairing.au, .as', .us].flatMap fun pairing => [Mode.normal, .extraction].map fun eco => .two ⟨pairing, eco⟩) ++
    [.many (.threeWay .normal), .many (.threeWay .extraction), .many (.ffa .extraction), .many (.ffa .normal)]

theorem mem_allArenas (arena : Arena) : arena ∈ allArenas := by
  rcases arena with ⟨pairing, eco⟩ | ⟨eco⟩ | ⟨eco⟩
  · cases pairing <;> cases eco <;> decide
  · cases eco <;> decide
  · cases eco <;> decide

theorem allArenas_nodup : allArenas.Nodup := by decide +kernel

def FEE : ℚ := 2 / 1000
def CAP : ℚ := 100
def MIN_ENTRY : ℚ := 1 / 100

end BullsUnicorns.Engine
