import BullsUnicorns.Engine.Arenas
import BullsUnicorns.Lib.Machine
import BullsUnicorns.Lib.OrderedMap

/-!
# The price of a round and its flow

`server.ts`: `pxForRound`, `flow`, `openStakes` and `auditRound`, over the two maps that forget the older half
of their rounds when they grow, and the rounds that the runners of the arenas play.
-/

namespace BullsUnicorns.Engine

open Battle

/-- `${aid}:${round}`; no arena id has a colon. -/
abbrev RoundKey := Arena × ℕ

/-- What the price loop knows; nothing at all, or a number that is no price, reads as zero. -/
abbrev Feed := Field → ℚ

structure FlowTally where
  out : ℚ
  into : ℚ
  fee : ℚ
deriving DecidableEq

def FlowTally.zero : FlowTally := ⟨0, 0, 0⟩

structure RoundPrices where
  lastGoodPx : Field → ℚ
  /-- A field without a price has none or zero. -/
  roundPx : OrderedMap RoundKey (Field → ℚ)
  roundFlow : OrderedMap RoundKey (Field → FlowTally)

/-- A new process. -/
def RoundPrices.empty : RoundPrices where
  lastGoodPx f := if f = .sol then 1 else 0
  roundPx := OrderedMap.empty
  roundFlow := OrderedMap.empty

def KEPT_ROUNDS : ℕ := 64
def FORGOTTEN_ROUNDS : ℕ := 32

/-- Set a new round; the oldest go when there are too many. -/
def remember {ν : Type} (m : OrderedMap RoundKey ν) (k : RoundKey) (v : ν) : OrderedMap RoundKey ν :=
  m.setBounded KEPT_ROUNDS FORGOTTEN_ROUNDS k v

/-- `sol` is already denominated in USD. -/
def usdPerUnit (feed : Feed) (f : Field) : ℚ := if f = .sol then 1 else if 0 < feed f then feed f else 0

namespace RoundPrices

def usdPerUnitSafe (feed : Feed) (f : Field) (s : RoundPrices) : ℚ × RoundPrices :=
  let px := usdPerUnit feed f
  if 0 < px then (px, { s with lastGoodPx := Function.update s.lastGoodPx f px }) else (s.lastGoodPx f, s)

/-- The record of a round, made when it is missing. -/
def openPx (k : RoundKey) (s : RoundPrices) : (Field → ℚ) × RoundPrices :=
  match s.roundPx.get k with
  | some m => (m, s)
  | none => (fun _ => 0, { s with roundPx := remember s.roundPx k fun _ => 0 })

def pxForRound (feed : Feed) (k : RoundKey) (f : Field) (s : RoundPrices) : ℚ × RoundPrices :=
  let (m, s) := s.openPx k
  if 0 < m f then (m f, s)
  else
    let (px, s) := s.usdPerUnitSafe feed f
    (px, { s with roundPx := s.roundPx.set k (Function.update m f px) })

/-- Change the tally of a field in a round. -/
def flow (k : RoundKey) (f : Field) (g : FlowTally → FlowTally) (s : RoundPrices) : RoundPrices :=
  match s.roundFlow.get k with
  | some m => { s with roundFlow := s.roundFlow.set k (Function.update m f (g (m f))) }
  | none =>
    let m : Field → FlowTally := fun _ => .zero
    { s with roundFlow := (remember s.roundFlow k m).set k (Function.update m f (g (m f))) }

/-- Tokens of a field currently staked in unsettled rounds. -/
def openStakes (f : Field) (s : RoundPrices) : ℚ :=
  (s.roundFlow.values.map fun m => max 0 ((m f).out - (m f).into)).sum

/-- What the audit of a round finds; then it is gone. -/
def auditRound (k : RoundKey) (s : RoundPrices) : Option (Field → FlowTally) × RoundPrices :=
  match s.roundFlow.get k with
  | none => (none, s)
  | some m => (some m, { s with roundFlow := s.roundFlow.delete k })

end RoundPrices

/-! ## The rounds of the arenas -/

variable (env : RoundEnv)

/-- How long a battle lasts that is decided at a tick of 50 ms. -/
def battleLength (endTick : ℕ) : ℚ := min env.BATTLE_MS ((endTick + 2) * 50 + 900)

/-- Where an arena's runner is: its round, and when the phase closes. -/
structure ArenaTurn where
  round : ℕ
  phase : Phase
  closesAt : ℚ

/-- A call of `pxForRound`, with what it returned. -/
structure PriceCall where
  key : RoundKey
  field : Field
  price : ℚ
deriving DecidableEq

structure PriceWorld where
  prices : RoundPrices
  turn : Arena → ArenaTurn
  now : ℚ
  /-- The record: every price that was given, and what was recorded as flow in the rounds now open. -/
  calls : List PriceCall
  recorded : Arena → Option (Field → FlowTally)

def PriceWorld.key (w : PriceWorld) (arena : Arena) : RoundKey := (arena, (w.turn arena).round)

/-- The events of the server that touch the two maps, all for the round an arena is in, and the turns of the
runners: a lobby that closes with a battle decided at a tick, and a battle that ends. -/
inductive PriceEvent where
  | price (arena : Arena) (f : Field) (feed : Feed)
  | quote (f : Field) (feed : Feed)
  | flow (aid : ArenaId) (f : Field) (out into fee : ℚ)
  | battle (arena : Arena) (now : ℚ) (endTick : ℕ)
  | settle (arena : Arena) (now : ℚ)

def PriceEvent.arena : PriceEvent → Option Arena
  | .price arena _ _ => some arena
  | .quote _ _ => none
  | .flow aid _ _ _ _ => some (.two aid)
  | .battle arena _ _ => some arena
  | .settle arena _ => some arena

/-- A settlement ends with the audit of its round, and a lobby for the next. -/
def PriceWorld.settled (w : PriceWorld) (arena : Arena) (now : ℚ) : PriceWorld :=
  { w with
    prices := match arena with
      | .two _ => (w.prices.auditRound (w.key arena)).2
      | .many _ => w.prices
    turn := Function.update w.turn arena ⟨(w.turn arena).round + 1, .lobby, now + env.LOBBY_MS⟩
    now := now
    recorded := Function.update w.recorded arena none }

def PriceWorld.step (w : PriceWorld) : PriceEvent → Except Unit (PriceWorld × Unit)
  | .price arena f feed =>
    let (px, prices) := w.prices.pxForRound feed (w.key arena) f
    .ok ({ w with prices, calls := w.calls ++ [⟨w.key arena, f, px⟩] }, ())
  | .quote f feed => .ok ({ w with prices := (w.prices.usdPerUnitSafe feed f).2 }, ())
  | .flow aid f out into fee =>
    let g : FlowTally → FlowTally := fun v => ⟨v.out + out, v.into + into, v.fee + fee⟩
    let m := (w.recorded (.two aid)).getD fun _ => .zero
    .ok ({ w with
      prices := w.prices.flow (w.key (.two aid)) f g
      recorded := Function.update w.recorded (.two aid) (some (Function.update m f (g (m f)))) }, ())
  | .battle arena now endTick =>
    let t := w.turn arena
    if w.now ≤ now ∧ t.phase = .lobby ∧ t.closesAt ≤ now then
      let t : ArenaTurn := ⟨t.round, .battle, now + battleLength env endTick⟩
      .ok ({ w with turn := Function.update w.turn arena t, now := now }, ())
    else .error ()
  | .settle arena now =>
    let t := w.turn arena
    if w.now ≤ now ∧ t.phase = .battle ∧ t.closesAt ≤ now then .ok (w.settled env arena now, ())
    else .error ()

/-- The arenas that are switched on. -/
def priceRounds (enabled : Arena → Bool) : Machine PriceWorld PriceEvent Unit Unit where
  step w e := if e.arena.all enabled then w.step env e else .error ()

/-- A process that starts at a time, each arena in the lobby of a round. -/
def PriceWorld.boot (round : Arena → ℕ) (now : ℚ) : PriceWorld where
  prices := .empty
  turn arena := ⟨round arena, .lobby, now + env.LOBBY_MS⟩
  now := now
  calls := []
  recorded _ := none

end BullsUnicorns.Engine
