import BullsUnicorns.Lib.Loop
import BullsUnicorns.Lib.Table
import BullsUnicorns.Lib.Text

/-!
# The two-team battle of the engine

`game.ts`: the matched book and the spawn, one tick of movement and clashes, the payout, and the round
run to its end. Numbers are exact.
-/

namespace BullsUnicorns.Battle

/-- What the simulations call outside themselves: the square root and the trigonometry of `Math`, the
stream of numbers that a seed expands to, and SHA-256. -/
structure Platform where
  sqrt : ℚ → ℚ
  hypot : ℚ → ℚ → ℚ
  cos : ℚ → ℚ
  sin : ℚ → ℚ
  pi : ℚ
  rngFromSeed : String → ℕ → ℚ
  sha256 : String → String
  sqrt_nonneg : ∀ x, 0 ≤ sqrt x
  hypot_nonneg : ∀ x y, 0 ≤ hypot x y

/-- A side as it arrives in a message: one of the two, or any other value, with the property key it
converts to and what tells it apart under `===`. -/
inductive Side where
  | bull
  | uwu
  | other (key : String) (ident : ℕ)
deriving DecidableEq, Inhabited

def Side.key : Side → String
  | .bull => "bull"
  | .uwu => "uwu"
  | .other key _ => key

inductive Mode where
  | normal
  | extraction
deriving DecidableEq, Inhabited

structure Entry where
  id : String
  side : Side
  stake : ℚ
deriving DecidableEq, Inhabited

structure Fighter where
  id : String
  side : Side
  bull : ℚ
  uwu : ℚ
  sBull : ℚ
  sUwu : ℚ
  deposited : ℚ
  raided : ℚ
  dmgDealt : ℚ
  dmgTaken : ℚ
  bestHit : ℚ
  dead : Bool
  unmatched : ℚ
  x : ℚ
  y : ℚ
  vx : ℚ
  vy : ℚ
  r : ℚ
deriving DecidableEq, Inhabited

/-- The time step is a divisor: `battleMs / tickMs` is a number. -/
structure RoundConfig where
  mode : Mode
  multiplier : ℚ
  base : ℚ
  hitCapFrac : ℚ
  battleMs : ℚ
  tickMs : ℚ
  matchTol : Option ℚ
  tickMs_ne : tickMs ≠ 0

structure HitLog where
  t : ℕ
  atk : String
  dfn : String
  amt : ℚ
  tk : Side
deriving DecidableEq, Inhabited

structure Payout where
  bull : ℚ
  uwu : ℚ
deriving DecidableEq, Inhabited

structure RoundResult where
  seedHash : String
  fighters : List Fighter
  winner : Side
  hits : List HitLog
  settlement : OrderedMap String Payout
  endTick : ℤ

/-! ## Constants -/

def arenaW : ℚ := 900
def arenaH : ℚ := 560
def speed : ℚ := 112
def accel : ℚ := 300
def hitCd : ℚ := 380
def knock : ℚ := 46
def FINISH_RATIO : ℚ := 8 / 100
def SMALL_EDGE : ℚ := 103 / 100
def DUST_FRAC : ℚ := 3 / 100
def SIZE_WEIGHT : ℚ := 9 / 10

/-! ## The random stream -/

/-- The stream of a seed and how much of it is used. -/
structure Rng where
  stream : ℕ → ℚ
  used : ℕ

def rnd : StateM Rng ℚ := fun g => (g.stream g.used, { g with used := g.used + 1 })

def rand (a b : ℚ) : StateM Rng ℚ := do
  let u ← rnd
  return a + u * (b - a)

def roll : StateM Rng ℚ := do
  let u ← rnd
  if u < 88 / 100 then rand (2 / 10) (15 / 10)
  else if u < 97 / 100 then rand (15 / 10) 4
  else rand 4 13

/-! ## Fighters -/

def ring (f : Fighter) : ℚ := f.bull + f.uwu

def dustFor (f : Fighter) : ℚ := max (5 / 1000) (f.deposited * DUST_FRAC)

def aliveF (f : Fighter) : Bool := !f.dead && decide (dustFor f < ring f)

def clamp (v a b : ℚ) : ℚ := if v < a then a else if b < v then b else v

def radiusFor (p : Platform) (f : Fighter) : ℚ := clamp (13 + 19 / 10 * p.sqrt (ring f)) 13 30

/-- `id.split("|")[0]`: who owns the fighter. -/
def walletOf (id : String) : String := Text.firstPart '|' id

def seedHash (p : Platform) (seed : String) : String := p.sha256 seed

/-! ## The start -/

/-- `tot`: what was staked under each of its two property keys. -/
structure Totals where
  bull : ℚ
  uwu : ℚ

def stakedAs (entries : List Entry) (key : String) : ℚ :=
  ((entries.filter (fun e => e.side.key = key)).map (·.stake)).sum

def totals (entries : List Entry) : Totals := ⟨stakedAs entries "bull", stakedAs entries "uwu"⟩

/-- `tot[side]`: any key but the two holds no number. -/
def Totals.get (tot : Totals) (side : Side) : Option ℚ :=
  if side.key = "bull" then some tot.bull else if side.key = "uwu" then some tot.uwu else none

def inPlayFrac (tot : Totals) (cfg : RoundConfig) (side : Side) : ℚ :=
  let tol := cfg.matchTol.getD 0
  let capFor2 := (if side = .bull then tot.uwu else tot.bull) * (1 + tol)
  match tot.get side with
  | some total => if 0 < total then min 1 (capFor2 / total) else 1
  | none => 1

/-- Bulls start left, unicorns right. -/
def spawnX (side : Side) : StateM Rng ℚ :=
  if side = .bull then rand 30 (arenaW * (34 / 100)) else rand (arenaW * (66 / 100)) (arenaW - 30)

def spawn (p : Platform) (tot : Totals) (cfg : RoundConfig) (e : Entry) : StateM Rng Fighter := do
  let frac := inPlayFrac tot cfg e.side
  let inPlay := e.stake * frac
  let vx ← rand (-1) 1
  let vy ← rand (-1) 1
  let f : Fighter := {
    id := e.id, side := e.side
    bull := if e.side = .bull then inPlay else 0
    uwu := if e.side = .uwu then inPlay else 0
    sBull := 0, sUwu := 0, deposited := e.stake, raided := 0, dmgDealt := 0, dmgTaken := 0
    bestHit := 0, dead := false, unmatched := e.stake - inPlay
    x := 0, y := 0, vx := vx, vy := vy, r := 12 }
  let x ← spawnX e.side
  let y ← rand 40 (arenaH - 40)
  let f := { f with x := x, y := y }
  return { f with r := radiusFor p f }

structure SimState where
  rng : Rng
  F : List Fighter
  hits : List HitLog
  t : ℕ
  steps : ℤ
  cfg : RoundConfig
  pairCd : String → Option ℚ
  endTick : ℤ
  done : Bool

def createSim (p : Platform) (seed : String) (entries : List Entry) (cfg : RoundConfig) : SimState :=
  let tot := totals entries
  let (F, rng) := (entries.mapM (spawn p tot cfg)).run ⟨p.rngFromSeed seed, 0⟩
  let steps := ⌊cfg.battleMs / cfg.tickMs⌋
  { rng, F, hits := [], t := 0, steps, cfg, pairCd := fun _ => none, endTick := steps, done := false }

/-! ## One tick -/

/-- What a tick fixes before it moves anybody. -/
structure Tick where
  dt : ℚ
  nowMs : ℚ
  ramp : ℚ
  bulls : ℕ
  unis : ℕ

/-- The fighter at an index; the loops only use indices of fighters that are there. -/
def fighterAt (F : List Fighter) (i : ℕ) : Fighter := F.getD i default

/-- How far an enemy reads as being: a mismatch in size reads as distance. -/
def score (p : Platform) (f q : Fighter) : ℚ :=
  let rp := max (1 / 100) (ring f)
  let dx := q.x - f.x
  let dy := q.y - f.y
  let d := p.sqrt (dx * dx + dy * dy)
  let rq := max (1 / 100) (ring q)
  let ratio := min (if rq < rp then rp / rq else rq / rp) 8
  d * (1 + SIZE_WEIGHT * (ratio - 1))

/-- The enemy to seek, never one of the fighter's own wallet. -/
def target (p : Platform) (F : List Fighter) (A : List ℕ) (f : Fighter) : Option Fighter :=
  (A.foldl (fun best j =>
    let q := fighterAt F j
    if q.side = f.side then best
    else if walletOf q.id = walletOf f.id then best
    else if score p f q < best.2 then (some q, score p f q) else best) (none, 10 ^ 18)).1

def seek (p : Platform) (k : Tick) (tgt : Option Fighter) (f : Fighter) : Fighter :=
  match tgt with
  | none => f
  | some q =>
    let ax := q.x - f.x
    let ay := q.y - f.y
    let al := if p.hypot ax ay = 0 then 1 else p.hypot ax ay
    { f with
      vx := f.vx + ax / al * accel * k.ramp * k.dt
      vy := f.vy + ay / al * accel * k.ramp * k.dt }

def limitSpeed (p : Platform) (k : Tick) (f : Fighter) : Fighter :=
  let sp := if p.hypot f.vx f.vy = 0 then 1 / 1000 else p.hypot f.vx f.vy
  let mx := speed * k.ramp * (14 / 10)
  if mx < sp then { f with vx := f.vx * (mx / sp), vy := f.vy * (mx / sp) } else f

/-- Off the four walls, in the order of the source. -/
def walls (f : Fighter) : Fighter :=
  let f := if f.x < f.r then { f with x := f.r, vx := |f.vx| } else f
  let f := if arenaW - f.r < f.x then { f with x := arenaW - f.r, vx := -|f.vx| } else f
  let f := if f.y < f.r then { f with y := f.r, vy := |f.vy| } else f
  if arenaH - f.r < f.y then { f with y := arenaH - f.r, vy := -|f.vy| } else f

def move (p : Platform) (k : Tick) (A : List ℕ) (F : List Fighter) (i : ℕ) : StateM Rng (List Fighter) := do
  let f := fighterAt F i
  let f := { f with r := f.r + (radiusFor p f - f.r) * (15 / 100) }
  let f := seek p k (target p F A f) f
  let jx ← rand (-8) 8
  let jy ← rand (-8) 8
  let f := { f with vx := f.vx + jx * k.dt, vy := f.vy + jy * k.dt }
  let f := limitSpeed p k f
  let f := { f with x := f.x + f.vx * k.dt, y := f.y + f.vy * k.dt }
  return F.set i (walls f)

/-! ## A clash -/

/-- `tk === "bull" ? bull : uwu` of a fighter's ring. -/
def Fighter.held (f : Fighter) (tk : Side) : ℚ := if tk = .bull then f.bull else f.uwu

/-- What a blow takes from a fighter as it stood before the clash: stolen coins are lost first. -/
def planHit (dfn : Fighter) (dmg : ℚ) : Side × ℚ :=
  let takeEnemy := 5 / 100 < if dfn.side = Side.bull then dfn.uwu else dfn.bull
  let tk : Side := if takeEnemy then (if dfn.side = .bull then .uwu else .bull) else dfn.side
  (tk, min dmg (dfn.held tk))

def Fighter.lose (f : Fighter) (tk : Side) (amt : ℚ) : Fighter :=
  if tk = .bull then { f with bull := f.bull - amt } else { f with uwu := f.uwu - amt }

/-- Raided coin goes to the ring, or in extraction out of it. -/
def Fighter.gain (f : Fighter) (mode : Mode) (tk : Side) (amt : ℚ) : Fighter :=
  match mode with
  | .extraction =>
    if tk = .bull then { f with sBull := f.sBull + amt } else { f with sUwu := f.sUwu + amt }
  | .normal =>
    if tk = .bull then { f with bull := f.bull + amt } else { f with uwu := f.uwu + amt }

/-- One blow: attacker, defender and log after it. Blows of a cent and less do nothing. -/
def applyHit (mode : Mode) (t : ℕ) (atk dfn : Fighter) (hits : List HitLog) (hit : Side × ℚ) :
    Fighter × Fighter × List HitLog :=
  let amt := min hit.2 (dfn.held hit.1)
  if amt ≤ 1 / 100 then (atk, dfn, hits) else
  let winner := atk.gain mode hit.1 amt
  let loser := dfn.lose hit.1 amt
  ({ winner with
      raided := winner.raided + amt, dmgDealt := winner.dmgDealt + amt, bestHit := max winner.bestHit amt },
   { loser with dmgTaken := loser.dmgTaken + amt },
   hits ++ [⟨t, atk.id, dfn.id, amt, hit.1⟩])

/-- Two touching fighters are pushed apart, exchange momentum and recoil. -/
def bounce (a b : Fighter) (dx dy d m : ℚ) : Fighter × Fighter :=
  let nx := dx / d
  let ny := dy / d
  let ov := (m - d) / 2
  let va := a.vx * nx + a.vy * ny
  let vb := b.vx * nx + b.vy * ny
  let diff := vb - va
  ({ a with
      x := a.x - nx * ov, y := a.y - ny * ov
      vx := a.vx + nx * diff - nx * knock, vy := a.vy + ny * diff - ny * knock },
   { b with
      x := b.x + nx * ov, y := b.y + ny * ov
      vx := b.vx - nx * diff + nx * knock, vy := b.vy - ny * diff + ny * knock })

/-- The most a blow may take. -/
def capFor (cfg : RoundConfig) (lateGame : Bool) (small duelBoost : ℚ) (dfn atk : Fighter) : ℚ :=
  if lateGame ∧ ring dfn < ring atk * FINISH_RATIO then ring dfn
  else min (ring dfn) (small * cfg.hitCapFrac * duelBoost)

/-- The damage of the two blows of a clash, from the fighters as they stand before it. -/
def damages (p : Platform) (cfg : RoundConfig) (k : Tick) (t : ℕ) (steps : ℤ) (a b : Fighter) :
    StateM Rng (ℚ × ℚ) := do
  let base := cfg.base * min cfg.multiplier 4 * (7 / 10 + 3 / 10 * k.ramp)
  let gm := p.sqrt (ring a * ring b) * base
  let small := min (ring a) (ring b)
  let duelBoost := if k.bulls = 1 ∧ k.unis = 1 then 1 + 3 * ((t : ℚ) / steps) else 1
  let lateGame := decide ((steps : ℚ) * (5 / 10) < t)
  let edgeA := if ring a < ring b then SMALL_EDGE else 1
  let edgeB := if ring b < ring a then SMALL_EDGE else 1
  let rollA ← roll
  let rollB ← roll
  return (min (gm * rollA * edgeA) (capFor cfg lateGame small duelBoost b a),
    min (gm * rollB * edgeB) (capFor cfg lateGame small duelBoost a b))

def bury (f : Fighter) : Fighter := if ring f ≤ dustFor f then { f with dead := true } else f

/-- The cooldown key of a pair. -/
def pairKey (a b : Fighter) : String := if a.id < b.id then a.id ++ "|" ++ b.id else b.id ++ "|" ++ a.id

/-- Both blows are planned on the fighters before either lands. -/
def exchange (p : Platform) (k : Tick) (s : SimState) (i j : ℕ) (a b : Fighter) : SimState :=
  let ((dAB, dBA), rng) := (damages p s.cfg k s.t s.steps a b).run s.rng
  let hitOnB := planHit b dAB
  let hitOnA := planHit a dBA
  let (a, b, hits) := applyHit s.cfg.mode s.t a b s.hits hitOnB
  let (b, a, hits) := applyHit s.cfg.mode s.t b a hits hitOnA
  { s with rng, hits, F := (s.F.set i (bury a)).set j (bury b) }

def clash (p : Platform) (k : Tick) (s : SimState) (ij : ℕ × ℕ) : SimState :=
  let a := fighterAt s.F ij.1
  let b := fighterAt s.F ij.2
  if a.dead ∨ b.dead then s else
  let dx := b.x - a.x
  let dy := b.y - a.y
  let d := p.hypot dx dy
  let m := a.r + b.r
  if m ≤ d ∨ d ≤ 0 then s else
  let (a, b) := bounce a b dx dy d m
  let s := { s with F := (s.F.set ij.1 a).set ij.2 b }
  if a.side = b.side then s else
  if walletOf a.id = walletOf b.id then s else
  let key := pairKey a b
  if k.nowMs - (s.pairCd key).getD (-10 ^ 9) < hitCd / k.ramp then s else
  exchange p k { s with pairCd := Function.update s.pairCd key (some k.nowMs) } ij.1 ij.2 a b

/-- The pairs of a list, as two nested loops visit them. -/
def pairs : List ℕ → List (ℕ × ℕ)
  | [] => []
  | i :: A => A.map (fun j => (i, j)) ++ pairs A

/-- The indices of the fighters still in. -/
def alive (F : List Fighter) : List ℕ := (List.range F.length).filter fun i => aliveF (fighterAt F i)

def onSide (F : List Fighter) (A : List ℕ) (side : Side) : List ℕ :=
  A.filter fun i => (fighterAt F i).side = side

/-- Advance exactly one tick. -/
def stepSim (p : Platform) (s : SimState) : SimState :=
  if s.done then s else
  let A := alive s.F
  let bulls := onSide s.F A .bull
  let unis := onSide s.F A .uwu
  if bulls = [] ∨ unis = [] then { s with endTick := s.t, done := true }
  else if s.steps ≤ s.t then { s with endTick := s.steps, done := true }
  else
    let k : Tick := {
      dt := s.cfg.tickMs / 1000, nowMs := s.t * s.cfg.tickMs, ramp := 1 + 16 / 10 * ((s.t : ℚ) / s.steps)
      bulls := bulls.length, unis := unis.length }
    let (F, rng) := (A.foldlM (move p k A) s.F).run s.rng
    let s := (pairs A).foldl (clash p k) { s with F, rng }
    let s := { s with t := s.t + 1 }
    if s.steps ≤ s.t then { s with endTick := s.steps, done := true } else s

/-! ## The end -/

/-- What a side ends the round with, ring and bank. -/
def sideValue (F : List Fighter) (side : Side) : ℚ :=
  ((F.filter (fun f => f.side = side)).map (fun f => ring f + f.sBull + f.sUwu)).sum

def payout (f : Fighter) : Payout :=
  { bull := f.bull + f.sBull + if f.side = .bull then f.unmatched else 0
    uwu := f.uwu + f.sUwu + if f.side = .uwu then f.unmatched else 0 }

def settlementOf (F : List Fighter) : OrderedMap String Payout :=
  F.foldl (fun m f => m.set f.id (payout f)) OrderedMap.empty

def finishSim (s : SimState) : RoundResult :=
  { seedHash := "", fighters := s.F
    winner := if sideValue s.F .uwu ≤ sideValue s.F .bull then .bull else .uwu
    hits := s.hits, settlement := settlementOf s.F, endTick := s.endTick }

/-- The loop of a round, at most `fuel` ticks. -/
def simulate (p : Platform) (fuel : ℕ) (s : SimState) : Option SimState :=
  Loop.whileNot SimState.done (stepSim p) fuel s

/-- A whole round, at most `fuel` ticks. -/
def simulateRound (p : Platform) (fuel : ℕ) (seed : String) (entries : List Entry) (cfg : RoundConfig) :
    Option RoundResult :=
  (simulate p fuel (createSim p seed entries cfg)).map fun s =>
    { finishSim s with seedHash := seedHash p seed }

end BullsUnicorns.Battle
