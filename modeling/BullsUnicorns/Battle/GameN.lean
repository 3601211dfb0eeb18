import BullsUnicorns.Battle.Game
import Mathlib.Data.List.Sort

/-!
# The battle of many teams

`gameN.ts`: the engine of the 3-way and free-for-all arenas, from the matched book to the settlement. A
team is a number; it has a place in the arrays when it is one of their indices.
-/

namespace BullsUnicorns.Battle

structure EntryN where
  id : String
  team : ℚ
  stake : ℚ
deriving DecidableEq, Inhabited

structure FighterN where
  id : String
  team : ℚ
  own : ℚ
  stolen : List ℚ
  banked : ℚ
  unmatched : ℚ
  deposited : ℚ
  raided : ℚ
  dmgDealt : ℚ
  dmgTaken : ℚ
  bestHit : ℚ
  dead : Bool
  x : ℚ
  y : ℚ
  vx : ℚ
  vy : ℚ
  r : ℚ
deriving DecidableEq, Inhabited

inductive MatchRule where
  | median
  | min
  | none
deriving DecidableEq, Inhabited

/-- `teams = 0` is the free-for-all. The time step is a divisor. -/
structure CfgN where
  mode : Mode
  teams : ℕ
  multiplier : ℚ
  base : ℚ
  hitCapFrac : ℚ
  battleMs : ℚ
  tickMs : ℚ
  matchRule : MatchRule
  tickMs_ne : tickMs ≠ 0

structure HitN where
  t : ℕ
  atk : String
  dfn : String
  amt : ℚ
deriving DecidableEq, Inhabited

structure ResultN where
  seedHash : String
  fighters : List FighterN
  winnerTeam : ℕ
  winnerId : String
  hits : List HitN
  settlement : OrderedMap String ℚ
  teamTotals : List ℚ
  endTick : ℤ

namespace N

/-! ## Fighters -/

/-- The place of a team in an array of `n`. A negative number or a fraction names a property that no loop reads; a
whole number past the end, which would make the array longer, is left out here. -/
def slot (n : ℕ) (team : ℚ) : Option ℕ := (List.range n).find? fun i => (i : ℚ) = team

def ring (f : FighterN) : ℚ := f.own + f.stolen.sum

def dustFor (f : FighterN) : ℚ := max (5 / 1000) (f.deposited * DUST_FRAC)

def aliveF (f : FighterN) : Bool := !f.dead && decide (dustFor f < ring f)

def radiusFor (p : Platform) (f : FighterN) : ℚ := clamp (13 + 19 / 10 * p.sqrt (ring f)) 13 30

/-! ## The start -/

def ffa (cfg : CfgN) : Bool := cfg.teams = 0

/-- In the free-for-all a fighter's index is its team. -/
def teamOf (cfg : CfgN) (e : EntryN) (i : ℕ) : ℚ := if ffa cfg then i else e.team

def nTeams (cfg : CfgN) (entries : List EntryN) : ℕ := if ffa cfg then entries.length else cfg.teams

def totals (cfg : CfgN) (entries : List EntryN) : List ℚ :=
  (List.range (nTeams cfg entries)).map fun k =>
    ((entries.mapIdx fun i e => if teamOf cfg e i = k then e.stake else 0)).sum

/-- The most that plays for each team; none is no cap. -/
def capPer (cfg : CfgN) (entries : List EntryN) : Option ℚ :=
  if !ffa cfg && cfg.matchRule ≠ .none && decide (2 ≤ nTeams cfg entries) then
    let sorted := (totals cfg entries).mergeSort (· ≤ ·)
    let capPer := if cfg.matchRule = .min then sorted.getD 0 0 else sorted.getD ((sorted.length - 1) / 2) 0
    if capPer ≤ 0 then some ((sorted.find? fun v => 0 < v).getD 0) else some capPer
  else none

def frac (totals : List ℚ) (capPer : Option ℚ) (team : ℚ) : ℚ :=
  match (slot totals.length team).map (totals.getD · 0) with
  | some total => if 0 < total then (match capPer with | some cap => min 1 (cap / total) | none => 1) else 1
  | none => 1

/-- One fighter at its start: teams on arcs around the arena, a free-for-all scattered. -/
def spawn (p : Platform) (cfg : CfgN) (entries : List EntryN) (ie : ℕ × EntryN) : StateM Rng FighterN := do
  let n := nTeams cfg entries
  let team := teamOf cfg ie.2 ie.1
  let inPlay := ie.2.stake * frac (totals cfg entries) (capPer cfg entries) team
  let vx ← rand (-1) 1
  let vy ← rand (-1) 1
  let f : FighterN := {
    id := ie.2.id, team, own := inPlay, stolen := List.replicate n 0, banked := 0
    unmatched := ie.2.stake - inPlay, deposited := ie.2.stake, raided := 0, dmgDealt := 0, dmgTaken := 0
    bestHit := 0, dead := false, x := 0, y := 0, vx, vy, r := 12 }
  let jitter ← rand (if ffa cfg then 0 else -5 / 10) (if ffa cfg then p.pi * 2 else 5 / 10)
  let ang := if ffa cfg then jitter else team / n * p.pi * 2 + jitter
  let cx := arenaW / 2
  let cy := arenaH / 2
  let rr ← rand (if ffa cfg then 60 else 150) (if ffa cfg then 240 else 250)
  let f := { f with
    x := clamp (cx + p.cos ang * rr) 20 (arenaW - 20)
    y := clamp (cy + p.sin ang * rr * (arenaH / arenaW)) 20 (arenaH - 20) }
  return { f with r := radiusFor p f }

/-! ## One tick -/

structure Tick where
  dt : ℚ
  nowMs : ℚ
  ramp : ℚ

def fighterAt (F : List FighterN) (i : ℕ) : FighterN := F.getD i default

def score (p : Platform) (f q : FighterN) : ℚ :=
  let rp := max (1 / 100) (ring f)
  let dx := q.x - f.x
  let dy := q.y - f.y
  let d := p.sqrt (dx * dx + dy * dy)
  let rq := max (1 / 100) (ring q)
  let ratio := min (if rq < rp then rp / rq else rq / rp) 8
  d * (1 + SIZE_WEIGHT * (ratio - 1))

def target (p : Platform) (F : List FighterN) (A : List ℕ) (f : FighterN) : Option FighterN :=
  (A.foldl (fun best j =>
    let q := fighterAt F j
    if q.team = f.team then best
    else if score p f q < best.2 then (some q, score p f q) else best) (none, 10 ^ 18)).1

def seek (p : Platform) (k : Tick) (tgt : Option FighterN) (f : FighterN) : FighterN :=
  match tgt with
  | none => f
  | some q =>
    let ax := q.x - f.x
    let ay := q.y - f.y
    let al := if p.hypot ax ay = 0 then 1 else p.hypot ax ay
    { f with
      vx := f.vx + ax / al * accel * k.ramp * k.dt
      vy := f.vy + ay / al * accel * k.ramp * k.dt }

def limitSpeed (p : Platform) (k : Tick) (f : FighterN) : FighterN :=
  let sp := if p.hypot f.vx f.vy = 0 then 1 / 1000 else p.hypot f.vx f.vy
  let mx := speed * k.ramp * (14 / 10)
  if mx < sp then { f with vx := f.vx * (mx / sp), vy := f.vy * (mx / sp) } else f

def walls (f : FighterN) : FighterN :=
  let f := if f.x < f.r then { f with x := f.r, vx := |f.vx| } else f
  let f := if arenaW - f.r < f.x then { f with x := arenaW - f.r, vx := -|f.vx| } else f
  let f := if f.y < f.r then { f with y := f.r, vy := |f.vy| } else f
  if arenaH - f.r < f.y then { f with y := arenaH - f.r, vy := -|f.vy| } else f

def move (p : Platform) (k : Tick) (A : List ℕ) (F : List FighterN) (i : ℕ) : StateM Rng (List FighterN) := do
  let f := fighterAt F i
  let f := { f with r := f.r + (radiusFor p f - f.r) * (15 / 100) }
  let f := seek p k (target p F A f) f
  let jx ← rand (-8) 8
  let jy ← rand (-8) 8
  let f := { f with vx := f.vx + jx * k.dt, vy := f.vy + jy * k.dt }
  let f := limitSpeed p k f
  let f := { f with x := f.x + f.vx * k.dt, y := f.y + f.vy * k.dt }
  return F.set i (walls f)

/-! ## A clash -/

/-- Where a part of a blow comes from: the defender's own coin, or a pot stolen from a team. -/
inductive Src where
  | own
  | stolen (i : ℕ)
deriving DecidableEq, Inhabited

/-- Parts of a blow from the stolen pots, and what is left to take. -/
def takeStolen : ℚ → List (ℕ × ℚ) → List (Src × ℚ) × ℚ
  | left, [] => ([], left)
  | left, (i, v) :: order =>
    if left ≤ 0 then ([], left)
    else
      let take := min v left
      let (plan, rest) := takeStolen (left - take) order
      ((.stolen i, take) :: plan, rest)

/-- What a blow takes: stolen coins are lost first, the largest pot first, then your own. -/
def takeFrom (dfn : FighterN) (want : ℚ) : List (Src × ℚ) :=
  let order := ((dfn.stolen.mapIdx fun i v => (i, v)).filter fun iv => 1 / 1000 < iv.2).mergeSort
    fun a b => b.2 ≤ a.2
  let (plan, left) := takeStolen want order
  let take := min dfn.own left
  if 0 < left ∧ 0 < take then plan ++ [(.own, take)] else plan

def FighterN.held (f : FighterN) : Src → ℚ
  | .own => f.own
  | .stolen i => f.stolen.getD i 0

def FighterN.lose (f : FighterN) (src : Src) (take : ℚ) : FighterN :=
  match src with
  | .own => { f with own := f.own - take }
  | .stolen i => { f with stolen := f.stolen.modify i (· - take) }

/-- Raided coin of a team: banked, or one's own again, or a stolen pot. -/
def FighterN.gain (f : FighterN) (mode : Mode) (asTeam take : ℚ) : FighterN :=
  match mode with
  | .extraction => { f with banked := f.banked + take }
  | .normal =>
    if asTeam = f.team then { f with own := f.own + take }
    else match slot f.stolen.length asTeam with
      | some i => { f with stolen := f.stolen.modify i (· + take) }
      | none => f

/-- One part of a blow on attacker, defender and the sum so far. -/
def applyPart (mode : Mode) (acc : FighterN × FighterN × ℚ) (part : Src × ℚ) : FighterN × FighterN × ℚ :=
  let (atk, dfn, got) := acc
  let take := min part.2 (FighterN.held dfn part.1)
  if take ≤ 5 / 1000 then (atk, dfn, got)
  else
    let asTeam := match part.1 with
      | .own => dfn.team
      | .stolen i => (i : ℚ)
    (FighterN.gain atk mode asTeam take, FighterN.lose dfn part.1 take, got + take)

def apply (mode : Mode) (t : ℕ) (atk dfn : FighterN) (hits : List HitN) (plan : List (Src × ℚ)) :
    FighterN × FighterN × List HitN :=
  let (winner, loser, got) := plan.foldl (applyPart mode) (atk, dfn, 0)
  if got ≤ 5 / 1000 then (winner, loser, hits)
  else
    ({ winner with
        raided := winner.raided + got, dmgDealt := winner.dmgDealt + got, bestHit := max winner.bestHit got },
     { loser with dmgTaken := loser.dmgTaken + got },
     hits ++ [⟨t, atk.id, dfn.id, got⟩])

def bounce (a b : FighterN) (dx dy d m : ℚ) : FighterN × FighterN :=
  let nx := dx / d
  let ny := dy / d
  let ov := (m - d) / 2
  let va := a.vx * nx + a.vy * ny
  let vb := b.vx * nx + b.vy * ny
  let diff := vb - va
  ({ a with
      x := a.x - nx * ov, y := a.y - ny * ov
      vx := a.vx + nx * diff - nx * knock, vy := a.vy + ny * diff - ny * knock },
   { b with
      x := b.x + nx * ov, y := b.y + ny * ov
      vx := b.vx - nx * diff + nx * knock, vy := b.vy - ny * diff + ny * knock })

def capF (cfg : CfgN) (lateGame : Bool) (small : ℚ) (dfn atk : FighterN) : ℚ :=
  if lateGame ∧ ring dfn < ring atk * FINISH_RATIO then ring dfn else small * cfg.hitCapFrac

def damages (p : Platform) (cfg : CfgN) (k : Tick) (t : ℕ) (steps : ℤ) (a b : FighterN) : StateM Rng (ℚ × ℚ) := do
  let base := cfg.base * min cfg.multiplier 4 * (7 / 10 + 3 / 10 * k.ramp)
  let gm := p.sqrt (ring a * ring b) * base
  let small := min (ring a) (ring b)
  let lateGame := decide ((steps : ℚ) * (5 / 10) < t)
  let eA := if ring a < ring b then SMALL_EDGE else 1
  let eB := if ring b < ring a then SMALL_EDGE else 1
  let rollA ← roll
  let rollB ← roll
  return (min (gm * rollA * eA) (capF cfg lateGame small b a), min (gm * rollB * eB) (capF cfg lateGame small a b))

def bury (f : FighterN) : FighterN := if ring f ≤ dustFor f then { f with dead := true } else f

def pairKey (a b : FighterN) : String := if a.id < b.id then a.id ++ "|" ++ b.id else b.id ++ "|" ++ a.id

/-- What the loop over ticks changes. -/
structure World where
  rng : Rng
  F : List FighterN
  hits : List HitN
  pairCd : String → Option ℚ

def exchange (p : Platform) (cfg : CfgN) (k : Tick) (t : ℕ) (steps : ℤ) (w : World) (i j : ℕ) (a b : FighterN) :
    World :=
  let ((dAB, dBA), rng) := (damages p cfg k t steps a b).run w.rng
  let planB := takeFrom b dAB
  let planA := takeFrom a dBA
  let (a, b, hits) := apply cfg.mode t a b w.hits planB
  let (b, a, hits) := apply cfg.mode t b a hits planA
  { w with rng, hits, F := (w.F.set i (bury a)).set j (bury b) }

def clash (p : Platform) (cfg : CfgN) (k : Tick) (t : ℕ) (steps : ℤ) (w : World) (ij : ℕ × ℕ) : World :=
  let a := fighterAt w.F ij.1
  let b := fighterAt w.F ij.2
  if a.dead ∨ b.dead then w else
  let dx := b.x - a.x
  let dy := b.y - a.y
  let d := p.hypot dx dy
  let m := a.r + b.r
  if m ≤ d ∨ d ≤ 0 then w else
  let (a, b) := bounce a b dx dy d m
  let w := { w with F := (w.F.set ij.1 a).set ij.2 b }
  if a.team = b.team then w else
  let key := pairKey a b
  if k.nowMs - (w.pairCd key).getD (-10 ^ 9) < hitCd / k.ramp then w else
  exchange p cfg k t steps { w with pairCd := Function.update w.pairCd key (some k.nowMs) } ij.1 ij.2 a b

def alive (F : List FighterN) : List ℕ := (List.range F.length).filter fun i => aliveF (fighterAt F i)

/-- `new Set(A.map(f => f.team)).size`. -/
def teamsAlive (F : List FighterN) (A : List ℕ) : ℕ := ((A.map fun i => (fighterAt F i).team).dedup).length

/-- The body of the loop over ticks, once enough teams are alive. -/
def tick (p : Platform) (cfg : CfgN) (steps : ℤ) (t : ℕ) (w : World) : World :=
  let A := alive w.F
  let k : Tick := {
    dt := cfg.tickMs / 1000, nowMs := t * cfg.tickMs, ramp := 1 + 16 / 10 * ((t : ℚ) / steps) }
  let (F, rng) := (A.foldlM (move p k A) w.F).run w.rng
  (pairs A).foldl (clash p cfg k t steps) { w with F, rng }

/-- `for (let t = …; t < steps; t++)` with `n` ticks to go: where the battle ends, and at which tick. -/
def ticks (p : Platform) (cfg : CfgN) (steps : ℤ) : ℕ → ℕ → World → World × ℤ
  | 0, _, w => (w, steps)
  | n + 1, t, w =>
    if teamsAlive w.F (alive w.F) < 2 then (w, t) else ticks p cfg steps n (t + 1) (tick p cfg steps t w)

/-! ## The end -/

def bag (f : FighterN) : ℚ := ring f + f.banked + f.unmatched

def teamTotals (n : ℕ) (F : List FighterN) : List ℚ :=
  (List.range n).map fun k => ((F.filter fun f => f.team = k).map fun f => ring f + f.banked).sum

/-- The first team with the largest total. -/
def winnerTeam (totals : List ℚ) : ℕ :=
  (List.range totals.length).foldl (fun best i => if totals.getD best 0 < totals.getD i 0 then i else best) 0

def winnerId (F : List FighterN) : String :=
  (F.foldl (fun best f => if best.2 < bag f then (f.id, bag f) else best) ("", -1)).1

def settlementOf (F : List FighterN) : OrderedMap String ℚ :=
  F.foldl (fun m f => m.set f.id (bag f)) OrderedMap.empty

def start (p : Platform) (seed : String) (entries : List EntryN) (cfg : CfgN) : World :=
  let (F, rng) := ((entries.mapIdx fun i e => (i, e)).mapM (spawn p cfg entries)).run ⟨p.rngFromSeed seed, 0⟩
  { rng, F, hits := [], pairCd := fun _ => none }

/-- The fighters, hits and end tick that a battle ends with. -/
def fight (p : Platform) (seed : String) (entries : List EntryN) (cfg : CfgN) : World × ℤ :=
  let steps := ⌊cfg.battleMs / cfg.tickMs⌋
  ticks p cfg steps steps.toNat 0 (start p seed entries cfg)

end N

def seedHashN (p : Platform) (seed : String) : String := p.sha256 seed

def simulateN (p : Platform) (seed : String) (entries : List EntryN) (cfg : CfgN) : ResultN :=
  let (w, endTick) := N.fight p seed entries cfg
  let teamTotals := N.teamTotals (N.nTeams cfg entries) w.F
  { seedHash := seedHashN p seed, fighters := w.F, winnerTeam := N.winnerTeam teamTotals
    winnerId := N.winnerId w.F, hits := w.hits, settlement := N.settlementOf w.F, teamTotals, endTick }

end BullsUnicorns.Battle
