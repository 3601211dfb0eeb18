import BullsUnicorns.Battle.GameN

/-!
# The battles of the browser

The two simulations of `web/index.html`, as the page writes them. The records are those of the engine; the
steps are the page's own.
-/

namespace BullsUnicorns.Battle.Browser

/-! ## The two-team battle -/

def sRing (f : Fighter) : ℚ := f.bull + f.uwu

def sDust (f : Fighter) : ℚ := max (5 / 1000) (f.deposited * DUST_FRAC)

def sAlive (f : Fighter) : Bool := !f.dead && decide (sDust f < sRing f)

def sRadius (p : Platform) (f : Fighter) : ℚ := clamp (13 + 19 / 10 * p.sqrt (sRing f)) 13 30

/-- The part of a stake that both sides can cover. -/
def inPlayFrac (tot : Totals) (side : Side) : ℚ :=
  let matched := min tot.bull tot.uwu
  match tot.get side with
  | some total => if 0 < total then min 1 (matched / total) else 1
  | none => 1

def spawn (p : Platform) (tot : Totals) (e : Entry) : StateM Rng Fighter := do
  let inPlay := e.stake * inPlayFrac tot e.side
  let vx ← rand (-1) 1
  let vy ← rand (-1) 1
  let f : Fighter := {
    id := e.id, side := e.side
    bull := if e.side = .bull then inPlay else 0
    uwu := if e.side = .uwu then inPlay else 0
    sBull := 0, sUwu := 0, deposited := e.stake, unmatched := e.stake - inPlay, raided := 0, dmgDealt := 0
    dmgTaken := 0, bestHit := 0, dead := false
    x := 0, y := 0, vx := vx, vy := vy, r := 12 }
  let x ← spawnX e.side
  let y ← rand 40 (arenaH - 40)
  let f := { f with x := x, y := y }
  return { f with r := sRadius p f }

def createSimJS (p : Platform) (seed : String) (entries : List Entry) (cfg : RoundConfig) : SimState :=
  let tot := totals entries
  let (F, rng) := (entries.mapM (spawn p tot)).run ⟨p.rngFromSeed seed, 0⟩
  let steps := ⌊cfg.battleMs / cfg.tickMs⌋
  { rng, F, hits := [], t := 0, steps, cfg, pairCd := fun _ => none, endTick := steps, done := false }

/-- `hypot(x, y) || other`. -/
def hypotOr (p : Platform) (x y other : ℚ) : ℚ := if p.hypot x y = 0 then other else p.hypot x y

def sScore (p : Platform) (f q : Fighter) : ℚ :=
  let rp := max (1 / 100) (sRing f)
  let dx := q.x - f.x
  let dy := q.y - f.y
  let d := p.sqrt (dx * dx + dy * dy)
  let rq := max (1 / 100) (sRing q)
  let ratio := min (if rq < rp then rp / rq else rq / rp) 8
  d * (1 + SIZE_WEIGHT * (ratio - 1))

def sTarget (p : Platform) (F : List Fighter) (A : List ℕ) (f : Fighter) : Option Fighter :=
  (A.foldl (fun best j =>
    let q := fighterAt F j
    if q.side = f.side then best
    else if walletOf q.id = walletOf f.id then best
    else if sScore p f q < best.2 then (some q, sScore p f q) else best) (none, 10 ^ 18)).1

def sSeek (p : Platform) (k : Tick) (tgt : Option Fighter) (f : Fighter) : Fighter :=
  match tgt with
  | none => f
  | some tgt =>
    let ax := tgt.x - f.x
    let ay := tgt.y - f.y
    let al := hypotOr p ax ay 1
    { f with vx := f.vx + ax / al * accel * k.ramp * k.dt, vy := f.vy + ay / al * accel * k.ramp * k.dt }

def sLimit (p : Platform) (k : Tick) (f : Fighter) : Fighter :=
  let sp := hypotOr p f.vx f.vy (1 / 1000)
  let mx := speed * k.ramp * (14 / 10)
  if mx < sp then { f with vx := f.vx * (mx / sp), vy := f.vy * (mx / sp) } else f

def sWalls (f : Fighter) : Fighter :=
  let f := if f.x < f.r then { f with x := f.r, vx := |f.vx| } else f
  let f := if arenaW - f.r < f.x then { f with x := arenaW - f.r, vx := -|f.vx| } else f
  let f := if f.y < f.r then { f with y := f.r, vy := |f.vy| } else f
  if arenaH - f.r < f.y then { f with y := arenaH - f.r, vy := -|f.vy| } else f

def sMove (p : Platform) (k : Tick) (A : List ℕ) (F : List Fighter) (i : ℕ) : StateM Rng (List Fighter) := do
  let f := fighterAt F i
  let f := { f with r := f.r + (sRadius p f - f.r) * (15 / 100) }
  let f := sSeek p k (sTarget p F A f) f
  let jx ← rand (-8) 8
  let jy ← rand (-8) 8
  let f := { f with vx := f.vx + jx * k.dt, vy := f.vy + jy * k.dt }
  let f := sLimit p k f
  let f := { f with x := f.x + f.vx * k.dt, y := f.y + f.vy * k.dt }
  return F.set i (sWalls f)

def sPlanHit (dfn : Fighter) (dmg : ℚ) : Side × ℚ :=
  let takeEnemy := 5 / 100 < if dfn.side = Side.bull then dfn.uwu else dfn.bull
  let tk : Side := if takeEnemy then (if dfn.side = .bull then .uwu else .bull) else dfn.side
  (tk, min dmg (if tk = .bull then dfn.bull else dfn.uwu))

def sApplyHit (cfg : RoundConfig) (t : ℕ) (atk dfn : Fighter) (hits : List HitLog) (hit : Side × ℚ) :
    Fighter × Fighter × List HitLog :=
  let amt := min hit.2 (if hit.1 = .bull then dfn.bull else dfn.uwu)
  if amt ≤ 1 / 100 then (atk, dfn, hits) else
  let loser := if hit.1 = .bull then { dfn with bull := dfn.bull - amt } else { dfn with uwu := dfn.uwu - amt }
  let winner :=
    if cfg.mode = .extraction then
      if hit.1 = .bull then { atk with sBull := atk.sBull + amt } else { atk with sUwu := atk.sUwu + amt }
    else
      if hit.1 = .bull then { atk with bull := atk.bull + amt } else { atk with uwu := atk.uwu + amt }
  ({ winner with
      raided := winner.raided + amt, dmgDealt := winner.dmgDealt + amt, bestHit := max winner.bestHit amt },
   { loser with dmgTaken := loser.dmgTaken + amt },
   hits ++ [⟨t, atk.id, dfn.id, amt, hit.1⟩])

def sCapFor (cfg : RoundConfig) (lateGame : Bool) (small duelBoost : ℚ) (dfn atk : Fighter) : ℚ :=
  if lateGame ∧ sRing dfn < sRing atk * FINISH_RATIO then sRing dfn
  else min (sRing dfn) (small * cfg.hitCapFrac * duelBoost)

def sDamages (p : Platform) (k : Tick) (s : SimState) (a b : Fighter) : StateM Rng (ℚ × ℚ) := do
  let base := s.cfg.base * min s.cfg.multiplier 4 * (7 / 10 + 3 / 10 * k.ramp)
  let gm := p.sqrt (sRing a * sRing b) * base
  let small := min (sRing a) (sRing b)
  let duel := k.bulls = 1 ∧ k.unis = 1
  let duelBoost := if duel then 1 + 3 * ((s.t : ℚ) / s.steps) else 1
  let lateGame := decide ((s.steps : ℚ) * (5 / 10) < s.t)
  let edgeA := if sRing a < sRing b then SMALL_EDGE else 1
  let edgeB := if sRing b < sRing a then SMALL_EDGE else 1
  let rollA ← roll
  let rollB ← roll
  return (min (gm * rollA * edgeA) (sCapFor s.cfg lateGame small duelBoost b a),
    min (gm * rollB * edgeB) (sCapFor s.cfg lateGame small duelBoost a b))

/-- `pairCd.has(key) ? pairCd.get(key) : -1e9`. -/
def lastHit (pairCd : String → Option ℚ) (key : String) : ℚ :=
  if (pairCd key).isSome then (pairCd key).getD 0 else -10 ^ 9

/-- Apart, momentum and recoil. -/
def sBounce (a b : Fighter) (dx dy d m : ℚ) : Fighter × Fighter :=
  let nx := dx / d
  let ny := dy / d
  let ov := (m - d) / 2
  let va := a.vx * nx + a.vy * ny
  let vb := b.vx * nx + b.vy * ny
  let diff := vb - va
  ({ a with
      x := a.x - nx * ov, y := a.y - ny * ov
      vx := a.vx + nx * diff - nx * knock, vy := a.vy + ny * diff - ny * knock },
   { b with
      x := b.x + nx * ov, y := b.y + ny * ov
      vx := b.vx - nx * diff + nx * knock, vy := b.vy - ny * diff + ny * knock })

def sKey (a b : Fighter) : String := if a.id < b.id then a.id ++ "|" ++ b.id else b.id ++ "|" ++ a.id

def sBury (f : Fighter) : Fighter := if sRing f ≤ sDust f then { f with dead := true } else f

def sBlows (p : Platform) (k : Tick) (s : SimState) (i j : ℕ) (a b : Fighter) : SimState :=
  let ((dAB, dBA), rng) := (sDamages p k s a b).run s.rng
  let hitOnB := sPlanHit b dAB
  let hitOnA := sPlanHit a dBA
  let (a, b, hits) := sApplyHit s.cfg s.t a b s.hits hitOnB
  let (b, a, hits) := sApplyHit s.cfg s.t b a hits hitOnA
  { s with rng, hits, F := (s.F.set i (sBury a)).set j (sBury b) }

def sClash (p : Platform) (k : Tick) (s : SimState) (ij : ℕ × ℕ) : SimState :=
  let a := fighterAt s.F ij.1
  let b := fighterAt s.F ij.2
  if a.dead ∨ b.dead then s else
  let dx := b.x - a.x
  let dy := b.y - a.y
  let d := p.hypot dx dy
  let m := a.r + b.r
  if m ≤ d ∨ d ≤ 0 then s else
  let (a, b) := sBounce a b dx dy d m
  let s := { s with F := (s.F.set ij.1 a).set ij.2 b }
  if a.side = b.side then s else
  if walletOf a.id = walletOf b.id then s else
  let key := sKey a b
  if k.nowMs - lastHit s.pairCd key < hitCd / k.ramp then s else
  sBlows p k { s with pairCd := Function.update s.pairCd key (some k.nowMs) } ij.1 ij.2 a b

def stepSimJS (p : Platform) (s : SimState) : SimState :=
  if s.done then s else
  let A := (List.range s.F.length).filter fun i => sAlive (fighterAt s.F i)
  let bulls := A.filter fun i => (fighterAt s.F i).side = .bull
  let unis := A.filter fun i => (fighterAt s.F i).side = .uwu
  if bulls = [] ∨ unis = [] then { s with endTick := s.t, done := true }
  else if s.steps ≤ s.t then { s with endTick := s.steps, done := true }
  else
    let k : Tick := {
      dt := s.cfg.tickMs / 1000, nowMs := s.t * s.cfg.tickMs, ramp := 1 + 16 / 10 * ((s.t : ℚ) / s.steps)
      bulls := bulls.length, unis := unis.length }
    let (F, rng) := (A.foldlM (sMove p k A) s.F).run s.rng
    let s := (pairs A).foldl (sClash p k) { s with F, rng }
    let s := { s with t := s.t + 1 }
    if s.steps ≤ s.t then { s with endTick := s.steps, done := true } else s

structure ResultJS where
  winner : Side
  hits : List HitLog
  settlement : OrderedMap String Payout

/-- The loop of `simulateRoundJS`, at most `fuel` ticks. -/
def simulateJS (p : Platform) (fuel : ℕ) (seed : String) (entries : List Entry) (cfg : RoundConfig) :
    Option SimState :=
  Loop.whileNot SimState.done (stepSimJS p) fuel (createSimJS p seed entries cfg)

def finishJS (s : SimState) : ResultJS :=
  let bullV := ((s.F.filter (fun f => f.side = .bull)).map (fun f => sRing f + f.sBull + f.sUwu)).sum
  let uwuV := ((s.F.filter (fun f => f.side = .uwu)).map (fun f => sRing f + f.sBull + f.sUwu)).sum
  { winner := if uwuV ≤ bullV then .bull else .uwu
    hits := s.hits
    settlement := s.F.foldl (fun m f => m.set f.id {
      bull := f.bull + f.sBull + if f.side = .bull then f.unmatched else 0
      uwu := f.uwu + f.sUwu + if f.side = .uwu then f.unmatched else 0 }) OrderedMap.empty }

def simulateRoundJS (p : Platform) (fuel : ℕ) (seed : String) (entries : List Entry) (cfg : RoundConfig) :
    Option ResultJS :=
  (simulateJS p fuel seed entries cfg).map finishJS

/-! ## The battle of many teams -/

def nRing (f : FighterN) : ℚ := f.own + f.stolen.sum

def nDust (f : FighterN) : ℚ := max (5 / 1000) (f.deposited * DUST_FRAC)

def nAlive (f : FighterN) : Bool := !f.dead && decide (nDust f < nRing f)

def nRadius (p : Platform) (f : FighterN) : ℚ := clamp (13 + 19 / 10 * p.sqrt (nRing f)) 13 30

/-- A battle that can be stepped. -/
structure SimStateN where
  rng : Rng
  F : List FighterN
  hits : List HitN
  t : ℕ
  steps : ℤ
  cfg : CfgN
  pairCd : String → Option ℚ
  endTick : ℤ
  done : Bool

def nT (cfg : CfgN) (entries : List EntryN) : ℕ := if cfg.teams = 0 then entries.length else cfg.teams

def nTeam (cfg : CfgN) (ie : ℕ × EntryN) : ℚ := if cfg.teams = 0 then ie.1 else ie.2.team

def nTotals (cfg : CfgN) (entries : List EntryN) : List ℚ :=
  (List.range (nT cfg entries)).map fun k =>
    ((entries.mapIdx fun i e => if nTeam cfg (i, e) = k then e.stake else 0)).sum

def nCapPer (cfg : CfgN) (entries : List EntryN) : Option ℚ :=
  if cfg.teams ≠ 0 ∧ cfg.matchRule ≠ .none ∧ 2 ≤ nT cfg entries then
    let sorted := (nTotals cfg entries).mergeSort (· ≤ ·)
    let capPer := if cfg.matchRule = .min then sorted.getD 0 0 else sorted.getD ((sorted.length - 1) / 2) 0
    if capPer ≤ 0 then some ((sorted.find? fun v => 0 < v).getD 0) else some capPer
  else none

def nFrac (totals : List ℚ) (capPer : Option ℚ) (team : ℚ) : ℚ :=
  match (N.slot totals.length team).map (totals.getD · 0) with
  | some total => if 0 < total then (match capPer with | some cap => min 1 (cap / total) | none => 1) else 1
  | none => 1

def nSpawn (p : Platform) (cfg : CfgN) (entries : List EntryN) (ie : ℕ × EntryN) : StateM Rng FighterN := do
  let team := nTeam cfg ie
  let inPlay := ie.2.stake * nFrac (nTotals cfg entries) (nCapPer cfg entries) team
  let vx ← rand (-1) 1
  let vy ← rand (-1) 1
  let f : FighterN := {
    id := ie.2.id, team, own := inPlay, stolen := List.replicate (nT cfg entries) 0, banked := 0
    unmatched := ie.2.stake - inPlay, deposited := ie.2.stake, raided := 0, dmgDealt := 0, dmgTaken := 0
    bestHit := 0, dead := false, x := 0, y := 0, vx, vy, r := 12 }
  let turn ← rand (if cfg.teams = 0 then 0 else -5 / 10) (if cfg.teams = 0 then p.pi * 2 else 5 / 10)
  let ang := if cfg.teams = 0 then turn else team / (nT cfg entries : ℚ) * p.pi * 2 + turn
  let rad ← rand (if cfg.teams = 0 then 60 else 150) (if cfg.teams = 0 then 240 else 250)
  let f := { f with
    x := clamp (arenaW / 2 + p.cos ang * rad) 20 (arenaW - 20)
    y := clamp (arenaH / 2 + p.sin ang * rad * (arenaH / arenaW)) 20 (arenaH - 20) }
  return { f with r := nRadius p f }

def createSimN (p : Platform) (seed : String) (entries : List EntryN) (cfg : CfgN) : SimStateN :=
  let (F, rng) := ((entries.mapIdx fun i e => (i, e)).mapM (nSpawn p cfg entries)).run ⟨p.rngFromSeed seed, 0⟩
  let steps := ⌊cfg.battleMs / cfg.tickMs⌋
  { rng, F, hits := [], t := 0, steps, cfg, pairCd := fun _ => none, endTick := steps, done := false }

def nScore (p : Platform) (f q : FighterN) : ℚ :=
  let rp := max (1 / 100) (nRing f)
  let dx := q.x - f.x
  let dy := q.y - f.y
  let d := p.sqrt (dx * dx + dy * dy)
  let rq := max (1 / 100) (nRing q)
  let ratio := min (if rq < rp then rp / rq else rq / rp) 8
  d * (1 + SIZE_WEIGHT * (ratio - 1))

def nTarget (p : Platform) (F : List FighterN) (A : List ℕ) (f : FighterN) : Option FighterN :=
  (A.foldl (fun best j =>
    let q := N.fighterAt F j
    if q.team = f.team then best
    else if nScore p f q < best.2 then (some q, nScore p f q) else best) (none, 10 ^ 18)).1

def nSeek (p : Platform) (k : N.Tick) (tgt : Option FighterN) (f : FighterN) : FighterN :=
  match tgt with
  | none => f
  | some tgt =>
    let ax := tgt.x - f.x
    let ay := tgt.y - f.y
    let al := hypotOr p ax ay 1
    { f with vx := f.vx + ax / al * accel * k.ramp * k.dt, vy := f.vy + ay / al * accel * k.ramp * k.dt }

def nLimit (p : Platform) (k : N.Tick) (f : FighterN) : FighterN :=
  let sp := hypotOr p f.vx f.vy (1 / 1000)
  let mx := speed * k.ramp * (14 / 10)
  if mx < sp then { f with vx := f.vx * (mx / sp), vy := f.vy * (mx / sp) } else f

def nWalls (f : FighterN) : FighterN :=
  let f := if f.x < f.r then { f with x := f.r, vx := |f.vx| } else f
  let f := if arenaW - f.r < f.x then { f with x := arenaW - f.r, vx := -|f.vx| } else f
  let f := if f.y < f.r then { f with y := f.r, vy := |f.vy| } else f
  if arenaH - f.r < f.y then { f with y := arenaH - f.r, vy := -|f.vy| } else f

def nMove (p : Platform) (k : N.Tick) (A : List ℕ) (F : List FighterN) (i : ℕ) : StateM Rng (List FighterN) := do
  let f := N.fighterAt F i
  let f := { f with r := f.r + (nRadius p f - f.r) * (15 / 100) }
  let f := nSeek p k (nTarget p F A f) f
  let jx ← rand (-8) 8
  let jy ← rand (-8) 8
  let f := { f with vx := f.vx + jx * k.dt, vy := f.vy + jy * k.dt }
  let f := nLimit p k f
  let f := { f with x := f.x + f.vx * k.dt, y := f.y + f.vy * k.dt }
  return F.set i (nWalls f)

def nTakeStolen : ℚ → List (ℕ × ℚ) → List (N.Src × ℚ) × ℚ
  | left, [] => ([], left)
  | left, (i, v) :: order =>
    if left ≤ 0 then ([], left)
    else
      let take := min v left
      let (plan, rest) := nTakeStolen (left - take) order
      ((.stolen i, take) :: plan, rest)

def nTakeFrom (dfn : FighterN) (want : ℚ) : List (N.Src × ℚ) :=
  let order := ((dfn.stolen.mapIdx fun i v => (i, v)).filter fun iv => 1 / 1000 < iv.2).mergeSort
    fun a b => b.2 ≤ a.2
  let (plan, left) := nTakeStolen want order
  let take := min dfn.own left
  if 0 < left ∧ 0 < take then plan ++ [(.own, take)] else plan

def nApplyPart (cfg : CfgN) (acc : FighterN × FighterN × ℚ) (part : N.Src × ℚ) : FighterN × FighterN × ℚ :=
  let (atk, dfn, got) := acc
  let avail := match part.1 with
    | .own => dfn.own
    | .stolen i => dfn.stolen.getD i 0
  let take := min part.2 avail
  if take ≤ 5 / 1000 then (atk, dfn, got)
  else
    let loser := match part.1 with
      | .own => { dfn with own := dfn.own - take }
      | .stolen i => { dfn with stolen := dfn.stolen.modify i (· - take) }
    let asTeam := match part.1 with
      | .own => dfn.team
      | .stolen i => (i : ℚ)
    let winner :=
      if cfg.mode = .extraction then { atk with banked := atk.banked + take }
      else if asTeam = atk.team then { atk with own := atk.own + take }
      else match N.slot atk.stolen.length asTeam with
        | some i => { atk with stolen := atk.stolen.modify i (· + take) }
        | none => atk
    (winner, loser, got + take)

def nApply (cfg : CfgN) (t : ℕ) (atk dfn : FighterN) (hits : List HitN) (plan : List (N.Src × ℚ)) :
    FighterN × FighterN × List HitN :=
  let (winner, loser, got) := plan.foldl (nApplyPart cfg) (atk, dfn, 0)
  if got ≤ 5 / 1000 then (winner, loser, hits)
  else
    ({ winner with
        raided := winner.raided + got, dmgDealt := winner.dmgDealt + got, bestHit := max winner.bestHit got },
     { loser with dmgTaken := loser.dmgTaken + got },
     hits ++ [⟨t, atk.id, dfn.id, got⟩])

def nDamages (p : Platform) (k : N.Tick) (s : SimStateN) (a b : FighterN) : StateM Rng (ℚ × ℚ) := do
  let base := s.cfg.base * min s.cfg.multiplier 4 * (7 / 10 + 3 / 10 * k.ramp)
  let gm := p.sqrt (nRing a * nRing b) * base
  let small := min (nRing a) (nRing b)
  let late := decide ((s.steps : ℚ) * (5 / 10) < s.t)
  let capF := fun dfn atk : FighterN =>
    if late ∧ nRing dfn < nRing atk * FINISH_RATIO then nRing dfn else small * s.cfg.hitCapFrac
  let eA := if nRing a < nRing b then SMALL_EDGE else 1
  let eB := if nRing b < nRing a then SMALL_EDGE else 1
  let rollA ← roll
  let rollB ← roll
  return (min (gm * rollA * eA) (capF b a), min (gm * rollB * eB) (capF a b))

def nBounce (a b : FighterN) (dx dy d m : ℚ) : FighterN × FighterN :=
  let nx := dx / d
  let ny := dy / d
  let ov := (m - d) / 2
  let va := a.vx * nx + a.vy * ny
  let vb := b.vx * nx + b.vy * ny
  let diff := vb - va
  ({ a with
      x := a.x - nx * ov, y := a.y - ny * ov
      vx := a.vx + nx * diff - nx * knock, vy := a.vy + ny * diff - ny * knock },
   { b with
      x := b.x + nx * ov, y := b.y + ny * ov
      vx := b.vx - nx * diff + nx * knock, vy := b.vy - ny * diff + ny * knock })

def nKey (a b : FighterN) : String := if a.id < b.id then a.id ++ "|" ++ b.id else b.id ++ "|" ++ a.id

def nBury (f : FighterN) : FighterN := if nRing f ≤ nDust f then { f with dead := true } else f

def nBlows (p : Platform) (k : N.Tick) (s : SimStateN) (i j : ℕ) (a b : FighterN) : SimStateN :=
  let ((dAB, dBA), rng) := (nDamages p k s a b).run s.rng
  let planB := nTakeFrom b dAB
  let planA := nTakeFrom a dBA
  let (a, b, hits) := nApply s.cfg s.t a b s.hits planB
  let (b, a, hits) := nApply s.cfg s.t b a hits planA
  { s with rng, hits, F := (s.F.set i (nBury a)).set j (nBury b) }

def nClash (p : Platform) (k : N.Tick) (s : SimStateN) (ij : ℕ × ℕ) : SimStateN :=
  let a := N.fighterAt s.F ij.1
  let b := N.fighterAt s.F ij.2
  if a.dead ∨ b.dead then s else
  let dx := b.x - a.x
  let dy := b.y - a.y
  let d := p.hypot dx dy
  let m := a.r + b.r
  if m ≤ d ∨ d ≤ 0 then s else
  let (a, b) := nBounce a b dx dy d m
  let s := { s with F := (s.F.set ij.1 a).set ij.2 b }
  if a.team = b.team then s else
  let key := nKey a b
  if k.nowMs - lastHit s.pairCd key < hitCd / k.ramp then s else
  nBlows p k { s with pairCd := Function.update s.pairCd key (some k.nowMs) } ij.1 ij.2 a b

def stepSimN (p : Platform) (s : SimStateN) : SimStateN :=
  if s.done then s else
  let A := (List.range s.F.length).filter fun i => nAlive (N.fighterAt s.F i)
  if ((A.map fun i => (N.fighterAt s.F i).team).dedup).length < 2 then { s with endTick := s.t, done := true }
  else if s.steps ≤ s.t then { s with endTick := s.steps, done := true }
  else
    let k : N.Tick := {
      dt := s.cfg.tickMs / 1000, nowMs := s.t * s.cfg.tickMs, ramp := 1 + 16 / 10 * ((s.t : ℚ) / s.steps) }
    let (F, rng) := (A.foldlM (nMove p k A) s.F).run s.rng
    let s := (pairs A).foldl (nClash p k) { s with F, rng }
    let s := { s with t := s.t + 1 }
    if s.steps ≤ s.t then { s with endTick := s.steps, done := true } else s

/-- Stepping from the start until the flag stands, at most `fuel` ticks. -/
def playN (p : Platform) (fuel : ℕ) (seed : String) (entries : List EntryN) (cfg : CfgN) : Option SimStateN :=
  Loop.whileNot SimStateN.done (stepSimN p) fuel (createSimN p seed entries cfg)

end BullsUnicorns.Battle.Browser
