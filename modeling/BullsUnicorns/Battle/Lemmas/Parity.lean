import BullsUnicorns.Battle.Browser

/-!
# The page's copies, function by function

Each function of the page's simulations computes what its engine function computes.
-/

namespace BullsUnicorns.Battle.Browser

variable {p : Platform}

/-! ## The two-team battle -/

theorem sRing_eq : sRing = ring := rfl

theorem sDust_eq : sDust = dustFor := rfl

theorem sAlive_eq : sAlive = aliveF := rfl

theorem sRadius_eq : sRadius = radiusFor := rfl

/-- The smaller of the two totals, as a part of one of them. -/
theorem min_part_eq {a : ℚ} (b : ℚ) (ha : 0 < a) : min 1 (min a b / a) = min 1 (b / a) := by
  rw [← min_div_div_right ha.le, div_self ha.ne', ← min_assoc, min_self]

theorem inPlayFrac_eq (tot : Totals) {cfg : RoundConfig} (htol : cfg.matchTol.getD 0 = 0) {side : Side}
    (hside : side = .bull ∨ side = .uwu) : inPlayFrac tot side = Battle.inPlayFrac tot cfg side := by
  rcases hside with rfl | rfl
  · simp only [inPlayFrac, Battle.inPlayFrac, Totals.get, Side.key, htol, if_true, add_zero, mul_one]
    split
    · next h => exact min_part_eq tot.uwu h
    · rfl
  · simp only [inPlayFrac, Battle.inPlayFrac, Totals.get, Side.key, htol, String.reduceEq, reduceCtorEq,
      if_true, if_false, add_zero, mul_one]
    split
    · next h => rw [min_comm tot.bull]; exact min_part_eq tot.bull h
    · rfl

theorem spawn_eq (tot : Totals) {cfg : RoundConfig} (htol : cfg.matchTol.getD 0 = 0) {e : Entry}
    (hside : e.side = .bull ∨ e.side = .uwu) : spawn p tot e = Battle.spawn p tot cfg e := by
  unfold spawn Battle.spawn
  rw [inPlayFrac_eq tot htol hside]
  rfl

theorem mapM_congr {α β σ : Type} {f g : α → StateM σ β} {l : List α} (h : ∀ a ∈ l, f a = g a) :
    l.mapM f = l.mapM g := by
  induction l with
  | nil => rfl
  | cons a l ih =>
      rw [List.mapM_cons, List.mapM_cons, h a List.mem_cons_self, ih fun b hb => h b (List.mem_cons_of_mem a hb)]

theorem createSimJS_eq (seed : String) {entries : List Entry} {cfg : RoundConfig} (htol : cfg.matchTol.getD 0 = 0)
    (hside : ∀ e ∈ entries, e.side = .bull ∨ e.side = .uwu) :
    createSimJS p seed entries cfg = createSim p seed entries cfg := by
  have hspawn : entries.mapM (spawn p (totals entries)) = entries.mapM (Battle.spawn p (totals entries) cfg) :=
    mapM_congr fun e he => spawn_eq (totals entries) htol (hside e he)
  rw [createSim, ← hspawn]
  rfl

theorem sScore_eq : sScore = score := rfl

theorem sTarget_eq : sTarget = target := by
  unfold sTarget target
  rw [sScore_eq]

theorem sSeek_eq : sSeek = seek := rfl

theorem sLimit_eq : sLimit = limitSpeed := rfl

theorem sWalls_eq : sWalls = walls := rfl

theorem sMove_eq : sMove = move := by
  unfold sMove move
  rw [sTarget_eq, sSeek_eq, sLimit_eq, sWalls_eq, sRadius_eq]

theorem sPlanHit_eq : sPlanHit = planHit := rfl

theorem sApplyHit_eq (cfg : RoundConfig) : sApplyHit cfg = applyHit cfg.mode := by
  funext t atk dfn hits hit
  unfold sApplyHit applyHit
  cases hmode : cfg.mode <;> rfl

theorem sCapFor_eq : sCapFor = capFor := rfl

theorem sDamages_eq (k : Tick) (s : SimState) : sDamages p k s = damages p s.cfg k s.t s.steps := by
  unfold sDamages damages
  rw [sRing_eq, sCapFor_eq]

theorem lastHit_eq (pairCd : String → Option ℚ) (key : String) : lastHit pairCd key = (pairCd key).getD (-10 ^ 9) := by
  unfold lastHit
  cases pairCd key <;> rfl

theorem sBounce_eq : sBounce = bounce := rfl

theorem sKey_eq : sKey = pairKey := rfl

theorem sBury_eq : sBury = bury := by
  unfold sBury bury
  rw [sRing_eq, sDust_eq]

theorem sBlows_eq : sBlows = exchange := by
  funext p k s i j a b
  simp only [exchange, ← sDamages_eq, ← sPlanHit_eq, ← sApplyHit_eq, ← sBury_eq]
  rfl

theorem sClash_eq : sClash = clash := by
  funext p k s ij
  simp only [sClash, clash, sBounce_eq, sKey_eq, lastHit_eq, sBlows_eq]

theorem stepSimJS_eq : stepSimJS = stepSim := by
  funext p s
  simp only [stepSim, alive, onSide, ← sAlive_eq, ← sMove_eq, ← sClash_eq]
  rfl

theorem finishJS_eq (s : SimState) :
    finishJS s = ⟨(finishSim s).winner, (finishSim s).hits, (finishSim s).settlement⟩ := rfl

/-! ## The battle of many teams -/

theorem nRing_eq : nRing = N.ring := rfl

theorem nDust_eq : nDust = N.dustFor := rfl

theorem nAlive_eq : nAlive = N.aliveF := rfl

theorem nRadius_eq : nRadius = N.radiusFor := rfl

theorem nScore_eq : nScore = N.score := rfl

theorem nTarget_eq : nTarget = N.target := by
  unfold nTarget N.target
  rw [nScore_eq]

theorem nSeek_eq : nSeek = N.seek := rfl

theorem nLimit_eq : nLimit = N.limitSpeed := rfl

theorem nWalls_eq : nWalls = N.walls := rfl

theorem nMove_eq : nMove = N.move := by
  unfold nMove N.move
  rw [nTarget_eq, nSeek_eq, nLimit_eq, nWalls_eq, nRadius_eq]

theorem nTotals_eq (cfg : CfgN) (entries : List EntryN) : nTotals cfg entries = N.totals cfg entries := by
  unfold nTotals N.totals nT N.nTeams nTeam N.teamOf N.ffa
  by_cases h : cfg.teams = 0 <;> simp [h]

theorem nCapPer_eq (cfg : CfgN) (entries : List EntryN) : nCapPer cfg entries = N.capPer cfg entries := by
  unfold nCapPer N.capPer N.ffa nT N.nTeams N.ffa
  rw [nTotals_eq]
  by_cases h : cfg.teams = 0 <;> simp [h]

theorem nSpawn_eq (cfg : CfgN) (entries : List EntryN) : nSpawn p cfg entries = N.spawn p cfg entries := by
  funext ie
  unfold nSpawn N.spawn
  rw [nTotals_eq, nCapPer_eq]
  by_cases h : cfg.teams = 0
  · simp only [nTeam, N.teamOf, nT, N.nTeams, N.ffa, h, decide_true, if_true]
    rfl
  · simp only [nTeam, N.teamOf, nT, N.nTeams, N.ffa, h, decide_false, if_false, Bool.false_eq_true]
    rfl

theorem nTakeStolen_eq (left : ℚ) (order : List (ℕ × ℚ)) : nTakeStolen left order = N.takeStolen left order := by
  induction order generalizing left with
  | nil => rfl
  | cons iv order ih =>
      unfold nTakeStolen N.takeStolen
      simp only [ih]

theorem nTakeFrom_eq : nTakeFrom = N.takeFrom := by
  funext dfn want
  unfold nTakeFrom N.takeFrom
  simp only [nTakeStolen_eq]

theorem nApplyPart_eq (cfg : CfgN) : nApplyPart cfg = N.applyPart cfg.mode := by
  funext ⟨atk, dfn, got⟩ ⟨src, amt⟩
  unfold nApplyPart N.applyPart
  cases src <;> cases hmode : cfg.mode <;> rfl

theorem nApply_eq (cfg : CfgN) : nApply cfg = N.apply cfg.mode := by
  funext t atk dfn hits plan
  unfold nApply N.apply
  rw [nApplyPart_eq]

theorem nDamages_eq (k : N.Tick) (s : SimStateN) : nDamages p k s = N.damages p s.cfg k s.t s.steps := by
  unfold nDamages N.damages
  rw [nRing_eq]
  rfl

theorem nBounce_eq : nBounce = N.bounce := rfl

theorem nKey_eq : nKey = N.pairKey := rfl

theorem nBury_eq : nBury = N.bury := by
  unfold nBury N.bury
  rw [nRing_eq, nDust_eq]

/-- The part of a stepped battle that the engine's loop carries. -/
def SimStateN.world (s : SimStateN) : N.World := ⟨s.rng, s.F, s.hits, s.pairCd⟩

/-- The rest, which only the end of a tick changes. -/
def SimStateN.clock (s : SimStateN) : ℕ × ℤ × CfgN × ℤ × Bool := (s.t, s.steps, s.cfg, s.endTick, s.done)

theorem nBlows_eq (k : N.Tick) (s : SimStateN) (i j : ℕ) (a b : FighterN) :
    (nBlows p k s i j a b).world = N.exchange p s.cfg k s.t s.steps s.world i j a b ∧
      (nBlows p k s i j a b).clock = s.clock := by
  constructor
  · simp only [nBlows, N.exchange, nDamages_eq, nTakeFrom_eq, nApply_eq, nBury_eq, SimStateN.world]
    rfl
  · rfl

theorem nClash_eq (k : N.Tick) (s : SimStateN) (ij : ℕ × ℕ) :
    (nClash p k s ij).world = N.clash p s.cfg k s.t s.steps s.world ij ∧ (nClash p k s ij).clock = s.clock := by
  have hF : s.world.F = s.F := rfl
  have hpair : s.world.pairCd = s.pairCd := rfl
  unfold nClash N.clash
  rw [nBounce_eq, nKey_eq]
  simp only [lastHit_eq, hF, hpair]
  generalize N.fighterAt s.F ij.1 = a
  generalize N.fighterAt s.F ij.2 = b
  by_cases hdead : a.dead = true ∨ b.dead = true
  · simp only [if_pos hdead, and_self]
  simp only [if_neg hdead]
  by_cases htouch : a.r + b.r ≤ p.hypot (b.x - a.x) (b.y - a.y) ∨ p.hypot (b.x - a.x) (b.y - a.y) ≤ 0
  · simp only [if_pos htouch, and_self]
  simp only [if_neg htouch]
  generalize N.bounce a b (b.x - a.x) (b.y - a.y) (p.hypot (b.x - a.x) (b.y - a.y)) (a.r + b.r) = ab
  by_cases hteam : ab.1.team = ab.2.team
  · simp only [if_pos hteam]
    exact ⟨rfl, rfl⟩
  simp only [if_neg hteam]
  by_cases hcd : k.nowMs - (s.pairCd (N.pairKey ab.1 ab.2)).getD (-10 ^ 9) < hitCd / k.ramp
  · simp only [if_pos hcd]
    exact ⟨rfl, rfl⟩
  simp only [if_neg hcd]
  exact nBlows_eq k _ ij.1 ij.2 ab.1 ab.2

/-- All the clashes of a tick. -/
theorem nClashes_eq (k : N.Tick) (ps : List (ℕ × ℕ)) (s : SimStateN) :
    (ps.foldl (nClash p k) s).world = ps.foldl (N.clash p s.cfg k s.t s.steps) s.world ∧
      (ps.foldl (nClash p k) s).clock = s.clock := by
  induction ps generalizing s with
  | nil => exact ⟨rfl, rfl⟩
  | cons ij ps ih =>
      obtain ⟨hworld, hclock⟩ := nClash_eq k s ij
      obtain ⟨hworld', hclock'⟩ := ih (nClash p k s ij)
      have ht : (nClash p k s ij).t = s.t := congrArg (·.1) hclock
      have hsteps : (nClash p k s ij).steps = s.steps := congrArg (·.2.1) hclock
      have hcfg : (nClash p k s ij).cfg = s.cfg := congrArg (·.2.2.1) hclock
      rw [ht, hsteps, hcfg, hworld] at hworld'
      exact ⟨hworld', hclock'.trans hclock⟩

/-- Fewer than two teams are still in. -/
def SimStateN.over (s : SimStateN) : Prop := N.teamsAlive s.F (N.alive s.F) < 2

instance (s : SimStateN) : Decidable s.over := inferInstanceAs (Decidable (_ < _))

/-- One step of the page, in the words of the engine's loop. -/
theorem stepSimN_cases (s : SimStateN) (hdone : s.done = false) :
    (s.over ∧ stepSimN p s = { s with endTick := s.t, done := true }) ∨
      (¬s.over ∧ s.steps ≤ s.t ∧ stepSimN p s = { s with endTick := s.steps, done := true }) ∨
      (¬s.over ∧ ¬s.steps ≤ s.t ∧
        (stepSimN p s).world = N.tick p s.cfg s.steps s.t s.world ∧
        (stepSimN p s).clock = (s.t + 1, s.steps, s.cfg,
          if s.steps ≤ (s.t + 1 : ℕ) then s.steps else s.endTick, decide (s.steps ≤ (s.t + 1 : ℕ)))) := by
  have hA : (List.range s.F.length).filter (fun i => nAlive (N.fighterAt s.F i)) = N.alive s.F := by
    rw [nAlive_eq, N.alive]
  by_cases hover : s.over
  · refine .inl ⟨hover, ?_⟩
    unfold SimStateN.over N.teamsAlive at hover
    unfold stepSimN
    simp only [hdone, hA, if_pos hover, Bool.false_eq_true, if_false]
  · have hteams : ¬((N.alive s.F).map fun i => (N.fighterAt s.F i).team).dedup.length < 2 := hover
    by_cases hend : s.steps ≤ s.t
    · refine .inr (.inl ⟨hover, hend, ?_⟩)
      unfold stepSimN
      simp only [hdone, hA, if_neg hteams, if_pos hend, Bool.false_eq_true, if_false]
    · refine .inr (.inr ⟨hover, hend, ?_⟩)
      unfold stepSimN N.tick
      simp only [hdone, hA, if_neg hteams, if_neg hend, nMove_eq, Bool.false_eq_true, if_false]
      generalize hk : (⟨s.cfg.tickMs / 1000, s.t * s.cfg.tickMs, 1 + 16 / 10 * ((s.t : ℚ) / s.steps)⟩ : N.Tick) = k
      generalize hmoved : ((N.alive s.F).foldlM (N.move p k (N.alive s.F)) s.F).run s.rng = moved
      obtain ⟨F, rng⟩ := moved
      obtain ⟨hworld, hclock⟩ := nClashes_eq (p := p) k (pairs (N.alive s.F)) { s with F, rng, done := false }
      dsimp only at hworld ⊢
      generalize (pairs (N.alive s.F)).foldl (nClash p k) { s with F, rng, done := false } = s' at hworld hclock ⊢
      have ht : s'.t = s.t := congrArg (·.1) hclock
      have hsteps : s'.steps = s.steps := congrArg (·.2.1) hclock
      have hcfg : s'.cfg = s.cfg := congrArg (·.2.2.1) hclock
      have hendTick : s'.endTick = s.endTick := congrArg (·.2.2.2.1) hclock
      have hdone' : s'.done = false := congrArg (·.2.2.2.2) hclock
      have hrun : ((N.alive s.world.F).foldlM (N.move p k (N.alive s.world.F)) s.world.F).run s.world.rng =
          (F, rng) := hmoved
      rw [ht, hsteps]
      by_cases hlast : s.steps ≤ (s.t + 1 : ℕ)
      · rw [if_pos hlast]
        refine ⟨?_, ?_⟩
        · rw [hrun]
          exact hworld
        · simp only [SimStateN.clock, hcfg, hlast, decide_true, if_true]
      · rw [if_neg hlast]
        refine ⟨?_, ?_⟩
        · rw [hrun]
          exact hworld
        · simp only [SimStateN.clock, hcfg, hendTick, hdone', hlast, decide_false, if_false]

/-- Stepping to the end gives what the engine's loop gives, in one turn more than it has ticks to go. -/
theorem playN_ticks (n : ℕ) {s : SimStateN} (hdone : s.done = false) (hn : n = (s.steps - s.t).toNat) :
    ∃ s', Loop.whileNot SimStateN.done (stepSimN p) (n + 1) s = some s' ∧
      s'.world = (N.ticks p s.cfg s.steps n s.t s.world).1 ∧
      ((s.t : ℤ) ≤ s.steps → s'.endTick = (N.ticks p s.cfg s.steps n s.t s.world).2) := by
  induction n generalizing s with
  | zero =>
      have hend : s.steps ≤ s.t := by omega
      rw [Loop.whileNot_step hdone]
      obtain ⟨-, hstep⟩ | ⟨-, -, hstep⟩ | ⟨-, hnot, -⟩ := stepSimN_cases (p := p) s hdone
      · rw [hstep]
        exact ⟨_, Loop.whileNot_done rfl 0, rfl, fun hle => le_antisymm hle hend⟩
      · rw [hstep]
        exact ⟨_, Loop.whileNot_done rfl 0, rfl, fun _ => rfl⟩
      · exact absurd hend hnot
  | succ n ih =>
      have hmore : ¬s.steps ≤ s.t := by omega
      rw [Loop.whileNot_step hdone]
      obtain ⟨hover, hstep⟩ | ⟨-, hend, -⟩ | ⟨hover, -, hworld, hclock⟩ := stepSimN_cases (p := p) s hdone
      · have hticks : N.ticks p s.cfg s.steps (n + 1) s.t s.world = (s.world, (s.t : ℤ)) := if_pos hover
        rw [hticks, hstep]
        exact ⟨_, Loop.whileNot_done rfl (n + 1), rfl, fun _ => rfl⟩
      · exact absurd hend hmore
      · have hticks : N.ticks p s.cfg s.steps (n + 1) s.t s.world =
            N.ticks p s.cfg s.steps n (s.t + 1) (N.tick p s.cfg s.steps s.t s.world) := if_neg hover
        generalize stepSimN p s = s₁ at hworld hclock ⊢
        have ht : s₁.t = s.t + 1 := congrArg (·.1) hclock
        have hsteps : s₁.steps = s.steps := congrArg (·.2.1) hclock
        have hcfg : s₁.cfg = s.cfg := congrArg (·.2.2.1) hclock
        have hendTick : s₁.endTick = if s.steps ≤ (s.t + 1 : ℕ) then s.steps else s.endTick :=
          congrArg (·.2.2.2.1) hclock
        have hdone₁ : s₁.done = decide (s.steps ≤ (s.t + 1 : ℕ)) := congrArg (·.2.2.2.2) hclock
        rw [hticks]
        by_cases hlast : s.steps ≤ (s.t + 1 : ℕ)
        · -- the last tick: the page stands at the end, the engine has no turn left
          have hn0 : n = 0 := by omega
          subst hn0
          refine ⟨s₁, Loop.whileNot_done (by rw [hdone₁, decide_eq_true hlast]) _, hworld, fun _ => ?_⟩
          rw [hendTick, if_pos hlast]
          rfl
        · have h := ih (s := s₁) (by rw [hdone₁, decide_eq_false hlast]) (by rw [ht, hsteps]; omega)
          rw [ht, hsteps, hcfg, hworld] at h
          obtain ⟨s', hrun, hw, he⟩ := h
          exact ⟨s', hrun, hw, fun _ => he (by omega)⟩

theorem createSimN_eq (seed : String) (entries : List EntryN) (cfg : CfgN) :
    (createSimN p seed entries cfg).world = N.start p seed entries cfg ∧
      (createSimN p seed entries cfg).clock =
        (0, ⌊cfg.battleMs / cfg.tickMs⌋, cfg, ⌊cfg.battleMs / cfg.tickMs⌋, false) := by
  unfold createSimN N.start
  rw [nSpawn_eq]
  exact ⟨rfl, rfl⟩

end BullsUnicorns.Battle.Browser
