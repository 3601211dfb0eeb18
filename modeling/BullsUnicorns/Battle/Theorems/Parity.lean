import BullsUnicorns.Battle.Lemmas.Parity
import BullsUnicorns.Battle.Theorems.Conservation

/-!
# The battle of the browser is the battle of the engine

A viewer who replays a round with the page's own code sees what the engine settled, two teams or many.
-/

namespace BullsUnicorns.Battle.Browser

variable {p : Platform}

/-- Tick for tick the page is in the engine's state. -/
theorem simulateJS_eq (seed : String) {entries : List Entry} {cfg : RoundConfig}
    (hside : ∀ e ∈ entries, e.side = .bull ∨ e.side = .uwu) (htol : cfg.matchTol.getD 0 = 0) (fuel : ℕ) :
    simulateJS p fuel seed entries cfg = simulate p fuel (createSim p seed entries cfg) := by
  unfold simulateJS simulate
  rw [stepSimJS_eq, createSimJS_eq seed htol hside]

/-- What the page shows of a round is what the engine reports of it. -/
theorem simulateRoundJS_eq (seed : String) {entries : List Entry} {cfg : RoundConfig}
    (hside : ∀ e ∈ entries, e.side = .bull ∨ e.side = .uwu) (htol : cfg.matchTol.getD 0 = 0) (fuel : ℕ) :
    simulateRoundJS p fuel seed entries cfg =
      (simulateRound p fuel seed entries cfg).map fun r => ⟨r.winner, r.hits, r.settlement⟩ := by
  unfold simulateRoundJS simulateRound
  rw [simulateJS_eq seed hside htol, Option.map_map]
  rfl

/-- The page's battle of many teams ends, where the engine's ends. -/
theorem playN_ends (seed : String) (entries : List EntryN) (cfg : CfgN) :
    ∃ n, ∀ fuel, n ≤ fuel → ∃ s, playN p fuel seed entries cfg = some s ∧
      s.world = (N.fight p seed entries cfg).1 ∧
      (0 ≤ cfg.battleMs / cfg.tickMs → s.endTick = (N.fight p seed entries cfg).2) := by
  obtain ⟨hworld, hclock⟩ := createSimN_eq (p := p) seed entries cfg
  generalize hs : createSimN p seed entries cfg = s₀ at hworld hclock
  have ht : s₀.t = 0 := congrArg (·.1) hclock
  have hsteps : s₀.steps = ⌊cfg.battleMs / cfg.tickMs⌋ := congrArg (·.2.1) hclock
  have hcfg : s₀.cfg = cfg := congrArg (·.2.2.1) hclock
  have hdone : s₀.done = false := congrArg (·.2.2.2.2) hclock
  obtain ⟨s, hrun, hw, he⟩ := playN_ticks (p := p) s₀.steps.toNat hdone (by rw [ht, Nat.cast_zero, sub_zero])
  rw [hworld, ht, hcfg, hsteps] at hw he
  refine ⟨s₀.steps.toNat + 1, fun fuel hfuel => ⟨s, ?_, hw, fun hlen => he ?_⟩⟩
  · rw [playN, hs]
    exact Loop.whileNot_mono hrun hfuel
  · rw [Nat.cast_zero]
    exact Int.floor_nonneg.mpr hlen

/-- The page replays every battle as the engine fought it. -/
theorem browser_replays (p : Platform) (seed : String) :
    (∀ (entries : List Entry) (cfg : RoundConfig), (entries.map Entry.id).Nodup →
      (∀ e ∈ entries, e.side = .bull ∨ e.side = .uwu) → cfg.matchTol.getD 0 = 0 →
      ∃ n, ∀ fuel, n ≤ fuel → ∃ s js r,
        simulateJS p fuel seed entries cfg = some s ∧ simulateRoundJS p fuel seed entries cfg = some js ∧
        simulateRound p fuel seed entries cfg = some r ∧
        js.hits = r.hits ∧ s.F = r.fighters ∧ js.settlement = r.settlement ∧ js.winner = r.winner) ∧
    ∀ (entries : List EntryN) (cfg : CfgN),
      ∃ n, ∀ fuel, n ≤ fuel → ∃ s, playN p fuel seed entries cfg = some s ∧
        s.hits = (simulateN p seed entries cfg).hits ∧ s.F = (simulateN p seed entries cfg).fighters ∧
        (0 ≤ cfg.battleMs / cfg.tickMs → s.endTick = (simulateN p seed entries cfg).endTick) := by
  constructor
  · intro entries cfg hids hside htol
    obtain ⟨n, hn⟩ := simulate_ends p seed cfg hids
    refine ⟨n, fun fuel hfuel => ?_⟩
    obtain ⟨s, hs, -⟩ := hn fuel hfuel
    have hround : simulateRound p fuel seed entries cfg =
        some { finishSim s with seedHash := seedHash p seed } := by
      rw [simulateRound, hs, Option.map_some]
    have hpage : simulateRoundJS p fuel seed entries cfg = some (finishJS s) := by
      rw [simulateRoundJS_eq seed hside htol, hround, finishJS_eq, Option.map_some]
    exact ⟨s, _, _, (simulateJS_eq seed hside htol fuel).trans hs, hpage, hround, rfl, rfl, rfl, rfl⟩
  · intro entries cfg
    obtain ⟨n, hn⟩ := playN_ends (p := p) seed entries cfg
    refine ⟨n, fun fuel hfuel => ?_⟩
    obtain ⟨s, hs, hworld, hend⟩ := hn fuel hfuel
    exact ⟨s, hs, congrArg N.World.hits hworld, congrArg N.World.F hworld, hend⟩

theorem browser_replays_two :
    ∃ n, ∀ fuel, n ≤ fuel → ∃ s js r,
      simulateJS stillPlatform fuel "seed" twoEntries shortConfig = some s ∧
      simulateRoundJS stillPlatform fuel "seed" twoEntries shortConfig = some js ∧
      simulateRound stillPlatform fuel "seed" twoEntries shortConfig = some r ∧
      js.hits = r.hits ∧ s.F = r.fighters ∧ js.settlement = r.settlement ∧ js.winner = r.winner :=
  (browser_replays stillPlatform "seed").1 twoEntries shortConfig (by decide) (by decide) rfl

end BullsUnicorns.Battle.Browser
