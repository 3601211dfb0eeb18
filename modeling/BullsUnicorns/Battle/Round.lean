import BullsUnicorns.Battle.GameN
import BullsUnicorns.Battle.Lemmas.Steps

/-!
# The two round runners

`round.ts` and `roundN.ts`: a lobby with a committed value, a battle on its entries, a settlement, and the
next lobby. The two classes are one machine; what they put into it is below.
-/

namespace BullsUnicorns.Battle

/-- What the process is started with. -/
structure RoundEnv where
  LOBBY_MS : ℚ
  BATTLE_MS : ℚ
  /-- How a number of at least `10 ^ 21` is written. -/
  toText : ℚ → String

/-! ## The seed of a two-team round -/

/-- Entries as a verifier writes them: sorted, in fixed order, to a fixed precision. -/
def canon (env : RoundEnv) (entries : List Entry) : String :=
  Text.join ';' (Text.sort (entries.map fun e =>
    e.id ++ "|" ++ e.side.key ++ "|" ++ Text.toFixed8 env.toText e.stake))

def seedText (env : RoundEnv) (secret : String) (entries : List Entry) : String := secret ++ "|" ++ canon env entries

def deriveSeed (p : Platform) (env : RoundEnv) (secret : String) (entries : List Entry) : String :=
  p.sha256 (seedText env secret entries)

/-! ## Runners -/

inductive Phase where
  | lobby
  | battle
  | settle
deriving DecidableEq, Inhabited

structure RoundState (E R : Type) where
  round : ℕ
  phase : Phase
  seedHashPublished : String
  seed : Option String
  secretRevealed : Option String
  entries : List E
  result : Option R
  multiplier : ℚ
  openedAt : ℚ
  closesAt : ℚ
  battleMs : Option ℚ

/-- A runner, with the value that it has committed to and keeps to itself. -/
structure Runner (E R : Type) where
  state : RoundState E R
  secret : String

/-- What the two classes put into the machine. An entry is an id, a side or team, and a stake. -/
structure RunnerClass (E R S : Type) where
  parts : E ≃ String × S × ℚ
  /-- The seed of the battle, from the committed value and the entries. -/
  seedOf : String → List E → String
  secretRevealed : String → Option String
  fight : String → List E → ℚ → R
  endTick : R → ℤ
  tickMs : ℚ

/-- What a new lobby draws, and the clock when it opens. -/
structure Draw where
  secret : String
  u : ℚ
  now : ℚ

def rollMultiplier (u : ℚ) : ℚ :=
  if u < 7 / 10 then 1 else if u < 85 / 100 then 2 else if u < 93 / 100 then 4 else if u < 97 / 100 then 6
  else if u < 99 / 100 then 8 else 10

section
variable {E R S : Type} (p : Platform) (env : RoundEnv) (c : RunnerClass E R S)

def freshLobby (round : ℕ) (d : Draw) : Runner E R where
  secret := d.secret
  state := {
    round, phase := .lobby, seedHashPublished := p.sha256 d.secret, seed := none, secretRevealed := none
    entries := [], result := none, multiplier := rollMultiplier d.u, openedAt := d.now
    closesAt := d.now + env.LOBBY_MS, battleMs := none }

/-- A stake on its fighter: on top of the one that is there, else a new one. -/
def place [DecidableEq S] (id : String) (slot : S) (stake : ℚ) : List E → List E
  | [] => [c.parts.symm (id, slot, stake)]
  | e :: es =>
    if (c.parts e).1 = id ∧ (c.parts e).2.1 = slot then c.parts.symm (id, slot, (c.parts e).2.2 + stake) :: es
    else e :: place id slot stake es

def enter [DecidableEq S] (r : Runner E R) (id : String) (slot : S) (stake : ℚ) : Bool × Runner E R :=
  if r.state.phase ≠ .lobby then (false, r)
  else (true, { r with state := { r.state with entries := place c id slot stake r.state.entries } })

/-- What a call of `tick` comes to: it returns, or it waits for `onSettle` with a result. -/
inductive TickCall (R : Type) where
  | returns (settled : Bool)
  | awaits (result : R)

def tick (r : Runner E R) (now : ℚ) (d : Draw) : Runner E R × TickCall R :=
  let s := r.state
  if s.phase = .lobby ∧ s.closesAt ≤ now then
    let seed := c.seedOf r.secret s.entries
    let result := c.fight seed s.entries s.multiplier
    -- the battle ends when it is decided, plus a short tail
    let battleMs := min env.BATTLE_MS ((c.endTick result + 2) * c.tickMs + 900)
    ({ r with state := { s with
        phase := .battle, seed := some seed, secretRevealed := c.secretRevealed r.secret, result := some result
        battleMs := some battleMs, closesAt := now + battleMs } }, .returns false)
  else if s.phase = .battle ∧ s.closesAt ≤ now then
    match s.result with
    | some result => ({ r with state := { s with phase := .settle } }, .awaits result)
    | none => (freshLobby p env (s.round + 1) d, .returns true)
  else (r, .returns false)

end

section
variable {E R S : Type} (p : Platform) (env : RoundEnv) (c : RunnerClass E R S)

/-- The tick at which the lobby closes fixes the seed and fights the battle. -/
theorem tick_leaves {r : Runner E R} {now : ℚ} (d : Draw) (h : r.state.phase = .lobby ∧ r.state.closesAt ≤ now) :
    ∃ ms, tick p env c r now d = ({ r with state := { r.state with
      phase := .battle, seed := some (c.seedOf r.secret r.state.entries)
      secretRevealed := c.secretRevealed r.secret
      result := some (c.fight (c.seedOf r.secret r.state.entries) r.state.entries r.state.multiplier)
      battleMs := some ms, closesAt := now + ms } }, .returns false) := ⟨_, if_pos h⟩

theorem tick_settles {r : Runner E R} {now : ℚ} (d : Draw) (h : r.state.phase = .battle ∧ r.state.closesAt ≤ now)
    {result : R} (hresult : r.state.result = some result) :
    tick p env c r now d = ({ r with state := { r.state with phase := .settle } }, .awaits result) := by
  have hlobby : ¬(r.state.phase = .lobby ∧ r.state.closesAt ≤ now) := by simp [h.1]
  simp only [tick, if_neg hlobby, if_pos h, hresult]

theorem tick_idle {r : Runner E R} {now : ℚ} (d : Draw) (hlobby : ¬(r.state.phase = .lobby ∧ r.state.closesAt ≤ now))
    (hbattle : ¬(r.state.phase = .battle ∧ r.state.closesAt ≤ now)) : tick p env c r now d = (r, .returns false) := by
  simp only [tick, if_neg hlobby, if_neg hbattle]

end

/-! ## The two classes -/

def newRoundConfig (env : RoundEnv) (mode : Mode) (multiplier : ℚ) : RoundConfig :=
  { mode, multiplier, base := 85 / 1000, hitCapFrac := 25 / 100, battleMs := env.BATTLE_MS, tickMs := 50
    matchTol := none, tickMs_ne := by norm_num }

/-- `simulateRound`, with the turns that its loop can take at most. -/
def fightRound (p : Platform) (seed : String) (entries : List Entry) (cfg : RoundConfig) : RoundResult :=
  let s := createSim p seed entries cfg
  { finishSim ((simulate p ((s.steps - s.t).toNat + 1) s).get (Option.isSome_iff_exists.mpr (simulate_some s))) with
    seedHash := seedHash p seed }

def RoundRunner (p : Platform) (env : RoundEnv) (mode : Mode) : RunnerClass Entry RoundResult Side where
  parts := ⟨fun e => (e.id, e.side, e.stake), fun e => ⟨e.1, e.2.1, e.2.2⟩, fun _ => rfl, fun _ => rfl⟩
  seedOf := deriveSeed p env
  secretRevealed := some
  fight seed entries multiplier := fightRound p seed entries (newRoundConfig env mode multiplier)
  endTick := RoundResult.endTick
  tickMs := 50

def cfgN (env : RoundEnv) (mode : Mode) (teams : ℕ) (multiplier : ℚ) : CfgN :=
  { mode, teams, multiplier, base := 85 / 1000, hitCapFrac := 25 / 100, battleMs := env.BATTLE_MS, tickMs := 50
    matchRule := if teams = 0 then .none else .min, tickMs_ne := by norm_num }

/-- The value that this class commits to is the seed itself. -/
def RoundRunnerN (p : Platform) (env : RoundEnv) (mode : Mode) (teams : ℕ) : RunnerClass EntryN ResultN ℚ where
  parts := ⟨fun e => (e.id, e.team, e.stake), fun e => ⟨e.1, e.2.1, e.2.2⟩, fun _ => rfl, fun _ => rfl⟩
  seedOf secret _ := secret
  secretRevealed _ := none
  fight seed entries multiplier := simulateN p seed entries (cfgN env mode teams multiplier)
  endTick := ResultN.endTick
  tickMs := 50

/-- The round that is fought is the one that `simulateRound` gives, however many turns it is allowed. -/
theorem simulateRound_fightRound (p : Platform) {fuel : ℕ} (seed : String) (entries : List Entry) (cfg : RoundConfig)
    (hfuel : ((createSim p seed entries cfg).steps - (createSim p seed entries cfg).t).toNat + 1 ≤ fuel) :
    simulateRound p fuel seed entries cfg = some (fightRound p seed entries cfg) := by
  obtain ⟨s, hs⟩ := simulate_some (p := p) (createSim p seed entries cfg)
  have hlong := Loop.whileNot_mono (show Loop.whileNot _ _ _ _ = some s from hs) hfuel
  rw [simulateRound, simulate, hlong, Option.map_some, fightRound]
  simp only [hs, Option.get_some]

end BullsUnicorns.Battle
