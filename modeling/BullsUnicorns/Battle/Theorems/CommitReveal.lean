import BullsUnicorns.Battle.Lemmas.Rounds
import BullsUnicorns.Battle.Theorems.Conservation

/-!
# Commit and reveal in the round runners

The two-team runner commits to a secret and derives the seed when the entries are locked. The many-team
runner commits to the seed itself, so it knows the outcome while entries are still open.
-/

namespace BullsUnicorns.Battle

section
variable {E R S : Type} [DecidableEq S] {env : RoundEnv}

/-! ## Commit and reveal -/

/-- A round whose outcome nobody can know while anybody can act on it. -/
structure FairRound (p : Platform) (c : RunnerClass E R S) (text : String → List E → String) (startRound : ℕ)
    (w : Served E R S) : Prop where
  /-- The published hash is that of the value drawn when the lobby opened. -/
  published : w.runner.state.seedHashPublished = p.sha256 w.drawn
  /-- Nothing is revealed and no seed is fixed while stakes are taken. -/
  hidden : w.runner.state.phase = .lobby → w.runner.state.seed = none ∧ w.runner.state.secretRevealed = none
  /-- Afterwards the drawn value is revealed. -/
  revealed : w.runner.state.phase ≠ .lobby →
    w.runner.state.secretRevealed = some w.drawn ∨ w.runner.state.seed = some w.drawn
  /-- The accepted stakes, merged, and the entries that left the lobby, are the entries of the battle. -/
  merged : Merged c w.accepted w.runner.state.entries
  entries : w.runner.state.phase ≠ .lobby → w.runner.state.entries = w.left
  /-- The seed is the hash of a text of the drawn value and these entries. -/
  fought : w.runner.state.phase ≠ .lobby →
    w.runner.state.seed = some (p.sha256 (text w.drawn w.left)) ∧
      w.runner.state.result =
        some (c.fight (p.sha256 (text w.drawn w.left)) w.left w.runner.state.multiplier)
  locked : w.runner.state.phase ≠ .lobby → ∀ id slot stake, enter c w.runner id slot stake = (false, w.runner)
  /-- Every round before this one was settled once, and this one once when it is at its settlement. -/
  settled : w.settled = List.range' startRound
    (w.runner.state.round - startRound + if w.runner.state.phase = .settle then 1 else 0)

/-- Commit and reveal for a class of runners: the text of a seed tells the server's entry lists apart exactly
by their entries, and every run of every runner is fair. -/
def CommitReveal (env : RoundEnv) (cls : Platform → RunnerClass E R S) (slotText : S → Option String) : Prop :=
  ∃ text : String → List E → String,
    (∀ p secret es es', (∀ e ∈ es, ServerMade (cls p) slotText e) → (∀ e ∈ es', ServerMade (cls p) slotText e) →
      (text secret es = text secret es' ↔ SameEntries (cls p) slotText es es')) ∧
    ∀ p startRound d events,
      FairRound p (cls p) text startRound ((rounds p env (cls p)).run (constructed p env startRound d) events)

end

/-- The class of a runner. -/
inductive RunnerKind where
  | RoundRunner
  | RoundRunnerN (teams : ℕ)
deriving DecidableEq

/-- Commit and reveal for the runners of a kind. -/
def RunnerKind.CommitReveal (env : RoundEnv) (mode : Mode) : RunnerKind → Prop
  | .RoundRunner => Battle.CommitReveal env (fun p => Battle.RoundRunner p env mode) fun side => some side.key
  | .RoundRunnerN teams => Battle.CommitReveal env (fun p => Battle.RoundRunnerN p env mode teams) teamText

theorem roundRunner_fair (env : RoundEnv) (mode : Mode) (p : Platform) (startRound : ℕ) (d : Draw)
    (events : List (RoundEvent Side)) :
    FairRound p (RoundRunner p env mode) (seedText env) startRound
      ((rounds p env (RoundRunner p env mode)).run (constructed p env startRound d) events) := by
  have h := run_kept p env (RoundRunner p env mode) startRound d events
  exact {
    published := h.published
    hidden := h.hidden
    revealed := fun hne => .inl (h.fought hne).2.1
    merged := h.merged
    entries := fun hne => (h.fought hne).1
    fought := fun hne => (h.fought hne).2.2
    locked := fun hne => enter_locked hne
    settled := h.settled }

theorem roundRunner_commitReveal (env : RoundEnv) (mode : Mode) :
    RunnerKind.CommitReveal env mode .RoundRunner :=
  ⟨seedText env, fun _ _ _ _ hes hes' => seedText_inj.trans (canon_eq_iff hes hes'),
    fun p startRound d events => roundRunner_fair env mode p startRound d events⟩

/-! ## The many-team runner -/

section
variable {E R S : Type} [DecidableEq S] (p : Platform) (env : RoundEnv) (c : RunnerClass E R S)

/-- Some stakes, and a tick when the lobby closes. -/
def untilBattle (d : Draw) (stakes : List (String × S × ℚ)) : List (RoundEvent S) :=
  stakes.map (fun a => .enter a.1 a.2.1 a.2.2) ++ [.tick (d.now + env.LOBBY_MS) d]

def placed (stakes : List (String × S × ℚ)) (es : List E) : List E :=
  stakes.foldl (fun es a => place c a.1 a.2.1 a.2.2 es) es

/-- In the lobby every stake is placed, and the clock stands still. -/
theorem enter_all (stakes : List (String × S × ℚ)) (w : Served E R S) (hlobby : w.runner.state.phase = .lobby) :
    ∃ w', (rounds p env c).run w (stakes.map fun a => .enter a.1 a.2.1 a.2.2) = w' ∧
      w'.runner.state.phase = .lobby ∧ w'.runner.state.closesAt = w.runner.state.closesAt ∧ w'.drawn = w.drawn ∧
      w'.runner.state.entries = placed c stakes w.runner.state.entries := by
  induction stakes generalizing w with
  | nil => exact ⟨w, rfl, hlobby, rfl, rfl, rfl⟩
  | cons a stakes ih =>
      let runner : Runner E R := { w.runner with
        state := { w.runner.state with entries := place c a.1 a.2.1 a.2.2 w.runner.state.entries } }
      have henter : enter c w.runner a.1 a.2.1 a.2.2 = (true, runner) := if_neg (not_not.mpr hlobby)
      have hserve : (rounds p env c).step w (.enter a.1 a.2.1 a.2.2) =
          .ok ({ w with runner, accepted := w.accepted ++ [a] }, some true) := by
        simp only [rounds, serve, henter, if_true]
      rw [List.map_cons, Machine.run_cons, Machine.attempt_ok hserve]
      exact ih _ hlobby

theorem untilBattle_run (startRound : ℕ) (d : Draw) (stakes : List (String × S × ℚ)) :
    ∃ w : Served E R S, (rounds p env c).run (constructed p env startRound d) (untilBattle env d stakes) = w ∧
      w.runner.state.phase = .battle ∧ w.drawn = d.secret ∧ w.left = placed c stakes [] := by
  obtain ⟨w, hw, hlobby, hcloses, hdrawn, hentries⟩ :=
    enter_all p env c stakes (constructed p env startRound d) rfl
  have hopen : w.runner.state.phase = .lobby ∧ w.runner.state.closesAt ≤ d.now + env.LOBBY_MS :=
    ⟨hlobby, hcloses.le⟩
  obtain ⟨ms, htick⟩ := tick_leaves p env c d hopen
  rw [untilBattle, Machine.run_append, hw, Machine.run_cons, Machine.run_nil]
  refine ⟨_, rfl, ?_⟩
  simp only [Machine.attempt, rounds, serve, htick, hlobby, and_self, if_true, hdrawn, hentries, true_and]
  exact ⟨rfl, rfl⟩

end

/-- This kind draws the seed when the lobby opens: entries do not change it. -/
theorem roundRunnerN_seed (env : RoundEnv) (mode : Mode) (teams : ℕ) (p : Platform) (startRound : ℕ) (d : Draw)
    (stakes : List (String × ℚ × ℚ)) :
    ((rounds p env (RoundRunnerN p env mode teams)).run (constructed p env startRound d)
      (untilBattle env d stakes)).runner.state.seed = some d.secret := by
  obtain ⟨w, hw, hphase, hdrawn, -⟩ := untilBattle_run p env (RoundRunnerN p env mode teams) startRound d stakes
  have hkept := run_kept p env (RoundRunnerN p env mode teams) startRound d (untilBattle env d stakes)
  rw [hw] at hkept ⊢
  rw [(hkept.fought (by rw [hphase]; decide)).2.2.1, ← hdrawn]
  rfl

theorem roundRunnerN_not_commitReveal (env : RoundEnv) (mode : Mode) (teams : ℕ) :
    ¬RunnerKind.CommitReveal env mode (.RoundRunnerN teams) := by
  rintro ⟨text, hcanon, hfair⟩
  -- with a hash that hides nothing, the text of any entries would be the drawn value
  have htext : ∀ stakes : List (String × ℚ × ℚ),
      text "s" (placed (RoundRunnerN stillPlatform env mode teams) stakes []) = "s" := by
    intro stakes
    obtain ⟨w, hw, hphase, hdrawn, hleft⟩ :=
      untilBattle_run stillPlatform env (RoundRunnerN stillPlatform env mode teams) 1 ⟨"s", 0, 0⟩ stakes
    have hseed := roundRunnerN_seed env mode teams stillPlatform 1 ⟨"s", 0, 0⟩ stakes
    have hround := hfair stillPlatform 1 ⟨"s", 0, 0⟩ (untilBattle env ⟨"s", 0, 0⟩ stakes)
    rw [hw] at hseed hround
    have hfought := (hround.fought (by rw [hphase]; decide)).1
    rw [hseed, hdrawn, hleft] at hfought
    exact (Option.some.inj hfought).symm
  have hsame := (hcanon stillPlatform "s" [] [⟨"w|0", 0, 1⟩] (by simp) ?_).mp
    ((htext []).trans (htext [("w|0", 0, 1)]).symm)
  · exact List.not_perm_nil_cons _ _ hsame
  · intro e he
    obtain rfl := List.mem_singleton.mp he
    exact ⟨⟨"w", "0", rfl, rfl, by decide, by decide⟩, zero_le_one' ℚ, show (1 : ℚ) < 10 ^ 21 by norm_num⟩

/-- Of the two kinds one is fair. -/
theorem commit_reveal_iff (env : RoundEnv) (mode : Mode) (kind : RunnerKind) :
    kind.CommitReveal env mode ↔ kind = .RoundRunner := by
  cases kind with
  | RoundRunner => exact ⟨fun _ => rfl, fun _ => roundRunner_commitReveal env mode⟩
  | RoundRunnerN teams =>
      refine ⟨fun h => absurd h (roundRunnerN_not_commitReveal env mode teams), fun h => ?_⟩
      cases h

/-- Two lobbies of a 3-way arena with the same draw and other entries come to the same seed, the one that was
drawn when they opened. -/
theorem seed_before_entries :
    ¬RunnerKind.CommitReveal ⟨9000, 40000, fun _ => ""⟩ .normal (.RoundRunnerN 3) ∧
      ∀ stakes ∈ [[("a|0", (0 : ℚ), (5 : ℚ))], [("b|1", 1, 7), ("c|2", 2, 9)]],
        ((rounds stillPlatform ⟨9000, 40000, fun _ => ""⟩
          (RoundRunnerN stillPlatform ⟨9000, 40000, fun _ => ""⟩ .normal 3)).run
          (constructed stillPlatform ⟨9000, 40000, fun _ => ""⟩ 1 ⟨"5eed", 0, 0⟩)
          (untilBattle ⟨9000, 40000, fun _ => ""⟩ ⟨"5eed", 0, 0⟩ stakes)).runner.state.seed = some "5eed" :=
  ⟨roundRunnerN_not_commitReveal _ _ _, fun stakes _ => roundRunnerN_seed _ _ _ _ _ _ stakes⟩

end BullsUnicorns.Battle
