import BullsUnicorns.Battle.Theorems.CommitReveal
import BullsUnicorns.Battle.Theorems.Parity
import BullsUnicorns.Battle.Verify
import BullsUnicorns.Lib.Decimal

/-!
# The page verifies no round

The record that `startEngineRound` keeps lacks two fields that `verifyLastRound` reads: the hits, so that every
call ends by an error, and the secret. With both of them the checks pass exactly for what the engine sent, unless
the message came from a resync, which sends no secret.
-/

namespace BullsUnicorns.Battle.Browser

variable {p : Platform} {d : Sender} {numbers : Printer ℚ}

/-! ## What the page reports -/

/-- A message with another seed, secret, winner or settlement. -/
def altered (m : RoundStart) (seed : String) (secret : Option String) (winner : Side)
    (settlement : OrderedMap String Payout) : RoundStart :=
  { m with seed := seed, secret := secret, winner := winner, settlement := settlement }

/-- A message about a battle that a runner is in, from one of its three senders. -/
def Sent (p : Platform) (d : Sender) (m : RoundStart) : Prop :=
  ∃ startRound draw events now,
    let s := ((rounds p d.env (RoundRunner p d.env d.mode)).run
      (constructed p d.env startRound draw : Served Entry RoundResult Side) events).runner.state
    s.phase = .battle ∧ (liveStart d s now = some m ∨ joinerStart d s = some m ∨ resyncStart d s = some m)

/-- An honest message is reported as verified, and one with another seed, secret, winner or payout as a mismatch. -/
structure Verifies (p : Platform) (d : Sender) (numbers : Printer ℚ) (w : World) (m : RoundStart) : Prop where
  verified : ∃ n, ∀ fuel, n ≤ fuel → ∃ r,
    verifyLastRound p d.env numbers fuel (startEngineRound w m) = some (.report r) ∧ r.all = true
  mismatch : ∀ seed secret winner settlement, altered m seed secret winner settlement ≠ m →
    ∃ n, ∀ fuel, n ≤ fuel → ∃ r,
      verifyLastRound p d.env numbers fuel (startEngineRound w (altered m seed secret winner settlement)) =
        some (.report r) ∧ r.all = false

/-- Whatever the message says, the verifier ends by an error and reports nothing. -/
theorem page_verifies_no_round (p : Platform) (d : Sender) (numbers : Printer ℚ) (w : World) (m : RoundStart) :
    (∀ fuel, verifyLastRound p d.env numbers fuel (startEngineRound w m) = some .throws) ∧
      ¬ Verifies p d numbers w m := by
  have hthrows : ∀ fuel, verifyLastRound p d.env numbers fuel (startEngineRound w m) = some .throws := fun _ => rfl
  refine ⟨hthrows, fun h => ?_⟩
  obtain ⟨n, hn⟩ := h.verified
  obtain ⟨r, hr, -⟩ := hn n (le_refl n)
  rw [hthrows n] at hr
  cases hr

/-! ## Honest rounds -/

/-- A round that has been fought, by what it was committed to. -/
structure Fought (p : Platform) (d : Sender) (drawn : String) (s : RoundState Entry RoundResult) : Prop where
  published : s.seedHashPublished = p.sha256 drawn
  revealed : s.secretRevealed = some drawn
  seed : s.seed = some (deriveSeed p d.env drawn s.entries)
  result : s.result =
    some (fightRound p (deriveSeed p d.env drawn s.entries) s.entries (newRoundConfig d.env d.mode s.multiplier))

/-- The states of a runner from the start of a battle on. -/
theorem run_fought (startRound : ℕ) (draw : Draw) (events : List (RoundEvent Side)) {w : Served Entry RoundResult Side}
    (hw : (rounds p d.env (RoundRunner p d.env d.mode)).run (constructed p d.env startRound draw) events = w)
    (hphase : w.runner.state.phase ≠ .lobby) : Fought p d w.drawn w.runner.state := by
  have h := run_kept p d.env (RoundRunner p d.env d.mode) startRound draw events
  rw [hw] at h
  obtain ⟨hleft, hsecret, hseed, hresult⟩ := h.fought hphase
  rw [← hleft] at hseed hresult
  exact ⟨h.published, hsecret, hseed, hresult⟩

/-- What every sender tells of a round. -/
structure Tells (p : Platform) (d : Sender) (drawn : String) (s : RoundState Entry RoundResult) (m : RoundStart) :
    Prop where
  seedHash : m.seedHash = p.sha256 drawn
  seed : m.seed = deriveSeed p d.env drawn s.entries
  entries : m.entries = s.entries.map (startEntry d)
  cfg : m.cfg = newRoundConfig d.env d.mode s.multiplier
  hitCount : m.hitCount = (fightRound p m.seed s.entries m.cfg).hits.length
  winner : m.winner = (fightRound p m.seed s.entries m.cfg).winner
  settlement : m.settlement = (fightRound p m.seed s.entries m.cfg).settlement

theorem Fought.tells {drawn : String} {s : RoundState Entry RoundResult} (hs : Fought p d drawn s)
    {secret : Option String} {startedAt : ℚ} {resumed : Bool} {m : RoundStart}
    (hm : roundStart d s secret startedAt resumed = some m) : Tells p d drawn s m ∧ m.secret = secret := by
  rw [roundStart, hs.result, hs.seed] at hm
  cases hm
  exact ⟨⟨hs.published, rfl, rfl, rfl, rfl, rfl, rfl⟩, rfl⟩

/-! ## The checks -/

/-- The record with the two fields that it lacks. -/
def completed (m : RoundStart) (hits : List HitLog) : LastRound :=
  { lastRoundOf m with secret := m.secret, hits := some hits }

theorem entryOf_startEntry (entries : List Entry) : (entries.map (startEntry d)).map entryOf = entries := by
  rw [List.map_map]
  exact List.map_id _

theorem deriveSeedJS_startEntry (secret : String) (entries : List Entry) :
    deriveSeedJS p d.env secret (entries.map (startEntry d)) = deriveSeed p d.env secret entries := by
  rw [deriveSeedJS, deriveSeed, seedText, canon, List.map_map]
  rfl

theorem settlementDoc_injective : Function.Injective settlementDoc := by
  intro a b h
  have hpair : Function.Injective fun e : String × Payout => (e.1, payoutDoc e.2) := by
    rintro ⟨id, bull, uwu⟩ ⟨id', bull', uwu'⟩ h
    simpa [payoutDoc] using h
  have hentries := List.map_injective_iff.mpr hpair (Doc.obj.inj h)
  obtain ⟨entries, keyed⟩ := a
  obtain ⟨entries', keyed'⟩ := b
  cases hentries
  rfl

/-- The page fights the battle of the engine. -/
theorem replays {entries : List Entry} (hside : ∀ e ∈ entries, e.side = .bull ∨ e.side = .uwu) (seed : String)
    (env : RoundEnv) (mode : Mode) (multiplier : ℚ) : ∃ n, ∀ fuel, n ≤ fuel →
      simulateRoundJS p fuel seed entries (newRoundConfig env mode multiplier) =
        some ⟨(fightRound p seed entries (newRoundConfig env mode multiplier)).winner,
          (fightRound p seed entries (newRoundConfig env mode multiplier)).hits,
          (fightRound p seed entries (newRoundConfig env mode multiplier)).settlement⟩ := by
  let sim := createSim p seed entries (newRoundConfig env mode multiplier)
  refine ⟨(sim.steps - sim.t).toNat + 1, fun fuel hfuel => ?_⟩
  rw [simulateRoundJS_eq seed hside rfl fuel, simulateRound_fightRound p seed entries _ hfuel, Option.map_some]

/-- What a record has to say to pass the checks. -/
theorem check_all (numbers : Printer ℚ) (env : RoundEnv) {fuel : ℕ} {R : LastRound} {mine : ResultJS}
    (hmine : simulateRoundJS p fuel R.seed (R.entries.map entryOf) R.cfg = some mine) :
    ∃ r, check p env numbers fuel R = some r ∧ (r.all = true ↔
      R.secret.getD "" ≠ "" ∧ p.sha256 (R.secret.getD "") = R.seedHash ∧
      deriveSeedJS p env (R.secret.getD "") R.entries = R.seed ∧ mine.winner = R.winner ∧
      (R.hitCount = 0 ∨ mine.hits.length = R.hitCount) ∧ mine.settlement = R.settlement) := by
  have hset := ((Doc.stringify_injective numbers).comp settlementDoc_injective).eq_iff
    (a := mine.settlement) (b := R.settlement)
  rw [check, hmine]
  refine ⟨_, rfl, ?_⟩
  by_cases hsecret : R.secret.getD "" = ""
  · simp [Report.all, hsecret]
  · simp only [Report.all, hsecret, if_false, ne_eq, not_false_eq_true, decide_true, Bool.true_and, Bool.and_eq_true,
      Bool.or_eq_true, beq_iff_eq, decide_eq_true_eq, true_and, ← hset, Function.comp_apply]
    tauto

/-- A completed record passes the checks exactly when it is what the engine drew and fought. -/
theorem completed_reports (numbers : Printer ℚ) (hinj : Function.Injective p.sha256) {drawn : String}
    {s : RoundState Entry RoundResult} {m : RoundStart} (hm : Tells p d drawn s m)
    (hside : ∀ e ∈ s.entries, e.side = .bull ∨ e.side = .uwu)
    (hits : List HitLog) (seed : String) (secret : Option String) (winner : Side)
    (settlement : OrderedMap String Payout) :
    ∃ n, ∀ fuel, n ≤ fuel → ∃ r,
      check p d.env numbers fuel (completed (altered m seed secret winner settlement) hits) = some r ∧
      (r.all = true ↔ drawn ≠ "" ∧ secret = some drawn ∧ seed = m.seed ∧ winner = m.winner ∧
        settlement = m.settlement) := by
  obtain ⟨n, hn⟩ := replays (p := p) hside seed d.env d.mode s.multiplier
  refine ⟨n, fun fuel hfuel => ?_⟩
  have hmine := hn fuel hfuel
  have hentries : m.entries.map entryOf = s.entries := by rw [hm.entries, entryOf_startEntry]
  have hderive : ∀ secret, deriveSeedJS p d.env secret m.entries = deriveSeed p d.env secret s.entries := by
    intro secret
    rw [hm.entries, deriveSeedJS_startEntry]
  rw [← hm.cfg, ← hentries] at hmine
  obtain ⟨r, hr, hall⟩ :=
    check_all numbers d.env (R := completed (altered m seed secret winner settlement) hits) hmine
  refine ⟨r, hr, hall.trans ?_⟩
  simp only [completed, altered, lastRoundOf, hentries, hderive]
  constructor
  · rintro ⟨hne, hhash, hseed, hwinner, -, hsettlement⟩
    have hdrawn := hinj (hhash.trans hm.seedHash)
    rw [hdrawn] at hne hseed
    have hseed : seed = m.seed := hseed.symm.trans hm.seed.symm
    rw [hseed] at hwinner hsettlement
    refine ⟨hne, ?_, hseed, hwinner.symm.trans hm.winner.symm, hsettlement.symm.trans hm.settlement.symm⟩
    cases secret with
    | none => exact absurd hdrawn.symm hne
    | some secret => rw [← hdrawn, Option.getD_some]
  · rintro ⟨hne, rfl, rfl, rfl, rfl⟩
    exact ⟨hne, hm.seedHash.symm, hm.seed.symm, hm.winner.symm, Or.inr hm.hitCount.symm, hm.settlement.symm⟩

/-- With a completed record the live message and a joiner's are verified, and that of a resync is not. -/
theorem completed_by_sender (numbers : Printer ℚ) (hinj : Function.Injective p.sha256) {drawn : String}
    {s : RoundState Entry RoundResult} (hs : Fought p d drawn s) (hdrawn : drawn ≠ "")
    (hside : ∀ e ∈ s.entries, e.side = .bull ∨ e.side = .uwu)
    (hits : List HitLog) {now : ℚ} {m : RoundStart} :
    (liveStart d s now = some m ∨ joinerStart d s = some m → ∃ n, ∀ fuel, n ≤ fuel → ∃ r,
      check p d.env numbers fuel (completed m hits) = some r ∧ r.all = true) ∧
    (resyncStart d s = some m → ∃ n, ∀ fuel, n ≤ fuel → ∃ r,
      check p d.env numbers fuel (completed m hits) = some r ∧ r.all = false) := by
  constructor
  · intro hm
    have htells : Tells p d drawn s m ∧ m.secret = some drawn := by
      rw [← hs.revealed]
      rcases hm with hm | hm
      · exact hs.tells hm
      · exact hs.tells hm
    obtain ⟨n, hn⟩ := completed_reports numbers hinj htells.1 hside hits m.seed m.secret m.winner m.settlement
    refine ⟨n, fun fuel hfuel => ?_⟩
    obtain ⟨r, hr, hall⟩ := hn fuel hfuel
    exact ⟨r, hr, hall.mpr ⟨hdrawn, htells.2, rfl, rfl, rfl⟩⟩
  · intro hm
    obtain ⟨htells, hsecret⟩ := hs.tells hm
    obtain ⟨n, hn⟩ := completed_reports numbers hinj htells hside hits m.seed m.secret m.winner m.settlement
    refine ⟨n, fun fuel hfuel => ?_⟩
    obtain ⟨r, hr, hall⟩ := hn fuel hfuel
    refine ⟨r, hr, Bool.eq_false_iff.mpr fun h => ?_⟩
    have hsome := (hall.mp h).2.1
    rw [hsecret] at hsome
    cases hsome

/-! ## A round of two -/

def plainSender : Sender := ⟨⟨9000, 40000, fun _ => ""⟩, "us-normal", .normal, fun id => id, fun _ => none⟩

/-- Two players enter, the lobby closes, and the page gets the broadcast. -/
theorem round_of_two_sent : ∃ m, Sent stillPlatform plainSender m := by
  let c := RoundRunner stillPlatform plainSender.env plainSender.mode
  let draw : Draw := ⟨"5eed", 0, 0⟩
  let stakes := [("a|bull", Side.bull, (10 : ℚ)), ("b|uwu", Side.uwu, 20)]
  obtain ⟨w, hw, hphase, -, -⟩ := untilBattle_run stillPlatform plainSender.env c 1 draw stakes
  have hfought := run_fought (d := plainSender) 1 draw (untilBattle plainSender.env draw stakes) hw
    (by rw [hphase]; decide)
  have hm : ∃ m, liveStart plainSender w.runner.state 0 = some m := by
    rw [liveStart, roundStart, hfought.result, hfought.seed]
    exact ⟨_, rfl⟩
  obtain ⟨m, hm⟩ := hm
  refine ⟨m, 1, draw, untilBattle plainSender.env draw stakes, 0, ?_⟩
  rw [hw]
  exact ⟨hphase, Or.inl hm⟩

theorem honest_round_not_verified : ¬ ∀ p d numbers w m, Sent p d m → Verifies p d numbers w m := by
  intro h
  obtain ⟨m, hm⟩ := round_of_two_sent
  exact (page_verifies_no_round _ _ Number.quotients ⟨0, 0, "", "", none, OrderedMap.empty, 0, 0, [], none⟩ m).2
    (h _ _ _ _ m hm)

end BullsUnicorns.Battle.Browser
