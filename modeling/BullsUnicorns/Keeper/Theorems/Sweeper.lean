import BullsUnicorns.Keeper.Sweeper
import BullsUnicorns.Keeper.Lemmas.Scan

/-!
# Whether a held round is swept

The closer holds its cursor on a round that only wants sweeping. Whether the sweep goes out in the same
pass is decided by the delegation of the current round, not of that one.
-/

namespace BullsUnicorns.Keeper

open Chain (Phase)

/-! ## The cursor of a round that is there -/

namespace CloseCursorScanOptions

variable {ε : Type} {opts : CloseCursorScanOptions ε}

/-- A scan reports its own reads. -/
theorem scan_asked (turns : ℕ) (cursor : ℤ) (probes : List (Probed ε))
    (h : ∀ p ∈ probes, ∃ i, opts.probe i p.1 = p.2) :
    ∀ p ∈ (opts.scan turns cursor probes).probes, ∃ i, opts.probe i p.1 = p.2 := by
  induction turns generalizing cursor probes with
  | zero => exact h
  | succ turns ih =>
      have hread : ∀ p ∈ probes ++ [(opts.window cursor, opts.probe probes.length (opts.window cursor))],
          ∃ i, opts.probe i p.1 = p.2 := by
        intro p hp
        rcases List.mem_append.mp hp with hp | hp
        · exact h p hp
        · cases List.mem_singleton.mp hp
          exact ⟨_, rfl⟩
      unfold scan
      split
      · split
        · exact h
        split
        · exact h
        dsimp only
        split
        · exact hread
        split
        · exact hread
        split
        · exact hread
        · exact ih _ _ hread
      · exact h

end CloseCursorScanOptions

theorem findOldestLivingRound_asked {ε : Type} (opts : CloseCursorScanOptions ε) :
    ∀ p ∈ (findOldestLivingRound opts).probes, ∃ i, opts.probe i p.1 = p.2 := by
  unfold findOldestLivingRound
  split
  · exact fun _ hp => absurd hp List.not_mem_nil
  split
  · exact fun _ hp => absurd hp List.not_mem_nil
  · exact CloseCursorScanOptions.scan_asked _ _ _ fun _ hp => absurd hp List.not_mem_nil

/-- No read says that a round is gone. -/
def NeverAbsent (probe : List ℤ → Except String (List Bool)) (n : ℤ) : Prop :=
  ∀ asked existing, probe asked = .ok existing → (n, false) ∉ asked.zip existing

/-- The skip stops at a round that is there. -/
theorem skipClosedRoundsAhead_stays {cfg : Config} {ctx : KeeperContext} {pass : ClosePass}
    (h : NeverAbsent pass.probe ctx.closeCursor) :
    (skipClosedRoundsAhead cfg ctx pass).1.closeCursor = ctx.closeCursor := by
  unfold skipClosedRoundsAhead
  split
  · rfl
  rename_i hworth
  simp only [probeIsWorthARead, Bool.not_eq_true', Bool.not_eq_false, Bool.if_false_left,
    Bool.and_eq_true, decide_eq_false_iff_not, decide_eq_true_eq] at hworth
  have hroom : (pass.options cfg ctx).start ≤ (pass.options cfg ctx).through + 1 := by
    simp only [ClosePass.options, closeCursorProbeBatch] at hworth ⊢
    omega
  have hproved := findOldestLivingRound_proved (pass.options cfg ctx) hroom
  have hasked := findOldestLivingRound_asked (pass.options cfg ctx)
  have hstay : (findOldestLivingRound (pass.options cfg ctx)).cursor = ctx.closeCursor := by
    by_contra hne
    have hfrom : ctx.closeCursor ≤ (findOldestLivingRound (pass.options cfg ctx)).cursor := hproved.forward
    obtain ⟨p, hp, existing, hanswer, hmem⟩ := hproved.absent ctx.closeCursor (le_refl _) (by omega)
    obtain ⟨i, hi⟩ := hasked p hp
    exact h p.1 existing (hi.trans hanswer) hmem
  dsimp only
  split
  · rfl
  split
  · exact hstay
  · exact hstay

/-! ## The round that is held -/

/-- A round under the cursor that only wants sweeping, on a pass that may look at it. The reads of the
chain answer what is there, or nothing. -/
structure Fixable (cfg : Config) (closeRounds : Bool) (features : ProgramFeatures) (ctx : KeeperContext)
    (sweepRetryAfterSec : ℚ) (pass : IdlePass) (round : RoundAnswer) : Prop where
  closing : closeRounds = true ∧ features.roundAccountClose = true
  idle : ∀ current, pass.state.round = some current →
    current.phase = .lobby ∨ current.phase = .settled ∨ current.phase = .abandoned
  pastRetention : ctx.closeCursor + cfg.roundRetention ≤ pass.state.roundCounter
  exists_ : NeverAbsent pass.probe ctx.closeCursor ∧ ∀ r, pass.fetchRound = .ok r → r = some round
  terminal : round.phase = .settled ∨ round.phase = .abandoned
  undelegated : ∀ delegated, pass.isDelegated = .ok delegated → delegated = false
  unswept : round.swept = false
  closeReady : ctx.closeRetryAfterSec ≤ pass.state.nowSec
  sweepReady : sweepRetryAfterSec ≤ pass.state.nowSec

/-- The current round is readable, in a phase that asks for its owner, and home. -/
def ChainAnswers.currentRoundIsHome (chain : ChainAnswers) : Prop :=
  (∃ counter, chain.arena = some counter ∧ counter ≠ 0) ∧
    (∃ current, chain.fetchRound = some current ∧
      (current.phase = .lobby ∨ current.phase = .settled ∨ current.phase = .abandoned)) ∧
    chain.isDelegated = false

theorem roundDelegated_iff (chain : ChainAnswers) :
    (readChainState chain).roundDelegated = some false ↔ chain.currentRoundIsHome := by
  obtain ⟨nowSec, arena, fetched, delegated⟩ := chain
  cases arena with
  | none => simp [readChainState, ChainAnswers.currentRoundIsHome]
  | some counter =>
      cases counter with
      | zero => simp [readChainState, ChainAnswers.currentRoundIsHome]
      | succ counter =>
          cases fetched with
          | none => simp [readChainState, delegationDecidesSomething, ChainAnswers.currentRoundIsHome]
          | some current => simp [readChainState, delegationDecidesSomething, ChainAnswers.currentRoundIsHome]

/-- The reads that the closer makes on its way to the sweep were answered. -/
def IdlePass.readsAnswer (pass : IdlePass) : Prop :=
  (∃ r, pass.fetchRound = .ok r) ∧ (∃ delegated, pass.isDelegated = .ok delegated) ∧
    ∃ there, pass.sweep.treasuryExists = .ok there

/-- The transaction that a held round waits for went out, landed or not. -/
def Attempted (roundNo : ℤ) (sent : List SweepEvent) : Prop :=
  ∃ accepted, .initTreasurySent accepted ∈ sent ∨ .sweepSent roundNo accepted ∈ sent

theorem SweepAnswers.treasury_read {answers : SweepAnswers} (h : answers.goesOut = true) :
    ∃ there, answers.treasuryExists = .ok there := by
  cases htreasury : answers.treasuryExists with
  | error e => simp [SweepAnswers.goesOut, htreasury] at h
  | ok there => exact ⟨there, rfl⟩

theorem sweepHouseTake_attempts {features : ProgramFeatures} {state : KeeperChainState} {round : RoundAnswer}
    {roundNo : ℤ} {retryAfter : ℚ} {answers : SweepAnswers} (hfeature : features.houseTakeSweep = true)
    (hunswept : round.swept = false) (hready : retryAfter ≤ state.nowSec) :
    Attempted roundNo (sweepHouseTake features state round roundNo retryAfter answers).2 ↔
      state.roundDelegated = some false ∧ answers.goesOut = true := by
  rw [sweepHouseTake, hfeature, hunswept, if_neg (by simp), if_neg (by simp)]
  by_cases hhome : state.roundDelegated = some false
  · rw [if_neg (not_not.mpr hhome), if_neg (not_lt.mpr hready)]
    cases htreasury : answers.treasuryExists with
    | error e => simp [Attempted, SweepAnswers.goesOut, htreasury]
    | ok there =>
        cases there with
        | false =>
            cases hsend : answers.sendInit with
            | error e => simp [Attempted, SweepAnswers.goesOut, htreasury, goesOut, hsend, hhome]
            | ok outcome =>
                cases hsent : outcome.sent with
                | true => simp [Attempted, SweepAnswers.goesOut, htreasury, goesOut, hsend, hsent, hhome]
                | false => simp [Attempted, SweepAnswers.goesOut, htreasury, goesOut, hsend, hsent]
        | true =>
            cases hsend : answers.sendSweep with
            | error e => simp [Attempted, SweepAnswers.goesOut, htreasury, goesOut, hsend, hhome]
            | ok outcome =>
                cases hsent : outcome.sent with
                | true => simp [Attempted, SweepAnswers.goesOut, htreasury, goesOut, hsend, hsent, hhome]
                | false => simp [Attempted, SweepAnswers.goesOut, htreasury, goesOut, hsend, hsent]
  · rw [if_pos hhome]
    simp [Attempted, hhome]

theorem decideClose_sweepFirst {round : RoundAnswer} {delegated : Bool} :
    decideClose (some round) delegated = .sweepFirst ↔
      (round.phase = .settled ∨ round.phase = .abandoned) ∧ delegated = false ∧ round.swept = false := by
  by_cases hterminal : round.phase ≠ .settled ∧ round.phase ≠ .abandoned
  · have hphase : ¬(round.phase = .settled ∨ round.phase = .abandoned) := by tauto
    simp [decideClose, if_pos hterminal, hphase]
  · have hphase : round.phase = .settled ∨ round.phase = .abandoned := by tauto
    cases delegated with
    | true => simp [decideClose, if_neg hterminal]
    | false =>
        cases hswept : round.swept with
        | true => simp [decideClose, if_neg hterminal, hswept]
        | false => simp [decideClose, if_neg hterminal, hswept, hphase]

section
variable {cfg : Config} {closing : Bool} {ctx : KeeperContext} {pass : ClosePass} {roundNo : ℤ}
  {round : RoundAnswer}

/-- A round is held by a pass that gets as far as deciding on it. -/
theorem heldForSweep_some :
    heldForSweep cfg closing ctx pass = some (roundNo, round) ↔
      (closing = true ∧ housekeepingIsWelcome pass.currentPhase = true ∧
        ctx.closeRetryAfterSec ≤ pass.nowSec) ∧
      (skipClosedRoundsAhead cfg ctx pass).1.closeCursor = roundNo ∧
      isPastRetention roundNo pass.roundCounter cfg.roundRetention = true ∧
      pass.fetchRound = .ok (some round) ∧ ∃ delegated, pass.isDelegated = .ok delegated ∧
        decideClose (some round) delegated = .sweepFirst := by
  unfold heldForSweep
  by_cases hgate : closing = true ∧ housekeepingIsWelcome pass.currentPhase = true ∧
      ctx.closeRetryAfterSec ≤ pass.nowSec
  · have hopen : (!closing || !housekeepingIsWelcome pass.currentPhase ||
        decide (pass.nowSec < ctx.closeRetryAfterSec)) = false := by
      simp [hgate.1, hgate.2.1, hgate.2.2]
    rw [hopen]
    generalize (skipClosedRoundsAhead cfg ctx pass).1.closeCursor = cursor
    by_cases hpast : isPastRetention cursor pass.roundCounter cfg.roundRetention = true
    · cases hfetch : pass.fetchRound with
      | error e => simp
      | ok answer =>
          cases answer with
          | none => simp
          | some there =>
              cases howner : pass.isDelegated with
              | error e => simp
              | ok delegated =>
                  by_cases hdecide : decideClose (some there) delegated = .sweepFirst
                  · simp only [Bool.false_eq_true, if_false, hpast, Bool.not_true, if_pos hdecide,
                      Option.some.injEq, Prod.mk.injEq, Except.ok.injEq]
                    constructor
                    · rintro ⟨rfl, rfl⟩
                      exact ⟨hgate, rfl, hpast, rfl, delegated, rfl, hdecide⟩
                    · rintro ⟨-, hno, -, hround, -⟩
                      exact ⟨hno, hround⟩
                  · simp only [Bool.false_eq_true, if_false, hpast, Bool.not_true, if_neg hdecide]
                    constructor
                    · exact fun h => nomatch h
                    · rintro ⟨-, -, -, hround, d, hd, hsweep⟩
                      cases hround
                      cases hd
                      exact absurd hsweep hdecide
    · simp only [Bool.false_eq_true, if_false, hpast, Bool.not_false, if_true]
      constructor
      · exact fun h => nomatch h
      · rintro ⟨-, rfl, h, -⟩
        exact absurd h hpast
  · have hshut : (!closing || !housekeepingIsWelcome pass.currentPhase ||
        decide (pass.nowSec < ctx.closeRetryAfterSec)) = true := by
      by_contra hno
      simp only [Bool.or_eq_true, Bool.not_eq_true', decide_eq_true_eq, not_or, Bool.not_eq_false,
        not_lt, and_assoc] at hno
      exact hgate hno
    rw [if_pos hshut]
    constructor
    · exact fun h => nomatch h
    · exact fun h => absurd h.1 hgate

/-- And there the cursor stays. -/
theorem heldForSweep_stays (h : heldForSweep cfg closing ctx pass = some (roundNo, round)) :
    (closeOneFinishedRound cfg closing ctx pass).1.closeCursor = roundNo := by
  obtain ⟨⟨hclosing, hidle, hready⟩, rfl, hpast, hfetch, delegated, howner, hdecide⟩ := heldForSweep_some.mp h
  have hopen : (!closing || !housekeepingIsWelcome pass.currentPhase ||
      decide (pass.nowSec < ctx.closeRetryAfterSec)) = false := by
    simp [hclosing, hidle, hready]
  simp only [closeOneFinishedRound, hopen, Bool.false_eq_true, if_false, walk, hpast, Bool.not_true, hfetch,
    examine, KeeperContext.seen, Option.isNone_some, howner, hdecide, actOn]

end

section
variable {cfg : Config} {closeRounds : Bool} {features : ProgramFeatures} {ctx : KeeperContext}
  {sweepRetryAfterSec : ℚ} {pass : IdlePass} {round : RoundAnswer}

theorem Fixable.held (h : Fixable cfg closeRounds features ctx sweepRetryAfterSec pass round)
    (hfetch : ∃ r, pass.fetchRound = .ok r) (howner : ∃ delegated, pass.isDelegated = .ok delegated) :
    heldForSweep cfg (closeRounds && features.roundAccountClose) ctx pass.close =
      some (ctx.closeCursor, round) := by
  obtain ⟨r, hr⟩ := hfetch
  obtain ⟨delegated, hd⟩ := howner
  have hidle : housekeepingIsWelcome pass.close.currentPhase = true := by
    cases hround : pass.state.round with
    | none => simp [IdlePass.close, hround, housekeepingIsWelcome]
    | some current =>
        rcases h.idle current hround with hp | hp | hp
        · simp [IdlePass.close, hround, housekeepingIsWelcome, hp]
        · simp [IdlePass.close, hround, housekeepingIsWelcome, hp]
        · simp [IdlePass.close, hround, housekeepingIsWelcome, hp]
  refine heldForSweep_some.mpr ⟨⟨by simp [h.closing.1, h.closing.2], hidle, h.closeReady⟩,
    skipClosedRoundsAhead_stays h.exists_.1, ?_, ?_, delegated, hd, ?_⟩
  · exact decide_eq_true h.pastRetention
  · rw [← h.exists_.2 r hr]
    exact hr
  · exact decideClose_sweepFirst.mpr ⟨h.terminal, h.undelegated delegated hd, h.unswept⟩

theorem housekeep_sent_none
    (h : heldForSweep cfg (closeRounds && features.roundAccountClose) ctx pass.close = none) :
    (housekeep cfg closeRounds features ctx sweepRetryAfterSec pass).sent = [] := by
  simp only [housekeep, h]

theorem housekeep_sent_some {roundNo : ℤ}
    (h : heldForSweep cfg (closeRounds && features.roundAccountClose) ctx pass.close = some (roundNo, round)) :
    (housekeep cfg closeRounds features ctx sweepRetryAfterSec pass).sent =
      (sweepHouseTake features pass.state round roundNo sweepRetryAfterSec pass.sweep).2 := by
  simp only [housekeep, h]

/-- What a held round waits for. -/
theorem housekeep_attempts {idl : IdlShape} {roundNo : ℤ}
    (h : heldForSweep cfg (closeRounds && (programFeaturesOf idl).roundAccountClose) ctx pass.close =
      some (roundNo, round)) (hready : sweepRetryAfterSec ≤ pass.state.nowSec) :
    Attempted roundNo (housekeep cfg closeRounds (programFeaturesOf idl) ctx sweepRetryAfterSec pass).sent ↔
      pass.chain.currentRoundIsHome ∧ pass.sweep.goesOut = true := by
  obtain ⟨⟨hclosing, -, -⟩, -, -, -, delegated, -, hdecide⟩ := heldForSweep_some.mp h
  have hsweep := programFeaturesOf_sweep (Bool.and_eq_true_iff.mp hclosing).2
  rw [housekeep_sent_some h, ← roundDelegated_iff]
  exact sweepHouseTake_attempts hsweep (decideClose_sweepFirst.mp hdecide).2.2 hready

end

/-- Of the rounds that only want sweeping, those are swept on whose pass the current round is home, and
which is no dry run. -/
theorem held_round_waits_for_the_current_one (cfg : Config) (closeRounds : Bool) (idl : IdlShape)
    (ctx : KeeperContext) (sweepRetryAfterSec : ℚ) (pass : IdlePass) :
    (∀ round, Fixable cfg closeRounds (programFeaturesOf idl) ctx sweepRetryAfterSec pass round →
      (Attempted ctx.closeCursor
          (housekeep cfg closeRounds (programFeaturesOf idl) ctx sweepRetryAfterSec pass).sent ↔
        pass.chain.currentRoundIsHome ∧ pass.readsAnswer ∧ pass.sweep.goesOut = true)) ∧
    (∀ roundNo round, heldForSweep cfg (closeRounds && (programFeaturesOf idl).roundAccountClose) ctx pass.close =
        some (roundNo, round) → sweepRetryAfterSec ≤ pass.state.nowSec →
      (housekeep cfg closeRounds (programFeaturesOf idl) ctx sweepRetryAfterSec pass).ctx.closeCursor = roundNo ∧
      (Attempted roundNo
          (housekeep cfg closeRounds (programFeaturesOf idl) ctx sweepRetryAfterSec pass).sent ↔
        pass.chain.currentRoundIsHome ∧ pass.sweep.goesOut = true)) := by
  constructor
  · intro round h
    by_cases hread : (∃ r, pass.fetchRound = .ok r) ∧ ∃ delegated, pass.isDelegated = .ok delegated
    · rw [housekeep_attempts (h.held hread.1 hread.2) h.sweepReady]
      constructor
      · rintro ⟨hhome, hsends⟩
        exact ⟨hhome, ⟨hread.1, hread.2, SweepAnswers.treasury_read hsends⟩, hsends⟩
      · rintro ⟨hhome, -, hsends⟩
        exact ⟨hhome, hsends⟩
    · have hnone : heldForSweep cfg (closeRounds && (programFeaturesOf idl).roundAccountClose) ctx pass.close =
          none := by
        rw [Option.eq_none_iff_forall_ne_some]
        rintro ⟨roundNo, held⟩ hsome
        obtain ⟨-, -, -, hfetch, delegated, howner, -⟩ := heldForSweep_some.mp hsome
        exact hread ⟨⟨_, hfetch⟩, delegated, howner⟩
      rw [housekeep_sent_none hnone]
      constructor
      · rintro ⟨accepted, hmem | hmem⟩
        · exact absurd hmem List.not_mem_nil
        · exact absurd hmem List.not_mem_nil
      · rintro ⟨-, ⟨hround, howner, -⟩, -⟩
        exact absurd ⟨hround, howner⟩ hread
  · intro roundNo round h hready
    exact ⟨heldForSweep_stays h, housekeep_attempts h hready⟩

/-! ## An arena with one round left unswept -/

def sweepingIdl : IdlShape where
  instructions := [("close_round_account", ["authority"]), ("sweep_house_take", []), ("init_treasury", [])]
  types := [("Round", ["house_swept"])]

def atRoundOne : KeeperContext where
  closeCursor := 1
  closeCursorKnownLiveAt := none
  closeCatchUpAhead := false
  closeCursorCaughtUp := false
  closeAttempts := 0
  closeRetryAfterSec := 0
  closeSkipped := .empty
  closeStrandedNeverTerminal := .empty
  closeStrandedStillDelegated := .empty
  burnSamplesLamports := []
  lastOpenLamports := none
  sweepStopSince := none

def unsweptRound : RoundAnswer := ⟨.settled, some 0⟩

/-- Round 30 is a lobby, in the rollup or at home; round 1 is settled, home and unswept. -/
def idleLobby (delegated : Bool) : IdlePass where
  chain := ⟨100, some 30, some ⟨.lobby, some 0⟩, delegated⟩
  probe := fun asked => .ok (asked.map fun _ => true)
  nowMs := fun _ => 0
  fetchRound := .ok (some unsweptRound)
  isDelegated := .ok false
  sendClose := .ok ⟨true⟩
  sweep := ⟨.ok true, .ok ⟨true⟩, .ok ⟨true⟩⟩

theorem idleLobby_fixable (delegated : Bool) :
    Fixable .fallback true (programFeaturesOf sweepingIdl) atRoundOne 0 (idleLobby delegated) unsweptRound where
  closing := by decide
  idle := by
    intro current h
    cases h
    exact .inl rfl
  pastRetention := by cases delegated <;> decide
  exists_ := by
    refine ⟨?_, fun r h => ?_⟩
    · intro asked existing hanswer hmem
      cases hanswer
      obtain ⟨x, -, hx⟩ := List.mem_map.mp (List.of_mem_zip hmem).2
      cases hx
    · cases h
      rfl
  terminal := .inl rfl
  undelegated := by
    intro d h
    cases h
    rfl
  unswept := rfl
  closeReady := by
    show (0 : ℚ) ≤ 100
    norm_num
  sweepReady := by
    show (0 : ℚ) ≤ 100
    norm_num

/-- While the current lobby is in the rollup, the pass holds round 1 and sends nothing for it. -/
theorem delegated_lobby_blocks_the_sweep :
    Fixable .fallback true (programFeaturesOf sweepingIdl) atRoundOne 0 (idleLobby true) unsweptRound ∧
      (housekeep .fallback true (programFeaturesOf sweepingIdl) atRoundOne 0 (idleLobby true)).ctx.closeCursor = 1 ∧
      (housekeep .fallback true (programFeaturesOf sweepingIdl) atRoundOne 0 (idleLobby true)).sent = [] :=
  ⟨idleLobby_fixable true, by decide +kernel, by decide +kernel⟩

theorem held_round_waits_for_the_current_one_witness :
    Attempted 1 (housekeep .fallback true (programFeaturesOf sweepingIdl) atRoundOne 0 (idleLobby false)).sent := by
  refine ((held_round_waits_for_the_current_one .fallback true sweepingIdl atRoundOne 0 (idleLobby false)).1
    unsweptRound (idleLobby_fixable false)).mpr ⟨⟨⟨30, rfl, by decide⟩, ⟨_, rfl, .inl rfl⟩, rfl⟩, ?_⟩
  exact ⟨⟨⟨_, rfl⟩, ⟨_, rfl⟩, ⟨_, rfl⟩⟩, rfl⟩

end BullsUnicorns.Keeper
