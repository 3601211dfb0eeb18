import BullsUnicorns.Keeper.Reclamation
import BullsUnicorns.Keeper.Theorems.Burn

/-!
# The sweep-gap stop

One worst case whatever the closer knows, and a latch that nothing takes back.
-/

namespace BullsUnicorns.Keeper

/-! ## The verdict -/

section
variable {state state' : ReclamationState} {thresholds : ReclamationThresholds} {gap : ℤ} {cap : ℕ}

theorem wholeCount_nonneg (total : Option ℚ) : 0 ≤ wholeCount total := by
  unfold wholeCount
  split
  · exact le_refl 0
  · split
    · exact Int.floor_nonneg.mpr (by linarith)
    · exact le_refl 0

@[simp]
theorem wholeCount_natCast (n : ℕ) : wholeCount (some (n : ℚ)) = n := by
  rcases Nat.eq_zero_or_pos n with rfl | hn
  · simp [wholeCount]
  · have hpos : (0 : ℚ) < n := by exact_mod_cast hn
    simp [wholeCount, hpos]

theorem stranded_nonneg (closer : CloserReport) : 0 ≤ closer.stranded :=
  add_nonneg (wholeCount_nonneg _) (wholeCount_nonneg _)

theorem tripped_of_latched (h : state.sweepStoppedSinceSec.isSome = true) :
    (sweepGapStop state thresholds).tripped = true := by
  simp [sweepGapStop, latchedIn, h]

theorem tripped_of_unread (h : state.sweepStoppedSinceSec = none) (hgap : sweepGapOf state.arena = none) :
    (sweepGapStop state thresholds).tripped = false := by
  simp [sweepGapStop, latchedIn, h, hgap]

/-- The rounds that are excused, of a gap that was read. -/
def allowedOf (state : ReclamationState) (thresholds : ReclamationThresholds) (gap : ℤ) : ℤ :=
  if strandedLedgerIsComplete state.closer then min state.closer.stranded thresholds.cap
  else max 0 (min thresholds.cap gap)

/-- What the stop compares, while it has not latched. -/
theorem tripped_iff (h : state.sweepStoppedSinceSec = none) (hgap : sweepGapOf state.arena = some gap)
    (hstop : 0 < thresholds.stopAtGapRounds) :
    (sweepGapStop state thresholds).tripped = true ↔
      thresholds.stopAtGapRounds ≤ ((gap - allowedOf state thresholds gap : ℤ) : ℚ) := by
  simp [sweepGapStop, latchedIn, h, hgap, not_le.mpr hstop, allowedOf]

theorem allowedOf_nonneg (state : ReclamationState) (thresholds : ReclamationThresholds) (gap : ℤ) :
    0 ≤ allowedOf state thresholds gap := by
  have hstranded := stranded_nonneg state.closer
  have hcap : 0 ≤ thresholds.cap := wholeCount_nonneg _
  unfold allowedOf
  split <;> omega

theorem allowedOf_le (state : ReclamationState) (thresholds : ReclamationThresholds) (gap : ℤ) :
    allowedOf state thresholds gap ≤ thresholds.cap := by
  have hcap : 0 ≤ thresholds.cap := wholeCount_nonneg _
  unfold allowedOf
  split <;> omega

theorem allowedOf_complete (h : strandedLedgerIsComplete state.closer = true) :
    allowedOf state thresholds gap = min state.closer.stranded thresholds.cap := by
  simp [allowedOf, h]

/-- A wider gap leaves at least as much unexcused. -/
theorem unexcused_mono (hcloser : state.closer = state'.closer) {gap' : ℤ} (hle : gap ≤ gap') :
    gap - allowedOf state thresholds gap ≤ gap' - allowedOf state' thresholds gap' := by
  have hcap : 0 ≤ thresholds.cap := wholeCount_nonneg _
  simp only [allowedOf, hcloser]
  split <;> omega

/-- More rounds found stranded leave at most as much. -/
theorem unexcused_anti (hclosing : state.closer.closing = state'.closer.closing)
    (hcaught : state.closer.caughtUpOnce = state'.closer.caughtUpOnce)
    (hle : state.closer.stranded ≤ state'.closer.stranded) :
    gap - allowedOf state' thresholds gap ≤ gap - allowedOf state thresholds gap := by
  have hcomplete : strandedLedgerIsComplete state.closer = strandedLedgerIsComplete state'.closer := by
    simp only [strandedLedgerIsComplete, hclosing, hcaught]
  simp only [allowedOf, hcomplete]
  split <;> omega

/-- During a rebuild the cap is all that can be excused, and of a gap past it the whole cap is. -/
theorem unexcused_incomplete (h : strandedLedgerIsComplete state.closer = false)
    (hstop : 0 < thresholds.stopAtGapRounds) :
    thresholds.stopAtGapRounds ≤ ((gap - allowedOf state thresholds gap : ℤ) : ℚ) ↔
      thresholds.stopAtGapRounds + thresholds.cap ≤ (gap : ℚ) := by
  have hcap : 0 ≤ thresholds.cap := wholeCount_nonneg _
  have hallowed : allowedOf state thresholds gap = max 0 (min thresholds.cap gap) := by simp [allowedOf, h]
  rcases le_total thresholds.cap gap with hle | hle
  · have hwhole : allowedOf state thresholds gap = thresholds.cap := by omega
    rw [hwhole, Int.cast_sub, le_sub_iff_add_le]
  · have hleft : ((gap - allowedOf state thresholds gap : ℤ) : ℚ) ≤ 0 := by
      exact_mod_cast (by omega : gap - allowedOf state thresholds gap ≤ 0)
    have hgap : (gap : ℚ) ≤ thresholds.cap := by exact_mod_cast hle
    constructor <;> intro <;> linarith

theorem cap_natCast (stop : ℚ) (cap : ℕ) : (⟨stop, some cap⟩ : ReclamationThresholds).cap = cap :=
  wholeCount_natCast cap

end

/-! ## The latch -/

section
variable {cfg : Config} {thresholds : ReclamationThresholds} {closing : Bool} {ctx : KeeperContext}
  {watch watch' : SweepWatch} {pass : SweepPass} {events : List KeeperEvent} {asked : Option SweepGapVerdict}

theorem moveOn_stop (ctx : KeeperContext) (loss : CloseLoss) :
    (ctx.recordLoss loss).moveOn.sweepStopSince = ctx.sweepStopSince := by
  cases loss <;> rfl

theorem actOn_stop (cfg : Config) (ctx : KeeperContext) (pass : ClosePass) (action : CloseAction) :
    (actOn cfg ctx pass action).1.sweepStopSince = ctx.sweepStopSince := by
  cases action with
  | close =>
      cases hsent : pass.sendClose with
      | ok outcome => simp [actOn, sendClose, hsent, KeeperContext.moveOn]
      | error e =>
          simp only [actOn, sendClose, hsent]
          split
          · exact moveOn_stop _ .skipped
          · rfl
  | sweepFirst => rfl
  | advance because =>
      cases because with
      | alreadyClosed => rfl
      | neverTerminal => exact moveOn_stop ctx .neverTerminal
      | stillDelegated => exact moveOn_stop ctx .stillDelegated

theorem walk_stop (cfg : Config) (ctx : KeeperContext) (pass : ClosePass) :
    (walk cfg ctx pass).1.sweepStopSince = ctx.sweepStopSince := by
  have hseen (round : Option RoundAnswer) : (ctx.seen round).1.sweepStopSince = ctx.sweepStopSince := by
    cases round <;> rfl
  unfold walk
  split
  · rfl
  · split
    · rfl
    · rename_i round _
      simp only [examine]
      split
      · exact hseen round
      · exact (actOn_stop cfg _ pass _).trans (hseen round)

/-- The closer never touches the latch. -/
theorem close_stop (cfg : Config) (closing : Bool) (ctx : KeeperContext) (pass : ClosePass) :
    (closeOneFinishedRound cfg closing ctx pass).1.sweepStopSince = ctx.sweepStopSince := by
  have hskip : (skipClosedRoundsAhead cfg ctx pass).1.sweepStopSince = ctx.sweepStopSince := by
    rcases skipClosedRoundsAhead_cases cfg ctx pass with ⟨probes, heq⟩ | ⟨-, s, -, heq⟩ <;> rw [heq]
  unfold closeOneFinishedRound
  split
  · rfl
  · exact (walk_stop cfg _ pass).trans hskip

theorem close_opens_nothing (cfg : Config) (closing : Bool) (ctx : KeeperContext) (pass : ClosePass) (lamports : ℤ) :
    .openLanded lamports ∉ (closeOneFinishedRound cfg closing ctx pass).2 := by
  intro h
  rcases (close_flagged cfg closing ctx pass).1.closer _ h with hwork | ⟨ahead, heq⟩
  · cases hwork
  · cases heq

theorem sampleBurn_opens_nothing (cfg : Config) (ctx : KeeperContext) (before lamports : ℤ) :
    .openLanded lamports ∉ (sampleBurn cfg ctx before).2 := by
  rcases sampleBurn_cases cfg ctx before with ⟨heq, -⟩ | ⟨last, -, -, heq⟩ <;> simp [heq]

/-- A latched keeper asks nobody and opens nothing. -/
theorem openNextRound_latched (h : ctx.sweepStopSince.isSome = true) (pass : OpenPass) :
    openNextRound cfg ctx pass = (ctx, []) := by
  simp [openNextRound, h]

/-- An attempt that reaches the stop and is told to stop opens nothing and latches. -/
theorem openNextRound_stopped {pass : OpenPass} (hasks : asksSweepGap cfg ctx pass = true)
    (hsweep : pass.sweepIsKeepingUp = false) :
    (openNextRound cfg ctx pass).1.sweepStopSince.isSome = true ∧
      ∀ lamports, .openLanded lamports ∉ (openNextRound cfg ctx pass).2 := by
  cases hlatch : ctx.sweepStopSince with
  | some since =>
      rw [openNextRound_latched (by simp [hlatch])]
      simp [hlatch]
  | none =>
      cases hread : pass.affordsAnotherRound with
      | error e => simp [asksSweepGap, hlatch, hread] at hasks
      | ok answer =>
          cases answer with
          | none => simp [asksSweepGap, hlatch, hread] at hasks
          | some before =>
              have hbrake : (burnBrake (sampleBurn cfg ctx before).1.burnSamplesLamports
                  cfg.maxBurnLamportsPerRound cfg.burnArmAfterRounds cfg.burnSampleRounds).tripped = false := by
                simpa [asksSweepGap, hlatch, hread] using hasks
              simp only [openNextRound, hlatch, hread, hbrake, hsweep, Option.isSome_none, Bool.false_eq_true,
                if_false, Bool.not_false, if_true, Option.isSome_some, true_and]
              exact sampleBurn_opens_nothing cfg ctx before

/-! ## Runs -/

/-- The latch is only ever set, a verdict to stop sets it, and once it is set every verdict is to stop and
no round is opened. -/
structure Latching (watch watch' : SweepWatch) (events : List KeeperEvent) (asked : Option SweepGapVerdict) :
    Prop where
  kept : watch.ctx.sweepStopSince.isSome = true → watch'.ctx.sweepStopSince.isSome = true
  sets : ∀ verdict, asked = some verdict → verdict.tripped = true →
    watch'.ctx.sweepStopSince.isSome = true ∧ ∀ lamports, .openLanded lamports ∉ events
  stops : watch.ctx.sweepStopSince.isSome = true →
    (∀ verdict, asked = some verdict → verdict.tripped = true) ∧ ∀ lamports, .openLanded lamports ∉ events

theorem step_latching (cfg : Config) (thresholds : ReclamationThresholds) (closing : Bool) (watch : SweepWatch)
    (pass : SweepPass) :
    Latching watch (watch.step cfg thresholds closing pass).1 (watch.step cfg thresholds closing pass).2.1
      (watch.step cfg thresholds closing pass).2.2 := by
  cases pass with
  | closeOneFinishedRound pass =>
      refine ⟨fun h => ?_, by simp [SweepWatch.step], fun _ => ⟨by simp [SweepWatch.step], ?_⟩⟩
      · exact (congrArg Option.isSome (close_stop cfg closing watch.ctx pass)).trans h
      · exact close_opens_nothing cfg closing watch.ctx pass
  | pollTreasury poll => exact ⟨id, by simp [SweepWatch.step], fun _ => by simp [SweepWatch.step]⟩
  | openNextRound pass =>
      constructor
      case kept =>
        intro h
        simp only [SweepWatch.step]
        rw [openNextRound_latched h]
        exact h
      case sets =>
        intro verdict hasked htripped
        simp only [SweepWatch.step] at hasked ⊢
        split at hasked
        · rename_i hasks
          cases hasked
          exact openNextRound_stopped hasks (by simp [htripped])
        · cases hasked
      case stops =>
        intro h
        simp only [SweepWatch.step]
        rw [openNextRound_latched h]
        refine ⟨fun verdict hasked => ?_, by simp⟩
        split at hasked
        · cases hasked
          exact tripped_of_latched h
        · cases hasked

/-- A pass of a run, what it did, and the verdict that it was given. -/
abbrev SweepEntry := SweepPass × List KeeperEvent × Option SweepGapVerdict

def SweepEntry.Tripped (entry : SweepEntry) : Prop := ∃ verdict, entry.2.2 = some verdict ∧ verdict.tripped = true

/-- It opened no round, and was not told that it might. -/
def SweepEntry.Shut (entry : SweepEntry) : Prop :=
  (∀ verdict, entry.2.2 = some verdict → verdict.tripped = true) ∧ ∀ lamports, .openLanded lamports ∉ entry.2.1

/-- Everything after a verdict to stop is shut, and so is the keeper that it leaves. -/
structure StaysShut (log : List SweepEntry) (watch : SweepWatch) : Prop where
  later : log.Pairwise fun entry after => entry.Tripped → after.Shut
  here : ∀ entry ∈ log, entry.Tripped → entry.Shut
  latched : ∀ entry ∈ log, entry.Tripped → watch.ctx.sweepStopSince.isSome = true

theorem staysShut_run (cfg : Config) (thresholds : ReclamationThresholds) (closing : Bool) (watch : SweepWatch)
    (passes : List SweepPass) :
    StaysShut ((sweepWatch cfg thresholds closing).accepted watch passes)
      ((sweepWatch cfg thresholds closing).run watch passes) := by
  refine Machine.run_history (m := sweepWatch cfg thresholds closing) (H := StaysShut) ?_ (h := [])
    ⟨.nil, by simp, by simp⟩ passes
  intro log watch pass watch' out h hstep
  have hone := step_latching cfg thresholds closing watch pass
  have heq : watch.step cfg thresholds closing pass = (watch', out) := Except.ok.inj hstep
  simp only [heq] at hone
  have htold : SweepEntry.Tripped (pass, out) → SweepEntry.Shut (pass, out) := by
    rintro ⟨verdict, hasked, htripped⟩
    refine ⟨fun other hother => ?_, (hone.sets verdict hasked htripped).2⟩
    rw [Option.some.inj (hother.symm.trans hasked)]
    exact htripped
  constructor
  case later =>
    rw [List.pairwise_append]
    refine ⟨h.later, List.pairwise_singleton _ _, fun entry hentry new hnew htripped => ?_⟩
    cases List.mem_singleton.mp hnew
    exact hone.stops (h.latched entry hentry htripped)
  case here =>
    intro entry hentry
    rcases List.mem_append.mp hentry with hentry | hentry
    · exact h.here entry hentry
    · cases List.mem_singleton.mp hentry
      exact htold
  case latched =>
    intro entry hentry htripped
    rcases List.mem_append.mp hentry with hentry | hentry
    · exact hone.kept (h.latched entry hentry htripped)
    · cases List.mem_singleton.mp hentry
      obtain ⟨verdict, hasked, htripped⟩ := htripped
      exact (hone.sets verdict hasked htripped).1

end

/-- The stop trips by one law whatever the closer knows, monotonically, and for good. -/
theorem sweep_gap_has_one_worst_case (stop : ℚ) (cap : ℕ) (hstop : 0 < stop) :
    (∀ state thresholds, state.sweepStoppedSinceSec.isSome = true → (sweepGapStop state thresholds).tripped = true) ∧
    (∀ state, state.sweepStoppedSinceSec = none → sweepGapOf state.arena = none →
      (sweepGapStop state ⟨stop, some cap⟩).tripped = false) ∧
    (∀ state gap, state.sweepStoppedSinceSec = none → sweepGapOf state.arena = some gap →
      (strandedLedgerIsComplete state.closer = false →
        ((sweepGapStop state ⟨stop, some cap⟩).tripped = true ↔ stop + cap ≤ gap)) ∧
      (strandedLedgerIsComplete state.closer = true →
        ((sweepGapStop state ⟨stop, some cap⟩).tripped = true ↔
          stop ≤ ((gap - min state.closer.stranded cap : ℤ) : ℚ))) ∧
      (stop + cap ≤ gap → (sweepGapStop state ⟨stop, some cap⟩).tripped = true) ∧
      (gap < stop → (sweepGapStop state ⟨stop, some cap⟩).tripped = false)) ∧
    (∀ state state' gap gap', sweepGapOf state.arena = some gap → sweepGapOf state'.arena = some gap' → gap ≤ gap' →
      state.closer = state'.closer → state.sweepStoppedSinceSec = state'.sweepStoppedSinceSec →
      (sweepGapStop state ⟨stop, some cap⟩).tripped = true → (sweepGapStop state' ⟨stop, some cap⟩).tripped = true) ∧
    (∀ state state', state.arena = state'.arena → state.closer.closing = state'.closer.closing →
      state.closer.caughtUpOnce = state'.closer.caughtUpOnce → state.closer.stranded ≤ state'.closer.stranded →
      state.sweepStoppedSinceSec = state'.sweepStoppedSinceSec →
      (sweepGapStop state' ⟨stop, some cap⟩).tripped = true → (sweepGapStop state ⟨stop, some cap⟩).tripped = true) ∧
    (∀ state thresholds skipped skippedTotal,
      sweepGapStop { state with closer := { state.closer with skipped := skipped, skippedTotal := skippedTotal } }
        thresholds = sweepGapStop state thresholds) ∧
    (∀ cfg closing watch passes,
      StaysShut ((sweepWatch cfg ⟨stop, some cap⟩ closing).accepted watch passes)
        ((sweepWatch cfg ⟨stop, some cap⟩ closing).run watch passes)) := by
  have hcap := cap_natCast stop cap
  have hlaw {state : ReclamationState} {gap : ℤ} (hopen : state.sweepStoppedSinceSec = none)
      (hgap : sweepGapOf state.arena = some gap) :
      (sweepGapStop state ⟨stop, some cap⟩).tripped = true ↔
        (⟨stop, some cap⟩ : ReclamationThresholds).stopAtGapRounds ≤
          ((gap - allowedOf state ⟨stop, some cap⟩ gap : ℤ) : ℚ) :=
    tripped_iff hopen hgap hstop
  refine ⟨fun state thresholds => tripped_of_latched, fun state => tripped_of_unread, ?_, ?_, ?_,
    fun state thresholds skipped skippedTotal => rfl,
    fun cfg closing watch passes => staysShut_run cfg ⟨stop, some cap⟩ closing watch passes⟩
  · intro state gap hopen hgap
    have hnonneg := allowedOf_nonneg state ⟨stop, some cap⟩ gap
    have hle := allowedOf_le state ⟨stop, some cap⟩ gap
    rw [hcap] at hle
    refine ⟨fun hbuilding => ?_, fun hcomplete => ?_, fun hwide => ?_, fun hnarrow => ?_⟩
    · rw [hlaw hopen hgap, unexcused_incomplete hbuilding hstop, hcap]
      norm_cast
    · rw [hlaw hopen hgap, allowedOf_complete hcomplete, hcap]
    · rw [hlaw hopen hgap, Int.cast_sub]
      have hle' : (allowedOf state ⟨stop, some cap⟩ gap : ℚ) ≤ cap := by exact_mod_cast hle
      change stop ≤ _
      linarith
    · rw [← Bool.not_eq_true, hlaw hopen hgap, Int.cast_sub]
      have hnonneg' : (0 : ℚ) ≤ allowedOf state ⟨stop, some cap⟩ gap := by exact_mod_cast hnonneg
      change ¬ stop ≤ _
      linarith
  · intro state state' gap gap' hgap hgap' hle hcloser hsince htripped
    cases hlatch : state.sweepStoppedSinceSec with
    | some since => exact tripped_of_latched (by rw [← hsince, hlatch]; rfl)
    | none =>
        rw [hlaw hlatch hgap] at htripped
        rw [hlaw (hsince.symm.trans hlatch) hgap']
        exact le_trans htripped (Int.cast_le.mpr (unexcused_mono hcloser hle))
  · intro state state' harena hclosing hcaught hstranded hsince htripped
    cases hlatch : state.sweepStoppedSinceSec with
    | some since => exact tripped_of_latched (by rw [hlatch]; rfl)
    | none =>
        have hlatch' := hsince.symm.trans hlatch
        cases hgap : sweepGapOf state.arena with
        | none =>
            rw [tripped_of_unread hlatch' (harena ▸ hgap)] at htripped
            cases htripped
        | some gap =>
            rw [hlaw hlatch' (harena ▸ hgap)] at htripped
            rw [hlaw hlatch hgap]
            exact le_trans htripped (Int.cast_le.mpr (unexcused_anti hclosing hcaught hstranded))

theorem sweep_gap_has_one_worst_case_witness :
    (sweepGapStop ⟨some ⟨60, some 10, 0⟩, ⟨[], some 0, some 30, some 0, true, false⟩, none⟩ ⟨25, some 25⟩).tripped
      = true := by
  have hlaw := (sweep_gap_has_one_worst_case 25 25 (by norm_num)).2.2.1
    ⟨some ⟨60, some 10, 0⟩, ⟨[], some 0, some 30, some 0, true, false⟩, none⟩ 50 rfl rfl
  exact (hlaw.1 rfl).mpr (by norm_num)

end BullsUnicorns.Keeper
