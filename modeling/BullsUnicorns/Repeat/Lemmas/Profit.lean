import BullsUnicorns.Lib.Cursor
import BullsUnicorns.Lib.Machine
import BullsUnicorns.Repeat.AutoPolicy

/-!
# The profit register of a run beside the chain

The rule enters rounds, and the page books what a log of the chain answers for. A log is any part of the
records that the chain has made, so one that has been reclaimed is merely never read again; a record of a
settled or abandoned round stays as it is.
-/

namespace BullsUnicorns.Repeat

open Cursor

structure PnlRun where
  chain : ℤ → Option RoundSummary
  /-- The rounds that the rule has entered, oldest first. -/
  entered : List ℤ
  pnl : RunPnl

inductive PnlAct where
  | chain (records : ℤ → Option RoundSummary)
  | entered (roundNo : ℤ)
  | booked (log : List RoundSummary) (youPubkey : String)

/-- A run of the account `wallet`. -/
def pnlRun (wallet : String) : Machine PnlRun PnlAct Unit Empty where
  step
    | s, .chain records => .ok ({ s with chain := records }, ())
    | s, .entered roundNo =>
        .ok ({ s with entered := s.entered ++ [roundNo], pnl := pnlEntered s.pnl roundNo wallet }, ())
    | s, .booked log youPubkey => .ok ({ s with pnl := bookSettledRounds s.pnl log youPubkey }, ())

/-- A run that has just been armed. -/
def PnlRun.armed (chain : ℤ → Option RoundSummary) : PnlRun := ⟨chain, [], EMPTY_RUN_PNL⟩

/-- Part of the chain's current records. -/
def IsLog (chain : ℤ → Option RoundSummary) (log : List RoundSummary) : Prop :=
  ∀ round ∈ log, chain round.roundNo = some round

/-- The record is there, and it stays as it is. -/
def FinalAt (chain : ℤ → Option RoundSummary) (r : ℤ) : Prop :=
  ∃ round, chain r = some round ∧ roundIsFinal round.phase = true

/-- The wallet's movement in a round, as the chain has it. -/
def unitsAt (chain : ℤ → Option RoundSummary) (wallet : String) (r : ℤ) : ℤ :=
  ((chain r).map (playerUnits · wallet)).getD 0

namespace PnlRun

/-- Between two rounds that the rule entered the wallet is in no other. -/
def HandsOff (wallet : String) (s : PnlRun) : Prop :=
  ∀ r round, s.chain r = some round → (∃ q ∈ s.entered, q < r) → (∃ q ∈ s.entered, r < q) → r ∉ s.entered →
    ∀ player ∈ round.players, player.wallet ≠ wallet

/-- What may happen: a final record stays, each entered round is newer than those before it, and each log is
part of the chain. -/
def Allowed (s : PnlRun) : PnlAct → Prop
  | .chain records => ∀ r round, s.chain r = some round → roundIsFinal round.phase = true → records r = some round
  | .entered roundNo => ∀ q ∈ s.entered, q < roundNo
  | .booked log _ => IsLog s.chain log

/-- An allowed act that leaves no deposit by hand in the rounds of the run. -/
def Regular (wallet : String) (s : PnlRun) (act : PnlAct) : Prop :=
  s.Allowed act ∧ ((pnlRun wallet).attempt s act).HandsOff wallet

end PnlRun

@[simp]
theorem pnlRun_chain (wallet : String) (s : PnlRun) (records : ℤ → Option RoundSummary) :
    (pnlRun wallet).attempt s (.chain records) = { s with chain := records } := rfl

@[simp]
theorem pnlRun_entered (wallet : String) (s : PnlRun) (r : ℤ) :
    (pnlRun wallet).attempt s (.entered r) =
      { s with entered := s.entered ++ [r], pnl := pnlEntered s.pnl r wallet } := rfl

@[simp]
theorem pnlRun_booked (wallet : String) (s : PnlRun) (log : List RoundSummary) (you : String) :
    (pnlRun wallet).attempt s (.booked log you) = { s with pnl := bookSettledRounds s.pnl log you } := rfl

/-! ## What a log says -/

section

variable {chain : ℤ → Option RoundSummary} {log : List RoundSummary} {round : RoundSummary} {r : ℤ}

theorem byRound_some (h : byRound log r = some round) : round ∈ log ∧ round.roundNo = r :=
  ⟨List.mem_reverse.mp (List.mem_of_find?_eq_some h), by simpa using List.find?_some h⟩

theorem exists_byRound (h : round ∈ log) (hr : round.roundNo = r) : ∃ found, byRound log r = some found := by
  refine Option.isSome_iff_exists.mp ?_
  unfold byRound
  rw [List.find?_isSome]
  exact ⟨round, List.mem_reverse.mpr h, by simpa using hr⟩

theorem IsLog.chain_eq (hlog : IsLog chain log) (h : byRound log r = some round) : chain r = some round := by
  obtain ⟨hmem, rfl⟩ := byRound_some h
  exact hlog round hmem

/-- In a log of the chain there is one record of a round. -/
theorem IsLog.byRound_eq (hlog : IsLog chain log) (h : round ∈ log) (hr : round.roundNo = r) :
    byRound log r = some round := by
  obtain ⟨found, hfound⟩ := exists_byRound h hr
  have hchain := hlog.chain_eq hfound
  rw [← hr, hlog round h] at hchain
  rw [hfound, hchain]

/-- The round is over as the log has it. -/
def FinalIn (log : List RoundSummary) (r : ℤ) : Prop :=
  ∃ round, byRound log r = some round ∧ roundIsFinal round.phase = true

theorem IsLog.finalIn_iff (hlog : IsLog chain log) :
    FinalIn log r ↔ ∃ round ∈ log, round.roundNo = r ∧ roundIsFinal round.phase = true := by
  constructor
  · rintro ⟨round, hround, hfinal⟩
    exact ⟨round, (byRound_some hround).1, (byRound_some hround).2, hfinal⟩
  · rintro ⟨round, hmem, hr, hfinal⟩
    exact ⟨round, hlog.byRound_eq hmem hr, hfinal⟩

theorem FinalIn.finalAt (h : FinalIn log r) (hlog : IsLog chain log) : FinalAt chain r := by
  obtain ⟨round, hround, hfinal⟩ := h
  exact ⟨round, hlog.chain_eq hround, hfinal⟩

theorem unitsAt_some {wallet : String} (h : chain r = some round) : unitsAt chain wallet r = playerUnits round wallet := by
  simp [unitsAt, h]

theorem playerUnits_eq_zero {wallet : String} (h : ∀ player ∈ round.players, player.wallet ≠ wallet) :
    playerUnits round wallet = 0 := by
  unfold playerUnits
  rw [List.filter_eq_nil_iff.mpr fun player hplayer => by simpa using h player hplayer]
  rfl

end

/-! ## Booking -/

/-- The cursor went from `c` to `c'` on its way to `last`, over rounds that are over in the log, and stopped early
only at one that is not. -/
structure Walked (log : List RoundSummary) (last c units c' units' : ℤ) : Prop where
  le : c ≤ c'
  le_last : c' ≤ last
  passed : ∀ r, c < r → r ≤ c' → FinalIn log r
  stopped : c' < last → ¬ FinalIn log (c' + 1)
  same : c' = c → units' = units

theorem Walked.stay {log : List RoundSummary} {last c units : ℤ} (hle : c ≤ last)
    (h : c < last → ¬ FinalIn log (c + 1)) : Walked log last c units c units :=
  ⟨le_rfl, hle, fun _ hr hr' => absurd hr hr'.not_gt, h, fun _ => rfl⟩

/-- The walk; what each booked round keeps holds at its end. -/
theorem bookWalk_spec {log : List RoundSummary} {you : String} {last : ℤ} {I : ℤ → ℤ → Prop}
    (hstep : ∀ c units round, c < last → byRound log (c + 1) = some round → roundIsFinal round.phase = true → I c units →
      I (c + 1) (units + playerUnits round you))
    (n : ℕ) {c units : ℤ} (hn : c + n = last) (h : I c units) :
    ∃ c' units', bookWalk log you n (c + 1) units (some c) = (units', some c') ∧ I c' units' ∧
      Walked log last c units c' units' := by
  induction n generalizing c units with
  | zero => exact ⟨c, units, rfl, h, Walked.stay (by omega) (by omega)⟩
  | succ n ih =>
      cases hround : byRound log (c + 1) with
      | none =>
          exact ⟨c, units, by simp [bookWalk, hround], h, Walked.stay (by omega) fun _ => by simp [FinalIn, hround]⟩
      | some round =>
          cases hfinal : roundIsFinal round.phase with
          | false =>
              exact ⟨c, units, by simp [bookWalk, hround, hfinal], h,
                Walked.stay (by omega) fun _ => by simp [FinalIn, hround, hfinal]⟩
          | true =>
              have hnext := hstep c units round (by omega) hround hfinal h
              obtain ⟨c', units', hwalk, hI, hwalked⟩ := ih (by push_cast at hn; omega) hnext
              have hle := hwalked.le
              refine ⟨c', units', by simpa [bookWalk, hround, hfinal] using hwalk, hI, ?_⟩
              constructor
              case le => omega
              case le_last => exact hwalked.le_last
              case passed =>
                intro r hr hr'
                rcases (Int.add_one_le_of_lt hr).eq_or_lt with rfl | hlt
                · exact ⟨round, hround, hfinal⟩
                · exact hwalked.passed r hlt hr'
              case stopped => exact hwalked.stopped
              case same => omega

/-- A register that someone else, or nobody, asks to book stays as it is. -/
theorem bookSettledRounds_other {p : RunPnl} {log : List RoundSummary} {you : String} (hwallet : p.wallet ≠ "")
    (hyou : you ≠ p.wallet) : bookSettledRounds p log you = p := by
  unfold bookSettledRounds
  cases p.lastEnteredRound with
  | none => rfl
  | some last =>
      by_cases hnobody : you = ""
      · simp [hnobody]
      · simp [hnobody, hwallet, Ne.symm hyou]

/-- What booking does for the run's own account. -/
theorem bookSettledRounds_spec {log : List RoundSummary} {wallet : String} {I : ℤ → ℤ → Prop} {units through last : ℤ}
    (hwallet : wallet ≠ "") (hle : through ≤ last)
    (hstep : ∀ c units round, c < last → byRound log (c + 1) = some round → roundIsFinal round.phase = true → I c units →
      I (c + 1) (units + playerUnits round wallet)) (h : I through units) :
    ∃ through' units', bookSettledRounds ⟨units, some through, some last, wallet⟩ log wallet =
        ⟨units', some through', some last, wallet⟩ ∧
      I through' units' ∧ Walked log last through units through' units' := by
  obtain ⟨through', units', hwalk, hI, hwalked⟩ :=
    bookWalk_spec hstep (last - through).toNat (show through + ((last - through).toNat : ℤ) = last by omega) h
  refine ⟨through', units', ?_, hI, hwalked⟩
  have hle' := hwalked.le
  have hlast := hwalked.le_last
  by_cases hsquare : last < through + 1
  · -- nothing is outstanding
    obtain rfl : through' = through := by omega
    simp [bookSettledRounds, RunPnl.next, hwallet, hsquare, hwalked.same rfl]
  · by_cases hmoved : through' = through
    · subst hmoved
      simp [bookSettledRounds, RunPnl.next, hwallet, hwalk, hwalked.same rfl]
    · simp [bookSettledRounds, RunPnl.next, hwallet, hsquare, hwalk, hmoved]

/-! ## What is open -/

theorem unitsAt_byRound_snoc {log : List RoundSummary} {round : RoundSummary} (wallet : String)
    (hnew : round.roundNo ∉ log.map RoundSummary.roundNo) (r : ℤ) :
    unitsAt (byRound (log ++ [round])) wallet r =
      unitsAt (byRound log) wallet r + if r = round.roundNo then playerUnits round wallet else 0 := by
  have hsnoc : byRound (log ++ [round]) r = if round.roundNo = r then some round else byRound log r := by
    by_cases hr : round.roundNo = r <;> simp [byRound, hr]
  unfold unitsAt
  rw [hsnoc]
  by_cases hr : round.roundNo = r
  · -- no earlier record is of this round
    have hnone : byRound log r = none := by
      unfold byRound
      rw [List.find?_eq_none]
      intro other hother hsame
      refine hnew (List.mem_map.mpr ⟨other, List.mem_reverse.mp hother, ?_⟩)
      rw [hr]
      exact of_decide_eq_true hsame
    simp [hr, hnone]
  · simp [hr, Ne.symm hr]

/-- What `readRunPnl` adds up is open in the marked rounds, where the others weigh nothing. -/
theorem openUnits_eq {log : List RoundSummary} {wallet : String} {marks : List ℤ} {through last : ℤ}
    (hdistinct : (log.map RoundSummary.roundNo).Nodup) (hmarks : marks.Nodup) (hlast : ∀ r ∈ marks, r ≤ last)
    (hrest : ∀ round ∈ log, through < round.roundNo → round.roundNo ≤ last → round.roundNo ∉ marks →
      playerUnits round wallet = 0) :
    ((log.filter fun round => through + 1 ≤ round.roundNo ∧ round.roundNo ≤ last).map (playerUnits · wallet)).sum =
      ((marks.filter (through < ·)).map (unitsAt (byRound log) wallet)).sum := by
  induction log using List.reverseRecOn with
  | nil =>
      have hnone : unitsAt (byRound []) wallet = fun _ => 0 := rfl
      simp [hnone]
  | append_singleton log round ih =>
      rw [List.map_append, List.nodup_append] at hdistinct
      have hnew : round.roundNo ∉ log.map RoundSummary.roundNo := fun hmem =>
        hdistinct.2.2 _ hmem _ (List.mem_singleton_self _) rfl
      have ih := ih hdistinct.1 fun other hother => hrest other (by simp [hother])
      have hhere := hrest round (by simp)
      rw [List.map_congr_left fun r _ => unitsAt_byRound_snoc wallet hnew r, sum_raise _ (hmarks.filter _), ← ih,
        List.filter_append, List.map_append, List.sum_append]
      congr 1
      have hmem : round.roundNo ∈ marks.filter (through < ·) ↔ round.roundNo ∈ marks ∧ through < round.roundNo := by
        simp
      by_cases hin : through + 1 ≤ round.roundNo ∧ round.roundNo ≤ last
      · rw [List.filter_cons_of_pos (by simpa using hin)]
        by_cases hmark : round.roundNo ∈ marks
        · rw [if_pos (hmem.mpr ⟨hmark, hin.1⟩)]
          simp
        · rw [if_neg fun h => hmark (hmem.mp h).1]
          simp [hhere hin.1 hin.2 hmark]
      · rw [List.filter_cons_of_neg (by simpa using hin), if_neg fun h => ?_]
        · simp
        · exact hin ⟨(hmem.mp h).2, hlast _ (hmem.mp h).1⟩

end BullsUnicorns.Repeat
