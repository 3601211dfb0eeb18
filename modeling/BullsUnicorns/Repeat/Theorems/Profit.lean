import BullsUnicorns.Repeat.Lemmas.Profit

/-!
# The profit register is exact although the log forgets

Whatever the order, the repetition and the gaps of the logs, the register holds the sum over the entered rounds
below its cursor, and the cursor passes only rounds that a log has shown to be over.
-/

namespace BullsUnicorns.Repeat

open Cursor

/-- At or below the cursor. -/
def RunPnl.booked (p : RunPnl) (r : ℤ) : Bool := p.bookedThrough.any (r ≤ ·)

/-- Above the cursor, and not newer than the newest entered round. -/
def RunPnl.owes (p : RunPnl) (r : ℤ) : Bool := !p.booked r && p.lastEnteredRound.any (r ≤ ·)

/-- The round above the cursor, where something is outstanding. -/
def RunPnl.Oldest (p : RunPnl) (r : ℤ) : Prop := IsLeast {q | p.owes q = true} r

/-- The log has the round as one that is over. -/
def ShownFinal (log : List RoundSummary) (r : ℤ) : Prop :=
  ∃ round ∈ log, round.roundNo = r ∧ roundIsFinal round.phase = true

/-- The log has the round, or nothing as new. -/
def Pending (log : List RoundSummary) (r : ℤ) : Prop :=
  (∃ round ∈ log, round.roundNo = r) ∨ ∃ newest, newestRound log = some newest ∧ newest < r

namespace PnlRun

variable (wallet : String)

/-- The final movements of the entered rounds that are booked, and of the others what the log has of them. -/
def figure (s : PnlRun) (log : List RoundSummary) : ℤ :=
  (s.entered.map fun r => if s.pnl.booked r then unitsAt s.chain wallet r else unitsAt (byRound log) wallet r).sum

/-- What the register of a run holds. -/
structure RegisterExact (s : PnlRun) : Prop where
  newest : s.pnl.lastEnteredRound = s.entered.getLast?
  bounded : ∀ through, s.pnl.bookedThrough = some through → ∃ last, s.pnl.lastEnteredRound = some last ∧ through ≤ last
  final : ∀ r ∈ s.entered, s.pnl.booked r = true → FinalAt s.chain r
  exact : s.pnl.settledUnits = ((s.entered.filter s.pnl.booked).map (unitsAt s.chain wallet)).sum

/-- What one call of `bookSettledRounds` does. -/
structure BookingSound (p p' : RunPnl) (log : List RoundSummary) (you : String) : Prop where
  shown : ∀ r, p'.booked r = true → p.booked r = false → ShownFinal log r
  stopped : you = wallet → ∀ r, p'.Oldest r → ¬ ShownFinal log r
  same : p'.bookedThrough = p.bookedThrough → p' = p

/-- What `readRunPnl` answers. -/
structure ReadingSound (s : PnlRun) (log : List RoundSummary) (you : String) : Prop where
  known : ∀ usd, readRunPnl s.pnl log you = .known usd ↔
    usd = unitsToUsd (s.figure wallet log) ∧
      (s.entered = [] ∨ you = wallet ∧ ∀ next, s.pnl.Oldest next → Pending log next)
  unreadable : ∀ usd, readRunPnl s.pnl log you = .unreadable usd ↔
    usd = unitsToUsd s.pnl.settledUnits ∧ s.entered ≠ [] ∧
      (you ≠ wallet ∨ ∃ next, s.pnl.Oldest next ∧ ¬ Pending log next ∧
        ∀ newest, newestRound log = some newest → guaranteedFrom newest ≤ next)
  gap : ∀ next usd, readRunPnl s.pnl log you = .gap next usd ↔
    usd = unitsToUsd s.pnl.settledUnits ∧ you = wallet ∧ s.pnl.Oldest next ∧ ¬ Pending log next ∧
      ∃ newest, newestRound log = some newest ∧ next < guaranteedFrom newest

/-! ## The invariant -/

/-- A run that has entered `last`, with the cursor at `through`. -/
structure Entered (s : PnlRun) (units through last : ℤ) : Prop where
  pnl : s.pnl = ⟨units, some through, some last, wallet⟩
  increasing : s.entered.Pairwise (· < ·)
  last_mem : last ∈ s.entered
  le_last : ∀ r ∈ s.entered, r ≤ last
  through_le : through ≤ last
  /-- The cursor never stands further down than below the first entered round. -/
  first : ∃ q ∈ s.entered, q ≤ through + 1
  final : ∀ r ∈ s.entered, r ≤ through → FinalAt s.chain r
  exact : units = sumThrough (unitsAt s.chain wallet) s.entered through

/-- Nothing has been entered, or the register is about the entered rounds. -/
def Accounted (s : PnlRun) : Prop :=
  s.entered = [] ∧ s.pnl = EMPTY_RUN_PNL ∨ ∃ units through last, s.Entered wallet units through last

variable {wallet} {s : PnlRun} {units through last : ℤ}

theorem Entered.nodup (h : s.Entered wallet units through last) : s.entered.Nodup :=
  h.increasing.imp fun {_ _} hlt => ne_of_lt hlt

/-- A round above the cursor that the rule did not enter weighs nothing. -/
theorem Entered.unentered (h : s.Entered wallet units through last) (hoff : s.HandsOff wallet) {r : ℤ} (hr : through < r)
    (hle : r ≤ last) (hnot : r ∉ s.entered) {round : RoundSummary} (hround : s.chain r = some round) :
    playerUnits round wallet = 0 := by
  obtain ⟨q, hq, hfirst⟩ := h.first
  have hbelow : q < r := lt_of_le_of_ne (by omega) fun heq => hnot (heq ▸ hq)
  have habove : r < last := lt_of_le_of_ne hle fun heq => hnot (heq ▸ h.last_mem)
  exact playerUnits_eq_zero (hoff r round hround ⟨q, hq, hbelow⟩ ⟨last, h.last_mem, habove⟩ hnot)

theorem Accounted.armed (chain : ℤ → Option RoundSummary) : (armed chain).Accounted wallet := .inl ⟨rfl, rfl⟩

/-- The chain moves on. -/
theorem Entered.chain (h : s.Entered wallet units through last) {records : ℤ → Option RoundSummary}
    (hallowed : s.Allowed (.chain records)) : Entered wallet { s with chain := records } units through last := by
  constructor
  case pnl => exact h.pnl
  case increasing => exact h.increasing
  case last_mem => exact h.last_mem
  case le_last => exact h.le_last
  case through_le => exact h.through_le
  case first => exact h.first
  case final =>
    intro r hr hle
    obtain ⟨round, hround, hfinal⟩ := h.final r hr hle
    exact ⟨round, hallowed r round hround hfinal, hfinal⟩
  case exact =>
    rw [h.exact]
    refine sumThrough_congr fun r hr hle => ?_
    obtain ⟨round, hround, hfinal⟩ := h.final r hr hle
    rw [unitsAt_some hround, unitsAt_some (hallowed r round hround hfinal)]

/-- The first round of a run. -/
theorem Entered.begin (hentered : s.entered = []) (hpnl : s.pnl = EMPTY_RUN_PNL) (r : ℤ) :
    Entered wallet { s with entered := s.entered ++ [r], pnl := pnlEntered s.pnl r wallet } 0 (r - 1) r := by
  constructor
  case pnl => simp [hpnl, pnlEntered, EMPTY_RUN_PNL]
  case exact => simp [hentered, sumThrough]
  all_goals simp [hentered]

/-- A further round: with the books square the cursor comes along. -/
theorem Entered.next (h : s.Entered wallet units through last) {r : ℤ} (hallowed : s.Allowed (.entered r)) :
    Entered wallet { s with entered := s.entered ++ [r], pnl := pnlEntered s.pnl r wallet } units
      (if through = last then r - 1 else through) r := by
  have hnewer : last < r := hallowed last h.last_mem
  have hthrough := h.through_le
  obtain ⟨q, hq, hfirst⟩ := h.first
  have hup : through ≤ if through = last then r - 1 else through := by
    split <;> omega
  -- the cursor passes no entered round
  have hjump : ∀ a ∈ s.entered, (a ≤ if through = last then r - 1 else through) → a ≤ through := by
    intro a ha hle
    split at hle
    · have := h.le_last a ha
      omega
    · exact hle
  have hbelow : (if through = last then r - 1 else through) < r := by
    split <;> omega
  constructor
  case pnl =>
    by_cases hsquare : through = last <;> simp [h.pnl, pnlEntered, hnewer.not_ge, hsquare]
  case increasing =>
    refine List.pairwise_append.mpr ⟨h.increasing, List.pairwise_singleton _ _, fun a ha b hb => ?_⟩
    cases List.mem_singleton.mp hb
    exact hallowed a ha
  case last_mem => simp
  case le_last =>
    intro a ha
    rcases List.mem_append.mp ha with ha | ha
    · exact (hallowed a ha).le
    · exact (List.mem_singleton.mp ha).le
  case through_le => exact hbelow.le
  case first => exact ⟨q, by simp [hq], by omega⟩
  case final =>
    intro a ha hle
    rcases List.mem_append.mp ha with ha | ha
    · exact h.final a ha (hjump a ha hle)
    · cases List.mem_singleton.mp ha
      omega
  case exact =>
    dsimp only
    rw [sumThrough_snoc hbelow, sumThrough_jump hup hjump]
    exact h.exact

/-- A log is booked for the run's own account. -/
theorem Entered.book (h : s.Entered wallet units through last) (hwallet : wallet ≠ "") (hoff : s.HandsOff wallet)
    {log : List RoundSummary} (hlog : IsLog s.chain log) :
    ∃ units' through', Entered wallet { s with pnl := bookSettledRounds s.pnl log wallet } units' through' last ∧
      Walked log last through units through' units' := by
  have hstep (c u : ℤ) (round : RoundSummary) (hc : c < last) (hround : byRound log (c + 1) = some round)
      (_ : roundIsFinal round.phase = true)
      (hI : through ≤ c ∧ u = sumThrough (unitsAt s.chain wallet) s.entered c) :
      through ≤ c + 1 ∧
        u + playerUnits round wallet = sumThrough (unitsAt s.chain wallet) s.entered (c + 1) := by
    obtain ⟨hle, rfl⟩ := hI
    have hchain := hlog.chain_eq hround
    refine ⟨by omega, ?_⟩
    rw [sumThrough_next h.nodup fun hnot => ?_, unitsAt_some hchain]
    rw [unitsAt_some hchain]
    exact h.unentered hoff (by omega) (by omega) hnot hchain
  obtain ⟨through', units', hbook, ⟨-, hexact⟩, hwalked⟩ :=
    bookSettledRounds_spec hwallet h.through_le hstep ⟨le_rfl, h.exact⟩
  have hle := hwalked.le
  refine ⟨units', through', ?_, hwalked⟩
  constructor
  case pnl => rw [h.pnl, hbook]
  case increasing => exact h.increasing
  case last_mem => exact h.last_mem
  case le_last => exact h.le_last
  case through_le => exact hwalked.le_last
  case first =>
    obtain ⟨q, hq, hfirst⟩ := h.first
    exact ⟨q, hq, by omega⟩
  case final =>
    intro r hr hr'
    rcases le_or_gt r through with hold | hnew
    · exact h.final r hr hold
    · exact (hwalked.passed r hnew hr').finalAt hlog
  case exact => exact hexact

/-! ## What the invariant says -/

theorem Entered.booked_iff (h : s.Entered wallet units through last) (r : ℤ) : s.pnl.booked r = true ↔ r ≤ through := by
  simp [RunPnl.booked, h.pnl]

theorem Entered.owes_iff (h : s.Entered wallet units through last) (r : ℤ) :
    s.pnl.owes r = true ↔ through < r ∧ r ≤ last := by
  simp [RunPnl.owes, RunPnl.booked, h.pnl]

theorem Entered.oldest_iff (h : s.Entered wallet units through last) (r : ℤ) :
    s.pnl.Oldest r ↔ through < last ∧ r = through + 1 := by
  constructor
  · rintro ⟨howes, hleast⟩
    have hr := (h.owes_iff r).mp howes
    have hnext : s.pnl.owes (through + 1) = true := (h.owes_iff _).mpr ⟨by omega, by omega⟩
    have := hleast hnext
    omega
  · rintro ⟨hlt, rfl⟩
    refine ⟨(h.owes_iff _).mpr ⟨by omega, by omega⟩, fun q hq => ?_⟩
    have := (h.owes_iff q).mp hq
    omega

theorem Entered.entered_ne_nil (h : s.Entered wallet units through last) : s.entered ≠ [] :=
  List.ne_nil_of_mem h.last_mem

theorem Entered.registerExact (h : s.Entered wallet units through last) : s.RegisterExact wallet := by
  constructor
  case newest =>
    obtain ⟨earlier, q, hentered⟩ := List.eq_nil_or_concat s.entered |>.resolve_left h.entered_ne_nil
    have hq : q = last := by
      have hpair := h.increasing
      have hmem := h.last_mem
      have hle := h.le_last q (by simp [hentered])
      rw [hentered, List.concat_eq_append] at hpair hmem
      rcases List.mem_append.mp hmem with hmem | hmem
      · exact absurd ((List.pairwise_append.mp hpair).2.2 last hmem q (by simp)) hle.not_gt
      · exact (List.mem_singleton.mp hmem).symm
    simp [h.pnl, hentered, hq]
  case bounded =>
    intro c hc
    simp only [h.pnl, Option.some.injEq] at hc
    exact ⟨last, by simp [h.pnl], hc ▸ h.through_le⟩
  case final => exact fun r hr hbooked => h.final r hr ((h.booked_iff r).mp hbooked)
  case exact =>
    rw [h.pnl, h.exact]
    rfl

theorem Accounted.registerExact (h : s.Accounted wallet) : s.RegisterExact wallet := by
  rcases h with ⟨hentered, hpnl⟩ | ⟨units, through, last, h⟩
  · constructor <;> simp [hentered, hpnl, EMPTY_RUN_PNL]
  · exact h.registerExact

/-! ## One act -/

/-- A log, whoever reads it. -/
theorem Accounted.book (h : s.Accounted wallet) (hwallet : wallet ≠ "") (hoff : s.HandsOff wallet)
    {log : List RoundSummary} (hlog : IsLog s.chain log) (you : String) :
    Accounted wallet { s with pnl := bookSettledRounds s.pnl log you } ∧
      BookingSound wallet s.pnl (bookSettledRounds s.pnl log you) log you := by
  have hidle (hsame : bookSettledRounds s.pnl log you = s.pnl)
      (hstopped : you = wallet → ∀ r, s.pnl.Oldest r → ¬ ShownFinal log r) :
      Accounted wallet { s with pnl := bookSettledRounds s.pnl log you } ∧
        BookingSound wallet s.pnl (bookSettledRounds s.pnl log you) log you := by
    rw [hsame]
    exact ⟨h, fun r hr hr' => by simp [hr] at hr', hstopped, fun _ => rfl⟩
  rcases h with ⟨hentered, hpnl⟩ | ⟨units, through, last, h⟩
  · refine hidle (by rw [hpnl]; rfl) fun _ r hr => ?_
    have howes := hr.1
    simp [hpnl, EMPTY_RUN_PNL, RunPnl.owes] at howes
  rcases eq_or_ne you wallet with rfl | hne
  · obtain ⟨units', through', h', hwalked⟩ := h.book hwallet hoff hlog
    have hpnl' : bookSettledRounds s.pnl log you = ⟨units', some through', some last, you⟩ := h'.pnl
    refine ⟨.inr ⟨units', through', last, h'⟩, ?_⟩
    constructor
    case shown =>
      intro r hr hr'
      have hr := (h'.booked_iff r).mp hr
      have hr' : ¬ r ≤ through := by simpa [hr'] using (h.booked_iff r).not
      exact hlog.finalIn_iff.mp (hwalked.passed r (not_le.mp hr') hr)
    case stopped =>
      rintro - r hr
      obtain ⟨hlt, rfl⟩ := (h'.oldest_iff r).mp hr
      exact fun hshown => hwalked.stopped hlt (hlog.finalIn_iff.mpr hshown)
    case same =>
      intro hsame
      rw [hpnl', h.pnl] at hsame ⊢
      have hthrough : through' = through := by simpa using hsame
      rw [hthrough, hwalked.same hthrough]
  · exact hidle (bookSettledRounds_other (by simpa [h.pnl] using hwallet) (by simpa [h.pnl] using hne))
      fun heq => absurd heq hne

/-- One act: the register stays about the entered rounds, and its cursor only goes up. -/
theorem Accounted.step (h : s.Accounted wallet) (hwallet : wallet ≠ "") {act : PnlAct} (hact : s.Regular wallet act) :
    ((pnlRun wallet).attempt s act).Accounted wallet ∧
      ∀ r, s.pnl.booked r = true → ((pnlRun wallet).attempt s act).pnl.booked r = true := by
  obtain ⟨hallowed, hoff⟩ := hact
  cases act with
  | chain records =>
      rcases h with hnone | ⟨units, through, last, h⟩
      · exact ⟨.inl hnone, fun r hr => hr⟩
      · exact ⟨.inr ⟨units, through, last, h.chain hallowed⟩, fun r hr => hr⟩
  | entered roundNo =>
      rcases h with ⟨hentered, hpnl⟩ | ⟨units, through, last, h⟩
      · refine ⟨.inr ⟨0, roundNo - 1, roundNo, Entered.begin hentered hpnl roundNo⟩, fun r hr => ?_⟩
        simp [hpnl, EMPTY_RUN_PNL, RunPnl.booked] at hr
      · have hnext := h.next hallowed
        have hnewer : last < roundNo := hallowed last h.last_mem
        refine ⟨.inr ⟨_, _, _, hnext⟩, fun r hr => (hnext.booked_iff r).mpr ?_⟩
        have hr := (h.booked_iff r).mp hr
        have hle := h.through_le
        split <;> omega
  | booked log you =>
      have hbook := h.book hwallet hoff hallowed you
      refine ⟨hbook.1, fun r hr => ?_⟩
      rcases h with ⟨hentered, hpnl⟩ | ⟨units, through, last, h⟩
      · simp [hpnl, EMPTY_RUN_PNL, RunPnl.booked] at hr
      rcases eq_or_ne you wallet with rfl | hne
      · obtain ⟨units', through', h', hwalked⟩ := h.book hwallet hoff hallowed
        exact (h'.booked_iff r).mpr (((h.booked_iff r).mp hr).trans hwalked.le)
      · rw [pnlRun_booked,
          bookSettledRounds_other (by simpa [h.pnl] using hwallet) (by simpa [h.pnl] using hne)]
        exact hr

/-! ## The readings -/

/-- The figure is the register's total with what the log has of the open rounds. -/
theorem Entered.figure_eq (h : s.Entered wallet units through last) (hoff : s.HandsOff wallet)
    {log : List RoundSummary} (hlog : IsLog s.chain log) (hnodup : log.Nodup) :
    s.figure wallet log = units +
      ((log.filter fun round => through + 1 ≤ round.roundNo ∧ round.roundNo ≤ last).map (playerUnits · wallet)).sum := by
  have hdistinct : (log.map RoundSummary.roundNo).Nodup := by
    refine (List.nodup_map_iff_inj_on hnodup).mpr fun a ha b hb hab => ?_
    have hchain := hlog a ha
    rw [hab, hlog b hb] at hchain
    exact (Option.some.inj hchain).symm
  rw [openUnits_eq hdistinct h.nodup h.le_last, h.exact, ← sum_split, figure]
  · congr 1
    refine List.map_congr_left fun r _ => ?_
    simp only [h.booked_iff]
  · exact fun round hround hlt hle hnot => h.unentered hoff hlt hle hnot (hlog round hround)

theorem Entered.figure_square (h : s.Entered wallet units through last) (hsquare : ¬ through < last)
    (log : List RoundSummary) : s.figure wallet log = units := by
  have habove : s.entered.filter (through < ·) = [] :=
    List.filter_eq_nil_iff.mpr fun r hr => by
      have := h.le_last r hr
      simp only [decide_eq_true_eq]
      omega
  have hsplit := sum_split (unitsAt s.chain wallet) (unitsAt (byRound log) wallet) s.entered through
  rw [habove, ← h.exact, List.map_nil, List.sum_nil, add_zero] at hsplit
  rw [figure, ← hsplit]
  congr 1
  refine List.map_congr_left fun r _ => ?_
  simp only [h.booked_iff]

theorem newestRound_eq_none {log : List RoundSummary} : newestRound log = none ↔ log = [] := by
  simp [newestRound]

/-- What the run's own account is told while something is outstanding. -/
theorem Entered.read_open (h : s.Entered wallet units through last) (hwallet : wallet ≠ "") (hoff : s.HandsOff wallet)
    (hopen : through < last) {log : List RoundSummary} (hlog : IsLog s.chain log) (hnodup : log.Nodup) :
    readRunPnl s.pnl log wallet =
      match newestRound log with
      | none => .unreadable (unitsToUsd units)
      | some newest =>
          if log.any (·.roundNo = through + 1) then .known (unitsToUsd (s.figure wallet log))
          else if newest < through + 1 then .known (unitsToUsd (s.figure wallet log))
          else if guaranteedFrom newest ≤ through + 1 then .unreadable (unitsToUsd units)
          else .gap (through + 1) (unitsToUsd units) := by
  have hnext : ¬ last < through + 1 := by omega
  rw [h.figure_eq hoff hlog hnodup, h.pnl]
  simp only [readRunPnl, RunPnl.next, Option.getD_some, hwallet, hnext, ne_eq, not_true, and_false, if_false]
  cases newestRound log <;> rfl

theorem Entered.read_square (h : s.Entered wallet units through last) (hwallet : wallet ≠ "") (hsquare : ¬ through < last)
    (log : List RoundSummary) : readRunPnl s.pnl log wallet = .known (unitsToUsd (s.figure wallet log)) := by
  have hnext : last < through + 1 := by omega
  rw [h.figure_square hsquare, h.pnl]
  simp only [readRunPnl, RunPnl.next, Option.getD_some, hwallet, hnext, ne_eq, not_true, and_false, if_false, if_true]

theorem Entered.read_other (h : s.Entered wallet units through last) (hwallet : wallet ≠ "") {you : String}
    (hyou : you ≠ wallet) (log : List RoundSummary) : readRunPnl s.pnl log you = .unreadable (unitsToUsd units) := by
  rw [h.pnl]
  by_cases hnobody : you = ""
  · simp [readRunPnl, hnobody]
  · simp [readRunPnl, hnobody, hwallet, hyou.symm]

theorem Accounted.reads (h : s.Accounted wallet) (hwallet : wallet ≠ "") (hoff : s.HandsOff wallet)
    {log : List RoundSummary} (hlog : IsLog s.chain log) (hnodup : log.Nodup) (you : String) :
    s.ReadingSound wallet log you := by
  rcases h with ⟨hentered, hpnl⟩ | ⟨units, through, last, h⟩
  · have hread : readRunPnl s.pnl log you = .known 0 := by rw [hpnl]; rfl
    have howes (r : ℤ) : ¬ s.pnl.Oldest r := fun hr => by
      have := hr.1
      simp [hpnl, EMPTY_RUN_PNL, RunPnl.owes] at this
    have hfigure : s.figure wallet log = 0 := by simp [figure, hentered]
    constructor <;> simp [hread, hentered, hfigure, howes, unitsToUsd, eq_comm]
  have hne := h.entered_ne_nil
  have hunits : s.pnl.settledUnits = units := by rw [h.pnl]
  rcases ne_or_eq you wallet with hyou | rfl
  · have hread := h.read_other hwallet hyou log
    constructor <;> simp [hread, hne, hyou, hunits, eq_comm]
  by_cases hopen : through < last
  · have hread := h.read_open hwallet hoff hopen hlog hnodup
    have holdest (r : ℤ) : s.pnl.Oldest r ↔ r = through + 1 := by
      rw [h.oldest_iff]
      exact and_iff_right hopen
    cases hnewest : newestRound log with
    | none =>
        have hpending : ¬ Pending log (through + 1) := by
          simp [Pending, newestRound_eq_none.mp hnewest, newestRound]
        rw [hnewest] at hread
        constructor <;> simp [hread, hne, hunits, holdest, hpending, hnewest, eq_comm]
    | some newest =>
        simp only [hnewest] at hread
        by_cases hin : ∃ round ∈ log, round.roundNo = through + 1
        · have hpending : Pending log (through + 1) := .inl hin
          rw [if_pos (by simpa using hin)] at hread
          constructor <;> simp [hread, hne, holdest, hpending, eq_comm]
        rw [if_neg (by simpa using hin)] at hread
        by_cases hnew : newest < through + 1
        · have hpending : Pending log (through + 1) := .inr ⟨newest, hnewest, hnew⟩
          rw [if_pos hnew] at hread
          constructor <;> simp [hread, hne, holdest, hpending, eq_comm]
        have hpending : ¬ Pending log (through + 1) := by
          rintro (hin' | ⟨n, hn, hlt⟩)
          · exact hin hin'
          · rw [hnewest] at hn
            cases hn
            exact hnew hlt
        rw [if_neg hnew] at hread
        by_cases hkept : guaranteedFrom newest ≤ through + 1
        · rw [if_pos hkept] at hread
          constructor <;> simp [hread, hne, hunits, holdest, hpending, hnewest, hkept, eq_comm]
        · rw [if_neg hkept] at hread
          constructor
          case known => simp [hread, hne, holdest, hpending]
          case unreadable => simp [hread, holdest, hnewest, hkept]
          case gap =>
            intro next usd
            rw [hread, hunits, holdest, RunPnlReading.gap.injEq]
            constructor
            · rintro ⟨rfl, rfl⟩
              exact ⟨rfl, rfl, rfl, hpending, newest, hnewest, not_le.mp hkept⟩
            · rintro ⟨rfl, -, rfl, -⟩
              exact ⟨rfl, rfl⟩
  · have hread := h.read_square hwallet hopen log
    have howes (r : ℤ) : ¬ s.pnl.Oldest r := fun hr => hopen ((h.oldest_iff r).mp hr).1
    constructor <;> simp [hread, hne, howes, eq_comm]

/-! ## Whole runs -/

theorem accounted_run (hwallet : wallet ≠ "") (acts : List PnlAct)
    (h : (pnlRun wallet).Each (Regular wallet) s acts) (hs : s.Accounted wallet) (hoff : s.HandsOff wallet) :
    ((pnlRun wallet).run s acts).Accounted wallet ∧ ((pnlRun wallet).run s acts).HandsOff wallet ∧
      ∀ r, s.pnl.booked r = true → ((pnlRun wallet).run s acts).pnl.booked r = true := by
  induction acts generalizing s with
  | nil => exact ⟨hs, hoff, fun _ hr => hr⟩
  | cons act acts ih =>
      obtain ⟨hact, hacts⟩ := h
      obtain ⟨hs', hup⟩ := hs.step hwallet hact
      obtain ⟨hrun, hoff', hups⟩ := ih hacts hs' hact.2
      exact ⟨hrun, hoff', fun r hr => hups r (hup r hr)⟩

end PnlRun

section

variable (wallet : String) (chain : ℤ → Option RoundSummary)

/-- The run after the first acts. -/
def pnlAfter (acts : List PnlAct) : PnlRun := (pnlRun wallet).run (PnlRun.armed chain) acts

/-- A run of the rule: each act is allowed, and the wallet is in no round between two entered ones that the rule
did not enter. -/
def RegularRun (acts : List PnlAct) : Prop := (pnlRun wallet).Each (PnlRun.Regular wallet) (PnlRun.armed chain) acts

/-- The log that some act books for the run's account has the round as over, and by then every older round of those
that are owed has been booked. -/
def ReadInTurn (acts : List PnlAct) (r : ℤ) : Prop :=
  ∃ before log after, acts = before ++ .booked log wallet :: after ∧ (pnlAfter wallet chain before).pnl.Oldest r ∧
    ShownFinal log r

/-- What the register of a run does and says, from the first act to the last. -/
structure RunPnlExact (acts : List PnlAct) : Prop where
  holds : (pnlAfter wallet chain acts).RegisterExact wallet
  /-- The cursor never goes down. -/
  rises : ∀ before after, acts = before ++ after → ∀ r, (pnlAfter wallet chain before).pnl.booked r = true →
    (pnlAfter wallet chain acts).pnl.booked r = true
  books : ∀ before log you after, acts = before ++ .booked log you :: after →
    PnlRun.BookingSound wallet (pnlAfter wallet chain before).pnl
      (bookSettledRounds (pnlAfter wallet chain before).pnl log you) log you
  /-- Where each round that was ever owed has been read in its turn, nothing is owed any more. -/
  catchesUp : (∀ before after, acts = before ++ after → ∀ r, (pnlAfter wallet chain before).pnl.owes r = true →
      ReadInTurn wallet chain acts r) →
    ∀ r ∈ (pnlAfter wallet chain acts).entered, (pnlAfter wallet chain acts).pnl.booked r = true
  reads : ∀ log you, IsLog (pnlAfter wallet chain acts).chain log → log.Nodup →
    (pnlAfter wallet chain acts).ReadingSound wallet log you
  /-- The total is that of every other run with the same entries and the same cursor on the same chain. -/
  same : ∀ chain' acts', RegularRun wallet chain' acts' →
    (∀ r round round', (pnlAfter wallet chain acts).chain r = some round → roundIsFinal round.phase = true →
      (pnlAfter wallet chain' acts').chain r = some round' → roundIsFinal round'.phase = true → round = round') →
    (pnlAfter wallet chain' acts').entered = (pnlAfter wallet chain acts).entered →
    (pnlAfter wallet chain' acts').pnl.bookedThrough = (pnlAfter wallet chain acts).pnl.bookedThrough →
    (pnlAfter wallet chain' acts').pnl.settledUnits = (pnlAfter wallet chain acts).pnl.settledUnits

variable {wallet chain} {acts : List PnlAct}

theorem handsOff_armed (wallet : String) (chain : ℤ → Option RoundSummary) : (PnlRun.armed chain).HandsOff wallet := by
  rintro r round - ⟨q, hq, -⟩
  cases hq

theorem RegularRun.after (h : RegularRun wallet chain acts) (hwallet : wallet ≠ "") :
    (pnlAfter wallet chain acts).Accounted wallet ∧ (pnlAfter wallet chain acts).HandsOff wallet := by
  obtain ⟨hs, hoff, -⟩ := PnlRun.accounted_run hwallet acts h (.armed chain) (handsOff_armed wallet chain)
  exact ⟨hs, hoff⟩

theorem RegularRun.split {before after : List PnlAct} (h : RegularRun wallet chain (before ++ after)) :
    RegularRun wallet chain before ∧ (pnlRun wallet).Each (PnlRun.Regular wallet) (pnlAfter wallet chain before) after :=
  (Machine.each_append _ _ _ _).mp h

theorem RegularRun.rises {before after : List PnlAct} (h : RegularRun wallet chain (before ++ after)) (hwallet : wallet ≠ "")
    {r : ℤ} (hr : (pnlAfter wallet chain before).pnl.booked r = true) :
    (pnlAfter wallet chain (before ++ after)).pnl.booked r = true := by
  obtain ⟨hbefore, hafter⟩ := h.split
  obtain ⟨hs, hoff⟩ := hbefore.after hwallet
  unfold pnlAfter
  rw [Machine.run_append]
  exact (PnlRun.accounted_run hwallet after hafter hs hoff).2.2 r hr

/-- A round that is read in its turn is booked. -/
theorem ReadInTurn.booked {r : ℤ} (h : ReadInTurn wallet chain acts r) (hacts : RegularRun wallet chain acts)
    (hwallet : wallet ≠ "") : (pnlAfter wallet chain acts).pnl.booked r = true := by
  obtain ⟨before, log, after, rfl, holdest, hshown⟩ := h
  rw [← List.singleton_append, ← List.append_assoc] at hacts ⊢
  refine hacts.rises hwallet ?_
  obtain ⟨hbefore, ⟨hlog, hoff'⟩, -⟩ := hacts.split.1.split
  obtain ⟨hs, hoff⟩ := hbefore.after hwallet
  rcases hs with ⟨-, hpnl⟩ | ⟨units, through, last, hs⟩
  · have howes := holdest.1
    simp [hpnl, EMPTY_RUN_PNL, RunPnl.owes] at howes
  obtain ⟨units', through', hs', hwalked⟩ := hs.book hwallet hoff hlog
  obtain ⟨hopen, rfl⟩ := (hs.oldest_iff r).mp holdest
  unfold pnlAfter
  rw [Machine.run_append, Machine.run_cons, Machine.run_nil, pnlRun_booked]
  refine (hs'.booked_iff _).mpr (Int.add_one_le_of_lt (lt_of_le_of_ne hwalked.le fun hsame => ?_))
  rw [hsame] at hopen hshown
  exact hwalked.stopped hopen (hlog.finalIn_iff.mpr hshown)

/-- Where nothing is owed every entered round is booked. -/
theorem PnlRun.Accounted.booked_of_square {s : PnlRun} (h : s.Accounted wallet)
    (hsquare : ∀ r, s.pnl.owes r = true → s.pnl.booked r = true) : ∀ r ∈ s.entered, s.pnl.booked r = true := by
  intro r hr
  rcases h with ⟨hentered, -⟩ | ⟨units, through, last, h⟩
  · simp [hentered] at hr
  · rcases le_or_gt r through with hle | hgt
    · exact (h.booked_iff r).mpr hle
    · exact hsquare r ((h.owes_iff r).mpr ⟨hgt, h.le_last r hr⟩)

/-- Two accounts of the same final records. -/
theorem PnlRun.RegisterExact.unique {s s' : PnlRun} (h : s.RegisterExact wallet) (h' : s'.RegisterExact wallet)
    (hchain : ∀ r round round', s.chain r = some round → roundIsFinal round.phase = true →
      s'.chain r = some round' → roundIsFinal round'.phase = true → round = round')
    (hentered : s'.entered = s.entered) (hthrough : s'.pnl.bookedThrough = s.pnl.bookedThrough) :
    s'.pnl.settledUnits = s.pnl.settledUnits := by
  have hbooked : s'.pnl.booked = s.pnl.booked := by
    funext r
    rw [RunPnl.booked, hthrough, RunPnl.booked]
  rw [h.exact, h'.exact, hentered, hbooked]
  congr 1
  refine List.map_congr_left fun r hr => ?_
  obtain ⟨hmem, hr⟩ := List.mem_filter.mp hr
  obtain ⟨round, hround, hfinal⟩ := h.final r hmem hr
  obtain ⟨round', hround', hfinal'⟩ := h'.final r (hentered ▸ hmem) (hbooked ▸ hr)
  rw [unitsAt_some hround, unitsAt_some hround', hchain r round round' hround hfinal hround' hfinal']

end

/-- Whatever is entered and booked, in whatever order and from whatever part of the chain, the register is exact:
its cursor steps over no round that is not over, its total is the sum below the cursor, and its readings say what
is known of the run. -/
theorem run_pnl_is_exact (wallet : String) (hwallet : wallet ≠ "") (chain : ℤ → Option RoundSummary)
    (acts : List PnlAct) (hacts : RegularRun wallet chain acts) : RunPnlExact wallet chain acts := by
  obtain ⟨hs, hoff⟩ := hacts.after hwallet
  constructor
  case holds => exact hs.registerExact
  case rises =>
    rintro before after rfl r hr
    exact hacts.rises hwallet hr
  case books =>
    rintro before log you after rfl
    obtain ⟨hbefore, ⟨hlog, -⟩, -⟩ := hacts.split
    obtain ⟨hs, hoff⟩ := hbefore.after hwallet
    exact (hs.book hwallet hoff hlog you).2
  case catchesUp =>
    intro hread
    refine hs.booked_of_square fun r howes => ?_
    exact (hread acts [] (List.append_nil acts).symm r howes).booked hacts hwallet
  case reads => exact fun log you hlog hnodup => hs.reads hwallet hoff hlog hnodup you
  case same =>
    intro chain' acts' hacts' hchain hentered hthrough
    exact hs.registerExact.unique (hacts'.after hwallet).1.registerExact hchain hentered hthrough

/-! ## A round in between -/

/-- Rounds 40 to 42 are over; the player was in the first and in the last. -/
def threeRounds (r : ℤ) : Option RoundSummary :=
  if r = 40 then some ⟨40, .settled, [⟨"w", -3⟩]⟩
  else if r = 41 then some ⟨41, .settled, []⟩
  else if r = 42 then some ⟨42, .settled, [⟨"w", 5⟩, ⟨"w", 1⟩]⟩
  else none

/-- The rule enters 40 and then 42, and each of the two is read once, 41 never. -/
def twoReads : List PnlAct :=
  [.entered 40, .entered 42, .booked [⟨40, .settled, [⟨"w", -3⟩]⟩] "w",
    .booked [⟨42, .settled, [⟨"w", 5⟩, ⟨"w", 1⟩]⟩] "w"]

theorem handsOff_threeRounds {s : PnlRun} (hchain : s.chain = threeRounds) (hentered : ∀ q ∈ s.entered, q = 40 ∨ q = 42) :
    s.HandsOff "w" := by
  rintro r round hround ⟨q, hq, hlt⟩ ⟨q', hq', hlt'⟩ hnot
  have hr : r = 41 := by
    have h := hentered q hq
    have h' := hentered q' hq'
    have hne : r ≠ 40 ∨ r ≠ 42 := by omega
    omega
  subst hr
  simp only [hchain, threeRounds] at hround
  cases hround
  simp

theorem regularRun_twoReads : RegularRun "w" threeRounds twoReads := by
  have hoff (entered : List ℤ) (pnl : RunPnl) (h : ∀ q ∈ entered, q = 40 ∨ q = 42) :
      (PnlRun.mk threeRounds entered pnl).HandsOff "w" := handsOff_threeRounds rfl h
  refine ⟨⟨?_, hoff _ _ ?_⟩, ⟨?_, hoff _ _ ?_⟩, ⟨?_, hoff _ _ ?_⟩, ⟨?_, hoff _ _ ?_⟩, trivial⟩ <;>
    simp [PnlRun.Allowed, PnlRun.armed, IsLog, threeRounds]

/-- Each entered round was read while all older entered rounds were booked, and 42 is not booked: the cursor waits
for 41, which the rule did not enter. -/
theorem run_pnl_waits_for_an_unentered_round :
    RegularRun "w" threeRounds twoReads ∧
      (∀ r ∈ (pnlAfter "w" threeRounds twoReads).entered, ∃ before log after,
        twoReads = before ++ .booked log "w" :: after ∧ r ∈ (pnlAfter "w" threeRounds before).entered ∧
          (∀ q ∈ (pnlAfter "w" threeRounds before).entered, q < r →
            (pnlAfter "w" threeRounds before).pnl.booked q = true) ∧ ShownFinal log r) ∧
      42 ∈ (pnlAfter "w" threeRounds twoReads).entered ∧
      (pnlAfter "w" threeRounds twoReads).pnl.booked 42 = false := by
  refine ⟨regularRun_twoReads, fun r hr => ?_, by decide, by decide⟩
  have hr : r = 40 ∨ r = 42 := by simpa [pnlAfter, twoReads, PnlRun.armed] using hr
  rcases hr with rfl | rfl
  · exact ⟨twoReads.take 2, _, twoReads.drop 3, rfl, by decide, by decide, _, List.mem_singleton_self _, rfl, rfl⟩
  · exact ⟨twoReads.take 3, _, [], rfl, by decide, by decide, _, List.mem_singleton_self _, rfl, rfl⟩

/-- The same run: 40 is booked, and what 42 brought is added to the reading. -/
theorem run_pnl_is_exact_witness :
    (pnlAfter "w" threeRounds twoReads).RegisterExact "w" ∧
      (pnlAfter "w" threeRounds twoReads).pnl.settledUnits = -3 :=
  ⟨(run_pnl_is_exact "w" (by decide) threeRounds twoReads regularRun_twoReads).holds, by decide⟩

end BullsUnicorns.Repeat
