import BullsUnicorns.Chain.Lemmas.Frozen
import BullsUnicorns.Keeper.LobbyPolicy

/-!
# The keeper's lobby and the chain's

Two clocks and two copies of one rule: what the keeper asks for is what the program permits, as long
as the clocks agree within the margin. And when the keeper gives a draw up.
-/

namespace BullsUnicorns.Keeper

open Chain (RoundState RoundCall Arena Pubkey Bytes32 DrawOk openedRound roundMachine closeLobbyAndDraw)

/-! ## Why a step is taken -/

/-- The rungs of the ladder, each with what put the lobby on it. -/
inductive StepReason (cfg : Config) (view : LobbyView) : LobbyStep → Prop
  | margin (past : view.lobbyClosesAt ≤ ⌊view.nowSec⌋)
      (soon : view.nowSec < view.lobbyClosesAt + clockSkewMarginSeconds) : StepReason cfg view .wait
  | abandon (late : view.lobbyClosesAt + clockSkewMarginSeconds ≤ view.nowSec)
      (few : view.fighterCount < minFightersToFight) : StepReason cfg view .abandon
  | close (late : view.lobbyClosesAt + clockSkewMarginSeconds ≤ view.nowSec)
      (enough : minFightersToFight ≤ view.fighterCount) : StepReason cfg view .close
  | hold (isOpen : ⌊view.nowSec⌋ < view.lobbyClosesAt) : StepReason cfg view .wait
  | schedule (isOpen : ⌊view.nowSec⌋ < view.lobbyClosesAt) (due : scheduleCloseIsDue view = true) :
      StepReason cfg view .closeToSchedule
  | grace {closesAt} (isOpen : ⌊view.nowSec⌋ < view.lobbyClosesAt)
      (entered : view.entriesCloseAt cfg = some closesAt) (soon : view.nowSec < closesAt) :
      StepReason cfg view .wait
  | short {closesAt} (isOpen : ⌊view.nowSec⌋ < view.lobbyClosesAt)
      (entered : view.entriesCloseAt cfg = some closesAt) (due : closesAt ≤ view.nowSec)
      (few : view.fighterCount < minFightersToFight) : StepReason cfg view .waitForFighters
  | early {closesAt} (isOpen : ⌊view.nowSec⌋ < view.lobbyClosesAt)
      (entered : view.entriesCloseAt cfg = some closesAt) (due : closesAt ≤ view.nowSec)
      (enough : minFightersToFight ≤ view.fighterCount) : StepReason cfg view .closeEarly

section
variable {cfg : Config} {view : LobbyView}

theorem step_reason (cfg : Config) (view : LobbyView) : StepReason cfg view (view.step cfg) := by
  unfold LobbyView.step
  by_cases hopen : ⌊view.nowSec⌋ < view.lobbyClosesAt
  · rw [if_neg (by simpa [lobbyIsOpen] using hopen)]
    split
    · split
      · rename_i hdue
        exact .schedule hopen hdue
      · exact .hold hopen
    · rename_i closesAt hentered
      split
      · rename_i hsoon
        exact .grace hopen hentered hsoon
      · rename_i hdue
        split
        · rename_i hfew
          exact .short hopen hentered (not_lt.mp hdue) hfew
        · rename_i henough
          exact .early hopen hentered (not_lt.mp hdue) (Nat.le_of_not_lt henough)
  · rw [if_pos (by simpa [lobbyIsOpen] using hopen)]
    split
    · rename_i hsoon
      exact .margin (Int.not_lt.mp hopen) hsoon
    · rename_i hlate
      split
      · rename_i hfew
        exact .abandon (not_lt.mp hlate) hfew
      · rename_i henough
        exact .close (not_lt.mp hlate) (Nat.le_of_not_lt henough)

/-- The program's two guards on a draw. -/
def DrawGuard (fighterCount : ℕ) (lobbyClosesAt now : ℤ) (byAuthority : Bool) : Prop :=
  Chain.drawIsPermitted fighterCount lobbyClosesAt now byAuthority = true ∧
    Chain.enoughToFight fighterCount = true

/-- A lobby the keeper calls late is past its deadline by the validator's clock too. -/
theorem late_for_er {er : ℤ} (hskew : |(er : ℚ) - view.nowSec| ≤ clockSkewMarginSeconds)
    (hlate : view.lobbyClosesAt + clockSkewMarginSeconds ≤ view.nowSec) : view.lobbyClosesAt ≤ er := by
  have h := (abs_le.mp hskew).1
  have hle : (view.lobbyClosesAt : ℚ) ≤ er := by linarith
  exact_mod_cast hle

theorem lobbyIsDead_of_late {er : ℤ} (hlate : view.lobbyClosesAt ≤ er) :
    Chain.lobbyIsDead view.fighterCount view.lobbyClosesAt er = true ↔
      view.fighterCount < minFightersToFight := by
  simp [Chain.lobbyIsDead, Chain.lobbyIsOpen, Chain.enoughToFight, minFightersToFight, hlate]

theorem abandon_agrees {er : ℤ} (hskew : |(er : ℚ) - view.nowSec| ≤ clockSkewMarginSeconds)
    (h : view.step cfg = .abandon) :
    Chain.lobbyIsDead view.fighterCount view.lobbyClosesAt er = true := by
  have hr := step_reason cfg view
  rw [h] at hr
  cases hr with
  | abandon late few => exact (lobbyIsDead_of_late (late_for_er hskew late)).mpr few

theorem close_agrees {er : ℤ} (hskew : |(er : ℚ) - view.nowSec| ≤ clockSkewMarginSeconds)
    (h : view.step cfg = .close) : DrawGuard view.fighterCount view.lobbyClosesAt er false := by
  have hr := step_reason cfg view
  rw [h] at hr
  cases hr with
  | close late enough =>
      have hlate := late_for_er hskew late
      refine ⟨?_, by simpa [Chain.enoughToFight, minFightersToFight] using enough⟩
      simp [Chain.drawIsPermitted, Chain.lobbyMayClose, Chain.lobbyIsOpen, hlate]

theorem scheduleCloseIsDue_eq_true :
    scheduleCloseIsDue view = true ↔
      (view.holdOpen = true ∧ view.houseOnly = true ∧
        (defaultLobbySeconds + clockSkewMarginSeconds : ℚ) < view.lobbyClosesAt - view.nowSec) ∧
      minFightersToFight ≤ view.fighterCount ∧ view.scheduleCloseRetryAfterSec ≤ view.nowSec := by
  simp [scheduleCloseIsDue, deadlineIsOffSchedule, and_assoc]

theorem early_agrees (er : ℤ) (h : view.step cfg = .closeEarly ∨ view.step cfg = .closeToSchedule) :
    DrawGuard view.fighterCount view.lobbyClosesAt er true ∧ view.nowSec < view.lobbyClosesAt := by
  have hr := step_reason cfg view
  rcases h with h | h
  · rw [h] at hr
    cases hr with
    | early isOpen entered due enough =>
        exact ⟨⟨rfl, by simpa [Chain.enoughToFight, minFightersToFight] using enough⟩,
          Int.floor_lt.mp isOpen⟩
  · rw [h] at hr
    cases hr with
    | schedule isOpen due =>
        have henough := (scheduleCloseIsDue_eq_true.mp due).2.1
        exact ⟨⟨rfl, by simpa [Chain.enoughToFight, minFightersToFight] using henough⟩,
          Int.floor_lt.mp isOpen⟩

theorem late_step {er : ℤ} (hskew : |(er : ℚ) - view.nowSec| ≤ clockSkewMarginSeconds)
    (hlate : view.lobbyClosesAt + clockSkewMarginSeconds ≤ view.nowSec) :
    (view.step cfg = .close ∨ view.step cfg = .abandon) ∧
      (view.step cfg = .abandon ↔
        Chain.lobbyIsDead view.fighterCount view.lobbyClosesAt er = true) := by
  have hpast : ¬ ⌊view.nowSec⌋ < view.lobbyClosesAt := by
    rw [Int.not_lt, Int.le_floor]
    have : (0 : ℚ) ≤ clockSkewMarginSeconds := Nat.cast_nonneg _
    linarith
  have hstep : view.step cfg = if view.fighterCount < minFightersToFight then .abandon else .close := by
    unfold LobbyView.step
    rw [if_pos (by simpa [lobbyIsOpen] using hpast), if_neg (not_lt.mpr hlate)]
  rw [lobbyIsDead_of_late (late_for_er hskew hlate), hstep]
  by_cases hfew : view.fighterCount < minFightersToFight
  · simp [hfew]
  · simp [hfew]

theorem lobbyWindow_le (stamped : Int64) :
    (Chain.lobbyWindow stamped.toInt (UInt32.ofNat defaultLobbySeconds)).2 ≤
      stamped.toInt + defaultLobbySeconds := by
  have hlow := stamped.le_toInt
  have hclamp : Chain.clampLobbySeconds (UInt32.ofNat 60) = 60 := by decide
  simp only [Chain.lobbyWindow, defaultLobbySeconds, hclamp, Word.satAddSigned, Word.clampSigned]
  omega

/-- A lobby that this mode opened is never off its schedule. -/
theorem on_schedule {stamped : Int64} {now₀ : ℚ}
    (hskew : |(stamped.toInt : ℚ) - now₀| ≤ clockSkewMarginSeconds) (hclock : now₀ ≤ view.nowSec)
    (hstamp : view.lobbyClosesAt =
      (Chain.lobbyWindow stamped.toInt (UInt32.ofNat defaultLobbySeconds)).2) :
    view.step cfg ≠ .closeToSchedule := by
  intro h
  have hr := step_reason cfg view
  rw [h] at hr
  cases hr with
  | schedule isOpen due =>
      obtain ⟨⟨-, -, hoff⟩, -, -⟩ := scheduleCloseIsDue_eq_true.mp due
      have hle : view.lobbyClosesAt ≤ stamped.toInt + defaultLobbySeconds := by
        rw [hstamp]
        exact lobbyWindow_le stamped
      have hle' : (view.lobbyClosesAt : ℚ) ≤ stamped.toInt + defaultLobbySeconds := by
        exact_mod_cast hle
      have hs := (abs_le.mp hskew).2
      linarith

theorem drawAt_le (cfg : Config) (view : LobbyView) :
    (planLobby cfg view).drawAt ≤ view.lobbyClosesAt := by
  unfold planLobby LobbyView.entriesCloseAt
  split
  · cases view.firstRealEntryObservedAtSec with
    | none => exact le_refl _
    | some seen => exact min_le_right _ _
  · exact le_refl _

end

/-! ## One round's passes -/

section
variable {cfg : Config} {holdOpen houseOnly : Bool} {lobbyClosesAt : ℤ} {timeline : RoundTimeline}

/-- The close of entries that a latched first real entry commits the keeper to. -/
def committedClose (cfg : Config) (holdOpen : Bool) (lobbyClosesAt : ℤ) (first : Option ℚ) : Option ℚ :=
  if holdOpen then first.map fun seen => min (seen + cfg.realPlayerGraceSeconds) lobbyClosesAt else none

theorem driveLobby_entries (pass : LobbyPass) :
    (driveLobby cfg holdOpen houseOnly lobbyClosesAt timeline pass).2.entriesCloseAt =
      committedClose cfg holdOpen lobbyClosesAt
        (driveLobby cfg holdOpen houseOnly lobbyClosesAt timeline pass).1.firstRealEntryObservedAtSec :=
  rfl

theorem driveLobby_latch {seen : ℚ} (h : timeline.firstRealEntryObservedAtSec = some seen)
    (pass : LobbyPass) :
    (driveLobby cfg holdOpen houseOnly lobbyClosesAt timeline pass).1.firstRealEntryObservedAtSec =
      some seen := by
  simp only [driveLobby, h, Option.getD_some, ite_self]

theorem lobbyPlans_latched {seen : ℚ} (h : timeline.firstRealEntryObservedAtSec = some seen)
    (passes : List LobbyPass) :
    ∀ x ∈ lobbyPlans cfg holdOpen houseOnly lobbyClosesAt timeline passes,
      x.2.entriesCloseAt = committedClose cfg holdOpen lobbyClosesAt (some seen) := by
  induction passes generalizing timeline with
  | nil => intro x hx; cases hx
  | cons pass passes ih =>
      have hnext : (driveLobby cfg holdOpen houseOnly lobbyClosesAt timeline
          pass).1.firstRealEntryObservedAtSec = some seen := driveLobby_latch h pass
      intro x hx
      rcases List.mem_cons.mp hx with rfl | hx
      · exact (driveLobby_entries pass).trans (by rw [hnext])
      · exact ih hnext x hx

theorem lobbyPlans_entries (passes : List LobbyPass) :
    (lobbyPlans cfg holdOpen houseOnly lobbyClosesAt timeline passes).Pairwise fun x y =>
      ∀ closesAt, x.2.entriesCloseAt = some closesAt → y.2.entriesCloseAt = some closesAt := by
  induction passes generalizing timeline with
  | nil => exact .nil
  | cons pass passes ih =>
      refine List.pairwise_cons.mpr ⟨fun y hy closesAt hx => ?_, ih⟩
      have hx' := (driveLobby_entries pass).symm.trans hx
      cases hf : (driveLobby cfg holdOpen houseOnly lobbyClosesAt timeline
          pass).1.firstRealEntryObservedAtSec with
      | none => simp [hf, committedClose] at hx'
      | some seen =>
          rw [hf] at hx'
          exact (lobbyPlans_latched hf passes y hy).trans hx'

theorem lobbyPlans_early (passes : List LobbyPass) :
    ∀ x ∈ lobbyPlans cfg holdOpen houseOnly lobbyClosesAt timeline passes,
      x.2.step = .closeEarly → ∃ closesAt, x.2.entriesCloseAt = some closesAt ∧ closesAt ≤ x.1.nowSec := by
  induction passes generalizing timeline with
  | nil => intro x hx; cases hx
  | cons pass passes ih =>
      intro x hx hstep
      rcases List.mem_cons.mp hx with rfl | hx
      · obtain ⟨view, hplan, hnow⟩ : ∃ view : LobbyView,
            (driveLobby cfg holdOpen houseOnly lobbyClosesAt timeline pass).2 = planLobby cfg view ∧
              view.nowSec = pass.nowSec := ⟨_, rfl, rfl⟩
        have hr := step_reason cfg view
        have hview : view.step cfg = .closeEarly := (congrArg LobbyPlan.step hplan).symm.trans hstep
        rw [hview] at hr
        cases hr with
        | @early closesAt isOpen entered due enough =>
            exact ⟨closesAt, (congrArg LobbyPlan.entriesCloseAt hplan).trans entered, hnow ▸ due⟩
      · exact ih x hx hstep

end

/-- Whatever the keeper plans, the program agrees to it at any validator clock within the margin; past
the margin the plan is the program's own verdict; and along one round a promised close of entries is
kept. -/
theorem lobby_plan_agrees (cfg : Config) :
    (∀ view : LobbyView,
      (∀ er : ℤ, |(er : ℚ) - view.nowSec| ≤ clockSkewMarginSeconds →
        ((planLobby cfg view).step = .abandon →
          Chain.lobbyIsDead view.fighterCount view.lobbyClosesAt er = true) ∧
        ((planLobby cfg view).step = .close →
          DrawGuard view.fighterCount view.lobbyClosesAt er false) ∧
        ((planLobby cfg view).step = .closeEarly ∨ (planLobby cfg view).step = .closeToSchedule →
          DrawGuard view.fighterCount view.lobbyClosesAt er true ∧
            view.nowSec < view.lobbyClosesAt) ∧
        (view.lobbyClosesAt + clockSkewMarginSeconds ≤ view.nowSec →
          ((planLobby cfg view).step = .close ∨ (planLobby cfg view).step = .abandon) ∧
            ((planLobby cfg view).step = .abandon ↔
              Chain.lobbyIsDead view.fighterCount view.lobbyClosesAt er = true))) ∧
      ((planLobby cfg view).step = .closeToSchedule → view.holdOpen = true ∧ view.houseOnly = true) ∧
      (∀ (stamped : Int64) (now₀ : ℚ), |(stamped.toInt : ℚ) - now₀| ≤ clockSkewMarginSeconds →
        now₀ ≤ view.nowSec →
        view.lobbyClosesAt = (Chain.lobbyWindow stamped.toInt (UInt32.ofNat defaultLobbySeconds)).2 →
          (planLobby cfg view).step ≠ .closeToSchedule) ∧
      (planLobby cfg view).drawAt ≤ view.lobbyClosesAt) ∧
    (∀ (holdOpen houseOnly : Bool) (lobbyClosesAt : ℤ) (passes : List LobbyPass),
      let plans := lobbyPlans cfg holdOpen houseOnly lobbyClosesAt freshTimeline passes
      (plans.Pairwise fun x y =>
        ∀ closesAt, x.2.entriesCloseAt = some closesAt → y.2.entriesCloseAt = some closesAt) ∧
      ∀ x ∈ plans, x.2.step = .closeEarly →
        ∃ closesAt, x.2.entriesCloseAt = some closesAt ∧ closesAt ≤ x.1.nowSec) := by
  refine ⟨fun view => ⟨fun er hskew => ?clocks, ?scheduled, ?stamped, drawAt_le cfg view⟩, ?run⟩
  case clocks =>
    exact ⟨abandon_agrees hskew, close_agrees hskew, early_agrees er, late_step hskew⟩
  case scheduled =>
    intro h
    have hr := step_reason cfg view
    rw [show view.step cfg = .closeToSchedule from h] at hr
    cases hr with
    | schedule isOpen due =>
        obtain ⟨⟨hhold, hhouse, -⟩, -⟩ := scheduleCloseIsDue_eq_true.mp due
        exact ⟨hhold, hhouse⟩
  case stamped =>
    intro stamped now₀ hskew hclock hstamp
    exact on_schedule hskew hclock hstamp
  case run =>
    intro holdOpen houseOnly lobbyClosesAt passes
    exact ⟨lobbyPlans_entries passes, lobbyPlans_early passes⟩

/-! ## Giving a draw up -/

section
variable {cfg : Config} {nowSec lobbyClosesAt : ℤ}

theorem driveDrawing_ne_wait :
    driveDrawing cfg nowSec lobbyClosesAt ≠ .wait ↔ ⌊cfg.drawTimeoutSeconds⌋ < nowSec - lobbyClosesAt := by
  rw [Int.floor_lt]
  simp [driveDrawing, lt_sub_iff_add_lt]

/-- The verdicts of `driveDrawing` on a draw accepted at `d`: never before its time, and always after. -/
def TimelyVerdict (cfg : Config) (lobbyClosesAt d : ℤ) : Prop :=
  ∀ t : ℤ, d ≤ t →
    (driveDrawing cfg t lobbyClosesAt ≠ .wait →
      cfg.drawTimeoutSeconds - clockSkewMarginSeconds ≤ ((t - d : ℤ) : ℚ)) ∧
    (cfg.drawTimeoutSeconds + clockSkewMarginSeconds < ((t - d : ℤ) : ℚ) →
      driveDrawing cfg t lobbyClosesAt ≠ .wait)

/-- The draw came close to the deadline: no earlier than the margin, and no later than the margin and
the second that whole seconds lose. -/
def DrawnNearDeadline (cfg : Config) (lobbyClosesAt d : ℤ) : Prop :=
  lobbyClosesAt ≤ d + clockSkewMarginSeconds ∧
    (cfg.drawTimeoutSeconds ≤ clockSkewMarginSeconds ∨
      d + cfg.drawTimeoutSeconds ≤
        lobbyClosesAt + clockSkewMarginSeconds + ⌊cfg.drawTimeoutSeconds⌋ + 1)

theorem timelyVerdict_iff (cfg : Config) (lobbyClosesAt d : ℤ) :
    TimelyVerdict cfg lobbyClosesAt d ↔ DrawnNearDeadline cfg lobbyClosesAt d := by
  have hpos : 0 ≤ ⌊cfg.drawTimeoutSeconds⌋ := Int.floor_nonneg.mpr cfg.timeout_pos.le
  have hfloor := Int.floor_le cfg.drawTimeoutSeconds
  have hnext := Int.lt_floor_add_one cfg.drawTimeoutSeconds
  constructor
  · intro h
    constructor
    · -- the first second at which the verdict is overdue
      have hlate := (h (d + ⌊cfg.drawTimeoutSeconds⌋ + clockSkewMarginSeconds + 1) (by omega)).2
      rw [driveDrawing_ne_wait] at hlate
      have := hlate (by push_cast; linarith)
      omega
    · by_cases hT : cfg.drawTimeoutSeconds ≤ clockSkewMarginSeconds
      · exact Or.inl hT
      · right
        -- the first second at which the keeper walks away
        have hsoon := (h (max d (lobbyClosesAt + ⌊cfg.drawTimeoutSeconds⌋ + 1)) (le_max_left _ _)).1
        rw [driveDrawing_ne_wait] at hsoon
        have hwalk := hsoon (by omega)
        rcases max_choice d (lobbyClosesAt + ⌊cfg.drawTimeoutSeconds⌋ + 1) with hm | hm
        · rw [hm] at hwalk
          push_cast at hwalk
          linarith
        · rw [hm] at hwalk
          push_cast at hwalk
          linarith
  · rintro ⟨hearly, hlate⟩ t ht
    have hearly' : (lobbyClosesAt : ℚ) ≤ d + clockSkewMarginSeconds := by exact_mod_cast hearly
    have ht' : (d : ℚ) ≤ t := by exact_mod_cast ht
    rw [driveDrawing_ne_wait]
    constructor
    · intro hwalk
      have hwalk' : (lobbyClosesAt : ℚ) + ⌊cfg.drawTimeoutSeconds⌋ + 1 ≤ t := by
        have : lobbyClosesAt + ⌊cfg.drawTimeoutSeconds⌋ + 1 ≤ t := by omega
        exact_mod_cast this
      push_cast
      rcases hlate with hT | hd
      · linarith
      · linarith
    · intro hover
      rw [Int.floor_lt]
      push_cast at hover ⊢
      linarith

end

/-- However a draw came about, the keeper's verdict on it is timely exactly when the draw was accepted
near the deadline. -/
theorem draw_verdict_iff (sha256 : List UInt8 → Bytes32) (cfg : Config) (opened : ℤ) (roundNo : ℕ)
    (seedCommit : Bytes32) (lobbySeconds : UInt32) (before : List RoundCall) (arena : Arena)
    (authority : Option Pubkey) (d : ℤ) (r' : RoundState) (e : Option Chain.Event) :
    let m := roundMachine sha256
    let r := m.run (openedRound opened roundNo seedCommit lobbySeconds) before
    closeLobbyAndDraw r arena d authority = .ok (r', e) →
      ((∀ later, (m.run r' later).phase = .drawing →
          TimelyVerdict cfg (m.run r' later).lobbyClosesAt d) ↔
        DrawnNearDeadline cfg r.lobbyClosesAt d) := by
  intro m r h
  have heffect : Chain.Effect sha256 r (.ix d arena (.closeLobbyAndDraw authority)) r' e :=
    Chain.closeLobbyAndDraw_effect h
  have hsame : r'.lobbyClosesAt = r.lobbyClosesAt := (Chain.identity_step heffect).2.2
  have hphase : r'.phase = .drawing := by
    cases heffect with
    | draw lobby permitted enough => rfl
  have hlater : ∀ later, (m.run r' later).lobbyClosesAt = r.lobbyClosesAt := fun later =>
    (Chain.identity_run r' later).2.trans hsame
  simp only [hlater, timelyVerdict_iff]
  exact ⟨fun hall => hall [] hphase, fun hd _ _ => hd⟩

/-- Two fighters in a lobby that opened at 0. -/
def twoEntered : List RoundCall :=
  let arena : Arena := ⟨Chain.zeroBytes, 1, ⟨0, Nat.zero_le _⟩⟩
  [.ix 1 arena (.enter (Vector.replicate 32 1) 0 100), .ix 2 arena (.enter (Vector.replicate 32 2) 1 100)]

def twoInLobby (lobbySeconds : UInt32) : RoundState :=
  (roundMachine fun _ => Chain.zeroBytes).run (openedRound 0 1 Chain.zeroBytes lobbySeconds) twoEntered

def drawnAt (lobbySeconds : UInt32) (d : ℤ) (authority : Option Pubkey) :
    Except Chain.ArenaError (RoundState × Option Chain.Event) :=
  closeLobbyAndDraw (twoInLobby lobbySeconds) ⟨Chain.zeroBytes, 1, ⟨0, Nat.zero_le _⟩⟩ d authority

theorem draw_verdict_witness :
    TimelyVerdict Config.fallback { twoInLobby 20 with phase := .drawing }.lobbyClosesAt 22 := by
  have hlobby : (twoInLobby 20).phase = .lobby := by decide +kernel
  have hcount : (twoInLobby 20).fighterCount = 2 := by decide +kernel
  have hclose : (twoInLobby 20).lobbyClosesAt = 20 := by decide +kernel
  have hdraw : drawnAt 20 22 none = .ok ({ twoInLobby 20 with phase := .drawing }, none) := by
    simp [drawnAt, closeLobbyAndDraw, Chain.authorityCloseRequested, Chain.drawIsPermitted,
      Chain.lobbyMayClose, Chain.lobbyIsOpen, Chain.enoughToFight, require, hlobby, hcount, hclose,
      bind, Except.bind, pure, Except.pure]
  refine (draw_verdict_iff (fun _ => Chain.zeroBytes) Config.fallback 0 1 Chain.zeroBytes 20 twoEntered
    ⟨Chain.zeroBytes, 1, ⟨0, Nat.zero_le _⟩⟩ none 22 _ none hdraw).mpr ?_ [] rfl
  refine ⟨by decide +kernel, Or.inr ?_⟩
  rw [show ((roundMachine fun _ => Chain.zeroBytes).run (openedRound 0 1 Chain.zeroBytes 20)
    twoEntered).lobbyClosesAt = 20 from hclose]
  norm_num [Config.fallback, clockSkewMarginSeconds]

/-- A draw sent late after downtime is given up on the spot; one the authority made early in a week-long
lobby is still waited for hours later. -/
theorem draw_verdict_untimely :
    (drawnAt 20 1000 none).map (fun x => (x.1.phase, x.1.lobbyClosesAt)) = .ok (.drawing, 20) ∧
      driveDrawing Config.fallback 1000 20 = .wedgeAndMoveOn 980 ∧ ¬ TimelyVerdict Config.fallback 20 1000 ∧
      (drawnAt 604800 100 (some Chain.zeroBytes)).map (fun x => (x.1.phase, x.1.lobbyClosesAt)) =
        .ok (.drawing, 604800) ∧
      driveDrawing Config.fallback 10000 604800 = .wait ∧
      ¬ TimelyVerdict Config.fallback 604800 100 := by
  refine ⟨by decide +kernel, by decide +kernel, fun h => ?_, by decide +kernel, by decide +kernel,
    fun h => ?_⟩
  · have hwalk := (h 1000 (le_refl _)).1 (by decide +kernel)
    norm_num [Config.fallback, clockSkewMarginSeconds] at hwalk
  · have hover := (h 10000 (by decide)).2 (by norm_num [Config.fallback, clockSkewMarginSeconds])
    exact hover (by decide +kernel)

end BullsUnicorns.Keeper
