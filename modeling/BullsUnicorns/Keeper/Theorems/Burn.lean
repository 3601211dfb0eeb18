import BullsUnicorns.Keeper.Lemmas.Passes

/-!
# What a burn sample was measured across

A sample stands for one round when it was taken from one landed open to the next, with no catch-up in
between.
-/

namespace BullsUnicorns.Keeper

variable {cfg : Config} {closing : Bool} {ctx : KeeperContext} {H ev : List KeeperEvent}

/-! ## Samples in a history -/

/-- `closeCatchUpAhead` after these events, from a value before them. -/
def flagFrom (up : Bool) (events : List KeeperEvent) : Bool :=
  events.foldl (fun up event => match event with | .catchUp ahead => ahead | _ => up) up

/-- This sample is the difference between two consecutive landed opens, and the flag was down from the
first to the second. -/
def MeasuresOneRound (before : List KeeperEvent) (lamports : ℤ) (after : List KeeperEvent) : Prop :=
  ∃ opened first between second rest,
    before = opened ++ .openLanded first :: between ∧ after = .openLanded second :: rest ∧
      lamports = first - second ∧ flagFrom false opened = false ∧
        ∀ e ∈ between, e ≠ .catchUp true ∧ ∀ b, e ≠ .openLanded b

def SamplesClean (events : List KeeperEvent) : Prop :=
  ∀ before lamports after, events = before ++ .sampled lamports :: after →
    MeasuresOneRound before lamports after

/-- Neither the flag nor an open. -/
def KeeperEvent.isWork : KeeperEvent → Bool
  | .probed _ | .fetched _ _ | .ownerRead _ _ | .closeSent _ _ | .closeHeldBack _ | .recorded _ _ => true
  | .catchUp _ | .sampled _ | .openLanded _ => false

theorem flagFrom_append (up : Bool) (H ev : List KeeperEvent) :
    flagFrom up (H ++ ev) = flagFrom (flagFrom up H) ev := List.foldl_append

theorem flagFrom_work {up : Bool} (h : ∀ e ∈ ev, e.isWork = true) : flagFrom up ev = up := by
  induction ev with
  | nil => rfl
  | cons e ev ih =>
      have he := h e List.mem_cons_self
      have htail := ih fun e' he' => h e' (List.mem_cons_of_mem _ he')
      cases e with
      | catchUp ahead => cases he
      | _ => exact htail

theorem SamplesClean.append (h : SamplesClean H)
    (hev : ∀ before lamports after, ev = before ++ .sampled lamports :: after →
      MeasuresOneRound (H ++ before) lamports after) : SamplesClean (H ++ ev) := by
  intro before lamports after heq
  rcases List.append_eq_append_iff.mp heq with ⟨mid, rfl, hmid⟩ | ⟨mid, rfl, hmid⟩
  · exact hev mid lamports after hmid
  · cases mid with
    | nil =>
        have hfirst := hev [] lamports after hmid.symm
        simpa using hfirst
    | cons e mid =>
        rw [List.cons_append, List.cons.injEq] at hmid
        obtain ⟨rfl, rfl⟩ := hmid
        obtain ⟨opened, first, between, second, rest, hb, ha, hrest⟩ := h before lamports mid rfl
        exact ⟨opened, first, between, second, rest ++ ev, hb, by rw [ha]; rfl, hrest⟩

/-! ## What a pass does to the flag -/

/-- Nothing that a sample depends on has changed. -/
structure SameBurn (ctx ctx' : KeeperContext) : Prop where
  anchor : ctx'.lastOpenLamports = ctx.lastOpenLamports
  ring : ctx'.burnSamplesLamports = ctx.burnSamplesLamports

/-- The events raise the flag, lower it, or leave it. -/
structure Flagged (ctx : KeeperContext) (r : KeeperContext × List KeeperEvent) : Prop where
  burn : SameBurn ctx r.1
  flag : r.1.closeCatchUpAhead = flagFrom ctx.closeCatchUpAhead r.2
  closer : ∀ e ∈ r.2, e.isWork = true ∨ ∃ ahead, e = .catchUp ahead

theorem SameBurn.trans {a b c : KeeperContext} (h : SameBurn a b) (h' : SameBurn b c) : SameBurn a c :=
  ⟨h'.anchor.trans h.anchor, h'.ring.trans h.ring⟩

/-- Only work was done. -/
structure Working (ctx : KeeperContext) (r : KeeperContext × List KeeperEvent) : Prop where
  burn : SameBurn ctx r.1
  flag : r.1.closeCatchUpAhead = ctx.closeCatchUpAhead
  work : ∀ e ∈ r.2, e.isWork = true

theorem Working.flagged {r : KeeperContext × List KeeperEvent} (h : Working ctx r) : Flagged ctx r where
  burn := h.burn
  flag := h.flag.trans (flagFrom_work h.work).symm
  closer e he := .inl (h.work e he)

theorem moveOn_working (ctx : KeeperContext) (loss : CloseLoss) :
    SameBurn ctx (ctx.recordLoss loss).moveOn ∧
      (ctx.recordLoss loss).moveOn.closeCatchUpAhead = ctx.closeCatchUpAhead := by
  cases loss <;> exact ⟨⟨rfl, rfl⟩, rfl⟩

theorem sendClose_working (cfg : Config) (ctx : KeeperContext) (pass : ClosePass) :
    Working ctx (sendClose cfg ctx pass) := by
  cases hsent : pass.sendClose with
  | ok outcome =>
      simp only [sendClose, hsent]
      exact ⟨⟨rfl, rfl⟩, rfl, by split <;> simp [KeeperEvent.isWork]⟩
  | error e =>
      simp only [sendClose, hsent]
      split
      · exact ⟨⟨rfl, rfl⟩, rfl, by simp [KeeperEvent.isWork]⟩
      · exact ⟨⟨rfl, rfl⟩, rfl, by simp [KeeperEvent.isWork]⟩

theorem actOn_working (cfg : Config) (ctx : KeeperContext) (pass : ClosePass) (action : CloseAction) :
    Working ctx (actOn cfg ctx pass action) := by
  cases action with
  | close => exact sendClose_working cfg ctx pass
  | sweepFirst => exact ⟨⟨rfl, rfl⟩, rfl, by simp [actOn]⟩
  | advance because =>
      cases because with
      | alreadyClosed => exact ⟨⟨rfl, rfl⟩, rfl, by simp [actOn]⟩
      | neverTerminal =>
          obtain ⟨hburn, hflag⟩ := moveOn_working ctx .neverTerminal
          exact ⟨hburn, hflag, by simp [actOn, KeeperEvent.isWork]⟩
      | stillDelegated =>
          obtain ⟨hburn, hflag⟩ := moveOn_working ctx .stillDelegated
          exact ⟨hburn, hflag, by simp [actOn, KeeperEvent.isWork]⟩

theorem Flagged.work {r : KeeperContext × List KeeperEvent} (h : Flagged ctx r)
    {ctx' : KeeperContext} {did : List KeeperEvent} (h' : Working r.1 (ctx', did)) :
    Flagged ctx (ctx', r.2 ++ did) where
  burn := h.burn.trans h'.burn
  flag := by
    rw [flagFrom_append, flagFrom_work h'.work, ← h.flag]
    exact h'.flag
  closer e he := by
    rcases List.mem_append.mp he with he | he
    · exact h.closer e he
    · exact .inl (h'.work e he)

/-- A round under the cursor takes the flag down; an empty place leaves it. -/
theorem examine_flagged (cfg : Config) (ctx : KeeperContext) (pass : ClosePass) (round : RoundAnswer) :
    Flagged ctx (examine cfg ctx pass (some round)) ∧
      ∀ e ∈ (examine cfg ctx pass (some round)).2, e ≠ .catchUp true := by
  have hseen : Flagged ctx ((ctx.seen (some round)).1,
      [.fetched ctx.closeCursor (some round), .catchUp false]) :=
    ⟨⟨rfl, rfl⟩, rfl, by simp [KeeperEvent.isWork]⟩
  cases howner : pass.isDelegated with
  | error e =>
      simp only [examine, KeeperContext.seen, howner, Option.isNone_some, Bool.false_eq_true, if_false]
      exact ⟨hseen, by simp⟩
  | ok delegated =>
      have hwork : Working (ctx.seen (some round)).1
          ((actOn cfg (ctx.seen (some round)).1 pass (decideClose (some round) delegated)).1,
            .ownerRead ctx.closeCursor delegated ::
              (actOn cfg (ctx.seen (some round)).1 pass (decideClose (some round) delegated)).2) := by
        have hacted := actOn_working cfg (ctx.seen (some round)).1 pass (decideClose (some round) delegated)
        exact ⟨hacted.burn, hacted.flag, List.forall_mem_cons.mpr ⟨rfl, hacted.work⟩⟩
      have hflagged := hseen.work hwork
      have hshape : examine cfg ctx pass (some round) =
          ((actOn cfg (ctx.seen (some round)).1 pass (decideClose (some round) delegated)).1,
            [.fetched ctx.closeCursor (some round), .catchUp false] ++
              .ownerRead ctx.closeCursor delegated ::
                (actOn cfg (ctx.seen (some round)).1 pass (decideClose (some round) delegated)).2) := by
        simp [examine, KeeperContext.seen, howner]
      rw [hshape]
      refine ⟨hflagged, fun e he => ?_⟩
      rcases List.mem_append.mp he with he | he
      · rcases List.mem_cons.mp he with rfl | he
        · simp
        · rw [List.mem_singleton.mp he]
          simp
      · intro hup
        have hwork := hwork.work e he
        rw [hup] at hwork
        cases hwork

theorem examine_working (cfg : Config) (ctx : KeeperContext) (pass : ClosePass) :
    Working ctx (examine cfg ctx pass none) :=
  ⟨⟨rfl, rfl⟩, rfl, by simp [examine, KeeperContext.seen, decideClose, actOn, KeeperEvent.isWork]⟩

/-- The pass takes the flag down when it is up, be it raised by its own skip. -/
def ClosePass.lowersFlag (cfg : Config) (ctx : KeeperContext) (pass : ClosePass) : Bool :=
  (skipClosedRoundsAhead cfg ctx pass).1.closeCatchUpAhead &&
    (!isPastRetention (skipClosedRoundsAhead cfg ctx pass).1.closeCursor pass.roundCounter
        cfg.roundRetention ||
      match pass.fetchRound with
      | .ok (some _) => true
      | _ => false)

theorem walk_flagged (cfg : Config) (ctx : KeeperContext) (pass : ClosePass) :
    Flagged ctx (walk cfg ctx pass) ∧ (∀ e ∈ (walk cfg ctx pass).2, e ≠ .catchUp true) ∧
      (isPastRetention ctx.closeCursor pass.roundCounter cfg.roundRetention = false ∨
        (∃ round, pass.fetchRound = .ok (some round)) ∨
        (walk cfg ctx pass).1.closeCatchUpAhead = ctx.closeCatchUpAhead) := by
  unfold walk
  split
  · rename_i hyoung
    refine ⟨⟨⟨rfl, rfl⟩, rfl, by simp⟩, by simp, .inl ?_⟩
    simpa using hyoung
  · cases hfetch : pass.fetchRound with
    | error e => exact ⟨⟨⟨rfl, rfl⟩, rfl, by simp⟩, by simp, .inr (.inr rfl)⟩
    | ok round =>
        cases round with
        | none =>
            have hwork := examine_working cfg ctx pass
            refine ⟨hwork.flagged, fun e he hup => ?_, .inr (.inr hwork.flag)⟩
            have := hwork.work e he
            rw [hup] at this
            cases this
        | some round =>
            obtain ⟨hflagged, hdown⟩ := examine_flagged cfg ctx pass round
            exact ⟨hflagged, hdown, .inr (.inl ⟨round, rfl⟩)⟩

theorem skip_flagged (cfg : Config) (ctx : KeeperContext) (pass : ClosePass) :
    Flagged ctx (skipClosedRoundsAhead cfg ctx pass) ∧
      (ctx.closeCatchUpAhead = true ∨ .catchUp true ∈ (skipClosedRoundsAhead cfg ctx pass).2 →
        (skipClosedRoundsAhead cfg ctx pass).1.closeCatchUpAhead = true) := by
  have hprobes (probes : List (Probed String)) : ∀ e ∈ probes.map KeeperEvent.probed, e.isWork = true := by
    intro e he
    obtain ⟨p, -, rfl⟩ := List.mem_map.mp he
    rfl
  rcases skipClosedRoundsAhead_cases cfg ctx pass with ⟨probes, heq⟩ | ⟨-, s, -, heq⟩
  · rw [heq]
    have hwork : Working ctx (ctx, probes.map .probed) := ⟨⟨rfl, rfl⟩, rfl, hprobes probes⟩
    exact ⟨hwork.flagged, by simp⟩
  · rw [heq]
    have hwork : Working ctx (ctx, s.probes.map .probed) := ⟨⟨rfl, rfl⟩, rfl, hprobes s.probes⟩
    cases hup : s.catchUpAhead with
    | false =>
        refine ⟨⟨⟨rfl, rfl⟩, ?_, ?_⟩, by simp⟩
        · simpa using hwork.flagged.flag
        · simpa using hwork.flagged.closer
    | true =>
        refine ⟨⟨⟨rfl, rfl⟩, ?_, fun e he => ?_⟩, by simp⟩
        · rw [flagFrom_append, flagFrom_work hwork.work, Bool.or_true]
          rfl
        · rcases List.mem_append.mp he with he | he
          · exact .inl (hwork.work e he)
          · exact .inr ⟨true, by simpa using he⟩

/-- The pass ends at its first guards. -/
def ClosePass.turnedAway (closing : Bool) (ctx : KeeperContext) (pass : ClosePass) : Bool :=
  !closing || !housekeepingIsWelcome pass.currentPhase || decide (pass.nowSec < ctx.closeRetryAfterSec)

theorem close_flagged (cfg : Config) (closing : Bool) (ctx : KeeperContext) (pass : ClosePass) :
    Flagged ctx (closeOneFinishedRound cfg closing ctx pass) ∧
      (pass.turnedAway closing ctx = true ∨ pass.lowersFlag cfg ctx = false →
        ctx.closeCatchUpAhead = true ∨ .catchUp true ∈ (closeOneFinishedRound cfg closing ctx pass).2 →
          (closeOneFinishedRound cfg closing ctx pass).1.closeCatchUpAhead = true) := by
  unfold closeOneFinishedRound
  split
  · exact ⟨⟨⟨rfl, rfl⟩, rfl, by simp⟩, fun _ hup => by simpa using hup⟩
  · rename_i hthrough
    obtain ⟨hskip, hraised⟩ := skip_flagged cfg ctx pass
    obtain ⟨hwalk, hdown, hsame⟩ := walk_flagged cfg (skipClosedRoundsAhead cfg ctx pass).1 pass
    refine ⟨⟨hskip.burn.trans hwalk.burn, ?_, fun e he => ?_⟩, fun hcond hup => ?_⟩
    · rw [flagFrom_append, ← hskip.flag]
      exact hwalk.flag
    · rcases List.mem_append.mp he with he | he
      · exact hskip.closer e he
      · exact hwalk.closer e he
    · have hskipped : (skipClosedRoundsAhead cfg ctx pass).1.closeCatchUpAhead = true := by
        rcases hup with hup | hmem
        · exact hraised (.inl hup)
        · rcases List.mem_append.mp hmem with hmem | hmem
          · exact hraised (.inr hmem)
          · exact absurd rfl (hdown _ hmem)
      rcases hcond with haway | hkept
      · exact absurd haway hthrough
      · simp only [ClosePass.lowersFlag, hskipped, Bool.true_and, Bool.or_eq_false_iff,
          Bool.not_eq_false'] at hkept
        obtain ⟨hpast, hfetch⟩ := hkept
        rcases hsame with hyoung | ⟨round, hround⟩ | hsame
        · exact absurd (hpast.symm.trans hyoung) (by simp)
        · rw [hround] at hfetch
          cases hfetch
        · exact hsame.trans hskipped

/-! ## Runs -/

/-- The pass keeps what the samples promise: it does not take the flag down while an anchor is held, and
a round it takes a sample for is opened. -/
def KeeperPass.KeepsMeasure (cfg : Config) (closing : Bool) (ctx : KeeperContext) : KeeperPass → Prop
  | .closeOneFinishedRound pass => ctx.lastOpenLamports = none ∨
      pass.turnedAway closing ctx = true ∨ pass.lowersFlag cfg ctx = false
  | .openNextRound pass => ∀ before, ctx.lastOpenLamports ≠ none → ctx.closeCatchUpAhead = false →
      ctx.sweepStopSince = none → pass.affordsAnotherRound = .ok (some before) →
        ¬ pass.Refused cfg ctx before

/-- What the anchor and the ring stand for. -/
structure Measured (H : List KeeperEvent) (ctx : KeeperContext) : Prop where
  clean : SamplesClean H
  flag : ctx.closeCatchUpAhead = flagFrom false H
  anchored : ∀ first, ctx.lastOpenLamports = some first → ∃ opened between,
    H = opened ++ .openLanded first :: between ∧ flagFrom false opened = false ∧
      ∀ e ∈ between, (∀ b, e ≠ .openLanded b) ∧ (e = .catchUp true → ctx.closeCatchUpAhead = true)
  ring : ∀ lamports ∈ ctx.burnSamplesLamports, .sampled lamports ∈ H

theorem Measured.close {pass : ClosePass} (h : Measured H ctx)
    (hkeeps : (KeeperPass.closeOneFinishedRound pass).KeepsMeasure cfg closing ctx) :
    Measured (H ++ (closeOneFinishedRound cfg closing ctx pass).2)
      (closeOneFinishedRound cfg closing ctx pass).1 := by
  obtain ⟨hflagged, hup⟩ := close_flagged cfg closing ctx pass
  refine ⟨h.clean.append fun before lamports after heq => ?_, ?_, fun first hfirst => ?_, fun x hx => ?_⟩
  · have hsampled : KeeperEvent.sampled lamports ∈ (closeOneFinishedRound cfg closing ctx pass).2 := by
      simp [heq]
    rcases hflagged.closer _ hsampled with hwork | ⟨ahead, hahead⟩
    · cases hwork
    · cases hahead
  · rw [flagFrom_append, ← h.flag]
    exact hflagged.flag
  · rw [hflagged.burn.anchor] at hfirst
    obtain ⟨opened, between, hH, hopened, hbetween⟩ := h.anchored first hfirst
    have hcond : pass.turnedAway closing ctx = true ∨ pass.lowersFlag cfg ctx = false := by
      rcases hkeeps with hnone | hcond
      · exact absurd (hfirst.symm.trans hnone) (by simp)
      · exact hcond
    refine ⟨opened, between ++ _, by rw [hH, List.append_assoc]; rfl, hopened, fun e he => ?_⟩
    rcases List.mem_append.mp he with he | he
    · obtain ⟨hopen, hflag⟩ := hbetween e he
      exact ⟨hopen, fun hraise => hup hcond (.inl (hflag hraise))⟩
    · refine ⟨fun b hb => ?_, fun hraise => hup hcond (.inr (hraise ▸ he))⟩
      rcases hflagged.closer e he with hwork | ⟨ahead, hahead⟩
      · rw [hb] at hwork
        cases hwork
      · rw [hahead] at hb
        cases hb
  · rw [hflagged.burn.ring] at hx
    exact List.mem_append_left _ (h.ring x hx)

theorem mem_recordBurnSample {samples : List ℤ} {lamports x : ℤ} {cap : ℕ}
    (h : x ∈ recordBurnSample samples lamports cap) : x ∈ samples ∨ x = lamports := by
  unfold recordBurnSample at h
  split at h
  · cases h
  · simpa using List.mem_of_mem_drop h

/-- A landed open is the next anchor, or there is none. -/
theorem Measured.land {ctx' : KeeperContext} {before : ℤ} (hclean : SamplesClean (H ++ [.openLanded before]))
    (hflag : ctx'.closeCatchUpAhead = flagFrom false H)
    (hring : ∀ lamports ∈ ctx'.burnSamplesLamports, .sampled lamports ∈ H)
    (hanchor : ctx'.lastOpenLamports = if ctx'.closeCatchUpAhead then none else some before) :
    Measured (H ++ [.openLanded before]) ctx' where
  clean := hclean
  flag := by rw [flagFrom_append, hflag]; rfl
  anchored first hfirst := by
    rw [hanchor] at hfirst
    cases hup : ctx'.closeCatchUpAhead with
    | true => rw [hup] at hfirst; cases hfirst
    | false =>
        rw [hup] at hfirst
        cases hfirst
        exact ⟨H, [], rfl, by rw [← hflag, hup], by simp⟩
  ring lamports hx := List.mem_append_left _ (hring lamports hx)

theorem Measured.open {pass : OpenPass} (h : Measured H ctx)
    (hkeeps : (KeeperPass.openNextRound pass).KeepsMeasure cfg closing ctx) :
    Measured (H ++ (openNextRound cfg ctx pass).2) (openNextRound cfg ctx pass).1 := by
  have hopening := openNextRound_opening cfg ctx pass
  generalize openNextRound cfg ctx pass = r at hopening ⊢
  cases hopening with
  | idle => simpa using h
  | stopped before stop hgoing hread hrefused =>
      rcases sampleBurn_cases cfg ctx before with ⟨heq, -⟩ | ⟨last, hlast, hdown, -⟩
      · rw [heq, List.append_nil]
        exact ⟨h.clean, h.flag, h.anchored, h.ring⟩
      · exact absurd hrefused (hkeeps before (by simp [hlast]) hdown hgoing hread)
  | landed before =>
      rcases sampleBurn_cases cfg ctx before with ⟨heq, -⟩ | ⟨last, hlast, hdown, heq⟩
      · rw [heq]
        refine Measured.land (h.clean.append fun pre lamports post hpre => ?_) h.flag h.ring rfl
        cases pre with
        | nil => cases hpre
        | cons e pre => simp at hpre
      · rw [heq]
        obtain ⟨opened, between, hH, hopened, hbetween⟩ := h.anchored last hlast
        have hsample : SamplesClean (H ++ [.sampled (last - before), .openLanded before]) := by
          refine h.clean.append fun pre lamports post hpre => ?_
          cases pre with
          | nil =>
              cases hpre
              rw [List.append_nil]
              refine ⟨opened, last, between, before, [], hH, rfl, rfl, hopened, fun e he => ?_⟩
              obtain ⟨hopen, hraise⟩ := hbetween e he
              exact ⟨fun hup => absurd (hraise hup) (by simp [hdown]), hopen⟩
          | cons e pre =>
              rw [List.cons_append, List.cons.injEq] at hpre
              cases pre with
              | nil => simp at hpre
              | cons e' pre => simp at hpre
        change Measured (H ++ ([.sampled (last - before)] ++ [.openLanded before])) _
        rw [← List.append_assoc]
        refine Measured.land (by simpa using hsample) ?_ (fun x hx => ?_) rfl
        · rw [flagFrom_append, ← h.flag]
          rfl
        · have hring : x ∈ recordBurnSample ctx.burnSamplesLamports (last - before)
              cfg.burnArmAfterRounds := hx
          rcases mem_recordBurnSample hring with hold | rfl
          · exact List.mem_append_left _ (h.ring x hold)
          · simp

theorem seed_measured (cfg : Config) (closing : Bool) (boot : BootScan) :
    Measured (seedCloseCursor cfg closing boot).2 (seedCloseCursor cfg closing boot).1 := by
  have hclean (probes : List (Probed String)) (ahead : Bool) :
      SamplesClean (probes.map KeeperEvent.probed ++ [.catchUp ahead]) := by
    intro before lamports after heq
    have hmem : KeeperEvent.sampled lamports ∈ probes.map KeeperEvent.probed ++ [.catchUp ahead] := by
      simp [heq]
    simp at hmem
  refine ⟨?_, ?_, (fun first hfirst => by cases hfirst), (fun x hx => by cases hx)⟩
  · cases closing with
    | false => exact hclean [] false
    | true => exact hclean _ _
  · cases closing with
    | false => rfl
    | true =>
        simp only [seedCloseCursor, if_true, flagFrom_append, Bool.true_and]
        rfl

/-- In a run whose steps all keep the measure, every sample ever taken was measured across one round, and
so was every sample in the ring. -/
theorem burn_samples_measure_one_round (cfg : Config) (closing : Bool) (boot : BootScan)
    (passes : List KeeperPass)
    (hkeeps : (keeper cfg closing).Each (fun ctx pass => pass.KeepsMeasure cfg closing ctx)
      (seedCloseCursor cfg closing boot).1 passes) :
    let m := keeper cfg closing
    let booted := seedCloseCursor cfg closing boot
    let H := history booted.2 (m.accepted booted.1 passes)
    SamplesClean H ∧ ∀ lamports ∈ (m.run booted.1 passes).burnSamplesLamports, .sampled lamports ∈ H := by
  intro m booted H
  have hrun : Measured H (m.run booted.1 passes) := by
    refine Machine.run_history_when (H := fun log ctx => Measured (history booted.2 log) ctx) (h := [])
      ?_ ?_ passes hkeeps
    · intro log ctx pass ctx' events hkeeps h hstep
      rw [history_snoc]
      cases pass with
      | closeOneFinishedRound pass =>
          have heq : closeOneFinishedRound cfg closing ctx pass = (ctx', events) := Except.ok.inj hstep
          have hnext := h.close hkeeps
          rwa [heq] at hnext
      | openNextRound pass =>
          have heq : openNextRound cfg ctx pass = (ctx', events) := Except.ok.inj hstep
          have hnext := h.open hkeeps
          rwa [heq] at hnext
    · simpa [history] using seed_measured cfg closing boot
  exact ⟨hrun.clean, hrun.ring⟩

/-! A quiet arena: one open lands, a pass of the closer finds nothing to do, the next open lands. -/

/-- A boot whose read of the old rounds is rejected. -/
def deafBoot (roundCounter : ℕ) : BootScan where
  roundCounter
  probe := fun _ _ => .error "429 Too Many Requests"
  nowMs := fun look => look

def idlePass (roundCounter : ℕ) (round : Option RoundAnswer) : KeeperPass :=
  .closeOneFinishedRound {
    nowSec := 0
    roundCounter
    currentPhase := some .lobby
    probe := fun rounds => .ok (rounds.map fun _ => false)
    nowMs := fun look => look
    fetchRound := .ok round
    isDelegated := .ok false
    sendClose := .ok ⟨true⟩ }

def openingPass (lamports : ℤ) (sendOpen : Except String SendOutcome) : KeeperPass :=
  .openNextRound {
    nowSec := 0
    affordsAnotherRound := .ok (some lamports)
    sweepIsKeepingUp := true
    sendOpen }

theorem burn_samples_measure_one_round_witness :
    let m := keeper .fallback true
    let booted := seedCloseCursor .fallback true (deafBoot 5)
    let passes := [openingPass 1000 (.ok ⟨true⟩), idlePass 6 none, openingPass 900 (.ok ⟨true⟩)]
    (SamplesClean (history booted.2 (m.accepted booted.1 passes)) ∧
      ∀ lamports ∈ (m.run booted.1 passes).burnSamplesLamports,
        .sampled lamports ∈ history booted.2 (m.accepted booted.1 passes)) ∧
      (m.run booted.1 passes).burnSamplesLamports = [100] := by
  refine ⟨burn_samples_measure_one_round .fallback true (deafBoot 5) _ ⟨?_, ?_, ?_, trivial⟩, by decide +kernel⟩
  · exact fun before hanchor => absurd rfl hanchor
  · exact .inr (.inr (by decide +kernel))
  · rintro before - - - hread (htripped | hsweep | ⟨e, he⟩ | ⟨outcome, hsent, hunsent⟩)
    · cases hread
      exact absurd htripped (by decide +kernel)
    · cases hsweep
    · cases he
    · cases hsent
      cases hunsent

/-! ## Samples that are not -/

/-- The anchor a clean sample may take. -/
def cleanAnchor (events : List KeeperEvent) : Option ℤ :=
  events.foldl (fun anchor event => match event with
    | .openLanded before => some before
    | .catchUp true => none
    | _ => anchor) none

theorem MeasuresOneRound.anchor {before after : List KeeperEvent} {lamports : ℤ}
    (h : MeasuresOneRound before lamports after) : ∃ first, cleanAnchor before = some first := by
  obtain ⟨opened, first, between, second, rest, rfl, -, -, -, hbetween⟩ := h
  refine ⟨first, ?_⟩
  rw [cleanAnchor, List.foldl_append, List.foldl_cons]
  clear lamports
  induction between with
  | nil => rfl
  | cons e between ih =>
      have hrest := ih fun e' he' => hbetween e' (List.mem_cons_of_mem _ he')
      obtain ⟨hup, hopen⟩ := hbetween e List.mem_cons_self
      cases e with
      | openLanded b => exact absurd rfl (hopen b)
      | catchUp ahead =>
          cases ahead with
          | true => exact absurd rfl hup
          | false => exact hrest
      | _ => exact hrest

/-- An open that fails leaves a sample of a round that was never opened; and a skip that raises the flag
in a pass that lowers it leaves no trace for the next sample to see. -/
theorem burn_samples_unclean :
    let m := keeper .fallback true
    let booted := seedCloseCursor .fallback true (deafBoot 200)
    let failing := [openingPass 1000 (.ok ⟨true⟩), openingPass 900 (.error "blockhash not found")]
    let walking := [openingPass 1000 (.ok ⟨true⟩), idlePass 200 (some ⟨.settled, some 0⟩),
      openingPass 900 (.ok ⟨true⟩)]
    ¬ SamplesClean (history booted.2 (m.accepted booted.1 failing)) ∧
      ¬ SamplesClean (history booted.2 (m.accepted booted.1 walking)) := by
  intro m booted failing walking
  constructor
  · intro hclean
    have hsampled : history booted.2 (m.accepted booted.1 failing) =
        (booted.2 ++ [.openLanded 1000]) ++ .sampled 100 :: [] := by decide +kernel
    obtain ⟨opened, first, between, second, rest, -, hlanded, -⟩ := hclean _ _ _ hsampled
    cases hlanded
  · intro hclean
    have hsampled : history booted.2 (m.accepted booted.1 walking) =
        history booted.2 (m.accepted booted.1 (walking.take 2)) ++ .sampled 100 :: [.openLanded 900] := by
      decide +kernel
    obtain ⟨first, hfirst⟩ := (hclean _ _ _ hsampled).anchor
    have hnone : cleanAnchor (history booted.2 (m.accepted booted.1 (walking.take 2))) = none := by
      decide +kernel
    rw [hnone] at hfirst
    cases hfirst

end BullsUnicorns.Keeper
