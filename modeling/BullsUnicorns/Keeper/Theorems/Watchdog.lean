import BullsUnicorns.Keeper.LoopWatchdog
import BullsUnicorns.Lib.History

/-!
# The loop watchdog's calls

Read off the log of a run alone: when the watchdog is armed, how long since the last mark, and from these
which calls may be made and what is reported.
-/

namespace BullsUnicorns.Keeper

open History

abbrev WatchdogEntry := WatchdogInput × List WatchdogCall

/-- The clock reading of an input that reads it. -/
def WatchdogInput.nowMs : WatchdogInput → Option ℚ
  | .arm nowMs | .passCompleted nowMs | .check nowMs _ _ => some nowMs
  | .disarm => none

/-- The reading of a mark: an arming or a completed pass. -/
def WatchdogInput.markMs : WatchdogInput → Option ℚ
  | .arm nowMs | .passCompleted nowMs => some nowMs
  | .check .. | .disarm => none

def WatchdogEntry.isMark (entry : WatchdogEntry) : Bool := entry.1.markMs.isSome

def WatchdogCall.isOnStall : WatchdogCall → Bool
  | .onStall _ => true
  | .exit _ => false

def WatchdogCall.isExit : WatchdogCall → Bool
  | .onStall _ => false
  | .exit _ => true

def marks (log : List WatchdogEntry) : List ℚ := log.filterMap fun entry => entry.1.markMs

/-- The calls of `onStall` since the last mark. -/
def stallsSince (log : List WatchdogEntry) : ℕ :=
  ((since WatchdogEntry.isMark log).flatMap Prod.snd).countP WatchdogCall.isOnStall

/-- It was armed, and has since been neither disarmed nor spent on an exit. -/
def Armed (log : List WatchdogEntry) : Prop :=
  Holds (fun _ entry => ∃ nowMs, entry.1 = .arm nowMs)
    (fun entry => entry.1 = .disarm ∨ ∃ call ∈ entry.2, call.isExit) log

/-- A check since the last mark found the pass overdue while armed. -/
def SawStall (options : LoopWatchdogOptions) (log : List WatchdogEntry) : Prop :=
  Holds (fun before entry => ∃ nowMs throws returns last, entry.1 = .check nowMs throws returns ∧ Armed before ∧
      (marks before).getLast? = some last ∧ options.publishAfterSeconds ≤ (nowMs - last) / 1000)
    (fun entry => entry.isMark) log

/-- What may be called, after what was. -/
structure CallsSound (options : LoopWatchdogOptions) (before : List WatchdogEntry) (entry : WatchdogEntry) :
    Prop where
  armed : entry.2 ≠ [] → Armed before ∧ ∃ nowMs throws returns, entry.1 = .check nowMs throws returns
  once : stallsSince before + entry.2.countP WatchdogCall.isOnStall ≤ 1
  exit : ∀ code, .exit code ∈ entry.2 → ∃ nowMs throws returns first,
    entry = (.check nowMs throws returns, first ++ [.exit 1]) ∧ code = 1 ∧ (∀ call ∈ first, call.isExit = false) ∧
      marks before ≠ [] ∧ (∀ ms ∈ marks before, options.exitAfterSeconds ≤ (nowMs - ms) / 1000) ∧
      stallsSince before + first.countP WatchdogCall.isOnStall = 1

/-- What the watchdog remembers of the log. -/
structure Remembers (options : LoopWatchdogOptions) (nowMs : ℚ) (log : List WatchdogEntry)
    (watchdog : LoopWatchdog) : Prop where
  lastPass : watchdog.lastPassAtMs = (marks log).getLast?
  past : ∀ ms ∈ marks log, ms ≤ nowMs
  ordered : (marks log).Pairwise (· ≤ ·)
  armed : watchdog.armed = true ↔ Armed log
  marked : watchdog.armed = true → watchdog.lastPassAtMs.isSome = true
  stalls : stallsSince log = if watchdog.stalled then 1 else 0
  stalled : watchdog.stalled = true ↔ SawStall options log

section
variable {options : LoopWatchdogOptions} {t : ℚ} {log : List WatchdogEntry} {watchdog : LoopWatchdog}

theorem armed_snoc (entry : WatchdogEntry) :
    Armed (log ++ [entry]) ↔ (∃ nowMs, entry.1 = .arm nowMs) ∨
      Armed log ∧ entry.1 ≠ .disarm ∧ ∀ call ∈ entry.2, call.isExit = false := by
  rw [Armed, holds_snoc]
  simp [Armed, not_or]

theorem sawStall_mark {entry : WatchdogEntry} (h : entry.isMark = true) : ¬ SawStall options (log ++ [entry]) := by
  rw [SawStall, holds_snoc]
  rintro (⟨nowMs, throws, returns, last, heq, -⟩ | ⟨-, hnot⟩)
  · simp [WatchdogEntry.isMark, heq, WatchdogInput.markMs] at h
  · exact hnot h

theorem sawStall_other {entry : WatchdogEntry} (h : entry.isMark = false)
    (hcheck : ∀ nowMs throws returns, entry.1 ≠ .check nowMs throws returns) :
    SawStall options (log ++ [entry]) ↔ SawStall options log := by
  rw [SawStall, holds_snoc]
  simp [SawStall, h, hcheck]

theorem sawStall_check (nowMs : ℚ) (throws returns : Bool) (calls : List WatchdogCall) :
    SawStall options (log ++ [(.check nowMs throws returns, calls)]) ↔
      (Armed log ∧ ∃ last, (marks log).getLast? = some last ∧
        options.publishAfterSeconds ≤ (nowMs - last) / 1000) ∨ SawStall options log := by
  rw [SawStall, holds_snoc]
  simp [SawStall, WatchdogEntry.isMark, WatchdogInput.markMs]

theorem marks_snoc (entry : WatchdogEntry) : marks (log ++ [entry]) = marks log ++ entry.1.markMs.toList :=
  Machine.filterMap_snoc _ _ _

theorem stallsSince_mark {entry : WatchdogEntry} (h : entry.isMark = true) : stallsSince (log ++ [entry]) = 0 := by
  rw [stallsSince, since_mark h]
  rfl

theorem stallsSince_other {entry : WatchdogEntry} (h : entry.isMark = false) :
    stallsSince (log ++ [entry]) = stallsSince log + entry.2.countP WatchdogCall.isOnStall := by
  rw [stallsSince, since_other h, List.flatMap_append, List.countP_append]
  simp [stallsSince]

/-- A mark at the time of the last reading. -/
theorem Remembers.mark (h : Remembers options t log watchdog) {entry : WatchdogEntry}
    (hmark : entry.1.markMs = some t) {watchdog' : LoopWatchdog} (hlast : watchdog'.lastPassAtMs = some t)
    (hstalled : watchdog'.stalled = false) (harmed : watchdog'.armed = true ↔ Armed (log ++ [entry])) :
    Remembers options t (log ++ [entry]) watchdog' := by
  have hismark : entry.isMark = true := by simp [WatchdogEntry.isMark, hmark]
  constructor
  case lastPass => simp [marks_snoc, hmark, hlast]
  case past =>
    intro ms hms
    rw [marks_snoc, hmark] at hms
    rcases List.mem_append.mp hms with hms | hms
    · exact h.past ms hms
    · exact le_of_eq (List.mem_singleton.mp hms)
  case ordered =>
    rw [marks_snoc, hmark]
    exact List.pairwise_append.mpr ⟨h.ordered, List.pairwise_singleton _ _, fun ms hms last hlast => by
      cases List.mem_singleton.mp hlast
      exact h.past ms hms⟩
  case armed => exact harmed
  case marked => simp [hlast]
  case stalls => simp [stallsSince_mark hismark, hstalled]
  case stalled => simp [hstalled, sawStall_mark hismark]

theorem Remembers.disarm (h : Remembers options t log watchdog) :
    Remembers options t (log ++ [(.disarm, [])]) watchdog.disarm := by
  have hmarks : marks (log ++ [(.disarm, [])]) = marks log := by simp [marks_snoc, WatchdogInput.markMs]
  constructor
  case lastPass => rw [hmarks]; exact h.lastPass
  case past => rw [hmarks]; exact h.past
  case ordered => rw [hmarks]; exact h.ordered
  case armed => simp [LoopWatchdog.disarm, armed_snoc]
  case marked => simp [LoopWatchdog.disarm]
  case stalls => rw [stallsSince_other rfl]; exact h.stalls
  case stalled => rw [sawStall_other rfl (by simp)]; exact h.stalled

/-- Until the first mark no age is read, and it is 0. -/
theorem passAgeSeconds_of_last {last : ℚ} (h : watchdog.lastPassAtMs = some last) (nowMs : ℚ) :
    watchdog.passAgeSeconds nowMs = (nowMs - last) / 1000 := by
  simp [LoopWatchdog.passAgeSeconds, h]

theorem age_le_of_mark (h : Remembers options t log watchdog) {last : ℚ} (hlast : (marks log).getLast? = some last) :
    ∀ ms ∈ marks log, (t - last) / 1000 ≤ (t - ms) / 1000 := by
  obtain ⟨earlier, hsplit⟩ := List.getLast?_eq_some_iff.mp hlast
  intro ms hms
  have hle : ms ≤ last := by
    have hordered := h.ordered
    rw [hsplit] at hms hordered
    rcases List.mem_append.mp hms with hms | hms
    · exact (List.pairwise_append.mp hordered).2.2 ms hms last (by simp)
    · exact le_of_eq (List.mem_singleton.mp hms)
  linarith

theorem Remembers.unarmed_check (h : Remembers options t log watchdog) (harmed : watchdog.armed = false)
    (throws returns : Bool) : Remembers options t (log ++ [(.check t throws returns, [])]) watchdog := by
  have hmarks : marks (log ++ [(.check t throws returns, [])]) = marks log := by
    simp [marks_snoc, WatchdogInput.markMs]
  have hnot : ¬ Armed log := by simp [← h.armed, harmed]
  constructor
  case lastPass => rw [hmarks]; exact h.lastPass
  case past => rw [hmarks]; exact h.past
  case ordered => rw [hmarks]; exact h.ordered
  case armed => simp [armed_snoc, hnot, harmed]
  case marked => simp [harmed]
  case stalls => rw [stallsSince_other rfl]; exact h.stalls
  case stalled => rw [sawStall_check, h.stalled]; simp [hnot]

/-- What an armed check does, by whether it publishes. -/
theorem check_armed (harmed : watchdog.armed = true) {nowMs : ℚ} {publishes : Bool}
    (hpublishes : (decide (options.publishAfterSeconds ≤ watchdog.passAgeSeconds nowMs) && !watchdog.stalled)
      = publishes) (throws returns : Bool) :
    watchdog.check options nowMs throws returns =
      if options.exitAfterSeconds ≤ watchdog.passAgeSeconds nowMs then
        (if returns then some ⟨watchdog.lastPassAtMs, publishes || watchdog.stalled, false⟩ else none,
          (if publishes then [.onStall throws] else []) ++ [.exit 1])
      else
        (some ⟨watchdog.lastPassAtMs, publishes || watchdog.stalled, true⟩,
          if publishes then [.onStall throws] else []) := by
  simp only [LoopWatchdog.check, harmed, hpublishes, Bool.not_true, Bool.false_eq_true, if_false]

/-- A check while armed: the age is that of the last mark, and the latch stands for one call made since. -/
theorem Remembers.armed_check (h : Remembers options t log watchdog) (harmed : watchdog.armed = true)
    (horder : options.publishAfterSeconds ≤ options.exitAfterSeconds) (throws returns : Bool) :
    CallsSound options log (.check t throws returns, (watchdog.check options t throws returns).2) ∧
      ∀ watchdog', (watchdog.check options t throws returns).1 = some watchdog' →
        Remembers options t (log ++ [(.check t throws returns, (watchdog.check options t throws returns).2)])
          watchdog' := by
  have hArmed := h.armed.mp harmed
  obtain ⟨last, hlast⟩ := Option.isSome_iff_exists.mp (h.marked harmed)
  have hlog : (marks log).getLast? = some last := h.lastPass.symm.trans hlast
  have hmarks (calls : List WatchdogCall) : marks (log ++ [(.check t throws returns, calls)]) = marks log := by
    simp [marks_snoc, WatchdogInput.markMs]
  have hsaw (calls : List WatchdogCall) : SawStall options (log ++ [(.check t throws returns, calls)]) ↔
      options.publishAfterSeconds ≤ watchdog.passAgeSeconds t ∨ watchdog.stalled = true := by
    rw [sawStall_check, h.stalled, passAgeSeconds_of_last hlast]
    simp [hArmed, hlog]
  have hstalls := h.stalls
  generalize hpublishes : (decide (options.publishAfterSeconds ≤ watchdog.passAgeSeconds t) && !watchdog.stalled)
    = publishes
  rw [check_armed harmed hpublishes]
  generalize hfirst : (if publishes then [WatchdogCall.onStall throws] else []) = first
  have hnoexit : ∀ call ∈ first, call.isExit = false := by
    rw [← hfirst]
    cases publishes <;> simp [WatchdogCall.isExit]
  have hcalls : stallsSince log + first.countP WatchdogCall.isOnStall =
      if publishes || watchdog.stalled then 1 else 0 := by
    rw [hstalls, ← hfirst]
    cases hstalled : watchdog.stalled with
    | true => simp [← hpublishes, hstalled]
    | false => cases publishes <;> simp [WatchdogCall.isOnStall]
  have honce : stallsSince log + first.countP WatchdogCall.isOnStall ≤ 1 := by
    rw [hcalls]
    split <;> omega
  have hremembers (calls : List WatchdogCall) (armed' : Bool)
      (hcount : calls.countP WatchdogCall.isOnStall = first.countP WatchdogCall.isOnStall)
      (harmed' : armed' = true ↔ ∀ call ∈ calls, call.isExit = false) :
      Remembers options t (log ++ [(.check t throws returns, calls)])
        ⟨watchdog.lastPassAtMs, publishes || watchdog.stalled, armed'⟩ := by
    constructor
    case lastPass => rw [hmarks]; exact h.lastPass
    case past => rw [hmarks]; exact h.past
    case ordered => rw [hmarks]; exact h.ordered
    case armed => rw [armed_snoc]; simp [hArmed, harmed']
    case marked => exact fun _ => h.marked harmed
    case stalls => rw [stallsSince_other rfl, hcount]; exact hcalls
    case stalled =>
      rw [hsaw, ← hpublishes]
      cases watchdog.stalled <;> simp
  have harmed_entry (calls : List WatchdogCall) : calls ≠ [] → Armed log ∧ ∃ nowMs throws' returns',
      (WatchdogInput.check t throws returns) = .check nowMs throws' returns' :=
    fun _ => ⟨hArmed, t, throws, returns, rfl⟩
  split
  · rename_i hexit
    -- the first threshold is passed too: the latch is set, by this check or by an earlier one
    have hlatched : (publishes || watchdog.stalled) = true := by
      rw [← hpublishes, decide_eq_true (le_trans horder hexit)]
      cases watchdog.stalled <;> rfl
    rw [hlatched, if_pos rfl] at hcalls
    refine ⟨⟨harmed_entry _, by simpa [WatchdogCall.isOnStall] using honce, fun code hcode => ?_⟩, ?_⟩
    · have hone : code = 1 := by
        rcases List.mem_append.mp hcode with hcode | hcode
        · cases hnoexit _ hcode
        · simpa using hcode
      refine ⟨t, throws, returns, first, rfl, hone, hnoexit, ?_, fun ms hms => ?_, hcalls⟩
      · rintro hempty
        simp [hempty] at hlog
      · rw [passAgeSeconds_of_last hlast] at hexit
        exact le_trans hexit (age_le_of_mark h hlog ms hms)
    · intro watchdog' hwatchdog'
      cases returns with
      | false => cases hwatchdog'
      | true =>
          cases hwatchdog'
          exact hremembers _ false (by simp [WatchdogCall.isOnStall]) (by simp [WatchdogCall.isExit])
  · refine ⟨⟨harmed_entry _, honce, fun code hcode => absurd (hnoexit _ hcode) (by simp [WatchdogCall.isExit])⟩, ?_⟩
    intro watchdog' hwatchdog'
    cases hwatchdog'
    exact hremembers _ true rfl (by simpa using hnoexit)

theorem callsSound_silent (log : List WatchdogEntry) (input : WatchdogInput)
    (h : stallsSince log ≤ 1) : CallsSound options log (input, []) := by
  refine ⟨fun hne => absurd rfl hne, by simpa using h, fun code hcode => ?_⟩
  cases hcode

theorem Remembers.stalls_le (h : Remembers options t log watchdog) : stallsSince log ≤ 1 := by
  rw [h.stalls]
  split <;> omega

/-- One step: its calls are sound, and what is left of the watchdog remembers them. -/
theorem watchdog_step (horder : options.publishAfterSeconds ≤ options.exitAfterSeconds)
    (h : Remembers options t log watchdog) {input : WatchdogInput} (htime : ∀ ms, input.nowMs = some ms → ms = t)
    {process' : Option LoopWatchdog} {calls : List WatchdogCall}
    (hstep : (loopWatchdog options).step (some watchdog) input = .ok (process', calls)) :
    CallsSound options log (input, calls) ∧
      ∀ watchdog', process' = some watchdog' → Remembers options t (log ++ [(input, calls)]) watchdog' := by
  cases input with
  | arm nowMs =>
      cases htime nowMs rfl
      cases hstep
      refine ⟨callsSound_silent log _ h.stalls_le, fun watchdog' hwatchdog' => ?_⟩
      cases hwatchdog'
      exact h.mark rfl rfl rfl (by simp [LoopWatchdog.arm, armed_snoc])
  | passCompleted nowMs =>
      cases htime nowMs rfl
      cases hstep
      refine ⟨callsSound_silent log _ h.stalls_le, fun watchdog' hwatchdog' => ?_⟩
      cases hwatchdog'
      exact h.mark rfl rfl rfl (by simp [LoopWatchdog.passCompleted, armed_snoc, h.armed])
  | check nowMs throws returns =>
      cases htime nowMs rfl
      have heq : watchdog.check options t throws returns = (process', calls) := Except.ok.inj hstep
      cases harmed : watchdog.armed with
      | false =>
          simp only [LoopWatchdog.check, harmed, Bool.not_false, if_true, Prod.mk.injEq] at heq
          obtain ⟨rfl, rfl⟩ := heq
          refine ⟨callsSound_silent log _ h.stalls_le, fun watchdog' hwatchdog' => ?_⟩
          cases hwatchdog'
          exact h.unarmed_check harmed throws returns
      | true =>
          have hcheck := h.armed_check harmed horder throws returns
          rw [heq] at hcheck
          exact hcheck
  | disarm =>
      cases hstep
      refine ⟨callsSound_silent log _ h.stalls_le, fun watchdog' hwatchdog' => ?_⟩
      cases hwatchdog'
      exact h.disarm

end

/-- Whatever the order of the calls: the watchdog calls nothing unless it is armed, publishes once between
marks, exits once for each arming and only past the second threshold and a publication, and reports a stall
exactly where a check since the last mark saw one. -/
theorem watchdog_exits_only_a_stopped_loop (options : LoopWatchdogOptions)
    (horder : options.publishAfterSeconds ≤ options.exitAfterSeconds) (inputs : List WatchdogInput) (nowMs : ℚ)
    (hclock : (inputs.filterMap WatchdogInput.nowMs ++ [nowMs]).Pairwise (· ≤ ·)) :
    EachAfter (CallsSound options) ((loopWatchdog options).accepted (some createLoopWatchdog) inputs) ∧
      ∀ watchdog, (loopWatchdog options).run (some createLoopWatchdog) inputs = some watchdog →
        ((watchdog.liveness nowMs).stalled = true ↔
          SawStall options ((loopWatchdog options).accepted (some createLoopWatchdog) inputs)) := by
  have hrun := Machine.run_timed (m := loopWatchdog options) WatchdogInput.nowMs
    (H := fun t log process => EachAfter (CallsSound options) log ∧
      ∀ watchdog, process = some watchdog → Remembers options t log watchdog)
    ?_ ?_ (s := some createLoopWatchdog) ?_ inputs nowMs hclock
  · exact ⟨hrun.1, fun watchdog hwatchdog => (hrun.2 watchdog hwatchdog).stalled⟩
  · intro t t' log process hle h
    exact ⟨h.1, fun watchdog hwatchdog =>
      { h.2 watchdog hwatchdog with past := fun ms hms => le_trans ((h.2 watchdog hwatchdog).past ms hms) hle }⟩
  · intro t log process input process' calls htime h hstep
    cases process with
    | none => cases hstep
    | some watchdog =>
        obtain ⟨hsound, hremembers⟩ := watchdog_step horder (h.2 watchdog rfl) htime hstep
        exact ⟨h.1.snoc hsound, hremembers⟩
  · intro t
    refine ⟨eachAfter_nil _, fun watchdog hwatchdog => ?_⟩
    cases hwatchdog
    constructor <;> simp [createLoopWatchdog, marks, Armed, stallsSince, SawStall]

/-- Armed, overdue for both thresholds at once with `onStall` throwing, and checked again. -/
theorem watchdog_exits_only_a_stopped_loop_witness :
    EachAfter (CallsSound ⟨90, 300⟩) ((loopWatchdog ⟨90, 300⟩).accepted (some createLoopWatchdog)
      [.arm 0, .check 400000 true true, .check 402000 false true]) :=
  (watchdog_exits_only_a_stopped_loop ⟨90, 300⟩ (by norm_num) _ 402000
    (by simp [WatchdogInput.nowMs]; norm_num)).1

end BullsUnicorns.Keeper
