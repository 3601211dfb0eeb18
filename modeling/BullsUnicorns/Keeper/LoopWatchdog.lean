import BullsUnicorns.Lib.Machine

/-!
# The loop watchdog

`scripts/keeper/loopWatchdog.ts`: a mark at the end of every pass, and a check on the heartbeat that
publishes at one threshold and exits at another. Every call that reads the monotonic clock carries the
reading; the log lines are left out.
-/

namespace BullsUnicorns.Keeper

structure LoopWatchdogOptions where
  publishAfterSeconds : ℚ
  exitAfterSeconds : ℚ

structure LoopWatchdog where
  lastPassAtMs : Option ℚ
  stalled : Bool
  armed : Bool
deriving DecidableEq, Repr

structure LoopLiveness where
  passAgeSeconds : ℚ
  stalled : Bool
deriving DecidableEq, Repr

/-- The two functions that it was given. The first may throw, which is caught. -/
inductive WatchdogCall where
  | onStall (threw : Bool)
  | exit (code : ℕ)
deriving DecidableEq, Repr

inductive WatchdogInput where
  | arm (nowMs : ℚ)
  | passCompleted (nowMs : ℚ)
  /-- What `onStall` and `exit` would do, were they called. -/
  | check (nowMs : ℚ) (onStallThrows exitReturns : Bool)
  | disarm
deriving DecidableEq, Repr

def createLoopWatchdog : LoopWatchdog := ⟨none, false, false⟩

namespace LoopWatchdog

def arm (_ : LoopWatchdog) (nowMs : ℚ) : LoopWatchdog := ⟨some nowMs, false, true⟩

variable (watchdog : LoopWatchdog)

def passAgeSeconds (nowMs : ℚ) : ℚ :=
  match watchdog.lastPassAtMs with
  | none => 0
  | some last => (nowMs - last) / 1000

def passCompleted (nowMs : ℚ) : LoopWatchdog := { watchdog with lastPassAtMs := some nowMs, stalled := false }

def liveness (nowMs : ℚ) : LoopLiveness := ⟨watchdog.passAgeSeconds nowMs, watchdog.stalled⟩

def disarm : LoopWatchdog := { watchdog with armed := false }

/-- The watchdog after a check, gone when `exit` did not return, and the calls made. -/
def check (options : LoopWatchdogOptions) (nowMs : ℚ) (onStallThrows exitReturns : Bool) :
    Option LoopWatchdog × List WatchdogCall :=
  if !watchdog.armed then (some watchdog, [])
  else
    let age := watchdog.passAgeSeconds nowMs
    let publishes := decide (options.publishAfterSeconds ≤ age) && !watchdog.stalled
    -- latched before the call, so that a throw is not retried
    let watchdog' := { watchdog with stalled := publishes || watchdog.stalled }
    let calls := if publishes then [WatchdogCall.onStall onStallThrows] else []
    if options.exitAfterSeconds ≤ age then
      (if exitReturns then some { watchdog' with armed := false } else none, calls ++ [.exit 1])
    else (some watchdog', calls)

end LoopWatchdog

/-- The process with its watchdog; nothing is called in it once it is gone. -/
def loopWatchdog (options : LoopWatchdogOptions) :
    Machine (Option LoopWatchdog) WatchdogInput (List WatchdogCall) Unit where
  step process input :=
    match process with
    | none => .error ()
    | some watchdog =>
        match input with
        | .arm nowMs => .ok (some (watchdog.arm nowMs), [])
        | .passCompleted nowMs => .ok (some (watchdog.passCompleted nowMs), [])
        | .check nowMs throws returns => .ok (watchdog.check options nowMs throws returns)
        | .disarm => .ok (some watchdog.disarm, [])

end BullsUnicorns.Keeper
