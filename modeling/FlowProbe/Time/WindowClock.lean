import FlowProbe.Time.Nanos

/-! The clock of an aggregation window, driven by event times alone.

The first event a clock observes opens the window and `restart` opens the next one at
the latest event, so a recorded stream closes its windows at the same events whenever
it is played. The latest event is the last one observed, not the largest: a time that
jumps back is recorded as it comes, and `isDue` measures no time then. -/
namespace FlowProbe

structure WindowClock where
  interval : Nanos
  /-- When the present window opened. -/
  opened : Option Nanos := none
  latest : Nanos := 0
  deriving DecidableEq, Repr, Inhabited

namespace WindowClock

def observe (c : WindowClock) (t : Nanos) : WindowClock :=
  { c with opened := c.opened <|> some t, latest := t }

/-- Whether a whole interval of event time has passed since the window opened. -/
def isDue (c : WindowClock) : Bool :=
  match c.opened with
  | some start => c.interval ≤ Nanos.elapsed start c.latest
  | none => false

/-- Opens the next window at the latest event. -/
def restart (c : WindowClock) : WindowClock := { c with opened := some c.latest }

@[simp] theorem latest_observe (c : WindowClock) (t : Nanos) : (c.observe t).latest = t := rfl

@[simp] theorem interval_observe (c : WindowClock) (t : Nanos) :
    (c.observe t).interval = c.interval := rfl

@[simp] theorem latest_restart (c : WindowClock) : c.restart.latest = c.latest := rfl

@[simp] theorem interval_restart (c : WindowClock) : c.restart.interval = c.interval := rfl

/-- A window that has just been opened is due only if windows are empty. -/
theorem isDue_restart (c : WindowClock) : c.restart.isDue = decide (c.interval = 0) := by
  simp [isDue, restart]

end WindowClock

end FlowProbe
