import FlowProbe.Event.Basic
import FlowProbe.Monitor
import FlowProbe.Syscall.Tracker

/-! One replay of a capture.

A session drives the monitor and the system call tracker from events. Its output stays with it
from one step to the next, but a step ends by handing out all that was written to it, and
`Work.emit` is the one way to the end of a step: nothing waits in the output between two steps,
and a `Session` carries the proof (`idle`). In the middle of a step it is at `Work`, and the
output may hold records, so room is made for the record of a slow call (`Work.report`).
`finish` closes all windows again and again until nothing is written or nothing is left, then
sweeps until nothing is evicted; both loops end, because each round but the last leaves less
behind (`pending_flushAll_lt`, `size_sweepInto_lt`). -/
namespace FlowProbe

/-- A replay in the middle of a step. -/
structure Work where
  monitor : Monitor
  syscalls : SyscallTracker
  /-- When the next sweep of system calls is due. -/
  sweepClock : WindowClock
  /-- What was written and not handed out so far. -/
  out : Buffer
  /-- Events taken in so far. -/
  events : Nat := 0
  /-- Records handed out so far. -/
  records : Nat := 0
  deriving DecidableEq, Repr

/-- A replay between two steps. -/
structure Session extends Work where
  /-- Nothing waits in the output. -/
  idle : out.records = [] := by rfl
  deriving DecidableEq, Repr

namespace Work

/-- How many records the output holds. -/
def capacity (w : Work) : Nat := w.out.capacity

/-- Hands out what waits in the output. -/
def emit (w : Work) : Session × List Record :=
  ({ w with out := w.out.clear, records := w.records + w.out.size, idle := rfl }, w.out.records)

/-- Counts an event and takes its time, if it has one. -/
def note (w : Work) (e : Event) : Work :=
  { w with
    events := w.events + 1
    sweepClock := match e.time? with
      | some time => w.sweepClock.observe time
      | none => w.sweepClock }

/-- Hands out what waits in an output that is full. -/
def makeRoom (w : Work) : Work × List Record :=
  if w.out.isFull then (w.emit.1.toWork, w.emit.2) else (w, [])

/-- Writes the record of a slow call. The call is tracked no more, so room is made for the
record; only an output for none at all drops it. -/
def report (w : Work) (slow : Record) : Work × List Record :=
  let (w, made) := w.makeRoom
  match w.out.push slow with
  | some out => ({ w with out }, made)
  | none => (w, made)

/-- Hands an event to what tracks it. A call that ends slowly is written at once. -/
def take (w : Work) : Event → Work × List Record
  | .segment e => ({ w with monitor := w.monitor.ingest e.segment }, [])
  | .reported e => ({ w with monitor := w.monitor.ingestReport e.report }, [])
  | .focusPod source dest span op =>
    ({ w with monitor := w.monitor.updateFocus source dest span op }, [])
  | .syscallEnter tid pid kind time =>
    ({ w with syscalls := w.syscalls.enter tid pid kind time }, [])
  | .syscallExit tid time =>
    let (syscalls, slow) := w.syscalls.exit tid time
    match slow with
    | some slow => { w with syscalls }.report slow
    | none => ({ w with syscalls }, [])

def poll (w : Work) : Work :=
  let p := w.monitor.poll w.out
  { w with monitor := p.state, out := p.out }

/-- Sweeps the system calls once in every flush interval. -/
def sweep (w : Work) : Work :=
  if w.sweepClock.isDue then
    let s := w.syscalls.sweepInto w.sweepClock.latest w.out
    { w with syscalls := s.state, out := s.out, sweepClock := w.sweepClock.restart }
  else w

end Work

namespace Session

def ofSettings (s : Settings) : Except Fault Session :=
  s.table.map fun table =>
    { monitor := .ofSettings s table
      syscalls := { threshold := s.threshold, timeout := s.timeout }
      sweepClock := { interval := s.flushInterval }
      out := { capacity := s.outputCapacity.toNat } }

/-- Takes in one event and hands out what was written because of it. -/
def apply (s : Session) (e : Event) : Session × List Record :=
  let (w, made) := (s.note e).take e
  let (s, written) := w.poll.sweep.emit
  (s, made ++ written)

def applyAll (s : Session) : List Event → Session × List Record
  | [] => (s, [])
  | e :: events =>
    let (s, written) := s.apply e
    let (s, rest) := s.applyAll events
    (s, written ++ rest)

/-- Takes in every slot of a ring between its cursors. The clock of the sweeps stands still
meanwhile. -/
def takeRing (s : Session) (r : Ring Segment) : Work :=
  let (monitor, taken) := s.monitor.ingestRing r
  { s.toWork with monitor, events := s.events + taken }

/-- Takes in a ring, then polls once. -/
def applyRing (s : Session) (r : Ring Segment) : Session × List Record := (s.takeRing r).poll.emit

/-- Closes all windows until nothing is written or nothing is left. -/
def flushAll (s : Session) : Session × List Record :=
  let f := s.monitor.flushAll s.out
  let round := { s.toWork with monitor := f.state, out := f.out }.emit
  if h : f.count = 0 ∨ f.state.pending = 0 then round
  else
    have := Monitor.pending_flushAll_lt (fun h0 => h (.inl h0)) (fun h0 => h (.inr h0))
    let (last, rest) := round.1.flushAll
    (last, round.2 ++ rest)
termination_by s.monitor.pending

/-- Sweeps at the latest event until nothing is evicted. -/
def sweepAll (s : Session) : Session × List Record :=
  let w := s.syscalls.sweepInto s.sweepClock.latest s.out
  if h : w.count = 0 then (s, [])
  else
    have := SyscallTracker.size_sweepInto_lt h
    let round := { s.toWork with syscalls := w.state, out := w.out }.emit
    let (last, rest) := round.1.sweepAll
    (last, round.2 ++ rest)
termination_by s.syscalls.size

/-- Hands out what is left at the end of a capture. -/
def finish (s : Session) : Session × List Record :=
  let (s, flushed) := s.flushAll
  let (s, swept) := s.sweepAll
  (s, flushed ++ swept)

def metrics (s : Session) : Metrics := s.monitor.metrics

end Session

end FlowProbe
