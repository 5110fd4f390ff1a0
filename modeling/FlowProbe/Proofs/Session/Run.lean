import FlowProbe.Proofs.Path.Ageing
import FlowProbe.Proofs.Session.Output

/-! The runs of a session.

A run is a list of calls: events one by one and rings of segments. The maps of a replay have no
order that anyone may rely on, yet a call walks them in one. So a call carries the orders in
which they come up once its traffic is taken in, and they may come up in others between two
calls: what holds of all runs holds of all walks. In the orders in which the pairs came in, a
call is that of the session (`perform_apply`, `perform_applyRing`), and so is a run over events
(`applyAll_eq`).
What a call does to the monitor is to take in traffic and to poll once, whatever was written to
the output before. So the path tracker has been polled at the latest event by the end of every
call, and a session is between two calls as a poll leaves it (`settled_run`). -/
namespace FlowProbe

/-! ### Orders of the maps -/

/-- Orders in which maps come up that are walked. One that does not hold the same pairs changes
nothing. -/
structure Orders where
  handshakes : Keyed Flow RoundTrips := .empty
  ackDelays : Keyed Flow Delays := .empty
  packets : Keyed Flow PacketTotal := .empty
  pairs : Keyed PodPair Span := .empty
  calls : Keyed UInt32 Syscall := .empty

/-- The same monitor with its maps in other orders. -/
def Monitor.reorder (m : Monitor) (order : Orders) : Monitor :=
  { m with
    handshakes := Windowed.reorder m.handshakes order.handshakes
    ackDelays := Windowed.reorder m.ackDelays order.ackDelays
    packets := Windowed.reorder m.packets order.packets
    paths := m.paths.reorder order.pairs }

/-- The same replay with its maps in other orders. -/
def Work.reorder (w : Work) (order : Orders) : Work :=
  { w with monitor := w.monitor.reorder order, syscalls := w.syscalls.reorder order.calls }

theorem Work.reorder_empty (w : Work) : w.reorder {} = w := by
  simp only [Work.reorder, Monitor.reorder, Windowed.reorder, Analyzing.withWindow,
    Window.reorder, PathTracker.reorder, SyscallTracker.reorder, Keyed.reorder_empty]
  rfl

namespace Session

def reorder (s : Session) (order : Orders) : Session :=
  { s with toWork := s.toWork.reorder order }

/-! ### Calls -/

inductive Call where
  | apply (e : Event) (order : Orders := {})
  | applyRing (r : Ring Segment) (order : Orders := {})
  | reorder (order : Orders)

/-- The session behind a call, and what the call hands out. -/
def perform (s : Session) : Call → Session × List Record
  | .apply e order =>
    let (w, made) := (s.note e).take e
    let (s, written) := (w.reorder order).poll.sweep.emit
    (s, made ++ written)
  | .applyRing r order => ((s.takeRing r).reorder order).poll.emit
  | .reorder order => (s.reorder order, [])

def step (s : Session) (call : Call) : Session := (s.perform call).1

def run (s : Session) : List Call → Session
  | [] => s
  | call :: rest => run (s.step call) rest

/-- The lines that a call hands out. -/
def written (s : Session) (call : Call) : List Record := (s.perform call).2

/-- The lines that a run hands out. -/
def lines (s : Session) : List Call → List Record
  | [] => []
  | call :: rest => s.written call ++ (s.step call).lines rest

/-- The lines of a replay: those of its calls and those of its end. -/
def replayed (s : Session) (calls : List Call) : List Record :=
  s.lines calls ++ (s.run calls).finish.2

/-- What every call keeps, every run keeps. -/
theorem run_invariant {P : Session → Prop} (hstep : ∀ s call, P s → P (s.step call)) {s : Session}
    (h : P s) (calls : List Call) : P (s.run calls) := by
  induction calls generalizing s with
  | nil => exact h
  | cons call rest ih => exact ih (hstep s call h)

/-! ### One call -/

/-- What the monitor of a call is polled with. -/
def Call.intake (m : Monitor) : Call → Monitor
  | .apply e order => (m.take e).reorder order
  | .applyRing r order => (m.ingestAll r.items).reorder order
  | .reorder order => m.reorder order

/-- The replay that the sweep of an event finds. -/
def polled (s : Session) (e : Event) (order : Orders) : Work := ((s.taken e).reorder order).poll

theorem perform_apply_eq (s : Session) (e : Event) (order : Orders) :
    s.perform (.apply e order) = (s.polled e order).sweep.emit := by
  rw [perform, take_note]
  rfl

theorem perform_apply (s : Session) (e : Event) : s.perform (.apply e) = s.apply e := by
  rw [perform_apply_eq, polled, Work.reorder_empty, apply, take_note]
  rfl

theorem perform_applyRing (s : Session) (r : Ring Segment) :
    s.perform (.applyRing r) = s.applyRing r := by
  rw [perform, Work.reorder_empty]
  rfl

theorem reorder_empty (s : Session) : s.reorder {} = s := by
  simp only [reorder, Work.reorder_empty]

/-- The calls of a replay of events: each event comes with orders for the maps, and so does the
end of the capture. -/
def played (orders : Nat → Orders) : List Event → List Call
  | [] => [.reorder (orders 0)]
  | e :: events => .apply e (orders 0) :: played (fun n => orders (n + 1)) events

/-- In the orders in which the pairs came in, the calls do what the session's own run over the
events does. -/
theorem applyAll_eq (s : Session) (events : List Event) :
    s.applyAll events =
      (s.run (played (fun _ => {}) events), s.lines (played (fun _ => {}) events)) := by
  induction events generalizing s with
  | nil =>
    show (s, []) = (s.reorder {}, [])
    rw [reorder_empty]
  | cons e events ih =>
    rw [played, run, lines, step, written, perform_apply]
    show (((s.apply e).1.applyAll events).1, (s.apply e).2 ++ ((s.apply e).1.applyAll events).2) = _
    rw [ih]

theorem monitor_sweep (w : Work) : w.sweep.monitor = w.monitor := by
  rw [Work.sweep]
  split <;> rfl

theorem monitor_apply (s : Session) (e : Event) (order : Orders) :
    (s.step (.apply e order)).monitor =
      (((s.monitor.take e).reorder order).poll (s.taken e).out).state := by
  rw [step, perform_apply_eq]
  exact monitor_sweep _

theorem monitor_applyRing (s : Session) (r : Ring Segment) (order : Orders) :
    (s.step (.applyRing r order)).monitor =
      (((s.monitor.ingestAll r.items).reorder order).poll s.out).state := rfl

theorem capacity_step (s : Session) (call : Call) : (s.step call).capacity = s.capacity := by
  cases call with
  | apply e order =>
    rw [step, perform_apply_eq]
    exact ((s.polled e order).capacity_sweep.trans (Work.capacity_poll _)).trans (s.capacity_taken e)
  | applyRing r order => exact Work.capacity_poll _
  | reorder order => rfl

/-! ### Where a run stands -/

/-- At the latest event there is nothing to age. -/
def Settled (s : Session) : Prop := s.monitor.paths.Settled s.monitor.latest

theorem settled_step {s : Session} (h : s.Settled) (call : Call) : (s.step call).Settled := by
  cases call with
  | apply e order =>
    rw [Settled, monitor_apply]
    exact PathTracker.settled_poll _ _ _
  | applyRing r order => exact PathTracker.settled_poll _ _ _
  | reorder order => exact PathTracker.Settled.reorder h order.pairs

/-- A session opens with nothing but what its settings say. -/
theorem ofSettings_eq_ok {settings : Settings} {s : Session} (h : ofSettings settings = .ok s) :
    ∃ table, settings.table = .ok table ∧ s.monitor = .ofSettings settings table ∧
      s.capacity = settings.outputCapacity.toNat := by
  rw [ofSettings] at h
  cases ht : settings.table with
  | error fault =>
    rw [ht] at h
    cases h
  | ok table =>
    rw [ht] at h
    cases h
    exact ⟨table, rfl, rfl, rfl⟩

theorem settled_ofSettings {settings : Settings} {s : Session}
    (h : ofSettings settings = .ok s) : s.Settled := by
  obtain ⟨table, -, hmonitor, -⟩ := ofSettings_eq_ok h
  rw [Settled, hmonitor]
  exact PathTracker.settled_new settings.clearCycle 0

theorem settled_run {settings : Settings} {s : Session} (h : ofSettings settings = .ok s)
    (calls : List Call) : (s.run calls).Settled :=
  run_invariant (P := Settled) (fun _ call hs => settled_step hs call) (settled_ofSettings h) calls

theorem capacity_run (s : Session) (calls : List Call) : (s.run calls).capacity = s.capacity :=
  run_invariant (P := fun u => u.capacity = s.capacity)
    (fun u call h => (u.capacity_step call).trans h) rfl calls

end Session

end FlowProbe
