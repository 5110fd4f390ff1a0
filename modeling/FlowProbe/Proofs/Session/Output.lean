import FlowProbe.Proofs.Monitor.Blocks
import FlowProbe.Proofs.Syscall.Sweep
import FlowProbe.Session

/-! The output of a replay.

The output stays with a replay from step to step, and its capacity never changes. An event that
ends a slow call writes to it before the poll: what waits in a full output is handed out first,
so a record is lost only to an output that holds none (`records_take`). A session has nothing in
its output, so none of its steps makes room (`Session.take_note`). -/
namespace FlowProbe

/-- What an event does to a monitor before the poll. -/
def Monitor.take (m : Monitor) : Event → Monitor
  | .segment e => m.ingest e.segment
  | .reported e => m.ingestReport e.report
  | .focusPod source dest span op => m.updateFocus source dest span op
  | .syscallEnter .. | .syscallExit .. => m

namespace SyscallTracker

/-- What an event does to the system calls. -/
def take (t : SyscallTracker) : Event → SyscallTracker
  | .syscallEnter tid pid kind time => t.enter tid pid kind time
  | .syscallExit tid time => (t.exit tid time).1
  | .segment _ | .reported _ | .focusPod .. => t

/-- The record of the slow call that an event ends. -/
def slow (t : SyscallTracker) : Event → List Record
  | .syscallExit tid time => (t.exit tid time).2.toList
  | .segment _ | .reported _ | .focusPod .. | .syscallEnter .. => []

end SyscallTracker

namespace Work

variable (w : Work)

/-! ### Room for the record of a slow call -/

/-- What is handed out and what still waits is what waited. -/
theorem records_makeRoom : w.makeRoom.2 ++ w.makeRoom.1.out.records = w.out.records := by
  rw [makeRoom]
  split
  · exact List.append_nil _
  · rfl

theorem capacity_makeRoom : w.makeRoom.1.capacity = w.capacity := by
  rw [makeRoom]
  split <;> rfl

theorem remaining_makeRoom (h : 1 ≤ w.capacity) : 1 ≤ w.makeRoom.1.out.remaining := by
  rw [makeRoom]
  split
  · exact h
  · next hroom =>
    rw [Buffer.isFull_iff] at hroom
    exact Nat.one_le_iff_ne_zero.2 hroom

/-- In an output that holds any, there is room for a record once it was made. -/
theorem push_makeRoom_ne_none (h : 1 ≤ w.capacity) (slow : Record) :
    w.makeRoom.1.out.push slow ≠ none := by
  rw [ne_eq, Buffer.push_eq_none_iff]
  exact Nat.one_le_iff_ne_zero.1 (w.remaining_makeRoom h)

theorem report_eq (slow : Record) :
    w.report slow = ({ w.makeRoom.1 with out := w.makeRoom.1.out.offer [slow] }, w.makeRoom.2) := by
  rw [report]
  cases w.makeRoom with
  | mk v made =>
    simp only [Buffer.offer, List.foldl_cons, List.foldl_nil]
    cases v.out.push slow <;> rfl

/-- Behind what waited stands the new record, unless the output holds none at all. -/
theorem records_report (slow : Record) :
    (w.report slow).2 ++ (w.report slow).1.out.records =
      w.out.records ++ [slow].take w.capacity := by
  have hroom : [slow].take w.makeRoom.1.out.remaining = [slow].take w.capacity := by
    have hcapacity := w.makeRoom.1.out.capacity_eq
    rw [show w.makeRoom.1.out.capacity = w.capacity from w.capacity_makeRoom] at hcapacity
    by_cases h : 1 ≤ w.capacity
    · rw [List.take_of_length_le (w.remaining_makeRoom h), List.take_of_length_le h]
    · rw [show w.makeRoom.1.out.remaining = 0 by omega, show w.capacity = 0 by omega]
  rw [report_eq, Buffer.offer_eq, Buffer.records_accept, ← List.append_assoc, records_makeRoom,
    hroom]

/-- Taking in an event hands out and keeps what waited, with the record of a slow call behind it
in an output that holds any. -/
theorem records_take (e : Event) :
    (w.take e).2 ++ (w.take e).1.out.records =
      w.out.records ++ (w.syscalls.slow e).take w.capacity := by
  cases e with
  | syscallExit tid time =>
    rw [take, SyscallTracker.slow]
    cases hexit : w.syscalls.exit tid time with
    | mk syscalls slow =>
      cases slow with
      | none => rw [Option.toList_none, List.take_nil, List.append_nil]; rfl
      | some slow => exact records_report { w with syscalls } slow
  | segment | reported | focusPod | syscallEnter =>
    rw [SyscallTracker.slow, List.take_nil, List.append_nil]
    rfl

/-! ### Nothing in the output -/

section Idle

variable {w} (h : w.out.records = [])
include h

theorem makeRoom_of_idle : w.makeRoom = (w, []) := by
  rw [makeRoom]
  split
  · have hemit : w.emit.1.toWork = { w with out := w.out.clear, records := w.records + 0 } := by
      rw [emit, Buffer.size, h]
      rfl
    rw [hemit, Buffer.clear_eq h, emit, h]
    rfl
  · rfl

/-- With nothing in the output there is no need to make room. -/
theorem take_of_idle (e : Event) :
    w.take e = ({ w with
      monitor := w.monitor.take e
      syscalls := w.syscalls.take e
      out := w.out.offer (w.syscalls.slow e) }, []) := by
  cases e with
  | syscallExit tid time =>
    rw [take, SyscallTracker.slow, SyscallTracker.take]
    cases hexit : w.syscalls.exit tid time with
    | mk syscalls slow =>
      cases slow with
      | none => rfl
      | some slow =>
        have hidle : ({ w with syscalls } : Work).makeRoom = ({ w with syscalls }, []) :=
          makeRoom_of_idle h
        show Work.report { w with syscalls } slow = _
        rw [report_eq, hidle]
        rfl
  | segment | reported | focusPod | syscallEnter => rfl

end Idle

/-! ### Capacities -/

theorem capacity_poll : w.poll.capacity = w.capacity := (w.monitor.writes_poll w.out).appends.capacity

theorem capacity_sweep : w.sweep.capacity = w.capacity := by
  rw [sweep]
  split
  · exact w.syscalls.capacity_sweepInto w.sweepClock.latest w.out
  · rfl

end Work

namespace Session

@[simp] theorem remaining_out (s : Session) : s.out.remaining = s.capacity := by
  have hcapacity := s.out.capacity_eq
  rw [Buffer.size, s.idle, List.length_nil, Nat.zero_add] at hcapacity
  exact hcapacity.symm

/-- A session that has taken in an event. -/
def taken (s : Session) (e : Event) : Work :=
  { s.note e with
    monitor := s.monitor.take e
    syscalls := s.syscalls.take e
    out := s.out.offer (s.syscalls.slow e) }

/-- Nothing is handed out while a session takes in an event. -/
theorem take_note (s : Session) (e : Event) : (s.note e).take e = (s.taken e, []) :=
  Work.take_of_idle (show (s.note e).out.records = [] from s.idle) e

theorem records_taken (s : Session) (e : Event) :
    (s.taken e).out.records = (s.syscalls.slow e).take s.capacity := by
  have hrecords := (s.note e).records_take e
  rw [take_note, List.nil_append] at hrecords
  rw [hrecords, show (s.note e).out.records = [] from s.idle]
  rfl

theorem capacity_taken (s : Session) (e : Event) : (s.taken e).capacity = s.capacity :=
  s.out.capacity_offer _

end Session

end FlowProbe
