import FlowProbe.Net.Interfaces
import FlowProbe.Telemetry.Buffer
import FlowProbe.Telemetry.Counters
import FlowProbe.Time.WindowClock

/-! What the analyzers that work in windows of event time have in common.

A `Window` gathers one aggregate for each flow. `flush` writes them in their order up to
the first that the output refuses; `aggregates_flush`, `records_flush` and `written_flush`
say that those are as many from the front as there is room for, and that the others stay
as they are. An analyzer is `Windowed`: `poll` flushes it when its window is over and opens
the next one, `close` does so at once. `LawfulWindowed` carries the three statements over
to analyzers. -/
namespace FlowProbe

structure Window (β : Type) where
  clock : WindowClock
  counters : Counters := {}
  aggregates : Keyed Flow β := .empty
  deriving DecidableEq, Repr

namespace Window

variable {β : Type}

/-- How many aggregates wait for a flush. -/
def pending (w : Window β) : Nat := w.aggregates.size

def observe (w : Window β) (t : Nanos) : Window β := { w with clock := w.clock.observe t }

def restart (w : Window β) : Window β := { w with clock := w.clock.restart }

def ingest (w : Window β) : Window β := { w with counters := w.counters.ingest }

def miss (w : Window β) (n : Nat) : Window β := { w with counters := w.counters.miss n }

/-- Folds an event into the aggregate of a flow. -/
def gather (w : Window β) (f : Flow) (first : β) (next : β → β) : Window β :=
  { w with
    aggregates := w.aggregates.alter f fun b =>
      match b with
      | none => some first
      | some b => some (next b) }

/-- Writes aggregates as `record` puts them until the output is full. -/
def flush (record : Nanos → Flow → β → Record) (w : Window β) (out : Buffer) :
    Written (Window β) :=
  let accepted := out.accept (w.aggregates.entries.map fun p => record w.clock.latest p.1 p.2)
  let rest := w.aggregates.drop accepted.2
  ⟨{ w with aggregates := rest, counters := w.counters.flush accepted.2 rest.size },
    accepted.1, accepted.2⟩

theorem written_flush (record : Nanos → Flow → β → Record) (w : Window β) (out : Buffer) :
    (w.flush record out).count = min out.remaining w.pending := by
  rw [flush, Buffer.count_accept, List.length_map]
  rfl

theorem records_flush (record : Nanos → Flow → β → Record) (w : Window β) (out : Buffer) :
    (w.flush record out).out.records = out.records ++
      (w.aggregates.entries.map fun p => record w.clock.latest p.1 p.2).take out.remaining :=
  out.records_accept _

theorem remaining_flush (record : Nanos → Flow → β → Record) (w : Window β) (out : Buffer) :
    (w.flush record out).out.remaining = out.remaining - w.pending := by
  rw [flush, Buffer.remaining_accept, List.length_map]
  rfl

theorem aggregates_flush (record : Nanos → Flow → β → Record) (w : Window β) (out : Buffer) :
    (w.flush record out).state.aggregates = w.aggregates.drop (min out.remaining w.pending) := by
  rw [← written_flush record]
  rfl

theorem pending_flush (record : Nanos → Flow → β → Record) (w : Window β) (out : Buffer) :
    (w.flush record out).state.pending = w.pending - out.remaining := by
  rw [pending, aggregates_flush, Keyed.size_drop, pending]
  omega

end Window

/-- An analyzer that flushes when its window of event time is over. -/
class Windowed (σ : Type) where
  label : String
  clock : σ → WindowClock
  restart : σ → σ
  /-- How many aggregates wait for a flush. -/
  pending : σ → Nat
  counters : σ → Counters
  flush : InterfaceTable → σ → Buffer → Written σ

namespace Windowed

variable {σ : Type} [Windowed σ]

/-- Flushes and opens the next window. -/
def close (t : InterfaceTable) (s : σ) (out : Buffer) : Written σ :=
  (flush t s out).map restart

/-- Closes the window if it is over. -/
def poll (t : InterfaceTable) (s : σ) (out : Buffer) : Written σ :=
  if (clock s).isDue then close t s out else ⟨s, out, 0⟩

end Windowed

/-- A windowed analyzer whose flush writes as many aggregates as there is room for, and whose
restart keeps them. -/
class LawfulWindowed (σ : Type) [Windowed σ] : Prop where
  count_flush (t : InterfaceTable) (s : σ) (out : Buffer) :
    (Windowed.flush t s out).count = min out.remaining (Windowed.pending s)
  remaining_flush (t : InterfaceTable) (s : σ) (out : Buffer) :
    (Windowed.flush t s out).out.remaining = out.remaining - Windowed.pending s
  pending_flush (t : InterfaceTable) (s : σ) (out : Buffer) :
    Windowed.pending (Windowed.flush t s out).state = Windowed.pending s - out.remaining
  pending_restart (s : σ) : Windowed.pending (Windowed.restart s) = Windowed.pending s

namespace Windowed

variable {σ : Type} [Windowed σ] [LawfulWindowed σ]

theorem count_close (t : InterfaceTable) (s : σ) (out : Buffer) :
    (close t s out).count = min out.remaining (pending s) :=
  LawfulWindowed.count_flush t s out

theorem remaining_close (t : InterfaceTable) (s : σ) (out : Buffer) :
    (close t s out).out.remaining = out.remaining - pending s :=
  LawfulWindowed.remaining_flush t s out

theorem pending_close (t : InterfaceTable) (s : σ) (out : Buffer) :
    pending (close t s out).state = pending s - out.remaining := by
  rw [close, Written.map, LawfulWindowed.pending_restart, LawfulWindowed.pending_flush]

end Windowed

/-- A record that opens with the four ends of a flow. -/
def Flow.record (f : Flow) (name : String) (time : Nanos) : Record :=
  { name, time,
    attributes := [⟨"sip", .u32 f.source.word⟩, ⟨"dip", .u32 f.dest.word⟩,
      ⟨"sport", .u16 f.sourcePort⟩, ⟨"dport", .u16 f.destPort⟩] }

end FlowProbe
