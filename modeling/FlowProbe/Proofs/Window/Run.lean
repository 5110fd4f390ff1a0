import FlowProbe.Proofs.Keyed
import FlowProbe.Proofs.Window.Backlog
import Mathlib.Data.List.Perm.Basic

/-! The runs of a windowed analyzer.

A run is a list of calls on an analyzer: events, flushes and polls, each with the table and the
output of its own, and restarts of its clock. The aggregates have no order that anyone may rely
on, yet a flush writes them in one; `reorder` lets any order of them come up between two calls,
so what holds of all runs holds of all walks. `Analyzing` says what the three analyzers have in
common here, and `run_invariant` carries a property from every call to every run. -/
namespace FlowProbe

namespace Window

variable {β : Type} [DecidableEq β] (w : Window β) (order : Keyed Flow β)

/-- The same window with its aggregates in another order. -/
def reorder : Window β := { w with aggregates := w.aggregates.reorder order }

theorem perm_reorder : (w.reorder order).aggregates.entries.Perm w.aggregates.entries :=
  w.aggregates.perm_reorder order

@[simp] theorem clock_reorder : (w.reorder order).clock = w.clock := rfl

@[simp] theorem counters_reorder : (w.reorder order).counters = w.counters := rfl

@[simp] theorem pending_reorder : (w.reorder order).pending = w.pending :=
  (w.perm_reorder order).length_eq

end Window

/-- An aggregating analyzer with the events that it takes. What it counts is in its window, and
a flush books there what the window's own flush books, next to what else it may count. -/
class Analyzing (σ : Type) [Windowed σ] extends Aggregating σ where
  Event : Type
  ingest : InterfaceTable → σ → Event → σ
  /-- The analyzer with another window. -/
  withWindow : σ → Window Aggregate → σ
  decidableAggregate : DecidableEq Aggregate
  window_withWindow (s : σ) (w : Window Aggregate) : window (withWindow s w) = w
  counters_eq (s : σ) : Windowed.counters s = (window s).counters
  emitted_flush (t : InterfaceTable) (s : σ) (out : Buffer) :
    (window (Windowed.flush t s out).state).counters.emitted =
      ((window s).flush (record t) out).state.counters.emitted
  truncated_flush (t : InterfaceTable) (s : σ) (out : Buffer) :
    (window (Windowed.flush t s out).state).counters.truncated =
      ((window s).flush (record t) out).state.counters.truncated

instance : Analyzing Handshakes where
  Event := Segment
  ingest := Handshakes.ingest
  withWindow h window := { h with window }
  decidableAggregate := inferInstanceAs (DecidableEq RoundTrips)
  window_withWindow _ _ := rfl
  counters_eq _ := rfl
  emitted_flush _ _ _ := rfl
  truncated_flush _ _ _ := rfl

instance : Analyzing AckDelays where
  Event := Segment
  ingest := AckDelays.ingest
  withWindow a window := { a with window }
  decidableAggregate := inferInstanceAs (DecidableEq Delays)
  window_withWindow _ _ := rfl
  counters_eq _ := rfl
  emitted_flush _ _ _ := rfl
  truncated_flush _ _ _ := rfl

instance : Analyzing PacketCounts where
  Event := Segment ⊕ SocketReport
  ingest t p e := e.elim (p.ingest t) (p.ingestReport t)
  withWindow _ window := { window }
  decidableAggregate := inferInstanceAs (DecidableEq PacketTotal)
  window_withWindow _ _ := rfl
  counters_eq _ := rfl
  emitted_flush _ _ _ := rfl
  truncated_flush _ _ _ := rfl

namespace Windowed
open Aggregating Analyzing

attribute [reducible, instance] decidableAggregate

variable {σ : Type} [Windowed σ] [Analyzing σ]

/-- A flush books what it had room for. -/
theorem emitted_flush_eq (t : InterfaceTable) (s : σ) (out : Buffer) :
    (counters (flush t s out).state).emitted =
      (counters s).emitted + min out.remaining (pending s) := by
  have hflush : ((window s).flush (record t) out).state.counters.emitted =
      (window s).counters.emitted + ((window s).flush (record t) out).count := rfl
  rw [counters_eq, emitted_flush, hflush, Window.written_flush, counters_eq, pending_eq]

/-- A flush books what it had no room for. -/
theorem truncated_flush_eq (t : InterfaceTable) (s : σ) (out : Buffer) :
    (counters (flush t s out).state).truncated =
      (counters s).truncated + (pending s - out.remaining) := by
  have hflush : ((window s).flush (record t) out).state.counters.truncated =
      (window s).counters.truncated + ((window s).flush (record t) out).state.pending := rfl
  rw [counters_eq, truncated_flush, hflush, Window.pending_flush, counters_eq, pending_eq]

/-- The same analyzer with its aggregates in another order. -/
def reorder (s : σ) (order : Keyed Flow (Aggregate σ)) : σ :=
  withWindow s ((window s).reorder order)

@[simp] theorem window_reorder (s : σ) (order : Keyed Flow (Aggregate σ)) :
    window (reorder s order) = (window s).reorder order :=
  window_withWindow s _

@[simp] theorem counters_reorder (s : σ) (order : Keyed Flow (Aggregate σ)) :
    counters (reorder s order) = counters s := by
  rw [counters_eq, window_reorder, Window.counters_reorder, counters_eq]

inductive Call (σ : Type) [Windowed σ] [Analyzing σ] where
  | ingest (t : InterfaceTable) (e : Analyzing.Event σ)
  | flush (t : InterfaceTable) (out : Buffer)
  | poll (t : InterfaceTable) (out : Buffer)
  | restart
  | reorder (order : Keyed Flow (Aggregate σ))

def step (s : σ) : Call σ → σ
  | .ingest t e => ingest t s e
  | .flush t out => (flush t s out).state
  | .poll t out => (poll t s out).state
  | .restart => restart s
  | .reorder order => reorder s order

def run (s : σ) : List (Call σ) → σ
  | [] => s
  | call :: rest => run (step s call) rest

/-- The event that a call takes in, with the table that it goes by. -/
def Call.taken? : Call σ → Option (InterfaceTable × Analyzing.Event σ)
  | .ingest t e => some (t, e)
  | .flush .. | .poll .. | .restart | .reorder _ => none

/-- What a run takes in. -/
def intake (calls : List (Call σ)) : List (InterfaceTable × Analyzing.Event σ) :=
  calls.filterMap Call.taken?

/-- A run of events takes them in one after the other. -/
theorem run_ingests (t : InterfaceTable) (s : σ) (events : List (Analyzing.Event σ)) :
    run s (events.map fun e => .ingest t e) = events.foldl (ingest t) s := by
  induction events generalizing s with
  | nil => rfl
  | cons e rest ih => exact ih (ingest t s e)

theorem intake_ingests (t : InterfaceTable) (events : List (Analyzing.Event σ)) :
    intake (events.map fun e => (.ingest t e : Call σ)) = events.map fun e => (t, e) := by
  induction events with
  | nil => rfl
  | cons e rest ih => exact congrArg ((t, e) :: ·) ih

/-- What every call of a run keeps, the run keeps. -/
theorem run_invariant_of_mem {P : σ → Prop} {calls : List (Call σ)}
    (hstep : ∀ s, ∀ call ∈ calls, P s → P (step s call)) {s : σ} (h : P s) : P (run s calls) := by
  induction calls generalizing s with
  | nil => exact h
  | cons call rest ih =>
    exact ih (fun s c hc => hstep s c (List.mem_cons_of_mem _ hc)) (hstep s call List.mem_cons_self h)

/-- What every call keeps, every run keeps. -/
theorem run_invariant {P : σ → Prop} (hstep : ∀ s call, P s → P (step s call)) {s : σ} (h : P s)
    (calls : List (Call σ)) : P (run s calls) := by
  induction calls generalizing s with
  | nil => exact h
  | cons call rest ih => exact ih (hstep s call h)

end Windowed

end FlowProbe
