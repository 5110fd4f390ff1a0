import FlowProbe.Proofs.Window.Acts
import FlowProbe.Proofs.Window.Clock

/-! When windows close.

What moves the clock of a windowed analyzer are the events that it admits, polls and restarts,
and nothing that it gathers (`clock_step`); so the clock of a run is a run of the clock
(`clock_run`), and the polls that flush are the closings of that run (`flushTimes_eq`). Hence the
polls of a new analyzer that is not restarted flush an interval apart, each under its own time,
and a poll that is not due does nothing (`flush_cadence`).

Before its first event the clock is where a restart leaves it, at time zero. The poll right behind
that event does nothing exactly if no restart came before it or its time is less than an interval
(`first_poll_idle_iff`). -/
namespace FlowProbe

theorem Record.time_set (r : Record) (key : String) (value : Value) :
    (r.set key value).time = r.time := by
  rw [set]
  split <;> rfl

/-- An analyzer whose clock observes the events that it admits, and whose records show the time
that they were written at. -/
class Timed (σ : Type) [Windowed σ] [Analyzing σ] where
  /-- The time of an event, if it is admitted. -/
  admitted? : InterfaceTable → Analyzing.Event σ → Option Nanos
  clock_eq (s : σ) : Windowed.clock s = (Aggregating.window s).clock
  clock_ingest (t : InterfaceTable) (s : σ) (e : Analyzing.Event σ) :
    Windowed.clock (Analyzing.ingest t s e) =
      (admitted? t e).elim (Windowed.clock s) (Windowed.clock s).observe
  time_record (t : InterfaceTable) (time : Nanos) (f : Flow) (b : Aggregating.Aggregate σ) :
    (Aggregating.record t time f b).time = time

/-! ### The three clocks -/

namespace Handshakes

theorem clock_onSynAck (h : Handshakes) (s : Segment) :
    (h.onSynAck s).window.clock = h.window.clock := by
  rw [onSynAck]
  split <;> rfl

theorem clock_onAck (h : Handshakes) (s : Segment) : (h.onAck s).window.clock = h.window.clock := by
  rw [onAck]
  split <;> rfl

instance : Timed Handshakes where
  admitted? t s := if t.isContainer s.flow.iface then some s.time else none
  clock_eq _ := rfl
  clock_ingest t h s := by
    show (h.ingest t s).window.clock = _
    rw [ingest]
    cases t.isContainer s.flow.iface with
    | false => rfl
    | true =>
      cases s.has .syn <;> cases s.has .ack
      · rfl
      · exact clock_onAck _ s
      · rfl
      · exact clock_onSynAck _ s
  time_record t time f r := by
    show (record t time f r).time = time
    simp only [record, Record.time_set, Flow.record]

end Handshakes

namespace AckDelays

theorem clock_onAck (a : AckDelays) (s : Segment) : (a.onAck s).window.clock = a.window.clock := by
  rw [onAck]
  split <;> rfl

instance : Timed AckDelays where
  admitted? t s :=
    if t.isContainer s.flow.iface && s.has .ack && !s.has .syn then some s.time else none
  clock_eq _ := rfl
  clock_ingest t a s := by
    show (a.ingest t s).window.clock = _
    rw [ingest]
    cases t.isContainer s.flow.iface && s.has .ack && !s.has .syn with
    | false => rfl
    | true =>
      cases t.direction s.flow s.hint with
      | received => exact clock_onAck _ s
      | sent => rfl
  time_record _ time f d := by
    show (record time f d).time = time
    simp only [record, Record.time_set, Flow.record]

end AckDelays

namespace PacketCounts

theorem clock_enter (t : InterfaceTable) (p : PacketCounts) (time : Nanos) (f : Flow) (hint : UInt8)
    (first : Nat) (next : Nat → Nat) :
    (p.enter t time f hint first next).window.clock =
      if t.isContainer f.iface then p.window.clock.observe time else p.window.clock := by
  rw [enter]
  split <;> rfl

instance : Timed PacketCounts where
  admitted? t e :=
    e.elim (fun s => if t.isContainer s.flow.iface then some s.time else none)
      fun r => if t.isContainer r.flow.iface then some r.time else none
  clock_eq _ := rfl
  clock_ingest t p e := by
    cases e with
    | inl s =>
      refine (clock_enter t p s.time s.flow s.hint 1 (· + 1)).trans ?_
      simp only [Sum.elim_inl]
      split <;> rfl
    | inr r =>
      refine (clock_enter t p r.time r.flow r.hint r.count.toNat (max · r.count.toNat)).trans ?_
      simp only [Sum.elim_inr]
      split <;> rfl
  time_record _ time f e := by
    show (record time f e).time = time
    simp only [record, Record.time_set, Flow.record]

end PacketCounts

namespace Windowed
open Aggregating Analyzing Timed
open WindowClock (Tick Apart)

variable {σ : Type} [Windowed σ] [Analyzing σ] [Timed σ]

theorem clock_restart (s : σ) : clock (restart s) = (clock s).restart := by
  rw [clock_eq, window_restart, clock_eq]
  rfl

theorem clock_flush_eq (t : InterfaceTable) (s : σ) (out : Buffer) :
    clock (flush t s out).state = clock s := by
  rw [clock_eq, Aggregating.clock_flush, clock_eq]

@[simp] theorem clock_reorder (s : σ) (order : Keyed Flow (Aggregate σ)) :
    clock (reorder s order) = clock s := by
  rw [clock_eq, window_reorder, Window.clock_reorder, clock_eq]

theorem clock_poll (t : InterfaceTable) (s : σ) (out : Buffer) :
    clock (poll t s out).state = (clock s).poll := by
  rw [poll, WindowClock.poll]
  split
  · rw [close, Written.map, clock_restart, clock_flush_eq]
  · rfl

omit [Analyzing σ] [Timed σ] in
theorem poll_of_isDue (t : InterfaceTable) {s : σ} (h : (clock s).isDue = false) (out : Buffer) :
    poll t s out = ⟨s, out, 0⟩ := by
  rw [poll, h]
  rfl

/-- A poll leaves everything as it is exactly if it is not due. -/
theorem poll_eq_self_iff (t : InterfaceTable) {s : σ} (hpos : 0 < (clock s).interval)
    (out : Buffer) : poll t s out = ⟨s, out, 0⟩ ↔ (clock s).isDue = false := by
  constructor
  · intro hsame
    by_contra hdue
    rw [Bool.not_eq_false] at hdue
    have hclock := clock_poll t s out
    rw [hsame, WindowClock.poll, if_pos hdue] at hclock
    exact WindowClock.restart_ne_of_isDue hpos hdue hclock.symm
  · exact fun h => poll_of_isDue t h out

/-- What a poll writes shows the time of its latest event. -/
theorem time_of_news (t : InterfaceTable) (s : σ) (out : Buffer) :
    ∀ r ∈ (poll t s out).news out, r.time = (clock s).latest := by
  intro r hr
  obtain ⟨n, hrecords, -⟩ := poll_cut t s out
  rw [news_of_records hrecords] at hr
  obtain ⟨e, -, rfl⟩ := List.mem_map.1 (List.mem_of_mem_take hr)
  rw [time_record, clock_eq]

/-! ### Runs -/

/-- What a call does to the clock, if anything. -/
def Call.tick? : Call σ → Option Tick
  | .ingest t e => (admitted? t e).map .observe
  | .poll .. => some .poll
  | .restart => some .restart
  | .flush .. | .reorder _ => none

/-- The time that a call brings to the clock. -/
def Call.time? : Call σ → Option Nanos
  | .ingest t e => admitted? t e
  | .flush .. | .poll .. | .restart | .reorder _ => none

/-- The times that the clock observes in a run. -/
def times (calls : List (Call σ)) : List Nanos := calls.filterMap Call.time?

/-- The time of a poll that flushes. -/
def flushTime? (s : σ) : Call σ → Option Nanos
  | .poll .. => if (clock s).isDue then some (clock s).latest else none
  | .ingest .. | .flush .. | .restart | .reorder _ => none

/-- The times of the polls of a run that flush. -/
def flushTimes (s : σ) : List (Call σ) → List Nanos
  | [] => []
  | call :: rest => (flushTime? s call).toList ++ flushTimes (step s call) rest

theorem clock_step (s : σ) (call : Call σ) :
    clock (step s call) = call.tick?.elim (clock s) (clock s).step := by
  cases call with
  | ingest t e =>
    rw [step, clock_ingest, Call.tick?]
    cases admitted? t e <;> rfl
  | flush t out => exact clock_flush_eq t s out
  | poll t out => exact clock_poll t s out
  | restart => exact clock_restart s
  | reorder order => exact clock_reorder s order

/-- The clock of a run is a run of the clock. -/
theorem clock_run (s : σ) (calls : List (Call σ)) :
    clock (run s calls) = (clock s).run (calls.filterMap Call.tick?) := by
  induction calls generalizing s with
  | nil => rfl
  | cons call rest ih =>
    rw [run, ih, clock_step, List.filterMap_cons]
    cases call.tick? <;> rfl

theorem flushTime?_eq (s : σ) (call : Call σ) :
    flushTime? s call = call.tick?.bind (clock s).closing? := by
  cases call with
  | ingest t e =>
    rw [flushTime?, Call.tick?]
    cases admitted? t e <;> rfl
  | flush | poll | restart | reorder => rfl

/-- The polls that flush are those that close a window of the clock. -/
theorem flushTimes_eq (s : σ) (calls : List (Call σ)) :
    flushTimes s calls = (clock s).closings (calls.filterMap Call.tick?) := by
  induction calls generalizing s with
  | nil => rfl
  | cons call rest ih =>
    rw [flushTimes, flushTime?_eq, ih, clock_step, List.filterMap_cons]
    cases call.tick? <;> rfl

theorem times_eq (calls : List (Call σ)) :
    times calls = (calls.filterMap Call.tick?).filterMap Tick.time? := by
  rw [times, List.filterMap_filterMap]
  refine List.filterMap_congr fun call _ => ?_
  cases call with
  | ingest t e =>
    rw [Call.time?, Call.tick?]
    cases admitted? t e <;> rfl
  | flush | poll | restart | reorder => rfl

theorem restart_mem_ticks_iff {calls : List (Call σ)} :
    .restart ∈ calls.filterMap Call.tick? ↔ Call.restart ∈ calls := by
  rw [List.mem_filterMap]
  constructor
  · rintro ⟨call, hcall, htick⟩
    cases call with
    | ingest t e =>
      rw [Call.tick?, Option.map_eq_some_iff] at htick
      obtain ⟨time, -, htime⟩ := htick
      cases htime
    | restart => exact hcall
    | flush | poll | reorder => cases htick
  · exact fun h => ⟨.restart, h, rfl⟩

theorem interval_run (s : σ) (calls : List (Call σ)) :
    (clock (run s calls)).interval = (clock s).interval := by
  rw [clock_run, WindowClock.interval_run]

/-! ### Cadence -/

/-- What a new analyzer that flushes in an interval owes in every run. -/
structure Punctual (new : σ) (interval : Nanos) : Prop where
  /-- Without restarts, the first time observed and the times of the polls that flush are an
  interval apart from one to the next. -/
  apart (calls : List (Call σ)) (h : .restart ∉ calls) :
    ((times calls).head?.toList ++ flushTimes new calls).IsChain (Apart interval)
  /-- Where no time is observed no poll flushes. -/
  still (calls : List (Call σ)) (h : .restart ∉ calls) (hnone : times calls = []) :
    flushTimes new calls = []
  increasing (calls : List (Call σ)) (h : .restart ∉ calls) :
    (flushTimes new calls).Pairwise (· < ·)
  /-- What a poll writes shows the time of the poll. -/
  stamped (calls : List (Call σ)) (t : InterfaceTable) (out : Buffer) :
    ∀ r ∈ (poll t (run new calls) out).news out, r.time = (clock (run new calls)).latest
  /-- A poll that is not due leaves the analyzer and the output as they are. -/
  idle (calls : List (Call σ)) (t : InterfaceTable) (out : Buffer)
    (h : (clock (run new calls)).isDue = false) :
    poll t (run new calls) out = ⟨run new calls, out, 0⟩
  /-- After a poll no other one flushes until a time is observed. -/
  once (calls between : List (Call σ)) (t : InterfaceTable) (out : Buffer)
    (hnone : times between = []) : flushTimes (poll t (run new calls) out).state between = []

theorem punctual {new : σ} {interval : Nanos} (hnew : clock new = { interval })
    (hpos : 0 < interval) : Punctual new interval := by
  have hclock : 0 < (clock new).interval := hnew ▸ hpos
  have hchain (calls : List (Call σ)) (h : .restart ∉ calls) :=
    WindowClock.isChain_closings hclock (congrArg WindowClock.opened hnew)
      (mt restart_mem_ticks_iff.1 h)
  have hinterval : (clock new).interval = interval := congrArg WindowClock.interval hnew
  have hapart (calls : List (Call σ)) (h : .restart ∉ calls) :
      ((times calls).head?.toList ++ flushTimes new calls).IsChain (Apart interval) := by
    rw [times_eq, flushTimes_eq, ← hinterval]
    exact (hchain calls h).1
  refine ⟨hapart, fun calls h hnone => ?_, fun calls h => ?_, fun calls t out => ?_,
    fun calls t out h => poll_of_isDue t h out, fun calls between t out hnone => ?_⟩
  · rw [times_eq] at hnone
    rw [flushTimes_eq]
    exact (hchain calls h).2 hnone
  · exact WindowClock.pairwise_lt_of_isChain hpos (hapart calls h).right_of_append
  · exact time_of_news t (run new calls) out
  · have hrun : 0 < (clock (run new calls)).interval := by rwa [interval_run]
    rw [times_eq] at hnone
    rw [flushTimes_eq, clock_poll]
    refine WindowClock.closings_of_unobserved ?_ (WindowClock.isDue_poll hrun) hnone
    rwa [WindowClock.interval_poll]

/-- **Windows close an interval of event time apart.** However the times of the events come, also
backwards, the polls of a new analyzer that is not restarted flush at times that are an interval
apart, the first one an interval behind the first event; each writes records of its own time, a
poll that is not due does nothing, and of two polls without an event between them one at most
flushes. -/
theorem flush_cadence {interval : Nanos} (hpos : 0 < interval) :
    Punctual (Handshakes.ofInterval interval) interval ∧
      Punctual (AckDelays.ofInterval interval) interval ∧
      Punctual (PacketCounts.ofInterval interval) interval :=
  ⟨punctual rfl hpos, punctual rfl hpos, punctual rfl hpos⟩

/-- The time jumps back behind the first flush, and the second one still comes an interval behind
the first. -/
theorem flush_cadence_of_five :
    let table : InterfaceTable := { kinds := Keyed.empty.insert 7 .container }
    let packet (time : Nanos) : Call PacketCounts := .ingest table
      (Sum.inl { time, flow := ⟨⟨1⟩, ⟨2⟩, 1000, 80, 7⟩, seq := 7, ack := 0, flags := 0 })
    let poll : Call PacketCounts := .poll table { capacity := 8 }
    let calls := [packet 2, poll, packet 8, poll, packet 1, poll, packet 12, poll, packet 13, poll]
    (0 : Nanos) < 5 ∧ .restart ∉ calls ∧
      flushTimes (PacketCounts.ofInterval 5) calls = [8, 13] ∧
      List.IsChain (Apart 5) [2, 8, 13] := by
  intro table packet poll calls
  have hpos : (0 : Nanos) < 5 := by decide
  have hrestart : .restart ∉ calls := by simp [calls, packet, poll]
  have htimes : flushTimes (PacketCounts.ofInterval 5) calls = [8, 13] := by decide
  have hfirst : (times calls).head? = some 2 := by decide
  have hapart := (flush_cadence hpos).2.2.apart calls hrestart
  rw [htimes, hfirst] at hapart
  exact ⟨hpos, hrestart, htimes, hapart⟩

/-! ### The first event -/

/-- When the poll right behind the first time that an analyzer's clock observes is due, and when
it leaves everything as it is. -/
def FirstPoll (new : σ) (interval : Nanos) : Prop :=
  ∀ calls, times calls = [] → ∀ t e time, admitted? t e = some time → ∀ t' out,
    let s := ingest t (run new calls) e
    ((clock s).isDue = true ↔ .restart ∈ calls ∧ interval ≤ time) ∧
      (poll t' s out = ⟨s, out, 0⟩ ↔ .restart ∉ calls ∨ time < interval)

theorem firstPoll {new : σ} {interval : Nanos} (hnew : clock new = { interval })
    (hpos : 0 < interval) : FirstPoll new interval := by
  intro calls hnone t e time htime t' out s
  have hclock : clock s = ((clock new).run (calls.filterMap Call.tick?)).observe time := by
    rw [clock_ingest, htime, clock_run]
    rfl
  have hinterval : 0 < (clock s).interval := by
    rw [hclock, WindowClock.interval_observe, WindowClock.interval_run, hnew]
    exact hpos
  have hdue : (clock s).isDue = true ↔ .restart ∈ calls ∧ interval ≤ time := by
    rw [times_eq] at hnone
    rw [hclock, hnew, WindowClock.isDue_first_iff hpos hnone, restart_mem_ticks_iff]
  refine ⟨hdue, ?_⟩
  rw [poll_eq_self_iff t' hinterval, ← Bool.not_eq_true, hdue, not_and_or, UInt64.not_le]

/-- **The first event opens the window unless a restart has opened it at time zero.** A new clock
that restarts before its first event, as a full flush has it do, is due at once if the event comes
at an interval or later; in every other case the poll right behind the first event of an analyzer
leaves the analyzer and the output as they are. -/
theorem first_poll_idle_iff {interval : Nanos} (hpos : 0 < interval) :
    (∀ ticks : List Tick, ticks.filterMap Tick.time? = [] → ∀ time,
        (((WindowClock.mk interval none 0).run ticks).observe time).isDue = true ↔
          .restart ∈ ticks ∧ interval ≤ time) ∧
      FirstPoll (Handshakes.ofInterval interval) interval ∧
      FirstPoll (AckDelays.ofInterval interval) interval ∧
      FirstPoll (PacketCounts.ofInterval interval) interval :=
  ⟨fun _ hnone time => WindowClock.isDue_first_iff hpos hnone time, firstPoll rfl hpos,
    firstPoll rfl hpos, firstPoll rfl hpos⟩

/-- Behind polls and flushes without a restart, the first segment waits for its acknowledgment
also after the next poll. -/
theorem first_poll_idle_behind_flush :
    let table : InterfaceTable :=
      { kinds := Keyed.empty.insert 7 .container, owners := Keyed.empty.insert ⟨1⟩ 7 }
    let segment : Segment :=
      { time := 6, flow := ⟨⟨1⟩, ⟨2⟩, 1000, 80, 7⟩, seq := 7, ack := 0, flags := 16 }
    let calls : List (Call AckDelays) :=
      [.poll table { capacity := 8 }, .flush table { capacity := 8 }]
    let a := AckDelays.ingest table (run (AckDelays.ofInterval 5) calls) segment
    (0 : Nanos) < 5 ∧ times calls = [] ∧ a.queued = 1 ∧
      poll table a { capacity := 8 } = ⟨a, { capacity := 8 }, 0⟩ := by
  intro table segment calls a
  have hpos : (0 : Nanos) < 5 := by decide
  have hfirst := (first_poll_idle_iff hpos).2.2.1 calls rfl table segment 6 (by decide) table
    { capacity := 8 }
  exact ⟨hpos, rfl, by decide, hfirst.2.2 (.inl (by simp [calls]))⟩

/-- Behind a full flush the first event does not open the window: the poll right behind it closes
one that no event has opened, writes the event's packet and throws the segment away that has just
begun to wait. -/
theorem first_poll_due_behind_full_flush :
    let table : InterfaceTable :=
      { kinds := Keyed.empty.insert 7 .container, owners := Keyed.empty.insert ⟨1⟩ 7 }
    let segment : Segment :=
      { time := 6, flow := ⟨⟨1⟩, ⟨2⟩, 1000, 80, 7⟩, seq := 7, ack := 0, flags := 16 }
    let flushed := ((Monitor.make table 5 10).flushAll { capacity := 8 }).state
    let m := flushed.ingest segment
    let polled := m.poll { capacity := 8 }
    flushed.events = 0 ∧ (clock m.ackDelays).isDue = true ∧
      (m.ackDelays.queued = 1 ∧ polled.state.ackDelays.queued = 0) ∧
      m.pending = 1 ∧ polled.state.pending = 0 ∧ polled.count = 1 := by
  decide

end Windowed

end FlowProbe
