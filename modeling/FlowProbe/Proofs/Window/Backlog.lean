import FlowProbe.Monitor

/-! The records that wait in the windows.

The backlog of a windowed analyzer is the list of records that a flush with enough room would
write. What the three analyzers have in common is said by `Aggregating`: a flush is that of the
analyzer's window, whatever else it lets go of. So a closed window writes as much from the front
of its backlog as there is room for and leaves the rest (`records_close`, `backlog_close`), and a
poll may also leave the window alone (`poll_cut`). The analyzers of a monitor share an output,
and their backlogs one behind the other behave like one (`records_closeWindows`,
`backlog_closeWindows`). -/
namespace FlowProbe

/-! ### Records by their name -/

namespace Record

/-- The records of a name, in their order. -/
def named (name : String) (rs : List Record) : List Record := rs.filter fun r => r.name = name

theorem named_append (name : String) (rs rs' : List Record) :
    named name (rs ++ rs') = named name rs ++ named name rs' :=
  List.filter_append rs rs'

theorem named_of_name {name other : String} {rs : List Record} (h : ∀ r ∈ rs, r.name = other) :
    named name rs = if other = name then rs else [] := by
  split
  · next heq => exact List.filter_eq_self.2 fun r hr => decide_eq_true ((h r hr).trans heq)
  · next hne =>
    refine List.filter_eq_nil_iff.2 fun r hr => ?_
    rw [h r hr, decide_eq_true_eq]
    exact hne

theorem count_named (r : Record) (rs : List Record) : (named r.name rs).count r = rs.count r :=
  List.count_filter (decide_eq_true rfl)

theorem name_set (r : Record) (key : String) (value : Value) : (r.set key value).name = r.name := by
  rw [set]
  split <;> rfl

end Record

/-! ### One window -/

namespace Window

variable {β : Type} (record : Nanos → Flow → β → Record) (w : Window β) (out : Buffer)

/-- What a flush with room for all aggregates writes. -/
def backlog : List Record := w.aggregates.entries.map fun e => record w.clock.latest e.1 e.2

theorem length_backlog : (w.backlog record).length = w.pending := List.length_map _

end Window

/-- An analyzer whose aggregates are in a window, and which flushes by flushing it. -/
class Aggregating (σ : Type) [Windowed σ] where
  Aggregate : Type
  /-- The name of the analyzer's records. -/
  name : String
  window : σ → Window Aggregate
  record : InterfaceTable → Nanos → Flow → Aggregate → Record
  name_record (t : InterfaceTable) (time : Nanos) (f : Flow) (b : Aggregate) :
    (record t time f b).name = name
  pending_eq (s : σ) : Windowed.pending s = (window s).pending
  window_restart (s : σ) : window (Windowed.restart s) = (window s).restart
  out_flush (t : InterfaceTable) (s : σ) (out : Buffer) :
    (Windowed.flush t s out).out = ((window s).flush (record t) out).out
  clock_flush (t : InterfaceTable) (s : σ) (out : Buffer) :
    (window (Windowed.flush t s out).state).clock = (window s).clock
  aggregates_flush (t : InterfaceTable) (s : σ) (out : Buffer) :
    (window (Windowed.flush t s out).state).aggregates =
      ((window s).flush (record t) out).state.aggregates

namespace Windowed
open Aggregating

variable {σ : Type} [Windowed σ] [Aggregating σ]

def backlog (t : InterfaceTable) (s : σ) : List Record := (window s).backlog (record t)

theorem length_backlog (t : InterfaceTable) (s : σ) : (backlog t s).length = pending s :=
  ((window s).length_backlog _).trans (pending_eq s).symm

theorem entries_of_pending {s : σ} (h : pending s = 0) :
    (window s).aggregates.entries = [] := by
  rw [pending_eq] at h
  exact List.length_eq_zero_iff.1 h

theorem name_backlog (t : InterfaceTable) (s : σ) : ∀ r ∈ backlog t s, r.name = name σ := by
  intro r hr
  obtain ⟨e, -, rfl⟩ := List.mem_map.1 hr
  exact name_record t _ e.1 e.2

/-! #### Flushing -/

theorem records_flush (t : InterfaceTable) (s : σ) (out : Buffer) :
    (flush t s out).out.records = out.records ++ (backlog t s).take out.remaining := by
  rw [out_flush]
  exact (window s).records_flush (record t) out

theorem entries_flush (t : InterfaceTable) (s : σ) (out : Buffer) :
    (window (flush t s out).state).aggregates.entries =
      (window s).aggregates.entries.drop out.remaining := by
  rw [aggregates_flush, Window.aggregates_flush, List.drop_eq_drop_min]
  rfl

theorem latest_flush (t : InterfaceTable) (s : σ) (out : Buffer) :
    (window (flush t s out).state).clock.latest = (window s).clock.latest := by
  rw [clock_flush]

/-! #### Closing -/

theorem records_close (t : InterfaceTable) (s : σ) (out : Buffer) :
    (close t s out).out.records = out.records ++ (backlog t s).take out.remaining :=
  records_flush t s out

theorem entries_close (t : InterfaceTable) (s : σ) (out : Buffer) :
    (window (close t s out).state).aggregates.entries =
      (window s).aggregates.entries.drop out.remaining := by
  rw [close, Written.map, window_restart]
  exact entries_flush t s out

theorem latest_close (t : InterfaceTable) (s : σ) (out : Buffer) :
    (window (close t s out).state).clock.latest = (window s).clock.latest := by
  rw [close, Written.map, window_restart]
  exact latest_flush t s out

theorem backlog_close (t : InterfaceTable) (s : σ) (out : Buffer) :
    backlog t (close t s out).state = (backlog t s).drop out.remaining := by
  rw [backlog, Window.backlog, entries_close, latest_close, List.map_drop]
  rfl

/-- A poll cuts the aggregates in two: the front part is written, the rest stays. -/
theorem poll_cut (t : InterfaceTable) (s : σ) (out : Buffer) :
    ∃ n, (poll t s out).out.records = out.records ++ (backlog t s).take n ∧
      (window (poll t s out).state).aggregates.entries =
        (window s).aggregates.entries.drop n := by
  rw [poll]
  split
  · exact ⟨out.remaining, records_close t s out, entries_close t s out⟩
  · exact ⟨0, by simp, rfl⟩

end Windowed

instance : Aggregating Handshakes where
  Aggregate := RoundTrips
  name := Handshakes.recordName
  window := Handshakes.window
  record := Handshakes.record
  name_record t time f r := by simp only [Handshakes.record, Record.name_set, Flow.record]
  pending_eq _ := rfl
  window_restart _ := rfl
  out_flush _ _ _ := rfl
  clock_flush _ _ _ := rfl
  aggregates_flush _ _ _ := rfl

instance : Aggregating AckDelays where
  Aggregate := Delays
  name := AckDelays.recordName
  window := AckDelays.window
  record _ := AckDelays.record
  name_record t time f d := by simp only [AckDelays.record, Record.name_set, Flow.record]
  pending_eq _ := rfl
  window_restart _ := rfl
  out_flush _ _ _ := rfl
  clock_flush _ _ _ := rfl
  aggregates_flush _ _ _ := rfl

instance : Aggregating PacketCounts where
  Aggregate := PacketTotal
  name := PacketCounts.recordName
  window := PacketCounts.window
  record _ := PacketCounts.record
  name_record t time f e := by simp only [PacketCounts.record, Record.name_set, Flow.record]
  pending_eq _ := rfl
  window_restart _ := rfl
  out_flush _ _ _ := rfl
  clock_flush _ _ _ := rfl
  aggregates_flush _ _ _ := rfl

/-! ### The three windows of a monitor -/

namespace Monitor

variable (m : Monitor) (out : Buffer)

/-- What waits in the windows, in the order in which it is written. -/
def backlog : List Record :=
  Windowed.backlog m.table m.handshakes ++ Windowed.backlog m.table m.ackDelays ++
    Windowed.backlog m.table m.packets

theorem length_backlog : m.backlog.length = m.pending := by
  simp only [backlog, List.length_append, Windowed.length_backlog, pending]

/-- With nothing pending the windows are empty. -/
theorem entries_of_pending {m : Monitor} (h : m.pending = 0) :
    m.handshakes.window.aggregates.entries = [] ∧ m.ackDelays.window.aggregates.entries = [] ∧
      m.packets.window.aggregates.entries = [] := by
  rw [pending, Nat.add_eq_zero_iff, Nat.add_eq_zero_iff] at h
  obtain ⟨⟨hhandshakes, hackDelays⟩, hpackets⟩ := h
  exact ⟨Windowed.entries_of_pending hhandshakes, Windowed.entries_of_pending hackDelays,
    Windowed.entries_of_pending hpackets⟩

theorem remaining_close_handshakes :
    (Windowed.close m.table m.handshakes out).out.remaining =
      out.remaining - Windowed.pending m.handshakes :=
  Windowed.remaining_close m.table m.handshakes out

theorem remaining_close_ackDelays :
    (Windowed.close m.table m.ackDelays (Windowed.close m.table m.handshakes out).out).out.remaining
      = out.remaining - Windowed.pending m.handshakes - Windowed.pending m.ackDelays := by
  rw [Windowed.remaining_close, remaining_close_handshakes]

theorem remaining_closeWindows :
    (m.writeWindows out Windowed.close).out.remaining = out.remaining - m.pending := by
  simp only [writeWindows, Windowed.remaining_close, pending]
  omega

theorem count_closeWindows :
    (m.writeWindows out Windowed.close).count = min out.remaining m.pending := by
  simp only [writeWindows, Windowed.count_close, Windowed.remaining_close, pending]
  omega

theorem records_closeWindows :
    (m.writeWindows out Windowed.close).out.records =
      out.records ++ m.backlog.take out.remaining := by
  simp only [writeWindows, backlog, Windowed.records_close, remaining_close_handshakes,
    remaining_close_ackDelays, List.take_append, Windowed.length_backlog, List.append_assoc,
    Nat.sub_sub]

theorem backlog_closeWindows :
    (m.writeWindows out Windowed.close).state.backlog = m.backlog.drop out.remaining := by
  simp only [writeWindows, backlog, Windowed.backlog_close, remaining_close_handshakes,
    remaining_close_ackDelays, List.drop_append, Windowed.length_backlog, List.length_append,
    Nat.sub_sub]

/-- A full flush that writes nothing had no room or nothing to write. -/
theorem min_le_count_flushAll : min out.remaining m.pending ≤ (m.flushAll out).count := by
  rw [← count_closeWindows]
  exact Nat.le_add_right _ _

end Monitor

end FlowProbe
