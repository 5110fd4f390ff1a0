import FlowProbe.Proofs.Keyed
import FlowProbe.Proofs.Telemetry.Value
import FlowProbe.Proofs.Window.Backlog
import FlowProbe.Proofs.Window.Memory
import Mathlib

/-! What the lines of the windows add up to.

The lines for one pair of endpoints may be many: windows close one after the other, a full
output splits a window, and several interfaces see the same flow. What a reader can count on is
a sum: `tally` adds up one attribute over the lines with one name and the same four ends, and
`total` adds up the same over the aggregates that are still in a window. A flush moves a part of
the total to the lines (`sumOf_cut`), and an event adds its own share (`total_gather`). For each
analyzer `total_ingest` says which share that is. -/
namespace FlowProbe

/-- The four ends of a flow, whatever interface saw it. -/
structure Ends where
  source : Ipv4
  dest : Ipv4
  sourcePort : UInt16
  destPort : UInt16
  deriving DecidableEq, Repr

def Flow.ends (f : Flow) : Ends := ⟨f.source, f.dest, f.sourcePort, f.destPort⟩

theorem Flow.ends_eq_iff {f : Flow} {e : Ends} :
    f.ends = e ↔ ((f.source.word = e.source.word ∧ f.dest.word = e.dest.word) ∧
      f.sourcePort = e.sourcePort) ∧ f.destPort = e.destPort := by
  obtain ⟨⟨source⟩, ⟨dest⟩, sourcePort, destPort, iface⟩ := f
  obtain ⟨⟨source'⟩, ⟨dest'⟩, sourcePort', destPort'⟩ := e
  simp [Flow.ends, and_assoc]

namespace Record

/-- Whether a record shows these ends. -/
def shows (r : Record) (e : Ends) : Bool :=
  r.get? "sip" = some (.u32 e.source.word) && r.get? "dip" = some (.u32 e.dest.word) &&
    r.get? "sport" = some (.u16 e.sourcePort) && r.get? "dport" = some (.u16 e.destPort)

/-- The number under a key, zero if there is none. -/
def number (r : Record) (key : String) : Int := ((r.get? key).map Value.number).getD 0

end Record

namespace Ends

variable {β : Type} (e : Ends)

/-- The sum of an attribute over the lines that show these ends. -/
def sumOf (key : String) (rs : List Record) : Int :=
  ((rs.filter fun r => r.shows e).map fun r => r.number key).sum

/-- The same over the lines of a name. -/
def tally (name key : String) (rs : List Record) : Int := e.sumOf key (Record.named name rs)

/-- The sum of a value over the aggregates of these ends. -/
def total (value : β → Int) (l : List (Flow × β)) : Int :=
  ((l.filter fun p => p.1.ends = e).map fun p => value p.2).sum

theorem tally_append (name key : String) (rs rs' : List Record) :
    e.tally name key (rs ++ rs') = e.tally name key rs + e.tally name key rs' := by
  rw [tally, Record.named_append, sumOf, List.filter_append, List.map_append, List.sum_append]
  rfl

theorem total_append (value : β → Int) (l l' : List (Flow × β)) :
    e.total value (l ++ l') = e.total value l + e.total value l' := by
  rw [total, List.filter_append, List.map_append, List.sum_append]
  rfl

theorem total_perm (value : β → Int) {l l' : List (Flow × β)} (h : l.Perm l') :
    e.total value l = e.total value l' :=
  ((h.filter _).map _).sum_eq

theorem total_single (value : β → Int) (f : Flow) (b : β) :
    e.total value [(f, b)] = if f.ends = e then value b else 0 := by
  rw [total, List.filter_singleton]
  by_cases h : f.ends = e <;> simp [h]

/-- Records that show the ends of their flow and the value of their aggregate add up to the same
as the aggregates. -/
theorem sumOf_map {key : String} {value : β → Int} {record : Flow → β → Record}
    {l : List (Flow × β)} (hshows : ∀ f b, (record f b).shows e = decide (f.ends = e))
    (hnumber : ∀ p ∈ l, (record p.1 p.2).number key = value p.2) :
    e.sumOf key (l.map fun p => record p.1 p.2) = e.total value l := by
  have hlines : (l.map fun p => record p.1 p.2).filter (fun r => r.shows e) =
      (l.filter fun p => p.1.ends = e).map fun p => record p.1 p.2 := by
    rw [List.filter_map]
    exact congrArg _ (List.filter_congr fun p _ => hshows p.1 p.2)
  rw [sumOf, hlines, List.map_map, total]
  refine congrArg _ (List.map_congr_left fun p hp => ?_)
  exact hnumber p (List.mem_filter.1 hp).1

end Ends

/-! ### A cut -/

/-- What is cut off the front of a backlog and what stays in the window add up to what was in the
window, for a value that can be read off the lines. -/
theorem Windowed.sumOf_cut {σ : Type} [Windowed σ] [Aggregating σ] (t : InterfaceTable) (s : σ)
    {key : String} {value : Aggregating.Aggregate σ → Int} (e : Ends)
    (hshows : ∀ time f (b : Aggregating.Aggregate σ),
      (Aggregating.record t time f b).shows e = decide (f.ends = e))
    (hnumber : ∀ time f, ∀ p ∈ (Aggregating.window s).aggregates.entries,
      (Aggregating.record t time f p.2).number key = value p.2) (n : Nat) :
    e.sumOf key ((backlog t s).take n) +
        e.total value ((Aggregating.window s).aggregates.entries.drop n) =
      e.total value (Aggregating.window s).aggregates.entries := by
  rw [backlog, Window.backlog, ← List.map_take,
    e.sumOf_map (hshows _) fun p hp => hnumber _ p.1 p (List.mem_of_mem_take hp),
    ← Ends.total_append, List.take_append_drop]

/-! ### The share of one event -/

/-- An event that is folded into the aggregate of a flow adds its share to the total of the
flow's ends. -/
theorem Window.total_gather {β : Type} (w : Window β) (f : Flow) {first : β} {next : β → β}
    {value : β → Int} {share : Int} (hfirst : value first = share)
    (hnext : ∀ b, value (next b) = value b + share) (e : Ends) :
    e.total value (w.gather f first next).aggregates.entries =
      e.total value w.aggregates.entries + if f.ends = e then share else 0 := by
  have hown : e.total value
      ((w.gather f first next).aggregates.entries ++ Keyed.own f (w.aggregates.find? f)) = _ :=
    e.total_perm value (w.aggregates.perm_alter_own f _)
  rw [Ends.total_append, Ends.total_append] at hown
  cases hfind : w.aggregates.find? f with
  | none =>
    have hnothing : e.total value [] = 0 := rfl
    rw [hfind, Keyed.own_none, Keyed.own_some, Ends.total_single, hfirst, hnothing] at hown
    omega
  | some b =>
    rw [hfind, Keyed.own_some, Keyed.own_some, Ends.total_single, Ends.total_single, hnext] at hown
    by_cases hends : f.ends = e <;> simp only [hends, if_true, if_false] at hown ⊢ <;> omega

/-! ### Handshakes -/

namespace Handshakes

theorem shows_record (t : InterfaceTable) (time : Nanos) (f : Flow) (r : RoundTrips) (e : Ends) :
    (record t time f r).shows e = decide (f.ends = e) := by
  simp [record, Flow.record, Record.set, Record.maxAttributes, Record.shows, Record.get?,
    Flow.ends_eq_iff]

/-- A count is shown as a word. -/
theorem count_record (t : InterfaceTable) (time : Nanos) (f : Flow) (r : RoundTrips) :
    (record t time f r).number "data_counts" = (r.count % UInt64.size : Nat) := by
  simp [record, Flow.record, Record.set, Record.maxAttributes, Record.number, Record.get?,
    Value.number_u64]

theorem number_record (t : InterfaceTable) (time : Nanos) (f : Flow) {r : RoundTrips}
    (h : r.count < UInt64.size) : (record t time f r).number "data_counts" = r.count := by
  rw [count_record, Nat.mod_eq_of_lt h]

/-- Whether the ACK of a flow completes a handshake. -/
def isStamped (h : Handshakes) (f : Flow) : Bool := (h.openings.find? f).any fun o => o.stamp.isSome

/-- Whether a segment completes a handshake. -/
def completes (t : InterfaceTable) (h : Handshakes) (s : Segment) : Bool :=
  t.isContainer s.flow.iface && !s.has .syn && s.has .ack && h.isStamped s.flow

theorem completes_of_memory {h k : Handshakes} (hm : h.memory = k.memory) (t : InterfaceTable)
    (s : Segment) : h.completes t s = k.completes t s := by
  rw [completes, completes, isStamped, isStamped, openings_of_memory hm]

theorem aggregates_onSynAck (h : Handshakes) (s : Segment) :
    (h.onSynAck s).window.aggregates = h.window.aggregates := by
  rw [onSynAck]
  split <;> rfl

theorem total_onAck (h : Handshakes) (s : Segment) (e : Ends) :
    e.total (fun r => r.count) (h.onAck s).window.aggregates.entries =
      e.total (fun r => r.count) h.window.aggregates.entries +
        if s.flow.ends = e then if h.isStamped s.flow then 1 else 0 else 0 := by
  rw [onAck, isStamped]
  split
  · next synTime stamp hfind =>
    rw [hfind]
    exact h.window.total_gather s.flow rfl (fun _ => rfl) e
  · next hopen =>
    cases hfind : h.openings.find? s.flow with
    | none => simp
    | some o =>
      obtain ⟨synTime, _ | stamp⟩ := o
      · simp
      · exact absurd hfind (hopen synTime stamp)

theorem total_ingest (t : InterfaceTable) (h : Handshakes) (s : Segment) (e : Ends) :
    e.total (fun r => r.count) (h.ingest t s).window.aggregates.entries =
      e.total (fun r => r.count) h.window.aggregates.entries +
        if s.flow.ends = e then if h.completes t s then 1 else 0 else 0 := by
  rw [ingest, completes]
  cases t.isContainer s.flow.iface with
  | false => simp
  | true =>
    cases s.has .syn <;> cases s.has .ack <;>
      simp only [Bool.not_true, Bool.not_false, Bool.and_true, Bool.and_false, Bool.true_and,
        Bool.false_and, Bool.false_eq_true, if_true, if_false, ite_self, Int.add_zero]
    · rfl
    · exact (h.admitted s).total_onAck s e
    · rfl
    · exact congrArg (fun m => e.total _ m.entries) ((h.admitted s).aggregates_onSynAck s)

end Handshakes

/-! ### Acknowledgments -/

namespace AckDelays

theorem shows_record (time : Nanos) (f : Flow) (d : Delays) (e : Ends) :
    (record time f d).shows e = decide (f.ends = e) := by
  simp [record, Flow.record, Record.set, Record.maxAttributes, Record.shows, Record.get?,
    Flow.ends_eq_iff]

theorem count_record (time : Nanos) (f : Flow) (d : Delays) :
    (record time f d).number "data_counts" = (d.count % UInt64.size : Nat) :=
  Value.number_u64 d.count

theorem number_record (time : Nanos) (f : Flow) {d : Delays} (h : d.count < UInt64.size) :
    (record time f d).number "data_counts" = d.count := by
  rw [count_record, Nat.mod_eq_of_lt h]

theorem delta_record (time : Nanos) (f : Flow) {d : Delays}
    (hlow : -2 ^ 63 ≤ d.sum) (hhigh : d.sum < 2 ^ 63) :
    (record time f d).number "acktime_delta" = d.sum := by
  show (Int64.ofInt d.sum).toInt = d.sum
  rw [Int64.toInt_ofInt_of_le hlow hhigh]

/-- The sample that an ACK takes of the queue of its reverse flow. -/
def delay? (a : AckDelays) (s : Segment) : Option Int :=
  (((a.queues.find? s.flow.reverse).getD []).takeWhile (covers s)).getLast?.map fun last =>
    (Nanos.elapsed last.time s.time).signed

/-- The sample that a segment takes. -/
def sample? (t : InterfaceTable) (a : AckDelays) (s : Segment) : Option Int :=
  if t.isContainer s.flow.iface && s.has .ack && !s.has .syn then
    match t.direction s.flow s.hint with
    | .received => a.delay? s
    | .sent => none
  else none

theorem sample?_of_memory {a b : AckDelays} (hm : a.memory = b.memory) (t : InterfaceTable)
    (s : Segment) : a.sample? t s = b.sample? t s := by
  rw [sample?, sample?, delay?, delay?, queues_of_memory hm]

/-- A value that every sample adds its share to. -/
structure Adds (value : Delays → Int) (share : Int → Int) : Prop where
  first (delay : Int) (time : Nanos) : value ⟨1, delay, time, time⟩ = share delay
  next (d : Delays) (delay : Int) (time : Nanos) :
    value { d with count := d.count + 1, sum := d.sum + delay, finish := time } =
      value d + share delay

theorem adds_count : Adds (fun d => d.count) fun _ => 1 := ⟨fun _ _ => rfl, fun _ _ _ => rfl⟩

theorem adds_sum : Adds Delays.sum id := ⟨fun _ _ => rfl, fun _ _ _ => rfl⟩

section Adds

variable {value : Delays → Int} {share : Int → Int} (hadds : Adds value share)
include hadds

theorem total_onAck (a : AckDelays) (s : Segment) (e : Ends) :
    e.total value (a.onAck s).window.aggregates.entries =
      e.total value a.window.aggregates.entries +
        if s.flow.ends = e then ((a.delay? s).map share).getD 0 else 0 := by
  rw [onAck, delay?]
  cases (((a.queues.find? s.flow.reverse).getD []).takeWhile (covers s)).getLast? with
  | none => simp [Window.miss]
  | some last =>
    exact a.window.total_gather s.flow (hadds.first _ s.time) (fun d => hadds.next d _ s.time) e

theorem total_ingest (t : InterfaceTable) (a : AckDelays) (s : Segment) (e : Ends) :
    e.total value (a.ingest t s).window.aggregates.entries =
      e.total value a.window.aggregates.entries +
        if s.flow.ends = e then ((a.sample? t s).map share).getD 0 else 0 := by
  rw [ingest, sample?]
  cases t.isContainer s.flow.iface && s.has .ack && !s.has .syn with
  | false => simp
  | true =>
    cases t.direction s.flow s.hint with
    | received => exact total_onAck hadds _ s e
    | sent => simp [enqueue, Window.observe, Window.ingest]

end Adds

end AckDelays

/-! ### Packets -/

namespace PacketCounts

theorem shows_record (time : Nanos) (f : Flow) (p : PacketTotal) (e : Ends) :
    (record time f p).shows e = decide (f.ends = e) := by
  simp [record, Flow.record, Record.set, Record.maxAttributes, Record.shows, Record.get?,
    Flow.ends_eq_iff]

theorem count_record (time : Nanos) (f : Flow) (p : PacketTotal) :
    (record time f p).number "packet_counts" = (p.total % UInt64.size : Nat) :=
  Value.number_u64 p.total

theorem number_record (time : Nanos) (f : Flow) {p : PacketTotal} (h : p.total < UInt64.size) :
    (record time f p).number "packet_counts" = p.total := by
  rw [count_record, Nat.mod_eq_of_lt h]

theorem total_ingest (t : InterfaceTable) (p : PacketCounts) (s : Segment) (e : Ends) :
    e.total (fun b => b.total) (p.ingest t s).window.aggregates.entries =
      e.total (fun b => b.total) p.window.aggregates.entries +
        if s.flow.ends = e then if t.isContainer s.flow.iface then 1 else 0 else 0 := by
  rw [ingest, enter]
  cases t.isContainer s.flow.iface with
  | false => simp
  | true => exact Window.total_gather _ s.flow rfl (fun _ => rfl) e

end PacketCounts

end FlowProbe
