import FlowProbe.Proofs.Window.Folding

/-! The account of the packets.

A segment of a container interface is one packet for the aggregate of its flow, whether it opens
the aggregate or finds it, and whether what it finds was begun in this window or stayed behind
when an output was full. So what was written of a flow and what is held of it are its packets
(`packets_conserved`). -/
namespace FlowProbe.PacketCounts
open Windowed Folding

/-- What an event does to a total: a segment adds one to it, a report raises it. The total of a new
flow takes the direction. -/
inductive Entry where
  | packet (direction : Direction)
  | report (direction : Direction) (count : Nat)
  deriving DecidableEq, Repr

namespace Entry

def put : Entry → Option PacketTotal → PacketTotal
  | packet direction, none => ⟨1, direction⟩
  | packet _, some b => { b with total := b.total + 1 }
  | report direction n, none => ⟨n, direction⟩
  | report _ n, some b => { b with total := max b.total n }

theorem total_put_packet (direction : Direction) (b : Option PacketTotal) :
    ((packet direction).put b).total = b.elim 0 PacketTotal.total + 1 := by
  cases b with
  | none => rfl
  | some b => rfl

end Entry

/-- What an event of a container interface does, and to the total of which flow. -/
def entryOf (t : InterfaceTable) : Segment ⊕ SocketReport → Option (Flow × Entry)
  | .inl s =>
    if t.isContainer s.flow.iface then some (s.flow, .packet (t.direction s.flow s.hint)) else none
  | .inr r =>
    if t.isContainer r.flow.iface then
      some (r.flow, .report (t.direction r.flow r.hint) r.count.toNat)
    else none

instance : Folding PacketCounts where
  Item := Entry
  item? t _ := entryOf t
  put := Entry.put
  count := PacketTotal.total
  countKey := "packet_counts"
  aggregates_ingest t p e := by
    cases e with
    | inl s =>
      show (p.ingest t s).window.aggregates = _
      rw [ingest, enter, entryOf]
      split
      · exact Window.aggregates_gather _ _ rfl fun _ => rfl
      · rfl
    | inr r =>
      show (p.ingestReport t r).window.aggregates = _
      rw [ingestReport, enter, entryOf]
      split
      · exact Window.aggregates_gather _ _ rfl fun _ => rfl
      · rfl
  number_record _ := count_record

/-! ### The events of a run -/

theorem ingested_ingest (t : InterfaceTable) (p : PacketCounts) (e : Segment ⊕ SocketReport) :
    (counters (Analyzing.ingest t p e)).ingested =
      (counters p).ingested + (entryOf t e).toList.length := by
  cases e with
  | inl s =>
    show (counters (p.ingest t s)).ingested = _
    rw [ingest, enter, entryOf]
    split <;> rfl
  | inr r =>
    show (counters (p.ingestReport t r)).ingested = _
    rw [ingestReport, enter, entryOf]
    split <;> rfl

/-- Every event that is taken in is put in. -/
theorem ingested_run (p : PacketCounts) (calls : List (Call PacketCounts)) :
    (counters (run p calls)).ingested = (counters p).ingested + (items p calls).length := by
  rw [items, List.length_flatMap]
  refine sum_run (steady_counter Counters.ingested) fun a _ => ?_
  cases a with
  | ingest t p e => exact ingested_ingest t p e
  | flush t p out => rfl

/-- The segment that a call takes in, if it is one of a container interface. -/
def packet? : Call PacketCounts → Option Segment
  | .ingest t (.inl s) => if t.isContainer s.flow.iface then some s else none
  | .ingest _ (.inr _) | .flush .. | .poll .. | .restart | .reorder _ => none

/-- The segments of container interfaces that a run takes in. -/
def packets (calls : List (Call PacketCounts)) : List Segment := calls.filterMap packet?

/-- Every segment is one of its flow. -/
theorem sum_packets (calls : List (Call PacketCounts)) :
    ∑ k ∈ ((packets calls).map Segment.flow).toFinset,
        (packets calls).countP (fun s => s.flow = k) = (packets calls).length := by
  rw [← List.length_map Segment.flow, ← List.sum_toFinset_count_eq_length]
  refine Finset.sum_congr rfl fun k _ => ?_
  rw [List.count, List.countP_map]
  rfl

section Segments

variable {calls : List (Call PacketCounts)} (h : ∀ t r, .ingest t (.inr r) ∉ calls)
include h

/-- A run of segments puts in a packet for each of them. -/
theorem items_of_segments (p : PacketCounts) :
    (items p calls).map Prod.fst = (packets calls).map Segment.flow ∧
      ∀ e ∈ items p calls, ∃ direction, e.2 = .packet direction := by
  induction calls generalizing p with
  | nil => exact ⟨rfl, nofun⟩
  | cons call rest ih =>
    obtain ⟨hflows, hitems⟩ := ih (fun t r hr => h t r (List.mem_cons_of_mem _ hr)) (step p call)
    cases call with
    | ingest t e =>
      cases e with
      | inr r => exact absurd List.mem_cons_self (h t r)
      | inl s =>
        have hput : (Act.ingest t p (Sum.inl s)).items = (entryOf t (.inl s)).toList := rfl
        rw [items_cons, act?, Option.toList_some, List.flatMap_singleton, hput, packets,
          List.filterMap_cons, entryOf, packet?]
        by_cases hcontainer : t.isContainer s.flow.iface = true
        · rw [if_pos hcontainer, if_pos hcontainer]
          refine ⟨congrArg (s.flow :: ·) hflows, fun e he => ?_⟩
          rcases List.mem_cons.1 he with rfl | he
          · exact ⟨_, rfl⟩
          · exact hitems e he
        · rw [if_neg hcontainer, if_neg hcontainer]
          exact ⟨hflows, hitems⟩
    | flush t out => exact ⟨hflows, hitems⟩
    | poll t out =>
      rw [items_cons, act?]
      split <;> exact ⟨hflows, hitems⟩
    | restart => exact ⟨hflows, hitems⟩
    | reorder order => exact ⟨hflows, hitems⟩

theorem ingested_of_segments (interval : Nanos) :
    (counters (run (ofInterval interval) calls)).ingested = (packets calls).length := by
  obtain ⟨hflows, -⟩ := items_of_segments h (ofInterval interval)
  rw [ingested_run, ← List.length_map Prod.fst, hflows, List.length_map]
  exact Nat.zero_add _

theorem length_itemsOf_of_segments (p : PacketCounts) (k : Flow) :
    (itemsOf k (items p calls)).length = (packets calls).countP fun s => s.flow = k := by
  have hflows := congrArg (List.countP fun f => f = k) (items_of_segments h p).1
  rw [List.countP_map, List.countP_map] at hflows
  rw [itemsOf, List.length_map, ← List.countP_eq_length_filter]
  exact hflows

/-- What was written of a flow and what is held of it are its segments. -/
theorem counted_of_segments (interval : Nanos) (k : Flow) :
    ((writtenOf k (history (ofInterval interval) calls)).map fun e => e.aggregate.total).sum +
        (live k (run (ofInterval interval) calls)).elim 0 PacketTotal.total =
      (packets calls).countP fun s => s.flow = k := by
  rw [← length_itemsOf_of_segments h (ofInterval interval) k]
  refine (grouped_run rfl calls).count fun i hi b => ?_
  obtain ⟨e, he, rfl⟩ := List.mem_map.1 hi
  obtain ⟨direction, hdirection⟩ := (items_of_segments h _).2 e (List.mem_filter.1 he).1
  rw [hdirection]
  exact Entry.total_put_packet direction b

end Segments

/-- **No packet is lost or counted twice.** After any run of segments, flushes and polls on a new
analyzer, with any outputs, what was written of a flow and what is held of it are the segments of
the flow that a container interface saw, and over all flows they are the segments that the
analyzer counts as ingested. Records show words: read off them, the sums are the same up to whole
turns, and the same where they fit in a word. -/
theorem packets_conserved (interval : Nanos) (calls : List (Call PacketCounts))
    (hsegments : ∀ t r, .ingest t (.inr r) ∉ calls) :
    let new := ofInterval interval
    let p := run new calls
    let ingested := packets calls
    let flows := (ingested.map Segment.flow).toFinset
    let seen (k : Flow) : Nat := ingested.countP fun s => s.flow = k
    let held (k : Flow) : Nat := (live k p).elim 0 PacketTotal.total
    let written (k : Flow) : List (Emitted PacketCounts) := writtenOf k (history new calls)
    let shown (k : Flow) : Int := ((written k).map fun e => e.record.number "packet_counts").sum
    (history new calls).map Emitted.record = output new calls ∧
      (∀ k, ((written k).map fun e => e.aggregate.total).sum + held k = seen k) ∧
      (∀ k, InWords (shown k + held k) (seen k)) ∧
      ∑ k ∈ flows, (((written k).map fun e => e.aggregate.total).sum + held k) =
        (counters p).ingested ∧
      InWords (∑ k ∈ flows, (shown k + held k)) (counters p).ingested := by
  intro new p ingested flows seen held written shown
  have hcount (k : Flow) : ((written k).map fun e => e.aggregate.total).sum + held k = seen k :=
    counted_of_segments hsegments interval k
  have hwords (k : Flow) : InWords (shown k + held k) (seen k) := by
    rw [← hcount k]
    exact (inWords_records (written k)).add (InWords.nat (held k))
  have hsum : ∑ k ∈ flows, seen k = (counters p).ingested :=
    (sum_packets calls).trans (ingested_of_segments hsegments interval).symm
  refine ⟨map_record_history new calls, hcount, hwords, ?_, ?_⟩
  · rw [← hsum]
    exact Finset.sum_congr rfl fun k _ => hcount k
  · rw [← hsum]
    exact InWords.finset_sum flows hwords

/-- Two packets that a full output leaves behind are written with a third, and a fourth is held. -/
theorem packets_conserved_past_full_output :
    let flow : Flow := ⟨⟨1⟩, ⟨2⟩, 1000, 80, 7⟩
    let table : InterfaceTable := { kinds := Keyed.empty.insert 7 .container }
    let segment : Segment := { time := 10, flow, seq := 7, ack := 0, flags := 0 }
    let packet : Call PacketCounts := .ingest table (Sum.inl segment)
    let calls : List (Call PacketCounts) :=
      [packet, packet, .flush table { capacity := 0 }, packet, .flush table { capacity := 8 },
        packet]
    (∀ t r, .ingest t (.inr r) ∉ calls) ∧
      (output (ofInterval 5) calls).map (fun r => r.number "packet_counts") = [3] ∧
      (live flow (run (ofInterval 5) calls)).map PacketTotal.total = some 1 ∧
      ∑ k ∈ ((packets calls).map Segment.flow).toFinset,
        (((writtenOf k (history (ofInterval 5) calls)).map fun e => e.aggregate.total).sum +
          (live k (run (ofInterval 5) calls)).elim 0 PacketTotal.total) = 4 := by
  intro flow table segment packet calls
  have hsegments : ∀ t r, .ingest t (.inr r) ∉ calls := by
    simp [calls, packet]
  obtain ⟨-, -, -, hsum, -⟩ := packets_conserved 5 calls hsegments
  exact ⟨hsegments, by decide, by decide, hsum⟩

end FlowProbe.PacketCounts
