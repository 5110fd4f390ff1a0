import FlowProbe.Flow
import FlowProbe.Keyed
import FlowProbe.Path.Focus
import FlowProbe.Telemetry.Buffer

/-! The two indexes of tracked traffic and the walk that delivers from them.

A tracked segment is entered under both of its addresses, as an observation of the peer,
and under its sequence number, as a sighting with its flow. Delivery goes from a pair's
ends over the sequence numbers observed there to the sightings: those inside the pair's
span are written and leave the index, the others stay where they are for other pairs. The
walk ends at the first bucket that the output has no room for. Every entry also leaves the
indexes by age. -/
namespace FlowProbe

/-- A segment as one of its addresses remembers it. -/
structure Observation where
  peer : Ipv4
  seq : UInt32
  time : Nanos
  deriving DecidableEq, Repr

/-- A segment as its sequence number remembers it. -/
structure Sighting where
  flow : Flow
  seq : UInt32
  time : Nanos
  deriving DecidableEq, Repr

namespace Sighting

def recordName : String := "pod_net_track"

/-- The record of a sighting delivered at `now`. -/
def record (now : Nanos) (s : Sighting) : Record :=
  { name := recordName, time := now,
    attributes := [⟨"sip", .u32 s.flow.source.word⟩, ⟨"dip", .u32 s.flow.dest.word⟩,
      ⟨"sport", .u16 s.flow.sourcePort⟩, ⟨"dport", .u16 s.flow.destPort⟩,
      ⟨"ifindex", .u32 s.flow.iface⟩, ⟨"seq", .u32 s.seq⟩, ⟨"timestamp", .u64 s.time⟩] }

end Sighting

abbrev SeqBuckets := Keyed UInt32 (List Sighting)

/-- The outcome of delivering: what stays, the output, how many sightings were written, and
how many of the span's own were left because the output was full. -/
structure Delivery (α : Type) where
  rest : α
  out : Buffer
  written : Nat := 0
  left : Nat := 0

namespace Delivery

variable {α β : Type}

/-- The same delivery with `n` more records before it. -/
def after (d : Delivery α) (n : Nat) : Delivery α := { d with written := n + d.written }

end Delivery

namespace Span

/-- Writes the sightings of a bucket that lie in the span, and keeps the others in order. -/
def deliver (span : Span) (now : Nanos) : List Sighting → Buffer → Delivery (List Sighting)
  | [], out => { rest := [], out }
  | s :: bucket, out =>
    if span.contains s.time then
      match out.push (s.record now) with
      | some out => (span.deliver now bucket out).after 1
      | none =>
        let d := span.deliver now bucket out
        { d with rest := s :: d.rest, left := d.left + 1 }
    else
      let d := span.deliver now bucket out
      { d with rest := s :: d.rest }

end Span

structure PathIndex where
  byAddress : Keyed Ipv4 (List Observation) := .empty
  bySeq : SeqBuckets := .empty
  deriving DecidableEq, Repr, Inhabited

namespace PathIndex

/-- How many sightings are held. -/
def size (i : PathIndex) : Nat := i.bySeq.total List.length

def observations (i : PathIndex) (ip : Ipv4) : List Observation := (i.byAddress.find? ip).getD []

def push {κ α : Type} [DecidableEq κ] (m : Keyed κ (List α)) (k : κ) (a : α) :
    Keyed κ (List α) :=
  m.alter k fun l => some (l.getD [] ++ [a])

def add (i : PathIndex) (s : Segment) : PathIndex :=
  let f := s.flow
  { byAddress :=
      push (push i.byAddress f.source ⟨f.dest, s.seq, s.time⟩) f.dest ⟨f.source, s.seq, s.time⟩
    bySeq := push i.bySeq s.seq ⟨f, s.seq, s.time⟩ }

/-- The elements that `keep` keeps, in every bucket that has any. -/
def retain {κ α : Type} (m : Keyed κ (List α)) (keep : α → Bool) : Keyed κ (List α) :=
  m.mapMaybe fun _ l =>
    match l.filter keep with
    | [] => none
    | kept => some kept

/-- Lets go of everything older than `horizon`. -/
def prune (i : PathIndex) (horizon now : Nanos) : PathIndex :=
  { byAddress := retain i.byAddress fun o => Nanos.elapsed o.time now ≤ horizon
    bySeq := retain i.bySeq fun s => Nanos.elapsed s.time now ≤ horizon }

/-- The buckets to visit for the pairs in focus, each with the span of its pair: a pair's two
ends one after the other, and the sequence numbers observed at an end in their order. -/
def visits (i : PathIndex) (f : Focus) : List (Span × UInt32) :=
  f.pairs.entries.flatMap fun e =>
    e.1.ends.flatMap fun ip => (i.observations ip).map fun o => (e.2, o.seq)

/-- Puts back what a bucket keeps. An empty bucket is not kept. -/
def putBack (buckets : SeqBuckets) (seq : UInt32) : List Sighting → SeqBuckets
  | [] => buckets.erase seq
  | kept => buckets.insert seq kept

/-- Delivers from one bucket after the other, up to the first that the output has no room
for. -/
def deliver (now : Nanos) : List (Span × UInt32) → SeqBuckets → Buffer → Delivery SeqBuckets
  | [], buckets, out => { rest := buckets, out }
  | (span, seq) :: visits, buckets, out =>
    match buckets.find? seq with
    | none => deliver now visits buckets out
    | some bucket =>
      let d := span.deliver now bucket out
      let buckets := putBack buckets seq d.rest
      if d.left = 0 then (deliver now visits buckets d.out).after d.written
      else { d with rest := buckets }

end PathIndex

/-! ### Room for what is delivered -/

/-- Every sighting written takes one place of the output. -/
theorem Span.remaining_deliver (span : Span) (now : Nanos) (bucket : List Sighting)
    (out : Buffer) :
    (span.deliver now bucket out).written + (span.deliver now bucket out).out.remaining =
      out.remaining := by
  induction bucket generalizing out with
  | nil => simp [Span.deliver]
  | cons s bucket ih =>
    rw [Span.deliver]
    split
    · cases hp : out.push (s.record now) with
      | none => exact ih out
      | some next =>
        have hnext := ih next
        obtain ⟨hr, hc, hlt⟩ := Buffer.push_eq_some hp
        simp only [Buffer.remaining, Buffer.size, hr, hc, List.length_append,
          List.length_singleton, Delivery.after] at hlt hnext ⊢
        omega
    · exact ih out

theorem PathIndex.remaining_deliver (now : Nanos) (visits : List (Span × UInt32))
    (buckets : SeqBuckets) (out : Buffer) :
    (deliver now visits buckets out).written + (deliver now visits buckets out).out.remaining =
      out.remaining := by
  induction visits generalizing buckets out with
  | nil => simp [deliver]
  | cons visit visits ih =>
    obtain ⟨span, seq⟩ := visit
    rw [deliver]
    split
    · exact ih buckets out
    · next bucket _ =>
      have hd := span.remaining_deliver now bucket out
      have hrest := ih (putBack buckets seq (span.deliver now bucket out).rest)
        (span.deliver now bucket out).out
      by_cases hleft : (span.deliver now bucket out).left = 0
      · simp only [hleft, if_true, Delivery.after]
        omega
      · simpa only [hleft, if_false] using hd

end FlowProbe
