import FlowProbe.Window.Basic

/-! Delays of acknowledgments.

Segments that leave the local side wait in a queue under their own flow. An ACK that comes
in walks the queue of its reverse flow: `covers` says which waiting segments it
acknowledges, and the ones in front that it covers leave the queue. If there are any, the
time since the last of them is one sample of the ACK's flow; if there are none the ACK is
counted as unmatched. A flush throws all queues away, so no sample reaches back beyond
it. -/
namespace FlowProbe

/-- A segment that waits for its acknowledgment. -/
structure Waiting where
  seq : UInt32
  ack : UInt32
  time : Nanos
  deriving DecidableEq, Repr

/-- The samples of a flow in a window. -/
structure Delays where
  count : Nat
  sum : Int
  start : Nanos
  finish : Nanos
  deriving DecidableEq, Repr

structure AckDelays where
  window : Window Delays
  queues : Keyed Flow (List Waiting) := .empty
  deriving DecidableEq, Repr

namespace AckDelays

def recordName : String := "tcp_ack_delay"

def ofInterval (interval : Nanos) : AckDelays := { window := { clock := { interval } } }

/-- How many segments wait, over all flows. -/
def queued (a : AckDelays) : Nat := a.queues.total List.length

def enqueue (a : AckDelays) (s : Segment) : AckDelays :=
  let waiting : Waiting := ⟨s.seq, s.ack, s.time⟩
  { a with queues := a.queues.alter s.flow fun q => some (q.getD [] ++ [waiting]) }

/-- Whether `s` acknowledges a segment of the other direction. This admits cumulative
acknowledgments and retransmissions. -/
def covers (s : Segment) (w : Waiting) : Bool := w.seq ≤ s.ack && w.ack ≤ s.seq

/-- The queue without the segments in front that `s` covers, gone if none is left. -/
def dequeue (s : Segment) (queue : List Waiting) : Option (List Waiting) :=
  match queue.dropWhile (covers s) with
  | [] => none
  | rest => some rest

def onAck (a : AckDelays) (s : Segment) : AckDelays :=
  let queue := (a.queues.find? s.flow.reverse).getD []
  match (queue.takeWhile (covers s)).getLast? with
  | none => { a with window := a.window.miss 1 }
  | some last =>
    let delay := (Nanos.elapsed last.time s.time).signed
    { queues := a.queues.alter s.flow.reverse fun q => q.bind (dequeue s)
      window := a.window.gather s.flow
        { count := 1, sum := delay, start := s.time, finish := s.time }
        fun d => { d with count := d.count + 1, sum := d.sum + delay, finish := s.time } }

/-- Admits a segment of a container interface that has an ACK and no SYN. -/
def ingest (t : InterfaceTable) (a : AckDelays) (s : Segment) : AckDelays :=
  if t.isContainer s.flow.iface && s.has .ack && !s.has .syn then
    let admitted := { a with window := (a.window.observe s.time).ingest }
    match t.direction s.flow s.hint with
    | .received => admitted.onAck s
    | .sent => admitted.enqueue s
  else a

def record (time : Nanos) (f : Flow) (d : Delays) : Record :=
  (f.record recordName time)
    |>.set "data_counts" (.u64 (.ofNat d.count))
    |>.set "acktime_delta" (.i64 (.ofInt d.sum))
    |>.set "start_time" (.u64 d.start)
    |>.set "end_time" (.u64 d.finish)

def flush (a : AckDelays) (out : Buffer) : Written AckDelays :=
  (a.window.flush record out).map fun window => { window }

instance : Windowed AckDelays where
  label := "ack_delay"
  clock a := a.window.clock
  restart a := { a with window := a.window.restart }
  pending a := a.window.pending
  counters a := a.window.counters
  flush _ := flush

instance : LawfulWindowed AckDelays where
  count_flush _ a out := a.window.written_flush record out
  remaining_flush _ a out := a.window.remaining_flush record out
  pending_flush _ a out := a.window.pending_flush record out
  pending_restart _ := rfl

end AckDelays

end FlowProbe
