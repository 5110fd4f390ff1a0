import FlowProbe.Net.Interfaces
import FlowProbe.Path.Index
import FlowProbe.Telemetry.Counters

/-! Tracking the traffic of pod pairs.

Traffic that touches an address in focus is indexed, except name lookups and what stays
inside the overlay. A poll delivers what the pairs in focus ask for, then lets go of what
is older than a clear cycle and of the pairs whose span is over. Each segment is delivered
at most once. -/
namespace FlowProbe

structure PathTracker where
  clearCycle : Nanos
  focus : Focus := {}
  index : PathIndex := {}
  counters : Counters := {}
  deriving DecidableEq, Repr

namespace PathTracker

/-- The analyzer's name among the counters. -/
def label : String := "pod_track"

/-- The port of name lookups, which are never indexed. -/
def lookupPort : UInt16 := 53

def update (t : PathTracker) (a b : Ipv4) (span : Span) : FocusOp → PathTracker
  | .update => { t with focus := t.focus.watch (.of a b) span }
  | .delete => { t with focus := t.focus.unwatch (.of a b) }

/-- Whether a flow's traffic is indexed. -/
def admits (table : InterfaceTable) (t : PathTracker) (f : Flow) : Bool :=
  f.sourcePort != lookupPort && f.destPort != lookupPort &&
    !(table.inOverlay f.source && table.inOverlay f.dest) &&
    (t.focus.holds f.source || t.focus.holds f.dest)

def ingest (table : InterfaceTable) (t : PathTracker) (s : Segment) : PathTracker :=
  if t.admits table s.flow then
    { t with index := t.index.add s, counters := t.counters.ingest }
  else t

/-- Delivers what the pairs in focus ask for, as far as the output has room. -/
def query (t : PathTracker) (now : Nanos) (out : Buffer) : Written PathTracker :=
  let d := PathIndex.deliver now (t.index.visits t.focus) t.index.bySeq out
  ⟨{ t with
      index := { t.index with bySeq := d.rest }
      counters := t.counters.flush d.written d.left },
    d.out, d.written⟩

/-- Lets go of old entries and of the pairs whose span is over. -/
def age (now : Nanos) (t : PathTracker) : PathTracker :=
  { t with index := t.index.prune t.clearCycle now, focus := t.focus.expire now }

def poll (t : PathTracker) (now : Nanos) (out : Buffer) : Written PathTracker :=
  (t.query now out).map (age now)

/-- A poll writes no more than there is room for. -/
theorem count_poll_le (t : PathTracker) (now : Nanos) (out : Buffer) :
    (t.poll now out).count ≤ out.remaining := by
  have h := PathIndex.remaining_deliver now (t.index.visits t.focus) t.index.bySeq out
  simp only [poll, query, Written.map]
  omega

end PathTracker

end FlowProbe
