import FlowProbe.Flow
import FlowProbe.Path.Focus
import FlowProbe.Wire.Parameters

/-! The events of a capture.

A segment names its flags and says which way it went; its parameters and the segment that
they decode to have the union of the flags' bits. A report becomes a socket report, a focus
declaration has no time of its own. -/
namespace FlowProbe

structure SegmentEvent where
  time : Nanos
  flow : Flow
  flags : List TcpFlag := []
  seq : UInt32 := 0
  ack : UInt32 := 0
  hint : CaptureHint := .unknown
  deriving DecidableEq, Repr

namespace SegmentEvent

/-- The union of the flags' bits. -/
def flagByte (e : SegmentEvent) : UInt8 := e.flags.foldl (fun acc f => acc ||| f.bit) 0

def segment (e : SegmentEvent) : Segment :=
  { time := e.time, flow := e.flow, seq := e.seq, ack := e.ack, flags := e.flagByte,
    hint := e.hint.code }

/-- The event as a tracer hands it over. -/
def parameters (e : SegmentEvent) : Parameters := e.segment.parameters

end SegmentEvent

structure ReportEvent where
  time : Nanos
  flow : Flow
  count : UInt32
  seq : UInt32 := 0
  ack : UInt32 := 0
  hint : CaptureHint := .unknown
  deriving DecidableEq, Repr

def ReportEvent.report (e : ReportEvent) : SocketReport :=
  { time := e.time, flow := e.flow, seq := e.seq, ack := e.ack, count := e.count,
    hint := e.hint.code }

inductive Event where
  | segment (e : SegmentEvent)
  | reported (e : ReportEvent)
  | focusPod (source dest : Ipv4) (span : Span) (op : FocusOp)
  | syscallEnter (tid pid : UInt32) (kind : UInt16) (time : Nanos)
  | syscallExit (tid : UInt32) (time : Nanos)
  deriving DecidableEq, Repr

/-- When the event happened, if it has a time. -/
def Event.time? : Event → Option Nanos
  | .segment e => some e.time
  | .reported e => some e.time
  | .focusPod .. => none
  | .syscallEnter _ _ _ time => some time
  | .syscallExit _ time => some time

end FlowProbe
