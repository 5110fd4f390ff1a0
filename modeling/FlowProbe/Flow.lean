import FlowProbe.Net.Ipv4
import FlowProbe.Time.Nanos

/-! Flows, the segments captured on them, and the counts their sockets report.

A `Flow` is one direction of one TCP connection as one interface sees it: the same
packet is seen on several virtual interfaces, so the interface is part of the key.
`reverse` is the other direction on the same interface, and is its own inverse. A
`Segment` is one captured packet; a `SocketReport` carries the running packet count of
a flow at a socket call. Both end in padding, which is kept because it is part of what
the capture side wrote. -/
namespace FlowProbe

structure Flow where
  source : Ipv4
  dest : Ipv4
  sourcePort : UInt16
  destPort : UInt16
  iface : UInt32
  deriving DecidableEq, Repr, Inhabited

namespace Flow

def reverse (f : Flow) : Flow :=
  { f with
    source := f.dest
    dest := f.source
    sourcePort := f.destPort
    destPort := f.sourcePort }

@[simp] theorem reverse_reverse (f : Flow) : f.reverse.reverse = f := rfl

@[simp] theorem iface_reverse (f : Flow) : f.reverse.iface = f.iface := rfl

theorem reverse_inj {f g : Flow} : f.reverse = g.reverse ↔ f = g :=
  ⟨fun h => by simpa using congrArg reverse h, fun h => h ▸ rfl⟩

theorem reverse_eq_iff {f g : Flow} : f.reverse = g ↔ f = g.reverse := by
  rw [← reverse_inj, reverse_reverse]

end Flow

inductive TcpFlag where
  | fin
  | syn
  | rst
  | psh
  | ack
  deriving DecidableEq, Repr, Inhabited

/-- The flag's bit in the flag byte of a header. -/
def TcpFlag.bit : TcpFlag → UInt8
  | .fin => 1
  | .syn => 2
  | .rst => 4
  | .psh => 8
  | .ack => 16

/-- What the capture side says about a packet's way through its interface. -/
inductive CaptureHint where
  | unknown
  | send
  | receive
  deriving DecidableEq, Repr, Inhabited

def CaptureHint.code : CaptureHint → UInt8
  | .unknown => 0
  | .send => 1
  | .receive => 2

structure Segment where
  time : Nanos
  flow : Flow
  seq : UInt32
  ack : UInt32
  flags : UInt8
  hint : UInt8 := CaptureHint.unknown.code
  padding : Vector UInt8 6 := .replicate 6 0
  deriving DecidableEq, Repr

namespace Segment

/-- Whether the segment carries a flag of `mask`. -/
def hasAny (s : Segment) (mask : UInt8) : Bool := s.flags &&& mask != 0

def has (s : Segment) (f : TcpFlag) : Bool := s.hasAny f.bit

end Segment

structure SocketReport where
  time : Nanos
  flow : Flow
  seq : UInt32
  ack : UInt32
  /-- Packets of the flow so far, not since the last report. -/
  count : UInt32
  hint : UInt8 := CaptureHint.unknown.code
  padding : Vector UInt8 3 := .replicate 3 0
  deriving DecidableEq, Repr

end FlowProbe
