import FlowProbe.Window.Basic

/-! Packets per flow.

A captured segment adds one to its flow's total. A socket's report carries a running count,
so a total is raised to it and never added to. The first event of a flow in a window fixes
the direction. -/
namespace FlowProbe

structure PacketTotal where
  total : Nat
  direction : Direction
  deriving DecidableEq, Repr

structure PacketCounts where
  window : Window PacketTotal
  deriving DecidableEq, Repr

namespace PacketCounts

def recordName : String := "tcp_packet_counts"

def ofInterval (interval : Nanos) : PacketCounts := { window := { clock := { interval } } }

/-- Admits an event of a container interface: `first` is the total it opens with, `next`
what it does to a total that is there. -/
def enter (t : InterfaceTable) (p : PacketCounts) (time : Nanos) (f : Flow) (hint : UInt8)
    (first : Nat) (next : Nat → Nat) : PacketCounts :=
  if t.isContainer f.iface then
    { window := (p.window.observe time).ingest.gather f
        { total := first, direction := t.direction f hint }
        fun e => { e with total := next e.total } }
  else p

def ingest (t : InterfaceTable) (p : PacketCounts) (s : Segment) : PacketCounts :=
  p.enter t s.time s.flow s.hint 1 (· + 1)

def ingestReport (t : InterfaceTable) (p : PacketCounts) (r : SocketReport) : PacketCounts :=
  p.enter t r.time r.flow r.hint r.count.toNat (max · r.count.toNat)

def record (time : Nanos) (f : Flow) (e : PacketTotal) : Record :=
  (f.record recordName time)
    |>.set "packet_counts" (.u64 (.ofNat e.total))
    |>.set "direction_type" (.i32 e.direction.code)

def flush (p : PacketCounts) (out : Buffer) : Written PacketCounts :=
  (p.window.flush record out).map fun window => { window }

instance : Windowed PacketCounts where
  label := "packet_count"
  clock p := p.window.clock
  restart p := { p with window := p.window.restart }
  pending p := p.window.pending
  counters p := p.window.counters
  flush _ := flush

instance : LawfulWindowed PacketCounts where
  count_flush _ p out := p.window.written_flush record out
  remaining_flush _ p out := p.window.remaining_flush record out
  pending_flush _ p out := p.window.pending_flush record out
  pending_restart _ := rfl

end PacketCounts

end FlowProbe
