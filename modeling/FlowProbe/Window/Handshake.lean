import FlowProbe.Window.Basic

/-! Round trips of TCP handshakes.

A client's SYN opens an entry, the server's SYN and ACK on the reverse flow stamps it, and
the client's ACK on a stamped entry completes it: the time from SYN to stamp and the time
from stamp to ACK are added to the flow's sums. A repeated SYN changes nothing and a
repeated stamp overwrites. Only one leg means something from here: the side that sent the
ACK measured the first leg, the side that received it the second, and the other sum is
reported as `noLeg`. A flush lets go of entries whose SYN is older than an interval. -/
namespace FlowProbe

/-- A handshake under way. -/
structure Opening where
  synTime : Nanos
  stamp : Option Nanos := none
  deriving DecidableEq, Repr

/-- The handshakes a flow completed in a window. -/
structure RoundTrips where
  count : Nat
  synSum : Int
  ackSum : Int
  start : Nanos
  finish : Nanos
  /-- The hint of the first ACK. -/
  hint : UInt8
  deriving DecidableEq, Repr

structure Handshakes where
  window : Window RoundTrips
  openings : Keyed Flow Opening := .empty
  deriving DecidableEq, Repr

namespace Handshakes

def recordName : String := "tcp_handshake_rtt"

/-- Stands for the leg that was not measured here. -/
def noLeg : Int := -1

def ofInterval (interval : Nanos) : Handshakes := { window := { clock := { interval } } }

def inFlight (h : Handshakes) : Nat := h.openings.size

def onSyn (h : Handshakes) (s : Segment) : Handshakes :=
  { h with openings := h.openings.alter s.flow fun o => o <|> some { synTime := s.time } }

def onSynAck (h : Handshakes) (s : Segment) : Handshakes :=
  match h.openings.find? s.flow.reverse with
  | some o => { h with openings := h.openings.insert s.flow.reverse { o with stamp := s.time } }
  | none => { h with window := h.window.miss 1 }

/-- The two legs of a handshake, read as signed words. -/
def legs (synTime stamp ackTime : Nanos) : Int × Int :=
  ((Nanos.elapsed synTime stamp).signed, (Nanos.elapsed stamp ackTime).signed)

def onAck (h : Handshakes) (s : Segment) : Handshakes :=
  match h.openings.find? s.flow with
  | some { synTime, stamp := some stamp } =>
    let (syn, ack) := legs synTime stamp s.time
    { h with
      openings := h.openings.erase s.flow
      window := h.window.gather s.flow
        { count := 1, synSum := syn, ackSum := ack, start := s.time, finish := s.time,
          hint := s.hint }
        fun r =>
          { r with
            count := r.count + 1
            synSum := r.synSum + syn
            ackSum := r.ackSum + ack
            finish := s.time } }
  | _ => h

/-- Admits a segment of a container interface. One with neither flag moves the clock only. -/
def ingest (t : InterfaceTable) (h : Handshakes) (s : Segment) : Handshakes :=
  if t.isContainer s.flow.iface then
    let h := { h with window := h.window.observe s.time }
    let admitted := { h with window := h.window.ingest }
    match s.has .syn, s.has .ack with
    | true, false => admitted.onSyn s
    | true, true => admitted.onSynAck s
    | false, true => admitted.onAck s
    | false, false => h
  else h

def record (t : InterfaceTable) (time : Nanos) (f : Flow) (r : RoundTrips) : Record :=
  let (syn, ack) := match t.direction f r.hint with
    | .sent => (r.synSum, noLeg)
    | .received => (noLeg, r.ackSum)
  (f.record recordName time)
    |>.set "data_counts" (.u64 (.ofNat r.count))
    |>.set "synrtt_delta" (.i64 (.ofInt syn))
    |>.set "ackrtt_delta" (.i64 (.ofInt ack))
    |>.set "start_time" (.u64 r.start)
    |>.set "end_time" (.u64 r.finish)

/-- Whether an entry's SYN is no more than an interval old. -/
def isFresh (c : WindowClock) (o : Opening) : Bool := Nanos.elapsed o.synTime c.latest ≤ c.interval

/-- Lets go of the entries that are not fresh. -/
def evict (h : Handshakes) : Handshakes :=
  let kept := h.openings.filter fun _ o => isFresh h.window.clock o
  { window := h.window.miss (h.openings.size - kept.size), openings := kept }

def flush (t : InterfaceTable) (h : Handshakes) (out : Buffer) : Written Handshakes :=
  (h.window.flush (record t) out).map fun window => { h with window }.evict

instance : Windowed Handshakes where
  label := "handshake"
  clock h := h.window.clock
  restart h := { h with window := h.window.restart }
  pending h := h.window.pending
  counters h := h.window.counters
  flush := flush

instance : LawfulWindowed Handshakes where
  count_flush t h out := h.window.written_flush (record t) out
  remaining_flush t h out := h.window.remaining_flush (record t) out
  pending_flush t h out := h.window.pending_flush (record t) out
  pending_restart _ := rfl

end Handshakes

end FlowProbe
