import FlowProbe.Path.Tracker
import FlowProbe.Settings.Basic
import FlowProbe.Window.AckDelay
import FlowProbe.Window.Handshake
import FlowProbe.Window.PacketCount
import FlowProbe.Wire.Parameters
import FlowProbe.Wire.Ring

/-! All traffic analyzers on one stream of events.

Every segment goes to all four analyzers, a socket's report to the packet counts alone. The
analyzers share the output of a poll in a fixed order, so once it is full the later ones
keep their state for the next poll; the path tracker comes last and sees the time of the
latest event. `poll` closes the windows that are over and `flushAll` closes all of them.
An event that cannot be decoded leaves the monitor as it was. -/
namespace FlowProbe

structure Monitor where
  table : InterfaceTable
  handshakes : Handshakes
  ackDelays : AckDelays
  packets : PacketCounts
  paths : PathTracker
  events : Nat := 0
  /-- The time of the latest event. -/
  latest : Nanos := 0
  deriving DecidableEq, Repr

namespace Monitor

def make (table : InterfaceTable) (interval clearCycle : Nanos) : Monitor :=
  { table
    handshakes := .ofInterval interval
    ackDelays := .ofInterval interval
    packets := .ofInterval interval
    paths := { clearCycle } }

def ofSettings (s : Settings) (table : InterfaceTable) : Monitor :=
  make table s.flushInterval s.clearCycle

/-- Counts an event and takes its time. -/
def note (m : Monitor) (time : Nanos) : Monitor :=
  { m with events := m.events + 1, latest := time }

def ingest (m : Monitor) (s : Segment) : Monitor :=
  { m.note s.time with
    handshakes := m.handshakes.ingest m.table s
    ackDelays := m.ackDelays.ingest m.table s
    packets := m.packets.ingest m.table s
    paths := m.paths.ingest m.table s }

def ingestAll (m : Monitor) (segments : List Segment) : Monitor := segments.foldl ingest m

/-- Takes in every slot between the cursors, and says how many. -/
def ingestRing (m : Monitor) (r : Ring Segment) : Monitor × Nat :=
  (m.ingestAll r.items, r.items.length)

def ingestParameters (m : Monitor) (ps : Parameters) : Except Fault Monitor :=
  (Segment.ofParameters ps).map m.ingest

def ingestReport (m : Monitor) (r : SocketReport) : Monitor :=
  { m.note r.time with packets := m.packets.ingestReport m.table r }

def ingestReportBytes (m : Monitor) (bytes : List UInt8) : Except Fault Monitor :=
  (SocketReport.ofBytes bytes).map m.ingestReport

def updateFocus (m : Monitor) (a b : Ipv4) (span : Span) (op : FocusOp) : Monitor :=
  { m with paths := m.paths.update a b span op }

/-- Has the three windowed analyzers write one after the other. -/
def writeWindows (m : Monitor) (out : Buffer)
    (write : {σ : Type} → [Windowed σ] → InterfaceTable → σ → Buffer → Written σ) :
    Written Monitor :=
  let h := write m.table m.handshakes out
  let a := write m.table m.ackDelays h.out
  let p := write m.table m.packets a.out
  ⟨{ m with handshakes := h.state, ackDelays := a.state, packets := p.state }, p.out,
    h.count + a.count + p.count⟩

/-- Polls the path tracker at the latest event. -/
def pollPaths (w : Written Monitor) : Written Monitor :=
  let p := w.state.paths.poll w.state.latest w.out
  ⟨{ w.state with paths := p.state }, p.out, w.count + p.count⟩

/-- Closes the windows that are over, then polls the path tracker. -/
def poll (m : Monitor) (out : Buffer) : Written Monitor :=
  pollPaths (m.writeWindows out Windowed.poll)

/-- Closes every window, then polls the path tracker. -/
def flushAll (m : Monitor) (out : Buffer) : Written Monitor :=
  pollPaths (m.writeWindows out Windowed.close)

/-- How many aggregates wait in the windowed analyzers. -/
def pending (m : Monitor) : Nat :=
  Windowed.pending m.handshakes + Windowed.pending m.ackDelays + Windowed.pending m.packets

/-- A full flush takes out of the windows what the output has room for. -/
theorem pending_flushAll (m : Monitor) (out : Buffer) :
    (m.flushAll out).state.pending = m.pending - out.remaining := by
  simp only [flushAll, pollPaths, writeWindows, pending, Windowed.pending_close,
    Windowed.remaining_close]
  omega

theorem count_flushAll_le (m : Monitor) (out : Buffer) :
    (m.flushAll out).count ≤ out.remaining := by
  have h := (m.writeWindows out Windowed.close).state.paths.count_poll_le
    (m.writeWindows out Windowed.close).state.latest (m.writeWindows out Windowed.close).out
  simp only [flushAll, pollPaths, writeWindows, Windowed.count_close,
    Windowed.remaining_close] at h ⊢
  omega

/-- Windows that a full flush leaves something in hold less than before, if it wrote at all. -/
theorem pending_flushAll_lt {m : Monitor} {out : Buffer} (hcount : (m.flushAll out).count ≠ 0)
    (hleft : (m.flushAll out).state.pending ≠ 0) :
    (m.flushAll out).state.pending < m.pending := by
  have hle := m.count_flushAll_le out
  rw [pending_flushAll] at hleft ⊢
  omega

def metrics (m : Monitor) : Metrics :=
  Keyed.empty
    |>.insert (Windowed.label Handshakes) (Windowed.counters m.handshakes)
    |>.insert (Windowed.label AckDelays) (Windowed.counters m.ackDelays)
    |>.insert (Windowed.label PacketCounts) (Windowed.counters m.packets)
    |>.insert PathTracker.label m.paths.counters

end Monitor

end FlowProbe
