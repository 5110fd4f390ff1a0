import FlowProbe.Monitor

/-! What an analyzer remembers.

How a segment is taken depends on the clock of a window and on what is under way, open
handshakes or segments that wait for their acknowledgment. None of it depends on the aggregates,
so none of it depends on what an output had room for: two analyzers with the same memory have
the same memory after the same segment (`memory_ingest`) and after a poll with any outputs
(`memory_poll`). Monitors with the same memories are `Akin`. -/
namespace FlowProbe

/-! ### Handshakes -/

namespace Handshakes

/-- The window's clock and the handshakes under way. -/
def memory (h : Handshakes) : WindowClock × Keyed Flow Opening := (h.window.clock, h.openings)

/-- The handshakes behind a segment's time. -/
def admitted (h : Handshakes) (s : Segment) : Handshakes :=
  { h with window := (h.window.observe s.time).ingest }

variable {h k : Handshakes} (hm : h.memory = k.memory)
include hm

theorem clock_of_memory : h.window.clock = k.window.clock := congrArg Prod.fst hm

theorem openings_of_memory : h.openings = k.openings := congrArg Prod.snd hm

theorem memory_admitted (s : Segment) : (h.admitted s).memory = (k.admitted s).memory := by
  show (h.window.clock.observe s.time, h.openings) = (k.window.clock.observe s.time, k.openings)
  rw [clock_of_memory hm, openings_of_memory hm]

theorem memory_onSyn (s : Segment) : (h.onSyn s).memory = (k.onSyn s).memory := by
  rw [memory, onSyn, clock_of_memory hm, openings_of_memory hm]
  rfl

theorem memory_onSynAck (s : Segment) : (h.onSynAck s).memory = (k.onSynAck s).memory := by
  have hclock := clock_of_memory hm
  rw [onSynAck, onSynAck, openings_of_memory hm]
  cases k.openings.find? s.flow.reverse with
  | none => exact Prod.ext hclock rfl
  | some o => exact Prod.ext hclock rfl

theorem memory_onAck (s : Segment) : (h.onAck s).memory = (k.onAck s).memory := by
  have hclock := clock_of_memory hm
  rw [onAck, onAck, openings_of_memory hm]
  split
  · exact Prod.ext hclock rfl
  · exact hm

theorem memory_ingest (t : InterfaceTable) (s : Segment) :
    (h.ingest t s).memory = (k.ingest t s).memory := by
  rw [ingest, ingest]
  have hadmitted := memory_admitted hm s
  cases t.isContainer s.flow.iface with
  | false => exact hm
  | true =>
    cases s.has .syn <;> cases s.has .ack
    · exact hadmitted
    · exact memory_onAck hadmitted s
    · exact memory_onSyn hadmitted s
    · exact memory_onSynAck hadmitted s

theorem memory_poll (t : InterfaceTable) (out out' : Buffer) :
    (Windowed.poll t h out).state.memory = (Windowed.poll t k out').state.memory := by
  have hclose : ∀ (g : Handshakes) (o : Buffer), (Windowed.close t g o).state.memory =
      (g.window.clock.restart, g.openings.filter fun _ o => isFresh g.window.clock o) :=
    fun _ _ => rfl
  have hdue : (Windowed.clock h).isDue = (Windowed.clock k).isDue :=
    congrArg WindowClock.isDue (clock_of_memory hm)
  rw [Windowed.poll, Windowed.poll, hdue]
  split
  · rw [hclose, hclose, clock_of_memory hm, openings_of_memory hm]
  · exact hm

end Handshakes

/-! ### Acknowledgments -/

namespace AckDelays

/-- The window's clock and the segments that wait. -/
def memory (a : AckDelays) : WindowClock × Keyed Flow (List Waiting) := (a.window.clock, a.queues)

/-- The analyzer behind a segment's time. -/
def admitted (a : AckDelays) (s : Segment) : AckDelays :=
  { a with window := (a.window.observe s.time).ingest }

variable {a b : AckDelays} (hm : a.memory = b.memory)
include hm

theorem clock_of_memory : a.window.clock = b.window.clock := congrArg Prod.fst hm

theorem queues_of_memory : a.queues = b.queues := congrArg Prod.snd hm

theorem memory_admitted (s : Segment) : (a.admitted s).memory = (b.admitted s).memory := by
  show (a.window.clock.observe s.time, a.queues) = (b.window.clock.observe s.time, b.queues)
  rw [clock_of_memory hm, queues_of_memory hm]

theorem memory_enqueue (s : Segment) : (a.enqueue s).memory = (b.enqueue s).memory := by
  rw [memory, enqueue, clock_of_memory hm, queues_of_memory hm]
  rfl

theorem memory_onAck (s : Segment) : (a.onAck s).memory = (b.onAck s).memory := by
  have hclock := clock_of_memory hm
  rw [onAck, onAck, queues_of_memory hm]
  cases (((b.queues.find? s.flow.reverse).getD []).takeWhile (covers s)).getLast? with
  | none => exact Prod.ext hclock rfl
  | some last => exact Prod.ext hclock rfl

theorem memory_ingest (t : InterfaceTable) (s : Segment) :
    (a.ingest t s).memory = (b.ingest t s).memory := by
  rw [ingest, ingest]
  have hadmitted := memory_admitted hm s
  cases t.isContainer s.flow.iface && s.has .ack && !s.has .syn with
  | false => exact hm
  | true =>
    cases t.direction s.flow s.hint with
    | received => exact memory_onAck hadmitted s
    | sent => exact memory_enqueue hadmitted s

theorem memory_poll (t : InterfaceTable) (out out' : Buffer) :
    (Windowed.poll t a out).state.memory = (Windowed.poll t b out').state.memory := by
  have hclose : ∀ (c : AckDelays) (o : Buffer),
      (Windowed.close t c o).state.memory = (c.window.clock.restart, .empty) := fun _ _ => rfl
  have hdue : (Windowed.clock a).isDue = (Windowed.clock b).isDue :=
    congrArg WindowClock.isDue (clock_of_memory hm)
  rw [Windowed.poll, Windowed.poll, hdue]
  split
  · rw [hclose, hclose, clock_of_memory hm]
  · exact hm

end AckDelays

/-! ### Monitors -/

namespace Monitor

/-- The same interfaces and the same memories. -/
structure Akin (m n : Monitor) : Prop where
  table : m.table = n.table
  handshakes : m.handshakes.memory = n.handshakes.memory
  ackDelays : m.ackDelays.memory = n.ackDelays.memory

variable {m n : Monitor} (h : Akin m n)
include h

theorem akin_ingest (s : Segment) : Akin (m.ingest s) (n.ingest s) := by
  refine ⟨h.table, ?_, ?_⟩
  · show (m.handshakes.ingest m.table s).memory = (n.handshakes.ingest n.table s).memory
    rw [h.table]
    exact Handshakes.memory_ingest h.handshakes n.table s
  · show (m.ackDelays.ingest m.table s).memory = (n.ackDelays.ingest n.table s).memory
    rw [h.table]
    exact AckDelays.memory_ingest h.ackDelays n.table s

/-- Whatever the outputs have room for. -/
theorem akin_poll (out out' : Buffer) : Akin (m.poll out).state (n.poll out').state := by
  refine ⟨h.table, ?_, ?_⟩
  · simp only [poll, pollPaths, writeWindows]
    rw [h.table]
    exact Handshakes.memory_poll h.handshakes n.table _ _
  · simp only [poll, pollPaths, writeWindows]
    rw [h.table]
    exact AckDelays.memory_poll h.ackDelays n.table _ _

end Monitor

end FlowProbe
