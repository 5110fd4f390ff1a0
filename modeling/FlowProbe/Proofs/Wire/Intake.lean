import FlowProbe.Event.Basic
import FlowProbe.Monitor
import FlowProbe.Proofs.Wire.Image
import FlowProbe.Proofs.Wire.Parameters
import FlowProbe.Proofs.Wire.Ring

/-! The ways in for a segment.

A segment comes in as the named parameters of an event, as an image, or in a slot of a ring.
Parameters have the addresses and ports most significant byte first and all else least
significant byte first, images have everything least significant byte first; each is read back
as it was written, so all three hand the same segment over and a monitor ends in the same state
(`front_ends_agree`). -/
namespace FlowProbe

/-! ### Parameters -/

namespace Segment
open Parameters

theorem isReadFrom_parameters (s : Segment) :
    IsReadFrom { s with padding := .replicate 6 0 } s.parameters where
  source := find?_eq_some_iff.1 rfl
  dest := find?_eq_some_iff.1 rfl
  sourcePort := find?_eq_some_iff.1 rfl
  destPort := find?_eq_some_iff.1 rfl
  iface := find?_eq_some_iff.1 rfl
  hint := .inl (find?_eq_some_iff.1 rfl)
  time := find?_eq_some_iff.1 rfl
  seq := find?_eq_some_iff.1 rfl
  ack := find?_eq_some_iff.1 rfl
  flags := find?_eq_some_iff.1 rfl
  padding := rfl

/-- Parameters have no room for padding. -/
theorem ofParameters_parameters (s : Segment) :
    ofParameters s.parameters = .ok { s with padding := .replicate 6 0 } :=
  ofParameters_eq_ok_iff.2 s.isReadFrom_parameters

end Segment

/-! ### Events -/

namespace SegmentEvent

theorem or_and (a b mask : UInt8) : (a ||| b) &&& mask = a &&& mask ||| b &&& mask := by
  refine UInt8.toBitVec_inj.1 (BitVec.eq_of_getLsbD_eq fun i _ => ?_)
  simp [Bool.and_or_distrib_right]

theorem and_foldl_bit (mask start : UInt8) (flags : List TcpFlag) :
    flags.foldl (fun acc f => acc ||| f.bit) start &&& mask ≠ 0 ↔
      start &&& mask ≠ 0 ∨ ∃ f ∈ flags, f.bit &&& mask ≠ 0 := by
  induction flags generalizing start with
  | nil => simp
  | cons f rest ih =>
    rw [List.foldl_cons, ih, or_and, ne_eq, UInt8.or_eq_zero_iff, Decidable.not_and_iff_or_not]
    simp [or_assoc]

/-- The flag byte is the union of the flags' bits: a mask meets it where it meets a flag. -/
theorem flagByte_and_iff (e : SegmentEvent) (mask : UInt8) :
    e.flagByte &&& mask ≠ 0 ↔ ∃ f ∈ e.flags, f.bit &&& mask ≠ 0 := by
  rw [flagByte, and_foldl_bit]
  simp

end SegmentEvent

/-! ### Into a monitor -/

namespace Monitor

/-- Takes in a segment from its image. -/
def ingestImage (m : Monitor) (bytes : List UInt8) : Except Fault Monitor :=
  (Segment.ofBytes bytes).map m.ingest

/-- What reads as segments is taken in as those segments. -/
theorem foldlM_ingest {α : Type} {read : α → Except Fault Segment} {segment : α → Segment}
    (h : ∀ a, read a = .ok (segment a)) (m : Monitor) (as : List α) :
    as.foldlM (fun m a => (read a).map m.ingest) m = .ok (m.ingestAll (as.map segment)) := by
  induction as generalizing m with
  | nil => rfl
  | cons a rest ih =>
    rw [List.foldlM_cons, h a]
    exact ih (m.ingest (segment a))

theorem ingestRing_of_holds {r : Ring Segment} {segments : List Segment} (h : r.Holds segments)
    (m : Monitor) : m.ingestRing r = (m.ingestAll segments, segments.length) := by
  rw [ingestRing, Ring.items_of_holds h]

/-- **The front ends agree.** The parameters of a segment's event read back as the segment with
the event's fields, the union of its flags' bits and no padding, and so does the image of that
segment. So a list of events leaves every monitor in the same state, whether it comes in as
parameters, as images or from any ring that holds it, and no way in fails. -/
theorem front_ends_agree :
    (∀ e : SegmentEvent,
      let s : Segment :=
        { time := e.time, flow := e.flow, seq := e.seq, ack := e.ack, flags := e.flagByte,
          hint := e.hint.code, padding := .replicate 6 0 }
      Segment.ofParameters e.parameters = .ok s ∧
        (∀ mask, e.flagByte &&& mask ≠ 0 ↔ ∃ f ∈ e.flags, f.bit &&& mask ≠ 0) ∧
        s.bytes.length = 40 ∧ Segment.ofBytes s.bytes = .ok s) ∧
    ∀ (m : Monitor) (events : List SegmentEvent),
      let segments := events.map SegmentEvent.segment
      events.foldlM (fun m e => m.ingestParameters e.parameters) m = .ok (m.ingestAll segments) ∧
        events.foldlM (fun m e => m.ingestImage e.segment.bytes) m = .ok (m.ingestAll segments) ∧
        ∀ r : Ring Segment, r.Holds segments →
          m.ingestRing r = (m.ingestAll segments, segments.length) := by
  refine ⟨fun e => ?_, fun m events => ⟨?_, ?_, fun r h => ingestRing_of_holds h m⟩⟩
  · exact ⟨e.segment.ofParameters_parameters, e.flagByte_and_iff, e.segment.length_bytes,
      e.segment.ofBytes_bytes⟩
  · exact foldlM_ingest (fun e => e.segment.ofParameters_parameters) m events
  · exact foldlM_ingest (fun e => e.segment.ofBytes_bytes) m events

end Monitor

end FlowProbe
