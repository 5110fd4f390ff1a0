import FlowProbe.Wire.Image

/-! Reading an image back.

An image is its fields one behind the other, so the slice of a field is reached by skipping the
fields in front of it (`slice_skip`) and holds the number that was written there
(`slice_front`). What is read at the offsets of the layout is therefore the segment that was
written, its padding included (`ofBytes_bytes`). -/
namespace FlowProbe

namespace Words

/-! ### Slices of what stands in a row -/

/-- What is in front of a slice does not count. -/
theorem slice_skip {front rest : List UInt8} {offset : Nat} (h : front.length ≤ offset)
    (width : Nat) :
    slice (front ++ rest) offset width = slice rest (offset - front.length) width := by
  rw [slice, slice, List.drop_append, List.drop_eq_nil_of_le h, List.nil_append]

/-- The number in front is the one that was written. -/
theorem slice_front {width n : Nat} (h : n < range width) (rest : List UInt8) :
    slice (lowFirst width n ++ rest) 0 width = n := by
  have hfield : (lowFirst width n ++ rest).take width = lowFirst width n := by
    rw [List.take_append_of_le_length (by simp), List.take_of_length_le (by simp)]
  rw [slice, List.drop_zero, hfield, ofLowFirst_lowFirst h]

/-- One byte in front is its own number. -/
theorem slice_byte (b : UInt8) (rest : List UInt8) : slice (b :: rest) 0 1 = b.toNat := by
  simp [slice, ofLowFirst]

theorem slice_second (a b : UInt8) (rest : List UInt8) : slice (a :: b :: rest) 1 1 = b.toNat :=
  slice_byte b rest

theorem padding_toList {n : Nat} (front : List UInt8) (p : Vector UInt8 n) :
    padding n (front ++ p.toList) front.length = p := by
  refine Vector.ext fun i hi => ?_
  simp [padding]

theorem toNat_lt_range_two (w : UInt16) : w.toNat < range 2 := w.toNat_lt

theorem toNat_lt_range_four (w : UInt32) : w.toNat < range 4 := w.toNat_lt

theorem toNat_lt_range_eight (w : UInt64) : w.toNat < range 8 := w.toNat_lt

end Words

namespace Flow
open Words

@[simp] theorem length_bytes (f : Flow) : f.bytes.length = 16 := by
  simp [bytes]

/-- The flow behind `front` is read at the end of `front`. -/
theorem ofImage_append (front : List UInt8) (f : Flow) (rest : List UInt8) :
    ofImage (front ++ (f.bytes ++ rest)) front.length = f := by
  simp (disch := simp [toNat_lt_range_two, toNat_lt_range_four]) only [ofImage, bytes,
    List.append_assoc, slice_skip, slice_front, length_lowFirst, Nat.add_sub_cancel_left,
    Nat.sub_self, Nat.reduceSub, UInt32.ofNat_toNat, UInt16.ofNat_toNat]

end Flow

namespace Segment
open Words

@[simp] theorem length_bytes (s : Segment) : s.bytes.length = imageSize := by
  simp [bytes, imageSize]

theorem ofImage_bytes (s : Segment) : ofImage s.bytes = s := by
  have hflow : Flow.ofImage s.bytes 8 = s.flow := by
    have h := Flow.ofImage_append (lowFirst 8 s.time.toNat) s.flow
      (lowFirst 4 s.seq.toNat ++ lowFirst 4 s.ack.toNat ++ [s.flags, s.hint] ++ s.padding.toList)
    simpa [bytes] using h
  have hpadding : Words.padding 6 s.bytes 34 = s.padding := by
    have h := padding_toList (lowFirst 8 s.time.toNat ++ s.flow.bytes ++
      lowFirst 4 s.seq.toNat ++ lowFirst 4 s.ack.toNat ++ [s.flags, s.hint]) s.padding
    simpa [bytes] using h
  rw [ofImage, hflow, hpadding]
  simp (disch := simp [toNat_lt_range_four, toNat_lt_range_eight]) only [bytes, List.append_assoc,
    slice_skip, slice_front, length_lowFirst, Flow.length_bytes, Nat.reduceSub,
    List.cons_append, List.nil_append, slice_byte, slice_second,
    UInt8.ofNat_toNat, UInt32.ofNat_toNat, UInt64.ofNat_toNat]

theorem ofBytes_bytes (s : Segment) : ofBytes s.bytes = .ok s := by
  rw [ofBytes, if_pos s.length_bytes, ofImage_bytes]

end Segment

namespace SocketReport
open Words

@[simp] theorem length_bytes (r : SocketReport) : r.bytes.length = imageSize := by
  simp [bytes, imageSize]

theorem ofImage_bytes (r : SocketReport) : ofImage r.bytes = r := by
  have hflow : Flow.ofImage r.bytes 8 = r.flow := by
    have h := Flow.ofImage_append (lowFirst 8 r.time.toNat) r.flow
      (lowFirst 4 r.seq.toNat ++ lowFirst 4 r.ack.toNat ++ lowFirst 4 r.count.toNat ++ [r.hint] ++
        r.padding.toList)
    simpa [bytes] using h
  have hpadding : Words.padding 3 r.bytes 37 = r.padding := by
    have h := padding_toList (lowFirst 8 r.time.toNat ++ r.flow.bytes ++
      lowFirst 4 r.seq.toNat ++ lowFirst 4 r.ack.toNat ++ lowFirst 4 r.count.toNat ++ [r.hint])
      r.padding
    simpa [bytes] using h
  rw [ofImage, hflow, hpadding]
  simp (disch := simp [toNat_lt_range_four, toNat_lt_range_eight]) only [bytes, List.append_assoc,
    slice_skip, slice_front, length_lowFirst, Flow.length_bytes, Nat.reduceSub,
    List.cons_append, List.nil_append, slice_byte, UInt8.ofNat_toNat, UInt32.ofNat_toNat,
    UInt64.ofNat_toNat]

end SocketReport

end FlowProbe
