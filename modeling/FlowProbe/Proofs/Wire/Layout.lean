import FlowProbe.Proofs.Wire.Image

/-! The layout of an image.

A layout says which number stands where, byte by byte with the least significant one in front
(`Placed.StandsIn`), and `Segment.IsImage` says it of the image of a segment. Neither mentions how
bytes are written or read. A number that stands in its place is what is sliced out there
(`Words.slice_of_standsIn`, `Words.standsIn_slice`), so forty bytes are the image of what they read
as and of nothing else (`Segment.isImage_iff`). What is sliced out and written again is what stood
there, and places that follow each other are one, so an image that was read is written as it was
(`Segment.bytes_ofImage`). -/
namespace FlowProbe

/-! ### Numbers in their places -/

/-- A number, with the place of its bytes in a row. -/
structure Placed where
  offset : Nat
  width : Nat
  value : Nat

/-- The bytes of the number stand in their place, the least significant one in front. -/
def Placed.StandsIn (p : Placed) (bytes : List UInt8) : Prop :=
  ∀ i < p.width, bytes[p.offset + i]? = some (UInt8.ofNat (p.value >>> (8 * i)))

namespace Words

theorem getElem?_lowFirst {width i : Nat} (h : i < width) (n : Nat) :
    (lowFirst width n)[i]? = some (UInt8.ofNat (n >>> (8 * i))) := by
  induction width generalizing i n with
  | zero => exact absurd h (Nat.not_lt_zero i)
  | succ width ih =>
    cases i with
    | zero => rfl
    | succ i =>
      have hbyte : n >>> 8 = n / 256 := Nat.shiftRight_eq_div_pow n 8
      have hshift : n >>> (8 * (i + 1)) = (n / 256) >>> (8 * i) := by
        rw [Nat.mul_add, Nat.mul_one, Nat.add_comm, Nat.shiftRight_add, hbyte]
      rw [lowFirst, List.getElem?_cons_succ, ih (Nat.lt_of_succ_lt_succ h), hshift]

section Slice

variable {bytes : List UInt8} {offset width : Nat} (h : offset + width ≤ bytes.length)
include h

theorem length_slot : ((bytes.drop offset).take width).length = width := by
  rw [List.length_take, List.length_drop]
  omega

theorem slice_lt : slice bytes offset width < range width := by
  have hlt := ofLowFirst_lt ((bytes.drop offset).take width)
  rwa [length_slot h] at hlt

/-- What is sliced out and written again is what stood there. -/
theorem lowFirst_slice :
    lowFirst width (slice bytes offset width) = (bytes.drop offset).take width := by
  have hback := lowFirst_ofLowFirst ((bytes.drop offset).take width)
  rwa [length_slot h] at hback

theorem standsIn_slice : Placed.StandsIn ⟨offset, width, slice bytes offset width⟩ bytes := by
  intro i hi
  have hi : i < width := hi
  rw [← getElem?_lowFirst hi, lowFirst_slice h, List.getElem?_take_of_lt hi, List.getElem?_drop]

theorem slice_of_standsIn {n : Nat} (hn : n < range width)
    (hstands : Placed.StandsIn ⟨offset, width, n⟩ bytes) : slice bytes offset width = n := by
  have hslot : (bytes.drop offset).take width = lowFirst width n := by
    refine List.ext_getElem? fun i => ?_
    by_cases hi : i < width
    · rw [List.getElem?_take_of_lt hi, List.getElem?_drop, getElem?_lowFirst hi]
      exact hstands i hi
    · rw [List.getElem?_eq_none (by rw [length_slot h]; omega),
        List.getElem?_eq_none (by rw [length_lowFirst]; omega)]
  rw [slice, hslot, ofLowFirst_lowFirst hn]

theorem toList_padding : (padding width bytes offset).toList = (bytes.drop offset).take width := by
  refine List.ext_getElem (by rw [length_slot h, Vector.length_toList]) fun i _ hi => ?_
  rw [length_slot h] at hi
  have hlt : offset + i < bytes.length := by omega
  simp [padding, hlt]

end Slice

theorem slice_take {n offset width : Nat} (h : offset + width ≤ n) (bytes : List UInt8) :
    slice (bytes.take n) offset width = slice bytes offset width := by
  rw [slice, slice, List.drop_take, List.take_take, Nat.min_eq_left (by omega)]

theorem padding_take {n offset width : Nat} (h : offset + width ≤ n) (bytes : List UInt8) :
    padding width (bytes.take n) offset = padding width bytes offset := by
  refine Vector.ext fun i hi => ?_
  have hlt : offset + i < n := by omega
  simp [padding, List.getD_eq_getElem?_getD, List.getElem?_take_of_lt hlt]

/-! A word has room for what is sliced out in its width. -/

section Word

variable {bytes : List UInt8} {offset : Nat}

theorem toNat_byte (h : offset + 1 ≤ bytes.length) :
    (UInt8.ofNat (slice bytes offset 1)).toNat = slice bytes offset 1 :=
  UInt8.toNat_ofNat_of_lt (slice_lt h)

theorem toNat_word16 (h : offset + 2 ≤ bytes.length) :
    (UInt16.ofNat (slice bytes offset 2)).toNat = slice bytes offset 2 :=
  UInt16.toNat_ofNat_of_lt (slice_lt h)

theorem toNat_word32 (h : offset + 4 ≤ bytes.length) :
    (UInt32.ofNat (slice bytes offset 4)).toNat = slice bytes offset 4 :=
  UInt32.toNat_ofNat_of_lt (slice_lt h)

theorem toNat_word64 (h : offset + 8 ≤ bytes.length) :
    (UInt64.ofNat (slice bytes offset 8)).toNat = slice bytes offset 8 :=
  UInt64.toNat_ofNat_of_lt (slice_lt h)

end Word

/-- Places that follow each other are one. -/
theorem slot_append {offset width next : Nat} (h : next = offset + width) (bytes : List UInt8)
    (width' : Nat) :
    (bytes.drop offset).take width ++ (bytes.drop next).take width' =
      (bytes.drop offset).take (width + width') := by
  rw [h, List.take_add, List.drop_drop]

end Words

/-! ### Images -/

namespace Flow
open Words

theorem bytes_ofImage {bytes : List UInt8} {offset : Nat} (h : offset + 16 ≤ bytes.length) :
    (ofImage bytes offset).bytes = (bytes.drop offset).take 16 := by
  simp (disch := omega) only [Flow.bytes, ofImage, toNat_word16, toNat_word32, lowFirst_slice,
    slot_append, Nat.reduceAdd]

end Flow

namespace Segment
open Words

/-- The numbers of a segment's image. -/
def fields (s : Segment) : List Placed :=
  [⟨0, 8, s.time.toNat⟩, ⟨8, 4, s.flow.source.word.toNat⟩, ⟨12, 4, s.flow.dest.word.toNat⟩,
    ⟨16, 2, s.flow.sourcePort.toNat⟩, ⟨18, 2, s.flow.destPort.toNat⟩, ⟨20, 4, s.flow.iface.toNat⟩,
    ⟨24, 4, s.seq.toNat⟩, ⟨28, 4, s.ack.toNat⟩, ⟨32, 1, s.flags.toNat⟩, ⟨33, 1, s.hint.toNat⟩]

/-- Forty bytes in which the numbers and the padding of a segment stand. -/
structure IsImage (s : Segment) (image : List UInt8) : Prop where
  length : image.length = 40
  fields : ∀ p ∈ s.fields, p.StandsIn image
  padding : ∀ i : Fin 6, image[34 + i.val]? = some s.padding[i]

theorem fields_lt (s : Segment) :
    ∀ p ∈ s.fields, p.offset + p.width ≤ 40 ∧ p.value < range p.width := by
  have hflags : s.flags.toNat < range 1 := s.flags.toNat_lt
  have hhint : s.hint.toNat < range 1 := s.hint.toNat_lt
  simp [fields, toNat_lt_range_two, toNat_lt_range_four, toNat_lt_range_eight, hflags, hhint]

theorem value_ofImage {image : List UInt8} (h : image.length = 40) :
    ∀ p ∈ (ofImage image).fields, p.value = slice image p.offset p.width := by
  simp (disch := omega) only [fields, ofImage, Flow.ofImage, List.forall_mem_cons, List.not_mem_nil,
    toNat_byte, toNat_word16, toNat_word32, toNat_word64]
  simp

/-- Forty bytes are the image of what they read as, and of nothing else. -/
theorem isImage_iff {image : List UInt8} (h : image.length = 40) (s : Segment) :
    s.IsImage image ↔ ofImage image = s := by
  constructor
  · rintro ⟨-, hfields, hpadding⟩
    have hslices : ∀ p ∈ s.fields, slice image p.offset p.width = p.value := by
      intro p hp
      obtain ⟨hplace, hvalue⟩ := s.fields_lt p hp
      exact slice_of_standsIn (h.symm ▸ hplace) hvalue (hfields p hp)
    simp only [fields, List.forall_mem_cons] at hslices
    obtain ⟨htime, hsource, hdest, hsport, hdport, hiface, hseq, hack, hflags, hhint, -⟩ := hslices
    have hpadding : Words.padding 6 image 34 = s.padding := by
      refine Vector.ext fun i hi => ?_
      simpa [Words.padding, List.getD_eq_getElem?_getD] using congrArg (·.getD 0) (hpadding ⟨i, hi⟩)
    rw [ofImage, Flow.ofImage, htime, hsource, hdest, hsport, hdport, hiface, hseq, hack, hflags,
      hhint, hpadding]
    simp only [UInt8.ofNat_toNat, UInt16.ofNat_toNat, UInt32.ofNat_toNat, UInt64.ofNat_toNat]
  · rintro rfl
    refine ⟨h, fun p hp => ?_, fun i => ?_⟩
    · obtain ⟨hplace, -⟩ := (ofImage image).fields_lt p hp
      obtain ⟨offset, width, value⟩ := p
      have hvalue : value = slice image offset width := value_ofImage h _ hp
      rw [hvalue]
      exact standsIn_slice (h.symm ▸ hplace)
    · have hi : 34 + i.val < image.length := by omega
      simp [ofImage, Words.padding, hi]

theorem ofImage_take (bytes : List UInt8) : ofImage (bytes.take imageSize) = ofImage bytes := by
  simp only [ofImage, Flow.ofImage, imageSize, slice_take, padding_take, Nat.reduceAdd,
    Nat.reduceLeDiff]

theorem ofImage_append (s : Segment) (rest : List UInt8) : ofImage (s.bytes ++ rest) = s := by
  rw [← ofImage_take, List.take_left' s.length_bytes, ofImage_bytes]

theorem bytes_ofImage {bytes : List UInt8} (h : imageSize ≤ bytes.length) :
    (ofImage bytes).bytes = bytes.take imageSize := by
  have h : 40 ≤ bytes.length := h
  have hbytes : [UInt8.ofNat (slice bytes 32 1), UInt8.ofNat (slice bytes 33 1)] =
      (bytes.drop 32).take 2 := by
    have hfirst : lowFirst 1 (slice bytes 32 1) = (bytes.drop 32).take 1 :=
      lowFirst_slice (by omega)
    have hsecond : lowFirst 1 (slice bytes 33 1) = (bytes.drop 33).take 1 :=
      lowFirst_slice (by omega)
    have hboth : (bytes.drop 32).take 1 ++ (bytes.drop 33).take 1 = (bytes.drop 32).take 2 :=
      slot_append rfl bytes 1
    rw [← hboth, ← hfirst, ← hsecond]
    rfl
  have hpadding : (Words.padding 6 bytes 34).toList = (bytes.drop 34).take 6 :=
    toList_padding (by omega)
  rw [Segment.bytes, ofImage, hbytes, hpadding]
  simp (disch := omega) only [Flow.bytes_ofImage, toNat_word32, toNat_word64, lowFirst_slice,
    slot_append, Nat.reduceAdd]
  rfl

end Segment

namespace SocketReport
open Words

theorem bytes_ofImage {bytes : List UInt8} (h : bytes.length = imageSize) :
    (ofImage bytes).bytes = bytes := by
  have h : bytes.length = 40 := h
  have hhint : lowFirst 1 (slice bytes 36 1) = (bytes.drop 36).take 1 := lowFirst_slice (by omega)
  have hbyte : lowFirst 1 (slice bytes 36 1) = [UInt8.ofNat (slice bytes 36 1)] := rfl
  have hpadding : (Words.padding 3 bytes 37).toList = (bytes.drop 37).take 3 :=
    toList_padding (by omega)
  rw [SocketReport.bytes, ofImage, hpadding, ← hbyte, hhint]
  simp (disch := omega) only [Flow.bytes_ofImage, toNat_word32, toNat_word64, lowFirst_slice,
    slot_append, Nat.reduceAdd]
  exact List.take_of_length_le (Nat.le_of_eq h)

/-- Bytes read as the report that is written as these bytes. -/
theorem ofBytes_eq_ok_iff {bytes : List UInt8} {r : SocketReport} :
    ofBytes bytes = .ok r ↔ r.bytes = bytes := by
  rw [ofBytes]
  split
  · next hlength =>
    rw [Except.ok.injEq]
    constructor
    · rintro rfl
      exact bytes_ofImage hlength
    · rintro rfl
      exact ofImage_bytes r
  · next hlength =>
    refine ⟨nofun, fun h => absurd ?_ hlength⟩
    rw [← h, length_bytes]

theorem ofBytes_eq_error_iff {bytes : List UInt8} {fault : Fault} :
    ofBytes bytes = .error fault ↔ bytes.length ≠ 40 ∧ fault = .size 40 bytes.length := by
  rw [ofBytes]
  split
  · next hlength => exact ⟨nofun, fun h => absurd hlength h.1⟩
  · next hlength =>
    rw [Except.error.injEq]
    exact ⟨fun h => ⟨hlength, h.symm⟩, fun h => h.2.symm⟩

end SocketReport

end FlowProbe
