import FlowProbe.Proofs.Wire.Layout
import FlowProbe.Wire.Ring

/-! The layout of a dump.

`IsLayout` says byte by byte where the cursors and the slots of a dump stand. A row of bytes is too
short for the cursors, or a number of images behind them, or breaks off within an image
(`length_cases`). In the second case there is one dump that it is the layout of (`isLayout_iff`),
which is what it reads as (`ofBytes_eq_ok_iff`) and which is written as these bytes
(`bytes_reading`, `reading_bytes`); in the others it is refused (`ofBytes_eq_error_iff`). So reading
inverts the layout over the whole format (`reads_layouts`). -/
namespace FlowProbe.RingDump
open Words

/-- The cursors stand in front, each in eight bytes, and the image of every slot behind the one
before it. -/
structure IsLayout (d : RingDump) (bytes : List UInt8) : Prop where
  length : bytes.length = 16 + 40 * d.slots.length
  head : Placed.StandsIn ⟨0, 8, d.head.toNat⟩ bytes
  tail : Placed.StandsIn ⟨8, 8, d.tail.toNat⟩ bytes
  slots : ∀ (i : Nat) (s : Segment), d.slots[i]? = some s →
    s.IsImage ((bytes.drop (16 + 40 * i)).take 40)

theorem length_images (n : Nat) (body : List UInt8) : (images n body).length = n := by
  induction n generalizing body with
  | zero => rfl
  | succ n ih => rw [images, List.length_cons, ih]

theorem getElem?_images {n i : Nat} (h : i < n) (body : List UInt8) :
    (images n body)[i]? = some (Segment.ofImage (body.drop (40 * i))) := by
  induction n generalizing i body with
  | zero => exact absurd h (Nat.not_lt_zero i)
  | succ n ih =>
    cases i with
    | zero => rfl
    | succ i =>
      rw [images, List.getElem?_cons_succ, ih (Nat.lt_of_succ_lt_succ h), List.drop_drop,
        Segment.imageSize, Nat.mul_add, Nat.mul_one, Nat.add_comm]

/-- Images that were read are written as the bytes that they take. -/
theorem flatMap_bytes_images {n : Nat} {body : List UInt8} (h : 40 * n ≤ body.length) :
    (images n body).flatMap Segment.bytes = body.take (40 * n) := by
  induction n generalizing body with
  | zero => rfl
  | succ n ih =>
    have hfirst : Segment.imageSize ≤ body.length := by
      rw [Segment.imageSize]
      omega
    have hrest : 40 * n ≤ (body.drop Segment.imageSize).length := by
      rw [List.length_drop, Segment.imageSize]
      omega
    rw [images, List.flatMap_cons, Segment.bytes_ofImage hfirst, ih hrest, Segment.imageSize,
      ← List.take_add, Nat.mul_add, Nat.mul_one, Nat.add_comm]

/-- What a row of bytes reads as when its body is `n` images. -/
def reading (n : Nat) (bytes : List UInt8) : RingDump :=
  { head := .ofNat (slice bytes 0 8)
    tail := .ofNat (slice bytes 8 8)
    slots := images n (bytes.drop headerSize) }

section Reading

variable {n : Nat} {bytes : List UInt8} (h : bytes.length = 16 + 40 * n)
include h

theorem ofBytes_of_length : ofBytes bytes = .ok (reading n bytes) := by
  have hbody : (bytes.drop headerSize).length = Segment.imageSize * n := by
    rw [List.length_drop, h, headerSize, Segment.imageSize]
    omega
  have hlong : ¬bytes.length < headerSize := by
    rw [headerSize]
    omega
  have hpos : 0 < Segment.imageSize := by decide
  rw [ofBytes, if_neg hlong]
  simp only [hbody, Nat.mul_mod_right, if_true, Nat.mul_div_cancel_left n hpos]
  rfl

theorem bytes_reading : (reading n bytes).bytes = bytes := by
  have hbody : 40 * n ≤ (bytes.drop headerSize).length := by
    rw [List.length_drop, headerSize]
    omega
  have hall : (bytes.drop headerSize).take (40 * n) = bytes.drop headerSize :=
    List.take_of_length_le (by rw [List.length_drop, headerSize]; omega)
  rw [RingDump.bytes, reading, flatMap_bytes_images hbody, hall]
  simp (disch := omega) only [toNat_word64, lowFirst_slice, List.drop_zero, ← List.take_add]
  exact List.take_append_drop _ _

theorem isLayout_reading : (reading n bytes).IsLayout bytes := by
  refine ⟨?_, ?_, ?_, fun i s hs => ?_⟩
  · rw [reading, length_images, h]
  · have hword : (UInt64.ofNat (slice bytes 0 8)).toNat = slice bytes 0 8 :=
      toNat_word64 (by omega)
    rw [reading, hword]
    exact standsIn_slice (by omega)
  · have hword : (UInt64.ofNat (slice bytes 8 8)).toNat = slice bytes 8 8 :=
      toNat_word64 (by omega)
    rw [reading, hword]
    exact standsIn_slice (by omega)
  · have hi : i < n := by
      have hlt := (List.getElem?_eq_some_iff.1 hs).1
      rwa [reading, length_images] at hlt
    have hlength : ((bytes.drop (16 + 40 * i)).take 40).length = 40 := length_slot (by omega)
    rw [reading, getElem?_images hi, List.drop_drop, headerSize, Option.some.injEq] at hs
    refine (Segment.isImage_iff hlength s).2 ?_
    exact (Segment.ofImage_take _).trans hs

/-- Bytes are the layout of what they read as, and of nothing else. -/
theorem isLayout_iff (d : RingDump) : d.IsLayout bytes ↔ reading n bytes = d := by
  constructor
  · rintro ⟨hlength, hhead, htail, hslots⟩
    have hn : d.slots.length = n := by omega
    have hhead : slice bytes 0 8 = d.head.toNat :=
      slice_of_standsIn (by omega) (toNat_lt_range_eight _) hhead
    have htail : slice bytes 8 8 = d.tail.toNat :=
      slice_of_standsIn (by omega) (toNat_lt_range_eight _) htail
    have himages : images n (bytes.drop headerSize) = d.slots := by
      refine List.ext_getElem? fun i => ?_
      by_cases hi : i < n
      · have hsome := List.getElem?_eq_getElem (hn.symm ▸ hi)
        have hlength : ((bytes.drop (16 + 40 * i)).take 40).length = 40 := length_slot (by omega)
        have hread := (Segment.isImage_iff hlength _).1 (hslots i _ hsome)
        rw [getElem?_images hi, hsome, ← hread, List.drop_drop, headerSize]
        exact congrArg some (Segment.ofImage_take _).symm
      · rw [List.getElem?_eq_none (by rw [length_images]; omega), List.getElem?_eq_none (by omega)]
    rw [reading, hhead, htail, himages, UInt64.ofNat_toNat, UInt64.ofNat_toNat]
  · rintro rfl
    exact isLayout_reading h

end Reading

theorem length_bytes (d : RingDump) : d.bytes.length = 16 + 40 * d.slots.length := by
  have hslots : (d.slots.flatMap Segment.bytes).length = 40 * d.slots.length := by
    induction d.slots with
    | nil => rfl
    | cons s rest ih =>
      rw [List.flatMap_cons, List.length_append, ih, Segment.length_bytes, List.length_cons,
        Segment.imageSize]
      omega
  rw [bytes, List.length_append, List.length_append, length_lowFirst, length_lowFirst, hslots]

/-- Slots that were written are read as they were. -/
theorem images_flatMap_bytes (slots : List Segment) :
    images slots.length (slots.flatMap Segment.bytes) = slots := by
  induction slots with
  | nil => rfl
  | cons s rest ih =>
    rw [List.length_cons, List.flatMap_cons, images, Segment.ofImage_append,
      List.drop_left' s.length_bytes, ih]

theorem reading_bytes (d : RingDump) : reading d.slots.length d.bytes = d := by
  have hhead : slice d.bytes 0 8 = d.head.toNat := by
    rw [bytes, List.append_assoc]
    exact slice_front (toNat_lt_range_eight _) _
  have htail : slice d.bytes 8 8 = d.tail.toNat := by
    rw [bytes, List.append_assoc, slice_skip (by simp), length_lowFirst]
    exact slice_front (toNat_lt_range_eight _) _
  have hbody : d.bytes.drop headerSize = d.slots.flatMap Segment.bytes :=
    List.drop_left' (by simp [headerSize])
  rw [reading, hhead, htail, hbody, images_flatMap_bytes, UInt64.ofNat_toNat, UInt64.ofNat_toNat]

/-- A row of bytes is too short for the cursors, a number of images behind them, or breaks off
within an image. -/
theorem length_cases (bytes : List UInt8) :
    bytes.length < 16 ∨ (∃ n, bytes.length = 16 + 40 * n) ∨
      ∃ n rest, bytes.length = 16 + (40 * n + rest) ∧ 0 < rest ∧ rest < 40 := by
  by_cases hshort : bytes.length < 16
  · exact .inl hshort
  · have hdivided := Nat.div_add_mod (bytes.length - 16) 40
    by_cases hrest : (bytes.length - 16) % 40 = 0
    · exact .inr (.inl ⟨(bytes.length - 16) / 40, by omega⟩)
    · exact .inr (.inr ⟨(bytes.length - 16) / 40, (bytes.length - 16) % 40, by omega, by omega,
        Nat.mod_lt _ (by decide)⟩)

theorem ofBytes_of_short {bytes : List UInt8} (h : bytes.length < 16) :
    ofBytes bytes = .error (.size 16 bytes.length) :=
  if_pos h

theorem ofBytes_of_ragged {bytes : List UInt8} {n rest : Nat}
    (h : bytes.length = 16 + (40 * n + rest)) (hpos : 0 < rest) (hrest : rest < 40) :
    ofBytes bytes = .error (.size (40 * (n + 1)) (40 * n + rest)) := by
  have hbody : (bytes.drop headerSize).length = 40 * n + rest := by
    rw [List.length_drop, h, headerSize, Nat.add_sub_cancel_left]
  have hlong : ¬bytes.length < headerSize := by
    rw [headerSize]
    omega
  have hdiv : (40 * n + rest) / Segment.imageSize = n := by
    rw [Segment.imageSize]
    omega
  have hmod : ¬(40 * n + rest) % Segment.imageSize = 0 := by
    rw [Segment.imageSize]
    omega
  rw [ofBytes, if_neg hlong]
  simp only [hbody, hdiv, if_neg hmod]
  rw [Nat.mul_comm, Segment.imageSize]

theorem ofBytes_eq_ok_iff {bytes : List UInt8} {d : RingDump} :
    ofBytes bytes = .ok d ↔ ∃ n, bytes.length = 16 + 40 * n ∧ reading n bytes = d := by
  constructor
  · intro h
    rcases length_cases bytes with hshort | ⟨n, hn⟩ | ⟨n, rest, hlength, hpos, hrest⟩
    · rw [ofBytes_of_short hshort] at h
      cases h
    · rw [ofBytes_of_length hn, Except.ok.injEq] at h
      exact ⟨n, hn, h⟩
    · rw [ofBytes_of_ragged hlength hpos hrest] at h
      cases h
  · rintro ⟨n, hn, rfl⟩
    exact ofBytes_of_length hn

theorem ofBytes_eq_error_iff {bytes : List UInt8} {fault : Fault} :
    ofBytes bytes = .error fault ↔
      (bytes.length < 16 ∧ fault = .size 16 bytes.length) ∨
        ∃ n rest, bytes.length = 16 + (40 * n + rest) ∧ 0 < rest ∧ rest < 40 ∧
          fault = .size (40 * (n + 1)) (40 * n + rest) := by
  constructor
  · intro h
    rcases length_cases bytes with hshort | ⟨n, hn⟩ | ⟨n, rest, hlength, hpos, hrest⟩
    · rw [ofBytes_of_short hshort, Except.error.injEq] at h
      exact .inl ⟨hshort, h.symm⟩
    · rw [ofBytes_of_length hn] at h
      cases h
    · rw [ofBytes_of_ragged hlength hpos hrest, Except.error.injEq] at h
      exact .inr ⟨n, rest, hlength, hpos, hrest, h.symm⟩
  · rintro (⟨hshort, rfl⟩ | ⟨n, rest, hlength, hpos, hrest, rfl⟩)
    · exact ofBytes_of_short hshort
    · exact ofBytes_of_ragged hlength hpos hrest

/-- **Reading inverts the layout.** What is read is what is laid out, all of it and nothing else:
bytes read as a dump exactly if they are its layout, which are the bytes that it is written as. They
read at all exactly if they are the cursors and a number of images. Bytes too short for the cursors
are refused with the size of the cursors and their own; bytes that break off within an image are
refused with the next whole number of images above their body, and the body. -/
theorem reads_layouts :
    (∀ bytes d, ofBytes bytes = .ok d ↔ d.IsLayout bytes) ∧
    (∀ bytes d, ofBytes bytes = .ok d ↔ d.bytes = bytes) ∧
    (∀ bytes, (∃ d, ofBytes bytes = .ok d) ↔ ∃ n, bytes.length = 16 + 40 * n) ∧
    ∀ bytes fault, ofBytes bytes = .error fault ↔
      (bytes.length < 16 ∧ fault = .size 16 bytes.length) ∨
        ∃ n rest, bytes.length = 16 + (40 * n + rest) ∧ 0 < rest ∧ rest < 40 ∧
          fault = .size (40 * (n + 1)) (40 * n + rest) := by
  refine ⟨fun bytes d => ?_, fun bytes d => ?_, fun bytes => ?_, fun _ _ => ofBytes_eq_error_iff⟩
  · rw [ofBytes_eq_ok_iff]
    constructor
    · rintro ⟨n, hn, hd⟩
      exact (isLayout_iff hn d).2 hd
    · intro hlayout
      exact ⟨d.slots.length, hlayout.length, (isLayout_iff hlayout.length d).1 hlayout⟩
  · rw [ofBytes_eq_ok_iff]
    constructor
    · rintro ⟨n, hn, rfl⟩
      exact bytes_reading hn
    · rintro rfl
      exact ⟨d.slots.length, d.length_bytes, d.reading_bytes⟩
  · constructor
    · rintro ⟨d, hd⟩
      obtain ⟨n, hn, -⟩ := ofBytes_eq_ok_iff.1 hd
      exact ⟨n, hn⟩
    · rintro ⟨n, hn⟩
      exact ⟨_, ofBytes_of_length hn⟩

/-- Cursors, an image and one byte more: two images would be the next whole number. -/
example : ofBytes (.replicate 57 0) = .error (.size 80 41) := rfl

end FlowProbe.RingDump
