/-! Times and spans of time, in nanoseconds.

A span never runs backwards: `elapsed` stops at zero when the later reading is the
smaller one, and `toNat_elapsed` says that this is subtraction of natural numbers.
Milliseconds become nanoseconds with the largest time as the ceiling. A span that is
summed with others is read as a signed word first (`signed`): one of `2 ^ 63` nanoseconds
or more counts as negative, and every smaller one as itself. The word of a sum is the same
either way (`ofInt_signed`). -/
namespace FlowProbe

/-- Nanoseconds, in the width the capture side writes. -/
abbrev Nanos := UInt64

namespace Nanos

/-- The time from `start` to `now`, zero if `now` is earlier. -/
def elapsed (start now : Nanos) : Nanos := if start ≤ now then now - start else 0

theorem toNat_elapsed (start now : Nanos) :
    (elapsed start now).toNat = now.toNat - start.toNat := by
  rw [elapsed]
  split
  · next h => exact UInt64.toNat_sub_of_le _ _ h
  · next h =>
    have : now.toNat < start.toNat := by simpa [UInt64.le_iff_toNat_le] using h
    rw [UInt64.toNat_zero]
    omega

@[simp] theorem elapsed_self (t : Nanos) : elapsed t t = 0 := by
  simp [elapsed]

/-- The word read as two's complement. -/
def signed (d : Nanos) : Int := d.toInt64.toInt

/-- The signed word of a span, whether the span counts as signed or as itself. -/
theorem ofInt_signed (d : Nanos) : Int64.ofInt d.signed = Int64.ofInt d.toNat := by
  rw [signed, Int64.ofInt_toInt]
  apply Int64.toBitVec_inj.1
  simp

def perMilli : Nat := 1000000

/-- Milliseconds as nanoseconds, no more than the largest time. -/
def ofMillis (ms : UInt64) : Nanos := UInt64.ofNat (min (ms.toNat * perMilli) (UInt64.size - 1))

end Nanos

end FlowProbe
