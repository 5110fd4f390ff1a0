import FlowProbe.Wire.Image

/-! Capture rings.

A ring is a row of slots and two cursors into it. `Ring.items` walks from the head to the
tail, around the end of the row if need be, and stops where the cursors meet; the walk ends
because the way that is left, `distance`, gets shorter. A dump is the two cursors as words
of 64 bits and then the image of every slot. -/
namespace FlowProbe

structure Ring (α : Type) where
  slots : List α
  head : Nat
  tail : Nat
  head_lt : head < slots.length := by decide
  tail_lt : tail < slots.length := by decide

namespace Ring

variable {α : Type}

/-- The ring between two cursors, both of which must lie in the row. -/
def make (slots : List α) (head tail : Nat) : Except Fault (Ring α) :=
  if h : head < slots.length ∧ tail < slots.length then .ok ⟨slots, head, tail, h.1, h.2⟩
  else .error (.cursor head tail slots.length)

def capacity (r : Ring α) : Nat := r.slots.length

/-- How many slots lie between `pos` and the tail. -/
def distance (r : Ring α) (pos : Nat) : Nat := (r.tail + r.capacity - pos) % r.capacity

def size (r : Ring α) : Nat := r.distance r.head

def isEmpty (r : Ring α) : Bool := r.head == r.tail

/-- The slot behind `pos`. -/
def next (r : Ring α) (pos : Nat) : Nat := (pos + 1) % r.capacity

theorem next_lt (r : Ring α) (pos : Nat) : r.next pos < r.slots.length :=
  Nat.mod_lt _ (Nat.lt_of_le_of_lt (Nat.zero_le _) r.head_lt)

theorem distance_eq (r : Ring α) {pos : Nat} (h : pos < r.slots.length) :
    r.distance pos = if pos ≤ r.tail then r.tail - pos else r.tail + r.capacity - pos := by
  have ht := r.tail_lt
  rw [distance, capacity]
  split
  · next hle =>
    have : r.tail + r.slots.length - pos = (r.tail - pos) + r.slots.length := by omega
    rw [this, Nat.add_mod_right, Nat.mod_eq_of_lt (by omega)]
  · rw [Nat.mod_eq_of_lt (by omega)]

/-- A step brings the walk one slot nearer to the tail. -/
theorem distance_next (r : Ring α) {pos : Nat} (h : pos < r.slots.length) (hne : pos ≠ r.tail) :
    r.distance (r.next pos) + 1 = r.distance pos := by
  have ht := r.tail_lt
  rw [r.distance_eq h, r.distance_eq (r.next_lt pos), next, capacity]
  by_cases hlast : pos + 1 = r.slots.length
  · rw [hlast, Nat.mod_self]
    simp only [Nat.zero_le, if_true]
    split <;> omega
  · rw [Nat.mod_eq_of_lt (by omega)]
    split <;> split <;> omega

/-- The slots from `pos` up to the tail. -/
def itemsFrom (r : Ring α) (pos : Nat) (h : pos < r.slots.length) : List α :=
  if hne : pos = r.tail then []
  else
    have := r.distance_next h hne
    r.slots[pos] :: r.itemsFrom (r.next pos) (r.next_lt pos)
termination_by r.distance pos

def items (r : Ring α) : List α := r.itemsFrom r.head r.head_lt

end Ring

structure RingDump where
  head : UInt64
  tail : UInt64
  slots : List Segment
  deriving DecidableEq, Repr

namespace RingDump

/-- The size of the two cursors. -/
def headerSize : Nat := 16

def bytes (d : RingDump) : List UInt8 :=
  Words.lowFirst 8 d.head.toNat ++ Words.lowFirst 8 d.tail.toNat ++ d.slots.flatMap Segment.bytes

/-- The segments of `n` images in a row. -/
def images : (n : Nat) → List UInt8 → List Segment
  | 0, _ => []
  | n + 1, bytes => Segment.ofImage bytes :: images n (bytes.drop Segment.imageSize)

def ofBytes (bytes : List UInt8) : Except Fault RingDump :=
  if bytes.length < headerSize then .error (.size headerSize bytes.length)
  else
    let body := bytes.drop headerSize
    let whole := body.length / Segment.imageSize
    if body.length % Segment.imageSize = 0 then
      .ok
        { head := .ofNat (Words.slice bytes 0 8)
          tail := .ofNat (Words.slice bytes 8 8)
          slots := images whole body }
    else .error (.size ((whole + 1) * Segment.imageSize) body.length)

def ring (d : RingDump) : Except Fault (Ring Segment) :=
  Ring.make d.slots d.head.toNat d.tail.toNat

end RingDump

end FlowProbe
