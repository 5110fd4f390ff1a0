import FlowProbe.Fault
import FlowProbe.Keyed
import FlowProbe.Time.Nanos

/-! The pod pairs in focus and the addresses they hold.

A pair has no order, and each pair in focus has a span of time. `refs` counts for each
address the pairs that it belongs to, a pair of one address with itself once: an address
is in focus as long as its count is there. Watching a pair that is in focus already only
renews its span, and a pair leaves when it is withdrawn or when its span is over. -/
namespace FlowProbe

/-- Two pod addresses, the smaller one first. -/
structure PodPair where
  low : Ipv4
  high : Ipv4
  ordered : low.word ≤ high.word := by decide
  deriving DecidableEq, Repr

namespace PodPair

def of (a b : Ipv4) : PodPair :=
  if h : a.word ≤ b.word then ⟨a, b, h⟩
  else ⟨b, a, by
    rw [UInt32.le_iff_toNat_le] at h ⊢
    omega⟩

/-- Both ends, also where they are the same. -/
def ends (p : PodPair) : List Ipv4 := [p.low, p.high]

/-- The addresses that belong to the pair, each once. -/
def members (p : PodPair) : List Ipv4 := if p.low = p.high then [p.low] else [p.low, p.high]

end PodPair

/-- A span of time with both its ends. -/
structure Span where
  first : Nanos
  last : Nanos
  deriving DecidableEq, Repr

namespace Span

def contains (s : Span) (t : Nanos) : Bool := s.first ≤ t && t ≤ s.last

def isOver (s : Span) (now : Nanos) : Bool := s.last < now

end Span

/-- What a focus declaration asks for. -/
inductive FocusOp where
  | update
  | delete
  deriving DecidableEq, Repr

def FocusOp.ofTag (tag : UInt8) : Except Fault FocusOp :=
  if tag = 0 then .ok .update
  else if tag = 1 then .ok .delete
  else .error (.focusTag tag)

structure Focus where
  pairs : Keyed PodPair Span := .empty
  refs : Keyed Ipv4 Nat := .empty
  deriving DecidableEq, Repr, Inhabited

namespace Focus

def retain (refs : Keyed Ipv4 Nat) (ip : Ipv4) : Keyed Ipv4 Nat :=
  refs.alter ip fun n => some (n.getD 0 + 1)

/-- One reference less. The last one takes the address along. -/
def release (refs : Keyed Ipv4 Nat) (ip : Ipv4) : Keyed Ipv4 Nat :=
  refs.alter ip fun n => n.bind fun n => if n ≤ 1 then none else some (n - 1)

def watch (f : Focus) (p : PodPair) (s : Span) : Focus :=
  { pairs := f.pairs.insert p s
    refs := if f.pairs.contains p then f.refs else p.members.foldl retain f.refs }

def unwatch (f : Focus) (p : PodPair) : Focus :=
  if f.pairs.contains p then
    { pairs := f.pairs.erase p, refs := p.members.foldl release f.refs }
  else f

/-- The pairs whose span is over at `now`. -/
def expired (f : Focus) (now : Nanos) : List PodPair :=
  (f.pairs.entries.filter fun e => e.2.isOver now).map Prod.fst

def expire (f : Focus) (now : Nanos) : Focus := (f.expired now).foldl unwatch f

/-- How many pairs hold `ip` in focus. -/
def count (f : Focus) (ip : Ipv4) : Nat := (f.refs.find? ip).getD 0

def holds (f : Focus) (ip : Ipv4) : Bool := f.refs.contains ip

end Focus

end FlowProbe
