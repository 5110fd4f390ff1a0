/-! Text as UTF-8 bytes.

`decode` reads bytes one by one. Between characters it waits for a first byte, inside one it
knows how many bytes are owed and which range the next one must lie in, so no number is
written with more bytes than it needs and none is a surrogate. The fault names the first
place where the bytes stop being text: `bad` counts the bytes up to the one that cannot
follow, `cut` is an end inside a character. `lines` cuts bytes behind every line feed, and
`unended` is a line without what ends it. -/
namespace FlowProbe

/-- Where and how bytes stop being text. -/
inductive Utf8Fault where
  /-- `length` bytes at `index` begin no character. -/
  | bad (length index : Nat)
  /-- The bytes end inside the character that starts at `index`. -/
  | cut (index : Nat)
  deriving DecidableEq, Repr

def Utf8Fault.message : Utf8Fault → String
  | .bad length index =>
    "invalid utf-8 sequence of " ++ toString length ++ " bytes from index " ++ toString index
  | .cut index => "incomplete utf-8 byte sequence from index " ++ toString index

namespace Utf8

/-- A character that is not complete: the bits and bytes there are, how many bytes are owed,
and the range of the next one. -/
structure Partial where
  bits : Nat
  seen : Nat
  owed : Nat
  least : UInt8 := 0x80
  greatest : UInt8 := 0xBF
  deriving Repr

/-- What a first byte above the ASCII range opens. -/
def opening? (b : UInt8) : Option Partial :=
  if b < 0xC2 then none
  else if b < 0xE0 then some { bits := b.toNat - 0xC0, seen := 1, owed := 1 }
  else if b < 0xF0 then
    some
      { bits := b.toNat - 0xE0, seen := 1, owed := 2
        least := if b = 0xE0 then 0xA0 else 0x80
        greatest := if b = 0xED then 0x9F else 0xBF }
  else if b < 0xF5 then
    some
      { bits := b.toNat - 0xF0, seen := 1, owed := 3
        least := if b = 0xF0 then 0x90 else 0x80
        greatest := if b = 0xF4 then 0x8F else 0xBF }
  else none

/-- The characters from byte `index` on, `before` being the one that is under way. -/
def decodeFrom (index : Nat) (before : Option Partial) : List UInt8 → Except Utf8Fault (List Char)
  | [] =>
    match before with
    | none => .ok []
    | some p => .error (.cut (index - p.seen))
  | b :: rest =>
    match before with
    | none =>
      if b < 0x80 then (decodeFrom (index + 1) none rest).map (Char.ofNat b.toNat :: ·)
      else
        match opening? b with
        | none => .error (.bad 1 index)
        | some p => decodeFrom (index + 1) (some p) rest
    | some p =>
      if p.least ≤ b ∧ b ≤ p.greatest then
        let bits := p.bits * 64 + (b.toNat - 0x80)
        if p.owed = 1 then (decodeFrom (index + 1) none rest).map (Char.ofNat bits :: ·)
        else decodeFrom (index + 1) (some { bits, seen := p.seen + 1, owed := p.owed - 1 }) rest
      else .error (.bad p.seen (index - p.seen))

/-- The text that bytes stand for. -/
def decode (bytes : List UInt8) : Except Utf8Fault String :=
  (decodeFrom 0 none bytes).map String.ofList

/-- Bytes cut behind every line feed. -/
def lines : List UInt8 → List (List UInt8)
  | [] => []
  | b :: rest =>
    if b = 10 then [b] :: lines rest
    else
      match lines rest with
      | [] => [[b]]
      | line :: more => (b :: line) :: more

/-- A line without what ends it: a line feed, and a carriage return before that. -/
def unended : List UInt8 → List UInt8
  | [] => []
  | [10] => []
  | [13, 10] => []
  | b :: rest => b :: unended rest

end Utf8

end FlowProbe
