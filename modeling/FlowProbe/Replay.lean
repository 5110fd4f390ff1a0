import FlowProbe.Event.Line
import FlowProbe.Session

/-! Replaying a stream of lines.

Every line is read and applied before the next one is looked at, so the records of the events
before a bad line stand, and neither a later line nor the end of the session adds to them.
Lines are numbered from one, those without an event included. -/
namespace FlowProbe

/-- A line of a stream, or why it cannot be had. -/
abbrev StreamLine := Except ReadFault String

namespace StreamLine

/-- What ends a line is not part of its text. -/
def ofBytes (bytes : List UInt8) : StreamLine :=
  match Utf8.decode (Utf8.unended bytes) with
  | .ok text => .ok text
  | .error cause => .error (.line cause)

/-- The event on a line, if it holds one. -/
def event (line : StreamLine) (number : Nat) : Except ReplayFault (Option Event) :=
  match line with
  | .ok text => Event.ofLine text number
  | .error cause => .error (.read cause)

end StreamLine

/-- What a replay wrote, and the session at its end. -/
structure Replay where
  records : List Record
  ending : Except ReplayFault Session

namespace Replay

/-- The same replay behind records that were written before. -/
def after (r : Replay) (written : List Record) : Replay :=
  { r with records := written ++ r.records }

end Replay

namespace Session

/-- Replays lines of which the first has this number, and finishes. -/
def replayFrom (s : Session) (number : Nat) : List StreamLine → Replay
  | [] =>
    let (last, written) := s.finish
    ⟨written, .ok last⟩
  | line :: lines =>
    match line.event number with
    | .error fault => ⟨[], .error fault⟩
    | .ok none => s.replayFrom (number + 1) lines
    | .ok (some e) =>
      let (next, written) := s.apply e
      (next.replayFrom (number + 1) lines).after written

def replay (s : Session) (lines : List StreamLine) : Replay := s.replayFrom 1 lines

/-- Takes in a ring and finishes. -/
def replayRing (s : Session) (r : Ring Segment) : Replay :=
  let (next, written) := s.applyRing r
  let (last, rest) := next.finish
  ⟨written ++ rest, .ok last⟩

end Session

end FlowProbe
