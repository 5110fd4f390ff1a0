import FlowProbe.Event.Basic
import FlowProbe.Fault
import FlowProbe.Text.Blank
import FlowProbe.Text.Json.Fields
import FlowProbe.Text.Json.Reader

/-! Capture events as lines of JSON.

An event is an object with a `kind` and the fields of that kind, in any order; the fields of
a flow stand among the others. Kinds without a flow may also be written as an array of the
kind and the values of all fields in their order. `Event.json` is the object with every
field written out, and `Event.ofLine` reads a line of a capture: blank lines and comments
hold no event, and a line that is neither these nor an event is a fault. -/
namespace FlowProbe

namespace TcpFlag

def label : TcpFlag → String
  | .fin => "FIN"
  | .syn => "SYN"
  | .rst => "RST"
  | .psh => "PSH"
  | .ack => "ACK"

def options : List (String × TcpFlag) :=
  [TcpFlag.fin, .syn, .rst, .psh, .ack].map fun f => (f.label, f)

end TcpFlag

namespace CaptureHint

def label : CaptureHint → String
  | .unknown => "unknown"
  | .send => "send"
  | .receive => "receive"

def options : List (String × CaptureHint) :=
  [CaptureHint.unknown, .send, .receive].map fun h => (h.label, h)

end CaptureHint

namespace FocusOp

def label : FocusOp → String
  | .update => "update"
  | .delete => "delete"

def options : List (String × FocusOp) := [FocusOp.update, .delete].map fun o => (o.label, o)

end FocusOp

namespace Flow

def members (f : Flow) : Members :=
  [("saddr", .str f.source.dotted), ("daddr", .str f.dest.dotted),
    ("sport", .int f.sourcePort.toNat), ("dport", .int f.destPort.toNat),
    ("ifindex", .int f.iface.toNat)]

def ofMembers? (ms : Members) : Option Flow := do
  let source ← ms.required "saddr" Json.ipv4?
  let dest ← ms.required "daddr" Json.ipv4?
  let sourcePort ← ms.required "sport" Json.u16?
  let destPort ← ms.required "dport" Json.u16?
  let iface ← ms.required "ifindex" Json.u32?
  return { source, dest, sourcePort, destPort, iface }

end Flow

namespace SegmentEvent

def members (e : SegmentEvent) : Members :=
  ("timestamp", .int e.time.toNat) :: e.flow.members ++
    [("flags", .arr (e.flags.map fun f => .str f.label)), ("seq", .int e.seq.toNat),
      ("ack_seq", .int e.ack.toNat), ("direction", .str e.hint.label)]

def ofMembers? (ms : Members) : Option SegmentEvent := do
  let time ← ms.required "timestamp" Json.u64?
  let flow ← Flow.ofMembers? ms
  let flags ← ms.defaulted "flags" [] (Json.list? (Json.choice? TcpFlag.options))
  let seq ← ms.defaulted "seq" 0 Json.u32?
  let ack ← ms.defaulted "ack_seq" 0 Json.u32?
  let hint ← ms.defaulted "direction" .unknown (Json.choice? CaptureHint.options)
  return { time, flow, flags, seq, ack, hint }

end SegmentEvent

namespace ReportEvent

def members (e : ReportEvent) : Members :=
  ("timestamp", .int e.time.toNat) :: e.flow.members ++
    [("packet_counts", .int e.count.toNat), ("seq", .int e.seq.toNat),
      ("ack_seq", .int e.ack.toNat), ("direction", .str e.hint.label)]

def ofMembers? (ms : Members) : Option ReportEvent := do
  let time ← ms.required "timestamp" Json.u64?
  let flow ← Flow.ofMembers? ms
  let count ← ms.required "packet_counts" Json.u32?
  let seq ← ms.defaulted "seq" 0 Json.u32?
  let ack ← ms.defaulted "ack_seq" 0 Json.u32?
  let hint ← ms.defaulted "direction" .unknown (Json.choice? CaptureHint.options)
  return { time, flow, count, seq, ack, hint }

end ReportEvent

inductive EventKind where
  | segment
  | reported
  | focusPod
  | syscallEnter
  | syscallExit
  deriving DecidableEq, Repr

namespace EventKind

def label : EventKind → String
  | .segment => "segment"
  | .reported => "reported"
  | .focusPod => "focus_pod"
  | .syscallEnter => "syscall_enter"
  | .syscallExit => "syscall_exit"

def options : List (String × EventKind) :=
  [EventKind.segment, .reported, .focusPod, .syscallEnter, .syscallExit].map fun k =>
    (k.label, k)

/-- The fields of a kind in the order an array has them. Kinds with a flow have no such
order. -/
def order? : EventKind → Option (List String)
  | .segment => none
  | .reported => none
  | .focusPod => some ["src", "dst", "begin", "end", "op"]
  | .syscallEnter => some ["tid", "pid", "syscall_type", "timestamp"]
  | .syscallExit => some ["tid", "timestamp"]

end EventKind

namespace Event

def kind : Event → EventKind
  | .segment _ => .segment
  | .reported _ => .reported
  | .focusPod .. => .focusPod
  | .syscallEnter .. => .syscallEnter
  | .syscallExit .. => .syscallExit

/-- The fields of an event, its kind aside. -/
def members : Event → Members
  | .segment e => e.members
  | .reported e => e.members
  | .focusPod source dest span op =>
    [("src", .str source.dotted), ("dst", .str dest.dotted), ("begin", .int span.first.toNat),
      ("end", .int span.last.toNat), ("op", .str op.label)]
  | .syscallEnter tid pid kind time =>
    [("tid", .int tid.toNat), ("pid", .int pid.toNat), ("syscall_type", .int kind.toNat),
      ("timestamp", .int time.toNat)]
  | .syscallExit tid time => [("tid", .int tid.toNat), ("timestamp", .int time.toNat)]

def json (e : Event) : Json := .obj (("kind", .str e.kind.label) :: e.members)

/-- The event of a kind that these members describe. -/
def ofMembers? (ms : Members) : EventKind → Option Event
  | .segment => (SegmentEvent.ofMembers? ms).map .segment
  | .reported => (ReportEvent.ofMembers? ms).map .reported
  | .focusPod => do
    let source ← ms.required "src" Json.ipv4?
    let dest ← ms.required "dst" Json.ipv4?
    let first ← ms.required "begin" Json.u64?
    let last ← ms.required "end" Json.u64?
    let op ← ms.required "op" (Json.choice? FocusOp.options)
    return .focusPod source dest { first, last } op
  | .syscallEnter => do
    let tid ← ms.required "tid" Json.u32?
    let pid ← ms.required "pid" Json.u32?
    let kind ← ms.required "syscall_type" Json.u16?
    let time ← ms.required "timestamp" Json.u64?
    return .syscallEnter tid pid kind time
  | .syscallExit => do
    let tid ← ms.required "tid" Json.u32?
    let time ← ms.required "timestamp" Json.u64?
    return .syscallExit tid time

def kind? (j : Json) : Option EventKind := j.string?.bind fun name => EventKind.options.lookup name

def ofJson? : Json → Option Event
  | .obj ms => (Fields.required ms "kind" kind?).bind (ofMembers? ms)
  | .arr (tag :: values) => do
    let kind ← kind? tag
    let names ← kind.order?
    if names.length = values.length then ofMembers? (names.zip values) kind else none
  | _ => none

/-- The event on a line of a capture, the line's number naming it in a fault. -/
def ofLine (line : String) (number : Nat) : Except ReplayFault (Option Event) :=
  let text := Blank.trim line.toList
  match text with
  | [] => .ok none
  | '#' :: _ => .ok none
  | _ =>
    match (Json.ofText? text).bind ofJson? with
    | some e => .ok (some e)
    | none => .error (.line number)

end Event

end FlowProbe
