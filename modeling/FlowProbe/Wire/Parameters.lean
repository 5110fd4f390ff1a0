import FlowProbe.Fault
import FlowProbe.Flow
import FlowProbe.Wire.Words

/-! Segments as the named parameters of a traced event.

Addresses and ports are in network order, most significant byte first, as they were on the
wire; the other parameters have their least significant byte in front. The first parameter
of a name counts and the hint may be missing. `Segment.ofParameters` checks the parameters
one after the other, so the first one that is missing or has the wrong size is the one it
complains of. -/
namespace FlowProbe

abbrev Parameters := List (String × List UInt8)

namespace Parameters

def find? (ps : Parameters) (name : String) : Option (List UInt8) :=
  (List.find? (fun p => p.1 = name) ps).map Prod.snd

/-- The bytes of a parameter that must be there, `width` of them. -/
def bytes (ps : Parameters) (name : String) (width : Nat) : Except Fault (List UInt8) :=
  match ps.find? name with
  | none => .error (.missing name)
  | some b => if b.length = width then .ok b else .error (.size width b.length)

def lowFirst (ps : Parameters) (name : String) (width : Nat) : Except Fault Nat :=
  (ps.bytes name width).map Words.ofLowFirst

def highFirst (ps : Parameters) (name : String) (width : Nat) : Except Fault Nat :=
  (ps.bytes name width).map Words.ofHighFirst

/-- The hint, which is unknown if nothing is said. -/
def hint (ps : Parameters) : Except Fault UInt8 :=
  match ps.find? "packet_type" with
  | none => .ok CaptureHint.unknown.code
  | some _ => (ps.lowFirst "packet_type" 1).map UInt8.ofNat

end Parameters

namespace Segment

def ofParameters (ps : Parameters) : Except Fault Segment := do
  let source ← ps.highFirst "saddr" 4
  let dest ← ps.highFirst "daddr" 4
  let sourcePort ← ps.highFirst "sport" 2
  let destPort ← ps.highFirst "dport" 2
  let iface ← ps.lowFirst "ifindex" 4
  let hint ← ps.hint
  let time ← ps.lowFirst "timestamp" 8
  let seq ← ps.lowFirst "seq" 4
  let ack ← ps.lowFirst "ack_seq" 4
  let flags ← ps.lowFirst "flags" 1
  return {
    time := .ofNat time
    flow := {
      source := ⟨.ofNat source⟩
      dest := ⟨.ofNat dest⟩
      sourcePort := .ofNat sourcePort
      destPort := .ofNat destPort
      iface := .ofNat iface }
    seq := .ofNat seq
    ack := .ofNat ack
    flags := .ofNat flags
    hint }

/-- The parameters that a segment reads back from, its padding aside. -/
def parameters (s : Segment) : Parameters :=
  [("saddr", Words.highFirst 4 s.flow.source.word.toNat),
    ("daddr", Words.highFirst 4 s.flow.dest.word.toNat),
    ("sport", Words.highFirst 2 s.flow.sourcePort.toNat),
    ("dport", Words.highFirst 2 s.flow.destPort.toNat),
    ("ifindex", Words.lowFirst 4 s.flow.iface.toNat), ("flags", [s.flags]),
    ("seq", Words.lowFirst 4 s.seq.toNat), ("ack_seq", Words.lowFirst 4 s.ack.toNat),
    ("timestamp", Words.lowFirst 8 s.time.toNat), ("packet_type", [s.hint])]

end Segment

end FlowProbe
