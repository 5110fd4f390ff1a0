import FlowProbe.Fault
import FlowProbe.Flow
import FlowProbe.Wire.Words

/-! Segments and socket reports as the capture side writes them.

Both take 40 bytes: time, addresses, ports, interface, sequence numbers, then what tells
them apart and padding up to the next multiple of eight. Every field has its least
significant byte in front. `bytes` writes an image with its padding and `ofBytes` reads
one, refusing every other size. -/
namespace FlowProbe

namespace Words

/-- The number in `width` bytes at `offset`. -/
def slice (bytes : List UInt8) (offset width : Nat) : Nat :=
  ofLowFirst ((bytes.drop offset).take width)

/-- `n` bytes at `offset`, zero where there are none. -/
def padding (n : Nat) (bytes : List UInt8) (offset : Nat) : Vector UInt8 n :=
  .ofFn fun i => bytes.getD (offset + i) 0

end Words

namespace Flow

def bytes (f : Flow) : List UInt8 :=
  Words.lowFirst 4 f.source.word.toNat ++ Words.lowFirst 4 f.dest.word.toNat ++
    Words.lowFirst 2 f.sourcePort.toNat ++ Words.lowFirst 2 f.destPort.toNat ++
    Words.lowFirst 4 f.iface.toNat

/-- The flow whose image starts at `offset`. -/
def ofImage (bytes : List UInt8) (offset : Nat) : Flow :=
  { source := ⟨.ofNat (Words.slice bytes offset 4)⟩
    dest := ⟨.ofNat (Words.slice bytes (offset + 4) 4)⟩
    sourcePort := .ofNat (Words.slice bytes (offset + 8) 2)
    destPort := .ofNat (Words.slice bytes (offset + 10) 2)
    iface := .ofNat (Words.slice bytes (offset + 12) 4) }

end Flow

namespace Segment

/-- The size of an image. -/
def imageSize : Nat := 40

def bytes (s : Segment) : List UInt8 :=
  Words.lowFirst 8 s.time.toNat ++ s.flow.bytes ++ Words.lowFirst 4 s.seq.toNat ++
    Words.lowFirst 4 s.ack.toNat ++ [s.flags, s.hint] ++ s.padding.toList

/-- The segment whose image `bytes` starts with. -/
def ofImage (bytes : List UInt8) : Segment :=
  { time := .ofNat (Words.slice bytes 0 8)
    flow := .ofImage bytes 8
    seq := .ofNat (Words.slice bytes 24 4)
    ack := .ofNat (Words.slice bytes 28 4)
    flags := .ofNat (Words.slice bytes 32 1)
    hint := .ofNat (Words.slice bytes 33 1)
    padding := Words.padding 6 bytes 34 }

def ofBytes (bytes : List UInt8) : Except Fault Segment :=
  if bytes.length = imageSize then .ok (ofImage bytes) else .error (.size imageSize bytes.length)

end Segment

namespace SocketReport

/-- The size of an image. -/
def imageSize : Nat := 40

def bytes (r : SocketReport) : List UInt8 :=
  Words.lowFirst 8 r.time.toNat ++ r.flow.bytes ++ Words.lowFirst 4 r.seq.toNat ++
    Words.lowFirst 4 r.ack.toNat ++ Words.lowFirst 4 r.count.toNat ++ [r.hint] ++
    r.padding.toList

/-- The report whose image `bytes` starts with. -/
def ofImage (bytes : List UInt8) : SocketReport :=
  { time := .ofNat (Words.slice bytes 0 8)
    flow := .ofImage bytes 8
    seq := .ofNat (Words.slice bytes 24 4)
    ack := .ofNat (Words.slice bytes 28 4)
    count := .ofNat (Words.slice bytes 32 4)
    hint := .ofNat (Words.slice bytes 36 1)
    padding := Words.padding 3 bytes 37 }

def ofBytes (bytes : List UInt8) : Except Fault SocketReport :=
  if bytes.length = imageSize then .ok (ofImage bytes) else .error (.size imageSize bytes.length)

end SocketReport

end FlowProbe
