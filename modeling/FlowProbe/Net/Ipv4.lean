import FlowProbe.Text.Numeral

/-! IPv4 addresses and their dotted form.

An address is a word of 32 bits in host order. `ofDotted?` is strict: four octets between
0 and 255 in their one canonical spelling, three points between them and nothing else. -/
namespace FlowProbe

structure Ipv4 where
  word : UInt32
  deriving DecidableEq, Repr, Inhabited

namespace Ipv4

def ofOctets (a b c d : UInt8) : Ipv4 :=
  ⟨a.toUInt32 <<< 24 ||| b.toUInt32 <<< 16 ||| c.toUInt32 <<< 8 ||| d.toUInt32⟩

/-- The four octets in the order they are written and sent. -/
def octets (ip : Ipv4) : List UInt8 :=
  [(ip.word >>> 24).toUInt8, (ip.word >>> 16).toUInt8, (ip.word >>> 8).toUInt8, ip.word.toUInt8]

def dotted (ip : Ipv4) : String :=
  String.ofList (['.'].intercalate (ip.octets.map fun o => Numeral.render o.toNat))

def octet? (cs : List Char) : Option UInt8 :=
  match Numeral.canonical? cs with
  | some n => if n < 256 then some (UInt8.ofNat n) else none
  | none => none

def ofDotted? (text : String) : Option Ipv4 :=
  match text.toList.splitOn '.' with
  | [a, b, c, d] => do pure (ofOctets (← octet? a) (← octet? b) (← octet? c) (← octet? d))
  | _ => none

end Ipv4

end FlowProbe
