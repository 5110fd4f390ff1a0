import FlowProbe.Net.Ipv4
import FlowProbe.Text.Fields
import FlowProbe.Text.Json

/-! Reading typed values out of JSON.

A number must be an integer that fits, an address a string in dotted form, and a null is
never anything else. A choice among names is written as the name, or as an object whose
only member has that name and holds nothing. -/
namespace FlowProbe

abbrev Members := Fields Json

namespace Json

def string? : Json → Option String
  | .str s => some s
  | _ => none

/-- A natural number below `limit`. -/
def natBelow? (limit : Nat) : Json → Option Nat
  | .int (.ofNat n) => if n < limit then some n else none
  | _ => none

def u16? (j : Json) : Option UInt16 := (j.natBelow? UInt16.size).map UInt16.ofNat

def u32? (j : Json) : Option UInt32 := (j.natBelow? UInt32.size).map UInt32.ofNat

def u64? (j : Json) : Option UInt64 := (j.natBelow? UInt64.size).map UInt64.ofNat

def ipv4? (j : Json) : Option Ipv4 := j.string?.bind Ipv4.ofDotted?

def list? {α : Type} (read : Json → Option α) : Json → Option (List α)
  | .arr items => items.mapM read
  | _ => none

/-- The name that a choice is written with. -/
def choiceName? : Json → Option String
  | .str name => some name
  | .obj [(name, .null)] => some name
  | .obj [(name, .obj [])] => some name
  | _ => none

/-- One of `options`, each under its name. -/
def choice? {α : Type} (options : List (String × α)) (j : Json) : Option α :=
  j.choiceName?.bind fun name => options.lookup name

end Json

end FlowProbe
