import FlowProbe.Net.Ipv4
import FlowProbe.Text.Fields
import FlowProbe.Text.Numeral
import FlowProbe.Text.Yaml

/-! Reading typed values out of YAML.

A number is a plain scalar, or a literal block that is tagged as one: decimal digits without a
leading zero, or digits of another base behind `0x`, `0o` or `0b`, with an optional plus sign.
A string may be any scalar. Where nothing is written stands an empty list, an empty mapping or
an absent option, as the field asks. An alias is read as what it stands for. -/
namespace FlowProbe.Yaml

/-- The tag of integers. -/
def intTag : String := "tag:yaml.org,2002:int"

/-- The tag of absent values. -/
def nullTag : String := "tag:yaml.org,2002:null"

/-- The unsigned number that digits stand for. -/
def numeral? (cs : List Char) : Option Nat :=
  let digits := match cs with
    | '+' :: rest => rest
    | _ => cs
  match digits with
  | '0' :: 'x' :: rest => Numeral.valueIn? 16 rest
  | '0' :: 'o' :: rest => Numeral.valueIn? 8 rest
  | '0' :: 'b' :: rest => Numeral.valueIn? 2 rest
  | _ => Numeral.canonical? digits

/-- Whether a scalar of this style and tag may be a number. -/
def mayBeNumber (style : Style) (tag : Option String) : Bool :=
  style = .plain || (style = .literal && tag = some intTag)

namespace Node

/-- The text of a scalar. -/
def text? (n : Node) : Option String :=
  match n.target with
  | .scalar text _ _ => some text
  | _ => none

/-- A number below `limit`. -/
def natBelow? (limit : Nat) (n : Node) : Option Nat :=
  match n.target with
  | .scalar text style tag =>
    if mayBeNumber style tag then
      match numeral? text.toList with
      | some v => if v < limit then some v else none
      | none => none
    else none
  | _ => none

def u32? (n : Node) : Option UInt32 := (n.natBelow? UInt32.size).map UInt32.ofNat

def u64? (n : Node) : Option UInt64 := (n.natBelow? UInt64.size).map UInt64.ofNat

def ipv4? (n : Node) : Option Ipv4 := n.text?.bind Ipv4.ofDotted?

def list? {α : Type} (read : Node → Option α) (n : Node) : Option (List α) :=
  match n.target with
  | .seq items => items.mapM fun item => read (n.child item)
  | .scalar "" .plain _ => some []
  | _ => none

/-- The members of a mapping whose keys are scalars. -/
def fields? (n : Node) : Option (Fields Node) :=
  match n.target with
  | .map members =>
    members.mapM fun (key, value) => (n.child key).text?.map fun name => (name, n.child value)
  | .scalar "" .plain _ => some []
  | _ => none

/-- Whether a value is absent, which the tag of absent values only allows for some spellings. -/
def isAbsent? (n : Node) : Option Bool :=
  match n.target with
  | .scalar text .plain tag =>
    let spelled := ["~", "null", "Null", "NULL"].contains text
    if tag = none then some (spelled || text = "")
    else if tag = some nullTag then if spelled then some true else none
    else some false
  | _ => some false

/-- A value that may be absent. -/
def option? {α : Type} (read : Node → Option α) (n : Node) : Option (Option α) :=
  match n.isAbsent? with
  | none => none
  | some true => some none
  | some false => (read n).map some

end Node

end FlowProbe.Yaml
