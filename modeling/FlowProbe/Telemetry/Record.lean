import FlowProbe.Text.Json
import FlowProbe.Time.Nanos
import FlowProbe.Wire.Words

/-! Telemetry records: a name, a time and a short list of typed attributes.

A value knows its type tag and its bytes in the fixed event structure that carries it,
least significant byte first. As text a record is one line of compact JSON, where the
value stands untagged beside its type. -/
namespace FlowProbe

inductive Value where
  | u16 (v : UInt16)
  | u32 (v : UInt32)
  | u64 (v : UInt64)
  | i32 (v : Int32)
  | i64 (v : Int64)
  | bool (v : Bool)
  deriving DecidableEq, Repr

namespace Value

/-- The type tag. -/
def tag : Value → String
  | .u16 _ => "UINT16"
  | .u32 _ => "UINT32"
  | .u64 _ => "UINT64"
  | .i32 _ => "INT32"
  | .i64 _ => "INT64"
  | .bool _ => "BOOL"

/-- How many bytes the value takes. -/
def width : Value → Nat
  | .u16 _ => 2
  | .u32 _ => 4
  | .u64 _ => 8
  | .i32 _ => 4
  | .i64 _ => 8
  | .bool _ => 1

def toBytes : Value → List UInt8
  | .u16 v => Words.lowFirst 2 v.toNat
  | .u32 v => Words.lowFirst 4 v.toNat
  | .u64 v => Words.lowFirst 8 v.toNat
  | .i32 v => Words.lowFirst 4 v.toUInt32.toNat
  | .i64 v => Words.lowFirst 8 v.toUInt64.toNat
  | .bool v => Words.lowFirst 1 v.toNat

@[simp] theorem length_toBytes (v : Value) : v.toBytes.length = v.width := by
  cases v <;> simp [toBytes, width]

/-- The number of an unsigned value. -/
def unsigned? : Value → Option UInt64
  | .u16 v => some v.toUInt64
  | .u32 v => some v.toUInt64
  | .u64 v => some v
  | _ => none

/-- The number of a signed value. -/
def signed? : Value → Option Int64
  | .i32 v => some v.toInt64
  | .i64 v => some v
  | _ => none

def json : Value → Json
  | .u16 v => .int v.toNat
  | .u32 v => .int v.toNat
  | .u64 v => .int v.toNat
  | .i32 v => .int v.toInt
  | .i64 v => .int v.toInt
  | .bool v => .bool v

end Value

structure Attribute where
  key : String
  value : Value
  deriving DecidableEq, Repr

def Attribute.json (a : Attribute) : Json :=
  .obj [("key", .str a.key), ("type", .str a.value.tag), ("value", a.value.json)]

structure Record where
  name : String
  time : Nanos
  attributes : List Attribute := []
  deriving DecidableEq, Repr

namespace Record

/-- The most attributes that the event structure has room for. -/
def maxAttributes : Nat := 10

/-- Appends an attribute while there is room. -/
def set (r : Record) (key : String) (value : Value) : Record :=
  if r.attributes.length < maxAttributes then
    { r with attributes := r.attributes ++ [⟨key, value⟩] }
  else r

/-- The value of the first attribute with this key. -/
def get? (r : Record) (key : String) : Option Value :=
  (r.attributes.find? fun a => a.key = key).map Attribute.value

def json (r : Record) : Json :=
  .obj [("name", .str r.name), ("timestamp", .int r.time.toNat),
    ("attributes", .arr (r.attributes.map Attribute.json))]

/-- The line that stands for the record in an output stream. -/
def line (r : Record) : String := r.json.text

end Record

end FlowProbe
