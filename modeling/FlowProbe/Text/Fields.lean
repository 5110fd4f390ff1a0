/-! Named fields of a document.

A field is the one member of its name. Members that no field asks for are ignored, a name
that occurs twice is refused by the field that asks for it, and only a field with a default
may be missing. -/
namespace FlowProbe

/-- Values under their names, as a document lists them. -/
abbrev Fields (ν : Type) := List (String × ν)

namespace Fields

variable {ν α : Type}

def named (fs : Fields ν) (name : String) : List ν :=
  (fs.filter fun f => f.1 = name).map Prod.snd

/-- A field that must be there. -/
def required (fs : Fields ν) (name : String) (read : ν → Option α) : Option α :=
  match fs.named name with
  | [v] => read v
  | _ => none

/-- A field that has a default. -/
def defaulted (fs : Fields ν) (name : String) (default : α) (read : ν → Option α) : Option α :=
  match fs.named name with
  | [] => some default
  | [v] => read v
  | _ => none

end Fields

end FlowProbe
