/-! YAML documents as trees.

A scalar keeps the way it was written and its tag: only a plain scalar can be a null, and an
empty plain scalar is what stands where nothing is written. An alias keeps the number of an
anchor, and a `Node` is a tree together with what the anchors of its document mark. -/
namespace FlowProbe

/-- How a scalar is written: bare, between quotes, or as a block behind `|` or `>`. -/
inductive Yaml.Style where
  | plain
  | quoted
  | literal
  | folded
  deriving DecidableEq, Repr

inductive Yaml where
  | scalar (text : String) (style : Yaml.Style) (tag : Option String)
  | seq (items : List Yaml)
  | map (members : List (Yaml × Yaml))
  | alias (anchor : Nat)
  deriving Repr, Inhabited

namespace Yaml

/-- What stands where nothing is written. -/
def nothing : Yaml := .scalar "" .plain none

/-- A tree in its document, of whose anchors the latest in the text comes first. -/
structure Node where
  tree : Yaml
  anchors : List (Nat × Yaml) := []
  deriving Repr

namespace Node

/-- Another tree of the same document. -/
def child (n : Node) (tree : Yaml) : Node := { n with tree }

/-- What an alias stands for. Only scalars and collections carry anchors, so one step is
enough. -/
def target (n : Node) : Yaml :=
  match n.tree with
  | .alias anchor => (n.anchors.lookup anchor).getD n.tree
  | tree => tree

end Node

end Yaml

end FlowProbe
