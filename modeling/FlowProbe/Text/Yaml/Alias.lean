import FlowProbe.Text.Yaml.Fields

/-! How often reading a document follows its aliases.

With aliases a short document can stand for a very long one, so a reader may follow them only
a limited number of times for what is written: `Node.isBounded` says that a reader which looks
at the values of a `Shape` keeps to that. -/
namespace FlowProbe.Yaml

/-- Which values of a document a reader looks at. -/
inductive Shape where
  | scalar
  | list (item : Shape)
  | fields (members : List (String × Shape))
  deriving Repr

mutual

/-- How much is written: a collection counts where it starts and where it ends. -/
def extent : Yaml → Nat
  | .seq items => 2 + itemsExtent items
  | .map members => 2 + membersExtent members
  | _ => 1

def itemsExtent : List Yaml → Nat
  | [] => 0
  | y :: rest => extent y + itemsExtent rest

def membersExtent : List (Yaml × Yaml) → Nat
  | [] => 0
  | (key, value) :: rest => extent key + extent value + membersExtent rest

end

def isAlias : Yaml → Bool
  | .alias _ => true
  | _ => false

namespace Node

/-- How often an alias is followed to reach what a node stands for. -/
def steps (n : Node) : Nat := if n.tree.isAlias then 1 else 0

/-- The sum of what `count` gives for other trees of the document. -/
def total (n : Node) (count : Node → Nat) (trees : List Yaml) : Nat :=
  trees.foldl (fun sum y => sum + count (n.child y)) 0

/-- The values of members under a name. -/
def valuesUnder (n : Node) (name : String) (members : List (Yaml × Yaml)) : List Yaml :=
  (members.filter fun m => (n.child m.1).text? = some name).map Prod.snd

mutual

/-- How often aliases are followed in reading values of a shape. Every key of a mapping is read,
but only the values that have a shape. -/
def follows (n : Node) : Shape → Nat
  | .scalar => n.steps
  | .list item =>
    match n.target with
    | .seq items => n.steps + n.total (fun c => c.follows item) items
    | _ => n.steps
  | .fields shapes =>
    match n.target with
    | .map members =>
      n.steps + n.total steps (members.map Prod.fst) + n.followsFields members shapes
    | _ => n.steps

def followsFields (n : Node) (members : List (Yaml × Yaml)) : List (String × Shape) → Nat
  | [] => 0
  | (name, shape) :: rest =>
    n.total (fun c => c.follows shape) (n.valuesUnder name members) +
      n.followsFields members rest

end

/-- Whether aliases are followed at most a hundred times for everything that is written. -/
def isBounded (n : Node) (shape : Shape) : Bool := n.follows shape ≤ 100 * n.tree.extent

end Node

end FlowProbe.Yaml
