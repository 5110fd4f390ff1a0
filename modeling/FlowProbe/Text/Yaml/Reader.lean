import FlowProbe.Keyed
import FlowProbe.Text.Yaml.Token.Lexer

/-! Reading YAML trees out of tokens.

`Yaml.ofText?` reads a text that holds one document. An anchor gets as its number how many
names there were before it, so naming another node again gives a number that the next new name
gets too; of the nodes with one number the latest in the text counts. An alias needs a name
that occurred before it. -/
namespace FlowProbe.Yaml

/-- What reading goes on with. -/
structure Reader where
  tokens : List Token
  /-- What the handles of tags stand for, the first of a name counting. -/
  handles : List (List Char × List Char) := []
  /-- The numbers of the anchors so far. -/
  names : Keyed String Nat := {}
  /-- The nodes with anchors, the latest first. -/
  anchors : List (Nat × Yaml) := []

/-- Where a node stands. -/
inductive Position where
  | flow
  | block
  /-- In a member of a block, where the items of a list need not be indented. -/
  | member
  deriving DecidableEq, Repr

/-- What stands in front of the content of a node. -/
structure Properties where
  anchor : Option String := none
  tag : Option Tag := none
  deriving Repr

def Properties.isEmpty (p : Properties) : Bool := p.anchor.isNone && p.tag.isNone

/-- The properties at the head of tokens, of either kind one at most. -/
def Properties.ofTokens : List Token → Properties × List Token
  | .anchor name :: .tag t :: rest => (⟨some name, some t⟩, rest)
  | .tag t :: .anchor name :: rest => (⟨some name, some t⟩, rest)
  | .anchor name :: rest => (⟨some name, none⟩, rest)
  | .tag t :: rest => (⟨none, some t⟩, rest)
  | rest => ({}, rest)

namespace Reader

/-- Moves to later tokens. -/
def goto (r : Reader) (tokens : List Token) : Reader := { r with tokens }

/-- The tag in full, unless its handle stands for nothing. -/
def resolve? (r : Reader) : Option Tag → Option (Option String)
  | none => some none
  | some t =>
    if t.handle.isEmpty then some (some (String.ofList t.suffix))
    else (r.handles.lookup t.handle).map fun start => some (String.ofList (start ++ t.suffix))

/-- Gives the name of an anchor a number. -/
def enroll (r : Reader) (name : String) : Nat × Reader :=
  (r.names.size, { r with names := r.names.insert name r.names.size })

/-- Whether one of these tokens comes next. -/
def isAt (r : Reader) (stops : List Token) : Bool := r.tokens.head?.any stops.contains

end Reader

/-! ### Nodes -/

mutual

/-- A node, with its anchor and its tag. -/
def node? : (fuel : Nat) → Position → Reader → Option (Yaml × Reader)
  | 0, _, _ => none
  | fuel + 1, pos, r =>
    match r.tokens with
    | .alias name :: rest => (r.names.find? name).map fun number => (.alias number, r.goto rest)
    | _ =>
      let (properties, rest) := Properties.ofTokens r.tokens
      match r.resolve? properties.tag with
      | none => none
      | some tag =>
        match properties.anchor with
        | none => content? fuel pos properties.isEmpty tag (r.goto rest)
        | some name =>
          let (number, named) := (r.goto rest).enroll name
          (content? fuel pos false tag { named with anchors := [] }).map fun (y, last) =>
            (y, { last with anchors := last.anchors ++ (number, y) :: r.anchors })

/-- The content of a node. Behind properties it may be missing. -/
def content? : (fuel : Nat) → Position → (bare : Bool) → (tag : Option String) → Reader →
    Option (Yaml × Reader)
  | 0, _, _, _, _ => none
  | fuel + 1, pos, bare, tag, r =>
    let missing := if bare then none else some (.scalar "" .plain tag, r)
    match r.tokens with
    | .scalar text style :: rest => some (.scalar text style tag, r.goto rest)
    | .openBracket :: rest => (flowItems? fuel (r.goto rest)).map fun (ys, r) => (.seq ys, r)
    | .openBrace :: rest => (flowMembers? fuel (r.goto rest)).map fun (ms, r) => (.map ms, r)
    | .dash :: _ =>
      if pos = .member then (looseItems? fuel r).map fun (ys, r) => (.seq ys, r) else missing
    | .items :: rest =>
      if pos = .flow then missing
      else (items? fuel (r.goto rest)).map fun (ys, r) => (.seq ys, r)
    | .members :: rest =>
      if pos = .flow then missing
      else (members? fuel (r.goto rest)).map fun (ms, r) => (.map ms, r)
    | _ => missing

/-- A node, or nothing where a token comes that can only stand behind one. -/
def entry? : (fuel : Nat) → Position → (stops : List Token) → Reader → Option (Yaml × Reader)
  | 0, _, _, _ => none
  | fuel + 1, pos, stops, r => if r.isAt stops then some (nothing, r) else node? fuel pos r

/-- Items up to the end of their block. -/
def items? : (fuel : Nat) → Reader → Option (List Yaml × Reader)
  | 0, _ => none
  | fuel + 1, r =>
    match r.tokens with
    | .dash :: rest =>
      match entry? fuel .block [.dash, .blockEnd] (r.goto rest) with
      | none => none
      | some (y, r) => (items? fuel r).map fun (ys, r) => (y :: ys, r)
    | .blockEnd :: rest => some ([], r.goto rest)
    | _ => none

/-- Items that have no block of their own. -/
def looseItems? : (fuel : Nat) → Reader → Option (List Yaml × Reader)
  | 0, _ => none
  | fuel + 1, r =>
    match r.tokens with
    | .dash :: rest =>
      match entry? fuel .block [.dash, .key, .value, .blockEnd] (r.goto rest) with
      | none => none
      | some (y, r) => (looseItems? fuel r).map fun (ys, r) => (y :: ys, r)
    | _ => some ([], r)

/-- Members up to the end of their block. -/
def members? : (fuel : Nat) → Reader → Option (List (Yaml × Yaml) × Reader)
  | 0, _ => none
  | fuel + 1, r =>
    match r.tokens with
    | .key :: rest =>
      match entry? fuel .member [.key, .value, .blockEnd] (r.goto rest) with
      | none => none
      | some (key, r) =>
        match valueOf? fuel .member [.key, .value, .blockEnd] r with
        | none => none
        | some (value, r) => (members? fuel r).map fun (ms, r) => ((key, value) :: ms, r)
    | .blockEnd :: rest => some ([], r.goto rest)
    | _ => none

/-- What a key belongs to, which is nothing without a colon. -/
def valueOf? : (fuel : Nat) → Position → (stops : List Token) → Reader → Option (Yaml × Reader)
  | 0, _, _, _ => none
  | fuel + 1, pos, stops, r =>
    match r.tokens with
    | .value :: rest => entry? fuel pos stops (r.goto rest)
    | _ => some (nothing, r)

/-- An item between brackets. A pair is a mapping of its own, and the token behind a question
mark that no key follows is passed over. -/
def flowItem? : (fuel : Nat) → Reader → Option (Yaml × Reader)
  | 0, _ => none
  | fuel + 1, r =>
    match r.tokens with
    | .key :: rest =>
      let r := r.goto rest
      let key :=
        if r.isAt [.value, .comma, .closeBracket] then some (nothing, r.goto rest.tail)
        else node? fuel .flow r
      match key with
      | none => none
      | some (key, r) =>
        (valueOf? fuel .flow [.comma, .closeBracket] r).map fun (value, r) =>
          (.map [(key, value)], r)
    | _ => node? fuel .flow r

/-- Items up to the closing bracket. -/
def flowItems? : (fuel : Nat) → Reader → Option (List Yaml × Reader)
  | 0, _ => none
  | fuel + 1, r =>
    match r.tokens with
    | .closeBracket :: rest => some ([], r.goto rest)
    | _ =>
      match flowItem? fuel r with
      | none => none
      | some (y, r) =>
        match r.tokens with
        | .comma :: rest => (flowItems? fuel (r.goto rest)).map fun (ys, r) => (y :: ys, r)
        | .closeBracket :: rest => some ([y], r.goto rest)
        | _ => none

/-- A member between braces. Without a colon behind it a key belongs to nothing. -/
def flowMember? : (fuel : Nat) → Reader → Option ((Yaml × Yaml) × Reader)
  | 0, _ => none
  | fuel + 1, r =>
    match r.tokens with
    | .key :: rest =>
      match entry? fuel .flow [.value, .comma, .closeBrace] (r.goto rest) with
      | none => none
      | some (key, r) =>
        (valueOf? fuel .flow [.comma, .closeBrace] r).map fun (value, r) => ((key, value), r)
    | _ => (node? fuel .flow r).map fun (key, r) => ((key, nothing), r)

/-- Members up to the closing brace. -/
def flowMembers? : (fuel : Nat) → Reader → Option (List (Yaml × Yaml) × Reader)
  | 0, _ => none
  | fuel + 1, r =>
    match r.tokens with
    | .closeBrace :: rest => some ([], r.goto rest)
    | _ =>
      match flowMember? fuel r with
      | none => none
      | some (m, r) =>
        match r.tokens with
        | .comma :: rest => (flowMembers? fuel (r.goto rest)).map fun (ms, r) => (m :: ms, r)
        | .closeBrace :: rest => some ([m], r.goto rest)
        | _ => none

end

/-! ### Documents -/

/-- What directives say. -/
structure Preamble where
  version : Option (Nat × Nat) := none
  handles : List (List Char × List Char) := []
  deriving Repr

namespace Preamble

/-- One more directive. A version and a handle are given once at most. -/
def with? (p : Preamble) : Directive → Option Preamble
  | .version major minor =>
    if p.version.isNone ∧ major = 1 ∧ (minor = 1 ∨ minor = 2) then
      some { p with version := some (major, minor) }
    else none
  | .handle name start =>
    if (p.handles.lookup name).isNone then some { p with handles := (name, start) :: p.handles }
    else none

/-- The directives at the head of tokens. -/
def read? (p : Preamble) : List Token → Option (Preamble × List Token)
  | .directive d :: rest => (p.with? d).bind fun p => p.read? rest
  | rest => some (p, rest)

/-- What handles stand for where no directive says otherwise. -/
def defaultHandles : List (List Char × List Char) :=
  [(['!'], ['!']), (['!', '!'], "tag:yaml.org,2002:".toList)]

/-- A reader in front of these tokens. -/
def reader (p : Preamble) (tokens : List Token) : Reader :=
  { tokens, handles := p.handles ++ defaultHandles }

end Preamble

/-- Whether a token stands between documents. -/
def Token.isBound : Token → Bool
  | .directive _ => true
  | .documentStart => true
  | .documentEnd => true
  | _ => false

/-- Enough fuel for tokens: no step calls more than three others before it moves on. -/
def fuelFor (tokens : List Token) : Nat := 4 * tokens.length + 8

/-- The root of a document that is opened by a mark, which may hold nothing. -/
def opened? (r : Reader) : Option (Yaml × Reader) :=
  if r.tokens.head?.all Token.isBound then some (nothing, r)
  else node? (fuelFor r.tokens) .block r

/-- The root of the first document. Behind directives a mark must open it. -/
def root? (tokens : List Token) : Option (Yaml × Reader) :=
  match Preamble.read? {} tokens with
  | none => none
  | some (p, .documentStart :: rest) => opened? (p.reader rest)
  | some (p, _) =>
    if tokens.head?.any Token.isBound then none
    else node? (fuelFor tokens) .block (p.reader tokens)

/-- The document that tokens hold, if only marks of its end follow it. -/
def Node.ofTokens? (tokens : List Token) : Option Node :=
  match root? tokens with
  | some (tree, r) =>
    if r.tokens.all fun t => t = .documentEnd then some { tree, anchors := r.anchors } else none
  | none => none

/-- The one document that a text holds. -/
def ofText? (text : List Char) : Option Node := (Token.ofText? text).bind Node.ofTokens?

end FlowProbe.Yaml
