import FlowProbe.Text.Yaml.Scalar

/-! Block scalars of YAML text.

Behind `|` every break stands for itself. Behind `>` a single break between two lines that
start with no blank is a blank, and of several such breaks the first is dropped. The lines
are indented alike: by as much as the header says beyond the block around them, or like the
first line that is not empty. The header also says which breaks at the end are kept. -/
namespace FlowProbe.Yaml

/-- Which breaks are kept behind the last line. -/
inductive Chomping where
  | strip
  | clip
  | keep
  deriving DecidableEq, Repr

/-! ### The header -/

/-- What stands behind `|` or `>`. -/
structure BlockHeader where
  chomping : Option Chomping := none
  /-- By how much the lines are indented, which is never zero. -/
  indent : Option Nat := none
  deriving DecidableEq, Repr

namespace BlockHeader

/-- The header with one more indicator, of which there is one of each kind at most. -/
def with? (h : BlockHeader) (c : Char) : Option BlockHeader :=
  match [('-', Chomping.strip), ('+', Chomping.keep)].lookup c with
  | some chomping => if h.chomping.isNone then some { h with chomping } else none
  | none =>
    if h.indent.isNone ∧ '1' ≤ c ∧ c ≤ '9' then
      some { h with indent := some (c.toNat - '0'.toNat) }
    else none

/-- The header with the indicators that come next, and the cursor behind them. -/
def readFrom (h : BlockHeader) (p : Place) : List Char → BlockHeader × Cursor
  | [] => (h, ⟨[], p⟩)
  | c :: rest =>
    match h.with? c with
    | some h => h.readFrom (p.past c) rest
    | none => (h, ⟨c :: rest, p⟩)

/-- Where the lines stand if the header says so, `least` being the first column to the right
of the block around the scalar. -/
def column? (h : BlockHeader) (least : Nat) : Option Nat :=
  h.indent.map fun n => if least = 0 then n else least - 1 + n

end BlockHeader

/-! ### Lines -/

/-- A line that is not empty, the break at its end, and those of the empty lines behind. -/
structure BlockLine where
  text : List Char
  ending : List Char
  empties : List Char
  deriving Repr

/-- Whether a line starts with a blank, so that no break beside it is folded. -/
def BlockLine.isSet (l : BlockLine) : Bool := l.text.head?.any isBlank

/-- The empty lines at a cursor. -/
structure Empties where
  breaks : List Char
  /-- The widest indentation of them and of the line behind. -/
  widest : Nat
  cursor : Cursor
  deriving Repr

/-- Skips empty lines and the indentation behind them, which is not wider than `column`. No tab
may indent. -/
def emptiesFrom (column : Option Nat) (widest : Nat) (p : Place) : List Char → Option Empties
  | [] => some ⟨[], max widest p.column, ⟨[], p⟩⟩
  | c :: rest =>
    let indents := column.all fun n => p.column < n
    if c = ' ' && indents then emptiesFrom column widest (p.past c) rest
    else if c = '\t' && indents then none
    else
      let widest := max widest p.column
      if isBreak c then
        (emptiesFrom column widest (p.past c) rest).map fun e => { e with breaks := c :: e.breaks }
      else some ⟨[], widest, ⟨c :: rest, p⟩⟩

def empties? (column : Option Nat) (c : Cursor) : Option Empties :=
  emptiesFrom column 0 c.place c.rest

/-- The lines that stand in `column`, and the cursor behind them. -/
def blockLines : (fuel : Nat) → (column : Nat) → Cursor → Option (List BlockLine × Cursor)
  | 0, _, _ => none
  | fuel + 1, column, c =>
    if c.rest.isEmpty ∨ c.place.column ≠ column then some ([], c)
    else
      let (text, behind) := c.span fun d => !isBreak d
      match empties? (some column) (behind.past 1) with
      | none => none
      | some e =>
        (blockLines fuel column e.cursor).map fun (lines, c) =>
          (⟨text, behind.rest.take 1, e.breaks⟩ :: lines, c)

/-- What the breaks between two lines stand for. -/
def between (folded : Bool) (a b : BlockLine) : List Char :=
  if folded ∧ a.ending = ['\n'] ∧ !a.isSet ∧ !b.isSet then
    if a.empties.isEmpty then [' '] else a.empties
  else a.ending ++ a.empties

/-- What lines stand for, `before` being the breaks of the empty ones before them. -/
def blockText (folded : Bool) (chomping : Chomping) (before : List Char) :
    List BlockLine → List Char
  | [] => if chomping = .keep then before else []
  | [a] =>
    before ++ a.text ++
      match chomping with
      | .strip => []
      | .clip => a.ending
      | .keep => a.ending ++ a.empties
  | a :: b :: rest =>
    before ++ a.text ++ blockText folded chomping (between folded a b) (b :: rest)

/-- The scalar behind `|` or `>`, which is folded behind `>`. -/
def block? (folded : Bool) (least : Nat) (c : Cursor) : Option Reading :=
  let (header, c) := BlockHeader.readFrom {} c.place c.rest
  match c.lineEnd? with
  | none => none
  | some c =>
    match empties? (header.column? least) c with
    | none => none
    | some e =>
      let column := (header.column? least).getD (max 1 (max least e.widest))
      (blockLines (c.rest.length + 1) column e.cursor).map fun (lines, c) =>
        { text := blockText folded (header.chomping.getD .clip) e.breaks lines
          cursor := c
          crossed := true }

end FlowProbe.Yaml
