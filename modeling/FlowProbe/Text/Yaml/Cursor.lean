/-! Places in a YAML text, and what may be skipped between tokens.

A place counts the bytes before it, the lines before it, and the characters before it on its
line: the length of a key is limited in bytes, a block is indented by characters. -/
namespace FlowProbe.Yaml

def isBreak (c : Char) : Bool := c = '\n' || c = '\u2028' || c = '\u2029'

def isBlank (c : Char) : Bool := c = ' ' || c = '\t'

/-- Whether a blank, a break or nothing comes next. -/
def atBlank : List Char → Bool
  | [] => true
  | c :: _ => isBlank c || isBreak c

/-- Whether a break or nothing comes next. -/
def atLineEnd : List Char → Bool
  | [] => true
  | c :: _ => isBreak c

/-- Whether a mark of three such characters comes next. -/
def isMark (mark : Char) : List Char → Bool
  | a :: b :: c :: rest => a = mark && b = mark && c = mark && atBlank rest
  | _ => false

/-- How much of a text lies before a place. -/
structure Place where
  bytes : Nat := 0
  line : Nat := 0
  column : Nat := 0
  deriving DecidableEq, Repr

/-- The place behind a character. -/
def Place.past (p : Place) (c : Char) : Place :=
  if isBreak c then { bytes := p.bytes + c.utf8Size, line := p.line + 1 }
  else { p with bytes := p.bytes + c.utf8Size, column := p.column + 1 }

/-- Whether a document starts or ends at a place: only the margin holds such marks. -/
def Place.isBound (p : Place) (rest : List Char) : Bool :=
  p.column = 0 && (isMark '-' rest || isMark '.' rest)

/-- The rest of a text from a place on. -/
structure Cursor where
  rest : List Char
  place : Place := {}
  deriving Repr

namespace Cursor

/-- The cursor behind `n` characters. -/
def past (c : Cursor) (n : Nat) : Cursor :=
  ⟨c.rest.drop n, (c.rest.take n).foldl Place.past c.place⟩

/-- The characters up to the first that `p` does not hold of, and the cursor there. -/
def span (p : Char → Bool) (c : Cursor) : List Char × Cursor :=
  let taken := c.rest.takeWhile p
  (taken, ⟨c.rest.dropWhile p, taken.foldl Place.past c.place⟩)

/-- The cursor behind characters that `p` holds of. -/
def skip (p : Char → Bool) (c : Cursor) : Cursor := (c.span p).2

/-- The cursor behind a line on which only blanks and a comment are left. -/
def lineEnd? (c : Cursor) : Option Cursor :=
  let c := c.skip isBlank
  let c := if c.rest.head? = some '#' then c.skip fun d => !isBreak d else c
  if atLineEnd c.rest then some (c.past 1) else none

/-- Skips what stands between tokens, and says whether a block may open behind it. Outside
brackets a block may open on a new line, and where one may open a tab is no indentation. A
line may start with a byte order mark. -/
def toTokenFrom (flow comment fresh : Bool) (p : Place) : List Char → Cursor × Bool
  | [] => (⟨[], p⟩, fresh)
  | c :: rest =>
    if isBreak c then toTokenFrom flow false (fresh || !flow) (p.past c) rest
    else if comment || c = '#' then toTokenFrom flow true fresh (p.past c) rest
    else if c = ' ' || (c = '\t' && (flow || !fresh)) || (c = '\ufeff' && p.column = 0) then
      toTokenFrom flow false fresh (p.past c) rest
    else (⟨c :: rest, p⟩, fresh)

def toToken (flow fresh : Bool) (c : Cursor) : Cursor × Bool :=
  toTokenFrom flow false fresh c.place c.rest

end Cursor

end FlowProbe.Yaml
