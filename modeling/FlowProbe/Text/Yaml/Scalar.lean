import FlowProbe.Text.Numeral
import FlowProbe.Text.Yaml.Cursor

/-! Plain and quoted scalars of YAML text.

A scalar may go on over several lines: blanks around a line break are dropped, one break is
folded to a blank and of several the first is dropped. A plain scalar ends before a comment,
before a colon that a blank follows, before a line that is not indented enough, before a
bound of the document and, inside brackets, before their punctuation. Single quotes are
doubled inside single quotes; inside double quotes a backslash introduces an escape. -/
namespace FlowProbe.Yaml

/-- The text of a scalar, the cursor behind it, and whether it ended on a later line than that
of its last word. -/
structure Reading where
  text : List Char
  cursor : Cursor
  crossed : Bool := false
  deriving Repr

/-- The same reading with `before` in front of its text. -/
def Reading.prepend (before : List Char) (r : Reading) : Reading :=
  { r with text := before ++ r.text }

/-! ### Blanks and breaks inside a scalar -/

/-- What lies between two words of a scalar. -/
structure Gap where
  /-- Blanks before the first break. -/
  blanks : List Char := []
  /-- The first break, which is empty if it was escaped. -/
  first : Option (List Char) := none
  more : List Char := []

namespace Gap

def crossed (g : Gap) : Bool := g.first.isSome

def isEmpty (g : Gap) : Bool := g.blanks.isEmpty && !g.crossed

def blank (g : Gap) (c : Char) : Gap :=
  if g.crossed then g else { g with blanks := g.blanks ++ [c] }

def cross (g : Gap) (c : Char) : Gap :=
  if g.crossed then { g with more := g.more ++ [c] } else { first := some [c] }

/-- What a gap stands for. -/
def text (g : Gap) : List Char :=
  match g.first with
  | none => g.blanks
  | some ['\n'] => if g.more.isEmpty then [' '] else g.more
  | some first => first ++ g.more

end Gap

/-! ### Plain scalars -/

/-- Whether a plain scalar may start with the next character. -/
def startsPlain (flow : Bool) : List Char → Bool
  | [] => false
  | c :: rest =>
    if c = '-' then !atBlank rest
    else if c = '?' || c = ':' then !flow && !atBlank rest
    else
      !isBlank c && !isBreak c &&
        !(",[]\x7b\x7d#&*!|>'\"%@\x60".toList.contains c)

/-- Punctuation inside brackets. -/
def isFlowMark (c : Char) : Bool := ",[]\x7b\x7d".toList.contains c

/-- Whether a plain scalar ends before `c`. -/
def plainEnds (flow : Bool) (least : Nat) (gap : Gap) (p : Place) (c : Char)
    (rest : List Char) : Bool :=
  (c = '#' && !gap.isEmpty) || (!flow && gap.crossed && p.column < least) ||
    p.isBound (c :: rest) || (c = ':' && atBlank rest) || (flow && isFlowMark c)

/-- A colon that is pressed against punctuation is no part of a plain scalar. -/
def isPressed (c : Char) : List Char → Bool
  | [] => false
  | d :: _ => c = ':' && (d = '?' || isFlowMark d)

/-- The rest of a plain scalar whose lines are indented by `least`. -/
def plainFrom (flow : Bool) (least : Nat) (gap : Gap) (p : Place) : List Char → Option Reading
  | [] => some { text := [], cursor := ⟨[], p⟩, crossed := gap.crossed }
  | c :: rest =>
    if isBlank c then
      if c = '\t' && gap.crossed && p.column < least then none
      else plainFrom flow least (gap.blank c) (p.past c) rest
    else if isBreak c then plainFrom flow least (gap.cross c) (p.past c) rest
    else if plainEnds flow least gap p c rest then
      some { text := [], cursor := ⟨c :: rest, p⟩, crossed := gap.crossed }
    else if flow && isPressed c rest then none
    else (plainFrom flow least {} (p.past c) rest).map (.prepend (gap.text ++ [c]))

def plain? (flow : Bool) (least : Nat) (c : Cursor) : Option Reading :=
  plainFrom flow least {} c.place c.rest

/-! ### Quoted scalars -/

/-- The rest of a scalar in single quotes. -/
def singleFrom (gap : Gap) (p : Place) : List Char → Option Reading
  | [] => none
  | '\'' :: '\'' :: rest =>
    (singleFrom {} ((p.past '\'').past '\'') rest).map (.prepend (gap.text ++ ['\'']))
  | '\'' :: rest => some { text := gap.text, cursor := ⟨rest, p.past '\''⟩ }
  | c :: rest =>
    if isBlank c then singleFrom (gap.blank c) (p.past c) rest
    else if isBreak c then singleFrom (gap.cross c) (p.past c) rest
    else if p.isBound (c :: rest) then none
    else (singleFrom {} (p.past c) rest).map (.prepend (gap.text ++ [c]))

/-- The scalar behind a single quote. -/
def single? (c : Cursor) : Option Reading := singleFrom {} c.place c.rest

/-- What a single character behind a backslash stands for. -/
def escapes : List (Char × Char) :=
  [('0', '\x00'), ('a', '\x07'), ('b', '\x08'), ('t', '\t'), ('\t', '\t'), ('n', '\n'),
    ('v', '\x0b'), ('f', '\x0c'), ('r', '\r'), ('e', '\x1b'), (' ', ' '), ('"', '"'),
    ('/', '/'), ('\\', '\\'), ('N', '\u0085'), ('_', '\u00a0'), ('L', '\u2028'),
    ('P', '\u2029')]

/-- How many hexadecimal digits follow the letter of an escape. -/
def codeLength? (c : Char) : Option Nat :=
  [('x', 2), ('u', 4), ('U', 8)].lookup c

/-- The character that a backslash introduces, and how many characters name it. -/
def escaped? : List Char → Option (Char × Nat)
  | [] => none
  | c :: rest =>
    match codeLength? c with
    | none => (escapes.lookup c).map fun d => (d, 1)
    | some n =>
      match Numeral.valueIn? 16 (rest.take n) with
      | none => none
      | some code =>
        if (rest.take n).length = n ∧ code.isValidChar then some (Char.ofNat code, n + 1)
        else none

/-- The rest of a scalar in double quotes. -/
def doubleFrom : (fuel : Nat) → Gap → Cursor → Option Reading
  | 0, _, _ => none
  | fuel + 1, gap, c =>
    match c.rest with
    | [] => none
    | '"' :: _ => some { text := gap.text, cursor := c.past 1 }
    | '\\' :: d :: rest =>
      if isBreak d then
        (doubleFrom fuel { first := some [] } (c.past 2)).map (.prepend gap.text)
      else
        match escaped? (d :: rest) with
        | none => none
        | some (e, n) => (doubleFrom fuel {} (c.past (n + 1))).map (.prepend (gap.text ++ [e]))
    | d :: rest =>
      if isBlank d then doubleFrom fuel (gap.blank d) (c.past 1)
      else if isBreak d then doubleFrom fuel (gap.cross d) (c.past 1)
      else if c.place.isBound (d :: rest) then none
      else (doubleFrom fuel {} (c.past 1)).map (.prepend (gap.text ++ [d]))

/-- The scalar behind a double quote. -/
def double? (c : Cursor) : Option Reading := doubleFrom (c.rest.length + 1) {} c

end FlowProbe.Yaml
