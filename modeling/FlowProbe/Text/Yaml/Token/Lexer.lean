import FlowProbe.Text.Yaml.Block
import FlowProbe.Text.Yaml.Token

/-! Cutting YAML text into tokens.

Whether something is a key shows only at the colon behind it. So every token that may start a
key is remembered, one between each pair of brackets, and at the colon the token of the key is
put in front of it. A key ends on its line and within 1024 bytes, and what stands in the
column of a block outside brackets must be one. `Token.ofText?` cuts a whole text. -/
namespace FlowProbe.Yaml

/-- A token that may turn out to start a key. -/
structure PendingKey where
  place : Place
  /-- How many tokens are in front of it. -/
  before : Nat
  /-- Whether nothing but a key may stand there. -/
  required : Bool
  deriving Repr

namespace PendingKey

/-- Whether a colon at `p` comes too late. -/
def isLate (k : PendingKey) (p : Place) : Bool :=
  k.place.line < p.line || k.place.bytes + 1024 < p.bytes

/-- What is left of a pending key at `p`, unless a key is missing. -/
def checked? (p : Place) : Option PendingKey → Option (Option PendingKey)
  | none => some none
  | some k =>
    if !k.isLate p then some (some k)
    else if k.required then none
    else some none

end PendingKey

structure Lexer where
  cursor : Cursor
  /-- The tokens so far. -/
  tokens : Array Token := #[]
  /-- The columns of the blocks that are open, the innermost first. -/
  blocks : List Nat := []
  key : Option PendingKey := none
  /-- The pending keys around the open brackets, the innermost first. -/
  outer : List (Option PendingKey) := []
  /-- Whether a block may open here. -/
  fresh : Bool := true
  deriving Repr

namespace Lexer

/-- Whether the cursor is between brackets. -/
def flow (l : Lexer) : Bool := !l.outer.isEmpty

def push (l : Lexer) (t : Token) : Lexer := { l with tokens := l.tokens.push t }

/-- Puts a token behind the first `before` ones. -/
def insert (l : Lexer) (before : Nat) (t : Token) : Lexer :=
  { l with tokens := l.tokens.insertIdxIfInBounds before t }

/-- Takes `n` characters for a token. -/
def take (l : Lexer) (n : Nat) (t : Token) : Lexer :=
  { l with cursor := l.cursor.past n }.push t

/-- The first column to the right of the innermost block. -/
def least (l : Lexer) : Nat :=
  match l.blocks with
  | [] => 0
  | column :: _ => column + 1

/-! ### Keys -/

/-- Gives up the pending key, which must not be one that is required. -/
def dropKey? (l : Lexer) : Option Lexer :=
  if l.key.any PendingKey.required then none else some { l with key := none }

/-- Remembers that a key may start at the cursor. -/
def markKey? (l : Lexer) : Option Lexer :=
  if l.fresh then
    l.dropKey?.map fun l =>
      { l with
        key := some
          { place := l.cursor.place
            before := l.tokens.size
            required := !l.flow && l.blocks.head? = some l.cursor.place.column } }
  else some l

/-! ### Blocks -/

/-- Closes the blocks from `column` on. Brackets keep every block open. -/
def closeBlocks (l : Lexer) (column : Nat) : Lexer :=
  if l.flow then l
  else
    let closing := l.blocks.takeWhile fun b => column ≤ b
    { l with
      blocks := l.blocks.drop closing.length
      tokens := l.tokens ++ Array.replicate closing.length .blockEnd }

/-- Opens a block in `column`, unless the innermost one already stands there. The token that
opens it is put behind the first `before` ones. -/
def openBlock (l : Lexer) (column before : Nat) (t : Token) : Lexer :=
  if !l.flow && l.least ≤ column then { l with blocks := column :: l.blocks }.insert before t
  else l

/-- Opens a block at the cursor, where brackets or a fresh place allow it. -/
def openHere? (l : Lexer) (t : Token) : Option Lexer :=
  if l.flow then some l
  else if l.fresh then some (l.openBlock l.cursor.place.column l.tokens.size t)
  else none

/-! ### One token -/

/-- Closes all blocks where a document starts or ends. -/
def bound? (l : Lexer) : Option Lexer :=
  (l.closeBlocks 0).dropKey?.map fun l => { l with fresh := false }

def openFlow? (l : Lexer) (t : Token) : Option Lexer :=
  l.markKey?.map fun l =>
    { l with key := none, outer := l.key :: l.outer, fresh := true }.take 1 t

def closeFlow? (l : Lexer) (t : Token) : Option Lexer :=
  l.dropKey?.map fun l =>
    { l with key := l.outer.head?.join, outer := l.outer.tail, fresh := false }.take 1 t

def comma? (l : Lexer) : Option Lexer :=
  l.dropKey?.map fun l => { l with fresh := true }.take 1 .comma

def dash? (l : Lexer) : Option Lexer :=
  match l.openHere? .items with
  | none => none
  | some l => l.dropKey?.map fun l => { l with fresh := true }.take 1 .dash

/-- A question mark, behind which a key stands that may be of any form. -/
def question? (l : Lexer) : Option Lexer :=
  match l.openHere? .members with
  | none => none
  | some l => l.dropKey?.map fun l => { l with fresh := !l.flow }.take 1 .key

/-- A colon. What is pending turns out to be a key, else a block of members may open here. -/
def colon? (l : Lexer) : Option Lexer :=
  match l.key with
  | some k =>
    let keyed := { l with key := none, fresh := false }.insert k.before .key
    some ((keyed.openBlock k.place.column k.before .members).take 1 .value)
  | none =>
    (l.openHere? .members).map fun l => { l with fresh := !l.flow }.take 1 .value

/-- An anchor, an alias or a tag, with the cursor behind it. -/
def property? (l : Lexer) (t : Option (Token × Cursor)) : Option Lexer :=
  match l.markKey?, t with
  | some l, some (t, cursor) => some ({ l with cursor, fresh := false }.push t)
  | _, _ => none

/-- A scalar that is no block. -/
def scalar? (l : Lexer) (style : Style) (r : Option Reading) : Option Lexer :=
  match l.markKey?, r with
  | some l, some r =>
    some
      ({ l with cursor := r.cursor, fresh := r.crossed }.push
        (.scalar (String.ofList r.text) style))
  | _, _ => none

def blockScalar? (l : Lexer) (folded : Bool) : Option Lexer :=
  match l.dropKey?, block? folded l.least (l.cursor.past 1) with
  | some l, some r =>
    some
      ({ l with cursor := r.cursor, fresh := true }.push
        (.scalar (String.ofList r.text) (if folded then .folded else .literal)))
  | _, _ => none

/-- A directive, which stands in the margin. -/
def directive? (l : Lexer) : Option Lexer :=
  match l.bound?, Yaml.directive? (l.cursor.past 1) with
  | some l, some (d, cursor) => some ({ l with cursor }.push (.directive d))
  | _, _ => none

/-- Moves to the next token. A key around brackets is looked at when they are closed: one that
is late by then stays so. -/
def settle? (l : Lexer) : Option Lexer :=
  let (cursor, fresh) := l.cursor.toToken l.flow l.fresh
  (PendingKey.checked? cursor.place l.key).map fun key =>
    { l with cursor, fresh, key }.closeBlocks (cursor.place.column + 1)

/-- Reads the token that starts with `c`. -/
def token? (l : Lexer) (c : Char) (rest : List Char) : Option Lexer :=
  let here := l.cursor
  let margin := here.place.column = 0
  let behind := here.past 1
  if margin && c = '%' then l.directive?
  else if margin && isMark '-' here.rest then l.bound?.map fun l => l.take 3 .documentStart
  else if margin && isMark '.' here.rest then l.bound?.map fun l => l.take 3 .documentEnd
  else if c = '[' then l.openFlow? .openBracket
  else if c = '\x7b' then l.openFlow? .openBrace
  else if c = ']' then l.closeFlow? .closeBracket
  else if c = '\x7d' then l.closeFlow? .closeBrace
  else if c = ',' then l.comma?
  else if c = '-' && atBlank rest then l.dash?
  else if c = '?' && (l.flow || atBlank rest) then l.question?
  else if c = ':' && (l.flow || atBlank rest) then l.colon?
  else if c = '*' then l.property? ((anchorName? behind).map fun (name, c) => (.alias name, c))
  else if c = '&' then l.property? ((anchorName? behind).map fun (name, c) => (.anchor name, c))
  else if c = '!' then l.property? ((tag? l.flow behind).map fun (tag, c) => (.tag tag, c))
  else if c = '|' && !l.flow then l.blockScalar? false
  else if c = '>' && !l.flow then l.blockScalar? true
  else if c = '\'' then l.scalar? .quoted (single? behind)
  else if c = '"' then l.scalar? .quoted (double? behind)
  else if startsPlain l.flow (c :: rest) then l.scalar? .plain (plain? l.flow l.least here)
  else none

/-- All tokens. -/
def run? : (fuel : Nat) → Lexer → Option (List Token)
  | 0, _ => none
  | fuel + 1, l =>
    match l.settle? with
    | none => none
    | some l =>
      match l.cursor.rest with
      | [] => l.bound?.map fun l => l.tokens.toList
      | c :: rest =>
        match l.token? c rest with
        | none => none
        | some l => run? fuel l

end Lexer

/-! ### Texts -/

/-- Gives every line break but the two separators of Unicode the same form. -/
def unifyBreaks : List Char → List Char
  | '\r' :: '\n' :: rest => '\n' :: unifyBreaks rest
  | c :: rest => (if c = '\r' ∨ c = '\u0085' then '\n' else c) :: unifyBreaks rest
  | [] => []

/-- Whether a character may stand in a document. -/
def isAllowed (c : Char) : Bool :=
  let n := c.toNat
  n = 0x09 || n = 0x0A || n = 0x0D || (0x20 ≤ n && n ≤ 0x7E) || n = 0x85 ||
    (0xA0 ≤ n && n ≤ 0xFFFD) || 0x10000 ≤ n

/-- The tokens of a text. Each takes a character at least. -/
def Token.ofText? (text : List Char) : Option (List Token) :=
  if text.all isAllowed then
    Lexer.run? (text.length + 1) { cursor := { rest := unifyBreaks text } }
  else none

end FlowProbe.Yaml
