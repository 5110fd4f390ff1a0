import FlowProbe.Text.Numeral
import FlowProbe.Text.Yaml.Cursor

/-! What a YAML text says about nodes and documents besides their content.

An anchor names a node and an alias stands for it. A tag gives the type of a node: as a whole
between `!<` and `>`, or as a suffix to what a handle stands for. A directive stands before a
document: it gives the version of the format, or says what a handle stands for. The octets of
a tag are kept as the characters of their codes. -/
namespace FlowProbe.Yaml

/-- Whether a character may stand in the name of an anchor, a handle or a directive. -/
def isNameChar (c : Char) : Bool := c.isAlphanum || c = '_' || c = '-'

/-- The name behind `&` or `*`. -/
def anchorName? (c : Cursor) : Option (String × Cursor) :=
  let (name, c) := c.span isNameChar
  if !name.isEmpty ∧ (atBlank c.rest ∨ c.rest.head?.any "?:,]\x7d%@\x60".toList.contains) then
    some (String.ofList name, c)
  else none

/-! ### Tags -/

/-- A tag as it is written. One without a handle is whole. -/
structure Tag where
  handle : List Char := []
  suffix : List Char
  deriving DecidableEq, Repr

/-- Whether a character may stand in a tag, which between angles may also hold brackets and
commas. -/
def isTagChar (whole : Bool) (c : Char) : Bool :=
  isNameChar c || ";/?:@&=+$.!~*'()".toList.contains c || (whole && ",[]".toList.contains c)

/-- How many octets follow one that starts a character. -/
def octetsBehind? (octet : Nat) : Option Nat :=
  if octet < 0x80 then some 0
  else if octet < 0xC0 then none
  else if octet < 0xE0 then some 1
  else if octet < 0xF0 then some 2
  else if octet < 0xF8 then some 3
  else none

/-- How many octets are owed behind this one, if `owed` were before it. -/
def owedBehind? (owed octet : Nat) : Option Nat :=
  if owed = 0 then octetsBehind? octet
  else if 0x80 ≤ octet ∧ octet < 0xC0 then some (owed - 1)
  else none

/-- The part of a tag at a place. Two hexadecimal digits behind a percent sign are an octet,
and once a character is started the octets that it owes must follow. -/
def tagPartFrom (whole : Bool) (owed : Nat) (p : Place) :
    List Char → Option (List Char × Cursor)
  | '%' :: a :: b :: rest =>
    match (Numeral.valueIn? 16 [a, b]).bind fun octet =>
        (owedBehind? owed octet).map fun owed => (octet, owed) with
    | none => none
    | some (octet, owed) =>
      (tagPartFrom whole owed (((p.past '%').past a).past b) rest).map fun (part, c) =>
        (Char.ofNat octet :: part, c)
  | c :: rest =>
    if c = '%' || owed ≠ 0 then none
    else if isTagChar whole c then
      (tagPartFrom whole 0 (p.past c) rest).map fun (part, behind) => (c :: part, behind)
    else some ([], ⟨c :: rest, p⟩)
  | [] => if owed = 0 then some ([], ⟨[], p⟩) else none

def tagPart? (whole : Bool) (c : Cursor) : Option (List Char × Cursor) :=
  tagPartFrom whole 0 c.place c.rest

/-- A part of a tag counts up to its first zero octet. -/
def upToZero (part : List Char) : List Char := part.takeWhile fun c => c ≠ '\x00'

/-- A part of a tag that is not empty. -/
def tagPartNonempty? (whole : Bool) (c : Cursor) : Option (List Char × Cursor) :=
  match tagPart? whole c with
  | some (part, c) => if part.isEmpty then none else some (upToZero part, c)
  | none => none

/-- The tag behind an exclamation mark. A mark alone is a tag of its own. -/
def tagBehind? (c : Cursor) : Option (Tag × Cursor) :=
  match c.rest with
  | '<' :: _ =>
    match tagPartNonempty? true (c.past 1) with
    | some (suffix, c) => if c.rest.head? = some '>' then some (⟨[], suffix⟩, c.past 1) else none
    | none => none
  | _ =>
    let (name, c) := c.span isNameChar
    if c.rest.head? = some '!' then
      (tagPartNonempty? false (c.past 1)).map fun (suffix, c) =>
        (⟨'!' :: name ++ ['!'], suffix⟩, c)
    else
      (tagPart? false c).map fun (part, c) =>
        match upToZero (name ++ part) with
        | [] => (⟨[], ['!']⟩, c)
        | suffix => (⟨['!'], suffix⟩, c)

/-- The tag behind an exclamation mark, and the blank or, between brackets, the comma that ends
it. -/
def tag? (flow : Bool) (c : Cursor) : Option (Tag × Cursor) :=
  match tagBehind? c with
  | some (tag, c) =>
    if atBlank c.rest || (flow && c.rest.head? = some ',') then some (tag, c) else none
  | none => none

/-! ### Directives -/

inductive Directive where
  | version (major minor : Nat)
  | handle (name start : List Char)
  deriving DecidableEq, Repr

/-- A number of a version, which has nine digits at most. -/
def versionNumber? (c : Cursor) : Option (Nat × Cursor) :=
  let (digits, c) := c.span Char.isDigit
  if digits.length ≤ 9 then (Numeral.value? digits).map fun n => (n, c) else none

def version? (c : Cursor) : Option (Directive × Cursor) :=
  match versionNumber? (c.skip isBlank) with
  | none => none
  | some (major, c) =>
    if c.rest.head? = some '.' then
      (versionNumber? (c.past 1)).map fun (minor, c) => (.version major minor, c)
    else none

/-- The name of a handle, which is one exclamation mark or stands between two. -/
def handleName? (c : Cursor) : Option (List Char × Cursor) :=
  if c.rest.head? = some '!' then
    let (name, c) := (c.past 1).span isNameChar
    if c.rest.head? = some '!' then some ('!' :: name ++ ['!'], c.past 1)
    else if name.isEmpty then some (['!'], c)
    else none
  else none

def handle? (c : Cursor) : Option (Directive × Cursor) :=
  match handleName? (c.skip isBlank) with
  | none => none
  | some (name, c) =>
    if c.rest.head?.any isBlank then
      match tagPartNonempty? true (c.skip isBlank) with
      | some (start, c) => if atBlank c.rest then some (.handle name start, c) else none
      | none => none
    else none

/-- The directive behind a percent sign, and the cursor on the next line. -/
def directive? (c : Cursor) : Option (Directive × Cursor) :=
  let (name, c) := c.span isNameChar
  let content :=
    if !atBlank c.rest then none
    else if name = "YAML".toList then version? c
    else if name = "TAG".toList then handle? c
    else none
  match content with
  | some (d, c) => c.lineEnd?.map fun c => (d, c)
  | none => none

end FlowProbe.Yaml
