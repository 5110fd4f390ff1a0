import FlowProbe.Text.Yaml
import FlowProbe.Text.Yaml.Property

/-! Tokens of YAML text.

Indentation is spelled out: a block of items or members has a token where it opens and one
where it closes, and a key has one in front of it. -/
namespace FlowProbe.Yaml

inductive Token where
  | directive (d : Directive)
  | documentStart
  | documentEnd
  /-- A block of items opens. -/
  | items
  /-- A block of members opens. -/
  | members
  | blockEnd
  | openBracket
  | closeBracket
  | openBrace
  | closeBrace
  | comma
  | dash
  | key
  | value
  | anchor (name : String)
  | alias (name : String)
  | tag (t : Tag)
  | scalar (text : String) (style : Style)
  deriving DecidableEq, Repr

end FlowProbe.Yaml
