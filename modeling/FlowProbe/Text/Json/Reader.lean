import FlowProbe.Text.Double
import FlowProbe.Text.Json

/-! Reading JSON text.

`Json.ofText?` accepts the grammar of JSON with three further rules: containers nest at
most `maxDepth` deep, a pair of escaped surrogates is one character while a single one is
none, and a number that is no integer of 64 bits must have a finite double. Every function
returns what it read together with the text behind it. -/
namespace FlowProbe.Json

def isSpace (c : Char) : Bool := c = ' ' || c = '\n' || c = '\t' || c = '\r'

def skipSpace (cs : List Char) : List Char := cs.dropWhile isSpace

/-- The text behind `word`, if it starts with that. -/
def after? (word : String) (cs : List Char) : Option (List Char) :=
  if word.toList.isPrefixOf cs then some (cs.drop word.length) else none

/-! ### Quoted text -/

/-- The code unit that four hexadecimal digits give. -/
def unit? : List Char → Option (Nat × List Char)
  | a :: b :: c :: d :: rest =>
    match Numeral.valueIn? 16 [a, b, c, d] with
    | some n => some (n, rest)
    | none => none
  | _ => none

/-- The character behind an escaped `u`: one unit, or a pair of surrogates. -/
def escapedUnit? (cs : List Char) : Option (Char × List Char) :=
  match unit? cs with
  | none => none
  | some (hi, rest) =>
    if 0xD800 ≤ hi ∧ hi < 0xDC00 then
      match rest with
      | '\\' :: 'u' :: rest =>
        match unit? rest with
        | none => none
        | some (lo, rest) =>
          if 0xDC00 ≤ lo ∧ lo < 0xE000 then
            some (Char.ofNat (0x10000 + (hi - 0xD800) * 0x400 + (lo - 0xDC00)), rest)
          else none
      | _ => none
    else if 0xDC00 ≤ hi ∧ hi < 0xE000 then none
    else some (Char.ofNat hi, rest)

/-- What a single letter or mark behind a backslash stands for. -/
def letter? (c : Char) : Option Char :=
  if c = '"' ∨ c = '\\' ∨ c = '/' then some c
  else if c = 'b' then some '\x08'
  else if c = 'f' then some '\x0c'
  else if c = 'n' then some '\n'
  else if c = 'r' then some '\r'
  else if c = 't' then some '\t'
  else none

/-- The character that a backslash introduces. -/
def escaped? : List Char → Option (Char × List Char)
  | [] => none
  | c :: rest => if c = 'u' then escapedUnit? rest else (letter? c).map fun c => (c, rest)

/-- One character of a quoted text. -/
def char? : List Char → Option (Char × List Char)
  | [] => none
  | c :: rest =>
    if c = '\\' then escaped? rest
    else if c.toNat < 0x20 ∨ c = '"' then none
    else some (c, rest)

theorem length_unit? {cs rest : List Char} {n : Nat} (h : unit? cs = some (n, rest)) :
    rest.length < cs.length := by
  unfold unit? at h
  split at h
  · split at h
    · simp only [Option.some.injEq, Prod.mk.injEq] at h
      obtain ⟨_, rfl⟩ := h
      simp only [List.length_cons]
      omega
    · exact absurd h nofun
  · exact absurd h nofun

theorem length_escapedUnit? {cs rest : List Char} {c : Char}
    (h : escapedUnit? cs = some (c, rest)) : rest.length < cs.length := by
  unfold escapedUnit? at h
  split at h
  · exact absurd h nofun
  · next hi r hr =>
    have h1 := length_unit? hr
    split at h
    · split at h
      · split at h
        · exact absurd h nofun
        · next lo r' hr' =>
          have h2 := length_unit? hr'
          split at h
          · simp only [Option.some.injEq, Prod.mk.injEq] at h
            obtain ⟨_, rfl⟩ := h
            simp only [List.length_cons] at h1
            omega
          · exact absurd h nofun
      · exact absurd h nofun
    · split at h
      · exact absurd h nofun
      · simp only [Option.some.injEq, Prod.mk.injEq] at h
        obtain ⟨_, rfl⟩ := h
        exact h1

theorem length_escaped? {cs rest : List Char} {c : Char} (h : escaped? cs = some (c, rest)) :
    rest.length < cs.length := by
  unfold escaped? at h
  split at h
  · exact absurd h nofun
  · split at h
    · exact Nat.lt_succ_of_lt (length_escapedUnit? h)
    · obtain ⟨d, _, hd⟩ := Option.map_eq_some_iff.1 h
      simp only [Prod.mk.injEq] at hd
      obtain ⟨_, rfl⟩ := hd
      exact Nat.lt_succ_self _

theorem length_char? {cs rest : List Char} {c : Char} (h : char? cs = some (c, rest)) :
    rest.length < cs.length := by
  unfold char? at h
  split at h
  · exact absurd h nofun
  · split at h
    · exact Nat.lt_succ_of_lt (length_escaped? h)
    · split at h
      · exact absurd h nofun
      · simp only [Option.some.injEq, Prod.mk.injEq] at h
        obtain ⟨_, rfl⟩ := h
        exact Nat.lt_succ_self _

/-- The characters up to the closing quote. -/
def quoted? (cs : List Char) : Option (List Char × List Char) :=
  match cs with
  | '"' :: rest => some ([], rest)
  | cs =>
    match h : char? cs with
    | none => none
    | some (c, rest) =>
      have := length_char? h
      (quoted? rest).map fun (cs, rest) => (c :: cs, rest)
termination_by cs.length

/-! ### Numbers -/

/-- A number's digits as they are read: at most 64 bits of them count, the others only shift. -/
structure Scan where
  significand : Nat
  exponent : Int
  deriving Repr

namespace Scan

def limit : Nat := UInt64.size

/-- Digits before the point: those that do not fit shift the number up, from the first one on. -/
def whole (significand : Nat) : List Char → Scan
  | [] => ⟨significand, 0⟩
  | c :: rest =>
    let next := significand * 10 + (c.toNat - '0'.toNat)
    if next < limit then whole next rest else ⟨significand, (c :: rest).length⟩

/-- Digits behind the point: those that do not fit are let go, from the first one on. -/
def fraction (s : Scan) : List Char → Scan
  | [] => s
  | c :: rest =>
    let next := s.significand * 10 + (c.toNat - '0'.toNat)
    if next < limit then fraction ⟨next, s.exponent - 1⟩ rest else s

/-- Whether the number has a finite double. -/
def isFinite (s : Scan) : Bool :=
  s.significand = 0 || s.exponent < 0 ||
    (s.exponent ≤ 308 && !Double.productOverflows s.significand s.exponent.toNat)

end Scan

/-- A sign and digits behind the letter of an exponent. -/
def exponent? (cs : List Char) : Option (Int × List Char) :=
  let (negative, cs) := match cs with
    | '+' :: rest => (false, rest)
    | '-' :: rest => (true, rest)
    | _ => (false, cs)
  let (digits, rest) := cs.span Char.isDigit
  match Numeral.value? digits with
  | some n => some (if negative then -(n : Int) else n, rest)
  | none => none

/-- The literal without a sign: its scan, whether it is a run of digits only, and the rest. -/
def magnitude? (cs : List Char) : Option (Scan × Bool × List Char) :=
  let (digits, rest) := cs.span Char.isDigit
  if digits = [] ∨ (digits.length > 1 ∧ digits.head? = some '0') then none
  else
    let scan := Scan.whole 0 digits
    let fractional? : Option (Scan × Bool × List Char) := match rest with
      | '.' :: rest =>
        let (digits, rest) := rest.span Char.isDigit
        if digits = [] then none else some (scan.fraction digits, false, rest)
      | _ => some (scan, true, rest)
    match fractional? with
    | none => none
    | some (scan, whole, rest) =>
      match rest with
      | c :: rest' =>
        if c = 'e' ∨ c = 'E' then
          match exponent? rest' with
          | some (e, rest) => some (⟨scan.significand, scan.exponent + e⟩, false, rest)
          | none => none
        else some (scan, whole, rest)
      | [] => some (scan, whole, rest)

/-- The integer a scan stands for, if it is one of 64 bits. A negative zero is none. -/
def integer? (negative : Bool) (s : Scan) : Option Int :=
  if s.exponent ≠ 0 then none
  else if negative then
    if 0 < s.significand ∧ s.significand ≤ UInt64.size / 2 then some (-(s.significand : Int)) else none
  else some s.significand

def number? (cs : List Char) : Option (Json × List Char) :=
  let (negative, body) := match cs with
    | '-' :: rest => (true, rest)
    | _ => (false, cs)
  match magnitude? body with
  | none => none
  | some (scan, whole, rest) =>
    match if whole then integer? negative scan else none with
    | some n => some (.int n, rest)
    | none =>
      if scan.isFinite then
        some (.real (String.ofList (cs.take (cs.length - rest.length))), rest)
      else none

/-! ### Values -/

/-- A value that holds no other. -/
def scalar? (cs : List Char) : Option (Json × List Char) :=
  match cs with
  | 'n' :: _ => (after? "null" cs).map fun rest => (.null, rest)
  | 't' :: _ => (after? "true" cs).map fun rest => (.bool true, rest)
  | 'f' :: _ => (after? "false" cs).map fun rest => (.bool false, rest)
  | '"' :: rest => (quoted? rest).map fun (s, rest) => (.str (String.ofList s), rest)
  | _ => number? cs

/-- What `item` reads, again and again, with commas between and `close` at the end. -/
def series? {α : Type} (item : List Char → Option (α × List Char)) (close : Char) :
    (fuel : Nat) → List Char → Option (List α × List Char)
  | 0, _ => none
  | fuel + 1, cs =>
    match item (skipSpace cs) with
    | none => none
    | some (a, rest) =>
      match skipSpace rest with
      | c :: rest =>
        if c = ',' then (series? item close fuel rest).map fun (as, rest) => (a :: as, rest)
        else if c = close then some ([a], rest)
        else none
      | [] => none

/-- A series that may be empty. -/
def series {α : Type} (item : List Char → Option (α × List Char)) (close : Char)
    (cs : List Char) : Option (List α × List Char) :=
  match skipSpace cs with
  | c :: rest => if c = close then some ([], rest) else series? item close cs.length cs
  | [] => none

/-- A quoted name, a colon and what `value` reads. -/
def member? {α : Type} (value : List Char → Option (α × List Char)) (cs : List Char) :
    Option ((String × α) × List Char) :=
  match cs with
  | '"' :: rest =>
    match quoted? rest with
    | none => none
    | some (name, rest) =>
      match skipSpace rest with
      | ':' :: rest =>
        (value (skipSpace rest)).map fun (v, rest) => ((String.ofList name, v), rest)
      | _ => none
  | _ => none

/-- A value whose containers nest at most `depth` deep. -/
def value? : (depth : Nat) → List Char → Option (Json × List Char)
  | 0, cs =>
    match cs with
    | '[' :: _ => none
    | '\x7b' :: _ => none
    | _ => scalar? cs
  | depth + 1, cs =>
    match cs with
    | '[' :: rest => (series (value? depth) ']' rest).map fun (js, rest) => (.arr js, rest)
    | '\x7b' :: rest =>
      (series (member? (value? depth)) '\x7d' rest).map fun (ms, rest) => (.obj ms, rest)
    | _ => scalar? cs

def maxDepth : Nat := 127

/-- The value that a whole text stands for. -/
def ofText? (cs : List Char) : Option Json :=
  match value? maxDepth (skipSpace cs) with
  | some (j, rest) => if skipSpace rest = [] then some j else none
  | none => none

end FlowProbe.Json
