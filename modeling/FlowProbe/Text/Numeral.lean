/-! Numerals: natural numbers and integers written in ASCII digits.

`render` writes a number in base ten and `value?` reads a non-empty run of digits, leading
zeros and all; `value?_render` says that what is written reads back. `canonical?` refuses
leading zeros, so it accepts exactly one spelling of each number, the one `render`
writes. `valueIn?` reads other bases. -/
namespace FlowProbe.Numeral

def render (n : Nat) : List Char := Nat.toDigits 10 n

def renderInt : Int → List Char
  | .ofNat n => render n
  | .negSucc n => '-' :: render (n + 1)

/-- The number a non-empty run of decimal digits stands for. -/
def value? (cs : List Char) : Option Nat :=
  if cs ≠ [] ∧ cs.all Char.isDigit then some (Nat.ofDigitChars 10 cs 0) else none

/-- Like `value?`, but no zero may lead another digit. -/
def canonical? (cs : List Char) : Option Nat :=
  match cs with
  | '0' :: _ :: _ => none
  | _ => value? cs

/-- What a letter or digit counts for in bases up to sixteen. -/
def digitValue? (c : Char) : Option Nat :=
  if '0' ≤ c ∧ c ≤ '9' then some (c.toNat - '0'.toNat)
  else if 'a' ≤ c ∧ c ≤ 'f' then some (c.toNat - 'a'.toNat + 10)
  else if 'A' ≤ c ∧ c ≤ 'F' then some (c.toNat - 'A'.toNat + 10)
  else none

/-- The number `cs` continues, `acc` being what came before. -/
def extendIn? (base : Nat) (acc : Nat) : List Char → Option Nat
  | [] => some acc
  | c :: rest =>
    match digitValue? c with
    | some d => if d < base then extendIn? base (acc * base + d) rest else none
    | none => none

/-- The number a non-empty run of digits stands for in `base`. -/
def valueIn? (base : Nat) (cs : List Char) : Option Nat :=
  if cs.isEmpty then none else extendIn? base 0 cs

theorem render_ne_nil (n : Nat) : render n ≠ [] := by
  rw [render]
  by_cases h : n < 10
  · rw [Nat.toDigits_of_lt_base h]
    simp
  · rw [Nat.toDigits_of_base_le (by decide) (by omega)]
    simp

theorem isDigit_of_mem_render {n : Nat} {c : Char} (h : c ∈ render n) : c.isDigit = true :=
  Nat.isDigit_of_mem_toDigits (by decide) (by decide) h

@[simp] theorem value?_render (n : Nat) : value? (render n) = some n := by
  rw [value?, if_pos ⟨render_ne_nil n, List.all_eq_true.2 fun _ h => isDigit_of_mem_render h⟩,
    render, Nat.ofDigitChars_toDigits (by decide) (by decide)]

end FlowProbe.Numeral
