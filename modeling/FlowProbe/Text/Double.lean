import FlowProbe.Text.Numeral

/-! Whole numbers as double precision holds them.

`nearest` rounds a whole number to the closest one with 53 significant bits, an exact tie
to the even significand. `render` writes such a number positionally with the fewest
leading digits that still lie closer to it than to any other, and zeros after them.
`productOverflows` says when the rounded product of a number and a power of ten has no
finite double. -/
namespace FlowProbe.Double

/-- Powers of two. -/
def bit (n : Nat) : Nat := 1 <<< n

/-- Powers of ten. -/
def decimal (n : Nat) : Nat := Nat.pow 10 n

/-- How many bits of `n` lie below its 53 leading ones. -/
def excess (n : Nat) : Nat := if n = 0 then 0 else Nat.log2 n - 52

def nearest (n : Nat) : Nat :=
  let unit := bit (excess n)
  let kept := n / unit
  let rest := 2 * (n % unit)
  if rest > unit ∨ (rest = unit ∧ kept % 2 = 1) then (kept + 1) * unit else kept * unit

/-- The least whole number that rounds past the largest finite double. -/
def overflow : Nat := bit 1024 - bit 970

/-- Whether the product of two doubles, `significand` and a power of ten rounded, has no
finite double. -/
def productOverflows (significand exponent : Nat) : Bool :=
  overflow ≤ nearest significand * nearest (decimal exponent)

/-- Four times the distances below and above `v` within which every number rounds to `v`. -/
def margins (v : Nat) : Nat × Nat :=
  let unit := bit (excess v)
  (if v = bit (Nat.log2 v) then unit else 2 * unit, 2 * unit)

/-- Whether `c` rounds to `v`. The ends belong to an even significand. -/
def roundsTo (v c : Nat) : Bool :=
  let (below, above) := margins v
  if v / bit (excess v) % 2 = 0 then 4 * v ≤ 4 * c + below && 4 * c ≤ 4 * v + above
  else 4 * v < 4 * c + below && 4 * c < 4 * v + above

/-- The closest number to `v` that rounds to it and ends in `zeros` zeros, `zeros` being the
first that has one on the way down. -/
def shortest (v : Nat) : Nat → Nat
  | 0 => v
  | zeros + 1 =>
    let grid := decimal (zeros + 1)
    let low := v / grid * grid
    let high := low + grid
    match roundsTo v low, roundsTo v high with
    | true, true => if 2 * (v - low) < grid then low else high
    | true, false => low
    | false, true => high
    | false, false => shortest v zeros

/-- The text of `n` rounded to a double. -/
def render (n : Nat) : List Char :=
  let v := nearest n
  if v < bit 53 then Numeral.render v
  else Numeral.render (shortest v (Numeral.render v).length)

end FlowProbe.Double
