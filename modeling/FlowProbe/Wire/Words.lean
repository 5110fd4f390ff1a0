/-! Words as bytes.

`lowFirst` writes the `width` low bytes of a number with the least significant one in
front, `highFirst` with the most significant one. `ofLowFirst` and `ofHighFirst` read
them, and each pair loses nothing: `ofLowFirst_lowFirst` for numbers that fit, and
`lowFirst_ofLowFirst` for all bytes. -/
namespace FlowProbe.Words

def lowFirst : (width : Nat) → Nat → List UInt8
  | 0, _ => []
  | width + 1, n => UInt8.ofNat n :: lowFirst width (n / 256)

def ofLowFirst : List UInt8 → Nat
  | [] => 0
  | b :: rest => b.toNat + 256 * ofLowFirst rest

/-- How many numbers `width` bytes can hold. -/
def range : (width : Nat) → Nat
  | 0 => 1
  | width + 1 => 256 * range width

def highFirst (width n : Nat) : List UInt8 := (lowFirst width n).reverse

def ofHighFirst (bytes : List UInt8) : Nat := ofLowFirst bytes.reverse

@[simp] theorem length_lowFirst (width n : Nat) : (lowFirst width n).length = width := by
  induction width generalizing n with
  | zero => rfl
  | succ width ih => simp [lowFirst, ih]

@[simp] theorem length_highFirst (width n : Nat) : (highFirst width n).length = width := by
  simp [highFirst]

theorem ofLowFirst_lowFirst {width n : Nat} (h : n < range width) :
    ofLowFirst (lowFirst width n) = n := by
  induction width generalizing n with
  | zero =>
    rw [range] at h
    simp only [lowFirst, ofLowFirst]
    omega
  | succ width ih =>
    have hdiv : n / 256 < range width := by
      rw [range] at h
      omega
    rw [lowFirst, ofLowFirst, ih hdiv, UInt8.toNat_ofNat']
    omega

theorem ofLowFirst_lt (bytes : List UInt8) : ofLowFirst bytes < range bytes.length := by
  induction bytes with
  | nil => decide
  | cons b rest ih =>
    have hb : b.toNat < 256 := b.toNat_lt
    rw [ofLowFirst, List.length_cons, range]
    omega

theorem lowFirst_ofLowFirst (bytes : List UInt8) :
    lowFirst bytes.length (ofLowFirst bytes) = bytes := by
  induction bytes with
  | nil => rfl
  | cons b rest ih =>
    have hb : b.toNat < 256 := b.toNat_lt
    have hmod : UInt8.ofNat (b.toNat + 256 * ofLowFirst rest) = b := by
      apply UInt8.toNat_inj.1
      rw [UInt8.toNat_ofNat']
      omega
    have hdiv : (b.toNat + 256 * ofLowFirst rest) / 256 = ofLowFirst rest := by omega
    rw [List.length_cons, ofLowFirst, lowFirst, hmod, hdiv, ih]

theorem ofHighFirst_highFirst {width n : Nat} (h : n < range width) :
    ofHighFirst (highFirst width n) = n := by
  rw [ofHighFirst, highFirst, List.reverse_reverse, ofLowFirst_lowFirst h]

theorem highFirst_ofHighFirst (bytes : List UInt8) :
    highFirst bytes.length (ofHighFirst bytes) = bytes := by
  have h := lowFirst_ofLowFirst bytes.reverse
  rw [List.length_reverse] at h
  rw [highFirst, ofHighFirst, h, List.reverse_reverse]

end FlowProbe.Words
