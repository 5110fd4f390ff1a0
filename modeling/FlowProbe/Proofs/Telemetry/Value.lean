import FlowProbe.Telemetry.Record

/-! Values read back from their bytes.

A value stands for a number (`number`). Several types may have a value for it, but none has two, so
the type and the number tell the value (`ofNumber?_eq_some_iff`). The bytes hold the number modulo
what fits in them, the least significant one in front (`ofLowFirst_toBytes`, `word_eq`): a negative
number stands in two's complement, and of the numbers with the same bytes a signed type means the
one next to zero (`numberOf_toBytes`). So bytes are read as a value of a type exactly when they are
the bytes of that value (`ofBytes?_eq_some_iff`). -/
namespace FlowProbe.Value

/-- A value as a number. -/
def number : Value → Int
  | .u16 v => v.toNat
  | .u32 v => v.toNat
  | .u64 v => v.toNat
  | .i32 v => v.toInt
  | .i64 v => v.toInt
  | .bool v => v.toNat

theorem number_u64 (n : Nat) : (Value.u64 (.ofNat n)).number = (n % UInt64.size : Nat) :=
  congrArg Nat.cast UInt64.toNat_ofNat'

/-! ### A type and a number -/

/-- What a type makes of a number: the value that stands for it, if the type can hold it. -/
def fitted? (tag : String) (n : Int) : Option Value :=
  match tag with
  | "UINT16" => some (.u16 (.ofNat n.toNat))
  | "UINT32" => some (.u32 (.ofNat n.toNat))
  | "UINT64" => some (.u64 (.ofNat n.toNat))
  | "INT32" => some (.i32 (.ofInt n))
  | "INT64" => some (.i64 (.ofInt n))
  | "BOOL" => some (.bool (n == 1))
  | _ => none

theorem tag_fitted? {tag : String} {n : Int} {v : Value} (h : fitted? tag n = some v) :
    v.tag = tag := by
  rw [fitted?.eq_def] at h
  split at h <;> cases h <;> rfl

theorem fitted?_number (v : Value) : fitted? v.tag v.number = some v := by
  cases v with
  | bool b => cases b <;> rfl
  | _ => simp [fitted?, tag, number]

/-- The value of a type that stands for a number, if there is one. -/
def ofNumber? (tag : String) (n : Int) : Option Value :=
  (fitted? tag n).filter fun v => v.number = n

theorem ofNumber?_eq_some_iff {tag : String} {n : Int} {v : Value} :
    ofNumber? tag n = some v ↔ v.tag = tag ∧ v.number = n := by
  rw [ofNumber?, Option.filter_eq_some_iff, decide_eq_true_eq]
  constructor
  · rintro ⟨hfitted, hnumber⟩
    exact ⟨tag_fitted? hfitted, hnumber⟩
  · rintro ⟨rfl, rfl⟩
    exact ⟨v.fitted?_number, rfl⟩

/-! ### A type and bytes -/

/-- What a value keeps in its bytes, as a number. -/
def word : Value → Nat
  | .u16 v => v.toNat
  | .u32 v => v.toNat
  | .u64 v => v.toNat
  | .i32 v => v.toUInt32.toNat
  | .i64 v => v.toUInt64.toNat
  | .bool v => v.toNat

theorem word_lt (v : Value) : v.word < Words.range v.width := by
  cases v with
  | u16 a => exact a.toNat_lt
  | u32 a => exact a.toNat_lt
  | u64 a => exact a.toNat_lt
  | i32 a => exact a.toUInt32.toNat_lt
  | i64 a => exact a.toUInt64.toNat_lt
  | bool a => cases a <;> decide

theorem toBytes_eq (v : Value) : v.toBytes = Words.lowFirst v.width v.word := by
  cases v <;> rfl

/-- A signed type stands for the number next to zero among those with the same word. -/
theorem number_i32 (a : Int32) : (i32 a).number = ((i32 a).word : Int).bmod (Words.range 4) :=
  BitVec.toInt_eq_toNat_bmod a.toBitVec

theorem number_i64 (a : Int64) : (i64 a).number = ((i64 a).word : Int).bmod (Words.range 8) :=
  BitVec.toInt_eq_toNat_bmod a.toBitVec

/-- The word is the number modulo what fits in the bytes. -/
theorem word_eq (v : Value) : (v.word : Int) = v.number % Words.range v.width := by
  have hself : (v.word : Int) % Words.range v.width = v.word :=
    Int.emod_eq_of_lt (Int.natCast_nonneg _) (Int.ofNat_lt.2 v.word_lt)
  rw [← hself]
  cases v with
  | i32 a => rw [number_i32, width, Int.bmod_emod]
  | i64 a => rw [number_i64, width, Int.bmod_emod]
  | _ => rfl

theorem ofLowFirst_toBytes (v : Value) : Words.ofLowFirst v.toBytes = v.word := by
  rw [toBytes_eq, Words.ofLowFirst_lowFirst v.word_lt]

/-- The types with negative numbers. -/
def signedTags : List String := ["INT32", "INT64"]

/-- The number that bytes of a type stand for: in a signed type the one next to zero. -/
def numberOf (tag : String) (bytes : List UInt8) : Int :=
  if tag ∈ signedTags then (Words.ofLowFirst bytes : Int).bmod (Words.range bytes.length)
  else Words.ofLowFirst bytes

/-- The value of a type that is kept as these bytes, if there is one. -/
def ofBytes? (tag : String) (bytes : List UInt8) : Option Value :=
  (ofNumber? tag (numberOf tag bytes)).filter fun v => v.width = bytes.length

theorem numberOf_emod (tag : String) (bytes : List UInt8) :
    numberOf tag bytes % Words.range bytes.length = Words.ofLowFirst bytes := by
  have hself : (Words.ofLowFirst bytes : Int) % Words.range bytes.length = Words.ofLowFirst bytes :=
    Int.emod_eq_of_lt (Int.natCast_nonneg _) (Int.ofNat_lt.2 (Words.ofLowFirst_lt bytes))
  rw [numberOf]
  split
  · rw [Int.bmod_emod, hself]
  · exact hself

theorem numberOf_toBytes (v : Value) : numberOf v.tag v.toBytes = v.number := by
  rw [numberOf, ofLowFirst_toBytes, length_toBytes]
  cases v with
  | i32 a =>
    rw [if_pos (by simp [tag, signedTags])]
    exact (number_i32 a).symm
  | i64 a =>
    rw [if_pos (by simp [tag, signedTags])]
    exact (number_i64 a).symm
  | _ => exact if_neg (by simp [tag, signedTags])

/-- Bytes are read as a value of a type exactly when they are its bytes. -/
theorem ofBytes?_eq_some_iff {tag : String} {bytes : List UInt8} {v : Value} :
    ofBytes? tag bytes = some v ↔ v.tag = tag ∧ v.toBytes = bytes := by
  rw [ofBytes?, Option.filter_eq_some_iff, ofNumber?_eq_some_iff, decide_eq_true_eq]
  constructor
  · rintro ⟨⟨rfl, hnumber⟩, hwidth⟩
    have hword : v.word = Words.ofLowFirst bytes := by
      have hemod := numberOf_emod v.tag bytes
      rw [← hnumber, ← hwidth, ← word_eq] at hemod
      exact Int.ofNat.inj hemod
    exact ⟨rfl, by rw [toBytes_eq, hword, hwidth, Words.lowFirst_ofLowFirst]⟩
  · rintro ⟨rfl, rfl⟩
    exact ⟨⟨rfl, (numberOf_toBytes v).symm⟩, v.length_toBytes.symm⟩

-- The same eight bytes in two types; no truth value but zero and one is read.
example : ofBytes? "INT64" (.replicate 8 0xFF) = some (.i64 (-1)) ∧
    ofBytes? "UINT64" (.replicate 8 0xFF) = some (.u64 18446744073709551615) ∧
    ofBytes? "BOOL" [2] = none := by
  decide

end FlowProbe.Value
