import FlowProbe.Net.Ipv4
import FlowProbe.Proofs.Text.Numeral

/-! Reading back a dotted address.

Every bit of the word lies in one of its octets (`ofOctets_octets`), each octet is written in its
one spelling, and no digit is a point, so cutting the text at its points gives the octets back
(`ofDotted?_dotted`). -/
namespace FlowProbe.Ipv4

/-- What the octet that is shifted out at `shift` says of bit `i`. -/
theorem getLsbD_octet (w : BitVec 32) (shift i : Nat) (hi : i < 32) :
    ((((w >>> shift).setWidth 8).setWidth 32) <<< shift).getLsbD i =
      (decide (shift ≤ i ∧ i < shift + 8) && w.getLsbD i) := by
  simp only [BitVec.getLsbD_shiftLeft, BitVec.getLsbD_setWidth, BitVec.getLsbD_ushiftRight]
  by_cases hlow : shift ≤ i
  · rw [Nat.add_sub_of_le hlow]
    by_cases hhigh : i < shift + 8
    · have h8 : i - shift < 8 := by omega
      have h32 : i - shift < 32 := by omega
      simp [hi, hlow, hhigh, h8, h32]
    · have h8 : ¬i - shift < 8 := by omega
      simp [hhigh, h8]
  · simp [hlow]

theorem ofOctets_octets (w : UInt32) :
    ofOctets (w >>> 24).toUInt8 (w >>> 16).toUInt8 (w >>> 8).toUInt8 w.toUInt8 = ⟨w⟩ := by
  have hword : ((((w.toBitVec >>> 24).setWidth 8).setWidth 32) <<< 24 |||
      (((w.toBitVec >>> 16).setWidth 8).setWidth 32) <<< 16 |||
      (((w.toBitVec >>> 8).setWidth 8).setWidth 32) <<< 8 |||
      (((w.toBitVec >>> 0).setWidth 8).setWidth 32) <<< 0) = w.toBitVec := by
    refine BitVec.eq_of_getLsbD_eq fun i hi => ?_
    simp only [BitVec.getLsbD_or, getLsbD_octet _ _ _ hi, ← Bool.and_or_distrib_right]
    have hplace : (decide (24 ≤ i ∧ i < 24 + 8) || decide (16 ≤ i ∧ i < 16 + 8) ||
        decide (8 ≤ i ∧ i < 8 + 8) || decide (0 ≤ i ∧ i < 0 + 8)) = true := by
      simp only [Bool.or_eq_true, decide_eq_true_eq]
      omega
    rw [hplace, Bool.true_and]
  refine congrArg Ipv4.mk (UInt32.toBitVec_inj.1 (Eq.trans ?_ hword))
  simp only [UInt32.toBitVec_or, UInt32.toBitVec_shiftLeft, UInt32.toBitVec_shiftRight,
    UInt8.toBitVec_toUInt32, UInt32.toBitVec_toUInt8, UInt32.toBitVec_ofNat, BitVec.shiftLeft_eq',
    BitVec.ushiftRight_eq', BitVec.ushiftRight_zero, BitVec.shiftLeft_zero]
  rfl

theorem octet?_render (o : UInt8) : octet? (Numeral.render o.toNat) = some o := by
  rw [octet?, Numeral.canonical?_render]
  simp only [if_pos o.toNat_lt, UInt8.ofNat_toNat]

theorem ofDotted?_dotted (ip : Ipv4) : ofDotted? ip.dotted = some ip := by
  have hpoint : ∀ l ∈ ip.octets.map fun o => Numeral.render o.toNat, '.' ∉ l := by
    intro l hl hmem
    obtain ⟨o, -, rfl⟩ := List.mem_map.1 hl
    exact absurd (Numeral.isDigit_of_mem_render hmem) (by decide)
  rw [ofDotted?, dotted, String.toList_ofList, List.splitOn_intercalate '.' hpoint nofun]
  simp only [octets, List.map_cons, List.map_nil, octet?_render]
  exact congrArg some (ofOctets_octets ip.word)

end FlowProbe.Ipv4
