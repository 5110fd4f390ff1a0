import FlowProbe.Proofs.Text.Numeral
import FlowProbe.Text.Json.Reader
import Mathlib.Data.List.TakeDrop

/-! Reading back the tokens that are written.

Each token reads back in front of any text that does not go on with it: an escaped character
(`char?_escape`), a quoted text (`quoted?_escape`) and an integer of 64 bits (`number?_renderInt`),
whose digits are scanned one by one without running over (`whole_digits`). -/
namespace FlowProbe.Json

/-! ### Quoted text -/

theorem unit?_control {n : Nat} (h : n < 0x20) (rest : List Char) :
    unit? ('0' :: '0' :: hexDigit (n / 16) :: hexDigit (n % 16) :: rest) = some (n, rest) := by
  have hvalue : ∀ n < 0x20,
      Numeral.valueIn? 16 ['0', '0', hexDigit (n / 16), hexDigit (n % 16)] = some n := by decide
  rw [unit?, hvalue n h]

/-- The characters that are escaped by a letter or a mark. -/
def named : List Char := ['"', '\\', '\x08', '\t', '\n', '\x0c', '\r']

/-- A character reads back from the way it stands between quotes. -/
theorem char?_escape (c : Char) (rest : List Char) : char? (escape c ++ rest) = some (c, rest) := by
  by_cases hnamed : c ∈ named
  · have hall : ∀ c ∈ named, char? (escape c ++ rest) = some (c, rest) := by
      simp only [named, List.forall_mem_cons]
      exact ⟨rfl, rfl, rfl, rfl, rfl, rfl, rfl, List.forall_mem_nil _⟩
    exact hall c hnamed
  · simp only [named, List.mem_cons, List.not_mem_nil, or_false, not_or] at hnamed
    obtain ⟨hquote, hslash, hb, ht, hn, hf, hr⟩ := hnamed
    rw [escape, if_neg hquote, if_neg hslash, if_neg hb, if_neg ht, if_neg hn, if_neg hf, if_neg hr]
    by_cases hcontrol : c.toNat < 0x20
    · have hlow : ¬(0xD800 ≤ c.toNat ∧ c.toNat < 0xDC00) := by omega
      have hhigh : ¬(0xDC00 ≤ c.toNat ∧ c.toNat < 0xE000) := by omega
      simp only [if_pos hcontrol, List.cons_append, List.nil_append, char?, escaped?, escapedUnit?,
        unit?_control hcontrol rest, if_true, if_neg hlow, if_neg hhigh, Char.ofNat_toNat]
    · have hplain : ¬(c.toNat < 0x20 ∨ c = '"') := fun h => h.elim hcontrol hquote
      rw [if_neg hcontrol, List.singleton_append, char?, if_neg hslash, if_neg hplain]

theorem quoted?_of_char? {cs rest : List Char} {c : Char} (h : char? cs = some (c, rest)) :
    quoted? cs = (quoted? rest).map fun (cs, rest) => (c :: cs, rest) := by
  rw [quoted?.eq_def]
  split
  · cases h
  · split
    · next hnone =>
      rw [h] at hnone
      cases hnone
    · next c' rest' hsome =>
      rw [h] at hsome
      cases hsome
      rfl

theorem quoted?_escape (cs rest : List Char) :
    quoted? (cs.flatMap escape ++ '"' :: rest) = some (cs, rest) := by
  induction cs with
  | nil => rw [List.flatMap_nil, List.nil_append, quoted?]
  | cons c cs ih =>
    rw [List.flatMap_cons, List.append_assoc, quoted?_of_char? (char?_escape c _), ih]
    rfl

theorem quote_append (s : String) (rest : List Char) :
    quote s ++ rest = '"' :: (s.toList.flatMap escape ++ '"' :: rest) := by
  rw [quote, List.cons_append, List.append_assoc, List.singleton_append]

/-! ### Numbers -/

/-- The text does not go on with a number. -/
def EndsNumber (rest : List Char) : Prop :=
  ∀ c ∈ rest.head?, c.isDigit = false ∧ c ≠ '.' ∧ c ≠ 'e' ∧ c ≠ 'E'

theorem endsNumber_nil : EndsNumber [] := nofun

theorem span_render (n : Nat) {rest : List Char} (h : EndsNumber rest) :
    (Numeral.render n ++ rest).span Char.isDigit = (Numeral.render n, rest) := by
  have hdigits : ∀ c ∈ Numeral.render n, c.isDigit = true :=
    fun _ => Numeral.isDigit_of_mem_render
  rw [List.span_eq_takeWhile_dropWhile, List.takeWhile_append_of_pos hdigits,
    List.dropWhile_append_of_pos hdigits]
  cases rest with
  | nil => rw [List.takeWhile_nil, List.dropWhile_nil, List.append_nil]
  | cons c rest =>
    have hc : ¬c.isDigit = true := by simp [(h c rfl).1]
    rw [List.takeWhile_cons_of_neg hc, List.dropWhile_cons_of_neg hc, List.append_nil]

theorem le_ofDigitChars (acc : Nat) (cs : List Char) : acc ≤ Nat.ofDigitChars 10 cs acc := by
  induction cs generalizing acc with
  | nil => exact Nat.le_refl acc
  | cons c cs ih =>
    have hstep : acc ≤ 10 * acc + (c.toNat - '0'.toNat) := by omega
    exact Nat.le_trans hstep (ih _)

/-- Digits of 64 bits are scanned to their number. -/
theorem whole_digits {acc : Nat} {cs : List Char} (h : Nat.ofDigitChars 10 cs acc < Scan.limit) :
    Scan.whole acc cs = ⟨Nat.ofDigitChars 10 cs acc, 0⟩ := by
  induction cs generalizing acc with
  | nil => rfl
  | cons c cs ih =>
    have hnext : acc * 10 + (c.toNat - '0'.toNat) = 10 * acc + (c.toNat - '0'.toNat) := by omega
    have hfits : 10 * acc + (c.toNat - '0'.toNat) < Scan.limit :=
      Nat.lt_of_le_of_lt (le_ofDigitChars _ cs) h
    rw [Scan.whole]
    simp only [hnext, if_pos hfits]
    exact ih h

theorem magnitude?_render {n : Nat} (hn : n < Scan.limit) {rest : List Char} (h : EndsNumber rest) :
    magnitude? (Numeral.render n ++ rest) = some (⟨n, 0⟩, true, rest) := by
  have hvalue : Nat.ofDigitChars 10 (Numeral.render n) 0 = n :=
    Nat.ofDigitChars_toDigits (by decide) (by decide)
  have hscan : Scan.whole 0 (Numeral.render n) = ⟨n, 0⟩ := by
    rw [whole_digits (hvalue.symm ▸ hn), hvalue]
  have hcanonical : ¬(Numeral.render n = [] ∨
      ((Numeral.render n).length > 1 ∧ (Numeral.render n).head? = some '0')) := by
    rintro (hnil | ⟨hlong, hzero⟩)
    · exact Numeral.render_ne_nil n hnil
    · exact Numeral.head?_render_of_long hlong hzero
  rw [magnitude?, span_render n h]
  simp only [if_neg hcanonical, hscan]
  cases rest with
  | nil => rfl
  | cons c rest =>
    obtain ⟨-, hpoint, he, hE⟩ := h c rfl
    have hexponent : ¬(c = 'e' ∨ c = 'E') := fun heq => heq.elim he hE
    split
    · next hnone =>
      split at hnone
      · next heq => exact absurd (List.cons.inj heq).1 hpoint
      · cases hnone
    · next scan whole after hsome =>
      split at hsome
      · next heq => exact absurd (List.cons.inj heq).1 hpoint
      · cases hsome
        exact if_neg hexponent

theorem number?_of_unsigned {cs rest : List Char} {scan : Scan} {n : Int}
    (hsign : cs.head? ≠ some '-') (hscan : magnitude? cs = some (scan, true, rest))
    (hn : integer? false scan = some n) : number? cs = some (.int n, rest) := by
  rw [number?.eq_def]
  split
  · next negative body hbody =>
    split at hbody
    · exact absurd rfl hsign
    · cases hbody
      simp only [hscan, if_true, hn]

theorem number?_of_signed {cs rest : List Char} {scan : Scan} {n : Int}
    (hscan : magnitude? cs = some (scan, true, rest)) (hn : integer? true scan = some n) :
    number? ('-' :: cs) = some (.int n, rest) := by
  simp only [number?, hscan, if_true, hn]

/-- The integers of 64 bits, signed or not. -/
def IsWord (n : Int) : Prop := -(UInt64.size / 2 : Int) ≤ n ∧ n < UInt64.size

theorem isWord_ofNat {n : Nat} (h : n < UInt64.size) : IsWord n := by
  rw [IsWord]
  omega

theorem number?_renderInt {n : Int} (hn : IsWord n) {rest : List Char} (h : EndsNumber rest) :
    number? (Numeral.renderInt n ++ rest) = some (.int n, rest) := by
  obtain ⟨hlow, hhigh⟩ := hn
  have hlimit : Scan.limit = UInt64.size := rfl
  cases n with
  | ofNat n =>
    have hhigh : (n : Int) < UInt64.size := hhigh
    obtain ⟨c, cs, hdigits⟩ := List.exists_cons_of_ne_nil (Numeral.render_ne_nil n)
    have hc : c.isDigit = true :=
      Numeral.isDigit_of_mem_render (hdigits.symm ▸ List.mem_cons_self)
    have hsign : (Numeral.render n ++ rest).head? ≠ some '-' := by
      rw [hdigits]
      rintro ⟨⟩
      exact absurd hc (by decide)
    exact number?_of_unsigned hsign (magnitude?_render (by omega) h) rfl
  | negSucc n =>
    have hlow : -(UInt64.size / 2 : Int) ≤ -((n + 1 : Nat) : Int) := hlow
    have hhalf : n + 1 ≤ UInt64.size / 2 := by omega
    refine number?_of_signed (magnitude?_render (n := n + 1) (by omega) h) ?_
    rw [integer?, if_neg (fun hne => hne rfl), if_pos rfl]
    exact if_pos ⟨Nat.succ_pos n, hhalf⟩

end FlowProbe.Json
