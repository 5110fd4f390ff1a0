import FlowProbe.Text.Numeral

/-! The one spelling of a number.

No zero leads the digits of a number but its own (`head?_render`), so the spelling that is written
is the canonical one (`canonical?_render`). -/
namespace FlowProbe.Numeral

theorem head?_render {n : Nat} (h : 0 < n) : (render n).head? ≠ some '0' := by
  induction n using Nat.strongRecOn with
  | ind n ih =>
    by_cases hsmall : n < 10
    · have hdigit : ∀ n < 10, 0 < n → n.digitChar ≠ '0' := by decide
      rw [render, Nat.toDigits_of_lt_base hsmall, List.head?_cons]
      exact fun heq => hdigit n hsmall h (Option.some.inj heq)
    · obtain ⟨c, cs, hfront⟩ := List.exists_cons_of_ne_nil (render_ne_nil (n / 10))
      have hfront' := ih (n / 10) (by omega) (by omega)
      rw [hfront] at hfront'
      rw [render] at hfront ⊢
      rw [Nat.toDigits_of_base_le (by decide) (by omega), hfront]
      exact hfront'

/-- More than one digit is written of a number with another first digit than zero. -/
theorem head?_render_of_long {n : Nat} (h : 1 < (render n).length) :
    (render n).head? ≠ some '0' := by
  cases n with
  | zero => exact absurd h (by decide)
  | succ n => exact head?_render (Nat.succ_pos n)

theorem canonical?_render (n : Nat) : canonical? (render n) = some n := by
  rw [canonical?.eq_def]
  split
  · next c cs hzero =>
    refine absurd ?_ (head?_render_of_long (n := n) ?_)
    · rw [hzero]
      rfl
    · rw [hzero, List.length_cons, List.length_cons]
      omega
  · exact value?_render n

theorem exists_renderInt_eq_cons (n : Int) :
    ∃ c cs, renderInt n = c :: cs ∧ (c.isDigit = true ∨ c = '-') := by
  cases n with
  | ofNat n =>
    obtain ⟨c, cs, hdigits⟩ := List.exists_cons_of_ne_nil (render_ne_nil n)
    exact ⟨c, cs, hdigits, .inl (isDigit_of_mem_render (hdigits ▸ List.mem_cons_self))⟩
  | negSucc n => exact ⟨'-', _, rfl, .inr rfl⟩

end FlowProbe.Numeral
