/-
  The decimal digits of a number.
-/
import Mathlib.Order.Basic

set_option autoImplicit false

namespace RefundStudy.Foundation

theorem toDigits_isDigit (number : Nat) : ∀ c ∈ Nat.toDigits 10 number, c.isDigit = true :=
  fun _ hmem => Nat.isDigit_of_mem_toDigits (by omega) (by omega) hmem

theorem toDigits_head_ne_zero {number : Nat} (h : 0 < number) :
    ∃ first rest, Nat.toDigits 10 number = first :: rest ∧ first ≠ '0' := by
  induction number using Nat.strongRecOn with
  | ind number ih =>
    by_cases hsmall : number < 10
    · have hdigit : ∀ digit : Fin 10, 0 < digit.val → Nat.digitChar digit.val ≠ '0' := by decide
      exact ⟨_, _, Nat.toDigits_of_lt_base hsmall, hdigit ⟨number, hsmall⟩ h⟩
    · obtain ⟨first, rest, hfirst, hne⟩ := ih (number / 10) (by omega) (by omega)
      refine ⟨first, rest ++ [Nat.digitChar (number % 10)], ?_, hne⟩
      rw [Nat.toDigits_of_base_le (by omega) (by omega), hfirst, List.cons_append]

end RefundStudy.Foundation
