import Mathlib.Algebra.BigOperators.Group.List.Basic
import Mathlib.RingTheory.Int.Basic

/-!
# Check digits modulo 11

A check digit is the negated weighted sum of the digits modulo 11, with 0 for what
has no digit. One wrong digit shows, but where the sum goes between 0 and 1.
-/

namespace CheckDigits

def weigh (weights digits : List Nat) : Nat := (List.zipWith (· * ·) digits weights).sum

def checkDigit (sum : Nat) : Nat := if sum % 11 < 2 then 0 else 11 - sum % 11

theorem checkDigit_eq_iff (s t : Nat) :
    checkDigit s = checkDigit t ↔ s % 11 = t % 11 ∨ (s % 11 < 2 ∧ t % 11 < 2) := by
  unfold checkDigit
  split <;> split <;> omega

theorem weigh_set (weights : List Nat) : ∀ (digits : List Nat) (i c : Nat), i < digits.length → i < weights.length →
    weigh weights (digits.set i c) + digits.getD i 0 * weights.getD i 0 =
      weigh weights digits + c * weights.getD i 0 := by
  induction weights with
  | nil => exact fun _ _ _ _ h => absurd h (Nat.not_lt_zero _)
  | cons w weights ih =>
    intro digits i c hi hw
    cases digits with
    | nil => exact absurd hi (Nat.not_lt_zero _)
    | cons d digits =>
      cases i with
      | zero =>
        simp only [weigh, List.set_cons_zero, List.zipWith_cons_cons, List.sum_cons, List.getD_cons_zero]
        omega
      | succ i =>
        have := ih digits i c (Nat.lt_of_succ_lt_succ hi) (Nat.lt_of_succ_lt_succ hw)
        simp only [weigh, List.set_cons_succ, List.zipWith_cons_cons, List.sum_cons, List.getD_cons_succ] at this ⊢
        omega

/-- A digit past the weights does not count. -/
theorem weigh_set_of_le (weights : List Nat) : ∀ (digits : List Nat) (i c : Nat), weights.length ≤ i →
    weigh weights (digits.set i c) = weigh weights digits := by
  induction weights with
  | nil => simp [weigh]
  | cons w weights ih =>
    intro digits i c hi
    cases digits with
    | nil => rfl
    | cons d digits =>
      cases i with
      | zero => exact absurd hi (by simp)
      | succ i =>
        have := ih digits i c (Nat.le_of_succ_le_succ hi)
        simp only [weigh, List.set_cons_succ, List.zipWith_cons_cons, List.sum_cons] at this ⊢
        omega

/-- Another digit in a place of weight prime to 11 gives another remainder. -/
theorem weigh_set_mod_ne {weights digits : List Nat} {i c : Nat} (hi : i < digits.length) (hw : i < weights.length)
    (hweight : ¬ 11 ∣ weights.getD i 0) (hd : digits.getD i 0 < 10) (hc : c < 10) (hne : c ≠ digits.getD i 0) :
    weigh weights (digits.set i c) % 11 ≠ weigh weights digits % 11 := by
  intro hmod
  have hset := weigh_set weights digits i c hi hw
  generalize digits.getD i 0 = d at hset hd hne
  generalize weights.getD i 0 = w at hset hweight
  have hdvd : (11 : Int) ∣ ((c : Int) - d) * w := by
    have hcast : (weigh weights (digits.set i c) : Int) + d * w = weigh weights digits + c * w := by exact_mod_cast hset
    rw [Int.sub_mul]
    generalize (c : Int) * w = cw at hcast ⊢
    generalize (d : Int) * w = dw at hcast ⊢
    omega
  rcases Int.Prime.dvd_mul' (by decide : Nat.Prime 11) hdvd with h | h
  · omega
  · exact hweight (by exact_mod_cast h)

theorem checkDigit_set_iff (weights digits : List Nat) (i c : Nat) (hi : i < digits.length) (hw : i < weights.length)
    (hweight : ¬ 11 ∣ weights.getD i 0) (hd : digits.getD i 0 < 10) (hc : c < 10) (hne : c ≠ digits.getD i 0) :
    checkDigit (weigh weights (digits.set i c)) = checkDigit (weigh weights digits) ↔
      weigh weights digits % 11 < 2 ∧ weigh weights (digits.set i c) % 11 < 2 := by
  rw [checkDigit_eq_iff, or_iff_right (weigh_set_mod_ne hi hw hweight hd hc hne)]
  exact And.comm

end CheckDigits
