import Mathlib.Data.Nat.Digits.Defs

/-! # Decimal texts of numbers

A number is known by the text that `toString` writes for it: digits, behind a sign if the number is
negative.
-/

theorem Nat.toString_injective : Function.Injective (toString : ℕ → String) := by
  intro a b same
  have digits : toDigits 10 a = toDigits 10 b := by
    rw [← toList_repr, ← toList_repr, ← toString_eq_repr, ← toString_eq_repr, same]
  rw [← ofDigitChars_ten_toDigits (n := a), digits, ofDigitChars_ten_toDigits]

theorem Nat.toList_toString (n : ℕ) : (toString n).toList = toDigits 10 n := by
  rw [toString_eq_repr, toList_repr]

theorem Nat.isDigit_of_mem_toString {n : ℕ} {c : Char} (member : c ∈ (toString n).toList) : c.isDigit := by
  rw [toList_toString] at member
  exact isDigit_of_mem_toDigits (by decide) (by decide) member

theorem Int.toList_toString (v : ℤ) : (toString v).toList =
    if v < 0 then '-' :: (toString v.natAbs).toList else (toString v.natAbs).toList := by
  cases v with
  | ofNat n => rfl
  | negSucc n =>
    rw [if_pos (Int.negSucc_lt_zero n)]
    change ("-" ++ toString (n + 1)).toList = _
    rw [String.toList_append]
    rfl

/-- The text of an integer holds digits and at most a sign. -/
theorem Int.isDigit_or_sign_of_mem_toString {v : ℤ} {c : Char} (member : c ∈ (toString v).toList) :
    c.isDigit ∨ c = '-' := by
  rw [toList_toString] at member
  split at member
  · rcases List.mem_cons.mp member with sign | digit
    · exact .inr sign
    · exact .inl (Nat.isDigit_of_mem_toString digit)
  · exact .inl (Nat.isDigit_of_mem_toString member)
