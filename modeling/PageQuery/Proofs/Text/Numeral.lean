import PageQuery.Numeral

/-!
# Numerals that are filled from the right

The digits of a number are filled into their places from the right, the last digit first.
What stands there in the end is the decimal numeral of the number, whatever its length, with
no zeros in front.
-/

namespace PageQuery.Numeral

/-- The digits that have been filled in are those of the number, in front of what stood there. -/
theorem eq_of_fill {room n : Nat} {done digits : List Char}
    (hfill : fill room n done = some digits) : digits = Nat.toDigits 10 n ++ done := by
  induction room generalizing n done with
  | zero => cases hfill
  | succ room ih =>
      have hlast : Nat.toDigits 10 (n % 10) = [Nat.digitChar (n % 10)] :=
        Nat.toDigits_of_lt_base (Nat.mod_lt n (by decide))
      rw [fill] at hfill
      split at hfill
      · have hsmall : n % 10 = n := by omega
        cases hfill
        rw [hsmall] at hlast ⊢
        rw [hlast]
        rfl
      · have hsplit : Nat.toDigits 10 (n / 10) ++ Nat.toDigits 10 (n % 10) = Nat.toDigits 10 n := by
          rw [Nat.toDigits_append_toDigits (by decide) (by omega) (by omega), Nat.div_add_mod]
        rw [ih hfill, ← hsplit, hlast, List.append_assoc]
        rfl

theorem decimal_eq_toDigits (n : Nat) : decimal n = Nat.toDigits 10 n := by
  rw [decimal]
  cases hfill : fill places n [] with
  | none => rfl
  | some digits => exact (eq_of_fill hfill).trans (List.append_nil _)

theorem text_eq_toString (n : Nat) : text n = toString n := by
  rw [text, decimal_eq_toDigits, Nat.toString_eq_repr, ← Nat.toList_repr, String.ofList_toList]

end PageQuery.Numeral
