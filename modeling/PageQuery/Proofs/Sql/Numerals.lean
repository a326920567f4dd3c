import Mathlib
import PageQuery.Proofs.Json.Scalars
import PageQuery.Proofs.Sql.Numbering

/-!
# Numerals in compiled text

Placeholders and local names hold the numeral of their number.  A numeral is a run of digits
without a zero in front, and each number has one only.  Main statement: every 64-bit number
finds room for its digits, what is written is its numeral and nothing else, and so different
numbers print differently.
-/

namespace PageQuery

namespace Numeral

/-- The digits find room exactly if the number is below the power of ten for that many places:
the place to write to never runs out before the number does. -/
theorem isSome_fill_iff {room : Nat} (hroom : 0 < room) (n : Nat) (done : List Char) :
    (fill room n done).isSome = true ↔ n < 10 ^ room := by
  induction room generalizing n done with
  | zero => cases hroom
  | succ room ih =>
      rw [fill]
      split
      · have hsmall : n < 10 ^ 1 := by omega
        exact iff_of_true rfl
          (Nat.lt_of_lt_of_le hsmall (Nat.pow_le_pow_right (by decide) hroom))
      · have hlarge : 10 ^ 1 ≤ n := by omega
        cases room with
        | zero => exact iff_of_false (by simp [fill]) (Nat.not_lt.mpr hlarge)
        | succ room =>
            rw [ih (Nat.succ_pos room), Nat.div_lt_iff_lt_mul (by decide), ← Nat.pow_succ]

/-- The largest 64-bit number does not fit into nineteen places. -/
example : fill 19 (2 ^ 64 - 1) [] = none := by decide

/-- The characters are the decimal numeral of the number. -/
structure Canonical (digits : List Char) (n : Nat) : Prop where
  isDigit : ∀ c ∈ digits, c.isDigit = true
  nonempty : digits ≠ []
  noZero : digits.head? = some '0' → digits = ['0']
  value : ofDecimal digits = n

theorem ofDecimal_concat (front : List Char) (c : Char) :
    ofDecimal (front ++ [c]) = 10 * ofDecimal front + (c.toNat - '0'.toNat) := by
  rw [ofDecimal, List.foldl_append]
  rfl

theorem ofDecimal_decimal (n : Nat) : ofDecimal (decimal n) = n := by
  rw [decimal_eq_toDigits]
  exact Nat.ofDigitChars_toDigits (by decide) (by decide)

theorem canonical_decimal (n : Nat) : Canonical (decimal n) n where
  isDigit _ hc := Json.isDigit_of_mem_decimal hc
  nonempty := Json.decimal_ne_nil n
  noZero hzero := by
    by_cases hn : n = 0
    · rw [hn]
      rfl
    · exact absurd hzero (Json.head?_decimal_ne hn)
  value := ofDecimal_decimal n

/-- A digit is the one for its value. -/
theorem digitChar_of_isDigit {c : Char} (hc : c.isDigit = true) :
    c.toNat - '0'.toNat < 10 ∧ Nat.digitChar (c.toNat - '0'.toNat) = c := by
  have hzero : '0'.toNat = 48 := rfl
  have hnine : '9'.toNat = 57 := rfl
  obtain ⟨hlow, hhigh⟩ := Char.isDigit_iff_toNat.mp hc
  have hsmall : c.toNat - '0'.toNat < 10 := by omega
  refine ⟨hsmall, Char.toNat_inj.mp ?_⟩
  rw [Nat.toNat_digitChar_of_lt_ten hsmall]
  omega

/-- The digits in front of the last one are the numeral of the tenth part. -/
theorem Canonical.front {front : List Char} {c : Char} {n : Nat} (h : Canonical (front ++ [c]) n)
    (hfront : front ≠ []) : Canonical front (n / 10) ∧ front.head? ≠ some '0' := by
  obtain ⟨hlast, -⟩ := digitChar_of_isDigit (h.isDigit c (by simp))
  have hvalue := h.value
  rw [ofDecimal_concat] at hvalue
  have hhead : front.head? ≠ some '0' := by
    intro hzero
    have hwhole := h.noZero (by rw [List.head?_append_of_ne_nil _ hfront, hzero])
    have hlength := congrArg List.length hwhole
    have hsome := List.length_pos_iff.mpr hfront
    simp only [List.length_append, List.length_singleton] at hlength
    omega
  exact ⟨⟨fun d hd => h.isDigit d (List.mem_append_left _ hd), hfront, (absurd · hhead), by omega⟩,
    hhead⟩

/-- A number has one numeral. -/
theorem Canonical.eq_decimal {digits : List Char} {n : Nat} (h : Canonical digits n) :
    digits = decimal n := by
  induction digits using List.reverseRecOn generalizing n with
  | nil => exact absurd rfl h.nonempty
  | append_singleton front c ih =>
      obtain ⟨hsmall, hdigit⟩ := digitChar_of_isDigit (h.isDigit c (by simp))
      have hvalue := h.value
      rw [ofDecimal_concat] at hvalue
      by_cases hfront : front = []
      · subst hfront
        have hn : c.toNat - '0'.toNat = n := (Nat.zero_add _).symm.trans hvalue
        rw [hn] at hsmall hdigit
        rw [decimal_eq_toDigits, Nat.toDigits_of_lt_base hsmall, hdigit, List.nil_append]
      · obtain ⟨htenth, hhead⟩ := h.front hfront
        have hdecimal := ih htenth
        -- Only the numeral of zero begins with a zero, so there is a tenth part.
        have hlarge : 10 ≤ n := by
          by_contra hless
          rw [hdecimal, Nat.div_eq_of_lt (Nat.not_le.mp hless)] at hhead
          exact hhead rfl
        have hlast : n % 10 = c.toNat - '0'.toNat := by omega
        rw [decimal_eq_toDigits, Nat.toDigits_of_base_le (by decide) hlarge, hlast, hdigit,
          ← decimal_eq_toDigits, ← hdecimal]

theorem text_injective : Function.Injective text := by
  intro m n htext
  have hvalue := congrArg ofDecimal (String.ofList_inj.mp htext)
  rwa [ofDecimal_decimal, ofDecimal_decimal] at hvalue

/-- Every 64-bit number finds room. -/
theorem fill_places {n : Nat} (hn : n < 2 ^ 64) : fill places n [] = some (decimal n) := by
  have hroom : n < 10 ^ places := hn.trans (by decide)
  obtain ⟨digits, hfill⟩ := Option.isSome_iff_exists.mp
    ((isSome_fill_iff (by decide) n []).mpr hroom)
  rw [hfill, decimal, hfill, Option.getD_some]

theorem length_decimal_le {n : Nat} (hn : n < 2 ^ 64) : (decimal n).length ≤ places := by
  rw [decimal_eq_toDigits, Nat.length_toDigits_le_iff (by decide) (by decide)]
  exact hn.trans (by decide)

end Numeral

namespace Sql

open Numeral (fill places Canonical)

theorem placeholder_injective : Function.Injective placeholder := fun _ _ hsame =>
  Numeral.text_injective (String.append_right_inj _ |>.mp hsame)

/-- The digits of a 64-bit number find room, they are its numeral, the only one that it has, and
nothing else is written in a placeholder or a local name; so no other number prints the same. -/
theorem numerals_exact {n : Nat} (hn : n < 2 ^ 64) :
    ∃ digits, fill places n [] = some digits ∧ digits.length ≤ places ∧ Canonical digits n ∧
      (∀ others, Canonical others n → others = digits) ∧
      placeholder n = "$" ++ String.ofList digits ∧
      localName n = "__local_" ++ String.ofList digits ++ "__" ∧
      ∀ m, (placeholder m = placeholder n ↔ m = n) ∧ (localName m = localName n ↔ m = n) :=
  ⟨Numeral.decimal n, Numeral.fill_places hn, Numeral.length_decimal_le hn,
    Numeral.canonical_decimal n, fun _ hothers => hothers.eq_decimal, rfl, rfl,
    fun _ => ⟨placeholder_injective.eq_iff, localName_injective.eq_iff⟩⟩

/-- The largest 64-bit number takes all places. -/
theorem numerals_exact_largest : 2 ^ 64 - 1 < 2 ^ 64 ∧
    ∃ digits, fill places (2 ^ 64 - 1) [] = some digits ∧ digits.length ≤ places ∧
      Canonical digits (2 ^ 64 - 1) ∧ (∀ others, Canonical others (2 ^ 64 - 1) → others = digits) ∧
      placeholder (2 ^ 64 - 1) = "$" ++ String.ofList digits ∧
      localName (2 ^ 64 - 1) = "__local_" ++ String.ofList digits ++ "__" ∧
      ∀ m, (placeholder m = placeholder (2 ^ 64 - 1) ↔ m = 2 ^ 64 - 1) ∧
        (localName m = localName (2 ^ 64 - 1) ↔ m = 2 ^ 64 - 1) :=
  ⟨by decide, numerals_exact (by decide)⟩

end Sql

end PageQuery
