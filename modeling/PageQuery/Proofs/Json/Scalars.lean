import PageQuery.Json.Printer
import PageQuery.Proofs.Json.Regular
import PageQuery.Proofs.Text.Numeral

/-!
# Reading strings and numbers back

A string is read up to its closing quote, so what stands behind it does not matter.  A number
has no end of its own; it is read in the same way wherever it stands, as long as it is not
followed by something that it could go on with.
-/

namespace PageQuery.Json

/-! Strings -/

theorem codeUnit?_controlDigits {c : Char} (hc : c.toNat < 32) :
    codeUnit? '0' '0' (Nat.digitChar (c.toNat / 16)) (Nat.digitChar (c.toNat % 16)) =
      some c.toNat :=
  (by decide : ∀ n < 32,
    codeUnit? '0' '0' (Nat.digitChar (n / 16)) (Nat.digitChar (n % 16)) = some n) c.toNat hc

/-- A character that has been escaped, or had no need to, is read as itself. -/
theorem stringBody_escape (c : Char) (rest : List Char) :
    stringBody (escape c ++ rest) = (stringBody rest).map fun read => (c :: read.1, read.2) := by
  fun_cases escape c with
  | case1 hquote | case2 _ hquote | case5 _ _ _ _ hquote | case6 _ _ _ _ _ hquote
  | case7 _ _ _ _ _ _ hquote =>
      subst hquote
      rfl
  | case3 _ _ hcode =>
      obtain rfl : c = Char.ofNat 8 := Char.toNat_inj.mp hcode
      rfl
  | case4 _ _ _ hcode =>
      obtain rfl : c = Char.ofNat 12 := Char.toNat_inj.mp hcode
      rfl
  | case8 _ _ _ _ _ _ _ hcontrol =>
      have hleading : isLeading c.toNat = false := by simp [isLeading]; omega
      have htrailing : isTrailing c.toNat = false := by simp [isTrailing]; omega
      have hunit := codeUnit?_controlDigits hcontrol
      simp only [controlDigits, List.cons_append, List.nil_append]
      rw [stringBody, hunit]
      simp only [hleading, htrailing, Char.ofNat_toNat]
      rfl
  | case9 hquote hbackslash _ _ _ _ _ hcontrol =>
      have hplain : ¬ (c = '\\' ∨ c.toNat < 32) := not_or.mpr ⟨hbackslash, hcontrol⟩
      rw [List.singleton_append, stringBody, if_neg hplain]
      · exact hquote
      · exact fun _ _ _ _ _ hc => absurd hc hbackslash
      · exact fun _ _ hc => absurd hc hbackslash

/-- A string that is written is read back. -/
theorem stringBody_text (s : List Char) (rest : List Char) :
    stringBody (s.flatMap escape ++ '"' :: rest) = some (s, rest) := by
  induction s with
  | nil => rfl
  | cons c s ih =>
      rw [List.flatMap_cons, List.append_assoc, stringBody_escape, ih]
      rfl

/-! Numbers in their place -/

/-- Nothing that a number could go on with. -/
def Stops (rest : List Char) : Prop :=
  ∀ c ∈ rest.head?, c.isDigit = false ∧ c ≠ '.' ∧ c ≠ 'e' ∧ c ≠ 'E'

/-- A reader that leaves what stands behind its text as it is, and does not look at it if it
is nothing that a number could go on with. -/
structure Local {α : Type} (read : Reader α) : Prop where
  suffix {cs : List Char} {a : α} {rest : List Char} : read cs = some (a, rest) → rest <:+ cs
  append {cs : List Char} {a : α} {rest more : List Char} :
    read cs = some (a, rest) → Stops more → read (cs ++ more) = some (a, rest ++ more)

/-- Digits are read up to the first other character. -/
theorem digits_append (cs : List Char) {more : List Char} (hmore : Stops more) :
    digits (cs ++ more) = ((digits cs).1, (digits cs).2 ++ more) := by
  induction cs with
  | nil =>
      cases more with
      | nil => rfl
      | cons c rest =>
          have hc : ¬ c.isDigit = true := by simp [(hmore c rfl).1]
          simp [digits, List.takeWhile_cons_of_neg hc, List.dropWhile_cons_of_neg hc]
  | cons c cs ih =>
      by_cases hc : c.isDigit = true
      · simp only [digits, List.cons_append, List.takeWhile_cons_of_pos hc,
          List.dropWhile_cons_of_pos hc, List.map_cons, Prod.mk.injEq] at ih ⊢
        exact ⟨congrArg _ ih.1, ih.2⟩
      · simp [digits, List.takeWhile_cons_of_neg hc, List.dropWhile_cons_of_neg hc]

theorem digits_suffix (cs : List Char) : (digits cs).2 <:+ cs := List.dropWhile_suffix _

theorem local_ofParts (negative : Bool) (significand : Nat) (exponent : Int) :
    Local fun cs => (ofParts negative significand exponent).map fun v => (v, cs) where
  suffix hread := by
    obtain ⟨v, -, hpair⟩ := Option.map_eq_some_iff.mp hread
    cases hpair
    exact List.suffix_rfl
  append hread _ := by
    obtain ⟨v, hv, hpair⟩ := Option.map_eq_some_iff.mp hread
    cases hpair
    exact Option.map_eq_some_iff.mpr ⟨_, hv, rfl⟩

theorem local_exponentDigits (negative : Bool) (significand : Nat) (start : Int) (down : Bool) :
    Local (exponentDigits negative significand start down) where
  suffix {cs a rest} hread := by
    rw [exponentDigits] at hread
    split at hread
    · cases hread
    · obtain ⟨v, -, hpair⟩ := Option.map_eq_some_iff.mp hread
      cases hpair
      exact digits_suffix cs
  append {cs a rest more} hread hmore := by
    rw [exponentDigits] at hread ⊢
    rw [digits_append cs hmore]
    split at hread
    · cases hread
    · rename_i hdigits
      obtain ⟨v, hv, hpair⟩ := Option.map_eq_some_iff.mp hread
      cases hpair
      rw [if_neg hdigits, hv]
      rfl

theorem exponentSign_suffix (cs : List Char) : (exponentSign cs).2 <:+ cs := by
  fun_cases exponentSign cs with
  | case1 rest | case2 rest => exact List.suffix_cons ..
  | case3 cs => exact List.suffix_rfl

theorem exponentSign_append {cs : List Char} (hcs : cs ≠ []) (more : List Char) :
    exponentSign (cs ++ more) = ((exponentSign cs).1, (exponentSign cs).2 ++ more) := by
  fun_cases exponentSign cs with
  | case1 rest | case2 rest => rfl
  | case3 cs hplus hminus =>
      obtain ⟨c, rest, rfl⟩ := List.exists_cons_of_ne_nil hcs
      rw [List.cons_append, exponentSign]
      · exact fun _ hc => hplus rest (by cases hc; rfl)
      · exact fun _ hc => hminus rest (by cases hc; rfl)

/-- An exponent is read without a look at what follows. -/
theorem local_exponentPart (negative : Bool) (significand : Nat) (start : Int) :
    Local (exponentPart negative significand start) where
  suffix {cs a rest} hread := by
    rw [exponentPart_eq] at hread
    exact ((local_exponentDigits ..).suffix hread).trans (exponentSign_suffix cs)
  append {cs a rest more} hread hmore := by
    have hcs : cs ≠ [] := by
      rintro rfl
      cases hread
    rw [exponentPart_eq] at hread ⊢
    rw [exponentSign_append hcs]
    exact (local_exponentDigits ..).append hread hmore

theorem append_ne_cons {cs more : List Char} {c : Char} (hcs : ∀ rest, cs = c :: rest → False)
    (hmore : more.head? ≠ some c) : ∀ rest, cs ++ more = c :: rest → False := by
  intro rest happend
  cases cs with
  | nil => exact hmore (by rw [List.nil_append] at happend; rw [happend]; rfl)
  | cons d cs =>
      cases happend
      exact hcs cs rfl

theorem head?_append_iff {cs more : List Char} {c : Char} (hmore : more.head? ≠ some c) :
    (cs ++ more).head? = some c ↔ cs.head? = some c := by
  cases cs with
  | nil => exact ⟨fun hhead => absurd hhead hmore, nofun⟩
  | cons d cs => exact Iff.rfl

theorem Stops.head?_ne {rest : List Char} (hrest : Stops rest) :
    rest.head? ≠ some '.' ∧ rest.head? ≠ some 'e' ∧ rest.head? ≠ some 'E' :=
  ⟨fun hc => (hrest _ hc).2.1 rfl, fun hc => (hrest _ hc).2.2.1 rfl,
    fun hc => (hrest _ hc).2.2.2 rfl⟩

theorem local_realEnd (negative : Bool) (significand : Nat) (exponent : Int) :
    Local (realEnd negative significand exponent) where
  suffix {cs a rest} hread := by
    simp only [realEnd] at hread
    split at hread
    · exact ((local_exponentPart ..).suffix hread).trans (List.suffix_cons ..)
    · exact ((local_exponentPart ..).suffix hread).trans (List.suffix_cons ..)
    · exact (local_ofParts ..).suffix hread
  append {cs a rest more} hread hmore := by
    rw [realEnd.eq_def] at hread
    split at hread
    · exact (local_exponentPart ..).append hread hmore
    · exact (local_exponentPart ..).append hread hmore
    · rename_i hlower hupper
      rw [realEnd]
      · exact (local_ofParts ..).append hread hmore
      · exact append_ne_cons hlower hmore.head?_ne.2.1
      · exact append_ne_cons hupper hmore.head?_ne.2.2

theorem local_decimalPart (negative : Bool) (significand : Nat) (exponent : Int) :
    Local (decimalPart negative significand exponent) where
  suffix {cs a rest} hread := by
    simp only [decimalPart] at hread
    split at hread
    · cases hread
    · exact ((local_realEnd ..).suffix hread).trans (digits_suffix cs)
  append {cs a rest more} hread hmore := by
    simp only [decimalPart, digits_append cs hmore] at hread ⊢
    split at hread
    · cases hread
    · rename_i hdigits
      rw [if_neg hdigits]
      exact (local_realEnd ..).append hread hmore

theorem local_unsigned (negative : Bool) : Local (unsigned negative) where
  suffix {cs a rest} hread := by
    simp only [unsigned] at hread
    split at hread
    · cases hread
    · split at hread
      · rename_i behind hpoint
        have hbehind : behind <:+ cs :=
          (List.suffix_cons '.' behind).trans (hpoint ▸ digits_suffix cs)
        exact ((local_decimalPart ..).suffix hread).trans hbehind
      · split at hread
        · cases hread
          exact digits_suffix cs
        · exact ((local_realEnd ..).suffix hread).trans (digits_suffix cs)
  append {cs a rest more} hread hmore := by
    simp only [unsigned, digits_append cs hmore] at hread ⊢
    split at hread
    · cases hread
    · rename_i hdigits
      rw [if_neg hdigits]
      split at hread
      · rename_i behind hpoint
        rw [hpoint]
        exact (local_decimalPart ..).append hread hmore
      · rename_i hpoint
        have hstops := hmore.head?_ne
        split
        · rename_i happend
          exact (append_ne_cons hpoint hstops.1 _ happend).elim
        · simp only [ne_eq, head?_append_iff hstops.2.1, head?_append_iff hstops.2.2]
          split at hread
          · rename_i hwhole
            cases hread
            exact if_pos hwhole
          · rename_i hwhole
            rw [if_neg hwhole]
            exact (local_realEnd ..).append hread hmore

/-- A number is read without a look at what follows it. -/
theorem local_number : Local number where
  suffix {cs a rest} hread := by
    rw [number.eq_def] at hread
    split at hread
    · exact ((local_unsigned ..).suffix hread).trans (List.suffix_cons ..)
    · exact (local_unsigned ..).suffix hread
  append {cs a rest more} hread hmore := by
    rw [number.eq_def] at hread
    split at hread
    · exact (local_unsigned ..).append hread hmore
    · rename_i hminus
      rw [number]
      · exact (local_unsigned ..).append hread hmore
      · intro rest happend
        cases cs with
        | nil => cases hread
        | cons c cs =>
            cases happend
            exact hminus cs rfl

/-! Integers -/

theorem decimal_ne_nil (n : Nat) : Numeral.decimal n ≠ [] := by
  rw [Numeral.decimal_eq_toDigits]
  exact Nat.toDigits_ne_nil

theorem isDigit_of_mem_decimal {n : Nat} {c : Char} (hc : c ∈ Numeral.decimal n) :
    c.isDigit = true := by
  rw [Numeral.decimal_eq_toDigits] at hc
  exact Nat.isDigit_of_mem_toDigits (by decide) (by decide) hc

/-- Only the numeral of zero begins with a zero. -/
theorem head?_decimal_ne {n : Nat} (hn : n ≠ 0) : (Numeral.decimal n).head? ≠ some '0' := by
  rw [Numeral.decimal_eq_toDigits]
  induction n using Nat.strongRecOn with
  | ind n ih =>
      by_cases hsmall : n < 10
      · rw [Nat.toDigits_of_lt_base hsmall]
        exact (by decide : ∀ n < 10, n ≠ 0 → [n.digitChar].head? ≠ some '0') n hsmall hn
      · have hfront := ih (n / 10) (by omega) (by omega)
        obtain ⟨c, rest, hdigits⟩ :=
          List.exists_cons_of_ne_nil (Nat.toDigits_ne_nil (n := n / 10) (b := 10))
        rw [Nat.toDigits_of_base_le (by decide) (by omega), hdigits]
        rwa [hdigits] at hfront

/-- The digits of a numeral, as numbers. -/
def figures (n : Nat) : List Nat := (Numeral.decimal n).map fun c => c.toNat - '0'.toNat

/-- The digits of a numeral are read in full. -/
theorem digits_decimal (n : Nat) : digits (Numeral.decimal n) = (figures n, []) := by
  have hall : ∀ c ∈ Numeral.decimal n, c.isDigit = true := fun c hc => isDigit_of_mem_decimal hc
  have htake : (Numeral.decimal n ++ []).takeWhile Char.isDigit = Numeral.decimal n ++ [] :=
    List.takeWhile_append_of_pos hall
  have hdrop : (Numeral.decimal n ++ []).dropWhile Char.isDigit = [] :=
    List.dropWhile_append_of_pos hall
  rw [List.append_nil] at htake hdrop
  rw [digits, htake, hdrop]
  rfl

theorem le_foldl_figures (significand : Nat) (ds : List Nat) :
    significand ≤ ds.foldl (fun n d => 10 * n + d) significand := by
  induction ds generalizing significand with
  | nil => exact Nat.le_refl _
  | cons d rest ih =>
      have hle := ih (10 * significand + d)
      rw [List.foldl_cons]
      omega

/-- A significand that fits takes in all digits. -/
theorem collect_eq {limit significand : Nat} {ds : List Nat}
    (hfits : ds.foldl (fun n d => 10 * n + d) significand ≤ limit) :
    collect limit significand ds =
      (ds.foldl (fun n d => 10 * n + d) significand, ds.length) := by
  induction ds generalizing significand with
  | nil => rfl
  | cons d rest ih =>
      have hle := le_foldl_figures (10 * significand + d) rest
      rw [List.foldl_cons] at hfits
      rw [collect, if_neg (by omega), ih hfits]
      rfl

/-- The figures of a numeral add up to its number. -/
theorem foldl_figures (n : Nat) : (figures n).foldl (fun n d => 10 * n + d) 0 = n := by
  rw [figures, List.foldl_map, Numeral.decimal_eq_toDigits]
  exact Nat.ofDigitChars_ten_toDigits

/-- A numeral has no leading zeros. -/
theorem figures_canonical (n : Nat) :
    ¬ ((figures n).isEmpty = true ∨ (figures n).head? = some 0 ∧ 1 < (figures n).length) := by
  have hnonempty : (figures n).isEmpty = false := by
    simpa [figures] using decimal_ne_nil n
  by_cases hzero : n = 0
  · subst hzero
    decide
  · have hhead : (figures n).head? ≠ some 0 := by
      obtain ⟨c, rest, hdigits⟩ := List.exists_cons_of_ne_nil (decimal_ne_nil n)
      have hc : c.isDigit = true := isDigit_of_mem_decimal (hdigits ▸ List.mem_cons_self)
      have hne := head?_decimal_ne hzero
      rw [hdigits] at hne
      rw [figures, hdigits]
      intro hfigure
      have hlow : 48 ≤ c.toNat := (Char.isDigit_iff_toNat.mp hc).1
      have hvalue : c.toNat - 48 = 0 := Option.some.inj hfigure
      have hhigh : c.toNat ≤ 48 := Nat.sub_eq_zero_iff_le.mp hvalue
      have hchar : c = '0' := Char.toNat_inj.mp (Nat.le_antisymm hhigh hlow)
      exact hne (congrArg some hchar)
    simp [hnonempty, hhead]

/-- A numeral within the range is read as its number. -/
theorem unsigned_decimal {n : Nat} (hn : n ≤ maxInteger) (negative : Bool) :
    unsigned negative (Numeral.decimal n) = some (ofWhole negative n, []) := by
  have hfits : (figures n).foldl (fun n d => 10 * n + d) 0 ≤ maxInteger := by rwa [foldl_figures]
  have hcollect := collect_eq hfits
  rw [foldl_figures] at hcollect
  simp only [unsigned, digits_decimal, hcollect, Nat.sub_self]
  rw [if_neg (figures_canonical n)]
  rfl

/-- An integer in range is read back wherever a number ends behind it. -/
theorem number_signed {n : Int} (hlow : -0x8000000000000000 ≤ n)
    (hhigh : n ≤ 0xFFFFFFFFFFFFFFFF) {rest : List Char} (hrest : Stops rest) :
    number (Numeral.signed n ++ rest) = some (.integer n, rest) := by
  have hfits : n.natAbs ≤ maxInteger := by
    rw [maxInteger]
    omega
  suffices hnumber : number (Numeral.signed n) = some (.integer n, []) from
    local_number.append hnumber hrest
  rw [Numeral.signed]
  split
  · rename_i hnegative
    have hwhole : ofWhole true n.natAbs = .integer n := by
      have hrange : ¬ (n.natAbs = 0 ∨ 0x8000000000000000 < n.natAbs) := by omega
      have hvalue : (-(n.natAbs : Int)) = n := by omega
      rw [ofWhole, if_pos rfl, if_neg hrange, hvalue]
    rw [number, unsigned_decimal hfits, hwhole]
  · rename_i hnonnegative
    have hwhole : ofWhole false n.natAbs = .integer n := congrArg Json.integer (by omega)
    rw [number, unsigned_decimal hfits, hwhole]
    · intro rest hsign
      have hdigit : '-'.isDigit = true := isDigit_of_mem_decimal (hsign ▸ List.mem_cons_self)
      cases hdigit

end PageQuery.Json
