import Mathlib
import PageQuery.Proofs.Json.Scalars
import PageQuery.Proofs.Sql.Quotation
import PageQuery.Proofs.Sql.Rendering
import PageQuery.Proofs.Sql.Token
import PageQuery.Sql.Literal

/-!
# Reading constants back

Text is written into a statement only if its characters are harmless, and then it stands
there as it is.  None of these characters ends a quotation or escapes anything, so the
constant says the same under all settings of a database.  Main statement: a literal of text
is bound or reads back as this text, and a literal of an integer reads back as this integer.
-/

namespace PageQuery.Sql

/-- Letters and digits of ASCII, and a few other characters. -/
def IsHarmless (c : Char) : Prop :=
  ('A' ≤ c ∧ c ≤ 'Z') ∨ ('a' ≤ c ∧ c ≤ 'z') ∨ ('0' ≤ c ∧ c ≤ '9') ∨
    c ∈ ['-', '_', '@', '!', ' ']

theorem isSafeChar_iff {c : Char} : isSafeChar c = true ↔ IsHarmless c := by
  simp only [isSafeChar, IsHarmless, Char.isAlphanum, Char.isAlpha, Char.isUpper, Char.isLower,
    Char.isDigit, Bool.or_eq_true, Bool.and_eq_true, decide_eq_true_eq, ge_iff_le,
    List.mem_cons, List.not_mem_nil, or_false, Char.le_def, or_assoc]

/-- A text is written out exactly if all its characters are harmless. -/
theorem isSafeText_iff {s : String} : isSafeText s = true ↔ ∀ c ∈ s.toList, IsHarmless c := by
  simp only [isSafeText, List.all_eq_true, isSafeChar_iff]

instance : DecidablePred IsHarmless := fun _ => decidable_of_iff _ isSafeChar_iff

theorem IsHarmless.ne {c d : Char} (hc : IsHarmless c) (hd : ¬ IsHarmless d) : c ≠ d :=
  fun hsame => hd (hsame ▸ hc)

/-- Harmless text has nothing that ends a quotation, and no backslash. -/
theorem plain_of_harmless {s : String} (hs : ∀ c ∈ s.toList, IsHarmless c) :
    ∀ c ∈ s.toList, c ≠ '\'' ∧ c ≠ '\\' :=
  fun c hc => ⟨(hs c hc).ne (by decide), (hs c hc).ne (by decide)⟩

/-- Quotation marks go around the text and nothing is escaped. -/
theorem toList_quoted (s : String) : (quoted s).toList = '\'' :: (s.toList ++ ['\'']) := by
  simp [quoted, String.toList_append]

/-! Literals as statements -/

/-- Verbatim text compiles to itself. -/
theorem compile_raw {s : String} (hs : Char.ofNat 0 ∉ s.toList) :
    compile [.raw s] = .ok ⟨s, []⟩ := by
  have hsound : (Node.raw s).Sound := hs
  exact compile_singleton hsound

/-- A value compiles to its placeholder. -/
theorem compile_value (param : Param) : compile [.value param] = .ok ⟨"$1", [param]⟩ := rfl

theorem nul_notMem_quoted {s : String} (hs : Char.ofNat 0 ∉ s.toList) :
    Char.ofNat 0 ∉ (quoted s).toList := by
  simp [toList_quoted, hs]

theorem nul_notMem_harmless {s : String} (hs : ∀ c ∈ s.toList, IsHarmless c) :
    Char.ofNat 0 ∉ s.toList := fun hnul => (hs _ hnul).ne (by decide) rfl

/-- A harmless text is quoted and takes no parameter. -/
theorem compile_literal_harmless {s : String} (hs : ∀ c ∈ s.toList, IsHarmless c) :
    compile [literal (.text s)] = .ok ⟨quoted s, []⟩ := by
  rw [literal, if_pos (isSafeText_iff.mpr hs)]
  exact compile_raw (nul_notMem_quoted (nul_notMem_harmless hs))

/-- Any other text is bound. -/
theorem compile_literal_bound {s : String} (hs : ¬ ∀ c ∈ s.toList, IsHarmless c) :
    compile [literal (.text s)] = .ok ⟨"$1", [.text (some s)]⟩ := by
  rw [literal, if_neg (mt isSafeText_iff.mp hs)]
  exact compile_value _

/-! Integers -/

theorem signed_eq_toString (n : Int) : String.ofList (Numeral.signed n) = toString n := by
  have hdecimal (m : Nat) : String.ofList (Numeral.decimal m) = m.repr := by
    rw [← Nat.toString_eq_repr, ← Numeral.text_eq_toString, Numeral.text]
  rw [Int.toString_eq_repr, Int.repr_eq_if, Numeral.signed]
  by_cases hn : n < 0
  · have habs : n.natAbs = (-n).toNat := by omega
    rw [if_pos hn, if_neg (by omega), ← List.singleton_append, String.ofList_append, hdecimal,
      habs]
  · have habs : n.natAbs = n.toNat := by omega
    rw [if_neg hn, if_pos (by omega), hdecimal, habs]

theorem nul_notMem_decimal (n : Nat) : Char.ofNat 0 ∉ Numeral.decimal n := fun hnul =>
  absurd (Json.isDigit_of_mem_decimal hnul) (by decide)

theorem nul_notMem_signed (n : Int) : Char.ofNat 0 ∉ Numeral.signed n := by
  rw [Numeral.signed]
  split
  · exact List.not_mem_cons_of_ne_of_not_mem (by decide) (nul_notMem_decimal _)
  · exact nul_notMem_decimal _

/-- Integers are written out in decimal, with their sign. -/
theorem compile_literal_integer (n : Int) :
    compile [literal (.integer n)] = .ok ⟨toString n, []⟩ := by
  rw [literal, ← signed_eq_toString]
  refine compile_raw ?_
  rw [String.toList_ofList]
  exact nul_notMem_signed n

theorem compile_literal_natural (n : Nat) :
    compile [literal (.natural n)] = .ok ⟨toString n, []⟩ := by
  rw [literal, ← Numeral.text_eq_toString]
  refine compile_raw ?_
  rw [Numeral.text, String.toList_ofList]
  exact nul_notMem_decimal n

/-! Reading back -/

/-- The value of a text constant in one quotation, and the text behind it.  That another one
may go on with the constant, behind a line break, is a matter of tokens. -/
def textConstant? (escape : Escape) : List Char → Option (String × List Char)
  | '\'' :: rest =>
    (quotation '\'' escape rest).map fun (value, rest) => (String.ofList value, rest)
  | _ => none

/-- The database reads the quoted text back, under both escape settings. -/
theorem textConstant?_quoted {s : String} (hs : ∀ c ∈ s.toList, IsHarmless c) (escape : Escape)
    {rest : List Char} (hrest : rest.head? ≠ some '\'') :
    textConstant? escape ((quoted s).toList ++ rest) = some (s, rest) := by
  rw [toList_quoted, List.cons_append, List.append_assoc, List.singleton_append, textConstant?,
    quotation_plain (plain_of_harmless hs) hrest, Option.map_some]
  exact congrArg (fun value => some (value, rest)) String.ofList_toList

/-- The quoted text is a single token. -/
theorem tokens?_quoted {s : String} (hs : ∀ c ∈ s.toList, IsHarmless c) (escapes : Bool) :
    tokens? escapes (quoted s).toList = some [stringToken ('\'' :: s.toList)] := by
  have hopen : Scan.between.step escapes '\'' = ([], .quoted .plain ['\'']) := rfl
  rw [tokens?, Scan.tokens?, toList_quoted, Scan.run_cons, hopen,
    Scan.run_quoted_closed .plain ['\''] (plain_of_harmless hs)]
  rfl

/-- Text is bound, or it is written into the statement as a constant.  It is written if and
only if all of its characters are letters and digits of ASCII or one of `-`, `_`, `@`, `!` and
the blank.  Then it is one string, and whatever backslashes mean and whatever but a quotation
mark stands behind it, the quotation ends at its last character and says the text.  Integers
are written as their decimal numerals. -/
theorem compile_literal_denotes :
    (∀ s : String,
      (compile [literal (.text s)] = .ok ⟨"$1", [.text (some s)]⟩ ∨
        compile [literal (.text s)] = .ok ⟨quoted s, []⟩) ∧
      (compile [literal (.text s)] = .ok ⟨quoted s, []⟩ ↔ ∀ c ∈ s.toList, IsHarmless c) ∧
      (compile [literal (.text s)] = .ok ⟨quoted s, []⟩ →
        (∀ escapes, tokens? escapes (quoted s).toList = some [stringToken ('\'' :: s.toList)]) ∧
        ∀ escape rest, rest.head? ≠ some '\'' →
          textConstant? escape ((quoted s).toList ++ rest) = some (s, rest))) ∧
      (∀ n : Int, compile [literal (.integer n)] = .ok ⟨toString n, []⟩ ∧
        (toString n).toInt? = some n) ∧
      ∀ n : Nat, compile [literal (.natural n)] = .ok ⟨toString n, []⟩ ∧
        (toString n).toNat? = some n := by
  refine ⟨fun s => ?_, fun n => ⟨compile_literal_integer n, ?_⟩,
    fun n => ⟨compile_literal_natural n, ?_⟩⟩
  · have hiff : compile [literal (.text s)] = .ok ⟨quoted s, []⟩ ↔
        ∀ c ∈ s.toList, IsHarmless c := by
      refine ⟨fun hwritten => ?_, compile_literal_harmless⟩
      by_contra hs
      simp [compile_literal_bound hs] at hwritten
    refine ⟨?_, hiff, fun hwritten => ?_⟩
    · by_cases hs : ∀ c ∈ s.toList, IsHarmless c
      · exact .inr (compile_literal_harmless hs)
      · exact .inl (compile_literal_bound hs)
    · have hs := hiff.mp hwritten
      exact ⟨tokens?_quoted hs, fun escape rest => textConstant?_quoted hs escape⟩
  · rw [Int.toString_eq_repr, Int.toInt?_repr]
  · rw [Nat.toString_eq_repr, Nat.toNat?_repr]

/-- Backslashes escape here: each takes the character behind it with it. -/
def Escape.single : Escape
  | [] => none
  | c :: _ => some ([c], 1)

theorem compile_literal_denotes_phrase :
    compile [literal (.text "a-b @c!")] = .ok ⟨"'a-b @c!'", []⟩ ∧
      tokens? true "'a-b @c!'".toList = some [⟨.string, "'a-b @c!'".toList⟩] ∧
      textConstant? .single ("'a-b @c!'" ++ " or b = '\\''").toList =
        some ("a-b @c!", " or b = '\\''".toList) ∧
      compile [literal (.text "it's")] = .ok ⟨"$1", [.text (some "it's")]⟩ ∧
      compile [literal (.integer (-9223372036854775808))] = .ok ⟨"-9223372036854775808", []⟩ ∧
      "-9223372036854775808".toInt? = some (-9223372036854775808) := by
  have hphrase := compile_literal_denotes.1 "a-b @c!"
  have hquestion := compile_literal_denotes.1 "it's"
  have hinteger := compile_literal_denotes.2.1 (-9223372036854775808)
  have hwritten : compile [literal (.text "a-b @c!")] = .ok ⟨quoted "a-b @c!", []⟩ :=
    hphrase.2.1.mpr (isSafeText_iff.mp rfl)
  have hbound : ¬ compile [literal (.text "it's")] = .ok ⟨quoted "it's", []⟩ := fun hsafe =>
    absurd (isSafeText_iff.mpr (hquestion.2.1.mp hsafe)) (by decide)
  obtain ⟨htokens, hread⟩ := hphrase.2.2 hwritten
  refine ⟨hwritten, htokens true, ?_, hquestion.1.resolve_right hbound, hinteger.1, hinteger.2⟩
  rw [String.toList_append]
  exact hread .single _ (by decide)

end PageQuery.Sql
