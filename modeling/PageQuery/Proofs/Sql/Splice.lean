import PageQuery.Proofs.Json.RoundTrip
import PageQuery.Proofs.Sql.Boundary
import PageQuery.Proofs.Sql.Constant

/-!
# Literals behind other text

A literal is written into a statement without a look at what stands in front of it.  Main
statement: at the end of an operator, behind a parenthesis, a comma or a blank, this is right
for all words and all numbers without a sign, and it is wrong for a negative number exactly if
an operator takes the minus sign or a comment begins with it, and for a constant in quotation
marks exactly if its mark goes on with what stands in front.
-/

namespace PageQuery.Sql

/-! Literals -/

/-- What stands in front takes a part of the literal: a minus sign becomes part of an operator
or opens a comment, or a quotation mark does not open a string of its own. -/
def Clashes (q : Scan) : LiteralValue → Prop
  | .integer n => n < 0 ∧ (q.openRun.getLast? = some '-' ∨ q.openRun.any isExtra = true)
  | .float _ => q.TakesQuote
  | .text _ => q.TakesQuote
  | _ => False

theorem figure_of_mem_floatText {x : Binary64} {c : Char} (hc : c ∈ floatText x) :
    c.isDigit = true ∨ Json.IsMark c := by
  simp only [floatText] at hc
  split at hc
  all_goals
    obtain hc | hc := List.mem_append.mp hc
    · split at hc
      · exact .inr (.inl (List.mem_singleton.mp hc))
      · cases hc
  · exact .inl (List.mem_singleton.mp hc ▸ rfl)
  · exact (Json.figured_positional _ (by simp)).all c hc

theorem notMem_floatText {x : Binary64} {c : Char} (hc : ¬ (c.isDigit = true ∨ Json.IsMark c)) :
    c ∉ floatText x := fun hmem => hc (figure_of_mem_floatText hmem)

/-- A number has no quotation marks in it. -/
theorem plain_floatText (x : Binary64) : ∀ c ∈ floatText x, c ≠ '\'' ∧ c ≠ '\\' := by
  refine fun c hc => ⟨?_, ?_⟩ <;> rintro rfl <;> refine notMem_floatText ?_ hc <;>
    simp [Json.IsMark]

theorem eq_of_literal_float {x : Binary64} {s : String} (hv : literal (.float x) = .raw s) :
    s = quoted (String.ofList (floatText x)) ++ "::float8" := by
  rw [literal] at hv
  split at hv
  · exact (Node.raw.inj hv).symm
  · cases hv

/-- Only harmless texts are written out. -/
theorem harmless_of_literal_text {value s : String} (hv : literal (.text value) = .raw s) :
    (∀ c ∈ value.toList, IsHarmless c) ∧ s = quoted value := by
  rw [literal] at hv
  split at hv
  · rename_i hsafe
    exact ⟨isSafeText_iff.mp hsafe, (Node.raw.inj hv).symm⟩
  · cases hv

/-- No constant has a character in it that a statement must not have. -/
theorem nul_notMem_literal {v : LiteralValue} {s : String} (hv : literal v = .raw s) :
    Char.ofNat 0 ∉ s.toList := by
  cases v with
  | null =>
      cases hv
      decide
  | bool value => cases value <;> cases hv <;> decide
  | integer n =>
      cases hv
      rw [String.toList_ofList]
      exact nul_notMem_signed n
  | natural n =>
      cases hv
      rw [Numeral.text, String.toList_ofList]
      exact nul_notMem_decimal n
  | float x =>
      obtain rfl := eq_of_literal_float hv
      have hbody : Char.ofNat 0 ∉ (String.ofList (floatText x)).toList := by
        rw [String.toList_ofList]
        exact notMem_floatText (by simp [Json.IsMark])
      rw [String.toList_append, List.mem_append, not_or]
      exact ⟨nul_notMem_quoted hbody, by decide⟩
  | text value =>
      obtain ⟨hvalue, rfl⟩ := harmless_of_literal_text hv
      exact nul_notMem_quoted (nul_notMem_harmless hvalue)

/-- A literal that is written into the text compiles to what is written. -/
theorem compile_literal {v : LiteralValue} {s : String} (hv : literal v = .raw s) :
    compile [literal v] = .ok ⟨s, []⟩ := by
  rw [hv]
  exact compile_raw (nul_notMem_literal hv)

theorem tokens?_cast (escapes : Bool) (quote : Quote) (text : List Char) :
    (Scan.quotedMark quote text).tokens? escapes "::float8".toList =
      some [stringToken text, ⟨.mark, "::".toList⟩, ⟨.word, "float8".toList⟩] := by
  have hcast : tokens? escapes "::float8".toList =
      some [⟨.mark, "::".toList⟩, ⟨.word, "float8".toList⟩] := by
    cases escapes <;> rfl
  have hclosed : (Scan.quotedMark quote text).tokens? escapes "::float8".toList =
      (tokens? escapes "::float8".toList).map ([stringToken text] ++ ·) :=
    Scan.tokens?_of_close rfl rfl _
  rw [hclosed, hcast]
  rfl

theorem isDigit_decimal (n : Nat) : ∀ c ∈ Numeral.decimal n, c.isDigit = true :=
  fun _ hc => Json.isDigit_of_mem_decimal hc

section

variable {q : Scan} (escapes : Bool) (hq : q.AtBoundary)

include hq

/-- Every boundary keeps a word apart. -/
theorem tokens?_word {c : Char} {cs : List Char} (hc : Scan.Inert c)
    (hown : tokens? escapes (c :: cs) = some [⟨.word, c :: cs⟩]) :
    ∃ own, tokens? escapes (c :: cs) = some own ∧
      (q.tokens? escapes (c :: cs) = some (q.settled ++ operatorTokens q.openRun ++ own) ↔
        ¬ False) :=
  ⟨_, hown, iff_of_true (Scan.tokens?_of_inert hq hc hown) id⟩

theorem tokens?_decimal (n : Nat) :
    ∃ own, tokens? escapes (Numeral.decimal n) = some own ∧
      (q.tokens? escapes (Numeral.decimal n) =
        some (q.settled ++ operatorTokens q.openRun ++ own) ↔ ¬ False) :=
  ⟨_, Scan.tokens?_digits (isDigit_decimal n) (Json.decimal_ne_nil n) escapes,
    iff_of_true (Scan.tokens?_digits_behind (isDigit_decimal n) (Json.decimal_ne_nil n) hq) id⟩

/-- The tokens of a literal alone, and when they are also its tokens behind other text. -/
theorem tokens?_literal {v : LiteralValue} {s : String} (hv : literal v = .raw s) :
    ∃ own, tokens? escapes s.toList = some own ∧
      (q.tokens? escapes s.toList = some (q.settled ++ operatorTokens q.openRun ++ own) ↔
        ¬ Clashes q v) := by
  cases v with
  | null =>
      cases hv
      exact tokens?_word escapes hq ⟨rfl, rfl, by decide, by decide⟩ (by cases escapes <;> rfl)
  | bool value =>
      cases value <;> cases hv <;>
        exact tokens?_word escapes hq ⟨rfl, rfl, by decide, by decide⟩
          (by cases escapes <;> rfl)
  | natural n =>
      cases hv
      rw [Numeral.text, String.toList_ofList]
      exact tokens?_decimal escapes hq n
  | integer n =>
      cases hv
      rw [String.toList_ofList, Numeral.signed]
      split
      · rename_i hn
        have hdigits := isDigit_decimal n.natAbs
        have hne := Json.decimal_ne_nil n.natAbs
        refine ⟨_, Scan.tokens?_negative escapes hdigits hne, ?_⟩
        rw [Scan.tokens?_negative_iff hq hdigits hne, Clashes, and_iff_right hn]
      · rename_i hn
        obtain ⟨own, hown, hkeeps⟩ := tokens?_decimal escapes hq n.natAbs
        exact ⟨own, hown, hkeeps.trans (not_congr (iff_of_false id fun h => hn h.1))⟩
  | float x =>
      obtain rfl := eq_of_literal_float hv
      rw [String.toList_append, toList_quoted, String.toList_ofList]
      exact ⟨_, Scan.tokens?_quotation_iff escapes hq (plain_floatText x) (tokens?_cast escapes)⟩
  | text value =>
      obtain ⟨hvalue, rfl⟩ := harmless_of_literal_text hv
      have hquotation := Scan.tokens?_quotation_iff escapes hq (plain_of_harmless hvalue)
        fun quote text => Scan.tokens?_nil escapes (.quotedMark quote text)
      rw [List.append_nil, ← toList_quoted] at hquotation
      exact ⟨_, hquotation⟩

end

/-! Behind other text -/

/-- A text with these tokens, which ends in a boundary and outside of comments, strings and
quoted names. -/
structure Ready (escapes : Bool) (text : List Char) (tokens : List Token) : Prop where
  reads : tokens? escapes text = some tokens
  outside : (Scan.between.run escapes text).2.Outside
  boundary : ∃ c, text.getLast? = some c ∧ isBoundary c = true

theorem Ready.atBoundary {escapes : Bool} {text : List Char} {tokens : List Token}
    (hready : Ready escapes text tokens) : (Scan.between.run escapes text).2.AtBoundary := by
  obtain ⟨c, hlast, hc⟩ := hready.boundary
  have houtside := hready.outside
  have hfinish : (Scan.between.run escapes text).2.finish.isSome := by
    rw [← Option.isSome_map]
    exact Option.isSome_of_eq_some hready.reads
  rw [← List.dropLast_append_getLast? c hlast, Scan.run_append] at hfinish houtside ⊢
  exact Scan.atBoundary_step hc hfinish houtside

theorem Ready.tokens_eq {escapes : Bool} {text : List Char} {tokens : List Token}
    (hready : Ready escapes text tokens) :
    tokens = (Scan.between.run escapes text).1 ++
      ((Scan.between.run escapes text).2.settled ++
        operatorTokens (Scan.between.run escapes text).2.openRun) := by
  have hreads := hready.reads
  rw [tokens?, Scan.tokens?, Scan.finish_of_atBoundary hready.atBoundary] at hreads
  exact (Option.some.inj hreads).symm

theorem rendered_raw (number : AliasToken → Nat) (values : Nat) (s : String) :
    rendered number values [.raw s] = s := by
  rw [rendered_cons]
  exact String.append_empty

/-- A literal that is written behind a text that is ready for it keeps its tokens, and the text
keeps its own, unless the number is negative and the text ends in a minus sign or in an
operator with a character that standard SQL has no operators of, or the literal is quoted and
the text ends in the word `u` and an ampersand, or in a string and blanks with a line break. -/
theorem literal_keeps_tokens_iff {escapes : Bool} {f : Fragment} {front : Compiled}
    {tokens : List Token} {v : LiteralValue} {s : String} (hfront : compile f = .ok front)
    (hready : Ready escapes front.text.toList tokens) (hv : literal v = .raw s) :
    ∃ own, compile [literal v] = .ok ⟨s, []⟩ ∧ tokens? escapes s.toList = some own ∧
      ∃ whole, compile (f ++ [literal v]) = .ok whole ∧ whole.text = front.text ++ s ∧
        (tokens? escapes whole.text.toList = some (tokens ++ own) ↔
          ¬ Clashes (Scan.between.run escapes front.text.toList).2 v) := by
  obtain ⟨own, hown, hkeeps⟩ := tokens?_literal escapes hready.atBoundary hv
  have hliteral := compile_literal hv
  refine ⟨own, hliteral, hown, ⟨front.text ++ s, front.params ++ []⟩, ?_, rfl, ?_⟩
  · rw [compile_append, hfront, hliteral, hv]
    simp only [rendered_raw]
    rfl
  · have hcancel (done later : List Token) (read : Option (List Token)) :
        read.map (done ++ ·) = some (done ++ later) ↔ read = some later := by
      cases read <;> simp
    rw [String.toList_append, tokens?, Scan.tokens?_append, ← hkeeps, hready.tokens_eq,
      List.append_assoc, hcancel]

theorem literal_keeps_tokens_comparison :
    Ready false "where a <".toList
        [⟨.word, "where".toList⟩, ⟨.word, "a".toList⟩, ⟨.operator, ['<']⟩] ∧
      compile [.raw "where a <", literal (.integer (-5))] = .ok ⟨"where a <-5", []⟩ ∧
      tokens? false "where a <-5".toList = some [⟨.word, "where".toList⟩, ⟨.word, "a".toList⟩,
        ⟨.operator, ['<']⟩, ⟨.operator, ['-']⟩, ⟨.number, ['5']⟩] := by
  have hready : Ready false "where a <".toList
      [⟨.word, "where".toList⟩, ⟨.word, "a".toList⟩, ⟨.operator, ['<']⟩] :=
    ⟨rfl, trivial, '<', rfl, rfl⟩
  have hfront : compile [.raw "where a <"] = .ok ⟨"where a <", []⟩ := rfl
  have hclash : ¬ Clashes (.operator ['<']) (.integer (-5)) := by
    rintro ⟨-, hlast | hextra⟩
    · cases hlast
    · cases hextra
  obtain ⟨own, -, hown, whole, hwhole, htext, hkeeps⟩ :=
    literal_keeps_tokens_iff hfront hready (v := .integer (-5)) rfl
  have halone : tokens? false "-5".toList = some [⟨.operator, ['-']⟩, ⟨.number, ['5']⟩] := rfl
  have hread := hkeeps.mpr hclash
  rw [htext, Option.some.inj (hown.symm.trans halone)] at hread
  have hcompiled : compile [.raw "where a <", literal (.integer (-5))] =
      .ok ⟨"where a <-5", []⟩ := rfl
  exact ⟨hready, hcompiled, hread⟩

/-- Behind a minus sign, a negative number opens a comment. -/
theorem literal_opens_comment :
    Ready false "select 1 -".toList
        [⟨.word, "select".toList⟩, ⟨.number, ['1']⟩, ⟨.operator, ['-']⟩] ∧
      compile [.raw "select 1 -", literal (.integer (-5))] = .ok ⟨"select 1 --5", []⟩ ∧
      compile [literal (.integer (-5))] = .ok ⟨"-5", []⟩ ∧
      tokens? false "-5".toList = some [⟨.operator, ['-']⟩, ⟨.number, ['5']⟩] ∧
      tokens? false "select 1 --5".toList =
        some [⟨.word, "select".toList⟩, ⟨.number, ['1']⟩] ∧
      tokens? false "select 1 --5".toList ≠
        some ([⟨.word, "select".toList⟩, ⟨.number, ['1']⟩, ⟨.operator, ['-']⟩] ++
          [⟨.operator, ['-']⟩, ⟨.number, ['5']⟩]) := by
  have hread : tokens? false "select 1 --5".toList =
      some [⟨.word, "select".toList⟩, ⟨.number, ['1']⟩] := rfl
  refine ⟨⟨rfl, trivial, '-', rfl, rfl⟩, rfl, rfl, rfl, hread, ?_⟩
  rw [hread]
  decide

end PageQuery.Sql
