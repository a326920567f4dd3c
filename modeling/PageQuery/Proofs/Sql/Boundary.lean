import PageQuery.Proofs.Sql.Token

/-!
# The end of a text

Where a text ends in an operator character, a parenthesis, a comma or a blank, and not inside a
comment or a quotation, little can be open: operator characters, a string that may go on in a
further quotation, or the letter and the ampersand in front of one with Unicode escapes.  Main
statements: letters and digits behind such a text leave its tokens as they are; a minus sign
does so unless an operator takes it or it opens a comment; and a quotation mark does so
unless it goes on with what is open.
-/

namespace PageQuery.Sql

/-! Boundaries -/

/-- An operator character, a parenthesis, a comma or a blank. -/
def isBoundary (c : Char) : Bool := isOperatorChar c || ['(', ')', ','].contains c || isSpace c

theorem ascii_of_isBoundary {c : Char} (hc : isBoundary c = true) : c.toNat < 128 := by
  simp only [isBoundary, isOperatorChar, isExtra, isSign, isSpace, isNewline,
    List.contains_iff_mem, List.mem_cons, List.not_mem_nil, or_false, Bool.or_eq_true,
    decide_eq_true_eq, ← Char.toNat_inj, Char.reduceToNat] at hc
  omega

/-- What a boundary is not. -/
structure Apart (c : Char) : Prop where
  start : isWordStart c = false
  word : isWordChar c = false
  digit : c.isDigit = false
  quote : c ≠ '\''
  name : c ≠ '"'
  dot : c ≠ '.'
  colon : c ≠ ':'
  dollar : c ≠ '$'

theorem apart_of_isBoundary {c : Char} (hc : isBoundary c = true) : Apart c := by
  have hall : ∀ n < 128, isBoundary (Char.ofNat n) = true →
      isWordStart (Char.ofNat n) = false ∧ isWordChar (Char.ofNat n) = false ∧
        (Char.ofNat n).isDigit = false ∧ Char.ofNat n ≠ '\'' ∧ Char.ofNat n ≠ '"' ∧
        Char.ofNat n ≠ '.' ∧ Char.ofNat n ≠ ':' ∧ Char.ofNat n ≠ '$' := by
    decide +kernel
  obtain ⟨hstart, hword, hdigit, hquote, hname, hdot, hcolon, hdollar⟩ :=
    hall c.toNat (ascii_of_isBoundary hc) (by rwa [Char.ofNat_toNat])
  rw [Char.ofNat_toNat] at *
  exact ⟨hstart, hword, hdigit, hquote, hname, hdot, hcolon, hdollar⟩

namespace Scan

variable {escapes : Bool} {q : Scan} {c : Char}

/-- What is open is no comment, string or quoted name. -/
def Outside : Scan → Prop
  | .lineComment => False
  | .blockComment _ _ => False
  | .body _ _ => False
  | .name _ => False
  | .quoted _ _ => False
  | .backslash _ _ => False
  | .gapComment _ _ => False
  | _ => True

/-- What may be open behind a boundary: nothing, operator characters, or a string that could
go on in a further quotation. -/
def AtBoundary : Scan → Prop
  | .between => True
  | .ampersand _ => True
  | .operator _ => True
  | .gap _ _ _ => True
  | .gapDash _ _ => True
  | _ => False

theorem atBoundary_start (hc : isBoundary c = true) : (start c).2.AtBoundary := by
  have hapart := apart_of_isBoundary hc
  simp only [start, hapart.start, hapart.digit, hapart.quote, hapart.name, hapart.dot,
    hapart.colon, hapart.dollar, if_false, Bool.false_eq_true]
  split
  · trivial
  · split <;> trivial

/-- A run of operator characters that goes on and is no comment is such a run again. -/
theorem atBoundary_runOn {run : List Char} {next : List Token × Scan}
    (hrun : runOn run c = some next) (houtside : next.2.Outside) : next.2.AtBoundary := by
  simp only [runOn] at hrun
  split at hrun
  · cases hrun
    exact houtside.elim
  · split at hrun
    · cases hrun
      exact houtside.elim
    · split at hrun
      · cases hrun
        trivial
      · cases hrun

theorem atBoundary_commentOn {depth : Nat} {last : Option Char}
    (houtside : (commentOn depth last c).Outside) : (commentOn depth last c).AtBoundary := by
  unfold commentOn at *
  split at houtside
  · exact houtside.elim
  · rename_i hopens
    rw [if_neg hopens]
    split at houtside
    · rename_i hcloses
      rw [if_pos hcloses]
      cases depth with
      | zero => trivial
      | succ depth => exact houtside.elim
    · exact houtside.elim

theorem atBoundary_goOn (hc : isBoundary c = true) {next : List Token × Scan}
    (hgo : q.goOn escapes c = some next) (hfinish : next.2.finish.isSome)
    (houtside : next.2.Outside) : next.2.AtBoundary := by
  have hapart := apart_of_isBoundary hc
  cases q with
  | between => cases hgo
  | word text =>
      simp only [goOn, hapart.word, hapart.quote, if_false, Bool.false_eq_true] at hgo
      split at hgo <;> cases hgo
      trivial
  | ampersand letter =>
      simp only [goOn, hapart.quote, hapart.name, if_false] at hgo
      obtain ⟨read, hrun, rfl⟩ := Option.map_eq_some_iff.mp hgo
      have hread : read.2.AtBoundary := atBoundary_runOn hrun houtside
      exact hread
  | dot => simp [goOn, hapart.digit, hapart.dot] at hgo
  | colon =>
      simp only [goOn] at hgo
      split at hgo <;> cases hgo
      trivial
  | number text =>
      simp only [goOn, numberOn, hapart.start, hapart.digit, hapart.dot, if_false, Bool.or_false,
        Bool.false_eq_true] at hgo
      split at hgo <;> cases hgo
      cases hfinish
  | exponent text =>
      simp only [goOn, hapart.digit, if_false, Bool.false_eq_true] at hgo
      cases hgo
      cases hfinish
  | dollar tag => simp [goOn, hapart.dollar, hapart.digit, hapart.start] at hgo
  | parameter text => simp [goOn, hapart.digit, hapart.start] at hgo
  | operator run => exact atBoundary_runOn hgo houtside
  | lineComment =>
      simp only [goOn] at hgo
      split at hgo <;> cases hgo
      · trivial
      · exact houtside.elim
  | blockComment depth last =>
      cases hgo
      exact atBoundary_commentOn houtside
  | body tag text =>
      simp only [goOn] at hgo
      split at hgo <;> cases hgo
      · trivial
      · exact houtside.elim
  | name text =>
      simp only [goOn, hapart.name, if_false] at hgo
      cases hgo
      exact houtside.elim
  | nameMark text => simp [goOn, hapart.name] at hgo
  | quoted quote text =>
      simp only [goOn, hapart.quote, if_false] at hgo
      split at hgo <;> cases hgo <;> exact houtside.elim
  | backslash quote text =>
      cases hgo
      exact houtside.elim
  | quotedMark quote text | gap quote text newline =>
      simp only [goOn, hapart.quote, false_and, if_false] at hgo
      split at hgo
      · cases hgo
        trivial
      · split at hgo <;> cases hgo
        trivial
  | gapDash quote text =>
      simp only [goOn] at hgo
      split at hgo
      · cases hgo
        exact houtside.elim
      · obtain ⟨read, hrun, rfl⟩ := Option.map_eq_some_iff.mp hgo
        have hread : read.2.AtBoundary := atBoundary_runOn hrun houtside
        exact hread
  | gapComment quote text =>
      simp only [goOn] at hgo
      split at hgo <;> cases hgo
      · trivial
      · exact houtside.elim
  | fault =>
      cases hgo
      cases hfinish

/-- A step outside of quotations ends at a boundary, if its character is one. -/
theorem atBoundary_step (hc : isBoundary c = true)
    (hfinish : (q.step escapes c).2.finish.isSome) (houtside : (q.step escapes c).2.Outside) :
    (q.step escapes c).2.AtBoundary := by
  cases hgo : q.goOn escapes c with
  | some next =>
      rw [step_of_goOn hgo] at hfinish houtside ⊢
      exact atBoundary_goOn hc hgo hfinish houtside
  | none =>
      rw [step_of_close hgo, close] at hfinish ⊢
      split at hfinish
      · exact atBoundary_start hc
      · cases hfinish

/-! What is open at a boundary -/

/-- The tokens that have ended, whatever comes. -/
def settled : Scan → List Token
  | .ampersand letter => [⟨.word, [letter]⟩]
  | .gap _ text _ => [stringToken text]
  | .gapDash _ text => [stringToken text]
  | _ => []

/-- The operator characters that are open. -/
def openRun : Scan → List Char
  | .ampersand _ => ['&']
  | .operator run => run
  | .gapDash _ _ => ['-']
  | _ => []

/-- A quotation mark would not open a string of its own. -/
def TakesQuote : Scan → Prop
  | .ampersand _ => True
  | .gap _ _ newline => newline = true
  | _ => False

/-- At a boundary the open run of operators is all that is left. -/
theorem finish_of_atBoundary (hq : q.AtBoundary) :
    q.finish = some (q.settled ++ operatorTokens q.openRun) := by
  cases q <;> first | exact hq.elim | rfl

/-- As letters and digits are: no part of an operator, nor of the space behind a string. -/
structure Inert (c : Char) : Prop where
  operator : isOperatorChar c = false
  space : isSpace c = false
  quote : c ≠ '\''
  name : c ≠ '"'

theorem runOn_eq_none {run : List Char} (hc : isOperatorChar c = false) : runOn run c = none := by
  have hminus : c ≠ '-' := fun h => absurd (h ▸ hc) (by decide)
  have hstar : c ≠ '*' := fun h => absurd (h ▸ hc) (by decide)
  simp [runOn, hminus, hstar, hc]

theorem goOn_eq_none_of_inert (hq : q.AtBoundary) (hc : Inert c) : q.goOn escapes c = none := by
  have hminus : c ≠ '-' := fun h => absurd (h ▸ hc.operator) (by decide)
  cases q with
  | between => rfl
  | ampersand letter => simp [goOn, hc.quote, hc.name, runOn_eq_none hc.operator]
  | operator run => exact runOn_eq_none hc.operator
  | gap quote text newline => simp [goOn, hc.quote, hc.space, hminus]
  | gapDash quote text => simp [goOn, hminus, runOn_eq_none hc.operator]
  | _ => exact hq.elim

/-- What follows a boundary is scanned on its own, if its first character is inert. -/
theorem tokens?_of_inert (hq : q.AtBoundary) (hc : Inert c) {cs : List Char} {own : List Token}
    (hown : between.tokens? escapes (c :: cs) = some own) :
    q.tokens? escapes (c :: cs) = some (q.settled ++ operatorTokens q.openRun ++ own) := by
  rw [tokens?_of_close (goOn_eq_none_of_inert hq hc) (finish_of_atBoundary hq), hown]
  rfl

end Scan

/-! Numbers -/

section

variable {digits : List Char} (hdigits : ∀ c ∈ digits, c.isDigit = true) (hne : digits ≠ [])

include hdigits hne

theorem isFigures_of_digits : isFigures Char.isDigit digits = true := by
  fun_induction isFigures Char.isDigit digits with
  | case1 => exact absurd rfl hne
  | case2 c => exact hdigits c List.mem_cons_self
  | case3 c rest ih => exact absurd (hdigits '_' (by simp)) (by decide)
  | case4 c rest hrest hlow ih =>
      obtain ⟨hc, hothers⟩ := List.forall_mem_cons.mp hdigits
      rw [hc, ih hothers fun hnil => hrest (hnil ▸ rfl), Bool.and_self]

theorem isMantissa_of_digits : isMantissa digits = true := by
  have hpoint : ∀ c ∈ digits, (decide (c ≠ '.')) = true := fun c hc =>
    decide_eq_true fun hdot => absurd (hdot ▸ hdigits c hc) (by decide)
  have htake : digits.takeWhile (· ≠ '.') = digits := List.takeWhile_eq_self_iff.mpr hpoint
  have hdrop : digits.dropWhile (· ≠ '.') = [] := List.dropWhile_eq_nil_iff.mpr hpoint
  rw [isMantissa, htake, hdrop]
  exact isFigures_of_digits hdigits hne

/-- A run of digits is a numeral; the prefix of another radix has a letter. -/
theorem isNumeral_of_digits : isNumeral digits = true := by
  have hmark : ∀ c ∈ digits, (!isExponentMark c) = true := fun c hc => by
    have he : c ≠ 'e' := fun h => absurd (h ▸ hdigits c hc) (by decide)
    have hE : c ≠ 'E' := fun h => absurd (h ▸ hdigits c hc) (by decide)
    simp [isExponentMark, he, hE]
  unfold isNumeral
  split
  case h_7 =>
    rw [List.takeWhile_eq_self_iff.mpr hmark, List.dropWhile_eq_nil_iff.mpr hmark,
      isMantissa_of_digits hdigits hne]
    rfl
  all_goals exact absurd (hdigits _ (List.mem_cons_of_mem _ List.mem_cons_self)) (by decide)

end

namespace Scan

variable {escapes : Bool} {q : Scan} {c : Char}

theorem inert_of_isDigit (hc : c.isDigit = true) : Inert c ∧ start c = ([], .number [c]) := by
  have hall : ∀ n < 58, (Char.ofNat n).isDigit = true →
      isOperatorChar (Char.ofNat n) = false ∧ isSpace (Char.ofNat n) = false ∧
        Char.ofNat n ≠ '\'' ∧ Char.ofNat n ≠ '"' ∧
        start (Char.ofNat n) = ([], .number [Char.ofNat n]) := by
    decide +kernel
  have hbound : c.toNat < 58 := by
    have hnine : '9'.toNat = 57 := rfl
    have := Char.isDigit_iff_toNat.mp hc
    omega
  obtain ⟨hoperator, hspace, hquote, hname, hstart⟩ :=
    hall c.toNat hbound (by rwa [Char.ofNat_toNat])
  rw [Char.ofNat_toNat] at *
  exact ⟨⟨hoperator, hspace, hquote, hname⟩, hstart⟩

section

variable {digits : List Char} (hdigits : ∀ c ∈ digits, c.isDigit = true) (hne : digits ≠ [])

include hdigits hne

/-- Digits are one token. -/
theorem tokens?_digits (escapes : Bool) :
    between.tokens? escapes digits = some [⟨.number, digits⟩] := by
  obtain ⟨c, rest, rfl⟩ := List.exists_cons_of_ne_nil hne
  obtain ⟨hc, hrest⟩ := List.forall_mem_cons.mp hdigits
  rw [tokens?, run_cons, step_between, (inert_of_isDigit hc).2,
    run_number [c] hrest, List.singleton_append, finish,
    if_pos (isNumeral_of_digits hdigits hne)]
  rfl

theorem tokens?_digits_behind (hq : q.AtBoundary) :
    q.tokens? escapes digits =
      some (q.settled ++ operatorTokens q.openRun ++ [⟨.number, digits⟩]) := by
  have hown := tokens?_digits hdigits hne escapes
  obtain ⟨c, rest, rfl⟩ := List.exists_cons_of_ne_nil hne
  exact tokens?_of_inert hq (inert_of_isDigit (hdigits c List.mem_cons_self)).1 hown

end

/-! Minus signs -/

/-- Behind anything but another one, a minus sign goes on with the operator that is open. -/
theorem step_minus (escapes : Bool) (hq : q.AtBoundary) (hlast : q.openRun.getLast? ≠ some '-') :
    ∃ tokens next, q.step escapes '-' = (tokens, next) ∧ next.AtBoundary ∧
      tokens ++ next.settled = q.settled ∧ next.openRun = q.openRun ++ ['-'] := by
  cases q with
  | between => exact ⟨_, _, rfl, trivial, rfl, rfl⟩
  | ampersand letter => exact ⟨_, _, rfl, trivial, rfl, rfl⟩
  | operator run =>
      have hstep : (operator run).step escapes '-' = ([], .operator (run ++ ['-'])) := by
        rw [openRun] at hlast
        simp [step, goOn, runOn, hlast, isOperatorChar, isSign]
      exact ⟨_, _, hstep, trivial, rfl, rfl⟩
  | gap quote text newline => exact ⟨_, _, rfl, trivial, rfl, rfl⟩
  | gapDash quote text => exact absurd rfl hlast
  | _ => exact hq.elim

/-- Behind a boundary that is no minus sign the digits of a negative number are a token. -/
theorem tokens?_minus (hq : q.AtBoundary) (hlast : q.openRun.getLast? ≠ some '-')
    {digits : List Char} (hdigits : ∀ c ∈ digits, c.isDigit = true) (hne : digits ≠ []) :
    q.tokens? escapes ('-' :: digits) =
      some (q.settled ++ operatorTokens (q.openRun ++ ['-']) ++ [⟨.number, digits⟩]) := by
  obtain ⟨tokens, next, hstep, hnext, hsettled, hrun⟩ := step_minus escapes hq hlast
  rw [tokens?_cons, hstep, tokens?_digits_behind hdigits hne hnext, Option.map_some, hrun,
    ← hsettled]
  simp only [List.append_assoc]

/-- Behind another one, a minus sign opens a comment that both signs belong to, and what
follows on the line belongs to it too. -/
theorem tokens?_comment (hq : q.AtBoundary) (hlast : q.openRun.getLast? = some '-')
    {cs : List Char} (hcs : ∀ c ∈ cs, isNewline c = false) :
    q.tokens? escapes ('-' :: cs) =
      some (q.settled ++ operatorTokens q.openRun.dropLast) := by
  rw [tokens?_cons]
  cases q with
  | operator run =>
      rw [openRun] at hlast
      have hstep : (operator run).step escapes '-' =
          (operatorTokens run.dropLast, .lineComment) := by
        simp [step, goOn, runOn, hlast]
      have hcomment : lineComment.run escapes cs = ([], .lineComment) :=
        run_of_fixed fun c hc => by simp [step, goOn, hcs c hc]
      rw [hstep, tokens?, hcomment]
      simp [finish, settled, openRun]
  | gapDash quote text =>
      have hstep : (gapDash quote text).step escapes '-' = ([], .gapComment quote text) := rfl
      have hcomment : (gapComment quote text).run escapes cs = ([], .gapComment quote text) :=
        run_of_fixed fun c hc => by simp [step, goOn, hcs c hc]
      rw [hstep, tokens?, hcomment]
      rfl
  | between => cases hlast
  | ampersand letter => cases hlast
  | gap quote text newline => cases hlast
  | _ => exact hq.elim

end Scan

/-! Operators -/

/-- A minus sign is an operator of its own behind a run of standard characters only. -/
theorem operators_concat_minus (run : List Char) :
    operators (run ++ ['-']) =
      if run.any isExtra then [run ++ ['-']] else operators run ++ [['-']] := by
  have hminus : isSign '-' = true := rfl
  have hextra : (run ++ ['-']).any isExtra = run.any isExtra := by
    rw [List.any_append]
    exact Bool.or_false _
  simp only [operators, hextra]
  split
  · rfl
  · cases run with
    | nil => rfl
    | cons c rest =>
        simp only [List.cons_append, List.rdropWhile_concat_pos _ _ _ hminus,
          List.rtakeWhile_concat_pos _ _ _ hminus, List.map_append, List.map_cons, List.map_nil]

theorem operatorTokens_concat_minus_iff (run : List Char) :
    operatorTokens (run ++ ['-']) = operatorTokens run ++ [⟨.operator, ['-']⟩] ↔
      run.any isExtra = false := by
  rw [operatorTokens, operatorTokens, operators_concat_minus]
  split
  · rename_i hextra
    refine iff_of_false (fun hsame => ?_) (by rw [hextra]; decide)
    have hlength := congrArg List.length hsame
    simp [operators, hextra] at hlength
  · rename_i hextra
    exact iff_of_true (List.map_append ..) (Bool.eq_false_iff.mpr hextra)

/-- Without the sign at its end, a run has no more operators than with it. -/
theorem length_operators_dropLast {run : List Char} (hlast : run.getLast? = some '-') :
    (operators run.dropLast).length ≤ (operators run).length := by
  have hrun : run.dropLast ++ ['-'] = run := List.dropLast_append_getLast? '-' hlast
  have hconcat := operators_concat_minus run.dropLast
  rw [hrun] at hconcat
  rw [hconcat]
  split
  · rename_i hextra
    simp [operators, hextra]
  · simp

namespace Scan

variable {escapes : Bool} {q : Scan}

/-- A negative number keeps its minus sign if and only if no operator takes it. -/
theorem tokens?_negative_iff (hq : q.AtBoundary) {digits : List Char}
    (hdigits : ∀ c ∈ digits, c.isDigit = true) (hne : digits ≠ []) :
    q.tokens? escapes ('-' :: digits) = some (q.settled ++ operatorTokens q.openRun ++
        [⟨.operator, ['-']⟩, ⟨.number, digits⟩]) ↔
      ¬ (q.openRun.getLast? = some '-' ∨ q.openRun.any isExtra = true) := by
  by_cases hlast : q.openRun.getLast? = some '-'
  · refine iff_of_false (fun hkeeps => ?_) (not_not.mpr (.inl hlast))
    have hnewline : ∀ c ∈ digits, isNewline c = false := fun c hc => by
      have hspace := (inert_of_isDigit (hdigits c hc)).1.space
      simp only [isSpace, Bool.or_eq_false_iff] at hspace
      exact hspace.1.1.1.1
    rw [tokens?_comment hq hlast hnewline] at hkeeps
    have hlength := congrArg List.length (Option.some.inj hkeeps)
    have hshorter := length_operators_dropLast hlast
    simp only [operatorTokens, List.length_append, List.length_map, List.length_cons,
      List.length_nil] at hlength
    omega
  · have hpair : [Token.mk .operator ['-'], ⟨.number, digits⟩] =
        [⟨.operator, ['-']⟩] ++ [⟨.number, digits⟩] := rfl
    rw [tokens?_minus hq hlast hdigits hne, Option.some_inj, hpair, ← List.append_assoc,
      List.append_cancel_right_eq, List.append_assoc, List.append_cancel_left_eq,
      operatorTokens_concat_minus_iff, Bool.eq_false_iff]
    simp [hlast]

theorem tokens?_negative (escapes : Bool) {digits : List Char}
    (hdigits : ∀ c ∈ digits, c.isDigit = true) (hne : digits ≠ []) :
    between.tokens? escapes ('-' :: digits) =
      some [⟨.operator, ['-']⟩, ⟨.number, digits⟩] :=
  tokens?_minus (q := .between) trivial nofun hdigits hne

/-! Quotation marks -/

theorem goOn_mark_eq_none (hq : q.AtBoundary) (htakes : ¬ q.TakesQuote) :
    q.goOn escapes '\'' = none := by
  cases q with
  | between => rfl
  | ampersand letter => exact absurd trivial htakes
  | operator run => exact runOn_eq_none rfl
  | gap quote text newline =>
      have hnewline : newline = false := Bool.eq_false_iff.mpr htakes
      subst hnewline
      rfl
  | gapDash quote text => rfl
  | _ => exact hq.elim

/-- What takes a quotation mark in is a token already that the string then swallows. -/
theorem goOn_mark_of_takesQuote (escapes : Bool) (htakes : q.TakesQuote) :
    q.settled ≠ [] ∧ ∃ quote text, q.goOn escapes '\'' = some ([], .quoted quote text) := by
  cases q with
  | ampersand letter => exact ⟨List.cons_ne_nil _ _, _, _, rfl⟩
  | gap quote text newline =>
      obtain rfl : newline = true := htakes
      exact ⟨List.cons_ne_nil _ _, _, _, rfl⟩
  | _ => exact htakes.elim

/-- A quotation keeps to itself if and only if nothing takes its opening mark. -/
theorem tokens?_quotation_iff (escapes : Bool) (hq : q.AtBoundary) {body suffix : List Char}
    {others : List Token} (hbody : ∀ c ∈ body, c ≠ '\'' ∧ c ≠ '\\')
    (hsuffix : ∀ quote text, (quotedMark quote text).tokens? escapes suffix =
      some (stringToken text :: others)) :
    between.tokens? escapes ('\'' :: (body ++ ['\'']) ++ suffix) =
        some (stringToken ('\'' :: body) :: others) ∧
      (q.tokens? escapes ('\'' :: (body ++ ['\'']) ++ suffix) =
          some (q.settled ++ operatorTokens q.openRun ++ stringToken ('\'' :: body) :: others) ↔
        ¬ q.TakesQuote) := by
  have hopened (quote : Quote) (text : List Char) :
      (quoted quote text).tokens? escapes (body ++ ['\''] ++ suffix) =
        some (stringToken (text ++ body) :: others) := by
    rw [tokens?_append, run_quoted_closed quote text hbody, hsuffix]
    rfl
  have hown : between.tokens? escapes ('\'' :: (body ++ ['\'']) ++ suffix) =
      some (stringToken ('\'' :: body) :: others) := by
    have hstep : between.step escapes '\'' = ([], .quoted .plain ['\'']) := rfl
    rw [List.cons_append, tokens?_cons, hstep, hopened]
    rfl
  refine ⟨hown, ?_⟩
  by_cases htakes : q.TakesQuote
  · obtain ⟨hsettled, quote, text, hgo⟩ := goOn_mark_of_takesQuote escapes htakes
    refine iff_of_false (fun hkeeps => ?_) (not_not.mpr htakes)
    rw [List.cons_append, tokens?_cons, step_of_goOn hgo, hopened] at hkeeps
    have hlength := congrArg List.length (Option.some.inj hkeeps)
    have hpositive := List.length_pos_iff.mpr hsettled
    simp only [List.nil_append, List.length_append, List.length_cons] at hlength
    omega
  · refine iff_of_true ?_ htakes
    rw [List.cons_append] at hown ⊢
    rw [tokens?_of_close (goOn_mark_eq_none hq htakes) (finish_of_atBoundary hq), hown]
    rfl

end Scan

end PageQuery.Sql
