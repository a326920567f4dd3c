import Mathlib.Data.List.DropRight

/-!
# Tokens of a statement

The text of a statement is cut into tokens as PostgreSQL does it, character by character.
The scanner's state is what it has read of a lexeme that may still go on.  Blanks and comments
are no tokens.  A text that ends inside a quotation or inside a comment in brackets has no
tokens at all, and neither has one with a number that runs into a word.

Two rules look further ahead than one character.  The letter `u`, an ampersand and a quotation
mark together open a string or a name with Unicode escapes.  And a string goes on in a further
quotation if there is nothing between the two but blanks and line comments with a line break.
-/

namespace PageQuery.Sql

/-! Characters -/

def isNewline (c : Char) : Bool := c = '\n' || c = '\r'

def isSpace (c : Char) : Bool :=
  isNewline c || c = ' ' || c = '\t' || c.toNat = 11 || c.toNat = 12

/-- Letters, the low line, and everything beyond ASCII. -/
def isWordStart (c : Char) : Bool := c.isAlpha || c = '_' || 0x80 ≤ c.toNat

def isWordChar (c : Char) : Bool := isWordStart c || c.isDigit || c = '$'

def isSign (c : Char) : Bool := c = '+' || c = '-'

/-- The operator characters that standard SQL has no operators of; the last one is the grave
accent. -/
def isExtra (c : Char) : Bool :=
  ['~', '!', '@', '#', '%', '^', '&', '|', '?', Char.ofNat 0x60].contains c

def isOperatorChar (c : Char) : Bool :=
  isExtra c || isSign c || ['*', '/', '<', '>', '='].contains c

/-! Numerals -/

/-- Digits, with single low lines between them. -/
def isFigures (isFigure : Char → Bool) : List Char → Bool
  | [] => false
  | [c] => isFigure c
  | c :: '_' :: rest => isFigure c && isFigures isFigure rest
  | c :: rest => isFigure c && isFigures isFigure rest

def isHexDigit (c : Char) : Bool :=
  c.isDigit || ('a' ≤ c && c ≤ 'f') || ('A' ≤ c && c ≤ 'F')

/-- Digits with a point before, between or behind them. -/
def isMantissa (cs : List Char) : Bool :=
  let whole := cs.takeWhile (· ≠ '.')
  match cs.dropWhile (· ≠ '.') with
  | [] => isFigures Char.isDigit whole
  | [_] => isFigures Char.isDigit whole
  | _ :: decimals =>
    (whole.isEmpty || isFigures Char.isDigit whole) && isFigures Char.isDigit decimals

/-- What stands behind the mantissa of a number. -/
def isExponent : List Char → Bool
  | [] => true
  | _ :: '+' :: digits => isFigures Char.isDigit digits
  | _ :: '-' :: digits => isFigures Char.isDigit digits
  | _ :: digits => isFigures Char.isDigit digits

def isExponentMark (c : Char) : Bool := c = 'e' || c = 'E'

/-- The digits behind the prefix of another radix. -/
def isRadixFigures (isFigure : Char → Bool) : List Char → Bool
  | '_' :: rest => isFigures isFigure rest
  | rest => isFigures isFigure rest

def isNumeral : List Char → Bool
  | '0' :: 'x' :: rest => isRadixFigures isHexDigit rest
  | '0' :: 'X' :: rest => isRadixFigures isHexDigit rest
  | '0' :: 'o' :: rest => isRadixFigures (fun c => '0' ≤ c && c ≤ '7') rest
  | '0' :: 'O' :: rest => isRadixFigures (fun c => '0' ≤ c && c ≤ '7') rest
  | '0' :: 'b' :: rest => isRadixFigures (fun c => c = '0' || c = '1') rest
  | '0' :: 'B' :: rest => isRadixFigures (fun c => c = '0' || c = '1') rest
  | cs =>
    isMantissa (cs.takeWhile fun c => !isExponentMark c) &&
      isExponent (cs.dropWhile fun c => !isExponentMark c)

/-! Tokens -/

inductive TokenKind
  | word
  | name
  | string
  | number
  | parameter
  | operator
  | mark
  deriving DecidableEq, Repr

structure Token where
  kind : TokenKind
  text : List Char
  deriving DecidableEq, Repr

/-- The operators in a run of operator characters.  The signs at its end are operators of
their own, unless the run has a character that standard SQL has no operators of. -/
def operators (run : List Char) : List (List Char) :=
  if run.any isExtra then [run]
  else match run with
    | [] => []
    | c :: rest =>
      (c :: rest.rdropWhile isSign) :: (rest.rtakeWhile isSign).map fun sign => [sign]

def operatorTokens (run : List Char) : List Token := (operators run).map (Token.mk .operator)

/-- The kinds of string constants. -/
inductive Quote
  | plain
  | escaped
  | unicode
  | bits
  deriving DecidableEq, Repr

namespace Quote

/-- Whether backslashes escape.  In plain strings it is a setting of the database. -/
def escapes (setting : Bool) : Quote → Bool
  | .plain => setting
  | .escaped => true
  | .unicode => false
  | .bits => false

/-- The strings that a letter in front of the quotation mark makes. -/
def ofWord? : List Char → Option Quote
  | ['e'] => some .escaped
  | ['E'] => some .escaped
  | ['b'] => some .bits
  | ['B'] => some .bits
  | ['x'] => some .bits
  | ['X'] => some .bits
  | _ => none

end Quote

/-- A string, without its closing mark. -/
def stringToken (text : List Char) : Token := ⟨.string, text ++ ['\'']⟩

/-! The scanner -/

/-- What has been read of the lexeme that is open.  The texts of strings and names do not
include a closing mark. -/
inductive Scan
  | between
  | word (text : List Char)
  /-- Behind an ampersand that follows the letter `u` as a word of its own. -/
  | ampersand (letter : Char)
  | dot
  | colon
  | number (text : List Char)
  /-- Behind the sign of an exponent. -/
  | exponent (text : List Char)
  | dollar (tag : List Char)
  | parameter (text : List Char)
  | operator (run : List Char)
  | lineComment
  /-- Inside a comment in brackets, with so many others around it. -/
  | blockComment (depth : Nat) (last : Option Char)
  | body (tag text : List Char)
  | name (text : List Char)
  | nameMark (text : List Char)
  | quoted (quote : Quote) (text : List Char)
  | backslash (quote : Quote) (text : List Char)
  | quotedMark (quote : Quote) (text : List Char)
  /-- Behind a string, where it may go on in a further quotation. -/
  | gap (quote : Quote) (text : List Char) (newline : Bool)
  | gapDash (quote : Quote) (text : List Char)
  | gapComment (quote : Quote) (text : List Char)
  | fault
  deriving DecidableEq, Repr

namespace Scan

/-- What a character begins. -/
def start (c : Char) : List Token × Scan :=
  if isSpace c then ([], .between)
  else if isWordStart c then ([], .word [c])
  else if c.isDigit then ([], .number [c])
  else if isOperatorChar c then ([], .operator [c])
  else if c = '\'' then ([], .quoted .plain [c])
  else if c = '"' then ([], .name [c])
  else if c = '.' then ([], .dot)
  else if c = ':' then ([], .colon)
  else if c = '$' then ([], .dollar [])
  else ([⟨.mark, [c]⟩], .between)

/-- The tokens of what is open, if it may end there. -/
def finish : Scan → Option (List Token)
  | .between => some []
  | .word text => some [⟨.word, text⟩]
  | .ampersand letter => some (⟨.word, [letter]⟩ :: operatorTokens ['&'])
  | .dot => some [⟨.mark, ['.']⟩]
  | .colon => some [⟨.mark, [':']⟩]
  | .number text => if isNumeral text then some [⟨.number, text⟩] else none
  | .exponent _ => none
  | .dollar [] => some [⟨.mark, ['$']⟩]
  | .dollar tag => some [⟨.mark, ['$']⟩, ⟨.word, tag⟩]
  | .parameter text => some [⟨.parameter, text⟩]
  | .operator run => some (operatorTokens run)
  | .lineComment => some []
  | .blockComment _ _ => none
  | .body _ _ => none
  | .name _ => none
  | .nameMark text => some [⟨.name, text ++ ['"']⟩]
  | .quoted _ _ => none
  | .backslash _ _ => none
  | .quotedMark _ text => some [stringToken text]
  | .gap _ text _ => some [stringToken text]
  | .gapDash _ text => some (stringToken text :: operatorTokens ['-'])
  | .gapComment _ text => some [stringToken text]
  | .fault => none

/-- A run of operator characters goes on, or turns out to end where a comment begins. -/
def runOn (run : List Char) (c : Char) : Option (List Token × Scan) :=
  if c = '-' ∧ run.getLast? = some '-' then
    some (operatorTokens run.dropLast, .lineComment)
  else if c = '*' ∧ run.getLast? = some '/' then
    some (operatorTokens run.dropLast, .blockComment 0 none)
  else if isOperatorChar c then some ([], .operator (run ++ [c]))
  else none

/-- A number goes on.  Two points behind its digits are no part of it. -/
def numberOn (text : List Char) (c : Char) : Option (List Token × Scan) :=
  let isWhole (cs : List Char) := cs.all fun c => c.isDigit || c = '_'
  let isFixed (cs : List Char) := cs.all fun c => c.isDigit || c = '_' || c = '.'
  if isWordStart c || c.isDigit then some ([], .number (text ++ [c]))
  else if c = '.' then
    if isWhole text then some ([], .number (text ++ [c]))
    else if text.getLast? = some '.' && isWhole text.dropLast then
      if isNumeral text.dropLast then
        some ([⟨.number, text.dropLast⟩, ⟨.mark, ['.', '.']⟩], .between)
      else some ([], .fault)
    else none
  else if isSign c && text.getLast?.any isExponentMark && isFixed text.dropLast then
    some ([], .exponent (text ++ [c]))
  else none

def commentOn (depth : Nat) (last : Option Char) (c : Char) : Scan :=
  if c = '*' ∧ last = some '/' then .blockComment (depth + 1) none
  else if c = '/' ∧ last = some '*' then
    match depth with
    | 0 => .between
    | depth + 1 => .blockComment depth none
  else .blockComment depth (some c)

/-- What is open takes the character in, if it does.  In plain strings, backslashes escape or
do not. -/
def goOn (escapes : Bool) : Scan → Char → Option (List Token × Scan)
  | .between, _ => none
  | .word text, c =>
    if isWordChar c then some ([], .word (text ++ [c]))
    else if c = '&' ∧ (text = ['u'] ∨ text = ['U']) then some ([], .ampersand (text.headD 'u'))
    else if c = '\'' then
      (Quote.ofWord? text).map fun quote => ([], .quoted quote (text ++ [c]))
    else none
  | .ampersand letter, c =>
    if c = '\'' then some ([], .quoted .unicode [letter, '&', c])
    else if c = '"' then some ([], .name [letter, '&', c])
    else (runOn ['&'] c).map fun (tokens, next) => (⟨.word, [letter]⟩ :: tokens, next)
  | .dot, c =>
    if c.isDigit then some ([], .number ['.', c])
    else if c = '.' then some ([⟨.mark, ['.', c]⟩], .between)
    else none
  | .colon, c => if c = ':' ∨ c = '=' then some ([⟨.mark, [':', c]⟩], .between) else none
  | .number text, c => numberOn text c
  | .exponent text, c =>
    some ([], if c.isDigit then .number (text ++ [c]) else .fault)
  | .dollar tag, c =>
    if c = '$' then some ([], .body ('$' :: tag ++ [c]) [])
    else if tag = [] ∧ c.isDigit then some ([], .parameter ['$', c])
    else if isWordStart c || c.isDigit then some ([], .dollar (tag ++ [c]))
    else none
  | .parameter text, c =>
    if c.isDigit then some ([], .parameter (text ++ [c]))
    else if isWordStart c then some ([], .fault)
    else none
  | .operator run, c => runOn run c
  | .lineComment, c => some ([], if isNewline c then .between else .lineComment)
  | .blockComment depth last, c => some ([], commentOn depth last c)
  | .body tag text, c =>
    some (if tag.isSuffixOf (text ++ [c]) then ([⟨.string, tag ++ (text ++ [c])⟩], .between)
      else ([], .body tag (text ++ [c])))
  | .name text, c =>
    some ([], if c = '"' then .nameMark text else .name (text ++ [c]))
  | .nameMark text, c => if c = '"' then some ([], .name (text ++ [c, c])) else none
  | .quoted quote text, c =>
    some ([],
      if c = '\'' then .quotedMark quote text
      else if c = '\\' ∧ quote.escapes escapes then .backslash quote (text ++ [c])
      else .quoted quote (text ++ [c]))
  | .backslash quote text, c => some ([], .quoted quote (text ++ [c]))
  | .quotedMark quote text, c =>
    if c = '\'' ∧ quote ≠ .bits then some ([], .quoted quote (text ++ [c, c]))
    else if isSpace c then some ([], .gap quote text (isNewline c))
    else if c = '-' then some ([], .gapDash quote text)
    else none
  | .gap quote text newline, c =>
    if c = '\'' ∧ newline then some ([], .quoted quote text)
    else if isSpace c then some ([], .gap quote text (newline || isNewline c))
    else if c = '-' then some ([], .gapDash quote text)
    else none
  | .gapDash quote text, c =>
    if c = '-' then some ([], .gapComment quote text)
    else (runOn ['-'] c).map fun (tokens, next) => (stringToken text :: tokens, next)
  | .gapComment quote text, c =>
    some ([], if isNewline c then .gap quote text true else .gapComment quote text)
  | .fault, _ => some ([], .fault)

/-- What is open ends in front of the character. -/
def close (q : Scan) (c : Char) : List Token × Scan :=
  match q.finish with
  | some tokens => (tokens ++ (start c).1, (start c).2)
  | none => ([], .fault)

def step (escapes : Bool) (q : Scan) (c : Char) : List Token × Scan :=
  (q.goOn escapes c).getD (q.close c)

/-- Reads a text.  The tokens are those that have ended in it. -/
def run (escapes : Bool) : Scan → List Char → List Token × Scan
  | q, [] => ([], q)
  | q, c :: cs =>
    let (tokens, next) := q.step escapes c
    let (others, last) := run escapes next cs
    (tokens ++ others, last)

/-- The tokens that are left, those of the text and those of what is open in front of it. -/
def tokens? (escapes : Bool) (q : Scan) (text : List Char) : Option (List Token) :=
  (q.run escapes text).2.finish.map fun others => (q.run escapes text).1 ++ others

end Scan

/-- The tokens of a text. -/
def tokens? (escapes : Bool) (text : List Char) : Option (List Token) :=
  Scan.between.tokens? escapes text

namespace Scan

/-! Runs -/

variable {escapes : Bool} {q : Scan} {c : Char} {tokens : List Token} {next : List Token × Scan}

@[simp]
theorem run_nil (escapes : Bool) (q : Scan) : q.run escapes [] = ([], q) := rfl

theorem run_cons (escapes : Bool) (q : Scan) (c : Char) (cs : List Char) :
    q.run escapes (c :: cs) = ((q.step escapes c).1 ++ ((q.step escapes c).2.run escapes cs).1,
      ((q.step escapes c).2.run escapes cs).2) := rfl

/-- A text is scanned part by part. -/
theorem run_append (escapes : Bool) (q : Scan) (cs others : List Char) :
    q.run escapes (cs ++ others) =
      ((q.run escapes cs).1 ++ ((q.run escapes cs).2.run escapes others).1,
        ((q.run escapes cs).2.run escapes others).2) := by
  induction cs generalizing q with
  | nil => rfl
  | cons c cs ih => rw [List.cons_append, run_cons, run_cons, ih, List.append_assoc]

theorem step_of_goOn (hgo : q.goOn escapes c = some next) : q.step escapes c = next := by
  rw [step, hgo, Option.getD_some]

theorem step_of_close (hgo : q.goOn escapes c = none) : q.step escapes c = q.close c := by
  rw [step, hgo, Option.getD_none]

/-- Between two tokens a character starts the next one. -/
theorem step_between (escapes : Bool) (c : Char) : between.step escapes c = start c := rfl

/-- Inside a string, text without marks and backslashes is text. -/
theorem run_quoted (quote : Quote) (text : List Char) {cs : List Char}
    (hcs : ∀ c ∈ cs, c ≠ '\'' ∧ c ≠ '\\') :
    (quoted quote text).run escapes cs = ([], quoted quote (text ++ cs)) := by
  induction cs generalizing text with
  | nil => rw [run_nil, List.append_nil]
  | cons c cs ih =>
      obtain ⟨⟨hmark, hbackslash⟩, hothers⟩ := List.forall_mem_cons.mp hcs
      have hstep : (quoted quote text).step escapes c = ([], quoted quote (text ++ [c])) := by
        simp [step, goOn, hmark, hbackslash]
      rw [run_cons, hstep, ih _ hothers, List.append_assoc]
      rfl

/-- A string that is open is closed by the next mark. -/
theorem run_quoted_closed (quote : Quote) (text : List Char) {cs : List Char}
    (hcs : ∀ c ∈ cs, c ≠ '\'' ∧ c ≠ '\\') :
    (quoted quote text).run escapes (cs ++ ['\'']) = ([], quotedMark quote (text ++ cs)) := by
  rw [run_append, run_quoted quote text hcs]
  rfl

/-- A number takes in the digits behind it. -/
theorem run_number (text : List Char) {digits : List Char}
    (hdigits : ∀ c ∈ digits, c.isDigit = true) :
    (number text).run escapes digits = ([], number (text ++ digits)) := by
  induction digits generalizing text with
  | nil => rw [run_nil, List.append_nil]
  | cons c digits ih =>
      obtain ⟨hc, hothers⟩ := List.forall_mem_cons.mp hdigits
      have hstep : (number text).step escapes c = ([], number (text ++ [c])) := by
        simp [step, goOn, numberOn, hc]
      rw [run_cons, hstep, ih _ hothers, List.append_assoc]
      rfl

/-- What swallows each character of a text swallows the text. -/
theorem run_of_fixed {cs : List Char} (hcs : ∀ c ∈ cs, q.step escapes c = ([], q)) :
    q.run escapes cs = ([], q) := by
  induction cs with
  | nil => rfl
  | cons c cs ih =>
      obtain ⟨hc, hothers⟩ := List.forall_mem_cons.mp hcs
      rw [run_cons, hc, ih hothers]
      rfl

theorem tokens?_nil (escapes : Bool) (q : Scan) : q.tokens? escapes [] = q.finish :=
  Option.map_id' (x := q.finish)

theorem tokens?_cons (escapes : Bool) (q : Scan) (c : Char) (cs : List Char) :
    q.tokens? escapes (c :: cs) =
      ((q.step escapes c).2.tokens? escapes cs).map ((q.step escapes c).1 ++ ·) := by
  simp only [tokens?, run_cons, Option.map_map, Function.comp_def, List.append_assoc]

/-- The tokens of a text are those of its parts, as the scan leaves them. -/
theorem tokens?_append (escapes : Bool) (q : Scan) (cs others : List Char) :
    q.tokens? escapes (cs ++ others) =
      ((q.run escapes cs).2.tokens? escapes others).map ((q.run escapes cs).1 ++ ·) := by
  simp only [tokens?, run_append, Option.map_map, Function.comp_def, List.append_assoc]

/-- What does not go on ends, and the text behind it is read as if nothing stood in front. -/
theorem tokens?_of_close (hgo : q.goOn escapes c = none) (hfinish : q.finish = some tokens)
    (cs : List Char) :
    q.tokens? escapes (c :: cs) = (between.tokens? escapes (c :: cs)).map (tokens ++ ·) := by
  have hclose : q.step escapes c = (tokens ++ (start c).1, (start c).2) := by
    rw [step_of_close hgo, close, hfinish]
  simp only [tokens?_cons, hclose, step_between, Option.map_map, Function.comp_def,
    List.append_assoc]

end Scan

end PageQuery.Sql
