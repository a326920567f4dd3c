import PageQuery.Sql.Node

/-!
# Conditions as they are read

A condition is read from the pieces that its text consists of: parentheses, operators,
values, and the fragments of a caller, which count as one piece each.  The reader knows how
tightly operators bind: a comparison binds tighter than `and`, and `and` tighter than `or`.
A fragment of a caller binds nothing by itself, so where something is compared with it, it
has to be an identifier or stand in parentheses.
-/

namespace PageQuery.Sql

/-- A piece of the text of a condition. -/
inductive Piece
  | opening
  | closing
  | comma
  | beyond (greater : Bool)
  | equal
  | and
  | or
  | literal (value : Bool)
  | given (f : Fragment)
  | json (value : Json)

inductive Condition
  | given (f : Fragment)
  | literal (value : Bool)
  | beyond (greater : Bool) (expr : Fragment) (value : Json)
  | beyondRow (greater : Bool) (exprs : List Fragment) (values : List Json)
  | equal (expr : Fragment) (value : Json)
  | and (left right : Condition)
  | or (left right : Condition)

/-- An identifier that stands alone. -/
def isLone : Fragment → Bool
  | [node] => node.isIdentifier
  | _ => false

namespace Piece

/-- How a piece is written. -/
def fragment : Piece → Fragment
  | .opening => text "("
  | .closing => text ")"
  | .comma => text ", "
  | .beyond greater => [.raw (if greater then " > " else " < ")]
  | .equal => text " = "
  | .and => text " and "
  | .or => text " or "
  | .literal value => text (if value then "true" else "false")
  | .given f => f
  | .json value => [.value (.json value)]

def given? : Piece → Option Fragment
  | .given f => some f
  | _ => none

def json? : Piece → Option Json
  | .json value => some value
  | _ => none

/-- The items up to a closing parenthesis, with commas between them. -/
def items? {α : Type} (item? : Piece → Option α) : List Piece → Option (List α × List Piece)
  | piece :: .closing :: rest => (item? piece).map fun a => ([a], rest)
  | piece :: .comma :: rest => do
    let first ← item? piece
    let (others, rest) ← items? item? rest
    return (first :: others, rest)
  | _ => none

/-- What stands on the left of a comparison: an identifier, or expressions in parentheses. -/
def operand? : List Piece → Option (List Fragment × List Piece)
  | .given f :: rest => if isLone f then some ([f], rest) else none
  | .opening :: rest => items? given? rest
  | _ => none

def comparison? (pieces : List Piece) : Option (Condition × List Piece) :=
  match operand? pieces with
  | some ([expr], .beyond greater :: .json value :: rest) =>
    some (.beyond greater expr value, rest)
  | some ([expr], .equal :: .json value :: rest) => some (.equal expr value, rest)
  | some (exprs, .beyond greater :: .opening :: rest) =>
    (items? json? rest).map fun (values, rest) => (.beyondRow greater exprs values, rest)
  | _ => none

/-- A condition that is no comparison: a literal, or one in parentheses.  A fragment of a
caller is a condition there. -/
def enclosed? (inner? : List Piece → Option (Condition × List Piece)) :
    List Piece → Option (Condition × List Piece)
  | .literal value :: rest => some (.literal value, rest)
  | .opening :: .given f :: .closing :: rest => some (.given f, rest)
  | .opening :: pieces =>
    match inner? pieces with
    | some (inner, .closing :: rest) => some (inner, rest)
    | _ => none
  | _ => none

end Piece

/-- How tightly bound a condition has to be. -/
inductive Level
  | alternatives
  | conjuncts
  | single

/-- Reads a condition of a level from the front, with a bound on the depth of the reader. -/
def Level.parse : Nat → Level → List Piece → Option (Condition × List Piece)
  | 0, _, _ => none
  | depth + 1, .alternatives, pieces =>
    match parse depth .conjuncts pieces with
    | some (left, .or :: rest) =>
      (parse depth .alternatives rest).map fun (right, rest) => (.or left right, rest)
    | result => result
  | depth + 1, .conjuncts, pieces =>
    match parse depth .single pieces with
    | some (left, .and :: rest) =>
      (parse depth .conjuncts rest).map fun (right, rest) => (.and left right, rest)
    | result => result
  | depth + 1, .single, pieces =>
    (Piece.comparison? pieces).or (Piece.enclosed? (parse depth .alternatives) pieces)

/-- The condition that consists of these pieces. -/
def Condition.read (pieces : List Piece) : Option Condition :=
  match Level.alternatives.parse (3 * (pieces.length + 1)) pieces with
  | some (condition, []) => some condition
  | _ => none

/-! Texts -/

/-- The letters of a text, in which nodes other than raw text are one letter each. -/
def letters (f : Fragment) : List (Char ⊕ Node) :=
  f.flatMap fun node => match node with
    | .raw s => s.toList.map .inl
    | node => [.inr node]

theorem letters_append (f g : Fragment) : letters (f ++ g) = letters f ++ letters g :=
  List.flatMap_append

theorem letters_join (items : List Fragment) (separator : String) :
    letters (join items separator) =
      ((items.map letters).intersperse (letters (text separator))).flatten := by
  induction items with
  | nil => rfl
  | cons first others ih =>
      cases others with
      | nil => simp [join]
      | cons second others =>
          simp only [join, List.map_cons, List.intersperse_cons_cons, List.flatten_cons,
            letters_append] at ih ⊢
          rw [ih]

namespace Piece

/-- The text that pieces make up. -/
def letters (pieces : List Piece) : List (Char ⊕ Node) :=
  Sql.letters (pieces.flatMap fragment)

theorem letters_append (pieces others : List Piece) :
    letters (pieces ++ others) = letters pieces ++ letters others := by
  rw [letters, List.flatMap_append, Sql.letters_append]
  rfl

theorem letters_cons (piece : Piece) (pieces : List Piece) :
    letters (piece :: pieces) = Sql.letters piece.fragment ++ letters pieces := by
  rw [letters, List.flatMap_cons, Sql.letters_append]
  rfl

theorem letters_nil : letters [] = [] := rfl

/-- Items with a comma between them. -/
def items (pieces : List Piece) : List Piece := pieces.intersperse .comma

theorem letters_items (pieces : List Piece) :
    letters (items pieces) = Sql.letters (join (pieces.map fragment) ", ") := by
  have hmap : (items pieces).map fragment =
      (pieces.map fragment).intersperse (text ", ") := by
    induction pieces with
    | nil => rfl
    | cons first others ih =>
        cases others with
        | nil => rfl
        | cons second others =>
            simp only [items, List.map_cons, List.intersperse_cons_cons] at ih ⊢
            rw [ih]
            rfl
  rw [letters, List.flatMap_def, hmap, join]

end Piece

/-- The pieces spell a fragment as a condition.  None of them is a fragment of a caller other
than those that are allowed. -/
structure Spells (f : Fragment) (givens : List Fragment) (pieces : List Piece)
    (condition : Condition) : Prop where
  text : Piece.letters pieces = letters f
  givens : ∀ g, .given g ∈ pieces → g ∈ givens
  read : Condition.read pieces = some condition

/-! Steps of the reader -/

namespace Piece

theorem items?_items {α : Type} {item? : Piece → Option α} (piece : α → Piece)
    (hitem : ∀ a, item? (piece a) = some a) {values : List α} (hne : values ≠ [])
    (rest : List Piece) :
    items? item? (items (values.map piece) ++ .closing :: rest) = some (values, rest) := by
  induction values with
  | nil => exact absurd rfl hne
  | cons first others ih =>
      cases others with
      | nil => simp [items, items?, hitem]
      | cons second others =>
          have hothers := ih (by simp)
          simp only [items, List.map_cons, List.intersperse_cons_cons, List.cons_append]
            at hothers ⊢
          rw [items?]
          simp only [hitem, hothers]
          rfl

end Piece

namespace Level

variable {depth : Nat} {pieces rest rest' : List Piece} {left right condition : Condition}

theorem parse_comparison (hcomparison : Piece.comparison? pieces = some (condition, rest)) :
    single.parse (depth + 1) pieces = some (condition, rest) := by
  rw [parse, hcomparison, Option.some_or]

/-- A condition in parentheses, if they are not those of an operand or of a given condition. -/
theorem parse_parens (hcomparison : Piece.comparison? (.opening :: pieces) = none)
    (hgiven : ∀ f others, pieces ≠ .given f :: .closing :: others)
    (hinner : alternatives.parse depth pieces = some (condition, .closing :: rest)) :
    single.parse (depth + 1) (.opening :: pieces) = some (condition, rest) := by
  rw [parse, hcomparison, Option.none_or, Piece.enclosed?, hinner]
  exact hgiven

/-- A condition that nothing is joined to. -/
theorem parse_conjuncts (hsingle : single.parse depth pieces = some (condition, rest))
    (hlast : rest.head? ≠ some .and) :
    conjuncts.parse (depth + 1) pieces = some (condition, rest) := by
  rw [parse, hsingle]
  split
  · rename_i hrest
    cases hrest
    exact absurd rfl hlast
  · rfl

theorem parse_and (hleft : single.parse depth pieces = some (left, .and :: rest))
    (hright : conjuncts.parse depth rest = some (right, rest')) :
    conjuncts.parse (depth + 1) pieces = some (.and left right, rest') := by
  rw [parse, hleft]
  simp only [hright, Option.map_some]

theorem parse_alternatives (hconjuncts : conjuncts.parse depth pieces = some (condition, rest))
    (hlast : rest.head? ≠ some .or) :
    alternatives.parse (depth + 1) pieces = some (condition, rest) := by
  rw [parse, hconjuncts]
  split
  · rename_i hrest
    cases hrest
    exact absurd rfl hlast
  · rfl

theorem parse_or (hleft : conjuncts.parse depth pieces = some (left, .or :: rest))
    (hright : alternatives.parse depth rest = some (right, rest')) :
    alternatives.parse (depth + 1) pieces = some (.or left right, rest') := by
  rw [parse, hleft]
  simp only [hright, Option.map_some]

end Level

theorem Condition.read_of_parse {pieces : List Piece} {condition : Condition}
    (hparse : Level.single.parse (3 * pieces.length + 1) pieces = some (condition, [])) :
    read pieces = some condition := by
  have hconjuncts := Level.parse_conjuncts hparse (by simp)
  have halternatives := Level.parse_alternatives hconjuncts (by simp)
  rw [read, Nat.mul_succ, halternatives]

end PageQuery.Sql
