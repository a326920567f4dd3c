import PageQuery.Cursor.Code
import PageQuery.Sql.OrderTerm

/-!
# Bounds

A bound keeps the rows on one side of a cursor.  When all terms of the order have
the same direction it is a single comparison, of rows where there is more than one
term.  Otherwise it is spelled out: a row lies beyond the cursor if it does so by
the first term, or ties there and lies beyond by the others.
-/

namespace PageQuery.Cursor

open Sql

/-- A condition on a row: the caller's own, or one on the values of a cursor. -/
inductive Bound
  | given (condition : Fragment)
  | never
  | always
  | compare (expr : Fragment) (greater : Bool) (value : Json)
  | compareRows (exprs : List Fragment) (greater : Bool) (values : List Json)
  | beyondOrTied (expr : Fragment) (greater : Bool) (value : Json) (rest : Bound)

namespace Bound

/-- Whether the rows on the wanted side of a value are the greater ones. -/
def seeksGreater (ascending isAfter : Bool) : Bool := ascending == isAfter

def operator (greater : Bool) : Node := .raw (if greater then " > " else " < ")

/-- An operand of a comparison: everything but a lone identifier stands in
parentheses. -/
def operand (expr : Fragment) : Fragment :=
  match expr with
  | [node] => if node.isIdentifier then expr else parens expr
  | _ => parens expr

def boundValue (value : Json) : Fragment := [.value (.json value)]

def comparison (expr : Fragment) (greater : Bool) (value : Json) : Fragment :=
  operand expr ++ [operator greater] ++ boundValue value

def fragment : Bound → Fragment
  | .given condition => condition
  | .never => [.raw "false"]
  | .always => text "true"
  | .compare expr greater value => comparison expr greater value
  | .compareRows exprs greater values =>
    text "(" ++ join exprs ", " ++ text ")" ++ [operator greater] ++
      text "(" ++ join (values.map boundValue) ", " ++ text ")"
  | .beyondOrTied expr greater value rest =>
    text "((" ++ comparison expr greater value ++ text ") or (" ++ operand expr ++
      text " = " ++ boundValue value ++ text " and " ++ rest.fragment ++ text "))"

/-- The bound spelled out term by term. -/
def spelledOut (isAfter : Bool) : List OrderTerm → List Json → Bound
  | [term], [value] => .compare term.expr (seeksGreater term.ascending isAfter) value
  | term :: terms, value :: values =>
    .beyondOrTied term.expr (seeksGreater term.ascending isAfter) value
      (spelledOut isAfter terms values)
  | _, _ => .always

/-- The bound of an order whose terms all have one direction. -/
def uniform (ascending isAfter : Bool) : List OrderTerm → List Json → Bound
  | [term], [value] => .compare term.expr (seeksGreater ascending isAfter) value
  | terms, values =>
    .compareRows (terms.map OrderTerm.expr) (seeksGreater ascending isAfter) values

/-- The bound of as many values as the order has terms. -/
def ofOrder (isAfter : Bool) (terms : List OrderTerm) (values : List Json) : Bound :=
  match terms with
  | [] => .always
  | first :: _ =>
    if terms.all fun term => term.ascending == first.ascending then
      uniform first.ascending isAfter terms values
    else spelledOut isAfter terms values

end Bound

/-- Why a cursor does not fit the order it is used with.  Such a cursor has no rows
on its wanted side. -/
inductive Mismatch
  | tag
  | valueCount
  | notNatural
  | keyedOrder
  deriving DecidableEq, Repr

def Mismatch.message : Mismatch → String
  | .tag => "cursor tag does not match"
  | .valueCount => "cursor value count does not match"
  | .notNatural => "not a natural cursor"
  | .keyedOrder => "natural cursor on a keyed ordering"

/-- The bound of a keyed cursor in an order with the given tag. -/
def keyedBound (tag : String) (terms : List OrderTerm) (cursor : List Json)
    (isAfter : Bool) : Except Mismatch Bound :=
  if tag? cursor ≠ some tag then .error .tag
  else if cursor.tail.length ≠ terms.length then .error .valueCount
  else .ok (Bound.ofOrder isAfter terms cursor.tail)

end PageQuery.Cursor
