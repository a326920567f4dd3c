import PageQuery.Sql.Node

/-!
# Terms of an order

A term sorts by one expression, in one direction, and may say where nulls go.
Flipping a term turns both around.
-/

namespace PageQuery.Sql

/-- The place of nulls in an order. -/
inductive NullsOrder
  | first
  | last
  deriving DecidableEq, Repr

def NullsOrder.flipped : NullsOrder → NullsOrder
  | .first => .last
  | .last => .first

structure OrderTerm where
  expr : Fragment
  ascending : Bool
  nulls : Option NullsOrder
  deriving Repr

namespace OrderTerm

/-- The term with its direction and its nulls turned around. -/
def flipped (term : OrderTerm) : OrderTerm :=
  { term with ascending := !term.ascending, nulls := term.nulls.map NullsOrder.flipped }

def direction (term : OrderTerm) : Fragment :=
  text (if term.ascending then " ASC" else " DESC")

def nullsPlace (term : OrderTerm) : Fragment :=
  match term.nulls with
  | some .first => text " NULLS FIRST"
  | some .last => text " NULLS LAST"
  | none => []

/-- The term as it stands in an `order by`. -/
def fragment (term : OrderTerm) (flip : Bool) : Fragment :=
  let term := if flip then term.flipped else term
  term.expr ++ term.direction ++ term.nullsPlace

end OrderTerm

/-- The terms of an `order by`, if there are any. -/
def orderClause? (terms : List OrderTerm) (flip : Bool) : Option Fragment :=
  if terms.isEmpty then none
  else some (join (terms.map fun term => term.fragment flip) ", ")

end PageQuery.Sql
