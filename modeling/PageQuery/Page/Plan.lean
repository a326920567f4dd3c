import PageQuery.Error

/-!
# Page plans

A plan says which rows of an ordered result a page holds: the limit and the offset
of the statement, whether its order is turned around, and whether `last` takes the
end of a window, whose size in rows only the database knows.
-/

namespace PageQuery

/-- The largest count. -/
def maxCount : Nat := 0xFFFFFFFFFFFFFFFF

/-- Sums of counts stop at the largest one. -/
def addCounts (m n : Nat) : Nat := min (m + n) maxCount

structure Plan where
  limit : Option Nat
  offset : Nat
  /-- The order is turned around, so that the page is taken from the end. -/
  flip : Bool
  /-- The size of the window of which `limit` takes the end. -/
  window : Option Nat
  deriving DecidableEq, Repr

namespace Plan

/-- The smaller of two limits of which each may be absent. -/
def tighter : Option Nat → Option Nat → Option Nat
  | none, first => first
  | limit, none => limit
  | some limit, some first => some (min limit first)

/-- The plan of an explicit limit and offset with `first` and `last`. -/
def make (limit : Option Nat) (offset : Nat) (first last : Option Nat) :
    Except Error Plan :=
  match last, tighter limit first with
  | none, limit => .ok ⟨limit, offset, false, none⟩
  | some last, none => .ok ⟨some last, offset, true, none⟩
  | some last, some size =>
    if 0 < offset then .error (.ambiguousPagination .lastInsideOffsetWindow)
    else if last < size then .ok ⟨some last, offset, false, some size⟩
    else .ok ⟨some size, offset, false, none⟩

end Plan

/-- How a page finds out whether there are rows on one side of it. -/
inductive PageFlag
  /-- There are none. -/
  | never
  /-- There are, if more than `skip` rows pass the where clause. -/
  | beyond (skip : Nat)
  /-- There are, if a row passes the wheres and fails the bounds of that side. -/
  | outside
  deriving DecidableEq, Repr

namespace Plan

/-- Whether there is a next page, with `first` and whether there are upper bounds. -/
def next (plan : Plan) (first : Option Nat) (bounded : Bool) : PageFlag :=
  let otherwise : PageFlag :=
    if plan.flip ∧ 0 < plan.offset then .beyond 0
    else if bounded then .outside
    else .never
  if plan.limit = some 0 then .never
  else if first.isSome then
    match plan.window, plan.limit with
    | some window, _ => .beyond (addCounts plan.offset window)
    | none, some limit => .beyond (addCounts plan.offset limit)
    | none, none => otherwise
  else otherwise

/-- Whether there is a previous page, with the sum of the offsets, `last`, and
whether there are lower bounds. -/
def previous (plan : Plan) (offset : Nat) (last : Option Nat) (bounded : Bool) :
    PageFlag :=
  if plan.limit = some 0 then .never
  else match last with
    | some last =>
      match plan.flip, plan.limit with
      | true, some limit => .beyond (addCounts plan.offset limit)
      | _, _ => if plan.window.isSome then .beyond (addCounts offset last) else .never
    | none =>
      if 0 < plan.offset then .beyond 0
      else if bounded then .outside
      else .never

end Plan

end PageQuery
