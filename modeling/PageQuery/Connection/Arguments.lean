import PageQuery.Cursor.Code
import PageQuery.Page.Plan

/-!
# Arguments of a connection

What a client asks of a page: `first`, `last`, an offset, and cursors that the
page lies after and before.
-/

namespace PageQuery

structure ConnectionArgs where
  first : Option Int := none
  last : Option Int := none
  before : Option String := none
  after : Option String := none
  offset : Option Int := none
  deriving DecidableEq, Repr

/-- The counts of checked arguments. -/
structure PageCounts where
  first : Option Nat
  last : Option Nat
  offset : Nat
  deriving DecidableEq, Repr

/-- The cursors of checked arguments. -/
structure PageCursors where
  after : Option (List Json)
  before : Option (List Json)

namespace ConnectionArgs

/-- A count that is given must not be negative. -/
def natural (argument : String) : Option Int → Except Error (Option Nat)
  | none => .ok none
  | some n => if n < 0 then .error (.validation (.negative argument)) else .ok (some n.toNat)

def counts (args : ConnectionArgs) : Except Error PageCounts := do
  let first ← natural "first" args.first
  let last ← natural "last" args.last
  let offset := (← natural "offset" args.offset).getD 0
  if first.isSome && last.isSome && 0 < offset then
    .error (.ambiguousPagination .firstLastOffset)
  else .ok ⟨first, last, offset⟩

/-- A cursor that is given must be readable. -/
def cursor : Option String → Except Error (Option (List Json))
  | none => .ok none
  | some text => do return some (← Cursor.decode text)

def cursors (args : ConnectionArgs) : Except Error PageCursors := do
  let after ← cursor args.after
  let before ← cursor args.before
  return ⟨after, before⟩

/-- Checks the arguments: no negative counts, no `first` with `last` and an offset,
no unreadable cursors. -/
def validate (args : ConnectionArgs) : Except Error Unit := do
  discard args.counts
  discard args.cursors

/-- An absent count, or one in the range of 64-bit integers. -/
def intOfJson? : Json → Option (Option Int)
  | .null => some none
  | .integer n => if n < 0x8000000000000000 then some (some n) else none
  | _ => none

def textOfJson? : Json → Option (Option String)
  | .null => some none
  | .string s => some (some s)
  | _ => none

/-- The names of the arguments, in the order in which a list gives them. -/
def names : List String := ["first", "last", "before", "after", "offset"]

/-- The arguments by name; those that are not given are absent. -/
def ofLookup? (value : String → Json) : Option ConnectionArgs := do
  return {
    first := ← intOfJson? (value "first")
    last := ← intOfJson? (value "last")
    before := ← textOfJson? (value "before")
    after := ← textOfJson? (value "after")
    offset := ← intOfJson? (value "offset") }

/-- The arguments of an object by their names, or of a list by their places. -/
def ofJson? : Json → Option ConnectionArgs
  | .object fields => ofLookup? fun name => (Json.field? name fields).getD .null
  | .array items =>
    if names.length < items.length then none
    else ofLookup? fun name => ((names.zip items).lookup name).getD .null
  | _ => none

end ConnectionArgs

/-- The tag of keyed cursors unless another one is given. -/
def primaryKeyTag : String := "primary_key_asc"

/-- How connections are set up: the key that makes an order unique, and the tag of
keyed cursors. -/
structure ConnectionSetup where
  primaryKey : List String
  tag : String := primaryKeyTag
  deriving DecidableEq, Repr

end PageQuery
