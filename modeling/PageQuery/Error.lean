import PageQuery.Concern
import PageQuery.Json.Printer

/-!
# Errors

An error is its cause; `Error.message` is the wording.  Where callers fail with a
message of their own, the cause is `other`.  An error is an answer, and a run goes on
after it; what aborts a run is not an answer to anything.
-/

namespace PageQuery

/-- Why a node has no SQL. -/
inductive NodeFault
  | rawNul
  | noParts
  | emptyName
  | nameNul
  | other (message : String)
  deriving DecidableEq, Repr

/-- Why a template does not fit its holes. -/
inductive TemplateFault
  | noSegments
  | extraValue (hole : Nat)
  | emptyHole (hole : Nat)
  | other (message : String)
  deriving DecidableEq, Repr

/-- Why `first`, `last`, limit and offset do not go together. -/
inductive PageConflict
  | lastInsideOffsetWindow
  | lastAfterPosition
  | firstLastOffset
  | other (message : String)
  deriving DecidableEq, Repr

/-- Why a cursor cannot be read. -/
inductive CursorFault
  | notBase64
  | notJson
  | noTag
  | other (message : String)
  deriving DecidableEq, Repr

/-- A rule that a caller has not kept. -/
inductive Violation
  | noSource
  | noParent
  | aliasTooLong (name : String)
  | aliasMalformed (name : String)
  | limitSet
  | firstSet
  | lastSet
  | noComparator
  | orderNotUnique
  | negative (argument : String)
  | other (message : String)
  deriving DecidableEq, Repr

/-- Why a column of a result cannot be read. -/
inductive DecodeFault
  | notArray (value : Json)
  | noRows
  | noColumn (name : String)
  | badCell (position : Nat)
  | other (message : String)
  deriving Repr

inductive Error
  | invalidNode (fault : NodeFault)
  | untrustedInterpolation (fault : TemplateFault)
  | lockedMutation (concern : Concern)
  | unknownChild (name : String)
  | duplicateChild (name : String)
  | ambiguousPagination (conflict : PageConflict)
  | invalidCursor (fault : CursorFault)
  | validation (violation : Violation)
  | decode (column : String) (fault : DecodeFault)
  deriving Repr

/-- Why a run cannot go on. -/
inductive Abort
  /-- Its locks ran out of fuel. -/
  | exhausted
  /-- Its script names a fragment that no earlier step has saved. -/
  | unsaved (name : String)
  deriving DecidableEq, Repr

/-- Why a computation gives no value. -/
inductive Halt
  | refused (error : Error)
  | aborted (reason : Abort)
  deriving Repr

/-- What a computation answers, be it an error, unless it is aborted. -/
def answered {α : Type} : Except Halt α → Except Abort (Except Error α)
  | .ok a => .ok (.ok a)
  | .error (.refused e) => .ok (.error e)
  | .error (.aborted reason) => .error reason

/-- The longest alias of a selected field, in bytes. -/
def maxAliasLength : Nat := 63

def NodeFault.message : NodeFault → String
  | .rawNul => "raw SQL cannot contain NUL character"
  | .noParts => "identifier has no parts"
  | .emptyName => "empty identifier part"
  | .nameNul => "identifier cannot contain NUL character"
  | .other message => message

/-- The hole that a template error names. -/
def TemplateFault.hole : TemplateFault → Nat
  | .noSegments => 0
  | .extraValue hole => hole
  | .emptyHole hole => hole
  | .other _ => 0

def TemplateFault.message : TemplateFault → String
  | .noSegments => "template has no text segments"
  | .extraValue _ => "interpolated value has no hole in the template"
  | .emptyHole _ => "hole is not backed by a trusted fragment"
  | .other message => message

def PageConflict.message : PageConflict → String
  | .lastInsideOffsetWindow =>
    "`last` cannot be combined with both an offset and `first` or a limit"
  | .lastAfterPosition =>
    "a natural `after` cursor cannot be combined with `last` without `first`"
  | .firstLastOffset => "`first`, `last` and `offset` cannot be combined"
  | .other message => message

def CursorFault.message : CursorFault → String
  | .notBase64 => "not base64"
  | .notJson => "not JSON"
  | .noTag => "expected a JSON array starting with a string tag"
  | .other message => message

def Violation.message : Violation → String
  | .noSource => "from() has not been called"
  | .noParent => "builder has no parent"
  | .aliasTooLong name =>
    "select alias '" ++ name ++ "' exceeds " ++ Numeral.text maxAliasLength ++ " characters"
  | .aliasMalformed name =>
    "select alias '" ++ name ++ "' must match ^(?:[a-z0-9_]+|@[a-z0-9_]+)$"
  | .limitSet => "limit has already been set"
  | .firstSet => "first has already been set"
  | .lastSet => "last has already been set"
  | .noComparator => "no cursor comparator was set"
  | .orderNotUnique => "order is not unique, cursors cannot be used"
  | .negative argument => "`" ++ argument ++ "` must not be negative"
  | .other message => message

def DecodeFault.message : DecodeFault → String
  | .notArray value => "expected a JSON array, got " ++ value.text
  | .noRows => "connection query returned no rows"
  | .noColumn name => "invalid column `" ++ name ++ "`"
  | .badCell position => "error deserializing column " ++ Numeral.text position
  | .other message => message

def Error.message : Error → String
  | .invalidNode fault => "Invalid node: " ++ fault.message
  | .untrustedInterpolation fault =>
    "Untrusted interpolation at hole " ++ Numeral.text fault.hole ++ ": " ++ fault.message
  | .lockedMutation concern =>
    "Cannot mutate '" ++ concern.name ++ "': it has already been locked"
  | .unknownChild name => "Unknown named child: " ++ name
  | .duplicateChild name => "Named child already exists: " ++ name
  | .ambiguousPagination conflict => "Ambiguous pagination: " ++ conflict.message
  | .invalidCursor fault => "Invalid cursor: " ++ fault.message
  | .validation violation => "Validation error: " ++ violation.message
  | .decode column fault => "Decode error on column '" ++ column ++ "': " ++ fault.message

end PageQuery
