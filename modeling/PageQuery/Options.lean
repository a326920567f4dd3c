import PageQuery.Numeral

/-!
# Options

Settings of a builder and of a build.
-/

namespace PageQuery

/-- The tag of cursors that hold a position. -/
def naturalTag : String := "natural"

/-- Settings of a builder and its children. -/
structure Options where
  /-- Objects of many fields may be built in chunks of `jsonb`. -/
  supportsJsonb : Bool := true
  /-- The number of bytes that a logged statement is cut to. -/
  maxLoggedLength : Option Nat := some 200
  /-- The cursor tag of a fresh builder. -/
  cursorTag : String := naturalTag
  deriving DecidableEq, Repr

/-- The shape of a built statement. -/
structure BuildOptions where
  /-- One object for each row, as column `object`. -/
  asJson : Bool := false
  /-- All rows in one array. -/
  asJsonAggregate : Bool := false
  /-- The expression of a row's object instead of a statement. -/
  onlyJsonField : Bool := false
  /-- Null instead of an object when the row is null. -/
  nullCase : Bool := false
  /-- The same, by `is not distinct from null`. -/
  notDistinctCase : Bool := false
  /-- Every column of the table instead of the selected fields. -/
  asterisk : Bool := false
  deriving DecidableEq, Repr

/-- The characters that fill exactly the first `size` bytes, unless a character
straddles that place or the text is shorter. -/
def bytePrefix? : List Char → (size : Nat) → Option (List Char)
  | _, 0 => some []
  | [], _ + 1 => none
  | c :: rest, size + 1 =>
    if c.utf8Size ≤ size + 1 then
      (bytePrefix? rest (size + 1 - c.utf8Size)).map (c :: ·)
    else none

/-- The last place at or before `size` that lies between two characters. -/
def floorBoundary (cs : List Char) : (size : Nat) → Nat
  | 0 => 0
  | size + 1 =>
    if (bytePrefix? cs (size + 1)).isSome then size + 1 else floorBoundary cs size

/-- The characters that lie wholly in the first `size` bytes. -/
def cutBytes (cs : List Char) (size : Nat) : List Char :=
  (bytePrefix? cs (floorBoundary cs size)).getD []

/-- The text of a statement as it is logged. -/
def Options.loggedText (options : Options) (sql : String) : String :=
  match options.maxLoggedLength with
  | none => sql
  | some limit =>
    if limit < sql.utf8ByteSize then String.ofList (cutBytes sql.toList limit) ++ "..."
    else sql

end PageQuery
