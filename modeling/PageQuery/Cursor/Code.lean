import PageQuery.Error
import PageQuery.Json.Parser
import PageQuery.Text.Base64
import PageQuery.Text.Blank

/-!
# Cursors as text

A cursor is a JSON array whose first item is a string, its tag.  As text it is the
Base64 form of the compact JSON; blank characters around it do not matter.
-/

namespace PageQuery.Cursor

def utf8 (cs : List Char) : List UInt8 := cs.flatMap String.utf8EncodeChar

def ofUtf8? (bytes : List UInt8) : Option (List Char) :=
  (String.fromUTF8? ⟨bytes.toArray⟩).map String.toList

/-- The text of a list of values. -/
def encode (values : List Json) : String :=
  String.ofList (Text.Base64.encode (utf8 (Json.array values).chars))

/-- The tag of a cursor. -/
def tag? : List Json → Option String
  | .string tag :: _ => some tag
  | _ => none

/-- The values of a cursor, when it is an array that begins with a tag. -/
def ofJson : Json → Except Error (List Json)
  | .array items =>
    if (tag? items).isSome then .ok items else .error (.invalidCursor .noTag)
  | _ => .error (.invalidCursor .noTag)

/-- The values of a cursor that is given as text. -/
def decode (text : String) : Except Error (List Json) :=
  match Text.Base64.decode? (Text.trim text.toList) with
  | none => .error (.invalidCursor .notBase64)
  | some bytes =>
    match (ofUtf8? bytes).bind Json.parse? with
    | none => .error (.invalidCursor .notJson)
    | some value => ofJson value

end PageQuery.Cursor
