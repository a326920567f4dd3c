import PageQuery.Json.Number

/-!
# Reading JSON

The strict grammar: no byte order mark, no trailing text, no raw control
characters in strings and no lone surrogates.  Arrays and objects may be nested
at most `maxDepth` deep.
-/

namespace PageQuery.Json

/-- How deep arrays and objects may be nested. -/
def maxDepth : Nat := 127

def isSpace (c : Char) : Bool := c = ' ' || c = '\n' || c = '\t' || c = '\r'

def skipSpace (cs : List Char) : List Char := cs.dropWhile isSpace

def hexDigit? (c : Char) : Option Nat :=
  let n := c.toNat
  if 48 ≤ n ∧ n ≤ 57 then some (n - 48)
  else if 97 ≤ n ∧ n ≤ 102 then some (n - 87)
  else if 65 ≤ n ∧ n ≤ 70 then some (n - 55)
  else none

/-- The code unit of four hexadecimal digits. -/
def codeUnit? (a b c d : Char) : Option Nat := do
  some ((((← hexDigit? a) * 16 + (← hexDigit? b)) * 16 + (← hexDigit? c)) * 16 + (← hexDigit? d))

/-- The character after a backslash, but for `u`. -/
def unescape? : Char → Option Char
  | '"' => some '"'
  | '\\' => some '\\'
  | '/' => some '/'
  | 'b' => some (Char.ofNat 8)
  | 'f' => some (Char.ofNat 12)
  | 'n' => some '\n'
  | 'r' => some '\r'
  | 't' => some '\t'
  | _ => none

def isLeading (unit : Nat) : Bool := 0xD800 ≤ unit && unit < 0xDC00

def isTrailing (unit : Nat) : Bool := 0xDC00 ≤ unit && unit < 0xE000

/-- The character of a surrogate pair. -/
def ofPair (leading trailing : Nat) : Char :=
  Char.ofNat (0x10000 + (leading - 0xD800) * 0x400 + (trailing - 0xDC00))

/-- The rest of a string after its opening quote. -/
def stringBody : Reader (List Char)
  | [] => none
  | '"' :: rest => some ([], rest)
  | '\\' :: 'u' :: a :: b :: c :: d :: rest =>
    match codeUnit? a b c d with
    | none => none
    | some unit =>
      if isLeading unit then
        match rest with
        | '\\' :: 'u' :: a :: b :: c :: d :: rest =>
          match codeUnit? a b c d with
          | none => none
          | some second =>
            if isTrailing second then
              (stringBody rest).map fun (cs, rest) => (ofPair unit second :: cs, rest)
            else none
        | _ => none
      else if isTrailing unit then none
      else (stringBody rest).map fun (cs, rest) => (Char.ofNat unit :: cs, rest)
  | '\\' :: c :: rest =>
    match unescape? c with
    | none => none
    | some c => (stringBody rest).map fun (cs, rest) => (c :: cs, rest)
  | c :: rest =>
    if c = '\\' ∨ c.toNat < 32 then none
    else (stringBody rest).map fun (cs, rest) => (c :: cs, rest)

/-- The items of an array up to its closing bracket; at most `room` of them. -/
def arrayItems (value : Reader Json) : (room : Nat) → Reader (List Json)
  | 0, _ => none
  | room + 1, cs =>
    match value (skipSpace cs) with
    | none => none
    | some (item, rest) =>
      match skipSpace rest with
      | ',' :: rest => (arrayItems value room rest).map fun (items, rest) => (item :: items, rest)
      | ']' :: rest => some ([item], rest)
      | _ => none

/-- One field of an object. -/
def objectField (value : Reader Json) : Reader (String × Json)
  | '"' :: rest =>
    match stringBody rest with
    | none => none
    | some (key, rest) =>
      match skipSpace rest with
      | ':' :: rest =>
        (value (skipSpace rest)).map fun (v, rest) => ((String.ofList key, v), rest)
      | _ => none
  | _ => none

/-- The fields of an object up to its closing brace; at most `room` of them. -/
def objectFields (value : Reader Json) : (room : Nat) → Reader (List (String × Json))
  | 0, _ => none
  | room + 1, cs =>
    match objectField value (skipSpace cs) with
    | none => none
    | some (field, rest) =>
      match skipSpace rest with
      | ',' :: rest =>
        (objectFields value room rest).map fun (fields, rest) => (field :: fields, rest)
      | '}' :: rest => some ([field], rest)
      | _ => none

/-- A value without an array or object, given the readers of these two. -/
def scalarOr (array object : Reader Json) : Reader Json
  | 'n' :: 'u' :: 'l' :: 'l' :: rest => some (.null, rest)
  | 't' :: 'r' :: 'u' :: 'e' :: rest => some (.bool true, rest)
  | 'f' :: 'a' :: 'l' :: 's' :: 'e' :: rest => some (.bool false, rest)
  | '"' :: rest => (stringBody rest).map fun (cs, rest) => (.string (String.ofList cs), rest)
  | '[' :: rest => array rest
  | '{' :: rest => object rest
  | cs => number cs

/-- A value whose arrays and objects are nested at most `depth` deep and have at most
`room` items each. -/
def value (room : Nat) : (depth : Nat) → Reader Json
  | 0 => scalarOr (fun _ => none) (fun _ => none)
  | depth + 1 =>
    scalarOr
      (fun cs => match skipSpace cs with
        | ']' :: rest => some (.array [], rest)
        | cs => (arrayItems (value room depth) room cs).map fun (items, rest) =>
          (.array items, rest))
      (fun cs => match skipSpace cs with
        | '}' :: rest => some (.object [], rest)
        | cs => (objectFields (value room depth) room cs).map fun (fields, rest) =>
          (ofFields fields, rest))

/-- The value of a whole JSON text.  No array has more items than the text has
characters. -/
def parse? (cs : List Char) : Option Json :=
  match value cs.length maxDepth (skipSpace cs) with
  | some (v, rest) => if (skipSpace rest).isEmpty then some v else none
  | none => none

end PageQuery.Json
