import PageQuery.Numeral
import PageQuery.Binary64.Shortest
import PageQuery.Json.Basic

/-!
# Writing JSON

The compact form: no blanks, fields in key order, and only the characters that
JSON cannot hold raw are escaped.  A double is written with its shortest digits,
positionally from `1e-5` up to below `1e16` and with at least one decimal, in
scientific form elsewhere.
-/

namespace PageQuery

namespace Decimal

/-- Positional notation; a whole number is followed by `whole`. -/
def positional (whole : List Char) (d : Decimal) : List Char :=
  let digits := Numeral.decimal d.digits
  if 0 ≤ d.exponent then digits ++ List.replicate d.exponent.toNat '0' ++ whole
  else
    let decimals := (-d.exponent).toNat
    if decimals < digits.length then
      let split := digits.length - decimals
      digits.take split ++ '.' :: digits.drop split
    else ['0', '.'] ++ List.replicate (decimals - digits.length) '0' ++ digits

/-- The exponent of the first digit. -/
def leading (d : Decimal) : Int :=
  d.exponent + ((Numeral.decimal d.digits).length - 1 : Nat)

/-- Scientific notation, with a sign on every exponent. -/
def scientific (d : Decimal) : List Char :=
  let mantissa := match Numeral.decimal d.digits with
    | [] => []
    | [c] => [c]
    | c :: rest => c :: '.' :: rest
  let sign := if d.leading < 0 then '-' else '+'
  mantissa ++ 'e' :: sign :: Numeral.decimal d.leading.natAbs

end Decimal

namespace Json

/-- The text of a finite double. -/
def realText (x : Binary64) : List Char :=
  let sign := if x.isNegative then ['-'] else []
  if x.isZero then sign ++ ['0', '.', '0']
  else
    let d := x.shortest .toEven
    if -5 ≤ d.leading ∧ d.leading < 16 then sign ++ d.positional ['.', '0']
    else sign ++ d.scientific

/-- The two lower-case hexadecimal digits of a control character. -/
def controlDigits (c : Char) : List Char :=
  [Nat.digitChar (c.toNat / 16), Nat.digitChar (c.toNat % 16)]

/-- A character inside a string. -/
def escape (c : Char) : List Char :=
  if c = '"' then ['\\', '"']
  else if c = '\\' then ['\\', '\\']
  else if c.toNat = 8 then ['\\', 'b']
  else if c.toNat = 12 then ['\\', 'f']
  else if c = '\n' then ['\\', 'n']
  else if c = '\r' then ['\\', 'r']
  else if c = '\t' then ['\\', 't']
  else if c.toNat < 32 then ['\\', 'u', '0', '0'] ++ controlDigits c
  else [c]

def stringText (s : String) : List Char :=
  '"' :: s.toList.flatMap escape ++ ['"']

mutual

/-- The compact text of a value. -/
def chars : Json → List Char
  | .null => ['n', 'u', 'l', 'l']
  | .bool true => ['t', 'r', 'u', 'e']
  | .bool false => ['f', 'a', 'l', 's', 'e']
  | .integer n => Numeral.signed n
  | .real x => realText x
  | .string s => stringText s
  | .array items => '[' :: itemsText items ++ [']']
  | .object fields => '{' :: fieldsText fields ++ ['}']

def itemsText : List Json → List Char
  | [] => []
  | [item] => chars item
  | item :: rest => chars item ++ ',' :: itemsText rest

def fieldsText : List (String × Json) → List Char
  | [] => []
  | [(key, value)] => stringText key ++ ':' :: chars value
  | (key, value) :: rest =>
    stringText key ++ ':' :: chars value ++ ',' :: fieldsText rest

end

def text (value : Json) : String := String.ofList value.chars

end Json

end PageQuery
