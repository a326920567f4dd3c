import PageQuery.Error
import PageQuery.Sql.Node

/-!
# Compiling fragments

One pass over the nodes.  Raw text is copied, names are quoted with their quotes
doubled, and each bound value becomes the next placeholder.  Alias tokens become
local names, numbered from zero in the order in which they are first met.
-/

namespace PageQuery.Sql

/-- A statement with placeholders, and the values behind them. -/
structure Compiled where
  text : String
  params : List Param
  deriving Repr

/-- A name between double quotes, the quotes inside it doubled. -/
def quoteName (name : String) : String :=
  let body := name.toList.flatMap fun c => if c = '"' then ['"', '"'] else [c]
  String.ofList ('"' :: body ++ ['"'])

/-- The local name of the row source with number `n`. -/
def localName (n : Nat) : String := "__local_" ++ Numeral.text n ++ "__"

/-- The placeholder of the `n`-th bound value, counted from one. -/
def placeholder (n : Nat) : String := "$" ++ Numeral.text n

def hasNul (s : String) : Bool := s.toList.contains (Char.ofNat 0)

namespace IdentPart

/-- The alias tokens that are known behind a part. -/
def meet (aliases : List AliasToken) : IdentPart → List AliasToken
  | .name _ => aliases
  | .token t => if t ∈ aliases then aliases else aliases ++ [t]

/-- The text of a part.  A token that is not known gets the next number. -/
def text (aliases : List AliasToken) : IdentPart → Except Error String
  | .name s =>
    if s = "" then .error (.invalidNode .emptyName)
    else if hasNul s then .error (.invalidNode .nameNul)
    else .ok (quoteName s)
  | .token t => .ok (localName (aliases.idxOf t))

/-- The texts of the parts, or the fault of the first one that has none. -/
def texts (aliases : List AliasToken) : List IdentPart → Except Error (List String)
  | [] => .ok []
  | part :: rest => do
    let first ← part.text aliases
    return first :: (← texts (part.meet aliases) rest)

end IdentPart

/-- What the nodes before a place have used up: placeholders and local names. -/
structure Numbering where
  values : Nat := 0
  aliases : List AliasToken := []

namespace Node

/-- The numbering behind a node. -/
def advance (numbering : Numbering) : Node → Numbering
  | .raw _ => numbering
  | .identifier parts => { numbering with aliases := parts.foldl IdentPart.meet numbering.aliases }
  | .value _ => { numbering with values := numbering.values + 1 }

def text (numbering : Numbering) : Node → Except Error String
  | .raw s => if hasNul s then .error (.invalidNode .rawNul) else .ok s
  | .identifier [] => .error (.invalidNode .noParts)
  | .identifier parts => do return String.intercalate "." (← IdentPart.texts numbering.aliases parts)
  | .value _ => .ok (placeholder (numbering.values + 1))

/-- The texts of the nodes, or the fault of the first one that has none. -/
def texts (numbering : Numbering) : Fragment → Except Error (List String)
  | [] => .ok []
  | node :: rest => do
    let first ← node.text numbering
    return first :: (← texts (node.advance numbering) rest)

def param? : Node → Option Param
  | .value param => some param
  | _ => none

end Node

/-- The statement of a fragment. -/
def compile (f : Fragment) : Except Error Compiled := do
  return ⟨String.join (← Node.texts {} f), f.filterMap Node.param?⟩

end PageQuery.Sql
