import Mathlib.Data.List.Basic
import PageQuery.Sql.Compile
import PageQuery.Sql.OrderTerm

/-!
# Renaming aliases

A statement names its row sources by number, in the order in which they are first met.  So
what a fragment compiles to does not depend on which alias tokens stand in it, but only on
where there are the same ones: to rename the tokens, different ones differently, changes
nothing.
-/

namespace PageQuery.Sql

/-- The alias tokens of a part. -/
def IdentPart.tokens : IdentPart → List AliasToken
  | .name _ => []
  | .token t => [t]

/-- The alias tokens of a node. -/
def Node.tokens : Node → List AliasToken
  | .identifier parts => parts.flatMap IdentPart.tokens
  | _ => []

variable (ρ : AliasToken → AliasToken)

/-- A part of an identifier, with its token renamed. -/
def IdentPart.rename : IdentPart → IdentPart
  | .name s => .name s
  | .token t => .token (ρ t)

/-- A node, with its tokens renamed. -/
def Node.rename : Node → Node
  | .identifier parts => .identifier (parts.map (IdentPart.rename ρ))
  | node => node

/-- The fragment with other tokens in place of its own. -/
def rename (f : Fragment) : Fragment := f.map (Node.rename ρ)

/-- A fragment is renamed part by part. -/
theorem rename_append (f g : Fragment) : rename ρ (f ++ g) = rename ρ f ++ rename ρ g :=
  List.map_append

theorem rename_text (s : String) : rename ρ (text s) = text s := by
  rw [text]
  split <;> rfl

variable {ρ}

/-- A part whose token keeps its name is the same afterwards. -/
theorem IdentPart.rename_of_fixed {part : IdentPart} (hfixed : ∀ t ∈ part.tokens, ρ t = t) :
    part.rename ρ = part := by
  cases part with
  | name s => rfl
  | token t => exact congrArg IdentPart.token (hfixed t List.mem_cons_self)

theorem Node.rename_of_fixed {node : Node} (hfixed : ∀ t ∈ node.tokens, ρ t = t) :
    node.rename ρ = node := by
  cases node with
  | raw s => rfl
  | value param => rfl
  | identifier parts =>
      have hparts : ∀ part ∈ parts, part.rename ρ = part := fun part hpart =>
        IdentPart.rename_of_fixed fun t ht => hfixed t (List.mem_flatMap.mpr ⟨part, hpart, ht⟩)
      exact congrArg Node.identifier ((List.map_congr_left hparts).trans (List.map_id parts))

/-- Nothing changes in a fragment whose tokens are left as they are. -/
theorem rename_of_fixed {f : Fragment} (hfixed : ∀ t ∈ f.flatMap Node.tokens, ρ t = t) :
    rename ρ f = f := by
  have hnodes : ∀ node ∈ f, node.rename ρ = node := fun node hnode =>
    Node.rename_of_fixed fun t ht => hfixed t (List.mem_flatMap.mpr ⟨node, hnode, ht⟩)
  exact (List.map_congr_left hnodes).trans (List.map_id f)

section

variable (hρ : Function.Injective ρ)

include hρ

/-- An injective renaming keeps the place of a token in the order of first occurrence. -/
theorem idxOf_rename (aliases : List AliasToken) (t : AliasToken) :
    (aliases.map ρ).idxOf (ρ t) = aliases.idxOf t := by
  induction aliases with
  | nil => rfl
  | cons head rest ih =>
      have hhead : (ρ head == ρ t) = (head == t) := by
        rw [Bool.eq_iff_iff, beq_iff_eq, beq_iff_eq]
        exact hρ.eq_iff
      rw [List.map_cons, List.idxOf_cons, List.idxOf_cons, ih, hhead]

/-- The tokens that have been met are renamed with the part. -/
theorem IdentPart.meet_rename (aliases : List AliasToken) (part : IdentPart) :
    (part.rename ρ).meet (aliases.map ρ) = (part.meet aliases).map ρ := by
  cases part with
  | name s => rfl
  | token t =>
      simp only [IdentPart.rename, meet, List.mem_map_of_injective hρ]
      split
      · rfl
      · rw [List.map_append, List.map_singleton]

/-- The text of a part does not show how its token is called. -/
theorem IdentPart.text_rename (aliases : List AliasToken) (part : IdentPart) :
    (part.rename ρ).text (aliases.map ρ) = part.text aliases := by
  cases part with
  | name s => rfl
  | token t => rw [rename, IdentPart.text, IdentPart.text, idxOf_rename hρ]

theorem IdentPart.texts_rename (aliases : List AliasToken) (parts : List IdentPart) :
    texts (aliases.map ρ) (parts.map (IdentPart.rename ρ)) = texts aliases parts := by
  induction parts generalizing aliases with
  | nil => rfl
  | cons part rest ih =>
      rw [List.map_cons, texts, texts, text_rename hρ, meet_rename hρ, ih]

theorem IdentPart.foldl_meet_rename (aliases : List AliasToken) (parts : List IdentPart) :
    (parts.map (IdentPart.rename ρ)).foldl meet (aliases.map ρ) =
      (parts.foldl meet aliases).map ρ := by
  induction parts generalizing aliases with
  | nil => rfl
  | cons part rest ih => rw [List.map_cons, List.foldl_cons, List.foldl_cons, meet_rename hρ, ih]

/-- The numbering goes on in the same way, with the tokens renamed. -/
theorem Node.advance_rename (numbering : Numbering) (node : Node) :
    (node.rename ρ).advance { numbering with aliases := numbering.aliases.map ρ } =
      { node.advance numbering with aliases := (node.advance numbering).aliases.map ρ } := by
  cases node with
  | raw s => rfl
  | value param => rfl
  | identifier parts =>
      exact congrArg (Numbering.mk numbering.values) (IdentPart.foldl_meet_rename hρ _ parts)

/-- The text of a node depends on the places of tokens and not on the tokens. -/
theorem Node.text_rename (numbering : Numbering) (node : Node) :
    (node.rename ρ).text { numbering with aliases := numbering.aliases.map ρ } =
      node.text numbering := by
  cases node with
  | raw s => rfl
  | value param => rfl
  | identifier parts =>
      cases parts with
      | nil => rfl
      | cons part rest =>
          have htexts := IdentPart.texts_rename hρ numbering.aliases (part :: rest)
          exact congrArg (fun texts => texts >>= fun texts => .ok (String.intercalate "." texts))
            htexts

/-- The text of a fragment depends on the places of tokens and not on the tokens. -/
theorem Node.texts_rename (numbering : Numbering) (f : Fragment) :
    texts { numbering with aliases := numbering.aliases.map ρ } (Sql.rename ρ f) =
      texts numbering f := by
  induction f generalizing numbering with
  | nil => rfl
  | cons node rest ih =>
      have hrename : Sql.rename ρ (node :: rest) = node.rename ρ :: Sql.rename ρ rest := rfl
      rw [hrename, texts, texts, text_rename hρ, advance_rename hρ, ih]

omit hρ in
/-- Parameters are not renamed. -/
theorem params_rename (f : Fragment) :
    (rename ρ f).filterMap Node.param? = f.filterMap Node.param? := by
  have hnode : Node.param? ∘ Node.rename ρ = Node.param? := by
    funext node
    cases node <;> rfl
  rw [rename, List.filterMap_map, hnode]

/-- A fragment compiles to the same whatever its alias tokens are called. -/
theorem compile_rename (f : Fragment) : compile (rename ρ f) = compile f := by
  have htexts := Node.texts_rename hρ {} f
  rw [compile, compile, params_rename]
  exact congrArg (fun texts => texts >>= fun texts =>
    .ok (Compiled.mk (String.join texts) (f.filterMap Node.param?))) htexts

end

end PageQuery.Sql
