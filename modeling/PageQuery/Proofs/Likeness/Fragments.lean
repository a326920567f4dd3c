import Mathlib.Data.List.Forall2
import Mathlib.Data.Option.Basic
import PageQuery.Proofs.Alias.Renaming
import PageQuery.Sql.Literal
import PageQuery.Sql.OrderTerm
import PageQuery.Sql.Template

/-!
# Fragments that are alike

Two fragments are alike if they differ only in the JSON values that they bind, and there only
as a relation allows, and if their alias tokens are among those that are allowed.  Where all
tokens are allowed, every fragment is like itself, and where no values may differ, fragments
that are alike are the same.  So likeness covers both what two runs have in common and what
tokens there are in one run.  Main statement: the texts of alike fragments are the same, and
their parameters differ only as the relation allows, each in its place.
-/

namespace PageQuery

open Sql

/-- How data may differ that are alike, and which alias tokens may stand in them. -/
structure Variation where
  json : Json → Json → Prop
  token : AliasToken → Prop

namespace Variation

/-- All tokens may stand in the data. -/
def Whole (S : Variation) : Prop := ∀ t, S.token t

/-- The data may not differ. -/
def Exact (S : Variation) : Prop := ∀ value value', ¬S.json value value'

/-- The second variation allows what the first one does. -/
structure Le (S S' : Variation) : Prop where
  json : ∀ {value value'}, S.json value value' → S'.json value value'
  token : ∀ {t}, S.token t → S'.token t

/-- A variation allows what it allows. -/
theorem Le.refl (S : Variation) : S.Le S := ⟨id, id⟩

/-- The data are the same. -/
def none : Variation := ⟨fun _ _ => False, fun _ => True⟩

/-- The data differ in JSON values that `R` relates. -/
def values (R : Json → Json → Prop) : Variation := ⟨R, fun _ => True⟩

/-- The data are the same, and the tokens in them have been given out before the `n`-th one. -/
def below (n : Nat) : Variation := ⟨fun _ _ => False, (·.id < n)⟩

/-- Where nothing may vary everything is like itself. -/
theorem whole_none : none.Whole := fun _ => trivial

/-- Where nothing may vary only equal fragments are alike. -/
theorem exact_none : none.Exact := fun _ _ => id

/-- Where only values vary everything is like itself. -/
theorem whole_values (R : Json → Json → Prop) : (values R).Whole := fun _ => trivial

/-- Where tokens are merely bounded nothing varies. -/
theorem exact_below (n : Nat) : (below n).Exact := fun _ _ => id

/-- A larger bound lets more tokens through. -/
theorem below_le {n m : Nat} (hle : n ≤ m) : (below n).Le (below m) :=
  ⟨id, fun ht => Nat.lt_of_lt_of_le ht hle⟩

end Variation

/-- Data of a type that may hold fragments, and when two of them are alike.  Data of other
types are alike if they are the same. -/
class Likeness (α : Type) where
  rel (S : Variation) : α → α → Prop
  refl {S : Variation} (hwhole : S.Whole) (a : α) : rel S a a
  mono {S S' : Variation} {a a' : α} (hle : S.Le S') (h : rel S a a') : rel S' a a'
  eq_of_rel {S : Variation} {a a' : α} (hexact : S.Exact) (h : rel S a a') : a = a'

/-- The data differ only as the variation allows. -/
def Alike (S : Variation) {α : Type} [Likeness α] (a a' : α) : Prop := Likeness.rel S a a'

namespace Alike

variable {S S' : Variation} {α : Type} [Likeness α] {a a' : α}

/-- Data are like themselves if nothing in them is refused by the variation. -/
theorem refl (hwhole : S.Whole) (a : α) : Alike S a a := Likeness.refl hwhole a

/-- Where only values may differ, all data are like themselves. -/
theorem refl_values {R : Json → Json → Prop} (a : α) : Alike (.values R) a a :=
  refl (Variation.whole_values R) a

/-- A variation that allows more relates more. -/
theorem mono (h : Alike S a a') (hle : S.Le S') : Alike S' a a' := Likeness.mono hle h

/-- Where nothing varies alike data are equal. -/
theorem eq (h : Alike S a a') (hexact : S.Exact) : a = a' := Likeness.eq_of_rel hexact h

end Alike

namespace Likeness

variable {α β : Type}

instance (priority := low) same : Likeness α where
  rel _ := Eq
  refl _ _ := rfl
  mono _ h := h
  eq_of_rel _ h := h

instance [Likeness α] : Likeness (List α) where
  rel S := List.Forall₂ (Alike S)
  refl hwhole _ := List.forall₂_same.mpr fun a _ => .refl hwhole a
  mono hle h := h.imp fun _ _ ha => ha.mono hle
  eq_of_rel hexact h := List.forall₂_eq_eq_eq ▸ h.imp fun _ _ ha => ha.eq hexact

instance [Likeness α] : Likeness (Option α) where
  rel S := Option.Rel (Alike S)
  refl hwhole
    | .none => .none
    | .some a => .some (.refl hwhole a)
  mono hle h := by
    cases h with
    | none => exact .none
    | some ha => exact .some (ha.mono hle)
  eq_of_rel hexact h := by
    cases h with
    | none => rfl
    | some ha => exact congrArg some (ha.eq hexact)

instance [Likeness α] [Likeness β] : Likeness (α × β) where
  rel S a a' := Alike S a.1 a'.1 ∧ Alike S a.2 a'.2
  refl hwhole a := ⟨.refl hwhole a.1, .refl hwhole a.2⟩
  mono hle h := ⟨h.1.mono hle, h.2.mono hle⟩
  eq_of_rel hexact h := Prod.ext (h.1.eq hexact) (h.2.eq hexact)

/-- Data that are compared part by part. -/
abbrev of [Likeness β] (parts : α → β) (hparts : Function.Injective parts) : Likeness α where
  rel S a a' := Alike S (parts a) (parts a')
  refl hwhole a := .refl hwhole (parts a)
  mono hle h := h.mono hle
  eq_of_rel hexact h := hparts (h.eq hexact)

/-- Data that are the same, and in which only tokens stand that are allowed. -/
abbrev ofTokens (tokens : α → List AliasToken) : Likeness α where
  rel S a a' := a = a' ∧ ∀ t ∈ tokens a, S.token t
  refl hwhole _ := ⟨rfl, fun t _ => hwhole t⟩
  mono hle h := ⟨h.1, fun t ht => hle.token (h.2 t ht)⟩
  eq_of_rel _ h := h.1

/-- Both computations are refused with one error, or both give a value. -/
inductive Outcomes (S : β → β → Prop) : Except α β → Except α β → Prop
  | ok {b b' : β} (hvalue : S b b') : Outcomes S (.ok b) (.ok b')
  | error (a : α) : Outcomes S (.error a) (.error a)

theorem Outcomes.refl {S : β → β → Prop} (hrefl : ∀ b, S b b) (value : Except α β) :
    Outcomes S value value := by
  cases value with
  | ok b => exact .ok (hrefl b)
  | error a => exact .error a

/-- Outcomes are compared by their values, and errors only with themselves. -/
theorem Outcomes.imp {S S' : β → β → Prop} {value value' : Except α β}
    (h : Outcomes S value value') (himp : ∀ b b', S b b' → S' b b') : Outcomes S' value value' := by
  cases h with
  | ok hvalue => exact .ok (himp _ _ hvalue)
  | error a => exact .error a

instance [Likeness β] : Likeness (Except α β) where
  rel S := Outcomes (Alike S)
  refl hwhole
    | .ok b => .ok (.refl hwhole b)
    | .error a => .error a
  mono hle h := by
    cases h with
    | ok hb => exact .ok (hb.mono hle)
    | error a => exact .error a
  eq_of_rel hexact h := by
    cases h with
    | ok hb => exact congrArg Except.ok (hb.eq hexact)
    | error a => rfl

/-- Data of the type hold no fragments, so they are alike only where they are the same. -/
class Plain (α : Type) [Likeness α] : Prop where
  alike_iff {S : Variation} {a a' : α} : Alike S a a' ↔ a = a'

instance (priority := low) : Plain α := ⟨Iff.rfl⟩

instance [Likeness α] [Plain α] : Plain (List α) where
  alike_iff {S a a'} := by
    have hitem : (Alike S : α → α → Prop) = Eq := funext₂ fun _ _ => propext Plain.alike_iff
    change List.Forall₂ (Alike S) a a' ↔ a = a'
    rw [hitem, List.forall₂_eq_eq_eq]

instance [Likeness α] [Plain α] : Plain (Option α) where
  alike_iff {S a a'} := by
    constructor
    · intro h
      cases h with
      | none => rfl
      | some ha => exact congrArg some (Plain.alike_iff.mp ha)
    · rintro rfl
      cases a with
      | none => exact .none
      | some a => exact .some (Plain.alike_iff.mpr rfl)

instance [Likeness β] [Plain β] : Plain (Except α β) where
  alike_iff {S value value'} := by
    constructor
    · intro h
      cases h with
      | ok hb => exact congrArg Except.ok (Plain.alike_iff.mp hb)
      | error e => rfl
    · rintro rfl
      cases value with
      | ok b => exact .ok (Plain.alike_iff.mpr rfl)
      | error e => exact .error e

end Likeness

/-- Data that hold no fragments are the same where they are alike. -/
theorem Alike.plain {S : Variation} {α : Type} [Likeness α] [Likeness.Plain α] {a a' : α}
    (h : Alike S a a') : a = a' :=
  Likeness.Plain.alike_iff.mp h

/-- Data that hold no fragments are like themselves. -/
theorem Alike.of_plain {S : Variation} {α : Type} [Likeness α] [Likeness.Plain α] (a : α) :
    Alike S a a :=
  Likeness.Plain.alike_iff.mpr rfl

/-- The parameters are the same, or JSON values that `R` relates. -/
inductive Sql.Param.Alike (R : Json → Json → Prop) : Param → Param → Prop
  | same (param : Param) : Alike R param param
  | json {value value' : Json} (hvalue : R value value') : Alike R (.json value) (.json value')

/-- The nodes are the same and all tokens in them are allowed, or they hold alike parameters. -/
inductive Sql.Node.Alike (S : Variation) : Node → Node → Prop
  | same {node : Node} (htokens : ∀ t ∈ node.tokens, S.token t) : Alike S node node
  | value {param param' : Param} (hparam : param.Alike S.json param') :
      Alike S (.value param) (.value param')

namespace Likeness

instance : Likeness Json where
  rel S value value' := value = value' ∨ S.json value value'
  refl _ _ := .inl rfl
  mono hle h := h.imp_right hle.json
  eq_of_rel hexact h := h.resolve_right (hexact _ _)

instance : Likeness AliasToken := .ofTokens fun t => [t]

instance : Likeness Param where
  rel S := Param.Alike S.json
  refl _ := .same
  mono hle h := by
    cases h with
    | same => exact .same _
    | json hvalue => exact .json (hle.json hvalue)
  eq_of_rel hexact h := by
    cases h with
    | same => rfl
    | json hvalue => exact absurd hvalue (hexact _ _)

instance : Likeness Node where
  rel := Node.Alike
  refl hwhole _ := .same fun t _ => hwhole t
  mono hle h := by
    cases h with
    | same htokens => exact .same fun t ht => hle.token (htokens t ht)
    | value hparam => exact .value (Likeness.mono (α := Param) hle hparam)
  eq_of_rel hexact h := by
    cases h with
    | same htokens => rfl
    | value hparam => exact congrArg Node.value (Likeness.eq_of_rel (α := Param) hexact hparam)

instance : Likeness Compiled :=
  .of (fun compiled => (compiled.text, compiled.params)) fun | ⟨_, _⟩, ⟨_, _⟩, rfl => rfl

instance : Likeness OrderTerm :=
  .of (fun term => (term.expr, term.ascending, term.nulls)) fun
    | ⟨_, _, _⟩, ⟨_, _, _⟩, rfl => rfl

end Likeness

namespace Alike

variable {S : Variation} {α β : Type} [Likeness α] [Likeness β]

theorem append {f f' g g' : List α} (hf : Alike S f f') (hg : Alike S g g') :
    Alike S (f ++ g) (f' ++ g') :=
  List.rel_append hf hg

theorem concat {items items' : List α} (h : Alike S items items') {a a' : α} (ha : Alike S a a') :
    Alike S (items ++ [a]) (items' ++ [a']) :=
  h.append (.cons ha .nil)

/-- Lists that are alike are of the same length. -/
theorem length_eq {items items' : List α} (h : Alike S items items') :
    items'.length = items.length :=
  (List.Forall₂.length_eq h).symm

theorem isEmpty_eq {items items' : List α} (h : Alike S items items') :
    items'.isEmpty = items.isEmpty := by
  cases h <;> rfl

theorem map {γ : Type} {P : γ → γ → Prop} {items items' : List γ} {f f' : γ → α}
    (h : List.Forall₂ P items items') (hf : ∀ c c', P c c' → Alike S (f c) (f' c')) :
    Alike S (items.map f) (items'.map f') := by
  induction h with
  | nil => exact .nil
  | cons hitem _ ih => exact .cons (hf _ _ hitem) ih

theorem flatten {items items' : List (List α)} (h : Alike S items items') :
    Alike S items.flatten items'.flatten :=
  List.rel_flatten h

/-- Partial functions on alike values give alike outcomes. -/
theorem bind {ε : Type} {value value' : Except ε α} {next next' : α → Except ε β}
    (hvalue : Alike S value value')
    (hnext : ∀ a a', Alike S a a' → Alike S (next a) (next' a')) :
    Alike S (value >>= next) (value' >>= next') := by
  cases hvalue with
  | ok ha => exact hnext _ _ ha
  | error e => exact .error e

theorem mapError {ε δ : Type} {value value' : Except ε α} (h : Alike S value value') (f : ε → δ) :
    Alike S (value.mapError f) (value'.mapError f) := by
  cases h with
  | ok ha => exact .ok ha
  | error e => exact .error (f e)

theorem ite {p : Prop} [Decidable p] {a a' b b' : α} (ha : Alike S a a') (hb : Alike S b b') :
    Alike S (if p then a else b) (if p then a' else b') := by
  split
  · exact ha
  · exact hb

/-! Fragments -/

theorem param {value value' : Json} (h : Alike S value value') :
    Alike S (Param.json value) (Param.json value') := by
  rcases h with rfl | hvalue
  · exact Param.Alike.same _
  · exact Param.Alike.json hvalue

/-- A parameter may vary in its value, never in its place. -/
theorem value {param param' : Param} (h : Alike S param param') :
    Alike S [Node.value param] [Node.value param'] :=
  .cons (Node.Alike.value h) .nil

theorem node {n n' : Node} (h : Alike S n n') : Alike S [n] [n'] := .cons h .nil

/-- A node without tokens is like itself. -/
theorem bare {n : Node} (h : n.tokens = []) : Alike S [n] [n] :=
  node (Node.Alike.same fun t ht => by rw [h] at ht; cases ht)

@[simp]
theorem raw (s : String) : Alike S [Node.raw s] [Node.raw s] := bare rfl

@[simp]
theorem text (s : String) : Alike S (text s) (text s) := by
  rw [Sql.text]
  exact ite .nil (raw s)

@[simp]
theorem count (n : Nat) : Alike S (count n) (count n) := raw _

@[simp]
theorem constant (s : String) : Alike S (constant s) (constant s) := by
  rw [Sql.constant, literal]
  split
  · exact raw _
  · exact bare rfl

theorem aliasNode {t t' : AliasToken} (h : Alike S t t') :
    Alike S (aliasNode t) (aliasNode t') := by
  obtain ⟨rfl, htokens⟩ := h
  exact Node.Alike.same htokens

theorem between {f f' : Fragment} (h : Alike S f f') (before behind : String) :
    Alike S (Sql.text before ++ f ++ Sql.text behind) (Sql.text before ++ f' ++ Sql.text behind) :=
  ((text before).append h).append (text behind)

theorem parens {f f' : Fragment} (h : Alike S f f') : Alike S (parens f) (parens f') :=
  h.between _ _

theorem join {items items' : List Fragment} (h : Alike S items items') (separator : String) :
    Alike S (join items separator) (join items' separator) := by
  refine flatten ?_
  induction h with
  | nil => exact .nil
  | cons hfirst hrest ih =>
      cases hrest with
      | nil => exact .cons hfirst .nil
      | cons hnext hrest => exact .cons hfirst (.cons (text separator) ih)

theorem column {n n' : Node} (h : Alike S n n') (name : String) :
    Alike S (n.column name) (n'.column name) := by
  cases h with
  | value hparam => exact (((value hparam).between _ _).append (bare rfl))
  | same htokens =>
      cases n with
      | identifier parts =>
          refine node (Node.Alike.same fun t ht => htokens t ?_)
          simpa [Node.tokens, IdentPart.tokens] using ht
      | raw | value =>
          exact ((node (Node.Alike.same htokens)).between _ _).append (bare rfl)

theorem isIdentifier_eq {n n' : Node} (h : Alike S n n') : n'.isIdentifier = n.isIdentifier := by
  cases h <;> rfl

/-- A template shows its holes in the order in which they come. -/
theorem interleave {holes holes' : List Fragment} (h : Alike S holes holes')
    (segments : List String) :
    Alike S (interleave segments holes) (interleave segments holes') := by
  induction segments generalizing holes holes' with
  | nil => exact .nil
  | cons segment segments ih =>
      cases h with
      | nil => exact (text segment).append (ih .nil)
      | cons hhole hholes => exact ((text segment).append hhole).append (ih hholes)

theorem template {holes holes' : List Fragment} (h : Alike S holes holes')
    (segments : List String) : Alike S (template segments holes) (template segments holes') := by
  rw [Sql.template, Sql.template, h.length_eq]
  exact ite (.error _) (ite (.error _) (ite (.error _) (.ok (h.interleave segments))))

/-- Terms are alike that sort in one direction by alike expressions. -/
theorem term {t t' : OrderTerm} (h : Alike S t t') :
    Alike S t.expr t'.expr ∧ t'.ascending = t.ascending ∧ t'.nulls = t.nulls :=
  ⟨h.1, Eq.symm h.2.1, (plain h.2.2).symm⟩

/-- The expressions of terms that are alike. -/
theorem exprs {terms terms' : List OrderTerm} (h : Alike S terms terms') :
    Alike S (terms.map OrderTerm.expr) (terms'.map OrderTerm.expr) :=
  map h fun _ _ hterm => hterm.1

/-- A term is rendered in its own direction, or in the other one if the order is flipped. -/
theorem orderTerm {term term' : OrderTerm} (h : Alike S term term') (flip : Bool) :
    Alike S (term.fragment flip) (term'.fragment flip) := by
  obtain ⟨expr, ascending, nulls⟩ := term
  obtain ⟨expr', ascending', nulls'⟩ := term'
  obtain ⟨hexpr, rfl, rfl⟩ := h.term
  have hplace (term : OrderTerm) : Alike S term.nullsPlace term.nullsPlace := by
    rw [OrderTerm.nullsPlace]
    split
    · exact text _
    · exact text _
    · exact .nil
  cases flip <;> exact (hexpr.append (text _)).append (hplace _)

/-- There is an order clause in both, or in none. -/
theorem orderClause {terms terms' : List OrderTerm} (h : Alike S terms terms') (flip : Bool) :
    Alike S (orderClause? terms flip) (orderClause? terms' flip) := by
  rw [orderClause?, orderClause?, h.isEmpty_eq]
  exact ite .none (.some ((map h fun _ _ hterm => orderTerm hterm flip).join _))

end Alike

/-! Compilation -/

namespace Sql

variable {S : Variation}

/-- The text of a fragment does not depend on the values that are bound in it. -/
theorem Node.Alike.text_eq {n n' : Node} (h : n.Alike S n') (numbering : Numbering) :
    n'.text numbering = n.text numbering := by
  cases h <;> rfl

/-- Alike nodes take up the same numbers for parameters and aliases. -/
theorem Node.Alike.advance_eq {n n' : Node} (h : n.Alike S n') (numbering : Numbering) :
    n'.advance numbering = n.advance numbering := by
  cases h <;> rfl

/-- Alike fragments compile to the same text. -/
theorem Node.texts_eq {f f' : Fragment} (h : PageQuery.Alike S f f') (numbering : Numbering) :
    texts numbering f' = texts numbering f := by
  induction h generalizing numbering with
  | nil => rfl
  | cons hnode _ ih =>
      rw [texts, texts, Node.Alike.text_eq hnode, Node.Alike.advance_eq hnode, ih]

/-- The parameters of alike fragments are alike one by one. -/
theorem params_alike {f f' : Fragment} (h : PageQuery.Alike S f f') :
    PageQuery.Alike S (f.filterMap Node.param?) (f'.filterMap Node.param?) := by
  induction h with
  | nil => exact .nil
  | @cons node _ _ _ hnode _ ih =>
      cases hnode with
      | value hparam => exact .cons hparam ih
      | same =>
          cases node with
          | value param => exact .cons (Param.Alike.same param) ih
          | _ => exact ih

/-- Alike fragments compile to the same text with alike parameters. -/
theorem compile_alike {f f' : Fragment} (h : PageQuery.Alike S f f') :
    PageQuery.Alike S (compile f) (compile f') := by
  rw [compile, compile, Node.texts_eq h]
  cases Node.texts {} f with
  | error e => exact .error e
  | ok texts => exact .ok ⟨rfl, params_alike h⟩

end Sql

end PageQuery
