import PageQuery.Builder.Assembly
import PageQuery.Builder.Changes
import PageQuery.Proofs.Alias.Taken
import PageQuery.Proofs.Likeness.Statements

/-!
# What is seen of builders

An operation looks at a builder only in part: at what its concerns have been settled to, and
not at what still waits for a lock.  Two builders that are alike as far as they are seen give
alike parts of statements.  Main statements: this, and that an expression has alike values
where its names stand for alike fragments.
-/

namespace PageQuery

open Sql

variable {S : Variation}

/-! Expressions -/

namespace Likeness

instance : Likeness NodeExpr := .ofTokens NodeExpr.tokens

instance : Likeness Expr := .ofTokens Expr.tokens

instance : Likeness FragmentSource := .ofTokens Aliased.tokens

instance : Likeness Scope :=
  .of (fun scope => (scope.tableAlias, scope.parentAlias, scope.saved)) fun
    | ⟨_, _, _⟩, ⟨_, _, _⟩, rfl => rfl

end Likeness

namespace Alike

/-- A name is saved in both runs or in neither. -/
theorem lookup {saved saved' : List (String × Fragment)} (h : Alike S saved saved')
    (name : String) : Alike S (saved.lookup name) (saved'.lookup name) := by
  induction h with
  | nil => exact .none
  | @cons entry entry' _ _ hentry _ ih =>
      obtain ⟨key, f⟩ := entry
      obtain ⟨key', f'⟩ := entry'
      obtain ⟨hkey, hf⟩ := hentry
      obtain rfl : key = key' := hkey
      rw [List.lookup_cons, List.lookup_cons]
      cases name == key with
      | true => exact .some hf
      | false => exact ih

variable {scope scope' : Scope}

/-- A node expression can show only the tokens in it and those in the scope. -/
theorem evalNode (hscope : Alike S scope scope') {node : NodeExpr}
    (hnode : ∀ t ∈ node.tokens, S.token t) :
    Alike S (node.eval scope) (node.eval scope') := by
  cases node with
  | fixed node => exact .ok (Node.Alike.same hnode)
  | tableAlias => exact hscope.1
  | parentAlias => exact hscope.2.1

mutual

/-- An expression has alike values where its names stand for alike fragments. -/
theorem eval (hscope : Alike S scope scope') {expr : Expr} (hexpr : ∀ t ∈ expr.tokens, S.token t) :
    Alike S (expr.eval scope) (expr.eval scope') := by
  cases expr with
  | text s => exact .ok (text s)
  | node n =>
      apply ((hscope.evalNode hexpr).mapError _).bind
      intro _ _ hnode
      exact .ok (node hnode)
  | column n name =>
      apply ((hscope.evalNode hexpr).mapError _).bind
      intro _ _ hnode
      exact .ok (hnode.column name)
  | sequence items =>
      apply (hscope.evalAll hexpr).bind
      intro _ _ hitems
      exact .ok hitems.flatten
  | join items separator =>
      apply (hscope.evalAll hexpr).bind
      intro _ _ hitems
      exact .ok (hitems.join separator)
  | parens inner =>
      have hinner : ∀ t ∈ inner.tokens, S.token t := hexpr
      apply (hscope.eval hinner).bind
      intro _ _ hf
      exact .ok hf.parens
  | template segments holes =>
      apply (hscope.evalAll hexpr).bind
      intro _ _ hholes
      exact (hholes.template segments).mapError _
  | saved name =>
      have hsaved : Alike S scope.saved scope'.saved := hscope.2.2
      have hvalue := hsaved.lookup name
      rw [Expr.eval, Expr.eval]
      generalize scope.saved.lookup name = f, scope'.saved.lookup name = f' at hvalue ⊢
      cases hvalue with
      | none => exact .error _
      | some hf => exact .ok hf

/-- Items are evaluated in order, up to the first that is refused. -/
theorem evalAll (hscope : Alike S scope scope') {items : List Expr}
    (hitems : ∀ t ∈ Expr.tokensAll items, S.token t) :
    Alike S (Expr.evalAll scope items) (Expr.evalAll scope' items) := by
  cases items with
  | nil => exact .ok .nil
  | cons item rest =>
      obtain ⟨hfirst, hrest⟩ := List.forall_mem_append.mp hitems
      apply (hscope.eval hfirst).bind
      intro _ _ hvalue
      apply (hscope.evalAll hrest).bind
      intro _ _ hvalues
      exact .ok (.cons hvalue hvalues)

end

/-- The identifiers of a row, from its table. -/
theorem identifiers {table table' : Node} (h : Alike S table table') (primaryKey : List String) :
    Alike S (Action.identifiers table primaryKey) (Action.identifiers table' primaryKey) := by
  have hcolumns : Alike S (primaryKey.map table.column) (primaryKey.map table'.column) := by
    refine .map (P := Eq) (List.forall₂_same.mpr fun _ _ => rfl) ?_
    rintro name _ rfl
    exact h.column name
  exact (hcolumns.join _).between _ _

end Alike

/-! Builders -/

namespace Likeness

instance : Likeness ParentRef :=
  .of (fun parent => (parent.id, parent.tableAlias)) fun | ⟨_, _⟩, ⟨_, _⟩, rfl => rfl

end Likeness

/-- All that operations see of two builders is alike.  What waits in a builder is not seen, and
neither are its callbacks and its comparator. -/
structure Builder.Seen (S : Variation) (b b' : Builder) : Prop where
  options : b'.options = b.options
  parent : Alike S b.parent b'.parent
  source : Alike S b.source b'.source
  joins : Alike S b.joins b'.joins
  lower : Alike S b.lower b'.lower
  upper : Alike S b.upper b'.upper
  orderIsUnique : b'.orderIsUnique = b.orderIsUnique
  first : b'.first = b.first
  last : b'.last = b.last
  cursorTag : b'.cursorTag = b.cursorTag
  identifiersSelected : b'.identifiersSelected = b.identifiersSelected
  selects : Alike S b.resolved.selects b'.resolved.selects
  wheres : Alike S b.resolved.wheres b'.resolved.wheres
  orderTerms : Alike S b.resolved.orderTerms b'.resolved.orderTerms
  limit : b'.resolved.limit = b.resolved.limit
  offset : b'.resolved.offset = b.resolved.offset
  cursor : Alike S b.resolved.cursor b'.resolved.cursor
  locked : b'.locked = b.locked
  children : b'.children = b.children

namespace Builder.Seen

variable {b b' : Builder}

/-- A builder is seen like itself. -/
theorem refl (hwhole : S.Whole) (b : Builder) : b.Seen S b where
  options := rfl
  parent := .refl hwhole _
  source := .refl hwhole _
  joins := .refl hwhole _
  lower := .refl hwhole _
  upper := .refl hwhole _
  orderIsUnique := rfl
  first := rfl
  last := rfl
  cursorTag := rfl
  identifiersSelected := rfl
  selects := .refl hwhole _
  wheres := .refl hwhole _
  orderTerms := .refl hwhole _
  limit := rfl
  offset := rfl
  cursor := .refl hwhole _
  locked := rfl
  children := rfl

variable (h : b.Seen S b')

include h

/-- The alias of the row source is refused in both, if there is none. -/
theorem tableAlias : Alike S b.tableAlias b'.tableAlias := by
  have hsource := h.source
  rw [Builder.tableAlias, Builder.tableAlias]
  generalize b.source = source, b'.source = source' at hsource ⊢
  cases hsource with
  | none => exact .error _
  | some hsource => exact .ok hsource.2

/-- The table with its alias, as it stands behind a from. -/
theorem tableExpression : Alike S b.tableExpression b'.tableExpression := by
  have hsource := h.source
  rw [Builder.tableExpression, Builder.tableExpression]
  generalize b.source = source, b'.source = source' at hsource ⊢
  cases hsource with
  | none => exact .error _
  | some hsource => exact .ok hsource.1

theorem parentAlias : Alike S b.parentAlias b'.parentAlias := by
  have hparent := h.parent
  rw [Builder.parentAlias, Builder.parentAlias]
  generalize b.parent = parent, b'.parent = parent' at hparent ⊢
  cases hparent with
  | none => exact .error _
  | some hparent => exact .ok hparent.2

/-- What is answered of the parents. -/
theorem parentAnswer :
    Alike S (b.parent.map fun parent => (parent.id == World.root, parent.tableAlias))
      (b'.parent.map fun parent => (parent.id == World.root, parent.tableAlias)) := by
  have hparent := h.parent
  generalize b.parent = parent, b'.parent = parent' at hparent ⊢
  cases hparent with
  | none => exact .none
  | some hparent =>
      obtain ⟨hid, halias⟩ := hparent
      exact .some ⟨congrArg (· == World.root) hid, halias⟩

/-- What the names in an expression stand for. -/
theorem scope {saved saved' : List (String × Fragment)} (hsaved : Alike S saved saved') :
    Alike S (⟨b.tableAlias, b.parentAlias, saved⟩ : Scope)
      ⟨b'.tableAlias, b'.parentAlias, saved'⟩ :=
  ⟨h.tableAlias, h.parentAlias, hsaved⟩

/-- Children have the same names and ids in both runs. -/
theorem child (name : String) : b'.child name = b.child name := by
  rw [Builder.child, Builder.child, h.children]

/-- The bounds of one side, in the order in which they were registered. -/
theorem bounds (isLower : Bool) : Alike S (b.bounds isLower) (b'.bounds isLower) :=
  .ite h.lower h.upper

/-- The guards against rows that are null, as the options ask for them. -/
theorem guards (options : BuildOptions) : Alike S (b.guards options) (b'.guards options) := by
  have halias := h.tableAlias
  rw [Builder.guards, Builder.guards]
  generalize b.tableAlias = value, b'.tableAlias = value' at halias ⊢
  cases halias with
  | error e =>
      cases options.nullCase <;> cases options.notDistinctCase
      · exact .ok .nil
      all_goals exact .error e
  | @ok rowAlias rowAlias' halias =>
      have hguard (behind : String) : Alike S [text "not (" ++ [rowAlias] ++ text behind]
          [text "not (" ++ [rowAlias'] ++ text behind] :=
        .cons ((Alike.node halias).between _ _) .nil
      cases options.nullCase <;> cases options.notDistinctCase
      · exact .ok .nil
      · exact .ok (hguard _)
      · exact .ok (hguard _)
      · exact .ok ((hguard _).append (hguard _))

/-- The source of rows, with the joins of the builder. -/
theorem rowSource : Alike S b.rowSource b'.rowSource := by
  apply h.tableExpression.bind
  intro _ _ htable
  apply h.tableAlias.bind
  intro _ _ halias
  exact .ok ⟨htable, halias, h.joins⟩

theorem objectOfRow : Alike S (b.objectOfRow.map RowObject.fragment)
    (b'.objectOfRow.map RowObject.fragment) := by
  have hfields := h.selects
  have halias := h.tableAlias
  rw [Builder.objectOfRow, Builder.objectOfRow, h.options]
  generalize b.resolved.selects = fields, b'.resolved.selects = fields',
    b.tableAlias = value, b'.tableAlias = value' at hfields halias ⊢
  have hobject : Alike S
      (.ok (RowObject.ofFields b.options.supportsJsonb fields).fragment : Except Error Fragment)
      (.ok (RowObject.ofFields b.options.supportsJsonb fields').fragment) :=
    .ok (hfields.ofFields _)
  cases hfields with
  | nil =>
      cases halias with
      | error e => exact .error e
      | ok halias => exact .ok halias.whole
  | cons hfield hrest =>
      cases hrest with
      | cons hnext hrest => exact hobject
      | nil =>
          simp only [(Alike.field hfield).2]
          split
          · cases halias with
            | error e => exact .error e
            | ok halias => exact .ok (halias.withCursor (Alike.field hfield).1)
          · exact hobject

/-- The object of a row, as the options want it. -/
theorem rowObject (options : BuildOptions) :
    Alike S (b.rowObject options) (b'.rowObject options) := by
  have hobject := h.objectOfRow
  rw [Builder.rowObject, Builder.rowObject]
  generalize b.objectOfRow = value, b'.objectOfRow = value' at hobject ⊢
  cases value with
  | error e =>
      cases value' with
      | ok => cases hobject
      | error =>
          cases hobject
          exact .error e
  | ok object =>
      cases value' with
      | error => cases hobject
      | ok object' =>
          have hfragment : Alike S object.fragment object'.fragment := by
            cases hobject
            assumption
          refine .ite ?_ (.ok hfragment)
          apply h.tableAlias.bind
          intro _ _ halias
          exact .ok (halias.orNull options hfragment)

/-- What is selected: every column, one object, or the fields. -/
theorem projection (plan : Plan) (options : BuildOptions) :
    Alike S (b.projection plan options) (b'.projection plan options) := by
  refine .ite ?_ (.ite ?_ (.ok (Projection.Alike.fields h.selects)))
  · apply h.tableAlias.bind
    intro _ _ halias
    exact .ok (Projection.Alike.asterisk halias)
  · apply (h.rowObject options).bind
    intro _ _ hobject
    exact .ok (Projection.Alike.object hobject (.ite h.orderTerms .nil))

end Builder.Seen

/-! Answers -/

/-- The answers are of one kind and have alike contents. -/
inductive Answer.Alike (S : Variation) : Answer → Answer → Prop
  | same {answer : Answer} (hsilent : answer.fragment? = none) : Alike S answer answer
  | fragment {f f' : Fragment} (hf : PageQuery.Alike S f f') : Alike S (.fragment f) (.fragment f')
  | cursor {f f' : Option Fragment} (hf : PageQuery.Alike S f f') : Alike S (.cursor f) (.cursor f')
  | terms {terms terms' : List OrderTerm} (hterms : PageQuery.Alike S terms terms') :
      Alike S (.terms terms) (.terms terms')
  | compiled {compiled compiled' : Compiled} (hcompiled : PageQuery.Alike S compiled compiled') :
      Alike S (.compiled compiled) (.compiled compiled')
  | parent {parent parent' : Option (Bool × Node)} (hparent : PageQuery.Alike S parent parent') :
      Alike S (.parent parent) (.parent parent')
  | rows {statement statement' : Compiled} (hstatement : PageQuery.Alike S statement statement')
      (rows : List (List Cell)) : Alike S (.rows statement rows) (.rows statement' rows)
  | connection {statement statement' : Compiled}
      (hstatement : PageQuery.Alike S statement statement') (value : Connection) :
      Alike S (.connection statement value) (.connection statement' value)

instance : Likeness Answer where
  rel := Answer.Alike
  refl hwhole
    | .fragment _ => .fragment (.refl hwhole _)
    | .cursor _ => .cursor (.refl hwhole _)
    | .done | .flag _ | .count _ | .text _ | .terms _ | .plan _ | .options _ | .phase _
    | .compiled _ | .child _ _ | .names _ | .parent _ | .rows _ _ | .connection _ _ => .same rfl
  mono hle h := by
    cases h with
    | same hsilent => exact .same hsilent
    | fragment hf => exact .fragment (hf.mono hle)
    | cursor hf => exact .cursor (hf.mono hle)
    | terms hterms => exact .terms (hterms.mono hle)
    | compiled hcompiled => exact .compiled (hcompiled.mono hle)
    | parent hparent => exact .parent (hparent.mono hle)
    | rows hstatement rows => exact .rows (hstatement.mono hle) rows
    | connection hstatement value => exact .connection (hstatement.mono hle) value
  eq_of_rel hexact h := by
    cases h with
    | same => rfl
    | fragment hf => rw [hf.eq hexact]
    | cursor hf => rw [hf.eq hexact]
    | terms hterms => rw [hterms.eq hexact]
    | compiled hcompiled => rw [hcompiled.eq hexact]
    | parent hparent => rw [hparent.eq hexact]
    | rows hstatement => rw [hstatement.eq hexact]
    | connection hstatement => rw [hstatement.eq hexact]

/-- What is saved of answers that are alike. -/
theorem Alike.savedFragment {answer answer' : Answer} (h : Alike S answer answer') :
    Alike S answer.fragment? answer'.fragment? := by
  cases h with
  | same hsilent =>
      rw [hsilent]
      exact .none
  | fragment hf => exact .some hf
  | cursor hf => exact hf
  | terms | compiled | parent | rows | connection => exact .none

end PageQuery
