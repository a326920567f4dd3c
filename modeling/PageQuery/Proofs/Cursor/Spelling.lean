import PageQuery.Cursor.Bound
import PageQuery.Proofs.Sql.Condition

/-!
# How bounds are spelled

The text of a bound has just the parentheses that it takes to read the bound back from it,
although `and` binds tighter than `or`, and a comparison tighter than both.  Main statement:
the pieces of a bound by values are read as its condition, whatever fragments its
expressions are.
-/

namespace PageQuery.Cursor.Bound

open Sql

/-- The pieces of an operand. -/
def operandPieces (expr : Fragment) : List Piece :=
  if isLone expr then [.given expr] else [.opening, .given expr, .closing]

/-- The pieces that a bound is written with. -/
def pieces : Bound → List Piece
  | .given condition => [.given condition]
  | .never => [.literal false]
  | .always => [.literal true]
  | .compare expr greater value => operandPieces expr ++ [.beyond greater, .json value]
  | .compareRows exprs greater values =>
    .opening :: (Piece.items (exprs.map .given) ++ .closing :: .beyond greater :: .opening ::
      (Piece.items (values.map .json) ++ [.closing]))
  | .beyondOrTied expr greater value rest =>
    .opening :: .opening :: (operandPieces expr ++ .beyond greater :: .json value :: .closing ::
      .or :: .opening :: (operandPieces expr ++ .equal :: .json value :: .and ::
        (rest.pieces ++ [.closing, .closing])))

/-- What a bound says. -/
def condition : Bound → Condition
  | .given condition => .given condition
  | .never => .literal false
  | .always => .literal true
  | .compare expr greater value => .beyond greater expr value
  | .compareRows exprs greater values => .beyondRow greater exprs values
  | .beyondOrTied expr greater value rest =>
    .or (.beyond greater expr value) (.and (.equal expr value) rest.condition)

/-- The fragments of a caller in a bound. -/
def givens : Bound → List Fragment
  | .given condition => [condition]
  | .never | .always => []
  | .compare expr _ _ => [expr]
  | .compareRows exprs _ _ => exprs
  | .beyondOrTied expr _ _ rest => expr :: rest.givens

/-- A bound by values, without a condition of the caller's own. -/
def ByValues : Bound → Prop
  | .given _ => False
  | .compareRows exprs _ values => exprs ≠ [] ∧ values ≠ []
  | .beyondOrTied _ _ _ rest => rest.ByValues
  | .never | .always | .compare _ _ _ => True

variable {expr : Fragment} {greater : Bool} {value : Json} {rest : List Piece}

theorem operand_eq (expr : Fragment) :
    operand expr = if isLone expr then expr else parens expr := by
  match expr with
  | [] => rfl
  | [node] => rfl
  | first :: second :: rest => rfl

/-- The pieces of an operand say what is written. -/
theorem letters_operandPieces (expr : Fragment) :
    Piece.letters (operandPieces expr) = letters (operand expr) := by
  rw [operand_eq, operandPieces]
  split
  · exact congrArg letters (List.append_nil expr)
  · simp only [Piece.letters_cons, parens, letters_append, List.append_assoc]
    rfl

/-- The pieces of a bound make up its text. -/
theorem letters_pieces (bound : Bound) : Piece.letters bound.pieces = letters bound.fragment := by
  have hcomparison (expr : Fragment) (greater : Bool) (value : Json) :
      letters (comparison expr greater value) = Piece.letters (operandPieces expr) ++
        (letters (Piece.beyond greater).fragment ++ letters (Piece.json value).fragment) := by
    rw [letters_operandPieces, comparison, letters_append, letters_append, List.append_assoc]
    rfl
  induction bound with
  | given condition => exact congrArg letters (List.append_nil condition)
  | never | always => rfl
  | compare expr greater value =>
      rw [pieces, Piece.letters_append, fragment, hcomparison, Piece.letters_cons,
        Piece.letters_cons]
      simp only [Piece.letters_nil, List.append_nil]
  | compareRows exprs greater values =>
      have hexprs : (exprs.map Piece.given).map Piece.fragment = exprs := by
        rw [List.map_map]
        exact List.map_id exprs
      have hvalues : (values.map Piece.json).map Piece.fragment = values.map boundValue :=
        List.map_map
      simp only [pieces, fragment, Piece.letters_cons, Piece.letters_append, letters_append,
        Piece.letters_items, hexprs, hvalues, List.append_assoc]
      rfl
  | beyondOrTied expr greater value rest ih =>
      have htexts : letters (text "((") = letters (text "(") ++ letters (text "(") ∧
          letters (text ") or (") = letters (text ")") ++ letters (text " or ") ++
            letters (text "(") ∧
          letters (text "))") = letters (text ")") ++ letters (text ")") := ⟨rfl, rfl, rfl⟩
      simp only [pieces, fragment, Piece.letters_cons, Piece.letters_append, letters_append,
        hcomparison, letters_operandPieces, ih, htexts.1, htexts.2.1, htexts.2.2,
        List.append_assoc]
      rfl

theorem given_mem_items {α : Type} {piece : α → Piece} {g : Fragment} (values : List α)
    (hmem : .given g ∈ Piece.items (values.map piece)) : ∃ a ∈ values, piece a = .given g := by
  induction values with
  | nil => cases hmem
  | cons first others ih =>
      cases others with
      | nil => exact ⟨first, List.mem_cons_self, (List.mem_singleton.mp hmem).symm⟩
      | cons second others =>
          simp only [Piece.items, List.map_cons, List.intersperse_cons_cons, List.mem_cons,
            reduceCtorEq, false_or] at hmem ih
          rcases hmem with hfirst | hothers
          · exact ⟨first, List.mem_cons_self, hfirst.symm⟩
          · obtain ⟨a, ha, hpiece⟩ := ih hothers
            exact ⟨a, List.mem_cons_of_mem _ (by simpa using ha), hpiece⟩

theorem given_mem_operandPieces {g : Fragment} (hmem : .given g ∈ operandPieces expr) :
    g = expr := by
  rw [operandPieces] at hmem
  split at hmem <;> simpa using hmem

/-- A bound shows no fragment of a caller but its expressions. -/
theorem given_mem_pieces {bound : Bound} {g : Fragment} (hmem : .given g ∈ bound.pieces) :
    g ∈ bound.givens := by
  induction bound with
  | given condition => simpa [pieces, givens] using hmem
  | never | always => simp [pieces] at hmem
  | compare expr greater value =>
      simp only [pieces, List.mem_append, List.mem_cons, reduceCtorEq, List.not_mem_nil,
        or_false] at hmem
      exact List.mem_singleton.mpr (given_mem_operandPieces hmem)
  | compareRows exprs greater values =>
      simp only [pieces, List.mem_append, List.mem_cons, reduceCtorEq, List.not_mem_nil,
        false_or, or_false] at hmem
      rcases hmem with hexprs | hvalues
      · obtain ⟨expr, hexpr, hpiece⟩ := given_mem_items exprs hexprs
        cases hpiece
        exact hexpr
      · obtain ⟨value, _, hpiece⟩ := given_mem_items values hvalues
        cases hpiece
  | beyondOrTied expr greater value rest ih =>
      simp only [pieces, List.mem_append, List.mem_cons, reduceCtorEq, List.not_mem_nil,
        false_or, or_false] at hmem
      rcases hmem with hexpr | hexpr | hrest
      · exact List.mem_cons.mpr (.inl (given_mem_operandPieces hexpr))
      · exact List.mem_cons.mpr (.inl (given_mem_operandPieces hexpr))
      · exact List.mem_cons_of_mem _ (ih hrest)

/-! Reading bounds -/

/-- An operand is read back whole. -/
theorem operand?_operandPieces (expr : Fragment) (rest : List Piece) :
    Piece.operand? (operandPieces expr ++ rest) = some ([expr], rest) := by
  rw [operandPieces]
  split
  · exact if_pos ‹_›
  · rfl

theorem comparison?_beyond (expr : Fragment) (greater : Bool) (value : Json)
    (rest : List Piece) :
    Piece.comparison? (operandPieces expr ++ .beyond greater :: .json value :: rest) =
      some (.beyond greater expr value, rest) := by
  rw [Piece.comparison?, operand?_operandPieces]

theorem comparison?_equal (expr : Fragment) (value : Json) (rest : List Piece) :
    Piece.comparison? (operandPieces expr ++ .equal :: .json value :: rest) =
      some (.equal expr value, rest) := by
  rw [Piece.comparison?, operand?_operandPieces]

/-- A comparison of rows is read back whole. -/
theorem comparison?_beyondRow {exprs : List Fragment} {values : List Json} (hexprs : exprs ≠ [])
    (hvalues : values ≠ []) (greater : Bool) (rest : List Piece) :
    Piece.comparison? ((compareRows exprs greater values).pieces ++ rest) =
      some (.beyondRow greater exprs values, rest) := by
  have hleft (rest : List Piece) :
      Piece.items? Piece.given? (Piece.items (exprs.map .given) ++ .closing :: rest) =
        some (exprs, rest) := Piece.items?_items .given (fun _ => rfl) hexprs rest
  have hright (rest : List Piece) :
      Piece.items? Piece.json? (Piece.items (values.map .json) ++ .closing :: rest) =
        some (values, rest) := Piece.items?_items .json (fun _ => rfl) hvalues rest
  simp only [pieces, List.cons_append, List.append_assoc, List.nil_append, Piece.comparison?,
    Piece.operand?, hleft]
  simp only [hright, Option.map_some]

/-- An operand behind a parenthesis is not what the parenthesis is about. -/
theorem opening_operandPieces (expr : Fragment) {operator : Piece} (hcomma : operator ≠ .comma)
    (hclosing : operator ≠ .closing) (rest : List Piece) :
    Piece.comparison? (.opening :: (operandPieces expr ++ operator :: rest)) = none ∧
      ∀ f others, operandPieces expr ++ operator :: rest ≠ .given f :: .closing :: others := by
  rw [operandPieces]
  split
  · refine ⟨?_, fun f others hsame => hclosing ?_⟩
    · cases operator <;> first | rfl | contradiction
    · exact (List.cons.inj (List.cons.inj hsame).2).1
  · exact ⟨rfl, fun f others hsame => by cases (List.cons.inj hsame).1⟩

theorem opening_opening (expr : Fragment) (rest : List Piece) :
    Piece.comparison? (.opening :: .opening :: (operandPieces expr ++ rest)) = none := by
  rw [operandPieces]
  split <;> rfl

/-- How deep the reader has to go for a bound. -/
def depth : Bound → Nat
  | .beyondOrTied _ _ _ rest => rest.depth + 8
  | _ => 1

theorem depth_le (bound : Bound) : bound.depth ≤ 3 * bound.pieces.length + 1 := by
  induction bound with
  | beyondOrTied expr greater value rest ih =>
      simp only [depth, pieces, List.length_cons, List.length_append]
      omega
  | given | never | always | compare | compareRows => exact Nat.le_add_left ..

/-- A bound by values is read back as the condition that it stands for. -/
theorem parse_pieces {bound : Bound} (hbound : bound.ByValues) {fuel : Nat}
    (hfuel : bound.depth ≤ fuel) (rest : List Piece) :
    Level.single.parse fuel (bound.pieces ++ rest) = some (bound.condition, rest) := by
  induction bound generalizing fuel rest with
  | given condition => exact absurd hbound id
  | never | always =>
      obtain ⟨fuel, rfl⟩ := Nat.exists_eq_add_of_le' hfuel
      rfl
  | compare expr greater value =>
      obtain ⟨fuel, rfl⟩ := Nat.exists_eq_add_of_le' hfuel
      have hcomparison := comparison?_beyond expr greater value rest
      apply Level.parse_comparison
      rwa [pieces, List.append_assoc]
  | compareRows exprs greater values =>
      obtain ⟨fuel, rfl⟩ := Nat.exists_eq_add_of_le' hfuel
      exact Level.parse_comparison (comparison?_beyondRow hbound.1 hbound.2 greater rest)
  | beyondOrTied expr greater value inner ih =>
      obtain ⟨fuel, rfl⟩ := Nat.exists_eq_add_of_le' hfuel
      have hbeyond (rest : List Piece) :=
        @opening_operandPieces expr (.beyond greater) nofun nofun rest
      have hequal (rest : List Piece) := @opening_operandPieces expr .equal nofun nofun rest
      have hinner (rest : List Piece) := ih hbound (Nat.le_add_left inner.depth fuel) rest
      simp only [pieces, List.cons_append, List.append_assoc, List.nil_append, depth]
      -- `((expr > value) or (expr = value and inner))`, from the outside in
      apply Level.parse_parens (opening_opening expr _) (by simp)
      apply Level.parse_or
      · refine Level.parse_conjuncts ?_ (by simp)
        refine Level.parse_parens (hbeyond _).1 (hbeyond _).2 ?_
        refine Level.parse_alternatives (Level.parse_conjuncts ?_ (by simp)) (by simp)
        exact Level.parse_comparison (comparison?_beyond expr greater value _)
      · refine Level.parse_alternatives (Level.parse_conjuncts ?_ (by simp)) (by simp)
        refine Level.parse_parens (hequal _).1 (hequal _).2 (Level.parse_alternatives ?_ (by simp))
        apply Level.parse_and
        · exact Level.parse_comparison (comparison?_equal expr value _)
        · exact Level.parse_conjuncts (hinner _) (by simp)

/-- A bound by values is read back from its text. -/
theorem spells {bound : Bound} (hbound : bound.ByValues) {allowed : List Fragment}
    (hgivens : ∀ g ∈ bound.givens, g ∈ allowed) :
    Spells bound.fragment allowed bound.pieces bound.condition where
  text := letters_pieces bound
  givens _ hmem := hgivens _ (given_mem_pieces hmem)
  read := by
    have hparse := parse_pieces hbound bound.depth_le []
    rw [List.append_nil] at hparse
    exact Condition.read_of_parse hparse

/-! The bounds of an order -/

variable {isAfter : Bool} {terms : List OrderTerm} {values : List Json}

theorem byValues_spelledOut (isAfter : Bool) (terms : List OrderTerm) (values : List Json) :
    (spelledOut isAfter terms values).ByValues := by
  induction terms, values using spelledOut.induct with
  | case1 term value => exact trivial
  | case2 term terms value values hlast ih =>
      rw [spelledOut]
      · exact ih
      · exact hlast
  | case3 terms values hlast hcons =>
      rw [spelledOut]
      · exact trivial
      · exact hlast
      · exact hcons

theorem givens_spelledOut {g : Fragment} (hmem : g ∈ (spelledOut isAfter terms values).givens) :
    g ∈ terms.map OrderTerm.expr := by
  induction terms, values using spelledOut.induct with
  | case1 term value => exact hmem
  | case2 term terms value values hlast ih =>
      rw [spelledOut, givens] at hmem
      · rcases List.mem_cons.mp hmem with rfl | hrest
        · exact List.mem_cons_self
        · exact List.mem_cons_of_mem _ (ih hrest)
      · exact hlast
  | case3 terms values hlast hcons =>
      rw [spelledOut] at hmem
      · cases hmem
      · exact hlast
      · exact hcons

/-- If all directions are the same the bound is a comparison of rows. -/
theorem ofOrder_uniform {ascending : Bool} (hne : terms ≠ [])
    (huniform : ∀ term ∈ terms, term.ascending = ascending) :
    ofOrder isAfter terms values = uniform ascending isAfter terms values := by
  obtain ⟨first, rest, rfl⟩ := List.exists_cons_of_ne_nil hne
  have hfirst := huniform first List.mem_cons_self
  rw [ofOrder, if_pos, hfirst]
  simpa [hfirst] using fun term hterm => huniform term (List.mem_cons_of_mem _ hterm)

theorem byValues_uniform (ascending isAfter : Bool) (hterms : terms ≠ []) (hvalues : values ≠ []) :
    (uniform ascending isAfter terms values).ByValues := by
  unfold uniform
  split
  · exact trivial
  · exact ⟨by simpa using hterms, hvalues⟩

theorem givens_uniform {ascending : Bool} {g : Fragment}
    (hmem : g ∈ (uniform ascending isAfter terms values).givens) :
    g ∈ terms.map OrderTerm.expr := by
  unfold uniform at hmem
  split at hmem <;> exact hmem

theorem spells_spelledOut (isAfter : Bool) (terms : List OrderTerm) (values : List Json) :
    Spells (spelledOut isAfter terms values).fragment (terms.map OrderTerm.expr)
      (spelledOut isAfter terms values).pieces (spelledOut isAfter terms values).condition :=
  spells (byValues_spelledOut isAfter terms values) fun _ => givens_spelledOut

theorem spells_uniform (ascending isAfter : Bool) (hne : terms ≠ [])
    (hlength : values.length = terms.length) :
    Spells (uniform ascending isAfter terms values).fragment (terms.map OrderTerm.expr)
      (uniform ascending isAfter terms values).pieces
      (uniform ascending isAfter terms values).condition := by
  have hvalues : values ≠ [] := by
    rintro rfl
    exact hne (List.length_eq_zero_iff.mp hlength.symm)
  exact spells (byValues_uniform ascending isAfter hne hvalues) fun _ => givens_uniform

/-- Whatever form the bound of an order takes, it spells its condition. -/
theorem spells_ofOrder (isAfter : Bool) (hne : terms ≠ [])
    (hlength : values.length = terms.length) :
    Spells (ofOrder isAfter terms values).fragment (terms.map OrderTerm.expr)
      (ofOrder isAfter terms values).pieces (ofOrder isAfter terms values).condition := by
  obtain ⟨first, rest, rfl⟩ := List.exists_cons_of_ne_nil hne
  rw [ofOrder]
  split
  · exact spells_uniform _ isAfter hne hlength
  · exact spells_spelledOut isAfter _ values

end PageQuery.Cursor.Bound
