import PageQuery.Proofs.Run.Session
import PageQuery.Proofs.Sql.Condition

/-!
# Columns of an array's rows

An array reads the objects of its rows, and their numbers where it sorts by them, from a
statement in parentheses.  That statement chooses its select list by other conditions than
those by which the array is written.  Main statement: the select list defines every column
that the array reads, unless it is `*`; then it defines the columns of the table and no others.
-/

namespace PageQuery

open Sql

/-- The columns of a row source that a fragment names by the alias of the source. -/
def columnsRead (t : AliasToken) (f : Fragment) : List String :=
  f.filterMap fun node => match node with
    | .identifier [.token u, .name column] => if u = t then some column else none
    | _ => none

theorem columnsRead_append (t : AliasToken) (f g : Fragment) :
    columnsRead t (f ++ g) = columnsRead t f ++ columnsRead t g :=
  List.filterMap_append

@[simp]
theorem columnsRead_text (t : AliasToken) (s : String) : columnsRead t (text s) = [] := by
  unfold text
  split <;> rfl

@[simp]
theorem columnsRead_column (t : AliasToken) (column : String) :
    columnsRead t ((aliasNode t).column column) = [column] := by
  simp [columnsRead, aliasNode, Node.column]

@[simp]
theorem columnsRead_alias (t : AliasToken) : columnsRead t [aliasNode t] = [] := rfl

/-- An item of a select list. -/
inductive SelectItem
  /-- Every column of a row source. -/
  | all (rowAlias : Node)
  /-- An expression under a name, which is quoted or not. -/
  | column (expr : Fragment) (name : String) (quoted : Bool)

namespace SelectItem

/-- How an item is written. -/
def fragment : SelectItem → Fragment
  | .all rowAlias => [rowAlias] ++ text ".*"
  | .column expr name quoted =>
    expr ++ text " as " ++ if quoted then [ident name] else text name

/-- The columns that an item defines, given those of the table. -/
def columns (table : List String) : SelectItem → List String
  | .all _ => table
  | .column _ name _ => [name]

/-- A select list, item by item with commas between them. -/
def list (items : List SelectItem) : Fragment := join (items.map fragment) ", "

end SelectItem

namespace Projection

/-- The items of the select list. -/
def items : Projection → List SelectItem
  | .asterisk rowAlias => [.all rowAlias]
  | .object row numberedBy =>
    .column row "object" false ::
      ((orderClause? numberedBy true).map fun order =>
        .column (text "row_number() over (order by " ++ order ++ text ")") flipIndexAlias true).toList
  | .fields selected =>
    selected.map fun field => .column (text "to_json(" ++ field.expr ++ text ")") field.name true

/-- The columns of the rows, given those of the table. -/
def columns (projection : Projection) (table : List String) : List String :=
  projection.items.flatMap (SelectItem.columns table)

/-- The select list consists of the items. -/
theorem letters_items (projection : Projection) :
    letters projection.fragment = letters (SelectItem.list projection.items) := by
  rw [SelectItem.list]
  cases projection with
  | asterisk rowAlias => simp [fragment, items, join, SelectItem.fragment]
  | object row numberedBy =>
      cases horder : orderClause? numberedBy true with
      | none =>
          simp [fragment, items, horder, join, SelectItem.fragment, letters, text]
      | some order =>
          simp [fragment, items, horder, join, SelectItem.fragment, letters, text]
  | fields selected =>
      have hitem (field : Field) :
          letters (text "to_json(" ++ field.expr ++ text ") as " ++ [ident field.name]) =
            letters (SelectItem.fragment
              (.column (text "to_json(" ++ field.expr ++ text ")") field.name true)) := by
        simp [SelectItem.fragment, letters, text]
      simp only [fragment, items, selectList, letters_join, List.map_map]
      congr 2
      exact List.map_congr_left fun field _ => hitem field

end Projection

namespace Built

/-- The statement of an array, between what stands before its subquery and behind it. -/
theorem fragment_aggregate (s : Statement) (t : AliasToken) :
    ∃ head clauses tail, (aggregate s t).fragment =
        head ++ (text "select " ++ s.projection.fragment ++ clauses) ++ tail ∧
      columnsRead t (head ++ tail) =
        "object" :: if isNumbered s then [flipIndexAlias] else [] := by
  let items := if isNumbered s then
      text "json_agg(" ++ (aliasNode t).column "object" ++ text " order by " ++
        (aliasNode t).column flipIndexAlias ++ text " desc)"
    else text "json_agg(" ++ (aliasNode t).column "object" ++ text ")"
  have hitems : columnsRead t items = "object" :: if isNumbered s then [flipIndexAlias] else [] := by
    change columnsRead t (if _ then _ else _) = _
    split <;> simp only [columnsRead_append, columnsRead_text, columnsRead_column] <;> rfl
  refine ⟨text "select coalesce((select " ++ items ++ text " from (",
    Statement.sourceClause s.source ++ joinClauses s.joins ++ text " where " ++
      s.filter.fragment ++ Statement.orderByClause s.order s.flip ++
      Statement.limitClause s.limit ++ Statement.offsetClause s.skip,
    text ") as " ++ [aliasNode t] ++ text "), '[]'::json)", ?_, ?_⟩
  · simp only [fragment, Statement.aggregate, Statement.fragment, List.append_assoc, items]
  · simp only [columnsRead_append, columnsRead_text, columnsRead_alias, hitems, List.append_nil,
      List.nil_append]

end Built

namespace Builder

variable {b : Builder} {plan : Plan} {options : BuildOptions} {projection : Projection}

/-- Without `*` the rows of an array have an object, and a number if the order is turned
around. -/
theorem columns_of_projection (haggregate : options.asJsonAggregate = true)
    (hprojection : b.projection plan options = .ok projection) (table : List String) :
    projection.columns table = if options.asterisk then table
      else "object" :: if plan.flip && !b.resolved.orderTerms.isEmpty then [flipIndexAlias] else [] := by
  rw [Builder.projection] at hprojection
  cases hasterisk : options.asterisk with
  | true =>
      rw [if_pos hasterisk] at hprojection
      obtain ⟨rowAlias, -, hrest⟩ := ok_of_bind hprojection
      cases hrest
      simp [Projection.columns, Projection.items, SelectItem.columns]
  | false =>
      rw [if_neg (by simp [hasterisk]), if_pos (by simp [haggregate])] at hprojection
      obtain ⟨object, -, hrest⟩ := ok_of_bind hprojection
      cases hrest
      cases hflip : plan.flip <;> cases b.resolved.orderTerms <;>
        simp [Projection.columns, Projection.items, SelectItem.columns, orderClause?, haggregate]

end Builder

namespace Action

variable {lock : Locker} {id : BuilderId} {w w' : World} {options : BuildOptions} {built : Built}

/-- The projection, the order and the direction of a statement come from one builder and one
plan. -/
theorem projection_of_statement {plan : Plan} {s : Statement}
    (hrun : (statement lock plan options).exec id w = (.ok s, w')) :
    (w.builder id).projection plan options = .ok s.projection ∧
      s.flip = plan.flip ∧ s.order = (w.builder id).resolved.orderTerms := by
  rw [statement, exec_self_bind] at hrun
  obtain ⟨projection, middle, hprojection, hrest⟩ := exec_bind_eq_ok hrun
  obtain ⟨filter, _, _, hrest⟩ := exec_bind_eq_ok hrest
  obtain ⟨skip, _, _, hrest⟩ := exec_bind_eq_ok hrest
  cases hrest
  rw [exec_ofExcept] at hprojection
  cases hvalue : (w.builder id).projection plan options with
  | error e =>
      rw [hvalue] at hprojection
      cases hprojection
  | ok value =>
      rw [hvalue] at hprojection
      cases hprojection
      exact ⟨rfl, rfl, rfl⟩

/-- A build that puts the rows into an array does so with a statement of the builder. -/
theorem statement_of_aggregate (haggregate : options.asJsonAggregate = true)
    (hstatement : options.onlyJsonField = false)
    (hrun : (build lock options).exec id w = (.ok built, w')) :
    ∃ plan s t middle after, (statement lock plan options).exec id middle = (.ok s, after) ∧
      built = .aggregate s t := by
  rw [build] at hrun
  obtain ⟨_, _, _, hrest⟩ := exec_bind_eq_ok hrun
  rw [exec_ite, if_neg (by simp [hstatement])] at hrest
  obtain ⟨plan, middle, _, hrest⟩ := exec_bind_eq_ok hrest
  obtain ⟨s, after, hs, hrest⟩ := exec_bind_eq_ok hrest
  rw [exec_bind_ok exec_read, exec_bind_ok (exec_remember _), exec_ite, if_pos haggregate,
    exec_bind_ok exec_mintToken] at hrest
  cases hrest
  exact ⟨plan, s, _, middle, after, hs, rfl⟩

/-- An array and its subquery fit exactly if the rows are not selected by `*`.  The array reads
the column `object` of its rows, and `__flip_index` if the page is taken from the end of an
ordered result.  The select list is that of the items given, and these define the columns
that are read; but the only item `*` defines those that the table has anyway. -/
theorem build_columns (haggregate : options.asJsonAggregate = true)
    (hstatement : options.onlyJsonField = false)
    (hrun : (build lock options).exec id w = (.ok built, w')) :
    ∃ s t head clauses tail, built = .aggregate s t ∧
      built.fragment = head ++ (text "select " ++ s.projection.fragment ++ clauses) ++ tail ∧
      letters s.projection.fragment = letters (SelectItem.list s.projection.items) ∧
      columnsRead t (head ++ tail) =
        "object" :: (if Built.isNumbered s then [flipIndexAlias] else []) ∧
      ∀ table, (∀ column ∈ columnsRead t (head ++ tail), column ∈ s.projection.columns table) ↔
        (options.asterisk = false ∨ ∀ column ∈ columnsRead t (head ++ tail), column ∈ table) := by
  obtain ⟨plan, s, t, middle, after, hs, rfl⟩ :=
    statement_of_aggregate haggregate hstatement hrun
  obtain ⟨hprojection, hflip, horder⟩ := projection_of_statement hs
  obtain ⟨head, clauses, tail, hfragment, hread⟩ := Built.fragment_aggregate s t
  refine ⟨s, t, head, clauses, tail, rfl, hfragment, s.projection.letters_items, hread,
    fun table => ?_⟩
  have hcolumns := Builder.columns_of_projection haggregate hprojection table
  rw [← hflip, ← horder] at hcolumns
  cases hasterisk : options.asterisk with
  | true =>
      rw [if_pos hasterisk] at hcolumns
      rw [hcolumns]
      simp
  | false =>
      rw [if_neg (by simp [hasterisk])] at hcolumns
      have hsame : s.projection.columns table = columnsRead t (head ++ tail) := by
        rw [hcolumns, hread]
        rfl
      rw [hsame]
      simp

end Action

namespace World

open PageQuery.Action

/-- A run that asks for the last two items by their position. -/
def numberedRun : World :=
  (start {} 0).after
    [.mk [] (.source (.text "items") none) false none,
      .mk [] (.orderBy (.text "pos") true none) false none, .mk [] (.last 2) false none]

/-- The rows of its array have an object and a number, whatever the table has. -/
theorem build_columns_numberedRun :
    ∃ s t w', (build (lockWith 20) { asJsonAggregate := true }).exec root numberedRun =
        (.ok (.aggregate s t), w') ∧
      columnsRead t (Built.aggregate s t).fragment = ["object", flipIndexAlias] ∧
      ∀ column ∈ ["object", flipIndexAlias], column ∈ s.projection.columns [] := by
  obtain ⟨s, t, w', hrun, hnumbered, hnames⟩ :
      ∃ s t w', (build (lockWith 20) { asJsonAggregate := true }).exec root numberedRun =
          (.ok (.aggregate s t), w') ∧ Built.isNumbered s = true ∧
        columnsRead t (Built.aggregate s t).fragment = ["object", flipIndexAlias] :=
    ⟨_, _, _, rfl, by decide +kernel, by decide +kernel⟩
  obtain ⟨s, t, head, clauses, tail, hbuilt, -, -, hread, hcolumns⟩ := build_columns rfl rfl hrun
  cases hbuilt
  refine ⟨s, t, w', hrun, hnames, ?_⟩
  rw [hnumbered, if_pos rfl] at hread
  rw [← hread]
  exact (hcolumns []).mpr (.inl rfl)

/-- An array of `items.*` reads a column that the table does not have. -/
theorem object_missing_numberedRun :
    ((build (lockWith 20) { asJsonAggregate := true, asterisk := true }).exec root
        numberedRun).1.toOption.map (fun built => (Sql.compile built.fragment).toOption.map (·.text)) =
      some (some ("select coalesce((select json_agg(__local_0__.\"object\" order by " ++
        "__local_0__.\"__flip_index\" desc) from (select __local_1__.* from items as __local_1__ " ++
        "where 1 = 1 order by pos DESC limit 2) as __local_0__), '[]'::json)")) ∧
    ∃ s t w', (build (lockWith 20) { asJsonAggregate := true, asterisk := true }).exec root
        numberedRun = (.ok (.aggregate s t), w') ∧
      columnsRead t (Built.aggregate s t).fragment = ["object", flipIndexAlias] ∧
      s.projection.columns ["id", "pos"] = ["id", "pos"] := by
  refine ⟨by decide +kernel, _, _, _, rfl, by decide +kernel, by decide +kernel⟩

end World

end PageQuery
