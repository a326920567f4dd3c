import PageQuery.Proofs.Likeness.Fragments
import PageQuery.Statement.Basic

/-!
# Statements that are alike

The parts of a statement are compared one by one, down to its fragments.  Main statements:
alike parts are written as alike fragments, and bounds made of alike terms and values are
alike.
-/

namespace PageQuery

open Sql

variable {S : Variation}

/-! Bounds -/

/-- The bounds are made in one way of fragments and values that are alike. -/
inductive Cursor.Bound.Alike (S : Variation) : Cursor.Bound → Cursor.Bound → Prop
  | given {f f' : Fragment} (hf : PageQuery.Alike S f f') : Alike S (.given f) (.given f')
  | never : Alike S .never .never
  | always : Alike S .always .always
  | compare {expr expr' : Fragment} (hexpr : PageQuery.Alike S expr expr') (greater : Bool)
      {value value' : Json} (hvalue : PageQuery.Alike S value value') :
      Alike S (.compare expr greater value) (.compare expr' greater value')
  | compareRows {exprs exprs' : List Fragment} (hexprs : PageQuery.Alike S exprs exprs')
      (greater : Bool) {values values' : List Json} (hvalues : PageQuery.Alike S values values') :
      Alike S (.compareRows exprs greater values) (.compareRows exprs' greater values')
  | beyondOrTied {expr expr' : Fragment} (hexpr : PageQuery.Alike S expr expr') (greater : Bool)
      {value value' : Json} (hvalue : PageQuery.Alike S value value') {rest rest' : Cursor.Bound}
      (hrest : Alike S rest rest') :
      Alike S (.beyondOrTied expr greater value rest) (.beyondOrTied expr' greater value' rest')

namespace Likeness

instance : Likeness Cursor.Bound where
  rel := Cursor.Bound.Alike
  refl hwhole bound := by
    induction bound with
    | given f => exact .given (.refl hwhole f)
    | never => exact .never
    | always => exact .always
    | compare expr greater value => exact .compare (.refl hwhole _) _ (.refl hwhole _)
    | compareRows exprs greater values => exact .compareRows (.refl hwhole _) _ (.refl hwhole _)
    | beyondOrTied expr greater value rest ih =>
        exact .beyondOrTied (.refl hwhole _) _ (.refl hwhole _) ih
  mono hle h := by
    induction h with
    | given hf => exact .given (hf.mono hle)
    | never => exact .never
    | always => exact .always
    | compare hexpr greater hvalue => exact .compare (hexpr.mono hle) _ (hvalue.mono hle)
    | compareRows hexprs greater hvalues =>
        exact .compareRows (hexprs.mono hle) _ (hvalues.mono hle)
    | beyondOrTied hexpr greater hvalue _ ih =>
        exact .beyondOrTied (hexpr.mono hle) _ (hvalue.mono hle) ih
  eq_of_rel hexact h := by
    induction h with
    | given hf => rw [hf.eq hexact]
    | never | always => rfl
    | compare hexpr greater hvalue => rw [hexpr.eq hexact, hvalue.eq hexact]
    | compareRows hexprs greater hvalues => rw [hexprs.eq hexact, hvalues.eq hexact]
    | beyondOrTied hexpr greater hvalue _ ih => rw [hexpr.eq hexact, hvalue.eq hexact, ih]

end Likeness

namespace Cursor.Bound

/-- An operand stands without parentheses exactly if it is a single identifier. -/
theorem operand_alike {expr expr' : Fragment} (h : PageQuery.Alike S expr expr') :
    PageQuery.Alike S (operand expr) (operand expr') := by
  cases h with
  | nil => exact .parens .nil
  | cons hnode hrest =>
      cases hrest with
      | nil =>
          rw [operand, operand, PageQuery.Alike.isIdentifier_eq hnode]
          exact .ite (.node hnode) (PageQuery.Alike.node hnode).parens
      | cons hnext hrest => exact PageQuery.Alike.parens (.cons hnode (.cons hnext hrest))

/-- A value in a bound is always bound, and never written out. -/
theorem boundValue_alike {value value' : Json} (h : PageQuery.Alike S value value') :
    PageQuery.Alike S (boundValue value) (boundValue value') :=
  .value h.param

/-- A comparison with a value, in the direction that is asked for. -/
theorem comparison_alike {expr expr' : Fragment} (hexpr : PageQuery.Alike S expr expr')
    (greater : Bool) {value value' : Json} (hvalue : PageQuery.Alike S value value') :
    PageQuery.Alike S (comparison expr greater value) (comparison expr' greater value') :=
  ((operand_alike hexpr).append (.raw _)).append (boundValue_alike hvalue)

/-- Bounds that are alike are written as alike conditions. -/
theorem fragment_alike {bound bound' : Bound} (h : PageQuery.Alike S bound bound') :
    PageQuery.Alike S bound.fragment bound'.fragment := by
  induction h with
  | given hf => exact hf
  | never => exact .raw _
  | always => exact .text _
  | compare hexpr greater hvalue => exact comparison_alike hexpr greater hvalue
  | compareRows hexprs greater hvalues =>
      have hbound := PageQuery.Alike.map hvalues fun _ _ hvalue =>
        boundValue_alike (S := S) hvalue
      exact (((((hexprs.join _).between _ _).append (.raw _)).append (.text _)).append
        (hbound.join _)).append (.text _)
  | beyondOrTied hexpr greater hvalue _ ih =>
      exact (((((((comparison_alike hexpr greater hvalue).between _ _).append
        (operand_alike hexpr)).append (.text _)).append (boundValue_alike hvalue)).append
          (.text _)).append ih).append (.text _)

/-- The expansion compares the first terms, and goes on to the next ones where they tie. -/
theorem spelledOut_alike (isAfter : Bool) {terms terms' : List OrderTerm}
    (hterms : PageQuery.Alike S terms terms') {values values' : List Json}
    (hvalues : PageQuery.Alike S values values') :
    PageQuery.Alike S (spelledOut isAfter terms values) (spelledOut isAfter terms' values') := by
  induction hterms generalizing values values' with
  | nil => exact Alike.always
  | @cons term term' _ _ hterm hterms ih =>
      obtain ⟨expr, _, _⟩ := term
      obtain ⟨expr', ascending, _⟩ := term'
      obtain ⟨hexpr, hascending, -⟩ := PageQuery.Alike.term hterm
      obtain rfl : ascending = _ := hascending
      cases hvalues with
      | nil => cases hterms <;> exact Alike.always
      | cons hvalue hvalues =>
          have htied :=
            Alike.beyondOrTied hexpr (seeksGreater ascending isAfter) hvalue (ih hvalues)
          cases hterms <;> cases hvalues
          · exact Alike.compare hexpr _ hvalue
          all_goals exact htied

/-- A comparison of rows, for orders with one direction. -/
theorem uniform_alike (ascending isAfter : Bool) {terms terms' : List OrderTerm}
    (hterms : PageQuery.Alike S terms terms') {values values' : List Json}
    (hvalues : PageQuery.Alike S values values') :
    PageQuery.Alike S (uniform ascending isAfter terms values)
      (uniform ascending isAfter terms' values') := by
  have hrows := Alike.compareRows hterms.exprs (seeksGreater ascending isAfter) hvalues
  cases hterms with
  | nil => cases hvalues <;> exact hrows
  | cons hterm hterms =>
      cases hvalues with
      | nil => cases hterms <;> exact hrows
      | cons hvalue hvalues =>
          cases hterms <;> cases hvalues
          · exact Alike.compare hterm.1 _ hvalue
          all_goals exact hrows

/-- The form that a bound takes is decided by the order and not by the values. -/
theorem ofOrder_alike (isAfter : Bool) {terms terms' : List OrderTerm}
    (hterms : PageQuery.Alike S terms terms') {values values' : List Json}
    (hvalues : PageQuery.Alike S values values') :
    PageQuery.Alike S (ofOrder isAfter terms values) (ofOrder isAfter terms' values') := by
  have hall (ascending : Bool) : (terms'.all fun term => term.ascending == ascending) =
      terms.all fun term => term.ascending == ascending := by
    induction hterms generalizing values values' with
    | nil => rfl
    | cons hterm _ ih =>
        rw [List.all_cons, List.all_cons, (PageQuery.Alike.term hterm).2.1, ih hvalues]
  cases hterms with
  | nil => exact Alike.always
  | cons hterm hterms =>
      rw [ofOrder, ofOrder, (PageQuery.Alike.term hterm).2.1, hall]
      exact .ite (uniform_alike _ _ (.cons hterm hterms) hvalues)
        (spelledOut_alike _ (.cons hterm hterms) hvalues)

end Cursor.Bound

/-- The cursors have one tag and alike values. -/
structure Cursor.Alike (S : Variation) (cursor cursor' : List Json) : Prop where
  tag : tag? cursor' = tag? cursor
  values : PageQuery.Alike S cursor.tail cursor'.tail

/-- A cursor is like itself. -/
theorem Cursor.Alike.refl (cursor : List Json) : Cursor.Alike S cursor cursor :=
  ⟨rfl, List.forall₂_same.mpr fun _ _ => .inl rfl⟩

/-- Alike cursors are both refused, or make alike bounds. -/
theorem Cursor.keyedBound_alike (tag : String) {terms terms' : List OrderTerm}
    (hterms : PageQuery.Alike S terms terms') {cursor cursor' : List Json}
    (hcursor : Cursor.Alike S cursor cursor') (isAfter : Bool) :
    PageQuery.Alike S (keyedBound tag terms cursor isAfter)
      (keyedBound tag terms' cursor' isAfter) := by
  rw [keyedBound, keyedBound, hcursor.tag, hcursor.values.length_eq, hterms.length_eq]
  exact .ite (.error _) (.ite (.error _) (.ok (Bound.ofOrder_alike isAfter hterms hcursor.values)))

/-! Rows -/

namespace Likeness

instance : Likeness Field :=
  .of (fun field => (field.expr, field.name)) fun | ⟨_, _⟩, ⟨_, _⟩, rfl => rfl

end Likeness

namespace Alike

variable {rowAlias rowAlias' : Node} {fields fields' : List Field}

/-- Alike fields have the same name. -/
theorem field {field field' : Field} (h : Alike S field field') :
    Alike S field.expr field'.expr ∧ field'.name = field.name :=
  ⟨h.1, Eq.symm h.2⟩

/-- The arguments of a call that makes an object: each field with its name. -/
theorem pairs (h : Alike S fields fields') :
    Alike S (RowObject.pairs fields) (RowObject.pairs fields') := by
  refine join (map h fun field field' hfield => ?_) _
  rw [RowObject.pair, RowObject.pair, hfield.field.2]
  exact ((constant _).append (text _)).append hfield.field.1

/-- Fields are divided among calls in the same way. -/
theorem chunks (h : Alike S fields fields') (size : Nat) :
    Alike S (chunksOf size fields) (chunksOf size fields') := by
  induction fields using chunksOf.induct size generalizing fields' with
  | case1 =>
      cases h
      rw [chunksOf]
      exact .nil
  | case2 field fields ih =>
      cases h with
      | cons hfield hrest =>
          rw [chunksOf, chunksOf]
          exact .cons (.cons hfield (List.forall₂_take size hrest))
            (ih (List.forall₂_drop size hrest))

theorem whole (halias : Alike S rowAlias rowAlias') :
    Alike S (RowObject.whole rowAlias).fragment (RowObject.whole rowAlias').fragment :=
  (node halias).between _ _

theorem withCursor (halias : Alike S rowAlias rowAlias') {cursor cursor' : Fragment}
    (hcursor : Alike S cursor cursor') :
    Alike S (RowObject.withCursor rowAlias cursor).fragment
      (RowObject.withCursor rowAlias' cursor').fragment :=
  (((((node halias).between _ _).append (constant _)).append (text _)).append hcursor).append
    (text _)

/-- An object is made by one call or by several; the number of fields decides. -/
theorem ofFields (h : Alike S fields fields') (supportsJsonb : Bool) :
    Alike S (RowObject.ofFields supportsJsonb fields).fragment
      (RowObject.ofFields supportsJsonb fields').fragment := by
  have hchunk (chunk chunk' : List Field) (hchunk : Alike S chunk chunk') :
      Alike S (Sql.text "jsonb_build_object(" ++ RowObject.pairs chunk ++ Sql.text ")")
        (Sql.text "jsonb_build_object(" ++ RowObject.pairs chunk' ++ Sql.text ")") :=
    hchunk.pairs.between _ _
  rw [RowObject.ofFields, RowObject.ofFields, h.length_eq]
  split
  · exact ((map (h.chunks _) hchunk).join _).between _ _
  · exact h.pairs.between _ _

/-- For a row that is null there is no object, if the options ask for that. -/
theorem orNull (options : BuildOptions) (halias : Alike S rowAlias rowAlias')
    {object object' : Fragment} (hobject : Alike S object object') :
    Alike S (RowObject.orNull options rowAlias object)
      (RowObject.orNull options rowAlias' object') := by
  have hcase (before between : String) :
      Alike S (Sql.text before ++ [rowAlias] ++ Sql.text between ++ object ++ Sql.text " end)")
        (Sql.text before ++ [rowAlias'] ++ Sql.text between ++ object' ++ Sql.text " end)") :=
    (((node halias).between _ _).append hobject).append (text _)
  exact ite (hcase _ _) (ite (hcase _ _) hobject)

theorem selectList (h : Alike S fields fields') :
    Alike S (selectList fields) (selectList fields') := by
  refine join (map h fun field field' hfield => ?_) _
  rw [hfield.field.2]
  exact (hfield.field.1.between _ _).append (bare rfl)

end Alike

/-! Sources and filters -/

namespace Likeness

instance : Likeness RowSource :=
  .of (fun source => (source.table, source.rowAlias, source.joins)) fun
    | ⟨_, _, _⟩, ⟨_, _, _⟩, rfl => rfl

instance : Likeness Filter :=
  .of (fun filter => (filter.guards, filter.wheres, filter.lower, filter.upper)) fun
    | ⟨_, _, _, _⟩, ⟨_, _, _, _⟩, rfl => rfl

end Likeness

/-- The rows that are left out are given in one way by parts that are alike. -/
inductive Skip.Alike (S : Variation) : Skip → Skip → Prop
  | nothing : Alike S .nothing .nothing
  | rows (n : Nat) : Alike S (.rows n) (.rows n)
  | windowHead {source source' : RowSource} (hsource : PageQuery.Alike S source source')
      {filter filter' : Filter} (hfilter : PageQuery.Alike S filter filter') (window last : Nat) :
      Alike S (.windowHead source filter window last) (.windowHead source' filter' window last)

/-- The flags ask about rows in one way, of sources and filters that are alike. -/
inductive FlagExpr.Alike (S : Variation) : FlagExpr → FlagExpr → Prop
  | never : Alike S .never .never
  | beyond {source source' : RowSource} (hsource : PageQuery.Alike S source source')
      {filter filter' : Filter} (hfilter : PageQuery.Alike S filter filter') (skip : Nat) :
      Alike S (.beyond source filter skip) (.beyond source' filter' skip)
  | outside {source source' : RowSource} (hsource : PageQuery.Alike S source source')
      {filter filter' : Filter} (hfilter : PageQuery.Alike S filter filter')
      {bounds bounds' : List Cursor.Bound} (hbounds : PageQuery.Alike S bounds bounds') :
      Alike S (.outside source filter bounds) (.outside source' filter' bounds')

namespace Likeness

instance : Likeness Skip where
  rel := Skip.Alike
  refl hwhole
    | .nothing => .nothing
    | .rows n => .rows n
    | .windowHead _ _ window last => .windowHead (.refl hwhole _) (.refl hwhole _) window last
  mono hle h := by
    cases h with
    | nothing => exact .nothing
    | rows n => exact .rows n
    | windowHead hsource hfilter => exact .windowHead (hsource.mono hle) (hfilter.mono hle) _ _
  eq_of_rel hexact h := by
    cases h with
    | nothing | rows => rfl
    | windowHead hsource hfilter => rw [hsource.eq hexact, hfilter.eq hexact]

instance : Likeness FlagExpr where
  rel := FlagExpr.Alike
  refl hwhole
    | .never => .never
    | .beyond _ _ skip => .beyond (.refl hwhole _) (.refl hwhole _) skip
    | .outside _ _ _ => .outside (.refl hwhole _) (.refl hwhole _) (.refl hwhole _)
  mono hle h := by
    cases h with
    | never => exact .never
    | beyond hsource hfilter => exact .beyond (hsource.mono hle) (hfilter.mono hle) _
    | outside hsource hfilter hbounds =>
        exact .outside (hsource.mono hle) (hfilter.mono hle) (hbounds.mono hle)
  eq_of_rel hexact h := by
    cases h with
    | never => rfl
    | beyond hsource hfilter => rw [hsource.eq hexact, hfilter.eq hexact]
    | outside hsource hfilter hbounds =>
        rw [hsource.eq hexact, hfilter.eq hexact, hbounds.eq hexact]

end Likeness

namespace Alike

theorem joinClauses {joins joins' : List Fragment} (h : Alike S joins joins') :
    Alike S (joinClauses joins) (joinClauses joins') :=
  (map h fun _ _ hclause => (text " ").append hclause).flatten

theorem conjunction {parts parts' : List Fragment} (h : Alike S parts parts') :
    Alike S (Filter.conjunction parts) (Filter.conjunction parts') :=
  (h.join _).between _ _

theorem side {bounds bounds' : List Cursor.Bound} (h : Alike S bounds bounds') :
    Alike S (Filter.side bounds) (Filter.side bounds') := by
  have hfragments := map h fun _ _ hbound => Cursor.Bound.fragment_alike (S := S) hbound
  rw [Filter.side, Filter.side, h.isEmpty_eq]
  exact ite (raw _) hfragments.conjunction

/-- A filter is rendered with its parameters in the order in which its parts come. -/
theorem filterFragment {filter filter' : Filter} (h : Alike S filter filter') :
    Alike S filter.fragment filter'.fragment := by
  obtain ⟨hguards, hwheres, hlower, hupper⟩ := h
  have hpart {bounds bounds' : List Cursor.Bound} (h : Alike S bounds bounds') :
      Alike S (Filter.sidePart bounds) (Filter.sidePart bounds') := by
    rw [Filter.sidePart, Filter.sidePart, h.isEmpty_eq]
    exact ite .nil (.cons h.side .nil)
  have hparts : Alike S filter.parts filter'.parts :=
    ((hguards.append hwheres).append (hpart hlower)).append (hpart hupper)
  rw [Filter.fragment, Filter.fragment, hparts.isEmpty_eq]
  exact ite (text _) hparts.conjunction

variable {source source' : RowSource} {filter filter' : Filter}

/-- A row source with its joins, behind a projection. -/
theorem sourceFragment (h : Alike S source source') (projection : String) :
    Alike S (source.fragment projection) (source'.fragment projection) := by
  obtain ⟨htable, halias, hjoins⟩ := h
  exact (((((text _).append (text _)).append (text _)).append htable).append (text _)).append
    (node halias) |>.append hjoins.joinClauses

/-- The rows of a source that pass a filter. -/
theorem filtered (hsource : Alike S source source') (hfilter : Alike S filter filter')
    (before projection : String) :
    Alike S (Sql.text before ++ source.fragment projection ++ Sql.text " where " ++ filter.fragment)
      (Sql.text before ++ source'.fragment projection ++ Sql.text " where " ++
        filter'.fragment) :=
  ((hsource.sourceFragment _).between _ _).append hfilter.filterFragment

/-- What is skipped is a number or an expression; there is an offset in both, or in none. -/
theorem skipFragment {skip skip' : Skip} (h : Alike S skip skip') :
    Alike S skip.fragment? skip'.fragment? := by
  cases h with
  | nothing => exact .none
  | rows n => exact .some (count n)
  | windowHead hsource hfilter window last =>
      exact .some (((((filtered hsource hfilter _ _).append (text _)).append (count _)).append
        (text _)).append (count _) |>.append (text _))

/-- A page flag as SQL. -/
theorem flagFragment {flag flag' : FlagExpr} (h : Alike S flag flag') :
    Alike S flag.fragment flag'.fragment := by
  cases h with
  | never => exact raw _
  | beyond hsource hfilter skip =>
      exact (((filtered hsource hfilter _ _).append (text _)).append (count _)).append (text _)
  | outside hsource hfilter hbounds =>
      exact (((filtered hsource hfilter _ _).append (text _)).append hbounds.side).append (text _)

end Alike

/-! Cursors -/

/-- The cursors hold values, or positions that are counted in one way. -/
inductive CursorExpr.Alike (S : Variation) : CursorExpr → CursorExpr → Prop
  | keyed (tag : String) {exprs exprs' : List Fragment} (hexprs : PageQuery.Alike S exprs exprs') :
      Alike S (.keyed tag exprs) (.keyed tag exprs')
  | fromStart {skip skip' : Skip} (hskip : PageQuery.Alike S skip skip') :
      Alike S (.fromStart skip) (.fromStart skip')
  | fromEnd {source source' : RowSource} (hsource : PageQuery.Alike S source source')
      {filter filter' : Filter} (hfilter : PageQuery.Alike S filter filter') (offset : Nat) :
      Alike S (.fromEnd source filter offset) (.fromEnd source' filter' offset)

instance : Likeness CursorExpr where
  rel := CursorExpr.Alike
  refl hwhole
    | .keyed tag _ => .keyed tag (.refl hwhole _)
    | .fromStart _ => .fromStart (.refl hwhole _)
    | .fromEnd _ _ offset => .fromEnd (.refl hwhole _) (.refl hwhole _) offset
  mono hle h := by
    cases h with
    | keyed tag hexprs => exact .keyed tag (hexprs.mono hle)
    | fromStart hskip => exact .fromStart (hskip.mono hle)
    | fromEnd hsource hfilter => exact .fromEnd (hsource.mono hle) (hfilter.mono hle) _
  eq_of_rel hexact h := by
    cases h with
    | keyed tag hexprs => rw [hexprs.eq hexact]
    | fromStart hskip => rw [hskip.eq hexact]
    | fromEnd hsource hfilter => rw [hsource.eq hexact, hfilter.eq hexact]

/-- A cursor as SQL: an array of a tag with the values of the order, or with a position. -/
theorem Alike.cursorFragment {cursor cursor' : CursorExpr} (h : Alike S cursor cursor') :
    Alike S cursor.fragment cursor'.fragment := by
  have hnatural {position position' : Fragment} (h : Alike S position position') :
      Alike S (CursorExpr.natural position) (CursorExpr.natural position') :=
    ((((text _).append (constant _)).append (text _)).append h).append (text _)
  cases h with
  | keyed tag hexprs =>
      exact ((((text _).append (constant _)).append (text _)).append (hexprs.join _)).append
        (text _)
  | @fromStart skip skip' hskip =>
      have hoffset : Alike S (skip.fragment?.getD (Sql.count 0))
          (skip'.fragment?.getD (Sql.count 0)) := by
        have hskipped := hskip.skipFragment
        generalize skip.fragment? = offset, skip'.fragment? = offset' at hskipped ⊢
        cases hskipped with
        | none => exact count 0
        | some hoffset => exact hoffset
      exact hnatural (((text _).append (text _)).append hoffset)
  | fromEnd hsource hfilter offset =>
      exact hnatural ((((((filtered hsource hfilter _ _).append (text _)).append
        (count _)).append (text _)).append (text _)).append (text _))

/-! Statements -/

/-- The rows are selected in one way, of parts that are alike. -/
inductive Projection.Alike (S : Variation) : Projection → Projection → Prop
  | asterisk {n n' : Node} (halias : PageQuery.Alike S n n') : Alike S (.asterisk n) (.asterisk n')
  | object {f f' : Fragment} (hobject : PageQuery.Alike S f f') {terms terms' : List OrderTerm}
      (hterms : PageQuery.Alike S terms terms') : Alike S (.object f terms) (.object f' terms')
  | fields {fields fields' : List Field} (hfields : PageQuery.Alike S fields fields') :
      Alike S (.fields fields) (.fields fields')

namespace Likeness

instance : Likeness Projection where
  rel := Projection.Alike
  refl hwhole
    | .asterisk _ => .asterisk (.refl hwhole _)
    | .object _ _ => .object (.refl hwhole _) (.refl hwhole _)
    | .fields _ => .fields (.refl hwhole _)
  mono hle h := by
    cases h with
    | asterisk halias => exact .asterisk (halias.mono hle)
    | object hobject hterms => exact .object (hobject.mono hle) (hterms.mono hle)
    | fields hfields => exact .fields (hfields.mono hle)
  eq_of_rel hexact h := by
    cases h with
    | asterisk halias => rw [halias.eq hexact]
    | object hobject hterms => rw [hobject.eq hexact, hterms.eq hexact]
    | fields hfields => rw [hfields.eq hexact]

instance : Likeness Statement :=
  .of (fun s => (s.projection, s.source, s.joins, s.filter, s.order, s.flip, s.limit, s.skip)) fun
    | ⟨_, _, _, _, _, _, _, _⟩, ⟨_, _, _, _, _, _, _, _⟩, rfl => rfl

end Likeness

/-- The builds are of one kind, and made of parts that are alike. -/
inductive Built.Alike (S : Variation) : Built → Built → Prop
  | object {f f' : Fragment} (hobject : PageQuery.Alike S f f') : Alike S (.object f) (.object f')
  | rows {s s' : Statement} (hs : PageQuery.Alike S s s') : Alike S (.rows s) (.rows s')
  | aggregate {s s' : Statement} (hs : PageQuery.Alike S s s') {t t' : AliasToken}
      (ht : PageQuery.Alike S t t') : Alike S (.aggregate s t) (.aggregate s' t')

namespace Likeness

instance : Likeness Built where
  rel := Built.Alike
  refl hwhole
    | .object _ => .object (.refl hwhole _)
    | .rows _ => .rows (.refl hwhole _)
    | .aggregate _ _ => .aggregate (.refl hwhole _) (.refl hwhole _)
  mono hle h := by
    cases h with
    | object hobject => exact .object (hobject.mono hle)
    | rows hs => exact .rows (hs.mono hle)
    | aggregate hs ht => exact .aggregate (hs.mono hle) (ht.mono hle)
  eq_of_rel hexact h := by
    cases h with
    | object hobject => rw [hobject.eq hexact]
    | rows hs => rw [hs.eq hexact]
    | aggregate hs ht => rw [hs.eq hexact, ht.eq hexact]

instance : Likeness ConnectionStatement :=
  .of (fun s => (s.page, s.next, s.previous)) fun | ⟨_, _, _⟩, ⟨_, _, _⟩, rfl => rfl

end Likeness

namespace Alike

/-- What is selected of the rows, as SQL. -/
theorem projectionFragment {projection projection' : Projection}
    (h : Alike S projection projection') : Alike S projection.fragment projection'.fragment := by
  cases h with
  | asterisk halias => exact (node halias).append (text _)
  | fields hfields => exact hfields.selectList
  | @object f f' hobject terms terms' hterms =>
      have horder := hterms.orderClause true
      refine (hobject.append (text _)).append ?_
      generalize orderClause? terms true = order, orderClause? terms' true = order' at horder ⊢
      cases horder with
      | none => exact .nil
      | some horder => exact (between horder _ _).append (bare rfl)

/-- Rows are numbered in both statements, or in neither. -/
theorem isNumbered_eq {s s' : Statement} (h : Alike S s s') :
    Built.isNumbered s' = Built.isNumbered s := by
  obtain ⟨-, -, -, -, horder, hflip, -⟩ := h
  have hflip : s.flip = s'.flip := hflip
  rw [Built.isNumbered, Built.isNumbered, hflip, horder.isEmpty_eq]

/-- Alike statements are rendered as alike fragments. -/
theorem statementFragment {s s' : Statement} (h : Alike S s s') :
    Alike S s.fragment s'.fragment := by
  obtain ⟨hprojection, hsource, hjoins, hfilter, horder, hflip, hlimit, hskip⟩ := h
  have hflip : s.flip = s'.flip := hflip
  have hfrom : Alike S (Statement.sourceClause s.source) (Statement.sourceClause s'.source) := by
    have hsource : Alike S s.source s'.source := hsource
    generalize s.source = source, s'.source = source' at hsource ⊢
    cases hsource with
    | none => exact .nil
    | some hsource => exact (between hsource.1 _ _).append (node hsource.2)
  have hby : Alike S (Statement.orderByClause s.order s.flip)
      (Statement.orderByClause s'.order s'.flip) := by
    have hterms := horder.orderClause s.flip
    rw [← hflip, Statement.orderByClause, Statement.orderByClause]
    generalize orderClause? s.order s.flip = terms, orderClause? s'.order s.flip = terms'
      at hterms ⊢
    cases hterms with
    | none => exact .nil
    | some hterms => exact (text _).append hterms
  have hlimited : Alike S (Statement.limitClause s.limit) (Statement.limitClause s'.limit) := by
    have hlimit : s.limit = s'.limit := hlimit.plain
    rw [← hlimit]
    cases s.limit with
    | none => exact .nil
    | some n => exact (text _).append (count n)
  have hoffset : Alike S (Statement.offsetClause s.skip) (Statement.offsetClause s'.skip) := by
    have hskipped := hskip.skipFragment
    rw [Statement.offsetClause, Statement.offsetClause]
    generalize s.skip.fragment? = offset, s'.skip.fragment? = offset' at hskipped ⊢
    cases hskipped with
    | none => exact .nil
    | some hoffset => exact (text _).append hoffset
  exact (((((((text _).append hprojection.projectionFragment).append hfrom).append
    hjoins.joinClauses).append (text _)).append hfilter.filterFragment).append hby).append
      hlimited |>.append hoffset

/-- What is built of parts that are alike is written as fragments that are alike. -/
theorem builtFragment {built built' : Built} (h : Alike S built built') :
    Alike S built.fragment built'.fragment := by
  cases h with
  | object hobject => exact hobject
  | rows hs => exact hs.statementFragment
  | @aggregate s s' hs t t' ht =>
      have hcolumn (name : String) : Alike S ((Sql.aliasNode t).column name)
          ((Sql.aliasNode t').column name) := ht.aliasNode.column name
      change Alike S (s.aggregate t _) (s'.aggregate t' _)
      rw [hs.isNumbered_eq, Statement.aggregate, Statement.aggregate]
      refine (((((text _).append (ite ?_ ?_)).append (text _)).append hs.statementFragment).append
        (text _)).append (node ht.aliasNode) |>.append (text _)
      · exact ((hcolumn _).between _ _).append (hcolumn _) |>.append (text _)
      · exact (hcolumn _).between _ _

/-- The statement of a connection wraps the rows and the page flags. -/
theorem connectionFragment {s s' : ConnectionStatement} (h : Alike S s s') :
    Alike S s.fragment s'.fragment := by
  obtain ⟨hpage, hnext, hprevious⟩ := h
  exact (((hpage.builtFragment.between _ _).append hnext.flagFragment).append (text _)).append
    hprevious.flagFragment |>.append (text _)

end Alike

end PageQuery
