import PageQuery.Proofs.Logic.Rules

/-!
# Questions and assembly in a logic

The operations that ask for settled values, and those that put statements together from them,
obey every logic.  They leave no work behind.
-/

namespace PageQuery.Logic

open Sql Action

variable (L : Logic) {n : Nat} {id : BuilderId}

/-! Questions -/

/-- All concerns are locked one after the other. -/
theorem lockEverything :
    L.Holds n id 0 (fun lock => lockEverything lock) fun lock => lockEverything lock :=
  L.forM _ fun _ c _ => L.lock c

/-- The terms of the order, once the order is settled. -/
theorem orderTerms : L.Holds n id 0 (fun lock => orderTerms lock) fun lock => orderTerms lock := by
  refine L.then_inspect (L.lock .order) fun m b b' _ hb => ?_
  exact L.pure hb.orderTerms

/-- Whether the order is unique is answered as it stands, or once the order is settled. -/
theorem isOrderUnique (settled : Bool) :
    L.Holds n id 0 (fun lock => isOrderUnique lock settled) fun lock =>
      isOrderUnique lock settled := by
  have hanswer (m : Nat) : L.Holds m id 0 (fun _ => do return (← self).orderIsUnique)
      fun _ => do return (← self).orderIsUnique := by
    refine L.inspect fun _ b b' _ hb => ?_
    exact L.pure hb.orderIsUnique.symm
  cases settled with
  | false => exact hanswer n
  | true =>
      refine L.bind_plain_free (L.lock .order) fun m _ _ => ?_
      exact L.bind_plain_free (L.lock .uniqueness) fun m _ _ => hanswer m

theorem cursorTag : L.Holds n id 0 (fun lock => cursorTag lock) fun lock => cursorTag lock := by
  refine L.then_inspect (L.lock .cursorTag) fun m b b' _ hb => ?_
  exact L.pure hb.cursorTag.symm

/-- The offset is known once it is locked. -/
theorem totalOffset :
    L.Holds n id 0 (fun lock => totalOffset lock) fun lock => totalOffset lock := by
  refine L.then_inspect (L.lock .offset) fun m b b' _ hb => ?_
  exact L.pure hb.offset.symm

/-- The cursor that is selected is known once its concern is locked. -/
theorem cursor : L.Holds n id 0 (fun lock => cursor lock) fun lock => cursor lock := by
  refine L.then_inspect (L.lock .cursor) fun m b b' _ hb => ?_
  exact L.pure hb.cursor

theorem fieldCount : L.Holds n id 0 (fun lock => fieldCount lock) fun lock => fieldCount lock := by
  refine L.then_inspect L.lockEverything fun m b b' _ hb => ?_
  exact L.pure hb.selects.length_eq.symm

/-- A plan is made of the offset and the three limits, and refused where they contradict each other.
-/
theorem pagePlan : L.Holds n id 0 (fun lock => pagePlan lock) fun lock => pagePlan lock := by
  refine L.then_inspect (L.forM _ fun _ c _ => L.lock c) fun m b b' _ hb => ?_
  rw [hb.limit, hb.offset, hb.first, hb.last]
  exact L.ofExcept (.of_plain _)

/-- The plan of the page, once everything is locked. -/
theorem plan : L.Holds n id 0 (fun lock => plan lock) fun lock => plan lock :=
  L.bind_plain_free L.lockEverything fun _ _ _ => L.pagePlan

/-! Assembly -/

/-- One side of the bounds as a condition. -/
theorem boundClause (isLower : Bool) :
    L.Holds n id 0 (fun lock => boundClause lock isLower) fun lock => boundClause lock isLower := by
  refine L.then_inspect (L.lock .bounds) fun m b b' _ hb => ?_
  exact L.pure (hb.bounds isLower).side

/-- The bounds of a side are locked only if they are wanted and there are any. -/
theorem wantedBounds (wanted isLower : Bool) :
    L.Holds n id 0 (fun lock => wantedBounds lock wanted isLower) fun lock =>
      wantedBounds lock wanted isLower := by
  refine L.inspect fun m b b' _ hb => ?_
  rw [(hb.bounds isLower).isEmpty_eq]
  refine L.ite (L.then_inspect (L.lock .bounds) fun m b b' _ hb => ?_) (L.pure .nil)
  exact L.pure (hb.bounds isLower)

/-- The clause is made of the guards, the wheres and the bounds of the wanted sides. -/
theorem whereClause (lower upper : Bool) (options : BuildOptions) :
    L.Holds n id 0 (fun lock => whereClause lock lower upper options) fun lock =>
      whereClause lock lower upper options := by
  refine L.then_inspect (L.lock .wheres) fun m b b' _ hb => ?_
  refine L.bind_free (L.ofExcept (hb.guards options)) fun m₁ _ _ hle hguards => ?_
  refine L.bind_free (L.wantedBounds lower true) fun m₂ _ _ hle₁ hlower => ?_
  refine L.bind_free (L.wantedBounds upper false) fun m₃ _ _ hle₂ hupper => ?_
  have hwheres := hb.wheres.mono (L.le (hle.trans (hle₁.trans hle₂)))
  exact L.pure ⟨hguards.mono (L.le (hle₁.trans hle₂)), hwheres, hlower.mono (L.le hle₂), hupper⟩

/-- The source of rows takes in the joins. -/
theorem rowSource : L.Holds n id 0 (fun _ => rowSource) fun _ => rowSource := by
  refine L.inspect fun m b b' _ hb => ?_
  exact L.ofExcept hb.rowSource

/-- A source and a filter, which are asked for in turn. -/
theorem filtered {α : Type} [Likeness α] (lower upper : Bool) (options : BuildOptions)
    {g g' : RowSource → Filter → Locker → Action α}
    (hg : ∀ m source source' filter filter', Alike (L.likeness m) source source' →
      Alike (L.likeness m) filter filter' →
        L.Holds m id 0 (g source filter) (g' source' filter')) :
    L.Holds n id 0
      (fun lock => Action.rowSource >>= fun source =>
        Action.whereClause lock lower upper options >>= fun filter => g source filter lock)
      fun lock => Action.rowSource >>= fun source =>
        Action.whereClause lock lower upper options >>= fun filter => g' source filter lock := by
  refine L.bind_free L.rowSource fun m source source' _ hsource => ?_
  refine L.bind_free (L.whereClause _ _ _) fun m filter filter' hle hfilter => ?_
  exact hg m source source' filter filter' (hsource.mono (L.le hle)) hfilter

/-- Rows are skipped by their number, or up to the end of a window whose rows are counted first. -/
theorem skip (plan : Plan) (options : BuildOptions) :
    L.Holds n id 0 (fun lock => skip lock plan options) fun lock => skip lock plan options := by
  have hrows (offset : Nat) : Alike (L.likeness n)
      (if 0 < offset then Skip.rows offset else .nothing)
      (if 0 < offset then Skip.rows offset else .nothing) :=
    .ite (Skip.Alike.rows offset) Skip.Alike.nothing
  obtain ⟨limit, offset, flip, window⟩ := plan
  cases window with
  | none => exact L.pure (hrows offset)
  | some window =>
      cases limit with
      | none => exact L.pure (hrows offset)
      | some last =>
          refine L.filtered _ _ _ fun m _ _ _ _ hsource hfilter => ?_
          exact L.pure (Skip.Alike.windowHead hsource hfilter window last)

/-- Positions are counted from the start, or from the end if the plan turns the page around. -/
theorem positionExpression :
    L.Holds n id 0 (fun lock => positionExpression lock) fun lock => positionExpression lock := by
  refine L.bind_plain_free L.pagePlan fun m plan _ => ?_
  apply L.ite
  · refine L.filtered _ _ _ fun m _ _ _ _ hsource hfilter => ?_
    exact L.pure (CursorExpr.Alike.fromEnd hsource hfilter _)
  · refine L.bind_free (L.skip plan {}) fun m _ _ _ hskip => ?_
    exact L.pure (CursorExpr.Alike.fromStart hskip)

/-- The cursor of each row, from the order where it tells rows apart. -/
theorem cursorExpression :
    L.Holds n id 0 (fun lock => cursorExpression lock) fun lock => cursorExpression lock := by
  refine L.bind_free L.orderTerms fun m terms terms' _ hterms => ?_
  rw [hterms.isEmpty_eq]
  apply L.ite L.positionExpression
  refine L.bind_plain_free (L.isOrderUnique true) fun m₁ unique hle => ?_
  apply L.ite _ L.positionExpression
  refine L.bind_plain_free L.cursorTag fun m₂ tag hle₁ => ?_
  have hlast := hterms.mono (L.le (hle.trans hle₁))
  exact L.pure (CursorExpr.Alike.keyed tag hlast.exprs)

theorem selectFields :
    L.Holds n id 0 (fun lock => selectFields lock) fun lock => selectFields lock := by
  refine L.then_inspect L.lockEverything fun m b b' _ hb => ?_
  exact L.pure hb.selects.selectList

/-- The object of a row is assembled from the fields and the cursor. -/
theorem rowObject (options : BuildOptions) :
    L.Holds n id 0 (fun lock => rowObject lock options) fun lock => rowObject lock options := by
  refine L.then_inspect L.lockEverything fun m b b' _ hb => ?_
  exact L.ofExcept (hb.rowObject options)

/-- A statement is assembled from parts that are alike in both runs. -/
theorem statement (plan : Plan) (options : BuildOptions) :
    L.Holds n id 0 (fun lock => statement lock plan options) fun lock =>
      statement lock plan options := by
  refine L.inspect fun m b b' _ hb => ?_
  refine L.bind_free (L.ofExcept (hb.projection plan options)) fun m₁ _ _ hle hprojection => ?_
  refine L.bind_free (L.whereClause _ _ _) fun m₂ _ _ hle₁ hfilter => ?_
  refine L.bind_free (L.skip plan options) fun m₃ _ _ hle₂ hskip => ?_
  have hall := L.le (hle.trans (hle₁.trans hle₂))
  exact L.pure ⟨hprojection.mono (L.le (hle₁.trans hle₂)), hb.source.mono hall,
    hb.joins.mono hall, hfilter.mono (L.le hle₂), hb.orderTerms.mono hall, rfl, .of_plain _, hskip⟩

theorem plannedStatement (options : BuildOptions) :
    L.Holds n id 0 (fun lock => plannedStatement lock options) fun lock =>
      plannedStatement lock options :=
  L.bind_plain_free L.plan fun _ plan _ => L.statement plan options

/-- A build locks everything, and then puts a row's object or a statement together. -/
theorem build (options : BuildOptions) :
    L.Holds n id 0 (fun lock => build lock options) fun lock => build lock options := by
  have hbuild (lock : Locker) : Action.build lock options = (do
      Action.lockEverything lock
      if options.onlyJsonField then return .object (← Action.rowObject lock options)
      else
        let statement ← Action.builtStatement lock options
        if options.asJsonAggregate then return .aggregate statement (← Action.mintToken)
        else return .rows statement) := by
    simp only [Action.build, Action.builtStatement, Action.plannedStatement, bind_assoc, pure_bind]
  simp only [hbuild]
  refine L.bind_plain_free L.lockEverything fun m _ _ => ?_
  apply L.ite
  · refine L.then_free (L.rowObject options) fun m _ _ _ hobject => ?_
    exact L.pure (Built.Alike.object hobject)
  refine L.bind_free (L.builtStatement (L.plannedStatement options)) fun m s s' _ hs => ?_
  apply L.ite
  · refine L.then_free L.mintToken fun m t t' hle ht => ?_
    exact L.pure (Built.Alike.aggregate (hs.mono (L.le hle)) ht)
  · exact L.pure (Built.Alike.rows hs)

/-- A page flag is constant, or it asks whether there are rows on that side of the page. -/
theorem flagExpression (flag : PageFlag) (isLower : Bool) (options : BuildOptions) :
    L.Holds n id 0 (fun lock => flagExpression lock flag isLower options) fun lock =>
      flagExpression lock flag isLower options := by
  cases flag with
  | never => exact L.pure FlagExpr.Alike.never
  | beyond skipped =>
      refine L.filtered _ _ _ fun m _ _ _ _ hsource hfilter => ?_
      exact L.pure (FlagExpr.Alike.beyond hsource hfilter skipped)
  | outside =>
      refine L.filtered _ _ _ fun m _ _ _ _ hsource hfilter => ?_
      refine L.then_inspect (L.lock .bounds) fun m b b' hle hb => ?_
      exact L.pure (FlagExpr.Alike.outside (hsource.mono (L.le hle)) (hfilter.mono (L.le hle))
        (hb.bounds isLower))

/-- A page with its flags. -/
theorem buildConnection (options : BuildOptions) :
    L.Holds n id 0 (fun lock => buildConnection lock options) fun lock =>
      buildConnection lock options := by
  refine L.bind_free (L.build _) fun m _ _ _ hpage => ?_
  refine L.bind_plain_free L.plan fun m₁ plan hle => ?_
  refine L.bind_plain_free L.totalOffset fun m₂ offset hle₁ => ?_
  refine L.inspect fun m₃ b b' hle₂ hb => ?_
  rw [hb.first, hb.upper.isEmpty_eq]
  refine L.bind_free (L.flagExpression _ _ _) fun m₄ _ _ hle₃ hnext => ?_
  refine L.inspect fun m₅ b b' hle₄ hb => ?_
  rw [hb.last, hb.lower.isEmpty_eq]
  refine L.bind_free (L.flagExpression _ _ _) fun m₆ _ _ hle₅ hprevious => ?_
  have hflags := hle₄.trans hle₅
  have hall := hle.trans (hle₁.trans (hle₂.trans (hle₃.trans hflags)))
  exact L.pure ⟨hpage.mono (L.le hall), hnext.mono (L.le hflags), hprevious⟩

/-- Alike fragments are compiled to one text, so one statement is logged. -/
theorem compileFragment {f f' : Fragment} (hf : Alike (L.likeness n) f f') :
    L.Holds n id 0 (fun _ => compileFragment f) fun _ => compileFragment f' := by
  refine L.bind_free (L.ofExcept (compile_alike hf)) fun m compiled compiled' _ hcompiled => ?_
  refine L.inspect fun m₁ b b' hle hb => ?_
  refine L.identify fun i => ?_
  have htext : compiled.text = compiled'.text := hcompiled.1
  have hcount : compiled'.params.length = compiled.params.length := Alike.length_eq hcompiled.2
  rw [hb.options, hcount, ← htext]
  refine L.bind_plain_free (L.log rfl) fun m₂ _ hle₁ => ?_
  exact L.pure (hcompiled.mono (L.le (hle.trans hle₁)))

/-- A build is compiled to text and parameters. -/
theorem compile (options : BuildOptions) :
    L.Holds n id 0 (fun lock => compile lock options) fun lock => compile lock options := by
  refine L.bind_free (L.build options) fun m _ _ _ hbuilt => ?_
  exact L.compileFragment hbuilt.builtFragment

/-- The answer of the database does not depend on the statement. -/
theorem fetchRows (options : BuildOptions) (client : Client) :
    L.Holds n id 0 (fun lock => fetchRows lock options client) fun lock =>
      fetchRows lock options client := by
  refine L.bind_free (L.compile options) fun m compiled compiled' _ hcompiled => ?_
  refine L.bind_plain_free L.plan fun m₁ plan hle => ?_
  refine L.bind_plain_free (L.ofExcept (.of_plain (client.query compiled))) fun m₂ rows hle₁ => ?_
  have hlast := hcompiled.mono (L.le (hle.trans hle₁))
  exact L.ite (L.pure ⟨hlast, .of_plain _⟩) (L.pure ⟨hlast, .of_plain _⟩)

/-- The rows of a connection are read from what the client answers. -/
theorem fetchConnection (client : Client) :
    L.Holds n id 0 (fun lock => fetchConnection lock client) fun lock =>
      fetchConnection lock client := by
  refine L.bind_free (L.buildConnection {}) fun m _ _ _ hstatement => ?_
  refine L.bind_free (L.compileFragment hstatement.connectionFragment)
    fun m₁ compiled compiled' _ hcompiled => ?_
  refine L.bind_plain_free (L.ofExcept (.of_plain (client.query compiled))) fun m₂ rows hle => ?_
  cases rows with
  | nil => exact L.refuse _
  | cons row _ =>
      refine L.bind_plain_free (L.ofExcept (.of_plain _)) fun m₃ connection hle₁ => ?_
      exact L.pure ⟨hcompiled.mono (L.le (hle.trans hle₁)), rfl⟩

end PageQuery.Logic
