import PageQuery.Proofs.Logic.Assembly

/-!
# Operations in a logic

Every operation obeys every logic, so what a logic says of locks and of instructions it says of
scripts.  Main statement: scripts whose steps may stand for each other do, and the first one
leaves behind no more work than it has.
-/

namespace PageQuery.Logic

open Sql Action

variable (L : Logic) {n : Nat} {id : BuilderId}

/-! Calls -/

/-- A bound that is registered for one of the two sides. -/
theorem bound {condition condition' : Cursor.Bound}
    (hcondition : Alike (L.likeness n) condition condition') (isLower : Bool) :
    L.Holds n id 0 (fun _ => bound condition isLower) fun _ => bound condition' isLower :=
  L.register (.bound hcondition isLower)

/-- An order term whose expression is known. -/
theorem orderBy {expr expr' : Fragment} (hexpr : Alike (L.likeness n) expr expr')
    (ascending : Bool) (nulls : Option NullsOrder) :
    L.Holds n id 0 (fun _ => orderBy (.ready expr) ascending nulls) fun _ =>
      orderBy (.ready expr') ascending nulls :=
  L.register (.orderBy (.ready hexpr) ascending nulls)

theorem offset (count : Nat) :
    L.Holds n id 0 (fun _ => offset (.ready count)) fun _ => offset (.ready count) :=
  L.register (.offset (.ready rfl))

/-- A callback that is no script costs what it has to do. -/
theorem await (c : Concern) (callback : Callback) (hready : ∀ steps, callback ≠ .script steps) :
    L.Holds n id (callback.work L.heaviest) (fun _ => beforeLock c callback) fun _ =>
      beforeLock c callback :=
  L.register (.beforeLock c (.same hready))

/-- A row source is registered, and then its concern is locked. -/
theorem source {table table' : Fragment} (htable : Alike (L.likeness n) table table')
    {rowAlias rowAlias' : Option Node} (halias : Alike (L.likeness n) rowAlias rowAlias')
    (hnamed : rowAlias.isSome = true → L.named) :
    L.Holds n id 0 (fun lock => source lock table rowAlias) fun lock =>
      source lock table' rowAlias' :=
  L.bind_plain_free (L.registerSource htable halias hnamed) fun _ _ _ => L.lock .source

/-- A comparator is registered, and then its concern is locked. -/
theorem setComparator {comparator comparator' : Comparator}
    (h : comparator.Like L.toFrame n comparator') :
    L.Holds n id 0 (fun lock => setComparator lock comparator) fun lock =>
      setComparator lock comparator' :=
  L.bind_plain_free (L.registerComparator h) fun _ _ _ => L.lock .comparator

/-! Comparison -/

/-- A cursor that does not fit is reported, and a bound that no row meets is registered for it. -/
theorem rejectCursor (isAfter : Bool) (reason : Cursor.Mismatch) :
    L.Holds n id 0 (fun _ => rejectCursor isAfter reason) fun _ => rejectCursor isAfter reason := by
  refine L.identify fun i => ?_
  exact L.bind_plain_free (L.log rfl) fun _ _ _ => L.bound Cursor.Bound.Alike.never isAfter

/-- Cursors with one tag and alike values are compared alike by value. -/
theorem compareRow {cursor cursor' : List Json}
    (hcursor : ∀ m, n ≤ m → Cursor.Alike (L.likeness m) cursor cursor') (isAfter : Bool) :
    L.Holds n id 0 (fun lock => compareRow lock cursor isAfter) fun lock =>
      compareRow lock cursor' isAfter := by
  refine L.bind_free L.orderTerms fun m terms terms' hle hterms => ?_
  rw [hterms.isEmpty_eq]
  refine L.refuse_or _ fun m₁ hle₁ => ?_
  refine L.bind_plain_free (L.isOrderUnique true) fun m₂ unique hle₂ => ?_
  refine L.refuse_or _ fun m₃ hle₃ => ?_
  refine L.bind_plain_free L.cursorTag fun m₄ tag hle₄ => ?_
  have hle₅ := hle₁.trans (hle₂.trans (hle₃.trans hle₄))
  have hbound := Cursor.keyedBound_alike tag (hterms.mono (L.le hle₅))
    (hcursor m₄ (hle.trans hle₅)) isAfter
  generalize Cursor.keyedBound tag terms cursor isAfter = bound,
    Cursor.keyedBound tag terms' cursor' isAfter = bound' at hbound ⊢
  cases hbound with
  | error reason => exact L.rejectCursor isAfter reason
  | ok hbound => exact L.bound hbound isAfter

/-- A position registers a callback or a lazy limit. -/
theorem compareNatural (cursor : List Json) (isAfter : Bool) :
    L.Holds n id 1 (fun lock => compareNatural lock cursor isAfter) fun lock =>
      compareNatural lock cursor isAfter := by
  have hreject (m : Nat) (reason : Cursor.Mismatch) : L.Holds m id 1
      (fun _ => Action.rejectCursor isAfter reason) fun _ => Action.rejectCursor isAfter reason :=
    L.mono (Nat.zero_le 1) (L.rejectCursor isAfter reason)
  simp only [Action.compareNatural]
  cases naturalPosition? cursor with
  | none => exact hreject n _
  | some position =>
      refine L.bind_plain_free (L.isOrderUnique true) fun m unique _ => ?_
      apply L.ite (hreject m _)
      apply L.ite
      · refine L.bind_plain_free (L.offset position) fun m _ _ => ?_
        exact L.await .last .refuseLastFromEnd nofun
      · exact L.register (.limit (.lazy .nil rfl))

/-- Relay cursors are compared by position if they have the tag of positions and the order is not
unique, and by value otherwise. -/
theorem compareRelay (cursor : List Json) (isAfter : Bool) :
    L.Holds n id 1 (fun lock => compareRelay lock cursor isAfter) fun lock =>
      compareRelay lock cursor isAfter := by
  have hrow (m : Nat) : L.Holds m id 1 (fun lock => Action.compareRow lock cursor isAfter)
      fun lock => Action.compareRow lock cursor isAfter :=
    L.mono (Nat.zero_le 1) (L.compareRow (fun _ _ => .refl cursor) isAfter)
  apply L.ite _ (hrow n)
  refine L.bind_plain_free (L.isOrderUnique true) fun m unique _ => ?_
  exact L.ite (hrow m) (L.compareNatural cursor isAfter)

/-- A built-in comparator leaves behind one callback or one lazy limit at most. -/
theorem compareWith (kind : ComparatorKind) (cursor : List Json) (isAfter : Bool) :
    L.Holds n id 1 (fun lock => compareWith lock kind cursor isAfter) fun lock =>
      compareWith lock kind cursor isAfter := by
  cases kind with
  | row => exact L.mono (Nat.zero_le 1) (L.compareRow (fun _ _ => .refl cursor) isAfter)
  | natural => exact L.compareNatural cursor isAfter
  | relay => exact L.compareRelay cursor isAfter

/-- The primary key is appended to an order that is not unique. -/
theorem breakTies (primaryKey : List String) :
    L.Holds n id 0 (fun lock => breakTies lock primaryKey) fun lock =>
      breakTies lock primaryKey := by
  refine L.bind_plain_free (L.isOrderUnique false) fun m unique _ => ?_
  apply L.ite (L.pure (.of_plain ()))
  refine L.inspect fun m₁ b b' _ hb => ?_
  refine L.bind_free (L.ofExcept hb.tableAlias) fun m₂ table table' _ htable => ?_
  refine L.bind_plain_free (L.forM primaryKey fun m₃ column hle => ?_) fun m₄ _ _ => ?_
  · exact L.orderBy ((htable.mono (L.le hle)).column column) true none
  · exact L.register .setOrderUnique

/-- The cursor of a request is waited for, if there is one. -/
theorem awaitCursor {given given' : Option (List Json)} (isAfter : Bool)
    (h : ∀ m, Option.Rel (fun cursor cursor' => Callback.Like L.toFrame m id
      (.cursorCondition cursor isAfter) (.cursorCondition cursor' isAfter)) given given') :
    L.Holds n id (given.toList.length * conditionWeight L.heaviest)
      (fun _ => given.forM fun cursor => addCursorCondition cursor isAfter) fun _ =>
        given'.forM fun cursor => addCursorCondition cursor isAfter :=
  L.forM_option (h n) fun _ _ hcursor => L.register (.beforeLock .bounds hcursor)

/-- A tie breaker, a cursor expression, and as many cursor conditions as there are cursors. -/
theorem setUpConnection (setup : ConnectionSetup) {args args' : ConnectionArgs}
    (hcounts : args'.counts = args.counts)
    (hcursors : Likeness.Outcomes (fun cursors cursors' => ∀ m,
      PageCursors.Like L.toFrame m id cursors cursors') args.cursors args'.cursors) :
    L.Holds n id (2 + args.conditions * conditionWeight L.heaviest)
      (fun lock => setUpConnection lock setup args) fun lock =>
        setUpConnection lock setup args' := by
  have hsame : Likeness.Outcomes Eq args.counts args'.counts := by
    rw [hcounts]
    exact .refl (fun _ => rfl) _
  refine L.ofExcept_bind hsame fun counts counts' hvalid heq => ?_
  obtain rfl := heq
  refine L.ofExcept_bind hcursors fun cursors cursors' hread hlike => ?_
  have hcost : 2 + args.conditions * conditionWeight L.heaviest =
      1 + (0 + (0 + (1 + (0 + (0 + (0 + (cursors.after.toList.length * conditionWeight L.heaviest +
        cursors.before.toList.length * conditionWeight L.heaviest))))))) := by
    rw [ConnectionArgs.conditions, hvalid, hread, Nat.add_mul]
    omega
  rw [hcost]
  have hties : L.Holds n id 1 (fun _ => beforeLock .order (.breakTies setup.primaryKey)) fun _ =>
      beforeLock .order (.breakTies setup.primaryKey) := by
    apply L.await .order (.breakTies setup.primaryKey)
    intro steps hscript
    cases hscript
  have hcursor (S : Variation) :
      Alike S FragmentSource.cursorExpression .cursorExpression := ⟨rfl, List.forall_mem_nil _⟩
  refine L.ite_bind hties fun m _ => ?_
  refine L.bind_plain (L.register (.setCursorTag setup.tag)) fun m _ _ => ?_
  refine L.bind_plain (L.setComparator (.kind .relay)) fun m _ _ => ?_
  refine L.bind_plain (L.register (.selectCursor (.lazy .nil (hcursor _)))) fun m _ _ => ?_
  refine L.bind_plain (L.forM_some counts.first fun n => L.register (.first n)) fun m _ _ => ?_
  refine L.bind_plain (L.forM_some counts.last fun n => L.register (.last n)) fun m _ _ => ?_
  refine L.ite_bind (L.offset counts.offset) fun m _ => ?_
  refine L.bind_plain (L.awaitCursor true fun m => (hlike m).after) fun m _ _ => ?_
  exact L.awaitCursor false fun m => (hlike m).before

/-! Performing -/

/-- All expressions are evaluated before a child is made. -/
theorem addChildWith (name : String) {table : Expr} {rowAlias : Option NodeExpr}
    {selecting : Option (Expr × String)}
    (htable : ∀ t ∈ table.tokens, (L.likeness n).token t)
    (halias : ∀ t ∈ Aliased.tokens rowAlias, (L.likeness n).token t)
    (hselecting : ∀ t ∈ Aliased.tokens selecting, (L.likeness n).token t)
    (hnamed : rowAlias.isSome = true → L.named) :
    L.Holds n id builderWeight (fun lock => addChildWith lock name table rowAlias selecting)
      fun lock => addChildWith lock name table rowAlias selecting := by
  refine L.bind_free (L.evaluate htable) fun m _ _ hle htable => ?_
  refine L.evaluateNode?_bind (fun t ht => (L.le hle).token (halias t ht)) hnamed
    fun m₁ node node' hle₁ hnode hnamed => ?_
  rcases selecting with _ | ⟨expr, exprName⟩
  · exact L.discard (L.addChild name (htable.mono (L.le hle₁)) hnode hnamed)
  · have hexpr : ∀ t ∈ expr.tokens, (L.likeness m₁).token t := by
      intro t ht
      exact (L.le (hle.trans hle₁)).token (hselecting t (by simpa [Aliased.tokens] using ht))
    refine L.bind_free (L.evaluate hexpr) fun m₂ _ _ hle₂ hexpr => ?_
    exact L.discard (L.addChildSelecting name (htable.mono (L.le (hle₁.trans hle₂)))
      (hnode.mono (L.le hle₂)) hnamed hexpr exprName)

/-- An action whose answer is of no account. -/
theorem answering {cost : Nat} {f f' : Locker → Action Unit} (hf : L.Holds n id cost f f') :
    L.Holds n id cost (fun lock => answering (f lock)) fun lock => answering (f' lock) := by
  refine L.then_free hf fun m _ _ _ _ => ?_
  exact L.pure (Answer.Alike.same rfl)

/-- An expression is evaluated, and its value is registered. -/
theorem evaluating {expr : Expr} (htokens : ∀ t ∈ expr.tokens, (L.likeness n).token t)
    {call : Fragment → Call}
    (hcall : ∀ m f f', Alike (L.likeness m) f f' → (call f).Like L.toFrame m id (call f'))
    (hfree : ∀ f, (call f).work L.heaviest = 0) :
    L.Holds n id 0 (fun _ => Action.answering (Action.evaluate expr >>= fun f => (call f).action))
      fun _ => Action.answering (Action.evaluate expr >>= fun f => (call f).action) := by
  refine L.answering (L.bind_free (L.evaluate htokens) fun m f f' _ hf => ?_)
  exact L.mono (hfree f).le (L.register (hcall m f f' hf))

/-- A value that holds no fragments is answered. -/
theorem answer {α : Type} [Likeness α] [Likeness.Plain α] {f : Locker → Action α}
    (hf : L.Holds n id 0 f f) {answer : α → Answer}
    (hsilent : ∀ a, (answer a).fragment? = none) :
    L.Holds n id 0 (fun lock => do return answer (← f lock)) fun lock => do
      return answer (← f lock) := by
  refine L.bind_plain_free hf fun m a _ => ?_
  exact L.pure (Answer.Alike.same (hsilent a))

/-- A fragment is answered. -/
theorem answerFragment {α : Type} [Likeness α] {f : Locker → Action α}
    (hf : L.Holds n id 0 f f) {fragment : α → Fragment}
    (hfragment : ∀ m a a', Alike (L.likeness m) a a' →
      Alike (L.likeness m) (fragment a) (fragment a')) :
    L.Holds n id 0 (fun lock => do return Answer.fragment (fragment (← f lock))) fun lock => do
      return Answer.fragment (fragment (← f lock)) := by
  refine L.bind_free hf fun m a a' _ ha => ?_
  exact L.pure (Answer.Alike.fragment (hfragment m a a' ha))

/-- An operation holds to a logic if its parts do.  This is the one place where operations are told
apart. -/
theorem perform {op op' : Op} (hop : op.Like L.toFrame n op') :
    L.Holds n id (op.work L.heaviest) (fun lock => perform lock op) fun lock =>
      perform lock op' := by
  obtain ⟨hscript, hsame, htokens, hnamed, haffords⟩ := hop
  generalize op'.script = script' at hscript hsame
  subst hsame
  have hvalue {value : FragmentSource} {others : List AliasToken}
      (h : ∀ t ∈ others ++ Aliased.tokens value, (L.likeness n).token t) :
      Alike (L.likeness n) value value := ⟨rfl, (List.forall_mem_append.mp h).2⟩
  cases op with
  | source table rowAlias =>
      obtain ⟨htable, halias⟩ := List.forall_mem_append.mp htokens
      refine L.answering (L.bind_free (L.evaluate htable) fun m _ _ hle htable => ?_)
      refine L.evaluateNode?_bind (fun t ht => (L.le hle).token (halias t ht)) hnamed
        fun m₁ node node' hle₁ hnode hnamed => ?_
      exact L.source (htable.mono (L.le hle₁)) hnode hnamed
  | select expr name =>
      exact L.evaluating htokens (fun _ _ _ hf => .select (.ready hf) name) fun _ => rfl
  | selectLazy steps value name =>
      exact L.answering (L.register (.select (.lazy hscript (hvalue htokens)) name))
  | selectIdentifiers primaryKey =>
      exact L.answering (L.register (.selectIdentifiers primaryKey))
  | selectCursor expr =>
      exact L.evaluating htokens (fun _ _ _ hf => .selectCursor (.ready hf)) fun _ => rfl
  | selectCursorLazy steps value =>
      exact L.answering (L.register (.selectCursor (.lazy hscript (hvalue htokens))))
  | join clause => exact L.evaluating htokens (fun _ _ _ hf => .join hf) fun _ => rfl
  | filter expr => exact L.evaluating htokens (fun _ _ _ hf => .filter (.ready hf)) fun _ => rfl
  | filterLazy steps value =>
      exact L.answering (L.register (.filter (.lazy hscript (hvalue htokens))))
  | bound expr isLower =>
      have hbound (m : Nat) (f f' : Fragment) (hf : Alike (L.likeness m) f f') :
          Call.Like L.toFrame m id (.bound (.given f) isLower) (.bound (.given f') isLower) :=
        .bound (Cursor.Bound.Alike.given hf) isLower
      exact L.evaluating htokens hbound fun _ => rfl
  | orderBy expr ascending nulls =>
      exact L.evaluating htokens (fun _ _ _ hf => .orderBy (.ready hf) ascending nulls) fun _ => rfl
  | orderByLazy steps value ascending nulls =>
      exact L.answering
        (L.register (.orderBy (.lazy hscript (hvalue htokens)) ascending nulls))
  | setOrderUnique => exact L.answering (L.register .setOrderUnique)
  | limit count => exact L.answering (L.register (.limit (.ready rfl)))
  | limitLazy steps value => exact L.answering (L.register (.limit (.lazy hscript rfl)))
  | offset count => exact L.answering (L.offset count)
  | offsetLazy steps value => exact L.answering (L.register (.offset (.lazy hscript rfl)))
  | first count => exact L.answering (L.register (.first count))
  | last count => exact L.answering (L.register (.last count))
  | setComparator kind => exact L.answering (L.setComparator (.kind kind))
  | setCustomComparator steps =>
      exact L.answering (L.setComparator (.custom hscript (haffords steps rfl)))
  | setCursorTag tag => exact L.answering (L.register (.setCursorTag tag))
  | addCursorCondition cursor isAfter =>
      exact L.answering (L.await .bounds (.cursorCondition cursor isAfter) nofun)
  | compareWith kind cursor isAfter => exact L.answering (L.compareWith kind cursor isAfter)
  | setUpConnection setup args =>
      exact L.answering (L.setUpConnection setup rfl (.refl (fun cursors _ => .refl cursors) _))
  | beforeLock concern steps =>
      exact L.answering (L.register (.beforeLock concern (.script hscript)))
  | lock concern => exact L.answering (L.lock concern)
  | checkLock concern => exact L.answering (L.checkLock concern)
  | lockEverything => exact L.answering L.lockEverything
  | fail error => exact L.refuse error
  | addChild name table rowAlias selecting =>
      obtain ⟨hfirst, hselecting⟩ := List.forall_mem_append.mp htokens
      obtain ⟨htable, halias⟩ := List.forall_mem_append.mp hfirst
      exact L.answering (L.addChildWith name htable halias hselecting hnamed)
  | phase | isFinalized | options | childNames =>
      refine L.inspect fun m b b' _ hb => ?_
      have hsame : Builder.phase b' = Builder.phase b ∧ b'.isFinalized = b.isFinalized := by
        rw [Builder.phase, Builder.phase, Builder.isFinalized, Builder.isFinalized, hb.locked]
        exact ⟨rfl, rfl⟩
      simp only [hsame.1, hsame.2, hb.options, hb.children]
      exact L.pure (Answer.Alike.same rfl)
  | parent =>
      refine L.inspect fun m b b' _ hb => ?_
      exact L.pure (Answer.Alike.parent hb.parentAnswer)
  | tableAlias =>
      refine L.inspect fun m b b' _ hb => ?_
      refine L.bind_free (L.ofExcept hb.tableAlias) fun m _ _ _ halias => ?_
      exact L.pure (Answer.Alike.fragment halias.node)
  | tableExpression =>
      refine L.inspect fun m b b' _ hb => ?_
      refine L.bind_free (L.ofExcept hb.tableExpression) fun m _ _ _ htable => ?_
      exact L.pure (Answer.Alike.fragment htable)
  | orderTerms =>
      refine L.bind_free L.orderTerms fun m _ _ _ hterms => ?_
      exact L.pure (Answer.Alike.terms hterms)
  | isOrderUnique settled => exact L.answer (L.isOrderUnique settled) fun _ => rfl
  | cursorTag => exact L.answer L.cursorTag fun _ => rfl
  | totalOffset => exact L.answer L.totalOffset fun _ => rfl
  | fieldCount => exact L.answer L.fieldCount fun _ => rfl
  | cursor =>
      refine L.bind_free L.cursor fun m _ _ _ hcursor => ?_
      exact L.pure (Answer.Alike.cursor hcursor)
  | plan => exact L.answer L.plan fun _ => rfl
  | selectFields => exact L.answerFragment L.selectFields fun _ _ _ hf => hf
  | cursorExpression =>
      exact L.answerFragment L.cursorExpression fun _ _ _ hcursor => hcursor.cursorFragment
  | rowObject options => exact L.answerFragment (L.rowObject options) fun _ _ _ hf => hf
  | boundClause isLower => exact L.answerFragment (L.boundClause isLower) fun _ _ _ hf => hf
  | whereClause lower upper options =>
      exact L.answerFragment (L.whereClause lower upper options) fun _ _ _ hfilter =>
        hfilter.filterFragment
  | build options =>
      exact L.answerFragment (L.build options) fun _ _ _ hbuilt => hbuilt.builtFragment
  | buildConnection options =>
      exact L.answerFragment (L.buildConnection options) fun _ _ _ hs => hs.connectionFragment
  | compile options =>
      refine L.bind_free (L.compile options) fun m _ _ _ hcompiled => ?_
      exact L.pure (Answer.Alike.compiled hcompiled)
  | compileExpr expr =>
      refine L.bind_free (L.evaluate htokens) fun m _ _ _ hf => ?_
      refine L.bind_free (L.compileFragment hf) fun m _ _ _ hcompiled => ?_
      exact L.pure (Answer.Alike.compiled hcompiled)
  | child name => exact L.childAnswer name
  | fetchRows options client =>
      refine L.bind_free (L.fetchRows options client) fun m result result' _ hresult => ?_
      obtain ⟨statement, rows⟩ := result
      obtain ⟨statement', rows'⟩ := result'
      obtain ⟨hstatement, hrows⟩ := hresult
      obtain rfl : rows = rows' := hrows.plain
      exact L.pure (Answer.Alike.rows hstatement rows)
  | fetchConnection client =>
      refine L.bind_free (L.fetchConnection client) fun m result result' _ hresult => ?_
      obtain ⟨statement, value⟩ := result
      obtain ⟨statement', value'⟩ := result'
      obtain ⟨hstatement, hvalue⟩ := hresult
      obtain rfl : value = value' := hvalue.plain
      exact L.pure (Answer.Alike.connection hstatement value)

/-! Scripts -/

/-- Scripts stay like each other when more tokens have been given out. -/
theorem script_mono {m : Nat} (hle : n ≤ m) {steps steps' : List Step}
    (h : ScriptLike L.toFrame n steps steps') : ScriptLike L.toFrame m steps steps' :=
  h.imp fun _ _ hs => { hs with op := L.op_mono hle hs.op }

/-- What a step saves behind its operation. -/
theorem saving (name : Option String) {answer answer' : Answer}
    (hanswer : Alike (L.likeness n) answer answer') :
    L.Holds n id 0 (fun _ => saving name answer) fun _ => saving name answer' := by
  have hsaved := hanswer.savedFragment
  simp only [Action.saving]
  generalize answer.fragment? = f, answer'.fragment? = f' at hsaved ⊢
  cases name with
  | none => exact L.pure hanswer
  | some name =>
      cases hsaved with
      | none => exact L.pure hanswer
      | some hf =>
          refine L.bind_plain_free (L.save name hf) fun m _ hle => ?_
          exact L.pure (hanswer.mono (L.le hle))

/-- A step is its operation on the builder that its path leads to. -/
theorem performStep {s s' : Step} (hs : s.Like L.toFrame n s') :
    L.Holds n id (s.work L.heaviest) (fun lock => performStep lock s) fun lock =>
      performStep lock s' := by
  obtain ⟨path, op, optional, name⟩ := s
  obtain ⟨path', op', optional', name'⟩ := s'
  obtain ⟨hpath, hop, -, hsave⟩ := hs
  obtain rfl : path' = path := hpath
  obtain rfl : name' = name := hsave
  have hperform (id : BuilderId) : L.Holds n id (op.work L.heaviest)
      (fun lock => Action.perform lock op) fun lock => Action.perform lock op' := by
    rcases L.op_cases hop with hlike | hholds
    · exact L.perform hlike
    · exact hholds id
  refine L.then_free (L.follow path' hperform) fun m answer answer' _ hanswer => ?_
  exact L.saving name' hanswer

/-- Scripts whose steps may stand for each other do. -/
theorem runSteps {steps steps' : List Step} (h : ScriptLike L.toFrame n steps steps') :
    L.Holds n id (scriptWork L.heaviest steps) (fun lock => runSteps lock steps) fun lock =>
      runSteps lock steps' := by
  induction steps generalizing n steps' with
  | nil =>
      cases h
      exact L.pure (.of_plain ())
  | cons s rest ih =>
      obtain ⟨s', rest', hs, hrest, rfl⟩ := List.forall₂_cons_left_iff.mp h
      refine L.bind (L.attempt (L.performStep hs)) fun m outcome outcome' hle houtcome => ?_
      refine L.inspect fun m₁ b b' hle₁ hb => ?_
      have hop := L.op_mono (hle.trans hle₁) hs.op
      have hlocks : b'.locks = b.locks := by rw [Builder.locks, Builder.locks, hb.locked]
      rw [hlocks, hs.optional]
      refine L.bind_plain_free (L.record hop b.locks (houtcome.mono (L.le hle₁)))
        fun m₂ _ hle₂ => ?_
      have hrest : L.Holds m₂ id (scriptWork L.heaviest rest)
          (fun lock => Action.runSteps lock rest) fun lock => Action.runSteps lock rest' :=
        ih (L.script_mono (hle.trans (hle₁.trans hle₂)) hrest)
      cases houtcome with
      | ok => exact hrest
      | error e => exact L.ite hrest (L.mono (Nat.zero_le _) (L.refuse e))

end PageQuery.Logic
