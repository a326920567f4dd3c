import PageQuery.Proofs.Call.Basic
import PageQuery.Proofs.Likeness.Builders
import PageQuery.Proofs.Run.Scripts
import PageQuery.Proofs.Work.Scripts

/-!
# Scripts that stand for each other

Two runs are compared step by step, so it has to be said which operations of the one may stand
where operations of the other one do.  A frame says this for one comparison, with how the data
of the two runs may differ.  A single run is compared with itself.
-/

namespace PageQuery

open Sql

namespace Op

/-- The script that an operation is given. -/
def script : Op → List Step
  | .selectLazy steps _ _ | .selectCursorLazy steps _ | .filterLazy steps _
  | .orderByLazy steps _ _ _ | .limitLazy steps _ | .offsetLazy steps _
  | .setCustomComparator steps | .beforeLock _ steps => steps
  | _ => []

/-- The operation with another script in place of its own. -/
def withScript (op : Op) (steps : List Step) : Op :=
  match op with
  | .selectLazy _ value name => .selectLazy steps value name
  | .selectCursorLazy _ value => .selectCursorLazy steps value
  | .filterLazy _ value => .filterLazy steps value
  | .orderByLazy _ value ascending nulls => .orderByLazy steps value ascending nulls
  | .limitLazy _ value => .limitLazy steps value
  | .offsetLazy _ value => .offsetLazy steps value
  | .setCustomComparator _ => .setCustomComparator steps
  | .beforeLock c _ => .beforeLock c steps
  | op => op

/-- Every operation is the operation with its own script. -/
theorem withScript_script (op : Op) : op.withScript op.script = op := by
  cases op <;> rfl

end Op

/-- How two runs are compared.  They go through stages, and the later the stage is, the more the
data of the runs may differ. -/
structure Frame where
  /-- How the data may differ. -/
  likeness : Nat → Variation
  /-- The operations that may stand for each other. -/
  op : Nat → Op → Op → Prop
  /-- The cursors that may stand for each other in a condition on a builder. -/
  cursors : BuilderId → List Json → List Json → Prop := fun _ _ _ => False
  /-- The scripts that comparators may be. -/
  affords : List Step → Prop := fun _ => True
  /-- The work that a comparator leaves behind at most. -/
  heaviest : Nat := 0
  /-- Whether row sources may be given aliases. -/
  named : Prop := True

variable {F : Frame} {n m : Nat} {id : BuilderId}

/-- The steps differ in their operations only. -/
structure Step.Like (F : Frame) (n : Nat) (s s' : Step) : Prop where
  path : s'.path = s.path
  op : F.op n s.op s'.op
  optional : s'.optional = s.optional
  save : s'.save = s.save

/-- Two scripts that have the same steps up to what their operations may vary in. -/
abbrev ScriptLike (F : Frame) (n : Nat) : List Step → List Step → Prop :=
  List.Forall₂ (Step.Like F n)

/-- Where operations stand for themselves only, scripts do. -/
theorem ScriptLike.eq (hop : ∀ {o o'}, F.op n o o' → o' = o) {steps steps' : List Step}
    (h : ScriptLike F n steps steps') : steps' = steps := by
  induction h with
  | nil => rfl
  | @cons s s' _ _ hs _ ih =>
      obtain ⟨path, op, optional, save⟩ := s
      obtain ⟨path', op', optional', save'⟩ := s'
      obtain ⟨hpath, hsame, hoptional, hsave⟩ := hs
      obtain rfl : path' = path := hpath
      obtain rfl : op' = op := hop hsame
      obtain rfl : optional' = optional := hoptional
      obtain rfl : save' = save := hsave
      rw [ih]

/-- The operations differ in their scripts only, whose steps may stand for each other. -/
structure Op.Like (F : Frame) (n : Nat) (op op' : Op) : Prop where
  script : ScriptLike F n op.script op'.script
  same : op' = op.withScript op'.script
  tokens : ∀ t ∈ (op.withScript []).tokens, (F.likeness n).token t
  named : (op.withScript []).givesAlias = true → F.named
  affords : ∀ steps, op = .setCustomComparator steps → F.affords steps

/-! What waits -/

/-- The values are alike, or have scripts whose steps may stand for each other. -/
inductive Deferred.Like (F : Frame) (n : Nat) {α σ : Type} [Likeness α] [Likeness σ] :
    Deferred α σ → Deferred α σ → Prop
  | ready {a a' : α} (ha : Alike (F.likeness n) a a') : Like F n (.ready a) (.ready a')
  | lazy {steps steps' : List Step} (hsteps : ScriptLike F n steps steps') {value value' : σ}
      (hvalue : Alike (F.likeness n) value value') :
      Like F n (.lazy steps value) (.lazy steps' value')

/-- Values without fragments do not vary where scripts do not. -/
theorem Deferred.Like.eq {α σ : Type} [Likeness α] [Likeness σ] [Likeness.Plain α]
    [Likeness.Plain σ] (hop : ∀ {o o'}, F.op n o o' → o' = o) {value value' : Deferred α σ}
    (h : value.Like F n value') : value' = value := by
  cases h with
  | ready ha => rw [ha.plain]
  | lazy hsteps hvalue => rw [hsteps.eq hop, hvalue.plain]

/-- Two comparators: the same built-in one, or two scripts that may be set as comparators. -/
inductive Comparator.Like (F : Frame) (n : Nat) : Comparator → Comparator → Prop
  | kind (kind : ComparatorKind) : Like F n (.kind kind) (.kind kind)
  | custom {steps steps' : List Step} (hsteps : ScriptLike F n steps steps')
      (haffords : F.affords steps) : Like F n (.custom steps) (.custom steps')

theorem Comparator.Like.eq (hop : ∀ {o o'}, F.op n o o' → o' = o)
    {comparator comparator' : Comparator} (h : comparator.Like F n comparator') :
    comparator' = comparator := by
  cases h with
  | kind => rfl
  | custom hsteps => rw [hsteps.eq hop]

/-- The callbacks of a builder that may stand for each other. -/
inductive Callback.Like (F : Frame) (n : Nat) (id : BuilderId) : Callback → Callback → Prop
  | same {callback : Callback} (hready : ∀ steps, callback ≠ .script steps) :
      Like F n id callback callback
  | script {steps steps' : List Step} (hsteps : ScriptLike F n steps steps') :
      Like F n id (.script steps) (.script steps')
  | cursor {cursor cursor' : List Json} (hcursor : F.cursors id cursor cursor') (isAfter : Bool) :
      Like F n id (.cursorCondition cursor isAfter) (.cursorCondition cursor' isAfter)

/-- The cursors of two requests are turned into bounds by callbacks that may stand for each
other. -/
structure PageCursors.Like (F : Frame) (n : Nat) (id : BuilderId) (cursors cursors' : PageCursors) :
    Prop where
  after : Option.Rel (fun cursor cursor' => Callback.Like F n id (.cursorCondition cursor true)
    (.cursorCondition cursor' true)) cursors.after cursors'.after
  before : Option.Rel (fun cursor cursor' => Callback.Like F n id (.cursorCondition cursor false)
    (.cursorCondition cursor' false)) cursors.before cursors'.before

/-- The cursors in the arguments of a connection are like themselves. -/
theorem PageCursors.Like.refl (cursors : PageCursors) : cursors.Like F n id cursors := by
  obtain ⟨after, before⟩ := cursors
  constructor
  · cases after with
    | none => exact .none
    | some cursor => exact .some (.same nofun)
  · cases before with
    | none => exact .none
    | some cursor => exact .some (.same nofun)

/-! Calls -/

namespace Call

/-- The calls register on a builder what may stand for each other. -/
inductive Like (F : Frame) (n : Nat) (id : BuilderId) : Call → Call → Prop
  | select {expr expr' : DeferredFragment} (hexpr : expr.Like F n expr') (name : String) :
      Like F n id (.select expr name) (.select expr' name)
  | selectIdentifiers (primaryKey : List String) :
      Like F n id (.selectIdentifiers primaryKey) (.selectIdentifiers primaryKey)
  | selectCursor {expr expr' : DeferredFragment} (hexpr : expr.Like F n expr') :
      Like F n id (.selectCursor expr) (.selectCursor expr')
  | join {clause clause' : Fragment} (hclause : Alike (F.likeness n) clause clause') :
      Like F n id (.join clause) (.join clause')
  | filter {expr expr' : DeferredFragment} (hexpr : expr.Like F n expr') :
      Like F n id (.filter expr) (.filter expr')
  | bound {condition condition' : Cursor.Bound}
      (hcondition : Alike (F.likeness n) condition condition') (isLower : Bool) :
      Like F n id (.bound condition isLower) (.bound condition' isLower)
  | orderBy {expr expr' : DeferredFragment} (hexpr : expr.Like F n expr') (ascending : Bool)
      (nulls : Option NullsOrder) :
      Like F n id (.orderBy expr ascending nulls) (.orderBy expr' ascending nulls)
  | setOrderUnique : Like F n id .setOrderUnique .setOrderUnique
  | limit {count count' : DeferredCount} (hcount : count.Like F n count') :
      Like F n id (.limit count) (.limit count')
  | offset {count count' : DeferredCount} (hcount : count.Like F n count') :
      Like F n id (.offset count) (.offset count')
  | first (count : Nat) : Like F n id (.first count) (.first count)
  | last (count : Nat) : Like F n id (.last count) (.last count)
  | setCursorTag (tag : String) : Like F n id (.setCursorTag tag) (.setCursorTag tag)
  | beforeLock (c : Concern) {callback callback' : Callback}
      (hcallback : callback.Like F n id callback') :
      Like F n id (.beforeLock c callback) (.beforeLock c callback')

/-- The work that a call leaves behind, where a comparator leaves behind at most `heaviest`. -/
def work (heaviest : Nat) : Call → Nat
  | .select expr _ | .selectCursor expr | .filter expr | .orderBy expr _ _ => expr.work heaviest
  | .limit count | .offset count => count.work heaviest
  | .addCursorCondition _ _ => conditionWeight heaviest
  | .beforeLock _ callback => callback.work heaviest
  | _ => 0

end Call

/-! Frames in which everything may stand for itself -/

/-- A single run, in which anything may happen. -/
def Frame.plain : Frame where
  likeness _ := .none
  op _ := Eq

/-- Every operation may stand for itself. -/
structure Frame.Reflexive (F : Frame) : Prop where
  whole (n : Nat) : (F.likeness n).Whole
  op (n : Nat) (op : Op) : F.op n op op
  affords (steps : List Step) : F.affords steps
  named : F.named

/-- Nothing varies in the frame of one plain run. -/
theorem Frame.reflexive_plain : Frame.plain.Reflexive where
  whole _ := Variation.whole_none
  op _ _ := rfl
  affords _ := trivial
  named := trivial

namespace Frame.Reflexive

variable (hF : F.Reflexive)

include hF

theorem script (steps : List Step) : ScriptLike F n steps steps :=
  List.forall₂_same.mpr fun s _ => ⟨rfl, hF.op n s.op, rfl, rfl⟩

/-- In a reflexive frame every operation is like itself. -/
theorem like (op : Op) : op.Like F n op where
  script := hF.script _
  same := op.withScript_script.symm
  tokens t _ := hF.whole n t
  named _ := hF.named
  affords steps _ := hF.affords steps

theorem deferred {α σ : Type} [Likeness α] [Likeness σ] (value : Deferred α σ) :
    value.Like F n value := by
  cases value with
  | ready a => exact .ready (.refl (hF.whole n) a)
  | lazy steps value => exact .lazy (hF.script steps) (.refl (hF.whole n) value)

/-- In a reflexive frame every callback is like itself. -/
theorem callback (callback : Callback) : callback.Like F n id callback := by
  cases callback with
  | script steps => exact .script (hF.script steps)
  | settleBounds | settleCursor | cursorCondition | breakTies | refuseLastFromEnd =>
      exact .same nofun

end Frame.Reflexive

end PageQuery
