import PageQuery.Cursor.Bound
import PageQuery.Script.Basic
import PageQuery.Sql.Compile
import PageQuery.Statement.Basic

/-!
# Builders

A builder collects the parts of one statement.  What is registered waits in
`pending` until its concern locks, and stands in `resolved` from then on.  The
builders of a run live in one world, each under its id, and a parent knows its
children by name.
-/

namespace PageQuery

open Sql

abbrev BuilderId := Nat

structure PendingField where
  expr : DeferredFragment
  name : String

structure PendingTerm where
  expr : DeferredFragment
  ascending : Bool
  nulls : Option NullsOrder

/-- What has been registered for concerns that are open. -/
structure Pending where
  selects : List PendingField := []
  wheres : List DeferredFragment := []
  orderTerms : List PendingTerm := []
  limit : Option DeferredCount := none
  offsets : List DeferredCount := []
  cursor : Option DeferredFragment := none
  comparator : Option Comparator := none

/-- The values of concerns that are locked. -/
structure Resolved where
  selects : List Field := []
  wheres : List Fragment := []
  orderTerms : List OrderTerm := []
  limit : Option Nat := none
  offset : Nat := 0
  cursor : Option Fragment := none
  comparator : Option Comparator := none

/-- What a child knows of the builder that it was made by. -/
structure ParentRef where
  id : BuilderId
  tableAlias : Node

structure Builder where
  options : Options
  parent : Option ParentRef
  source : Option (Fragment × Node) := none
  joins : List Fragment := []
  /-- The bounds of `after` cursors. -/
  lower : List Cursor.Bound := []
  /-- The bounds of `before` cursors. -/
  upper : List Cursor.Bound := []
  orderIsUnique : Bool := false
  first : Option Nat := none
  last : Option Nat := none
  cursorTag : String
  identifiersSelected : Bool := false
  pending : Pending := {}
  resolved : Resolved := {}
  locked : Concern → Bool := fun _ => false
  callbacks : Concern → List Callback
  /-- The children in the order of their names. -/
  children : List (String × BuilderId) := []

namespace Builder

/-- The callbacks that every builder begins with.  What depends on the bounds locks
them first, and the select list locks the cursor first and takes it in. -/
def initialCallbacks : Concern → List Callback
  | .wheres | .offset | .limit | .first | .last => [.settleBounds]
  | .select => [.settleCursor]
  | _ => []

def fresh (options : Options) (parent : Option ParentRef) : Builder :=
  { options, parent, cursorTag := options.cursorTag, callbacks := initialCallbacks }

/-- Which concerns are locked, in the order in which a whole builder is locked. -/
def locks (b : Builder) : List Bool := Concern.lockOrder.map b.locked

def phase (b : Builder) : Phase := Phase.of b.locked

def isFinalized (b : Builder) : Bool := Concern.lockOrder.all b.locked

def setLocked (b : Builder) (c : Concern) : Builder :=
  { b with locked := fun d => if d = c then true else b.locked d }

def setCallbacks (b : Builder) (c : Concern) (queue : List Callback) : Builder :=
  { b with callbacks := fun d => if d = c then queue else b.callbacks d }

def tableAlias (b : Builder) : Except Error Node :=
  match b.source with
  | some (_, rowAlias) => .ok rowAlias
  | none => .error (.validation .noSource)

def tableExpression (b : Builder) : Except Error Fragment :=
  match b.source with
  | some (table, _) => .ok table
  | none => .error (.validation .noSource)

def parentAlias (b : Builder) : Except Error Node :=
  match b.parent with
  | some parent => .ok parent.tableAlias
  | none => .error (.validation .noParent)

/-- Whether `last` is taken from the end of all rows: nothing else limits the page.
Values that are not settled yet count as they stand. -/
def takesLastFromEnd (b : Builder) : Bool :=
  b.last.isSome && b.first.isNone && b.pending.limit.isNone && b.resolved.limit.isNone

def child (b : Builder) (name : String) : Except Error BuilderId :=
  match b.children.lookup name with
  | some id => .ok id
  | none => .error (.unknownChild name)

/-- Adds a child among children in the order of their names. -/
def insertChild (name : String) (id : BuilderId) :
    List (String × BuilderId) → List (String × BuilderId)
  | [] => [(name, id)]
  | (n, i) :: rest =>
    if name < n then (name, id) :: (n, i) :: rest else (n, i) :: insertChild name id rest

end Builder

/-- Something that is logged, with the builder that it happened to. -/
inductive Event
  | locked (builder : BuilderId) (concern : Concern)
  | childAdded (builder child : BuilderId) (name : String)
  | compiled (builder : BuilderId) (paramCount : Nat) (sql : String)
  | cursorRejected (builder : BuilderId) (isAfter : Bool) (reason : Cursor.Mismatch)
  deriving Repr

/-- What an operation answers. -/
inductive Answer
  | done
  | flag (value : Bool)
  | count (value : Nat)
  | text (value : String)
  | fragment (value : Fragment)
  | cursor (value : Option Fragment)
  | terms (value : List OrderTerm)
  | plan (value : Plan)
  | options (value : Options)
  | phase (value : Phase)
  | compiled (value : Compiled)
  | child (phase : Phase) (locks : List Bool)
  | names (value : List String)
  | parent (value : Option (Bool × Node))
  | rows (statement : Compiled) (rows : List (List Cell))
  | connection (statement : Compiled) (value : Connection)

/-- The fragment that an answer consists of. -/
def Answer.fragment? : Answer → Option Fragment
  | .fragment f => some f
  | .cursor f => f
  | _ => none

/-- Something that happened inside a callback or a lazy value. -/
inductive Entry
  /-- A step was performed; the locks are those of the builder of its script. -/
  | step (op : Op) (locks : List Bool) (outcome : Except Error Answer)
  /-- A custom comparator was called. -/
  | comparator (cursor : List Json) (isAfter : Bool)

/-- Something that a run cannot take back. -/
inductive Moment
  /-- A filter was accepted. -/
  | filterAccepted (builder : BuilderId) (expr : DeferredFragment)
  /-- A callback ran before the lock of a concern and was refused. -/
  | callbackRefused (builder : BuilderId) (concern : Concern) (callback : Callback)
  /-- The values of a locked concern have been settled. -/
  | settled (builder : BuilderId) (concern : Concern)
  /-- A build gave a statement. -/
  | built (builder : BuilderId) (statement : Statement)

/-- The state of a run: all builders, the ids and tokens that are not given out
yet, what there is to report, and the history of the whole run.  The history is what
statements about runs speak of; no operation reads it. -/
structure World where
  builders : List (BuilderId × Builder)
  nextBuilder : BuilderId
  nextToken : Nat
  events : List Event := []
  journal : List Entry := []
  saved : List (String × Fragment) := []
  history : List Moment := []

namespace World

/-- The builder with the given id; an id that is not given out stands for a fresh
builder. -/
def builder (w : World) (id : BuilderId) : Builder :=
  (w.builders.lookup id).getD (.fresh {} none)

/-- Puts a builder under an id among builders. -/
def replace (id : BuilderId) (b : Builder) :
    List (BuilderId × Builder) → List (BuilderId × Builder)
  | [] => [(id, b)]
  | (i, old) :: rest => if i = id then (id, b) :: rest else (i, old) :: replace id b rest

def setBuilder (w : World) (id : BuilderId) (b : Builder) : World :=
  { w with builders := replace id b w.builders }

/-- The id of the builder that a run begins with. -/
def root : BuilderId := 0

/-- The world of one fresh builder, in which tokens below `tokens` are taken. -/
def start (options : Options) (tokens : Nat) : World :=
  { builders := [(root, .fresh options none)], nextBuilder := 1, nextToken := tokens }

theorem lookup_replace (id other : BuilderId) (b : Builder)
    (builders : List (BuilderId × Builder)) :
    (replace id b builders).lookup other =
      if other = id then some b else builders.lookup other := by
  induction builders with
  | nil =>
    by_cases h : other = id
    · simp [replace, h]
    · simp [replace, List.lookup_cons, h, beq_eq_false_iff_ne.mpr h]
  | cons entry rest ih =>
    obtain ⟨i, old⟩ := entry
    by_cases hi : i = id
    · subst hi
      by_cases h : other = i
      · simp [replace, h]
      · simp [replace, List.lookup_cons, h, beq_eq_false_iff_ne.mpr h]
    · by_cases h : other = i
      · subst h
        simp [replace, hi]
      · simp [replace, hi, List.lookup_cons, ih, beq_eq_false_iff_ne.mpr h]

@[simp]
theorem builder_setBuilder (w : World) (id other : BuilderId) (b : Builder) :
    (w.setBuilder id b).builder other = if other = id then b else w.builder other := by
  by_cases h : other = id <;> simp [setBuilder, builder, lookup_replace, h]

theorem builder_setBuilder_self (w : World) (id : BuilderId) (b : Builder) :
    (w.setBuilder id b).builder id = b := by
  rw [builder_setBuilder, if_pos rfl]

end World

end PageQuery
