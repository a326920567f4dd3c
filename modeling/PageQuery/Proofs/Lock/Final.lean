import PageQuery.Proofs.Alias.Statements
import PageQuery.Proofs.Lock.Frozen
import PageQuery.Proofs.Run.Path

/-!
# Built builders are final

A build locks everything before it puts a statement together.  From then on every change is
refused, and so what statements are made of stays as it is.  Only the token that names an array
is a fresh one each time, and it does not show.  Main statement: whatever happens after a build
has succeeded, builds of this builder keep giving the same.
-/

namespace PageQuery

open Sql

namespace Builder

/-- A builder with the given values, and nothing else. -/
def ofValues (options : Options) (value : (c : Concern) → c.Value) : Builder :=
  { fresh options none with
    source := value .source
    joins := value .joins
    lower := (value .bounds).1
    upper := (value .bounds).2
    orderIsUnique := value .uniqueness
    first := value .first
    last := value .last
    cursorTag := value .cursorTag
    resolved := {
      selects := value .select, wheres := value .wheres, orderTerms := value .order
      limit := value .limit, offset := value .offset, cursor := value .cursor
      comparator := value .comparator } }

variable {b b' : Builder}

/-- What a finalized builder gives depends on its values and its options only. -/
theorem builtOf_congr (hoptions : b'.options = b.options) (hvalue : b'.value = b.value)
    (options : BuildOptions) (token : AliasToken) :
    b'.builtOf options token = b.builtOf options token := by
  change (ofValues b'.options b'.value).builtOf options token =
    (ofValues b.options b.value).builtOf options token
  rw [hoptions, hvalue]

theorem connectionOf_congr (hoptions : b'.options = b.options) (hvalue : b'.value = b.value)
    (options : BuildOptions) (token : AliasToken) :
    b'.connectionOf options token = b.connectionOf options token := by
  change (ofValues b'.options b'.value).connectionOf options token =
    (ofValues b.options b.value).connectionOf options token
  rw [hoptions, hvalue]

theorem options_of_edit (hedit : b.Edit b') : b'.options = b.options := by
  cases hedit <;> rfl

end Builder

namespace World

variable {w w' : World} {id other : BuilderId} {options : Options} {b : Builder}

def HasOptions (id : BuilderId) (options : Options) (w : World) : Prop :=
  id < w.nextBuilder ∧ (w.builder id).options = options

theorem HasOptions.setBuilder (h : w.HasOptions id options)
    (hsame : b.options = (w.builder other).options) :
    (w.setBuilder other b).HasOptions id options :=
  ⟨h.1, (part_setBuilder (·.options) fun _ => hsame).trans h.2⟩

theorem stable_hasOptions : Stable (HasOptions id options) := by
  intro w w' hchange h
  cases hchange with
  | report | save | mint | built => exact h
  | spawn made parent =>
      refine ⟨Nat.lt_succ_of_lt h.1, ?_⟩
      rw [builder_spawned, if_neg (Nat.ne_of_lt h.1)]
      exact h.2
  | edit _ hedit => exact h.setBuilder (Builder.options_of_edit hedit)
  | filter expr _ _ => exact h.setBuilder rfl
  | child name child _ _ => exact h.setBuilder rfl

end World

namespace Action

open World

variable {id i : BuilderId} {c : Concern} {w : World} {options : Options}

/-- A builder keeps the options that it was made with. -/
theorem respects_hasOptions (fuel : Nat) : (lockWith fuel).Respects (HasOptions i options) :=
  respects_of_origin stable_hasOptions (fun _ _ _ hsame _ h => h.setBuilder hsame)
    (fun _ _ _ h => h) fuel

/-- A call that changes a concern of a builder, or that asks for a callback before its lock,
whatever the call is given. -/
inductive Mutation : Concern → (Locker → Action Unit) → Prop
  | source (table : Fragment) (rowAlias : Option Node) :
      Mutation .source fun lock => Action.source lock table rowAlias
  | join (clause : Fragment) : Mutation .joins fun _ => Action.join clause
  | orderBy (expr : DeferredFragment) (ascending : Bool) (nulls : Option NullsOrder) :
      Mutation .order fun _ => Action.orderBy expr ascending nulls
  | setOrderUnique : Mutation .uniqueness fun _ => Action.setOrderUnique
  | setComparator (comparator : Comparator) :
      Mutation .comparator fun lock => Action.setComparator lock comparator
  | setCursorTag (tag : String) : Mutation .cursorTag fun _ => Action.setCursorTag tag
  | bound (condition : Cursor.Bound) (isLower : Bool) :
      Mutation .bounds fun _ => Action.bound condition isLower
  | addCursorCondition (cursor : List Json) (isAfter : Bool) :
      Mutation .bounds fun _ => Action.addCursorCondition cursor isAfter
  | filter (expr : DeferredFragment) : Mutation .wheres fun _ => Action.filter expr
  | offset (n : DeferredCount) : Mutation .offset fun _ => Action.offset n
  | limit (n : DeferredCount) : Mutation .limit fun _ => Action.limit n
  | first (n : Nat) : Mutation .first fun _ => Action.first n
  | last (n : Nat) : Mutation .last fun _ => Action.last n
  | selectCursor (expr : DeferredFragment) : Mutation .cursor fun _ => Action.selectCursor expr
  | select (expr : DeferredFragment) (name : String) :
      Mutation .select fun _ => Action.select expr name
  | selectIdentifiers (primaryKey : List String) :
      Mutation .select fun _ => Action.selectIdentifiers primaryKey
  | beforeLock (c : Concern) (callback : Callback) :
      Mutation c fun _ => Action.beforeLock c callback

/-- A change of a locked concern is refused, and nothing happens. -/
theorem Mutation.exec_locked {call : Locker → Action Unit} (hcall : Mutation c call)
    (hlocked : (w.builder id).locked c = true) (lock : Locker) :
    (call lock).exec id w = (.error (.refused (.lockedMutation c)), w) := by
  cases hcall with
  | source table rowAlias | setComparator comparator =>
      exact exec_bind_error (exec_checkLock_bind_locked _ hlocked)
  | _ => exact exec_checkLock_bind_locked _ hlocked

end Action

/-- The step was answered with an error, or with a fragment that compiles so. -/
def Report.Compiles (r : Report) (compiled : Except Error (Except Error Compiled)) : Prop :=
  ∃ f : Except Error Fragment, r.outcome = .ok (f.map .fragment) ∧ f.map compile = compiled

namespace World

open PageQuery.Action

variable {w w' : World} {id : BuilderId} {s : Step} {a : Answer}

/-- A step whose operation answers the fragment of what an action gives. -/
theorem compiles_of_run {α : Type} {action : Action α} {f : α → Fragment}
    {value : Except Error α} (hleads : w.Leads id root s.path)
    (hperform : Action.perform (lockWith (w.budget s)) s.op =
      do return Answer.fragment (f (← action)))
    (hrun : action.exec id w.quiet = outcome value w') :
    (w.step s).1.Compiles (value.map fun a => compile (f a)) := by
  have hanswer : (Action.perform (lockWith (w.budget s)) s.op).exec id w.quiet =
      outcome ((value.map f).map .fragment) w' := by
    rw [hperform]
    cases value with
    | error e => exact exec_bind_error hrun
    | ok a => exact exec_bind_ok hrun
  exact ⟨value.map f, outcome_of_run hleads hanswer, by cases value <;> rfl⟩

/-- A builder on which every change is refused, and on which builds give `page` and
`connection`, whatever their options are. -/
structure Final (id : BuilderId)
    (page connection : BuildOptions → Except Error (Except Error Compiled)) (w : World) : Prop where
  refuses : ∀ {c : Concern} {call : Locker → Action Unit}, Mutation c call → ∀ lock,
    (call lock).exec id w = (.error (.refused (.lockedMutation c)), w)
  build : ∀ (s : Step) (options : BuildOptions), w.Leads id root s.path →
    s.op = .build options → (w.step s).1.Compiles (page options)
  buildConnection : ∀ (s : Step) (options : BuildOptions), w.Leads id root s.path →
    s.op = .buildConnection options → (w.step s).1.Compiles (connection options)

/-- A builder whose concerns are all locked, in a world whose tokens have all been given out. -/
structure Settled (id : BuilderId) (w : World) : Prop where
  locked : ∀ c, (w.builder id).locked c = true
  minted : w.Minted

/-- What a page compiles to once the builder is settled. -/
def pageOf (id : BuilderId) (w : World) (options : BuildOptions) :
    Except Error (Except Error Compiled) :=
  ((w.builder id).builtOf options ⟨w.nextToken⟩).map fun built => compile built.fragment

def connectionOf (id : BuilderId) (w : World) (options : BuildOptions) :
    Except Error (Except Error Compiled) :=
  ((w.builder id).connectionOf options ⟨w.nextToken⟩).map fun c => compile c.fragment

namespace Settled

variable (h : w.Settled id)

include h

theorem refuses {c : Concern} {call : Locker → Action Unit} (hcall : Mutation c call)
    (lock : Locker) : (call lock).exec id w = (.error (.refused (.lockedMutation c)), w) :=
  hcall.exec_locked (h.locked c) lock

theorem compiles_build (hleads : w.Leads id root s.path) {options : BuildOptions}
    (hop : s.op = .build options) : (w.step s).1.Compiles (w.pageOf id options) := by
  obtain ⟨w', hrun, -⟩ := exec_build_finalized (w := w.quiet) (idle_lockWith (w.budget s))
    h.locked options
  exact compiles_of_run hleads (by rw [hop]; rfl) hrun

theorem compiles_buildConnection (hleads : w.Leads id root s.path) {options : BuildOptions}
    (hop : s.op = .buildConnection options) :
    (w.step s).1.Compiles (w.connectionOf id options) := by
  obtain ⟨w', hrun⟩ := exec_buildConnection_finalized (w := w.quiet)
    (idle_lockWith (w.budget s)) h.locked options
  exact compiles_of_run hleads (by rw [hop]; rfl) hrun

variable (hgrows : w.nextToken ≤ w'.nextToken)
variable (hoptions : (w'.builder id).options = (w.builder id).options)
variable (hvalue : (w'.builder id).value = (w.builder id).value)

include hgrows hoptions hvalue

theorem pageOf_eq (options : BuildOptions) : w'.pageOf id options = w.pageOf id options := by
  rw [pageOf, Builder.builtOf_congr hoptions hvalue]
  exact Builder.compile_builtOf (h.minted.pageStatement h.locked options) hgrows (Nat.le_refl _)

theorem connectionOf_eq (options : BuildOptions) :
    w'.connectionOf id options = w.connectionOf id options := by
  rw [connectionOf, Builder.connectionOf_congr hoptions hvalue]
  exact Builder.compile_connectionOf (h.minted.pageStatement h.locked)
    (fun flag isLower => h.minted.flagOf h.locked flag isLower options) hgrows (Nat.le_refl _)

/-- A settled builder is final in every later world in which it has the same values. -/
theorem final (h' : w'.Settled id) : w'.Final id (w.pageOf id) (w.connectionOf id) where
  refuses := h'.refuses
  build s options hleads hop := by
    rw [← h.pageOf_eq hgrows hoptions hvalue]
    exact h'.compiles_build hleads hop
  buildConnection s options hleads hop := by
    rw [← h.connectionOf_eq hgrows hoptions hvalue]
    exact h'.compiles_buildConnection hleads hop

end Settled

/-- A build that succeeds has settled its builder first, and the steps go on from there. -/
theorem exists_settled (hlive : root < w.nextBuilder) (hclosed : w.Closed) (hminted : w.Minted)
    (hleads : w.Leads id root s.path) {options : BuildOptions} (hop : s.op = .build options)
    (hbuilt : (w.step s).1.outcome = .ok (.ok a)) :
    ∃ middle : World, middle.Settled id ∧ middle.nextToken ≤ (w.step s).2.nextToken ∧
      (w.step s).2.builder id = middle.builder id ∧
      (w.step s).1.Compiles (middle.pageOf id options) := by
  let lock := lockWith (w.budget s)
  have hidle : lock.Idle := idle_lockWith _
  have hconfines : lock.Confines := confines_lockWith _
  obtain ⟨w', hrun⟩ := exec_of_step_ok hleads hbuilt
  obtain ⟨-, saved, hworld⟩ := step_of_ok hleads hrun
  rw [hop] at hrun
  change (build lock options >>= fun built => _).exec id w.quiet = _ at hrun
  obtain ⟨built, w₂, hbuild, hanswer⟩ := exec_bind_eq_ok hrun
  obtain ⟨-, rfl⟩ := Prod.mk.inj hanswer
  obtain ⟨⟨⟩, middle, hlock, -⟩ := exec_bind_eq_ok hbuild
  have hlocked := (kept_lockEverything (w := w.quiet) (lawful_lockWith _)
    (hleads.live hclosed hlive) hclosed hlock).holds
  have hsettled : middle.Settled id := by
    have hkeeps : Confined w.nextToken id (lockEverything lock) :=
      hconfines.logic.lockEverything
    obtain ⟨-, hmiddle, -⟩ := hkeeps (w := w.quiet) (Nat.le_refl _) hminted.quiet
    rw [hlock] at hmiddle
    exact ⟨hlocked, hmiddle⟩
  have hsame := exec_build_locked hidle hlock hlocked options
  obtain ⟨w₃, hfinal, hbuilders⟩ := exec_build_finalized hidle hlocked options
  have hgrows : middle.nextToken ≤ w₂.nextToken := by
    have hkeeps : Confined middle.nextToken id (build lock options) :=
      hconfines.logic.build options
    obtain ⟨hgrows, -⟩ := hkeeps (Nat.le_refl _) hsettled.minted
    rwa [← hsame, hbuild] at hgrows
  obtain rfl : w₂ = w₃ := (Prod.mk.inj (hbuild.symm.trans (hsame.trans hfinal))).2
  have hbuilder : (w.step s).2.builder id = middle.builder id := by
    rw [hworld, builder, builder, hbuilders]
  refine ⟨middle, hsettled, by rwa [hworld], hbuilder, ?_⟩
  exact compiles_of_run hleads (by rw [hop]; rfl) (hsame.trans hfinal)

/-- What a settled builder holds stays as it is over steps that are all answered. -/
theorem settled_after (hlive : id < w.nextBuilder) (hroot : root < w.nextBuilder)
    (hclosed : w.Closed) (hlocked : ∀ c, (w.builder id).locked c = true) (steps : List Step)
    (hanswered : ∀ report ∈ w.steps steps, report.outcome.isOk = true) :
    (∀ c, ((w.after steps).builder id).locked c = true) ∧
      ((w.after steps).builder id).options = (w.builder id).options ∧
      ((w.after steps).builder id).value = (w.builder id).value := by
  have hfrozen (c : Concern) := after_kept (P := Frozen id c ((w.builder id).value c))
    respects_frozen (fun _ h => h) steps hanswered hroot hclosed ⟨⟨hlive, hlocked c⟩, rfl⟩
  have hoptions := after_kept (P := HasOptions id (w.builder id).options) respects_hasOptions
    (fun _ h => h) steps hanswered hroot hclosed ⟨hlive, rfl⟩
  exact ⟨fun c => (hfrozen c).holds.1.2, hoptions.holds.2, funext fun c => (hfrozen c).holds.2⟩

/-- A built builder is final.  Once a build has succeeded in a run, every change of its
builder is refused with the concern that it is for, a callback before a lock too, and nothing
happens; and every build, with whatever options, gives the same each time, up to the token that
names an array, which does not show in the compiled statement.  This holds behind all further
steps, if they are all answered and if the scripts know only the tokens that were there from
the start. -/
theorem built_final (options : Options) (tokens : Nat) (before : List Step) (s : Step)
    {o : BuildOptions} (hbefore : Taken tokens before)
    (hanswered : ∀ report ∈ (start options tokens).steps before, report.outcome.isOk = true)
    (hleads : ((start options tokens).after before).Leads id root s.path)
    (hop : s.op = .build o)
    (hbuilt : (((start options tokens).after before).step s).1.Succeeds) :
    ∃ page connection : BuildOptions → Except Error (Except Error Compiled),
      (((start options tokens).after before).step s).1.Compiles (page o) ∧
      ∀ later : List Step, Taken tokens later →
        (∀ report ∈ (((start options tokens).after before).step s).2.steps later,
          report.outcome.isOk = true) →
        ((((start options tokens).after before).step s).2.after later).Final id page
          connection := by
  obtain ⟨a, hbuilt⟩ := hbuilt
  obtain ⟨hgrows, hminted⟩ := (minted_start options tokens).after hbefore
  have hsound := after_kept (fun fuel => respects_sound (lawful_lockWith fuel))
    (fun _ _ => trivial) before hanswered Nat.zero_lt_one (closed_start options tokens) trivial
  generalize (start options tokens).after before = w at hgrows hminted hsound hleads hbuilt ⊢
  have hlive : root < w.nextBuilder := Nat.lt_of_lt_of_le Nat.zero_lt_one hsound.grows
  obtain ⟨middle, hsettled, hmiddle, hbuilder, hcompiles⟩ :=
    exists_settled hlive hsound.closed hminted hleads hop hbuilt
  refine ⟨middle.pageOf id, middle.connectionOf id, hcompiles, fun later hlater hanswered' => ?_⟩
  have hstep := step_kept (fun fuel => respects_sound (lawful_lockWith fuel)) s
    (by rw [hbuilt]; rfl) hlive hsound.closed trivial
  have hs : Taken w.nextToken s := by
    obtain ⟨path, op, optional, save⟩ := s
    obtain rfl : op = .build o := hop
    exact .of_tokens_eq_nil rfl
  obtain ⟨hgrows₁, hminted₁⟩ := hminted.step hs
  obtain ⟨hgrows₂, hminted₂⟩ :=
    hminted₁.after (hlater.mono (Nat.le_trans hgrows hgrows₁))
  have hid := Nat.lt_of_lt_of_le (hleads.live hsound.closed hlive) hstep.grows
  have hlocked : ∀ c, ((w.step s).2.builder id).locked c = true := by
    rw [hbuilder]
    exact hsettled.locked
  obtain ⟨hlocked', hoptions, hvalue⟩ := settled_after hid (Nat.lt_of_lt_of_le hlive hstep.grows)
    hstep.closed hlocked later hanswered'
  rw [hbuilder] at hoptions hvalue
  exact hsettled.final (Nat.le_trans hmiddle hgrows₂) hoptions hvalue ⟨hlocked', hminted₂⟩

/-- A step that gives the first builder a row source. -/
def sourceStep : Step := .mk [] (.source (.text "items") none) false none

/-- A step that builds one array of all rows. -/
def arrayStep : Step := .mk [] (.build { asJsonAggregate := true }) false none

/-- A limit that comes too late does not show in another build. -/
theorem built_final_arrayStep :
    ∃ compiled, (((start {} 0).after [sourceStep]).step arrayStep).1.Compiles compiled ∧
      ((((start {} 0).after [sourceStep, arrayStep]).step (.mk [] (.limit 5) false none)).2.step
        arrayStep).1.Compiles compiled := by
  have hleads : ((start {} 0).after [sourceStep]).Leads root root arrayStep.path := rfl
  obtain ⟨page, connection, hfirst, hfinal⟩ := built_final {} 0 [sourceStep] arrayStep
    (.of_tokens_eq_nil rfl) (by decide +kernel) hleads rfl ⟨_, rfl⟩
  have hlate := hfinal [.mk [] (.limit 5) false none] (.of_tokens_eq_nil rfl) (by decide +kernel)
  exact ⟨page { asJsonAggregate := true }, hfirst, hlate.build arrayStep _ rfl rfl⟩

end World

end PageQuery
