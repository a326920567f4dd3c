import Mathlib
import PageQuery.Proofs.Mirror.Sessions

/-!
# Requests that differ in the values of their cursors

A client chooses the values behind the tag of a cursor, and these are bound and never spelled
out.  Main statement: two requests whose cursors differ in these values only lead to statements
with one text, in which each parameter is the same or is the value of the request's own cursor
that stands in the place of the other one.
-/

namespace PageQuery

open Sql PageQuery.Action

/-- The cursors have one tag and as many values. -/
structure Cursor.Revalued (cursor cursor' : List Json) : Prop where
  tag : tag? cursor' = tag? cursor
  length : cursor'.length = cursor.length

/-- The values stand in one place behind the tags of the cursors of two requests. -/
inductive PageCursors.Counterpart (cursors cursors' : PageCursors) : Json → Json → Prop
  | after {cursor cursor' : List Json} (hcursor : cursors.after = some cursor)
      (hcursor' : cursors'.after = some cursor') {value value' : Json}
      (hvalues : (value, value') ∈ cursor.tail.zip cursor'.tail) :
      Counterpart cursors cursors' value value'
  | before {cursor cursor' : List Json} (hcursor : cursors.before = some cursor)
      (hcursor' : cursors'.before = some cursor') {value value' : Json}
      (hvalues : (value, value') ∈ cursor.tail.zip cursor'.tail) :
      Counterpart cursors cursors' value value'

/-- The requests are the same but for the values in their cursors. -/
structure ConnectionArgs.Revalued (args args' : ConnectionArgs) (cursors cursors' : PageCursors) :
    Prop where
  first : args'.first = args.first
  last : args'.last = args.last
  offset : args'.offset = args.offset
  readable : args.cursors = .ok cursors
  readable' : args'.cursors = .ok cursors'
  after : Option.Rel Cursor.Revalued cursors.after cursors'.after
  before : Option.Rel Cursor.Revalued cursors.before cursors'.before

/-- The values of a cursor may be related by anything that relates them place by place. -/
theorem Cursor.Revalued.alike {R : Json → Json → Prop} {cursor cursor' : List Json}
    (h : Cursor.Revalued cursor cursor')
    (hvalues : ∀ value value', (value, value') ∈ cursor.tail.zip cursor'.tail → R value value') :
    Cursor.Alike (.values R) cursor cursor' := by
  refine ⟨h.tag, List.forall₂_iff_zip.mpr ⟨?_, fun hpair => .inr (hvalues _ _ hpair)⟩⟩
  rw [List.length_tail, List.length_tail, h.length]

/-- The conditions for cursors of one's own may stand for each other. -/
theorem Cursor.Revalued.conditions {R : Json → Json → Prop} {own : BuilderId} {n : Nat}
    {given given' : Option (List Json)} (h : Option.Rel Cursor.Revalued given given')
    (hvalues : ∀ cursor cursor', given = some cursor → given' = some cursor' →
      ∀ value value', (value, value') ∈ cursor.tail.zip cursor'.tail → R value value')
    (isAfter : Bool) :
    Option.Rel (fun cursor cursor' => Callback.Like (.mirror R own) n own
      (.cursorCondition cursor isAfter) (.cursorCondition cursor' isAfter)) given given' := by
  cases h with
  | none => exact .none
  | some h =>
      have hcursors : (Frame.mirror R own).cursors own _ _ :=
        ⟨rfl, h.alike (hvalues _ _ rfl rfl)⟩
      exact .some (.cursor hcursors isAfter)

namespace ConnectionArgs.Revalued

variable {args args' : ConnectionArgs} {cursors cursors' : PageCursors}
variable (h : args.Revalued args' cursors cursors')

include h

/-- The counts of a request do not depend on the values in its cursors. -/
theorem counts_eq : args'.counts = args.counts := by
  rw [counts, counts, h.first, h.last, h.offset]

/-- Cursors in the same place of the arguments are counterparts. -/
theorem cursors_like {own : BuilderId} {n : Nat} :
    cursors.Like (.mirror (cursors.Counterpart cursors') own) n own cursors' where
  after := Cursor.Revalued.conditions h.after
    (fun _ _ hcursor hcursor' _ _ hvalues => .after hcursor hcursor' hvalues) true
  before := Cursor.Revalued.conditions h.before
    (fun _ _ hcursor hcursor' _ _ hvalues => .before hcursor hcursor' hvalues) false

/-- A connection set up for two requests on one builder. -/
theorem mirrors_setUpConnection {lock : Locker} {own : BuilderId}
    (hlock : lock.Mirrored (cursors.Counterpart cursors') own) (setup : ConnectionSetup) :
    Mirrors (cursors.Counterpart cursors') own own (perform lock (.setUpConnection setup args))
      (perform lock (.setUpConnection setup args')) := by
  refine hlock.logic.answering (n := 0) (hlock.logic.setUpConnection setup h.counts_eq ?_)
  rw [h.readable, h.readable']
  exact .ok fun _ => h.cursors_like

end ConnectionArgs.Revalued

/-- What mirrors a fragment is a fragment. -/
theorem Answer.Alike.of_fragment {R : Json → Json → Prop} {f : Fragment}
    {outcome : Except Abort (Except Error Answer)}
    (h : PageQuery.Alike (.values R) (.ok (.ok (.fragment f))) outcome) :
    ∃ f', outcome = .ok (.ok (.fragment f')) ∧ PageQuery.Alike (.values R) f f' := by
  cases h with
  | ok houtcome =>
      cases houtcome with
      | ok hanswer =>
          cases hanswer with
          | fragment hf => exact ⟨_, rfl, hf⟩
          | same hsilent => cases hsilent

/-- The fragment that a step has given. -/
def Report.fragment? (r : Report) : Option Fragment :=
  match r.outcome with
  | .ok (.ok (.fragment f)) => some f
  | _ => none

/-- A report with a fragment is that of a step that was answered. -/
theorem Report.exists_fragment {r : Report} (h : r.fragment?.isSome = true) :
    ∃ f, r.outcome = .ok (.ok (.fragment f)) := by
  rw [Report.fragment?] at h
  split at h
  · exact ⟨_, ‹_›⟩
  · cases h

instance (comparator : Option Comparator) : Decidable (comparator = some (.kind .natural)) :=
  match comparator with
  | some (.kind .natural) => .isTrue rfl
  | some (.kind .row) | some (.kind .relay) | some (.custom _) | none => .isFalse (by rintro ⟨⟩)

namespace World

variable {w : World} {own : BuilderId} {args args' : ConnectionArgs}
variable {cursors cursors' : PageCursors} {path : List String}

/-- The step that sets up a connection on the builder that the names lead to. -/
def setUpStep (path : List String) (setup : ConnectionSetup) (args : ConnectionArgs) : Step :=
  .mk path (.setUpConnection setup args) false none

/-- The set-up of a connection goes the same way for both arguments. -/
theorem parallel_setUp (hleads : w.Leads own root path) (hlive : own < w.nextBuilder)
    (setup : ConnectionSetup) (hargs : args.Revalued args' cursors cursors') :
    Parallel (cursors.Counterpart cursors') own (w.step (setUpStep path setup args))
      (w.step (setUpStep path setup args')) := by
  let lock := lockWith (w.budget (setUpStep path setup args))
  have hlock : lock.Mirrored (cursors.Counterpart cursors') own := mirrored_lockWith _
  have hmirrors := hargs.mirrors_setUpConnection hlock setup
  have hsaving : Mirrors (cursors.Counterpart cursors') own root _ _ :=
    hmirrors.within.bind fun _ _ hanswer => hlock.logic.saving (n := 0) none hanswer
  exact .of_mirrors hsaving (.refl hlive) (exec_performStep_of_leads hleads.quiet)
    (exec_performStep_of_leads hleads.quiet)

/-- A step behind the set up connections, whatever it is and whatever comes before it. -/
theorem parallel_behind_setUp (hleads : w.Leads own root path) (hlive : own < w.nextBuilder)
    (setup : ConnectionSetup) (hargs : args.Revalued args' cursors cursors') (others : List Step)
    (s : Step) :
    Parallel (cursors.Counterpart cursors') own
      ((w.after (setUpStep path setup args :: others)).step s)
      ((w.after (setUpStep path setup args' :: others)).step s) := by
  have hlater := later_step own (w.after (setUpStep path setup args :: others)) s
  rcases parallel_setUp hleads hlive setup hargs with hpositional | ⟨-, hworld⟩
  · exact .inl (hlater.positional ((later_after own _ others).positional hpositional))
  · rcases hworld.after others with hpositional | hworld
    · exact .inl (hlater.positional hpositional)
    · exact hworld.step s

/-- A connection is set up on the builder that the names lead to and is built after some other
steps. -/
def connect (w : World) (path : List String) (setup : ConnectionSetup) (others : List Step)
    (options : BuildOptions) (args : ConnectionArgs) : Report × World :=
  (w.after (setUpStep path setup args :: others)).step
    (.mk path (.buildConnection options) false none)

/-- The values in cursors are never spelled out: two requests that differ in these values only
have statements with one text, and a parameter that differs is the value of the request's own
cursor.  The order is unique, so cursors hold its values.  The comparator of the connection is in
force, unless a callback of the caller has put another one in its place; that of positions reads
the cursors in a different way. -/
theorem connection_text_of_revalued (hreached : w.Reached) (hleads : w.Leads own root path)
    (setup : ConnectionSetup) (others : List Step) (options : BuildOptions)
    (hargs : args.Revalued args' cursors cursors') {f : Fragment}
    (hbuilt : (w.connect path setup others options args).1.outcome = .ok (.ok (.fragment f)))
    (hunique : ((w.connect path setup others options args).2.builder own).orderIsUnique = true)
    (hkeyed : ((w.connect path setup others options args).2.builder own).resolved.comparator ≠
      some (.kind .natural)) :
    ∃ f', (w.connect path setup others options args').1.outcome = .ok (.ok (.fragment f')) ∧
      Likeness.Outcomes (fun c c' => c'.text = c.text ∧
          List.Forall₂ (Param.Alike (cursors.Counterpart cursors')) c.params c'.params)
        (compile f) (compile f') := by
  obtain ⟨hlive, hclosed⟩ := hreached.sound
  have hparallel : Parallel (cursors.Counterpart cursors') own
      (w.connect path setup others options args) (w.connect path setup others options args') :=
    parallel_behind_setUp hleads (hleads.live hclosed hlive) setup hargs others _
  rcases hparallel with ⟨-, ⟨-, hnot⟩ | ⟨-, hnatural⟩⟩ | ⟨houtcome, -⟩
  · exact absurd (hunique.symm.trans hnot) (by decide)
  · exact absurd hnatural hkeyed
  · rw [hbuilt] at houtcome
    obtain ⟨f', houtcome', hf⟩ := Answer.Alike.of_fragment houtcome
    refine ⟨f', houtcome', (compile_alike hf).imp fun c c' hcompiled => ?_⟩
    obtain ⟨htext, hparams⟩ := hcompiled
    exact ⟨Eq.symm htext, hparams⟩

/-- A run with a unique order whose terms have two directions. -/
def mixedRun : World :=
  let sourced := ((start {} 0).step (.mk [] (.source (.text "items") none) false none)).2
  let descending := (sourced.step (.mk [] (.orderBy (.text "made") false none) false none)).2
  let ordered := (descending.step (.mk [] (.orderBy (.text "id") true none) false none)).2
  (ordered.step (.mk [] .setOrderUnique false none)).2

/-- The request for the rows behind `["t",5,1]`. -/
def plainArgs : ConnectionArgs := { first := some 2, after := some "WyJ0Iiw1LDFd" }

/-- The request for the rows behind `["t","1) or true",{}]`. -/
def hostileArgs : ConnectionArgs :=
  { first := some 2, after := some "WyJ0IiwiMSkgb3IgdHJ1ZSIse31d" }

/-- The hostile arguments differ from the plain ones in the values of a cursor only. -/
theorem revalued_hostileArgs : plainArgs.Revalued hostileArgs
    ⟨some [.string "t", .integer 5, .integer 1], none⟩
    ⟨some [.string "t", .string "1) or true", .object []], none⟩ where
  first := rfl
  last := rfl
  offset := rfl
  readable := by cbv
  readable' := by cbv
  after := .some ⟨rfl, rfl⟩
  before := .none

/-- A value that would be a text of its own is bound like any other. -/
theorem connection_text_mixedRun :
    ∃ f f', (mixedRun.connect [] ⟨[], "t"⟩ [] {} plainArgs).1.outcome =
        .ok (.ok (.fragment f)) ∧
      (mixedRun.connect [] ⟨[], "t"⟩ [] {} hostileArgs).1.outcome = .ok (.ok (.fragment f')) ∧
      Likeness.Outcomes (fun c c' => c'.text = c.text ∧
          List.Forall₂ (Param.Alike (PageCursors.Counterpart
            ⟨some [.string "t", .integer 5, .integer 1], none⟩
            ⟨some [.string "t", .string "1) or true", .object []], none⟩)) c.params c'.params)
        (compile f) (compile f') := by
  have hreached : mixedRun.Reached := by
    refine .next _ (.next _ (.next _ (.next _ (.initial {} 0) ?_) ?_) ?_) ?_ <;> decide +kernel
  have hleads : mixedRun.Leads root root [] := rfl
  obtain ⟨f, hbuilt⟩ : ∃ f, (mixedRun.connect [] ⟨[], "t"⟩ [] {} plainArgs).1.outcome =
      .ok (.ok (.fragment f)) := Report.exists_fragment (by decide +kernel)
  obtain ⟨f', hbuilt', hcompiled⟩ := connection_text_of_revalued hreached hleads ⟨[], "t"⟩ [] {}
    revalued_hostileArgs hbuilt (by decide +kernel) (by decide +kernel)
  exact ⟨f, f', hbuilt, hbuilt', hcompiled⟩

end World

end PageQuery
