import Mathlib
import PageQuery.Proofs.Draft.Confluence

/-!
# Cursors that are accepted

A cursor goes from the builder that selects it to another one of the same order.  One builder
decides which kind of cursor to give and the other one which kind to expect, each from its
own look at the order.  Main statement: a cursor that fits the order is accepted, unless an
order without terms has been declared unique.  Then the cursors are positions, but positions
are refused because the order is called unique, and so is everything else.
-/

namespace PageQuery

open Sql PageQuery.Action

/-- The cursors that an expression gives: a tag and as many values as it has parts, or a
position. -/
inductive CursorExpr.Emits : CursorExpr → List Json → Prop
  | keyed {tag : String} {exprs : List Fragment} {values : List Json}
      (hlength : values.length = exprs.length) : Emits (.keyed tag exprs) (.string tag :: values)
  | fromStart {skip : Skip} (position : Nat) :
      Emits (.fromStart skip) [.string naturalTag, .integer position]
  | fromEnd {source : RowSource} {filter : Filter} {offset : Nat} (position : Nat) :
      Emits (.fromEnd source filter offset) [.string naturalTag, .integer position]

/-- Two builders are told the same of their orders: as many terms, the same on whether the
order tells all rows apart, and the same tag for cursors. -/
structure Builder.SameOrder (b b' : Builder) : Prop where
  terms : b'.pending.orderTerms.length = b.pending.orderTerms.length
  unique : b'.orderIsUnique = b.orderIsUnique
  tag : b'.cursorTag = b.cursorTag

namespace Cursor.Bound

theorem spelledOut_ne_never (isAfter : Bool) (terms : List OrderTerm) (values : List Json) :
    spelledOut isAfter terms values ≠ .never := by
  rcases terms with _ | ⟨term, _ | ⟨other, terms⟩⟩ <;>
    rcases values with _ | ⟨value, _ | ⟨next, values⟩⟩ <;> simp [spelledOut]

/-- An order has some rows on each side of a value. -/
theorem ofOrder_ne_never (isAfter : Bool) (terms : List OrderTerm) (values : List Json) :
    ofOrder isAfter terms values ≠ .never := by
  cases terms with
  | nil => simp [ofOrder]
  | cons first rest =>
      rw [ofOrder]
      split
      · rcases rest with _ | ⟨other, rest⟩ <;>
          rcases values with _ | ⟨value, _ | ⟨next, values⟩⟩ <;> simp [uniform]
      · exact spelledOut_ne_never _ _ _

end Cursor.Bound

namespace Draft

variable {d d' : Draft} {X : Progress} {id : BuilderId} {saved : List (String × Fragment)}

/-- Cursors are positions, but the order is called unique: there are no terms at all. -/
theorem unordered_iff : d.isKeyed = false ∧ d.isUnique = true ↔ d.unique = true ∧ d.terms = [] := by
  rw [isKeyed, isUnique, order]
  cases d.unique <;> cases d.primaryKey <;> simp [keyTerms]

/-- An order that is called unique and has no terms refuses all cursors. -/
theorem gives_refusal (hsound : d.Sound X) (hbounds : (X .bounds).isLocked = false) (fuel : Nat)
    (hkeyed : d.isKeyed = false) (hunique : d.isUnique = true) (cursor : List Json)
    (isAfter : Bool) :
    Gives id saved (d.builder X) (compareRelay (lockWith (fuel + 3)) cursor isAfter)
      (.error (.validation .orderNotUnique)) (d.builder X.ordered) := by
  have hconsulted : (d.builder X.ordered).Consulted d := hsound.ordered.consulted hbounds rfl
  have hempty : d.order.isEmpty = true := by simpa [isKeyed, hunique] using hkeyed
  have hrow : Gives id saved (d.builder X.ordered)
      (compareRow (lockWith (fuel + 3)) cursor isAfter) (.error (.validation .orderNotUnique))
      (d.builder X.ordered) := by
    apply Gives.behind _ hconsulted.turns_terms
    rw [if_pos hempty]
    exact (Gives.refuse _).error_bind
  obtain ⟨rest, hstarts⟩ :=
    Builder.Consulted.compareRelay_starts (lockWith (fuel + 3)) cursor isAfter
  apply Gives.ahead (idle_lockWith _) hstarts (turns_order hsound fuel) hconsulted.order
  rw [compareRelay]
  split
  · apply Gives.behind _ hconsulted.turns_unique
    rw [if_pos hunique]
    exact hrow
  · exact hrow

/-- Where cursors are not positions, positions are not cursors. -/
theorem position_emits {e : CursorExpr} {cursor : List Json} (hexpr : d.position = .ok e)
    (hemits : e.Emits cursor) :
    ∃ position : Nat, cursor = [.string naturalTag, .integer position] := by
  obtain ⟨plan, _, hrest⟩ := ok_of_bind hexpr
  cases hflip : plan.flip <;> rw [hflip] at hrest <;> cases hrest <;> cases hemits <;>
    exact ⟨_, rfl⟩

/-- A cursor of the other draft does something in this one, unless it is refused. -/
theorem effect?_emitted {e : CursorExpr} {cursor : List Json} (hexpr : d.cursorExpr = .ok e)
    (hemits : e.Emits cursor) (hkeyed : d'.isKeyed = d.isKeyed) (htag : d'.tag = d.tag)
    (hlength : d'.order.length = d.order.length) (hlimit : d'.limit = none)
    (hordered : d'.isKeyed = true ∨ d'.isUnique = false) (isAfter : Bool) :
    ∃ effect, d'.effect? isAfter cursor = some effect ∧ effect ≠ .bounds .never := by
  cases h : d.isKeyed with
  | true =>
      rw [h] at hkeyed
      have hunique : d'.isUnique = true := by simp_all [isKeyed]
      rw [cursorExpr, if_pos h] at hexpr
      cases hexpr
      cases hemits with
      | @keyed _ _ values hvalues =>
          rw [List.length_map] at hvalues
          have hbound : Cursor.keyedBound d'.tag d'.order (.string d.tag :: values) isAfter =
              .ok (Cursor.Bound.ofOrder isAfter d'.order values) := by
            simp [Cursor.keyedBound, Cursor.tag?, htag, hvalues, hlength]
          refine ⟨.bounds (Cursor.Bound.ofOrder isAfter d'.order values), ?_, ?_⟩
          · simp [effect?, hunique, hkeyed, hbound]
          · simpa using Cursor.Bound.ofOrder_ne_never _ _ _
  | false =>
      have hunique : d'.isUnique = false :=
        hordered.resolve_left (by simp [hkeyed, h])
      rw [cursorExpr, if_neg (by simp [h])] at hexpr
      obtain ⟨position, rfl⟩ := position_emits hexpr hemits
      have hposition : naturalPosition? [.string naturalTag, .integer position] =
          some position := by
        simp [naturalPosition?, Json.count?]
      cases isAfter with
      | false =>
          exact ⟨.cuts position, by simp [effect?, hunique, hlimit, Cursor.tag?, hposition],
            by simp⟩
      | true =>
          exact ⟨.skips position, by simp [effect?, hunique, Cursor.tag?, hposition], by simp⟩

/-- As many terms and the same on ties make orders of one kind and one length. -/
theorem same_kind (hterms : d'.terms.length = d.terms.length) (hunique : d'.unique = d.unique)
    (hkey : d'.primaryKey = d.primaryKey) :
    d'.isKeyed = d.isKeyed ∧ d'.order.length = d.order.length := by
  have hlength : d'.order.length = d.order.length := by
    rw [order, order, List.length_append, List.length_append, hterms, hunique, hkey]
    cases d.unique <;> simp [keyTerms]
  have hempty : d'.order.isEmpty = d.order.isEmpty := by
    cases horder : d.order <;> cases horder' : d'.order <;> simp_all
  refine ⟨?_, hlength⟩
  rw [isKeyed, isKeyed, isUnique, isUnique, hunique, hkey, hempty]

end Draft

/-- An effect that is not a bound that rejects all rows adds none. -/
theorem Builder.never_of_touched {b : Builder} {isAfter : Bool} {effect : Effect}
    (heffect : effect ≠ .bounds .never) (isLower : Bool)
    (hnever : .never ∈ (b.touched isAfter (some effect)).bounds isLower) :
    .never ∈ b.bounds isLower := by
  cases effect with
  | bounds condition =>
      have hcondition : condition ≠ .never := fun h => heffect (by rw [h])
      cases isAfter <;> cases isLower <;>
        simpa [touched, bounded, bounds, Ne.symm hcondition] using hnever
  | skips position => cases isLower <;> exact hnever
  | cuts position => cases isLower <;> exact hnever

namespace World

variable {w w' w₁ : World} {setup : ConnectionSetup} {args args' : ConnectionArgs}

/-- A cursor expression of a configured world is the one of its draft. -/
theorem Drafts.cursorExpr {d : Draft} (hdrafts : Drafts d w) {fuel : Nat} {e : CursorExpr}
    (hcursor : (cursorExpression (lockWith (fuel + 6))).exec root w = (.ok e, w₁)) :
    d.cursorExpr = .ok e := by
  obtain ⟨X, hb, hsound, hstill⟩ := hdrafts
  have hanswers : Answers root w.saved (d.builder X) (cursorExpression (lockWith (fuel + 6)))
      d.Good fun expr b => expr = d.cursorExpr ∧ d.Reaches X [] b :=
    Draft.answers_cursorExpression hsound hstill.calm fuel
  rcases hanswers with ⟨result, b, hgives, rfl, -⟩ | ⟨-, hrefuses⟩
  · obtain ⟨w₂, hrun, -⟩ := hgives w hb rfl
    rw [hcursor] at hrun
    cases hexpr : d.cursorExpr with
    | error e =>
        rw [hexpr] at hrun
        cases hrun
    | ok e' =>
        rw [hexpr] at hrun
        cases hrun
        rfl
  · obtain ⟨_, _, hrun⟩ := hrefuses w hb rfl
    rw [hcursor] at hrun
    cases hrun

section

variable {d : Draft} {s : Step} {cursor : List Json} {isAfter : Bool}

theorem exists_perform_compareRelay (hop : s.op = .compareWith .relay cursor isAfter) :
    ∃ fuel, Action.perform (lockWith (w.budget s)) s.op =
      compareRelay (lockWith (fuel + 8)) cursor isAfter >>= fun _ => pure .done := by
  obtain ⟨fuel, hfuel⟩ := w.exists_budget s
  refine ⟨fuel, ?_⟩
  rw [hop, hfuel]
  rfl

/-- No cursor can be used where the order is called unique and has no terms. -/
theorem step_refuses_cursor (hb : w.builder root = d.builder (.begun true true))
    (hkeyed : d.isKeyed = false) (hunique : d.isUnique = true) (hpath : s.path = [])
    (hop : s.op = .compareWith .relay cursor isAfter) :
    (w.step s).1.outcome = .ok (.error (.validation .orderNotUnique)) := by
  obtain ⟨fuel, hperform⟩ := exists_perform_compareRelay (w := w) hop
  have hgives : Gives root w.saved (w.builder root) (Action.perform (lockWith (w.budget s)) s.op)
      (.error (.validation .orderNotUnique)) (d.builder (Progress.begun true true).ordered) := by
    rw [hperform, hb]
    exact (Draft.gives_refusal d.sound_begun rfl (fuel + 5) hkeyed hunique cursor
      isAfter).error_bind
  exact (step_of_gives hpath hgives).1

/-- A cursor is accepted if it does something to the draft, and if this is not to reject all
rows, then no bound does so. -/
theorem step_accepts_cursor (hb : w.builder root = d.builder (.begun true true)) {effect : Effect}
    (heffect : d.effect? isAfter cursor = some effect) (hkeeps : effect ≠ .bounds .never)
    (hpath : s.path = []) (hop : s.op = .compareWith .relay cursor isAfter) :
    (w.step s).1.outcome = .ok (.ok .done) ∧
      ∀ isLower, .never ∈ ((w.step s).2.builder root).bounds isLower →
        .never ∈ (w.builder root).bounds isLower := by
  obtain ⟨fuel, hperform⟩ := exists_perform_compareRelay (w := w) hop
  have hends : Ends root w.saved (d.builder (Progress.begun true true))
      (compareRelay (lockWith (fuel + 8)) cursor isAfter) _ _ :=
    Draft.ends_compareRelay d.sound_begun rfl (fuel + 5) cursor isAfter
  rcases hends with ⟨_, b, hturns, -, hb₂⟩ | ⟨hrefused, -⟩
  · have hgives : Gives root w.saved (w.builder root)
        (Action.perform (lockWith (w.budget s)) s.op) (.ok .done) b := by
      rw [hperform, hb]
      exact hturns.bind (Turns.pure _)
    obtain ⟨houtcome, hbuilder, -⟩ := step_of_gives hpath hgives
    refine ⟨houtcome, fun isLower hnever => ?_⟩
    rw [hbuilder, hb₂, heffect] at hnever
    have hsame : ((d.builder (Progress.begun true true).ordered).tagged d).bounds isLower =
        (d.builder (.begun true true)).bounds isLower := by
      rw [Builder.tagged]
      split <;> rfl
    rw [hb, ← hsame]
    exact Builder.never_of_touched hkeeps isLower hnever
  · exact absurd (by rw [heffect]; rfl) hrefused

end

/-- Let two builders be set up with the same order, and one of them without an explicit
limit.  A cursor of the other one is accepted there and rejects no rows, unless the order has
been declared unique and no terms have been given for it.  Then it is refused, because the
order is said not to be unique. -/
theorem Configured.cursor_accepted (hconfigured : Configured true (some (setup, args)) w)
    (hconfigured' : Configured true (some (setup, args')) w')
    (hsame : (w.builder root).SameOrder (w'.builder root))
    (hlimit : (w'.builder root).pending.limit = none) {fuel : Nat} {e : CursorExpr}
    (hcursor : (cursorExpression (lockWith (fuel + 6))).exec root w = (.ok e, w₁))
    {cursor : List Json} (hemits : e.Emits cursor) (isAfter : Bool) {s : Step}
    (hpath : s.path = []) (hop : s.op = .compareWith .relay cursor isAfter) :
    ((w'.builder root).orderIsUnique = true ∧ (w'.builder root).pending.orderTerms = [] →
      (w'.step s).1.outcome = .ok (.error (.validation .orderNotUnique))) ∧
    (¬((w'.builder root).orderIsUnique = true ∧ (w'.builder root).pending.orderTerms = []) →
      (w'.step s).1.outcome = .ok (.ok .done) ∧
        ∀ isLower, .never ∈ ((w'.step s).2.builder root).bounds isLower →
          .never ∈ (w'.builder root).bounds isLower) := by
  obtain ⟨d, hb, hdrafts, hkey, -⟩ := hconfigured.drafts
  obtain ⟨d', hb', -, hkey', -⟩ := hconfigured'.drafts
  have hexpr : d.cursorExpr = .ok e := hdrafts.cursorExpr hcursor
  have hbegun : w'.builder root = d'.builder (.begun true true) :=
    hb'.trans Draft.builder_begun.symm
  have hunordered : (w'.builder root).orderIsUnique = true ∧
      (w'.builder root).pending.orderTerms = [] ↔ d'.isKeyed = false ∧ d'.isUnique = true := by
    rw [Draft.unordered_iff, hb']
    simp [Draft.told]
  rw [hunordered]
  constructor
  · rintro ⟨hkeyed, hunique⟩
    exact step_refuses_cursor hbegun hkeyed hunique hpath hop
  · intro hordered
    obtain ⟨hterms, hunique, htag⟩ := hsame
    rw [hb, hb'] at hterms hunique htag
    rw [hb'] at hlimit
    have hlength : d'.terms.length = d.terms.length := by simpa [Draft.told] using hterms
    obtain ⟨hkeyed, horder⟩ := Draft.same_kind hlength hunique (hkey'.trans hkey.symm)
    have hkind : d'.isKeyed = true ∨ d'.isUnique = false := by
      by_contra hneither
      exact hordered (by simpa using hneither)
    obtain ⟨effect, heffect, hkeeps⟩ := Draft.effect?_emitted hexpr hemits hkeyed htag horder
      (by simpa [Draft.told] using hlimit) hkind isAfter
    exact step_accepts_cursor hbegun heffect hkeeps hpath hop

/-- A run that orders by position and sets up a connection whose cursors have the tag of
positions. -/
def taggedRun : World :=
  let sourced := ((start {} 0).step (.mk [] (.source (.text "items") none) false none)).2
  let ordered := (sourced.step (.mk [] (.orderBy (.text "pos") true none) false none)).2
  (ordered.step (.mk [] (.setUpConnection ⟨["id"], naturalTag⟩ {}) false none)).2

/-- To use a cursor that holds a position and a key. -/
def keyedCursor : List Json := [.string naturalTag, .integer 10, .integer 1]

def keyedCursorStep : Step := .mk [] (.compareWith .relay keyedCursor true) false none

/-- A cursor with values is accepted although its tag is that of positions. -/
theorem cursor_accepted_taggedRun :
    (taggedRun.step keyedCursorStep).1.outcome = .ok (.ok .done) ∧
      ∀ isLower, .never ∈ ((taggedRun.step keyedCursorStep).2.builder root).bounds isLower →
        .never ∈ (taggedRun.builder root).bounds isLower := by
  have hconfigured : Configured true (some (⟨["id"], naturalTag⟩, {})) taggedRun := by
    apply Configured.connected _ rfl rfl (by decide +kernel)
    apply Configured.told _ rfl rfl (by decide +kernel)
    exact Configured.sourced (Configured.start {} 0) rfl rfl (by decide +kernel)
  have hsame : (taggedRun.builder root).SameOrder (taggedRun.builder root) := ⟨rfl, rfl, rfl⟩
  have hlimit : (taggedRun.builder root).pending.limit = none :=
    Option.isNone_iff_eq_none.mp (by decide +kernel)
  let exprs : List Fragment := [text "pos", (aliasNode ⟨0⟩).column "id"]
  obtain ⟨w₁, hcursor⟩ : ∃ w₁, (cursorExpression (lockWith 6)).exec root taggedRun =
      (.ok (.keyed naturalTag exprs), w₁) := ⟨_, Prod.ext rfl rfl⟩
  have hemits : (CursorExpr.keyed naturalTag exprs).Emits keyedCursor := .keyed rfl
  have hordered : ¬((taggedRun.builder root).orderIsUnique = true ∧
      (taggedRun.builder root).pending.orderTerms = []) := by
    rintro ⟨-, hnone⟩
    exact absurd (congrArg List.length hnone) (by decide +kernel)
  exact (hconfigured.cursor_accepted hconfigured hsame hlimit hcursor hemits true rfl rfl).2
    hordered

/-- A run that declares an order unique that has no terms. -/
def termlessRun : World :=
  let sourced := ((start {} 0).step (.mk [] (.source (.text "items") none) false none)).2
  let unique := (sourced.step (.mk [] .setOrderUnique false none)).2
  (unique.step (.mk [] (.setUpConnection ⟨["id"], primaryKeyTag⟩ {}) false none)).2

def firstPositionStep : Step :=
  .mk [] (.compareWith .relay [.string naturalTag, .integer 1] true) false none

/-- The cursors of an order without terms are positions, and no position is accepted. -/
theorem cursor_refused_termlessRun :
    Configured true (some (⟨["id"], primaryKeyTag⟩, {})) termlessRun ∧
      (∃ w₁, (cursorExpression (lockWith 6)).exec root termlessRun =
        (.ok (.fromStart .nothing), w₁)) ∧
      (CursorExpr.fromStart .nothing).Emits [.string naturalTag, .integer 1] ∧
      (termlessRun.step firstPositionStep).1.outcome =
        .ok (.error (.validation .orderNotUnique)) := by
  refine ⟨?_, ⟨_, Prod.ext rfl rfl⟩, .fromStart 1, ?_⟩
  · apply Configured.connected _ rfl rfl (by decide +kernel)
    apply Configured.told _ rfl rfl (by decide +kernel)
    exact Configured.sourced (Configured.start {} 0) rfl rfl (by decide +kernel)
  · cbv

end World

end PageQuery
