import Mathlib.Data.List.DropRight
import PageQuery.Proofs.Run.Session

/-!
# The rows of a page

A statement says which rows it selects by a limit, by rows to skip, and by whether its
order is turned around.  What was asked for is said without any of these: the first rows
of what is left behind the offset, or the last rows of a window, or the last rows ahead
of the offset.  Both say the same, also for windows with fewer rows than their size.
-/

namespace PageQuery

open Sql

variable {ρ : Type}

/-- The number of rows that are left out, given how many rows pass a filter. -/
def Skip.amount (count : RowSource → Filter → Nat) : Skip → Nat
  | .nothing => 0
  | .rows n => n
  | .windowHead source filter window last => min (count source filter) window - last

/-- The rows of limit `limit` and offset `offset`. -/
def slice (limit : Option Nat) (offset : Nat) (rows : List ρ) : List ρ :=
  match limit with
  | none => rows.drop offset
  | some n => (rows.drop offset).take n

/-- The rows that a statement selects from those that pass its where clause, in the order
that was asked for. -/
def Statement.page (count : RowSource → Filter → Nat) (s : Statement) (rows : List ρ) :
    List ρ :=
  if s.flip then (slice s.limit (s.skip.amount count) rows.reverse).reverse
  else slice s.limit (s.skip.amount count) rows

/-- The statement of a build, unless the build gives the object of a row only. -/
def Built.statement? : Built → Option Statement
  | .object _ => none
  | .rows s => some s
  | .aggregate s _ => some s

/-- The source of a statement's rows. -/
def Statement.readsFrom (s : Statement) (source : RowSource) : Prop :=
  s.source = some (source.table, source.rowAlias) ∧ s.joins = source.joins

/-- The page that is asked for by a limit, an offset, `first` and `last`. -/
def referencePage (limit : Option Nat) (offset : Nat) (first last : Option Nat)
    (rows : List ρ) : List ρ :=
  match last, (limit.toList ++ first.toList).min? with
  | none, none => rows.drop offset
  | none, some size => (rows.drop offset).take size
  | some last, some size => (rows.take size).rtake last
  | some last, none => (rows.rdrop offset).rtake last

/-- `last` is combined with both an offset and another limit. -/
def Conflicting (limit : Option Nat) (offset : Nat) (first last : Option Nat) : Prop :=
  last.isSome ∧ 0 < offset ∧ (limit.isSome ∨ first.isSome)

namespace Plan

/-- The number of rows that a plan skips, out of `total` rows. -/
def skipped (plan : Plan) (total : Nat) : Nat :=
  match plan.window, plan.limit with
  | some window, some last => min total window - last
  | _, _ => plan.offset

theorem tighter_eq_min (limit first : Option Nat) :
    tighter limit first = (limit.toList ++ first.toList).min? := by
  cases limit with
  | none => cases first <;> rfl
  | some limit => cases first <;> rfl

theorem tighter_isSome (limit first : Option Nat) :
    (tighter limit first).isSome ↔ limit.isSome ∨ first.isSome := by
  cases limit with
  | none => cases first <;> simp [tighter]
  | some limit => cases first <;> simp [tighter]

/-- There is no plan exactly for what is in conflict, and there is no other error. -/
theorem make_eq_error_iff (limit : Option Nat) (offset : Nat) (first last : Option Nat) :
    make limit offset first last = .error (.ambiguousPagination .lastInsideOffsetWindow) ↔
      Conflicting limit offset first last := by
  rw [Conflicting, ← tighter_isSome]
  unfold make
  cases last with
  | none => simp
  | some last =>
      cases tighter limit first with
      | none => simp
      | some size =>
          simp only [Option.isSome_some, true_and, and_true]
          split
          · simp [*]
          · split <;> simp [*]

/-- There is one reason to refuse a plan. -/
theorem error_of_make {limit : Option Nat} {offset : Nat} {first last : Option Nat} {e : Error}
    (hmake : make limit offset first last = .error e) :
    e = .ambiguousPagination .lastInsideOffsetWindow := by
  unfold make at hmake
  split at hmake
  · cases hmake
  · cases hmake
  · split at hmake
    · cases hmake
      rfl
    · split at hmake <;> cases hmake

theorem make_ok_of_not_conflicting {limit : Option Nat} {offset : Nat}
    {first last : Option Nat} (hcalm : ¬Conflicting limit offset first last) :
    ∃ plan, make limit offset first last = .ok plan := by
  cases hmake : make limit offset first last with
  | ok plan => exact ⟨plan, rfl⟩
  | error e =>
      refine absurd ((make_eq_error_iff limit offset first last).mp ?_) hcalm
      rw [hmake, error_of_make hmake]

/-- The last rows of a window, found from the number of all rows. -/
theorem take_drop_eq_rtake {last size : Nat} (hlast : last < size) (rows : List ρ) :
    (rows.drop (min rows.length size - last)).take last = (rows.take size).rtake last := by
  rw [List.rtake, List.length_take, Nat.min_comm size, List.drop_take]
  rcases Nat.le_total size rows.length with hfull | hshort
  · rw [Nat.min_eq_right hfull, Nat.sub_sub_self (Nat.le_of_lt hlast)]
  · rw [Nat.min_eq_left hshort]
    have hlength : (rows.drop (rows.length - last)).length ≤ last := by
      rw [List.length_drop]
      omega
    rw [List.take_of_length_le hlength, List.take_of_length_le (by omega)]

/-- What a plan selects is what was asked for. -/
theorem slice_eq_referencePage {limit : Option Nat} {offset : Nat} {first last : Option Nat}
    {plan : Plan} (hmake : make limit offset first last = .ok plan) (rows : List ρ) :
    (if plan.flip then (slice plan.limit (plan.skipped rows.length) rows.reverse).reverse
      else slice plan.limit (plan.skipped rows.length) rows) =
      referencePage limit offset first last rows := by
  unfold make at hmake
  unfold referencePage
  rw [← tighter_eq_min]
  cases last with
  | none =>
      cases hmake
      cases tighter limit first <;> rfl
  | some last =>
      cases htighter : tighter limit first with
      | none =>
          rw [htighter] at hmake
          cases hmake
          simp only [slice, skipped, if_true]
          rw [List.rtake_eq_reverse_take_reverse, List.rdrop_eq_reverse_drop_reverse,
            List.reverse_reverse]
      | some size =>
          rw [htighter] at hmake
          simp only at hmake
          split at hmake
          · cases hmake
          · have hoffset : offset = 0 := by omega
            split at hmake
            · cases hmake
              exact take_drop_eq_rtake ‹last < size› rows
            · cases hmake
              have hlength : (rows.take size).length ≤ last := by
                rw [List.length_take]
                omega
              simp only [slice, skipped, hoffset, List.drop_zero]
              rw [List.rtake, Nat.sub_eq_zero_of_le hlength, List.drop_zero]
              rfl

end Plan

namespace Builder

variable {b : Builder} {options : BuildOptions}

/-- The page that a builder is asked for. -/
def requestedPage (b : Builder) (rows : List ρ) : List ρ :=
  referencePage b.resolved.limit b.resolved.offset b.first b.last rows

/-- What a builder is asked for is in conflict. -/
def Conflicting (b : Builder) : Prop :=
  PageQuery.Conflicting b.resolved.limit b.resolved.offset b.first b.last

theorem source_of_rowSource {source : RowSource} (hsource : b.rowSource = .ok source) :
    b.source = some (source.table, source.rowAlias) ∧ b.joins = source.joins := by
  rw [rowSource, tableExpression, tableAlias] at hsource
  cases hb : b.source with
  | none =>
      rw [hb] at hsource
      cases hsource
  | some pair =>
      rw [hb] at hsource
      cases hsource
      exact ⟨rfl, rfl⟩

/-- The rows that the statement of a plan skips. -/
theorem amount_of_skipOf {plan : Plan} {skip : Skip} {filter : Filter}
    (hskip : b.skipOf plan options = .ok skip)
    (hfilter : b.filterOf true true options = .ok filter)
    {count : RowSource → Filter → Nat} {total : Nat}
    (hcount : ∀ source : RowSource, b.source = some (source.table, source.rowAlias) →
      b.joins = source.joins → count source filter = total) :
    skip.amount count = plan.skipped total := by
  obtain ⟨limit, offset, flip, window⟩ := plan
  have hoffset : Skip.amount count (if 0 < offset then .rows offset else .nothing) = offset := by
    split
    · rfl
    · exact (Nat.eq_zero_of_not_pos ‹_›).symm
  cases window with
  | none =>
      cases hskip
      exact hoffset
  | some window =>
      cases limit with
      | none =>
          cases hskip
          exact hoffset
      | some last =>
          obtain ⟨source, hsource, hrest⟩ := ok_of_bind hskip
          obtain ⟨filter', hfilter', hrest⟩ := ok_of_bind hrest
          cases hrest
          rw [hfilter] at hfilter'
          cases hfilter'
          obtain ⟨htable, hjoins⟩ := source_of_rowSource hsource
          rw [Skip.amount, hcount source htable hjoins]
          rfl

/-- A builder's statement selects the page that the builder is asked for. -/
theorem page_of_pageStatement {s : Statement} (hpage : b.pageStatement options = .ok s)
    {count : RowSource → Filter → Nat} {rows : List ρ}
    (hcount : ∀ source, s.readsFrom source → count source s.filter = rows.length) :
    s.page count rows = b.requestedPage rows := by
  obtain ⟨plan, hplan, hstatement⟩ := ok_of_bind hpage
  obtain ⟨projection, _, hrest⟩ := ok_of_bind hstatement
  obtain ⟨filter, hfilter, hrest⟩ := ok_of_bind hrest
  obtain ⟨skip, hskip, hrest⟩ := ok_of_bind hrest
  cases hrest
  have hamount := amount_of_skipOf hskip hfilter
    fun source htable hjoins => hcount source ⟨htable, hjoins⟩
  rw [Statement.page, hamount]
  exact Plan.slice_eq_referencePage hplan rows

section

variable {table : Fragment} {rowAlias : Node} (hsource : b.source = some (table, rowAlias))

include hsource

theorem tableAlias_ok : b.tableAlias = .ok rowAlias := by
  rw [tableAlias, hsource]

theorem rowSource_ok : b.rowSource = .ok ⟨table, rowAlias, b.joins⟩ := by
  rw [rowSource, tableExpression, tableAlias, hsource]
  rfl

theorem filterOf_ok (lower upper : Bool) (options : BuildOptions) :
    ∃ filter, b.filterOf lower upper options = .ok filter := by
  rw [filterOf, guards, tableAlias_ok hsource]
  cases options.nullCase <;> cases options.notDistinctCase <;> exact ⟨_, rfl⟩

theorem rowObject_ok (options : BuildOptions) :
    ∃ object, b.rowObject options = .ok object := by
  have hobject : ∃ object, b.objectOfRow = .ok object := by
    rw [objectOfRow, tableAlias_ok hsource]
    rcases b.resolved.selects with _ | ⟨field, _ | ⟨other, fields⟩⟩
    · exact ⟨_, rfl⟩
    · by_cases hcursor : field.name = cursorAlias
      · exact ⟨.withCursor rowAlias field.expr, by simp only [if_pos hcursor]; rfl⟩
      · exact ⟨.ofFields b.options.supportsJsonb [field], by simp only [if_neg hcursor]⟩
    · exact ⟨_, rfl⟩
  obtain ⟨object, hobject⟩ := hobject
  rw [rowObject, hobject, tableAlias_ok hsource]
  cases options.nullCase <;> cases options.notDistinctCase <;> exact ⟨_, rfl⟩

theorem projection_ok (plan : Plan) (options : BuildOptions) :
    ∃ projection, b.projection plan options = .ok projection := by
  obtain ⟨object, hobject⟩ := rowObject_ok hsource options
  rw [projection, hobject, tableAlias_ok hsource]
  split
  · exact ⟨_, rfl⟩
  · split <;> exact ⟨_, rfl⟩

theorem skipOf_ok (plan : Plan) (options : BuildOptions) :
    ∃ skip, b.skipOf plan options = .ok skip := by
  obtain ⟨filter, hfilter⟩ := filterOf_ok hsource true true options
  obtain ⟨limit, offset, flip, window⟩ := plan
  rw [skipOf, rowSource_ok hsource, hfilter]
  cases window with
  | none => exact ⟨_, rfl⟩
  | some window => cases limit <;> exact ⟨_, rfl⟩

/-- With a row source, every plan has a statement. -/
theorem statementOf_ok (plan : Plan) (options : BuildOptions) :
    ∃ s, b.statementOf plan options = .ok s := by
  obtain ⟨projection, hprojection⟩ := projection_ok hsource plan options
  obtain ⟨filter, hfilter⟩ := filterOf_ok hsource true true options
  obtain ⟨skip, hskip⟩ := skipOf_ok hsource plan options
  rw [statementOf, hprojection, hfilter, hskip]
  exact ⟨_, rfl⟩

end

end Builder

namespace Action

variable {lock : Locker} {id : BuilderId} {w w₁ : World} {options : BuildOptions}

/-- What is in conflict is refused, and nothing else is for the plan's sake. -/
theorem planOf_of_conflicting {b : Builder} (hconflict : b.Conflicting) :
    b.planOf = .error (.ambiguousPagination .lastInsideOffsetWindow) :=
  (Plan.make_eq_error_iff _ _ _ _).mpr hconflict

/-- Once everything is locked, the plan is refused exactly if the limits are in conflict;
otherwise a builder with a row source builds, and every statement that it builds selects
the page that is asked for, out of whatever rows pass the statement's where clause. -/
theorem build_selects_page {fuel : Nat} (hlive : id < w.nextBuilder) (hclosed : w.Closed)
    (hstatement : options.onlyJsonField = false)
    (hlocks : (lockEverything (lockWith fuel)).exec id w = (.ok (), w₁)) :
    ((w₁.builder id).Conflicting →
      (plan (lockWith fuel)).exec id w =
          (.error (.refused (.ambiguousPagination .lastInsideOffsetWindow)), w₁) ∧
        (build (lockWith fuel) options).exec id w =
          (.error (.refused (.ambiguousPagination .lastInsideOffsetWindow)), w₁)) ∧
    (¬(w₁.builder id).Conflicting →
      (∃ p, (plan (lockWith fuel)).exec id w = (.ok p, w₁)) ∧
      ((w₁.builder id).source.isSome →
        ∃ built w₂, (build (lockWith fuel) options).exec id w = (.ok built, w₂)) ∧
      ∀ built w₂, (build (lockWith fuel) options).exec id w = (.ok built, w₂) →
        ∃ s, built.statement? = some s ∧
          ∀ (ρ : Type) (rows : List ρ) (count : RowSource → Filter → Nat),
            (∀ source, s.readsFrom source → count source s.filter = rows.length) →
              s.page count rows = (w₁.builder id).requestedPage rows) := by
  have hlawful := lawful_lockWith fuel
  have hlocked := (kept_lockEverything hlawful hlive hclosed hlocks).holds
  have hplan : (plan (lockWith fuel)).exec id w = outcome (w₁.builder id).planOf w₁ := by
    rw [plan, exec_bind_ok hlocks]
    exact exec_pagePlan hlawful.idle hlocked
  rw [hplan, exec_build_locked hlawful.idle hlocks hlocked,
    exec_build hlawful.idle hlocked hstatement]
  constructor
  · intro hconflict
    have hrefused := planOf_of_conflicting hconflict
    rw [Builder.pageStatement, hrefused]
    exact ⟨rfl, rfl⟩
  · intro hcalm
    obtain ⟨p, hp⟩ := Plan.make_ok_of_not_conflicting hcalm
    change (w₁.builder id).planOf = .ok p at hp
    refine ⟨⟨p, by rw [hp]; rfl⟩, ?_, ?_⟩
    · intro hsource
      obtain ⟨⟨table, rowAlias⟩, hsource⟩ := Option.isSome_iff_exists.mp hsource
      obtain ⟨s, hs⟩ := Builder.statementOf_ok hsource p options
      have hpage : (w₁.builder id).pageStatement options = .ok s := by
        rw [Builder.pageStatement, hp]
        exact hs
      rw [hpage]
      cases options.asJsonAggregate
      · exact ⟨_, _, rfl⟩
      · exact ⟨_, _, rfl⟩
    · intro built w₂ hbuilt
      cases hpage : (w₁.builder id).pageStatement options with
      | error e =>
          rw [hpage] at hbuilt
          cases hbuilt
      | ok s =>
          rw [hpage] at hbuilt
          refine ⟨s, ?_, fun ρ rows count hcount => Builder.page_of_pageStatement hpage hcount⟩
          cases haggregate : options.asJsonAggregate with
          | true =>
              simp only [haggregate, if_true] at hbuilt
              cases hbuilt
              rfl
          | false =>
              simp only [haggregate] at hbuilt
              cases hbuilt
              rfl

end Action

namespace World

open PageQuery.Action

/-- A run that asks for the last two of the first five items. -/
def windowRun : World :=
  let sourced := ((start {} 0).step (.mk [] (.source (.text "items") none) false none)).2
  ((sourced.step (.mk [] (.first 5) false none)).2.step (.mk [] (.last 2) false none)).2

def windowLocked : World := ((lockEverything (lockWith 20)).exec root windowRun).2

theorem reached_windowRun : windowRun.Reached := by
  apply Reached.next
  · apply Reached.next
    · apply Reached.next
      · exact Reached.initial {} 0
      · decide +kernel
    · decide +kernel
  · decide +kernel

theorem requestedPage_windowLocked (rows : List ρ) :
    (windowLocked.builder root).requestedPage rows = (rows.take 5).rtake 2 := by
  have hlimit : (windowLocked.builder root).resolved.limit = none := by decide +kernel
  have hfirst : (windowLocked.builder root).first = some 5 := by decide +kernel
  have hlast : (windowLocked.builder root).last = some 2 := by decide +kernel
  rw [Builder.requestedPage, hlimit, hfirst, hlast]
  rfl

theorem build_selects_page_windowRun :
    (∃ built w₂, (build (lockWith 20) {}).exec root windowRun = (.ok built, w₂)) ∧
      ∀ built w₂, (build (lockWith 20) {}).exec root windowRun = (.ok built, w₂) →
        ∃ s, built.statement? = some s ∧
          ∀ (rows : List Nat) (count : RowSource → Filter → Nat),
            (∀ source, s.readsFrom source → count source s.filter = rows.length) →
              s.page count rows = (rows.take 5).rtake 2 := by
  obtain ⟨hlive, hclosed⟩ := reached_windowRun.sound
  have hcalm : ¬(windowLocked.builder root).Conflicting := by
    intro hconflict
    exact absurd hconflict.2.1 (by decide +kernel)
  have hlocks : (lockEverything (lockWith 20)).exec root windowRun = (.ok (), windowLocked) :=
    Prod.ext rfl rfl
  have hstatement : ({} : BuildOptions).onlyJsonField = false := rfl
  have hpage := (build_selects_page hlive hclosed hstatement hlocks).2 hcalm
  refine ⟨hpage.2.1 (by decide +kernel), fun built w₂ hbuilt => ?_⟩
  obtain ⟨s, hs, hrows⟩ := hpage.2.2 built w₂ hbuilt
  refine ⟨s, hs, fun rows count hcount => ?_⟩
  rw [hrows Nat rows count hcount, requestedPage_windowLocked]

end World

end PageQuery
