import PageQuery.Proofs.Database.Reading

/-!
# The flags of a page

A page lies somewhere among the rows that pass its where clause, and its two flags say
whether there are rows on either side of it.  Where the limits alone decide on a side, its
flag is exact: it is set if and only if the page ends ahead of the last row, or begins
behind the first one.  Where a bound decides, the flag is set if and only if some row
passes the wheres and fails the bounds of that side.
-/

namespace PageQuery

open Sql

variable {ρ V : Type}

/-- The place of a page: how many rows lie ahead of it, and how many lie ahead of its
end. -/
structure Span where
  start : Nat
  stop : Nat
  deriving DecidableEq, Repr

/-- The rows at a place. -/
def Span.of (span : Span) (rows : List ρ) : List ρ := (rows.take span.stop).drop span.start

/-- The place of the page that is asked for among `total` rows.  A page without rows lies
behind all rows if the offset is beyond them, and ahead of all rows if the offset, counted
from the end, is. -/
def requestedSpan (limit : Option Nat) (offset : Nat) (first last : Option Nat)
    (total : Nat) : Span :=
  match last, (limit.toList ++ first.toList).min? with
  | none, none => ⟨min offset total, total⟩
  | none, some size => ⟨min offset total, min (offset + size) total⟩
  | some last, some size => ⟨min size total - last, min size total⟩
  | some last, none => ⟨total - offset - last, total - offset⟩

theorem requestedSpan_ordered (limit : Option Nat) (offset : Nat) (first last : Option Nat)
    (total : Nat) :
    (requestedSpan limit offset first last total).start ≤
        (requestedSpan limit offset first last total).stop ∧
      (requestedSpan limit offset first last total).stop ≤ total := by
  unfold requestedSpan
  split <;> simp only <;> omega

theorem Span.of_eq_nil {span : Span} (hempty : span.stop ≤ span.start) (rows : List ρ) :
    span.of rows = [] := by
  rw [Span.of, List.drop_eq_nil_iff, List.length_take]
  exact Nat.le_trans (Nat.min_le_left _ _) hempty

/-- The page that is asked for is made of the rows at its place. -/
theorem referencePage_eq_of_span (limit : Option Nat) (offset : Nat) (first last : Option Nat)
    (rows : List ρ) :
    referencePage limit offset first last rows =
      (requestedSpan limit offset first last rows.length).of rows := by
  have htake (n : Nat) : rows.take (min n rows.length) = rows.take n :=
    List.take_eq_take_min.symm
  have hbehind (stop : Nat) (hoffset : rows.length ≤ offset) (hstop : stop ≤ rows.length) :
      (Span.mk (min offset rows.length) stop).of rows = [] :=
    Span.of_eq_nil (by simpa [Nat.min_eq_right hoffset] using hstop) rows
  unfold referencePage requestedSpan
  cases last with
  | none =>
      rcases Nat.le_total rows.length offset with hoffset | hoffset
      · rw [List.drop_eq_nil_of_le hoffset]
        cases (limit.toList ++ first.toList).min? with
        | none => exact (hbehind _ hoffset (Nat.le_refl _)).symm
        | some size => exact List.take_nil.trans (hbehind _ hoffset (Nat.min_le_right _ _)).symm
      · simp only [Span.of, Nat.min_eq_left hoffset]
        cases (limit.toList ++ first.toList).min? with
        | none => simp only [List.take_length]
        | some size => simp only [htake, List.take_drop]
  | some last =>
      cases (limit.toList ++ first.toList).min? with
      | none =>
          simp only [Span.of, List.rtake, List.rdrop, List.length_take,
            Nat.min_eq_left (Nat.sub_le _ _)]
      | some size => simp only [Span.of, List.rtake, List.length_take, htake]

/-- What a flag says, given how many rows pass the where clause, and whether a row passes
the wheres and fails the bounds of the flag's side. -/
def PageFlag.Holds (total : Nat) (outside : Prop) : PageFlag → Prop
  | .never => False
  | .beyond skip => skip < total
  | .outside => outside

namespace Plan

/-- The ways in which limits that are not in conflict make a plan. -/
inductive Made : (limit : Option Nat) → (offset : Nat) → (first last : Option Nat) → Plan → Prop
  | plain {limit : Option Nat} {offset : Nat} {first : Option Nat} :
      Made limit offset first none ⟨(limit.toList ++ first.toList).min?, offset, false, none⟩
  | fromEnd {offset n : Nat} : Made none offset none (some n) ⟨some n, offset, true, none⟩
  | trimmed {limit first : Option Nat} {n size : Nat}
      (hsize : (limit.toList ++ first.toList).min? = some size) (hshort : n < size) :
      Made limit 0 first (some n) ⟨some n, 0, false, some size⟩
  | whole {limit first : Option Nat} {n size : Nat}
      (hsize : (limit.toList ++ first.toList).min? = some size) (hlong : size ≤ n) :
      Made limit 0 first (some n) ⟨some size, 0, false, none⟩

variable {limit : Option Nat} {offset : Nat} {first last : Option Nat} {plan : Plan}

theorem made_of_make (hmake : make limit offset first last = .ok plan) :
    Made limit offset first last plan := by
  unfold make at hmake
  cases last with
  | none =>
      cases hmake
      rw [tighter_eq_min]
      exact .plain
  | some n =>
      cases htighter : tighter limit first with
      | none =>
          rw [htighter] at hmake
          cases hmake
          cases limit with
          | none =>
              cases first with
              | none => exact .fromEnd
              | some first => cases htighter
          | some limit => cases first <;> cases htighter
      | some size =>
          rw [htighter] at hmake
          rw [tighter_eq_min] at htighter
          simp only at hmake
          split at hmake
          · cases hmake
          · have hoffset : offset = 0 := Nat.eq_zero_of_not_pos ‹_›
            subst hoffset
            split at hmake
            · cases hmake
              exact .trimmed htighter ‹_›
            · cases hmake
              exact .whole htighter (Nat.le_of_not_lt ‹_›)

/-- A sum of counts that stops at the largest count is short of fewer rows than there can
be exactly if the sum is. -/
theorem addCounts_lt_iff {m n total : Nat} (htotal : total ≤ maxCount) :
    addCounts m n < total ↔ m + n < total := by
  rw [addCounts]
  omega

/-- A flag for which the limits do not decide. -/
theorem holds_bounded_iff (bounded : Bool) (total : Nat) (outside : Prop) :
    (if bounded then .outside else .never : PageFlag).Holds total outside ↔
      bounded = true ∧ outside := by
  cases bounded <;> simp [PageFlag.Holds]

/-- What the flag of the next page says. -/
theorem next_holds_iff (hmade : Made limit offset first last plan)
    (hlimit : plan.limit ≠ some 0) {total : Nat} (htotal : total ≤ maxCount) (bounded : Bool)
    (outside : Prop) :
    (plan.next first bounded).Holds total outside ↔
      if first.isSome ∨ plan.flip = true ∧ plan.offset ≠ 0 then
        (requestedSpan limit offset first last total).stop < total
      else bounded = true ∧ outside := by
  have hbounded := holds_bounded_iff bounded total outside
  simp only [next, if_neg hlimit]
  cases hmade with
  | plain =>
      cases first with
      | none => simpa using hbounded
      | some m =>
          obtain ⟨size, hsize⟩ : ∃ size, (limit.toList ++ [m]).min? = some size := by
            cases limit <;> exact ⟨_, rfl⟩
          have hstop : (requestedSpan limit offset (some m) none total).stop =
              min (offset + size) total := by simp [requestedSpan, hsize]
          simp only [Option.toList_some, hsize, Option.isSome_some, if_true, true_or, hstop,
            PageFlag.Holds, addCounts_lt_iff htotal]
          omega
  | @fromEnd offset n =>
      have hstop : (requestedSpan none offset none (some n) total).stop = total - offset := rfl
      rcases Nat.eq_zero_or_pos offset with rfl | hoffset
      · simpa using hbounded
      · simp only [hstop, hoffset, Nat.ne_of_gt hoffset, Option.isSome_none,
          Bool.false_eq_true, if_false, if_true, and_self, ne_eq, not_false_eq_true, or_true,
          PageFlag.Holds]
        omega
  | @trimmed _ _ n size hsize | @whole _ _ n size hsize =>
      have hstop : (requestedSpan limit 0 first (some n) total).stop = min size total := by
        simp [requestedSpan, hsize]
      cases first with
      | none => simpa using hbounded
      | some m =>
          simp only [hstop, Option.isSome_some, if_true, true_or, PageFlag.Holds,
            addCounts_lt_iff htotal]
          omega

/-- What the flag of the previous page says. -/
theorem previous_holds_iff (hmade : Made limit offset first last plan)
    (hlimit : plan.limit ≠ some 0) {total : Nat} (htotal : total ≤ maxCount) (bounded : Bool)
    (outside : Prop) :
    (plan.previous offset last bounded).Holds total outside ↔
      if last.isSome ∨ plan.offset ≠ 0 then
        0 < (requestedSpan limit offset first last total).start
      else bounded = true ∧ outside := by
  have hbounded := holds_bounded_iff bounded total outside
  simp only [previous, if_neg hlimit]
  cases hmade with
  | plain =>
      have hstart : (requestedSpan limit offset first none total).start = min offset total := by
        unfold requestedSpan
        cases (limit.toList ++ first.toList).min? <;> rfl
      rcases Nat.eq_zero_or_pos offset with rfl | hoffset
      · simpa using hbounded
      · simp only [hstart, hoffset, Nat.ne_of_gt hoffset, if_true, ne_eq, not_false_eq_true,
          or_true, PageFlag.Holds]
        omega
  | @fromEnd offset n =>
      have hstart : (requestedSpan none offset none (some n) total).start =
          total - offset - n := rfl
      simp only [hstart, Option.isSome_some, true_or, if_true, PageFlag.Holds,
        addCounts_lt_iff htotal]
      omega
  | @trimmed _ _ n size hsize hshort =>
      have hstart : (requestedSpan limit 0 first (some n) total).start = min size total - n := by
        simp [requestedSpan, hsize]
      simp only [hstart, Option.isSome_some, true_or, if_true, PageFlag.Holds,
        addCounts_lt_iff htotal]
      omega
  | @whole _ _ n size hsize hlong =>
      have hstart : (requestedSpan limit 0 first (some n) total).start = min size total - n := by
        simp [requestedSpan, hsize]
      simp only [hstart, Option.isSome_some, Option.isSome_none, Bool.false_eq_true, if_false,
        true_or, if_true, PageFlag.Holds, false_iff]
      omega

end Plan

/-- The statement that counts the rows that pass the wheres, whatever the bounds are. -/
def Statement.unbounded (s : Statement) : Statement :=
  { s with filter := { s.filter with lower := [], upper := [] } }

/-- There are bounds, and a row that passes the wheres fails their conjunction. -/
def Database.Outside [LinearOrder V] (db : Database ρ V) (s : Statement)
    (bounds : List Cursor.Bound) : Prop :=
  bounds ≠ [] ∧ ∃ r ∈ db.candidates s.unbounded, db.sideTruth r bounds = some false

namespace Builder

variable [LinearOrder V] {b : Builder} {options : BuildOptions}

/-- The place of the page that a builder is asked for. -/
def requestedSpan (b : Builder) (total : Nat) : Span :=
  PageQuery.requestedSpan b.resolved.limit b.resolved.offset b.first b.last total

theorem filterOf_unbounded {filter unbounded : Filter}
    (hfilter : b.filterOf true true options = .ok filter)
    (hunbounded : b.filterOf false false options = .ok unbounded) :
    unbounded = { filter with lower := [], upper := [] } := by
  obtain ⟨guards, hguards, hrest⟩ := ok_of_bind hfilter
  obtain ⟨guards', hguards', hrest'⟩ := ok_of_bind hunbounded
  rw [hguards] at hguards'
  cases hguards'
  cases hrest
  cases hrest'
  rfl

/-- A flag of a builder is about the rows of the builder's own statement. -/
theorem flag_iff_holds (db : Database ρ V) {s : Statement} {plan : Plan}
    (hstatement : b.statementOf plan options = .ok s) {flag : PageFlag} {isLower : Bool}
    {e : FlagExpr} (hflag : b.flagOf flag isLower options = .ok e) :
    db.flag e = true ↔ flag.Holds (db.candidates s).length
      (∃ r ∈ db.candidates s.unbounded, db.sideTruth r (b.bounds isLower) = some false) := by
  obtain ⟨projection, _, hrest⟩ := ok_of_bind hstatement
  obtain ⟨filter, hfilter, hrest⟩ := ok_of_bind hrest
  obtain ⟨skip, _, hrest⟩ := ok_of_bind hrest
  cases hrest
  cases flag with
  | never =>
      cases hflag
      simp [Database.flag, PageFlag.Holds]
  | beyond skipped =>
      obtain ⟨source, hsource, hrest⟩ := ok_of_bind hflag
      obtain ⟨filter', hfilter', hrest⟩ := ok_of_bind hrest
      rw [hfilter] at hfilter'
      cases hfilter'
      cases hrest
      obtain ⟨htable, hjoins⟩ := source_of_rowSource hsource
      rw [Database.flag, decide_eq_true_iff, PageFlag.Holds, Database.candidates, htable, hjoins]
      rfl
  | outside =>
      obtain ⟨source, hsource, hrest⟩ := ok_of_bind hflag
      obtain ⟨unbounded, hunbounded, hrest⟩ := ok_of_bind hrest
      cases hrest
      obtain ⟨htable, hjoins⟩ := source_of_rowSource hsource
      have hnot (t : Truth) : t.not = some true ↔ t = some false := by
        rcases t with _ | _ | _ <;> simp [Truth.not]
      rw [filterOf_unbounded hfilter hunbounded]
      simp [Database.flag, PageFlag.Holds, Database.candidates, Database.passing, htable, hjoins,
        Statement.unbounded, hnot, and_assoc]

/-- With a row source, every flag has an expression. -/
theorem flagOf_ok {table : Fragment} {rowAlias : Node} (hsource : b.source = some (table, rowAlias))
    (flag : PageFlag) (isLower : Bool) (options : BuildOptions) :
    ∃ e, b.flagOf flag isLower options = .ok e := by
  have hrows := rowSource_ok hsource
  cases flag with
  | never => exact ⟨_, rfl⟩
  | beyond skipped =>
      obtain ⟨filter, hfilter⟩ := filterOf_ok hsource true true options
      rw [flagOf, hrows, hfilter]
      exact ⟨_, rfl⟩
  | outside =>
      obtain ⟨filter, hfilter⟩ := filterOf_ok hsource false false options
      rw [flagOf, hrows, hfilter]
      exact ⟨_, rfl⟩

/-- What is not in conflict and has a row source comes to a page with its flags. -/
theorem connectionOf_ok (hcalm : ¬b.Conflicting) (hsource : b.source.isSome)
    (options : BuildOptions) (token : AliasToken) : ∃ c, b.connectionOf options token = .ok c := by
  obtain ⟨plan, hplan⟩ := Plan.make_ok_of_not_conflicting hcalm
  change b.planOf = .ok plan at hplan
  obtain ⟨⟨table, rowAlias⟩, hsource⟩ := Option.isSome_iff_exists.mp hsource
  obtain ⟨s, hs⟩ := statementOf_ok hsource plan
    { options with asJson := false, asJsonAggregate := true, onlyJsonField := false }
  obtain ⟨next, hnext⟩ :=
    flagOf_ok hsource (plan.next b.first (!b.upper.isEmpty)) false options
  obtain ⟨previous, hprevious⟩ :=
    flagOf_ok hsource (plan.previous b.resolved.offset b.last (!b.lower.isEmpty)) true options
  have hpage : b.pageStatement
      { options with asJson := false, asJsonAggregate := true, onlyJsonField := false } =
        .ok s := by
    rw [pageStatement, hplan]
    exact hs
  rw [connectionOf, hpage, hplan]
  change ∃ c, (do
    let next ← b.flagOf (plan.next b.first !b.upper.isEmpty) false options
    let previous ←
      b.flagOf (plan.previous b.resolved.offset b.last !b.lower.isEmpty) true options
    return ⟨.aggregate s token, next, previous⟩ : Except Error ConnectionStatement) = .ok c
  rw [hnext, hprevious]
  exact ⟨_, rfl⟩

/-- A page with its flags is an aggregate of the page of the builder's plan. -/
theorem page_of_connectionOf {token : AliasToken} {c : ConnectionStatement}
    (hconnection : b.connectionOf options token = .ok c) :
    ∃ s plan, c.page = .aggregate s token ∧ b.planOf = .ok plan := by
  obtain ⟨s, _, hrest⟩ := ok_of_bind hconnection
  obtain ⟨plan, hplan, hrest⟩ := ok_of_bind hrest
  obtain ⟨next, _, hrest⟩ := ok_of_bind hrest
  obtain ⟨previous, _, hrest⟩ := ok_of_bind hrest
  cases hrest
  exact ⟨s, plan, rfl, hplan⟩

/-- The page of a builder lies at its place, and its flags say what lies beside it. -/
structure Flagged (b : Builder) (db : Database ρ V) (plan : Plan) (s : Statement)
    (c : ConnectionStatement) (rows : List ρ) : Prop where
  page : s.page (fun source filter => (db.passing source filter).length) rows =
    (b.requestedSpan rows.length).of rows
  ordered : (b.requestedSpan rows.length).start ≤ (b.requestedSpan rows.length).stop
  within : (b.requestedSpan rows.length).stop ≤ rows.length
  /-- Nothing is said about what lies beside a page that is to have no rows. -/
  none : plan.limit = some 0 → db.flag c.next = false ∧ db.flag c.previous = false
  next : plan.limit ≠ some 0 → (db.flag c.next = true ↔
    if b.first.isSome ∨ plan.flip = true ∧ plan.offset ≠ 0 then
      (b.requestedSpan rows.length).stop < rows.length
    else db.Outside s b.upper)
  previous : plan.limit ≠ some 0 → (db.flag c.previous = true ↔
    if b.last.isSome ∨ plan.offset ≠ 0 then 0 < (b.requestedSpan rows.length).start
    else db.Outside s b.lower)

/-- The rows may come in any order: which of them are at the place of the page is up to
the order that is asked for. -/
theorem flagged_of_connectionOf {token : AliasToken} {c : ConnectionStatement} {s : Statement}
    {plan : Plan} (hconnection : b.connectionOf options token = .ok c)
    (hs : c.page = .aggregate s token) (hp : b.planOf = .ok plan) (db : Database ρ V)
    {rows : List ρ} (hperm : rows.Perm (db.candidates s)) (hfew : rows.length < 2 ^ 64) :
    b.Flagged db plan s c rows := by
  obtain ⟨s', hpage, hrest⟩ := ok_of_bind hconnection
  obtain ⟨plan', hplan, hrest⟩ := ok_of_bind hrest
  obtain ⟨next, hnext, hrest⟩ := ok_of_bind hrest
  obtain ⟨previous, hprevious, hrest⟩ := ok_of_bind hrest
  cases hrest
  cases hs
  rw [hp] at hplan
  cases hplan
  have hstatement := hpage
  rw [pageStatement, hp] at hstatement
  have hmade := Plan.made_of_make hp
  have htotal : rows.length ≤ maxCount := Nat.le_sub_one_of_lt hfew
  have hlength : (db.candidates s).length = rows.length := hperm.length_eq.symm
  have hordered := requestedSpan_ordered b.resolved.limit b.resolved.offset b.first b.last
    rows.length
  refine ⟨?_, hordered.1, hordered.2, ?_, ?_, ?_⟩
  · rw [page_of_pageStatement hpage]
    · exact referencePage_eq_of_span _ _ _ _ rows
    · rintro source ⟨htable, hjoins⟩
      rw [← hlength, Database.candidates, htable, hjoins]
      rfl
  · intro hlimit
    rw [Plan.next, if_pos hlimit] at hnext
    simp only [Plan.previous, if_pos hlimit] at hprevious
    cases hnext
    cases hprevious
    exact ⟨rfl, rfl⟩
  · intro hlimit
    rw [flag_iff_holds db hstatement hnext, hlength, Plan.next_holds_iff hmade hlimit htotal,
      Database.Outside]
    simp only [Bool.not_eq_true', List.isEmpty_eq_false_iff]
    rfl
  · intro hlimit
    rw [flag_iff_holds db hstatement hprevious, hlength,
      Plan.previous_holds_iff hmade hlimit htotal, Database.Outside]
    simp only [Bool.not_eq_true', List.isEmpty_eq_false_iff]
    rfl

end Builder

namespace Action

variable {lock : Locker} {id : BuilderId} {w w₁ : World}

/-- Once everything is locked, a page with its flags is refused exactly if the limits are in
conflict or a row source is missing; otherwise its page lies at the place that is asked for,
and each flag says what lies on its side: exactly where the limits decide, and by the bounds
where they do not. -/
theorem buildConnection_flags {fuel : Nat} (hlive : id < w.nextBuilder) (hclosed : w.Closed)
    (hlocks : (lockEverything (lockWith fuel)).exec id w = (.ok (), w₁))
    (options : BuildOptions) :
    ((w₁.builder id).Conflicting → ∃ w₂, (buildConnection (lockWith fuel) options).exec id w =
        (.error (.refused (.ambiguousPagination .lastInsideOffsetWindow)), w₂)) ∧
    (¬(w₁.builder id).Conflicting → (w₁.builder id).source.isSome →
      ∃ c w₂, (buildConnection (lockWith fuel) options).exec id w = (.ok c, w₂)) ∧
    ∀ c w₂, (buildConnection (lockWith fuel) options).exec id w = (.ok c, w₂) →
      ∃ s token plan, c.page = .aggregate s token ∧ (w₁.builder id).planOf = .ok plan ∧
        ∀ (ρ V : Type) [LinearOrder V] (db : Database ρ V) (rows : List ρ),
          rows.Perm (db.candidates s) → rows.length < 2 ^ 64 →
            (w₁.builder id).Flagged db plan s c rows := by
  have hlawful := lawful_lockWith fuel
  have hlocked := (kept_lockEverything hlawful hlive hclosed hlocks).holds
  obtain ⟨w₂, hbuild⟩ := exec_buildConnection_finalized hlawful.idle hlocked options
  rw [exec_buildConnection_locked hlawful.idle hlocks hlocked, hbuild]
  refine ⟨fun hconflict => ⟨w₂, ?_⟩, fun hcalm hsource => ?_, fun c w₂ hok => ?_⟩
  · rw [Builder.connectionOf, Builder.pageStatement, planOf_of_conflicting hconflict]
    rfl
  · obtain ⟨c, hc⟩ := Builder.connectionOf_ok hcalm hsource options ⟨w₁.nextToken⟩
    exact ⟨c, w₂, by rw [hc]; rfl⟩
  · cases hconnection : (w₁.builder id).connectionOf options ⟨w₁.nextToken⟩ with
    | error e =>
        rw [hconnection] at hok
        cases hok
    | ok c' =>
        rw [hconnection] at hok
        cases hok
        obtain ⟨s, plan, hpage, hplan⟩ := Builder.page_of_connectionOf hconnection
        exact ⟨s, _, plan, hpage, hplan, fun ρ V _ db rows =>
          Builder.flagged_of_connectionOf hconnection hpage hplan db⟩

end Action

namespace World

open PageQuery.Action

/-- The last two of the first five items have a next page if there are more than five
items, and a previous one if there are more than two. -/
theorem buildConnection_flags_windowRun :
    ∃ c w₂ s token, (buildConnection (lockWith 20) {}).exec root windowRun = (.ok c, w₂) ∧
      c.page = .aggregate s token ∧
      ∀ (db : Database Nat Nat) (rows : List Nat), rows.Perm (db.candidates s) →
        rows.length < 2 ^ 64 →
          s.page (fun source filter => (db.passing source filter).length) rows =
              (rows.take (min 5 rows.length)).drop (min 5 rows.length - 2) ∧
            (db.flag c.next = true ↔ 5 < rows.length) ∧
            (db.flag c.previous = true ↔ 2 < rows.length) := by
  obtain ⟨hlive, hclosed⟩ := reached_windowRun.sound
  have hlocks : (lockEverything (lockWith 20)).exec root windowRun = (.ok (), windowLocked) :=
    Prod.ext rfl rfl
  have hlimit : (windowLocked.builder root).resolved.limit = none := by decide +kernel
  have hoffset : (windowLocked.builder root).resolved.offset = 0 := by decide +kernel
  have hfirst : (windowLocked.builder root).first = some 5 := by decide +kernel
  have hlast : (windowLocked.builder root).last = some 2 := by decide +kernel
  have hcalm : ¬(windowLocked.builder root).Conflicting := by
    intro hconflict
    exact absurd hconflict.2.1 (by decide +kernel)
  obtain ⟨-, hbuilds, hflags⟩ := buildConnection_flags hlive hclosed hlocks {}
  obtain ⟨c, w₂, hrun⟩ := hbuilds hcalm (by decide +kernel)
  obtain ⟨s, token, plan, hpage, hplan, hflagged⟩ := hflags c w₂ hrun
  refine ⟨c, w₂, s, token, hrun, hpage, fun db rows hperm hfew => ?_⟩
  have hspan : (windowLocked.builder root).requestedSpan rows.length =
      ⟨min 5 rows.length - 2, min 5 rows.length⟩ := by
    rw [Builder.requestedSpan, hlimit, hoffset, hfirst, hlast]
    rfl
  obtain ⟨hslice, _, _, _, hnext, hprevious⟩ := hflagged Nat Nat db rows hperm hfew
  rw [Builder.planOf, hlimit, hoffset, hfirst, hlast] at hplan
  cases hplan
  rw [hspan] at hslice hnext hprevious
  refine ⟨hslice, (hnext (by decide)).trans ?_, (hprevious (by decide)).trans ?_⟩
  · rw [hfirst, Option.isSome_some]
    simp only [true_or, if_true]
    omega
  · rw [hlast, Option.isSome_some]
    simp only [true_or, if_true]
    omega

end World

end PageQuery
