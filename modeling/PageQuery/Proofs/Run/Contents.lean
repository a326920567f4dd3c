import PageQuery.Proofs.Run.Change

/-!
# What a builder holds of a concern

Every part of a builder that statements are made of belongs to one concern: what has
been registered with the concern, and the value that it is settled to.  A registration
touches the contents of its own concern only, and that concern is open.
-/

namespace PageQuery

open Sql

/-- What is held of a concern: what waits in the builder, and what it is settled to. -/
abbrev Concern.Contents : Concern → Type
  | .source => Option (Fragment × Node)
  | .joins => List Fragment
  | .order => List PendingTerm × List OrderTerm
  | .uniqueness => Bool
  | .comparator => Option Comparator × Option Comparator
  | .cursorTag => String
  | .bounds => List Cursor.Bound × List Cursor.Bound
  | .wheres => List DeferredFragment × List Fragment
  | .offset => List DeferredCount × Nat
  | .limit => Option DeferredCount × Option Nat
  | .first | .last => Option Nat
  | .cursor => Option DeferredFragment × Option Fragment
  | .select => (List PendingField × Bool) × List Field

/-- The value of a concern, as statements and questions read it once it is locked. -/
abbrev Concern.Value : Concern → Type
  | .source => Option (Fragment × Node)
  | .joins | .wheres => List Fragment
  | .order => List OrderTerm
  | .uniqueness => Bool
  | .comparator => Option Comparator
  | .cursorTag => String
  | .bounds => List Cursor.Bound × List Cursor.Bound
  | .offset => Nat
  | .limit | .first | .last => Option Nat
  | .cursor => Option Fragment
  | .select => List Field

namespace Builder

def contents (b : Builder) : (c : Concern) → c.Contents
  | .source => b.source
  | .joins => b.joins
  | .order => (b.pending.orderTerms, b.resolved.orderTerms)
  | .uniqueness => b.orderIsUnique
  | .comparator => (b.pending.comparator, b.resolved.comparator)
  | .cursorTag => b.cursorTag
  | .bounds => (b.lower, b.upper)
  | .wheres => (b.pending.wheres, b.resolved.wheres)
  | .offset => (b.pending.offsets, b.resolved.offset)
  | .limit => (b.pending.limit, b.resolved.limit)
  | .first => b.first
  | .last => b.last
  | .cursor => (b.pending.cursor, b.resolved.cursor)
  | .select => ((b.pending.selects, b.identifiersSelected), b.resolved.selects)

def value (b : Builder) : (c : Concern) → c.Value
  | .source => b.source
  | .joins => b.joins
  | .order => b.resolved.orderTerms
  | .uniqueness => b.orderIsUnique
  | .comparator => b.resolved.comparator
  | .cursorTag => b.cursorTag
  | .bounds => (b.lower, b.upper)
  | .wheres => b.resolved.wheres
  | .offset => b.resolved.offset
  | .limit => b.resolved.limit
  | .first => b.first
  | .last => b.last
  | .cursor => b.resolved.cursor
  | .select => b.resolved.selects

variable {b b' : Builder} {c : Concern}

/-- The value of a concern is part of what is held of it. -/
theorem value_of_contents (hcontents : b'.contents c = b.contents c) :
    b'.value c = b.value c := by
  cases c with
  | source | joins | uniqueness | cursorTag | bounds | first | last => exact hcontents
  | order | comparator | wheres | offset | limit | cursor | select =>
      exact congrArg Prod.snd hcontents

@[simp]
theorem contents_setCallbacks (b : Builder) (c d : Concern) (queue : List Callback) :
    (b.setCallbacks c queue).contents d = b.contents d := by
  cases d <;> rfl

/-- What is registered belongs to one open concern, and nothing else is touched. -/
theorem Edit.contents (hedit : b.Edit b') :
    ∃ c, b.locked c = false ∧ ∀ d, d ≠ c → b'.contents d = b.contents d := by
  have hothers (c : Concern) (hopen : b.locked c = false)
      (hsame : ∀ d, d = c ∨ b'.contents d = b.contents d) :
      ∃ c, b.locked c = false ∧ ∀ d, d ≠ c → b'.contents d = b.contents d :=
    ⟨c, hopen, fun d hd => (hsame d).resolve_left hd⟩
  cases hedit with
  | callback c callback hopen =>
      exact ⟨c, hopen, fun d _ => contents_setCallbacks b c d _⟩
  | select _ hopen _ | identifiersSelected hopen | cursor _ hopen | join _ hopen
  | lowerBound _ hopen | upperBound _ hopen | orderBy _ hopen | orderUnique hopen
  | limit _ hopen _ | offset _ hopen | first _ hopen _ | last _ hopen _
  | cursorTag _ hopen | source _ _ hopen | comparator _ hopen =>
      refine hothers _ hopen fun d => ?_
      cases d <;> first | exact .inl rfl | exact .inr rfl

end Builder

end PageQuery
