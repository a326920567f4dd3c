import Mathlib.Logic.Function.Basic
import PageQuery.Proofs.Run.Contents

/-!
# The parts of a builder

A builder falls into one part for each concern: what it holds of the concern, whether the
concern is locked, and the callbacks before its lock.  Parts are read and replaced
independently of each other, and apart from them a builder is only its place in the tree.
-/

namespace PageQuery

open Sql

/-- All that a builder knows of a concern. -/
@[ext]
structure Concern.Part (c : Concern) where
  contents : c.Contents
  locked : Bool
  callbacks : List Callback

namespace Builder

def part (b : Builder) (c : Concern) : c.Part := ⟨b.contents c, b.locked c, b.callbacks c⟩

def setContents (b : Builder) : (c : Concern) → c.Contents → Builder
  | .source, source => { b with source }
  | .joins, joins => { b with joins }
  | .order, (waiting, settled) =>
    { b with
      pending := { b.pending with orderTerms := waiting }
      resolved := { b.resolved with orderTerms := settled } }
  | .uniqueness, orderIsUnique => { b with orderIsUnique }
  | .comparator, (waiting, settled) =>
    { b with
      pending := { b.pending with comparator := waiting }
      resolved := { b.resolved with comparator := settled } }
  | .cursorTag, cursorTag => { b with cursorTag }
  | .bounds, (lower, upper) => { b with lower, upper }
  | .wheres, (waiting, settled) =>
    { b with
      pending := { b.pending with wheres := waiting }
      resolved := { b.resolved with wheres := settled } }
  | .offset, (waiting, settled) =>
    { b with
      pending := { b.pending with offsets := waiting }
      resolved := { b.resolved with offset := settled } }
  | .limit, (waiting, settled) =>
    { b with
      pending := { b.pending with limit := waiting }
      resolved := { b.resolved with limit := settled } }
  | .first, first => { b with first }
  | .last, last => { b with last }
  | .cursor, (waiting, settled) =>
    { b with
      pending := { b.pending with cursor := waiting }
      resolved := { b.resolved with cursor := settled } }
  | .select, ((waiting, identifiersSelected), settled) =>
    { b with
      pending := { b.pending with selects := waiting }
      resolved := { b.resolved with selects := settled }
      identifiersSelected }

def setPart (b : Builder) (c : Concern) (p : c.Part) : Builder :=
  { b.setContents c p.contents with
    locked := Function.update b.locked c p.locked
    callbacks := Function.update b.callbacks c p.callbacks }

/-- The place of a builder in its tree, which no concern is about. -/
structure SamePlace (b b' : Builder) : Prop where
  options : b'.options = b.options
  parent : b'.parent = b.parent
  children : b'.children = b.children

variable {b b' : Builder} {c d : Concern}

theorem SamePlace.refl (b : Builder) : b.SamePlace b := ⟨rfl, rfl, rfl⟩

theorem SamePlace.trans {b'' : Builder} (h : b.SamePlace b') (h' : b'.SamePlace b'') :
    b.SamePlace b'' :=
  ⟨h'.options.trans h.options, h'.parent.trans h.parent, h'.children.trans h.children⟩

theorem samePlace_setPart (b : Builder) (c : Concern) (p : c.Part) :
    b.SamePlace (b.setPart c p) := by
  cases c <;> exact ⟨rfl, rfl, rfl⟩

@[simp]
theorem part_setPart (b : Builder) (c : Concern) (p : c.Part) : (b.setPart c p).part c = p := by
  apply Concern.Part.ext
  · cases c <;> rfl
  · exact Function.update_self c p.locked b.locked
  · exact Function.update_self c p.callbacks b.callbacks

/-- To replace a part leaves the other parts as they are. -/
theorem part_setPart_of_ne (b : Builder) (p : c.Part) (hne : d ≠ c) :
    (b.setPart c p).part d = b.part d := by
  apply Concern.Part.ext
  · have hcontents : (b.setPart c p).contents d = b.contents d := by
      cases c <;> cases d <;> first | rfl | exact absurd rfl hne
    exact hcontents
  · exact Function.update_of_ne hne p.locked b.locked
  · exact Function.update_of_ne hne p.callbacks b.callbacks

/-- What waits in a builder and what is settled are determined by the contents. -/
theorem waiting_and_settled (hcontents : ∀ c, b'.contents c = b.contents c) :
    b'.pending = b.pending ∧ b'.resolved = b.resolved := by
  have horder := Prod.mk.inj (hcontents .order)
  have hcomparator := Prod.mk.inj (hcontents .comparator)
  have hwheres := Prod.mk.inj (hcontents .wheres)
  have hoffset := Prod.mk.inj (hcontents .offset)
  have hlimit := Prod.mk.inj (hcontents .limit)
  have hcursor := Prod.mk.inj (hcontents .cursor)
  have hselect := Prod.mk.inj (hcontents .select)
  have hselects := Prod.mk.inj hselect.1
  generalize b'.pending = p', b.pending = p, b'.resolved = r', b.resolved = r at *
  obtain ⟨_, _, _, _, _, _, _⟩ := p
  obtain ⟨_, _, _, _, _, _, _⟩ := p'
  obtain ⟨_, _, _, _, _, _, _⟩ := r
  obtain ⟨_, _, _, _, _, _, _⟩ := r'
  simp_all

/-- A builder is its place and its parts. -/
theorem eq_of_parts (hplace : b.SamePlace b') (hparts : ∀ c, b'.part c = b.part c) : b' = b := by
  have hcontents (c : Concern) := congrArg Concern.Part.contents (hparts c)
  have hlocked : b'.locked = b.locked :=
    funext fun c => congrArg Concern.Part.locked (hparts c)
  have hcallbacks : b'.callbacks = b.callbacks :=
    funext fun c => congrArg Concern.Part.callbacks (hparts c)
  obtain ⟨hoptions, hparent, hchildren⟩ := hplace
  obtain ⟨hpending, hresolved⟩ := waiting_and_settled hcontents
  have hsource : b'.source = b.source := hcontents .source
  have hjoins : b'.joins = b.joins := hcontents .joins
  have hunique : b'.orderIsUnique = b.orderIsUnique := hcontents .uniqueness
  have htag : b'.cursorTag = b.cursorTag := hcontents .cursorTag
  have hbounds := Prod.mk.inj (hcontents .bounds)
  have hfirst : b'.first = b.first := hcontents .first
  have hlast : b'.last = b.last := hcontents .last
  have hselected := (Prod.mk.inj (Prod.mk.inj (hcontents .select)).1).2
  cases b
  cases b'
  simp_all

end Builder

end PageQuery
