import PageQuery.Proofs.Likeness.Builders

/-!
# The aliases in a builder

Scripts hold alias tokens in their expressions, and a builder holds scripts besides fragments.
Main statement: if all tokens in a builder are below a number, all that operations see of it is
like itself, with no other tokens than these.
-/

namespace PageQuery

open Sql

variable {N M : Nat}

/-! Data -/

/-- The tokens in data of the type are those that likeness asks for. -/
class Aliased.Lawful (α : Type) [Aliased α] [Likeness α] : Prop where
  alike_iff {N : Nat} {a : α} : Alike (.below N) a a ↔ Taken N a

/-- Data that are like themselves below a bound have only tokens below it. -/
theorem Alike.taken {α : Type} [Aliased α] [Likeness α] [Aliased.Lawful α] {a a' : α}
    (h : Alike (.below N) a a') : Taken N a := by
  obtain rfl := h.eq (Variation.exact_below N)
  exact Aliased.Lawful.alike_iff.mp h

/-- Data whose tokens are below a bound are like themselves. -/
theorem Taken.alike {α : Type} [Aliased α] [Likeness α] [Aliased.Lawful α] {a : α}
    (h : Taken N a) : Alike (.below N) a a :=
  Aliased.Lawful.alike_iff.mpr h

namespace Aliased.Lawful

variable {α β : Type} [Aliased α] [Likeness α] [Lawful α] [Aliased β] [Likeness β] [Lawful β]

instance (priority := low) plain {γ : Type} : @Lawful γ .none .same :=
  ⟨⟨fun _ => Taken.none_in _, fun _ => rfl⟩⟩

instance : Lawful (List α) where
  alike_iff {N items} := by
    rw [Taken.iff_forall_mem]
    refine List.forall₂_same.trans (forall₂_congr fun a _ => ?_)
    exact alike_iff

instance : Lawful (Option α) where
  alike_iff {N a} := by
    constructor
    · intro h
      cases h with
      | none => exact .none
      | some ha => exact Taken.some_iff.mpr ha.taken
    · intro h
      cases a with
      | none => exact .none
      | some a => exact .some (Taken.some_iff.mp h).alike

instance : Lawful (α × β) where
  alike_iff := (and_congr alike_iff alike_iff).trans Taken.prod_iff.symm

instance : Lawful AliasToken where
  alike_iff := ⟨And.right, fun h => ⟨rfl, h⟩⟩

instance : Lawful Node where
  alike_iff {N node} := by
    constructor
    · intro h
      cases h with
      | same htokens => exact htokens
      | value => exact nofun
    · exact fun htokens => Node.Alike.same htokens

instance : Lawful Field where
  alike_iff {_ field} := ⟨fun h => h.1.taken, fun h => ⟨Taken.alike (a := field.expr) h, rfl⟩⟩

instance : Lawful OrderTerm where
  alike_iff {_ term} :=
    ⟨fun h => h.1.taken, fun h => ⟨Taken.alike (a := term.expr) h, rfl, .of_plain _⟩⟩

instance : Lawful NodeExpr where
  alike_iff := ⟨And.right, fun h => ⟨rfl, h⟩⟩

instance : Lawful Expr where
  alike_iff := ⟨And.right, fun h => ⟨rfl, h⟩⟩

instance : Lawful FragmentSource where
  alike_iff := ⟨And.right, fun h => ⟨rfl, h⟩⟩

end Aliased.Lawful

namespace Cursor.Bound

/-- The parentheses around an operand hide none of its tokens. -/
theorem taken_of_operand {expr : Fragment} (h : Taken N (operand expr)) : Taken N expr := by
  rcases expr with _ | ⟨node, _ | ⟨next, rest⟩⟩
  · exact .nil
  · rw [operand] at h
    split at h
    · exact h
    · exact Taken.parens_iff.mp h
  · exact Taken.parens_iff.mp h

/-- The value that is compared with is bound and has no tokens. -/
theorem taken_of_comparison {expr : Fragment} {greater : Bool} {value : Json}
    (h : Taken N (comparison expr greater value)) : Taken N expr := by
  rw [comparison, Taken.append_iff, Taken.append_iff] at h
  exact taken_of_operand h.1.1

/-- Everything that a bound is made of ends up in its condition. -/
theorem alike_of_taken {bound : Bound} (h : Taken N bound.fragment) :
    PageQuery.Alike (.below N) bound bound := by
  have hvalue (value : Json) : PageQuery.Alike (.below N) value value := .inl rfl
  induction bound with
  | given f => exact Alike.given (Taken.alike h)
  | never => exact Alike.never
  | always => exact Alike.always
  | compare expr greater value =>
      exact Alike.compare (taken_of_comparison h).alike greater (hvalue value)
  | compareRows exprs greater values =>
      simp only [fragment, Taken.append_iff, Taken.join_iff] at h
      have hexprs : Taken N exprs := h.1.1.1.1.1.2
      have hvalues : PageQuery.Alike (.below N) values values :=
        List.forall₂_same.mpr fun value _ => hvalue value
      exact Alike.compareRows hexprs.alike greater hvalues
  | beyondOrTied expr greater value rest ih =>
      simp only [fragment, Taken.append_iff] at h
      have hrest : Taken N rest.fragment := h.1.2
      have hexpr : Taken N (comparison expr greater value) := h.1.1.1.1.1.1.1.2
      exact Alike.beyondOrTied (taken_of_comparison hexpr).alike greater (hvalue value) (ih hrest)

end Cursor.Bound

instance : Aliased.Lawful Cursor.Bound where
  alike_iff := ⟨fun h => (Cursor.Bound.fragment_alike h).taken, Cursor.Bound.alike_of_taken⟩

/-! Builders -/

instance : Aliased PendingField := .of PendingField.expr

instance : Aliased PendingTerm := .of PendingTerm.expr

instance : Aliased ParentRef := .of ParentRef.tableAlias

instance : Aliased.Lawful ParentRef where
  alike_iff {_ parent} := by
    constructor
    · exact fun h => h.2.taken
    · exact fun h => ⟨rfl, Taken.alike (a := parent.tableAlias) h⟩

/-- What waits in a builder has tokens below a bound only. -/
structure Pending.Within (N : Nat) (p : Pending) : Prop where
  selects : Taken N p.selects
  wheres : Taken N p.wheres
  orderTerms : Taken N p.orderTerms
  limit : Taken N p.limit
  offsets : Taken N p.offsets
  cursor : Taken N p.cursor
  comparator : Taken N p.comparator

/-- What is settled in a builder has tokens below a bound only. -/
structure Resolved.Within (N : Nat) (r : Resolved) : Prop where
  selects : Taken N r.selects
  wheres : Taken N r.wheres
  orderTerms : Taken N r.orderTerms
  cursor : Taken N r.cursor
  comparator : Taken N r.comparator

/-- Every alias token in the builder is below `N`. -/
structure Builder.Within (N : Nat) (b : Builder) : Prop where
  parent : Taken N b.parent
  source : Taken N b.source
  joins : Taken N b.joins
  lower : Taken N b.lower
  upper : Taken N b.upper
  pending : b.pending.Within N
  resolved : b.resolved.Within N
  callbacks : ∀ c, Taken N (b.callbacks c)

/-! More and more tokens are taken -/

theorem Pending.Within.mono {p : Pending} (h : p.Within N) (hle : N ≤ M) : p.Within M :=
  ⟨h.selects.mono hle, h.wheres.mono hle, h.orderTerms.mono hle, h.limit.mono hle,
    h.offsets.mono hle, h.cursor.mono hle, h.comparator.mono hle⟩

theorem Resolved.Within.mono {r : Resolved} (h : r.Within N) (hle : N ≤ M) : r.Within M :=
  ⟨h.selects.mono hle, h.wheres.mono hle, h.orderTerms.mono hle, h.cursor.mono hle,
    h.comparator.mono hle⟩

namespace Builder

/-- A builder stays within its bound when further tokens are given out. -/
theorem Within.mono {b : Builder} (h : b.Within N) (hle : N ≤ M) : b.Within M where
  parent := h.parent.mono hle
  source := h.source.mono hle
  joins := h.joins.mono hle
  lower := h.lower.mono hle
  upper := h.upper.mono hle
  pending := h.pending.mono hle
  resolved := h.resolved.mono hle
  callbacks c := (h.callbacks c).mono hle

/-- A new builder knows no token but the alias of its parent. -/
theorem within_fresh (options : Options) {parent : Option ParentRef} (hparent : Taken N parent) :
    (fresh options parent).Within N where
  parent := hparent
  source := .none
  joins := .nil
  lower := .nil
  upper := .nil
  pending := ⟨.nil, .nil, .nil, .none, .nil, .none, .none⟩
  resolved := ⟨.nil, .nil, .nil, .none, .none⟩
  callbacks c := by cases c <;> exact fun _ ht => by cases ht

/-- All that operations see of the builder is like itself. -/
theorem Within.seen {b : Builder} (h : b.Within N) : b.Seen (.below N) b where
  options := rfl
  parent := h.parent.alike
  source := h.source.alike
  joins := h.joins.alike
  lower := h.lower.alike
  upper := h.upper.alike
  orderIsUnique := rfl
  first := rfl
  last := rfl
  cursorTag := rfl
  identifiersSelected := rfl
  selects := h.resolved.selects.alike
  wheres := h.resolved.wheres.alike
  orderTerms := h.resolved.orderTerms.alike
  limit := rfl
  offset := rfl
  cursor := h.resolved.cursor.alike
  locked := rfl
  children := rfl

end Builder

end PageQuery
