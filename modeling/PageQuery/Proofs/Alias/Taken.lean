import PageQuery.Builder.Basic
import PageQuery.Proofs.Alias.Renaming

/-!
# Aliases that are taken

Alias tokens are given out in the order of their numbers, so the tokens below a number are
those that are taken already.  Main definitions: the tokens in the data that builders and
scripts hold, and that all of them are below a number.
-/

namespace PageQuery

open Sql

/-- Data of a type that may hold alias tokens, and the tokens in it.  Data of other types hold
none. -/
class Aliased (α : Type) where
  tokens : α → List AliasToken

/-- Every alias token in the data is below `N`. -/
def Taken (N : Nat) {α : Type} [Aliased α] (a : α) : Prop := ∀ t ∈ Aliased.tokens a, t.id < N

namespace Aliased

variable {α β : Type}

instance (priority := low) none : Aliased α := ⟨fun _ => []⟩

instance : Aliased AliasToken := ⟨fun t => [t]⟩

instance : Aliased Node := ⟨Node.tokens⟩

instance [Aliased α] : Aliased (List α) := ⟨List.flatMap tokens⟩

instance [Aliased α] : Aliased (Option α) := ⟨fun a => a.toList.flatMap tokens⟩

instance [Aliased α] [Aliased β] : Aliased (α × β) := ⟨fun a => tokens a.1 ++ tokens a.2⟩

/-- Data that hold the tokens of what is made of them. -/
abbrev of [Aliased β] (f : α → β) : Aliased α := ⟨fun a => tokens (f a)⟩

instance : Aliased Field := of Field.expr

instance : Aliased OrderTerm := of OrderTerm.expr

instance : Aliased Cursor.Bound := of Cursor.Bound.fragment

instance : Aliased Statement := of Statement.fragment

end Aliased

/-! Scripts -/

/-- The tokens that are written in a node expression. -/
def NodeExpr.tokens : NodeExpr → List AliasToken
  | .fixed node => node.tokens
  | .tableAlias | .parentAlias => []

instance : Aliased NodeExpr := ⟨NodeExpr.tokens⟩

namespace Expr

mutual

/-- The tokens that are written in an expression. -/
def tokens : Expr → List AliasToken
  | .text _ | .saved _ => []
  | .node n => n.tokens
  | .column n _ => n.tokens
  | .sequence items => tokensAll items
  | .join items _ => tokensAll items
  | .parens inner => inner.tokens
  | .template _ holes => tokensAll holes

def tokensAll : List Expr → List AliasToken
  | [] => []
  | item :: rest => item.tokens ++ tokensAll rest

end

end Expr

instance : Aliased Expr := ⟨Expr.tokens⟩

instance : Aliased FragmentSource where
  tokens
    | .expr expr => expr.tokens
    | .cursorExpression => []

mutual

/-- The tokens in a step, those in its script among them. -/
def Step.tokens : Step → List AliasToken
  | .mk _ op _ _ => op.tokens

/-- The alias tokens that an operation is given, in scripts that it is given too. -/
def Op.tokens : Op → List AliasToken
  | .source table rowAlias => table.tokens ++ Aliased.tokens rowAlias
  | .select expr _ => expr.tokens
  | .selectLazy steps value _ => scriptTokens steps ++ Aliased.tokens value
  | .selectCursor expr => expr.tokens
  | .selectCursorLazy steps value => scriptTokens steps ++ Aliased.tokens value
  | .join clause => clause.tokens
  | .filter expr => expr.tokens
  | .filterLazy steps value => scriptTokens steps ++ Aliased.tokens value
  | .bound expr _ => expr.tokens
  | .orderBy expr _ _ => expr.tokens
  | .orderByLazy steps value _ _ => scriptTokens steps ++ Aliased.tokens value
  | .limitLazy steps _ => scriptTokens steps
  | .offsetLazy steps _ => scriptTokens steps
  | .setCustomComparator steps => scriptTokens steps
  | .beforeLock _ steps => scriptTokens steps
  | .addChild _ table rowAlias selecting =>
    table.tokens ++ Aliased.tokens rowAlias ++ Aliased.tokens selecting
  | .compileExpr expr => expr.tokens
  | _ => []

def scriptTokens : List Step → List AliasToken
  | [] => []
  | step :: rest => step.tokens ++ scriptTokens rest

end

instance : Aliased Step := ⟨Step.tokens⟩

/-- The tokens of a script are those of its steps. -/
theorem scriptTokens_eq (steps : List Step) : scriptTokens steps = Aliased.tokens steps := by
  induction steps with
  | nil => rw [scriptTokens]; rfl
  | cons step rest ih => rw [scriptTokens, ih]; rfl

instance : Aliased Op := ⟨Op.tokens⟩

instance {α σ : Type} [Aliased α] [Aliased σ] : Aliased (Deferred α σ) where
  tokens
    | .ready value => Aliased.tokens value
    | .lazy steps value => Aliased.tokens steps ++ Aliased.tokens value

instance : Aliased Comparator where
  tokens
    | .kind _ => []
    | .custom steps => Aliased.tokens steps

instance : Aliased Callback where
  tokens
    | .script steps => Aliased.tokens steps
    | _ => []

namespace Taken

variable {α β : Type} [Aliased α] [Aliased β] {N M : Nat}

/-- What has been given out stays so. -/
theorem mono {a : α} (h : Taken N a) (hle : N ≤ M) : Taken M a :=
  fun t ht => Nat.lt_of_lt_of_le (h t ht) hle

/-- Data of a type that holds no tokens. -/
theorem none_in {γ : Type} (c : γ) : @Taken N γ .none c := fun _ ht => by cases ht

/-- Data without tokens are taken under every bound. -/
theorem of_tokens_eq_nil {a : α} (h : Aliased.tokens a = []) : Taken N a := fun _ ht => by
  rw [h] at ht
  cases ht

@[simp]
theorem nil : Taken N ([] : List α) := fun _ ht => by cases ht

/-- The first item and the others are taken on their own. -/
@[simp]
theorem cons_iff {a : α} {items : List α} : Taken N (a :: items) ↔ Taken N a ∧ Taken N items := by
  simp only [Taken, Aliased.tokens, List.flatMap_cons, List.forall_mem_append]

/-- Two lists are taken together exactly if each of them is. -/
@[simp]
theorem append_iff {items others : List α} :
    Taken N (items ++ others) ↔ Taken N items ∧ Taken N others := by
  simp only [Taken, Aliased.tokens, List.flatMap_append, List.forall_mem_append]

/-- A registration behind others that are taken. -/
theorem concat {items : List α} (h : Taken N items) {a : α} (ha : Taken N a) :
    Taken N (items ++ [a]) :=
  append_iff.mpr ⟨h, cons_iff.mpr ⟨ha, nil⟩⟩

/-- A list is taken item by item. -/
theorem iff_forall_mem {items : List α} : Taken N items ↔ ∀ a ∈ items, Taken N a := by
  induction items with
  | nil => simp
  | cons a items ih => simp [ih]

/-- It does not matter how a fragment is cut into parts. -/
@[simp]
theorem flatten_iff {items : List (List α)} : Taken N items.flatten ↔ Taken N items := by
  induction items with
  | nil => simp
  | cons item items ih => simp [ih]

theorem filter {items : List α} (h : Taken N items) (p : α → Bool) : Taken N (items.filter p) := by
  rw [iff_forall_mem] at h ⊢
  exact fun a ha => h a (List.mem_of_mem_filter ha)

@[simp]
theorem none : Taken N (Option.none : Option α) := fun _ ht => by cases ht

/-- A value that there is has its own tokens. -/
@[simp]
theorem some_iff {a : α} : Taken N (some a) ↔ Taken N a := by
  simp [Taken, Aliased.tokens]

@[simp]
theorem prod_iff {a : α × β} : Taken N a ↔ Taken N a.1 ∧ Taken N a.2 := by
  simp only [Taken, Aliased.tokens, List.forall_mem_append]

theorem ite {p : Prop} [Decidable p] {a b : α} (ha : Taken N a) (hb : Taken N b) :
    Taken N (if p then a else b) := by
  split
  · exact ha
  · exact hb

/-! Fragments -/

/-- Verbatim text has no tokens. -/
@[simp]
theorem raw (s : String) : Taken N (Node.raw s) := fun _ ht => by cases ht

/-- A text in a fragment has no tokens. -/
@[simp]
theorem text (s : String) : Taken N (text s) := by
  rw [Sql.text]
  exact ite nil (by simp)

/-- Parentheses bring in no tokens. -/
@[simp]
theorem parens_iff {f : Fragment} : Taken N (parens f) ↔ Taken N f := by
  simp [parens]

/-- A separator brings in no tokens. -/
@[simp]
theorem join_iff {items : List Fragment} (separator : String) :
    Taken N (join items separator) ↔ Taken N items := by
  rw [Sql.join, flatten_iff]
  induction items with
  | nil => simp
  | cons item rest ih =>
      cases rest with
      | nil => simp
      | cons next rest =>
          rw [cons_iff] at ih
          simp [ih]

end Taken

end PageQuery
