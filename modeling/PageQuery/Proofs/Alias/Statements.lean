import Mathlib.Logic.Equiv.Basic
import PageQuery.Proofs.Alias.Locking

/-!
# Fresh aliases do not show

A build that gives an array names it by a fresh alias token.  Nothing else in the statement
holds this token, so to put another fresh token in its place is to swap two tokens, and the
statement compiles to the same.
-/

namespace PageQuery

open Sql

variable {N : Nat} {t t' : AliasToken}

namespace Taken

/-- To swap two fresh tokens changes nothing. -/
theorem rename_swap {f : Fragment} (hf : Taken N f) (ht : N ≤ t.id) (ht' : N ≤ t'.id) :
    rename (Equiv.swap t t') f = f := by
  refine rename_of_fixed fun u hu => Equiv.swap_apply_of_ne_of_ne ?_ ?_
  · rintro rfl
    exact Nat.not_lt_of_le ht (hf u hu)
  · rintro rfl
    exact Nat.not_lt_of_le ht' (hf u hu)

/-- To swap two fresh tokens turns an array named by one of them into that named by the
other. -/
theorem rename_aggregate {s : Statement} (hs : Taken N s) (ht : N ≤ t.id) (ht' : N ≤ t'.id)
    (numbered : Bool) :
    rename (Equiv.swap t t') (s.aggregate t numbered) = s.aggregate t' numbered := by
  have hstatement : rename (Equiv.swap t t') s.fragment = s.fragment :=
    rename_swap hs ht ht'
  have hrow : rename (Equiv.swap t t') [aliasNode t] = [aliasNode t'] := by
    simp [rename, aliasNode, Node.rename, IdentPart.rename]
  have hcolumn (name : String) :
      rename (Equiv.swap t t') ((aliasNode t).column name) = (aliasNode t').column name := by
    simp [rename, aliasNode, Node.column, Node.rename, IdentPart.rename]
  cases numbered <;>
    simp only [Statement.aggregate, rename_append, rename_text, hstatement, hrow, hcolumn,
      Bool.false_eq_true, if_true, if_false]

end Taken

/-- Two computations that begin alike come to the same if their rests do. -/
theorem map_bind_congr {α β γ : Type} {value : Except Error α} {f g : α → Except Error β}
    {view : β → γ} (hrest : ∀ a, value = .ok a → (f a).map view = (g a).map view) :
    (value >>= f).map view = (value >>= g).map view := by
  cases value with
  | error e => rfl
  | ok a => exact hrest a rfl

namespace Builder

variable {b : Builder} {options : BuildOptions}

/-- What a build gives compiles to the same whatever fresh token it uses. -/
theorem compile_builtOf
    (hs : PageQuery.Alike (.below N) (b.pageStatement options) (b.pageStatement options))
    (ht : N ≤ t.id) (ht' : N ≤ t'.id) :
    (b.builtOf options t).map (fun built => compile built.fragment) =
      (b.builtOf options t').map fun built => compile built.fragment := by
  rw [builtOf, builtOf]
  split
  · rfl
  · refine map_bind_congr fun s hstatement => ?_
    cases options.asJsonAggregate with
    | false => rfl
    | true =>
        rw [hstatement] at hs
        obtain ⟨hs⟩ := hs
        have htaken : Taken N s := hs.statementFragment.taken
        have hcompile := compile_rename (Equiv.swap t t').injective
          (s.aggregate t (Built.isNumbered s))
        rw [htaken.rename_aggregate ht ht'] at hcompile
        exact congrArg Except.ok hcompile.symm

/-- A page with its flags compiles to the same whatever fresh token it uses. -/
theorem compile_connectionOf
    (hs : ∀ options,
      PageQuery.Alike (.below N) (b.pageStatement options) (b.pageStatement options))
    (hflag : ∀ flag isLower,
      PageQuery.Alike (.below N) (b.flagOf flag isLower options) (b.flagOf flag isLower options))
    (ht : N ≤ t.id) (ht' : N ≤ t'.id) :
    (b.connectionOf options t).map (fun connection => compile connection.fragment) =
      (b.connectionOf options t').map fun connection => compile connection.fragment := by
  rw [connectionOf, connectionOf]
  refine map_bind_congr fun s hstatement => map_bind_congr fun plan _ => ?_
  refine map_bind_congr fun next hnext => map_bind_congr fun previous hprevious => ?_
  have hpage : rename (Equiv.swap t t') (Built.aggregate s t).fragment =
      (Built.aggregate s t').fragment := by
    have hpage := hs { options with
      asJson := false, asJsonAggregate := true, onlyJsonField := false }
    rw [hstatement] at hpage
    obtain ⟨hpage⟩ := hpage
    have htaken : Taken N s := hpage.statementFragment.taken
    exact htaken.rename_aggregate ht ht' _
  have hsame {flag : PageFlag} {isLower : Bool} {expr : FlagExpr}
      (hexpr : b.flagOf flag isLower options = .ok expr) :
      rename (Equiv.swap t t') expr.fragment = expr.fragment := by
    have hexpr' := hflag flag isLower
    rw [hexpr] at hexpr'
    obtain ⟨hexpr'⟩ := hexpr'
    have htaken : Taken N expr.fragment := hexpr'.flagFragment.taken
    exact htaken.rename_swap ht ht'
  have hcompile := compile_rename (Equiv.swap t t').injective
    (ConnectionStatement.mk (.aggregate s t) next previous).fragment
  simp only [ConnectionStatement.fragment, rename_append, rename_text, hpage, hsame hnext,
    hsame hprevious] at hcompile
  exact congrArg Except.ok hcompile.symm

end Builder

namespace World

open PageQuery.Action

variable {w : World} {id : BuilderId}

/-- The statement of a finalized builder holds only tokens that have been given out. -/
theorem Minted.pageStatement (h : w.Minted) (hlocked : ∀ c, (w.builder id).locked c = true)
    (options : BuildOptions) :
    PageQuery.Alike (.below w.nextToken) ((w.builder id).pageStatement options)
      ((w.builder id).pageStatement options) := by
  have hstatement : Confined w.nextToken id (plannedStatement (lockWith 0) options) :=
    (confines_lockWith 0).logic.plannedStatement options
  exact hstatement.alike_of_outcome (Nat.le_refl _) h
    (exec_pageStatement (idle_lockWith 0) hlocked options)

/-- The flags of a finalized builder hold only tokens that have been given out. -/
theorem Minted.flagOf (h : w.Minted) (hlocked : ∀ c, (w.builder id).locked c = true)
    (flag : PageFlag) (isLower : Bool) (options : BuildOptions) :
    PageQuery.Alike (.below w.nextToken) ((w.builder id).flagOf flag isLower options)
      ((w.builder id).flagOf flag isLower options) := by
  have hflag : Confined w.nextToken id (flagExpression (lockWith 0) flag isLower options) :=
    (confines_lockWith 0).logic.flagExpression flag isLower options
  exact hflag.alike_of_outcome (Nat.le_refl _) h
    (exec_flagExpression (idle_lockWith 0) hlocked flag isLower options)

end World

end PageQuery
