import PageQuery.Proofs.Alias.Builders
import PageQuery.Proofs.Run.Exec

/-!
# Actions and aliases

The alias tokens in a world have all been given out: they are below the next one.  An action
is confined if it keeps this up and answers with tokens that have been given out, provided
that those it is handed have been.
-/

namespace PageQuery

open Sql

namespace World

/-- Every alias token in the world has been given out. -/
structure Minted (w : World) : Prop where
  builder : ∀ id, (w.builder id).Within w.nextToken
  saved : Taken w.nextToken w.saved

variable {w : World}

/-- A builder may be replaced by one that has only tokens that have been given out. -/
theorem Minted.setBuilder (h : w.Minted) (id : BuilderId) {b : Builder}
    (hb : b.Within w.nextToken) : (w.setBuilder id b).Minted where
  builder other := holds_setBuilder (·.Within w.nextToken) (fun _ _ => hb) (h.builder other)
  saved := h.saved

/-- A new builder under a new id. -/
theorem Minted.spawned (h : w.Minted) {b : Builder} (hb : b.Within w.nextToken) :
    (w.spawned b).Minted where
  builder other := by
    rw [builder_spawned]
    split
    · exact hb
    · exact h.builder other
  saved := h.saved

end World

namespace Action

/-- The action keeps to the tokens that have been given out, in a world where at least those
below `N` have been. -/
def Confined {α : Type} [Likeness α] (N : Nat) (id : BuilderId) (action : Action α) : Prop :=
  ∀ ⦃w : World⦄, N ≤ w.nextToken → w.Minted →
    w.nextToken ≤ (action.exec id w).2.nextToken ∧ (action.exec id w).2.Minted ∧
      Alike (.below (action.exec id w).2.nextToken) (action.exec id w).1 (action.exec id w).1

namespace Confined

variable {α β γ : Type} [Likeness α] [Likeness β] {N M : Nat} {id : BuilderId}

/-- Where more tokens have been given out, an action has more to use. -/
theorem mono {action : Action α} (h : Confined N id action) (hle : N ≤ M) :
    Confined M id action := fun _ hM => h (Nat.le_trans hle hM)

/-- An answer that is already known. -/
theorem pure {a : α} (ha : Alike (.below N) a a) : Confined N id (Pure.pure a) := fun _ hN h =>
  ⟨Nat.le_refl _, h, .ok (ha.mono (Variation.below_le hN))⟩

theorem refuse (e : Error) : Confined N id (refuse e : Action α) := fun _ _ h =>
  ⟨Nat.le_refl _, h, .error _⟩

theorem exhaust : Confined N id (exhaust : Action α) := fun _ _ h =>
  ⟨Nat.le_refl _, h, .error _⟩

/-- A value that was computed without the world. -/
theorem ofExcept {value : Except Error α} (h : Alike (.below N) value value) :
    Confined N id (ofExcept value) := by
  cases h with
  | error e => exact refuse e
  | ok ha => exact pure ha

/-- The tokens below `M` are those that have been given out when the second action starts. -/
theorem bind {action : Action α} {next : α → Action β} (hfirst : Confined N id action)
    (hnext : ∀ M a, N ≤ M → Alike (.below M) a a → Confined M id (next a)) :
    Confined N id (action >>= next) := by
  intro w hN h
  obtain ⟨hgrows, hmiddle, hvalue⟩ := hfirst hN h
  rw [exec_bind]
  generalize action.exec id w = result at hgrows hmiddle hvalue
  obtain ⟨halt | a, middle⟩ := result
  · exact ⟨hgrows, hmiddle, .error _⟩
  · obtain ⟨ha⟩ := hvalue
    obtain ⟨hgrows', hafter⟩ := hnext _ a (Nat.le_trans hN hgrows) ha (Nat.le_refl _) hmiddle
    exact ⟨Nat.le_trans hgrows hgrows', hafter⟩

/-- A second action that makes no use of the tokens in an answer. -/
theorem andThen {action : Action α} {next : α → Action β}
    (hfirst : Confined N id action) (hnext : ∀ a, Confined N id (next a)) :
    Confined N id (action >>= next) :=
  hfirst.bind fun _ a hle _ => (hnext a).mono hle

/-- The builder that is looked at has only tokens that have been given out by then. -/
theorem self_bind {next : Builder → Action α}
    (hnext : ∀ M b, N ≤ M → b.Within M → Confined M id (next b)) :
    Confined N id (self >>= next) := fun w hN h =>
  hnext w.nextToken (w.builder id) hN (h.builder id) (Nat.le_refl _) h

/-- The builder is looked at once the first action is done. -/
theorem then_self {action : Action Unit} {next : Builder → Action α}
    (h : Confined N id action) (hnext : ∀ M b, N ≤ M → b.Within M → Confined M id (next b)) :
    Confined N id (action >>= fun _ => self >>= next) :=
  h.bind fun _ _ hle _ => self_bind fun M b hle' => hnext M b (Nat.le_trans hle hle')

theorem read_bind {next : BuilderId → Action α} (hnext : Confined N id (next id)) :
    Confined N id (MonadReader.read >>= next) := hnext

/-- A question about the world. -/
theorem get_bind {next : World → Action α} (hnext : ∀ w, Confined N id (next w)) :
    Confined N id (MonadState.get >>= next) := fun w hN h => hnext w hN h

theorem ite {p : Prop} [Decidable p] {yes no : Action α} (hyes : Confined N id yes)
    (hno : Confined N id no) : Confined N id (if p then yes else no) := by
  split
  · exact hyes
  · exact hno

/-- A guard in front of an action. -/
theorem refuse_or {p : Prop} [Decidable p] {e : Error} {next : Unit → Action α}
    (hnext : Confined N id (next ())) :
    Confined N id (if p then Action.refuse e >>= next else next ()) :=
  ite ((refuse e).andThen fun _ => hnext) hnext

/-- An error has no tokens, so it makes no difference whether it is caught. -/
theorem attempt {action : Action α} (h : Confined N id action) :
    Confined N id (attempt action) := by
  intro w hN hw
  obtain ⟨hgrows, hminted, hvalue⟩ := h hN hw
  rw [exec_attempt]
  generalize action.exec id w = result at hgrows hminted hvalue ⊢
  obtain ⟨(e | _) | a, w₁⟩ := result
  · exact ⟨hgrows, hminted, .ok (.error e)⟩
  · exact ⟨hgrows, hminted, .error _⟩
  · obtain ⟨ha⟩ := hvalue
    exact ⟨hgrows, hminted, .ok (.ok ha)⟩

/-! Instructions -/

/-- The action answers nothing and gives out no tokens. -/
theorem of_minted {action : Action Unit}
    (hanswer : ∀ w, (action.exec id w).1 = .ok ())
    (hsame : ∀ w, (action.exec id w).2.nextToken = w.nextToken)
    (hminted : ∀ w : World, N ≤ w.nextToken → w.Minted → (action.exec id w).2.Minted) :
    Confined N id action := by
  intro w hN h
  rw [hanswer, hsame]
  exact ⟨Nat.le_refl _, hminted w hN h, .ok (.of_plain ())⟩

/-- A change of the builder that brings in no tokens of its own. -/
theorem update {change : Builder → Builder}
    (hchange : ∀ M b, N ≤ M → b.Within M → (change b).Within M) :
    Confined N id (update change) :=
  of_minted (fun _ => rfl) (fun _ => rfl) fun _ hN h =>
    h.setBuilder id (hchange _ _ hN (h.builder id))

theorem log (event : Event) : Confined N id (log event) :=
  of_minted (fun _ => rfl) (fun _ => rfl) fun _ _ h => ⟨h.builder, h.saved⟩

theorem record (entry : Entry) : Confined N id (record entry) :=
  of_minted (fun _ => rfl) (fun _ => rfl) fun _ _ h => ⟨h.builder, h.saved⟩

theorem remember (moment : Moment) : Confined N id (remember moment) :=
  of_minted (fun _ => rfl) (fun _ => rfl) fun _ _ h => ⟨h.builder, h.saved⟩

/-- A fragment is saved for later scripts. -/
theorem save (name : String) {f : Fragment} (hf : Taken N f) : Confined N id (save name f) := by
  refine of_minted (fun _ => rfl) (fun _ => rfl) fun w hN h => ⟨h.builder, ?_⟩
  have hentry : Taken w.nextToken (name, f) := Taken.prod_iff.mpr ⟨.none_in name, hf.mono hN⟩
  exact Taken.cons_iff.mpr ⟨hentry, h.saved⟩

/-- A token is given out when it is minted. -/
theorem mintToken : Confined N id mintToken := by
  intro w _ h
  have hle : w.nextToken ≤ w.nextToken + 1 := Nat.le_succ _
  have htoken : Taken (w.nextToken + 1) (⟨w.nextToken⟩ : AliasToken) :=
    List.forall_mem_singleton.mpr (Nat.lt_succ_self _)
  exact ⟨hle, ⟨fun id => (h.builder id).mono hle, h.saved.mono hle⟩, .ok htoken.alike⟩

/-- The new builder is handed the alias of its parent. -/
theorem spawn {b : Builder} (hb : b.Within N) : Confined N id (spawn b) := fun _ hN h =>
  ⟨Nat.le_refl _, h.spawned (hb.mono hN), .ok (.of_plain _)⟩

/-- An action on another builder. -/
theorem within {action : Action α} {other : BuilderId} (h : Confined N other action) :
    Confined N id (within other action) := h

/-! Actions for every item -/

theorem forM_option [Aliased γ] {f : γ → Action PUnit} {item : Option γ} (h : Taken N item)
    (hitem : ∀ c, Taken N c → Confined N id (f c)) : Confined N id (item.forM f) := by
  cases item with
  | none => exact pure (.of_plain _)
  | some c => exact hitem c (Taken.some_iff.mp h)

/-- The answers for earlier items stay confined while later ones give out more tokens. -/
theorem mapM [Aliased γ] {f : γ → Action α} {items : List γ} (h : Taken N items)
    (hitem : ∀ M c, Taken M c → Confined M id (f c)) : Confined N id (items.mapM f) := by
  induction items generalizing N with
  | nil => exact pure .nil
  | cons item rest ih =>
      obtain ⟨hfirst, hrest⟩ := Taken.cons_iff.mp h
      rw [List.mapM_cons]
      refine (hitem _ _ hfirst).bind fun M a hle ha => ?_
      refine (ih (hrest.mono hle)).bind fun M' others hle' hothers => ?_
      exact pure (.cons (ha.mono (Variation.below_le hle')) hothers)

theorem mapM_option [Aliased γ] {f : γ → Action α} {item : Option γ} (h : Taken N item)
    (hitem : ∀ c, Taken N c → Confined N id (f c)) : Confined N id (item.mapM f) := by
  cases item with
  | none => exact pure .none
  | some c =>
      refine (hitem c (Taken.some_iff.mp h)).bind fun M a _ ha => ?_
      exact pure (.some ha)

/-! Expressions -/

/-- An action that only asks. -/
theorem of_outcome {action : Action α} {value : World → Except Halt α}
    (hrun : ∀ w, action.exec id w = (value w, w))
    (hvalue : ∀ w : World, N ≤ w.nextToken → w.Minted →
      Alike (.below w.nextToken) (value w) (value w)) :
    Confined N id action := by
  intro w hN h
  rw [hrun]
  exact ⟨Nat.le_refl _, h, hvalue w hN h⟩

/-- What a confined action answers without help of the world. -/
theorem alike_of_outcome {action : Action α} {value : Except Error α} {w : World}
    (h : Confined N id action) (hN : N ≤ w.nextToken) (hw : w.Minted)
    (hrun : action.exec id w = outcome value w) : Alike (.below w.nextToken) value value := by
  have hanswer := (h hN hw).2.2
  rw [hrun] at hanswer
  cases value with
  | error e => exact .error e
  | ok a =>
      obtain ⟨ha⟩ := hanswer
      exact .ok ha

/-- An expression can show only the tokens that are written in it and those in scope. -/
theorem evaluate {expr : Expr} (hexpr : Taken N expr) : Confined N id (evaluate expr) := by
  refine of_outcome (fun _ => exec_evaluate expr) fun w hN h => ?_
  exact ((h.builder id).seen.scope h.saved.alike).eval (hexpr.mono hN)

/-- An alias is written out or in scope. -/
theorem evaluateNode {node : NodeExpr} (hnode : Taken N node) :
    Confined N id (evaluateNode node) := by
  refine of_outcome (fun _ => exec_evaluateNode node) fun w hN h => ?_
  exact (((h.builder id).seen.scope h.saved.alike).evalNode (hnode.mono hN)).mapError Halt.refused

end Confined

end Action

end PageQuery
