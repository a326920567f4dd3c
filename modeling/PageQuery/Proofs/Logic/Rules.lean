import PageQuery.Builder.Perform
import PageQuery.Proofs.Logic.Scripts
import PageQuery.Proofs.Run.Change

/-!
# Logics of actions

What is shown of all operations is shown by one walk over them.  A logic is what such a walk
needs to know of a judgement on actions: one rule for each way of putting actions together, and
one for each instruction.  The judgement is about two actions, each of which is given a lock;
one about a single action is a judgement on the action and itself.
-/

namespace PageQuery

open Sql

namespace Action

/-- The statement of a page, after its plan. -/
def plannedStatement (lock : Locker) (options : BuildOptions) : Action Statement := do
  statement lock (← plan lock) options

/-- The statement of a page, which is remembered as built. -/
def builtStatement (lock : Locker) (options : BuildOptions) : Action Statement := do
  let statement ← plannedStatement lock options
  remember (.built (← read) statement)
  return statement

/-- What a step does behind its operation: the fragment that this has given is saved. -/
def saving (name : Option String) (answer : Answer) : Action Answer := do
  match name, answer.fragment? with
  | some name, some f => save name f
  | _, _ => pure ()
  return answer

end Action

open Action

/-- A judgement on pairs of actions, with its rules.  `Holds n id cost f f'` says at the stage
`n` that `f` and `f'` stand for each other on the builder with the id, and that `f` leaves
behind at most `cost` more work. -/
structure Logic extends Frame where
  Holds (n : Nat) (id : BuilderId) (cost : Nat) {α : Type} [Likeness α]
    (f f' : Locker → Action α) : Prop
  le {n m : Nat} (hle : n ≤ m) : (likeness n).Le (likeness m)
  op_mono {n m : Nat} (hle : n ≤ m) {o o' : Op} (h : op n o o') : op m o o'
  pure {n : Nat} {id : BuilderId} {α : Type} [Likeness α] {a a' : α}
    (h : Alike (likeness n) a a') : Holds n id 0 (fun _ => Pure.pure a) fun _ => Pure.pure a'
  refuse {n : Nat} {id : BuilderId} {α : Type} [Likeness α] (e : Error) :
    Holds n id 0 (fun _ => (refuse e : Action α)) fun _ => refuse e
  /-- There may be more work left behind. -/
  mono {n : Nat} {id : BuilderId} {cost cost' : Nat} {α : Type} [Likeness α]
    {f f' : Locker → Action α} (hle : cost ≤ cost') (h : Holds n id cost f f') :
    Holds n id cost' f f'
  bind {n : Nat} {id : BuilderId} {cost cost' : Nat} {α β : Type} [Likeness α] [Likeness β]
    {f f' : Locker → Action α} {g g' : α → Locker → Action β} (hf : Holds n id cost f f')
    (hg : ∀ m a a', n ≤ m → Alike (likeness m) a a' → Holds m id cost' (g a) (g' a')) :
    Holds n id (cost + cost') (fun lock => f lock >>= fun a => g a lock) fun lock =>
      f' lock >>= fun a => g' a lock
  attempt {n : Nat} {id : BuilderId} {cost : Nat} {α : Type} [Likeness α]
    {f f' : Locker → Action α} (h : Holds n id cost f f') :
    Holds n id cost (fun lock => attempt (f lock)) fun lock => attempt (f' lock)
  lock {n : Nat} {id : BuilderId} (c : Concern) :
    Holds n id 0 (fun lock => lock c) fun lock => lock c
  /-- A builder is looked at. -/
  inspect {n : Nat} {id : BuilderId} {cost : Nat} {α : Type} [Likeness α]
    {g g' : Builder → Locker → Action α}
    (hg : ∀ m b b', n ≤ m → b.Seen (likeness m) b' → Holds m id cost (g b) (g' b')) :
    Holds n id cost (fun lock => self >>= fun b => g b lock) fun lock => self >>= fun b => g' b lock
  /-- It is asked which builder the actions are on. -/
  identify {n : Nat} {id : BuilderId} {cost : Nat} {α : Type} [Likeness α]
    {g g' : BuilderId → Locker → Action α} (hg : ∀ i, Holds n id cost (g i) (g' i)) :
    Holds n id cost (fun lock => read >>= fun i => g i lock) fun lock => read >>= fun i => g' i lock
  /-- The actions are on a child of the builder. -/
  descend {n : Nat} {id : BuilderId} {cost : Nat} {α : Type} [Likeness α]
    {f f' : Locker → Action α} (name : String) (hf : ∀ id, Holds n id cost f f') :
    Holds n id cost
      (fun lock => self >>= fun b => ofExcept (b.child name) >>= fun child => within child (f lock))
      fun lock => self >>= fun b => ofExcept (b.child name) >>= fun child => within child (f' lock)
  childAnswer {n : Nat} {id : BuilderId} (name : String) :
    Holds n id 0 (fun _ => childAnswer name) fun _ => childAnswer name
  evaluate {n : Nat} {id : BuilderId} {expr : Expr}
    (htokens : ∀ t ∈ expr.tokens, (likeness n).token t) :
    Holds n id 0 (fun _ => evaluate expr) fun _ => evaluate expr
  evaluateNode {n : Nat} {id : BuilderId} {node : NodeExpr}
    (htokens : ∀ t ∈ node.tokens, (likeness n).token t) :
    Holds n id 0 (fun _ => evaluateNode node) fun _ => evaluateNode node
  log {n : Nat} {id : BuilderId} {event : Event} (hother : event.lock? = none) :
    Holds n id 0 (fun _ => log event) fun _ => log event
  record {n : Nat} {id : BuilderId} {o o' : Op} (hop : op n o o') (locks : List Bool)
    {outcome outcome' : Except Error Answer} (houtcome : Alike (likeness n) outcome outcome') :
    Holds n id 0 (fun _ => record (.step o locks outcome)) fun _ =>
      record (.step o' locks outcome')
  save {n : Nat} {id : BuilderId} (name : String) {f f' : Fragment}
    (hf : Alike (likeness n) f f') : Holds n id 0 (fun _ => save name f) fun _ => save name f'
  mintToken {n : Nat} {id : BuilderId} : Holds n id 0 (fun _ => mintToken) fun _ => mintToken
  builtStatement {n : Nat} {id : BuilderId} {options : BuildOptions}
    (h : Holds n id 0 (fun lock => plannedStatement lock options) fun lock =>
      plannedStatement lock options) :
    Holds n id 0 (fun lock => builtStatement lock options) fun lock => builtStatement lock options
  register {n : Nat} {id : BuilderId} {call call' : Call} (h : call.Like toFrame n id call') :
    Holds n id (call.work heaviest) (fun _ => call.action) fun _ => call'.action
  registerSource {n : Nat} {id : BuilderId} {table table' : Fragment}
    (htable : Alike (likeness n) table table') {rowAlias rowAlias' : Option Node}
    (halias : Alike (likeness n) rowAlias rowAlias') (hnamed : rowAlias.isSome = true → named) :
    Holds n id 0 (fun _ => registerSource table rowAlias) fun _ => registerSource table' rowAlias'
  registerComparator {n : Nat} {id : BuilderId} {comparator comparator' : Comparator}
    (h : comparator.Like toFrame n comparator') :
    Holds n id 0 (fun _ => registerComparator comparator) fun _ => registerComparator comparator'
  addChild {n : Nat} {id : BuilderId} (name : String) {table table' : Fragment}
    (htable : Alike (likeness n) table table') {rowAlias rowAlias' : Option Node}
    (halias : Alike (likeness n) rowAlias rowAlias') (hnamed : rowAlias.isSome = true → named) :
    Holds n id builderWeight (fun lock => addChild lock name table rowAlias) fun lock =>
      addChild lock name table' rowAlias'
  addChildSelecting {n : Nat} {id : BuilderId} (name : String) {table table' : Fragment}
    (htable : Alike (likeness n) table table') {rowAlias rowAlias' : Option Node}
    (halias : Alike (likeness n) rowAlias rowAlias') (hnamed : rowAlias.isSome = true → named)
    {expr expr' : Fragment} (hexpr : Alike (likeness n) expr expr') (exprName : String) :
    Holds n id builderWeight (fun lock => addChildSelecting lock name table rowAlias expr exprName)
      fun lock => addChildSelecting lock name table' rowAlias' expr' exprName
  /-- Operations that may stand for each other differ in their scripts only, or it is known of
  them that they do. -/
  op_cases {n : Nat} {o o' : Op} (h : op n o o') :
    o.Like toFrame n o' ∨
      ∀ id, Holds n id (o.work heaviest) (fun lock => perform lock o) fun lock => perform lock o'

namespace Logic

variable (L : Logic) {n m : Nat} {id : BuilderId} {cost cost' : Nat} {α β γ : Type} [Likeness α]
  [Likeness β]

/-! Sequences -/

/-- The first actions leave no work behind. -/
theorem bind_free {f f' : Locker → Action α} {g g' : α → Locker → Action β}
    (hf : L.Holds n id 0 f f')
    (hg : ∀ m a a', n ≤ m → Alike (L.likeness m) a a' → L.Holds m id cost (g a) (g' a')) :
    L.Holds n id cost (fun lock => f lock >>= fun a => g a lock) fun lock =>
      f' lock >>= fun a => g' a lock :=
  L.mono (Nat.zero_add cost).le (L.bind hf hg)

/-- The second actions leave no work behind. -/
theorem then_free {f f' : Locker → Action α} {g g' : α → Locker → Action β}
    (hf : L.Holds n id cost f f')
    (hg : ∀ m a a', n ≤ m → Alike (L.likeness m) a a' → L.Holds m id 0 (g a) (g' a')) :
    L.Holds n id cost (fun lock => f lock >>= fun a => g a lock) fun lock =>
      f' lock >>= fun a => g' a lock :=
  L.bind hf hg

/-- The first actions give what holds no fragments. -/
theorem bind_plain [Likeness.Plain α] {f f' : Locker → Action α} {g g' : α → Locker → Action β}
    (hf : L.Holds n id cost f f') (hg : ∀ m a, n ≤ m → L.Holds m id cost' (g a) (g' a)) :
    L.Holds n id (cost + cost') (fun lock => f lock >>= fun a => g a lock) fun lock =>
      f' lock >>= fun a => g' a lock := by
  refine L.bind hf fun m a a' hle ha => ?_
  obtain rfl := ha.plain
  exact hg m a hle

/-- A plain answer of an action that costs nothing. -/
theorem bind_plain_free [Likeness.Plain α] {f f' : Locker → Action α}
    {g g' : α → Locker → Action β} (hf : L.Holds n id 0 f f')
    (hg : ∀ m a, n ≤ m → L.Holds m id cost (g a) (g' a)) :
    L.Holds n id cost (fun lock => f lock >>= fun a => g a lock) fun lock =>
      f' lock >>= fun a => g' a lock :=
  L.mono (Nat.zero_add cost).le (L.bind_plain hf hg)

/-- Builders are looked at after the first actions. -/
theorem then_inspect {f f' : Locker → Action Unit} {g g' : Builder → Locker → Action α}
    (hf : L.Holds n id 0 f f')
    (hg : ∀ m b b', n ≤ m → b.Seen (L.likeness m) b' → L.Holds m id cost (g b) (g' b')) :
    L.Holds n id cost (fun lock => f lock >>= fun _ => self >>= fun b => g b lock) fun lock =>
      f' lock >>= fun _ => self >>= fun b => g' b lock :=
  L.bind_plain_free hf fun _ _ hle => L.inspect fun _ b b' hle' => hg _ b b' (hle.trans hle')

/-- A value that was computed before is answered, or its error refuses the action. -/
theorem ofExcept {value value' : Except Error α} (h : Alike (L.likeness n) value value') :
    L.Holds n id 0 (fun _ => ofExcept value) fun _ => ofExcept value' := by
  cases h with
  | ok ha => exact L.pure ha
  | error e => exact L.refuse e

/-- What both computations give has a relation of its own. -/
theorem ofExcept_bind {R : γ → γ → Prop} {value value' : Except Error γ}
    {g g' : γ → Locker → Action α} (h : Likeness.Outcomes R value value')
    (hg : ∀ c c', value = .ok c → R c c' → L.Holds n id cost (g c) (g' c')) :
    L.Holds n id cost (fun lock => Action.ofExcept value >>= fun c => g c lock) fun lock =>
      Action.ofExcept value' >>= fun c => g' c lock := by
  cases h with
  | ok hc => exact hg _ _ rfl hc
  | error e => exact L.mono (Nat.zero_le cost) (L.refuse e)

/-- Both runs take the same branch. -/
theorem ite {p : Prop} [Decidable p] {f f' g g' : Locker → Action α}
    (hf : L.Holds n id cost f f') (hg : L.Holds n id cost g g') :
    L.Holds n id cost (fun lock => if p then f lock else g lock) fun lock =>
      if p then f' lock else g' lock := by
  by_cases hp : p
  · simpa only [if_pos hp] using hf
  · simpa only [if_neg hp] using hg

/-- Actions that come first only under a condition. -/
theorem ite_bind {p : Prop} [Decidable p] {f f' : Locker → Action Unit}
    {g g' : Locker → Action α} (hf : L.Holds n id cost f f')
    (hg : ∀ m, n ≤ m → L.Holds m id cost' g g') :
    L.Holds n id (cost + cost') (fun lock => if p then f lock >>= fun _ => g lock else g lock)
      fun lock => if p then f' lock >>= fun _ => g' lock else g' lock :=
  L.ite (L.bind hf fun m _ _ hle _ => hg m hle)
    (L.mono (Nat.le_add_left _ _) (hg n (Nat.le_refl n)))

/-- A guard in front of an action: the two runs are refused together. -/
theorem refuse_or {p : Prop} [Decidable p] (e : Error) {g g' : Locker → Action α}
    (hg : ∀ m, n ≤ m → L.Holds m id cost g g') :
    L.Holds n id cost (fun lock => if p then Action.refuse e >>= fun _ : Unit => g lock else g lock)
      fun lock => if p then Action.refuse e >>= fun _ : Unit => g' lock else g' lock :=
  L.mono (Nat.zero_add cost).le (L.ite_bind (L.refuse e) hg)

theorem discard {f f' : Locker → Action α} (h : L.Holds n id cost f f') :
    L.Holds n id cost (fun lock => Functor.discard (f lock)) fun lock =>
      Functor.discard (f' lock) :=
  L.then_free h fun _ _ _ _ _ => L.pure rfl

/-! Loops -/

/-- An action for every item, where both runs go through the same items. -/
theorem forM {f f' : γ → Locker → Action PUnit} (items : List γ)
    (hitem : ∀ m item, n ≤ m → L.Holds m id 0 (f item) (f' item)) :
    L.Holds n id 0 (fun lock => items.forM fun item => f item lock) fun lock =>
      items.forM fun item => f' item lock := by
  induction items generalizing n with
  | nil => exact L.pure rfl
  | cons item rest ih =>
      refine L.bind_plain_free (hitem n item (Nat.le_refl n)) fun m _ hle => ?_
      exact ih fun m' item hle' => hitem m' item (hle.trans hle')

/-- An action for the item that there may be; the two items may differ. -/
theorem forM_option {R : γ → γ → Prop} {f f' : γ → Locker → Action PUnit} {item item' : Option γ}
    (h : Option.Rel R item item') (hitem : ∀ c c', R c c' → L.Holds n id cost (f c) (f' c')) :
    L.Holds n id (item.toList.length * cost) (fun lock => item.forM fun c => f c lock) fun lock =>
      item'.forM fun c => f' c lock := by
  cases h with
  | none => exact L.mono (Nat.zero_le _) (L.pure rfl)
  | some h => exact L.mono (Nat.one_mul cost).ge (hitem _ _ h)

theorem forM_some {f : γ → Locker → Action PUnit} (item : Option γ)
    (hitem : ∀ c, L.Holds n id 0 (f c) (f c)) :
    L.Holds n id 0 (fun lock => item.forM fun c => f c lock) fun lock =>
      item.forM fun c => f c lock := by
  cases item with
  | none => exact L.pure rfl
  | some c => exact hitem c

/-- A path is followed from child to child, and the same names lead both runs on. -/
theorem follow {f f' : Locker → Action α} (names : List String)
    (hf : ∀ id, L.Holds n id cost f f') :
    L.Holds n id cost (fun lock => follow names (f lock)) fun lock => follow names (f' lock) := by
  induction names generalizing id with
  | nil => exact hf id
  | cons name names ih => exact L.descend name fun id => ih

/-! Instructions -/

/-- An expression for an alias, if there is one. -/
theorem evaluateNode? {node : Option NodeExpr}
    (htokens : ∀ t ∈ Aliased.tokens node, (L.likeness n).token t) :
    L.Holds n id 0 (fun _ => evaluateNode? node) fun _ => evaluateNode? node := by
  cases node with
  | none => exact L.pure .none
  | some node =>
      have hnode : ∀ t ∈ node.tokens, (L.likeness n).token t := by
        simpa [Aliased.tokens] using htokens
      refine L.bind_free (L.evaluateNode hnode) fun _ _ _ _ hvalue => ?_
      exact L.pure (.some hvalue)

/-- Where no alias is written, none is given. -/
theorem evaluateNode?_bind {rowAlias : Option NodeExpr}
    (htokens : ∀ t ∈ Aliased.tokens rowAlias, (L.likeness n).token t)
    (hnamed : rowAlias.isSome = true → L.named) {g g' : Option Node → Locker → Action α}
    (hg : ∀ m node node', n ≤ m → Alike (L.likeness m) node node' →
      (node.isSome = true → L.named) → L.Holds m id cost (g node) (g' node')) :
    L.Holds n id cost (fun lock => Action.evaluateNode? rowAlias >>= fun node => g node lock)
      fun lock => Action.evaluateNode? rowAlias >>= fun node => g' node lock := by
  cases rowAlias with
  | none => exact hg n none none (Nat.le_refl n) .none nofun
  | some rowAlias =>
      refine L.bind_free (L.evaluateNode? htokens) fun m node node' hle hnode => ?_
      exact hg m node node' hle hnode fun _ => hnamed rfl

/-- The check of a concern, which changes nothing. -/
theorem checkLock (c : Concern) :
    L.Holds n id 0 (fun _ => checkLock c) fun _ => checkLock c := by
  refine L.inspect fun m b b' _ hb => ?_
  rw [hb.locked]
  exact L.ite (L.refuse _) (L.pure rfl)

end Logic

end PageQuery
