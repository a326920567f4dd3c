import PageQuery.Proofs.Draft.Setup
import PageQuery.Proofs.Run.Path

/-!
# Configured worlds

The worlds of runs that tell the first builder what it needs and ask nothing of it: a row
source, changes with ready values, and at most one connection.  Its builder is that of a
draft in which nothing else has begun.
-/

namespace PageQuery

open Sql PageQuery.Action

namespace World

variable {w w' : World} {s : Step}

theorem exec_of_succeeds (hpath : s.path = []) (hsucceeds : (w.step s).1.Succeeds) :
    ∃ a w', (Action.perform (lockWith (w.budget s)) s.op).exec root w.quiet = (.ok a, w') ∧
      (w.step s).2.builder root = w'.builder root := by
  obtain ⟨a, ha⟩ := hsucceeds
  obtain ⟨w', hrun⟩ := exec_of_step_ok (leads_root hpath) ha
  obtain ⟨-, saved, hworld⟩ := step_of_ok (leads_root hpath) hrun
  exact ⟨a, w', hrun, by rw [hworld]; rfl⟩

/-- A step gives what its operation gives on the builder. -/
theorem step_of_gives {result : Except Error Answer} {b : Builder} (hpath : s.path = [])
    (hgives : Gives root w.saved (w.builder root)
      (Action.perform (lockWith (w.budget s)) s.op) result b) :
    (w.step s).1.outcome = .ok result ∧ (w.step s).2.builder root = b ∧
      (w.step s).2.nextToken = w.nextToken := by
  obtain ⟨w', hrun, hb, -, htoken⟩ := hgives w.quiet rfl rfl
  cases result with
  | ok a =>
      obtain ⟨houtcome, saved, hworld⟩ := step_of_ok (leads_root hpath) hrun
      rw [hworld]
      exact ⟨houtcome, hb, htoken⟩
  | error e =>
      obtain ⟨houtcome, hworld⟩ := step_of_error (leads_root hpath) hrun
      rw [hworld]
      exact ⟨houtcome, hb, htoken⟩

theorem not_succeeds_of_halt {halt : Halt} (hpath : s.path = [])
    (hrun : (Action.perform (lockWith (w.budget s)) s.op).exec root w.quiet = (.error halt, w')) :
    ¬(w.step s).1.Succeeds := by
  rintro ⟨a, ha⟩
  obtain ⟨w₁, hrun'⟩ := exec_of_step_ok (leads_root hpath) ha
  rw [hrun] at hrun'
  cases hrun'

theorem step_of_halts (hpath : s.path = [])
    (hhalts : Halts root w.saved (w.builder root)
      (Action.perform (lockWith (w.budget s)) s.op)) : ¬(w.step s).1.Succeeds := by
  obtain ⟨halt, w', hrun⟩ := hhalts w.quiet rfl rfl
  exact not_succeeds_of_halt hpath hrun

/-- What a step that succeeds leaves behind. -/
theorem step_of_ends {good : Prop} {post : Answer → Builder → Prop} (hpath : s.path = [])
    (hends : Ends root w.saved (w.builder root)
      (Action.perform (lockWith (w.budget s)) s.op) good post) (hsucceeds : (w.step s).1.Succeeds) :
    ∃ a, post a ((w.step s).2.builder root) := by
  rcases hends with ⟨a, b, hturns, hpost⟩ | ⟨-, hhalts⟩
  · have hgives : Gives root w.saved (w.builder root)
        (Action.perform (lockWith (w.budget s)) s.op) (.ok a) b := hturns
    refine ⟨a, ?_⟩
    rwa [(step_of_gives hpath hgives).2.1]
  · exact absurd hsucceeds (step_of_halts hpath hhalts)

/-- The worlds of runs that only tell the first builder something: whether it has its row
source, and the connection that was set up. -/
inductive Configured : Bool → Option (ConnectionSetup × ConnectionArgs) → World → Prop
  | start (options : Options) (tokens : Nat) : Configured false none (start options tokens)
  | sourced {connection : Option (ConnectionSetup × ConnectionArgs)} {w : World} {s : Step}
      {table : Expr} {rowAlias : Option NodeExpr} (hconfigured : Configured false connection w)
      (hpath : s.path = []) (hop : s.op = .source table rowAlias)
      (hsucceeds : (w.step s).1.Succeeds) : Configured true connection (w.step s).2
  | told {sourced : Bool} {connection : Option (ConnectionSetup × ConnectionArgs)} {w : World}
      {s : Step} (hconfigured : Configured sourced connection w) (hpath : s.path = [])
      (hop : s.op.tells = true) (hsucceeds : (w.step s).1.Succeeds) :
      Configured sourced connection (w.step s).2
  | connected {sourced : Bool} {w : World} {s : Step} {setup : ConnectionSetup}
      {args : ConnectionArgs} (hconfigured : Configured sourced none w) (hpath : s.path = [])
      (hop : s.op = .setUpConnection setup args) (hsucceeds : (w.step s).1.Succeeds) :
      Configured sourced (some (setup, args)) (w.step s).2

/-- The draft has the key and the cursors of the connection. -/
def FitsDraft (connection : Option (ConnectionSetup × ConnectionArgs)) (d : Draft) : Prop :=
  ∀ setup args, connection = some (setup, args) →
    d.primaryKey = setup.primaryKey ∧ args.cursors = .ok ⟨d.after, d.before⟩

theorem FitsDraft.continues {connection : Option (ConnectionSetup × ConnectionArgs)}
    {d d' : Draft} (hfits : FitsDraft connection d) (hcontinues : d'.Continues d) :
    FitsDraft connection d' := by
  intro setup args hconnection
  rw [hcontinues.primaryKey, hcontinues.after, hcontinues.before]
  exact hfits setup args hconnection

theorem told_start (options : Options) (tokens : Nat) :
    (start options tokens).builder root =
      (Draft.blank options).told false false ((Draft.blank options).queue false) := by
  have hlocked : (fun c => (Progress.begun false false c).isLocked) = fun _ => false := by
    funext c
    cases c <;> rfl
  have hqueue : (Draft.blank options).queue false = Builder.initialCallbacks := by
    funext c
    cases c <;> rfl
  rw [builder_start, Draft.told, hlocked, hqueue]
  rfl

/-- The builder of a configured world is that of a draft. -/
theorem Configured.exists_told {sourced : Bool}
    {connection : Option (ConnectionSetup × ConnectionArgs)} {w : World}
    (hconfigured : Configured sourced connection w) :
    ∃ d : Draft, w.builder root = d.told sourced connection.isSome (d.queue connection.isSome) ∧
      FitsDraft connection d := by
  induction hconfigured with
  | start options tokens =>
      exact ⟨.blank options, told_start options tokens, fun _ _ h => by cases h⟩
  | @sourced connection w s table rowAlias _ hpath hop hsucceeds ih =>
      obtain ⟨d, hb, hfits⟩ := ih
      obtain ⟨fuel, hfuel⟩ := w.exists_budget s
      obtain ⟨a, w', hrun, hbuilder⟩ := exec_of_succeeds hpath hsucceeds
      rw [hfuel, hop] at hrun
      have hquiet : w.quiet.builder root =
          d.told false connection.isSome (d.queue connection.isSome) := hb
      obtain ⟨table, rowAlias, hb'⟩ := Draft.exec_source hquiet rfl hrun
      have hcontinues : Draft.Continues { d with table, rowAlias } d := ⟨rfl, rfl, rfl⟩
      refine ⟨_, ?_, hfits.continues hcontinues⟩
      rw [hbuilder, hb', hcontinues.queue]
  | @told sourced connection w s _ hpath hop hsucceeds ih =>
      obtain ⟨d, hb, hfits⟩ := ih
      have htells : Draft.Tells root w.saved sourced connection.isSome
          (d.queue connection.isSome) d (Action.perform (lockWith (w.budget s)) s.op) :=
        Draft.tells_perform hop _
      rw [Draft.Tells, ← hb] at htells
      obtain ⟨_, d', hb', hcontinues⟩ := step_of_ends hpath htells hsucceeds
      refine ⟨d', ?_, hfits.continues hcontinues⟩
      rw [hb', hcontinues.queue]
  | @connected sourced w s setup args _ hpath hop hsucceeds ih =>
      obtain ⟨d, hb, -⟩ := ih
      obtain ⟨fuel, hfuel⟩ := w.exists_budget s
      have hends : Ends root w.saved (w.builder root)
          (Action.perform (lockWith (w.budget s)) s.op) False
          fun _ b => ∃ d', b = Draft.told d' sourced true (d'.queue true) ∧
            d'.primaryKey = setup.primaryKey ∧ args.cursors = .ok ⟨d'.after, d'.before⟩ := by
        rw [hop, hfuel, hb]
        apply Ends.bind (Draft.ends_setUpConnection setup args (fuel + 6))
        exact fun _ _ hend => Ends.of_turns (Turns.pure _) hend
      obtain ⟨_, d', hb', hkey, hcursors⟩ := step_of_ends hpath hends hsucceeds
      refine ⟨d', hb', fun setup' args' hsame => ?_⟩
      cases hsame
      exact ⟨hkey, hcursors⟩

end World

end PageQuery
