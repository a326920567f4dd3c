import Mathlib
import PageQuery.Proofs.Alias.Locking
import PageQuery.Proofs.Alias.Sources
import PageQuery.Proofs.Sql.Numbering

/-!
# No alias is captured

A child's statement may stand inside that of its parent, and then both row sources are in
scope.  Main statement: in a run that leaves every alias to a token, no two row sources share
one, no array shares one with a row source of any time, and all that are given out later are
new; and a child names its parent's row source right exactly if this has not been registered
anew since the child has its own.
-/

namespace PageQuery

open Sql

namespace Action

open World

variable {past w w' : World} {id : BuilderId} {fuel : Nat} {o : BuildOptions}
variable {s : Statement} {t : AliasToken}

/-- The statement of a page, once everything is locked. -/
def lockedStatement (lock : Locker) (o : BuildOptions) : Action Statement := do
  lockEverything lock
  statement lock (← plan lock) o

/-- A build that gives an array takes the next token behind the statement. -/
theorem exec_build_aggregate {lock : Locker}
    (hrun : (build lock o).exec id w = (.ok (.aggregate s t), w')) :
    ∃ middle history, (lockedStatement lock o).exec id w = (.ok s, middle) ∧
      t = ⟨middle.nextToken⟩ ∧ w' = { middle with nextToken := middle.nextToken + 1, history } := by
  rw [build] at hrun
  obtain ⟨_, _, hlock, hrest⟩ := exec_bind_eq_ok hrun
  rw [exec_ite] at hrest
  split at hrest
  · obtain ⟨_, _, _, hobject⟩ := exec_bind_eq_ok hrest
    cases hobject
  obtain ⟨_, _, hplan, hrest⟩ := exec_bind_eq_ok hrest
  obtain ⟨_, middle, hstatement, hrest⟩ := exec_bind_eq_ok hrest
  rw [exec_bind_ok exec_read, exec_bind_ok (exec_remember _), exec_ite] at hrest
  split at hrest
  · rw [exec_bind_ok exec_mintToken] at hrest
    cases hrest
    exact ⟨middle, _, by rw [lockedStatement, exec_bind_ok hlock, exec_bind_ok hplan, hstatement],
      rfl, rfl⟩
  · cases hrest

/-- The token that an array is named by has not been given out before, and no row source has
it. -/
theorem token_of_aggregate (h : w.ApartSince past)
    (hrun : (build (lockWith fuel) o).exec id w = (.ok (.aggregate s t), w')) :
    w.nextToken ≤ t.id ∧ t.id < w'.nextToken ∧ w'.ApartSince past ∧
      ∀ i u, (w'.builder i).HasAlias u → u.id < t.id := by
  obtain ⟨middle, _, hstatement, rfl, rfl⟩ := exec_build_aggregate hrun
  have hprogram : Program False fun lock => lockedStatement lock o := by
    apply Program.bind (Program.of_logic (Program.logic False).lockEverything)
    intro _
    exact Program.of_logic ((Program.logic False).plannedStatement o)
  have hmiddle {past : World} (h : w.ApartSince past) : middle.ApartSince past := by
    have hkeeps : KeepsApart past (lockedStatement (lockWith fuel) o) :=
      hprogram.keepsApart_lockWith fuel
    have hkept := @hkeeps id w h
    rw [hstatement] at hkept
    exact hkept (by simp)
  exact ⟨(hmiddle h.refl).grows, Nat.lt_succ_self _,
    (hmiddle h).of_builder (Nat.le_succ _) fun _ => rfl, fun i u hu => ((hmiddle h).fresh i u hu).1⟩

/-- The statement whose rows an array holds knows nothing of the token of the array. -/
theorem taken_of_aggregate (h : w.Minted)
    (hrun : (build (lockWith fuel) o).exec id w = (.ok (.aggregate s t), w')) : Taken t.id s := by
  obtain ⟨middle, _, hstatement, rfl, -⟩ := exec_build_aggregate hrun
  have hconfines := confines_lockWith fuel
  have hconfined : Confined w.nextToken id (lockedStatement (lockWith fuel) o) := by
    have heverything : Confined w.nextToken id (lockEverything (lockWith fuel)) :=
      hconfines.logic.lockEverything
    exact heverything.andThen fun _ => hconfines.logic.plannedStatement o
  obtain ⟨-, -, htaken⟩ := hconfined (Nat.le_refl _) h
  rw [hstatement] at htaken
  obtain ⟨hs⟩ := htaken
  exact hs.statementFragment.taken

end Action

namespace World

open PageQuery.Action

/-- The alias by which a child knows its parent's row source is that of the source exactly if the
source's is older than the child's. -/
theorem ApartSince.knows_iff {past w : World} (h : w.ApartSince past) (hfirst : w.ParentsFirst)
    {i : BuilderId} {ref : ParentRef} (href : (w.builder i).parent = some ref) :
    ∃ own current, (w.builder i).HasAlias own ∧ (w.builder ref.id).HasAlias current ∧
      ∃ known, ref.tableAlias = aliasNode known ∧ (known = current ↔ current.id < own.id) := by
  obtain ⟨-, known, own, current, hknown, hown, hcurrent, hage, hages⟩ := h.linked i ref href
  refine ⟨own, current, hown, hcurrent, known, hknown, fun hsame => hsame ▸ hage, fun hold => ?_⟩
  rcases hages (Nat.ne_of_lt (hfirst i ref href)) with hsame | hyoung
  · exact hsame.symm
  · exact absurd hyoung (Nat.lt_asymm hold)

/-- No row source has the token and no array is named by it, behind any further steps that
leave aliases to tokens. -/
def Spent (w : World) (t : AliasToken) : Prop :=
  ∀ steps : List Step, (∀ s ∈ steps, s.givesAlias = false) →
    (∀ report ∈ w.steps steps, report.outcome.isOk = true) →
      (∀ i, ¬((w.after steps).builder i).HasAlias t) ∧
      ∀ fuel id o s u w', (build (lockWith fuel) o).exec id (w.after steps) =
        (.ok (.aggregate s u), w') → u ≠ t

theorem ApartSince.spent {past w : World} (h : w.ApartSince past) {t : AliasToken}
    (hgiven : t.id < w.nextToken) (hyoungest : ∀ i u, (w.builder i).HasAlias u → u.id < t.id) :
    w.Spent t := by
  intro steps hsteps hanswered
  have hafter := h.refl.after hsteps hanswered
  refine ⟨fun i ht => ?_, fun fuel id o s u w' hbuild hsame => ?_⟩
  · rcases (hafter.fresh i t ht).2 with hheld | hnew
    · exact Nat.lt_irrefl _ (hyoungest i t hheld)
    · exact Nat.not_lt_of_le hnew hgiven
  · have hnew := Nat.le_trans hafter.grows (token_of_aggregate hafter hbuild).1
    exact Nat.not_lt_of_le hnew (hsame ▸ hgiven)

/-- No alias is captured in a run that leaves every alias to a token.  Each row source has a
token that has been given out in the run, different builders have different ones, and a row
source that is registered later gets one that was not given out before.  The token that an
array is named by is new as well, and neither a row source nor another array has it, then or
later.  In every compiled fragment different tokens have different names; and in what a child
says of its parent the parent's row source has the name that it has in the parent's own
clauses, exactly if its token is older than the child's: if it has not been registered anew
since.  Scripts keep row sources apart at any depth, so an array that is built while a step is
performed gets a new token, too. -/
theorem aliases_uncaptured (options : Options) (tokens : Nat) {before later : List Step}
    (hdefault : ∀ s ∈ before ++ later, s.givesAlias = false) (htaken : Taken tokens before)
    (hanswered : ∀ report ∈ (start options tokens).steps (before ++ later),
      report.outcome.isOk = true) {w : World}
    (hw : w = (start options tokens).after before) :
    (∀ i source, (w.builder i).source = some source →
      ∃ t, (w.builder i).HasAlias t ∧ tokens ≤ t.id ∧ t.id < w.nextToken) ∧
    (∀ i j t, (w.builder i).HasAlias t → (w.builder j).HasAlias t → i = j) ∧
    (∀ i t, ((w.after later).builder i).HasAlias t →
      (w.builder i).HasAlias t ∨ w.nextToken ≤ t.id) ∧
    (∀ f compiled, Sql.compile f = .ok compiled → ∃ number,
      compiled.text = rendered number 0 f ∧
      (∀ t ∈ f.flatMap Node.tokens, ∀ u,
        (aliasNode t).rendered number 0 = (aliasNode u).rendered number 0 ↔ t = u) ∧
      ∀ i ref, (w.builder i).parent = some ref → ∃ own current,
        (w.builder i).HasAlias own ∧ (w.builder ref.id).HasAlias current ∧
          (current ∈ f.flatMap Node.tokens →
            ((aliasNode current).rendered number 0 = ref.tableAlias.rendered number 0 ↔
              current.id < own.id))) ∧
    (w.ApartSince w ∧ w.Minted ∧ ∀ fuel script, scriptGivesAlias script = false →
      KeepsApart w (runSteps (lockWith fuel) script)) ∧
    ∀ v, v.ApartSince w → ∀ fuel id o s t v',
      (build (lockWith fuel) o).exec id v = (.ok (.aggregate s t), v') →
        v.nextToken ≤ t.id ∧ t.id < v'.nextToken ∧ v'.Spent t ∧ (v.Minted → Taken t.id s) := by
  obtain ⟨hbefore, hlater⟩ := List.forall_mem_append.mp hdefault
  rw [steps_append, List.forall_mem_append, ← hw] at hanswered
  have hapart : w.ApartSince (start options tokens) := by
    rw [hw]
    exact (apartSince_start options tokens).after hbefore hanswered.1
  have hminted : w.Minted := by
    rw [hw]
    exact ((minted_start options tokens).after htaken).2
  have hfirst : w.ParentsFirst := by
    rw [hw]
    exact ((Reached.initial options tokens).after before hanswered.1).parentsFirst
  refine ⟨fun i source hsource => ?_, hapart.apart, fun i t ht => ?_, fun f compiled hf => ?_,
    ⟨hapart.refl, hminted, fun fuel script hscript => ?_⟩, fun v hv fuel id o s t v' hbuild => ?_⟩
  · obtain ⟨t, ht⟩ := hapart.aliases i source hsource
    obtain ⟨hlt, hheld | hnew⟩ := hapart.fresh i t ht
    · obtain ⟨_, hnone⟩ := hheld
      rw [builder_start] at hnone
      cases hnone
    · exact ⟨t, ht, hnew, hlt⟩
  · exact ((hapart.refl.after hlater hanswered.2).fresh i t ht).2
  · obtain ⟨number, htext, hnames⟩ := compile_names hf
    refine ⟨number, htext, hnames, fun i ref href => ?_⟩
    obtain ⟨own, current, hown, hcurrent, known, hknown, hage⟩ := hapart.knows_iff hfirst href
    refine ⟨own, current, hown, hcurrent, fun hshown => ?_⟩
    rw [hknown, hnames current hshown, eq_comm, hage]
  · have hpermitted : Permitted False script := .of_script fun hgives => by simp [hscript] at hgives
    exact (Program.runSteps hpermitted).keepsApart_lockWith fuel
  · obtain ⟨hnew, hgiven, hafter, hyoungest⟩ := token_of_aggregate hv hbuild
    exact ⟨hnew, hgiven, hafter.spent hgiven hyoungest, fun hminted =>
      taken_of_aggregate hminted hbuild⟩

/-- A child that names its parent's row source, and whose rows the parent takes up. -/
def correlatedSteps : List Step :=
  [.mk [] (.source (.text "items") none) false none,
    .mk [] (.addChild "tags" (.text "tags") none none) false none,
    .mk ["tags"] (.filter (.sequence [.column .tableAlias "item_id", .text " = ",
      .column .parentAlias "id"])) false none,
    .mk ["tags"] (.build { asJsonAggregate := true }) false (some "tags"),
    .mk [] (.select (.parens (.saved "tags")) "tags") false none]

def notesStep : Step := .mk [] (.addChild "notes" (.text "notes") none none) false none

/-- In every statement in which the parent's row source stands, the child of these steps names
it right, and a child that is added later gets a new token. -/
theorem aliases_uncaptured_correlatedSteps :
    (∀ f compiled, Sql.compile f = .ok compiled → ⟨0⟩ ∈ f.flatMap Node.tokens →
      ∃ number ref, compiled.text = rendered number 0 f ∧
        (((start {} 0).after correlatedSteps).builder 1).parent = some ref ∧
        (aliasNode ⟨0⟩).rendered number 0 = ref.tableAlias.rendered number 0) ∧
    ∃ t, ((((start {} 0).after correlatedSteps).after [notesStep]).builder 2).HasAlias t ∧
      ((start {} 0).after correlatedSteps).nextToken ≤ t.id := by
  have hdefault : ∀ s ∈ correlatedSteps ++ [notesStep], s.givesAlias = false := by decide
  have htaken : Taken 0 correlatedSteps := .of_tokens_eq_nil rfl
  have hanswered : ∀ report ∈ (start {} 0).steps (correlatedSteps ++ [notesStep]),
      report.outcome.isOk = true := by decide +kernel
  obtain ⟨-, -, hlater, hnames, -⟩ := aliases_uncaptured {} 0 hdefault htaken hanswered rfl
  have hparent : (((start {} 0).after correlatedSteps).builder 1).parent =
      some ⟨root, aliasNode ⟨0⟩⟩ := rfl
  have hfirst : (((start {} 0).after correlatedSteps).builder root).HasAlias ⟨0⟩ := by
    decide +kernel
  have hchild : (((start {} 0).after correlatedSteps).builder 1).HasAlias ⟨1⟩ := by
    decide +kernel
  have hnotes : ((((start {} 0).after correlatedSteps).after [notesStep]).builder 2).HasAlias
      ⟨3⟩ := by
    decide +kernel
  refine ⟨fun f compiled hf hshown => ?_, ⟨3⟩, hnotes, ?_⟩
  · obtain ⟨number, htext, -, hchildren⟩ := hnames f compiled hf
    obtain ⟨own, current, hown, hcurrent, hprinted⟩ := hchildren 1 _ hparent
    obtain rfl : own = ⟨1⟩ := hown.unique hchild
    obtain rfl : current = ⟨0⟩ := hcurrent.unique hfirst
    exact ⟨number, _, htext, hparent, (hprinted hshown).mpr Nat.zero_lt_one⟩
  · rcases hlater 2 ⟨3⟩ hnotes with ⟨_, hnone⟩ | hnew
    · cases hnone
    · exact hnew

/-- A source that is registered before the lock of another one takes its place. -/
def reregisteredSteps : List Step :=
  [.mk [] (.beforeLock .source
      [.mk [] (.addChild "c" (.text "tags") none none) false none,
        .mk [] (.source (.text "items") none) false none]) false none,
    .mk [] (.source (.text "drafts") none) false none,
    .mk ["c"] (.filter (.sequence [.column .tableAlias "item_id", .text " = ",
      .column .parentAlias "id"])) false none,
    .mk ["c"] (.select (.column .tableAlias "name") "name") false none,
    .mk ["c"] (.build {}) false (some "c"),
    .mk [] (.select (.parens (.saved "c")) "c") false none]

/-- The text of the statement that a step compiled. -/
def compiledText? (report : Report) : Option String :=
  match report.outcome with
  | .ok (.ok (.compiled statement)) => some statement.text
  | _ => none

/-- The child of those steps was made while the source stood that is replaced later.  So its
condition names a row source that the statement does not have. -/
theorem parent_misnamed_reregisteredSteps :
    (∀ s ∈ reregisteredSteps, s.givesAlias = false) ∧
    (∀ report ∈ (start {} 0).steps reregisteredSteps, report.outcome.isOk = true) ∧
    (((start {} 0).after reregisteredSteps).builder 1).parent.map (·.tableAlias.tokens) =
      some [⟨0⟩] ∧
    (((start {} 0).after reregisteredSteps).builder 0).source.map (·.2.tokens) = some [⟨2⟩] ∧
    compiledText?
        (((start {} 0).after reregisteredSteps).step (.mk [] (.compile {}) false none)).1 =
      some ("select to_json((select to_json(__local_0__.\"name\") as \"name\" from tags as " ++
        "__local_0__ where (__local_0__.\"item_id\" = __local_1__.\"id\"))) as \"c\" " ++
        "from items as __local_2__ where 1 = 1") := by
  refine ⟨?_, ?_, ?_, ?_, ?_⟩ <;> decide +kernel

end World

end PageQuery
