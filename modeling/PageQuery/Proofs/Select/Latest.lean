import Mathlib.Data.List.Dedup
import PageQuery.Proofs.Run.Turns

/-!
# The last field of each name

A select list keeps the field of each name that was registered last.  It is built while the
expressions of the fields come, by taking an earlier field of the same name out and putting the
new one at the end.  Main statement: what comes of that is the list of all fields without those
that a later field has the name of, and each expression, also one that is superseded, has run
exactly once.
-/

namespace PageQuery

open Sql

/-- The fields of a list that no later field has the name of, in their order. -/
def lastOfEach : List Field → List Field
  | [] => []
  | field :: rest =>
    if field.name ∈ rest.map Field.name then lastOfEach rest else field :: lastOfEach rest

section

variable {field : Field} {rest : List Field}

theorem lastOfEach_cons_of_mem (hlater : field.name ∈ rest.map Field.name) :
    lastOfEach (field :: rest) = lastOfEach rest := if_pos hlater

theorem lastOfEach_cons_of_notMem (hlast : field.name ∉ rest.map Field.name) :
    lastOfEach (field :: rest) = field :: lastOfEach rest := if_neg hlast

end

/-- The names are those of all fields, each once. -/
theorem names_lastOfEach (fields : List Field) :
    (lastOfEach fields).map Field.name = (fields.map Field.name).dedup := by
  induction fields with
  | nil => rfl
  | cons field rest ih =>
      by_cases hlater : field.name ∈ rest.map Field.name
      · rw [lastOfEach_cons_of_mem hlater, ih, List.map_cons, List.dedup_cons_of_mem hlater]
      · rw [lastOfEach_cons_of_notMem hlater, List.map_cons, ih, List.map_cons,
          List.dedup_cons_of_notMem hlater]

/-- A field is kept exactly if it is the last one of its name. -/
theorem mem_lastOfEach_iff {fields : List Field} {field : Field} :
    field ∈ lastOfEach fields ↔
      ∃ before behind, fields = before ++ field :: behind ∧
        field.name ∉ behind.map Field.name := by
  induction fields with
  | nil => simp [lastOfEach]
  | cons first rest ih =>
      have hrest : (∃ before behind, rest = before ++ field :: behind ∧
          field.name ∉ behind.map Field.name) →
          ∃ before behind, first :: rest = before ++ field :: behind ∧
            field.name ∉ behind.map Field.name := by
        rintro ⟨before, behind, hsplit, hlast⟩
        exact ⟨first :: before, behind, by rw [hsplit, List.cons_append], hlast⟩
      by_cases hlater : first.name ∈ rest.map Field.name
      · rw [lastOfEach_cons_of_mem hlater, ih]
        refine ⟨hrest, ?_⟩
        rintro ⟨_ | ⟨other, before⟩, behind, hsplit, hlast⟩
        · obtain ⟨rfl, rfl⟩ := List.cons.inj hsplit
          exact absurd hlater hlast
        · exact ⟨before, behind, (List.cons.inj hsplit).2, hlast⟩
      · rw [lastOfEach_cons_of_notMem hlater, List.mem_cons, ih]
        constructor
        · rintro (rfl | hmem)
          · exact ⟨[], rest, rfl, hlater⟩
          · exact hrest hmem
        · rintro ⟨_ | ⟨other, before⟩, behind, hsplit, hlast⟩
          · exact .inl (List.cons.inj hsplit).1.symm
          · exact .inr ⟨before, behind, (List.cons.inj hsplit).2, hlast⟩

/-- To put each field at the end, in place of an earlier one of its name, keeps the last field
of each name. -/
theorem latest_eq (done fields : List Field) :
    latest done fields =
      (done.filter fun f => f.name ∉ fields.map Field.name) ++ lastOfEach fields := by
  induction fields generalizing done with
  | nil => simp [latest, lastOfEach]
  | cons field rest ih =>
      have hdone : (done.filter fun f => f.name != field.name).filter
            (fun f => f.name ∉ rest.map Field.name) =
          done.filter fun f => f.name ∉ (field :: rest).map Field.name := by
        rw [List.filter_filter]
        refine List.filter_congr fun f _ => ?_
        by_cases hsame : f.name = field.name <;> simp [hsame]
      rw [latest, ih, List.filter_append, hdone, List.append_assoc]
      congr 1
      by_cases hlater : field.name ∈ rest.map Field.name
      · rw [lastOfEach_cons_of_mem hlater, List.filter_cons_of_neg (by simpa using hlater)]
        rfl
      · rw [lastOfEach_cons_of_notMem hlater, List.filter_cons_of_pos (by simpa using hlater)]
        rfl

theorem latest_nil (fields : List Field) : latest [] fields = lastOfEach fields :=
  latest_eq [] fields

/-- Names with the expressions that have come for them. -/
def named (pending : List PendingField) (exprs : List Fragment) : List Field :=
  List.zipWith (fun p expr => ⟨expr, p.name⟩) pending exprs

theorem names_named {pending : List PendingField} {exprs : List Fragment}
    (hlength : exprs.length = pending.length) :
    (named pending exprs).map Field.name = pending.map PendingField.name := by
  induction pending generalizing exprs with
  | nil => rfl
  | cons p rest ih =>
      cases exprs with
      | nil => cases hlength
      | cons expr exprs => exact congrArg (p.name :: ·) (ih (Nat.succ.inj hlength))

/-- A select list that keeps the last registration of each name: the names are distinct, a field
stands in the list exactly if its registration is the last one of its name, the fields stand in
the order of these registrations, and there are as many as there are names. -/
structure KeepsLast (registered : List PendingField) (exprs : List Fragment)
    (selected : List Field) : Prop where
  distinct : (selected.map Field.name).Nodup
  names : ∀ name, name ∈ selected.map Field.name ↔ name ∈ registered.map PendingField.name
  last : ∀ field, field ∈ selected ↔ ∃ before behind,
    named registered exprs = before ++ field :: behind ∧ field.name ∉ behind.map Field.name
  order : selected = lastOfEach (named registered exprs)
  count : selected.length = (registered.map PendingField.name).dedup.length

theorem keepsLast {registered : List PendingField} {exprs : List Fragment}
    (hlength : exprs.length = registered.length) :
    KeepsLast registered exprs (lastOfEach (named registered exprs)) := by
  have hnames := names_lastOfEach (named registered exprs)
  rw [names_named hlength] at hnames
  refine ⟨?_, fun name => ?_, fun field => mem_lastOfEach_iff, rfl, ?_⟩
  · rw [hnames]
    exact List.nodup_dedup _
  · rw [hnames, List.mem_dedup]
  · rw [← hnames, List.length_map]

namespace Action

variable {lock : Locker} {id : BuilderId} {w w' : World}

/-- A list of values has as many members as the list that it was computed from. -/
theorem length_of_mapM {α β : Type} {f : α → Action β} {items : List α} {values : List β}
    (hrun : (items.mapM f).exec id w = (.ok values, w')) : values.length = items.length := by
  induction items generalizing w values with
  | nil =>
      cases hrun
      rfl
  | cons item rest ih =>
      rw [List.mapM_cons] at hrun
      obtain ⟨value, middle, -, hrest⟩ := exec_bind_eq_ok hrun
      obtain ⟨others, behind, hothers, hpure⟩ := exec_bind_eq_ok hrest
      cases hpure
      rw [List.length_cons, List.length_cons, ih hothers]

/-- The loop runs every expression once, one after the other, whatever becomes of its field. -/
theorem resolveFields_eq (lock : Locker) (done : List Field) (pending : List PendingField) :
    resolveFields lock done pending = (do
      let exprs ← (pending.map PendingField.expr).mapM (resolveFragment lock)
      return latest done (named pending exprs)) := by
  induction pending generalizing done with
  | nil => rfl
  | cons p rest ih =>
      simp only [resolveFields, List.map_cons, List.mapM_cons, bind_assoc, pure_bind, ih]
      rfl

end Action

end PageQuery
