import PageQuery.Proofs.Call.Mutator

/-!
# What calls register to be selected

A field is registered behind the others, the primary key at most once, and a cursor takes the
place of an earlier one.  All other calls leave the select list alone.
-/

namespace PageQuery

open Sql

namespace Call

/-- The fields that a call registers, given whether identifiers have been selected before. -/
def fields (tableAlias : Except Error Node) (selected : Bool) : Call → List PendingField
  | .select expr name => [⟨expr, name⟩]
  | .selectIdentifiers primaryKey =>
    if selected || primaryKey.isEmpty then []
    else tableAlias.toOption.toList.map fun table =>
      ⟨.ready (Action.identifiers table primaryKey), identifiersAlias⟩
  | _ => []

def selectsIdentifiers : Call → Bool
  | .selectIdentifiers primaryKey => !primaryKey.isEmpty
  | _ => false

def cursor? : Call → Option DeferredFragment
  | .selectCursor expr => some expr
  | _ => none

/-- The fields that calls register, in their order. -/
def allFields (tableAlias : Except Error Node) : (selected : Bool) → List Call →
    List PendingField
  | _, [] => []
  | selected, call :: rest =>
    call.fields tableAlias selected ++
      allFields tableAlias (selected || call.selectsIdentifiers) rest

/-- The cursor that is set once calls have been made. -/
def lastCursor (set : Option DeferredFragment) (calls : List Call) : Option DeferredFragment :=
  calls.foldl (fun set call => call.cursor?.or set) set

end Call

theorem selecting_ok {field : PendingField} {contents contents' : Concern.select.Contents}
    (hselecting : selecting field contents = .ok contents') :
    contents' = ((contents.1.1 ++ [field], contents.1.2), contents.2) := by
  obtain ⟨_, _, hcontents⟩ := ok_of_bind hselecting
  exact (Except.ok.inj hcontents).symm

theorem selectingIdentifiers_ok {tableAlias : Except Error Node} {primaryKey : List String}
    {contents contents' : Concern.select.Contents}
    (hselecting : selectingIdentifiers tableAlias primaryKey contents = .ok contents') :
    contents' =
      ((contents.1.1 ++ (Call.selectIdentifiers primaryKey).fields tableAlias contents.1.2,
        contents.1.2 || !primaryKey.isEmpty), contents.2) := by
  obtain ⟨⟨waiting, selected⟩, settled⟩ := contents
  rw [selectingIdentifiers] at hselecting
  rw [Call.fields]
  split at hselecting
  · rw [if_pos ‹_›]
    obtain rfl := (Except.ok.inj hselecting).symm
    cases selected <;> simp_all
  · rw [if_neg ‹_›]
    obtain ⟨table, rfl, hrest⟩ := ok_of_bind hselecting
    rw [selecting_ok hrest]
    simp_all [Except.toOption]

namespace World

variable {w w' : World} {id : BuilderId} {call : Call}

theorem Registered.closed (h : w.Registered call id w') (hclosed : w.Closed) : w'.Closed := by
  intro other entry hentry
  rw [h.nextBuilder]
  by_cases hother : other = id
  · subst hother
    rw [h.place.children] at hentry
    exact hclosed other entry hentry
  · rw [h.others other hother] at hentry
    exact hclosed other entry hentry

/-- A call revises the data of one concern at most, and none if it registers a callback. -/
theorem Registered.contents_eq (h : w.Registered call id w') {d : Concern}
    (hother : call.callback? = none → d ≠ call.concern) :
    (w'.builder id).contents d = (w.builder id).contents d := by
  by_cases hd : d = call.concern
  · subst hd
    have hcontents := h.contents
    cases call with
    | addCursorCondition | beforeLock => exact (Except.ok.inj hcontents).symm
    | _ => exact absurd rfl (hother rfl)
  · exact congrArg Concern.Part.contents (h.parts d hd)

theorem Registered.tableAlias (h : w.Registered call id w') :
    (w'.builder id).tableAlias = (w.builder id).tableAlias := by
  have hsource : (w'.builder id).source = (w.builder id).source :=
    h.contents_eq (d := .source) (by cases call <;> nofun)
  rw [Builder.tableAlias, hsource]
  rfl

/-- The cursor behind an accepted call. -/
theorem Registered.cursor (h : w.Registered call id w') :
    (w'.builder id).pending.cursor = call.cursor?.or (w.builder id).pending.cursor := by
  cases call with
  | selectCursor expr => exact congrArg Prod.fst (Except.ok.inj h.contents).symm
  | _ => exact congrArg Prod.fst (h.contents_eq (d := .cursor) nofun)

theorem Registered.selects_of_other (h : w.Registered call id w')
    (hother : call.callback? = none → .select ≠ call.concern) :
    (w'.builder id).pending.selects = (w.builder id).pending.selects ∧
      (w'.builder id).identifiersSelected = (w.builder id).identifiersSelected :=
  Prod.mk.inj (congrArg Prod.fst (h.contents_eq (d := .select) hother))

/-- What is registered to be selected behind an accepted call. -/
theorem Registered.selects (h : w.Registered call id w') :
    (w'.builder id).pending.selects = (w.builder id).pending.selects ++
        call.fields (w.builder id).tableAlias (w.builder id).identifiersSelected ∧
      (w'.builder id).identifiersSelected =
        ((w.builder id).identifiersSelected || call.selectsIdentifiers) := by
  cases call with
  | select expr name =>
      have hselecting : selecting ⟨expr, name⟩ ((w.builder id).contents .select) =
        .ok ((w'.builder id).contents .select) := h.contents
      have hselects := Prod.mk.inj (Prod.mk.inj (selecting_ok hselecting)).1
      exact ⟨hselects.1, hselects.2.trans (Bool.or_false _).symm⟩
  | selectIdentifiers primaryKey =>
      have hselecting : selectingIdentifiers (w.builder id).tableAlias primaryKey
        ((w.builder id).contents .select) = .ok ((w'.builder id).contents .select) := h.contents
      exact Prod.mk.inj (Prod.mk.inj (selectingIdentifiers_ok hselecting)).1
  | _ =>
      obtain ⟨hselects, hselected⟩ := h.selects_of_other nofun
      simp only [Call.fields, Call.selectsIdentifiers, List.append_nil, Bool.or_false]
      exact ⟨hselects, hselected⟩

end World

namespace Action

variable {id : BuilderId} {w w' start middle : World} {call : Call} {calls : List Call}

theorem registered_of_ok (hstored : w.Stored id)
    (hrun : call.action.exec id w = (.ok (), w')) : w.Registered call id w' ∧ w'.Stored id := by
  obtain ⟨-, hrefused⟩ | ⟨-, ⟨_, hrefused⟩ | ⟨after, haccepted, hregistered⟩⟩ :=
    call_cases call hstored
  · rw [hrun] at hrefused
    cases hrefused
  · rw [hrun] at hrefused
    cases hrefused
  · obtain rfl : w' = after := (Prod.mk.inj (hrun.symm.trans haccepted)).2
    have hregisters := registers_call call hstored
    rw [Registers] at hregisters
    split at hregisters
    · obtain ⟨_, hrun', hsame⟩ := hregisters
      rw [hrun] at hrun'
      cases hrun'
      refine ⟨hregistered, ?_⟩
      rw [World.Stored, hsame.builders]
      exact World.stored_setBuilder w id _
    · rw [hrun] at hregisters
      cases hregisters

/-- What calls register, in their order, and the cursor that is set by them. -/
theorem registered_of_calls (hstored : start.Stored id) (hclosed : start.Closed)
    (hcalls : (calls.forM Call.action).exec id start = (.ok (), w)) :
    w.Closed ∧ w.nextBuilder = start.nextBuilder ∧
      (w.builder id).pending.selects = (start.builder id).pending.selects ++
        Call.allFields (start.builder id).tableAlias (start.builder id).identifiersSelected
          calls ∧
      (w.builder id).pending.cursor = Call.lastCursor (start.builder id).pending.cursor calls := by
  induction calls generalizing start with
  | nil =>
      cases hcalls
      exact ⟨hclosed, rfl, (List.append_nil _).symm, rfl⟩
  | cons call rest ih =>
      obtain ⟨⟨⟩, middle, hcall, hrest⟩ := exec_bind_eq_ok hcalls
      obtain ⟨hregistered, hstored'⟩ := registered_of_ok hstored hcall
      obtain ⟨hselects, hselected⟩ := hregistered.selects
      obtain ⟨hclosed', hsame, hbehind, hcursor⟩ := ih hstored' (hregistered.closed hclosed) hrest
      refine ⟨hclosed', hsame.trans hregistered.nextBuilder, ?_, ?_⟩
      · rw [hbehind, hselects, hselected, hregistered.tableAlias, List.append_assoc]
        rfl
      · rw [hcursor, hregistered.cursor]
        rfl

end Action

end PageQuery
