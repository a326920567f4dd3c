import PageQuery.Proofs.Lock.Final
import PageQuery.Proofs.Sql.Condition
import PageQuery.Proofs.Sql.Rendering

/-!
# Objects as they are read

The object of a row is read from the symbols that its text consists of: the calls that build it,
the names of the fields, and the expressions of the fields, which count as one symbol each.  The
name of a field is one that the select list has accepted, so it is written into the text and is
never a value.  Main statement: read from left to right, the arguments of the calls are the
selected fields in their order, and no call has more than a hundred of them.
-/

namespace PageQuery

open Sql

namespace RowObject

/-- A symbol of the text of an object. -/
inductive Symbol
  | opening
  | closing
  /-- A function that builds an object, up to its arguments. -/
  | call (binary : Bool)
  | comma
  /-- The name of a field. -/
  | key (name : String)
  /-- The expression of a field. -/
  | given (f : Fragment)
  /-- What joins two objects. -/
  | concat
  | toJson

namespace Symbol

/-- How a symbol is written. -/
def fragment : Symbol → Fragment
  | .opening => text "("
  | .closing => text ")"
  | .call binary => text (if binary then "jsonb_build_object(" else "json_build_object(")
  | .comma => text ", "
  | .key name => [.raw (quoted name)] ++ text "::text"
  | .given f => f
  | .concat => text " || "
  | .toJson => text "::json"

def isArgument : Symbol → Bool
  | .key _ | .given _ => true
  | _ => false

/-- The arguments of a call, up to its closing parenthesis. -/
def arguments? : List Symbol → Option (List Symbol × List Symbol)
  | argument :: .closing :: rest =>
    if argument.isArgument then some ([argument], rest) else none
  | argument :: .comma :: rest =>
    if argument.isArgument then
      (arguments? rest).map fun (others, rest) => (argument :: others, rest)
    else none
  | _ => none

/-- Calls that are joined, each with its arguments, at most `bound` of them. -/
def joined? : (bound : Nat) → List Symbol → Option (List (List Symbol) × List Symbol)
  | bound + 1, .call true :: symbols =>
    match arguments? symbols with
    | some (arguments, .concat :: rest) =>
      (joined? bound rest).map fun (calls, rest) => (arguments :: calls, rest)
    | some (arguments, rest) => some ([arguments], rest)
    | none => none
  | _, _ => none

/-- The arguments of the calls of an object.  It is one call that gives `json`, or calls that
give `jsonb`, joined and taken back to `json`. -/
def read : List Symbol → Option (List (List Symbol))
  | .call false :: symbols =>
    match arguments? symbols with
    | some (arguments, []) => some [arguments]
    | _ => none
  | .opening :: symbols =>
    match joined? symbols.length symbols with
    | some (calls, [.closing, .toJson]) => some calls
    | _ => none
  | _ => none

/-- The text that symbols make up. -/
def letters (symbols : List Symbol) : List (Char ⊕ Node) := Sql.letters (symbols.flatMap fragment)

theorem letters_append (symbols others : List Symbol) :
    letters (symbols ++ others) = letters symbols ++ letters others := by
  rw [letters, List.flatMap_append, Sql.letters_append]
  rfl

theorem letters_cons (symbol : Symbol) (symbols : List Symbol) :
    letters (symbol :: symbols) = Sql.letters symbol.fragment ++ letters symbols := by
  rw [letters, List.flatMap_cons, Sql.letters_append]
  rfl

/-- A call with its arguments. -/
def callOf (binary : Bool) (arguments : List Symbol) : List Symbol :=
  .call binary :: (arguments.intersperse .comma ++ [.closing])

/-- Calls with what joins them. -/
def joined : List (List Symbol) → List Symbol
  | [] => []
  | [arguments] => callOf true arguments
  | arguments :: calls => callOf true arguments ++ .concat :: joined calls

theorem arguments?_intersperse {arguments : List Symbol} (hne : arguments ≠ [])
    (hall : ∀ argument ∈ arguments, argument.isArgument = true) (rest : List Symbol) :
    arguments? (arguments.intersperse .comma ++ .closing :: rest) = some (arguments, rest) := by
  induction arguments with
  | nil => exact absurd rfl hne
  | cons first others ih =>
      obtain ⟨hfirst, hothers⟩ := List.forall_mem_cons.mp hall
      cases others with
      | nil => simp [arguments?, hfirst]
      | cons second others =>
          rw [List.intersperse_cons_cons, List.cons_append, List.cons_append, arguments?,
            if_pos hfirst, ih (by simp) hothers]
          rfl

theorem length_le_joined (calls : List (List Symbol)) : calls.length ≤ (joined calls).length := by
  induction calls with
  | nil => exact Nat.le_refl _
  | cons first others ih =>
      cases others with
      | nil => simp [joined, callOf]
      | cons second others =>
          simp only [joined, callOf, List.length_cons, List.length_append] at ih ⊢
          omega

/-- Arguments of which a call has some, and that are arguments. -/
def Proper (arguments : List Symbol) : Prop :=
  arguments ≠ [] ∧ ∀ argument ∈ arguments, argument.isArgument = true

theorem joined?_joined {calls : List (List Symbol)} (hne : calls ≠ [])
    (hproper : ∀ arguments ∈ calls, Proper arguments) {bound : Nat} (hbound : calls.length ≤ bound)
    {rest : List Symbol} (hrest : rest.head? ≠ some .concat) :
    joined? bound (joined calls ++ rest) = some (calls, rest) := by
  induction calls generalizing bound with
  | nil => exact absurd rfl hne
  | cons first others ih =>
      obtain ⟨hfirst, hothers⟩ := List.forall_mem_cons.mp hproper
      obtain ⟨bound, rfl⟩ : ∃ n, bound = n + 1 :=
        ⟨bound - 1, by rw [List.length_cons] at hbound; omega⟩
      cases others with
      | nil =>
          have hread := arguments?_intersperse hfirst.1 hfirst.2 rest
          simp only [joined, callOf, List.cons_append, List.append_assoc, List.nil_append, joined?,
            hread]
          split
          · rename_i hsome
            cases hsome
            exact absurd rfl hrest
          · rename_i hsome
            cases hsome
            rfl
          · rename_i hnone
            cases hnone
      | cons second others =>
          have hread := arguments?_intersperse hfirst.1 hfirst.2
            (.concat :: (joined (second :: others) ++ rest))
          have hmore := ih (by simp) hothers (Nat.le_of_succ_le_succ hbound)
          simp only [joined, callOf, List.cons_append, List.append_assoc, List.nil_append, joined?,
            hread] at hmore ⊢
          rw [hmore]
          rfl

end Symbol

/-! Objects of fields -/

/-- The arguments that fields become. -/
def arguments (fields : List Field) : List Symbol :=
  fields.flatMap fun field => [.key field.name, .given field.expr]

theorem proper_arguments {fields : List Field} (hne : fields ≠ []) :
    Symbol.Proper (arguments fields) := by
  obtain ⟨field, rest, rfl⟩ := List.exists_cons_of_ne_nil hne
  refine ⟨by simp [arguments], fun argument hargument => ?_⟩
  obtain ⟨field, _, hmem⟩ := List.mem_flatMap.mp hargument
  simp only [List.mem_cons, List.not_mem_nil, or_false] at hmem
  rcases hmem with rfl | rfl <;> rfl

theorem length_arguments (fields : List Field) : (arguments fields).length = 2 * fields.length := by
  induction fields with
  | nil => rfl
  | cons field rest ih =>
      rw [arguments, List.flatMap_cons, List.length_append] at *
      rw [ih, List.length_cons, List.length_cons, List.length_cons, List.length_nil]
      omega

/-- A harmless name is written into the text. -/
theorem constant_of_safe {name : String} (hsafe : isSafeText name = true) :
    constant name = [.raw (quoted name)] := by
  rw [constant, literal, if_pos hsafe]

theorem letters_pair {field : Field} (hsafe : isSafeText field.name = true) :
    Sql.letters (pair field) = Sql.letters (Symbol.key field.name).fragment ++
      (Sql.letters (text ", ") ++ Sql.letters field.expr) := by
  have htext : Sql.letters (text "::text, ") =
      Sql.letters (text "::text") ++ Sql.letters (text ", ") := rfl
  simp only [pair, constant_of_safe hsafe, Symbol.fragment, Sql.letters_append, htext,
    List.append_assoc]

theorem letters_arguments {fields : List Field}
    (hsafe : ∀ field ∈ fields, isSafeText field.name = true) :
    Symbol.letters ((arguments fields).intersperse .comma) = Sql.letters (pairs fields) := by
  induction fields with
  | nil => rfl
  | cons field rest ih =>
      obtain ⟨hfield, hrest⟩ := List.forall_mem_cons.mp hsafe
      cases rest with
      | nil =>
          have hjoin : pairs [field] = pair field := by simp [pairs, Sql.join]
          rw [hjoin, letters_pair hfield]
          change Symbol.letters [.key field.name, .comma, .given field.expr] = _
          simp only [Symbol.letters_cons]
          rw [show Symbol.letters [] = [] from rfl, List.append_nil]
          rfl
      | cons next rest =>
          have hjoin : pairs (field :: next :: rest) =
              pair field ++ (text ", " ++ pairs (next :: rest)) := join_cons_cons _ _ _ _
          have hpieces : (arguments (field :: next :: rest)).intersperse .comma =
              .key field.name :: .comma :: .given field.expr :: .comma ::
                (arguments (next :: rest)).intersperse .comma := by
            simp [arguments, List.intersperse_cons_cons]
          rw [hpieces, hjoin, Sql.letters_append, Sql.letters_append, letters_pair hfield,
            ← ih hrest]
          simp only [Symbol.letters_cons, List.append_assoc]
          rfl

theorem letters_callOf (binary : Bool) {fields : List Field}
    (hsafe : ∀ field ∈ fields, isSafeText field.name = true) :
    Symbol.letters (Symbol.callOf binary (arguments fields)) =
      Sql.letters ((Symbol.call binary).fragment ++ pairs fields ++ text ")") := by
  rw [Symbol.callOf, Symbol.letters_cons, Symbol.letters_append, letters_arguments hsafe,
    Sql.letters_append, Sql.letters_append, List.append_assoc]
  rfl

theorem letters_joined {chunks : List (List Field)}
    (hsafe : ∀ chunk ∈ chunks, ∀ field ∈ chunk, isSafeText field.name = true) :
    Symbol.letters (Symbol.joined (chunks.map arguments)) =
      Sql.letters (Sql.join (chunks.map fun chunk =>
        text "jsonb_build_object(" ++ pairs chunk ++ text ")") " || ") := by
  induction chunks with
  | nil => rfl
  | cons chunk rest ih =>
      obtain ⟨hchunk, hrest⟩ := List.forall_mem_cons.mp hsafe
      cases rest with
      | nil =>
          have hjoin : Sql.join [text "jsonb_build_object(" ++ pairs chunk ++ text ")"] " || " =
              text "jsonb_build_object(" ++ pairs chunk ++ text ")" := by simp [Sql.join]
          exact (letters_callOf true hchunk).trans (congrArg Sql.letters hjoin).symm
      | cons next rest =>
          let object (chunk : List Field) : Fragment :=
            text "jsonb_build_object(" ++ pairs chunk ++ text ")"
          have hjoin : Sql.join ((chunk :: next :: rest).map object) " || " =
              object chunk ++ (text " || " ++ Sql.join ((next :: rest).map object) " || ") :=
            join_cons_cons _ _ _ _
          change Symbol.letters (Symbol.callOf true (arguments chunk) ++
            .concat :: Symbol.joined ((next :: rest).map arguments)) = _
          rw [Symbol.letters_append, Symbol.letters_cons, ih hrest, letters_callOf true hchunk, hjoin,
            Sql.letters_append (object chunk), Sql.letters_append (text " || ")]
          rfl

/-! Chunks -/

section

variable {α : Type} (size : Nat)

theorem flatten_chunksOf (items : List α) : (chunksOf size items).flatten = items := by
  induction items using chunksOf.induct size with
  | case1 => rw [chunksOf, List.flatten_nil]
  | case2 item rest ih =>
      rw [chunksOf, List.flatten_cons, ih, List.cons_append, List.take_append_drop]

/-- Each chunk has an item, and at most `size + 1` of them. -/
theorem length_of_mem_chunksOf {items chunk : List α} (hchunk : chunk ∈ chunksOf size items) :
    chunk ≠ [] ∧ chunk.length ≤ size + 1 := by
  induction items using chunksOf.induct size with
  | case1 =>
      rw [chunksOf] at hchunk
      cases hchunk
  | case2 item rest ih =>
      rw [chunksOf] at hchunk
      rcases List.mem_cons.mp hchunk with rfl | hmem
      · refine ⟨by simp, ?_⟩
        rw [List.length_cons, List.length_take]
        omega
      · exact ih hmem

end

/-- The symbols spell an object that hands the fields to its calls, in their order. -/
structure Spells (f : Fragment) (fields : List Field) (symbols : List Symbol)
    (calls : List (List Symbol)) : Prop where
  text : Symbol.letters symbols = Sql.letters f
  read : Symbol.read symbols = some calls
  bounded : ∀ call ∈ calls, call.length ≤ 100
  arguments : calls.flatten = arguments fields

/-- An object of fields whose names are harmless is read as the calls of its fields. -/
theorem spells_ofFields {fields : List Field} (hne : fields ≠ [])
    (hsafe : ∀ field ∈ fields, isSafeText field.name = true) :
    ∃ symbols calls, Spells (ofFields true fields).fragment fields symbols calls := by
  rw [ofFields]
  split
  · rename_i hlong
    let chunks := chunksOf (chunkSize - 1) fields
    have hflatten : chunks.flatten = fields := flatten_chunksOf _ fields
    have hchunks : chunks ≠ [] := by
      intro hnil
      rw [hnil] at hflatten
      exact hne hflatten.symm
    have hsafe' : ∀ chunk ∈ chunks, ∀ field ∈ chunk, isSafeText field.name = true :=
      fun chunk hchunk field hfield => hsafe field
        (hflatten ▸ List.mem_flatten.mpr ⟨chunk, hchunk, hfield⟩)
    have hproper : ∀ call ∈ chunks.map RowObject.arguments, Symbol.Proper call := by
      intro call hcall
      obtain ⟨chunk, hchunk, rfl⟩ := List.mem_map.mp hcall
      exact proper_arguments (length_of_mem_chunksOf _ hchunk).1
    refine ⟨.opening :: (Symbol.joined (chunks.map RowObject.arguments) ++ [.closing, .toJson]),
      chunks.map RowObject.arguments, ?_, ?_, ?_, ?_⟩
    · have hclose : Sql.letters (text ")::json") =
          Sql.letters (text ")") ++ Sql.letters (text "::json") := rfl
      rw [Symbol.letters_cons, Symbol.letters_append, letters_joined hsafe', fragment,
        Sql.letters_append, Sql.letters_append, List.append_assoc, hclose]
      rfl
    · let calls := chunks.map RowObject.arguments
      let behind : List Symbol := [.closing, .toJson]
      have hread : Symbol.joined? (Symbol.joined calls ++ behind).length
          (Symbol.joined calls ++ behind) = some (calls, behind) :=
        Symbol.joined?_joined (by simpa [calls] using hchunks) hproper
          (Nat.le_trans (Symbol.length_le_joined calls) (by simp)) (by simp [behind])
      rw [Symbol.read, hread]
    · intro call hcall
      obtain ⟨chunk, hchunk, rfl⟩ := List.mem_map.mp hcall
      have hlength := (length_of_mem_chunksOf _ hchunk).2
      rw [length_arguments]
      simp only [chunkSize] at hlength
      omega
    · rw [← hflatten, RowObject.arguments, List.flatMap_def, List.map_flatten, List.flatten_flatten,
        List.map_map]
      rfl
  · rename_i hshort
    have hlength : fields.length ≤ 50 := by
      have := fun h => hshort ⟨rfl, h⟩
      simpa [chunkSize] using this
    refine ⟨Symbol.callOf false (RowObject.arguments fields), [RowObject.arguments fields],
      ?_, ?_, ?_, ?_⟩
    · exact letters_callOf false hsafe
    · have hproper := proper_arguments hne
      rw [Symbol.callOf, Symbol.read, Symbol.arguments?_intersperse hproper.1 hproper.2]
    · intro call hcall
      rw [List.mem_singleton.mp hcall, length_arguments]
      omega
    · simp

/-- The values of an object are those of its fields. -/
theorem params_ofFields (supportsJsonb : Bool) {fields : List Field}
    (hsafe : ∀ field ∈ fields, isSafeText field.name = true) :
    params (ofFields supportsJsonb fields).fragment = fields.flatMap fun field => params field.expr := by
  have hpairs {fields : List Field} (hsafe : ∀ field ∈ fields, isSafeText field.name = true) :
      params (pairs fields) = fields.flatMap fun field => params field.expr := by
    rw [pairs, params_join, List.flatMap_map]
    apply List.flatMap_congr
    intro field hfield
    rw [pair, params_append, params_append, constant_of_safe (hsafe field hfield), params_text]
    rfl
  rw [ofFields]
  split
  · let chunks := chunksOf (chunkSize - 1) fields
    have hflatten : chunks.flatten = fields := flatten_chunksOf _ fields
    have hchunk : ∀ chunk ∈ chunks,
        params (text "jsonb_build_object(" ++ pairs chunk ++ text ")") =
          chunk.flatMap fun field => params field.expr := by
      intro chunk hchunk
      rw [params_append, params_append, params_text, params_text, List.append_nil, List.nil_append]
      exact hpairs fun field hfield =>
        hsafe field (hflatten ▸ List.mem_flatten.mpr ⟨chunk, hchunk, hfield⟩)
    rw [fragment, params_append, params_append, params_text, params_text, params_join,
      List.append_nil, List.nil_append, List.flatMap_map, List.flatMap_congr hchunk]
    conv_rhs => rw [← hflatten, List.flatMap_def, List.map_flatten, List.flatten_flatten, List.map_map]
    rfl
  · rw [fragment, params_append, params_append, params_text, params_text, hpairs hsafe,
      List.append_nil, List.nil_append]

end RowObject

/-! Names -/

/-- The name of a field that the select list accepts. -/
def IsFieldName (name : String) : Prop := Action.checkName name = .ok ()

/-- A name that is accepted holds only harmless characters. -/
theorem IsFieldName.isSafe {name : String} (h : IsFieldName name) : isSafeText name = true := by
  have hsafe (c : Char) (hc : Action.isNameChar c = true) : isSafeChar c = true := by
    simp only [Action.isNameChar, isSafeChar, Bool.or_eq_true, decide_eq_true_eq] at hc ⊢
    tauto
  have hbody : (Action.nameBody name).all Action.isNameChar = true := by
    rw [IsFieldName, Action.checkName] at h
    split at h
    · cases h
    · split at h
      · cases h
      · rename_i hwell
        simpa using fun hnot => hwell (.inr hnot)
  rw [isSafeText, List.all_eq_true]
  rw [Action.nameBody] at hbody
  split at hbody
  · rename_i rest hname
    rw [hname]
    intro c hc
    rcases List.mem_cons.mp hc with rfl | hrest
    · rfl
    · exact hsafe c (List.all_eq_true.mp hbody c hrest)
  · exact fun c hc => hsafe c (List.all_eq_true.mp hbody c hc)

/-- The select list holds accepted names only, settled or not. -/
structure Builder.Named (b : Builder) : Prop where
  pending : ∀ field ∈ b.pending.selects, IsFieldName field.name
  resolved : ∀ field ∈ b.resolved.selects, IsFieldName field.name

theorem Builder.Named.of_contents {b b' : Builder} (h : b.Named)
    (hsame : b'.contents .select = b.contents .select) : b'.Named := by
  have hpending : b'.pending.selects = b.pending.selects := congrArg (·.1.1) hsame
  have hresolved : b'.resolved.selects = b.resolved.selects := congrArg (·.2) hsame
  exact ⟨hpending ▸ h.pending, hresolved ▸ h.resolved⟩

/-- Every registration has an accepted name. -/
theorem Builder.Named.of_edit {b b' : Builder} (h : b.Named) (hedit : b.Edit b') : b'.Named := by
  cases hedit with
  | select field hopen hname =>
      refine ⟨fun other hother => ?_, h.resolved⟩
      rcases List.mem_append.mp hother with hold | hnew
      · exact h.pending other hold
      · exact List.mem_singleton.mp hnew ▸ hname
  | _ => exact ⟨h.pending, h.resolved⟩

namespace World

/-- Every select list holds accepted names only. -/
def Named (w : World) : Prop := ∀ id, (w.builder id).Named

theorem Named.setBuilder {w : World} (h : w.Named) (id : BuilderId) {b : Builder}
    (hb : b.Named) : (w.setBuilder id b).Named :=
  fun other => holds_setBuilder Builder.Named (fun _ _ => hb) (h other)

theorem stable_named : Stable Named := by
  intro w w' hchange h
  cases hchange with
  | spawn options parent => exact h.setBuilder _ ⟨nofun, nofun⟩
  | @edit id b _ hedit => exact h.setBuilder id ((h id).of_edit hedit)
  | @filter id _ _ _ => exact h.setBuilder id ((h id).of_contents rfl)
  | @child id _ _ _ _ => exact h.setBuilder id ((h id).of_contents rfl)
  | _ => exact h

end World

namespace Action

open World

variable {lock : Locker} {id : BuilderId} {c : Concern}

/-- A select list is settled to fields of the names that were registered. -/
theorem names_of_resolveFields {done fields : List Field} {pending : List PendingField}
    {w w' : World} (hrun : (resolveFields lock done pending).exec id w = (.ok fields, w')) :
    ∀ field ∈ fields, field ∈ done ∨ ∃ p ∈ pending, p.name = field.name := by
  induction pending generalizing done w with
  | nil =>
      cases hrun
      exact fun field hfield => .inl hfield
  | cons first rest ih =>
      obtain ⟨expr, middle, _, hrest⟩ := exec_bind_eq_ok hrun
      intro field hfield
      rcases ih hrest field hfield with hdone | ⟨p, hp, hname⟩
      · rcases List.mem_append.mp hdone with hold | hnew
        · exact .inl (List.mem_of_mem_filter hold)
        · exact .inr ⟨first, List.mem_cons_self, by rw [List.mem_singleton.mp hnew]⟩
      · exact .inr ⟨p, List.mem_cons_of_mem _ hp, hname⟩

/-- To settle a select list keeps names accepted. -/
theorem resolve_select_named (h : lock.Respects Named) :
    Preserves Named id (resolve lock .select) := by
  intro w hlive hclosed hnamed hhalt
  have hpending := (hnamed id).pending
  let pending := (w.builder id).pending.selects
  have hrest : Preserves Named id (do
      updatePending fun p => { p with selects := [] }
      let selects ← resolveFields lock [] pending
      updateResolved fun r => { r with selects }) := by
    refine Preserves.bind (Preserves.update (fun w _ h => ?_) fun _ => rfl) fun _ => ?_
    · exact h.setBuilder id ⟨nofun, (h id).resolved⟩
    · refine (h.resolveFields [] pending).bind_result fun selects w w' hrun => ?_
      refine Preserves.update (fun w _ h => ?_) fun _ => rfl
      refine h.setBuilder id ⟨(h id).pending, fun field hfield => ?_⟩
      rcases names_of_resolveFields hrun field hfield with hnone | ⟨p, hp, hname⟩
      · cases hnone
      · exact hname ▸ hpending p hp
  exact hrest hlive hclosed hnamed hhalt

/-- Locks keep the names in select lists accepted. -/
theorem respects_named (fuel : Nat) : (lockWith fuel).Respects Named := by
  apply respects_lockWith stable_named
  intro fuel id c h
  have hdrain : Preserves Named id (drain (lockWith fuel) c fuel) :=
    h.drain (fun w queue _ hnamed => hnamed.setBuilder id ((hnamed id).of_contents rfl))
      (fun _ _ _ hnamed => hnamed) fuel
  have hresolve : Preserves Named id (resolve (lockWith fuel) c) := by
    by_cases hc : c = .select
    · rw [hc]
      exact resolve_select_named h
    · exact h.resolve fun w pending resolved hothers _ hnamed =>
        hnamed.setBuilder id ((hnamed id).of_contents (hothers .select fun hsame => hc hsame.symm))
  have hvalues : Preserves Named id (settleValues (lockWith fuel) c) := by
    apply Preserves.read_bind
    apply (Preserves.log fun _ _ hnamed => hnamed).bind
    intro _
    apply hresolve.bind
    intro _
    exact Preserves.read_bind (Preserves.remember fun _ _ hnamed => hnamed)
  apply hdrain.bind
  intro _
  refine Preserves.settleOpen (fun w _ _ hnamed => ?_) hvalues
  exact hnamed.setBuilder id ((hnamed id).of_contents rfl)

end Action

namespace World

open PageQuery.Action

theorem named_start (options : Options) (tokens : Nat) : (start options tokens).Named := by
  intro id
  rw [builder_start]
  exact ⟨nofun, nofun⟩

/-- In every run all names in select lists have been accepted. -/
theorem Reached.named {w : World} (hreached : w.Reached) : w.Named :=
  (hreached.kept respects_named named_start fun _ hnamed => hnamed).2.2

end World

/-- The object of a row that has other fields than its cursor. -/
theorem Builder.rowObject_fields {b : Builder} {options : BuildOptions}
    (hjsonb : b.options.supportsJsonb = true) (hnull : options.nullCase = false)
    (hdistinct : options.notDistinctCase = false) (hsome : b.resolved.selects ≠ [])
    (hlone : ∀ field, b.resolved.selects = [field] → field.name ≠ cursorAlias) :
    b.rowObject options = .ok (RowObject.ofFields true b.resolved.selects).fragment := by
  have hobject : b.objectOfRow = .ok (RowObject.ofFields true b.resolved.selects) := by
    rw [objectOfRow, hjsonb]
    split
    · exact absurd ‹_› hsome
    · rename_i field hfield
      rw [if_neg (hlone field hfield), hfield]
    · rfl
  rw [rowObject, hobject, hnull, hdistinct]
  rfl

namespace Action

open World

/-- An object of many fields loses none.  At every point of a run all names in select lists
have been accepted: between its steps, and whatever locks keep.  So wherever the object of a row
is asked for, without a case for null rows and where `jsonb` is supported, it is read as calls
of at most a hundred arguments each, and the arguments are, from left to right, the name and the
expression of each selected field in its order; its values are those of the expressions in the
same order, so no name is one.  The row has to have a field, and not its cursor alone. -/
theorem rowObject_spells (fuel : Nat) :
    (∀ w : World, w.Reached → w.Named) ∧ (lockWith fuel).Respects Named ∧
    ∀ {id : BuilderId} {w w' : World} {options : BuildOptions} {f : Fragment},
      id < w.nextBuilder → w.Closed → w.Named →
      (w.builder id).options.supportsJsonb = true → options.nullCase = false →
      options.notDistinctCase = false →
      (rowObject (lockWith fuel) options).exec id w = (.ok f, w') →
      (w'.builder id).resolved.selects ≠ [] →
      (∀ field, (w'.builder id).resolved.selects = [field] → field.name ≠ cursorAlias) →
      (∃ symbols calls,
        RowObject.Spells f (w'.builder id).resolved.selects symbols calls) ∧
      ∀ compiled, Sql.compile f = .ok compiled →
        compiled.params =
          (w'.builder id).resolved.selects.flatMap fun field => params field.expr := by
  have hrespects := respects_named fuel
  refine ⟨fun _ hreached => hreached.named, hrespects, ?_⟩
  intro id w w' options f hlive hclosed hnamed hjsonb hnull hdistinct hrun hsome hlone
  obtain ⟨_, middle, hlock, hobject⟩ := exec_bind_eq_ok hrun
  rw [exec_self_bind, exec_ofExcept] at hobject
  obtain rfl : w' = middle := by
    cases hvalue : (middle.builder id).rowObject options <;> rw [hvalue] at hobject <;>
      cases hobject
    rfl
  have hoptions := (respects_hasOptions fuel).lockEverything.kept hlive hclosed ⟨hlive, rfl⟩ hlock
  have hkept := hrespects.lockEverything.kept hlive hclosed hnamed hlock
  have hvalue := Builder.rowObject_fields (hoptions.holds.2 ▸ hjsonb) hnull hdistinct hsome hlone
  rw [hvalue] at hobject
  obtain rfl : (RowObject.ofFields true (w'.builder id).resolved.selects).fragment = f := by
    cases hobject
    rfl
  have hsafe : ∀ field ∈ (w'.builder id).resolved.selects, isSafeText field.name = true :=
    fun field hfield => ((hkept.holds id).resolved field hfield).isSafe
  refine ⟨RowObject.spells_ofFields hsome hsafe, fun compiled hcompile => ?_⟩
  obtain ⟨texts, _, hrest⟩ := ok_of_bind hcompile
  cases hrest
  exact RowObject.params_ofFields true hsafe

end Action

namespace World

open PageQuery.Action

/-- A run that selects one field more than fit into a call. -/
def wideRun : World :=
  (start {} 0).after (.mk [] (.source (.text "items") none) false none ::
    (List.range 51).map fun n =>
      .mk [] (.select (.text "x") ("f" ++ Numeral.text n)) false none)

theorem reached_wideRun : wideRun.Reached :=
  (Reached.initial {} 0).after _ (by decide +kernel)

/-- Its object consists of two calls. -/
theorem rowObject_spells_wideRun :
    ∃ f w' symbols calls, (rowObject (lockWith 20) {}).exec root wideRun = (.ok f, w') ∧
      RowObject.Spells f (w'.builder root).resolved.selects symbols calls ∧
      (w'.builder root).resolved.selects.length = 51 := by
  have hobject : ((rowObject (lockWith 20) {}).exec root wideRun).1.isOk = true := by
    decide +kernel
  obtain ⟨f, w', hrun⟩ := exec_of_isOk hobject
  have hselects : (w'.builder root).resolved.selects.length = 51 := by
    rw [show w' = _ from (congrArg Prod.snd hrun).symm]
    decide +kernel
  obtain ⟨hlive, hclosed⟩ := reached_wideRun.sound
  obtain ⟨hnamed, -, hspells⟩ := rowObject_spells 20
  obtain ⟨⟨symbols, calls, hcalls⟩, -⟩ := hspells hlive hclosed (hnamed _ reached_wideRun)
    (by decide +kernel) rfl rfl hrun (by intro hnil; simp [hnil] at hselects)
    (by intro field hfield; simp [hfield] at hselects)
  exact ⟨f, w', symbols, calls, hrun, hcalls, hselects⟩

end World

end PageQuery
