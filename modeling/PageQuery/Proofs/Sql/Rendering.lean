import PageQuery.Proofs.Alias.Renaming
import PageQuery.Proofs.Text.Numeral

/-!
# What fragments compile to

Compiling is one pass that counts values and collects alias tokens on its way.  Here the
same statement is put together without a pass: each node has its text as soon as it is known
how many values stand before it and how tokens are numbered, and a token's number is its
place among all tokens of the fragment.  Main statement: a fragment compiles to this text
unless one of its nodes has a fault, and then the first fault is the error; so a fragment
behind another one keeps its text, but for the numbers that go on from there.
-/

namespace PageQuery.Sql

/-! Faults -/

/-- What is wrong with a part of an identifier. -/
def IdentPart.faults : IdentPart → List NodeFault
  | .name s =>
    if s = "" then [.emptyName] else if Char.ofNat 0 ∈ s.toList then [.nameNul] else []
  | .token _ => []

/-- What is wrong with a node, from left to right. -/
def Node.faults : Node → List NodeFault
  | .raw s => if Char.ofNat 0 ∈ s.toList then [.rawNul] else []
  | .identifier [] => [.noParts]
  | .identifier parts => parts.flatMap IdentPart.faults
  | .value _ => []

def firstFault? (f : Fragment) : Option NodeFault := (f.flatMap Node.faults).head?

/-- Raw text without a NUL, and identifiers of names that are not empty and have none. -/
def Node.Sound : Node → Prop
  | .raw s => Char.ofNat 0 ∉ s.toList
  | .identifier parts =>
    parts ≠ [] ∧ ∀ s, .name s ∈ parts → s ≠ "" ∧ Char.ofNat 0 ∉ s.toList
  | .value _ => True

/-! Texts -/

/-- The alias tokens of a fragment, each at the place of its first occurrence. -/
def aliases (f : Fragment) : List AliasToken := (f.flatMap Node.tokens).eraseDups

/-- The alias tokens of a fragment behind those of another one that stands before it. -/
def aliasesBehind (f g : Fragment) : List AliasToken :=
  aliases f ++ (aliases g).removeAll (aliases f)

def params (f : Fragment) : List Param := f.filterMap Node.param?

theorem params_append (f g : Fragment) : params (f ++ g) = params f ++ params g :=
  List.filterMap_append

@[simp]
theorem params_text (s : String) : params (text s) = [] := by
  unfold text
  split <;> rfl

theorem join_cons_cons (f g : Fragment) (rest : List Fragment) (separator : String) :
    join (f :: g :: rest) separator = f ++ (text separator ++ join (g :: rest) separator) := by
  simp [join, List.intersperse_cons_cons]

theorem params_join (items : List Fragment) (separator : String) :
    params (join items separator) = items.flatMap params := by
  induction items with
  | nil => rfl
  | cons first others ih =>
      cases others with
      | nil => simp [join]
      | cons second others =>
          rw [join_cons_cons, params_append, params_append, params_text, ih]
          rfl

/-- The text of a part where tokens have the given numbers. -/
def IdentPart.rendered (number : AliasToken → Nat) : IdentPart → String
  | .name s => quoteName s
  | .token t => "__local_" ++ toString (number t) ++ "__"

/-- The text of a node; a value is the one of the given place. -/
def Node.rendered (number : AliasToken → Nat) (place : Nat) : Node → String
  | .raw s => s
  | .identifier parts => String.intercalate "." (parts.map (IdentPart.rendered number))
  | .value _ => "$" ++ toString place

/-- The text of a fragment behind so many values: that of its nodes, where a value has the
place behind those before it. -/
def rendered (number : AliasToken → Nat) (values : Nat) (f : Fragment) : String :=
  String.join (f.mapIdx fun i node =>
    node.rendered number (values + (params (f.take i)).length + 1))

theorem rendered_cons (number : AliasToken → Nat) (values : Nat) (node : Node) (f : Fragment) :
    rendered number values (node :: f) = node.rendered number (values + 1) ++
      rendered number (values + node.param?.toList.length) f := by
  have hparams (i : Nat) : (params ((node :: f).take (i + 1))).length =
      node.param?.toList.length + (params (f.take i)).length := by
    cases hnode : node.param? <;> simp [params, hnode, Nat.add_comm]
  simp only [rendered, List.mapIdx_cons, String.join_cons, hparams, Nat.add_assoc]
  rfl

theorem rendered_append (number : AliasToken → Nat) (values : Nat) (f g : Fragment) :
    rendered number values (f ++ g) =
      rendered number values f ++ rendered number (values + (params f).length) g := by
  induction f generalizing values with
  | nil => exact (String.empty_append).symm
  | cons node rest ih =>
      have hparams : (params (node :: rest)).length =
          node.param?.toList.length + (params rest).length := by
        cases hnode : node.param? <;> simp [params, hnode, Nat.add_comm]
      rw [List.cons_append, rendered_cons, rendered_cons, ih, hparams, String.append_assoc,
        Nat.add_assoc]

/-! Tokens that are met in a pass -/

/-- Of the tokens that are left, each keeps the place of its first occurrence. -/
theorem eraseDups_filter (p : AliasToken → Bool) (tokens : List AliasToken) :
    (tokens.filter p).eraseDups = tokens.eraseDups.filter p := by
  -- the recursion of `eraseDups` goes down the tokens other than the first one
  match tokens with
  | [] => rfl
  | t :: rest =>
      have hshorter : (rest.filter fun u => !u == t).length < rest.length + 1 :=
        Nat.lt_succ_of_le (List.length_filter_le ..)
      have ih := eraseDups_filter p (rest.filter fun u => !u == t)
      rw [List.filter_filter] at ih
      by_cases hkept : p t
      · rw [List.filter_cons_of_pos hkept, List.eraseDups_cons, List.eraseDups_cons,
          List.filter_cons_of_pos hkept, ← ih, List.filter_filter]
        simp only [Bool.and_comm]
      · have hout : (fun u => p u && !u == t) = p := by
          funext u
          by_cases hu : u = t
          · simp [hu, hkept]
          · simp [hu]
        rw [List.filter_cons_of_neg hkept, List.eraseDups_cons, List.filter_cons_of_neg hkept,
          ← ih, hout]
termination_by tokens.length

/-- The tokens that are known behind others. -/
def met (known tokens : List AliasToken) : List AliasToken :=
  known ++ (tokens.removeAll known).eraseDups

theorem met_nil (known : List AliasToken) : met known [] = known := List.append_nil known

theorem met_cons (known : List AliasToken) (t : AliasToken) (tokens : List AliasToken) :
    met known (t :: tokens) = met (IdentPart.meet known (.token t)) tokens := by
  by_cases hknown : t ∈ known
  · simp [met, IdentPart.meet, hknown, List.removeAll]
  · have hothers : (tokens.removeAll known).filter (fun u => !u == t) =
        tokens.removeAll (known ++ [t]) := by
      rw [List.removeAll, List.removeAll, List.filter_filter]
      congr 1
      funext u
      rw [Bool.eq_iff_iff]
      simp [and_comm]
    have hfirst : (t :: tokens).removeAll known = t :: tokens.removeAll known := by
      simp [List.removeAll, hknown]
    rw [met, met, IdentPart.meet, if_neg hknown, hfirst, List.eraseDups_cons, hothers,
      List.append_assoc, List.singleton_append]

theorem mem_meet (known : List AliasToken) (t : AliasToken) :
    t ∈ IdentPart.meet known (.token t) := by
  rw [IdentPart.meet]
  split
  · assumption
  · exact List.mem_append_right _ List.mem_cons_self

theorem foldl_meet (known : List AliasToken) (parts : List IdentPart) :
    parts.foldl IdentPart.meet known = met known (parts.flatMap IdentPart.tokens) := by
  induction parts generalizing known with
  | nil => exact (met_nil known).symm
  | cons part rest ih =>
      rw [List.foldl_cons, ih, List.flatMap_cons]
      cases part with
      | name s => rfl
      | token t => exact (met_cons known t _).symm

theorem prefix_foldl_meet (known : List AliasToken) (parts : List IdentPart) :
    known <+: parts.foldl IdentPart.meet known := by
  rw [foldl_meet]
  exact List.prefix_append ..

theorem met_append (known tokens others : List AliasToken) :
    met known (tokens ++ others) = met (met known tokens) others := by
  induction tokens generalizing known with
  | nil => rw [List.nil_append, met_nil]
  | cons t rest ih => rw [List.cons_append, met_cons, ih, met_cons]

/-! The pass -/

/-- The result, unless there is a fault: the first one is the error then. -/
def checked {α : Type} (faults : List NodeFault) (result : α) : Except Error α :=
  match faults.head? with
  | some fault => .error (.invalidNode fault)
  | none => .ok result

theorem checked_append {α β γ : Type} (faults others : List NodeFault) (a : α) (b : β)
    (pair : α → β → γ) :
    checked (faults ++ others) (pair a b) =
      checked faults a >>= fun a => checked others b >>= fun b => .ok (pair a b) := by
  cases faults with
  | nil => cases others <;> rfl
  | cons fault rest => rfl

/-- A part has its text by the numbers of any tokens that go on from those known behind it. -/
theorem IdentPart.text_eq_checked {known final : List AliasToken} {part : IdentPart}
    (hfinal : part.meet known <+: final) :
    part.text known = checked part.faults (part.rendered final.idxOf) := by
  cases part with
  | name s =>
      rw [text, faults, hasNul]
      split
      · rfl
      · simp only [List.contains_iff_mem]
        split <;> rfl
  | token t =>
      have hnumber : known.idxOf t = final.idxOf t := by
        rw [← hfinal.idxOf_eq_of_mem (mem_meet known t), IdentPart.meet]
        split
        · rfl
        · rename_i hnew
          rw [List.idxOf_append_of_notMem hnew, List.idxOf_cons_self, List.idxOf_of_notMem hnew]
          rfl
      rw [text, localName, Numeral.text_eq_toString, hnumber]
      rfl

theorem IdentPart.texts_eq_checked {known final : List AliasToken} {parts : List IdentPart}
    (hfinal : parts.foldl IdentPart.meet known <+: final) :
    texts known parts =
      checked (parts.flatMap faults) (parts.map (rendered final.idxOf)) := by
  induction parts generalizing known with
  | nil => rfl
  | cons part rest ih =>
      have hpart : part.meet known <+: final := (prefix_foldl_meet _ rest).trans hfinal
      rw [texts, text_eq_checked hpart, ih hfinal]
      exact (checked_append part.faults (rest.flatMap faults) _ _ List.cons).symm

/-- The text of a node is its rendering, unless it has a fault. -/
theorem Node.text_eq_checked {numbering : Numbering} {final : List AliasToken} {node : Node}
    (hfinal : (node.advance numbering).aliases <+: final) :
    node.text numbering =
      checked node.faults (node.rendered final.idxOf (numbering.values + 1)) := by
  cases node with
  | raw s =>
      rw [text, faults, hasNul]
      simp only [List.contains_iff_mem]
      split <;> rfl
  | identifier parts =>
      cases parts with
      | nil => rfl
      | cons part rest =>
          rw [text, IdentPart.texts_eq_checked hfinal, faults]
          · cases hfaults : (part :: rest).flatMap IdentPart.faults <;> rfl
          · intro hnone
            cases hnone
          · intro hnone
            cases hnone
  | value param =>
      rw [text, placeholder, Numeral.text_eq_toString]
      rfl

theorem Node.advance_eq (numbering : Numbering) (node : Node) :
    node.advance numbering =
      ⟨numbering.values + node.param?.toList.length, met numbering.aliases node.tokens⟩ := by
  cases node with
  | raw s => exact congrArg (Numbering.mk numbering.values) (met_nil _).symm
  | identifier parts => exact congrArg (Numbering.mk numbering.values) (foldl_meet _ _)
  | value param => exact congrArg (Numbering.mk (numbering.values + 1)) (met_nil _).symm

theorem Node.texts_eq_checked {numbering : Numbering} {final : List AliasToken} {f : Fragment}
    (hfinal : met numbering.aliases (f.flatMap tokens) <+: final) :
    (do return String.join (← texts numbering f)) =
      checked (f.flatMap faults) (Sql.rendered final.idxOf numbering.values f) := by
  induction f generalizing numbering with
  | nil => rfl
  | cons node rest ih =>
      rw [List.flatMap_cons, met_append] at hfinal
      have hnode : (node.advance numbering).aliases <+: final := by
        rw [advance_eq]
        exact (List.prefix_append ..).trans hfinal
      have hbehind : met (node.advance numbering).aliases (rest.flatMap tokens) <+: final := by
        rwa [advance_eq]
      have hrest := ih hbehind
      rw [List.flatMap_cons, rendered_cons,
        checked_append node.faults (rest.flatMap faults) _ _ fun s t => s ++ t,
        ← text_eq_checked hnode]
      have hvalues : numbering.values + node.param?.toList.length =
          (node.advance numbering).values := by rw [advance_eq]
      rw [hvalues, ← hrest, texts]
      cases node.text numbering with
      | error e => rfl
      | ok first =>
          cases texts (node.advance numbering) rest with
          | error e => rfl
          | ok others => exact congrArg Except.ok (String.join_cons ..)

/-- A fragment compiles to its rendering, or to its first fault. -/
theorem compile_eq_checked (f : Fragment) :
    compile f = checked (f.flatMap Node.faults) ⟨rendered (aliases f).idxOf 0 f, params f⟩ := by
  have htokens : met [] (f.flatMap Node.tokens) <+: aliases f := by
    rw [met, List.nil_append, List.removeAll_nil]
    exact List.prefix_rfl
  have htext : compile f = (do return String.join (← Node.texts {} f)) >>=
      fun text => .ok ⟨text, params f⟩ := by
    rw [compile]
    cases Node.texts {} f <;> rfl
  rw [htext, Node.texts_eq_checked htokens]
  cases f.flatMap Node.faults <;> rfl

/-! Sound fragments -/

theorem IdentPart.faults_eq_nil_iff {part : IdentPart} :
    part.faults = [] ↔ ∀ s, part = .name s → s ≠ "" ∧ Char.ofNat 0 ∉ s.toList := by
  cases part with
  | name s =>
      rw [faults]
      split
      · simp_all
      · split <;> simp_all
  | token t => simp [faults]

/-- A node without faults is a sound one. -/
theorem Node.faults_eq_nil_iff {node : Node} : node.faults = [] ↔ node.Sound := by
  cases node with
  | raw s =>
      rw [faults, Sound]
      split <;> simp_all
  | identifier parts =>
      cases parts with
      | nil => simp [faults, Sound]
      | cons part rest =>
          rw [faults, List.flatMap_eq_nil_iff, Sound]
          · simp only [IdentPart.faults_eq_nil_iff]
            constructor
            · exact fun h => ⟨nofun, fun s hs => h _ hs s rfl⟩
            · rintro ⟨-, h⟩ _ hpart s rfl
              exact h s hpart
          · nofun
  | value param => simp [faults, Sound]

theorem compile_singleton {node : Node} (hnode : node.Sound) :
    compile [node] = .ok ⟨node.rendered (aliases [node]).idxOf 1, params [node]⟩ := by
  have hfaults : [node].flatMap Node.faults = [] := by
    rw [List.flatMap_singleton, Node.faults_eq_nil_iff]
    exact hnode
  have htext : rendered (aliases [node]).idxOf 0 [node] =
      node.rendered (aliases [node]).idxOf 1 := by
    rw [rendered_cons]
    exact String.append_empty
  rw [compile_eq_checked, hfaults, htext]
  rfl

/-- What is checked is answered exactly if there are no faults. -/
theorem isOk_checked_iff {α : Type} {faults : List NodeFault} {result : α} :
    (∃ a, checked faults result = .ok a) ↔ faults = [] := by
  cases faults with
  | nil => exact ⟨fun _ => rfl, fun _ => ⟨result, rfl⟩⟩
  | cons fault rest => exact ⟨fun ⟨_, hok⟩ => (nomatch hok), nofun⟩

theorem aliases_append (f g : Fragment) : aliases (f ++ g) = aliasesBehind f g := by
  have hothers : (g.flatMap Node.tokens).removeAll (f.flatMap Node.tokens) =
      (g.flatMap Node.tokens).removeAll (aliases f) := by
    rw [List.removeAll, List.removeAll]
    congr 1
    funext t
    rw [Bool.eq_iff_iff]
    simp [aliases, List.mem_eraseDups]
  rw [aliases, List.flatMap_append, List.eraseDups_append, hothers, List.removeAll,
    eraseDups_filter]
  rfl

/-- Numbers do not change behind the fragment that they have been given in. -/
theorem rendered_of_prefix {f : Fragment} {final : List AliasToken}
    (hfinal : aliases f <+: final) (values : Nat) :
    rendered final.idxOf values f = rendered (aliases f).idxOf values f := by
  have hpart (node : Node) (hnode : node ∈ f) (place : Nat) :
      node.rendered final.idxOf place = node.rendered (aliases f).idxOf place := by
    cases node with
    | raw s => rfl
    | value param => rfl
    | identifier parts =>
        have hparts : parts.map (IdentPart.rendered final.idxOf) =
            parts.map (IdentPart.rendered (aliases f).idxOf) := by
          refine List.map_congr_left fun part hpart => ?_
          cases part with
          | name s => rfl
          | token t =>
              have ht : t ∈ aliases f := List.mem_eraseDups.mpr <| List.mem_flatMap.mpr
                ⟨_, hnode, List.mem_flatMap.mpr ⟨_, hpart, List.mem_cons_self⟩⟩
              rw [IdentPart.rendered, IdentPart.rendered, hfinal.idxOf_eq_of_mem ht]
        exact congrArg (String.intercalate ".") hparts
  rw [rendered, rendered]
  congr 1
  exact List.mapIdx_eq_mapIdx_iff.mpr fun i hi => hpart _ (List.getElem_mem hi) _

/-- Two fragments compile one behind the other, the second with numbers that go on. -/
theorem compile_append (f g : Fragment) :
    compile (f ++ g) = do
      let front ← compile f
      let back ← compile g
      return ⟨front.text ++ rendered (aliasesBehind f g).idxOf front.params.length g,
        front.params ++ back.params⟩ := by
  have hbehind : aliases f <+: aliasesBehind f g := List.prefix_append ..
  have htext : rendered (aliases (f ++ g)).idxOf 0 (f ++ g) =
      rendered (aliases f).idxOf 0 f ++
        rendered (aliasesBehind f g).idxOf (params f).length g := by
    rw [aliases_append, rendered_append, Nat.zero_add, rendered_of_prefix hbehind]
  rw [compile_eq_checked, compile_eq_checked f, compile_eq_checked g, htext, params_append,
    List.flatMap_append]
  cases f.flatMap Node.faults <;> cases g.flatMap Node.faults <;> rfl

/-- A fragment compiles if and only if all of its nodes are sound.  It compiles to the texts
of its nodes, with the values in their order, or fails with its first fault; and behind
another fragment, its values and its own alias tokens are numbered on from there. -/
theorem compile_eq_rendered (f g : Fragment) :
    ((∃ compiled, compile f = .ok compiled) ↔ ∀ node ∈ f, node.Sound) ∧
      (compile f = match firstFault? f with
        | some fault => .error (.invalidNode fault)
        | none => .ok ⟨rendered (aliases f).idxOf 0 f, params f⟩) ∧
      compile (f ++ g) = do
        let front ← compile f
        let back ← compile g
        return ⟨front.text ++ rendered (aliasesBehind f g).idxOf front.params.length g,
          front.params ++ back.params⟩ := by
  refine ⟨?_, compile_eq_checked f, compile_append f g⟩
  rw [compile_eq_checked, isOk_checked_iff, List.flatMap_eq_nil_iff]
  simp only [Node.faults_eq_nil_iff]

end PageQuery.Sql
