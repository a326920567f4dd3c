import Mathlib.Data.Finset.Card
import PageQuery.Proofs.Sql.Rendering

/-!
# The numbers of alias tokens

A token prints as a local name, and the number in it is the place of the token among the
tokens of the fragment, each counted where it stands first.  Main statement: so two tokens
print the same name only if they are the same token, the numbers have no gap, and which
tokens they are plays no part.
-/

namespace PageQuery.Sql

theorem localName_injective : Function.Injective localName := by
  intro m n hname
  simp only [localName, Numeral.text, String.append_left_inj, String.append_right_inj,
    String.ofList_inj, Numeral.decimal_eq_toDigits] at hname
  have hvalue := congrArg (Nat.ofDigitChars 10 · 0) hname
  simpa using hvalue

theorem IdentPart.rendered_token (number : AliasToken → Nat) (t : AliasToken) :
    (IdentPart.token t).rendered number = localName (number t) := by
  rw [rendered, localName, Numeral.text_eq_toString]

theorem eraseDups_nodup (tokens : List AliasToken) : tokens.eraseDups.Nodup := by
  match tokens with
  | [] => exact List.nodup_nil
  | t :: rest =>
      have hshorter : (rest.filter fun u => !u == t).length < rest.length + 1 :=
        Nat.lt_succ_of_le (List.length_filter_le ..)
      rw [List.eraseDups_cons, List.nodup_cons]
      refine ⟨?_, eraseDups_nodup _⟩
      simp [List.mem_eraseDups]
termination_by tokens.length

theorem mem_aliases {f : Fragment} {t : AliasToken} :
    t ∈ aliases f ↔ t ∈ f.flatMap Node.tokens := List.mem_eraseDups

theorem nodup_aliases (f : Fragment) : (aliases f).Nodup := eraseDups_nodup _

theorem length_aliases (f : Fragment) :
    (aliases f).length = (f.flatMap Node.tokens).toFinset.card := by
  have hsame : (aliases f).toFinset = (f.flatMap Node.tokens).toFinset := by
    ext t
    rw [List.mem_toFinset, List.mem_toFinset, mem_aliases]
  rw [← List.toFinset_card_of_nodup (nodup_aliases f), hsame]

/-- In a list without duplicates, the places are the numbers from zero on. -/
theorem map_idxOf_self {tokens : List AliasToken} (hnodup : tokens.Nodup) :
    tokens.map tokens.idxOf = List.range tokens.length := by
  refine List.ext_getElem (by simp) fun i hi _ => ?_
  rw [List.getElem_map, List.getElem_range, hnodup.idxOf_getElem]

/-- What tokens of a fragment print as tells them apart. -/
theorem localName_idxOf_inj {f : Fragment} {t u : AliasToken} (ht : t ∈ f.flatMap Node.tokens) :
    localName ((aliases f).idxOf t) = localName ((aliases f).idxOf u) ↔ t = u := by
  rw [localName_injective.eq_iff, List.idxOf_inj (mem_aliases.mpr ht)]

theorem aliasNode_rendered (number : AliasToken → Nat) (place : Nat) (t : AliasToken) :
    (aliasNode t).rendered number place = localName (number t) :=
  IdentPart.rendered_token number t

/-- In the text of a compiled fragment, tokens are numbered by their places. -/
theorem text_of_compile {f : Fragment} {compiled : Compiled}
    (hcompiled : compile f = .ok compiled) : compiled.text = rendered (aliases f).idxOf 0 f := by
  have hok : f.flatMap Node.faults = [] := isOk_checked_iff.mp ⟨compiled, by
    rwa [compile_eq_checked] at hcompiled⟩
  rw [compile_eq_checked, hok] at hcompiled
  cases hcompiled
  rfl

/-- Different tokens have different names in a compiled fragment. -/
theorem compile_names {f : Fragment} {compiled : Compiled} (hcompiled : compile f = .ok compiled) :
    ∃ number, compiled.text = rendered number 0 f ∧ ∀ t ∈ f.flatMap Node.tokens, ∀ u,
      (aliasNode t).rendered number 0 = (aliasNode u).rendered number 0 ↔ t = u := by
  refine ⟨(aliases f).idxOf, text_of_compile hcompiled, fun t ht u => ?_⟩
  rw [aliasNode_rendered, aliasNode_rendered, localName_idxOf_inj ht]

/-- The text of a compiled fragment is that of its nodes for numbers such that tokens print
the same name exactly if they are the same, and that are zero, one and so on for the
different tokens in the order in which they occur first.  The result, be it a statement or
an error, is the same under any other tokens as long as different ones stay different. -/
theorem compile_numbers_aliases (f : Fragment) :
    (∀ compiled, compile f = .ok compiled → ∃ number : AliasToken → Nat,
      compiled.text = rendered number 0 f ∧
      (∀ t ∈ f.flatMap Node.tokens, ∀ u ∈ f.flatMap Node.tokens,
        (IdentPart.token t).rendered number = (IdentPart.token u).rendered number ↔ t = u) ∧
      (aliases f).map number = List.range (f.flatMap Node.tokens).toFinset.card) ∧
    ∀ ρ, Function.Injective ρ → compile (rename ρ f) = compile f := by
  refine ⟨fun compiled hcompiled => ?_, fun ρ hρ => compile_rename hρ f⟩
  refine ⟨(aliases f).idxOf, text_of_compile hcompiled, fun t ht u _ => ?_, ?_⟩
  · rw [IdentPart.rendered_token, IdentPart.rendered_token, localName_idxOf_inj ht]
  · rw [map_idxOf_self (nodup_aliases f), length_aliases]

/-- A child's source may stand before that of its parent, alone or in front of a name. -/
def tokensOutOfOrder : Fragment :=
  [.identifier [.token ⟨7⟩, .name "a"], .raw " = ", .identifier [.token ⟨2⟩, .name "b"],
    .raw " from ", .identifier [.token ⟨7⟩], .raw ", ", .identifier [.token ⟨2⟩]]

theorem compile_numbers_aliases_outOfOrder :
    compile tokensOutOfOrder =
        .ok ⟨"__local_0__.\"a\" = __local_1__.\"b\" from __local_0__, __local_1__", []⟩ ∧
      (∃ number : AliasToken → Nat,
        "__local_0__.\"a\" = __local_1__.\"b\" from __local_0__, __local_1__" =
          rendered number 0 tokensOutOfOrder ∧
        (∀ t ∈ tokensOutOfOrder.flatMap Node.tokens, ∀ u ∈ tokensOutOfOrder.flatMap Node.tokens,
          (IdentPart.token t).rendered number = (IdentPart.token u).rendered number ↔ t = u) ∧
        (aliases tokensOutOfOrder).map number =
          List.range (tokensOutOfOrder.flatMap Node.tokens).toFinset.card) ∧
      compile (rename (fun t => ⟨t.id + 5⟩) tokensOutOfOrder) = compile tokensOutOfOrder := by
  have hcompiled : compile tokensOutOfOrder =
      .ok ⟨"__local_0__.\"a\" = __local_1__.\"b\" from __local_0__, __local_1__", []⟩ := rfl
  have hinjective : Function.Injective fun t : AliasToken => (⟨t.id + 5⟩ : AliasToken) := by
    rintro ⟨m⟩ ⟨n⟩ heq
    simpa using heq
  exact ⟨hcompiled, (compile_numbers_aliases tokensOutOfOrder).1 _ hcompiled,
    (compile_numbers_aliases tokensOutOfOrder).2 _ hinjective⟩

end PageQuery.Sql
