import PageQuery.Proofs.Json.Scalars
import PageQuery.Proofs.Sql.Numbering
import PageQuery.Proofs.Sql.Quotation
import PageQuery.Proofs.Sql.Token

/-!
# Reading identifiers back

A dotted identifier is a list of words.  A word between double quotes says what stands there,
doubled marks being single ones; a bare word ends with its characters and is folded to lower
case.  Main statement: what an identifier compiles to is read as its names and the local names
of its tokens, whatever the names hold, so identifiers that differ do not compile alike.
-/

namespace PageQuery.Sql

/-! The reader -/

inductive Word
  | quoted (name : String)
  | plain (name : String)
  deriving DecidableEq, Repr

/-- The word in front of a text and the text behind it.  No name is empty. -/
def word? : List Char → Option (Word × List Char)
  | [] => none
  | c :: rest =>
    if c = '"' then
      (quotation '"' .off rest).bind fun (name, rest) =>
        if name = [] then none else some (.quoted (String.ofList name), rest)
    else if isWordStart c then
      let name := c :: rest.takeWhile isWordChar
      some (.plain (String.ofList (name.map Char.toLower)), rest.dropWhile isWordChar)
    else none

theorem length_lt_of_word? {cs rest : List Char} {word : Word}
    (hread : word? cs = some (word, rest)) : rest.length < cs.length := by
  cases cs with
  | nil => cases hread
  | cons c behind =>
      simp only [word?] at hread
      rw [List.length_cons, Nat.lt_succ_iff]
      split at hread
      · obtain ⟨read, hname, hread⟩ := Option.bind_eq_some_iff.mp hread
        split at hread
        · cases hread
        · cases hread
          exact (length_lt_of_quotation hname).le
      · split at hread
        · cases hread
          exact (List.dropWhile_suffix _).length_le
        · cases hread

/-- The words of a dotted identifier and the text behind it. -/
def dotted? (cs : List Char) : Option (List Word × List Char) :=
  match _hword : word? cs with
  | none => none
  | some (word, '.' :: rest) => (dotted? rest).map fun read => (word :: read.1, read.2)
  | some (word, rest) => some ([word], rest)
termination_by cs.length
decreasing_by
  have hshorter := length_lt_of_word? _hword
  rw [List.length_cons] at hshorter
  omega

theorem dotted?_of_dot {cs rest : List Char} {word : Word}
    (hword : word? cs = some (word, '.' :: rest)) :
    dotted? cs = (dotted? rest).map fun read => (word :: read.1, read.2) := by
  rw [dotted?]
  split <;> simp_all

theorem dotted?_of_end {cs rest : List Char} {word : Word}
    (hword : word? cs = some (word, rest)) (hrest : rest.head? ≠ some '.') :
    dotted? cs = some ([word], rest) := by
  rw [dotted?]
  split
  · simp_all
  · rename_i hdot
    rw [hword] at hdot
    cases hdot
    exact absurd rfl hrest
  · simp_all

/-! Parts -/

/-- What a part says where tokens have the given numbers. -/
def IdentPart.word (number : AliasToken → Nat) : IdentPart → Word
  | .name s => .quoted s
  | .token t => .plain (localName (number t))

/-- The text of a word. -/
def Word.spelling : Word → String
  | .quoted name => quoteName name
  | .plain name => name

theorem IdentPart.spelling_word (number : AliasToken → Nat) (part : IdentPart) :
    (part.word number).spelling = part.rendered number := by
  cases part with
  | name s => rfl
  | token t => exact (rendered_token number t).symm

/-- Behind the text, a word is neither doubled nor goes on. -/
def EndsWord (rest : List Char) : Prop := ∀ c ∈ rest.head?, c ≠ '"' ∧ isWordChar c = false

/-- A quoted name is read up to its own end, whatever it holds. -/
theorem word?_quoteName {s : String} (hs : s ≠ "") {rest : List Char}
    (hrest : rest.head? ≠ some '"') :
    word? ((quoteName s).toList ++ rest) = some (.quoted s, rest) := by
  have hname : s.toList ≠ [] := fun hnil => hs (String.toList_eq_nil_iff.mp hnil)
  simp only [quoteName, String.toList_ofList, List.cons_append, List.append_assoc, word?,
    List.nil_append, if_true]
  rw [quotation_flatMap s.toList hrest, Option.bind_some, if_neg hname, String.ofList_toList]

theorem toLower_of_isDigit {c : Char} (hc : c.isDigit = true) : c.toLower = c := by
  simp only [Char.isDigit, Bool.and_eq_true, decide_eq_true_eq, UInt32.le_iff_toNat_le] at hc
  have hnine : '9'.val.toNat < 'A'.val.toNat := by decide
  refine dif_neg fun hupper => ?_
  have := UInt32.le_iff_toNat_le.mp hupper.1
  omega

/-- Local names are bare words in lower case. -/
theorem localName_chars {n : Nat} {c : Char} (hc : c ∈ (localName n).toList) :
    isWordChar c = true ∧ c.toLower = c := by
  have hfront : "__local_".toList.all fun c => isWordChar c && c.toLower = c := by decide
  have hback : "__".toList.all fun c => isWordChar c && c.toLower = c := by decide
  simp only [List.all_eq_true, Bool.and_eq_true, decide_eq_true_eq] at hfront hback
  simp only [localName, Numeral.text, String.toList_append, String.toList_ofList,
    List.mem_append] at hc
  obtain (hc | hc) | hc := hc
  · exact hfront c hc
  · have hdigit := Json.isDigit_of_mem_decimal hc
    exact ⟨by simp [isWordChar, hdigit], toLower_of_isDigit hdigit⟩
  · exact hback c hc

theorem word?_localName (n : Nat) {rest : List Char} (hrest : EndsWord rest) :
    word? ((localName n).toList ++ rest) = some (.plain (localName n), rest) := by
  obtain ⟨others, hchars⟩ : ∃ others, (localName n).toList = '_' :: others := by
    refine ⟨(localName n).toList.tail, ?_⟩
    simp [localName, String.toList_append]
  have hothers : ∀ c ∈ others, isWordChar c = true := fun c hc =>
    (localName_chars (n := n) (hchars ▸ List.mem_cons_of_mem _ hc)).1
  have hfolded : ('_' :: others).map Char.toLower = '_' :: others := by
    rw [← hchars]
    exact (List.map_congr_left fun c hc => (localName_chars hc).2).trans (List.map_id' _)
  have hend : rest.takeWhile isWordChar = [] ∧ rest.dropWhile isWordChar = rest := by
    cases rest with
    | nil => exact ⟨rfl, rfl⟩
    | cons c rest => simp [(hrest c rfl).2]
  rw [hchars, List.cons_append, word?, if_neg (by decide), if_pos (by decide),
    List.takeWhile_append_of_pos hothers, List.dropWhile_append_of_pos hothers, hend.1, hend.2,
    List.append_nil]
  change some (Word.plain (String.ofList (('_' :: others).map Char.toLower)), rest) = _
  rw [hfolded, ← hchars, String.ofList_toList]

theorem word?_rendered {number : AliasToken → Nat} {part : IdentPart}
    (hpart : ∀ s, part = .name s → s ≠ "") {rest : List Char} (hrest : EndsWord rest) :
    word? ((part.rendered number).toList ++ rest) = some (part.word number, rest) := by
  cases part with
  | name s => exact word?_quoteName (hpart s rfl) fun hdoubled => (hrest _ hdoubled).1 rfl
  | token t =>
      rw [IdentPart.rendered_token]
      exact word?_localName _ hrest

/-! Identifiers -/

/-- Behind the text, an identifier is over: no mark, no dot, and no character of a word. -/
def EndsName (rest : List Char) : Prop :=
  ∀ c ∈ rest.head?, c ≠ '"' ∧ c ≠ '.' ∧ isWordChar c = false

/-- The parts of an identifier are read one after the other, each up to the dot behind it. -/
theorem dotted?_rendered {number : AliasToken → Nat} {parts : List IdentPart}
    (hparts : parts ≠ []) (hnames : ∀ s, .name s ∈ parts → s ≠ "") {place : Nat}
    {rest : List Char} (hrest : EndsName rest) :
    dotted? (((Node.identifier parts).rendered number place).toList ++ rest) =
      some (parts.map (IdentPart.word number), rest) := by
  rw [Node.rendered]
  induction parts with
  | nil => exact absurd rfl hparts
  | cons part others ih =>
      have hpart : ∀ s, part = .name s → s ≠ "" := fun s hs => hnames s (hs ▸ List.mem_cons_self)
      cases others with
      | nil =>
          have hword : EndsWord rest := fun c hc => ⟨(hrest c hc).1, (hrest c hc).2.2⟩
          exact dotted?_of_end (word?_rendered hpart hword) fun hdot => (hrest _ hdot).2.1 rfl
      | cons next others =>
          have hdot (behind : List Char) : EndsWord ('.' :: behind) := by
            rintro c ⟨⟩
            decide
          have hothers := ih nofun fun s hs => hnames s (List.mem_cons_of_mem _ hs)
          have hmark : ".".toList = ['.'] := rfl
          rw [List.map_cons, List.map_cons, String.intercalate_cons_cons, ← List.map_cons,
            String.toList_append, String.toList_append, List.append_assoc, List.append_assoc, hmark,
            List.singleton_append, dotted?_of_dot (word?_rendered hpart (hdot _)), hothers]
          rfl

theorem compile_identifier {parts : List IdentPart} (hsound : (Node.identifier parts).Sound) :
    compile [.identifier parts] =
      .ok ⟨(Node.identifier parts).rendered (aliases [.identifier parts]).idxOf 1, []⟩ :=
  compile_singleton hsound

/-- The text of an identifier is that of its words. -/
theorem rendered_eq_spelling (number : AliasToken → Nat) (parts : List IdentPart) (place : Nat) :
    (Node.identifier parts).rendered number place =
      String.intercalate "." ((parts.map (IdentPart.word number)).map Word.spelling) := by
  rw [Node.rendered, List.map_map]
  congr 1
  exact List.map_congr_left fun part _ => (part.spelling_word number).symm

/-- Identifiers with the same text say the same, however their tokens are numbered. -/
theorem words_of_rendered {number number' : AliasToken → Nat} {parts others : List IdentPart}
    (hparts : (Node.identifier parts).Sound) (hothers : (Node.identifier others).Sound)
    {place : Nat} (htext : (Node.identifier parts).rendered number place =
      (Node.identifier others).rendered number' place) :
    parts.map (IdentPart.word number) = others.map (IdentPart.word number') := by
  have hend : EndsName [] := nofun
  have hread : dotted? (((Node.identifier parts).rendered number place).toList ++ []) =
      some (parts.map (IdentPart.word number), []) :=
    dotted?_rendered hparts.1 (fun s hs => (hparts.2 s hs).1) hend
  rw [htext, dotted?_rendered hothers.1 (fun s hs => (hothers.2 s hs).1) hend] at hread
  exact (Prod.mk.inj (Option.some.inj hread)).1.symm

theorem compile_identifier_inj {parts others : List IdentPart}
    (hparts : (Node.identifier parts).Sound) (hothers : (Node.identifier others).Sound) :
    compile [.identifier parts] = compile [.identifier others] ↔
      parts.map (IdentPart.word (aliases [.identifier parts]).idxOf) =
        others.map (IdentPart.word (aliases [.identifier others]).idxOf) := by
  rw [compile_identifier hparts, compile_identifier hothers]
  refine ⟨fun halike => ?_, fun hwords => ?_⟩
  · exact words_of_rendered hparts hothers (Compiled.mk.inj (Except.ok.inj halike)).1
  · rw [rendered_eq_spelling, hwords, ← rendered_eq_spelling]

/-- Among the tokens of a fragment, a part says what only this part says. -/
theorem IdentPart.word_inj {f : Fragment} {part other : IdentPart}
    (hpart : ∀ t ∈ part.tokens, t ∈ f.flatMap Node.tokens) :
    part.word (aliases f).idxOf = other.word (aliases f).idxOf ↔ part = other := by
  cases part with
  | name s => cases other <;> simp [word]
  | token t =>
      cases other with
      | name s => simp [word]
      | token u =>
          simp only [word, Word.plain.injEq, token.injEq]
          exact localName_idxOf_inj (hpart t List.mem_cons_self)

theorem IdentPart.eq_of_map_word {f : Fragment} {parts others : List IdentPart}
    (hparts : ∀ part ∈ parts, ∀ t ∈ part.tokens, t ∈ f.flatMap Node.tokens)
    (hwords : parts.map (word (aliases f).idxOf) = others.map (word (aliases f).idxOf)) :
    parts = others := by
  induction parts generalizing others with
  | nil => exact (List.map_eq_nil_iff.mp hwords.symm).symm
  | cons part rest ih =>
      cases others with
      | nil => cases hwords
      | cons other others =>
          obtain ⟨hpart, hrest⟩ := List.forall_mem_cons.mp hparts
          obtain ⟨hword, hwords⟩ := List.cons.inj hwords
          rw [(word_inj hpart).mp hword, ih hrest hwords]

/-- In a fragment, identifiers with the same text are the same. -/
theorem rendered_identifier_inj {f : Fragment} {parts others : List IdentPart}
    (hparts : (Node.identifier parts).Sound) (hothers : (Node.identifier others).Sound)
    (hmem : .identifier parts ∈ f) (place : Nat) :
    (Node.identifier parts).rendered (aliases f).idxOf place =
        (Node.identifier others).rendered (aliases f).idxOf place ↔ parts = others := by
  refine ⟨fun htext => ?_, fun hsame => by rw [hsame]⟩
  refine IdentPart.eq_of_map_word (fun part hpart t ht => ?_)
    (words_of_rendered hparts hothers htext)
  exact List.mem_flatMap.mpr ⟨_, hmem, List.mem_flatMap.mpr ⟨part, hpart, ht⟩⟩

/-- An identifier of names that are not empty and have no NUL compiles.  Its text is read up to
its last character, whatever else than a double quote, a dot or a character of a word stands
behind it, and says the names in their order, with bare local names for alias tokens.  No
name ends its own quotation.  Two identifiers compile alike if and only if they say the same,
and in one fragment they have the same text only if they are the same. -/
theorem compile_identifier_read {parts : List IdentPart}
    (hsound : (Node.identifier parts).Sound) :
    (∃ text, compile [.identifier parts] = .ok ⟨text, []⟩ ∧
      ∀ rest, EndsName rest → dotted? (text.toList ++ rest) =
        some (parts.map (IdentPart.word (aliases [.identifier parts]).idxOf), rest)) ∧
      (∀ s, .name s ∈ parts → ∀ rest, rest.head? ≠ some '"' →
        word? ((quoteName s).toList ++ rest) = some (.quoted s, rest)) ∧
      ∀ others, (Node.identifier others).Sound →
        (compile [.identifier parts] = compile [.identifier others] ↔
          parts.map (IdentPart.word (aliases [.identifier parts]).idxOf) =
            others.map (IdentPart.word (aliases [.identifier others]).idxOf)) ∧
        ∀ f compiled, compile f = .ok compiled → .identifier parts ∈ f → .identifier others ∈ f →
          compiled.text = rendered (aliases f).idxOf 0 f ∧
            ∀ place, (Node.identifier parts).rendered (aliases f).idxOf place =
              (Node.identifier others).rendered (aliases f).idxOf place ↔ parts = others := by
  have hnames : ∀ s, .name s ∈ parts → s ≠ "" := fun s hs => (hsound.2 s hs).1
  refine ⟨⟨_, compile_identifier hsound, fun rest hrest => ?_⟩,
    fun s hs rest hrest => word?_quoteName (hnames s hs) hrest,
    fun others hothers => ⟨compile_identifier_inj hsound hothers, ?_⟩⟩
  · exact dotted?_rendered hsound.1 hnames hrest
  · exact fun f compiled hcompiled hmem _ =>
      ⟨text_of_compile hcompiled, rendered_identifier_inj hsound hothers hmem⟩

/-- The first name tries to end its quotation, the second one is nothing but marks. -/
def hostileParts : List IdentPart := [.name "a\"; --", .token ⟨7⟩, .name "\"\""]

theorem compile_identifier_read_hostile :
    (Node.identifier hostileParts).Sound ∧
      compile [.identifier hostileParts] = .ok ⟨"\"a\"\"; --\".__local_0__.\"\"\"\"\"\"", []⟩ ∧
      dotted? ("\"a\"\"; --\".__local_0__.\"\"\"\"\"\"".toList ++ ", 1".toList) =
        some ([.quoted "a\"; --", .plain "__local_0__", .quoted "\"\""], ", 1".toList) ∧
      compile [.identifier hostileParts] ≠
        compile [.identifier [.name "a\"; --.", .token ⟨7⟩]] := by
  have hsound : (Node.identifier hostileParts).Sound := by
    refine ⟨nofun, fun s hs => ?_⟩
    simp only [hostileParts, List.mem_cons, IdentPart.name.injEq, reduceCtorEq, List.not_mem_nil,
      or_false, false_or] at hs
    obtain rfl | rfl := hs <;> decide
  have hother : (Node.identifier [.name "a\"; --.", .token ⟨7⟩]).Sound := by
    refine ⟨nofun, fun s hs => ?_⟩
    simp only [List.mem_cons, IdentPart.name.injEq, reduceCtorEq, List.not_mem_nil,
      or_false] at hs
    obtain rfl := hs
    decide
  obtain ⟨⟨text, hcompiled, hread⟩, -, hothers⟩ := compile_identifier_read hsound
  have hresult : compile [.identifier hostileParts] =
      .ok ⟨"\"a\"\"; --\".__local_0__.\"\"\"\"\"\"", []⟩ := rfl
  have htext := (Compiled.mk.inj (Except.ok.inj (hcompiled.symm.trans hresult))).1
  have hend : EndsName ", 1".toList := by
    rintro c ⟨⟩
    decide
  refine ⟨hsound, hresult, htext ▸ hread _ hend, fun halike => ?_⟩
  have hlength := congrArg List.length ((hothers _ hother).1.mp halike)
  exact absurd hlength (by decide)

end PageQuery.Sql
