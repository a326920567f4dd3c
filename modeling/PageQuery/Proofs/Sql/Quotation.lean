/-!
# Quotations

Names and text constants stand between two marks.  Inside, a mark that is written twice is
one mark of the value, so a quotation ends at the first mark that is not followed by another
one.  What a backslash means differs from one kind of quotation to the other, and from one
setting of a database to the other; it is a parameter here.
-/

namespace PageQuery.Sql

/-- What a backslash stands for, given the text behind it, and how many characters of this
text belong to it. -/
abbrev Escape := List Char → Option (List Char × Nat)

/-- A backslash is a character like any other. -/
def Escape.off : Escape := fun _ => some (['\\'], 0)

/-- The value of a quotation and the text behind it, from the text behind its opening mark. -/
def quotation (mark : Char) (escape : Escape) : List Char → Option (List Char × List Char)
  | [] => none
  | c :: rest =>
    if c = mark then
      if rest.head? = some mark then
        (quotation mark escape rest.tail).map fun (value, rest) => (mark :: value, rest)
      else some ([], rest)
    else if c = '\\' then do
      let (front, taken) ← escape rest
      let (value, rest) ← quotation mark escape (rest.drop taken)
      return (front ++ value, rest)
    else (quotation mark escape rest).map fun (value, rest) => (c :: value, rest)
termination_by cs => cs.length
decreasing_by
  all_goals simp only [List.length_cons, List.length_tail, List.length_drop]
  all_goals omega

variable {mark c : Char} {escape : Escape} {cs value rest : List Char}

theorem length_lt_of_quotation (hread : quotation mark escape cs = some (value, rest)) :
    rest.length < cs.length := by
  fun_induction quotation mark escape cs generalizing value with
  | case1 => cases hread
  | case2 behind hdoubled ih =>
      obtain ⟨read, hbehind, heq⟩ := Option.map_eq_some_iff.mp hread
      cases heq
      have hshorter := ih hbehind
      simp only [List.length_tail, List.length_cons] at hshorter ⊢
      omega
  | case3 behind hclosed =>
      cases hread
      exact Nat.lt_succ_self _
  | case4 behind hmark ih =>
      obtain ⟨escaped, -, hread⟩ := Option.bind_eq_some_iff.mp hread
      obtain ⟨read, hbehind, heq⟩ := Option.bind_eq_some_iff.mp hread
      cases heq
      have hshorter := ih _ hbehind
      simp only [List.length_drop, List.length_cons] at hshorter ⊢
      omega
  | case5 c behind hmark hbackslash ih =>
      obtain ⟨read, hbehind, heq⟩ := Option.map_eq_some_iff.mp hread
      cases heq
      exact Nat.lt_succ_of_lt (ih hbehind)

theorem quotation_closed (hrest : rest.head? ≠ some mark) :
    quotation mark escape (mark :: rest) = some ([], rest) := by
  rw [quotation, if_pos rfl, if_neg hrest]

theorem quotation_doubled (rest : List Char) :
    quotation mark escape (mark :: mark :: rest) =
      (quotation mark escape rest).map fun read => (mark :: read.1, read.2) := by
  rw [quotation, if_pos rfl]
  exact if_pos rfl

theorem quotation_cons (hmark : c ≠ mark) (hbackslash : c ≠ '\\') (rest : List Char) :
    quotation mark escape (c :: rest) =
      (quotation mark escape rest).map fun read => (c :: read.1, read.2) := by
  rw [quotation, if_neg hmark, if_neg hbackslash]

theorem quotation_cons_off (hmark : c ≠ mark) (rest : List Char) :
    quotation mark .off (c :: rest) =
      (quotation mark .off rest).map fun read => (c :: read.1, read.2) := by
  by_cases hbackslash : c = '\\'
  · subst hbackslash
    rw [quotation, if_neg hmark, if_pos rfl]
    simp only [Escape.off, Option.bind_eq_bind, Option.bind_some, List.drop_zero]
    cases quotation mark .off rest <;> rfl
  · exact quotation_cons hmark hbackslash rest

/-- Text without marks and backslashes stands for itself, whatever backslashes mean. -/
theorem quotation_plain (hvalue : ∀ c ∈ value, c ≠ mark ∧ c ≠ '\\')
    (hrest : rest.head? ≠ some mark) :
    quotation mark escape (value ++ mark :: rest) = some (value, rest) := by
  induction value with
  | nil => exact quotation_closed hrest
  | cons c value ih =>
      obtain ⟨hc, hothers⟩ := List.forall_mem_cons.mp hvalue
      rw [List.cons_append, quotation_cons hc.1 hc.2, ih hothers]
      rfl

/-- Any text at all stands for itself once its marks are doubled. -/
theorem quotation_flatMap (value : List Char) (hrest : rest.head? ≠ some mark) :
    quotation mark .off
        ((value.flatMap fun c => if c = mark then [mark, mark] else [c]) ++ mark :: rest) =
      some (value, rest) := by
  induction value with
  | nil => exact quotation_closed hrest
  | cons c value ih =>
      rw [List.flatMap_cons, List.append_assoc]
      split
      · rename_i hmark
        subst hmark
        rw [List.cons_append, List.singleton_append, quotation_doubled, ih]
        rfl
      · rename_i hmark
        rw [List.singleton_append, quotation_cons_off hmark, ih]
        rfl

end PageQuery.Sql
