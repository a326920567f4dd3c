import PageQuery.Proofs.Database.Comparator
import PageQuery.Proofs.Sql.Rendering

/-!
# Where clauses as they are read

A where clause puts each of its parts in parentheses and `and` between them, and each side of
the bounds is such a conjunction again.  Main statement: read from its text, the clause is the
conjunction of its guards, wheres and wanted bounds, in this order, whatever these fragments
are, and its values are theirs.
-/

namespace PageQuery

open Sql

namespace Sql

/-- All conditions in their order, joined by `and`. -/
def Condition.all : List Condition → Condition
  | [] => .literal true
  | [condition] => condition
  | condition :: rest => .and condition (all rest)

namespace Piece

/-- Parts in parentheses, joined by `and`. -/
def conjunction : List (List Piece) → List Piece
  | [] => []
  | [part] => .opening :: (part ++ [.closing])
  | part :: rest => .opening :: (part ++ .closing :: .and :: conjunction rest)

theorem conjunction_cons_cons (part other : List Piece) (rest : List (List Piece)) :
    conjunction (part :: other :: rest) =
      .opening :: (part ++ .closing :: .and :: conjunction (other :: rest)) := rfl

theorem conjunction_cons (part : List Piece) (rest : List (List Piece)) :
    ∃ behind, conjunction (part :: rest) = .opening :: behind := by
  cases rest with
  | nil => exact ⟨_, rfl⟩
  | cons other rest => exact ⟨_, rfl⟩

/-- The fragments of a caller in a conjunction are those of its parts. -/
theorem givens_conjunction (parts : List (List Piece)) :
    (conjunction parts).filterMap given? = parts.flatMap (List.filterMap given?) := by
  induction parts with
  | nil => rfl
  | cons part rest ih =>
      cases rest with
      | nil => simp [conjunction, List.filterMap_cons, given?]
      | cons other rest =>
          rw [conjunction_cons_cons, List.flatMap_cons, ← ih]
          simp [List.filterMap_cons, given?]

/-- What may stand behind a part of a conjunction. -/
inductive Ends : List Piece → Prop
  | nothing : Ends []
  | closing (rest : List Piece) : Ends (.closing :: rest)

/-- What may stand behind a part in parentheses. -/
inductive Follows : List Piece → Prop
  | ends {rest : List Piece} (hends : Ends rest) : Follows rest
  | and (rest : List Piece) : Follows (.and :: rest)

theorem Ends.head? {rest : List Piece} (hends : Ends rest) :
    rest.head? ≠ some .and ∧ rest.head? ≠ some .or := by
  cases hends <;> exact ⟨nofun, nofun⟩

/-- Behind two opening parentheses there is no comparison. -/
theorem comparison?_opening (pieces : List Piece) :
    comparison? (.opening :: .opening :: pieces) = none := by
  have hitems : items? given? (.opening :: pieces) = none := by
    cases pieces with
    | nil => rfl
    | cons piece rest => cases piece <;> rfl
  rw [comparison?, operand?, hitems]

theorem comparison?_given (f : Fragment) {rest : List Piece} (hfollows : Follows rest) :
    comparison? (.opening :: .given f :: .closing :: rest) = none := by
  cases hfollows with
  | ends hends => cases hends <;> rfl
  | and rest => rfl

end Piece

end Sql

namespace Truth

/-- Whether all of these are true. -/
def all (truths : List Truth) : Truth := truths.foldr Truth.and (some true)

theorem and_true (t : Truth) : t.and (some true) = t := by
  rcases t with _ | _ | _ <;> rfl

theorem and_assoc (t u v : Truth) : (t.and u).and v = t.and (u.and v) := by
  rcases t with _ | _ | _ <;> rcases u with _ | _ | _ <;> rcases v with _ | _ | _ <;> rfl

theorem all_append (truths others : List Truth) :
    all (truths ++ others) = (all truths).and (all others) := by
  induction truths with
  | nil => rfl
  | cons t truths ih => exact (congrArg t.and ih).trans (and_assoc t _ _).symm

/-- A conjunction of conjunctions is one conjunction. -/
theorem all_flatten (truths : List (List Truth)) : all truths.flatten = all (truths.map all) := by
  induction truths with
  | nil => rfl
  | cons first rest ih => rw [List.flatten_cons, all_append, ih]; rfl

end Truth

/-- A row meets all conditions together exactly as it meets them one by one. -/
theorem Reading.meets_all {ρ V : Type} [LinearOrder V] (d : Reading ρ V) (r : ρ)
    (conditions : List Condition) :
    d.meets r (.all conditions) = Truth.all (conditions.map (d.meets r)) := by
  induction conditions with
  | nil => rfl
  | cons condition rest ih =>
      cases rest with
      | nil => exact (Truth.and_true _).symm
      | cons other rest => exact congrArg (d.meets r condition).and ih

namespace Filter

open Sql.Piece (Ends Follows)

/-- A part of a where clause, with its pieces and with what it says. -/
structure Part where
  fragment : Fragment
  pieces : List Piece
  condition : Condition

namespace Part

/-- A part that is a fragment of a caller. -/
def given (f : Fragment) : Part := ⟨f, [.given f], .given f⟩

/-- Parts in parentheses, joined by `and`. -/
def all (parts : List Part) : Part where
  fragment := conjunction (parts.map fragment)
  pieces := Piece.conjunction (parts.map pieces)
  condition := .all (parts.map condition)

/-- The fragments of a caller in a part, in their order. -/
def givens (part : Part) : List Fragment := part.pieces.filterMap Piece.given?

theorem givens_all (parts : List Part) : (all parts).givens = parts.flatMap givens := by
  rw [givens, all, Piece.givens_conjunction, List.flatMap_map]
  rfl

/-- Between parentheses the pieces of a part are read as its condition, and that is true where
all its fragments are. -/
structure Reads (part : Part) : Prop where
  text : Piece.letters part.pieces = letters part.fragment
  truth : ∀ {ρ V : Type} [LinearOrder V] (d : Reading ρ V) (r : ρ),
    d.meets r part.condition = Truth.all (part.givens.map (d.holds r))
  parse : ∀ {depth : Nat} {rest : List Piece}, 3 * part.pieces.length + 2 ≤ depth → Follows rest →
    Level.single.parse depth (.opening :: (part.pieces ++ .closing :: rest)) =
      some (part.condition, rest)

theorem reads_given (f : Fragment) : (given f).Reads where
  text := congrArg letters (List.append_nil f)
  truth d r := (Truth.and_true (d.holds r f)).symm
  parse {depth rest} hdepth hfollows := by
    obtain ⟨depth, rfl⟩ := Nat.exists_eq_add_of_le' (Nat.one_le_of_lt hdepth)
    change Level.single.parse (depth + 1) (.opening :: .given f :: .closing :: rest) = _
    rw [Level.parse, Piece.comparison?_given f hfollows, Option.none_or]
    rfl

variable {parts : List Part}

theorem conjunction_cons_cons (f g : Fragment) (rest : List Fragment) :
    letters (conjunction (f :: g :: rest)) =
      letters (text "(") ++ letters f ++ letters (text ")") ++ letters (text " and ") ++
        letters (conjunction (g :: rest)) := by
  have htext : letters (text ") and (") =
      letters (text ")") ++ letters (text " and ") ++ letters (text "(") := rfl
  simp only [conjunction, join_cons_cons, letters_append, htext, List.append_assoc]

/-- The pieces of a conjunction say what is written. -/
theorem text_all (hparts : ∀ part ∈ parts, part.Reads) (hne : parts ≠ []) :
    Piece.letters (all parts).pieces = letters (all parts).fragment := by
  simp only [all]
  induction parts with
  | nil => exact absurd rfl hne
  | cons part rest ih =>
      obtain ⟨hpart, hrest⟩ := List.forall_mem_cons.mp hparts
      cases rest with
      | nil =>
          simp only [List.map_cons, List.map_nil, Piece.conjunction, conjunction,
            Piece.letters_cons, Piece.letters_append, Piece.letters_nil, hpart.text,
            letters_append]
          simp [join, Piece.fragment]
      | cons other rest =>
          have hothers := ih hrest (by simp)
          simp only [List.map_cons, Piece.conjunction_cons_cons, conjunction_cons_cons,
            Piece.letters_cons, Piece.letters_append, hpart.text] at hothers ⊢
          rw [hothers]
          simp only [List.append_assoc]
          rfl

/-- The truth of a conjunction is that of the fragments in it. -/
theorem truth_all (hparts : ∀ part ∈ parts, part.Reads) {ρ V : Type} [LinearOrder V]
    (d : Reading ρ V) (r : ρ) :
    d.meets r (all parts).condition = Truth.all ((all parts).givens.map (d.holds r)) := by
  have htruths : parts.map (fun part => d.meets r part.condition) =
      parts.map fun part => Truth.all (part.givens.map (d.holds r)) :=
    List.map_congr_left fun part hpart => (hparts part hpart).truth d r
  rw [givens_all, List.map_flatMap, List.flatMap_def, Truth.all_flatten, List.map_map, all,
    Reading.meets_all, List.map_map]
  exact congrArg Truth.all htruths

/-- A conjunction is read part by part. -/
theorem parse_conjuncts (hparts : ∀ part ∈ parts, part.Reads) (hne : parts ≠ []) {depth : Nat}
    {rest : List Piece} (hdepth : 3 * (all parts).pieces.length ≤ depth) (hends : Ends rest) :
    Level.conjuncts.parse depth ((all parts).pieces ++ rest) =
      some ((all parts).condition, rest) := by
  simp only [all] at hdepth ⊢
  induction parts generalizing depth with
  | nil => exact absurd rfl hne
  | cons part others ih =>
      obtain ⟨hpart, hothers⟩ := List.forall_mem_cons.mp hparts
      cases others with
      | nil =>
          simp only [List.map_cons, List.map_nil, Piece.conjunction, Condition.all,
            List.length_cons, List.length_append, List.length_nil] at hdepth ⊢
          obtain ⟨depth, rfl⟩ := Nat.exists_eq_add_of_le' (show 1 ≤ depth by omega)
          refine Level.parse_conjuncts ?_ hends.head?.1
          rw [List.cons_append, List.append_assoc]
          exact hpart.parse (by omega) (.ends hends)
      | cons other others =>
          have hrest := @ih hothers (by simp)
          simp only [List.map_cons, Piece.conjunction_cons_cons, List.length_cons,
            List.length_append] at hdepth hrest ⊢
          obtain ⟨depth, rfl⟩ := Nat.exists_eq_add_of_le' (show 1 ≤ depth by omega)
          refine Level.parse_and ?_ (hrest (by omega))
          rw [List.cons_append, List.append_assoc]
          exact hpart.parse (by omega) (.and _)

/-- A conjunction of parts is a part again. -/
theorem reads_all (hparts : ∀ part ∈ parts, part.Reads) (hne : parts ≠ []) : (all parts).Reads where
  text := text_all hparts hne
  truth := truth_all hparts
  parse {depth rest} hdepth hfollows := by
    obtain ⟨depth, rfl⟩ := Nat.exists_eq_add_of_le' (show 2 ≤ depth by omega)
    obtain ⟨behind, hbehind⟩ : ∃ behind, (all parts).pieces = .opening :: behind := by
      obtain ⟨part, others, rfl⟩ := List.exists_cons_of_ne_nil hne
      exact Piece.conjunction_cons _ _
    have hinner : Level.alternatives.parse (depth + 1) ((all parts).pieces ++ .closing :: rest) =
        some ((all parts).condition, .closing :: rest) :=
      Level.parse_alternatives
        (parse_conjuncts hparts hne (by omega) (.closing rest)) (by simp)
    rw [hbehind] at hinner ⊢
    exact Level.parse_parens (Piece.comparison?_opening _) (by simp) hinner

/-- A conjunction is read back as one. -/
theorem read_all (hparts : ∀ part ∈ parts, part.Reads) (hne : parts ≠ []) :
    Condition.read (all parts).pieces = some (all parts).condition := by
  have hconjuncts := parse_conjuncts hparts hne
    (Nat.le_add_right (3 * (all parts).pieces.length) 2) .nothing
  have halternatives := Level.parse_alternatives hconjuncts (by simp)
  rw [List.append_nil] at halternatives
  rw [Condition.read, Nat.mul_succ, halternatives]

end Part

/-- The parts of one side of the bounds: none, or the conjunction of its bounds. -/
def sideParts (bounds : List Cursor.Bound) : List Part :=
  if bounds.isEmpty then [] else [.all (bounds.map fun bound => .given bound.fragment)]

/-- The parts of a where clause. -/
def allParts (filter : Filter) : List Part :=
  filter.guards.map .given ++ filter.wheres.map .given ++ sideParts filter.lower ++
    sideParts filter.upper

/-- What a where clause asks for, one fragment after the other. -/
def conjuncts (filter : Filter) : List Fragment :=
  filter.guards ++ filter.wheres ++ filter.lower.map Cursor.Bound.fragment ++
    filter.upper.map Cursor.Bound.fragment

/-- How the text of a where clause is read: each guard, where and bound stands in parentheses of
its own, and each side of the bounds once more. -/
def pieces (filter : Filter) : List Piece := (Part.all filter.allParts).pieces

def condition (filter : Filter) : Condition := (Part.all filter.allParts).condition

theorem fragments_sideParts (bounds : List Cursor.Bound) :
    (sideParts bounds).map Part.fragment = sidePart bounds := by
  rw [sideParts, sidePart]
  split
  · rfl
  · rw [List.map_singleton, Part.all, side, if_neg ‹_›, List.map_map]
    rfl

theorem fragments_given (fs : List Fragment) : (fs.map Part.given).map Part.fragment = fs := by
  rw [List.map_map]
  exact List.map_id fs

theorem fragments_allParts (filter : Filter) :
    filter.allParts.map Part.fragment = filter.parts := by
  simp only [allParts, parts, List.map_append, fragments_given, fragments_sideParts]

theorem reads_sideParts (bounds : List Cursor.Bound) : ∀ part ∈ sideParts bounds, part.Reads := by
  intro part hpart
  rw [sideParts] at hpart
  split at hpart
  · cases hpart
  · rw [List.mem_singleton.mp hpart]
    refine Part.reads_all (fun bound hbound => ?_) (by simpa using ‹¬bounds.isEmpty = true›)
    obtain ⟨bound, -, rfl⟩ := List.mem_map.mp hbound
    exact Part.reads_given _

theorem reads_allParts (filter : Filter) : ∀ part ∈ filter.allParts, part.Reads := by
  have hgiven (fs : List Fragment) : ∀ part ∈ fs.map Part.given, part.Reads := by
    intro part hpart
    obtain ⟨f, -, rfl⟩ := List.mem_map.mp hpart
    exact Part.reads_given f
  intro part hpart
  simp only [allParts, List.mem_append] at hpart
  rcases hpart with ((hguard | hwhere) | hlower) | hupper
  · exact hgiven _ part hguard
  · exact hgiven _ part hwhere
  · exact reads_sideParts _ part hlower
  · exact reads_sideParts _ part hupper

theorem givens_sideParts (bounds : List Cursor.Bound) :
    (sideParts bounds).flatMap Part.givens = bounds.map Cursor.Bound.fragment := by
  rw [sideParts]
  split
  · rw [List.isEmpty_iff.mp ‹bounds.isEmpty = true›]
    rfl
  · rw [List.flatMap_singleton, Part.givens_all, List.flatMap_map]
    exact List.flatMap_pure_eq_map _ _

/-- Every fragment of a caller stands in the clause once, in the order of what it asks for. -/
theorem givens_allParts (filter : Filter) :
    (Part.all filter.allParts).givens = filter.conjuncts := by
  have hgiven (fs : List Fragment) : (fs.map Part.given).flatMap Part.givens = fs := by
    rw [List.flatMap_map]
    exact (List.flatMap_pure_eq_map id fs).trans (List.map_id fs)
  simp only [Part.givens_all, allParts, conjuncts, List.flatMap_append, hgiven, givens_sideParts]

theorem allParts_eq_nil_iff (filter : Filter) : filter.allParts = [] ↔ filter.conjuncts = [] := by
  have hside (bounds : List Cursor.Bound) : sideParts bounds = [] ↔ bounds = [] := by
    rw [sideParts]
    split <;> simp_all
  simp only [allParts, conjuncts, List.append_eq_nil_iff, List.map_eq_nil_iff, hside]

/-- The parameters of a conjunction are those of its parts, in their order. -/
theorem params_conjunction (fs : List Fragment) : params (conjunction fs) = fs.flatMap params := by
  rw [conjunction, params_append, params_append, params_join]
  exact List.append_nil _

theorem params_parts (filter : Filter) :
    filter.parts.flatMap params = filter.conjuncts.flatMap params := by
  have hside (bounds : List Cursor.Bound) :
      (sidePart bounds).flatMap params = (bounds.map Cursor.Bound.fragment).flatMap params := by
    rw [sidePart]
    split
    · rw [List.isEmpty_iff.mp ‹bounds.isEmpty = true›]
      rfl
    · rw [List.flatMap_singleton, side, if_neg ‹_›, params_conjunction]
  simp only [parts, conjuncts, List.flatMap_append, hside]

/-- A where clause is the conjunction of what it asks for, in this order and each once, whatever
is true of that; and its values are those of what it asks for. -/
structure Expresses (filter : Filter) (f : Fragment) : Prop where
  nothing : filter.conjuncts = [] → f = text "1 = 1"
  spells : filter.conjuncts ≠ [] → Spells f filter.conjuncts filter.pieces filter.condition
  once : filter.pieces.filterMap Piece.given? = filter.conjuncts
  truth : ∀ {ρ V : Type} [LinearOrder V] (d : Reading ρ V) (r : ρ),
    d.meets r filter.condition = Truth.all (filter.conjuncts.map (d.holds r))
  params : params f = filter.conjuncts.flatMap params

/-- What is written for a filter expresses it. -/
theorem expresses_fragment (filter : Filter) : filter.Expresses filter.fragment where
  nothing hnone := by
    rw [fragment, if_pos]
    rw [← fragments_allParts, (allParts_eq_nil_iff filter).mpr hnone]
    rfl
  spells hsome := by
    have hparts : filter.allParts ≠ [] := mt (allParts_eq_nil_iff filter).mp hsome
    have hfragment : filter.fragment = (Part.all filter.allParts).fragment := by
      rw [fragment, if_neg, Part.all, fragments_allParts]
      rw [← fragments_allParts]
      simpa using hparts
    exact
      { text := by
          rw [hfragment]
          exact Part.text_all (reads_allParts filter) hparts
        givens := fun g hmem => by
          rw [← givens_allParts]
          exact List.mem_filterMap.mpr ⟨_, hmem, rfl⟩
        read := Part.read_all (reads_allParts filter) hparts }
  once := givens_allParts filter
  truth d r := by
    rw [← givens_allParts]
    exact Part.truth_all (reads_allParts filter) d r
  params := by
    rw [fragment]
    split
    · rw [← params_parts, List.isEmpty_iff.mp ‹filter.parts.isEmpty = true›]
      rfl
    · rw [params_conjunction, params_parts]

/-- The condition that is always true asks for nothing. -/
theorem Expresses.conjuncts_eq_nil {filter : Filter}
    (hexpresses : filter.Expresses (text "1 = 1")) : filter.conjuncts = [] := by
  by_contra hsome
  obtain ⟨part, others, hparts⟩ :=
    List.exists_cons_of_ne_nil (mt (allParts_eq_nil_iff filter).mp hsome)
  obtain ⟨behind, hbehind⟩ := Piece.conjunction_cons part.pieces (others.map Part.pieces)
  have hpieces : filter.pieces = .opening :: behind := by
    rw [pieces, hparts, Part.all]
    exact hbehind
  have htext := (hexpresses.spells hsome).text
  rw [hpieces, Piece.letters_cons] at htext
  have hhead : some (.inl '(') = some (.inl '1' : Char ⊕ Node) := congrArg List.head? htext
  exact absurd (Sum.inl.inj (Option.some.inj hhead)) (by decide)

end Filter

end PageQuery
