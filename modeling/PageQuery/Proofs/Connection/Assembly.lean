import Mathlib.Data.List.Forall2
import PageQuery.Connection.Basic
import PageQuery.Proofs.Cursor.Code

/-!
# Connections keep their rows

Each row of a page becomes an edge, and the only thing that an edge does not have of its row
is the cursor field: what stood there is the text of the edge's cursor, from which it can be
read again.  Main statement: a connection is assembled from exactly the values whose cursor
fields hold arrays or null, edge by edge in the order of the rows, and the first row with
anything else in its cursor field is the one that the error is about.
-/

namespace PageQuery

/-- The fields that are left when a key is taken away: the others, in their order. -/
structure Json.Without (key : String) (fields left : List (String × Json)) : Prop where
  sublist : left.Sublist fields
  mem_iff : ∀ field, field ∈ left ↔ field ∈ fields ∧ field.1 ≠ key
  lookup : ∀ other, field? other left = if other = key then none else field? other fields

theorem Json.without_eraseField (key : String) (fields : List (String × Json)) :
    Without key fields (eraseField key fields) where
  sublist := List.filter_sublist
  mem_iff field := by rw [eraseField, List.mem_filter, bne_iff_ne]
  lookup other := by
    induction fields with
    | nil => split <;> rfl
    | cons field rest ih =>
        by_cases hkey : field.1 = key
        · have hskipped : eraseField key (field :: rest) = eraseField key rest :=
            List.filter_cons_of_neg (by simp [hkey])
          rw [hskipped, ih]
          split
          · rfl
          · rename_i hother
            have hne : other ≠ field.1 := hkey ▸ hother
            rw [field?, List.lookup_cons, beq_eq_false_iff_ne.mpr hne]
        · have hkept : eraseField key (field :: rest) = field :: eraseField key rest :=
            List.filter_cons_of_pos (by simp [hkey])
          rw [field?] at ih ⊢
          rw [hkept, List.lookup_cons, List.lookup_cons, ih]
          by_cases hother : other = field.1
          · subst hother
            simp [hkey]
          · rw [beq_eq_false_iff_ne.mpr hother]

namespace Edge

/-- What a row has in its cursor field.  Only objects have one. -/
def cursorField? : Json → Option Json
  | .object fields => Json.field? cursorAlias fields
  | _ => none

/-- A row without its cursor field. -/
def nodeOf : Json → Json
  | .object fields => .object (Json.eraseField cursorAlias fields)
  | row => row

/-- A value that a cursor can be made of, or that stands for no cursor. -/
def IsCursorValue (value : Json) : Prop := value = .null ∨ ∃ values, value = .array values

/-- The row has nothing in its cursor field that an edge could not have been made of. -/
def Fits (row : Json) : Prop := ∀ value, cursorField? row = some value → IsCursorValue value

/-- What the edge of a row keeps of it.  The cursor is read back if it is one that could have
been read in the first place, and its doubles are read back from their own texts. -/
structure Represents (edge : Edge) (row : Json) : Prop where
  object : ∀ fields, row = .object fields →
    ∃ left, edge.node = .object left ∧ Json.Without cursorAlias fields left
  other : (∀ fields, row ≠ .object fields) → edge.node = row
  cursorless : edge.cursor = none ↔ ∀ values, cursorField? row ≠ some (.array values)
  cursor : ∀ values, cursorField? row = some (.array values) →
    (Cursor.tag? values).isSome = true → (∀ v ∈ values, Json.Regular 126 v) →
    (∀ v ∈ values, ∀ x, Json.Holds x v → Json.ReadsBack x) →
    ∃ text, edge.cursor = some text ∧ Cursor.decode text = .ok values

variable {row : Json} {rows : List Json} {edge : Edge} {edges : List Edge} {e : Error}

/-! One row -/

/-- The cursor of a row is the encoded array of its values. -/
theorem cursorOf_array (values : List Json) :
    cursorOf (some (.array values)) = .ok (some (Cursor.encode values)) := rfl

/-- A cursor is refused exactly if it is there, and neither null nor an array. -/
theorem cursorOf_eq_error_iff {field : Option Json} :
    cursorOf field = .error e ↔ ∃ value, field = some value ∧ ¬ IsCursorValue value ∧
      e = .decode cursorAlias (.notArray value) := by
  constructor
  · intro herror
    rw [cursorOf.eq_def] at herror
    split at herror
    · cases herror
    · cases herror
    · cases herror
    · rename_i value hnull harray
      cases herror
      refine ⟨value, rfl, ?_, rfl⟩
      rintro (rfl | ⟨values, rfl⟩)
      · exact hnull rfl
      · exact harray values rfl
  · rintro ⟨value, rfl, hvalue, rfl⟩
    rw [cursorOf]
    · rintro rfl
      exact hvalue (.inl rfl)
    · rintro values rfl
      exact hvalue (.inr ⟨values, rfl⟩)

/-- The cursor of an edge is made of the cursor field of its row alone. -/
theorem ofRow_eq (row : Json) :
    ofRow row = (cursorOf (cursorField? row)).map fun cursor => ⟨cursor, nodeOf row⟩ := by
  cases row with
  | object fields =>
      rw [ofRow, cursorField?]
      cases cursorOf (Json.field? cursorAlias fields) <;> rfl
  | null | bool _ | integer _ | real _ | string _ | array _ => rfl

theorem ofRow_eq_ok_iff :
    ofRow row = .ok edge ↔
      cursorOf (cursorField? row) = .ok edge.cursor ∧ edge.node = nodeOf row := by
  rw [ofRow_eq]
  cases cursorOf (cursorField? row) with
  | error e => exact ⟨nofun, fun h => nomatch h.1⟩
  | ok cursor =>
      constructor
      · intro hedge
        cases hedge
        exact ⟨rfl, rfl⟩
      · rintro ⟨hcursor, hnode⟩
        cases hcursor
        rw [← hnode]
        rfl

theorem ofRow_eq_error_iff :
    ofRow row = .error e ↔ ∃ value, cursorField? row = some value ∧ ¬ IsCursorValue value ∧
      e = .decode cursorAlias (.notArray value) := by
  rw [ofRow_eq, ← cursorOf_eq_error_iff]
  cases cursorOf (cursorField? row) with
  | error fault => exact (Except.error.injEq ..).to_iff.trans (Except.error.injEq ..).to_iff.symm
  | ok cursor => exact ⟨nofun, nofun⟩

/-- A row fits exactly if an edge can be made of it. -/
theorem fits_iff : Fits row ↔ ∃ edge, ofRow row = .ok edge := by
  cases hrow : ofRow row with
  | error e =>
      obtain ⟨value, hvalue, hother, -⟩ := ofRow_eq_error_iff.mp hrow
      exact ⟨fun hfits => absurd (hfits value hvalue) hother, nofun⟩
  | ok edge =>
      refine ⟨fun _ => ⟨edge, rfl⟩, fun _ value hvalue => Classical.byContradiction fun hother => ?_⟩
      have herror := ofRow_eq_error_iff.mpr ⟨value, hvalue, hother, rfl⟩
      rw [hrow] at herror
      cases herror

/-- Only arrays become cursors. -/
theorem cursorOf_eq_none_iff {field : Option Json} (hfield : ∀ value, field = some value →
    IsCursorValue value) :
    cursorOf field = .ok none ↔ ∀ values, field ≠ some (.array values) := by
  cases field with
  | none => exact ⟨nofun, fun _ => rfl⟩
  | some value =>
      rcases hfield value rfl with rfl | ⟨values, rfl⟩
      · exact ⟨nofun, fun _ => rfl⟩
      · exact ⟨nofun, fun harray => absurd rfl (harray values)⟩

/-- The edge of a row represents it. -/
theorem represents_of_ofRow (hrow : ofRow row = .ok edge) : Represents edge row := by
  have hfits : Fits row := fits_iff.mpr ⟨edge, hrow⟩
  obtain ⟨hcursor, hnode⟩ := ofRow_eq_ok_iff.mp hrow
  refine ⟨?_, ?_, ?_, ?_⟩
  · rintro fields rfl
    exact ⟨_, hnode, Json.without_eraseField cursorAlias fields⟩
  · intro hother
    cases row with
    | object fields => exact absurd rfl (hother fields)
    | null | bool _ | integer _ | real _ | string _ | array _ => exact hnode
  · rw [← cursorOf_eq_none_iff hfits, hcursor, Except.ok.injEq]
  · intro values hfield htag hregular hreals
    rw [hfield, cursorOf_array, Except.ok.injEq] at hcursor
    have hempty : ∀ c ∈ "".toList, Text.isBlank c = true := nofun
    have hdecode := (Cursor.decode_encode hreals).1 hregular "" "" hempty hempty
    rw [String.empty_append, String.append_empty, if_pos htag] at hdecode
    exact ⟨_, hcursor.symm, hdecode⟩

/-! All rows -/

theorem ofRows_cons_eq_ok_iff :
    ofRows (row :: rows) = .ok edges ↔
      ∃ edge others, ofRow row = .ok edge ∧ ofRows rows = .ok others ∧ edges = edge :: others := by
  constructor
  · intro hedges
    rw [ofRows] at hedges
    cases hrow : ofRow row with
    | error e =>
        rw [hrow] at hedges
        cases hedges
    | ok edge =>
        rw [hrow] at hedges
        cases hrows : ofRows rows with
        | error e =>
            rw [hrows] at hedges
            cases hedges
        | ok others =>
            rw [hrows] at hedges
            cases hedges
            exact ⟨edge, others, rfl, rfl, rfl⟩
  · rintro ⟨edge, others, hrow, hrows, rfl⟩
    rw [ofRows, hrow, hrows]
    rfl

theorem ofRows_cons_eq_error_iff :
    ofRows (row :: rows) = .error e ↔
      ofRow row = .error e ∨ Fits row ∧ ofRows rows = .error e := by
  rw [ofRows, fits_iff]
  cases hrow : ofRow row with
  | error fault =>
      constructor
      · intro herror
        cases herror
        exact .inl rfl
      · rintro (herror | ⟨⟨edge, hedge⟩, -⟩)
        · cases herror
          rfl
        · cases hedge
  | ok edge =>
      cases hrows : ofRows rows with
      | error fault =>
          constructor
          · intro herror
            cases herror
            exact .inr ⟨⟨edge, rfl⟩, rfl⟩
          · rintro (herror | ⟨-, herror⟩)
            · cases herror
            · cases herror
              rfl
      | ok others => exact ⟨nofun, fun h => h.elim nofun fun h => nomatch h.2⟩

theorem ofRows_eq_ok_iff :
    ofRows rows = .ok edges ↔ List.Forall₂ (fun edge row => ofRow row = .ok edge) edges rows := by
  induction rows generalizing edges with
  | nil =>
      rw [List.forall₂_nil_right_iff, ofRows, Except.ok.injEq]
      exact eq_comm
  | cons row rest ih =>
      rw [ofRows_cons_eq_ok_iff, List.forall₂_cons_right_iff]
      simp only [ih]

/-- The rows fail with the fault of the first one that has a fault. -/
theorem ofRows_eq_error_iff :
    ofRows rows = .error e ↔ ∃ before row after, rows = before ++ row :: after ∧
      (∀ earlier ∈ before, Fits earlier) ∧ ofRow row = .error e := by
  induction rows with
  | nil => exact ⟨nofun, fun ⟨_, _, _, hsplit, _⟩ => absurd hsplit (by simp)⟩
  | cons row rest ih =>
      rw [ofRows_cons_eq_error_iff, ih]
      constructor
      · rintro (herror | ⟨hfits, before, other, after, rfl, hbefore, herror⟩)
        · exact ⟨[], row, rest, rfl, nofun, herror⟩
        · exact ⟨row :: before, other, after, rfl,
            List.forall_mem_cons.mpr ⟨hfits, hbefore⟩, herror⟩
      · rintro ⟨before, other, after, hsplit, hbefore, herror⟩
        cases before with
        | nil =>
            cases hsplit
            exact .inl herror
        | cons first others =>
            cases hsplit
            obtain ⟨hfits, hothers⟩ := List.forall_mem_cons.mp hbefore
            exact .inr ⟨hfits, others, other, after, rfl, hothers, herror⟩

/-- All rows are taken exactly if each of them fits. -/
theorem exists_ofRows_iff : (∃ edges, ofRows rows = .ok edges) ↔ ∀ row ∈ rows, Fits row := by
  induction rows with
  | nil => exact ⟨fun _ => nofun, fun _ => ⟨[], rfl⟩⟩
  | cons row rest ih =>
      rw [List.forall_mem_cons, ← ih, fits_iff]
      simp only [ofRows_cons_eq_ok_iff]
      constructor
      · rintro ⟨_, edge, others, hrow, hrest, rfl⟩
        exact ⟨⟨edge, hrow⟩, ⟨others, hrest⟩⟩
      · rintro ⟨⟨edge, hrow⟩, ⟨others, hrest⟩⟩
        exact ⟨_, edge, others, hrow, hrest, rfl⟩

end Edge

namespace Connection

open Edge (Fits IsCursorValue Represents cursorField?)

variable {data : Json} {rows : List Json} {e : Error} {hasNextPage hasPreviousPage : Bool}

/-- The rows that a page query can return: an array of them, or null for none. -/
def HasRows (data : Json) (rows : List Json) : Prop :=
  data = .array rows ∨ data = .null ∧ rows = []

theorem not_hasRows_iff :
    (∀ rows, ¬ HasRows data rows) ↔ data ≠ .null ∧ ∀ rows, data ≠ .array rows := by
  simp only [HasRows, not_or, not_and, forall_and]
  exact ⟨fun h => ⟨fun hnull => h.2 [] hnull rfl, h.1⟩, fun h => ⟨h.2, fun _ hnull => absurd hnull h.1⟩⟩

/-- Only an array has a first row. -/
theorem array_of_hasRows {before after : List Json} {row : Json}
    (hrows : HasRows data (before ++ row :: after)) : data = .array (before ++ row :: after) :=
  hrows.resolve_right fun hnull => absurd hnull.2 (by simp)

theorem rowsOf_eq_ok_iff : rowsOf data = .ok rows ↔ HasRows data rows := by
  cases data <;> simp [rowsOf, HasRows, eq_comm]

/-- What is no array and not null is refused. -/
theorem rowsOf_eq_error_iff :
    rowsOf data = .error e ↔
      (∀ rows, ¬ HasRows data rows) ∧ e = .decode "data" (.notArray data) := by
  cases data <;> simp [rowsOf, HasRows, eq_comm]

theorem ofJson_of_hasRows (hrows : HasRows data rows) :
    ofJson data hasNextPage hasPreviousPage =
      (Edge.ofRows rows).map fun edges => ofEdges edges hasNextPage hasPreviousPage := by
  rw [ofJson, rowsOf_eq_ok_iff.mpr hrows]
  change (Edge.ofRows rows >>= fun edges => .ok (ofEdges edges hasNextPage hasPreviousPage)) = _
  cases Edge.ofRows rows <;> rfl

theorem ofJson_of_not_hasRows (hdata : ∀ rows, ¬ HasRows data rows) :
    ofJson data hasNextPage hasPreviousPage = .error (.decode "data" (.notArray data)) := by
  rw [ofJson, rowsOf_eq_error_iff.mpr ⟨hdata, rfl⟩]
  rfl

/-- A connection is made of the edges of all rows. -/
theorem ofJson_eq_ok_iff {connection : Connection} :
    ofJson data hasNextPage hasPreviousPage = .ok connection ↔
      ∃ rows edges, HasRows data rows ∧ Edge.ofRows rows = .ok edges ∧
        connection = ofEdges edges hasNextPage hasPreviousPage := by
  constructor
  · intro hconnection
    by_cases hdata : ∃ rows, HasRows data rows
    · obtain ⟨rows, hrows⟩ := hdata
      rw [ofJson_of_hasRows hrows] at hconnection
      cases hedges : Edge.ofRows rows with
      | error fault =>
          rw [hedges] at hconnection
          cases hconnection
      | ok edges =>
          rw [hedges] at hconnection
          cases hconnection
          exact ⟨rows, edges, hrows, hedges, rfl⟩
    · rw [ofJson_of_not_hasRows (not_exists.mp hdata)] at hconnection
      cases hconnection
  · rintro ⟨rows, edges, hrows, hedges, rfl⟩
    rw [ofJson_of_hasRows hrows, hedges]
    rfl

/-- A connection is refused for data without rows, or with the error of the first row that does not
fit. -/
theorem ofJson_eq_error_iff :
    ofJson data hasNextPage hasPreviousPage = .error e ↔
      (∀ rows, ¬ HasRows data rows) ∧ e = .decode "data" (.notArray data) ∨
      ∃ rows, HasRows data rows ∧ Edge.ofRows rows = .error e := by
  constructor
  · intro herror
    by_cases hdata : ∃ rows, HasRows data rows
    · obtain ⟨rows, hrows⟩ := hdata
      rw [ofJson_of_hasRows hrows] at herror
      cases hedges : Edge.ofRows rows with
      | error fault =>
          rw [hedges] at herror
          cases herror
          exact .inr ⟨rows, hrows, hedges⟩
      | ok edges =>
          rw [hedges] at herror
          cases herror
    · rw [ofJson_of_not_hasRows (not_exists.mp hdata), Except.error.injEq] at herror
      exact .inl ⟨not_exists.mp hdata, herror.symm⟩
  · rintro (⟨hdata, rfl⟩ | ⟨rows, hrows, hedges⟩)
    · exact ofJson_of_not_hasRows hdata
    · rw [ofJson_of_hasRows hrows, hedges]
      rfl

/-- The page starts with the cursor of its first edge. -/
theorem startCursor_eq_some_iff {edges : List Edge} {text : String} :
    (ofEdges edges hasNextPage hasPreviousPage).pageInfo.startCursor = some text ↔
      ∃ edge later, edges = edge :: later ∧ edge.cursor = some text := by
  simp only [ofEdges, Option.bind_eq_some_iff, List.head?_eq_some_iff, exists_and_right]

/-- The page ends with the cursor of its last edge. -/
theorem endCursor_eq_some_iff {edges : List Edge} {text : String} :
    (ofEdges edges hasNextPage hasPreviousPage).pageInfo.endCursor = some text ↔
      ∃ earlier edge, edges = earlier ++ [edge] ∧ edge.cursor = some text := by
  simp only [ofEdges, Option.bind_eq_some_iff, List.getLast?_eq_some_iff]
  exact ⟨fun ⟨edge, ⟨earlier, hedges⟩, hcursor⟩ => ⟨earlier, edge, hedges, hcursor⟩,
    fun ⟨earlier, edge, hedges, hcursor⟩ => ⟨edge, ⟨earlier, hedges⟩, hcursor⟩⟩

/-- A connection is assembled from null and from the arrays whose rows have arrays, null or
nothing in their cursor fields.  It has one edge for each row, in order, and what is said of
its ends are the cursors of its first and last edge.  Of other values, one that is no array is
reported itself, and of an array the cursor field of the first row that does not fit. -/
theorem ofJson_assembles (data : Json) (hasNextPage hasPreviousPage : Bool) :
    ((∃ connection, ofJson data hasNextPage hasPreviousPage = .ok connection) ↔
      ∃ rows, HasRows data rows ∧ ∀ row ∈ rows, Fits row) ∧
    (∀ e, ofJson data hasNextPage hasPreviousPage = .error e ↔
      (data ≠ .null ∧ (∀ rows, data ≠ .array rows) ∧ e = .decode "data" (.notArray data)) ∨
      ∃ before row after value, data = .array (before ++ row :: after) ∧
        (∀ earlier ∈ before, Fits earlier) ∧ cursorField? row = some value ∧
        ¬ IsCursorValue value ∧ e = .decode cursorAlias (.notArray value)) ∧
    ∀ connection, ofJson data hasNextPage hasPreviousPage = .ok connection →
      (∃ rows, HasRows data rows ∧ List.Forall₂ Represents connection.edges rows) ∧
      (∀ text, connection.pageInfo.startCursor = some text ↔
        ∃ edge later, connection.edges = edge :: later ∧ edge.cursor = some text) ∧
      (∀ text, connection.pageInfo.endCursor = some text ↔
        ∃ earlier edge, connection.edges = earlier ++ [edge] ∧ edge.cursor = some text) ∧
      connection.pageInfo.hasNextPage = hasNextPage ∧
      connection.pageInfo.hasPreviousPage = hasPreviousPage := by
  refine ⟨?_, fun e => ?_, fun connection hconnection => ?_⟩
  · simp only [ofJson_eq_ok_iff, ← Edge.exists_ofRows_iff]
    constructor
    · rintro ⟨_, rows, edges, hrows, hedges, rfl⟩
      exact ⟨rows, hrows, edges, hedges⟩
    · rintro ⟨rows, hrows, edges, hedges⟩
      exact ⟨_, rows, edges, hrows, hedges, rfl⟩
  · simp only [ofJson_eq_error_iff, not_hasRows_iff, Edge.ofRows_eq_error_iff,
      Edge.ofRow_eq_error_iff, and_assoc]
    refine or_congr_right ⟨?_, ?_⟩
    · rintro ⟨rows, hrows, before, row, after, rfl, hbefore, value, hvalue, hother, he⟩
      exact ⟨before, row, after, value, array_of_hasRows hrows, hbefore, hvalue, hother, he⟩
    · rintro ⟨before, row, after, value, hdata, hbefore, hvalue, hother, he⟩
      exact ⟨_, .inl hdata, before, row, after, rfl, hbefore, value, hvalue, hother, he⟩
  · obtain ⟨rows, edges, hrows, hedges, rfl⟩ := ofJson_eq_ok_iff.mp hconnection
    have hall := (Edge.ofRows_eq_ok_iff.mp hedges).imp fun _ _ hrow =>
      Edge.represents_of_ofRow hrow
    exact ⟨⟨rows, hrows, hall⟩, fun _ => startCursor_eq_some_iff,
      fun _ => endCursor_eq_some_iff, rfl, rfl⟩

/-- A row with a cursor, one without, and one that is no object. -/
def mixedRows : List Json :=
  [.object [("__cursor", .array [.string "primary_key_asc", .integer 1]), ("id", .integer 1)],
    .object [("__cursor", .null), ("id", .integer 2)], .string "row"]

theorem ofJson_assembles_mixedRows :
    ∃ connection text, ofJson (.array mixedRows) true false = .ok connection ∧
      List.Forall₂ Represents connection.edges mixedRows ∧
      connection.pageInfo.startCursor = some text ∧
      Cursor.decode text = .ok [.string "primary_key_asc", .integer 1] ∧
      connection.pageInfo.endCursor = none := by
  have hfits : ∀ row ∈ mixedRows, Fits row := by
    have harray : IsCursorValue (.array [.string "primary_key_asc", .integer 1]) := .inr ⟨_, rfl⟩
    rintro row hrow value hvalue
    simp only [mixedRows, List.mem_cons, List.not_mem_nil, or_false] at hrow
    rcases hrow with rfl | rfl | rfl
    · cases hvalue
      exact harray
    · cases hvalue
      exact .inl rfl
    · cases hvalue
  obtain ⟨connection, hconnection⟩ :=
    (ofJson_assembles (.array mixedRows) true false).1.mpr ⟨_, .inl rfl, hfits⟩
  obtain ⟨⟨rows, hrows, hall⟩, hstart, hend, -, -⟩ :=
    (ofJson_assembles (.array mixedRows) true false).2.2 connection hconnection
  obtain rfl : mixedRows = rows := by
    rcases hrows with hrows | ⟨hnull, -⟩
    · exact Json.array.inj hrows
    · cases hnull
  have hvalues : ∀ v ∈ [Json.string "primary_key_asc", .integer 1],
      Json.Regular 126 v ∧ ∀ x, Json.Holds x v → Json.ReadsBack x := by
    simp only [List.mem_cons, List.not_mem_nil, or_false]
    rintro v (rfl | rfl)
    · exact ⟨.string _, nofun⟩
    · exact ⟨.integer (by decide) (by decide), nofun⟩
  have hlist := hall
  obtain ⟨edges, pageInfo⟩ := connection
  rcases hlist with _ | ⟨hfirst, _ | ⟨-, _ | ⟨hlast, ⟨⟩⟩⟩⟩
  rename_i first second last
  obtain ⟨text, hcursor, hdecode⟩ := hfirst.cursor _ rfl rfl (fun v hv => (hvalues v hv).1)
    fun v hv => (hvalues v hv).2
  have hnone : last.cursor = none := hlast.cursorless.mpr nofun
  refine ⟨_, text, hconnection, hall, (hstart text).mpr ⟨first, _, rfl, hcursor⟩, hdecode, ?_⟩
  refine Option.eq_none_iff_forall_ne_some.mpr fun other hother => ?_
  obtain ⟨earlier, edge, hedges, hedge⟩ := (hend other).mp hother
  obtain rfl : last = edge := by
    have hends := congrArg List.getLast? hedges
    rw [List.getLast?_append] at hends
    exact Option.some.inj hends
  rw [hnone] at hedge
  cases hedge

end Connection

end PageQuery
