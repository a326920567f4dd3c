import PageQuery.Json.Parser
import PageQuery.Proofs.Binary64.Range

/-!
# What the reader gives

A value that has been read is regular: its integers fit into sixty-four bits, its doubles are
finite, the fields of its objects are in the order of their keys, each key once, and it is
nested no deeper than the reader goes.
-/

namespace PageQuery.Json

/-! Regular values -/

/-- Each key once, in key order. -/
def Ordered (fields : List (String × Json)) : Prop :=
  fields.Pairwise fun field later => field.1 < later.1

/-- A value as JSON texts have them, whose arrays and objects are nested at most `depth` deep. -/
inductive Regular : (depth : Nat) → Json → Prop
  | null {depth : Nat} : Regular depth .null
  | bool {depth : Nat} (b : Bool) : Regular depth (.bool b)
  | integer {depth : Nat} {n : Int} (hlow : -0x8000000000000000 ≤ n)
      (hhigh : n ≤ 0xFFFFFFFFFFFFFFFF) : Regular depth (.integer n)
  | real {depth : Nat} {x : Binary64} (hfinite : x.isFinite = true) : Regular depth (.real x)
  | string {depth : Nat} (s : String) : Regular depth (.string s)
  | array {depth : Nat} {items : List Json} (hitems : ∀ item ∈ items, Regular depth item) :
      Regular (depth + 1) (.array items)
  | object {depth : Nat} {fields : List (String × Json)} (hordered : Ordered fields)
      (hfields : ∀ field ∈ fields, Regular depth field.2) : Regular (depth + 1) (.object fields)

/-- A field that is set is the new one, or one of the others. -/
theorem mem_setField {key : String} {v : Json} {fields : List (String × Json)}
    {field : String × Json} (hfield : field ∈ setField key v fields) :
    field = (key, v) ∨ field ∈ fields := by
  induction fields with
  | nil => exact .inl (List.mem_singleton.mp hfield)
  | cons first rest ih =>
      simp only [setField] at hfield
      split at hfield
      · exact List.mem_cons.mp hfield
      · split at hfield
        · exact (List.mem_cons.mp hfield).imp_right (List.mem_cons_of_mem _)
        · obtain rfl | hrest := List.mem_cons.mp hfield
          · exact .inr List.mem_cons_self
          · exact (ih hrest).imp_right (List.mem_cons_of_mem _)

/-- The keys of an object stay in order. -/
theorem Ordered.setField {fields : List (String × Json)} (hordered : Ordered fields)
    (key : String) (v : Json) : Ordered (setField key v fields) := by
  induction fields with
  | nil => exact List.pairwise_singleton ..
  | cons first rest ih =>
      obtain ⟨hfirst, hrest⟩ := List.pairwise_cons.mp hordered
      simp only [Json.setField]
      split
      · rename_i hbefore
        refine List.pairwise_cons.mpr ⟨fun field hfield => ?_, hordered⟩
        obtain rfl | hfield := List.mem_cons.mp hfield
        · exact hbefore
        · exact String.lt_trans hbefore (hfirst field hfield)
      · rename_i hnot
        split
        · rename_i hkey
          subst hkey
          exact List.pairwise_cons.mpr ⟨hfirst, hrest⟩
        · rename_i hother
          refine List.pairwise_cons.mpr ⟨fun field hfield => ?_, ih hrest⟩
          obtain rfl | hfield := mem_setField hfield
          · have hbehind : ¬ key ≤ first.1 := fun hle =>
              hother (String.le_antisymm hle (String.not_lt.mp hnot))
            exact String.not_le.mp hbehind
          · exact hfirst field hfield

theorem regular_ofFields {depth : Nat} {fields : List (String × Json)}
    (hfields : ∀ field ∈ fields, Regular depth field.2) :
    Regular (depth + 1) (ofFields fields) := by
  have hfold : ∀ done : List (String × Json), Ordered done →
      (∀ field ∈ done, Regular depth field.2) →
      Regular (depth + 1)
        (.object (fields.foldl (fun done field => setField field.1 field.2 done) done)) := by
    induction fields with
    | nil => exact fun done hordered hdone => .object hordered hdone
    | cons first rest ih =>
        intro done hordered hdone
        refine ih (fun field hfield => hfields field (List.mem_cons_of_mem _ hfield)) _
          (hordered.setField _ _) fun field hfield => ?_
        obtain rfl | hfield := mem_setField hfield
        · exact hfields _ List.mem_cons_self
        · exact hdone field hfield
  exact hfold [] .nil nofun

theorem setField_behind {key : String} {fields : List (String × Json)} (v : Json)
    (hbehind : ∀ field ∈ fields, field.1 < key) :
    setField key v fields = fields ++ [(key, v)] := by
  induction fields with
  | nil => rfl
  | cons first rest ih =>
      have hfirst := hbehind first List.mem_cons_self
      rw [setField, if_neg (String.lt_asymm hfirst), if_neg (String.ne_of_lt hfirst).symm,
        ih fun field hfield => hbehind field (List.mem_cons_of_mem _ hfield)]
      rfl

/-- Fields that are in key order stay as they are. -/
theorem ofFields_of_ordered {fields : List (String × Json)} (hordered : Ordered fields) :
    ofFields fields = .object fields := by
  have hfold : ∀ done : List (String × Json), Ordered (done ++ fields) →
      fields.foldl (fun done field => setField field.1 field.2 done) done = done ++ fields := by
    clear hordered
    induction fields with
    | nil => exact fun done _ => (List.append_nil done).symm
    | cons first rest ih =>
        intro done hordered
        have hbehind : ∀ field ∈ done, field.1 < first.1 := fun field hfield =>
          (List.pairwise_append.mp hordered).2.2 field hfield first List.mem_cons_self
        have hsplit : done ++ first :: rest = done ++ [(first.1, first.2)] ++ rest :=
          (List.append_assoc done [first] rest).symm
        rw [List.foldl_cons, setField_behind first.2 hbehind, hsplit]
        exact ih _ (hsplit ▸ hordered)
  exact congrArg Json.object (hfold [] hordered)

/-! Readers -/

/-- Whatever the reader gives has the property. -/
def Gives {α : Type} (P : α → Prop) (read : Reader α) : Prop :=
  ∀ cs a rest, read cs = some (a, rest) → P a

/-! Numbers -/

/-- The sign of an exponent, and what stands behind it. -/
def exponentSign : List Char → Bool × List Char
  | '+' :: rest => (false, rest)
  | '-' :: rest => (true, rest)
  | cs => (false, cs)

/-- The value of a number whose exponent has the given digits. -/
def exponentValue (negative : Bool) (significand : Nat) (start : Int) (down : Bool)
    (ds : List Nat) : Option Json :=
  let (size, taken) := collect maxExponent 0 ds
  if taken < ds.length then
    if significand ≠ 0 ∧ down = false then none else some (.real (Binary64.zero negative))
  else ofParts negative significand (start + if down then -(size : Int) else size)

/-- The exponent after its sign. -/
def exponentDigits (negative : Bool) (significand : Nat) (start : Int) (down : Bool) :
    Reader Json := fun cs =>
  if (digits cs).1.isEmpty then none
  else (exponentValue negative significand start down (digits cs).1).map fun v => (v, (digits cs).2)

/-- An exponent is read behind its sign. -/
theorem exponentPart_eq (negative : Bool) (significand : Nat) (start : Int) (cs : List Char) :
    exponentPart negative significand start cs =
      exponentDigits negative significand start (exponentSign cs).1 (exponentSign cs).2 := by
  fun_cases exponentSign cs with
  | case1 rest => rfl
  | case2 rest => rfl
  | case3 cs hplus hminus =>
      rw [exponentPart]
      · rfl
      · exact hplus
      · exact hminus

/-- Digits are collected up to a limit and no further. -/
theorem collect_le {limit significand : Nat} (hle : significand ≤ limit) (ds : List Nat) :
    (collect limit significand ds).1 ≤ limit := by
  induction ds generalizing significand with
  | nil => exact hle
  | cons d rest ih =>
      rw [collect]
      split
      · exact hle
      · exact ih (Nat.not_lt.mp ‹_›)

/-- Far enough from the largest double that no step of the reader comes near it. -/
def Moderate (x : Binary64) : Prop := x.biased ≤ 1089

theorem moderate_ofNat {n : Nat} (hn : n ≤ maxInteger) : Moderate (Binary64.ofNat n) := by
  have hlog : n.log2 ≤ 63 := by
    by_cases hzero : n = 0
    · rw [hzero]
      decide
    · exact Nat.le_of_lt_succ ((Nat.log2_lt hzero).mpr (Nat.lt_succ_of_le hn))
  exact Nat.le_trans (Binary64.biased_ofNat_le n) (Nat.add_le_add_right hlog _)

theorem isFinite_of_moderate {x : Binary64} (hx : Moderate x) : x.isFinite = true := by
  rw [Moderate] at hx
  rw [Binary64.isFinite_iff]
  omega

/-- Powers of ten are one at least. -/
theorem le_biased_powerOfTen (k : Nat) : 1023 ≤ (Binary64.ofNat (Nat.pow 10 k)).biased := by
  have hpositive : Nat.pow 10 k ≠ 0 := Nat.ne_of_gt (Nat.pow_pos (by decide))
  have hle := Binary64.le_biased_ofNat hpositive
  omega

theorem le_biased_of_large {n : Nat} (hlarge : 1023 ≤ n.log2) :
    2046 ≤ (Binary64.ofNat n).biased := by
  have hpositive : n ≠ 0 := by
    rintro rfl
    rw [Nat.log2_zero] at hlarge
    cases hlarge
  have hle := Binary64.le_biased_ofNat hpositive
  omega

/-- A moderate number stays finite when it is divided by one or more. -/
theorem isFinite_div {x y : Binary64} (hx : Moderate x) (hy : 1023 ≤ y.biased) :
    (x.div y).isFinite = true := by
  have hdiv := Binary64.biased_div_le (x := x) (y := y) (by omega)
  rw [Moderate] at hx
  rw [Binary64.isFinite_iff]
  omega

theorem Moderate.div {x y : Binary64} (hx : Moderate x) (hy : 2046 ≤ y.biased) :
    Moderate (x.div y) := by
  have hdiv := Binary64.biased_div_le (x := x) (y := y) (by omega)
  rw [Moderate] at hx ⊢
  omega

theorem isFinite_signed (negative : Bool) (x : Binary64) :
    (if negative then x.neg else x).isFinite = x.isFinite := by
  cases negative
  · rfl
  · exact Binary64.isFinite_neg x

/-- A decimal is scaled to a finite number, or refused. -/
theorem scale_isFinite {negative : Bool} {x y : Binary64} {exponent : Int} (hx : Moderate x)
    (hscale : scale negative x exponent = some y) : y.isFinite = true := by
  fun_induction scale negative x exponent with
  | case1 _ _ _ _ product hproduct =>
      cases hscale
      rwa [isFinite_signed]
  | case3 | case6 =>
      cases hscale
      exact Binary64.isFinite_zero negative
  | case2 | case4 => cases hscale
  | case5 x exponent =>
      cases hscale
      rw [isFinite_signed]
      exact isFinite_div hx (le_biased_powerOfTen _)
  | case7 x exponent _ _ _ ih => exact ih (hx.div (le_biased_of_large (by decide +kernel))) hscale

/-- The number of a decimal is a regular value. -/
theorem ofParts_regular {depth : Nat} {negative : Bool} {significand : Nat} {exponent : Int}
    {v : Json} (hsignificand : significand ≤ maxInteger)
    (hparts : ofParts negative significand exponent = some v) : Regular depth v := by
  obtain ⟨x, hscale, rfl⟩ := Option.map_eq_some_iff.mp hparts
  exact .real (scale_isFinite (moderate_ofNat hsignificand) hscale)

theorem exponentPart_regular (depth : Nat) {significand : Nat}
    (hsignificand : significand ≤ maxInteger) (negative : Bool) (start : Int) :
    Gives (Regular depth) (exponentPart negative significand start) := by
  intro cs v rest hread
  rw [exponentPart_eq, exponentDigits] at hread
  split at hread
  · cases hread
  · obtain ⟨w, hw, hpair⟩ := Option.map_eq_some_iff.mp hread
    cases hpair
    simp only [exponentValue] at hw
    split at hw
    · split at hw
      · cases hw
      · cases hw
        exact .real (Binary64.isFinite_zero negative)
    · exact ofParts_regular hsignificand hw

theorem realEnd_regular (depth : Nat) {significand : Nat}
    (hsignificand : significand ≤ maxInteger) (negative : Bool) (exponent : Int) :
    Gives (Regular depth) (realEnd negative significand exponent) := by
  intro cs v rest hread
  simp only [realEnd] at hread
  split at hread
  · exact exponentPart_regular depth hsignificand negative exponent _ _ _ hread
  · exact exponentPart_regular depth hsignificand negative exponent _ _ _ hread
  · obtain ⟨w, hw, hpair⟩ := Option.map_eq_some_iff.mp hread
    cases hpair
    exact ofParts_regular hsignificand hw

theorem decimalPart_regular (depth : Nat) {significand : Nat}
    (hsignificand : significand ≤ maxInteger) (negative : Bool) (exponent : Int) :
    Gives (Regular depth) (decimalPart negative significand exponent) := by
  intro cs v rest hread
  simp only [decimalPart] at hread
  split at hread
  · cases hread
  · exact realEnd_regular depth (collect_le hsignificand _) negative _ _ _ _ hread

theorem ofWhole_regular (depth : Nat) {n : Nat} (hn : n ≤ maxInteger) (negative : Bool) :
    Regular depth (ofWhole negative n) := by
  rw [maxInteger] at hn
  rw [ofWhole]
  split
  · split
    · exact .real (by rw [Binary64.isFinite_neg]; exact isFinite_of_moderate (moderate_ofNat hn))
    · exact .integer (by omega) (by omega)
  · exact .integer (by omega) (by omega)

theorem unsigned_regular (depth : Nat) (negative : Bool) :
    Gives (Regular depth) (unsigned negative) := by
  intro cs v rest hread
  have hcollect := collect_le (Nat.zero_le maxInteger) (digits cs).1
  simp only [unsigned] at hread
  split at hread
  · cases hread
  · split at hread
    · exact decimalPart_regular depth hcollect negative _ _ _ _ hread
    · split at hread
      · cases hread
        exact ofWhole_regular depth hcollect negative
      · exact realEnd_regular depth hcollect negative _ _ _ _ hread

/-- Every number that is read is a regular value. -/
theorem number_regular (depth : Nat) : Gives (Regular depth) number := by
  intro cs v rest hread
  rw [number.eq_def] at hread
  split at hread
  · exact unsigned_regular depth true _ _ _ hread
  · exact unsigned_regular depth false _ _ _ hread

/-! Arrays and objects -/

section

variable {P : Json → Prop} {read : Reader Json}

/-- The items of an array are read by the reader of values. -/
theorem arrayItems_gives (hread : Gives P read) (room : Nat) :
    Gives (fun items => ∀ item ∈ items, P item) (arrayItems read room) := by
  induction room with
  | zero => exact fun _ _ _ hnone => nomatch hnone
  | succ room ih =>
      intro cs items rest hitems
      rw [arrayItems] at hitems
      split at hitems
      · cases hitems
      · rename_i item behind hitem
        split at hitems
        · obtain ⟨others, hothers, hpair⟩ := Option.map_eq_some_iff.mp hitems
          cases hpair
          exact List.forall_mem_cons.mpr ⟨hread _ _ _ hitem, ih _ _ _ hothers⟩
        · cases hitems
          exact List.forall_mem_singleton.mpr (hread _ _ _ hitem)
        · cases hitems

theorem objectField_gives (hread : Gives P read) :
    Gives (fun field => P field.2) (objectField read) := by
  intro cs field rest hfield
  rw [objectField.eq_def] at hfield
  split at hfield
  · split at hfield
    · cases hfield
    · split at hfield
      · obtain ⟨⟨v, behind⟩, hvalue, hpair⟩ := Option.map_eq_some_iff.mp hfield
        cases hpair
        exact hread _ _ _ hvalue
      · cases hfield
  · cases hfield

theorem objectFields_gives (hread : Gives P read) (room : Nat) :
    Gives (fun fields => ∀ field ∈ fields, P field.2) (objectFields read room) := by
  induction room with
  | zero => exact fun _ _ _ hnone => nomatch hnone
  | succ room ih =>
      intro cs fields rest hfields
      rw [objectFields] at hfields
      split at hfields
      · cases hfields
      · rename_i field behind hfield
        split at hfields
        · obtain ⟨others, hothers, hpair⟩ := Option.map_eq_some_iff.mp hfields
          cases hpair
          exact List.forall_mem_cons.mpr ⟨objectField_gives hread _ _ _ hfield, ih _ _ _ hothers⟩
        · cases hfields
          exact List.forall_mem_singleton.mpr (objectField_gives hread _ _ _ hfield)
        · cases hfields

end

/-- A value is a scalar, or what the readers of arrays and objects give. -/
theorem scalarOr_gives {depth : Nat} {array object : Reader Json}
    (harray : Gives (Regular depth) array) (hobject : Gives (Regular depth) object) :
    Gives (Regular depth) (scalarOr array object) := by
  intro cs v rest hread
  rw [scalarOr.eq_def] at hread
  split at hread
  · cases hread
    exact .null
  · cases hread
    exact .bool true
  · cases hread
    exact .bool false
  · obtain ⟨⟨text, behind⟩, -, hpair⟩ := Option.map_eq_some_iff.mp hread
    cases hpair
    exact .string _
  · exact harray _ _ _ hread
  · exact hobject _ _ _ hread
  · exact number_regular depth _ _ _ hread

/-- Every value that is read is regular and within the depth. -/
theorem value_regular (room depth : Nat) : Gives (Regular depth) (value room depth) := by
  induction depth with
  | zero => exact scalarOr_gives (fun _ _ _ hnone => nomatch hnone) fun _ _ _ hnone => nomatch hnone
  | succ depth ih =>
      refine scalarOr_gives (fun cs v rest hread => ?_) fun cs v rest hread => ?_
      · split at hread
        · cases hread
          exact .array nofun
        · obtain ⟨⟨items, behind⟩, hitems, hpair⟩ := Option.map_eq_some_iff.mp hread
          cases hpair
          exact .array (arrayItems_gives ih room _ _ _ hitems)
      · split at hread
        · cases hread
          exact .object .nil nofun
        · obtain ⟨⟨fields, behind⟩, hfields, hpair⟩ := Option.map_eq_some_iff.mp hread
          cases hpair
          exact regular_ofFields (objectFields_gives ih room _ _ _ hfields)

/-- What a whole text is read as is regular. -/
theorem parse?_regular {cs : List Char} {v : Json} (hparse : parse? cs = some v) :
    Regular maxDepth v := by
  rw [parse?] at hparse
  split at hparse
  · rename_i w rest hvalue
    split at hparse
    · cases hparse
      exact value_regular cs.length maxDepth _ _ _ hvalue
    · cases hparse
  · cases hparse

end PageQuery.Json
