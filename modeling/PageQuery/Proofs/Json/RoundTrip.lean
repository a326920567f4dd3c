import PageQuery.Proofs.Json.Scalars

/-!
# Reading values back

The compact text of a regular value is read as this value, wherever it stands: the items of an
array and the fields of an object one after the other, each up to the mark behind it.  Doubles
are as good as their own texts: where the reader gives a double back for its text alone, it
does so inside any other text.
-/

namespace PageQuery.Json

/-! The texts of doubles -/

/-- The text of the double is read as the double again. -/
def ReadsBack (x : Binary64) : Prop := parse? (realText x) = some (.real x)

/-- What the text of a number has besides digits. -/
def IsMark (c : Char) : Prop := c = '-' ∨ c = '+' ∨ c = '.' ∨ c = 'e'

/-- Digits and marks, a digit first. -/
structure Figured (cs : List Char) : Prop where
  head : ∃ c rest, cs = c :: rest ∧ c.isDigit = true
  all : ∀ c ∈ cs, c.isDigit = true ∨ IsMark c

theorem Figured.append {cs more : List Char} (hcs : Figured cs)
    (hmore : ∀ c ∈ more, c.isDigit = true ∨ IsMark c) : Figured (cs ++ more) where
  head := by
    obtain ⟨c, rest, rfl, hc⟩ := hcs.head
    exact ⟨c, rest ++ more, rfl, hc⟩
  all c hc := (List.mem_append.mp hc).elim (hcs.all c) (hmore c)

theorem figured_of_digits {cs : List Char} (hcs : cs ≠ []) (hall : ∀ c ∈ cs, c.isDigit = true) :
    Figured cs where
  head := by
    obtain ⟨c, rest, rfl⟩ := List.exists_cons_of_ne_nil hcs
    exact ⟨c, rest, rfl, hall c List.mem_cons_self⟩
  all c hc := .inl (hall c hc)

/-- Numerals are figures. -/
theorem figured_decimal (n : Nat) : Figured (Numeral.decimal n) :=
  figured_of_digits (decimal_ne_nil n) fun _ hc => isDigit_of_mem_decimal hc

theorem figured_zero : Figured ['0', '.', '0'] := ⟨⟨_, _, rfl, rfl⟩, by simp [IsMark]⟩

theorem isDigit_of_mem_zeros {n : Nat} {c : Char} (hc : c ∈ List.replicate n '0') :
    c.isDigit = true := by
  rw [List.eq_of_mem_replicate hc]
  rfl

theorem figured_positional (d : Decimal) {whole : List Char}
    (hwhole : ∀ c ∈ whole, c.isDigit = true ∨ IsMark c) : Figured (d.positional whole) := by
  have hdigits := figured_decimal d.digits
  simp only [Decimal.positional]
  split
  · exact (hdigits.append fun c hc => .inl (isDigit_of_mem_zeros hc)).append hwhole
  · split
    · rename_i hshort
      have hfront : Figured ((Numeral.decimal d.digits).take
          ((Numeral.decimal d.digits).length - (-d.exponent).toNat)) := by
        refine figured_of_digits (fun hnil => ?_) fun c hc =>
          isDigit_of_mem_decimal (List.mem_of_mem_take hc)
        have hlength := congrArg List.length hnil
        rw [List.length_take, List.length_nil] at hlength
        omega
      refine hfront.append fun c hc => ?_
      obtain rfl | hc := List.mem_cons.mp hc
      · simp [IsMark]
      · exact .inl (isDigit_of_mem_decimal (List.mem_of_mem_drop hc))
    · have hpoint : Figured ['0', '.'] := ⟨⟨_, _, rfl, rfl⟩, by simp [IsMark]⟩
      exact (hpoint.append fun c hc => .inl (isDigit_of_mem_zeros hc)).append hdigits.all

/-- Numbers with an exponent are figures and marks. -/
theorem figured_scientific (d : Decimal) : Figured d.scientific := by
  have hdigits := figured_decimal d.digits
  have hexponent := (figured_decimal d.leading.natAbs).all
  obtain ⟨c, rest, hcons, hc⟩ := hdigits.head
  simp only [Decimal.scientific]
  refine Figured.append ?_ fun e he => ?_
  · rw [hcons] at hdigits ⊢
    cases rest with
    | nil => exact hdigits
    | cons d rest =>
        refine ⟨⟨_, _, rfl, hc⟩, fun e he => ?_⟩
        obtain rfl | he := List.mem_cons.mp he
        · exact .inl hc
        · obtain rfl | he := List.mem_cons.mp he
          · simp [IsMark]
          · exact hdigits.all e (List.mem_cons_of_mem _ he)
  · obtain rfl | he := List.mem_cons.mp he
    · simp [IsMark]
    · obtain rfl | he := List.mem_cons.mp he
      · split <;> simp [IsMark]
      · exact hexponent e he

/-- A real is written as figures, behind a sign if it is negative. -/
theorem realText_eq (x : Binary64) :
    ∃ body, Figured body ∧ realText x = (if x.isNegative then ['-'] else []) ++ body := by
  simp only [realText]
  split
  · exact ⟨_, figured_zero, rfl⟩
  · split
    · exact ⟨_, figured_positional _ (by simp [IsMark]), rfl⟩
    · exact ⟨_, figured_scientific _, rfl⟩

/-! Scalars among values -/

/-- A sign or a digit. -/
def OpensNumber (c : Char) : Prop := c = '-' ∨ c.isDigit = true

theorem OpensNumber.ne {c : Char} (hc : OpensNumber c) (d : Char)
    (hd : ¬ (d = '-' ∨ d.isDigit = true)) : c ≠ d := by
  rintro rfl
  exact hd hc

theorem OpensNumber.isSpace {c : Char} (hc : OpensNumber c) : isSpace c = false := by
  simp [Json.isSpace, hc.ne ' ' (by decide), hc.ne '\n' (by decide), hc.ne '\t' (by decide),
    hc.ne '\r' (by decide)]

/-- What begins like a number is read as one. -/
theorem scalarOr_number {c : Char} (hc : OpensNumber c) (array object : Reader Json)
    (rest : List Char) : scalarOr array object (c :: rest) = number (c :: rest) := by
  rw [scalarOr]
  · exact fun _ h => hc.ne 'n' (by decide) (List.cons.inj h).1
  · exact fun _ h => hc.ne 't' (by decide) (List.cons.inj h).1
  · exact fun _ h => hc.ne 'f' (by decide) (List.cons.inj h).1
  · exact fun _ h => hc.ne '"' (by decide) (List.cons.inj h).1
  · exact fun _ h => hc.ne '[' (by decide) (List.cons.inj h).1
  · exact fun _ h => hc.ne '\x7b' (by decide) (List.cons.inj h).1

/-- What opens with a figure or a sign is read as a number. -/
theorem value_number {c : Char} (hc : OpensNumber c) (room depth : Nat) (rest : List Char) :
    value room depth (c :: rest) = number (c :: rest) := by
  cases depth with
  | zero => exact scalarOr_number hc ..
  | succ depth => exact scalarOr_number hc ..

theorem signed_opens (n : Int) :
    ∃ c rest, Numeral.signed n = c :: rest ∧ OpensNumber c := by
  rw [Numeral.signed]
  split
  · exact ⟨_, _, rfl, .inl rfl⟩
  · obtain ⟨c, rest, hcons, hc⟩ := (figured_decimal n.natAbs).head
    exact ⟨c, rest, hcons, .inr hc⟩

theorem realText_opens (x : Binary64) :
    ∃ c rest, realText x = c :: rest ∧ OpensNumber c := by
  obtain ⟨body, hbody, htext⟩ := realText_eq x
  obtain ⟨c, rest, rfl, hc⟩ := hbody.head
  rw [htext]
  split
  · exact ⟨_, _, rfl, .inl rfl⟩
  · exact ⟨c, rest, rfl, .inr hc⟩

theorem isSpace_of_mem_realText {x : Binary64} {c : Char} (hc : c ∈ realText x) :
    isSpace c = false := by
  obtain ⟨body, hbody, htext⟩ := realText_eq x
  have hfigure : c.isDigit = true ∨ IsMark c := by
    rw [htext] at hc
    obtain hsign | hc := List.mem_append.mp hc
    · split at hsign
      · exact .inr (.inl (List.mem_singleton.mp hsign))
      · cases hsign
    · exact hbody.all c hc
  rcases hfigure with hdigit | rfl | rfl | rfl | rfl
  · exact OpensNumber.isSpace (.inr hdigit)
  all_goals rfl

theorem skipSpace_cons {c : Char} (hc : isSpace c = false) (rest : List Char) :
    skipSpace (c :: rest) = c :: rest :=
  List.dropWhile_cons_of_neg (by simp [hc])

/-- A double that is read back for its text alone is so wherever a number ends behind it. -/
theorem number_realText {x : Binary64} (hx : ReadsBack x) {rest : List Char}
    (hrest : Stops rest) : number (realText x ++ rest) = some (.real x, rest) := by
  obtain ⟨c, behind, htext, hc⟩ := realText_opens x
  have hspace : skipSpace (realText x) = realText x := by
    rw [htext, skipSpace_cons hc.isSpace]
  rw [ReadsBack, parse?, hspace, htext, value_number hc, ← htext] at hx
  split at hx
  · rename_i v left hnumber
    split at hx
    · rename_i hblank
      cases hx
      cases left with
      | nil => exact local_number.append hnumber hrest
      | cons d left =>
          have hd : isSpace d = false :=
            isSpace_of_mem_realText ((local_number.suffix hnumber).subset List.mem_cons_self)
          rw [skipSpace_cons hd] at hblank
          cases hblank
    · cases hx
  · cases hx

/-! Arrays and objects -/

/-- The text of a value begins with a character that is neither blank nor a closing bracket. -/
theorem chars_opens (v : Json) :
    ∃ c rest, chars v = c :: rest ∧ isSpace c = false ∧ c ≠ ']' := by
  have hnumber {c : Char} (hc : OpensNumber c) : isSpace c = false ∧ c ≠ ']' :=
    ⟨hc.isSpace, hc.ne ']' (by decide)⟩
  cases v with
  | null | string s | array items | object fields =>
      rw [chars]
      exact ⟨_, _, rfl, by decide, by decide⟩
  | bool b => cases b <;> exact ⟨_, _, rfl, by decide, by decide⟩
  | integer n =>
      obtain ⟨c, rest, htext, hc⟩ := signed_opens n
      exact ⟨c, rest, htext, hnumber hc⟩
  | real x =>
      obtain ⟨c, rest, htext, hc⟩ := realText_opens x
      exact ⟨c, rest, htext, hnumber hc⟩

theorem skipSpace_chars (v : Json) (rest : List Char) :
    skipSpace (chars v ++ rest) = chars v ++ rest := by
  obtain ⟨c, behind, htext, hc, -⟩ := chars_opens v
  rw [htext, List.cons_append, skipSpace_cons hc]

theorem stops_cons {c : Char} (rest : List Char)
    (hc : c.isDigit = false ∧ c ≠ '.' ∧ c ≠ 'e' ∧ c ≠ 'E') : Stops (c :: rest) := by
  rintro d hd
  cases hd
  exact hc

/-- The reader gives the value for its text, up to where a number would end. -/
def Reads (read : Reader Json) (v : Json) : Prop :=
  ∀ rest, Stops rest → read (chars v ++ rest) = some (v, rest)

theorem itemsText_cons_cons (item next : Json) (others : List Json) :
    itemsText (item :: next :: others) = chars item ++ ',' :: itemsText (next :: others) := rfl

theorem fieldsText_cons_cons (key : String) (v : Json) (next : String × Json)
    (others : List (String × Json)) :
    fieldsText ((key, v) :: next :: others) =
      stringText key ++ ':' :: chars v ++ ',' :: fieldsText (next :: others) := rfl

theorem arrayItems_text {read : Reader Json} {items : List Json} {room : Nat}
    (hitems : items ≠ []) (hroom : items.length ≤ room) (hread : ∀ item ∈ items, Reads read item)
    (rest : List Char) :
    arrayItems read room (itemsText items ++ ']' :: rest) = some (items, rest) := by
  induction items generalizing room with
  | nil => exact absurd rfl hitems
  | cons item others ih =>
      obtain ⟨room, rfl⟩ := Nat.exists_eq_succ_of_ne_zero (Nat.ne_of_gt (Nat.lt_of_lt_of_le
        (Nat.succ_pos _) hroom))
      obtain ⟨hitem, hothers⟩ := List.forall_mem_cons.mp hread
      cases others with
      | nil =>
          have hclose : Stops (']' :: rest) := stops_cons _ (by decide)
          rw [itemsText, arrayItems, skipSpace_chars, hitem _ hclose]
          rfl
      | cons next others =>
          have hrest := ih (List.cons_ne_nil _ _) (Nat.le_of_succ_le_succ hroom) hothers
          have hcomma : Stops (',' :: (itemsText (next :: others) ++ ']' :: rest)) :=
            stops_cons _ (by decide)
          rw [itemsText_cons_cons, List.append_assoc, List.cons_append, arrayItems,
            skipSpace_chars, hitem _ hcomma]
          simp only [skipSpace_cons (show isSpace ',' = false by decide), hrest, Option.map_some]

theorem objectField_text {read : Reader Json} (key : String) {v : Json} (hread : Reads read v)
    {rest : List Char} (hrest : Stops rest) :
    objectField read (stringText key ++ ':' :: (chars v ++ rest)) = some ((key, v), rest) := by
  have htext : stringText key ++ ':' :: (chars v ++ rest) =
      '"' :: (key.toList.flatMap escape ++ '"' :: ':' :: (chars v ++ rest)) := by
    simp [stringText]
  rw [htext, objectField, stringBody_text]
  simp only [skipSpace_cons (show isSpace ':' = false by decide), skipSpace_chars, hread rest hrest,
    String.ofList_toList, Option.map_some]

theorem objectFields_text {read : Reader Json} {fields : List (String × Json)} {room : Nat}
    (hfields : fields ≠ []) (hroom : fields.length ≤ room)
    (hread : ∀ field ∈ fields, Reads read field.2) (rest : List Char) :
    objectFields read room (fieldsText fields ++ '\x7d' :: rest) = some (fields, rest) := by
  induction fields generalizing room with
  | nil => exact absurd rfl hfields
  | cons field others ih =>
      obtain ⟨room, rfl⟩ := Nat.exists_eq_succ_of_ne_zero (Nat.ne_of_gt (Nat.lt_of_lt_of_le
        (Nat.succ_pos _) hroom))
      obtain ⟨key, v⟩ := field
      obtain ⟨hfield, hothers⟩ := List.forall_mem_cons.mp hread
      have hkey (behind : List Char) : skipSpace (stringText key ++ behind) =
          stringText key ++ behind := skipSpace_cons (by decide) _
      cases others with
      | nil =>
          have hclose : Stops ('\x7d' :: rest) := stops_cons _ (by decide)
          rw [fieldsText, List.append_assoc, List.cons_append, objectFields, hkey,
            objectField_text key hfield hclose]
          rfl
      | cons next others =>
          have hrest := ih (List.cons_ne_nil _ _) (Nat.le_of_succ_le_succ hroom) hothers
          have hcomma : Stops (',' :: (fieldsText (next :: others) ++ '\x7d' :: rest)) :=
            stops_cons _ (by decide)
          have htext : fieldsText ((key, v) :: next :: others) ++ '\x7d' :: rest =
              stringText key ++ ':' :: (chars v ++
                ',' :: (fieldsText (next :: others) ++ '\x7d' :: rest)) := by
            rw [fieldsText_cons_cons]
            simp
          rw [htext, objectFields, hkey, objectField_text key hfield hcomma]
          simp only [skipSpace_cons (show isSpace ',' = false by decide), hrest, Option.map_some]

/-! Lengths -/

theorem length_itemsText_cons (item : Json) (others : List Json) :
    (chars item).length + (itemsText others).length ≤ (itemsText (item :: others)).length := by
  cases others with
  | nil => exact Nat.le_refl _
  | cons next others =>
      rw [itemsText_cons_cons, List.length_append, List.length_cons]
      exact Nat.add_le_add_left (Nat.le_succ _) _

theorem length_fieldsText_cons (field : String × Json) (others : List (String × Json)) :
    (chars field.2).length + 1 + (fieldsText others).length ≤
      (fieldsText (field :: others)).length := by
  cases others with
  | nil =>
      simp only [fieldsText, List.length_append, List.length_cons, List.length_nil]
      omega
  | cons next others =>
      rw [fieldsText_cons_cons]
      simp only [List.length_append, List.length_cons]
      omega

theorem length_chars_pos (v : Json) : 0 < (chars v).length := by
  obtain ⟨c, rest, htext, -⟩ := chars_opens v
  exact htext ▸ Nat.succ_pos _

theorem length_le_itemsText (items : List Json) :
    items.length ≤ (itemsText items).length ∧
      ∀ item ∈ items, (chars item).length ≤ (itemsText items).length := by
  induction items with
  | nil => exact ⟨Nat.le_refl _, nofun⟩
  | cons item others ih =>
      have hcons := length_itemsText_cons item others
      have hpositive := length_chars_pos item
      refine ⟨by rw [List.length_cons]; omega, List.forall_mem_cons.mpr ⟨by omega, ?_⟩⟩
      exact fun other hother => Nat.le_trans (ih.2 other hother) (by omega)

theorem length_le_fieldsText (fields : List (String × Json)) :
    fields.length ≤ (fieldsText fields).length ∧
      ∀ field ∈ fields, (chars field.2).length ≤ (fieldsText fields).length := by
  induction fields with
  | nil => exact ⟨Nat.le_refl _, nofun⟩
  | cons field others ih =>
      have hcons := length_fieldsText_cons field others
      refine ⟨by rw [List.length_cons]; omega, List.forall_mem_cons.mpr ⟨by omega, ?_⟩⟩
      exact fun other hother => Nat.le_trans (ih.2 other hother) (by omega)

/-! Values -/

/-- The double stands somewhere in the value. -/
inductive Holds (x : Binary64) : Json → Prop
  | real : Holds x (.real x)
  | item {items : List Json} {item : Json} (hitem : item ∈ items) (hx : Holds x item) :
      Holds x (.array items)
  | field {fields : List (String × Json)} {field : String × Json} (hfield : field ∈ fields)
      (hx : Holds x field.2) : Holds x (.object fields)

theorem value_null (room depth : Nat) : Reads (value room depth) .null := by
  intro rest _
  cases depth <;> rfl

theorem value_bool (room depth : Nat) (b : Bool) : Reads (value room depth) (.bool b) := by
  intro rest _
  cases depth <;> cases b <;> rfl

theorem value_string (room depth : Nat) (s : String) : Reads (value room depth) (.string s) := by
  intro rest _
  have htext : chars (.string s) ++ rest = '"' :: (s.toList.flatMap escape ++ '"' :: rest) := by
    simp [chars, stringText]
  have hscalar (array object : Reader Json) :
      scalarOr array object (chars (.string s) ++ rest) = some (.string s, rest) := by
    rw [htext, scalarOr, stringBody_text]
    exact congrArg (fun text => some (Json.string text, rest)) (String.ofList_toList ..)
  cases depth <;> exact hscalar ..

theorem value_integer (room depth : Nat) {n : Int} (hlow : -0x8000000000000000 ≤ n)
    (hhigh : n ≤ 0xFFFFFFFFFFFFFFFF) : Reads (value room depth) (.integer n) := by
  intro rest hrest
  obtain ⟨c, behind, htext, hc⟩ := signed_opens n
  have hnumber := number_signed hlow hhigh hrest
  rw [htext] at hnumber
  rw [chars, htext]
  exact (value_number hc ..).trans hnumber

theorem value_real (room depth : Nat) {x : Binary64} (hx : ReadsBack x) :
    Reads (value room depth) (.real x) := by
  intro rest hrest
  obtain ⟨c, behind, htext, hc⟩ := realText_opens x
  have hnumber := number_realText hx hrest
  rw [htext] at hnumber
  rw [chars, htext]
  exact (value_number hc ..).trans hnumber

theorem value_array {room depth : Nat} {items : List Json} (hroom : items.length ≤ room)
    (hread : ∀ item ∈ items, Reads (value room depth) item) :
    Reads (value room (depth + 1)) (.array items) := by
  intro rest _
  have htext : chars (.array items) ++ rest = '[' :: (itemsText items ++ ']' :: rest) := by
    simp [chars]
  rw [htext, value, scalarOr]
  cases items with
  | nil => rfl
  | cons item others =>
      have hitems := arrayItems_text (List.cons_ne_nil item others) hroom hread rest
      obtain ⟨c, behind, hopens, hc, hclose⟩ := chars_opens item
      have hcons : ∃ behind, itemsText (item :: others) ++ ']' :: rest = c :: behind := by
        cases others <;> simp [itemsText, hopens]
      obtain ⟨behind, hcons⟩ := hcons
      rw [hcons] at hitems ⊢
      rw [skipSpace_cons hc]
      split
      · rename_i hbracket
        exact absurd (List.cons.inj hbracket).1 hclose
      · rw [hitems]
        rfl

theorem value_object {room depth : Nat} {fields : List (String × Json)}
    (hordered : Ordered fields) (hroom : fields.length ≤ room)
    (hread : ∀ field ∈ fields, Reads (value room depth) field.2) :
    Reads (value room (depth + 1)) (.object fields) := by
  intro rest _
  have htext : chars (.object fields) ++ rest =
      '\x7b' :: (fieldsText fields ++ '\x7d' :: rest) := by
    simp [chars]
  rw [htext, value, scalarOr]
  cases fields with
  | nil => rfl
  | cons field others =>
      have hfields := objectFields_text (List.cons_ne_nil field others) hroom hread rest
      have hcons : ∃ behind, fieldsText (field :: others) ++ '\x7d' :: rest = '"' :: behind := by
        cases others <;> exact ⟨_, rfl⟩
      obtain ⟨behind, hcons⟩ := hcons
      rw [hcons] at hfields ⊢
      rw [skipSpace_cons (by decide)]
      split
      · rename_i hbrace
        cases (List.cons.inj hbrace).1
      · rw [hfields]
        exact congrArg (fun v => some (v, rest)) (ofFields_of_ordered hordered)

/-- A regular value is read from its text, wherever it stands, if its doubles are. -/
theorem value_chars {depth : Nat} {v : Json} (hv : Regular depth v)
    (hreals : ∀ x, Holds x v → ReadsBack x) {room : Nat} (hroom : (chars v).length ≤ room) :
    Reads (value room depth) v := by
  induction hv with
  | null => exact value_null _ _
  | bool b => exact value_bool _ _ b
  | integer hlow hhigh => exact value_integer _ _ hlow hhigh
  | real _ => exact value_real _ _ (hreals _ .real)
  | string s => exact value_string _ _ s
  | @array depth items _ ih =>
      have hlength := length_le_itemsText items
      have hitems : (itemsText items).length ≤ room := by
        simp only [chars, List.length_append, List.length_cons] at hroom
        omega
      refine value_array (Nat.le_trans hlength.1 hitems) fun item hitem => ?_
      exact ih item hitem (fun x hx => hreals x (.item hitem hx))
        (Nat.le_trans (hlength.2 item hitem) hitems)
  | @object depth fields hordered _ ih =>
      have hlength := length_le_fieldsText fields
      have hfields : (fieldsText fields).length ≤ room := by
        simp only [chars, List.length_append, List.length_cons] at hroom
        omega
      refine value_object hordered (Nat.le_trans hlength.1 hfields) fun field hfield => ?_
      exact ih field hfield (fun x hx => hreals x (.field hfield hx))
        (Nat.le_trans (hlength.2 field hfield) hfields)

/-- The compact text of a regular value is read as the value. -/
theorem parse?_chars {v : Json} (hv : Regular maxDepth v)
    (hreals : ∀ x, Holds x v → ReadsBack x) : parse? (chars v) = some v := by
  have hread := value_chars hv hreals (Nat.le_refl _) [] nofun
  have hspace := skipSpace_chars v []
  rw [List.append_nil] at hread hspace
  rw [parse?, hspace, hread]
  rfl

end PageQuery.Json
