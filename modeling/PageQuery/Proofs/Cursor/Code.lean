import PageQuery.Cursor.Code
import PageQuery.Proofs.Json.RoundTrip
import PageQuery.Proofs.Text.Base64

/-!
# Reading cursors back

A cursor goes through three codes, compact JSON, UTF-8 and Base64, and each of them gives back
what was put in.  So the text of a list of values that begins with a tag is read as the same
values, with any blanks around it, and values that do not begin with a tag are refused.  What
has been read from any text at all can be written and read again.
-/

namespace PageQuery.Cursor

open Json (Regular Holds ReadsBack)

theorem ofUtf8?_utf8 (cs : List Char) : ofUtf8? (utf8 cs) = some cs := by
  have hbytes : (⟨(utf8 cs).toArray⟩ : ByteArray) = (String.ofList cs).toByteArray := by
    rw [String.toByteArray_ofList, List.utf8Encode]
    exact ByteArray.ext List.data_toByteArray.symm
  have hvalid := (String.ofList cs).isValidUTF8
  rw [ofUtf8?, hbytes, String.fromUTF8?, dif_pos hvalid]
  exact congrArg some String.toList_ofList

/-- What the text of a cursor says, whatever blanks stand around it. -/
theorem decode_blank_encode (vs : List Json) {before behind : String}
    (hbefore : ∀ c ∈ before.toList, Text.isBlank c = true)
    (hbehind : ∀ c ∈ behind.toList, Text.isBlank c = true) :
    decode (before ++ encode vs ++ behind) = match Json.parse? (Json.array vs).chars with
      | none => .error (.invalidCursor .notJson)
      | some v => ofJson v := by
  have htrim : Text.trim (before ++ encode vs ++ behind).toList =
      Text.Base64.encode (utf8 (Json.array vs).chars) := by
    rw [String.toList_append, String.toList_append, encode, String.toList_ofList]
    exact Text.trim_blank hbefore (fun c hc => Text.Base64.isBlank_of_mem_encode hc) hbehind
  have hread : (ofUtf8? (utf8 (Json.array vs).chars)).bind Json.parse? =
      Json.parse? (Json.array vs).chars := by
    rw [ofUtf8?_utf8, Option.bind_some]
  rw [decode, htrim, Text.Base64.decode?_encode]
  change (match (ofUtf8? (utf8 (Json.array vs).chars)).bind Json.parse? with
    | none => Except.error (Error.invalidCursor .notJson)
    | some v => ofJson v) = _
  rw [hread]

/-- What has been read from a text are the values of an array that begins with a tag. -/
theorem regular_of_decode {text : String} {vs : List Json} (hdecode : decode text = .ok vs) :
    (∀ v ∈ vs, Regular 126 v) ∧ (tag? vs).isSome = true := by
  rw [decode] at hdecode
  split at hdecode
  · cases hdecode
  · split at hdecode
    · cases hdecode
    · rename_i bytes _ v hparse
      obtain ⟨cs, -, hv⟩ := Option.bind_eq_some_iff.mp hparse
      have hregular := Json.parse?_regular hv
      rw [ofJson.eq_def] at hdecode
      split at hdecode
      · split at hdecode
        · rename_i htag
          cases hdecode
          cases hregular with
          | array hitems => exact ⟨hitems, htag⟩
        · cases hdecode
      · cases hdecode

/-- Cursors are read back.  Regular values that begin with a tag are read from their text, with
any blanks around it, and values that do not are refused; and what has been read from some
text is read again from its own.  Doubles are taken to be read back from their own texts. -/
theorem decode_encode {vs : List Json} (hreals : ∀ v ∈ vs, ∀ x, Holds x v → ReadsBack x) :
    ((∀ v ∈ vs, Regular 126 v) → ∀ before behind : String,
        (∀ c ∈ before.toList, Text.isBlank c = true) →
        (∀ c ∈ behind.toList, Text.isBlank c = true) →
        decode (before ++ encode vs ++ behind) =
          if (tag? vs).isSome then .ok vs else .error (.invalidCursor .noTag)) ∧
      ∀ text, decode text = .ok vs → decode (encode vs) = .ok vs := by
  have hfront : (∀ v ∈ vs, Regular 126 v) → ∀ before behind : String,
      (∀ c ∈ before.toList, Text.isBlank c = true) →
      (∀ c ∈ behind.toList, Text.isBlank c = true) →
      decode (before ++ encode vs ++ behind) =
        if (tag? vs).isSome then .ok vs else .error (.invalidCursor .noTag) := by
    intro hregular before behind hbefore hbehind
    have hparse : Json.parse? (Json.array vs).chars = some (.array vs) :=
      Json.parse?_chars (.array hregular) fun x hx => by
        cases hx with
        | item hitem hx => exact hreals _ hitem x hx
    rw [decode_blank_encode vs hbefore hbehind, hparse]
    rfl
  refine ⟨hfront, fun text hdecode => ?_⟩
  obtain ⟨hregular, htag⟩ := regular_of_decode hdecode
  have hempty : ∀ c ∈ "".toList, Text.isBlank c = true := nofun
  have hagain := hfront hregular "" "" hempty hempty
  rwa [String.empty_append, String.append_empty, if_pos htag] at hagain

/-- One and a half is written as `1.5` and read from there. -/
theorem readsBack_oneAndHalf : ReadsBack ⟨0x3FF8000000000000⟩ := by
  have htext : Json.realText ⟨0x3FF8000000000000⟩ = ['1', '.', '5'] := by decide +kernel
  have hscale : Json.scale false (Binary64.ofNat 15) (-1) = some ⟨0x3FF8000000000000⟩ := by
    decide +kernel
  have hnumber : Json.number ['1', '.', '5'] =
      (Json.ofParts false 15 (-1)).map fun v => (v, []) := rfl
  have hvalue : Json.value 3 Json.maxDepth ['1', '.', '5'] = Json.number ['1', '.', '5'] := rfl
  have hspace : Json.skipSpace ['1', '.', '5'] = ['1', '.', '5'] := rfl
  rw [ReadsBack, htext, Json.parse?, hspace]
  simp only [List.length_cons, List.length_nil, hvalue, hnumber, Json.ofParts, hscale]
  rfl

theorem decode_encode_tagged :
    let vs : List Json := [.string "Item", .integer (-5), .real ⟨0x3FF8000000000000⟩,
      .object [("id", .array [.null]), ("name", .string "n")]]
    decode (" " ++ encode vs ++ "\n") = .ok vs ∧ decode (encode vs) = .ok vs := by
  intro vs
  have hreals : ∀ v ∈ vs, ∀ x, Holds x v → ReadsBack x := by
    intro v hv x hx
    simp only [vs, List.mem_cons, List.not_mem_nil, or_false] at hv
    obtain rfl | rfl | rfl | rfl := hv
    · cases hx
    · cases hx
    · cases hx
      exact readsBack_oneAndHalf
    · rcases hx with _ | _ | ⟨hfield, hx⟩
      simp only [List.mem_cons, List.not_mem_nil, or_false] at hfield
      obtain rfl | rfl := hfield
      · rcases hx with _ | ⟨hitem, hx⟩
        cases List.mem_singleton.mp hitem
        cases hx
      · cases hx
  have hregular : ∀ v ∈ vs, Regular 126 v := by
    have hitem : ∀ item ∈ [Json.null], Regular 124 item := by simp [Regular.null]
    have hfield : ∀ field ∈ [("id", Json.array [.null]), ("name", .string "n")],
        Regular 125 field.2 := by simp [Regular.array hitem, Regular.string]
    have hordered : Json.Ordered [("id", Json.array [.null]), ("name", .string "n")] :=
      List.pairwise_pair.mpr (by decide)
    have hreal : Regular 126 (.real ⟨0x3FF8000000000000⟩) := .real (by decide)
    simp [vs, Regular.string, Regular.integer, hreal, Regular.object hordered hfield]
  have hbefore : ∀ c ∈ [' '], Text.isBlank c = true := by simp [Text.isBlank]
  have hbehind : ∀ c ∈ ['\n'], Text.isBlank c = true := by simp [Text.isBlank]
  have hfront := (decode_encode hreals).1 hregular " " "\n" hbefore hbehind
  exact ⟨hfront, (decode_encode hreals).2 _ hfront⟩

end PageQuery.Cursor
