import Mathlib.Data.String.Basic
import PageQuery.Options

/-!
# Cutting logged statements

A statement that is longer than logged statements may be is cut, at the last place between two
characters where it is short enough.  Main statement: the scan for that place ends at a boundary
of the encoded text, and what it leaves is the longest run of whole characters that fits.
-/

namespace PageQuery

open String (utf8Len)

variable {cs kept : List Char} {size : Nat}

/-- The characters that fill the first bytes are the prefix of that size. -/
theorem bytePrefix?_eq_some_iff :
    bytePrefix? cs size = some kept ↔ kept <+: cs ∧ utf8Len kept = size := by
  fun_induction bytePrefix? cs size generalizing kept with
  | case1 cs =>
      rw [String.utf8Len_eq_zero]
      constructor
      · rintro ⟨⟩
        exact ⟨List.nil_prefix, rfl⟩
      · rintro ⟨-, rfl⟩
        rfl
  | case2 size =>
      refine ⟨nofun, ?_⟩
      rintro ⟨hfront, hsize⟩
      rw [List.prefix_nil.mp hfront] at hsize
      cases hsize
  | case3 c rest size hfits ih =>
      rw [Option.map_eq_some_iff, List.prefix_cons_iff]
      constructor
      · rintro ⟨_, htail, rfl⟩
        obtain ⟨hfront, hsize⟩ := ih.mp htail
        exact ⟨.inr ⟨_, rfl, hfront⟩, by rw [String.utf8Len_cons, hsize]; omega⟩
      · rintro ⟨rfl | ⟨tail, rfl, hfront⟩, hsize⟩
        · cases hsize
        · rw [String.utf8Len_cons] at hsize
          exact ⟨tail, ih.mpr ⟨hfront, by omega⟩, rfl⟩
  | case4 c rest size hlong =>
      refine ⟨nofun, ?_⟩
      rw [List.prefix_cons_iff]
      rintro ⟨rfl | ⟨tail, rfl, -⟩, hsize⟩
      · cases hsize
      · rw [String.utf8Len_cons] at hsize
        omega

/-- Some characters fill the first bytes of a text exactly if those end at a boundary of its
encoding. -/
theorem isSome_bytePrefix?_iff (sql : String) (size : Nat) :
    (bytePrefix? sql.toList size).isSome = true ↔ String.Pos.Raw.isValid sql ⟨size⟩ = true := by
  rw [String.Pos.Raw.isValid_eq_true_iff, String.Pos.Raw.isValid_iff_exists_append,
    Option.isSome_iff_exists]
  constructor
  · rintro ⟨kept, hkept⟩
    obtain ⟨⟨rest, hrest⟩, hsize⟩ := bytePrefix?_eq_some_iff.mp hkept
    refine ⟨String.ofList kept, String.ofList rest, ?_, ?_⟩
    · rw [← String.ofList_append, hrest, String.ofList_toList]
    · rw [String.rawEndPos_ofList, hsize]
  · rintro ⟨front, back, rfl, hsize⟩
    refine ⟨front.toList, bytePrefix?_eq_some_iff.mpr ⟨?_, ?_⟩⟩
    · rw [String.toList_append]
      exact List.prefix_append _ _
    · rw [String.utf8Len_toList]
      exact (congrArg String.Pos.Raw.byteIdx hsize).symm

/-- Where the scan ends: at a boundary that it has met first on its way back. -/
theorem floorBoundary_spec (cs : List Char) (size : Nat) :
    (bytePrefix? cs (floorBoundary cs size)).isSome = true ∧ floorBoundary cs size ≤ size ∧
      ∀ n, floorBoundary cs size < n → n ≤ size → bytePrefix? cs n = none := by
  induction size with
  | zero => exact ⟨by rw [floorBoundary, bytePrefix?]; rfl, Nat.le_refl 0, by omega⟩
  | succ size ih =>
      rw [floorBoundary]
      split
      · exact ⟨‹_›, Nat.le_refl _, by omega⟩
      · obtain ⟨hsome, hle, hnone⟩ := ih
        refine ⟨hsome, hle.trans (Nat.le_succ size), fun n hlt hn => ?_⟩
        rcases Nat.le_succ_iff.mp hn with hbelow | rfl
        · exact hnone n hlt hbelow
        · exact Option.not_isSome_iff_eq_none.mp ‹_›

/-- What stands before the place where the scan ends can be cut out. -/
theorem bytePrefix?_floorBoundary (cs : List Char) (size : Nat) :
    bytePrefix? cs (floorBoundary cs size) = some (cutBytes cs size) := by
  obtain ⟨kept, hkept⟩ := Option.isSome_iff_exists.mp (floorBoundary_spec cs size).1
  rw [cutBytes, hkept, Option.getD_some]

theorem cutBytes_spec (cs : List Char) (size : Nat) :
    cutBytes cs size <+: cs ∧ utf8Len (cutBytes cs size) = floorBoundary cs size :=
  bytePrefix?_eq_some_iff.mp (bytePrefix?_floorBoundary cs size)

/-- Of the prefixes that fit, the cut leaves the longest one. -/
theorem cutBytes_longest {other : List Char} (hother : other <+: cs)
    (hsize : utf8Len other ≤ size) :
    other <+: cutBytes cs size := by
  obtain ⟨hkept, hstop⟩ := cutBytes_spec cs size
  rcases List.prefix_or_prefix_of_prefix hother hkept with hwithin | hbeyond
  · exact hwithin
  -- A longer one would end at a boundary that the scan has met before.
  · have hends : bytePrefix? cs (utf8Len other) = some other :=
      bytePrefix?_eq_some_iff.mpr ⟨hother, rfl⟩
    have hnot : ¬ floorBoundary cs size < utf8Len other := fun hlt => by
      rw [(floorBoundary_spec cs size).2.2 _ hlt hsize] at hends
      cases hends
    have hsame : utf8Len other = floorBoundary cs size :=
      Nat.le_antisymm (Nat.not_lt.mp hnot) (hstop ▸ String.utf8Len_le_of_prefix hbeyond)
    rw [hsame, bytePrefix?_floorBoundary] at hends
    exact Option.some.inj hends ▸ List.prefix_rfl

theorem cutBytes_eq_self_iff : cutBytes cs size = cs ↔ utf8Len cs ≤ size := by
  constructor
  · intro hwhole
    have hstop := (cutBytes_spec cs size).2
    rw [hwhole] at hstop
    exact hstop.trans_le (floorBoundary_spec cs size).2.1
  · intro hfits
    exact (cutBytes_spec cs size).1.eq_of_length_le (cutBytes_longest List.prefix_rfl hfits).length_le

namespace Options

/-- The statement is not longer than logged statements may be. -/
def Fits (options : Options) (sql : String) : Prop :=
  ∀ limit ∈ options.maxLoggedLength, sql.utf8ByteSize ≤ limit

/-- The characters are what a limit leaves of a text: the scan back from the limit ends at a
boundary of the encoding and passes none, what stands before that place can be cut out, and no
longer run of characters is within the limit. -/
structure Cut (sql : String) (limit : Nat) (kept : List Char) : Prop where
  boundary : String.Pos.Raw.isValid sql ⟨floorBoundary sql.toList limit⟩ = true
  stop_le : floorBoundary sql.toList limit ≤ limit
  passed : ∀ n, floorBoundary sql.toList limit < n → n ≤ limit →
    String.Pos.Raw.isValid sql ⟨n⟩ = false
  slice : bytePrefix? sql.toList (floorBoundary sql.toList limit) = some kept
  size_le : (String.ofList kept).utf8ByteSize ≤ limit
  longest : ∀ other, other <+: sql.toList → (String.ofList other).utf8ByteSize ≤ limit →
    other <+: kept

theorem cut_cutBytes (sql : String) (limit : Nat) : Cut sql limit (cutBytes sql.toList limit) := by
  obtain ⟨hsome, hle, hnone⟩ := floorBoundary_spec sql.toList limit
  refine ⟨(isSome_bytePrefix?_iff sql _).mp hsome, hle, fun n hlt hn => ?_,
    bytePrefix?_floorBoundary _ _, ?_, fun other hother hsize => cutBytes_longest hother ?_⟩
  · rw [← Bool.not_eq_true, ← isSome_bytePrefix?_iff, hnone n hlt hn]
    exact Bool.false_ne_true
  · rw [String.utf8ByteSize_ofList, (cutBytes_spec _ _).2]
    exact hle
  · rwa [String.utf8ByteSize_ofList] at hsize

theorem fits_iff {options : Options} {limit : Nat} (hlimit : options.maxLoggedLength = some limit)
    (sql : String) : options.Fits sql ↔ sql.utf8ByteSize ≤ limit := by
  rw [Fits, hlimit]
  exact ⟨fun hfits => hfits limit rfl, by rintro hle _ ⟨⟩; exact hle⟩

theorem loggedText_of_fits {options : Options} {sql : String} (hfits : options.Fits sql) :
    options.loggedText sql = sql := by
  rw [loggedText]
  cases hlimit : options.maxLoggedLength with
  | none => rfl
  | some limit => exact if_neg (Nat.not_lt.mpr (hfits limit hlimit))

theorem loggedText_of_not_fits {options : Options} {sql : String} {limit : Nat}
    (hlimit : options.maxLoggedLength = some limit) (hlong : ¬ options.Fits sql) :
    options.loggedText sql = String.ofList (cutBytes sql.toList limit) ++ "..." := by
  rw [fits_iff hlimit, Nat.not_le] at hlong
  simp only [loggedText, hlimit, if_pos hlong]

/-- A logged statement is the statement itself if that is short enough, and otherwise what the
limit leaves of it, with three dots in place of the rest. A statement that is too long still reads
as it did when the rest is three dots itself. -/
theorem loggedText_cut (options : Options) (sql : String) :
    ∃ kept dropped : List Char, sql.toList = kept ++ dropped ∧
      (dropped = [] ↔ options.Fits sql) ∧
      options.loggedText sql = (if dropped = [] then sql else String.ofList kept ++ "...") ∧
      (options.loggedText sql = sql ↔ options.Fits sql ∨ String.ofList dropped = "...") ∧
      ∀ limit ∈ options.maxLoggedLength, Cut sql limit kept := by
  cases hlimit : options.maxLoggedLength with
  | none =>
      have hfits : options.Fits sql := fun limit hmem => by simp [hlimit] at hmem
      have htext := loggedText_of_fits hfits
      exact ⟨sql.toList, [], (List.append_nil _).symm, iff_of_true rfl hfits,
        htext, iff_of_true htext (.inl hfits), nofun⟩
  | some limit =>
      obtain ⟨dropped, hsplit⟩ := (cutBytes_spec sql.toList limit).1
      have hnone : dropped = [] ↔ options.Fits sql := by
        rw [fits_iff hlimit, ← String.utf8Len_toList, ← cutBytes_eq_self_iff]
        constructor
        · rintro rfl
          rwa [List.append_nil] at hsplit
        · intro hwhole
          rw [hwhole] at hsplit
          exact List.append_right_eq_self.mp hsplit
      refine ⟨cutBytes sql.toList limit, dropped, hsplit.symm, hnone, ?_, ?_, ?_⟩
      · by_cases hfits : options.Fits sql
        · rw [loggedText_of_fits hfits, if_pos (hnone.mpr hfits)]
        · rw [loggedText_of_not_fits hlimit hfits, if_neg (mt hnone.mp hfits)]
      · by_cases hfits : options.Fits sql
        · exact iff_of_true (loggedText_of_fits hfits) (.inl hfits)
        · have hsql : sql = String.ofList (cutBytes sql.toList limit) ++ String.ofList dropped := by
            rw [← String.ofList_append, hsplit, String.ofList_toList]
          rw [loggedText_of_not_fits hlimit hfits, or_iff_right hfits]
          constructor
          · intro htext
            exact String.append_right_inj _ |>.mp (htext.trans hsql) |>.symm
          · intro hdots
            rw [← hdots]
            exact hsql.symm
      · rintro _ ⟨⟩
        exact cut_cutBytes sql limit

/-- A statement that is longer than the limit, and comes back as it is. -/
theorem loggedText_dropped_dots :
    ¬Fits { maxLoggedLength := some 2 } "ab..." ∧
      loggedText { maxLoggedLength := some 2 } "ab..." = "ab..." := by
  refine ⟨fun hfits => ?_, by decide +kernel⟩
  have hsize : "ab...".utf8ByteSize ≤ 2 := (fits_iff rfl _).mp hfits
  exact absurd hsize (by decide +kernel)

example : loggedText { maxLoggedLength := some 4 } "selé 1" = "sel..." := by decide +kernel

end Options

end PageQuery
