import PageQuery.Text.Base64
import PageQuery.Text.Blank

/-!
# Reading Base64 back

Three bytes are four six-bit numbers, and a symbol stands for one of these.  What has been
written from bytes is read back as the same bytes, whatever is left over in the last group;
and as no symbol is blank, blank characters around the text are told from it.
-/

namespace PageQuery.Text

namespace Base64

/-- The symbol of a sextet is read back. -/
theorem sextet?_symbol {n : Nat} (hn : n < 64) : sextet? (symbol n) = some n :=
  (by decide : ∀ n < 64, sextet? (symbol n) = some n) n hn

theorem symbol_ne_padding {n : Nat} (hn : n < 64) : symbol n ≠ '=' :=
  (by decide : ∀ n < 64, symbol n ≠ '=') n hn

theorem isBlank_symbol {n : Nat} (hn : n < 64) : isBlank (symbol n) = false :=
  (by decide : ∀ n < 64, isBlank (symbol n) = false) n hn

/-- A group without padding is read in the same way at the end as before another one. -/
theorem decode?_group {w x y z : Nat} (hw : w < 64) (hx : x < 64) (hy : y < 64) (hz : z < 64)
    (rest : List Char) :
    decode? (symbol w :: symbol x :: symbol y :: symbol z :: rest) =
      (decode? rest).map fun bytes =>
        UInt8.ofNat ((((w * 64 + x) * 64 + y) * 64 + z) / 65536) ::
          UInt8.ofNat ((((w * 64 + x) * 64 + y) * 64 + z) / 256) ::
          UInt8.ofNat (((w * 64 + x) * 64 + y) * 64 + z) :: bytes := by
  cases rest with
  | nil =>
      simp only [decode?, decodeLast?, sextet?_symbol hw, sextet?_symbol hx, sextet?_symbol hy,
        sextet?_symbol hz, if_neg (symbol_ne_padding hy), if_neg (symbol_ne_padding hz)]
      rfl
  | cons c rest =>
      simp only [decode?, sextet?_symbol hw, sextet?_symbol hx, sextet?_symbol hy,
        sextet?_symbol hz]
      cases decode? (c :: rest) <;> rfl

theorem ofNat_of_mod_eq {n : Nat} {a : UInt8} (hn : n % 256 = a.toNat) : UInt8.ofNat n = a := by
  rw [← UInt8.toNat_inj, UInt8.toNat_ofNat']
  exact hn

/-- Bytes that are encoded are decoded to themselves. -/
theorem decode?_encode (bytes : List UInt8) : decode? (encode bytes) = some bytes := by
  fun_induction encode bytes with
  | case1 => rfl
  | case2 a n =>
      have ha := a.toNat_lt
      have hhigh : n / 64 < 64 := by omega
      have hlow : n % 64 < 64 := by omega
      have hbyte : UInt8.ofNat (n / 64 * 4 + n % 64 / 16) = a := ofNat_of_mod_eq (by omega)
      have hrest : n % 64 % 16 = 0 := by omega
      simp only [decode?, decodeLast?, sextet?_symbol hhigh, sextet?_symbol hlow]
      refine (if_pos ⟨trivial, hrest⟩).trans ?_
      rw [hbyte]
  | case3 a b n =>
      have ha := a.toNat_lt
      have hb := b.toNat_lt
      have hhigh : n / 4096 < 64 := by omega
      have hmiddle : n / 64 % 64 < 64 := by omega
      have hlow : n % 64 < 64 := by omega
      have hn : (n / 4096 * 64 + n / 64 % 64) * 64 + n % 64 = n := by omega
      have hfirst : UInt8.ofNat (n / 1024) = a := ofNat_of_mod_eq (by omega)
      have hsecond : UInt8.ofNat (n / 4) = b := ofNat_of_mod_eq (by omega)
      have hrest : n % 64 % 4 = 0 := by omega
      simp only [decode?, decodeLast?, sextet?_symbol hhigh, sextet?_symbol hmiddle,
        sextet?_symbol hlow, if_neg (symbol_ne_padding hlow)]
      refine (if_pos hrest).trans ?_
      rw [hn, hfirst, hsecond]
  | case4 a b c rest n ih =>
      have ha := a.toNat_lt
      have hb := b.toNat_lt
      have hc := c.toNat_lt
      have hn : ((n / 262144 * 64 + n / 4096 % 64) * 64 + n / 64 % 64) * 64 + n % 64 = n := by
        omega
      have hfirst : UInt8.ofNat (n / 65536) = a := ofNat_of_mod_eq (by omega)
      have hsecond : UInt8.ofNat (n / 256) = b := ofNat_of_mod_eq (by omega)
      have hthird : UInt8.ofNat n = c := ofNat_of_mod_eq (by omega)
      rw [decode?_group (by omega) (by omega) (by omega) (by omega), ih, hn, hfirst, hsecond,
        hthird]
      rfl

theorem isBlank_of_mem_encode {bytes : List UInt8} {c : Char} (hc : c ∈ encode bytes) :
    isBlank c = false := by
  fun_induction encode bytes with
  | case1 => cases hc
  | case2 a n =>
      have ha := a.toNat_lt
      simp only [List.mem_cons, List.not_mem_nil, or_false] at hc
      obtain rfl | rfl | rfl | rfl := hc
      · exact isBlank_symbol (by omega)
      · exact isBlank_symbol (by omega)
      · rfl
      · rfl
  | case3 a b n =>
      have ha := a.toNat_lt
      have hb := b.toNat_lt
      simp only [List.mem_cons, List.not_mem_nil, or_false] at hc
      obtain rfl | rfl | rfl | rfl := hc
      · exact isBlank_symbol (by omega)
      · exact isBlank_symbol (by omega)
      · exact isBlank_symbol (by omega)
      · rfl
  | case4 a b c rest n ih =>
      have ha := a.toNat_lt
      have hb := b.toNat_lt
      have hc := c.toNat_lt
      rename_i hmem
      simp only [List.mem_cons] at hmem
      obtain rfl | rfl | rfl | rfl | hmem := hmem
      · exact isBlank_symbol (by omega)
      · exact isBlank_symbol (by omega)
      · exact isBlank_symbol (by omega)
      · exact isBlank_symbol (by omega)
      · exact ih hmem

end Base64

theorem dropWhile_blank {blank text : List Char} (hblank : ∀ c ∈ blank, isBlank c = true)
    (htext : ∀ c ∈ text, isBlank c = false) :
    (blank ++ text).dropWhile isBlank = text := by
  rw [List.dropWhile_append_of_pos hblank]
  cases text with
  | nil => rfl
  | cons c rest => rw [List.dropWhile_cons_of_neg (by simp [htext c List.mem_cons_self])]

/-- Blanks around a text without blanks are all that is trimmed. -/
theorem trim_blank {before text behind : List Char} (hbefore : ∀ c ∈ before, isBlank c = true)
    (htext : ∀ c ∈ text, isBlank c = false) (hbehind : ∀ c ∈ behind, isBlank c = true) :
    trim (before ++ text ++ behind) = text := by
  have hfront : (before ++ text ++ behind).dropWhile isBlank =
      text ++ if text = [] then [] else behind := by
    cases text with
    | nil =>
        have hall : ∀ c ∈ before ++ behind, isBlank c = true := fun c hc =>
          (List.mem_append.mp hc).elim (hbefore c) (hbehind c)
        have hnone : ∀ c ∈ ([] : List Char), isBlank c = false := nofun
        have hdrop := dropWhile_blank hall hnone
        simpa using hdrop
    | cons c rest =>
        rw [List.append_assoc, List.dropWhile_append_of_pos hbefore, List.cons_append,
          List.dropWhile_cons_of_neg (by simp [htext c List.mem_cons_self])]
        rfl
  have hback : ∀ c ∈ (if text = [] then [] else behind).reverse, isBlank c = true := by
    intro c hc
    split at hc
    · cases hc
    · exact hbehind c (List.mem_reverse.mp hc)
  rw [trim, hfront, List.reverse_append, dropWhile_blank hback fun c hc =>
    htext c (List.mem_reverse.mp hc), List.reverse_reverse]

end PageQuery.Text
