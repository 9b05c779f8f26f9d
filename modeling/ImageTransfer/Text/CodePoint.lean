/-!
# Code points

JSON text can name code points that no character has: an escape may spell one half of a surrogate
pair on its own. Text that comes out of JSON is therefore a list of code points, and a character is
a code point that is not a surrogate.
-/

namespace ImageTransfer

/-- A number that Unicode gives a meaning or keeps free, surrogates included. -/
abbrev CodePoint := Fin 0x110000

/-- Text as it comes out of JSON. -/
abbrev Text := List CodePoint

namespace CodePoint

/-- The code point of a character. -/
def ofChar (c : Char) : CodePoint :=
  ⟨c.toNat, by
    have h := c.valid
    simp only [UInt32.isValidChar, Nat.isValidChar] at h
    show c.val.toNat < _
    omega⟩

/-- Whether a code point is half of a surrogate pair, which no encoding form admits alone. -/
def isSurrogate (c : CodePoint) : Bool := 0xD800 ≤ c.val && c.val ≤ 0xDFFF

/-- The character of a code point; a surrogate, which has none, becomes the replacement character. -/
def toChar (c : CodePoint) : Char :=
  if c.isSurrogate then Char.ofNat 0xFFFD else Char.ofNat c.val

theorem ofChar_inj {c d : Char} (h : ofChar c = ofChar d) : c = d := by
  have hv : (ofChar c).val = (ofChar d).val := by rw [h]
  exact Char.toNat_inj.1 hv

/-- No character is a surrogate. -/
theorem isSurrogate_ofChar (c : Char) : (ofChar c).isSurrogate = false := by
  have h := c.valid
  simp only [UInt32.isValidChar, Nat.isValidChar] at h
  have hc : (ofChar c).val = c.val.toNat := rfl
  simp only [isSurrogate, hc, Bool.and_eq_false_iff, decide_eq_false_iff_not]
  omega

/-- Reading a character's code point gives the character back. -/
theorem toChar_ofChar (c : Char) : (ofChar c).toChar = c := by
  rw [toChar, isSurrogate_ofChar]
  exact Char.ofNat_toNat c

/-- A code point that is no surrogate is that of its character. -/
theorem ofChar_toChar {c : CodePoint} (h : c.isSurrogate = false) : ofChar c.toChar = c := by
  have hvalid : c.val.isValidChar := by
    have hlt := c.isLt
    rw [isSurrogate, Bool.and_eq_false_iff, decide_eq_false_iff_not, decide_eq_false_iff_not] at h
    unfold Nat.isValidChar
    omega
  have hchar : c.toChar.toNat = c.val := by
    rw [toChar, h, if_neg Bool.false_ne_true, Char.ofNat, dif_pos hvalid]
    rfl
  exact Fin.ext hchar

end CodePoint

namespace Text

/-- The text of a string. -/
def ofString (s : String) : Text := s.toList.map CodePoint.ofChar

/-- The string of a text, for text that is known to hold no surrogate. -/
def toString (t : Text) : String := String.ofList (t.map CodePoint.toChar)

theorem ofString_inj {s t : String} (h : ofString s = ofString t) : s = t :=
  String.toList_inj.1 (List.map_inj_right (fun _ _ => CodePoint.ofChar_inj) |>.1 h)

theorem toString_ofString (s : String) : toString (ofString s) = s := by
  simp [toString, ofString, Function.comp_def, CodePoint.toChar_ofChar]

/-- Text that becomes ASCII is what it becomes: the character that stands for surrogates is none of
ASCII. -/
theorem ofString_toString {t : Text} (h : ∀ c ∈ (toString t).toList, c.toNat < 128) :
    ofString (toString t) = t := by
  have hlist : (toString t).toList = t.map CodePoint.toChar := String.toList_ofList
  rw [hlist] at h
  have hsame : ∀ c ∈ t, (CodePoint.ofChar ∘ CodePoint.toChar) c = id c := by
    intro c hc
    refine CodePoint.ofChar_toChar (Bool.eq_false_iff.2 fun hsurrogate => ?_)
    have hascii := h _ (List.mem_map_of_mem hc)
    rw [CodePoint.toChar, hsurrogate, if_pos rfl] at hascii
    exact absurd hascii (by decide)
  rw [ofString, hlist, List.map_map, List.map_congr_left hsame, List.map_id]

end Text

end ImageTransfer
