import ImageTransfer.Archive.Tar.Reader

/-!
# Headers are read back

A header is one block of fields that have fixed widths. So each field is found where the fields
before it end (`fieldAt_flatten`), and a header is read back if each kind of field is: text up to its
first zero byte, numbers in octal digits. The sum needs no more than its six digits, since a block
has few bytes.
-/

namespace ImageTransfer.Archive.Tar

/-! ## Fields -/

theorem takeWhile_append_cons {α : Type} {p : α → Bool} {xs : List α} {y : α} (ys : List α)
    (hx : ∀ x ∈ xs, p x = true) (hy : p y = false) :
    (xs ++ y :: ys).takeWhile p = xs := by
  rw [List.takeWhile_append_of_pos hx, List.takeWhile_cons, hy]
  exact List.append_nil xs

/-- Text without zero bytes is read back as far as it fits. -/
theorem readText_textField {width : Nat} {bytes : List UInt8} (h : 0 ∉ bytes) :
    readText (textField width bytes) = bytes.take width := by
  have hp : ∀ b ∈ bytes.take width, decide (b ≠ 0) = true := by
    intro b hb
    exact decide_eq_true fun h0 => h (h0 ▸ List.mem_of_mem_take hb)
  unfold readText textField
  cases width - bytes.length with
  | zero => exact (List.takeWhile_append_of_pos hp).trans (List.append_nil _)
  | succ n => exact takeWhile_append_cons _ hp (by decide)

/-- An octal digit. -/
theorem octalDigit_mem {count n : Nat} {b : UInt8} (h : b ∈ octalDigits count n) :
    ∃ d < 8, b = UInt8.ofNat (0x30 + d) := by
  induction count generalizing n with
  | zero => exact absurd h List.not_mem_nil
  | succ count ih =>
      rw [octalDigits, List.mem_append] at h
      rcases h with h | h
      · exact ih h
      · exact ⟨n % 8, Nat.mod_lt _ (by decide), List.mem_singleton.1 h⟩

theorem isOctal_of_mem {count n : Nat} {b : UInt8} (h : b ∈ octalDigits count n) :
    (0x30 ≤ b && b ≤ 0x37) = true := by
  obtain ⟨d, hd, rfl⟩ := octalDigit_mem h
  have hall : ∀ d : Fin 8, (0x30 ≤ UInt8.ofNat (0x30 + d) && UInt8.ofNat (0x30 + d) ≤ 0x37) = true := by
    decide
  exact hall ⟨d, hd⟩

/-- The value of octal digits, most significant first. -/
def octalValue (digits : List UInt8) : Nat := digits.foldl (fun n b => 8 * n + (b.toNat - 0x30)) 0

theorem octalValue_octalDigits (count n : Nat) :
    octalValue (octalDigits count n) = n % Nat.pow 8 count := by
  induction count generalizing n with
  | zero => exact (Nat.mod_one n).symm
  | succ count ih =>
      have hdigit : (UInt8.ofNat (0x30 + n % 8)).toNat - 0x30 = n % 8 := by
        have hall : ∀ d : Fin 8, (UInt8.ofNat (0x30 + d)).toNat - 0x30 = d := by decide
        exact hall ⟨n % 8, Nat.mod_lt _ (by decide)⟩
      have hpow : Nat.pow 8 (count + 1) = 8 * Nat.pow 8 count := Nat.mul_comm _ _
      have ih := ih (n / 8)
      unfold octalValue at ih ⊢
      rw [octalDigits, List.foldl_append, ih, List.foldl_cons, List.foldl_nil, hdigit, hpow,
        Nat.mod_mul, Nat.add_comm]

theorem readNumber_octalDigits {count n : Nat} {rest : List UInt8} {b : UInt8}
    (h : n < Nat.pow 8 count) (hb : (0x30 ≤ b && b ≤ 0x37) = false) :
    readNumber (octalDigits count n ++ b :: rest) = n := by
  rw [readNumber, takeWhile_append_cons rest (fun _ => isOctal_of_mem) hb]
  exact (octalValue_octalDigits count n).trans (Nat.mod_eq_of_lt h)

/-- A number that fits is read back. -/
theorem readNumber_numberField {width n : Nat} (h : n < Nat.pow 8 (width - 1)) :
    readNumber (numberField width n) = n := readNumber_octalDigits h (by decide)

theorem ofByte?_byte (k : Kind) : Kind.ofByte? k.byte = some k := by cases k <;> decide

/-! ## Blocks -/

@[simp] theorem length_numberField (width n : Nat) : (numberField width n).length = width - 1 + 1 := by
  simp [numberField]

/-- A field stands where the fields before it end. -/
theorem fieldAt_flatten {fields : List (List UInt8)} {k offset width : Nat} {field : List UInt8}
    (hk : fields[k]? = some field) (ho : offset = (fields.take k).flatten.length)
    (hw : width = field.length) : fieldAt fields.flatten offset width = field := by
  obtain ⟨hlt, hfield⟩ := List.getElem?_eq_some_iff.1 hk
  have hsplit : fields.flatten = (fields.take k).flatten ++ (field ++ (fields.drop (k + 1)).flatten) := by
    rw [← hfield, ← List.flatten_cons, ← List.flatten_append, List.getElem_cons_drop,
      List.take_append_drop]
  rw [fieldAt, ho, hw, hsplit, List.drop_left, List.take_left]

namespace Header

/-- What a header holds that is longer than a field, cut to its width. -/
def cut (h : Header) : Header :=
  { h with
    name := h.name.take nameWidth
    ownerName := h.ownerName.take ownerNameWidth
    groupName := h.groupName.take ownerNameWidth }

/-- A header of which all fields can be read back: the text has no zero bytes, and the numbers
fit. -/
structure Legible (h : Header) : Prop where
  name : 0 ∉ h.name
  mode : h.mode < Nat.pow 8 (numberWidth - 1)
  owner : h.owner < Nat.pow 8 (numberWidth - 1)
  group : h.group < Nat.pow 8 (numberWidth - 1)
  size : h.size < numberLimit
  modified : h.modified < numberLimit
  ownerName : 0 ∉ h.ownerName
  groupName : 0 ∉ h.groupName

/-- The fields of a header with this sum, one after the other. -/
def fields (h : Header) (sum : Nat) : List (List UInt8) :=
  [textField nameWidth h.name, numberField numberWidth h.mode, numberField numberWidth h.owner,
    numberField numberWidth h.group, numberField longNumberWidth h.size,
    numberField longNumberWidth h.modified, sumField sum, [h.kind.byte], textField nameWidth [],
    format, textField ownerNameWidth h.ownerName, textField ownerNameWidth h.groupName,
    textField 183 []]

theorem block_eq (h : Header) :
    h.block = (h.fields (sumOf h.fieldsBeforeSum h.fieldsAfterSum)).flatten := by
  simp only [block, fieldsBeforeSum, fieldsAfterSum, fields, List.flatten_cons, List.flatten_nil,
    List.append_assoc, List.append_nil]

theorem length_fieldsBeforeSum (h : Header) : h.fieldsBeforeSum.length = 148 := by
  simp [fieldsBeforeSum, nameWidth, numberWidth, longNumberWidth]

theorem length_fieldsAfterSum (h : Header) : h.fieldsAfterSum.length = 356 := by
  simp [fieldsAfterSum, nameWidth, format, ownerNameWidth]

theorem length_sumField (sum : Nat) : (sumField sum).length = 8 := by simp [sumField]

theorem take_block (h : Header) : h.block.take 148 = h.fieldsBeforeSum := by
  rw [block, List.append_assoc, ← h.length_fieldsBeforeSum, List.take_left]

theorem drop_block (h : Header) : h.block.drop 156 = h.fieldsAfterSum := by
  have hlen : 156 = (h.fieldsBeforeSum ++
      sumField (sumOf h.fieldsBeforeSum h.fieldsAfterSum)).length := by
    rw [List.length_append, length_fieldsBeforeSum, length_sumField]
  rw [block, hlen, List.drop_left]

end Header

theorem sum_le (bytes : List UInt8) (n : Nat) :
    bytes.foldl (fun n b => n + b.toNat) n ≤ n + 255 * bytes.length := by
  induction bytes generalizing n with
  | nil => exact Nat.le_add_right _ _
  | cons b bytes ih =>
      have hb : b.toNat < 256 := b.toNat_lt
      have := ih (n + b.toNat)
      rw [List.foldl_cons, List.length_cons]
      omega

/-- The sum of a block has at most six octal digits. -/
theorem sumOf_lt (h : Header) : sumOf h.fieldsBeforeSum h.fieldsAfterSum < Nat.pow 8 6 := by
  have hbefore := sum_le h.fieldsBeforeSum 0
  have hafter := sum_le h.fieldsAfterSum 0
  rw [h.length_fieldsBeforeSum] at hbefore
  rw [h.length_fieldsAfterSum] at hafter
  have hpow : Nat.pow 8 6 = 262144 := rfl
  unfold sumOf
  omega

namespace Header

variable {h : Header}

/-- Where the fields of a block stand. -/
def offsets : List Nat := [0, 100, 108, 116, 124, 136, 148, 156, 157, 257, 265, 297]

theorem offsets_eq (sum : Nat) :
    offsets = (List.range 12).map fun k => ((h.fields sum).take k).flatten.length := by
  simp [offsets, List.range_succ, fields, nameWidth, numberWidth, longNumberWidth, ownerNameWidth,
    format, length_sumField]

/-- The fields of a block are found where they stand. -/
theorem fieldAt_block {k offset width : Nat} {field : List UInt8}
    (hk : (h.fields (sumOf h.fieldsBeforeSum h.fieldsAfterSum))[k]? = some field)
    (ho : offsets[k]? = some offset) (hw : width = field.length) :
    fieldAt h.block offset width = field := by
  rw [block_eq]
  refine fieldAt_flatten hk ?_ hw
  rw [h.offsets_eq (sumOf h.fieldsBeforeSum h.fieldsAfterSum), List.getElem?_map,
    Option.map_eq_some_iff] at ho
  obtain ⟨j, hj, rfl⟩ := ho
  rw [List.getElem?_eq_some_iff] at hj
  obtain ⟨hlt, rfl⟩ := hj
  rw [List.getElem_range]

theorem readText_block {k offset width : Nat} {bytes : List UInt8}
    (hk : (h.fields (sumOf h.fieldsBeforeSum h.fieldsAfterSum))[k]? = some (textField width bytes))
    (ho : offsets[k]? = some offset) (hbytes : 0 ∉ bytes) :
    readText (fieldAt h.block offset width) = bytes.take width := by
  rw [fieldAt_block hk ho (length_textField width bytes).symm, readText_textField hbytes]

theorem readNumber_block {k offset width n : Nat} (hwidth : 0 < width)
    (hk : (h.fields (sumOf h.fieldsBeforeSum h.fieldsAfterSum))[k]? = some (numberField width n))
    (ho : offsets[k]? = some offset) (hn : n < Nat.pow 8 (width - 1)) :
    readNumber (fieldAt h.block offset width) = n := by
  rw [fieldAt_block hk ho, readNumber_numberField hn]
  rw [length_numberField]
  omega

/-- **A header is read back from its block.** -/
theorem ofBlock?_block (hl : h.Legible) : ofBlock? h.block = some h.cut := by
  have hsum : readNumber (fieldAt h.block 148 8) = sumOf h.fieldsBeforeSum h.fieldsAfterSum := by
    rw [fieldAt_block (k := 6) rfl rfl (length_sumField _).symm]
    exact readNumber_octalDigits (sumOf_lt h) (by decide)
  -- the kind is a byte and no field, and it comes right after the sum
  have hkind : h.block.getD 156 0 = h.kind.byte := by
    have : (h.block.drop 156).getD 0 0 = h.kind.byte := by
      rw [drop_block]
      rfl
    rwa [List.getD_eq_getElem?_getD, List.getElem?_drop] at this
  -- the other fields, by their numbers
  have hname := readText_block (k := 0) rfl rfl hl.name
  have hmode := readNumber_block (k := 1) (by decide) rfl rfl hl.mode
  have howner := readNumber_block (k := 2) (by decide) rfl rfl hl.owner
  have hgroup := readNumber_block (k := 3) (by decide) rfl rfl hl.group
  have hsize := readNumber_block (k := 4) (by decide) rfl rfl hl.size
  have hmodified := readNumber_block (k := 5) (by decide) rfl rfl hl.modified
  have hownerName := readText_block (k := 10) rfl rfl hl.ownerName
  have hgroupName := readText_block (k := 11) rfl rfl hl.groupName
  unfold ofBlock?
  dsimp only
  rw [take_block, drop_block, hsum, if_neg (fun hne => hne rfl), hkind, ofByte?_byte, hname, hmode,
    howner, hgroup, hsize, hmodified, hownerName, hgroupName]
  rfl

end Header

end ImageTransfer.Archive.Tar
