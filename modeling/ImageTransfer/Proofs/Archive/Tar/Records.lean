import ImageTransfer.Proofs.Archive.Tar.Header
import ImageTransfer.Proofs.Text.Utf8
import Mathlib.Algebra.Group.Nat.Defs

/-!
# Records are read back

A record begins with its own length, whose digits count too, so the length has to solve an equation
(`recordLength_eq`): with its digits the length grows past a power of ten at most once. A reader then
cuts a record off by its length, and finds the keyword before the first equals sign.
-/

namespace ImageTransfer.Archive.Tar

/-! ## Text in ASCII -/

/-- In ASCII a character is one byte. -/
theorem utf8Bytes_ofChar {c : Char} (h : c.toNat < 0x80) :
    Text.utf8Bytes (CodePoint.ofChar c) = [UInt8.ofNat c.toNat] := by
  rw [Text.utf8Bytes]
  exact if_pos h

/-- **Text in ASCII is the same in UTF-8.** -/
theorem asciiBytes_eq {s : String} (h : ∀ c ∈ s.toList, c.toNat < 0x80) :
    asciiBytes s = Text.utf8OfString s := by
  rw [asciiBytes, Text.utf8OfString, Text.ofString]
  generalize s.toList = cs at h
  induction cs with
  | nil => rfl
  | cons c cs ih =>
      have hc : c.toNat < 0x80 := h c List.mem_cons_self
      rw [List.map_cons, List.map_cons, List.flatMap_cons, utf8Bytes_ofChar hc, if_pos hc,
        ih fun d hd => h d (List.mem_cons_of_mem _ hd), List.singleton_append]

theorem textOf?_utf8OfString (s : String) : textOf? (Text.utf8OfString s) = some s := by
  rw [textOf?, Text.utf8OfString, Text.decodeUtf8_flatMap]
  exact congrArg some (Text.toString_ofString s)

/-! ## Decimal digits -/

theorem toNat_of_mem_toDigits {n : Nat} {c : Char} (h : c ∈ Nat.toDigits 10 n) :
    0x30 ≤ c.toNat ∧ c.toNat ≤ 0x39 := by
  have hd := Nat.isDigit_of_mem_toDigits (by decide) (by decide) h
  rw [Char.isDigit, Bool.and_eq_true, decide_eq_true_eq, decide_eq_true_eq] at hd
  exact hd

theorem decimalDigits_eq (n : Nat) :
    decimalDigits n = (Nat.toDigits 10 n).map fun c => UInt8.ofNat c.toNat := by
  rw [decimalDigits, asciiBytes, String.toList_ofList]
  refine List.map_congr_left fun c hc => if_pos ?_
  have := toNat_of_mem_toDigits hc
  omega

theorem length_decimalDigits (n : Nat) :
    (decimalDigits n).length = (Nat.toDigits 10 n).length := by
  rw [decimalDigits_eq, List.length_map]

theorem isDecimal_of_mem {n : Nat} {b : UInt8} (h : b ∈ decimalDigits n) :
    (0x30 ≤ b && b ≤ 0x39) = true := by
  rw [decimalDigits_eq, List.mem_map] at h
  obtain ⟨c, hc, rfl⟩ := h
  obtain ⟨hlow, hhigh⟩ := toNat_of_mem_toDigits hc
  have hn : (UInt8.ofNat c.toNat).toNat = c.toNat := Text.toNat_ofNat_of_lt (by omega)
  rw [Bool.and_eq_true, decide_eq_true_eq, decide_eq_true_eq, UInt8.le_iff_toNat_le,
    UInt8.le_iff_toNat_le, hn]
  exact ⟨hlow, hhigh⟩

/-- The number that decimal digits denote, as readers of records count it. -/
def decimalValue (digits : List UInt8) : Nat :=
  digits.foldl (fun n b => 10 * n + (b.toNat - 0x30)) 0

theorem decimalValue_decimalDigits (n : Nat) : decimalValue (decimalDigits n) = n := by
  have hdigits : ∀ (cs : List Char) (m : Nat), (∀ c ∈ cs, 0x30 ≤ c.toNat ∧ c.toNat ≤ 0x39) →
      (cs.map fun c => UInt8.ofNat c.toNat).foldl (fun n b => 10 * n + (b.toNat - 0x30)) m =
        Nat.ofDigitChars 10 cs m := by
    intro cs
    induction cs with
    | nil => exact fun m _ => Nat.ofDigitChars_nil.symm
    | cons c cs ih =>
        intro m hc
        have hb := hc c List.mem_cons_self
        rw [List.map_cons, List.foldl_cons, Text.toNat_ofNat_of_lt (by omega),
          ih _ fun d hd => hc d (List.mem_cons_of_mem _ hd)]
        exact Nat.ofDigitChars_cons.symm
  rw [decimalValue, decimalDigits_eq, hdigits _ _ fun c hc => toNat_of_mem_toDigits hc]
  exact Nat.ofDigitChars_ten_toDigits

/-- How many digits a number has is told by the powers of ten around it. -/
theorem length_decimalDigits_le_iff {n k : Nat} (hk : 0 < k) :
    (decimalDigits n).length ≤ k ↔ n < 10 ^ k := by
  rw [length_decimalDigits]
  exact Nat.length_toDigits_le_iff (by decide) hk

theorem length_decimalDigits_pos (n : Nat) : 0 < (decimalDigits n).length := by
  rw [length_decimalDigits]
  exact Nat.length_toDigits_pos

theorem length_decimalDigits_mono {m n : Nat} (h : m ≤ n) :
    (decimalDigits m).length ≤ (decimalDigits n).length := by
  rw [length_decimalDigits_le_iff (length_decimalDigits_pos n)]
  have := (length_decimalDigits_le_iff (length_decimalDigits_pos n)).1 (Nat.le_refl _)
  omega

/-! ## Records -/

/-- **The length of a record counts its own digits.** -/
theorem recordLength_eq (n : Nat) :
    recordLength n = n + (decimalDigits (recordLength n)).length := by
  -- `a` may have one digit more than `n`, and what is added to `a` then is too little for another
  have hpos := length_decimalDigits_pos n
  have hn : n < 10 ^ (decimalDigits n).length := (length_decimalDigits_le_iff hpos).1 (Nat.le_refl _)
  unfold recordLength
  dsimp only
  generalize hk : (decimalDigits n).length = k at *
  have hge := length_decimalDigits_mono (m := n) (n := n + k) (Nat.le_add_right _ _)
  have hsmall : k < 10 ^ k := Nat.lt_pow_self (by decide)
  have hnext : 10 ^ (k + 1) = 10 * 10 ^ k := by rw [Nat.pow_succ, Nat.mul_comm]
  have hle : (decimalDigits (n + k)).length ≤ k + 1 := by
    rw [length_decimalDigits_le_iff (Nat.succ_pos k)]
    omega
  rw [hk] at hge
  rcases Nat.lt_or_ge (decimalDigits (n + k)).length (k + 1) with hlt | hgt
  · have hsame : (decimalDigits (n + k)).length = k := by omega
    rw [hsame, hsame]
  · have hsucc : (decimalDigits (n + k)).length = k + 1 := by omega
    have hagain : (decimalDigits (n + (k + 1))).length = k + 1 := by
      have hmono := length_decimalDigits_mono (m := n + k) (n := n + (k + 1)) (by omega)
      have : (decimalDigits (n + (k + 1))).length ≤ k + 1 := by
        rw [length_decimalDigits_le_iff (Nat.succ_pos k)]
        omega
      omega
    rw [hsucc, hagain]

/-- A record without its length. -/
def recordContent (r : Record) : List UInt8 :=
  0x20 :: Text.utf8OfString r.1 ++ 0x3D :: Text.utf8OfString r.2 ++ [0x0A]

theorem recordBytes_eq (r : Record) :
    recordBytes r = decimalDigits (recordLength (recordContent r).length) ++ recordContent r := rfl

theorem length_recordBytes (r : Record) :
    (recordBytes r).length = recordLength (recordContent r).length := by
  rw [recordBytes_eq, List.length_append, Nat.add_comm, ← recordLength_eq]

theorem length_recordBytes_pos (r : Record) : 0 < (recordBytes r).length := by
  rw [length_recordBytes, recordLength_eq]
  have := length_decimalDigits_pos (recordLength (recordContent r).length)
  omega

/-- Records have enough bytes to count them by. -/
theorem length_le_flatMap_recordBytes (records : List Record) :
    records.length ≤ (records.flatMap recordBytes).length := by
  induction records with
  | nil => exact Nat.le_refl 0
  | cons r records ih =>
      have := length_recordBytes_pos r
      rw [List.flatMap_cons, List.length_append, List.length_cons]
      omega

theorem length_utf8OfString_le (s : String) : (Text.utf8OfString s).length ≤ 4 * s.length := by
  have hbytes : ∀ c : CodePoint, (Text.utf8Bytes c).length ≤ 4 := by
    intro c
    unfold Text.utf8Bytes
    dsimp only
    repeat' split
    all_goals simp
  have htext : ∀ t : Text, (t.flatMap Text.utf8Bytes).length ≤ 4 * t.length := by
    intro t
    induction t with
    | nil => exact Nat.le_refl 0
    | cons c t ih =>
        have := hbytes c
        rw [List.flatMap_cons, List.length_append, List.length_cons]
        omega
  have := htext (Text.ofString s)
  rwa [Text.ofString, List.length_map, String.length_toList] at this

/-- A record is not much longer than its keyword and its value. -/
theorem length_recordBytes_le (r : Record) :
    (recordBytes r).length ≤ 12 * (r.1.length + r.2.length) + 12 := by
  have hdigits : ∀ n, (decimalDigits n).length ≤ n + 1 := by
    intro n
    rw [length_decimalDigits_le_iff (Nat.succ_pos n)]
    exact Nat.lt_trans (Nat.lt_succ_self n) (Nat.lt_pow_self (by decide))
  have hcontent : (recordContent r).length ≤ 4 * (r.1.length + r.2.length) + 3 := by
    have hkeyword := length_utf8OfString_le r.1
    have hvalue := length_utf8OfString_le r.2
    simp only [recordContent, List.length_append, List.length_cons, List.length_nil]
    omega
  -- the length is found in two steps, each of which adds no more digits than the number is large
  have honce := hdigits (recordContent r).length
  have htwice := hdigits ((recordContent r).length + (decimalDigits (recordContent r).length).length)
  rw [length_recordBytes, recordLength]
  omega

/-- The parts of a record are found in what follows its length. -/
theorem recordContent_parts {r : Record} (hk : 0x3D ∉ Text.utf8OfString r.1) :
    ((recordContent r).drop 1).takeWhile (· ≠ 0x3D) = Text.utf8OfString r.1 ∧
      ((((recordContent r).drop 1).dropWhile (· ≠ 0x3D)).drop 1).dropLast =
        Text.utf8OfString r.2 := by
  have hdrop : (recordContent r).drop 1 =
      Text.utf8OfString r.1 ++ 0x3D :: (Text.utf8OfString r.2 ++ [0x0A]) := by
    simp [recordContent]
  have hp : ∀ b ∈ Text.utf8OfString r.1, decide (b ≠ 0x3D) = true := by
    intro b hb
    exact decide_eq_true fun h => hk (h ▸ hb)
  rw [hdrop]
  refine ⟨takeWhile_append_cons _ hp (by decide), ?_⟩
  rw [List.dropWhile_append_of_pos hp, List.dropWhile_cons_of_neg (by decide), List.drop_one,
    List.tail_cons, List.dropLast_concat]

/-- The first record is cut off by its length. -/
theorem readRecords?_append {r : Record} (hk : 0x3D ∉ Text.utf8OfString r.1) (fuel : Nat)
    (rest : List UInt8) :
    readRecords? (fuel + 1) (recordBytes r ++ rest) = (readRecords? fuel rest).map (r :: ·) := by
  obtain ⟨b, tail, hb⟩ : ∃ b tail, recordBytes r ++ rest = b :: tail := by
    refine List.exists_cons_of_length_pos ?_
    rw [List.length_append]
    exact Nat.lt_of_lt_of_le (length_recordBytes_pos r) (Nat.le_add_right _ _)
  have hdigits : (recordBytes r ++ rest).takeWhile (fun b => 0x30 ≤ b && b ≤ 0x39) =
      decimalDigits (recordLength (recordContent r).length) := by
    rw [recordBytes_eq, List.append_assoc]
    exact takeWhile_append_cons _ (fun _ => isDecimal_of_mem) (by decide)
  have hlength : decimalValue (decimalDigits (recordLength (recordContent r).length)) =
      (recordBytes r).length := by
    rw [decimalValue_decimalDigits, length_recordBytes]
  have hcontent : (recordBytes r).drop
      ((decimalDigits (recordLength (recordContent r).length)).length + 1) =
        (recordContent r).drop 1 := by
    rw [recordBytes_eq, List.drop_length_add_append]
  obtain ⟨hkeyword, hvalue⟩ := recordContent_parts hk
  -- the equation of the reader is for a list that is not empty
  rw [hb, readRecords?, ← hb]
  · rw [decimalValue] at hlength
    rw [hdigits, hlength, List.take_left, List.drop_left, hcontent, hkeyword, hvalue,
      textOf?_utf8OfString, textOf?_utf8OfString]
    cases readRecords? fuel rest <;> rfl
  · exact nofun

/-- **Records are read back**, if no keyword has an equals sign. -/
theorem readRecords?_flatMap {records : List Record}
    (hk : ∀ r ∈ records, 0x3D ∉ Text.utf8OfString r.1) {fuel : Nat} (hf : records.length ≤ fuel) :
    readRecords? fuel (records.flatMap recordBytes) = some records := by
  induction records generalizing fuel with
  | nil => rw [List.flatMap_nil, readRecords?]
  | cons r records ih =>
      cases fuel with
      | zero => exact absurd hf (Nat.not_succ_le_zero _)
      | succ fuel =>
          rw [List.flatMap_cons, readRecords?_append (hk r List.mem_cons_self),
            ih (fun q hq => hk q (List.mem_cons_of_mem _ hq)) (Nat.le_of_succ_le_succ hf)]
          rfl

end ImageTransfer.Archive.Tar
