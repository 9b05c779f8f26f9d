import ImageTransfer.Proofs.Text.Split
import ImageTransfer.Registry.Url

/-!
# Values in queries

A value that is put into a query is spelled out byte by byte, and what is spelled out can be read back
(`percentDecode_encodeValue`). Nothing of it is taken for the end of a query or of a parameter
(`mem_encodeValue`). Blanks are left aside: they become pluses, which stand for themselves elsewhere.
-/

namespace ImageTransfer.Url

/-- The value of a hexadecimal digit. -/
def hexValue? (c : Char) : Option Nat :=
  if InternetAddress.isDigit c then some (c.toNat - 0x30)
  else if 'A' ≤ c ∧ c ≤ 'F' then some (c.toNat - 0x37)
  else if 'a' ≤ c ∧ c ≤ 'f' then some (c.toNat - 0x57)
  else none

/-- The bytes of a text in which bytes may be spelled out by a percent sign and two digits. There are
none if something else follows a percent sign. -/
def percentDecode : List Char → Option (List UInt8)
  | [] => some []
  | '%' :: high :: low :: rest =>
    match hexValue? high, hexValue? low, percentDecode rest with
    | some h, some l, some bytes => some (UInt8.ofNat (16 * h + l) :: bytes)
    | _, _, _ => none
  | c :: rest =>
    if c = '%' then none
    else (percentDecode rest).map (Text.utf8Bytes (.ofChar c) ++ ·)

theorem percentDecode_cons {c : Char} (h : c ≠ '%') (rest : List Char) :
    percentDecode (c :: rest) = (percentDecode rest).map (Text.utf8Bytes (.ofChar c) ++ ·) := by
  rw [percentDecode]
  · exact if_neg h
  · rintro _ _ _ rfl
    exact absurd rfl h

theorem hexValue?_capitalHexDigit : ∀ n : Fin 16, hexValue? (capitalHexDigit n.val) = some n.val := by
  decide

/-- What can be computed of every byte holds of every byte. -/
theorem forall_byte {p : UInt8 → Bool} (h : (List.range 256).all (fun n => p (UInt8.ofNat n)) = true)
    (b : UInt8) : p b = true := by
  have hb := List.all_eq_true.1 h b.toNat (List.mem_range.2 b.toNat_lt)
  rwa [UInt8.ofNat_toNat] at hb

/-- A byte that stands for itself is a character of its own. -/
theorem isUnreserved_spec {b : UInt8} (h : isUnreserved b = true) :
    Char.ofNat b.toNat ≠ '%' ∧ Text.utf8Bytes (.ofChar (Char.ofNat b.toNat)) = [b] := by
  have hb := forall_byte (p := fun b => !isUnreserved b || Char.ofNat b.toNat != '%' &&
    Text.utf8Bytes (.ofChar (Char.ofNat b.toNat)) == [b]) (by decide +kernel) b
  simpa [h] using hb

/-- **A byte that is spelled out is read back.** -/
theorem percentDecode_encodeByte {b : UInt8} (hb : b ≠ 0x20) (rest : List Char) :
    percentDecode (encodeByte b ++ rest) = (percentDecode rest).map (b :: ·) := by
  rw [encodeByte]
  by_cases hunreserved : isUnreserved b = true
  · obtain ⟨hpercent, hbytes⟩ := isUnreserved_spec hunreserved
    rw [if_pos hunreserved, List.singleton_append, percentDecode_cons hpercent, hbytes]
    rfl
  · have hlt : b.toNat < 256 := b.toNat_lt
    have hhigh := hexValue?_capitalHexDigit ⟨b.toNat / 16, by omega⟩
    have hlow := hexValue?_capitalHexDigit ⟨b.toNat % 16, by omega⟩
    have hbyte : UInt8.ofNat (16 * (b.toNat / 16) + b.toNat % 16) = b := by
      rw [Nat.div_add_mod, UInt8.ofNat_toNat]
    rw [if_neg hunreserved, if_neg (by simpa using hb)]
    show percentDecode ('%' :: capitalHexDigit (b.toNat / 16) :: capitalHexDigit (b.toNat % 16) :: rest) = _
    rw [percentDecode, hhigh, hlow]
    cases percentDecode rest with
    | none => rfl
    | some bytes => simp only [hbyte, Option.map_some]

theorem percentDecode_flatMap {bytes : List UInt8} (h : ∀ b ∈ bytes, b ≠ 0x20) :
    percentDecode (bytes.flatMap encodeByte) = some bytes := by
  induction bytes with
  | nil => rfl
  | cons b bytes ih =>
      rw [List.flatMap_cons, percentDecode_encodeByte (h b List.mem_cons_self),
        ih fun b hb => h b (List.mem_cons_of_mem _ hb)]
      rfl

/-- Only a blank has the byte of a blank. -/
theorem blank_not_mem_utf8Bytes {c : CodePoint} (h : c.val ≠ 0x20) : 0x20 ∉ Text.utf8Bytes c := by
  have hc := c.isLt
  have hbyte {n : Nat} (hlt : n < 256) (hne : n ≠ 0x20) : (0x20 : UInt8) ≠ UInt8.ofNat n := by
    intro heq
    have := congrArg UInt8.toNat heq
    rw [UInt8.toNat_ofNat_of_lt' hlt] at this
    exact hne this.symm
  rw [Text.utf8Bytes]
  split
  · simpa only [List.mem_singleton] using hbyte (by omega) h
  split
  · simp only [List.mem_cons, List.not_mem_nil, or_false, not_or]
    exact ⟨hbyte (by omega) (by omega), hbyte (by omega) (by omega)⟩
  split
  · simp only [List.mem_cons, List.not_mem_nil, or_false, not_or]
    exact ⟨hbyte (by omega) (by omega), hbyte (by omega) (by omega), hbyte (by omega) (by omega)⟩
  · simp only [List.mem_cons, List.not_mem_nil, or_false, not_or]
    exact ⟨hbyte (by omega) (by omega), hbyte (by omega) (by omega), hbyte (by omega) (by omega),
      hbyte (by omega) (by omega)⟩

/-- **A value without blanks is read back.** -/
theorem percentDecode_encodeValue {s : String} (h : ' ' ∉ s.toList) :
    percentDecode (encodeValue s).toList = some (Text.utf8OfString s) := by
  rw [encodeValue, String.toList_ofList]
  refine percentDecode_flatMap fun b hb hblank => ?_
  rw [Text.utf8OfString] at hb
  obtain ⟨point, hpoint, hb⟩ := List.mem_flatMap.1 hb
  obtain ⟨c, hc, rfl⟩ := List.mem_map.1 hpoint
  refine blank_not_mem_utf8Bytes (fun hval => h ?_) (hblank ▸ hb)
  have hspace : c = ' ' := Char.toNat_inj.1 hval
  exact hspace ▸ hc

/-- What is in a value is visible, and neither the end of a query nor that of a parameter. -/
theorem mem_encodeValue {s : String} {c : Char} (h : c ∈ (encodeValue s).toList) :
    0x20 < c.toNat ∧ c ≠ '#' ∧ c ≠ '&' := by
  rw [encodeValue, String.toList_ofList] at h
  obtain ⟨b, _, hc⟩ := List.mem_flatMap.1 h
  have hb := forall_byte (p := fun b => (encodeByte b).all fun c => 0x20 < c.toNat && c != '#' && c != '&')
    (by decide +kernel) b
  simpa [and_assoc] using List.all_eq_true.1 hb c hc

end ImageTransfer.Url
