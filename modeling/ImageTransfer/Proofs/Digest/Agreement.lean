import ImageTransfer.Proofs.Digest.Digester
import ImageTransfer.Proofs.Digest.Hashes

/-!
# Digests agree

Content gets its digest in two ways: from all of its bytes, or from a digester that it passes by in
pieces. Then the digest is written as text, and others take the text apart, check it and compare it
with what they have. All of them must mean the same by a digest, or a check of content says nothing
(`digests_agree`).

On the side of the bytes this rests on how a digester keeps the block that is not full yet
(`Absorbed.Holds`), on the side of the text on the size of a hash: one of no bytes would be written
as a digest that nobody takes for one.
-/

namespace ImageTransfer.Digest

/-! ## Pieces -/

/-- To be shown pieces is to be shown what they join to. -/
theorem Digester.foldl_update (d : Digester) (pieces : List (List UInt8)) :
    pieces.foldl update d = d.update pieces.flatten := by
  induction pieces generalizing d with
  | nil => rfl
  | cons piece pieces ih => rw [List.foldl_cons, ih, update_update, List.flatten_cons]

theorem Digester.ofName_name (a : Algorithm) : ofName a.name = .ok (start a) := by
  rw [ofName, algorithmOf, Algorithm.ofName?_name]
  rfl

theorem ofContent_name (a : Algorithm) (bytes : List UInt8) :
    ofContent (.bytes bytes) a.name = .ok (ofBytes a bytes) := by
  rw [ofContent, algorithmOf, Algorithm.ofName?_name]
  rfl

/-! ## Texts -/

theorem Algorithm.name_inj {a b : Algorithm} (h : a.name = b.name) : a = b := by
  have hfound := ofName?_name a
  rw [h, ofName?_name] at hfound
  exact (Option.some.inj hfound).symm

theorem any_addressing_iff (a : Algorithm) :
    Algorithm.addressing.any (·.name.toList == a.name.toList) = true ↔
      a ∈ Algorithm.addressing := by
  rw [List.any_eq_true]
  constructor
  · rintro ⟨b, hb, hname⟩
    rwa [← Algorithm.name_inj (String.toList_inj.1 (eq_of_beq hname))]
  · exact fun ha => ⟨a, ha, beq_self_eq_true _⟩

theorem dropFinalNewline_hexOfBytes (hash : List UInt8) :
    dropFinalNewline (hexOfBytes hash) = hexOfBytes hash := by
  rw [dropFinalNewline, if_neg]
  intro hlast
  exact absurd (isHashDigit_of_mem_hexOfBytes (List.mem_of_getLast? hlast)) (by decide)

/-- **A digest that is written is an address**, if its algorithm may address blobs. -/
theorem isAddress_write (a : Algorithm) {hash : List UInt8} (hpos : 0 < hash.length) :
    isAddress (write a hash) = true ↔ a ∈ Algorithm.addressing := by
  have hne : (hexOfBytes hash).isEmpty = false := by
    rw [List.isEmpty_eq_false_iff, ← List.length_pos_iff, length_hexOfBytes]
    omega
  have hdigits : (hexOfBytes hash).all isHashDigit = true :=
    List.all_eq_true.2 fun c hc => isHashDigit_of_mem_hexOfBytes hc
  unfold isAddress
  rw [splitFirst_write]
  dsimp only
  rw [dropFinalNewline_hexOfBytes, hne, hdigits, Bool.not_false, Bool.and_true, Bool.and_true,
    any_addressing_iff]

theorem Algorithm.hashSize_pos (a : Algorithm) : 0 < a.hashSize := by cases a <;> decide

theorem isAddress_ofBytes (a : Algorithm) (bytes : List UInt8) :
    isAddress (ofBytes a bytes) = true ↔ a ∈ Algorithm.addressing := by
  refine isAddress_write a ?_
  rw [a.length_hash]
  exact a.hashSize_pos

theorem write_eq (a : Algorithm) (hash : List UInt8) :
    write a hash = a.name ++ ":" ++ String.ofList (hexOfBytes hash) := by
  simp only [← String.toList_inj, write, String.toList_append, String.toList_ofList,
    List.append_assoc]
  rfl

/-- To compare bytes with an address is to compare the digest that its algorithm gives them. -/
theorem matchesBytes_of_isAddress {digest : String} (h : isAddress digest = true)
    (bytes : List UInt8) :
    ∃ own, ofContent (.bytes bytes) (algorithmName digest) = .ok own ∧
      matchesBytes bytes digest = .ok (own == digest) := by
  obtain ⟨a, ha⟩ := algorithmOf_of_isAddress h
  refine ⟨ofBytes a bytes, ?_, ?_⟩
  · rw [ofContent, ha]
    rfl
  · rw [matchesBytes, if_pos h, ha]
    rfl

/-- **What a digest is, all agree on.** Whatever pieces content comes in, after each of them a
digester knows how many bytes there were and what their digest is, and it keeps what comes after the
last full block. A digest has the name of its algorithm before the colon, and after it the hash of all
bytes, in the size that the algorithm gives it; and it is an address exactly if the algorithm may
address blobs. Content that is compared with an address matches exactly if the address is the digest
that its algorithm gives the content. -/
theorem digests_agree (a : Algorithm) (pieces : List (List UInt8)) :
    (∃ d, Digester.ofName a.name = .ok d ∧ ∀ count : Nat,
      let seen := (pieces.take count).flatten
      let d' := (pieces.take count).foldl Digester.update d
      d'.size = seen.length ∧ ofContent (.bytes seen) a.name = .ok d'.digest ∧
      d'.absorbed.pending.toList =
        seen.drop (a.hash.blockSize * (seen.length / a.hash.blockSize))) ∧
    (∃ digest hash, ofContent (.bytes pieces.flatten) a.name = .ok digest ∧
      digest = a.name ++ ":" ++ String.ofList (hexOfBytes hash) ∧
      a.hash.IsHashOf pieces.flatten hash ∧ hash.length = a.hashSize ∧
      algorithmName digest = a.name ∧ hashPart digest = .ok (String.ofList (hexOfBytes hash)) ∧
      (isAddress digest = true ↔ a ∈ Algorithm.addressing)) ∧
    (∀ digest, isAddress digest = true → ∃ own answer,
      ofContent (.bytes pieces.flatten) (algorithmName digest) = .ok own ∧
      matchesBytes pieces.flatten digest = .ok answer ∧ (answer = true ↔ digest = own)) := by
  refine ⟨⟨Digester.start a, Digester.ofName_name a, fun count => ?_⟩, ?_, fun digest h => ?_⟩
  · dsimp only
    rw [Digester.foldl_update, ofContent_name, Digester.digest_update, Digester.size_update]
    exact ⟨rfl, rfl, (Digester.holds_update a _).pending_eq⟩
  · exact ⟨_, a.hash.hash pieces.flatten, ofContent_name a _, write_eq a _, a.isHashOf_iff.2 rfl,
      a.length_hash _, algorithmName_write a _, hashPart_write a _, isAddress_ofBytes a _⟩
  · obtain ⟨own, hown, hmatches⟩ := matchesBytes_of_isAddress h pieces.flatten
    exact ⟨own, _, hown, hmatches, beq_iff_eq.trans eq_comm⟩

/-- Three bytes that come in pieces, one of which is empty, and a digest that is known for them. -/
theorem digests_agree_abc :
    isAddress "md5:900150983cd24fb0d6963f7d28e17f72" = true ∧
    (∃ d, Digester.ofName "md5" = .ok d ∧ ([[97], [], [98, 99]].foldl Digester.update d).digest =
      "md5:900150983cd24fb0d6963f7d28e17f72") ∧
    matchesBytes [97, 98, 99] "md5:900150983cd24fb0d6963f7d28e17f72" = .ok true := by
  have haddress : isAddress "md5:900150983cd24fb0d6963f7d28e17f72" = true := by decide +kernel
  have hname : algorithmName "md5:900150983cd24fb0d6963f7d28e17f72" = "md5" := by decide +kernel
  have hdigest : ofBytes .md5 [97, 98, 99] = "md5:900150983cd24fb0d6963f7d28e17f72" := by
    decide +kernel
  have hcontent : ofContent (.bytes [97, 98, 99]) "md5" =
      .ok "md5:900150983cd24fb0d6963f7d28e17f72" := by
    rw [← hdigest]
    exact ofContent_name .md5 [97, 98, 99]
  obtain ⟨⟨d, hd, hseen⟩, -, hmatches⟩ := digests_agree .md5 [[97], [], [98, 99]]
  obtain ⟨own, answer, hown, hanswer, htrue⟩ := hmatches _ haddress
  refine ⟨haddress, ⟨d, hd, ?_⟩, ?_⟩
  · exact Except.ok.inj ((hseen 3).2.1.symm.trans hcontent)
  · rw [hname] at hown
    have hanswer' : answer = true := htrue.2 (Except.ok.inj (hcontent.symm.trans hown))
    rw [hanswer'] at hanswer
    exact hanswer

end ImageTransfer.Digest
