import ImageTransfer.Proofs.Reference.Grammar
import ImageTransfer.Proofs.Registry.UploadSteps
import ImageTransfer.Transfer.Pull

/-!
# What blobs are asked for by

Digests come from manifests that nobody vouches for, and from callers, and they become part of
addresses as they are. What keeps anything else out of these addresses is the check of a digest, so it
matters which values pass it: a text that is a digest from its first character to its last, or, since
the check goes up to the end of a line, such a text and a line break (`blobs_addressed`).

Whatever does not pass is refused before anything is sent.
-/

namespace ImageTransfer

open Json Reference

/-! ## Digests -/

section

variable {digest : String} {v : Value} {d : Descriptor}

theorem Reference.isAddress_iff_orLine :
    Digest.isAddress digest = true ↔ OrLine IsDigest digest.toList := by
  rw [← String.ofList_toList (s := digest), isAddress_iff, String.toList_ofList]
  constructor
  · rintro ⟨algorithm, hash, hchars, halgorithm, hhash | ⟨line, rfl, hline⟩⟩
    · exact .inl ⟨algorithm, hash, hchars, halgorithm, hhash⟩
    · refine .inr ⟨algorithm ++ ':' :: line, ?_, algorithm, line, rfl, halgorithm, hline⟩
      rw [hchars, List.append_assoc]
      rfl
  · rintro (⟨algorithm, hash, hchars, halgorithm, hhash⟩ |
      ⟨_, hchars, algorithm, hash, rfl, halgorithm, hhash⟩)
    · exact ⟨algorithm, hash, hchars, halgorithm, .inl hhash⟩
    · refine ⟨algorithm, hash ++ ['\n'], ?_, halgorithm, .inr ⟨hash, rfl, hhash⟩⟩
      rw [hchars, List.append_assoc]
      rfl

theorem Digest.isHashDigit_ascii {c : Char} (h : isHashDigit c = true) : c.toNat < 128 := by
  have hlast : c ≤ 'f' := by
    rw [isHashDigit, Bool.or_eq_true, Bool.and_eq_true, Bool.and_eq_true, decide_eq_true_eq,
      decide_eq_true_eq, decide_eq_true_eq, decide_eq_true_eq] at h
    rcases h with ⟨-, h⟩ | ⟨-, h⟩
    · exact Char.le_trans h (by decide)
    · exact h
  exact Nat.lt_of_le_of_lt (show c.toNat ≤ 'f'.toNat from hlast) (by decide)

/-- A digest is written in ASCII. -/
theorem Reference.IsDigest.ascii {cs : List Char} (h : IsDigest cs) : ∀ c ∈ cs, c.toNat < 128 := by
  obtain ⟨algorithm, hash, rfl, halgorithm, -, hhash⟩ := h
  have hnames : (digestAlgorithms.flatten.all fun c => c.toNat < 128) = true := by decide
  refine List.forall_mem_append.2 ⟨fun c hc => ?_, List.forall_mem_cons.2 ⟨by decide, ?_⟩⟩
  · exact of_decide_eq_true (List.all_eq_true.1 hnames c (List.mem_flatten_of_mem halgorithm hc))
  · exact fun c hc => Digest.isHashDigit_ascii (hhash c hc)

theorem Reference.IsDigest.not_mem_newline {cs : List Char} (h : IsDigest cs) : '\n' ∉ cs := by
  obtain ⟨algorithm, hash, rfl, halgorithm, hhash⟩ := h
  have hnames : ∀ name ∈ digestAlgorithms, '\n' ∉ name := by decide
  rw [List.mem_append, List.mem_cons, not_or, not_or]
  exact ⟨hnames _ halgorithm, by decide, hhash.not_mem_newline⟩

/-- **Which values are addresses**: text that is a digest, or one and a line break. -/
theorem Json.Value.isAddress_iff :
    v.isAddress = true ↔ ∃ digest, v = .ofString digest ∧ OrLine IsDigest digest.toList := by
  constructor
  · intro h
    cases v with
    | text t =>
        have hdigest : OrLine IsDigest t.toString.toList := isAddress_iff_orLine.1 h
        have hascii : ∀ c ∈ t.toString.toList, c.toNat < 128 := by
          rcases hdigest with hdigest | ⟨line, hline, hdigest⟩
          · exact hdigest.ascii
          · rw [hline]
            exact List.forall_mem_append.2 ⟨hdigest.ascii, List.forall_mem_singleton.2 (by decide)⟩
        exact ⟨t.toString, congrArg Value.text (Text.ofString_toString hascii).symm, hdigest⟩
    | _ => cases h
  · rintro ⟨digest, rfl, hdigest⟩
    show Digest.isAddress (Text.ofString digest).toString = true
    rw [Text.toString_ofString]
    exact isAddress_iff_orLine.2 hdigest

/-- The digest of a descriptor is the one that its value has. -/
theorem Descriptor.digest_of_ofValue (h : Descriptor.ofValue v = .ok d) :
    v.get? "digest" = some (.ofString d.digest) ∧ OrLine IsDigest d.digest.toList := by
  obtain ⟨given, hfound, hdigest, haddress⟩ := Descriptor.ofValue_ok h
  have hvalue : (Value.text given).isAddress = true := by
    rw [← hdigest] at haddress
    exact haddress
  obtain ⟨digest, htext, hline⟩ := Json.Value.isAddress_iff.1 hvalue
  have hsame : d.digest = digest := by
    rw [← hdigest, Value.text.inj htext, Text.toString_ofString]
  exact ⟨by rw [hfound, htext, hsame], hsame ▸ hline⟩

end

/-! ## Requests -/

namespace Transfer

open Exchange Registry

/-- **What passes for a digest, and where that matters.** A value is an address exactly if it is text
that is a digest, or a digest and a line break; so without line breaks it is exactly a digest. A
descriptor keeps the digest that its value has, which is an address; and a digest that is none is
refused before anything is sent, whether the blob is to be got, uploaded or pulled. -/
theorem blobs_addressed (v : Value) (digest : String) (s : Settings) (ref : Reference) (w : World) :
    (v.isAddress = true ↔ ∃ given, v = .ofString given ∧ OrLine IsDigest given.toList) ∧
    ('\n' ∉ digest.toList →
      ((Value.ofString digest).isAddress = true ↔ IsDigest digest.toList)) ∧
    (∀ d, Descriptor.ofValue v = .ok d →
      v.get? "digest" = some (.ofString d.digest) ∧ OrLine IsDigest d.digest.toList) ∧
    (¬ OrLine IsDigest digest.toList →
      (∀ (α : Type) (accept : List String) (use : Response → Exchange α),
        withBlob s ref digest accept use w = refused digest w) ∧
      (∀ (listens : Bool) (supply : Supply),
        supply.upload s ref digest listens w = refused digest w) ∧
      ∀ policy : Option IntegrityPolicy, pullBlob s policy ref digest w = refused digest w) := by
  refine ⟨Json.Value.isAddress_iff, fun hline => ?_, fun d h => Descriptor.digest_of_ofValue h,
    fun h => ?_⟩
  · rw [Json.Value.isAddress_iff]
    constructor
    · rintro ⟨given, hsame, hgiven⟩
      cases Text.ofString_inj (Value.text.inj hsame)
      exact hgiven.of_not_mem hline
    · exact fun h => ⟨digest, rfl, .inl h⟩
  · have hd : Digest.isAddress digest = false := Bool.eq_false_iff.2 (mt isAddress_iff_orLine.1 h)
    exact ⟨fun α accept use => checkAddress_refused hd _ w,
      fun listens supply => upload_refused hd s ref listens supply w,
      fun policy => checkAddress_refused hd _ w⟩

/-- A digest and a line break pass for a digest, and are asked for as they are. -/
theorem blobs_addressedByLine :
    (Value.ofString "sha256:00\n").isAddress = true ∧ ¬ IsDigest "sha256:00\n".toList ∧
    (World.start [] ⟨.client, ""⟩ .unlimited Nat.repr).requestsSince
      (readBlob ⟨60, 2, 2, [], .warn, by decide, by decide, by decide⟩
        ⟨"r.io", "a/b", some "v1", none⟩ "sha256:00\n" []
        (World.start [] ⟨.client, ""⟩ .unlimited Nat.repr)).2 =
      [⟨.get, "https://r.io/v2/a/b/blobs/sha256:00\n", [], none⟩] := by
  have haddress : (Value.ofString "sha256:00\n").isAddress = true := by decide +kernel
  refine ⟨haddress, fun h => h.not_mem_newline (by decide), ?_⟩
  have hurl : blobUrl ⟨60, 2, 2, [], .warn, by decide, by decide, by decide⟩
      ⟨"r.io", "a/b", some "v1", none⟩ "sha256:00\n" = "https://r.io/v2/a/b/blobs/sha256:00\n" := by
    decide +kernel
  rw [← hurl]
  generalize hrun : readBlob _ _ _ _ (World.start _ _ _ _) = run
  obtain ⟨r, w'⟩ := run
  rcases readBlob_outcome hrun with ⟨hnot, -, -⟩ | ⟨-, a, ht, -, -⟩
  · exact absurd hnot (by decide +kernel)
  · exact ht.requestsSince_eq

end Transfer

end ImageTransfer
