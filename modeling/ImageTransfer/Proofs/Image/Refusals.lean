import ImageTransfer.Failure
import ImageTransfer.Proofs.Json.Legible
import ImageTransfer.Proofs.Json.Limits

/-!
# What comes of JSON that nobody vouches for

Manifests and configurations come from a registry, and whatever it serves should be a manifest or be
refused as one. Two things are left out of that. A text may exceed a limit of the reader, which is
then what the failure is about (`ExceedsLimit`); and the size in a descriptor may be infinite
(`IsBoundless`), a number that is read but that no whole number is the size of. Everything else that
bytes can hold is a value or a refusal of the expected kind (`decoding_failures`).
-/

namespace ImageTransfer

open Json

/-- A document exceeds a limit of the reader, and a failure of this kind says so. -/
inductive ExceedsLimit (bytes : List UInt8) : FailureKind → Prop
  | nesting {t : Text} : decodeDocument bytes = .ok t → nestingLimit < brackets t →
      ExceedsLimit bytes .nesting
  | digits {t : Text} {n : Nat} : decodeDocument bytes = .ok t → Decimal.digitLimit < n →
      HasDigits n t → ExceedsLimit bytes .argument

/-- A descriptor of a blob that has a digest, but whose size is infinite. -/
def IsBoundless (v : Value) : Prop :=
  ∃ t negative, v.get? "digest" = some (.text t) ∧ Digest.isAddress t.toString = true ∧
    v.get? "size" = some (.real (.infinite negative))

/-- The configuration that a manifest names has no size. -/
def Manifest.ConfigIsBoundless (m : Manifest) : Prop :=
  ∃ v, m.get? "config" = some v ∧ IsBoundless v

/-- The manifest lists a layer that has no size, and only descriptors before it. -/
def Manifest.LayerIsBoundless (m : Manifest) : Prop :=
  ∃ before v after, m.get? "layers" = some (.array (before ++ v :: after)) ∧ IsBoundless v ∧
    ∀ w ∈ before, ∃ d, Descriptor.ofValue w = .ok d

/-! ## Documents -/

/-- **A document that cannot be read is malformed or exceeds a limit.** -/
theorem kindOfDocument_cases {bytes : List UInt8} {e : DocumentError} (malformed : FailureKind)
    (h : readDocument bytes = .error e) : Failure.kindOfDocument e malformed = malformed ∨
      ExceedsLimit bytes (Failure.kindOfDocument e malformed) := by
  obtain ⟨hdeep, hmany⟩ := readDocument_explained h
  cases e with
  | encoding e => exact .inl rfl
  | malformed problem position => exact .inl rfl
  | tooManyDigits n =>
      obtain ⟨t, hdecode, hlimit, hdigits⟩ := hmany n rfl
      exact .inr (.digits hdecode hlimit hdigits)
  | tooDeep =>
      obtain ⟨t, hdecode, hlimit⟩ := hdeep rfl
      exact .inr (.nesting hdecode hlimit)

theorem Manifest.kind_of_ofBytes {bytes : List UInt8} {mediaType : String} {e : Manifest.Error}
    (h : Manifest.ofBytes bytes mediaType = .error e) : (Failure.manifest e).kind = .manifest ∨
      ExceedsLimit bytes (Failure.manifest e).kind := by
  unfold ofBytes at h
  split at h
  · rename_i hread
    cases h
    exact kindOfDocument_cases .manifest hread
  · extract_lets member served version at h
    split at h
    · cases h
      exact .inl rfl
    · split at h
      · cases h
        exact .inl rfl
      · cases h
  · cases h
    exact .inl rfl

theorem ImageConfig.kind_of_ofBytes {bytes : List UInt8} {e : ImageConfig.Error}
    (h : ImageConfig.ofBytes bytes = .error e) : (Failure.config e).kind = .config ∨
      ExceedsLimit bytes (Failure.config e).kind := by
  unfold ofBytes at h
  split at h
  · rename_i hread
    cases h
    exact kindOfDocument_cases .config hread
  · cases h
  · cases h
    exact .inl rfl

/-! ## Descriptors -/

/-- Of all values that a size can have only the infinite ones are not refused in words. -/
theorem Descriptor.sizeOf_error {digest : String} {v : Value} {e : Manifest.Error}
    (h : Descriptor.sizeOf digest v = .error e) :
    (∃ size, e = .badSize digest size) ∨
      e = .boundlessSize ∧ ∃ negative, v = .real (.infinite negative) := by
  unfold sizeOf at h
  split at h
  · cases h
  · cases h
  · cases h
  · cases h
    exact .inr ⟨rfl, _, rfl⟩
  · split at h
    · cases h
    · cases h
      exact .inl ⟨_, rfl⟩
  · cases h
    exact .inl ⟨_, rfl⟩

/-- **A value is refused as a descriptor, unless it has no size.** -/
theorem Descriptor.ofValue_error {v : Value} {e : Manifest.Error}
    (h : Descriptor.ofValue v = .error e) :
    (Failure.manifest e).kind = .manifest ∨ e = .boundlessSize ∧ IsBoundless v := by
  unfold ofValue at h
  split at h
  · split at h
    · rename_i t hdigest
      dsimp only at h
      split at h
      · rename_i haddress
        split at h
        · cases h
        · rename_i hsize
          cases h
          obtain ⟨size, rfl⟩ | ⟨rfl, negative, hgiven⟩ := sizeOf_error hsize
          · exact .inl rfl
          · -- the size that stands in for none is a number
            rcases hfound : Value.get? (.object _) "size" with _ | w
            · rw [hfound] at hgiven
              cases hgiven
            · rw [hfound] at hgiven
              exact .inr ⟨rfl, t, negative, hdigest, haddress, hgiven ▸ hfound⟩
      · cases h
        exact .inl rfl
    · cases h
      exact .inl rfl
  · cases h
    exact .inl rfl

theorem Descriptor.ofValue_of_isBoundless {v : Value} (h : IsBoundless v) :
    Descriptor.ofValue v = .error .boundlessSize := by
  obtain ⟨t, negative, hdigest, haddress, hsize⟩ := h
  cases v with
  | object ms =>
      unfold ofValue
      simp only [hdigest, haddress, hsize, if_true, Option.getD_some, sizeOf]
  | _ => cases hdigest

section

variable {α β ε : Type} {f : α → Except ε β} {x : α} {xs : List α} {e : ε}

theorem mapM_cons_eq_error : (x :: xs).mapM f = .error e ↔
    f x = .error e ∨ (∃ b, f x = .ok b) ∧ xs.mapM f = .error e := by
  rw [List.mapM_cons]
  rcases f x with e' | b
  · refine ⟨fun h => .inl ?_, ?_⟩
    · cases h
      rfl
    · rintro (h | ⟨⟨b, h⟩, -⟩)
      · cases h
        rfl
      · cases h
  · rcases xs.mapM f with e' | bs
    · refine ⟨fun h => .inr ⟨⟨b, rfl⟩, ?_⟩, ?_⟩
      · cases h
        rfl
      · rintro (h | ⟨-, h⟩)
        · cases h
        · cases h
          rfl
    · refine iff_of_false (fun h => by cases h) ?_
      rintro (h | ⟨-, h⟩)
      · cases h
      · cases h

/-- The items of a list are gone through up to the first that fails. -/
theorem mapM_eq_error : xs.mapM f = .error e ↔
    ∃ before x after, xs = before ++ x :: after ∧ f x = .error e ∧
      ∀ y ∈ before, ∃ b, f y = .ok b := by
  induction xs with
  | nil =>
      refine iff_of_false (fun h => by cases h) ?_
      rintro ⟨before, x, after, hsplit, -⟩
      exact List.append_ne_nil_of_right_ne_nil before (List.cons_ne_nil x after) hsplit.symm
  | cons x xs ih =>
      rw [mapM_cons_eq_error, ih]
      constructor
      · rintro (hx | ⟨hx, before, y, after, rfl, hy, hbefore⟩)
        · exact ⟨[], x, xs, rfl, hx, fun y hy => absurd hy List.not_mem_nil⟩
        · exact ⟨x :: before, y, after, rfl, hy, List.forall_mem_cons.2 ⟨hx, hbefore⟩⟩
      · rintro ⟨before, y, after, hsplit, hy, hbefore⟩
        cases before with
        | nil =>
            cases hsplit
            exact .inl hy
        | cons first before =>
            cases hsplit
            obtain ⟨hx, hbefore⟩ := List.forall_mem_cons.1 hbefore
            exact .inr ⟨hx, before, y, after, rfl, hy, hbefore⟩

end

namespace Manifest

variable {m : Manifest} {e : Error}

theorem config_error (h : m.config = .error e) :
    (Failure.manifest e).kind = .manifest ∨ e = .boundlessSize ∧ m.ConfigIsBoundless := by
  unfold config at h
  split at h
  · rename_i v hv
    exact (Descriptor.ofValue_error h).imp id fun ⟨he, hb⟩ => ⟨he, v, hv, hb⟩
  · cases h
    exact .inl rfl

theorem layers_error (h : m.layers = .error e) :
    (Failure.manifest e).kind = .manifest ∨ e = .boundlessSize ∧ m.LayerIsBoundless := by
  unfold layers at h
  split at h
  · rename_i vs hvs
    obtain ⟨before, v, after, rfl, hv, hbefore⟩ := mapM_eq_error.1 h
    obtain hkind | ⟨he, hb⟩ := Descriptor.ofValue_error hv
    · exact .inl hkind
    · exact .inr ⟨he, before, v, after, hvs, hb, hbefore⟩
  · cases h
    exact .inl rfl

/-- **The configuration is not refused in words exactly if it has no size.** -/
theorem config_boundless : m.config = .error .boundlessSize ↔ m.ConfigIsBoundless := by
  constructor
  · intro h
    obtain hkind | ⟨-, hb⟩ := config_error h
    · cases hkind
    · exact hb
  · rintro ⟨v, hv, hb⟩
    rw [config, hv]
    exact Descriptor.ofValue_of_isBoundless hb

/-- And so are the layers, exactly if the first that is no descriptor has no size. -/
theorem layers_boundless : m.layers = .error .boundlessSize ↔ m.LayerIsBoundless := by
  constructor
  · intro h
    obtain hkind | ⟨-, hb⟩ := layers_error h
    · cases hkind
    · exact hb
  · rintro ⟨before, v, after, hvs, hb, hbefore⟩
    rw [layers, hvs]
    exact mapM_eq_error.2 ⟨before, v, after, rfl, Descriptor.ofValue_of_isBoundless hb, hbefore⟩

end Manifest

/-- **What can come of JSON that a registry serves.** Bytes are a manifest or are refused as one,
unless a limit of the reader is exceeded; and the descriptors of a manifest are given or refused in
the same way, except for one of infinite size, which fails as a number out of range. Of bytes that
are served as a configuration the same is true. -/
theorem decoding_failures (bytes : List UInt8) (mediaType : String) :
    (∀ e, Manifest.ofBytes bytes mediaType = .error e →
      (Failure.manifest e).kind = .manifest ∨ ExceedsLimit bytes (Failure.manifest e).kind) ∧
    (∀ m, Manifest.ofBytes bytes mediaType = .ok m →
      (∀ e, m.config = .error e → (Failure.manifest e).kind = .manifest ∨ e = .boundlessSize) ∧
      (m.config = .error .boundlessSize ↔ m.ConfigIsBoundless) ∧
      (∀ e, m.layers = .error e → (Failure.manifest e).kind = .manifest ∨ e = .boundlessSize) ∧
      (m.layers = .error .boundlessSize ↔ m.LayerIsBoundless)) ∧
    ∀ e, ImageConfig.ofBytes bytes = .error e →
      (Failure.config e).kind = .config ∨ ExceedsLimit bytes (Failure.config e).kind := by
  refine ⟨fun e h => Manifest.kind_of_ofBytes h, fun m _ => ?_,
    fun e h => ImageConfig.kind_of_ofBytes h⟩
  refine ⟨fun e h => ?_, Manifest.config_boundless, fun e h => ?_, Manifest.layers_boundless⟩
  · exact (Manifest.config_error h).imp id And.left
  · exact (Manifest.layers_error h).imp id And.left

/-- The members of a manifest whose configuration is said to be of infinite size. -/
def boundlessMembers : Members :=
  [(Text.ofString "schemaVersion", .integer Manifest.schemaVersion),
    (Text.ofString "config", .object [(Text.ofString "digest", .ofString "sha256:00"),
      (Text.ofString "size", .real (.infinite false))]),
    (Text.ofString "layers", .array [])]

/-- This manifest as it may be served. -/
def boundlessBytes : List UInt8 := Text.utf8OfString
  ("\x7b\"schemaVersion\":2,\"config\":\x7b\"digest\":\"sha256:00\",\"size\":Infinity\x7d," ++
    "\"layers\":[]\x7d")

theorem readDocument_boundlessBytes :
    readDocument boundlessBytes = .ok (.object boundlessMembers) := by
  have hlegible : Legible nestingLimit (.object boundlessMembers) := by
    refine .object (by decide) (List.forall_mem_cons.2 ⟨legible_small _ (by decide),
      List.forall_mem_cons.2 ⟨.object (by decide) ?_,
        List.forall_mem_singleton.2 (.array nofun)⟩⟩)
    exact List.forall_mem_cons.2 ⟨.text _, List.forall_mem_singleton.2 (.real trivial)⟩
  have hwritten : document (.object boundlessMembers) = .ok boundlessBytes := by cbv
  exact readDocument_object hlegible hwritten

/-- There is a manifest of which the configuration is neither told nor refused as one. -/
theorem decoding_outOfRange : ∃ m, Manifest.ofBytes boundlessBytes "" = .ok m ∧
    m.config = .error .boundlessSize ∧ (Failure.manifest .boundlessSize).kind = .range := by
  rw [Manifest.ofBytes, readDocument_boundlessBytes]
  refine ⟨_, rfl, Manifest.config_boundless.2 ?_, rfl⟩
  exact ⟨_, rfl, Text.ofString "sha256:00", false, rfl, rfl, rfl⟩

end ImageTransfer
