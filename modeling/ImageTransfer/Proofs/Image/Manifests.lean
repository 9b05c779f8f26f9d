import ImageTransfer.Manifest

/-!
# Which documents are manifests

What a document is served as goes before the type that it names itself, and that before the type that
stands in for both (`typeOf`); what counts as nothing is no type. Whatever the type is, a document with
a list of manifests is none of an image, and so is one of a list's type with whatever in it. Of
everything else it is only the version that counts (`ofBytes_eq_ok`).
-/

namespace ImageTransfer

open Json

/-! ## Types -/

theorem Json.Value.equalsString_iff {v : Value} {s : String} :
    v.equalsString s = true ↔ v = .ofString s := by
  cases v with
  | text t => exact beq_iff_eq.trans ⟨congrArg Value.text, fun h => by cases h; rfl⟩
  | _ => exact ⟨nofun, nofun⟩

theorem Json.Value.isTruthy_ofString {s : String} : (Value.ofString s).isTruthy = true ↔ s ≠ "" := by
  simp [Value.ofString, Value.isTruthy, Text.ofString]

theorem Json.Value.exists_ofString_iff {names : List String} {name : String} :
    (∃ other ∈ names, Value.ofString name = .ofString other) ↔ name ∈ names := by
  refine ⟨?_, fun h => ⟨name, h, rfl⟩⟩
  rintro ⟨other, hmem, h⟩
  rwa [Text.ofString_inj (Value.text.inj h)]

namespace Manifest

variable {raw : List UInt8} {served : String} {members : Members} {m : Manifest} {v : Value}

/-- The type that a body names itself. What counts as nothing is no type, but any other value is. -/
def namedType? (members : Members) : Option Value :=
  (Members.get? members (Text.ofString "mediaType")).filter Value.isTruthy

/-- The type of a manifest: what it is served as, else what it names itself, else the one that stands
in for both. -/
def typeOf (served : String) (members : Members) : Value :=
  if served ≠ "" then .ofString served
  else (namedType? members).getD (.ofString defaultMediaType)

/-- The type of a list of manifests. -/
def IsListType (v : Value) : Prop := ∃ name ∈ listMediaTypes, v = .ofString name

/-- The type of a manifest of one image. -/
def IsImageType (v : Value) : Prop := ∃ name ∈ imageMediaTypes, v = .ofString name

/-- A list of manifests, by its type or by what is in it. -/
def IsList (served : String) (members : Members) : Prop :=
  IsListType (typeOf served members) ∨
    (Members.get? members (Text.ofString "manifests")).isSome = true

/-- The version is the one that is understood. As a number: it may be written with a fraction. -/
def HasVersion (members : Members) : Prop :=
  ∃ v, Members.get? members (Text.ofString "schemaVersion") = some v ∧
    v.equalsInt schemaVersion = true

theorem isListType_iff : listMediaTypes.any v.equalsString = true ↔ IsListType v := by
  simp only [List.any_eq_true, Value.equalsString_iff, IsListType]

theorem IsListType.isTruthy (h : IsListType v) : v.isTruthy = true := by
  obtain ⟨name, hname, rfl⟩ := h
  have hall : ∀ name ∈ listMediaTypes, name ≠ "" := by decide
  exact Value.isTruthy_ofString.2 (hall name hname)

/-- The type that stands in for others is an image's. -/
theorem not_isListType_default : ¬ IsListType (.ofString defaultMediaType) :=
  mt Value.exists_ofString_iff.1 (by decide)

/-- What is said about the type first, whether it counts as something or not. -/
def firstType (served : String) (members : Members) : Value :=
  if served ≠ "" then .ofString served
  else (Members.get? members (Text.ofString "mediaType")).getD (.ofString "")

theorem typeOf_eq (served : String) (members : Members) :
    typeOf served members = if (firstType served members).isTruthy then firstType served members
      else .ofString defaultMediaType := by
  by_cases hs : served ≠ ""
  · rw [typeOf, firstType, if_pos hs, if_pos hs, if_pos (Value.isTruthy_ofString.2 hs)]
  · rw [typeOf, firstType, if_neg hs, if_neg hs, namedType?]
    rcases Members.get? members (Text.ofString "mediaType") with _ | v
    · rfl
    · by_cases hv : v.isTruthy = true
      · simp [Option.filter, hv]
      · simp [Option.filter, hv]

/-- What counts as nothing is the type of no list, and neither is what stands in for it. -/
theorem isListType_firstType :
    IsListType (firstType served members) ↔ IsListType (typeOf served members) := by
  rw [typeOf_eq]
  split
  · rfl
  · rename_i hfalsy
    exact iff_of_false (fun h => hfalsy h.isTruthy) not_isListType_default

/-! ## Bodies -/

theorem hasVersion_iff :
    ((Members.get? members (Text.ofString "schemaVersion")).getD .null).equalsInt schemaVersion =
      true ↔ HasVersion members := by
  rw [HasVersion]
  rcases Members.get? members (Text.ofString "schemaVersion") with _ | v
  · exact ⟨nofun, nofun⟩
  · exact ⟨fun h => ⟨v, rfl, h⟩, fun ⟨_, rfl, h⟩ => h⟩

/-- What is made of an object: a list is refused, then another version, and the rest is kept. -/
theorem ofBytes_object (served : String) (h : readDocument raw = .ok (.object members)) :
    (IsList served members ∧ ∃ v, ofBytes raw served = .error (.listOfManifests v)) ∨
    (¬ IsList served members ∧ ¬ HasVersion members ∧
      ∃ v, ofBytes raw served = .error (.schemaVersion v)) ∨
    (¬ IsList served members ∧ HasVersion members ∧
      ofBytes raw served = .ok ⟨raw, members, typeOf served members⟩) := by
  have hlist : (listMediaTypes.any (firstType served members).equalsString ||
      (Members.get? members (Text.ofString "manifests")).isSome) = true ↔ IsList served members := by
    rw [Bool.or_eq_true, isListType_iff, isListType_firstType, IsList]
  have hread : ofBytes raw served =
      if listMediaTypes.any (firstType served members).equalsString ||
          (Members.get? members (Text.ofString "manifests")).isSome then
        .error (.listOfManifests (firstType served members))
      else if !((Members.get? members (Text.ofString "schemaVersion")).getD .null).equalsInt
          schemaVersion then
        .error (.schemaVersion
          ((Members.get? members (Text.ofString "schemaVersion")).getD .null))
      else .ok ⟨raw, members, typeOf served members⟩ := by
    rw [typeOf_eq, ofBytes, h]
    rfl
  rw [hread]
  by_cases hl : IsList served members
  · rw [if_pos (hlist.2 hl)]
    exact .inl ⟨hl, _, rfl⟩
  · rw [if_neg (mt hlist.1 hl)]
    by_cases hv : HasVersion members
    · rw [hasVersion_iff.2 hv]
      exact .inr (.inr ⟨hl, hv, rfl⟩)
    · rw [Bool.eq_false_iff.2 (mt hasVersion_iff.1 hv)]
      exact .inr (.inl ⟨hl, hv, _, rfl⟩)

/-- **Which bytes are a manifest, and which manifest they are.** -/
theorem ofBytes_eq_ok : ofBytes raw served = .ok m ↔
    readDocument raw = .ok (.object m.members) ∧ HasVersion m.members ∧ ¬ IsList served m.members ∧
      m.mediaType = typeOf served m.members ∧ m.raw = raw := by
  constructor
  · intro h
    obtain ⟨members, hread⟩ : ∃ members, readDocument raw = .ok (.object members) := by
      unfold ofBytes at h
      split at h
      · cases h
      · exact ⟨_, ‹_›⟩
      · cases h
    rcases ofBytes_object served hread with
      ⟨_, v, hv⟩ | ⟨_, _, v, hv⟩ | ⟨hl, hversion, hm⟩
    · cases h.symm.trans hv
    · cases h.symm.trans hv
    · cases h.symm.trans hm
      exact ⟨hread, hversion, hl, rfl, rfl⟩
  · rintro ⟨hread, hversion, hl, htype, hraw⟩
    rcases ofBytes_object served hread with ⟨hl', _⟩ | ⟨_, hv', _⟩ | ⟨_, _, hm⟩
    · exact absurd hl' hl
    · exact absurd hversion hv'
    · rw [hm, ← htype, ← hraw]

end Manifest

/-- A descriptor has the digest that its value has, which is an address. -/
theorem Descriptor.ofValue_ok {v : Value} {d : Descriptor} (h : Descriptor.ofValue v = .ok d) :
    ∃ given, v.get? "digest" = some (.text given) ∧ given.toString = d.digest ∧
      Digest.isAddress d.digest = true := by
  unfold Descriptor.ofValue at h
  split at h
  · split at h
    · rename_i given hgiven
      dsimp only at h
      split at h
      · rename_i haddress
        split at h
        · cases h
          exact ⟨given, hgiven, rfl, haddress⟩
        · cases h
      · cases h
    · cases h
  · cases h

end ImageTransfer
