import ImageTransfer.Proofs.Json.Conformance
import ImageTransfer.Proofs.Transfer.ExportedConfig
import ImageTransfer.Proofs.Transfer.Reproduction

/-!
# Whether the configuration in an archive is valid

A consumer of an archive reads the configuration by the grammar of JSON, which has no name for what is
no number. So it matters how numbers come out that the floating-point format cannot hold: a
configuration may be valid as it is served, with a number out of range in it, and is not valid any more
in the archive. All other configurations stay valid, and those with text that cannot be encoded end
the export.
-/

namespace ImageTransfer

open Json

namespace ImageConfig

/-- **No number comes in with the diff IDs.** -/
theorem isFinite_withDiffIds {config : Members} (h : (Value.object config).IsFinite)
    (diffIds : List String) : (Value.object (withDiffIds config diffIds)).IsFinite := by
  have hmembers : ∀ {ms : Members}, (Value.object ms).IsFinite → ∀ m ∈ ms, m.2.IsFinite :=
    fun h m hm x hx => h x (.member hm hx)
  have hlist : (diffIdValue diffIds).IsFinite := by
    refine Value.isFinite_array fun v hv => ?_
    obtain ⟨text, -, rfl⟩ := List.mem_map.1 hv
    exact nofun
  refine Value.isFinite_object (Members.isFinite_put (hmembers h) _
    (Value.isFinite_object (Members.isFinite_put ?_ _ hlist)))
  split
  · rename_i ms hms
    exact hmembers (hmembers h _ (mem_of_member? hms))
  · intro m hm
    rw [List.mem_singleton.1 hm]
    exact nofun

/-- **A configuration that is written is valid exactly if its numbers are finite.** -/
theorem isDocument_bytes_iff {served bytes : List UInt8} {config : Members} {diffIds : List String}
    (h : ofBytes served = .ok config)
    (hbytes : ImageConfig.bytes (withDiffIds config diffIds) = .ok bytes) :
    IsDocument anyNumeral bytes ↔ (Value.object (withDiffIds config diffIds)).IsFinite := by
  have hlegible := (legible_withDiffIds (legible_of_ofBytes h) diffIds).object
  unfold ImageConfig.bytes at hbytes
  split at hbytes
  · rename_i hdocument
    cases hbytes
    exact hlegible.isDocument_iff hdocument
  · cases hbytes

/-- **It is valid if it was, with numbers in the range.** -/
theorem isDocument_bytes {served bytes : List UInt8} {config : Members} {diffIds : List String}
    (h : ofBytes served = .ok config)
    (hbytes : ImageConfig.bytes (withDiffIds config diffIds) = .ok bytes)
    (hserved : IsDocument Numeral.InRange served) : IsDocument anyNumeral bytes := by
  refine (isDocument_bytes_iff h hbytes).2 (isFinite_withDiffIds ?_ diffIds)
  unfold ofBytes at h
  rcases hserved.reads fitsFinite_inRange with ⟨v, hv, hread⟩ | ⟨e, -, hread⟩
  · rw [hread] at h
    cases v with
    | object ms =>
        cases h
        exact hv
    | _ => cases h
  · rw [hread] at h
    cases h

/-- **It is not written if a surrogate is mentioned in it.** -/
theorem bytes_error {served : List UInt8} {config : Members} {diffIds : List String} {c : CodePoint}
    (h : ofBytes served = .ok config)
    (hc : (Value.object (withDiffIds config diffIds)).Mentions c) (hsurrogate : c.isSurrogate = true) :
    ∃ e, ImageConfig.bytes (withDiffIds config diffIds) = .error (.unwritable e) := by
  have hlegible := (legible_withDiffIds (legible_of_ofBytes h) diffIds).object
  obtain ⟨e, he⟩ := hlegible.document_error_iff.2 ⟨c, hc, hsurrogate⟩
  refine ⟨e, ?_⟩
  rw [ImageConfig.bytes, he]

end ImageConfig

namespace Transfer

open Exchange Registry

variable {decoders : Compression.Decoders} {serve : Service} {s : Settings} {ref : Reference}
  {policy : IntegrityPolicy} {w w' : World} {name : String}

/-- All that an export asks for is served, up to the last layer: a configuration, and layers that come
to these diff IDs. -/
def Supplies (decoders : Compression.Decoders) (serve : Service) (s : Settings) (ref : Reference)
    (policy : IntegrityPolicy) (config : Members) (diffIds : List String) : Prop :=
  ∃ m layers, manifestOutcome ref (serve 0 (manifestRequest s ref)) = .ok m ∧
    configOutcome serve s ref policy m 1 = .ok config ∧ m.layers = .ok layers ∧
    layersOutcome decoders serve s ref policy layers 2 = .ok diffIds

theorem checkOutcome_warn (what expected actual : String) :
    ∃ b, checkOutcome .warn what expected actual = .ok b := by
  unfold checkOutcome
  split
  · exact ⟨true, rfl⟩
  · exact ⟨false, rfl⟩

theorem configOutcome_ok {m : Manifest} {n : Nat} {config : Members}
    (h : configOutcome serve s ref policy m n = .ok config) :
    ∃ served, ImageConfig.ofBytes served = .ok config := by
  obtain ⟨_, _, h⟩ := bind_eq_ok.1 h
  obtain ⟨bytes, _, h⟩ := bind_eq_ok.1 h
  obtain ⟨_, _, h⟩ := bind_eq_ok.1 h
  obtain ⟨_, _, h⟩ := bind_eq_ok.1 h
  exact ⟨bytes, mapError_eq_ok.1 h⟩

/-- **What is left to do when all is supplied** is to write the configuration and the index, and to
pack. -/
theorem exportImage_supplied {policy : Option IntegrityPolicy} {listens : Bool}
    {r : Except Failure Exported} {config : Members} {diffIds : List String}
    (hserve : ServesStorable decoders serve) (hw : LetsWork w) (hname : ref.commonName = some name)
    (h : exportImage decoders s policy ref listens w = (r, w'))
    (hd : serve.Answers 0 (w.dialogue w'))
    (hsupplies : Supplies decoders serve s ref (policy.getD s.verify) config diffIds) :
    (∃ e, indexOutcome name config diffIds = .error e ∧ r = .error (archiveFailure ref e)) ∨
      ∃ exported tree, indexOutcome name config diffIds = .ok exported ∧
        r = (packOutcome w.sink exported tree).1.mapError (archiveFailure ref) := by
  obtain ⟨m, layers, hm, hconfig, hlayers, hdiffIds⟩ := hsupplies
  have houtcome : imageOutcome decoders serve s ref (policy.getD s.verify) name m 1 =
      indexOutcome name config diffIds := by
    simp only [imageOutcome, hconfig, hlayers, hdiffIds, Except.mapError, bind, Except.bind]
  rcases exportImage_served hserve hw hname h hd with ⟨e, he, _⟩ | hstaged
  · cases hm.symm.trans he
  obtain ⟨m', w₁, w₂, r', d, hm', hu, hstage, ht, hd, -, rfl⟩ := hstaged
  cases hm.symm.trans hm'
  obtain ⟨d', ht', hresult⟩ := stageImage_outcome hserve (lasting_letsWork hu hw) hstage
  rw [← ht'.dialogue_eq, ht.dialogue_eq] at hresult
  replace hresult := hresult 1 hd
  rw [houtcome] at hresult
  rcases hresult with ⟨e, he, rfl, -⟩ | ⟨exported, _, _, _, hok, -, -, hpacked⟩
  · exact .inl ⟨e, he, rfl⟩
  · rw [hu.sink] at hpacked
    exact .inr ⟨exported, _, hok, congrArg (Except.mapError _) (Prod.mk.inj hpacked).1⟩

/-- **An image whose index can be written is exported** to a sink without a limit. -/
theorem exportImage_supplied_ok {policy : Option IntegrityPolicy} {listens : Bool}
    {r : Except Failure Exported} {config : Members} {diffIds : List String}
    (hserve : ServesStorable decoders serve) (hw : LetsWork w) (hname : ref.commonName = some name)
    (h : exportImage decoders s policy ref listens w = (r, w'))
    (hd : serve.Answers 0 (w.dialogue w'))
    (hsupplies : Supplies decoders serve s ref (policy.getD s.verify) config diffIds)
    (hlimit : w.sink.limit = none) (hfull : w.sink.isFull = false)
    (hindex : (indexOutcome name config diffIds).isOk) : ∃ exported, r = .ok exported := by
  rcases exportImage_supplied hserve hw hname h hd hsupplies with ⟨e, he, _⟩ | ⟨exported, tree, _, hr⟩
  · rw [he] at hindex
    exact absurd hindex nofun
  · refine ⟨exported, ?_⟩
    rw [hr, packOutcome]
    dsimp only
    rw [Sink.writeAll_unlimited hlimit hfull]
    rfl

/-- The file of the configuration that an export has written. -/
theorem exportImage_configFile {policy : Option IntegrityPolicy} {listens : Bool}
    {exported : Exported} (h : exportImage decoders s policy ref listens w = (.ok exported, w')) :
    ∃ m a q response d config contents archive hash members,
      a.Serves m ∧ w.dialogue w' = (manifestRequest s ref, a) :: (q, .response response) :: d ∧
      ServesImage decoders s ref m config contents ((q, .response response) :: d) ∧
      ImageConfig.ofBytes response.body = .ok config ∧
      exported.configDigest = "sha256:" ++ hash ∧ exported.entry.config = hash ++ ".json" ∧
      w'.sink.bytes = w.sink.bytes ++ archive ∧ Archive.Tar.read? archive = some members ∧
      (∃ member ∈ members, member.name = hash ++ ".json") ∧
      ∀ member ∈ members, member.name = hash ++ ".json" →
        ImageConfig.bytes (ImageConfig.withDiffIds config exported.diffIds) = .ok member.content := by
  obtain ⟨_, m, a, d, config, contents, l, _, hserves, hdialogue, hd, hholds, hbytes, _, hexp, hsink⟩ :=
    exportImage_ok h
  obtain ⟨_, _, response, parts, _, _, rfl, _, _, hserved, _⟩ := id hd
  obtain ⟨members, hread, hfile, hcontent⟩ := hholds.config_member
  refine ⟨m, a, _, response, parts, config, contents, _, contentName (contentOf l.config), members,
    hserves, hdialogue, hd, hserved, hexp ▸ rfl, hexp ▸ rfl, hsink, hread, hfile,
    fun member hmember hname => ?_⟩
  rw [hcontent member hmember hname]
  exact hbytes

/-! ## Two images without layers -/

/-- The members of a manifest of an image without layers. -/
def bareMembers : Members :=
  [(Text.ofString "schemaVersion", .integer Manifest.schemaVersion),
    (Text.ofString "config", .object [(Text.ofString "digest", .ofString "sha256:0a")]),
    (Text.ofString "layers", .array [])]

/-- This manifest as it is served. -/
def bareManifest : List UInt8 := Text.utf8OfString
  "\x7b\"schemaVersion\":2,\"config\":\x7b\"digest\":\"sha256:0a\"\x7d,\"layers\":[]\x7d"

/-- A registry that has such an image, with this configuration. -/
def bareWorld (config : String) : World :=
  worldOf ([bareManifest, Text.utf8OfString config].map fun body => ⟨200, [], body, none⟩) fun _ => ""

/-- A client that warns of digests that do not match. -/
def lenient : Settings := ⟨30, 1, 65536, [], .warn, by decide, by decide, by decide⟩

/-- The image. -/
def bareImage : Reference := ⟨"registry.example", "image", some "tag", none⟩

theorem readDocument_bareManifest : readDocument bareManifest = .ok (.object bareMembers) := by
  have hlegible : Legible nestingLimit (.object bareMembers) := by
    refine .object (by decide) (List.forall_mem_cons.2 ⟨legible_small _ (by decide),
      List.forall_mem_cons.2 ⟨.object (by decide) ?_, List.forall_mem_singleton.2 (.array nofun)⟩⟩)
    exact List.forall_mem_singleton.2 (.text _)
  have hwritten : document (.object bareMembers) = .ok bareManifest := rfl
  exact readDocument_object hlegible hwritten

/-- **An image without layers is supplied** if its configuration is one. -/
theorem supplies_bareWorld {config : String} {members : Members}
    (h : ImageConfig.ofBytes (Text.utf8OfString config) = .ok members) :
    Supplies decoders (bareWorld config).service lenient bareImage .warn members [] := by
  obtain ⟨m, hm, hconfig, hlayers⟩ : ∃ m, Manifest.ofBytes bareManifest "" = .ok m ∧
      m.config = .ok ⟨"sha256:0a", .ofString "", 0⟩ ∧ m.layers = .ok [] := by
    rw [Manifest.ofBytes, readDocument_bareManifest]
    exact ⟨_, rfl, rfl, rfl⟩
  refine ⟨m, [], manifestOutcome_eq_ok.2 ⟨_, rfl, rfl, rfl, hm⟩, ?_, hlayers, rfl⟩
  have hblob : blobOutcome (bareWorld config).service lenient bareImage "sha256:0a" configMediaTypes
      (fun response => wholeBody response (.download "sha256:0a")) 1 =
        .ok (Text.utf8OfString config) := by
    have haddress : Digest.isAddress "sha256:0a" = true := by decide
    rw [blobOutcome, if_pos haddress]
    rfl
  have halgorithm : Digest.algorithmOf (Digest.algorithmName "sha256:0a") = .ok .sha256 := by decide
  obtain ⟨_, hcheck⟩ := checkOutcome_warn "image config" "sha256:0a"
    (Digest.ofBytes .sha256 (Text.utf8OfString config))
  simp only [configOutcome, hconfig, hblob, halgorithm, hcheck, h, Except.mapError, bind, Except.bind]

/-- A configuration with a number out of range. -/
def overflowingConfig : String := "\x7b\"a\":1e999\x7d"

/-- A configuration with a surrogate that stands alone. -/
def lonelyConfig : String := "\x7b\"a\":\"\\ud800\"\x7d"

/-- An object of one member is valid if its value is. -/
theorem derives_single {value : Text}
    (h : Derives anyNumeral .value (value ++ chars "\x7d") (chars "\x7d")) :
    Derives anyNumeral .element (chars "\x7b\"a\":" ++ (value ++ chars "\x7d")) [] := by
  have hname : StringBody (chars "a\":" ++ (value ++ chars "\x7d"))
      (chars ":" ++ (value ++ chars "\x7d")) :=
    .unescaped (by decide) (by decide) (by decide) .close
  have hmember : Derives anyNumeral .member (chars "\"a\":" ++ (value ++ chars "\x7d")) (chars "\x7d") :=
    @Derives.named _ [] _ [] _ _ nofun hname nofun h.element
  exact (Derives.object (.lastMember hmember)).element

/-- A number out of range is valid JSON. -/
theorem derives_overflowingConfig :
    Derives anyNumeral .element (Text.ofString overflowingConfig) [] := by
  have hspelling : (⟨false, ['1'], [], none⟩ : Spelling).Sound :=
    ⟨Text.forall_mem_of_all (by decide), .inr ⟨'1', [], rfl, by decide⟩, nofun, nofun⟩
  have hexponent : IsExponent ['e', '9', '9', '9'] (some 999) :=
    @IsExponent.some 'e' [] ['9', '9', '9'] (by decide) (by decide) (by decide)
      (Text.forall_mem_of_all (by decide))
  have hspelled : IsNumber ['1', 'e', '9', '9', '9'] ⟨false, [1], [], some 999⟩ :=
    .intro hspelling rfl hexponent
  have hnumber : Derives anyNumeral .value (chars "1e999" ++ chars "\x7d") (chars "\x7d") :=
    .number hspelled trivial
  exact derives_single hnumber

/-- A surrogate that stands alone is valid JSON. -/
theorem derives_lonelyConfig : Derives anyNumeral .element (Text.ofString lonelyConfig) [] := by
  have hbody : StringBody (chars "\\ud800\"" ++ chars "\x7d") (chars "\x7d") :=
    .unit (by decide) (by decide) (by decide) (by decide) .close
  exact @derives_single (chars "\"\\ud800\"") (.string hbody)

/-- An object of one member is read as that. -/
theorem readDocument_single {bytes : List UInt8} {name value : Text} {v : Value}
    (hbytes : decodeDocument bytes = .ok (chars "\x7b" ++ (writeText false name ++ (chars ":" ++
      (value ++ (chars "\x7d" ++ []))))))
    (hvalue : turn [.object [] name] .value (value ++ (chars "\x7d" ++ [])) =
      .ok (.goOn [.object [] name] (.after v) (chars "\x7d" ++ []))) :
    readDocument bytes = .ok (.object [(name, v)]) := by
  have hend : readFrom [] (.after (.object [(name, v)])) [] = .ok (.object [(name, v)]) := by
    rw [readFrom]
    rfl
  have hread : Json.read (chars "\x7b" ++ (writeText false name ++ (chars ":" ++
      (value ++ (chars "\x7d" ++ []))))) = .ok (.object [(name, v)]) := by
    rw [Json.read, readFrom_openObject (by decide), readFrom_firstMember, readFrom_member,
      readFrom_of_turn hvalue, readFrom_afterLastMember]
    exact hend
  rw [readDocument, hbytes]
  dsimp only
  rw [hread]

theorem encodeUtf8_overflowingConfig : Text.encodeUtf8 (Text.ofString overflowingConfig) =
    .ok (Text.utf8OfString overflowingConfig) := rfl

theorem ofBytes_overflowingConfig : ImageConfig.ofBytes (Text.utf8OfString overflowingConfig) =
    .ok [(Text.ofString "a", .real (.infinite false))] := by
  have hvalue : turn [.object [] (Text.ofString "a")] .value (chars "1e999" ++ (chars "\x7d" ++ [])) =
      .ok (.goOn [.object [] (Text.ofString "a")] (.after (.real (.infinite false)))
        (chars "\x7d" ++ [])) := rfl
  rw [ImageConfig.ofBytes, readDocument_single
    (decodeDocument_derives encodeUtf8_overflowingConfig derives_overflowingConfig) hvalue]

theorem ofBytes_lonelyConfig : ImageConfig.ofBytes (Text.utf8OfString lonelyConfig) =
    .ok [(Text.ofString "a", .text [Text.codePoint 0xD800])] := by
  have hunit : readUnit (chars "d800\"" ++ (chars "\x7d" ++ [])) =
      .ok (Text.codePoint 0xD800, chars "\"" ++ (chars "\x7d" ++ [])) := rfl
  have hbody : ∀ opening, readText opening #[] (CodePoint.ofChar '\\' :: CodePoint.ofChar 'u' ::
      (chars "d800\"" ++ (chars "\x7d" ++ []))) =
        .ok ([Text.codePoint 0xD800], chars "\x7d" ++ []) := by
    intro opening
    rw [readText_unit hunit]
    exact readText_flatMap [] _ _
  have hvalue : turn [.object [] (Text.ofString "a")] .value
      (chars "\"\\ud800\"" ++ (chars "\x7d" ++ [])) =
        .ok (.goOn [.object [] (Text.ofString "a")] (.after (.text [Text.codePoint 0xD800]))
          (chars "\x7d" ++ [])) := by
    show readValue _ (CodePoint.ofChar '"' :: CodePoint.ofChar '\\' :: CodePoint.ofChar 'u' ::
      (chars "d800\"" ++ (chars "\x7d" ++ []))) = _
    rw [readValue, skipSpace_cons (by decide)]
    dsimp only
    rw [if_pos (by decide), hbody]
  have hencoded : Text.encodeUtf8 (Text.ofString lonelyConfig) =
      .ok (Text.utf8OfString lonelyConfig) := rfl
  rw [ImageConfig.ofBytes,
    readDocument_single (decodeDocument_derives hencoded derives_lonelyConfig) hvalue]

/-- **An image without layers is exported** with its configuration in a file. -/
theorem exportImage_bareWorld {config : String} {members : Members}
    (h : ImageConfig.ofBytes (Text.utf8OfString config) = .ok members)
    (hstorable : ServesStorable decoders (bareWorld config).service)
    (hindex : (indexOutcome "registry.example/image:tag" members []).isOk) :
    let run := exportImage decoders lenient none bareImage false (bareWorld config)
    ∃ exported files file, run.1 = .ok exported ∧
      Archive.Tar.read? run.2.sink.bytes = some files ∧ file ∈ files ∧
      file.name = exported.entry.config ∧
      ImageConfig.bytes (ImageConfig.withDiffIds members exported.diffIds) = .ok file.content := by
  intro run
  have hrun : exportImage decoders lenient none bareImage false (bareWorld config) =
    (run.1, run.2) := rfl
  have hworks : LetsWork (bareWorld config) := letsWork_worldOf _ _
  have hname : bareImage.commonName = some "registry.example/image:tag" := by decide
  have hanswers : (bareWorld config).service.Answers 0 ((bareWorld config).dialogue run.2) :=
    exportImage_answers hstorable hworks
  obtain ⟨exported, hok⟩ := exportImage_supplied_ok hstorable hworks hname hrun hanswers
    (supplies_bareWorld h) rfl rfl hindex
  rw [hok] at hrun
  obtain ⟨m, a, q, response, d, config', contents, archive, hash, files, -, hdialogue, -, hserved,
    -, hentry, hsink, hread, ⟨file, hfile, hfileName⟩, hcontent⟩ := exportImage_configFile hrun
  -- the second answer is the configuration
  rw [hdialogue] at hanswers
  have hresponse : Answer.response response = .response ⟨200, [], Text.utf8OfString config, none⟩ :=
    hanswers.2.1
  cases hresponse
  cases h.symm.trans hserved
  refine ⟨exported, files, file, hok, ?_, hfile, hfileName.trans hentry.symm, hcontent file hfile hfileName⟩
  rw [hsink]
  exact hread

/-! ## What is valid and what is not -/

/-- **Whether the configuration in an archive is valid JSON.** An export that gives a value has written
a file of the configuration's name, and that is valid if and only if all numbers in it are finite. So
it is valid if the configuration was valid as it was served, with numbers in the range of the
floating-point format. And a configuration that cannot be encoded ends an export of which all else is
served, as a failure of the configuration. -/
theorem exportImage_validConfig (decoders : Compression.Decoders) (s : Settings)
    (policy : Option IntegrityPolicy) (ref : Reference) (listens : Bool) (w : World) :
    let run := exportImage decoders s policy ref listens w
    ((∃ e, run.1 = .error e) ∨
      ∃ m a q response d config contents exported archive hash members,
        a.Serves m ∧ w.dialogue run.2 = (manifestRequest s ref, a) :: (q, .response response) :: d ∧
        ServesImage decoders s ref m config contents ((q, .response response) :: d) ∧
        run.1 = .ok exported ∧ exported.configDigest = "sha256:" ++ hash ∧
        run.2.sink.bytes = w.sink.bytes ++ archive ∧ Archive.Tar.read? archive = some members ∧
        (∃ member ∈ members, member.name = hash ++ ".json") ∧
        ∀ member ∈ members, member.name = hash ++ ".json" →
          (IsDocument anyNumeral member.content ↔
            (Value.object (ImageConfig.withDiffIds config exported.diffIds)).IsFinite) ∧
          (IsDocument Numeral.InRange response.body → IsDocument anyNumeral member.content)) ∧
    ∀ serve name config diffIds c, ServesStorable decoders serve → LetsWork w →
      serve.Answers 0 (w.dialogue run.2) → ref.commonName = some name →
      Supplies decoders serve s ref (policy.getD s.verify) config diffIds →
      (Value.object (ImageConfig.withDiffIds config diffIds)).Mentions c → c.isSurrogate = true →
      ∃ e, run.1 = .error (.config (.unwritable e)) := by
  intro run
  have hrun : exportImage decoders s policy ref listens w = (run.1, run.2) := rfl
  constructor
  · rcases hresult : run.1 with e | exported
    · exact .inl ⟨e, rfl⟩
    right
    rw [hresult] at hrun
    obtain ⟨m, a, q, response, d, config, contents, archive, hash, members, hserves, hdialogue, hd,
      hserved, hdigest, _, hsink, hread, hfile, hcontent⟩ := exportImage_configFile hrun
    refine ⟨m, a, q, response, d, config, contents, exported, archive, hash, members, hserves,
      hdialogue, hd, rfl, hdigest, hsink, hread, hfile, fun member hmember hname => ?_⟩
    have hbytes := hcontent member hmember hname
    exact ⟨ImageConfig.isDocument_bytes_iff hserved hbytes, ImageConfig.isDocument_bytes hserved hbytes⟩
  · intro serve name config diffIds c hserve hw hd hname hsupplies hc hsurrogate
    obtain ⟨m, layers, _, hconfig, _, _⟩ := id hsupplies
    obtain ⟨served, hserved⟩ := configOutcome_ok hconfig
    obtain ⟨e, he⟩ := ImageConfig.bytes_error hserved hc hsurrogate
    have hindex : indexOutcome name config diffIds = .error (.config (.unwritable e)) := by
      rw [indexOutcome, he]
      rfl
    rcases exportImage_supplied hserve hw hname hrun hd hsupplies with ⟨e', he', hr⟩ | ⟨_, _, hok, _⟩
    · cases hindex.symm.trans he'
      exact ⟨e, hr⟩
    · exact absurd (hindex.symm.trans hok) nofun

/-- The theorem is about a configuration that cannot be encoded as well. -/
theorem exportImage_validConfig_lonely : ∃ e,
    (exportImage Compression.decoder lenient none bareImage false (bareWorld lonelyConfig)).1 =
      .error (.config (.unwritable e)) := by
  have hstorable : ServesStorable Compression.decoder (bareWorld lonelyConfig).service :=
    servesStorable_worldOf (by decide)
  have hworks : LetsWork (bareWorld lonelyConfig) := letsWork_worldOf _ _
  have hmentions : (Value.object (ImageConfig.withDiffIds
      [(Text.ofString "a", .text [Text.codePoint 0xD800])] [])).Mentions (Text.codePoint 0xD800) :=
    .inl ⟨[Text.codePoint 0xD800], .member List.mem_cons_self .self, List.mem_cons_self⟩
  exact (exportImage_validConfig _ lenient none bareImage false (bareWorld lonelyConfig)).2 _ _ _ _ _
    hstorable hworks (exportImage_answers hstorable hworks) rfl
    (supplies_bareWorld ofBytes_lonelyConfig) hmentions (by decide)

/-- An image is exported whose configuration is valid as it is served, and is not valid any more in
the archive. -/
theorem exportImage_invalidConfig :
    let run :=
      exportImage Compression.decoder lenient none bareImage false (bareWorld overflowingConfig)
    IsDocument anyNumeral (Text.utf8OfString overflowingConfig) ∧
      ∃ exported files file, run.1 = .ok exported ∧
        Archive.Tar.read? run.2.sink.bytes = some files ∧ file ∈ files ∧
        file.name = exported.entry.config ∧ ¬ IsDocument anyNumeral file.content := by
  have hindex : (indexOutcome "registry.example/image:tag"
      [(Text.ofString "a", .real (.infinite false))] []).isOk := by decide +kernel
  have hstorable : ServesStorable Compression.decoder (bareWorld overflowingConfig).service :=
    servesStorable_worldOf (by decide)
  obtain ⟨exported, files, file, hok, hread, hfile, hname, hbytes⟩ :=
    exportImage_bareWorld ofBytes_overflowingConfig hstorable hindex
  refine ⟨⟨_, encodeUtf8_overflowingConfig, derives_overflowingConfig⟩, exported, files, file, hok,
    hread, hfile, hname, fun hvalid => ?_⟩
  have hfinite := (ImageConfig.isDocument_bytes_iff ofBytes_overflowingConfig hbytes).1 hvalid
  obtain ⟨_, _, _, hnumber⟩ := hfinite (.infinite false) (.member List.mem_cons_self .self)
  cases hnumber

end Transfer

end ImageTransfer
