import ImageTransfer.Proofs.Archive.Index
import ImageTransfer.Proofs.Archive.Tar.Reader
import ImageTransfer.Proofs.Time.Range
import ImageTransfer.Proofs.Transfer.Layers

/-!
# What an exported archive holds

An image is laid out as a directory for each layer, a file for its configuration and one for the
index (`Layout`). The places of a layout are all different and its files are within the bounds of
archives, so what is packed is what a reader of the archive finds (`Layout.Holds.holdsImage`).

What goes into the layout are the answers of a registry: `layOutImage_ok` follows them from the
requests to the disk, and `exportImage_holdsImage` puts the two together.
-/

namespace ImageTransfer.Transfer

open Exchange Registry

variable {decoders : Compression.Decoders} {s : Settings} {ref : Reference}
  {policy : IntegrityPolicy} {work : Archive.Path} {w w' : World}

/-! ## Layouts -/

/-- An image as it is laid out: what was written to the files of its layers, of its configuration and
of its index, and when it was created. -/
structure Layout where
  layers : List (Array (List UInt8))
  config : Array (List UInt8)
  index : Array (List UInt8)
  modified : Int

namespace Layout

/-- What the file of the configuration is named. -/
def configName (l : Layout) : String := nameOf l.config ++ ".json"

/-- The files and directories, with places from the root. -/
def disk (l : Layout) : Disk :=
  (layersDisk l.layers l.modified).append
    ((Disk.file [l.configName] l.config l.modified).append (.file [Archive.indexFile] l.index 0))

/-- The entries of a layer. -/
def layerEntries (modified : Int) (writes : Array (List UInt8)) : List Archive.Entry :=
  [⟨[nameOf writes], .directory, modified⟩,
    ⟨[nameOf writes, Archive.layerFile], .file (contentOf writes), modified⟩]

/-- What is packed. -/
def tree (l : Layout) : Archive.Tree :=
  ⟨l.layers.flatMap (layerEntries l.modified) ++
    [⟨[l.configName], .file (contentOf l.config), l.modified⟩,
      ⟨[Archive.indexFile], .file (contentOf l.index), 0⟩]⟩

theorem below_disk (l : Layout) : l.disk.below [] = l.tree := by
  refine congrArg Archive.Tree.mk ?_
  show (l.layers.flatMap _ ++ _).filterMap _ = _
  rw [List.filterMap_append, List.filterMap_flatMap]
  rfl

/-- A layout of layers with these contents: of those with the same hash it has one, and all its files
have fitted on the disk. -/
structure Holds (l : Layout) (contents : List (List UInt8)) : Prop where
  distinct : (l.layers.map nameOf).Nodup
  content : ∀ writes ∈ l.layers, contentOf writes ∈ contents
  complete : ∀ content ∈ contents, contentName content ∈ l.layers.map nameOf
  order : l.layers.map contentOf = firsts contents
  layers : ∀ writes ∈ l.layers, Fits writes
  config : Fits l.config
  index : Fits l.index
  modified : l.modified.natAbs < 1000000000000000000

/-! ## Layouts can be packed -/

theorem isName_append (content : List UInt8) {ending : String}
    (hslash : '/' ∉ ending.toList) (hzero : '\x00' ∉ ending.toList) :
    Archive.Path.IsName (contentName content ++ ending) := by
  have hnot : ∀ {c : Char}, Digest.isHashDigit c = false → c ∉ ending.toList →
      c ∉ (contentName content ++ ending).toList := by
    intro c hd hc hmem
    rw [String.toList_append, List.mem_append] at hmem
    rcases hmem with hmem | hmem
    · rw [isHashDigit_of_mem_contentName hmem] at hd
      exact absurd hd (by decide)
    · exact hc hmem
  refine ⟨fun h => ?_, hnot (by decide) hslash, hnot (by decide) hzero⟩
  have hlength := congrArg String.length h
  rw [String.length_append, length_contentName] at hlength
  exact absurd hlength (by simp)

theorem isName_nameOf (writes : Array (List UInt8)) : Archive.Path.IsName (nameOf writes) := by
  have h : Archive.Path.IsName (contentName (contentOf writes) ++ "") :=
    isName_append (contentOf writes) (by decide) (by decide)
  rwa [String.append_empty] at h

theorem sound_singleton {name : String} (h : Archive.Path.IsName name) :
    Archive.Path.Sound [name] :=
  ⟨List.cons_ne_nil _ _, fun _ hmem => List.mem_singleton.1 hmem ▸ h⟩

theorem sound_layerFile (writes : Array (List UInt8)) :
    Archive.Path.Sound [nameOf writes, Archive.layerFile] := by
  refine ⟨List.cons_ne_nil _ _, fun name hmem => ?_⟩
  rcases List.mem_cons.1 hmem with rfl | hmem
  · exact isName_nameOf writes
  · rw [List.mem_singleton.1 hmem]
    exact ⟨by decide, by decide, by decide⟩

/-- What is laid out is within the bounds of archives by far. -/
theorem packable_of_bounds {e : Archive.Entry} (hp : e.path.Sound) (hname : e.path.text.length ≤ 100)
    (hsize : e.bytes.length ≤ Disk.fileLimit) (hm : e.modified.natAbs < 1000000000000000000) :
    Archive.Tar.Packable e := by
  refine Archive.Tar.packable_of hp ?_ (Nat.lt_of_le_of_lt hsize (by decide))
    (Nat.lt_trans hm (by decide))
  rw [Archive.Tar.memberName, String.length_append]
  have hslash : (if e.isDirectory = true then "/" else "").length ≤ 1 := by split <;> decide
  omega

theorem packable_layerEntries {modified : Int} {writes : Array (List UInt8)} (hfits : Fits writes)
    (hm : modified.natAbs < 1000000000000000000) {e : Archive.Entry}
    (he : e ∈ layerEntries modified writes) : Archive.Tar.Packable e := by
  have hlength : (nameOf writes).length = 64 := length_contentName _
  rcases List.mem_cons.1 he with rfl | he
  · refine packable_of_bounds (sound_singleton (isName_nameOf writes)) ?_ (Nat.zero_le _) hm
    rw [Archive.Path.text_singleton]
    omega
  · rw [List.mem_singleton.1 he]
    refine packable_of_bounds (sound_layerFile writes) ?_ hfits hm
    rw [Archive.Path.text_cons (List.cons_ne_nil _ _), Archive.Path.text_singleton,
      String.length_append, String.length_append, hlength]
    decide

/-- **Everything in a layout can be packed.** -/
theorem Holds.packable {l : Layout} {contents : List (List UInt8)} (h : l.Holds contents) :
    ∀ e ∈ l.tree.entries, Archive.Tar.Packable e := by
  intro e he
  rcases List.mem_append.1 he with he | he
  · obtain ⟨writes, hmem, he⟩ := List.mem_flatMap.1 he
    exact packable_layerEntries (h.layers writes hmem) h.modified he
  · rcases List.mem_cons.1 he with rfl | he
    · refine packable_of_bounds (sound_singleton (isName_append _ (by decide) (by decide))) ?_
        h.config h.modified
      rw [Archive.Path.text_singleton, configName, String.length_append, nameOf, length_contentName]
      decide
    · rw [List.mem_singleton.1 he]
      refine packable_of_bounds (sound_singleton ⟨by decide, by decide, by decide⟩) ?_ h.index
        (Nat.zero_lt_succ _)
      rw [Archive.Path.text_singleton]
      exact (by decide : Archive.indexFile.length ≤ 100)

/-- No directory is laid out in another one, so the walk gets to all of them. -/
theorem pack_tree (l : Layout) : Archive.Tar.pack? l.tree = some (Archive.Tar.archive l.tree) := by
  refine if_pos (List.all_eq_true.2 fun e he => ?_)
  have hdepth : e.path.length ≤ Archive.Tar.walkLimit := by
    rcases List.mem_append.1 he with he | he
    · obtain ⟨writes, -, he⟩ := List.mem_flatMap.1 he
      rcases List.mem_cons.1 he with rfl | he
      · exact (by decide : 1 ≤ 990)
      · rw [List.mem_singleton.1 he]
        exact (by decide : 2 ≤ 990)
    · rcases List.mem_cons.1 he with rfl | he
      · exact (by decide : 1 ≤ 990)
      · rw [List.mem_singleton.1 he]
        exact (by decide : 1 ≤ 990)
  rw [decide_eq_true hdepth, Bool.or_true]

theorem configName_ne_indexFile (l : Layout) : l.configName ≠ Archive.indexFile := by
  intro h
  have hm : 'm' ∈ l.configName.toList := by
    rw [h]
    decide
  rw [configName, String.toList_append, List.mem_append] at hm
  rcases hm with hm | hm
  · exact absurd (isHashDigit_of_mem_contentName hm) (by decide)
  · exact absurd hm (by decide)

theorem nodup_layerPaths {names : List String} (h : names.Nodup) :
    (names.flatMap fun name => [[name], [name, Archive.layerFile]]).Nodup := by
  refine List.nodup_flatMap.2 ⟨fun name _ => by simp, h.imp fun hne => List.disjoint_left.2 ?_⟩
  intro path hpath hother
  simp only [List.mem_cons, List.not_mem_nil, or_false] at hpath hother
  rcases hpath with rfl | rfl
  · exact hne (by simpa using hother)
  · exact hne (by simpa using hother)

/-- **No path is laid out twice.** -/
theorem Holds.nodup_paths {l : Layout} {contents : List (List UInt8)} (h : l.Holds contents) :
    (l.tree.entries.map (·.path)).Nodup := by
  have hpaths : l.tree.entries.map (·.path) =
      ((l.layers.map nameOf).flatMap fun name => [[name], [name, Archive.layerFile]]) ++
        [[l.configName], [Archive.indexFile]] := by
    rw [tree, List.map_append, List.map_flatMap, List.flatMap_map]
    rfl
  rw [hpaths, List.nodup_append]
  -- a layer's path is no path of the two files: these have characters that are in no hash
  refine ⟨nodup_layerPaths h.distinct, by simpa using l.configName_ne_indexFile, ?_⟩
  intro path hpath other hother heq
  obtain ⟨name, hname, hpath⟩ := List.mem_flatMap.1 hpath
  obtain ⟨writes, _, rfl⟩ := List.mem_map.1 hname
  have hconfig : nameOf writes ≠ l.configName := by
    refine contentName_ne (c := '.') ?_ (by decide)
    rw [configName, String.toList_append]
    exact List.mem_append_right _ (by decide)
  have hindex : nameOf writes ≠ Archive.indexFile := contentName_ne (c := '.') (by decide) (by decide)
  subst heq
  simp only [List.mem_cons, List.not_mem_nil, or_false] at hpath hother
  rcases hpath with rfl | rfl
  · simp [hconfig, hindex] at hother
  · simp at hother

end Layout

/-! ## What is in an archive -/

/-- The items of an image: a directory and a file for each layer, and the files of the configuration
and of the index. -/
def imageItems (layers : List (List UInt8)) (config index : List UInt8) : List Archive.Tar.Item :=
  layers.flatMap (fun content =>
    [(.directory, contentName content, []), (.file, contentName content ++ "/layer.tar", content)]) ++
    [(.file, contentName config ++ ".json", config), (.file, "manifest.json", index)]

/-- An archive holds an image whose layers have these contents, and nothing else: it is read, no two
of its members have the same name, and of the contents with the same hash it has one. -/
def HoldsImage (archive : List UInt8) (contents : List (List UInt8)) (config index : List UInt8) :
    Prop :=
  ∃ members layers, Archive.Tar.read? archive = some members ∧ (members.map (·.name)).Nodup ∧
    (members.map Archive.Tar.Member.item).Perm (imageItems layers config index) ∧
    (layers.map contentName).Nodup ∧ (∀ content ∈ layers, content ∈ contents) ∧
    ∀ content ∈ contents, contentName content ∈ layers.map contentName

theorem text_layerFile (name : String) :
    Archive.Path.text [name, Archive.layerFile] = name ++ "/layer.tar" := by
  rw [Archive.Path.text_cons (List.cons_ne_nil _ _), Archive.Path.text_singleton,
    String.append_assoc]
  rfl

/-- The index names the file of a layer as the archive does. -/
theorem text_layerPath (content : List UInt8) :
    (layerPath (Digest.canonical content)).text = contentName content ++ "/layer.tar" := by
  rw [layerPath, fileStem_canonical, text_layerFile]

theorem Layout.items_tree (l : Layout) :
    l.tree.entries.map Archive.Tar.itemOf =
      imageItems (l.layers.map contentOf) (contentOf l.config) (contentOf l.index) := by
  have hlayer : ∀ writes, (layerEntries l.modified writes).map Archive.Tar.itemOf =
      [(.directory, contentName (contentOf writes), []),
        (.file, contentName (contentOf writes) ++ "/layer.tar", contentOf writes)] := by
    intro writes
    have hdirectory : Archive.Path.text [nameOf writes] = contentName (contentOf writes) :=
      Archive.Path.text_singleton _
    have hfile : Archive.Path.text [nameOf writes, Archive.layerFile] =
        contentName (contentOf writes) ++ "/layer.tar" := text_layerFile _
    rw [← hfile, ← hdirectory]
    rfl
  have hconfig : Archive.Path.text [l.configName] = contentName (contentOf l.config) ++ ".json" :=
    Archive.Path.text_singleton _
  have hindex : Archive.Path.text [Archive.indexFile] = "manifest.json" :=
    Archive.Path.text_singleton _
  rw [Layout.tree, List.map_append, List.map_flatMap, imageItems, List.flatMap_map,
    ← hconfig, ← hindex, funext hlayer]
  rfl

/-- **What is laid out is what a reader of the archive finds.** -/
theorem Layout.Holds.holdsImage {l : Layout} {contents : List (List UInt8)} (h : l.Holds contents) :
    HoldsImage (Archive.Tar.archive l.tree) contents (contentOf l.config) (contentOf l.index) := by
  obtain ⟨members, hread, hnames, hitems⟩ := Archive.Tar.read?_items h.packable h.nodup_paths
  have hlayers : (l.layers.map contentOf).map contentName = l.layers.map nameOf := List.map_map
  rw [l.items_tree] at hitems
  refine ⟨members, l.layers.map contentOf, hread, hnames, hitems, ?_, fun content hmem => ?_, ?_⟩
  · rw [hlayers]
    exact h.distinct
  · obtain ⟨writes, hwrites, rfl⟩ := List.mem_map.1 hmem
    exact h.content writes hwrites
  · rw [hlayers]
    exact h.complete

/-! ## Laying out -/

theorem configFile_canonical (bytes : List UInt8) :
    configFile (Digest.canonical bytes) = contentName bytes ++ ".json" := by
  rw [configFile, fileStem_canonical]

section

variable {base : Disk} {contents : List (List UInt8)} {held : List (Array (List UInt8))}
  {created : Timestamp}

/-- No layer is in the way of a configuration: a dot is no hexadecimal digit. -/
theorem Staged.has_config {modified : Int} {d : Disk} (hbase : ∀ name, base.has (work ++ [name]) = false)
    (hs : Staged base work modified contents held d) (bytes : List UInt8) :
    d.has (work ++ [contentName bytes ++ ".json"]) = false := by
  refine hs.has_eq_false (c := '.') hbase ?_ (by decide)
  rw [String.toList_append]
  exact List.mem_append_right _ (by decide)

/-- And neither a layer nor the configuration is in the way of the index. -/
theorem Staged.has_index {modified later : Int} {d d' : Disk} {stored : Array (List UInt8)}
    (hbase : ∀ name, base.has (work ++ [name]) = false)
    (hs : Staged base work modified contents held d)
    (hd : d' = d.append (.file (work ++ [nameOf stored ++ ".json"]) stored later)) :
    d'.has (work ++ [Archive.indexFile]) = false := by
  rw [hd, Disk.has_append, hs.has_eq_false (c := 'm') hbase (by decide) (by decide),
    ← Disk.under_file, Disk.has_under, Disk.has_file, Bool.false_or, beq_eq_false_iff_ne]
  exact (Layout.configName_ne_indexFile ⟨held, stored, #[], later⟩).symm

/-- **The configuration and the index complete the layout.** -/
theorem layOutIndex_ok {name : String} {config : Json.Members} {diffIds : List String}
    {exported : Exported} (hbase : ∀ name, base.has (work ++ [name]) = false)
    (hs : Staged base work created.epochMicroseconds contents held w.disk) (hc : created.Sound)
    (h : layOutIndex work name created config diffIds w = (.ok exported, w')) :
    ∃ l : Layout, Talk w [] w' ∧ l.Holds contents ∧ l.modified = created.epochMicroseconds ∧
      ImageConfig.bytes (ImageConfig.withDiffIds config diffIds) = .ok (contentOf l.config) ∧
      contentOf l.index = Archive.indexBytes [exported.entry] ∧
      exported = ⟨Digest.canonical (contentOf l.config), diffIds,
        ⟨l.configName, [name], diffIds.map fun d => (layerPath d).text⟩⟩ ∧
      w'.disk = base.append (l.disk.under work) := by
  obtain ⟨bytes, hbytes, h⟩ := ofExcept_bind_ok h
  obtain ⟨_, w₁, hconfig, h⟩ := bind_ok h
  obtain ⟨_, w₂, hindex, h⟩ := bind_ok h
  obtain ⟨hok, rfl⟩ := pure_inv h
  cases hok
  dsimp only at hconfig hindex
  rw [configFile_canonical] at hconfig hindex ⊢
  obtain ⟨ht₁, stored, hfits, rfl, hd₁⟩ := storeFile_ok (hs.has_config hbase bytes) hconfig
  obtain ⟨ht₂, index, hfits', hindex', hd₂⟩ := storeFile_ok (hs.has_index hbase hd₁) hindex
  refine ⟨⟨held, stored, index, created.epochMicroseconds⟩, ht₁.trans ht₂, ⟨hs.distinct, hs.content,
    hs.complete, hs.order, hs.fits, hfits, hfits', hc.natAbs_epochMicroseconds_lt⟩, rfl, hbytes,
    hindex', rfl, ?_⟩
  rw [hd₂, hd₁, hs.disk, Disk.append_append, Disk.append_append, Layout.disk, Disk.under_append,
    Disk.under_append, Disk.under_file, Disk.under_file]
  rfl

end

/-! ## The whole export -/

/-- Exchanges that serve an image: its configuration, and then its layers in order. These are the
members of the configuration and what the layers hold. -/
def ServesImage (decoders : Compression.Decoders) (s : Settings) (ref : Reference) (m : Manifest)
    (config : Json.Members) (contents : List (List UInt8)) (d : Dialogue) : Prop :=
  ∃ descriptor layers response parts, m.config = .ok descriptor ∧ m.layers = .ok layers ∧
    d = (blobRequest s ref descriptor.digest configMediaTypes, .response response) :: parts ∧
    response.status = 200 ∧ response.broken = none ∧ ImageConfig.ofBytes response.body = .ok config ∧
    ServesLayers decoders s ref layers contents parts

/-- What an export of these layers gives back, under a name and with these bytes as its
configuration. -/
def exportedOf (name : String) (contents : List (List UInt8)) (config : List UInt8) : Exported where
  configDigest := "sha256:" ++ contentName config
  diffIds := contents.map fun content => "sha256:" ++ contentName content
  entry := {
    config := contentName config ++ ".json"
    names := [name]
    layers := contents.map fun content => contentName content ++ "/layer.tar" }

/-- A configuration that was fetched is the body of the response to a single request. -/
theorem fetchConfig_ok {m : Manifest} {config : Json.Members}
    (h : fetchConfig s policy ref m w = (.ok config, w')) :
    ∃ descriptor response, m.config = .ok descriptor ∧
      Talk w [(blobRequest s ref descriptor.digest configMediaTypes, .response response)] w' ∧
      Untouched w w' ∧ response.status = 200 ∧ response.broken = none ∧
      ImageConfig.ofBytes response.body = .ok config := by
  have hu := (keeps_fetchConfig untouched_online.serving untouched_heedless m).rel h
  obtain ⟨descriptor, hdescriptor, h⟩ := ofExcept_bind_ok h
  obtain ⟨bytes, w₁, hblob, h⟩ := bind_ok h
  obtain ⟨v, hread, ht₁, _⟩ := warnOnFailure_talk hblob
  obtain ⟨response, ht, _, hs, hbroken, rfl⟩ := readBlob_ok hread
  obtain ⟨algorithm, _, h⟩ := ofExcept_bind_ok h
  obtain ⟨_, w₂, hcheck, h⟩ := bind_ok h
  have ht₂ : Talk w₁ [] w₂ := (keeps_checkDigest silent_heedless _ _ _).rel hcheck
  obtain ⟨hconfig, rfl⟩ := ofExcept_ok h
  exact ⟨descriptor, response, hdescriptor, (ht.before ht₁).before ht₂, hu, hs, hbroken, hconfig⟩

/-- **An image is laid out as it is served.** -/
theorem layOutImage_ok {name : String} {m : Manifest} {listens : Bool} {exported : Exported}
    (hfree : ∀ name, w.disk.has (work ++ [name]) = false)
    (h : layOutImage decoders s policy ref name m listens work w = (.ok exported, w')) :
    ∃ (d : Dialogue) (config : Json.Members) (contents : List (List UInt8)) (l : Layout),
      Talk w d w' ∧ ServesImage decoders s ref m config contents d ∧ l.Holds contents ∧
      l.modified = (ImageConfig.created config).epochMicroseconds ∧
      ImageConfig.bytes (ImageConfig.withDiffIds config exported.diffIds) =
        .ok (contentOf l.config) ∧
      contentOf l.index = Archive.indexBytes [exported.entry] ∧
      exported = exportedOf name contents (contentOf l.config) ∧
      w'.disk = w.disk.append (l.disk.under work) := by
  obtain ⟨config, w₁, hconfig, h⟩ := bind_ok h
  obtain ⟨descriptor, response, hdescriptor, ht₁, hu₁, hs, hbroken, hmembers⟩ :=
    fetchConfig_ok hconfig
  obtain ⟨layers, hlayers, h⟩ := ofExcept_bind_ok h
  obtain ⟨diffIds, w₂, hstage, h⟩ := bind_ok h
  have hstart : Staged w.disk work (ImageConfig.created config).epochMicroseconds [] [] w₁.disk :=
    ⟨hu₁.disk.trans w.disk.append_empty.symm, nofun, nofun, List.nodup_nil, nofun, rfl⟩
  obtain ⟨parts, contents, held, ht₂, hparts, rfl, hstaged⟩ := stageLayers_ok hfree hstart hstage
  obtain ⟨l, ht₃, hholds, hmodified, hbytes, hindex, hexported, hdisk⟩ :=
    layOutIndex_ok hfree hstaged (Timestamp.sound_ofValue _) h
  refine ⟨_, config, contents, l, (ht₁.trans ht₂).before ht₃,
    ⟨descriptor, layers, response, parts, hdescriptor, hlayers, rfl, hs, hbroken, hmembers, hparts⟩,
    hholds, hmodified, ?_, hindex, ?_, hdisk⟩
  · rw [hexported]
    exact hbytes
  · have hids : contents.map Digest.canonical =
        contents.map fun content => "sha256:" ++ contentName content :=
      List.map_congr_left fun content _ => canonical_eq content
    have hfiles : (contents.map Digest.canonical).map (fun d => (layerPath d).text) =
        contents.map fun content => contentName content ++ "/layer.tar" := by
      rw [List.map_map]
      exact List.map_congr_left fun content _ => text_layerPath content
    rw [hexported, hfiles, hids, canonical_eq]
    rfl

/-- What is laid out in a directory that was just made is packed, as far as the walk is concerned. -/
theorem layOutImage_below {base : Disk} {name : String} {m : Manifest} {listens : Bool}
    {exported : Exported} (hfree : base.has work = false) (hmade : w.disk = base.makeDirectory work)
    (h : layOutImage decoders s policy ref name m listens work w = (.ok exported, w')) :
    ∃ (d : Dialogue) (config : Json.Members) (contents : List (List UInt8)) (l : Layout),
      Talk w d w' ∧ ServesImage decoders s ref m config contents d ∧ l.Holds contents ∧
      l.modified = (ImageConfig.created config).epochMicroseconds ∧
      ImageConfig.bytes (ImageConfig.withDiffIds config exported.diffIds) =
        .ok (contentOf l.config) ∧
      contentOf l.index = Archive.indexBytes [exported.entry] ∧
      exported = exportedOf name contents (contentOf l.config) ∧
      w'.disk.below work = l.tree := by
  have hempty : ∀ name, w.disk.has (work ++ [name]) = false := by
    intro name
    rw [hmade, Disk.has_makeDirectory]
    exact Disk.has_of_prefix (List.prefix_append _ _) hfree
  obtain ⟨d, config, contents, l, ht, hd, hholds, hmodified, hbytes, hindex, hexported, hdisk⟩ :=
    layOutImage_ok hempty h
  refine ⟨d, config, contents, l, ht, hd, hholds, hmodified, hbytes, hindex, hexported, ?_⟩
  rw [hdisk, hmade, Disk.below_makeDirectory hfree, Disk.below_under, l.below_disk]

/-- **An export that gives a value has laid out what it was served**, and has packed the layout. -/
theorem exportImage_talk {policy : Option IntegrityPolicy} {listens : Bool} {exported : Exported}
    (h : exportImage decoders s policy ref listens w = (.ok exported, w')) :
    ∃ (name : String) (m : Manifest) (a : Answer) (d : Dialogue) (config : Json.Members)
      (contents : List (List UInt8)) (l : Layout),
      ref.commonName = some name ∧ a.Serves m ∧ Talk w ((manifestRequest s ref, a) :: d) w' ∧
      ServesImage decoders s ref m config contents d ∧ l.Holds contents ∧
      ImageConfig.bytes (ImageConfig.withDiffIds config exported.diffIds) =
        .ok (contentOf l.config) ∧
      contentOf l.index = Archive.indexBytes [exported.entry] ∧
      exported = exportedOf name contents (contentOf l.config) ∧
      w'.sink.bytes = w.sink.bytes ++ Archive.Tar.archive l.tree := by
  rcases exportImage_cases h with ⟨⟨_, he⟩, _⟩ | hstaged
  · cases he
  obtain ⟨name, m, a, w₁, w₂, r, hname, ht₁, hu₁, hserves, hstage, ht₂, hu₂, hr⟩ := hstaged
  rcases hr with ⟨_, _, _, he⟩ | ⟨exported', hexported, hok⟩
  · cases he
  cases hok
  obtain ⟨_, ⟨⟨e, he⟩, _⟩ | ⟨_, work, w₃, w₄, hok', hp, hfree, hmade, hlay, ht₃, hsink⟩⟩ :=
    stageImage_cases hstage
  · exact absurd (hexported.symm.trans he) nofun
  cases hexported.symm.trans hok'
  obtain ⟨d, config, contents, l, ht₄, hd, hholds, _, hbytes, hindex, hexp, htree⟩ :=
    layOutImage_below hfree hmade hlay
  have ht := (((ht₁.before hp.talk).trans ht₄).before ht₃).before ht₂
  refine ⟨name, m, a, d, config, contents, l, hname, hserves, ht, hd, hholds, hbytes, hindex, hexp,
    ?_⟩
  rw [hu₂.sink, hsink, htree, hu₁.sink]

/-- The same by the dialogue of the export. -/
theorem exportImage_ok {policy : Option IntegrityPolicy} {listens : Bool} {exported : Exported}
    (h : exportImage decoders s policy ref listens w = (.ok exported, w')) :
    ∃ (name : String) (m : Manifest) (a : Answer) (d : Dialogue) (config : Json.Members)
      (contents : List (List UInt8)) (l : Layout),
      ref.commonName = some name ∧ a.Serves m ∧ w.dialogue w' = (manifestRequest s ref, a) :: d ∧
      ServesImage decoders s ref m config contents d ∧ l.Holds contents ∧
      ImageConfig.bytes (ImageConfig.withDiffIds config exported.diffIds) =
        .ok (contentOf l.config) ∧
      contentOf l.index = Archive.indexBytes [exported.entry] ∧
      exported = exportedOf name contents (contentOf l.config) ∧
      w'.sink.bytes = w.sink.bytes ++ Archive.Tar.archive l.tree := by
  obtain ⟨name, m, a, d, config, contents, l, hname, hserves, ht, h⟩ := exportImage_talk h
  exact ⟨name, m, a, d, config, contents, l, hname, hserves, ht.dialogue_eq, h⟩

/-- **The archive that is written holds the image that is served.** An export that gives a value has
been served the manifest, the configuration and each layer. Its diff IDs are the digests of what the
layers hold, in order, and it has written an archive of exactly the files that its entry names. -/
theorem exportImage_holdsImage (decoders : Compression.Decoders) (s : Settings)
    (policy : Option IntegrityPolicy) (ref : Reference) (listens : Bool) (w : World) :
    let run := exportImage decoders s policy ref listens w
    (∃ e, run.1 = .error e) ∨
      ∃ name m a d config contents bytes archive index exported,
        ref.commonName = some name ∧ a.Serves m ∧
        w.dialogue run.2 = (manifestRequest s ref, a) :: d ∧
        ServesImage decoders s ref m config contents d ∧
        run.1 = .ok exported ∧ exported = exportedOf name contents bytes ∧
        ImageConfig.bytes (ImageConfig.withDiffIds config exported.diffIds) = .ok bytes ∧
        run.2.sink.bytes = w.sink.bytes ++ archive ∧
        HoldsImage archive contents bytes index ∧
        Json.readDocument index = .ok (.array [exported.entry.value]) := by
  intro run
  have hrun : exportImage decoders s policy ref listens w = (run.1, run.2) := rfl
  rcases hresult : run.1 with e | exported
  · exact .inl ⟨e, rfl⟩
  right
  rw [hresult] at hrun
  obtain ⟨name, m, a, d, config, contents, l, hname, hserves, hdialogue, hd, hholds, hbytes, hindex,
    hexp, hsink⟩ := exportImage_ok hrun
  refine ⟨name, m, a, d, config, contents, contentOf l.config, Archive.Tar.archive l.tree,
    contentOf l.index, exported, hname, hserves, hdialogue, hd, rfl, hexp, hbytes, hsink,
    hholds.holdsImage, ?_⟩
  rw [hindex]
  exact Archive.readDocument_indexBytes _

end ImageTransfer.Transfer
