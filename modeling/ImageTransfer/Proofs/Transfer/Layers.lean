import ImageTransfer.Proofs.Compression.Stream
import ImageTransfer.Proofs.Digest.Digester
import ImageTransfer.Proofs.Digest.Hashes
import ImageTransfer.Proofs.Transfer.Staging
import Mathlib.Data.List.Nodup

/-!
# Layers of an export

A layer is downloaded into a directory of its own, decoded and hashed on its way. While it comes, its
file holds what the bytes so far decode to (`Receiving`), so in the end it holds what the blob
decodes to, and the diff ID is the digest of that. The directory then gets the name of the hash,
unless that is there already.

After some layers the directory to work in holds one directory for each diff ID so far, whichever
layers had it and however they were compressed. `Staged` says so, a layer keeps it up
(`Staged.stageLayer`), and so do all of them (`stageLayers_ok`).
-/

namespace ImageTransfer.Transfer

open Exchange Registry

variable {decoders : Compression.Decoders} {s : Settings} {ref : Reference}
  {policy : IntegrityPolicy} {work : Archive.Path} {created : Timestamp} {w w' : World}

/-! ## Names -/

/-- The SHA-256 hash of content in hexadecimal digits. It names the files that hold the content. -/
def contentName (content : List UInt8) : String :=
  String.ofList (Digest.hexOfBytes (Digest.sha256.hash content))

theorem toList_contentName (content : List UInt8) :
    (contentName content).toList = Digest.hexOfBytes (Digest.sha256.hash content) :=
  String.toList_ofList

theorem length_contentName (content : List UInt8) : (contentName content).length = 64 := by
  rw [← String.length_toList, toList_contentName, Digest.length_hexOfBytes]
  exact congrArg (2 * ·) (Digest.Algorithm.length_hash .sha256 content)

theorem canonical_eq (content : List UInt8) :
    Digest.canonical content = "sha256:" ++ contentName content := by
  have hdigest : (Digest.canonical content).toList =
      "sha256".toList ++ ':' :: Digest.hexOfBytes (Digest.sha256.hash content) := String.toList_ofList
  rw [← String.toList_inj, hdigest, String.toList_append, toList_contentName]
  rfl

theorem fileStem_canonical (content : List UInt8) :
    fileStem (Digest.canonical content) = contentName content := by
  rw [fileStem, Digest.canonical, Digest.ofBytes, Digest.hashPart_write]
  rfl

theorem isHashDigit_of_mem_contentName {content : List UInt8} {c : Char}
    (hc : c ∈ (contentName content).toList) : Digest.isHashDigit c = true := by
  rw [toList_contentName] at hc
  exact Digest.isHashDigit_of_mem_hexOfBytes hc

/-- No name with another character is the name of content. -/
theorem contentName_ne {content : List UInt8} {name : String} {c : Char} (hc : c ∈ name.toList)
    (hd : Digest.isHashDigit c = false) : contentName content ≠ name := by
  intro h
  rw [isHashDigit_of_mem_contentName (h ▸ hc)] at hd
  exact absurd hd (by decide)

/-! ## One layer -/

theorem LayerIntake.absorb_ok {l l' : LayerIntake decoders} {piece output : List UInt8}
    (h : l.absorb piece = .ok (l', output)) :
    l'.decoded = l.decoded.update output ∧
      ∃ bytes : Array UInt8, l.stream.feed piece = .ok (l'.stream, bytes) ∧ output = bytes.toList := by
  obtain ⟨served, decoded, stream⟩ := l
  unfold LayerIntake.absorb at h
  dsimp only at h
  split at h
  · rename_i t bytes hfeed
    cases h
    exact ⟨rfl, bytes, hfeed, rfl⟩
  · exact absurd h nofun

theorem LayerIntake.close_ok {l l' : LayerIntake decoders} {output : List UInt8}
    (h : l.close = .ok (l', output)) :
    l'.decoded = l.decoded.update output ∧
      ∃ bytes : Array UInt8, l.stream.close = .ok (l'.stream, bytes) ∧ output = bytes.toList := by
  obtain ⟨served, decoded, stream⟩ := l
  unfold LayerIntake.close at h
  dsimp only at h
  split at h
  · rename_i t bytes hclose
    cases h
    exact ⟨rfl, bytes, hclose, rfl⟩
  · exact absurd h nofun

/-- What is received is added to the file. -/
theorem receive_ok {file : Archive.Path} {next : Except Failure (LayerIntake decoders × List UInt8)}
    {intake : LayerIntake decoders} (h : receive file next w = (.ok intake, w')) :
    ∃ output, next = .ok (intake, output) ∧ appendFile file output w = (.ok (), w') := by
  obtain ⟨⟨l, output⟩, hnext, h⟩ := ofExcept_bind_ok h
  obtain ⟨_, w₁, happend, h⟩ := bind_ok h
  obtain ⟨hok, rfl⟩ := pure_inv h
  cases hok
  exact ⟨output, hnext, happend⟩

/-- A layer of which some of the content has come: the file has it, and it is hashed. Nothing was said
since an earlier world. -/
structure Receiving (d : Disk) (file : Archive.Path) (earlier : World) (content : List UInt8)
    (intake : LayerIntake decoders) (w : World) : Prop where
  talk : Talk earlier [] w
  decoded : intake.decoded = (Digest.Digester.start .canonical).update content
  disk : ∃ writes, Fits writes ∧ writes.toList.flatten = content ∧
    w.disk = d.append (.file file writes 0)

theorem Receiving.append {d : Disk} {file : Archive.Path} {earlier : World}
    {content output : List UInt8} {l l' : LayerIntake decoders}
    (hr : Receiving d file earlier content l w) (hd : d.has file = false)
    (hl : l'.decoded = l.decoded.update output)
    (h : appendFile file output w = (.ok (), w')) :
    Receiving d file earlier (content ++ output) l' w' := by
  obtain ⟨writes, hfits, hcontent, hdisk⟩ := hr.disk
  obtain ⟨ht, writes', hfits', hcontent', hdisk'⟩ := appendFile_ok hd hdisk hfits h
  refine ⟨hr.talk.trans ht, ?_, writes', hfits', ?_, hdisk'⟩
  · rw [hl, hr.decoded, Digest.Digester.update_update]
  · rw [hcontent', hcontent]

/-- What happens without a request and leaves the disk alone does not matter. -/
theorem Receiving.later {d : Disk} {file : Archive.Path} {earlier : World} {content : List UInt8}
    {l : LayerIntake decoders} (hr : Receiving d file earlier content l w) (ht : Talk w [] w')
    (hd : w'.disk = w.disk) : Receiving d file earlier content l w' :=
  ⟨hr.talk.trans ht, hr.decoded, by rw [hd]; exact hr.disk⟩

/-- An exchange that serves the whole blob of a layer, and what the blob holds. -/
def ServesLayer (decoders : Compression.Decoders) (s : Settings) (ref : Reference) (digest : String)
    (content : List UInt8) (p : Request × Answer) : Prop :=
  ∃ response, p = (blobRequest s ref digest [], .response response) ∧ response.status = 200 ∧
    response.broken = none ∧
    Compression.Decompressed decoders response.body content

/-- **A layer that was received is in its file, decoded**, and its digest is known. -/
theorem receiveLayer_ok {digest : String} {file : Archive.Path} {intake : LayerIntake decoders}
    (hfree : w.disk.has file = false)
    (h : receiveLayer decoders s ref digest file w = (.ok intake, w')) :
    ∃ p content writes, Talk w [p] w' ∧ ServesLayer decoders s ref digest content p ∧
      intake.decoded.digest = Digest.canonical content ∧ Fits writes ∧
      writes.toList.flatten = content ∧ w'.disk = w.disk.append (.file file writes 0) := by
  obtain ⟨algorithm, _, h⟩ := ofExcept_bind_ok h
  obtain ⟨_, w₁, hcreate, h⟩ := bind_ok h
  obtain ⟨ht₁, hd₁⟩ := changeDisk_ok hcreate
  rw [Disk.createFile_of_not_has hfree] at hd₁
  obtain ⟨l, w₄, hfold, hclose⟩ := bind_ok h
  obtain ⟨response, w₂, w₃, ht₂, hu₂, hstatus, hbroken, hsteps, rfl⟩ := foldBlob_ok hfold
  -- piece by piece, the stream has decoded what the file holds
  have hreceived := foldlM_ok
    (P := fun seen (l : LayerIntake decoders) v => ∃ content,
      Receiving w.disk file w₂ content l v ∧ Compression.Stream.Fed seen.flatten l.stream content)
    (fun ⟨content, hr, hfed⟩ hstep => by
      obtain ⟨output, habsorb, happend⟩ := receive_ok hstep
      obtain ⟨hdecoded, bytes, hfeed, rfl⟩ := LayerIntake.absorb_ok habsorb
      refine ⟨_, hr.append hfree hdecoded happend, ?_⟩
      rw [List.flatten_append, List.flatten_singleton]
      exact hfed.feed hfeed)
    (s := LayerIntake.start decoders algorithm)
    ⟨[], ⟨.refl w₂, rfl, #[], Nat.zero_le _, rfl, hu₂.disk.trans hd₁⟩,
      Compression.Stream.fed_start⟩ hsteps
  obtain ⟨content, hr, hfed⟩ := hreceived
  rw [Chunks.flatten_slices s.readChunkSize_pos] at hfed
  obtain ⟨output, hok, happend⟩ := receive_ok hclose
  obtain ⟨hdecoded, bytes, hlast, rfl⟩ := LayerIntake.close_ok hok
  have hr' := (hr.later (.note w₃ rfl) rfl).append hfree hdecoded happend
  obtain ⟨writes, hfits, hcontent, hd₃⟩ := hr'.disk
  refine ⟨_, _, writes, (ht₁.after ht₂).before hr'.talk, ⟨response, rfl, hstatus, hbroken,
    hfed.decompressed hlast⟩, ?_, hfits, hcontent, hd₃⟩
  rw [hr'.decoded]
  exact Digest.Digester.digest_update _ _

/-- The directory of a layer, with the file of these writes in it. -/
def layerDisk (place : Archive.Path) (writes : Array (List UInt8)) (modified : Int) : Disk :=
  Disk.append ⟨[⟨place, .directory, modified⟩]⟩ (.file (place ++ [Archive.layerFile]) writes modified)

section

variable {staging place : Archive.Path} {writes : Array (List UInt8)}

theorem remove_layerDisk (place : Archive.Path) (writes : Array (List UInt8)) (modified : Int) :
    (layerDisk place writes modified).remove place = .empty := by
  have hplace : place.isPrefixOf place = true := List.isPrefixOf_iff_prefix.2 (List.prefix_refl _)
  have hfile : place.isPrefixOf (place ++ [Archive.layerFile]) = true :=
    List.isPrefixOf_iff_prefix.2 (List.prefix_append _ _)
  simp [layerDisk, Disk.append, Disk.file, Disk.remove, Disk.Entry.isWithin, Disk.empty, hplace,
    hfile]

theorem move_layerDisk (staging place : Archive.Path) (writes : Array (List UInt8))
    (modified : Int) :
    (layerDisk staging writes modified).move staging place = layerDisk place writes modified := by
  simp [layerDisk, Disk.append, Disk.file, Disk.move, Disk.Entry.isWithin, Disk.Entry.move]

/-- The file gets its time, and then the directory does. -/
theorem setModified_layerDisk (place : Archive.Path) (writes : Array (List UInt8))
    (modified later : Int) :
    ((layerDisk place writes modified).setModified (place ++ [Archive.layerFile]) later).setModified
      place later = layerDisk place writes later := by
  simp [layerDisk, Disk.append, Disk.file, Disk.setModified]

/-- A layer gets its place, or goes if the place is taken. -/
theorem settleLayer_ok {d : Disk} (hstaging : d.has staging = false)
    (hw : w.disk = d.append (layerDisk staging writes 0))
    (hapart : (layerDisk staging writes 0).has place = false)
    (h : settleLayer staging place created w = (.ok (), w')) :
    Talk w [] w' ∧
      w'.disk = if d.has place = true then d
        else d.append (layerDisk place writes created.epochMicroseconds) := by
  obtain ⟨stored, w₁, hstored, h⟩ := bind_ok h
  obtain ⟨hs, rfl⟩ := isStored_inv hstored
  cases hs
  rw [hw, Disk.has_append, hapart, Bool.or_false] at h
  cases hplace : d.has place with
  | true =>
      rw [hplace, if_pos rfl] at h
      obtain ⟨ht, hd⟩ := changeDisk_ok h
      refine ⟨ht, ?_⟩
      rw [if_pos rfl, hd, hw, Disk.append_remove hstaging, remove_layerDisk, Disk.append_empty]
  | false =>
      rw [hplace] at h
      obtain ⟨_, w₂, hmove, h⟩ := bind_ok h
      obtain ⟨ht₂, hd₂⟩ := changeDisk_ok hmove
      obtain ⟨_, w₃, hset, h⟩ := bind_ok h
      obtain ⟨ht₃, hd₃⟩ := changeDisk_ok hset
      obtain ⟨ht₄, hd₄⟩ := changeDisk_ok h
      have hfile : d.has (place ++ [Archive.layerFile]) = false :=
        Disk.has_of_prefix (List.prefix_append _ _) hplace
      refine ⟨(ht₂.trans ht₃).trans ht₄, ?_⟩
      rw [if_neg (by decide), hd₄, hd₃, hd₂, hw, Disk.append_move hstaging, move_layerDisk,
        Disk.append_setModified hfile, Disk.append_setModified hplace, setModified_layerDisk]

end

theorem under_layerDisk (work place : Archive.Path) (writes : Array (List UInt8)) (modified : Int) :
    (layerDisk place writes modified).under work = layerDisk (work ++ place) writes modified := by
  simp [layerDisk, Disk.append, Disk.file, Disk.under]

theorem has_layerDisk (name other : String) (writes : Array (List UInt8)) (modified : Int) :
    (layerDisk [name] writes modified).has [other] = (other == name) := by
  simp [layerDisk, Disk.append, Disk.file, Disk.has, Disk.Entry.isWithin, List.isPrefixOf]

/-- **A layer that was staged is in the directory of its diff ID**, now or from before. -/
theorem stageLayer_ok {digest diffId : String}
    (h : stageLayer decoders s policy ref created work digest w = (.ok diffId, w')) :
    ∃ p content writes, Talk w [p] w' ∧ ServesLayer decoders s ref digest content p ∧
      diffId = Digest.canonical content ∧ Fits writes ∧ writes.toList.flatten = content ∧
      w'.disk = if w.disk.has (work ++ [contentName content]) = true then w.disk
        else w.disk.append
          (layerDisk (work ++ [contentName content]) writes created.epochMicroseconds) := by
  obtain ⟨staging, w₁, hnew, h⟩ := bind_ok h
  obtain ⟨ht₁, name, hstaging, hfree, hd₁⟩ := newDirectory_ok hnew
  obtain ⟨intake, w₂, hreceive, h⟩ := bind_ok h
  have hfile : w₁.disk.has (staging ++ [Archive.layerFile]) = false := by
    rw [hd₁, Disk.has_makeDirectory]
    exact Disk.has_of_prefix (List.prefix_append _ _) hfree
  obtain ⟨p, content, writes, ht₂, hserved, hdigest, hfits, hcontent, hd₂⟩ :=
    receiveLayer_ok hfile hreceive
  replace hd₂ : w₂.disk = w.disk.append (layerDisk staging writes 0) := by
    rw [hd₂, hd₁, Disk.makeDirectory_eq, Disk.append_append]
    rfl
  obtain ⟨_, w₃, hcheck, h⟩ := bind_ok h
  have ht₃ : Talk w₂ [] w₃ := (keeps_checkDigest silent_heedless _ _ _).rel hcheck
  have hu₃ : Untouched w₂ w₃ := (keeps_checkDigest untouched_heedless _ _ _).rel hcheck
  obtain ⟨_, w₄, hsettle, h⟩ := bind_ok h
  rw [hdigest] at hsettle h
  rw [fileStem_canonical] at hsettle
  -- the name of a provisional directory begins with an l, which is no hexadecimal digit
  have hapart : (layerDisk staging writes 0).has (work ++ [contentName content]) = false := by
    rw [hstaging, ← under_layerDisk, Disk.has_under, has_layerDisk, beq_eq_false_iff_ne]
    refine contentName_ne (c := 'l') ?_ (by decide)
    rw [String.toList_append]
    exact List.mem_append_left _ (by decide)
  obtain ⟨ht₄, hd₄⟩ := settleLayer_ok hfree (hu₃.disk.trans hd₂) hapart hsettle
  obtain ⟨w₅, ht₅, hu₅, h⟩ := note_bind rfl h
  obtain ⟨hok, rfl⟩ := pure_inv h
  cases hok
  refine ⟨p, content, writes, ?_, hserved, rfl, hfits, hcontent, hu₅.disk.trans hd₄⟩
  exact (((ht₁.after ht₂).before ht₃).before ht₄).before ht₅

/-! ## All layers -/

/-- The content of a file that has these writes. -/
def contentOf (writes : Array (List UInt8)) : List UInt8 := writes.toList.flatten

/-- What the directory of a layer is named whose file has these writes. -/
def nameOf (writes : Array (List UInt8)) : String := contentName (contentOf writes)

/-- The directories of layers that have these files. -/
def layersDisk (held : List (Array (List UInt8))) (modified : Int) : Disk :=
  ⟨held.flatMap fun writes => (layerDisk [nameOf writes] writes modified).entries⟩

theorem layersDisk_concat (held : List (Array (List UInt8))) (writes : Array (List UInt8))
    (modified : Int) :
    layersDisk (held ++ [writes]) modified =
      (layersDisk held modified).append (layerDisk [nameOf writes] writes modified) := by
  simp [layersDisk, Disk.append]

theorem has_layersDisk (held : List (Array (List UInt8))) (modified : Int) (name : String) :
    (layersDisk held modified).has [name] = true ↔ name ∈ held.map nameOf := by
  rw [Disk.has, layersDisk, List.any_flatMap, List.any_eq_true, List.mem_map]
  refine exists_congr fun writes => and_congr_right fun _ => ?_
  show (layerDisk _ writes modified).has _ = true ↔ _
  rw [has_layerDisk, beq_iff_eq]
  exact eq_comm

/-- Contents without those whose hash has come before. -/
def firsts (contents : List (List UInt8)) : List (List UInt8) :=
  contents.foldl (fun seen content =>
    if contentName content ∈ seen.map contentName then seen else seen ++ [content]) []

theorem firsts_concat (contents : List (List UInt8)) (content : List UInt8) :
    firsts (contents ++ [content]) =
      if contentName content ∈ (firsts contents).map contentName then firsts contents
      else firsts contents ++ [content] := by
  rw [firsts, List.foldl_append]
  rfl

/-- The layers that are laid out below a path are those that held these contents. -/
structure Staged (base : Disk) (work : Archive.Path) (modified : Int) (contents : List (List UInt8))
    (held : List (Array (List UInt8))) (d : Disk) : Prop where
  disk : d = base.append ((layersDisk held modified).under work)
  fits : ∀ writes ∈ held, Fits writes
  content : ∀ writes ∈ held, contentOf writes ∈ contents
  /-- No name is given twice. -/
  distinct : (held.map nameOf).Nodup
  /-- None is missing. -/
  complete : ∀ content ∈ contents, contentName content ∈ held.map nameOf
  order : held.map contentOf = firsts contents

/-- Exchanges that serve the blobs of layers in order, and what the blobs hold. -/
inductive ServesLayers (decoders : Compression.Decoders) (s : Settings) (ref : Reference) :
    List Descriptor → List (List UInt8) → Dialogue → Prop
  | nil : ServesLayers decoders s ref [] [] []
  | cons {layer : Descriptor} {layers : List Descriptor} {content : List UInt8}
      {contents : List (List UInt8)} {p : Request × Answer} {parts : Dialogue} :
      ServesLayer decoders s ref layer.digest content p →
        ServesLayers decoders s ref layers contents parts →
          ServesLayers decoders s ref (layer :: layers) (content :: contents) (p :: parts)

section

variable {base : Disk} {contents : List (List UInt8)} {held : List (Array (List UInt8))}

/-- A further layer is laid out, unless there is one with its diff ID. -/
theorem Staged.stageLayer {digest diffId : String} (hbase : ∀ name, base.has (work ++ [name]) = false)
    (hs : Staged base work created.epochMicroseconds contents held w.disk)
    (h : stageLayer decoders s policy ref created work digest w = (.ok diffId, w')) :
    ∃ p content held', Talk w [p] w' ∧ ServesLayer decoders s ref digest content p ∧
      diffId = Digest.canonical content ∧
      Staged base work created.epochMicroseconds (contents ++ [content]) held' w'.disk := by
  obtain ⟨p, content, writes, ht, hserved, rfl, hfits, hcontent, hdisk⟩ := stageLayer_ok h
  have hplace : w.disk.has (work ++ [contentName content]) = true ↔
      contentName content ∈ held.map nameOf := by
    rw [hs.disk, Disk.has_append, hbase, Bool.false_or, Disk.has_under, has_layersDisk]
  have hseen : (firsts contents).map contentName = held.map nameOf := by
    rw [← hs.order, List.map_map]
    rfl
  by_cases hmem : contentName content ∈ held.map nameOf
  · -- the same content has come before, or another one with the same hash
    rw [if_pos (hplace.2 hmem)] at hdisk
    refine ⟨p, content, held, ht, hserved, rfl, hdisk.trans hs.disk, hs.fits,
      fun other hother => List.mem_append_left _ (hs.content other hother), hs.distinct,
      fun other hother => ?_, by rw [firsts_concat, hseen, if_pos hmem, hs.order]⟩
    rcases List.mem_append.1 hother with hother | hother
    · exact hs.complete other hother
    · exact List.mem_singleton.1 hother ▸ hmem
  · rw [if_neg fun h => hmem (hplace.1 h)] at hdisk
    have hname : nameOf writes = contentName content := by rw [nameOf, contentOf, hcontent]
    refine ⟨p, content, held ++ [writes], ht, hserved, rfl, ?_, ?_, ?_, ?_, ?_, ?_⟩
    · rw [hdisk, hs.disk, Disk.append_append, layersDisk_concat, Disk.under_append, under_layerDisk,
        hname]
    · intro other hother
      rcases List.mem_append.1 hother with hother | hother
      · exact hs.fits other hother
      · exact List.mem_singleton.1 hother ▸ hfits
    · intro other hother
      rcases List.mem_append.1 hother with hother | hother
      · exact List.mem_append_left _ (hs.content other hother)
      · rw [List.mem_singleton.1 hother, contentOf, hcontent]
        exact List.mem_append_right _ List.mem_cons_self
    · rw [List.map_append, List.map_singleton, hname, ← List.concat_eq_append]
      exact hs.distinct.concat hmem
    · intro other hother
      rw [List.map_append, List.map_singleton, hname]
      rcases List.mem_append.1 hother with hother | hother
      · exact List.mem_append_left _ (hs.complete other hother)
      · rw [List.mem_singleton.1 hother]
        exact List.mem_append_right _ List.mem_cons_self
    · rw [firsts_concat, hseen, if_neg hmem, List.map_append, List.map_singleton, hs.order,
        contentOf, hcontent]

/-- **Staging lays out all layers**, each diff ID once, and gives the diff IDs in order. -/
theorem stageLayers_ok {listens : Bool} {total index : Int} {layers : List Descriptor}
    {diffIds : List String} (hbase : ∀ name, base.has (work ++ [name]) = false)
    (hs : Staged base work created.epochMicroseconds contents held w.disk)
    (h : stageLayers decoders s policy ref created work listens total index layers w =
      (.ok diffIds, w')) :
    ∃ parts more held', Talk w parts w' ∧ ServesLayers decoders s ref layers more parts ∧
      diffIds = more.map Digest.canonical ∧
      Staged base work created.epochMicroseconds (contents ++ more) held' w'.disk := by
  induction layers generalizing index w held contents diffIds with
  | nil =>
      obtain ⟨hok, rfl⟩ := pure_inv h
      cases hok
      refine ⟨[], [], held, .refl w', .nil, rfl, ?_⟩
      rwa [List.append_nil]
  | cons layer layers ih =>
      obtain ⟨w₁, ht₁, hu₁, h⟩ := note_bind rfl h
      obtain ⟨diffId, w₂, hlayer, h⟩ := bind_ok h
      obtain ⟨v, hstage, ht₂, hu₂⟩ := warnOnFailure_talk hlayer
      obtain ⟨p, content, held₁, ht₃, hserved, rfl, hs₁⟩ :=
        Staged.stageLayer hbase (by rw [hu₁.disk]; exact hs) hstage
      obtain ⟨_, w₃, hreport, h⟩ := bind_ok h
      have ht₄ : Talk w₂ [] w₃ := (keeps_report (F := silent) _ _ _ _).rel hreport
      have hu₄ : Untouched w₂ w₃ := (keeps_report (F := untouched) _ _ _ _).rel hreport
      obtain ⟨rest, w₄, hrest, h⟩ := bind_ok h
      obtain ⟨hok, rfl⟩ := pure_inv h
      cases hok
      obtain ⟨parts, more, held', ht₅, hparts, rfl, hs'⟩ :=
        ih (by rw [hu₄.disk, hu₂.disk]; exact hs₁) hrest
      refine ⟨p :: parts, content :: more, held', ?_, .cons hserved hparts, rfl, ?_⟩
      · exact (((ht₁.after ht₃).before ht₂).before ht₄).trans ht₅
      · rwa [List.append_assoc] at hs'

/-- Files with other names are not in the way of layers. -/
theorem Staged.has_eq_false {modified : Int} {d : Disk} {name : String} {c : Char}
    (hbase : ∀ name, base.has (work ++ [name]) = false)
    (hs : Staged base work modified contents held d) (hc : c ∈ name.toList)
    (hd : Digest.isHashDigit c = false) : d.has (work ++ [name]) = false := by
  rw [hs.disk, Disk.has_append, hbase, Bool.false_or, Disk.has_under, Bool.eq_false_iff, Ne,
    has_layersDisk]
  intro hmem
  obtain ⟨writes, _, hname⟩ := List.mem_map.1 hmem
  exact contentName_ne hc hd hname

end

end ImageTransfer.Transfer
