import ImageTransfer.Proofs.Image.Config
import ImageTransfer.Proofs.Transfer.ImageExport
import Mathlib.Data.List.Nodup

/-!
# The configuration in an archive

The archive of an image has one file for the configuration, named after the hash of what is in it.
Who decodes that file gets the configuration that was served, with the same members in the same order,
but for the list of diff IDs: that one is of the layers as the archive holds them. The statement goes
all the way through the registry's response, the reader of JSON, the writer, the archive and the reader
again; what there is to prove of each is in `ImageConfig.ofBytes_bytes` and in `exportImage_ok`.
-/

namespace ImageTransfer.Transfer

open Exchange Registry

/-- **A layout has one file of the name of its configuration**, and that is the configuration. -/
theorem Layout.Holds.config_member {l : Layout} {contents : List (List UInt8)} (h : l.Holds contents) :
    ∃ members, Archive.Tar.read? (Archive.Tar.archive l.tree) = some members ∧
      (∃ member ∈ members, member.name = l.configName) ∧
      ∀ member ∈ members, member.name = l.configName → member.content = contentOf l.config := by
  obtain ⟨members, layers, hread, hnames, hitems, _⟩ := h.holdsImage
  have hmem : (Archive.Tar.Kind.file, l.configName, contentOf l.config) ∈
      members.map Archive.Tar.Member.item :=
    hitems.mem_iff.2 (List.mem_append_right _ List.mem_cons_self)
  obtain ⟨file, hfile, hitem⟩ := List.mem_map.1 hmem
  have hname : file.name = l.configName := congrArg (fun item => item.2.1) hitem
  refine ⟨members, hread, ⟨file, hfile, hname⟩, fun member hmember heq => ?_⟩
  -- no two members have the same name
  have hsame : member = file := List.inj_on_of_nodup_map hnames hmember hfile (heq.trans hname.symm)
  rw [hsame]
  exact congrArg (fun item => item.2.2) hitem

/-- **An export keeps the configuration**, all but the diff IDs. What an archive has under the name of
its configuration is read as the configuration that was served: with the same members, in the same
order, of the same values. Only the list of diff IDs has been replaced by that of the layers, in its
place or at the end of the member that holds it; a member that is no object is replaced by one. -/
theorem exportImage_keepsConfig (decoders : Compression.Decoders) (s : Settings)
    (policy : Option IntegrityPolicy) (ref : Reference) (listens : Bool) (w : World) :
    let run := exportImage decoders s policy ref listens w
    (∃ e, run.1 = .error e) ∨
      ∃ m a d config contents exported archive hash members,
        a.Serves m ∧ w.dialogue run.2 = (manifestRequest s ref, a) :: d ∧
        ServesImage decoders s ref m config contents d ∧
        run.1 = .ok exported ∧
        exported.diffIds = contents.map (fun content => "sha256:" ++ contentName content) ∧
        exported.configDigest = "sha256:" ++ hash ∧
        run.2.sink.bytes = w.sink.bytes ++ archive ∧ Archive.Tar.read? archive = some members ∧
        (∃ member ∈ members, member.name = hash ++ ".json") ∧
        ∀ member ∈ members, member.name = hash ++ ".json" →
          ∃ written, ImageConfig.ofBytes member.content = .ok written ∧
            ImageConfig.DiffIdsReplaced config exported.diffIds written := by
  intro run
  have hrun : exportImage decoders s policy ref listens w = (run.1, run.2) := rfl
  rcases hresult : run.1 with e | exported
  · exact .inl ⟨e, rfl⟩
  right
  rw [hresult] at hrun
  obtain ⟨_, m, a, d, config, contents, l, _, hserves, hdialogue, hd, hholds, hbytes, _, hexp, hsink⟩ :=
    exportImage_ok hrun
  obtain ⟨_, _, response, _, _, _, _, _, _, hserved, _⟩ := id hd
  obtain ⟨members, hread, hfile, hcontent⟩ := hholds.config_member
  refine ⟨m, a, d, config, contents, exported, _, contentName (contentOf l.config), members, hserves,
    hdialogue, hd, rfl, hexp ▸ rfl, hexp ▸ rfl, hsink, hread, hfile, fun member hmember hname => ?_⟩
  refine ⟨ImageConfig.withDiffIds config exported.diffIds, ?_,
    ImageConfig.diffIdsReplaced_withDiffIds (ImageConfig.legible_of_ofBytes hserved) _⟩
  rw [hcontent member hmember hname]
  exact ImageConfig.ofBytes_bytes hserved hbytes

end ImageTransfer.Transfer
