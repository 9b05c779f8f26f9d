import ImageTransfer.Proofs.Reference.CommonName
import ImageTransfer.Proofs.Transfer.ImageExport

/-!
# The name in an archive

The index of an archive names the image by its short name, so what is said of short names is said of
archives: who loads the archive and looks the name up finds the image that was exported, if the name
keeps what it was made from (`Reference.KeepsName`). An image of the Docker Hub below `library/` and a
further component has the same name as one that is not in the library.
-/

namespace ImageTransfer.Transfer

open Exchange Reference

/-- An archive that is written has an index of one image, which has its short name and no other. -/
theorem exportImage_names {decoders : Compression.Decoders} {s : Settings}
    {policy : Option IntegrityPolicy} {ref : Reference} {listens : Bool} {w w' : World}
    {exported : Exported}
    (h : exportImage decoders s policy ref listens w = (.ok exported, w')) :
    ∃ name contents bytes archive index, ref.commonName = some name ∧ exported.entry.names = [name] ∧
      w'.sink.bytes = w.sink.bytes ++ archive ∧ HoldsImage archive contents bytes index ∧
      Json.readDocument index = .ok (.array [exported.entry.value]) := by
  obtain ⟨name, m, a, d, config, contents, l, hname, _, _, _, hholds, _, hindex, hexp, hsink⟩ :=
    exportImage_ok h
  refine ⟨name, contents, contentOf l.config, Archive.Tar.archive l.tree, contentOf l.index, hname, ?_,
    hsink, hholds.holdsImage, ?_⟩
  · rw [hexp]
    rfl
  · rw [hindex]
    exact Archive.readDocument_indexBytes _

/-- **What the short name of a reference identifies.** The name is read again, with the same tag, unless
the tag ends in a line break. It is read as the same image if and only if it keeps what it was made
from. Two references of which that holds have the same name only if they are the same image under the
same tag. And the archive of an image has this name and no other. -/
theorem commonName_identifies {text tag : String} {r : Reference} (h : parse text = .ok r)
    (htag : r.tag = some tag) :
    ∃ name, r.commonName = some name ∧
      ('\n' ∈ tag.toList → parse name = .error (.blank name)) ∧
      ('\n' ∉ tag.toList → ∃ r', parse name = .ok r' ∧ r'.tag = some tag ∧ r'.digest = none ∧
        (r'.registry = r.registry ∧ r'.repository = r.repository ↔ r.KeepsName)) ∧
      ('\n' ∉ tag.toList → r.KeepsName → ∀ other r₂, parse other = .ok r₂ →
        r₂.commonName = some name → r₂.KeepsName →
          r₂.registry = r.registry ∧ r₂.repository = r.repository ∧ r₂.tag = r.tag) ∧
      ∀ decoders s policy listens w w' exported,
        exportImage decoders s policy r listens w = (.ok exported, w') →
          exported.entry.names = [name] ∧
            ∃ contents bytes archive index, w'.sink.bytes = w.sink.bytes ++ archive ∧
              HoldsImage archive contents bytes index ∧
              Json.readDocument index = .ok (.array [exported.entry.value]) := by
  obtain ⟨name, hname, hblank, hread⟩ := parse_commonName h htag
  refine ⟨name, hname, hblank, hread, fun hline hkeeps other r₂ h₂ hname₂ hkeeps₂ => ?_, ?_⟩
  · obtain ⟨r', hr', htag', _, hiff⟩ := hread hline
    obtain ⟨tag₂, htag₂, _⟩ := Option.map_eq_some_iff.1 hname₂
    obtain ⟨name', hname', hblank₂, hread₂⟩ := parse_commonName h₂ htag₂
    cases hname'.symm.trans hname₂
    -- both names are read as one reference
    by_cases hline₂ : '\n' ∈ tag₂.toList
    · exact absurd (hr'.symm.trans (hblank₂ hline₂)) nofun
    obtain ⟨r₂', hr₂', htag₂', _, hiff₂⟩ := hread₂ hline₂
    cases hr'.symm.trans hr₂'
    obtain ⟨hregistry, hrepository⟩ := hiff.2 hkeeps
    obtain ⟨hregistry₂, hrepository₂⟩ := hiff₂.2 hkeeps₂
    refine ⟨hregistry₂.symm.trans hregistry, hrepository₂.symm.trans hrepository, ?_⟩
    rw [htag₂, ← htag₂', htag', htag]
  · intro decoders s policy listens w w' exported hrun
    obtain ⟨name', contents, bytes, archive, index, hname', hnames, hrest⟩ := exportImage_names hrun
    cases hname'.symm.trans hname
    exact ⟨hnames, contents, bytes, archive, index, hrest⟩

/-- An official image is read again under its short name. -/
theorem commonName_identifies_official :
    let r : Reference := ⟨"docker.io", "library/nginx", some "latest", none⟩
    parse "nginx" = .ok r ∧ ∃ name r', r.commonName = some name ∧ parse name = .ok r' ∧
      r'.registry = r.registry ∧ r'.repository = r.repository ∧ r'.tag = r.tag := by
  intro r
  have hread : parse "nginx" = .ok r := rfl
  have htag : r.tag = some "latest" := rfl
  obtain ⟨name, hname, _, hagain, _⟩ := commonName_identifies hread htag
  obtain ⟨r', hr', htag', _, hiff⟩ := hagain (by decide)
  obtain ⟨hregistry, hrepository⟩ := hiff.2 fun _ => by decide
  exact ⟨hread, name, r', hname, hr', hregistry, hrepository, htag'⟩

/-- A short name need not be read as the same image: with more than one component below the library, it
is read as an image outside the library. -/
theorem commonName_ambiguous :
    ¬ ∀ (text tag : String) (r : Reference), parse text = .ok r → r.tag = some tag →
      ∃ name r', r.commonName = some name ∧ parse name = .ok r' ∧ r'.registry = r.registry ∧
        r'.repository = r.repository ∧ r'.tag = r.tag := by
  intro hall
  let r : Reference := ⟨"docker.io", "library/team/app", some "v1", none⟩
  have hread : parse "docker.io/library/team/app:v1" = .ok r := rfl
  have hshort : parse "team/app:v1" = .ok ⟨"docker.io", "team/app", some "v1", none⟩ := rfl
  obtain ⟨name, r', hname, hr', _, hrepository, _⟩ := hall _ "v1" r hread rfl
  have hcommon : r.commonName = some "team/app:v1" := by decide
  cases hname.symm.trans hcommon
  cases hr'.symm.trans hshort
  exact absurd hrepository (by decide)

end ImageTransfer.Transfer
