import ImageTransfer.Archive.Index
import ImageTransfer.Proofs.Json.ReadBack

/-!
# The index is read back

The index is JSON of texts in lists, in an object of three members. What it begins with is ASCII, so
it is taken for UTF-8.
-/

namespace ImageTransfer.Archive

open Json

theorem readsBack_texts (items : List String) :
    ReadsBack 1 (.array (items.map .ofString)) := by
  refine readsBack_array fun v hv => ?_
  obtain ⟨s, _, rfl⟩ := List.mem_map.1 hv
  exact readsBack_text 0 (Text.ofString s)

theorem IndexEntry.readsBack (e : IndexEntry) : ReadsBack 2 e.value := by
  have hnames : (["Config", "RepoTags", "Layers"].map Text.ofString).Nodup := by decide
  refine readsBack_object hnames fun m hm => ?_
  rcases List.mem_cons.1 hm with rfl | hm
  · exact readsBack_text 1 (Text.ofString e.config)
  rcases List.mem_cons.1 hm with rfl | hm
  · exact readsBack_texts e.names
  · rw [List.mem_singleton.1 hm]
    exact readsBack_texts e.layers

/-- The index begins with a bracket, a brace, a quote and a letter. -/
theorem detect_indexBytes (e : IndexEntry) : Encoding.detect (indexBytes [e]) = .utf8 0 := rfl

/-- **The index is read back.** -/
theorem readDocument_indexBytes (e : IndexEntry) :
    readDocument (indexBytes [e]) = .ok (.array [e.value]) := by
  have hback : ReadsBack 3 (.array [e.value]) := by
    refine readsBack_array fun v hv => ?_
    rw [List.mem_singleton.1 hv]
    exact e.readsBack
  exact readDocument_compact hback (by decide) (detect_indexBytes e)

end ImageTransfer.Archive
