import ImageTransfer.Json.Document

/-!
# The index of an archive

An archive has an index that lists its images: for each the file of its configuration, the names it
is known by, and the files of its layers, the base layer first.
-/

namespace ImageTransfer.Archive

/-- What the index says about one image. -/
structure IndexEntry where
  config : String
  names : List String
  layers : List String
deriving DecidableEq, Repr

namespace IndexEntry

/-- The entry as JSON. -/
def value (e : IndexEntry) : Json.Value :=
  let list (items : List String) : Json.Value := .array (items.map .ofString)
  .object [(Text.ofString "Config", .ofString e.config),
    (Text.ofString "RepoTags", list e.names),
    (Text.ofString "Layers", list e.layers)]

end IndexEntry

/-- The file that holds the index. -/
def indexFile : String := "manifest.json"

/-- The file that holds the content of a layer, in a directory of its own. -/
def layerFile : String := "layer.tar"

/-- The index as bytes. -/
def indexBytes (entries : List IndexEntry) : List UInt8 :=
  (Json.compact (.array (entries.map IndexEntry.value))).flatMap Text.utf8Bytes

end ImageTransfer.Archive
