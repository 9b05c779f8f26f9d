import ImageTransfer.Transfer.Copy
import ImageTransfer.Transfer.Export
import ImageTransfer.Transfer.Pull

/-!
# Operations on images by name

Each operation takes names of images as people write them, opens a session for as long as it runs,
and closes the session in the end. Names are read before settings are, so a bad name is reported
first.
-/

namespace ImageTransfer.ByName

open Exchange

/-- Settings, unless they were refused. -/
abbrev SettingsResult := Except Settings.Error Settings

/-- The reference that a name spells. -/
def reference (name : String) : Exchange Reference := ofExcept (Reference.parse name) .reference

/-- Runs an operation with settings and in a session. -/
def inSession {α : Type} (settings : SettingsResult) (x : Settings → Exchange α) : Exchange α := do
  let s ← ofExcept settings .settings
  withSession s.timeout (x s)

/-- Checks that a registry answers. -/
def probe (settings : SettingsResult) (registry : String) : Exchange Unit := do
  let s ← ofExcept settings .settings
  Registry.probe s registry

/-- Copies an image and gives the digest of its manifest. -/
def copyImage (settings : SettingsResult) (source target : String) (listens : Bool) :
    Exchange String := do
  let source ← reference source
  let target ← reference target
  inSession settings fun s => Transfer.copyImage s source target listens

/-- Exports an image to the sink. -/
def exportImage (decoders : Compression.Decoders) (settings : SettingsResult) (image : String)
    (listens : Bool) : Exchange Transfer.Exported := do
  let ref ← reference image
  inSession settings fun s => Transfer.exportImage decoders s none ref listens

/-- The configuration of an image. -/
def inspectImage (settings : SettingsResult) (image : String) : Exchange Json.Members := do
  let ref ← reference image
  inSession settings fun s => Transfer.inspectImage s none ref

/-- Writes a blob of a repository to the sink and gives its size. -/
def pullBlob (settings : SettingsResult) (image digest : String) : Exchange Nat := do
  let ref ← reference image
  inSession settings fun s => Transfer.pullBlob s none ref digest

end ImageTransfer.ByName
