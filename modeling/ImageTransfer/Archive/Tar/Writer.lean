import ImageTransfer.Archive.FileTime
import ImageTransfer.Archive.Tar.Records
import ImageTransfer.Archive.Tree

/-!
# Writing tar archives

A tree is packed in the order of its paths, without owners and with the same mode for all files, so
that equal trees give equal archives. Two blocks of zeros end the archive, and further ones fill up
its last record of twenty blocks.

All entries are found by a walk through the directories before the first one is written. The walk calls
itself for every directory, so there is a depth that it does not get to.
-/

namespace ImageTransfer.Archive

/-- When an entry was last changed, in whole seconds; a fraction that is told is dropped toward 1970. -/
def Entry.seconds (e : Entry) : Int := wholePart (toldTime e.modified)

/-- Whether an entry is a directory. -/
def Entry.isDirectory (e : Entry) : Bool :=
  match e.content with
  | .directory => true
  | .file _ => false

/-- The bytes of an entry; a directory has none. -/
def Entry.bytes (e : Entry) : List UInt8 :=
  match e.content with
  | .directory => []
  | .file bytes => bytes

namespace Tar

/-- The modes of directories and files. -/
def directoryMode : Nat := 0o755
@[inherit_doc directoryMode] def fileMode : Nat := 0o644

/-- The name of an entry in an archive: the name of a directory ends in a slash. -/
def memberName (e : Entry) : String := e.path.text ++ (if e.isDirectory then "/" else "")

/-- Whether a name fits into a header. -/
def nameFits (name : String) : Bool :=
  name.toList.all (·.toNat < 0x80) && name.length ≤ nameWidth

/-- Whether a time fits into a header. -/
def timeFits (seconds : Int) : Bool := 0 ≤ seconds && seconds < numberLimit

/-- Whether a size fits into a header. -/
def sizeFits (size : Nat) : Bool := size < numberLimit

/-- What has to be told of an entry beside its header. -/
def recordsOf (e : Entry) : List Record :=
  let name := memberName e
  let size := e.bytes.length
  (if nameFits name then [] else [("path", name)]) ++
    (if sizeFits size then [] else [("size", toString size)]) ++
    (if timeFits e.seconds then [] else [("mtime", toString e.seconds)])

/-- The header of an entry. -/
def headerOf (e : Entry) : Header where
  name := asciiBytes (memberName e)
  mode := if e.isDirectory then directoryMode else fileMode
  owner := 0
  group := 0
  size := if sizeFits e.bytes.length then e.bytes.length else 0
  modified := if timeFits e.seconds then e.seconds.toNat else 0
  kind := if e.isDirectory then .directory else .file
  ownerName := []
  groupName := []

/-- An entry as it stands in an archive. -/
def member (e : Entry) : List UInt8 :=
  recordsMember (recordsOf e) ++ (headerOf e).block ++ padded e.bytes

/-- How much is written at once. -/
def recordSize : Nat := 20 * blockSize

/-- The end of an archive whose members have some length. -/
def trailer (length : Nat) : List UInt8 :=
  let marked := length + 2 * blockSize
  List.replicate (2 * blockSize + (recordSize - marked % recordSize) % recordSize) 0

/-- The archive of a tree. -/
def archive (t : Tree) : List UInt8 :=
  let members := t.sorted.flatMap member
  members ++ trailer members.length

/-- How many directories may stand in one another for the walk to come to an end. Like the limit of
reading JSON it is that of nested calls, and a little lower when many calls are open already. -/
def walkLimit : Nat := 990

/-- Whether the walk through a tree comes to an end. -/
def isWalkable (t : Tree) : Bool := t.entries.all fun e => !e.isDirectory || e.path.length ≤ walkLimit

/-- The archive of a tree, if the walk through it comes to an end. -/
def pack? (t : Tree) : Option (List UInt8) := if isWalkable t then some (archive t) else none

end Tar

end ImageTransfer.Archive
