import ImageTransfer.Archive.Tree

/-!
# The disk of the machine

What is stored where, by paths from the root. An operation that packs files lays them out below a
directory of its own, `Disk.below` is what it packs, and `Disk.remove` takes the directory away with
all that is in it.

A change concerns the entries at the paths that it names, and those below them. It does not look at
the directories that lead there.
-/

namespace ImageTransfer

namespace Disk

/-- How many bytes a file may have. -/
def fileLimit : Nat := 0x7FFFFFFFFFFFFFFF

/-- What is stored at a path. -/
inductive Content
  | directory
  /-- A file, write by write, and how many bytes it has. -/
  | file (writes : Array (List UInt8)) (size : Nat)

/-- A directory or a file that is stored. -/
structure Entry where
  path : Archive.Path
  content : Content
  /-- When it was last changed, in microseconds since 1970; zero until that is set. -/
  modified : Int

/-- What is stored at a path, as it is read back. -/
def Content.read : Content → Archive.Content
  | directory => .directory
  | file writes _ => .file writes.toList.flatten

/-- How many bytes there are at a path; a directory has none. -/
def Content.size : Content → Nat
  | directory => 0
  | file _ size => size

/-- The content with a further write at its end; a directory takes none. -/
def Content.append (piece : List UInt8) : Content → Content
  | directory => .directory
  | file writes size => .file (writes.push piece) (size + piece.length)

/-- Whether an entry is at a path or below it. -/
def Entry.isWithin (e : Entry) (p : Archive.Path) : Bool := p.isPrefixOf e.path

/-- The entry at the same place below another path. -/
def Entry.move (source target : Archive.Path) (e : Entry) : Entry :=
  { e with path := target ++ e.path.drop source.length }

end Disk

/-- What is stored on the machine. -/
structure Disk where
  entries : List Disk.Entry

namespace Disk

/-- A disk with nothing on it. -/
def empty : Disk := ⟨[]⟩

/-- Whether something is at a path or below it. -/
def has (d : Disk) (p : Archive.Path) : Bool := d.entries.any (·.isWithin p)

/-- How many bytes a file has; what is not there has none. -/
def sizeOf (d : Disk) (p : Archive.Path) : Nat :=
  match d.entries.find? (·.path == p) with
  | some e => e.content.size
  | none => 0

/-- The disk with a further directory. -/
def makeDirectory (d : Disk) (p : Archive.Path) : Disk := ⟨d.entries ++ [⟨p, .directory, 0⟩]⟩

/-- The disk with an empty file in place of what was at its path. -/
def createFile (d : Disk) (p : Archive.Path) : Disk :=
  ⟨d.entries.filter (·.path != p) ++ [⟨p, .file #[] 0, 0⟩]⟩

/-- The disk with a further write to a file. -/
def appendFile (d : Disk) (p : Archive.Path) (piece : List UInt8) : Disk :=
  ⟨d.entries.map fun e =>
    if e.path == p then
      match e with
      | ⟨path, content, modified⟩ => ⟨path, content.append piece, modified⟩
    else e⟩

/-- The disk with a time set for what is at a path. -/
def setModified (d : Disk) (p : Archive.Path) (modified : Int) : Disk :=
  ⟨d.entries.map fun e => if e.path == p then { e with modified := modified } else e⟩

/-- The disk with a directory and all that is in it at another path. -/
def move (d : Disk) (source target : Archive.Path) : Disk :=
  ⟨d.entries.map fun e => if e.isWithin source then e.move source target else e⟩

/-- The disk without what is at a path and below it. -/
def remove (d : Disk) (p : Archive.Path) : Disk := ⟨d.entries.filter (!·.isWithin p)⟩

/-- What is below a path, by paths from there. -/
def below (d : Disk) (p : Archive.Path) : Archive.Tree :=
  ⟨d.entries.filterMap fun e =>
    if e.isWithin p && e.path != p then some ⟨e.path.drop p.length, e.content.read, e.modified⟩
    else none⟩

end Disk

end ImageTransfer
