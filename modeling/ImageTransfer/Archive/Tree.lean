import ImageTransfer.Text.Split

/-!
# Trees of files

What is going to be packed: directories and files by their paths below a root. A path is a list of
names, and paths are in the order of these lists, so a directory comes right before what it holds.
-/

namespace ImageTransfer.Archive

/-- Where something is below the root. -/
abbrev Path := List String

namespace Path

/-- The path that a text with slashes spells. -/
def ofString (s : String) : Path := (Text.splitAll '/' s.toList).map String.ofList

/-- The text of a path, with slashes between its names. -/
def text (p : Path) : String := String.intercalate "/" p

/-- Whether a path does not come after another. -/
def before : Path → Path → Bool
  | [], _ => true
  | _ :: _, [] => false
  | a :: p, b :: q => a < b || (a == b && before p q)

/-- The paths of the directories that a path leads through, the outermost first. -/
def parents (p : Path) : List Path := (List.range (p.length - 1)).map fun n => p.take (n + 1)

end Path

/-- What is at a path. -/
inductive Content
  | directory
  | file (bytes : List UInt8)

/-- A directory or a file. -/
structure Entry where
  path : Path
  content : Content
  /-- When it was last changed, in microseconds since 1970. -/
  modified : Int

/-- Directories and files, each path at most once. -/
structure Tree where
  entries : List Entry

namespace Tree

/-- A root with nothing below it. -/
def empty : Tree := ⟨[]⟩

/-- What is at a path, if anything is. -/
def get? (t : Tree) (p : Path) : Option Entry := t.entries.find? (·.path == p)

/-- Whether something is at a path. -/
def has (t : Tree) (p : Path) : Bool := (t.get? p).isSome

/-- The tree with an entry, in place of what was at its path. -/
def put (t : Tree) (e : Entry) : Tree :=
  if t.has e.path then ⟨t.entries.map fun old => if old.path == e.path then e else old⟩
  else ⟨t.entries ++ [e]⟩

/-- The tree with a directory that is as old as 1970, unless something is there already. -/
def ensureDirectory (t : Tree) (p : Path) : Tree :=
  if t.has p then t else t.put ⟨p, .directory, 0⟩

/-- The tree with an entry and the directories that lead to it. -/
def add (t : Tree) (e : Entry) : Tree := (e.path.parents.foldl ensureDirectory t).put e

/-- The entries in the order of their paths. -/
def sorted (t : Tree) : List Entry := t.entries.mergeSort fun a b => a.path.before b.path

end Tree

end ImageTransfer.Archive
