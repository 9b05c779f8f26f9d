/-!
# Image references

A reference says where an image is: at which registry, in which repository, and under which tag or
digest. Images of the Docker Hub have short names, in which the registry and the `library/` of
official images are left out.
-/

namespace ImageTransfer

/-- Where an image is. -/
structure Reference where
  /-- The host of the registry, with a number after a colon if it has one. -/
  registry : String
  /-- The path of the repository at its registry. -/
  repository : String
  /-- The tag, if the image is named by one. -/
  tag : Option String
  /-- The digest of the manifest, if the image is pinned to one. -/
  digest : Option String
deriving DecidableEq, Repr, Inhabited

namespace Reference

/-- The registry of references that name none. -/
def dockerHub : String := "docker.io"

/-- The host that serves the API of the Docker Hub. -/
def dockerHubHost : String := "registry-1.docker.io"

/-- The tag of references that name neither a tag nor a digest. -/
def defaultTag : String := "latest"

/-- What precedes the name of an official image in its repository. -/
def officialPath : String := "library/"

/-- A text that counts as absent when it is empty. -/
def present (s : String) : Option String := if s = "" then none else some s

/-- The reference with these parts, of which an empty tag or digest is none. -/
def ofParts (registry repository tag digest : String) : Reference :=
  ⟨registry, repository, present tag, present digest⟩

/-- What addresses the manifest: the digest, or else the tag. -/
def manifestReference (r : Reference) : String :=
  (r.digest.or r.tag).getD ""

/-- A text without a beginning that it may have. -/
def withoutBeginning (beginning : List Char) (cs : List Char) : List Char :=
  if beginning.isPrefixOf cs then cs.drop beginning.length else cs

/-- The name people know the image by, which ends in its tag: the Docker Hub and its `library/` are
not spelled out. Without a tag there is no such name. -/
def commonName (r : Reference) : Option String :=
  r.tag.map fun tag =>
    if r.registry = dockerHub then
      String.ofList (withoutBeginning officialPath.toList r.repository.toList) ++ ":" ++ tag
    else r.registry ++ "/" ++ r.repository ++ ":" ++ tag

/-- The full text of a reference. -/
def text (r : Reference) : String :=
  r.registry ++ "/" ++ r.repository ++
    (match r.tag with | some tag => ":" ++ tag | none => "") ++
    (match r.digest with | some digest => "@" ++ digest | none => "")

instance : ToString Reference := ⟨text⟩

end Reference

end ImageTransfer
