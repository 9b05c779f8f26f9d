import ImageTransfer.Json.Document
import ImageTransfer.Time.Reader

/-!
# Image configurations

The configuration of an image is a JSON object. It says what the image was built for, what runs when
it is started, when it was created, and which layers make up its file system. This library reads few
of its members and keeps all of them.
-/

namespace ImageTransfer.ImageConfig

/-- Why a configuration is refused. -/
inductive Error
  | unreadable (e : Json.DocumentError)
  | notObject
  /-- The configuration has text that cannot be written. -/
  | unwritable (e : EncodeError)
  /-- A member that should hold members is something else. -/
  | notMembers
  /-- A field of a summary is nested too deeply to be copied. -/
  | tooNested
deriving DecidableEq, Repr

/-- The members of the configuration that bytes hold. -/
def ofBytes (bytes : List UInt8) : Except Error Json.Members :=
  match Json.readDocument bytes with
  | .error e => .error (.unreadable e)
  | .ok (.object members) => .ok members
  | .ok _ => .error .notObject

/-- The value of a member. -/
def member? (config : Json.Members) (name : String) : Option Json.Value :=
  Json.Members.get? config (Text.ofString name)

/-- When the image was created. -/
def created (config : Json.Members) : Timestamp :=
  Timestamp.ofValue ((member? config "created").getD .null)

/-- The fields of a configuration that people ask for. -/
structure Summary where
  architecture : Json.Value
  os : Json.Value
  created : Timestamp
  command : Json.Value
  entrypoint : Json.Value
  environment : Json.Value
  user : Json.Value
  workingDirectory : Json.Value
  exposedPorts : Json.Value
  labels : Json.Value
  diffIds : Json.Value

/-- The members under a name; a member that counts as nothing has none. -/
def membersOf (config : Json.Members) (name : String) : Except Error Json.Members :=
  match member? config name with
  | some (.object ms) => .ok ms
  | some v => if v.isTruthy then .error .notMembers else .ok []
  | none => .ok []

/-- A value, or another one in place of one that counts as nothing. -/
def orElse (v : Option Json.Value) (other : Json.Value) : Json.Value :=
  match v with
  | some v => if v.isTruthy then v else other
  | none => other

/-- The summary of a configuration. -/
def summary (config : Json.Members) : Except Error Summary := do
  let runtime ← membersOf config "config"
  let rootfs ← membersOf config "rootfs"
  let empty : Json.Value := .ofString ""
  return {
    architecture := (member? config "architecture").getD empty
    os := (member? config "os").getD empty
    created := created config
    command := orElse (member? runtime "Cmd") (.array [])
    entrypoint := orElse (member? runtime "Entrypoint") (.array [])
    environment := orElse (member? runtime "Env") (.array [])
    user := (member? runtime "User").getD empty
    workingDirectory := (member? runtime "WorkingDir").getD .null
    exposedPorts := orElse (member? runtime "ExposedPorts") (.object [])
    labels := orElse (member? runtime "Labels") (.object [])
    diffIds := orElse (member? rootfs "diff_ids") (.array []) }

/-- The fields of a summary by name, but for the time of creation. -/
def Summary.fields (s : Summary) : List (String × Json.Value) :=
  [("architecture", s.architecture), ("os", s.os), ("cmd", s.command),
    ("entrypoint", s.entrypoint), ("env", s.environment), ("user", s.user),
    ("working_dir", s.workingDirectory), ("exposed_ports", s.exposedPorts), ("labels", s.labels),
    ("diff_ids", s.diffIds)]

/-- A summary as JSON for reading. -/
def Summary.value (s : Summary) : Json.Value :=
  let named := s.fields.map fun (name, v) => (Text.ofString name, v)
  .object (named.take 2 ++ [(Text.ofString "created", .ofString (s.created.text " "))] ++
    named.drop 2)

/-- How many containers may stand in one another in a field of a summary. The fields are copied before
they are shown, and to copy a container takes two nested calls where to read it takes one. The limit is
therefore half that of reading; like that one, it is a little lower when many calls are open already. -/
def copyLimit : Nat := Json.nestingLimit / 2

/-- A summary as JSON for reading, if its fields can be copied. -/
def Summary.copied (s : Summary) : Except Error Json.Value :=
  if s.fields.any fun (_, v) => copyLimit < v.depth then .error .tooNested else .ok s.value

/-- The layers' digests as the value of a member. -/
def diffIdValue (diffIds : List String) : Json.Value := .array (diffIds.map .ofString)

/-- The configuration with other layers. Only the digests of the layers change; if the member that
holds them is no object, an object takes its place. -/
def withDiffIds (config : Json.Members) (diffIds : List String) : Json.Members :=
  let rootfs : Json.Members := match member? config "rootfs" with
    | some (.object ms) => ms
    | _ => [(Text.ofString "type", .ofString "layers")]
  Json.Members.put config (Text.ofString "rootfs")
    (.object (Json.Members.put rootfs (Text.ofString "diff_ids") (diffIdValue diffIds)))

/-- The bytes of a configuration. -/
def bytes (config : Json.Members) : Except Error (List UInt8) :=
  match Json.document (.object config) with
  | .ok bytes => .ok bytes
  | .error e => .error (.unwritable e)

end ImageTransfer.ImageConfig
