import ImageTransfer.Decimal.Integer
import ImageTransfer.Reference.Basic
import ImageTransfer.Text.Lowercase
import ImageTransfer.Text.Quoted
import ImageTransfer.Text.Split

/-!
# Settings

How registries are reached, in what pieces data is moved, and how strictly downloads are checked.
Settings come from the environment, and what a caller gives wins over it.
-/

namespace ImageTransfer

/-- What to do about content that does not have its declared digest. -/
inductive IntegrityPolicy
  /-- Say so and go on. -/
  | warn
  /-- Stop. -/
  | strict
deriving DecidableEq, Repr

namespace IntegrityPolicy

/-- The name of a policy. -/
def name : IntegrityPolicy → String
  | warn => "warn"
  | strict => "strict"

/-- The policy of a name. -/
def ofName? (s : String) : Option IntegrityPolicy :=
  [warn, strict].find? (·.name == s)

end IntegrityPolicy

/-- Settings for all registries that a client talks to. -/
structure Settings where
  /-- How many seconds a connection or a read may take. -/
  timeout : Nat
  /-- How many bytes are uploaded at once. -/
  chunkSize : Nat
  /-- How many bytes are read at once. -/
  readChunkSize : Nat
  /-- The hosts that are reached without encryption. -/
  plainHosts : List String
  verify : IntegrityPolicy
  timeout_pos : 0 < timeout
  chunkSize_pos : 0 < chunkSize
  readChunkSize_pos : 0 < readChunkSize

namespace Settings

/-- Why settings are refused. -/
inductive Error
  | policy (name : String)
  | timeout (n : Int)
  | chunkSize
  | timeoutText (text : String) (e : Decimal.IntegerError)
deriving DecidableEq, Repr

/-- How much of a text that is no number is shown. -/
def shownLength : Nat := 200

/-- The text that reports the error. -/
def Error.message : Error → String
  | .policy name => s!"{Text.quotedString name} is not a valid IntegrityPolicy"
  | .timeout n => s!"timeout must be positive, got {n}"
  | .chunkSize => "chunk sizes must be positive"
  | .timeoutText text .malformed =>
    "invalid literal for int() with base 10: " ++
      String.ofList ((Text.quotedString text).toList.take shownLength)
  | .timeoutText _ (.tooLong digits) => Decimal.tooLongMessage digits

/-- What a caller may say about the settings. -/
structure Choices where
  timeout : Option Int := none
  chunkSize : Option Int := none
  readChunkSize : Option Int := none
  plainHosts : Option (List String) := none
  verify : Option IntegrityPolicy := none

/-- Choices that win over others. -/
def Choices.over (first second : Choices) : Choices where
  timeout := first.timeout.or second.timeout
  chunkSize := first.chunkSize.or second.chunkSize
  readChunkSize := first.readChunkSize.or second.readChunkSize
  plainHosts := first.plainHosts.or second.plainHosts
  verify := first.verify.or second.verify

/-- The settings of some choices; what is not chosen is the default. -/
def ofChoices (c : Choices) : Except Error Settings :=
  let timeout := c.timeout.getD 300
  let chunkSize := c.chunkSize.getD (5 * 1024 * 1024)
  let readChunkSize := c.readChunkSize.getD (64 * 1024)
  if h : 0 < timeout then
    if hs : 0 < chunkSize ∧ 0 < readChunkSize then
      .ok {
        timeout := timeout.toNat
        chunkSize := chunkSize.toNat
        readChunkSize := readChunkSize.toNat
        plainHosts := c.plainHosts.getD []
        verify := c.verify.getD .warn
        timeout_pos := by omega
        chunkSize_pos := by omega
        readChunkSize_pos := by omega }
    else .error .chunkSize
  else .error (.timeout timeout)

/-- The policy of a name, or the error that there is none. -/
def policyOf (name : String) : Except Error IntegrityPolicy :=
  match IntegrityPolicy.ofName? name with
  | some p => .ok p
  | none => .error (.policy name)

/-- Hosts separated by commas; blanks around them and empty ones do not count. -/
def hostList (s : String) : List String :=
  ((Text.splitAll ',' s.toList).map (Text.trimBlank Char.toNat)).filterMap fun host =>
    if host.isEmpty then none else some (String.ofList host)

/-- The environment: names and values of variables. -/
abbrev Environment := List (String × String)

/-- The variables that settings are read from. -/
def variableNames : List String := ["REGISTRY_TIMEOUT", "REGISTRY_PLAIN_HTTP", "REGISTRY_VERIFY"]

/-- The value of a variable that is set to something. -/
def setting? (env : Environment) (name : String) : Option String :=
  (env.find? (·.1 == name)).bind fun (_, value) => if value = "" then none else some value

/-- What the environment says about the settings. -/
def choicesOfEnvironment (env : Environment) : Except Error Choices := do
  let timeout ← (setting? env "REGISTRY_TIMEOUT").mapM fun text =>
    match Decimal.readInteger (text.toList.map Char.toNat) with
    | .ok n => .ok n
    | .error e => .error (Error.timeoutText text e)
  let verify ← (setting? env "REGISTRY_VERIFY").mapM fun name => policyOf (Text.lowercase name)
  return {
    timeout := timeout
    plainHosts := (setting? env "REGISTRY_PLAIN_HTTP").map hostList
    verify := verify }

/-- The settings of an environment, over which the choices of a caller win. -/
def ofEnvironment (env : Environment) (choices : Choices) : Except Error Settings := do
  let c ← choicesOfEnvironment env
  ofChoices (choices.over c)

/-- The hosts on the machine itself, which are reached without encryption. -/
def localHosts : List String := ["localhost", "127.0.0.1", "[::1]"]

/-- A registry without the number after its colon. -/
def hostOf (registry : String) : String :=
  match registry.toList with
  | '[' :: _ => String.ofList ((Text.splitFirst ']' registry.toList).1 ++ [']'])
  | cs => String.ofList (Text.splitFirst ':' cs).1

/-- Whether a registry is reached without encryption. -/
def isPlain (s : Settings) (registry : String) : Bool :=
  s.plainHosts.contains registry || localHosts.contains (hostOf registry)

/-- The beginning of all URLs at a registry. -/
def baseUrl (s : Settings) (registry : String) : String :=
  let host := if registry = Reference.dockerHub then Reference.dockerHubHost else registry
  (if s.isPlain host then "http" else "https") ++ "://" ++ host

/-- The hosts reached without encryption in order, each once. -/
def sortedPlainHosts (s : Settings) : List String :=
  (s.plainHosts.eraseDups).mergeSort fun a b => !(b < a)

/-- The settings with further hosts that are reached without encryption. -/
def addPlainHosts (s : Settings) (hosts : List String) : Settings :=
  { s with plainHosts := s.plainHosts ++ hosts }

end Settings

end ImageTransfer
