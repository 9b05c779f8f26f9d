import ImageTransfer.Exchange.Fault
import ImageTransfer.Json.Value

/-!
# Requests and responses

What a client says to a registry and what comes of it: a response, whose body may break off, or a
fault instead of a response.
-/

namespace ImageTransfer

/-- What a request asks to be done. -/
inductive Method
  | get
  | head
  | post
  | put
  | patch
  | delete
deriving DecidableEq, Repr

/-- The word for a method. -/
def Method.name : Method → String
  | get => "GET"
  | head => "HEAD"
  | post => "POST"
  | put => "PUT"
  | patch => "PATCH"
  | delete => "DELETE"

/-- A request. -/
structure Request where
  method : Method
  url : String
  /-- The fields that come with this request. A manifest may name any value as its type. -/
  headers : List (String × Json.Value)
  body : Option (List UInt8)

/-- A field of a request whose value is text. -/
def textHeader (name value : String) : String × Json.Value := (name, .ofString value)

/-- A response. -/
structure Response where
  status : Int
  headers : List (String × String)
  /-- The part of the body that arrives. -/
  body : List UInt8
  /-- What happens instead of the end of the body. -/
  broken : Option Fault

/-- What comes of a request. -/
inductive Answer
  | response (r : Response)
  | fault (f : Fault)

namespace Response

/-- A small letter for a capital of ASCII. -/
def smallLetter (c : Char) : Char :=
  if 'A' ≤ c ∧ c ≤ 'Z' then Char.ofNat (c.toNat + 0x20) else c

/-- Whether two names of fields are the same, for which the size of letters does not matter. -/
def sameName (a b : String) : Bool := a.toList.map smallLetter == b.toList.map smallLetter

/-- The value of a field; an absent one is empty. -/
def header (r : Response) (name : String) : String :=
  ((r.headers.find? fun h => sameName h.1 name).map (·.2)).getD ""

end Response

end ImageTransfer
