import ImageTransfer.Json.Value
import ImageTransfer.Text.Blank
import ImageTransfer.Text.Digit
import ImageTransfer.Text.Utf8
import ImageTransfer.Time.Timestamp

/-!
# Reading timestamps

Image configurations carry the time of their creation as text. Dates are read as
`YYYY-MM-DD`, `YYYY-Www-D`, `YYYY-Www`, or the same without dashes; any character may separate the
date from the time; times are read as `HH`, `HH:MM` or `HH:MM:SS` with a fraction, or the same
without colons, and may end in an offset of the same forms. What cannot be read is taken to be the
beginning of 1970, so that the images of an archive without a usable time still come out the same.

Before all this, a `Z` is replaced by an offset of zero and the first fraction is brought to six
digits by cutting it off or filling it with zeros.
-/

namespace ImageTransfer.Timestamp

/-- The digits of ASCII, as bytes. -/
def digit? (b : UInt8) : Option Nat :=
  if 0x30 ≤ b && b ≤ 0x39 then some (b.toNat - 0x30) else none

/-- The number that exactly `count` digits make, and what follows them. -/
def readDigits? (count : Nat) (bytes : List UInt8) : Option (Nat × List UInt8) :=
  if bytes.length < count then none
  else ((bytes.take count).mapM digit?).map fun ds =>
    (ds.foldl (fun n d => 10 * n + d) 0, bytes.drop count)

/-- How the fields of a time end. -/
inductive ClockEnd
  /-- At the end of the text. -/
  | complete
  /-- Short of something that does not belong to the fields. -/
  | loose
deriving DecidableEq, Repr

/-- Hours, minutes, seconds and microseconds. -/
structure Clock where
  fields : List Nat
  microsecond : Nat
  finish : ClockEnd

/-- How fields end that are followed by the byte `next`, where 0 stands for the end of the text. -/
def clockEnd (next : UInt8) : ClockEnd := if next = 0 then .complete else .loose

/-- The fraction of a second at the beginning of some bytes that `next` follows: six digits count,
fewer must be all there is, and more are passed over. -/
def readFraction? (bytes : List UInt8) (next : UInt8) : Option (Nat × ClockEnd) := do
  let count := min 6 bytes.length
  let (n, rest) ← readDigits? count bytes
  let left := rest.dropWhile fun b => (digit? b).isSome
  return (n * Nat.pow 10 (6 - count), clockEnd (left.headD next))

/-- Up to `more` fields of two digits each, and a fraction. `colons` tells whether the fields are
separated by colons, once the first of them has shown it. -/
def readFields? (next : UInt8) : Nat → Option Bool → List UInt8 → Option Clock
  | 0, _, bytes => do
    let (us, finish) ← readFraction? bytes next
    return ⟨[], us, finish⟩
  | more + 1, colons, bytes => do
    let (v, rest) ← readDigits? 2 bytes
    match rest with
    | [] => return ⟨[v], 0, clockEnd next⟩
    | [c] => return ⟨[v], 0, clockEnd c⟩
    | c :: following =>
      let separated := colons.getD (c == 0x3A)
      if separated && c == 0x3A then
        let clock ← readFields? next more (some separated) following
        return { clock with fields := v :: clock.fields }
      else if c == 0x2E || c == 0x2C then
        let (us, finish) ← readFraction? following next
        return ⟨[v], us, finish⟩
      else if !separated then
        let clock ← readFields? next more (some separated) rest
        return { clock with fields := v :: clock.fields }
      else none

/-- The time of a clock in microseconds. -/
def Clock.microseconds (c : Clock) : Nat :=
  ((c.fields.getD 0 0 * 60 + c.fields.getD 1 0) * 60 + c.fields.getD 2 0) * perSecond +
    c.microsecond

/-- Whether a byte begins an offset. -/
def isOffsetSign (b : UInt8) : Bool := b == 0x2B || b == 0x2D

/-- A time of day and its offset. An offset is less than a day; one of less than a second is none. -/
def readTime? (bytes : List UInt8) : Option (Clock × Int) :=
  let time := bytes.takeWhile fun b => !isOffsetSign b
  match bytes.dropWhile fun b => !isOffsetSign b with
  | [] => do
    let clock ← readFields? 0 3 none time
    if clock.finish = .complete then return (clock, 0) else none
  | sign :: offset => do
    let clock ← readFields? sign 3 none time
    let away ← readFields? 0 3 none offset
    if away.finish = .loose then none
    else
      let us := away.microseconds
      if us < perSecond then return (clock, 0)
      else if 24 * 3600 * perSecond ≤ us then none
      else return (clock, if sign == 0x2D then -(us : Int) else us)

/-- Where the date ends and its separator stands, told from the characters after the year. -/
def separatorIndex (bytes : List UInt8) : Nat :=
  let isByte (i : Nat) (b : UInt8) : Bool := bytes[i]? == some b
  if bytes.length = 7 then 7
  else if isByte 4 0x2D then
    if isByte 5 0x57 then
      if isByte 8 0x2D then
        -- the dash may belong to the date or separate it from a time
        if (bytes[10]?.bind digit?).isSome then 8 else 10
      else 8
    else 10
  else if isByte 4 0x57 then
    let past := 7 + ((bytes.drop 7).takeWhile fun b => (digit? b).isSome).length
    if past < 9 then past else if past % 2 = 0 then 7 else 8
  else 8

/-- One dash, if the date is written with dashes. -/
def readDash? (dashes : Bool) (bytes : List UInt8) : Option (List UInt8) :=
  if dashes then
    match bytes with
    | b :: rest => if b == 0x2D then some rest else none
    | [] => none
  else some bytes

/-- A date that takes up `size` bytes. -/
def readDate? (size : Nat) (bytes : List UInt8) : Option (Nat × Nat × Nat) := do
  let (year, rest) ← readDigits? 4 bytes
  let dashes := rest.head? == some 0x2D
  let rest ← readDash? dashes rest
  match rest with
  | first :: weekText =>
    if first == 0x57 then
      let (week, rest) ← readDigits? 2 weekText
      if bytes.length - rest.length < size then
        let rest ← readDash? dashes rest
        let (day, _) ← readDigits? 1 rest
        Calendar.dateOfWeek? year week day
      else Calendar.dateOfWeek? year week 1
    else
      let (month, rest) ← readDigits? 2 rest
      let rest ← readDash? dashes rest
      let (day, _) ← readDigits? 2 rest
      return (year, month, day)
  | [] => none

/-- How many bytes the character that begins with this byte has. -/
def characterSize (b : UInt8) : Nat :=
  if b < 0x80 then 1 else if b < 0xE0 then 2 else if b < 0xF0 then 3 else 4

/-- The timestamp that bytes denote. -/
def ofBytes? (bytes : List UInt8) : Option Timestamp := do
  let at_ := separatorIndex bytes
  let (year, month, day) ← readDate? at_ bytes
  let (clock, offset) ← match bytes.drop at_ with
    | [] => some (⟨[], 0, .complete⟩, 0)
    | separator :: _ => readTime? (bytes.drop (at_ + characterSize separator))
  let t : Timestamp := ⟨year, month, day, clock.fields.getD 0 0, clock.fields.getD 1 0,
    clock.fields.getD 2 0, clock.microsecond, offset⟩
  if t.isValid then return t else none

/-- A text in which a surrogate that could be the separator of a date is one that has an encoding. -/
def separatorReplaced (t : Text) : Text :=
  match [7, 8, 10].find? fun i => (t[i]?.map CodePoint.isSurrogate).getD false with
  | some i => t.set i ⟨0x54, by decide⟩
  | none => t

/-- The timestamp that a text denotes. No date is shorter than seven characters. -/
def ofText? (t : Text) : Option Timestamp :=
  if t.length < 7 then none
  else match Text.encodeUtf8 (separatorReplaced t) with
    | .ok bytes => ofBytes? bytes
    | .error _ => none

/-- A text with every `Z` replaced by an offset of zero. -/
def zuluReplaced (t : Text) : Text :=
  t.flatMap fun c => if c.val = 0x5A then Text.ofString "+00:00" else [c]

/-- Six digits made of some digits, by cutting off or filling with zeros. -/
def sixDigits (ds : Text) : Text := (ds ++ Text.ofString "000000").take 6

/-- A text with its first fraction, that is, the first point that a digit follows, brought to six
digits. -/
def fractionAdjusted (t : Text) : Text :=
  let isDigit (c : CodePoint) : Bool := (Text.digitValue? c.val).isSome
  match t with
  | [] => []
  | c :: rest =>
    if c.val = 0x2E && (rest.head?.map isDigit).getD false then
      c :: (sixDigits (rest.takeWhile isDigit) ++ rest.dropWhile isDigit)
    else c :: fractionAdjusted rest

/-- The text that is read for a text. -/
def normalized (t : Text) : Text :=
  fractionAdjusted (zuluReplaced (Text.trimBlank Fin.val t))

/-- The time of creation that a configuration gives; what is not a time is the epoch. -/
def ofValue (v : Json.Value) : Timestamp :=
  match v with
  | .text t => (ofText? (normalized t)).getD epoch
  | _ => epoch

end ImageTransfer.Timestamp
