import ImageTransfer.Text.CodePoint
import ImageTransfer.Text.Quoted

/-!
# UTF-8

Text is written in UTF-8 without surrogates: one that is left over has no encoding. Reading is more
generous and takes the three bytes that a surrogate would have, since JSON from elsewhere may hold
them. All other ill-formed sequences are refused, with their place and the reason.
-/

namespace ImageTransfer

/-- Why bytes are not text: the bytes from `first` up to but not including `past` stop the codec. -/
structure DecodeError where
  codec : String
  first : Nat
  past : Nat
  /-- The byte at `first`. -/
  byte : UInt8
  reason : String
deriving DecidableEq, Repr

/-- The text that reports the error. -/
def DecodeError.message (e : DecodeError) : String :=
  if e.past ≤ e.first + 1 then
    s!"'{e.codec}' codec can't decode byte 0x{String.ofList (Text.hexDigits 2 e.byte.toNat)} " ++
    s!"in position {e.first}: {e.reason}"
  else s!"'{e.codec}' codec can't decode bytes in position {e.first}-{e.past - 1}: {e.reason}"

/-- Why text has no encoding: the surrogates from `first` up to but not including `past`. -/
structure EncodeError where
  first : Nat
  past : Nat
  /-- The surrogate at `first`. -/
  surrogate : CodePoint
deriving DecidableEq, Repr

/-- The text that reports the error. -/
def EncodeError.message (e : EncodeError) : String :=
  if e.past ≤ e.first + 1 then
    s!"'utf-8' codec can't encode character {Text.quoted [e.surrogate]} " ++
    s!"in position {e.first}: surrogates not allowed"
  else
    s!"'utf-8' codec can't encode characters in position {e.first}-{e.past - 1}: " ++
    "surrogates not allowed"

namespace Text

/-- The bytes of one code point. -/
def utf8Bytes (c : CodePoint) : List UInt8 :=
  let n := c.val
  if n < 0x80 then [UInt8.ofNat n]
  else if n < 0x800 then [UInt8.ofNat (0xC0 + n / 0x40), UInt8.ofNat (0x80 + n % 0x40)]
  else if n < 0x10000 then
    [UInt8.ofNat (0xE0 + n / 0x1000), UInt8.ofNat (0x80 + n / 0x40 % 0x40),
      UInt8.ofNat (0x80 + n % 0x40)]
  else
    [UInt8.ofNat (0xF0 + n / 0x40000), UInt8.ofNat (0x80 + n / 0x1000 % 0x40),
      UInt8.ofNat (0x80 + n / 0x40 % 0x40), UInt8.ofNat (0x80 + n % 0x40)]

/-- The encoding of a text; the first surrogate in it, with those that follow it directly, is the
error. -/
def encodeUtf8 (t : Text) : Except EncodeError (List UInt8) :=
  match t.dropWhile (!·.isSurrogate) with
  | [] => .ok (t.flatMap utf8Bytes)
  | c :: rest =>
    let first := (t.takeWhile (!·.isSurrogate)).length
    .error ⟨first, first + 1 + (rest.takeWhile (·.isSurrogate)).length, c⟩

/-- The encoding of a string. -/
def utf8OfString (s : String) : List UInt8 := (ofString s).flatMap utf8Bytes

/-- What is wrong with a sequence of bytes, and how many bytes the complaint covers. -/
inductive SequenceError
  | invalidStart
  | invalidContinuation (covered : Nat)
  | incomplete (covered : Nat)
deriving DecidableEq, Repr

/-- A byte that continues a sequence. -/
def isContinuation (b : UInt8) : Bool := 0x80 ≤ b && b < 0xC0

/-- A code point from its value, which the callers keep in range. -/
def codePoint (n : Nat) : CodePoint := Fin.ofNat _ n

/-- The rest of a sequence that began with `lead` and has `value` so far and `seen` bytes: `missing`
more continuation bytes, of which the first has to lie in a range of its own. -/
def continueSequence (value seen : Nat) (low high : UInt8) :
    Nat → List UInt8 → Except SequenceError (CodePoint × List UInt8)
  | 0, rest => .ok (codePoint value, rest)
  | _ + 1, [] => .error (.incomplete seen)
  | missing + 1, b :: rest =>
    if low ≤ b && b < high then
      continueSequence (value * 0x40 + (b.toNat - 0x80)) (seen + 1) 0x80 0xC0 missing rest
    else .error (.invalidContinuation seen)

/-- The code point that begins with the byte `b`, and the bytes after it. -/
def nextCodePoint (b : UInt8) (rest : List UInt8) :
    Except SequenceError (CodePoint × List UInt8) :=
  let n := b.toNat
  if n < 0x80 then .ok (codePoint n, rest)
  else if n < 0xC2 then .error .invalidStart
  else if n < 0xE0 then continueSequence (n - 0xC0) 1 0x80 0xC0 1 rest
  else if n < 0xF0 then
    match n, rest with
    | 0xED, second :: third :: _ =>
      -- a surrogate is taken only if it is complete
      if 0xA0 ≤ second && !(isContinuation second && isContinuation third) then
        .error (.invalidContinuation 1)
      else continueSequence (n - 0xE0) 1 0x80 0xC0 2 rest
    | 0xED, _ => continueSequence (n - 0xE0) 1 0x80 0xA0 2 rest
    | _, _ => continueSequence (n - 0xE0) 1 (if n = 0xE0 then 0xA0 else 0x80) 0xC0 2 rest
  else if n < 0xF5 then
    continueSequence (n - 0xF0) 1 (if n = 0xF0 then 0x90 else 0x80)
      (if n = 0xF4 then 0x90 else 0xC0) 3 rest
  else .error .invalidStart

theorem continueSequence_length {value seen : Nat} {low high : UInt8} {missing : Nat}
    {rest : List UInt8} {c : CodePoint} {left : List UInt8}
    (h : continueSequence value seen low high missing rest = .ok (c, left)) :
    left.length ≤ rest.length := by
  induction missing generalizing value seen low high rest with
  | zero =>
    simp only [continueSequence, Except.ok.injEq, Prod.mk.injEq] at h
    exact h.2 ▸ Nat.le_refl _
  | succ k ih =>
    cases rest with
    | nil => simp [continueSequence] at h
    | cons b rest =>
      rw [continueSequence] at h
      split at h
      · exact Nat.le_trans (ih h) (Nat.le_succ _)
      · simp at h

theorem nextCodePoint_length {b : UInt8} {rest : List UInt8} {c : CodePoint} {left : List UInt8}
    (h : nextCodePoint b rest = .ok (c, left)) : left.length ≤ rest.length := by
  unfold nextCodePoint at h
  dsimp only at h
  repeat' split at h
  all_goals first
    | (simp only [Except.ok.injEq, Prod.mk.injEq] at h; exact h.2 ▸ Nat.le_refl _)
    | exact continueSequence_length h
    | simp at h

/-- The error of a sequence that begins at a position. -/
def SequenceError.located (e : SequenceError) (position : Nat) (byte : UInt8) : DecodeError :=
  let (covered, reason) := match e with
    | .invalidStart => (1, "invalid start byte")
    | .invalidContinuation covered => (covered, "invalid continuation byte")
    | .incomplete covered => (covered, "unexpected end of data")
  ⟨"utf-8", position, position + covered, byte, reason⟩

/-- The text of bytes of which `before` have been read. -/
def decodeUtf8From (before : Nat) (done : Array CodePoint) (bytes : List UInt8) :
    Except DecodeError Text :=
  match bytes with
  | [] => .ok done.toList
  | b :: rest =>
    match _h : nextCodePoint b rest with
    | .error e => .error (e.located before b)
    | .ok (c, left) => decodeUtf8From (before + (utf8Bytes c).length) (done.push c) left
termination_by bytes.length
decreasing_by
  have := nextCodePoint_length _h
  simp only [List.length_cons]
  omega

/-- The text of bytes. -/
def decodeUtf8 (bytes : List UInt8) : Except DecodeError Text := decodeUtf8From 0 #[] bytes

end Text

end ImageTransfer
