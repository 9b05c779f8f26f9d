import ImageTransfer.Compression.History

/-!
# LZMA

An LZMA stream is a sequence of literal bytes and copies, written bit by bit with a range coder. The
coder keeps, for each place where a bit can come up, how likely a zero is, and learns from every bit.
Copies reach back by a new distance or by one of the last four.

The decoder takes a byte whenever the range has become too narrow to tell the next bit. Where it
stands between two bits is a `Phase`.
-/

namespace ImageTransfer.Compression.Lzma

/-- How literals and lengths depend on what came before. -/
structure Properties where
  /-- How many bits of the previous byte literals depend on. -/
  literalContext : Nat
  /-- How many bits of the position literals depend on. -/
  literalPosition : Nat
  /-- How many bits of the position all else depends on. -/
  position : Nat
deriving DecidableEq, Repr

/-- The properties that a byte stands for. -/
def Properties.ofByte? (b : UInt8) : Option Properties :=
  let n := b.toNat
  let p : Properties := ⟨n % 9, n / 9 % 5, n / 45⟩
  if 225 ≤ n ∨ 4 < p.literalContext + p.literalPosition then none else some p

/-- Where the decoder stands between two bits. -/
inductive Phase
  /-- Between two operations, where the stream may end. -/
  | boundary
  /-- At the bit that tells a literal from a copy. -/
  | isCopy
  /-- In a literal, at a node of its tree. -/
  | literal (node : Nat)
  /-- In a literal that has been the same as the byte a copy would give. -/
  | matchedLiteral (node : Nat) (expected : Nat)
  | isRepeated
  | isFirst
  | isLong
  | isSecond
  | isThird
  /-- At the bits that tell the range of a length. -/
  | lengthRange (repeated : Bool)
  | lengthRange2 (repeated : Bool)
  /-- In a length above `base`, at a node of the tree of `bits` bits that begins at `tree`. -/
  | length (repeated : Bool) (base tree bits node : Nat)
  | distanceSlot (length node : Nat)
  /-- In the low bits of a distance, the lowest first, of which `seen` have been seen. -/
  | distanceLow (length distance tree bits node seen : Nat)
  /-- In the bits of a distance that are equally likely. -/
  | distanceDirect (length distance left : Nat)
  /-- After the distance that marks the end. -/
  | endMark
  | finished
  /-- Unable to give what has been decoded. -/
  | stuck

/-- A stream that is being decoded. -/
structure State where
  properties : Properties
  /-- For each place, the likelihood of a zero in 2048ths. -/
  chances : Array UInt32
  range : UInt32
  code : UInt32
  /-- How many bytes are missing before the first bit. -/
  initial : Nat
  /-- Which operations came last, in twelve classes. -/
  recent : Nat
  /-- The last four distances, less one each. -/
  distances : Nat × Nat × Nat × Nat
  /-- What has been decoded. -/
  history : Array UInt8
  /-- How much of it was there when the dictionary was emptied. -/
  emptied : Nat
  /-- How far back copies may reach. -/
  dictionary : Nat
  /-- How much is still to come, if that is known. -/
  left : Option Nat
  /-- Whether an end mark may follow although the length is known. -/
  allowsMark : Bool
  /-- How long the history may become. -/
  limit : Option Nat
  phase : Phase

/-- How far back copies may reach for a dictionary of some size: it is not made too small, and comes
in units of sixteen. -/
def dictionaryReach (size : Nat) : Nat := (max size 4096 + 15) / 16 * 16

/-- Below this, the range is too narrow for another bit. -/
def narrow : UInt32 := 0x1000000

/-- Where the places of each kind of bit begin. -/
def isCopyBase : Nat := 0
@[inherit_doc isCopyBase] def isRepeatedBase : Nat := 192
@[inherit_doc isCopyBase] def isFirstBase : Nat := 204
@[inherit_doc isCopyBase] def isSecondBase : Nat := 216
@[inherit_doc isCopyBase] def isThirdBase : Nat := 228
@[inherit_doc isCopyBase] def isLongBase : Nat := 240
@[inherit_doc isCopyBase] def distanceSlotBase : Nat := 432
@[inherit_doc isCopyBase] def distanceLowBase : Nat := 688
@[inherit_doc isCopyBase] def distanceAlignBase : Nat := 816
@[inherit_doc isCopyBase] def lengthBase : Nat := 832
@[inherit_doc isCopyBase] def repeatedLengthBase : Nat := 1346
@[inherit_doc isCopyBase] def literalBase : Nat := 1860

/-- The places before anything has been learned. -/
def freshChances (p : Properties) : Array UInt32 :=
  Array.replicate (literalBase + 0x300 * Nat.pow 2 (p.literalContext + p.literalPosition)) 1024

/-- A stream before its first byte. -/
def start (p : Properties) (dictionarySize : Nat) : State where
  properties := p
  chances := freshChances p
  range := 0xFFFFFFFF
  code := 0
  initial := 5
  recent := 0
  distances := (0, 0, 0, 0)
  history := #[]
  emptied := 0
  dictionary := dictionaryReach dictionarySize
  left := none
  allowsMark := false
  limit := none
  phase := .boundary

/-- The state with nothing learned and nothing remembered but the history. -/
def State.forget (s : State) (p : Properties) : State :=
  { s with
    properties := p, chances := freshChances p, range := 0xFFFFFFFF, code := 0, initial := 5
    recent := 0, distances := (0, 0, 0, 0), phase := .boundary }

/-- The state ready for further bytes of input, with everything it has learned. -/
def State.restart (s : State) (left : Nat) : State :=
  { s with range := 0xFFFFFFFF, code := 0, initial := 5, left := some left, phase := .boundary }

/-- The state with one more byte of history, which does not come from the coder. -/
def State.store (s : State) (b : UInt8) : State :=
  let ⟨properties, chances, range, code, initial, recent, distances, history, emptied, dictionary,
    left, allowsMark, limit, phase⟩ := s
  ⟨properties, chances, range, code, initial, recent, distances, history.push b, emptied,
    dictionary, left, allowsMark, limit, phase⟩

/-- How far the history has come since the dictionary was emptied. -/
def State.position (s : State) : Nat := s.history.size - s.emptied

/-- The bits of the position that most things depend on. -/
def State.positionBits (s : State) : Nat := s.position % Nat.pow 2 s.properties.position

/-- The byte that lies a distance back, less one. -/
def State.byteBack (s : State) (distance : Nat) : UInt8 :=
  if s.position ≤ distance then 0 else s.history.getD (s.history.size - 1 - distance) 0

/-- Whether the dictionary reaches back a distance, less one. -/
def State.reaches (s : State) (distance : Nat) : Bool := distance < min s.position s.dictionary

/-- Where the places of a literal begin. -/
def State.literalPlace (s : State) : Nat :=
  let p := s.properties
  let low := s.position % Nat.pow 2 p.literalPosition
  let context := low * Nat.pow 2 p.literalContext +
    (s.byteBack 0).toNat / Nat.pow 2 (8 - p.literalContext)
  literalBase + 0x300 * context

/-- What the decoder asks of the range coder. -/
inductive Request
  /-- A bit at a place. -/
  | bit (place : Nat)
  /-- A bit that is equally likely to be either. -/
  | even

/-- Where the places of lengths begin. -/
def lengthPlace (repeated : Bool) : Nat := if repeated then repeatedLengthBase else lengthBase

/-- What is asked at a phase. -/
def State.request (s : State) : Request :=
  match s.phase with
  | .isCopy => .bit (isCopyBase + 16 * s.recent + s.positionBits)
  | .literal node => .bit (s.literalPlace + node)
  | .matchedLiteral node expected =>
    .bit (s.literalPlace + 0x100 * (1 + expected / 0x80 % 2) + node)
  | .isRepeated => .bit (isRepeatedBase + s.recent)
  | .isFirst => .bit (isFirstBase + s.recent)
  | .isLong => .bit (isLongBase + 16 * s.recent + s.positionBits)
  | .isSecond => .bit (isSecondBase + s.recent)
  | .isThird => .bit (isThirdBase + s.recent)
  | .lengthRange repeated => .bit (lengthPlace repeated)
  | .lengthRange2 repeated => .bit (lengthPlace repeated + 1)
  | .length _ _ tree _ node => .bit (tree + node)
  | .distanceSlot length node => .bit (distanceSlotBase + 64 * min (length - 2) 3 + node)
  | .distanceLow _ _ tree _ node _ => .bit (tree + node)
  | _ => .even

/-- What comes of a bit. -/
inductive Outcome
  | going (s : State)
  | corrupt

/-- Gives bytes by a function that adds them to the history. More than is still to come is corrupt,
and beyond the limit nothing can be given. -/
def State.give (s : State) (count : Nat) (extend : Array UInt8 → Array UInt8) : Outcome :=
  if s.left.any (· < count) then .corrupt
  else if s.limit.any (· < s.history.size + count) then .going { s with phase := .stuck }
  else
    let ⟨properties, chances, range, code, initial, recent, distances, history, emptied,
      dictionary, left, allowsMark, limit, _⟩ := s
    .going ⟨properties, chances, range, code, initial, recent, distances, extend history, emptied,
      dictionary, left.map (· - count), allowsMark, limit, .boundary⟩

/-- Gives a literal. -/
def State.giveLiteral (s : State) (symbol : Nat) : Outcome :=
  let recent := if s.recent < 4 then 0 else if s.recent < 10 then s.recent - 3 else s.recent - 6
  { s with recent := recent }.give 1 (·.push (UInt8.ofNat symbol))

/-- Gives a copy from the last distance. -/
def State.giveCopy (s : State) (length : Nat) : Outcome :=
  let back := s.distances.1 + 1
  s.give length fun history => copyBack history back length

/-- The distance that marks the end. -/
def endDistance : Nat := 0xFFFFFFFF

/-- A copy from a new distance. -/
def State.giveNew (s : State) (length distance : Nat) : Outcome :=
  let (a, b, c, _) := s.distances
  let s := { s with distances := (distance, a, b, c) }
  if distance = endDistance then
    match s.left with
    | none => .going { s with phase := .endMark }
    | some 0 => if s.allowsMark then .going { s with phase := .endMark } else .corrupt
    | some _ => .corrupt
  else if s.reaches distance then s.giveCopy length
  else .corrupt

/-- The phase in which a length is read. -/
def State.atLength (s : State) (repeated : Bool) : Outcome :=
  .going { s with phase := .lengthRange repeated }

/-- What follows a length. -/
def State.afterLength (s : State) (repeated : Bool) (length : Nat) : Outcome :=
  if repeated then s.giveCopy length else .going { s with phase := .distanceSlot length 1 }

/-- What follows the slot of a distance: its low bits. -/
def State.afterSlot (s : State) (length slot : Nat) : Outcome :=
  if slot < 4 then s.giveNew length slot
  else
    let bits := slot / 2 - 1
    let high := (2 + slot % 2) * Nat.pow 2 bits
    if slot < 14 then
      .going { s with phase := .distanceLow length high (distanceLowBase + high - slot) bits 1 0 }
    else .going { s with phase := .distanceDirect length (high / Nat.pow 2 bits) (bits - 4) }

/-- A copy from one of the last four distances, which comes to the front. -/
def State.useDistance (s : State) (distances : Nat × Nat × Nat × Nat) : Outcome :=
  { s with distances := distances, recent := if s.recent < 7 then 8 else 11 }.atLength true

/-- What follows a bit. -/
def State.answer (s : State) (bit : Bool) : Outcome :=
  let digit := if bit then 1 else 0
  match s.phase with
  | .isCopy =>
    if bit then .going { s with phase := .isRepeated }
    else if s.recent < 7 then .going { s with phase := .literal 1 }
    else .going { s with phase := .matchedLiteral 1 (s.byteBack s.distances.1).toNat }
  | .literal node =>
    let node := 2 * node + digit
    if node < 0x100 then .going { s with phase := .literal node }
    else s.giveLiteral (node - 0x100)
  | .matchedLiteral node expected =>
    let same := (expected / 0x80 % 2 == 1) == bit
    let node := 2 * node + digit
    if 0x100 ≤ node then s.giveLiteral (node - 0x100)
    else if same then .going { s with phase := .matchedLiteral node (2 * expected) }
    else .going { s with phase := .literal node }
  | .isRepeated =>
    if !bit then { s with recent := if s.recent < 7 then 7 else 10 }.atLength false
    else if s.reaches 0 then .going { s with phase := .isFirst }
    else .corrupt
  | .isFirst => .going { s with phase := if bit then .isSecond else .isLong }
  | .isLong =>
    if bit then s.useDistance s.distances
    else { s with recent := if s.recent < 7 then 9 else 11 }.giveCopy 1
  | .isSecond =>
    let (a, b, c, d) := s.distances
    if bit then .going { s with phase := .isThird } else s.useDistance (b, a, c, d)
  | .isThird =>
    let (a, b, c, d) := s.distances
    s.useDistance (if bit then (d, a, b, c) else (c, a, b, d))
  | .lengthRange repeated =>
    let place := lengthPlace repeated
    if bit then .going { s with phase := .lengthRange2 repeated }
    else .going { s with phase := .length repeated 2 (place + 2 + 8 * s.positionBits) 3 1 }
  | .lengthRange2 repeated =>
    let place := lengthPlace repeated
    if bit then .going { s with phase := .length repeated 18 (place + 258) 8 1 }
    else .going { s with phase := .length repeated 10 (place + 130 + 8 * s.positionBits) 3 1 }
  | .length repeated base tree bits node =>
    let node := 2 * node + digit
    if node < Nat.pow 2 bits then .going { s with phase := .length repeated base tree bits node }
    else s.afterLength repeated (base + node - Nat.pow 2 bits)
  | .distanceSlot length node =>
    let node := 2 * node + digit
    if node < 64 then .going { s with phase := .distanceSlot length node }
    else s.afterSlot length (node - 64)
  | .distanceLow length distance tree bits node seen =>
    let distance := distance + digit * Nat.pow 2 seen
    if seen + 1 < bits then
      .going { s with phase := .distanceLow length distance tree bits (2 * node + digit) (seen + 1) }
    else s.giveNew length distance
  | .distanceDirect length distance left =>
    let distance := 2 * distance + digit
    if 1 < left then .going { s with phase := .distanceDirect length distance (left - 1) }
    else .going { s with phase := .distanceLow length (16 * distance) distanceAlignBase 4 1 0 }
  | _ => .corrupt

/-- The next bit from the range coder, which learns from it. -/
def State.takeBit (s : State) : State × Bool :=
  match s.request with
  | .bit place =>
    let ⟨properties, chances, range, code, initial, recent, distances, history, emptied,
      dictionary, left, allowsMark, limit, phase⟩ := s
    let chance := chances.getD place 1024
    let bound := (range >>> 11) * chance
    if code < bound then
      (⟨properties, chances.setIfInBounds place (chance + ((2048 - chance) >>> 5)), bound, code,
        initial, recent, distances, history, emptied, dictionary, left, allowsMark, limit, phase⟩,
        false)
    else
      (⟨properties, chances.setIfInBounds place (chance - (chance >>> 5)), range - bound,
        code - bound, initial, recent, distances, history, emptied, dictionary, left, allowsMark,
        limit, phase⟩, true)
  | .even =>
    let range := s.range >>> 1
    let code := s.code - range
    if code &&& 0x80000000 = 0 then ({ s with range := range, code := code }, true)
    else ({ s with range := range, code := code + range }, false)

/-- What a decoder does with the bits it can tell. -/
inductive Step
  /-- It needs another byte. -/
  | hungry (s : State)
  | finished (s : State)
  | corrupt

/-- Decides where no bit is needed: whether the stream ends here, or how it goes on. -/
def State.settle (s : State) : Step :=
  match s.phase with
  | .boundary =>
    match s.left with
    | some 0 =>
      if s.code = 0 then .finished { s with phase := .finished }
      else if s.allowsMark then .hungry { s with phase := .isCopy }
      else .corrupt
    | _ => .hungry { s with phase := .isCopy }
  | .endMark => if s.code = 0 then .finished { s with phase := .finished } else .corrupt
  | _ => .hungry s

/-- Decodes as long as the range tells bits. Every bit makes the range narrower. -/
def State.advance (s : State) : Step :=
  let range := s.range
  if range < narrow then .hungry s
  else match s.phase with
    | .stuck => .hungry s
    | _ =>
      match s.settle with
      | .finished t => .finished t
      | .corrupt => .corrupt
      | .hungry t =>
        let (u, bit) := t.takeBit
        match u.answer bit with
        | .corrupt => .corrupt
        | .going v => if v.range < range then v.advance else .corrupt
termination_by s.range.toNat
decreasing_by
  rename_i h
  exact UInt32.lt_iff_toNat_lt.1 h

/-- One more byte. -/
def State.push (s : State) (b : UInt8) : Step :=
  match s.initial with
  | initial + 1 =>
    if initial = 4 ∧ b ≠ 0 then .corrupt
    else
      let s := { s with code := (s.code <<< 8) ||| b.toUInt32, initial := initial }
      if initial = 0 then s.advance else .hungry s
  | 0 =>
    match s.phase with
    | .stuck => .corrupt
    | _ =>
      { s with range := s.range <<< 8, code := (s.code <<< 8) ||| b.toUInt32 }.advance

end ImageTransfer.Compression.Lzma
