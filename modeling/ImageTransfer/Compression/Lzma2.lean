import ImageTransfer.Compression.Lzma
import ImageTransfer.Digest.Word

/-!
# LZMA2

An LZMA2 stream is a sequence of chunks. A chunk is stored as it is, or is an LZMA stream whose
sizes, decoded and coded, are told before it. The first byte of a chunk also tells what is forgotten
before it: nothing, what has been learned, the properties, or everything decoded so far.
-/

namespace ImageTransfer.Compression.Lzma2

/-- Where the reader stands. -/
inductive Stage
  /-- Before a chunk, or before the byte that ends the stream. -/
  | control
  /-- In the rest of the header of a chunk, of which `need` bytes are missing. -/
  | header (control : UInt8) (need : Nat) (done : List UInt8)
  | stored (left : Nat)
  /-- In an LZMA stream of which so many bytes are missing. -/
  | coded (left : Nat)
  | finished

/-- A stream that is being read. -/
structure State where
  lzma : Lzma.State
  stage : Stage
  /-- Whether the next coded chunk has to tell its properties. -/
  needsProperties : Bool
  /-- Whether the next chunk has to empty the dictionary. -/
  needsEmptying : Bool

/-- Before the first byte. -/
def start (dictionarySize : Nat) (limit : Option Nat) : State where
  lzma := { Lzma.start ⟨0, 0, 0⟩ dictionarySize with limit := limit }
  stage := .control
  needsProperties := true
  needsEmptying := true

/-- What has been decoded. -/
def State.history (s : State) : Array UInt8 := s.lzma.history

/-- Whether the stream has ended. -/
def State.isFinished (s : State) : Bool :=
  match s.stage with
  | .finished => true
  | _ => false

/-- A copy of the state at a stage. -/
def State.atStage (s : State) (stage : Stage) : State := { s with stage := stage }

/-- Whether the first byte of a chunk says that the dictionary is emptied before it. -/
def empties (control : UInt8) : Bool := 0xE0 ≤ control || control == 1

/-- The state after the first byte of a chunk. -/
def State.pushControl? (s : State) (control : UInt8) : Option State :=
  if control = 0 then some (s.atStage .finished)
  else if !empties control && s.needsEmptying then none
  else if control < 0x80 && 2 < control then none
  else
    let needsProperties := s.needsProperties || empties control
    let ⟨lzma, _, _, _⟩ := s
    let lzma := if empties control then { lzma with emptied := lzma.history.size } else lzma
    if control < 0x80 then some ⟨lzma, .header control 2 [], needsProperties, false⟩
    else if 0xC0 ≤ control then some ⟨lzma, .header control 5 [], false, false⟩
    else if needsProperties then none
    else some ⟨lzma, .header control 4 [], false, false⟩

/-- The state after the header of a chunk. -/
def State.afterHeader? (s : State) (control : UInt8) (done : List UInt8) : Option State :=
  let ⟨lzma, _, needsProperties, needsEmptying⟩ := s
  match done with
  | [high, low] =>
    some ⟨lzma, .stored (natOfBytesBE [high, low] + 1), needsProperties, needsEmptying⟩
  | high :: low :: codedHigh :: codedLow :: properties =>
    let size := (control &&& 0x1F).toNat * 0x10000 + natOfBytesBE [high, low] + 1
    let coded := natOfBytesBE [codedHigh, codedLow] + 1
    let fresh? : Option Lzma.State :=
      match properties with
      | [] => some (if 0xA0 ≤ control then lzma.forget lzma.properties else lzma)
      | b :: _ => (Lzma.Properties.ofByte? b).map lzma.forget
    fresh?.map fun lzma => ⟨lzma.restart size, .coded coded, needsProperties, needsEmptying⟩
  | _ => none

/-- One more byte. -/
def State.push? (s : State) (b : UInt8) : Option State :=
  match s.stage with
  | .control => s.pushControl? b
  | .header control need done =>
    let done := done ++ [b]
    if 1 < need then some (s.atStage (.header control (need - 1) done))
    else s.afterHeader? control done
  | .stored left =>
    let ⟨lzma, _, needsProperties, needsEmptying⟩ := s
    if lzma.limit.any (· ≤ lzma.history.size) then none
    else some ⟨lzma.store b, if left ≤ 1 then .control else .stored (left - 1), needsProperties,
      needsEmptying⟩
  | .coded left =>
    let ⟨lzma, _, needsProperties, needsEmptying⟩ := s
    if left = 0 then none
    else
      match lzma.push b with
      | .corrupt => none
      | .hungry lzma => some ⟨lzma, .coded (left - 1), needsProperties, needsEmptying⟩
      | .finished lzma =>
        if left = 1 then some ⟨lzma, .control, needsProperties, needsEmptying⟩ else none
  | .finished => some s

end ImageTransfer.Compression.Lzma2
