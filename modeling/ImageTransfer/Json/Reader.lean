import ImageTransfer.Decimal.Integer
import ImageTransfer.Json.Encoding
import ImageTransfer.Json.Value

/-!
# Reading JSON

The reader goes once through the text with a stack of the containers it is in. Beside the JSON
grammar it takes the names `NaN`, `Infinity` and `-Infinity`. An error tells where the text stops
being JSON, by line, column and number of code points. Nesting beyond a limit and whole numbers of
too many digits are refused.
-/

namespace ImageTransfer.Json

/-- How many containers may stand in one another. -/
def nestingLimit : Nat := 990

/-- What the text lacks or has too much. -/
inductive Problem
  | expectingValue
  | expectingName
  | expectingColon
  | expectingComma
  | extraData
  | unterminatedString
  | controlCharacter
  | badEscape
  | badUnicodeEscape
deriving DecidableEq, Repr

/-- The text that reports the problem. -/
def Problem.message : Problem → String
  | .expectingValue => "Expecting value"
  | .expectingName => "Expecting property name enclosed in double quotes"
  | .expectingColon => "Expecting ':' delimiter"
  | .expectingComma => "Expecting ',' delimiter"
  | .extraData => "Extra data"
  | .unterminatedString => "Unterminated string starting at"
  | .controlCharacter => "Invalid control character at"
  | .badEscape => "Invalid \\escape"
  | .badUnicodeEscape => "Invalid \\uXXXX escape"

/-- Why a text is not read. -/
inductive ReadError
  /-- The text is not JSON; `left` code points of it are not read. -/
  | malformed (problem : Problem) (left : Nat)
  /-- A whole number has too many digits. -/
  | tooManyDigits (digits : Nat)
  /-- Too many containers stand in one another. -/
  | tooDeep
deriving DecidableEq, Repr

/-- White space between tokens. -/
def isSpace (c : CodePoint) : Bool :=
  c.val == 0x20 || c.val == 0x09 || c.val == 0x0A || c.val == 0x0D

/-- A text without the white space it begins with. -/
def skipSpace (t : Text) : Text := t.dropWhile isSpace

theorem skipSpace_length (t : Text) : (skipSpace t).length ≤ t.length :=
  (List.dropWhile_sublist _).length_le

/-- The value of a hexadecimal digit. -/
def hexValue? (c : CodePoint) : Option Nat :=
  let n := c.val
  if 0x30 ≤ n ∧ n ≤ 0x39 then some (n - 0x30)
  else if 0x41 ≤ n ∧ n ≤ 0x46 then some (n - 0x37)
  else if 0x61 ≤ n ∧ n ≤ 0x66 then some (n - 0x57)
  else none

/-- The number that four hexadecimal digits make. -/
def hexUnit? (a b c d : CodePoint) : Option Nat := do
  let a ← hexValue? a
  let b ← hexValue? b
  let c ← hexValue? c
  let d ← hexValue? d
  return ((a * 16 + b) * 16 + c) * 16 + d

/-- What a short escape stands for. -/
def shortEscape? (c : CodePoint) : Option CodePoint :=
  match c.val with
  | 0x22 => some ⟨0x22, by decide⟩
  | 0x5C => some ⟨0x5C, by decide⟩
  | 0x2F => some ⟨0x2F, by decide⟩
  | 0x62 => some ⟨0x08, by decide⟩
  | 0x66 => some ⟨0x0C, by decide⟩
  | 0x6E => some ⟨0x0A, by decide⟩
  | 0x72 => some ⟨0x0D, by decide⟩
  | 0x74 => some ⟨0x09, by decide⟩
  | _ => none

/-- What follows `\u`: a code unit, or a pair of surrogates over two escapes. The escape is read
only if something follows it, since a string has to end in a quote. -/
def readUnit (t : Text) : Except ReadError (CodePoint × Text) :=
  let bad (at_ : Text) : Except ReadError (CodePoint × Text) :=
    .error (.malformed .badUnicodeEscape (at_.length + 1))
  match t with
  | a :: b :: c :: d :: next :: rest =>
    match hexUnit? a b c d with
    | none => bad t
    | some high =>
      let single := .ok (Text.codePoint high, next :: rest)
      if 0xD800 ≤ high ∧ high < 0xDC00 ∧ next.val = 0x5C then
        match rest with
        | u :: e :: f :: g :: h :: more =>
          if u.val = 0x75 ∧ more ≠ [] then
            match hexUnit? e f g h with
            | none => bad (e :: f :: g :: h :: more)
            | some low =>
              if 0xDC00 ≤ low ∧ low < 0xE000 then
                .ok (Text.codePoint (0x10000 + (high - 0xD800) * 0x400 + (low - 0xDC00)), more)
              else single
          else single
        | _ => single
      else single
  | _ => bad t

theorem readUnit_length {t : Text} {c : CodePoint} {rest : Text}
    (h : readUnit t = .ok (c, rest)) : rest.length ≤ t.length := by
  unfold readUnit at h
  dsimp only at h
  repeat' split at h
  all_goals first
    | (simp only [Except.ok.injEq, Prod.mk.injEq] at h
       obtain ⟨_, rfl⟩ := h
       simp only [List.length_cons]
       omega)
    | simp at h

/-- The rest of a string after `done`, and the text after its closing quote. `opening` is the text
from the opening quote on. -/
def readText (opening : Text) (done : Array CodePoint) (t : Text) :
    Except ReadError (Text × Text) :=
  match t with
  | [] => .error (.malformed .unterminatedString opening.length)
  | c :: rest =>
    if c.val = 0x22 then .ok (done.toList, rest)
    else if c.val = 0x5C then
      match rest with
      | [] => .error (.malformed .unterminatedString opening.length)
      | e :: after =>
        if e.val = 0x75 then
          match _ : readUnit after with
          | .ok (u, left) => readText opening (done.push u) left
          | .error err => .error err
        else match shortEscape? e with
          | some u => readText opening (done.push u) after
          | none => .error (.malformed .badEscape (after.length + 2))
    else if c.val ≤ 0x1F then .error (.malformed .controlCharacter (rest.length + 1))
    else readText opening (done.push c) rest
termination_by t.length
decreasing_by
  · have := readUnit_length (by assumption)
    simp only [List.length_cons]
    omega
  · simp only [List.length_cons]
    omega
  · simp

theorem readText_length {opening : Text} {done : Array CodePoint} {t s rest : Text}
    (h : readText opening done t = .ok (s, rest)) : rest.length < t.length := by
  fun_induction readText opening done t
  all_goals first
    | (simp only [Except.ok.injEq, Prod.mk.injEq] at h
       obtain ⟨_, rfl⟩ := h
       simp)
    | (rename_i hu ih
       have := ih h
       have := readUnit_length hu
       simp only [List.length_cons] at *
       omega)
    | (rename_i ih
       have := ih h
       simp only [List.length_cons] at *
       omega)
    | simp at h

/-- Whether a code point is a digit of ASCII. -/
def isDigit (c : CodePoint) : Bool := 0x30 ≤ c.val && c.val ≤ 0x39

/-- The digits at the beginning of a text. -/
def takeDigits (t : Text) : List Nat := (t.takeWhile isDigit).map (·.val - 0x30)

/-- A number as it is written. -/
structure Numeral where
  negative : Bool
  whole : List Nat
  fraction : List Nat
  /-- The exponent, if one is written. -/
  exponent : Option Int

/-- The fraction at the beginning of a text, if there is one. -/
def readFraction (t : Text) : List Nat × Text :=
  match t with
  | point :: rest =>
    if point.val = 0x2E ∧ takeDigits rest ≠ [] then (takeDigits rest, rest.dropWhile isDigit)
    else ([], t)
  | [] => ([], t)

/-- A sign at the beginning of a text, as "is negative"; a plus is taken only where it may stand. -/
def readSign (plus : Bool) (t : Text) : Bool × Text :=
  match t with
  | c :: rest =>
    if c.val = 0x2D then (true, rest) else if plus && c.val = 0x2B then (false, rest) else (false, t)
  | [] => (false, t)

/-- The exponent at the beginning of a text, if there is one. -/
def readExponent (t : Text) : Option Int × Text :=
  match t with
  | e :: rest =>
    let (negative, digits) := readSign true rest
    if (e.val = 0x65 ∨ e.val = 0x45) ∧ takeDigits digits ≠ [] then
      let n : Int := Decimal.ofDigits (takeDigits digits)
      (some (if negative then -n else n), digits.dropWhile isDigit)
    else (none, t)
  | [] => (none, t)

/-- The whole digits at the beginning of a text; a leading zero stands alone. -/
def readWhole? (t : Text) : Option (List Nat × Text) :=
  match t with
  | c :: rest =>
    if c.val = 0x30 then some ([0], rest)
    else if isDigit c then some (takeDigits t, t.dropWhile isDigit)
    else none
  | [] => none

/-- The number at the beginning of a text, and what follows it. -/
def readNumeral? (t : Text) : Option (Numeral × Text) :=
  let sign := readSign false t
  (readWhole? sign.2).map fun (whole, rest) =>
    let fraction := readFraction rest
    let exponent := readExponent fraction.2
    (⟨sign.1, whole, fraction.1, exponent.1⟩, exponent.2)

theorem dropDigits_length (t : Text) : (t.dropWhile isDigit).length ≤ t.length :=
  (List.dropWhile_sublist _).length_le

theorem readSign_length (plus : Bool) (t : Text) : (readSign plus t).2.length ≤ t.length := by
  unfold readSign
  repeat' split
  all_goals simp

theorem readFraction_length (t : Text) : (readFraction t).2.length ≤ t.length := by
  unfold readFraction
  split
  · rename_i point rest
    have := dropDigits_length rest
    split <;> simp only [List.length_cons] <;> omega
  · simp

theorem readExponent_length (t : Text) : (readExponent t).2.length ≤ t.length := by
  unfold readExponent
  split
  · rename_i e rest
    have h₁ := readSign_length true rest
    have h₂ := dropDigits_length (readSign true rest).2
    dsimp only
    split <;> simp only [List.length_cons] <;> omega
  · simp

theorem readWhole?_length {t rest : Text} {ds : List Nat} (h : readWhole? t = some (ds, rest)) :
    rest.length < t.length := by
  unfold readWhole? at h
  split at h
  · rename_i c more
    have := dropDigits_length more
    split at h
    · simp only [Option.some.injEq, Prod.mk.injEq] at h
      simp [← h.2]
    · split at h
      · rename_i hc
        simp only [Option.some.injEq, Prod.mk.injEq, List.dropWhile_cons, hc, if_true] at h
        rw [← h.2, List.length_cons]
        omega
      · simp at h
  · simp at h

theorem readNumeral?_length {t rest : Text} {n : Numeral} (h : readNumeral? t = some (n, rest)) :
    rest.length < t.length := by
  simp only [readNumeral?, Option.map_eq_some_iff] at h
  obtain ⟨⟨whole, left⟩, hw, h⟩ := h
  simp only [Prod.mk.injEq] at h
  have h₁ := readSign_length false t
  have h₂ := readWhole?_length hw
  have h₃ := readFraction_length left
  have h₄ := readExponent_length (readFraction left).2
  rw [← h.2]
  omega

/-- The value of a number: one without fraction and exponent is whole. -/
def Numeral.value (n : Numeral) : Except ReadError Value :=
  if n.fraction = [] ∧ n.exponent = none then
    if n.whole.length > Decimal.digitLimit then .error (.tooManyDigits n.whole.length)
    else
      let m : Int := Decimal.ofDigits n.whole
      .ok (.integer (if n.negative then -m else m))
  else
    .ok (.real (.ofDecimal n.negative (Decimal.ofDigits (n.whole ++ n.fraction))
      (n.exponent.getD 0 - n.fraction.length)))

/-- A container that is being read. -/
inductive Frame
  | array (done : Array Value)
  /-- An object, of which the member of this name comes next. -/
  | object (done : Members) (name : Text)

/-- What comes next. -/
inductive Place
  | value
  /-- An item, or the end of an array that is empty. -/
  | firstItem
  /-- A member, or the end of an object that is empty. -/
  | firstMember
  /-- A further member of an object. -/
  | member (done : Members)
  /-- What follows a value: the end, or more of its container. -/
  | after (v : Value)

/-- Which places lead to another place without reading anything. -/
def Place.rank : Place → Nat
  | .firstItem | .firstMember => 1
  | _ => 0

/-- The names that stand for a value. -/
def constants : List (String × Value) :=
  [("null", .null), ("true", .bool true), ("false", .bool false), ("NaN", .real .nan),
    ("Infinity", .real (.infinite false)), ("-Infinity", .real (.infinite true))]

/-- A constant at the beginning of a text. -/
def readConstant? (t : Text) : Option (Value × Text) :=
  (constants.find? fun (name, _) => (Text.ofString name).isPrefixOf t).map fun (name, v) =>
    (v, t.drop (Text.ofString name).length)

/-- A value without parts at the beginning of a text, and what follows it. -/
def readAtom (t : Text) : Except ReadError (Value × Text) :=
  match readConstant? t with
  | some atom => .ok atom
  | none =>
    match readNumeral? t with
    | some (n, rest) =>
      match n.value with
      | .ok v => .ok (v, rest)
      | .error e => .error e
    | none => .error (.malformed .expectingValue t.length)

theorem readConstant?_length {t rest : Text} {v : Value} (h : readConstant? t = some (v, rest)) :
    rest.length < t.length := by
  simp only [readConstant?, Option.map_eq_some_iff] at h
  obtain ⟨⟨name, w⟩, hf, h⟩ := h
  simp only [Prod.mk.injEq] at h
  have hp := List.find?_some hf
  have hm := List.mem_of_find?_eq_some hf
  have hl : (Text.ofString name).length ≤ t.length :=
    (List.isPrefixOf_iff_prefix.1 hp).length_le
  have hn : 0 < (Text.ofString name).length := by
    simp only [constants, List.mem_cons, Prod.mk.injEq, List.not_mem_nil, or_false] at hm
    rcases hm with h | h | h | h | h | h <;> rw [h.1] <;> decide
  rw [← h.2, List.length_drop]
  omega

theorem readAtom_length {t rest : Text} {v : Value} (h : readAtom t = .ok (v, rest)) :
    rest.length < t.length := by
  unfold readAtom at h
  split at h
  · rename_i hc
    simp only [Except.ok.injEq] at h
    subst h
    exact readConstant?_length hc
  · split at h
    · rename_i hn
      split at h
      · simp only [Except.ok.injEq, Prod.mk.injEq] at h
        exact h.2 ▸ readNumeral?_length hn
      · simp at h
    · simp at h

/-- What a turn of the reader comes to. -/
inductive Turn
  | done (v : Value)
  /-- The reader goes on at a place inside the containers of the stack, innermost first. -/
  | goOn (stack : List Frame) (place : Place) (t : Text)

/-- A turn where a value is to come. -/
def readValue (stack : List Frame) (t : Text) : Except ReadError Turn :=
  match skipSpace t with
  | [] => .error (.malformed .expectingValue 0)
  | c :: rest =>
    if c.val = 0x22 then
      match readText (c :: rest) #[] rest with
      | .ok (s, left) => .ok (.goOn stack (.after (.text s)) left)
      | .error e => .error e
    else if c.val = 0x5B ∨ c.val = 0x7B then
      if nestingLimit ≤ stack.length then .error .tooDeep
      else if c.val = 0x5B then .ok (.goOn (.array #[] :: stack) .firstItem rest)
      else .ok (.goOn stack .firstMember rest)
    else
      match readAtom (c :: rest) with
      | .ok (v, left) => .ok (.goOn stack (.after v) left)
      | .error e => .error e

/-- A turn where a member of an object is to come. -/
def readMember (stack : List Frame) (done : Members) (t : Text) : Except ReadError Turn :=
  match skipSpace t with
  | [] => .error (.malformed .expectingName 0)
  | c :: rest =>
    if c.val = 0x22 then
      match readText (c :: rest) #[] rest with
      | .error e => .error e
      | .ok (name, left) =>
        match skipSpace left with
        | [] => .error (.malformed .expectingColon 0)
        | colon :: more =>
          if colon.val = 0x3A then .ok (.goOn (.object done name :: stack) .value more)
          else .error (.malformed .expectingColon (more.length + 1))
    else .error (.malformed .expectingName (rest.length + 1))

/-- A turn after a value. -/
def readAfter (v : Value) (stack : List Frame) (t : Text) : Except ReadError Turn :=
  match stack with
  | [] =>
    match skipSpace t with
    | [] => .ok (.done v)
    | extra => .error (.malformed .extraData extra.length)
  | .array done :: outer =>
    match skipSpace t with
    | [] => .error (.malformed .expectingComma 0)
    | c :: rest =>
      if c.val = 0x2C then .ok (.goOn (.array (done.push v) :: outer) .value rest)
      else if c.val = 0x5D then .ok (.goOn outer (.after (.array (done.push v).toList)) rest)
      else .error (.malformed .expectingComma (rest.length + 1))
  | .object done name :: outer =>
    match skipSpace t with
    | [] => .error (.malformed .expectingComma 0)
    | c :: rest =>
      if c.val = 0x2C then .ok (.goOn outer (.member (Members.put done name v)) rest)
      else if c.val = 0x7D then .ok (.goOn outer (.after (.object (Members.put done name v))) rest)
      else .error (.malformed .expectingComma (rest.length + 1))

/-- One turn of the reader at a place. -/
def turn (stack : List Frame) (place : Place) (t : Text) : Except ReadError Turn :=
  match place with
  | .value => readValue stack t
  | .firstItem =>
    match skipSpace t, stack with
    | c :: rest, .array _ :: outer =>
      if c.val = 0x5D then .ok (.goOn outer (.after (.array [])) rest)
      else .ok (.goOn stack .value t)
    | _, _ => .ok (.goOn stack .value t)
  | .firstMember =>
    match skipSpace t with
    | c :: rest =>
      if c.val = 0x7D then .ok (.goOn stack (.after (.object [])) rest)
      else .ok (.goOn stack (.member []) t)
    | [] => .ok (.goOn stack (.member []) t)
  | .member done => readMember stack done t
  | .after v => readAfter v stack t

theorem skipSpace_cons_length {t rest : Text} {c : CodePoint} (h : skipSpace t = c :: rest) :
    rest.length < t.length := by
  have := skipSpace_length t
  rw [h, List.length_cons] at this
  omega

theorem readValue_length {stack stack' : List Frame} {place : Place} {t left : Text}
    (h : readValue stack t = .ok (.goOn stack' place left)) : left.length < t.length := by
  unfold readValue at h
  split at h
  · simp at h
  · rename_i c rest hs
    have hrest := skipSpace_cons_length hs
    repeat' split at h
    all_goals simp only [Except.ok.injEq, Turn.goOn.injEq, reduceCtorEq] at h
    all_goals obtain ⟨-, -, rfl⟩ := h
    · rename_i hr
      have := readText_length hr
      omega
    · exact hrest
    · exact hrest
    · rename_i hr
      have := readAtom_length hr
      rw [List.length_cons] at this
      omega

theorem readMember_length {stack stack' : List Frame} {done : Members} {place : Place}
    {t left : Text} (h : readMember stack done t = .ok (.goOn stack' place left)) :
    left.length < t.length := by
  unfold readMember at h
  split at h
  · simp at h
  · rename_i c rest hs
    have hrest := skipSpace_cons_length hs
    repeat' split at h
    all_goals simp only [Except.ok.injEq, Turn.goOn.injEq, reduceCtorEq] at h
    rename_i hr _ _ _ hc _
    obtain ⟨-, -, rfl⟩ := h
    have := readText_length hr
    have := skipSpace_cons_length hc
    omega

theorem readAfter_length {v : Value} {stack stack' : List Frame} {place : Place} {t left : Text}
    (h : readAfter v stack t = .ok (.goOn stack' place left)) : left.length < t.length := by
  unfold readAfter at h
  split at h
  · split at h <;> simp at h
  all_goals
    split at h
    · simp at h
    · rename_i hs
      have hrest := skipSpace_cons_length hs
      repeat' split at h
      all_goals simp only [Except.ok.injEq, Turn.goOn.injEq, reduceCtorEq] at h
      all_goals
        obtain ⟨-, -, rfl⟩ := h
        exact hrest

/-- A turn reads something, or leads to a place where something is read. -/
theorem turn_progress {stack stack' : List Frame} {place place' : Place} {t left : Text}
    (h : turn stack place t = .ok (.goOn stack' place' left)) :
    left.length < t.length ∨ (left.length = t.length ∧ place'.rank < place.rank) := by
  cases place with
  | value => exact .inl (readValue_length h)
  | member done => exact .inl (readMember_length h)
  | after v => exact .inl (readAfter_length h)
  | firstItem =>
    dsimp only [turn] at h
    split at h
    · rename_i hs
      split at h
      all_goals
        simp only [Except.ok.injEq, Turn.goOn.injEq] at h
        obtain ⟨-, rfl, rfl⟩ := h
      · exact .inl (skipSpace_cons_length hs)
      · exact .inr ⟨rfl, Nat.zero_lt_one⟩
    · simp only [Except.ok.injEq, Turn.goOn.injEq] at h
      obtain ⟨-, rfl, rfl⟩ := h
      exact .inr ⟨rfl, Nat.zero_lt_one⟩
  | firstMember =>
    dsimp only [turn] at h
    split at h
    · rename_i hs
      split at h
      all_goals
        simp only [Except.ok.injEq, Turn.goOn.injEq] at h
        obtain ⟨-, rfl, rfl⟩ := h
      · exact .inl (skipSpace_cons_length hs)
      · exact .inr ⟨rfl, Nat.zero_lt_one⟩
    · simp only [Except.ok.injEq, Turn.goOn.injEq] at h
      obtain ⟨-, rfl, rfl⟩ := h
      exact .inr ⟨rfl, Nat.zero_lt_one⟩

/-- Reads on at a place inside the containers of the stack, innermost first. -/
def readFrom (stack : List Frame) (place : Place) (t : Text) : Except ReadError Value :=
  match _h : turn stack place t with
  | .error e => .error e
  | .ok (.done v) => .ok v
  | .ok (.goOn stack place left) => readFrom stack place left
termination_by (t.length, place.rank)
decreasing_by
  rcases turn_progress _h with hlt | ⟨heq, hrank⟩
  · exact Prod.Lex.left _ _ hlt
  · rw [heq]
    exact Prod.Lex.right _ hrank

/-- The value that a text denotes. -/
def read (t : Text) : Except ReadError Value := readFrom [] .value t

/-- Where a reader stands: line and column from one, and the number of code points before it. -/
def positionText (t : Text) (left : Nat) : String :=
  let before := t.take (t.length - left)
  let line := before.countP (·.val == 0x0A) + 1
  let column := (before.reverse.takeWhile (·.val != 0x0A)).length + 1
  s!"line {line} column {column} (char {before.length})"

/-- Why a document is not read. -/
inductive DocumentError
  | encoding (e : DecodeError)
  | malformed (problem : Problem) (position : String)
  | tooManyDigits (digits : Nat)
  | tooDeep
deriving DecidableEq, Repr

/-- The value of a document. -/
def readDocument (bytes : List UInt8) : Except DocumentError Value :=
  match decodeDocument bytes with
  | .error e => .error (.encoding e)
  | .ok t =>
    match read t with
    | .ok v => .ok v
    | .error (.malformed problem left) => .error (.malformed problem (positionText t left))
    | .error (.tooManyDigits n) => .error (.tooManyDigits n)
    | .error .tooDeep => .error .tooDeep

end ImageTransfer.Json
