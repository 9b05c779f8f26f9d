import ImageTransfer.Json.Document
import ImageTransfer.Proofs.Text.Utf8

/-!
# Compact JSON is read back

A value `ReadsBack` if a reader that stands before it, inside whatever containers, comes out behind
it with this value. A text reads back since each code point does, escaped or not; an array and an
object read back if their parts do. What stands behind a value matters only to numbers, which could
go on there: it is the end, a comma or a closing bracket (`Delimited`).
-/

namespace ImageTransfer.Json

variable {stack stack' : List Frame} {place place' : Place} {t rest left : Text} {c : CodePoint}

/-! ## Turns of the reader -/

theorem readFrom_eq (stack : List Frame) (place : Place) (t : Text) : readFrom stack place t =
    match turn stack place t with
    | .error e => .error e
    | .ok (.done v) => .ok v
    | .ok (.goOn stack place left) => readFrom stack place left := by
  rw [readFrom]
  split
  all_goals
    rename_i hturn
    rw [hturn]

theorem readFrom_of_turn (h : turn stack place t = .ok (.goOn stack' place' left)) :
    readFrom stack place t = readFrom stack' place' left := by
  rw [readFrom_eq, h]

theorem skipSpace_cons (h : isSpace c = false) : skipSpace (c :: rest) = c :: rest := by
  rw [skipSpace, List.dropWhile_cons, h]
  rfl

/-! ## Text -/

/-- A short escape. -/
theorem readText_shortEscape {opening : Text} {done : Array CodePoint} {b e u : CodePoint}
    (hb : b.val = 0x5C) (he : e.val ≠ 0x75) (hu : shortEscape? e = some u) (rest : Text) :
    readText opening done (b :: e :: rest) = readText opening (done.push u) rest := by
  rw [readText, if_neg (by omega), if_pos hb, if_neg he]
  split
  · rename_i v hv
    cases hv.symm.trans hu
    rfl
  · rename_i hnone
    cases hnone.symm.trans hu

/-- A code point that stands for itself. -/
theorem readText_plain {opening : Text} {done : Array CodePoint} (hquote : c.val ≠ 0x22)
    (hescape : c.val ≠ 0x5C) (hcontrol : ¬ c.val ≤ 0x1F) (rest : Text) :
    readText opening done (c :: rest) = readText opening (done.push c) rest := by
  rw [readText.eq_def]
  dsimp only
  rw [if_neg hquote, if_neg hescape, if_neg hcontrol]

theorem hexValue?_hexDigit {n : Nat} (h : n < 16) :
    hexValue? (CodePoint.ofChar (Text.hexDigit n)) = some n := by
  have hall : ∀ n : Fin 16, hexValue? (CodePoint.ofChar (Text.hexDigit n)) = some n.val := by decide
  exact hall ⟨n, h⟩

/-- The digits of an escape make its number again. -/
theorem readUnit_hexDigits {n : Nat} (hn : n < 0xD800) (next : CodePoint) (rest : Text) :
    readUnit ((Text.hexDigits 4 n).map CodePoint.ofChar ++ next :: rest) =
      .ok (Text.codePoint n, next :: rest) := by
  have hdigits : (Text.hexDigits 4 n).map CodePoint.ofChar =
      [n / 16 / 16 / 16 % 16, n / 16 / 16 % 16, n / 16 % 16, n % 16].map fun d =>
        CodePoint.ofChar (Text.hexDigit d) := rfl
  have hd : ∀ m : Nat, hexValue? (CodePoint.ofChar (Text.hexDigit (m % 16))) = some (m % 16) :=
    fun m => hexValue?_hexDigit (Nat.mod_lt _ (by decide))
  have hunit : hexUnit? (CodePoint.ofChar (Text.hexDigit (n / 16 / 16 / 16 % 16)))
      (CodePoint.ofChar (Text.hexDigit (n / 16 / 16 % 16)))
      (CodePoint.ofChar (Text.hexDigit (n / 16 % 16)))
      (CodePoint.ofChar (Text.hexDigit (n % 16))) = some n := by
    rw [hexUnit?, hd, hd, hd, hd]
    exact congrArg some (by omega)
  rw [hdigits]
  show readUnit (_ :: _ :: _ :: _ :: next :: rest) = _
  rw [readUnit, hunit]
  exact if_neg fun h => absurd h.1 (by omega)

/-- A control character, over an escape by its number. -/
theorem readText_escapeUnit {opening : Text} {done : Array CodePoint} (hc : c.val < 0x20)
    (hrest : rest ≠ []) :
    readText opening done (escapeUnit c.val ++ rest) = readText opening (done.push c) rest := by
  obtain ⟨next, more, rfl⟩ := List.exists_cons_of_ne_nil hrest
  have hunit := readUnit_hexDigits (n := c.val) (by omega) next more
  show readText opening done (CodePoint.ofChar '\\' :: CodePoint.ofChar 'u' ::
    ((Text.hexDigits 4 c.val).map CodePoint.ofChar ++ next :: more)) = _
  rw [readText, if_neg (by decide), if_pos (by decide), if_pos (by decide)]
  split
  · rename_i u left hu
    cases hu.symm.trans hunit
    rw [Text.codePoint_of_eq rfl]
  · rename_i e he
    cases he.symm.trans hunit

/-- A code point is read back from the way it is written inside a string. -/
theorem readText_writeCodePoint {opening : Text} {done : Array CodePoint} (c : CodePoint)
    (hrest : rest ≠ []) :
    readText opening done (writeCodePoint false c ++ rest) =
      readText opening (done.push c) rest := by
  have hshort : ∀ {e : CodePoint}, e.val ≠ 0x75 → shortEscape? e = some c →
      readText opening done (CodePoint.ofChar '\\' :: e :: rest) =
        readText opening (done.push c) rest :=
    fun he hu => readText_shortEscape (by decide) he hu rest
  obtain ⟨n, hn⟩ := c
  unfold writeCodePoint
  split
  -- the seven code points that have an escape of their own
  iterate 7
    · rename_i h
      dsimp only at h
      subst h
      exact hshort (by decide) rfl
  · rename_i h₁ h₂ h₃ h₄ h₅ h₆ h₇
    split
    · rename_i hcontrol
      exact readText_escapeUnit hcontrol hrest
    · rename_i hplain
      rw [Bool.false_and, if_neg (by decide)]
      exact readText_plain h₁ h₂ (fun h => hplain (Nat.lt_succ_of_le h)) rest

theorem readText_flatMap {opening : Text} (s : Text) (done : Array CodePoint) (rest : Text) :
    readText opening done (s.flatMap (writeCodePoint false) ++ (chars "\"" ++ rest)) =
      .ok (done.toList ++ s, rest) := by
  induction s generalizing done with
  | nil =>
      show readText opening done (CodePoint.ofChar '"' :: rest) = _
      rw [readText.eq_def]
      dsimp only
      rw [if_pos (by decide), List.append_nil]
  | cons c s ih =>
      have hne : s.flatMap (writeCodePoint false) ++ (chars "\"" ++ rest) ≠ [] :=
        List.append_ne_nil_of_right_ne_nil _ (List.cons_ne_nil _ _)
      rw [List.flatMap_cons, List.append_assoc, readText_writeCodePoint c hne, ih,
        Array.toList_push, List.append_assoc, List.singleton_append]

/-- A string is written between two quotes. -/
theorem writeText_append (s rest : Text) :
    writeText false s ++ rest =
      CodePoint.ofChar '"' :: (s.flatMap (writeCodePoint false) ++ (chars "\"" ++ rest)) := by
  rw [writeText, List.append_assoc, List.append_assoc]
  rfl

/-! ## Values -/

/-- What may stand behind a value: the end, a comma or a closing bracket. -/
def Delimited (t : Text) : Prop :=
  ∀ c rest, t = c :: rest → c.val = 0x2C ∨ c.val = 0x5D ∨ c.val = 0x7D

/-- A value that is read back from compact JSON where there is room for `room` more containers. -/
structure ReadsBack (room : Nat) (v : Value) : Prop where
  /-- It does not begin as the end of an array. -/
  opens : ∀ depth, ∃ c rest, Style.compact.write depth v = c :: rest ∧ isSpace c = false ∧
    c.val ≠ 0x5D
  reads : ∀ depth stack rest, stack.length + room ≤ nestingLimit → Delimited rest →
    readFrom stack .value (Style.compact.write depth v ++ rest) = readFrom stack (.after v) rest

/-- **Text is read back.** -/
theorem readsBack_text (room : Nat) (s : Text) : ReadsBack room (.text s) where
  opens depth := ⟨CodePoint.ofChar '"', _, rfl, by decide, by decide⟩
  reads depth stack rest _ _ := by
    have hwrite : Style.compact.write depth (.text s) ++ rest = writeText false s ++ rest := by
      rw [Style.write]
      rfl
    refine readFrom_of_turn ?_
    rw [hwrite, writeText_append, turn, readValue, skipSpace_cons (by decide)]
    dsimp only
    rw [if_pos (by decide), readText_flatMap]
    rfl

/-! ## Arrays -/

theorem delimited_cons {d : CodePoint} (h : d.val = 0x2C ∨ d.val = 0x5D ∨ d.val = 0x7D)
    (rest : Text) : Delimited (d :: rest) := by
  intro c rest' hc
  cases hc
  exact h

theorem delimited_writeItems (depth : Nat) (vs : List Value) (rest : Text) :
    Delimited (Style.compact.writeItems depth vs ++ (chars "]" ++ rest)) := by
  cases vs with
  | nil => exact delimited_cons (.inr (.inl (by decide))) _
  | cons v vs => exact delimited_cons (.inl (by decide)) _

theorem readFrom_afterItem {done : Array Value} {v : Value} {stack : List Frame} (rest : Text) :
    readFrom (.array done :: stack) (.after v) (chars "," ++ rest) =
      readFrom (.array (done.push v) :: stack) .value rest := by
  refine readFrom_of_turn ?_
  show readAfter v (.array done :: stack) (CodePoint.ofChar ',' :: rest) = _
  rw [readAfter, skipSpace_cons (by decide)]
  rfl

theorem readFrom_afterLastItem {done : Array Value} {v : Value} {stack : List Frame} (rest : Text) :
    readFrom (.array done :: stack) (.after v) (chars "]" ++ rest) =
      readFrom stack (.after (.array (done.push v).toList)) rest := by
  refine readFrom_of_turn ?_
  show readAfter v (.array done :: stack) (CodePoint.ofChar ']' :: rest) = _
  rw [readAfter, skipSpace_cons (by decide)]
  rfl

/-- The items after one that has been read. -/
theorem readFrom_items {room : Nat} {vs : List Value} (hvs : ∀ v ∈ vs, ReadsBack room v)
    {depth : Nat} {stack : List Frame} (hroom : stack.length + 1 + room ≤ nestingLimit)
    (done : Array Value) (v : Value) (rest : Text) :
    readFrom (.array done :: stack) (.after v)
        (Style.compact.writeItems depth vs ++ (chars "]" ++ rest)) =
      readFrom stack (.after (.array (done.toList ++ v :: vs))) rest := by
  induction vs generalizing done v with
  | nil =>
      rw [Style.writeItems, List.nil_append, readFrom_afterLastItem, Array.toList_push]
  | cons u vs ih =>
      have hwrite : Style.compact.writeItems depth (u :: vs) ++ (chars "]" ++ rest) =
          chars "," ++ (Style.compact.write depth u ++
            (Style.compact.writeItems depth vs ++ (chars "]" ++ rest))) := by
        rw [Style.writeItems]
        simp [Style.lineStart, Style.compact]
      rw [hwrite, readFrom_afterItem, (hvs u List.mem_cons_self).reads depth (_ :: stack) _
        hroom (delimited_writeItems _ _ _), ih fun w hw => hvs w (List.mem_cons_of_mem _ hw),
        Array.toList_push, List.append_assoc, List.singleton_append]

/-- Where an item may come, one comes unless the array ends there. -/
theorem readFrom_firstItem (ht : ∃ c rest, t = c :: rest ∧ isSpace c = false ∧ c.val ≠ 0x5D) :
    readFrom stack .firstItem t = readFrom stack .value t := by
  obtain ⟨c, rest, rfl, hspace, hc⟩ := ht
  refine readFrom_of_turn ?_
  unfold turn
  dsimp only
  rw [skipSpace_cons hspace]
  split
  · rename_i hcons
    cases hcons
    rw [if_neg hc]
  · rfl

theorem readFrom_openArray (hroom : stack.length < nestingLimit) (rest : Text) :
    readFrom stack .value (chars "[" ++ rest) = readFrom (.array #[] :: stack) .firstItem rest := by
  refine readFrom_of_turn ?_
  show readValue stack (CodePoint.ofChar '[' :: rest) = _
  rw [readValue, skipSpace_cons (by decide)]
  dsimp only
  rw [if_neg (by decide), if_pos (.inl (by decide)), if_neg (by omega), if_pos (by decide)]

/-- **An array is read back if its items are.** -/
theorem readsBack_array {room : Nat} {vs : List Value} (hvs : ∀ v ∈ vs, ReadsBack room v) :
    ReadsBack (room + 1) (.array vs) where
  opens depth := by
    cases vs with
    | nil => exact ⟨CodePoint.ofChar '[', _, rfl, by decide, by decide⟩
    | cons v vs => exact ⟨CodePoint.ofChar '[', _, rfl, by decide, by decide⟩
  reads depth stack rest hroom _ := by
    cases vs with
    | nil =>
        show readFrom stack .value (chars "[" ++ (chars "]" ++ rest)) = _
        rw [readFrom_openArray (by omega)]
        refine readFrom_of_turn ?_
        unfold turn
        dsimp only
        rw [show chars "]" ++ rest = CodePoint.ofChar ']' :: rest from rfl,
          skipSpace_cons (by decide)]
        rfl
    | cons v vs =>
        have hwrite : Style.compact.write depth (.array (v :: vs)) ++ rest =
            chars "[" ++ (Style.compact.write (depth + 1) v ++
              (Style.compact.writeItems (depth + 1) vs ++ (chars "]" ++ rest))) := by
          rw [Style.write]
          simp [Style.lineStart, Style.compact]
        have hv := hvs v List.mem_cons_self
        -- the first item does not begin with the bracket that would close the array
        obtain ⟨c, text, hopen, hspace, hc⟩ := hv.opens (depth + 1)
        rw [hwrite, readFrom_openArray (by omega), readFrom_firstItem
          ⟨c, _, by rw [hopen]; rfl, hspace, hc⟩, hv.reads _ _ _ (by rw [List.length_cons]; omega)
          (delimited_writeItems _ _ _), readFrom_items
          (fun w hw => hvs w (List.mem_cons_of_mem _ hw)) (by omega)]
        rfl

/-! ## Objects -/

/-- A new name is put at the end. -/
theorem Members.put_of_not_mem {ms : Members} {name : Text} (h : name ∉ names ms) (v : Value) :
    put ms name v = ms ++ [(name, v)] := by
  induction ms with
  | nil => rfl
  | cons m ms ih =>
      obtain ⟨n, w⟩ := m
      rw [names, List.map_cons, List.mem_cons, not_or] at h
      rw [put, if_neg (Ne.symm h.1), ih h.2, List.cons_append]

/-- The next member of an object whose names are all different. -/
theorem Members.put_of_nodup {done ms : Members} {name : Text} {v : Value}
    (h : (names (done ++ (name, v) :: ms)).Nodup) : put done name v = done ++ [(name, v)] := by
  refine put_of_not_mem (fun hmem => ?_) v
  rw [names, List.map_append, List.nodup_append] at h
  exact h.2.2 name hmem name List.mem_cons_self rfl

theorem delimited_writeMembers (depth : Nat) (ms : Members) (rest : Text) :
    Delimited (Style.compact.writeMembers depth ms ++ (chars "\x7d" ++ rest)) := by
  cases ms with
  | nil => exact delimited_cons (.inr (.inr (by decide))) _
  | cons m ms => exact delimited_cons (.inl (by decide)) _

/-- The name of a member. -/
theorem readFrom_member {done : Members} (name rest : Text) :
    readFrom stack (.member done) (writeText false name ++ (chars ":" ++ rest)) =
      readFrom (.object done name :: stack) .value rest := by
  have hcolon : skipSpace (chars ":" ++ rest) = CodePoint.ofChar ':' :: rest :=
    skipSpace_cons (by decide)
  refine readFrom_of_turn ?_
  rw [writeText_append, turn, readMember, skipSpace_cons (by decide)]
  dsimp only
  rw [if_pos (by decide), readText_flatMap]
  dsimp only
  rw [hcolon]
  rfl

theorem readFrom_afterMember {done : Members} {name : Text} {v : Value} (rest : Text) :
    readFrom (.object done name :: stack) (.after v) (chars "," ++ rest) =
      readFrom stack (.member (Members.put done name v)) rest := by
  refine readFrom_of_turn ?_
  show readAfter v (.object done name :: stack) (CodePoint.ofChar ',' :: rest) = _
  rw [readAfter, skipSpace_cons (by decide)]
  rfl

theorem readFrom_afterLastMember {done : Members} {name : Text} {v : Value} (rest : Text) :
    readFrom (.object done name :: stack) (.after v) (chars "\x7d" ++ rest) =
      readFrom stack (.after (.object (Members.put done name v))) rest := by
  refine readFrom_of_turn ?_
  show readAfter v (.object done name :: stack) (CodePoint.ofChar '\x7d' :: rest) = _
  rw [readAfter, skipSpace_cons (by decide)]
  rfl

/-- The members after one that has been read. -/
theorem readFrom_members {room depth : Nat} {ms : Members} (hms : ∀ m ∈ ms, ReadsBack room m.2)
    (hroom : stack.length + 1 + room ≤ nestingLimit) (done : Members) (name : Text) (v : Value)
    (hnames : (Members.names (done ++ (name, v) :: ms)).Nodup) (rest : Text) :
    readFrom (.object done name :: stack) (.after v)
        (Style.compact.writeMembers depth ms ++ (chars "\x7d" ++ rest)) =
      readFrom stack (.after (.object (done ++ (name, v) :: ms))) rest := by
  induction ms generalizing done name v with
  | nil =>
      rw [Style.writeMembers, List.nil_append, readFrom_afterLastMember,
        Members.put_of_nodup hnames]
  | cons m ms ih =>
      obtain ⟨other, u⟩ := m
      have hwrite : Style.compact.writeMembers depth ((other, u) :: ms) ++ (chars "\x7d" ++ rest) =
          chars "," ++ (writeText false other ++ (chars ":" ++ (Style.compact.write depth u ++
            (Style.compact.writeMembers depth ms ++ (chars "\x7d" ++ rest))))) := by
        rw [Style.writeMembers]
        simp [Style.lineStart, Style.compact, Style.colon]
      have hput := Members.put_of_nodup hnames
      have happend : done ++ (name, v) :: (other, u) :: ms =
          (done ++ [(name, v)]) ++ (other, u) :: ms := by simp
      rw [happend] at hnames ⊢
      rw [hwrite, readFrom_afterMember, hput, readFrom_member,
        (hms (other, u) List.mem_cons_self).reads depth (_ :: stack) _ hroom
          (delimited_writeMembers _ _ _),
        ih (fun m hm => hms m (List.mem_cons_of_mem _ hm)) _ _ _ hnames]

theorem readFrom_openObject (hroom : stack.length < nestingLimit) (rest : Text) :
    readFrom stack .value (chars "\x7b" ++ rest) = readFrom stack .firstMember rest := by
  refine readFrom_of_turn ?_
  show readValue stack (CodePoint.ofChar '\x7b' :: rest) = _
  rw [readValue, skipSpace_cons (by decide)]
  dsimp only
  rw [if_neg (by decide), if_pos (.inr (by decide)), if_neg (by omega), if_neg (by decide)]

theorem readFrom_firstMember (name rest : Text) :
    readFrom stack .firstMember (writeText false name ++ rest) =
      readFrom stack (.member []) (writeText false name ++ rest) := by
  refine readFrom_of_turn ?_
  rw [writeText_append, turn, skipSpace_cons (by decide)]
  rfl

/-- **An object is read back if its values are**, in the order of its members. -/
theorem readsBack_object {room : Nat} {ms : Members} (hnames : (Members.names ms).Nodup)
    (hms : ∀ m ∈ ms, ReadsBack room m.2) : ReadsBack (room + 1) (.object ms) where
  opens depth := by
    cases ms with
    | nil => exact ⟨CodePoint.ofChar '\x7b', _, rfl, by decide, by decide⟩
    | cons m ms => exact ⟨CodePoint.ofChar '\x7b', _, rfl, by decide, by decide⟩
  reads depth stack rest hroom _ := by
    cases ms with
    | nil =>
        show readFrom stack .value (chars "\x7b" ++ (chars "\x7d" ++ rest)) = _
        rw [readFrom_openObject (by omega)]
        refine readFrom_of_turn ?_
        show turn _ _ (CodePoint.ofChar '\x7d' :: rest) = _
        rw [turn, skipSpace_cons (by decide)]
        rfl
    | cons m ms =>
        obtain ⟨name, v⟩ := m
        have hwrite : Style.compact.write depth (.object ((name, v) :: ms)) ++ rest =
            chars "\x7b" ++ (writeText false name ++ (chars ":" ++
              (Style.compact.write (depth + 1) v ++
                (Style.compact.writeMembers (depth + 1) ms ++ (chars "\x7d" ++ rest))))) := by
          rw [Style.write]
          simp [Style.lineStart, Style.compact, Style.colon]
        rw [hwrite, readFrom_openObject (by omega), readFrom_firstMember, readFrom_member,
          (hms (name, v) List.mem_cons_self).reads _ (_ :: stack) _ (by rw [List.length_cons]; omega)
            (delimited_writeMembers _ _ _),
          readFrom_members (fun m hm => hms m (List.mem_cons_of_mem _ hm)) (by omega) [] name v hnames]
        rfl

/-! ## Documents -/

/-- **A value that reads back is what its compact text denotes.** -/
theorem read_compact {room : Nat} {v : Value} (hv : ReadsBack room v) (hroom : room ≤ nestingLimit) :
    read (compact v) = .ok v := by
  have hreads := hv.reads 0 [] [] (by simpa using hroom) nofun
  rw [List.append_nil] at hreads
  rw [read, compact, hreads, readFrom]
  rfl

/-- The document of such a value, if what it begins with tells that it is UTF-8. -/
theorem readDocument_compact {room : Nat} {v : Value} (hv : ReadsBack room v)
    (hroom : room ≤ nestingLimit)
    (hdetect : Encoding.detect ((compact v).flatMap Text.utf8Bytes) = .utf8 0) :
    readDocument ((compact v).flatMap Text.utf8Bytes) = .ok v := by
  have hdecode : decodeDocument ((compact v).flatMap Text.utf8Bytes) = .ok (compact v) := by
    rw [decodeDocument, hdetect]
    exact Text.decodeUtf8_flatMap _
  rw [readDocument, hdecode]
  dsimp only
  rw [read_compact hv hroom]

/-- An object begins with a brace, and after it a quote or another brace: two bytes of ASCII. -/
theorem detect_object (ms : Members) :
    Encoding.detect ((compact (.object ms)).flatMap Text.utf8Bytes) = .utf8 0 := by
  cases ms with
  | nil => rfl
  | cons m ms =>
      obtain ⟨name, v⟩ := m
      obtain ⟨t, ht⟩ : ∃ t, compact (.object ((name, v) :: ms)) =
          CodePoint.ofChar '\x7b' :: CodePoint.ofChar '"' :: t := ⟨_, rfl⟩
      rw [ht]
      show Encoding.detect (0x7B :: 0x22 :: t.flatMap Text.utf8Bytes) = .utf8 0
      generalize t.flatMap Text.utf8Bytes = rest
      match rest with
      | [] => rfl
      | [_] => rfl
      | _ :: _ :: _ => rfl

end ImageTransfer.Json
