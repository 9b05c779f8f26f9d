import ImageTransfer.Proofs.Json.Numbers

/-!
# What was read can be written and read again

A reader gives no value that would not come back if it were written: whole numbers have few enough
digits, floating-point numbers are those of the format, the names of an object are all different, and
containers stand no deeper in one another than the reader goes (`Legible`). This is an invariant of
the reader's turns, where the containers that are still open leave less room the more there are of
them (`Place.Holds.turn`). In turn every legible value is read back from compact JSON
(`Legible.readsBack`), by induction on the value.
-/

namespace ImageTransfer.Json

/-- A value that can be read where there is room for `room` more containers. -/
inductive Legible : Nat → Value → Prop
  | null {room : Nat} : Legible room .null
  | bool {room : Nat} (b : Bool) : Legible room (.bool b)
  | integer {room : Nat} {n : Int} : n.natAbs < 10 ^ Decimal.digitLimit → Legible room (.integer n)
  | real {room : Nat} {x : Binary64} : x.Canonical → Legible room (.real x)
  | text {room : Nat} (t : Text) : Legible room (.text t)
  | array {room : Nat} {vs : List Value} : (∀ v ∈ vs, Legible room v) → Legible (room + 1) (.array vs)
  | object {room : Nat} {ms : Members} : (Members.names ms).Nodup → (∀ m ∈ ms, Legible room m.2) →
      Legible (room + 1) (.object ms)

theorem legible_small (room : Nat) {n : Int} (h : n.natAbs < 10) : Legible room (.integer n) :=
  .integer (Nat.lt_of_lt_of_le h (Nat.le_self_pow (by decide) 10))

/-- **Every legible value is read back.** -/
theorem Legible.readsBack {room : Nat} {v : Value} (h : Legible room v) : ReadsBack room v := by
  induction h with
  | null => exact readsBack_constant _ "null" (by simp [constants]) fun _ => by rw [Style.write]
  | bool b =>
      cases b with
      | true =>
          exact readsBack_constant _ "true" (by simp [constants]) fun _ => by rw [Style.write]; rfl
      | false =>
          exact readsBack_constant _ "false" (by simp [constants]) fun _ => by rw [Style.write]; rfl
  | integer hn => exact readsBack_integer _ hn
  | real hx => exact readsBack_real _ hx
  | text t => exact readsBack_text _ t
  | array _ ih => exact readsBack_array ih
  | object hnames _ ih => exact readsBack_object hnames ih

theorem Members.mem_put {ms : Members} {name : Text} {v : Value} {m : Text × Value}
    (h : m ∈ put ms name v) : m = (name, v) ∨ m ∈ ms := by
  induction ms with
  | nil => exact .inl (List.mem_singleton.1 h)
  | cons first ms ih =>
      obtain ⟨n, w⟩ := first
      rw [put] at h
      split at h
      · rename_i hn
        rw [← hn]
        exact (List.mem_cons.1 h).imp id (List.mem_cons_of_mem _)
      · rcases List.mem_cons.1 h with hfirst | hrest
        · exact .inr (hfirst ▸ List.mem_cons_self)
        · exact (ih hrest).imp id (List.mem_cons_of_mem _)

/-- Members that can be read as those of an object. -/
structure LegibleMembers (room : Nat) (ms : Members) : Prop where
  names : (Members.names ms).Nodup
  values : ∀ m ∈ ms, Legible room m.2

theorem LegibleMembers.object {room : Nat} {ms : Members} (h : LegibleMembers room ms) :
    Legible (room + 1) (.object ms) := .object h.names h.values

theorem Legible.members {room : Nat} {ms : Members} (h : Legible (room + 1) (.object ms)) :
    LegibleMembers room ms := by
  cases h with
  | object hnames hvalues => exact ⟨hnames, hvalues⟩

theorem legibleMembers_nil (room : Nat) : LegibleMembers room [] := ⟨List.nodup_nil, nofun⟩

/-- **Giving a name a value keeps members legible.** -/
theorem LegibleMembers.put {room : Nat} {ms : Members} (h : LegibleMembers room ms) (name : Text)
    {v : Value} (hv : Legible room v) : LegibleMembers room (Members.put ms name v) := by
  constructor
  · by_cases hmem : name ∈ Members.names ms
    · rw [Members.names_put_of_mem hmem]
      exact h.names
    · rw [Members.names_put_of_not_mem hmem]
      refine List.nodup_append.2 ⟨h.names, List.nodup_singleton name, fun a ha b hb heq => ?_⟩
      rw [heq, List.mem_singleton.1 hb] at ha
      exact hmem ha
  · intro m hm
    rcases Members.mem_put hm with rfl | hold
    · exact hv
    · exact h.values m hold

/-! ## Parts that are read -/

theorem takeDigits_lt (t : Text) : ∀ d ∈ takeDigits t, d < 10 := by
  intro d hd
  obtain ⟨c, hc, rfl⟩ := List.mem_map.1 hd
  have hdigit := List.all_eq_true.1 List.all_takeWhile c hc
  rw [isDigit, Bool.and_eq_true, decide_eq_true_eq, decide_eq_true_eq] at hdigit
  omega

theorem readWhole?_lt {t rest : Text} {ds : List Nat} (h : readWhole? t = some (ds, rest)) :
    ∀ d ∈ ds, d < 10 := by
  unfold readWhole? at h
  split at h
  · split at h
    · cases h
      decide
    · split at h
      · cases h
        exact takeDigits_lt _
      · cases h
  · cases h

theorem readNumeral?_lt {t rest : Text} {n : Numeral} (h : readNumeral? t = some (n, rest)) :
    ∀ d ∈ n.whole, d < 10 := by
  simp only [readNumeral?, Option.map_eq_some_iff] at h
  obtain ⟨⟨whole, left⟩, hw, h⟩ := h
  cases h
  exact readWhole?_lt hw

/-- **A number that is read is legible**: whole numbers are refused if they have too many digits, and
other numbers are rounded. -/
theorem Numeral.legible_value {n : Numeral} {v : Value} (room : Nat) (hdigits : ∀ d ∈ n.whole, d < 10)
    (h : n.value = .ok v) : Legible room v := by
  unfold value at h
  split at h
  · split at h
    · cases h
    · rename_i hlength
      cases h
      have hlt := Decimal.ofDigits_lt hdigits
      have hle : 10 ^ n.whole.length ≤ 10 ^ Decimal.digitLimit :=
        Nat.pow_le_pow_right (by decide) (Nat.not_lt.1 hlength)
      refine .integer ?_
      split <;> omega
  · cases h
    exact .real (Binary64.canonical_ofDecimal _ _ _)

theorem legible_constant (room : Nat) {name : String} {v : Value} (h : (name, v) ∈ constants) :
    Legible room v := by
  simp only [constants, List.mem_cons, Prod.mk.injEq, List.not_mem_nil, or_false] at h
  rcases h with ⟨-, rfl⟩ | ⟨-, rfl⟩ | ⟨-, rfl⟩ | ⟨-, rfl⟩ | ⟨-, rfl⟩ | ⟨-, rfl⟩
  · exact .null
  · exact .bool true
  · exact .bool false
  · exact .real trivial
  · exact .real trivial
  · exact .real trivial

theorem legible_of_readAtom {t rest : Text} {v : Value} (room : Nat)
    (h : readAtom t = .ok (v, rest)) : Legible room v := by
  unfold readAtom at h
  split at h
  · rename_i atom hatom
    cases h
    simp only [readConstant?, Option.map_eq_some_iff] at hatom
    obtain ⟨⟨name, w⟩, hfound, hw⟩ := hatom
    cases hw
    exact legible_constant room (List.mem_of_find?_eq_some hfound)
  · split at h
    · rename_i hn
      split at h
      · rename_i hv
        cases h
        exact Numeral.legible_value room (readNumeral?_lt hn) hv
      · cases h
    · cases h

/-! ## The invariant of the reader -/

/-- What has been read of a container whose parts have room for `room` more. -/
def Frame.Holds (room : Nat) : Frame → Prop
  | .array done => ∀ v ∈ done.toList, Legible room v
  | .object done _ => LegibleMembers room done

/-- The containers that the reader is in leave room for `room` more. -/
inductive StackHolds : Nat → List Frame → Prop
  | nil : StackHolds nestingLimit []
  | cons {room : Nat} {frame : Frame} {outer : List Frame} : StackHolds (room + 1) outer →
      frame.Holds room → StackHolds room (frame :: outer)

/-- What has been read at a place and is not in the stack yet; members come with the room inside
their object. -/
def Place.Holds (room : Nat) : Place → Prop
  | .value | .firstItem => True
  | .firstMember => 0 < room
  | .member done => ∃ inner, room = inner + 1 ∧ LegibleMembers inner done
  | .after v => Legible room v

/-- What a turn has come to. -/
def Turn.Holds : Turn → Prop
  | .done v => Legible nestingLimit v
  | .goOn stack place _ => ∃ room, StackHolds room stack ∧ place.Holds room

theorem StackHolds.length {room : Nat} {stack : List Frame} (h : StackHolds room stack) :
    room + stack.length = nestingLimit := by
  induction h with
  | nil => rfl
  | cons _ _ ih =>
      rw [List.length_cons]
      omega

section

variable {room : Nat} {stack : List Frame} {t : Text} {next : Turn}

theorem StackHolds.readValue (hs : StackHolds room stack) (h : readValue stack t = .ok next) :
    next.Holds := by
  unfold Json.readValue at h
  split at h
  · cases h
  · split at h
    · split at h
      · cases h
        exact ⟨room, hs, .text _⟩
      · cases h
    · split at h
      · split at h
        · cases h
        · rename_i hdeep
          -- the limit leaves room for one more container
          have hlength := hs.length
          obtain ⟨inner, rfl⟩ : ∃ inner, room = inner + 1 := ⟨room - 1, by omega⟩
          split at h
          · cases h
            have hempty : (Frame.array #[]).Holds inner := fun v hv => absurd hv List.not_mem_nil
            exact ⟨inner, .cons hs hempty, trivial⟩
          · cases h
            exact ⟨inner + 1, hs, Nat.succ_pos inner⟩
      · split at h
        · rename_i hatom
          cases h
          exact ⟨room, hs, legible_of_readAtom room hatom⟩
        · cases h

theorem StackHolds.readMember {done : Members} (hs : StackHolds (room + 1) stack)
    (hdone : LegibleMembers room done) (h : readMember stack done t = .ok next) : next.Holds := by
  unfold Json.readMember at h
  split at h
  · cases h
  · split at h
    · split at h
      · cases h
      · split at h
        · cases h
        · split at h
          · cases h
            exact ⟨room, .cons hs hdone, trivial⟩
          · cases h
    · cases h

theorem StackHolds.readAfter {v : Value} (hs : StackHolds room stack) (hv : Legible room v)
    (h : readAfter v stack t = .ok next) : next.Holds := by
  unfold Json.readAfter at h
  -- the value is the whole document, or it goes into the innermost container
  cases hs with
  | nil =>
      dsimp only at h
      split at h
      · cases h
        exact hv
      · cases h
  | @cons _ frame outer houter hframe =>
      cases frame with
      | array done =>
          have hdone : ∀ w ∈ (done.push v).toList, Legible room w := by
            intro w hw
            rw [Array.toList_push] at hw
            rcases List.mem_append.1 hw with hold | hnew
            · exact hframe w hold
            · exact List.mem_singleton.1 hnew ▸ hv
          dsimp only at h
          split at h
          · cases h
          · split at h
            · cases h
              exact ⟨room, .cons houter hdone, trivial⟩
            · split at h
              · cases h
                exact ⟨room + 1, houter, .array hdone⟩
              · cases h
      | object done name =>
          have hdone : LegibleMembers room (Members.put done name v) :=
            LegibleMembers.put hframe name hv
          dsimp only at h
          split at h
          · cases h
          · split at h
            · cases h
              exact ⟨room + 1, houter, room, rfl, hdone⟩
            · split at h
              · cases h
                exact ⟨room + 1, houter, hdone.object⟩
              · cases h

/-- **Each turn keeps what has been read legible.** -/
theorem StackHolds.turn {place : Place} (hs : StackHolds room stack) (hp : place.Holds room)
    (h : turn stack place t = .ok next) : next.Holds := by
  cases place with
  | value => exact hs.readValue h
  | firstItem =>
      dsimp only [Json.turn] at h
      split at h
      · split at h
        · cases h
          cases hs with
          | cons houter _ => exact ⟨room + 1, houter, .array nofun⟩
        · cases h
          exact ⟨room, hs, trivial⟩
      · cases h
        exact ⟨room, hs, trivial⟩
  | firstMember =>
      -- the object is not in the stack before it has a member, so its room is still to be taken
      obtain ⟨inner, rfl⟩ : ∃ inner, room = inner + 1 := ⟨room - 1, by have : 0 < room := hp; omega⟩
      have hempty := legibleMembers_nil inner
      dsimp only [Json.turn] at h
      split at h
      · split at h
        · cases h
          exact ⟨inner + 1, hs, hempty.object⟩
        · cases h
          exact ⟨inner + 1, hs, inner, rfl, hempty⟩
      · cases h
        exact ⟨inner + 1, hs, inner, rfl, hempty⟩
  | member done =>
      obtain ⟨inner, rfl, hdone⟩ := hp
      exact hs.readMember hdone h
  | after v => exact hs.readAfter hp h

/-- And so does the whole run of the reader. -/
theorem StackHolds.readFrom {place : Place} {v : Value} (hs : StackHolds room stack)
    (hp : place.Holds room) (h : readFrom stack place t = .ok v) : Legible nestingLimit v := by
  -- by the turns of the reader: one fails, is the last, or is followed by others
  induction stack, place, t using Json.readFrom.induct generalizing room with
  | case1 stack place t e hturn =>
      rw [readFrom_eq, hturn] at h
      cases h
  | case2 stack place t v' hturn =>
      rw [readFrom_eq, hturn] at h
      cases h
      exact hs.turn hp hturn
  | case3 stack place t stack' place' left hturn ih =>
      rw [readFrom_eq, hturn] at h
      obtain ⟨room', hs', hp'⟩ := hs.turn hp hturn
      exact ih hs' hp' h

/-- **What is read is legible.** -/
theorem legible_of_read {v : Value} (h : read t = .ok v) : Legible nestingLimit v := by
  have hp : Place.value.Holds nestingLimit := trivial
  exact StackHolds.nil.readFrom hp h

theorem legible_of_readDocument {bytes : List UInt8} {v : Value} (h : readDocument bytes = .ok v) :
    Legible nestingLimit v := by
  unfold readDocument at h
  split at h
  · cases h
  · split at h
    · rename_i hread
      cases h
      exact legible_of_read hread
    all_goals cases h

end

/-- **An object that is written is read back**, if its text can be encoded at all. -/
theorem readDocument_object {ms : Members} {bytes : List UInt8}
    (h : Legible nestingLimit (.object ms)) (hbytes : document (.object ms) = .ok bytes) :
    readDocument bytes = .ok (.object ms) := by
  rw [Text.encodeUtf8_ok hbytes]
  exact readDocument_compact h.readsBack (Nat.le_refl _) (detect_object ms)

end ImageTransfer.Json
