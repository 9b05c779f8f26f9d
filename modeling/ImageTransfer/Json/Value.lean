import ImageTransfer.Decimal.Binary64
import ImageTransfer.Text.CodePoint

/-!
# JSON values

Whole numbers are unbounded and kept apart from numbers with a fraction or an exponent. The members
of an object have distinct names and keep the order in which the names first appeared.
-/

namespace ImageTransfer.Json

/-- A JSON value. -/
inductive Value
  | null
  | bool (b : Bool)
  | integer (n : Int)
  | real (x : Binary64)
  | text (t : Text)
  | array (items : List Value)
  | object (members : List (Text × Value))
deriving Inhabited

/-- The members of an object. -/
abbrev Members := List (Text × Value)

namespace Members

/-- The value of a name. -/
def get? (ms : Members) (name : Text) : Option Value :=
  (ms.find? (·.1 == name)).map (·.2)

/-- Gives a name a value: in its place if the name is there, and at the end otherwise. -/
def put (ms : Members) (name : Text) (v : Value) : Members :=
  match ms with
  | [] => [(name, v)]
  | (n, w) :: rest => if n = name then (n, v) :: rest else (n, w) :: put rest name v

/-- The names in order. -/
def names (ms : Members) : List Text := ms.map (·.1)

/-- Whether there is a member of this name. -/
def has (ms : Members) (name : Text) : Bool := (get? ms name).isSome

@[simp] theorem get?_nil (name : Text) : get? [] name = none := rfl

/-- **A name has the value it was given last.** -/
theorem get?_put_self (ms : Members) (name : Text) (v : Value) :
    get? (put ms name v) name = some v := by
  induction ms with
  | nil => simp [put, get?]
  | cons m rest ih =>
    obtain ⟨n, w⟩ := m
    simp only [put]
    split
    · rename_i h
      simp [get?, h]
    · rename_i h
      simpa [get?, List.find?_cons, h] using ih

/-- Giving one name a value leaves the others alone. -/
theorem get?_put_of_ne (ms : Members) {name other : Text} (v : Value) (h : other ≠ name) :
    get? (put ms name v) other = get? ms other := by
  induction ms with
  | nil =>
    have : (name == other) = false := by simpa using Ne.symm h
    simp [put, get?, this]
  | cons m rest ih =>
    obtain ⟨n, w⟩ := m
    simp only [put]
    split
    · rename_i hn
      subst hn
      have : (n == other) = false := by simpa using Ne.symm h
      simp [get?, this]
    · simp only [get?, List.find?_cons] at ih ⊢
      split
      · rfl
      · exact ih

/-- A name that is there keeps its place. -/
theorem names_put_of_mem {ms : Members} {name : Text} (h : name ∈ names ms) (v : Value) :
    names (put ms name v) = names ms := by
  induction ms with
  | nil => exact absurd h List.not_mem_nil
  | cons m rest ih =>
    obtain ⟨n, w⟩ := m
    rw [put]
    split
    · rfl
    · rename_i hn
      rcases List.mem_cons.1 h with hname | hrest
      · exact absurd hname.symm hn
      · exact congrArg (n :: ·) (ih hrest)

/-- A new name comes last. -/
theorem names_put_of_not_mem {ms : Members} {name : Text} (h : name ∉ names ms) (v : Value) :
    names (put ms name v) = names ms ++ [name] := by
  induction ms with
  | nil => rfl
  | cons m rest ih =>
    obtain ⟨n, w⟩ := m
    rw [put]
    split
    · rename_i hn
      exact absurd (List.mem_cons.2 (.inl hn.symm)) h
    · exact congrArg (n :: ·) (ih fun hrest => h (List.mem_cons_of_mem _ hrest))

end Members

namespace Value

/-- The text of a string of Lean as a value. -/
def ofString (s : String) : Value := .text (Text.ofString s)

/-- The value of a member of an object; other values have no members. -/
def get? (v : Value) (name : String) : Option Value :=
  match v with
  | .object ms => Members.get? ms (Text.ofString name)
  | _ => none

/-- Whether a value counts as something: null, false, zero and what is empty do not. -/
def isTruthy : Value → Bool
  | .null => false
  | .bool b => b
  | .integer n => n ≠ 0
  | .real x => !x.isZero
  | .text t => !t.isEmpty
  | .array items => !items.isEmpty
  | .object ms => !ms.isEmpty

/-- Whether a value is this whole number; a number with a fraction may be. -/
def equalsInt (v : Value) (n : Int) : Bool :=
  match v with
  | .integer m => m == n
  | .real x => x.equalsInt n
  | .bool b => (if b then 1 else 0) == n
  | _ => false

/-- Whether a value is this text. -/
def equalsString (v : Value) (s : String) : Bool :=
  match v with
  | .text t => t == Text.ofString s
  | _ => false

mutual

/-- How many containers stand in one another at most. -/
def depth : Value → Nat
  | .array vs => depthOfItems vs + 1
  | .object ms => depthOfMembers ms + 1
  | _ => 0

@[inherit_doc depth] def depthOfItems : List Value → Nat
  | [] => 0
  | v :: vs => max v.depth (depthOfItems vs)

@[inherit_doc depth] def depthOfMembers : List (Text × Value) → Nat
  | [] => 0
  | (_, v) :: ms => max v.depth (depthOfMembers ms)

end

end Value

end ImageTransfer.Json
