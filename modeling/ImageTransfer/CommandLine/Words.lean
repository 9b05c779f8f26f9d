import ImageTransfer.Text.Split

/-!
# The words of a command line

A command line is a list of words. A word that begins with a hyphen gives options: after two hyphens
the full name of one, with its value after an equals sign or in the next word; after one hyphen
letters that stand for options, the last of which takes what is left of the word, or the next word,
as its value. All other words are arguments, and so is everything after a word of two hyphens.
-/

namespace ImageTransfer.CommandLine

/-- An option of some command. -/
inductive Flag
  | help
  | verbose
  | timeout
  | plainHost
  | strict
  | output
  | summary
deriving DecidableEq, Repr

namespace Flag

/-- The full name of an option. -/
def name : Flag → String
  | help => "help"
  | verbose => "verbose"
  | timeout => "timeout"
  | plainHost => "plain-http"
  | strict => "strict"
  | output => "output"
  | summary => "summary"

/-- The letter that stands for an option. -/
def letter? : Flag → Option Char
  | verbose => some 'v'
  | output => some 'o'
  | _ => none

/-- Whether a value belongs to an option. -/
def takesValue : Flag → Bool
  | timeout | plainHost | output => true
  | _ => false

end Flag

/-- Which options a command knows, and whether they may come after arguments. -/
structure Usage where
  flags : List Flag
  afterArguments : Bool

/-- What one word is. -/
inductive Word
  | argument
  /-- All further words are arguments. -/
  | separator
  /-- The options that it gives, with their values. -/
  | options (given : List (Flag × String))
  /-- The options that it gives, and one whose value is the next word. -/
  | unfinished (given : List (Flag × String)) (last : Flag)
  /-- It names an option that the command does not know, or misuses one that it knows. -/
  | misused
deriving DecidableEq, Repr

namespace Word

/-- A word that gives one more option first. -/
def withOption (first : Flag × String) : Word → Word
  | options given => options (first :: given)
  | unfinished given last => unfinished (first :: given) last
  | other => other

end Word

/-- Words as they were understood. -/
structure Words where
  /-- The options with their values, in order. -/
  options : List (Flag × String)
  arguments : List String
deriving DecidableEq, Repr

namespace Words

/-- Whether an option is given. -/
def has (w : Words) (f : Flag) : Bool := w.options.any (·.1 == f)

/-- All values of an option. -/
def values (w : Words) (f : Flag) : List String :=
  w.options.filterMap fun (g, value) => if g = f then some value else none

/-- The value of an option, which is the last that is given. -/
def value? (w : Words) (f : Flag) : Option String := (w.values f).getLast?

end Words

namespace Usage

/-- The option of a full name. -/
def named? (u : Usage) (name : List Char) : Option Flag := u.flags.find? (·.name.toList == name)

/-- The option of a letter. -/
def lettered? (u : Usage) (c : Char) : Option Flag := u.flags.find? (·.letter? == some c)

/-- A word that gives an option by its full name. -/
def readNamed (u : Usage) (body : List Char) : Word :=
  let (name, value?) := Text.splitFirst '=' body
  match u.named? name, value? with
  | none, _ => .misused
  | some f, some value => if f.takesValue then .options [(f, String.ofList value)] else .misused
  | some f, none => if f.takesValue then .unfinished [] f else .options [(f, "")]

/-- A word that gives options by letters. -/
def readLetters (u : Usage) : List Char → Word
  | [] => .options []
  | c :: rest =>
    match u.lettered? c with
    | none => .misused
    | some f =>
      if f.takesValue then
        if rest = [] then .unfinished [] f else .options [(f, String.ofList rest)]
      else (u.readLetters rest).withOption (f, "")

/-- What a word is. -/
def readWord (u : Usage) (word : String) : Word :=
  match word.toList with
  | ['-', '-'] => .separator
  | '-' :: '-' :: body => u.readNamed body
  | '-' :: c :: rest => u.readLetters (c :: rest)
  | _ => .argument

/-- Understands words, unless one of them is misused. -/
def read (u : Usage) : List String → Option Words
  | [] => some ⟨[], []⟩
  | word :: rest =>
    match u.readWord word with
    | .argument =>
      if u.afterArguments then
        (u.read rest).map fun w => { w with arguments := word :: w.arguments }
      else some ⟨[], word :: rest⟩
    | .separator => some ⟨[], rest⟩
    | .options given => (u.read rest).map fun w => { w with options := given ++ w.options }
    | .unfinished given last =>
      match rest with
      | [] => none
      | value :: rest =>
        (u.read rest).map fun w => { w with options := given ++ (last, value) :: w.options }
    | .misused => none

end Usage

end ImageTransfer.CommandLine
