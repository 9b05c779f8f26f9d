import ImageTransfer.Text.Split

/-!
# Internet addresses as text

The host of a URL may be an address in brackets. This module says which texts are addresses: four
octets in decimal, or eight groups in hexadecimal, of which one run of zeros may be left out and the
last two may be written as octets.
-/

namespace ImageTransfer.InternetAddress

/-- A decimal digit. -/
def isDigit (c : Char) : Bool := '0' ≤ c && c ≤ '9'

/-- A hexadecimal digit of either case. -/
def isHexDigit (c : Char) : Bool := isDigit c || ('a' ≤ c && c ≤ 'f') || ('A' ≤ c && c ≤ 'F')

/-- The value of a decimal octet without superfluous zeros. -/
def octet? (cs : List Char) : Option Nat :=
  if cs.isEmpty || !cs.all isDigit || cs.length > 3 || (cs.length > 1 && cs.head? == some '0') then
    none
  else
    let n := cs.foldl (fun n c => 10 * n + (c.toNat - 0x30)) 0
    if n ≤ 255 then some n else none

/-- Whether a text is four octets separated by points. -/
def isVersion4 (cs : List Char) : Bool :=
  let octets := Text.splitAll '.' cs
  octets.length == 4 && octets.all fun o => (octet? o).isSome

/-- Whether a text is a group of one to four hexadecimal digits. -/
def isGroup (cs : List Char) : Bool := !cs.isEmpty && cs.length ≤ 4 && cs.all isHexDigit

/-- Whether groups without one that is left out make an address. -/
def isFull (groups : List (List Char)) : Bool := groups.length == 8 && groups.all isGroup

/-- Whether the groups around a run of zeros that is left out make an address: at either end the
run may be marked by a second empty group. -/
def isShortened (before after : List (List Char)) : Bool :=
  let trimmed (groups : List (List Char)) : Option (List (List Char)) :=
    match groups with
    | [[]] => some []
    | _ => if groups.all isGroup then some groups else none
  match trimmed before, trimmed after.reverse with
  | some high, some low => high.length + low.length < 8
  | _, _ => false

/-- Whether groups make an address. -/
def isGroups (groups : List (List Char)) : Bool :=
  let inner := (groups.drop 1).dropLast
  if groups.length < 3 ∨ 9 < groups.length then false
  else if inner.any (·.isEmpty) then
    let k := 1 + (inner.takeWhile fun g => !g.isEmpty).length
    (inner.filter (·.isEmpty)).length == 1 && isShortened (groups.take k) (groups.drop (k + 1))
  else isFull groups

/-- Groups of which the last may be written as four octets, in which case it counts for two. -/
def withOctets? (groups : List (List Char)) : Option (List (List Char)) :=
  match groups.getLast? with
  | some last =>
    if last.contains '.' then
      if 3 ≤ groups.length && isVersion4 last then some (groups.dropLast ++ [['0'], ['0']]) else none
    else some groups
  | none => none

/-- Whether a text is eight groups separated by colons, with a zone after a percent sign if it has
one. -/
def isVersion6 (cs : List Char) : Bool :=
  if cs.contains '/' then false
  else
    let (address, zone) := Text.splitFirst '%' cs
    let zoneFits := match zone with
      | none => true
      | some z => !z.isEmpty && !z.contains '%'
    zoneFits && (match withOctets? (Text.splitAll ':' address) with
      | some groups => isGroups groups
      | none => false)

end ImageTransfer.InternetAddress
