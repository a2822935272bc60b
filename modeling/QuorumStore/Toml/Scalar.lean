/-
TOML numbers, truth values and dates, each as one unbroken word.

* `Toml.scalar?`: the value of a word;
* `Toml.isDate`, `Toml.isTimeWithOffset`: the two halves of a date that is
  written with a space in its middle.
-/
import QuorumStore.Json.Reader
import QuorumStore.Toml.Basic

namespace QuorumStore

namespace Toml

/-! ### Digits -/

/-- Digits in groups: an underscore stands only between two digits. -/
def digitGroups? (isDigit : Char → Bool) : List Char → Option (List Char)
  | [] => none
  | [c] => if isDigit c then some [c] else none
  | c :: '_' :: rest => if isDigit c then (digitGroups? isDigit rest).map (c :: ·) else none
  | c :: rest => if isDigit c then (digitGroups? isDigit rest).map (c :: ·) else none

/-- The sign in front of a number, and the rest. -/
def splitSign : List Char → Bool × List Char
  | '-' :: rest => (true, rest)
  | '+' :: rest => (false, rest)
  | cs => (false, cs)

/-- Decimal digits without a needless zero in front. -/
def decimalDigits? (cs : List Char) : Option (List Char) :=
  match digitGroups? Char.isDigit cs with
  | some ('0' :: _ :: _) => none
  | r => r

/-- The number that digits of a base denote. -/
def ofDigits (base : Nat) (digits : List Char) : Nat :=
  digits.foldl (fun n c => n * base + ((Json.hexValue? c).getD 0)) 0

/-! ### Integers -/

/-- The largest integer. -/
def integerLimit : Nat := Nat.pow 2 63 - 1

/-- An integer in a base other than ten. -/
def based? (base : Nat) (isDigit : Char → Bool) (cs : List Char) : Option Toml := do
  let n := ofDigits base (← digitGroups? isDigit cs)
  if n ≤ integerLimit then some (.integer n) else none

/-- An integer. -/
def integer? : List Char → Option Toml
  | '0' :: 'x' :: rest => based? 16 (fun c => (Json.hexValue? c).isSome) rest
  | '0' :: 'o' :: rest => based? 8 (fun c => c.isDigit && c.toNat < 56) rest
  | '0' :: 'b' :: rest => based? 2 (fun c => c = '0' || c = '1') rest
  | cs => do
    let (negative, rest) := splitSign cs
    let n := ofDigits 10 (← decimalDigits? rest)
    if negative then if n ≤ integerLimit + 1 then some (.integer (-n)) else none
    else if n ≤ integerLimit then some (.integer n) else none

/-! ### Other numbers -/

/-- A number with a fraction or an exponent, behind its sign. -/
def numeral? (negative : Bool) (cs : List Char) : Option Numeral := do
  let isExponent (c : Char) : Bool := c = 'e' || c = 'E'
  let mantissa := cs.takeWhile fun c => !isExponent c
  let whole := mantissa.takeWhile (· ≠ '.')
  let exponent ←
    match cs.drop mantissa.length with
    | [] => some none
    | _ :: rest =>
      let (negative, digits) := splitSign rest
      (digitGroups? Char.isDigit digits).map fun ds => some (negative, ds)
  let fraction ←
    match mantissa.drop whole.length with
    | [] => some none
    | _ :: digits => (digitGroups? Char.isDigit digits).map some
  if fraction.isNone ∧ exponent.isNone then none
  else some ⟨negative, ← decimalDigits? whole, fraction, exponent⟩

/-- A number that is no integer.  It may be too small to be told from minus
infinity but not too large. -/
def float? (cs : List Char) : Option Toml :=
  let (negative, rest) := splitSign cs
  if rest = ['i', 'n', 'f'] ∨ rest = ['n', 'a', 'n'] then some .float
  else
    match numeral? negative rest with
    | some n => if negative || n.isFinite then some .float else none
    | none => none

/-! ### Dates -/

/-- A number of exactly so many digits. -/
def fixed? (count : Nat) (cs : List Char) : Option Nat :=
  if cs.length = count ∧ cs.all Char.isDigit then some (ofDigits 10 cs) else none

/-- How many days a month has. -/
def daysIn (year month : Nat) : Nat :=
  if month = 2 then
    if year % 4 = 0 ∧ (year % 100 ≠ 0 ∨ year % 400 = 0) then 29 else 28
  else if month = 4 ∨ month = 6 ∨ month = 9 ∨ month = 11 then 30
  else 31

/-- Whether a word is a date. -/
def isDate (cs : List Char) : Bool :=
  match fixed? 4 (cs.take 4), cs.drop 4 with
  | some year, '-' :: rest =>
    match fixed? 2 (rest.take 2), rest.drop 2 with
    | some month, '-' :: rest =>
      match fixed? 2 rest with
      | some day => 1 ≤ month && month ≤ 12 && 1 ≤ day && day ≤ daysIn year month
      | none => false
    | _, _ => false
  | _, _ => false

/-- Whether a word begins with hours and minutes, and the rest. -/
def clock? (cs : List Char) : Option (List Char) :=
  match fixed? 2 (cs.take 2), cs.drop 2 with
  | some hour, ':' :: rest =>
    match fixed? 2 (rest.take 2) with
    | some minute => if hour ≤ 23 ∧ minute ≤ 59 then some (rest.drop 2) else none
    | none => none
  | _, _ => none

/-- What follows a time of day. -/
def afterTime? (cs : List Char) : Option (List Char) := do
  match ← clock? cs with
  | ':' :: rest =>
    let second ← fixed? 2 (rest.take 2)
    if 60 < second then none
    else
      match rest.drop 2 with
      | '.' :: rest =>
        match rest.takeWhile Char.isDigit with
        | [] => none
        | ds => some (rest.drop ds.length)
      | rest => some rest
  | _ => none

/-- Whether a word is a time of day, perhaps with its distance from universal
time. -/
def isTimeWithOffset (cs : List Char) : Bool :=
  match afterTime? cs with
  | some [] => true
  | some ['Z'] => true
  | some ['z'] => true
  | some ('+' :: rest) => clock? rest = some []
  | some ('-' :: rest) => clock? rest = some []
  | _ => false

/-- Whether a word is a date, a time of day, or both. -/
def isMoment (cs : List Char) : Bool :=
  isDate cs || afterTime? cs = some [] ||
    match cs.drop 10 with
    | d :: rest => isDate (cs.take 10) && (d = 'T' || d = 't') && isTimeWithOffset rest
    | [] => false

/-- The value of a word. -/
def scalar? (cs : List Char) : Option Toml :=
  if cs = "true".toList then some (.boolean true)
  else if cs = "false".toList then some (.boolean false)
  else if isMoment cs then some .date
  else
    match float? cs with
    | some v => some v
    | none => integer? cs

end Toml

end QuorumStore
