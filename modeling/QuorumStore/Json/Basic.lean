/-
JSON values as they are written: numerals keep their digits and objects keep
all of their members in order.

* `Numeral.natural?`: the number of a plain numeral without sign, point and
  exponent;
* `Numeral.isFinite`: whether a numeral is in the range of a double;
* `Json.holdable`: whether a value can be set aside and read later.
-/

namespace QuorumStore

/-- A number as it is written. -/
structure Numeral where
  /-- Whether a minus sign stands in front. -/
  negative : Bool
  /-- The digits before the point. -/
  whole : List Char
  /-- The digits after the point, if there is one. -/
  fraction : Option (List Char)
  /-- The exponent, if there is one: whether it is negative, and its digits. -/
  exponent : Option (Bool × List Char)
  deriving DecidableEq

namespace Numeral

/-- The number that decimal digits denote. -/
def ofDigits (digits : List Char) : Nat :=
  digits.foldl (fun n c => n * 10 + (c.toNat - 48)) 0

/-- The plain numeral of a number. -/
def ofNat (n : Nat) : Numeral :=
  ⟨false, Nat.toDigits 10 n, none, none⟩

/-- The number of a plain numeral.  A numeral of more than twenty digits is
beyond every range and is not looked at. -/
def natural? (n : Numeral) : Option Nat :=
  if n.negative ∨ n.fraction.isSome ∨ n.exponent.isSome ∨ 20 < n.whole.length then none
  else some (ofDigits n.whole)

/-- The exponent as a number; one of more than nine digits is cut to those that
matter. -/
def power (n : Numeral) : Int :=
  match n.exponent with
  | none => 0
  | some (negative, digits) =>
    let digits := digits.dropWhile (· = '0')
    let p : Int := if 9 < digits.length then 1000000000 else ofDigits digits
    if negative then -p else p

/-- The least number that rounds beyond the largest double. -/
def doubleLimit : Nat := Nat.pow 2 1024 - Nat.pow 2 970

/-- Whether a numeral is in the range of a double.  The place of its first
digit decides, except near the limit, where the number itself is compared. -/
def isFinite (n : Numeral) : Bool :=
  let fraction := n.fraction.getD []
  let digits := (n.whole ++ fraction).dropWhile (· = '0')
  let place : Int := digits.length - fraction.length + n.power
  if digits.isEmpty ∨ place < 309 then true
  else if 309 < place then false
  else
    -- Four hundred digits tell the number from the limit.
    let shown := digits.take 400
    let zeros := 309 - shown.length
    ofDigits shown * Nat.pow 10 zeros < doubleLimit * Nat.pow 10 (shown.length - 309)

/-- The numeral as it is written. -/
def text (n : Numeral) : String :=
  (if n.negative then "-" else "") ++ String.ofList n.whole ++
    (match n.fraction with
      | none => ""
      | some f => "." ++ String.ofList f) ++
    (match n.exponent with
      | none => ""
      | some (neg, e) => (if neg then "e-" else "e") ++ String.ofList e)

end Numeral

/-- What a quoted literal denotes.  One that escapes half of a surrogate pair is
well formed but denotes no text. -/
abbrev Literal := Option String

/-- A JSON value. -/
inductive Json where
  | null
  | bool (b : Bool)
  | number (n : Numeral)
  | string (s : Literal)
  | array (items : List Json)
  | object (members : List (Literal × Json))

namespace Json

instance : Inhabited Json := ⟨null⟩

/-- A text as a value. -/
def text (s : String) : Json :=
  string (some s)

/-- A natural number as a value. -/
def nat (n : Nat) : Json :=
  number (.ofNat n)

/-- An object with the given members. -/
def obj (members : List (String × Json)) : Json :=
  object (members.map fun p => (some p.1, p.2))

mutual

/-- Whether a value can be set aside and read later.  Its texts must denote
something, its numbers must be finite, and `depth` bounds how far arrays and
objects may be nested. -/
def holdable (depth : Nat) : Json → Bool
  | null => true
  | bool _ => true
  | number n => n.isFinite
  | string s => s.isSome
  | array items => 0 < depth && holdableItems (depth - 1) items
  | object members => 0 < depth && holdableMembers (depth - 1) members

/-- Whether all items can be set aside. -/
def holdableItems (depth : Nat) : List Json → Bool
  | [] => true
  | v :: rest => holdable depth v && holdableItems depth rest

/-- Whether all members can be set aside, their names included. -/
def holdableMembers (depth : Nat) : List (Literal × Json) → Bool
  | [] => true
  | (k, v) :: rest => k.isSome && holdable depth v && holdableMembers depth rest

end

end Json

end QuorumStore
