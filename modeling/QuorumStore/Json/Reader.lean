/-
Reading JSON.  The whole text must be one value, with blanks around it.

* `Json.parse?`: the value of a text;
* `Json.readText`: the literal behind a quotation mark.  Escaped surrogates are
  put together in pairs; a half without its other half leaves the literal well
  formed, but it denotes nothing.
-/
import QuorumStore.Json.Basic

namespace QuorumStore

namespace Json

/-- Whether a character may stand between the parts of a value. -/
def isSpace (c : Char) : Bool :=
  c = ' ' || c = '\n' || c = '\r' || c = '\t'

/-- What follows the blanks. -/
def skipSpace (cs : List Char) : List Char :=
  cs.dropWhile isSpace

/-! ### Texts -/

/-- The value of a hexadecimal digit. -/
def hexValue? (c : Char) : Option Nat :=
  let n := c.toNat
  if 48 ≤ n ∧ n ≤ 57 then some (n - 48)
  else if 97 ≤ n ∧ n ≤ 102 then some (n - 87)
  else if 65 ≤ n ∧ n ≤ 70 then some (n - 55)
  else none

/-- The value of four hexadecimal digits. -/
def hexUnit? (a b c d : Char) : Option Nat := do
  let a ← hexValue? a
  let b ← hexValue? b
  let c ← hexValue? c
  let d ← hexValue? d
  some (((a * 16 + b) * 16 + c) * 16 + d)

/-- What a character behind a backslash stands for. -/
def escaped? (c : Char) : Option Char :=
  if c = '"' ∨ c = '\\' ∨ c = '/' then some c
  else if c = 'n' then some '\n'
  else if c = 'r' then some '\r'
  else if c = 't' then some '\t'
  else if c = 'b' then some (Char.ofNat 8)
  else if c = 'f' then some (Char.ofNat 12)
  else none

/-- Reads a literal behind its quotation mark.  `out` is the text so far,
`sound` says whether all of it denotes something, and `half` is the first half
of a surrogate pair if one has just been read. -/
def readText (out : String) (sound : Bool) (half : Option Nat) :
    List Char → Option (Literal × List Char)
  | [] => none
  | '"' :: rest => some (if sound && half.isNone then some out else none, rest)
  | '\\' :: 'u' :: a :: b :: c :: d :: rest =>
    match hexUnit? a b c d with
    | none => none
    | some n =>
      if 0xDC00 ≤ n ∧ n < 0xE000 then
        match half with
        | some h =>
          readText (out.push (Char.ofNat (0x10000 + (h - 0xD800) * 0x400 + (n - 0xDC00))))
            sound none rest
        | none => readText out false none rest
      else if 0xD800 ≤ n ∧ n < 0xDC00 then readText out (sound && half.isNone) (some n) rest
      else readText (out.push (Char.ofNat n)) (sound && half.isNone) none rest
  | '\\' :: c :: rest =>
    match escaped? c with
    | none => none
    | some e => readText (out.push e) (sound && half.isNone) none rest
  | c :: rest =>
    if c.toNat < 32 then none
    else readText (out.push c) (sound && half.isNone) none rest

/-! ### Numbers -/

/-- The digits in front and what follows them; there must be one. -/
def digits? (cs : List Char) : Option (List Char × List Char) :=
  match cs.takeWhile Char.isDigit with
  | [] => none
  | ds => some (ds, cs.dropWhile Char.isDigit)

/-- The digits of a whole part; no zero stands before another digit. -/
def wholeDigits? (cs : List Char) : Option (List Char × List Char) :=
  match digits? cs with
  | some ('0' :: _ :: _, _) => none
  | r => r

/-- The fraction in front, if there is one. -/
def fraction? : List Char → Option (Option (List Char) × List Char)
  | '.' :: rest => (digits? rest).map fun (ds, rest) => (some ds, rest)
  | cs => some (none, cs)

/-- The digits of an exponent, with its sign. -/
def signedDigits? : List Char → Option (Option (Bool × List Char) × List Char)
  | '-' :: rest => (digits? rest).map fun (ds, rest) => (some (true, ds), rest)
  | '+' :: rest => (digits? rest).map fun (ds, rest) => (some (false, ds), rest)
  | cs => (digits? cs).map fun (ds, rest) => (some (false, ds), rest)

/-- The exponent in front, if there is one. -/
def exponent? : List Char → Option (Option (Bool × List Char) × List Char)
  | 'e' :: rest => signedDigits? rest
  | 'E' :: rest => signedDigits? rest
  | cs => some (none, cs)

/-- The numeral in front, behind its sign. -/
def readUnsigned (negative : Bool) (cs : List Char) : Option (Json × List Char) := do
  let (whole, rest) ← wholeDigits? cs
  let (fraction, rest) ← fraction? rest
  let (exponent, rest) ← exponent? rest
  some (number ⟨negative, whole, fraction, exponent⟩, rest)

/-- The numeral in front. -/
def readNumeral : List Char → Option (Json × List Char)
  | '-' :: rest => readUnsigned true rest
  | cs => readUnsigned false cs

/-! ### Values -/

mutual

/-- The value in front, and what follows it. -/
def readValue : Nat → List Char → Option (Json × List Char)
  | 0, _ => none
  | fuel + 1, cs =>
    match skipSpace cs with
    | '"' :: rest => (readText "" true none rest).map fun (s, rest) => (string s, rest)
    | '[' :: rest =>
      match skipSpace rest with
      | ']' :: rest => some (array [], rest)
      | rest => readItems fuel [] rest
    | '\x7b' :: rest =>
      match skipSpace rest with
      | '\x7d' :: rest => some (object [], rest)
      | rest => readMembers fuel [] rest
    | 'n' :: 'u' :: 'l' :: 'l' :: rest => some (null, rest)
    | 't' :: 'r' :: 'u' :: 'e' :: rest => some (bool true, rest)
    | 'f' :: 'a' :: 'l' :: 's' :: 'e' :: rest => some (bool false, rest)
    | rest => readNumeral rest

/-- The items that follow those in `seen`, which are kept last first. -/
def readItems : Nat → List Json → List Char → Option (Json × List Char)
  | 0, _, _ => none
  | fuel + 1, seen, cs =>
    match readValue fuel cs with
    | none => none
    | some (v, rest) =>
      match skipSpace rest with
      | ',' :: rest => readItems fuel (v :: seen) rest
      | ']' :: rest => some (array (v :: seen).reverse, rest)
      | _ => none

/-- The members that follow those in `seen`, which are kept last first. -/
def readMembers : Nat → List (Literal × Json) → List Char → Option (Json × List Char)
  | 0, _, _ => none
  | fuel + 1, seen, cs =>
    match skipSpace cs with
    | '"' :: rest =>
      match readText "" true none rest with
      | none => none
      | some (k, rest) =>
        match skipSpace rest with
        | ':' :: rest =>
          match readValue fuel rest with
          | none => none
          | some (v, rest) =>
            match skipSpace rest with
            | ',' :: rest => readMembers fuel ((k, v) :: seen) rest
            | '\x7d' :: rest => some (object ((k, v) :: seen).reverse, rest)
            | _ => none
        | _ => none
    | _ => none

end

/-- The value of a text.  Every value takes a character and every step into an
array or object takes another, so twice the length is fuel enough. -/
def parse? (s : String) : Option Json :=
  let cs := s.toList
  match readValue (2 * cs.length + 2) cs with
  | some (v, rest) => if (skipSpace rest).isEmpty then some v else none
  | none => none

end Json

end QuorumStore
