/-
JSON values written compactly, without any space.

* `Json.quoteOnto`: a text between quotation marks; the quotation mark, the
  backslash and the control characters below the space are escaped, and nothing
  else is;
* `Json.render`: the text of a value.
-/
import QuorumStore.Json.Basic

namespace QuorumStore

namespace Json

/-- A hexadecimal digit in lower case. -/
def hexDigit (n : Nat) : Char :=
  if n < 10 then Char.ofNat (n + 48) else Char.ofNat (n + 87)

/-- Writes a character of a text as it stands between quotation marks. -/
def escapeOnto (out : String) (c : Char) : String :=
  if c = '"' then (out.push '\\').push '"'
  else if c = '\\' then (out.push '\\').push '\\'
  else if c = '\n' then (out.push '\\').push 'n'
  else if c = '\r' then (out.push '\\').push 'r'
  else if c = '\t' then (out.push '\\').push 't'
  else if c.toNat = 8 then (out.push '\\').push 'b'
  else if c.toNat = 12 then (out.push '\\').push 'f'
  else if c.toNat < 32 then
    (((((out.push '\\').push 'u').push '0').push '0').push
      (hexDigit (c.toNat / 16))).push (hexDigit (c.toNat % 16))
  else out.push c

/-- Writes a text between quotation marks. -/
def quoteOnto (out : String) (s : String) : String :=
  (s.toList.foldl escapeOnto (out.push '"')).push '"'

/-- Writes a literal.  One that denotes no text is written as an escaped half of
a surrogate pair. -/
def literalOnto (out : String) : Literal → String
  | some s => quoteOnto out s
  | none => out ++ "\"\\ud800\""

mutual

/-- Writes a value behind a text. -/
def writeOnto (out : String) : Json → String
  | null => out ++ "null"
  | bool true => out ++ "true"
  | bool false => out ++ "false"
  | number n => out ++ n.text
  | string s => literalOnto out s
  | array [] => out ++ "[]"
  | array (v :: rest) => (writeItemsOnto (writeOnto (out.push '[') v) rest).push ']'
  | object [] => (out.push '\x7b').push '\x7d'
  | object ((k, v) :: rest) =>
    (writeMembersOnto
      (writeOnto ((literalOnto (out.push '\x7b') k).push ':') v) rest).push '\x7d'

/-- Writes further items, each behind a comma. -/
def writeItemsOnto (out : String) : List Json → String
  | [] => out
  | v :: rest => writeItemsOnto (writeOnto (out.push ',') v) rest

/-- Writes further members, each behind a comma. -/
def writeMembersOnto (out : String) : List (Literal × Json) → String
  | [] => out
  | (k, v) :: rest =>
    writeMembersOnto (writeOnto ((literalOnto (out.push ',') k).push ':') v) rest

end

/-- The text of a value. -/
def render (v : Json) : String :=
  writeOnto "" v

end Json

end QuorumStore
