/-
Texts between quotation marks as operators read them: whatever cannot be seen is
written by its code point.

* `Quoted.encode`: the quoted form of a text.
-/
import QuorumStore.Text.Visible

namespace QuorumStore

namespace Quoted

/-- A number in hexadecimal digits in lower case. -/
def hexText (n : Nat) : String :=
  String.ofList (Nat.toDigits 16 n)

/-- A character as it stands between quotation marks. -/
def encodeChar (c : Char) : String :=
  if c = '"' then "\\\""
  else if c = '\\' then "\\\\"
  else if c = '\n' then "\\n"
  else if c = '\r' then "\\r"
  else if c = '\t' then "\\t"
  else if c.toNat = 0 then "\\0"
  else if isVisible c then c.toString
  else "\\u\x7b" ++ hexText c.toNat ++ "\x7d"

/-- A text between quotation marks. -/
def encode (s : String) : String :=
  "\"" ++ String.join (s.toList.map encodeChar) ++ "\""

end Quoted

end QuorumStore
