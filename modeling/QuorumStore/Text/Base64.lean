/-
Bytes written in the standard base64 alphabet with padding.

* `Base64.encode`: three bytes become four characters, and the last group is
  padded with `=`;
* `Base64.decode?`: accepts the texts that `encode` writes and no others, so
  the padding is required and the bits it stands for are zero.
-/
import QuorumStore.Text.Utf8

namespace QuorumStore

namespace Base64

/-- The character of six bits. -/
def digit (n : Nat) : Char :=
  if n < 26 then Char.ofNat (n + 65)
  else if n < 52 then Char.ofNat (n + 71)
  else if n < 62 then Char.ofNat (n - 4)
  else if n = 62 then '+'
  else '/'

/-- The six bits of a character of the alphabet. -/
def value? (c : Char) : Option Nat :=
  let n := c.toNat
  if 65 ≤ n ∧ n ≤ 90 then some (n - 65)
  else if 97 ≤ n ∧ n ≤ 122 then some (n - 71)
  else if 48 ≤ n ∧ n ≤ 57 then some (n + 4)
  else if n = 43 then some 62
  else if n = 47 then some 63
  else none

/-- Writes bytes behind a text. -/
def encodeOnto (out : String) : Bytes → String
  | [] => out
  | [a] =>
    (((out.push (digit (a.toNat / 4))).push (digit (a.toNat % 4 * 16))).push '=').push '='
  | [a, b] =>
    (((out.push (digit (a.toNat / 4))).push (digit (a.toNat % 4 * 16 + b.toNat / 16))).push
      (digit (b.toNat % 16 * 4))).push '='
  | a :: b :: c :: rest =>
    encodeOnto
      ((((out.push (digit (a.toNat / 4))).push (digit (a.toNat % 4 * 16 + b.toNat / 16))).push
        (digit (b.toNat % 16 * 4 + c.toNat / 64))).push (digit (c.toNat % 64))) rest

/-- The text of bytes. -/
def encode (bs : Bytes) : String :=
  encodeOnto "" bs

/-- The bytes of a last group of four characters, which may be padded. -/
def decodeLast? (a b c d : Char) : Option Bytes := do
  let x ← value? a
  let y ← value? b
  if d = '=' then
    if c = '=' then
      if y % 16 = 0 then some [UInt8.ofNat (x * 4 + y / 16)] else none
    else
      let z ← value? c
      if z % 4 = 0 then
        some [UInt8.ofNat (x * 4 + y / 16), UInt8.ofNat (y % 16 * 16 + z / 4)]
      else none
  else
    let z ← value? c
    let w ← value? d
    some [UInt8.ofNat (x * 4 + y / 16), UInt8.ofNat (y % 16 * 16 + z / 4),
      UInt8.ofNat (z % 4 * 64 + w)]

/-- Reads groups of four characters; `out` holds the bytes so far, last first. -/
def decodeOnto (out : Bytes) : List Char → Option Bytes
  | [] => some out.reverse
  | a :: b :: c :: d :: rest =>
    match rest with
    | [] => (decodeLast? a b c d).map fun bs => out.reverse ++ bs
    | _ :: _ =>
      match value? a, value? b, value? c, value? d with
      | some x, some y, some z, some w =>
        decodeOnto (UInt8.ofNat (z % 4 * 64 + w) :: UInt8.ofNat (y % 16 * 16 + z / 4) ::
          UInt8.ofNat (x * 4 + y / 16) :: out) rest
      | _, _, _, _ => none
  | _ => none

/-- The bytes that a text encodes. -/
def decode? (s : String) : Option Bytes :=
  decodeOnto [] s.toList

end Base64

end QuorumStore
