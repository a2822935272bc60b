/-
Bytes read as UTF-8.

* `Utf8.lossy`: the text of any bytes, with one replacement character for each
  maximal part of an ill-formed sequence;
* `Utf8.text?`: the text of well-formed bytes only;
* `Utf8.bytes`: the bytes of a text;
* `Utf8.text?_eq_some_iff`: reading accepts exactly what writing produces.
-/

namespace QuorumStore

/-- A string of bytes. -/
abbrev Bytes := List UInt8

namespace Utf8

/-- The bytes of a text. -/
def bytes (s : String) : Bytes :=
  s.toUTF8.data.toList

/-- The text that well-formed bytes encode. -/
def text? (bs : Bytes) : Option String :=
  String.fromUTF8? ⟨bs.toArray⟩

/-- Reading accepts exactly what writing produces. -/
theorem text?_eq_some_iff {bs : Bytes} {s : String} : text? bs = some s ↔ bs = bytes s := by
  constructor
  · intro h
    simp only [text?, String.fromUTF8?] at h
    split at h
    · cases h
      rfl
    · cases h
  · rintro rfl
    have valid : (⟨(bytes s).toArray⟩ : ByteArray).IsValidUTF8 := by
      simpa [bytes] using s.isValidUTF8
    simp only [text?, String.fromUTF8?, valid, dif_pos]
    congr

/-! ### Ill-formed bytes -/

/-- A character whose first bytes have been read. -/
structure Pending where
  /-- How many bytes it still lacks. -/
  owed : Nat
  /-- The least that its next byte may be. -/
  low : UInt8
  /-- The greatest that its next byte may be. -/
  high : UInt8
  /-- The bits read so far. -/
  code : Nat

/-- What a byte begins: a character, a longer sequence, or nothing. -/
inductive Start where
  | char (c : Char)
  | pending (p : Pending)
  | wrong

/-- What a byte begins where a character is expected. -/
def start (b : UInt8) : Start :=
  if b < 0x80 then .char (Char.ofNat b.toNat)
  else if b < 0xC2 then .wrong
  else if b < 0xE0 then .pending ⟨1, 0x80, 0xBF, b.toNat % 32⟩
  else if b = 0xE0 then .pending ⟨2, 0xA0, 0xBF, 0⟩
  else if b = 0xED then .pending ⟨2, 0x80, 0x9F, 13⟩
  else if b < 0xF0 then .pending ⟨2, 0x80, 0xBF, b.toNat % 16⟩
  else if b = 0xF0 then .pending ⟨3, 0x90, 0xBF, 0⟩
  else if b < 0xF4 then .pending ⟨3, 0x80, 0xBF, b.toNat % 8⟩
  else if b = 0xF4 then .pending ⟨3, 0x80, 0x8F, 4⟩
  else .wrong

/-- The character that stands for bytes that are none. -/
def replacement : Char := '\uFFFD'

/-- Reads a byte where a character is expected. -/
def lossyStart (out : String) (b : UInt8) : String × Option Pending :=
  match start b with
  | .char c => (out.push c, none)
  | .pending p => (out, some p)
  | .wrong => (out.push replacement, none)

/-- Reads a byte.  A byte that cannot continue the character begun before it
ends that part, and is read again on its own. -/
def lossyStep : String × Option Pending → UInt8 → String × Option Pending
  | (out, none), b => lossyStart out b
  | (out, some p), b =>
    if p.low ≤ b ∧ b ≤ p.high then
      let code := p.code * 64 + b.toNat % 64
      if p.owed ≤ 1 then (out.push (Char.ofNat code), none)
      else (out, some ⟨p.owed - 1, 0x80, 0xBF, code⟩)
    else lossyStart (out.push replacement) b

/-- The text of any bytes. -/
def lossy (bs : Bytes) : String :=
  match bs.foldl lossyStep ("", none) with
  | (out, none) => out
  | (out, some _) => out.push replacement

end Utf8

end QuorumStore
