/-
Bytes in base64 are read back as they were written.

* `Base64.toList_encode`: the characters of a text, group by group;
* `Base64.value?_digit`: a character of the alphabet stands for its six bits;
* `Base64.decode?_encode`: decoding undoes encoding, whatever the bytes are.
-/
import Mathlib.Tactic.Lemma
import QuorumStore.Text.Base64

namespace QuorumStore

namespace Base64

/-- The characters of bytes: four for every three, the last group padded. -/
def digits : Bytes → List Char
  | [] => []
  | [a] => [digit (a.toNat / 4), digit (a.toNat % 4 * 16), '=', '=']
  | [a, b] =>
    [digit (a.toNat / 4), digit (a.toNat % 4 * 16 + b.toNat / 16), digit (b.toNat % 16 * 4), '=']
  | a :: b :: c :: rest =>
    digit (a.toNat / 4) :: digit (a.toNat % 4 * 16 + b.toNat / 16) ::
      digit (b.toNat % 16 * 4 + c.toNat / 64) :: digit (c.toNat % 64) :: digits rest

lemma toList_encodeOnto (out : String) (bs : Bytes) :
    (encodeOnto out bs).toList = out.toList ++ digits bs := by
  fun_induction encodeOnto out bs with
  | case1 out => simp only [digits, List.append_nil]
  | case2 out a => simp [digits]
  | case3 out a b => simp [digits]
  | case4 out a b c rest ih => simp [digits, ih]

/-- A text of bytes holds their characters. -/
lemma toList_encode (bs : Bytes) : (encode bs).toList = digits bs := by
  rw [encode, toList_encodeOnto]
  rfl

/-- A character of the alphabet stands for its six bits. -/
lemma value?_digit {n : Nat} (hn : n < 64) : value? (digit n) = some n := by
  have all : ∀ n < 64, value? (digit n) = some n := by decide
  exact all n hn

/-- No character of the alphabet is the one that pads. -/
lemma digit_ne_padding {n : Nat} (hn : n < 64) : digit n ≠ '=' := by
  have all : ∀ n < 64, digit n ≠ '=' := by decide
  exact all n hn

lemma ofNat_of_eq {n : Nat} {a : UInt8} (h : n = a.toNat) : UInt8.ofNat n = a := by
  rw [h]
  exact UInt8.ofNat_toNat

/-- A whole group gives its three bytes. -/
lemma bytes_of_group (a b c : UInt8) :
    [UInt8.ofNat (a.toNat / 4 * 4 + (a.toNat % 4 * 16 + b.toNat / 16) / 16),
      UInt8.ofNat ((a.toNat % 4 * 16 + b.toNat / 16) % 16 * 16 +
        (b.toNat % 16 * 4 + c.toNat / 64) / 4),
      UInt8.ofNat ((b.toNat % 16 * 4 + c.toNat / 64) % 4 * 64 + c.toNat % 64)] = [a, b, c] := by
  have hb := b.toNat_lt
  have hc := c.toNat_lt
  rw [ofNat_of_eq (a := a) (by omega), ofNat_of_eq (a := b) (by omega),
    ofNat_of_eq (a := c) (by omega)]

/-- The characters of a whole group stand for its bits, six each. -/
lemma values_of_group (a b c : UInt8) :
    value? (digit (a.toNat / 4)) = some (a.toNat / 4) ∧
    value? (digit (a.toNat % 4 * 16 + b.toNat / 16)) = some (a.toNat % 4 * 16 + b.toNat / 16) ∧
    value? (digit (b.toNat % 16 * 4 + c.toNat / 64)) = some (b.toNat % 16 * 4 + c.toNat / 64) ∧
    value? (digit (c.toNat % 64)) = some (c.toNat % 64) := by
  have ha := a.toNat_lt
  have hb := b.toNat_lt
  have hc := c.toNat_lt
  exact ⟨value?_digit (by omega), value?_digit (by omega), value?_digit (by omega),
    value?_digit (by omega)⟩

/-- A last group that holds one byte. -/
lemma decodeLast?_one (a : UInt8) :
    decodeLast? (digit (a.toNat / 4)) (digit (a.toNat % 4 * 16)) '=' '=' = some [a] := by
  have ha := a.toNat_lt
  have first : UInt8.ofNat (a.toNat / 4 * 4 + a.toNat % 4 * 16 / 16) = a :=
    ofNat_of_eq (by omega)
  have spare : a.toNat % 4 * 16 % 16 = 0 := by omega
  have hx := value?_digit (show a.toNat / 4 < 64 by omega)
  have hy := value?_digit (show a.toNat % 4 * 16 < 64 by omega)
  simp only [decodeLast?, hx, hy, first, spare, Option.bind_eq_bind, Option.bind_some, if_true]

/-- A last group that holds two bytes. -/
lemma decodeLast?_two (a b : UInt8) :
    decodeLast? (digit (a.toNat / 4)) (digit (a.toNat % 4 * 16 + b.toNat / 16))
      (digit (b.toNat % 16 * 4)) '=' = some [a, b] := by
  have ha := a.toNat_lt
  have hb := b.toNat_lt
  have first : UInt8.ofNat (a.toNat / 4 * 4 + (a.toNat % 4 * 16 + b.toNat / 16) / 16) = a :=
    ofNat_of_eq (by omega)
  have second : UInt8.ofNat ((a.toNat % 4 * 16 + b.toNat / 16) % 16 * 16 +
      b.toNat % 16 * 4 / 4) = b := ofNat_of_eq (by omega)
  have spare : b.toNat % 16 * 4 % 4 = 0 := by omega
  have hx := value?_digit (show a.toNat / 4 < 64 by omega)
  have hy := value?_digit (show a.toNat % 4 * 16 + b.toNat / 16 < 64 by omega)
  have hz := value?_digit (show b.toNat % 16 * 4 < 64 by omega)
  have hc := digit_ne_padding (show b.toNat % 16 * 4 < 64 by omega)
  simp only [decodeLast?, hx, hy, hz, hc, first, second, spare, Option.bind_eq_bind,
    Option.bind_some, if_true, if_false]

/-- A last group that holds three bytes. -/
lemma decodeLast?_three (a b c : UInt8) :
    decodeLast? (digit (a.toNat / 4)) (digit (a.toNat % 4 * 16 + b.toNat / 16))
      (digit (b.toNat % 16 * 4 + c.toNat / 64)) (digit (c.toNat % 64)) = some [a, b, c] := by
  obtain ⟨hx, hy, hz, hw⟩ := values_of_group a b c
  have hd := digit_ne_padding (show c.toNat % 64 < 64 by omega)
  simp only [decodeLast?, hx, hy, hz, hw, hd, Option.bind_eq_bind, Option.bind_some, if_false,
    bytes_of_group]

/-- The bytes that are read behind those in `out`.  A whole group stands either
at the end or before another one. -/
lemma decodeOnto_digits (out bs : Bytes) :
    decodeOnto out (digits bs) = some (out.reverse ++ bs) := by
  fun_induction digits bs generalizing out with
  | case1 => simp only [decodeOnto, List.append_nil]
  | case2 a => simp only [decodeOnto, decodeLast?_one, Option.map_some]
  | case3 a b => simp only [decodeOnto, decodeLast?_two, Option.map_some]
  | case4 a b c rest ih =>
    cases hd : digits rest with
    | nil =>
      have hrest := ih out
      rw [hd] at hrest
      simp only [decodeOnto, Option.some.injEq, List.self_eq_append_right] at hrest
      simp only [decodeOnto, decodeLast?_three, Option.map_some, hrest]
    | cons d ds =>
      obtain ⟨hx, hy, hz, hw⟩ := values_of_group a b c
      have group := bytes_of_group a b c
      simp only [List.cons.injEq, and_true] at group
      obtain ⟨first, second, third⟩ := group
      have hrest := ih (c :: b :: a :: out)
      rw [hd] at hrest
      simp only [decodeOnto, hx, hy, hz, hw, first, second, third, hrest, List.reverse_cons,
        List.append_assoc, List.cons_append, List.nil_append]

/-- Decoding undoes encoding. -/
theorem decode?_encode (bs : Bytes) : decode? (encode bs) = some bs := by
  rw [decode?, toList_encode, decodeOnto_digits]
  rfl

end Base64

end QuorumStore
