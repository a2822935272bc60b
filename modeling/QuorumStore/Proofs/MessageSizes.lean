/-
How many bytes a message takes.

* `Json.utf8ByteSize_obj`, `Json.utf8ByteSize_array`: the size of a value from the
  sizes of its parts;
* `Json.utf8ByteSize_text_encode`: bytes in base64 take four for every three;
* `Request.utf8ByteSize_put`, `Request.utf8ByteSize_replicate`: the size of a write
  and that of the call that replicates it.

A write and the call that replicates it hold the same value in base64, but not the
same clocks, and the call lists all versions of the key.  So a write may fit into a
frame of which the call does not.
-/
import Mathlib.Algebra.GroupWithZero.Nat
import Mathlib.Tactic.Lemma
import QuorumStore.Proofs.Messages

namespace QuorumStore

/-! ### Values -/

namespace Json

/-- The bytes of a member of an object: its name, a colon, its value and the comma or
brace behind it. -/
def memberSize (p : String × Json) : Nat :=
  (text p.1).render.utf8ByteSize + p.2.render.utf8ByteSize + 2

/-- What comes behind the first member of an object. -/
lemma utf8ByteSize_writeMembersOnto (out : String) (members : List (String × Json)) :
    (writeMembersOnto out (members.map fun p => (some p.1, p.2))).utf8ByteSize =
      out.utf8ByteSize + (members.map memberSize).sum := by
  induction members generalizing out with
  | nil => rfl
  | cons p rest ih =>
    have comma : (',').utf8Size = 1 := rfl
    have colon : (':').utf8Size = 1 := rfl
    rw [List.map_cons, writeMembersOnto, ih, writeOnto_eq, literalOnto_eq,
      String.utf8ByteSize_append, String.utf8ByteSize_push, String.utf8ByteSize_append,
      String.utf8ByteSize_push, comma, colon, List.map_cons, List.sum_cons, memberSize, text]
    omega

/-- An object takes one byte more than its members, and two if there are none. -/
theorem utf8ByteSize_obj (members : List (String × Json)) :
    (obj members).render.utf8ByteSize = max 2 (1 + (members.map memberSize).sum) := by
  have opening : ('\x7b').utf8Size = 1 := rfl
  have closing : ('\x7d').utf8Size = 1 := rfl
  have colon : (':').utf8Size = 1 := rfl
  cases members with
  | nil => rfl
  | cons p rest =>
    rw [obj, render, List.map_cons, writeOnto, String.utf8ByteSize_push,
      utf8ByteSize_writeMembersOnto, writeOnto_eq, literalOnto_eq, String.utf8ByteSize_append,
      String.utf8ByteSize_push, String.utf8ByteSize_append, String.utf8ByteSize_push, opening,
      closing, colon, List.map_cons, List.sum_cons, memberSize, text, String.utf8ByteSize_empty]
    omega

/-- What comes behind the first item of an array. -/
lemma utf8ByteSize_writeItemsOnto (out : String) (items : List Json) :
    (writeItemsOnto out items).utf8ByteSize =
      out.utf8ByteSize + (items.map fun v => v.render.utf8ByteSize + 1).sum := by
  induction items generalizing out with
  | nil => rfl
  | cons v rest ih =>
    have comma : (',').utf8Size = 1 := rfl
    rw [writeItemsOnto, ih, writeOnto_eq, String.utf8ByteSize_append, String.utf8ByteSize_push,
      comma, List.map_cons, List.sum_cons]
    omega

/-- An array takes one byte more than its items and what separates them, and two if
there are none. -/
theorem utf8ByteSize_array (items : List Json) :
    (array items).render.utf8ByteSize =
      max 2 (1 + (items.map fun v => v.render.utf8ByteSize + 1).sum) := by
  have opening : ('[').utf8Size = 1 := rfl
  have closing : (']').utf8Size = 1 := rfl
  cases items with
  | nil => rfl
  | cons v rest =>
    rw [render, writeOnto, String.utf8ByteSize_push, utf8ByteSize_writeItemsOnto, writeOnto_eq,
      String.utf8ByteSize_append, String.utf8ByteSize_push, opening, closing, List.map_cons,
      List.sum_cons, String.utf8ByteSize_empty]
    omega

end Json

/-! ### Bytes in base64 -/

namespace Base64

lemma length_digits (bs : Bytes) : (digits bs).length = (bs.length + 2) / 3 * 4 := by
  fun_induction digits bs with
  | case1 => rfl
  | case2 a => simp
  | case3 a b => simp
  | case4 a b c rest ih =>
    simp only [List.length_cons, ih]
    omega

/-- A character of the alphabet, or the one that pads. -/
lemma mem_digits {bs : Bytes} {c : Char} (h : c ∈ digits bs) : c = '=' ∨ ∃ n < 64, c = digit n := by
  have byte : ∀ a : UInt8, a.toNat < 256 := UInt8.toNat_lt
  fun_induction digits bs with
  | case1 => cases h
  | case2 a =>
    have ha := byte a
    simp only [List.mem_cons, List.not_mem_nil, or_false, or_self] at h
    rcases h with rfl | rfl | rfl
    · exact .inr ⟨_, by omega, rfl⟩
    · exact .inr ⟨_, by omega, rfl⟩
    · exact .inl rfl
  | case3 a b =>
    have ha := byte a
    have hb := byte b
    simp only [List.mem_cons, List.not_mem_nil, or_false] at h
    rcases h with rfl | rfl | rfl | rfl
    · exact .inr ⟨_, by omega, rfl⟩
    · exact .inr ⟨_, by omega, rfl⟩
    · exact .inr ⟨_, by omega, rfl⟩
    · exact .inl rfl
  | case4 a b c rest ih =>
    have ha := byte a
    have hb := byte b
    have hc := byte c
    simp only [List.mem_cons] at h
    rcases h with rfl | rfl | rfl | rfl | h
    · exact .inr ⟨_, by omega, rfl⟩
    · exact .inr ⟨_, by omega, rfl⟩
    · exact .inr ⟨_, by omega, rfl⟩
    · exact .inr ⟨_, by omega, rfl⟩
    · exact ih h

end Base64

namespace Json

/-- All characters from the space on but two stand in a text as they are. -/
lemma escapeOnto_of_le {c : Char} (hc : 32 ≤ c.toNat) (hquote : c ≠ '"') (hback : c ≠ '\\')
    (out : String) : escapeOnto out c = out.push c := by
  have control : ∀ d : Char, d.toNat < 32 → c ≠ d := by
    rintro d hd rfl
    omega
  have hnewline : c ≠ '\n' := control _ (by decide)
  have hreturn : c ≠ '\r' := control _ (by decide)
  have htab : c ≠ '\t' := control _ (by decide)
  simp only [escapeOnto, if_neg hquote, if_neg hback, if_neg hnewline, if_neg hreturn, if_neg htab]
  rw [if_neg (by omega), if_neg (by omega), if_neg (by omega)]

/-- What base64 is written with stands in a text as it is, and takes one byte. -/
lemma escapeOnto_of_mem_digits {bs : Bytes} {c : Char} (h : c ∈ Base64.digits bs) :
    c.utf8Size = 1 ∧ ∀ out, escapeOnto out c = out.push c := by
  have alphabet : ∀ n < 64, (Base64.digit n).utf8Size = 1 ∧ 32 ≤ (Base64.digit n).toNat ∧
      Base64.digit n ≠ '"' ∧ Base64.digit n ≠ '\\' := by decide
  rcases Base64.mem_digits h with rfl | ⟨n, hn, rfl⟩
  · exact ⟨rfl, escapeOnto_of_le (by decide) (by decide) (by decide)⟩
  · obtain ⟨hsize, hhigh, hquote, hback⟩ := alphabet n hn
    exact ⟨hsize, escapeOnto_of_le hhigh hquote hback⟩

lemma utf8ByteSize_foldl_escapeOnto {cs : List Char}
    (h : ∀ c ∈ cs, c.utf8Size = 1 ∧ ∀ out, escapeOnto out c = out.push c) (out : String) :
    (cs.foldl escapeOnto out).utf8ByteSize = out.utf8ByteSize + cs.length := by
  induction cs generalizing out with
  | nil => rfl
  | cons c rest ih =>
    obtain ⟨⟨hsize, hplain⟩, hrest⟩ := List.forall_mem_cons.mp h
    rw [List.foldl_cons, hplain, ih hrest, String.utf8ByteSize_push, hsize, List.length_cons]
    omega

/-- Bytes in base64 take four bytes for every three, with quotation marks around
them. -/
theorem utf8ByteSize_text_encode (bs : Bytes) :
    (text (Base64.encode bs)).render.utf8ByteSize = (bs.length + 2) / 3 * 4 + 2 := by
  have mark : ('"').utf8Size = 1 := rfl
  have written : (text (Base64.encode bs)).render =
      ((Base64.digits bs).foldl escapeOnto ("".push '"')).push '"' := by
    rw [text, render, writeOnto, literalOnto, quoteOnto, Base64.toList_encode]
  calc (text (Base64.encode bs)).render.utf8ByteSize
      = 1 + (Base64.digits bs).length + 1 := by
        rw [written, String.utf8ByteSize_push,
          utf8ByteSize_foldl_escapeOnto (fun c hc => escapeOnto_of_mem_digits hc),
          String.utf8ByteSize_push, String.utf8ByteSize_empty, mark]
    _ = (bs.length + 2) / 3 * 4 + 2 := by
        rw [Base64.length_digits]
        omega

end Json

/-! ### Requests -/

/-- A version takes its clock and its value in base64. -/
lemma Version.utf8ByteSize_toJson (v : Version) :
    v.toJson.render.utf8ByteSize =
      v.clock.toContextJson.render.utf8ByteSize + (v.value.length + 2) / 3 * 4 + 23 := by
  have context : (Json.text "context").render.utf8ByteSize = 9 := rfl
  have value : (Json.text "value").render.utf8ByteSize = 7 := rfl
  rw [Version.toJson, Json.utf8ByteSize_obj]
  simp only [List.map_cons, List.map_nil, List.sum_cons, List.sum_nil, Json.memberSize, context,
    value, Json.utf8ByteSize_text_encode]
  omega

/-- What a request takes besides its parameters and the name of its kind. -/
lemma utf8ByteSize_taggedJson (method : Method) (content : Json) :
    (taggedJson method "params" (some content)).render.utf8ByteSize =
      (Json.text method.tag).render.utf8ByteSize + content.render.utf8ByteSize + 21 := by
  have name : (Json.text "method").render.utf8ByteSize = 8 := rfl
  have params : (Json.text "params").render.utf8ByteSize = 8 := rfl
  rw [taggedJson, Json.utf8ByteSize_obj]
  simp only [List.map_cons, List.map_nil, List.sum_cons, List.sum_nil, Json.memberSize, name,
    params]
  omega

namespace Request

/-- **The size of a write.** -/
theorem utf8ByteSize_put (key : String) (context : Clock) (value : Bytes) :
    (put key context value).toJson.render.utf8ByteSize =
      (Json.text key).render.utf8ByteSize + context.toContextJson.render.utf8ByteSize +
        (value.length + 2) / 3 * 4 + 56 := by
  have tag : (Json.text (Method.tag .put)).render.utf8ByteSize = 5 := rfl
  have name : (Json.text "key").render.utf8ByteSize = 5 := rfl
  have clock : (Json.text "context").render.utf8ByteSize = 9 := rfl
  have bytes : (Json.text "value").render.utf8ByteSize = 7 := rfl
  rw [toJson, params?, utf8ByteSize_taggedJson, method, tag, Json.utf8ByteSize_obj]
  simp only [List.map_cons, List.map_nil, List.sum_cons, List.sum_nil, Json.memberSize, name,
    clock, bytes, Json.utf8ByteSize_text_encode]
  omega

/-- **The size of the call that replicates a write.** -/
theorem utf8ByteSize_replicate (key : String) (versions : Siblings) :
    (replicate key versions).toJson.render.utf8ByteSize =
      (Json.text key).render.utf8ByteSize +
        max 2 (1 + (versions.map fun v => v.toJson.render.utf8ByteSize + 1).sum) + 46 := by
  have tag : (Json.text (Method.tag .replicate)).render.utf8ByteSize = 6 := rfl
  have name : (Json.text "key").render.utf8ByteSize = 5 := rfl
  have entries : (Json.text "entries").render.utf8ByteSize = 9 := rfl
  rw [toJson, params?, utf8ByteSize_taggedJson, method, tag, Json.utf8ByteSize_obj]
  simp only [List.map_cons, List.map_nil, List.sum_cons, List.sum_nil, Json.memberSize, name,
    entries, Siblings.toJson, Json.utf8ByteSize_array, List.map_map, Function.comp_def]
  omega

end Request

end QuorumStore
