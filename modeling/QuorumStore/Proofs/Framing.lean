/-
Messages cross a stream of bytes, however the stream is cut.

* `Utf8.mem_of_mem_bytes`: the bytes of a text hold an ASCII character only where
  the text does, so a newline byte is a newline;
* `Decoder.drain`, `Decoder.readAll`: all messages that have arrived, after each
  piece of a stream;
* `Frame.putAll`: messages and blank lines written one behind the other;
* `Frame.exists_drain_eq`: a part of a stream gives the messages on its complete
  lines and leaves the beginning of the next one;
* `Frame.readAll_of_putAll`: what is written on one side is read on the other.
-/
import Mathlib.Tactic.Lemma
import Mathlib.Tactic.SplitIfs
import QuorumStore.Frame
import QuorumStore.Proofs.Messages

namespace QuorumStore

/-! ### The bytes of a text -/

namespace Utf8

lemma bytes_eq_flatMap (s : String) : bytes s = s.toList.flatMap String.utf8EncodeChar := by
  rw [bytes, String.toUTF8_eq_toByteArray, ← String.utf8Encode_toList, List.utf8Encode,
    List.toList_data_toByteArray]

lemma length_bytes (s : String) : (bytes s).length = s.utf8ByteSize := by
  rw [← String.size_toByteArray]
  rfl

lemma bytes_append (s t : String) : bytes (s ++ t) = bytes s ++ bytes t := by
  simp [bytes_eq_flatMap]

/-- The byte of an ASCII character. -/
lemma utf8EncodeChar_of_ascii {c : Char} (hc : c.toNat < 128) :
    String.utf8EncodeChar c = [UInt8.ofNat c.toNat] := by
  have low : c.val.toNat ≤ 127 := Nat.le_of_lt_succ hc
  simp only [String.utf8EncodeChar, low, if_true]
  rfl

/-- The byte of an ASCII character is in no other character. -/
lemma eq_of_mem_utf8EncodeChar {c d : Char} (hd : d.toNat < 128)
    (h : UInt8.ofNat d.toNat ∈ String.utf8EncodeChar c) : c = d := by
  have code : c.val.toNat = c.toNat := rfl
  have small : (UInt8.ofNat d.toNat).toNat = d.toNat := by
    rw [UInt8.toNat_ofNat']
    omega
  by_cases hc : c.toNat < 128
  · rw [utf8EncodeChar_of_ascii hc, List.mem_singleton] at h
    have same := congrArg UInt8.toNat h
    rw [small, UInt8.toNat_ofNat', Nat.mod_eq_of_lt (by omega)] at same
    exact Char.toNat_inj.mp same.symm
  · -- Every byte of a longer character has its highest bit set.
    have high : ∀ n, 128 ≤ n → n < 256 → UInt8.ofNat d.toNat ≠ UInt8.ofNat n := by
      intro n low limit same
      have same := congrArg UInt8.toNat same
      rw [small, UInt8.toNat_ofNat'] at same
      omega
    exfalso
    simp only [String.utf8EncodeChar, code, show ¬ c.toNat ≤ 127 by omega, if_false] at h
    split_ifs at h
    all_goals simp only [List.mem_cons, List.not_mem_nil, or_false] at h
    · rcases h with h | h <;> exact high _ (by omega) (by omega) h
    · rcases h with h | h | h <;> exact high _ (by omega) (by omega) h
    · rcases h with h | h | h | h <;> exact high _ (by omega) (by omega) h

/-- The byte of an ASCII character is in a text only with that character. -/
lemma mem_of_mem_bytes {s : String} {c : Char} (hc : c.toNat < 128)
    (h : UInt8.ofNat c.toNat ∈ bytes s) : c ∈ s.toList := by
  rw [bytes_eq_flatMap] at h
  obtain ⟨d, hd, hb⟩ := List.mem_flatMap.mp h
  exact eq_of_mem_utf8EncodeChar hc hb ▸ hd

/-- The byte of an ASCII character ends a text only with that character. -/
lemma getLast?_of_getLast?_bytes {s : String} {c : Char} (hc : c.toNat < 128)
    (h : (bytes s).getLast? = some (UInt8.ofNat c.toNat)) : s.toList.getLast? = some c := by
  rw [bytes_eq_flatMap] at h
  obtain hs | ⟨l, d, hs⟩ := s.toList.eq_nil_or_concat
  · simp [hs] at h
  · rw [hs, List.concat_eq_append, List.flatMap_append, List.flatMap_singleton,
      List.getLast?_append] at h
    obtain ⟨b, hb⟩ := List.getLast?_isSome.mpr (String.utf8EncodeChar_ne_nil (c := d)) |>
      Option.isSome_iff_exists.mp
    rw [hb, Option.some_or] at h
    rw [hs, List.concat_eq_append, List.getLast?_append, List.getLast?_singleton, Option.some_or,
      eq_of_mem_utf8EncodeChar hc (List.mem_of_getLast? (hb.trans h))]

end Utf8

/-! ### One line -/

namespace Decoder

lemma takeWhile_append_of_notMem {line : Bytes} (hline : Frame.newline ∉ line) (rest : Bytes) :
    (line ++ rest).takeWhile (· ≠ Frame.newline) =
      line ++ rest.takeWhile (· ≠ Frame.newline) := by
  refine List.takeWhile_append_of_pos fun b hb => decide_eq_true ?_
  rintro rfl
  exact hline hb

lemma takeWhile_line {line : Bytes} (hline : Frame.newline ∉ line) (rest : Bytes) :
    (line ++ Frame.newline :: rest).takeWhile (· ≠ Frame.newline) = line := by
  rw [takeWhile_append_of_notMem hline]
  simp

lemma takeWhile_of_notMem {bs : Bytes} (hbs : Frame.newline ∉ bs) :
    bs.takeWhile (· ≠ Frame.newline) = bs := by
  simpa using takeWhile_append_of_notMem hbs []

/-- What the front of a stream holds where its first line is complete. -/
lemma frontLine_line {line : Bytes} (hline : Frame.newline ∉ line) (rest : Bytes) :
    frontLine (line ++ Frame.newline :: rest) =
      if line.length ≤ Frame.maxLength then .found line rest else .overlong := by
  simp only [frontLine, takeWhile_line hline, List.drop_left]

/-- What the front of a stream holds where its first line has no end yet. -/
lemma frontLine_of_notMem {bs : Bytes} (hbs : Frame.newline ∉ bs) :
    frontLine bs = if bs.length ≤ Frame.maxLength then .unfinished else .overlong := by
  simp only [frontLine, takeWhile_of_notMem hbs, List.drop_length]

/-- A text that does not end in a carriage return is the text of its line. -/
lemma lineText_bytes {s : String} (hs : s.toList.getLast? ≠ some '\r') :
    lineText (Utf8.bytes s) = .ok s := by
  have trim : Frame.trimReturn (Utf8.bytes s) = Utf8.bytes s := by
    rw [Frame.trimReturn, if_neg]
    exact fun h => hs (Utf8.getLast?_of_getLast?_bytes (c := '\r') (by decide) h)
  rw [lineText, trim, Utf8.text?_eq_some_iff.mpr rfl]

/-- The line of a blank text is blank, also where it ends in a carriage return. -/
lemma exists_lineText_of_isBlankText {s : String} (hs : isBlankText s = true) :
    ∃ t, lineText (Utf8.bytes s) = .ok t ∧ isBlankText t = true := by
  by_cases last : s.toList.getLast? = some '\r'
  · obtain ⟨l, hl⟩ := List.getLast?_eq_some_iff.mp last
    have front : s = String.ofList l ++ "\r" := by simp [String.ext_iff, hl]
    refine ⟨String.ofList l, ?_, ?_⟩
    · have bytes : Utf8.bytes s = Utf8.bytes (String.ofList l) ++ [Frame.carriageReturn] := by
        rw [front, Utf8.bytes_append]
        rfl
      have trim : Frame.trimReturn (Utf8.bytes s) = Utf8.bytes (String.ofList l) := by
        simp [Frame.trimReturn, bytes]
      rw [lineText, trim, Utf8.text?_eq_some_iff.mpr rfl]
    · rw [isBlankText, hl, List.all_append, Bool.and_eq_true] at hs
      simpa [isBlankText] using hs.1
  · exact ⟨s, lineText_bytes last, hs⟩

/-- A complete line is taken off the front. -/
lemma nextLine_of_line {line : Bytes} (hline : Frame.newline ∉ line)
    (hlength : line.length ≤ Frame.maxLength) (rest : Bytes) :
    nextLine ⟨line ++ Frame.newline :: rest, false⟩ = (some (lineText line), ⟨rest, false⟩) := by
  simp [nextLine, discard, frontLine_line hline, hlength]

/-- A line that has no end yet stays. -/
lemma nextLine_of_unfinished {bs : Bytes} (hbs : Frame.newline ∉ bs)
    (hlength : bs.length ≤ Frame.maxLength) : nextLine ⟨bs, false⟩ = (none, ⟨bs, false⟩) := by
  simp [nextLine, discard, frontLine_of_notMem hbs, hlength]

/-- A line that is too long is reported when too much of it has arrived, and
thrown away from then on. -/
lemma nextLine_of_overlong {bs : Bytes} (h : frontLine bs = .overlong) :
    nextLine ⟨bs, false⟩ = (some (.error (.tooLong Frame.maxLength)), ⟨bs, true⟩) := by
  simp [nextLine, discard, h]

/-! ### All lines -/

/-- How much a decoder has to do at most. -/
def pending (d : Decoder) : Nat :=
  2 * d.buffer.length + if d.discarding then 0 else 1

/-- Where a line was being thrown away, its newline is gone at least. -/
lemma length_discard_lt_pending {d : Decoder} (h : d.discard.discarding = false) :
    2 * d.discard.buffer.length < d.pending := by
  cases hd : d.discarding with
  | false => simp [discard, pending, hd]
  | true =>
    have left := (List.dropWhile_sublist (l := d.buffer) (· ≠ Frame.newline)).length_le
    simp only [discard, hd, if_true] at h ⊢
    cases heq : d.buffer.dropWhile (· ≠ Frame.newline) with
    | nil =>
      rw [heq] at h
      cases h
    | cons b rest =>
      rw [heq, List.length_cons] at left
      simp only [pending, hd, if_true]
      omega

/-- A line that is taken off leaves less to do.  One that is too long stays, but
from then on it is being thrown away. -/
lemma pending_of_nextLine {d d' : Decoder} {r : Except FrameError String}
    (h : d.nextLine = (some r, d')) : d'.pending < d.pending := by
  simp only [nextLine] at h
  split at h
  · cases h
  · rename_i going
    have bound := length_discard_lt_pending (Bool.eq_false_iff.mpr going)
    split at h
    · rename_i line rest heq
      obtain ⟨-, rfl⟩ := Prod.mk.inj h
      have found := length_of_frontLine_found heq
      simp only [pending, Bool.false_eq_true, if_false] at bound ⊢
      omega
    · obtain ⟨-, rfl⟩ := Prod.mk.inj h
      simpa [pending] using bound
    · cases h

section

variable {α : Type} (read : String → Option α)

lemma pending_of_next {d d' : Decoder} {r : Except FrameError α}
    (h : d.next read = (some r, d')) : d'.pending < d.pending := by
  fun_induction next read d with
  | case1 d s d₁ heq blank ih => exact Nat.lt_trans (ih h) (pending_of_nextLine heq)
  | case2 d s d₁ heq blank =>
    obtain ⟨-, rfl⟩ := Prod.mk.inj h
    exact pending_of_nextLine heq
  | case3 d e d₁ heq =>
    obtain ⟨-, rfl⟩ := Prod.mk.inj h
    exact pending_of_nextLine heq
  | case4 d d₁ heq => cases h

/-- Asks for messages until there is none. -/
def drain (d : Decoder) : List (Except FrameError α) × Decoder :=
  match _h : d.next read with
  | (none, d') => ([], d')
  | (some r, d') =>
    let (more, d'') := drain d'
    (r :: more, d'')
termination_by d.pending
decreasing_by exact pending_of_next read _h

/-- Takes in one piece after the other, and asks for messages after each. -/
def readAll (d : Decoder) : List Bytes → List (Except FrameError α) × Decoder
  | [] => ([], d)
  | piece :: rest =>
    let (rs, d') := (d.feed piece).drain read
    let (more, d'') := readAll d' rest
    (rs ++ more, d'')

lemma drain_of_none {d d' : Decoder} (h : d.next read = (none, d')) :
    d.drain read = ([], d') := by
  rw [drain]
  split <;> simp_all

lemma drain_of_some {d d' : Decoder} {r : Except FrameError α}
    (h : d.next read = (some r, d')) :
    d.drain read = (r :: (d'.drain read).1, (d'.drain read).2) := by
  rw [drain]
  split <;> simp_all

/-- Decoders that give the same message give the same messages. -/
lemma drain_congr {d d' : Decoder} (h : d.next read = d'.next read) :
    d.drain read = d'.drain read := by
  cases hn : d'.next read with
  | mk first left =>
    rw [hn] at h
    cases first with
    | none => rw [drain_of_none read h, drain_of_none read hn]
    | some r => rw [drain_of_some read h, drain_of_some read hn]

/-- A blank line is passed over. -/
lemma next_of_blank {d d' : Decoder} {s : String} (h : d.nextLine = (some (.ok s), d'))
    (hs : isBlankText s = true) : d.next read = d'.next read := by
  rw [next]
  split <;> simp_all

lemma next_of_text {d d' : Decoder} {s : String} (h : d.nextLine = (some (.ok s), d'))
    (hs : isBlankText s = false) : d.next read = (some (readLine read s), d') := by
  rw [next]
  split <;> simp_all

lemma next_of_error {d d' : Decoder} {e : FrameError} (h : d.nextLine = (some (.error e), d')) :
    d.next read = (some (.error e), d') := by
  rw [next]
  split <;> simp_all

lemma next_of_none {d d' : Decoder} (h : d.nextLine = (none, d')) :
    d.next read = (none, d') := by
  rw [next]
  split <;> simp_all

end

end Decoder

/-! ### Streams of messages -/

namespace Frame

/-- The messages that cross a stream, one kind in each direction. -/
inductive Kind : Type → Type where
  | request : Kind Request
  | reply : Kind Reply

/-- What is written on a line of a stream. -/
inductive Item (α : Type) where
  /-- A message, with what it is written as. -/
  | message (a : α) (json : Json)
  /-- A text that carries nothing. -/
  | blank (s : String)

/-- Whether a text makes a blank line of a stream. -/
structure IsBlankLine (s : String) : Prop where
  /-- Nothing but white space is in it. -/
  blank : isBlankText s = true
  /-- It ends where the line ends. -/
  newline : '\n' ∉ s.toList
  /-- It is no longer than a message may be. -/
  length : s.utf8ByteSize ≤ maxLength

variable {α : Type}

/-- Whether a value is what a message is written as. -/
def Kind.IsJson : Kind α → α → Json → Prop
  | .request, r, v => r.IsJson v
  | .reply, r, v => v = Reply.toJson r

/-- How a message is read. -/
def Kind.parse? : Kind α → String → Option α
  | .request => Request.parse?
  | .reply => Reply.parse?

/-- Whether a line holds what it is meant to hold. -/
def Item.IsProper (k : Kind α) : Item α → Prop
  | .message a v => k.IsJson a v
  | .blank s => IsBlankLine s

/-- Writes a line behind what a buffer holds. -/
def Item.put (buffer : Bytes) : Item α → Except FrameError Unit × Bytes
  | .message _ v => Frame.put buffer v
  | .blank s => (.ok (), buffer ++ Utf8.bytes (s.push '\n'))

/-- Writes lines one behind the other, up to the first that is refused. -/
def putAll (buffer : Bytes) : List (Item α) → Except FrameError Unit × Bytes
  | [] => (.ok (), buffer)
  | item :: rest =>
    match item.put buffer with
    | (.ok (), buffer) => putAll buffer rest
    | (.error e, buffer) => (.error e, buffer)

/-- The message of a line, if it has one. -/
def Item.message? : Item α → Option α
  | .message a _ => some a
  | .blank _ => none

/-- The messages among some lines, in order. -/
def messages (items : List (Item α)) : List α :=
  items.filterMap Item.message?

/-- The text of a line. -/
def Item.text : Item α → String
  | .message _ v => v.render
  | .blank s => s

/-- The bytes of lines. -/
def lines (items : List (Item α)) : Bytes :=
  items.flatMap fun item => Utf8.bytes item.text ++ [newline]

lemma Kind.plain_of_isJson {k : Kind α} {a : α} {v : Json} (h : k.IsJson a v) : v.Plain := by
  cases k with
  | request => exact Request.plain_of_isJson h
  | reply =>
    obtain rfl := h
    exact Reply.plain_toJson a

lemma Kind.parse?_render {k : Kind α} {a : α} {v : Json} (h : k.IsJson a v) :
    k.parse? v.render = some a := by
  cases k with
  | request => exact Request.parse?_render h
  | reply =>
    obtain rfl := h
    exact Reply.parse?_render a

lemma bytes_push_newline (s : String) :
    Utf8.bytes (s.push '\n') = Utf8.bytes s ++ [newline] := by
  rw [← String.append_singleton, Utf8.bytes_append]
  rfl

/-- What is put into a buffer, and when nothing is. -/
lemma put_eq (buffer : Bytes) (message : Json) :
    put buffer message =
      if maxLength < message.render.utf8ByteSize then (.error (.tooLong maxLength), buffer)
      else (.ok (), buffer ++ (Utf8.bytes message.render ++ [newline])) := by
  by_cases long : maxLength < message.render.utf8ByteSize
  · simp only [put, encode, long, if_true]
  · simp only [put, encode, long, if_false, bytes_push_newline]

/-- No control character stands in the text of a plain value. -/
lemma notMem_render {v : Json} (hv : v.Plain) {c : Char} (hc : c.toNat < 32) :
    c ∉ v.render.toList := by
  rw [Json.toList_render]
  intro hm
  have visible := Json.printable_spell hv c hm
  omega

/-- The text of a plain value stands on one line. -/
lemma newline_notMem_bytes_render {v : Json} (hv : v.Plain) :
    newline ∉ Utf8.bytes v.render := fun h =>
  notMem_render hv (c := '\n') (by decide) (Utf8.mem_of_mem_bytes (by decide) h)

lemma lineText_render {v : Json} (hv : v.Plain) :
    Decoder.lineText (Utf8.bytes v.render) = .ok v.render :=
  Decoder.lineText_bytes fun h =>
    notMem_render hv (c := '\r') (by decide) (List.mem_of_getLast? h)

lemma isBlankText_render {v : Json} (hv : v.Plain) : isBlankText v.render = false := by
  obtain ⟨c, cs, hc, blank, -⟩ := hv.exists_spell_eq_cons
  simp [isBlankText, Json.toList_render, hc, blank]

/-- What makes lines the lines of a stream: none is broken or too long. -/
structure Lines (k : Kind α) (items : List (Item α)) : Prop where
  /-- Every line holds what it is meant to hold. -/
  proper : ∀ item ∈ items, item.IsProper k
  /-- No line is too long. -/
  length : ∀ item ∈ items, (Utf8.bytes item.text).length ≤ maxLength

lemma Lines.mono {k : Kind α} {items items' : List (Item α)} (h : Lines k items)
    (hsub : items' ⊆ items) : Lines k items' :=
  ⟨fun item hi => h.proper item (hsub hi), fun item hi => h.length item (hsub hi)⟩

/-- A proper line holds no newline. -/
lemma Item.IsProper.newline_notMem {k : Kind α} {item : Item α} (h : item.IsProper k) :
    newline ∉ Utf8.bytes item.text := by
  cases item with
  | message a v => exact newline_notMem_bytes_render (Kind.plain_of_isJson h)
  | blank s => exact fun hm => h.newline (Utf8.mem_of_mem_bytes (c := '\n') (by decide) hm)

/-- What lines that are all accepted leave in a buffer. -/
lemma putAll_eq_ok {items : List (Item α)} {buffer stream : Bytes}
    (h : putAll buffer items = (.ok (), stream)) :
    stream = buffer ++ lines items ∧
      ∀ a v, .message a v ∈ items → v.render.utf8ByteSize ≤ maxLength := by
  induction items generalizing buffer with
  | nil =>
    obtain ⟨-, rfl⟩ := Prod.mk.inj h
    simp [lines]
  | cons item rest ih =>
    cases item with
    | blank s =>
      obtain ⟨hstream, hrest⟩ := ih h
      refine ⟨?_, fun a v ha => hrest a v (by simpa using ha)⟩
      simp [hstream, bytes_push_newline, lines, Item.text]
    | message b w =>
      simp only [putAll, Item.put, put_eq] at h
      split_ifs at h with long
      · cases h
      · obtain ⟨hstream, hrest⟩ := ih h
        refine ⟨by simp [hstream, lines, Item.text], fun a v ha => ?_⟩
        rcases List.mem_cons.mp ha with ha | ha
        · cases ha
          exact Nat.le_of_not_lt long
        · exact hrest a v ha

/-- Lines that are all accepted are the lines of a stream. -/
lemma lines_of_putAll {k : Kind α} {items : List (Item α)} {stream : Bytes}
    (h : putAll [] items = (.ok (), stream)) (hproper : ∀ item ∈ items, item.IsProper k) :
    Lines k items := by
  obtain ⟨-, short⟩ := putAll_eq_ok h
  refine ⟨hproper, fun item hi => ?_⟩
  rw [Utf8.length_bytes]
  cases item with
  | message a v => exact short a v hi
  | blank s => exact (hproper _ hi).length

/-- The line of a message is read as that message. -/
lemma next_of_message {k : Kind α} {a : α} {v : Json} (h : k.IsJson a v)
    (hlength : v.render.utf8ByteSize ≤ maxLength) (rest : Bytes) :
    Decoder.next k.parse? ⟨Utf8.bytes v.render ++ newline :: rest, false⟩ =
      (some (.ok a), ⟨rest, false⟩) := by
  have plain : v.Plain := Kind.plain_of_isJson h
  have line := Decoder.nextLine_of_line (newline_notMem_bytes_render plain)
    (by rw [Utf8.length_bytes]; exact hlength) rest
  rw [lineText_render plain] at line
  have next := Decoder.next_of_text k.parse? line (isBlankText_render plain)
  rwa [Decoder.readLine, Kind.parse?_render h] at next

/-- A line is read as its message; a blank one is passed over. -/
lemma drain_line {k : Kind α} {item : Item α} (hitem : item.IsProper k)
    (hlength : (Utf8.bytes item.text).length ≤ maxLength) (rest : Bytes) :
    Decoder.drain k.parse? ⟨Utf8.bytes item.text ++ newline :: rest, false⟩ =
      (item.message?.toList.map .ok ++ (Decoder.drain k.parse? ⟨rest, false⟩).1,
        (Decoder.drain k.parse? ⟨rest, false⟩).2) := by
  cases item with
  | blank s =>
    have line := Decoder.nextLine_of_line hitem.newline_notMem hlength rest
    obtain ⟨t, ht, blank⟩ := Decoder.exists_lineText_of_isBlankText hitem.blank
    rw [Item.text, ht] at line
    exact Decoder.drain_congr _ (Decoder.next_of_blank _ line blank)
  | message a v =>
    rw [Item.text, Utf8.length_bytes] at hlength
    exact Decoder.drain_of_some _ (next_of_message hitem hlength rest)

/-- **A part of a stream gives the messages on its complete lines**, and what is
left begins the next line. -/
lemma exists_drain_eq {k : Kind α} {items : List (Item α)} (hl : Lines k items) {bs rest : Bytes}
    (h : lines items = bs ++ rest) :
    ∃ read unread left, items = read ++ unread ∧ lines unread = left ++ rest ∧
      newline ∉ left ∧
      Decoder.drain k.parse? ⟨bs, false⟩ = ((messages read).map .ok, ⟨left, false⟩) := by
  induction items generalizing bs with
  | nil =>
    obtain ⟨rfl, rfl⟩ := List.append_eq_nil_iff.mp h.symm
    refine ⟨[], [], [], rfl, rfl, by simp, ?_⟩
    exact Decoder.drain_of_none _ (Decoder.next_of_none _
      (Decoder.nextLine_of_unfinished (by simp) (by simp)))
  | cons item items ih =>
    have proper := hl.proper item List.mem_cons_self
    have short := hl.length item List.mem_cons_self
    -- The first line is complete, and `more` is what has arrived behind it.
    have complete : ∀ more, bs = Utf8.bytes item.text ++ newline :: more →
        lines items = more ++ rest → ∃ read unread left, item :: items = read ++ unread ∧
          lines unread = left ++ rest ∧ newline ∉ left ∧
          Decoder.drain k.parse? ⟨bs, false⟩ = ((messages read).map .ok, ⟨left, false⟩) := by
      rintro more rfl hmore
      obtain ⟨read, unread, left, hitems, hleft, hnew, hdrain⟩ :=
        ih (hl.mono (List.subset_cons_self item items)) hmore
      refine ⟨item :: read, unread, left, by rw [hitems, List.cons_append], hleft, hnew, ?_⟩
      rw [drain_line proper short more, hdrain]
      cases item <;> rfl
    have split : Utf8.bytes item.text ++ [newline] ++ lines items = bs ++ rest := h
    rcases List.append_eq_append_iff.mp split with ⟨more, hbs, hmore⟩ | ⟨missing, hline, hrest⟩
    · exact complete more (by simpa using hbs) hmore
    · obtain rfl | ⟨lacks, b, rfl⟩ := missing.eq_nil_or_concat
      · exact complete [] (by simpa using hline.symm) (by simpa using hrest.symm)
      · rw [List.concat_eq_append, ← List.append_assoc] at hline
        have front := (List.append_inj' hline rfl).1
        have new : newline ∉ bs := fun hm =>
          proper.newline_notMem (front ▸ List.mem_append_left lacks hm)
        have length : bs.length ≤ maxLength := by
          rw [front, List.length_append] at short
          omega
        refine ⟨[], item :: items, bs, rfl, h, new, ?_⟩
        exact Decoder.drain_of_none _ (Decoder.next_of_none _
          (Decoder.nextLine_of_unfinished new length))

lemma messages_append (xs ys : List (Item α)) :
    messages (xs ++ ys) = messages xs ++ messages ys :=
  List.filterMap_append

/-- Pieces that complete a stream give all of its messages. -/
lemma readAll_of_lines {k : Kind α} {items : List (Item α)} (hl : Lines k items) {left : Bytes}
    (hleft : newline ∉ left) {pieces : List Bytes} (h : lines items = left ++ pieces.flatten) :
    Decoder.readAll k.parse? ⟨left, false⟩ pieces = ((messages items).map .ok, .empty) := by
  induction pieces generalizing items left with
  | nil =>
    cases items with
    | nil =>
      obtain ⟨rfl, -⟩ := List.append_eq_nil_iff.mp h.symm
      rfl
    | cons item items =>
      refine absurd ?_ hleft
      rw [List.flatten_nil, List.append_nil] at h
      simp [← h, lines]
  | cons piece pieces ih =>
    rw [List.flatten_cons, ← List.append_assoc] at h
    obtain ⟨read, unread, left', rfl, hunread, hnew, hdrain⟩ := exists_drain_eq hl h
    have more := ih (hl.mono (List.subset_append_right read unread)) hnew hunread
    simp only [Decoder.readAll, Decoder.feed, hdrain, more, messages_append, List.map_append]

/-- **Messages cross a stream however it is cut.**  A message is refused just
when its text is longer than a line may be, and then the buffer stays as it is;
otherwise it takes one line.  Whatever lines are accepted, and in whatever
pieces they arrive, the other side reads the messages in their order, without
any error and with nothing left. -/
theorem readAll_of_putAll (k : Kind α) :
    (∀ buffer a v, k.IsJson a v →
      if maxLength < v.render.utf8ByteSize then
        put buffer v = (.error (.tooLong maxLength), buffer)
      else
        put buffer v = (.ok (), buffer ++ (Utf8.bytes v.render ++ [newline])) ∧
          newline ∉ Utf8.bytes v.render) ∧
    ∀ items stream pieces, putAll [] items = (.ok (), stream) →
      (∀ item ∈ items, item.IsProper k) → pieces.flatten = stream →
      Decoder.empty.readAll k.parse? pieces = ((messages items).map .ok, .empty) := by
  constructor
  · intro buffer a v hv
    rw [put_eq]
    split_ifs
    · rfl
    · exact ⟨rfl, newline_notMem_bytes_render (Kind.plain_of_isJson hv)⟩
  · intro items stream pieces hstream hproper hpieces
    have written : stream = lines items := (putAll_eq_ok hstream).1
    exact readAll_of_lines (lines_of_putAll hstream hproper) (by simp)
      (by rw [← written, hpieces, List.nil_append])

/-- Two requests with a blank line between them; the stream is cut inside the
white space. -/
theorem readAll_of_putAll_pair :
    Decoder.empty.readAll Request.parse?
      [Utf8.bytes "\x7b\"method\":\"SGet\",\"params\":\x7b\"key\":\"k\"\x7d\x7d\n" ++ [0xE3],
        [0x80, 0x80, 13, 10] ++ Utf8.bytes "\x7b\"method\":\"Gossip\"\x7d\n"] =
      ([.ok (.fetch "k"), .ok .gossip], .empty) := by
  refine (readAll_of_putAll .request).2
    [.message (.fetch "k") (Request.fetch "k").toJson, .blank "\u3000\r",
      .message .gossip Request.gossip.toJson] _ _ rfl (fun item hi => ?_) rfl
  simp only [List.mem_cons, List.not_mem_nil, or_false] at hi
  rcases hi with rfl | rfl | rfl
  · exact (Request.fetch "k").isJson_toJson
  · exact ⟨by decide, by decide, by decide⟩
  · exact Request.gossip.isJson_toJson

end Frame

end QuorumStore
