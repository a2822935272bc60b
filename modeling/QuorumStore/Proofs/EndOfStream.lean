/-
What a decoder gives when its stream has ended.

* `Decoder.unread`: the lines among the bytes that have not been read;
* `Decoder.report`: what comes of a line, which is nothing if it is blank
  (`Decoder.report_eq_none_iff`);
* `Decoder.nextLine_cases`: a decoder gives its first line, or waits for the end
  of one;
* `Decoder.drain_append_drainLast`: who asks for what has arrived, and then for
  what is left, hears of every line;
* `Decoder.fst_drainLast`: who asks for what is left only, hears of the lines
  before the first blank one;
* `Decoder.drainLast_eq_iff`: so both hear the same if and only if all lines
  behind the first blank one are blank (`Decoder.drainLast_of_blankLine` has one
  that is not).

`Decoder.next` passes over blank lines and goes on to the next line.
`Decoder.last` takes a blank line off and answers that there is nothing.
-/
import QuorumStore.Proofs.Framing

namespace QuorumStore

namespace Utf8

/-- A carriage return behind some bytes is one behind their text. -/
lemma text?_append_return (bs : Bytes) :
    text? (bs ++ [Frame.carriageReturn]) = (text? bs).map (·.push '\r') := by
  have bytes_push : ∀ s : String, bytes (s.push '\r') = bytes s ++ [Frame.carriageReturn] := by
    intro s
    rw [← String.append_singleton, bytes_append]
    rfl
  refine Option.ext fun s => ?_
  rw [text?_eq_some_iff, Option.map_eq_some_iff]
  constructor
  · intro h
    have last : s.toList.getLast? = some '\r' :=
      getLast?_of_getLast?_bytes (c := '\r') (by decide) (by rw [← h]; simp [Frame.carriageReturn])
    obtain ⟨front, hfront⟩ := List.getLast?_eq_some_iff.mp last
    have hs : (String.ofList front).push '\r' = s := by simp [String.ext_iff, hfront]
    rw [← hs, bytes_push] at h
    exact ⟨String.ofList front, text?_eq_some_iff.mpr (List.append_cancel_right h), hs⟩
  · rintro ⟨t, ht, rfl⟩
    rw [bytes_push, text?_eq_some_iff.mp ht]

end Utf8

namespace Decoder

/-! ### Lines that have not been read -/

/-- The lines among the bytes that have not been read.  The bytes behind the last
newline are a line too; the rest of a line that is being thrown away is none. -/
def unread (d : Decoder) : List Bytes :=
  let lines := d.buffer.splitOn Frame.newline
  if d.discarding then lines.tail else lines

/-- Whether a line holds nothing but white space, and is not too long. -/
def isBlankLine (line : Bytes) : Bool :=
  line.length ≤ Frame.maxLength && (Utf8.text? line).any isBlankText

/-- The text of a line, which may be too long. -/
def text (line : Bytes) : Except FrameError String :=
  if Frame.maxLength < line.length then .error (.tooLong Frame.maxLength) else lineText line

lemma unread_line {line : Bytes} (hline : Frame.newline ∉ line) (rest : Bytes) :
    unread ⟨line ++ Frame.newline :: rest, false⟩ = line :: unread ⟨rest, false⟩ := by
  simp only [unread, Bool.false_eq_true, if_false]
  rw [List.splitOn_append_cons_self, List.splitOn_eq_singleton hline, List.singleton_append]

lemma unread_of_notMem {bs : Bytes} (hbs : Frame.newline ∉ bs) : unread ⟨bs, false⟩ = [bs] := by
  simp only [unread, Bool.false_eq_true, if_false]
  exact List.splitOn_eq_singleton hbs

lemma dropWhile_append_of_notMem {line : Bytes} (hline : Frame.newline ∉ line) (rest : Bytes) :
    (line ++ rest).dropWhile (· ≠ Frame.newline) = rest.dropWhile (· ≠ Frame.newline) :=
  List.dropWhile_append_of_pos fun _ hb => decide_eq_true fun h => hline (h ▸ hb)

/-- A line is thrown away with its newline. -/
lemma discard_line {line : Bytes} (hline : Frame.newline ∉ line) (rest : Bytes) :
    discard ⟨line ++ Frame.newline :: rest, true⟩ = ⟨rest, false⟩ := by
  have left : (line ++ Frame.newline :: rest).dropWhile (· ≠ Frame.newline) =
      Frame.newline :: rest := by
    rw [dropWhile_append_of_notMem hline]
    simp
  simp only [discard, if_true, left]

/-- A line that has no end yet is thrown away from its beginning on. -/
lemma discard_of_notMem {bs : Bytes} (hbs : Frame.newline ∉ bs) :
    discard ⟨bs, true⟩ = ⟨[], true⟩ := by
  have left : bs.dropWhile (· ≠ Frame.newline) = [] := by
    simpa using dropWhile_append_of_notMem hbs []
  simp only [discard, if_true, left]

lemma nextLine_of_discard {d : Decoder} {bs : Bytes} (h : d.discard = ⟨bs, false⟩) :
    d.nextLine = nextLine ⟨bs, false⟩ := by
  have kept : discard ⟨bs, false⟩ = ⟨bs, false⟩ := rfl
  simp only [nextLine, h, kept]

/-- A decoder is as good as one that throws nothing away, or has thrown away all
that has arrived. -/
lemma discard_cases (d : Decoder) :
    (∃ bs, unread ⟨bs, false⟩ = d.unread ∧ d.nextLine = nextLine ⟨bs, false⟩) ∨
      d.unread = [] ∧ d.nextLine = (none, ⟨[], true⟩) := by
  obtain ⟨bs, discarding⟩ := d
  cases discarding with
  | false => exact .inl ⟨bs, rfl, rfl⟩
  | true =>
    by_cases hbs : Frame.newline ∈ bs
    · obtain ⟨line, rest, rfl, hline⟩ := List.eq_append_cons_of_mem hbs
      exact .inl ⟨rest, (congrArg List.tail (unread_line hline rest)).symm,
        nextLine_of_discard (discard_line hline rest)⟩
    · refine .inr ⟨congrArg List.tail (unread_of_notMem hbs), ?_⟩
      simp only [nextLine, discard_of_notMem hbs, if_true]

/-! ### The first line -/

/-- A decoder that has not got the end of a line yet. -/
inductive Waiting : Decoder → Prop where
  /-- It keeps the beginning of a line. -/
  | keeping (bs : Bytes) (unended : Frame.newline ∉ bs) (fits : bs.length ≤ Frame.maxLength) :
      Waiting ⟨bs, false⟩
  /-- It throws a line away. -/
  | discarding : Waiting ⟨[], true⟩

lemma Waiting.nextLine_eq {d : Decoder} (h : d.Waiting) : d.nextLine = (none, d) := by
  cases h with
  | keeping bs unended fits => exact nextLine_of_unfinished unended fits
  | discarding => rfl

lemma text_of_fits {line : Bytes} (h : line.length ≤ Frame.maxLength) :
    text line = lineText line :=
  if_neg (Nat.not_lt.mpr h)

lemma text_of_long {line : Bytes} (h : ¬ line.length ≤ Frame.maxLength) :
    text line = .error (.tooLong Frame.maxLength) :=
  if_pos (Nat.lt_of_not_le h)

/-- A line that is too long is gone once it is being thrown away. -/
lemma unread_of_overlong {bs line : Bytes} {rest : List Bytes}
    (h : unread ⟨bs, false⟩ = line :: rest) : unread ⟨bs, false⟩ = line :: unread ⟨bs, true⟩ := by
  rw [h]
  exact congrArg (line :: ·) (congrArg List.tail h).symm

/-- **A decoder gives its first line, or waits for the end of one.** -/
theorem nextLine_cases (d : Decoder) :
    (∃ line d', d.unread = line :: d'.unread ∧ d.nextLine = (some (text line), d')) ∨
      ∃ d', d'.Waiting ∧ d'.unread = d.unread ∧ d.nextLine = (none, d') := by
  rcases discard_cases d with ⟨bs, hunread, hnext⟩ | ⟨hunread, hnext⟩
  · rw [← hunread, hnext]
    by_cases hbs : Frame.newline ∈ bs
    · obtain ⟨line, rest, rfl, hline⟩ := List.eq_append_cons_of_mem hbs
      have lines := unread_line hline rest
      by_cases fits : line.length ≤ Frame.maxLength
      · exact .inl ⟨line, ⟨rest, false⟩, lines,
          by rw [nextLine_of_line hline fits, text_of_fits fits]⟩
      · have long : frontLine (line ++ Frame.newline :: rest) = .overlong := by
          rw [frontLine_line hline, if_neg fits]
        exact .inl ⟨line, _, unread_of_overlong lines,
          by rw [nextLine_of_overlong long, text_of_long fits]⟩
    · have lines := unread_of_notMem hbs
      by_cases fits : bs.length ≤ Frame.maxLength
      · exact .inr ⟨⟨bs, false⟩, .keeping bs hbs fits, rfl, nextLine_of_unfinished hbs fits⟩
      · have long : frontLine bs = .overlong := by rw [frontLine_of_notMem hbs, if_neg fits]
        exact .inl ⟨bs, _, unread_of_overlong lines,
          by rw [nextLine_of_overlong long, text_of_long fits]⟩
  · exact .inr ⟨⟨[], true⟩, .discarding, hunread.symm, hnext⟩

/-! ### What comes of a line -/

/-- The line of bytes with a carriage return at their end is blank just when the
line without it is. -/
lemma any_isBlankText_trimReturn (line : Bytes) :
    (Utf8.text? (Frame.trimReturn line)).any isBlankText = (Utf8.text? line).any isBlankText := by
  by_cases last : line.getLast? = some Frame.carriageReturn
  · obtain ⟨front, rfl⟩ := List.getLast?_eq_some_iff.mp last
    have trim : Frame.trimReturn (front ++ [Frame.carriageReturn]) = front := by
      simp [Frame.trimReturn]
    have blank : ∀ s : String, isBlankText (s.push '\r') = isBlankText s := by
      intro s
      have white : isBlank '\r' = true := by decide
      simp [isBlankText, white]
    rw [trim, Utf8.text?_append_return]
    cases Utf8.text? front with
    | none => rfl
    | some s => exact (blank s).symm
  · rw [Frame.trimReturn, if_neg last]

section

variable {α : Type} (read : String → Option α)

/-- What comes of the text of a line: nothing, if it is blank. -/
def reading : Except FrameError String → Option (Except FrameError α)
  | .error e => some (.error e)
  | .ok s => if isBlankText s then none else some (readLine read s)

/-- What comes of a line. -/
def report (line : Bytes) : Option (Except FrameError α) :=
  reading read (text line)

/-- Nothing comes of a blank line, and of no other. -/
lemma report_eq_none_iff {line : Bytes} : report read line = none ↔ isBlankLine line = true := by
  by_cases fits : line.length ≤ Frame.maxLength
  · rw [report, text_of_fits fits, isBlankLine, ← any_isBlankText_trimReturn, lineText]
    cases Utf8.text? (Frame.trimReturn line) <;> simp [reading, fits]
  · simp [report, text_of_long fits, reading, isBlankLine, fits]

lemma filterMap_report_eq_nil_iff {lines : List Bytes} :
    lines.filterMap (report read) = [] ↔ ∀ line ∈ lines, isBlankLine line = true := by
  rw [List.filterMap_eq_nil_iff]
  exact forall₂_congr fun line _ => report_eq_none_iff read

lemma filterMap_report_cons (line : Bytes) (lines : List Bytes) :
    (line :: lines).filterMap (report read) =
      (report read line).toList ++ lines.filterMap (report read) := by
  rw [List.filterMap_cons]
  cases report read line <;> rfl

/-- What comes of the line of a message is the message. -/
lemma report_render {k : Frame.Kind α} {a : α} {v : Json} (h : k.IsJson a v)
    (hfits : v.render.utf8ByteSize ≤ Frame.maxLength) :
    report k.parse? (Utf8.bytes v.render) = some (.ok a) := by
  have plain : v.Plain := Frame.Kind.plain_of_isJson h
  rw [report, text_of_fits (by rwa [Utf8.length_bytes]), Frame.lineText_render plain, reading,
    Frame.isBlankText_render plain, if_neg Bool.false_ne_true, readLine, Frame.Kind.parse?_render h]

variable {d d' : Decoder} {r : Except FrameError String}

/-- A line of which nothing comes is passed over. -/
lemma next_of_nextLine (h : d.nextLine = (some r, d')) :
    d.next read =
      match reading read r with
      | none => d'.next read
      | some m => (some m, d') := by
  cases r with
  | error e => exact next_of_error read h
  | ok s =>
    cases blank : isBlankText s with
    | true => simpa [reading, blank] using next_of_blank read h blank
    | false => simpa [reading, blank] using next_of_text read h blank

lemma drain_of_nextLine (h : d.nextLine = (some r, d')) :
    d.drain read = ((reading read r).toList ++ (d'.drain read).1, (d'.drain read).2) := by
  have next := next_of_nextLine read h
  cases hreading : reading read r with
  | none =>
    rw [hreading] at next
    exact drain_congr read next
  | some m =>
    rw [hreading] at next
    exact drain_of_some read next

lemma last_of_lastLine (h : d.lastLine = (some r, d')) : d.last read = (reading read r, d') := by
  cases r with
  | error e => simp only [last, h, reading]
  | ok s =>
    simp only [last, h, reading]
    split_ifs <;> rfl

/-! ### What comes of what is left -/

lemma lastLine_of_nextLine (h : d.nextLine = (some r, d')) : d.lastLine = (some r, d') := by
  simp only [lastLine, h]

/-- Where no line is complete, the end of the stream makes one of what waits. -/
lemma last_of_nextLine_eq_none (h : d.nextLine = (none, d')) (hwaiting : d'.Waiting) :
    d.last read = d'.last read := by
  simp only [last, lastLine, h, hwaiting.nextLine_eq]

lemma last_of_bare {bs : Bytes} (h : bs = [] ∨ bs = [Frame.carriageReturn]) :
    last read ⟨bs, false⟩ = (none, ⟨bs, false⟩) := by
  rcases h with rfl | rfl <;> rfl

lemma last_of_unended {bs : Bytes} (hbs : Frame.newline ∉ bs)
    (hfits : bs.length ≤ Frame.maxLength)
    (hbare : ¬ (bs = [] ∨ bs = [Frame.carriageReturn])) :
    last read ⟨bs, false⟩ = (report read bs, .empty) := by
  refine last_of_lastLine read (r := text bs) ?_
  simp only [lastLine, nextLine_of_unfinished hbs hfits, if_neg hbare, text_of_fits hfits]
  rfl

lemma isBlankLine_of_bare {bs : Bytes} (h : bs = [] ∨ bs = [Frame.carriageReturn]) :
    isBlankLine bs = true := by
  rcases h with rfl | rfl <;> decide

/-- The line that is left of a stream of which all has been read. -/
lemma isBlankLine_of_mem_unread_empty : ∀ line ∈ empty.unread, isBlankLine line = true := by
  decide

/-- What waits gives nothing, or is a line of which something comes. -/
lemma Waiting.last_cases (h : d.Waiting) :
    (∃ d', d.last read = (none, d') ∧ (∀ line ∈ d'.unread, isBlankLine line = true) ∧
      ∀ line ∈ d.unread, isBlankLine line = true) ∨
      ∃ line m, d.unread = [line] ∧ report read line = some m ∧
        d.last read = (some m, .empty) := by
  cases h with
  | discarding => exact .inl ⟨⟨[], true⟩, rfl, by decide, by decide⟩
  | keeping bs unended fits =>
    have lines := unread_of_notMem unended
    by_cases bare : bs = [] ∨ bs = [Frame.carriageReturn]
    · have blank : ∀ line ∈ unread ⟨bs, false⟩, isBlankLine line = true := by
        rw [lines, List.forall_mem_singleton]
        exact isBlankLine_of_bare bare
      exact .inl ⟨⟨bs, false⟩, last_of_bare read bare, blank, blank⟩
    · have last := last_of_unended read unended fits bare
      cases hreport : report read bs with
      | none =>
        refine .inl ⟨.empty, by rw [last, hreport], isBlankLine_of_mem_unread_empty, ?_⟩
        rw [lines, List.forall_mem_singleton, ← report_eq_none_iff read, hreport]
      | some m => exact .inr ⟨bs, m, lines, hreport, by rw [last, hreport]⟩

lemma eq_discard_of_nextLine (h : d.nextLine = (none, d')) : d' = d.discard := by
  simp only [nextLine] at h
  split at h
  · exact (Prod.mk.inj h).2.symm
  · split at h
    · cases h
    · cases h
    · exact (Prod.mk.inj h).2.symm

/-- A last line that is taken off leaves less to do, too. -/
lemma pending_of_lastLine (h : d.lastLine = (some r, d')) : d'.pending < d.pending := by
  cases hnext : d.nextLine with
  | mk first d₁ =>
    cases first with
    | some t =>
      obtain ⟨-, rfl⟩ := Prod.mk.inj ((lastLine_of_nextLine hnext).symm.trans h)
      exact pending_of_nextLine hnext
    | none =>
      simp only [lastLine, hnext] at h
      split_ifs at h with bare
      · cases h
      · obtain ⟨-, rfl⟩ := Prod.mk.inj h
        have kept := length_discard_le d
        rw [← eq_discard_of_nextLine hnext] at kept
        have some : 0 < d₁.buffer.length :=
          List.length_pos_iff.mpr fun hnil => bare (.inl hnil)
        simp only [pending, List.length_nil]
        split_ifs <;> omega

lemma pending_of_last {m : Except FrameError α} (h : d.last read = (some m, d')) :
    d'.pending < d.pending := by
  cases hlast : d.lastLine with
  | mk first d₁ =>
    cases first with
    | none =>
      simp only [last, hlast] at h
      cases h
    | some t =>
      obtain ⟨-, rfl⟩ := Prod.mk.inj ((last_of_lastLine read hlast).symm.trans h)
      exact pending_of_lastLine hlast

/-- Asks for messages at the end of a stream until there is none. -/
def drainLast (d : Decoder) : List (Except FrameError α) × Decoder :=
  match _h : d.last read with
  | (none, d') => ([], d')
  | (some r, d') =>
    let (more, d'') := drainLast d'
    (r :: more, d'')
termination_by d.pending
decreasing_by exact pending_of_last read _h

lemma drainLast_of_none (h : d.last read = (none, d')) : d.drainLast read = ([], d') := by
  rw [drainLast]
  split <;> simp_all

lemma drainLast_of_some {m : Except FrameError α} (h : d.last read = (some m, d')) :
    d.drainLast read = (m :: (d'.drainLast read).1, (d'.drainLast read).2) := by
  rw [drainLast]
  split <;> simp_all

/-- Decoders that give the same at the end of a stream go on alike. -/
lemma drainLast_congr (h : d.last read = d'.last read) :
    d.drainLast read = d'.drainLast read := by
  cases hlast : d'.last read with
  | mk first left =>
    rw [hlast] at h
    cases first with
    | none => rw [drainLast_of_none read h, drainLast_of_none read hlast]
    | some m => rw [drainLast_of_some read h, drainLast_of_some read hlast]

lemma fst_drainLast_eq_nil_iff : (d.drainLast read).1 = [] ↔ (d.last read).1 = none := by
  cases hlast : d.last read with
  | mk first left =>
    cases first with
    | none => simp [drainLast_of_none read hlast]
    | some m => simp [drainLast_of_some read hlast]

/-- What waits is heard of, whatever it is. -/
lemma Waiting.fst_drainLast (h : d.Waiting) :
    (d.drainLast read).1 = d.unread.filterMap (report read) := by
  rcases h.last_cases read with ⟨d', nothing, -, blank⟩ | ⟨line, m, lines, something, last⟩
  · rw [drainLast_of_none read nothing, (filterMap_report_eq_nil_iff read).mpr blank]
  · have nothing : empty.last read = (none, .empty) := last_of_bare read (.inl rfl)
    rw [drainLast_of_some read last, drainLast_of_none read nothing, lines,
      List.filterMap_cons_some something, List.filterMap_nil]

/-- No line waits behind another. -/
lemma Waiting.filterMap_takeWhile (h : d.Waiting) :
    (d.unread.takeWhile fun line => !isBlankLine line).filterMap (report read) =
      d.unread.filterMap (report read) := by
  cases h with
  | discarding => rfl
  | keeping bs unended fits =>
    rw [unread_of_notMem unended]
    cases blank : isBlankLine bs with
    | false => simp [blank]
    | true => simp [blank, (report_eq_none_iff read).mpr blank]

/-- The end of a stream takes off no more than what it gives. -/
lemma last_append_unread (d : Decoder) :
    (d.last read).1.toList ++ (d.last read).2.unread.filterMap (report read) =
      d.unread.filterMap (report read) := by
  rcases nextLine_cases d with ⟨line, d', lines, next⟩ | ⟨d', waiting, lines, next⟩
  · have last : d.last read = (report read line, d') :=
      last_of_lastLine read (lastLine_of_nextLine next)
    rw [last, lines, filterMap_report_cons]
  · rw [last_of_nextLine_eq_none read next waiting, ← lines]
    rcases waiting.last_cases read with ⟨d₁, nothing, left, blank⟩ | ⟨line, m, one, something, last⟩
    · rw [nothing, (filterMap_report_eq_nil_iff read).mpr left,
        (filterMap_report_eq_nil_iff read).mpr blank]
      rfl
    · rw [last, one, filterMap_report_cons, something,
        (filterMap_report_eq_nil_iff read).mpr isBlankLine_of_mem_unread_empty]
      rfl

/-- **What the end of a stream does not give is left.** -/
theorem drainLast_append_unread (d : Decoder) :
    (d.drainLast read).1 ++ (d.drainLast read).2.unread.filterMap (report read) =
      d.unread.filterMap (report read) := by
  fun_induction drainLast read d with
  | case1 d d' heq =>
    have left := last_append_unread read d
    rwa [heq] at left
  | case2 d m d' heq more left hmore ih =>
    have left := last_append_unread read d
    rw [heq] at left
    rw [hmore] at ih
    rw [← left, ← ih]
    rfl

/-- **Who asks for what has arrived, and then for what is left, hears of every
line.** -/
theorem drain_append_drainLast (d : Decoder) :
    (d.drain read).1 ++ ((d.drain read).2.drainLast read).1 =
      d.unread.filterMap (report read) := by
  induction hn : d.pending using Nat.strongRecOn generalizing d with
  | ind n ih =>
    rcases nextLine_cases d with ⟨line, d', lines, next⟩ | ⟨d', waiting, lines, next⟩
    · have first : d.drain read =
          ((report read line).toList ++ (d'.drain read).1, (d'.drain read).2) :=
        drain_of_nextLine read next
      have more := ih d'.pending (hn ▸ pending_of_nextLine next) d' rfl
      rw [first, lines, List.append_assoc, more, filterMap_report_cons]
    · rw [drain_of_none read (next_of_none read next), List.nil_append,
        waiting.fst_drainLast, lines]

/-- **Who asks for what is left only, hears of the lines before the first blank
one.** -/
theorem fst_drainLast (d : Decoder) :
    (d.drainLast read).1 =
      (d.unread.takeWhile fun line => !isBlankLine line).filterMap (report read) := by
  induction hn : d.pending using Nat.strongRecOn generalizing d with
  | ind n ih =>
    rcases nextLine_cases d with ⟨line, d', lines, next⟩ | ⟨d', waiting, lines, next⟩
    · have last : d.last read = (report read line, d') :=
        last_of_lastLine read (lastLine_of_nextLine next)
      rw [lines]
      cases hreport : report read line with
      | none =>
        have blank : isBlankLine line = true := (report_eq_none_iff read).mp hreport
        rw [hreport] at last
        rw [drainLast_of_none read last, List.takeWhile_cons_of_neg (by simp [blank]),
          List.filterMap_nil]
      | some m =>
        have visible : ¬ isBlankLine line = true := by simp [← report_eq_none_iff read, hreport]
        have more := ih d'.pending (hn ▸ pending_of_nextLine next) d' rfl
        rw [hreport] at last
        rw [drainLast_of_some read last, more, List.takeWhile_cons_of_pos (by simp [visible]),
          List.filterMap_cons_some hreport]
    · rw [drainLast_congr read (last_of_nextLine_eq_none read next waiting),
        waiting.fst_drainLast, ← lines, waiting.filterMap_takeWhile]

/-- Some lines fall into those before the first blank one and the others. -/
lemma exists_append_of_blank (lines : List Bytes) :
    ∃ seen hidden, lines = seen ++ hidden ∧ (∀ line ∈ seen, isBlankLine line = false) ∧
      (∀ line ∈ hidden.head?, isBlankLine line = true) ∧
      (lines.takeWhile fun line => !isBlankLine line) = seen := by
  refine ⟨_, lines.dropWhile fun line => !isBlankLine line,
    List.takeWhile_append_dropWhile.symm, fun line h => ?_, fun line h => ?_, rfl⟩
  · have taken := List.all_eq_true.mp List.all_takeWhile line h
    simpa using taken
  · have first := List.head?_dropWhile_not (fun line => !isBlankLine line) lines
    rw [Option.mem_def.mp h] at first
    simpa using first

/-- **What the end of a stream hides.**  The lines that have not been read fall
into those before the first blank one and the others.  Who asks for what is left
until there is nothing hears of the former only, and the others are still there;
who asks for what has arrived first hears of all.  So both hear the same if and
only if all the others are blank.  There is nothing at once just where the first
line is blank, or there is none. -/
theorem drainLast_eq_iff (d : Decoder) :
    ∃ seen hidden, d.unread = seen ++ hidden ∧
      (∀ line ∈ seen, isBlankLine line = false) ∧
      (∀ line ∈ hidden.head?, isBlankLine line = true) ∧
      (d.drainLast read).1 = seen.filterMap (report read) ∧
      (d.drainLast read).2.unread.filterMap (report read) = hidden.filterMap (report read) ∧
      (d.drain read).1 ++ ((d.drain read).2.drainLast read).1 =
        seen.filterMap (report read) ++ hidden.filterMap (report read) ∧
      ((d.last read).1 = none ↔ seen = []) ∧
      ((d.drainLast read).1 = (d.drain read).1 ++ ((d.drain read).2.drainLast read).1 ↔
        ∀ line ∈ hidden, isBlankLine line = true) := by
  obtain ⟨seen, hidden, lines, visible, blank, hseen⟩ := exists_append_of_blank d.unread
  have last : (d.drainLast read).1 = seen.filterMap (report read) := by rw [fst_drainLast, hseen]
  have all : (d.drain read).1 ++ ((d.drain read).2.drainLast read).1 =
      seen.filterMap (report read) ++ hidden.filterMap (report read) := by
    rw [drain_append_drainLast, lines, List.filterMap_append]
  have left : (d.drainLast read).2.unread.filterMap (report read) =
      hidden.filterMap (report read) := by
    rw [← List.append_right_inj (d.drainLast read).1, drainLast_append_unread, last, lines,
      List.filterMap_append]
  refine ⟨seen, hidden, lines, visible, blank, last, left, all, ?_, ?_⟩
  · rw [← fst_drainLast_eq_nil_iff, last, filterMap_report_eq_nil_iff]
    constructor
    · exact fun h => List.eq_nil_iff_forall_not_mem.mpr fun line hm =>
        Bool.false_ne_true ((visible line hm).symm.trans (h line hm))
    · rintro rfl
      exact fun line hm => absurd hm List.not_mem_nil
  · rw [all, last, List.self_eq_append_right, filterMap_report_eq_nil_iff]

end

/-- **A request behind a blank line.**  The end of the stream answers that there is
nothing while the request is still there; who asks for what has arrived first hears
of it.  So the two do not hear the same. -/
theorem drainLast_of_blankLine :
    let d : Decoder := ⟨Utf8.bytes "\n\x7b\"method\":\"Gossip\"\x7d\n", false⟩
    let request : Bytes := Utf8.bytes "\x7b\"method\":\"Gossip\"\x7d"
    (d.last Request.parse?).1 = none ∧ request ∈ (d.last Request.parse?).2.unread ∧
      isBlankLine request = false ∧ (d.drainLast Request.parse?).1 = [] ∧
      (d.drain Request.parse?).1 ++ ((d.drain Request.parse?).2.drainLast Request.parse?).1 =
        [.ok .gossip] ∧
      (d.drainLast Request.parse?).1 ≠
        (d.drain Request.parse?).1 ++ ((d.drain Request.parse?).2.drainLast Request.parse?).1 := by
  intro d request
  have nothing : (d.last Request.parse?).1 = none := by decide +kernel
  have left : request ∈ (d.last Request.parse?).2.unread := by decide +kernel
  have visible : isBlankLine request = false := by decide +kernel
  have lines : d.unread = [[], request, []] := by decide +kernel
  have blank : report Request.parse? [] = none := (report_eq_none_iff _).mpr (by decide)
  have spelled : report Request.parse? request = some (.ok .gossip) :=
    report_render (k := .request) (v := Request.gossip.toJson) Request.gossip.isJson_toJson
      (by decide +kernel)
  have last : (d.drainLast Request.parse?).1 = [] := (fst_drainLast_eq_nil_iff _).mpr nothing
  have all : (d.drain Request.parse?).1 ++
      ((d.drain Request.parse?).2.drainLast Request.parse?).1 = [.ok .gossip] := by
    rw [drain_append_drainLast, lines]
    simp only [List.filterMap_cons, List.filterMap_nil, blank, spelled]
  refine ⟨nothing, left, visible, last, all, ?_⟩
  rw [last, all]
  exact (List.cons_ne_nil _ _).symm

end Decoder

end QuorumStore
