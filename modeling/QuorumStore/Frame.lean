/-
Messages as the lines of a byte stream.

* `Frame.encode`: the line of a message, unless it is longer than a frame may be;
* `Frame.put`: such a line behind what was written before;
* `Decoder.next`: the next message among the bytes that have arrived;
* `Decoder.last`: what is left when no more bytes will come.

A line ends at a newline, and one carriage return before it is dropped.  A line
that is too long is reported once and then thrown away through its newline, in
as many pieces as it arrives in.  Blank lines carry nothing.
-/
import QuorumStore.Message.Reader
import QuorumStore.Message.Writer
import QuorumStore.Text.Blank

namespace QuorumStore

namespace Frame

/-- The most bytes that a line may have before its newline. -/
def maxLength : Nat := 8388608

/-- The line of a message, with its newline. -/
def encode (message : Json) : Except FrameError String :=
  let line := message.render
  if maxLength < line.utf8ByteSize then .error (.tooLong maxLength)
  else .ok (line.push '\n')

/-- Writes a message behind what a buffer holds.  A message that is too long
leaves the buffer as it is. -/
def put (buffer : Bytes) (message : Json) : Except FrameError Unit × Bytes :=
  match encode message with
  | .ok line => (.ok (), buffer ++ Utf8.bytes line)
  | .error e => (.error e, buffer)

/-- The byte that ends a line. -/
def newline : UInt8 := 10

/-- The byte that may stand before a newline. -/
def carriageReturn : UInt8 := 13

/-- A line without the carriage return at its end. -/
def trimReturn (line : Bytes) : Bytes :=
  if line.getLast? = some carriageReturn then line.dropLast else line

end Frame

/-- The bytes of a stream that have arrived and are not yet read. -/
structure Decoder where
  /-- The bytes. -/
  buffer : Bytes
  /-- Whether the line at the front is being thrown away. -/
  discarding : Bool
  deriving DecidableEq

namespace Decoder

/-- A decoder of a stream of which nothing has arrived. -/
def empty : Decoder := ⟨[], false⟩

instance : Inhabited Decoder := ⟨empty⟩

/-- Takes in bytes that arrive. -/
def feed (d : Decoder) (bs : Bytes) : Decoder :=
  { d with buffer := d.buffer ++ bs }

/-- What the front of a stream holds. -/
inductive Line where
  /-- A line without its end, and the bytes behind it. -/
  | found (line rest : Bytes)
  /-- A line that is longer than a frame may be. -/
  | overlong
  /-- The beginning of a line. -/
  | unfinished

/-- The line at the front of some bytes. -/
def frontLine (bs : Bytes) : Line :=
  let line := bs.takeWhile (· ≠ Frame.newline)
  match bs.drop line.length with
  | _ :: rest => if line.length ≤ Frame.maxLength then .found line rest else .overlong
  | [] => if line.length ≤ Frame.maxLength then .unfinished else .overlong

/-- Throws away what belongs to a line that was too long. -/
def discard (d : Decoder) : Decoder :=
  if d.discarding then
    match d.buffer.dropWhile (· ≠ Frame.newline) with
    | _ :: rest => ⟨rest, false⟩
    | [] => ⟨[], true⟩
  else d

/-- The text of a line. -/
def lineText (line : Bytes) : Except FrameError String :=
  match Utf8.text? (Frame.trimReturn line) with
  | some s => .ok s
  | none => .error .notText

/-- The next complete line, if one has arrived. -/
def nextLine (d : Decoder) : Option (Except FrameError String) × Decoder :=
  let d := d.discard
  if d.discarding then (none, d)
  else
    match frontLine d.buffer with
    | .found line rest => (some (lineText line), ⟨rest, false⟩)
    | .overlong => (some (.error (.tooLong Frame.maxLength)), ⟨d.buffer, true⟩)
    | .unfinished => (none, d)

/-- The next line when no more bytes will come: what is left counts as a line,
unless it is nothing or a carriage return alone. -/
def lastLine (d : Decoder) : Option (Except FrameError String) × Decoder :=
  match d.nextLine with
  | (some r, d) => (some r, d)
  | (none, d) =>
    if d.buffer = [] ∨ d.buffer = [Frame.carriageReturn] then (none, d)
    else (some (lineText d.buffer), ⟨[], d.discarding⟩)

/-- Throwing away leaves no more bytes than there were. -/
theorem length_discard_le (d : Decoder) : d.discard.buffer.length ≤ d.buffer.length := by
  unfold discard
  split
  · have h := (List.dropWhile_sublist (l := d.buffer) (· ≠ Frame.newline)).length_le
    split
    · rename_i heq
      rw [heq] at h
      simp only [List.length_cons] at h
      exact Nat.le_of_succ_le h
    · exact Nat.zero_le _
  · exact Nat.le_refl _

/-- A line that is found leaves fewer bytes than there were. -/
theorem length_of_frontLine_found {bs line rest : Bytes} (h : frontLine bs = .found line rest) :
    rest.length < bs.length := by
  simp only [frontLine] at h
  split at h
  · rename_i b tail heq
    split at h
    · cases h
      have hl := congrArg List.length heq
      simp only [List.length_drop, List.length_cons] at hl
      omega
    · cases h
  · split at h <;> cases h

/-- A text that is read off the front leaves fewer bytes than there were. -/
theorem length_of_nextLine_text {d d' : Decoder} {s : String}
    (h : d.nextLine = (some (.ok s), d')) : d'.buffer.length < d.buffer.length := by
  simp only [nextLine] at h
  split at h
  · cases h
  · split at h
    · rename_i line rest heq
      obtain ⟨-, rfl⟩ := Prod.mk.inj h
      exact Nat.lt_of_lt_of_le (length_of_frontLine_found heq) (length_discard_le d)
    · cases h
    · cases h

section

variable {α : Type} (read : String → Option α)

/-- The message that a text spells. -/
def readLine (s : String) : Except FrameError α :=
  match read s with
  | some a => .ok a
  | none => .error .malformed

/-- The next message that has arrived completely; blank lines are passed over. -/
def next (d : Decoder) : Option (Except FrameError α) × Decoder :=
  match _h : d.nextLine with
  | (some (.ok s), d') => if isBlankText s then next d' else (some (readLine read s), d')
  | (some (.error e), d') => (some (.error e), d')
  | (none, d') => (none, d')
termination_by d.buffer.length
decreasing_by exact length_of_nextLine_text _h

/-- The message on the next line when no more bytes will come.  A blank line is
taken off and gives no message. -/
def last (d : Decoder) : Option (Except FrameError α) × Decoder :=
  match d.lastLine with
  | (some (.ok s), d) => if isBlankText s then (none, d) else (some (readLine read s), d)
  | (some (.error e), d) => (some (.error e), d)
  | (none, d) => (none, d)

end

end Decoder

end QuorumStore
